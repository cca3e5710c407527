import Mathlib.Tactic.IntervalCases
import VeilKnit.Library.Utf8

/-!
# Texts

Classes of characters, and the tests on texts that use them.
-/

namespace VeilKnit.Library.Text

def isAscii (text : String) : Bool := text.toList.all fun c => c.toNat < 128

/-- The characters of the general category `Cc`. -/
def isControl (c : Char) : Bool := c.toNat < 32 || 127 ≤ c.toNat && c.toNat < 160

def isAsciiControl (c : Char) : Bool := c.toNat < 32 || c.toNat = 127

def isAsciiWhitespace (c : Char) : Bool :=
  c = ' ' || c = '\t' || c = '\n' || c = '\x0c' || c = '\r'

/-- An ASCII name without blanks, of at least one and at most some bytes. -/
def isAsciiName (text : String) (maximum : Nat) : Bool :=
  text ≠ "" && text.utf8ByteSize ≤ maximum && isAscii text &&
    text.toList.all fun c => ¬ isAsciiControl c && ¬ isAsciiWhitespace c

def eqIgnoreAsciiCase (a b : String) : Bool :=
  a.toList.map Char.toLower = b.toList.map Char.toLower

/-- The text without white space at its ends. -/
def trim (text : String) : String :=
  String.ofList ((text.toList.dropWhile fun c => Utf8.isWhitespace c.toNat).rdropWhile
    fun c => Utf8.isWhitespace c.toNat)

/-- The text trimmed and in lower case. -/
def trimToLower (text : String) : String :=
  String.ofList ((trim text).toList.map Char.toLower)

/-- A letter in upper case becomes one in lower case, and everything else stays. -/
theorem toLower_cases (c : Char) :
    c.toLower = c ∨ 65 ≤ c.toNat ∧ c.toNat ≤ 90 ∧ c.toLower = Char.ofNat (c.toNat + 32) := by
  by_cases hupper : 65 ≤ c.toNat ∧ c.toNat ≤ 90
  · refine Or.inr ⟨hupper.1, hupper.2, ?_⟩
    have hchar : c = Char.ofNat c.toNat := (Char.ofNat_toNat c).symm
    obtain ⟨hlow, hhigh⟩ := hupper
    generalize c.toNat = n at hchar hlow hhigh
    subst hchar
    interval_cases n <;> decide
  · refine Or.inl ?_
    refine dif_neg fun h => hupper ?_
    exact ⟨UInt32.le_iff_toNat_le.mp h.1, UInt32.le_iff_toNat_le.mp h.2⟩

theorem isWhitespace_toLower (c : Char) :
    Utf8.isWhitespace c.toLower.toNat = Utf8.isWhitespace c.toNat := by
  rcases toLower_cases c with hsame | ⟨hlow, hhigh, hlower⟩
  · rw [hsame]
  · rw [hlower]
    generalize c.toNat = n at hlow hhigh
    interval_cases n <;> decide

theorem toLower_toLower (c : Char) : c.toLower.toLower = c.toLower := by
  rcases toLower_cases c with hsame | ⟨hlow, hhigh, hlower⟩
  · rw [hsame, hsame]
  · rw [hlower]
    generalize c.toNat = n at hlow hhigh
    interval_cases n <;> decide

/-- White space at the ends of a list is removed at once. -/
theorem dropWhile_rdropWhile_dropWhile {α : Type*} (p : α → Bool) (l : List α) :
    ((l.dropWhile p).rdropWhile p).dropWhile p = (l.dropWhile p).rdropWhile p := by
  refine List.dropWhile_eq_self_iff.mpr fun hpos => ?_
  have hpre := List.rdropWhile_prefix p (l.dropWhile p)
  have hlong := hpos.trans_le hpre.length_le
  rw [hpre.getElem hpos]
  exact List.dropWhile_get_zero_not p l hlong

theorem trimToLower_trimToLower (text : String) :
    trimToLower (trimToLower text) = trimToLower text := by
  have hspace : (fun c : Char => Utf8.isWhitespace c.toNat) ∘ Char.toLower =
      fun c => Utf8.isWhitespace c.toNat := funext isWhitespace_toLower
  have hfront : ∀ l : List Char, (l.map Char.toLower).dropWhile
      (fun c => Utf8.isWhitespace c.toNat) =
        (l.dropWhile fun c => Utf8.isWhitespace c.toNat).map Char.toLower := by
    intro l
    rw [List.dropWhile_map, hspace]
  have hback : ∀ l : List Char, (l.map Char.toLower).rdropWhile
      (fun c => Utf8.isWhitespace c.toNat) =
        (l.rdropWhile fun c => Utf8.isWhitespace c.toNat).map Char.toLower := by
    intro l
    rw [List.rdropWhile, ← List.map_reverse, hfront, ← List.map_reverse, List.rdropWhile]
  simp only [trimToLower, trim, String.toList_ofList]
  rw [hfront, dropWhile_rdropWhile_dropWhile, hback, List.rdropWhile_idempotent, List.map_map]
  congr 2
  exact funext toLower_toLower

/-! ## Cutting and stripping lists of characters -/

section Cutting

variable {α : Type*} (p : α → Bool)

/-- The list without the members of a class at its ends. -/
def trimMatches (l : List α) : List α := (l.dropWhile p).rdropWhile p

variable {l : List α}

/-- Stripping changes nothing where both ends stay. -/
theorem trimMatches_eq_self (hhead : ∀ a ∈ l.head?, p a = false)
    (hlast : ∀ a ∈ l.getLast?, p a = false) : trimMatches p l = l := by
  have hfront : l.dropWhile p = l := by
    refine List.dropWhile_eq_self_iff.mpr fun hpos => ?_
    rw [hhead l[0] (by rw [List.head?_eq_getElem?]; exact List.getElem?_eq_getElem hpos)]
    exact Bool.false_ne_true
  rw [trimMatches, hfront, List.rdropWhile_eq_self_iff]
  intro hne
  rw [hlast _ (List.getLast?_eq_some_getLast hne)]
  exact Bool.false_ne_true

variable {a : α}

theorem head?_trimMatches (h : a ∈ (trimMatches p l).head?) : p a = false := by
  have hself := dropWhile_rdropWhile_dropWhile p l
  have hpos : 0 < (trimMatches p l).length := List.length_pos_of_mem (List.mem_of_mem_head? h)
  have hfirst := List.dropWhile_eq_self_iff.mp hself hpos
  rw [List.head?_eq_getElem?] at h
  obtain ⟨_, rfl⟩ := List.getElem?_eq_some_iff.mp h
  exact Bool.eq_false_iff.mpr hfirst

theorem getLast?_trimMatches (h : a ∈ (trimMatches p l).getLast?) :
    p a = false := by
  have hself : (trimMatches p l).rdropWhile p = trimMatches p l := List.rdropWhile_idempotent ..
  have hne : trimMatches p l ≠ [] := List.ne_nil_of_mem (List.mem_of_getLast? h)
  have hend := List.rdropWhile_eq_self_iff.mp hself hne
  rw [List.getLast?_eq_some_getLast hne, Option.mem_some_iff] at h
  rw [h] at hend
  exact Bool.eq_false_iff.mpr hend

/-- The pieces between the separators hold no separator. -/
theorem not_mem_splitOnP {piece : List α} (hpiece : piece ∈ l.splitOnP p)
    (ha : a ∈ piece) : p a = false := by
  induction l generalizing piece with
  | nil =>
    rw [List.splitOnP_nil, List.mem_singleton] at hpiece
    rw [hpiece] at ha
    exact absurd ha List.not_mem_nil
  | cons b l ih =>
    rw [List.splitOnP_cons_eq_if_modifyHead] at hpiece
    by_cases hb : p b = true
    · rw [if_pos hb] at hpiece
      rcases List.mem_cons.mp hpiece with hnil | hrest
      · rw [hnil] at ha
        exact absurd ha List.not_mem_nil
      · exact ih hrest ha
    -- The first piece grows by the character, the others stay.
    rw [if_neg hb] at hpiece
    obtain ⟨first, others, hsplit⟩ := List.exists_cons_of_ne_nil (List.splitOnP_ne_nil p l)
    rw [hsplit, List.modifyHead_cons] at hpiece
    rcases List.mem_cons.mp hpiece with hfirst | hother
    · rw [hfirst] at ha
      rcases List.mem_cons.mp ha with hab | hold
      · rw [hab]
        exact Bool.eq_false_iff.mpr hb
      · exact ih (hsplit ▸ List.mem_cons_self) hold
    · exact ih (hsplit ▸ List.mem_cons_of_mem _ hother) ha

end Cutting

end VeilKnit.Library.Text
