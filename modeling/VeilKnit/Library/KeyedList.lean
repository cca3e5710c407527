import Mathlib.Data.List.Sort

/-!
# Lists sorted by a key

A list whose elements have strictly increasing keys is a finite map. Binary search
finds an element or the place where it belongs; insertion, replacement and removal
at that place act on the map and keep the order.

A list cut into segments is again sorted when each segment is and the keys of
earlier segments are below those of later ones.
-/

namespace VeilKnit.Library.KeyedList

variable {α κ : Type*} [LinearOrder κ] (key : α → κ)

/-- Keys increase strictly along the list. -/
def Strict (l : List α) : Prop :=
  l.Pairwise fun a b => key a < key b

instance (l : List α) : Decidable (Strict key l) :=
  inferInstanceAs (Decidable (l.Pairwise fun a b => key a < key b))

/-- The position of the element with the key, or the position at which an element
with the key keeps the list sorted. -/
def binarySearch (k : κ) (l : List α) : Except Nat Nat :=
  let i := l.findIdx fun a => decide (k ≤ key a)
  match l[i]? with
  | some a => if key a = k then .ok i else .error i
  | none => .error i

/-- The element with the key. -/
def lookup (k : κ) (l : List α) : Option α :=
  match binarySearch key k l with
  | .ok i => l[i]?
  | .error _ => none

/-- Replace the element with the same key, or insert. -/
def upsert (a : α) (l : List α) : List α :=
  match binarySearch key (key a) l with
  | .ok i => l.set i a
  | .error i => l.insertIdx i a

/-- Remove the element with the key. -/
def remove (k : κ) (l : List α) : List α :=
  match binarySearch key k l with
  | .ok i => l.eraseIdx i
  | .error _ => l

variable {key} {l : List α}

theorem Strict.inj (h : Strict key l) {a b : α} (ha : a ∈ l) (hb : b ∈ l)
    (hab : key a = key b) : a = b := by
  induction l with
  | nil => cases ha
  | cons c l ih =>
    obtain ⟨hc, hl⟩ := List.pairwise_cons.mp h
    rcases List.mem_cons.mp ha with rfl | ha' <;> rcases List.mem_cons.mp hb with rfl | hb'
    · rfl
    · exact absurd hab (hc b hb').ne
    · exact absurd hab (hc a ha').ne'
    · exact ih hl ha' hb'

theorem Strict.nodup (h : Strict key l) : l.Nodup := by
  apply h.imp
  rintro a b hlt rfl
  exact lt_irrefl _ hlt

private theorem set_at (before after : List α) (a b : α) :
    (before ++ b :: after).set before.length a = before ++ a :: after := by
  simp [List.set_append_right]

private theorem eraseIdx_at (before after : List α) (b : α) :
    (before ++ b :: after).eraseIdx before.length = before ++ after := by
  rw [List.eraseIdx_append_of_length_le (le_refl _), Nat.sub_self, List.eraseIdx_cons_zero]

private theorem insertIdx_at (before after : List α) (a : α) :
    (before ++ after).insertIdx before.length a = before ++ a :: after := by
  induction before with
  | nil => rfl
  | cons b before ih => simp [ih]

section

variable (h : Strict key l)

include h

/-- A binary search splits the list at the key. -/
theorem binarySearch_cases (k : κ) :
    (∃ before a after, l = before ++ a :: after ∧ key a = k ∧
        binarySearch key k l = .ok before.length) ∨
      ∃ before after, l = before ++ after ∧ (∀ a ∈ before, key a < k) ∧
        (∀ a ∈ after, k < key a) ∧ binarySearch key k l = .error before.length := by
  have hsplit : ∀ l : List α, Strict key l → ∃ before after, l = before ++ after ∧
      (∀ a ∈ before, key a < k) ∧ (∀ a ∈ after, k ≤ key a) ∧
      l.findIdx (fun a => decide (k ≤ key a)) = before.length := by
    intro l hl
    induction l with
    | nil => exact ⟨[], [], rfl, by simp, by simp, rfl⟩
    | cons b l ih =>
      obtain ⟨hb, hl⟩ := List.pairwise_cons.mp hl
      by_cases hk : k ≤ key b
      · refine ⟨[], b :: l, rfl, by simp, ?_, by simp [List.findIdx_cons, hk]⟩
        intro a ha
        rcases List.mem_cons.mp ha with rfl | ha
        · exact hk
        · exact hk.trans (hb a ha).le
      obtain ⟨before, after, rfl, hbefore, hafter, hidx⟩ := ih hl
      refine ⟨b :: before, after, rfl, ?_, hafter, by simp [List.findIdx_cons, hk, hidx]⟩
      intro a ha
      rcases List.mem_cons.mp ha with rfl | ha
      · exact not_le.mp hk
      · exact hbefore a ha
  obtain ⟨before, after, rfl, hbefore, hafter, hidx⟩ := hsplit l h
  cases after with
  | nil =>
    refine .inr ⟨before, [], rfl, hbefore, by simp, ?_⟩
    have hnone : (before ++ [])[before.length]? = none := by simp
    simp only [binarySearch, hidx, hnone]
  | cons a after =>
    have hget : (before ++ a :: after)[before.length]? = some a := by simp
    by_cases ha : key a = k
    · refine .inl ⟨before, a, after, rfl, ha, ?_⟩
      simp only [binarySearch, hidx, hget, if_pos ha]
    refine .inr ⟨before, a :: after, rfl, hbefore, ?_, ?_⟩
    · have hlt : k < key a := lt_of_le_of_ne (hafter a List.mem_cons_self) (Ne.symm ha)
      intro b hb
      rcases List.mem_cons.mp hb with rfl | hb
      · exact hlt
      · have hstrict := List.pairwise_cons.mp (List.pairwise_append.mp h).2.1
        exact hlt.trans (hstrict.1 b hb)
    · simp only [binarySearch, hidx, hget, if_neg ha]

theorem lookup_eq_some_iff {k : κ} {a : α} : lookup key k l = some a ↔ a ∈ l ∧ key a = k := by
  rcases binarySearch_cases h k with ⟨before, b, after, rfl, hb, hsearch⟩ |
      ⟨before, after, rfl, hbefore, hafter, hsearch⟩
  · have hlookup : lookup key k (before ++ b :: after) = some b := by simp [lookup, hsearch]
    rw [hlookup, Option.some.injEq]
    constructor
    · rintro rfl
      exact ⟨by simp, hb⟩
    · rintro ⟨ha, hka⟩
      exact h.inj (by simp) ha (hb.trans hka.symm)
  have hlookup : lookup key k (before ++ after) = none := by simp [lookup, hsearch]
  rw [hlookup]
  constructor
  · intro hnone
    cases hnone
  · rintro ⟨ha, rfl⟩
    rcases List.mem_append.mp ha with ha | ha
    · exact absurd rfl (hbefore a ha).ne
    · exact absurd rfl (hafter a ha).ne

theorem mem_remove {k : κ} {a : α} : a ∈ remove key k l ↔ a ∈ l ∧ key a ≠ k := by
  rcases binarySearch_cases h k with ⟨before, b, after, rfl, rfl, hsearch⟩ |
      ⟨before, after, rfl, hbefore, hafter, hsearch⟩
  · have hremove : remove key (key b) (before ++ b :: after) = before ++ after := by
      simp only [remove, hsearch, eraseIdx_at]
    have hlt : ∀ a ∈ before, key a < key b := fun a ha =>
      (List.pairwise_append.mp h).2.2 a ha b List.mem_cons_self
    have hgt : ∀ a ∈ after, key b < key a := fun a ha =>
      (List.pairwise_cons.mp (List.pairwise_append.mp h).2.1).1 a ha
    rw [hremove, List.mem_append]
    constructor
    · rintro (ha | ha)
      · exact ⟨by simp [ha], (hlt a ha).ne⟩
      · exact ⟨by simp [ha], (hgt a ha).ne'⟩
    rintro ⟨ha, hne⟩
    rcases List.mem_append.mp ha with ha | ha
    · exact .inl ha
    · rcases List.mem_cons.mp ha with rfl | ha
      · exact absurd rfl hne
      · exact .inr ha
  have hremove : remove key k (before ++ after) = before ++ after := by simp [remove, hsearch]
  rw [hremove]
  refine ⟨fun ha => ⟨ha, ?_⟩, And.left⟩
  rcases List.mem_append.mp ha with ha | ha
  · exact (hbefore a ha).ne
  · exact (hafter a ha).ne'

theorem Strict.remove (k : κ) : Strict key (remove key k l) := by
  have hsub : (KeyedList.remove key k l).Sublist l := by
    unfold KeyedList.remove
    split
    · exact List.eraseIdx_sublist _ _
    · exact List.Sublist.refl _
  exact List.Pairwise.sublist hsub h

/-- An upsert is the removal of the key's element and the insertion of the new one. -/
theorem mem_upsert {a b : α} : b ∈ upsert key a l ↔ b = a ∨ (b ∈ l ∧ key b ≠ key a) := by
  rw [← mem_remove h]
  rcases binarySearch_cases h (key a) with ⟨before, c, after, rfl, hc, hsearch⟩ |
      ⟨before, after, rfl, hbefore, hafter, hsearch⟩
  · simp only [upsert, remove, hsearch, set_at, eraseIdx_at, List.mem_append, List.mem_cons]
    tauto
  · simp only [upsert, remove, hsearch, insertIdx_at, List.mem_append, List.mem_cons]
    tauto

theorem Strict.upsert (a : α) : Strict key (upsert key a l) := by
  rcases binarySearch_cases h (key a) with ⟨before, c, after, rfl, hc, hsearch⟩ |
      ⟨before, after, rfl, hbefore, hafter, hsearch⟩
  · simp only [KeyedList.upsert, hsearch, set_at]
    obtain ⟨h₁, h₂, h₃⟩ := List.pairwise_append.mp h
    obtain ⟨h₄, h₅⟩ := List.pairwise_cons.mp h₂
    refine List.pairwise_append.mpr ⟨h₁, List.pairwise_cons.mpr ⟨?_, h₅⟩, ?_⟩
    · intro b hb
      rw [← hc]
      exact h₄ b hb
    · intro b hb d hd
      rcases List.mem_cons.mp hd with rfl | hd
      · rw [← hc]
        exact h₃ b hb c List.mem_cons_self
      · exact h₃ b hb d (List.mem_cons_of_mem _ hd)
  simp only [KeyedList.upsert, hsearch, insertIdx_at]
  obtain ⟨h₁, h₂, h₃⟩ := List.pairwise_append.mp h
  refine List.pairwise_append.mpr ⟨h₁, List.pairwise_cons.mpr ⟨hafter, h₂⟩, ?_⟩
  intro b hb d hd
  rcases List.mem_cons.mp hd with rfl | hd
  · exact hbefore b hb
  · exact h₃ b hb d hd

end

/-- Segments that are sorted and lie one after the other make a sorted list. -/
theorem strict_flatten {segments : List (List α)} (hsorted : ∀ s ∈ segments, Strict key s)
    (hapart : segments.Pairwise fun s t => ∀ a ∈ s, ∀ b ∈ t, key a < key b) :
    Strict key segments.flatten :=
  List.pairwise_flatten.mpr ⟨hsorted, hapart⟩

/-- Sorted lists with the same elements are equal. -/
theorem Strict.eq_of_mem_iff {m : List α} (hl : Strict key l) (hm : Strict key m)
    (h : ∀ a, a ∈ l ↔ a ∈ m) : l = m := by
  have hantisymm : Std.Antisymm fun a b : α => key a < key b :=
    ⟨fun _ _ h₁ h₂ => absurd h₂ (lt_asymm h₁)⟩
  exact List.Pairwise.eq_of_mem_iff hl hm h

end VeilKnit.Library.KeyedList
