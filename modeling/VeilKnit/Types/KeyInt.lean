import Mathlib.Tactic.LinearCombination
import Mathlib.Algebra.Order.Group.Unbundled.Int
import VeilKnit.Library.Codec

/-!
# Numbers of the key space

Distances between nodes are taken on the first thirty-two bytes of their record keys, read as a
number with the most significant byte first. The arithmetic is done byte by byte.
-/

namespace VeilKnit

open Library

structure KeyInt where
  bytes : Bytes
  length_bytes : bytes.length = 32

namespace KeyInt

/-- The part of a record key's text between its first two colons. -/
def pubkeyText (text : List Char) : Option (List Char) :=
  match text.dropWhile (· ≠ ':') with
  | [] => none
  | _ :: rest => some (rest.takeWhile (· ≠ ':'))

/-- The number of a record key, given by its text. Base64 is a parameter. -/
def fromRecordKey (decode : List Char → Option Bytes) (text : List Char) : Option KeyInt := do
  let pubkey ← pubkeyText text
  let bytes ← decode pubkey
  if h : bytes.length < 32 then none
  else some ⟨bytes.take 32, List.length_take_of_le (not_lt.mp h)⟩

def lessThan (a b : KeyInt) : Bool := a.bytes < b.bytes

def cmp (a b : KeyInt) : Ordering := compareOfLessAndEq a.bytes b.bytes

/-- The loop of a subtraction, from the last byte to the first, and what is borrowed of the byte
before. -/
def subtract : Bytes → Bytes → Bytes × Int
  | l :: larger, s :: smaller =>
    let rest := subtract larger smaller
    let diff : Int := l.toNat - s.toNat - rest.2
    if diff < 0 then (UInt8.ofNat (diff + 256).toNat :: rest.1, 1)
    else (UInt8.ofNat diff.toNat :: rest.1, 0)
  | _, _ => ([], 0)

theorem length_subtract {larger smaller : Bytes} (h : larger.length = smaller.length) :
    (subtract larger smaller).1.length = larger.length := by
  induction larger generalizing smaller with
  | nil => rfl
  | cons l larger ih =>
    cases smaller with
    | nil => cases h
    | cons s smaller =>
      have hrest := ih (Nat.succ.inj h)
      rw [subtract]
      split <;> simpa using hrest

def absDiff (a b : KeyInt) : KeyInt :=
  if a.bytes < b.bytes then
    ⟨(subtract b.bytes a.bytes).1,
      (length_subtract (b.length_bytes.trans a.length_bytes.symm)).trans b.length_bytes⟩
  else
    ⟨(subtract a.bytes b.bytes).1,
      (length_subtract (a.length_bytes.trans b.length_bytes.symm)).trans a.length_bytes⟩

/-- The number that bytes spell. -/
def number : Bytes → Nat
  | [] => 0
  | byte :: bytes => byte.toNat * 256 ^ bytes.length + number bytes

def toNat (k : KeyInt) : Nat := number k.bytes

theorem number_lt (bytes : Bytes) : number bytes < 256 ^ bytes.length := by
  induction bytes with
  | nil => exact Nat.one_pos
  | cons byte bytes ih =>
    have hbyte := Nat.mul_le_mul_right (256 ^ bytes.length) (Nat.le_of_lt_succ byte.toNat_lt)
    rw [number, List.length_cons, pow_succ]
    omega

variable {l s : Bytes}

theorem number_lt_iff (h : l.length = s.length) : l < s ↔ number l < number s := by
  induction l generalizing s with
  | nil =>
    rw [List.length_eq_zero_iff.mp h.symm]
    simp [number]
  | cons a l ih =>
    cases s with
    | nil => cases h
    | cons b s =>
      have hlength : l.length = s.length := Nat.succ.inj h
      have hl := number_lt l
      have hs := number_lt s
      rw [List.cons_lt_cons_iff, ih hlength, number, number, hlength]
      rw [hlength] at hl
      constructor
      · rintro (hlt | ⟨rfl, hlt⟩)
        · have hmul := Nat.mul_le_mul_right (256 ^ s.length) (UInt8.lt_iff_toNat_lt.mp hlt)
          rw [Nat.succ_mul] at hmul
          omega
        · omega
      · intro hlt
        rcases Nat.lt_trichotomy a.toNat b.toNat with hab | hab | hab
        · exact .inl (UInt8.lt_iff_toNat_lt.mpr hab)
        · rw [hab] at hlt
          exact .inr ⟨UInt8.toNat_inj.mp hab, by omega⟩
        · have hmul := Nat.mul_le_mul_right (256 ^ s.length) hab
          rw [Nat.succ_mul] at hmul
          omega

/-- A subtraction gives the difference, but for what it has borrowed beyond the first byte. -/
theorem number_subtract (h : l.length = s.length) :
    ((subtract l s).2 = 0 ∨ (subtract l s).2 = 1) ∧ (number (subtract l s).1 : Int) + number s =
        number l + 256 ^ l.length * (subtract l s).2 := by
  induction l generalizing s with
  | nil =>
    rw [List.length_eq_zero_iff.mp h.symm]
    exact ⟨.inl rfl, rfl⟩
  | cons a l ih =>
    cases s with
    | nil => cases h
    | cons b s =>
      have hlength : l.length = s.length := Nat.succ.inj h
      obtain ⟨hborrow, hrest⟩ := ih hlength
      have hresult := length_subtract hlength
      have ha := a.toNat_lt
      have hb := b.toNat_lt
      rw [subtract]
      split
      case isTrue hneg =>
        have hbyte : ((UInt8.ofNat (a.toNat - b.toNat - (subtract l s).2 + 256 : Int).toNat).toNat :
            Int) = a.toNat - b.toNat - (subtract l s).2 + 256 := by
          rw [UInt8.toNat_ofNat']
          omega
        refine ⟨.inr rfl, ?_⟩
        simp only [number, Nat.cast_add, Nat.cast_mul, Nat.cast_pow, Nat.cast_ofNat, hbyte, hresult,
          List.length_cons, pow_succ, hlength] at hrest ⊢
        linear_combination hrest
      case isFalse hpos =>
        have hbyte : ((UInt8.ofNat (a.toNat - b.toNat - (subtract l s).2 : Int).toNat).toNat :
            Int) = a.toNat - b.toNat - (subtract l s).2 := by
          rw [UInt8.toNat_ofNat']
          omega
        refine ⟨.inl rfl, ?_⟩
        simp only [number, Nat.cast_add, Nat.cast_mul, Nat.cast_pow, Nat.cast_ofNat, hbyte, hresult,
          List.length_cons, pow_succ, hlength] at hrest ⊢
        linear_combination hrest

/-- Nothing is borrowed beyond the first byte when the larger number comes first. -/
theorem number_subtract_of_le (h : l.length = s.length) (hle : number s ≤ number l) :
    (number (subtract l s).1 : Int) = number l - number s := by
  obtain ⟨hborrow, heq⟩ := number_subtract h
  have hlt := number_lt (subtract l s).1
  rw [length_subtract h] at hlt
  rcases hborrow with hnone | hone
  · rw [hnone] at heq
    omega
  · rw [hone, mul_one] at heq
    have hcast : ((256 ^ l.length : Nat) : Int) = 256 ^ l.length := by push_cast; rfl
    omega

theorem toNat_absDiff (a b : KeyInt) : ((a.absDiff b).toNat : Int) =
    |(a.toNat : Int) - b.toNat| := by
  have hlength := a.length_bytes.trans b.length_bytes.symm
  unfold absDiff
  split
  case isTrue hlt =>
    have hnat := (number_lt_iff hlength).mp hlt
    rw [abs_sub_comm, abs_of_nonneg (by unfold toNat; omega)]
    exact number_subtract_of_le hlength.symm hnat.le
  case isFalse hge =>
    have hnat := not_lt.mp (mt (number_lt_iff hlength).mpr hge)
    rw [abs_of_nonneg (by unfold toNat; omega)]
    exact number_subtract_of_le hlength hnat

theorem toNat_injective {a b : KeyInt} (h : a.toNat = b.toNat) : a.bytes = b.bytes := by
  have hlength := a.length_bytes.trans b.length_bytes.symm
  refine le_antisymm (not_lt.mp fun hlt => ?_) (not_lt.mp fun hlt => ?_)
  · exact absurd h.symm ((number_lt_iff hlength.symm).mp hlt).ne
  · exact absurd h ((number_lt_iff hlength).mp hlt).ne

/-- The operations on keys are those of the numbers that they spell. -/
theorem keyInt_is_number :
    (∀ a b : KeyInt, ((a.absDiff b).toNat : Int) = |(a.toNat : Int) - b.toNat|) ∧
      (∀ a b : KeyInt, a.lessThan b = true ↔ a.toNat < b.toNat) ∧
      (∀ a b : KeyInt, a.cmp b = compare a.toNat b.toNat) ∧
      ∀ (decode : List Char → Option Bytes) (kind pubkey rest : List Char) (bytes : Bytes),
        ':' ∉ kind → ':' ∉ pubkey → decode pubkey = some bytes → 32 ≤ bytes.length →
        (fromRecordKey decode (kind ++ ':' :: (pubkey ++ ':' :: rest))).map toNat =
          some (number (bytes.take 32)) := by
  have hless : ∀ a b : KeyInt, a.bytes < b.bytes ↔ a.toNat < b.toNat := fun a b =>
    number_lt_iff (a.length_bytes.trans b.length_bytes.symm)
  refine ⟨toNat_absDiff, fun a b => decide_eq_true_iff.trans (hless a b), fun a b => ?_, ?_⟩
  · have hsame : a.bytes = b.bytes ↔ a.toNat = b.toNat :=
      ⟨fun h => congrArg number h, toNat_injective⟩
    rw [cmp, Nat.compare_eq_ite_lt, compareOfLessAndEq]
    simp only [hless, hsame]
    split
    · rfl
    · split <;> split <;> first | rfl | omega
  · intro decode kind pubkey rest bytes hkind hpubkey hdecode hlong
    have htext : pubkeyText (kind ++ ':' :: (pubkey ++ ':' :: rest)) = some pubkey := by
      rw [pubkeyText, List.dropWhile_append_of_pos (by intro c hc; simp; rintro rfl; exact hkind hc)]
      rw [List.dropWhile_cons_of_neg (by simp)]
      dsimp only
      rw [List.takeWhile_append_of_pos (by intro c hc; simp; rintro rfl; exact hpubkey hc),
        List.takeWhile_cons_of_neg (by simp), List.append_nil]
    simp [fromRecordKey, htext, hdecode, not_lt.mpr hlong, toNat]

end KeyInt

end VeilKnit
