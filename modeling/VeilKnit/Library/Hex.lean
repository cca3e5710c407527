import Mathlib.Tactic.IntervalCases
import VeilKnit.Library.Codec

/-!
# Hexadecimal text

Bytes as pairs of hexadecimal digits, the higher one first. Digits are written in lower case
and read in either.
-/

namespace VeilKnit.Library.Hex

def digits : List Char :=
  ['0', '1', '2', '3', '4', '5', '6', '7', '8', '9', 'a', 'b', 'c', 'd', 'e', 'f']

def digit (n : Nat) : Char := digits.getD n '0'

def value (c : Char) : Option Nat := digits.findIdx? (· = c.toLower)

def encode (bytes : Bytes) : List Char :=
  bytes.flatMap fun byte => [digit (byte.toNat / 16), digit (byte.toNat % 16)]

/-- The bytes of a text of digits. A text of odd length has none. -/
def decode : List Char → Option Bytes
  | [] => some []
  | [_] => none
  | high :: low :: chars => do
    let high ← value high
    let low ← value low
    let bytes ← decode chars
    pure (UInt8.ofNat (high * 16 + low) :: bytes)

theorem value_digit {n : Nat} (h : n < 16) : value (digit n) = some n := by
  interval_cases n <;> rfl

/-- A class of characters that leaves out the digits leaves out what is written with them. -/
theorem digit_ne {p : Char → Bool} (hp : ∀ c ∈ digits, p c = false) (n : Nat) :
    p (digit n) = false := by
  rw [digit, List.getD_eq_getElem?_getD]
  cases hget : digits[n]? with
  | none => exact hp '0' (by decide)
  | some c => exact hp c (List.mem_of_getElem? hget)

theorem not_mem_encode {p : Char → Bool} (hp : ∀ c ∈ digits, p c = false) (bytes : Bytes) :
    ∀ c ∈ encode bytes, p c = false := by
  intro c hc
  obtain ⟨byte, _, hbyte⟩ := List.mem_flatMap.mp hc
  rcases List.mem_pair.mp hbyte with rfl | rfl
  · exact digit_ne hp _
  · exact digit_ne hp _

@[simp]
theorem decode_encode (bytes : Bytes) : decode (encode bytes) = some bytes := by
  induction bytes with
  | nil => rfl
  | cons byte bytes ih =>
    have hlt := byte.toNat_lt
    have hhigh : value (digit (byte.toNat / 16)) = some (byte.toNat / 16) := value_digit (by omega)
    have hlow : value (digit (byte.toNat % 16)) = some (byte.toNat % 16) := value_digit (by omega)
    have hbyte : UInt8.ofNat (byte.toNat / 16 * 16 + byte.toNat % 16) = byte := by
      rw [Nat.div_add_mod' byte.toNat 16, UInt8.ofNat_toNat]
    change decode (_ :: _ :: encode bytes) = _
    rw [decode, hhigh, hlow, ih]
    exact congrArg (fun b => some (b :: bytes)) hbyte

theorem length_encode (bytes : Bytes) : (encode bytes).length = 2 * bytes.length := by
  induction bytes with
  | nil => rfl
  | cons byte bytes ih =>
    change (encode bytes).length + 1 + 1 = _
    rw [ih, List.length_cons]
    omega

end VeilKnit.Library.Hex
