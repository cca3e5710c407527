import Mathlib.Data.List.DropRight
import VeilKnit.Library.Codec

/-!
# UTF-8 texts

Byte strings as texts, and the white space around a text.
-/

namespace VeilKnit.Library.Utf8

/-- The six bits of a continuation byte. -/
def continuationBits (byte : UInt8) : Option Nat :=
  if 0x80 ≤ byte.toNat ∧ byte.toNat < 0xC0 then some (byte.toNat - 0x80) else none

/-- The code points of a UTF-8 text. Overlong forms, surrogates and numbers beyond the last
code point are no text. -/
def decode : Bytes → Option (List Nat)
  | [] => some []
  | a :: rest =>
    if a.toNat < 0x80 then (decode rest).map (a.toNat :: ·)
    else if a.toNat < 0xC2 then none
    else if a.toNat < 0xE0 then
      match rest with
      | b :: rest => do
        let b ← continuationBits b
        (decode rest).map (((a.toNat - 0xC0) * 64 + b) :: ·)
      | _ => none
    else if a.toNat < 0xF0 then
      match rest with
      | b :: c :: rest => do
        let b ← continuationBits b
        let c ← continuationBits c
        let char := ((a.toNat - 0xE0) * 64 + b) * 64 + c
        if char < 0x800 ∨ 0xD800 ≤ char ∧ char < 0xE000 then none
        else (decode rest).map (char :: ·)
      | _ => none
    else if a.toNat < 0xF5 then
      match rest with
      | b :: c :: d :: rest => do
        let b ← continuationBits b
        let c ← continuationBits c
        let d ← continuationBits d
        let char := (((a.toNat - 0xF0) * 64 + b) * 64 + c) * 64 + d
        if char < 0x10000 ∨ 0x110000 ≤ char then none
        else (decode rest).map (char :: ·)
      | _ => none
    else none

/-- The code points that Unicode counts as white space. -/
def isWhitespace (char : Nat) : Bool :=
  (9 ≤ char && char ≤ 13) || char = 0x20 || char = 0x85 || char = 0xA0 || char = 0x1680 ||
    (0x2000 ≤ char && char ≤ 0x200A) || char = 0x2028 || char = 0x2029 || char = 0x202F ||
    char = 0x205F || char = 0x3000

def trim (chars : List Nat) : List Nat :=
  (chars.dropWhile isWhitespace).rdropWhile isWhitespace

end VeilKnit.Library.Utf8
