import Mathlib.Data.Nat.Digits.Lemmas
import VeilKnit.Library.Codec

/-!
# Compact JSON

The compact form of JSON that has no white space: numbers in decimal, strings with the short
escapes, arrays and objects with commas and colons. A byte string is written as the array of
its bytes.

Readers of the parts take what was written from the front of any byte string, so the compact
form of an object determines its fields.
-/

namespace VeilKnit.Library.Json

/-- A number in decimal. -/
def number (n : Nat) : Bytes :=
  if n = 0 then [48] else (Nat.digits 10 n).reverse.map fun digit => 48 + digit.toUInt8

def hexDigit (n : UInt8) : UInt8 := if n < 10 then 48 + n else 87 + n

/-- A byte of a string's UTF-8 text. -/
def escape (byte : UInt8) : Bytes :=
  if byte = 34 then [92, 34]
  else if byte = 92 then [92, 92]
  else if byte = 8 then [92, 98]
  else if byte = 9 then [92, 116]
  else if byte = 10 then [92, 110]
  else if byte = 12 then [92, 102]
  else if byte = 13 then [92, 114]
  else if byte < 32 then [92, 117, 48, 48, hexDigit (byte / 16), hexDigit (byte % 16)]
  else [byte]

/-- A string, given by its UTF-8 text. -/
def string (text : Bytes) : Bytes := 34 :: (text.flatMap escape ++ [34])

/-- Items with commas between them. -/
def commaSeparated : List Bytes → Bytes
  | [] => []
  | [item] => item
  | item :: items => item ++ 44 :: commaSeparated items

def array (items : List Bytes) : Bytes := 91 :: (commaSeparated items ++ [93])

def byteArray (bytes : Bytes) : Bytes := array (bytes.map fun byte => number byte.toNat)

/-- A field of an object, with its value written. -/
def field (name : Bytes) (value : Bytes) : Bytes := string name ++ 58 :: value

def object (fields : List Bytes) : Bytes := 123 :: (commaSeparated fields ++ [125])

/-- The bytes of `null`. -/
def null : Bytes := [110, 117, 108, 108]

def bool : Bool → Bytes
  | true => [116, 114, 117, 101]
  | false => [102, 97, 108, 115, 101]

def nullable {α : Type*} (write : α → Bytes) : Option α → Bytes
  | none => null
  | some a => write a

/-! ## Lengths -/

theorem length_number_pos (n : Nat) : 0 < (number n).length := by
  unfold number
  split
  · simp
  case isFalse hn => simp [Nat.digits_ne_nil_iff_ne_zero.mpr hn, List.length_pos_iff]

theorem length_number_le {n k : Nat} (h : n < 10 ^ (k + 1)) : (number n).length ≤ k + 1 := by
  unfold number
  split
  · simp
  · rw [List.length_map, List.length_reverse]
    exact (Nat.digits_length_le_iff (by norm_num) n).mpr h

theorem length_escape_le (byte : UInt8) : (escape byte).length ≤ 6 := by
  unfold escape
  repeat' split
  all_goals simp

theorem length_string_le (text : Bytes) : (string text).length ≤ 6 * text.length + 2 := by
  have h : (text.flatMap escape).length ≤ 6 * text.length := by
    induction text with
    | nil => simp
    | cons byte text ih =>
      have hbyte := length_escape_le byte
      simp only [List.flatMap_cons, List.length_append, List.length_cons]
      omega
  simp only [string, List.length_cons, List.length_append, List.length_nil]
  omega

theorem length_nullable_le {α : Type*} {write : α → Bytes} {bound : Nat} (hbound : 4 ≤ bound)
    {value : Option α} (hvalue : ∀ a, value = some a → (write a).length ≤ bound) :
    (nullable write value).length ≤ bound := by
  cases value with
  | none => exact hbound
  | some a => exact hvalue a rfl

/-- The commas of a list are one less than its items. -/
theorem length_commaSeparated (items : List Bytes) :
    (commaSeparated items).length = (items.map List.length).sum + (items.length - 1) := by
  induction items with
  | nil => rfl
  | cons item items ih =>
    cases items with
    | nil => simp [commaSeparated]
    | cons next items =>
      rw [commaSeparated, List.length_append, List.length_cons, ih]
      · simp only [List.map_cons, List.sum_cons, List.length_cons]
        omega
      · simp

theorem length_array (items : List Bytes) :
    (array items).length = (items.map List.length).sum + (items.length - 1) + 2 := by
  simp [array, length_commaSeparated]

theorem length_byteArray_ge (bytes : Bytes) : 2 * bytes.length + 1 ≤ (byteArray bytes).length := by
  have h : bytes.length ≤ ((bytes.map fun byte => number byte.toNat).map List.length).sum := by
    induction bytes with
    | nil => simp
    | cons byte bytes ih =>
      have hbyte := length_number_pos byte.toNat
      simp only [List.map_cons, List.sum_cons, List.length_cons]
      omega
  rw [byteArray, length_array, List.length_map]
  omega

theorem length_byteArray_le (bytes : Bytes) : (byteArray bytes).length ≤ 4 * bytes.length + 2 := by
  have h : ((bytes.map fun byte => number byte.toNat).map List.length).sum ≤ 3 * bytes.length := by
    induction bytes with
    | nil => simp
    | cons byte bytes ih =>
      have hlt : byte.toNat < 10 ^ (2 + 1) := lt_trans byte.toNat_lt (by norm_num)
      have hbyte := length_number_le hlt
      simp only [List.map_cons, List.sum_cons, List.length_cons]
      omega
  rw [byteArray, length_array, List.length_map]
  omega

/-! ## Reading -/

section Readers

variable {α : Type*}

/-- A text that goes on with something else than a digit. -/
def EndsNumber (rest : Bytes) : Prop := ∀ byte ∈ rest.head?, ¬ (48 ≤ byte ∧ byte ≤ 57)

variable {rest name value : Bytes}

theorem endsNumber_cons {byte : UInt8} (h : ¬ (48 ≤ byte ∧ byte ≤ 57)) :
    EndsNumber (byte :: rest) := by
  intro byte' hbyte'
  cases hbyte'
  exact h

@[simp]
theorem endsNumber_comma (rest : Bytes) : EndsNumber (44 :: rest) := endsNumber_cons (by decide)

@[simp]
theorem endsNumber_bracket (rest : Bytes) : EndsNumber (93 :: rest) := endsNumber_cons (by decide)

@[simp]
theorem endsNumber_brace (rest : Bytes) : EndsNumber (125 :: rest) := endsNumber_cons (by decide)

def isDigit (byte : UInt8) : Bool := 48 ≤ byte && byte ≤ 57

def readNumber (bytes : Bytes) : Option (Nat × Bytes) :=
  match bytes.takeWhile isDigit with
  | [] => none
  | digits =>
    some (Nat.ofDigits 10 (digits.reverse.map fun byte => (byte - 48).toNat),
      bytes.dropWhile isDigit)

private theorem digit_facts (digit : Nat) (h : digit < 10) :
    isDigit (48 + digit.toUInt8) = true ∧ (48 + digit.toUInt8 - 48).toNat = digit := by
  interval_cases digit <;> decide

theorem isDigit_of_mem_number (n : Nat) : ∀ byte ∈ number n, isDigit byte = true := by
  unfold number
  split
  · intro byte hbyte
    obtain rfl := List.mem_singleton.mp hbyte
    rfl
  · intro byte hbyte
    obtain ⟨digit, hdigit, rfl⟩ := List.mem_map.mp hbyte
    exact (digit_facts digit (Nat.digits_lt_base (by norm_num) (List.mem_reverse.mp hdigit))).1

theorem number_head (n : Nat) : ∃ digit tail, number n = digit :: tail ∧ digit ≠ 93 := by
  cases hnumber : number n with
  | nil => simpa [hnumber] using length_number_pos n
  | cons digit tail =>
    refine ⟨digit, tail, rfl, ?_⟩
    rintro rfl
    have hdigit := isDigit_of_mem_number n 93 (by simp [hnumber])
    cases hdigit

theorem readNumber_number (n : Nat) (h : EndsNumber rest) :
    readNumber (number n ++ rest) = some (n, rest) := by
  have hend : rest.takeWhile isDigit = [] ∧ rest.dropWhile isDigit = rest := by
    cases rest with
    | nil => exact ⟨rfl, rfl⟩
    | cons byte rest =>
      have hbyte : isDigit byte = false := by
        simp only [isDigit, Bool.and_eq_false_iff, decide_eq_false_iff_not]
        tauto
      exact ⟨List.takeWhile_cons_of_neg (by simp [hbyte]),
        List.dropWhile_cons_of_neg (by simp [hbyte])⟩
  have hread : ∀ digits : Bytes, digits ≠ [] → (∀ byte ∈ digits, isDigit byte = true) →
      readNumber (digits ++ rest) =
        some (Nat.ofDigits 10 (digits.reverse.map fun byte => (byte - 48).toNat), rest) := by
    intro digits hne hdigits
    rw [readNumber, List.takeWhile_append_of_pos hdigits, List.dropWhile_append_of_pos hdigits,
      hend.1, hend.2, List.append_nil]
    cases digits with
    | nil => exact absurd rfl hne
    | cons byte digits => rfl
  unfold number
  split
  case isTrue hn =>
    rw [hread [48] (by simp) (fun byte hbyte => List.mem_singleton.mp hbyte ▸ rfl), hn]
    rfl
  case isFalse hn =>
  have hlt : ∀ digit ∈ Nat.digits 10 n, digit < 10 := fun digit hdigit =>
    Nat.digits_lt_base (by norm_num) hdigit
  rw [hread]
  · congr 2
    rw [← List.map_reverse, List.reverse_reverse, List.map_map]
    have hid : (Nat.digits 10 n).map ((fun byte : UInt8 => (byte - 48).toNat) ∘
        fun digit => 48 + digit.toUInt8) = Nat.digits 10 n := by
      refine (List.map_congr_left fun digit hdigit => ?_).trans (List.map_id _)
      exact (digit_facts digit (hlt digit hdigit)).2
    rw [hid, Nat.ofDigits_digits]
  · simpa [Nat.digits_ne_nil_iff_ne_zero] using hn
  · intro byte hbyte
    obtain ⟨digit, hdigit, rfl⟩ := List.mem_map.mp hbyte
    exact (digit_facts digit (hlt digit (List.mem_reverse.mp hdigit))).1

/-- Take a given text from the front. -/
def expect (text bytes : Bytes) : Option Bytes :=
  if text.isPrefixOf bytes then some (bytes.drop text.length) else none

@[simp]
theorem expect_append (text rest : Bytes) : expect text (text ++ rest) = some rest := by
  simp [expect]

def hexValue (byte : UInt8) : UInt8 := if byte < 58 then byte - 48 else byte - 87

/-- The UTF-8 text of a string up to its closing quote. -/
def readChars : Bytes → Option (Bytes × Bytes)
  | 34 :: rest => some ([], rest)
  | 92 :: 34 :: rest => (readChars rest).map (Prod.map (34 :: ·) id)
  | 92 :: 92 :: rest => (readChars rest).map (Prod.map (92 :: ·) id)
  | 92 :: 98 :: rest => (readChars rest).map (Prod.map (8 :: ·) id)
  | 92 :: 116 :: rest => (readChars rest).map (Prod.map (9 :: ·) id)
  | 92 :: 110 :: rest => (readChars rest).map (Prod.map (10 :: ·) id)
  | 92 :: 102 :: rest => (readChars rest).map (Prod.map (12 :: ·) id)
  | 92 :: 114 :: rest => (readChars rest).map (Prod.map (13 :: ·) id)
  | 92 :: 117 :: 48 :: 48 :: high :: low :: rest =>
    (readChars rest).map (Prod.map ((hexValue high * 16 + hexValue low) :: ·) id)
  | byte :: rest => (readChars rest).map (Prod.map (byte :: ·) id)
  | [] => none

private theorem hexValue_digits (byte : UInt8) (h : byte < 32) :
    hexValue (hexDigit (byte / 16)) * 16 + hexValue (hexDigit (byte % 16)) = byte := by
  have hall : ∀ n : Fin 32, hexValue (hexDigit (UInt8.ofNat n / 16)) * 16 +
      hexValue (hexDigit (UInt8.ofNat n % 16)) = UInt8.ofNat n := by decide
  simpa using hall ⟨byte.toNat, by simpa [UInt8.lt_iff_toNat_lt] using h⟩

private theorem readChars_escape (byte : UInt8) (rest : Bytes) :
    readChars (escape byte ++ rest) = (readChars rest).map (Prod.map (byte :: ·) id) := by
  unfold escape
  split
  case isTrue h => simp [h, readChars]
  split
  case isTrue h => simp [h, readChars]
  split
  case isTrue h => simp [h, readChars]
  split
  case isTrue h => simp [h, readChars]
  split
  case isTrue h => simp [h, readChars]
  split
  case isTrue h => simp [h, readChars]
  split
  case isTrue h => simp [h, readChars]
  split
  case isTrue h =>
    simp only [List.cons_append, List.nil_append, readChars, hexValue_digits byte h]
  case isFalse hquote hbackslash _ _ _ _ _ _ =>
    rw [List.cons_append, List.nil_append, readChars]
    all_goals simp_all

def readString (bytes : Bytes) : Option (Bytes × Bytes) :=
  match bytes with
  | 34 :: rest => readChars rest
  | _ => none

theorem readString_string (text rest : Bytes) :
    readString (string text ++ rest) = some (text, rest) := by
  have h : ∀ text : Bytes, readChars (text.flatMap escape ++ 34 :: rest) = some (text, rest) := by
    intro text
    induction text with
    | nil => simp [readChars]
    | cons byte text ih =>
      rw [List.flatMap_cons, List.append_assoc, readChars_escape, ih]
      rfl
  simpa [string, readString, List.append_assoc] using h text

/-- Numbers with commas between them, up to the closing bracket. The first argument bounds
their number. -/
def readItems : Nat → Bytes → Option (Bytes × Bytes)
  | 0, _ => none
  | fuel + 1, bytes =>
    match readNumber bytes with
    | some (n, 44 :: rest) => (readItems fuel rest).map (Prod.map (n.toUInt8 :: ·) id)
    | some (n, 93 :: rest) => some ([n.toUInt8], rest)
    | _ => none

def readByteArray (bytes : Bytes) : Option (Bytes × Bytes) :=
  match bytes with
  | 91 :: 93 :: rest => some ([], rest)
  | 91 :: rest => readItems rest.length rest
  | _ => none

private theorem readItems_commaSeparated (byte : UInt8) (bytes rest : Bytes) {fuel : Nat}
    (hfuel : bytes.length < fuel) :
    readItems fuel (commaSeparated ((byte :: bytes).map fun b => number b.toNat) ++ 93 :: rest) =
      some (byte :: bytes, rest) := by
  induction bytes generalizing byte fuel with
  | nil =>
    obtain ⟨fuel, rfl⟩ := Nat.exists_eq_add_of_lt hfuel
    simp [commaSeparated, readItems, readNumber_number]
  | cons next bytes ih =>
    obtain ⟨fuel, rfl⟩ : ∃ k, fuel = k + 1 := ⟨fuel - 1, by omega⟩
    have hshorter : bytes.length < fuel := by simpa using hfuel
    have hrest := ih next hshorter
    rw [List.map_cons] at hrest
    rw [List.map_cons, List.map_cons, commaSeparated, List.append_assoc, List.cons_append,
      readItems, readNumber_number _ (endsNumber_comma _)]
    · simp [hrest]
    · simp

theorem readByteArray_byteArray (bytes rest : Bytes) :
    readByteArray (byteArray bytes ++ rest) = some (bytes, rest) := by
  cases bytes with
  | nil => simp [byteArray, array, commaSeparated, readByteArray]
  | cons byte bytes =>
    obtain ⟨first, tail, htext, hfirst⟩ : ∃ first tail, commaSeparated
        ((byte :: bytes).map fun b => number b.toNat) ++ 93 :: rest = first :: tail ∧
          first ≠ 93 := by
      obtain ⟨digit, tail, hnumber, hdigit⟩ := number_head byte.toNat
      cases bytes with
      | nil => exact ⟨digit, tail ++ 93 :: rest, by simp [commaSeparated, hnumber], hdigit⟩
      | cons next bytes =>
        simp only [List.map_cons, commaSeparated, hnumber, List.cons_append]
        exact ⟨digit, _, rfl, hdigit⟩
    have hlength : (byte :: bytes).length ≤ (first :: tail).length := by
      have hge := length_byteArray_ge (byte :: bytes)
      have hsame := congrArg List.length htext
      simp only [byteArray, array, List.length_cons, List.length_append, List.length_nil]
        at hge hsame ⊢
      omega
    have hfuel : bytes.length < (first :: tail).length := by simpa using hlength
    have hitems := readItems_commaSeparated byte bytes rest hfuel
    rw [htext] at hitems
    have hwritten : byteArray (byte :: bytes) ++ rest = 91 :: first :: tail := by
      simp only [byteArray, array, List.cons_append, List.append_assoc, List.nil_append, htext]
    rw [hwritten, readByteArray]
    · exact hitems
    · rintro _ heq
      exact hfirst (List.cons.inj heq).1

def readBool (bytes : Bytes) : Option (Bool × Bytes) :=
  match expect (bool true) bytes with
  | some rest => some (true, rest)
  | none => (expect (bool false) bytes).map fun rest => (false, rest)

theorem readBool_bool (b : Bool) (rest : Bytes) : readBool (bool b ++ rest) = some (b, rest) := by
  cases b with
  | true => simp [readBool]
  | false =>
    have hno : expect (bool true) (bool false ++ rest) = none := by
      simp [expect, bool, List.isPrefixOf]
    rw [readBool, hno]
    simp

def readNullable (read : Bytes → Option (α × Bytes)) (bytes : Bytes) :
    Option (Option α × Bytes) :=
  match expect null bytes with
  | some rest => some (none, rest)
  | none => (read bytes).map (Prod.map some id)

variable {read : Bytes → Option (α × Bytes)}

theorem readNullable_nullable {write : α → Bytes}
    (hread : ∀ a, read (write a ++ rest) = some (a, rest))
    (hhead : ∀ a, (write a ++ rest).head? ≠ some 110) (value : Option α) :
    readNullable read (nullable write value ++ rest) = some (value, rest) := by
  cases value with
  | none => simp [readNullable, nullable]
  | some a =>
    have hno : expect null (write a ++ rest) = none := by
      have hhead := hhead a
      unfold expect null
      cases htext : write a ++ rest with
      | nil => rfl
      | cons byte text =>
        rw [htext] at hhead
        have hbyte : (110 : UInt8) ≠ byte := fun h => hhead (congrArg some h.symm)
        simp [List.isPrefixOf, hbyte]
    rw [readNullable, nullable, hno, hread]
    rfl

/-- The value of a named field. -/
def member (name : Bytes) (read : Bytes → Option (α × Bytes)) (bytes : Bytes) :
    Option (α × Bytes) :=
  (expect (string name ++ [58]) bytes).bind read

theorem member_field {a : α} (h : read (value ++ rest) = some (a, rest)) :
    member name read (field name value ++ rest) = some (a, rest) := by
  have hexpect : expect (string name ++ [58]) (field name value ++ rest) =
      some (value ++ rest) := by
    have happend : field name value ++ rest = string name ++ [58] ++ (value ++ rest) := by
      simp [field, List.append_assoc]
    rw [happend, expect_append]
  rw [member, hexpect, Option.bind_some, h]

/-- The value of the first field of an object. -/
def firstMember (name : Bytes) (read : Bytes → Option (α × Bytes)) (bytes : Bytes) :
    Option (α × Bytes) :=
  (expect [123] bytes).bind (member name read)

/-- The value of a field after another. -/
def nextMember (name : Bytes) (read : Bytes → Option (α × Bytes)) (bytes : Bytes) :
    Option (α × Bytes) :=
  (expect [44] bytes).bind (member name read)

theorem firstMember_field {a : α} (h : read (value ++ rest) = some (a, rest)) :
    firstMember name read (123 :: (field name value ++ rest)) = some (a, rest) := by
  have hexpect : expect [123] (123 :: (field name value ++ rest)) =
      some (field name value ++ rest) := expect_append [123] _
  rw [firstMember, hexpect, Option.bind_some, member_field h]

theorem nextMember_field {a : α} (h : read (value ++ rest) = some (a, rest)) :
    nextMember name read (44 :: (field name value ++ rest)) = some (a, rest) := by
  have hexpect : expect [44] (44 :: (field name value ++ rest)) =
      some (field name value ++ rest) := expect_append [44] _
  rw [nextMember, hexpect, Option.bind_some, member_field h]

end Readers

end VeilKnit.Library.Json
