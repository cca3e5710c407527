import Mathlib.Data.List.Lex
import Mathlib.Tactic.Ring

/-!
# Prefix codecs

A codec writes a value and reads it back from the front of any byte string,
leaving the rest. The law makes writing injective and composes: products, options
and sequences of codecs are codecs.

The concrete layouts are those of a fixed-width little-endian format: integers take
their full width, sequences are preceded by their length in eight bytes, an option
by a byte that says whether the value follows, an enumeration by its variant's
number in four bytes. A sequence too long for eight bytes, which no memory holds,
is given an escaped length, so that the law holds without a side condition.
-/

namespace VeilKnit.Library

abbrev Bytes := List UInt8

/-- Bytes in numerical order, so that byte strings are ordered lexicographically. -/
instance uint8LinearOrder : LinearOrder UInt8 where
  le_refl := UInt8.le_refl
  le_trans _ _ _ := UInt8.le_trans
  lt_iff_le_not_ge a b := by
    rw [UInt8.lt_iff_toNat_lt, UInt8.le_iff_toNat_le, UInt8.le_iff_toNat_le]
    omega
  le_antisymm _ _ := UInt8.le_antisymm
  le_total := UInt8.le_total
  toDecidableLE := inferInstance

/-- A writer and a reader of prefixes. -/
structure Codec (α : Type*) where
  encode : α → Bytes
  decode : Bytes → Option (α × Bytes)
  decode_encode : ∀ a rest, decode (encode a ++ rest) = some (a, rest)

namespace Codec

variable {α β : Type*}

theorem encode_injective (codec : Codec α) : Function.Injective codec.encode := by
  intro a b h
  have ha := codec.decode_encode a []
  rw [h, codec.decode_encode b []] at ha
  exact (congrArg Prod.fst (Option.some.inj ha)).symm

/-- Read a value that takes up all of the input. -/
def decodeAll (codec : Codec α) (bytes : Bytes) : Option α :=
  match codec.decode bytes with
  | some (a, []) => some a
  | _ => none

@[simp]
theorem decodeAll_encode (codec : Codec α) (a : α) : codec.decodeAll (codec.encode a) = some a := by
  have h := codec.decode_encode a []
  rw [List.append_nil] at h
  simp [decodeAll, h]

/-- A codec whose writings all have one length. -/
def HasLength (codec : Codec α) (n : Nat) : Prop :=
  ∀ a, (codec.encode a).length = n

/-! ## Integers -/

section Integers

/-- The `width` lowest bytes of a number, lowest first. -/
def leBytes : Nat → Nat → Bytes
  | 0, _ => []
  | width + 1, n => UInt8.ofNat (n % 256) :: leBytes width (n / 256)

/-- The number that bytes denote, lowest first. -/
def leValue : Bytes → Nat
  | [] => 0
  | byte :: bytes => byte.toNat + 256 * leValue bytes

@[simp]
theorem leBytes_length (width n : Nat) : (leBytes width n).length = width := by
  induction width generalizing n with
  | zero => rfl
  | succ width ih => simp [leBytes, ih]

theorem leValue_lt (bytes : Bytes) : leValue bytes < 256 ^ bytes.length := by
  induction bytes with
  | nil => exact Nat.one_pos
  | cons byte bytes ih =>
    have hbyte := byte.toNat_lt
    rw [leValue, List.length_cons, pow_succ]
    omega

theorem leValue_leBytes (width n : Nat) (h : n < 256 ^ width) : leValue (leBytes width n) = n := by
  induction width generalizing n with
  | zero =>
    rw [pow_zero, Nat.lt_one_iff] at h
    rw [h]
    rfl
  | succ width ih =>
    have hdiv : n / 256 < 256 ^ width := by
      rw [pow_succ, mul_comm] at h
      exact Nat.div_lt_of_lt_mul h
    have hbyte : (UInt8.ofNat (n % 256)).toNat = n % 256 := by
      rw [UInt8.toNat_ofNat']
      omega
    rw [leBytes, leValue, ih _ hdiv, hbyte]
    omega

/-- The bytes of a number split into those of its remainder and those of its quotient. -/
theorem leBytes_add (low high n : Nat) :
    leBytes (low + high) n = leBytes low n ++ leBytes high (n / 256 ^ low) := by
  induction low generalizing n with
  | zero => rw [Nat.zero_add, pow_zero, Nat.div_one, leBytes, List.nil_append]
  | succ low ih =>
    rw [Nat.succ_add, leBytes, ih, leBytes, List.cons_append, Nat.div_div_eq_div_mul, ← pow_succ']

/-- Numbers below `256 ^ width`, through their conversions. -/
def fixedWidth (width : Nat) (toNat : α → Nat) (ofNat : Nat → α)
    (bounded : ∀ a, toNat a < 256 ^ width) (inverse : ∀ a, ofNat (toNat a) = a) : Codec α where
  encode a := leBytes width (toNat a)
  decode bytes :=
    if bytes.length < width then none
    else some (ofNat (leValue (bytes.take width)), bytes.drop width)
  decode_encode a rest := by
    have hlength : ¬ (leBytes width (toNat a) ++ rest).length < width := by simp
    rw [if_neg hlength, List.take_left' (leBytes_length _ _), List.drop_left' (leBytes_length _ _),
      leValue_leBytes _ _ (bounded a), inverse]

def u8 : Codec UInt8 :=
  fixedWidth 1 UInt8.toNat UInt8.ofNat (fun a => a.toNat_lt) (fun _ => UInt8.ofNat_toNat)

def u16 : Codec UInt16 :=
  fixedWidth 2 UInt16.toNat UInt16.ofNat (fun a => a.toNat_lt) (fun _ => UInt16.ofNat_toNat)

def u32 : Codec UInt32 :=
  fixedWidth 4 UInt32.toNat UInt32.ofNat (fun a => a.toNat_lt) (fun _ => UInt32.ofNat_toNat)

def u64 : Codec UInt64 :=
  fixedWidth 8 UInt64.toNat UInt64.ofNat (fun a => a.toNat_lt) (fun _ => UInt64.ofNat_toNat)

/-- A byte string of a known length, without the length. -/
def array (n : Nat) : Codec { bytes : Bytes // bytes.length = n } where
  encode a := a.val
  decode bytes :=
    if h : bytes.length < n then none
    else some (⟨bytes.take n, List.length_take_of_le (Nat.le_of_not_lt h)⟩, bytes.drop n)
  decode_encode a rest := by
    obtain ⟨bytes, rfl⟩ := a
    simp

theorem u16_hasLength : u16.HasLength 2 := fun _ => leBytes_length _ _

theorem u32_hasLength : u32.HasLength 4 := fun _ => leBytes_length _ _

theorem u64_hasLength : u64.HasLength 8 := fun _ => leBytes_length _ _

end Integers

/-! ## Compound values -/

/-- One value after the other. -/
def pair (left : Codec α) (right : Codec β) : Codec (α × β) where
  encode p := left.encode p.1 ++ right.encode p.2
  decode bytes :=
    match left.decode bytes with
    | none => none
    | some (a, bytes) =>
      match right.decode bytes with
      | none => none
      | some (b, bytes) => some ((a, b), bytes)
  decode_encode p rest := by
    simp only [List.append_assoc, left.decode_encode, right.decode_encode]

theorem pair_decode_eq_some {left : Codec α} {right : Codec β} {bytes rest : Bytes} {p : α × β} :
    (left.pair right).decode bytes = some (p, rest) ↔
      ∃ after, left.decode bytes = some (p.1, after) ∧ right.decode after = some (p.2, rest) := by
  obtain ⟨a, b⟩ := p
  simp only [pair]
  cases hleft : left.decode bytes with
  | none => simp
  | some read =>
    obtain ⟨a', after⟩ := read
    cases hright : right.decode after with
    | none => simp [hright]
    | some read => simp [hright, Prod.ext_iff, and_assoc]

/-- The codec of a type that unfolds into an encoded one. -/
def imap (codec : Codec α) (fold : α → β) (unfold : β → α) (inverse : ∀ b, fold (unfold b) = b) :
    Codec β where
  encode b := codec.encode (unfold b)
  decode bytes := (codec.decode bytes).map fun p => (fold p.1, p.2)
  decode_encode b rest := by simp [codec.decode_encode, inverse]

/-- A truth value in one byte. -/
def bool : Codec Bool where
  encode b := [if b then 1 else 0]
  decode
    | [] => none
    | byte :: bytes =>
      if byte = 0 then some (false, bytes)
      else if byte = 1 then some (true, bytes)
      else none
  decode_encode b rest := by cases b <;> simp

/-- The number of a variant in four bytes, and its fields. -/
def variants {n : Nat} {fields : Fin n → Type*} (codec : ∀ i, Codec (fields i))
    (hn : n ≤ 2 ^ 32) : Codec (Σ i, fields i) where
  encode v := u32.encode (UInt32.ofNat v.1) ++ (codec v.1).encode v.2
  decode bytes :=
    match u32.decode bytes with
    | none => none
    | some (tag, bytes) =>
      if h : tag.toNat < n then
        ((codec ⟨tag.toNat, h⟩).decode bytes).map fun p => (⟨⟨tag.toNat, h⟩, p.1⟩, p.2)
      else none
  decode_encode v rest := by
    obtain ⟨i, a⟩ := v
    have htag : (UInt32.ofNat i).toNat = i := by
      rw [UInt32.toNat_ofNat']
      exact Nat.mod_eq_of_lt (i.isLt.trans_le hn)
    simp only [List.append_assoc, u32.decode_encode]
    rw [dif_pos (by rw [htag]; exact i.isLt)]
    have hi : (⟨(UInt32.ofNat i).toNat, by rw [htag]; exact i.isLt⟩ : Fin n) = i := Fin.ext htag
    rw [hi, (codec i).decode_encode]
    rfl

/-- A presence byte and the value, if any. -/
def option (codec : Codec α) : Codec (Option α) where
  encode
    | none => [0]
    | some a => 1 :: codec.encode a
  decode
    | [] => none
    | tag :: bytes =>
      if tag = 0 then some (none, bytes)
      else if tag = 1 then (codec.decode bytes).map fun p => (some p.1, p.2)
      else none
  decode_encode a rest := by
    cases a with
    | none => simp
    | some a => simp [codec.decode_encode]

/-- `n` values in a row. -/
def decodeMany (codec : Codec α) : Nat → Bytes → Option (List α × Bytes)
  | 0, bytes => some ([], bytes)
  | n + 1, bytes =>
    match codec.decode bytes with
    | none => none
    | some (a, bytes) => (codec.decodeMany n bytes).map fun p => (a :: p.1, p.2)

theorem decodeMany_encode (codec : Codec α) (as : List α) (rest : Bytes) :
    codec.decodeMany as.length (as.flatMap codec.encode ++ rest) = some (as, rest) := by
  induction as with
  | nil => rfl
  | cons a as ih => simp [decodeMany, codec.decode_encode, ih]

section Length

/-- The largest eight-byte number, which marks an escaped length. -/
def lengthEscape : Nat := 2 ^ 64 - 1

/-- Count the ones before the first zero. -/
def decodeUnary : Bytes → Option (Nat × Bytes)
  | [] => none
  | byte :: bytes =>
    if byte = 0 then some (0, bytes) else (decodeUnary bytes).map fun p => (p.1 + 1, p.2)

theorem decodeUnary_replicate (n : Nat) (rest : Bytes) :
    decodeUnary (List.replicate n 1 ++ 0 :: rest) = some (n, rest) := by
  induction n with
  | zero => rfl
  | succ n ih => simp [List.replicate_succ, decodeUnary, ih]

/-- The length of a sequence. -/
def length : Codec Nat where
  encode n :=
    if n < lengthEscape then leBytes 8 n
    else leBytes 8 lengthEscape ++ (List.replicate (n - lengthEscape) 1 ++ [0])
  decode bytes :=
    if bytes.length < 8 then none
    else
      let n := leValue (bytes.take 8)
      if n < lengthEscape then some (n, bytes.drop 8)
      else (decodeUnary (bytes.drop 8)).map fun p => (lengthEscape + p.1, p.2)
  decode_encode n rest := by
    have hescape : lengthEscape < 256 ^ 8 := by decide
    by_cases hn : n < lengthEscape
    · have hlength : ¬ (leBytes 8 n ++ rest).length < 8 := by simp
      rw [if_pos hn, if_neg hlength, List.take_left' (leBytes_length _ _),
        List.drop_left' (leBytes_length _ _), leValue_leBytes _ _ (hn.trans hescape)]
      exact if_pos hn
    rw [if_neg hn, List.append_assoc]
    have hlength :
        ¬ (leBytes 8 lengthEscape ++
          ((List.replicate (n - lengthEscape) 1 ++ [0]) ++ rest)).length < 8 := by
      rw [List.length_append, leBytes_length]
      omega
    rw [if_neg hlength, List.take_left' (leBytes_length _ _),
      List.drop_left' (leBytes_length _ _), leValue_leBytes _ _ hescape]
    simp only [lt_irrefl, if_false, List.append_assoc, List.singleton_append,
      decodeUnary_replicate, Option.map_some]
    rw [Nat.add_sub_cancel' (Nat.le_of_not_lt hn)]

theorem length_encode_length {n : Nat} (h : n < lengthEscape) : (length.encode n).length = 8 := by
  simp [length, if_pos h]

end Length

/-- The length and the values of a sequence. -/
def list (codec : Codec α) : Codec (List α) where
  encode as := length.encode as.length ++ as.flatMap codec.encode
  decode bytes :=
    match length.decode bytes with
    | none => none
    | some (n, bytes) => codec.decodeMany n bytes
  decode_encode as rest := by
    simp only [List.append_assoc, length.decode_encode, decodeMany_encode]

/-- A byte string with its length. -/
def bytes : Codec Bytes := list u8

theorem bytes_encode_length (bytes : Bytes) (h : bytes.length < lengthEscape) :
    (Codec.bytes.encode bytes).length = 8 + bytes.length := by
  have hflat : (bytes.flatMap u8.encode).length = bytes.length := by
    rw [List.length_flatMap]
    simp [u8, fixedWidth]
  change (length.encode bytes.length ++ bytes.flatMap u8.encode).length = _
  rw [List.length_append, length_encode_length h, hflat]

/-- A text, as the byte string of its UTF-8 encoding. -/
def text : Codec String where
  encode s := bytes.encode s.toUTF8.data.toList
  decode input :=
    match bytes.decode input with
    | none => none
    | some (utf8, rest) => (String.fromUTF8? ⟨utf8.toArray⟩).map fun s => (s, rest)
  decode_encode s rest := by
    have hvalid : String.fromUTF8? s.toUTF8 = some s := by
      rw [String.toUTF8_eq_toByteArray]
      unfold String.fromUTF8?
      rw [dif_pos s.isValidUTF8]
      rfl
    simp only [bytes.decode_encode, Array.toArray_toList]
    rw [hvalid, Option.map_some]

theorem text_encode_length {s : String} (h : s.utf8ByteSize < lengthEscape) :
    (text.encode s).length = 8 + s.utf8ByteSize :=
  bytes_encode_length _ h

theorem option_encode_length_le (codec : Codec α) (n : Nat) (a : Option α)
    (h : ∀ b ∈ a, (codec.encode b).length ≤ n) : (codec.option.encode a).length ≤ n + 1 := by
  cases a with
  | none => exact Nat.succ_le_succ (Nat.zero_le n)
  | some a => exact Nat.succ_le_succ (h a rfl)

theorem singleton_encode_length (codec : Codec α) (a : α) :
    (codec.list.encode [a]).length = 8 + (codec.encode a).length := by
  change (length.encode 1 ++ [a].flatMap codec.encode).length = _
  rw [List.length_append, length_encode_length (by decide)]
  simp

end Codec

end VeilKnit.Library
