import Mathlib.Order.Bounds.Basic
import VeilKnit.Library.Codec

/-!
# Padding before encryption

A plaintext gets a header with its length and is filled up to the smallest size class that
holds both, so that the length of a ciphertext tells only the class. What the fill is does not
matter to a reader, who takes the length from the header.
-/

namespace VeilKnit.Security

open Library

/-- The bytes of `VKPAD001`. -/
def magic : Bytes := [86, 75, 80, 65, 68, 48, 48, 49]

def headerLen : Nat := magic.length + 4

def dhtSizeClasses : List Nat := [256, 512, 1024, 2048, 4096, 8192, 12 * 1024]

def directSizeClasses : List Nat :=
  [256, 512, 1024, 2048, 4096, 8192, 12 * 1024, 16 * 1024, 24 * 1024, 32 * 1024, 48 * 1024,
    64 * 1024]

inductive PaddingError
  | payloadTooLarge (required maximum : Nat)
  | invalidLength (declared available : Nat)
  deriving DecidableEq

/-- Random bytes, as many as are asked for. -/
abbrev RandomBytes := Nat → UInt8

def RandomBytes.fill (random : RandomBytes) (n : Nat) : Bytes := (List.range n).map random

def padWithClasses (random : RandomBytes) (plaintext : Bytes) (classes : List Nat) :
    Except PaddingError Bytes :=
  let required := headerLen + plaintext.length
  match classes.find? (required ≤ ·) with
  | none => .error (.payloadTooLarge required (classes.getLast?.getD 0))
  | some target =>
    .ok (magic ++ (Codec.leBytes 4 plaintext.length ++
      (plaintext ++ random.fill (target - required))))

def padForEncryption (random : RandomBytes) (plaintext : Bytes) : Except PaddingError Bytes :=
  padWithClasses random plaintext dhtSizeClasses

def padForDirectEncryption (random : RandomBytes) (plaintext : Bytes) :
    Except PaddingError Bytes :=
  padWithClasses random plaintext directSizeClasses

/-- Remove the padding. Without the header the bytes are of before there was padding. -/
def unpadAfterDecryption (bytes : Bytes) : Except PaddingError (Option Bytes) :=
  if bytes.length < headerLen ∨ bytes.take magic.length ≠ magic then .ok none
  else
    let declared := Codec.leValue ((bytes.drop magic.length).take 4)
    let available := bytes.length - headerLen
    if available < declared then .error (.invalidLength declared available)
    else .ok (some ((bytes.drop headerLen).take declared))

/-! ## Sizes -/

/-- The class that a plaintext of a length is padded to. -/
def sizeClass (classes : List Nat) (length : Nat) : Option Nat :=
  classes.find? (headerLen + length ≤ ·)

variable {classes : List Nat}

/-- What fits in one of the classes, which are in order, is padded to no larger one. -/
theorem sizeClass_le (hsorted : classes.Pairwise (· ≤ ·)) {bound length : Nat}
    (hbound : bound ∈ classes) (hfits : headerLen + length ≤ bound) :
    ∃ target ∈ classes, sizeClass classes length = some target ∧
      headerLen + length ≤ target ∧ target ≤ bound := by
  induction classes with
  | nil => cases hbound
  | cons first classes ih =>
    obtain ⟨hfirst, hrest⟩ := List.pairwise_cons.mp hsorted
    by_cases hsmall : headerLen + length ≤ first
    · refine ⟨first, List.mem_cons_self, ?_, hsmall, ?_⟩
      · exact List.find?_cons_of_pos (by simpa using hsmall)
      · rcases List.mem_cons.mp hbound with rfl | hbound
        · exact le_rfl
        · exact hfirst bound hbound
    have hbound : bound ∈ classes := by
      rcases List.mem_cons.mp hbound with rfl | hbound
      · exact absurd hfits hsmall
      · exact hbound
    obtain ⟨target, hmem, hclass, hle⟩ := ih hrest hbound
    refine ⟨target, List.mem_cons_of_mem _ hmem, ?_, hle⟩
    exact (List.find?_cons_of_neg (by simpa using hsmall)).trans hclass

variable {plaintext padded : Bytes}

theorem padWithClasses_ok (random : RandomBytes)
    {target : Nat} (hclass : sizeClass classes plaintext.length = some target) :
    ∃ padded, padWithClasses random plaintext classes = .ok padded ∧ padded.length = target := by
  have hfits : headerLen + plaintext.length ≤ target := by
    have hfound := List.find?_some hclass
    simpa using hfound
  have hfind : classes.find? (headerLen + plaintext.length ≤ ·) = some target := hclass
  rw [padWithClasses, hfind]
  refine ⟨_, rfl, ?_⟩
  have hheader : headerLen = magic.length + 4 := rfl
  simp only [List.length_append, Codec.leBytes_length, RandomBytes.fill, List.length_map,
    List.length_range]
  omega

variable {random : RandomBytes}

theorem padWithClasses_error (hclass : sizeClass classes plaintext.length = none) :
    padWithClasses random plaintext classes =
      .error (.payloadTooLarge (headerLen + plaintext.length) (classes.getLast?.getD 0)) := by
  have hfind : classes.find? (headerLen + plaintext.length ≤ ·) = none := hclass
  rw [padWithClasses, hfind]

/-- A plaintext is found behind its header, whatever follows. -/
theorem unpadAfterDecryption_header (hshort : plaintext.length < 256 ^ 4) (fill : Bytes) :
    unpadAfterDecryption (magic ++ (Codec.leBytes 4 plaintext.length ++ (plaintext ++ fill))) =
      .ok (some plaintext) := by
  have hheader : headerLen = magic.length + 4 := rfl
  have hlength : (magic ++ (Codec.leBytes 4 plaintext.length ++ (plaintext ++ fill))).length =
      headerLen + (plaintext.length + fill.length) := by
    simp only [List.length_append, Codec.leBytes_length]
    omega
  have hbody : (magic ++ (Codec.leBytes 4 plaintext.length ++ (plaintext ++ fill))).drop
      headerLen = plaintext ++ fill := by
    rw [← List.append_assoc]
    exact List.drop_left' (by rw [List.length_append, Codec.leBytes_length]; exact hheader.symm)
  have hlong : ¬ (headerLen + (plaintext.length + fill.length) < headerLen ∨ magic ≠ magic) := by
    simp
  have havailable : ¬ headerLen + (plaintext.length + fill.length) - headerLen <
      plaintext.length := by omega
  unfold unpadAfterDecryption
  rw [hlength, hbody, List.take_left' rfl, if_neg hlong, List.drop_left' rfl,
    List.take_left' (Codec.leBytes_length _ _), Codec.leValue_leBytes _ _ hshort]
  rw [if_neg havailable, List.take_left' rfl]

theorem unpad_pad (hshort : plaintext.length < 256 ^ 4)
    (hpadded : padWithClasses random plaintext classes = .ok padded) :
    unpadAfterDecryption padded = .ok (some plaintext) := by
  unfold padWithClasses at hpadded
  dsimp only at hpadded
  cases hfind : classes.find? (headerLen + plaintext.length ≤ ·) with
  | none =>
    rw [hfind] at hpadded
    cases hpadded
  | some target =>
    rw [hfind] at hpadded
    cases hpadded
    exact unpadAfterDecryption_header hshort _

/-- Padding takes just what fits the largest class, goes up to the least class that fits, shows no
more of the length than the class, and can be undone. -/
structure PadsWithin (pad : RandomBytes → Bytes → Except PaddingError Bytes)
    (classes : List Nat) (maximum : Nat) : Prop where
  largest : IsGreatest {size | size ∈ classes} maximum
  succeeds : ∀ random x, (∃ padded, pad random x = .ok padded) ↔ x.length + 12 ≤ maximum
  least : ∀ random x padded, pad random x = .ok padded →
    IsLeast {size | size ∈ classes ∧ x.length + 12 ≤ size} padded.length
  hides : ∀ random random' x x' padded padded', pad random x = .ok padded →
    pad random' x' = .ok padded' →
    (∀ size ∈ classes, x.length + 12 ≤ size ↔ x'.length + 12 ≤ size) →
    padded.length = padded'.length
  reads : ∀ random x padded, pad random x = .ok padded → unpadAfterDecryption padded = .ok (some x)

theorem padWithClasses_least {x : Bytes}
    (hsorted : classes.Pairwise (· ≤ ·)) (h : padWithClasses random x classes = .ok padded) :
    IsLeast {size | size ∈ classes ∧ headerLen + x.length ≤ size} padded.length := by
  cases hclass : sizeClass classes x.length with
  | none =>
    rw [padWithClasses_error hclass] at h
    cases h
  | some target =>
    obtain ⟨padded', hpadded, hlength⟩ := padWithClasses_ok random hclass
    cases hpadded.symm.trans h
    rw [hlength]
    refine ⟨⟨List.mem_of_find?_eq_some hclass, by simpa using List.find?_some hclass⟩, ?_⟩
    rintro bound ⟨hbound, hfits⟩
    obtain ⟨least, -, hleast, -, hle⟩ := sizeClass_le hsorted hbound hfits
    cases hclass.symm.trans hleast
    exact hle

theorem padWithClasses_pads {maximum : Nat}
    (hsorted : classes.Pairwise (· ≤ ·)) (hmaximum : IsGreatest {size | size ∈ classes} maximum)
    (hsmall : maximum < 256 ^ 4) :
    PadsWithin (fun random x => padWithClasses random x classes) classes maximum := by
  have hleast : ∀ random x padded, padWithClasses random x classes = .ok padded →
      IsLeast {size | size ∈ classes ∧ x.length + 12 ≤ size} padded.length := by
    intro random x padded h
    rw [Nat.add_comm]
    exact padWithClasses_least hsorted h
  refine ⟨hmaximum, fun random x => ⟨?_, fun hfits => ?_⟩, hleast, ?_, ?_⟩
  · rintro ⟨padded, h⟩
    obtain ⟨hmem, hfits⟩ := (hleast random x padded h).1
    exact hfits.trans (hmaximum.2 hmem)
  · rw [Nat.add_comm] at hfits
    obtain ⟨target, -, hclass, -⟩ := sizeClass_le hsorted hmaximum.1 hfits
    obtain ⟨padded, hpadded, -⟩ := padWithClasses_ok random hclass
    exact ⟨padded, hpadded⟩
  · intro random random' x x' padded padded' h h' hsame
    have hclasses : {size | size ∈ classes ∧ x.length + 12 ≤ size} =
        {size | size ∈ classes ∧ x'.length + 12 ≤ size} :=
      Set.ext fun size => and_congr_right (hsame size)
    exact (hleast random x padded h).unique (hclasses ▸ hleast random' x' padded' h')
  · intro random x padded h
    obtain ⟨hmem, hfits⟩ := (hleast random x padded h).1
    have hle := hmaximum.2 hmem
    exact unpad_pad (by omega) h

/-- What is read lies behind the header. -/
theorem length_unpad_le {bytes content : Bytes}
    (h : unpadAfterDecryption bytes = .ok (some content)) :
    headerLen + content.length ≤ bytes.length := by
  unfold unpadAfterDecryption at h
  split at h
  · cases h
  case isFalse hheader =>
    have hlong : headerLen ≤ bytes.length := not_lt.mp fun hlt => hheader (.inl hlt)
    dsimp only at h
    split at h
    · cases h
    · cases h
      rw [List.length_take, List.length_drop]
      omega

theorem padForDirectEncryption_pads :
    PadsWithin padForDirectEncryption directSizeClasses (64 * 1024) := by
  refine padWithClasses_pads ?_ ⟨?_, ?_⟩ ?_
  all_goals simp [directSizeClasses, upperBounds]

/-- Both kinds of padding, and what can be read of arbitrary bytes. -/
theorem padding_hides_and_reads_back : PadsWithin padForEncryption dhtSizeClasses (12 * 1024) ∧
      PadsWithin padForDirectEncryption directSizeClasses (64 * 1024) ∧
      ∀ bytes content, unpadAfterDecryption bytes = .ok (some content) →
        content.length ≤ bytes.length := by
  refine ⟨padWithClasses_pads ?_ ⟨?_, ?_⟩ ?_, padForDirectEncryption_pads,
    fun bytes content h => (Nat.le_add_left _ _).trans (length_unpad_le h)⟩
  all_goals simp [dhtSizeClasses, upperBounds]

/-! ## Encryption -/

/-- An authenticated cipher, which adds a tag of sixteen bytes. What it has encrypted it
decrypts with the same key and nonce. -/
structure Aead where
  encrypt : Bytes → Bytes → Bytes → Bytes
  decrypt : Bytes → Bytes → Bytes → Option Bytes
  length_encrypt : ∀ key nonce plaintext,
    (encrypt key nonce plaintext).length = plaintext.length + 16
  decrypt_encrypt : ∀ key nonce plaintext,
    decrypt key nonce (encrypt key nonce plaintext) = some plaintext

/-- A nonce of twelve bytes. -/
abbrev Nonce := { bytes : Bytes // bytes.length = 12 }

end VeilKnit.Security
