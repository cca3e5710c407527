import Mathlib.Data.List.Flatten
import VeilKnit.Identity.Manager

/-!
# What a proof authenticates

Different challenges have different proof inputs. The only field of variable length before the
capabilities is the application's name, whose length is written modulo `2 ^ 32`; two names of
different lengths with the same length field are further apart than the capabilities can make up
for. The capabilities' names are ended by a zero byte, which occurs in none of them.
-/

namespace VeilKnit.Identity

open Library Codec

/-! ## Capabilities -/

namespace AppCapability

def nameBytes (c : AppCapability) : Bytes := c.name.toUTF8.data.toList

theorem zero_notMem_nameBytes (c : AppCapability) : (0 : UInt8) ∉ c.nameBytes := by
  cases c <;> decide +kernel

theorem find?_nameBytes (c : AppCapability) :
    (all.find? fun other => other.nameBytes = c.nameBytes) = some c := by
  cases c <;> decide +kernel

/-- A name with its terminator, read up to the terminator. -/
def codec : Codec AppCapability where
  encode c := c.nameBytes ++ [0]
  decode bytes :=
    (all.find? fun other => other.nameBytes = bytes.takeWhile (· ≠ 0)).map fun c =>
      (c, (bytes.dropWhile (· ≠ 0)).drop 1)
  decode_encode c rest := by
    have hname : ∀ byte ∈ c.nameBytes, decide (byte ≠ 0) = true := by
      intro byte hbyte
      refine decide_eq_true ?_
      rintro rfl
      exact zero_notMem_nameBytes c hbyte
    have htake : (c.nameBytes ++ [0] ++ rest).takeWhile (· ≠ 0) = c.nameBytes := by
      rw [List.append_assoc, List.takeWhile_append_of_pos hname]
      simp
    have hdrop : (c.nameBytes ++ [0] ++ rest).dropWhile (· ≠ 0) = 0 :: rest := by
      rw [List.append_assoc, List.dropWhile_append_of_pos hname]
      simp
    rw [htake, hdrop, find?_nameBytes]
    rfl

end AppCapability

namespace AppCapabilitySet

theorem length_iter_lt (set : AppCapabilitySet) : (iter set).length < 2 ^ 32 :=
  lt_of_le_of_lt (iter_sublist set).length_le (by decide)

/-- The number of capabilities in four bytes, and their names. -/
def codec : Codec AppCapabilitySet where
  encode set :=
    u32.encode (UInt32.ofNat (iter set).length) ++ (iter set).flatMap AppCapability.codec.encode
  decode bytes :=
    match u32.decode bytes with
    | none => none
    | some (count, bytes) =>
      (AppCapability.codec.decodeMany count.toNat bytes).map fun p => (p.1.toFinset, p.2)
  decode_encode set rest := by
    simp only [List.append_assoc, u32.decode_encode,
      UInt32.toNat_ofNat_of_lt' (length_iter_lt set), decodeMany_encode, Option.map_some,
      toFinset_iter]

/-- The encoded capabilities take fewer than `2 ^ 32` bytes. -/
theorem codec_length_lt (set : AppCapabilitySet) : (codec.encode set).length < 2 ^ 32 := by
  have hsub : ((iter set).flatMap AppCapability.codec.encode).length ≤
      (AppCapability.all.flatMap AppCapability.codec.encode).length :=
    ((iter_sublist set).flatMap _).length_le
  have hall : (AppCapability.all.flatMap AppCapability.codec.encode).length ≤ 1000 := by
    decide +kernel
  have hlength : (codec.encode set).length =
      4 + ((iter set).flatMap AppCapability.codec.encode).length := by
    rw [codec, List.length_append, u32_hasLength]
  omega

end AppCapabilitySet

/-! ## Challenges -/

/-- The fields after the application's name. -/
def fieldsCodec :
    Codec (UInt64 × Nonce × UInt64 × UInt64 × UInt64 × AppCapabilitySet) :=
  u64.pair ((array 32).pair (u64.pair (u64.pair (u64.pair AppCapabilitySet.codec))))

namespace AppAuthChallenge

def fields (challenge : AppAuthChallenge) :
    UInt64 × Nonce × UInt64 × UInt64 × UInt64 × AppCapabilitySet :=
  (challenge.challengeId, challenge.nonce, challenge.issuedAt, challenge.expiresAt,
    challenge.credentialGeneration, challenge.requestedCapabilities)

def appIdBytes (challenge : AppAuthChallenge) : Bytes := challenge.appId.toUTF8.data.toList

end AppAuthChallenge

theorem proofInput_eq (challenge : AppAuthChallenge) : proofInput challenge =
      proofDomain ++ (u32.encode (UInt32.ofNat challenge.appIdBytes.length) ++
        (challenge.appIdBytes ++ fieldsCodec.encode challenge.fields)) := by
  simp only [proofInput, AppAuthChallenge.appIdBytes, fieldsCodec, AppAuthChallenge.fields, pair,
    array, AppCapabilitySet.codec, AppCapability.codec, AppCapability.nameBytes, List.append_assoc]

/-- All but the capabilities take 64 bytes. -/
theorem fieldsCodec_length (challenge : AppAuthChallenge) :
    (fieldsCodec.encode challenge.fields).length =
      64 + (AppCapabilitySet.codec.encode challenge.requestedCapabilities).length := by
  simp only [fieldsCodec, AppAuthChallenge.fields, pair, array, List.length_append,
    u64_hasLength _, challenge.nonce.property]
  omega

theorem toUTF8_bytes_injective {a b : String} (h : a.toUTF8.data.toList = b.toUTF8.data.toList) :
    a = b := by
  refine text.encode_injective ?_
  change bytes.encode a.toUTF8.data.toList = bytes.encode b.toUTF8.data.toList
  rw [h]

/-- A proof input determines its challenge. -/
theorem proofInput_injective : Function.Injective proofInput := by
  intro a b h
  rw [proofInput_eq, proofInput_eq, List.append_cancel_left_eq] at h
  obtain ⟨hlength, hrest⟩ := List.append_inj h (by rw [u32_hasLength, u32_hasLength])
  -- The length fields agree modulo `2 ^ 32`, and the totals differ by less than that.
  have hmod : a.appIdBytes.length % 2 ^ 32 = b.appIdBytes.length % 2 ^ 32 := by
    have hfield := congrArg UInt32.toNat (u32.encode_injective hlength)
    rwa [UInt32.toNat_ofNat', UInt32.toNat_ofNat'] at hfield
  have htotal := congrArg List.length hrest
  rw [List.length_append, List.length_append, fieldsCodec_length, fieldsCodec_length] at htotal
  have ha := AppCapabilitySet.codec_length_lt a.requestedCapabilities
  have hb := AppCapabilitySet.codec_length_lt b.requestedCapabilities
  have hname : a.appIdBytes.length = b.appIdBytes.length := by omega
  obtain ⟨hid, hfields⟩ := List.append_inj hrest hname
  have happ : a.appId = b.appId := toUTF8_bytes_injective hid
  have hfields : a.fields = b.fields := fieldsCodec.encode_injective hfields
  simp only [AppAuthChallenge.fields, Prod.mk.injEq] at hfields
  obtain ⟨hchallenge, hnonce, hissued, hexpires, hgeneration, hrequested⟩ := hfields
  cases a
  cases b
  simp_all

section Mac

variable {Proof : Type} {hmac : AppSecret → Bytes → Proof}

/-- Under an injective code, a proof is that of one secret and one challenge. -/
theorem computeAppProof_injective (hinjective : Function.Injective2 hmac) :
    Function.Injective2 (computeAppProof hmac) := by
  intro secret secret' challenge challenge' h
  obtain ⟨hsecret, hinput⟩ := hinjective h
  exact ⟨hsecret, proofInput_injective hinput⟩

end Mac

end VeilKnit.Identity
