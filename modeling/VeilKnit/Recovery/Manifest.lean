import VeilKnit.Handshake.Wire
import VeilKnit.Library.Hex

/-!
# Recovery manifests

What the first subkey of a recovery record says about the others. A manifest is stored as
JSON, with its nonce and its hash in hexadecimal.
-/

namespace VeilKnit.Recovery

open Library
open Handshake (utf8 readBelow readBelow_number readText readText_string)

structure RecoveryManifest where
  version : UInt16
  nonceHex : String
  chunkCount : UInt32
  ciphertextLen : UInt64
  ciphertextSha256Hex : String
  createdAt : UInt64
  deriving DecidableEq

namespace RecoveryManifest

def toJson (manifest : RecoveryManifest) : Bytes :=
  Json.object [ Json.field (utf8 "version") (Json.number manifest.version.toNat),
    Json.field (utf8 "nonce_hex") (Json.string (utf8 manifest.nonceHex)),
    Json.field (utf8 "chunk_count") (Json.number manifest.chunkCount.toNat),
    Json.field (utf8 "ciphertext_len") (Json.number manifest.ciphertextLen.toNat),
    Json.field (utf8 "ciphertext_sha256_hex") (Json.string (utf8 manifest.ciphertextSha256Hex)),
    Json.field (utf8 "created_at") (Json.number manifest.createdAt.toNat)]

/-- A reader of the compact form alone. -/
def read (bytes : Bytes) : Option RecoveryManifest := do
  let (version, bytes) ← Json.firstMember (utf8 "version") (readBelow (2 ^ 16)) bytes
  let (nonceHex, bytes) ← Json.nextMember (utf8 "nonce_hex") readText bytes
  let (chunkCount, bytes) ← Json.nextMember (utf8 "chunk_count") (readBelow (2 ^ 32)) bytes
  let (ciphertextLen, bytes) ←
    Json.nextMember (utf8 "ciphertext_len") (readBelow (2 ^ 64)) bytes
  let (ciphertextSha256Hex, bytes) ←
    Json.nextMember (utf8 "ciphertext_sha256_hex") readText bytes
  let (createdAt, bytes) ← Json.nextMember (utf8 "created_at") (readBelow (2 ^ 64)) bytes
  if bytes = [125] then
    some {
      version := version.toUInt16
      nonceHex
      chunkCount := chunkCount.toUInt32
      ciphertextLen := ciphertextLen.toUInt64
      ciphertextSha256Hex
      createdAt := createdAt.toUInt64 }
  else none

theorem read_toJson (manifest : RecoveryManifest) : read manifest.toJson = some manifest := by
  have hversion := manifest.version.toNat_lt
  have hcount := manifest.chunkCount.toNat_lt
  have hlength := manifest.ciphertextLen.toNat_lt
  have hcreated := manifest.createdAt.toNat_lt
  simp only [read, toJson, Json.object, Json.commaSeparated, List.append_assoc, List.cons_append]
  rw [Json.firstMember_field (readBelow_number hversion (Json.endsNumber_comma _))]
  simp only [Option.bind_eq_bind, Option.bind_some]
  rw [Json.nextMember_field (readText_string _ _)]
  simp only [Option.bind_some]
  rw [Json.nextMember_field (readBelow_number hcount (Json.endsNumber_comma _))]
  simp only [Option.bind_some]
  rw [Json.nextMember_field (readBelow_number hlength (Json.endsNumber_comma _))]
  simp only [Option.bind_some]
  rw [Json.nextMember_field (readText_string _ _)]
  simp only [Option.bind_some]
  rw [Json.nextMember_field (readBelow_number hcreated (Json.endsNumber_brace _))]
  simp

theorem toJson_cons (manifest : RecoveryManifest) : ∃ rest, manifest.toJson = 123 :: rest :=
  ⟨_, rfl⟩

end RecoveryManifest

end VeilKnit.Recovery
