import VeilKnit.Handshake.Application

/-!
# Reading messages back

The compact JSON of a handshake message determines the message, and the same is true of the
two layers of a direct message. The readers here take the compact form alone; a JSON library
that agrees with them on it satisfies `ReadsJson`.
-/

namespace VeilKnit.Handshake

open Library
open Security (Aead)
open StreamTransport (saturatingAdd)

/-- The law that the JSON library is relied on for: what was written is read back. -/
structure ReadsJson {Secret : Type} (prim : Primitives Secret) : Prop where
  message : ∀ message : HandshakeMessage, prim.fromJson message.toJson = .ok message

/-- The same for direct messages. -/
structure ReadsDirectJson (direct : DirectPrimitives) : Prop where
  envelope : ∀ envelope : DirectApplicationEnvelope,
    direct.envelopeFromJson envelope.toJson = .ok envelope
  payload : ∀ inner : DirectApplicationPayload, direct.payloadFromJson inner.toJson = .ok inner

/-! ## Values -/

def readBelow (bound : Nat) (bytes : Bytes) : Option (Nat × Bytes) :=
  (Json.readNumber bytes).bind fun r => if r.1 < bound then some r else none

theorem readBelow_number {bound n : Nat} (hn : n < bound) {rest : Bytes}
    (h : Json.EndsNumber rest) :
    readBelow bound (Json.number n ++ rest) = some (n, rest) := by
  rw [readBelow, Json.readNumber_number n h, Option.bind_some, if_pos hn]

def readText (bytes : Bytes) : Option (String × Bytes) :=
  (Json.readString bytes).bind fun r =>
    (String.fromUTF8? ⟨r.1.toArray⟩).map fun text => (text, r.2)

theorem fromUTF8_utf8 (text : String) : String.fromUTF8? ⟨(utf8 text).toArray⟩ = some text := by
  simp only [utf8, String.fromUTF8?]
  exact dif_pos text.isValidUTF8

theorem utf8_injective : Function.Injective utf8 := by
  intro a b h
  have ha := fromUTF8_utf8 a
  rw [h, fromUTF8_utf8 b] at ha
  exact (Option.some.inj ha).symm

@[simp]
theorem readText_string (text : String) (rest : Bytes) :
    readText (Json.string (utf8 text) ++ rest) = some (text, rest) := by
  rw [readText, Json.readString_string, Option.bind_some, fromUTF8_utf8]
  rfl

def readMode (bytes : Bytes) : Option (EncryptionMode × Bytes) :=
  (readText bytes).bind fun r =>
    if r.1 = "None" then some (.none, r.2)
    else if r.1 = "Aes256Gcm" then some (.aes256Gcm, r.2)
    else none

@[simp]
theorem readMode_string (mode : EncryptionMode) (rest : Bytes) :
    readMode (Json.string (utf8 mode.name) ++ rest) = some (mode, rest) := by
  cases mode <;> simp [readMode, EncryptionMode.name]

/-! ## Messages -/

def HandshakeMessage.read (bytes : Bytes) : Option HandshakeMessage := do
  let (version, bytes) ← Json.firstMember (utf8 "version") (readBelow 256) bytes
  let (messageType, bytes) ← Json.nextMember (utf8 "message_type") (readBelow 256) bytes
  let (senderDht, bytes) ← Json.nextMember (utf8 "sender_dht") readText bytes
  let (senderPubkey, bytes) ← Json.nextMember (utf8 "sender_pubkey") Json.readByteArray bytes
  let (token, bytes) ← Json.nextMember (utf8 "token") readText bytes
  let (challenge, bytes) ←
    Json.nextMember (utf8 "challenge") (Json.readNullable Json.readByteArray) bytes
  let (signature, bytes) ←
    Json.nextMember (utf8 "signature") (Json.readNullable Json.readByteArray) bytes
  let (timestamp, bytes) ← Json.nextMember (utf8 "timestamp") (readBelow (2 ^ 64)) bytes
  let (encryptionMode, bytes) ←
    Json.nextMember (utf8 "encryption_mode") (Json.readNullable readMode) bytes
  let (maintainConnection, bytes) ←
    Json.nextMember (utf8 "maintain_connection") Json.readBool bytes
  if bytes = [125] then
    some {
      version := version.toUInt8
      messageType := messageType.toUInt8
      senderDht
      senderPubkey
      token
      challenge
      signature
      timestamp := timestamp.toUInt64
      encryptionMode
      maintainConnection }
  else none

@[simp]
theorem readNullable_byteArray (value : Option Bytes) (rest : Bytes) :
    Json.readNullable Json.readByteArray (Json.nullable Json.byteArray value ++ rest) =
      some (value, rest) :=
  Json.readNullable_nullable (fun bytes => Json.readByteArray_byteArray bytes rest)
    (fun bytes => by simp [Json.byteArray, Json.array]) value

@[simp]
theorem readNullable_mode (value : Option EncryptionMode) (rest : Bytes) :
    Json.readNullable readMode
        (Json.nullable (fun mode => Json.string (utf8 (EncryptionMode.name mode))) value ++ rest) =
      some (value, rest) :=
  Json.readNullable_nullable (fun mode => readMode_string mode rest)
    (fun mode => by simp [Json.string]) value

theorem HandshakeMessage.read_toJson (message : HandshakeMessage) :
    HandshakeMessage.read message.toJson = some message := by
  have hversion := message.version.toNat_lt
  have htype := message.messageType.toNat_lt
  have htimestamp := message.timestamp.toNat_lt
  simp only [read, toJson, Json.object, Json.commaSeparated, List.append_assoc, List.cons_append]
  rw [Json.firstMember_field (readBelow_number hversion (Json.endsNumber_comma _))]
  simp only [Option.bind_eq_bind, Option.bind_some]
  rw [Json.nextMember_field (readBelow_number htype (Json.endsNumber_comma _))]
  simp only [Option.bind_some]
  rw [Json.nextMember_field (readText_string _ _)]
  simp only [Option.bind_some]
  rw [Json.nextMember_field (Json.readByteArray_byteArray _ _)]
  simp only [Option.bind_some]
  rw [Json.nextMember_field (readText_string _ _)]
  simp only [Option.bind_some]
  rw [Json.nextMember_field (readNullable_byteArray _ _)]
  simp only [Option.bind_some]
  rw [Json.nextMember_field (readNullable_byteArray _ _)]
  simp only [Option.bind_some]
  rw [Json.nextMember_field (readBelow_number htimestamp (Json.endsNumber_comma _))]
  simp only [Option.bind_some]
  rw [Json.nextMember_field (readNullable_mode _ _)]
  simp only [Option.bind_some]
  rw [Json.nextMember_field (Json.readBool_bool _ _)]
  simp

def DirectApplicationEnvelope.read (bytes : Bytes) : Option DirectApplicationEnvelope := do
  let (protocolVersion, bytes) ←
    Json.firstMember (utf8 "protocol_version") (readBelow (2 ^ 16)) bytes
  let (senderDht, bytes) ← Json.nextMember (utf8 "sender_dht") readText bytes
  let (ciphertext, bytes) ← Json.nextMember (utf8 "ciphertext") Json.readByteArray bytes
  if bytes = [125] then
    some { protocolVersion := protocolVersion.toUInt16, senderDht, ciphertext }
  else none

theorem DirectApplicationEnvelope.read_toJson (envelope : DirectApplicationEnvelope) :
    DirectApplicationEnvelope.read envelope.toJson = some envelope := by
  have hversion := envelope.protocolVersion.toNat_lt
  simp only [read, toJson, Json.object, Json.commaSeparated, List.append_assoc, List.cons_append]
  rw [Json.firstMember_field (readBelow_number hversion (Json.endsNumber_comma _))]
  simp only [Option.bind_eq_bind, Option.bind_some]
  rw [Json.nextMember_field (readText_string _ _)]
  simp only [Option.bind_some]
  rw [Json.nextMember_field (Json.readByteArray_byteArray _ _)]
  simp

def DirectApplicationPayload.read (bytes : Bytes) : Option DirectApplicationPayload := do
  let (protocolVersion, bytes) ←
    Json.firstMember (utf8 "protocol_version") (readBelow (2 ^ 16)) bytes
  let (applicationId, bytes) ← Json.nextMember (utf8 "application_id") readText bytes
  let (messageId, bytes) ← Json.nextMember (utf8 "message_id") Json.readByteArray bytes
  let (sentAt, bytes) ← Json.nextMember (utf8 "sent_at") (readBelow (2 ^ 64)) bytes
  let (payload, bytes) ← Json.nextMember (utf8 "payload") Json.readByteArray bytes
  if bytes = [125] then
    some {
      protocolVersion := protocolVersion.toUInt16
      applicationId
      messageId
      sentAt := sentAt.toUInt64
      payload }
  else none

theorem DirectApplicationPayload.read_toJson (inner : DirectApplicationPayload) :
    DirectApplicationPayload.read inner.toJson = some inner := by
  have hversion := inner.protocolVersion.toNat_lt
  have hsentAt := inner.sentAt.toNat_lt
  simp only [read, toJson, Json.object, Json.commaSeparated, List.append_assoc, List.cons_append]
  rw [Json.firstMember_field (readBelow_number hversion (Json.endsNumber_comma _))]
  simp only [Option.bind_eq_bind, Option.bind_some]
  rw [Json.nextMember_field (readText_string _ _)]
  simp only [Option.bind_some]
  rw [Json.nextMember_field (Json.readByteArray_byteArray _ _)]
  simp only [Option.bind_some]
  rw [Json.nextMember_field (readBelow_number hsentAt (Json.endsNumber_comma _))]
  simp only [Option.bind_some]
  rw [Json.nextMember_field (Json.readByteArray_byteArray _ _)]
  simp

@[simp]
theorem length_utf8 (text : String) : (utf8 text).length = text.utf8ByteSize := by
  rw [utf8, Array.length_toList]
  rfl

variable {message : HandshakeMessage}

/-- What the name of its sender and the signature add to the JSON of a message. -/
theorem HandshakeMessage.length_toJson_le {n rest : Nat}
    (hsignature : ∀ bytes, message.signature = some bytes → bytes.length ≤ n)
    (hrest : ({ message with senderDht := "", signature := none } : HandshakeMessage).toJson.length
      ≤ rest) :
    message.toJson.length ≤ rest + 6 * message.senderDht.utf8ByteSize + 4 * n := by
  have hdht := Json.length_string_le (utf8 message.senderDht)
  rw [length_utf8] at hdht
  have hvalue : (Json.nullable Json.byteArray message.signature).length ≤ 4 * n + 4 := by
    apply Json.length_nullable_le (by omega)
    intro bytes hbytes
    have hlength := Json.length_byteArray_le bytes
    have hle := hsignature bytes hbytes
    omega
  have hempty : (Json.string (utf8 "")).length = 2 := rfl
  have hnull : (Json.nullable Json.byteArray none).length = 4 := rfl
  simp only [toJson, Json.object, Json.field, List.length_cons, List.length_append,
    Json.length_commaSeparated, List.map_cons, List.map_nil, List.sum_cons, List.sum_nil,
    List.length_nil] at hrest ⊢
  omega

/-- A valid and recent message comes through its own bytes. -/
theorem decodeAndValidateHandshakeMessage_toJson {Secret : Type} {prim : Primitives Secret}
    (law : ReadsJson prim) {now : UInt64} (short : message.toJson.length ≤ maxHandshakeMessageBytes)
    (valid : validateHandshakeMessage message = .ok ())
    (record : prim.isRecordKey message.senderDht = true)
    (early : ¬ message.timestamp > saturatingAdd now timeWindow)
    (late : ¬ saturatingAdd message.timestamp timeWindow < now) :
    decodeAndValidateHandshakeMessage prim now message.toJson = .ok message := by
  have hsome : message.toJson ≠ [] := by
    simp [HandshakeMessage.toJson, Json.object]
  have hread : decodeJsonLimited prim message.toJson maxHandshakeMessageBytes = .ok message := by
    rw [decodeJsonLimited, if_neg hsome, if_neg (by omega), law.message]
  unfold decodeAndValidateHandshakeMessage
  rw [hread]
  simp only [bind, Except.bind, valid, record, early, late, not_true_eq_false, if_false]
  rfl

/-! ## A small instance

The laws can be had together: JSON in its compact form alone, a key agreement that commutes,
a hash without collisions that is short on short answers to challenges, and a cipher that
checks its key. -/

namespace Sample

/-- What is hashed into an answer to a challenge, for peers with names of one letter. -/
def shortAnswer (key initiator responder challenge : UInt8) : Bytes :=
  List.replicate 32 key ++ [initiator] ++ [responder] ++ List.replicate 32 challenge

/-- The hash of short answers has thirty-two bytes, that of everything else has more. -/
def sha256 (bytes : Bytes) : Bytes :=
  let key := bytes.getD 0 0
  let initiator := bytes.getD 32 0
  let responder := bytes.getD 33 0
  let challenge := bytes.getD 34 0
  if bytes = shortAnswer key initiator responder challenge then
    key :: initiator :: responder :: List.replicate 29 challenge
  else List.replicate 33 0 ++ bytes

theorem sha256_injective : Function.Injective sha256 := by
  intro a b h
  unfold sha256 at h
  dsimp only at h
  split at h
  case isTrue ha =>
    split at h
    case isTrue hb =>
      simp only [List.replicate_succ, List.cons.injEq] at h
      rw [ha, hb, h.1, h.2.1, h.2.2.1, h.2.2.2.1]
    case isFalse =>
      have hlength := congrArg List.length h
      simp only [List.length_cons, List.length_replicate, List.length_append] at hlength
      omega
  case isFalse =>
  split at h
  case isTrue =>
    have hlength := congrArg List.length h
    simp only [List.length_cons, List.length_replicate, List.length_append] at hlength
    omega
  case isFalse => exact List.append_cancel_left h

def primitives : Primitives UInt8 where
  sha256 := sha256
  publicKey secret := List.replicate 32 secret
  diffieHellman secret key := List.replicate 32 (secret * key.getD 0 0)
  fromJson bytes :=
    match HandshakeMessage.read bytes with
    | some message => .ok message
    | none => .error "invalid JSON"
  isRecordKey text := text != ""

theorem readsJson : ReadsJson primitives where
  message message := by simp only [primitives, HandshakeMessage.read_toJson]

/-- The sixteen bytes in front of a ciphertext. -/
def tag (key : Bytes) : Bytes := (key ++ List.replicate 16 0).take 16

theorem length_tag (key : Bytes) : (tag key).length = 16 := by
  simp only [tag, List.length_take, List.length_append, List.length_replicate]
  omega

def aead : Aead where
  encrypt key _ plaintext := tag key ++ plaintext
  decrypt key _ ciphertext :=
    if ciphertext.take 16 = tag key then some (ciphertext.drop 16) else none
  length_encrypt key _ plaintext := by rw [List.length_append, length_tag, Nat.add_comm]
  decrypt_encrypt key _ plaintext := by
    rw [List.take_left' (length_tag key), List.drop_left' (length_tag key), if_pos rfl]

def direct : DirectPrimitives where
  aead := aead
  envelopeFromJson bytes :=
    match DirectApplicationEnvelope.read bytes with
    | some envelope => .ok envelope
    | none => .error "invalid JSON"
  payloadFromJson bytes :=
    match DirectApplicationPayload.read bytes with
    | some inner => .ok inner
    | none => .error "invalid JSON"
  isGossip _ := false

theorem readsDirectJson : ReadsDirectJson direct where
  envelope envelope := by simp only [direct, DirectApplicationEnvelope.read_toJson]
  payload inner := by simp only [direct, DirectApplicationPayload.read_toJson]

/-- A node that answers everything at once, with a secret, a challenge and a token. -/
def answers (secret challenge : UInt8) (token : String) : Answers UInt8 where
  clock _ := 1000
  restartClock _ := 1000
  isReputationBlocked _ := false
  fetchRouteBlob peer := .ok (utf8 peer)
  importRemotePrivateRoute _ := .ok ()
  appMessage _ _ := .ok ()
  ephemeralSecret _ := secret
  randomChallenge _ := List.replicate 32 challenge
  randomHandshakeToken _ := token

end Sample

end VeilKnit.Handshake
