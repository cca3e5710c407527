import VeilKnit.Handshake.Tick
import VeilKnit.Library.Utf8
import VeilKnit.Security.Padding

/-!
# Direct application messages

Over an established session the peers send each other application payloads. The payload is
written as JSON, padded, encrypted with the session's key, and the ciphertext is written as
JSON again. Whatever arrives at the node's route goes through one handler, which tells
handshake messages, gossip and direct messages apart.

Writing JSON is the library's; reading it back belongs to another library and is a parameter,
as are the cipher and the recognition of gossip.
-/

namespace VeilKnit.Handshake

open Library Security
open StreamTransport (saturatingAdd saturatingSub)

variable {Secret : Type}

def maxDirectApplicationMessageBytes : Nat := 64 * 1024
def directApplicationProtocolVersion : UInt16 := 1
def directApplicationTimeWindowSecs : UInt64 := 10 * 60

structure DirectApplicationEnvelope where
  protocolVersion : UInt16
  senderDht : String
  ciphertext : Bytes
  deriving DecidableEq

structure DirectApplicationPayload where
  protocolVersion : UInt16
  applicationId : String
  messageId : Bytes
  sentAt : UInt64
  payload : Bytes
  deriving DecidableEq

def DirectApplicationEnvelope.toJson (envelope : DirectApplicationEnvelope) : Bytes :=
  Json.object [ Json.field (utf8 "protocol_version") (Json.number envelope.protocolVersion.toNat),
    Json.field (utf8 "sender_dht") (Json.string (utf8 envelope.senderDht)),
    Json.field (utf8 "ciphertext") (Json.byteArray envelope.ciphertext)]

def DirectApplicationPayload.toJson (inner : DirectApplicationPayload) : Bytes :=
  Json.object [ Json.field (utf8 "protocol_version") (Json.number inner.protocolVersion.toNat),
    Json.field (utf8 "application_id") (Json.string (utf8 inner.applicationId)),
    Json.field (utf8 "message_id") (Json.byteArray inner.messageId),
    Json.field (utf8 "sent_at") (Json.number inner.sentAt.toNat),
    Json.field (utf8 "payload") (Json.byteArray inner.payload)]

/-- What direct messages take from other libraries. -/
structure DirectPrimitives where
  aead : Aead
  envelopeFromJson : Bytes → Except String DirectApplicationEnvelope
  payloadFromJson : Bytes → Except String DirectApplicationPayload
  /-- Whether the bytes read as one of the two gossip envelopes of a known version. -/
  isGossip : Bytes → Bool

/-- The randomness of one message. -/
structure MessageRandomness where
  messageId : Bytes
  nonce : Nonce
  fill : RandomBytes

/-! ## Encryption -/

def PaddingError.text : PaddingError → String
  | .payloadTooLarge required maximum =>
    s!"payload needs {required} padded bytes; maximum class is {maximum}"
  | .invalidLength declared available =>
    s!"padded payload declares {declared} bytes but only {available} are available"

def encryptPayload (direct : DirectPrimitives) (random : MessageRandomness) (plaintext key : Bytes)
    (mode : EncryptionMode) : Except String Bytes :=
  match mode with
  | .none => .ok plaintext
  | .aes256Gcm =>
    match padForDirectEncryption random.fill plaintext with
    | .error e => .error ("direct-message padding error: " ++ PaddingError.text e)
    | .ok padded =>
      .ok (random.nonce.val ++ direct.aead.encrypt key random.nonce.val padded)

def decryptPayload (direct : DirectPrimitives) (wire key : Bytes) (mode : EncryptionMode) :
    Except String Bytes :=
  match mode with
  | .none => .ok wire
  | .aes256Gcm =>
    if wire.length < 12 then .error "AES-GCM wire payload too short (missing nonce)"
    else
      match direct.aead.decrypt key (wire.take 12) (wire.drop 12) with
      | none => .error "AES-GCM decrypt error: aead::Error"
      | some plaintext =>
        match unpadAfterDecryption plaintext with
        | .error e => .error ("direct-message padding error: " ++ PaddingError.text e)
        | .ok (some unpadded) => .ok unpadded
        -- Sessions from before there was padding.
        | .ok none => .ok plaintext

namespace HandshakeState

def encrypt (state : HandshakeState Secret) (direct : DirectPrimitives)
    (random : MessageRandomness) (plaintext : Bytes) : Except String Bytes :=
  match state.sessionKey with
  | none => .error "Session not yet established"
  | some key => encryptPayload direct random plaintext key state.encryptionMode

def decrypt (state : HandshakeState Secret) (direct : DirectPrimitives) (wire : Bytes) :
    Except String Bytes :=
  match state.sessionKey with
  | none => .error "Session not yet established"
  | some key => decryptPayload direct wire key state.encryptionMode

end HandshakeState

/-! ## Sending -/

def isBlank (text : String) : Bool := text.toList.all fun c => Utf8.isWhitespace c.toNat

/-- The payload as it is encrypted. -/
def directInner (random : MessageRandomness) (applicationId : String) (sentAt : UInt64)
    (payload : Bytes) : DirectApplicationPayload where
  protocolVersion := directApplicationProtocolVersion
  applicationId := applicationId
  messageId := random.messageId
  sentAt := sentAt
  payload := payload

def directOuter (ourDht : String) (ciphertext : Bytes) : DirectApplicationEnvelope where
  protocolVersion := directApplicationProtocolVersion
  senderDht := ourDht
  ciphertext := ciphertext

/-- The session's route, or else the one that the peer has published. -/
def routeTo (ans : Answers Secret) (peer : String) (state : HandshakeState Secret) :
    Except String Bytes :=
  match state.route with
  | some route => .ok route
  | none => ans.fetchRouteBlob peer

/-- Encrypt a payload for an established session and send it. -/
def sendOverSession (direct : DirectPrimitives) (ans : Answers Secret)
    (random : MessageRandomness) (peer applicationId : String) (payload : Bytes)
    (state : HandshakeState Secret) : Handler Secret Bytes := fun p =>
  match state.encrypt direct random
      (directInner random applicationId (ans.clock 0) payload).toJson with
  | .error e => (.error e, p)
  | .ok ciphertext =>
    match routeTo ans peer state with
    | .error e => (.error e, p)
    | .ok route =>
      let bytes := (directOuter p.manager.ourDht ciphertext).toJson
      if bytes.length > maxDirectApplicationMessageBytes then
        (.error "Encoded direct application message exceeds protocol limit", p)
      else
        match ans.appMessage route bytes with
        | .error e => (.error e, p.ask (.appMessage route bytes))
        | .ok () => (.ok random.messageId, p.ask (.appMessage route bytes))

def sendApplicationMessage (direct : DirectPrimitives) (ans : Answers Secret)
    (random : MessageRandomness) (peer applicationId : String) (payload : Bytes) :
    Handler Secret Bytes := fun p =>
  if isBlank applicationId ∨ applicationId.utf8ByteSize > 256 then
    (.error "Application id length is invalid", p)
  else if payload.length > maxDirectApplicationMessageBytes / 2 then
    (.error "Direct application payload exceeds protocol limit", p)
  else if ans.isReputationBlocked peer then
    (.error s!"Peer {peer} is blocked by reputation policy", p)
  else
    match p.session peer with
    | none => (.error s!"No handshake session for {peer}", p)
    | some state =>
      if state.status ≠ .established then
        (.error s!"Handshake with {peer} is not established", p)
      else if state.encryptionMode ≠ .aes256Gcm then
        (.error "Direct application transport requires AES-256-GCM", p)
      else sendOverSession direct ans random peer applicationId payload state p

/-! ## Receiving -/

/-- The message that a session accepts from an envelope at some time. -/
def openEnvelope (direct : DirectPrimitives) (state : HandshakeState Secret)
    (envelope : DirectApplicationEnvelope) (now : UInt64) :
    Except String DirectApplicationMessage := do
  if state.status ≠ .established then
    throw "Direct message arrived without an established handshake"
  else if state.encryptionMode ≠ .aes256Gcm then
    throw "Direct message session is not authenticated encryption"
  else
    let plaintext ← state.decrypt direct envelope.ciphertext
    let inner ← direct.payloadFromJson plaintext
    if inner.protocolVersion ≠ directApplicationProtocolVersion then
      throw "Inner direct application protocol mismatch"
    else if isBlank inner.applicationId ∨ inner.applicationId.utf8ByteSize > 256 then
      throw "Invalid direct application id"
    else if inner.sentAt > saturatingAdd now directApplicationTimeWindowSecs ∨
        saturatingAdd inner.sentAt directApplicationTimeWindowSecs < now then
      throw "Direct application message timestamp is outside the allowed window"
    else
      pure {
        applicationId := inner.applicationId
        messageId := inner.messageId
        senderDht := envelope.senderDht
        sentAt := inner.sentAt
        payload := inner.payload }

def processDirectApplication (prim : Primitives Secret) (direct : DirectPrimitives)
    (ans : Answers Secret) (envelope : DirectApplicationEnvelope) : Handler Secret Unit := fun p =>
  let peer := envelope.senderDht
  if envelope.protocolVersion ≠ directApplicationProtocolVersion then
    (.error s!"Unsupported direct application protocol {envelope.protocolVersion}", p)
  else if ¬ prim.isRecordKey peer then (.error "Invalid record key", p)
  else if peer = p.manager.ourDht then (.ok (), p)
  else if ans.isReputationBlocked peer then (.error "Sender is blocked by reputation policy", p)
  else
    match p.session peer with
    | none => (.error s!"No session for {peer}", p)
    | some state =>
      let now := ans.clock 1
      match openEnvelope direct state envelope now with
      | .error e => (.error e, p)
      | .ok message =>
        (.ok (), (p.putSession peer { state with lastSeen := now }).ask
          (.applicationMessage message))

/-- Whatever arrives at the node's route. Failures are only logged. -/
def handleAppMessage (prim : Primitives Secret) (direct : DirectPrimitives)
    (ans : Answers Secret) (data : Bytes) (p : Process Secret) : Process Secret :=
  if data.length > maxDirectApplicationMessageBytes then p
  else
    match decodeAndValidateHandshakeMessage prim (ans.clock 6) data with
    | .ok message => (processValidatedMessage prim ans message.senderDht message data p).2
    | .error _ =>
      if direct.isGossip data then p
      else
        match direct.envelopeFromJson data with
        | .error _ => p
        | .ok envelope => (processDirectApplication prim direct ans envelope p).2

end VeilKnit.Handshake
