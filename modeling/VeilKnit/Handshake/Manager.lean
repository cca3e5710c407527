import VeilKnit.Library.Fallible
import VeilKnit.Library.Json
import VeilKnit.StreamTransport.Stream

/-!
# The handshake manager

A manager holds at most one session per peer. Three flights make a session: the initiator's
type 1, the responder's type 2, the initiator's type 3. Type 4 resets a session, type 5 says
that a session is still in use. This module has the messages, the sessions, what the manager
keeps about its peers, and what a step of the manager asks of the rest of the node.

Hashing, key agreement and the reading of JSON belong to other libraries and are parameters.
What the node answers during a step (times, DHT reads, sends, randomness) is a parameter of
the step.
-/

namespace VeilKnit.Handshake

open Library
open StreamTransport (saturatingAdd saturatingSub)

def versionId : UInt8 := 1
def maxEstablishedHandshakes : Nat := 500
def maxTotalSessions : Nat := 2000
def maxPendingInboundHandshakes : Nat := 128
def maxPendingOutboundHandshakes : Nat := 128
def pendingSessionMaxAgeSecs : UInt64 := 60
def checkinIntervalSecs : UInt64 := 60
def checkinTimeoutSecs : UInt64 := 180
def timeWindow : UInt64 := 120
def maxInboundHandshakeInitsPerWindow : Nat := 10
def handshakeInitWindowSecs : UInt64 := 60
def maxHandshakeMessageBytes : Nat := 16 * 1024
def maxHandshakeTokenBytes : Nat := 128
def handshakeChallengeBytes : Nat := 32
def handshakeSignatureBytes : Nat := 32
def maxHandshakeRetries : UInt8 := 3
def handshakeResetMessageType : UInt8 := 4
def handshakeResetQuarantineSecs : UInt64 := 5
def handshakeResetRestartSecs : UInt64 := 8
def handshakeResetWindowSecs : UInt64 := 10 * 60
def maxHandshakeResetsPerPeer : Nat := 3
def handshakeResetAbuseIgnoreSecs : UInt64 := 15 * 60
def maxDuplicateReplyReplays : UInt8 := 3
def challengeFailureWindowSecs : UInt64 := 24 * 60 * 60
def challengeReputationThreshold : Nat := 3
def challengeBanSuggestionThreshold : Nat := 10

/-! ## Messages -/

/-- The cipher of application payloads. -/
inductive EncryptionMode
  | none
  | aes256Gcm
  deriving DecidableEq, Repr

structure HandshakeMessage where
  version : UInt8
  /-- 1 = init, 2 = welcome reply, 3 = final, 4 = reset, 5 = check-in. -/
  messageType : UInt8
  senderDht : String
  senderPubkey : Bytes
  token : String
  challenge : Option Bytes
  signature : Option Bytes
  timestamp : UInt64
  encryptionMode : Option EncryptionMode
  maintainConnection : Bool
  deriving DecidableEq

def utf8 (text : String) : Bytes := text.toUTF8.data.toList

def EncryptionMode.name : EncryptionMode → String
  | .none => "None"
  | .aes256Gcm => "Aes256Gcm"

def HandshakeMessage.toJson (message : HandshakeMessage) : Bytes :=
  Json.object [ Json.field (utf8 "version") (Json.number message.version.toNat),
    Json.field (utf8 "message_type") (Json.number message.messageType.toNat),
    Json.field (utf8 "sender_dht") (Json.string (utf8 message.senderDht)),
    Json.field (utf8 "sender_pubkey") (Json.byteArray message.senderPubkey),
    Json.field (utf8 "token") (Json.string (utf8 message.token)),
    Json.field (utf8 "challenge") (Json.nullable Json.byteArray message.challenge),
    Json.field (utf8 "signature") (Json.nullable Json.byteArray message.signature),
    Json.field (utf8 "timestamp") (Json.number message.timestamp.toNat),
    Json.field (utf8 "encryption_mode") (Json.nullable
      (fun mode => Json.string (utf8 (EncryptionMode.name mode))) message.encryptionMode),
    Json.field (utf8 "maintain_connection") (Json.bool message.maintainConnection)]

/-- What the handshake takes from other libraries. -/
structure Primitives (Secret : Type) where
  sha256 : Bytes → Bytes
  /-- `PublicKey::from`. -/
  publicKey : Secret → Bytes
  diffieHellman : Secret → Bytes → Bytes
  fromJson : Bytes → Except String HandshakeMessage
  /-- Whether a text parses as a record key. -/
  isRecordKey : String → Bool

variable {Secret : Type}

def createResponse (prim : Primitives Secret) (sharedSecret : Bytes)
    (initiator responder : String) (challenge : Bytes) : Bytes :=
  prim.sha256 (sharedSecret ++ utf8 initiator ++ utf8 responder ++ challenge)

def isAllZero (bytes : Bytes) : Bool := bytes.all (· == 0)

def validateHandshakeMessage (msg : HandshakeMessage) : Except String Unit :=
  let challengeIsValid := msg.challenge.any (·.length = handshakeChallengeBytes)
  let signatureIsValid := msg.signature.any (·.length = handshakeSignatureBytes)
  if msg.version ≠ versionId then
    .error s!"Unsupported handshake version {msg.version}; expected {versionId}"
  else if msg.messageType ∉ [1, 2, 3, handshakeResetMessageType, 5] then
    .error s!"Unknown handshake message type {msg.messageType}"
  else if msg.senderDht.utf8ByteSize > 256 then
    .error "Sender DHT identity is too long"
  else if msg.token.isEmpty ∨ msg.token.utf8ByteSize > maxHandshakeTokenBytes then
    .error "Handshake token length is invalid"
  else if msg.messageType ∈ [1, 2, 3] ∧ msg.senderPubkey.length ≠ 32 then
    .error "Handshake X25519 public key must be exactly 32 bytes"
  else if msg.messageType ∈ [1, 2, 3] ∧ isAllZero msg.senderPubkey then
    .error "Handshake X25519 public key must not be all zero"
  else if msg.messageType = 1 then
    if ¬ challengeIsValid ∨ msg.signature.isSome then
      .error "Malformed type-1 handshake message"
    else .ok ()
  else if msg.messageType = 2 then
    if ¬ challengeIsValid ∨ ¬ signatureIsValid then
      .error "Malformed type-2 handshake message"
    else .ok ()
  else if msg.messageType = 3 then
    if msg.challenge.isSome ∨ ¬ signatureIsValid then
      .error "Malformed type-3 handshake message"
    else .ok ()
  else if msg.messageType = handshakeResetMessageType then
    if msg.senderPubkey ≠ [] ∨ msg.challenge.isSome ∨ msg.signature.isSome ∨
        msg.encryptionMode.isSome ∨ msg.maintainConnection then
      .error "Malformed handshake reset message"
    else .ok ()
  else if msg.challenge.isSome ∨ msg.signature.isSome then
    .error "Malformed type-5 check-in message"
  else .ok ()

def decodeJsonLimited (prim : Primitives Secret) (bytes : Bytes) (maximum : Nat) :
    Except String HandshakeMessage :=
  if bytes = [] then .error "network envelope is empty"
  else if bytes.length > maximum then
    .error s!"network envelope is {bytes.length} bytes; maximum is {maximum} bytes"
  else prim.fromJson bytes

def decodeAndValidateHandshakeMessage (prim : Primitives Secret) (now : UInt64) (data : Bytes) :
    Except String HandshakeMessage := do
  let msg ← decodeJsonLimited prim data maxHandshakeMessageBytes
  validateHandshakeMessage msg
  if ¬ prim.isRecordKey msg.senderDht then
    throw "Invalid sender DHT identity"
  if msg.timestamp > saturatingAdd now timeWindow then
    throw "Handshake message timestamp is too far in the future"
  if saturatingAdd msg.timestamp timeWindow < now then
    throw "Handshake message timestamp is too old"
  pure msg

def encodeHandshakeMessage (message : HandshakeMessage) : Except String Bytes :=
  if message.toJson.length > maxHandshakeMessageBytes then
    .error "Encoded handshake message exceeds protocol limit"
  else .ok message.toJson

/-! ## Sessions -/

inductive HandshakeStatus
  | none
  | initSent
  | challengeReceived
  | established
  | failed
  deriving DecidableEq, Repr

/-- A flight as it went over the wire. Retries send these bytes again. -/
structure SavedHandshakeFlight where
  messageType : UInt8
  bytes : Bytes
  digest : Bytes
  deriving DecidableEq

def SavedHandshakeFlight.new (prim : Primitives Secret) (messageType : UInt8) (bytes : Bytes) :
    SavedHandshakeFlight where
  messageType := messageType
  bytes := bytes
  digest := prim.sha256 bytes

structure CachedHandshakeReply where
  flight : SavedHandshakeFlight
  replayCount : UInt8
  deriving DecidableEq

structure PendingHandshakeRestart where
  encryptionMode : EncryptionMode
  verification : Bool
  maintainConnection : Bool
  restartAt : UInt64
  deriving DecidableEq

/-- The token of a session that a reset has ended. -/
structure AcceptedResetToken where
  token : String
  expiresAt : UInt64
  deriving DecidableEq

structure HandshakeState (Secret : Type) where
  peerDht : String
  isInitiator : Bool
  peerPublicKey : Option Bytes
  ourPrivateKey : Option Secret
  ourPublicKey : Bytes
  route : Option Bytes
  status : HandshakeStatus
  startedAt : UInt64
  lastAttempt : UInt64
  lastSeen : UInt64
  retries : UInt8
  token : String
  ourChallenge : Option Bytes
  theirChallenge : Option Bytes
  sessionKey : Option Bytes
  encryptionMode : EncryptionMode
  maintainConnection : Bool
  verification : Bool
  outgoingFlight : Option SavedHandshakeFlight
  /-- Digests of received flights, by message type. -/
  receivedFlights : UInt8 → Option Bytes
  /-- Answers to received flights, by the type of the flight. -/
  cachedReplies : UInt8 → Option CachedHandshakeReply

abbrev Sessions (Secret : Type) := AList fun _ : String => HandshakeState Secret

/-! ## The manager -/

/-- The manager's state. Lists of times that are absent in the source are empty here. -/
structure Manager (Secret : Type) where
  sessions : Sessions Secret
  ourDht : String
  defaultEncryptionMode : EncryptionMode
  inboundInitAttempts : String → List UInt64
  lastExcessiveActivityReport : String → Option UInt64
  resetReceipts : String → List UInt64
  resetSends : String → List UInt64
  acceptedResetTokens : String → Option AcceptedResetToken
  quarantinedUntil : String → Option UInt64
  ignoredUntil : String → Option UInt64
  pendingRestarts : String → Option PendingHandshakeRestart
  challengeFailures : String → List UInt64

def Manager.new (ourDht : String) : Manager Secret where
  sessions := ∅
  ourDht := ourDht
  defaultEncryptionMode := .aes256Gcm
  inboundInitAttempts _ := []
  lastExcessiveActivityReport _ := none
  resetReceipts _ := []
  resetSends _ := []
  acceptedResetTokens _ := none
  quarantinedUntil _ := none
  ignoredUntil _ := none
  pendingRestarts _ := none
  challengeFailures _ := []

inductive ObservationKind
  | invalidSignature
  | deliberateStateCorruption
  | excessiveActivity
  | handshakeUnavailable
  deriving DecidableEq, Repr

/-- A direct message as the applications get it. -/
structure DirectApplicationMessage where
  applicationId : String
  messageId : Bytes
  senderDht : String
  sentAt : UInt64
  payload : Bytes
  deriving DecidableEq

/-- What a step asks of the rest of the node. A send stands here also when it fails: the
message may have left all the same. -/
inductive Effect
  | appMessage (route bytes : Bytes)
  | submitObservation (subject : String) (kind : ObservationKind) (applicationCode : Option Nat)
  | establishedPeer (peer : String)
  | applicationMessage (message : DirectApplicationMessage)
  deriving DecidableEq

/-- The manager and what its steps have asked for. -/
structure Process (Secret : Type) where
  manager : Manager Secret
  effects : List Effect

/-- What the node answers during one step. -/
structure Answers (Secret : Type) where
  /-- `current_timestamp`, by the number of the reading. -/
  clock : Nat → UInt64
  /-- The time at which a restart of a peer's handshake begins. -/
  restartClock : String → UInt64
  /-- A peer that the reputation service blocks. A failed lookup blocks nobody. -/
  isReputationBlocked : String → Bool
  fetchRouteBlob : String → Except String Bytes
  importRemotePrivateRoute : Bytes → Except String Unit
  appMessage : Bytes → Bytes → Except String Unit
  /-- The randomness of a new session with a peer. -/
  ephemeralSecret : String → Secret
  randomChallenge : String → Bytes
  randomHandshakeToken : String → String

abbrev Handler (Secret α : Type) := Fallible String (Process Secret) α

namespace Manager

/-- Replace the session of a peer. -/
def putSession (m : Manager Secret) (peer : String) (state : HandshakeState Secret) :
    Manager Secret :=
  { m with sessions := m.sessions.insert peer state }

def removeSession (m : Manager Secret) (peer : String) : Manager Secret :=
  { m with sessions := m.sessions.erase peer }

/-- Drop the times of which the window has passed. -/
def retainRecent (values : List UInt64) (now windowSecs : UInt64) : List UInt64 :=
  values.dropWhile (saturatingAdd · windowSecs ≤ now)

/-- Whether a peer is ignored; a time that has passed is forgotten. -/
def isPeerIgnored (m : Manager Secret) (peer : String) (now : UInt64) : Bool × Manager Secret :=
  match m.ignoredUntil peer with
  | some deadline =>
    if now < deadline then (true, m)
    else (false, { m with ignoredUntil := Function.update m.ignoredUntil peer none })
  | none => (false, m)

def isPeerQuarantined (m : Manager Secret) (peer : String) (now : UInt64) :
    Bool × Manager Secret :=
  match m.quarantinedUntil peer with
  | some deadline =>
    if now < deadline then (true, m)
    else (false, { m with quarantinedUntil := Function.update m.quarantinedUntil peer none })
  | none => (false, m)

def scheduleRestartFromState (m : Manager Secret) (state : HandshakeState Secret) (now : UInt64) :
    Manager Secret :=
  if ¬ state.isInitiator then m
  else
    { m with
      pendingRestarts := Function.update m.pendingRestarts state.peerDht (some {
        encryptionMode := state.encryptionMode
        verification := state.verification
        maintainConnection := state.maintainConnection
        restartAt := saturatingAdd now handshakeResetRestartSecs }) }

/-- Sessions on one side that are not established. -/
def isPendingOn (isInitiator : Bool) (state : HandshakeState Secret) : Bool :=
  state.isInitiator == isInitiator && state.status != .established

def pendingCount (m : Manager Secret) (isInitiator : Bool) : Nat :=
  m.sessions.count (isPendingOn isInitiator)

def establishedCount (m : Manager Secret) : Nat :=
  m.sessions.count (·.status == .established)

def totalCount (m : Manager Secret) : Nat := m.sessions.entries.length

/-- Drop the failed and the old among the pending sessions of one side, and say whether there
is room for one more. -/
def reservePendingSlot (m : Manager Secret) (isInitiator : Bool) (now : UInt64) :
    Bool × Manager Secret :=
  let limit := if isInitiator then maxPendingOutboundHandshakes else maxPendingInboundHandshakes
  let stale := m.sessions.entries.filter fun e =>
    isPendingOn isInitiator e.2 &&
      (e.2.status == .failed || pendingSessionMaxAgeSecs ≤ saturatingSub now e.2.startedAt)
  let m := (stale.map Sigma.fst).foldl removeSession m
  (m.pendingCount isInitiator < limit, m)

end Manager

end VeilKnit.Handshake
