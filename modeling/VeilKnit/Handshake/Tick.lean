import VeilKnit.Handshake.Handlers

/-!
# Starting handshakes and the regular tick

A node starts a handshake by sending a type 1 to the route that the peer has published. The
tick sends check-ins, repeats flights that were not answered, drops sessions that are over and
restarts handshakes that a reset has ended.
-/

namespace VeilKnit.Handshake

open Library
open StreamTransport (saturatingAdd saturatingSub)

variable {Secret : Type}

/-! ## Starting a handshake -/

def initMessage (ourDht : String) (ourPublic : Bytes) (token : String) (challenge : Bytes)
    (now : UInt64) (encryptionMode : EncryptionMode) (maintainConnection : Bool) :
    HandshakeMessage where
  version := versionId
  messageType := 1
  senderDht := ourDht
  senderPubkey := ourPublic
  token := token
  challenge := some challenge
  signature := none
  timestamp := now
  encryptionMode := some encryptionMode
  maintainConnection := maintainConnection

/-- The session of an initiator that has sent its type 1. -/
def initiatedState (prim : Primitives Secret) (ans : Answers Secret) (peer : String)
    (blob initialBytes : Bytes) (now : UInt64) (encryptionMode : EncryptionMode)
    (verification maintainConnection : Bool) : HandshakeState Secret where
  peerDht := peer
  isInitiator := true
  peerPublicKey := none
  ourPrivateKey := some (ans.ephemeralSecret peer)
  ourPublicKey := prim.publicKey (ans.ephemeralSecret peer)
  route := some blob
  status := .initSent
  startedAt := now
  lastAttempt := now
  lastSeen := now
  retries := 0
  token := ans.randomHandshakeToken peer
  ourChallenge := some (ans.randomChallenge peer)
  theirChallenge := none
  sessionKey := none
  encryptionMode := encryptionMode
  maintainConnection := maintainConnection
  verification := verification
  outgoingFlight := some (.new prim 1 initialBytes)
  receivedFlights _ := none
  cachedReplies _ := none

/-- Fetch the route, send the type 1 and keep the session. -/
def sendInit (prim : Primitives Secret) (ans : Answers Secret) (now : UInt64) (target : String)
    (encryptionMode : EncryptionMode) (verification maintainConnection : Bool) :
    Handler Secret Unit := fun p =>
  match ans.fetchRouteBlob target with
  | .error e => (.error e, p)
  | .ok blob =>
    let msg := initMessage p.manager.ourDht (prim.publicKey (ans.ephemeralSecret target))
      (ans.randomHandshakeToken target) (ans.randomChallenge target) now encryptionMode
      maintainConnection
    match encodeHandshakeMessage msg with
    | .error e => (.error e, p)
    | .ok initialBytes =>
      match ans.appMessage blob initialBytes with
      | .error e => (.error e, p.ask (.appMessage blob initialBytes))
      | .ok () =>
        (.ok (), (p.ask (.appMessage blob initialBytes)).putSession target
          (initiatedState prim ans target blob initialBytes now encryptionMode verification
            maintainConnection))

def initiateHandshakeInternal (prim : Primitives Secret) (ans : Answers Secret) (now : UInt64)
    (target : String) (encryptionMode : EncryptionMode)
    (verification maintainConnection : Bool) : Handler Secret Unit := fun p =>
  match p.manager.isPeerIgnored target now with
  | (true, m) => (.error s!"Peer {target} is temporarily ignored", { p with manager := m })
  | (false, m) =>
    match m.isPeerQuarantined target now with
    | (true, m) =>
      (.error s!"Peer {target} is in handshake quarantine", { p with manager := m })
    | (false, m) =>
      let p := { p with manager := m }
      if ans.isReputationBlocked target then
        (.error s!"Peer {target} is blocked by local reputation policy", p.removeSession target)
      else if (p.session target).any (·.status == .established) then (.ok (), p)
      else if maxTotalSessions ≤ m.totalCount then (.ok (), p)
      else
        match m.reservePendingSlot true now with
        | (false, m) =>
          (.error "Outbound pending-handshake limit reached", { p with manager := m })
        | (true, m) =>
          sendInit prim ans now target encryptionMode verification maintainConnection
            { p with manager := m }

def initiateHandshake (prim : Primitives Secret) (ans : Answers Secret) (target : String) :
    Handler Secret Unit := fun p =>
  initiateHandshakeInternal prim ans (ans.clock 0) target p.manager.defaultEncryptionMode false
    false p

def initiateVerificationHandshake (prim : Primitives Secret) (ans : Answers Secret)
    (target : String) : Handler Secret Unit := fun p =>
  initiateHandshakeInternal prim ans (ans.clock 0) target p.manager.defaultEncryptionMode true
    false p

def initiateHandshakeWithMode (prim : Primitives Secret) (ans : Answers Secret) (target : String)
    (encryptionMode : EncryptionMode) : Handler Secret Unit :=
  initiateHandshakeInternal prim ans (ans.clock 0) target encryptionMode false false

/-- A quick session is given up for a maintained one. -/
def initiatePersistentHandshake (prim : Primitives Secret) (ans : Answers Secret)
    (target : String) : Handler Secret Unit := fun p =>
  if (p.session target).any fun state => state.status == .established &&
      state.maintainConnection then (.ok (), p)
  else
    let p :=
      if (p.session target).any (·.status == .established) then p.removeSession target else p
    initiateHandshakeInternal prim ans (ans.clock 0) target p.manager.defaultEncryptionMode false
      true p

/-! ## The tick -/

def checkinMessage (ourDht : String) (state : HandshakeState Secret) (now : UInt64) :
    HandshakeMessage where
  version := versionId
  messageType := 5
  senderDht := ourDht
  senderPubkey := state.ourPublicKey
  token := state.token
  challenge := none
  signature := none
  timestamp := now
  encryptionMode := none
  maintainConnection := state.maintainConnection

/-- What the tick makes of one session: the session as it is left, whether it is then dropped,
whether the peer was ordinarily unavailable, and what is sent. -/
structure TickResult (Secret : Type) where
  state : HandshakeState Secret
  remove : Bool
  unavailable : Bool
  effects : List Effect

def tickEstablished (ans : Answers Secret) (now : UInt64)
    (ourDht : String) (state : HandshakeState Secret) : TickResult Secret :=
  let timedOut := checkinTimeoutSecs < saturatingSub now state.lastSeen
  if state.maintainConnection ∧ checkinIntervalSecs ≤ saturatingSub now state.lastAttempt then
    -- The attempt counts before the sending, so that a failing DHT is not asked at every tick.
    let effects :=
      match ans.fetchRouteBlob state.peerDht,
          encodeHandshakeMessage (checkinMessage ourDht state now) with
      | .ok blob, .ok bytes => [Effect.appMessage blob bytes]
      | _, _ => []
    ⟨{ state with lastAttempt := now }, timedOut, false, effects⟩
  else ⟨state, timedOut, false, []⟩

/-- A flight is repeated after three, six and twelve seconds. -/
def retryDelay (retries : UInt8) : UInt64 := 3 * ((1 : UInt64) <<< (min retries 4).toUInt64)

def failedState (state : HandshakeState Secret) : HandshakeState Secret :=
  { state with status := .failed }

def tickPending (prim : Primitives Secret) (ans : Answers Secret) (now : UInt64)
    (state : HandshakeState Secret) : TickResult Secret :=
  if state.status = .failed ∨ 120 < saturatingSub now state.startedAt then
    ⟨state, true, false, []⟩
  else
    let elapsed := saturatingSub now state.lastAttempt
    if maxHandshakeRetries ≤ state.retries ∧ 5 ≤ elapsed then
      ⟨failedState state, true, true, []⟩
    else if state.retries < maxHandshakeRetries ∧ retryDelay state.retries ≤ elapsed then
      match state.route with
      | none => ⟨failedState state, true, true, []⟩
      | some route =>
        match ans.importRemotePrivateRoute route, state.outgoingFlight with
        | .error _, _ => ⟨failedState state, true, true, []⟩
        | .ok (), none => ⟨failedState state, true, false, []⟩
        | .ok (), some flight =>
          if prim.sha256 flight.bytes ≠ flight.digest then
            ⟨failedState state, true, false, []⟩
          else
            ⟨{ state with retries := state.retries + 1, lastAttempt := now }, false, false,
              [.appMessage route flight.bytes]⟩
    else ⟨state, false, false, []⟩

def tickSession (prim : Primitives Secret) (ans : Answers Secret) (now : UInt64)
    (ourDht : String) (state : HandshakeState Secret) : TickResult Secret :=
  if state.status = .established then tickEstablished ans now ourDht state
  else tickPending prim ans now state

/-- All sessions at one time, and then what is over is dropped. -/
def tickSessions (prim : Primitives Secret) (ans : Answers Secret) (now : UInt64)
    (p : Process Secret) : Process Secret :=
  let m := p.manager
  let result := tickSession prim ans now m.ourDht
  let toRemove := (m.sessions.entries.filter fun e => (result e.2).remove).map Sigma.fst
  let unavailable := (m.sessions.entries.filter fun e => (result e.2).unavailable).map Sigma.fst
  let visited := { p with
    manager := { m with sessions := m.sessions.mapEntries fun _ state => (result state).state }
    effects := p.effects ++ m.sessions.entries.flatMap fun e => (result e.2).effects }
  unavailable.foldl (fun p peer => submitObservation prim p peer .handshakeUnavailable none)
    (toRemove.foldl Process.removeSession visited)

/-- Forget what is no longer recent. -/
def tickForget (now : UInt64) (m : Manager Secret) : Manager Secret :=
  { m with
    inboundInitAttempts peer :=
      Manager.retainRecent (m.inboundInitAttempts peer) now handshakeInitWindowSecs
    lastExcessiveActivityReport peer :=
      (m.lastExcessiveActivityReport peer).filter
        fun reportedAt => now < saturatingAdd reportedAt handshakeInitWindowSecs
    resetReceipts peer := Manager.retainRecent (m.resetReceipts peer) now handshakeResetWindowSecs
    acceptedResetTokens peer := (m.acceptedResetTokens peer).filter (now < ·.expiresAt)
    resetSends peer := Manager.retainRecent (m.resetSends peer) now handshakeResetWindowSecs
    challengeFailures peer :=
      Manager.retainRecent (m.challengeFailures peer) now challengeFailureWindowSecs
    quarantinedUntil peer := (m.quarantinedUntil peer).filter (now < ·)
    ignoredUntil peer := (m.ignoredUntil peer).filter (now < ·) }

/-- Restart the handshake with a peer if it is due. A failure is only logged. -/
def tickRestart (prim : Primitives Secret) (ans : Answers Secret) (now : UInt64)
    (p : Process Secret) (peer : String) : Process Secret :=
  match p.manager.pendingRestarts peer with
  | none => p
  | some restart =>
    if now < restart.restartAt then p
    else
      let m := { p.manager with
        pendingRestarts := Function.update p.manager.pendingRestarts peer none }
      match m.isPeerIgnored peer now with
      | (true, m) => { p with manager := m }
      | (false, m) =>
        match m.isPeerQuarantined peer now with
        | (true, m) => { p with manager := m }
        | (false, m) =>
          (initiateHandshakeInternal prim ans (ans.restartClock peer) peer
            restart.encryptionMode restart.verification restart.maintainConnection
            { p with manager := m }).2

/-- One tick. The pending restarts are visited in some order of the peers. -/
def tick (prim : Primitives Secret) (ans : Answers Secret) (order : List String)
    (p : Process Secret) : Process Secret :=
  let now := ans.clock 0
  let p := tickSessions prim ans now p
  order.foldl (tickRestart prim ans now) { p with manager := tickForget now p.manager }

end VeilKnit.Handshake
