import VeilKnit.Handshake.Manager

/-!
# Handling a message

A message that passed validation goes through the checks that concern its sender, then
through the comparison with flights received before, then to the handler of its type. A
handler that fails ends the session: the generic answer to every mismatch is a reset.

Every handler runs on the manager and appends to the effects of the step.
-/

namespace VeilKnit.Handshake

open Library
open StreamTransport (saturatingAdd saturatingSub)

variable {Secret : Type}

namespace Process

def putSession (p : Process Secret) (peer : String) (state : HandshakeState Secret) :
    Process Secret :=
  { p with manager := p.manager.putSession peer state }

def removeSession (p : Process Secret) (peer : String) : Process Secret :=
  { p with manager := p.manager.removeSession peer }

def ask (p : Process Secret) (effect : Effect) : Process Secret :=
  { p with effects := p.effects ++ [effect] }

def session (p : Process Secret) (peer : String) : Option (HandshakeState Secret) :=
  p.manager.sessions.lookup peer

end Process

def sendRawPrivateRouteMessage (ans : Answers Secret) (route bytes : Bytes) :
    Handler Secret Unit :=
  fun p => (ans.appMessage route bytes, p.ask (.appMessage route bytes))

/-! ## Resets -/

def resetMessage (ourDht token : String) (now : UInt64) : HandshakeMessage where
  version := versionId
  messageType := handshakeResetMessageType
  senderDht := ourDht
  senderPubkey := []
  token := token
  challenge := none
  signature := none
  timestamp := now
  encryptionMode := none
  maintainConnection := false

/-- Drop the session with a peer and tell the peer so, without a reason. -/
def sendProtocolReset (ans : Answers Secret) (now : UInt64)
    (peer : String) : Handler Secret Unit := fun p =>
  let m := p.manager
  let sends := Manager.retainRecent (m.resetSends peer) now handshakeResetWindowSecs
  if maxHandshakeResetsPerPeer ≤ sends.length then
    (.ok (), { p with
      manager := { m with
        resetSends := Function.update m.resetSends peer sends
        ignoredUntil := Function.update m.ignoredUntil peer
          (some (saturatingAdd now handshakeResetAbuseIgnoreSecs))
        sessions := m.sessions.erase peer } })
  else
    match m.sessions.lookup peer with
    | none =>
      (.ok (), { p with
        manager := { m with resetSends := Function.update m.resetSends peer sends } })
    | some state =>
      -- The attempt counts before the send, which may fail.
      let discarded : Manager Secret := { m with
        resetSends := Function.update m.resetSends peer (sends ++ [now])
        quarantinedUntil := Function.update m.quarantinedUntil peer
          (some (saturatingAdd now handshakeResetQuarantineSecs))
        sessions := m.sessions.erase peer }
      let p := { p with manager := discarded.scheduleRestartFromState state now }
      match state.route with
      | none => (.ok (), p)
      | some route =>
        match encodeHandshakeMessage (resetMessage m.ourDht state.token now) with
        | .error e => (.error e, p)
        | .ok bytes => sendRawPrivateRouteMessage ans route bytes p

/-- What follows from a reset whose token was recognised. -/
def acceptReset (m : Manager Secret) (peer : String) (restart : Option (HandshakeState Secret))
    (now : UInt64) : Manager Secret :=
  let receipts := Manager.retainRecent (m.resetReceipts peer) now handshakeResetWindowSecs ++ [now]
  let m := { m with resetReceipts := Function.update m.resetReceipts peer receipts }
  if maxHandshakeResetsPerPeer < receipts.length then
    { m with
      ignoredUntil := Function.update m.ignoredUntil peer
        (some (saturatingAdd now handshakeResetAbuseIgnoreSecs))
      pendingRestarts := Function.update m.pendingRestarts peer none
      acceptedResetTokens := Function.update m.acceptedResetTokens peer none }
  else
    let m := { m with
      quarantinedUntil := Function.update m.quarantinedUntil peer
        (some (saturatingAdd now handshakeResetQuarantineSecs)) }
    match restart with
    | some state => m.scheduleRestartFromState state now
    | none => m

/-- The token of the session is what tells a reset from a forged one. Repeated copies of it
are recognised for a while after the session is gone. -/
def handleProtocolReset (now : UInt64) (msg : HandshakeMessage) (m : Manager Secret) :
    Manager Secret :=
  match m.sessions.lookup msg.senderDht with
  | some state =>
    if state.token = msg.token then
      acceptReset
        { m with
          sessions := m.sessions.erase msg.senderDht
          acceptedResetTokens := Function.update m.acceptedResetTokens msg.senderDht
            (some ⟨msg.token, saturatingAdd now handshakeResetWindowSecs⟩) }
        msg.senderDht (some state) now
    else m
  | none =>
    if (m.acceptedResetTokens msg.senderDht).any
        fun accepted => now < accepted.expiresAt && accepted.token == msg.token then
      acceptReset m msg.senderDht none now
    else m

/-! ## Repeated flights -/

/-- Compare a flight with the one of its type received before. Returns whether the message
is dealt with. -/
def handleDuplicateOrConflictingFlight (prim : Primitives Secret) (ans : Answers Secret)
    (msg : HandshakeMessage) (rawBytes : Bytes) : Handler Secret Bool := fun p =>
  if msg.messageType ∉ [1, 2, 3] then (.ok false, p)
  else
    match p.session msg.senderDht with
    | none => (.ok false, p)
    | some state =>
      match state.receivedFlights msg.messageType with
      | none =>
        (.ok false, p.putSession msg.senderDht { state with
          receivedFlights := Function.update state.receivedFlights msg.messageType
            (some (prim.sha256 rawBytes)) })
      | some previous =>
        if previous = prim.sha256 rawBytes then
          match state.cachedReplies msg.messageType, state.route with
          | some cached, some route =>
            if cached.replayCount < maxDuplicateReplyReplays then
              (do
                sendRawPrivateRouteMessage ans route cached.flight.bytes
                pure true) <|
                p.putSession msg.senderDht { state with
                  cachedReplies := Function.update state.cachedReplies msg.messageType
                    (some { cached with replayCount := cached.replayCount + 1 }) }
            else (.ok true, p)
          -- A repeated final flight has no answer and does no harm.
          | _, _ => (.ok true, p)
        else
          (do
            sendProtocolReset ans (ans.clock 5) msg.senderDht
            pure true) p

/-! ## Misbehaviour -/

def submitObservation (prim : Primitives Secret) (p : Process Secret) (peer : String)
    (kind : ObservationKind) (applicationCode : Option Nat) : Process Secret :=
  if prim.isRecordKey peer then p.ask (.submitObservation peer kind applicationCode) else p

def recordWrongChallenge (prim : Primitives Secret) (now : UInt64) (peer : String)
    (p : Process Secret) : Process Secret :=
  let m := p.manager
  let failures :=
    Manager.retainRecent (m.challengeFailures peer) now challengeFailureWindowSecs ++ [now]
  let p := { p with
    manager := { m with
      challengeFailures := Function.update m.challengeFailures peer failures } }
  if failures.length = challengeReputationThreshold then
    submitObservation prim p peer .invalidSignature (some failures.length)
  else if failures.length = challengeBanSuggestionThreshold then
    submitObservation prim p peer .deliberateStateCorruption (some failures.length)
  else p

/-- Count an inbound type 1 and say whether the peer sends too many. -/
def inboundInitIsExcessive (prim : Primitives Secret) (peer : String) (now : UInt64)
    (p : Process Secret) : Bool × Process Secret :=
  let m := p.manager
  let attempts :=
    Manager.retainRecent (m.inboundInitAttempts peer) now handshakeInitWindowSecs ++ [now]
  let p := { p with
    manager := { m with
      inboundInitAttempts := Function.update m.inboundInitAttempts peer attempts } }
  if attempts.length ≤ maxInboundHandshakeInitsPerWindow then (false, p)
  else if (m.lastExcessiveActivityReport peer).all
      fun last => saturatingAdd last handshakeInitWindowSecs ≤ now then
    let reported := { p with
      manager := { p.manager with
        lastExcessiveActivityReport :=
          Function.update m.lastExcessiveActivityReport peer (some now) } }
    (true, submitObservation prim reported peer .excessiveActivity (some attempts.length))
  else (true, p)

/-! ## Type 1 -/

def welcomeReply (ourDht : String) (ourPublic : Bytes) (token : String)
    (ourChallenge response : Bytes) (now : UInt64) (encryptionMode : EncryptionMode)
    (maintainConnection : Bool) : HandshakeMessage where
  version := versionId
  messageType := 2
  senderDht := ourDht
  senderPubkey := ourPublic
  token := token
  challenge := some ourChallenge
  signature := some response
  timestamp := now
  encryptionMode := some encryptionMode
  maintainConnection := maintainConnection

/-- The shared secret and the challenge of a type 1 that can be answered. -/
def acceptInit (prim : Primitives Secret) (ourPrivate : Secret) (msg : HandshakeMessage) :
    Except String (Bytes × Bytes) :=
  if msg.senderPubkey.length ≠ 32 then .error "Invalid responder public-key length"
  else if isAllZero msg.senderPubkey then .error "Rejected all-zero X25519 public key"
  else
    let shared := prim.diffieHellman ourPrivate msg.senderPubkey
    if isAllZero shared then .error "Rejected all-zero X25519 shared secret"
    else
      match msg.challenge with
      | none => .error "Type-1 handshake message is missing its challenge"
      | some theirChallenge => .ok (shared, theirChallenge)

/-- The session of a responder that has sent its type 2. -/
def welcomedState (prim : Primitives Secret) (msg : HandshakeMessage) (ourPrivate : Secret)
    (ourChallenge theirChallenge shared blob replyBytes incomingDigest : Bytes) (now : UInt64) :
    HandshakeState Secret where
  peerDht := msg.senderDht
  isInitiator := false
  peerPublicKey := some msg.senderPubkey
  ourPrivateKey := none
  ourPublicKey := prim.publicKey ourPrivate
  route := some blob
  status := .challengeReceived
  startedAt := now
  lastAttempt := now
  lastSeen := now
  retries := 0
  token := msg.token
  ourChallenge := some ourChallenge
  theirChallenge := some theirChallenge
  sessionKey := some shared
  encryptionMode := msg.encryptionMode.getD .none
  maintainConnection := msg.maintainConnection
  verification := false
  outgoingFlight := some (.new prim 2 replyBytes)
  receivedFlights := Function.update (fun _ => none) 1 (some incomingDigest)
  cachedReplies := Function.update (fun _ => none) 1 (some ⟨.new prim 2 replyBytes, 0⟩)

/-- The type 2 that answers a type 1. -/
def welcomeAnswer (prim : Primitives Secret) (ans : Answers Secret) (ourDht : String)
    (msg : HandshakeMessage) (shared theirChallenge : Bytes) : HandshakeMessage :=
  welcomeReply ourDht (prim.publicKey (ans.ephemeralSecret msg.senderDht)) msg.token
    (ans.randomChallenge msg.senderDht)
    (createResponse prim shared msg.senderDht ourDht theirChallenge) (ans.clock 1)
    (msg.encryptionMode.getD .none) msg.maintainConnection

def handleWelcome (prim : Primitives Secret) (ans : Answers Secret) (msg : HandshakeMessage)
    (incomingDigest : Bytes) : Handler Secret Unit := fun p =>
  let peer := msg.senderDht
  let ourPrivate := ans.ephemeralSecret peer
  match acceptInit prim ourPrivate msg with
  | .error e => (.error e, p)
  | .ok (shared, theirChallenge) =>
    match ans.fetchRouteBlob peer with
    | .error e => (.error e, p)
    | .ok blob =>
      let reply := welcomeAnswer prim ans p.manager.ourDht msg shared theirChallenge
      match encodeHandshakeMessage reply with
      | .error e => (.error e, p)
      | .ok replyBytes =>
        match ans.appMessage blob replyBytes with
        | .error e => (.error e, p.ask (.appMessage blob replyBytes))
        | .ok () =>
          (.ok (), (p.ask (.appMessage blob replyBytes)).putSession peer
            (welcomedState prim msg ourPrivate (ans.randomChallenge peer) theirChallenge
              shared blob replyBytes incomingDigest (ans.clock 1)))

/-! ## Type 2 -/

/-- What an initiator needs of its session and of a type 2 to check the answer. -/
structure WelcomeReplyParts (Secret : Type) where
  ourChallenge : Bytes
  signature : Bytes
  theirChallenge : Bytes
  ourPrivate : Secret

def checkWelcomeReply (state : HandshakeState Secret) (msg : HandshakeMessage) :
    Except String (WelcomeReplyParts Secret) :=
  if ¬ state.isInitiator ∨ state.status ≠ .initSent then
    .error "Unexpected type-2 message for current handshake state"
  else if state.token ≠ msg.token then .error "Token mismatch"
  else if msg.encryptionMode.any (· ≠ state.encryptionMode) then
    .error <| "Encryption mode mismatch: proposed " ++ state.encryptionMode.name ++
      ", peer echoed " ++ (msg.encryptionMode.getD .none).name
  else if msg.senderPubkey.length ≠ 32 then .error "Invalid responder public-key length"
  else if isAllZero msg.senderPubkey then .error "Rejected all-zero X25519 public key"
  else
    match state.ourChallenge, msg.signature, msg.challenge, state.ourPrivateKey with
    | none, _, _, _ => .error "Missing local handshake challenge"
    | some _, none, _, _ => .error "Welcome reply is missing its signature"
    | some _, some _, none, _ => .error "Welcome reply is missing its challenge"
    | some _, some _, some _, none => .error "Missing private key"
    | some ourChallenge, some signature, some theirChallenge, some ourPrivate =>
      .ok { ourChallenge, signature, theirChallenge, ourPrivate }

def finalMessage (ourDht : String) (ourPublicKey : Bytes) (token : String) (response : Bytes)
    (now : UInt64) (maintainConnection : Bool) : HandshakeMessage where
  version := versionId
  messageType := 3
  senderDht := ourDht
  senderPubkey := ourPublicKey
  token := token
  challenge := none
  signature := some response
  timestamp := now
  encryptionMode := none
  maintainConnection := maintainConnection

/-- The type 3 that answers a type 2. -/
def finalAnswer (prim : Primitives Secret) (ans : Answers Secret) (ourDht : String)
    (state : HandshakeState Secret) (msg : HandshakeMessage)
    (parts : WelcomeReplyParts Secret) : HandshakeMessage :=
  let shared := prim.diffieHellman parts.ourPrivate msg.senderPubkey
  finalMessage ourDht state.ourPublicKey msg.token
    (createResponse prim shared ourDht msg.senderDht parts.theirChallenge) (ans.clock 1)
    state.maintainConnection

/-- The session of an initiator that has sent its type 3. -/
def repliedState (prim : Primitives Secret) (state : HandshakeState Secret)
    (msg : HandshakeMessage) (shared replyBytes : Bytes) (now : UInt64) :
    HandshakeState Secret :=
  { state with
    ourPrivateKey := none
    cachedReplies := Function.update state.cachedReplies 2 (some ⟨.new prim 3 replyBytes, 0⟩)
    outgoingFlight := none
    status := .established
    sessionKey := some shared
    peerPublicKey := some msg.senderPubkey
    lastAttempt := now
    lastSeen := now }

def handleWelcomeReply (prim : Primitives Secret) (ans : Answers Secret)
    (msg : HandshakeMessage) : Handler Secret Unit := fun p =>
  let peer := msg.senderDht
  match p.session peer with
  | none => (.error "No session", p)
  | some state =>
    match checkWelcomeReply state msg with
    | .error e => (.error e, p)
    | .ok parts =>
      let shared := prim.diffieHellman parts.ourPrivate msg.senderPubkey
      -- The private key is gone from here on, whatever comes of the answer.
      let spent := { state with ourPrivateKey := none }
      let failed := p.putSession peer { spent with status := .failed }
      let ourDht := p.manager.ourDht
      if isAllZero shared then (.error "Rejected all-zero X25519 shared secret", failed)
      else if parts.signature ≠ createResponse prim shared ourDht peer parts.ourChallenge then
        (.error "Invalid challenge response", failed)
      else
        match state.route with
        | none =>
          (.error "Missing route for final handshake response", p.putSession peer spent)
        | some route =>
          match encodeHandshakeMessage (finalAnswer prim ans ourDht state msg parts) with
          | .error e => (.error e, p.putSession peer spent)
          | .ok replyBytes =>
            match ans.appMessage route replyBytes with
            | .error e => (.error e, failed.ask (.appMessage route replyBytes))
            | .ok () =>
              (.ok (), (p.ask (.appMessage route replyBytes)).putSession peer
                (repliedState prim state msg shared replyBytes (ans.clock 1))
                  |>.ask (.establishedPeer peer))

/-! ## Type 3 -/

def checkFinal (prim : Primitives Secret) (ourDht : String) (state : HandshakeState Secret)
    (msg : HandshakeMessage) : Except String Unit :=
  if state.isInitiator ∨ state.status ≠ .challengeReceived then
    .error "Unexpected type-3 message for current handshake state"
  else if state.token ≠ msg.token then .error "Token mismatch"
  else
    match state.sessionKey, state.ourChallenge, msg.signature with
    | none, _, _ => .error "Missing session key"
    | some _, none, _ => .error "Missing local handshake challenge"
    | some _, some _, none => .error "Final handshake message is missing its signature"
    | some shared, some ourChallenge, some signature =>
      if signature ≠ createResponse prim shared msg.senderDht ourDht ourChallenge then
        .error "Final verification failed"
      else .ok ()

def finishedState (ans : Answers Secret) (state : HandshakeState Secret)
    (msg : HandshakeMessage) : HandshakeState Secret :=
  { state with
    status := .established
    outgoingFlight := none
    maintainConnection := state.maintainConnection || msg.maintainConnection
    lastAttempt := ans.clock 1
    lastSeen := ans.clock 2 }

def handleFinal (prim : Primitives Secret) (ans : Answers Secret) (msg : HandshakeMessage) :
    Handler Secret Unit := fun p =>
  let peer := msg.senderDht
  match p.session peer with
  | none => (.error "No session", p)
  | some state =>
    match checkFinal prim p.manager.ourDht state msg with
    | .error e => (.error e, p)
    | .ok () =>
      (.ok (), (p.putSession peer (finishedState ans state msg)).ask (.establishedPeer peer))

/-! ## Type 5 -/

def handleCheckin (ans : Answers Secret) (msg : HandshakeMessage) : Handler Secret Unit := fun p =>
  match p.session msg.senderDht with
  | none => (.ok (), p)
  | some state =>
    if state.status ≠ .established then (.ok (), p)
    else if state.token ≠ msg.token then (.error "Check-in token mismatch", p)
    else
      let now := ans.clock 1
      if msg.timestamp > saturatingAdd now timeWindow then
        (.error "Check-in timestamp from future", p)
      else if saturatingAdd msg.timestamp timeWindow < now then
        (.error "Check-in timestamp too old", p)
      else (.ok (), p.putSession msg.senderDht { state with lastSeen := now })

/-! ## All types -/

/-- A type 1 is handled only where the limits leave room for it. -/
def handleInit (prim : Primitives Secret) (ans : Answers Secret) (msg : HandshakeMessage)
    (rawBytes : Bytes) : Handler Secret Unit := fun p =>
  let peer := msg.senderDht
  let now := ans.clock 0
  match inboundInitIsExcessive prim peer now p with
  | (true, p) => (.ok (), p)
  | (false, p) =>
    if maxEstablishedHandshakes ≤ p.manager.establishedCount then (.ok (), p)
    else if maxTotalSessions ≤ p.manager.totalCount then (.ok (), p)
    else if (p.session peer).isSome then
      handleWelcome prim ans msg (prim.sha256 rawBytes) p
    else
      match p.manager.reservePendingSlot false now with
      | (false, m) => (.ok (), { p with manager := m })
      | (true, m) => handleWelcome prim ans msg (prim.sha256 rawBytes) { p with manager := m }

def handleByType (prim : Primitives Secret) (ans : Answers Secret) (msg : HandshakeMessage)
    (rawBytes : Bytes) : Handler Secret Unit :=
  if msg.messageType = 1 then handleInit prim ans msg rawBytes
  else if msg.messageType = 2 then handleWelcomeReply prim ans msg
  else if msg.messageType = 3 then handleFinal prim ans msg
  else if msg.messageType = 5 then handleCheckin ans msg
  else pure ()

def mentions (text needle : String) : Bool :=
  text.toList.tails.any needle.toList.isPrefixOf

/-- Every failure of a handler is answered by a reset, of which the result is only logged. -/
def recoverWithReset (prim : Primitives Secret) (ans : Answers Secret) (peer : String)
    (x : Handler Secret Unit) : Handler Secret Unit := fun p =>
  match x p with
  | (.ok (), p) => (.ok (), p)
  | (.error e, p) =>
    let p :=
      if mentions e "challenge response" ∨ mentions e "Final verification" then
        recordWrongChallenge prim (ans.clock 4) peer p
      else p
    (.ok (), (sendProtocolReset ans (ans.clock 5) peer p).2)

/-- A quick session gives way to a maintained one. -/
def givesWay (msg : HandshakeMessage) (existing : HandshakeState Secret) : Bool :=
  existing.status == .established && msg.maintainConnection && !existing.maintainConnection

def upgradeQuickSession (msg : HandshakeMessage) (p : Process Secret) : Process Secret :=
  if msg.messageType = 1 ∧ (p.session msg.senderDht).any (givesWay msg) then
    p.removeSession msg.senderDht
  else p

def processUnlessDuplicate (prim : Primitives Secret) (ans : Answers Secret)
    (msg : HandshakeMessage) (rawBytes : Bytes) : Handler Secret Unit := do
  let done ← handleDuplicateOrConflictingFlight prim ans msg rawBytes
  if done then pure ()
  else recoverWithReset prim ans msg.senderDht (handleByType prim ans msg rawBytes)

def processValidatedMessage (prim : Primitives Secret) (ans : Answers Secret) (senderDht : String)
    (msg : HandshakeMessage) (rawBytes : Bytes) : Handler Secret Unit := fun p =>
  let peer := msg.senderDht
  let now := ans.clock 0
  if senderDht ≠ "" ∧ senderDht ≠ peer then (.ok (), p)
  else if peer = p.manager.ourDht then (.ok (), p)
  else if ans.isReputationBlocked peer then (.ok (), p.removeSession peer)
  else
    match p.manager.isPeerIgnored peer now with
    | (true, m) => (.ok (), { p with manager := m })
    | (false, m) =>
      if msg.messageType = handshakeResetMessageType then
        (.ok (), { p with manager := handleProtocolReset (ans.clock 1) msg m })
      else
        match m.isPeerQuarantined peer now with
        | (true, m) => (.ok (), { p with manager := m })
        | (false, m) =>
          processUnlessDuplicate prim ans msg rawBytes
            (upgradeQuickSession msg { p with manager := m })

end VeilKnit.Handshake
