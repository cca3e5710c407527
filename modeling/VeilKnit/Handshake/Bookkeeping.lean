import VeilKnit.Handshake.Tick
import VeilKnit.Library.LabelledSystem
import VeilKnit.Library.Stamps
import VeilKnit.Library.Text

/-!
# The books of the handshake manager

What the manager remembers of its peers outside of their sessions, as maps with the entries that
are really there: a peer may have an entry without times until the next tick. The handlers change
the books by a few functions, which stand here as the code has them.

A tick sweeps every map of times but that of the gossip that has come in. A peer's entry there is
only looked at when the peer sends again, and the name of the peer is what the sender says it is.
-/

namespace VeilKnit.Handshake

open Library
open StreamTransport (saturatingAdd)

def gossipApplicationProtocolVersion : UInt16 := 1
def gossipApplicationTimeWindowSecs : UInt64 := 10 * 60
def gossipRateWindowSecs : UInt64 := 60
def maxGossipMessagesPerSenderPerMinute : Nat := 120
def maxGossipMessagesGlobalPerMinute : Nat := 600
def maxGossipPayloadBytes : Nat := 32 * 1024

abbrev Times := Stamps String UInt64

/-- The maps of the manager that have peers as their keys, and the times of all gossip. -/
structure Books where
  inboundGossipAttempts : Times
  inboundGossipGlobalAttempts : List UInt64
  inboundInitAttempts : Times
  lastExcessiveActivityReport : AList fun _ : String => UInt64
  resetReceipts : Times
  resetSends : Times
  acceptedResetTokens : AList fun _ : String => AcceptedResetToken
  quarantinedUntil : AList fun _ : String => UInt64
  ignoredUntil : AList fun _ : String => UInt64
  pendingRestarts : AList fun _ : String => PendingHandshakeRestart
  challengeFailures : Times

def Books.new : Books := ⟨∅, [], ∅, ∅, ∅, ∅, ∅, ∅, ∅, ∅, ∅⟩

/-- A time whose window has not passed. -/
def recent (now window time : UInt64) : Bool := now < saturatingAdd time window

structure GossipApplicationEnvelope where
  gossipProtocolVersion : UInt16
  applicationId : String
  messageId : Bytes
  senderDht : String
  sentAt : UInt64
  payload : Bytes

namespace Books

variable {Secret : Type}

/-! ## The functions of the handlers -/

/-- `is_peer_ignored`, in the books. -/
def isPeerIgnored (b : Books) (peer : String) (now : UInt64) : Bool × Books :=
  match b.ignoredUntil.lookup peer with
  | some deadline =>
    if now < deadline then (true, b)
    else (false, { b with ignoredUntil := b.ignoredUntil.erase peer })
  | none => (false, b)

def isPeerQuarantined (b : Books) (peer : String) (now : UInt64) : Bool × Books :=
  match b.quarantinedUntil.lookup peer with
  | some deadline =>
    if now < deadline then (true, b)
    else (false, { b with quarantinedUntil := b.quarantinedUntil.erase peer })
  | none => (false, b)

def scheduleRestartFromState (b : Books) (state : HandshakeState Secret) (now : UInt64) : Books :=
  if ¬ state.isInitiator then b
  else
    { b with
      pendingRestarts := b.pendingRestarts.insert state.peerDht {
        encryptionMode := state.encryptionMode
        verification := state.verification
        maintainConnection := state.maintainConnection
        restartAt := saturatingAdd now handshakeResetRestartSecs } }

/-- `send_protocol_reset` with the session that the peer has. -/
def sendProtocolReset (b : Books) (peer : String) (session : Option (HandshakeState Secret))
    (now : UInt64) : Books :=
  let live := recent now handshakeResetWindowSecs
  let b := { b with resetSends := Stamps.visit live b.resetSends peer }
  if maxHandshakeResetsPerPeer ≤ (Stamps.of b.resetSends peer).length then
    { b with
      ignoredUntil :=
        b.ignoredUntil.insert peer (saturatingAdd now handshakeResetAbuseIgnoreSecs) }
  else
    match session with
    | none => b
    | some state =>
      scheduleRestartFromState
        { b with
          resetSends := b.resetSends.insert peer (Stamps.of b.resetSends peer ++ [now])
          quarantinedUntil :=
            b.quarantinedUntil.insert peer (saturatingAdd now handshakeResetQuarantineSecs) }
        state now

/-- What follows in the books from a reset whose token was recognised. -/
def acceptReset (b : Books) (peer : String) (restart : Option (HandshakeState Secret))
    (now : UInt64) : Books :=
  let b := { b with
    resetReceipts := Stamps.record (recent now handshakeResetWindowSecs) b.resetReceipts peer now }
  if maxHandshakeResetsPerPeer < (Stamps.of b.resetReceipts peer).length then
    { b with
      ignoredUntil :=
        b.ignoredUntil.insert peer (saturatingAdd now handshakeResetAbuseIgnoreSecs)
      pendingRestarts := b.pendingRestarts.erase peer
      acceptedResetTokens := b.acceptedResetTokens.erase peer }
  else
    let b := { b with
      quarantinedUntil :=
        b.quarantinedUntil.insert peer (saturatingAdd now handshakeResetQuarantineSecs) }
    match restart with
    | some state => b.scheduleRestartFromState state now
    | none => b

/-- `handle_protocol_reset` with the session that the peer has. -/
def handleProtocolReset (b : Books) (peer token : String)
    (session : Option (HandshakeState Secret)) (now : UInt64) : Books :=
  match session with
  | some state =>
    if state.token = token then
      acceptReset
        { b with
          acceptedResetTokens := b.acceptedResetTokens.insert peer
            ⟨token, saturatingAdd now handshakeResetWindowSecs⟩ }
        peer (some state) now
    else b
  | none =>
    if (b.acceptedResetTokens.lookup peer).any
        fun accepted => now < accepted.expiresAt && accepted.token == token then
      acceptReset b peer (none : Option (HandshakeState Secret)) now
    else b

def recordWrongChallenge (b : Books) (peer : String) (now : UInt64) : Books :=
  { b with
    challengeFailures :=
      Stamps.record (recent now challengeFailureWindowSecs) b.challengeFailures peer now }

/-- `inbound_init_is_excessive`, without its report to the reputation service. -/
def inboundInitIsExcessive (b : Books) (peer : String) (now : UInt64) : Bool × Books :=
  let b := { b with
    inboundInitAttempts :=
      Stamps.record (recent now handshakeInitWindowSecs) b.inboundInitAttempts peer now }
  if (Stamps.of b.inboundInitAttempts peer).length ≤ maxInboundHandshakeInitsPerWindow then
    (false, b)
  else if (b.lastExcessiveActivityReport.lookup peer).all
      fun last => saturatingAdd last handshakeInitWindowSecs ≤ now then
    (true, { b with
      lastExcessiveActivityReport := b.lastExcessiveActivityReport.insert peer now })
  else (true, b)

/-- The two limits of `process_gossip_application`. -/
def admitGossip (b : Books) (sender : String) (now : UInt64) : Except String Unit × Books :=
  let live := recent now gossipRateWindowSecs
  let global := Stamps.trim live b.inboundGossipGlobalAttempts
  if maxGossipMessagesGlobalPerMinute ≤ global.length then
    (.error "Global gossip receive rate limit exceeded",
      { b with inboundGossipGlobalAttempts := global })
  else
    let b := { b with
      inboundGossipGlobalAttempts := global ++ [now]
      inboundGossipAttempts := Stamps.visit live b.inboundGossipAttempts sender }
    let attempts := Stamps.of b.inboundGossipAttempts sender
    if maxGossipMessagesPerSenderPerMinute ≤ attempts.length then
      (.error "Gossip sender exceeded the local per-minute rate limit", b)
    else
      (.ok (),
        { b with inboundGossipAttempts := b.inboundGossipAttempts.insert sender (attempts ++ [now]) })

/-- `process_gossip_application`. The sender is who the envelope says it is. -/
def processGossipApplication (isRecordKey isBlocked : String → Bool) (ourDht : String)
    (b : Books) (envelope : GossipApplicationEnvelope) (now : UInt64) : Except String Unit × Books :=
  let applicationId := Text.trimToLower envelope.applicationId
  if envelope.gossipProtocolVersion ≠ gossipApplicationProtocolVersion then
    (.error s!"Unsupported gossip application protocol {envelope.gossipProtocolVersion}", b)
  else if applicationId = "" ∨ 256 < applicationId.utf8ByteSize then
    (.error "Invalid gossip application id", b)
  else if maxGossipPayloadBytes < envelope.payload.length then
    (.error "Gossip payload exceeds protocol limit", b)
  else if ¬ isRecordKey envelope.senderDht then (.error "Invalid record key", b)
  else if envelope.senderDht = ourDht then (.ok (), b)
  else if isBlocked envelope.senderDht then (.error "Sender is blocked by reputation policy", b)
  else if saturatingAdd now gossipApplicationTimeWindowSecs < envelope.sentAt ∨
      saturatingAdd envelope.sentAt gossipApplicationTimeWindowSecs < now then
    (.error "Gossip application timestamp is outside the allowed window", b)
  else b.admitGossip envelope.senderDht now

/-! ## The tick -/

/-- What `tick` does with the books before it restarts handshakes. -/
def forget (b : Books) (now : UInt64) : Books :=
  { b with
    inboundInitAttempts := Stamps.sweep (recent now handshakeInitWindowSecs) b.inboundInitAttempts
    lastExcessiveActivityReport :=
      b.lastExcessiveActivityReport.filterEntries fun _ reportedAt =>
        now < saturatingAdd reportedAt handshakeInitWindowSecs
    resetReceipts := Stamps.sweep (recent now handshakeResetWindowSecs) b.resetReceipts
    acceptedResetTokens :=
      b.acceptedResetTokens.filterEntries fun _ accepted => now < accepted.expiresAt
    resetSends := Stamps.sweep (recent now handshakeResetWindowSecs) b.resetSends
    challengeFailures := Stamps.sweep (recent now challengeFailureWindowSecs) b.challengeFailures
    quarantinedUntil := b.quarantinedUntil.filterEntries fun _ deadline => now < deadline
    ignoredUntil := b.ignoredUntil.filterEntries fun _ deadline => now < deadline }

/-- `initiate_handshake_internal`, as far as it concerns the books. -/
def initiateHandshakeInternal (b : Books) (target : String) (now : UInt64) : Books :=
  match b.isPeerIgnored target now with
  | (true, b) => b
  | (false, b) => (b.isPeerQuarantined target now).2

/-- The restart of a handshake with a peer. The handshake itself begins at a later time. -/
def restart (now later : UInt64) (b : Books) (peer : String) : Books :=
  match b.pendingRestarts.lookup peer with
  | none => b
  | some restart =>
    if now < restart.restartAt then b
    else
      match { b with pendingRestarts := b.pendingRestarts.erase peer }.isPeerIgnored peer now with
      | (true, b) => b
      | (false, b) =>
        match b.isPeerQuarantined peer now with
        | (true, b) => b
        | (false, b) => b.initiateHandshakeInternal peer later

/-- The books after a tick that visits the restarts in some order. -/
def tick (b : Books) (now : UInt64) (order : List (String × UInt64)) : Books :=
  order.foldl (fun b visit => b.restart now visit.2 visit.1) (b.forget now)

/-! ## The books of a manager -/

/-- The maps of a manager are those of its books. -/
structure Describes (b : Books) (m : Manager Secret) : Prop where
  inboundInitAttempts (peer : String) :
    m.inboundInitAttempts peer = Stamps.of b.inboundInitAttempts peer
  lastExcessiveActivityReport (peer : String) :
    m.lastExcessiveActivityReport peer = b.lastExcessiveActivityReport.lookup peer
  resetReceipts (peer : String) : m.resetReceipts peer = Stamps.of b.resetReceipts peer
  resetSends (peer : String) : m.resetSends peer = Stamps.of b.resetSends peer
  acceptedResetTokens (peer : String) :
    m.acceptedResetTokens peer = b.acceptedResetTokens.lookup peer
  quarantinedUntil (peer : String) : m.quarantinedUntil peer = b.quarantinedUntil.lookup peer
  ignoredUntil (peer : String) : m.ignoredUntil peer = b.ignoredUntil.lookup peer
  pendingRestarts (peer : String) : m.pendingRestarts peer = b.pendingRestarts.lookup peer
  challengeFailures (peer : String) : m.challengeFailures peer = Stamps.of b.challengeFailures peer

theorem describes_new (ourDht : String) : Describes new (@Manager.new Secret ourDht) := by
  constructor <;> exact fun _ => rfl

theorem retainRecent_eq_trim (values : List UInt64) (now window : UInt64) :
    Manager.retainRecent values now window = Stamps.trim (recent now window) values := by
  unfold Manager.retainRecent Stamps.trim
  congr 1
  funext time
  rw [recent, ← decide_not]
  exact decide_eq_decide.mpr UInt64.not_lt.symm

theorem retainRecent_eq {f : String → List UInt64} {times : Times}
    (hf : ∀ peer, f peer = Stamps.of times peer) (now window : UInt64) (peer : String) :
    Manager.retainRecent (f peer) now window =
      Stamps.trim (recent now window) (Stamps.of times peer) := by
  rw [retainRecent_eq_trim, hf]

theorem submitObservation_manager (prim : Primitives Secret) (p : Process Secret) (peer : String)
    (kind : ObservationKind) (applicationCode : Option Nat) :
    (submitObservation prim p peer kind applicationCode).manager = p.manager := by
  unfold submitObservation
  split <;> rfl

section Describes

variable {b : Books} {m : Manager Secret} (h : b.Describes m)

include h

theorem Describes.isPeerIgnored (peer : String) (now : UInt64) : ∃ ignored b' m',
    b.isPeerIgnored peer now = (ignored, b') ∧ m.isPeerIgnored peer now = (ignored, m') ∧
      b'.Describes m' := by
  unfold Books.isPeerIgnored Manager.isPeerIgnored
  rw [h.ignoredUntil]
  cases b.ignoredUntil.lookup peer with
  | none => exact ⟨_, _, _, rfl, rfl, h⟩
  | some deadline =>
    dsimp only
    split
    · exact ⟨_, _, _, rfl, rfl, h⟩
    · refine ⟨_, _, _, rfl, rfl, ?_⟩
      exact { h with ignoredUntil := AList.update_eq_lookup_erase h.ignoredUntil _ }

theorem Describes.isPeerQuarantined (peer : String) (now : UInt64) : ∃ quarantined b' m',
    b.isPeerQuarantined peer now = (quarantined, b') ∧
      m.isPeerQuarantined peer now = (quarantined, m') ∧ b'.Describes m' := by
  unfold Books.isPeerQuarantined Manager.isPeerQuarantined
  rw [h.quarantinedUntil]
  cases b.quarantinedUntil.lookup peer with
  | none => exact ⟨_, _, _, rfl, rfl, h⟩
  | some deadline =>
    dsimp only
    split
    · exact ⟨_, _, _, rfl, rfl, h⟩
    · refine ⟨_, _, _, rfl, rfl, ?_⟩
      exact { h with quarantinedUntil := AList.update_eq_lookup_erase h.quarantinedUntil _ }

theorem Describes.scheduleRestartFromState (state : HandshakeState Secret) (now : UInt64) :
    (b.scheduleRestartFromState state now).Describes (m.scheduleRestartFromState state now) := by
  unfold Books.scheduleRestartFromState Manager.scheduleRestartFromState
  split
  · exact h
  · exact { h with pendingRestarts := AList.update_eq_lookup_insert h.pendingRestarts _ _ }

/-- The sessions of a manager are not in its books. -/
theorem Describes.withSessions (sessions : Sessions Secret) :
    b.Describes { m with sessions := sessions } :=
  { h with }

theorem Describes.sendProtocolReset (ans : Answers Secret) (peer : String) (now : UInt64)
    (effects : List Effect) :
    (b.sendProtocolReset peer (m.sessions.lookup peer) now).Describes
      (Handshake.sendProtocolReset ans now peer ⟨m, effects⟩).2.manager := by
  unfold Books.sendProtocolReset Handshake.sendProtocolReset
  simp only [retainRecent_eq h.resetSends, Stamps.of_visit, if_true]
  have hvisit := Stamps.update_eq_of_insert h.resetSends peer
    (Stamps.trim (recent now handshakeResetWindowSecs) (Stamps.of b.resetSends peer))
  split
  · exact { h with
      resetSends := hvisit
      ignoredUntil := AList.update_eq_lookup_insert h.ignoredUntil _ _ }
  cases m.sessions.lookup peer with
  | none => exact { h with resetSends := hvisit }
  | some state =>
    have hsent := Stamps.update_eq_of_insert hvisit peer
      (Stamps.trim (recent now handshakeResetWindowSecs) (Stamps.of b.resetSends peer) ++ [now])
    rw [Function.update_idem] at hsent
    dsimp only
    split
    case' h_2 => split
    all_goals
      refine Describes.scheduleRestartFromState ?_ ..
      exact { h with
        resetSends := hsent
        quarantinedUntil := AList.update_eq_lookup_insert h.quarantinedUntil _ _ }

theorem Describes.acceptReset (peer : String) (restart : Option (HandshakeState Secret))
    (now : UInt64) :
    (b.acceptReset peer restart now).Describes (Handshake.acceptReset m peer restart now) := by
  unfold Books.acceptReset Handshake.acceptReset
  simp only [retainRecent_eq h.resetReceipts, Stamps.of_record, if_true]
  have hrecord := Stamps.update_eq_of_insert h.resetReceipts peer
    (Stamps.trim (recent now handshakeResetWindowSecs) (Stamps.of b.resetReceipts peer) ++ [now])
  split
  · exact { h with
      resetReceipts := hrecord
      ignoredUntil := AList.update_eq_lookup_insert h.ignoredUntil _ _
      pendingRestarts := AList.update_eq_lookup_erase h.pendingRestarts _
      acceptedResetTokens := AList.update_eq_lookup_erase h.acceptedResetTokens _ }
  have hquarantined := AList.update_eq_lookup_insert h.quarantinedUntil peer
    (saturatingAdd now handshakeResetQuarantineSecs)
  cases restart with
  | none => exact { h with resetReceipts := hrecord, quarantinedUntil := hquarantined }
  | some state =>
    refine Describes.scheduleRestartFromState ?_ ..
    exact { h with resetReceipts := hrecord, quarantinedUntil := hquarantined }

theorem Describes.handleProtocolReset (now : UInt64) (msg : HandshakeMessage) :
    (b.handleProtocolReset msg.senderDht msg.token (m.sessions.lookup msg.senderDht) now).Describes
      (Handshake.handleProtocolReset now msg m) := by
  unfold Books.handleProtocolReset Handshake.handleProtocolReset
  cases m.sessions.lookup msg.senderDht with
  | none =>
    rw [h.acceptedResetTokens]
    dsimp only
    split
    · exact h.acceptReset ..
    · exact h
  | some state =>
    dsimp only
    split
    · refine Describes.acceptReset ?_ ..
      exact { h with
        acceptedResetTokens := AList.update_eq_lookup_insert h.acceptedResetTokens _ _ }
    · exact h

theorem Describes.recordWrongChallenge (prim : Primitives Secret) (peer : String) (now : UInt64)
    (effects : List Effect) :
    (b.recordWrongChallenge peer now).Describes
      (Handshake.recordWrongChallenge prim now peer ⟨m, effects⟩).manager := by
  unfold Books.recordWrongChallenge Handshake.recordWrongChallenge
  simp only [retainRecent_eq h.challengeFailures]
  have hrecord := Stamps.update_eq_of_insert h.challengeFailures peer
    (Stamps.trim (recent now challengeFailureWindowSecs) (Stamps.of b.challengeFailures peer) ++
      [now])
  split
  case' isFalse => split
  all_goals
    try rw [submitObservation_manager]
    exact { h with challengeFailures := hrecord }

theorem Describes.inboundInitIsExcessive (prim : Primitives Secret) (peer : String)
    (now : UInt64) (effects : List Effect) :
    (b.inboundInitIsExcessive peer now).1 =
        (Handshake.inboundInitIsExcessive prim peer now ⟨m, effects⟩).1 ∧
      (b.inboundInitIsExcessive peer now).2.Describes
        (Handshake.inboundInitIsExcessive prim peer now ⟨m, effects⟩).2.manager := by
  unfold Books.inboundInitIsExcessive Handshake.inboundInitIsExcessive
  simp only [retainRecent_eq h.inboundInitAttempts, Stamps.of_record, if_true,
    h.lastExcessiveActivityReport]
  have hrecord := Stamps.update_eq_of_insert h.inboundInitAttempts peer
    (Stamps.trim (recent now handshakeInitWindowSecs) (Stamps.of b.inboundInitAttempts peer) ++
      [now])
  split
  · exact ⟨rfl, { h with inboundInitAttempts := hrecord }⟩
  split
  · rw [submitObservation_manager]
    exact ⟨rfl, { h with
      inboundInitAttempts := hrecord
      lastExcessiveActivityReport :=
        AList.update_eq_lookup_insert h.lastExcessiveActivityReport peer now }⟩
  · exact ⟨rfl, { h with inboundInitAttempts := hrecord }⟩

theorem Describes.forget (now : UInt64) : (b.forget now).Describes (tickForget now m) where
  inboundInitAttempts _ := (retainRecent_eq h.inboundInitAttempts ..).trans Stamps.of_sweep.symm
  lastExcessiveActivityReport :=
    AList.filter_eq_lookup_filterEntries h.lastExcessiveActivityReport _
  resetReceipts _ := (retainRecent_eq h.resetReceipts ..).trans Stamps.of_sweep.symm
  resetSends _ := (retainRecent_eq h.resetSends ..).trans Stamps.of_sweep.symm
  acceptedResetTokens := AList.filter_eq_lookup_filterEntries h.acceptedResetTokens _
  quarantinedUntil := AList.filter_eq_lookup_filterEntries h.quarantinedUntil _
  ignoredUntil := AList.filter_eq_lookup_filterEntries h.ignoredUntil _
  pendingRestarts := h.pendingRestarts
  challengeFailures _ := (retainRecent_eq h.challengeFailures ..).trans Stamps.of_sweep.symm

theorem Describes.reservePendingSlot (isInitiator : Bool) (now : UInt64) :
    b.Describes (m.reservePendingSlot isInitiator now).2 := by
  unfold Manager.reservePendingSlot
  dsimp only
  generalize (m.sessions.entries.filter _).map Sigma.fst = stale
  induction stale generalizing m with
  | nil => exact h
  | cons peer stale ih => exact ih (h.withSessions _)

section

variable (prim : Primitives Secret)

section

variable (ans : Answers Secret)

theorem Describes.sendInit (now : UInt64)
    (target : String) (mode : EncryptionMode) (verification maintainConnection : Bool)
    (effects : List Effect) :
    b.Describes
      (sendInit prim ans now target mode verification maintainConnection ⟨m, effects⟩).2.manager := by
  unfold Handshake.sendInit
  cases ans.fetchRouteBlob target with
  | error e => exact h
  | ok blob =>
    dsimp only
    split
    · exact h
    · split
      · exact h
      · exact h.withSessions _

/-- A handshake that begins looks at what is kept about the peer and goes on with sessions. -/
theorem Describes.initiateHandshakeInternal (now : UInt64) (target : String) (mode : EncryptionMode)
    (verification maintainConnection : Bool) (effects : List Effect) :
    (b.initiateHandshakeInternal target now).Describes
      (Handshake.initiateHandshakeInternal prim ans now target mode verification
        maintainConnection ⟨m, effects⟩).2.manager := by
  unfold Books.initiateHandshakeInternal Handshake.initiateHandshakeInternal
  obtain ⟨ignored, b₁, m₁, hb, hm, hignored⟩ := h.isPeerIgnored target now
  rw [hb, hm]
  cases ignored with
  | true => exact hignored
  | false =>
    obtain ⟨quarantined, b₂, m₂, hb, hm, hquarantined⟩ := hignored.isPeerQuarantined target now
    dsimp only
    rw [hb, hm]
    cases quarantined with
    | true => exact hquarantined
    | false =>
      have hslot := hquarantined.reservePendingSlot true now
      dsimp only
      generalize m₂.reservePendingSlot true now = slot at hslot
      obtain ⟨free, m₃⟩ := slot
      split
      · exact hquarantined.withSessions _
      split
      · exact hquarantined
      split
      · exact hquarantined
      cases free with
      | false => exact hslot
      | true => exact Describes.sendInit hslot ..

theorem Describes.tickRestart (now : UInt64) (peer : String) (effects : List Effect) :
    (b.restart now (ans.restartClock peer) peer).Describes
      (tickRestart prim ans now ⟨m, effects⟩ peer).manager := by
  unfold Books.restart Handshake.tickRestart
  rw [h.pendingRestarts]
  cases b.pendingRestarts.lookup peer with
  | none => exact h
  | some restart =>
    dsimp only
    split
    · exact h
    have herased : Describes { b with pendingRestarts := b.pendingRestarts.erase peer }
        { m with pendingRestarts := Function.update m.pendingRestarts peer none } :=
      { h with pendingRestarts := AList.update_eq_lookup_erase h.pendingRestarts _ }
    obtain ⟨ignored, b₁, m₁, hb, hm, hignored⟩ := herased.isPeerIgnored peer now
    rw [hb, hm]
    cases ignored with
    | true => exact hignored
    | false =>
      obtain ⟨quarantined, b₂, m₂, hb, hm, hquarantined⟩ := hignored.isPeerQuarantined peer now
      dsimp only
      rw [hb, hm]
      cases quarantined with
      | true => exact hquarantined
      | false => exact Describes.initiateHandshakeInternal hquarantined ..

theorem Describes.tickSessions (now : UInt64)
    (effects : List Effect) : b.Describes (tickSessions prim ans now ⟨m, effects⟩).manager := by
  have hreports : ∀ (unavailable : List String) (p : Process Secret),
      (unavailable.foldl
        (fun p peer => submitObservation prim p peer .handshakeUnavailable none) p).manager =
        p.manager := by
    intro unavailable
    induction unavailable with
    | nil => exact fun _ => rfl
    | cons peer rest ih => exact fun p => (ih _).trans (submitObservation_manager ..)
  have hremovals : ∀ (toRemove : List String) (p : Process Secret), b.Describes p.manager →
      b.Describes (toRemove.foldl Process.removeSession p).manager := by
    intro toRemove
    induction toRemove with
    | nil => exact fun _ hp => hp
    | cons peer rest ih => exact fun p hp => ih _ (Describes.withSessions hp _)
  unfold Handshake.tickSessions
  rw [hreports]
  exact hremovals _ _ (h.withSessions _)

/-- A tick of the manager is a tick of its books. -/
theorem Describes.tick (order : List String) (effects : List Effect) :
    (b.tick (ans.clock 0) (order.map fun peer => (peer, ans.restartClock peer))).Describes
      (Handshake.tick prim ans order ⟨m, effects⟩).manager := by
  have hrestarts : ∀ (order : List String) (b : Books) (p : Process Secret), b.Describes p.manager →
      ((order.map fun peer => (peer, ans.restartClock peer)).foldl
        (fun b visit => b.restart (ans.clock 0) visit.2 visit.1) b).Describes
        (order.foldl (Handshake.tickRestart prim ans (ans.clock 0)) p).manager := by
    intro order
    induction order with
    | nil => exact fun _ _ hp => hp
    | cons peer rest ih =>
      exact fun b p hp => ih _ _ (Describes.tickRestart hp prim ans (ans.clock 0) peer p.effects)
  exact hrestarts order _ _ (Describes.forget (h.tickSessions prim ans _ effects) _)

end

end

end Describes

end Books

end VeilKnit.Handshake
