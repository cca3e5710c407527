import VeilKnit.Handshake.Application

/-!
# What a step can do

Every step of the manager is a sequence of a few elementary moves: bookkeeping that leaves
the sessions alone, the dropping or touching up of sessions, a send, and the four moves that
bring a session forward. What holds initially and survives every move holds after every step.
-/

namespace VeilKnit.Handshake

open Library
open StreamTransport (saturatingAdd saturatingSub)

variable {Secret : Type}

/-! ## Lookups -/

namespace Process

@[simp]
theorem session_putSession (p : Process Secret) (peer peer' : String)
    (state : HandshakeState Secret) :
    (p.putSession peer state).session peer' =
      if peer' = peer then some state else p.session peer' := by
  by_cases h : peer' = peer
  · subst h
    simp [session, putSession, Manager.putSession]
  · simp [session, putSession, Manager.putSession, h]

@[simp]
theorem session_removeSession (p : Process Secret) (peer peer' : String) :
    (p.removeSession peer).session peer' = if peer' = peer then none else p.session peer' := by
  by_cases h : peer' = peer
  · subst h
    simp [session, removeSession, Manager.removeSession]
  · simp [session, removeSession, Manager.removeSession, h]

@[simp]
theorem session_ask (p : Process Secret) (effect : Effect) (peer : String) :
    (p.ask effect).session peer = p.session peer :=
  rfl

@[simp]
theorem effects_putSession (p : Process Secret) (peer : String) (state : HandshakeState Secret) :
    (p.putSession peer state).effects = p.effects :=
  rfl

@[simp]
theorem effects_removeSession (p : Process Secret) (peer : String) :
    (p.removeSession peer).effects = p.effects :=
  rfl

@[simp]
theorem effects_ask (p : Process Secret) (effect : Effect) :
    (p.ask effect).effects = p.effects ++ [effect] :=
  rfl

@[simp]
theorem ourDht_putSession (p : Process Secret) (peer : String) (state : HandshakeState Secret) :
    (p.putSession peer state).manager.ourDht = p.manager.ourDht :=
  rfl

@[simp]
theorem ourDht_removeSession (p : Process Secret) (peer : String) :
    (p.removeSession peer).manager.ourDht = p.manager.ourDht :=
  rfl

@[simp]
theorem ourDht_ask (p : Process Secret) (effect : Effect) :
    (p.ask effect).manager.ourDht = p.manager.ourDht :=
  rfl

end Process

/-! ## Moves -/

/-- A session after changes that say nothing about keys. -/
structure Touched (s t : HandshakeState Secret) : Prop where
  peerDht : t.peerDht = s.peerDht
  isInitiator : t.isInitiator = s.isInitiator
  token : t.token = s.token
  ourChallenge : t.ourChallenge = s.ourChallenge
  sessionKey : t.sessionKey = s.sessionKey
  encryptionMode : t.encryptionMode = s.encryptionMode
  route : t.route = s.route
  outgoingFlight : t.outgoingFlight = s.outgoingFlight
  ourPrivateKey : t.ourPrivateKey = s.ourPrivateKey ∨ t.ourPrivateKey = none
  status : t.status = s.status ∨ s.status ≠ .established ∧ t.status = .failed
  cachedReplies : ∀ type reply, t.cachedReplies type = some reply →
    ∃ before, s.cachedReplies type = some before ∧ reply.flight = before.flight

theorem Touched.refl (s : HandshakeState Secret) : Touched s s where
  peerDht := rfl
  isInitiator := rfl
  token := rfl
  ourChallenge := rfl
  sessionKey := rfl
  encryptionMode := rfl
  route := rfl
  outgoingFlight := rfl
  ourPrivateKey := .inl rfl
  status := .inl rfl
  cachedReplies _ reply h := ⟨reply, h, rfl⟩

/-- The sessions of a process are among those before, but for records of received flights. -/
structure Narrowed (start p : Process Secret) : Prop where
  ourDht : p.manager.ourDht = start.manager.ourDht
  session : ∀ peer s, p.session peer = some s →
    ∃ s₀, start.session peer = some s₀ ∧ s = { s₀ with receivedFlights := s.receivedFlights }

/-- No session was dropped. -/
def Whole (start p : Process Secret) : Prop :=
  ∀ peer s₀, start.session peer = some s₀ → ∃ s, p.session peer = some s ∧ s.status = s₀.status

/-- An initiator's session accepts a type 2. -/
structure AcceptsReply (prim : Primitives Secret) (ourDht : String) (s : HandshakeState Secret)
    (msg : HandshakeMessage) (parts : WelcomeReplyParts Secret) : Prop where
  checked : checkWelcomeReply s msg = .ok parts
  nonzero : ¬ isAllZero (prim.diffieHellman parts.ourPrivate msg.senderPubkey)
  signature : parts.signature = createResponse prim
    (prim.diffieHellman parts.ourPrivate msg.senderPubkey) ourDht msg.senderDht parts.ourChallenge

/-- The sender of a message is let in, and the message is the first flight of its type. -/
structure Admitted (ans : Answers Secret) (start : Process Secret) (msg : HandshakeMessage) :
    Prop where
  blocked : ans.isReputationBlocked msg.senderDht = false
  ignored : (start.manager.isPeerIgnored msg.senderDht (ans.clock 0)).1 = false
  quarantined : (start.manager.isPeerQuarantined msg.senderDht (ans.clock 0)).1 = false
  first : ∀ s, start.session msg.senderDht = some s →
    (msg.messageType = 1 → givesWay msg s = false) → s.receivedFlights msg.messageType = none

section Moves

variable (prim : Primitives Secret) (ans : Answers Secret)
  (incoming : Option (HandshakeMessage × Bytes)) (start : Process Secret)

/-- What a process sends, and where. -/
inductive Outgoing (p : Process Secret) : Bytes → Bytes → Prop
  | again {peer : String} {s : HandshakeState Secret} {route : Bytes}
      {flight : SavedHandshakeFlight} (session : p.session peer = some s)
      (hroute : s.route = some route)
      (saved : s.outgoingFlight = some flight ∨
        ∃ type reply, s.cachedReplies type = some reply ∧ reply.flight = flight) :
      Outgoing p route flight.bytes
  | control {route : Bytes} {message : HandshakeMessage} (noChallenge : message.challenge = none)
      (noSignature : message.signature = none)
      (type : message.messageType = handshakeResetMessageType ∨ message.messageType = 5) :
      Outgoing p route (message.toJson)
  | init {target : String} {blob : Bytes} {now : UInt64} {mode : EncryptionMode} {maintain : Bool}
      (outbound : incoming = none) (fetched : ans.fetchRouteBlob target = .ok blob) :
      Outgoing p blob (HandshakeMessage.toJson (initMessage p.manager.ourDht
        (prim.publicKey (ans.ephemeralSecret target)) (ans.randomHandshakeToken target)
        (ans.randomChallenge target) now mode maintain))
  | welcome {msg : HandshakeMessage} {raw blob shared theirChallenge : Bytes}
      (inbound : incoming = some (msg, raw)) (type : msg.messageType = 1)
      (first : p.effects = start.effects)
      (accepted : acceptInit prim (ans.ephemeralSecret msg.senderDht) msg =
        .ok (shared, theirChallenge))
      (fetched : ans.fetchRouteBlob msg.senderDht = .ok blob) :
      Outgoing p blob (welcomeAnswer prim ans p.manager.ourDht msg shared theirChallenge).toJson

/-- The elementary moves of one step, which began at `start`. -/
inductive Move : Process Secret → Process Secret → Prop
  | keep {p : Process Secret} {m : Manager Secret} {effects : List Effect}
      (sessions : m.sessions = p.manager.sessions) (ourDht : m.ourDht = p.manager.ourDht)
      (silent : ∀ route bytes, Effect.appMessage route bytes ∉ effects) :
      Move p ⟨m, p.effects ++ effects⟩
  | drop {p : Process Secret} (peer : String) : Move p (p.removeSession peer)
  | touch {p : Process Secret} {peer : String} {s t : HandshakeState Secret}
      (session : p.session peer = some s) (touched : Touched s t) : Move p (p.putSession peer t)
  | touchAll {p : Process Secret} {f : HandshakeState Secret → HandshakeState Secret}
      (touched : ∀ s, Touched s (f s)) :
      Move p { p with
        manager := { p.manager with sessions := p.manager.sessions.mapEntries fun _ => f } }
  | send {p : Process Secret} {route bytes : Bytes}
      (outgoing : Outgoing prim ans incoming start p route bytes) :
      Move p (p.ask (.appMessage route bytes))
  | initiated {p : Process Secret} {target : String} {blob bytes : Bytes} {now : UInt64}
      {mode : EncryptionMode} {verification maintain : Bool} (outbound : incoming = none)
      (fetched : ans.fetchRouteBlob target = .ok blob)
      (encoded : bytes = HandshakeMessage.toJson (initMessage p.manager.ourDht
        (prim.publicKey (ans.ephemeralSecret target)) (ans.randomHandshakeToken target)
        (ans.randomChallenge target) now mode maintain))
      (sent : Effect.appMessage blob bytes ∈ p.effects)
      (total : p.manager.totalCount < maxTotalSessions)
      (pending : p.manager.pendingCount true < maxPendingOutboundHandshakes) :
      Move p (p.putSession target
        (initiatedState prim ans target blob bytes now mode verification maintain))
  | welcomed {p : Process Secret} {msg : HandshakeMessage}
      {raw blob bytes shared theirChallenge : Bytes} (inbound : incoming = some (msg, raw))
      (type : msg.messageType = 1) (admitted : Admitted ans start msg)
      (rate : (inboundInitIsExcessive prim msg.senderDht (ans.clock 0) start).1 = false)
      (narrowed : Narrowed start p)
      (accepted : acceptInit prim (ans.ephemeralSecret msg.senderDht) msg =
        .ok (shared, theirChallenge))
      (fetched : ans.fetchRouteBlob msg.senderDht = .ok blob)
      (encoded : encodeHandshakeMessage
        (welcomeAnswer prim ans p.manager.ourDht msg shared theirChallenge) = .ok bytes)
      (delivered : ans.appMessage blob bytes = .ok ())
      (sent : Effect.appMessage blob bytes ∈ p.effects)
      (established : p.manager.establishedCount < maxEstablishedHandshakes)
      (total : p.manager.totalCount < maxTotalSessions)
      (pending : p.session msg.senderDht = none →
        p.manager.pendingCount false < maxPendingInboundHandshakes)
      (held : ∀ s, p.session msg.senderDht = some s → givesWay msg s = false ∧ Whole start p) :
      Move p (p.putSession msg.senderDht (welcomedState prim msg
        (ans.ephemeralSecret msg.senderDht) (ans.randomChallenge msg.senderDht) theirChallenge
        shared blob bytes (prim.sha256 raw) (ans.clock 1)))
  | replied {p : Process Secret} {msg : HandshakeMessage} {raw route bytes : Bytes}
      {s : HandshakeState Secret} {parts : WelcomeReplyParts Secret}
      (inbound : incoming = some (msg, raw)) (type : msg.messageType = 2)
      (admitted : Admitted ans start msg)
      (narrowed : Narrowed start p) (session : p.session msg.senderDht = some s)
      (accepted : AcceptsReply prim p.manager.ourDht s msg parts) (hroute : s.route = some route)
      (encoded : encodeHandshakeMessage
        (finalAnswer prim ans p.manager.ourDht s msg parts) = .ok bytes)
      (delivered : ans.appMessage route bytes = .ok ()) :
      Move p ((p.ask (.appMessage route bytes)).putSession msg.senderDht (repliedState prim s msg
        (prim.diffieHellman parts.ourPrivate msg.senderPubkey) bytes (ans.clock 1)))
  /-- The type 3 may be lost, and the session fails. -/
  | replyLost {p : Process Secret} {msg : HandshakeMessage} {raw route bytes : Bytes}
      {s : HandshakeState Secret} {parts : WelcomeReplyParts Secret}
      (inbound : incoming = some (msg, raw)) (type : msg.messageType = 2)
      (narrowed : Narrowed start p) (session : p.session msg.senderDht = some s)
      (accepted : AcceptsReply prim p.manager.ourDht s msg parts)
      (encoded : encodeHandshakeMessage
        (finalAnswer prim ans p.manager.ourDht s msg parts) = .ok bytes) :
      Move p ((p.ask (.appMessage route bytes)).putSession msg.senderDht
        { s with ourPrivateKey := none, status := .failed })
  | finished {p : Process Secret} {msg : HandshakeMessage} {raw : Bytes}
      {s : HandshakeState Secret} (inbound : incoming = some (msg, raw))
      (type : msg.messageType = 3) (admitted : Admitted ans start msg)
      (narrowed : Narrowed start p)
      (session : p.session msg.senderDht = some s)
      (accepted : checkFinal prim p.manager.ourDht s msg = .ok ()) :
      Move p (p.putSession msg.senderDht (finishedState ans s msg))

/-- The moves of one step. -/
abbrev Moves : Process Secret → Process Secret → Prop :=
  Relation.ReflTransGen (Move prim ans incoming start)

end Moves

variable {prim : Primitives Secret} {ans : Answers Secret}
  {incoming : Option (HandshakeMessage × Bytes)} {start : Process Secret} {p q : Process Secret}

/-- What every move keeps, a step keeps. -/
theorem Moves.invariant {P : Process Secret → Prop}
    (preserved : ∀ p q, Move prim ans incoming start p q → P p → P q)
    (moves : Moves prim ans incoming start p q) (hp : P p) : P q := by
  induction moves with
  | refl => exact hp
  | tail _ hmove ih => exact preserved _ _ hmove ih

/-! ## Steps are moves -/

variable {m m' : Manager Secret}

theorem Move.bookkeep
    (sessions : m.sessions = p.manager.sessions) (ourDht : m.ourDht = p.manager.ourDht) :
    Move prim ans incoming start p { p with manager := m } := by
  have h : Move prim ans incoming start p ⟨m, p.effects ++ []⟩ := .keep sessions ourDht (by simp)
  simpa using h

theorem Move.note {effect : Effect} (silent : ∀ route bytes, effect ≠ .appMessage route bytes) :
    Move prim ans incoming start p (p.ask effect) := by
  apply Move.keep rfl rfl
  intro route bytes h
  exact silent route bytes (List.mem_singleton.mp h).symm

/-! ### Resets -/

theorem scheduleRestartFromState_sessions (m : Manager Secret) (s : HandshakeState Secret)
    (now : UInt64) : (m.scheduleRestartFromState s now).sessions = m.sessions := by
  unfold Manager.scheduleRestartFromState
  split <;> rfl

theorem scheduleRestartFromState_ourDht (m : Manager Secret) (s : HandshakeState Secret)
    (now : UInt64) : (m.scheduleRestartFromState s now).ourDht = m.ourDht := by
  unfold Manager.scheduleRestartFromState
  split <;> rfl

theorem encodeHandshakeMessage_eq_ok {message : HandshakeMessage} {bytes : Bytes}
    (h : encodeHandshakeMessage message = .ok bytes) : bytes = message.toJson := by
  unfold encodeHandshakeMessage at h
  split at h
  · cases h
  · exact (Except.ok.inj h).symm

theorem sendProtocolReset_moves (now : UInt64) (peer : String) (p : Process Secret) :
    Moves prim ans incoming start p (sendProtocolReset ans now peer p).2 := by
  unfold sendProtocolReset
  dsimp only
  split
  case isTrue =>
    exact .tail (.single (.drop peer)) (.bookkeep rfl rfl)
  case isFalse =>
  split
  case h_1 => exact .single (.bookkeep rfl rfl)
  case h_2 s _ =>
  have hdropped : Moves prim ans incoming start p { p with
      manager := ({ p.manager with
        resetSends := Function.update p.manager.resetSends peer
          (Manager.retainRecent (p.manager.resetSends peer) now handshakeResetWindowSecs ++ [now])
        quarantinedUntil := Function.update p.manager.quarantinedUntil peer
          (some (saturatingAdd now handshakeResetQuarantineSecs))
        sessions := p.manager.sessions.erase peer } :
          Manager Secret).scheduleRestartFromState s now } := by
    refine .tail (.single (.drop peer)) (.bookkeep ?_ ?_)
    · rw [scheduleRestartFromState_sessions]
      rfl
    · rw [scheduleRestartFromState_ourDht]
      rfl
  split
  case h_1 => exact hdropped
  case h_2 route _ =>
    split
    case h_1 => exact hdropped
    case h_2 bytes hbytes =>
      obtain rfl := encodeHandshakeMessage_eq_ok hbytes
      exact hdropped.tail (.send (.control rfl rfl (.inl rfl)))

theorem acceptReset_sessions (m : Manager Secret) (peer : String)
    (restart : Option (HandshakeState Secret)) (now : UInt64) :
    (acceptReset m peer restart now).sessions = m.sessions ∧
      (acceptReset m peer restart now).ourDht = m.ourDht := by
  unfold acceptReset
  dsimp only
  split
  · exact ⟨rfl, rfl⟩
  · cases restart with
    | none => exact ⟨rfl, rfl⟩
    | some s =>
      exact ⟨scheduleRestartFromState_sessions _ _ _, scheduleRestartFromState_ourDht _ _ _⟩

theorem handleProtocolReset_moves (now : UInt64) (msg : HandshakeMessage) (p : Process Secret) :
    Moves prim ans incoming start p
      { p with manager := handleProtocolReset now msg p.manager } := by
  unfold handleProtocolReset
  split
  case h_1 s _ =>
    split
    case isTrue =>
      refine .tail (.single (.drop msg.senderDht)) (.bookkeep ?_ ?_)
      · rw [(acceptReset_sessions _ _ _ _).1]
        rfl
      · rw [(acceptReset_sessions _ _ _ _).2]
        rfl
    case isFalse => exact .refl
  case h_2 =>
    split
    case isTrue =>
      exact .single (.bookkeep (acceptReset_sessions _ _ _ _).1 (acceptReset_sessions _ _ _ _).2)
    case isFalse => exact .refl

/-! ### Bookkeeping -/

theorem submitObservation_moves (peer : String) (kind : ObservationKind) (code : Option Nat)
    (p : Process Secret) :
    Moves prim ans incoming start p (submitObservation prim p peer kind code) := by
  unfold submitObservation
  split
  · exact .single (.note (by simp))
  · exact .refl

theorem recordWrongChallenge_moves (now : UInt64) (peer : String) (p : Process Secret) :
    Moves prim ans incoming start p (recordWrongChallenge prim now peer p) := by
  unfold recordWrongChallenge
  dsimp only
  split
  · refine .trans ?_ (submitObservation_moves _ _ _ _)
    exact .single (.bookkeep rfl rfl)
  · split
    · refine .trans ?_ (submitObservation_moves _ _ _ _)
      exact .single (.bookkeep rfl rfl)
    · exact .single (.bookkeep rfl rfl)

theorem inboundInitIsExcessive_moves (peer : String) (now : UInt64) (p : Process Secret) :
    Moves prim ans incoming start p (inboundInitIsExcessive prim peer now p).2 := by
  unfold inboundInitIsExcessive
  dsimp only
  split
  · exact .single (.bookkeep rfl rfl)
  · split
    · refine .trans ?_ (submitObservation_moves _ _ _ _)
      exact .single (.bookkeep rfl rfl)
    · exact .single (.bookkeep rfl rfl)

theorem isPeerIgnored_sessions (m : Manager Secret) (peer : String) (now : UInt64) :
    (m.isPeerIgnored peer now).2.sessions = m.sessions ∧
      (m.isPeerIgnored peer now).2.ourDht = m.ourDht := by
  unfold Manager.isPeerIgnored
  split
  · split <;> exact ⟨rfl, rfl⟩
  · exact ⟨rfl, rfl⟩

theorem isPeerQuarantined_sessions (m : Manager Secret) (peer : String) (now : UInt64) :
    (m.isPeerQuarantined peer now).2.sessions = m.sessions ∧
      (m.isPeerQuarantined peer now).2.ourDht = m.ourDht := by
  unfold Manager.isPeerQuarantined
  split
  · split <;> exact ⟨rfl, rfl⟩
  · exact ⟨rfl, rfl⟩

theorem foldl_removeSession_moves (peers : List String) (p : Process Secret) :
    Moves prim ans incoming start p (peers.foldl Process.removeSession p) := by
  induction peers generalizing p with
  | nil => exact .refl
  | cons peer peers ih => exact .head (.drop peer) (ih _)

theorem foldl_removeSession_manager (peers : List String) (p : Process Secret) :
    peers.foldl Process.removeSession p =
      { p with manager := peers.foldl Manager.removeSession p.manager } := by
  induction peers generalizing p with
  | nil => rfl
  | cons peer peers ih => exact ih _

/-- Making room only drops sessions, and there is room when it says so. -/
theorem reservePendingSlot_moves (isInitiator : Bool) (now : UInt64) (p : Process Secret) :
    Moves prim ans incoming start p
      { p with manager := (p.manager.reservePendingSlot isInitiator now).2 } := by
  unfold Manager.reservePendingSlot
  rw [← foldl_removeSession_manager]
  exact foldl_removeSession_moves _ _

theorem foldl_removeSession_kept (peers : List String) (m : Manager Secret) :
    (peers.foldl Manager.removeSession m).ourDht = m.ourDht ∧
      ∀ peer s, (peers.foldl Manager.removeSession m).sessions.lookup peer = some s →
        m.sessions.lookup peer = some s := by
  induction peers generalizing m with
  | nil => exact ⟨rfl, fun _ _ h => h⟩
  | cons dropped peers ih =>
    obtain ⟨hourDht, hsessions⟩ := ih (m.removeSession dropped)
    refine ⟨hourDht, fun peer s h => ?_⟩
    have hdropped : (m.sessions.erase dropped).lookup peer = some s := hsessions peer s h
    by_cases hpeer : peer = dropped
    · subst hpeer
      rw [AList.lookup_erase] at hdropped
      cases hdropped
    · rwa [AList.lookup_erase_ne hpeer] at hdropped

theorem reservePendingSlot_kept (m : Manager Secret) (isInitiator : Bool) (now : UInt64) :
    (m.reservePendingSlot isInitiator now).2.ourDht = m.ourDht ∧
      ∀ peer s, (m.reservePendingSlot isInitiator now).2.sessions.lookup peer = some s →
        m.sessions.lookup peer = some s :=
  foldl_removeSession_kept _ m

variable {now : UInt64}

theorem reservePendingSlot_room {isInitiator : Bool}
    (h : m.reservePendingSlot isInitiator now = (true, m')) :
    m'.pendingCount isInitiator <
      if isInitiator then maxPendingOutboundHandshakes else maxPendingInboundHandshakes := by
  obtain ⟨hroom, rfl⟩ := Prod.mk.inj h
  exact of_decide_eq_true hroom

theorem totalCount_eq_count (m : Manager Secret) : m.totalCount = m.sessions.count fun _ => true :=
  (congrFun List.countP_true m.sessions.entries).symm

/-- What is left after sessions were dropped counts no more in any class. -/
theorem count_le_of_session (f : HandshakeState Secret → Bool)
    (h : ∀ peer s, q.session peer = some s → p.session peer = some s) :
    q.manager.sessions.count f ≤ p.manager.sessions.count f :=
  AList.count_le_count fun peer s hs hf => ⟨s, h peer s hs, hf⟩

/-! ### The four flights -/

theorem Narrowed.refl (p : Process Secret) : Narrowed p p := ⟨rfl, fun _ s hs => ⟨s, hs, rfl⟩⟩

theorem Whole.refl (p : Process Secret) : Whole p p := fun _ s hs => ⟨s, hs, rfl⟩

variable {peer ourDht : String} {s : HandshakeState Secret}

theorem Whole.putSession {t : HandshakeState Secret}
    (hs : p.session peer = some s) (hstatus : t.status = s.status) :
    Whole p (p.putSession peer t) := by
  intro peer' s₀ hs₀
  by_cases hpeer : peer' = peer
  · subst hpeer
    cases hs.symm.trans hs₀
    exact ⟨t, by simp, hstatus⟩
  · exact ⟨s₀, by simpa [hpeer] using hs₀, rfl⟩

theorem Whole.trans {r : Process Secret} (hpq : Whole p q) (hqr : Whole q r) : Whole p r := by
  intro peer s₀ hs₀
  obtain ⟨s, hs, hstatus⟩ := hpq peer s₀ hs₀
  obtain ⟨t, ht, hstatus'⟩ := hqr peer s hs
  exact ⟨t, ht, hstatus'.trans hstatus⟩

theorem Narrowed.of_sessions (h : Narrowed start p) (ourDht : q.manager.ourDht = p.manager.ourDht)
    (sessions : ∀ peer s, q.session peer = some s → p.session peer = some s) :
    Narrowed start q :=
  ⟨ourDht.trans h.ourDht, fun peer s hs => h.session peer s (sessions peer s hs)⟩

variable {msg : HandshakeMessage} {raw : Bytes}

theorem handleWelcome_moves (inbound : incoming = some (msg, raw)) (type : msg.messageType = 1)
    (admitted : Admitted ans start msg)
    (rate : (inboundInitIsExcessive prim msg.senderDht (ans.clock 0) start).1 = false)
    (first : p.effects = start.effects) (narrowed : Narrowed start p)
    (established : p.manager.establishedCount < maxEstablishedHandshakes)
    (total : p.manager.totalCount < maxTotalSessions) (pending : p.session msg.senderDht = none →
      p.manager.pendingCount false < maxPendingInboundHandshakes)
    (held : ∀ s, p.session msg.senderDht = some s → givesWay msg s = false ∧ Whole start p) :
    Moves prim ans incoming start p (handleWelcome prim ans msg (prim.sha256 raw) p).2 := by
  unfold handleWelcome
  dsimp only
  split
  case h_1 => exact .refl
  case h_2 shared theirChallenge haccepted =>
  split
  case h_1 => exact .refl
  case h_2 blob hfetched =>
  split
  case h_1 => exact .refl
  case h_2 bytes hbytes =>
  have hencoded := encodeHandshakeMessage_eq_ok hbytes
  have hsend : Moves prim ans incoming start p (p.ask (.appMessage blob bytes)) := by
    rw [hencoded]
    exact .single (.send (.welcome inbound type first haccepted hfetched))
  split
  case h_1 => exact hsend
  case h_2 hdelivered =>
    refine hsend.tail (.welcomed inbound type admitted rate ?_ haccepted hfetched hbytes
      hdelivered ?_ established total pending held)
    · exact narrowed.of_sessions rfl fun _ _ hs => hs
    · simp

variable {parts : WelcomeReplyParts Secret}

/-- What checking a type 2 has found in the session and in the message. -/
theorem checkWelcomeReply_eq_ok (h : checkWelcomeReply s msg = .ok parts) :
    s.isInitiator = true ∧ s.status = .initSent ∧ s.token = msg.token ∧
      (∀ mode, msg.encryptionMode = some mode → mode = s.encryptionMode) ∧
      s.ourChallenge = some parts.ourChallenge ∧ msg.signature = some parts.signature ∧
      msg.challenge = some parts.theirChallenge ∧ s.ourPrivateKey = some parts.ourPrivate := by
  unfold checkWelcomeReply at h
  split at h
  · cases h
  rename_i hstate
  split at h
  · cases h
  rename_i htoken
  split at h
  · cases h
  rename_i hmode
  split at h
  · cases h
  split at h
  · cases h
  split at h
  case h_5 ourChallenge signature theirChallenge ourPrivate hour hsignature hchallenge hprivate =>
    cases h
    simp only [not_or, not_not, Bool.not_eq_true] at hstate
    refine ⟨by simpa using hstate.1, hstate.2, not_not.mp htoken, ?_, hour, hsignature,
      hchallenge, hprivate⟩
    intro mode hsome
    rw [hsome] at hmode
    simpa using hmode
  all_goals cases h

/-- A session whose type 3 is lost counts as touched. -/
theorem AcceptsReply.lost (h : AcceptsReply prim ourDht s msg parts) :
    Touched s { s with ourPrivateKey := none, status := .failed } :=
  { Touched.refl s with
    ourPrivateKey := .inr rfl
    status := .inr ⟨by rw [(checkWelcomeReply_eq_ok h.checked).2.1]; simp, rfl⟩ }

theorem handleWelcomeReply_moves (inbound : incoming = some (msg, raw)) (type : msg.messageType = 2)
    (admitted : Admitted ans start msg) (narrowed : Narrowed start p) :
    Moves prim ans incoming start p (handleWelcomeReply prim ans msg p).2 := by
  unfold handleWelcomeReply
  dsimp only
  split
  case h_1 => exact .refl
  case h_2 s hs =>
  split
  case h_1 => exact .refl
  case h_2 parts hparts =>
  obtain ⟨hinit, hsent, -⟩ := checkWelcomeReply_eq_ok hparts
  have hspent : Touched s { s with ourPrivateKey := none } :=
    { Touched.refl s with ourPrivateKey := .inr rfl }
  have hfailed : Touched s { s with ourPrivateKey := none, status := .failed } :=
    { Touched.refl s with
      ourPrivateKey := .inr rfl
      status := .inr ⟨by rw [hsent]; simp, rfl⟩ }
  split
  case isTrue => exact .single (.touch hs hfailed)
  case isFalse hnonzero =>
  split
  case isTrue => exact .single (.touch hs hfailed)
  case isFalse hsignature =>
  have haccepted : AcceptsReply prim p.manager.ourDht s msg parts :=
    ⟨hparts, hnonzero, not_not.mp hsignature⟩
  split
  case h_1 => exact .single (.touch hs hspent)
  case h_2 route hroute =>
  split
  case h_1 => exact .single (.touch hs hspent)
  case h_2 bytes hbytes =>
    split
    case h_1 => exact .single (.replyLost inbound type narrowed hs haccepted hbytes)
    case h_2 hdelivered =>
      exact .tail (.single (.replied inbound type admitted narrowed hs haccepted hroute
        hbytes hdelivered)) (.note (by simp))

theorem handleFinal_moves (inbound : incoming = some (msg, raw)) (type : msg.messageType = 3)
    (admitted : Admitted ans start msg) (narrowed : Narrowed start p) :
    Moves prim ans incoming start p (handleFinal prim ans msg p).2 := by
  unfold handleFinal
  dsimp only
  split
  case h_1 => exact .refl
  case h_2 s hs =>
    split
    case h_1 => exact .refl
    case h_2 haccepted =>
      exact .tail (.single (.finished inbound type admitted narrowed hs haccepted))
        (.note (by simp))

theorem handleCheckin_moves (msg : HandshakeMessage) (p : Process Secret) :
    Moves prim ans incoming start p (handleCheckin ans msg p).2 := by
  unfold handleCheckin
  split
  case h_1 => exact .refl
  case h_2 s hs =>
  split
  · exact .refl
  split
  · exact .refl
  dsimp only
  split
  · exact .refl
  split
  · exact .refl
  · exact .single (.touch hs { Touched.refl s with })

/-! ### Inbound messages -/

theorem inboundInitIsExcessive_false (h : inboundInitIsExcessive prim peer now p = (false, q)) :
    q.manager.sessions = p.manager.sessions ∧ q.manager.ourDht = p.manager.ourDht ∧
      q.effects = p.effects := by
  unfold inboundInitIsExcessive at h
  dsimp only at h
  split at h
  · obtain ⟨-, rfl⟩ := Prod.mk.inj h
    exact ⟨rfl, rfl, rfl⟩
  · split at h <;> cases h

/-- Whether a peer sends too many depends on its recent ones alone. -/
theorem inboundInitIsExcessive_congr
    (attempts : q.manager.inboundInitAttempts = p.manager.inboundInitAttempts)
    (h : (inboundInitIsExcessive prim peer now q).1 = false) :
    (inboundInitIsExcessive prim peer now p).1 = false := by
  have hfew : ∀ r : Process Secret, (inboundInitIsExcessive prim peer now r).1 = false ↔
      (Manager.retainRecent (r.manager.inboundInitAttempts peer) now handshakeInitWindowSecs ++
        [now]).length ≤ maxInboundHandshakeInitsPerWindow := by
    intro r
    unfold inboundInitIsExcessive
    dsimp only
    split
    case isTrue hle => simpa using hle
    case isFalse hle => split <;> simpa using hle
  rw [hfew, ← attempts]
  exact (hfew q).mp h

theorem handleInit_moves (inbound : incoming = some (msg, raw)) (type : msg.messageType = 1)
    (admitted : Admitted ans start msg) (first : p.effects = start.effects)
    (attempts : p.manager.inboundInitAttempts = start.manager.inboundInitAttempts)
    (narrowed : Narrowed start p)
    (held : ∀ s, p.session msg.senderDht = some s → givesWay msg s = false ∧ Whole start p) :
    Moves prim ans incoming start p (handleInit prim ans msg raw p).2 := by
  have hcounted : Moves prim ans incoming start p
      (inboundInitIsExcessive prim msg.senderDht (ans.clock 0) p).2 :=
    inboundInitIsExcessive_moves msg.senderDht (ans.clock 0) p
  unfold handleInit
  dsimp only
  split
  case h_1 q hq => simpa only [hq] using hcounted
  case h_2 q hq =>
  rw [hq] at hcounted
  obtain ⟨hsessions, hourDht, heffects⟩ := inboundInitIsExcessive_false hq
  have hrate := inboundInitIsExcessive_congr attempts (congrArg Prod.fst hq)
  have hsession : ∀ peer, q.session peer = p.session peer := fun peer =>
    congrArg (AList.lookup peer) hsessions
  have hnarrowed : Narrowed start q :=
    narrowed.of_sessions hourDht fun peer s hs => (hsession peer).symm.trans hs
  split
  case isTrue => exact hcounted
  case isFalse hestablished =>
  split
  case isTrue => exact hcounted
  case isFalse htotal =>
  split
  case isTrue hsome =>
    refine hcounted.trans (handleWelcome_moves inbound type admitted hrate
      (heffects.trans first) hnarrowed (not_le.mp hestablished) (not_le.mp htotal) ?_ ?_)
    · intro hnone
      rw [hnone] at hsome
      cases hsome
    · intro s hs
      obtain ⟨hgives, hwhole⟩ := held s ((hsession _).symm.trans hs)
      refine ⟨hgives, fun peer s₀ hs₀ => ?_⟩
      obtain ⟨t, ht, hstatus⟩ := hwhole peer s₀ hs₀
      exact ⟨t, (hsession peer).trans ht, hstatus⟩
  case isFalse hnone =>
  have hreserved : Moves prim ans incoming start q
      { q with manager := (q.manager.reservePendingSlot false (ans.clock 0)).2 } :=
    reservePendingSlot_moves false (ans.clock 0) q
  split
  case h_1 m hm =>
    rw [hm] at hreserved
    exact hcounted.trans hreserved
  case h_2 m hm =>
  obtain ⟨hkeptDht, hfewer⟩ := reservePendingSlot_kept q.manager false (ans.clock 0)
  have hroom : m.pendingCount false < maxPendingInboundHandshakes := reservePendingSlot_room hm
  rw [hm] at hkeptDht hfewer
  rw [hm] at hreserved
  refine (hcounted.trans hreserved).trans (handleWelcome_moves inbound type admitted hrate
    (heffects.trans first) (hnarrowed.of_sessions hkeptDht hfewer) ?_ ?_
    (fun _ => hroom) ?_)
  · exact lt_of_le_of_lt (count_le_of_session _ hfewer) (not_le.mp hestablished)
  · refine lt_of_le_of_lt ?_ (not_le.mp htotal)
    rw [totalCount_eq_count, totalCount_eq_count]
    exact count_le_of_session _ hfewer
  · intro s hs
    have hbefore : q.session msg.senderDht = some s := hfewer _ _ hs
    rw [hbefore] at hnone
    exact absurd rfl hnone

/-- A session whose answer goes out once more. -/
def countReplay (s : HandshakeState Secret) (type : UInt8) (cached : CachedHandshakeReply) :
    HandshakeState Secret :=
  { s with
    cachedReplies := Function.update s.cachedReplies type
      (some { cached with replayCount := cached.replayCount + 1 }) }

/-- What the comparison with earlier flights comes to. -/
inductive Compared (prim : Primitives Secret) (ans : Answers Secret) (msg : HandshakeMessage)
    (raw : Bytes) (p : Process Secret) : Except String Bool → Process Secret → Prop
  | apart (fresh : msg.messageType ∈ [1, 2, 3] → p.session msg.senderDht = none) :
      Compared prim ans msg raw p (.ok false) p
  | first {s : HandshakeState Secret} (session : p.session msg.senderDht = some s)
      (unseen : s.receivedFlights msg.messageType = none) :
      Compared prim ans msg raw p (.ok false) (p.putSession msg.senderDht { s with
        receivedFlights := Function.update s.receivedFlights msg.messageType
          (some (prim.sha256 raw)) })
  | replay {s : HandshakeState Secret} {cached : CachedHandshakeReply} {route : Bytes}
      {result : Except String Bool} (session : p.session msg.senderDht = some s)
      (recorded : s.receivedFlights msg.messageType = some (prim.sha256 raw))
      (reply : s.cachedReplies msg.messageType = some cached) (hroute : s.route = some route)
      (few : cached.replayCount < maxDuplicateReplyReplays) (done : result ≠ .ok false) :
      Compared prim ans msg raw p result ((p.putSession msg.senderDht
        (countReplay s msg.messageType cached)).ask (.appMessage route cached.flight.bytes))
  | silent {s : HandshakeState Secret} (session : p.session msg.senderDht = some s)
      (recorded : s.receivedFlights msg.messageType = some (prim.sha256 raw))
      (unanswered : ∀ cached route, s.cachedReplies msg.messageType = some cached →
        s.route = some route → maxDuplicateReplyReplays ≤ cached.replayCount) :
      Compared prim ans msg raw p (.ok true) p
  | conflict {s : HandshakeState Secret} {previous : Bytes} {result : Except String Bool}
      (session : p.session msg.senderDht = some s)
      (recorded : s.receivedFlights msg.messageType = some previous)
      (differs : previous ≠ prim.sha256 raw) (done : result ≠ .ok false) :
      Compared prim ans msg raw p result (sendProtocolReset ans (ans.clock 5) msg.senderDht p).2

variable {result : Except String Bool}

theorem compared_of_eq (h : handleDuplicateOrConflictingFlight prim ans msg raw p = (result, q)) :
    Compared prim ans msg raw p result q := by
  unfold handleDuplicateOrConflictingFlight at h
  split at h
  case isTrue hother =>
    cases h
    exact .apart fun htype => absurd htype hother
  split at h
  case h_1 hnone =>
    cases h
    exact .apart fun _ => hnone
  case h_2 s hs =>
  split at h
  case h_1 hunseen =>
    cases h
    exact .first hs hunseen
  case h_2 previous hprevious =>
  split at h
  case isTrue hsame =>
    subst hsame
    split at h
    case h_1 cached route hcached hroute =>
      split at h
      case isTrue hfew =>
        rcases hsend : ans.appMessage route cached.flight.bytes with e | _
        · cases h.symm.trans (Fallible.bind_error (congrArg (·, _) hsend))
          exact .replay hs hprevious hcached hroute hfew nofun
        · cases h.symm.trans (Fallible.bind_ok (congrArg (·, _) hsend))
          exact .replay hs hprevious hcached hroute hfew (by simp)
      case isFalse hmany =>
        cases h
        refine .silent hs hprevious fun cached' _ hcached' _ => ?_
        cases hcached.symm.trans hcached'
        exact not_lt.mp hmany
    case h_2 hnone =>
      cases h
      exact .silent hs hprevious fun cached route hcached hroute =>
        absurd hroute (hnone cached route hcached)
  case isFalse hdiffers =>
    have hconflict : ∀ result, _ → Compared prim ans msg raw p result _ :=
      fun result => Compared.conflict hs hprevious hdiffers
    rcases hsend : sendProtocolReset ans (ans.clock 5) msg.senderDht p with ⟨e | _, r⟩
    all_goals rw [hsend] at hconflict
    · cases h.symm.trans (Fallible.bind_error hsend)
      exact hconflict _ nofun
    · cases h.symm.trans (Fallible.bind_ok hsend)
      exact hconflict _ (by simp)

theorem Compared.moves (h : Compared prim ans msg raw p result q) :
    Moves prim ans incoming start p q := by
  cases h with
  | apart fresh => exact .refl
  | @first s session unseen => exact .single (.touch session { Touched.refl s with })
  | @replay s cached route _ session recorded reply hroute few done =>
    -- The reply goes out again and the session counts it.
    have htouched : Touched s (countReplay s msg.messageType cached) :=
      { Touched.refl s with
        cachedReplies := by
          intro type reply' h
          unfold countReplay at h
          dsimp only at h
          by_cases htype : type = msg.messageType
          · subst htype
            rw [Function.update_self] at h
            cases h
            exact ⟨cached, reply, rfl⟩
          · rw [Function.update_of_ne htype] at h
            exact ⟨reply', h, rfl⟩ }
    refine .tail (.single (.touch session htouched)) (.send (.again
      (Process.session_putSession _ _ _ _ |>.trans (if_pos rfl)) hroute (.inr ?_)))
    exact ⟨msg.messageType, _, Function.update_self _ _ _, rfl⟩
  | silent => exact .refl
  | conflict => exact sendProtocolReset_moves (ans.clock 5) msg.senderDht p

/-- A flight that is not dealt with is the first of its type. -/
theorem Compared.kept (h : Compared prim ans msg raw p (.ok false) q) :
    q.effects = p.effects ∧ q.manager.ourDht = p.manager.ourDht ∧
      q.manager.inboundInitAttempts = p.manager.inboundInitAttempts ∧ Whole p q ∧
      (∀ peer s, q.session peer = some s → ∃ s₀, p.session peer = some s₀ ∧
        s = { s₀ with receivedFlights := s.receivedFlights }) ∧
      (msg.messageType ∈ [1, 2, 3] → ∀ s, p.session msg.senderDht = some s →
        s.receivedFlights msg.messageType = none) := by
  cases h with
  | apart fresh =>
    refine ⟨rfl, rfl, rfl, Whole.refl p, fun peer s hs => ⟨s, hs, rfl⟩, fun htype s hs => ?_⟩
    cases (fresh htype).symm.trans hs
  | @first s₀ session unseen =>
    refine ⟨rfl, rfl, rfl, Whole.putSession session rfl, fun peer s hs => ?_, fun _ s hs => ?_⟩
    · rw [Process.session_putSession] at hs
      split at hs
      case isTrue hpeer =>
        cases hs
        exact ⟨s₀, hpeer ▸ session, rfl⟩
      case isFalse hpeer => exact ⟨s, hs, rfl⟩
    · cases session.symm.trans hs
      exact unseen
  | replay _ _ _ _ _ done => exact absurd rfl done
  | conflict _ _ _ done => exact absurd rfl done

theorem handleByType_moves (inbound : incoming = some (msg, raw))
    (admitted : msg.messageType ∈ [1, 2, 3] → Admitted ans start msg)
    (first : p.effects = start.effects)
    (attempts : p.manager.inboundInitAttempts = start.manager.inboundInitAttempts)
    (narrowed : Narrowed start p)
    (held : msg.messageType = 1 → ∀ s, p.session msg.senderDht = some s →
      givesWay msg s = false ∧ Whole start p) :
    Moves prim ans incoming start p (handleByType prim ans msg raw p).2 := by
  unfold handleByType
  split
  case isTrue htype =>
    exact handleInit_moves inbound htype (admitted (by simp [htype])) first attempts narrowed
      (held htype)
  split
  case isTrue htype =>
    exact handleWelcomeReply_moves inbound htype (admitted (by simp [htype])) narrowed
  split
  case isTrue htype =>
    exact handleFinal_moves inbound htype (admitted (by simp [htype])) narrowed
  split
  · exact handleCheckin_moves msg p
  · exact .refl

theorem recoverWithReset_moves {x : Handler Secret Unit}
    (h : Moves prim ans incoming start p (x p).2) :
    Moves prim ans incoming start p (recoverWithReset prim ans peer x p).2 := by
  unfold recoverWithReset
  split
  case h_1 q hq => simpa [hq] using h
  case h_2 e q hq =>
    rw [hq] at h
    refine .trans ?_ (sendProtocolReset_moves _ _ _)
    split
    · exact h.trans (recordWrongChallenge_moves _ _ _)
    · exact h

theorem upgradeQuickSession_moves (msg : HandshakeMessage) (p : Process Secret) :
    Moves prim ans incoming start p (upgradeQuickSession msg p) := by
  unfold upgradeQuickSession
  split
  · exact .single (.drop _)
  · exact .refl

/-- The upgrade drops the sender's session or nothing. -/
theorem upgradeQuickSession_kept (msg : HandshakeMessage) (p : Process Secret) :
    (upgradeQuickSession msg p).effects = p.effects ∧
      (upgradeQuickSession msg p).manager.ourDht = p.manager.ourDht ∧
      (upgradeQuickSession msg p).manager.inboundInitAttempts = p.manager.inboundInitAttempts ∧
      ∀ peer s, (upgradeQuickSession msg p).session peer = some s → p.session peer = some s := by
  unfold upgradeQuickSession
  split
  · refine ⟨rfl, rfl, rfl, fun peer s hs => ?_⟩
    rw [Process.session_removeSession] at hs
    split at hs
    · cases hs
    · exact hs
  · exact ⟨rfl, rfl, rfl, fun _ _ hs => hs⟩

theorem givesWay_of_upgradeQuickSession
    (type : msg.messageType = 1) (hs : (upgradeQuickSession msg p).session msg.senderDht = some s) :
    givesWay msg s = false ∧ upgradeQuickSession msg p = p := by
  unfold upgradeQuickSession at hs ⊢
  split at hs
  case isTrue => simp at hs
  case isFalse hstays =>
    refine ⟨?_, if_neg hstays⟩
    rw [hs] at hstays
    simpa [type] using hstays

theorem upgradeQuickSession_stays (hs : p.session msg.senderDht = some s)
    (hstays : msg.messageType = 1 → givesWay msg s = false) :
    (upgradeQuickSession msg p).session msg.senderDht = some s := by
  unfold upgradeQuickSession
  rw [hs, if_neg]
  · exact hs
  · rintro ⟨htype, hgives⟩
    simp [hstays htype] at hgives

theorem processUnlessDuplicate_moves
    (inbound : incoming = some (msg, raw)) (first : p.effects = start.effects)
    (ourDht : p.manager.ourDht = start.manager.ourDht)
    (attempts : p.manager.inboundInitAttempts = start.manager.inboundInitAttempts)
    (sessions : ∀ peer s, p.session peer = some s → start.session peer = some s)
    (stays : ∀ s, start.session msg.senderDht = some s →
      (msg.messageType = 1 → givesWay msg s = false) → p.session msg.senderDht = some s)
    (held : msg.messageType = 1 → ∀ s, p.session msg.senderDht = some s →
      givesWay msg s = false ∧ Whole start p)
    (blocked : ans.isReputationBlocked msg.senderDht = false)
    (ignored : (start.manager.isPeerIgnored msg.senderDht (ans.clock 0)).1 = false)
    (quarantined : (start.manager.isPeerQuarantined msg.senderDht (ans.clock 0)).1 = false) :
    Moves prim ans incoming start p (processUnlessDuplicate prim ans msg raw p).2 := by
  unfold processUnlessDuplicate
  rcases hdone : handleDuplicateOrConflictingFlight prim ans msg raw p with ⟨e | done, q⟩
  · rw [Fallible.bind_error hdone]
    exact (compared_of_eq hdone).moves
  rw [Fallible.bind_ok hdone]
  cases done with
  | true => exact (compared_of_eq hdone).moves
  | false =>
    obtain ⟨heffects, hourDht, hattempts, hwhole, hsessions, hfirst⟩ := (compared_of_eq hdone).kept
    refine (compared_of_eq hdone).moves.trans (recoverWithReset_moves (handleByType_moves inbound ?_
      (heffects.trans first) (hattempts.trans attempts) ⟨hourDht.trans ourDht, ?_⟩ ?_))
    · intro htype
      exact ⟨blocked, ignored, quarantined, fun s hs hstays => hfirst htype s (stays s hs hstays)⟩
    · intro peer s hs
      obtain ⟨s₀, hs₀, hsame⟩ := hsessions peer s hs
      exact ⟨s₀, sessions peer s₀ hs₀, hsame⟩
    · intro htype s hs
      obtain ⟨s₀, hs₀, hsame⟩ := hsessions _ s hs
      rw [hsame]
      obtain ⟨hgives, hkept⟩ := held htype s₀ hs₀
      exact ⟨hgives, hkept.trans hwhole⟩

theorem isPeerQuarantined_congr (h : m'.quarantinedUntil = m.quarantinedUntil) :
    (m'.isPeerQuarantined peer now).1 = (m.isPeerQuarantined peer now).1 := by
  unfold Manager.isPeerQuarantined
  rw [h]
  cases m.quarantinedUntil peer with
  | none => rfl
  | some deadline =>
    dsimp only
    split <;> rfl

theorem isPeerIgnored_kept (m : Manager Secret) (peer : String) (now : UInt64) :
    (m.isPeerIgnored peer now).2.quarantinedUntil = m.quarantinedUntil ∧
      (m.isPeerIgnored peer now).2.inboundInitAttempts = m.inboundInitAttempts := by
  unfold Manager.isPeerIgnored
  split
  · split <;> exact ⟨rfl, rfl⟩
  · exact ⟨rfl, rfl⟩

theorem isPeerQuarantined_kept (m : Manager Secret) (peer : String) (now : UInt64) :
    (m.isPeerQuarantined peer now).2.inboundInitAttempts = m.inboundInitAttempts := by
  unfold Manager.isPeerQuarantined
  split
  · split <;> rfl
  · rfl

/-- Handling a message is a sequence of moves. -/
theorem processValidatedMessage_moves (sender : String) (msg : HandshakeMessage) (raw : Bytes)
    (p : Process Secret) :
    Moves prim ans (some (msg, raw)) p p (processValidatedMessage prim ans sender msg raw p).2 := by
  unfold processValidatedMessage
  dsimp only
  split
  · exact .refl
  split
  · exact .refl
  split
  · exact .single (.drop _)
  case isFalse hblocked =>
  obtain ⟨hignored, hignoredDht⟩ :=
    isPeerIgnored_sessions p.manager msg.senderDht (ans.clock 0)
  obtain ⟨huntil, hattempts⟩ := isPeerIgnored_kept p.manager msg.senderDht (ans.clock 0)
  split
  case h_1 m hm =>
    rw [hm] at hignored hignoredDht
    exact .single (.bookkeep hignored hignoredDht)
  case h_2 m hm =>
  rw [hm] at hignored hignoredDht huntil hattempts
  have hkept : Moves prim ans (some (msg, raw)) p p { p with manager := m } :=
    .single (.bookkeep hignored hignoredDht)
  split
  case isTrue =>
    exact hkept.trans (handleProtocolReset_moves (ans.clock 1) msg { p with manager := m })
  case isFalse =>
  obtain ⟨hquarantined, hquarantinedDht⟩ :=
    isPeerQuarantined_sessions m msg.senderDht (ans.clock 0)
  have hattempts' := isPeerQuarantined_kept m msg.senderDht (ans.clock 0)
  split
  case h_1 m' hm' =>
    rw [hm'] at hquarantined hquarantinedDht
    exact .single (.bookkeep (hquarantined.trans hignored) (hquarantinedDht.trans hignoredDht))
  case h_2 m' hm' =>
  rw [hm'] at hquarantined hquarantinedDht hattempts'
  have hsame : m'.sessions = p.manager.sessions := hquarantined.trans hignored
  have hsession : ∀ peer, ({ p with manager := m' } : Process Secret).session peer =
      p.session peer := fun peer => congrArg (AList.lookup peer) hsame
  obtain ⟨heffects, hourDht, hrecent, hsessions⟩ :=
    upgradeQuickSession_kept msg ({ p with manager := m' } : Process Secret)
  refine .trans (.single (.bookkeep hsame (hquarantinedDht.trans hignoredDht)))
    (.trans (upgradeQuickSession_moves msg _) (processUnlessDuplicate_moves rfl heffects
      (hourDht.trans (hquarantinedDht.trans hignoredDht))
      (hrecent.trans (hattempts'.trans hattempts)) ?_ ?_ ?_ ?_ ?_ ?_))
  · intro peer s hs
    exact (hsession peer).symm.trans (hsessions peer s hs)
  · intro s hs hstays
    exact upgradeQuickSession_stays ((hsession _).trans hs) hstays
  · intro htype s hs
    obtain ⟨hgives, hsame⟩ := givesWay_of_upgradeQuickSession htype hs
    refine ⟨hgives, fun peer s₀ hs₀ => ⟨s₀, ?_, rfl⟩⟩
    rw [hsame]
    exact (hsession peer).trans hs₀
  · simpa using hblocked
  · rw [hm]
  · rw [← isPeerQuarantined_congr huntil, hm']

/-! ### Initiations and ticks -/

theorem sendInit_moves {target : String} {mode : EncryptionMode}
    {verification maintain : Bool} (total : p.manager.totalCount < maxTotalSessions)
    (pending : p.manager.pendingCount true < maxPendingOutboundHandshakes) :
    Moves prim ans none start p (sendInit prim ans now target mode verification maintain p).2 := by
  unfold sendInit
  dsimp only
  split
  case h_1 => exact .refl
  case h_2 blob hfetched =>
  split
  case h_1 => exact .refl
  case h_2 bytes hbytes =>
  have hencoded := encodeHandshakeMessage_eq_ok hbytes
  have hsend : Moves prim ans none start p (p.ask (.appMessage blob bytes)) := by
    rw [hencoded]
    exact .single (.send (.init rfl hfetched))
  split
  case h_1 => exact hsend
  case h_2 =>
    exact hsend.tail (.initiated rfl hfetched hencoded (by simp) total pending)

theorem initiateHandshakeInternal_moves (now : UInt64) (target : String) (mode : EncryptionMode)
    (verification maintain : Bool) (p : Process Secret) :
    Moves prim ans none start p
      (initiateHandshakeInternal prim ans now target mode verification maintain p).2 := by
  unfold initiateHandshakeInternal
  obtain ⟨hignored, hignoredDht⟩ := isPeerIgnored_sessions p.manager target now
  split
  case h_1 m hm =>
    rw [hm] at hignored hignoredDht
    exact .single (.bookkeep hignored hignoredDht)
  case h_2 m hm =>
  rw [hm] at hignored hignoredDht
  obtain ⟨hquarantined, hquarantinedDht⟩ := isPeerQuarantined_sessions m target now
  split
  case h_1 m' hm' =>
    rw [hm'] at hquarantined hquarantinedDht
    exact .single (.bookkeep (hquarantined.trans hignored) (hquarantinedDht.trans hignoredDht))
  case h_2 m' hm' =>
  rw [hm'] at hquarantined hquarantinedDht
  have hkept : Moves prim ans none start p { p with manager := m' } :=
    .single (.bookkeep (hquarantined.trans hignored) (hquarantinedDht.trans hignoredDht))
  dsimp only
  split
  · exact hkept.tail (.drop _)
  split
  · exact hkept
  split
  case isTrue => exact hkept
  case isFalse htotal =>
  have hreserved : Moves prim ans none start { p with manager := m' }
      { p with manager := (m'.reservePendingSlot true now).2 } :=
    reservePendingSlot_moves true now { p with manager := m' }
  split
  case h_1 m'' hm'' =>
    simp only [hm''] at hreserved
    exact hkept.trans hreserved
  case h_2 m'' hm'' =>
  obtain ⟨-, hfewer⟩ := reservePendingSlot_kept m' true now
  have hroom := reservePendingSlot_room hm''
  simp only [hm''] at hreserved hfewer
  refine (hkept.trans hreserved).trans (sendInit_moves ?_ hroom)
  refine lt_of_le_of_lt ?_ (not_le.mp htotal)
  rw [totalCount_eq_count, totalCount_eq_count]
  exact AList.count_le_count fun peer s hs _ => ⟨s, hfewer peer s hs, rfl⟩

theorem initiatePersistentHandshake_moves (target : String) (p : Process Secret) :
    Moves prim ans none start p (initiatePersistentHandshake prim ans target p).2 := by
  unfold initiatePersistentHandshake
  split
  · exact .refl
  split
  · exact .head (.drop _) (initiateHandshakeInternal_moves _ _ _ _ _ _)
  · exact initiateHandshakeInternal_moves _ _ _ _ _ _

theorem tickSession_touched (prim : Primitives Secret) (ans : Answers Secret) (now : UInt64)
    (ourDht : String) (s : HandshakeState Secret) :
    Touched s (tickSession prim ans now ourDht s).state := by
  unfold tickSession
  split
  case isTrue =>
    unfold tickEstablished
    dsimp only
    split
    · exact { Touched.refl s with }
    · exact .refl s
  case isFalse hpending =>
  have hfailed : Touched s (failedState s) := { Touched.refl s with status := .inr ⟨hpending, rfl⟩ }
  unfold tickPending
  split
  · exact .refl s
  dsimp only
  split
  · exact hfailed
  split
  · split
    · exact hfailed
    split
    · exact hfailed
    · exact hfailed
    · split
      · exact hfailed
      · exact { Touched.refl s with }
  · exact .refl s

/-- A tick repeats saved flights and sends check-ins. -/
theorem tickSession_outgoing (session : p.session peer = some s) {effect : Effect}
    (h : effect ∈ (tickSession prim ans now ourDht s).effects) :
    ∃ route bytes, effect = .appMessage route bytes ∧
      Outgoing prim ans incoming start p route bytes := by
  unfold tickSession at h
  split at h
  case isTrue =>
    unfold tickEstablished at h
    dsimp only at h
    split at h
    · dsimp only at h
      split at h
      case h_1 blob bytes _ hbytes =>
        obtain rfl := encodeHandshakeMessage_eq_ok hbytes
        rw [List.mem_singleton] at h
        exact ⟨_, _, h, .control rfl rfl (.inr rfl)⟩
      case h_2 => cases h
    · cases h
  case isFalse =>
  unfold tickPending at h
  split at h
  · cases h
  dsimp only at h
  split at h
  · cases h
  split at h
  · split at h
    · cases h
    case h_2 route hroute =>
    split at h
    · cases h
    · cases h
    case h_3 flight _ hflight =>
      split at h
      · cases h
      · rw [List.mem_singleton] at h
        exact ⟨_, _, h, .again session hroute (.inl hflight)⟩
  · cases h

theorem sends_moves (effects : List Effect) (p : Process Secret)
    (h : ∀ effect ∈ effects, ∃ route bytes, effect = .appMessage route bytes ∧
      ∀ sent, Outgoing prim ans incoming start { p with effects := p.effects ++ sent }
        route bytes) :
    Moves prim ans incoming start p { p with effects := p.effects ++ effects } := by
  induction effects using List.reverseRecOn with
  | nil => simpa using Relation.ReflTransGen.refl
  | append_singleton effects effect ih =>
    obtain ⟨route, bytes, rfl, houtgoing⟩ := h effect (by simp)
    have hbefore := ih fun e he => h e (List.mem_append_left _ he)
    have hsend := hbefore.tail (.send (houtgoing effects))
    simpa [Process.ask] using hsend

theorem foldl_submitObservation_moves (peers : List String) (kind : ObservationKind)
    (code : Option Nat) (p : Process Secret) :
    Moves prim ans incoming start p
      (peers.foldl (fun p peer => submitObservation prim p peer kind code) p) := by
  induction peers generalizing p with
  | nil => exact .refl
  | cons peer peers ih => exact .trans (submitObservation_moves peer kind code p) (ih _)

theorem tickSessions_moves (now : UInt64) (p : Process Secret) :
    Moves prim ans incoming start p (tickSessions prim ans now p) := by
  refine .trans (.trans (.tail (sends_moves (p.manager.sessions.entries.flatMap fun e =>
      (tickSession prim ans now p.manager.ourDht e.2).effects) p ?_)
    (.touchAll fun s => tickSession_touched prim ans now p.manager.ourDht s))
      (foldl_removeSession_moves _ _)) (foldl_submitObservation_moves _ _ _ _)
  intro effect heffect
  obtain ⟨⟨peer, s⟩, hmem, heffect⟩ := List.mem_flatMap.mp heffect
  have hsession : p.manager.sessions.lookup peer = some s := AList.mem_lookup_iff.mpr hmem
  have hsends : ∀ sent, ∃ route bytes, effect = .appMessage route bytes ∧
      Outgoing prim ans incoming start { p with effects := p.effects ++ sent } route bytes :=
    fun sent => tickSession_outgoing (p := { p with effects := p.effects ++ sent }) hsession
      heffect
  obtain ⟨route, bytes, heq, -⟩ := hsends []
  refine ⟨route, bytes, heq, fun sent => ?_⟩
  obtain ⟨route', bytes', heq', houtgoing⟩ := hsends sent
  cases heq.symm.trans heq'
  exact houtgoing

theorem tickRestart_moves (now : UInt64) (peer : String) (p : Process Secret) :
    Moves prim ans none start p (tickRestart prim ans now p peer) := by
  unfold tickRestart
  split
  case h_1 => exact .refl
  case h_2 restart _ =>
  split
  · exact .refl
  dsimp only
  obtain ⟨hignored, hignoredDht⟩ := isPeerIgnored_sessions { p.manager with
    pendingRestarts := Function.update p.manager.pendingRestarts peer none } peer now
  split
  case h_1 m hm =>
    rw [hm] at hignored hignoredDht
    exact .single (.bookkeep hignored hignoredDht)
  case h_2 m hm =>
  rw [hm] at hignored hignoredDht
  obtain ⟨hquarantined, hquarantinedDht⟩ := isPeerQuarantined_sessions m peer now
  split
  case h_1 m' hm' =>
    rw [hm'] at hquarantined hquarantinedDht
    exact .single (.bookkeep (hquarantined.trans hignored) (hquarantinedDht.trans hignoredDht))
  case h_2 m' hm' =>
    rw [hm'] at hquarantined hquarantinedDht
    refine .trans ?_ (initiateHandshakeInternal_moves _ _ _ _ _ _)
    exact .single (.bookkeep (hquarantined.trans hignored) (hquarantinedDht.trans hignoredDht))

/-- A tick is a sequence of moves. -/
theorem tick_moves (order : List String) (p : Process Secret) :
    Moves prim ans none start p (tick prim ans order p) := by
  unfold tick
  dsimp only
  refine .trans (.tail (tickSessions_moves (ans.clock 0) p)
    (.bookkeep (m := tickForget (ans.clock 0) (tickSessions prim ans (ans.clock 0) p).manager)
      rfl rfl)) ?_
  generalize ({ tickSessions prim ans (ans.clock 0) p with
    manager := tickForget (ans.clock 0) (tickSessions prim ans (ans.clock 0) p).manager } :
      Process Secret) = q
  induction order generalizing q with
  | nil => exact .refl
  | cons peer order ih => exact .trans (tickRestart_moves _ peer q) (ih _)

end VeilKnit.Handshake
