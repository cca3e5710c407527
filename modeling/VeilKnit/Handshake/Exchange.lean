import VeilKnit.Handshake.Operations

/-!
# When nothing stands in the way

What the handlers do with a message that is welcome: its sender is not blocked, ignored or
quarantined, it is the first flight of its type, and the node can answer.
-/

namespace VeilKnit.Handshake

open Library

variable {Secret : Type} {prim : Primitives Secret} {ans : Answers Secret}
  {msg : HandshakeMessage} {p : Process Secret} {raw : Bytes}

theorem encodeHandshakeMessage_of_short {message : HandshakeMessage}
    (short : message.toJson.length ≤ maxHandshakeMessageBytes) :
    encodeHandshakeMessage message = .ok message.toJson :=
  if_neg (not_lt.mpr short)

/-- Nothing speaks against the sender of a message. -/
structure SenderWelcome (ans : Answers Secret) (p : Process Secret) (peer : String) : Prop where
  other : peer ≠ p.manager.ourDht
  blocked : ans.isReputationBlocked peer = false
  ignored : p.manager.ignoredUntil peer = none
  quarantined : p.manager.quarantinedUntil peer = none

theorem processValidatedMessage_of_welcome (h : SenderWelcome ans p msg.senderDht)
    (type : msg.messageType ≠ handshakeResetMessageType) :
    processValidatedMessage prim ans msg.senderDht msg raw p =
      processUnlessDuplicate prim ans msg raw (upgradeQuickSession msg p) := by
  simp [processValidatedMessage, h.other, h.blocked, type, Manager.isPeerIgnored, h.ignored,
    Manager.isPeerQuarantined, h.quarantined]

/-- Past the reputation check, a message that is no reset is left aside or compared with earlier
flights. -/
theorem processValidatedMessage_of_unblocked
    (blocked : ans.isReputationBlocked msg.senderDht = false)
    (type : msg.messageType ≠ handshakeResetMessageType) :
    ∃ q : Process Secret, q.manager.sessions = p.manager.sessions ∧ q.effects = p.effects ∧
      (processValidatedMessage prim ans msg.senderDht msg raw p).2 =
        if msg.senderDht = p.manager.ourDht ∨
            (p.manager.isPeerIgnored msg.senderDht (ans.clock 0)).1 = true ∨
            (p.manager.isPeerQuarantined msg.senderDht (ans.clock 0)).1 = true then q
        else (processUnlessDuplicate prim ans msg raw (upgradeQuickSession msg q)).2 := by
  unfold processValidatedMessage
  by_cases hown : msg.senderDht = p.manager.ourDht
  · exact ⟨p, rfl, rfl, by simp [hown]⟩
  obtain ⟨hsessions, -⟩ := isPeerIgnored_sessions p.manager msg.senderDht (ans.clock 0)
  obtain ⟨huntil, -⟩ := isPeerIgnored_kept p.manager msg.senderDht (ans.clock 0)
  rcases hignored : p.manager.isPeerIgnored msg.senderDht (ans.clock 0) with ⟨_ | _, m⟩
  case true =>
    rw [hignored] at hsessions
    exact ⟨⟨m, p.effects⟩, hsessions, rfl, by simp [hown, blocked, hignored]⟩
  case false =>
  rw [hignored] at hsessions huntil
  have hcongr : (m.isPeerQuarantined msg.senderDht (ans.clock 0)).1 = _ :=
    isPeerQuarantined_congr huntil
  obtain ⟨hsessions', -⟩ := isPeerQuarantined_sessions m msg.senderDht (ans.clock 0)
  rcases hquarantined : m.isPeerQuarantined msg.senderDht (ans.clock 0) with ⟨quarantined, m'⟩
  rw [hquarantined] at hsessions' hcongr
  refine ⟨⟨m', p.effects⟩, hsessions'.trans hsessions, rfl, ?_⟩
  cases quarantined <;> simp [hown, blocked, hignored, type, hquarantined, ← hcongr]

theorem upgradeQuickSession_of_quick (quick : msg.maintainConnection = false) :
    upgradeQuickSession msg p = p := by
  unfold upgradeQuickSession
  rw [if_neg]
  intro h
  have hgives := h.2
  cases hs : p.session msg.senderDht with
  | none => simp [hs] at hgives
  | some s => simp [hs, givesWay, quick] at hgives

/-! ## First flights -/

variable {q : Process Secret}

theorem processUnlessDuplicate_of_false
    (h : handleDuplicateOrConflictingFlight prim ans msg raw p = (.ok false, q)) :
    processUnlessDuplicate prim ans msg raw p =
      recoverWithReset prim ans msg.senderDht (handleByType prim ans msg raw) q :=
  Fallible.bind_ok h

/-- Where the comparison deals with a message, nothing else is done. -/
theorem processUnlessDuplicate_of_done {result : Except String Bool}
    (h : handleDuplicateOrConflictingFlight prim ans msg raw p = (result, q))
    (done : result ≠ .ok false) : (processUnlessDuplicate prim ans msg raw p).2 = q := by
  unfold processUnlessDuplicate
  cases result with
  | error e => rw [Fallible.bind_error h]
  | ok repeated =>
    cases repeated with
    | false => exact absurd rfl done
    | true =>
      rw [Fallible.bind_ok h]
      rfl

variable {s : HandshakeState Secret}

theorem handleDuplicate_of_first (type : msg.messageType ∈ [1, 2, 3])
    (session : p.session msg.senderDht = some s)
    (first : s.receivedFlights msg.messageType = none) :
    handleDuplicateOrConflictingFlight prim ans msg raw p =
      (.ok false, p.putSession msg.senderDht { s with
        receivedFlights := Function.update s.receivedFlights msg.messageType
          (some (prim.sha256 raw)) }) := by
  unfold handleDuplicateOrConflictingFlight
  rw [if_neg (not_not_intro type), session]
  dsimp only
  rw [first]

/-- A recorded flight that comes again: the kept answer goes out once more, or nothing happens. -/
theorem processUnlessDuplicate_of_recorded
    (type : msg.messageType ∈ [1, 2, 3]) (session : p.session msg.senderDht = some s)
    (recorded : s.receivedFlights msg.messageType = some (prim.sha256 raw)) :
    (processUnlessDuplicate prim ans msg raw p).2 = p ∨
    ∃ cached route, s.cachedReplies msg.messageType = some cached ∧ s.route = some route ∧
      cached.replayCount < maxDuplicateReplyReplays ∧
      (processUnlessDuplicate prim ans msg raw p).2 =
        (p.putSession msg.senderDht (countReplay s msg.messageType cached)).ask
          (.appMessage route cached.flight.bytes) := by
  rcases hrun : handleDuplicateOrConflictingFlight prim ans msg raw p with ⟨result, q⟩
  cases compared_of_eq hrun with
  | apart fresh => cases (fresh type).symm.trans session
  | first session' unseen =>
    cases session.symm.trans session'
    cases unseen.symm.trans recorded
  | @replay s cached route _ session' _ reply hroute few done =>
    cases session.symm.trans session'
    exact .inr ⟨cached, route, reply, hroute, few, processUnlessDuplicate_of_done hrun done⟩
  | silent => exact .inl (processUnlessDuplicate_of_done hrun (by simp))
  | conflict session' recorded' differs =>
    cases session.symm.trans session'
    exact absurd (Option.some.inj (recorded'.symm.trans recorded)) differs

variable {peer : String}

theorem recoverWithReset_of_ok {x : Handler Secret Unit}
    (h : x p = (.ok (), q)) : recoverWithReset prim ans peer x p = (.ok (), q) := by
  simp only [recoverWithReset, h]

theorem handleByType_init (type : msg.messageType = 1) :
    handleByType prim ans msg raw = handleInit prim ans msg raw :=
  if_pos type

/-! ## A type 1 -/

/-- A node counts a type 1. -/
def countInit (now : UInt64) (peer : String) (p : Process Secret) : Process Secret :=
  { p with
    manager := { p.manager with
      inboundInitAttempts := Function.update p.manager.inboundInitAttempts peer
        (Manager.retainRecent (p.manager.inboundInitAttempts peer) now handshakeInitWindowSecs ++
          [now]) } }

/-- The type 1s that a peer has sent lately, with the one that is being handled. -/
def recentInits (now : UInt64) (peer : String) (p : Process Secret) : Nat :=
  (Manager.retainRecent (p.manager.inboundInitAttempts peer) now handshakeInitWindowSecs).length + 1

variable {now : UInt64}

theorem inboundInitIsExcessive_of_few
    (few : recentInits now peer p ≤ maxInboundHandshakeInitsPerWindow) :
    inboundInitIsExcessive prim peer now p = (false, countInit now peer p) := by
  unfold inboundInitIsExcessive
  rw [if_pos]
  · rfl
  · simpa [recentInits] using few

/-- What an answer to a type 1 needs: the parts of the message, the peer's route, and a send
that goes through. -/
structure Answerable (prim : Primitives Secret) (ans : Answers Secret) (ourDht : String)
    (msg : HandshakeMessage) (shared theirChallenge blob bytes : Bytes) : Prop where
  accepted : acceptInit prim (ans.ephemeralSecret msg.senderDht) msg = .ok (shared, theirChallenge)
  fetched : ans.fetchRouteBlob msg.senderDht = .ok blob
  encoded : encodeHandshakeMessage (welcomeAnswer prim ans ourDht msg shared theirChallenge) =
    .ok bytes
  delivered : ans.appMessage blob bytes = .ok ()

theorem handleWelcome_of_answerable {shared theirChallenge blob bytes digest : Bytes}
    (h : Answerable prim ans p.manager.ourDht msg shared theirChallenge blob bytes) :
    handleWelcome prim ans msg digest p =
      (.ok (), (p.ask (.appMessage blob bytes)).putSession msg.senderDht
        (welcomedState prim msg (ans.ephemeralSecret msg.senderDht)
          (ans.randomChallenge msg.senderDht) theirChallenge shared blob bytes digest
          (ans.clock 1))) := by
  simp only [handleWelcome, h.accepted, h.fetched, h.encoded, h.delivered]

/-- With room among the sessions, a type 1 of a peer that has a session is handled. -/
theorem handleInit_of_session
    (few : recentInits (ans.clock 0) msg.senderDht p ≤ maxInboundHandshakeInitsPerWindow)
    (established : p.manager.establishedCount < maxEstablishedHandshakes)
    (total : p.manager.totalCount < maxTotalSessions) (session : (p.session msg.senderDht).isSome) :
    handleInit prim ans msg raw p =
      handleWelcome prim ans msg (prim.sha256 raw) (countInit (ans.clock 0) msg.senderDht p) := by
  have hestablished : ¬ maxEstablishedHandshakes ≤
      (countInit (ans.clock 0) msg.senderDht p).manager.establishedCount := not_le.mpr established
  have htotal : ¬ maxTotalSessions ≤
      (countInit (ans.clock 0) msg.senderDht p).manager.totalCount := not_le.mpr total
  unfold handleInit
  dsimp only
  rw [inboundInitIsExcessive_of_few few]
  dsimp only
  rw [if_neg hestablished, if_neg htotal, if_pos]
  exact session

/-! ## Starting a handshake -/

/-- A node that has room for it, and no established session with the peer, starts a
handshake. -/
theorem initiateHandshakeInternal_of_welcome {target : String}
    {mode : EncryptionMode} {verification maintain : Bool} {blob bytes : Bytes}
    (h : SenderWelcome ans p target)
    (pending : ∀ s, p.session target = some s → s.status ≠ .established)
    (total : p.manager.totalCount < maxTotalSessions)
    (reserved : p.manager.reservePendingSlot true now = (true, p.manager))
    (fetched : ans.fetchRouteBlob target = .ok blob)
    (encoded : encodeHandshakeMessage (initMessage p.manager.ourDht
      (prim.publicKey (ans.ephemeralSecret target)) (ans.randomHandshakeToken target)
      (ans.randomChallenge target) now mode maintain) = .ok bytes)
    (delivered : ans.appMessage blob bytes = .ok ()) :
    initiateHandshakeInternal prim ans now target mode verification maintain p =
      (.ok (), (p.ask (.appMessage blob bytes)).putSession target
        (initiatedState prim ans target blob bytes now mode verification maintain)) := by
  have hpending : (p.session target).any (·.status == .established) = false := by
    cases hs : p.session target with
    | none => rfl
    | some s => simpa using pending s hs
  simp only [initiateHandshakeInternal, Manager.isPeerIgnored, h.ignored,
    Manager.isPeerQuarantined, h.quarantined, h.blocked, hpending, if_neg (not_le.mpr total),
    reserved, sendInit, fetched, encoded, delivered, Bool.false_eq_true, if_false]

end VeilKnit.Handshake
