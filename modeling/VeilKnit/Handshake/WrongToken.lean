import VeilKnit.Handshake.Limits

/-!
# Messages with a wrong token

A reset names the session it ends by its token, and a reset with another token is forged or
late and changes nothing. The other messages are not handled with the same care: a type 2, a
type 3 or a check-in whose token is wrong is an error like any other, and the answer to every
error is to drop the session.
-/

namespace VeilKnit.Handshake

open Library

variable {Secret : Type} {prim : Primitives Secret} {direct : DirectPrimitives}
  {ans : Answers Secret} {p : Process Secret} {msg : HandshakeMessage} {raw : Bytes}
  {s : HandshakeState Secret}

/-! ## What ends a session -/

theorem session_sendProtocolReset (now : UInt64) (peer : String) (p : Process Secret) :
    (sendProtocolReset ans now peer p).2.session peer = none := by
  unfold sendProtocolReset
  dsimp only
  split
  case isTrue => exact AList.lookup_erase _ _
  case isFalse =>
  split
  case h_1 hnone => exact hnone
  case h_2 state _ =>
  have herased : ∀ m : Manager Secret, m.sessions = p.manager.sessions.erase peer →
      (m.scheduleRestartFromState state now).sessions.lookup peer = none := by
    intro m hm
    rw [scheduleRestartFromState_sessions, hm]
    exact AList.lookup_erase _ _
  split
  case h_1 => exact herased _ rfl
  case h_2 =>
    split
    case h_1 => exact herased _ rfl
    case h_2 => exact herased _ rfl

/-- A handler that fails leaves no session. -/
theorem session_recoverWithReset_of_error {peer e : String} {x : Handler Secret Unit}
    {q : Process Secret} (h : x p = (.error e, q)) :
    (recoverWithReset prim ans peer x p).2.session peer = none := by
  simp only [recoverWithReset, h]
  exact session_sendProtocolReset _ _ _

theorem checkWelcomeReply_of_mismatch (mismatch : msg.token ≠ s.token) :
    ∃ e, checkWelcomeReply s msg = .error e := by
  cases hcheck : checkWelcomeReply s msg with
  | error e => exact ⟨e, rfl⟩
  | ok parts => exact absurd (checkWelcomeReply_eq_ok hcheck).2.2.1.symm mismatch

theorem checkFinal_of_mismatch (prim : Primitives Secret) (ourDht : String)
    (mismatch : msg.token ≠ s.token) :
    ∃ e, checkFinal prim ourDht s msg = .error e := by
  unfold checkFinal
  split
  · exact ⟨_, rfl⟩
  · rw [if_pos mismatch.symm]
    exact ⟨_, rfl⟩

/-- A type 2 or type 3 with a wrong token is an error. -/
theorem handleByType_of_mismatch (ans : Answers Secret) (raw : Bytes)
    (type : msg.messageType ∈ [2, 3])
    (session : p.session msg.senderDht = some s) (mismatch : msg.token ≠ s.token) :
    ∃ e, handleByType prim ans msg raw p = (.error e, p) := by
  rcases List.mem_pair.mp type with htype | htype
  · obtain ⟨e, he⟩ := checkWelcomeReply_of_mismatch mismatch
    refine ⟨e, ?_⟩
    simp [handleByType, htype, handleWelcomeReply, session, he]
  · obtain ⟨e, he⟩ := checkFinal_of_mismatch prim p.manager.ourDht mismatch
    refine ⟨e, ?_⟩
    simp [handleByType, htype, handleFinal, session, he]

/-! ## What spares a session -/

/-- The message repeats the flight of its type that the session has recorded, and the answer
to that flight is not sent again. -/
structure SilentRepeat (prim : Primitives Secret) (s : HandshakeState Secret)
    (msg : HandshakeMessage) (raw : Bytes) : Prop where
  recorded : s.receivedFlights msg.messageType = some (prim.sha256 raw)
  unanswered : ∀ cached route, s.cachedReplies msg.messageType = some cached →
    s.route = some route → maxDuplicateReplyReplays ≤ cached.replayCount

/-- Counting a replay shows in the session. -/
theorem countReplay_ne {type : UInt8} {cached : CachedHandshakeReply}
    (hcached : s.cachedReplies type = some cached) : countReplay s type cached ≠ s := by
  intro h
  have hreplies : Function.update s.cachedReplies type
      (some { cached with replayCount := cached.replayCount + 1 }) type = s.cachedReplies type :=
    congrFun (congrArg HandshakeState.cachedReplies h) type
  rw [Function.update_self, hcached] at hreplies
  have hcount := congrArg CachedHandshakeReply.replayCount (Option.some.inj hreplies)
  simp at hcount

theorem session_processUnlessDuplicate (type : msg.messageType ∈ [2, 3])
    (session : p.session msg.senderDht = some s) (mismatch : msg.token ≠ s.token) :
    (processUnlessDuplicate prim ans msg raw p).2.session msg.senderDht = some s ↔
      SilentRepeat prim s msg raw := by
  rcases hrun : handleDuplicateOrConflictingFlight prim ans msg raw p with ⟨result, q⟩
  cases compared_of_eq hrun with
  | apart fresh => cases (fresh (List.mem_cons_of_mem _ type)).symm.trans session
  | @first s' session' unseen =>
    cases session.symm.trans session'
    obtain ⟨noted, hnoted⟩ : ∃ noted, noted = ({ s with
      receivedFlights := Function.update s.receivedFlights msg.messageType
        (some (prim.sha256 raw)) } : HandshakeState Secret) := ⟨_, rfl⟩
    rw [← hnoted] at hrun
    have hsession : (p.putSession msg.senderDht noted).session msg.senderDht = some noted := by
      simp
    have hmismatch : msg.token ≠ noted.token := by
      rw [hnoted]
      exact mismatch
    obtain ⟨e, he⟩ := handleByType_of_mismatch ans raw type hsession hmismatch
    rw [processUnlessDuplicate_of_false hrun, session_recoverWithReset_of_error he]
    exact iff_of_false nofun fun h => by cases unseen.symm.trans h.recorded
  | replay session' _ reply hroute few done =>
    cases session.symm.trans session'
    rw [processUnlessDuplicate_of_done hrun done, Process.session_ask,
      Process.session_putSession, if_pos rfl]
    exact iff_of_false (fun h => countReplay_ne reply (Option.some.inj h))
      fun h => not_lt.mpr (h.unanswered _ _ reply hroute) few
  | silent session' recorded unanswered =>
    cases session.symm.trans session'
    rw [processUnlessDuplicate_of_done hrun (by simp)]
    exact iff_of_true session ⟨recorded, unanswered⟩
  | conflict session' recorded differs done =>
    cases session.symm.trans session'
    rw [processUnlessDuplicate_of_done hrun done, session_sendProtocolReset]
    exact iff_of_false nofun fun h =>
      differs (Option.some.inj (recorded.symm.trans h.recorded))

/-! ## Check-ins and resets -/

/-- A check-in with a wrong token ends an established session. -/
theorem session_processUnlessDuplicate_checkin (type : msg.messageType = 5)
    (session : p.session msg.senderDht = some s) (mismatch : msg.token ≠ s.token) :
    (processUnlessDuplicate prim ans msg raw p).2.session msg.senderDht = some s ↔
      s.status ≠ .established := by
  have hfirst : handleDuplicateOrConflictingFlight prim ans msg raw p = (.ok false, p) := by
    unfold handleDuplicateOrConflictingFlight
    rw [if_pos]
    simp [type]
  rw [processUnlessDuplicate_of_false hfirst]
  by_cases hstatus : s.status = .established
  case pos =>
    have herror : handleByType prim ans msg raw p = (.error "Check-in token mismatch", p) := by
      simp [handleByType, type, handleCheckin, session, hstatus, mismatch.symm]
    rw [session_recoverWithReset_of_error herror]
    simp [hstatus]
  case neg =>
    have hok : handleByType prim ans msg raw p = (.ok (), p) := by
      simp [handleByType, type, handleCheckin, session, hstatus]
    rw [recoverWithReset_of_ok hok]
    exact iff_of_true session hstatus

theorem handleProtocolReset_of_mismatch {m : Manager Secret} {now : UInt64}
    (session : m.sessions.lookup msg.senderDht = some s) (mismatch : msg.token ≠ s.token) :
    handleProtocolReset now msg m = m := by
  simp [handleProtocolReset, session, mismatch.symm]

/-! ## All messages -/

/-- The messages with a wrong token that leave the session of their sender alone. -/
inductive Tolerated (prim : Primitives Secret) (ans : Answers Secret) (p : Process Secret)
    (msg : HandshakeMessage) (raw : Bytes) (s : HandshakeState Secret) : Prop
  | own (h : msg.senderDht = p.manager.ourDht)
  | ignored (blocked : ans.isReputationBlocked msg.senderDht = false)
      (h : (p.manager.isPeerIgnored msg.senderDht (ans.clock 0)).1 = true)
  | reset (blocked : ans.isReputationBlocked msg.senderDht = false)
      (type : msg.messageType = handshakeResetMessageType)
  | quarantined (blocked : ans.isReputationBlocked msg.senderDht = false)
      (h : (p.manager.isPeerQuarantined msg.senderDht (ans.clock 0)).1 = true)
  | checkin (blocked : ans.isReputationBlocked msg.senderDht = false)
      (type : msg.messageType = 5) (pending : s.status ≠ .established)
  | repeated (blocked : ans.isReputationBlocked msg.senderDht = false)
      (type : msg.messageType ∈ [2, 3]) (silent : SilentRepeat prim s msg raw)

theorem not_tolerated_of_blocked (other : msg.senderDht ≠ p.manager.ourDht)
    (blocked : ans.isReputationBlocked msg.senderDht = true) :
    ¬ Tolerated prim ans p msg raw s := by
  intro h
  cases h
  case own h => exact other h
  all_goals simp_all only [reduceCtorEq]

/-- For a sender that is let in, only the type and the record of flights matter. -/
theorem tolerated_iff_of_admitted (other : msg.senderDht ≠ p.manager.ourDht)
    (blocked : ans.isReputationBlocked msg.senderDht = false)
    (ignored : (p.manager.isPeerIgnored msg.senderDht (ans.clock 0)).1 = false)
    (type : msg.messageType ≠ handshakeResetMessageType)
    (quarantined : (p.manager.isPeerQuarantined msg.senderDht (ans.clock 0)).1 = false) :
    Tolerated prim ans p msg raw s ↔ msg.messageType = 5 ∧ s.status ≠ .established ∨
        msg.messageType ∈ [2, 3] ∧ SilentRepeat prim s msg raw := by
  constructor
  · intro h
    cases h with
    | own h => exact absurd h other
    | ignored _ h => exact Bool.noConfusion (ignored.symm.trans h)
    | reset _ h => exact absurd h type
    | quarantined _ h => exact Bool.noConfusion (quarantined.symm.trans h)
    | checkin _ htype hpending => exact .inl ⟨htype, hpending⟩
    | repeated _ htype hsilent => exact .inr ⟨htype, hsilent⟩
  · intro h
    rcases h with ⟨htype, hpending⟩ | ⟨htype, hsilent⟩
    · exact .checkin blocked htype hpending
    · exact .repeated blocked htype hsilent

theorem session_processValidatedMessage (session : p.session msg.senderDht = some s)
    (type : msg.messageType ∈ [2, 3, handshakeResetMessageType, 5])
    (mismatch : msg.token ≠ s.token) :
    (processValidatedMessage prim ans msg.senderDht msg raw p).2.session msg.senderDht = some s ↔
      Tolerated prim ans p msg raw s := by
  have hnotInit : msg.messageType ≠ 1 := by
    intro h
    rw [h] at type
    revert type
    decide
  by_cases hown : msg.senderDht = p.manager.ourDht
  case pos =>
    unfold processValidatedMessage
    rw [if_neg (by simp), if_pos hown]
    exact iff_of_true session (.own hown)
  case neg =>
  cases hblocked : ans.isReputationBlocked msg.senderDht with
  | true =>
    unfold processValidatedMessage
    rw [if_neg (by simp), if_neg hown, if_pos hblocked, Process.session_removeSession, if_pos rfl]
    exact iff_of_false nofun (not_tolerated_of_blocked hown hblocked)
  | false =>
  by_cases hreset : msg.messageType = handshakeResetMessageType
  case pos =>
    refine iff_of_true ?_ (.reset hblocked hreset)
    obtain ⟨hsessions, -⟩ := isPeerIgnored_sessions p.manager msg.senderDht (ans.clock 0)
    have hsession := (congrArg (AList.lookup msg.senderDht) hsessions).trans session
    unfold processValidatedMessage
    simp only [hown, hblocked, hreset, if_false, if_true, ne_eq, not_true, and_false,
      Bool.false_eq_true]
    split
    case h_1 m hm =>
      rw [hm] at hsession
      exact hsession
    case h_2 m hm =>
      rw [hm] at hsession
      rw [handleProtocolReset_of_mismatch hsession mismatch]
      exact hsession
  case neg =>
  obtain ⟨q, hsessions, -, hresult⟩ := processValidatedMessage_of_unblocked (p := p) hblocked hreset
  have hsession : q.session msg.senderDht = some s :=
    (congrArg (AList.lookup _) hsessions).trans session
  rw [hresult]
  split
  case isTrue hguard =>
    refine iff_of_true hsession ?_
    rcases hguard with hguard | hguard | hguard
    · exact absurd hguard hown
    · exact .ignored hblocked hguard
    · exact .quarantined hblocked hguard
  case isFalse hguard =>
  simp only [not_or, Bool.not_eq_true] at hguard
  have hupgrade : upgradeQuickSession msg q = q := if_neg fun h => hnotInit h.1
  rw [hupgrade, tolerated_iff_of_admitted hown hblocked hguard.2.1 hreset hguard.2.2]
  by_cases hcheckin : msg.messageType = 5
  case pos =>
    rw [session_processUnlessDuplicate_checkin hcheckin hsession mismatch]
    simp [hcheckin]
  case neg =>
    have hflight : msg.messageType ∈ [2, 3] := by
      simp only [List.mem_cons, List.not_mem_nil, or_false] at type ⊢
      tauto
    rw [session_processUnlessDuplicate hflight hsession mismatch]
    simp [hcheckin, hflight]

/-- A message of the types 2 to 5 whose token is not that of the sender's session leaves the
session as it is exactly if it is tolerated. -/
theorem wrong_token_spares_session_iff {data : Bytes}
    (inbound : (Operation.appMessage data).incoming prim ans = some (msg, raw))
    (type : msg.messageType ∈ [2, 3, handshakeResetMessageType, 5])
    (session : p.session msg.senderDht = some s) (mismatch : msg.token ≠ s.token) :
    (perform prim direct ans p (.appMessage data)).session msg.senderDht = some s ↔
      Tolerated prim ans p msg raw s := by
  unfold Operation.incoming at inbound
  dsimp only at inbound
  split at inbound
  case isTrue => cases inbound
  case isFalse hshort =>
  split at inbound
  case h_1 message hdecoded =>
    cases inbound
    rw [perform_appMessage (not_lt.mp hshort) hdecoded]
    exact session_processValidatedMessage session type mismatch
  case h_2 => cases inbound

section Sample

/-- The type 1 of a peer. -/
def initOfA : HandshakeMessage :=
  initMessage "a" (List.replicate 32 2) "t" (List.replicate 32 4) 1000 .aes256Gcm false

/-- The peer's type 3, in answer to the challenge of the node. -/
def finalOfA : HandshakeMessage :=
  finalMessage "a" (List.replicate 32 2) "t"
    (createResponse Sample.primitives (List.replicate 32 6) "a" "b" (List.replicate 32 5)) 1000
    false

/-- A message for another session than the one that the node holds. -/
def stray (type : UInt8) : HandshakeMessage where
  version := versionId
  messageType := type
  senderDht := "a"
  senderPubkey := []
  token := "u"
  challenge := none
  signature := none
  timestamp := 1000
  encryptionMode := none
  maintainConnection := false

def nodeGets (p : Process UInt8) (msg : HandshakeMessage) : Process UInt8 :=
  perform Sample.primitives Sample.direct (Sample.answers 3 5 "t") p (.appMessage msg.toJson)

/-- The node after the handshake. -/
def establishedNode : Process UInt8 := nodeGets (nodeGets ⟨.new "b", []⟩ initOfA) finalOfA

theorem nodeGets_reachable {p : Process UInt8} (msg : HandshakeMessage)
    (reached : (managerSystem Sample.primitives Sample.direct).Reachable p) :
    (managerSystem Sample.primitives Sample.direct).Reachable (nodeGets p msg) :=
  reached.next (.appMessage msg.toJson, Sample.answers 3 5 "t") rfl

theorem establishedNode_reachable :
    (managerSystem Sample.primitives Sample.direct).Reachable establishedNode :=
  nodeGets_reachable finalOfA (nodeGets_reachable initOfA (.start ⟨"b", rfl⟩))

theorem establishedNode_session :
    ∃ s, establishedNode.session "a" = some s ∧ s.status = .established ∧ "u" ≠ s.token := by
  have hany : (establishedNode.session "a").any
      (fun s => s.status == .established && s.token == "t") = true := by decide +kernel
  cases hs : establishedNode.session "a" with
  | none => simp [hs] at hany
  | some s =>
    simp only [hs, Option.any_some, Bool.and_eq_true, beq_iff_eq] at hany
    refine ⟨s, rfl, hany.1, ?_⟩
    rw [hany.2]
    decide

/-- A check-in for another session ends an established one. -/
theorem stray_checkin_ends_session :
    ∃ p s, (managerSystem Sample.primitives Sample.direct).Reachable p ∧
      (Operation.appMessage (stray 5).toJson).incoming Sample.primitives
        (Sample.answers 3 5 "t") = some (stray 5, (stray 5).toJson) ∧
      p.session (stray 5).senderDht = some s ∧ s.status = .established ∧
      (stray 5).token ≠ s.token ∧
      (perform Sample.primitives Sample.direct (Sample.answers 3 5 "t") p
        (.appMessage (stray 5).toJson)).session (stray 5).senderDht = none := by
  obtain ⟨s, hs, hestablished, htoken⟩ := establishedNode_session
  exact ⟨establishedNode, s, establishedNode_reachable, by decide +kernel, hs, hestablished,
    htoken, by decide +kernel⟩

/-- A reset for another session does nothing. -/
theorem stray_reset_spares_session : ∃ s, establishedNode.session "a" = some s ∧
      (nodeGets establishedNode (stray 4)).session "a" = some s := by
  obtain ⟨s, hs, -, htoken⟩ := establishedNode_session
  have hinbound : (Operation.appMessage (stray 4).toJson).incoming Sample.primitives
      (Sample.answers 3 5 "t") = some (stray 4, (stray 4).toJson) := by decide +kernel
  have hkept : (nodeGets establishedNode (stray 4)).session "a" = some s :=
    (wrong_token_spares_session_iff hinbound (by decide) hs htoken).mpr (.reset rfl rfl)
  exact ⟨s, hs, hkept⟩

end Sample

end VeilKnit.Handshake
