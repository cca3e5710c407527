import VeilKnit.Handshake.WrongToken

/-!
# Flights that come twice

A flight that a session has recorded is recognised by its digest when it comes again. The answer
that is kept for it goes out once more, a few times, and nothing else happens. Two guards stand
before the comparison: a sender that is blocked by now loses its session, and so does a quick
session for a type 1 that asks for a maintained one, whether or not it is a repetition.
-/

namespace VeilKnit.Handshake

open Library

variable {Secret : Type} {prim : Primitives Secret} {ans : Answers Secret} {p : Process Secret}
  {msg : HandshakeMessage} {raw : Bytes} {s : HandshakeState Secret}

/-- The message is the recorded flight of its type, byte for byte. -/
structure Repeats (prim : Primitives Secret) (s : HandshakeState Secret) (msg : HandshakeMessage)
    (raw : Bytes) : Prop where
  type : msg.messageType ∈ [1, 2, 3]
  recorded : s.receivedFlights msg.messageType = some (prim.sha256 raw)

/-- The node gets the same message again and again. -/
def processRepeatedly (prim : Primitives Secret) (msg : HandshakeMessage) (raw : Bytes)
    (answers : List (Answers Secret)) (p : Process Secret) : Process Secret :=
  answers.foldl (fun q ans => (processValidatedMessage prim ans msg.senderDht msg raw q).2) p

/-- How often the answer to a flight has gone out again. -/
def replays (s : HandshakeState Secret) (type : UInt8) : UInt8 :=
  (s.cachedReplies type).elim 0 (·.replayCount)

/-- The session, with that number changed. -/
def withReplays (s : HandshakeState Secret) (type count : UInt8) : HandshakeState Secret :=
  { s with
    cachedReplies := Function.update s.cachedReplies type
      ((s.cachedReplies type).map ({ · with replayCount := count })) }

theorem withReplays_replays (s : HandshakeState Secret) (type : UInt8) :
    withReplays s type (replays s type) = s := by
  have hsame : (s.cachedReplies type).map ({ · with replayCount := replays s type }) =
      s.cachedReplies type := by
    unfold replays
    cases s.cachedReplies type <;> rfl
  rw [withReplays, hsame, Function.update_eq_self]

theorem withReplays_countReplay {cached : CachedHandshakeReply} {type : UInt8}
    (hcached : s.cachedReplies type = some cached) (count : UInt8) :
    withReplays (countReplay s type cached) type count = withReplays s type count := by
  simp [withReplays, countReplay, hcached]

/-- One repetition. -/
theorem processValidatedMessage_repeated (session : p.session msg.senderDht = some s)
    (repeated : Repeats prim s msg raw) (unblocked : ans.isReputationBlocked msg.senderDht = false)
    (stays : msg.messageType = 1 → givesWay msg s = false) :
    ∃ q : Process Secret, (∀ peer, q.session peer = p.session peer) ∧ q.effects = p.effects ∧
      ((processValidatedMessage prim ans msg.senderDht msg raw p).2 = q ∨
      ∃ cached route, s.cachedReplies msg.messageType = some cached ∧ s.route = some route ∧
        cached.replayCount < maxDuplicateReplyReplays ∧
        (processValidatedMessage prim ans msg.senderDht msg raw p).2 =
          (q.putSession msg.senderDht (countReplay s msg.messageType cached)).ask
            (.appMessage route cached.flight.bytes)) := by
  have htype : msg.messageType ≠ handshakeResetMessageType := by
    intro h
    have hmem := repeated.type
    rw [h] at hmem
    revert hmem
    decide
  obtain ⟨q, hsessions, heffects, hresult⟩ := processValidatedMessage_of_unblocked
    (p := p) unblocked htype
  have hsession : ∀ peer, q.session peer = p.session peer :=
    fun peer => congrArg (AList.lookup peer) hsessions
  refine ⟨q, hsession, heffects, ?_⟩
  rw [hresult]
  split
  · exact .inl rfl
  have hupgrade : upgradeQuickSession msg q = q := by
    refine if_neg fun h => ?_
    rw [hsession, session, Option.any_some, stays h.1] at h
    exact Bool.noConfusion h.2
  rw [hupgrade]
  exact processUnlessDuplicate_of_recorded repeated.type ((hsession _).trans session)
    repeated.recorded

/-- Repetitions change nothing of a session but the count of answers that went out again, and
nothing of the others; only the kept answer goes out, three times at most. -/
theorem duplicates_only_replay (session : p.session msg.senderDht = some s)
    (repeated : Repeats prim s msg raw) (answers : List (Answers Secret))
    (unblocked : ∀ ans ∈ answers, ans.isReputationBlocked msg.senderDht = false)
    (stays : msg.messageType = 1 → givesWay msg s = false) :
    ∃ count new,
      (∀ peer, (processRepeatedly prim msg raw answers p).session peer =
        if peer = msg.senderDht then some (withReplays s msg.messageType count)
        else p.session peer) ∧
      (processRepeatedly prim msg raw answers p).effects = p.effects ++ new ∧
      new.length ≤ maxDuplicateReplyReplays.toNat - (replays s msg.messageType).toNat ∧
      ∀ effect ∈ new, ∃ cached route, s.cachedReplies msg.messageType = some cached ∧
        s.route = some route ∧ effect = .appMessage route cached.flight.bytes := by
  induction answers generalizing p s with
  | nil =>
    refine ⟨replays s msg.messageType, [], fun peer => ?_, (List.append_nil _).symm,
      Nat.zero_le _, nofun⟩
    rw [withReplays_replays]
    split
    case isTrue hpeer => exact hpeer ▸ session
    case isFalse => rfl
  | cons ans answers ih =>
    have hfold : processRepeatedly prim msg raw (ans :: answers) p = processRepeatedly prim msg raw
      answers (processValidatedMessage prim ans msg.senderDht msg raw p).2 := rfl
    have hrest := fun ans hans => unblocked ans (List.mem_cons_of_mem _ hans)
    obtain ⟨q, hsession, heffects, hsilent | ⟨cached, route, hcached, hroute, hfew, hreplay⟩⟩ :=
      processValidatedMessage_repeated session repeated (unblocked ans List.mem_cons_self) stays
    · rw [hfold, hsilent, ← heffects]
      simp only [← hsession]
      exact ih ((hsession _).trans session) repeated hrest stays
    have hcounted : (countReplay s msg.messageType cached).cachedReplies msg.messageType =
        some { cached with replayCount := cached.replayCount + 1 } := Function.update_self _ _ _
    have hput : ((q.putSession msg.senderDht (countReplay s msg.messageType cached)).ask
        (.appMessage route cached.flight.bytes)).session msg.senderDht = some _ :=
      (Process.session_putSession _ _ _ _).trans (if_pos rfl)
    obtain ⟨count, new, hothers, hnew, hlength, hanswers⟩ :=
      ih hput ⟨repeated.type, repeated.recorded⟩ hrest stays
    rw [hfold, hreplay]
    refine ⟨count, .appMessage route cached.flight.bytes :: new, fun peer => ?_, ?_, ?_, ?_⟩
    · rw [hothers, Process.session_ask, Process.session_putSession, hsession,
        withReplays_countReplay hcached]
      split <;> rfl
    · rw [hnew, Process.effects_ask, Process.effects_putSession, heffects, List.append_assoc]
      rfl
    · have hmax : maxDuplicateReplyReplays.toNat = 3 := rfl
      have hlt := UInt8.lt_iff_toNat_lt.mp hfew
      have hsum : (cached.replayCount + 1).toNat = cached.replayCount.toNat + 1 := by
        rw [UInt8.toNat_add, UInt8.toNat_one, Nat.mod_eq_of_lt (by omega)]
      rw [replays, hcounted] at hlength
      rw [replays, hcached]
      simp only [Option.elim, List.length_cons] at hlength ⊢
      omega
    · intro effect heffect
      rcases List.mem_cons.mp heffect with rfl | heffect
      · exact ⟨cached, route, hcached, hroute, rfl⟩
      · obtain ⟨again, route', hagain, hroute', heq⟩ := hanswers effect heffect
        cases hcounted.symm.trans hagain
        exact ⟨cached, route', hcached, hroute', heq⟩

section Sample

/-- The type 1 of a peer, for a maintained session. -/
def maintainedInit : HandshakeMessage := { initOfA with maintainConnection := true }

/-- A quick session that has recorded a type 1 for a maintained one. -/
def recordedSession : HandshakeState UInt8 :=
  { initiatedState Sample.primitives (Sample.answers 3 5 "t") "a" [] [] 1000 .aes256Gcm false
      false with
    status := .established
    receivedFlights _ := some (Sample.primitives.sha256 maintainedInit.toJson) }

def recordedNode : Process UInt8 :=
  (⟨.new "b", []⟩ : Process UInt8).putSession "a" recordedSession

/-- A repetition ends the session of a blocked sender and of one that asks for a maintained
session. -/
theorem duplicate_ends_session :
    recordedNode.session "a" = some recordedSession ∧ recordedSession.status = .established ∧
    Repeats Sample.primitives recordedSession maintainedInit maintainedInit.toJson ∧
    (processValidatedMessage Sample.primitives
      { Sample.answers 3 5 "t" with isReputationBlocked _ := true } "a" maintainedInit
      maintainedInit.toJson recordedNode).2.session "a" = none ∧
    ((processValidatedMessage Sample.primitives (Sample.answers 3 5 "t") "a" maintainedInit
      maintainedInit.toJson recordedNode).2.session "a").all (·.status != .established) := by
  refine ⟨rfl, rfl, ⟨by decide, rfl⟩, AList.lookup_erase _ _, ?_⟩
  decide +kernel

theorem duplicates_only_replay_final :
    ∃ count, (processRepeatedly Sample.primitives (stray 3) maintainedInit.toJson
      [Sample.answers 3 5 "t"] recordedNode).session "a" =
        some (withReplays recordedSession 3 count) := by
  have hunblocked : ∀ ans ∈ [Sample.answers 3 5 "t"], ans.isReputationBlocked "a" = false := by
    intro ans h
    obtain rfl := List.mem_singleton.mp h
    rfl
  have hrepeated : Repeats Sample.primitives recordedSession (stray 3) maintainedInit.toJson :=
    ⟨by decide, rfl⟩
  have hsession : recordedNode.session (stray 3).senderDht = some recordedSession := rfl
  obtain ⟨count, new, hsessions, -⟩ := duplicates_only_replay hsession hrepeated
    [Sample.answers 3 5 "t"] hunblocked nofun
  exact ⟨count, hsessions "a"⟩

end Sample

end VeilKnit.Handshake
