import VeilKnit.Handshake.Forgetting
import VeilKnit.Handshake.Limits

/-!
# The books follow the manager

Every step of a manager is work on its books, whatever peers send and owners ask for. So what
holds of the books in every run holds of the manager: what it remembers of its peers comes from
what came of them.
-/

namespace VeilKnit.Handshake

open Library

variable {Secret : Type} {prim : Primitives Secret} {direct : DirectPrimitives}
  {ans : Answers Secret} {start : Memory} {p : Process Secret}

/-- Work leads from a memory to books that describe a process. -/
def Followed (start : Memory) (p : Process Secret) : Prop :=
  ∀ isRecordKey isBlocked ourDht, ∃ m,
    (memorySystem Secret isRecordKey isBlocked ourDht).Leads start m ∧ m.books.Describes p.manager

namespace Followed

variable (h : Followed start p)

include h

theorem work (work : Work Secret) {q : Process Secret}
    (hwork : ∀ isRecordKey isBlocked ourDht (m : Memory), m.books.Describes p.manager →
      (m.step isRecordKey isBlocked ourDht work).books.Describes q.manager) : Followed start q := by
  intro isRecordKey isBlocked ourDht
  obtain ⟨m, hleads, hbooks⟩ := h isRecordKey isBlocked ourDht
  exact ⟨_, hleads.tail ⟨work, rfl⟩, hwork _ _ _ m hbooks⟩

theorem withSessions (sessions : Sessions Secret) (effects : List Effect) :
    Followed start ⟨{ p.manager with sessions := sessions }, effects⟩ := by
  intro isRecordKey isBlocked ourDht
  obtain ⟨m, hleads, hbooks⟩ := h isRecordKey isBlocked ourDht
  exact ⟨m, hleads, hbooks.withSessions sessions⟩

variable {m : Manager Secret} {now : UInt64}

theorem reservePendingSlot {isInitiator room : Bool}
    (hm : p.manager.reservePendingSlot isInitiator now = (room, m)) :
    Followed start { p with manager := m } := by
  intro isRecordKey isBlocked ourDht
  obtain ⟨memory, hleads, hbooks⟩ := h isRecordKey isBlocked ourDht
  have hkept := hbooks.reservePendingSlot isInitiator now
  rw [hm] at hkept
  exact ⟨memory, hleads, hkept⟩

theorem isPeerIgnored {peer : String} {ignored : Bool}
    (hm : p.manager.isPeerIgnored peer now = (ignored, m)) :
    Followed start { p with manager := m } := by
  refine h.work (.lookIgnored peer now) fun _ _ _ memory hbooks => ?_
  obtain ⟨_, b', m', hb, hm', hlook⟩ := hbooks.isPeerIgnored peer now
  cases hm.symm.trans hm'
  change (memory.books.isPeerIgnored peer now).2.Describes m
  rwa [hb]

theorem isPeerQuarantined {peer : String} {quarantined : Bool}
    (hm : p.manager.isPeerQuarantined peer now = (quarantined, m)) :
    Followed start { p with manager := m } := by
  refine h.work (.lookQuarantined peer now) fun _ _ _ memory hbooks => ?_
  obtain ⟨_, b', m', hb, hm', hlook⟩ := hbooks.isPeerQuarantined peer now
  cases hm.symm.trans hm'
  change (memory.books.isPeerQuarantined peer now).2.Describes m
  rwa [hb]

theorem sendProtocolReset (now : UInt64) (peer : String) :
    Followed start (Handshake.sendProtocolReset ans now peer p).2 :=
  h.work (.sendReset peer (p.session peer) now) fun _ _ _ _ hbooks =>
    hbooks.sendProtocolReset ans peer now p.effects

theorem handleDuplicateOrConflictingFlight {msg : HandshakeMessage} {raw : Bytes}
    {result : Except String Bool} {q : Process Secret}
    (hq : Handshake.handleDuplicateOrConflictingFlight prim ans msg raw p = (result, q)) :
    Followed start q := by
  cases compared_of_eq hq with
  | apart => exact h
  | first => exact h.withSessions _ _
  | replay => exact h.withSessions _ _
  | silent => exact h
  | conflict => exact h.sendProtocolReset _ _

theorem handleWelcome (msg : HandshakeMessage) (digest : Bytes) :
    Followed start (Handshake.handleWelcome prim ans msg digest p).2 := by
  unfold Handshake.handleWelcome
  dsimp only
  repeat' split
  all_goals first | exact h | exact h.withSessions _ _

theorem handleInit (msg : HandshakeMessage) (raw : Bytes) :
    Followed start (Handshake.handleInit prim ans msg raw p).2 := by
  have hcounted : Followed start (inboundInitIsExcessive prim msg.senderDht (ans.clock 0) p).2 :=
    h.work (.inboundInit msg.senderDht (ans.clock 0)) fun _ _ _ _ hbooks =>
      (hbooks.inboundInitIsExcessive prim msg.senderDht (ans.clock 0) p.effects).2
  unfold Handshake.handleInit
  dsimp only
  split
  case h_1 q hq => rwa [hq] at hcounted
  case h_2 q hq =>
  rw [hq] at hcounted
  split
  · exact hcounted
  split
  · exact hcounted
  split
  · exact hcounted.handleWelcome _ _
  split
  case h_1 m hm => exact hcounted.reservePendingSlot hm
  case h_2 m hm => exact (hcounted.reservePendingSlot hm).handleWelcome _ _

theorem handleByType (msg : HandshakeMessage) (raw : Bytes) :
    Followed start (Handshake.handleByType prim ans msg raw p).2 := by
  unfold Handshake.handleByType
  split
  · exact h.handleInit msg raw
  -- The other handlers write to the sessions alone.
  repeat' split
  all_goals
    try simp only [handleWelcomeReply, handleFinal, handleCheckin]
    repeat' split
    all_goals first | exact h | exact h.withSessions _ _

theorem processUnlessDuplicate (msg : HandshakeMessage) (raw : Bytes) :
    Followed start (Handshake.processUnlessDuplicate prim ans msg raw p).2 := by
  unfold Handshake.processUnlessDuplicate
  rcases hdone : Handshake.handleDuplicateOrConflictingFlight prim ans msg raw p with ⟨e | done, q⟩
  · rw [Fallible.bind_error hdone]
    exact h.handleDuplicateOrConflictingFlight hdone
  rw [Fallible.bind_ok hdone]
  have hcompared := h.handleDuplicateOrConflictingFlight hdone
  cases done with
  | true => exact hcompared
  | false =>
    have hhandled : Followed start (Handshake.handleByType prim ans msg raw q).2 :=
      hcompared.handleByType msg raw
    change Followed start (recoverWithReset prim ans msg.senderDht _ q).2
    unfold recoverWithReset
    -- A failed flight is answered with a reset, and counted if its challenge was wrong.
    split
    case h_1 q' hq => rwa [hq] at hhandled
    case h_2 e q' hq =>
      rw [hq] at hhandled
      refine Followed.sendProtocolReset ?_ _ _
      split
      · exact hhandled.work (.wrongChallenge msg.senderDht (ans.clock 4)) fun _ _ _ _ hbooks =>
          hbooks.recordWrongChallenge prim msg.senderDht (ans.clock 4) q'.effects
      · exact hhandled

theorem processValidatedMessage (sender : String) (msg : HandshakeMessage) (raw : Bytes) :
    Followed start (Handshake.processValidatedMessage prim ans sender msg raw p).2 := by
  unfold Handshake.processValidatedMessage
  dsimp only
  split
  · exact h
  split
  · exact h
  split
  · exact h.withSessions _ _
  split
  case h_1 m hm => exact h.isPeerIgnored hm
  case h_2 m hm =>
  have hignored := h.isPeerIgnored hm
  split
  · exact hignored.work (.protocolReset msg.senderDht msg.token
      (m.sessions.lookup msg.senderDht) (ans.clock 1)) fun _ _ _ _ hbooks =>
        hbooks.handleProtocolReset (ans.clock 1) msg
  split
  case h_1 m' hm' => exact hignored.isPeerQuarantined hm'
  case h_2 m' hm' =>
  refine processUnlessDuplicate ?_ msg raw
  unfold upgradeQuickSession
  split
  · exact (hignored.isPeerQuarantined hm').withSessions _ _
  · exact hignored.isPeerQuarantined hm'

theorem initiateHandshakeInternal (now : UInt64) (target : String) (mode : EncryptionMode)
    (verification maintain : Bool) :
    Followed start (Handshake.initiateHandshakeInternal prim ans now target mode verification
      maintain p).2 :=
  h.work (.initiate target now) fun _ _ _ _ hbooks =>
    hbooks.initiateHandshakeInternal prim ans now target mode verification maintain p.effects

theorem perform (op : Operation) : Followed start (Handshake.perform prim direct ans p op) := by
  cases op with
  | initiateHandshake target => exact h.initiateHandshakeInternal _ _ _ _ _
  | initiateVerificationHandshake target => exact h.initiateHandshakeInternal _ _ _ _ _
  | initiateHandshakeWithMode target mode => exact h.initiateHandshakeInternal _ _ _ _ _
  | initiatePersistentHandshake target =>
    unfold Handshake.perform initiatePersistentHandshake
    dsimp only
    split
    · exact h
    refine initiateHandshakeInternal ?_ _ _ _ _ _
    split
    · exact h.withSessions _ _
    · exact h
  | tick order =>
    exact h.work (.tick (ans.clock 0) (order.map fun peer => (peer, ans.restartClock peer)))
      fun _ _ _ _ hbooks => hbooks.tick prim ans order p.effects
  | appMessage data =>
    change Followed start (handleAppMessage prim direct ans data p)
    unfold handleAppMessage
    split
    · exact h
    split
    · exact h.processValidatedMessage _ _ _
    split
    · exact h
    split
    · exact h
    unfold processDirectApplication
    dsimp only
    repeat' split
    all_goals first | exact h | exact h.withSessions _ _

end Followed

/-- Every step of a manager is work on its books. -/
theorem books_simulate_manager (prim : Primitives Secret) (direct : DirectPrimitives)
    (isRecordKey isBlocked : String → Bool) (ourDht : String) :
    (memorySystem Secret isRecordKey isBlocked ourDht).Simulates (managerSystem prim direct)
      fun p m => m.books.Describes p.manager where
  initially := by
    rintro _ ⟨ourDht', rfl⟩
    exact ⟨_, rfl, Books.describes_new ourDht'⟩
  preserved := by
    rintro p ⟨op, ans⟩ _ m hbooks rfl
    have hself : Followed m p := fun _ _ _ => ⟨m, .refl, hbooks⟩
    exact hself.perform op isRecordKey isBlocked ourDht

end VeilKnit.Handshake
