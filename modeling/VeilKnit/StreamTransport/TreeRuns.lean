import VeilKnit.StreamTransport.TreeLinks

/-!
# The participant tree over whole runs

Parents, children and direct children agree in every reachable state, there is no cycle
and no relay is over its capacity. The recorded depths agree with the tree as long as no
viewer leaves that has grandchildren.
-/

namespace VeilKnit.StreamTransport

open Library ParentForest

namespace OutgoingStreamState

/-! ## Every step -/

section Steps

variable {stream : OutgoingStreamState} {source : MainDht}
  {verifyDescriptor : StreamDescriptor → Except StreamTransportError Unit}

theorem announce_existing (stream : OutgoingStreamState) (source viewer parent : MainDht)
    (sends : JoinSends) : (stream.announce source viewer parent true sends).2.1 = stream := by
  unfold announce
  dsimp only
  split
  · rfl
  · split <;> rfl

/-- A new viewer stays only if its parent has been told of it. -/
theorem announce_new (stream : OutgoingStreamState) (source viewer parent : MainDht)
    (sends : JoinSends) :
    ((stream.announce source viewer parent false sends).2.1 = stream ∧
        (parent ≠ source → (parent, .assignChild stream.descriptor.streamId
          stream.descriptor.generation viewer) ∈
            (stream.announce source viewer parent false sends).2.2)) ∨
      (parent ≠ source ∧
        (stream.announce source viewer parent false sends).2.1 = stream.withdraw viewer) ∨
      (stream.announce source viewer parent false sends).2.1 =
        (stream.withdraw viewer).eraseDirect viewer := by
  unfold announce
  dsimp only
  split
  case isTrue hfailed => exact .inr (.inl ⟨hfailed.1, rfl⟩)
  case isFalse =>
  split
  · exact .inr (.inr rfl)
  · left
    refine ⟨rfl, fun hrelay => ?_⟩
    rw [if_pos hrelay]
    exact List.mem_append_left _ (List.mem_singleton.mpr rfl)

theorem processJoinRequest_stream (sender : MainDht) (request : JoinRequest)
    (now joinedAt : UInt64) (sends : JoinSends) :
    (stream.processJoinRequest verifyDescriptor source sender request now joinedAt sends).1 =
      (stream.handleJoinRequest verifyDescriptor source sender request now joinedAt sends).2.1 := by
  unfold processJoinRequest
  dsimp only
  split <;> rfl

variable {sender : MainDht} {request : JoinRequest} {now joinedAt : UInt64}
  {sends : JoinSends} {message : Addressed}

theorem mem_processJoinRequest_of_handle
    (h : message ∈ (stream.handleJoinRequest verifyDescriptor source sender request now joinedAt
      sends).2.2) :
    message ∈ (stream.processJoinRequest verifyDescriptor source sender request now joinedAt
      sends).2 := by
  unfold processJoinRequest
  dsimp only
  split
  · exact h
  · split
    · exact List.mem_append_left _ h
    · exact h

/-- A rejection may follow the messages of the handler. -/
theorem mem_processJoinRequest
    (h : message ∈ (stream.processJoinRequest verifyDescriptor source sender request now joinedAt
      sends).2) :
    message ∈ (stream.handleJoinRequest verifyDescriptor source sender request now joinedAt
      sends).2.2 ∨
        ∃ streamId generation reason, message.2 = .joinRejected streamId generation reason := by
  unfold processJoinRequest at h
  dsimp only at h
  split at h
  · exact .inl h
  split at h
  · rcases List.mem_append.mp h with hsent | hrejected
    · exact .inl hsent
    · rw [List.mem_singleton.mp hrejected]
      exact .inr ⟨_, _, _, rfl⟩
  · exact .inl h

/-- A request that passes the first checks comes from the viewer itself. -/
theorem checkJoinRequest_sender
    (h : checkJoinRequest verifyDescriptor source sender request now = .ok ()) :
    sender = request.viewerMainDht := by
  unfold checkJoinRequest at h
  by_contra hne
  rw [if_pos hne] at h
  cases h

theorem checkJoin_room (h : stream.checkJoin request = .ok ()) :
    stream.participants.keys.length < streamMaxViewers := by
  unfold checkJoin at h
  split at h
  · cases h
  · split at h
    · cases h
    · split at h
      · cases h
      · omega

theorem descriptor_insertViewer (stream : OutgoingStreamState) (source viewer : MainDht)
    (relayCapacity : UInt16) (joinedAt : UInt64) :
    (stream.insertViewer source viewer relayCapacity joinedAt).descriptor = stream.descriptor := by
  unfold insertViewer
  dsimp only
  split <;> rfl

/-- A join leaves the tree as it was, or inserts a viewer and tells its parent. -/
inductive Joined (stream : OutgoingStreamState) (source : MainDht) (after : OutgoingStreamState)
    (sent : List Addressed) : Prop
  | same (h : SameTree stream after)
  | inserted {viewer : MainDht} {relayCapacity : UInt16} {joinedAt : UInt64}
      (hviewer : viewer ≠ source) (hfresh : stream.participants.lookup viewer = none)
      (hcount : stream.participants.keys.length < streamMaxViewers)
      (hnext : after = stream.insertViewer source viewer relayCapacity joinedAt)
      (htold : (stream.chooseParent source).1 ≠ source →
        ((stream.chooseParent source).1, .assignChild stream.descriptor.streamId
          stream.descriptor.generation viewer) ∈ sent)

theorem Linked.handle_joined (h : stream.Linked source)
    (verifyDescriptor : StreamDescriptor → Except StreamTransportError Unit)
    (request : JoinRequest) (now joinedAt : UInt64) (sends : JoinSends)
    (hsender : sender ≠ source) :
    stream.Joined source
      (stream.handleJoinRequest verifyDescriptor source sender request now joinedAt sends).2.1
      (stream.handleJoinRequest verifyDescriptor source sender request now joinedAt sends).2.2 := by
  unfold handleJoinRequest
  split
  case h_1 => exact .same .refl
  case h_2 hrequest =>
  split
  case h_1 => exact .same .refl
  case h_2 hjoin =>
  split
  case h_1 =>
    rw [announce_existing]
    exact .same .refl
  case h_2 hfresh =>
  have hviewer : request.viewerMainDht ≠ source := checkJoinRequest_sender hrequest ▸ hsender
  rcases announce_new (stream.insertViewer source request.viewerMainDht
    request.relayCapacity joinedAt) source request.viewerMainDht
    (stream.chooseParent source).1 sends with ⟨hkept, htold⟩ | ⟨hrelay, hwithdrawn⟩ | hwithdrawn
  · rw [descriptor_insertViewer] at htold
    exact .inserted hviewer hfresh (checkJoin_room hjoin) hkept htold
  · apply Joined.same
    rw [hwithdrawn]
    exact h.sameTree_withdraw_relay hfresh hviewer hrelay
  · apply Joined.same
    rw [hwithdrawn]
    exact h.sameTree_withdraw hfresh hviewer

/-- As `handle_joined`, with the rejection of a failed join. -/
theorem Linked.joined (h : stream.Linked source)
    (verifyDescriptor : StreamDescriptor → Except StreamTransportError Unit)
    (request : JoinRequest) (now joinedAt : UInt64) (sends : JoinSends)
    (hsender : sender ≠ source) :
    stream.Joined source
      (stream.processJoinRequest verifyDescriptor source sender request now joinedAt sends).1
      (stream.processJoinRequest verifyDescriptor source sender request now joinedAt sends).2 := by
  rw [processJoinRequest_stream]
  cases h.handle_joined verifyDescriptor request now joinedAt sends hsender with
  | same hsame => exact .same hsame
  | inserted hviewer hfresh hcount hnext htold =>
    exact .inserted hviewer hfresh hcount hnext
      fun hrelay => mem_processJoinRequest_of_handle (htold hrelay)

/-- A leave message that is not taken changes nothing; one that is removes the viewer. -/
theorem leave_cases (stream : OutgoingStreamState) (source sender : MainDht)
    (generation : UInt64) (viewer : MainDht) (sent : Addressed → Bool) :
    (¬ stream.AcceptsLeave sender generation viewer ∧
        (stream.handleLeave source sender generation viewer sent).2.1 = stream) ∨
      ∃ removed, stream.AcceptsLeave sender generation viewer ∧
        stream.participants.lookup viewer = some removed ∧
        (stream.handleLeave source sender generation viewer sent).2.1 =
          (stream.removeParticipantAndReassign source viewer).1 := by
  unfold handleLeave AcceptsLeave
  by_cases hgeneration : stream.descriptor.generation = generation
  · rw [if_neg (not_not.mpr hgeneration)]
    cases hlookup : stream.participants.lookup viewer with
    | none => simp
    | some participant =>
      dsimp only
      by_cases haccepts : sender = viewer ∨ participant.parentMainDht = sender
      · rw [if_neg (by tauto)]
        exact .inr ⟨participant, ⟨hgeneration, participant, rfl, haccepts⟩, rfl, rfl⟩
      rw [if_pos (by tauto)]
      left
      refine ⟨?_, rfl⟩
      rintro ⟨_, other, hother, haccepts'⟩
      cases hother
      exact haccepts haccepts'
  · rw [if_pos hgeneration]
    exact .inl ⟨fun haccepts => hgeneration haccepts.1, rfl⟩

theorem closeStream_sameTree (now : UInt64) : SameTree stream (stream.closeStream now).2 := by
  unfold closeStream
  split <;> exact ⟨fun _ => rfl, rfl⟩

theorem expireClosed_cases (now : UInt64) : SameTree stream (stream.expireClosed now) ∨
    ((stream.expireClosed now).participants = ∅ ∧
      (stream.expireClosed now).directChildren = ∅) := by
  unfold expireClosed
  split
  · split
    · exact .inr ⟨rfl, rfl⟩
    · exact .inl .refl
  · exact .inl .refl

theorem linked_of_empty (hparticipants : stream.participants = ∅)
    (hdirect : stream.directChildren = ∅) :
    stream.Linked source ∧ stream.DepthsExact source := by
  have hnone : ∀ peer, stream.participants.lookup peer = none := by
    intro peer
    rw [hparticipants, AList.lookup_empty]
  have habsurd : ∀ {peer participant} {p : Prop},
      stream.participants.lookup peer = some participant → p := by
    intro peer participant p hlookup
    rw [hnone] at hlookup
    cases hlookup
  refine ⟨⟨hnone source, fun _ _ => habsurd, fun _ _ => habsurd, ?_, fun _ _ => habsurd,
    fun _ _ => habsurd, ?_⟩, fun _ _ => habsurd⟩
  · simp [hdirect]
  · simp [hparticipants, AList.keys]

/-- The condition on one step: no viewer leaves whose children have children. -/
def RemovesNoGrandchildren (stream : OutgoingStreamState) : SourceEvent → Prop
  | .leave sender generation viewer _ =>
    stream.AcceptsLeave sender generation viewer →
      ∀ removed, stream.participants.lookup viewer = some removed →
        ∀ child ∈ removed.children, ∀ below,
          stream.participants.lookup child = some below → below.children = ∅
  | _ => True

/-- Every step keeps parents and children linked. -/
theorem Linked.next (h : stream.Linked source) (event : SourceEvent)
    (hsender : event.sender? ≠ some source) :
    (stream.next verifyDescriptor source event).Linked source := by
  cases event with
  | join sender request now joinedAt sends =>
    have hne : sender ≠ source := fun heq => hsender (congrArg some heq)
    cases h.joined verifyDescriptor request now joinedAt sends hne with
    | same hsame => exact h.congr hsame
    | inserted hviewer hfresh hcount hnext =>
      rw [OutgoingStreamState.next, hnext]
      exact h.insertViewer hfresh hviewer hcount
  | leave sender generation viewer sent =>
    rcases stream.leave_cases source sender generation viewer sent with
      ⟨_, hnext⟩ | ⟨removed, _, hremoved, hnext⟩
    · rw [OutgoingStreamState.next, hnext]
      exact h
    · rw [OutgoingStreamState.next, hnext]
      exact h.remove hremoved
  | publish nextSequence currentSegment pendingSegments => exact h.congr ⟨fun _ => rfl, rfl⟩
  | close now => exact h.congr (closeStream_sameTree now)
  | expire now =>
    rcases stream.expireClosed_cases now with hsame | ⟨hparticipants, hdirect⟩
    · exact h.congr hsame
    · exact (linked_of_empty hparticipants hdirect).1

/-- A step keeps the depths exact just when it takes no viewer with grandchildren out. -/
theorem DepthsExact.next_iff (hdepth : stream.DepthsExact source)
    (verifyDescriptor : StreamDescriptor → Except StreamTransportError Unit)
    (h : stream.Linked source) (event : SourceEvent) (hsender : event.sender? ≠ some source) :
    (stream.next verifyDescriptor source event).DepthsExact source ↔
      stream.RemovesNoGrandchildren event := by
  cases event with
  | join sender request now joinedAt sends =>
    refine iff_of_true ?_ trivial
    have hne : sender ≠ source := fun heq => hsender (congrArg some heq)
    cases h.joined verifyDescriptor request now joinedAt sends hne with
    | same hsame => exact hdepth.congr hsame
    | inserted hviewer hfresh _ hnext =>
      rw [OutgoingStreamState.next, hnext]
      exact hdepth.insertViewer h hfresh hviewer
  | leave sender generation viewer sent =>
    rw [OutgoingStreamState.next]
    rcases stream.leave_cases source sender generation viewer sent with
      ⟨hrefused, hnext⟩ | ⟨removed, haccepts, hremoved, hnext⟩
    · rw [hnext]
      exact iff_of_true hdepth fun haccepts => absurd haccepts hrefused
    rw [hnext]
    constructor
    · intro hdepth' _ removed' hremoved'
      rw [hremoved] at hremoved'
      cases hremoved'
      exact hdepth.shallow_of_remove h hremoved hdepth'
    · intro hshallow
      exact hdepth.remove h hremoved (hshallow haccepts removed hremoved)
  | publish nextSequence currentSegment pendingSegments =>
    exact iff_of_true (hdepth.congr ⟨fun _ => rfl, rfl⟩) trivial
  | close now => exact iff_of_true (hdepth.congr (closeStream_sameTree now)) trivial
  | expire now =>
    refine iff_of_true ?_ trivial
    rcases stream.expireClosed_cases now with hsame | ⟨hparticipants, hdirect⟩
    · exact hdepth.congr hsame
    · exact (linked_of_empty hparticipants hdirect).2

end Steps

end OutgoingStreamState

/-! ## Every run -/

section Runs

variable {verifyDescriptor : StreamDescriptor → Except StreamTransportError Unit}
  {descriptor : StreamDescriptor} {stream : OutgoingStreamState}

open OutgoingStreamState

theorem linked_invariant : (treeSystem verifyDescriptor descriptor).Invariant
    (Linked descriptor.streamerMainDht) where
  initially stream hstart := by
    obtain rfl : stream = .started descriptor := hstart
    exact (linked_of_empty rfl rfl).1
  preserved stream event stream' h hstep := by
    obtain ⟨hsender, rfl⟩ := hstep
    exact h.next event hsender

theorem depths_within (reached :
    ((treeSystem verifyDescriptor descriptor).restrict RemovesNoGrandchildren).Reachable stream) :
    stream.DepthsExact descriptor.streamerMainDht := by
  refine linked_invariant.holds_within (P := fun stream =>
    stream.DepthsExact descriptor.streamerMainDht) ?_ ?_ reached
  · rintro stream rfl
    exact (linked_of_empty rfl rfl).2
  · rintro stream event stream' h hdepth hguard ⟨hsender, rfl⟩
    exact (hdepth.next_iff verifyDescriptor h event hsender).mpr hguard

end Runs

/-! ## A depth that is not corrected -/

section Relays

/-- A descriptor is taken as it is. -/
def trustDescriptor (_ : StreamDescriptor) : Except StreamTransportError Unit := .ok ()

def sampleDescriptor : StreamDescriptor where
  streamId := [7]
  applicationId := [8]
  streamerMainDht := [0]
  generation := 1
  signingPublicKeyHex := []
  signatureHex := []

def sampleRequest (viewer : MainDht) (now : UInt64) : JoinRequest where
  descriptor := sampleDescriptor
  viewerMainDht := viewer
  relayCapacity := 1
  requestedAt := now

/-- A viewer that relays to one other viewer joins. -/
def joins (viewer : MainDht) (now : UInt64) : SourceEvent :=
  .join viewer (sampleRequest viewer now) now now
    { assigned := true, accepted := true, rejected := true }

def leaves (viewer : MainDht) : SourceEvent :=
  .leave viewer 1 viewer fun _ => true

def firstViewer : ParticipantState where
  parentMainDht := [0]
  children := ∅
  relayCapacity := 1
  depth := 1
  joinedAt := 10

def thirdViewer : ParticipantState where
  parentMainDht := [2]
  children := ∅
  relayCapacity := 1
  depth := 3
  joinedAt := 30

/-- Three viewers join, each under the one before; the first one leaves. -/
def threeRelays : List SourceEvent :=
  [joins [1] 10, joins [2] 20, joins [3] 30, leaves [1]]

def afterFirstLeft : OutgoingStreamState :=
  threeRelays.foldl (OutgoingStreamState.next trustDescriptor · [0]) (.started sampleDescriptor)

end Relays

end VeilKnit.StreamTransport
