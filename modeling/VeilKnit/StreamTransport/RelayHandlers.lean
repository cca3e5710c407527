import VeilKnit.StreamTransport.Relays
import VeilKnit.StreamTransport.TreeRuns

/-!
# What the handlers change and send

All messages of a source carry its descriptor, and viewers take no other. A relay's
children change only when it takes a child that the source assigns, when a child of it
leaves, and when it forgets the stream.
-/

namespace VeilKnit.StreamTransport

open Library OutgoingStreamState

namespace Network

section Frames

variable {n : Network} {viewer peer sender : MainDht} {stream stream' : IncomingStreamState}
  {state : Option IncomingStreamState} {messages : List Addressed} {e : Envelope}

@[simp]
theorem lookup_setViewer : (n.setViewer viewer state).viewers.lookup peer =
    if peer = viewer then state else n.viewers.lookup peer := by
  cases state with
  | none =>
    by_cases hpeer : peer = viewer
    · subst hpeer
      rw [if_pos rfl]
      exact AList.lookup_erase _ _
    · rw [if_neg hpeer]
      exact AList.lookup_erase_ne hpeer
  | some stream =>
    by_cases hpeer : peer = viewer
    · subst hpeer
      rw [if_pos rfl]
      exact AList.lookup_insert _
    · rw [if_neg hpeer]
      exact AList.lookup_insert_ne hpeer

@[simp]
theorem source_setViewer : (n.setViewer viewer state).source = n.source := by
  cases state <;> rfl

@[simp]
theorem inFlight_setViewer : (n.setViewer viewer state).inFlight = n.inFlight := by
  cases state <;> rfl

@[simp] theorem source_send : (n.send sender messages).source = n.source := rfl

@[simp] theorem viewers_send : (n.send sender messages).viewers = n.viewers := rfl

theorem mem_inFlight_send : e ∈ (n.send sender messages).inFlight ↔
    e ∈ n.inFlight ∨ ∃ message ∈ messages, Envelope.from sender message = e := by
  rw [send, List.mem_append, List.mem_map]

@[simp] theorem source_takeOut : (n.takeOut e).source = n.source := rfl

@[simp] theorem viewers_takeOut : (n.takeOut e).viewers = n.viewers := rfl

@[simp] theorem streamer_takeOut : (n.takeOut e).streamer = n.streamer := rfl

end Frames

end Network

namespace OutgoingStreamState

variable {verifyDescriptor : StreamDescriptor → Except StreamTransportError Unit}

section Descriptors

variable (stream : OutgoingStreamState) (source sender viewer : MainDht)

theorem descriptor_announce (parent : MainDht) (wasExisting : Bool) (sends : JoinSends) :
    (stream.announce source viewer parent wasExisting sends).2.1.descriptor =
      stream.descriptor := by
  unfold announce
  dsimp only
  split
  · split <;> rfl
  · split
    · split <;> rfl
    · rfl

theorem descriptor_processJoinRequest (request : JoinRequest) (now joinedAt : UInt64)
    (sends : JoinSends) :
    (stream.processJoinRequest verifyDescriptor source sender request now joinedAt
      sends).1.descriptor = stream.descriptor := by
  rw [processJoinRequest_stream]
  unfold handleJoinRequest
  split
  · rfl
  · split
    · rfl
    · split
      · exact stream.descriptor_announce source _ _ true sends
      · rw [descriptor_announce, descriptor_insertViewer]

theorem descriptor_reattach (orphaned : List MainDht) :
    (reattach source stream orphaned).1.descriptor = stream.descriptor := by
  induction orphaned generalizing stream with
  | nil => rfl
  | cons child orphaned ih =>
    rw [reattach]
    split
    · exact ih stream
    · rw [ih]

theorem descriptor_handleLeave (generation : UInt64) (sent : Addressed → Bool) :
    (stream.handleLeave source sender generation viewer sent).2.1.descriptor =
      stream.descriptor := by
  rcases stream.leave_cases source sender generation viewer sent with
    ⟨_, hnext⟩ | ⟨removed, _, _, hnext⟩
  · rw [hnext]
  · rw [hnext, removeParticipantAndReassign, descriptor_reattach]
    rfl

variable {message : Addressed}

/-- The messages about a viewer are its assignment and its acceptance. -/
theorem messages_announce (parent : MainDht) (wasExisting : Bool) (sends : JoinSends)
    (h : message ∈ (stream.announce source viewer parent wasExisting sends).2.2) :
    (∃ streamId generation child, message.2 = .assignChild streamId generation child) ∨
      ∃ standby sequence segment,
        message.2 = .joinAccepted stream.descriptor parent standby sequence segment := by
  unfold announce at h
  dsimp only at h
  split at h
  · cases h
  · split at h <;> split at h <;> simp at h <;> grind

/-- An acceptance carries the descriptor of the stream. -/
theorem accepted_descriptor (request : JoinRequest) (now joinedAt : UInt64) (sends : JoinSends)
    {d : StreamDescriptor} {parent : MainDht} {standby : Option MainDht} {sequence segment : UInt64}
    (hmessage : message ∈ (stream.processJoinRequest verifyDescriptor source sender request now
      joinedAt sends).2)
    (haccepted : message.2 = .joinAccepted d parent standby sequence segment) :
    d = stream.descriptor := by
  -- Both ways of announcing send the descriptor of the stream they work on.
  have hof : ∀ {stream' : OutgoingStreamState} {viewer parent' : MainDht} {wasExisting : Bool},
      stream'.descriptor = stream.descriptor →
      message ∈ (stream'.announce source viewer parent' wasExisting sends).2.2 →
      d = stream.descriptor := by
    intro stream' viewer parent' wasExisting hdescriptor hsent
    rcases messages_announce stream' source viewer parent' wasExisting sends hsent with
      ⟨_, _, _, hassign⟩ | ⟨_, _, _, haccepted'⟩
    · rw [hassign] at haccepted
      cases haccepted
    · rw [haccepted'] at haccepted
      cases haccepted
      exact hdescriptor
  rcases mem_processJoinRequest hmessage with hsent | ⟨_, _, _, hrejected⟩
  · unfold handleJoinRequest at hsent
    split at hsent
    · cases hsent
    · split at hsent
      · cases hsent
      · split at hsent
        · exact hof rfl hsent
        · exact hof (descriptor_insertViewer _ _ _ _ _) hsent
  · rw [hrejected] at haccepted
    cases haccepted

/-- A removal sends no acceptance. -/
theorem leave_not_accepted (generation : UInt64) (sent : Addressed → Bool)
    (hmessage : message ∈ (stream.handleLeave source sender generation viewer sent).2.2)
    (d : StreamDescriptor) (parent : MainDht) (standby : Option MainDht)
    (sequence segment : UInt64) :
    message.2 ≠ .joinAccepted d parent standby sequence segment := by
  unfold handleLeave at hmessage
  split at hmessage
  · cases hmessage
  split at hmessage
  · cases hmessage
  split at hmessage
  · cases hmessage
  obtain ⟨hassignments, _⟩ := List.mem_filter.mp hmessage
  obtain ⟨⟨child, parent', standby'⟩, _, hsent⟩ := List.mem_flatMap.mp hassignments
  unfold assignmentMessages at hsent
  intro haccepted
  split at hsent
  all_goals
    simp at hsent
    grind

end Descriptors

end OutgoingStreamState

namespace IncomingStreamState

variable {verifyDescriptor : StreamDescriptor → Except StreamTransportError Unit}
  {stream stream' : IncomingStreamState} {sender : MainDht} {descriptor : StreamDescriptor}

/-- A relay takes a child that the source assigns if it has it already or has room. -/
def CanTake (stream : IncomingStreamState) (sender : MainDht) (streamId : Bytes)
    (generation : UInt64) (child : MainDht) : Prop :=
  streamId = stream.descriptor.streamId ∧ stream.FromStreamer sender generation ∧
    (child ∈ stream.children ∨ stream.children.card < stream.relayCapacity.toNat)

instance (stream : IncomingStreamState) (sender : MainDht) (streamId : Bytes)
    (generation : UInt64) (child : MainDht) :
    Decidable (stream.CanTake sender streamId generation child) :=
  inferInstanceAs (Decidable (_ ∧ _ ∧ (_ ∨ _)))

/-- A relay lets go of a child that leaves. -/
def LetsGo (stream : IncomingStreamState) (sender : MainDht) (streamId : Bytes)
    (generation : UInt64) (viewer : MainDht) : Prop :=
  streamId = stream.descriptor.streamId ∧ stream.descriptor.generation = generation ∧
    sender = viewer ∧ viewer ∈ stream.children

instance (stream : IncomingStreamState) (sender : MainDht) (streamId : Bytes)
    (generation : UInt64) (viewer : MainDht) :
    Decidable (stream.LetsGo sender streamId generation viewer) :=
  inferInstanceAs (Decidable (_ ∧ _ ∧ _ ∧ _))

variable {streamId : Bytes} {generation : UInt64} {child viewer : MainDht}

theorem process_assignChild : stream.process verifyDescriptor sender
    (.assignChild streamId generation child) =
      if stream.CanTake sender streamId generation child then
        (some { stream with children := insert child stream.children }, [])
      else (some stream, []) := by
  unfold process handleAssignChild CanTake
  by_cases hid : streamId = stream.descriptor.streamId
  · by_cases hfrom : stream.FromStreamer sender generation
    · by_cases hroom : child ∈ stream.children ∨ stream.children.card < stream.relayCapacity.toNat
      · have hnot : ¬ (child ∉ stream.children ∧
            stream.relayCapacity.toNat ≤ stream.children.card) := by
          rcases hroom with hroom | hroom
          · simp [hroom]
          · omega
        simp only [hid, hfrom, hroom, hnot]
        simp
      · have hfull : child ∉ stream.children ∧
            stream.relayCapacity.toNat ≤ stream.children.card := by
          rw [not_or, not_lt] at hroom
          exact hroom
        simp [hid, hfrom, hfull]
    · simp [hid, hfrom]
  · simp [hid]

theorem process_leave : stream.process verifyDescriptor sender (.leave streamId generation viewer) =
      if stream.LetsGo sender streamId generation viewer then
        (some { stream with children := stream.children.erase viewer },
          [(stream.descriptor.streamerMainDht, .leave streamId generation viewer)])
      else (some stream, []) := by
  unfold process handleLeave LetsGo
  by_cases hid : streamId = stream.descriptor.streamId
  · by_cases htaken : stream.descriptor.generation = generation ∧ sender = viewer ∧
        viewer ∈ stream.children
    · obtain ⟨hgeneration, rfl, hchild⟩ := htaken
      simp [hid, hgeneration, hchild]
    have hrefused : stream.descriptor.generation ≠ generation ∨ sender ≠ viewer ∨
        viewer ∉ stream.children := by
      by_contra hall
      push Not at hall
      exact htaken hall
    simp only [hid, htaken, hrefused]
    simp
  · simp [hid]

/-- The same relay, with at most a new parent and the descriptor that a message brings. -/
structure SameRelay (stream stream' : IncomingStreamState) (message : StreamWireMessage) :
    Prop where
  children : stream'.children = stream.children
  running : stream'.running = stream.running
  descriptor : stream'.descriptor = stream.descriptor ∨ ∃ parent standby sequence segment,
    message = .joinAccepted stream'.descriptor parent standby sequence segment

variable {message : StreamWireMessage}

theorem SameRelay.refl : SameRelay stream stream message := ⟨rfl, rfl, .inl rfl⟩

theorem sameRelay_joinAccepted {d : StreamDescriptor} {parent : MainDht}
    {standby : Option MainDht} {sequence segment : UInt64}
    (h : stream.handleJoinAccepted verifyDescriptor sender d parent standby sequence segment =
      .ok stream') :
    SameRelay stream stream' (.joinAccepted d parent standby sequence segment) := by
  unfold handleJoinAccepted at h
  cases hverified : verifyDescriptor d with
  | error error =>
    rw [hverified] at h
    cases h
  | ok _ =>
    rw [hverified] at h
    simp only [bind, Except.bind] at h
    split at h
    · cases h
    split at h
    · cases h
    · split at h
      · cases h
      · cases h
        exact ⟨rfl, rfl, .inr ⟨_, _, _, _, rfl⟩⟩

/-- Every other message leaves the children alone and is not passed on. -/
theorem process_other
    (hassign : ∀ streamId generation child, message ≠ .assignChild streamId generation child)
    (hleave : ∀ streamId generation viewer, message ≠ .leave streamId generation viewer) :
    (stream.process verifyDescriptor sender message).2 = [] ∧
      ∀ stream', (stream.process verifyDescriptor sender message).1 = some stream' →
        SameRelay stream stream' message := by
  have hunchanged : ∀ stream', some stream = some stream' → SameRelay stream stream' message := by
    rintro _ ⟨⟩
    exact .refl
  cases message with
  | assignChild streamId generation child => exact absurd rfl (hassign _ _ _)
  | leave streamId generation viewer => exact absurd rfl (hleave _ _ _)
  | joinAccepted d parent standby sequence segment =>
    unfold process
    dsimp only
    split
    case h_1 stream'' haccepted =>
      refine ⟨rfl, ?_⟩
      rintro _ ⟨⟩
      exact sameRelay_joinAccepted haccepted
    case h_2 => exact ⟨rfl, hunchanged⟩
  | joinRejected streamId generation reason =>
    unfold process
    dsimp only
    split
    · exact ⟨rfl, hunchanged⟩
    split
    case h_1 result hrejected =>
      refine ⟨rfl, fun stream' hstream' => ?_⟩
      -- A rejection that is taken leaves no state.
      unfold handleJoinRejected at hrejected
      split at hrejected
      · cases hrejected
      · split at hrejected
        · cases hrejected
        · cases hrejected
          cases hstream'
    case h_2 => exact ⟨rfl, hunchanged⟩
  | parentAssignment streamId generation parent standby =>
    unfold process
    dsimp only
    split
    · exact ⟨rfl, hunchanged⟩
    split
    case h_1 stream'' hassigned =>
      refine ⟨rfl, ?_⟩
      rintro _ ⟨⟩
      unfold handleParentAssignment at hassigned
      split at hassigned
      · cases hassigned
      · cases hassigned
        exact ⟨rfl, rfl, .inl rfl⟩
    case h_2 => exact ⟨rfl, hunchanged⟩
  | _ => exact ⟨rfl, hunchanged⟩

/-- Only a rejection makes a viewer forget the stream. -/
theorem process_eq_none (h : (stream.process verifyDescriptor sender message).1 = none) :
    ∃ streamId generation reason, message = .joinRejected streamId generation reason := by
  cases message with
  | assignChild streamId generation child =>
    rw [process_assignChild] at h
    split at h <;> cases h
  | leave streamId generation viewer =>
    rw [process_leave] at h
    split at h <;> cases h
  | joinAccepted d parent standby sequence segment =>
    unfold process at h
    dsimp only at h
    split at h <;> cases h
  | parentAssignment streamId generation parent standby =>
    unfold process at h
    dsimp only at h
    split at h
    · cases h
    · split at h <;> cases h
  | joinRejected streamId generation reason => exact ⟨_, _, _, rfl⟩
  | _ => cases h

/-- A viewer takes no descriptor but the one of the stream, and goes on running. -/
theorem process_keeps (hdescriptor : stream.descriptor = descriptor)
    (haccepted : ∀ d parent standby sequence segment,
      message = .joinAccepted d parent standby sequence segment → d = descriptor)
    (h : (stream.process verifyDescriptor sender message).1 = some stream') :
    stream'.descriptor = descriptor ∧ stream'.running = stream.running := by
  cases message with
  | assignChild streamId generation child =>
    rw [process_assignChild] at h
    split at h <;> cases h <;> exact ⟨hdescriptor, rfl⟩
  | leave streamId generation viewer =>
    rw [process_leave] at h
    split at h <;> cases h <;> exact ⟨hdescriptor, rfl⟩
  | _ =>
    have hsame := (process_other (by nofun) (by nofun)).2 stream' h
    refine ⟨?_, hsame.running⟩
    rcases hsame.descriptor with hkept | ⟨_, _, _, _, hmessage⟩
    · exact hkept.trans hdescriptor
    · exact haccepted _ _ _ _ _ hmessage

/-- A viewer passes on nothing but the leave messages of its children. -/
theorem messages_process {sent : Addressed}
    (h : sent ∈ (stream.process verifyDescriptor sender message).2) :
    ∃ streamId generation viewer, sent.2 = .leave streamId generation viewer := by
  cases message with
  | assignChild streamId generation child =>
    rw [process_assignChild] at h
    split at h <;> cases h
  | leave streamId generation viewer =>
    rw [process_leave] at h
    split at h
    · rw [List.mem_singleton.mp h]
      exact ⟨_, _, _, rfl⟩
    · cases h
  | _ =>
    rw [(process_other (by nofun) (by nofun)).1] at h
    cases h

end IncomingStreamState

end VeilKnit.StreamTransport
