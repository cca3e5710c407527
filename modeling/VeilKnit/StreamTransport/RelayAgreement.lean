import VeilKnit.StreamTransport.RelayHandlers

/-!
# The source's tree and the relays' children

The source records the children of every relay, and every relay keeps its own children. A
relay and a child are in agreement if a difference between the two is accounted for by a
message in flight. What arrives at the source keeps that, provided that the relays
concerned have been told of a viewer that leaves.
-/

namespace VeilKnit.StreamTransport

open Library OutgoingStreamState

/-- The source records the child under the relay. -/
def OutgoingStreamState.Records (stream : OutgoingStreamState) (relay child : MainDht) : Prop :=
  ∃ participant, stream.participants.lookup relay = some participant ∧ child ∈ participant.children

instance (stream : OutgoingStreamState) (relay child : MainDht) :
    Decidable (stream.Records relay child) :=
  match h : stream.participants.lookup relay with
  | none => isFalse fun ⟨_, hlookup, _⟩ => by rw [h] at hlookup; cases hlookup
  | some participant =>
    if hchild : child ∈ participant.children then isTrue ⟨participant, h, hchild⟩
    else isFalse fun ⟨_, hlookup, hmem⟩ => by
      rw [h] at hlookup
      cases hlookup
      exact hchild hmem

instance (stream : OutgoingStreamState) (sender : MainDht) (generation : UInt64)
    (viewer : MainDht) : Decidable (stream.AcceptsLeave sender generation viewer) :=
  inferInstanceAs (Decidable (_ ∧ ∃ participant ∈ stream.participants.lookup viewer, _))

namespace OutgoingStreamState

variable {viewer : MainDht} {relay child source : MainDht} {stream : OutgoingStreamState}

theorem SameTree.records_iff {stream' : OutgoingStreamState} (h : SameTree stream stream') :
    stream'.Records relay child ↔ stream.Records relay child := by
  unfold Records
  rw [h.lookup]

/-- A new viewer is recorded under the parent that is chosen for it. -/
theorem records_insertViewer
    (h : stream.Linked source) (hfresh : stream.participants.lookup viewer = none)
    (hviewer : viewer ≠ source) {relayCapacity : UInt16} {joinedAt : UInt64} :
    (stream.insertViewer source viewer relayCapacity joinedAt).Records relay child ↔
      stream.Records relay child ∨ (child = viewer ∧ relay = (stream.chooseParent source).1 ∧
        relay ≠ source) := by
  unfold Records
  rw [lookup_insertViewer h.source_absent]
  constructor
  · rintro ⟨participant, hlookup, hchild⟩
    split at hlookup
    · cases hlookup
      simp at hchild
    obtain ⟨old, hold, rfl⟩ := Option.map_eq_some_iff.mp hlookup
    split at hchild
    case isTrue hparent =>
      rcases Finset.mem_insert.mp hchild with hnew | hmem
      · right
        refine ⟨hnew, hparent, ?_⟩
        rintro rfl
        rw [h.source_absent] at hold
        cases hold
      · exact .inl ⟨old, hold, hmem⟩
    case isFalse => exact .inl ⟨old, hold, hchild⟩
  rintro (⟨old, hold, hchild⟩ | ⟨rfl, hparent, hrelay⟩)
  · have hne : relay ≠ viewer := by
      rintro rfl
      rw [hfresh] at hold
      cases hold
    rw [if_neg hne, hold]
    refine ⟨_, rfl, ?_⟩
    split
    · exact Finset.mem_insert_of_mem hchild
    · exact hchild
  -- A parent other than the source is a participant.
  rcases stream.chooseParent_cases source with hchoice | ⟨q, above, habove, _, hchoice⟩
  · rw [hparent, hchoice] at hrelay
    exact absurd rfl hrelay
  · have hq : relay = q := by rw [hparent, hchoice]
    have hne : relay ≠ child := hparent ▸ chooseParent_ne hfresh hviewer
    rw [if_neg hne, hq, habove]
    exact ⟨_, rfl, by simp [hchoice]⟩

/-- A removal takes the pairs of the viewer out of the records. -/
theorem records_remove
    {removed : ParticipantState} (hremoved : stream.participants.lookup viewer = some removed) :
    (stream.removeParticipantAndReassign source viewer).1.Records relay child ↔
      stream.Records relay child ∧ relay ≠ viewer ∧ child ≠ viewer := by
  unfold Records
  rw [lookup_remove hremoved]
  by_cases hrelay : relay = viewer
  · simp [hrelay]
  rw [if_neg hrelay]
  constructor
  · rintro ⟨participant, hlookup, hchild⟩
    obtain ⟨old, hold, rfl⟩ := Option.map_eq_some_iff.mp hlookup
    have hmem : child ∈ old.children.erase viewer := by
      split at hchild <;> exact hchild
    obtain ⟨hne, hmem⟩ := Finset.mem_erase.mp hmem
    exact ⟨⟨old, hold, hmem⟩, hrelay, hne⟩
  · rintro ⟨⟨old, hold, hmem⟩, _, hne⟩
    rw [hold]
    refine ⟨_, rfl, ?_⟩
    split <;> exact Finset.mem_erase.mpr ⟨hne, hmem⟩

end OutgoingStreamState

namespace Network

/-- The relay forwards packets to the child. -/
def Forwards (n : Network) (relay child : MainDht) : Prop :=
  ∃ stream, n.viewers.lookup relay = some stream ∧ stream.running = true ∧ child ∈ stream.children

instance (n : Network) (relay child : MainDht) : Decidable (n.Forwards relay child) :=
  match h : n.viewers.lookup relay with
  | none => isFalse fun ⟨_, hlookup, _⟩ => by rw [h] at hlookup; cases hlookup
  | some stream =>
    if hchild : stream.running = true ∧ child ∈ stream.children then isTrue ⟨stream, h, hchild⟩
    else isFalse fun ⟨_, hlookup, hmem⟩ => by
      rw [h] at hlookup
      cases hlookup
      exact hchild hmem

/-- A message that will make the relay forward to a recorded child, or the source stop
recording it: its assignment, or a leave of the child or the relay on its way to the
source. -/
def Settles (n : Network) (relay child : MainDht) (e : Envelope) : Prop :=
  (e.message = n.assignmentOf child ∧ e.sender = n.streamer ∧ e.recipient = relay) ∨
    (e.recipient = n.streamer ∧
      ((e.message = n.leaveOf child ∧ (e.sender = child ∨ e.sender = relay)) ∨
        (e.message = n.leaveOf relay ∧ e.sender = relay)))

instance (n : Network) (relay child : MainDht) (e : Envelope) :
    Decidable (n.Settles relay child e) :=
  inferInstanceAs (Decidable ((_ ∧ _ ∧ _) ∨ (_ ∧ ((_ ∧ (_ ∨ _)) ∨ (_ ∧ _)))))

/-- A message that will make the relay stop forwarding to the child: its own leave. -/
def Departs (n : Network) (relay child : MainDht) (e : Envelope) : Prop :=
  e.message = n.leaveOf child ∧ e.sender = child ∧ e.recipient = relay ∧ child ≠ relay

instance (n : Network) (relay child : MainDht) (e : Envelope) :
    Decidable (n.Departs relay child e) :=
  inferInstanceAs (Decidable (_ ∧ _ ∧ _ ∧ _))

def Accounted (n : Network) (relay child : MainDht) : Prop :=
  ∃ e ∈ n.inFlight, n.Settles relay child e

instance (n : Network) (relay child : MainDht) : Decidable (n.Accounted relay child) :=
  inferInstanceAs (Decidable (∃ e ∈ n.inFlight, _))

def Departing (n : Network) (relay child : MainDht) : Prop :=
  ∃ e ∈ n.inFlight, n.Departs relay child e

instance (n : Network) (relay child : MainDht) : Decidable (n.Departing relay child) :=
  inferInstanceAs (Decidable (∃ e ∈ n.inFlight, _))

/-- The source and the relay agree on the child but for what is in flight. -/
structure Agree (n : Network) (relay child : MainDht) : Prop where
  forwarded : n.Forwards relay child → n.source.Records relay child ∨ n.Departing relay child
  recorded : n.source.Records relay child → n.Forwards relay child ∨ n.Accounted relay child

/-! ## The condition on one step -/

/-- A viewer may forget the stream if the source records none of the children that it
forwards to, or something in flight accounts for them. -/
def MayForget (n : Network) (viewer : MainDht) : Prop :=
  ∀ stream ∈ n.viewers.lookup viewer, ∀ child ∈ stream.children,
    n.source.Records viewer child → n.Accounted viewer child

instance (n : Network) (viewer : MainDht) : Decidable (n.MayForget viewer) :=
  inferInstanceAs (Decidable (∀ stream ∈ n.viewers.lookup viewer, _))

/-- The source may take a leave of a viewer if the relays that forward to it have its own
leave on the way, and so does it from the children that it forwards to. -/
def MayRemove (n : Network) (viewer : MainDht) : Prop :=
  (∀ relay ∈ n.viewers.keys, n.Forwards relay viewer → n.Departing relay viewer) ∧
    ∀ stream ∈ n.viewers.lookup viewer, ∀ child ∈ stream.children, n.Departing viewer child

instance (n : Network) (viewer : MainDht) : Decidable (n.MayRemove viewer) :=
  inferInstanceAs (Decidable ((∀ relay ∈ n.viewers.keys, _) ∧
    ∀ stream ∈ n.viewers.lookup viewer, _))

/-- The relay takes the assignment. -/
def Takes (n : Network) (relay sender : MainDht) (streamId : Bytes) (generation : UInt64)
    (child : MainDht) : Prop :=
  ∃ stream ∈ n.viewers.lookup relay, stream.CanTake sender streamId generation child

instance (n : Network) (relay sender : MainDht) (streamId : Bytes) (generation : UInt64)
    (child : MainDht) : Decidable (n.Takes relay sender streamId generation child) :=
  inferInstanceAs (Decidable (∃ stream ∈ n.viewers.lookup relay, _))

/-- An assignment arrives in time if the relay takes it just when the source still records
the child there, up to what is in flight. -/
def InTime (n : Network) (relay sender : MainDht) (streamId : Bytes) (generation : UInt64)
    (child : MainDht) : Prop :=
  (n.Takes relay sender streamId generation child →
    n.source.Records relay child ∨ n.Departing relay child) ∧
  (n.source.Records relay child →
    n.Takes relay sender streamId generation child ∨ n.Accounted relay child)

instance (n : Network) (relay sender : MainDht) (streamId : Bytes) (generation : UInt64)
    (child : MainDht) : Decidable (n.InTime relay sender streamId generation child) :=
  inferInstanceAs (Decidable ((_ → _ ∨ _) ∧ (_ → _ ∨ _)))

/-- The condition on the delivery of a message that has been taken out of flight. -/
def KeepsStep (n : Network) (e : Envelope) (sends : Sends) : Prop :=
  match e.message with
  | .leave streamId generation viewer =>
    if e.recipient = n.streamer then
      streamId = n.descriptor.streamId → n.source.AcceptsLeave e.sender generation viewer →
        n.MayRemove viewer
    else
      -- A relay passes the leave on to the source.
      sends.other (n.streamer, e.message) = true ∨
        (n.source.Records e.recipient viewer → n.Accounted e.recipient viewer)
  | .assignChild streamId generation child => n.InTime e.recipient e.sender streamId generation child
  | .joinRejected _ _ _ => n.MayForget e.recipient
  | _ => True

/-- The condition on one step. -/
def Orderly (n : Network) : NetworkEvent → Prop
  | .join viewer _ _ _ => n.MayForget viewer
  | .joinUnsent request => (n.takeOut request).MayForget request.sender
  | .leave viewer _ sends =>
    sends.other (n.streamer, n.leaveOf viewer) = true ∨ n.MayForget viewer
  | .deliver e _ _ sends => e.sender = e.recipient ∨ (n.takeOut e).KeepsStep e sends
  | .expire viewer now =>
    (∃ stream ∈ n.viewers.lookup viewer, stream.JoinExpired now) → n.MayForget viewer

instance (n : Network) (e : Envelope) (sends : Sends) : Decidable (n.KeepsStep e sends) := by
  unfold KeepsStep
  split <;> infer_instance

instance (n : Network) (event : NetworkEvent) : Decidable (n.Orderly event) := by
  unfold Orderly
  split <;> infer_instance

variable {verifyDescriptor : StreamDescriptor → Except StreamTransportError Unit}
  {descriptor : StreamDescriptor} {n : Network}

/-! ## What holds in every run -/

/-- All parties hold the same descriptor, and the source's tree is linked. -/
structure Consistent (descriptor : StreamDescriptor) (n : Network) : Prop where
  descriptor_eq : n.descriptor = descriptor
  linked : n.source.Linked descriptor.streamerMainDht
  viewer : ∀ viewer stream, n.viewers.lookup viewer = some stream →
    stream.descriptor = descriptor ∧ stream.running = true
  streamer_absent : n.viewers.lookup descriptor.streamerMainDht = none
  accepted : ∀ e ∈ n.inFlight, ∀ d parent standby sequence segment,
    e.message = .joinAccepted d parent standby sequence segment → d = descriptor

theorem Consistent.streamer_eq (h : n.Consistent descriptor) :
    n.streamer = descriptor.streamerMainDht := by
  rw [streamer, h.descriptor_eq]

theorem Consistent.takeOut (h : n.Consistent descriptor) (e : Envelope) :
    (n.takeOut e).Consistent descriptor :=
  ⟨h.descriptor_eq, h.linked, h.viewer, h.streamer_absent,
    fun e' he' => h.accepted e' (List.mem_of_mem_erase he')⟩

/-- Sending anything but acceptances of other descriptors. -/
theorem Consistent.send (h : n.Consistent descriptor) (sender : MainDht) {messages : List Addressed}
    (hmessages : ∀ message ∈ messages, ∀ d parent standby sequence segment,
      message.2 = .joinAccepted d parent standby sequence segment → d = descriptor) :
    (n.send sender messages).Consistent descriptor := by
  refine ⟨h.descriptor_eq, h.linked, h.viewer, h.streamer_absent, fun e he => ?_⟩
  rcases mem_inFlight_send.mp he with hold | ⟨message, hmessage, rfl⟩
  · exact h.accepted e hold
  · exact hmessages message hmessage

variable {viewer sender : MainDht}

theorem Consistent.setViewer (h : n.Consistent descriptor)
    {state : Option IncomingStreamState} (hviewer : viewer ≠ descriptor.streamerMainDht)
    (hstate : ∀ stream, state = some stream →
      stream.descriptor = descriptor ∧ stream.running = true) :
    (n.setViewer viewer state).Consistent descriptor where
  descriptor_eq := by
    rw [Network.descriptor, source_setViewer]
    exact h.descriptor_eq
  linked := by
    rw [source_setViewer]
    exact h.linked
  viewer peer stream hlookup := by
    rw [lookup_setViewer] at hlookup
    split at hlookup
    · exact hstate stream hlookup
    · exact h.viewer peer stream hlookup
  streamer_absent := by
    rw [lookup_setViewer, if_neg hviewer.symm]
    exact h.streamer_absent
  accepted := by
    rw [inFlight_setViewer]
    exact h.accepted

theorem Consistent.dropViewer (h : n.Consistent descriptor) (viewer : MainDht) :
    (n.setViewer viewer none).Consistent descriptor where
  descriptor_eq := by
    rw [Network.descriptor, source_setViewer]
    exact h.descriptor_eq
  linked := by
    rw [source_setViewer]
    exact h.linked
  viewer peer stream hlookup := by
    rw [lookup_setViewer] at hlookup
    split at hlookup
    · cases hlookup
    · exact h.viewer peer stream hlookup
  streamer_absent := by
    rw [lookup_setViewer]
    split
    · rfl
    · exact h.streamer_absent
  accepted := by
    rw [inFlight_setViewer]
    exact h.accepted

theorem Consistent.setSource (h : n.Consistent descriptor) {source : OutgoingStreamState}
    (hdescriptor : source.descriptor = n.descriptor)
    (hlinked : source.Linked descriptor.streamerMainDht) :
    ({ n with source } : Network).Consistent descriptor :=
  ⟨hdescriptor.trans h.descriptor_eq, hlinked, h.viewer, h.streamer_absent, h.accepted⟩

/-- A viewer that joins holds the descriptor it joins with. -/
theorem joinStream_ok {applicationId : Bytes} {relayCapacity : UInt16}
    {now : UInt64} {stream : IncomingStreamState} {request : Addressed}
    (h : IncomingStreamState.joinStream verifyDescriptor viewer applicationId descriptor
      relayCapacity now = .ok (stream, request)) :
    viewer ≠ descriptor.streamerMainDht ∧ stream.descriptor = descriptor ∧
      stream.running = true ∧ stream.children = ∅ ∧
      request = (descriptor.streamerMainDht, .joinRequest descriptor viewer
        (min relayCapacity streamMaxRelayChildren) now) := by
  unfold IncomingStreamState.joinStream at h
  cases hverified : verifyDescriptor descriptor with
  | error error =>
    rw [hverified] at h
    cases h
  | ok _ =>
    rw [hverified] at h
    simp only [bind, Except.bind] at h
    split at h
    · cases h
    · split at h
      · cases h
      · rename_i _ hviewer
        cases h
        exact ⟨Ne.symm hviewer, rfl, rfl, rfl, rfl⟩

theorem Consistent.atSource (h : n.Consistent descriptor)
    (hsender : sender ≠ descriptor.streamerMainDht) (now joinedAt : UInt64) (sends : Sends)
    (message : StreamWireMessage) :
    (n.atSource verifyDescriptor sender now joinedAt sends message).Consistent descriptor := by
  have hstreamer := h.streamer_eq
  cases message with
  | joinRequest d viewer relayCapacity requestedAt =>
    refine (h.setSource (descriptor_processJoinRequest _ _ _ _ _ _ _) ?_).send _ ?_
    · rw [hstreamer]
      exact h.linked.next (.join sender
        { descriptor := d, viewerMainDht := viewer, relayCapacity, requestedAt } now joinedAt
        sends.join) fun heq => hsender (Option.some.inj heq)
    · intro sent hsent d' parent standby sequence segment haccepted
      exact (accepted_descriptor _ _ _ _ _ _ _ hsent haccepted).trans h.descriptor_eq
  | leave streamId generation viewer =>
    unfold Network.atSource
    dsimp only
    split
    · exact h
    refine (h.setSource (descriptor_handleLeave _ _ _ _ _ _) ?_).send _ ?_
    · rw [hstreamer]
      change (n.source.next verifyDescriptor _ (.leave sender generation viewer sends.other)).Linked _
      exact h.linked.next _ fun heq => hsender (Option.some.inj heq)
    · intro sent hsent d' parent standby sequence segment haccepted
      exact absurd haccepted (leave_not_accepted _ _ _ _ _ _ hsent _ _ _ _ _)
  | _ => exact h

theorem Consistent.atViewer (h : n.Consistent descriptor)
    (hviewer : viewer ≠ descriptor.streamerMainDht) (sends : Sends) {message : StreamWireMessage}
    (haccepted : ∀ d parent standby sequence segment,
      message = .joinAccepted d parent standby sequence segment → d = descriptor) :
    (n.atViewer verifyDescriptor viewer sender sends message).Consistent descriptor := by
  unfold Network.atViewer
  split
  case h_1 => exact h
  case h_2 stream hlookup =>
  obtain ⟨hdescriptor, hrunning⟩ := h.viewer viewer stream hlookup
  refine (h.setViewer hviewer fun stream' hstream' => ?_).send _ fun sent hsent => ?_
  · obtain ⟨hkept, hrunning'⟩ :=
      IncomingStreamState.process_keeps hdescriptor haccepted hstream'
    exact ⟨hkept, hrunning'.trans hrunning⟩
  · obtain ⟨_, _, _, hleave⟩ :=
      IncomingStreamState.messages_process (List.mem_of_mem_filter hsent)
    intro d parent standby sequence segment hmessage
    rw [hleave] at hmessage
    cases hmessage

theorem consistent_invariant :
    (networkSystem verifyDescriptor descriptor).Invariant (Consistent descriptor) where
  initially n hstart := by
    obtain rfl : n = .started descriptor := hstart
    exact ⟨rfl, (linked_of_empty rfl rfl).1, nofun, rfl, nofun⟩
  preserved n event n' h hstep := by
    obtain ⟨henabled, rfl⟩ := hstep
    cases event with
    | join viewer applicationId relayCapacity now =>
      unfold Network.next
      dsimp only
      split
      case h_1 stream request hjoined =>
        rw [h.descriptor_eq] at hjoined
        obtain ⟨hviewer, hdescriptor, hrunning, _, hrequest⟩ := joinStream_ok hjoined
        refine (h.setViewer hviewer ?_).send _ ?_
        · rintro _ ⟨⟩
          exact ⟨hdescriptor, hrunning⟩
        · intro sent hsent d parent standby sequence segment haccepted
          rw [List.mem_singleton.mp hsent, hrequest] at haccepted
          cases haccepted
      case h_2 => exact h
    | joinUnsent request => exact (h.takeOut request).dropViewer _
    | leave viewer applicationId sends =>
      unfold Network.next
      dsimp only
      split
      · exact h
      split
      case h_1 messages hmessages =>
        refine (h.dropViewer viewer).send _ fun sent hsent => ?_
        unfold IncomingStreamState.leaveStream at hmessages
        split at hmessages
        · cases hmessages
        · cases hmessages
          obtain ⟨recipient, _, rfl⟩ := List.mem_map.mp (List.mem_of_mem_filter hsent)
          nofun
      case h_2 => exact h
    | deliver e now joinedAt sends =>
      have he := h.accepted e henabled
      unfold Network.next Network.receive
      dsimp only
      split
      case isTrue => exact h.takeOut e
      case isFalse hother =>
      rw [(h.takeOut e).streamer_eq]
      split
      case isTrue hrecipient =>
        exact (h.takeOut e).atSource (fun hsender => hother (hsender.trans hrecipient.symm))
          now joinedAt sends e.message
      case isFalse hrecipient => exact (h.takeOut e).atViewer hrecipient sends he
    | expire viewer now =>
      unfold Network.next
      dsimp only
      split
      · exact h
      · split
        · exact h.dropViewer viewer
        · exact h

section Pairs

variable {n' : Network} {relay child viewer : MainDht} {e : Envelope}
  {state : Option IncomingStreamState}

theorem forwards_setViewer : (n.setViewer viewer state).Forwards relay child ↔
      if relay = viewer then ∃ stream, state = some stream ∧ stream.running = true ∧
        child ∈ stream.children
      else n.Forwards relay child := by
  unfold Forwards
  rw [lookup_setViewer]
  split <;> rfl

/-- A message taken out of flight matters for the pairs that it settles or parts. -/
theorem Agree.takeOut (h : n.Agree relay child)
    (hsettles : n.Settles relay child e → n.source.Records relay child →
      n.Forwards relay child ∨ (n.takeOut e).Accounted relay child)
    (hdeparts : n.Departs relay child e → n.Forwards relay child →
      n.source.Records relay child ∨ (n.takeOut e).Departing relay child) :
    (n.takeOut e).Agree relay child where
  forwarded hforwards := by
    rcases h.forwarded hforwards with hrecords | ⟨e', he', hdeparts'⟩
    · exact .inl hrecords
    · by_cases heq : e' = e
      · exact hdeparts (heq ▸ hdeparts') hforwards
      · exact .inr ⟨e', (List.mem_erase_of_ne heq).mpr he', hdeparts'⟩
  recorded hrecords := by
    rcases h.recorded hrecords with hforwards | ⟨e', he', hsettles'⟩
    · exact .inl hforwards
    · by_cases heq : e' = e
      · exact hsettles (heq ▸ hsettles') hrecords
      · exact .inr ⟨e', (List.mem_erase_of_ne heq).mpr he', hsettles'⟩

/-- More messages in flight do no harm. -/
theorem Accounted.mono (h : n.Accounted relay child) (hdescriptor : n'.descriptor = n.descriptor)
    (hsub : ∀ e ∈ n.inFlight, e ∈ n'.inFlight) : n'.Accounted relay child := by
  obtain ⟨e, he, hsettles⟩ := h
  refine ⟨e, hsub e he, ?_⟩
  unfold Settles assignmentOf leaveOf streamer at hsettles ⊢
  rw [hdescriptor]
  exact hsettles

theorem Departing.mono (h : n.Departing relay child) (hdescriptor : n'.descriptor = n.descriptor)
    (hsub : ∀ e ∈ n.inFlight, e ∈ n'.inFlight) : n'.Departing relay child := by
  obtain ⟨e, he, hdeparts⟩ := h
  refine ⟨e, hsub e he, ?_⟩
  unfold Departs leaveOf at hdeparts ⊢
  rw [hdescriptor]
  exact hdeparts

theorem Agree.mono (h : n.Agree relay child) (hdescriptor : n'.descriptor = n.descriptor)
    (hsub : ∀ e ∈ n.inFlight, e ∈ n'.inFlight)
    (hforwards : n'.Forwards relay child ↔ n.Forwards relay child)
    (hrecords : n'.source.Records relay child ↔ n.source.Records relay child) :
    n'.Agree relay child where
  forwarded hforwards' := by
    rcases h.forwarded (hforwards.mp hforwards') with hold | hold
    · exact .inl (hrecords.mpr hold)
    · exact .inr (hold.mono hdescriptor hsub)
  recorded hrecords' := by
    rcases h.recorded (hrecords.mp hrecords') with hold | hold
    · exact .inl (hforwards.mpr hold)
    · exact .inr (hold.mono hdescriptor hsub)

theorem subset_send {sender : MainDht} {messages : List Addressed} :
    ∀ e ∈ n.inFlight, e ∈ (n.send sender messages).inFlight :=
  fun _ he => mem_inFlight_send.mpr (.inl he)

/-- The source is no relay and no child. -/
theorem Consistent.streamer_not_relay (h : n.Consistent descriptor) :
    ¬ n.source.Records n.streamer child ∧ ¬ n.Forwards n.streamer child := by
  rw [h.streamer_eq]
  constructor
  · rintro ⟨_, hlookup, _⟩
    rw [h.linked.source_absent] at hlookup
    cases hlookup
  · rintro ⟨_, hlookup, _⟩
    rw [h.streamer_absent] at hlookup
    cases hlookup

theorem Consistent.parentOf_child (h : n.Consistent descriptor)
    (hrecords : n.source.Records relay child) : n.source.parentOf child = some relay := by
  obtain ⟨participant, hlookup, hchild⟩ := hrecords
  exact h.linked.child relay participant hlookup child hchild

/-- A viewer that forgets, or starts anew with no children. -/
theorem agree_forget (h : ∀ relay child, n.Agree relay child) (hforget : n.MayForget viewer)
    (hstate : ∀ stream, state = some stream → stream.children = ∅) :
    ∀ relay child, (n.setViewer viewer state).Agree relay child := by
  intro relay child
  have hsource : (n.setViewer viewer state).source = n.source := source_setViewer
  by_cases hrelay : relay = viewer
  · subst hrelay
    have hnone : ¬ (n.setViewer relay state).Forwards relay child := by
      rw [forwards_setViewer, if_pos rfl]
      rintro ⟨stream, hstream, _, hchild⟩
      rw [hstate stream hstream] at hchild
      exact absurd hchild (Finset.notMem_empty child)
    refine ⟨fun hforwards => absurd hforwards hnone, fun hrecords => ?_⟩
    rw [hsource] at hrecords
    right
    have haccounted : n.Accounted relay child := by
      rcases (h relay child).recorded hrecords with ⟨stream, hlookup, _, hchild⟩ | haccounted
      · exact hforget stream hlookup child hchild hrecords
      · exact haccounted
    exact haccounted.mono (by rw [Network.descriptor, hsource])
      (by rw [inFlight_setViewer]; exact fun _ he => he)
  · apply (h relay child).mono (by rw [Network.descriptor, hsource])
      (by rw [inFlight_setViewer]; exact fun _ he => he)
    · rw [forwards_setViewer, if_neg hrelay]
    · rw [hsource]

end Pairs

/-! ## Messages that arrive at the source -/

section AtSource

variable {sender viewer : MainDht} {now joinedAt : UInt64} {sends : Sends} {n' : Network}

/-- Where the source records a new child, its assignment is on the way. -/
theorem agree_insertViewer (hconsistent : n.Consistent descriptor)
    (h : ∀ relay child, n.Agree relay child)
    (hfresh : n.source.participants.lookup viewer = none) (hviewer : viewer ≠ n.streamer)
    (relayCapacity : UInt16) (joinedAt : UInt64)
    (hsource : n'.source = n.source.insertViewer n.streamer viewer relayCapacity joinedAt)
    (hviewers : n'.viewers = n.viewers) (hsub : ∀ e ∈ n.inFlight, e ∈ n'.inFlight)
    (htold : (n.source.chooseParent n.streamer).1 ≠ n.streamer →
      ⟨n.streamer, (n.source.chooseParent n.streamer).1, n.assignmentOf viewer⟩ ∈ n'.inFlight)
    (relay child : MainDht) : n'.Agree relay child := by
  have hlinked : n.source.Linked n.streamer := hconsistent.streamer_eq ▸ hconsistent.linked
  have hdescriptor : n'.descriptor = n.descriptor := by
    rw [Network.descriptor, hsource]
    exact descriptor_insertViewer _ _ _ _ _
  have hforwards : n'.Forwards relay child ↔ n.Forwards relay child := by
    unfold Forwards
    rw [hviewers]
  have hrecords : n'.source.Records relay child ↔ n.source.Records relay child ∨
      (child = viewer ∧ relay = (n.source.chooseParent n.streamer).1 ∧ relay ≠ n.streamer) := by
    rw [hsource]
    exact records_insertViewer hlinked hfresh hviewer
  refine ⟨fun hold => ?_, fun hnew => ?_⟩
  · rcases (h relay child).forwarded (hforwards.mp hold) with hold | hold
    · exact .inl (hrecords.mpr (.inl hold))
    · exact .inr (hold.mono hdescriptor hsub)
  rcases hrecords.mp hnew with hold | ⟨rfl, rfl, hrelay⟩
  · rcases (h relay child).recorded hold with hold | haccounted
    · exact .inl (hforwards.mpr hold)
    · exact .inr (haccounted.mono hdescriptor hsub)
  right
  refine ⟨_, htold hrelay, .inl ⟨?_, ?_, rfl⟩⟩
  · unfold assignmentOf
    rw [hdescriptor]
  · unfold streamer
    rw [hdescriptor]

/-- A request leaves the pairs in agreement. -/
theorem agree_joinRequest (hconsistent : n.Consistent descriptor)
    (h : ∀ relay child, n.Agree relay child) (hsender : sender ≠ n.streamer)
    (d : StreamDescriptor) (viewerMainDht : MainDht) (relayCapacity : UInt16)
    (requestedAt : UInt64) (relay child : MainDht) :
    (n.atSource verifyDescriptor sender now joinedAt sends
      (.joinRequest d viewerMainDht relayCapacity requestedAt)).Agree relay child := by
  have hlinked : n.source.Linked n.streamer := hconsistent.streamer_eq ▸ hconsistent.linked
  cases hlinked.joined verifyDescriptor
      { descriptor := d, viewerMainDht, relayCapacity, requestedAt } now joinedAt sends.join
      hsender with
  | same hsame =>
    refine (h relay child).mono ?_ subset_send Iff.rfl ?_
    · exact descriptor_processJoinRequest _ _ _ _ _ _ _
    · exact hsame.records_iff
  | @inserted _ capacity joinedAt' hviewer hfresh _ hnext htold =>
  refine agree_insertViewer hconsistent h hfresh hviewer capacity joinedAt' ?_ ?_ ?_ ?_ relay child
  · exact hnext
  · rfl
  · exact subset_send
  · intro hrelay
    exact mem_inFlight_send.mpr (.inr ⟨_, htold hrelay, rfl⟩)

variable {e : Envelope} {streamId : Bytes} {generation : UInt64}

/-- A leave that the source does not take matters for no pair. -/
theorem agree_leave_refused (hconsistent : n.Consistent descriptor)
    (h : ∀ relay child, n.Agree relay child)
    (hmessage : e.message = .leave streamId generation viewer)
    (hrecipient : e.recipient = n.streamer) (hrefused : ¬ (streamId = n.descriptor.streamId ∧
      n.source.AcceptsLeave e.sender generation viewer)) (relay child : MainDht) :
    (n.takeOut e).Agree relay child := by
  refine (h relay child).takeOut (fun hsettles hrecords => ?_) (fun hdeparts hforwards => ?_)
  · -- A leave of the child or the relay would be taken.
    exfalso
    apply hrefused
    have hparent := hconsistent.parentOf_child hrecords
    obtain ⟨participant, hlookup, hparent_eq⟩ := parentOf_eq_some.mp hparent
    obtain ⟨above, habove, _⟩ := hrecords
    rcases hsettles with ⟨hassign, _⟩ | ⟨_, ⟨hleave, hfrom⟩ | ⟨hleave, hfrom⟩⟩
    · rw [hmessage] at hassign
      cases hassign
    · rw [hmessage] at hleave
      cases hleave
      refine ⟨rfl, rfl, participant, hlookup, ?_⟩
      rcases hfrom with hfrom | hfrom
      · exact .inl hfrom
      · exact .inr (hparent_eq.trans hfrom.symm)
    · rw [hmessage] at hleave
      cases hleave
      exact ⟨rfl, rfl, above, habove, .inl hfrom⟩
  · obtain ⟨_, _, hrelay, _⟩ := hdeparts
    rw [hrecipient] at hrelay
    subst hrelay
    exact absurd hforwards hconsistent.streamer_not_relay.2

/-- A removal leaves the pairs in agreement if the relays concerned have been told. -/
theorem agree_leave_taken (h : ∀ relay child, n.Agree relay child)
    (hmessage : e.message = .leave streamId generation viewer)
    {removed : ParticipantState} (hremoved : n.source.participants.lookup viewer = some removed)
    (hmay : (n.takeOut e).MayRemove viewer)
    (hsource : n'.source = (n.source.removeParticipantAndReassign n.streamer viewer).1)
    (hviewers : n'.viewers = n.viewers) (hsub : ∀ e' ∈ (n.takeOut e).inFlight, e' ∈ n'.inFlight)
    (relay child : MainDht) : n'.Agree relay child := by
  have hdescriptor : n'.descriptor = (n.takeOut e).descriptor := by
    rw [Network.descriptor, hsource, removeParticipantAndReassign, descriptor_reattach]
    rfl
  have hforwards : n'.Forwards relay child ↔ (n.takeOut e).Forwards relay child := by
    unfold Forwards
    rw [hviewers]
    rfl
  have hrecords : n'.source.Records relay child ↔
      n.source.Records relay child ∧ relay ≠ viewer ∧ child ≠ viewer := by
    rw [hsource]
    exact records_remove hremoved
  by_cases hchild : child = viewer
  · -- The viewer as a child.
    refine ⟨fun hforward => ?_, fun hrecord => absurd hchild (hrecords.mp hrecord).2.2⟩
    right
    subst hchild
    have hrelay : relay ∈ (n.takeOut e).viewers.keys := by
      obtain ⟨stream, hlookup, _⟩ := hforward
      rw [viewers_takeOut, ← hviewers]
      exact AList.mem_keys.mp (AList.lookup_isSome.mp (by rw [hlookup]; rfl))
    exact (hmay.1 relay hrelay (hforwards.mp hforward)).mono hdescriptor hsub
  by_cases hrelay : relay = viewer
  · -- The viewer as a relay.
    refine ⟨fun hforward => ?_, fun hrecord => absurd hrelay (hrecords.mp hrecord).2.1⟩
    right
    subst hrelay
    obtain ⟨stream, hlookup, _, hmem⟩ := hforwards.mp hforward
    exact (hmay.2 stream hlookup child hmem).mono hdescriptor hsub
  -- The message is about neither of the two.
  have hagree : (n.takeOut e).Agree relay child := by
    refine (h relay child).takeOut (fun hsettles _ => ?_) (fun hdeparts _ => ?_)
    · rcases hsettles with ⟨hassign, _⟩ | ⟨_, ⟨hleave, _⟩ | ⟨hleave, _⟩⟩
      · rw [hmessage] at hassign
        cases hassign
      · rw [hmessage] at hleave
        cases hleave
        exact absurd rfl hchild
      · rw [hmessage] at hleave
        cases hleave
        exact absurd rfl hrelay
    · have hleave := hdeparts.1
      rw [hmessage] at hleave
      cases hleave
      exact absurd rfl hchild
  apply hagree.mono hdescriptor hsub hforwards
  rw [hrecords]
  exact ⟨And.left, fun hrecord => ⟨hrecord, hrelay, hchild⟩⟩

end AtSource

end Network

end VeilKnit.StreamTransport
