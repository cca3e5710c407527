import VeilKnit.StreamTransport.RelayAgreement

/-!
# The relays' children over whole runs

The source's tree and the relays' children agree once nothing is in flight, provided that
no step pulls them apart: a relay that forgets its children by joining again is never told
of them a second time, an assignment may reach a relay that has no room or that the viewer
has left already, and a viewer that leaves before it knows its parent does not tell it.
-/

namespace VeilKnit.StreamTransport

open Library OutgoingStreamState

namespace Network

variable {verifyDescriptor : StreamDescriptor → Except StreamTransportError Unit}
  {descriptor : StreamDescriptor} {n : Network}

/-! ## Messages that arrive at a viewer -/

section AtViewer

variable {e : Envelope} {sends : Sends}

/-- Messages that neither assign a child nor announce a leave matter for no pair. -/
theorem agree_takeOut_other (h : ∀ relay child, n.Agree relay child)
    (hassign : ∀ streamId generation child, e.message ≠ .assignChild streamId generation child)
    (hleave : ∀ streamId generation viewer, e.message ≠ .leave streamId generation viewer)
    (relay child : MainDht) : (n.takeOut e).Agree relay child := by
  refine (h relay child).takeOut (fun hsettles _ => ?_) (fun hdeparts _ => ?_)
  · rcases hsettles with ⟨hmessage, _⟩ | ⟨_, ⟨hmessage, _⟩ | ⟨hmessage, _⟩⟩
    · exact absurd hmessage (hassign _ _ _)
    · exact absurd hmessage (hleave _ _ _)
    · exact absurd hmessage (hleave _ _ _)
  · exact absurd hdeparts.1 (hleave _ _ _)

variable {assigned relay child viewer : MainDht} {streamId : Bytes} {generation : UInt64}

/-- An assignment matters for its relay and its child alone. -/
theorem agree_takeOut_assignment (h : ∀ relay child, n.Agree relay child)
    (hmessage : e.message = .assignChild streamId generation assigned)
    (hother : ¬ (relay = e.recipient ∧ child = assigned)) : (n.takeOut e).Agree relay child := by
  refine (h relay child).takeOut (fun hsettles _ => ?_) (fun hdeparts _ => ?_)
  · rcases hsettles with ⟨hassign, _, hrelay⟩ | ⟨_, ⟨hleave, _⟩ | ⟨hleave, _⟩⟩
    · rw [hmessage] at hassign
      cases hassign
      exact absurd ⟨hrelay.symm, rfl⟩ hother
    · rw [hmessage] at hleave
      cases hleave
    · rw [hmessage] at hleave
      cases hleave
  · have hleave := hdeparts.1
    rw [hmessage] at hleave
    cases hleave

/-- A leave on its way to a relay matters for that relay and the viewer alone. -/
theorem agree_takeOut_departure (h : ∀ relay child, n.Agree relay child)
    (hmessage : e.message = .leave streamId generation viewer)
    (hrecipient : e.recipient ≠ n.streamer)
    (hother : ¬ (relay = e.recipient ∧ child = viewer)) : (n.takeOut e).Agree relay child := by
  refine (h relay child).takeOut (fun hsettles _ => ?_) (fun hdeparts _ => ?_)
  · rcases hsettles with ⟨hassign, _⟩ | ⟨hstreamer, _⟩
    · rw [hmessage] at hassign
      cases hassign
    · exact absurd hstreamer hrecipient
  · obtain ⟨hleave, _, hrelay, _⟩ := hdeparts
    rw [hmessage] at hleave
    cases hleave
    exact absurd ⟨hrelay.symm, rfl⟩ hother

variable {stream : IncomingStreamState}

theorem forwards_iff (hlookup : n.viewers.lookup relay = some stream) :
    n.Forwards relay child ↔ stream.running = true ∧ child ∈ stream.children := by
  unfold Forwards
  rw [hlookup]
  constructor
  · rintro ⟨_, ⟨⟩, hforwards⟩
    exact hforwards
  · exact fun hforwards => ⟨stream, rfl, hforwards⟩

theorem forwards_updated {messages : List Addressed} :
    ((n.setViewer relay (some stream)).send relay messages).Forwards relay child ↔
      stream.running = true ∧ child ∈ stream.children := by
  apply forwards_iff
  rw [viewers_send, lookup_setViewer, if_pos rfl]

/-- A step of a viewer that leaves the pair alone. -/
theorem Agree.update {stream' : IncomingStreamState}
    (h : n.Agree relay child) (hlookup : n.viewers.lookup viewer = some stream)
    (hsame : relay = viewer → (stream'.running = true ∧ child ∈ stream'.children ↔
      stream.running = true ∧ child ∈ stream.children)) (messages : List Addressed) :
    ((n.setViewer viewer (some stream')).send viewer messages).Agree relay child := by
  have hforwards : (n.setViewer viewer (some stream')).Forwards relay child ↔
      n.Forwards relay child := by
    rw [forwards_setViewer]
    by_cases hrelay : relay = viewer
    · subst hrelay
      rw [if_pos rfl, forwards_iff hlookup, ← hsame rfl]
      simp
    · rw [if_neg hrelay]
  exact h.mono rfl (fun e he => subset_send e he) hforwards Iff.rfl

theorem agree_assignChild (hconsistent : n.Consistent descriptor)
    (h : ∀ relay child, n.Agree relay child)
    (hmessage : e.message = .assignChild streamId generation assigned)
    (hintime : (n.takeOut e).InTime e.recipient e.sender streamId generation assigned)
    (relay child : MainDht) :
    ((n.takeOut e).atViewer verifyDescriptor e.recipient e.sender sends e.message).Agree relay
      child := by
  unfold Network.atViewer
  -- Unless the relay takes it, the assignment settled nothing.
  have hrefused : ¬ (n.takeOut e).Takes e.recipient e.sender streamId generation assigned →
      (n.takeOut e).Agree relay child := by
    intro hnot
    by_cases hpair : relay = e.recipient ∧ child = assigned
    · obtain ⟨rfl, rfl⟩ := hpair
      refine (h _ _).takeOut (fun _ hrecords => .inr ?_) (fun hdeparts _ => ?_)
      · exact (hintime.2 hrecords).resolve_left hnot
      · have hleave := hdeparts.1
        rw [hmessage] at hleave
        cases hleave
    · exact agree_takeOut_assignment h hmessage hpair
  cases hlookup : (n.takeOut e).viewers.lookup e.recipient with
  | none =>
    apply hrefused
    rintro ⟨stream, hstream, _⟩
    rw [hlookup] at hstream
    cases hstream
  | some stream =>
    dsimp only
    rw [hmessage, IncomingStreamState.process_assignChild]
    split
    case isTrue htakes =>
      by_cases hpair : relay = e.recipient ∧ child = assigned
      · obtain ⟨rfl, rfl⟩ := hpair
        have hrunning := (hconsistent.viewer _ _ hlookup).2
        refine ⟨fun _ => ?_, fun _ =>
          .inl (forwards_updated.mpr ⟨hrunning, Finset.mem_insert_self _ _⟩)⟩
        rcases hintime.1 ⟨stream, hlookup, htakes⟩ with hrecords | hdeparting
        · exact .inl hrecords
        · exact .inr (hdeparting.mono rfl subset_send)
      · apply (agree_takeOut_assignment h hmessage hpair).update hlookup
        intro hrelay
        have hchild : child ≠ assigned := fun heq => hpair ⟨hrelay, heq⟩
        simp [hchild]
    case isFalse hnot =>
      refine (hrefused ?_).update hlookup (fun _ => Iff.rfl) _
      rintro ⟨stream', hstream', htakes⟩
      rw [hlookup] at hstream'
      cases hstream'
      exact hnot htakes

theorem agree_leave_relayed (hconsistent : n.Consistent descriptor)
    (h : ∀ relay child, n.Agree relay child)
    (hmessage : e.message = .leave streamId generation viewer)
    (hrecipient : e.recipient ≠ n.streamer) (hrelayed : sends.other (n.streamer, e.message) = true ∨
      (n.source.Records e.recipient viewer → (n.takeOut e).Accounted e.recipient viewer))
    (relay child : MainDht) :
    ((n.takeOut e).atViewer verifyDescriptor e.recipient e.sender sends e.message).Agree relay
      child := by
  unfold Network.atViewer
  cases hlookup : (n.takeOut e).viewers.lookup e.recipient with
  | none =>
    by_cases hpair : relay = e.recipient ∧ child = viewer
    · obtain ⟨rfl, rfl⟩ := hpair
      refine (h _ _).takeOut (fun hsettles _ => ?_) (fun _ hforwards => ?_)
      · rcases hsettles with ⟨hassign, _⟩ | ⟨hstreamer, _⟩
        · rw [hmessage] at hassign
          cases hassign
        · exact absurd hstreamer hrecipient
      · obtain ⟨stream, hstream, _⟩ := hforwards
        rw [viewers_takeOut] at hlookup
        rw [hlookup] at hstream
        cases hstream
    · exact agree_takeOut_departure h hmessage hrecipient hpair
  | some stream =>
    obtain ⟨hdescriptor, hrunning⟩ := hconsistent.viewer _ _ hlookup
    rw [← hconsistent.descriptor_eq] at hdescriptor
    dsimp only
    rw [hmessage, IncomingStreamState.process_leave]
    split
    case isTrue hgoes =>
      obtain ⟨hid, hgeneration, _, _⟩ := hgoes
      have hleaveOf : n.leaveOf viewer = .leave streamId generation viewer := by
        rw [leaveOf, hid, ← hgeneration, hdescriptor]
      by_cases hpair : relay = e.recipient ∧ child = viewer
      · obtain ⟨rfl, rfl⟩ := hpair
        refine ⟨fun hforwards => ?_, fun hrecords => .inr ?_⟩
        · have hmem := (forwards_updated.mp hforwards).2
          exact absurd hmem (Finset.notMem_erase _ _)
        rcases hrelayed with hsent | hsettled
        · refine ⟨⟨e.recipient, n.streamer, n.leaveOf child⟩,
            mem_inFlight_send.mpr (.inr ⟨(n.streamer, n.leaveOf child), ?_, rfl⟩),
            .inr ⟨rfl, .inl ⟨rfl, .inr rfl⟩⟩⟩
          rw [hmessage, ← hleaveOf] at hsent
          rw [hdescriptor, ← hleaveOf]
          exact List.mem_filter.mpr ⟨List.mem_singleton.mpr rfl, hsent⟩
        · exact (hsettled hrecords).mono rfl subset_send
      · apply (agree_takeOut_departure h hmessage hrecipient hpair).update hlookup
        intro hrelay
        have hchild : child ≠ viewer := fun heq => hpair ⟨hrelay, heq⟩
        simp [hchild]
    case isFalse hstays =>
    have hagree : (n.takeOut e).Agree relay child := by
      by_cases hpair : relay = e.recipient ∧ child = viewer
      · obtain ⟨rfl, rfl⟩ := hpair
        refine (h _ _).takeOut (fun hsettles _ => ?_) (fun hdeparts hforwards => ?_)
        · rcases hsettles with ⟨hassign, _⟩ | ⟨hstreamer, _⟩
          · rw [hmessage] at hassign
            cases hassign
          · exact absurd hstreamer hrecipient
        -- Its own leave is taken by a relay that forwards to it.
        obtain ⟨hleave, hfrom, _, _⟩ := hdeparts
        rw [hmessage] at hleave
        cases hleave
        rw [viewers_takeOut] at hlookup
        have hmem := ((forwards_iff hlookup).mp hforwards).2
        exact absurd ⟨by rw [hdescriptor], by rw [hdescriptor], hfrom, hmem⟩ hstays
      · exact agree_takeOut_departure h hmessage hrecipient hpair
    exact hagree.update hlookup (fun _ => Iff.rfl) _

theorem agree_other (h : ∀ relay child, n.Agree relay child)
    (hassign : ∀ streamId generation child, e.message ≠ .assignChild streamId generation child)
    (hleave : ∀ streamId generation viewer, e.message ≠ .leave streamId generation viewer)
    (hforget : (∃ streamId generation reason,
      e.message = .joinRejected streamId generation reason) → (n.takeOut e).MayForget e.recipient)
    (relay child : MainDht) :
    ((n.takeOut e).atViewer verifyDescriptor e.recipient e.sender sends e.message).Agree relay
      child := by
  have hagree := agree_takeOut_other h hassign hleave
  unfold Network.atViewer
  cases hlookup : (n.takeOut e).viewers.lookup e.recipient with
  | none => exact hagree relay child
  | some stream =>
    dsimp only
    have hother : (stream.process verifyDescriptor e.sender e.message).2 = [] ∧
        ∀ stream', (stream.process verifyDescriptor e.sender e.message).1 = some stream' →
          stream.SameRelay stream' e.message :=
      IncomingStreamState.process_other hassign hleave
    rw [hother.1]
    cases hresult : (stream.process verifyDescriptor e.sender e.message).1 with
    | none =>
      have hrejected := IncomingStreamState.process_eq_none hresult
      have hforgotten : ((n.takeOut e).setViewer e.recipient none).Agree relay child :=
        agree_forget hagree (hforget hrejected) (by nofun) relay child
      exact hforgotten.mono rfl (fun e he => subset_send e he) Iff.rfl Iff.rfl
    | some stream' =>
      have hsame := hother.2 stream' hresult
      apply (hagree relay child).update hlookup
      intro _
      rw [hsame.running, hsame.children]

end AtViewer

/-! ## Every run -/

/-- A message from a node to itself is dropped, and mattered for no pair. -/
theorem agree_dropped (hconsistent : n.Consistent descriptor)
    (h : ∀ relay child, n.Agree relay child) {e : Envelope} (hself : e.sender = e.recipient)
    (relay child : MainDht) : (n.takeOut e).Agree relay child := by
  refine (h relay child).takeOut (fun hsettles hrecords => ?_) (fun hdeparts _ => ?_)
  · exfalso
    have hrelay : relay ≠ n.streamer := by
      rintro rfl
      exact hconsistent.streamer_not_relay.1 hrecords
    have hchild : child ≠ n.streamer := by
      rintro rfl
      have hparent := hconsistent.parentOf_child hrecords
      rw [hconsistent.streamer_eq, hconsistent.linked.source_root] at hparent
      cases hparent
    rcases hsettles with ⟨_, hsender, hrecipient⟩ | ⟨hrecipient, ⟨_, hsender⟩ | ⟨_, hsender⟩⟩
    · exact hrelay (hrecipient.symm.trans (hself.symm.trans hsender))
    · rcases hsender with hsender | hsender
      · exact hchild (hsender.symm.trans (hself.trans hrecipient))
      · exact hrelay (hsender.symm.trans (hself.trans hrecipient))
    · exact hrelay (hsender.symm.trans (hself.trans hrecipient))
  · obtain ⟨_, hsender, hrecipient, hne⟩ := hdeparts
    exact absurd (hsender.symm.trans (hself.trans hrecipient)) hne

/-- A delivery that keeps the step. -/
theorem agree_deliver (hconsistent : n.Consistent descriptor)
    (h : ∀ relay child, n.Agree relay child) {e : Envelope} {now joinedAt : UInt64}
    {sends : Sends} (hkeeps : e.sender = e.recipient ∨ (n.takeOut e).KeepsStep e sends)
    (relay child : MainDht) :
    ((n.takeOut e).receive verifyDescriptor e now joinedAt sends).Agree relay child := by
  unfold Network.receive
  by_cases hself : e.sender = e.recipient
  · rw [if_pos hself]
    exact agree_dropped hconsistent h hself relay child
  rw [if_neg hself, streamer_takeOut]
  have hkeeps := hkeeps.resolve_left hself
  unfold KeepsStep at hkeeps
  rw [streamer_takeOut] at hkeeps
  have hsender : e.recipient = n.streamer → e.sender ≠ n.streamer :=
    fun hrecipient hsender => hself (hsender.trans hrecipient.symm)
  by_cases hrecipient : e.recipient = n.streamer
  · rw [if_pos hrecipient]
    cases hmessage : e.message with
    | joinRequest d viewer relayCapacity requestedAt =>
      have hagree : ∀ relay child, (n.takeOut e).Agree relay child :=
        agree_takeOut_other h (by rw [hmessage]; nofun) (by rw [hmessage]; nofun)
      exact agree_joinRequest (hconsistent.takeOut e) hagree (hsender hrecipient) d viewer
        relayCapacity requestedAt relay child
    | leave streamId generation viewer =>
      rw [hmessage] at hkeeps
      dsimp only at hkeeps
      rw [if_pos hrecipient] at hkeeps
      unfold Network.atSource
      dsimp only
      split
      case isTrue hid =>
        exact agree_leave_refused hconsistent h hmessage hrecipient
          (fun haccepts => hid haccepts.1) relay child
      case isFalse hid =>
      have hid := not_not.mp hid
      rcases n.source.leave_cases n.streamer e.sender generation viewer sends.other with
        ⟨hrefused, hnext⟩ | ⟨removed, haccepts, hremoved, hnext⟩
      · have hagree := agree_leave_refused hconsistent h hmessage hrecipient
          (fun haccepts => hrefused haccepts.2) relay child
        refine hagree.mono ?_ subset_send Iff.rfl ?_
        · exact descriptor_handleLeave _ _ _ _ _ _
        · rw [source_send, source_takeOut, streamer_takeOut, hnext]
      · refine agree_leave_taken h hmessage hremoved (hkeeps hid haccepts) ?_ ?_ ?_ relay child
        · exact hnext
        · rfl
        · exact subset_send
    | assignChild streamId generation assigned =>
      refine (h relay child).takeOut (fun hsettles hrecords => ?_) (fun hdeparts _ => ?_)
      · rcases hsettles with ⟨_, _, hrelay⟩ | ⟨_, ⟨hleave, _⟩ | ⟨hleave, _⟩⟩
        · rw [← hrelay, hrecipient] at hrecords
          exact absurd hrecords hconsistent.streamer_not_relay.1
        · rw [hmessage] at hleave
          cases hleave
        · rw [hmessage] at hleave
          cases hleave
      · have hleave := hdeparts.1
        rw [hmessage] at hleave
        cases hleave
    | _ => exact agree_takeOut_other h (by rw [hmessage]; nofun) (by rw [hmessage]; nofun) relay child
  rw [if_neg hrecipient]
  cases hmessage : e.message with
  | assignChild streamId generation assigned =>
    rw [hmessage] at hkeeps
    rw [← hmessage]
    exact agree_assignChild hconsistent h hmessage hkeeps relay child
  | leave streamId generation viewer =>
    rw [hmessage] at hkeeps
    dsimp only at hkeeps
    rw [if_neg hrecipient, ← hmessage] at hkeeps
    rw [← hmessage]
    exact agree_leave_relayed hconsistent h hmessage hrecipient hkeeps relay child
  | joinRejected streamId generation reason =>
    rw [hmessage] at hkeeps
    rw [← hmessage]
    exact agree_other h (by rw [hmessage]; nofun) (by rw [hmessage]; nofun)
      (fun _ => hkeeps) relay child
  | _ =>
    rw [← hmessage]
    exact agree_other h (by rw [hmessage]; nofun) (by rw [hmessage]; nofun)
      (by rw [hmessage]; rintro ⟨_, _, _, ⟨⟩⟩) relay child

/-- A viewer that leaves tells the source, which will take it out. -/
theorem agree_leaveStream (h : ∀ relay child, n.Agree relay child) {viewer : MainDht}
    {applicationId : Bytes} {sends : Sends} {stream : IncomingStreamState}
    {messages : List Addressed} (hdescriptor : stream.descriptor = n.descriptor)
    (hmessages : stream.leaveStream viewer applicationId = .ok messages)
    (horderly : sends.other (n.streamer, n.leaveOf viewer) = true ∨ n.MayForget viewer)
    (relay child : MainDht) :
    ((n.setViewer viewer none).send viewer (messages.filter sends.other)).Agree relay child := by
  have hkept : ∀ {n' : Network}, n'.Agree relay child →
      (n'.send viewer (messages.filter sends.other)).Agree relay child :=
    fun hagree => hagree.mono rfl (fun e he => subset_send e he) Iff.rfl Iff.rfl
  rcases horderly with hsent | hforget
  · by_cases hrelay : relay = viewer
    · subst hrelay
      have htold : (n.streamer, n.leaveOf relay) ∈ messages := by
        unfold IncomingStreamState.leaveStream at hmessages
        rw [hdescriptor] at hmessages
        split at hmessages
        · cases hmessages
        · cases hmessages
          refine List.mem_map.mpr ⟨n.streamer, ?_, rfl⟩
          split
          · split <;> exact List.mem_cons_self
          · exact List.mem_cons_self
      refine ⟨fun hforwards => ?_, fun _ => .inr ?_⟩
      · obtain ⟨stream', hstream', _⟩ := hforwards
        rw [viewers_send, lookup_setViewer, if_pos rfl] at hstream'
        cases hstream'
      · exact ⟨⟨relay, n.streamer, n.leaveOf relay⟩, mem_inFlight_send.mpr
          (.inr ⟨_, List.mem_filter.mpr ⟨htold, hsent⟩, rfl⟩), .inr ⟨rfl, .inr ⟨rfl, rfl⟩⟩⟩
    · apply hkept
      refine (h relay child).mono rfl (fun _ he => he) ?_ Iff.rfl
      rw [forwards_setViewer, if_neg hrelay]
  · exact hkept (agree_forget h hforget (by nofun) relay child)

/-- Every orderly step leaves the pairs in agreement. -/
theorem agree_next (hconsistent : n.Consistent descriptor)
    (h : ∀ relay child, n.Agree relay child) {event : NetworkEvent} (henabled : n.Enabled event)
    (horderly : n.Orderly event) (relay child : MainDht) :
    (n.next verifyDescriptor event).Agree relay child := by
  cases event with
  | join viewer applicationId relayCapacity now =>
    unfold Network.next
    dsimp only
    split
    case h_1 stream request hjoined =>
      have hfresh := (joinStream_ok hjoined).2.2.2.1
      have hagree : (n.setViewer viewer (some stream)).Agree relay child :=
        agree_forget h horderly (by rintro _ ⟨⟩; exact hfresh) relay child
      exact hagree.mono rfl (fun e he => subset_send e he) Iff.rfl Iff.rfl
    case h_2 => exact h relay child
  | joinUnsent request =>
    obtain ⟨_, hrequest⟩ := henabled
    have hagree : ∀ relay child, (n.takeOut request).Agree relay child := by
      apply agree_takeOut_other h
      · intro streamId generation assigned hmessage
        rw [hmessage] at hrequest
        cases hrequest
      · intro streamId generation viewer hmessage
        rw [hmessage] at hrequest
        cases hrequest
    have hforgotten : ((n.takeOut request).setViewer request.sender none).Agree relay child :=
      agree_forget hagree horderly (by nofun) relay child
    exact hforgotten
  | leave viewer applicationId sends =>
    unfold Network.next
    dsimp only
    cases hlookup : n.viewers.lookup viewer with
    | none => exact h relay child
    | some stream =>
      dsimp only
      split
      case h_1 messages hmessages =>
        have hdescriptor := (hconsistent.viewer viewer stream hlookup).1
        rw [← hconsistent.descriptor_eq] at hdescriptor
        exact agree_leaveStream h hdescriptor hmessages horderly relay child
      case h_2 => exact h relay child
  | deliver e now joinedAt sends => exact agree_deliver hconsistent h horderly relay child
  | expire viewer now =>
    unfold Network.next
    dsimp only
    cases hlookup : n.viewers.lookup viewer with
    | none => exact h relay child
    | some stream =>
      dsimp only
      split
      case isTrue hexpired =>
        exact agree_forget h (horderly ⟨stream, hlookup, hexpired⟩) (by nofun) relay child
      case isFalse => exact h relay child

theorem agree_within (reached :
    ((networkSystem verifyDescriptor descriptor).restrict Orderly).Reachable n) :
    ∀ relay child, n.Agree relay child := by
  refine consistent_invariant.holds_within (P := fun n => ∀ relay child, n.Agree relay child)
    ?_ ?_ reached
  · rintro n rfl relay child
    exact ⟨by rintro ⟨_, ⟨⟩, _⟩, by rintro ⟨_, ⟨⟩, _⟩⟩
  · rintro n event n' hconsistent h horderly ⟨henabled, rfl⟩
    exact agree_next hconsistent h henabled horderly

/-- In every run of orderly steps, once nothing is in flight, the source records a child
under a relay if and only if the relay forwards packets to it. -/
theorem trees_agree (reached :
    ((networkSystem verifyDescriptor descriptor).restrict Orderly).Reachable n)
    (hdelivered : n.inFlight = []) (relay child : MainDht) :
    n.source.Records relay child ↔ n.Forwards relay child := by
  have hagree := agree_within reached relay child
  constructor
  · intro hrecords
    rcases hagree.recorded hrecords with hforwards | ⟨e, he, _⟩
    · exact hforwards
    · rw [hdelivered] at he
      cases he
  · intro hforwards
    rcases hagree.forwarded hforwards with hrecords | ⟨e, he, _⟩
    · exact hrecords
    · rw [hdelivered] at he
      cases he

end Network

/-! ## A relay that joins again -/

section Rejoin

open LabelledSystem

instance (n : Network) (event : NetworkEvent) : Decidable (n.Enabled event) :=
  match event with
  | .joinUnsent request =>
    inferInstanceAs (Decidable (request ∈ n.inFlight ∧ request.message.isJoinRequest))
  | .deliver envelope _ _ _ => inferInstanceAs (Decidable (envelope ∈ n.inFlight))
  | .join .. => .isTrue trivial
  | .leave .. => .isTrue trivial
  | .expire .. => .isTrue trivial

def allSent : Sends where
  join := { assigned := true, accepted := true, rejected := true }
  other _ := true

def requestOf (viewer : MainDht) (now : UInt64) : Envelope where
  sender := viewer
  recipient := [0]
  message := .joinRequest sampleDescriptor viewer 1 now

def acceptanceOf (viewer parent : MainDht) (standby : Option MainDht) : Envelope where
  sender := [0]
  recipient := viewer
  message := .joinAccepted sampleDescriptor parent standby 0 0

def assignmentTo (relay child : MainDht) : Envelope where
  sender := [0]
  recipient := relay
  message := .assignChild [7] 1 child

/-- Two viewers join, the second under the first, and all messages arrive. -/
def twoJoins : List NetworkEvent :=
  [.join [1] [8] 1 10, .deliver (requestOf [1] 10) 10 10 allSent,
    .deliver (acceptanceOf [1] [0] none) 10 10 allSent,
    .join [2] [8] 1 20, .deliver (requestOf [2] 20) 20 20 allSent,
    .deliver (assignmentTo [1] [2]) 20 20 allSent,
    .deliver (acceptanceOf [2] [1] (some [0])) 20 20 allSent]

def twoViewers : Network :=
  twoJoins.foldl (Network.next trustDescriptor) (.started sampleDescriptor)

theorem trees_agree_two_viewers : twoViewers.source.Records [1] [2] ∧
    ∀ relay child, twoViewers.source.Records relay child ↔ twoViewers.Forwards relay child := by
  have hrun : (runWithin (fun n event => some (Network.next trustDescriptor n event))
      (fun n event => n.Enabled event ∧ n.Orderly event) (.started sampleDescriptor)
        twoJoins).isSome := by decide +kernel
  have hreached : ((networkSystem trustDescriptor sampleDescriptor).restrict
      Network.Orderly).Reachable twoViewers := by
    refine Reachable.of_runWithin ?_ (.start rfl) (runWithin_total hrun)
    rintro n event n' ⟨henabled, horderly⟩ ⟨⟩
    exact ⟨horderly, henabled, rfl⟩
  exact ⟨by decide +kernel, Network.trees_agree hreached (by decide +kernel)⟩

/-- The first viewer then joins again, and all messages arrive. -/
def rejoin : List NetworkEvent :=
  [.join [1] [8] 1 30, .deliver (requestOf [1] 30) 30 30 allSent,
    .deliver (acceptanceOf [1] [0] none) 30 30 allSent]

def rejoined : Network :=
  (twoJoins ++ rejoin).foldl (Network.next trustDescriptor) (.started sampleDescriptor)

/-- The source still records the second viewer under the first, which forwards nothing. -/
theorem rejoined_relay_forgets_child :
    ¬ ∀ n, (networkSystem trustDescriptor sampleDescriptor).Reachable n → n.inFlight = [] →
      ∀ relay child, n.source.Records relay child ↔ n.Forwards relay child := by
  intro hclaim
  have hrun : (runWithin (fun n event => some (Network.next trustDescriptor n event))
      Network.Enabled (.started sampleDescriptor) (twoJoins ++ rejoin)).isSome := by
    decide +kernel
  have hreached : (networkSystem trustDescriptor sampleDescriptor).Reachable rejoined := by
    refine Reachable.of_runWithin ?_ (.start rfl) (runWithin_total hrun)
    rintro n event n' henabled ⟨⟩
    exact ⟨henabled, rfl⟩
  have hrecords : rejoined.source.Records [1] [2] := by decide +kernel
  have hsilent : ¬ rejoined.Forwards [1] [2] := by decide +kernel
  exact hsilent ((hclaim rejoined hreached (by decide +kernel) [1] [2]).mp hrecords)

end Rejoin

end VeilKnit.StreamTransport
