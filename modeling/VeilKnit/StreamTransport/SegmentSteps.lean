import VeilKnit.Library.Fallible
import VeilKnit.StreamTransport.Segments

/-!
# The steps of a receiver

What a step can leave among the segments, the recorded hashes and the tasks of a viewer,
and what the stages of a verification have established.
-/

namespace VeilKnit.StreamTransport

open Library

variable {primitives : Primitives}

/-! ## What the stages establish -/

/-- The commitment stands on a page that the holder of the descriptor's key has signed. -/
def SignedBy (primitives : Primitives) (descriptor : StreamDescriptor)
    (commitment : StreamSegmentCommitment) : Prop :=
  ∃ page : SignedCommitmentPage, page.unsigned.streamId = descriptor.streamId ∧
    page.unsigned.generation = descriptor.generation ∧
    primitives.verifySignedBytes descriptor.signingPublicKeyHex streamCommitmentPageDomain
      (CommitmentPageUnsigned.codec.encode page.unsigned) page.signatureHex = .ok () ∧
    commitment ∈ page.unsigned.commitments

/-- The packets are as many as the commitment says and have its hash. -/
structure Committed (primitives : Primitives) (commitment : StreamSegmentCommitment)
    (packets : Packets) : Prop where
  count : packets.keys.length = commitment.packetCount.toNat
  hash : hashReceivedPackets primitives packets commitment.packetCount = .ok commitment.sha256

variable {commitment : StreamSegmentCommitment}

theorem readAndVerifyCommitmentPage_ok {descriptor : StreamDescriptor}
    {hint : StreamCommitmentHint} {fetched : Except StreamTransportError SignedCommitmentPage}
    (h : readAndVerifyCommitmentPage primitives descriptor hint fetched = .ok commitment) :
    SignedBy primitives descriptor commitment ∧
      commitment.segmentNumber = hint.segmentNumber ∧ commitment.packetCount ≠ 0 := by
  unfold readAndVerifyCommitmentPage at h
  split at h
  · cases h
  split at h
  · cases h
  obtain ⟨page, _, h⟩ := except_bind_eq_ok.mp h
  split at h
  · cases h
  case isFalse hidentity =>
  split at h
  · cases h
  obtain ⟨_, hsigned, h⟩ := except_bind_eq_ok.mp h
  split at h
  · cases h
  case h_2 found hfind =>
  split at h
  · cases h
  case isFalse hsizing =>
  obtain rfl : found = commitment := Except.ok.inj h
  have hnumber : found.segmentNumber = hint.segmentNumber := by
    simpa using List.find?_some hfind
  rw [not_or, not_not, not_not] at hidentity
  refine ⟨⟨page, hidentity.1, hidentity.2, hsigned, List.mem_of_find?_eq_some hfind⟩, hnumber, ?_⟩
  exact fun hzero => hsizing (Or.inl hzero)

variable {packets packets' : Packets}

theorem hashReceivedPackets_count {count : UInt32} {hash : Hash32}
    (h : hashReceivedPackets primitives packets count = .ok hash) :
    packets.keys.length = count.toNat := by
  by_contra hne
  rw [hashReceivedPackets, if_pos hne] at h
  cases h

/-- Only what the packets are counts, not in which order they are stored. -/
theorem hashReceivedPackets_perm (count : UInt32) (h : packets.entries.Perm packets'.entries) :
    hashReceivedPackets primitives packets count = hashReceivedPackets primitives packets' count := by
  have hlength : packets.keys.length = packets'.keys.length := (h.map _).length_eq
  have hlookup : ∀ index, packets.lookup index = packets'.lookup index := fun index =>
    AList.perm_lookup h
  have hat : packetAt packets = packetAt packets' := by
    funext index
    rw [packetAt, packetAt, hlookup]
  rw [hashReceivedPackets, hashReceivedPackets, hlength, hat]

/-- A packet without the mark that it has been sent again, which no hash covers. -/
def StreamPacketWire.content (packet : StreamPacketWire) : StreamPacketWire :=
  { packet with retransmission := false }

/-- The same packets, apart from the marks. -/
def SamePackets (packets packets' : Packets) : Prop :=
  (packets.mapEntries fun _ packet => packet.content).entries.Perm
    (packets'.mapEntries fun _ packet => packet.content).entries

instance (packets packets' : Packets) : Decidable (SamePackets packets packets') :=
  inferInstanceAs (Decidable (List.Perm _ _))

theorem packetSequenceBytes_content (packets : List StreamPacketWire) :
    packetSequenceBytes (packets.map StreamPacketWire.content) = packetSequenceBytes packets := by
  have hhashed : (packets.map StreamPacketWire.content).flatMap StreamPacketWire.hashed =
      packets.flatMap StreamPacketWire.hashed := by
    rw [List.flatMap_map]
    rfl
  unfold packetSequenceBytes
  rw [hhashed]
  cases packets with
  | nil => rfl
  | cons packet packets => rfl

theorem packetAt_content (packets : Packets) (index : UInt32) :
    packetAt (packets.mapEntries fun _ packet => packet.content) index =
      (packetAt packets index).map StreamPacketWire.content := by
  unfold packetAt
  rw [AList.lookup_mapEntries]
  cases packets.lookup index <;> rfl

theorem hashReceivedPackets_content (packets : Packets) (count : UInt32) :
    hashReceivedPackets primitives (packets.mapEntries fun _ packet => packet.content) count =
      hashReceivedPackets primitives packets count := by
  have hordered : ∀ indices : List UInt32,
      indices.mapM (packetAt (packets.mapEntries fun _ packet => packet.content)) =
        (indices.mapM (packetAt packets)).map (List.map StreamPacketWire.content) := by
    intro indices
    induction indices with
    | nil => rfl
    | cons index indices ih =>
      rw [List.mapM_cons, List.mapM_cons, ih, packetAt_content]
      cases packetAt packets index with
      | error error => rfl
      | ok packet => cases indices.mapM (packetAt packets) <;> rfl
  unfold hashReceivedPackets
  rw [AList.keys_mapEntries, hordered]
  cases (packetIndices count).mapM (packetAt packets) with
  | error error => rfl
  | ok ordered =>
    have hbytes := packetSequenceBytes_content ordered
    split
    · rfl
    · exact congrArg (fun bytes => Except.ok (primitives.sha256 bytes)) hbytes

theorem Committed.same
    (h : Committed primitives commitment packets) (hsame : SamePackets packets' packets) :
    Committed primitives commitment packets' := by
  have hhash : hashReceivedPackets primitives packets' commitment.packetCount =
      .ok commitment.sha256 := by
    rw [← hashReceivedPackets_content, hashReceivedPackets_perm commitment.packetCount hsame,
      hashReceivedPackets_content]
    exact h.hash
  exact ⟨hashReceivedPackets_count hhash, hhash⟩

variable {snapshot : Snapshot}

theorem examine_matching (h : snapshot.examine primitives commitment = .ok .matching) :
    missingPacketIndices snapshot.packets commitment.packetCount = [] ∧
      Committed primitives commitment snapshot.packets := by
  unfold Snapshot.examine at h
  dsimp only at h
  split at h
  · cases h
  case isFalse hmissing =>
  obtain ⟨computed, hcomputed, h⟩ := except_bind_eq_ok.mp h
  have hequal : computed = commitment.sha256 := by
    by_contra hne
    rw [if_pos hne] at h
    cases h
  subst hequal
  exact ⟨not_not.mp hmissing, hashReceivedPackets_count hcomputed, hcomputed⟩

theorem beginVerification_eq_some {stream : IncomingStreamState} {n : UInt64}
    (h : stream.beginVerification n = some snapshot) :
    (stream.segment n).hint = some snapshot.hint ∧ snapshot.segmentNumber = n ∧
      snapshot.descriptor = stream.descriptor ∧ snapshot.packets = (stream.segment n).packets := by
  unfold IncomingStreamState.beginVerification at h
  dsimp only at h
  split at h
  · cases h
  obtain ⟨hint, hhint, rfl⟩ := Option.map_eq_some_iff.mp h
  exact ⟨hhint, rfl, rfl, rfl⟩

/-! ## Segments after a step -/

namespace IncomingStreamState

variable {stream stream' : IncomingStreamState} {n now : UInt64}

theorem segment_eq {segment : ReceivedSegmentState}
    (h : stream.receivedSegments.lookup n = some segment) : stream.segment n = segment := by
  simp [IncomingStreamState.segment, h]

/-- A segment is stored, or nothing of it has arrived. -/
theorem segment_cases (stream : IncomingStreamState) (n : UInt64) :
    stream.receivedSegments.lookup n = some (stream.segment n) ∨ stream.segment n = .default := by
  cases h : stream.receivedSegments.lookup n with
  | none => exact Or.inr (by simp [IncomingStreamState.segment, h])
  | some segment => exact Or.inl (by rw [segment_eq h])

theorem lookup_setSegment (stream : IncomingStreamState) (n m : UInt64)
    (segment : ReceivedSegmentState) :
    (stream.setSegment n segment).receivedSegments.lookup m =
      if m = n then some segment else stream.receivedSegments.lookup m := by
  by_cases h : m = n
  · subst h
    simp [setSegment]
  · simp [setSegment, AList.lookup_insert_ne h, h]

/-- The segments and the recorded hashes are the same. -/
structure SameSegments (stream stream' : IncomingStreamState) : Prop where
  segments : stream'.receivedSegments = stream.receivedSegments
  hashes : stream'.verifiedCommitmentHashes = stream.verifiedCommitmentHashes

section Control

variable {verifyDescriptor : StreamDescriptor → Except StreamTransportError Unit}
  {stream stream' : IncomingStreamState} {sender : MainDht} {generation : UInt64}

theorem SameSegments.refl : SameSegments stream stream := ⟨rfl, rfl⟩

variable {parent : MainDht} {standby : Option MainDht}

theorem sameSegments_joinAccepted {descriptor : StreamDescriptor}
    {latestSequence latestSegment : UInt64}
    (h : stream.handleJoinAccepted verifyDescriptor sender descriptor parent standby
      latestSequence latestSegment = .ok stream') : SameSegments stream stream' := by
  obtain ⟨_, _, h⟩ := except_bind_eq_ok.mp h
  split at h
  · cases h
  split at h
  · cases h
  split at h
  · cases h
  cases h
  exact ⟨rfl, rfl⟩

theorem sameSegments_assignChild {child : MainDht}
    (h : stream.handleAssignChild sender generation child = .ok stream') :
    SameSegments stream stream' := by
  unfold handleAssignChild at h
  split at h
  · cases h
  split at h
  · cases h
  cases h
  exact ⟨rfl, rfl⟩

theorem sameSegments_parentAssignment
    (h : stream.handleParentAssignment sender generation parent standby = .ok stream') :
    SameSegments stream stream' := by
  unfold handleParentAssignment at h
  split at h
  · cases h
  cases h
  exact ⟨rfl, rfl⟩

theorem sameSegments_leave {viewer : MainDht}
    (h : stream.handleLeave sender generation viewer = .ok stream') :
    SameSegments stream stream' := by
  unfold handleLeave at h
  split at h
  · cases h
  cases h
  exact ⟨rfl, rfl⟩

theorem handleJoinRejected_ok {reason : String} {next : Option IncomingStreamState}
    (h : stream.handleJoinRejected sender generation reason = .ok next) : next = none := by
  unfold handleJoinRejected at h
  split at h
  · cases h
  split at h
  · cases h
  cases h
  rfl

/-- Messages about the tree leave the segments alone. -/
theorem process_sameSegments {message : StreamWireMessage}
    (h : (stream.process verifyDescriptor sender message).1 = some stream') :
    SameSegments stream stream' := by
  have hsame : ∀ {s : IncomingStreamState}, some stream = some s → SameSegments stream s := by
    rintro _ ⟨⟩
    exact .refl
  cases message with
  | joinAccepted descriptor parent standby latestSequence latestSegment =>
    rw [process] at h
    split at h
    case h_1 hnext => cases h; exact sameSegments_joinAccepted hnext
    case h_2 => exact hsame h
  | joinRejected streamId generation reason =>
    rw [process] at h
    split at h
    · exact hsame h
    split at h
    case h_1 hnext => rw [handleJoinRejected_ok hnext] at h; cases h
    case h_2 => exact hsame h
  | assignChild streamId generation child =>
    rw [process] at h
    split at h
    · exact hsame h
    split at h
    case h_1 hnext => cases h; exact sameSegments_assignChild hnext
    case h_2 => exact hsame h
  | parentAssignment streamId generation parent standby =>
    rw [process] at h
    split at h
    · exact hsame h
    split at h
    case h_1 hnext => cases h; exact sameSegments_parentAssignment hnext
    case h_2 => exact hsame h
  | leave streamId generation viewer =>
    rw [process] at h
    split at h
    · exact hsame h
    split at h
    case h_1 hnext => cases h; exact sameSegments_leave hnext
    case h_2 => exact hsame h
  | joinRequest _ _ _ _ | packet _ | commitmentHint _ | retransmitRequest _ _ _ _
  | finish _ _ _ => exact hsame h

end Control

variable {packet : StreamPacketWire}

/-- A packet that is seen already belongs to a stored segment. -/
theorem lookup_of_alreadySeen (h : AlreadySeen (stream.segment n) packet = true) :
    stream.receivedSegments.lookup n = some (stream.segment n) := by
  rcases stream.segment_cases n with hstored | hdefault
  · exact hstored
  · rw [hdefault] at h
    cases h

variable {children : Finset MainDht} {sender : MainDht}

theorem handlePacket_ok (h : stream.handlePacket sender packet = .ok (stream', children)) :
    stream' = (stream.storePacket sender packet).1 := by
  unfold handlePacket at h
  split at h
  · cases h
  split at h
  · cases h
  split at h
  · cases h
  split at h
  · cases h
  rw [Except.ok.inj h]

theorem handleCommitmentHint_ok {hint : StreamCommitmentHint}
    (h : stream.handleCommitmentHint sender hint = .ok (stream', children)) :
    stream' = stream.setSegment hint.segmentNumber
      { stream.segment hint.segmentNumber with hint := some hint } := by
  unfold handleCommitmentHint at h
  split at h
  · cases h
  split at h
  · cases h
  cases h
  rfl

theorem handleEnd_ok {generation : UInt64} {reason : String}
    (h : stream.handleEnd sender generation reason now = .ok (stream', children)) :
    SameSegments stream stream' := by
  unfold handleEnd at h
  split at h
  · cases h
  split at h
  · cases h
  cases h
  exact ⟨rfl, rfl⟩

theorem joinStream_ok {verifyDescriptor : StreamDescriptor → Except StreamTransportError Unit}
    {mainDht : MainDht} {applicationId : Bytes}
    {descriptor : StreamDescriptor} {relayCapacity : UInt16} {request : Addressed}
    (h : joinStream verifyDescriptor mainDht applicationId descriptor relayCapacity now =
      .ok (stream, request)) :
    stream = requested applicationId descriptor (min relayCapacity streamMaxRelayChildren) now := by
  obtain ⟨_, _, h⟩ := except_bind_eq_ok.mp h
  split at h
  · cases h
  split at h
  · cases h
  cases h
  rfl

end IncomingStreamState

/-! ## The steps -/

/-- What a stream after a step comes from. -/
inductive StreamStep (primitives : Primitives) (r : Receiver) (event : ReceiverEvent)
    (stream' : IncomingStreamState) : Prop
  | joined (applicationId : Bytes) (descriptor : StreamDescriptor) (relayCapacity : UInt16)
      (now : UInt64) (hjoined : stream' =
        IncomingStreamState.requested applicationId descriptor relayCapacity now)
  | same (stream : IncomingStreamState) (hstream : r.stream = some stream)
      (hsame : stream.SameSegments stream')
  | stored (stream : IncomingStreamState) (sender : MainDht) (packet : StreamPacketWire)
      (hevent : event = .packet sender packet) (hstream : r.stream = some stream)
      (hstored : stream' = (stream.storePacket sender packet).1)
  | hinted (stream : IncomingStreamState) (sender : MainDht) (hint : StreamCommitmentHint)
      (hevent : event = .hint sender hint) (hstream : r.stream = some stream)
      (hhinted : stream' = stream.setSegment hint.segmentNumber
        { stream.segment hint.segmentNumber with hint := some hint })
  | requested (stream : IncomingStreamState) (snapshot : Snapshot) (missing : List UInt32)
      (now : UInt64) (hstream : r.stream = some stream)
      (hrequested : stream' = (stream.requestMissing snapshot missing now).1)
  | marked (stream : IncomingStreamState) (task : Nat)
      (fetched : Except StreamTransportError SignedCommitmentPage) (now : UInt64)
      (snapshot : Snapshot) (commitment : StreamSegmentCommitment)
      (hevent : event = .advance task fetched now)
      (htask : r.tasks[task]? = some (.marking snapshot commitment))
      (hstream : r.stream = some stream)
      (hmarked : stream' = stream.markVerified snapshot.segmentNumber
        (hashSerialized primitives commitment))

/-- What a segment after a step comes from. -/
inductive SegmentStep (r : Receiver) (event : ReceiverEvent) (n : UInt64)
    (segment' : ReceivedSegmentState) : Prop
  | kept (stream : IncomingStreamState) (segment : ReceivedSegmentState)
      (hstream : r.stream = some stream)
      (hsegment : stream.receivedSegments.lookup n = some segment)
      (hpackets : segment'.packets = segment.packets) (hhint : segment'.hint = segment.hint)
      (hverified : segment'.verified = segment.verified)
  | stored (stream : IncomingStreamState) (sender : MainDht) (packet : StreamPacketWire)
      (hevent : event = .packet sender packet) (hstream : r.stream = some stream)
      (hnumber : n = packet.segmentNumber)
      (hsegment : segment' = { stream.segment n with
        packets := (stream.segment n).packets.insert packet.packetIndex packet
        verified := false })
  | hinted (stream : IncomingStreamState) (sender : MainDht) (hint : StreamCommitmentHint)
      (hevent : event = .hint sender hint) (hstream : r.stream = some stream)
      (hnumber : n = hint.segmentNumber)
      (hsegment : segment' = { stream.segment n with hint := some hint })
  | marked (stream : IncomingStreamState) (segment : ReceivedSegmentState) (task : Nat)
      (fetched : Except StreamTransportError SignedCommitmentPage) (now : UInt64)
      (snapshot : Snapshot) (commitment : StreamSegmentCommitment)
      (hevent : event = .advance task fetched now)
      (htask : r.tasks[task]? = some (.marking snapshot commitment))
      (hstream : r.stream = some stream) (hnumber : n = snapshot.segmentNumber)
      (hsegment : stream.receivedSegments.lookup n = some segment)
      (hmarked : segment' = { segment with verified := true })

/-- What a task after a step comes from, where it is not there before. -/
inductive TaskStep (primitives : Primitives) (r : Receiver) : VerificationTask → Prop
  | begun (stream : IncomingStreamState) (n : UInt64) (snapshot : Snapshot)
      (hstream : r.stream = some stream)
      (hbegun : stream.beginVerification n = some snapshot) :
        TaskStep primitives r (.reading snapshot)
  | matched (snapshot : Snapshot) (commitment : StreamSegmentCommitment)
      (fetched : Except StreamTransportError SignedCommitmentPage)
      (htask : .reading snapshot ∈ r.tasks)
      (hread : readAndVerifyCommitmentPage primitives snapshot.descriptor snapshot.hint fetched =
        .ok commitment)
      (hmatching : snapshot.examine primitives commitment = .ok .matching) :
      TaskStep primitives r (.checking snapshot commitment)
  | linked (stream : IncomingStreamState) (snapshot : Snapshot)
      (commitment : StreamSegmentCommitment)
      (htask : .checking snapshot commitment ∈ r.tasks) (hstream : r.stream = some stream)
      (hready : stream.chainReady snapshot.segmentNumber commitment = .ok true) :
      TaskStep primitives r (.marking snapshot commitment)

namespace Receiver

variable {verifyDescriptor : StreamDescriptor → Except StreamTransportError Unit}
  {streamId : Bytes} {r : Receiver} {event : ReceiverEvent}

@[simp]
theorem stream_setTask (task : Nat) (next : Option VerificationTask) :
    (r.setTask task next).stream = r.stream := by
  cases next <;> rfl

@[simp]
theorem descriptors_setTask (task : Nat) (next : Option VerificationTask) :
    (r.setTask task next).descriptors = r.descriptors := by
  cases next <;> rfl

variable {task : Nat} {t : VerificationTask}

theorem mem_tasks_setTask {next : Option VerificationTask} (h : t ∈ (r.setTask task next).tasks) :
    t ∈ r.tasks ∨ next = some t := by
  cases next with
  | none => exact Or.inl (List.mem_of_mem_eraseIdx h)
  | some t' =>
    rcases List.mem_or_eq_of_mem_set h with hmem | rfl
    · exact Or.inl hmem
    · exact Or.inr rfl

/-- A handler's effect on a receiver. -/
theorem handled_cases (handler : IncomingStreamState →
    Except StreamTransportError (IncomingStreamState × Finset MainDht)) :
    r.handled handler = r ∨ ∃ stream stream' children, r.stream = some stream ∧
        handler stream = .ok (stream', children) ∧
        r.handled handler = { r with stream := some stream' } := by
  unfold handled
  split
  case h_1 => exact Or.inl rfl
  case h_2 stream hstream =>
    split
    case h_1 stream' children hok => exact Or.inr ⟨stream, stream', children, hstream, hok, rfl⟩
    case h_2 => exact Or.inl rfl

/-- Reading a page changes no more of the stream than when packets were last asked for. -/
theorem compare_stream (task : Nat) (snapshot : Snapshot)
    (fetched : Except StreamTransportError SignedCommitmentPage) (now : UInt64) :
    (r.compare primitives task snapshot fetched now).1.stream = r.stream ∨
      ∃ stream missing, r.stream = some stream ∧
        (r.compare primitives task snapshot fetched now).1.stream =
          some (stream.requestMissing snapshot missing now).1 := by
  unfold compare
  split
  · exact Or.inl (stream_setTask _ _)
  split
  · exact Or.inl (stream_setTask _ _)
  · exact Or.inl (stream_setTask _ _)
  · exact Or.inl (stream_setTask _ _)
  split
  · exact Or.inl (stream_setTask _ _)
  case h_2 missing _ _ stream hstream => exact Or.inr ⟨stream, missing, hstream, rfl⟩

variable {snapshot : Snapshot}
  {fetched : Except StreamTransportError SignedCommitmentPage} {now n : UInt64}

@[simp]
theorem compare_descriptors :
    (r.compare primitives task snapshot fetched now).1.descriptors = r.descriptors := by
  unfold compare
  split
  · exact descriptors_setTask _ _
  split
  · exact descriptors_setTask _ _
  · exact descriptors_setTask _ _
  · exact descriptors_setTask _ _
  split
  · exact descriptors_setTask _ _
  · exact descriptors_setTask _ _

variable {commitment : StreamSegmentCommitment}

@[simp]
theorem check_stream : (r.check task snapshot commitment).stream = r.stream := by
  unfold check
  split
  · exact stream_setTask _ _
  split
  · exact stream_setTask _ _
  · exact stream_setTask _ _

@[simp]
theorem check_descriptors : (r.check task snapshot commitment).descriptors = r.descriptors := by
  unfold check
  split
  · exact descriptors_setTask _ _
  split
  · exact descriptors_setTask _ _
  · exact descriptors_setTask _ _

/-! ### Tasks -/

theorem compare_task (htask : r.tasks[task]? = some (.reading snapshot))
    (h : t ∈ (r.compare primitives task snapshot fetched now).1.tasks) :
    t ∈ r.tasks ∨ TaskStep primitives r t := by
  have hended : t ∈ (r.setTask task none).tasks → t ∈ r.tasks ∨ TaskStep primitives r t := by
    intro hmem
    exact (mem_tasks_setTask hmem).imp_right (by simp)
  unfold compare at h
  split at h
  · exact hended h
  case h_2 commitment hread =>
  split at h
  · exact hended h
  case h_2 hmatching =>
    rcases mem_tasks_setTask h with hmem | hnext
    · exact Or.inl hmem
    · cases hnext
      exact Or.inr (.matched snapshot commitment fetched (List.mem_of_getElem? htask) hread
        hmatching)
  · exact hended h
  split at h
  · exact hended h
  · exact hended h

theorem check_task (htask : r.tasks[task]? = some (.checking snapshot commitment))
    (h : t ∈ (r.check task snapshot commitment).tasks) :
    t ∈ r.tasks ∨ TaskStep primitives r t := by
  have hended : t ∈ (r.setTask task none).tasks → t ∈ r.tasks ∨ TaskStep primitives r t := by
    intro hmem
    exact (mem_tasks_setTask hmem).imp_right (by simp)
  unfold check at h
  split at h
  · exact hended h
  case h_2 stream hstream =>
  split at h
  case h_1 hready =>
    rcases mem_tasks_setTask h with hmem | hnext
    · exact Or.inl hmem
    · cases hnext
      exact Or.inr (.linked stream snapshot commitment (List.mem_of_getElem? htask) hstream hready)
  case h_2 => exact hended h

theorem next_task (h : t ∈ (r.next primitives verifyDescriptor streamId event).tasks) :
    t ∈ r.tasks ∨ TaskStep primitives r t := by
  have hhandled : ∀ handler, t ∈ (r.handled handler).tasks → t ∈ r.tasks := by
    intro handler hmem
    rcases r.handled_cases handler with hsame | ⟨_, _, _, _, _, hnext⟩
    · rwa [hsame] at hmem
    · rwa [hnext] at hmem
  unfold next at h
  cases event with
  | join mainDht applicationId descriptor relayCapacity now =>
    dsimp only at h
    split at h
    · exact Or.inl h
    split at h
    · exact Or.inl h
    · exact Or.inl h
  | forget => exact Or.inl h
  | control sender message =>
    dsimp only at h
    split at h
    · exact Or.inl h
    split at h
    · exact Or.inl h
    · exact Or.inl h
  | packet sender packet =>
    dsimp only at h
    split at h
    · exact Or.inl h
    · exact Or.inl (hhandled _ h)
  | hint sender hint =>
    dsimp only at h
    split at h
    · exact Or.inl h
    · exact Or.inl (hhandled _ h)
  | ended sender generation reason now => exact Or.inl (hhandled _ h)
  | verify segmentNumber =>
    dsimp only at h
    split at h
    · exact Or.inl h
    case h_2 snapshot hbegun =>
      obtain ⟨stream, hstream, hbegun⟩ := Option.bind_eq_some_iff.mp hbegun
      rcases List.mem_append.mp h with hmem | hnew
      · exact Or.inl hmem
      · rw [List.mem_singleton.mp hnew]
        exact Or.inr (.begun stream segmentNumber snapshot hstream hbegun)
  | advance task fetched now =>
    dsimp only at h
    split at h
    · exact Or.inl h
    case h_2 htask => exact compare_task htask h
    case h_3 htask => exact check_task htask h
    · exact (mem_tasks_setTask h).imp_right (by simp)

/-! ### Segments -/

variable {stream' stream : IncomingStreamState}

/-- A stream after a step has one of six origins. -/
theorem next_stream
    (h : (r.next primitives verifyDescriptor streamId event).stream = some stream') :
    StreamStep primitives r event stream' := by
  have hunchanged : r.stream = some stream' → StreamStep primitives r event stream' :=
    fun hstream => .same stream' hstream .refl
  unfold next at h
  cases event with
  | join mainDht applicationId descriptor relayCapacity now =>
    dsimp only at h
    split at h
    · exact hunchanged h
    split at h
    case h_1 fresh request hjoin =>
      cases h
      exact .joined _ _ _ _ (IncomingStreamState.joinStream_ok hjoin)
    case h_2 => exact hunchanged h
  | forget => cases h
  | control sender message =>
    dsimp only at h
    split at h
    · exact hunchanged h
    case h_2 stream hstream =>
    split at h
    · cases h
    case h_2 next hnext =>
      cases h
      exact .same stream hstream (IncomingStreamState.process_sameSegments hnext)
  | packet sender packet =>
    dsimp only at h
    split at h
    · exact hunchanged h
    rcases r.handled_cases fun stream => stream.handlePacket sender packet with
      hsame | ⟨stream, next, children, hstream, hok, hnext⟩
    · rw [hsame] at h
      exact hunchanged h
    · rw [hnext] at h
      cases h
      exact .stored stream sender packet rfl hstream (IncomingStreamState.handlePacket_ok hok)
  | hint sender hint =>
    dsimp only at h
    split at h
    · exact hunchanged h
    rcases r.handled_cases fun stream => stream.handleCommitmentHint sender hint with
      hsame | ⟨stream, next, children, hstream, hok, hnext⟩
    · rw [hsame] at h
      exact hunchanged h
    · rw [hnext] at h
      cases h
      exact .hinted stream sender hint rfl hstream (IncomingStreamState.handleCommitmentHint_ok hok)
  | ended sender generation reason now =>
    dsimp only at h
    rcases r.handled_cases fun stream => stream.handleEnd sender generation reason now with
      hsame | ⟨stream, next, children, hstream, hok, hnext⟩
    · rw [hsame] at h
      exact hunchanged h
    · rw [hnext] at h
      cases h
      exact .same stream hstream (IncomingStreamState.handleEnd_ok hok)
  | verify segmentNumber =>
    dsimp only at h
    split at h
    · exact hunchanged h
    · exact hunchanged h
  | advance task fetched now =>
    dsimp only at h
    split at h
    · exact hunchanged h
    case h_2 snapshot _ =>
      rcases compare_stream task snapshot fetched now with
        hsame | ⟨stream, missing, hstream, hnext⟩
      · rw [hsame] at h
        exact hunchanged h
      · rw [hnext] at h
        exact .requested stream snapshot missing now hstream (Option.some.inj h).symm
    · rw [check_stream] at h
      exact hunchanged h
    case h_4 snapshot commitment htask =>
      obtain ⟨stream, hstream, hmarked⟩ := Option.map_eq_some_iff.mp h
      exact .marked stream task fetched now snapshot commitment rfl htask hstream hmarked.symm

variable {segment' : ReceivedSegmentState}

theorem lookup_requestMissing {missing : List UInt32}
    (h : (stream.requestMissing snapshot missing now).1.receivedSegments.lookup n = some segment') :
    ∃ segment, stream.receivedSegments.lookup n = some segment ∧
      segment'.packets = segment.packets ∧ segment'.hint = segment.hint ∧
      segment'.verified = segment.verified := by
  unfold IncomingStreamState.requestMissing at h
  split at h
  · exact ⟨segment', h, rfl, rfl, rfl⟩
  case h_2 segment hfound =>
  split at h
  · dsimp only at h
    rw [IncomingStreamState.lookup_setSegment] at h
    by_cases hn : n = snapshot.segmentNumber
    · rw [if_pos hn] at h
      subst hn
      rw [← Option.some.inj h]
      exact ⟨segment, hfound, rfl, rfl, rfl⟩
    · rw [if_neg hn] at h
      exact ⟨segment', h, rfl, rfl, rfl⟩
  · exact ⟨segment', h, rfl, rfl, rfl⟩

theorem lookup_markVerified {m : UInt64} {hash : Hash32}
    (h : (stream.markVerified m hash).receivedSegments.lookup n = some segment') :
    ∃ segment, stream.receivedSegments.lookup n = some segment ∧
      segment' = if n = m then { segment with verified := true } else segment := by
  unfold IncomingStreamState.markVerified at h
  dsimp only at h
  obtain ⟨_, hfound⟩ := AList.lookup_retain_eq_some.mp h
  split at hfound
  case h_1 segment hstored =>
    by_cases hn : n = m
    · subst hn
      rw [AList.lookup_insert] at hfound
      exact ⟨segment, hstored, by rw [if_pos rfl, ← Option.some.inj hfound]⟩
    · rw [AList.lookup_insert_ne hn] at hfound
      exact ⟨segment', hfound, by rw [if_neg hn]⟩
  case h_2 hnone =>
    have hn : n ≠ m := by
      rintro rfl
      exact absurd (hfound.symm.trans hnone) (by simp)
    exact ⟨segment', hfound, by rw [if_neg hn]⟩

/-- A segment after a step has one of four origins. -/
theorem next_segment
    (hstream' : (r.next primitives verifyDescriptor streamId event).stream = some stream')
    (hsegment : stream'.receivedSegments.lookup n = some segment') :
    SegmentStep r event n segment' := by
  cases next_stream hstream' with
  | joined _ _ _ _ hjoined =>
    rw [hjoined] at hsegment
    cases hsegment
  | same stream hstream hsame =>
    rw [hsame.segments] at hsegment
    exact .kept stream segment' hstream hsegment rfl rfl rfl
  | stored stream sender packet hevent hstream hstored =>
    rw [hstored, IncomingStreamState.storePacket] at hsegment
    dsimp only at hsegment
    by_cases hseen : IncomingStreamState.AlreadySeen (stream.segment packet.segmentNumber) packet
    · rw [if_pos hseen, IncomingStreamState.lookup_setSegment] at hsegment
      by_cases hn : n = packet.segmentNumber
      · rw [if_pos hn] at hsegment
        subst hn
        have hfound := IncomingStreamState.lookup_of_alreadySeen hseen
        exact .kept stream segment' hstream (by rw [hfound, hsegment]) rfl rfl rfl
      · rw [if_neg hn] at hsegment
        exact .kept stream segment' hstream hsegment rfl rfl rfl
    rw [if_neg hseen] at hsegment
    dsimp only at hsegment
    rw [IncomingStreamState.lookup_setSegment] at hsegment
    by_cases hn : n = packet.segmentNumber
    · rw [if_pos hn] at hsegment
      subst hn
      exact .stored stream sender packet hevent hstream rfl (Option.some.inj hsegment).symm
    · rw [if_neg hn] at hsegment
      exact .kept stream segment' hstream hsegment rfl rfl rfl
  | hinted stream sender hint hevent hstream hhinted =>
    rw [hhinted, IncomingStreamState.lookup_setSegment] at hsegment
    by_cases hn : n = hint.segmentNumber
    · rw [if_pos hn] at hsegment
      subst hn
      exact .hinted stream sender hint hevent hstream rfl (Option.some.inj hsegment).symm
    · rw [if_neg hn] at hsegment
      exact .kept stream segment' hstream hsegment rfl rfl rfl
  | requested stream snapshot missing now hstream hrequested =>
    rw [hrequested] at hsegment
    obtain ⟨segment, hfound, hpackets, hhint, hverified⟩ := lookup_requestMissing hsegment
    exact .kept stream segment hstream hfound hpackets hhint hverified
  | marked stream task fetched now snapshot commitment hevent htask hstream hmarked =>
    rw [hmarked] at hsegment
    obtain ⟨segment, hfound, hafter⟩ := lookup_markVerified hsegment
    by_cases hn : n = snapshot.segmentNumber
    · rw [if_pos hn] at hafter
      exact .marked stream segment task fetched now snapshot commitment hevent htask hstream hn
        hfound hafter
    · rw [if_neg hn] at hafter
      rw [hafter]
      exact .kept stream segment hstream hfound rfl rfl rfl

/-- While segments are kept, the descriptors under which they came are. -/
theorem next_descriptors
    (hstream' : (r.next primitives verifyDescriptor streamId event).stream = some stream')
    (hsegment : stream'.receivedSegments.lookup n = some segment') :
    r.descriptors ⊆ (r.next primitives verifyDescriptor streamId event).descriptors := by
  have hhandled : ∀ handler, (r.handled handler).descriptors = r.descriptors := by
    intro handler
    rcases r.handled_cases handler with hsame | ⟨_, _, _, _, _, hnext⟩
    · rw [hsame]
    · rw [hnext]
  unfold next at hstream' ⊢
  cases event with
  | join mainDht applicationId descriptor relayCapacity now =>
    dsimp only at hstream' ⊢
    by_cases hother : descriptor.streamId ≠ streamId
    · rw [if_pos hother]
      exact List.Subset.refl _
    rw [if_neg hother] at hstream' ⊢
    split at hstream'
    case h_1 fresh request hjoin =>
      obtain rfl : fresh = stream' := Option.some.inj hstream'
      rw [IncomingStreamState.joinStream_ok hjoin] at hsegment
      cases hsegment
    case h_2 => exact List.Subset.refl _
  | forget => cases hstream'
  | control sender message =>
    dsimp only at hstream' ⊢
    split at hstream'
    · exact List.Subset.refl _
    split at hstream'
    · cases hstream'
    · exact List.subset_cons_self _ _
  | packet sender packet =>
    dsimp only
    split
    · exact List.Subset.refl _
    · rw [hhandled]
      exact List.Subset.refl _
  | hint sender hint =>
    dsimp only
    split
    · exact List.Subset.refl _
    · rw [hhandled]
      exact List.Subset.refl _
  | ended sender generation reason now =>
    dsimp only
    rw [hhandled]
    exact List.Subset.refl _
  | verify segmentNumber =>
    dsimp only
    split
    · exact List.Subset.refl _
    · exact List.Subset.refl _
  | advance task fetched now =>
    dsimp only
    split
    · exact List.Subset.refl _
    · rw [compare_descriptors]
      exact List.Subset.refl _
    · rw [check_descriptors]
      exact List.Subset.refl _
    · rw [mark, descriptors_setTask]
      exact List.Subset.refl _

end Receiver

end VeilKnit.StreamTransport
