import VeilKnit.StreamTransport.SegmentRuns

/-!
# Which segments are ever verified

Commitments form a chain, and a viewer follows it from its first segment: a segment is
verified only after the one before. A viewer that joins later holds no hash of the segment
before its first one, so that none of its segments is ever verified.
-/

namespace VeilKnit.StreamTransport

open Library

variable {primitives : Primitives}
  {verifyDescriptor : StreamDescriptor → Except StreamTransportError Unit} {streamId : Bytes}

/-! ## An undisturbed verification -/

namespace IncomingStreamState

/-- A verification with nothing in between. -/
def tryVerifyReceivedSegment (primitives : Primitives) (stream : IncomingStreamState)
    (segmentNumber : UInt64) (fetched : Except StreamTransportError SignedCommitmentPage)
    (now : UInt64) : IncomingStreamState :=
  match stream.beginVerification segmentNumber with
  | none => stream
  | some snapshot =>
    match readAndVerifyCommitmentPage primitives snapshot.descriptor snapshot.hint fetched with
    | .error _ => stream
    | .ok commitment =>
      match snapshot.examine primitives commitment with
      | .ok (.incomplete missing) => (stream.requestMissing snapshot missing now).1
      | .ok .matching =>
        match stream.chainReady segmentNumber commitment with
        | .ok true => stream.markVerified segmentNumber (hashSerialized primitives commitment)
        | _ => stream
      | _ => stream

/-- The segment is stored and marked as verified. -/
def Verified (stream : IncomingStreamState) (segmentNumber : UInt64) : Prop :=
  ∃ segment, stream.receivedSegments.lookup segmentNumber = some segment ∧ segment.verified = true

end IncomingStreamState

/-! ## Complete segments -/

/-- The commitment continues the chain of the source: it is the first one, or names one of
the source for the segment before, which is the one that the viewer has verified if it has
verified one. -/
def LinkValid (primitives : Primitives) (stream : IncomingStreamState) (n : UInt64)
    (commitment : StreamSegmentCommitment) : Prop :=
  if n = 0 then commitment.previousCommitmentHash = zeroHash
  else
    (∃ previous, SignedBy primitives stream.descriptor previous ∧
      previous.segmentNumber = saturatingSub n 1 ∧
      hashSerialized primitives previous = commitment.previousCommitmentHash) ∧
    ∀ recorded ∈ stream.verifiedCommitmentHashes.lookup (saturatingSub n 1),
      recorded = commitment.previousCommitmentHash

/-- A viewer has all packets of a segment and a valid commitment to them. -/
structure Complete (primitives : Primitives) (stream : IncomingStreamState)
    (fetched : Except StreamTransportError SignedCommitmentPage) (n : UInt64)
    (segment : ReceivedSegmentState) (commitment : StreamSegmentCommitment) : Prop where
  stored : stream.receivedSegments.lookup n = some segment
  held : ∃ hint, segment.hint = some hint ∧
    readAndVerifyCommitmentPage primitives stream.descriptor hint fetched = .ok commitment
  received : ∃ packets, (packetIndices commitment.packetCount).mapM (packetAt segment.packets) =
      .ok packets ∧ hashPacketSequence primitives packets = commitment.sha256
  link : LinkValid primitives stream n commitment

/-- The segment is the first, or the viewer has verified the one before. -/
def Chained (stream : IncomingStreamState) (n : UInt64) : Prop :=
  n = 0 ∨ (stream.verifiedCommitmentHashes.lookup (saturatingSub n 1)).isSome

/-- No packet is stored whose index the commitment does not have. -/
def NoneBeyond (packets : Packets) (commitment : StreamSegmentCommitment) : Prop :=
  ∀ index ∈ packets, index < commitment.packetCount

theorem mem_packetIndices {count index : UInt32} : index ∈ packetIndices count ↔ index < count := by
  unfold packetIndices
  rw [List.mem_map, UInt32.lt_iff_toNat_lt]
  constructor
  · rintro ⟨k, hk, rfl⟩
    have hlt := List.mem_range.mp hk
    have hbound := count.toNat_lt
    rwa [UInt32.toNat_ofNat', Nat.mod_eq_of_lt (by omega)]
  · intro hlt
    exact ⟨index.toNat, List.mem_range.mpr hlt, UInt32.ofNat_toNat⟩

theorem packetIndices_nodup (count : UInt32) : (packetIndices count).Nodup := by
  refine List.Nodup.map_on ?_ List.nodup_range
  intro i hi j hj heq
  have hbound := count.toNat_lt
  have hi := List.mem_range.mp hi
  have hj := List.mem_range.mp hj
  have hnat := congrArg UInt32.toNat heq
  rwa [UInt32.toNat_ofNat', UInt32.toNat_ofNat', Nat.mod_eq_of_lt (by omega),
    Nat.mod_eq_of_lt (by omega)] at hnat

variable {packets : Packets}

theorem packetAt_ok {index : UInt32} {packet : StreamPacketWire}
    (h : packetAt packets index = .ok packet) : index ∈ packets := by
  unfold packetAt at h
  split at h
  case h_1 hfound => exact AList.lookup_isSome.mp (by simp [hfound])
  case h_2 => cases h

/-- All packets that are read are there. -/
theorem mem_of_mapM_packetAt {indices : List UInt32}
    {ordered : List StreamPacketWire} (h : indices.mapM (packetAt packets) = .ok ordered) :
    ∀ index ∈ indices, index ∈ packets := by
  induction indices generalizing ordered with
  | nil => simp
  | cons index indices ih =>
    rw [List.mapM_cons] at h
    obtain ⟨packet, hpacket, h⟩ := except_bind_eq_ok.mp h
    obtain ⟨rest, hrest, _⟩ := except_bind_eq_ok.mp h
    intro i hi
    rcases List.mem_cons.mp hi with rfl | hi
    · exact packetAt_ok hpacket
    · exact ih hrest i hi

variable {commitment : StreamSegmentCommitment}

/-- A complete segment has as many packets as its commitment says just if it has none
beyond. -/
theorem count_iff_noneBeyond
    (hall : ∀ index ∈ packetIndices commitment.packetCount, index ∈ packets) :
    packets.keys.length = commitment.packetCount.toNat ↔ NoneBeyond packets commitment := by
  have hlength : (packetIndices commitment.packetCount).length =
      commitment.packetCount.toNat := by
    simp [packetIndices]
  have hsub : (packetIndices commitment.packetCount).Subperm packets.keys :=
    (packetIndices_nodup _).subperm fun index hindex => hall index hindex
  constructor
  · intro hcount index hindex
    have hperm := hsub.perm_of_length_le (by omega)
    exact mem_packetIndices.mp (hperm.mem_iff.mpr hindex)
  intro hnone
  have hback : packets.keys.Subperm (packetIndices commitment.packetCount) :=
    packets.keys_nodup.subperm fun index hindex => mem_packetIndices.mpr (hnone index hindex)
  have h₁ := hsub.length_le
  have h₂ := hback.length_le
  omega

section Complete

variable {stream : IncomingStreamState}
  {fetched : Except StreamTransportError SignedCommitmentPage} {n : UInt64}
  {segment : ReceivedSegmentState} {commitment : StreamSegmentCommitment}

section

variable (h : Complete primitives stream fetched n segment commitment)

include h

theorem Complete.all : ∀ index ∈ packetIndices commitment.packetCount, index ∈ segment.packets := by
  obtain ⟨_, hordered, _⟩ := h.received
  exact mem_of_mapM_packetAt hordered

/-- What the comparison says of a complete segment. -/
theorem Complete.examine (snapshot : Snapshot) (hpackets : snapshot.packets = segment.packets) :
    (NoneBeyond segment.packets commitment →
      snapshot.examine primitives commitment = .ok .matching) ∧
    (¬ NoneBeyond segment.packets commitment →
      ∃ error, snapshot.examine primitives commitment = .error error) := by
  have hnone : missingPacketIndices segment.packets commitment.packetCount = [] := by
    rw [missingPacketIndices, List.filter_eq_nil_iff]
    intro index hindex
    simpa using h.all index hindex
  obtain ⟨ordered, hordered, hhash⟩ := h.received
  unfold Snapshot.examine
  rw [hpackets]
  rw [if_neg (not_not.mpr hnone), hashReceivedPackets]
  constructor
  · intro hbeyond
    have hcount := (count_iff_noneBeyond h.all).mpr hbeyond
    rw [if_neg (not_not.mpr hcount), hordered]
    exact congrArg Except.ok (if_neg (not_not.mpr hhash))
  · intro hbeyond
    rw [if_pos (mt (count_iff_noneBeyond h.all).mp hbeyond)]
    exact ⟨_, rfl⟩

/-- What the look at the chain says of a complete segment. -/
theorem Complete.chainReady : (Chained stream n → stream.chainReady n commitment = .ok true) ∧
      (¬ Chained stream n → stream.chainReady n commitment = .ok false) := by
  have hlink := h.link
  unfold LinkValid at hlink
  unfold IncomingStreamState.chainReady Chained
  by_cases hn : n = 0
  · rw [if_pos hn] at hlink
    rw [if_pos hn, if_neg (not_not.mpr hlink)]
    exact ⟨fun _ => rfl, fun hnot => absurd (Or.inl hn) hnot⟩
  rw [if_neg hn] at hlink
  rw [if_neg hn]
  constructor
  · intro hchained
    obtain ⟨recorded, hrecorded⟩ := Option.isSome_iff_exists.mp (hchained.resolve_left hn)
    have hsame := hlink.2 recorded hrecorded
    rw [hrecorded]
    exact if_neg (not_not.mpr hsame.symm)
  · intro hnot
    have hnone : stream.verifiedCommitmentHashes.lookup (saturatingSub n 1) = none := by
      by_contra hsome
      exact hnot (Or.inr (Option.isSome_iff_ne_none.mpr hsome))
    rw [hnone]

end

/-- The marked segment stays in the window. -/
theorem verified_markVerified (hstored : stream.receivedSegments.lookup n = some segment)
    (hash : Hash32) : (stream.markVerified n hash).Verified n := by
  have hkept : saturatingSub n streamReceivedSegmentWindow ≤ n := by
    unfold saturatingSub
    split
    case isTrue hle =>
      rw [UInt64.le_iff_toNat_le, UInt64.toNat_sub_of_le _ _ hle]
      omega
    case isFalse => exact UInt64.zero_le
  refine ⟨{ segment with verified := true }, ?_, rfl⟩
  unfold IncomingStreamState.markVerified
  rw [hstored]
  exact AList.lookup_retain_eq_some.mpr ⟨hkept, AList.lookup_insert _⟩

/-- A verification of a complete segment marks it, or leaves everything as it is. -/
theorem Complete.tryVerify (h : Complete primitives stream fetched n segment commitment)
    (hunverified : segment.verified = false) (now : UInt64) :
    (Chained stream n ∧ NoneBeyond segment.packets commitment →
      (stream.tryVerifyReceivedSegment primitives n fetched now).Verified n) ∧
    (¬ (Chained stream n ∧ NoneBeyond segment.packets commitment) →
      stream.tryVerifyReceivedSegment primitives n fetched now = stream) := by
  obtain ⟨hint, hhint, hread⟩ := h.held
  have hsegment := IncomingStreamState.segment_eq h.stored
  let snapshot : Snapshot :=
    { segmentNumber := n, descriptor := stream.descriptor, packets := segment.packets, hint,
      parentMainDht := stream.parentMainDht,
      standbyParentMainDht := stream.standbyParentMainDht }
  have hbegun : stream.beginVerification n = some snapshot := by
    simp [IncomingStreamState.beginVerification, hsegment, hunverified, hhint, snapshot]
  obtain ⟨hmatching, hbeyond⟩ := h.examine snapshot rfl
  unfold IncomingStreamState.tryVerifyReceivedSegment
  rw [hbegun]
  dsimp only
  rw [hread]
  dsimp only
  constructor
  · rintro ⟨hchained, hnone⟩
    rw [hmatching hnone, h.chainReady.1 hchained]
    exact verified_markVerified h.stored _
  intro hnot
  by_cases hnone : NoneBeyond segment.packets commitment
  · have hunchained : ¬ Chained stream n := fun hchained => hnot ⟨hchained, hnone⟩
    rw [hmatching hnone, h.chainReady.2 hunchained]
  · obtain ⟨error, herror⟩ := hbeyond hnone
    rw [herror]

end Complete

/-! ## Viewers that join after the first segment -/

namespace Receiver

/-- The hashes that a viewer has recorded after a step are those of before, unless it has
joined anew or marked a segment. -/
theorem next_hashes {r : Receiver} {event : ReceiverEvent} {stream' : IncomingStreamState}
    (h : (r.next primitives verifyDescriptor streamId event).stream = some stream') :
    stream'.verifiedCommitmentHashes = ∅ ∨
      (∃ stream, r.stream = some stream ∧
        stream'.verifiedCommitmentHashes = stream.verifiedCommitmentHashes) ∨
      ∃ snapshot commitment, .marking snapshot commitment ∈ r.tasks := by
  cases next_stream h with
  | joined _ _ _ _ hjoined =>
    rw [hjoined]
    exact Or.inl rfl
  | same stream hstream hsame => exact Or.inr (Or.inl ⟨stream, hstream, hsame.hashes⟩)
  | stored stream sender packet _ hstream hstored =>
    refine Or.inr (Or.inl ⟨stream, hstream, ?_⟩)
    rw [hstored, IncomingStreamState.storePacket]
    split <;> rfl
  | hinted stream sender hint _ hstream hhinted =>
    rw [hhinted]
    exact Or.inr (Or.inl ⟨stream, hstream, rfl⟩)
  | requested stream snapshot missing now hstream hrequested =>
    refine Or.inr (Or.inl ⟨stream, hstream, ?_⟩)
    rw [hrequested, IncomingStreamState.requestMissing]
    split
    · rfl
    · split <;> rfl
  | marked stream task fetched now snapshot commitment _ htask _ _ =>
    exact Or.inr (Or.inr ⟨snapshot, commitment, List.mem_of_getElem? htask⟩)

/-- The step brings no packet of the first segment. -/
def NoFirstPacket (_ : Receiver) : ReceiverEvent → Prop
  | .packet _ packet => packet.segmentNumber ≠ 0
  | _ => True

instance (r : Receiver) (event : ReceiverEvent) : Decidable (r.NoFirstPacket event) :=
  match event with
  | .packet _ packet => inferInstanceAs (Decidable (packet.segmentNumber ≠ 0))
  | .join .. => .isTrue trivial
  | .forget => .isTrue trivial
  | .control .. => .isTrue trivial
  | .hint .. => .isTrue trivial
  | .ended .. => .isTrue trivial
  | .verify _ => .isTrue trivial
  | .advance .. => .isTrue trivial

end Receiver

/-- Without the first segment, a task stops before it marks anything. -/
def VerificationTask.Stuck : VerificationTask → Prop
  | .reading snapshot => snapshot.segmentNumber = 0 → snapshot.packets = ∅
  | .checking snapshot _ => snapshot.segmentNumber ≠ 0
  | .marking _ _ => False

/-- Nothing of the first segment has arrived, and nothing is verified. -/
structure NothingVerified (r : Receiver) : Prop where
  unverified : ∀ stream n, r.stream = some stream → ¬ stream.Verified n
  firstEmpty : ∀ stream, r.stream = some stream → (stream.segment 0).packets = ∅
  hashes : ∀ stream, r.stream = some stream → stream.verifiedCommitmentHashes = ∅
  tasks : ∀ task ∈ r.tasks, task.Stuck

/-- A commitment has a packet, so that an empty segment is not what it commits to. -/
theorem examine_empty {snapshot : Snapshot}
    (hempty : snapshot.packets = ∅) (hcount : commitment.packetCount ≠ 0) :
    snapshot.examine primitives commitment ≠ .ok .matching := by
  intro h
  have hlength := (examine_matching h).2.count
  rw [hempty, AList.keys_empty, List.length_nil] at hlength
  exact hcount (UInt32.toNat_inj.mp hlength.symm)

variable {r : Receiver}

theorem TaskStep.stuck (h : NothingVerified r) {task : VerificationTask}
    (hstep : TaskStep primitives r task) : task.Stuck := by
  cases hstep with
  | begun stream n snapshot hstream hbegun =>
    obtain ⟨_, hnumber, _, hpackets⟩ := beginVerification_eq_some hbegun
    intro hzero
    rw [hpackets, ← hnumber, hzero]
    exact h.firstEmpty stream hstream
  | matched snapshot commitment fetched htask hread hmatching =>
    have hstuck : snapshot.segmentNumber = 0 → snapshot.packets = ∅ := h.tasks _ htask
    intro hzero
    exact examine_empty (hstuck hzero) (readAndVerifyCommitmentPage_ok hread).2.2 hmatching
  | linked stream snapshot commitment htask hstream hready =>
    have hlater : snapshot.segmentNumber ≠ 0 := h.tasks _ htask
    -- No hash is recorded that the commitment could be linked to.
    rw [IncomingStreamState.chainReady, if_neg hlater, h.hashes stream hstream,
      AList.lookup_empty] at hready
    cases hready

theorem NothingVerified.next (h : NothingVerified r) {event : ReceiverEvent}
    (hguard : r.NoFirstPacket event) :
    NothingVerified (r.next primitives verifyDescriptor streamId event) where
  unverified stream' n hstream' := by
    rintro ⟨segment', hsegment', hverified⟩
    rcases Receiver.next_segment hstream' hsegment' with
      ⟨stream, segment, hstream, hsegment, _, _, hkept⟩ | ⟨_, _, _, _, _, _, rfl⟩ |
      ⟨stream, _, hint, _, hstream, _, rfl⟩ | ⟨_, _, _, _, _, _, _, _, htask, _⟩
    · exact h.unverified stream n hstream ⟨segment, hsegment, hkept ▸ hverified⟩
    · cases hverified
    · change (stream.segment n).verified = true at hverified
      rcases stream.segment_cases n with hstored | hdefault
      · exact h.unverified stream n hstream ⟨_, hstored, hverified⟩
      · rw [hdefault] at hverified
        cases hverified
    · exact h.tasks _ (List.mem_of_getElem? htask)
  firstEmpty stream' hstream' := by
    rcases stream'.segment_cases 0 with hstored | hdefault
    · rcases Receiver.next_segment hstream' hstored with
        ⟨stream, segment, hstream, hsegment, hpackets, _⟩ | ⟨_, _, packet, rfl, _, hnumber, _⟩ |
        ⟨stream, _, _, _, hstream, _, hhinted⟩ | ⟨_, _, _, _, _, _, _, _, htask, _⟩
      · rw [hpackets, ← IncomingStreamState.segment_eq hsegment]
        exact h.firstEmpty stream hstream
      · exact absurd hnumber.symm hguard
      · rw [hhinted]
        exact h.firstEmpty stream hstream
      · exact absurd (h.tasks _ (List.mem_of_getElem? htask)) id
    · rw [hdefault]
      rfl
  hashes stream' hstream' := by
    rcases Receiver.next_hashes hstream' with hempty | ⟨stream, hstream, hsame⟩ | ⟨_, _, htask⟩
    · exact hempty
    · rw [hsame]
      exact h.hashes stream hstream
    · exact absurd (h.tasks _ htask) id
  tasks task htask := by
    rcases Receiver.next_task htask with hold | hnew
    · exact h.tasks task hold
    · exact hnew.stuck h

/-- A viewer that gets no packet of the first segment never verifies any segment, in
whatever order messages and verifications come. -/
theorem nothing_verified
    (reached : ((receiverSystem primitives verifyDescriptor streamId).restrict
      Receiver.NoFirstPacket).Reachable r) : NothingVerified r := by
  refine LabelledSystem.Invariant.holds ⟨?_, ?_⟩ reached
  · rintro r rfl
    exact ⟨fun _ _ h => (by cases h), fun _ h => (by cases h), fun _ h => (by cases h),
      fun _ h => (by cases h)⟩
  · rintro r event _ h ⟨hguard, rfl⟩
    exact h.next hguard

section Sample

/-- A viewer that holds the first segment, whole. -/
def firstStream : IncomingStreamState :=
  { IncomingStreamState.requested [8] sampleDescriptor 4 100 with
    parentMainDht := some [0]
    receivedSegments := AList.singleton 0
      { packets := AList.singleton 0 (samplePacket 0 [1])
        hint := some (sampleHint 0)
        verified := false
        lastRetransmitAt := 0 } }

theorem complete_first : Complete samplePrimitives firstStream (.ok samplePage) 0
    (firstStream.segment 0) firstCommitment where
  stored := rfl
  held := ⟨sampleHint 0, rfl, by decide +kernel⟩
  received := ⟨[samplePacket 0 [1]], by decide +kernel, by decide +kernel⟩
  link := rfl

theorem signedBy_first : SignedBy samplePrimitives sampleDescriptor firstCommitment :=
  ⟨samplePage, rfl, rfl, by decide +kernel, List.mem_cons_self⟩

/-- A viewer that holds the second segment, but not the hash of the first commitment. -/
theorem complete_second {stream : IncomingStreamState} {segment : ReceivedSegmentState}
    (hdescriptor : stream.descriptor = sampleDescriptor)
    (hhashes : stream.verifiedCommitmentHashes.lookup 0 = none)
    (hsegment : stream.receivedSegments.lookup 1 = some segment)
    (hhint : segment.hint = some (sampleHint 1))
    (hpacket : segment.packets.lookup 0 = some (samplePacket 1 [2])) :
    Complete samplePrimitives stream (.ok samplePage) 1 segment secondCommitment where
  stored := hsegment
  held := ⟨sampleHint 1, hhint, by rw [hdescriptor]; decide +kernel⟩
  received := by
    have hindices : packetIndices secondCommitment.packetCount = [0] := by decide +kernel
    refine ⟨[samplePacket 1 [2]], ?_, by decide +kernel⟩
    rw [hindices, List.mapM_cons, packetAt, hpacket]
    rfl
  link := by
    refine ⟨⟨firstCommitment, hdescriptor ▸ signedBy_first, rfl, by decide +kernel⟩, ?_⟩
    intro recorded hrecorded
    exact absurd (hhashes.symm.trans hrecorded) (by simp)

end Sample

/-- Verifications alone: no message arrives. -/
def ReceiverEvent.isVerification : ReceiverEvent → Bool
  | .verify _ | .advance _ _ _ => true
  | _ => false

end VeilKnit.StreamTransport
