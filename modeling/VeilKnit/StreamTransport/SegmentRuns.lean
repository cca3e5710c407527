import VeilKnit.StreamTransport.SegmentSteps
import VeilKnit.StreamTransport.TreeRuns

/-!
# What a verified segment contains

A verification marks whatever is stored when it takes the lock for the last time, although
it has compared the copy that it took at the first. Packets that come in between stay
unseen. Where the packets are still those of the copy, the segment is verified with the
packets that the source has committed to.
-/

namespace VeilKnit.StreamTransport

open Library

variable {primitives : Primitives}
  {verifyDescriptor : StreamDescriptor → Except StreamTransportError Unit} {streamId : Bytes}

/-! ## What holds in every run -/

/-- What the comparison has shown of a snapshot. -/
structure Snapshot.Established (primitives : Primitives) (snapshot : Snapshot)
    (commitment : StreamSegmentCommitment) : Prop where
  signed : SignedBy primitives snapshot.descriptor commitment
  number : commitment.segmentNumber = snapshot.segmentNumber
  committed : Committed primitives commitment snapshot.packets

def VerificationTask.Sound (primitives : Primitives) : VerificationTask → Prop
  | .reading snapshot => snapshot.hint.segmentNumber = snapshot.segmentNumber
  | .checking snapshot commitment =>
    snapshot.hint.segmentNumber = snapshot.segmentNumber ∧
      snapshot.Established primitives commitment
  | .marking snapshot commitment =>
    snapshot.hint.segmentNumber = snapshot.segmentNumber ∧
      snapshot.Established primitives commitment

/-- Hints are stored with the segment that they are about. -/
def HintsFiled (r : Receiver) : Prop :=
  ∀ stream n segment hint, r.stream = some stream →
    stream.receivedSegments.lookup n = some segment → segment.hint = some hint →
      hint.segmentNumber = n

structure ReceiverSound (primitives : Primitives) (r : Receiver) : Prop where
  hints : HintsFiled r
  tasks : ∀ task ∈ r.tasks, task.Sound primitives

variable {r : Receiver}

theorem HintsFiled.of_segment (h : HintsFiled r) {stream : IncomingStreamState}
    (hstream : r.stream = some stream) {n : UInt64} {hint : StreamCommitmentHint}
    (hhint : (stream.segment n).hint = some hint) : hint.segmentNumber = n := by
  rcases stream.segment_cases n with hstored | hdefault
  · exact h stream n _ hint hstream hstored hhint
  · rw [hdefault] at hhint
    cases hhint

theorem HintsFiled.next (h : HintsFiled r) (event : ReceiverEvent) :
    HintsFiled (r.next primitives verifyDescriptor streamId event) := by
  intro stream' n segment' hint hstream' hsegment' hhint
  rcases Receiver.next_segment hstream' hsegment' with
    ⟨stream, segment, hstream, hsegment, _, hkept, _⟩ | ⟨stream, _, _, _, hstream, _, rfl⟩ |
    ⟨_, _, announced, _, _, hnumber, rfl⟩ | ⟨stream, segment, _, _, _, _, _, _, _, hstream, _,
      hsegment, rfl⟩
  · exact h stream n segment hint hstream hsegment (hkept ▸ hhint)
  · exact h.of_segment hstream hhint
  · cases hhint
    exact hnumber.symm
  · exact h stream n segment hint hstream hsegment hhint

theorem TaskStep.sound (h : ReceiverSound primitives r) {task : VerificationTask}
    (hstep : TaskStep primitives r task) : task.Sound primitives := by
  cases hstep with
  | begun stream n snapshot hstream hbegun =>
    obtain ⟨hhint, hnumber, _⟩ := beginVerification_eq_some hbegun
    rw [← hnumber] at hhint
    exact h.hints.of_segment hstream hhint
  | matched snapshot commitment fetched htask hread hmatching =>
    have hfiled : snapshot.hint.segmentNumber = snapshot.segmentNumber := h.tasks _ htask
    obtain ⟨hsigned, hnumber, _⟩ := readAndVerifyCommitmentPage_ok hread
    exact ⟨hfiled, hsigned, hnumber.trans hfiled, (examine_matching hmatching).2⟩
  | linked stream snapshot commitment htask _ _ =>
    have hchecking : (VerificationTask.checking snapshot commitment).Sound primitives :=
      h.tasks _ htask
    exact hchecking

theorem receiver_sound : (receiverSystem primitives verifyDescriptor streamId).Invariant
      (ReceiverSound primitives) where
  initially := by
    rintro r rfl
    refine ⟨?_, ?_⟩
    · intro _ _ _ _ hstream
      cases hstream
    · intro _ htask
      cases htask
  preserved := by
    rintro r event _ h rfl
    refine ⟨h.hints.next event, fun task htask => ?_⟩
    rcases Receiver.next_task htask with hold | hnew
    · exact h.tasks task hold
    · exact hnew.sound h

/-! ## Verified segments -/

/-- The packets are those of a commitment to the segment that the source has signed. -/
def Certified (primitives : Primitives) (descriptors : List StreamDescriptor) (n : UInt64)
    (packets : Packets) : Prop :=
  ∃ descriptor ∈ descriptors, ∃ commitment, SignedBy primitives descriptor commitment ∧
    commitment.segmentNumber = n ∧ Committed primitives commitment packets

/-- Every verified segment holds what the source has committed to. -/
def VerifiedCertified (primitives : Primitives) (r : Receiver) : Prop :=
  ∀ stream n segment, r.stream = some stream →
    stream.receivedSegments.lookup n = some segment → segment.verified →
      Certified primitives r.descriptors n segment.packets

namespace Receiver

/-- The segment of a snapshot, as it is stored now. -/
def current (r : Receiver) (snapshot : Snapshot) : Option ReceivedSegmentState :=
  r.stream.bind fun stream => stream.receivedSegments.lookup snapshot.segmentNumber

/-- The viewer has held the task's descriptor since it last joined, and what it stores for
the segment are the packets that the task has compared. -/
def Undisturbed (r : Receiver) (snapshot : Snapshot) : Prop :=
  snapshot.descriptor ∈ r.descriptors ∧
    ∀ segment ∈ r.current snapshot, SamePackets segment.packets snapshot.packets

instance (r : Receiver) (snapshot : Snapshot) : Decidable (r.Undisturbed snapshot) :=
  inferInstanceAs (Decidable (_ ∧ _))

/-- Where the step marks a segment, nothing has come between. -/
def MarksUndisturbed (r : Receiver) : ReceiverEvent → Prop
  | .advance task _ _ =>
    match r.tasks[task]? with
    | some (.marking snapshot _) => r.Undisturbed snapshot
    | _ => True
  | _ => True

instance (r : Receiver) (event : ReceiverEvent) : Decidable (r.MarksUndisturbed event) := by
  unfold MarksUndisturbed
  cases event with
  | advance task fetched now =>
    dsimp only
    split <;> infer_instance
  | _ => infer_instance

end Receiver

theorem Certified.mono {descriptors descriptors' : List StreamDescriptor} {n : UInt64}
    {packets : Packets} (h : Certified primitives descriptors n packets)
    (hsub : descriptors ⊆ descriptors') : Certified primitives descriptors' n packets := by
  obtain ⟨descriptor, hmem, hcertified⟩ := h
  exact ⟨descriptor, hsub hmem, hcertified⟩

/-- A step keeps verified segments certified if it marks only what it has compared. -/
theorem VerifiedCertified.next (hsound : ReceiverSound primitives r)
    (h : VerifiedCertified primitives r) {event : ReceiverEvent} (hguard : r.MarksUndisturbed event) :
    VerifiedCertified primitives (r.next primitives verifyDescriptor streamId event) := by
  intro stream' n segment' hstream' hsegment' hverified
  have hsub := Receiver.next_descriptors hstream' hsegment'
  refine Certified.mono ?_ hsub
  rcases Receiver.next_segment hstream' hsegment' with
    ⟨stream, segment, hstream, hsegment, hpackets, _, hkept⟩ | ⟨_, _, _, _, _, _, rfl⟩ |
    ⟨stream, _, hint, _, hstream, _, rfl⟩ | ⟨stream, segment, task, fetched, now, snapshot,
      commitment, rfl, htask, hstream, hnumber, hsegment, rfl⟩
  · rw [hpackets]
    exact h stream n segment hstream hsegment (hkept ▸ hverified)
  · -- A packet that is stored takes the mark away.
    cases hverified
  · change (stream.segment n).verified = true at hverified
    rcases stream.segment_cases n with hstored | hdefault
    · exact h stream n (stream.segment n) hstream hstored hverified
    · rw [hdefault] at hverified
      cases hverified
  have htasks := hsound.tasks _ (List.mem_of_getElem? htask)
  obtain ⟨_, hestablished⟩ := htasks
  have hcurrent : r.Undisturbed snapshot := by
    simpa only [Receiver.MarksUndisturbed, htask] using hguard
  subst hnumber
  have hsame := hcurrent.2 segment (by simp [Receiver.current, hstream, hsegment])
  exact ⟨snapshot.descriptor, hcurrent.1, commitment, hestablished.signed,
    hestablished.number, hestablished.committed.same hsame⟩

/-! ## A sample stream

Two segments of one packet each, and the digests of what the source hashes of them. -/

section Sample

def samplePacket (n : UInt64) (payload : Bytes) : StreamPacketWire where
  streamId := [7]
  generation := 1
  sequence := n
  segmentNumber := n
  packetIndex := 0
  retransmission := false
  payload

def firstDigest : Hash32 :=
  ⟨[42, 162, 168, 42, 93, 252, 186, 89, 32, 33, 183, 159, 242, 76, 249, 71, 73, 83, 114, 241, 38,
    177, 4, 184, 185, 236, 113, 166, 131, 179, 100, 23], rfl⟩

def secondDigest : Hash32 :=
  ⟨[100, 67, 205, 223, 235, 33, 50, 8, 192, 9, 43, 184, 11, 246, 177, 135, 146, 209, 109, 222, 125,
    175, 131, 88, 10, 44, 231, 214, 10, 234, 154, 171], rfl⟩

/-- The digest of the first commitment. -/
def firstLink : Hash32 :=
  ⟨[88, 38, 145, 247, 137, 38, 229, 133, 80, 98, 94, 206, 230, 127, 247, 255, 175, 161, 33, 248, 15,
    202, 52, 198, 155, 243, 249, 181, 235, 241, 0, 36], rfl⟩

def secondLink : Hash32 :=
  ⟨[140, 188, 96, 71, 79, 145, 172, 123, 213, 239, 224, 119, 87, 220, 142, 237, 239, 244, 82, 34,
    24, 235, 189, 174, 132, 240, 9, 174, 30, 208, 49, 105], rfl⟩

def sampleCommitment (n : UInt64) (sha256 previousCommitmentHash : Hash32) :
    StreamSegmentCommitment where
  segmentNumber := n
  firstSequence := n
  packetCount := 1
  payloadBytes := 1
  sha256
  previousCommitmentHash
  publishedAt := 100 + n

def firstCommitment : StreamSegmentCommitment := sampleCommitment 0 firstDigest zeroHash

def secondCommitment : StreamSegmentCommitment := sampleCommitment 1 secondDigest firstLink

def samplePage : SignedCommitmentPage where
  unsigned :=
    { version := 1, streamId := [7], generation := 1, recordIndex := 0, pageIndex := 0
      commitments := [firstCommitment, secondCommitment] }
  signatureHex := [11]

def sampleHint (n : UInt64) : StreamCommitmentHint where
  streamId := [7]
  generation := 1
  segmentNumber := n
  recordKey := [12]
  pageLocation := 1

/-- The hash of the sample's contents, and a source that has signed one page. -/
def samplePrimitives : Primitives where
  sha256 bytes :=
    if bytes = packetSequenceBytes [samplePacket 0 [1]] then firstDigest
    else if bytes = packetSequenceBytes [samplePacket 1 [2]] then secondDigest
    else if bytes = StreamSegmentCommitment.codec.encode firstCommitment then firstLink
    else secondLink
  verifySignedBytes _ _ payload signatureHex :=
    if payload = CommitmentPageUnsigned.codec.encode samplePage.unsigned ∧
        signatureHex = samplePage.signatureHex then .ok ()
    else .error (.integrity "signature verification failed")

/-- A viewer joins under the source and is told of a segment. -/
def sampleJoin (packets : List StreamPacketWire) (n : UInt64) : List ReceiverEvent :=
  [.join [9] [8] sampleDescriptor 4 100,
    .control [0] (.joinAccepted sampleDescriptor [0] none 0 n)] ++
  packets.map (.packet [0]) ++ [.hint [0] (sampleHint n), .verify n]

def samplePageRead : ReceiverEvent := .advance 0 (.ok samplePage) 200

def sampleRun (events : List ReceiverEvent) : Receiver :=
  events.foldl (Receiver.next samplePrimitives trustDescriptor [7]) .absent

theorem sampleRun_reachable (events : List ReceiverEvent) :
    (receiverSystem samplePrimitives trustDescriptor [7]).Reachable (sampleRun events) :=
  LabelledSystem.Reachable.foldl (fun _ _ _ => rfl) (.start rfl)

/-- The source has signed two commitments. -/
theorem signedBy_sample {descriptor : StreamDescriptor} {commitment : StreamSegmentCommitment}
    (h : SignedBy samplePrimitives descriptor commitment) :
    commitment = firstCommitment ∨ commitment = secondCommitment := by
  obtain ⟨page, _, _, hverified, hmem⟩ := h
  unfold samplePrimitives at hverified
  dsimp only at hverified
  split at hverified
  case isTrue hsigned =>
    rw [CommitmentPageUnsigned.codec.encode_injective hsigned.1] at hmem
    simpa [samplePage] using hmem
  case isFalse => cases hverified

end Sample

/-- Where nothing comes between a comparison and its mark, a verified segment has exactly
the packets that the source has committed to, in every run. -/
theorem verified_segments_certified {r : Receiver}
    (reached : ((receiverSystem primitives verifyDescriptor streamId).restrict
      Receiver.MarksUndisturbed).Reachable r) : VerifiedCertified primitives r := by
  refine receiver_sound.holds_within ?_ ?_ reached
  · rintro r rfl _ _ _ hstream
    cases hstream
  · rintro r event _ hsound h hguard rfl
    exact h.next hsound hguard

/-- The packet of the first segment arrives, and the segment is verified. -/
def firstSegmentEvents : List ReceiverEvent :=
  sampleJoin [samplePacket 0 [1]] 0 ++ [samplePageRead, samplePageRead, samplePageRead]

theorem first_segment_certified :
    (∃ stream segment, (sampleRun firstSegmentEvents).stream = some stream ∧
      stream.receivedSegments.lookup 0 = some segment ∧ segment.verified = true) ∧
    VerifiedCertified samplePrimitives (sampleRun firstSegmentEvents) := by
  have hverified : (((sampleRun firstSegmentEvents).stream.bind
      fun stream => stream.receivedSegments.lookup 0).map (·.verified)) = some true := by
    decide +kernel
  have hguarded : (LabelledSystem.runWithin
      (fun r event => some (Receiver.next samplePrimitives trustDescriptor [7] r event))
      Receiver.MarksUndisturbed .absent firstSegmentEvents).isSome := by
    decide +kernel
  have reached : ((receiverSystem samplePrimitives trustDescriptor [7]).restrict
      Receiver.MarksUndisturbed).Reachable (sampleRun firstSegmentEvents) := by
    refine .of_runWithin ?_ (.start rfl) (LabelledSystem.runWithin_total hguarded)
    intro r event r' hguard hnext
    exact ⟨hguard, (Option.some.inj hnext).symm⟩
  obtain ⟨segment, hsegment, hmark⟩ := Option.map_eq_some_iff.mp hverified
  obtain ⟨stream, hstream, hlookup⟩ := Option.bind_eq_some_iff.mp hsegment
  exact ⟨⟨stream, segment, hstream, hlookup, hmark⟩, verified_segments_certified reached⟩

/-- A packet beyond the commitment comes in after the comparison, and the segment is marked
with it. -/
theorem verified_segment_with_extra_packet :
    ∃ r, (receiverSystem samplePrimitives trustDescriptor [7]).Reachable r ∧
      ¬ VerifiedCertified samplePrimitives r := by
  let extra : StreamPacketWire := { samplePacket 0 [5] with packetIndex := 1, sequence := 1 }
  let r := sampleRun (sampleJoin [samplePacket 0 [1]] 0 ++
    [samplePageRead, samplePageRead, .packet [0] extra, samplePageRead])
  refine ⟨r, sampleRun_reachable _, fun hcertified => ?_⟩
  have hverified : ((r.stream.bind fun stream => stream.receivedSegments.lookup 0).map
      fun segment => (segment.verified, segment.packets.keys.length)) = some (true, 2) := by
    decide +kernel
  obtain ⟨segment, hsegment, hmark⟩ := Option.map_eq_some_iff.mp hverified
  obtain ⟨stream, hstream, hlookup⟩ := Option.bind_eq_some_iff.mp hsegment
  obtain ⟨hmarked, hlength⟩ := Prod.mk.inj hmark
  obtain ⟨_, _, commitment, hsigned, hnumber, hcommitted⟩ :=
    hcertified stream 0 segment hstream hlookup hmarked
  have hcount := hcommitted.count
  rcases signedBy_sample hsigned with rfl | rfl
  · rw [hlength] at hcount
    exact absurd hcount (by decide)
  · exact absurd hnumber (by decide)

end VeilKnit.StreamTransport
