import VeilKnit.StreamTransport.Relays

/-!
# Segments at a viewer

The packets of a stream come in segments. The source seals a segment, signs a commitment to
its packets and publishes it on a page of a DHT record; a hint tells the viewers where. A
commitment carries the hash of the one before, so that they form a chain.

A viewer verifies a segment in a task of its own. The task takes a copy of the packets, reads
the page without holding the lock, compares, and takes the lock twice more: to look at the
chain, and to mark the segment. Packets, hints and other tasks come in between.
-/

namespace VeilKnit.StreamTransport

open Library

export Mailbox (ascii)

def streamCommitmentPageDomain : Bytes := ascii "veilknit.stream.commitment-page.v1"

def streamSegmentHashDomain : Bytes := ascii "veilknit.stream.segment-hash.v1"

/-! ## Commitments -/

def StreamSegmentCommitment.codec : Codec StreamSegmentCommitment :=
  (Codec.u64.pair <| Codec.u64.pair <| Codec.u32.pair <| Codec.u64.pair <|
      (Codec.array 32).pair <| (Codec.array 32).pair Codec.u64).imap
    (fun (segmentNumber, firstSequence, packetCount, payloadBytes, sha256,
        previousCommitmentHash, publishedAt) =>
      ⟨segmentNumber, firstSequence, packetCount, payloadBytes, sha256,
        previousCommitmentHash, publishedAt⟩)
    (fun c => (c.segmentNumber, c.firstSequence, c.packetCount, c.payloadBytes, c.sha256,
      c.previousCommitmentHash, c.publishedAt))
    (fun _ => rfl)

structure CommitmentPageUnsigned where
  version : UInt16
  streamId : Bytes
  generation : UInt64
  recordIndex : UInt32
  pageIndex : UInt32
  commitments : List StreamSegmentCommitment
  deriving DecidableEq

def CommitmentPageUnsigned.codec : Codec CommitmentPageUnsigned :=
  (Codec.u16.pair <| Codec.bytes.pair <| Codec.u64.pair <| Codec.u32.pair <| Codec.u32.pair
      StreamSegmentCommitment.codec.list).imap
    (fun (version, streamId, generation, recordIndex, pageIndex, commitments) =>
      ⟨version, streamId, generation, recordIndex, pageIndex, commitments⟩)
    (fun p => (p.version, p.streamId, p.generation, p.recordIndex, p.pageIndex, p.commitments))
    (fun _ => rfl)

structure SignedCommitmentPage where
  unsigned : CommitmentPageUnsigned
  signatureHex : Bytes
  deriving DecidableEq

/-- What the code takes from the cryptographic libraries: the hash, and whether a signature
of some bytes, made for a domain, is that of a public key. -/
structure Primitives where
  sha256 : Bytes → Hash32
  verifySignedBytes (publicKeyHex domain payload signatureHex : Bytes) :
    Except StreamTransportError Unit

variable (primitives : Primitives)

def zeroHash : Hash32 := ⟨List.replicate 32 0, rfl⟩

/-- Read the commitment that a hint points to from the page that the DHT returned. -/
def readAndVerifyCommitmentPage (descriptor : StreamDescriptor) (hint : StreamCommitmentHint)
    (fetched : Except StreamTransportError SignedCommitmentPage) :
    Except StreamTransportError StreamSegmentCommitment :=
  if hint.streamId ≠ descriptor.streamId ∨ hint.generation ≠ descriptor.generation then
    .error (.integrity "commitment hint identifies another stream")
  else if hint.pageLocation < 1 ∨ streamCommitmentPagesPerRecord < hint.pageLocation then
    .error (.integrity "commitment hint subkey is outside the record schema")
  else do
    let page ← fetched
    if page.unsigned.streamId ≠ descriptor.streamId ∨
        page.unsigned.generation ≠ descriptor.generation then
      .error (.integrity "commitment page stream identity mismatch")
    else if page.unsigned.pageIndex.toNat + 1 ≠ hint.pageLocation.toNat ∨
        page.unsigned.commitments = [] ∨
        streamCommitmentsPerPage < page.unsigned.commitments.length then
      .error (.integrity "commitment page shape is invalid")
    else do
      primitives.verifySignedBytes descriptor.signingPublicKeyHex streamCommitmentPageDomain
        (CommitmentPageUnsigned.codec.encode page.unsigned) page.signatureHex
      match page.unsigned.commitments.find? (·.segmentNumber = hint.segmentNumber) with
      | none => .error (.integrity "commitment page does not contain the announced segment")
      | some commitment =>
        if commitment.packetCount = 0 ∨ streamPacketsPerSegment < commitment.packetCount ∨
            commitment.packetCount.toNat * streamPacketBytes < commitment.payloadBytes.toNat then
          .error (.integrity "commitment packet sizing is invalid")
        else .ok commitment

/-! ## The packets of a segment -/

/-- The bytes of a packet that its segment's hash covers. -/
def StreamPacketWire.hashed (packet : StreamPacketWire) : Bytes :=
  Codec.u64.encode packet.sequence ++ Codec.u32.encode packet.packetIndex ++
    Codec.u32.encode (UInt32.ofNat packet.payload.length) ++ packet.payload

def packetSequenceBytes (packets : List StreamPacketWire) : Bytes :=
  streamSegmentHashDomain ++
    (match packets.head? with
      | some first =>
        Codec.u32.encode (UInt32.ofNat first.streamId.length) ++ first.streamId ++
          Codec.u64.encode first.generation ++ Codec.u64.encode first.segmentNumber
      | none => []) ++
    packets.flatMap StreamPacketWire.hashed

def hashPacketSequence (packets : List StreamPacketWire) : Hash32 :=
  primitives.sha256 (packetSequenceBytes packets)

abbrev Packets := AList fun _ : UInt32 => StreamPacketWire

/-- The numbers below a packet count. -/
def packetIndices (expectedCount : UInt32) : List UInt32 :=
  (List.range expectedCount.toNat).map UInt32.ofNat

def missingPacketIndices (packets : Packets) (expectedCount : UInt32) : List UInt32 :=
  (packetIndices expectedCount).filter (· ∉ packets)

def packetAt (packets : Packets) (index : UInt32) :
    Except StreamTransportError StreamPacketWire :=
  match packets.lookup index with
  | some packet => .ok packet
  | none => .error (.integrity s!"segment packet {index} is missing")

/-- Too many packets are refused in the same way as too few. -/
def hashReceivedPackets (packets : Packets) (expectedCount : UInt32) :
    Except StreamTransportError Hash32 :=
  if packets.keys.length ≠ expectedCount.toNat then
    .error (.integrity "segment packet count is incomplete")
  else do
    let ordered ← (packetIndices expectedCount).mapM (packetAt packets)
    .ok (hashPacketSequence primitives ordered)

def hashSerialized (commitment : StreamSegmentCommitment) : Hash32 :=
  primitives.sha256 (StreamSegmentCommitment.codec.encode commitment)

/-! ## What a viewer does -/

/-- What a verification task remembers of the viewer's state. -/
structure Snapshot where
  segmentNumber : UInt64
  descriptor : StreamDescriptor
  packets : Packets
  hint : StreamCommitmentHint
  parentMainDht : Option MainDht
  standbyParentMainDht : Option MainDht

/-- How the packets of a snapshot relate to the commitment. -/
inductive Finding
  | incomplete (missing : List UInt32)
  | mismatch
  | matching
  deriving DecidableEq

namespace Snapshot

def examine (snapshot : Snapshot) (commitment : StreamSegmentCommitment) :
    Except StreamTransportError Finding :=
  let missing := missingPacketIndices snapshot.packets commitment.packetCount
  if missing ≠ [] then .ok (.incomplete missing)
  else do
    let computed ← hashReceivedPackets primitives snapshot.packets commitment.packetCount
    .ok (if computed ≠ commitment.sha256 then .mismatch else .matching)

/-- The standby parent, or the source where there is none apart from the parent. -/
def recoveryPeer (snapshot : Snapshot) : Option MainDht :=
  let streamer := snapshot.descriptor.streamerMainDht
  (snapshot.standbyParentMainDht.filter fun peer => some peer ≠ snapshot.parentMainDht).or
    (if some streamer ≠ snapshot.parentMainDht then some streamer else none)

def retransmitRequest (snapshot : Snapshot) (indices : List UInt32) : StreamWireMessage :=
  .retransmitRequest snapshot.descriptor.streamId snapshot.descriptor.generation
    snapshot.segmentNumber indices

/-- Ask for the whole segment again. -/
def recoveryRequest (snapshot : Snapshot) (commitment : StreamSegmentCommitment) :
    List Addressed :=
  snapshot.recoveryPeer.toList.map fun peer =>
    (peer, snapshot.retransmitRequest (packetIndices commitment.packetCount))

end Snapshot

namespace IncomingStreamState

def segment (stream : IncomingStreamState) (segmentNumber : UInt64) : ReceivedSegmentState :=
  (stream.receivedSegments.lookup segmentNumber).getD .default

def setSegment (stream : IncomingStreamState) (segmentNumber : UInt64)
    (segment : ReceivedSegmentState) : IncomingStreamState :=
  { stream with receivedSegments := stream.receivedSegments.insert segmentNumber segment }

def FromUpstream (stream : IncomingStreamState) (sender : MainDht) : Prop :=
  stream.parentMainDht = some sender ∨ stream.standbyParentMainDht = some sender ∨
    stream.descriptor.streamerMainDht = sender

instance (stream : IncomingStreamState) (sender : MainDht) :
    Decidable (stream.FromUpstream sender) :=
  inferInstanceAs (Decidable (_ ∨ _ ∨ _))

/-- A stored packet stays, unless a retransmission differs from it. -/
def AlreadySeen (segment : ReceivedSegmentState) (packet : StreamPacketWire) : Bool :=
  match segment.packets.lookup packet.packetIndex with
  | none => false
  | some existing =>
    !(packet.retransmission &&
      (existing.sequence ≠ packet.sequence || existing.payload ≠ packet.payload))

/-- The new state, and the children that get the packet. -/
def storePacket (stream : IncomingStreamState) (sender : MainDht) (packet : StreamPacketWire) :
    IncomingStreamState × Finset MainDht :=
  let segment := stream.segment packet.segmentNumber
  if AlreadySeen segment packet then (stream.setSegment packet.segmentNumber segment, ∅)
  else
    ({ stream.setSegment packet.segmentNumber { segment with
        packets := segment.packets.insert packet.packetIndex packet
        verified := false } with
      latestSequence := max stream.latestSequence packet.sequence
      latestSegment := max stream.latestSegment packet.segmentNumber },
      stream.children.erase sender)

def handlePacket (stream : IncomingStreamState) (sender : MainDht) (packet : StreamPacketWire) :
    Except StreamTransportError (IncomingStreamState × Finset MainDht) :=
  if stream.descriptor.generation ≠ packet.generation ∨ ¬ stream.running then
    .error (.invalidDescriptor "packet generation is not active")
  else if packet.payload = [] ∨ streamPacketBytes < packet.payload.length ∨
      streamPacketsPerSegment ≤ packet.packetIndex then
    .error (.invalidDescriptor "stream packet sizing is invalid")
  else if saturatingAdd stream.latestSegment streamMaxSegmentAhead < packet.segmentNumber ∨
      saturatingAdd packet.segmentNumber streamReceivedSegmentWindow < stream.latestSegment then
    .error (.invalidDescriptor "stream packet segment is outside the receive window")
  else if ¬ stream.FromUpstream sender then
    .error (.invalidDescriptor "packet did not come from an assigned upstream peer")
  else .ok (stream.storePacket sender packet)

def handleCommitmentHint (stream : IncomingStreamState) (sender : MainDht)
    (hint : StreamCommitmentHint) :
    Except StreamTransportError (IncomingStreamState × Finset MainDht) :=
  if hint.pageLocation < 1 ∨ streamCommitmentPagesPerRecord < hint.pageLocation then
    .error (.invalidDescriptor "commitment hint subkey is outside the record schema")
  else if ¬ stream.FromUpstream sender then
    .error (.invalidDescriptor "commitment hint came from an unrelated peer")
  else
    .ok (stream.setSegment hint.segmentNumber
      { stream.segment hint.segmentNumber with hint := some hint }, stream.children.erase sender)

/-- The source or the parent ends the stream. -/
def handleEnd (stream : IncomingStreamState) (sender : MainDht) (generation : UInt64)
    (reason : String) (now : UInt64) :
    Except StreamTransportError (IncomingStreamState × Finset MainDht) :=
  if streamMaxCloseReasonBytes < reason.utf8ByteSize then
    .error (.invalidDescriptor "stream end text exceeds the configured limit")
  else if (stream.parentMainDht ≠ some sender ∧ stream.descriptor.streamerMainDht ≠ sender) ∨
      stream.descriptor.generation ≠ generation then
    .error (.invalidDescriptor "invalid stream end source")
  else .ok ({ stream with running := false, closedAt := some now }, stream.children)

/-! ### The stages of a verification -/

/-- The copy that a verification starts from. A segment that is verified, or whose
commitment has not been announced, is left alone. -/
def beginVerification (stream : IncomingStreamState) (segmentNumber : UInt64) : Option Snapshot :=
  let segment := stream.segment segmentNumber
  if segment.verified then none
  else segment.hint.map fun hint =>
    { segmentNumber
      descriptor := stream.descriptor
      packets := segment.packets
      hint
      parentMainDht := stream.parentMainDht
      standbyParentMainDht := stream.standbyParentMainDht }

/-- Ask for the missing packets, at most every two seconds. -/
def requestMissing (stream : IncomingStreamState) (snapshot : Snapshot) (missing : List UInt32)
    (now : UInt64) : IncomingStreamState × List Addressed :=
  match stream.receivedSegments.lookup snapshot.segmentNumber with
  | none => (stream, [])
  | some segment =>
    if 2 ≤ saturatingSub now segment.lastRetransmitAt then
      (stream.setSegment snapshot.segmentNumber { segment with lastRetransmitAt := now },
        match snapshot.parentMainDht with
        | some parent =>
          [(parent, snapshot.retransmitRequest (missing.take streamMaxRetransmitIndices))]
        | none => [])
    else (stream, [])

/-- Whether the link to the segment before is established. -/
def chainReady (stream : IncomingStreamState) (segmentNumber : UInt64)
    (commitment : StreamSegmentCommitment) : Except StreamTransportError Bool :=
  if segmentNumber = 0 then
    if commitment.previousCommitmentHash ≠ zeroHash then
      .error (.integrity "first commitment does not begin a valid chain")
    else .ok true
  else match stream.verifiedCommitmentHashes.lookup (saturatingSub segmentNumber 1) with
    | some previousHash =>
      if commitment.previousCommitmentHash ≠ previousHash then
        .error (.integrity "stream commitment chain is broken")
      else .ok true
    | none => .ok false

/-- Segments that leave the window are dropped. -/
def markVerified (stream : IncomingStreamState) (segmentNumber : UInt64)
    (commitmentHash : Hash32) : IncomingStreamState :=
  let segments := match stream.receivedSegments.lookup segmentNumber with
    | some segment =>
      stream.receivedSegments.insert segmentNumber { segment with verified := true }
    | none => stream.receivedSegments
  let oldestKept := saturatingSub segmentNumber streamReceivedSegmentWindow
  { stream with
    receivedSegments := segments.retain (oldestKept ≤ ·)
    verifiedCommitmentHashes :=
      (stream.verifiedCommitmentHashes.insert segmentNumber commitmentHash).retain
        (saturatingSub oldestKept 1 ≤ ·) }

end IncomingStreamState

/-! ## The receiving side of a viewer -/

/-- A verification between two of its stages. -/
inductive VerificationTask
  | reading (snapshot : Snapshot)
  | checking (snapshot : Snapshot) (commitment : StreamSegmentCommitment)
  | marking (snapshot : Snapshot) (commitment : StreamSegmentCommitment)

/-- A viewer of one stream. The descriptors are those that it has held since it last asked
to join. -/
structure Receiver where
  stream : Option IncomingStreamState
  descriptors : List StreamDescriptor
  tasks : List VerificationTask

inductive ReceiverEvent
  | join (mainDht : MainDht) (applicationId : Bytes) (descriptor : StreamDescriptor)
      (relayCapacity : UInt16) (now : UInt64)
  /-- The viewer leaves, gives up, or clears the stream away after its end. -/
  | forget
  | control (sender : MainDht) (message : StreamWireMessage)
  | packet (sender : MainDht) (packet : StreamPacketWire)
  | hint (sender : MainDht) (hint : StreamCommitmentHint)
  | ended (sender : MainDht) (generation : UInt64) (reason : String) (now : UInt64)
  /-- A packet, a hint or the maintenance starts a verification. -/
  | verify (segmentNumber : UInt64)
  /-- The task at a position goes on; where it reads a page, this is what it gets. -/
  | advance (task : Nat) (fetched : Except StreamTransportError SignedCommitmentPage)
      (now : UInt64)

namespace Receiver

variable (verifyDescriptor : StreamDescriptor → Except StreamTransportError Unit) (streamId : Bytes)

/-- The viewer's state after a handler; an error leaves it as it was. -/
def handled (r : Receiver) (handler : IncomingStreamState →
      Except StreamTransportError (IncomingStreamState × Finset MainDht)) : Receiver :=
  match r.stream with
  | none => r
  | some stream =>
    match handler stream with
    | .ok (stream', _) => { r with stream := some stream' }
    | .error _ => r

def setTask (r : Receiver) (task : Nat) : Option VerificationTask → Receiver
  | some next => { r with tasks := r.tasks.set task next }
  | none => { r with tasks := r.tasks.eraseIdx task }

/-- The page has been read: compare it with the packets that were copied. -/
def compare (r : Receiver) (task : Nat) (snapshot : Snapshot)
    (fetched : Except StreamTransportError SignedCommitmentPage) (now : UInt64) :
    Receiver × List Addressed :=
  match readAndVerifyCommitmentPage primitives snapshot.descriptor snapshot.hint fetched with
  | .error _ => (r.setTask task none, [])
  | .ok commitment =>
    match snapshot.examine primitives commitment with
    | .error _ => (r.setTask task none, [])
    | .ok .matching => (r.setTask task (some (.checking snapshot commitment)), [])
    | .ok .mismatch => (r.setTask task none, snapshot.recoveryRequest commitment)
    | .ok (.incomplete missing) =>
      match r.stream with
      | none => (r.setTask task none, [])
      | some stream =>
        let (stream', messages) := stream.requestMissing snapshot missing now
        ({ r.setTask task none with stream := some stream' }, messages)

def check (r : Receiver) (task : Nat) (snapshot : Snapshot)
    (commitment : StreamSegmentCommitment) : Receiver :=
  match r.stream with
  | none => r.setTask task none
  | some stream =>
    match stream.chainReady snapshot.segmentNumber commitment with
    | .ok true => r.setTask task (some (.marking snapshot commitment))
    | _ => r.setTask task none

def mark (r : Receiver) (task : Nat) (snapshot : Snapshot)
    (commitment : StreamSegmentCommitment) : Receiver :=
  { r.setTask task none with
    stream := r.stream.map fun stream =>
      stream.markVerified snapshot.segmentNumber (hashSerialized primitives commitment) }

def next (r : Receiver) : ReceiverEvent → Receiver
  | .join mainDht applicationId descriptor relayCapacity now =>
    if descriptor.streamId ≠ streamId then r
    else match IncomingStreamState.joinStream verifyDescriptor mainDht applicationId descriptor
        relayCapacity now with
      | .ok (stream, _) => { r with stream := some stream, descriptors := [descriptor] }
      | .error _ => r
  | .forget => { r with stream := none, descriptors := [] }
  | .control sender message =>
    match r.stream with
    | none => r
    | some stream =>
      match (stream.process verifyDescriptor sender message).1 with
      | none => { r with stream := none, descriptors := [] }
      | some stream' =>
        { r with
          stream := some stream'
          descriptors := stream'.descriptor :: r.descriptors }
  | .packet sender packet =>
    if packet.streamId ≠ streamId then r
    else r.handled fun stream => stream.handlePacket sender packet
  | .hint sender hint =>
    if hint.streamId ≠ streamId then r
    else r.handled fun stream => stream.handleCommitmentHint sender hint
  | .ended sender generation reason now =>
    r.handled fun stream => stream.handleEnd sender generation reason now
  | .verify segmentNumber =>
    match r.stream.bind fun stream => stream.beginVerification segmentNumber with
    | none => r
    | some snapshot => { r with tasks := r.tasks ++ [.reading snapshot] }
  | .advance task fetched now =>
    match r.tasks[task]? with
    | none => r
    | some (.reading snapshot) => (r.compare primitives task snapshot fetched now).1
    | some (.checking snapshot commitment) => r.check task snapshot commitment
    | some (.marking snapshot commitment) => r.mark primitives task snapshot commitment

/-- A viewer that knows nothing of the stream. -/
def absent : Receiver where
  stream := none
  descriptors := []
  tasks := []

end Receiver

/-- The runs of a viewer: messages and the stages of its tasks, in any order. -/
def receiverSystem (verifyDescriptor : StreamDescriptor → Except StreamTransportError Unit)
    (streamId : Bytes) : LabelledSystem Receiver ReceiverEvent where
  initial r := r = .absent
  step r event r' := r' = r.next primitives verifyDescriptor streamId event

end VeilKnit.StreamTransport
