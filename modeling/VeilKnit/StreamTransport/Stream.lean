import VeilKnit.Library.AssociationList
import VeilKnit.Library.ParentForest
import VeilKnit.Mailbox.Protocol

/-!
# Streams

A stream has one source and a tree of viewers that relay its packets. The source holds the
tree; each viewer holds the state of the stream as it receives it, with the children that
it forwards packets to.

Packets, commitments and the messages on the wire are those of protocol version one. Keys
are texts, compared byte by byte.
-/

namespace VeilKnit.StreamTransport

open Library

export Mailbox (saturatingAdd)

/-- The text of a main DHT key. -/
abbrev MainDht := Bytes

abbrev Hash32 := { bytes : Bytes // bytes.length = 32 }

def streamPacketBytes : Nat := 24 * 1024

def streamPacketsPerSegment : UInt32 := 32

def streamCommitmentPagesPerRecord : UInt32 := 63

def streamCommitmentsPerPage : Nat := 16

def streamMaxCloseReasonBytes : Nat := 256

def streamMaxViewers : Nat := 256

def streamMaxRelayChildren : UInt16 := 4

def streamSourceDirectChildren : Nat := 2

def streamReceivedSegmentWindow : UInt64 := 16

def streamMaxSegmentAhead : UInt64 := 64

def streamMaxRetransmitIndices : Nat := 64

def streamJoinTimeoutSecs : UInt64 := 30

def streamClosedRetentionSecs : UInt64 := 120

/-- `u64::saturating_sub`. -/
def saturatingSub (a b : UInt64) : UInt64 :=
  if b ≤ a then a - b else 0

inductive StreamTransportError
  | streamNotFound
  | streamAlreadyClosed
  | notStreamOwner
  | invalidDescriptor (reason : String)
  | viewerLimitReached
  | joinRejected (reason : String)
  | transport (reason : String)
  | storage (reason : String)
  | integrity (reason : String)
  deriving DecidableEq

structure StreamDescriptor where
  streamId : Bytes
  applicationId : Bytes
  streamerMainDht : MainDht
  generation : UInt64
  signingPublicKeyHex : Bytes
  signatureHex : Bytes
  deriving DecidableEq

structure StreamPacketWire where
  streamId : Bytes
  generation : UInt64
  sequence : UInt64
  segmentNumber : UInt64
  packetIndex : UInt32
  retransmission : Bool
  payload : Bytes
  deriving DecidableEq

structure StreamSegmentCommitment where
  segmentNumber : UInt64
  firstSequence : UInt64
  packetCount : UInt32
  payloadBytes : UInt64
  sha256 : Hash32
  previousCommitmentHash : Hash32
  publishedAt : UInt64
  deriving DecidableEq

structure StreamCommitmentHint where
  streamId : Bytes
  generation : UInt64
  segmentNumber : UInt64
  recordKey : Bytes
  pageLocation : UInt32
  deriving DecidableEq

/-- What peers send each other. -/
inductive StreamWireMessage
  | joinRequest (descriptor : StreamDescriptor) (viewerMainDht : MainDht)
      (relayCapacity : UInt16) (requestedAt : UInt64)
  | joinAccepted (descriptor : StreamDescriptor) (parentMainDht : MainDht)
      (standbyParentMainDht : Option MainDht) (latestSequence latestSegment : UInt64)
  | joinRejected (streamId : Bytes) (generation : UInt64) (reason : String)
  | assignChild (streamId : Bytes) (generation : UInt64) (childMainDht : MainDht)
  | parentAssignment (streamId : Bytes) (generation : UInt64) (parentMainDht : MainDht)
      (standbyParentMainDht : Option MainDht)
  | packet (packet : StreamPacketWire)
  | commitmentHint (hint : StreamCommitmentHint)
  | retransmitRequest (streamId : Bytes) (generation : UInt64) (segmentNumber : UInt64)
      (packetIndices : List UInt32)
  | leave (streamId : Bytes) (generation : UInt64) (viewerMainDht : MainDht)
  | finish (streamId : Bytes) (generation : UInt64) (reason : String)
  deriving DecidableEq

/-- A message with its recipient. -/
abbrev Addressed := MainDht × StreamWireMessage

/-! ## The source's state -/

structure ParticipantState where
  parentMainDht : MainDht
  children : Finset MainDht
  relayCapacity : UInt16
  depth : UInt16
  joinedAt : UInt64
  deriving DecidableEq

/-- A stream at its source. -/
structure OutgoingStreamState where
  descriptor : StreamDescriptor
  running : Bool
  closedAt : Option UInt64
  participants : AList fun _ : MainDht => ParticipantState
  directChildren : Finset MainDht
  nextSequence : UInt64
  currentSegment : UInt64
  /-- The numbers of the sealed segments without a published commitment. -/
  pendingSegments : List UInt64

/-! ## A viewer's state -/

structure ReceivedSegmentState where
  packets : AList fun _ : UInt32 => StreamPacketWire
  hint : Option StreamCommitmentHint
  verified : Bool
  lastRetransmitAt : UInt64

/-- A segment of which nothing has arrived. -/
def ReceivedSegmentState.default : ReceivedSegmentState where
  packets := ∅
  hint := none
  verified := false
  lastRetransmitAt := 0

/-- A stream at a viewer. -/
structure IncomingStreamState where
  applicationId : Bytes
  descriptor : StreamDescriptor
  running : Bool
  closedAt : Option UInt64
  relayCapacity : UInt16
  parentMainDht : Option MainDht
  standbyParentMainDht : Option MainDht
  children : Finset MainDht
  receivedSegments : AList fun _ : UInt64 => ReceivedSegmentState
  verifiedCommitmentHashes : AList fun _ : UInt64 => Hash32
  latestSequence : UInt64
  latestSegment : UInt64
  joinRequestedAt : UInt64

end VeilKnit.StreamTransport
