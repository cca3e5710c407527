import VeilKnit.StreamTransport.ParticipantTree

/-!
# Viewers and the messages between them and the source

A viewer holds its own state of the stream, with the children it forwards packets to. The
source tells a relay of a new child by a message, and a viewer that leaves tells the source
and its parent. Messages arrive in any order.

The network has one source and any number of viewers. A join may fail to reach the source,
and a handler may fail to send what it sends.
-/

namespace VeilKnit.StreamTransport

open Library

/-! ## The handlers of a viewer -/

/-- The part of an application id before its profile. -/
def family (value : Bytes) : Bytes :=
  let marker := (Mailbox.ascii "::profile::")
  match value.tails.findIdx? fun rest => marker.isPrefixOf rest with
  | some i => value.take i
  | none => value

def sameStreamApplicationFamily (left right : Bytes) : Prop := family left = family right

instance (left right : Bytes) : Decidable (sameStreamApplicationFamily left right) :=
  inferInstanceAs (Decidable (_ = _))

namespace IncomingStreamState

variable (verifyDescriptor : StreamDescriptor → Except StreamTransportError Unit)

/-- The state of a viewer that has asked to join. -/
def requested (applicationId : Bytes) (descriptor : StreamDescriptor) (relayCapacity : UInt16)
    (now : UInt64) : IncomingStreamState where
  applicationId
  descriptor
  running := true
  closedAt := none
  relayCapacity
  parentMainDht := none
  standbyParentMainDht := none
  children := ∅
  receivedSegments := ∅
  verifiedCommitmentHashes := ∅
  latestSequence := 0
  latestSegment := 0
  joinRequestedAt := now

/-- Whatever the viewer held of the stream is replaced. -/
def joinStream (mainDht : MainDht) (applicationId : Bytes) (descriptor : StreamDescriptor)
    (relayCapacity : UInt16) (now : UInt64) :
    Except StreamTransportError (IncomingStreamState × Addressed) := do
  verifyDescriptor descriptor
  if ¬ sameStreamApplicationFamily descriptor.applicationId applicationId then
    .error (.invalidDescriptor "stream application family does not match the authenticated app")
  else if descriptor.streamerMainDht = mainDht then
    .error (.invalidDescriptor "cannot join our own outgoing stream as a viewer")
  else
    let relayCapacity := min relayCapacity streamMaxRelayChildren
    .ok (requested applicationId descriptor relayCapacity now,
      (descriptor.streamerMainDht, .joinRequest descriptor mainDht relayCapacity now))

/-- The messages of a viewer that leaves. -/
def leaveStream (stream : IncomingStreamState) (mainDht : MainDht) (applicationId : Bytes) :
    Except StreamTransportError (List Addressed) :=
  if stream.applicationId ≠ applicationId then .error .notStreamOwner
  else
    let message := .leave stream.descriptor.streamId stream.descriptor.generation mainDht
    let recipients := match stream.parentMainDht with
      | some parent =>
        if parent = stream.descriptor.streamerMainDht then [stream.descriptor.streamerMainDht]
        else [stream.descriptor.streamerMainDht, parent]
      | none => [stream.descriptor.streamerMainDht]
    .ok (recipients.map fun recipient => (recipient, message))

def handleJoinAccepted (stream : IncomingStreamState) (sender : MainDht)
    (descriptor : StreamDescriptor) (parentMainDht : MainDht)
    (standbyParentMainDht : Option MainDht) (latestSequence latestSegment : UInt64) :
    Except StreamTransportError IncomingStreamState := do
  verifyDescriptor descriptor
  if sender ≠ descriptor.streamerMainDht then
    .error (.invalidDescriptor "join acceptance did not come from the original streamer")
  else if descriptor.streamId ≠ stream.descriptor.streamId then .error .streamNotFound
  else if stream.descriptor.generation ≠ descriptor.generation then
    .error (.invalidDescriptor "generation changed during join")
  else
    .ok { stream with
      descriptor
      parentMainDht := some parentMainDht
      standbyParentMainDht
      latestSequence := saturatingSub latestSequence 1
      latestSegment }

/-- Whether the message is about this stream and comes from its source. -/
def FromStreamer (stream : IncomingStreamState) (sender : MainDht) (generation : UInt64) : Prop :=
  stream.descriptor.streamerMainDht = sender ∧ stream.descriptor.generation = generation

instance (stream : IncomingStreamState) (sender : MainDht) (generation : UInt64) :
    Decidable (stream.FromStreamer sender generation) :=
  inferInstanceAs (Decidable (_ ∧ _))

/-- A rejection from the source ends the viewer's part in the stream. -/
def handleJoinRejected (stream : IncomingStreamState) (sender : MainDht) (generation : UInt64)
    (reason : String) : Except StreamTransportError (Option IncomingStreamState) :=
  if streamMaxCloseReasonBytes < reason.utf8ByteSize then
    .error (.invalidDescriptor "stream rejection text exceeds the configured limit")
  else if ¬ stream.FromStreamer sender generation then
    .error (.invalidDescriptor "invalid join rejection source")
  else .ok none

def handleAssignChild (stream : IncomingStreamState) (sender : MainDht) (generation : UInt64)
    (childMainDht : MainDht) : Except StreamTransportError IncomingStreamState :=
  if ¬ stream.FromStreamer sender generation then
    .error (.invalidDescriptor "child assignment was not issued by the streamer")
  else if childMainDht ∉ stream.children ∧ stream.relayCapacity.toNat ≤ stream.children.card then
    .error (.joinRejected "relay has no remaining child capacity")
  else .ok { stream with children := insert childMainDht stream.children }

def handleParentAssignment (stream : IncomingStreamState) (sender : MainDht)
    (generation : UInt64) (parentMainDht : MainDht) (standbyParentMainDht : Option MainDht) :
    Except StreamTransportError IncomingStreamState :=
  if ¬ stream.FromStreamer sender generation then
    .error (.invalidDescriptor "parent assignment was not issued by the streamer")
  else .ok { stream with parentMainDht := some parentMainDht, standbyParentMainDht }

/-- A relay drops a child that leaves. -/
def handleLeave (stream : IncomingStreamState) (sender : MainDht) (generation : UInt64)
    (viewerMainDht : MainDht) : Except StreamTransportError IncomingStreamState :=
  if stream.descriptor.generation ≠ generation ∨ sender ≠ viewerMainDht ∨
      viewerMainDht ∉ stream.children then
    .error (.invalidDescriptor "leave did not come from an assigned relay child")
  else .ok { stream with children := stream.children.erase viewerMainDht }

/-- A join without an answer times out. -/
def JoinExpired (stream : IncomingStreamState) (now : UInt64) : Prop :=
  stream.parentMainDht = none ∧ saturatingAdd stream.joinRequestedAt streamJoinTimeoutSecs < now

instance (stream : IncomingStreamState) (now : UInt64) : Decidable (stream.JoinExpired now) :=
  inferInstanceAs (Decidable (_ ∧ _))

/-- What a message does to the viewer it arrives at, and what the viewer passes on. -/
def process (stream : IncomingStreamState) (sender : MainDht) :
    StreamWireMessage → Option IncomingStreamState × List Addressed
  | .joinAccepted descriptor parent standby latestSequence latestSegment =>
    match stream.handleJoinAccepted verifyDescriptor sender descriptor parent standby
      latestSequence latestSegment with
    | .ok stream' => (some stream', [])
    | .error _ => (some stream, [])
  | .joinRejected streamId generation reason =>
    if streamId ≠ stream.descriptor.streamId then (some stream, [])
    else match stream.handleJoinRejected sender generation reason with
      | .ok stream' => (stream', [])
      | .error _ => (some stream, [])
  | .assignChild streamId generation child =>
    if streamId ≠ stream.descriptor.streamId then (some stream, [])
    else match stream.handleAssignChild sender generation child with
      | .ok stream' => (some stream', [])
      | .error _ => (some stream, [])
  | .parentAssignment streamId generation parent standby =>
    if streamId ≠ stream.descriptor.streamId then (some stream, [])
    else match stream.handleParentAssignment sender generation parent standby with
      | .ok stream' => (some stream', [])
      | .error _ => (some stream, [])
  | .leave streamId generation viewer =>
    if streamId ≠ stream.descriptor.streamId then (some stream, [])
    else match stream.handleLeave sender generation viewer with
      | .ok stream' => (some stream',
          [(stream.descriptor.streamerMainDht, .leave streamId generation viewer)])
      | .error _ => (some stream, [])
  | _ => (some stream, [])

end IncomingStreamState

/-! ## The network -/

/-- A message on its way. -/
structure Envelope where
  sender : MainDht
  recipient : MainDht
  message : StreamWireMessage
  deriving DecidableEq

def Envelope.from (sender : MainDht) (addressed : Addressed) : Envelope where
  sender
  recipient := addressed.1
  message := addressed.2

/-- A source, its viewers and the messages between them. -/
structure Network where
  source : OutgoingStreamState
  viewers : AList fun _ : MainDht => IncomingStreamState
  inFlight : List Envelope

/-- Which of the messages of a step are sent. -/
structure Sends where
  join : JoinSends
  other : Addressed → Bool

inductive NetworkEvent
  | join (viewer : MainDht) (applicationId : Bytes) (relayCapacity : UInt16) (now : UInt64)
  /-- The request to join does not reach the source; the viewer gives up. -/
  | joinUnsent (request : Envelope)
  | leave (viewer : MainDht) (applicationId : Bytes) (sends : Sends)
  | deliver (envelope : Envelope) (now joinedAt : UInt64) (sends : Sends)
  | expire (viewer : MainDht) (now : UInt64)

def StreamWireMessage.isJoinRequest : StreamWireMessage → Bool
  | .joinRequest .. => true
  | _ => false

namespace Network

variable (verifyDescriptor : StreamDescriptor → Except StreamTransportError Unit)

/-- The descriptor that all parties hold. -/
abbrev descriptor (n : Network) : StreamDescriptor := n.source.descriptor

def streamer (n : Network) : MainDht := n.descriptor.streamerMainDht

/-- The stream's identity in a message of a viewer or the source. -/
def leaveOf (n : Network) (viewer : MainDht) : StreamWireMessage :=
  .leave n.descriptor.streamId n.descriptor.generation viewer

def assignmentOf (n : Network) (child : MainDht) : StreamWireMessage :=
  .assignChild n.descriptor.streamId n.descriptor.generation child

def setViewer (n : Network) (viewer : MainDht) : Option IncomingStreamState → Network
  | some stream => { n with viewers := n.viewers.insert viewer stream }
  | none => { n with viewers := n.viewers.erase viewer }

def send (n : Network) (sender : MainDht) (messages : List Addressed) : Network :=
  { n with inFlight := n.inFlight ++ messages.map (Envelope.from sender) }

/-- A message arrives at the source. -/
def atSource (n : Network) (sender : MainDht) (now joinedAt : UInt64) (sends : Sends) :
    StreamWireMessage → Network
  | .joinRequest descriptor viewerMainDht relayCapacity requestedAt =>
    let (source, messages) := n.source.processJoinRequest verifyDescriptor n.streamer sender
      { descriptor, viewerMainDht, relayCapacity, requestedAt } now joinedAt sends.join
    { n with source }.send n.streamer messages
  | .leave streamId generation viewer =>
    if streamId ≠ n.descriptor.streamId then n
    else
      let (_, source, messages) :=
        n.source.handleLeave n.streamer sender generation viewer sends.other
      { n with source }.send n.streamer messages
  | _ => n

/-- A message arrives at a viewer. -/
def atViewer (n : Network) (viewer sender : MainDht) (sends : Sends)
    (message : StreamWireMessage) : Network :=
  match n.viewers.lookup viewer with
  | none => n
  | some stream =>
    let (stream', messages) := stream.process verifyDescriptor sender message
    (n.setViewer viewer stream').send viewer (messages.filter sends.other)

/-- Messages that claim to come from the recipient itself are dropped. -/
def receive (n : Network) (envelope : Envelope) (now joinedAt : UInt64) (sends : Sends) :
    Network :=
  if envelope.sender = envelope.recipient then n
  else if envelope.recipient = n.streamer then
    n.atSource verifyDescriptor envelope.sender now joinedAt sends envelope.message
  else n.atViewer verifyDescriptor envelope.recipient envelope.sender sends envelope.message

def takeOut (n : Network) (envelope : Envelope) : Network :=
  { n with inFlight := n.inFlight.erase envelope }

def next (n : Network) : NetworkEvent → Network
  | .join viewer applicationId relayCapacity now =>
    match IncomingStreamState.joinStream verifyDescriptor viewer applicationId n.descriptor
      relayCapacity now with
    | .ok (stream, request) => (n.setViewer viewer (some stream)).send viewer [request]
    | .error _ => n
  | .joinUnsent request => (n.takeOut request).setViewer request.sender none
  | .leave viewer applicationId sends =>
    match n.viewers.lookup viewer with
    | none => n
    | some stream =>
      match stream.leaveStream viewer applicationId with
      | .ok messages => (n.setViewer viewer none).send viewer (messages.filter sends.other)
      | .error _ => n
  | .deliver envelope now joinedAt sends =>
    (n.takeOut envelope).receive verifyDescriptor envelope now joinedAt sends
  | .expire viewer now =>
    match n.viewers.lookup viewer with
    | none => n
    | some stream => if stream.JoinExpired now then n.setViewer viewer none else n

/-- Only messages that are in flight are delivered or lost. -/
def Enabled (n : Network) : NetworkEvent → Prop
  | .joinUnsent request => request ∈ n.inFlight ∧ request.message.isJoinRequest
  | .deliver envelope _ _ _ => envelope ∈ n.inFlight
  | _ => True

/-- A stream that has just been started, without viewers. -/
def started (descriptor : StreamDescriptor) : Network where
  source := .started descriptor
  viewers := ∅
  inFlight := []

end Network

/-- The runs of a stream's source and viewers. -/
def networkSystem (verifyDescriptor : StreamDescriptor → Except StreamTransportError Unit)
    (descriptor : StreamDescriptor) : LabelledSystem Network NetworkEvent where
  initial n := n = .started descriptor
  step n event n' := n.Enabled event ∧ n' = n.next verifyDescriptor event

end VeilKnit.StreamTransport
