import Mathlib.Data.Finset.Sort
import Mathlib.Data.List.MinMax
import Mathlib.Data.Prod.Lex
import VeilKnit.Library.LabelledSystem
import VeilKnit.StreamTransport.Stream

/-!
# The source's participant tree

The source admits viewers and picks a parent for each of them: the shallowest participant
with relay capacity left, or itself. A viewer that leaves is taken out of the tree and its
children are reattached to the source.

The tree is kept in four places (parents, children, direct children, depths) that each
operation updates by hand.
-/

namespace VeilKnit.StreamTransport

open Library

namespace OutgoingStreamState

/-! ## Choosing a parent -/

/-- A participant that may take one more child. -/
def HasCapacity (participant : ParticipantState) : Prop :=
  UInt16.ofNat participant.children.card < participant.relayCapacity

instance (participant : ParticipantState) : Decidable (HasCapacity participant) :=
  inferInstanceAs (Decidable (_ < _))

/-- Shallow participants come first, then those with few children, then the oldest. -/
def parentOrder (peer : MainDht) (participant : ParticipantState) :
    Nat ×ₗ Nat ×ₗ Nat ×ₗ MainDht :=
  toLex (participant.depth.toNat, toLex (participant.children.card,
    toLex (participant.joinedAt.toNat, peer)))

/-- `u16::saturating_add(1)`. -/
def deeper (depth : UInt16) : UInt16 :=
  if depth.toNat + 1 < 2 ^ 16 then depth + 1 else depth

def chooseParentExcluding (stream : OutgoingStreamState) (sourceMainDht excluded : MainDht) :
    MainDht × UInt16 :=
  let candidates := stream.participants.entries.filter fun entry =>
    entry.1 ≠ excluded ∧ HasCapacity entry.2
  match candidates.argmin fun entry => parentOrder entry.1 entry.2 with
  | some entry => (entry.1, deeper entry.2.depth)
  | none =>
    if stream.directChildren.card < streamSourceDirectChildren then (sourceMainDht, 1)
    -- The source is the fallback when viewers decline relay duty.
    else (sourceMainDht, 1)

def chooseParent (stream : OutgoingStreamState) (sourceMainDht : MainDht) : MainDht × UInt16 :=
  stream.chooseParentExcluding sourceMainDht []

def chooseStandby (stream : OutgoingStreamState) (parent : MainDht) : Option MainDht :=
  if parent ≠ stream.descriptor.streamerMainDht then some stream.descriptor.streamerMainDht
  else none

/-! ## Joining -/

/-- Insert a new viewer under its parent. -/
def insertViewer (stream : OutgoingStreamState) (sourceMainDht viewer : MainDht)
    (relayCapacity : UInt16) (joinedAt : UInt64) : OutgoingStreamState :=
  let (parent, depth) := stream.chooseParent sourceMainDht
  let linked :=
    if parent = sourceMainDht then
      { stream with directChildren := insert viewer stream.directChildren }
    else
      { stream with
        participants := stream.participants.mapEntries fun peer participant =>
          if peer = parent then
            { participant with children := insert viewer participant.children }
          else participant }
  { linked with
    participants := linked.participants.insert viewer {
      parentMainDht := parent
      children := ∅
      relayCapacity := min relayCapacity streamMaxRelayChildren
      depth
      joinedAt } }

/-- Take a viewer out of the participants and out of their children. -/
def withdraw (stream : OutgoingStreamState) (viewer : MainDht) : OutgoingStreamState :=
  { stream with
    participants := (stream.participants.erase viewer).mapEntries fun _ participant =>
      { participant with children := participant.children.erase viewer } }

def eraseDirect (stream : OutgoingStreamState) (viewer : MainDht) : OutgoingStreamState :=
  { stream with directChildren := stream.directChildren.erase viewer }

end OutgoingStreamState

/-- A request to join, as it arrives. -/
structure JoinRequest where
  descriptor : StreamDescriptor
  viewerMainDht : MainDht
  relayCapacity : UInt16
  requestedAt : UInt64

/-- Which of the messages of one join are sent. -/
structure JoinSends where
  assigned : Bool
  accepted : Bool
  rejected : Bool

namespace OutgoingStreamState

variable (verifyDescriptor : StreamDescriptor → Except StreamTransportError Unit)

/-- The checks on a request before the stream is looked at. -/
def checkJoinRequest (sourceMainDht sender : MainDht) (request : JoinRequest) (now : UInt64) :
    Except StreamTransportError Unit :=
  if sender ≠ request.viewerMainDht then
    .error (.invalidDescriptor "join sender does not match the viewer identity")
  else if saturatingAdd request.requestedAt streamJoinTimeoutSecs < now ∨
      saturatingAdd now (5 * 60) < request.requestedAt then
    .error (.joinRejected "join request expired")
  else do
    verifyDescriptor request.descriptor
    if request.descriptor.streamerMainDht ≠ sourceMainDht then
      .error (.invalidDescriptor "join request targets a different streamer")
    else .ok ()

/-- The checks on the stream before a viewer is selected. -/
def checkJoin (stream : OutgoingStreamState) (request : JoinRequest) :
    Except StreamTransportError Unit :=
  if request.descriptor.streamId ≠ stream.descriptor.streamId then .error .streamNotFound
  else if stream.descriptor.generation ≠ request.descriptor.generation ∨ ¬ stream.running then
    .error .streamAlreadyClosed
  else if streamMaxViewers ≤ stream.participants.keys.length then .error .viewerLimitReached
  else .ok ()

/-- Announce a viewer to its parent and the parent to the viewer. A new viewer is taken
out again when one of the messages cannot be sent. -/
def announce (stream : OutgoingStreamState) (sourceMainDht viewer parent : MainDht)
    (wasExisting : Bool) (sends : JoinSends) :
    Except StreamTransportError Unit × OutgoingStreamState × List Addressed :=
  let descriptor := stream.descriptor
  let assignment : List Addressed :=
    if parent ≠ sourceMainDht then
      [(parent, .assignChild descriptor.streamId descriptor.generation viewer)]
    else []
  if parent ≠ sourceMainDht ∧ ¬ sends.assigned then
    (.error (.transport "child assignment not sent"),
      if wasExisting then stream else stream.withdraw viewer, [])
  else if ¬ sends.accepted then
    (.error (.transport "join acceptance not sent"),
      if wasExisting then stream else (stream.withdraw viewer).eraseDirect viewer, assignment)
  else
    (.ok (), stream, assignment ++ [(viewer, .joinAccepted descriptor parent
      (stream.chooseStandby parent) stream.nextSequence stream.currentSegment)])

def handleJoinRequest (stream : OutgoingStreamState) (sourceMainDht sender : MainDht)
    (request : JoinRequest) (now joinedAt : UInt64) (sends : JoinSends) :
    Except StreamTransportError Unit × OutgoingStreamState × List Addressed :=
  match checkJoinRequest verifyDescriptor sourceMainDht sender request now with
  | .error error => (.error error, stream, [])
  | .ok () =>
    match stream.checkJoin request with
    | .error error => (.error error, stream, [])
    | .ok () =>
      match stream.participants.lookup request.viewerMainDht with
      | some existing =>
        stream.announce sourceMainDht request.viewerMainDht existing.parentMainDht true sends
      | none =>
        (stream.insertViewer sourceMainDht request.viewerMainDht request.relayCapacity
          joinedAt).announce sourceMainDht request.viewerMainDht
            (stream.chooseParent sourceMainDht).1 false sends

/-- A join that fails is answered with a rejection. -/
def processJoinRequest (stream : OutgoingStreamState) (sourceMainDht sender : MainDht)
    (request : JoinRequest) (now joinedAt : UInt64) (sends : JoinSends) :
    OutgoingStreamState × List Addressed :=
  let (result, stream', sent) :=
    stream.handleJoinRequest verifyDescriptor sourceMainDht sender request now joinedAt sends
  match result with
  | .ok () => (stream', sent)
  | .error _ =>
    (stream', if sends.rejected then
      sent ++ [(sender, .joinRejected request.descriptor.streamId request.descriptor.generation
        "the stream source did not accept this viewer")]
    else sent)

/-! ## Leaving -/

/-- Reattach orphans to the source, one after the other. -/
def reattach (sourceMainDht : MainDht) : OutgoingStreamState → List MainDht →
    OutgoingStreamState × List (MainDht × MainDht × Option MainDht)
  | stream, [] => (stream, [])
  | stream, child :: orphaned =>
    if stream.participants.lookup child = none then reattach sourceMainDht stream orphaned
    else
      let parent := sourceMainDht
      let standby := stream.chooseStandby parent
      let (stream', assignments) := reattach sourceMainDht { stream with
        directChildren := insert child stream.directChildren
        participants := stream.participants.mapEntries fun peer participant =>
          if peer = child then { participant with parentMainDht := parent, depth := 1 }
          else participant } orphaned
      (stream', (child, parent, standby) :: assignments)

def removeParticipantAndReassign (stream : OutgoingStreamState) (sourceMainDht viewer : MainDht) :
    OutgoingStreamState × List (MainDht × MainDht × Option MainDht) :=
  let orphaned := match stream.participants.lookup viewer with
    | some removed => removed.children.sort
    | none => []
  reattach sourceMainDht ((stream.withdraw viewer).eraseDirect viewer) orphaned

/-- The messages about one reattached child. -/
def assignmentMessages (stream : OutgoingStreamState) (sourceMainDht : MainDht)
    (generation : UInt64) : MainDht × MainDht × Option MainDht → List Addressed
  | (child, parent, standby) =>
    (if parent ≠ sourceMainDht then
      [(parent, .assignChild stream.descriptor.streamId generation child)] else []) ++
    [(child, .parentAssignment stream.descriptor.streamId generation parent standby)]

/-- Whether the source takes a leave message from this sender. -/
def AcceptsLeave (stream : OutgoingStreamState) (sender : MainDht) (generation : UInt64)
    (viewer : MainDht) : Prop :=
  stream.descriptor.generation = generation ∧ ∃ participant,
    stream.participants.lookup viewer = some participant ∧
      (sender = viewer ∨ participant.parentMainDht = sender)

def handleLeave (stream : OutgoingStreamState) (sourceMainDht sender : MainDht)
    (generation : UInt64) (viewer : MainDht) (sent : Addressed → Bool) :
    Except StreamTransportError Unit × OutgoingStreamState × List Addressed :=
  if stream.descriptor.generation ≠ generation then
    (.error (.invalidDescriptor "leave generation mismatch"), stream, [])
  else
    match stream.participants.lookup viewer with
    | none => (.ok (), stream, [])
    | some participant =>
      if sender ≠ viewer ∧ participant.parentMainDht ≠ sender then
        (.error (.invalidDescriptor "invalid leave source"), stream, [])
      else
        let (stream', assignments) := stream.removeParticipantAndReassign sourceMainDht viewer
        (.ok (), stream', (assignments.flatMap
          (stream'.assignmentMessages sourceMainDht generation)).filter sent)

/-! ## Closing -/

def closeStream (stream : OutgoingStreamState) (now : UInt64) :
    Except StreamTransportError Unit × OutgoingStreamState :=
  if ¬ stream.running then (.error .streamAlreadyClosed, stream)
  else (.ok (), { stream with running := false, closedAt := some now })

/-- The part of the cleanup that empties the tree of a stream closed long ago. -/
def expireClosed (stream : OutgoingStreamState) (now : UInt64) : OutgoingStreamState :=
  match stream.closedAt with
  | some closedAt =>
    if streamClosedRetentionSecs ≤ saturatingSub now closedAt ∧ stream.pendingSegments = [] then
      { stream with participants := ∅, directChildren := ∅ }
    else stream
  | none => stream

/-- A stream that has just been started. -/
def started (descriptor : StreamDescriptor) : OutgoingStreamState where
  descriptor
  running := true
  closedAt := none
  participants := ∅
  directChildren := ∅
  nextSequence := 0
  currentSegment := 0
  pendingSegments := []

end OutgoingStreamState

/-! ## Runs of a source -/

/-- What happens at a source. -/
inductive SourceEvent
  | join (sender : MainDht) (request : JoinRequest) (now joinedAt : UInt64) (sends : JoinSends)
  | leave (sender : MainDht) (generation : UInt64) (viewer : MainDht) (sent : Addressed → Bool)
  | publish (nextSequence currentSegment : UInt64) (pendingSegments : List UInt64)
  | close (now : UInt64)
  | expire (now : UInt64)

/-- The peer that a message comes from. -/
def SourceEvent.sender? : SourceEvent → Option MainDht
  | .join sender _ _ _ _ => some sender
  | .leave sender _ _ _ => some sender
  | _ => none

variable (verifyDescriptor : StreamDescriptor → Except StreamTransportError Unit)

def OutgoingStreamState.next (stream : OutgoingStreamState) (sourceMainDht : MainDht) :
    SourceEvent → OutgoingStreamState
  | .join sender request now joinedAt sends =>
    (stream.processJoinRequest verifyDescriptor sourceMainDht sender request now joinedAt sends).1
  | .leave sender generation viewer sent =>
    (stream.handleLeave sourceMainDht sender generation viewer sent).2.1
  | .publish nextSequence currentSegment pendingSegments =>
    { stream with nextSequence, currentSegment, pendingSegments }
  | .close now => (stream.closeStream now).2
  | .expire now => stream.expireClosed now

/-- The runs of the source of a stream. The bridge handles one message after the other,
and the layer below it drops messages that claim to come from the node itself. -/
def treeSystem (descriptor : StreamDescriptor) : LabelledSystem OutgoingStreamState SourceEvent where
  initial stream := stream = .started descriptor
  step stream event stream' :=
    event.sender? ≠ some descriptor.streamerMainDht ∧
      stream' = stream.next verifyDescriptor descriptor.streamerMainDht event

end VeilKnit.StreamTransport
