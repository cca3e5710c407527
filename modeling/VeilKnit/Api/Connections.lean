import Mathlib.Data.List.Nodup
import VeilKnit.Library.LabelledSystem

/-!
# Connections of the local interface

A connection reads requests line by line. A request takes a permit of its connection and a permit
of its lane, of which there are few for all connections, and goes on in a task of its own that
processes it within a time limit, takes the writer of the connection, writes the result and gives
both permits back. Two of the five subscriptions are told apart when they are read: they wait for
the tasks of the connection to end and then have the connection to themselves, without a permit.

A task that writes the result of a subscription goes on writing until the client or the source of
its events goes away. The time limit is on the processing alone.
-/

namespace VeilKnit.Api

open Library

def maxInFlightRequestsPerConnection : Nat := 16
def maxInFlightControlRequests : Nat := 12
def maxInFlightDeliveryRequests : Nat := 8
def localApiRequestTimeout : Nat := 150

/-- The requests that are told apart by their lane or by what they result in. -/
inductive ApiRequest
  | subscribeEvents
  | subscribeMessages
  | subscribeServiceRequests
  | subscribeGossip
  | subscribeStreams
  | sendMessage
  | sendGossip
  | publishGossipObject
  | withdrawGossipObject
  | searchGossip (queryNetwork : Bool)
  | observeLexical
  | withdrawLexicalObject
  | searchLexical (queryNetwork : Bool)
  | publishServiceRequest
  | sendServiceReply
  | appendBlobUpload
  | finishBlobUpload
  | startStream
  | writeStream
  | flushStream
  | other
  deriving DecidableEq

inductive ApiWorkLane
  | control
  | delivery
  deriving DecidableEq

def ApiWorkLane.permits : ApiWorkLane → Nat
  | .control => maxInFlightControlRequests
  | .delivery => maxInFlightDeliveryRequests

def ApiRequest.workLane : ApiRequest → ApiWorkLane
  | .sendMessage | .sendGossip | .publishGossipObject | .withdrawGossipObject
  | .searchGossip true | .observeLexical | .withdrawLexicalObject | .searchLexical true
  | .publishServiceRequest | .sendServiceReply | .appendBlobUpload | .finishBlobUpload
  | .startStream | .writeStream | .flushStream => .delivery
  | _ => .control

/-- The test of a connection on what it has read. -/
def ApiRequest.isSubscription : ApiRequest → Bool
  | .subscribeEvents | .subscribeMessages => true
  | _ => false

inductive ProcessResult
  | response
  | subscribeNetwork
  | subscribeMessages
  | subscribeServiceRequests
  | subscribeStreams
  | subscribeGossip
  deriving DecidableEq

/-- What the processing of a request comes to, by whether it passes the checks on it. An error is
`none`. -/
def ApiRequest.process (request : ApiRequest) (passes : Bool) : Option ProcessResult :=
  if passes then
    match request with
    | .subscribeEvents => some .subscribeNetwork
    | .subscribeMessages => some .subscribeMessages
    | .subscribeServiceRequests => some .subscribeServiceRequests
    | .subscribeGossip => some .subscribeGossip
    | .subscribeStreams => some .subscribeStreams
    | _ => some .response
  else none

/-- Writing the result goes on after its first line. -/
def streams : Option ProcessResult → Bool
  | none => false
  | some .response => false
  | some _ => true

/-- A subscription that a connection does not tell apart. -/
def ApiRequest.isOverlooked : ApiRequest → Bool
  | .subscribeServiceRequests | .subscribeGossip | .subscribeStreams => true
  | _ => false

theorem ApiRequest.streams_process {request : ApiRequest} {passes : Bool}
    (h : streams (request.process passes) = true) :
    passes = true ∧ (request.isSubscription = true ∨ request.isOverlooked = true) := by
  cases passes with
  | false => cases h
  | true =>
    refine ⟨rfl, ?_⟩
    cases request with
    | subscribeEvents => exact .inl rfl
    | subscribeMessages => exact .inl rfl
    | subscribeServiceRequests => exact .inr rfl
    | subscribeGossip => exact .inr rfl
    | subscribeStreams => exact .inr rfl
    | _ => cases h

/-! ## State -/

inductive Phase
  | processing
  | answering (result : Option ProcessResult)
  deriving DecidableEq

/-- A task has a permit of its connection and one of its lane. -/
structure Task where
  ticket : Nat
  request : ApiRequest
  startedAt : Nat
  phase : Phase
  deriving DecidableEq

/-- What the loop of a connection is at. -/
inductive Reader
  | reading
  | reporting
  | queued (request : ApiRequest)
  | admitted (request : ApiRequest)
  | joining (request : ApiRequest)
  | processing (request : ApiRequest)
  | answering (result : Option ProcessResult)
  | draining
  | closed
  deriving DecidableEq

/-- Who has locked the writer. -/
inductive Holder
  | task (ticket : Nat)
  | reader
  deriving DecidableEq

structure Connection where
  reader : Reader
  tasks : List Task
  writer : Option Holder
  deriving DecidableEq

/-- All connections, the permits that are held of each lane, and the requests whose one response
has been written. Tasks are numbered. -/
structure Server where
  now : Nat
  nextTicket : Nat
  held : ApiWorkLane → List Nat
  connections : Nat → Connection
  written : List Nat

def Connection.new : Connection where
  reader := .reading
  tasks := []
  writer := none

namespace Server

def start : Server where
  now := 0
  nextTicket := 0
  held := fun _ => []
  connections := fun _ => .new
  written := []

def setConnection (s : Server) (c : Nat) (connection : Connection) : Server :=
  { s with connections := Function.update s.connections c connection }

def setReader (s : Server) (c : Nat) (reader : Reader) : Server :=
  s.setConnection c { s.connections c with reader := reader }

/-- Start a task for a request. -/
def spawn (s : Server) (c : Nat) (request : ApiRequest) : Server :=
  let lane := request.workLane
  let connection := s.connections c
  let s := s.setConnection c
    { connection with
      reader := .reading
      tasks := ⟨s.nextTicket, request, s.now, .processing⟩ :: connection.tasks }
  { s with
    nextTicket := s.nextTicket + 1
    held := Function.update s.held lane (s.nextTicket :: s.held lane) }

/-- End some tasks of a connection, which gives their permits back. -/
def release (s : Server) (c : Nat) (ends : Nat → Bool) : Server :=
  let connection := s.connections c
  let s := s.setConnection c
    { connection with
      tasks := connection.tasks.filter fun task => !ends task.ticket }
  { s with held := fun lane => (s.held lane).filter fun ticket => !ends ticket }

def task? (s : Server) (c ticket : Nat) : Option Task :=
  (s.connections c).tasks.find? fun task => task.ticket = ticket

/-- The processing of a task is over. -/
def answer (s : Server) (c ticket : Nat) (result : Option ProcessResult) : Server :=
  let connection := s.connections c
  s.setConnection c
    { connection with
      tasks := connection.tasks.map fun task =>
        if task.ticket = ticket then { task with phase := .answering result } else task }

def setWriter (s : Server) (c : Nat) (writer : Option Holder) : Server :=
  s.setConnection c { s.connections c with writer := writer }

@[simp]
theorem setConnection_self (s : Server) (c : Nat) (connection : Connection) :
    (s.setConnection c connection).connections c = connection :=
  Function.update_self _ _ _

theorem setConnection_of_ne (s : Server) {c c' : Nat} (connection : Connection) (hc : c' ≠ c) :
    (s.setConnection c connection).connections c' = s.connections c' :=
  Function.update_of_ne hc _ _

@[simp]
theorem setConnection_setConnection (s : Server) (c : Nat) (first second : Connection) :
    (s.setConnection c first).setConnection c second = s.setConnection c second := by
  simp [setConnection]

/-- A connection whose writer has been unlocked, without some of its tasks. -/
theorem release_setWriter (s : Server) (c : Nat) (ends : Nat → Bool) :
    (s.setWriter c none).release c ends =
      { s.setConnection c
          { s.connections c with
            tasks := (s.connections c).tasks.filter fun task => !ends task.ticket
            writer := none } with
        held := fun lane => (s.held lane).filter fun ticket => !ends ticket } := by
  rw [release, setWriter, setConnection_setConnection, setConnection_self]
  rfl

end Server

/-! ## Steps -/

/-- Steps of a connection, by its number, and of the clock. -/
inductive ServerLabel
  | receive (c : Nat) (request : ApiRequest)
  | malformed (c : Nat)
  | acquirePermit (c : Nat)
  | acquireLane (c : Nat)
  | joined (c : Nat)
  | processed (c : Nat) (passes : Bool)
  | taskProcessed (c ticket : Nat) (passes : Bool)
  | taskTimeout (c ticket : Nat)
  | lockWriter (c ticket : Nat)
  | write (c ticket : Nat)
  | streamEnds (c ticket : Nat)
  | readerLocks (c : Nat)
  | readerWrites (c : Nat)
  | readerStreamEnds (c : Nat)
  | endOfInput (c : Nat)
  | drained (c : Nat)
  | broken (c : Nat)
  | tick
  deriving DecidableEq

open Server in
/-- The processing of a task ends by itself or at its time limit, which the clock does not pass. -/
def Server.next (s : Server) : ServerLabel → Option Server
  | .receive c request =>
    if (s.connections c).reader = .reading then
      if request.isSubscription then some (s.setReader c (.joining request))
      else some (s.setReader c (.queued request))
    else none
  | .malformed c =>
    if (s.connections c).reader = .reading then some (s.setReader c .reporting) else none
  | .acquirePermit c =>
    match (s.connections c).reader with
    | .queued request =>
      if (s.connections c).tasks.length < maxInFlightRequestsPerConnection then
        some (s.setReader c (.admitted request))
      else none
    | _ => none
  | .acquireLane c =>
    match (s.connections c).reader with
    | .admitted request =>
      if (s.held request.workLane).length < request.workLane.permits then
        some (s.spawn c request)
      else none
    | _ => none
  | .joined c =>
    match (s.connections c).reader with
    | .joining request =>
      if (s.connections c).tasks = [] then some (s.setReader c (.processing request)) else none
    | _ => none
  | .processed c passes =>
    match (s.connections c).reader with
    | .processing request => some (s.setReader c (.answering (request.process passes)))
    | _ => none
  | .taskProcessed c ticket passes =>
    match s.task? c ticket with
    | some task =>
      if task.phase = .processing then some (s.answer c ticket (task.request.process passes))
      else none
    | none => none
  | .taskTimeout c ticket =>
    match s.task? c ticket with
    | some task =>
      if task.phase = .processing ∧ s.now = task.startedAt + localApiRequestTimeout then
        some (s.answer c ticket none)
      else none
    | none => none
  | .lockWriter c ticket =>
    match s.task? c ticket with
    | some task =>
      if task.phase ≠ .processing ∧ (s.connections c).writer = none then
        some (s.setWriter c (some (.task ticket)))
      else none
    | none => none
  | .write c ticket =>
    match s.task? c ticket with
    | some task =>
      match task.phase with
      | .answering result =>
        if (s.connections c).writer = some (.task ticket) ∧ streams result = false then
          some { (s.setWriter c none).release c (fun n => n = ticket) with
                 written := ticket :: s.written }
        else none
      | .processing => none
    | none => none
  | .streamEnds c ticket =>
    match s.task? c ticket with
    | some task =>
      match task.phase with
      | .answering result =>
        if (s.connections c).writer = some (.task ticket) ∧ streams result then
          some ((s.setWriter c none).release c fun n => n = ticket)
        else none
      | .processing => none
    | none => none
  | .readerLocks c =>
    match (s.connections c).reader with
    | .reporting =>
      if (s.connections c).writer = none then some (s.setWriter c (some .reader)) else none
    | .answering _ =>
      if (s.connections c).writer = none then some (s.setWriter c (some .reader)) else none
    | _ => none
  | .readerWrites c =>
    if (s.connections c).writer = some .reader then
      match (s.connections c).reader with
      | .reporting => some ((s.setWriter c none).setReader c .reading)
      | .answering result =>
        if streams result then none else some ((s.setWriter c none).setReader c .closed)
      | _ => none
    else none
  | .readerStreamEnds c =>
    if (s.connections c).writer = some .reader then
      match (s.connections c).reader with
      | .answering result =>
        if streams result then some ((s.setWriter c none).setReader c .closed) else none
      | _ => none
    else none
  | .endOfInput c =>
    if (s.connections c).reader = .reading then some (s.setReader c .draining) else none
  | .drained c =>
    if (s.connections c).reader = .draining ∧ (s.connections c).tasks = [] then
      some (s.setReader c .closed)
    else none
  | .broken c =>
    some (((s.setWriter c none).release c fun n => (s.task? c n).isSome).setReader c .closed)
  | .tick =>
    some { s with now := s.now + 1 }

end VeilKnit.Api
