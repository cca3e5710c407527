import VeilKnit.Library.LabelledSystem
import VeilKnit.Gossip.Manager

/-!
# Operations of the gossip manager

One step is what an application, a peer's frame or the maintenance timer makes the manager do
under its lock. A withdrawal and the answer to a query need the lock several times; between
these times anything else may happen.
-/

namespace VeilKnit.Gossip

open Library

variable {Digest Score : Type} [DecidableEq Digest]

/-- What an operation still has to do when it has given up the lock. -/
inductive Flight
  | withdrawal (applicationId : String) (record : GossipRecord) (allowReserved : Bool)
  | response (applicationId sender : String) (queryId : Bytes) (records : List GossipRecord)
      (accepted : Nat)

inductive Operation
  | activateApplication (applicationId : String)
  | publish (applicationId : String) (request : GossipPublishRequest)
  | publishSystemRecord (applicationId : String) (record : GossipRecord)
  | withdraw (applicationId : String) (key : GossipObjectKey) (requestedGeneration : Option Nat)
      (allowReserved : Bool)
  | confirm (applicationId : String) (key : GossipObjectKey) (generation : Nat)
      (level : GossipConfirmationLevel) (matchesAuthoritative : Bool)
  | searchLocal (applicationId : String) (query : GossipSearchQuery)
  | listRecent (applicationId : String) («namespace» : Option String) (limit : Nat)
  | incoming (applicationId sender : String) (payload : Bytes)
  | proceed (index : Nat)
  | pruneExpired

structure Node (Digest Score : Type) where
  state : GossipState Digest
  inFlight : List Flight
  /-- Everything so far, in order. -/
  effects : List (Effect Score)

def Node.new (Digest Score : Type) : Node Digest Score := ⟨.empty Digest, [], []⟩

omit [DecidableEq Digest] in
/-- The state and the effects of an operation, with more left to do. -/
def Node.after {α : Type} (node : Node Digest Score) (outcome : Outcome Digest Score α)
    (inFlight : List Flight) : Node Digest Score :=
  ⟨outcome.state, inFlight, node.effects ++ outcome.effects⟩

section Perform

variable (prim : Primitives Digest Score) (mainDht : String) (ans : Answers Digest)

/-- A frame from a peer that claims an identity. -/
def processIncoming (applicationId sender : String) (payload : Bytes)
    (node : Node Digest Score) : Node Digest Score :=
  match validateApplicationId applicationId with
  | .error _ => node
  | .ok () =>
    if ¬ node.state.isApplicationActive applicationId then node
    else
      match decodeWire prim payload with
      | .error _ => node
      | .ok (.record record hopsRemaining) =>
        node.after (processRecord prim ans applicationId sender record hopsRemaining
          node.state) node.inFlight
      | .ok (.query queryId query) =>
        node.after (processQuery prim ans applicationId sender queryId query node.state)
          node.inFlight
      | .ok (.queryResponse queryId records) =>
        { node with inFlight := node.inFlight ++ [.response applicationId sender queryId
            (records.take gossipMaxQueryResponseRecords) 0] }

/-- One more step of an operation that gave up the lock. -/
def proceed (flight : Flight) (rest : List Flight) (node : Node Digest Score) :
    Node Digest Score :=
  match flight with
  | .withdrawal applicationId record allowReserved =>
    node.after (publishRecordInternal prim mainDht ans applicationId record allowReserved 0
      node.state) rest
  | .response applicationId _ queryId [] accepted =>
    ⟨node.state, rest, node.effects ++ [.event (.queryMerged applicationId queryId accepted)]⟩
  | .response applicationId sender queryId (record :: records) accepted =>
    match validateRecord prim.isRecordKey (ans.clock 0) record true with
    | .error _ =>
      { node with inFlight := .response applicationId sender queryId records accepted :: rest }
    | .ok () =>
      let ingest := ingestRecord prim ans applicationId record sender false 1 node.state
      let accepted := match ingest.result with
        | .ok _ => accepted + 1
        | .error _ => accepted
      node.after ingest (.response applicationId sender queryId records accepted :: rest)

def perform (node : Node Digest Score) : Operation → Node Digest Score
  | .activateApplication applicationId =>
    match validateApplicationId applicationId with
    | .error _ => node
    | .ok () =>
      { node with
        state := node.state.setApp applicationId (node.state.app applicationId) }
  | .publish applicationId request =>
    node.after (publish prim mainDht ans applicationId request node.state) node.inFlight
  | .publishSystemRecord applicationId record =>
    node.after (publishSystemRecord prim mainDht ans applicationId record node.state)
      node.inFlight
  | .withdraw applicationId key requestedGeneration allowReserved =>
    match withdrawnRecord mainDht ans applicationId key requestedGeneration allowReserved
      node.state with
    | .error _ => node
    | .ok record =>
      { node with
        inFlight := node.inFlight ++ [.withdrawal applicationId record allowReserved] }
  | .confirm applicationId key generation level matchesAuthoritative =>
    node.after (confirm prim ans applicationId key generation level matchesAuthoritative
      node.state) node.inFlight
  | .searchLocal applicationId query =>
    node.after (searchLocal prim ans applicationId query 0 node.state) node.inFlight
  | .listRecent applicationId «namespace» limit =>
    node.after (listRecent prim ans applicationId «namespace» limit node.state) node.inFlight
  | .incoming applicationId sender payload =>
    processIncoming prim ans applicationId sender payload node
  | .proceed index =>
    match node.inFlight[index]? with
    | none => node
    | some flight => proceed prim mainDht ans flight (node.inFlight.eraseIdx index) node
  | .pruneExpired => { node with state := pruneState (ans.clock 0) node.state }

end Perform

/-- The runs of a manager that starts without applications. -/
def gossipSystem (prim : Primitives Digest Score) (mainDht : String) :
    LabelledSystem (Node Digest Score) (Operation × Answers Digest) where
  initial node := node = .new Digest Score
  step node label node' := node' = perform prim mainDht label.2 node label.1

end VeilKnit.Gossip
