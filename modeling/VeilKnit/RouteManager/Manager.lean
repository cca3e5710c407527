import Mathlib.Algebra.Group.Nat.Defs
import Mathlib.Data.List.Basic

/-!
# The route manager's actor

The route manager keeps one private route published. It is a single task that
receives messages in order; publication runs in a separate worker and comes back
as a message. This module embeds the task's state, its message handler and the
worker's decision on the outcomes of its two network calls.

Nodes, DHT modules and route ids are opaque: the manager stores them, hands them
to workers and compares route ids for equality.
-/

namespace VeilKnit.RouteManager

/-- What the manager still waits for. -/
inductive Readiness
  | waitingForNode
  | waitingForDht
  | ready
  deriving DecidableEq, Repr

/-- Whether a publication worker is out. -/
inductive PublishState
  | idle
  | publishing
  deriving DecidableEq, Repr

variable {Node DhtModule RouteId : Type*}

/-- The snapshot handed to callers. -/
structure RouteManagerStatus (RouteId : Type*) where
  readiness : Readiness
  publishState : PublishState
  activeRouteId : Option RouteId
  deriving DecidableEq, Repr

/-- The answer when the task is gone. -/
def RouteManagerStatus.unknown : RouteManagerStatus RouteId where
  readiness := .waitingForNode
  publishState := .idle
  activeRouteId := none

/-- Messages of the task's channel. -/
inductive RouteManagerMsg (Node DhtModule RouteId : Type*)
  | setNode (node : Node)
  | setDht (dhtModule : DhtModule) (dhtPackage : Nat)
  | routeChange (deadRoutes : List RouteId)
  | getStatus
  | publishFinished (generation : UInt64) (result : Except String RouteId)
  | retryPublish
  deriving DecidableEq

/-- Whether the message is a notification that names the route. -/
def RouteManagerMsg.names [DecidableEq RouteId] (r : RouteId) :
    RouteManagerMsg Node DhtModule RouteId → Bool
  | .routeChange deadRoutes => r ∈ deadRoutes
  | _ => false

/-- The task's private state. -/
structure Inner (Node DhtModule RouteId : Type*) where
  readiness : Readiness
  publishState : PublishState
  node : Option Node
  dhtModule : Option DhtModule
  dhtPackage : Option Nat
  activeRouteId : Option RouteId
  pendingRouteLoss : Bool
  publishGeneration : UInt64
  retryAttempt : Nat
  deriving DecidableEq

/-- What handling a message asks of the rest of the process. -/
inductive Effect (Node DhtModule RouteId : Type*)
  | spawnPublish (generation : UInt64) (node : Node) (dhtModule : DhtModule) (dhtPackage : Nat)
  | retryAfter (seconds : Nat)
  | releasePrivateRoute (node : Node) (route : RouteId)
  | reply (status : RouteManagerStatus RouteId)
  deriving DecidableEq

namespace Inner

/-- The state of a freshly spawned task. -/
def new : Inner Node DhtModule RouteId where
  readiness := .waitingForNode
  publishState := .idle
  node := none
  dhtModule := none
  dhtPackage := none
  activeRouteId := none
  pendingRouteLoss := false
  publishGeneration := 0
  retryAttempt := 0

/-- Recompute `readiness` from the three inputs. -/
def refreshReadiness (inner : Inner Node DhtModule RouteId) : Inner Node DhtModule RouteId :=
  { inner with
    readiness :=
      match inner.node, inner.dhtModule, inner.dhtPackage with
      | none, _, _ => .waitingForNode
      | some _, none, _ => .waitingForDht
      | some _, _, none => .waitingForDht
      | some _, some _, some _ => .ready }

def canPublish (inner : Inner Node DhtModule RouteId) : Bool :=
  inner.readiness == .ready && inner.publishState == .idle && inner.activeRouteId.isNone

def status (inner : Inner Node DhtModule RouteId) : RouteManagerStatus RouteId where
  readiness := inner.readiness
  publishState := inner.publishState
  activeRouteId := inner.activeRouteId

end Inner

/-- `retry_attempt` is a `u32` that saturates. -/
def saturatingSucc (attempt : Nat) : Nat :=
  min (attempt + 1) (2 ^ 32 - 1)

def routeRetryMaxSecs : Nat := 60

/-- Seconds until the next attempt: exponential in the number of failures, plus a
jitter of at most a fifth, capped. `random` is the draw of the generator. -/
def retryDelay (attempt : Nat) (random : UInt64) : Nat :=
  let exponent := min attempt 5
  let base := min (2 ^ exponent) routeRetryMaxSecs
  let jitterWindow := max (base / 5) 1
  let jitter := random.toNat % (jitterWindow + 1)
  min (base + jitter) routeRetryMaxSecs

/-- Spawn a publication worker if nothing prevents it. -/
def startPublish (inner : Inner Node DhtModule RouteId) :
    Inner Node DhtModule RouteId × List (Effect Node DhtModule RouteId) :=
  if inner.canPublish then
    match inner.node, inner.dhtModule, inner.dhtPackage with
    | some node, some dhtModule, some dhtPackage =>
      let generation := inner.publishGeneration + 1
      ({ inner with publishState := .publishing, publishGeneration := generation },
        [.spawnPublish generation node dhtModule dhtPackage])
    | _, _, _ => (inner, [])
  else (inner, [])

/-- Ask for a retry after the back-off, if the inputs are still there. -/
def schedulePublishRetry (inner : Inner Node DhtModule RouteId) (random : UInt64) :
    List (Effect Node DhtModule RouteId) :=
  if inner.readiness = .ready then [.retryAfter (retryDelay inner.retryAttempt random)] else []

/-- Release a route through the node, when there is one. -/
def releaseRoute (inner : Inner Node DhtModule RouteId) (route : RouteId) :
    List (Effect Node DhtModule RouteId) :=
  match inner.node with
  | some node => [.releasePrivateRoute node route]
  | none => []

/-- A notification of dead routes. Only a held route reacts to it. -/
def handleRouteChange [DecidableEq RouteId] (inner : Inner Node DhtModule RouteId)
    (deadRoutes : List RouteId) :
    Inner Node DhtModule RouteId × List (Effect Node DhtModule RouteId) :=
  if deadRoutes.isEmpty then (inner, [])
  else
    let isDead := inner.activeRouteId.any fun id => decide (id ∈ deadRoutes)
    if !isDead then (inner, [])
    else
      let inner := { inner with activeRouteId := none }
      if inner.publishState = .publishing then
        ({ inner with pendingRouteLoss := true }, [])
      else startPublish inner

/-- The worker's result. A result of another generation is only cleaned up. -/
def finishPublish (inner : Inner Node DhtModule RouteId) (random : UInt64)
    (generation : UInt64) (result : Except String RouteId) :
    Inner Node DhtModule RouteId × List (Effect Node DhtModule RouteId) :=
  if generation ≠ inner.publishGeneration then
    match result with
    | .ok routeId => (inner, releaseRoute inner routeId)
    | .error _ => (inner, [])
  else
    let inner := { inner with publishState := .idle }
    match result with
    | .ok routeId =>
      let inner := { inner with activeRouteId := some routeId, retryAttempt := 0 }
      if inner.pendingRouteLoss then
        let inner := { inner with pendingRouteLoss := false, activeRouteId := none }
        let released := releaseRoute inner routeId
        let (inner, started) := startPublish inner
        (inner, released ++ started)
      else (inner, [])
    | .error _ =>
      let inner :=
        { inner with activeRouteId := none, retryAttempt := saturatingSucc inner.retryAttempt }
      (inner, schedulePublishRetry inner random)

/-- One turn of the task's loop. -/
def handle [DecidableEq RouteId] (inner : Inner Node DhtModule RouteId) (random : UInt64) :
    RouteManagerMsg Node DhtModule RouteId →
      Inner Node DhtModule RouteId × List (Effect Node DhtModule RouteId)
  | .setNode node => startPublish { inner with node := some node }.refreshReadiness
  | .setDht dhtModule dhtPackage =>
    startPublish
      { inner with dhtModule := some dhtModule, dhtPackage := some dhtPackage }.refreshReadiness
  | .routeChange deadRoutes => handleRouteChange inner deadRoutes
  | .getStatus => (inner, [.reply inner.status])
  | .publishFinished generation result => finishPublish inner random generation result
  | .retryPublish => if inner.activeRouteId.isNone then startPublish inner else (inner, [])

/-! ## The publication worker -/

/-- The outcome of `new_private_route` under the publication timeout. -/
inductive RouteCreation (RouteId : Type*)
  | timedOut
  | failed (error : String)
  | created (routeId : RouteId)
  deriving DecidableEq

/-- How publishing the new route's blob ended. -/
inductive BlobWrite
  | serializeFailed (error : String)
  | deadlinePassed
  | written
  | writeFailed (error : String)
  | joinFailed (error : String)
  | timedOut
  deriving DecidableEq

/-- When the worker's route is released again. -/
inductive Release
  | never
  | now
  | afterQueuedWrite
  deriving DecidableEq

/-- The first half of `create_and_publish_route`: the new route's id, or the error. -/
def creationResult : RouteCreation RouteId → Except String RouteId
  | .timedOut => .error "new_private_route timed out"
  | .failed error => .error s!"new_private_route failed: {error}"
  | .created routeId => .ok routeId

/-- The worker's result once the route exists, and what becomes of the route. A
write that timed out is still queued, so its route is kept until the write ends. -/
def publicationResult (routeId : RouteId) : BlobWrite → Except String RouteId × Release
  | .serializeFailed error => (.error s!"failed to serialize RouteBlobRecord: {error}", .now)
  | .deadlinePassed => (.error "route publication exceeded 15-second deadline", .now)
  | .written => (.ok routeId, .never)
  | .writeFailed error => (.error s!"DHT write failed: {error}", .now)
  | .joinFailed error => (.error s!"DHT route publication worker failed: {error}", .now)
  | .timedOut =>
    (.error ("DHT route publication timed out; " ++
      "cleanup will run when the queued write finishes"), .afterQueuedWrite)

/-! ## What one message does -/

/-- Starting a publication does nothing, or moves an idle manager without a route
to the next generation and spawns its worker. -/
theorem startPublish_cases (inner : Inner Node DhtModule RouteId) :
    startPublish inner = (inner, []) ∨ ∃ node dhtModule dhtPackage,
        inner.publishState = .idle ∧ inner.activeRouteId = none ∧
        startPublish inner =
          ({ inner with
              publishState := .publishing, publishGeneration := inner.publishGeneration + 1 },
            [.spawnPublish (inner.publishGeneration + 1) node dhtModule dhtPackage]) := by
  unfold startPublish
  split
  case isFalse => exact .inl rfl
  case isTrue hcan =>
    split
    case h_2 => exact .inl rfl
    case h_1 node dhtModule dhtPackage _ _ _ =>
      simp only [Inner.canPublish, Bool.and_eq_true, beq_iff_eq, Option.isNone_iff_eq_none] at hcan
      exact .inr ⟨node, dhtModule, dhtPackage, hcan.1.2, hcan.2, rfl⟩

@[simp]
theorem startPublish_activeRouteId (inner : Inner Node DhtModule RouteId) :
    (startPublish inner).1.activeRouteId = inner.activeRouteId := by
  obtain h | ⟨_, _, _, _, _, h⟩ := startPublish_cases inner <;> rw [h]

section Notification

variable [DecidableEq RouteId] {inner : Inner Node DhtModule RouteId} {deadRoutes : List RouteId}

/-- A notification leaves the manager alone unless it names the held route. -/
theorem handleRouteChange_of_not_held (h : ∀ r ∈ deadRoutes, inner.activeRouteId ≠ some r) :
    handleRouteChange inner deadRoutes = (inner, []) := by
  unfold handleRouteChange
  split
  · rfl
  · have hdead : (inner.activeRouteId.any fun id => decide (id ∈ deadRoutes)) = false := by
      cases hactive : inner.activeRouteId with
      | none => rfl
      | some r => simpa using fun hmem : r ∈ deadRoutes => h r hmem hactive
    simp [hdead]

variable {r : RouteId}

/-- A notification that names the held route drops it. -/
theorem handleRouteChange_of_held (hactive : inner.activeRouteId = some r) (hmem : r ∈ deadRoutes) :
    handleRouteChange inner deadRoutes =
      if inner.publishState = .publishing then
        ({ inner with activeRouteId := none, pendingRouteLoss := true }, [])
      else startPublish { inner with activeRouteId := none } := by
  have hne : deadRoutes.isEmpty = false := by
    cases deadRoutes with
    | nil => cases hmem
    | cons => rfl
  simp [handleRouteChange, hne, hactive, hmem]

theorem handleRouteChange_activeRouteId
    (h : (handleRouteChange inner deadRoutes).1.activeRouteId = some r) :
    inner.activeRouteId = some r ∧ r ∉ deadRoutes := by
  by_cases hheld : ∃ dead ∈ deadRoutes, inner.activeRouteId = some dead
  · obtain ⟨dead, hmem, hactive⟩ := hheld
    rw [handleRouteChange_of_held hactive hmem] at h
    split at h
    · cases h
    · simp at h
  · push Not at hheld
    rw [handleRouteChange_of_not_held hheld] at h
    exact ⟨h, fun hmem => hheld r hmem h⟩

/-- A route the task holds after a message it held before and the message does not
name it, or the message hands it over as published. -/
theorem handle_activeRouteId {random : UInt64} {msg : RouteManagerMsg Node DhtModule RouteId}
    (h : (handle inner random msg).1.activeRouteId = some r) :
    (inner.activeRouteId = some r ∧ msg.names r = false) ∨
      ∃ generation, msg = .publishFinished generation (.ok r) := by
  cases msg with
  | setNode node => exact .inl ⟨by simpa [handle, Inner.refreshReadiness] using h, rfl⟩
  | setDht dhtModule dhtPackage =>
    exact .inl ⟨by simpa [handle, Inner.refreshReadiness] using h, rfl⟩
  | routeChange deadRoutes =>
    obtain ⟨hactive, hmem⟩ := handleRouteChange_activeRouteId h
    exact .inl ⟨hactive, by simpa [RouteManagerMsg.names] using hmem⟩
  | getStatus => exact .inl ⟨h, rfl⟩
  | retryPublish =>
    refine .inl ⟨?_, rfl⟩
    simp only [handle] at h
    split at h
    · simpa using h
    · exact h
  | publishFinished generation result =>
    simp only [handle, finishPublish] at h
    cases result with
    | error error =>
      split at h
      · exact .inl ⟨h, rfl⟩
      · cases h
    | ok routeId =>
      split at h
      · exact .inl ⟨h, rfl⟩
      · dsimp only at h
        split at h
        · simp at h
        · cases h
          exact .inr ⟨generation, rfl⟩

end Notification

end VeilKnit.RouteManager
