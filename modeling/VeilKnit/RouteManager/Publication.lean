import VeilKnit.Library.LabelledSystem
import VeilKnit.RouteManager.Manager

/-!
# Publication runs

The route manager as a system: the task with its message queue, the publication
workers it has spawned, its retry timers, and the network, which creates routes,
completes writes and reports dead routes at any moment.

The state also records which routes exist and which of them have been reported
dead since they were created. Route ids are fresh: the network never creates a
route under an id it used before.

A route that is reported while it is being published is not noticed: the manager
compares the notification with the route it holds, and during a publication it
holds none. `pendingRouteLoss`, which should cover this window, is never set.
`reported_route_not_held` says when the manager still ends without a dead route,
and `route_lost_during_publication_is_adopted` is a run in which it does not.
-/

namespace VeilKnit.RouteManager

open Library

variable {Node DhtModule RouteId : Type*}

/-- A publication worker; `route` is the route it has created. -/
structure Worker (Node DhtModule RouteId : Type*) where
  generation : UInt64
  node : Node
  dhtModule : DhtModule
  dhtPackage : Nat
  route : Option RouteId
  deriving DecidableEq

/-- The task, what is in flight around it, and the history of routes. -/
structure ManagerSystem (Node DhtModule RouteId : Type*) where
  inner : Inner Node DhtModule RouteId
  queue : List (RouteManagerMsg Node DhtModule RouteId)
  workers : List (Worker Node DhtModule RouteId)
  retries : List Nat
  queuedWrites : List RouteId
  released : List RouteId
  created : List RouteId
  reported : List RouteId
  deriving DecidableEq

/-- What may happen next. Positions select a worker, timer or queued write. -/
inductive Event (Node DhtModule RouteId : Type*)
  | setNode (node : Node)
  | setDht (dhtModule : DhtModule) (dhtPackage : Nat)
  | getStatus
  | routesDied (deadRoutes : List RouteId)
  | routeCreation (position : Nat) (outcome : RouteCreation RouteId)
  | blobWrite (position : Nat) (outcome : BlobWrite)
  | queuedWriteEnds (position : Nat)
  | retryDue (position : Nat)
  | receive (random : UInt64)
  deriving DecidableEq

namespace ManagerSystem

/-- A fresh task in a fresh process. -/
def start : ManagerSystem Node DhtModule RouteId where
  inner := .new
  queue := []
  workers := []
  retries := []
  queuedWrites := []
  released := []
  created := []
  reported := []

def enqueue (s : ManagerSystem Node DhtModule RouteId)
    (msg : RouteManagerMsg Node DhtModule RouteId) : ManagerSystem Node DhtModule RouteId :=
  { s with queue := s.queue ++ [msg] }

/-- Carry out one effect of the handler. -/
def perform (s : ManagerSystem Node DhtModule RouteId) :
    Effect Node DhtModule RouteId → ManagerSystem Node DhtModule RouteId
  | .spawnPublish generation node dhtModule dhtPackage =>
    { s with workers := s.workers ++ [⟨generation, node, dhtModule, dhtPackage, none⟩] }
  | .retryAfter seconds => { s with retries := s.retries ++ [seconds] }
  | .releasePrivateRoute _ route => { s with released := s.released ++ [route] }
  | .reply _ => s

/-- A worker ends and sends its result. -/
def finish (s : ManagerSystem Node DhtModule RouteId) (position : Nat) (generation : UInt64)
    (result : Except String RouteId) : ManagerSystem Node DhtModule RouteId :=
  { s with workers := s.workers.eraseIdx position }.enqueue (.publishFinished generation result)

/-- What becomes of the route of a finished worker. -/
def settle (s : ManagerSystem Node DhtModule RouteId) (routeId : RouteId) :
    Release → ManagerSystem Node DhtModule RouteId
  | .never => s
  | .now => { s with released := s.released ++ [routeId] }
  | .afterQueuedWrite => { s with queuedWrites := s.queuedWrites ++ [routeId] }

variable [DecidableEq RouteId]

/-- The state after an event, if the event can happen. -/
def next (s : ManagerSystem Node DhtModule RouteId) :
    Event Node DhtModule RouteId → Option (ManagerSystem Node DhtModule RouteId)
  | .setNode node => some (s.enqueue (.setNode node))
  | .setDht dhtModule dhtPackage => some (s.enqueue (.setDht dhtModule dhtPackage))
  | .getStatus => some (s.enqueue .getStatus)
  | .routesDied deadRoutes =>
    some { s.enqueue (.routeChange deadRoutes) with
      reported := s.reported ++ deadRoutes.filter (· ∈ s.created) }
  | .routeCreation position outcome =>
    match s.workers[position]? with
    | some ⟨generation, node, dhtModule, dhtPackage, none⟩ =>
      match creationResult outcome with
      | .ok routeId =>
        if routeId ∈ s.created then none
        else
          some { s with
            workers :=
              s.workers.set position ⟨generation, node, dhtModule, dhtPackage, some routeId⟩
            created := s.created ++ [routeId] }
      | .error error => some (s.finish position generation (.error error))
    | _ => none
  | .blobWrite position outcome =>
    match s.workers[position]? with
    | some ⟨generation, _, _, _, some routeId⟩ =>
      let (result, release) := publicationResult routeId outcome
      some ((s.finish position generation result).settle routeId release)
    | _ => none
  | .queuedWriteEnds position =>
    match s.queuedWrites[position]? with
    | some routeId =>
      some { s with
        queuedWrites := s.queuedWrites.eraseIdx position
        released := s.released ++ [routeId] }
    | none => none
  | .retryDue position =>
    if position < s.retries.length then
      some ({ s with retries := s.retries.eraseIdx position }.enqueue .retryPublish)
    else none
  | .receive random =>
    match s.queue with
    | [] => none
    | msg :: queue =>
      let (inner, effects) := handle s.inner random msg
      some (effects.foldl perform { s with inner, queue })

/-- No worker is out and no message waits. -/
def NoWorkInFlight (s : ManagerSystem Node DhtModule RouteId) : Prop :=
  s.workers = [] ∧ s.queue = []

/-- Some waiting notification names the route. -/
def ReportQueued (s : ManagerSystem Node DhtModule RouteId) (r : RouteId) : Prop :=
  ∃ msg ∈ s.queue, msg.names r

instance (s : ManagerSystem Node DhtModule RouteId) (r : RouteId) : Decidable (s.ReportQueued r) :=
  inferInstanceAs (Decidable (∃ msg ∈ s.queue, msg.names r))

/-- The route that the event would hand to the task as published. -/
def offered (s : ManagerSystem Node DhtModule RouteId) :
    Event Node DhtModule RouteId → Option RouteId
  | .receive _ =>
    match s.queue with
    | .publishFinished _ (.ok routeId) :: _ => some routeId
    | _ => none
  | _ => none

/-- The task is not handed a route whose death it has already been told of and
has no notification left to learn it from. -/
def NoForgottenReport (s : ManagerSystem Node DhtModule RouteId)
    (event : Event Node DhtModule RouteId) : Prop :=
  ∀ r ∈ s.reported, s.offered event = some r → s.ReportQueued r

instance (s : ManagerSystem Node DhtModule RouteId) (event : Event Node DhtModule RouteId) :
    Decidable (s.NoForgottenReport event) :=
  inferInstanceAs (Decidable (∀ r ∈ s.reported, s.offered event = some r → s.ReportQueued r))

/-- A dead route is held only while a notification of its death waits. -/
def DeadRouteReported (s : ManagerSystem Node DhtModule RouteId) : Prop :=
  ∀ r ∈ s.reported, s.inner.activeRouteId = some r → s.ReportQueued r

/-! ## Steps -/

section Steps

variable {s t : ManagerSystem Node DhtModule RouteId}

section

omit [DecidableEq RouteId]

@[simp]
theorem foldl_perform_inner (effects : List (Effect Node DhtModule RouteId)) :
    (effects.foldl perform s).inner = s.inner := by
  induction effects generalizing s with
  | nil => rfl
  | cons effect effects ih => rw [List.foldl_cons, ih]; cases effect <;> rfl

@[simp]
theorem foldl_perform_queue (effects : List (Effect Node DhtModule RouteId)) :
    (effects.foldl perform s).queue = s.queue := by
  induction effects generalizing s with
  | nil => rfl
  | cons effect effects ih => rw [List.foldl_cons, ih]; cases effect <;> rfl

@[simp]
theorem foldl_perform_reported (effects : List (Effect Node DhtModule RouteId)) :
    (effects.foldl perform s).reported = s.reported := by
  induction effects generalizing s with
  | nil => rfl
  | cons effect effects ih => rw [List.foldl_cons, ih]; cases effect <;> rfl

end

/-- Receiving takes the head of the queue and runs the handler on it. -/
theorem next_receive {random : UInt64} (h : s.next (.receive random) = some t) :
    ∃ msg queue, s.queue = msg :: queue ∧ t = (handle s.inner random msg).2.foldl perform
        { s with inner := (handle s.inner random msg).1, queue } := by
  cases hqueue : s.queue with
  | nil => simp [next, hqueue] at h
  | cons msg queue =>
    simp only [next, hqueue, Option.some.injEq] at h
    exact ⟨msg, queue, rfl, h.symm⟩

section

omit [DecidableEq RouteId]

@[simp]
theorem settle_inner (routeId : RouteId) (release : Release) :
    (s.settle routeId release).inner = s.inner := by
  cases release <;> rfl

@[simp]
theorem settle_queue (routeId : RouteId) (release : Release) :
    (s.settle routeId release).queue = s.queue := by
  cases release <;> rfl

@[simp]
theorem settle_reported (routeId : RouteId) (release : Release) :
    (s.settle routeId release).reported = s.reported := by
  cases release <;> rfl

end

/-- Every other event leaves the task alone, sends it messages, and reports only
routes that one of these messages names. -/
theorem next_other {event : Event Node DhtModule RouteId}
    (hother : ∀ random, event ≠ .receive random)
    (h : s.next event = some t) :
    t.inner = s.inner ∧ ∃ sent, t.queue = s.queue ++ sent ∧
        ∀ r ∈ t.reported, r ∈ s.reported ∨ ∃ msg ∈ sent, msg.names r := by
  cases event with
  | receive random => exact absurd rfl (hother random)
  | setNode node =>
    cases h
    exact ⟨rfl, _, rfl, fun r hr => .inl hr⟩
  | setDht dhtModule dhtPackage =>
    cases h
    exact ⟨rfl, _, rfl, fun r hr => .inl hr⟩
  | getStatus =>
    cases h
    exact ⟨rfl, _, rfl, fun r hr => .inl hr⟩
  | routesDied deadRoutes =>
    cases h
    refine ⟨rfl, _, rfl, fun r hr => ?_⟩
    rcases List.mem_append.mp hr with hr | hr
    · exact .inl hr
    · exact .inr ⟨_, List.mem_singleton_self _, by
        simpa [RouteManagerMsg.names] using (List.mem_filter.mp hr).1⟩
  | routeCreation position outcome =>
    simp only [next] at h
    split at h
    · split at h
      · split at h
        · cases h
        · cases h
          exact ⟨rfl, [], (List.append_nil _).symm, fun r hr => .inl hr⟩
      · cases h
        exact ⟨rfl, _, rfl, fun r hr => .inl hr⟩
    · cases h
  | blobWrite position outcome =>
    simp only [next] at h
    split at h
    · cases h
      refine ⟨by simp [finish, enqueue], _, by simp [finish, enqueue]; rfl, fun r hr => .inl ?_⟩
      simpa [finish, enqueue] using hr
    · cases h
  | queuedWriteEnds position =>
    simp only [next] at h
    split at h
    · cases h
      exact ⟨rfl, [], (List.append_nil _).symm, fun r hr => .inl hr⟩
    · cases h
  | retryDue position =>
    simp only [next] at h
    split at h
    · cases h
      exact ⟨rfl, _, rfl, fun r hr => .inl hr⟩
    · cases h

end Steps

/-- The route manager from a fresh process. -/
def system : LabelledSystem (ManagerSystem Node DhtModule RouteId)
    (Event Node DhtModule RouteId) :=
  .ofFunction start next

/-! ## Dead routes -/

section DeadRoutes

variable {s t : ManagerSystem Node DhtModule RouteId}

/-- A step that is not handed a forgotten route keeps dead routes reported. -/
theorem deadRouteReported_next {event : Event Node DhtModule RouteId}
    (hreported : s.DeadRouteReported) (hguard : s.NoForgottenReport event)
    (hstep : s.next event = some t) : t.DeadRouteReported := by
  intro r hr hactive
  by_cases hother : ∀ random, event ≠ .receive random
  · obtain ⟨hinner, sent, hqueue, hsent⟩ := next_other hother hstep
    rw [ReportQueued, hqueue]
    rw [hinner] at hactive
    rcases hsent r hr with hold | ⟨msg, hmsg, hnames⟩
    · obtain ⟨msg, hmsg, hnames⟩ := hreported r hold hactive
      exact ⟨msg, List.mem_append_left _ hmsg, hnames⟩
    · exact ⟨msg, List.mem_append_right _ hmsg, hnames⟩
  push Not at hother
  obtain ⟨random, rfl⟩ := hother
  obtain ⟨msg, queue, hqueue, rfl⟩ := next_receive hstep
  simp only [foldl_perform_inner] at hactive
  simp only [foldl_perform_reported] at hr
  rw [ReportQueued, foldl_perform_queue]
  -- The notification that names `r` is still behind the message just taken.
  have hwaits : s.ReportQueued r ∧ msg.names r = false := by
    rcases handle_activeRouteId hactive with ⟨hheld, hnames⟩ | ⟨generation, rfl⟩
    · exact ⟨hreported r hr hheld, hnames⟩
    · exact ⟨hguard r hr (by simp [offered, hqueue]), rfl⟩
  obtain ⟨⟨report, hmem, hnames⟩, hmsg⟩ := hwaits
  rw [hqueue] at hmem
  rcases List.mem_cons.mp hmem with rfl | hmem
  · rw [hmsg] at hnames
    cases hnames
  · exact ⟨report, hmem, hnames⟩

theorem deadRouteReported_invariant : LabelledSystem.Invariant
      ((system : LabelledSystem (ManagerSystem Node DhtModule RouteId)
        (Event Node DhtModule RouteId)).restrict NoForgottenReport)
      DeadRouteReported where
  initially := by
    rintro _ rfl r hr
    cases hr
  preserved _ _ _ hreported hstep := deadRouteReported_next hreported hstep.1 hstep.2

/-- In every run that never hands the task a forgotten route, no dead route is
held once the work in flight is done. -/
theorem reported_route_not_held
    (reached : (system.restrict NoForgottenReport).Reachable s) (quiet : s.NoWorkInFlight) :
    ∀ r ∈ s.reported, s.inner.activeRouteId ≠ some r := by
  intro r hr hactive
  obtain ⟨msg, hmem, _⟩ := deadRouteReported_invariant.holds reached r hr hactive
  rw [quiet.2] at hmem
  cases hmem

/-- Route 1 is published, dies, and route 2 takes its place. -/
def replacementRun : List (Event Unit Unit Nat) :=
  [.setNode (), .setDht () 0, .receive 0, .receive 0,
    .routeCreation 0 (.created 1), .blobWrite 0 .written, .receive 0,
    .routesDied [1], .receive 0,
    .routeCreation 0 (.created 2), .blobWrite 0 .written, .receive 0]

theorem reported_route_not_held_replacement :
    ∃ s : ManagerSystem Unit Unit Nat, s.reported = [1] ∧ s.inner.activeRouteId = some 2 ∧
      s.NoWorkInFlight ∧ ∀ r ∈ s.reported, s.inner.activeRouteId ≠ some r := by
  obtain ⟨s, hrun⟩ : ∃ s, LabelledSystem.runWithin next NoForgottenReport start
      replacementRun = some s := ⟨_, rfl⟩
  have reached : (system.restrict NoForgottenReport).Reachable s :=
    LabelledSystem.Reachable.runWithin (.start rfl) hrun
  have hend : s.reported = [1] ∧ s.inner.activeRouteId = some 2 ∧ s.workers = [] ∧
      s.queue = [] := by
    cases hrun
    decide
  have quiet : s.NoWorkInFlight := ⟨hend.2.2.1, hend.2.2.2⟩
  exact ⟨s, hend.1, hend.2.1, quiet, reported_route_not_held reached quiet⟩

/-- Route 1 dies after it was created and before its publication completes. -/
def lostDuringPublicationRun : List (Event Unit Unit Nat) :=
  [.setNode (), .setDht () 0, .receive 0, .receive 0,
    .routeCreation 0 (.created 1), .routesDied [1], .receive 0,
    .blobWrite 0 .written, .receive 0]

/-- The manager adopts the route it was told is dead. -/
theorem route_lost_during_publication_is_adopted :
    ¬ ∀ s : ManagerSystem Unit Unit Nat, system.Reachable s → s.NoWorkInFlight →
        ∀ r ∈ s.reported, s.inner.activeRouteId ≠ some r := by
  intro hclaim
  obtain ⟨s, hrun⟩ : ∃ s, LabelledSystem.run next start lostDuringPublicationRun = some s :=
    ⟨_, rfl⟩
  have reached : system.Reachable s := LabelledSystem.Reachable.run (.start rfl) hrun
  have hend : 1 ∈ s.reported ∧ s.inner.activeRouteId = some 1 ∧ s.workers = [] ∧ s.queue = [] := by
    cases hrun
    decide
  exact hclaim s reached ⟨hend.2.2.1, hend.2.2.2⟩ 1 hend.1 hend.2.1

end DeadRoutes

end ManagerSystem
end VeilKnit.RouteManager
