import VeilKnit.RouteManager.Publication

/-!
# Which package a route is published in

The manager is told the package that the blob of its current route belongs in. It writes the blob
once, when it creates the route, so a package named later gets no blob until the route is
replaced.
-/

namespace VeilKnit.RouteManager

open Library

variable {Node DhtModule RouteId : Type*}

/-- The manager and the blobs that were written: each route with the module and the package. -/
structure Publications (Node DhtModule RouteId : Type*) where
  manager : ManagerSystem Node DhtModule RouteId
  written : List (RouteId × DhtModule × Nat)
  deriving DecidableEq

namespace Publications

def start : Publications Node DhtModule RouteId := ⟨.start, []⟩

/-- The blob that an event writes. -/
def blobWritten (s : ManagerSystem Node DhtModule RouteId) :
    Event Node DhtModule RouteId → List (RouteId × DhtModule × Nat)
  | .blobWrite position .written =>
    match s.workers[position]? with
    | some ⟨_, _, dhtModule, dhtPackage, some routeId⟩ => [(routeId, dhtModule, dhtPackage)]
    | _ => []
  | _ => []

variable [DecidableEq RouteId]

def next (s : Publications Node DhtModule RouteId) (event : Event Node DhtModule RouteId) :
    Option (Publications Node DhtModule RouteId) :=
  (s.manager.next event).map fun manager => ⟨manager, s.written ++ blobWritten s.manager event⟩

/-- The route manager from a fresh process, with what it writes. -/
def system : LabelledSystem (Publications Node DhtModule RouteId) (Event Node DhtModule RouteId) :=
  .ofFunction start next

/-- The module and the package that the manager was told last. -/
def current (s : Publications Node DhtModule RouteId) : Option DhtModule × Option Nat :=
  (s.manager.inner.dhtModule, s.manager.inner.dhtPackage)

/-- The blob of a route is in the current package. -/
def PublishedInCurrent (s : Publications Node DhtModule RouteId) (r : RouteId) : Prop :=
  ∃ dhtModule dhtPackage, s.current = (some dhtModule, some dhtPackage) ∧
    (r, dhtModule, dhtPackage) ∈ s.written

/-- A message does not hand a package other than the current one to a manager that holds a route,
nor end a publication in a package other than the current one. -/
def Accepts (s : Publications Node DhtModule RouteId) :
    RouteManagerMsg Node DhtModule RouteId → Prop
  | .setDht dhtModule dhtPackage =>
    s.manager.inner.activeRouteId = none ∨ s.current = (some dhtModule, some dhtPackage)
  | .publishFinished _ (.ok r) =>
    ∀ blob ∈ s.written, blob.1 = r → s.current = (some blob.2.1, some blob.2.2)
  | _ => True

instance decidableAccepts [DecidableEq DhtModule] (s : Publications Node DhtModule RouteId) :
    ∀ msg, Decidable (s.Accepts msg)
  | .setNode _ => isTrue trivial
  | .setDht _ _ => inferInstanceAs (Decidable (_ ∨ _))
  | .routeChange _ => isTrue trivial
  | .getStatus => isTrue trivial
  | .publishFinished _ (.ok r) => inferInstanceAs (Decidable (∀ blob ∈ s.written, blob.1 = r → _))
  | .publishFinished _ (.error _) => isTrue trivial
  | .retryPublish => isTrue trivial

/-- The package does not change under a route or under a publication that succeeds. -/
def KeepsPackage (s : Publications Node DhtModule RouteId) :
    Event Node DhtModule RouteId → Prop
  | .receive _ => ∀ msg ∈ s.manager.queue.take 1, s.Accepts msg
  | _ => True

instance decidableKeepsPackage [DecidableEq DhtModule]
    (s : Publications Node DhtModule RouteId) : ∀ event, Decidable (s.KeepsPackage event)
  | .receive _ => inferInstanceAs (Decidable (∀ msg ∈ s.manager.queue.take 1, s.Accepts msg))
  | .setNode _ => isTrue trivial
  | .setDht _ _ => isTrue trivial
  | .getStatus => isTrue trivial
  | .routesDied _ => isTrue trivial
  | .routeCreation _ _ => isTrue trivial
  | .blobWrite _ _ => isTrue trivial
  | .queuedWriteEnds _ => isTrue trivial
  | .retryDue _ => isTrue trivial

/-- What holds of the manager between events: the blob of a route that it holds is in the current
package, and the blob of a route that it is about to be handed has been written. -/
structure Published (s : Publications Node DhtModule RouteId) : Prop where
  held : ∀ r, s.manager.inner.activeRouteId = some r → s.PublishedInCurrent r
  offered : ∀ generation r, .publishFinished generation (.ok r) ∈ s.manager.queue →
    ∃ dhtModule dhtPackage, (r, dhtModule, dhtPackage) ∈ s.written

/-! ## Steps -/

section Steps

variable {s t : Publications Node DhtModule RouteId} {inner : Inner Node DhtModule RouteId}

omit [DecidableEq RouteId] in
@[simp]
theorem startPublish_package (inner : Inner Node DhtModule RouteId) :
    (startPublish inner).1.dhtModule = inner.dhtModule ∧
      (startPublish inner).1.dhtPackage = inner.dhtPackage := by
  obtain h | ⟨_, _, _, _, _, h⟩ := startPublish_cases inner <;> rw [h] <;> exact ⟨rfl, rfl⟩

variable {random : UInt64}

/-- Only a new package changes the package. -/
theorem handle_package {msg : RouteManagerMsg Node DhtModule RouteId}
    (h : ∀ dhtModule dhtPackage, msg ≠ .setDht dhtModule dhtPackage) :
    (handle inner random msg).1.dhtModule = inner.dhtModule ∧
      (handle inner random msg).1.dhtPackage = inner.dhtPackage := by
  cases msg with
  | setNode node => exact startPublish_package _
  | setDht dhtModule dhtPackage => exact absurd rfl (h dhtModule dhtPackage)
  | routeChange deadRoutes =>
    simp only [handle, handleRouteChange]
    split
    · exact ⟨rfl, rfl⟩
    split
    · exact ⟨rfl, rfl⟩
    split
    · exact ⟨rfl, rfl⟩
    · exact startPublish_package _
  | getStatus => exact ⟨rfl, rfl⟩
  | publishFinished generation result =>
    simp only [handle, finishPublish]
    cases result with
    | ok routeId =>
      split
      · exact ⟨rfl, rfl⟩
      · dsimp only
        split
        · exact startPublish_package _
        · exact ⟨rfl, rfl⟩
    | error error =>
      split
      · exact ⟨rfl, rfl⟩
      · exact ⟨rfl, rfl⟩
  | retryPublish =>
    simp only [handle]
    split
    · exact startPublish_package _
    · exact ⟨rfl, rfl⟩

variable {manager : ManagerSystem Node DhtModule RouteId} {event : Event Node DhtModule RouteId}

/-- A route that an event offers to the manager was offered before, or its blob is written by
the event. -/
theorem next_offered {generation : UInt64} {r : RouteId} (h : s.manager.next event = some manager)
    (offered : .publishFinished generation (.ok r) ∈ manager.queue) :
    .publishFinished generation (.ok r) ∈ s.manager.queue ∨
      ∃ dhtModule dhtPackage, (r, dhtModule, dhtPackage) ∈ blobWritten s.manager event := by
  have hsent : ∀ {msg : RouteManagerMsg Node DhtModule RouteId},
      (∀ generation r, msg ≠ .publishFinished generation (.ok r)) →
        .publishFinished generation (.ok r) ∈ s.manager.queue ++ [msg] →
          .publishFinished generation (.ok r) ∈ s.manager.queue := by
    intro msg hmsg hmem
    rcases List.mem_append.mp hmem with hmem | hmem
    · exact hmem
    · exact absurd (List.mem_singleton.mp hmem).symm (hmsg generation r)
  cases event with
  | receive random =>
    obtain ⟨msg, queue, hqueue, rfl⟩ := ManagerSystem.next_receive h
    rw [ManagerSystem.foldl_perform_queue] at offered
    exact .inl (by rw [hqueue]; exact List.mem_cons_of_mem _ offered)
  | setNode node =>
    cases h
    exact .inl (hsent (fun _ _ h => by cases h) offered)
  | setDht dhtModule dhtPackage =>
    cases h
    exact .inl (hsent (fun _ _ h => by cases h) offered)
  | getStatus =>
    cases h
    exact .inl (hsent (fun _ _ h => by cases h) offered)
  | routesDied deadRoutes =>
    cases h
    exact .inl (hsent (fun _ _ h => by cases h) offered)
  | routeCreation position outcome =>
    simp only [ManagerSystem.next] at h
    split at h
    · split at h
      · split at h
        · cases h
        · cases h
          exact .inl offered
      · cases h
        exact .inl (hsent (fun _ _ h => by cases h) offered)
    · cases h
  | blobWrite position outcome =>
    simp only [ManagerSystem.next] at h
    split at h
    case h_1 generation' node dhtModule dhtPackage routeId hworker =>
      cases h
      rw [ManagerSystem.settle_queue] at offered
      rcases List.mem_append.mp offered with hbefore | hnew
      · exact .inl hbefore
      -- Only a blob that is written makes the worker hand its route over.
      have hresult := (RouteManagerMsg.publishFinished.inj (List.mem_singleton.mp hnew)).2
      cases outcome with
      | written =>
        cases hresult
        refine .inr ⟨dhtModule, dhtPackage, ?_⟩
        simp [blobWritten, hworker]
      | serializeFailed _ => cases hresult
      | deadlinePassed => cases hresult
      | writeFailed _ => cases hresult
      | joinFailed _ => cases hresult
      | timedOut => cases hresult
    case h_2 => cases h
  | queuedWriteEnds position =>
    simp only [ManagerSystem.next] at h
    split at h
    · cases h
      exact .inl offered
    · cases h
  | retryDue position =>
    simp only [ManagerSystem.next] at h
    split at h
    · cases h
      exact .inl (hsent (fun _ _ h => by cases h) offered)
    · cases h

/-- A message that leaves the package alone, or names it again, leaves a route that the manager
holds published in it. -/
theorem Published.receive
    (h : s.Published) (keeps : s.KeepsPackage (.receive random))
    (hnext : s.manager.next (.receive random) = some manager) {r : RouteId}
    (held : manager.inner.activeRouteId = some r) :
    (⟨manager, s.written⟩ : Publications Node DhtModule RouteId).PublishedInCurrent r := by
  obtain ⟨msg, queue, hqueue, rfl⟩ := ManagerSystem.next_receive hnext
  have hkeeps : s.Accepts msg := keeps msg (by simp [hqueue])
  rw [ManagerSystem.foldl_perform_inner] at held
  simp only [PublishedInCurrent, current, ManagerSystem.foldl_perform_inner]
  by_cases hset : ∃ dhtModule dhtPackage, msg = .setDht dhtModule dhtPackage
  · obtain ⟨dhtModule, dhtPackage, rfl⟩ := hset
    have hactive : s.manager.inner.activeRouteId = some r := by
      rcases handle_activeRouteId held with ⟨hactive, -⟩ | ⟨_, hmsg⟩
      · exact hactive
      · cases hmsg
    rcases hkeeps with hnone | hsame
    · cases hnone.symm.trans hactive
    · obtain ⟨module', package', hcurrent, hwritten⟩ := h.held r hactive
      refine ⟨module', package', ?_, hwritten⟩
      rw [← hcurrent, hsame]
      exact Prod.ext (startPublish_package _).1 (startPublish_package _).2
  push Not at hset
  rw [(handle_package hset).1, (handle_package hset).2]
  rcases handle_activeRouteId held with ⟨hactive, -⟩ | ⟨generation, rfl⟩
  · exact h.held r hactive
  · obtain ⟨dhtModule, dhtPackage, hwritten⟩ := h.offered generation r (by simp [hqueue])
    exact ⟨dhtModule, dhtPackage, hkeeps _ hwritten rfl, hwritten⟩

theorem Published.next (h : s.Published)
    (keeps : s.KeepsPackage event) (hstep : s.next event = some t) : t.Published := by
  obtain ⟨manager, hmanager, rfl⟩ := Option.map_eq_some_iff.mp hstep
  constructor
  · intro r hactive
    by_cases hother : ∀ random, event ≠ .receive random
    · obtain ⟨hinner, -⟩ := ManagerSystem.next_other hother hmanager
      rw [hinner] at hactive
      obtain ⟨dhtModule, dhtPackage, hcurrent, hwritten⟩ := h.held r hactive
      refine ⟨dhtModule, dhtPackage, ?_, List.mem_append_left _ hwritten⟩
      rw [current, hinner]
      exact hcurrent
    · push Not at hother
      obtain ⟨random, rfl⟩ := hother
      obtain ⟨dhtModule, dhtPackage, hcurrent, hwritten⟩ := h.receive keeps hmanager hactive
      exact ⟨dhtModule, dhtPackage, hcurrent, List.mem_append_left _ hwritten⟩
  · intro generation r hoffered
    rcases next_offered hmanager hoffered with hbefore | ⟨dhtModule, dhtPackage, hwritten⟩
    · obtain ⟨dhtModule, dhtPackage, hwritten⟩ := h.offered generation r hbefore
      exact ⟨dhtModule, dhtPackage, List.mem_append_left _ hwritten⟩
    · exact ⟨dhtModule, dhtPackage, List.mem_append_right _ hwritten⟩

end Steps

/-- A new package comes when route 1 has died, and route 2 is published in it. -/
def movedRun : List (Event Unit Unit Nat) :=
  [.setNode (), .setDht () 0, .receive 0, .receive 0,
    .routeCreation 0 (.created 1), .blobWrite 0 .written, .receive 0,
    .routesDied [1], .receive 0, .routeCreation 0 (.failed ""), .receive 0,
    .setDht () 1, .receive 0, .routeCreation 0 (.created 2), .blobWrite 0 .written, .receive 0]

/-- A new package comes while route 1 is held. -/
def overlookedRun : List (Event Unit Unit Nat) :=
  [.setNode (), .setDht () 0, .receive 0, .receive 0,
    .routeCreation 0 (.created 1), .blobWrite 0 .written, .receive 0, .setDht () 1, .receive 0]

end Publications

end VeilKnit.RouteManager
