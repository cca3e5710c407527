import Mathlib.Data.List.Sort
import Mathlib.Data.List.Perm.Basic
import VeilKnit.Library.Fallible

/-!
# Stopping the daemon

The modules register hooks that run when the daemon stops, in groups that follow each other. A
group ends when all its tasks have been joined, or at its ceiling; after it, what its hooks have
reported decides whether the next group may run, and at the end whether the watchdog is disarmed
and the record of the stop is clean.

How the tasks of the hooks end is up to them. The events of a stop are the starts of hooks and
their outcomes, in order. A second request to stop runs nothing and is left out.
-/

namespace VeilKnit.Lifecycle

/-! ## Declarations -/

inductive ResourceNeed
  | none
  | storage
  | veilidNode
  | network
  deriving DecidableEq

inductive ShutdownPhase
  | automatic
  | teardown
  | after
  deriving DecidableEq

inductive Tier
  | intake
  | announce
  | nodeDependent
  | persist
  | teardown
  | after
  deriving DecidableEq

namespace Tier

/-- The groups in the order in which they run. -/
def order : List Tier := [intake, announce, nodeDependent, persist, teardown, after]

def timeoutBlocksLaterTiers : Tier → Bool
  | intake | announce | nodeDependent | teardown => true
  | persist | after => false

end Tier

inductive StopReason
  | shutdown
  | restart
  deriving DecidableEq

inductive Reachability
  | reachable
  | unreachable
  | unknown
  deriving DecidableEq

abbrev HookId := Nat

/-- A registered hook. Durations are in nanoseconds. -/
structure Hook where
  id : HookId
  module : String
  detail : String
  need : ResourceNeed
  phase : ShutdownPhase
  budget : Nat
  skipOnRestart : Bool
  continueAfterTimeout : Bool
  deriving DecidableEq

def Hook.tier (hook : Hook) : Tier :=
  match hook.phase with
  | .teardown => .teardown
  | .after => .after
  | .automatic =>
    match hook.need with
    | .network => .announce
    | .veilidNode => .nodeDependent
    | .storage => .persist
    | .none => .intake

inductive HookResult
  | ok
  | failed (error : String)
  | overran
  | skipped (reason : String)
  deriving DecidableEq

structure HookOutcome where
  id : HookId
  module : String
  detail : String
  tier : Tier
  elapsed : Nat
  budget : Nat
  result : HookResult
  needsVerification : Bool
  deriving DecidableEq

inductive WatchdogAction
  | exit
  | report
  deriving DecidableEq

/-! ## Tasks -/

/-- What the future of a hook is polled to within its own limit. -/
inductive Poll
  | finished
  | error (error : String)
  | panicked (payload : String)
  | timedOut

/-- Where the task of a hook is when its group ends: it has been joined, it has failed to join, or
it has done neither. -/
inductive Joined
  | outcome (poll : Poll)
  | joinError
  | outstanding

/-- The end of a task, with the step it has come to and whether it has called that one fragile. -/
structure TaskEnd where
  joined : Joined
  elapsed : Nat
  detail : String
  needsVerification : Bool

/-- A stop: the hooks, its reason, and what the surroundings do. -/
structure Stop where
  hooks : List Hook
  unique : (hooks.map (·.id)).Nodup
  reason : StopReason
  reachability : Reachability
  refreshed : Reachability
  tierBudget : Tier → Nat
  watchdogAction : WatchdogAction
  hasDataDir : Bool
  taskEnd : HookId → TaskEnd
  /-- The watchdog has fired when a group has ended. -/
  watchdogFired : Tier → Bool
  /-- The order in which tasks are joined. -/
  arrival : List Hook → List Hook
  arrival_perm : ∀ hooks, (arrival hooks).Perm hooks

/-- A hook is started, or its outcome is there. -/
inductive Event
  | started (id : HookId)
  | outcome (outcome : HookOutcome)
  deriving DecidableEq

/-- What one group leaves: its events, whether it ran, the hooks that are still listed as running,
and whether the later groups run. -/
structure TierRun where
  events : List Event
  ran : Bool
  running : List HookId
  stops : Bool

/-- The result of a stop. -/
structure Stopped where
  events : List Event
  ran : List Tier
  running : List HookId
  watchdogLeftArmed : Bool

namespace Stop

/-- The result of a task that has been joined. A hook that blocks its thread can end after its
limit without having been timed out. -/
def hookResult (poll : Poll) (elapsed hookBudget : Nat) : HookResult :=
  match poll with
  | .finished => if hookBudget < elapsed then .overran else .ok
  | .error error => .failed error
  | .panicked payload => .failed ("shutdown hook panicked: " ++ payload)
  | .timedOut => .overran

variable (s : Stop)

def hookBudget (hook : Hook) : Nat := min hook.budget (s.tierBudget hook.tier)

def outcomeOf (hook : Hook) (result : HookResult) : HookOutcome where
  id := hook.id
  module := hook.module
  detail := (s.taskEnd hook.id).detail
  tier := hook.tier
  elapsed := (s.taskEnd hook.id).elapsed
  budget := s.hookBudget hook
  result := result
  needsVerification := (s.taskEnd hook.id).needsVerification

def skippedOutcome (hook : Hook) (reason : String) : HookOutcome where
  id := hook.id
  module := hook.module
  detail := hook.detail
  tier := hook.tier
  elapsed := 0
  budget := hook.budget
  result := .skipped reason
  needsVerification := false

/-- The result of a hook whose task has been joined. -/
def joinedResult (hook : Hook) : Option HookResult :=
  match (s.taskEnd hook.id).joined with
  | .outcome poll => some (hookResult poll (s.taskEnd hook.id).elapsed (s.hookBudget hook))
  | _ => none

def isOutstanding (hook : Hook) : Bool :=
  match (s.taskEnd hook.id).joined with
  | .outstanding => true
  | _ => false

/-- The outcomes of the tasks that are joined, in order. A task that fails to join has none. -/
def joinedOutcomes (hooks : List Hook) : List HookOutcome :=
  (s.arrival hooks).filterMap fun hook => (s.joinedResult hook).map (s.outcomeOf hook)

/-- The hooks whose tasks have not been joined, in order of their numbers. -/
def unjoined (hooks : List Hook) : List Hook :=
  (hooks.filter fun hook => (s.joinedResult hook).isNone).mergeSort fun a b => a.id ≤ b.id

def continueAfterTimeout (hooks : List Hook) (id : HookId) : Bool :=
  ((hooks.find? (·.id = id)).map (·.continueAfterTimeout)).getD false

/-- A timeout after which the later groups must not run. -/
def blockingTimeout (tier : Tier) (hooks : List Hook) : Bool :=
  tier.timeoutBlocksLaterTiers && (s.joinedOutcomes hooks).any fun outcome =>
    outcome.result = .overran && ! continueAfterTimeout hooks outcome.id

/-- In the bench the run is abandoned where the process would exit. -/
def abandons (tier : Tier) : Bool :=
  s.watchdogAction = .report && s.watchdogFired tier

/-- Run the hooks of a group. -/
def runTier (tier : Tier) (hooks : List Hook) : TierRun :=
  let starts := hooks.map fun hook => Event.started hook.id
  let joined := (s.joinedOutcomes hooks).map Event.outcome
  let running := (s.unjoined hooks).map (·.id)
  if hooks.any s.isOutstanding then
    let overran := (s.unjoined hooks).map fun hook => Event.outcome (s.outcomeOf hook .overran)
    { events := starts ++ (joined ++ overran), ran := true, running, stops := true }
  else
    { events := starts ++ joined
      ran := true
      running
      stops := s.blockingTimeout tier hooks || s.abandons tier }

def reachable : Bool :=
  match s.reachability with
  | .reachable => true
  | .unreachable => false
  | .unknown => s.refreshed = .reachable

/-- The reason for which a whole group is left out. -/
def wholeTierSkip : Tier → Option String
  | .announce =>
    if s.reason = .restart then some "restart"
    else if s.reachable then none
    else some "network unreachable"
  | _ => none

def tierHooks (tier : Tier) : List Hook := s.hooks.filter (·.tier = tier)

/-- The hooks of a group that are left out in a restart. -/
def leftOut (tier : Tier) : List Hook :=
  if s.reason = .restart then (s.tierHooks tier).filter (·.skipOnRestart) else []

def runnable (tier : Tier) : List Hook :=
  if s.reason = .restart then (s.tierHooks tier).filter (! ·.skipOnRestart) else s.tierHooks tier

/-- What happens with a group. -/
def stepTier (tier : Tier) : TierRun :=
  match s.wholeTierSkip tier with
  | some reason =>
    { events := (s.tierHooks tier).map fun hook => .outcome (skippedOutcome hook reason)
      ran := false
      running := []
      stops := false }
  | none =>
    let left := (s.leftOut tier).map fun hook => Event.outcome (skippedOutcome hook "restart")
    if s.runnable tier = [] then { events := left, ran := false, running := [], stops := false }
    else
      let run := s.runTier tier (s.runnable tier)
      { run with events := left ++ run.events }

/-- The groups in order, until one stops the others. -/
def runTiers : List Tier → Stopped
  | [] => { events := [], ran := [], running := [], watchdogLeftArmed := false }
  | tier :: tiers =>
    let run := s.stepTier tier
    let ran := if run.ran then [tier] else []
    if run.stops then
      { events := run.events, ran, running := run.running, watchdogLeftArmed := true }
    else
      let rest := runTiers tiers
      { events := run.events ++ rest.events
        ran := ran ++ rest.ran
        running := run.running ++ rest.running
        watchdogLeftArmed := rest.watchdogLeftArmed }

def run : Stopped := s.runTiers Tier.order

end Stop

def outcomeIn? : Event → Option HookOutcome
  | .outcome outcome => some outcome
  | .started _ => none

def outcomesOf (events : List Event) : List HookOutcome := events.filterMap outcomeIn?

def Stopped.outcomes (r : Stopped) : List HookOutcome := outcomesOf r.events

def HookResult.isClean : HookResult → Bool
  | .ok | .skipped _ => true
  | .failed _ | .overran => false

/-- A record of outcomes with nothing in it that needs looking at. -/
def Stopped.isClean (r : Stopped) : Bool := r.outcomes.all (·.result.isClean)

/-- The record is removed as clean. -/
def Stop.removesRecord (s : Stop) : Bool := s.hasDataDir && s.run.isClean

end VeilKnit.Lifecycle
