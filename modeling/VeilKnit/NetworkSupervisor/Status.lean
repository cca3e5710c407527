import VeilKnit.Library.LabelledSystem
import VeilKnit.Lifecycle.Stop

/-!
# The status that the supervisor publishes

Startup stages, readiness and shutdown come from different tasks. Each change of the status is made
under its lock, but `mark_ready` looks at the stages under one lock and declares the daemon ready
under the next, and a shutdown sets the status before the coordinator knows of it. What lies
between two locks is kept here as calls under way.
-/

namespace VeilKnit.NetworkSupervisor

inductive StartupStage
  | configuration
  | identity
  | reputation
  | veilid
  | networkAttachment
  | dhtRestore
  | mainDht
  | dhtNetworkVerification
  | presence
  | routes
  | handshake
  | mailbox
  | walker
  | applicationInfo
  | backgroundServices
  | ready
  deriving DecidableEq

namespace StartupStage

/-- All stages, in their order. -/
def all : List StartupStage :=
  [configuration, identity, reputation, veilid, networkAttachment, dhtRestore, mainDht,
    dhtNetworkVerification, presence, routes, handshake, mailbox, walker, applicationInfo,
    backgroundServices, ready]

def label : StartupStage → String
  | configuration => "Loading configuration"
  | identity => "Loading identities"
  | reputation => "Loading reputation state"
  | veilid => "Starting Veilid"
  | networkAttachment => "Waiting for network attachment"
  | dhtRestore => "Restoring owned DHTs"
  | mainDht => "Opening main DHT"
  | dhtNetworkVerification => "Verifying DHT network access"
  | presence => "Publishing presence"
  | routes => "Publishing private route"
  | handshake => "Starting handshake service"
  | mailbox => "Starting mailbox service"
  | walker => "Starting network walker"
  | applicationInfo => "Publishing application capabilities"
  | backgroundServices => "Starting background services"
  | ready => "Network core ready"

theorem mem_all (stage : StartupStage) : stage ∈ all := by cases stage <;> decide

end StartupStage

inductive StartupStageState
  | pending
  | running
  | complete
  | failed
  | skipped
  deriving DecidableEq

inductive SupervisorLifecycle
  | starting
  | running
  | stopping
  | stopped
  | failed
  deriving DecidableEq

structure StartupStageSnapshot where
  state : StartupStageState := .pending
  detail : Option String := none
  startedAt : Option Nat := none
  completedAt : Option Nat := none
  durationMs : Option Nat := none
  deriving DecidableEq

structure NetworkStatus where
  lifecycle : SupervisorLifecycle
  startupStages : StartupStage → StartupStageSnapshot
  readyAt : Option Nat
  stoppingAt : Option Nat

namespace NetworkStatus

def new : NetworkStatus where
  lifecycle := .starting
  startupStages := fun _ => {}
  readyAt := none
  stoppingAt := none

variable (status : NetworkStatus)

def stageRunning (stage : StartupStage) (detail : Option String) (now : Nat) : NetworkStatus :=
  let snapshot := { status.startupStages stage with
    state := .running, detail := detail, startedAt := some now,
    completedAt := none, durationMs := none }
  { status with startupStages := Function.update status.startupStages stage snapshot }

def finishStage (stage : StartupStage) (state : StartupStageState) (detail : Option String)
    (durationMs now : Nat) : NetworkStatus :=
  let snapshot := { status.startupStages stage with
    state := state, detail := detail, completedAt := some now, durationMs := some durationMs }
  { status with
    startupStages := Function.update status.startupStages stage snapshot
    lifecycle := if state = .failed then .failed else status.lifecycle }

/-- What `mark_ready` looks at first. -/
def failedStages : List StartupStage :=
  StartupStage.all.filter fun stage => (status.startupStages stage).state = .failed

/-- The answer of `mark_ready`. -/
def readiness (failed : List StartupStage) : Except String Unit :=
  if failed = [] then .ok ()
  else .error
    ("critical startup stage(s) failed: " ++ ", ".intercalate (failed.map StartupStage.label))

/-- A stage that the host has not begun is left out when the daemon is declared ready. -/
def readySnapshot (now : Nat) (stage : StartupStage) (snapshot : StartupStageSnapshot) :
    StartupStageSnapshot :=
  if stage = .ready then
    { snapshot with
      state := .complete, startedAt := some now, completedAt := some now, durationMs := some 0 }
  else if snapshot.state = .pending then
    { snapshot with
      state := .skipped, detail := some "Not enabled by this host", completedAt := some now,
      durationMs := some 0 }
  else snapshot

/-- The second part of `mark_ready`, with the failed stages that the first has found. -/
def declareReady (failed : List StartupStage) (now : Nat) : NetworkStatus :=
  if failed = [] then
    { status with
      lifecycle := .running
      readyAt := some now
      startupStages := fun stage => readySnapshot now stage (status.startupStages stage) }
  else { status with lifecycle := .failed }

/-- The first part of a shutdown. Nothing happens if one is under way or over. -/
def beginShutdown (isStopping : Bool) (now : Nat) : Option NetworkStatus :=
  if status.lifecycle = .stopping ∨ status.lifecycle = .stopped ∨ isStopping = true then none
  else some { status with lifecycle := .stopping, stoppingAt := some now }

/-- The end of a shutdown, from the results of its hooks. -/
def endShutdown (results : List Lifecycle.HookResult) (hasRunningHooks watchdogLeftArmed : Bool) :
    NetworkStatus :=
  let hadShutdownError := results.any (! ·.isClean)
  { status with
    lifecycle := if hadShutdownError || hasRunningHooks || watchdogLeftArmed then .failed
      else .stopped }

end NetworkStatus

/-! ## The calls under way -/

/-- The result that a stage timer reports. -/
inductive StageResult
  | complete
  | skip
  | fail
  deriving DecidableEq

def StageResult.state : StageResult → StartupStageState
  | complete => .complete
  | skip => .skipped
  | fail => .failed

/-- A shutdown that has set the status, or has come into the coordinator; only the first that does
runs the hooks. -/
inductive ShutdownCall
  | begun
  | inStop (first : Bool)
  deriving DecidableEq

structure Supervisor where
  status : NetworkStatus
  /-- The stages of the timers that have not reported. -/
  timers : List StartupStage
  /-- The calls of `mark_ready` between its two locks, with what each has found. -/
  readiness : List (List StartupStage)
  shutdowns : List ShutdownCall
  /-- The coordinator has begun to stop. -/
  isStopping : Bool

def Supervisor.new : Supervisor := ⟨.new, [], [], [], false⟩

inductive Label
  | stageRunning (stage : StartupStage) (detail : Option String) (now : Nat)
  | finishStage (stage : StartupStage) (result : StageResult) (detail : Option String)
      (durationMs now : Nat)
  | checkStages
  | declareReady (call : Nat) (now : Nat)
  | shutdown (now : Nat)
  | enterStop (call : Nat)
  | endShutdown (call : Nat) (results : List Lifecycle.HookResult)
      (hasRunningHooks watchdogLeftArmed : Bool)

namespace Supervisor

def next (s : Supervisor) : Label → Option Supervisor
  | .stageRunning stage detail now =>
    some { s with
      status := s.status.stageRunning stage detail now
      timers := stage :: s.timers }
  | .finishStage stage result detail durationMs now =>
    if stage ∈ s.timers then
      some { s with
        status := s.status.finishStage stage result.state detail durationMs now
        timers := s.timers.erase stage }
    else none
  | .checkStages => some { s with readiness := s.readiness ++ [s.status.failedStages] }
  | .declareReady call now =>
    (s.readiness[call]?).map fun failed =>
      { s with
        status := s.status.declareReady failed now
        readiness := s.readiness.eraseIdx call }
  | .shutdown now =>
    match s.status.beginShutdown s.isStopping now with
    | some status => some { s with status, shutdowns := s.shutdowns ++ [.begun] }
    | none => some s
  | .enterStop call =>
    if s.shutdowns[call]? = some .begun then
      some { s with
        shutdowns := s.shutdowns.set call (.inStop (! s.isStopping))
        isStopping := true }
    else none
  | .endShutdown call results hasRunningHooks watchdogLeftArmed =>
    -- a call that is not the first gets no results
    if s.shutdowns[call]? = some (.inStop true) ∨
        s.shutdowns[call]? = some (.inStop false) ∧ results = [] then
      some { s with
        status := s.status.endShutdown results hasRunningHooks watchdogLeftArmed
        shutdowns := s.shutdowns.eraseIdx call }
    else none

end Supervisor

/-- The supervisor from its creation on, any calls in any order. -/
def system : Library.LabelledSystem Supervisor Label := .ofFunction .new Supervisor.next

end VeilKnit.NetworkSupervisor
