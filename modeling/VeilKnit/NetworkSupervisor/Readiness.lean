import VeilKnit.NetworkSupervisor.Status

/-!
# Readiness and shutdown

A daemon is declared ready after its stages have been looked at, and without another look: a stage
that fails between the two locks stays failed behind a daemon that is running, and a shutdown that
begins there is undone. A shutdown begins a second time when a stage fails before the coordinator
has been told of the first. And a stage has as many timers as it has been started: one that reports
late replaces the failure that another has reported.

Outside these orders the daemon runs only with no stage failed, and a shutdown comes to its end.
-/

namespace VeilKnit.NetworkSupervisor

open Library

namespace NetworkStatus

variable {status : NetworkStatus}

def HasFailed (status : NetworkStatus) (stage : StartupStage) : Prop :=
  (status.startupStages stage).state = .failed

instance (stage : StartupStage) : Decidable (status.HasFailed stage) :=
  inferInstanceAs (Decidable ((status.startupStages stage).state = .failed))

variable {stage other : StartupStage}

theorem mem_failedStages : stage ∈ status.failedStages ↔ status.HasFailed stage := by
  simp [failedStages, HasFailed, StartupStage.mem_all]

variable {detail : Option String} {now : Nat}

/-- A stage that is started again is no longer failed; the others stay as they are. -/
theorem hasFailed_stageRunning :
    (status.stageRunning stage detail now).HasFailed other ↔
      other ≠ stage ∧ status.HasFailed other := by
  unfold HasFailed stageRunning
  by_cases h : other = stage
  · subst h
    simp
  · simp [h]

theorem hasFailed_finishStage {state : StartupStageState} {durationMs : Nat} :
    (status.finishStage stage state detail durationMs now).HasFailed other ↔
      if other = stage then state = .failed else status.HasFailed other := by
  unfold HasFailed finishStage
  by_cases h : other = stage
  · subst h
    simp
  · simp [h]

/-- Declaring the daemon ready makes no stage fail. -/
theorem hasFailed_of_declareReady
    (h : (status.declareReady [] now).HasFailed stage) : status.HasFailed stage := by
  have hstate : (readySnapshot now stage (status.startupStages stage)).state = .failed := h
  unfold readySnapshot at hstate
  by_cases hready : stage = .ready
  · simp [hready] at hstate
  · by_cases hpending : (status.startupStages stage).state = .pending
    · simp [hready, hpending] at hstate
    · simpa [hready, hpending, HasFailed] using hstate

end NetworkStatus

namespace Supervisor

variable {s t : Supervisor} {label : Label}

/-! ## The orders that go wrong -/

/-- The steps that do not go wrong. The daemon is declared ready only if no stage has failed by
then and no shutdown has begun; after a failure no shutdown begins while another that has begun is
unknown to the coordinator; and a stage that has failed gets no other result. -/
def Guard (s : Supervisor) : Label → Prop
  | .declareReady call _ =>
    s.readiness[call]? = some [] →
      (∀ stage, ¬ s.status.HasFailed stage) ∧ s.status.stoppingAt = none
  | .shutdown _ =>
    s.status.stoppingAt ≠ none → s.status.lifecycle = .failed → s.isStopping = true
  | .finishStage stage result _ _ _ => s.status.HasFailed stage → result = .fail
  | _ => True

theorem failedStages_eq_nil_iff {status : NetworkStatus} :
    status.failedStages = [] ↔ ∀ stage, ¬ status.HasFailed stage := by
  simp [List.eq_nil_iff_forall_not_mem, NetworkStatus.mem_failedStages]

instance : (label : Label) → Decidable (Guard s label)
  | .declareReady call _ =>
    decidable_of_iff (s.readiness[call]? = some [] →
      s.status.failedStages = [] ∧ s.status.stoppingAt = none)
      (by rw [failedStages_eq_nil_iff]; rfl)
  | .shutdown _ =>
    inferInstanceAs (Decidable (s.status.stoppingAt ≠ none → s.status.lifecycle = .failed →
      s.isStopping = true))
  | .finishStage stage result _ _ _ =>
    inferInstanceAs (Decidable (s.status.HasFailed stage → result = .fail))
  | .stageRunning .. => .isTrue trivial
  | .checkStages => .isTrue trivial
  | .enterStop _ => .isTrue trivial
  | .endShutdown .. => .isTrue trivial

/-! ## What a step does to the status -/

/-- The five things that can happen to the lifecycle, with what else they need and change. -/
inductive Change (s t : Supervisor) : Label → Prop
  | stays {label : Label} (lifecycle : t.status.lifecycle = s.status.lifecycle)
      (mark : t.status.stoppingAt = s.status.stoppingAt)
      (failed : ∀ stage, t.status.HasFailed stage → s.status.HasFailed stage)
      (shutdowns : t.shutdowns ≠ [] → s.shutdowns ≠ []) : Change s t label
  | fails {label : Label} (lifecycle : t.status.lifecycle = .failed)
      (mark : t.status.stoppingAt = s.status.stoppingAt)
      (shutdowns : t.shutdowns ≠ [] → s.shutdowns ≠ []) : Change s t label
  | declares {call now : Nat} (found : s.readiness[call]? = some [])
      (lifecycle : t.status.lifecycle = .running)
      (mark : t.status.stoppingAt = s.status.stoppingAt)
      (failed : ∀ stage, t.status.HasFailed stage → s.status.HasFailed stage)
      (shutdowns : t.shutdowns ≠ [] → s.shutdowns ≠ []) : Change s t (.declareReady call now)
  | begins {now : Nat} (notStopping : s.status.lifecycle ≠ .stopping)
      (notStopped : s.status.lifecycle ≠ .stopped) (unknown : s.isStopping = false)
      (lifecycle : t.status.lifecycle = .stopping) (mark : t.status.stoppingAt = some now) :
      Change s t (.shutdown now)
  | ends {label : Label} (under : s.shutdowns ≠ [])
      (lifecycle : t.status.lifecycle = .stopped ∨ t.status.lifecycle = .failed)
      (mark : t.status.stoppingAt = s.status.stoppingAt) : Change s t label

variable {call now : Nat}

theorem shutdowns_ne_nil {phase : ShutdownCall}
    (h : s.shutdowns[call]? = some phase) : s.shutdowns ≠ [] :=
  List.ne_nil_of_mem (List.mem_of_getElem? h)

theorem change_of_declareReady {failed : List StartupStage}
    (h : s.readiness[call]? = some failed) :
    Change s { s with
      status := s.status.declareReady failed now
      readiness := s.readiness.eraseIdx call } (.declareReady call now) := by
  by_cases hfailed : failed = []
  · subst hfailed
    exact .declares h rfl rfl (fun _ => NetworkStatus.hasFailed_of_declareReady) id
  · refine .fails ?_ ?_ id
    · simp [NetworkStatus.declareReady, hfailed]
    · simp [NetworkStatus.declareReady, hfailed]

theorem change_of_finishStage {stage : StartupStage} {result : StageResult}
    {detail : Option String} {durationMs : Nat} :
    Change s { s with
      status := s.status.finishStage stage result.state detail durationMs now
      timers := s.timers.erase stage } (.finishStage stage result detail durationMs now) := by
  by_cases hfail : result.state = .failed
  · -- a failure is published with the stage
    refine .fails ?_ rfl id
    simp [NetworkStatus.finishStage, hfail]
  refine .stays ?_ rfl ?_ id
  · simp [NetworkStatus.finishStage, hfail]
  · intro other hother
    have hother := NetworkStatus.hasFailed_finishStage.mp hother
    split_ifs at hother
    · exact absurd hother hfail
    · exact hother

theorem change_of_next (hnext : s.next label = some t) : Change s t label := by
  cases label with
  | stageRunning stage detail now =>
    cases hnext
    exact .stays rfl rfl (fun _ hother => (NetworkStatus.hasFailed_stageRunning.mp hother).2) id
  | finishStage stage result detail durationMs now =>
    simp only [next] at hnext
    split_ifs at hnext
    cases hnext
    exact change_of_finishStage
  | checkStages =>
    cases hnext
    exact .stays rfl rfl (fun _ => id) id
  | declareReady call now =>
    obtain ⟨failed, hcall, rfl⟩ := Option.map_eq_some_iff.mp hnext
    exact change_of_declareReady hcall
  | shutdown now =>
    simp only [next, NetworkStatus.beginShutdown] at hnext
    split_ifs at hnext with hbegun
    · cases hnext
      exact .stays rfl rfl (fun _ => id) id
    · cases hnext
      rw [not_or, not_or, Bool.not_eq_true] at hbegun
      exact .begins hbegun.1 hbegun.2.1 hbegun.2.2 rfl rfl
  | enterStop call =>
    simp only [next] at hnext
    split_ifs at hnext with hcall
    cases hnext
    exact .stays rfl rfl (fun _ => id) fun _ => shutdowns_ne_nil hcall
  | endShutdown call results running armed =>
    simp only [next] at hnext
    split_ifs at hnext with hcall
    cases hnext
    have hunder : s.shutdowns ≠ [] := by
      rcases hcall with hcall | ⟨hcall, -⟩
      · exact shutdowns_ne_nil hcall
      · exact shutdowns_ne_nil hcall
    refine .ends hunder ?_ rfl
    dsimp only [NetworkStatus.endShutdown]
    split_ifs
    · exact .inr rfl
    · exact .inl rfl

/-! ## Guarded runs -/

abbrev guarded : LabelledSystem Supervisor Label := system.restrict Guard

/-- What is true of every state of a guarded run. The time of the shutdown stands for its having
begun. -/
structure Sound (s : Supervisor) : Prop where
  ready : s.status.lifecycle = .running →
    (∀ stage, ¬ s.status.HasFailed stage) ∧ s.status.stoppingAt = none
  marked : s.status.lifecycle = .stopping ∨ s.status.lifecycle = .stopped ∨ s.shutdowns ≠ [] →
    s.status.stoppingAt ≠ none
  begun : s.status.stoppingAt ≠ none → s.status.lifecycle ≠ .starting

theorem Sound.new : Supervisor.new.Sound where
  ready := fun h => nomatch h
  marked := fun h => by simp [Supervisor.new, NetworkStatus.new] at h
  begun := fun h => absurd rfl h

theorem Sound.next (h : s.Sound) (hguard : s.Guard label) (hnext : s.next label = some t) :
    t.Sound := by
  cases change_of_next hnext with
  | stays hlifecycle hmark hfailed hshutdowns =>
    refine ⟨?_, ?_, by rw [hlifecycle, hmark]; exact h.begun⟩
    · rw [hlifecycle, hmark]
      intro hrunning
      obtain ⟨hnone, hopen⟩ := h.ready hrunning
      exact ⟨fun stage hstage => hnone stage (hfailed stage hstage), hopen⟩
    · rw [hlifecycle, hmark]
      exact fun hany => h.marked (hany.imp_right (Or.imp_right hshutdowns))
  | fails hlifecycle hmark hshutdowns =>
    refine ⟨by simp [hlifecycle], ?_, by simp [hlifecycle]⟩
    rw [hlifecycle, hmark]
    simp only [reduceCtorEq, false_or]
    exact fun hopen => h.marked (.inr (.inr (hshutdowns hopen)))
  | declares hfound hlifecycle hmark hfailed hshutdowns =>
    obtain ⟨hnone, hopen⟩ := hguard hfound
    refine ⟨?_, ?_, by simp [hlifecycle]⟩
    · rw [hmark]
      exact fun _ => ⟨fun stage hstage => hnone stage (hfailed stage hstage), hopen⟩
    · rw [hlifecycle, hmark]
      simp only [reduceCtorEq, false_or]
      exact fun hopen => h.marked (.inr (.inr (hshutdowns hopen)))
  | begins _ _ _ hlifecycle hmark =>
    exact ⟨by simp [hlifecycle], by simp [hmark], by simp [hlifecycle]⟩
  | ends hunder hlifecycle hmark =>
    have hopen := h.marked (.inr (.inr hunder))
    rcases hlifecycle with hlifecycle | hlifecycle
    · exact ⟨by simp [hlifecycle], fun _ => hmark ▸ hopen, by simp [hlifecycle]⟩
    · exact ⟨by simp [hlifecycle], fun _ => hmark ▸ hopen, by simp [hlifecycle]⟩

theorem sound_of_reachable (h : guarded.Reachable s) : s.Sound := by
  induction h with
  | start hinit => exact hinit ▸ Sound.new
  | next label _ hstep ih => exact ih.next hstep.1 hstep.2

/-- The lifecycle stays, or comes to an end of the shutdown. -/
def Ends (s t : Supervisor) : Prop :=
  t.status.lifecycle = s.status.lifecycle ∨ t.status.lifecycle = .stopped ∨
    t.status.lifecycle = .failed

/-- Once a shutdown has begun, a step only ends it. -/
theorem Sound.ends (h : s.Sound) (hguard : s.Guard label) (hnext : s.next label = some t)
    (hmark : s.status.stoppingAt ≠ none) : s.Ends t ∧ t.status.stoppingAt ≠ none := by
  cases change_of_next hnext with
  | stays hlifecycle hsame _ _ => exact ⟨.inl hlifecycle, hsame ▸ hmark⟩
  | fails hlifecycle hsame _ => exact ⟨.inr (.inr hlifecycle), hsame ▸ hmark⟩
  | declares hfound _ _ _ _ => exact absurd (hguard hfound).2 hmark
  | begins hnotStopping hnotStopped hunknown _ _ =>
    -- what is left is a failure that the coordinator has not been told of
    cases hlifecycle : s.status.lifecycle with
    | starting => exact absurd hlifecycle (h.begun hmark)
    | running => exact absurd (h.ready hlifecycle).2 hmark
    | stopping => exact absurd hlifecycle hnotStopping
    | stopped => exact absurd hlifecycle hnotStopped
    | failed =>
      have hknown : s.isStopping = true := hguard hmark hlifecycle
      rw [hunknown] at hknown
      cases hknown
  | ends _ hlifecycle hsame => exact ⟨.inr hlifecycle, hsame ▸ hmark⟩

/-- A failed stage stays failed, unless it is started again. -/
def ShowsFailures (s : Supervisor) (label : Label) (t : Supervisor) : Prop :=
  ∀ stage, s.status.HasFailed stage → (∀ detail now, label ≠ .stageRunning stage detail now) →
    t.status.HasFailed stage

theorem showsFailures_of_next (hguard : s.Guard label) (hnext : s.next label = some t) :
    s.ShowsFailures label t := by
  intro stage hfailed hother
  cases label with
  | stageRunning started detail now =>
    cases hnext
    refine NetworkStatus.hasFailed_stageRunning.mpr ⟨?_, hfailed⟩
    rintro rfl
    exact hother detail now rfl
  | finishStage finished result detail durationMs now =>
    simp only [next] at hnext
    split_ifs at hnext
    cases hnext
    refine NetworkStatus.hasFailed_finishStage.mpr ?_
    split_ifs with hsame
    · subst hsame
      rw [hguard hfailed]
      rfl
    · exact hfailed
  | checkStages =>
    cases hnext
    exact hfailed
  | declareReady call now =>
    obtain ⟨failed, hcall, rfl⟩ := Option.map_eq_some_iff.mp hnext
    by_cases hempty : failed = []
    · subst hempty
      exact absurd hfailed ((hguard hcall).1 stage)
    · simpa [NetworkStatus.declareReady, NetworkStatus.HasFailed, hempty] using hfailed
  | shutdown now =>
    simp only [next, NetworkStatus.beginShutdown] at hnext
    split_ifs at hnext
    · cases hnext
      exact hfailed
    · cases hnext
      exact hfailed
  | enterStop call =>
    simp only [next] at hnext
    split_ifs at hnext
    cases hnext
    exact hfailed
  | endShutdown call results running armed =>
    simp only [next] at hnext
    split_ifs at hnext
    cases hnext
    exact hfailed

/-- In every state of a run of guarded steps: the daemon is running only with no stage failed, a
step hides no failure, and from a state in which it is stopping on the lifecycle changes only to
stopped or failed. -/
theorem lifecycle_is_consistent {s : Supervisor} (h : guarded.Reachable s) :
    (s.status.lifecycle = .running → ∀ stage, ¬ s.status.HasFailed stage) ∧
    (∀ label t, guarded.step s label t → s.ShowsFailures label t) ∧
    (s.status.lifecycle = .stopping → ∀ t, guarded.Leads s t → ∀ label u,
      guarded.step t label u → t.Ends u) := by
  refine ⟨fun hrunning => ((sound_of_reachable h).ready hrunning).1,
    fun label t hstep => showsFailures_of_next hstep.1 hstep.2, fun hstopping t hleads => ?_⟩
  have hmark : t.status.stoppingAt ≠ none := by
    refine hleads.preserved (P := fun a => a.status.stoppingAt ≠ none) h ?_
      ((sound_of_reachable h).marked (.inl hstopping))
    intro a label b ha hmark hstep
    exact ((sound_of_reachable ha).ends hstep.1 hstep.2 hmark).2
  intro label u hstep
  exact ((sound_of_reachable (h.leads hleads)).ends hstep.1 hstep.2 hmark).1

/-- A daemon that starts, is ready, and is asked to stop. -/
def orderly : List Label :=
  [.stageRunning .veilid none 1, .checkStages, .finishStage .veilid .complete none 5 2,
    .declareReady 0 3, .shutdown 4]

theorem orderly_is_consistent :
    ∃ s, s.status.lifecycle = .stopping ∧ (∀ t, guarded.Leads s t → ∀ label u,
      guarded.step t label u → t.Ends u) := by
  have hstep : ∀ s label t, s.Guard label → s.next label = some t → guarded.step s label t :=
    fun _ _ _ hguard hnext => ⟨hguard, hnext⟩
  refine ⟨(LabelledSystem.runWithin next Guard .new orderly).get (by decide +kernel),
    by decide +kernel, ?_⟩
  exact (lifecycle_is_consistent
    (LabelledSystem.Reachable.of_runWithin hstep (.start rfl) (Option.some_get _).symm)).2.2
      (by decide +kernel)

/-! ## The orders that are left out -/

/-- A stage fails after `mark_ready` has looked at the stages. -/
def failsLate : List Label :=
  [.stageRunning .dhtNetworkVerification none 1, .checkStages,
    .finishStage .dhtNetworkVerification .fail (some "timed out") 7 2, .declareReady 0 3]

/-- A shutdown begins after `mark_ready` has looked at the stages. -/
def stopsLate : List Label := [.checkStages, .shutdown 1, .declareReady 0 2]

/-- The daemon is running with a failed stage in the first run, and running again while its
shutdown goes on in the second. -/
theorem ready_too_late :
    (∃ s, system.Reachable s ∧ s.status.lifecycle = .running ∧
      s.status.HasFailed .dhtNetworkVerification) ∧
    (∃ s t, system.Reachable s ∧ s.status.lifecycle = .stopping ∧
      system.step s (.declareReady 0 2) t ∧ t.status.lifecycle = .running) := by
  constructor
  · refine ⟨(LabelledSystem.run next .new failsLate).get (by decide +kernel), ?_, ?_, ?_⟩
    · exact LabelledSystem.Reachable.run (.start rfl) (Option.some_get _).symm
    · decide +kernel
    · decide +kernel
  refine ⟨(LabelledSystem.run next .new (stopsLate.take 2)).get (by decide +kernel),
    (LabelledSystem.run next .new stopsLate).get (by decide +kernel), ?_, ?_, ?_, ?_⟩
  · exact LabelledSystem.Reachable.run (.start rfl) (Option.some_get _).symm
  · decide +kernel
  · rfl
  · decide +kernel

end Supervisor

end VeilKnit.NetworkSupervisor
