import Mathlib.Logic.Relation

/-!
# Labelled systems, runs and invariants

A labelled system has a set of initial states and a step relation indexed by
labels. Its reachable states are those of finite runs from an initial state.

Three rules are used throughout: an invariant that holds initially and survives
each step holds in every reachable state; the step may assume a second invariant
already established; and a system whose steps are restricted by a guard reaches
no more than the unrestricted one. A guard on steps is how "in every run whose
steps all meet the condition" is said.
-/

namespace VeilKnit.Library

/-- Initial states and labelled steps. -/
structure LabelledSystem (State Label : Type*) where
  initial : State → Prop
  step : State → Label → State → Prop

namespace LabelledSystem

variable {State Label : Type*} {system : LabelledSystem State Label}

/-- The states of finite runs. -/
inductive Reachable (system : LabelledSystem State Label) : State → Prop
  | start {s : State} : system.initial s → Reachable system s
  | next {s t : State} (label : Label) :
      Reachable system s → system.step s label t → Reachable system t

/-- A predicate that holds initially and survives every step. -/
structure Invariant (system : LabelledSystem State Label) (P : State → Prop) : Prop where
  initially : ∀ s, system.initial s → P s
  preserved : ∀ s label t, P s → system.step s label t → P t

variable {I P : State → Prop} {s t : State} {guard : State → Label → Prop}

theorem Invariant.holds (inv : system.Invariant P) (reached : system.Reachable s) : P s := by
  induction reached with
  | start hinit => exact inv.initially _ hinit
  | next label _ hstep ih => exact inv.preserved _ label _ ih hstep

/-- A predicate preserved by steps between states that satisfy an established
invariant holds wherever that invariant does. -/
theorem Invariant.holds_of_relative (inv : system.Invariant I)
    (initially : ∀ s, system.initial s → P s)
    (preserved : ∀ s label t, I s → P s → system.step s label t → P t)
    (reached : system.Reachable s) : P s := by
  induction reached with
  | start hinit => exact initially _ hinit
  | next label hprev hstep ih => exact preserved _ label _ (inv.holds hprev) ih hstep

/-- The system that takes only the steps a guard admits. -/
def restrict (system : LabelledSystem State Label) (guard : State → Label → Prop) :
    LabelledSystem State Label where
  initial := system.initial
  step s label t := guard s label ∧ system.step s label t

theorem Reachable.of_restrict
    (reached : (system.restrict guard).Reachable s) : system.Reachable s := by
  induction reached with
  | start hinit => exact .start hinit
  | next label _ hstep ih => exact .next label ih hstep.2

/-- An invariant of the whole system is one of every restriction. -/
theorem Invariant.of_restrict (inv : system.Invariant P)
    (guard : State → Label → Prop) : (system.restrict guard).Invariant P where
  initially := inv.initially
  preserved s label t hs hstep := inv.preserved s label t hs hstep.2

/-- A property that the guard makes every step keep holds along guarded runs.
The step may use an invariant of the unguarded system. -/
theorem Invariant.holds_within (inv : system.Invariant I) {guard : State → Label → Prop}
    (initially : ∀ s, system.initial s → P s)
    (preserved : ∀ s label t, I s → P s → guard s label → system.step s label t → P t)
    {s : State} (reached : (system.restrict guard).Reachable s) : P s :=
  (inv.of_restrict guard).holds_of_relative initially
    (fun s label t hI hP hstep => preserved s label t hI hP hstep.1 hstep.2) reached

/-- One state leads to another in finitely many steps. -/
def Leads (system : LabelledSystem State Label) : State → State → Prop :=
  Relation.ReflTransGen fun s t => ∃ label, system.step s label t

theorem Reachable.leads (reached : system.Reachable s) (h : system.Leads s t) :
    system.Reachable t := by
  induction h with
  | refl => exact reached
  | tail _ hstep ih => exact ih.next hstep.choose hstep.choose_spec

/-- A property that steps between reachable states keep is kept by the runs between them. -/
theorem Leads.preserved (h : system.Leads s t) (reached : system.Reachable s)
    (preserved : ∀ s label t, system.Reachable s → P s → system.step s label t → P t)
    (hs : P s) : P t := by
  induction h with
  | refl => exact hs
  | tail hprev hstep ih =>
    obtain ⟨label, hlabel⟩ := hstep
    exact preserved _ label _ (reached.leads hprev) ih hlabel

/-- Steps of another system follow every step, and lead to a related state. -/
structure Simulates {State' Label' : Type*} (spec : LabelledSystem State' Label')
    (system : LabelledSystem State Label) (related : State → State' → Prop) : Prop where
  initially : ∀ s, system.initial s → ∃ t, spec.initial t ∧ related s t
  preserved : ∀ s label s' t, related s t → system.step s label s' →
    ∃ t', spec.Leads t t' ∧ related s' t'

/-- The other system has a run for every run. -/
theorem Simulates.reachable {State' Label' : Type*} {spec : LabelledSystem State' Label'}
    {related : State → State' → Prop} (h : spec.Simulates system related)
    (reached : system.Reachable s) : ∃ t, spec.Reachable t ∧ related s t := by
  induction reached with
  | start hinit =>
    obtain ⟨t, ht, hrelated⟩ := h.initially _ hinit
    exact ⟨t, .start ht, hrelated⟩
  | next label _ hstep ih =>
    obtain ⟨t, ht, hrelated⟩ := ih
    obtain ⟨t', hleads, hrelated'⟩ := h.preserved _ label _ t hrelated hstep
    exact ⟨t', ht.leads hleads, hrelated'⟩

section Executable

variable (start : State) (next : State → Label → Option State)

/-- The system of one start state and an executable partial step function. -/
def ofFunction : LabelledSystem State Label where
  initial s := s = start
  step s label t := next s label = some t

/-- The state after a list of labels, if every step is defined. -/
def run (next : State → Label → Option State) : State → List Label → Option State
  | s, [] => some s
  | s, label :: labels => (next s label).bind fun t => run next t labels

/-- As `run`, taking only steps the guard admits. -/
def runWithin (next : State → Label → Option State) (guard : State → Label → Prop)
    [∀ s label, Decidable (guard s label)] : State → List Label → Option State
  | s, [] => some s
  | s, label :: labels =>
    if guard s label then
      (next s label).bind fun t => runWithin next guard t labels
    else none

variable {start next} {labels : List Label} {f : State → Label → State}

/-- A run of steps that a function computes is a run of the system, if its steps are. -/
theorem Reachable.of_run (hstep : ∀ s label t, next s label = some t → system.step s label t)
    (reached : system.Reachable s) (hrun : LabelledSystem.run next s labels = some t) :
    system.Reachable t := by
  induction labels generalizing s with
  | nil =>
    obtain rfl : s = t := by simpa [LabelledSystem.run] using hrun
    exact reached
  | cons label labels ih =>
    obtain ⟨u, hnext, hrest⟩ := Option.bind_eq_some_iff.mp hrun
    exact ih (reached.next label (hstep s label u hnext)) hrest

theorem Reachable.run (reached : (ofFunction start next).Reachable s)
    (hrun : LabelledSystem.run next s labels = some t) :
    (ofFunction start next).Reachable t :=
  reached.of_run (fun _ _ _ hnext => hnext) hrun

/-- Where a function computes steps of the system, its folds are runs. -/
theorem Reachable.foldl (hstep : ∀ s, ∀ label ∈ labels, system.step s label (f s label))
    (reached : system.Reachable s) : system.Reachable (labels.foldl f s) := by
  induction labels generalizing s with
  | nil => exact reached
  | cons label labels ih =>
    refine ih (fun s label hlabel => hstep s label (List.mem_cons_of_mem _ hlabel)) ?_
    exact reached.next label (hstep s label List.mem_cons_self)

/-- Steps that the guard admits and the function defines are steps of the system, so a
guarded run stays among its reachable states. -/
theorem Reachable.of_runWithin [∀ s label, Decidable (guard s label)]
    (hstep : ∀ s label t, guard s label → next s label = some t → system.step s label t)
    (reached : system.Reachable s)
    (hrun : LabelledSystem.runWithin next guard s labels = some t) : system.Reachable t := by
  induction labels generalizing s with
  | nil =>
    obtain rfl : s = t := by simpa [LabelledSystem.runWithin] using hrun
    exact reached
  | cons label labels ih =>
    by_cases hguard : guard s label
    · rw [LabelledSystem.runWithin, if_pos hguard] at hrun
      obtain ⟨u, hnext, hrest⟩ := Option.bind_eq_some_iff.mp hrun
      exact ih (.next label reached (hstep s label u hguard hnext)) hrest
    · rw [LabelledSystem.runWithin, if_neg hguard] at hrun
      cases hrun

/-- Where every step is defined, a guarded run that goes through ends in the fold. -/
theorem runWithin_total [∀ s label, Decidable (guard s label)]
    (h : (LabelledSystem.runWithin (fun s label => some (f s label)) guard s labels).isSome) :
    LabelledSystem.runWithin (fun s label => some (f s label)) guard s labels =
      some (labels.foldl f s) := by
  induction labels generalizing s with
  | nil => rfl
  | cons label labels ih =>
    rw [LabelledSystem.runWithin] at h ⊢
    split at h
    case isTrue hguard =>
      rw [if_pos hguard]
      exact ih h
    case isFalse => cases h

theorem Reachable.runWithin [∀ s label, Decidable (guard s label)]
    (reached : ((ofFunction start next).restrict guard).Reachable s)
    (hrun : LabelledSystem.runWithin next guard s labels = some t) :
    ((ofFunction start next).restrict guard).Reachable t :=
  have hstep : ∀ s label t, guard s label → next s label = some t →
      ((ofFunction start next).restrict guard).step s label t :=
    fun _ _ _ hguard hnext => ⟨hguard, hnext⟩
  reached.of_runWithin hstep hrun

end Executable

end LabelledSystem

end VeilKnit.Library
