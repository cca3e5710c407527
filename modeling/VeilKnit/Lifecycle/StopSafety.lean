import VeilKnit.Lifecycle.Stop

/-!
# What a stop guarantees

A group that ends in time without a task that fails to join has an outcome for every hook, and the
next group runs only after outcomes that allow it. A task that fails to join, because its hook
panics while it is dropped at its limit, leaves no outcome at all: nothing that is decided from the
outcomes takes notice of it.

In the bench the watchdog does not end the process. A stop that it has abandoned with nothing but
clean outcomes so far is recorded as clean too.
-/

namespace VeilKnit.Lifecycle

/-- An outcome after which the node may be torn down. -/
def Hook.SettledBy (hook : Hook) (outcome : HookOutcome) : Prop :=
  outcome.id = hook.id ∧ (outcome.result = .overran → hook.continueAfterTimeout = true)

namespace Stop

variable (s : Stop)

/-- Every hook has an outcome, and none is listed as running. -/
def Accounted : Prop :=
  (∀ hook ∈ s.hooks, ∃ outcome ∈ s.run.outcomes, outcome.id = hook.id) ∧ s.run.running = []

/-- A stop that starts the teardown only after the hooks before it are settled, has one outcome
for each hook of a group that ran, and comes to a clean end only with everything accounted for. -/
structure Safe : Prop where
  teardown : ∀ before after id, s.run.events = before ++ .started id :: after →
    (∃ hook ∈ s.hooks, hook.id = id ∧ hook.tier = .teardown) →
    ∀ hook ∈ s.hooks, hook.tier ∈ [Tier.intake, .announce, .nodeDependent] →
      ∃ outcome, .outcome outcome ∈ before ∧ hook.SettledBy outcome
  once : ∀ tier ∈ s.run.ran, ∀ hook ∈ s.hooks, hook.tier = tier →
    (s.run.outcomes.map (·.id)).count hook.id = 1
  disarmed : s.run.watchdogLeftArmed = false → s.Accounted
  clean : s.removesRecord = true → s.Accounted

/-! ## The condition -/

def Runs (tier : Tier) : Prop := s.wholeTierSkip tier = none ∧ s.runnable tier ≠ []

def EndsInTime (tier : Tier) : Prop := ∀ hook ∈ s.runnable tier, s.isOutstanding hook = false

def AllJoined (tier : Tier) : Prop := ∀ hook ∈ s.runnable tier, s.joinedResult hook ≠ none

def Blocks (tier : Tier) : Prop :=
  tier.timeoutBlocksLaterTiers = true ∧ ∃ hook ∈ s.runnable tier,
    s.joinedResult hook = some .overran ∧ hook.continueAfterTimeout = false

def GoesOn (tier : Tier) : Prop :=
  s.Runs tier → s.EndsInTime tier ∧ ¬ s.Blocks tier ∧ s.abandons tier = false

def EndsClean (tier : Tier) : Prop :=
  s.Runs tier → s.EndsInTime tier ∧ ∀ hook ∈ s.runnable tier, s.joinedResult hook = some .ok

/-- In every group that is reached and ends in time, no task fails to join; and the bench does not
abandon a stop that is clean so far with hooks still to come. -/
def Joins : Prop :=
  ∀ earlier tier later, Tier.order = earlier ++ tier :: later → (∀ t ∈ earlier, s.GoesOn t) →
    s.Runs tier → s.EndsInTime tier → s.AllJoined tier ∧
      (s.abandons tier = true → s.hasDataDir = true →
        (∀ t ∈ earlier ++ [tier], s.EndsClean t) → ∀ hook ∈ s.hooks, hook.tier ∉ later)

/-! ## Outcomes of a group -/

variable {s}

@[simp]
theorem outcomesOf_append (a b : List Event) :
    outcomesOf (a ++ b) = outcomesOf a ++ outcomesOf b := List.filterMap_append ..

variable {α : Type}

@[simp]
theorem outcomesOf_outcomes (f : α → HookOutcome) (l : List α) :
    outcomesOf (l.map fun a => .outcome (f a)) = l.map f := by
  induction l with
  | nil => rfl
  | cons a l ih => exact congrArg (f a :: ·) ih

@[simp]
theorem outcomesOf_starts (f : α → HookId) (l : List α) :
    outcomesOf (l.map fun a => .started (f a)) = [] := by
  induction l with
  | nil => rfl
  | cons a l ih => exact ih

variable {outcome : HookOutcome}

theorem mem_outcomesOf {events : List Event} :
    outcome ∈ outcomesOf events ↔ .outcome outcome ∈ events := by
  rw [outcomesOf, List.mem_filterMap]
  constructor
  · rintro ⟨event, hmem, hevent⟩
    cases event with
    | started id => cases hevent
    | outcome o =>
      cases hevent
      exact hmem
  · exact fun hmem => ⟨_, hmem, rfl⟩

variable {tier : Tier} {hook : Hook}

theorem mem_tierHooks : hook ∈ s.tierHooks tier ↔ hook ∈ s.hooks ∧ hook.tier = tier := by
  simp [tierHooks]

theorem eq_of_id_eq {a b : Hook} (ha : a ∈ s.hooks) (hb : b ∈ s.hooks) (h : a.id = b.id) :
    a = b := List.inj_on_of_nodup_map s.unique ha hb h

theorem mem_runnable (h : hook ∈ s.runnable tier) : hook ∈ s.tierHooks tier := by
  unfold runnable at h
  split_ifs at h
  · exact List.mem_of_mem_filter h
  · exact h

/-- A hook of a group is left out or can run. -/
theorem tierHooks_perm (tier : Tier) :
    (s.leftOut tier ++ s.runnable tier).Perm (s.tierHooks tier) := by
  unfold leftOut runnable
  split_ifs
  · exact List.filter_append_perm _ _
  · exact List.Perm.refl _

variable {hooks : List Hook}

theorem mem_joinedOutcomes : outcome ∈ s.joinedOutcomes hooks ↔ ∃ hook ∈ hooks, ∃ result,
      s.joinedResult hook = some result ∧ outcome = s.outcomeOf hook result := by
  rw [joinedOutcomes, List.mem_filterMap]
  constructor
  · rintro ⟨hook, hmem, hsome⟩
    obtain ⟨result, hresult, rfl⟩ := Option.map_eq_some_iff.mp hsome
    exact ⟨hook, (s.arrival_perm hooks).mem_iff.mp hmem, result, hresult, rfl⟩
  · rintro ⟨hook, hmem, result, hresult, rfl⟩
    exact ⟨hook, (s.arrival_perm hooks).mem_iff.mpr hmem, by rw [hresult]; rfl⟩

/-- The hooks with an outcome, in the order in which they are joined. -/
theorem map_id_joinedOutcomes (hooks : List Hook) : (s.joinedOutcomes hooks).map (·.id) =
      ((s.arrival hooks).filter fun hook => (s.joinedResult hook).isSome).map (·.id) := by
  unfold joinedOutcomes
  induction s.arrival hooks with
  | nil => rfl
  | cons hook hooks ih =>
    cases hresult : s.joinedResult hook with
    | none => simp [hresult, ih]
    | some result => simp [hresult, ih, outcomeOf]

/-- The outcomes of a group that runs. -/
def runOutcomes (s : Stop) (hooks : List Hook) : List HookOutcome :=
  s.joinedOutcomes hooks ++
    if hooks.any s.isOutstanding then (s.unjoined hooks).map fun hook => s.outcomeOf hook .overran
    else []

theorem outcomesOf_runTier (tier : Tier) (hooks : List Hook) :
    outcomesOf (s.runTier tier hooks).events = s.runOutcomes hooks := by
  unfold runTier runOutcomes
  have hjoined := outcomesOf_outcomes id (s.joinedOutcomes hooks)
  simp only [id_eq] at hjoined
  split_ifs
  · simp [hjoined]
  · simp [hjoined]

theorem outcomesOf_stepTier (tier : Tier) : outcomesOf (s.stepTier tier).events =
      match s.wholeTierSkip tier with
      | some reason => (s.tierHooks tier).map fun hook => skippedOutcome hook reason
      | none => ((s.leftOut tier).map fun hook => skippedOutcome hook "restart") ++
          s.runOutcomes (s.runnable tier) := by
  unfold stepTier
  cases s.wholeTierSkip tier with
  | some reason => simp
  | none =>
    split_ifs with hempty
    · have hnone : s.joinedOutcomes [] = [] := by
        rw [joinedOutcomes, List.perm_nil.mp (s.arrival_perm [])]
        rfl
      simp [hempty, runOutcomes, hnone]
    · simp [outcomesOf_runTier]

/-- The identities of the outcomes are those of the hooks, unless a task has failed to join. -/
theorem map_id_runOutcomes (hooks : List Hook) : ((s.runOutcomes hooks).map (·.id)).Sublist
      ((((s.arrival hooks).filter fun hook => (s.joinedResult hook).isSome) ++
        s.unjoined hooks).map (·.id)) := by
  unfold runOutcomes
  rw [List.map_append, List.map_append, map_id_joinedOutcomes]
  split_ifs
  · rw [List.map_map]
    exact List.Sublist.refl _
  · simp

theorem perm_joined_unjoined (hooks : List Hook) :
    (((s.arrival hooks).filter fun hook => (s.joinedResult hook).isSome) ++
      s.unjoined hooks).Perm hooks := by
  have hjoined := (s.arrival_perm hooks).filter fun hook => (s.joinedResult hook).isSome
  have hunjoined := List.mergeSort_perm
    (hooks.filter fun hook => (s.joinedResult hook).isNone) fun a b => a.id ≤ b.id
  refine (hjoined.append hunjoined).trans ?_
  have hsplit := List.filter_append_perm (fun hook => (s.joinedResult hook).isSome) hooks
  simpa using hsplit

/-! ## Identities of outcomes -/

theorem unjoined_eq_nil (h : ∀ hook ∈ hooks, s.joinedResult hook ≠ none) :
    s.unjoined hooks = [] := by
  have hfilter : (hooks.filter fun hook => (s.joinedResult hook).isNone) = [] := by
    rw [List.filter_eq_nil_iff]
    intro hook hmem hnone
    exact h hook hmem (Option.isNone_iff_eq_none.mp hnone)
  rw [unjoined, hfilter, List.mergeSort_nil]

theorem mem_unjoined : hook ∈ s.unjoined hooks ↔ hook ∈ hooks ∧ s.joinedResult hook = none := by
  rw [unjoined, List.mem_mergeSort, List.mem_filter, Option.isNone_iff_eq_none]

theorem ids_stepTier (tier : Tier) : ((outcomesOf (s.stepTier tier).events).map (·.id)).Subperm
      ((s.tierHooks tier).map (·.id)) := by
  rw [outcomesOf_stepTier]
  cases s.wholeTierSkip tier with
  | some reason =>
    rw [List.map_map]
    exact (List.Sublist.refl _).subperm
  | none =>
    rw [List.map_append, List.map_map]
    have hrun : ((s.runOutcomes (s.runnable tier)).map (·.id)).Subperm
        ((s.runnable tier).map (·.id)) :=
      (map_id_runOutcomes _).subperm.trans ((perm_joined_unjoined _).map _).subperm
    have hall := (List.subperm_append_left ((s.leftOut tier).map (·.id))).mpr hrun
    rw [← List.map_append] at hall
    exact hall.trans ((tierHooks_perm tier).map _).subperm

theorem exists_hook_of_mem (h : outcome ∈ outcomesOf (s.stepTier tier).events) :
    ∃ hook ∈ s.tierHooks tier, hook.id = outcome.id :=
  List.mem_map.mp ((ids_stepTier tier).subset (List.mem_map_of_mem h))

theorem exists_hook_of_started {id : HookId} (h : .started id ∈ (s.stepTier tier).events) :
    ∃ hook ∈ s.tierHooks tier, hook.id = id := by
  have hstart : ∀ {α : Type} (f : α → HookOutcome) (l : List α),
      Event.started id ∉ l.map fun a => .outcome (f a) := by
    intro α f l hmem
    obtain ⟨_, _, heq⟩ := List.mem_map.mp hmem
    cases heq
  have hrun : ∀ hooks, .started id ∈ (s.runTier tier hooks).events → ∃ hook ∈ hooks,
      hook.id = id := by
    intro hooks hmem
    have hcases : Event.started id ∈ hooks.map fun hook => Event.started hook.id := by
      unfold runTier at hmem
      dsimp only at hmem
      have hjoined := hstart (fun outcome => outcome) (s.joinedOutcomes hooks)
      split_ifs at hmem
      · rcases List.mem_append.mp hmem with h | h
        · exact h
        · rcases List.mem_append.mp h with h | h
          · exact absurd h hjoined
          · exact absurd h (hstart _ _)
      · rcases List.mem_append.mp hmem with h | h
        · exact h
        · exact absurd h hjoined
    obtain ⟨hook, hmem, heq⟩ := List.mem_map.mp hcases
    exact ⟨hook, hmem, Event.started.inj heq⟩
  unfold stepTier at h
  cases hskip : s.wholeTierSkip tier with
  | some reason =>
    rw [hskip] at h
    exact absurd h (hstart _ _)
  | none =>
    rw [hskip] at h
    dsimp only at h
    split_ifs at h
    · exact absurd h (hstart _ _)
    · rcases List.mem_append.mp h with h | h
      · exact absurd h (hstart _ _)
      · obtain ⟨hook, hmem, heq⟩ := hrun _ h
        exact ⟨hook, mem_runnable hmem, heq⟩

/-! ## Whether the next group runs -/

theorem continueAfterTimeout_eq (h : hook ∈ s.runnable tier) :
    continueAfterTimeout (s.runnable tier) hook.id = hook.continueAfterTimeout := by
  unfold continueAfterTimeout
  cases hfind : (s.runnable tier).find? (·.id = hook.id) with
  | none =>
    have := List.find?_eq_none.mp hfind hook h
    simp at this
  | some other =>
    have hid : other.id = hook.id := by simpa using List.find?_some hfind
    have hother := mem_tierHooks.mp (mem_runnable (List.mem_of_find?_eq_some hfind))
    have hhook := mem_tierHooks.mp (mem_runnable h)
    rw [eq_of_id_eq hother.1 hhook.1 hid]
    rfl

theorem blockingTimeout_iff : s.blockingTimeout tier (s.runnable tier) = true ↔ s.Blocks tier := by
  unfold blockingTimeout Blocks
  rw [Bool.and_eq_true, List.any_eq_true]
  refine and_congr_right fun _ => ⟨?_, ?_⟩
  · rintro ⟨outcome, hmem, hblocks⟩
    obtain ⟨hook, hhook, result, hresult, rfl⟩ := mem_joinedOutcomes.mp hmem
    simp only [outcomeOf, Bool.and_eq_true, Bool.not_eq_true',
      continueAfterTimeout_eq hhook] at hblocks
    exact ⟨hook, hhook, by rw [hresult, of_decide_eq_true hblocks.1], hblocks.2⟩
  · rintro ⟨hook, hhook, hresult, hcontinue⟩
    refine ⟨s.outcomeOf hook .overran, mem_joinedOutcomes.mpr ⟨hook, hhook, _, hresult, rfl⟩, ?_⟩
    simp [outcomeOf, continueAfterTimeout_eq hhook, hcontinue]

theorem any_isOutstanding_iff :
    (s.runnable tier).any s.isOutstanding = true ↔ ¬ s.EndsInTime tier := by
  simp [EndsInTime]

/-- The events of a group whose hooks run. -/
theorem stepTier_of_runs (h : s.Runs tier) : (s.stepTier tier).ran = true ∧
    (s.stepTier tier).running = (s.unjoined (s.runnable tier)).map (·.id) ∧
    ((s.stepTier tier).stops = true ↔
      ¬ s.EndsInTime tier ∨ s.Blocks tier ∨ s.abandons tier = true) := by
  have hstep : s.stepTier tier =
      { s.runTier tier (s.runnable tier) with
        events := ((s.leftOut tier).map fun hook => Event.outcome (skippedOutcome hook "restart"))
          ++ (s.runTier tier (s.runnable tier)).events } := by
    unfold stepTier
    rw [h.1]
    rw [if_neg h.2]
  rw [hstep]
  unfold runTier
  split_ifs with hout
  · exact ⟨rfl, rfl, iff_of_true rfl (.inl (any_isOutstanding_iff.mp hout))⟩
  · refine ⟨rfl, rfl, ?_⟩
    rw [any_isOutstanding_iff, not_not] at hout
    rw [Bool.or_eq_true, blockingTimeout_iff]
    simp [hout]

theorem stepTier_of_not_runs (h : ¬ s.Runs tier) :
    (s.stepTier tier).ran = false ∧ (s.stepTier tier).running = [] ∧
    (s.stepTier tier).stops = false := by
  unfold stepTier
  cases hskip : s.wholeTierSkip tier with
  | some reason => exact ⟨rfl, rfl, rfl⟩
  | none =>
    rw [if_pos (by by_contra hne; exact h ⟨hskip, hne⟩)]
    exact ⟨rfl, rfl, rfl⟩

theorem stops_iff : (s.stepTier tier).stops = true ↔
      s.Runs tier ∧ (¬ s.EndsInTime tier ∨ s.Blocks tier ∨ s.abandons tier = true) := by
  by_cases hruns : s.Runs tier
  · rw [(stepTier_of_runs hruns).2.2, and_iff_right hruns]
  · simp [stepTier_of_not_runs hruns, hruns]

theorem stops_eq_false_iff : (s.stepTier tier).stops = false ↔ s.GoesOn tier := by
  rw [← Bool.not_eq_true, stops_iff]
  unfold GoesOn
  simp only [not_and, not_or, not_not, Bool.not_eq_true]

theorem ran_iff : (s.stepTier tier).ran = true ↔ s.Runs tier := by
  by_cases hruns : s.Runs tier
  · simp [stepTier_of_runs hruns, hruns]
  · simp [stepTier_of_not_runs hruns, hruns]

/-! ## What the outcomes of a group say -/

/-- The outcomes of a group whose hooks run. -/
theorem outcomesOf_of_runs (h : s.Runs tier) : outcomesOf (s.stepTier tier).events =
      ((s.leftOut tier).map fun hook => skippedOutcome hook "restart") ++
        s.runOutcomes (s.runnable tier) := by
  rw [outcomesOf_stepTier, h.1]

theorem runOutcomes_of_endsInTime (h : s.EndsInTime tier) :
    s.runOutcomes (s.runnable tier) = s.joinedOutcomes (s.runnable tier) := by
  unfold runOutcomes
  rw [if_neg (fun hout => any_isOutstanding_iff.mp hout h), List.append_nil]

theorem mem_of_left (hruns : s.Runs tier) (h : hook ∈ s.leftOut tier) :
    skippedOutcome hook "restart" ∈ outcomesOf (s.stepTier tier).events := by
  rw [outcomesOf_of_runs hruns]
  exact List.mem_append_left _ (List.mem_map_of_mem h)

variable {result : HookResult}

theorem mem_of_joined (hruns : s.Runs tier)
    (h : hook ∈ s.runnable tier) (hresult : s.joinedResult hook = some result) :
    s.outcomeOf hook result ∈ outcomesOf (s.stepTier tier).events := by
  rw [outcomesOf_of_runs hruns]
  exact List.mem_append_right _
    (List.mem_append_left _ (mem_joinedOutcomes.mpr ⟨hook, h, result, hresult, rfl⟩))

theorem mem_of_unjoined (hruns : s.Runs tier)
    (h : hook ∈ s.runnable tier) (hnone : s.joinedResult hook = none)
    (hends : ¬ s.EndsInTime tier) :
    s.outcomeOf hook .overran ∈ outcomesOf (s.stepTier tier).events := by
  rw [outcomesOf_of_runs hruns]
  refine List.mem_append_right _ (List.mem_append_right _ ?_)
  rw [if_pos (any_isOutstanding_iff.mpr hends)]
  exact List.mem_map.mpr ⟨hook, mem_unjoined.mpr ⟨h, hnone⟩, rfl⟩

/-- A group that does not run leaves its hooks out, all of them. -/
theorem mem_of_not_runs (hruns : ¬ s.Runs tier) (h : hook ∈ s.tierHooks tier) :
    ∃ reason, skippedOutcome hook reason ∈ outcomesOf (s.stepTier tier).events := by
  rw [outcomesOf_stepTier]
  cases hskip : s.wholeTierSkip tier with
  | some reason => exact ⟨reason, List.mem_map_of_mem h⟩
  | none =>
    have hempty : s.runnable tier = [] := by
      by_contra hne
      exact hruns ⟨hskip, hne⟩
    have hleft : hook ∈ s.leftOut tier := by
      simpa [hempty] using (tierHooks_perm tier).mem_iff.mpr h
    exact ⟨"restart", List.mem_append_left _ (List.mem_map_of_mem hleft)⟩

theorem left_or_runnable (h : hook ∈ s.tierHooks tier) :
    hook ∈ s.leftOut tier ∨ hook ∈ s.runnable tier :=
  List.mem_append.mp ((tierHooks_perm tier).mem_iff.mpr h)

/-- Every hook of the group has an outcome, unless one fails to join in a group that ends in
time. -/
theorem exists_outcome
    (hjoins : s.Runs tier → s.EndsInTime tier → s.AllJoined tier) (h : hook ∈ s.tierHooks tier) :
    ∃ outcome ∈ outcomesOf (s.stepTier tier).events, outcome.id = hook.id := by
  by_cases hruns : s.Runs tier
  · rcases left_or_runnable h with hleft | hrunnable
    · exact ⟨_, mem_of_left hruns hleft, rfl⟩
    · cases hresult : s.joinedResult hook with
      | some result => exact ⟨_, mem_of_joined hruns hrunnable hresult, rfl⟩
      | none =>
        have hends : ¬ s.EndsInTime tier := fun hends => hjoins hruns hends hook hrunnable hresult
        exact ⟨_, mem_of_unjoined hruns hrunnable hresult hends, rfl⟩
  · obtain ⟨reason, hmem⟩ := mem_of_not_runs hruns h
    exact ⟨_, hmem, rfl⟩

/-- After a group that lets the others go on, its hooks are settled. -/
theorem exists_settled (hblocks : tier.timeoutBlocksLaterTiers = true)
    (hjoins : s.Runs tier → s.EndsInTime tier → s.AllJoined tier) (hgoes : s.GoesOn tier)
    (h : hook ∈ s.tierHooks tier) :
    ∃ outcome ∈ outcomesOf (s.stepTier tier).events, hook.SettledBy outcome := by
  by_cases hruns : s.Runs tier
  · rcases left_or_runnable h with hleft | hrunnable
    · exact ⟨_, mem_of_left hruns hleft, rfl, fun hoverran => by cases hoverran⟩
    obtain ⟨hends, hnot, -⟩ := hgoes hruns
    cases hresult : s.joinedResult hook with
    | some result =>
      refine ⟨_, mem_of_joined hruns hrunnable hresult, rfl, fun hoverran => ?_⟩
      have hover : result = .overran := hoverran
      by_contra hcontinue
      exact hnot ⟨hblocks, hook, hrunnable, by rw [hresult, hover], Bool.eq_false_iff.mpr hcontinue⟩
    | none => exact absurd hresult (hjoins hruns hends hook hrunnable)
  · obtain ⟨reason, hmem⟩ := mem_of_not_runs hruns h
    exact ⟨_, hmem, rfl, fun hoverran => by cases hoverran⟩

/-- The outcome of a hook is one of its group. -/
theorem tier_eq_of_outcome
    (hhook : hook ∈ s.hooks) (h : outcome ∈ outcomesOf (s.stepTier tier).events)
    (hid : outcome.id = hook.id) : hook.tier = tier := by
  obtain ⟨other, hother, hotherId⟩ := exists_hook_of_mem h
  obtain ⟨hmem, htier⟩ := mem_tierHooks.mp hother
  rw [← eq_of_id_eq hmem hhook (hotherId.trans hid), htier]

/-- A hook whose task fails to join in a group that ends in time has no outcome. -/
theorem joined_of_outcome
    (hruns : s.Runs tier) (hends : s.EndsInTime tier) (hhook : hook ∈ s.runnable tier)
    (h : outcome ∈ outcomesOf (s.stepTier tier).events) (hid : outcome.id = hook.id) :
    s.joinedResult hook ≠ none := by
  have hmem : hook ∈ s.hooks := (mem_tierHooks.mp (mem_runnable hhook)).1
  rw [outcomesOf_of_runs hruns, runOutcomes_of_endsInTime hends] at h
  rcases List.mem_append.mp h with hleft | hjoined
  · obtain ⟨other, hother, rfl⟩ := List.mem_map.mp hleft
    have hotherHooks := (tierHooks_perm tier).mem_iff.mp (List.mem_append_left _ hother)
    obtain rfl := eq_of_id_eq (mem_tierHooks.mp hotherHooks).1 hmem hid
    have hnodup : (s.leftOut tier ++ s.runnable tier).Nodup :=
      (tierHooks_perm tier).nodup_iff.mpr ((List.Nodup.of_map _ s.unique).filter _)
    exact absurd hhook ((List.nodup_append.mp hnodup).2.2 _ hother _ · rfl)
  · obtain ⟨other, hother, result, hresult, rfl⟩ := mem_joinedOutcomes.mp hjoined
    have hotherHooks := (mem_tierHooks.mp (mem_runnable hother)).1
    obtain rfl := eq_of_id_eq hotherHooks hmem hid
    rw [hresult]
    exact Option.some_ne_none _

theorem running_eq_nil
    (hjoins : s.Runs tier → s.AllJoined tier) : (s.stepTier tier).running = [] := by
  by_cases hruns : s.Runs tier
  · rw [(stepTier_of_runs hruns).2.1, unjoined_eq_nil (hjoins hruns), List.map_nil]
  · exact (stepTier_of_not_runs hruns).2.1

theorem hookResult_clean {poll : Poll} {elapsed hookBudget : Nat}
    (h : (hookResult poll elapsed hookBudget).isClean = true) :
    hookResult poll elapsed hookBudget = .ok := by
  cases poll with
  | finished =>
    unfold hookResult at h ⊢
    dsimp only at h ⊢
    split_ifs at h ⊢ with hlate
    · cases h
    · rfl
  | error error => cases h
  | panicked payload => cases h
  | timedOut => cases h

theorem joinedResult_clean
    (hresult : s.joinedResult hook = some result) (h : result.isClean = true) : result = .ok := by
  unfold joinedResult at hresult
  cases hend : (s.taskEnd hook.id).joined with
  | outcome poll =>
    rw [hend] at hresult
    cases hresult
    exact hookResult_clean h
  | joinError => rw [hend] at hresult; cases hresult
  | outstanding => rw [hend] at hresult; cases hresult

theorem exists_outstanding (h : ¬ s.EndsInTime tier) :
    ∃ hook ∈ s.runnable tier, s.joinedResult hook = none := by
  obtain ⟨hook, hmem, hout⟩ := List.any_eq_true.mp (any_isOutstanding_iff.mpr h)
  refine ⟨hook, hmem, ?_⟩
  unfold isOutstanding at hout
  unfold joinedResult
  cases hend : (s.taskEnd hook.id).joined with
  | outcome poll => rw [hend] at hout; cases hout
  | joinError => rfl
  | outstanding => rfl

/-- Clean outcomes are those of a group that ends clean. -/
theorem endsClean_of_outcomes (hjoins : s.Runs tier → s.EndsInTime tier → s.AllJoined tier)
    (h : ∀ outcome ∈ outcomesOf (s.stepTier tier).events, outcome.result.isClean = true) :
    s.EndsClean tier := by
  intro hruns
  have hends : s.EndsInTime tier := by
    by_contra hnot
    obtain ⟨hook, hmem, hnone⟩ := exists_outstanding hnot
    have hclean := h _ (mem_of_unjoined hruns hmem hnone hnot)
    simp [outcomeOf, HookResult.isClean] at hclean
  refine ⟨hends, fun hook hmem => ?_⟩
  cases hresult : s.joinedResult hook with
  | none => exact absurd hresult (hjoins hruns hends hook hmem)
  | some result => rw [joinedResult_clean hresult (h _ (mem_of_joined hruns hmem hresult))]

theorem outcomes_of_endsClean (h : s.EndsClean tier) :
    ∀ outcome ∈ outcomesOf (s.stepTier tier).events, outcome.result.isClean = true := by
  intro outcome hmem
  by_cases hruns : s.Runs tier
  · obtain ⟨hends, hall⟩ := h hruns
    rw [outcomesOf_of_runs hruns, runOutcomes_of_endsInTime hends] at hmem
    rcases List.mem_append.mp hmem with hleft | hjoined
    · obtain ⟨_, _, rfl⟩ := List.mem_map.mp hleft
      rfl
    · obtain ⟨hook, hhook, result, hresult, rfl⟩ := mem_joinedOutcomes.mp hjoined
      rw [hall hook hhook] at hresult
      cases hresult
      rfl
  rw [outcomesOf_stepTier] at hmem
  cases hskip : s.wholeTierSkip tier with
  | some reason =>
    rw [hskip] at hmem
    obtain ⟨_, _, rfl⟩ := List.mem_map.mp hmem
    rfl
  | none =>
    have hempty : s.runnable tier = [] := by
      by_contra hne
      exact hruns ⟨hskip, hne⟩
    have hnone : s.runOutcomes [] = [] := by
      have hnil : s.arrival [] = [] := List.perm_nil.mp (s.arrival_perm [])
      simp [runOutcomes, joinedOutcomes, hnil]
    rw [hskip, hempty, hnone, List.append_nil] at hmem
    obtain ⟨_, _, rfl⟩ := List.mem_map.mp hmem
    rfl

/-! ## The groups that are reached -/

/-- The groups up to the first that stops the others. -/
def reached (s : Stop) : List Tier → List Tier
  | [] => []
  | tier :: tiers => tier :: if (s.stepTier tier).stops then [] else reached s tiers

theorem runTiers_eq (tiers : List Tier) : s.runTiers tiers =
      { events := (s.reached tiers).flatMap fun tier => (s.stepTier tier).events
        ran := (s.reached tiers).filter fun tier => (s.stepTier tier).ran
        running := (s.reached tiers).flatMap fun tier => (s.stepTier tier).running
        watchdogLeftArmed := (s.reached tiers).any fun tier => (s.stepTier tier).stops } := by
  induction tiers with
  | nil => rfl
  | cons tier tiers ih =>
    unfold runTiers reached
    rw [ih]
    dsimp only
    split_ifs with hstops hran hran
    · simp [hstops, hran]
    · simp [hstops, hran]
    · simp [hstops, hran]
    · simp [hstops, hran]

variable {earlier later : List Tier}

theorem reached_append (rest : List Tier) (h : ∀ t ∈ earlier, s.GoesOn t) :
    s.reached (earlier ++ rest) = earlier ++ s.reached rest := by
  induction earlier with
  | nil => rfl
  | cons tier earlier ih =>
    rw [List.cons_append, reached, stops_eq_false_iff.mpr (h tier List.mem_cons_self),
      List.cons_append,
      ← ih fun t ht => h t (List.mem_cons_of_mem _ ht)]
    rfl

/-- The groups all go on, or one of them is the last that is reached. -/
theorem reached_cases (tiers : List Tier) : (s.reached tiers = tiers ∧ ∀ t ∈ tiers, s.GoesOn t) ∨
    ∃ earlier tier later, tiers = earlier ++ tier :: later ∧ s.reached tiers = earlier ++ [tier] ∧
      (∀ t ∈ earlier, s.GoesOn t) ∧ (s.stepTier tier).stops = true := by
  induction tiers with
  | nil => exact .inl ⟨rfl, fun t ht => nomatch ht⟩
  | cons tier tiers ih =>
    cases hstops : (s.stepTier tier).stops with
    | true =>
      refine .inr ⟨[], tier, tiers, rfl, by simp [reached, hstops], ?_, hstops⟩
      exact fun t ht => nomatch ht
    | false =>
      have hgoes := stops_eq_false_iff.mp hstops
      rcases ih with ⟨hreached, hall⟩ | ⟨earlier, last, later, rfl, hreached, hall, hlast⟩
      · refine .inl ⟨by simp [reached, hstops, hreached], fun t ht => ?_⟩
        rcases List.mem_cons.mp ht with rfl | ht
        · exact hgoes
        · exact hall t ht
      · refine .inr ⟨tier :: earlier, last, later, rfl, by simp [reached, hstops, hreached],
          fun t ht => ?_, hlast⟩
        rcases List.mem_cons.mp ht with rfl | ht
        · exact hgoes
        · exact hall t ht

theorem mem_outcomes_iff : outcome ∈ s.run.outcomes ↔
      ∃ tier ∈ s.reached Tier.order, outcome ∈ outcomesOf (s.stepTier tier).events := by
  unfold Stopped.outcomes run
  rw [runTiers_eq, mem_outcomesOf]
  simp only [List.mem_flatMap, mem_outcomesOf]

theorem outcomesOf_flatMap (f : Tier → List Event) (tiers : List Tier) :
    outcomesOf (tiers.flatMap f) = tiers.flatMap fun tier => outcomesOf (f tier) := by
  induction tiers with
  | nil => rfl
  | cons tier tiers ih => rw [List.flatMap_cons, outcomesOf_append, ih, List.flatMap_cons]

theorem reached_sublist (tiers : List Tier) : (s.reached tiers).Sublist tiers := by
  induction tiers with
  | nil => exact .slnil
  | cons tier tiers ih =>
    unfold reached
    split_ifs
    · exact (List.nil_sublist tiers).cons_cons tier
    · exact ih.cons_cons tier

theorem order_nodup : Tier.order.Nodup := by decide

theorem mem_order (tier : Tier) : tier ∈ Tier.order := by cases tier <;> decide

/-- No hook has two outcomes. -/
theorem nodup_outcomes : (s.run.outcomes.map (·.id)).Nodup := by
  unfold Stopped.outcomes run
  rw [runTiers_eq, outcomesOf_flatMap, List.map_flatMap, List.nodup_flatMap]
  constructor
  · intro tier _
    obtain ⟨l, hperm, hsub⟩ := ids_stepTier (s := s) tier
    have hids : ((s.tierHooks tier).map (·.id)).Nodup :=
      s.unique.sublist (List.filter_sublist.map _)
    exact hperm.nodup_iff.mp (hids.sublist hsub)
  refine (order_nodup.sublist (reached_sublist _)).imp ?_
  intro a b hne id ha hb
  obtain ⟨oa, hoa, rfl⟩ := List.mem_map.mp ha
  obtain ⟨ob, hob, hid⟩ := List.mem_map.mp hb
  obtain ⟨hook, hhook, hhookId⟩ := exists_hook_of_mem hoa
  obtain ⟨hmem, htier⟩ := mem_tierHooks.mp hhook
  exact hne (htier.symm.trans (tier_eq_of_outcome hmem hob (hid.trans hhookId.symm)))

/-! ## The three guarantees -/

/-- What an element stands after in one list is before it in any cut of it. -/
theorem mem_before {l r before after : List α} {x : α}
    (h : l ++ r = before ++ x :: after) (hx : x ∉ l) : l ⊆ before := by
  rcases List.append_eq_append_iff.mp h with ⟨mid, rfl, -⟩ | ⟨mid, rfl, hmid⟩
  · exact List.subset_append_left _ _
  · cases mid with
    | nil => exact List.append_subset.mpr ⟨List.Subset.refl _, List.nil_subset _⟩
    | cons y mid =>
      obtain ⟨rfl, -⟩ := List.cons.inj hmid
      exact absurd (List.mem_append_right _ List.mem_cons_self) hx

/-- Every group that is reached, and ends in time, has joined all its tasks. -/
theorem Joins.allJoined (h : s.Joins) (hreached : tier ∈ s.reached Tier.order)
    (hruns : s.Runs tier) (hends : s.EndsInTime tier) : s.AllJoined tier := by
  have hcut : ∀ earlier later, Tier.order = earlier ++ tier :: later →
      (∀ t ∈ earlier, s.GoesOn t) → s.AllJoined tier :=
    fun earlier later horder hall => (h earlier tier later horder hall hruns hends).1
  rcases reached_cases (s := s) Tier.order with
    ⟨-, hall⟩ | ⟨earlier, last, later, horder, heq, hall, -⟩
  · obtain ⟨earlier, later, horder⟩ := List.append_of_mem (mem_order tier)
    exact hcut earlier later horder fun t ht => hall t (horder ▸ List.mem_append_left _ ht)
  rw [heq] at hreached
  rcases List.mem_append.mp hreached with hmem | hmem
  · obtain ⟨a, b, rfl⟩ := List.append_of_mem hmem
    refine hcut a (b ++ last :: later) (by rw [horder]; simp) fun t ht => ?_
    exact hall t (List.mem_append_left _ ht)
  · obtain rfl := List.mem_singleton.mp hmem
    exact hcut earlier later horder hall

theorem accounted_of_reached (hjoins : ∀ tier ∈ s.reached Tier.order, s.Runs tier →
      s.EndsInTime tier → s.AllJoined tier)
    (hends : ∀ tier ∈ s.reached Tier.order, s.Runs tier → s.EndsInTime tier)
    (htiers : ∀ hook ∈ s.hooks, hook.tier ∈ s.reached Tier.order) : s.Accounted := by
  constructor
  · intro hook hmem
    obtain ⟨outcome, houtcome, hid⟩ := exists_outcome (hjoins _ (htiers hook hmem))
      (mem_tierHooks.mpr ⟨hmem, rfl⟩)
    exact ⟨outcome, mem_outcomes_iff.mpr ⟨_, htiers hook hmem, houtcome⟩, hid⟩
  · unfold run
    rw [runTiers_eq]
    refine List.flatMap_eq_nil_iff.mpr fun tier htier => ?_
    exact running_eq_nil fun hruns => hjoins tier htier hruns (hends tier htier hruns)

/-- The groups before the teardown. -/
theorem reached_teardown (h : Tier.teardown ∈ s.reached Tier.order) :
    (∀ t ∈ [Tier.intake, .announce, .nodeDependent, .persist], s.GoesOn t) ∧
    ∃ rest, s.reached Tier.order = [Tier.intake, .announce, .nodeDependent, .persist] ++ rest := by
  have hgoes : ∀ t ∈ [Tier.intake, .announce, .nodeDependent, .persist], s.GoesOn t := by
    rcases reached_cases (s := s) Tier.order with
      ⟨-, hall⟩ | ⟨earlier, last, later, horder, heq, hall, -⟩
    · exact fun t _ => hall t (mem_order t)
    rw [heq] at h
    have hcut : [Tier.intake, .announce, .nodeDependent, .persist] ⊆ earlier := by
      rcases List.mem_append.mp h with hmem | hmem
      · obtain ⟨a, b, rfl⟩ := List.append_of_mem hmem
        rw [List.append_assoc] at horder
        have hsub := mem_before (l := [Tier.intake, .announce, .nodeDependent, .persist])
          (r := [.teardown, .after]) (x := Tier.teardown) horder (by decide)
        exact List.Subset.trans hsub (List.subset_append_left _ _)
      · obtain rfl := List.mem_singleton.mp hmem
        exact mem_before (l := [Tier.intake, .announce, .nodeDependent, .persist])
          (r := [.teardown, .after]) (x := Tier.teardown) horder (by decide)
    exact fun t ht => hall t (hcut ht)
  exact ⟨hgoes, _, reached_append [.teardown, .after] hgoes⟩

theorem Joins.teardown (h : s.Joins) {before after : List Event} {id : HookId}
    (hevents : s.run.events = before ++ .started id :: after)
    (hteardown : ∃ hook ∈ s.hooks, hook.id = id ∧ hook.tier = .teardown)
    (hhook : hook ∈ s.hooks) (htier : hook.tier ∈ [Tier.intake, .announce, .nodeDependent]) :
    ∃ outcome, .outcome outcome ∈ before ∧ hook.SettledBy outcome := by
  obtain ⟨down, hdown, rfl, hdownTier⟩ := hteardown
  -- a start with this identity is one of the teardown
  have hstarted : ∀ tier, .started down.id ∈ (s.stepTier tier).events → tier = .teardown := by
    intro tier hmem
    obtain ⟨other, hother, hid⟩ := exists_hook_of_started hmem
    obtain ⟨hmem, htier⟩ := mem_tierHooks.mp hother
    rw [← htier, eq_of_id_eq hmem hdown hid, hdownTier]
  have hrun : s.run.events =
      (s.reached Tier.order).flatMap fun tier => (s.stepTier tier).events := by
    unfold run
    rw [runTiers_eq]
  have hreached : Tier.teardown ∈ s.reached Tier.order := by
    have hmem : Event.started down.id ∈ s.run.events := by rw [hevents]; simp
    rw [hrun] at hmem
    obtain ⟨tier, htier, hstart⟩ := List.mem_flatMap.mp hmem
    rwa [hstarted tier hstart] at htier
  obtain ⟨hgoes, rest, heq⟩ := reached_teardown hreached
  rw [hevents, heq, List.flatMap_append] at hrun
  have hbefore := mem_before hrun.symm (by
    intro hmem
    obtain ⟨tier, htier, hstart⟩ := List.mem_flatMap.mp hmem
    rw [hstarted tier hstart] at htier
    exact absurd htier (by decide))
  have hfirst : hook.tier ∈ [Tier.intake, .announce, .nodeDependent, .persist] := by
    simp only [List.mem_cons] at htier ⊢
    tauto
  have hblocks : hook.tier.timeoutBlocksLaterTiers = true := by
    simp only [List.mem_cons, List.not_mem_nil, or_false] at htier
    rcases htier with h | h | h <;> rw [h] <;> rfl
  obtain ⟨outcome, hmem, hsettled⟩ := exists_settled hblocks
    (h.allJoined (heq ▸ List.mem_append_left _ hfirst)) (hgoes _ hfirst)
    (mem_tierHooks.mpr ⟨hhook, rfl⟩)
  exact ⟨outcome, hbefore (List.mem_flatMap.mpr ⟨_, hfirst, mem_outcomesOf.mp hmem⟩), hsettled⟩

theorem Joins.once (h : s.Joins) (hran : tier ∈ s.run.ran)
    (hhook : hook ∈ s.hooks) (htier : hook.tier = tier) :
    (s.run.outcomes.map (·.id)).count hook.id = 1 := by
  have hreached : tier ∈ s.reached Tier.order := by
    unfold run at hran
    rw [runTiers_eq] at hran
    exact (List.mem_filter.mp hran).1
  obtain ⟨outcome, hmem, hid⟩ := exists_outcome (h.allJoined hreached)
    (mem_tierHooks.mpr ⟨hhook, htier⟩)
  refine List.count_eq_one_of_mem nodup_outcomes ?_
  exact List.mem_map.mpr ⟨outcome, mem_outcomes_iff.mpr ⟨tier, hreached, hmem⟩, hid⟩

theorem Joins.disarmed (h : s.Joins) (hdisarmed : s.run.watchdogLeftArmed = false) :
    s.Accounted := by
  rcases reached_cases (s := s) Tier.order with
    ⟨heq, hall⟩ | ⟨earlier, last, later, -, heq, -, hstops⟩
  · refine accounted_of_reached (fun _ => h.allJoined) (fun tier _ hruns => ?_) fun hook _ => ?_
    · exact (hall tier (mem_order tier) hruns).1
    · rw [heq]
      exact mem_order _
  · unfold run at hdisarmed
    rw [runTiers_eq, heq] at hdisarmed
    simp [hstops] at hdisarmed

theorem Joins.clean (h : s.Joins) (hclean : s.removesRecord = true) : s.Accounted := by
  obtain ⟨hdir, hall⟩ := Bool.and_eq_true_iff.mp hclean
  have houtcomes : ∀ tier ∈ s.reached Tier.order,
      ∀ outcome ∈ outcomesOf (s.stepTier tier).events, outcome.result.isClean = true :=
    fun tier htier outcome hmem =>
      List.all_eq_true.mp hall outcome (mem_outcomes_iff.mpr ⟨tier, htier, hmem⟩)
  have hends : ∀ tier ∈ s.reached Tier.order, s.EndsClean tier := fun tier htier =>
    endsClean_of_outcomes (h.allJoined htier) (houtcomes tier htier)
  refine accounted_of_reached (fun _ => h.allJoined)
    (fun tier htier hruns => (hends tier htier hruns).1) fun hook hhook => ?_
  rcases reached_cases (s := s) Tier.order with
    ⟨heq, -⟩ | ⟨earlier, last, later, horder, heq, hgoes, hstops⟩
  · rw [heq]
    exact mem_order _
  -- only the bench stops a run whose outcomes are clean
  obtain ⟨hruns, hwhy⟩ := stops_iff.mp hstops
  obtain ⟨hlast, hok⟩ := hends last (by rw [heq]; simp) hruns
  have hab : s.abandons last = true := by
    rcases hwhy with hnot | ⟨-, ended, hended, hresult, -⟩ | hab
    · exact absurd hlast hnot
    · rw [hok ended hended] at hresult
      cases hresult
    · exact hab
  have hlater := (h earlier last later horder hgoes hruns hlast).2 hab hdir
    (fun t ht => hends t (heq ▸ ht)) hook hhook
  have hmem := mem_order hook.tier
  rw [horder] at hmem
  rw [heq]
  rcases List.mem_append.mp hmem with hmem | hmem
  · exact List.mem_append_left _ hmem
  · rcases List.mem_cons.mp hmem with hmem | hmem
    · rw [hmem]; simp
    · exact absurd hmem hlater

/-! ## The condition is needed -/

theorem Safe.allJoined (h : s.Safe)
    (horder : Tier.order = earlier ++ tier :: later) (hgoes : ∀ t ∈ earlier, s.GoesOn t)
    (hruns : s.Runs tier) (hends : s.EndsInTime tier) : s.AllJoined tier := by
  intro hook hhook
  have hreached : tier ∈ s.reached Tier.order := by
    rw [horder, reached_append _ hgoes]
    exact List.mem_append_right _ List.mem_cons_self
  have hran : tier ∈ s.run.ran := by
    unfold run
    rw [runTiers_eq]
    exact List.mem_filter.mpr ⟨hreached, ran_iff.mpr hruns⟩
  obtain ⟨hmem, htier⟩ := mem_tierHooks.mp (mem_runnable hhook)
  have hcount := h.once tier hran hook hmem htier
  have hid : hook.id ∈ s.run.outcomes.map (·.id) :=
    List.count_pos_iff.mp (by rw [hcount]; exact Nat.one_pos)
  obtain ⟨outcome, houtcome, heq⟩ := List.mem_map.mp hid
  obtain ⟨other, -, hother⟩ := mem_outcomes_iff.mp houtcome
  have hsame := tier_eq_of_outcome hmem hother heq
  rw [← hsame, htier] at hother
  exact joined_of_outcome hruns hends hhook hother heq

theorem Safe.nothingLater (h : s.Safe)
    (horder : Tier.order = earlier ++ tier :: later) (hgoes : ∀ t ∈ earlier, s.GoesOn t)
    (hruns : s.Runs tier) (hab : s.abandons tier = true) (hdir : s.hasDataDir = true)
    (hclean : ∀ t ∈ earlier ++ [tier], s.EndsClean t) :
    ∀ hook ∈ s.hooks, hook.tier ∉ later := by
  have hreached : s.reached Tier.order = earlier ++ [tier] := by
    rw [horder, reached_append _ hgoes, reached, if_pos (stops_iff.mpr ⟨hruns, .inr (.inr hab)⟩)]
  have hremoves : s.removesRecord = true := by
    refine Bool.and_eq_true_iff.mpr ⟨hdir, List.all_eq_true.mpr fun outcome hmem => ?_⟩
    obtain ⟨t, ht, hmem⟩ := mem_outcomes_iff.mp hmem
    exact outcomes_of_endsClean (hclean t (hreached ▸ ht)) outcome hmem
  intro hook hhook hlater
  obtain ⟨outcome, houtcome, hid⟩ := (h.clean hremoves).1 hook hhook
  obtain ⟨t, ht, hmem⟩ := mem_outcomes_iff.mp houtcome
  rw [← tier_eq_of_outcome hhook hmem hid, hreached] at ht
  -- the groups are all different
  have hnodup := order_nodup
  rw [horder, ← List.singleton_append, ← List.append_assoc] at hnodup
  exact (List.nodup_append.mp hnodup).2.2 _ ht _ hlater rfl

/-- A stop keeps its guarantees if and only if no task fails to join in a group that ends in time,
and the bench does not abandon a stop that is clean so far with hooks still to come. -/
theorem stop_is_safe_iff (s : Stop) : s.Safe ↔ s.Joins := by
  constructor
  · intro h earlier tier later horder hgoes hruns hends
    refine ⟨h.allJoined horder hgoes hruns hends, fun hab hdir hclean => ?_⟩
    exact h.nothingLater horder hgoes hruns hab hdir hclean
  intro h
  exact {
    teardown := fun _ _ _ hevents hteardown _ hhook htier =>
      h.teardown hevents hteardown hhook htier
    once := fun _ hran _ hhook htier => h.once hran hhook htier
    disarmed := h.disarmed
    clean := h.clean }

/-- The intake hook panics while it is dropped at its limit. -/
def dropPanics : Stop where
  hooks := [⟨0, "node/intake", "", .none, .automatic, 5, false, false⟩,
    ⟨1, "node/veilid", "", .veilidNode, .teardown, 5, false, false⟩]
  unique := by decide
  reason := .shutdown
  reachability := .reachable
  refreshed := .reachable
  tierBudget := fun _ => 10
  watchdogAction := .exit
  hasDataDir := true
  taskEnd := fun id =>
    if id = 0 then ⟨.joinError, 5, "starting", false⟩
    else ⟨.outcome .finished, 1, "starting", false⟩
  watchdogFired := fun _ => false
  arrival := fun hooks => hooks
  arrival_perm := fun _ => .refl _

/-- The teardown starts without an outcome of the intake hook, and the stop is recorded as clean. -/
theorem dropPanics_unsafe : dropPanics.run.events =
      [.started 0, .started 1,
        .outcome ⟨1, "node/veilid", "starting", .teardown, 1, 5, .ok, false⟩] ∧
    dropPanics.run.ran = [.intake, .teardown] ∧ dropPanics.run.running = [0] ∧
    dropPanics.run.watchdogLeftArmed = false ∧ dropPanics.removesRecord = true ∧
    ¬ dropPanics.Safe := by
  refine ⟨by decide, by decide, by decide +kernel, by decide, by decide, fun h => ?_⟩
  have hcount := h.once .intake (by decide)
    ⟨0, "node/intake", "", .none, .automatic, 5, false, false⟩ (by decide) rfl
  exact absurd hcount (by decide)

end Stop

end VeilKnit.Lifecycle
