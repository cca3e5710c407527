import VeilKnit.Reputation.Store

/-!
# Garbage collection and the state of the user

A collection never removes an override of the user or a permanent decision of the user. A
decision of the user that expires protects nothing: its entry goes when it has been idle for as
long as entries of its class are kept.
-/

namespace VeilKnit.Reputation

variable {shardIndex : String → UInt8} {visit : Visit} {now : Nat} {subject : String}
  {entry : ReputationEntry}

/-- The decisions of the user that are in force at a time. -/
def ReputationEntry.userDecisions (time : Nat) (entry : ReputationEntry) :
    List ReputationDecision :=
  entry.decisions.filter fun decision =>
    decide (decision.source = .user) && decision.isActiveAt time

/-- The access that the user's decisions and override impose. -/
def ReputationEntry.userAccess (time : Nat) (appContext : Option AppId)
    (entry : ReputationEntry) : Access :=
  ((entry.userDecisions time).foldl (Access.apply appContext)
    ⟨.allowed, appContext.map fun _ => .allowed⟩).override entry.userOverride

theorem userDecisions_eq (time : Nat) (entry : ReputationEntry) : entry.userDecisions time =
    activeDecisions (fun source => decide (source = .user)) time entry.decisions :=
  List.filter_congr fun _ _ => Bool.and_comm _ _

theorem userDecisions_recompute (policies : SourcePolicies) {time : Nat} (later : now ≤ time)
    (entry : ReputationEntry) :
    (entry.recompute policies now).userDecisions time = entry.userDecisions time := by
  rw [userDecisions_eq, userDecisions_eq, ReputationEntry.recompute_decisions,
    activeDecisions_expire _ later]

/-- Permanent state of the user is an override or a permanent decision in force. -/
theorem hasPermanentUserState_iff : hasPermanentUserState now entry = true ↔
    entry.userOverride.isSome ∨ ∃ decision ∈ entry.userDecisions now, decision.isPermanent := by
  unfold hasPermanentUserState ReputationEntry.userDecisions
  simp only [Bool.or_eq_true, List.any_eq_true, Bool.and_eq_true, List.mem_filter]
  refine or_congr_right ⟨?_, ?_⟩
  · rintro ⟨decision, hmem, ⟨hsource, hpermanent⟩, hactive⟩
    exact ⟨decision, ⟨hmem, hsource, hactive⟩, hpermanent⟩
  · rintro ⟨decision, ⟨hmem, hsource, hactive⟩, hpermanent⟩
    exact ⟨decision, hmem, ⟨hsource, hpermanent⟩, hactive⟩

theorem hasPermanentUserState_recompute (policies : SourcePolicies) (entry : ReputationEntry) :
    hasPermanentUserState now (entry.recompute policies now) = hasPermanentUserState now entry := by
  rw [Bool.eq_iff_iff, hasPermanentUserState_iff, hasPermanentUserState_iff,
    userDecisions_recompute policies le_rfl, ReputationEntry.recompute_userOverride]

/-- No entry is collected before it has been idle for half a year. -/
theorem normalEntryMaxIdleSecs_le_entryMaxIdle (now : Nat) (entry : ReputationEntry) :
    normalEntryMaxIdleSecs ≤ entryMaxIdle now entry := by
  unfold entryMaxIdle
  dsimp only
  split
  · decide
  split
  · decide
  split
  · decide
  split <;> decide

/-- Only entries that may be collected are. -/
theorem collectable_of_selected {entries : Entries} {key : String}
    (h : key ∈ selectedForCollection visit now entries) :
    ∃ entry, entries.lookup key = some entry ∧ collectable now entry := by
  obtain ⟨e, he, rfl⟩ := List.mem_map.mp h
  have hcandidate : e ∈ ((visit.arrange entries.entries).filter fun e =>
      decide (collectable now e.2)).insertionSort (collectedBefore now) := by
    rcases List.mem_append.mp he with htaken | hstale
    · exact List.mem_of_mem_take htaken
    · exact List.mem_of_mem_drop (List.mem_of_mem_filter hstale)
  rw [List.mem_insertionSort, List.mem_filter, decide_eq_true_eq] at hcandidate
  refine ⟨e.2, AList.mem_lookup_iff.mpr ?_, hcandidate.2⟩
  exact (visit.perm entries.entries).mem_iff.mp hcandidate.1

theorem store_markSubjectDirty (entries : List (Σ _ : String, ReputationEntry))
    (state : RuntimeState) :
    (entries.foldl (fun state e => state.markSubjectDirty shardIndex e.2.subject) state).store =
      state.store := by
  induction entries generalizing state with
  | nil => rfl
  | cons e entries ih => exact ih (state.markSubjectDirty shardIndex e.2.subject)

theorem entry_runGarbageCollection (shardIndex : String → UInt8) (visit : Visit)
    (state : RuntimeState) (now : Nat) (subject : String) :
    (runGarbageCollection shardIndex visit state now).1.store.entry subject =
      if subject ∉ selectedForCollection visit now
          (state.store.recomputeSubjects state.store.subjects now).entries then
        (state.store.recomputeSubjects state.store.subjects now).entry subject
      else none := by
  have hstore : (runGarbageCollection shardIndex visit state now).1.store =
      { state.store.recomputeSubjects state.store.subjects now with
        entries := (state.store.recomputeSubjects state.store.subjects now).entries.retain
          fun key => key ∉ selectedForCollection visit now
            (state.store.recomputeSubjects state.store.subjects now).entries } :=
    store_markSubjectDirty _ _
  obtain ⟨selected, hselected⟩ : ∃ selected, selected = selectedForCollection visit now
      (state.store.recomputeSubjects state.store.subjects now).entries := ⟨_, rfl⟩
  rw [hstore, ← hselected]
  exact AList.lookup_retain (fun key => key ∉ selected) _ subject

/-- What a collection makes of an entry: it may compute its summary again, and it removes it only
if it may be collected. -/
theorem runGarbageCollection_cases (shardIndex : String → UInt8) (visit : Visit)
    (state : RuntimeState) (now : Nat) (h : state.store.entry subject = some entry) :
    ∃ current, (current = entry ∨ current = entry.recompute state.store.appSourcePolicies now) ∧
      ((runGarbageCollection shardIndex visit state now).1.store.entry subject = some current ∨
        collectable now current ∧
          (runGarbageCollection shardIndex visit state now).1.store.entry subject = none) := by
  obtain ⟨store, hstore⟩ : ∃ store, store =
      state.store.recomputeSubjects state.store.subjects now := ⟨_, rfl⟩
  obtain ⟨current, hcurrent, hlookup⟩ : ∃ current,
      (current = entry ∨ current = entry.recompute state.store.appSourcePolicies now) ∧
        store.entry subject = some current := by
    rcases ReputationStore.entry_recomputeSubjects_cases state.store.subjects h with hsame | hnew
    · exact ⟨entry, .inl rfl, by rw [hstore]; exact hsame⟩
    · exact ⟨_, .inr rfl, by rw [hstore]; exact hnew⟩
  refine ⟨current, hcurrent, ?_⟩
  have hafter : (runGarbageCollection shardIndex visit state now).1.store.entry subject =
      if subject ∉ selectedForCollection visit now store.entries then store.entry subject
      else none := by
    rw [entry_runGarbageCollection, ← hstore]
  rw [hafter]
  by_cases hselected : subject ∈ selectedForCollection visit now store.entries
  case neg => exact .inl ((if_pos hselected).trans hlookup)
  case pos =>
    obtain ⟨candidate, hcandidate, hcollectable⟩ := collectable_of_selected hselected
    cases hlookup.symm.trans hcandidate
    exact .inr ⟨hcollectable, if_neg (not_not.mpr hselected)⟩

/-- A collection keeps every entry with an override or a permanent decision of the user, changes
nothing that the user imposes in the entries it keeps, and removes an entry with other decisions of
the user only if it has been idle for half a year at least. -/
theorem run_garbage_collection_user_state (shardIndex : String → UInt8) (visit : Visit)
    (state : RuntimeState) (now : Nat) (h : state.store.entry subject = some entry) :
    (hasPermanentUserState now entry = true →
        ∃ kept, (runGarbageCollection shardIndex visit state now).1.store.entry subject =
          some kept) ∧
      (∀ kept, (runGarbageCollection shardIndex visit state now).1.store.entry subject = some kept →
        kept.userOverride = entry.userOverride ∧
          ∀ time, now ≤ time → kept.userDecisions time = entry.userDecisions time ∧
            ∀ appContext, kept.userAccess time appContext = entry.userAccess time appContext) ∧
      ((runGarbageCollection shardIndex visit state now).1.store.entry subject = none →
        hasPermanentUserState now entry = false ∧
          normalEntryMaxIdleSecs ≤ now - entry.lastTouched) := by
  obtain ⟨current, hcurrent, houtcome⟩ := runGarbageCollection_cases shardIndex visit state now h
  have hpermanent : hasPermanentUserState now current = hasPermanentUserState now entry := by
    rcases hcurrent with rfl | rfl
    · rfl
    · exact hasPermanentUserState_recompute _ _
  have hremoved : collectable now current → hasPermanentUserState now entry = false ∧
      normalEntryMaxIdleSecs ≤ now - entry.lastTouched := by
    rintro ⟨-, hidle, hnone⟩
    refine ⟨hpermanent.symm.trans hnone,
      (normalEntryMaxIdleSecs_le_entryMaxIdle now current).trans ?_⟩
    rcases hcurrent with rfl | rfl <;> exact hidle
  refine ⟨fun huser => ?_, fun kept hkept => ?_, fun hnone => ?_⟩
  · rcases houtcome with hkept | ⟨hcollectable, -⟩
    · exact ⟨current, hkept⟩
    · cases huser.symm.trans (hremoved hcollectable).1
  · rcases houtcome with hsame | ⟨-, hnone⟩
    · cases hsame.symm.trans hkept
      have hoverride : current.userOverride = entry.userOverride := by
        rcases hcurrent with rfl | rfl <;> rfl
      have hdecisions : ∀ time, now ≤ time →
          current.userDecisions time = entry.userDecisions time := by
        intro time hlater
        rcases hcurrent with rfl | rfl
        · rfl
        · exact userDecisions_recompute _ hlater _
      refine ⟨hoverride, fun time hlater => ⟨hdecisions time hlater, fun appContext => ?_⟩⟩
      rw [ReputationEntry.userAccess, ReputationEntry.userAccess, hdecisions time hlater, hoverride]
    · cases hnone.symm.trans hkept
  · rcases houtcome with hsome | ⟨hcollectable, -⟩
    · cases hsome.symm.trans hnone
    · exact hremoved hcollectable

namespace Sample

/-- The user bans a subject from the network for more than a year. -/
def bannedState : RuntimeState :=
  runCommands newState [(1, .createDecision .user "s" .ban .networkInteraction "" (some 40000000))]

/-- The ban still has more than half a year to run when its entry is removed. -/
theorem temporary_user_ban_collected :
    (buildView bannedState.store "s" none 15552001).networkAccess = .blocked ∧
      (runGarbageCollection oneShard inOrder bannedState 15552001).1.store.entry "s" = none ∧
      (buildView (runGarbageCollection oneShard inOrder bannedState 15552001).1.store "s" none
        15552001).networkAccess = .restricted := by
  decide +kernel

def bannedForGood : RuntimeState :=
  runCommands newState [(1, .createDecision .user "s" .ban .networkInteraction "" none)]

/-- A permanent ban outlives the collection that the other one does not. -/
theorem permanent_user_ban_kept :
    ((runGarbageCollection oneShard inOrder bannedForGood 15552001).1.store.entry "s").isSome =
      true := by
  obtain ⟨entry, hentry⟩ : ∃ entry, bannedForGood.store.entry "s" = some entry :=
    Option.isSome_iff_exists.mp (by decide +kernel)
  have hpermanent : (bannedForGood.store.entry "s").all (hasPermanentUserState 15552001) = true := by
    decide +kernel
  rw [hentry, Option.all_some] at hpermanent
  obtain ⟨kept, hkept⟩ := (run_garbage_collection_user_state oneShard inOrder bannedForGood
    15552001 hentry).1 hpermanent
  rw [hkept, Option.isSome_some]

end Sample

end VeilKnit.Reputation
