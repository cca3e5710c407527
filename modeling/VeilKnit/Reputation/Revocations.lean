import Mathlib.Algebra.Order.BigOperators.Group.List
import Mathlib.Algebra.Order.Group.Nat
import VeilKnit.Reputation.Authority
import VeilKnit.Reputation.GarbageCollection

/-!
# Revoked automatic bans

The user may revoke the ban that the classifier imposes. What core modules have seen still counts,
and the classifier looks at it with every observation of anyone. The ban stays away exactly when
the evidence that is left at its revocation is below the thresholds.
-/

namespace VeilKnit.Reputation

open Library

variable {policies : SourcePolicies} {now : Nat} {subject other : String} {appId : AppId}

/-! ## Evidence that does not grow -/

/-- The kinds of observations that the thresholds of the automatic ban are about. -/
def ObservationKind.isIntegrity : ObservationKind → Bool
  | .invalidSignature | .impossibleProtocolState | .deliberateStateCorruption => true
  | _ => false

/-- The counters of the thresholds. -/
def integrityCounters : List (ScoreDelta → Nat) :=
  [ScoreDelta.deliberateCorruptionEvents, ScoreDelta.impossibleProtocolEvents,
    ScoreDelta.invalidSignatureEvents]

variable {f : ScoreDelta → Nat}

theorem isEventCount_of_mem (h : f ∈ integrityCounters) :
    IsEventCount f := by
  simp only [integrityCounters, List.mem_cons, List.not_mem_nil, or_false] at h
  obtain rfl | rfl | rfl := h <;> exact ⟨rfl, fun _ _ => rfl⟩

variable {observation : ReputationObservation}

theorem contribution_eq_zero (h : f ∈ integrityCounters)
    (harmless : observation.kind.isIntegrity = false) :
    f observation.contribution = 0 := by
  simp only [integrityCounters, List.mem_cons, List.not_mem_nil, or_false] at h
  unfold ReputationObservation.contribution contributionFor
  generalize observation.kind = kind at harmless
  obtain rfl | rfl | rfl := h <;> cases kind <;> first
    | (cases harmless; done)
    | simp [kindContribution]

/-- No counter of the thresholds is higher in the second evidence. -/
def Fades (a b : Evidence) : Prop :=
  ∀ f ∈ integrityCounters, f b.coreCounts ≤ f a.coreCounts

theorem Fades.refl (a : Evidence) : Fades a a := fun _ _ => le_rfl

variable {a b : Evidence}

theorem Fades.trans {c : Evidence} (h : Fades a b) (h' : Fades b c) : Fades a c :=
  fun f hf => (h' f hf).trans (h f hf)

theorem Compacted.fades (h : Compacted a b) : Fades a b :=
  fun _ hf => (h.coreCounts (isEventCount_of_mem hf)).le

theorem Fades.of_events
    (h : ∀ f ∈ integrityCounters, b.coreEvents f ≤ a.coreEvents f) : Fades a b := by
  intro f hf
  have hcount := isEventCount_of_mem hf
  rw [hcount.coreCounts, hcount.coreCounts]
  exact min_le_min_right _ (h f hf)

theorem Fades.shouldBan (h : Fades a b) (due : b.coreCounts.shouldBan) :
    a.coreCounts.shouldBan := by
  have hcorruption := h ScoreDelta.deliberateCorruptionEvents (by simp [integrityCounters])
  have himpossible := h ScoreDelta.impossibleProtocolEvents (by simp [integrityCounters])
  have hsignature := h ScoreDelta.invalidSignatureEvents (by simp [integrityCounters])
  unfold ScoreDelta.shouldBan at due ⊢
  omega

theorem Fades.record
    (harmless : observation.source.isCoreModule = false ∨ observation.kind.isIntegrity = false)
    (evidence : Evidence) : Fades evidence (evidence.record now observation) := by
  obtain ⟨room, hcompacted, hrecord⟩ := evidence.record_compacted now observation
  rw [hrecord]
  refine hcompacted.fades.trans (.of_events fun f hf => ?_)
  unfold Evidence.coreEvents
  rw [List.map_append, List.sum_append]
  rcases harmless with hcore | hkind
  · simp [hcore]
  · simp [contribution_eq_zero hf hkind]

/-- What an observation adds to a counter. -/
private def eventsOf (f : ScoreDelta → Nat) (observation : ReputationObservation) : Nat :=
  if observation.isActive && observation.source.isCoreModule then f observation.contribution else 0

theorem eventsOf_retract (f : ScoreDelta → Nat) (observation : ReputationObservation) (now : Nat) :
    eventsOf f (observation.retract now) = 0 := by
  simp [eventsOf, ReputationObservation.retract, ReputationObservation.isActive]

theorem Fades.retract {id : Nat} {evidence : Evidence}
    (found : evidence.recent.find? (fun observation => decide (observation.id = id)) =
      some observation) : Fades evidence (evidence.retract id now) := by
  obtain ⟨before, after, hrecent, hupdated⟩ :=
    updateFirst_of_find? (ReputationObservation.retract now) found
  refine .of_events fun f _ => ?_
  have hretracted := eventsOf_retract f observation now
  unfold eventsOf at hretracted
  unfold Evidence.coreEvents Evidence.retract
  dsimp only
  rw [hupdated, hrecent]
  simp only [List.map_append, List.map_cons, List.sum_append, List.sum_cons, hretracted]
  omega

/-- Taking back what an application has said leaves the counters alone. -/
theorem Fades.retractSource (entry : ReputationEntry) :
    Fades entry.evidence (entry.retractSource (.app appId) now).evidence := by
  refine .of_events fun f _ => Nat.add_le_add (le_of_eq ?_) ?_
  · change ((entry.evidence.history.entries.map _).map _).sum = _
    rw [List.map_map]
    refine congrArg List.sum (List.map_congr_left fun e _ => ?_)
    obtain ⟨source, aggregate⟩ := e
    cases source <;> simp [Sigma.map, AuthorityId.isCoreModule]
  · change ((entry.evidence.recent.map _).map _).sum ≤ _
    rw [List.map_map]
    refine List.sum_le_sum fun observation _ => ?_
    simp only [Function.comp, ReputationObservation.retractFrom]
    split
    case isFalse => exact le_rfl
    case isTrue =>
      refine le_of_eq_of_le ?_ (Nat.zero_le _)
      exact eventsOf_retract f observation _

/-! ## Commands without new evidence -/

/-- No counter of a subject is higher in the second store. -/
def Quiet (subject : String) (store after : ReputationStore) : Prop :=
  ∀ entry, after.entry subject = some entry →
    Fades (store.entryOrNew subject 0).evidence entry.evidence

theorem evidence_entryOrNew (store : ReputationStore) (subject : String) (now time : Nat) :
    (store.entryOrNew subject now).evidence = (store.entryOrNew subject time).evidence := by
  unfold ReputationStore.entryOrNew
  cases store.entry subject <;> rfl

variable {store mid after : ReputationStore}

theorem Quiet.refl (subject : String) (store : ReputationStore) : Quiet subject store store := by
  intro entry hentry
  rw [entryOrNew_of_some hentry]
  exact .refl _

theorem Quiet.fades (h : Quiet subject store after) (now time : Nat) :
    Fades (store.entryOrNew subject now).evidence (after.entryOrNew subject time).evidence := by
  rw [evidence_entryOrNew store subject now 0]
  cases hafter : after.entry subject with
  | some entry =>
    rw [entryOrNew_of_some hafter]
    exact h entry hafter
  | none =>
    -- Without an entry there is no evidence.
    refine .of_events fun f _ => ?_
    rw [ReputationStore.entryOrNew, hafter]
    exact Nat.zero_le _

theorem Quiet.trans (h : Quiet subject store mid) (h' : Quiet subject mid after) :
    Quiet subject store after :=
  fun entry hentry => (h.fades 0 0).trans (h' entry hentry)

variable {entry : ReputationEntry}

theorem Quiet.setEntry
    (h : other = subject → Fades (store.entryOrNew subject 0).evidence entry.evidence) :
    Quiet subject store (store.setEntry other entry) := by
  intro current hcurrent
  rw [ReputationStore.entry_setEntry] at hcurrent
  split at hcurrent
  case isTrue heq =>
    cases hcurrent
    exact h heq.symm
  case isFalse => exact Quiet.refl subject store current hcurrent

theorem Quiet.recomputeSubject (store : ReputationStore) (other : String) (now : Nat) :
    Quiet subject store (store.recomputeSubject other now) := by
  unfold ReputationStore.recomputeSubject
  split
  case h_1 => exact .refl subject store
  case h_2 entry hentry =>
  refine .setEntry fun heq => ?_
  rw [← heq, entryOrNew_of_some hentry]
  exact (compactRecentObservations_compacted now entry.evidence).fades

theorem Quiet.recomputeSubjects (subjects : List String) (now : Nat) :
    Quiet subject store (store.recomputeSubjects subjects now) := by
  induction subjects generalizing store with
  | nil => exact .refl subject store
  | cons other subjects ih => exact (Quiet.recomputeSubject store other now).trans ih

/-- One entry is changed, and its summary is computed again. -/
theorem Quiet.editedOrNew {time : Nat}
    (h : Fades (store.entryOrNew other time).evidence entry.evidence) :
    Quiet subject store ((store.setEntry other entry).recomputeSubject other now) := by
  refine .trans (.setEntry fun heq => ?_) (.recomputeSubject _ other now)
  rw [← heq, evidence_entryOrNew store other 0 time]
  exact h

theorem Quiet.edited {old : ReputationEntry} (hold : store.entry other = some old)
    (h : Fades old.evidence entry.evidence) :
    Quiet subject store ((store.setEntry other entry).recomputeSubject other now) := by
  have hevidence : Fades (store.entryOrNew other 0).evidence entry.evidence := by
    rw [entryOrNew_of_some hold]
    exact h
  exact .editedOrNew hevidence

/-- A store that holds the same entries. -/
theorem Quiet.of_entries (h : after.entries = store.entries) : Quiet subject store after := by
  intro entry hentry
  have hsame : store.entry subject = some entry := by
    rw [← hentry, ReputationStore.entry, ReputationStore.entry, h]
  rw [entryOrNew_of_some hsame]
  exact .refl _

theorem Quiet.ensureAutomaticIntegrityBan (store : ReputationStore) (other : String) (now : Nat) :
    Quiet subject store (ensureAutomaticIntegrityBan store other now).1 := by
  unfold Reputation.ensureAutomaticIntegrityBan
  split
  case h_1 => exact .refl subject store
  case h_2 entry hentry =>
  split
  case isFalse => exact .refl subject store
  case isTrue =>
    refine .trans (.of_entries rfl) (.setEntry fun heq => ?_)
    have hsame : ({ store with nextDecisionId := succId store.nextDecisionId } :
        ReputationStore).entry subject = some entry := by rw [← heq]; exact hentry
    rw [entryOrNew_of_some hsame]
    exact .refl _

theorem ensureAutomaticIntegrityBan_added (h : store.entry subject = some entry) :
    (ensureAutomaticIntegrityBan store subject now).2 = true ↔ entry.banDue now := by
  unfold ensureAutomaticIntegrityBan
  rw [h]
  dsimp only
  split <;> simp [*]

variable {shardIndex : String → UInt8} {visit : Visit} {state final : RuntimeState}

/-- What the classifier looks at when it has recorded an observation, and what it leaves. -/
theorem submitObservation_spec {source : AuthorityId} {input : ObservationInput}
    {outcome : SubmitOutcome}
    (h : submitObservation shardIndex state source input now = .ok (final, outcome)) :
    ∃ observation : ReputationObservation, observation.source = source ∧
      observation.kind = input.kind ∧
      (outcome.automaticBanAdded = true ↔
        ({ state.store.entryOrNew input.subject now with
          evidence := (state.store.entryOrNew input.subject now).evidence.record now observation
          lastTouched := now } : ReputationEntry).banDue now) ∧
      Quiet subject ({ state.store with
        nextObservationId := succId state.store.nextObservationId }.setEntry input.subject
          { state.store.entryOrNew input.subject now with
            evidence := (state.store.entryOrNew input.subject now).evidence.record now observation
            lastTouched := now }) final.store := by
  obtain ⟨observation, hobservation⟩ : ∃ observation : ReputationObservation, observation =
      { id := state.store.nextObservationId
        subject := input.subject
        source := source
        kind := input.kind
        details := input.details
        observedAt := now
        retractedAt := none } := ⟨_, rfl⟩
  refine ⟨observation, by rw [hobservation], by rw [hobservation], ?_⟩
  unfold submitObservation at h
  split at h
  · cases h
  dsimp only at h
  have hnew : ({ state.store with nextObservationId := succId state.store.nextObservationId } :
      ReputationStore).entryOrNew input.subject now = state.store.entryOrNew input.subject now :=
    rfl
  rw [hnew, ← hobservation] at h
  generalize hrecorded : ReputationStore.setEntry _ input.subject
    { state.store.entryOrNew input.subject now with
      evidence := (state.store.entryOrNew input.subject now).evidence.record now observation
      lastTouched := now } = recorded at h ⊢
  rcases hensured : ensureAutomaticIntegrityBan recorded input.subject now with ⟨ensured, added⟩
  rw [hensured] at h
  cases h
  constructor
  · have hentry := ReputationStore.entry_setEntry_self { state.store with
      nextObservationId := succId state.store.nextObservationId } input.subject
        { state.store.entryOrNew input.subject now with
          evidence := (state.store.entryOrNew input.subject now).evidence.record now observation
          lastTouched := now }
    rw [hrecorded] at hentry
    rw [← ensureAutomaticIntegrityBan_added hentry, hensured]
  · have hquiet : Quiet subject recorded
        (ensureAutomaticIntegrityBan recorded input.subject now).1 :=
      .ensureAutomaticIntegrityBan recorded input.subject now
    rw [hensured] at hquiet
    exact hquiet.trans (.recomputeSubject ensured input.subject now)

/-- Whether a command brings new integrity evidence on a subject. -/
def Command.bringsEvidence (subject : String) : Command → Bool
  | .submitObservation source input =>
    decide (input.subject = subject) && source.isCoreModule && input.kind.isIntegrity
  | _ => false

theorem retractAppSource_quiet {reason : String} {report : AppRetractionReport}
    (h : retractAppSource shardIndex state appId reason now = .ok (final, report)) :
    Quiet subject state.store final.store := by
  unfold retractAppSource at h
  split at h
  case isTrue => cases h
  case isFalse =>
  obtain ⟨rfl, -⟩ := Prod.mk.inj (Except.ok.inj h)
  have hmarked : ∀ (subjects : List String) (marked : RuntimeState), (subjects.foldl
      (fun state subject => state.markSubjectDirty shardIndex subject) marked).store =
        marked.store := by
    intro subjects
    induction subjects with
    | nil => exact fun _ => rfl
    | cons other subjects ih => exact fun marked => ih (marked.markSubjectDirty shardIndex other)
  simp only [RuntimeState.markMetadataDirty, hmarked]
  refine .trans (fun entry hentry => ?_) (.recomputeSubjects _ now)
  rw [ReputationStore.entry, AList.lookup_mapEntries] at hentry
  obtain ⟨old, hold, rfl⟩ := Option.map_eq_some_iff.mp hentry
  rw [entryOrNew_of_some hold]
  exact .retractSource old

/-- A command without new integrity evidence raises no counter of the thresholds. -/
theorem perform_quiet {command : Command} (quiet : command.bringsEvidence subject = false)
    (h : perform shardIndex visit state now command = .ok final) :
    Quiet subject state.store final.store := by
  cases command with
  | submitObservation source input =>
    obtain ⟨⟨after, outcome⟩, hsubmit, rfl⟩ := except_map_eq_ok.mp h
    obtain ⟨observation, hsource, hkind, -, hquiet⟩ := submitObservation_spec hsubmit
    refine .trans (.trans (.of_entries rfl) (.setEntry fun heq => ?_)) hquiet
    rw [heq, evidence_entryOrNew state.store subject now 0]
    refine .record ?_ _
    rw [hsource, hkind]
    rw [Command.bringsEvidence, heq, decide_eq_true rfl, Bool.true_and,
      Bool.and_eq_false_iff] at quiet
    exact quiet
  | retractObservation requiredSource other id =>
    obtain ⟨entry, observation, hentry, hfound, -, hstore⟩ := retractObservation_eq_ok h
    rw [hstore]
    exact .edited hentry (.retract hfound)
  | createDecision source other action requestedScope reason expiresAt =>
    obtain ⟨⟨after, id⟩, hcreate, rfl⟩ := except_map_eq_ok.mp h
    obtain ⟨decision, -, -, -, hstore⟩ := createDecision_eq_ok hcreate
    rw [hstore]
    exact .trans (.of_entries rfl) (.editedOrNew (.refl _))
  | revokeDecision requiredSource other id =>
    obtain ⟨entry, decision, hentry, -, -, hstore⟩ := revokeDecision_eq_ok h
    rw [hstore]
    exact .edited hentry (.refl _)
  | setUserOverride other mode note =>
    rw [setUserOverride_eq_ok h]
    exact .editedOrNew (.refl _)
  | clearUserOverride other =>
    obtain ⟨entry, hentry, hstore⟩ := clearUserOverride_eq_ok h
    rw [hstore]
    exact .edited hentry (.refl _)
  | retractAppSource appId reason =>
    obtain ⟨⟨after, report⟩, hretract, rfl⟩ := except_map_eq_ok.mp h
    exact retractAppSource_quiet hretract
  | setAppSourcePolicy appId policy =>
    cases h
    exact .trans (.of_entries rfl) (.recomputeSubjects _ now)
  | deleteAppSourceData appId =>
    have hmap : (deleteAppSourceData shardIndex state appId now).map Prod.fst = .ok final := h
    obtain ⟨⟨after, count⟩, hdelete, rfl⟩ := except_map_eq_ok.mp hmap
    unfold deleteAppSourceData at hdelete
    split at hdelete
    case h_1 => cases hdelete
    case h_2 retracted report hretract =>
    obtain ⟨rfl, -⟩ := Prod.mk.inj (Except.ok.inj hdelete)
    exact (retractAppSource_quiet hretract).trans (.of_entries rfl)
  | runGarbageCollection =>
    cases h
    intro entry hentry
    rw [entry_runGarbageCollection] at hentry
    split at hentry
    case isTrue => exact Quiet.recomputeSubjects state.store.subjects now entry hentry
    case isFalse => cases hentry

/-! ## Runs -/

variable (shardIndex visit) in
/-- A command that is refused changes nothing. -/
def afterCommand (state : RuntimeState) (command : Nat × Command) : RuntimeState :=
  match perform shardIndex visit state command.1 command.2 with
  | .ok after => after
  | .error _ => state

variable (shardIndex) in
/-- Whether a command makes the classifier ban a subject. -/
def bansAutomatically (subject : String) (state : RuntimeState) (command : Nat × Command) : Bool :=
  match command.2 with
  | .submitObservation source input =>
    match submitObservation shardIndex state source input command.1 with
    | .ok (_, outcome) => decide (input.subject = subject) && outcome.automaticBanAdded
    | .error _ => false
  | _ => false

/-- The user has revoked the automatic ban of a subject, and no other one is in force. -/
structure BanLifted (shardIndex : String → UInt8) (before after : RuntimeState) (subject : String)
    (decisionId now : Nat) : Prop where
  revoked : revokeDecision shardIndex before none subject decisionId now = .ok after
  automatic : ∃ decision ∈ (before.store.entryOrNew subject now).decisions,
    decision.id = decisionId ∧ isClassifierBan decision = true
  lifted : ∀ decision ∈ (after.store.entryOrNew subject now).decisions,
    isClassifierBan decision = true → decision.isActiveAt now = false

theorem afterCommand_quiet {command : Nat × Command}
    (quiet : command.2.bringsEvidence subject = false) :
    Quiet subject state.store (afterCommand shardIndex visit state command).store := by
  unfold afterCommand
  split
  case h_1 after hperform => exact perform_quiet quiet hperform
  case h_2 => exact .refl subject state.store

theorem foldl_afterCommand_quiet {commands : List (Nat × Command)}
    (quiet : ∀ command ∈ commands, command.2.bringsEvidence subject = false) :
    Quiet subject state.store (commands.foldl (afterCommand shardIndex visit) state).store := by
  induction commands generalizing state with
  | nil => exact .refl subject state.store
  | cons command commands ih =>
    exact (afterCommand_quiet (quiet command List.mem_cons_self)).trans
      (ih fun other hother => quiet other (List.mem_cons_of_mem _ hother))

/-- The evidence at the revocation is below the thresholds exactly when no observation brings
the ban back, whatever is done that is not new integrity evidence. -/
theorem revoked_ban_stays_away_iff {before : RuntimeState} {decisionId : Nat}
    (revoked : BanLifted shardIndex before state subject decisionId now) :
    (∀ (commands : List (Nat × Command)) (command : Nat × Command),
      (∀ other ∈ commands ++ [command], other.2.bringsEvidence subject = false) →
        bansAutomatically shardIndex subject
          (commands.foldl (afterCommand shardIndex visit) state) command = false) ↔
      ¬ (state.store.entryOrNew subject now).evidence.coreCounts.shouldBan := by
  constructor
  · -- The user's own observation is enough.
    intro hnever hdue
    have hcommand := hnever [] (now, .submitObservation .user ⟨subject, .spam, ⟨none, none⟩⟩)
      (by simp [Command.bringsEvidence, AuthorityId.isCoreModule])
    obtain ⟨⟨final, outcome⟩, hsubmit⟩ : ∃ result, submitObservation shardIndex state .user
        ⟨subject, .spam, ⟨none, none⟩⟩ now = .ok result := ⟨_, rfl⟩
    obtain ⟨observation, hsource, -, hadded, -⟩ :=
      @submitObservation_spec _ subject _ _ _ _ _ _ hsubmit
    have hban : outcome.automaticBanAdded = true := by
      refine hadded.mpr ⟨(shouldBan_record (by rw [hsource]; rfl) _).mpr hdue, ?_⟩
      simpa using revoked.lifted
    simp [bansAutomatically, hsubmit, hban] at hcommand
  · intro hbelow commands command hquiet
    unfold bansAutomatically
    split
    case h_2 => rfl
    case h_1 source input hsubmitted =>
    split
    case h_2 => rfl
    case h_1 final outcome hsubmit =>
    by_contra hbans
    obtain ⟨hsubject, hadded⟩ : input.subject = subject ∧ outcome.automaticBanAdded = true := by
      simpa using hbans
    obtain ⟨observation, hsource, hkind, hdue, -⟩ :=
      @submitObservation_spec _ subject _ _ _ _ _ _ hsubmit
    have hlast := hquiet command (by simp)
    rw [hsubmitted, Command.bringsEvidence, hsubject, decide_eq_true rfl, Bool.true_and,
      Bool.and_eq_false_iff, ← hsource, ← hkind] at hlast
    have hafter : Quiet subject state.store
        (commands.foldl (afterCommand shardIndex visit) state).store :=
      foldl_afterCommand_quiet fun other hother => hquiet other (List.mem_append_left _ hother)
    have hrecorded := (hdue.mp hadded).1
    rw [hsubject] at hrecorded
    exact hbelow
      ((hafter.fades now command.1).shouldBan ((Fades.record hlast _).shouldBan hrecorded))

namespace Sample

/-- Core modules have seen enough of the peer for the automatic ban. -/
def tampered : RuntimeState := runCommands newState
  [(10, .submitObservation (.coreModule "dht") corruption),
    (11, .submitObservation (.coreModule "dht") corruption)]

theorem tampered_lifted : BanLifted oneShard tampered revoked "peer" 1 12 :=
  ⟨rfl, by decide +kernel, by decide +kernel⟩

end Sample

theorem revoked_ban_stays_away_tampered :
    ¬ ∀ (commands : List (Nat × Command)) (command : Nat × Command),
      (∀ other ∈ commands ++ [command], other.2.bringsEvidence "peer" = false) →
        bansAutomatically Sample.oneShard "peer" (commands.foldl
          (afterCommand Sample.oneShard Sample.inOrder) Sample.revoked) command = false := by
  rw [revoked_ban_stays_away_iff Sample.tampered_lifted, not_not]
  decide +kernel

/-- An application reports spam, and the ban is back. -/
theorem revoked_ban_returns : ¬ ∀ (shardIndex : String → UInt8) (visit : Visit)
    (before state : RuntimeState) (subject : String) (decisionId now : Nat),
      BanLifted shardIndex before state subject decisionId now →
        ∀ (commands : List (Nat × Command)) (command : Nat × Command),
          (∀ other ∈ commands ++ [command], other.2.bringsEvidence subject = false) →
            bansAutomatically shardIndex subject
              (commands.foldl (afterCommand shardIndex visit) state) command = false := by
  intro h
  have hspam := h _ Sample.inOrder _ _ _ _ _ Sample.tampered_lifted []
    (13, .submitObservation (.app "chat") Sample.spam)
      (by simp [Command.bringsEvidence, AuthorityId.isCoreModule])
  revert hspam
  decide +kernel

end VeilKnit.Reputation
