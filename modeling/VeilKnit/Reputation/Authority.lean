import VeilKnit.Library.Fallible
import VeilKnit.Reputation.Store

/-!
# What applications can do about a subject

An application decides about itself. Its decisions reach others only as a request that several
applications make together, and its observations only as scores. The one thing more that it can
do is to wake the classifier: where core modules have seen enough for the automatic ban and the
ban was revoked, the next observation of anyone brings it back.
-/

namespace VeilKnit.Reputation

open Library

variable {policies : SourcePolicies} {now time : Nat} {appId other : AppId}
  {entry : ReputationEntry} {decision : ReputationDecision} {appContext : Option AppId}

/-! ## Who is blocked -/

theorem strongestAccess_eq_blocked {left right : AccessLevel} :
    strongestAccess left right = .blocked ↔ left = .blocked ∨ right = .blocked := by
  cases left <;> cases right <;> decide

/-- A ban that reaches an application. -/
def blocksApp (appId : AppId) (decision : ReputationDecision) : Prop :=
  decision.action = .ban ∧ (decision.effectiveScope = .networkInteraction ∨
    decision.effectiveScope = .allApps ∨ decision.effectiveScope = .app appId)

theorem DecisionAction.level_eq_blocked {action : DecisionAction} :
    action.level = .blocked ↔ action = .ban := by
  cases action <;> decide

theorem isNetworkBan_iff : isNetworkBan decision = true ↔
    decision.action = .ban ∧ decision.effectiveScope = .networkInteraction :=
  decide_eq_true_iff

theorem Access.apply_network (access : Access) : (access.apply appContext decision).network =
    .blocked ↔ access.network = .blocked ∨ isNetworkBan decision = true := by
  rw [isNetworkBan_iff]
  unfold Access.apply
  split
  case h_1 hscope =>
    rw [strongestAccess_eq_blocked, DecisionAction.level_eq_blocked]
    simp [hscope]
  case h_2 hscope => simp [hscope]
  case h_3 scopeApp hscope => split <;> simp [hscope]

theorem Access.apply_app (access : Access) :
    (access.apply (some appId) decision).app = some .blocked ↔
      access.app = some .blocked ∨ access.app.isSome = true ∧ blocksApp appId decision := by
  have hlevel : (access.app.map fun level => strongestAccess level decision.action.level) =
      some .blocked ↔ access.app = some .blocked ∨
        access.app.isSome = true ∧ decision.action = .ban := by
    cases access.app with
    | none => simp
    | some level =>
      rw [Option.map_some, Option.some_inj, strongestAccess_eq_blocked,
        DecisionAction.level_eq_blocked]
      simp
  unfold Access.apply blocksApp
  split
  case h_1 hscope =>
    rw [hlevel]
    simp [hscope]
  case h_2 hscope =>
    rw [hlevel]
    simp [hscope]
  case h_3 scopeApp hscope =>
  split
  case isTrue h =>
    cases h
    rw [hlevel]
    simp [hscope]
  case isFalse h =>
    have hne : scopeApp ≠ appId := fun heq => h (by rw [heq])
    simp [hscope, hne]

theorem Access.apply_app_isSome (access : Access) :
    (access.apply appContext decision).app.isSome = access.app.isSome := by
  unfold Access.apply
  split
  · simp
  · simp
  · split <;> simp

theorem foldl_apply_network (appContext : Option AppId) (decisions : List ReputationDecision)
    (access : Access) :
    (decisions.foldl (Access.apply appContext) access).network = .blocked ↔
      access.network = .blocked ∨ ∃ decision ∈ decisions, isNetworkBan decision = true := by
  induction decisions generalizing access with
  | nil => simp
  | cons decision decisions ih =>
    rw [List.foldl_cons, ih, Access.apply_network]
    simp [or_assoc]

theorem foldl_apply_app (appId : AppId) (decisions : List ReputationDecision) {access : Access}
    (asked : access.app.isSome = true) :
    (decisions.foldl (Access.apply (some appId)) access).app = some .blocked ↔
      access.app = some .blocked ∨ ∃ decision ∈ decisions, blocksApp appId decision := by
  induction decisions generalizing access with
  | nil => simp
  | cons decision decisions ih =>
    rw [List.foldl_cons, ih (by rw [Access.apply_app_isSome]; exact asked), Access.apply_app]
    simp [asked, or_assoc]

theorem foldl_apply_isSome (decisions : List ReputationDecision) (access : Access) :
    (decisions.foldl (Access.apply appContext) access).app.isSome = access.app.isSome := by
  induction decisions generalizing access with
  | nil => rfl
  | cons decision decisions ih => rw [List.foldl_cons, ih, Access.apply_app_isSome]

theorem baseAccess_not_blocked (entry : ReputationEntry) :
    (entry.baseAccess appContext).network ≠ .blocked ∧
      (entry.baseAccess appContext).app ≠ some .blocked := by
  unfold ReputationEntry.baseAccess
  split <;> cases appContext <;> simp

/-- The decisions in force. -/
def ReputationEntry.inForce (policies : SourcePolicies) (time : Nat) (entry : ReputationEntry) :
    List ReputationDecision :=
  activeDecisions policies.sourceEnabled time entry.decisions

theorem mem_inForce : decision ∈ entry.inForce policies time ↔
    decision ∈ entry.decisions ∧ decision.isActiveAt time = true ∧
      policies.sourceEnabled decision.source = true := by
  simp [ReputationEntry.inForce, activeDecisions, List.mem_filter]

/-- The network is closed to a subject by a network ban in force that the user does not
override. -/
theorem access_network_blocked : (entry.access policies time appContext).network = .blocked ↔
    entry.userOverride = none ∧
      ∃ decision ∈ entry.inForce policies time, isNetworkBan decision = true := by
  unfold ReputationEntry.access Access.override
  cases entry.userOverride with
  | none =>
    have hdecided := foldl_apply_network appContext (entry.inForce policies time)
      (entry.baseAccess appContext)
    simp only [baseAccess_not_blocked, false_or] at hdecided
    exact ⟨fun h => ⟨rfl, hdecided.mp h⟩, fun h => hdecided.mpr h.2⟩
  | some record =>
    obtain ⟨mode, createdAt, note⟩ := record
    cases mode <;> simp

/-- Applications that ask for a broad ban close a subject off from all of them. -/
def ReputationEntry.corroborated (policies : SourcePolicies) (time : Nat)
    (entry : ReputationEntry) : Prop :=
  5 ≤ (broadAppBanSources (entry.inForce policies time)).length ∧ 70 ≤ entry.summary.abuseRisk

/-- An application is closed to a subject by a ban in force that reaches it or by corroboration,
unless the user overrides it. -/
theorem access_app_blocked : (entry.access policies time (some appId)).app = some .blocked ↔
    entry.userOverride = none ∧
      ((∃ decision ∈ entry.inForce policies time, blocksApp appId decision) ∨
        entry.corroborated policies time) := by
  unfold ReputationEntry.access Access.override
  cases entry.userOverride with
  | none =>
    have hasked : (entry.baseAccess (some appId)).app.isSome = true := rfl
    have hdecided := foldl_apply_app appId (entry.inForce policies time) hasked
    simp only [baseAccess_not_blocked, false_or] at hdecided
    obtain ⟨access, haccess⟩ : ∃ access, access = (entry.inForce policies time).foldl
        (Access.apply (some appId)) (entry.baseAccess (some appId)) := ⟨_, rfl⟩
    have hsome : access.app.isSome = true := by
      rw [haccess, foldl_apply_isSome]
      rfl
    obtain ⟨level, hlevel⟩ := Option.isSome_iff_exists.mp hsome
    have hcorroborated : (access.corroborate
        (broadAppBanSources (entry.inForce policies time)).length entry.summary.abuseRisk).app =
          some .blocked ↔ access.app = some .blocked ∨ entry.corroborated policies time := by
      unfold Access.corroborate ReputationEntry.corroborated
      rw [hlevel]
      dsimp only [Option.map_some]
      by_cases hmany : 5 ≤ (broadAppBanSources (entry.inForce policies time)).length ∧
          70 ≤ entry.summary.abuseRisk
      case pos => simp [hmany, strongestAccess_eq_blocked]
      case neg =>
        rw [if_neg hmany]
        simp only [hmany, or_false]
        split
        · simp [strongestAccess_eq_blocked]
        · rfl
    rw [← haccess] at hdecided
    simp only [true_and]
    rw [← hdecided, ← hcorroborated, haccess]
    rfl
  | some record =>
    obtain ⟨mode, createdAt, note⟩ := record
    cases mode <;> simp

/-! ## What wakes the classifier -/

section Classifier

variable {f : ScoreDelta → Nat} {a b : Evidence}

/-- A counter of events in 32 bits. -/
structure IsEventCount (f : ScoreDelta → Nat) : Prop where
  zero : f {} = 0
  add : ∀ a b, f (a.addAssign b) = saturatingAddU32 (f a) (f b)

theorem IsEventCount.foldl {α : Type} (hf : IsEventCount f) (p : α → Bool) (g : α → ScoreDelta)
    (items : List α) {total : ScoreDelta} (small : f total ≤ u32Max) :
    f ((items.filter p).foldl (fun total item => total.addAssign (g item)) total) =
      min (f total + (items.map fun item => if p item then f (g item) else 0).sum) u32Max := by
  induction items generalizing total with
  | nil => simpa using small
  | cons item items ih =>
    rw [List.map_cons, List.sum_cons]
    by_cases hp : p item
    case neg => simpa [hp] using ih small
    case pos =>
      have hadd := hf.add total (g item)
      rw [saturatingAddU32] at hadd
      rw [List.filter_cons_of_pos hp, List.foldl_cons, ih (by omega), hadd, if_pos hp]
      omega

/-- The events that core modules report, in the totals and in the queue. -/
def Evidence.coreEvents (f : ScoreDelta → Nat) (evidence : Evidence) : Nat :=
  (evidence.history.entries.map fun e => if e.1.isCoreModule then f e.2.totals else 0).sum +
    (evidence.recent.map fun observation =>
      if observation.isActive && observation.source.isCoreModule then f observation.contribution
      else 0).sum

theorem IsEventCount.coreCounts (hf : IsEventCount f) (evidence : Evidence) :
    f evidence.coreCounts = min (evidence.coreEvents f) u32Max := by
  have hfolded := hf.foldl (fun e : Σ _ : AuthorityId, HistoricalAggregate => e.1.isCoreModule)
    (fun e => e.2.totals) evidence.history.entries (by rw [hf.zero]; exact Nat.zero_le _)
  rw [hf.zero, Nat.zero_add] at hfolded
  unfold Evidence.coreCounts
  rw [hf.foldl _ _ _ (by rw [hfolded]; exact min_le_right _ _), hfolded, Evidence.coreEvents]
  omega

theorem sum_history (g : AuthorityId → HistoricalAggregate → Nat) (history : History)
    (source : AuthorityId) (h : g source {} = 0) (aggregate : HistoricalAggregate) :
    g source (history.aggregate source) ≤ (history.entries.map fun e => g e.1 e.2).sum ∧
      ((history.insert source aggregate).entries.map fun e => g e.1 e.2).sum +
          g source (history.aggregate source) =
        (history.entries.map fun e => g e.1 e.2).sum + g source aggregate := by
  rw [AList.entries_insert, List.map_cons, List.sum_cons]
  unfold History.aggregate
  cases hlookup : history.lookup source with
  | none =>
    have herase := AList.erase_of_lookup hlookup
    have hentries : history.entries.kerase source = history.entries := congrArg AList.entries herase
    rw [hentries, Option.getD_none, h, Nat.add_zero]
    exact ⟨Nat.zero_le _, Nat.add_comm _ _⟩
  | some old =>
    have hperm := ((AList.perm_entries_of_lookup hlookup).map fun e => g e.1 e.2).sum_nat
    rw [List.map_cons, List.sum_cons] at hperm
    have hentries : (history.erase source).entries = history.entries.kerase source := rfl
    rw [hentries] at hperm
    rw [hperm, Option.getD_some]
    dsimp only
    constructor <;> omega

/-- A retracted observation leaves the totals alone. -/
theorem fold_events (hf : IsEventCount f) (observation : ReputationObservation)
    (aggregate : HistoricalAggregate) : f (aggregate.fold observation).totals =
      if observation.isActive then min (f aggregate.totals + f observation.contribution) u32Max
      else f aggregate.totals := by
  unfold HistoricalAggregate.fold ReputationObservation.isActive
  cases observation.retractedAt with
  | some retractedAt => rfl
  | none => exact hf.add _ _

/-- Compaction loses no event. -/
theorem Compacted.coreCounts (h : Compacted a b) (hf : IsEventCount f) :
    f b.coreCounts = f a.coreCounts := by
  induction h with
  | same => rfl
  | @fold before after observation history _ ih =>
    rw [← ih, hf.coreCounts, hf.coreCounts]
    unfold Evidence.coreEvents foldObservation
    obtain ⟨folded, hfolded⟩ : ∃ folded, folded =
        (history.aggregate observation.source).fold observation := ⟨_, rfl⟩
    have htotals := fold_events hf observation (history.aggregate observation.source)
    obtain ⟨hle, hsum⟩ := sum_history (fun source aggregate =>
        if source.isCoreModule then f aggregate.totals else 0) history observation.source
      (by simp [hf.zero]) folded
    rw [← hfolded] at htotals ⊢
    simp only [List.map_append, List.map_cons, List.sum_append, List.sum_cons]
    by_cases hcore : observation.source.isCoreModule = true
    case pos =>
      rw [if_pos hcore, if_pos hcore] at hsum
      rw [if_pos hcore] at hle
      by_cases hactive : observation.isActive = true
      case pos =>
        have hcounts : (observation.isActive && observation.source.isCoreModule) = true := by
          rw [hactive, hcore, Bool.and_self]
        rw [if_pos hactive] at htotals
        rw [if_pos hcounts]
        omega
      case neg =>
        have hcounts : ¬ (observation.isActive && observation.source.isCoreModule) = true := by
          simp [hactive]
        rw [if_neg hactive] at htotals
        rw [if_neg hcounts]
        omega
    case neg =>
      rw [if_neg hcore, if_neg hcore] at hsum
      rw [Bool.not_eq_true] at hcore
      rw [hcore, Bool.and_false, if_neg Bool.false_ne_true]
      omega

variable {observation : ReputationObservation}

theorem coreCounts_append (hf : IsEventCount f)
    (h : observation.source.isCoreModule = false) (evidence : Evidence) :
    f (⟨evidence.recent ++ [observation], evidence.history⟩ : Evidence).coreCounts =
      f evidence.coreCounts := by
  rw [hf.coreCounts, hf.coreCounts]
  simp [Evidence.coreEvents, h]

/-- An observation of anyone but a core module does not make the automatic ban due. -/
theorem shouldBan_record (h : observation.source.isCoreModule = false) (evidence : Evidence) :
    (evidence.record now observation).coreCounts.shouldBan ↔ evidence.coreCounts.shouldBan := by
  obtain ⟨room, hcompacted, hrecord⟩ := evidence.record_compacted now observation
  have hsame : ∀ f : ScoreDelta → Nat, IsEventCount f →
      f (evidence.record now observation).coreCounts = f evidence.coreCounts := by
    intro f hf
    rw [hrecord, coreCounts_append hf h]
    exact hcompacted.coreCounts hf
  have himpossible := hsame ScoreDelta.impossibleProtocolEvents ⟨rfl, fun _ _ => rfl⟩
  have hsignature := hsame ScoreDelta.invalidSignatureEvents ⟨rfl, fun _ _ => rfl⟩
  have hcorruption := hsame ScoreDelta.deliberateCorruptionEvents ⟨rfl, fun _ _ => rfl⟩
  rw [ScoreDelta.shouldBan, ScoreDelta.shouldBan, himpossible, hsignature, hcorruption]

end Classifier

/-! ## What an application's command does to an entry -/

section Limits

variable {before mid after : ReputationEntry}

/-- The evidence of others stays: what leaves the queue of a source is in the totals of this
source. -/
def KeepsEvidence (appId : AppId) (before after : Evidence) : Prop :=
  ∀ source, source ≠ .app appId → ∃ folded,
    (before.recentOf source).Perm (folded ++ after.recentOf source) ∧
      after.history.aggregate source =
        folded.foldl HistoricalAggregate.fold (before.history.aggregate source)

/-- What an application makes of an entry before its summary is computed. -/
structure Touches (appId : AppId) (now : Nat) (before mid : ReputationEntry) : Prop where
  userOverride : mid.userOverride = before.userOverride
  decisions : ∀ decision ∈ mid.decisions, decision ∈ before.decisions ∨
    (decision.source = .app appId ∧
      (decision.effectiveScope = .app appId ∨ decision.status = .revoked)) ∨
    before.banDue now
  kept : ∀ decision ∈ before.decisions, decision.source ≠ .app appId → decision ∈ mid.decisions
  evidence : KeepsEvidence appId before.evidence mid.evidence

/-- What an application's command leaves of an entry as it was. -/
structure Limited (appId : AppId) (now : Nat) (before after : ReputationEntry) : Prop where
  userOverride : after.userOverride = before.userOverride
  /-- A decision in force was there, or it is the application's own about itself, or the
  automatic ban was due. -/
  active : ∀ decision ∈ after.decisions, ∀ time, decision.isActiveAt time = true →
    decision ∈ before.decisions ∨
      (decision.source = .app appId ∧ decision.effectiveScope = .app appId) ∨ before.banDue now
  classifier : ∀ decision ∈ after.decisions, isClassifierBan decision = true →
    (∃ old ∈ before.decisions, decision = old.expire now) ∨ before.banDue now
  kept : ∀ decision ∈ before.decisions, decision.source ≠ .app appId →
    decision.expire now ∈ after.decisions
  evidence : KeepsEvidence appId before.evidence after.evidence

theorem KeepsEvidence.refl (appId : AppId) (evidence : Evidence) :
    KeepsEvidence appId evidence evidence :=
  fun _ _ => ⟨[], .refl _, rfl⟩

theorem KeepsEvidence.compacted {a b c : Evidence} (h : KeepsEvidence appId a b)
    (compacted : Compacted b c) : KeepsEvidence appId a c := by
  intro source hsource
  obtain ⟨folded, hperm, haggregate⟩ := h source hsource
  obtain ⟨more, hmore, hfolded⟩ := compacted.of_source source
  refine ⟨folded ++ more, hperm.trans ?_, ?_⟩
  · rw [List.append_assoc]
    exact hmore.append_left folded
  · rw [hfolded, haggregate, List.foldl_append]

/-- Computing the summary makes of a touched entry a limited one. -/
theorem Touches.recompute (h : Touches appId now before mid) (policies : SourcePolicies) :
    Limited appId now before (mid.recompute policies now) := by
  have hexpired : ∀ decision ∈ (mid.recompute policies now).decisions,
      ∃ old ∈ mid.decisions, decision = old.expire now := by
    intro decision hmem
    obtain ⟨old, hold, rfl⟩ := List.mem_map.mp hmem
    exact ⟨old, hold, rfl⟩
  constructor
  · exact h.userOverride
  · intro decision hmem time hactive
    obtain ⟨old, hold, rfl⟩ := hexpired decision hmem
    have hsame := ReputationDecision.expire_eq_of_active hactive
    rw [hsame] at hactive ⊢
    rcases h.decisions old hold with hbefore | ⟨hsource, hscope | hrevoked⟩ | hdue
    · exact .inl hbefore
    · exact .inr (.inl ⟨hsource, hscope⟩)
    · simp [ReputationDecision.isActiveAt, hrevoked] at hactive
    · exact .inr (.inr hdue)
  · intro decision hmem hclassifier
    obtain ⟨old, hold, rfl⟩ := hexpired decision hmem
    rcases h.decisions old hold with hbefore | ⟨hsource, -⟩ | hdue
    · exact .inl ⟨old, hbefore, rfl⟩
    · simp [isClassifierBan, classifierModule, hsource] at hclassifier
    · exact .inr hdue
  · intro decision hmem hsource
    exact List.mem_map.mpr ⟨decision, h.kept decision hmem hsource, rfl⟩
  · exact h.evidence.compacted (compactRecentObservations_compacted now mid.evidence)

variable {observation : ReputationObservation}

/-- An observation of the application. -/
theorem KeepsEvidence.record (own : observation.source = .app appId) (evidence : Evidence) :
    KeepsEvidence appId evidence (evidence.record now observation) := by
  obtain ⟨room, hcompacted, hrecord⟩ := evidence.record_compacted now observation
  intro source hsource
  obtain ⟨folded, hperm, haggregate⟩ := hcompacted.of_source source
  rw [hrecord]
  refine ⟨folded, hperm.trans (.of_eq (congrArg (folded ++ ·) ?_)), haggregate⟩
  have hother : observation.source ≠ source := fun h => hsource (h.symm.trans own)
  simp [Evidence.recentOf, hother]

/-- A retraction of the application's own observation. -/
theorem KeepsEvidence.retract {id : Nat}
    {evidence : Evidence} (own : observation.source = .app appId)
    (found : evidence.recent.find? (fun observation => decide (observation.id = id)) =
      some observation) : KeepsEvidence appId evidence (evidence.retract id now) := by
  obtain ⟨before, after, hrecent, hupdated⟩ :=
    updateFirst_of_find? (ReputationObservation.retract now) found
  intro source hsource
  refine ⟨[], .of_eq ?_, rfl⟩
  have hother : observation.source ≠ source := fun h => hsource (h.symm.trans own)
  have hretracted : (observation.retract now).source ≠ source := hother
  rw [List.nil_append, Evidence.recentOf, Evidence.recentOf, Evidence.retract]
  rw [hupdated, hrecent]
  simp [hother, hretracted]

end Limits

/-! ## Commands of applications -/

/-- The commands that the handle of an application sends. -/
def Command.isOf (appId : AppId) : Command → Prop
  | .submitObservation source _ => source = .app appId
  | .retractObservation requiredSource _ _ => requiredSource = some (.app appId)
  | .createDecision source _ _ _ _ _ => source = .app appId
  | .revokeDecision requiredSource _ _ => requiredSource = some (.app appId)
  | _ => False

/-- A command of an application touches the entry of one subject. -/
structure AppStep (appId : AppId) (now : Nat) (subject : String)
    (before after : ReputationStore) : Prop where
  policies : after.appSourcePolicies = before.appSourcePolicies
  others : ∀ other, other ≠ subject → after.entry other = before.entry other
  touched : ∃ entry, after.entry subject = some entry ∧
    Limited appId now (before.entryOrNew subject now) entry

section Commands

variable {shardIndex : String → UInt8} {visit : Visit} {state after : RuntimeState}
  {subject : String} {store : ReputationStore}

/-- Storing a touched entry and computing its summary. -/
theorem AppStep.of_touches {mid : ReputationEntry}
    (touches : Touches appId now (state.store.entryOrNew subject now) mid)
    (others : ∀ other, other ≠ subject → store.entry other = state.store.entry other)
    (policies : store.appSourcePolicies = state.store.appSourcePolicies) :
    AppStep appId now subject state.store
      ((store.setEntry subject mid).recomputeSubject subject now) := by
  refine ⟨?_, fun other hother => ?_, mid.recompute store.appSourcePolicies now, ?_,
    touches.recompute _⟩
  · rw [ReputationStore.appSourcePolicies_recomputeSubject]
    exact policies
  · rw [ReputationStore.entry_recomputeSubject, if_neg hother,
      ReputationStore.entry_setEntry_ne _ _ hother]
    exact others other hother
  · rw [ReputationStore.entry_recomputeSubject, if_pos rfl, store.entry_setEntry_self subject mid]
    rfl

theorem submitObservation_appStep {input : ObservationInput} {outcome : SubmitOutcome}
    (h : submitObservation shardIndex state (.app appId) input now = .ok (after, outcome)) :
    AppStep appId now input.subject state.store after.store := by
  unfold submitObservation at h
  split at h
  · cases h
  dsimp only at h
  obtain ⟨entry, hentry⟩ : ∃ entry, entry = state.store.entryOrNew input.subject now := ⟨_, rfl⟩
  obtain ⟨observation, hobservation⟩ : ∃ observation : ReputationObservation, observation =
      { id := state.store.nextObservationId
        subject := input.subject
        source := .app appId
        kind := input.kind
        details := input.details
        observedAt := now
        retractedAt := none } := ⟨_, rfl⟩
  have hnew : ({ state.store with nextObservationId := succId state.store.nextObservationId } :
      ReputationStore).entryOrNew input.subject now = entry := hentry.symm
  rw [← hobservation, hnew] at h
  have hown : observation.source = .app appId := by rw [hobservation]
  have hevidence : KeepsEvidence appId entry.evidence (entry.evidence.record now observation) :=
    .record hown entry.evidence
  unfold ensureAutomaticIntegrityBan at h
  rw [ReputationStore.entry_setEntry_self] at h
  dsimp only at h
  split at h
  case isTrue hdue =>
    obtain ⟨rfl, -⟩ := Prod.mk.inj (Except.ok.inj h)
    have hbefore : entry.banDue now := by
      have hcore : observation.source.isCoreModule = false := by rw [hown]; rfl
      exact ⟨(shouldBan_record hcore entry.evidence).mp hdue.1, hdue.2⟩
    refine AppStep.of_touches ⟨?_, ?_, ?_, ?_⟩ (fun other hother => ?_) rfl
    · rw [← hentry]
    · rw [← hentry]
      exact fun decision hmem => .inr (.inr hbefore)
    · rw [← hentry]
      exact fun decision hmem _ => List.mem_append_left _ hmem
    · rw [← hentry]
      exact hevidence
    · exact ReputationStore.entry_setEntry_ne _ _ hother
  case isFalse hdue =>
  obtain ⟨rfl, -⟩ := Prod.mk.inj (Except.ok.inj h)
  refine AppStep.of_touches ⟨?_, ?_, ?_, ?_⟩ (fun _ _ => rfl) rfl
  · rw [← hentry]
  · rw [← hentry]
    exact fun decision hmem => .inl hmem
  · rw [← hentry]
    exact fun decision hmem _ => hmem
  · rw [← hentry]
    exact hevidence

theorem entryOrNew_of_some {entry : ReputationEntry} (h : store.entry subject = some entry) :
    store.entryOrNew subject now = entry := by
  rw [ReputationStore.entryOrNew, h, Option.getD_some]

theorem retractObservation_appStep {observationId : Nat}
    (h : retractObservation shardIndex state (some (.app appId)) subject observationId now =
      .ok after) : AppStep appId now subject state.store after.store := by
  obtain ⟨entry, observation, hentry, hfound, hallowed, hstore⟩ := retractObservation_eq_ok h
  rw [hstore]
  refine AppStep.of_touches ?_ (fun _ _ => rfl) rfl
  rw [entryOrNew_of_some hentry]
  exact ⟨rfl, fun _ hmem => .inl hmem, fun _ hmem _ => hmem, .retract (hallowed _ rfl).symm hfound⟩

theorem createDecision_appStep {action : DecisionAction} {requestedScope : BanScope}
    {reason : String} {expiresAt : Option Nat} {id : Nat}
    (h : createDecision shardIndex state (.app appId) subject action requestedScope reason
      expiresAt now = .ok (after, id)) : AppStep appId now subject state.store after.store := by
  obtain ⟨decision, hsource, hscope, -, hstore⟩ := createDecision_eq_ok h
  rw [hstore]
  refine AppStep.of_touches ⟨rfl, fun other hmem => ?_,
    fun _ hmem _ => List.mem_append_left _ hmem, .refl appId _⟩ (fun _ _ => rfl) rfl
  rcases List.mem_append.mp hmem with hbefore | hnew
  · exact .inl hbefore
  · obtain rfl := List.mem_singleton.mp hnew
    exact .inr (.inl ⟨hsource, .inl hscope⟩)

theorem revokeDecision_appStep {decisionId : Nat}
    (h : revokeDecision shardIndex state (some (.app appId)) subject decisionId now =
      .ok after) : AppStep appId now subject state.store after.store := by
  obtain ⟨entry, decision, hentry, hfound, hallowed, hstore⟩ := revokeDecision_eq_ok h
  rw [hstore]
  have hown : decision.source = .app appId := (hallowed _ rfl).symm
  obtain ⟨left, right, hdecisions, hrevoked⟩ :=
    updateFirst_of_find? (ReputationDecision.revoke now) hfound
  refine AppStep.of_touches ?_ (fun _ _ => rfl) rfl
  rw [entryOrNew_of_some hentry]
  refine ⟨rfl, fun other hmem => ?_, fun other hmem hother => ?_, .refl appId _⟩
  · rw [revokeById, hrevoked] at hmem
    rw [hdecisions]
    rcases List.mem_append.mp hmem with hleft | hright
    · exact .inl (List.mem_append_left _ hleft)
    · rcases List.mem_cons.mp hright with rfl | hright
      · exact .inr (.inl ⟨hown, .inr rfl⟩)
      · exact .inl (List.mem_append_right _ (List.mem_cons_of_mem _ hright))
  rw [revokeById, hrevoked]
  rw [hdecisions] at hmem
  rcases List.mem_append.mp hmem with hleft | hright
  · exact List.mem_append_left _ hleft
  · rcases List.mem_cons.mp hright with rfl | hright
    · exact absurd hown hother
    · exact List.mem_append_right _ (List.mem_cons_of_mem _ hright)

/-- Every command of an application is a step of it. -/
theorem perform_appStep {command : Command} (isOf : command.isOf appId)
    (h : perform shardIndex visit state now command = .ok after) :
    ∃ subject, AppStep appId now subject state.store after.store := by
  cases command with
  | submitObservation source input =>
    obtain rfl : source = .app appId := isOf
    obtain ⟨⟨result, outcome⟩, hsubmit, rfl⟩ := except_map_eq_ok.mp h
    exact ⟨_, submitObservation_appStep hsubmit⟩
  | retractObservation requiredSource subject observationId =>
    obtain rfl : requiredSource = some (.app appId) := isOf
    exact ⟨_, retractObservation_appStep h⟩
  | createDecision source subject action requestedScope reason expiresAt =>
    obtain rfl : source = .app appId := isOf
    obtain ⟨⟨result, id⟩, hcreate, rfl⟩ := except_map_eq_ok.mp h
    exact ⟨_, createDecision_appStep hcreate⟩
  | revokeDecision requiredSource subject decisionId =>
    obtain rfl : requiredSource = some (.app appId) := isOf
    exact ⟨_, revokeDecision_appStep h⟩
  | setUserOverride _ _ _ => cases isOf
  | clearUserOverride _ => cases isOf
  | retractAppSource _ _ => cases isOf
  | setAppSourcePolicy _ _ => cases isOf
  | deleteAppSourceData _ => cases isOf
  | runGarbageCollection => cases isOf

end Commands

/-! ## Views after an application's command -/

section Views

variable {store : ReputationStore} {subject : String} {before after : ReputationEntry}

/-- A subject without an entry is as open as one with a new entry. -/
theorem buildView_network_blocked (now : Nat) :
    (buildView store subject appContext time).networkAccess = .blocked ↔
      ((store.entryOrNew subject now).access store.appSourcePolicies time appContext).network =
        .blocked := by
  unfold buildView
  cases hentry : store.entry subject with
  | some entry => rw [entryOrNew_of_some hentry]; rfl
  | none =>
    rw [access_network_blocked, ReputationStore.entryOrNew, hentry]
    simp [unknownView, mem_inForce, ReputationEntry.new]

theorem buildView_app_blocked (now : Nat) :
    (buildView store subject (some appId) time).appAccess = some .blocked ↔
      ((store.entryOrNew subject now).access store.appSourcePolicies time (some appId)).app =
        some .blocked := by
  unfold buildView
  cases hentry : store.entry subject with
  | some entry => rw [entryOrNew_of_some hentry]; rfl
  | none =>
    rw [access_app_blocked, ReputationStore.entryOrNew, hentry]
    simp [unknownView, mem_inForce, ReputationEntry.new, ReputationEntry.corroborated,
      ReputationSummary.new]

/-- A decision in force was in force before, or the application made it about itself. -/
theorem Limited.mem_inForce (h : Limited appId now before after)
    (active : decision ∈ after.inForce policies time) :
    decision ∈ before.inForce policies time ∨
      (decision.source = .app appId ∧ decision.effectiveScope = .app appId) ∨
        before.banDue now := by
  obtain ⟨hmem, hactive, henabled⟩ := Reputation.mem_inForce.mp active
  rcases h.active decision hmem time hactive with hbefore | hrest
  · exact .inl (Reputation.mem_inForce.mpr ⟨hbefore, hactive, henabled⟩)
  · exact .inr hrest

theorem Limited.network (h : Limited appId now before after)
    (blocked : (after.access policies time appContext).network = .blocked) :
    (before.access policies time appContext).network = .blocked ∨ before.banDue now := by
  obtain ⟨hoverride, ban, hforce, hban⟩ := access_network_blocked.mp blocked
  rw [h.userOverride] at hoverride
  rcases h.mem_inForce hforce with hbefore | ⟨-, hown⟩ | hdue
  · exact .inl (access_network_blocked.mpr ⟨hoverride, ban, hbefore, hban⟩)
  · have hscope := (isNetworkBan_iff.mp hban).2
    rw [hown] at hscope
    cases hscope
  · exact .inr hdue

theorem Limited.app (h : Limited appId now before after) (different : other ≠ appId)
    (blocked : (after.access policies time (some other)).app = some .blocked) :
    (before.access policies time (some other)).app = some .blocked ∨ before.banDue now ∨
      after.corroborated policies time := by
  obtain ⟨hoverride, ⟨ban, hforce, haction, hscope⟩ | hmany⟩ := access_app_blocked.mp blocked
  case inr => exact .inr (.inr hmany)
  case inl =>
  rw [h.userOverride] at hoverride
  rcases h.mem_inForce hforce with hbefore | ⟨-, hown⟩ | hdue
  · exact .inl (access_app_blocked.mpr ⟨hoverride, .inl ⟨ban, hbefore, haction, hscope⟩⟩)
  · rw [hown] at hscope
    rcases hscope with hscope | hscope | hscope
    · cases hscope
    · cases hscope
    · exact absurd (BanScope.app.inj hscope).symm different
  · exact .inr (.inl hdue)

end Views

/-- What a command of an application leaves of others' authority over a subject, as seen before
and after it. -/
structure RespectsAuthority (appId : AppId) (now : Nat) (before after : ReputationStore)
    (subject : String) : Prop where
  /-- The network stays open, unless the automatic ban was due. -/
  network : ∀ appContext time, (buildView after subject appContext time).networkAccess = .blocked →
      (buildView before subject appContext time).networkAccess = .blocked ∨
        (before.entryOrNew subject now).banDue now
  /-- No automatic ban is added, unless it was due. -/
  classifier : ∀ decision ∈ (after.entryOrNew subject now).decisions,
    isClassifierBan decision = true →
      (∃ old ∈ (before.entryOrNew subject now).decisions,
        decision = old ∨ decision = old.expire now) ∨
        (before.entryOrNew subject now).banDue now
  /-- Decisions of others stay, at most expired. -/
  decisions : ∀ decision ∈ (before.entryOrNew subject now).decisions,
    decision.source ≠ .app appId → decision ∈ (after.entryOrNew subject now).decisions ∨
      decision.expire now ∈ (after.entryOrNew subject now).decisions
  evidence : KeepsEvidence appId (before.entryOrNew subject now).evidence
    (after.entryOrNew subject now).evidence
  userOverride : (after.entryOrNew subject now).userOverride =
    (before.entryOrNew subject now).userOverride
  /-- Another application stays open, unless enough applications that count ask for a broad ban
  of a subject that abuses. -/
  app : ∀ other, other ≠ appId → ∀ time,
    (buildView after subject (some other) time).appAccess = some .blocked →
      (buildView before subject (some other) time).appAccess = some .blocked ∨
        (before.entryOrNew subject now).banDue now ∨
          (after.entryOrNew subject now).corroborated after.appSourcePolicies time

namespace Sample

def corruption : ObservationInput := ⟨"peer", .deliberateStateCorruption, ⟨none, none⟩⟩

def spam : ObservationInput := ⟨"peer", .spam, ⟨none, none⟩⟩

/-- Core modules have seen enough of the peer, and the user has revoked the automatic ban. -/
def revoked : RuntimeState := runCommands newState
  [(10, .submitObservation (.coreModule "dht") corruption),
    (11, .submitObservation (.coreModule "dht") corruption),
    (12, .revokeDecision none "peer" 1)]

/-- An application observes the peer once more. -/
def banned : RuntimeState := runCommands revoked [(13, .submitObservation (.app "chat") spam)]

end Sample

end VeilKnit.Reputation
