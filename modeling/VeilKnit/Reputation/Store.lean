import Mathlib.Data.Finset.Basic
import Mathlib.Data.List.DropRight
import Mathlib.Data.List.Sort
import VeilKnit.Reputation.Entries

/-!
# The store and its commands

Commands of the user, of core modules and of applications change the store and mark the shards
that have to be written.
-/

namespace VeilKnit.Reputation

open Library

/-! ## The store -/

structure AppSourceRetractionRecord where
  appId : AppId
  retractedAt : Nat
  activeObservationsRetracted : Nat
  historicalObservationsRetracted : Nat
  decisionsRevoked : Nat
  affectedSubjects : Nat
  reason : String
  deriving DecidableEq

abbrev Entries := AList fun _ : String => ReputationEntry

structure ReputationStore where
  nextObservationId : Nat
  nextDecisionId : Nat
  entries : Entries
  appSourcePolicies : SourcePolicies
  appSourceRetractions : List AppSourceRetractionRecord

def ReputationStore.default : ReputationStore := ⟨1, 1, ∅, ∅, []⟩

/-- The number after an identifier. -/
def succId (id : Nat) : Nat := max (saturatingAddU64 id 1) 1

namespace ReputationStore

def entry (store : ReputationStore) (subject : String) : Option ReputationEntry :=
  store.entries.lookup subject

def entryOrNew (store : ReputationStore) (subject : String) (now : Nat) : ReputationEntry :=
  (store.entry subject).getD (.new subject now)

def setEntry (store : ReputationStore) (subject : String) (entry : ReputationEntry) :
    ReputationStore :=
  { store with entries := store.entries.insert subject entry }

@[simp]
theorem entry_setEntry_self (store : ReputationStore) (subject : String)
    (entry : ReputationEntry) : (store.setEntry subject entry).entry subject = some entry :=
  AList.lookup_insert _

theorem entry_setEntry_ne (store : ReputationStore) {subject other : String}
    (entry : ReputationEntry) (h : other ≠ subject) :
    (store.setEntry subject entry).entry other = store.entry other :=
  AList.lookup_insert_ne h

theorem entry_setEntry (store : ReputationStore) (subject other : String)
    (entry : ReputationEntry) : (store.setEntry subject entry).entry other =
      if other = subject then some entry else store.entry other := by
  split
  case isTrue h => rw [h, entry_setEntry_self]
  case isFalse h => exact entry_setEntry_ne store entry h

def recomputeSubject (store : ReputationStore) (subject : String) (now : Nat) :
    ReputationStore :=
  match store.entry subject with
  | none => store
  | some entry => store.setEntry subject (entry.recompute store.appSourcePolicies now)

def recomputeSubjects (store : ReputationStore) (subjects : List String) (now : Nat) :
    ReputationStore :=
  subjects.foldl (fun store subject => store.recomputeSubject subject now) store

/-- The subjects that the entries name. -/
def subjects (store : ReputationStore) : List String :=
  store.entries.entries.map fun e => e.2.subject

end ReputationStore

/-! ## The automatic ban -/

def classifierModule : AuthorityId := .coreModule "reputation_classifier"

/-- What core modules have observed. -/
def Evidence.coreCounts (evidence : Evidence) : ScoreDelta :=
  let folded := (evidence.history.entries.filter fun e => e.1.isCoreModule).foldl
    (fun total e => total.addAssign e.2.totals) {}
  (evidence.recent.filter fun observation =>
      observation.isActive && observation.source.isCoreModule).foldl
    (fun total observation => total.addAssign observation.contribution) folded

/-- The thresholds of the automatic ban. -/
def ScoreDelta.shouldBan (counts : ScoreDelta) : Prop :=
  2 ≤ counts.deliberateCorruptionEvents ∨ 3 ≤ counts.impossibleProtocolEvents ∨
    6 ≤ counts.invalidSignatureEvents ∨
      1 ≤ counts.deliberateCorruptionEvents ∧ 1 ≤ counts.impossibleProtocolEvents

instance decidableShouldBan (counts : ScoreDelta) : Decidable counts.shouldBan :=
  inferInstanceAs (Decidable (_ ∨ _))

/-- A ban from the network by the classifier. -/
def isClassifierBan (decision : ReputationDecision) : Bool :=
  decide (decision.source = classifierModule) && isNetworkBan decision

def classifierBan (id : Nat) (subject : String) (now : Nat) : ReputationDecision where
  id := id
  subject := subject
  source := classifierModule
  action := .ban
  requestedScope := .networkInteraction
  effectiveScope := .networkInteraction
  reason := "Repeated locally verified protocol states consistent with tampering"
  createdAt := now
  expiresAt := none
  status := .active
  revokedAt := none

/-- Whether the automatic ban is due and not in force. -/
def ReputationEntry.banDue (now : Nat) (entry : ReputationEntry) : Prop :=
  entry.evidence.coreCounts.shouldBan ∧
    ¬ entry.decisions.any fun decision => isClassifierBan decision && decision.isActiveAt now

instance decidableBanDue (now : Nat) (entry : ReputationEntry) : Decidable (entry.banDue now) :=
  inferInstanceAs (Decidable (_ ∧ _))

def ensureAutomaticIntegrityBan (store : ReputationStore) (subject : String) (now : Nat) :
    ReputationStore × Bool :=
  match store.entry subject with
  | none => (store, false)
  | some entry =>
    if entry.banDue now then
      ({ store with nextDecisionId := succId store.nextDecisionId }.setEntry subject
        { entry with decisions :=
            entry.decisions ++ [classifierBan store.nextDecisionId subject now] }, true)
    else (store, false)

/-! ## Commands -/

structure RuntimeState where
  store : ReputationStore
  dirtyMetadata : Bool
  dirtyShards : Finset UInt8

inductive Command
  | submitObservation (source : AuthorityId) (input : ObservationInput)
  | retractObservation (requiredSource : Option AuthorityId) (subject : String)
      (observationId : Nat)
  | createDecision (source : AuthorityId) (subject : String) (action : DecisionAction)
      (requestedScope : BanScope) (reason : String) (expiresAt : Option Nat)
  | revokeDecision (requiredSource : Option AuthorityId) (subject : String) (decisionId : Nat)
  | setUserOverride (subject : String) (mode : UserOverrideMode) (note : Option String)
  | clearUserOverride (subject : String)
  | retractAppSource (appId : AppId) (reason : String)
  | setAppSourcePolicy (appId : AppId) (policy : AppSourcePolicy)
  | deleteAppSourceData (appId : AppId)
  | runGarbageCollection

/-- An order in which a map is gone through. -/
structure Visit where
  arrange : List (Σ _ : String, ReputationEntry) → List (Σ _ : String, ReputationEntry)
  perm : ∀ entries, (arrange entries).Perm entries

section Commands

variable (shardIndex : String → UInt8)

def RuntimeState.markSubjectDirty (state : RuntimeState) (subject : String) : RuntimeState :=
  { state with dirtyShards := insert (shardIndex subject) state.dirtyShards }

def RuntimeState.markMetadataDirty (state : RuntimeState) : RuntimeState :=
  { state with dirtyMetadata := true }

/-- The outcome of a submission also says whether it led to the automatic ban. -/
structure SubmitOutcome where
  id : Nat
  automaticBanAdded : Bool

def submitObservation (state : RuntimeState) (source : AuthorityId) (input : ObservationInput)
    (now : Nat) : Except ReputationError (RuntimeState × SubmitOutcome) :=
  match input.details.validate with
  | .error e => .error e
  | .ok () =>
    let id := state.store.nextObservationId
    let store := { state.store with nextObservationId := succId id }
    let entry := store.entryOrNew input.subject now
    let observation : ReputationObservation :=
      { id := id
        subject := input.subject
        source := source
        kind := input.kind
        details := input.details
        observedAt := now
        retractedAt := none }
    let recorded := store.setEntry input.subject
      { entry with
        evidence := entry.evidence.record now observation
        lastTouched := now }
    let (ensured, automaticBanAdded) := ensureAutomaticIntegrityBan recorded input.subject now
    let recomputed := ensured.recomputeSubject input.subject now
    .ok ((({ state with store := recomputed }).markSubjectDirty shardIndex
      input.subject).markMetadataDirty, ⟨id, automaticBanAdded⟩)

def ReputationObservation.retract (now : Nat) (observation : ReputationObservation) :
    ReputationObservation :=
  { observation with retractedAt := some now }

/-- The observation of an identifier is retracted. -/
def Evidence.retract (observationId now : Nat) (evidence : Evidence) : Evidence :=
  let identified := fun observation : ReputationObservation =>
    decide (observation.id = observationId)
  { evidence with recent := updateFirst identified (.retract now) evidence.recent }

def retractObservation (state : RuntimeState) (requiredSource : Option AuthorityId)
    (subject : String) (observationId now : Nat) : Except ReputationError RuntimeState :=
  match state.store.entry subject with
  | none => .error .entryNotFound
  | some entry =>
    match entry.evidence.recent.find? fun observation =>
        decide (observation.id = observationId) with
    | none => .error .observationNotFoundOrCompacted
    | some observation =>
      if requiredSource.any fun source => decide (source ≠ observation.source) then
        .error .permissionDenied
      else
        let retracted := state.store.setEntry subject
          { entry with
            evidence := entry.evidence.retract observationId now
            lastTouched := now }
        .ok ({ state with store := retracted.recomputeSubject subject now }.markSubjectDirty
          shardIndex subject)

/-- An application may not name another one. -/
def validateScopeForSource : AuthorityId → BanScope → Except ReputationError Unit
  | .app sourceApp, .app targetApp =>
    if sourceApp ≠ targetApp then .error .permissionDenied else .ok ()
  | _, _ => .ok ()

/-- An application's decisions hold for itself only. -/
def effectiveScopeForSource : AuthorityId → BanScope → BanScope
  | .app appId, _ => .app appId
  | _, requested => requested

def createDecision (state : RuntimeState) (source : AuthorityId) (subject : String)
    (action : DecisionAction) (requestedScope : BanScope) (reason : String)
    (expiresAt : Option Nat) (now : Nat) : Except ReputationError (RuntimeState × Nat) :=
  if reason.utf8ByteSize > maxDescriptionBytes then .error .reasonTooLong
  else if expiresAt.any fun expiry => decide (expiry ≤ now) then .error .invalidExpiry
  else
    match validateScopeForSource source requestedScope with
    | .error e => .error e
    | .ok () =>
      let id := state.store.nextDecisionId
      let store := { state.store with nextDecisionId := succId id }
      let entry := store.entryOrNew subject now
      let decision : ReputationDecision :=
        { id := id
          subject := subject
          source := source
          action := action
          requestedScope := requestedScope
          effectiveScope := effectiveScopeForSource source requestedScope
          reason := reason
          createdAt := now
          expiresAt := expiresAt
          status := .active
          revokedAt := none }
      let decided := store.setEntry subject
        { entry with decisions := entry.decisions ++ [decision], lastTouched := now }
      .ok (({ state with store := decided.recomputeSubject subject now }.markSubjectDirty
        shardIndex subject).markMetadataDirty, id)

def ReputationDecision.revoke (now : Nat) (decision : ReputationDecision) : ReputationDecision :=
  { decision with status := .revoked, revokedAt := some now }

/-- The decision of an identifier is revoked. -/
def revokeById (decisionId now : Nat) (decisions : List ReputationDecision) :
    List ReputationDecision :=
  updateFirst (fun decision => decide (decision.id = decisionId)) (ReputationDecision.revoke now)
    decisions

def revokeDecision (state : RuntimeState) (requiredSource : Option AuthorityId)
    (subject : String) (decisionId now : Nat) : Except ReputationError RuntimeState :=
  match state.store.entry subject with
  | none => .error .entryNotFound
  | some entry =>
    match entry.decisions.find? fun decision => decide (decision.id = decisionId) with
    | none => .error .decisionNotFound
    | some decision =>
      if requiredSource.any fun source => decide (source ≠ decision.source) then
        .error .permissionDenied
      else
        let revoked := state.store.setEntry subject
          { entry with
            decisions := revokeById decisionId now entry.decisions
            lastTouched := now }
        .ok ({ state with store := revoked.recomputeSubject subject now }.markSubjectDirty
          shardIndex subject)

def setUserOverride (state : RuntimeState) (subject : String) (mode : UserOverrideMode)
    (note : Option String) (now : Nat) : Except ReputationError RuntimeState :=
  if note.any fun text => decide (text.utf8ByteSize > maxDescriptionBytes) then
    .error .descriptionTooLong
  else
    let entry := state.store.entryOrNew subject now
    let overridden := state.store.setEntry subject
      { entry with userOverride := some ⟨mode, now, note⟩, lastTouched := now }
    .ok ({ state with store := overridden.recomputeSubject subject now }.markSubjectDirty
      shardIndex subject)

def clearUserOverride (state : RuntimeState) (subject : String) (now : Nat) :
    Except ReputationError RuntimeState :=
  match state.store.entry subject with
  | none => .error .entryNotFound
  | some entry =>
    let cleared := state.store.setEntry subject
      { entry with userOverride := none, lastTouched := now }
    .ok ({ state with store := cleared.recomputeSubject subject now }.markSubjectDirty
      shardIndex subject)

/-! ### All evidence of an application -/

def ReputationObservation.retractFrom (source : AuthorityId) (now : Nat)
    (observation : ReputationObservation) : ReputationObservation :=
  if observation.source = source ∧ observation.retractedAt = none then observation.retract now
  else observation

def ReputationDecision.revokeFrom (source : AuthorityId) (now : Nat)
    (decision : ReputationDecision) : ReputationDecision :=
  if decision.source = source ∧ decision.status = .active then decision.revoke now else decision

/-- How many observations in the queue and in the totals and how many decisions a retraction
takes back. -/
structure Retracted where
  active : Nat
  historical : Nat
  decisions : Nat
  deriving DecidableEq

def ReputationEntry.retractable (source : AuthorityId) (entry : ReputationEntry) : Retracted where
  active := entry.evidence.recent.countP fun observation =>
    decide (observation.source = source ∧ observation.retractedAt = none)
  historical := (entry.evidence.history.aggregate source).totals.count
  decisions := entry.decisions.countP fun decision =>
    decide (decision.source = source ∧ decision.status = .active)

def Retracted.any (retracted : Retracted) : Bool := decide (retracted ≠ ⟨0, 0, 0⟩)

def ReputationEntry.retractSource (source : AuthorityId) (now : Nat) (entry : ReputationEntry) :
    ReputationEntry :=
  { entry with
    evidence :=
      { recent := entry.evidence.recent.map (ReputationObservation.retractFrom source now)
        history := entry.evidence.history.mapEntries fun other aggregate =>
          if other = source then (aggregate.retractActive now).1 else aggregate }
    decisions := entry.decisions.map (ReputationDecision.revokeFrom source now)
    lastTouched := if (entry.retractable source).any then now else entry.lastTouched }

structure AppRetractionReport where
  appId : AppId
  activeObservationsRetracted : Nat
  historicalObservationsRetracted : Nat
  decisionsRevoked : Nat
  affectedSubjects : Nat
  deriving DecidableEq

def retractAppSource (state : RuntimeState) (appId : AppId) (reason : String) (now : Nat) :
    Except ReputationError (RuntimeState × AppRetractionReport) :=
  if reason.utf8ByteSize > maxDescriptionBytes then .error .reasonTooLong
  else
    let source : AuthorityId := .app appId
    let entries := state.store.entries.entries.map fun e => e.2
    let changed := entries.filter fun entry => (entry.retractable source).any
    let report : AppRetractionReport :=
      { appId := appId
        activeObservationsRetracted := (entries.map fun entry =>
          (entry.retractable source).active).sum
        historicalObservationsRetracted := (entries.map fun entry =>
          (entry.retractable source).historical).foldl saturatingAddU64 0
        decisionsRevoked := (entries.map fun entry => (entry.retractable source).decisions).sum
        affectedSubjects := changed.length }
    let subjects := changed.map ReputationEntry.subject
    let retracted : ReputationStore :=
      { state.store with
        entries := state.store.entries.mapEntries fun _ entry => entry.retractSource source now
        appSourceRetractions := state.store.appSourceRetractions ++
          [{ appId := appId
             retractedAt := now
             activeObservationsRetracted := report.activeObservationsRetracted
             historicalObservationsRetracted := report.historicalObservationsRetracted
             decisionsRevoked := report.decisionsRevoked
             affectedSubjects := report.affectedSubjects
             reason := reason }] }
    let marked := subjects.foldl (fun state subject => state.markSubjectDirty shardIndex subject)
      { state with store := retracted.recomputeSubjects subjects now }
    .ok (marked.markMetadataDirty, report)

def setAppSourcePolicy (state : RuntimeState) (appId : AppId) (policy : AppSourcePolicy)
    (now : Nat) : RuntimeState :=
  let store := { state.store with
    appSourcePolicies := state.store.appSourcePolicies.insert appId policy }
  { state with store := store.recomputeSubjects store.subjects now }.markMetadataDirty

def deleteAppSourceData (state : RuntimeState) (appId : AppId) (now : Nat) :
    Except ReputationError (RuntimeState × Nat) :=
  match retractAppSource shardIndex state appId
      "Legacy delete request converted to provenance-preserving retraction" now with
  | .error e => .error e
  | .ok (retracted, report) =>
    .ok ({ retracted with store := { retracted.store with
        appSourcePolicies := retracted.store.appSourcePolicies.erase appId } }.markMetadataDirty,
      report.affectedSubjects)

/-! ### Garbage collection -/

def minGcEligibleAgeSecs : Nat := 2592000

def normalEntryMaxIdleSecs : Nat := 15552000

def valuableEntryMaxIdleSecs : Nat := 31536000

def suspiciousEntryMaxIdleSecs : Nat := 31536000

def appBanMaxIdleSecs : Nat := 63072000

def automaticBanMaxIdleSecs : Nat := 157680000

def maxSummaryEntries : Nat := 100000

def entryMaxIdle (now : Nat) (entry : ReputationEntry) : Nat :=
  let active := entry.decisions.filter fun decision => decision.isActiveAt now
  if active.any fun decision => decide (decision.source = .user) && decision.isPermanent then
    u64Max
  else if active.any fun decision =>
      decision.isPermanent && decide (decision.effectiveScope = .networkInteraction) then
    automaticBanMaxIdleSecs
  else if active.any fun decision => decision.source.isApp then appBanMaxIdleSecs
  else
    match entry.summary.class with
    | .reliableServer | .goodCitizen => valuableEntryMaxIdleSecs
    | .likelySybil | .abusive | .suspiciousAutomation | .tamperedProtocol =>
      suspiciousEntryMaxIdleSecs
    | _ => normalEntryMaxIdleSecs

def isStaleByPolicy (now : Nat) (entry : ReputationEntry) : Prop :=
  entryMaxIdle now entry ≤ now - entry.lastTouched

instance decidableIsStaleByPolicy (now : Nat) (entry : ReputationEntry) :
    Decidable (isStaleByPolicy now entry) :=
  inferInstanceAs (Decidable (_ ≤ _))

def hasPermanentUserState (now : Nat) (entry : ReputationEntry) : Bool :=
  entry.userOverride.isSome || entry.decisions.any fun decision =>
    decide (decision.source = .user) && decision.isPermanent && decision.isActiveAt now

def retentionValue (now : Nat) (entry : ReputationEntry) : Nat :=
  entry.summary.usefulness * 3 + entry.summary.confidence + entry.summary.suspicion * 2 +
    entry.summary.integrityRisk * 3 + min entry.summary.observationCount 255 +
    ((entry.decisions.filter fun decision => decision.isActiveAt now).map fun decision =>
      if decision.source = .user then 10000
      else match decision.action with
        | .ban => 2000
        | .restrict => 500).sum

/-- Whether an entry may be collected. -/
def collectable (now : Nat) (entry : ReputationEntry) : Prop :=
  let idle := now - entry.lastTouched
  minGcEligibleAgeSecs ≤ idle ∧ entryMaxIdle now entry ≤ idle ∧
    hasPermanentUserState now entry = false

instance decidableCollectable (now : Nat) (entry : ReputationEntry) :
    Decidable (collectable now entry) :=
  inferInstanceAs (Decidable (_ ∧ _))

/-- Entries of the lowest value and, among these, the longest idle come first. -/
def collectedBefore (now : Nat) (a b : Σ _ : String, ReputationEntry) : Prop :=
  retentionValue now a.2 < retentionValue now b.2 ∨
    retentionValue now a.2 = retentionValue now b.2 ∧ now - b.2.lastTouched ≤ now - a.2.lastTouched

instance decidableCollectedBefore (now : Nat) : DecidableRel (collectedBefore now) :=
  fun _ _ => inferInstanceAs (Decidable (_ ∨ _))

/-- The keys of the entries that are removed: all that are stale, and of the first candidates as
many as the store holds too many entries. -/
def selectedForCollection (visit : Visit) (now : Nat) (entries : Entries) : List String :=
  let candidates := ((visit.arrange entries.entries).filter fun e =>
    decide (collectable now e.2)).insertionSort (collectedBefore now)
  let overTarget := entries.entries.length - maxSummaryEntries
  ((candidates.take overTarget) ++
    (candidates.drop overTarget).filter fun e => decide (isStaleByPolicy now e.2)).map Sigma.fst

def runGarbageCollection (visit : Visit) (state : RuntimeState) (now : Nat) :
    RuntimeState × Nat :=
  let store := state.store.recomputeSubjects state.store.subjects now
  let selected := selectedForCollection visit now store.entries
  let removed := store.entries.entries.filter fun e => decide (e.1 ∈ selected)
  let kept := { store with entries := store.entries.retain fun key => key ∉ selected }
  let marked := removed.foldl (fun state e => state.markSubjectDirty shardIndex e.2.subject)
    { state with store := kept }
  (marked, removed.length)

/-- A command that is refused changes nothing. -/
def perform (visit : Visit) (state : RuntimeState) (now : Nat) :
    Command → Except ReputationError RuntimeState
  | .submitObservation source input =>
    (submitObservation shardIndex state source input now).map Prod.fst
  | .retractObservation requiredSource subject observationId =>
    retractObservation shardIndex state requiredSource subject observationId now
  | .createDecision source subject action requestedScope reason expiresAt =>
    (createDecision shardIndex state source subject action requestedScope reason expiresAt
      now).map Prod.fst
  | .revokeDecision requiredSource subject decisionId =>
    revokeDecision shardIndex state requiredSource subject decisionId now
  | .setUserOverride subject mode note => setUserOverride shardIndex state subject mode note now
  | .clearUserOverride subject => clearUserOverride shardIndex state subject now
  | .retractAppSource appId reason =>
    (retractAppSource shardIndex state appId reason now).map Prod.fst
  | .setAppSourcePolicy appId policy => .ok (setAppSourcePolicy state appId policy now)
  | .deleteAppSourceData appId => (deleteAppSourceData shardIndex state appId now).map Prod.fst
  | .runGarbageCollection => .ok (runGarbageCollection shardIndex visit state now).1

end Commands

/-- The view that the service gives of a subject. -/
def buildView (store : ReputationStore) (subject : String) (appContext : Option AppId)
    (now : Nat) : ReputationView :=
  match store.entry subject with
  | none => unknownView appContext subject
  | some entry => entry.view store.appSourcePolicies now appContext subject

/-! ## What commands about one subject do -/

section Inversion

variable {shardIndex : String → UInt8} {state after : RuntimeState} {subject : String} {now : Nat}
  {requiredSource : Option AuthorityId}

theorem retractObservation_eq_ok {observationId : Nat}
    (h : retractObservation shardIndex state requiredSource subject observationId now =
      .ok after) : ∃ entry observation, state.store.entry subject = some entry ∧
      entry.evidence.recent.find? (fun observation => decide (observation.id = observationId)) =
        some observation ∧
      (∀ source ∈ requiredSource, source = observation.source) ∧
      after.store = (state.store.setEntry subject { entry with
        evidence := entry.evidence.retract observationId now
        lastTouched := now }).recomputeSubject subject now := by
  unfold retractObservation at h
  split at h
  case h_1 => cases h
  case h_2 entry hentry =>
  split at h
  case h_1 => cases h
  case h_2 observation hfound =>
  split at h
  case isTrue => cases h
  case isFalse hallowed =>
  cases h
  refine ⟨entry, observation, hentry, hfound, ?_, rfl⟩
  rintro source rfl
  simpa using hallowed

theorem createDecision_eq_ok {source : AuthorityId} {action : DecisionAction}
    {requestedScope : BanScope} {reason : String} {expiresAt : Option Nat} {id : Nat}
    (h : createDecision shardIndex state source subject action requestedScope reason expiresAt
      now = .ok (after, id)) : ∃ decision : ReputationDecision, decision.source = source ∧
      decision.effectiveScope = effectiveScopeForSource source requestedScope ∧
      decision.expiresAt = expiresAt ∧
      after.store = ({ state.store with
        nextDecisionId := succId state.store.nextDecisionId }.setEntry subject
          { state.store.entryOrNew subject now with
            decisions := (state.store.entryOrNew subject now).decisions ++ [decision]
            lastTouched := now }).recomputeSubject subject now := by
  unfold createDecision at h
  split at h
  · cases h
  split at h
  · cases h
  split at h
  case h_1 => cases h
  case h_2 =>
  obtain ⟨rfl, -⟩ := Prod.mk.inj (Except.ok.inj h)
  exact ⟨_, rfl, rfl, rfl, rfl⟩

theorem revokeDecision_eq_ok {decisionId : Nat}
    (h : revokeDecision shardIndex state requiredSource subject decisionId now = .ok after) :
    ∃ entry decision, state.store.entry subject = some entry ∧
      entry.decisions.find? (fun decision => decide (decision.id = decisionId)) = some decision ∧
      (∀ source ∈ requiredSource, source = decision.source) ∧
      after.store = (state.store.setEntry subject { entry with
        decisions := revokeById decisionId now entry.decisions
        lastTouched := now }).recomputeSubject subject now := by
  unfold revokeDecision at h
  split at h
  case h_1 => cases h
  case h_2 entry hentry =>
  split at h
  case h_1 => cases h
  case h_2 decision hfound =>
  split at h
  case isTrue => cases h
  case isFalse hallowed =>
  cases h
  refine ⟨entry, decision, hentry, hfound, ?_, rfl⟩
  rintro source rfl
  simpa using hallowed

theorem setUserOverride_eq_ok {mode : UserOverrideMode} {note : Option String}
    (h : setUserOverride shardIndex state subject mode note now = .ok after) :
    after.store = (state.store.setEntry subject { state.store.entryOrNew subject now with
      userOverride := some ⟨mode, now, note⟩
      lastTouched := now }).recomputeSubject subject now := by
  unfold setUserOverride at h
  split at h
  case isTrue => cases h
  case isFalse =>
  cases h
  rfl

theorem clearUserOverride_eq_ok (h : clearUserOverride shardIndex state subject now = .ok after) :
    ∃ entry, state.store.entry subject = some entry ∧
      after.store = (state.store.setEntry subject { entry with
        userOverride := none
        lastTouched := now }).recomputeSubject subject now := by
  unfold clearUserOverride at h
  split at h
  case h_1 => cases h
  case h_2 entry hentry =>
  cases h
  exact ⟨entry, hentry, rfl⟩

end Inversion

/-! ## What computing summaries again does to the store -/

section Recompute

variable {store : ReputationStore} {subject other : String} {now : Nat}

/-- The queue holds nothing old after compaction. -/
theorem compactRecentObservations_idem (now : Nat) (evidence : Evidence) :
    compactRecentObservations now (compactRecentObservations now evidence) =
      compactRecentObservations now evidence := by
  obtain ⟨old, hold⟩ : ∃ old : ReputationObservation → Bool, old = fun observation =>
      decide (observation.observedAt < now - recentObservationMaxAgeSecs) := ⟨_, rfl⟩
  have hnone : (evidence.recent.dropWhile old).takeWhile old = [] :=
    List.takeWhile_eq_nil_iff.mpr fun hlength => List.dropWhile_get_zero_not _ _ hlength
  unfold compactRecentObservations
  dsimp only
  rw [← hold, List.dropWhile_idempotent, hnone]
  rfl

theorem ReputationDecision.expire_expire (now : Nat) (decision : ReputationDecision) :
    (decision.expire now).expire now = decision.expire now := by
  by_cases h : decision.status = .active ∧
      decision.expiresAt.any (fun expiry => decide (expiry ≤ now))
  case pos => simp [expire, h]
  case neg =>
    have hsame : decision.expire now = decision := if_neg h
    rw [hsame, hsame]

/-- Computing a summary twice changes no more than computing it once. -/
theorem ReputationEntry.recompute_recompute (policies : SourcePolicies) (now : Nat)
    (entry : ReputationEntry) :
    (entry.recompute policies now).recompute policies now = entry.recompute policies now := by
  have hdecisions : (entry.decisions.map (ReputationDecision.expire now)).map
      (ReputationDecision.expire now) = entry.decisions.map (ReputationDecision.expire now) := by
    rw [List.map_map]
    exact List.map_congr_left fun decision _ => decision.expire_expire now
  unfold recompute
  rw [hdecisions, compactRecentObservations_idem]
  unfold summarize
  simp

theorem ReputationStore.entry_recomputeSubject : (store.recomputeSubject subject now).entry other =
      if other = subject then
        (store.entry other).map (ReputationEntry.recompute store.appSourcePolicies now)
      else store.entry other := by
  unfold recomputeSubject
  cases hentry : store.entry subject with
  | none =>
    by_cases h : other = subject
    case pos => rw [if_pos h, h, hentry, Option.map_none]
    case neg => rw [if_neg h]
  | some entry =>
    rw [entry_setEntry]
    by_cases h : other = subject
    case pos => rw [if_pos h, if_pos h, h, hentry, Option.map_some]
    case neg => rw [if_neg h, if_neg h]

@[simp]
theorem ReputationStore.appSourcePolicies_recomputeSubject :
    (store.recomputeSubject subject now).appSourcePolicies = store.appSourcePolicies := by
  unfold recomputeSubject
  split <;> rfl

theorem ReputationStore.recomputeSubjects_spec (subjects : List String) :
    (store.recomputeSubjects subjects now).appSourcePolicies = store.appSourcePolicies ∧
      ∀ other, (store.recomputeSubjects subjects now).entry other =
        if other ∈ subjects then
          (store.entry other).map (ReputationEntry.recompute store.appSourcePolicies now)
        else store.entry other := by
  induction subjects generalizing store with
  | nil => exact ⟨rfl, fun other => (if_neg List.not_mem_nil).symm⟩
  | cons subject subjects ih =>
    obtain ⟨hpolicies, hentries⟩ := @ih (store.recomputeSubject subject now)
    refine ⟨hpolicies.trans appSourcePolicies_recomputeSubject, fun other => ?_⟩
    refine (hentries other).trans ?_
    rw [entry_recomputeSubject, appSourcePolicies_recomputeSubject]
    by_cases hsubject : other = subject
    case neg => simp [hsubject]
    case pos =>
    rw [if_pos hsubject, if_pos (List.mem_cons.mpr (.inl hsubject))]
    split
    case isFalse => rfl
    case isTrue =>
      rw [Option.map_map]
      exact congrFun (congrArg Option.map (funext fun entry =>
        entry.recompute_recompute store.appSourcePolicies now)) _

/-- What the store holds of a subject after a computation is what it held, or that computed
again. -/
theorem ReputationStore.entry_recomputeSubjects_cases (subjects : List String)
    {entry : ReputationEntry} (h : store.entry other = some entry) :
    (store.recomputeSubjects subjects now).entry other = some entry ∨
      (store.recomputeSubjects subjects now).entry other =
        some (entry.recompute store.appSourcePolicies now) := by
  rw [(recomputeSubjects_spec subjects).2 other, h]
  split
  case isTrue => exact .inr rfl
  case isFalse => exact .inl rfl

end Recompute

namespace Sample

def oneShard : String → UInt8 := fun _ => 0

def inOrder : Visit := ⟨id, fun _ => .refl _⟩

def newState : RuntimeState := ⟨.default, false, ∅⟩

/-- The state after commands, each at its time. One that is refused changes nothing. -/
def runCommands (state : RuntimeState) (commands : List (Nat × Command)) : RuntimeState :=
  commands.foldl (fun state command =>
    match perform oneShard inOrder state command.1 command.2 with
    | .ok after => after
    | .error _ => state) state

end Sample

end VeilKnit.Reputation
