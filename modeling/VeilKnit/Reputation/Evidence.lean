import VeilKnit.Library.AssociationList
import VeilKnit.Library.FirstMatch

/-!
# Evidence about a subject

Observations of a subject wait in a queue. They leave it when they are old, when their source
has too many of them or when there are too many altogether, and are then folded into the totals
of their source.
-/

namespace VeilKnit.Reputation

open Library

/-! ## Fixed-width counters -/

def i64Max : Int := 9223372036854775807

def i64Min : Int := -9223372036854775808

def u64Max : Nat := 18446744073709551615

def u32Max : Nat := 4294967295

def saturateI64 (value : Int) : Int := max i64Min (min value i64Max)

def saturatingAddU64 (a b : Nat) : Nat := min (a + b) u64Max

def saturatingAddU32 (a b : Nat) : Nat := min (a + b) u32Max

/-! ## Sources and observations -/

abbrev AppId := String

inductive AuthorityId
  | user
  | coreModule (moduleId : String)
  | app (appId : AppId)
  deriving DecidableEq

def AuthorityId.isApp : AuthorityId → Bool
  | .app _ => true
  | _ => false

def AuthorityId.isCoreModule : AuthorityId → Bool
  | .coreModule _ => true
  | _ => false

inductive ObservationKind
  | interactionSucceeded
  | interactionFailed
  | usefulService
  | excessiveActivity
  | repetitiveActivity
  | suspiciousCoordination
  | messageDelivered
  | messageRejected
  | unsolicitedMessage
  | spam
  | harassment
  | validDhtResponse
  | invalidDhtResponse
  | invalidSignature
  | impossibleProtocolState
  | malformedProtocolMessage
  | deliberateStateCorruption
  | futureTimestampClaim
  | conflictingAccountCreationClaim
  | suspiciousCreationBurst
  | reachable
  | unreachable
  | stableAvailability
  | appBanRequested
  | userMarkedHarmful
  | userMarkedTrusted
  | handshakeUnavailable
  deriving DecidableEq

def maxDescriptionBytes : Nat := 512

structure ObservationDetails where
  applicationCode : Option Nat
  description : Option String
  deriving DecidableEq

inductive ReputationError
  | descriptionTooLong
  | reasonTooLong
  | invalidExpiry
  | permissionDenied
  | entryNotFound
  | observationNotFoundOrCompacted
  | decisionNotFound
  deriving DecidableEq

def ObservationDetails.validate (details : ObservationDetails) : Except ReputationError Unit :=
  if details.description.any fun text => decide (text.utf8ByteSize > maxDescriptionBytes) then
    .error .descriptionTooLong
  else .ok ()

structure ObservationInput where
  subject : String
  kind : ObservationKind
  details : ObservationDetails

structure ReputationObservation where
  id : Nat
  subject : String
  source : AuthorityId
  kind : ObservationKind
  details : ObservationDetails
  observedAt : Nat
  retractedAt : Option Nat
  deriving DecidableEq

def ReputationObservation.isActive (observation : ReputationObservation) : Bool :=
  observation.retractedAt.isNone

/-! ## Contributions -/

@[ext]
structure ScoreDelta where
  reliability : Int := 0
  usefulness : Int := 0
  suspicion : Int := 0
  automation : Int := 0
  sybil : Int := 0
  integrity : Int := 0
  abuse : Int := 0
  count : Nat := 0
  impossibleProtocolEvents : Nat := 0
  invalidSignatureEvents : Nat := 0
  deliberateCorruptionEvents : Nat := 0
  deriving DecidableEq

def ScoreDelta.addAssign (a rhs : ScoreDelta) : ScoreDelta where
  reliability := saturateI64 (a.reliability + rhs.reliability)
  usefulness := saturateI64 (a.usefulness + rhs.usefulness)
  suspicion := saturateI64 (a.suspicion + rhs.suspicion)
  automation := saturateI64 (a.automation + rhs.automation)
  sybil := saturateI64 (a.sybil + rhs.sybil)
  integrity := saturateI64 (a.integrity + rhs.integrity)
  abuse := saturateI64 (a.abuse + rhs.abuse)
  count := saturatingAddU64 a.count rhs.count
  impossibleProtocolEvents :=
    saturatingAddU32 a.impossibleProtocolEvents rhs.impossibleProtocolEvents
  invalidSignatureEvents := saturatingAddU32 a.invalidSignatureEvents rhs.invalidSignatureEvents
  deliberateCorruptionEvents :=
    saturatingAddU32 a.deliberateCorruptionEvents rhs.deliberateCorruptionEvents

/-- What an observation of a kind says before its source is weighed. -/
def kindContribution : ObservationKind → ScoreDelta
  | .interactionSucceeded => { reliability := 6, count := 1 }
  | .interactionFailed => { reliability := -4, suspicion := 2, count := 1 }
  | .usefulService => { reliability := 4, usefulness := 12, count := 1 }
  | .excessiveActivity => { suspicion := 8, automation := 8, count := 1 }
  | .repetitiveActivity => { suspicion := 3, automation := 12, count := 1 }
  | .suspiciousCoordination => { suspicion := 15, automation := 8, sybil := 18, count := 1 }
  | .messageDelivered => { reliability := 5, usefulness := 2, count := 1 }
  | .messageRejected => { reliability := -2, suspicion := 2, count := 1 }
  | .unsolicitedMessage => { suspicion := 8, abuse := 5, count := 1 }
  | .spam => { suspicion := 12, automation := 6, abuse := 15, count := 1 }
  | .harassment => { suspicion := 10, abuse := 18, count := 1 }
  | .validDhtResponse => { reliability := 6, count := 1 }
  | .invalidDhtResponse => { reliability := -8, suspicion := 8, integrity := 10, count := 1 }
  | .invalidSignature =>
    { reliability := -20, suspicion := 20, integrity := 35, count := 1
      invalidSignatureEvents := 1 }
  | .impossibleProtocolState =>
    { reliability := -30, suspicion := 35, integrity := 60, count := 1
      impossibleProtocolEvents := 1 }
  | .malformedProtocolMessage => { reliability := -5, suspicion := 5, integrity := 4, count := 1 }
  | .deliberateStateCorruption =>
    { reliability := -40, suspicion := 45, integrity := 75, abuse := 20, count := 1
      deliberateCorruptionEvents := 1 }
  | .futureTimestampClaim =>
    { reliability := -12, suspicion := 18, sybil := 10, integrity := 15, count := 1 }
  | .conflictingAccountCreationClaim =>
    { reliability := -10, suspicion := 15, sybil := 5, integrity := 20, count := 1 }
  | .suspiciousCreationBurst =>
    { reliability := -30, suspicion := 45, automation := 20, sybil := 70, integrity := 35
      count := 1 }
  | .reachable => { reliability := 4, count := 1 }
  | .unreachable => { reliability := -2, count := 1 }
  | .handshakeUnavailable => { reliability := -1, count := 1 }
  | .stableAvailability => { reliability := 8, usefulness := 6, count := 1 }
  | .appBanRequested => { suspicion := 8, abuse := 5, count := 1 }
  | .userMarkedHarmful => { suspicion := 20, abuse := 15, count := 1 }
  | .userMarkedTrusted => { reliability := 18, usefulness := 6, suspicion := -10, count := 1 }

def weightPercent : AuthorityId → Int
  | .user => 140
  | .coreModule _ => 100
  | .app _ => 45

/-- Division rounds towards zero. -/
def scale (value percent : Int) : Int := (saturateI64 (value * percent)).tdiv 100

def contributionFor (source : AuthorityId) (kind : ObservationKind) : ScoreDelta :=
  let delta := kindContribution kind
  let percent := weightPercent source
  -- Only core modules count towards the thresholds of the automatic ban.
  let isApp := source.isApp
  { reliability := scale delta.reliability percent
    usefulness := scale delta.usefulness percent
    suspicion := scale delta.suspicion percent
    automation := scale delta.automation percent
    sybil := scale delta.sybil percent
    integrity := scale delta.integrity percent
    abuse := scale delta.abuse percent
    count := delta.count
    impossibleProtocolEvents := if isApp then 0 else delta.impossibleProtocolEvents
    invalidSignatureEvents := if isApp then 0 else delta.invalidSignatureEvents
    deliberateCorruptionEvents := if isApp then 0 else delta.deliberateCorruptionEvents }

def ReputationObservation.contribution (observation : ReputationObservation) : ScoreDelta :=
  contributionFor observation.source observation.kind

/-! ## Totals of a source -/

structure HistoricalAggregate where
  totals : ScoreDelta := {}
  firstObserved : Nat := 0
  lastObserved : Nat := 0
  retractedTotals : ScoreDelta := {}
  retractedFirstObserved : Nat := 0
  retractedLastObserved : Nat := 0
  lastRetractedAt : Option Nat := none
  deriving DecidableEq

/-- The earlier of two times, where 0 stands for none. -/
def earlierObserved (observed other : Nat) : Nat :=
  if observed = 0 then other else min observed other

/-- Moves what counts to the archive of what is retracted, and says how many observations that
were. -/
def HistoricalAggregate.retractActive (aggregate : HistoricalAggregate) (retractedAt : Nat) :
    HistoricalAggregate × Nat :=
  if aggregate.totals.count = 0 then (aggregate, 0)
  else
    ({ totals := {}
       firstObserved := 0
       lastObserved := 0
       retractedTotals := aggregate.retractedTotals.addAssign aggregate.totals
       retractedFirstObserved :=
         if aggregate.retractedFirstObserved = 0 then aggregate.firstObserved
         else if aggregate.firstObserved ≠ 0 then
           min aggregate.retractedFirstObserved aggregate.firstObserved
         else aggregate.retractedFirstObserved
       retractedLastObserved := max aggregate.retractedLastObserved aggregate.lastObserved
       lastRetractedAt := some retractedAt }, aggregate.totals.count)

abbrev History := AList fun _ : AuthorityId => HistoricalAggregate

def History.aggregate (history : History) (source : AuthorityId) : HistoricalAggregate :=
  (history.lookup source).getD {}

/-- What an observation adds to the totals of its source. -/
def HistoricalAggregate.fold (aggregate : HistoricalAggregate)
    (observation : ReputationObservation) : HistoricalAggregate :=
  match observation.retractedAt with
  | some retractedAt =>
    { aggregate with
      retractedTotals := aggregate.retractedTotals.addAssign observation.contribution
      retractedFirstObserved :=
        earlierObserved aggregate.retractedFirstObserved observation.observedAt
      retractedLastObserved := max aggregate.retractedLastObserved observation.observedAt
      lastRetractedAt := some (max (aggregate.lastRetractedAt.getD 0) retractedAt) }
  | none =>
    { aggregate with
      totals := aggregate.totals.addAssign observation.contribution
      firstObserved := earlierObserved aggregate.firstObserved observation.observedAt
      lastObserved := max aggregate.lastObserved observation.observedAt }

def foldObservation (history : History) (observation : ReputationObservation) : History :=
  history.insert observation.source ((history.aggregate observation.source).fold observation)

/-! ## Compaction -/

def maxRecentObservationsPerNode : Nat := 64

def recentObservationMaxAgeSecs : Nat := 2592000

/-- The observations that are retained one by one and the totals of the others. -/
structure Evidence where
  recent : List ReputationObservation
  history : History

def Evidence.empty : Evidence := ⟨[], ∅⟩

def compactRecentObservations (now : Nat) (evidence : Evidence) : Evidence :=
  let old := fun observation : ReputationObservation =>
    decide (observation.observedAt < now - recentObservationMaxAgeSecs)
  ⟨evidence.recent.dropWhile old,
    (evidence.recent.takeWhile old).foldl foldObservation evidence.history⟩

def recentObservationLimitForSource : AuthorityId → Nat
  | .app _ => 16
  | .coreModule _ => 32
  | .user => 32

/-- The loop that makes room for one more observation of a source. It folds one observation a
round, so it makes no more rounds than there are observations. -/
def compactSourceObservationQuota (source : AuthorityId) : Nat → Evidence → Evidence
  | 0, evidence => evidence
  | rounds + 1, evidence =>
    let ofSource := fun observation : ReputationObservation =>
      decide (observation.source = source)
    if recentObservationLimitForSource source ≤ evidence.recent.countP ofSource then
      match evidence.recent.find? ofSource with
      | none => evidence
      | some observation =>
        compactSourceObservationQuota source rounds
          ⟨evidence.recent.eraseP ofSource, foldObservation evidence.history observation⟩
    else evidence

/-- The loop that makes room for one more observation. -/
def compactOverflow (evidence : Evidence) : Evidence :=
  let overflow := evidence.recent.length + 1 - maxRecentObservationsPerNode
  ⟨evidence.recent.drop overflow,
    (evidence.recent.take overflow).foldl foldObservation evidence.history⟩

/-- The evidence with one more observation. -/
def Evidence.record (now : Nat) (observation : ReputationObservation) (evidence : Evidence) :
    Evidence :=
  let aged := compactRecentObservations now evidence
  let limited := compactSourceObservationQuota observation.source aged.recent.length aged
  let room := compactOverflow limited
  { room with recent := room.recent ++ [observation] }

/-! ## What compaction keeps -/

/-- Observations leave the queue one by one and are folded as they leave. -/
inductive Compacted (evidence : Evidence) : Evidence → Prop
  | same : Compacted evidence evidence
  | fold {before after : List ReputationObservation} {observation : ReputationObservation}
      {history : History} (compacted : Compacted evidence ⟨before ++ observation :: after, history⟩) :
      Compacted evidence ⟨before ++ after, foldObservation history observation⟩

theorem Compacted.trans {a b c : Evidence} (h : Compacted a b) (h' : Compacted b c) :
    Compacted a c := by
  induction h' with
  | same => exact h
  | fold _ ih => exact .fold ih

/-- Folding from the front of the queue. -/
theorem Compacted.front {evidence : Evidence} (old rest : List ReputationObservation)
    (h : evidence.recent = old ++ rest) :
    Compacted evidence ⟨rest, old.foldl foldObservation evidence.history⟩ := by
  obtain ⟨recent, history⟩ := evidence
  dsimp only at h ⊢
  subst h
  induction old generalizing history with
  | nil => exact .same
  | cons observation old ih =>
    have hsame : Compacted ⟨observation :: old ++ rest, history⟩
        ⟨[] ++ observation :: (old ++ rest), history⟩ := .same
    exact hsame.fold.trans (ih _)

theorem compactRecentObservations_compacted (now : Nat) (evidence : Evidence) :
    Compacted evidence (compactRecentObservations now evidence) :=
  .front _ _ List.takeWhile_append_dropWhile.symm

theorem compactSourceObservationQuota_compacted (source : AuthorityId) (rounds : Nat)
    (evidence : Evidence) :
    Compacted evidence (compactSourceObservationQuota source rounds evidence) := by
  induction rounds generalizing evidence with
  | zero => exact .same
  | succ rounds ih =>
    rw [compactSourceObservationQuota]
    split
    case isFalse => exact .same
    case isTrue =>
    split
    case h_1 => exact .same
    case h_2 observation hfound =>
    obtain ⟨hsource, before, after, hrecent, hbefore⟩ := List.find?_eq_some_iff_append.mp hfound
    refine .trans ?_ (ih _)
    have herased : evidence.recent.eraseP (fun o => decide (o.source = source)) =
        before ++ after := by
      rw [hrecent, List.eraseP_append_right _ (by simpa using hbefore), List.eraseP_cons,
        hsource, cond_true]
    have hsame : evidence = ⟨before ++ observation :: after, evidence.history⟩ := by
      rw [← hrecent]
    rw [herased]
    conv_lhs => rw [hsame]
    exact .fold .same

theorem compactOverflow_compacted (evidence : Evidence) :
    Compacted evidence (compactOverflow evidence) :=
  .front _ _ (List.take_append_drop _ _).symm

/-- A new observation comes last, after compaction. -/
theorem Evidence.record_compacted (now : Nat) (observation : ReputationObservation)
    (evidence : Evidence) : ∃ room, Compacted evidence room ∧
      evidence.record now observation = ⟨room.recent ++ [observation], room.history⟩ := by
  refine ⟨_, ?_, rfl⟩
  exact ((compactRecentObservations_compacted now evidence).trans
    (compactSourceObservationQuota_compacted _ _ _)).trans (compactOverflow_compacted _)

theorem aggregate_foldObservation (history : History) (observation : ReputationObservation)
    (source : AuthorityId) : (foldObservation history observation).aggregate source =
      if source = observation.source then (history.aggregate source).fold observation
      else history.aggregate source := by
  unfold History.aggregate foldObservation
  split
  case isTrue h => rw [h, AList.lookup_insert, Option.getD_some, History.aggregate]
  case isFalse h => rw [AList.lookup_insert_ne h]

def Evidence.recentOf (source : AuthorityId) (evidence : Evidence) :
    List ReputationObservation :=
  evidence.recent.filter fun observation => decide (observation.source = source)

/-- Compaction moves observations of a source from the queue to the totals of this source, and
each of them once. -/
theorem Compacted.of_source {a b : Evidence} (h : Compacted a b) (source : AuthorityId) :
    ∃ folded, (a.recentOf source).Perm (folded ++ b.recentOf source) ∧ b.history.aggregate source =
        folded.foldl HistoricalAggregate.fold (a.history.aggregate source) := by
  induction h with
  | same => exact ⟨[], .refl _, rfl⟩
  | @fold before after observation history _ ih =>
    obtain ⟨folded, hperm, haggregate⟩ := ih
    rw [aggregate_foldObservation]
    by_cases hsource : source = observation.source
    case pos =>
      refine ⟨folded ++ [observation], hperm.trans ?_, ?_⟩
      · have hqueue : (⟨before ++ observation :: after, history⟩ : Evidence).recentOf source =
            (⟨before, history⟩ : Evidence).recentOf source ++
              observation :: (⟨after, history⟩ : Evidence).recentOf source := by
          simp [Evidence.recentOf, hsource]
        have hrest : (⟨before ++ after, foldObservation history observation⟩ :
            Evidence).recentOf source = (⟨before, history⟩ : Evidence).recentOf source ++
              (⟨after, history⟩ : Evidence).recentOf source :=
          List.filter_append _ _
        rw [hqueue, hrest, List.append_assoc]
        exact List.perm_middle.append_left folded
      · rw [if_pos hsource, haggregate, List.foldl_append]
        rfl
    case neg =>
      refine ⟨folded, hperm.trans (.of_eq ?_), ?_⟩
      · simp [Evidence.recentOf, Ne.symm hsource]
      · rw [if_neg hsource, haggregate]

end VeilKnit.Reputation
