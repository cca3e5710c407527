import VeilKnit.Reputation.Evidence

/-!
# Entries, summaries and views

An entry holds the evidence about one subject, the decisions of authorities and the override of
the user. Its summary is computed from them, and a view is what an application or the core is
told to do about the subject.
-/

namespace VeilKnit.Reputation

/-! ## Decisions -/

inductive BanScope
  | app (appId : AppId)
  | allApps
  | networkInteraction
  deriving DecidableEq

inductive DecisionAction
  | restrict
  | ban
  deriving DecidableEq

inductive DecisionStatus
  | active
  | revoked
  | expired
  deriving DecidableEq

structure ReputationDecision where
  id : Nat
  subject : String
  source : AuthorityId
  action : DecisionAction
  requestedScope : BanScope
  effectiveScope : BanScope
  reason : String
  createdAt : Nat
  expiresAt : Option Nat
  status : DecisionStatus
  revokedAt : Option Nat
  deriving DecidableEq

def ReputationDecision.isActiveAt (decision : ReputationDecision) (now : Nat) : Bool :=
  decide (decision.status = .active) && decision.expiresAt.all fun expiry => decide (now < expiry)

def ReputationDecision.isPermanent (decision : ReputationDecision) : Bool :=
  decision.expiresAt.isNone

def ReputationDecision.expire (now : Nat) (decision : ReputationDecision) : ReputationDecision :=
  if decision.status = .active ∧ decision.expiresAt.any (fun expiry => decide (expiry ≤ now)) then
    { decision with status := .expired }
  else decision

inductive UserOverrideMode
  | allow
  | allowRestricted
  deriving DecidableEq

structure UserOverrideRecord where
  mode : UserOverrideMode
  createdAt : Nat
  note : Option String
  deriving DecidableEq

inductive AppSourcePolicy
  | enabled
  | ignored
  deriving DecidableEq

abbrev SourcePolicies := AList fun _ : AppId => AppSourcePolicy

/-- Whether the evidence and the decisions of a source count. -/
def SourcePolicies.sourceEnabled (policies : SourcePolicies) : AuthorityId → Bool
  | .app appId => decide ((policies.lookup appId).getD .enabled = .enabled)
  | _ => true

/-! ## Summaries -/

inductive ReputationClass
  | new
  | normalUser
  | goodCitizen
  | reliableServer
  | automatedBenign
  | suspiciousAutomation
  | likelySybil
  | abusive
  | tamperedProtocol
  | networkBanned
  deriving DecidableEq

structure ReputationFlags where
  banned : Bool := false
  restricted : Bool := false
  crossAppConcern : Bool := false
  userOverride : Bool := false
  suspectedSybil : Bool := false
  automated : Bool := false
  usefulServer : Bool := false
  tamperedProtocol : Bool := false
  deriving DecidableEq

structure ReputationSummary where
  «class» : ReputationClass
  confidence : Nat
  reliability : Nat
  usefulness : Nat
  suspicion : Nat
  automationLikelihood : Nat
  sybilLikelihood : Nat
  integrityRisk : Nat
  abuseRisk : Nat
  observationCount : Nat
  distinctSources : Nat
  firstObserved : Nat
  lastObserved : Nat
  lastChanged : Nat
  flags : ReputationFlags
  deriving DecidableEq

def ReputationSummary.new (now : Nat) : ReputationSummary where
  «class» := .new
  confidence := 0
  reliability := 0
  usefulness := 0
  suspicion := 0
  automationLikelihood := 0
  sybilLikelihood := 0
  integrityRisk := 0
  abuseRisk := 0
  observationCount := 0
  distinctSources := 0
  firstObserved := now
  lastObserved := now
  lastChanged := now
  flags := {}

structure ReputationEntry where
  subject : String
  summary : ReputationSummary
  evidence : Evidence
  decisions : List ReputationDecision
  userOverride : Option UserOverrideRecord
  lastTouched : Nat

def ReputationEntry.new (subject : String) (now : Nat) : ReputationEntry where
  subject := subject
  summary := .new now
  evidence := .empty
  decisions := []
  userOverride := none
  lastTouched := now

/-! ## Scores -/

/-- How far a source counts on one axis, and how many of its observations. -/
def contributionCaps : AuthorityId → Int × Nat
  | .app _ => (60, 16)
  | .coreModule _ => (255, 64)
  | .user => (180, 32)

def clampAxis (cap value : Int) : Int := max (-cap) (min value cap)

def capSourceContribution (source : AuthorityId) (delta : ScoreDelta) : ScoreDelta :=
  let (axisCap, countCap) := contributionCaps source
  { delta with
    reliability := clampAxis axisCap delta.reliability
    usefulness := clampAxis axisCap delta.usefulness
    suspicion := clampAxis axisCap delta.suspicion
    automation := clampAxis axisCap delta.automation
    sybil := clampAxis axisCap delta.sybil
    integrity := clampAxis axisCap delta.integrity
    abuse := clampAxis axisCap delta.abuse
    count := min delta.count countCap }

def normalizedScore (raw : Int) : Nat := (max 0 (min raw 255)).toNat

section Scores

variable (enabled : AuthorityId → Bool) (evidence : Evidence)

/-- The observations in the queue that count. -/
def Evidence.counted : List ReputationObservation :=
  evidence.recent.filter fun observation => observation.isActive && enabled observation.source

/-- The sources that have totals or an observation in the queue that counts. -/
def Evidence.sources : List AuthorityId :=
  (evidence.history.keys.filter enabled ++
    (evidence.counted enabled).map ReputationObservation.source).dedup

def Evidence.countedOf (source : AuthorityId) : List ReputationObservation :=
  (evidence.counted enabled).filter fun observation => decide (observation.source = source)

def Evidence.sourceTotal (source : AuthorityId) : ScoreDelta :=
  (evidence.countedOf enabled source).foldl
    (fun total observation => total.addAssign observation.contribution)
    (({} : ScoreDelta).addAssign (evidence.history.aggregate source).totals)

/-- The first and the last time of a source. A source with totals starts from the times of the
totals, which are 0 where all of them are retracted. -/
def Evidence.sourceTimes (source : AuthorityId) : Option (Nat × Nat) :=
  (evidence.countedOf enabled source).foldl
    (fun times observation =>
      let (first, last) := times.getD (observation.observedAt, observation.observedAt)
      some (min first observation.observedAt, max last observation.observedAt))
    ((evidence.history.lookup source).map fun aggregate =>
      (aggregate.firstObserved, aggregate.lastObserved))

/-- What all sources say together, each as far as it counts. -/
def Evidence.totals : ScoreDelta :=
  (evidence.sources enabled).foldl
    (fun totals source =>
      totals.addAssign (capSourceContribution source (evidence.sourceTotal enabled source))) {}

def Evidence.firstObserved : Nat :=
  let first := (evidence.sources enabled).foldl (fun first source =>
    match evidence.sourceTimes enabled source with
    | some (sourceFirst, _) => if sourceFirst ≠ 0 then min first sourceFirst else first
    | none => first) u64Max
  if first = u64Max then 0 else first

def Evidence.lastObserved : Nat :=
  (evidence.sources enabled).foldl (fun last source =>
    match evidence.sourceTimes enabled source with
    | some (_, sourceLast) => max last sourceLast
    | none => last) 0

end Scores

/-! ## Classification -/

def activeDecisions (enabled : AuthorityId → Bool) (now : Nat)
    (decisions : List ReputationDecision) : List ReputationDecision :=
  decisions.filter fun decision => decision.isActiveAt now && enabled decision.source

def isNetworkBan (decision : ReputationDecision) : Bool :=
  decide (decision.action = .ban ∧ decision.effectiveScope = .networkInteraction)

def classify (networkBanned : Bool) (totals : ScoreDelta) : ReputationClass :=
  let reliability := normalizedScore totals.reliability
  let usefulness := normalizedScore totals.usefulness
  let suspicion := normalizedScore totals.suspicion
  let automation := normalizedScore totals.automation
  if networkBanned then .networkBanned
  else if 140 ≤ normalizedScore totals.integrity then .tamperedProtocol
  else if 110 ≤ normalizedScore totals.sybil then .likelySybil
  else if 110 ≤ normalizedScore totals.abuse then .abusive
  else if 90 ≤ automation ∧ 55 ≤ suspicion then .suspiciousAutomation
  else if 90 ≤ automation ∧ 55 ≤ usefulness ∧ suspicion < 55 then .automatedBenign
  else if 110 ≤ reliability ∧ 75 ≤ usefulness ∧ suspicion < 50 then .reliableServer
  else if 70 ≤ reliability ∧ suspicion < 40 then .goodCitizen
  else if totals.count = 0 then .new
  else .normalUser

def summaryFlags (userOverride : Bool) (active : List ReputationDecision)
    («class» : ReputationClass) : ReputationFlags where
  banned := active.any isNetworkBan
  suspectedSybil := decide («class» = .likelySybil)
  automated := decide («class» = .automatedBenign ∨ «class» = .suspiciousAutomation)
  usefulServer := decide («class» = .reliableServer)
  tamperedProtocol := decide («class» = .tamperedProtocol)
  userOverride := userOverride
  crossAppConcern := active.any fun decision =>
    decision.source.isApp && decide (decision.requestedScope ≠ decision.effectiveScope)
  restricted := active.any fun decision => decide (decision.action = .restrict)

/-- The summary that evidence, decisions in force and an override give. -/
def summarize (enabled : AuthorityId → Bool) (now : Nat) (evidence : Evidence)
    (decisions : List ReputationDecision) (userOverride : Bool) (previous : ReputationSummary) :
    ReputationSummary :=
  let totals := evidence.totals enabled
  let sources := evidence.sources enabled
  let active := activeDecisions enabled now decisions
  let «class» := classify (active.any isNetworkBan) totals
  { «class» := «class»
    confidence := min (min totals.count 24 * 8 + min sources.length 7 * 9) 255
    reliability := normalizedScore totals.reliability
    usefulness := normalizedScore totals.usefulness
    suspicion := normalizedScore totals.suspicion
    automationLikelihood := normalizedScore totals.automation
    sybilLikelihood := normalizedScore totals.sybil
    integrityRisk := normalizedScore totals.integrity
    abuseRisk := normalizedScore totals.abuse
    observationCount := totals.count
    distinctSources := min sources.length 65535
    firstObserved := evidence.firstObserved enabled
    lastObserved := evidence.lastObserved enabled
    lastChanged := if previous.class ≠ «class» then now else previous.lastChanged
    flags := summaryFlags userOverride active «class» }

/-- The entry with its decisions expired, its queue compacted and its summary computed again. -/
def ReputationEntry.recompute (policies : SourcePolicies) (now : Nat) (entry : ReputationEntry) :
    ReputationEntry :=
  let decisions := entry.decisions.map (ReputationDecision.expire now)
  let evidence := compactRecentObservations now entry.evidence
  { entry with
    decisions := decisions
    evidence := evidence
    summary := summarize policies.sourceEnabled now evidence decisions entry.userOverride.isSome
      entry.summary }

/-! ## Views -/

inductive AccessLevel
  | allowed
  | restricted
  | blocked
  deriving DecidableEq

structure ReputationView where
  subject : String
  «class» : ReputationClass
  confidence : Nat
  networkAccess : AccessLevel
  appAccess : Option AccessLevel
  visibilityWeight : Nat
  flags : ReputationFlags
  lastObserved : Nat
  deriving DecidableEq

def strongestAccess : AccessLevel → AccessLevel → AccessLevel
  | .blocked, _ => .blocked
  | _, .blocked => .blocked
  | .restricted, _ => .restricted
  | _, .restricted => .restricted
  | .allowed, .allowed => .allowed

def DecisionAction.level : DecisionAction → AccessLevel
  | .restrict => .restricted
  | .ban => .blocked

/-- The access to the network and to the application that asks, if one does. -/
structure Access where
  network : AccessLevel
  app : Option AccessLevel
  deriving DecidableEq

/-- What a decision in force makes of the access. -/
def Access.apply (appContext : Option AppId) (access : Access)
    (decision : ReputationDecision) : Access :=
  let level := decision.action.level
  match decision.effectiveScope with
  | .networkInteraction =>
    { network := strongestAccess access.network level
      app := access.app.map fun appLevel => strongestAccess appLevel level }
  | .allApps =>
    { access with app := access.app.map fun appLevel => strongestAccess appLevel level }
  | .app appId =>
    if appContext = some appId then
      { access with app := access.app.map fun appLevel => strongestAccess appLevel level }
    else access

/-- A ban of an application that was meant for more than itself. -/
def isBroadAppBan (decision : ReputationDecision) : Bool :=
  decide (decision.action = .ban) &&
    decide (decision.requestedScope = .allApps ∨ decision.requestedScope = .networkInteraction)

/-- The applications that ask for a broad ban. -/
def broadAppBanSources (active : List ReputationDecision) : List AppId :=
  ((active.filter isBroadAppBan).filterMap fun decision =>
    match decision.source with
    | .app appId => some appId
    | _ => none).dedup

/-- What several applications that ask for a broad ban make of the access of every one. -/
def Access.corroborate (sources abuseRisk : Nat) (access : Access) : Access :=
  { access with app := access.app.map fun level =>
      if 5 ≤ sources ∧ 70 ≤ abuseRisk then strongestAccess level .blocked
      else if 3 ≤ sources then strongestAccess level .restricted
      else level }

def Access.override (access : Access) : Option UserOverrideRecord → Access
  | none => access
  | some record =>
    let level : AccessLevel := match record.mode with
      | .allow => .allowed
      | .allowRestricted => .restricted
    ⟨level, access.app.map fun _ => level⟩

/-- An entry of little confidence is on probation. -/
def ReputationEntry.baseAccess (entry : ReputationEntry) (appContext : Option AppId) : Access :=
  let level : AccessLevel := if entry.summary.confidence < 24 then .restricted else .allowed
  ⟨level, appContext.map fun _ => level⟩

def ReputationEntry.access (policies : SourcePolicies) (now : Nat) (appContext : Option AppId)
    (entry : ReputationEntry) : Access :=
  let active := activeDecisions policies.sourceEnabled now entry.decisions
  let decided := active.foldl (Access.apply appContext) (entry.baseAccess appContext)
  let corroborated :=
    decided.corroborate (broadAppBanSources active).length entry.summary.abuseRisk
  corroborated.override entry.userOverride

/-- Division rounds towards zero. -/
def visibilityWeight (summary : ReputationSummary) (access : Access) : Nat :=
  if access.network = .blocked ∨ access.app = some .blocked then 0
  else
    let weight : Int := 100 - (summary.suspicion * 40 : Int).tdiv 255 -
      (summary.sybilLikelihood * 35 : Int).tdiv 255 + (summary.usefulness * 20 : Int).tdiv 255
    let weight := if summary.flags.crossAppConcern then weight - 15 else weight
    let weight := if access.network = .restricted ∨ access.app = some .restricted then
      min weight 35 else weight
    (max 0 (min weight 100)).toNat

def ReputationEntry.view (policies : SourcePolicies) (now : Nat) (appContext : Option AppId)
    (subject : String) (entry : ReputationEntry) : ReputationView :=
  let access := entry.access policies now appContext
  { subject
    «class» := entry.summary.class
    confidence := entry.summary.confidence
    networkAccess := access.network
    appAccess := access.app
    visibilityWeight := visibilityWeight entry.summary access
    flags := { entry.summary.flags with
      banned := entry.summary.flags.banned ||
        decide (access.network = .blocked ∨ access.app = some .blocked)
      restricted := entry.summary.flags.restricted ||
        decide (access.network = .restricted ∨ access.app = some .restricted) }
    lastObserved := entry.summary.lastObserved }

/-- The view of a subject without an entry. -/
def unknownView (appContext : Option AppId) (subject : String) : ReputationView where
  subject := subject
  «class» := .new
  confidence := 0
  networkAccess := .restricted
  appAccess := appContext.map fun _ => .restricted
  visibilityWeight := 25
  flags := { restricted := true }
  lastObserved := 0

/-! ## What computing the summary again keeps -/

section Recompute

variable {policies : SourcePolicies} {now time : Nat} {entry : ReputationEntry}
  {decision : ReputationDecision}

@[simp]
theorem ReputationDecision.expire_source : (decision.expire now).source = decision.source := by
  unfold expire
  split <;> rfl

/-- Expiring changes nothing about a decision that is in force later. -/
theorem ReputationDecision.expire_of_active (h : decision.isActiveAt time) (later : now ≤ time) :
    decision.expire now = decision := by
  refine if_neg fun ⟨_, hexpired⟩ => ?_
  simp only [isActiveAt, Bool.and_eq_true] at h
  cases hexpiry : decision.expiresAt with
  | none => simp [hexpiry] at hexpired
  | some expiry =>
    simp only [hexpiry, Option.any_some, Option.all_some, decide_eq_true_eq] at hexpired h
    omega

/-- A decision that is in force after expiring was not changed. -/
theorem ReputationDecision.expire_eq_of_active (h : (decision.expire now).isActiveAt time) :
    decision.expire now = decision := by
  unfold expire at h ⊢
  split at h
  case isTrue => simp [isActiveAt] at h
  case isFalse hactive => rw [if_neg hactive]

theorem ReputationDecision.isActiveAt_expire (later : now ≤ time) :
    (decision.expire now).isActiveAt time = decision.isActiveAt time := by
  rw [Bool.eq_iff_iff]
  constructor
  · intro h
    rw [← expire_eq_of_active h]
    exact h
  · intro h
    rw [expire_of_active h later]
    exact h

/-- Expiring does not change which decisions are in force. -/
theorem activeDecisions_expire (enabled : AuthorityId → Bool) (later : now ≤ time)
    (decisions : List ReputationDecision) :
    activeDecisions enabled time (decisions.map (ReputationDecision.expire now)) =
      activeDecisions enabled time decisions := by
  induction decisions with
  | nil => rfl
  | cons decision decisions ih =>
    unfold activeDecisions at ih ⊢
    by_cases hactive : decision.isActiveAt time
    case pos =>
      rw [List.map_cons, ReputationDecision.expire_of_active hactive later, List.filter_cons,
        List.filter_cons, ih]
    case neg =>
      have hafter : ¬ (decision.expire now).isActiveAt time := by
        rwa [ReputationDecision.isActiveAt_expire later]
      rw [List.map_cons, List.filter_cons_of_neg (by simp [hafter]),
        List.filter_cons_of_neg (by simp [hactive]), ih]

@[simp]
theorem ReputationEntry.recompute_userOverride :
    (entry.recompute policies now).userOverride = entry.userOverride := rfl

@[simp]
theorem ReputationEntry.recompute_decisions : (entry.recompute policies now).decisions =
    entry.decisions.map (ReputationDecision.expire now) := rfl

end Recompute

end VeilKnit.Reputation
