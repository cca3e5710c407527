import VeilKnit.Reputation.Authority

/-!
# The flags of a view

A view takes over the flags of the summary and adds to them what its access levels say. It never
takes a flag away, so a flag that the summary has set for a decision of another application, for
one that has expired since or for one that the user overrides stays beside an access that is open.
-/

namespace VeilKnit.Reputation

open Library

variable {policies : SourcePolicies} {now time : Nat} {appId : AppId}
  {entry : ReputationEntry} {decision : ReputationDecision} {appContext : Option AppId}

/-! ## Who is allowed -/

theorem access_app_isSome :
    (entry.access policies time appContext).app.isSome = appContext.isSome := by
  have hdecided : ((entry.inForce policies time).foldl (Access.apply appContext)
      (entry.baseAccess appContext)).app.isSome = appContext.isSome := by
    rw [foldl_apply_isSome]
    simp [ReputationEntry.baseAccess]
  rw [ReputationEntry.inForce] at hdecided
  unfold ReputationEntry.access Access.override Access.corroborate
  cases entry.userOverride with
  | none => simpa using hdecided
  | some record => simpa using hdecided

theorem access_app_none : (entry.access policies time none).app = none := by
  simpa using @access_app_isSome policies time entry none

/-- A decision that reaches an application. -/
def reachesApp (appId : AppId) (decision : ReputationDecision) : Prop :=
  decision.effectiveScope = .networkInteraction ∨ decision.effectiveScope = .allApps ∨
    decision.effectiveScope = .app appId

@[simp]
theorem strongestAccess_eq_allowed {left right : AccessLevel} :
    strongestAccess left right = .allowed ↔ left = .allowed ∧ right = .allowed := by
  cases left <;> cases right <;> decide

@[simp]
theorem DecisionAction.level_ne_allowed (action : DecisionAction) : action.level ≠ .allowed := by
  cases action <;> decide

theorem Access.apply_network_allowed (access : Access) :
    (access.apply appContext decision).network = .allowed ↔
      access.network = .allowed ∧ decision.effectiveScope ≠ .networkInteraction := by
  unfold Access.apply
  split
  case h_1 hscope => simp [hscope]
  case h_2 hscope => simp [hscope]
  case h_3 scopeApp hscope => split <;> simp [hscope]

theorem Access.apply_app_allowed (access : Access) :
    (access.apply (some appId) decision).app = some .allowed ↔
      access.app = some .allowed ∧ ¬ reachesApp appId decision := by
  unfold Access.apply reachesApp
  split
  case h_1 hscope => simp [hscope]
  case h_2 hscope => simp [hscope]
  case h_3 scopeApp hscope =>
  split
  case isTrue h =>
    cases h
    simp [hscope]
  case isFalse h =>
    have hne : scopeApp ≠ appId := fun heq => h (by rw [heq])
    simp [hscope, hne]

theorem foldl_apply_network_allowed (appContext : Option AppId)
    (decisions : List ReputationDecision) (access : Access) :
    (decisions.foldl (Access.apply appContext) access).network = .allowed ↔
      access.network = .allowed ∧
        ∀ decision ∈ decisions, decision.effectiveScope ≠ .networkInteraction := by
  induction decisions generalizing access with
  | nil => simp
  | cons decision decisions ih =>
    rw [List.foldl_cons, ih, Access.apply_network_allowed]
    simp [and_assoc]

theorem foldl_apply_app_allowed (decisions : List ReputationDecision) (access : Access) :
    (decisions.foldl (Access.apply (some appId)) access).app = some .allowed ↔
      access.app = some .allowed ∧ ∀ decision ∈ decisions, ¬ reachesApp appId decision := by
  induction decisions generalizing access with
  | nil => simp
  | cons decision decisions ih =>
    rw [List.foldl_cons, ih, Access.apply_app_allowed]
    simp [and_assoc]

theorem Access.corroborate_allowed (access : Access) (sources abuseRisk : Nat) :
    (access.corroborate sources abuseRisk).app = some .allowed ↔
      access.app = some .allowed ∧ sources < 3 := by
  unfold Access.corroborate
  cases access.app with
  | none => simp
  | some level =>
    simp only [Option.map_some, Option.some_inj]
    split_ifs
    · simp
      omega
    · simp
      omega
    · simp
      omega

/-- The user has said that the subject is to be restricted. -/
def ReputationEntry.heldBack (entry : ReputationEntry) : Prop :=
  ∃ record ∈ entry.userOverride, record.mode = .allowRestricted

/-- The user, probation or a decision about the network restricts a subject. -/
def ReputationEntry.networkRestricted (policies : SourcePolicies) (time : Nat)
    (entry : ReputationEntry) : Prop :=
  entry.heldBack ∨ entry.userOverride = none ∧
    (¬ ∃ decision ∈ entry.inForce policies time, isNetworkBan decision = true) ∧
    (entry.summary.confidence < 24 ∨ ∃ decision ∈ entry.inForce policies time,
      decision.effectiveScope = .networkInteraction)

/-- The user, probation, a decision that reaches the application or the request of three others
restricts a subject. -/
def ReputationEntry.appRestricted (policies : SourcePolicies) (time : Nat) (appId : AppId)
    (entry : ReputationEntry) : Prop :=
  entry.heldBack ∨ entry.userOverride = none ∧
    ¬ ((∃ decision ∈ entry.inForce policies time, blocksApp appId decision) ∨
      entry.corroborated policies time) ∧
    (entry.summary.confidence < 24 ∨
      (∃ decision ∈ entry.inForce policies time, reachesApp appId decision) ∨
      3 ≤ (broadAppBanSources (entry.inForce policies time)).length)

theorem restricted_iff {level : AccessLevel} :
    level = .restricted ↔ level ≠ .blocked ∧ level ≠ .allowed := by
  cases level <;> decide

theorem baseAccess_network_allowed :
    (entry.baseAccess appContext).network = .allowed ↔ ¬ entry.summary.confidence < 24 := by
  unfold ReputationEntry.baseAccess
  split <;> simp [*]

theorem baseAccess_app_allowed :
    (entry.baseAccess (some appId)).app = some .allowed ↔ ¬ entry.summary.confidence < 24 := by
  unfold ReputationEntry.baseAccess
  split <;> simp [*]

theorem access_network_restricted : (entry.access policies time appContext).network = .restricted ↔
      entry.networkRestricted policies time := by
  rw [restricted_iff, ne_eq, access_network_blocked]
  unfold ReputationEntry.networkRestricted ReputationEntry.heldBack
  cases hoverride : entry.userOverride with
  | some record =>
    obtain ⟨mode, createdAt, note⟩ := record
    simp only [ReputationEntry.access, hoverride, Access.override]
    cases mode <;> simp
  | none =>
    have hnetwork : (entry.access policies time appContext).network =
        ((entry.inForce policies time).foldl (Access.apply appContext)
          (entry.baseAccess appContext)).network := by
      rw [ReputationEntry.access, hoverride]
      rfl
    rw [hnetwork, ne_eq, foldl_apply_network_allowed, baseAccess_network_allowed]
    simp [not_and_or, -not_and, -not_exists]

theorem access_app_restricted : (entry.access policies time (some appId)).app = some .restricted ↔
      entry.appRestricted policies time appId := by
  obtain ⟨level, hlevel⟩ := Option.isSome_iff_exists.mp
    (@access_app_isSome policies time entry (some appId))
  have hsplit : (entry.access policies time (some appId)).app = some .restricted ↔
      ¬ (entry.access policies time (some appId)).app = some .blocked ∧
        ¬ (entry.access policies time (some appId)).app = some .allowed := by
    rw [hlevel, Option.some_inj, Option.some_inj, Option.some_inj]
    exact restricted_iff
  rw [hsplit, access_app_blocked]
  unfold ReputationEntry.appRestricted ReputationEntry.heldBack
  cases hoverride : entry.userOverride with
  | some record =>
    obtain ⟨mode, createdAt, note⟩ := record
    have hoverridden := hlevel
    simp only [ReputationEntry.access, hoverride, Access.override, Option.map_eq_some_iff]
      at hoverridden
    obtain ⟨decided, hdecided, -⟩ := hoverridden
    simp only [ReputationEntry.access, hoverride, Access.override, hdecided, Option.map_some]
    cases mode <;> simp
  | none =>
    have happ : (entry.access policies time (some appId)).app =
        (((entry.inForce policies time).foldl (Access.apply (some appId))
          (entry.baseAccess (some appId))).corroborate
            (broadAppBanSources (entry.inForce policies time)).length
            entry.summary.abuseRisk).app := by
      rw [ReputationEntry.access, hoverride]
      rfl
    rw [happ, Access.corroborate_allowed, foldl_apply_app_allowed, baseAccess_app_allowed]
    simp [not_and_or, or_assoc, -not_and, -not_or, -not_exists]

/-! ## Flags and access levels -/

/-- The flags of a view say what its access levels say. -/
structure FlagsAgree (view : ReputationView) : Prop where
  banned : view.flags.banned = true ↔ view.networkAccess = .blocked ∨ view.appAccess = some .blocked
  restricted : view.flags.restricted = true ↔
    view.networkAccess = .restricted ∨ view.appAccess = some .restricted

/-- A ban in force that the user does not override reaches who asks. -/
def ReputationEntry.closedTo (policies : SourcePolicies) (time : Nat) (appContext : Option AppId)
    (entry : ReputationEntry) : Prop :=
  entry.userOverride = none ∧
    ((∃ decision ∈ entry.inForce policies time, isNetworkBan decision = true) ∨
      ∃ appId ∈ appContext, (∃ decision ∈ entry.inForce policies time,
        blocksApp appId decision) ∨ entry.corroborated policies time)

/-- The subject is restricted for who asks. -/
def ReputationEntry.restrictedTo (policies : SourcePolicies) (time : Nat)
    (appContext : Option AppId) (entry : ReputationEntry) : Prop :=
  entry.networkRestricted policies time ∨
    ∃ appId ∈ appContext, entry.appRestricted policies time appId

theorem access_blocked_iff : (entry.access policies time appContext).network = .blocked ∨
    (entry.access policies time appContext).app = some .blocked ↔
      entry.closedTo policies time appContext := by
  rw [access_network_blocked]
  unfold ReputationEntry.closedTo
  cases appContext with
  | none => simp [access_app_none]
  | some appId =>
    rw [access_app_blocked, ← and_or_left]
    simp

theorem access_restricted_iff : (entry.access policies time appContext).network = .restricted ∨
    (entry.access policies time appContext).app = some .restricted ↔
      entry.restrictedTo policies time appContext := by
  rw [access_network_restricted]
  unfold ReputationEntry.restrictedTo
  cases appContext with
  | none => simp [access_app_none]
  | some appId =>
    rw [access_app_restricted]
    simp

/-- The flags agree with the access levels when the flags that the summary has set are still
true for who asks. -/
theorem view_flags_agree_iff (store : ReputationStore) (subject : String)
    (appContext : Option AppId) (now : Nat) :
    FlagsAgree (buildView store subject appContext now) ↔
      ∀ entry, store.entry subject = some entry →
        (entry.summary.flags.banned = true →
          entry.closedTo store.appSourcePolicies now appContext) ∧
        (entry.summary.flags.restricted = true →
          entry.restrictedTo store.appSourcePolicies now appContext) := by
  cases hentry : store.entry subject with
  | none =>
    refine ⟨fun _ _ h => (by cases h), fun _ => ?_⟩
    rw [buildView, hentry]
    constructor <;> cases appContext <;> simp [unknownView]
  | some entry =>
    rw [buildView, hentry]
    have hview : FlagsAgree (entry.view store.appSourcePolicies now appContext subject) ↔
        (entry.summary.flags.banned = true →
          entry.closedTo store.appSourcePolicies now appContext) ∧
        (entry.summary.flags.restricted = true →
          entry.restrictedTo store.appSourcePolicies now appContext) := by
      rw [← access_blocked_iff, ← access_restricted_iff]
      constructor
      · rintro ⟨hbanned, hrestricted⟩
        exact ⟨fun h => hbanned.mp (by simp [ReputationEntry.view, h]),
          fun h => hrestricted.mp (by simp [ReputationEntry.view, h])⟩
      · rintro ⟨hbanned, hrestricted⟩
        constructor
        · simpa [ReputationEntry.view] using hbanned
        · simpa [ReputationEntry.view] using hrestricted
    simpa using hview

namespace Sample

/-- An application restricts the peer for itself, and the user allows the peer. -/
def confined : RuntimeState := runCommands newState
  [(10, .createDecision (.app "chat") "peer" .restrict (.app "chat") "rude" none),
    (11, .setUserOverride "peer" .allow none)]

end Sample

/-- The flag stays when the user allows the subject. -/
theorem allowed_peer_is_flagged : ¬ ∀ (store : ReputationStore) (subject : String)
    (appContext : Option AppId) (now : Nat),
      FlagsAgree (buildView store subject appContext now) := by
  intro h
  have hrestricted := (h Sample.confined.store "peer" none 12).restricted
  revert hrestricted
  decide +kernel

end VeilKnit.Reputation
