import VeilKnit.Identity.Writes

/-!
# Requests for the registration of an application

An application asks to be registered and polls for the decision of the local user with a token of
its own. A newer request of the same application supersedes an older one. An approval looks at the
request, registers the application with the identity manager and writes its decision, and it holds
the lock on the requests in the first and in the last of these steps, but not in between.
-/

namespace VeilKnit.Api

open Library Types Identity

def registrationRequestTtlSecs : UInt64 := 900
def registrationResultTtlSecs : UInt64 := 600
def maxPendingRegistrationRequests : Nat := 256

/-- What an application may ask for on its first run. -/
def standardApp : AppCapabilitySet :=
  {.sendMessages, .receiveMessages, .manageOwnStorage, .readOwnStorage, .readPublicProfiles,
    .subscribeNetworkStatus, .submitReputation, .requestAppScopedRestriction,
    .inspectOwnReputationSubmissions, .signAppData}

abbrev RequestToken := { bytes : Bytes // bytes.length = 32 }

structure PendingAppRegistration where
  requestId : UInt64
  appId : AppId
  displayName : String
  requestedCapabilities : List AppCapability
  requestedAt : UInt64
  expiresAt : UInt64
  deriving DecidableEq

inductive RegistrationDecision
  | pending
  | approved (credential : AppCredential) (decidedAt : UInt64)
  | rejected (reason : String) (decidedAt : UInt64)
  deriving DecidableEq

structure RegistrationRequestState where
  summary : PendingAppRegistration
  requestToken : RequestToken
  decision : RegistrationDecision
  deriving DecidableEq

abbrev Requests := AList fun _ : UInt64 => RegistrationRequestState

inductive RegistrationStatusSnapshot
  | pending
  | approved (credential : AppCredential) (summary : PendingAppRegistration)
  | rejected (reason : String)
  | expired
  deriving DecidableEq

structure AppRegistrationHub where
  nextRequestId : UInt64
  requests : Requests

/-- The request as decided. -/
def RegistrationRequestState.decide (r : RegistrationRequestState) (decision : RegistrationDecision) :
    RegistrationRequestState :=
  { r with decision := decision }

def RegistrationRequestState.isPending (r : RegistrationRequestState) : Bool :=
  r.decision = .pending

/-- A cleanup keeps the request. -/
def RegistrationRequestState.isKept (now : UInt64) (r : RegistrationRequestState) : Bool :=
  match r.decision with
  | .pending => now < r.summary.expiresAt
  | .approved _ decidedAt => now < saturatingAdd decidedAt registrationResultTtlSecs
  | .rejected _ decidedAt => now < saturatingAdd decidedAt registrationResultTtlSecs

namespace AppRegistrationHub

def default : AppRegistrationHub where
  nextRequestId := 1
  requests := ∅

def cleanupRegistrationRequests (hub : AppRegistrationHub) (now : UInt64) : AppRegistrationHub :=
  { hub with requests := hub.requests.filterEntries fun _ r => r.isKept now }

def checkRequest (displayName : String) (requestedCapabilities : AppCapabilitySet) :
    Except (String × String) Unit :=
  if displayName = "" ∨ displayName.utf8ByteSize > 256 then
    .error ("invalid_display_name", "display name must contain 1 to 256 bytes")
  else if ¬ requestedCapabilities ⊆ standardApp then
    .error ("capability_denied",
      "first-run authorization may request only standard application capabilities")
  else .ok ()

/-- The pending request that a request repeats. -/
def repeated? (hub : AppRegistrationHub) (appId : AppId) (requestToken : RequestToken) :
    Option RegistrationRequestState :=
  (hub.requests.entries.map Sigma.snd).find? fun r =>
    r.summary.appId = appId ∧ r.requestToken = requestToken ∧ r.isPending

/-- Reject the pending requests of an application. -/
def supersede (hub : AppRegistrationHub) (appId : AppId) (now : UInt64) : AppRegistrationHub :=
  { hub with
    requests := hub.requests.mapEntries fun _ r =>
      if r.summary.appId = appId ∧ r.isPending then
        r.decide (.rejected "superseded by a newer authorization request for this application" now)
      else r }

def insertRequest (hub : AppRegistrationHub) (summary : PendingAppRegistration)
    (requestToken : RequestToken) : AppRegistrationHub where
  nextRequestId := max (saturatingAdd hub.nextRequestId 1) 1
  requests := hub.requests.insert hub.nextRequestId ⟨summary, requestToken, .pending⟩

def request (hub : AppRegistrationHub) (appId : AppId) (displayName : String)
    (requestedCapabilities : AppCapabilitySet) (requestToken : RequestToken) (now : UInt64) :
    AppRegistrationHub × Except (String × String) PendingAppRegistration :=
  let displayName := Text.trim displayName
  match checkRequest displayName requestedCapabilities with
  | .error error => (hub, .error error)
  | .ok () =>
    let hub := hub.cleanupRegistrationRequests now
    match hub.repeated? appId requestToken with
    | some existing => (hub, .ok existing.summary)
    | none =>
      let hub := hub.supersede appId now
      if hub.requests.count RegistrationRequestState.isPending ≥ maxPendingRegistrationRequests then
        (hub, .error ("too_many_registration_requests",
          "the daemon has too many pending application authorization requests"))
      else
        let summary : PendingAppRegistration :=
          { requestId := hub.nextRequestId
            appId := appId
            displayName := displayName
            requestedCapabilities := AppCapabilitySet.iter requestedCapabilities
            requestedAt := now
            expiresAt := saturatingAdd now registrationRequestTtlSecs }
        (hub.insertRequest summary requestToken, .ok summary)

/-- The newest pending request of each application, in the order of the applications. -/
def pending (hub : AppRegistrationHub) (now : UInt64) :
    AppRegistrationHub × List PendingAppRegistration :=
  let hub := hub.cleanupRegistrationRequests now
  let summaries := ((hub.requests.entries.map Sigma.snd).filter
    RegistrationRequestState.isPending).map RegistrationRequestState.summary
  let latest := summaries.filter fun summary => summaries.all fun other =>
    other.appId = summary.appId → other.requestId ≤ summary.requestId
  (hub, latest.mergeSort fun left right => left.appId ≤ right.appId)

/-- A pending request, or why there is none. -/
def findPending (hub : AppRegistrationHub) (requestId : UInt64) :
    Except String RegistrationRequestState :=
  match hub.requests.lookup requestId with
  | none => .error s!"registration request {requestId} was not found"
  | some r =>
    if r.isPending then .ok r
    else .error s!"registration request {requestId} is no longer pending"

/-- The first step of an approval. -/
def beginApproval (hub : AppRegistrationHub) (requestId now : UInt64) :
    AppRegistrationHub × Except String PendingAppRegistration :=
  let hub := hub.cleanupRegistrationRequests now
  (hub, (hub.findPending requestId).map RegistrationRequestState.summary)

/-- The last step of an approval. It does not look at what the decision has become. -/
def finishApproval (hub : AppRegistrationHub) (requestId : UInt64) (credential : AppCredential)
    (now : UInt64) : AppRegistrationHub × Except String Unit :=
  match hub.requests.lookup requestId with
  | none => (hub, .error s!"registration request {requestId} expired during approval")
  | some r =>
    ({ hub with requests := hub.requests.insert requestId (r.decide (.approved credential now)) },
      .ok ())

def reject (hub : AppRegistrationHub) (requestId : UInt64) (reason : String) (now : UInt64) :
    AppRegistrationHub × Except String Unit :=
  let hub := hub.cleanupRegistrationRequests now
  match hub.findPending requestId with
  | .error error => (hub, .error error)
  | .ok r =>
    let reason :=
      if Text.trim reason = "" then "rejected by the local user" else Text.trim reason
    ({ hub with requests := hub.requests.insert requestId (r.decide (.rejected reason now)) },
      .ok ())

def status (hub : AppRegistrationHub) (requestId : UInt64) (requestToken : RequestToken)
    (now : UInt64) : AppRegistrationHub × Except (String × String) RegistrationStatusSnapshot :=
  let hub := hub.cleanupRegistrationRequests now
  match hub.requests.lookup requestId with
  | none => (hub, .ok .expired)
  | some r =>
    if r.requestToken ≠ requestToken then
      (hub, .error ("registration_token_mismatch", "the authorization request token is invalid"))
    else
      match r.decision with
      | .pending => (hub, .ok .pending)
      | .approved credential _ => (hub, .ok (.approved credential r.summary))
      | .rejected reason _ => (hub, .ok (.rejected reason))

/-! ## What the operations do to a stored request -/

variable {hub : AppRegistrationHub} {now : UInt64} {decides : RegistrationRequestState → Prop}

theorem lookup_cleanup (hub : AppRegistrationHub) (now id : UInt64) :
    (hub.cleanupRegistrationRequests now).requests.lookup id =
      (hub.requests.lookup id).filter (RegistrationRequestState.isKept now) := by
  ext r
  rw [cleanupRegistrationRequests, AList.lookup_filterEntries_eq_some, Option.filter_eq_some_iff,
    and_comm]

/-- A stored request stays as it is, or a cleanup drops it, or, pending, it is decided. -/
inductive Transition (now : UInt64) (decides : RegistrationRequestState → Prop) :
    Option RegistrationRequestState → Option RegistrationRequestState → Prop
  | kept {x : Option RegistrationRequestState} : Transition now decides x x
  | dropped {r : RegistrationRequestState} :
      r.isKept now = false → Transition now decides (some r) none
  | decided {r : RegistrationRequestState} {decision : RegistrationDecision} :
      r.isPending → decides r → decision ≠ .pending →
        Transition now decides (some r) (some (r.decide decision))

def Transitions (now : UInt64) (decides : RegistrationRequestState → Prop)
    (before after : Requests) : Prop :=
  ∀ id, Transition now decides (before.lookup id) (after.lookup id)

variable {y x : Option RegistrationRequestState}

theorem Transition.none_left (h : Transition now decides none y) : y = none := by
  cases h
  rfl

variable {r' r : RegistrationRequestState}

theorem Transition.summary_eq (h : Transition now decides x y) (hy : y = some r') :
    ∃ r, x = some r ∧ r'.summary = r.summary := by
  subst hy
  cases h with
  | kept => exact ⟨r', rfl, rfl⟩
  | decided => exact ⟨_, rfl, rfl⟩

/-- A pending request was pending before. -/
theorem Transition.of_pending
    (h : Transition now decides x (some r')) (hpending : r'.isPending) : x = some r' := by
  cases h with
  | kept => rfl
  | decided _ _ hdecision => exact absurd (of_decide_eq_true hpending) hdecision

/-- A spared request stays as it is. -/
theorem Transition.of_spared (h : Transition now decides (some r) y)
    (hpending : r.isPending) (hspared : now < r.summary.expiresAt ∧ ¬ decides r) : y = some r := by
  cases h with
  | kept => rfl
  | dropped hage =>
    rw [RegistrationRequestState.isKept, of_decide_eq_true hpending] at hage
    exact absurd hspared.1 (of_decide_eq_false hage)
  | decided _ hdecides _ => exact absurd hdecides hspared.2

/-- Transitions of the stored requests alone. -/
structure HubStep (now : UInt64) (decides : RegistrationRequestState → Prop)
    (hub after : AppRegistrationHub) : Prop where
  number : after.nextRequestId = hub.nextRequestId
  requests : Transitions now decides hub.requests after.requests

/-- Transitions of the stored requests and a new one, the only one pending for its application. -/
inductive Inserts (now : UInt64) (decides : RegistrationRequestState → Prop)
    (hub : AppRegistrationHub) : AppRegistrationHub → Prop
  | inserted {requests : Requests} {summary : PendingAppRegistration}
      {requestToken : RequestToken} : Transitions now decides hub.requests requests →
      summary.requestId = hub.nextRequestId →
      (∀ id r, requests.lookup id = some r → r.isPending → r.summary.appId ≠ summary.appId) →
      requests.count RegistrationRequestState.isPending < maxPendingRegistrationRequests →
      Inserts now decides hub (insertRequest ⟨hub.nextRequestId, requests⟩ summary requestToken)

theorem transitions_cleanup (decides : RegistrationRequestState → Prop)
    (hub : AppRegistrationHub) (now : UInt64) :
    Transitions now decides hub.requests (hub.cleanupRegistrationRequests now).requests := by
  intro id
  rw [lookup_cleanup]
  cases hub.requests.lookup id with
  | none => exact .kept
  | some r =>
    cases hkept : r.isKept now with
    | true =>
      rw [Option.filter_some, if_pos hkept]
      exact .kept
    | false =>
      rw [Option.filter_some, hkept]
      exact .dropped hkept

theorem hubStep_cleanup (hub : AppRegistrationHub) (now : UInt64) :
    HubStep now decides hub (hub.cleanupRegistrationRequests now) :=
  ⟨rfl, transitions_cleanup decides hub now⟩

variable {id : UInt64}

/-- After a cleanup a pending request may be decided. -/
theorem transition_decide {decision : RegistrationDecision}
    (hstored : (hub.cleanupRegistrationRequests now).requests.lookup id = some r)
    (hpending : r.isPending) (hdecides : decides r) (hdecision : decision ≠ .pending) :
    Transition now decides (hub.requests.lookup id) (some (r.decide decision)) := by
  rw [lookup_cleanup, Option.filter_eq_some_iff] at hstored
  rw [hstored.1]
  exact .decided hpending hdecides hdecision

theorem findPending_eq_ok
    (h : hub.findPending id = .ok r) : hub.requests.lookup id = some r ∧ r.isPending := by
  rw [findPending] at h
  cases hlookup : hub.requests.lookup id with
  | none =>
    rw [hlookup] at h
    cases h
  | some found =>
    rw [hlookup] at h
    dsimp only at h
    split at h
    case isTrue hpending =>
      cases h
      exact ⟨rfl, hpending⟩
    case isFalse => cases h

theorem hubStep_reject (hub : AppRegistrationHub) (requestId : UInt64) (reason : String)
    (now : UInt64) (hid : ∀ r, hub.requests.lookup requestId = some r → decides r) :
    HubStep now decides hub (hub.reject requestId reason now).1 := by
  rw [reject]
  cases hfound : (hub.cleanupRegistrationRequests now).findPending requestId with
  | error error => exact hubStep_cleanup hub now
  | ok r =>
    obtain ⟨hstored, hpending⟩ := findPending_eq_ok hfound
    refine ⟨rfl, fun id => ?_⟩
    by_cases hid' : id = requestId
    · subst hid'
      rw [AList.lookup_insert]
      have hbefore : hub.requests.lookup id = some r :=
        (AList.lookup_filterEntries_eq_some.mp hstored).2
      exact transition_decide hstored hpending (hid r hbefore) (by simp)
    · rw [AList.lookup_insert_ne hid']
      exact transitions_cleanup decides hub now id

theorem hubStep_finishApproval (hub : AppRegistrationHub) (requestId : UInt64)
    (credential : AppCredential) (now : UInt64)
    (hid : ∀ r, hub.requests.lookup requestId = some r → r.isPending ∧ decides r) :
    HubStep now decides hub (hub.finishApproval requestId credential now).1 := by
  rw [finishApproval]
  cases hfound : hub.requests.lookup requestId with
  | none => exact ⟨rfl, fun _ => .kept⟩
  | some r =>
    refine ⟨rfl, fun id => ?_⟩
    by_cases hid' : id = requestId
    · subst hid'
      rw [AList.lookup_insert, hfound]
      obtain ⟨hpending, hdecides⟩ := hid r hfound
      exact .decided hpending hdecides (by simp)
    · rw [AList.lookup_insert_ne hid']
      exact .kept

variable {requestToken : RequestToken} {appId : AppId}

/-- No pending request is repeated by one that finds none. -/
theorem repeated?_eq_none (h : hub.repeated? appId requestToken = none)
    (hstored : hub.requests.lookup id = some r) (happ : r.summary.appId = appId)
    (hpending : r.isPending) : r.requestToken ≠ requestToken := by
  intro htoken
  have hmem : r ∈ hub.requests.entries.map Sigma.snd :=
    List.mem_map_of_mem (AList.mem_lookup_iff.mp hstored)
  have hnone := List.find?_eq_none.mp h r hmem
  simp [happ, htoken, hpending] at hnone

theorem transitions_supersede
    (hnone : (hub.cleanupRegistrationRequests now).repeated? appId requestToken = none)
    (hdecides : ∀ r : RegistrationRequestState,
      r.summary.appId = appId → r.requestToken ≠ requestToken → decides r) :
    Transitions now decides hub.requests
      ((hub.cleanupRegistrationRequests now).supersede appId now).requests := by
  intro id
  rw [supersede, AList.lookup_mapEntries]
  cases hstored : (hub.cleanupRegistrationRequests now).requests.lookup id with
  | none =>
    have hcleanup := transitions_cleanup decides hub now id
    rwa [hstored] at hcleanup
  | some r =>
    rw [Option.map_some]
    split
    case isTrue h =>
      obtain ⟨happ, hpending⟩ := h
      have htoken := repeated?_eq_none hnone hstored happ hpending
      exact transition_decide hstored hpending (hdecides r happ htoken) (by simp)
    case isFalse =>
      have hcleanup := transitions_cleanup decides hub now id
      rwa [hstored] at hcleanup

theorem not_pending_of_superseded
    (hstored : (hub.supersede appId now).requests.lookup id = some r) (hpending : r.isPending) :
    r.summary.appId ≠ appId := by
  rw [supersede, AList.lookup_mapEntries, Option.map_eq_some_iff] at hstored
  obtain ⟨before, -, rfl⟩ := hstored
  split at hpending
  case isTrue => cases hpending
  case isFalse h =>
    rw [if_neg h]
    exact fun happ => h ⟨happ, hpending⟩

theorem request_cases (hub : AppRegistrationHub) (appId : AppId) (displayName : String)
    (requestedCapabilities : AppCapabilitySet) (requestToken : RequestToken) (now : UInt64)
    (hdecides : ∀ r : RegistrationRequestState,
      r.summary.appId = appId → r.requestToken ≠ requestToken → decides r) :
    HubStep now decides hub
        (hub.request appId displayName requestedCapabilities requestToken now).1 ∨
      Inserts now decides hub
        (hub.request appId displayName requestedCapabilities requestToken now).1 := by
  rw [request]
  dsimp only
  cases checkRequest (Text.trim displayName) requestedCapabilities with
  | error error => exact .inl ⟨rfl, fun _ => .kept⟩
  | ok =>
    cases hrepeated : (hub.cleanupRegistrationRequests now).repeated? appId requestToken with
    | some existing => exact .inl (hubStep_cleanup hub now)
    | none =>
      have hsuperseded := transitions_supersede hrepeated hdecides
      dsimp only
      split
      case isTrue => exact .inl ⟨rfl, hsuperseded⟩
      case isFalse hcount =>
        refine .inr (.inserted hsuperseded rfl ?_ (Nat.lt_of_not_ge hcount))
        exact fun _ _ hstored hpending => not_pending_of_superseded hstored hpending

@[simp]
theorem status_fst (hub : AppRegistrationHub) (requestId : UInt64) (requestToken : RequestToken)
    (now : UInt64) :
    (hub.status requestId requestToken now).1 = hub.cleanupRegistrationRequests now := by
  rw [status]
  cases (hub.cleanupRegistrationRequests now).requests.lookup requestId with
  | none => rfl
  | some r =>
    dsimp only
    split
    · rfl
    · cases r.decision with
      | pending => rfl
      | approved => rfl
      | rejected => rfl

variable {credential : AppCredential}

/-- What a poll with the right token gets while the result is kept. -/
theorem status_approved {decidedAt : UInt64} (hstored : hub.requests.lookup id = some r)
    (hdecision : r.decision = .approved credential decidedAt)
    (hnow : now < saturatingAdd decidedAt registrationResultTtlSecs) :
    (hub.status id r.requestToken now).2 = .ok (.approved credential r.summary) := by
  have hkept : r.isKept now := by
    rw [RegistrationRequestState.isKept, hdecision]
    exact decide_eq_true hnow
  have hafter : (hub.cleanupRegistrationRequests now).requests.lookup id = some r :=
    AList.lookup_filterEntries_eq_some.mpr ⟨hkept, hstored⟩
  rw [status, hafter]
  simp [hdecision]

/-- A poll that gets a credential finds it stored. -/
theorem status_eq_approved {summary : PendingAppRegistration}
    (h : (hub.status id requestToken now).2 = .ok (.approved credential summary)) :
    ∃ r decidedAt, hub.requests.lookup id = some r ∧
      r.decision = .approved credential decidedAt := by
  rw [status] at h
  cases hstored : (hub.cleanupRegistrationRequests now).requests.lookup id with
  | none =>
    rw [hstored] at h
    cases h
  | some r =>
    rw [hstored] at h
    dsimp only at h
    split at h
    case isTrue => cases h
    case isFalse =>
    cases hdecision : r.decision with
    | pending =>
      rw [hdecision] at h
      cases h
    | approved stored decidedAt =>
      rw [hdecision] at h
      cases h
      exact ⟨r, decidedAt, (AList.lookup_filterEntries_eq_some.mp hstored).2, hdecision⟩
    | rejected =>
      rw [hdecision] at h
      cases h

end AppRegistrationHub

/-- The second step of an approval, in which the lock on the requests is free. -/
def registerApproved (identities : IdentityManager) (summary : PendingAppRegistration)
    (secret : AppSecret) (now : UInt64) (fault : Option String) :
    IdentityManager × Except IdentityError AppCredential :=
  identities.registerAppWithCapabilities summary.appId summary.displayName
    summary.requestedCapabilities.toFinset secret now fault

/-- A registration that is refused, one whose write fails, and one that succeeds. -/
theorem registerApproved_cases (m : IdentityManager) (summary : PendingAppRegistration)
    (secret : AppSecret) (now : UInt64) (fault : Option String) :
    (∃ error, registerApproved m summary secret now fault = (m, .error error)) ∨
      m.app? summary.appId = none ∧ ∃ stored, registerApproved m summary secret now fault =
          (m.putApp summary.appId stored).persistLocked fault ⟨summary.appId, secret, 1⟩ := by
  rw [registerApproved, IdentityManager.registerAppWithCapabilities]
  cases validateDisplayName summary.displayName with
  | error error => exact .inl ⟨error, rfl⟩
  | ok =>
    dsimp only
    split
    case isTrue => exact .inl ⟨_, rfl⟩
    case isFalse hnone => exact .inr ⟨Option.not_isSome_iff_eq_none.mp hnone, _, rfl⟩

end VeilKnit.Api
