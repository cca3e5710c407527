import VeilKnit.Identity.ProofInput

/-!
# Calls of the identity manager

What each call does to the registrations, the pending challenges and the sessions. The write to
the file has no part in this: it changes the file or nothing.
-/

namespace VeilKnit.Identity

open Library Types

/-! ## Parts -/

namespace IdentityManager

variable {m : IdentityManager} {appId other : AppId} {stored : StoredAppIdentity}

@[simp]
theorem persistLocked_inner {α : Type} (m : IdentityManager) (fault : Option String) (value : α) :
    (m.persistLocked fault value).1.inner = m.inner := by
  cases fault with
  | none => rfl
  | some => rfl

theorem app?_congr {m m' : IdentityManager} (h : m'.inner.store.apps = m.inner.store.apps)
    (appId : AppId) : m'.app? appId = m.app? appId := by
  rw [app?, h, app?]

@[simp]
theorem persistLocked_app? {α : Type} (m : IdentityManager) (fault : Option String) (value : α)
    (appId : AppId) : (m.persistLocked fault value).1.app? appId = m.app? appId :=
  app?_congr (by rw [persistLocked_inner]) appId

@[simp]
theorem putApp_app?_self (m : IdentityManager) (appId : AppId) (stored : StoredAppIdentity) :
    (m.putApp appId stored).app? appId = some stored :=
  AList.lookup_insert _

theorem putApp_app?_of_ne (m : IdentityManager) (stored : StoredAppIdentity)
    (h : other ≠ appId) : (m.putApp appId stored).app? other = m.app? other :=
  AList.lookup_insert_ne h

@[simp]
theorem putApp_pendingChallenges (m : IdentityManager) (appId : AppId)
    (stored : StoredAppIdentity) :
    (m.putApp appId stored).inner.pendingChallenges = m.inner.pendingChallenges := rfl

@[simp]
theorem putApp_activeSessions (m : IdentityManager) (appId : AppId) (stored : StoredAppIdentity) :
    (m.putApp appId stored).inner.activeSessions = m.inner.activeSessions := rfl

@[simp]
theorem dropApp_app? (m : IdentityManager) (appId other : AppId) :
    (m.dropApp appId).app? other = m.app? other := rfl

@[simp]
theorem cleanupExpired_app? (m : IdentityManager) (now : UInt64) (appId : AppId) :
    (m.cleanupExpired now).app? appId = m.app? appId := rfl

@[simp]
theorem addChallenge_app? (m : IdentityManager) (challenge : AppAuthChallenge) (appId : AppId) :
    (m.addChallenge challenge).app? appId = m.app? appId := rfl

@[simp]
theorem removeChallenge_app? (m : IdentityManager) (id : UInt64) (appId : AppId) :
    (m.removeChallenge id).app? appId = m.app? appId := rfl

@[simp]
theorem addChallenge_activeSessions (m : IdentityManager) (challenge : AppAuthChallenge) :
    (m.addChallenge challenge).inner.activeSessions = m.inner.activeSessions := rfl

/-! ### Sessions and challenges that remain -/

variable {token : AppSessionToken} {session : ActiveAppSession} {id : UInt64}
  {challenge : AppAuthChallenge} {now : UInt64}

theorem dropApp_session (h : (m.dropApp appId).inner.activeSessions.lookup token = some session) :
    m.inner.activeSessions.lookup token = some session ∧ session.appId ≠ appId := by
  obtain ⟨hkept, hlookup⟩ := AList.lookup_filterEntries_eq_some.mp h
  exact ⟨hlookup, of_decide_eq_true hkept⟩

theorem dropApp_challenge
    (h : (m.dropApp appId).inner.pendingChallenges.lookup id = some challenge) :
    m.inner.pendingChallenges.lookup id = some challenge ∧ challenge.appId ≠ appId := by
  obtain ⟨hkept, hlookup⟩ := AList.lookup_filterEntries_eq_some.mp h
  exact ⟨hlookup, of_decide_eq_true hkept⟩

theorem cleanupExpired_session
    (h : (m.cleanupExpired now).inner.activeSessions.lookup token = some session) :
    m.inner.activeSessions.lookup token = some session ∧ now < session.expiresAt := by
  obtain ⟨hkept, hlookup⟩ := AList.lookup_filterEntries_eq_some.mp h
  exact ⟨hlookup, of_decide_eq_true hkept⟩

theorem cleanupExpired_challenge
    (h : (m.cleanupExpired now).inner.pendingChallenges.lookup id = some challenge) :
    m.inner.pendingChallenges.lookup id = some challenge ∧ now < challenge.expiresAt := by
  obtain ⟨hkept, hlookup⟩ := AList.lookup_filterEntries_eq_some.mp h
  exact ⟨hlookup, of_decide_eq_true hkept⟩

end IdentityManager

/-! ## Calls -/

/-- A call with its arguments, the clock it has read, what the generator of random bytes yields for
it and the error of its write, if that fails. -/
inductive Call (Proof : Type)
  | register (appId : AppId) (displayName : String) (granted : AppCapabilitySet)
      (secret : AppSecret) (now : UInt64) (fault : Option String)
  | rotate (appId : AppId) (secret : AppSecret) (fault : Option String)
  | setEnabled (appId : AppId) (enabled : Bool) (fault : Option String)
  | setCapabilities (appId : AppId) (granted : AppCapabilitySet) (fault : Option String)
  | begin (appId : AppId) (requested : AppCapabilitySet) (now : UInt64) (nonce : Nonce)
      (fault : Option String)
  | finish (response : AppAuthResponse Proof) (now : UInt64) (draws : List AppSessionToken)
      (sessionId : AppSessionId) (fault : Option String)
  | authenticate (token : AppSessionToken) (now : UInt64)
  | revoke (token : AppSessionToken)
  | revokeAll (appId : AppId)
  | restart

inductive Outcome
  | refused (error : IdentityError)
  | credential (credential : AppCredential)
  | done
  | challenge (challenge : AppAuthChallenge)
  | session (session : AuthenticatedAppSession)
  | revoked (removed : Bool)
  | revokedAll (count : Nat)
  deriving DecidableEq

/-- The outcome of a call that may fail. -/
def Outcome.of {α : Type} (f : α → Outcome) :
    IdentityManager × Except IdentityError α → IdentityManager × Outcome
  | (m, .ok value) => (m, f value)
  | (m, .error error) => (m, .refused error)

section Manager

variable {Proof : Type} [DecidableEq Proof] (hmac : AppSecret → Bytes → Proof)

/-- A call that returns. A process that cannot read its store does not start. -/
def IdentityManager.exec (m : IdentityManager) :
    Call Proof → Option (IdentityManager × Outcome)
  | .register appId displayName granted secret now fault =>
    some (Outcome.of .credential
      (m.registerAppWithCapabilities appId displayName granted secret now fault))
  | .rotate appId secret fault =>
    some (Outcome.of .credential (m.rotateAppCredential appId secret fault))
  | .setEnabled appId enabled fault =>
    some (Outcome.of (fun _ => .done) (m.setAppEnabled appId enabled fault))
  | .setCapabilities appId granted fault =>
    some (Outcome.of (fun _ => .done) (m.setAppCapabilities appId granted fault))
  | .begin appId requested now nonce fault =>
    some (Outcome.of .challenge (m.beginAppAuthWithCapabilities appId requested now nonce fault))
  | .finish response now draws sessionId fault =>
    (m.finishAppAuth hmac response now draws sessionId fault).map (Outcome.of .session)
  | .authenticate token now => some (Outcome.of .session (m.authenticateSession token now))
  | .revoke token =>
    let (m, removed) := m.revokeSession token
    some (m, .revoked removed)
  | .revokeAll appId =>
    let (m, count) := m.revokeAllAppSessions appId
    some (m, .revokedAll count)
  | .restart =>
    match IdentityManager.load m.disk with
    | .ok m => some (m, .done)
    | .error _ => none

end Manager

@[simp]
theorem Outcome.of_fst {α : Type} (f : α → Outcome)
    (p : IdentityManager × Except IdentityError α) : (Outcome.of f p).1 = p.1 := by
  obtain ⟨m, result⟩ := p
  cases result with
  | ok => rfl
  | error => rfl

/-! ## Rights of an application -/

/-- What a session of the application rests on. -/
def StoredAppIdentity.rights (stored : StoredAppIdentity) :
    AppSecret × Bool × UInt64 × AppCapabilitySet :=
  (stored.secret, stored.registration.enabled, stored.registration.credentialGeneration,
    stored.registration.grantedCapabilities)

/-- The call takes all challenges and sessions of the application away. -/
def Call.Withdraws {Proof : Type} (appId : AppId) : Call Proof → Prop
  | .rotate other _ _ => other = appId
  | .setEnabled other enabled _ => other = appId ∧ enabled = false
  | .setCapabilities other _ _ => other = appId
  | .restart => True
  | _ => False

/-- The call ends the session. Calls that look for expired sessions end it from its time on. -/
def Call.Ends {Proof : Type} (token : AppSessionToken) (session : ActiveAppSession)
    (call : Call Proof) : Prop :=
  call.Withdraws session.appId ∨
    match call with
    | .begin _ _ now _ _ => session.expiresAt ≤ now
    | .finish _ now _ _ _ => session.expiresAt ≤ now
    | .authenticate _ now => session.expiresAt ≤ now
    | .revoke other => other = token
    | .revokeAll appId => appId = session.appId
    | _ => False

def Call.IsAdministration {Proof : Type} : Call Proof → Prop
  | .register .. | .rotate .. | .setEnabled .. | .setCapabilities .. => True
  | _ => False

/-- The call answers, rightly or wrongly, the challenge with the number. -/
def Call.Answers {Proof : Type} (id : UInt64) : Call Proof → Prop
  | .finish response _ _ _ _ => response.challengeId = id
  | _ => False

/-- The time for which a call looks for what has expired. -/
def Call.now? {Proof : Type} : Call Proof → Option UInt64
  | .begin _ _ now _ _ => some now
  | .finish _ now _ _ _ => some now
  | .authenticate _ now => some now
  | _ => none

section Manager

variable {Proof : Type} [DecidableEq Proof] {hmac : AppSecret → Bytes → Proof}
  {m m' : IdentityManager} {call : Call Proof} {outcome : Outcome} {appId : AppId}
  {stored : StoredAppIdentity} {token : AppSessionToken} {session : ActiveAppSession}
  {id : UInt64} {challenge : AppAuthChallenge}

section

omit [DecidableEq Proof]

theorem Call.IsAdministration.withdraws (hadmin : call.IsAdministration)
    (hends : call.Ends token session) : call.Withdraws session.appId := by
  cases call with
  | register | rotate | setEnabled | setCapabilities => exact hends.resolve_right not_false
  | begin | finish | authenticate | revoke | revokeAll | restart => exact hadmin.elim

theorem Call.not_ends_iff {now : UInt64} (hclock : call.now? = some now) :
    ¬ call.Ends token session ↔ now < session.expiresAt := by
  cases call with
  | begin | finish | authenticate =>
    cases hclock
    simp [Ends, Withdraws]
  | _ => cases hclock

theorem Call.IsAdministration.not_answers (hadmin : call.IsAdministration) : ¬ call.Answers id := by
  cases call with
  | finish => exact hadmin.elim
  | _ => exact not_false

end

namespace IdentityManager

/-! ### Administration -/

theorem register_inner (m : IdentityManager) (appId : AppId) (displayName : String)
    (granted : AppCapabilitySet) (secret : AppSecret) (now : UInt64) (fault : Option String) :
    (m.registerAppWithCapabilities appId displayName granted secret now fault).1.inner = m.inner ∨
      m.app? appId = none ∧ ∃ stored,
        (m.registerAppWithCapabilities appId displayName granted secret now fault).1.inner =
          (m.putApp appId stored).inner := by
  simp only [registerAppWithCapabilities]
  split
  case h_1 => exact .inl rfl
  case h_2 =>
    split
    case isTrue => exact .inl rfl
    case isFalse hnone =>
      refine .inr ⟨Option.not_isSome_iff_eq_none.mp hnone, ?_⟩
      exact ⟨_, persistLocked_inner _ _ _⟩

/-- The record of an application has changed, and its challenges and sessions are gone. Nothing
has changed if the application is unknown. -/
def Withdrawn (m m' : IdentityManager) (appId : AppId) : Prop :=
  (m.app? appId = none ∧ m'.inner = m.inner) ∨
    ∃ stored, m'.inner = ((m.putApp appId stored).dropApp appId).inner

theorem rotate_withdrawn (m : IdentityManager) (appId : AppId) (secret : AppSecret)
    (fault : Option String) : Withdrawn m (m.rotateAppCredential appId secret fault).1 appId := by
  rw [rotateAppCredential]
  cases happ : m.app? appId with
  | none => exact .inl ⟨happ, rfl⟩
  | some stored => exact .inr ⟨_, persistLocked_inner _ _ _⟩

theorem setAppEnabled_withdrawn (m : IdentityManager) (appId : AppId) (fault : Option String) :
    Withdrawn m (m.setAppEnabled appId false fault).1 appId := by
  rw [setAppEnabled]
  cases happ : m.app? appId with
  | none => exact .inl ⟨happ, rfl⟩
  | some stored => exact .inr ⟨_, persistLocked_inner _ _ _⟩

theorem setAppCapabilities_withdrawn (m : IdentityManager) (appId : AppId)
    (granted : AppCapabilitySet) (fault : Option String) :
    Withdrawn m (m.setAppCapabilities appId granted fault).1 appId := by
  rw [setAppCapabilities]
  cases happ : m.app? appId with
  | none => exact .inl ⟨happ, rfl⟩
  | some stored => exact .inr ⟨_, persistLocked_inner _ _ _⟩

theorem Withdrawn.app? (h : Withdrawn m m' appId) {other : AppId} (hne : other ≠ appId) :
    m'.app? other = m.app? other := by
  obtain ⟨-, hinner⟩ | ⟨stored, hinner⟩ := h
  · exact app?_congr (by rw [hinner]) other
  · rw [app?_congr (m := (m.putApp appId stored).dropApp appId) (by rw [hinner]) other,
      dropApp_app?, putApp_app?_of_ne m stored hne]

theorem Withdrawn.session_kept (h : Withdrawn m m' appId)
    (hlookup : m'.inner.activeSessions.lookup token = some session)
    (hregistered : m.inner.activeSessions.lookup token = some session →
      ∃ stored, m.app? session.appId = some stored) :
    m.inner.activeSessions.lookup token = some session ∧ appId ≠ session.appId := by
  obtain ⟨hnone, hinner⟩ | ⟨stored, hinner⟩ := h
  · rw [hinner] at hlookup
    refine ⟨hlookup, ?_⟩
    rintro rfl
    obtain ⟨stored, hsome⟩ := hregistered hlookup
    rw [hnone] at hsome
    cases hsome
  · rw [hinner] at hlookup
    obtain ⟨hkept, hne⟩ := dropApp_session hlookup
    exact ⟨hkept, hne.symm⟩

theorem Withdrawn.challenge_kept (h : Withdrawn m m' appId)
    (hlookup : m'.inner.pendingChallenges.lookup id = some challenge)
    (hregistered : m.inner.pendingChallenges.lookup id = some challenge →
      ∃ stored, m.app? challenge.appId = some stored) :
    m.inner.pendingChallenges.lookup id = some challenge ∧ appId ≠ challenge.appId := by
  obtain ⟨hnone, hinner⟩ | ⟨stored, hinner⟩ := h
  · rw [hinner] at hlookup
    refine ⟨hlookup, ?_⟩
    rintro rfl
    obtain ⟨stored, hsome⟩ := hregistered hlookup
    rw [hnone] at hsome
    cases hsome
  · rw [hinner] at hlookup
    obtain ⟨hkept, hne⟩ := dropApp_challenge hlookup
    exact ⟨hkept, hne.symm⟩

/-- Enabling an application changes no more than its record. -/
theorem setAppEnabled_true (m : IdentityManager) (appId : AppId) (fault : Option String) :
    (m.setAppEnabled appId true fault).1.inner = m.inner ∨ ∃ stored, m.app? appId = some stored ∧
        (m.setAppEnabled appId true fault).1.inner =
          (m.putApp appId (stored.setEnabled true)).inner := by
  rw [setAppEnabled]
  cases happ : m.app? appId with
  | none => exact .inl rfl
  | some stored => exact .inr ⟨stored, rfl, persistLocked_inner _ _ _⟩

/-! ### Authentication -/

theorem checkRequest_eq_ok {requested : AppCapabilitySet} {generation : UInt64}
    (h : m.checkRequest appId requested = .ok generation) :
    ∃ stored, m.app? appId = some stored ∧ stored.registration.enabled ∧
      stored.registration.credentialGeneration = generation ∧
      requested ⊆ stored.registration.grantedCapabilities := by
  rw [checkRequest] at h
  cases hstored : m.app? appId with
  | none =>
    rw [hstored] at h
    cases h
  | some stored =>
    simp only [hstored] at h
    split at h
    case isTrue => cases h
    case isFalse henabled =>
    split at h
    case isTrue => cases h
    case isFalse hsubset =>
      refine ⟨stored, rfl, ?_, Except.ok.inj h, ?_⟩
      · simpa using henabled
      · simpa using hsubset

variable {result : Except IdentityError AuthenticatedAppSession} {now : UInt64}
  {draws : List AppSessionToken} {sessionId : AppSessionId}

omit [DecidableEq Proof] in
theorem openSession_cases
    (h : m.openSession appId challenge now draws sessionId = some (m', result)) :
    (m' = m ∧ result = .error .tooManyActiveSessions) ∨
      ∃ token, (m.inner.activeSessions.lookup token).isNone ∧
        ∃ session : ActiveAppSession, session =
            { appId := appId
              sessionId := sessionId
              authenticatedAt := now
              expiresAt := saturatingAdd now sessionTtlSecs
              credentialGeneration := challenge.credentialGeneration
              capabilities := challenge.requestedCapabilities } ∧
          m' = m.putSession token session ∧
          result = .ok { session with sessionToken := token } := by
  rw [openSession] at h
  split at h
  case isTrue =>
    cases h
    exact .inl ⟨rfl, rfl⟩
  case isFalse =>
    obtain ⟨token, hdraw, hopened⟩ := Option.map_eq_some_iff.mp h
    cases hopened
    have hfresh : (m.inner.activeSessions.lookup token).isNone := by
      simpa using List.find?_some hdraw
    exact .inr ⟨token, hfresh, _, rfl, rfl, rfl⟩

variable {response : AppAuthResponse Proof}

theorem checkResponse_eq_ok (h : m.checkResponse hmac challenge response now = .ok stored) :
    challenge.appId = response.appId ∧ m.app? response.appId = some stored ∧
      stored.registration.enabled ∧
      stored.registration.credentialGeneration = challenge.credentialGeneration ∧
      computeAppProof hmac stored.secret challenge = response.proof := by
  rw [checkResponse] at h
  split at h
  case isTrue => cases h
  case isFalse =>
  split at h
  case isTrue => cases h
  case isFalse hid =>
  cases hstored : m.app? response.appId with
  | none =>
    rw [hstored] at h
    cases h
  | some found =>
    simp only [hstored] at h
    split at h
    case isTrue => cases h
    case isFalse henabled =>
    split at h
    case isTrue => cases h
    case isFalse hgeneration =>
    split at h
    case isTrue => cases h
    case isFalse hproof =>
      cases h
      exact ⟨not_not.mp hid, rfl, by simpa using henabled, not_not.mp hgeneration,
        not_not.mp hproof⟩

theorem load_eq_ok {disk : Option IdentityStore} (h : load disk = .ok m) :
    m.inner.pendingChallenges = ∅ ∧ m.inner.activeSessions = ∅ := by
  simp only [load] at h
  split at h
  case isTrue => cases h
  case isFalse =>
    cases h
    exact ⟨rfl, rfl⟩

theorem exec_restart (h : m.exec hmac .restart = some (m', outcome)) : load m.disk = .ok m' := by
  simp only [exec] at h
  split at h
  case h_1 started hload =>
    cases h
    exact hload
  case h_2 => cases h

theorem authenticate_fst (m : IdentityManager) (token : AppSessionToken) (now : UInt64) :
    (m.authenticateSession token now).1 = m.cleanupExpired now := by
  simp only [authenticateSession]
  split
  case h_1 => rfl
  case h_2 =>
    split
    case isTrue => rfl
    case isFalse => rfl

theorem authenticate_eq_ok {authenticated : AuthenticatedAppSession}
    (h : (m.authenticateSession token now).2 = .ok authenticated) :
    m.inner.activeSessions.lookup token = some authenticated.toActiveAppSession ∧
      authenticated.sessionToken = token ∧ now < authenticated.expiresAt := by
  simp only [authenticateSession] at h
  split at h
  case h_1 => cases h
  case h_2 session hlookup =>
    split at h
    case isTrue => cases h
    case isFalse hexpires =>
      cases h
      exact ⟨(cleanupExpired_session hlookup).1, rfl, UInt64.not_le.mp hexpires⟩

/-- Recording the use of an application leaves every application's rights. -/
theorem putApp_used_rights (h : m.app? appId = some stored) (now : UInt64) (other : AppId) :
    ((m.putApp appId (stored.used now)).app? other).map StoredAppIdentity.rights =
      (m.app? other).map StoredAppIdentity.rights := by
  by_cases hother : other = appId
  · subst hother
    rw [putApp_app?_self, h]
    rfl
  · rw [putApp_app?_of_ne m _ hother]

/-- A session for an answered challenge, and the call that has opened it. -/
structure Opened (hmac : AppSecret → Bytes → Proof) (m : IdentityManager)
    (response : AppAuthResponse Proof) (now : UInt64) (sessionId : AppSessionId)
    (challenge : AppAuthChallenge) (stored : StoredAppIdentity) (token : AppSessionToken)
    (session : ActiveAppSession) : Prop where
  pending : m.inner.pendingChallenges.lookup response.challengeId = some challenge
  fresh : (m.inner.activeSessions.lookup token).isNone
  registered : m.app? session.appId = some stored
  sameApp : challenge.appId = session.appId
  enabled : stored.registration.enabled
  generation : stored.registration.credentialGeneration = challenge.credentialGeneration
  proof : response.proof = computeAppProof hmac stored.secret challenge
  fields : session =
    { appId := response.appId
      sessionId := sessionId
      authenticatedAt := now
      expiresAt := saturatingAdd now sessionTtlSecs
      credentialGeneration := challenge.credentialGeneration
      capabilities := challenge.requestedCapabilities }

/-- What finishing an authentication does to the sessions. -/
inductive Finished (hmac : AppSecret → Bytes → Proof) (m : IdentityManager)
    (response : AppAuthResponse Proof) (now : UInt64) (sessionId : AppSessionId)
    (fault : Option String) (m' : IdentityManager) :
    Except IdentityError AuthenticatedAppSession → Prop
  | refused (error : IdentityError) (h : m'.inner.activeSessions = m.inner.activeSessions) :
      Finished hmac m response now sessionId fault m' (.error error)
  | opened (challenge : AppAuthChallenge) (stored : StoredAppIdentity) (token : AppSessionToken)
      (session : ActiveAppSession)
      (opened : Opened hmac m response now sessionId challenge stored token session)
      (written : fault = none)
      (h : m'.inner.activeSessions = m.inner.activeSessions.insert token session) :
      Finished hmac m response now sessionId fault m' (.ok { session with sessionToken := token })

theorem finish_cases {fault : Option String}
    (h : m.finishAppAuth hmac response now draws sessionId fault = some (m', result)) :
    m'.inner.pendingChallenges =
        (m.cleanupExpired now).inner.pendingChallenges.erase response.challengeId ∧
      (∀ other, (m'.app? other).map StoredAppIdentity.rights =
        (m.app? other).map StoredAppIdentity.rights) ∧
      Finished hmac (m.cleanupExpired now) response now sessionId fault m' result := by
  have happs : ∀ other, m.app? other = (m.cleanupExpired now).app? other := fun _ => rfl
  simp only [finishAppAuth] at h
  simp only [happs]
  generalize m.cleanupExpired now = cleaned at h ⊢
  split at h
  case h_1 hnone =>
    cases h
    exact ⟨(AList.erase_of_lookup hnone).symm, fun _ => rfl, .refused _ rfl⟩
  case h_2 challenge hpending =>
  split at h
  case h_1 =>
    cases h
    exact ⟨rfl, fun _ => rfl, .refused _ rfl⟩
  case h_2 stored hchecked =>
  obtain ⟨hid, hstored, henabled, hgeneration, hproof⟩ := checkResponse_eq_ok hchecked
  have hrights := putApp_used_rights hstored now
  cases fault with
  | some message =>
    cases h
    exact ⟨rfl, hrights, .refused _ rfl⟩
  | none =>
    obtain ⟨rfl, rfl⟩ | ⟨token, hfresh, session, hsession, rfl, rfl⟩ :=
      openSession_cases h
    · exact ⟨rfl, hrights, .refused _ rfl⟩
    have happ : session.appId = response.appId := by rw [hsession]
    refine ⟨rfl, hrights, .opened challenge stored token session ?_ rfl rfl⟩
    exact
      { pending := hpending
        fresh := hfresh
        registered := happ ▸ hstored
        sameApp := hid.trans happ.symm
        enabled := henabled
        generation := hgeneration
        proof := hproof.symm
        fields := hsession }

/-! ### Any call -/

/-- What a call does. A challenge whose number cannot be written is pending all the same. -/
inductive Performed (hmac : AppSecret → Bytes → Proof) (m : IdentityManager) :
    Call Proof → IdentityManager → Outcome → Prop
  | administration {call : Call Proof} {m' : IdentityManager} {outcome : Outcome}
      (admin : call.IsAdministration) : Performed hmac m call m' outcome
  | swept {call : Call Proof} {now : UInt64} {outcome : Outcome} (clock : call.now? = some now)
      (quiet : ∀ id appId, ¬ call.Withdraws appId ∧ ¬ call.Answers id) :
      Performed hmac m call (m.cleanupExpired now) outcome
  | issued {challenge : AppAuthChallenge} {fault : Option String} {outcome : Outcome}
      (checked : m.checkRequest challenge.appId challenge.requestedCapabilities =
        .ok challenge.credentialGeneration)
      (told : outcome = .challenge challenge ∨
        ∃ message, fault = some message ∧ outcome = .refused (.persistence message)) :
      Performed hmac m
        (.begin challenge.appId challenge.requestedCapabilities challenge.issuedAt challenge.nonce
          fault)
        (((m.cleanupExpired challenge.issuedAt).addChallenge challenge).persistLocked fault
          challenge).1 outcome
  | finished {response : AppAuthResponse Proof} {now : UInt64} {draws : List AppSessionToken}
      {sessionId : AppSessionId} {fault : Option String} {m' : IdentityManager}
      {result : Except IdentityError AuthenticatedAppSession}
      (returned : m.finishAppAuth hmac response now draws sessionId fault = some (m', result)) :
      Performed hmac m (.finish response now draws sessionId fault) m'
        (Outcome.of .session (m', result)).2
  | revoked {token : AppSessionToken} {outcome : Outcome} :
      Performed hmac m (.revoke token) (m.revokeSession token).1 outcome
  | revokedAll {appId : AppId} {outcome : Outcome} :
      Performed hmac m (.revokeAll appId) (m.revokeAllAppSessions appId).1 outcome
  | restarted {m' : IdentityManager} {outcome : Outcome} (loaded : load m.disk = .ok m') :
      Performed hmac m .restart m' outcome

theorem performed_of_exec (h : m.exec hmac call = some (m', outcome)) :
    Performed hmac m call m' outcome := by
  cases call with
  | register | rotate | setEnabled | setCapabilities => exact .administration trivial
  | begin appId requested now nonce fault =>
    have hquiet : ∀ id other,
        ¬ Call.Withdraws other (.begin appId requested now nonce fault : Call Proof) ∧
          ¬ Call.Answers id (.begin appId requested now nonce fault : Call Proof) :=
      fun _ _ => ⟨not_false, not_false⟩
    simp only [exec, beginAppAuthWithCapabilities] at h
    split at h
    case isTrue =>
      cases h
      exact .swept rfl hquiet
    case isFalse =>
    split at h
    case h_1 =>
      cases h
      exact .swept rfl hquiet
    case h_2 generation hgeneration =>
      have hissued := @Performed.issued Proof _ hmac m ⟨appId, m.inner.store.nextChallengeId, nonce,
        now, saturatingAdd now challengeTtlSecs, generation, requested⟩ fault
      cases fault with
      | none =>
        cases h
        exact hissued hgeneration (.inl rfl)
      | some message =>
        cases h
        exact hissued hgeneration (.inr ⟨message, rfl, rfl⟩)
  | finish response now draws sessionId fault =>
    obtain ⟨⟨after, result⟩, hfinish, hresult⟩ := Option.map_eq_some_iff.mp h
    obtain rfl : after = m' := by simpa using congrArg Prod.fst hresult
    obtain rfl : _ = outcome := congrArg Prod.snd hresult
    exact .finished hfinish
  | authenticate token now =>
    obtain rfl : _ = m' := by simpa using congrArg Prod.fst (Option.some.inj h)
    rw [authenticate_fst]
    exact .swept rfl fun _ _ => ⟨not_false, not_false⟩
  | revoke token =>
    cases h
    exact .revoked
  | revokeAll appId =>
    cases h
    exact .revokedAll
  | restart => exact .restarted (exec_restart h)

theorem Performed.rights (h : Performed hmac m call m' outcome) (hadmin : ¬ call.IsAdministration)
    (hrestart : call ≠ .restart) (appId : AppId) :
    (m'.app? appId).map StoredAppIdentity.rights = (m.app? appId).map StoredAppIdentity.rights := by
  cases h with
  | administration h => exact absurd h hadmin
  | swept | revoked | revokedAll => rfl
  | issued => rw [persistLocked_app?, addChallenge_app?, cleanupExpired_app?]
  | finished hfinish => exact (finish_cases hfinish).2.1 appId
  | restarted => exact absurd rfl hrestart

/-- A call of the administration leaves the challenges, the sessions and the rights of all
applications, or it withdraws those of one. -/
theorem administration_cases (h : m.exec hmac call = some (m', outcome))
    (hadmin : call.IsAdministration) :
    (m'.inner.pendingChallenges = m.inner.pendingChallenges ∧
        m'.inner.activeSessions = m.inner.activeSessions ∧
        (∀ appId stored, m.app? appId = some stored → stored.registration.enabled →
          ∃ stored', m'.app? appId = some stored' ∧ stored'.rights = stored.rights) ∧
        ∀ appId, ¬ call.Withdraws appId) ∨
      ∃ other, Withdrawn m m' other ∧ ∀ appId, call.Withdraws appId ↔ other = appId := by
  cases call with
  | register other displayName granted secret now fault =>
    obtain rfl : _ = m' := by simpa using congrArg Prod.fst (Option.some.inj h)
    obtain hinner | ⟨hnone, new, hinner⟩ :=
      register_inner m other displayName granted secret now fault
    · refine .inl ⟨by rw [hinner], by rw [hinner], fun appId stored happ _ => ?_, fun _ => id⟩
      exact ⟨stored, (app?_congr (by rw [hinner]) appId).trans happ, rfl⟩
    · refine .inl ⟨by rw [hinner, putApp_pendingChallenges],
        by rw [hinner, putApp_activeSessions], fun appId stored happ _ => ?_, fun _ => id⟩
      have hne : appId ≠ other := by
        rintro rfl
        rw [happ] at hnone
        cases hnone
      have hafter := (app?_congr (by rw [hinner]) appId).trans (putApp_app?_of_ne m new hne)
      exact ⟨stored, hafter.trans happ, rfl⟩
  | rotate other secret fault =>
    obtain rfl : _ = m' := by simpa using congrArg Prod.fst (Option.some.inj h)
    exact .inr ⟨other, rotate_withdrawn m other secret fault, fun _ => Iff.rfl⟩
  | setEnabled other enabled fault =>
    obtain rfl : _ = m' := by simpa using congrArg Prod.fst (Option.some.inj h)
    cases enabled with
    | false =>
      exact .inr ⟨other, setAppEnabled_withdrawn m other fault, fun _ => and_iff_left rfl⟩
    | true =>
      have hquiet : ∀ appId, ¬ Call.Withdraws appId (.setEnabled other true fault : Call Proof) :=
        fun _ hwithdraws => absurd hwithdraws.2 (by decide)
      obtain hinner | ⟨found, hfound, hinner⟩ := setAppEnabled_true m other fault
      · refine .inl ⟨by rw [hinner], by rw [hinner], fun appId stored happ _ => ?_, hquiet⟩
        exact ⟨stored, (app?_congr (by rw [hinner]) appId).trans happ, rfl⟩
      refine .inl ⟨by rw [hinner, putApp_pendingChallenges],
        by rw [hinner, putApp_activeSessions], fun appId stored happ henabled => ?_, hquiet⟩
      have hafter := app?_congr (m := m.putApp other (found.setEnabled true)) (by rw [hinner]) appId
      by_cases hother : appId = other
      · subst hother
        cases hfound.symm.trans happ
        refine ⟨_, hafter.trans (putApp_app?_self _ _ _), ?_⟩
        simp [StoredAppIdentity.rights, StoredAppIdentity.setEnabled, henabled]
      · exact ⟨stored, (hafter.trans (putApp_app?_of_ne m _ hother)).trans happ, rfl⟩
  | setCapabilities other granted fault =>
    obtain rfl : _ = m' := by simpa using congrArg Prod.fst (Option.some.inj h)
    exact .inr ⟨other, setAppCapabilities_withdrawn m other granted fault, fun _ => Iff.rfl⟩
  | begin | finish | authenticate | revoke | revokeAll | restart => exact hadmin.elim

/-- Applications keep their rights under calls that do not withdraw them. -/
theorem exec_app? (h : m.exec hmac call = some (m', outcome)) (hkept : ¬ call.Withdraws appId)
    (happ : m.app? appId = some stored) (henabled : stored.registration.enabled) :
    ∃ stored', m'.app? appId = some stored' ∧ stored'.rights = stored.rights := by
  by_cases hadmin : call.IsAdministration
  · obtain ⟨-, -, hrights, -⟩ | ⟨other, hwithdrawn, hiff⟩ := administration_cases h hadmin
    · exact hrights appId stored happ henabled
    · have hne : appId ≠ other := fun heq => hkept ((hiff appId).mpr heq.symm)
      exact ⟨stored, (hwithdrawn.app? hne).trans happ, rfl⟩
  have hrestart : call ≠ .restart := by
    rintro rfl
    exact hkept trivial
  have hmap := (performed_of_exec h).rights hadmin hrestart appId
  rw [happ] at hmap
  exact Option.map_eq_some_iff.mp hmap

end IdentityManager

end Manager

end VeilKnit.Identity
