import VeilKnit.Identity.Calls

/-!
# Sessions are earned

A session stands for one finished authentication: a challenge issued by the manager, answered with
the secret that the application still has, and never answered before. Since then no call has
taken the session, or the rights it rests on, away.

A run keeps its calls and their outcomes, the last one first.
-/

namespace VeilKnit.Identity

open Library Types IdentityManager

section Manager

variable {Proof : Type} [DecidableEq Proof] {hmac : AppSecret → Bytes → Proof}
  {m m' : IdentityManager} {call : Call Proof} {outcome : Outcome} {appId : AppId}
  {stored : StoredAppIdentity} {token : AppSessionToken} {session : ActiveAppSession}
  {id : UInt64} {challenge : AppAuthChallenge}

/-! ## One call -/

/-- The call has issued the challenge. A challenge whose number cannot be written is pending
although its caller gets an error. -/
def Issues (challenge : AppAuthChallenge) (call : Call Proof) (outcome : Outcome) : Prop :=
  ∃ fault, call = .begin challenge.appId challenge.requestedCapabilities challenge.issuedAt
      challenge.nonce fault ∧
    (outcome = .challenge challenge ∨
      ∃ message, fault = some message ∧ outcome = .refused (.persistence message))

/-- A session after a call was there before it, and the call does not end it, or the call has
opened it. -/
theorem exec_session (h : m.exec hmac call = some (m', outcome))
    (hlookup : m'.inner.activeSessions.lookup token = some session)
    (hregistered : m.inner.activeSessions.lookup token = some session →
      ∃ stored, m.app? session.appId = some stored) :
    (m.inner.activeSessions.lookup token = some session ∧ ¬ call.Ends token session) ∨
      ∃ response draws challenge stored,
        call = .finish response session.authenticatedAt draws session.sessionId none ∧
        outcome = .session { session with sessionToken := token } ∧
        Opened hmac (m.cleanupExpired session.authenticatedAt) response session.authenticatedAt
          session.sessionId challenge stored token session := by
  cases performed_of_exec h with
  | administration hadmin =>
    obtain ⟨-, hsessions, -, hquiet⟩ | ⟨other, hwithdrawn, hiff⟩ := administration_cases h hadmin
    · exact .inl ⟨hsessions ▸ hlookup, fun hends => hquiet _ (hadmin.withdraws hends)⟩
    · obtain ⟨hkept, hne⟩ := hwithdrawn.session_kept hlookup hregistered
      exact .inl ⟨hkept, fun hends => hne ((hiff _).mp (hadmin.withdraws hends))⟩
  | swept hclock =>
    exact .inl ((cleanupExpired_session hlookup).imp_right (Call.not_ends_iff hclock).mpr)
  | issued =>
    rw [persistLocked_inner, addChallenge_activeSessions] at hlookup
    exact .inl ((cleanupExpired_session hlookup).imp_right (Call.not_ends_iff rfl).mpr)
  | @finished response now draws sessionId fault _ _ hfinish =>
    obtain ⟨-, -, hfinished⟩ := finish_cases hfinish
    have hkept : (m.cleanupExpired now).inner.activeSessions.lookup token = some session →
        m.inner.activeSessions.lookup token = some session ∧
          ¬ Call.Ends token session (.finish response now draws sessionId fault) :=
      fun hcleaned => (cleanupExpired_session hcleaned).imp_right (Call.not_ends_iff rfl).mpr
    cases hfinished with
    | refused error hsessions => exact .inl (hkept (hsessions ▸ hlookup))
    | opened challenge stored other opened hopened hwritten hsessions =>
      rw [hsessions] at hlookup
      by_cases htoken : token = other
      · subst htoken
        obtain rfl := Option.some.inj ((AList.lookup_insert _).symm.trans hlookup)
        have hfields := hopened.fields
        have hnow : opened.authenticatedAt = now := by rw [hfields]
        have hid : opened.sessionId = sessionId := by rw [hfields]
        subst hwritten
        refine .inr ⟨response, draws, challenge, stored, ?_, rfl, ?_⟩
        · rw [hnow, hid]
        · rw [hnow, hid]
          exact hopened
      · exact .inl (hkept ((AList.lookup_insert_ne htoken).symm.trans hlookup))
  | @revoked other =>
    obtain ⟨hne, hbefore⟩ := AList.of_lookup_erase hlookup
    refine .inl ⟨hbefore, ?_⟩
    rintro (hends | hends)
    · exact hends
    · exact hne hends.symm
  | revokedAll =>
    obtain ⟨hkept, hbefore⟩ := AList.lookup_filterEntries_eq_some.mp hlookup
    refine .inl ⟨hbefore, ?_⟩
    rintro (hends | hends)
    · exact hends
    · exact of_decide_eq_true hkept hends.symm
  | restarted hload =>
    rw [(load_eq_ok hload).2] at hlookup
    cases hlookup

/-- A challenge pending after a call was pending before it, and the call neither answers nor
withdraws it, or the call has issued it. -/
theorem exec_challenge (h : m.exec hmac call = some (m', outcome))
    (hlookup : m'.inner.pendingChallenges.lookup id = some challenge)
    (hregistered : m.inner.pendingChallenges.lookup id = some challenge →
      ∃ stored, m.app? challenge.appId = some stored) :
    (m.inner.pendingChallenges.lookup id = some challenge ∧ ¬ call.Withdraws challenge.appId ∧
        ¬ call.Answers id) ∨
      Issues challenge call outcome ∧ challenge.challengeId = id ∧
        m.checkRequest challenge.appId challenge.requestedCapabilities =
          .ok challenge.credentialGeneration := by
  cases performed_of_exec h with
  | administration hadmin =>
    obtain ⟨hpending, -, -, hquiet⟩ | ⟨other, hwithdrawn, hiff⟩ := administration_cases h hadmin
    · exact .inl ⟨hpending ▸ hlookup, hquiet _, hadmin.not_answers⟩
    · obtain ⟨hkept, hne⟩ := hwithdrawn.challenge_kept hlookup hregistered
      exact .inl ⟨hkept, fun hwithdraws => hne ((hiff _).mp hwithdraws), hadmin.not_answers⟩
  | swept _ hquiet => exact .inl ⟨(cleanupExpired_challenge hlookup).1, hquiet _ _⟩
  | @issued issued fault _ hchecked htold =>
    rw [persistLocked_inner] at hlookup
    by_cases hid : id = issued.challengeId
    · subst hid
      obtain rfl := Option.some.inj ((AList.lookup_insert _).symm.trans hlookup)
      exact .inr ⟨⟨fault, rfl, htold⟩, rfl, hchecked⟩
    · have hcleaned := (AList.lookup_insert_ne hid).symm.trans hlookup
      exact .inl ⟨(cleanupExpired_challenge hcleaned).1, not_false, not_false⟩
  | @finished response _ _ _ _ _ _ hfinish =>
    obtain ⟨hpending, -, -⟩ := finish_cases hfinish
    rw [hpending] at hlookup
    obtain ⟨hne, hcleaned⟩ := AList.of_lookup_erase hlookup
    exact .inl ⟨(cleanupExpired_challenge hcleaned).1, not_false, hne.symm⟩
  | revoked | revokedAll => exact .inl ⟨hlookup, not_false, not_false⟩
  | restarted hload =>
    rw [(load_eq_ok hload).1] at hlookup
    cases hlookup

omit [DecidableEq Proof] in
theorem lookup_cleanupExpired_of_lt {now : UInt64}
    (hlookup : m.inner.activeSessions.lookup token = some session) (hnow : now < session.expiresAt) :
    (m.cleanupExpired now).inner.activeSessions.lookup token = some session :=
  AList.lookup_filterEntries_eq_some.mpr ⟨decide_eq_true hnow, hlookup⟩

omit [DecidableEq Proof] in
theorem IdentityManager.Withdrawn.keeps_session (h : Withdrawn m m' appId)
    (hlookup : m.inner.activeSessions.lookup token = some session) (hne : session.appId ≠ appId) :
    m'.inner.activeSessions.lookup token = some session := by
  obtain ⟨-, hinner⟩ | ⟨stored, hinner⟩ := h
  · rwa [hinner]
  · rw [hinner]
    exact AList.lookup_filterEntries_eq_some.mpr ⟨decide_eq_true hne, hlookup⟩

/-- A session stays until a call ends it. -/
theorem exec_keeps_session (h : m.exec hmac call = some (m', outcome))
    (hlookup : m.inner.activeSessions.lookup token = some session)
    (hends : ¬ call.Ends token session) :
    m'.inner.activeSessions.lookup token = some session := by
  have hcleaned : ∀ now, call.now? = some now →
      (m.cleanupExpired now).inner.activeSessions.lookup token = some session :=
    fun _ hclock => lookup_cleanupExpired_of_lt hlookup ((Call.not_ends_iff hclock).mp hends)
  cases performed_of_exec h with
  | administration hadmin =>
    obtain ⟨-, hsessions, -, -⟩ | ⟨other, hwithdrawn, hiff⟩ := administration_cases h hadmin
    · rwa [hsessions]
    · exact hwithdrawn.keeps_session hlookup fun heq => hends (.inl ((hiff _).mpr heq.symm))
  | swept hclock => exact hcleaned _ hclock
  | issued =>
    rw [persistLocked_inner, addChallenge_activeSessions]
    exact hcleaned _ rfl
  | finished hfinish =>
    obtain ⟨-, -, hfinished⟩ := finish_cases hfinish
    cases hfinished with
    | refused error hsessions =>
      rw [hsessions]
      exact hcleaned _ rfl
    | opened challenge stored other opened hopened hwritten hsessions =>
      have hne : token ≠ other := by
        rintro rfl
        have hfresh := hopened.fresh
        rw [hcleaned _ rfl] at hfresh
        cases hfresh
      rw [hsessions, AList.lookup_insert_ne hne]
      exact hcleaned _ rfl
  | revoked =>
    have hne : token ≠ _ := fun heq => hends (.inr heq.symm)
    exact (AList.lookup_erase_ne hne).trans hlookup
  | revokedAll =>
    have hne : session.appId ≠ _ := fun heq => hends (.inr heq.symm)
    exact AList.lookup_filterEntries_eq_some.mpr ⟨decide_eq_true hne, hlookup⟩
  | restarted => exact absurd (.inl trivial) hends

/-! ## Runs -/

structure IdentityRun (Proof : Type) where
  manager : IdentityManager
  log : List (Call Proof × Outcome)

variable (hmac)

def IdentityRun.next (run : IdentityRun Proof) (call : Call Proof) : Option (IdentityRun Proof) :=
  (run.manager.exec hmac call).map fun p =>
    { manager := p.1, log := (call, p.2) :: run.log }

/-- A run starts with a process that reads any store. -/
def identitySystem : LabelledSystem (IdentityRun Proof) (Call Proof) where
  initial run := run.log = [] ∧ load run.manager.disk = .ok run.manager
  step run call run' := run.next hmac call = some run'

variable {hmac}

/-- An application's record is good for a generation of its credential and some capabilities. -/
structure Standing (stored : StoredAppIdentity) (generation : UInt64)
    (capabilities : AppCapabilitySet) : Prop where
  enabled : stored.registration.enabled
  generation : stored.registration.credentialGeneration = generation
  granted : capabilities ⊆ stored.registration.grantedCapabilities

variable {stored stored' : StoredAppIdentity}

theorem Standing.congr {generation : UInt64}
    {capabilities : AppCapabilitySet} (h : Standing stored generation capabilities)
    (hrights : stored'.rights = stored.rights) : Standing stored' generation capabilities := by
  simp only [StoredAppIdentity.rights, Prod.mk.injEq] at hrights
  obtain ⟨-, henabled, hgeneration, hgranted⟩ := hrights
  exact
    { enabled := henabled ▸ h.enabled
      generation := hgeneration.trans h.generation
      granted := hgranted ▸ h.granted }

/-- The challenge was issued right after `earlier`, and no call since has answered it. -/
def Unanswered (log : List (Call Proof × Outcome)) (challenge : AppAuthChallenge)
    (earlier : List (Call Proof × Outcome)) : Prop :=
  ∃ between issue, log = between ++ issue :: earlier ∧ Issues challenge issue.1 issue.2 ∧
    ∀ entry ∈ between, ¬ Call.Answers challenge.challengeId entry.1

/-- A call has opened the session for a response to the challenge issued right after `earlier`, the
first response to it. The calls `later` than that leave the session. -/
structure Earned (log : List (Call Proof × Outcome)) (token : AppSessionToken)
    (session : ActiveAppSession) (challenge : AppAuthChallenge)
    (response : AppAuthResponse Proof) (later earlier : List (Call Proof × Outcome)) : Prop where
  opened : ∃ draws before, Unanswered before challenge earlier ∧
    log = later ++ (.finish response session.authenticatedAt draws session.sessionId none,
      .session { session with sessionToken := token }) :: before
  answers : response.challengeId = challenge.challengeId
  sameApp : challenge.appId = session.appId
  generation : challenge.credentialGeneration = session.credentialGeneration
  capabilities : challenge.requestedCapabilities = session.capabilities
  expires : session.expiresAt = saturatingAdd session.authenticatedAt sessionTtlSecs
  kept : ∀ entry ∈ later, ¬ Call.Ends token session entry.1

/-- The challenges and sessions of a run have a history. -/
structure Sound (hmac : AppSecret → Bytes → Proof) (run : IdentityRun Proof) : Prop where
  challenges : ∀ id challenge, run.manager.inner.pendingChallenges.lookup id = some challenge →
    challenge.challengeId = id ∧
      (∃ stored, run.manager.app? challenge.appId = some stored ∧
        Standing stored challenge.credentialGeneration challenge.requestedCapabilities) ∧
      ∃ earlier, Unanswered run.log challenge earlier
  sessions : ∀ token session, run.manager.inner.activeSessions.lookup token = some session →
    ∃ stored, run.manager.app? session.appId = some stored ∧
      Standing stored session.credentialGeneration session.capabilities ∧
      ∃ challenge response later earlier,
        Earned run.log token session challenge response later earlier ∧
        response.proof = computeAppProof hmac stored.secret challenge

variable {log earlier later : List (Call Proof × Outcome)}

omit [DecidableEq Proof] in
theorem Unanswered.cons
    (h : Unanswered log challenge earlier) (hcall : ¬ call.Answers challenge.challengeId) :
    Unanswered ((call, outcome) :: log) challenge earlier := by
  obtain ⟨between, issue, rfl, hissue, hbetween⟩ := h
  refine ⟨(call, outcome) :: between, issue, rfl, hissue, ?_⟩
  intro entry hentry
  obtain rfl | hentry := List.mem_cons.mp hentry
  · exact hcall
  · exact hbetween entry hentry

omit [DecidableEq Proof] in
theorem Earned.cons {response : AppAuthResponse Proof}
    (h : Earned log token session challenge response later earlier)
    (hcall : ¬ call.Ends token session) :
    Earned ((call, outcome) :: log) token session challenge response
      ((call, outcome) :: later) earlier := by
  obtain ⟨draws, before, hunanswered, rfl⟩ := h.opened
  refine { h with opened := ⟨draws, before, hunanswered, rfl⟩, kept := ?_ }
  intro entry hentry
  obtain rfl | hentry := List.mem_cons.mp hentry
  · exact hcall
  · exact h.kept entry hentry

theorem secret_of_rights (h : stored'.rights = stored.rights) : stored'.secret = stored.secret :=
  congrArg Prod.fst h

theorem Sound.exec {run : IdentityRun Proof} (sound : Sound hmac run)
    (h : run.manager.exec hmac call = some (m', outcome)) :
    Sound hmac { manager := m', log := (call, outcome) :: run.log } where
  challenges id challenge hlookup := by
    obtain ⟨hbefore, hwithdraws, hanswers⟩ | ⟨hissues, hid, hchecked⟩ :=
      exec_challenge h hlookup fun hbefore => by
        obtain ⟨-, ⟨stored, hstored, -⟩, -⟩ := sound.challenges id challenge hbefore
        exact ⟨stored, hstored⟩
    · obtain ⟨rfl, ⟨stored, hstored, hstanding⟩, earlier, hunanswered⟩ :=
        sound.challenges id challenge hbefore
      obtain ⟨stored', hstored', hrights⟩ := exec_app? h hwithdraws hstored hstanding.enabled
      exact ⟨rfl, ⟨stored', hstored', hstanding.congr hrights⟩, earlier, hunanswered.cons hanswers⟩
    obtain ⟨stored, hstored, henabled, hgeneration, hgranted⟩ := checkRequest_eq_ok hchecked
    have hstanding : Standing stored challenge.credentialGeneration
        challenge.requestedCapabilities := ⟨henabled, hgeneration, hgranted⟩
    have hwithdraws : ¬ call.Withdraws challenge.appId := by
      obtain ⟨fault, rfl, -⟩ := hissues
      exact not_false
    obtain ⟨stored', hstored', hrights⟩ := exec_app? h hwithdraws hstored henabled
    refine ⟨hid, ⟨stored', hstored', hstanding.congr hrights⟩, run.log, ?_⟩
    exact ⟨[], (call, outcome), rfl, hissues, by simp⟩
  sessions token session hlookup := by
    obtain ⟨hbefore, hends⟩ | ⟨response, draws, challenge, stored, rfl, rfl, hopened⟩ :=
      exec_session h hlookup fun hbefore => by
        obtain ⟨stored, hstored, -⟩ := sound.sessions token session hbefore
        exact ⟨stored, hstored⟩
    · obtain ⟨stored, hstored, hstanding, challenge, response, later, earlier, hearned, hproof⟩ :=
        sound.sessions token session hbefore
      have hwithdraws : ¬ call.Withdraws session.appId := fun hw => hends (.inl hw)
      obtain ⟨stored', hstored', hrights⟩ := exec_app? h hwithdraws hstored hstanding.enabled
      refine ⟨stored', hstored', hstanding.congr hrights, challenge, response, _, earlier,
        hearned.cons hends, ?_⟩
      rw [secret_of_rights hrights]
      exact hproof
    -- The session has just been opened; what it rests on is what its challenge rested on.
    have hpending := (cleanupExpired_challenge hopened.pending).1
    obtain ⟨hid, ⟨found, hfound, hstanding⟩, earlier, hunanswered⟩ :=
      sound.challenges _ challenge hpending
    rw [hopened.sameApp] at hfound
    have hregistered : run.manager.app? session.appId = some stored := hopened.registered
    cases hfound.symm.trans hregistered
    have hwithdraws : ¬ Call.Withdraws session.appId (.finish response session.authenticatedAt
        draws session.sessionId none) := not_false
    obtain ⟨stored', hstored', hrights⟩ :=
      exec_app? h hwithdraws hregistered hstanding.enabled
    have hfields := hopened.fields
    have hgeneration : session.credentialGeneration = challenge.credentialGeneration := by
      rw [hfields]
    have hcapabilities : session.capabilities = challenge.requestedCapabilities := by
      rw [hfields]
    have hexpires : session.expiresAt = saturatingAdd session.authenticatedAt sessionTtlSecs := by
      rw [hfields]
    refine ⟨stored', hstored', ?_, challenge, response, [], earlier, ?_, ?_⟩
    · rw [hgeneration, hcapabilities]
      exact hstanding.congr hrights
    · exact
        { opened := ⟨draws, run.log, hunanswered, rfl⟩
          answers := hid.symm
          sameApp := hopened.sameApp
          generation := hgeneration.symm
          capabilities := hcapabilities.symm
          expires := hexpires
          kept := by simp }
    · rw [secret_of_rights hrights]
      exact hopened.proof

theorem sound_invariant : (identitySystem hmac).Invariant (Sound hmac) where
  initially run hinitial := by
    obtain ⟨hpending, hsessions⟩ := load_eq_ok hinitial.2
    constructor
    · intro id challenge hlookup
      rw [hpending] at hlookup
      cases hlookup
    · intro token session hlookup
      rw [hsessions] at hlookup
      cases hlookup
  preserved run call run' sound hstep := by
    obtain ⟨⟨m', outcome⟩, hexec, rfl⟩ := Option.map_eq_some_iff.mp hstep
    exact sound.exec hexec

/-- In every run each challenge and each session that is held has its history. -/
theorem held_items_have_history {run : IdentityRun Proof}
    (reached : (identitySystem hmac).Reachable run) : Sound hmac run := sound_invariant.holds reached

/-! ## Every challenge is answered once -/

/-- Where two entries of a list are each the last with a property, they are one. -/
theorem eq_of_last {α : Type*} (p : α → Prop) {before before' after after' : List α} {a b : α}
    (h : before ++ a :: after = before' ++ b :: after') (ha : p a) (hb : p b)
    (hafter : ∀ c ∈ after, ¬ p c) (hafter' : ∀ c ∈ after', ¬ p c) : before = before' := by
  obtain ⟨middle, rfl, hmiddle⟩ | ⟨middle, rfl, hmiddle⟩ := List.append_eq_append_iff.mp h
  · cases middle with
    | nil => exact (List.append_nil before).symm
    | cons c middle =>
      cases hmiddle
      exact absurd hb (hafter b (by simp))
  · cases middle with
    | nil => exact List.append_nil before'
    | cons c middle =>
      cases hmiddle
      exact absurd ha (hafter' a (by simp))

omit [DecidableEq Proof] in
theorem Earned.later_eq {later' : List (Call Proof × Outcome)}
    {token' : AppSessionToken} {session' : ActiveAppSession}
    {response response' : AppAuthResponse Proof}
    (h : Earned log token session challenge response later earlier)
    (h' : Earned log token' session' challenge response' later' earlier) : later = later' := by
  obtain ⟨draws, before, ⟨between, issue, rfl, -, hbetween⟩, hlog⟩ := h.opened
  obtain ⟨draws', before', ⟨between', issue', rfl, -, hbetween'⟩, hlog'⟩ := h'.opened
  rw [hlog] at hlog'
  rw [← List.cons_append, ← List.append_assoc, ← List.cons_append, ← List.append_assoc] at hlog'
  obtain ⟨hcut, -⟩ := List.append_inj' hlog' rfl
  exact eq_of_last (fun entry : Call Proof × Outcome => entry.1.Answers challenge.challengeId) hcut
    h.answers h'.answers hbetween hbetween'

/-- A session that authenticates has been opened for a proof made with the secret that its
application still has, over a challenge that no other call has answered; the proof is good for no
other secret and no other challenge. No call since has ended the session or withdrawn the rights
it rests on. -/
theorem authenticated_session_is_earned (hinjective : Function.Injective2 hmac)
    {run : IdentityRun Proof} (reached : (identitySystem hmac).Reachable run)
    {now : UInt64} {authenticated : AuthenticatedAppSession}
    (h : (run.manager.authenticateSession token now).2 = .ok authenticated) :
    authenticated.sessionToken = token ∧ now < authenticated.expiresAt ∧
      ∃ stored, run.manager.app? authenticated.appId = some stored ∧
        Standing stored authenticated.credentialGeneration authenticated.capabilities ∧
        ∃ challenge response later earlier,
          Earned run.log token authenticated.toActiveAppSession challenge response later earlier ∧
          response.proof = computeAppProof hmac stored.secret challenge ∧
          (∀ secret other, response.proof = computeAppProof hmac secret other →
            secret = stored.secret ∧ other = challenge) ∧
          ∀ token' session' response' later',
            Earned run.log token' session' challenge response' later' earlier → later' = later := by
  obtain ⟨hlookup, htoken, hexpires⟩ := authenticate_eq_ok h
  obtain ⟨stored, hstored, hstanding, challenge, response, later, earlier, hearned, hproof⟩ :=
    (sound_invariant.holds reached).sessions token _ hlookup
  refine ⟨htoken, hexpires, stored, hstored, hstanding, challenge, response, later, earlier,
    hearned, hproof, ?_, ?_⟩
  · intro secret other hother
    obtain ⟨hsecret, hchallenge⟩ :=
      computeAppProof_injective hinjective (hother.symm.trans hproof)
    exact ⟨hsecret, hchallenge⟩
  · intro token' session' response' later' hother
    exact hother.later_eq hearned

end Manager

/-! ## One session -/

namespace SessionSample

/-- A code whose values are the key and the input. -/
def hmac : AppSecret → Bytes → AppSecret × Bytes := Prod.mk

def secret : AppSecret := ⟨List.replicate 32 6, rfl⟩
def nonce : Nonce := ⟨List.replicate 32 9, rfl⟩
def token : AppSessionToken := ⟨List.replicate 32 3, rfl⟩
def sessionId : AppSessionId := ⟨List.replicate 16 5, rfl⟩

def start : IdentityManager where
  inner := { store := .default, pendingChallenges := ∅, activeSessions := ∅ }
  disk := none

def challenge : AppAuthChallenge where
  appId := "calc"
  challengeId := 1
  nonce := nonce
  issuedAt := 100
  expiresAt := 130
  credentialGeneration := 1
  requestedCapabilities := {.signAppData}

def response : AppAuthResponse (AppSecret × Bytes) where
  appId := "calc"
  challengeId := 1
  proof := computeAppProof hmac secret challenge

def calls : List (Call (AppSecret × Bytes)) :=
  [.register "calc" "Calculator" {.signAppData, .sendMessages} secret 50 none,
    .begin "calc" {.signAppData} 100 nonce none,
    .finish response 110 [token] sessionId none]

def run : IdentityRun (AppSecret × Bytes) :=
  (LabelledSystem.run (IdentityRun.next hmac) ⟨start, []⟩ calls).get (by decide +kernel)

def authenticated : AuthenticatedAppSession where
  appId := "calc"
  sessionId := sessionId
  authenticatedAt := 110
  expiresAt := 43310
  credentialGeneration := 1
  capabilities := {.signAppData}
  sessionToken := token

theorem run_reachable : (identitySystem hmac).Reachable run :=
  LabelledSystem.Reachable.of_run (fun _ _ _ hnext => hnext) (.start ⟨rfl, rfl⟩)
    (Option.some_get _).symm

theorem held_items_have_history_calc : Sound hmac run := held_items_have_history run_reachable

theorem calc_session_is_earned :
    ∃ stored, run.manager.app? "calc" = some stored ∧ Standing stored 1 {.signAppData} := by
  have h : (run.manager.authenticateSession token 200).2 = .ok authenticated := by decide +kernel
  obtain ⟨-, -, stored, hstored, hstanding, -⟩ :=
    authenticated_session_is_earned (fun _ _ _ _ h => Prod.mk.inj h) run_reachable h
  exact ⟨stored, hstored, hstanding⟩

end SessionSample

end VeilKnit.Identity
