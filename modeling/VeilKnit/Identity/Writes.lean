import VeilKnit.Identity.Sessions

/-!
# Writes that fail

Administration edits the memory first and writes the file after that. When the write fails the
caller gets an error and the edit stays: a failed registration cannot be retried, a failed
rotation has already taken the old secret away, and the next write that succeeds makes the edit
permanent. A refused call leaves everything as it was just when it has not got as far as the edit,
or when the edit changes nothing.
-/

namespace VeilKnit.Identity

open Library Types IdentityManager

variable {stored : StoredAppIdentity}

theorem StoredAppIdentity.setEnabled_eq_self {enabled : Bool} :
    stored.setEnabled enabled = stored ↔ stored.registration.enabled = enabled := by
  constructor
  · intro h
    rw [← h]
    rfl
  · rintro rfl
    rfl

theorem StoredAppIdentity.setCapabilities_eq_self {granted : AppCapabilitySet} :
    stored.setCapabilities granted = stored ↔
      stored.registration.grantedCapabilities = granted := by
  constructor
  · intro h
    rw [← h]
    rfl
  · rintro rfl
    rfl

theorem next_generation_eq_self (generation : UInt64) :
    max (saturatingAdd generation 1) 1 = generation ↔ generation.toNat = 2 ^ 64 - 1 := by
  have hone : (1 : UInt64).toNat = 1 := rfl
  have hlt := generation.toNat_lt
  have hnext := saturatingAdd_toNat generation 1
  change (if saturatingAdd generation 1 ≤ 1 then 1 else saturatingAdd generation 1) = _ ↔ _
  rw [← UInt64.toNat_inj]
  split
  case isTrue hle =>
    rw [UInt64.le_iff_toNat_le] at hle
    omega
  case isFalse => omega

/-- A rotation changes nothing if it draws the secret anew and the generation cannot grow. -/
theorem StoredAppIdentity.rotated_eq_self {secret : AppSecret} : stored.rotated secret = stored ↔
      stored.secret = secret ∧ stored.registration.credentialGeneration.toNat = 2 ^ 64 - 1 := by
  have hgeneration : max (saturatingAdd stored.registration.credentialGeneration 1) 1 =
      stored.registration.credentialGeneration ↔
        stored.registration.credentialGeneration.toNat = 2 ^ 64 - 1 :=
    next_generation_eq_self _
  rw [← hgeneration]
  constructor
  · intro h
    have hregistration := congrArg StoredAppIdentity.registration h
    refine ⟨?_, congrArg AppRegistration.credentialGeneration hregistration⟩
    rw [← h]
    rfl
  · rintro ⟨rfl, hkept⟩
    simp only [StoredAppIdentity.rotated, hkept]

section Manager

variable {Proof : Type} [DecidableEq Proof] {hmac : AppSecret → Bytes → Proof}
  {m m' : IdentityManager} {call : Call Proof} {outcome : Outcome} {appId : AppId}
  {stored : StoredAppIdentity}

/-- The registrations and secrets in memory and the file are as before. -/
def Unchanged (m m' : IdentityManager) : Prop :=
  (∀ appId, m'.app? appId = m.app? appId) ∧ m'.disk = m.disk

/-- The call's write succeeds, or the call is refused before it edits anything, or its edit
changes nothing. -/
def Call.Clean (m : IdentityManager) : Call Proof → Prop
  | .register appId displayName _ _ _ fault =>
    fault = none ∨ validateDisplayName displayName ≠ .ok () ∨ (m.app? appId).isSome
  | .rotate appId secret fault =>
    fault = none ∨ ∀ stored ∈ m.app? appId,
      stored.secret = secret ∧ stored.registration.credentialGeneration.toNat = 2 ^ 64 - 1
  | .setEnabled appId enabled fault =>
    fault = none ∨ ∀ stored ∈ m.app? appId, stored.registration.enabled = enabled
  | .setCapabilities appId granted fault =>
    fault = none ∨ ∀ stored ∈ m.app? appId, stored.registration.grantedCapabilities = granted
  | _ => True

/-! ## One call -/

/-- The error of the call's write. -/
def Call.fault : Call Proof → Option String
  | .register _ _ _ _ _ fault => fault
  | .rotate _ _ fault => fault
  | .setEnabled _ _ fault => fault
  | .setCapabilities _ _ fault => fault
  | .begin _ _ _ _ fault => fault
  | .finish _ _ _ _ fault => fault
  | _ => none

/-- The record that a call of the administration puts into the memory, unless it is refused
first. -/
def Call.edit (m : IdentityManager) : Call Proof → Option (AppId × StoredAppIdentity)
  | .register appId displayName granted secret now _ =>
    match validateDisplayName displayName with
    | .error _ => none
    | .ok () =>
      if (m.app? appId).isSome then none
      else some (appId, .new appId displayName granted secret now)
  | .rotate appId secret _ =>
    (m.app? appId).map fun stored => (appId, stored.rotated secret)
  | .setEnabled appId enabled _ =>
    (m.app? appId).map fun stored => (appId, stored.setEnabled enabled)
  | .setCapabilities appId granted _ =>
    (m.app? appId).map fun stored => (appId, stored.setCapabilities granted)
  | _ => none

/-- What an edit leaves: the record in memory, and in the file if its write succeeds. -/
structure Edited (m : IdentityManager) (fault : Option String) (appId : AppId)
    (stored : StoredAppIdentity) (m' : IdentityManager) (outcome : Outcome) : Prop where
  memory : ∀ other, m'.app? other = (m.putApp appId stored).app? other
  written : fault = none → m'.disk = some m'.inner.store ∧ ∀ error, outcome ≠ .refused error
  failed : ∀ message, fault = some message →
    m'.disk = m.disk ∧ outcome = .refused (.persistence message)

theorem Edited.of_persistLocked {α : Type} {edited : IdentityManager} (fault : Option String)
    (value : α) (f : α → Outcome) (hf : ∀ a error, f a ≠ .refused error)
    (hmemory : ∀ other, edited.app? other = (m.putApp appId stored).app? other)
    (hdisk : edited.disk = m.disk) :
    Edited m fault appId stored (Outcome.of f (edited.persistLocked fault value)).1
      (Outcome.of f (edited.persistLocked fault value)).2 := by
  cases fault with
  | none =>
    exact
      { memory := hmemory
        written := fun _ => ⟨rfl, hf value⟩
        failed := fun _ h => absurd h (Option.some_ne_none _).symm }
  | some message =>
    exact
      { memory := hmemory
        written := fun h => absurd h (Option.some_ne_none _)
        failed := fun _ h => ⟨hdisk, by rw [Option.some.inj h]; rfl⟩ }

/-- A call of the administration is refused at once or edits one record. -/
theorem exec_administration (hadmin : call.IsAdministration)
    (h : m.exec hmac call = some (m', outcome)) :
    (call.edit m = none ∧ m' = m ∧ ∃ error, outcome = .refused error) ∨
      ∃ appId stored, call.edit m = some (appId, stored) ∧
        Edited m call.fault appId stored m' outcome := by
  cases call with
  | register appId displayName granted secret now fault =>
    simp only [exec, registerAppWithCapabilities] at h
    simp only [Call.edit]
    cases hname : validateDisplayName displayName with
    | error error =>
      rw [hname] at h
      cases h
      exact .inl ⟨rfl, rfl, _, rfl⟩
    | ok =>
      rw [hname] at h
      by_cases hsome : (m.app? appId).isSome
      · simp only [hsome, if_true] at h ⊢
        cases h
        exact .inl ⟨trivial, rfl, _, rfl⟩
      · simp only [hsome] at h ⊢
        obtain ⟨rfl, rfl⟩ := Prod.mk.inj (Option.some.inj h)
        refine .inr ⟨_, _, rfl, ?_⟩
        exact .of_persistLocked fault _ _ (by simp) (fun _ => rfl) rfl
  | rotate appId secret fault =>
    simp only [exec, rotateAppCredential] at h
    simp only [Call.edit]
    cases happ : m.app? appId with
    | none =>
      rw [happ] at h
      cases h
      exact .inl ⟨rfl, rfl, _, rfl⟩
    | some stored =>
      rw [happ] at h
      obtain ⟨rfl, rfl⟩ := Prod.mk.inj (Option.some.inj h)
      refine .inr ⟨_, _, rfl, ?_⟩
      exact .of_persistLocked fault _ _ (by simp) (fun _ => rfl) rfl
  | setEnabled appId enabled fault =>
    simp only [exec, setAppEnabled] at h
    simp only [Call.edit]
    cases happ : m.app? appId with
    | none =>
      rw [happ] at h
      cases h
      exact .inl ⟨rfl, rfl, _, rfl⟩
    | some stored =>
      rw [happ] at h
      obtain ⟨rfl, rfl⟩ := Prod.mk.inj (Option.some.inj h)
      refine .inr ⟨_, _, rfl, ?_⟩
      cases enabled with
      | false => exact .of_persistLocked fault _ _ (by simp) (fun _ => rfl) rfl
      | true => exact .of_persistLocked fault _ _ (by simp) (fun _ => rfl) rfl
  | setCapabilities appId granted fault =>
    simp only [exec, setAppCapabilities] at h
    simp only [Call.edit]
    cases happ : m.app? appId with
    | none =>
      rw [happ] at h
      cases h
      exact .inl ⟨rfl, rfl, _, rfl⟩
    | some stored =>
      rw [happ] at h
      obtain ⟨rfl, rfl⟩ := Prod.mk.inj (Option.some.inj h)
      refine .inr ⟨_, _, rfl, ?_⟩
      exact .of_persistLocked fault _ _ (by simp) (fun _ => rfl) rfl
  | _ => exact absurd hadmin not_false

/-- No call but a restart takes a registration away. -/
theorem exec_registered (h : m.exec hmac call = some (m', outcome)) (hrestart : call ≠ .restart)
    (hregistered : (m.app? appId).isSome) : (m'.app? appId).isSome := by
  by_cases hadmin : call.IsAdministration
  · obtain ⟨-, rfl, -⟩ | ⟨other, stored, -, hedited⟩ := exec_administration hadmin h
    · exact hregistered
    · rw [hedited.memory]
      by_cases hother : appId = other
      · rw [hother, putApp_app?_self]
        rfl
      · rwa [putApp_app?_of_ne m stored hother]
  have hmap := congrArg Option.isSome ((performed_of_exec h).rights hadmin hrestart appId)
  rw [Option.isSome_map, Option.isSome_map] at hmap
  rwa [hmap]

/-- An edit leaves the memory as it was just when it puts back what was there. -/
theorem putApp_eq_iff :
    (∀ other, (m.putApp appId stored).app? other = m.app? other) ↔ m.app? appId = some stored := by
  constructor
  · intro h
    rw [← h appId, putApp_app?_self]
  · intro h other
    by_cases hother : other = appId
    · rw [hother, putApp_app?_self, h]
    · exact putApp_app?_of_ne m stored hother

/-- An edit of a record that is there puts back what was there if it changes nothing. -/
theorem map_edit_iff {f : StoredAppIdentity → StoredAppIdentity} :
    (∀ stored ∈ m.app? appId, f stored = stored) ↔
      ∀ other new, (m.app? appId).map (fun stored => (appId, f stored)) = some (other, new) →
        m.app? other = some new := by
  cases happ : m.app? appId with
  | none => simp
  | some stored =>
    constructor
    · rintro hsame other new hedit
      cases hedit
      rw [happ, hsame stored rfl]
    · intro hback found hfound
      cases hfound
      have hput := hback appId (f stored) rfl
      exact Option.some.inj (hput.symm.trans happ)

omit [DecidableEq Proof] in
/-- The condition, by the edit of the call. -/
theorem Call.clean_iff (hadmin : call.IsAdministration) :
    call.Clean m ↔ call.fault = none ∨ ∀ appId stored, call.edit m = some (appId, stored) →
      m.app? appId = some stored := by
  cases call with
  | register appId displayName granted secret now fault =>
    simp only [Call.Clean, Call.fault, Call.edit]
    cases hname : validateDisplayName displayName with
    | error error => simp
    | ok =>
      cases happ : m.app? appId with
      | none =>
        refine or_congr_right ⟨?_, ?_⟩
        · rintro (hinvalid | hsome)
          · exact absurd rfl hinvalid
          · cases hsome
        · intro hback
          have hput := hback appId _ rfl
          rw [happ] at hput
          cases hput
      | some stored => simp
  | rotate appId secret fault =>
    simp only [Call.Clean, Call.fault, Call.edit, ← StoredAppIdentity.rotated_eq_self, map_edit_iff]
  | setEnabled appId enabled fault =>
    simp only [Call.Clean, Call.fault, Call.edit, ← StoredAppIdentity.setEnabled_eq_self,
      map_edit_iff]
  | setCapabilities appId granted fault =>
    simp only [Call.Clean, Call.fault, Call.edit, ← StoredAppIdentity.setCapabilities_eq_self,
      map_edit_iff]
  | _ => exact absurd hadmin not_false

theorem exec_administration_isSome (m : IdentityManager) (hadmin : call.IsAdministration) :
    ∃ m' outcome, m.exec hmac call = some (m', outcome) := by
  cases call with
  | register appId displayName granted secret now fault => exact ⟨_, _, rfl⟩
  | rotate appId secret fault => exact ⟨_, _, rfl⟩
  | setEnabled appId enabled fault => exact ⟨_, _, rfl⟩
  | setCapabilities appId granted fault => exact ⟨_, _, rfl⟩
  | _ => exact absurd hadmin not_false

/-- A refused call of the administration leaves everything as it was just under the condition. -/
theorem refused_unchanged_iff (hadmin : call.IsAdministration) :
    (∀ m' error, m.exec hmac call = some (m', .refused error) → Unchanged m m') ↔
      call.Clean m := by
  rw [Call.clean_iff hadmin]
  constructor
  · intro hunchanged
    cases hfault : call.fault with
    | none => exact .inl rfl
    | some message =>
      refine .inr fun appId stored hedit => ?_
      have hreturns : ∃ m' outcome, m.exec hmac call = some (m', outcome) :=
        exec_administration_isSome m hadmin
      obtain ⟨m', outcome, hexec⟩ := hreturns
      obtain ⟨hnone, -⟩ | ⟨other, new, hother, hedited⟩ := exec_administration hadmin hexec
      · rw [hnone] at hedit
        cases hedit
      · cases hother.symm.trans hedit
        obtain ⟨-, rfl⟩ := hedited.failed message hfault
        obtain ⟨hmemory, -⟩ := hunchanged m' _ hexec
        exact putApp_eq_iff.mp fun id => (hedited.memory id).symm.trans (hmemory id)
  intro hclean m' error hexec
  obtain ⟨-, rfl, -⟩ | ⟨appId, stored, hedit, hedited⟩ := exec_administration hadmin hexec
  · exact ⟨fun _ => rfl, rfl⟩
  cases hfault : call.fault with
  | none => exact absurd rfl ((hedited.written hfault).2 error)
  | some message =>
    obtain hnone | hback := hclean
    · rw [hnone] at hfault
      cases hfault
    · refine ⟨fun other => ?_, (hedited.failed message hfault).1⟩
      rw [hedited.memory other]
      exact putApp_eq_iff.mpr (hback appId stored hedit) other

/-! ## Runs -/

/-- What the administration decides about an application. The time of last use is written by
authentication. -/
def StoredAppIdentity.decided (stored : StoredAppIdentity) : StoredAppIdentity := stored.used 0

/-- Memory and file say the same of every application. -/
def Agree (m : IdentityManager) : Prop :=
  ∀ appId, (m.app? appId).map StoredAppIdentity.decided =
    ((m.disk.getD .default).apps.lookup appId).map StoredAppIdentity.decided

theorem agree_of_load {disk : Option IdentityStore} (h : load disk = .ok m) : Agree m := by
  simp only [load] at h
  split at h
  case isTrue => cases h
  case isFalse =>
    cases h
    exact fun _ => rfl

theorem agree_of_written (h : m.disk = some m.inner.store) : Agree m := by
  intro appId
  rw [h]
  rfl

theorem Agree.congr (h : Agree m) (hmemory : ∀ appId,
    (m'.app? appId).map StoredAppIdentity.decided = (m.app? appId).map StoredAppIdentity.decided)
    (hdisk : m'.disk = m.disk) : Agree m' := by
  intro appId
  rw [hmemory, h appId, hdisk]

/-- A write that succeeds makes memory and file agree, and one that fails leaves the file. -/
theorem Agree.persistLocked {α : Type} (h : Agree m) (fault : Option String) (value : α) :
    Agree (m.persistLocked fault value).1 := by
  cases fault with
  | none => exact agree_of_written rfl
  | some message => exact h

theorem Agree.finish {response : AppAuthResponse Proof} {now : UInt64}
    {draws : List AppSessionToken} {sessionId : AppSessionId} {fault : Option String}
    {result : Except IdentityError AuthenticatedAppSession} (h : Agree m)
    (hfinish : m.finishAppAuth hmac response now draws sessionId fault = some (m', result)) :
    Agree m' := by
  simp only [finishAppAuth] at hfinish
  split at hfinish
  case h_1 =>
    obtain ⟨rfl, -⟩ := Prod.mk.inj (Option.some.inj hfinish)
    exact h
  case h_2 challenge hpending =>
  split at hfinish
  case h_1 =>
    obtain ⟨rfl, -⟩ := Prod.mk.inj (Option.some.inj hfinish)
    exact h
  case h_2 stored hchecked =>
  obtain ⟨-, hstored, -⟩ := checkResponse_eq_ok hchecked
  have hused : Agree ((((m.cleanupExpired now).removeChallenge response.challengeId).putApp
      response.appId (stored.used now))) := by
    refine h.congr (fun appId => ?_) rfl
    by_cases happ : appId = response.appId
    · rw [happ, putApp_app?_self, ← cleanupExpired_app? m now,
        ← removeChallenge_app? _ response.challengeId, hstored]
      rfl
    · rw [putApp_app?_of_ne _ _ happ]
      rfl
  cases fault with
  | some message =>
    obtain ⟨rfl, -⟩ := Prod.mk.inj (Option.some.inj hfinish)
    exact hused
  | none =>
    have hwritten := hused.persistLocked none ()
    obtain ⟨rfl, -⟩ | ⟨token, -, session, -, rfl, -⟩ := openSession_cases hfinish
    · exact hwritten
    · exact hwritten

/-- Under the condition, and whatever becomes of the writes of an authentication, a call keeps
memory and file in agreement. -/
theorem Agree.exec (h : Agree m) (hclean : call.Clean m)
    (hexec : m.exec hmac call = some (m', outcome)) : Agree m' := by
  cases performed_of_exec hexec with
  | administration hadmin =>
    obtain ⟨-, rfl, -⟩ | ⟨appId, stored, hedit, hedited⟩ := exec_administration hadmin hexec
    · exact h
    cases hfault : call.fault with
    | none => exact agree_of_written (hedited.written hfault).1
    | some message =>
      obtain ⟨hdisk, rfl⟩ := hedited.failed message hfault
      obtain ⟨hmemory, -⟩ := (refused_unchanged_iff hadmin).mpr hclean m' _ hexec
      exact h.congr (fun id => by rw [hmemory]) hdisk
  | swept | revoked | revokedAll => exact h
  | @issued challenge fault =>
    exact Agree.persistLocked (m := (m.cleanupExpired _).addChallenge challenge) h fault _
  | finished hfinish => exact h.finish hfinish
  | restarted hload => exact agree_of_load hload

variable (hmac)

/-- A call of the administration that is refused leaves the registrations and secrets, in memory
and in the file, as they were just under the condition. In a run that meets it memory and file
never disagree. -/
theorem refused_administration_leaves_no_trace :
    (∀ (m : IdentityManager) (call : Call Proof), call.IsAdministration →
      ((∀ m' error, m.exec hmac call = some (m', .refused error) → Unchanged m m') ↔
        call.Clean m)) ∧
      ∀ run, ((identitySystem hmac).restrict fun run call => call.Clean run.manager).Reachable run →
        Agree run.manager := by
  refine ⟨fun m call hadmin => refused_unchanged_iff hadmin, fun run reached => ?_⟩
  refine @LabelledSystem.Invariant.holds_within _ _ _ (Sound hmac) (fun run => Agree run.manager)
    sound_invariant _ ?_ ?_ _ reached
  · rintro run ⟨-, hload⟩
    exact agree_of_load hload
  · rintro run call run' - hagree hclean hstep
    obtain ⟨⟨m', outcome⟩, hexec, rfl⟩ := Option.map_eq_some_iff.mp hstep
    exact hagree.exec hclean hexec

end Manager

/-! ## Writes that fail -/

namespace FailedWriteSample

open SessionSample

def newSecret : AppSecret := ⟨List.replicate 32 8, rfl⟩

/-- "calc" is registered. -/
def registered : IdentityManager :=
  (start.registerAppWithCapabilities "calc" "Calculator" {.signAppData} secret 50 none).1

def registration (fault : Option String) : Call (AppSecret × Bytes) :=
  .register "calc" "Calculator" {.signAppData} newSecret 60 fault

def rotation (fault : Option String) : Call (AppSecret × Bytes) := .rotate "calc" newSecret fault

/-- "calc" is registered with a file that cannot be written. -/
def unregistered : IdentityManager :=
  ((start.exec hmac (registration (some "disk full"))).get (by decide +kernel)).1

/-- The secret is rotated with a file that cannot be written. -/
def unrotated : IdentityManager :=
  ((registered.exec hmac (rotation (some "disk full"))).get (by decide +kernel)).1

def oldCredential : AppCredential := ⟨"calc", secret, 1⟩

def begun : IdentityManager × Except IdentityError AppAuthChallenge :=
  unrotated.beginAppAuthWithCapabilities "calc" {.signAppData} 100 nonce none

/-- A registration that fails cannot be retried, and the file does not have it. A rotation that
fails leaves a credential that no longer answers. -/
theorem failed_writes_leave_traces :
    (start.exec hmac (registration (some "disk full"))).map Prod.snd =
        some (.refused (.persistence "disk full")) ∧
      ¬ Unchanged start unregistered ∧ ¬ Agree unregistered ∧
      (unregistered.exec hmac (registration none)).map Prod.snd =
        some (.refused .appAlreadyRegistered) ∧
      (registered.exec hmac (rotation (some "disk full"))).map Prod.snd =
        some (.refused (.persistence "disk full")) ∧
      ¬ Agree unrotated ∧
      begun.2.toOption.map (oldCredential.answer hmac) =
        some (.error .credentialGenerationMismatch) := by
  have hkept : (unregistered.app? "calc").isSome = true := by decide +kernel
  refine ⟨by decide +kernel, ?_, ?_, by decide +kernel, by decide +kernel, ?_, by decide +kernel⟩
  · rintro ⟨hmemory, -⟩
    rw [hmemory "calc"] at hkept
    cases hkept
  · intro hagree
    exact absurd (hagree "calc") (by decide +kernel)
  · intro hagree
    exact absurd (hagree "calc") (by decide +kernel)

def registeredRun : IdentityRun (AppSecret × Bytes) where
  manager := registered
  log := [(.register "calc" "Calculator" {.signAppData} secret 50 none, .credential oldCredential)]

/-- A registration whose write succeeds meets the condition. -/
theorem registered_agrees : Agree registeredRun.manager := by
  have initially : (identitySystem hmac).initial ⟨start, []⟩ := ⟨rfl, rfl⟩
  have hclean : Call.Clean start
      (.register "calc" "Calculator" {.signAppData} secret 50 none : Call (AppSecret × Bytes)) :=
    .inl rfl
  exact (refused_administration_leaves_no_trace hmac).2 registeredRun
    (.next _ (.start initially) ⟨hclean, rfl⟩)

end FailedWriteSample

end VeilKnit.Identity
