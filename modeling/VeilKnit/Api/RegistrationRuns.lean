import VeilKnit.Api.Registrations

/-!
# Every order of requests, approvals, rejections, polls and expiry

The steps of an approval come in between the other calls. Its first and its last step look at the
requests; what happens to the request between them is not noticed. The last step writes over a
rejection, and a request that expires meanwhile leaves its application registered with a secret
that can no longer be asked for. A registration whose write to disk fails leaves the application
registered as well. And a request that supersedes another is stored besides it for as long as
results are kept, so that nothing bounds the number of stored requests.

Where a request outlives its approval once the application is registered, it has one ending, its
result is what is handed out, and the store holds what is pending and what has been decided.
-/

namespace VeilKnit.Api

open Library Types Identity IdentityManager AppRegistrationHub

/-! ## The record of a run -/

/-- How a request ends. -/
inductive Ending
  | approved (credential : AppCredential) (decidedAt : UInt64)
  | rejected
  | expired
  deriving DecidableEq

/-- What a change of the stored request ends it with. -/
def RegistrationRequestState.ending? (r : RegistrationRequestState) :
    Option RegistrationRequestState → Option Ending
  | none => if r.isPending then some .expired else none
  | some after =>
    if after.decision = r.decision then none
    else
      match after.decision with
      | .pending => none
      | .approved credential decidedAt => some (.approved credential decidedAt)
      | .rejected _ _ => some .rejected

/-- The endings that a change of the stored requests makes. -/
def newEndings (before after : Requests) : List (UInt64 × Ending) :=
  before.keys.filterMap fun id =>
    ((before.lookup id).bind fun r => r.ending? (after.lookup id)).map fun ending => (id, ending)

/-- The results that a cleanup at some time forgets. -/
def newlyForgotten (now : UInt64) (before after : Requests) : List (UInt64 × UInt64) :=
  (before.keys.filter fun id =>
    (before.lookup id).any (fun r => ¬ r.isPending) && (after.lookup id).isNone).map fun id =>
      (id, now)

/-- The hub, the manager and the approvals under way: those that have looked at their request, and
those that have registered its application. The rest is the record of the run: the endings of
requests, the results forgotten and when, the registrations that approvals have made, and the
credentials given out for a request. -/
structure Desk where
  hub : AppRegistrationHub
  identities : IdentityManager
  checked : List PendingAppRegistration
  unwritten : List (PendingAppRegistration × AppCredential)
  endings : List (UInt64 × Ending)
  forgotten : List (UInt64 × UInt64)
  registrations : List (UInt64 × AppCredential)
  handed : List (UInt64 × AppCredential)

namespace Desk

def start (identities : IdentityManager) : Desk where
  hub := .default
  identities := identities
  checked := []
  unwritten := []
  endings := []
  forgotten := []
  registrations := []
  handed := []

def withHub (s : Desk) (now : UInt64) (hub : AppRegistrationHub) : Desk :=
  { s with
    hub := hub
    endings := s.endings ++ newEndings s.hub.requests hub.requests
    forgotten := s.forgotten ++ newlyForgotten now s.hub.requests hub.requests }

def hand (s : Desk) (requestId : UInt64) (credential : AppCredential) : Desk :=
  { s with handed := (requestId, credential) :: s.handed }

end Desk

/-- A step, with the clock it has read. The manager takes other calls as well. -/
inductive DeskLabel (Proof : Type)
  | request (appId : AppId) (displayName : String) (requestedCapabilities : AppCapabilitySet)
      (requestToken : RequestToken) (now : UInt64)
  | pending (now : UInt64)
  | beginApproval (requestId now : UInt64)
  | register (summary : PendingAppRegistration) (secret : AppSecret) (now : UInt64)
      (fault : Option String)
  | finishApproval (summary : PendingAppRegistration) (credential : AppCredential) (now : UInt64)
  | reject (requestId : UInt64) (reason : String) (now : UInt64)
  | status (requestId : UInt64) (requestToken : RequestToken) (now : UInt64)
  | identities (call : Call Proof)

section Runs

variable {Proof : Type} [DecidableEq Proof] (hmac : AppSecret → Bytes → Proof)

/-- The registration that a call has made. -/
def madeRegistration (before after : IdentityManager) (summary : PendingAppRegistration)
    (secret : AppSecret) : List (UInt64 × AppCredential) :=
  if (before.app? summary.appId).isNone ∧ (after.app? summary.appId).isSome then
    [(summary.requestId, ⟨summary.appId, secret, 1⟩)]
  else []

/-- A restart of the manager ends the run of the hub too. -/
def Desk.next (s : Desk) : DeskLabel Proof → Option Desk
  | .request appId displayName requestedCapabilities requestToken now =>
    some (s.withHub now (s.hub.request appId displayName requestedCapabilities requestToken now).1)
  | .pending now => some (s.withHub now (s.hub.pending now).1)
  | .beginApproval requestId now =>
    let (hub, result) := s.hub.beginApproval requestId now
    let s := s.withHub now hub
    match result with
    | .ok summary => some { s with checked := summary :: s.checked }
    | .error _ => some s
  | .register summary secret now fault =>
    if summary ∈ s.checked then
      let (identities, result) := registerApproved s.identities summary secret now fault
      let s' : Desk :=
        { s with
          identities := identities
          checked := s.checked.erase summary
          registrations :=
            madeRegistration s.identities identities summary secret ++ s.registrations }
      match result with
      | .ok credential => some { s' with unwritten := (summary, credential) :: s.unwritten }
      | .error _ => some s'
    else none
  | .finishApproval summary credential now =>
    if (summary, credential) ∈ s.unwritten then
      let (hub, result) := s.hub.finishApproval summary.requestId credential now
      let s' := { s.withHub now hub with unwritten := s.unwritten.erase (summary, credential) }
      match result with
      | .ok () => some (s'.hand summary.requestId credential)
      | .error _ => some s'
    else none
  | .reject requestId reason now => some (s.withHub now (s.hub.reject requestId reason now).1)
  | .status requestId requestToken now =>
    let (hub, result) := s.hub.status requestId requestToken now
    let s := s.withHub now hub
    match result with
    | .ok (.approved credential _) => some (s.hand requestId credential)
    | _ => some s
  | .identities .restart => none
  | .identities call =>
    (s.identities.exec hmac call).map fun (identities, _) => { s with identities := identities }

def deskSystem : LabelledSystem Desk (DeskLabel Proof) where
  initial s := ∃ identities, s = .start identities
  step s label t := s.next hmac label = some t

end Runs

/-! ## What is to hold -/

def Desk.isPending (s : Desk) (id : UInt64) : Prop :=
  ∃ r ∈ s.hub.requests.lookup id, r.isPending

/-- The credential can be asked for with the token of the request. -/
def Desk.Retrievable (s : Desk) (id : UInt64) (credential : AppCredential) (decidedAt : UInt64) :
    Prop :=
  ∃ r ∈ s.hub.requests.lookup id, ∀ now < saturatingAdd decidedAt registrationResultTtlSecs,
      (s.hub.status id r.requestToken now).2 = .ok (.approved credential r.summary)

/-- Every request that has been stored is pending or has one ending. What is handed out is what
its approval has made. An application that an approval has registered has its approval under way,
or its credential can be asked for until the result is forgotten for its age. A bounded number of
requests is stored. -/
structure Desk.Settled (limit : Nat) (s : Desk) : Prop where
  path : ∀ id : UInt64, 1 ≤ id → id < s.hub.nextRequestId →
    (s.isPending id ∧ (s.endings.map Prod.fst).count id = 0) ∨
      (¬ s.isPending id ∧ (s.endings.map Prod.fst).count id = 1)
  handed : ∀ id credential, (id, credential) ∈ s.handed →
    ∃ decidedAt, (id, .approved credential decidedAt) ∈ s.endings
  refused : ∀ id credential, (id, .rejected) ∈ s.endings → (id, credential) ∉ s.handed
  registered : ∀ id credential, (id, credential) ∈ s.registrations →
    (∃ summary, (summary, credential) ∈ s.unwritten ∧ summary.requestId = id) ∨
      ∃ decidedAt, (id, .approved credential decidedAt) ∈ s.endings ∧
        (s.Retrievable id credential decidedAt ∨ ∃ now, (id, now) ∈ s.forgotten ∧
            saturatingAdd decidedAt registrationResultTtlSecs ≤ now)
  bounded : s.hub.requests.entries.length ≤ maxPendingRegistrationRequests + limit

/-! ## The condition -/

/-- The number of stored results. -/
def Desk.decided (s : Desk) : Nat := s.hub.requests.count fun r => !r.isPending

/-- A cleanup, and what comes after it, spare the requests whose approval has registered the
application. -/
def Desk.Spares (s : Desk) (now : UInt64) (refuses : RegistrationRequestState → Prop) : Prop :=
  ∀ approval ∈ s.unwritten, ∀ r ∈ s.hub.requests.lookup approval.1.requestId,
    now < r.summary.expiresAt ∧ ¬ refuses r

/-- The condition on a step. A request keeps pending from the registration of its application to
the end of the approval, the write of that registration succeeds, the numbers of requests have not
run out, and fewer results than some number are stored when another one is made. -/
def Desk.Orderly {Proof : Type} (limit : Nat) (s : Desk) : DeskLabel Proof → Prop
  | .request appId _ _ requestToken now =>
    let supersedes : RegistrationRequestState → Prop :=
      fun r => r.summary.appId = appId ∧ r.requestToken ≠ requestToken
    s.Spares now supersedes ∧ s.hub.nextRequestId.toNat < 2 ^ 64 - 1 ∧
      ((∃ id, ∃ r ∈ s.hub.requests.lookup id, r.isPending ∧ supersedes r) → s.decided < limit)
  | .pending now => s.Spares now fun _ => False
  | .beginApproval _ now => s.Spares now fun _ => False
  | .register summary _ _ fault =>
    s.identities.app? summary.appId = none → fault = none ∧ s.isPending summary.requestId
  | .finishApproval summary _ _ => s.isPending summary.requestId → s.decided < limit
  | .reject requestId _ now =>
    (s.Spares now fun r => r.summary.requestId = requestId) ∧
      (s.isPending requestId → s.decided < limit)
  | .status _ _ now => s.Spares now fun _ => False
  | .identities _ => True

/-! ## Endings -/

section Endings

variable {before after : Requests} {now id : UInt64} {ending : Ending}

private theorem filterMap_tagged_sublist {α β : Type*} (f : α → Option β) (l : List α) :
    ((l.filterMap fun a => (f a).map fun b => (a, b)).map Prod.fst).Sublist l := by
  induction l with
  | nil => exact .slnil
  | cons a l ih =>
    cases hf : f a with
    | none =>
      rw [List.filterMap_cons_none (by rw [hf]; rfl)]
      exact ih.cons a
    | some b =>
      rw [List.filterMap_cons_some (b := (a, b)) (by rw [hf]; rfl), List.map_cons]
      exact ih.cons_cons a

theorem newEndings_nodup (before after : Requests) :
    ((newEndings before after).map Prod.fst).Nodup :=
  before.keys_nodup.sublist (filterMap_tagged_sublist _ _)

theorem mem_newEndings : (id, ending) ∈ newEndings before after ↔
      ∃ r, before.lookup id = some r ∧ r.ending? (after.lookup id) = some ending := by
  rw [newEndings, List.mem_filterMap]
  constructor
  · rintro ⟨key, -, hkey⟩
    obtain ⟨found, hfound, heq⟩ := Option.map_eq_some_iff.mp hkey
    cases heq
    exact Option.bind_eq_some_iff.mp hfound
  · rintro ⟨r, hstored, hending⟩
    have hkey : id ∈ before.keys := AList.mem_keys.mp (AList.lookup_isSome.mp (by rw [hstored]; rfl))
    refine ⟨id, hkey, ?_⟩
    rw [hstored, Option.bind_some, hending]
    rfl

theorem mem_newlyForgotten {r : RegistrationRequestState} (hstored : before.lookup id = some r)
    (hdecided : r.isPending = false) (hafter : after.lookup id = none) :
    (id, now) ∈ newlyForgotten now before after := by
  have hkey : id ∈ before.keys := AList.mem_keys.mp (AList.lookup_isSome.mp (by rw [hstored]; rfl))
  refine List.mem_map_of_mem (List.mem_filter.mpr ⟨hkey, ?_⟩)
  simp [hstored, hafter, hdecided]

theorem count_newEndings_none
    (h : ∀ r, before.lookup id = some r → r.ending? (after.lookup id) = none) :
    ((newEndings before after).map Prod.fst).count id = 0 := by
  refine List.count_eq_zero.mpr fun hmem => ?_
  obtain ⟨⟨key, ending⟩, hending, rfl⟩ := List.mem_map.mp hmem
  obtain ⟨r, hstored, hsome⟩ := mem_newEndings.mp hending
  rw [h r hstored] at hsome
  cases hsome

theorem count_newEndings_some (h : (id, ending) ∈ newEndings before after) :
    ((newEndings before after).map Prod.fst).count id = 1 :=
  List.count_eq_one_of_mem (newEndings_nodup before after) (List.mem_map_of_mem h)

end Endings

/-! ### One request -/

/-- What the record of a run says about a request, stored or not. -/
structure Recorded (endings : List (UInt64 × Ending)) (forgotten : List (UInt64 × UInt64))
    (id : UInt64) (x : Option RegistrationRequestState) : Prop where
  pending : (∃ r ∈ x, r.isPending) → (endings.map Prod.fst).count id = 0
  ended : (¬ ∃ r ∈ x, r.isPending) → (endings.map Prod.fst).count id = 1
  approved : ∀ r ∈ x, ∀ credential decidedAt, r.decision = .approved credential decidedAt →
    (id, .approved credential decidedAt) ∈ endings
  result : ∀ credential decidedAt, (id, .approved credential decidedAt) ∈ endings →
    (∃ r ∈ x, r.decision = .approved credential decidedAt) ∨
      ∃ now, (id, now) ∈ forgotten ∧ saturatingAdd decidedAt registrationResultTtlSecs ≤ now

section Recorded

variable {endings : List (UInt64 × Ending)} {forgotten : List (UInt64 × UInt64)}
  {before after : Requests} {now id : UInt64} {decides : RegistrationRequestState → Prop}
  {r : RegistrationRequestState}

theorem Recorded.not_ended
    (h : Recorded endings forgotten id (some r)) (hpending : r.isPending) (ending : Ending) :
    (id, ending) ∉ endings := by
  intro hmem
  have hzero := h.pending ⟨r, rfl, hpending⟩
  exact List.count_eq_zero.mp hzero (List.mem_map_of_mem (f := Prod.fst) hmem)

theorem Recorded.kept {x : Option RegistrationRequestState} {later : List (UInt64 × Ending)}
    (h : Recorded endings forgotten id x) (laterForgotten : List (UInt64 × UInt64))
    (hlater : (later.map Prod.fst).count id = 0) :
    Recorded (endings ++ later) (forgotten ++ laterForgotten) id x where
  pending hx := by
    rw [List.map_append, List.count_append, hlater, h.pending hx]
  ended hx := by
    rw [List.map_append, List.count_append, hlater, h.ended hx]
  approved r hr credential decidedAt hdecision :=
    List.mem_append_left _ (h.approved r hr credential decidedAt hdecision)
  result credential decidedAt hmem := by
    obtain hearlier | hnew := List.mem_append.mp hmem
    · obtain hstored | ⟨time, hforgotten, hold⟩ := h.result credential decidedAt hearlier
      · exact .inl hstored
      · exact .inr ⟨time, List.mem_append_left _ hforgotten, hold⟩
    · exact absurd (List.mem_map_of_mem (f := Prod.fst) hnew) (List.count_eq_zero.mp hlater)

/-- A pending request that ends. -/
theorem Recorded.ends {y : Option RegistrationRequestState}
    {ending : Ending} {laterForgotten : List (UInt64 × UInt64)}
    (h : Recorded endings forgotten id (some r)) (hpending : r.isPending)
    (hnew : (id, ending) ∈ newEndings before after) (hy : ¬ ∃ r ∈ y, r.isPending)
    (hdecision : ∀ credential decidedAt, ending = .approved credential decidedAt ↔
      ∃ r ∈ y, r.decision = .approved credential decidedAt) :
    Recorded (endings ++ newEndings before after) (forgotten ++ laterForgotten) id y where
  pending hx := absurd hx hy
  ended _ := by
    rw [List.map_append, List.count_append, count_newEndings_some hnew,
      h.pending ⟨r, rfl, hpending⟩]
  approved r' hr' credential decidedAt happroved := by
    obtain rfl := (hdecision credential decidedAt).mpr ⟨r', hr', happroved⟩
    exact List.mem_append_right _ hnew
  result credential decidedAt hmem := by
    obtain hearlier | hlater := List.mem_append.mp hmem
    · exact absurd hearlier (h.not_ended hpending _)
    · obtain ⟨r', hstored, hending⟩ := mem_newEndings.mp hlater
      obtain ⟨r'', hstored', hending'⟩ := mem_newEndings.mp hnew
      cases hstored.symm.trans hstored'
      cases hending'.symm.trans hending
      exact .inl ((hdecision credential decidedAt).mp rfl)

theorem Recorded.step (h : Recorded endings forgotten id (before.lookup id))
    (htransition : Transition now decides (before.lookup id) (after.lookup id)) :
    Recorded (endings ++ newEndings before after)
      (forgotten ++ newlyForgotten now before after) id (after.lookup id) := by
  generalize hx : before.lookup id = x at h htransition
  generalize hy : after.lookup id = y at htransition
  cases htransition with
  | kept =>
    refine h.kept _ (count_newEndings_none fun r hr => ?_)
    rw [hx] at hr
    rw [hy, hr, RegistrationRequestState.ending?, if_pos rfl]
  | @dropped r hage =>
    cases hpending : r.isPending with
    | true =>
      have hnew : (id, .expired) ∈ newEndings before after := by
        refine mem_newEndings.mpr ⟨r, hx, ?_⟩
        rw [hy, RegistrationRequestState.ending?, if_pos hpending]
      exact h.ends hpending hnew (by simp) (by simp)
    | false =>
      have hnone : ((newEndings before after).map Prod.fst).count id = 0 := by
        refine count_newEndings_none fun r' hr' => ?_
        cases hx.symm.trans hr'
        rw [hy, RegistrationRequestState.ending?, hpending, if_neg Bool.false_ne_true]
      have hkept := h.kept (newlyForgotten now before after) hnone
      have hone := hkept.ended (by simpa using hpending)
      refine ⟨by simp, fun _ => hone, by simp, fun credential decidedAt hmem => ?_⟩
      obtain ⟨r', hr', hdecision⟩ | hold := hkept.result credential decidedAt hmem
      · cases hr'
        refine .inr ⟨now, List.mem_append_right _ (mem_newlyForgotten hx hpending hy), ?_⟩
        rw [RegistrationRequestState.isKept, hdecision] at hage
        exact UInt64.not_lt.mp (of_decide_eq_false hage)
      · exact .inr hold
  | @decided r decision hpending _ hdecision =>
    have hbefore : r.decision = .pending := of_decide_eq_true hpending
    have hafter : ¬ ∃ r' ∈ some (r.decide decision), r'.isPending := by
      rintro ⟨r', hr', hpending'⟩
      cases hr'
      exact hdecision (of_decide_eq_true hpending')
    cases decision with
    | pending => exact absurd rfl hdecision
    | approved credential decidedAt =>
      have hnew : (id, .approved credential decidedAt) ∈ newEndings before after := by
        refine mem_newEndings.mpr ⟨r, hx, ?_⟩
        rw [hy]
        simp [RegistrationRequestState.ending?, RegistrationRequestState.decide, hbefore]
      refine h.ends hpending hnew hafter fun credential' decidedAt' => ?_
      simp [RegistrationRequestState.decide]
    | rejected reason decidedAt =>
      have hnew : (id, .rejected) ∈ newEndings before after := by
        refine mem_newEndings.mpr ⟨r, hx, ?_⟩
        rw [hy]
        simp [RegistrationRequestState.ending?, RegistrationRequestState.decide, hbefore]
      refine h.ends hpending hnew hafter fun credential' decidedAt' => ?_
      simp [RegistrationRequestState.decide]

end Recorded

/-! ### All requests -/

namespace Desk

/-- Numbers are given out in order, and the record tells how each request stands. -/
structure Ledger (s : Desk) : Prop where
  positive : 1 ≤ s.hub.nextRequestId
  numbers : ∀ id r, s.hub.requests.lookup id = some r → r.summary.requestId = id
  recorded : ∀ id, 1 ≤ id → id < s.hub.nextRequestId →
    Recorded s.endings s.forgotten id (s.hub.requests.lookup id)
  unissued : ∀ id, ¬ (1 ≤ id ∧ id < s.hub.nextRequestId) →
    s.hub.requests.lookup id = none ∧ (s.endings.map Prod.fst).count id = 0

end Desk

section Ledger

variable {s : Desk} {now : UInt64} {hub : AppRegistrationHub}
  {decides : RegistrationRequestState → Prop}

theorem Desk.Ledger.congr {t : Desk} (ledger : s.Ledger) (hhub : t.hub = s.hub)
    (hendings : t.endings = s.endings) (hforgotten : t.forgotten = s.forgotten) : t.Ledger where
  positive := hhub ▸ ledger.positive
  numbers := hhub ▸ ledger.numbers
  recorded := by
    rw [hhub, hendings, hforgotten]
    exact ledger.recorded
  unissued := by
    rw [hhub, hendings]
    exact ledger.unissued

/-- The record says nothing new about a request that is not stored. -/
theorem Desk.withHub_count {s : Desk} {now id : UInt64} (hub : AppRegistrationHub)
    (hnone : s.hub.requests.lookup id = none) (hcount : (s.endings.map Prod.fst).count id = 0) :
    ((s.withHub now hub).endings.map Prod.fst).count id = 0 := by
  have hnew : ((newEndings s.hub.requests hub.requests).map Prod.fst).count id = 0 :=
    count_newEndings_none fun r hr => absurd (hnone.symm.trans hr) (Option.some_ne_none r).symm
  rw [withHub, List.map_append, List.count_append, hcount, hnew]

theorem next_number {n : UInt64} (h : n.toNat < 2 ^ 64 - 1) :
    (max (saturatingAdd n 1) 1).toNat = n.toNat + 1 := by
  have hone : (1 : UInt64).toNat = 1 := rfl
  have hnext := saturatingAdd_toNat n 1
  change (if saturatingAdd n 1 ≤ 1 then 1 else saturatingAdd n 1).toNat = _
  split
  case isTrue hle =>
    rw [UInt64.le_iff_toNat_le] at hle
    omega
  case isFalse => omega

theorem Desk.Ledger.issued (ledger : s.Ledger) {id : UInt64} {r : RegistrationRequestState}
    (hstored : s.hub.requests.lookup id = some r) : 1 ≤ id ∧ id < s.hub.nextRequestId := by
  by_contra hnot
  rw [(ledger.unissued id hnot).1] at hstored
  cases hstored

theorem Desk.Ledger.next_unissued (ledger : s.Ledger) :
    s.hub.requests.lookup s.hub.nextRequestId = none ∧
      (s.endings.map Prod.fst).count s.hub.nextRequestId = 0 :=
  ledger.unissued _ fun h => UInt64.lt_irrefl _ h.2

theorem Desk.Ledger.withHub (ledger : s.Ledger) (h : HubStep now decides s.hub hub) :
    (s.withHub now hub).Ledger where
  positive := by
    change 1 ≤ hub.nextRequestId
    rw [h.number]
    exact ledger.positive
  numbers id r hstored := by
    obtain ⟨before, hbefore, hsummary⟩ := (h.requests id).summary_eq hstored
    rw [hsummary]
    exact ledger.numbers id before hbefore
  recorded id hle hlt := by
    change id < hub.nextRequestId at hlt
    rw [h.number] at hlt
    exact (ledger.recorded id hle hlt).step (h.requests id)
  unissued id hnot := by
    change ¬ (1 ≤ id ∧ id < hub.nextRequestId) at hnot
    rw [h.number] at hnot
    obtain ⟨hnone, hcount⟩ := ledger.unissued id hnot
    have htransition := h.requests id
    rw [hnone] at htransition
    exact ⟨htransition.none_left, withHub_count hub hnone hcount⟩

theorem Desk.Ledger.inserts (ledger : s.Ledger) (h : Inserts now decides s.hub hub)
    (hroom : s.hub.nextRequestId.toNat < 2 ^ 64 - 1) : (s.withHub now hub).Ledger := by
  obtain @⟨requests, summary, requestToken, htransitions, hid, -, -⟩ := h
  obtain ⟨hnone, hcount⟩ := ledger.next_unissued
  have hnumber : (insertRequest ⟨s.hub.nextRequestId, requests⟩ summary requestToken
      ).nextRequestId.toNat = s.hub.nextRequestId.toNat + 1 := next_number hroom
  have hself : (insertRequest ⟨s.hub.nextRequestId, requests⟩ summary requestToken
      ).requests.lookup s.hub.nextRequestId = some ⟨summary, requestToken, .pending⟩ :=
    AList.lookup_insert _
  have hstep : ∀ id, id ≠ s.hub.nextRequestId → Transition now decides (s.hub.requests.lookup id)
      ((insertRequest ⟨s.hub.nextRequestId, requests⟩ summary requestToken).requests.lookup id) := by
    intro id hne
    rw [insertRequest, AList.lookup_insert_ne hne]
    exact htransitions id
  generalize insertRequest ⟨s.hub.nextRequestId, requests⟩ summary requestToken = hub
    at hnumber hself hstep
  have hall : ((s.withHub now hub).endings.map Prod.fst).count s.hub.nextRequestId = 0 :=
    withHub_count hub hnone hcount
  refine ⟨?_, fun id r hstored => ?_, fun id hle hlt => ?_, fun id hnot => ?_⟩
  · change 1 ≤ hub.nextRequestId
    rw [UInt64.le_iff_toNat_le, hnumber]
    exact Nat.le_add_left _ _
  · by_cases hne : id = s.hub.nextRequestId
    · subst hne
      cases hself.symm.trans hstored
      exact hid
    · obtain ⟨before, hbefore, hsummary⟩ := (hstep id hne).summary_eq hstored
      rw [hsummary]
      exact ledger.numbers id before hbefore
  · change Recorded _ _ _ (hub.requests.lookup id)
    by_cases hne : id = s.hub.nextRequestId
    · subst hne
      rw [hself]
      refine ⟨fun _ => hall, fun hnot => absurd ⟨_, rfl, rfl⟩ hnot, ?_, ?_⟩
      · intro r hr credential decidedAt hdecision
        cases hr
        cases hdecision
      · intro credential decidedAt hmem
        exact absurd (List.mem_map_of_mem (f := Prod.fst) hmem) (List.count_eq_zero.mp hall)
    refine (ledger.recorded id hle ?_).step (hstep id hne)
    change id < hub.nextRequestId at hlt
    rw [UInt64.lt_iff_toNat_lt, hnumber] at hlt
    rw [UInt64.lt_iff_toNat_lt]
    have hne' : id.toNat ≠ s.hub.nextRequestId.toNat := fun heq => hne (UInt64.toNat_inj.mp heq)
    omega
  change ¬ (1 ≤ id ∧ id < hub.nextRequestId) at hnot
  rw [UInt64.lt_iff_toNat_lt, hnumber] at hnot
  have hne : id ≠ s.hub.nextRequestId := by
    rintro rfl
    exact hnot ⟨ledger.positive, Nat.lt_succ_self _⟩
  have hnot' : ¬ (1 ≤ id ∧ id < s.hub.nextRequestId) := by
    rintro ⟨hle, hlt⟩
    rw [UInt64.lt_iff_toNat_lt] at hlt
    exact hnot ⟨hle, Nat.lt_succ_of_lt hlt⟩
  obtain ⟨hnone', hcount'⟩ := ledger.unissued id hnot'
  have htransition := hstep id hne
  rw [hnone'] at htransition
  exact ⟨htransition.none_left, withHub_count hub hnone' hcount'⟩

end Ledger

/-! ## Approvals under way -/

namespace Desk

/-- The summary is that of an issued request. -/
def Knows (s : Desk) (summary : PendingAppRegistration) : Prop :=
  (1 ≤ summary.requestId ∧ summary.requestId < s.hub.nextRequestId) ∧
    ∀ r, s.hub.requests.lookup summary.requestId = some r → r.summary = summary

/-- The request is stored and pending. -/
def Awaits (s : Desk) (summary : PendingAppRegistration) : Prop :=
  ∃ r, s.hub.requests.lookup summary.requestId = some r ∧ r.isPending ∧ r.summary = summary

/-- Approvals that have registered their application find its request pending, and each credential
that an approval has made is on its way or in the record. -/
structure Underway (s : Desk) : Prop where
  checked : ∀ summary ∈ s.checked, s.Knows summary
  unwritten : ∀ approval ∈ s.unwritten,
    s.Awaits approval.1 ∧ (s.identities.app? approval.1.appId).isSome
  distinct : (s.unwritten.map fun approval => approval.1.requestId).Nodup
  registrations : ∀ id credential, (id, credential) ∈ s.registrations →
    (∃ summary, (summary, credential) ∈ s.unwritten ∧ summary.requestId = id) ∨
      ∃ decidedAt, (id, .approved credential decidedAt) ∈ s.endings
  handed : ∀ id credential, (id, credential) ∈ s.handed →
    ∃ decidedAt, (id, .approved credential decidedAt) ∈ s.endings

end Desk

section Underway

variable {s : Desk} {now : UInt64} {hub : AppRegistrationHub} {summary : PendingAppRegistration}
  {decides : RegistrationRequestState → Prop} {id : UInt64} {credential : AppCredential}

theorem Desk.Knows.step (h : s.Knows summary) (hnumber : summary.requestId < hub.nextRequestId)
    (hstep : Transition now decides (s.hub.requests.lookup summary.requestId)
      (hub.requests.lookup summary.requestId)) : (s.withHub now hub).Knows summary := by
  refine ⟨⟨h.1.1, hnumber⟩, fun r hstored => ?_⟩
  obtain ⟨before, hbefore, hsummary⟩ := hstep.summary_eq hstored
  rw [hsummary, h.2 before hbefore]

theorem Desk.Knows.withHub (h : s.Knows summary) (hstep : HubStep now decides s.hub hub) :
    (s.withHub now hub).Knows summary :=
  h.step (hstep.number ▸ h.1.2) (hstep.requests _)

theorem Desk.Knows.inserts (h : s.Knows summary) (hstep : Inserts now decides s.hub hub)
    (hroom : s.hub.nextRequestId.toNat < 2 ^ 64 - 1) : (s.withHub now hub).Knows summary := by
  obtain @⟨requests, new, requestToken, htransitions, -, -, -⟩ := hstep
  have hlt := h.1.2
  refine h.step ?_ (?_ : Transition now decides _ _)
  · change summary.requestId < max (saturatingAdd s.hub.nextRequestId 1) 1
    rw [UInt64.lt_iff_toNat_lt] at hlt ⊢
    rw [next_number hroom]
    exact Nat.lt_succ_of_lt hlt
  · rw [insertRequest, AList.lookup_insert_ne (UInt64.ne_of_lt hlt)]
    exact htransitions _

theorem Desk.Awaits.step (h : s.Awaits summary)
    (hstep : Transition now decides (s.hub.requests.lookup summary.requestId)
      (hub.requests.lookup summary.requestId))
    (hspared : ∀ r ∈ s.hub.requests.lookup summary.requestId,
      now < r.summary.expiresAt ∧ ¬ decides r) : (s.withHub now hub).Awaits summary := by
  obtain ⟨r, hstored, hpending, hsummary⟩ := h
  have hkept := hspared r hstored
  rw [hstored] at hstep
  exact ⟨r, hstep.of_spared hpending hkept, hpending, hsummary⟩

/-- What is in the record stays there. -/
theorem Desk.mem_withHub_endings {ending : Ending} (hub : AppRegistrationHub)
    (h : (id, ending) ∈ s.endings) : (id, ending) ∈ (s.withHub now hub).endings :=
  List.mem_append_left _ h

/-- A step of the hub that leaves the requests of approvals under way alone. -/
theorem Desk.Underway.withHub (h : s.Underway) (hchecked : ∀ summary, s.Knows summary →
      (s.withHub now hub).Knows summary)
    (hstep : ∀ approval ∈ s.unwritten, Transition now decides
      (s.hub.requests.lookup approval.1.requestId) (hub.requests.lookup approval.1.requestId))
    (hspares : s.Spares now decides) : (s.withHub now hub).Underway where
  checked summary hmem := hchecked summary (h.checked summary hmem)
  unwritten approval hmem :=
    have hbefore := h.unwritten approval hmem
    ⟨hbefore.1.step (hstep approval hmem) (hspares approval hmem), hbefore.2⟩
  distinct := h.distinct
  registrations id credential hmem :=
    (h.registrations id credential hmem).imp_right fun ⟨decidedAt, hending⟩ =>
      ⟨decidedAt, mem_withHub_endings hub hending⟩
  handed id credential hmem :=
    let ⟨decidedAt, hending⟩ := h.handed id credential hmem
    ⟨decidedAt, mem_withHub_endings hub hending⟩

theorem Desk.Underway.hubStep (h : s.Underway) (hstep : HubStep now decides s.hub hub)
    (hspares : s.Spares now decides) : (s.withHub now hub).Underway :=
  h.withHub (fun _ hknows => hknows.withHub hstep) (fun _ _ => hstep.requests _) hspares

theorem Desk.Underway.inserts (h : s.Underway) (ledger : s.Ledger)
    (hstep : Inserts now decides s.hub hub) (hroom : s.hub.nextRequestId.toNat < 2 ^ 64 - 1)
    (hspares : s.Spares now decides) : (s.withHub now hub).Underway := by
  refine h.withHub (fun _ hknows => hknows.inserts hstep hroom) (fun approval hmem => ?_) hspares
  obtain ⟨r, hstored, -, -⟩ := (h.unwritten approval hmem).1
  obtain @⟨requests, new, requestToken, htransitions, -, -, -⟩ := hstep
  have hne : approval.1.requestId ≠ s.hub.nextRequestId := by
    intro heq
    rw [heq, ledger.next_unissued.1] at hstored
    cases hstored
  rw [insertRequest, AList.lookup_insert_ne hne]
  exact htransitions _

/-- An approval that finds its request pending knows its summary. -/
theorem Desk.Ledger.knows {r : RegistrationRequestState} (ledger : s.Ledger)
    (hfound : s.hub.findPending id = .ok r) : s.Knows r.summary := by
  obtain ⟨hstored, -⟩ := findPending_eq_ok hfound
  have hid := ledger.numbers id r hstored
  refine ⟨hid.symm ▸ ledger.issued hstored, fun r' hstored' => ?_⟩
  rw [hid, hstored] at hstored'
  rw [Option.some.inj hstored']

theorem Desk.Underway.check (h : s.Underway) (hknows : s.Knows summary) :
    Desk.Underway { s with checked := summary :: s.checked } where
  checked := by
    rintro other (_ | ⟨_, hmem⟩)
    · exact hknows
    · exact h.checked other hmem
  unwritten := h.unwritten
  distinct := h.distinct
  registrations := h.registrations
  handed := h.handed

theorem Desk.Underway.hand (h : s.Underway) (decidedAt : UInt64)
    (hending : (id, .approved credential decidedAt) ∈ s.endings) :
    (s.hand id credential).Underway where
  checked := h.checked
  unwritten := h.unwritten
  distinct := h.distinct
  registrations := h.registrations
  handed id' credential' hmem := by
    obtain heq | hmem := List.mem_cons.mp hmem
    · cases heq
      exact ⟨decidedAt, hending⟩
    · exact h.handed id' credential' hmem

/-- What the other calls of the manager do is of no concern. -/
theorem Desk.Underway.withIdentities (h : s.Underway) {identities : IdentityManager}
    (hkept : ∀ appId, (s.identities.app? appId).isSome → (identities.app? appId).isSome) :
    Desk.Underway { s with identities := identities } where
  checked := h.checked
  unwritten approval hmem := (h.unwritten approval hmem).imp_right (hkept _)
  distinct := h.distinct
  registrations := h.registrations
  handed := h.handed

theorem madeRegistration_self (m : IdentityManager) (secret : AppSecret) :
    madeRegistration m m summary secret = [] := by
  rw [madeRegistration, if_neg]
  rintro ⟨hnone, hsome⟩
  rw [Option.isNone_iff_eq_none.mp hnone] at hsome
  cases hsome

/-- A registration that succeeds while its request is pending. -/
theorem Desk.Underway.registered (h : s.Underway) (hmem : summary ∈ s.checked)
    (hnone : s.identities.app? summary.appId = none) (hpending : s.isPending summary.requestId)
    (stored : StoredAppIdentity) (secret : AppSecret) :
    Desk.Underway
      { s with
        identities := ((s.identities.putApp summary.appId stored).persistLocked none
          (⟨summary.appId, secret, 1⟩ : AppCredential)).1
        checked := s.checked.erase summary
        registrations := madeRegistration s.identities
          ((s.identities.putApp summary.appId stored).persistLocked none
            (⟨summary.appId, secret, 1⟩ : AppCredential)).1 summary secret ++ s.registrations
        unwritten := (summary, ⟨summary.appId, secret, 1⟩) :: s.unwritten } where
  checked other hother := h.checked other (List.mem_of_mem_erase hother)
  unwritten := by
    rintro approval (_ | ⟨_, hmem'⟩)
    · obtain ⟨r, hstored, hr⟩ := hpending
      refine ⟨⟨r, hstored, hr, (h.checked summary hmem).2 r hstored⟩, ?_⟩
      rw [persistLocked_app?, putApp_app?_self]
      rfl
    obtain ⟨hawaits, hsome⟩ := h.unwritten approval hmem'
    refine ⟨hawaits, ?_⟩
    have hne : approval.1.appId ≠ summary.appId := by
      intro heq
      rw [heq, hnone] at hsome
      cases hsome
    rwa [persistLocked_app?, putApp_app?_of_ne s.identities stored hne]
  distinct := by
    refine List.nodup_cons.mpr ⟨fun hid => ?_, h.distinct⟩
    -- An approval of the same request would have registered the application.
    obtain ⟨approval, hmem', hid⟩ := List.mem_map.mp hid
    obtain ⟨⟨r, hstored, -, hsummary⟩, hsome⟩ := h.unwritten approval hmem'
    rw [hid] at hstored
    rw [← hsummary, (h.checked summary hmem).2 r hstored, hnone] at hsome
    cases hsome
  registrations id credential hmem' := by
    obtain hnew | hold := List.mem_append.mp hmem'
    · rw [madeRegistration] at hnew
      split at hnew
      case isTrue =>
        cases List.mem_singleton.mp hnew
        exact .inl ⟨summary, List.mem_cons_self, rfl⟩
      case isFalse => cases hnew
    · refine (h.registrations id credential hold).imp_left ?_
      rintro ⟨other, hother, rfl⟩
      exact ⟨other, List.mem_cons_of_mem _ hother, rfl⟩
  handed := h.handed

/-- A registration that is refused. -/
theorem Desk.Underway.unregistered (h : s.Underway) (summary : PendingAppRegistration)
    (secret : AppSecret) :
    Desk.Underway
      { s with
        checked := s.checked.erase summary
        registrations :=
          madeRegistration s.identities s.identities summary secret ++ s.registrations } where
  checked other hother := h.checked other (List.mem_of_mem_erase hother)
  unwritten := h.unwritten
  distinct := h.distinct
  registrations := by
    rw [madeRegistration_self]
    exact h.registrations
  handed := h.handed

/-- The write of the decision on a request that is pending. -/
theorem Desk.Awaits.finishApproval (h : s.Awaits summary) (credential : AppCredential)
    (now : UInt64) :
    ∃ r, s.hub.requests.lookup summary.requestId = some r ∧ r.isPending ∧
      s.hub.finishApproval summary.requestId credential now =
        ({ s.hub with
            requests := s.hub.requests.insert summary.requestId
              (r.decide (.approved credential now)) }, .ok ()) := by
  obtain ⟨r, hstored, hpending, -⟩ := h
  refine ⟨r, hstored, hpending, ?_⟩
  rw [AppRegistrationHub.finishApproval, hstored]

theorem Desk.Underway.finished (h : s.Underway) (hmem : (summary, credential) ∈ s.unwritten)
    {hub : AppRegistrationHub}
    (hwritten : s.hub.finishApproval summary.requestId credential now = (hub, .ok ())) :
    Desk.Underway (Desk.hand
      { s.withHub now hub with unwritten := s.unwritten.erase (summary, credential) }
      summary.requestId credential) := by
  obtain ⟨r, hstored, hpending, hfinish⟩ := (h.unwritten _ hmem).1.finishApproval credential now
  obtain rfl : _ = hub := congrArg Prod.fst (hfinish.symm.trans hwritten)
  have hstep : HubStep now (fun _ => True) s.hub _ :=
    hubStep_finishApproval s.hub summary.requestId credential now fun r' hr' => by
      cases hstored.symm.trans hr'
      exact ⟨hpending, trivial⟩
  rw [hfinish] at hstep
  have hending : (summary.requestId, Ending.approved credential now) ∈ newEndings s.hub.requests
        (s.hub.requests.insert summary.requestId (r.decide (.approved credential now))) := by
    refine mem_newEndings.mpr ⟨r, hstored, ?_⟩
    rw [AList.lookup_insert]
    simp [RegistrationRequestState.ending?, RegistrationRequestState.decide,
      of_decide_eq_true hpending]
  have hothers : ∀ approval ∈ s.unwritten.erase (summary, credential),
      approval.1.requestId ≠ summary.requestId := by
    intro approval happroval heq
    have hperm := (List.perm_cons_erase hmem).map fun a => a.1.requestId
    have hnodup := (hperm.nodup_iff.mp h.distinct)
    rw [List.map_cons, List.nodup_cons] at hnodup
    exact hnodup.1 (heq ▸ List.mem_map_of_mem happroval)
  refine Desk.Underway.hand ⟨?_, ?_, ?_, ?_, ?_⟩ now ?_
  · exact fun other hother => (h.checked other hother).withHub hstep
  · intro approval happroval
    obtain ⟨⟨r', hstored', hpending', hsummary⟩, hsome⟩ :=
      h.unwritten approval (List.mem_of_mem_erase happroval)
    refine ⟨⟨r', ?_, hpending', hsummary⟩, hsome⟩
    exact (AList.lookup_insert_ne (hothers approval happroval)).trans hstored'
  · exact h.distinct.sublist ((List.erase_sublist).map _)
  · intro id' credential' hmem'
    obtain ⟨other, hother, rfl⟩ | ⟨decidedAt, hold⟩ := h.registrations id' credential' hmem'
    · by_cases heq : (other, credential') = (summary, credential)
      · cases heq
        exact .inr ⟨now, List.mem_append_right _ hending⟩
      · exact .inl ⟨other, (List.mem_erase_of_ne heq).mpr hother, rfl⟩
    · exact .inr ⟨decidedAt, List.mem_append_left _ hold⟩
  · intro id' credential' hmem'
    obtain ⟨decidedAt, hold⟩ := h.handed id' credential' hmem'
    exact ⟨decidedAt, List.mem_append_left _ hold⟩
  · exact List.mem_append_right _ hending

end Underway

/-! ## The number of stored requests -/

/-- One pending request for each application, and not too many of them or of results. -/
structure Stocked (limit : Nat) (requests : Requests) : Prop where
  pending : requests.count RegistrationRequestState.isPending ≤ maxPendingRegistrationRequests
  decided : requests.count (fun r => !r.isPending) ≤ limit
  single : ∀ id id' r r', requests.lookup id = some r → requests.lookup id' = some r' →
    r.isPending → r'.isPending → r.summary.appId = r'.summary.appId → id = id'

section Stocked

variable {limit : Nat} {before after : Requests} {now : UInt64}
  {decides : RegistrationRequestState → Prop}

theorem Stocked.length_le (h : Stocked limit before) :
    before.entries.length ≤ maxPendingRegistrationRequests + limit := by
  rw [← before.count_add_count_not RegistrationRequestState.isPending]
  exact Nat.add_le_add h.pending h.decided

/-- No more results are stored than before, if nothing is decided. -/
theorem AppRegistrationHub.Transitions.decided_le (h : Transitions now decides before after)
    (hnone : ¬ ∃ id, ∃ r ∈ before.lookup id, r.isPending ∧ decides r) :
    after.count (fun r => !r.isPending) ≤ before.count fun r => !r.isPending := by
  refine AList.count_le_count fun id r' hafter hdecided => ?_
  have htransition := h id
  rw [hafter] at htransition
  generalize hx : before.lookup id = x at htransition
  cases htransition with
  | kept => exact ⟨r', rfl, hdecided⟩
  | decided hpending hdecides _ => exact absurd ⟨id, _, hx, hpending, hdecides⟩ hnone

/-- One more result is stored, if one request is decided. -/
theorem AppRegistrationHub.Transitions.decided_le_succ (h : Transitions now decides before after)
    (id : UInt64) (r : RegistrationRequestState)
    (hsingle : ∀ id' r', before.lookup id' = some r' → r'.isPending → decides r' → id' = id) :
    after.count (fun r => !r.isPending) ≤ before.count (fun r => !r.isPending) + 1 := by
  let rejected := r.decide (.rejected "" 0)
  refine le_trans ?_ (AList.count_insert_le (fun r => !r.isPending) before id rejected)
  refine AList.count_le_count fun id' r' hafter hdecided => ?_
  by_cases hid : id' = id
  · subst hid
    exact ⟨rejected, AList.lookup_insert _, rfl⟩
  rw [AList.lookup_insert_ne hid]
  have htransition := h id'
  rw [hafter] at htransition
  generalize hx : before.lookup id' = x at htransition
  cases htransition with
  | kept => exact ⟨r', rfl, hdecided⟩
  | decided hpending' hdecides _ => exact absurd (hsingle id' _ hx hpending' hdecides) hid

theorem Stocked.transitions (h : Stocked limit before)
    (htransitions : Transitions now decides before after)
    (hsingle : ∀ id id' r r', before.lookup id = some r → before.lookup id' = some r' →
      r.isPending → r'.isPending → decides r → decides r' → id = id')
    (hroom : (∃ id, ∃ r ∈ before.lookup id, r.isPending ∧ decides r) →
      before.count (fun r => !r.isPending) < limit) : Stocked limit after where
  pending := by
    refine le_trans (AList.count_le_count fun id r hafter hpending => ?_) h.pending
    have htransition := htransitions id
    rw [hafter] at htransition
    exact ⟨r, htransition.of_pending hpending, hpending⟩
  decided := by
    by_cases hdecided : ∃ id, ∃ r ∈ before.lookup id, r.isPending ∧ decides r
    · have hlt := hroom hdecided
      obtain ⟨id, r, hstored, hpending, hdecides⟩ := hdecided
      refine (htransitions.decided_le_succ id r ?_).trans hlt
      exact fun id' r' hstored' hpending' hdecides' =>
        hsingle id' id r' r hstored' hstored hpending' hpending hdecides' hdecides
    · exact (htransitions.decided_le hdecided).trans h.decided
  single id id' r r' hafter hafter' hpending hpending' := by
    have htransition := htransitions id
    have htransition' := htransitions id'
    rw [hafter] at htransition
    rw [hafter'] at htransition'
    exact h.single id id' r r' (htransition.of_pending hpending)
      (htransition'.of_pending hpending') hpending hpending'

/-- A step that decides nothing. -/
theorem Stocked.spared (h : Stocked limit before)
    (htransitions : Transitions now (fun _ => False) before after) : Stocked limit after :=
  h.transitions htransitions (fun _ _ _ _ _ _ _ _ hdecides => hdecides.elim)
    fun ⟨_, _, _, _, hdecides⟩ => hdecides.elim

theorem Stocked.insert (h : Stocked limit before) {summary : PendingAppRegistration}
    (id : UInt64) (requestToken : RequestToken)
    (hsingle : ∀ id r, before.lookup id = some r → r.isPending → r.summary.appId ≠ summary.appId)
    (hcount : before.count RegistrationRequestState.isPending < maxPendingRegistrationRequests) :
    Stocked limit (before.insert id ⟨summary, requestToken, .pending⟩) where
  pending := (AList.count_insert_le _ before id _).trans hcount
  decided := (AList.count_insert_of_not _ before id rfl).trans h.decided
  single i j r r' hi hj hpending hpending' happ := by
    obtain ⟨rfl, rfl⟩ | ⟨-, hi'⟩ := AList.of_lookup_insert hi
    · obtain ⟨rfl, -⟩ | ⟨-, hj'⟩ := AList.of_lookup_insert hj
      · rfl
      · exact absurd happ.symm (hsingle j r' hj' hpending')
    obtain ⟨rfl, rfl⟩ | ⟨-, hj'⟩ := AList.of_lookup_insert hj
    · exact absurd happ (hsingle i r hi' hpending)
    · exact h.single i j r r' hi' hj' hpending hpending' happ

end Stocked

/-! ## Runs that meet the condition -/

/-- What every step that meets the condition keeps. -/
structure Desk.Sound (limit : Nat) (s : Desk) : Prop where
  ledger : s.Ledger
  underway : s.Underway
  stocked : Stocked limit s.hub.requests

section Sound

variable {Proof : Type} [DecidableEq Proof] {hmac : AppSecret → Bytes → Proof} {limit : Nat}
  {s t : Desk} {now : UInt64} {hub : AppRegistrationHub}

theorem Desk.Sound.start (limit : Nat) (identities : IdentityManager) :
    (Desk.start identities).Sound limit where
  ledger :=
    { positive := UInt64.le_refl 1
      numbers := fun _ _ h => nomatch h
      recorded := fun id hle hlt => by
        have hid : id < 1 := hlt
        rw [UInt64.le_iff_toNat_le] at hle
        rw [UInt64.lt_iff_toNat_lt] at hid
        omega
      unissued := fun _ _ => ⟨rfl, rfl⟩ }
  underway := ⟨nofun, nofun, .nil, nofun, nofun⟩
  stocked := ⟨Nat.zero_le _, Nat.zero_le _, nofun⟩

theorem Desk.Sound.hubStep {decides : RegistrationRequestState → Prop} (sound : s.Sound limit)
    (hstep : HubStep now decides s.hub hub) (hspares : s.Spares now decides)
    (hstocked : Stocked limit hub.requests) : (s.withHub now hub).Sound limit where
  ledger := sound.ledger.withHub hstep
  underway := sound.underway.hubStep hstep hspares
  stocked := hstocked

theorem Desk.Sound.cleanup (sound : s.Sound limit) (hspares : s.Spares now fun _ => False) :
    (s.withHub now (s.hub.cleanupRegistrationRequests now)).Sound limit :=
  have hstep := hubStep_cleanup s.hub now
  sound.hubStep hstep hspares (sound.stocked.spared hstep.requests)

omit [DecidableEq Proof] in
theorem Desk.Sound.request (sound : s.Sound limit) {appId : AppId} {displayName : String}
    {requestedCapabilities : AppCapabilitySet} {requestToken : RequestToken}
    (hguard : s.Orderly limit (.request appId displayName requestedCapabilities requestToken now
      : DeskLabel Proof)) :
    (s.withHub now
      (s.hub.request appId displayName requestedCapabilities requestToken now).1).Sound limit := by
  obtain ⟨hspares, hroom, hlimit⟩ := hguard
  have hstocked : ∀ {after : Requests}, Transitions now
      (fun r => r.summary.appId = appId ∧ r.requestToken ≠ requestToken) s.hub.requests after →
        Stocked limit after := by
    intro after htransitions
    refine sound.stocked.transitions htransitions ?_ hlimit
    intro id id' r r' hid hid' hpending hpending' hdecides hdecides'
    exact sound.stocked.single id id' r r' hid hid' hpending hpending'
      (hdecides.1.trans hdecides'.1.symm)
  obtain hstep | hinserts := request_cases s.hub appId displayName requestedCapabilities
    requestToken now fun r happ htoken => (⟨happ, htoken⟩ : _ ∧ _)
  · exact sound.hubStep hstep hspares (hstocked hstep.requests)
  refine ⟨sound.ledger.inserts hinserts hroom,
    sound.underway.inserts sound.ledger hinserts hroom hspares, ?_⟩
  rw [Desk.withHub]
  generalize (s.hub.request appId displayName requestedCapabilities requestToken now).1 = hub
    at hinserts
  obtain @⟨requests, summary, token, htransitions, -, hsingle, hcount⟩ := hinserts
  exact (hstocked htransitions).insert _ _ hsingle hcount

section

variable (sound : s.Sound limit)

include sound

omit [DecidableEq Proof] in
theorem Desk.Sound.reject {requestId : UInt64} {reason : String}
    (hguard : s.Orderly limit (.reject requestId reason now : DeskLabel Proof)) :
    (s.withHub now (s.hub.reject requestId reason now).1).Sound limit := by
  obtain ⟨hspares, hlimit⟩ := hguard
  have hnumbers := sound.ledger.numbers
  have hstep : HubStep now (fun r => r.summary.requestId = requestId) s.hub
      (s.hub.reject requestId reason now).1 :=
    hubStep_reject s.hub requestId reason now (hnumbers requestId)
  refine sound.hubStep hstep hspares (sound.stocked.transitions hstep.requests ?_ ?_)
  · intro id id' r r' hid hid' _ _ hdecides hdecides'
    rw [← hnumbers id r hid, ← hnumbers id' r' hid', hdecides, hdecides']
  · rintro ⟨id, r, hstored, hpending, hdecides⟩
    have hid := (hnumbers id r hstored).symm.trans hdecides
    exact hlimit ⟨r, hid ▸ hstored, hpending⟩

theorem Desk.Sound.finish {summary : PendingAppRegistration}
    {credential : AppCredential} (hmem : (summary, credential) ∈ s.unwritten)
    (hguard : s.Orderly limit (.finishApproval summary credential now : DeskLabel Proof))
    (hnext : s.next hmac (.finishApproval summary credential now) = some t) : t.Sound limit := by
  obtain ⟨r, hstored, hpending, hfinish⟩ :=
    (sound.underway.unwritten _ hmem).1.finishApproval credential now
  have hstep : HubStep now (fun r => r.summary.requestId = summary.requestId) s.hub
      (s.hub.finishApproval summary.requestId credential now).1 :=
    hubStep_finishApproval s.hub summary.requestId credential now fun r' hr' => by
      cases hstored.symm.trans hr'
      exact ⟨hpending, sound.ledger.numbers _ _ hr'⟩
  have hnumbers := sound.ledger.numbers
  rw [Desk.next, if_pos hmem, hfinish] at hnext
  cases hnext
  rw [hfinish] at hstep
  have hledger := sound.ledger.withHub hstep
  refine ⟨hledger.congr rfl rfl rfl, sound.underway.finished hmem hfinish, ?_⟩
  refine sound.stocked.transitions hstep.requests ?_ fun _ => hguard ⟨r, hstored, hpending⟩
  intro id id' r r' hid hid' _ _ hdecides hdecides'
  rw [← hnumbers id r hid, ← hnumbers id' r' hid', hdecides, hdecides']

theorem Desk.Sound.register {summary : PendingAppRegistration}
    {secret : AppSecret} {fault : Option String} (hmem : summary ∈ s.checked)
    (hguard : s.Orderly limit (.register summary secret now fault : DeskLabel Proof))
    (hnext : s.next hmac (.register summary secret now fault) = some t) : t.Sound limit := by
  rw [Desk.next, if_pos hmem] at hnext
  obtain ⟨error, hrefused⟩ | ⟨hnone, stored, hregistered⟩ :=
    registerApproved_cases s.identities summary secret now fault
  · rw [hrefused] at hnext
    cases hnext
    exact ⟨sound.ledger.congr rfl rfl rfl, sound.underway.unregistered summary secret,
      sound.stocked⟩
  · obtain ⟨rfl, hpending⟩ := hguard hnone
    rw [hregistered] at hnext
    cases hnext
    exact ⟨sound.ledger.congr rfl rfl rfl,
      sound.underway.registered hmem hnone hpending stored secret, sound.stocked⟩

theorem Desk.Sound.status {requestId : UInt64}
    {requestToken : RequestToken} (hspares : s.Spares now fun _ => False)
    (hnext : s.next hmac (.status requestId requestToken now) = some t) : t.Sound limit := by
  have hafter := sound.cleanup hspares
  rw [Desk.next] at hnext
  dsimp only at hnext
  rw [status_fst] at hnext
  cases hresult : (s.hub.status requestId requestToken now).2 with
  | error error =>
    rw [hresult] at hnext
    cases hnext
    exact hafter
  | ok snapshot =>
    rw [hresult] at hnext
    cases snapshot with
    | approved credential summary =>
      cases hnext
      obtain ⟨r, decidedAt, hstored, hdecision⟩ := status_eq_approved hresult
      obtain ⟨hle, hlt⟩ := sound.ledger.issued hstored
      have hending : (requestId, .approved credential decidedAt) ∈ s.endings :=
        (sound.ledger.recorded requestId hle hlt).approved r hstored credential decidedAt hdecision
      exact ⟨hafter.ledger.congr rfl rfl rfl,
        hafter.underway.hand decidedAt (mem_withHub_endings _ hending), hafter.stocked⟩
    | pending =>
      cases hnext
      exact hafter
    | rejected reason =>
      cases hnext
      exact hafter
    | expired =>
      cases hnext
      exact hafter

theorem Desk.Sound.step (label : DeskLabel Proof)
    (hguard : s.Orderly limit label) (hnext : s.next hmac label = some t) : t.Sound limit := by
  cases label with
  | request appId displayName requestedCapabilities requestToken now =>
    cases hnext
    exact sound.request hguard
  | pending now =>
    cases hnext
    exact sound.cleanup hguard
  | beginApproval requestId now =>
    have hafter := sound.cleanup hguard
    rw [Desk.next, beginApproval] at hnext
    dsimp only at hnext
    cases hfound : (s.hub.cleanupRegistrationRequests now).findPending requestId with
    | error error =>
      rw [hfound] at hnext
      cases hnext
      exact hafter
    | ok r =>
      rw [hfound] at hnext
      cases hnext
      have hknows := hafter.ledger.knows hfound
      exact ⟨hafter.ledger.congr rfl rfl rfl, hafter.underway.check hknows, hafter.stocked⟩
  | register summary secret now fault =>
    by_cases hmem : summary ∈ s.checked
    · exact sound.register hmem hguard hnext
    · rw [Desk.next, if_neg hmem] at hnext
      cases hnext
  | finishApproval summary credential now =>
    by_cases hmem : (summary, credential) ∈ s.unwritten
    · exact sound.finish hmem hguard hnext
    · rw [Desk.next, if_neg hmem] at hnext
      cases hnext
  | reject requestId reason now =>
    cases hnext
    exact sound.reject hguard
  | status requestId requestToken now =>
    exact sound.status hguard hnext
  | identities call =>
    by_cases hrestart : call = .restart
    · subst hrestart
      cases hnext
    have hmap : (s.identities.exec hmac call).map
        (fun p => { s with identities := p.1 }) = some t := by
      cases call with
      | restart => exact absurd rfl hrestart
      | _ => exact hnext
    obtain ⟨⟨identities, outcome⟩, hexec, rfl⟩ := Option.map_eq_some_iff.mp hmap
    have hkept : ∀ appId, (s.identities.app? appId).isSome → (identities.app? appId).isSome :=
      fun _ => exec_registered hexec hrestart
    exact ⟨sound.ledger.congr rfl rfl rfl, sound.underway.withIdentities hkept, sound.stocked⟩

theorem Desk.Sound.count_le_one (id : UInt64) : (s.endings.map Prod.fst).count id ≤ 1 := by
  by_cases hissued : 1 ≤ id ∧ id < s.hub.nextRequestId
  · have hrecorded := sound.ledger.recorded id hissued.1 hissued.2
    by_cases hpending : ∃ r ∈ s.hub.requests.lookup id, r.isPending
    · rw [hrecorded.pending hpending]
      exact Nat.zero_le 1
    · rw [hrecorded.ended hpending]
  · rw [(sound.ledger.unissued id hissued).2]
    exact Nat.zero_le 1

theorem Desk.Sound.settled : s.Settled limit where
  path id hle hlt := by
    have hrecorded := sound.ledger.recorded id hle hlt
    by_cases hpending : s.isPending id
    · exact .inl ⟨hpending, hrecorded.pending hpending⟩
    · exact .inr ⟨hpending, hrecorded.ended hpending⟩
  handed := sound.underway.handed
  refused id credential hrejected hhanded := by
    obtain ⟨decidedAt, happroved⟩ := sound.underway.handed id credential hhanded
    have hnodup := List.nodup_iff_count_le_one.mpr sound.count_le_one
    have heq := List.inj_on_of_nodup_map hnodup hrejected happroved rfl
    cases heq
  registered id credential hregistration := by
    obtain hunderway | ⟨decidedAt, hending⟩ :=
      sound.underway.registrations id credential hregistration
    · exact .inl hunderway
    refine .inr ⟨decidedAt, hending, ?_⟩
    obtain ⟨hle, hlt⟩ : 1 ≤ id ∧ id < s.hub.nextRequestId := by
      by_contra hnot
      exact List.count_eq_zero.mp (sound.ledger.unissued id hnot).2
        (List.mem_map_of_mem (f := Prod.fst) hending)
    refine ((sound.ledger.recorded id hle hlt).result credential decidedAt hending).imp_left ?_
    rintro ⟨r, hstored, hdecision⟩
    exact ⟨r, hstored, fun now hnow => status_approved hstored hdecision hnow⟩
  bounded := sound.stocked.length_le

end

end Sound

namespace RegistrationSample

def hmac : AppSecret → Bytes → Unit := fun _ _ => ()

def secret : AppSecret := ⟨List.replicate 32 17, rfl⟩

def token (n : Nat) : RequestToken :=
  ⟨List.replicate 32 (UInt8.ofNat (n % 2)), List.length_replicate⟩

def identities : IdentityManager where
  inner := { store := .default, pendingChallenges := ∅, activeSessions := ∅ }
  disk := none

def credential : AppCredential := ⟨"calc", secret, 1⟩

def summary : PendingAppRegistration where
  requestId := 1
  appId := "calc"
  displayName := "Calculator"
  requestedCapabilities := []
  requestedAt := 1000
  expiresAt := 1900

/-- The request of an application with a token. -/
def ask (n : Nat) : DeskLabel Unit := .request "calc" "Calculator" ∅ (token n) 1000

def asked : Desk := ((Desk.start identities).next hmac (ask 0)).get (by decide +kernel)

def checked : Desk := (asked.next hmac (.beginApproval 1 1000)).get (by decide +kernel)

def registered : Desk := (checked.next hmac (.register summary secret 1000 none)).get
  (by decide +kernel)

def approved : Desk := (registered.next hmac (.finishApproval summary credential 1000)).get
  (by decide +kernel)

/-- The request is rejected before its approval registers the application. -/
def overtaken : Desk :=
  (LabelledSystem.run (Desk.next hmac) checked
    [.reject 1 "" 1000, .register summary secret 1000 none, .finishApproval summary credential 1000,
      .status 1 (token 0) 1000]).get (by decide +kernel)

/-- The request expires before the decision on it is written. -/
def expired : Desk :=
  (LabelledSystem.run (Desk.next hmac) registered
    [.pending 1900, .finishApproval summary credential 1900]).get (by decide +kernel)

theorem checked_reachable : (deskSystem hmac).Reachable checked := .next (.beginApproval 1 1000)
    (.next (ask 0) (.start ⟨identities, rfl⟩) (Option.some_get _).symm) (Option.some_get _).symm

theorem overtaken_reachable : (deskSystem hmac).Reachable overtaken :=
  checked_reachable.of_run (fun _ _ _ hnext => hnext) (Option.some_get _).symm

theorem expired_reachable : (deskSystem hmac).Reachable expired :=
  .of_run (fun _ _ _ hnext => hnext)
    (.next (.register summary secret 1000 none) checked_reachable (Option.some_get _).symm)
    (Option.some_get _).symm

/-! ### Requests that supersede each other -/

/-- Some requests of one application, of which the last is pending. -/
structure Flooded (n : Nat) (hub : AppRegistrationHub) : Prop where
  number : hub.nextRequestId.toNat = n + 1
  length : hub.requests.entries.length = n
  ids : ∀ id r, hub.requests.lookup id = some r → id.toNat ≤ n
  requests : ∀ id r, hub.requests.lookup id = some r →
    r.summary.appId = "calc" ∧ r.isKept 1000 ∧ (r.isPending → r.requestToken ≠ token n)

theorem token_ne_succ (n : Nat) : token n ≠ token (n + 1) := by
  intro h
  have hhead : UInt8.ofNat (n % 2) = UInt8.ofNat ((n + 1) % 2) :=
    (List.replicate_inj.mp (congrArg Subtype.val h)).2.resolve_left (by decide)
  obtain heven | hodd := Nat.mod_two_eq_zero_or_one n
  · rw [heven, show (n + 1) % 2 = 1 by omega] at hhead
    cases hhead
  · rw [hodd, show (n + 1) % 2 = 0 by omega] at hhead
    cases hhead

theorem Flooded.next {n : Nat} {hub : AppRegistrationHub} (h : Flooded n hub)
    (hroom : n + 1 < 2 ^ 64 - 1) :
    Flooded (n + 1) (hub.request "calc" "Calculator" ∅ (token n) 1000).1 := by
  have hresult : (1000 : UInt64) < saturatingAdd 1000 registrationResultTtlSecs := by
    decide +kernel
  have hrequest : (1000 : UInt64) < saturatingAdd 1000 registrationRequestTtlSecs := by
    decide +kernel
  have hcleanup : hub.cleanupRegistrationRequests 1000 = hub := by
    have hkept : (hub.requests.filterEntries fun _ r => r.isKept 1000) = hub.requests :=
      AList.filterEntries_eq_self fun e he =>
        (h.requests e.1 e.2 (AList.mem_lookup_iff.mpr he)).2.1
    rw [cleanupRegistrationRequests, hkept]
  have hnew : hub.repeated? "calc" (token n) = none := by
    refine List.find?_eq_none.mpr fun r hr hrepeats => ?_
    obtain ⟨e, he, rfl⟩ := List.mem_map.mp hr
    have hrequest := (h.requests e.1 e.2 (AList.mem_lookup_iff.mpr he)).2.2
    obtain ⟨-, htoken, hpending⟩ := of_decide_eq_true hrepeats
    exact hrequest hpending htoken
  have hdecided : ∀ id r, (hub.supersede "calc" 1000).requests.lookup id = some r →
      id.toNat ≤ n ∧ r.summary.appId = "calc" ∧ r.isKept 1000 ∧ r.isPending = false := by
    intro id r hstored
    have hpending : r.isPending → r.summary.appId ≠ "calc" := not_pending_of_superseded hstored
    rw [supersede, AList.lookup_mapEntries, Option.map_eq_some_iff] at hstored
    obtain ⟨before, hbefore, rfl⟩ := hstored
    obtain ⟨happ, hkept, -⟩ := h.requests id before hbefore
    refine ⟨h.ids id before hbefore, ?_⟩
    split
    case isTrue => exact ⟨happ, decide_eq_true hresult, rfl⟩
    case isFalse hnot =>
      exact ⟨happ, hkept, Bool.eq_false_iff.mpr fun hp => hnot ⟨happ, hp⟩⟩
  have hcount : ¬ (hub.supersede "calc" 1000).requests.count RegistrationRequestState.isPending ≥
      maxPendingRegistrationRequests := by
    have hzero : (hub.supersede "calc" 1000).requests.count
        RegistrationRequestState.isPending = 0 := by
      refine List.countP_eq_zero.mpr fun e he => ?_
      rw [(hdecided e.1 e.2 (AList.mem_lookup_iff.mpr he)).2.2.2]
      exact Bool.false_ne_true
    rw [hzero]
    decide
  have hcheck : checkRequest (Text.trim "Calculator") ∅ = .ok () := by decide +kernel
  have hfresh : hub.nextRequestId ∉ (hub.supersede "calc" 1000).requests := by
    intro hmem
    obtain ⟨r, hstored⟩ := Option.isSome_iff_exists.mp (AList.lookup_isSome.mpr hmem)
    have hle := (hdecided _ r hstored).1
    rw [h.number] at hle
    omega
  rw [request, hcheck]
  dsimp only
  rw [hcleanup, hnew]
  rw [if_neg hcount]
  refine ⟨?_, ?_, fun id r hstored => ?_, fun id r hstored => ?_⟩
  · have hnumber : hub.nextRequestId.toNat < 2 ^ 64 - 1 := by rwa [h.number]
    exact (next_number hnumber).trans (by rw [h.number])
  · have hlength : (hub.supersede "calc" 1000).requests.entries.length = n := by
      rw [← h.length]
      exact List.length_map _
    rw [← hlength]
    exact congrArg List.length (AList.entries_insert_of_notMem hfresh)
  all_goals
    by_cases hid : id = hub.nextRequestId
  · rw [hid, h.number]
  · have hbefore := (AList.lookup_insert_ne hid).symm.trans hstored
    exact (hdecided id r hbefore).1.trans (Nat.le_succ n)
  · subst hid
    cases (AList.lookup_insert _).symm.trans hstored
    exact ⟨rfl, decide_eq_true hrequest, fun _ => token_ne_succ n⟩
  · have hbefore := (AList.lookup_insert_ne hid).symm.trans hstored
    obtain ⟨-, happ, hkept, hpending⟩ := hdecided id r hbefore
    exact ⟨happ, hkept, fun hp => by rw [hpending] at hp; cases hp⟩

theorem exists_flooded (n : Nat) (hroom : n < 2 ^ 64 - 1) :
    ∃ s, (deskSystem hmac).Reachable s ∧ Flooded n s.hub := by
  induction n with
  | zero =>
    refine ⟨.start identities, .start ⟨identities, rfl⟩, rfl, rfl, nofun, nofun⟩
  | succ n ih =>
    obtain ⟨s, hreached, hflooded⟩ := ih (by omega)
    exact ⟨_, .next (ask n) hreached rfl, hflooded.next hroom⟩

end RegistrationSample

end VeilKnit.Api
