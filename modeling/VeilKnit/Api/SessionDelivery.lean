import VeilKnit.Api.Connections
import VeilKnit.Identity.Sessions

/-!
# What is delivered for a session

A request is authenticated once, when its processing begins. Its result is written later, and the
result of a subscription goes on being written for as long as the client listens: nothing looks at
the session again. A session that is ended, by an edit of its application, by a revocation or by
its age, goes on being served what it has subscribed to.

Where no session ends while something is open for it, everything that is delivered is for a session
that has been earned and has not ended since.
-/

namespace VeilKnit.Api

open Library Types Identity IdentityManager

/-- The capability that a subscription takes. -/
def ApiRequest.subscriptionNeeds : ApiRequest → Option AppCapability
  | .subscribeEvents => some .subscribeNetworkStatus
  | .subscribeMessages => some .receiveMessages
  | .subscribeServiceRequests => some .receiveMessages
  | .subscribeGossip => some .receiveMessages
  | .subscribeStreams => some .receiveMessages
  | _ => none

/-- A request that has passed its checks, and whose result is to be written or is being written. -/
structure Serving where
  request : ApiRequest
  session : AuthenticatedAppSession
  deriving DecidableEq

/-- Something has been written for a session: when, and after which calls of the manager. -/
structure Delivery (Proof : Type) where
  serving : Serving
  writtenAt : UInt64
  calls : List (Call Proof × Outcome)

/-- The identity manager with its calls, the clock, the open requests and what has been written. -/
structure DeliveryRun (Proof : Type) where
  identity : IdentityRun Proof
  clock : UInt64
  opened : List Serving
  delivered : List (Delivery Proof)

/-- A call of the manager; the clock; a request, with its token and the capability that it takes
unless it is a subscription; a line that is written for an open request; the end of one. -/
inductive DeliveryLabel (Proof : Type)
  | call (call : Call Proof)
  | tick (now : UInt64)
  | serve (request : ApiRequest) (token : AppSessionToken) (needs : Option AppCapability)
  | deliver (serving : Serving)
  | close (serving : Serving)

section Runs

variable {Proof : Type} [DecidableEq Proof] (hmac : AppSecret → Bytes → Proof)

/-- A request is open when it has been authenticated and its session has the capability. -/
def open? (request : ApiRequest) (needs : Option AppCapability) :
    Outcome → Option Serving
  | .session session =>
    if ∀ capability ∈ request.subscriptionNeeds <|> needs, capability ∈ session.capabilities then
      some ⟨request, session⟩
    else none
  | _ => none

/-- A restart of the manager is one of the process, in which the connections end. A result other
than a subscription is written once. -/
def DeliveryRun.next (run : DeliveryRun Proof) : DeliveryLabel Proof → Option (DeliveryRun Proof)
  | .call .restart =>
    (run.identity.next hmac .restart).map fun identity =>
      { run with identity := identity, opened := [] }
  | .call call =>
    (run.identity.next hmac call).map fun identity => { run with identity := identity }
  | .tick now => if run.clock ≤ now then some { run with clock := now } else none
  | .serve request token needs =>
    let p := Outcome.of .session (run.identity.manager.authenticateSession token run.clock)
    some
      { run with
        identity := ⟨p.1, (.authenticate token run.clock, p.2) :: run.identity.log⟩
        opened := (open? request needs p.2).toList ++ run.opened }
  | .deliver serving =>
    if serving ∈ run.opened then
      some
        { run with
          opened :=
            if streams (serving.request.process true) then run.opened
            else run.opened.erase serving
          delivered := ⟨serving, run.clock, run.identity.log⟩ :: run.delivered }
    else none
  | .close serving => some { run with opened := run.opened.erase serving }

def deliverySystem : LabelledSystem (DeliveryRun Proof) (DeliveryLabel Proof) where
  initial run := (identitySystem hmac).initial run.identity ∧ run.opened = [] ∧ run.delivered = []
  step run label run' := run.next hmac label = some run'

end Runs

/-- The session had been earned and had not ended, by a call or by its age. -/
def Delivery.InTime {Proof : Type} (d : Delivery Proof) : Prop :=
  d.writtenAt < d.serving.session.expiresAt ∧ ∃ challenge response later earlier,
      Earned d.calls d.serving.session.sessionToken d.serving.session.toActiveAppSession challenge
        response later earlier

/-- The condition: no session ends, by a call or by its age, while something is open for it. -/
def DeliveryRun.Unhurried {Proof : Type} (run : DeliveryRun Proof) : DeliveryLabel Proof → Prop
  | .call call => call = .restart ∨
      ∀ serving ∈ run.opened,
        ¬ call.Ends serving.session.sessionToken serving.session.toActiveAppSession
  | .tick now => ∀ serving ∈ run.opened, now < serving.session.expiresAt
  | _ => True

section Invariant

variable {Proof : Type} [DecidableEq Proof] {hmac : AppSecret → Bytes → Proof}
  {run run' : DeliveryRun Proof}

/-- The session of every open request is active, and what has been written was in time. -/
structure DeliveryRun.Current (hmac : AppSecret → Bytes → Proof) (run : DeliveryRun Proof) :
    Prop where
  identity : (identitySystem hmac).Reachable run.identity
  active : ∀ serving ∈ run.opened,
    run.identity.manager.inner.activeSessions.lookup serving.session.sessionToken =
        some serving.session.toActiveAppSession ∧
      run.clock < serving.session.expiresAt
  delivered : ∀ d ∈ run.delivered, d.InTime

variable {needs : Option AppCapability} {request : ApiRequest}

theorem open?_eq_some {outcome : Outcome}
    {serving : Serving} (h : open? request needs outcome = some serving) :
    outcome = .session serving.session := by
  cases outcome with
  | session session =>
    rw [open?] at h
    split at h
    case isTrue =>
      cases h
      rfl
    case isFalse => cases h
  | _ => cases h

/-- A call that ends no session that something is open for. -/
theorem DeliveryRun.Current.call (current : run.Current hmac) (call : Call Proof)
    {identity : IdentityRun Proof} (hnext : run.identity.next hmac call = some identity)
    (hends : ∀ serving ∈ run.opened,
      ¬ call.Ends serving.session.sessionToken serving.session.toActiveAppSession) :
    DeliveryRun.Current hmac { run with identity := identity } where
  identity := current.identity.next call hnext
  active serving hmem := by
    obtain ⟨hactive, hclock⟩ := current.active serving hmem
    obtain ⟨⟨manager, outcome⟩, hexec, rfl⟩ := Option.map_eq_some_iff.mp hnext
    exact ⟨exec_keeps_session hexec hactive (hends serving hmem), hclock⟩
  delivered := current.delivered

variable {token : AppSessionToken}

omit [DecidableEq Proof] in
theorem authenticated_of_outcome {m : IdentityManager} {now : UInt64}
    {session : AuthenticatedAppSession}
    (h : (Outcome.of .session (m.authenticateSession token now)).2 = .session session) :
    m.inner.activeSessions.lookup session.sessionToken = some session.toActiveAppSession ∧
      now < session.expiresAt := by
  have hok : (m.authenticateSession token now).2 = .ok session := by
    generalize m.authenticateSession token now = p at h ⊢
    obtain ⟨m', result⟩ := p
    cases result with
    | ok value => exact congrArg Except.ok (Outcome.session.inj h)
    | error error => cases h
  obtain ⟨hlookup, htoken, hexpires⟩ := authenticate_eq_ok hok
  exact ⟨htoken ▸ hlookup, hexpires⟩

theorem DeliveryRun.Current.serve (current : run.Current hmac)
    (hnext : run.next hmac (.serve request token needs) = some run') : run'.Current hmac := by
  cases hnext
  -- The request is a call of the manager, which ends no session that is younger than the clock.
  have hends : ∀ serving : Serving, run.clock < serving.session.expiresAt →
      ¬ Call.Ends serving.session.sessionToken serving.session.toActiveAppSession
        (.authenticate token run.clock : Call Proof) := by
    rintro serving hclock (hends | hends)
    · exact hends
    · exact UInt64.not_le.mpr hclock hends
  have hkept := current.call (.authenticate token run.clock) rfl fun serving hmem =>
    hends serving (current.active serving hmem).2
  refine ⟨hkept.identity, fun serving hmem => ?_, current.delivered⟩
  obtain hnew | hold := List.mem_append.mp hmem
  · obtain ⟨hlookup, hclock⟩ :=
      authenticated_of_outcome (open?_eq_some (Option.mem_toList.mp hnew))
    have hexec : run.identity.manager.exec hmac (.authenticate token run.clock) = some _ := rfl
    exact ⟨exec_keeps_session hexec hlookup (hends serving hclock), hclock⟩
  · exact hkept.active serving hold

theorem DeliveryRun.Current.deliver (current : run.Current hmac) {serving : Serving}
    (hnext : run.next hmac (.deliver serving) = some run') : run'.Current hmac := by
  rw [DeliveryRun.next] at hnext
  obtain ⟨hmem, hnext⟩ := Option.ite_none_right_eq_some.mp hnext
  cases hnext
  obtain ⟨hactive, hclock⟩ := current.active serving hmem
  refine ⟨current.identity, fun other hother => current.active other ?_, ?_⟩
  · dsimp only at hother
    split at hother
    · exact hother
    · exact List.mem_of_mem_erase hother
  · rintro d (_ | ⟨_, hd⟩)
    · obtain ⟨-, -, -, challenge, response, later, earlier, hearned, -⟩ :=
        (sound_invariant.holds current.identity).sessions _ _ hactive
      exact ⟨hclock, challenge, response, later, earlier, hearned⟩
    · exact current.delivered d hd

theorem DeliveryRun.Current.step (current : run.Current hmac) (label : DeliveryLabel Proof)
    (hguard : run.Unhurried label) (hnext : run.next hmac label = some run') :
    run'.Current hmac := by
  cases label with
  | call call =>
    by_cases hrestart : call = .restart
    · subst hrestart
      obtain ⟨identity, hidentity, rfl⟩ := Option.map_eq_some_iff.mp hnext
      exact ⟨current.identity.next _ hidentity, nofun, current.delivered⟩
    have hmap : (run.identity.next hmac call).map
        (fun identity => { run with identity := identity }) = some run' := by
      cases call with
      | restart => exact absurd rfl hrestart
      | _ => exact hnext
    obtain ⟨identity, hidentity, rfl⟩ := Option.map_eq_some_iff.mp hmap
    exact current.call call hidentity (hguard.resolve_left hrestart)
  | tick now =>
    rw [DeliveryRun.next] at hnext
    split at hnext
    case isFalse => cases hnext
    case isTrue =>
      cases hnext
      refine ⟨current.identity, fun serving hmem => ?_, current.delivered⟩
      exact ⟨(current.active serving hmem).1, hguard serving hmem⟩
  | serve request token needs => exact current.serve hnext
  | deliver serving => exact current.deliver hnext
  | close serving =>
    cases hnext
    exact ⟨current.identity,
      fun other hother => current.active other (List.mem_of_mem_erase hother),
      current.delivered⟩

/-- In every run in which no session ends while something is open for it, nothing is delivered for
a session that has ended. -/
theorem deliveries_are_in_time
    (reached : ((deliverySystem hmac).restrict DeliveryRun.Unhurried).Reachable run) :
    ∀ d ∈ run.delivered, d.InTime := by
  suffices hcurrent : run.Current hmac from hcurrent.delivered
  induction reached with
  | start hstart =>
    obtain ⟨hidentity, hopened, hdelivered⟩ := hstart
    refine ⟨.start hidentity, ?_, ?_⟩
    · rw [hopened]
      exact nofun
    · rw [hdelivered]
      exact nofun
  | next label _ hstep ih => exact ih.step label hstep.1 hstep.2

end Invariant

/-- A call that ends a session right before something is written for it. -/
theorem not_inTime_of_ends {Proof : Type} {d : Delivery Proof} (call : Call Proof)
    {outcome : Outcome} {earlier : List (Call Proof × Outcome)}
    (hcalls : d.calls = (call, outcome) :: earlier)
    (hends : call.Ends d.serving.session.sessionToken d.serving.session.toActiveAppSession)
    (hfinish : ∀ response now draws sessionId fault,
      call ≠ .finish response now draws sessionId fault) : ¬ d.InTime := by
  rintro ⟨-, challenge, response, later, before, hearned⟩
  obtain ⟨draws, older, -, hlog⟩ := hearned.opened
  rw [hcalls] at hlog
  cases later with
  | nil => exact hfinish _ _ _ _ _ (congrArg Prod.fst (List.cons.inj hlog).1)
  | cons entry later =>
    obtain ⟨rfl, -⟩ := List.cons.inj hlog
    exact hearned.kept _ List.mem_cons_self hends

namespace DeliverySample

open SessionSample (hmac secret nonce token sessionId)

def challenge : AppAuthChallenge where
  appId := "chat"
  challengeId := 1
  nonce := nonce
  issuedAt := 100
  expiresAt := 130
  credentialGeneration := 1
  requestedCapabilities := {.receiveMessages}

def response : AppAuthResponse (AppSecret × Bytes) where
  appId := "chat"
  challengeId := 1
  proof := computeAppProof hmac secret challenge

def start : DeliveryRun (AppSecret × Bytes) where
  identity := ⟨SessionSample.start, []⟩
  clock := 0
  opened := []
  delivered := []

/-- An application authenticates and subscribes to its messages. -/
def subscribes : List (DeliveryLabel (AppSecret × Bytes)) :=
  [.call (.register "chat" "Chat" {.receiveMessages} secret 50 none),
    .call (.begin "chat" {.receiveMessages} 100 nonce none),
    .call (.finish response 110 [token] sessionId none), .tick 110,
    .serve .subscribeMessages token none]

def serving : Serving where
  request := .subscribeMessages
  session :=
    { appId := "chat"
      sessionId := sessionId
      authenticatedAt := 110
      expiresAt := 43310
      credentialGeneration := 1
      capabilities := {.receiveMessages}
      sessionToken := token }

def subscribed : DeliveryRun (AppSecret × Bytes) :=
  (LabelledSystem.runWithin (DeliveryRun.next hmac) (fun run _ => run.opened = []) start
    subscribes).get (by decide +kernel)

def delivered : DeliveryRun (AppSecret × Bytes) :=
  (subscribed.next hmac (.deliver serving)).get (by decide +kernel)

theorem subscribed_reachable :
    ((deliverySystem hmac).restrict DeliveryRun.Unhurried).Reachable subscribed := by
  have hstep : ∀ run label run', run.opened = [] → DeliveryRun.next hmac run label = some run' →
      ((deliverySystem hmac).restrict DeliveryRun.Unhurried).step run label run' := by
    intro run label run' hnone hnext
    refine ⟨?_, hnext⟩
    cases label with
    | call call =>
      refine .inr ?_
      rw [hnone]
      exact nofun
    | tick now =>
      rw [DeliveryRun.Unhurried, hnone]
      exact nofun
    | _ => trivial
  exact .of_runWithin hstep (.start ⟨⟨rfl, rfl⟩, rfl, rfl⟩) (Option.some_get _).symm

/-- A message for a session that has not ended. -/
theorem delivered_inTime : delivered.delivered.length = 1 ∧ ∀ d ∈ delivered.delivered, d.InTime :=
  ⟨by decide +kernel, deliveries_are_in_time
    (.next (.deliver serving) subscribed_reachable ⟨trivial, (Option.some_get _).symm⟩)⟩

/-! ### Sessions that end -/

/-- The application is disabled while it is subscribed. -/
def disabled : DeliveryRun (AppSecret × Bytes) :=
  (LabelledSystem.run (DeliveryRun.next hmac) subscribed
    [.call (.setEnabled "chat" false none), .deliver serving]).get (by decide +kernel)

/-- The session grows too old while it is subscribed. -/
def aged : DeliveryRun (AppSecret × Bytes) :=
  (LabelledSystem.run (DeliveryRun.next hmac) subscribed [.tick 50000, .deliver serving]).get
    (by decide +kernel)

/-- A subscription is served after its application has been disabled, and after its session has
expired. -/
theorem deliveries_go_on :
    (∃ run, (deliverySystem hmac).Reachable run ∧ ∃ d ∈ run.delivered, ¬ d.InTime) ∧
      ∃ run, (deliverySystem hmac).Reachable run ∧
        ∃ d ∈ run.delivered, d.serving.session.expiresAt ≤ d.writtenAt := by
  have hsubscribed := subscribed_reachable.of_restrict
  have hdisabled : (deliverySystem hmac).Reachable disabled :=
    hsubscribed.of_run (fun _ _ _ hnext => hnext) (Option.some_get _).symm
  have haged : (deliverySystem hmac).Reachable aged :=
    hsubscribed.of_run (fun _ _ _ hnext => hnext) (Option.some_get _).symm
  refine ⟨⟨disabled, hdisabled, _, List.mem_cons_self, ?_⟩, aged, haged, _, List.mem_cons_self, ?_⟩
  · exact not_inTime_of_ends (.setEnabled "chat" false none) rfl (.inl ⟨rfl, rfl⟩)
      fun _ _ _ _ _ => nofun
  · decide +kernel

end DeliverySample

end VeilKnit.Api
