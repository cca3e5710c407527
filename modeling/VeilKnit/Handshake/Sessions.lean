import VeilKnit.Handshake.Trust
import VeilKnit.Handshake.WrongToken

/-!
# Sessions in every run

Whatever its peers send, a node has a session key for every session that may be in use and no
ephemeral secret beside a session key, and what it sends again it has sent before.
-/

namespace VeilKnit.Handshake

open Library

variable {Secret : Type} {prim : Primitives Secret} {direct : DirectPrimitives}
  {ans : Answers Secret} {incoming : Option (HandshakeMessage × Bytes)}
  {start p q : Process Secret} {peer : String} {s t : HandshakeState Secret}

/-- A session as it stands under the name of its peer. -/
structure InOrder (peer : String) (s : HandshakeState Secret) : Prop where
  peerDht : s.peerDht = peer
  route : s.route.isSome
  status : s.status ≠ .none
  keyed : s.status = .challengeReceived ∨ s.status = .established → s.sessionKey.isSome
  nonzero : ∀ key, s.sessionKey = some key → isAllZero key = false
  secret : s.ourPrivateKey.isSome →
    s.isInitiator = true ∧ s.status ≠ .established ∧ s.sessionKey = none

theorem InOrder.touched (h : InOrder peer s) (touched : Touched s t) : InOrder peer t where
  peerDht := touched.peerDht.trans h.peerDht
  route := touched.route ▸ h.route
  status := by
    rcases touched.status with hsame | ⟨-, hfailed⟩
    · exact hsame ▸ h.status
    · simp [hfailed]
  keyed hstatus := by
    rw [touched.sessionKey]
    rcases touched.status with hsame | ⟨-, hfailed⟩
    · exact h.keyed (hsame ▸ hstatus)
    · simp [hfailed] at hstatus
  nonzero key hkey := h.nonzero key (touched.sessionKey ▸ hkey)
  secret hsecret := by
    rcases touched.ourPrivateKey with hsame | hnone
    · obtain ⟨hrole, hopen, hkey⟩ := h.secret (hsame ▸ hsecret)
      refine ⟨touched.isInitiator.trans hrole, ?_, touched.sessionKey.trans hkey⟩
      rcases touched.status with hstatus | ⟨-, hfailed⟩
      · exact hstatus ▸ hopen
      · simp [hfailed]
    · simp [hnone] at hsecret

theorem acceptInit_nonzero {ourPrivate : Secret} {msg : HandshakeMessage}
    {shared theirChallenge : Bytes}
    (h : acceptInit prim ourPrivate msg = .ok (shared, theirChallenge)) :
    isAllZero shared = false := by
  obtain ⟨rfl, -⟩ := acceptInit_shared h
  unfold acceptInit at h
  grind

/-- All sessions are in order. -/
def SessionsInOrder (p : Process Secret) : Prop :=
  ∀ peer s, p.session peer = some s → InOrder peer s

theorem Move.sessionsInOrder (move : Move prim ans incoming start p q) (h : SessionsInOrder p) :
    SessionsInOrder q := by
  intro peer t ht
  cases move.became ht with
  | kept session touched => exact (h peer _ session).touched touched
  | initiated =>
    refine ⟨rfl, rfl, nofun, fun hstatus => ?_, nofun, fun _ => ⟨rfl, nofun, rfl⟩⟩
    rcases hstatus with hstatus | hstatus <;> cases hstatus
  | welcomed inbound type sender accepted =>
    refine ⟨sender, rfl, nofun, fun _ => rfl, fun key hkey => ?_, nofun⟩
    cases hkey
    exact acceptInit_nonzero accepted
  | replied inbound type sender narrowed session accepted =>
    have hbefore := h peer _ session
    refine ⟨hbefore.peerDht, hbefore.route, nofun, fun _ => rfl, fun key hkey => ?_, nofun⟩
    cases hkey
    simpa using accepted.nonzero
  | finished inbound type sender narrowed session accepted =>
    have hbefore := h peer _ session
    obtain ⟨-, -, shared, -, hkey, -⟩ := checkFinal_eq_ok accepted
    refine ⟨hbefore.peerDht, hbefore.route, nofun, fun _ => Option.isSome_of_eq_some hkey,
      hbefore.nonzero, fun hsecret => ?_⟩
    -- A secret would have come without a key.
    cases hkey.symm.trans (hbefore.secret hsecret).2.2

/-- What a new node has and every move keeps holds in every run. -/
theorem holds_of_moves {P : Process Secret → Prop} (new : ∀ ourDht, P ⟨.new ourDht, []⟩)
    (kept : ∀ ans incoming start p q, Move prim ans incoming start p q → P p → P q)
    (reached : (managerSystem prim direct).Reachable p) : P p := by
  refine LabelledSystem.Invariant.holds ⟨?_, ?_⟩ reached
  · rintro _ ⟨ourDht, rfl⟩
    exact new ourDht
  · rintro p ⟨op, ans⟩ _ h rfl
    exact (perform_moves op p).invariant (kept ans _ p) h

/-- In every run, whatever the peers send. -/
theorem sessions_in_order (reached : (managerSystem prim direct).Reachable p) :
    SessionsInOrder p := by
  refine holds_of_moves (fun ourDht peer s hs => ?_) ?_ reached
  · cases hs
  · exact fun _ _ _ _ _ move => move.sessionsInOrder

/-- What a node sends again has gone out before, over the same route. -/
theorem saved_flights_sent (reached : (managerSystem prim direct).Reachable p) : Saved p := by
  refine holds_of_moves (fun ourDht peer s hs => ?_) ?_ reached
  · cases hs
  · exact fun _ _ _ _ _ move => move.saved

theorem sessions_in_order_established :
    SessionsInOrder establishedNode := sessions_in_order establishedNode_reachable

theorem saved_flights_sent_established :
    Saved establishedNode := saved_flights_sent establishedNode_reachable

end VeilKnit.Handshake
