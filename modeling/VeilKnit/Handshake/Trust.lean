import VeilKnit.Handshake.Wire
import VeilKnit.Handshake.Operations

/-!
# What a node may conclude about a peer

A node sends the challenge of a handshake to a route that the peer has advertised, and takes
a session for established when the answer to that challenge comes back. Someone who cannot
read what goes to the peer's routes cannot have made the answer. This module states what a
node's sessions for one peer say about the messages it has sent and heard, and that every
move keeps it.

The peer's messages are a parameter: a set of messages that the peer is known to have made.
Everything else that arrives in the peer's name comes from someone who does not know the
challenges.
-/

namespace VeilKnit.Handshake

open Library

variable {Secret : Type}

/-! ## Messages sent -/

/-- A node has sent a message to some route. -/
def Sent (p : Process Secret) (m : HandshakeMessage) : Prop :=
  ∃ route, Effect.appMessage route m.toJson ∈ p.effects

section Challenges

variable (prim : Primitives Secret) (advertised : String → Bytes → Prop) (peer : String)

/-- A node has sent a message to a route that the peer has advertised. -/
def SentTo (p : Process Secret) (m : HandshakeMessage) : Prop :=
  ∃ route, advertised peer route ∧ Effect.appMessage route m.toJson ∈ p.effects

/-- A challenge has gone out to the peer, and to nobody else that can read it. -/
def Challenged (p : Process Secret) (challenge : Bytes) : Prop :=
  ∃ m, SentTo advertised peer p m ∧ m.challenge = some challenge

/-- A message answers a challenge, in some handshake of anyone. -/
def Responds (m : HandshakeMessage) (challenge : Bytes) : Prop :=
  ∃ shared initiator responder,
    m.signature = some (createResponse prim shared initiator responder challenge)

end Challenges

variable {prim : Primitives Secret} {ans : Answers Secret}
  {incoming : Option (HandshakeMessage × Bytes)} {start p q : Process Secret}
  {advertised : String → Bytes → Prop} {peer : String} {m msg : HandshakeMessage}

theorem Sent.mono (h : Sent p m) (more : p.effects ⊆ q.effects) :
    Sent q m := by
  obtain ⟨route, hsent⟩ := h
  exact ⟨route, more hsent⟩

theorem SentTo.mono (h : SentTo advertised peer p m)
    (more : p.effects ⊆ q.effects) : SentTo advertised peer q m := by
  obtain ⟨route, hroute, hsent⟩ := h
  exact ⟨route, hroute, more hsent⟩

theorem SentTo.sent (h : SentTo advertised peer p m) : Sent p m := by
  obtain ⟨route, -, hsent⟩ := h
  exact ⟨route, hsent⟩

theorem ReadsJson.toJson_injective (json : ReadsJson prim) :
    Function.Injective HandshakeMessage.toJson := by
  intro m m' h
  have hread := json.message m
  rw [h, json.message m'] at hread
  exact (Except.ok.inj hread).symm

/-- A move only adds effects. -/
theorem Move.effects_subset (move : Move prim ans incoming start p q) : p.effects ⊆ q.effects := by
  cases move with
  | keep _ _ _ => exact List.subset_append_left _ _
  | drop _ => exact List.Subset.refl _
  | touch _ _ => exact List.Subset.refl _
  | touchAll _ => exact List.Subset.refl _
  | send _ => exact List.subset_append_left _ _
  | initiated _ _ _ _ _ _ => exact List.Subset.refl _
  | welcomed _ _ _ _ _ _ _ _ _ _ _ _ _ _ => exact List.Subset.refl _
  | replied _ _ _ _ _ _ _ _ _ => exact List.subset_append_left _ _
  | replyLost _ _ _ _ _ _ => exact List.subset_append_left _ _
  | finished _ _ _ _ _ _ => exact List.Subset.refl _

/-! ## What a move makes of a session -/

section Became

variable (prim : Primitives Secret) (ans : Answers Secret)
  (incoming : Option (HandshakeMessage × Bytes)) (start p : Process Secret)
  (after : List Effect)

/-- How a session of a peer comes out of a move, after which there are some effects. -/
inductive Became (peer : String) : HandshakeState Secret → Prop
  | kept {s t : HandshakeState Secret} (session : p.session peer = some s)
      (touched : Touched s t) : Became peer t
  | initiated {blob bytes : Bytes} {now : UInt64} {mode : EncryptionMode}
      {verification maintain : Bool} (outbound : incoming = none)
      (fetched : ans.fetchRouteBlob peer = .ok blob)
      (encoded : bytes = HandshakeMessage.toJson (initMessage p.manager.ourDht
        (prim.publicKey (ans.ephemeralSecret peer)) (ans.randomHandshakeToken peer)
        (ans.randomChallenge peer) now mode maintain))
      (sent : Effect.appMessage blob bytes ∈ p.effects) :
      Became peer (initiatedState prim ans peer blob bytes now mode verification maintain)
  | welcomed {msg : HandshakeMessage} {raw blob bytes shared theirChallenge : Bytes}
      (inbound : incoming = some (msg, raw)) (type : msg.messageType = 1)
      (sender : msg.senderDht = peer)
      (accepted : acceptInit prim (ans.ephemeralSecret peer) msg = .ok (shared, theirChallenge))
      (fetched : ans.fetchRouteBlob peer = .ok blob)
      (encoded : encodeHandshakeMessage
        (welcomeAnswer prim ans p.manager.ourDht msg shared theirChallenge) = .ok bytes)
      (sent : Effect.appMessage blob bytes ∈ p.effects) :
      Became peer (welcomedState prim msg (ans.ephemeralSecret peer) (ans.randomChallenge peer)
        theirChallenge shared blob bytes (prim.sha256 raw) (ans.clock 1))
  | replied {msg : HandshakeMessage} {raw route bytes : Bytes} {s : HandshakeState Secret}
      {parts : WelcomeReplyParts Secret} (inbound : incoming = some (msg, raw))
      (type : msg.messageType = 2) (sender : msg.senderDht = peer) (narrowed : Narrowed start p)
      (session : p.session peer = some s)
      (accepted : AcceptsReply prim p.manager.ourDht s msg parts) (hroute : s.route = some route)
      (encoded : encodeHandshakeMessage
        (finalAnswer prim ans p.manager.ourDht s msg parts) = .ok bytes)
      (sent : Effect.appMessage route bytes ∈ after) :
      Became peer (repliedState prim s msg (prim.diffieHellman parts.ourPrivate msg.senderPubkey)
        bytes (ans.clock 1))
  | finished {msg : HandshakeMessage} {raw : Bytes} {s : HandshakeState Secret}
      (inbound : incoming = some (msg, raw)) (type : msg.messageType = 3)
      (sender : msg.senderDht = peer) (narrowed : Narrowed start p)
      (session : p.session peer = some s)
      (accepted : checkFinal prim p.manager.ourDht s msg = .ok ()) :
      Became peer (finishedState ans s msg)

end Became

variable {s t : HandshakeState Secret}

theorem Became.of_putSession {after : List Effect} {r : Process Secret} {peer other : String}
    (sessions : r.session other = p.session other)
    (h : (r.putSession peer t).session other = some s)
    (same : peer = other → t = s → Became prim ans incoming start p after other s) :
    Became prim ans incoming start p after other s := by
  rw [Process.session_putSession] at h
  split at h
  case isTrue hpeer => exact same hpeer.symm (Option.some.inj h)
  case isFalse => exact .kept (sessions.symm.trans h) (.refl s)

/-- The sessions after a move, by what they were before it. -/
theorem Move.became (move : Move prim ans incoming start p q) {other : String}
    (h : q.session other = some t) :
    Became prim ans incoming start p q.effects other t := by
  cases move with
  | @keep m effects sessions _ _ =>
    have hsame : p.session other = some t := by
      rw [Process.session, ← sessions]
      exact h
    exact .kept hsame (.refl t)
  | drop dropped =>
    rw [Process.session_removeSession] at h
    split at h
    · cases h
    · exact .kept h (.refl t)
  | touch session touched =>
    apply Became.of_putSession (p := p) rfl h
    rintro rfl rfl
    exact .kept session touched
  | @touchAll f touched =>
    have hmap : (p.session other).map f = some t := by
      rw [← h]
      exact (AList.lookup_mapEntries (fun _ => f) p.manager.sessions other).symm
    obtain ⟨s, hs, rfl⟩ := Option.map_eq_some_iff.mp hmap
    exact .kept hs (touched s)
  | send _ => exact .kept h (.refl t)
  | initiated outbound fetched encoded sent _ _ =>
    apply Became.of_putSession (p := p) rfl h
    rintro rfl rfl
    exact .initiated outbound fetched encoded sent
  | welcomed inbound type _ _ _ accepted fetched encoded _ sent _ _ _ _ =>
    apply Became.of_putSession (p := p) rfl h
    rintro rfl rfl
    exact .welcomed inbound type rfl accepted fetched encoded sent
  | replied inbound type _ narrowed session accepted hroute encoded _ =>
    apply Became.of_putSession (p := p) rfl h
    rintro rfl rfl
    exact .replied inbound type rfl narrowed session accepted hroute encoded (by simp)
  | replyLost _ _ _ session accepted _ =>
    apply Became.of_putSession (p := p) rfl h
    rintro rfl rfl
    exact .kept session accepted.lost
  | finished inbound type _ narrowed session accepted =>
    apply Became.of_putSession (p := p) rfl h
    rintro rfl rfl
    exact .finished inbound type rfl narrowed session accepted

/-! ## What a move sends -/

/-- A flight that a session would send again. -/
def IsSaved (s : HandshakeState Secret) (flight : SavedHandshakeFlight) : Prop :=
  s.outgoingFlight = some flight ∨
    ∃ type reply, s.cachedReplies type = some reply ∧ reply.flight = flight

/-- The flights that sessions keep have been sent. -/
def Saved (p : Process Secret) : Prop :=
  ∀ peer s, p.session peer = some s → ∀ route, s.route = some route →
    ∀ flight, IsSaved s flight → Effect.appMessage route flight.bytes ∈ p.effects

variable {flight : SavedHandshakeFlight}

theorem IsSaved.of_touched (h : IsSaved t flight) (touched : Touched s t) : IsSaved s flight := by
  rcases h with hout | ⟨type, reply, hreply, rfl⟩
  · exact .inl (touched.outgoingFlight.symm.trans hout)
  · obtain ⟨before, hbefore, hflight⟩ := touched.cachedReplies type reply hreply
    exact .inr ⟨type, before, hbefore, hflight.symm⟩

/-- A session with one more cached reply keeps that reply and what it kept before. -/
theorem isSaved_update {type : UInt8} {new : CachedHandshakeReply} (hout : t.outgoingFlight = none)
    (hcached : t.cachedReplies = Function.update s.cachedReplies type (some new))
    (h : IsSaved t flight) : flight = new.flight ∨ IsSaved s flight := by
  rcases h with h | ⟨type', reply, hreply, rfl⟩
  · rw [hout] at h
    cases h
  rw [hcached] at hreply
  by_cases htype : type' = type
  · subst htype
    rw [Function.update_self] at hreply
    cases hreply
    exact .inl rfl
  · rw [Function.update_of_ne htype] at hreply
    exact .inr (.inr ⟨type', reply, hreply, rfl⟩)

/-- What a session is once its type 3 has gone out: it is established under the key of that
message, or it has failed. -/
def Concluded (s t : HandshakeState Secret) (key : Bytes) : Prop :=
  t.status = .failed ∨ t.status = .established ∧ t.sessionKey = some key ∧
    t.encryptionMode = s.encryptionMode

section Fresh

variable (prim : Primitives Secret) (ans : Answers Secret)
  (incoming : Option (HandshakeMessage × Bytes)) (start p q : Process Secret)

/-- A message that a move from `p` to `q` sends for the first time, and where it goes. -/
inductive Fresh : Bytes → HandshakeMessage → Prop
  | control {route : Bytes} {message : HandshakeMessage} (noChallenge : message.challenge = none)
      (noSignature : message.signature = none)
      (type : message.messageType = handshakeResetMessageType ∨ message.messageType = 5) :
      Fresh route message
  | init {target : String} {blob : Bytes} {now : UInt64} {mode : EncryptionMode} {maintain : Bool}
      (outbound : incoming = none) (fetched : ans.fetchRouteBlob target = .ok blob) :
      Fresh blob (initMessage p.manager.ourDht (prim.publicKey (ans.ephemeralSecret target))
        (ans.randomHandshakeToken target) (ans.randomChallenge target) now mode maintain)
  | welcome {msg : HandshakeMessage} {raw blob shared theirChallenge : Bytes}
      (inbound : incoming = some (msg, raw)) (type : msg.messageType = 1)
      (first : p.effects = start.effects)
      (accepted : acceptInit prim (ans.ephemeralSecret msg.senderDht) msg =
        .ok (shared, theirChallenge))
      (fetched : ans.fetchRouteBlob msg.senderDht = .ok blob) :
      Fresh blob (welcomeAnswer prim ans p.manager.ourDht msg shared theirChallenge)
  | final {msg : HandshakeMessage} {raw route : Bytes} {s : HandshakeState Secret}
      {t : HandshakeState Secret} {parts : WelcomeReplyParts Secret}
      (inbound : incoming = some (msg, raw)) (type : msg.messageType = 2)
      (narrowed : Narrowed start p) (session : p.session msg.senderDht = some s)
      (accepted : AcceptsReply prim p.manager.ourDht s msg parts)
      (after : q.session msg.senderDht = some t)
      (concluded : Concluded s t (prim.diffieHellman parts.ourPrivate msg.senderPubkey)) :
      Fresh route (finalAnswer prim ans p.manager.ourDht s msg parts)

end Fresh

variable {route challenge : Bytes}

/-- What has been sent after a move was sent before it or is fresh. -/
theorem Move.sent_cases (move : Move prim ans incoming start p q) (saved : Saved p)
    {bytes : Bytes} (h : Effect.appMessage route bytes ∈ q.effects) :
    Effect.appMessage route bytes ∈ p.effects ∨
      ∃ m : HandshakeMessage, bytes = m.toJson ∧ Fresh prim ans incoming start p q route m := by
  cases move with
  | keep _ _ silent =>
    rcases List.mem_append.mp h with h | h
    · exact .inl h
    · exact absurd h (silent route bytes)
  | drop _ => exact .inl h
  | touch _ _ => exact .inl h
  | touchAll _ => exact .inl h
  | send outgoing =>
    rcases List.mem_append.mp h with h | h
    · exact .inl h
    cases List.mem_singleton.mp h
    cases outgoing with
    | again session hroute hsaved => exact .inl (saved _ _ session _ hroute _ hsaved)
    | control noChallenge noSignature type =>
      exact .inr ⟨_, rfl, .control noChallenge noSignature type⟩
    | init outbound fetched => exact .inr ⟨_, rfl, .init outbound fetched⟩
    | welcome inbound type first accepted fetched =>
      exact .inr ⟨_, rfl, .welcome inbound type first accepted fetched⟩
  | initiated _ _ _ _ _ _ => exact .inl h
  | welcomed _ _ _ _ _ _ _ _ _ _ _ _ _ _ => exact .inl h
  | replied inbound type _ narrowed session accepted _ encoded _ =>
    rcases List.mem_append.mp h with h | h
    · exact .inl h
    · cases List.mem_singleton.mp h
      exact .inr ⟨_, encodeHandshakeMessage_eq_ok encoded,
        .final inbound type narrowed session accepted
          ((Process.session_putSession _ _ _ _).trans (if_pos rfl)) (.inr ⟨rfl, rfl, rfl⟩)⟩
  | replyLost inbound type narrowed session accepted encoded =>
    rcases List.mem_append.mp h with h | h
    · exact .inl h
    · cases List.mem_singleton.mp h
      exact .inr ⟨_, encodeHandshakeMessage_eq_ok encoded,
        .final inbound type narrowed session accepted
          ((Process.session_putSession _ _ _ _).trans (if_pos rfl)) (.inl rfl)⟩
  | finished _ _ _ _ _ _ => exact .inl h

/-- In terms of messages. -/
theorem Move.sent_message_cases (json : ReadsJson prim)
    (move : Move prim ans incoming start p q) (saved : Saved p)
    (h : Sent q m) : Sent p m ∨ ∃ route, Fresh prim ans incoming start p q route m := by
  obtain ⟨route, hsent⟩ := h
  rcases move.sent_cases saved hsent with hbefore | ⟨m', hbytes, hfresh⟩
  · exact .inl ⟨route, hbefore⟩
  · obtain rfl := json.toJson_injective hbytes
    exact .inr ⟨route, hfresh⟩

theorem Move.saved (move : Move prim ans incoming start p q) (h : Saved p) : Saved q := by
  intro peer t ht route hroute flight hflight
  have hmore := move.effects_subset
  have hbefore : ∀ s, p.session peer = some s → s.route = some route → IsSaved s flight →
      Effect.appMessage route flight.bytes ∈ q.effects :=
    fun s hs hsroute hssaved => hmore (h peer s hs route hsroute flight hssaved)
  cases move.became ht with
  | kept session touched =>
    exact hbefore _ session (touched.route.symm.trans hroute) (hflight.of_touched touched)
  | initiated outbound fetched encoded sent =>
    cases hroute
    rcases hflight with hout | ⟨type, reply, hreply, -⟩
    · cases hout
      exact hmore sent
    · cases hreply
  | @welcomed msg raw _ bytes shared theirChallenge inbound type sender accepted fetched encoded
      sent =>
      cases hroute
      rcases hflight with hout | ⟨type', reply, hreply, rfl⟩
      · cases hout
        exact hmore sent
      have hcached : Function.update (fun _ => none) 1
          (some ⟨SavedHandshakeFlight.new prim 2 bytes, 0⟩) type' = some reply := hreply
      by_cases htype : type' = 1
      · rw [htype, Function.update_self] at hcached
        cases hcached
        exact hmore sent
      · rw [Function.update_of_ne htype] at hcached
        cases hcached
  | @replied msg raw route' bytes s parts _ _ _ _ session _ hsroute _ sent =>
    have hsame : route' = route := Option.some.inj (hsroute.symm.trans hroute)
    subst hsame
    rcases isSaved_update rfl rfl hflight with rfl | hbeforeSaved
    · exact sent
    · exact hbefore _ session hsroute hbeforeSaved
  | finished inbound type sender narrowed session accepted =>
    refine hbefore _ session hroute ?_
    rcases hflight with hout | hcached
    · cases hout
    · exact .inr hcached

/-! ## Where challenges go -/

section Private

variable (advertised : String → Bytes → Prop) (peer : String)

/-- A challenge has gone to routes of the peer and to no others. -/
def Private (p : Process Secret) (challenge : Bytes) : Prop :=
  Challenged advertised peer p challenge ∧
    ∀ route m, Effect.appMessage route (HandshakeMessage.toJson m) ∈ p.effects →
      m.challenge = some challenge → advertised peer route

/-- No challenge of a peer has gone elsewhere. -/
def KeepsPrivate (p : Process Secret) : Prop :=
  ∀ challenge, Challenged advertised peer p challenge → Private advertised peer p challenge

/-- The challenges that a step draws were never sent, and differ from each other. -/
structure Unguessed (ans : Answers Secret) (p : Process Secret) : Prop where
  unsent : ∀ m, Sent p m → ∀ target, m.challenge ≠ some (ans.randomChallenge target)
  distinct : ∀ target target' blob blob', ans.fetchRouteBlob target = .ok blob →
    ans.fetchRouteBlob target' = .ok blob' →
    ans.randomChallenge target = ans.randomChallenge target' → target = target'

end Private

/-- The challenges of a step go to the peers they are drawn for. -/
def ChallengesOwnTarget (ans : Answers Secret) (start p : Process Secret) : Prop :=
  ∀ route m challenge, Effect.appMessage route (HandshakeMessage.toJson m) ∈ p.effects →
    m.challenge = some challenge → Effect.appMessage route m.toJson ∈ start.effects ∨
      ∃ target, ans.fetchRouteBlob target = .ok route ∧ challenge = ans.randomChallenge target

theorem Fresh.target
    (h : Fresh prim ans incoming start p q route m) (hchallenge : m.challenge = some challenge) :
    ∃ target, ans.fetchRouteBlob target = .ok route ∧ challenge = ans.randomChallenge target := by
  cases h with
  | control noChallenge _ _ =>
    rw [noChallenge] at hchallenge
    cases hchallenge
  | init _ fetched => exact ⟨_, fetched, (Option.some.inj hchallenge).symm⟩
  | welcome _ _ _ _ fetched => exact ⟨_, fetched, (Option.some.inj hchallenge).symm⟩
  | final _ _ _ _ _ _ _ => cases hchallenge

theorem Move.challengesOwnTarget (json : ReadsJson prim) (move : Move prim ans incoming start p q)
    (h : Saved p ∧ ChallengesOwnTarget ans start p) :
    Saved q ∧ ChallengesOwnTarget ans start q := by
  refine ⟨move.saved h.1, fun route m challenge hsent hchallenge => ?_⟩
  rcases move.sent_cases h.1 hsent with hbefore | ⟨m', hbytes, hfresh⟩
  · exact h.2 route m challenge hbefore hchallenge
  · obtain rfl := json.toJson_injective hbytes
    exact .inr (hfresh.target hchallenge)

variable {direct : DirectPrimitives}

theorem KeepsPrivate.perform (json : ReadsJson prim)
    {op : Operation} (saved : Saved p) (unguessed : Unguessed ans p)
    (h : KeepsPrivate advertised peer p) :
    KeepsPrivate advertised peer (perform prim direct ans p op) := by
  obtain ⟨-, hown⟩ : Saved (Handshake.perform prim direct ans p op) ∧
      ChallengesOwnTarget ans p (Handshake.perform prim direct ans p op) :=
    (perform_moves op p).invariant (fun _ _ move => move.challengesOwnTarget json)
      ⟨saved, fun _ _ _ hsent _ => .inl hsent⟩
  intro challenge hchallenged
  refine ⟨hchallenged, fun route m hsent hcarries => ?_⟩
  obtain ⟨m₀, ⟨route₀, hroute₀, hsent₀⟩, hcarries₀⟩ := hchallenged
  rcases hown route₀ m₀ challenge hsent₀ hcarries₀ with hbefore₀ | ⟨target₀, hfetched₀, hdrawn₀⟩
  · have hbefore : Effect.appMessage route m.toJson ∈ p.effects := by
      rcases hown route m challenge hsent hcarries with hbefore | ⟨target, -, rfl⟩
      · exact hbefore
      · exact absurd hcarries₀ (unguessed.unsent m₀ ⟨route₀, hbefore₀⟩ target)
    exact (h challenge ⟨m₀, ⟨route₀, hroute₀, hbefore₀⟩, hcarries₀⟩).2 route m hbefore hcarries
  rcases hown route m challenge hsent hcarries with hbefore | ⟨target, hfetched, hdrawn⟩
  · rw [hdrawn₀] at hcarries
    exact absurd hcarries (unguessed.unsent m ⟨route, hbefore⟩ target₀)
  · obtain rfl := unguessed.distinct _ _ _ _ hfetched₀ hfetched (hdrawn₀.symm.trans hdrawn)
    cases hfetched₀.symm.trans hfetched
    exact hroute₀

/-! ## What the sessions for a peer say -/

section Faithful

variable (prim : Primitives Secret) (advertised : String → Bytes → Prop) (me peer : String)
  (heard : HandshakeMessage → Prop)

/-- The message with which the node opened its side of a session. -/
structure Opening (p : Process Secret) (s : HandshakeState Secret) (m : HandshakeMessage)
    (challenge : Bytes) : Prop where
  sent : SentTo advertised peer p m
  type : m.messageType = if s.isInitiator then 1 else 2
  token : m.token = s.token
  mode : m.encryptionMode = some s.encryptionMode
  carried : m.challenge = some challenge
  ourChallenge : s.ourChallenge = some challenge
  length : challenge.length = 32

/-- The peer's message that completed a session: it answers the session's challenge under
the session's key. -/
structure Witnessed (s : HandshakeState Secret) (m : HandshakeMessage) (key challenge : Bytes) :
    Prop where
  received : heard m
  type : m.messageType = if s.isInitiator then 2 else 3
  sessionKey : s.sessionKey = some key
  ourChallenge : s.ourChallenge = some challenge
  signature : m.signature = some (if s.isInitiator then createResponse prim key me peer challenge
    else createResponse prim key peer me challenge)

/-- What holds of a node with regard to a peer. -/
structure Faithful (p : Process Secret) : Prop where
  name : p.manager.ourDht = me
  saved : Saved p
  author : ∀ m, Sent p m → m.signature = none ∨ m.senderDht = me
  opening : ∀ s, p.session peer = some s → ∃ m challenge, Opening advertised peer p s m challenge
  keyed : ∀ s, p.session peer = some s → ∀ key, s.sessionKey = some key → key.length = 32
  established : ∀ s, p.session peer = some s → s.status = .established →
    ∃ m key challenge, Witnessed prim me peer heard s m key challenge

/-- What the surroundings guarantee in a step: routes are looked up as they were advertised,
challenges have their length, and what arrives in the peer's name was made by the peer or by
someone who does not know the challenges. -/
structure Guarded (ans : Answers Secret) (incoming : Option (HandshakeMessage × Bytes))
    (start : Process Secret) : Prop where
  routes : ∀ target blob, ans.fetchRouteBlob target = .ok blob → advertised target blob
  challenges : ∀ target, (ans.randomChallenge target).length = 32
  genuine : ∀ msg raw, incoming = some (msg, raw) → msg.senderDht = peer → heard msg ∨
    ∀ challenge, Challenged advertised peer start challenge → ¬ Responds prim msg challenge

end Faithful

/-- The key agreement gives keys of thirty-two bytes. -/
def KeyLength (prim : Primitives Secret) : Prop :=
  ∀ secret key, (prim.diffieHellman secret key).length = 32

variable {me : String} {heard : HandshakeMessage → Prop}

theorem acceptInit_shared {ourPrivate : Secret} {shared theirChallenge : Bytes}
    (h : acceptInit prim ourPrivate msg = .ok (shared, theirChallenge)) :
    shared = prim.diffieHellman ourPrivate msg.senderPubkey ∧
      msg.challenge = some theirChallenge := by
  unfold acceptInit at h
  split at h
  · cases h
  split at h
  · cases h
  dsimp only at h
  split at h
  · cases h
  split at h
  · cases h
  · rename_i challenge hchallenge
    cases h
    exact ⟨rfl, hchallenge⟩

theorem checkFinal_eq_ok {ourDht : String} (h : checkFinal prim ourDht s msg = .ok ()) :
    s.isInitiator = false ∧ s.token = msg.token ∧ ∃ shared challenge, s.sessionKey = some shared ∧
      s.ourChallenge = some challenge ∧
      msg.signature = some (createResponse prim shared msg.senderDht ourDht challenge) := by
  unfold checkFinal at h
  split at h
  case isTrue => cases h
  case isFalse hrole =>
  split at h
  case isTrue => cases h
  case isFalse htoken =>
  refine ⟨by simpa using (not_or.mp hrole).1, not_not.mp htoken, ?_⟩
  split at h
  case h_1 => cases h
  case h_2 => cases h
  case h_3 => cases h
  case h_4 shared challenge signature hkey hchallenge hsignature =>
    split at h
    case isTrue => cases h
    case isFalse hsame =>
      exact ⟨shared, challenge, hkey, hchallenge, by rw [hsignature, not_not.mp hsame]⟩

theorem Opening.of_same (h : Opening advertised peer p s m challenge) (more : p.effects ⊆ q.effects)
    (isInitiator : t.isInitiator = s.isInitiator) (token : t.token = s.token)
    (mode : t.encryptionMode = s.encryptionMode) (ourChallenge : t.ourChallenge = s.ourChallenge) :
    Opening advertised peer q t m challenge where
  sent := h.sent.mono more
  type := by rw [isInitiator, h.type]
  token := h.token.trans token.symm
  mode := by rw [mode, h.mode]
  carried := h.carried
  ourChallenge := ourChallenge.trans h.ourChallenge
  length := h.length

/-- The challenge of a session that a step found is one that the peer was sent. -/
theorem Faithful.challenged (h : Faithful prim advertised me peer heard start)
    (narrowed : Narrowed start p) (hs : p.session peer = some s)
    (hchallenge : s.ourChallenge = some challenge) :
    Challenged advertised peer start challenge := by
  obtain ⟨s₀, hs₀, hsame⟩ := narrowed.session peer s hs
  obtain ⟨m, challenge', hopening⟩ := h.opening s₀ hs₀
  have heq : s₀.ourChallenge = some challenge := by
    rw [hsame] at hchallenge
    exact hchallenge
  obtain rfl : challenge' = challenge :=
    Option.some.inj (hopening.ourChallenge.symm.trans heq)
  exact ⟨m, hopening.sent, hopening.carried⟩

theorem Fresh.author (h : Fresh prim ans incoming start p q route m) :
    m.signature = none ∨ m.senderDht = p.manager.ourDht := by
  cases h with
  | control _ noSignature _ => exact .inl noSignature
  | init _ _ => exact .inl rfl
  | welcome _ _ _ _ _ => exact .inr rfl
  | final _ _ _ _ _ _ _ => exact .inr rfl

theorem Move.ourDht (move : Move prim ans incoming start p q) :
    q.manager.ourDht = p.manager.ourDht := by
  cases move with
  | keep _ ourDht _ => exact ourDht
  | _ => rfl

/-- A type 2 that completes a session of the peer was made by the peer. -/
theorem Faithful.heard_of_accepted (hstart : Faithful prim advertised me peer heard start)
    (guarded : Guarded prim advertised peer heard ans incoming start)
    (h : Faithful prim advertised me peer heard p) (narrowed : Narrowed start p)
    {raw : Bytes} (inbound : incoming = some (msg, raw))
    (sender : msg.senderDht = peer) {parts : WelcomeReplyParts Secret}
    (session : p.session peer = some s)
    (accepted : AcceptsReply prim p.manager.ourDht s msg parts) :
    heard msg ∧ msg.signature = some (createResponse prim
      (prim.diffieHellman parts.ourPrivate msg.senderPubkey) me peer parts.ourChallenge) := by
  obtain ⟨-, -, -, -, hchallenge, hsignature, -, -⟩ := checkWelcomeReply_eq_ok accepted.checked
  have hresponse : msg.signature = some (createResponse prim
      (prim.diffieHellman parts.ourPrivate msg.senderPubkey) me peer parts.ourChallenge) := by
    rw [hsignature, accepted.signature, h.name, sender]
  refine ⟨?_, hresponse⟩
  rcases guarded.genuine msg raw inbound sender with hheard | hunknown
  · exact hheard
  · exact absurd ⟨_, _, _, hresponse⟩ (hunknown _ (hstart.challenged narrowed session hchallenge))

theorem Move.opening (keys : KeyLength prim)
    (guarded : Guarded prim advertised peer heard ans incoming start)
    (move : Move prim ans incoming start p q) (h : Faithful prim advertised me peer heard p)
    (ht : q.session peer = some t) :
    (∃ m challenge, Opening advertised peer q t m challenge) ∧
      ∀ key, t.sessionKey = some key → key.length = 32 := by
  have hmore := move.effects_subset
  cases move.became ht with
  | kept session touched =>
    obtain ⟨m, challenge, hopening⟩ := h.opening _ session
    refine ⟨⟨m, challenge, hopening.of_same hmore touched.isInitiator touched.token
      touched.encryptionMode touched.ourChallenge⟩, fun key hkey => ?_⟩
    exact h.keyed _ session key (touched.sessionKey.symm.trans hkey)
  | @initiated blob bytes now mode verification maintain outbound fetched encoded sent =>
    rw [encoded] at sent
    refine ⟨⟨_, _, ⟨blob, guarded.routes _ _ fetched, hmore sent⟩, rfl, rfl, rfl, rfl, rfl,
      guarded.challenges peer⟩, fun key hkey => ?_⟩
    cases hkey
  | @welcomed msg raw blob bytes shared theirChallenge inbound type sender accepted fetched encoded
      sent =>
      subst sender
      obtain ⟨rfl, -⟩ := acceptInit_shared accepted
      rw [encodeHandshakeMessage_eq_ok encoded] at sent
      refine ⟨⟨_, _, ⟨blob, guarded.routes _ _ fetched, hmore sent⟩, rfl, rfl, rfl, rfl, rfl,
        guarded.challenges _⟩, fun key hkey => ?_⟩
      cases hkey
      exact keys _ _
  | replied inbound type sender narrowed session accepted hroute encoded sent =>
    obtain ⟨m, challenge, hopening⟩ := h.opening _ session
    refine ⟨⟨m, challenge, hopening.of_same hmore rfl rfl rfl rfl⟩, fun key hkey => ?_⟩
    cases hkey
    exact keys _ _
  | finished inbound type sender narrowed session accepted =>
    obtain ⟨m, challenge, hopening⟩ := h.opening _ session
    exact ⟨⟨m, challenge, hopening.of_same hmore rfl rfl rfl rfl⟩,
      fun key hkey => h.keyed _ session key hkey⟩

/-- A session is established by a message that answers its challenge. -/
theorem Move.witnessed (guarded : Guarded prim advertised peer heard ans incoming start)
    (hstart : Faithful prim advertised me peer heard start)
    (move : Move prim ans incoming start p q) (h : Faithful prim advertised me peer heard p)
    (ht : q.session peer = some t) (hestablished : t.status = .established) :
    ∃ m key challenge, Witnessed prim me peer heard t m key challenge := by
  cases move.became ht with
  | @kept s _ session touched =>
    have hs : s.status = .established := by
      rcases touched.status with hsame | ⟨-, hfailed⟩
      · exact hsame.symm.trans hestablished
      · rw [hestablished] at hfailed
        cases hfailed
    obtain ⟨m, key, challenge, hwitness⟩ := h.established s session hs
    refine ⟨m, key, challenge, hwitness.received, ?_, touched.sessionKey.trans hwitness.sessionKey,
      touched.ourChallenge.trans hwitness.ourChallenge, ?_⟩
    · rw [touched.isInitiator, hwitness.type]
    · rw [touched.isInitiator, hwitness.signature]
  | initiated _ _ _ _ => cases hestablished
  | welcomed _ _ _ _ _ _ _ => cases hestablished
  | @replied msg raw route bytes s parts inbound type sender narrowed session accepted _ _ _ =>
    obtain ⟨hinitiator, -, -, -, hchallenge, -⟩ := checkWelcomeReply_eq_ok accepted.checked
    obtain ⟨hheard, hresponse⟩ :=
      hstart.heard_of_accepted guarded h narrowed inbound sender session accepted
    have hrole : (repliedState prim s msg (prim.diffieHellman parts.ourPrivate msg.senderPubkey)
        bytes (ans.clock 1)).isInitiator = true := hinitiator
    refine ⟨msg, _, parts.ourChallenge, hheard, ?_, rfl, hchallenge, ?_⟩
    · rw [hrole, type]
      rfl
    · rw [hrole, hresponse]
      rfl
  | @finished msg raw s inbound type sender narrowed session accepted =>
    obtain ⟨hresponder, -, shared, challenge, hkey, hchallenge, hsignature⟩ :=
      checkFinal_eq_ok accepted
    rw [h.name, sender] at hsignature
    have hheard : heard msg := by
      rcases guarded.genuine msg raw inbound sender with hheard | hunknown
      · exact hheard
      · exact absurd ⟨_, _, _, hsignature⟩
          (hunknown _ (hstart.challenged narrowed session hchallenge))
    have hrole : (finishedState ans s msg).isInitiator = false := hresponder
    refine ⟨msg, shared, challenge, hheard, ?_, hkey, hchallenge, ?_⟩
    · rw [hrole, type]
      rfl
    · rw [hrole, hsignature]
      rfl

/-- Every move keeps what the sessions for the peer say. -/
theorem Move.faithful (json : ReadsJson prim) (keys : KeyLength prim)
    (guarded : Guarded prim advertised peer heard ans incoming start)
    (hstart : Faithful prim advertised me peer heard start)
    (move : Move prim ans incoming start p q) (h : Faithful prim advertised me peer heard p) :
    Faithful prim advertised me peer heard q where
  name := move.ourDht.trans h.name
  saved := move.saved h.saved
  author m hm := by
    rcases move.sent_message_cases json h.saved hm with hbefore | ⟨route, hfresh⟩
    · exact h.author m hbefore
    · rw [← h.name]
      exact hfresh.author
  opening _ ht := (move.opening keys guarded h ht).1
  keyed _ ht := (move.opening keys guarded h ht).2
  established _ ht hestablished := move.witnessed guarded hstart h ht hestablished

/-- And so does every operation. -/
theorem Faithful.perform (json : ReadsJson prim) (keys : KeyLength prim)
    {op : Operation} (h : Faithful prim advertised me peer heard p)
    (guarded : Guarded prim advertised peer heard ans (op.incoming prim ans) p) :
    Faithful prim advertised me peer heard (perform prim direct ans p op) :=
  (perform_moves op p).invariant (fun _ _ move => move.faithful json keys guarded h) h

/-- A node without sessions that has sent nothing. -/
theorem Faithful.new : Faithful prim advertised me peer heard ⟨.new me, []⟩ where
  name := rfl
  saved := by
    intro other s hs
    cases hs
  author := by
    rintro m ⟨route, hsent⟩
    cases hsent
  opening := by
    intro s hs
    cases hs
  keyed := by
    intro s hs
    cases hs
  established := by
    intro s hs
    cases hs

end VeilKnit.Handshake
