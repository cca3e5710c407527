import VeilKnit.Handshake.Participation

/-!
# Two nodes agree

Two honest nodes take part in handshakes with each other and with anyone else. Their messages
may be lost, repeated, delayed and reordered, and strangers who do not know the challenges may
add messages of their own. If both nodes come to hold an established session with one token,
they hold the same key and the same encryption mode.

A responder's session is established by a type 3 of the initiator, and what a node's type 3
rests on is the session that sent it. So the proof follows the type 3 messages: each one stands
for a type 1 of its sender and for a type 2 of the peer, and the sender's session with that
token has the key of the type 3 or has failed.
-/

namespace VeilKnit.Handshake

open Library

variable {Secret : Type} {prim : Primitives Secret} {ans : Answers Secret}
  {incoming : Option (HandshakeMessage × Bytes)} {start p q : Process Secret}
  {advertised : String → Bytes → Prop} {me peer : String} {heard : HandshakeMessage → Prop}

/-! ## Answers to challenges -/

variable {key challenge route : Bytes}

/-- An answer determines who answers whom, the key and the challenge. -/
theorem createResponse_injective (collisionFree : Function.Injective prim.sha256)
    {key' challenge' : Bytes} {initiator responder responder' : String}
    (hkey : key.length = 32) (hkey' : key'.length = 32) (hchallenge : challenge.length = 32)
    (hchallenge' : challenge'.length = 32)
    (h : createResponse prim key initiator responder challenge =
      createResponse prim key' initiator responder' challenge') :
    key = key' ∧ responder = responder' ∧ challenge = challenge' := by
  have hbytes := collisionFree h
  rw [List.append_assoc, List.append_assoc, List.append_assoc key', List.append_assoc] at hbytes
  obtain ⟨hkeys, hrest⟩ := List.append_inj hbytes (hkey.trans hkey'.symm)
  have htail : utf8 responder ++ challenge = utf8 responder' ++ challenge' := by
    rw [List.append_assoc] at hrest
    exact List.append_cancel_left hrest
  obtain ⟨hnames, hchallenges⟩ := List.append_inj' htail (hchallenge.trans hchallenge'.symm)
  exact ⟨hkeys, utf8_injective hnames, hchallenges⟩

variable {msg welcome m : HandshakeMessage}

/-- A message that is taken in has a challenge of the right length if it is a type 2. -/
theorem validateHandshakeMessage_challenge
    (valid : validateHandshakeMessage msg = .ok ()) (type : msg.messageType = 2)
    (hchallenge : msg.challenge = some challenge) : challenge.length = 32 := by
  by_contra hlength
  have hinvalid : msg.challenge.any (·.length = handshakeChallengeBytes) = false := by
    rw [hchallenge, Option.any_some, decide_eq_false_iff_not]
    exact hlength
  unfold validateHandshakeMessage at valid
  simp only [type, hinvalid] at valid
  split_ifs at valid <;> simp_all

theorem Operation.incoming_challenge {op : Operation}
    {raw : Bytes} (inbound : op.incoming prim ans = some (msg, raw))
    (type : msg.messageType = 2) (hchallenge : msg.challenge = some challenge) :
    challenge.length = 32 := by
  unfold Operation.incoming at inbound
  split at inbound
  case h_2 => cases inbound
  case h_1 data =>
  split at inbound
  case isTrue => cases inbound
  case isFalse =>
  split at inbound
  case h_2 => cases inbound
  case h_1 message hdecoded =>
  obtain ⟨rfl, -⟩ := Prod.mk.inj (Option.some.inj inbound)
  obtain ⟨m, -, hdecoded⟩ := except_bind_eq_ok.mp hdecoded
  obtain ⟨⟨⟩, hvalid, hdecoded⟩ := except_bind_eq_ok.mp hdecoded
  have hsame : m = message := by
    simp only [throw, throwThe, MonadExceptOf.throw, bind, Except.bind] at hdecoded
    split_ifs at hdecoded
    exact Except.ok.inj hdecoded
  rw [hsame] at hvalid
  exact validateHandshakeMessage_challenge hvalid type hchallenge

/-! ## What a type 3 stands for -/

section Finals

variable (prim : Primitives Secret) (me peer : String) (heard : HandshakeMessage → Prop)

/-- A session agrees with a type 3 that its owner has sent: the exchange of flights is over,
and an established session has the key of the type 3 and the mode of the type 2 before it. -/
structure Agrees (s : HandshakeState Secret) (welcome : HandshakeMessage) (sharedKey : Bytes) :
    Prop where
  answered : s.status ≠ .initSent
  key : s.status = .established → s.sessionKey = some sharedKey
  mode : s.status = .established → ∀ mode, welcome.encryptionMode = some mode →
    mode = s.encryptionMode

/-- A type 3 to the peer ends a handshake that its sender began and the peer answered. -/
structure EndsHandshake (p : Process Secret) (m : HandshakeMessage) (sharedKey challenge : Bytes) :
    Prop where
  opened : ∃ init, Sent p init ∧ init.messageType = 1 ∧ init.token = m.token
  answered : ∃ welcome, heard welcome ∧ welcome.messageType = 2 ∧
    welcome.challenge = some challenge ∧ welcome.token = m.token ∧
    ∀ s, p.session peer = some s → s.isInitiator = true → s.token = m.token →
      Agrees s welcome sharedKey

/-- A type 3 answers a challenge under a key; towards the peer it ends a handshake. -/
structure IsFinal (p : Process Secret) (m : HandshakeMessage) (other : String)
    (sharedKey challenge : Bytes) : Prop where
  signature : m.signature = some (createResponse prim sharedKey me other challenge)
  keyLength : sharedKey.length = 32
  challengeLength : challenge.length = 32
  completes : other = peer → EndsHandshake peer heard p m sharedKey challenge

/-- What the type 3 messages of a node stand for. -/
def FinalsComplete (p : Process Secret) : Prop :=
  ∀ m, Sent p m → m.messageType = 3 → ∃ other sharedKey challenge,
    IsFinal prim me peer heard p m other sharedKey challenge

end Finals

variable {s t : HandshakeState Secret}

theorem Agrees.touched
    (h : Agrees s welcome key) (touched : Touched s t) : Agrees t welcome key := by
  have hbefore : t.status = .established → s.status = .established := by
    intro hestablished
    rcases touched.status with hsame | ⟨-, hfailed⟩
    · exact hsame.symm.trans hestablished
    · rw [hestablished] at hfailed
      cases hfailed
  refine ⟨fun hsent => ?_, fun ht => touched.sessionKey.trans (h.key (hbefore ht)),
    fun ht mode hmode => (h.mode (hbefore ht) mode hmode).trans touched.encryptionMode.symm⟩
  rcases touched.status with hsame | ⟨-, hfailed⟩
  · exact h.answered (hsame.symm.trans hsent)
  · rw [hsent] at hfailed
    cases hfailed

theorem Concluded.agrees (h : Concluded s t key)
    (mode : ∀ mode, welcome.encryptionMode = some mode → mode = s.encryptionMode) :
    Agrees t welcome key := by
  rcases h with hfailed | ⟨hestablished, hkey, hmode⟩
  · refine ⟨by simp [hfailed], fun ht => ?_, fun ht => ?_⟩ <;>
    · rw [hfailed] at ht
      cases ht
  · refine ⟨by simp [hestablished], fun _ => hkey, fun _ mode' hmode' => ?_⟩
    rw [hmode]
    exact mode mode' hmode'

/-- Handshakes that a step begins have tokens of their own. -/
def FreshToken (ans : Answers Secret) (p : Process Secret) : Prop :=
  ∀ m, Sent p m → m.messageType = 1 → ∀ target, m.token ≠ ans.randomHandshakeToken target

section Step

variable (prim : Primitives Secret) (advertised : String → Bytes → Prop) (me peer : String)
  (heard : HandshakeMessage → Prop) (incoming : Option (HandshakeMessage × Bytes))
  (start p : Process Secret)

/-- What holds of a node between the moves of a step. -/
structure Conduct : Prop where
  faithful : Faithful prim advertised me peer heard p
  finals : FinalsComplete prim me peer heard p
  /-- Only a message that arrives makes a node send a type 3. -/
  prompted : incoming = none → ∀ m, Sent p m → m.messageType = 3 → Sent start m

end Step

/-- What a type 3 stood for before a move it stands for after it. -/
theorem Move.completes (collisionFree : Function.Injective prim.sha256)
    (fresh : FreshToken ans start) (hstart : FinalsComplete prim me peer heard start)
    (move : Move prim ans incoming start p q)
    (h : Conduct prim advertised me peer heard incoming start p)
    (hm : Sent p m) (type : m.messageType = 3) {sharedKey : Bytes}
    (hfinal : IsFinal prim me peer heard p m peer sharedKey challenge) :
    EndsHandshake peer heard q m sharedKey challenge := by
  obtain ⟨⟨init, hinit, hinitType, hinitToken⟩, welcome, hheard, hwelcome, hchallenge, htoken,
    hagrees⟩ := hfinal.completes rfl
  refine ⟨⟨init, hinit.mono move.effects_subset, hinitType, hinitToken⟩, welcome, hheard,
    hwelcome, hchallenge, htoken, fun t ht hrole hsame => ?_⟩
  cases move.became ht with
  | kept session touched =>
    exact (hagrees _ session (touched.isInitiator.symm.trans hrole)
      (touched.token.symm.trans hsame)).touched touched
  | initiated outbound fetched encoded sent =>
    -- The token of a new handshake is in no type 3 so far.
    obtain ⟨other, key', challenge', hbefore⟩ := hstart m (h.prompted outbound m hm type) type
    have hresponse := Option.some.inj (hfinal.signature.symm.trans hbefore.signature)
    obtain ⟨-, hother, -⟩ := createResponse_injective collisionFree hfinal.keyLength
      hbefore.keyLength hfinal.challengeLength hbefore.challengeLength hresponse
    obtain ⟨init', hsent', htype', htoken'⟩ := (hbefore.completes hother.symm).opened
    exact absurd (htoken'.trans hsame.symm) (fresh init' hsent' htype' peer)
  | welcomed _ _ _ _ _ _ _ => cases hrole
  | @replied msg raw route bytes s parts inbound type' sender narrowed session accepted _ _ _ =>
    obtain ⟨hinitiator, hstatus, -⟩ := checkWelcomeReply_eq_ok accepted.checked
    exact absurd hstatus (hagrees s session hinitiator hsame).answered
  | @finished msg raw s inbound type' sender narrowed session accepted =>
    have hresponder : s.isInitiator = true := hrole
    rw [(checkFinal_eq_ok accepted).1] at hresponder
    cases hresponder

/-- A type 3 that a move sends. -/
theorem Fresh.isFinal (keys : KeyLength prim)
    (challenges : ∀ msg raw challenge, incoming = some (msg, raw) → msg.messageType = 2 →
      msg.challenge = some challenge → challenge.length = 32)
    (guarded : Guarded prim advertised peer heard ans incoming start)
    (hstart : Faithful prim advertised me peer heard start)
    (h : Faithful prim advertised me peer heard p) (more : p.effects ⊆ q.effects)
    (hfresh : Fresh prim ans incoming start p q route m) (type : m.messageType = 3) :
    incoming ≠ none ∧ ∃ other sharedKey challenge,
      IsFinal prim me peer heard q m other sharedKey challenge := by
  cases hfresh with
  | control _ _ htype =>
    rw [type] at htype
    exact absurd htype (by decide)
  | init _ _ => cases type
  | welcome _ _ _ _ _ => cases type
  | @final msg raw _ s t parts inbound htype narrowed session accepted after concluded =>
    obtain ⟨hinitiator, -, htoken, hmode, -, -, hchallenge, -⟩ :=
      checkWelcomeReply_eq_ok accepted.checked
    refine ⟨by simp [inbound], msg.senderDht,
      prim.diffieHellman parts.ourPrivate msg.senderPubkey, parts.theirChallenge, ?_, keys _ _,
      challenges msg raw _ inbound htype hchallenge, ?_⟩
    · rw [← h.name]
      rfl
    intro hpeer
    subst hpeer
    obtain ⟨init, _, hopening⟩ := h.opening s session
    obtain ⟨hheard, -⟩ := hstart.heard_of_accepted guarded h narrowed inbound rfl session accepted
    refine ⟨⟨init, hopening.sent.sent.mono more, ?_, hopening.token.trans htoken⟩, msg, hheard,
      htype, hchallenge, rfl, ?_⟩
    · rw [hopening.type, hinitiator]
      rfl
    · intro t' ht' _ _
      cases after.symm.trans ht'
      exact concluded.agrees hmode

theorem Move.conduct (json : ReadsJson prim) (keys : KeyLength prim)
    (collisionFree : Function.Injective prim.sha256) (fresh : FreshToken ans start)
    (challenges : ∀ msg raw challenge, incoming = some (msg, raw) → msg.messageType = 2 →
      msg.challenge = some challenge → challenge.length = 32)
    (guarded : Guarded prim advertised peer heard ans incoming start)
    (hstart : Conduct prim advertised me peer heard incoming start start)
    (move : Move prim ans incoming start p q)
    (h : Conduct prim advertised me peer heard incoming start p) :
    Conduct prim advertised me peer heard incoming start q := by
  refine ⟨move.faithful json keys guarded hstart.faithful h.faithful, ?_, ?_⟩
  · intro m hm type
    rcases move.sent_message_cases json h.faithful.saved hm with hbefore | ⟨route, hfresh⟩
    · obtain ⟨other, sharedKey, challenge, hfinal⟩ := h.finals m hbefore type
      refine ⟨other, sharedKey, challenge, { hfinal with completes := fun hpeer => ?_ }⟩
      subst hpeer
      exact move.completes collisionFree fresh hstart.finals h hbefore type hfinal
    · exact (hfresh.isFinal keys challenges guarded hstart.faithful h.faithful
        move.effects_subset type).2
  · intro hnone m hm type
    rcases move.sent_message_cases json h.faithful.saved hm with hbefore | ⟨route, hfresh⟩
    · exact h.prompted hnone m hbefore type
    · exact absurd hnone (hfresh.isFinal keys challenges guarded hstart.faithful h.faithful
        move.effects_subset type).1

/-! ## The challenges of type 2 messages -/

/-- The challenge of a type 2 is in no other handshake. -/
def UniqueWelcomes (p : Process Secret) : Prop :=
  ∀ m m', Sent p m → Sent p m' → m.messageType = 2 → m'.messageType = 2 →
    m.challenge = m'.challenge → m.token = m'.token ∧ m.encryptionMode = m'.encryptionMode

theorem Fresh.welcome_of_type
    (h : Fresh prim ans incoming start p q route m) (type : m.messageType = 2) :
    ∃ msg raw, incoming = some (msg, raw) ∧ p.effects = start.effects ∧
      m.challenge = some (ans.randomChallenge msg.senderDht) ∧ m.token = msg.token ∧
      m.encryptionMode = some (msg.encryptionMode.getD .none) := by
  cases h with
  | control _ _ htype =>
    rw [type] at htype
    exact absurd htype (by decide)
  | init _ _ => cases type
  | @welcome msg raw _ _ _ inbound _ first _ _ => exact ⟨msg, raw, inbound, first, rfl, rfl, rfl⟩
  | final _ _ _ _ _ _ _ => cases type

theorem Move.uniqueWelcomes (json : ReadsJson prim) (unguessed : Unguessed ans start)
    (move : Move prim ans incoming start p q) (saved : Saved p) (h : UniqueWelcomes p) :
    UniqueWelcomes q := by
  -- A message sent before the step carries no challenge that the step draws.
  have hold : ∀ m m' : HandshakeMessage, Sent p m → (∃ route, Fresh prim ans incoming start p q
      route m') → m'.messageType = 2 → m.challenge ≠ m'.challenge := by
    intro m m' hm hm' type
    obtain ⟨route, hfresh⟩ := hm'
    obtain ⟨msg, raw, -, hfirst, hchallenge, -⟩ := hfresh.welcome_of_type type
    obtain ⟨route', hsent⟩ := hm
    rw [hfirst] at hsent
    rw [hchallenge]
    exact unguessed.unsent m ⟨route', hsent⟩ msg.senderDht
  intro m m' hm hm' type type' hchallenge
  rcases move.sent_message_cases json saved hm with hbefore | hfresh
  · rcases move.sent_message_cases json saved hm' with hbefore' | hfresh'
    · exact h m m' hbefore hbefore' type type' hchallenge
    · exact absurd hchallenge (hold m m' hbefore hfresh' type')
  rcases move.sent_message_cases json saved hm' with hbefore' | ⟨route', hfresh'⟩
  · exact absurd hchallenge.symm (hold m' m hbefore' hfresh type)
  · obtain ⟨route, hfresh⟩ := hfresh
    obtain ⟨msg, raw, hincoming, -, -, htoken, hmode⟩ := hfresh.welcome_of_type type
    obtain ⟨msg', raw', hincoming', -, -, htoken', hmode'⟩ := hfresh'.welcome_of_type type'
    obtain ⟨rfl, -⟩ := Prod.mk.inj (Option.some.inj (hincoming.symm.trans hincoming'))
    exact ⟨htoken.trans htoken'.symm, hmode.trans hmode'.symm⟩

/-! ## Tokens -/

theorem Fresh.token_of_init
    (h : Fresh prim ans incoming start p q route m) (type : m.messageType = 1) :
    ∃ target, m.token = ans.randomHandshakeToken target := by
  cases h with
  | control _ _ htype =>
    rw [type] at htype
    exact absurd htype (by decide)
  | @init target _ _ _ _ _ _ => exact ⟨target, rfl⟩
  | welcome _ _ _ _ _ => cases type
  | final _ _ _ _ _ _ _ => cases type

/-- The type 1 messages of a step are those before it and some with tokens that it draws. -/
theorem Move.init_cases (json : ReadsJson prim) (move : Move prim ans incoming start p q)
    (h : Saved p ∧ ∀ m, Sent p m → m.messageType = 1 → Sent start m ∨
      ∃ target, m.token = ans.randomHandshakeToken target) :
    Saved q ∧ ∀ m, Sent q m → m.messageType = 1 → Sent start m ∨
      ∃ target, m.token = ans.randomHandshakeToken target := by
  refine ⟨move.saved h.1, fun m hm type => ?_⟩
  rcases move.sent_message_cases json h.1 hm with hbefore | ⟨route, hfresh⟩
  · exact h.2 m hbefore type
  · exact .inr (hfresh.token_of_init type)

/-! ## Two nodes -/

/-- Two nodes, and what happens to one of them. -/
abbrev Pair (Secret : Type) := Bool → Process Secret

structure PairStep (Secret : Type) where
  side : Bool
  op : Operation
  ans : Answers Secret

section System

variable (prim : Primitives Secret) (direct : DirectPrimitives)
  (advertised : String → Bytes → Prop) (name : Bool → String)

def Pair.step (w : Pair Secret) (label : PairStep Secret) : Pair Secret :=
  Function.update w label.side (perform prim direct label.ans (w label.side) label.op)

/-- What the surroundings guarantee in a step. A message in the other node's name is one that
the other node has sent, to anyone and at any time before, or one that answers none of the
challenges which went only to the other node's routes. -/
structure Pair.Sound (w : Pair Secret) (label : PairStep Secret) : Prop where
  routes : ∀ target blob, label.ans.fetchRouteBlob target = .ok blob → advertised target blob
  challenges : ∀ target, (label.ans.randomChallenge target).length = 32
  unguessed : Unguessed label.ans (w label.side)
  tokens : ∀ side, FreshToken label.ans (w side)
  genuine : ∀ msg raw, label.op.incoming prim label.ans = some (msg, raw) →
    msg.senderDht = name (!label.side) → Sent (w (!label.side)) msg ∨
      ∀ challenge, Private advertised (name (!label.side)) (w label.side) challenge →
        ¬ Responds prim msg challenge

/-- The runs of two nodes that start without sessions. -/
def pairSystem : LabelledSystem (Pair Secret) (PairStep Secret) where
  initial w := ∀ side, w side = ⟨.new (name side), []⟩
  step w label w' := w.Sound prim advertised name label ∧ w' = w.step prim direct label

/-- What holds of each of the two nodes. -/
structure Pair.Inv (w : Pair Secret) (side : Bool) : Prop where
  faithful : Faithful prim advertised (name side) (name (!side)) (Sent (w (!side))) (w side)
  finals : FinalsComplete prim (name side) (name (!side)) (Sent (w (!side))) (w side)
  keepsPrivate : KeepsPrivate advertised (name (!side)) (w side)
  uniqueWelcomes : UniqueWelcomes (w side)

/-- The two nodes begin no two handshakes with one token. -/
def Pair.Apart (w : Pair Secret) : Prop :=
  ∀ side m m', Sent (w side) m → Sent (w (!side)) m' → m.messageType = 1 →
    m'.messageType = 1 → m.token ≠ m'.token

end System

variable {direct : DirectPrimitives} {name : Bool → String}

theorem FinalsComplete.mono {heard' : HandshakeMessage → Prop}
    (h : FinalsComplete prim me peer heard p) (more : ∀ m, heard m → heard' m) :
    FinalsComplete prim me peer heard' p := by
  intro m hm type
  obtain ⟨other, sharedKey, challenge, hfinal⟩ := h m hm type
  refine ⟨other, sharedKey, challenge, hfinal.signature, hfinal.keyLength,
    hfinal.challengeLength, fun hpeer => ?_⟩
  obtain ⟨hopened, welcome, hheard, hrest⟩ := hfinal.completes hpeer
  exact ⟨hopened, welcome, more welcome hheard, hrest⟩

variable {w : Pair Secret} {label : PairStep Secret}

theorem Pair.Sound.guarded (h : w.Sound prim advertised name label)
    (hprivate : KeepsPrivate advertised (name (!label.side)) (w label.side)) :
    Guarded prim advertised (name (!label.side)) (Sent (w (!label.side))) label.ans
      (label.op.incoming prim label.ans) (w label.side) where
  routes := h.routes
  challenges := h.challenges
  genuine msg raw hincoming hsender :=
    (h.genuine msg raw hincoming hsender).imp id fun hunknown challenge hchallenged =>
      hunknown challenge (hprivate challenge hchallenged)

/-- A step keeps what holds of the node that takes it. -/
theorem Pair.Inv.perform (json : ReadsJson prim) (keys : KeyLength prim)
    (collisionFree : Function.Injective prim.sha256) (sound : w.Sound prim advertised name label)
    (h : w.Inv prim advertised name label.side) {after : Process Secret}
    (hafter : after = Handshake.perform prim direct label.ans (w label.side) label.op) :
    (Conduct prim advertised (name label.side) (name (!label.side)) (Sent (w (!label.side)))
      (label.op.incoming prim label.ans) (w label.side) after ∧ UniqueWelcomes after) ∧
      KeepsPrivate advertised (name (!label.side)) after := by
  subst hafter
  have hguarded := sound.guarded h.keepsPrivate
  have hstart : Conduct prim advertised (name label.side) (name (!label.side))
      (Sent (w (!label.side))) (label.op.incoming prim label.ans) (w label.side)
      (w label.side) := ⟨h.faithful, h.finals, fun _ _ hm _ => hm⟩
  refine ⟨(perform_moves label.op (w label.side)).invariant (P := fun p =>
    Conduct prim advertised (name label.side) (name (!label.side)) (Sent (w (!label.side)))
      (label.op.incoming prim label.ans) (w label.side) p ∧ UniqueWelcomes p) ?_
    ⟨hstart, h.uniqueWelcomes⟩, h.keepsPrivate.perform json h.faithful.saved sound.unguessed⟩
  intro p q move hp
  exact ⟨move.conduct json keys collisionFree (sound.tokens label.side)
    (fun msg raw challenge inbound type hchallenge =>
      Operation.incoming_challenge inbound type hchallenge) hguarded hstart hp.1,
    move.uniqueWelcomes json sound.unguessed hp.1.faithful.saved hp.2⟩

theorem perform_effects (op : Operation) (p : Process Secret) :
    p.effects ⊆ (perform prim direct ans p op).effects :=
  (perform_moves op p).invariant (P := fun q => p.effects ⊆ q.effects)
    (fun _ _ move h => List.Subset.trans h move.effects_subset) (List.Subset.refl _)

theorem Pair.step_self (w : Pair Secret) (label : PairStep Secret) :
    w.step prim direct label label.side = perform prim direct label.ans (w label.side) label.op :=
  Function.update_self _ _ _

theorem Pair.step_other (w : Pair Secret) (label : PairStep Secret) :
    w.step prim direct label (!label.side) = w (!label.side) :=
  Function.update_of_ne (by simp) _ _

theorem Pair.Inv.step (json : ReadsJson prim) (keys : KeyLength prim)
    (collisionFree : Function.Injective prim.sha256)
    (sound : w.Sound prim advertised name label) (h : ∀ side, w.Inv prim advertised name side)
    (side : Bool) : (w.step prim direct label).Inv prim advertised name side := by
  by_cases hside : side = label.side
  case pos =>
    subst hside
    obtain ⟨⟨hconduct, hunique⟩, hprivate⟩ :=
      (h label.side).perform json keys collisionFree sound (w.step_self label)
    constructor
    · rw [Pair.step_other]
      exact hconduct.faithful
    · rw [Pair.step_other]
      exact hconduct.finals
    · exact hprivate
    · exact hunique
  case neg =>
  obtain rfl : side = !label.side := Bool.eq_not.mpr hside
  have hkept := h (!label.side)
  -- The node that does nothing may hear more than before.
  have hmore : ∀ m, Sent (w (!!label.side)) m →
      Sent (w.step prim direct label (!!label.side)) m := by
    intro m hm
    rw [Bool.not_not] at hm ⊢
    rw [Pair.step_self]
    exact hm.mono (perform_effects label.op _)
  constructor
  · rw [Pair.step_other]
    exact hkept.faithful.mono hmore
  · rw [Pair.step_other]
    exact hkept.finals.mono hmore
  · rw [Pair.step_other]
    exact hkept.keepsPrivate
  · rw [Pair.step_other]
    exact hkept.uniqueWelcomes

theorem Pair.Apart.step (json : ReadsJson prim)
    (sound : w.Sound prim advertised name label) (saved : Saved (w label.side))
    (h : w.Apart) : (w.step prim direct label).Apart := by
  have hcases : ∀ m, Sent (w.step prim direct label label.side) m → m.messageType = 1 →
      Sent (w label.side) m ∨ ∃ target, m.token = label.ans.randomHandshakeToken target := by
    rw [Pair.step_self]
    exact ((perform_moves label.op (w label.side)).invariant
      (fun _ _ move hp => move.init_cases json hp) ⟨saved, fun m hm _ => .inl hm⟩).2
  have hapart : ∀ m m', Sent (w.step prim direct label label.side) m →
      Sent (w (!label.side)) m' → m.messageType = 1 → m'.messageType = 1 →
      m.token ≠ m'.token := by
    intro m m' hm hm' type type'
    rcases hcases m hm type with hbefore | ⟨target, htoken⟩
    · exact h label.side m m' hbefore hm' type type'
    · rw [htoken]
      exact (sound.tokens (!label.side) m' hm' type' target).symm
  intro side m m' hm hm' type type'
  by_cases hside : side = label.side
  case pos =>
    subst hside
    rw [Pair.step_other] at hm'
    exact hapart m m' hm hm' type type'
  case neg =>
    obtain rfl : side = !label.side := Bool.eq_not.mpr hside
    rw [Pair.step_other] at hm
    rw [Bool.not_not] at hm'
    exact (hapart m' m hm' hm type' type).symm

theorem Pair.inv (json : ReadsJson prim) (keys : KeyLength prim)
    (collisionFree : Function.Injective prim.sha256) :
    (pairSystem prim direct advertised name).Invariant
      (fun w => (∀ side, w.Inv prim advertised name side) ∧ w.Apart) where
  initially w hw := by
    have hsilent : ∀ side m, ¬ Sent (w side) m := by
      rintro side m ⟨route, hsent⟩
      rw [hw side] at hsent
      cases hsent
    refine ⟨fun side => ⟨?_, ?_, ?_, ?_⟩, fun side m _ hm => absurd hm (hsilent side m)⟩
    · rw [hw side]
      exact Faithful.new
    · exact fun m hm => absurd hm (hsilent side m)
    · rintro challenge ⟨m, hsent, -⟩
      exact absurd hsent.sent (hsilent side m)
    · exact fun m _ hm => absurd hm (hsilent side m)
  preserved w label w' hw hstep := by
    obtain ⟨hsound, rfl⟩ := hstep
    exact ⟨Pair.Inv.step json keys collisionFree hsound hw.1,
      Pair.Apart.step json hsound (hw.1 label.side).faithful.saved hw.2⟩

/-- What the established session of a responder says of the other node: that node began the
handshake, and its established session with that token has the same key and mode. -/
theorem Pair.Inv.responder (collisionFree : Function.Injective prim.sha256)
    (h : ∀ side, w.Inv prim advertised name side) (side : Bool)
    (session : (w side).session (name (!side)) = some t) (established : t.status = .established)
    (responder : t.isInitiator = false) :
    (∃ init, Sent (w (!side)) init ∧ init.messageType = 1 ∧ init.token = t.token) ∧
      ∃ key, t.sessionKey = some key ∧ ∀ s, (w (!side)).session (name side) = some s →
        s.isInitiator = true → s.token = t.token → s.status = .established →
          s.sessionKey = some key ∧ s.encryptionMode = t.encryptionMode := by
  obtain ⟨final, key, challenge, hwitness⟩ := (h side).faithful.established t session established
  obtain ⟨opening, challenge', hopening⟩ := (h side).faithful.opening t session
  obtain rfl : challenge' = challenge :=
    Option.some.inj (hopening.ourChallenge.symm.trans hwitness.ourChallenge)
  have htype : final.messageType = 3 := by
    rw [hwitness.type, responder]
    rfl
  have hsignature : final.signature = some
      (createResponse prim key (name (!side)) (name side) challenge') := by
    rw [hwitness.signature, responder]
    rfl
  have hfinals := (h (!side)).finals
  rw [Bool.not_not] at hfinals
  obtain ⟨other, key', challenge, hfinal⟩ := hfinals final hwitness.received htype
  obtain ⟨rfl, rfl, rfl⟩ := createResponse_injective collisionFree
    ((h side).faithful.keyed t session key hwitness.sessionKey) hfinal.keyLength hopening.length
    hfinal.challengeLength (Option.some.inj (hsignature.symm.trans hfinal.signature))
  obtain ⟨⟨init, hinit, hinitType, hinitToken⟩, welcome, hwelcome, hwelcomeType, hcarried, htoken,
    hagrees⟩ := hfinal.completes rfl
  have hopeningType : opening.messageType = 2 := by
    rw [hopening.type, responder]
    rfl
  obtain ⟨hsameToken, hsameMode⟩ := (h side).uniqueWelcomes welcome opening hwelcome
    hopening.sent.sent hwelcomeType hopeningType (hcarried.trans hopening.carried.symm)
  have hfinalToken : final.token = t.token := htoken.symm.trans (hsameToken.trans hopening.token)
  refine ⟨⟨init, hinit, hinitType, hinitToken.trans hfinalToken⟩, key, hwitness.sessionKey,
    fun s hs hrole hsToken hsEstablished => ?_⟩
  have hagreed := hagrees s hs hrole (hsToken.trans hfinalToken.symm)
  exact ⟨hagreed.key hsEstablished, (hagreed.mode hsEstablished t.encryptionMode
    (hsameMode.trans hopening.mode)).symm⟩

/-- If two nodes hold established sessions for each other with the same token, the sessions
have the same key and the same encryption mode. -/
theorem same_token_same_key (json : ReadsJson prim) (keys : KeyLength prim)
    (collisionFree : Function.Injective prim.sha256) {w : Pair Secret}
    (reached : (pairSystem prim direct advertised name).Reachable w)
    {s t : HandshakeState Secret} (hs : (w false).session (name true) = some s)
    (ht : (w true).session (name false) = some t) (hsEstablished : s.status = .established)
    (htEstablished : t.status = .established) (token : s.token = t.token) :
    (∃ key, s.sessionKey = some key ∧ t.sessionKey = some key) ∧
      s.encryptionMode = t.encryptionMode := by
  obtain ⟨hinv, hapart⟩ := (Pair.inv json keys collisionFree).holds reached
  have hbegan : ∀ side r, (w side).session (name (!side)) = some r → r.isInitiator = true →
      ∃ init, Sent (w side) init ∧ init.messageType = 1 ∧ init.token = r.token := by
    intro side r hr hrole
    obtain ⟨init, challenge, hopening⟩ := (hinv side).faithful.opening r hr
    refine ⟨init, hopening.sent.sent, ?_, hopening.token⟩
    rw [hopening.type, hrole]
    rfl
  -- Each of the two nodes began a handshake or answered one.
  cases hsRole : s.isInitiator with
  | true =>
    obtain ⟨init, hinit, hinitType, hinitToken⟩ := hbegan false s hs hsRole
    cases htRole : t.isInitiator with
    | true =>
      obtain ⟨init', hinit', hinitType', hinitToken'⟩ := hbegan true t ht htRole
      exact absurd (hinitToken.trans (token.trans hinitToken'.symm))
        (hapart false init init' hinit hinit' hinitType hinitType')
    | false =>
      obtain ⟨-, key, hkey, hsame⟩ :=
        Pair.Inv.responder collisionFree hinv true ht htEstablished htRole
      obtain ⟨hskey, hmode⟩ := hsame s hs hsRole token hsEstablished
      exact ⟨⟨key, hskey, hkey⟩, hmode⟩
  | false =>
    obtain ⟨⟨init, hinit, hinitType, hinitToken⟩, key, hkey, hsame⟩ :=
      Pair.Inv.responder collisionFree hinv false hs hsEstablished hsRole
    cases htRole : t.isInitiator with
    | true =>
      obtain ⟨htkey, hmode⟩ := hsame t ht htRole token.symm htEstablished
      exact ⟨⟨key, hkey, htkey⟩, hmode.symm⟩
    | false =>
      obtain ⟨⟨init', hinit', hinitType', hinitToken'⟩, -⟩ :=
        Pair.Inv.responder collisionFree hinv true ht htEstablished htRole
      exact absurd (hinitToken'.trans (token.symm.trans hinitToken.symm))
        (hapart false init' init hinit' hinit hinitType' hinitType)

section Sample

def sampleName (side : Bool) : String := cond side "b" "a"

def pairOf (left right : Process UInt8) : Pair UInt8 := fun side => cond side right left

/-- The initiator after its type 1, and after the answer to it. -/
def openedNode : Process UInt8 :=
  perform Sample.primitives Sample.direct (answersFor "b" 2 4 "t") ⟨.new "a", []⟩
    (.initiateHandshake "b")

def answeredNode : Process UInt8 :=
  perform Sample.primitives Sample.direct (answersFor "b" 2 6 "v") openedNode
    (.appMessage welcomeOfB.toJson)

theorem sentBytes_openedNode :
    sentBytes openedNode = [initOfA].map HandshakeMessage.toJson := by decide +kernel

theorem sentBytes_answeredNode :
    sentBytes answeredNode = [initOfA, finalOfA].map HandshakeMessage.toJson := by
  decide +kernel

/-- What arrives is the message that was sent. -/
theorem eq_of_inbound (message : HandshakeMessage) {msg : HandshakeMessage} {raw raw' : Bytes}
    {ans : Answers UInt8}
    (inbound : (Operation.appMessage raw).incoming Sample.primitives ans = some (message, raw))
    (h : (Operation.appMessage raw).incoming Sample.primitives ans = some (msg, raw')) :
    msg = message :=
  (congrArg Prod.fst (Option.some.inj (inbound.symm.trans h))).symm

abbrev samplePair : LabelledSystem (Pair UInt8) (PairStep UInt8) :=
  pairSystem Sample.primitives Sample.direct advertisedByName sampleName

/-- A step whose randomness is new, and to which a message of the other node arrives. -/
theorem reachable_after {left left' right right' : Process UInt8} (side : Bool) {op : Operation}
    {secret challenge : UInt8} {token : String} {ours theirs : List HandshakeMessage}
    (reached : samplePair.Reachable (pairOf left right))
    (hleft : sentBytes left = ours.map HandshakeMessage.toJson)
    (hright : sentBytes right = theirs.map HandshakeMessage.toJson)
    (after : pairOf left' right' = (pairOf left right).step Sample.primitives Sample.direct
      ⟨side, op, answersFor (sampleName (!side)) secret challenge token⟩)
    (unsent : ∀ m ∈ cond side theirs ours, m.challenge ≠ some (List.replicate 32 challenge))
    (tokens : ∀ m ∈ ours ++ theirs, m.messageType = 1 → m.token ≠ token)
    (genuine : ∀ msg raw, op.incoming Sample.primitives
      (answersFor (sampleName (!side)) secret challenge token) = some (msg, raw) →
        msg ∈ cond side ours theirs) : samplePair.Reachable (pairOf left' right') := by
  have hsent : ∀ side m, Sent (pairOf left right side) m ↔ m ∈ cond side theirs ours := by
    rintro (_ | _) m
    · exact sent_iff_of_sentBytes hleft
    · exact sent_iff_of_sentBytes hright
  refine reached.next _ ⟨⟨fun target blob hfetch => (fetchRouteBlob_answersFor hfetch).2,
    fun target => List.length_replicate,
    unguessed_answersFor fun m hm => unsent m ((hsent side m).mp hm), fun side' m hm type target =>
      tokens m ?_ type, fun msg raw inbound _ => .inl ?_⟩, after⟩
  · have hmem := (hsent side' m).mp hm
    cases side' with
    | false => exact List.mem_append_left _ hmem
    | true => exact List.mem_append_right _ hmem
  · have hmem := genuine msg raw inbound
    refine (hsent (!side) msg).mpr ?_
    cases side <;> exact hmem

theorem pairOf_step_left (left right : Process UInt8) (op : Operation) (ans : Answers UInt8) :
    pairOf (perform Sample.primitives Sample.direct ans left op) right =
      (pairOf left right).step Sample.primitives Sample.direct ⟨false, op, ans⟩ := by
  funext side
  cases side <;> rfl

theorem pairOf_step_right (left right : Process UInt8) (op : Operation) (ans : Answers UInt8) :
    pairOf left (perform Sample.primitives Sample.direct ans right op) =
      (pairOf left right).step Sample.primitives Sample.direct ⟨true, op, ans⟩ := by
  funext side
  cases side <;> rfl

theorem opened_reachable : samplePair.Reachable (pairOf openedNode ⟨.new "b", []⟩) := by
  have hstart : samplePair.Reachable (pairOf ⟨.new "a", []⟩ ⟨.new "b", []⟩) :=
    .start fun side => by cases side <;> rfl
  refine reachable_after false hstart (sentBytes_new "a") (sentBytes_new "b")
    (pairOf_step_left _ _ _ _) ?_ ?_ ?_
  · simp
  · simp
  · intro msg raw h
    cases h

theorem greeted_reachable : samplePair.Reachable (pairOf openedNode greetedNode) := by
  refine reachable_after true opened_reachable sentBytes_openedNode (sentBytes_new "b")
    (pairOf_step_right _ _ _ _) ?_ ?_ ?_
  · simp
  · decide
  · intro msg raw h
    rw [eq_of_inbound initOfA (by decide +kernel) h]
    exact List.mem_cons_self

theorem answered_reachable : samplePair.Reachable (pairOf answeredNode greetedNode) := by
  refine reachable_after false greeted_reachable sentBytes_openedNode sentBytes_greetedNode
    (pairOf_step_left _ _ _ _) ?_ ?_ ?_
  · decide
  · decide
  · intro msg raw h
    rw [eq_of_inbound welcomeOfB (by decide +kernel) h]
    exact List.mem_cons_self

theorem met_reachable : samplePair.Reachable (pairOf answeredNode metNode) := by
  refine reachable_after true answered_reachable sentBytes_answeredNode sentBytes_greetedNode
    (pairOf_step_right _ _ _ _) ?_ ?_ ?_
  · decide
  · decide
  · intro msg raw h
    rw [eq_of_inbound finalOfA (by decide +kernel) h]
    exact List.mem_cons_of_mem _ List.mem_cons_self

/-- After a whole handshake both nodes hold the same key and mode. -/
theorem same_token_same_key_sample :
    ∃ s t, answeredNode.session "b" = some s ∧ metNode.session "a" = some t ∧
      (∃ key, s.sessionKey = some key ∧ t.sessionKey = some key) ∧
      s.encryptionMode = t.encryptionMode := by
  have hs : (answeredNode.session "b").any
      (fun s => s.status == .established && s.token == "t") = true := by decide +kernel
  have ht : (metNode.session "a").any
      (fun s => s.status == .established && s.token == "t") = true := by decide +kernel
  have hreached := met_reachable
  obtain ⟨left, hleft⟩ : ∃ left, left = answeredNode := ⟨_, rfl⟩
  obtain ⟨right, hright⟩ : ∃ right, right = metNode := ⟨_, rfl⟩
  rw [← hleft] at hs hreached ⊢
  rw [← hright] at ht hreached ⊢
  cases hsession : left.session "b" with
  | none => simp [hsession] at hs
  | some s =>
    cases hsession' : right.session "a" with
    | none => simp [hsession'] at ht
    | some t =>
      simp only [hsession, hsession', Option.any_some, Bool.and_eq_true, beq_iff_eq] at hs ht
      have hagree := same_token_same_key Sample.readsJson keyLength_sample
        Sample.sha256_injective hreached hsession hsession' hs.1 ht.1 (hs.2.trans ht.2.symm)
      exact ⟨s, t, rfl, rfl, hagree⟩

end Sample

end VeilKnit.Handshake
