import VeilKnit.Handshake.Trust
import VeilKnit.Handshake.WrongToken

/-!
# Nobody stands in for a peer

A node runs among peers and strangers who may send it anything in any name. The strangers do
not read what goes to the routes of one peer, so they cannot answer the challenges that went
nowhere else. Whatever the order of the steps, the node holds an established session for that
peer only if a message of the peer itself answered the session's challenge.
-/

namespace VeilKnit.Handshake

open Library

variable {Secret : Type}

/-- A node, and the messages that a peer has made so far. -/
structure Meeting (Secret : Type) where
  node : Process Secret
  made : List HandshakeMessage

inductive MeetingStep (Secret : Type)
  /-- The peer makes a message, which may then be delivered at any time, or never. -/
  | peerMakes (message : HandshakeMessage)
  /-- Something happens to the node; a message that it brings may come from anyone. -/
  | nodeActs (op : Operation) (ans : Answers Secret)

section System

variable (prim : Primitives Secret) (direct : DirectPrimitives)
  (advertised : String → Bytes → Prop) (peer : String)

def Meeting.step (w : Meeting Secret) : MeetingStep Secret → Meeting Secret
  | .peerMakes message => { w with made := message :: w.made }
  | .nodeActs op ans => { w with node := perform prim direct ans w.node op }

/-- What the surroundings guarantee in a step of the node. A message in the peer's name that
the peer has not made answers none of the challenges that went only to the peer's routes. -/
structure Meeting.Sound (w : Meeting Secret) (op : Operation) (ans : Answers Secret) : Prop where
  routes : ∀ target blob, ans.fetchRouteBlob target = .ok blob → advertised target blob
  challenges : ∀ target, (ans.randomChallenge target).length = 32
  unguessed : Unguessed ans w.node
  genuine : ∀ msg raw, op.incoming prim ans = some (msg, raw) → msg.senderDht = peer →
    msg ∈ w.made ∨ ∀ challenge, Private advertised peer w.node challenge →
      ¬ Responds prim msg challenge

def Meeting.Allowed (w : Meeting Secret) : MeetingStep Secret → Prop
  | .peerMakes _ => True
  | .nodeActs op ans => w.Sound prim advertised peer op ans

/-- The runs of a node that starts without sessions. -/
def meetingSystem : LabelledSystem (Meeting Secret) (MeetingStep Secret) where
  initial w := ∃ me, w = ⟨⟨.new me, []⟩, []⟩
  step w label w' := w.Allowed prim advertised peer label ∧ w' = w.step prim direct label

end System

variable {prim : Primitives Secret} {direct : DirectPrimitives}
  {advertised : String → Bytes → Prop} {peer : String} {heard heard' : HandshakeMessage → Prop}
  {me : String}

theorem Witnessed.mono {s : HandshakeState Secret} {m : HandshakeMessage} {key challenge : Bytes}
    (h : Witnessed prim me peer heard s m key challenge) (more : ∀ m, heard m → heard' m) :
    Witnessed prim me peer heard' s m key challenge :=
  { h with received := more m h.received }

theorem Faithful.mono {p : Process Secret} (h : Faithful prim advertised me peer heard p)
    (more : ∀ m, heard m → heard' m) : Faithful prim advertised me peer heard' p where
  name := h.name
  saved := h.saved
  author := h.author
  opening := h.opening
  keyed := h.keyed
  established s hs hestablished := by
    obtain ⟨m, key, challenge, hwitness⟩ := h.established s hs hestablished
    exact ⟨m, key, challenge, hwitness.mono more⟩

/-- What holds of the node in every run. -/
structure Meeting.Inv (prim : Primitives Secret) (advertised : String → Bytes → Prop)
    (peer : String) (w : Meeting Secret) : Prop where
  faithful : Faithful prim advertised w.node.manager.ourDht peer (· ∈ w.made) w.node
  keepsPrivate : KeepsPrivate advertised peer w.node

variable {w : Meeting Secret}

theorem Meeting.Sound.guarded {op : Operation} {ans : Answers Secret}
    (h : w.Sound prim advertised peer op ans) (hprivate : KeepsPrivate advertised peer w.node) :
    Guarded prim advertised peer (· ∈ w.made) ans (op.incoming prim ans) w.node where
  routes := h.routes
  challenges := h.challenges
  genuine msg raw hincoming hsender :=
    (h.genuine msg raw hincoming hsender).imp id fun hunknown challenge hchallenged =>
      hunknown challenge (hprivate challenge hchallenged)

/-- Every run keeps what the sessions for the peer say. -/
theorem Meeting.Inv.step (json : ReadsJson prim) (keys : KeyLength prim)
    {label : MeetingStep Secret} (h : w.Inv prim advertised peer)
    (allowed : w.Allowed prim advertised peer label) :
    (w.step prim direct label).Inv prim advertised peer := by
  cases label with
  | peerMakes message =>
    exact ⟨h.faithful.mono fun m hm => List.mem_cons_of_mem message hm, h.keepsPrivate⟩
  | nodeActs op ans =>
    have hfaithful : Faithful prim advertised w.node.manager.ourDht peer (· ∈ w.made)
        (perform prim direct ans w.node op) :=
      h.faithful.perform json keys (allowed.guarded h.keepsPrivate)
    refine ⟨?_, h.keepsPrivate.perform json h.faithful.saved allowed.unguessed⟩
    have hname := hfaithful.name
    rw [Meeting.step, hname]
    exact hfaithful

theorem Meeting.inv (json : ReadsJson prim) (keys : KeyLength prim) :
    (meetingSystem prim direct advertised peer).Invariant (Meeting.Inv prim advertised peer) where
  initially w hw := by
    obtain ⟨me, rfl⟩ := hw
    refine ⟨Faithful.new, ?_⟩
    rintro challenge ⟨m, ⟨route, -, hsent⟩, -⟩
    cases hsent
  preserved w label w' hw hstep := by
    obtain ⟨hallowed, rfl⟩ := hstep
    exact hw.step json keys hallowed

/-- A node holds an established session for a peer only if the peer itself has made a message
that answers the session's challenge under the session's key, and that challenge has gone to no
route but the peer's. -/
theorem established_only_with_peer (json : ReadsJson prim) (keys : KeyLength prim)
    {w : Meeting Secret} (reached : (meetingSystem prim direct advertised peer).Reachable w)
    {s : HandshakeState Secret} (session : w.node.session peer = some s)
    (established : s.status = .established) :
    ∃ m ∈ w.made, ∃ key challenge,
      Witnessed prim w.node.manager.ourDht peer (· ∈ w.made) s m key challenge ∧
        Private advertised peer w.node challenge := by
  have hinv := (Meeting.inv json keys).holds reached
  obtain ⟨m, key, challenge, hwitness⟩ := hinv.faithful.established s session established
  refine ⟨m, hwitness.received, key, challenge, hwitness, hinv.keepsPrivate challenge ?_⟩
  exact hinv.faithful.challenged (.refl w.node) session hwitness.ourChallenge

section Sample

/-- A node that finds the route of one peer only. -/
def answersFor (peer : String) (secret challenge : UInt8) (token : String) : Answers UInt8 :=
  { Sample.answers secret challenge token with
    fetchRouteBlob := fun target => if target = peer then .ok (utf8 target) else .error "no route" }

def advertisedByName (name : String) (route : Bytes) : Prop := route = utf8 name

/-- The node after the peer's type 1. -/
def greetedNode : Process UInt8 :=
  perform Sample.primitives Sample.direct (answersFor "a" 3 5 "u") ⟨.new "b", []⟩
    (.appMessage initOfA.toJson)

/-- The node after a handshake that the peer began. -/
def metNode : Process UInt8 :=
  perform Sample.primitives Sample.direct (answersFor "a" 3 7 "w") greetedNode
    (.appMessage finalOfA.toJson)

/-- What the node answers to the peer's type 1. -/
def welcomeOfB : HandshakeMessage :=
  welcomeAnswer Sample.primitives (answersFor "a" 3 5 "u") "b" initOfA (List.replicate 32 6)
    (List.replicate 32 4)

/-- What a node has sent to anyone. -/
def sentBytes (p : Process UInt8) : List Bytes :=
  p.effects.filterMap fun
    | .appMessage _ bytes => some bytes
    | _ => none

variable {p : Process UInt8}

/-- A node whose messages are listed has sent these and no others. -/
theorem sent_iff_of_sentBytes {messages : List HandshakeMessage}
    (h : sentBytes p = messages.map HandshakeMessage.toJson) {m : HandshakeMessage} :
    Sent p m ↔ m ∈ messages := by
  have hsent : Sent p m ↔ m.toJson ∈ sentBytes p := by
    rw [sentBytes, List.mem_filterMap]
    constructor
    · rintro ⟨route, hsent⟩
      exact ⟨_, hsent, rfl⟩
    rintro ⟨effect, heffect, hbytes⟩
    cases effect with
    | appMessage route bytes =>
      cases hbytes
      exact ⟨route, heffect⟩
    | submitObservation _ _ _ => cases hbytes
    | establishedPeer _ => cases hbytes
    | applicationMessage _ => cases hbytes
  rw [hsent, h, List.mem_map_of_injective Sample.readsJson.toJson_injective]

theorem sentBytes_new (name : String) :
    sentBytes ⟨.new name, []⟩ = [].map HandshakeMessage.toJson := rfl

theorem sentBytes_greetedNode :
    sentBytes greetedNode = [welcomeOfB].map HandshakeMessage.toJson := by decide +kernel

theorem keyLength_sample : KeyLength Sample.primitives := fun _ _ => List.length_replicate

variable {secret challenge : UInt8} {peer token : String}

theorem fetchRouteBlob_answersFor {target : String}
    {blob : Bytes} (h : (answersFor peer secret challenge token).fetchRouteBlob target = .ok blob) :
    target = peer ∧ blob = utf8 target := by
  have hcases : (if target = peer then Except.ok (utf8 target) else .error "no route") =
      (.ok blob : Except String Bytes) := h
  split at hcases
  case isTrue htarget => exact ⟨htarget, (Except.ok.inj hcases).symm⟩
  case isFalse => cases hcases

/-- A node draws a challenge that it has never sent. -/
theorem unguessed_answersFor
    (unsent : ∀ m, Sent p m → m.challenge ≠ some (List.replicate 32 challenge)) :
    Unguessed (answersFor peer secret challenge token) p where
  unsent m hm _ := unsent m hm
  distinct target target' blob blob' hfetch hfetch' _ := by
    rw [(fetchRouteBlob_answersFor hfetch).1, (fetchRouteBlob_answersFor hfetch').1]

abbrev sampleMeeting : LabelledSystem (Meeting UInt8) (MeetingStep UInt8) :=
  meetingSystem Sample.primitives Sample.direct advertisedByName "a"

/-- The node receives a message that the peer has just made, and draws a challenge that it has
never sent. -/
theorem Meeting.reachable_received {node : Process UInt8} {made : List HandshakeMessage}
    (reached : sampleMeeting.Reachable ⟨node, made⟩) {message : HandshakeMessage}
    (inbound : (Operation.appMessage message.toJson).incoming Sample.primitives
      (answersFor "a" secret challenge token) = some (message, message.toJson))
    (unsent : ∀ m, Sent node m → m.challenge ≠ some (List.replicate 32 challenge)) :
    sampleMeeting.Reachable
      ⟨perform Sample.primitives Sample.direct (answersFor "a" secret challenge token) node
        (.appMessage message.toJson), message :: made⟩ := by
  have hmade : sampleMeeting.Reachable ⟨node, message :: made⟩ :=
    reached.next (.peerMakes message) ⟨trivial, rfl⟩
  refine hmade.next (.nodeActs (.appMessage message.toJson) _) ⟨⟨fun target blob hfetch =>
    (fetchRouteBlob_answersFor hfetch).2, fun target => List.length_replicate,
    unguessed_answersFor unsent, fun msg raw hincoming _ => ?_⟩, rfl⟩
  obtain ⟨rfl, -⟩ := Prod.mk.inj (Option.some.inj (inbound.symm.trans hincoming))
  exact .inl List.mem_cons_self

theorem metNode_reachable : sampleMeeting.Reachable ⟨metNode, [finalOfA, initOfA]⟩ := by
  have hstart : sampleMeeting.Reachable (⟨⟨.new "b", []⟩, []⟩ : Meeting UInt8) := .start ⟨"b", rfl⟩
  have hgreeted : sampleMeeting.Reachable ⟨greetedNode, [initOfA]⟩ := by
    refine Meeting.reachable_received hstart (by decide +kernel) ?_
    intro m hm
    exact absurd ((sent_iff_of_sentBytes (sentBytes_new "b")).mp hm) List.not_mem_nil
  refine Meeting.reachable_received hgreeted (by decide +kernel) ?_
  intro m hm
  obtain rfl := List.mem_singleton.mp ((sent_iff_of_sentBytes sentBytes_greetedNode).mp hm)
  decide

/-- After that handshake the peer has made the type 3 that the node's session rests on. -/
theorem established_only_with_peer_sample :
    ∃ s, metNode.session "a" = some s ∧ s.status = .established ∧
      ∃ m ∈ [finalOfA, initOfA], ∃ key challenge,
        Witnessed Sample.primitives metNode.manager.ourDht "a" (· ∈ [finalOfA, initOfA]) s m key
          challenge ∧ Private advertisedByName "a" metNode challenge := by
  have hany : (metNode.session "a").any (fun s => s.status == .established) = true := by
    decide +kernel
  have hreached := metNode_reachable
  obtain ⟨node, hnode⟩ : ∃ node, node = metNode := ⟨_, rfl⟩
  rw [← hnode] at hany hreached ⊢
  cases hs : node.session "a" with
  | none => simp [hs] at hany
  | some s =>
    have hestablished : s.status = .established := by simpa [hs] using hany
    have hpeer := established_only_with_peer Sample.readsJson keyLength_sample hreached hs
      hestablished
    exact ⟨s, rfl, hestablished, hpeer⟩

end Sample

end VeilKnit.Handshake
