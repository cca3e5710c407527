import VeilKnit.Gossip.Flood
import VeilKnit.Gossip.Generations

/-!
# A network of gossip nodes

Every address has a node. Frames are delivered in any order, lost, and put into the network by
anyone: also the answers to queries, and copies of frames, come from there. A frame that a node
sends as it relays a record goes back to the frame that was put in, or to the publication, that
the record came from.
-/

namespace VeilKnit.Gossip

open Library

/-! ## Frames -/

def encodeWire (serialize : GossipWireEnvelope → Except String Bytes)
    (message : GossipWireMessage) : Except GossipError Bytes :=
  match serialize ⟨gossipEngineVersion, message⟩ with
  | .error reason => .error (.wire reason)
  | .ok encoded =>
    if encoded.length + gossipWirePrefix.length > gossipWireMaxBytes then
      .error (.wire "encoded frame exceeds gossip-engine limit")
    else .ok (gossipWirePrefix ++ encoded)

structure Frame where
  recipient : String
  sender : String
  applicationId : String
  payload : Bytes

/-- The peers of a node that a record is offered to. -/
structure MaySelect (linked : String → String → Prop) (address : String) (peers : List String)
    (offer : Offer) : Prop where
  few : peers.length ≤
    if offer.excludePeer.isSome then gossipRelayFanout else gossipPublishFanout
  linked : ∀ peer ∈ peers, linked address peer
  notSelf : address ∉ peers
  notExcluded : ∀ peer ∈ peers, offer.excludePeer ≠ some peer

/-- A record that does not fit a frame is not sent. -/
def fanoutRecord (serialize : GossipWireEnvelope → Except String Bytes) (self : String)
    (peers : List String) (offer : Offer) : List Frame :=
  match encodeWire serialize
      (.record offer.record (min offer.hopsRemaining gossipMaxRelayHops)) with
  | .error _ => []
  | .ok payload => peers.map fun peer => ⟨peer, self, offer.applicationId, payload⟩

/-! ## The network -/

structure Network (Digest Score : Type) where
  nodes : String → Node Digest Score
  /-- Frames on their way, each with the number of the source that it goes back to. -/
  inFlight : List (Frame × Nat)
  /-- Frames that were put in or published. -/
  sources : List Frame
  /-- Frames that were relayed: the frame that made a node do so, the one it sent, the source. -/
  relayed : List (Frame × Frame × Nat)

def Network.new (Digest Score : Type) : Network Digest Score :=
  ⟨fun _ => .new Digest Score, [], [], []⟩

inductive NetworkEvent (Digest : Type)
  | inject (frame : Frame)
  | lose (index : Nat)
  | deliver (index : Nat) (ans : Answers Digest) (peers : List String)
  | act (self : String) (op : Operation) (ans : Answers Digest) (peers : List String)

section Network

variable {Digest Score : Type} [DecidableEq Digest] (prim : Primitives Digest Score)
  (serialize : GossipWireEnvelope → Except String Bytes) (linked : String → String → Prop)

def Frame.operation (frame : Frame) : Operation :=
  .incoming frame.applicationId frame.sender frame.payload

/-- What a node offers newly in an operation. -/
def Node.newOffers (node : Node Digest Score) (self : String) (op : Operation)
    (ans : Answers Digest) : List Offer :=
  offers ((perform prim self ans node op).effects.drop node.effects.length)

/-- The frames that a node sends in an operation. -/
def Node.sends (node : Node Digest Score) (self : String) (op : Operation)
    (ans : Answers Digest) (peers : List String) : List Frame :=
  (node.newOffers prim self op ans).flatMap (fanoutRecord serialize self peers)

namespace Network

omit [DecidableEq Digest] in
def inject (net : Network Digest Score) (frame : Frame) : Network Digest Score :=
  { net with
    inFlight := net.inFlight ++ [(frame, net.sources.length)]
    sources := net.sources ++ [frame] }

def performAt (net : Network Digest Score) (self : String) (op : Operation)
    (ans : Answers Digest) : Network Digest Score :=
  { net with
    nodes := Function.update net.nodes self (perform prim self ans (net.nodes self) op) }

def deliver (net : Network Digest Score) (index : Nat) (frame : Frame) (source : Nat)
    (ans : Answers Digest) (peers : List String) : Network Digest Score :=
  let sent := (net.nodes frame.recipient).sends prim serialize frame.recipient frame.operation
    ans peers
  { net.performAt prim frame.recipient frame.operation ans with
    inFlight := net.inFlight.eraseIdx index ++ sent.map (·, source)
    relayed := net.relayed ++ sent.map (frame, ·, source) }

/-- What a node publishes are new sources. -/
def act (net : Network Digest Score) (self : String) (op : Operation) (ans : Answers Digest)
    (peers : List String) : Network Digest Score :=
  ((net.nodes self).sends prim serialize self op ans peers).foldl Network.inject
    (net.performAt prim self op ans)

/-- A node gets frames from the network only. -/
def Step (net : Network Digest Score) : NetworkEvent Digest → Network Digest Score → Prop
  | .inject frame, after => after = net.inject frame
  | .lose index, after =>
    index < net.inFlight.length ∧ after = { net with inFlight := net.inFlight.eraseIdx index }
  | .deliver index ans peers, after => ∃ frame source,
      net.inFlight[index]? = some (frame, source) ∧
        (∀ offer ∈ (net.nodes frame.recipient).newOffers prim frame.recipient frame.operation ans,
            MaySelect linked frame.recipient peers offer) ∧
        after = net.deliver prim serialize index frame source ans peers
  | .act self op ans peers, after =>
    (∀ applicationId sender payload, op ≠ .incoming applicationId sender payload) ∧
      (∀ offer ∈ (net.nodes self).newOffers prim self op ans, MaySelect linked self peers offer) ∧
      after = net.act prim serialize self op ans peers

/-- No cache loses an entry. -/
def NothingLeaves (net : Network Digest Score) : NetworkEvent Digest → Prop
  | .deliver index ans _ => ∀ frame source, net.inFlight[index]? = some (frame, source) →
      Gossip.NothingLeaves prim frame.recipient ans (net.nodes frame.recipient) frame.operation
  | .act self op ans _ => Gossip.NothingLeaves prim self ans (net.nodes self) op
  | _ => True

end Network

def gossipNetwork : LabelledSystem (Network Digest Score) (NetworkEvent Digest) where
  initial net := net = .new Digest Score
  step net event after := net.Step prim serialize linked event after

/-! ## What a frame can set off -/

/-- The frames that a record with some hops can set off. -/
def flood : Nat → Nat
  | 0 => 0
  | hops + 1 => gossipRelayFanout * (1 + flood hops)

/-- A node counts more hops than the limit as one more than the limit. -/
def framesCaused (frame : Frame) : Nat :=
  match decodeWire prim frame.payload with
  | .ok (.record _ hops) => flood (min hops (gossipMaxRelayHops + 1))
  | _ => 0

/-- A frame and all that it can still set off. -/
def Network.potential (net : Network Digest Score) : Nat :=
  (net.inFlight.map fun item => 1 + framesCaused prim item.1).sum

/-- Some number of deliveries and losses, and nothing else. -/
inductive Network.Settles : Nat → Network Digest Score → Network Digest Score → Prop
  | done (net : Network Digest Score) : Settles 0 net net
  | delivered {rounds : Nat} {net mid after : Network Digest Score} {index : Nat}
      {ans : Answers Digest} {peers : List String} (before : Settles rounds net mid)
      (step : mid.Step prim serialize linked (.deliver index ans peers) after) :
      Settles (rounds + 1) net after
  | lost {rounds : Nat} {net mid after : Network Digest Score} {index : Nat}
      (before : Settles rounds net mid)
      (step : mid.Step prim serialize linked (.lose index) after) : Settles (rounds + 1) net after

end Network

/-! ## One frame -/

section Frames

variable {Digest Score : Type} [DecidableEq Digest] {prim : Primitives Digest Score}
  {serialize : GossipWireEnvelope → Except String Bytes} {linked : String → String → Prop}
  {ans : Answers Digest} {net after : Network Digest Score}
  (roundTrip : ∀ envelope bytes, serialize envelope = .ok bytes →
    prim.deserialize bytes = .ok envelope)

include roundTrip in
omit [DecidableEq Digest] in
/-- What is encoded is decoded. -/
theorem decodeWire_encodeWire
    {message : GossipWireMessage} {payload : Bytes}
    (h : encodeWire serialize message = .ok payload) :
    decodeWire prim payload = .ok message := by
  unfold encodeWire at h
  cases hserialized : serialize ⟨gossipEngineVersion, message⟩ with
  | error reason =>
    rw [hserialized] at h
    cases h
  | ok encoded =>
    rw [hserialized] at h
    dsimp only at h
    split at h
    case isTrue => cases h
    case isFalse hfits =>
    cases h
    have hprefix : isEngineFrame (gossipWirePrefix ++ encoded) = true := by
      rw [isEngineFrame, List.isPrefixOf_iff_prefix]
      exact List.prefix_append _ _
    have hlength : ¬ (gossipWirePrefix ++ encoded).length > gossipWireMaxBytes := by
      rw [List.length_append]
      omega
    rw [decodeWire, if_neg (not_not.mpr hprefix), if_neg hlength, List.drop_left,
      roundTrip _ _ hserialized]
    exact if_neg (not_not.mpr rfl)

theorem newOffers_cases (prim : Primitives Digest Score) (node : Node Digest Score)
    (self : String) (op : Operation) (ans : Answers Digest) :
    Offers prim self ans node op (perform prim self ans node op).state
      (node.newOffers prim self op ans) := by
  obtain ⟨new, heffects, hoffers⟩ := perform_offers prim self ans node op
  rw [Node.newOffers, heffects, List.drop_left]
  exact hoffers

theorem flood_le_of_le {hops more : Nat} (h : hops ≤ more) : flood hops ≤ flood more := by
  induction more generalizing hops with
  | zero =>
    obtain rfl := Nat.le_zero.mp h
    exact le_rfl
  | succ more ih =>
    cases hops with
    | zero => exact Nat.zero_le _
    | succ hops =>
      have hle := ih (Nat.le_of_succ_le_succ h)
      exact Nat.mul_le_mul_left _ (Nat.add_le_add_left hle 1)

omit [DecidableEq Digest] in
theorem framesCaused_le (prim : Primitives Digest Score) (frame : Frame) :
    framesCaused prim frame ≤ 120 := by
  unfold framesCaused
  split
  · exact (flood_le_of_le (min_le_right _ _)).trans (by decide)
  · exact Nat.zero_le _

/-- A frame that a node sends as it relays the record of another. -/
structure RelayedAs (prim : Primitives Digest Score) (cause frame : Frame) : Prop where
  sender : frame.sender = cause.recipient
  applicationId : frame.applicationId = cause.applicationId
  hops : ∃ record hops hops', decodeWire prim cause.payload = .ok (.record record hops) ∧
    decodeWire prim frame.payload = .ok (.record record hops') ∧ hops' < hops ∧
      hops' ≤ gossipMaxRelayHops

variable {frame : Frame} {peers : List String}

include roundTrip in
/-- What a frame sets off directly: frames with fewer hops, and with all that these can set off
no more than the frame can. -/
theorem sends_of_frame
    {node : Node Digest Score}
    (selected : ∀ offer ∈ node.newOffers prim frame.recipient frame.operation ans,
      MaySelect linked frame.recipient peers offer) :
    (∀ sent ∈ node.sends prim serialize frame.recipient frame.operation ans peers,
        RelayedAs prim frame sent) ∧
      ((node.sends prim serialize frame.recipient frame.operation ans peers).map fun sent =>
        1 + framesCaused prim sent).sum ≤ framesCaused prim frame := by
  have hcases := newOffers_cases prim node frame.recipient frame.operation ans
  unfold Node.sends
  generalize node.newOffers prim frame.recipient frame.operation ans = offered at hcases selected
  cases hcases with
  | nothing => exact ⟨fun sent hsent => absurd hsent List.not_mem_nil, Nat.zero_le _⟩
  | published _ _ _ _ own => exact absurd rfl (own _ _ _)
  | @relayed a offer _ sender payload hops incoming decoded brought entered exclude positive hhops =>
    cases incoming
    have hselected := selected offer (List.mem_singleton.mpr rfl)
    have hfew : peers.length ≤ gossipRelayFanout := by
      have hfew := hselected.few
      rwa [exclude, Option.isSome_some, if_pos rfl] at hfew
    have hbound : offer.hopsRemaining ≤ gossipMaxRelayHops := by
      rw [hhops]
      exact min_le_right _ _
    rw [List.flatMap_singleton, fanoutRecord, min_eq_left hbound]
    cases hencoded : encodeWire serialize (.record offer.record offer.hopsRemaining) with
    | error _ => exact ⟨fun sent hsent => absurd hsent List.not_mem_nil, Nat.zero_le _⟩
    | ok payload =>
      have hdecoded := decodeWire_encodeWire roundTrip hencoded
      have happ : offer.applicationId = frame.applicationId := by
        have hbrought : some a = some _ := brought.symm.trans (by
          rw [Frame.operation, Operation.arrival, decoded])
        rw [entered.applicationId, Option.some.inj hbrought]
      refine ⟨fun sent hsent => ?_, ?_⟩
      · obtain ⟨peer, -, rfl⟩ := List.mem_map.mp hsent
        refine ⟨rfl, happ, offer.record, hops, offer.hopsRemaining, decoded, hdecoded, ?_, hbound⟩
        rw [hhops]
        omega
      have heach : ∀ peer, framesCaused prim ⟨peer, frame.recipient, offer.applicationId, payload⟩ =
            flood offer.hopsRemaining := by
        intro peer
        rw [framesCaused, hdecoded]
        dsimp only
        rw [min_eq_left (hbound.trans (Nat.le_succ _))]
      simp only [List.map_map, Function.comp_def, heach, List.map_const', List.sum_replicate_nat]
      rw [framesCaused, decoded]
      dsimp only
      have hsucc : min hops (gossipMaxRelayHops + 1) = offer.hopsRemaining + 1 := by
        rw [hhops]
        omega
      rw [hsucc, flood]
      exact Nat.mul_le_mul_right _ hfew

/-! ## Runs -/

/-- What is on its way and was relayed because of each source, all that it can still set off
included. -/
def outstanding (prim : Primitives Digest Score) (source : Nat) (item : Frame × Nat) : Nat :=
  if item.2 = source then framesCaused prim item.1 else 0

/-- The frames relayed because of a source, and those that may follow, are no more than the source
could set off. -/
structure Accounted (prim : Primitives Digest Score) (net : Network Digest Score) : Prop where
  known : ∀ item ∈ net.inFlight, item.2 < net.sources.length
  relayedKnown : ∀ entry ∈ net.relayed, entry.2.2 < net.sources.length
  account : ∀ source frame, net.sources[source]? = some frame →
    (net.relayed.countP fun entry => decide (entry.2.2 = source)) +
        (net.inFlight.map (outstanding prim source)).sum ≤ framesCaused prim frame

section

omit [DecidableEq Digest]

theorem Accounted.inject (h : Accounted prim net) (frame : Frame) :
    Accounted prim (net.inject frame) := by
  unfold Network.inject
  constructor
  · intro item hitem
    rw [List.length_append, List.length_singleton]
    rcases List.mem_append.mp hitem with hitem | hitem
    · exact (h.known item hitem).trans (Nat.lt_succ_self _)
    · obtain rfl := List.mem_singleton.mp hitem
      exact Nat.lt_succ_self _
  · intro entry hentry
    rw [List.length_append, List.length_singleton]
    exact (h.relayedKnown entry hentry).trans (Nat.lt_succ_self _)
  intro source frame' hsource
  dsimp only at hsource ⊢
  rw [List.map_append, List.sum_append, List.map_singleton, List.sum_singleton]
  by_cases hold : source < net.sources.length
  case pos =>
    rw [List.getElem?_append_left hold] at hsource
    have haccount := h.account source frame' hsource
    have hother : outstanding prim source (frame, net.sources.length) = 0 :=
      if_neg fun heq => absurd heq (Nat.ne_of_gt hold)
    omega
  case neg =>
  rw [List.getElem?_append_right (not_lt.mp hold)] at hsource
  obtain ⟨hlt, hframe⟩ := List.getElem?_eq_some_iff.mp hsource
  rw [List.length_singleton] at hlt
  have hlast : source = net.sources.length := by omega
  have hnew : frame' = frame := by
    rw [← hframe]
    simp [hlast]
  rw [hlast, hnew]
  have hrelayed : (net.relayed.countP fun entry =>
      decide (entry.2.2 = net.sources.length)) = 0 := by
    refine List.countP_eq_zero.mpr fun entry hentry => ?_
    have hlt := h.relayedKnown entry hentry
    simpa using Nat.ne_of_lt hlt
  have hnone : (net.inFlight.map (outstanding prim net.sources.length)).sum = 0 := by
    refine List.sum_eq_zero fun n hn => ?_
    obtain ⟨item, hitem, rfl⟩ := List.mem_map.mp hn
    exact if_neg (Nat.ne_of_lt (h.known item hitem))
  rw [hrelayed, hnone, outstanding, if_pos rfl, Nat.zero_add, Nat.zero_add]

theorem Accounted.of_nodes (h : Accounted prim net) (nodes : String → Node Digest Score) :
    Accounted prim { net with nodes := nodes } :=
  ⟨h.known, h.relayedKnown, h.account⟩

theorem Accounted.injectAll (h : Accounted prim net) (frames : List Frame) :
    Accounted prim (frames.foldl Network.inject net) := by
  induction frames generalizing net with
  | nil => exact h
  | cons frame frames ih => exact ih (h.inject frame)

end

variable {index : Nat}

/-- Taking a frame from those on their way. -/
theorem perm_of_getElem? {α : Type} {items : List α} {item : α}
    (h : items[index]? = some item) : items.Perm (item :: items.eraseIdx index) := by
  obtain ⟨hlt, rfl⟩ := List.getElem?_eq_some_iff.mp h
  exact (List.getElem_cons_eraseIdx_perm hlt).symm

theorem sum_getElem? {α : Type} {items : List α} {item : α} (f : α → Nat)
    (h : items[index]? = some item) :
    (items.map f).sum = f item + ((items.eraseIdx index).map f).sum := by
  rw [((perm_of_getElem? h).map f).sum_nat, List.map_cons, List.sum_cons]

omit [DecidableEq Digest] in
theorem Accounted.lose (h : Accounted prim net) (inside : index < net.inFlight.length) :
    Accounted prim { net with inFlight := net.inFlight.eraseIdx index } := by
  refine ⟨fun item hitem => h.known item (List.mem_of_mem_eraseIdx hitem), h.relayedKnown,
    fun source frame hsource => ?_⟩
  have haccount := h.account source frame hsource
  have hsum := sum_getElem? (outstanding prim source) (List.getElem?_eq_getElem inside)
  dsimp only
  omega

include roundTrip in
/-- What a node sends as it relays a record takes the place of the frame that it came with. -/
theorem Accounted.deliver (h : Accounted prim net)
    {source : Nat}
    (hitem : net.inFlight[index]? = some (frame, source)) (selected : ∀ offer ∈
      (net.nodes frame.recipient).newOffers prim frame.recipient frame.operation ans,
        MaySelect linked frame.recipient peers offer) :
    Accounted prim (net.deliver prim serialize index frame source ans peers) := by
  obtain ⟨-, hsum⟩ := sends_of_frame roundTrip selected
  unfold Network.deliver
  generalize (net.nodes frame.recipient).sends prim serialize frame.recipient frame.operation ans
    peers = sent at hsum
  have hknown : source < net.sources.length := h.known _ (List.mem_of_getElem? hitem)
  constructor
  · intro item hmem
    rcases List.mem_append.mp hmem with hmem | hmem
    · exact h.known item (List.mem_of_mem_eraseIdx hmem)
    · obtain ⟨_, -, rfl⟩ := List.mem_map.mp hmem
      exact hknown
  · intro entry hmem
    rcases List.mem_append.mp hmem with hmem | hmem
    · exact h.relayedKnown entry hmem
    · obtain ⟨_, -, rfl⟩ := List.mem_map.mp hmem
      exact hknown
  intro source' frame' hsource
  have haccount := h.account source' frame' hsource
  have htaken := sum_getElem? (outstanding prim source') hitem
  rw [List.countP_append, List.map_append, List.sum_append, List.map_map]
  by_cases hsame : source = source'
  case neg =>
    have hcount : ((sent.map (frame, ·, source)).countP fun entry : Frame × Frame × Nat =>
        decide (entry.2.2 = source')) = 0 := by
      refine List.countP_eq_zero.mpr fun entry hentry => ?_
      obtain ⟨_, -, rfl⟩ := List.mem_map.mp hentry
      simpa using hsame
    have hzero : (sent.map (outstanding prim source' ∘ (·, source))).sum = 0 := by
      refine List.sum_eq_zero fun n hn => ?_
      obtain ⟨_, -, rfl⟩ := List.mem_map.mp hn
      exact if_neg hsame
    omega
  case pos =>
  subst hsame
  have hcount : ((sent.map (frame, ·, source)).countP fun entry : Frame × Frame × Nat =>
      decide (entry.2.2 = source)) = sent.length := by
    rw [List.countP_eq_length.mpr, List.length_map]
    intro entry hentry
    obtain ⟨_, -, rfl⟩ := List.mem_map.mp hentry
    exact decide_eq_true rfl
  have hnew : sent.map (outstanding prim source ∘ (·, source)) = sent.map (framesCaused prim) :=
    List.map_congr_left fun _ _ => if_pos rfl
  have hcaused : outstanding prim source (frame, source) = framesCaused prim frame := if_pos rfl
  rw [List.sum_map_add, List.map_const', List.sum_replicate_nat] at hsum
  rw [hcount, hnew]
  omega

/-- Every frame that was relayed has fewer hops than the one that it was relayed for. -/
def RelaysDescend (prim : Primitives Digest Score) (net : Network Digest Score) : Prop :=
  ∀ entry ∈ net.relayed, RelayedAs prim entry.1 entry.2.1

omit [DecidableEq Digest] in
/-- Injecting changes neither the nodes nor what was relayed. -/
theorem relayed_injectAll (net : Network Digest Score) (frames : List Frame) :
    (frames.foldl Network.inject net).relayed = net.relayed ∧
      (frames.foldl Network.inject net).nodes = net.nodes := by
  induction frames generalizing net with
  | nil => exact ⟨rfl, rfl⟩
  | cons frame frames ih => exact ih (net.inject frame)

/-- What holds in every state of a network whose caches lose nothing. -/
structure Flooded (prim : Primitives Digest Score) (net : Network Digest Score) : Prop where
  once : ∀ address, OffersOnce (net.nodes address)
  descend : RelaysDescend prim net
  accounted : Accounted prim net

include roundTrip in
theorem Flooded.step (h : Flooded prim net)
    {event : NetworkEvent Digest} (stays : net.NothingLeaves prim event)
    (step : net.Step prim serialize linked event after) : Flooded prim after := by
  have hperform : ∀ address op (ans : Answers Digest),
      Gossip.NothingLeaves prim address ans (net.nodes address) op →
        ∀ other, OffersOnce (Function.update net.nodes address
          (perform prim address ans (net.nodes address) op) other) := by
    intro address op ans hstays other
    by_cases hother : other = address
    · rw [hother, Function.update_self]
      exact (h.once address).step hstays
    · rw [Function.update_of_ne hother]
      exact h.once other
  cases event with
  | inject frame =>
    obtain rfl := step
    exact ⟨h.once, h.descend, h.accounted.inject frame⟩
  | lose index =>
    obtain ⟨hinside, rfl⟩ := step
    exact ⟨h.once, h.descend, h.accounted.lose hinside⟩
  | deliver index ans peers =>
    obtain ⟨frame, source, hitem, hselected, rfl⟩ := step
    refine ⟨hperform _ _ ans (stays frame source hitem), fun entry hentry => ?_,
      h.accounted.deliver roundTrip hitem hselected⟩
    rcases List.mem_append.mp hentry with hentry | hentry
    · exact h.descend entry hentry
    · obtain ⟨sent, hsent, rfl⟩ := List.mem_map.mp hentry
      exact (sends_of_frame roundTrip hselected).1 sent hsent
  | act self op ans peers =>
    obtain ⟨-, -, rfl⟩ := step
    obtain ⟨hrelayed, hnodes⟩ := relayed_injectAll (net.performAt prim self op ans)
      ((net.nodes self).sends prim serialize self op ans peers)
    unfold Network.act
    refine ⟨?_, ?_, (h.accounted.of_nodes _).injectAll _⟩
    · rw [hnodes]
      exact hperform self op ans stays
    · rw [RelaysDescend, hrelayed]
      exact h.descend

include roundTrip in
/-- A delivery or a loss takes away more than it brings. -/
theorem Network.Settles.potential
    {rounds : Nat} (h : Network.Settles prim serialize linked rounds net after) :
    rounds + after.potential prim ≤ net.potential prim := by
  induction h with
  | done => rw [Nat.zero_add]
  | @delivered rounds net mid after index ans peers _ step ih =>
    obtain ⟨frame, source, hitem, hselected, rfl⟩ := step
    have hsum := (sends_of_frame roundTrip hselected).2
    have htaken := sum_getElem? (fun item => 1 + framesCaused prim item.1) hitem
    have hafter : (mid.deliver prim serialize index frame source ans peers).potential prim =
        ((mid.inFlight.eraseIdx index).map fun item => 1 + framesCaused prim item.1).sum +
          (((mid.nodes frame.recipient).sends prim serialize frame.recipient frame.operation ans
            peers).map fun sent => 1 + framesCaused prim sent).sum := by
      unfold Network.potential Network.deliver
      rw [List.map_append, List.sum_append, List.map_map]
      rfl
    dsimp only at htaken
    rw [Network.potential] at ih
    rw [hafter]
    omega
  | @lost rounds net mid after index _ step ih =>
    obtain ⟨hinside, rfl⟩ := step
    have htaken := sum_getElem? (fun item => 1 + framesCaused prim item.1)
      (List.getElem?_eq_getElem hinside)
    rw [Network.potential] at ih
    have hafter : ({ mid with inFlight := mid.inFlight.eraseIdx index } :
        Network Digest Score).potential prim = ((mid.inFlight.eraseIdx index).map
          fun item => 1 + framesCaused prim item.1).sum := rfl
    rw [hafter]
    omega

/-- What a flood keeps to. -/
structure FloodBounds (prim : Primitives Digest Score)
    (serialize : GossipWireEnvelope → Except String Bytes) (linked : String → String → Prop)
    (net : Network Digest Score) : Prop where
  /-- A node offers a generation of an object once. -/
  once : ∀ address applicationId key generation,
    (offers (net.nodes address).effects).countP (Offer.isOf applicationId key generation) ≤ 1
  /-- A relayed frame has fewer hops than the one that it was relayed for, and at most three. -/
  hops : ∀ cause frame source, (cause, frame, source) ∈ net.relayed → ∃ record hops hops',
    decodeWire prim cause.payload = .ok (.record record hops) ∧
      decodeWire prim frame.payload = .ok (.record record hops') ∧ hops' < hops ∧ hops' ≤ 3
  /-- A frame that is put in causes a bounded number of further frames. -/
  caused : ∀ source, (net.relayed.countP fun entry => decide (entry.2.2 = source)) ≤ 120
  /-- What is on its way comes to an end. -/
  ends : ∀ rounds after, Network.Settles prim serialize linked rounds net after →
    rounds ≤ net.potential prim

theorem flood_bounds (prim : Primitives Digest Score)
    (serialize : GossipWireEnvelope → Except String Bytes)
    (roundTrip : ∀ envelope bytes, serialize envelope = .ok bytes →
      prim.deserialize bytes = .ok envelope)
    (linked : String → String → Prop) {net : Network Digest Score}
    (reached : ((gossipNetwork prim serialize linked).restrict
      (Network.NothingLeaves prim)).Reachable net) :
    FloodBounds prim serialize linked net := by
  have hflooded : Flooded prim net := by
    induction reached with
    | start hinit =>
      obtain rfl := hinit
      refine ⟨fun address => ⟨fun offer hoffer => ?_, fun _ _ _ => Nat.zero_le _⟩,
        fun entry hentry => ?_, fun item hitem => ?_, fun entry hentry => ?_,
        fun source frame hsource => ?_⟩
      · cases hoffer
      · cases hentry
      · cases hitem
      · cases hentry
      · cases hsource
    | next label _ hstep ih => exact ih.step roundTrip hstep.1 hstep.2
  constructor
  · exact fun address => (hflooded.once address).once
  · exact fun cause frame source hentry => (hflooded.descend _ hentry).hops
  · intro source
    cases hsource : net.sources[source]? with
    | some frame =>
      have haccount := hflooded.accounted.account source frame hsource
      have hmost := framesCaused_le prim frame
      omega
    | none =>
      rw [List.getElem?_eq_none_iff] at hsource
      rw [List.countP_eq_zero.mpr]
      · exact Nat.zero_le _
      · intro entry hentry
        have hknown := hflooded.accounted.relayedKnown entry hentry
        simpa using Nat.ne_of_lt (hknown.trans_le hsource)
  · intro rounds after hsettles
    exact (Nat.le_add_right _ _).trans (hsettles.potential roundTrip)

/-- A node of a network runs as a node alone does, with the frames and operations that reach it. -/
theorem network_simulated (self : String) :
    (gossipSystem prim self).Simulates (gossipNetwork prim serialize linked)
      fun net node => net.nodes self = node where
  initially := by
    rintro _ rfl
    exact ⟨_, rfl, rfl⟩
  preserved := by
    rintro net event after _ rfl step
    have hperform : ∀ address op (ans : Answers Digest), ∃ node,
        (gossipSystem prim self).Leads (net.nodes self) node ∧ Function.update net.nodes address
          (perform prim address ans (net.nodes address) op) self = node := by
      intro address op ans
      -- An operation of another node leaves this one as it was.
      by_cases hself : self = address
      · subst hself
        exact ⟨_, .single ⟨(op, ans), rfl⟩, Function.update_self ..⟩
      · exact ⟨_, .refl, Function.update_of_ne hself ..⟩
    cases event with
    | inject =>
      obtain rfl := step
      exact ⟨_, .refl, rfl⟩
    | lose =>
      obtain ⟨-, rfl⟩ := step
      exact ⟨_, .refl, rfl⟩
    | deliver index ans =>
      obtain ⟨frame, source, -, -, rfl⟩ := step
      exact hperform frame.recipient frame.operation ans
    | act address op ans =>
      obtain ⟨-, -, rfl⟩ := step
      rw [Network.act, (relayed_injectAll _ _).2]
      exact hperform address op ans

end Frames

namespace Sample

/-- A frame carries the rival record and spells the hops. -/
def hopPrimitives : Primitives GossipRecord Unit :=
  { primitives with
    deserialize := fun bytes =>
      match bytes with
      | [hops] => .ok ⟨gossipEngineVersion, .record (rivalRecord 0) hops.toNat⟩
      | _ => .error "not a frame" }

def hopSerialize (envelope : GossipWireEnvelope) : Except String Bytes :=
  match envelope.message with
  | .record record hops =>
    if envelope.version = gossipEngineVersion ∧ record = rivalRecord 0 ∧ hops < 256 then
      .ok [UInt8.ofNat hops]
    else .error "not a frame"
  | _ => .error "not a frame"

theorem hop_roundTrip (envelope : GossipWireEnvelope) (bytes : Bytes)
    (h : hopSerialize envelope = .ok bytes) : hopPrimitives.deserialize bytes = .ok envelope := by
  obtain ⟨version, message⟩ := envelope
  cases message with
  | record record hops =>
    unfold hopSerialize at h
    dsimp only at h
    split at h
    case isFalse => cases h
    case isTrue hframe =>
      obtain ⟨rfl, rfl, hhops⟩ := hframe
      cases h
      simp only [hopPrimitives, UInt8.toNat_ofNat']
      rw [Nat.mod_eq_of_lt hhops]
  | query queryId query => cases h
  | queryResponse queryId records => cases h

/-- A frame that comes with more hops than any node gives. -/
def stormFrame : Frame := ⟨"b", "a", "app", gossipWirePrefix ++ [255]⟩

/-- Node `b` with the application. -/
def activeNet : Network GossipRecord Unit :=
  (Network.new GossipRecord Unit).act hopPrimitives hopSerialize "b" (.activateApplication "app")
    (answers 0) []

/-- The frame is on its way to node `b`. -/
def stormNet : Network GossipRecord Unit := activeNet.inject stormFrame

/-- Node `b` has relayed the record to node `c`. -/
def relayedNet : Network GossipRecord Unit :=
  stormNet.deliver hopPrimitives hopSerialize 0 stormFrame 0 (answers 0) ["c"]

theorem flood_bounds_storm : relayedNet.relayed.length = 1 ∧
    FloodBounds hopPrimitives hopSerialize (fun _ _ => True) relayedNet := by
  refine ⟨by decide +kernel, flood_bounds hopPrimitives hopSerialize hop_roundTrip _ ?_⟩
  have hstart : ((gossipNetwork hopPrimitives hopSerialize fun _ _ => True).restrict
      (Network.NothingLeaves hopPrimitives)).Reachable (.new GossipRecord Unit) := .start rfl
  have hactive : ((gossipNetwork hopPrimitives hopSerialize fun _ _ => True).restrict
      (Network.NothingLeaves hopPrimitives)).Reachable activeNet := by
    have hoffers : ((Network.new GossipRecord Unit).nodes "b").newOffers hopPrimitives "b"
        (.activateApplication "app") (answers 0) = [] := by rfl
    refine hstart.next (.act "b" (.activateApplication "app") (answers 0) [])
      ⟨⟨fun _ h => (by cases h), fun _ _ h => (by cases h)⟩, ?_, ?_, rfl⟩
    · intro _ _ _ h
      cases h
    · rw [hoffers]
      exact fun _ h => absurd h List.not_mem_nil
  have hstorm : ((gossipNetwork hopPrimitives hopSerialize fun _ _ => True).restrict
      (Network.NothingLeaves hopPrimitives)).Reachable stormNet :=
    hactive.next (.inject stormFrame) ⟨trivial, rfl⟩
  have hempty : ∀ applicationId key,
      ((stormNet.nodes "b").state.entry applicationId key).isSome = false := by
    intro applicationId key
    have happ : (stormNet.nodes "b").state =
        (GossipState.empty GossipRecord).setApp "app" ∅ := by rfl
    rw [happ, entry_setApp]
    split <;> rfl
  have hoffers : (stormNet.nodes "b").newOffers hopPrimitives "b" stormFrame.operation
      (answers 0) = [⟨"app", rivalRecord 0, some "a", 3⟩] := by rfl
  refine hstorm.next (.deliver 0 (answers 0) ["c"])
    ⟨fun frame source hitem => ?_, stormFrame, 0, rfl, ?_, rfl⟩
  · cases hitem
    constructor
    · intro _ _ applicationId key h
      cases (hempty applicationId key).symm.trans h
    · intro applicationId key h
      cases (hempty applicationId key).symm.trans h
  intro offer hoffer
  have hmem : offer ∈ (stormNet.nodes "b").newOffers hopPrimitives "b" stormFrame.operation
      (answers 0) := hoffer
  rw [hoffers] at hmem
  obtain rfl := List.mem_singleton.mp hmem
  exact ⟨by decide, fun _ _ => trivial, by decide, by decide⟩

end Sample

end VeilKnit.Gossip
