import VeilKnit.Gossip.Steps

/-!
# The flood of a record

A record that a node stores is offered to a few peers with a number of hops; a node that stores
it offers it on with fewer hops. A cache that loses nothing stores a generation of an object
once, so a node offers it once. The hops bound what one frame can set off.
-/

namespace VeilKnit.Gossip

open Library

variable {Digest Score : Type} [DecidableEq Digest] {prim : Primitives Digest Score}
  {mainDht : String} {ans : Answers Digest} {s t : GossipState Digest}

def gossipPublishFanout : Nat := 6

def gossipRelayFanout : Nat := 3

/-! ## What a node offers -/

/-- A record offered to peers. -/
structure Offer where
  applicationId : String
  record : GossipRecord
  excludePeer : Option String
  hopsRemaining : Nat

def Effect.offer : Effect Score → Option Offer
  | .fanoutRecord applicationId record excludePeer hopsRemaining =>
    some ⟨applicationId, record, excludePeer, hopsRemaining⟩
  | _ => none

def offers (effects : List (Effect Score)) : List Offer := effects.filterMap Effect.offer

@[simp]
theorem offers_append (effects more : List (Effect Score)) :
    offers (effects ++ more) = offers effects ++ offers more :=
  List.filterMap_append

theorem offers_events (events : List GossipEvent) :
    offers (events.map .event : List (Effect Score)) = [] := by
  rw [offers, List.filterMap_eq_nil_iff]
  intro effect heffect
  obtain ⟨event, -, rfl⟩ := List.mem_map.mp heffect
  rfl

theorem offers_shown (applicationId : String) (hits : List (GossipSearchHit Score)) :
    offers (hits.map (.shown applicationId)) = [] := by
  rw [offers, List.filterMap_eq_nil_iff]
  intro effect heffect
  obtain ⟨hit, -, rfl⟩ := List.mem_map.mp heffect
  rfl

/-- A record is offered as it enters the cache: there was no entry of its object, or one of a
lower generation. -/
structure Entered (prim : Primitives Digest Score) (ans : Answers Digest) (a : Arrival)
    (s t : GossipState Digest) (offer : Offer) : Prop where
  applicationId : offer.applicationId = a.applicationId
  record : offer.record = a.record
  newer : ∀ e, (a.found ans s).entry a.applicationId a.record.key = some e →
    e.record.generation < a.record.generation
  entry : ∃ e, t.entry a.applicationId a.record.key = some e ∧ e.record = a.record

/-- What an operation offers. -/
inductive Offers (prim : Primitives Digest Score) (mainDht : String) (ans : Answers Digest)
    (node : Node Digest Score) (op : Operation) (t : GossipState Digest) : List Offer → Prop
  | nothing : Offers prim mainDht ans node op t []
  | published {a : Arrival} {offer : Offer} (brought : op.arrival prim mainDht ans node = some a)
      (entered : Entered prim ans a node.state t offer) (exclude : offer.excludePeer = none)
      (hops : offer.hopsRemaining = gossipMaxRelayHops)
      (own : ∀ applicationId sender payload, op ≠ .incoming applicationId sender payload) :
      Offers prim mainDht ans node op t [offer]
  | relayed {a : Arrival} {offer : Offer} {applicationId sender : String} {payload : Bytes}
      {hopsRemaining : Nat} (incoming : op = .incoming applicationId sender payload)
      (decoded : decodeWire prim payload = .ok (.record offer.record hopsRemaining))
      (brought : op.arrival prim mainDht ans node = some a)
      (entered : Entered prim ans a node.state t offer) (exclude : offer.excludePeer = some sender)
      (positive : 0 < hopsRemaining)
      (hops : offer.hopsRemaining = min (hopsRemaining - 1) gossipMaxRelayHops) :
      Offers prim mainDht ans node op t [offer]

/-- Taking a record in announces it; what it says is to be passed on has entered the cache. -/
theorem ingestRecord_entered (prim : Primitives Digest Score) (ans : Answers Digest) (a : Arrival)
    (s : GossipState Digest) {out : Outcome Digest Score (IngestResult Score)}
    (hout : out = ingestRecord prim ans a.applicationId a.record a.claimedSource a.localPublish
      a.reading s) :
    offers out.effects = [] ∧ ∀ result, out.result = .ok result → result.forwardable = true →
      ∀ exclude hops,
        Entered prim ans a s out.state ⟨a.applicationId, a.record, exclude, hops⟩ := by
  subst hout
  rcases ingestRecord_cases prim ans a s with ⟨e, h⟩ | ⟨-, ⟨-, h⟩ | ⟨hentry, h⟩⟩
  · rw [h]
    exact ⟨rfl, fun result hresult => by cases hresult⟩
  · rw [h]
    exact ⟨rfl, fun result hresult => by cases hresult⟩
  rw [h]
  refine ⟨offers_events _, fun result hresult hforward exclude hops => ?_⟩
  cases hresult
  rcases a.ingested_cases prim ans s with hstores | ⟨e, -, hkeeps⟩
  · exact ⟨rfl, rfl, hstores.newer, _, hentry, hstores.stored⟩
  · cases hkeeps.forwardable.symm.trans hforward

variable {node : Node Digest Score} {applicationId : String} {record : GossipRecord}

theorem publishRecordInternal_offers {op : Operation} {allowReserved : Bool} {reading : Nat}
    (brought : op.arrival prim mainDht ans node =
      some ⟨applicationId, record, mainDht, true, reading + 1⟩)
    (own : ∀ applicationId sender payload, op ≠ .incoming applicationId sender payload)
    {out : Outcome Digest Score (GossipSearchHit Score)}
    (hout : out = publishRecordInternal prim mainDht ans applicationId record allowReserved reading
      node.state) : Offers prim mainDht ans node op out.state (offers out.effects) := by
  subst hout
  unfold publishRecordInternal
  cases validateRecord prim.isRecordKey (ans.clock reading) record allowReserved with
  | error _ => exact .nothing
  | ok _ =>
    dsimp only
    obtain ⟨ingest, hingest⟩ : ∃ ingest, ingest =
        ingestRecord prim ans applicationId record mainDht true (reading + 1) node.state :=
      ⟨_, rfl⟩
    obtain ⟨hnone, hentered⟩ := ingestRecord_entered prim ans
      ⟨applicationId, record, mainDht, true, reading + 1⟩ node.state hingest
    rw [← hingest]
    cases hresult : ingest.result with
    | error _ =>
      dsimp only
      rw [hnone]
      exact .nothing
    | ok result =>
      dsimp only
      rw [offers_append, offers_append, hnone]
      by_cases hforward : result.forwardable = true
      case neg =>
        rw [if_neg hforward]
        exact .nothing
      case pos =>
        rw [if_pos hforward]
        exact .published brought (hentered result hresult hforward none gossipMaxRelayHops)
          rfl rfl own

theorem processRecord_offers {sender : String} {payload : Bytes} {hopsRemaining : Nat}
    (decoded : decodeWire prim payload = .ok (.record record hopsRemaining)) :
    Offers prim mainDht ans node (.incoming applicationId sender payload)
      (processRecord prim ans applicationId sender record hopsRemaining node.state).state
      (offers (processRecord prim ans applicationId sender record hopsRemaining
        node.state).effects) := by
  unfold processRecord
  cases validateRecord prim.isRecordKey (ans.clock 0) record true with
  | error _ => exact .nothing
  | ok _ =>
    dsimp only
    obtain ⟨ingest, hingest⟩ : ∃ ingest, ingest =
        ingestRecord prim ans applicationId record sender false 1 node.state := ⟨_, rfl⟩
    obtain ⟨hnone, hentered⟩ := ingestRecord_entered prim ans
      ⟨applicationId, record, sender, false, 1⟩ node.state hingest
    rw [← hingest]
    cases hresult : ingest.result with
    | error _ =>
      dsimp only
      rw [hnone]
      exact .nothing
    | ok result =>
      dsimp only
      rw [offers_append, hnone]
      by_cases hforward : result.forwardable = true ∧ 0 < hopsRemaining
      case neg =>
        rw [if_neg hforward]
        exact .nothing
      case pos =>
        rw [if_pos hforward]
        refine .relayed rfl decoded ?_ (hentered result hresult hforward.1 _ _) rfl hforward.2 rfl
        rw [Operation.arrival, decoded]

section

omit [DecidableEq Digest]

theorem searchLocal_offers (prim : Primitives Digest Score) (ans : Answers Digest)
    (applicationId : String) (query : GossipSearchQuery) (reading : Nat) (s : GossipState Digest) :
    offers (searchLocal prim ans applicationId query reading s).effects = [] := by
  unfold searchLocal
  split
  · rfl
  · exact offers_shown _ _

theorem processQuery_offers (prim : Primitives Digest Score) (ans : Answers Digest)
    (applicationId sender : String) (queryId : Bytes) (query : GossipSearchQuery)
    (s : GossipState Digest) :
    offers (processQuery prim ans applicationId sender queryId query s).effects = [] := by
  unfold processQuery
  split
  · rfl
  split
  · rfl
  split
  · rfl
  · dsimp only
    split <;> rfl

theorem confirm_offers (prim : Primitives Digest Score) (ans : Answers Digest)
    (applicationId : String) (key : GossipObjectKey) (generation : Nat)
    (level : GossipConfirmationLevel) (matchesAuthoritative : Bool) (s : GossipState Digest) :
    offers (confirm prim ans applicationId key generation level matchesAuthoritative s).effects =
      [] := by
  unfold confirm
  split
  · rfl
  split
  · rfl
  · dsimp only
    split <;> rfl

end

/-- What every operation offers. -/
theorem perform_offers (prim : Primitives Digest Score) (mainDht : String)
    (ans : Answers Digest) (node : Node Digest Score) (op : Operation) :
    ∃ new, (perform prim mainDht ans node op).effects = node.effects ++ new ∧
      Offers prim mainDht ans node op (perform prim mainDht ans node op).state (offers new) := by
  have hnothing : ∀ (t : GossipState Digest) {effects : List (Effect Score)}, offers effects = [] →
      Offers prim mainDht ans node op t (offers effects) := fun t effects h => h ▸ .nothing
  apply perform_cases (P := fun t effects => Offers prim mainDht ans node op t (offers effects))
  case idle => exact .nothing
  case activated => exact fun _ => .nothing
  case published =>
    exact fun _ _ _ _ harrival hown => publishRecordInternal_offers harrival hown rfl
  case confirmed => exact fun _ _ _ _ _ => hnothing _ (confirm_offers _ _ _ _ _ _ _ _)
  case searched => exact fun _ _ => hnothing _ (searchLocal_offers _ _ _ _ _ _)
  case listed =>
    refine fun _ _ _ => hnothing _ ?_
    unfold listRecent
    split
    · rfl
    · exact offers_shown _ _
  case received =>
    rintro _ _ _ _ _ rfl hdecoded
    exact processRecord_offers hdecoded
  case queried => exact fun _ _ _ _ => hnothing _ (processQuery_offers _ _ _ _ _ _ _)
  case merged => exact fun _ _ _ => .nothing
  case answered =>
    exact fun _ _ _ _ => hnothing _ (ingestRecord_entered prim ans ⟨_, _, _, _, _⟩ _ rfl).1
  case pruned => exact .nothing

/-! ## A generation is offered once -/

/-- Nothing expires and nothing is evicted in a step: what is there is there when a record
arrives, and after the step. -/
structure NothingLeaves (prim : Primitives Digest Score) (mainDht : String)
    (ans : Answers Digest) (node : Node Digest Score) (op : Operation) : Prop where
  expired : ∀ a, op.arrival prim mainDht ans node = some a → ∀ applicationId key,
    (node.state.entry applicationId key).isSome →
      ((a.found ans node.state).entry applicationId key).isSome
  evicted : ∀ applicationId key, (node.state.entry applicationId key).isSome →
    ((perform prim mainDht ans node op).state.entry applicationId key).isSome

/-- Offers of a generation of an object. -/
def Offer.isOf (applicationId : String) (key : GossipObjectKey) (generation : Nat)
    (offer : Offer) : Bool :=
  decide (offer.applicationId = applicationId ∧ offer.record.key = key ∧
    offer.record.generation = generation)

/-- What a node has offered is still in its cache, or has been replaced by something newer; and
it has offered each generation once. -/
structure OffersOnce (node : Node Digest Score) : Prop where
  remembered : ∀ offer ∈ offers node.effects,
    ∃ e, node.state.entry offer.applicationId offer.record.key = some e ∧
      offer.record.generation ≤ e.record.generation
  once : ∀ applicationId key generation,
    (offers node.effects).countP (Offer.isOf applicationId key generation) ≤ 1

/-- An entry that stays keeps its record or gets a newer one. -/
theorem Change.generation_le {arrival : Option Arrival} (h : Change prim ans arrival s t)
    (found : ∀ a, arrival = some a → ∀ applicationId key, (s.entry applicationId key).isSome →
      ((a.found ans s).entry applicationId key).isSome)
    {key : GossipObjectKey} {e e' : GossipCacheEntry Digest}
    (before : s.entry applicationId key = some e) (after : t.entry applicationId key = some e') :
    e.record.generation ≤ e'.record.generation := by
  have hsame : s.entry applicationId key = some e' →
      e.record.generation ≤ e'.record.generation := by
    intro hentry
    rw [Option.some.inj (before.symm.trans hentry)]
  cases h with
  | kept apps _ =>
    rw [GossipState.entry, apps] at after
    exact hsame after
  | pruned now =>
    have hbefore := ((entry_pruneState _ _ _ e').mp after).2
    exact hsame hbefore
  | @arrived a hbrought _ _ =>
    rcases Arrival.entry_after after with ⟨rfl, rfl, rfl⟩ | hfound
    · obtain ⟨e₀, he₀⟩ := Option.isSome_iff_exists.mp
        (found a hbrought _ _ (Option.isSome_of_eq_some before))
      have hbefore := ((entry_pruneState _ _ _ e₀).mp he₀).2
      cases before.symm.trans hbefore
      rcases a.ingested_cases prim ans s with hstores | ⟨old, hold, hkeeps⟩
      · rw [hstores.stored]
        exact (hstores.newer e he₀).le
      · cases he₀.symm.trans hold
        rw [hkeeps.kept]
    · have hbefore := ((entry_pruneState _ _ _ e').mp hfound).2
      exact hsame hbefore
  | @confirmed app key' old new hold record _ _ _ =>
    rcases entry_insert after with ⟨rfl, rfl, rfl⟩ | hother
    · cases before.symm.trans hold
      rw [record]
    · exact hsame hother

omit [DecidableEq Digest] in
/-- A record enters only as something new. -/
theorem Entered.not_offered {a : Arrival} {offer : Offer}
    {t : GossipState Digest} (h : Entered prim ans a node.state t offer)
    (remembered : ∀ offer ∈ offers node.effects,
      ∃ e, node.state.entry offer.applicationId offer.record.key = some e ∧
        offer.record.generation ≤ e.record.generation)
    (found : ∀ applicationId key, (node.state.entry applicationId key).isSome →
      ((a.found ans node.state).entry applicationId key).isSome) :
    ∀ old ∈ offers node.effects,
      ¬ (Offer.isOf offer.applicationId offer.record.key offer.record.generation old) := by
  intro old hold hsame
  obtain ⟨happ, hkey, hgeneration⟩ := of_decide_eq_true hsame
  obtain ⟨e, he, hle⟩ := remembered old hold
  rw [happ, hkey, h.applicationId, h.record] at he
  obtain ⟨e₀, he₀⟩ := Option.isSome_iff_exists.mp (found _ _ (Option.isSome_of_eq_some he))
  have hbefore := ((entry_pruneState _ _ _ e₀).mp he₀).2
  cases he.symm.trans hbefore
  have hnewer := h.newer e he₀
  rw [hgeneration, h.record] at hle
  omega

theorem OffersOnce.step {op : Operation} (h : OffersOnce node)
    (stays : NothingLeaves prim mainDht ans node op) :
    OffersOnce (perform prim mainDht ans node op) := by
  obtain ⟨_, -, hstepped⟩ := perform_stepped prim mainDht ans node op
  obtain ⟨new, heffects, hoffers⟩ := perform_offers prim mainDht ans node op
  have hkept : ∀ offer ∈ offers node.effects,
      ∃ e, (perform prim mainDht ans node op).state.entry offer.applicationId
          offer.record.key = some e ∧ offer.record.generation ≤ e.record.generation := by
    intro offer hoffer
    obtain ⟨e, he, hle⟩ := h.remembered offer hoffer
    obtain ⟨e', he'⟩ := Option.isSome_iff_exists.mp
      (stays.evicted _ _ (Option.isSome_of_eq_some he))
    exact ⟨e', he', hle.trans (hstepped.change.generation_le stays.expired he he')⟩
  have hone : ∀ (a : Arrival) (offer : Offer), op.arrival prim mainDht ans node = some a →
      Entered prim ans a node.state (perform prim mainDht ans node op).state offer →
        offers new = [offer] → OffersOnce (perform prim mainDht ans node op) := by
    intro a offer hbrought hentered hnew
    have hfresh := hentered.not_offered h.remembered (stays.expired a hbrought)
    constructor
    · rw [heffects, offers_append, hnew]
      intro old hold
      rcases List.mem_append.mp hold with hold | hold
      · exact hkept old hold
      · obtain rfl := List.mem_singleton.mp hold
        obtain ⟨e, he, hrecord⟩ := hentered.entry
        rw [hentered.applicationId, hentered.record]
        exact ⟨e, he, le_of_eq (congrArg _ hrecord.symm)⟩
    intro applicationId key generation
    rw [heffects, offers_append, hnew, List.countP_append, List.countP_singleton]
    split
    case isFalse => exact h.once applicationId key generation
    case isTrue hsame =>
      obtain ⟨rfl, rfl, rfl⟩ := of_decide_eq_true hsame
      rw [List.countP_eq_zero.mpr hfresh]
  generalize hnew : offers new = list at hoffers
  cases hoffers with
  | nothing =>
    constructor
    · rw [heffects, offers_append, hnew, List.append_nil]
      exact hkept
    · rw [heffects, offers_append, hnew, List.append_nil]
      exact h.once
  | published brought entered _ _ _ => exact hone _ _ brought entered hnew
  | relayed _ _ brought entered _ _ _ => exact hone _ _ brought entered hnew

end VeilKnit.Gossip
