import Mathlib.Data.Nat.Digits.Lemmas
import VeilKnit.Gossip.Eviction
import VeilKnit.Gossip.Operations

/-!
# What a step does to the cache

A step keeps the entries, prunes the expired ones, takes one record in or notes what an
application has confirmed. All that it shows, sends and announces is what the cache holds
after it.
-/

namespace VeilKnit.Gossip

open Library

variable {Digest Score : Type} [DecidableEq Digest] {prim : Primitives Digest Score}
  {mainDht : String} {ans : Answers Digest} {visit : Visit Digest}
  {state s t : GossipState Digest} {applicationId : String} {record : GossipRecord}

/-! ## Taking a record in -/

/-- A record becomes the entry of its object: there was none, or one of a lower generation that
the record may replace. -/
structure Stores (applicationId : String) (record : GossipRecord) (localPublish : Bool)
    (old : Option (GossipCacheEntry Digest)) (ingested : Ingested Digest) : Prop where
  newer : ∀ e, old = some e → e.record.generation < record.generation
  mayReplace : ∀ e, old = some e → e.locallyPublished = true → localPublish = true
  stored : ingested.entry.record = record
  isLocal : ingested.entry.locallyPublished = localPublish
  verification : ingested.entry.verification =
    if localPublish then .localPublished else .unverified
  sources : ingested.entry.supportingClaimedSources.card ≤ 1
  conflicts : ingested.entry.conflictingDigests = ∅
  forwardable : ingested.forwardable = true
  event : ∃ verification, ingested.event = some (storedEvent applicationId record verification)

/-- A record contradicts an entry that stays. -/
def Contradicts (record : GossipRecord) (digest : Digest) (localPublish : Bool)
    (e : GossipCacheEntry Digest) : Prop :=
  if e.locallyPublished = true ∧ localPublish = false then
    digest ≠ e.digest ∨ record.generation ≠ e.record.generation
  else record.generation = e.record.generation ∧ digest ≠ e.digest

/-- The entry of the object stays. -/
structure Keeps (applicationId : String) (record : GossipRecord) (digest : Digest)
    (localPublish : Bool) (e : GossipCacheEntry Digest) (ingested : Ingested Digest) : Prop where
  notNewer : localPublish = true → record.generation ≤ e.record.generation
  kept : ingested.entry.record = e.record
  sources : ingested.entry.supportingClaimedSources.card ≤
    max e.supportingClaimedSources.card gossipMaxClaimedSources
  conflicts : ingested.entry.conflictingDigests = e.conflictingDigests ∨
    Contradicts record digest localPublish e ∧
      ingested.entry.conflictingDigests = insert digest e.conflictingDigests
  forwardable : ingested.forwardable = false
  event : ingested.event = none ∨ ingested.event =
    some (.conflictObserved applicationId record.key record.generation)

theorem claimedSources_card_le (source : String) : (claimedSources source).card ≤ 1 := by
  unfold claimedSources
  split
  · exact Nat.zero_le 1
  · exact le_of_eq (Finset.card_singleton source)

/-- A record is stored, or the entry of its object stays. -/
theorem ingestEntry_cases (now : Nat) (applicationId : String) (record : GossipRecord)
    (digest : Digest) (source : String) (localPublish : Bool)
    (old : Option (GossipCacheEntry Digest)) :
    Stores applicationId record localPublish old
        (ingestEntry now applicationId record digest source localPublish old) ∨
      ∃ e, old = some e ∧ Keeps applicationId record digest localPublish e
        (ingestEntry now applicationId record digest source localPublish old) := by
  cases old with
  | none =>
    refine .inl ⟨nofun, nofun, rfl, rfl, rfl, claimedSources_card_le source, rfl, rfl, ?_⟩
    exact ⟨_, rfl⟩
  | some e =>
    have hseen : e.supportingClaimedSources.card ≤
        max e.supportingClaimedSources.card gossipMaxClaimedSources := le_max_left _ _
    unfold ingestEntry
    dsimp only
    by_cases hguarded : e.locallyPublished = true ∧ ¬ localPublish = true
    case pos =>
      rw [if_pos hguarded]
      have hremote : localPublish = false := by simpa using hguarded.2
      have hnever : localPublish = true → record.generation ≤ e.record.generation := by
        intro h
        exact absurd h hguarded.2
      refine .inr ⟨e, rfl, ?_⟩
      by_cases hdiffers : digest ≠ e.digest ∨ record.generation ≠ e.record.generation
      · rw [if_pos hdiffers]
        refine ⟨hnever, rfl, hseen, .inr ⟨?_, rfl⟩, rfl, .inr rfl⟩
        rw [Contradicts, if_pos ⟨hguarded.1, hremote⟩]
        exact hdiffers
      · rw [if_neg hdiffers]
        exact ⟨hnever, rfl, hseen, .inl rfl, rfl, .inl rfl⟩
    case neg =>
    rw [if_neg hguarded]
    by_cases hnewer : e.record.generation < record.generation
    · rw [if_pos hnewer]
      refine .inl ⟨?_, ?_, rfl, rfl, rfl, claimedSources_card_le source, rfl, rfl, ⟨_, rfl⟩⟩
      · rintro e' ⟨⟩
        exact hnewer
      · rintro e' ⟨⟩ hlocal
        by_contra hremote
        exact hguarded ⟨hlocal, hremote⟩
    rw [if_neg hnewer]
    have hle : localPublish = true → record.generation ≤ e.record.generation :=
      fun _ => not_lt.mp hnewer
    refine .inr ⟨e, rfl, ?_⟩
    by_cases holder : record.generation < e.record.generation
    · rw [if_pos holder]
      exact ⟨hle, rfl, hseen, .inl rfl, rfl, .inl rfl⟩
    rw [if_neg holder]
    by_cases hsame : digest = e.digest
    · rw [if_pos hsame]
      obtain ⟨sources, hsources⟩ : ∃ sources, sources =
          if e.supportingClaimedSources.card < gossipMaxClaimedSources ∧ source ≠ ""
          then insert source e.supportingClaimedSources
          else e.supportingClaimedSources := ⟨_, rfl⟩
      have hcard : sources.card ≤ max e.supportingClaimedSources.card gossipMaxClaimedSources := by
        rw [hsources]
        split
        case isTrue hfew =>
          have hinsert := Finset.card_insert_le source e.supportingClaimedSources
          omega
        case isFalse => exact hseen
      rw [← hsources]
      split
      · exact ⟨hle, rfl, hcard, .inl rfl, rfl, .inl rfl⟩
      · split
        · exact ⟨hle, rfl, hcard, .inl rfl, rfl, .inl rfl⟩
        · exact ⟨hle, rfl, hcard, .inl rfl, rfl, .inl rfl⟩
    · rw [if_neg hsame]
      refine ⟨hle, rfl, hseen, .inr ⟨?_, rfl⟩, rfl, .inr rfl⟩
      rw [Contradicts, if_neg (by simpa using hguarded)]
      exact ⟨by omega, hsame⟩

/-! ## The state after a record -/

/-- A record on its way into the cache. -/
structure Arrival where
  applicationId : String
  record : GossipRecord
  claimedSource : String
  localPublish : Bool
  /-- The reading of the clock at which it enters. -/
  reading : Nat

section Arrival

variable (prim : Primitives Digest Score) (ans : Answers Digest)

def Arrival.now (a : Arrival) : Nat := ans.clock (a.reading + 1)

/-- The cache that the record finds. -/
def Arrival.found (a : Arrival) (state : GossipState Digest) : GossipState Digest :=
  pruneState (a.now ans) state

def Arrival.ingested (a : Arrival) (state : GossipState Digest) : Ingested Digest :=
  ingestEntry (a.now ans) a.applicationId a.record (prim.recordDigest a.record) a.claimedSource
    a.localPublish ((a.found ans state).entry a.applicationId a.record.key)

def Arrival.before (a : Arrival) (state : GossipState Digest) : GossipState Digest :=
  (a.found ans state).setApp a.applicationId
    (((a.found ans state).app a.applicationId).insert a.record.key (a.ingested prim ans state).entry)

/-- The cache after the record. -/
def Arrival.after (a : Arrival) (state : GossipState Digest) : GossipState Digest :=
  enforceCapacity ans.visit (a.before prim ans state)

end Arrival

theorem Arrival.entry_before (prim : Primitives Digest Score) (ans : Answers Digest) (a : Arrival)
    (state : GossipState Digest) :
    (a.before prim ans state).entry a.applicationId a.record.key =
      some (a.ingested prim ans state).entry := by
  simp [Arrival.before]

variable {a : Arrival}

/-- What the cache holds after a record is the entry of its object or was there before. -/
theorem Arrival.entry_after {applicationId : String} {key : GossipObjectKey}
    {e : GossipCacheEntry Digest} (h : (a.after prim ans state).entry applicationId key = some e) :
    applicationId = a.applicationId ∧ key = a.record.key ∧ e = (a.ingested prim ans state).entry ∨
      (a.found ans state).entry applicationId key = some e := by
  have hbefore := (enforceCapacity_spec _ _).1.entries applicationId key e h
  exact entry_insert hbefore

/-- What becomes of a record that passes the checks. -/
theorem ingestRecord_of_valid
    (valid : validateRecord prim.isRecordKey (ans.clock a.reading) a.record true = .ok ())
    (alive : a.now ans < a.record.expiresAt) (state : GossipState Digest) :
    (a.after prim ans state).entry a.applicationId a.record.key = none ∧
        ingestRecord prim ans a.applicationId a.record a.claimedSource a.localPublish a.reading
          state = ⟨.error .objectNotFound, a.after prim ans state, []⟩ ∨
      (a.after prim ans state).entry a.applicationId a.record.key =
          some (a.ingested prim ans state).entry ∧
        ingestRecord prim ans a.applicationId a.record a.claimedSource a.localPublish a.reading
            state =
          ⟨.ok ⟨hitFromEntry (a.ingested prim ans state).entry prim.fullScore 0,
            (a.ingested prim ans state).forwardable⟩, a.after prim ans state,
            (a.ingested prim ans state).event.toList.map .event⟩ := by
  have hbefore := a.entry_before prim ans state
  unfold ingestRecord
  simp only [Arrival.after, Arrival.before, Arrival.ingested, Arrival.found,
    Arrival.now] at hbefore alive ⊢
  rw [valid]
  dsimp only
  rw [if_neg (not_le.mpr alive)]
  cases hentry : (enforceCapacity ans.visit _).entry a.applicationId a.record.key with
  | none => exact .inl ⟨rfl, rfl⟩
  | some e =>
    have hsame := (enforceCapacity_spec _ _).1.entries _ _ e hentry
    cases hbefore.symm.trans hsame
    exact .inr ⟨rfl, rfl⟩

theorem state_ingestRecord (prim : Primitives Digest Score) (ans : Answers Digest)
    (valid : validateRecord prim.isRecordKey (ans.clock a.reading) a.record true = .ok ())
    (alive : a.now ans < a.record.expiresAt) (state : GossipState Digest) :
    (ingestRecord prim ans a.applicationId a.record a.claimedSource a.localPublish a.reading
      state).state = a.after prim ans state := by
  rcases ingestRecord_of_valid valid alive state with ⟨-, h⟩ | ⟨-, h⟩ <;> rw [h]

theorem state_processRecord (prim : Primitives Digest Score) (ans : Answers Digest)
    {applicationId sender : String} {record : GossipRecord}
    (valid : validateRecord prim.isRecordKey (ans.clock 0) record true = .ok ())
    (hopsRemaining : Nat) (state : GossipState Digest) :
    (processRecord prim ans applicationId sender record hopsRemaining state).state =
      (ingestRecord prim ans applicationId record sender false 1 state).state := by
  rw [processRecord, valid]
  dsimp only
  split <;> rfl

/-- Taking a record in fails without a trace, or makes the state that its arrival leads to; then
the operation fails because the record is evicted at once, or its entry is there. -/
theorem ingestRecord_cases (prim : Primitives Digest Score) (ans : Answers Digest)
    (a : Arrival) (state : GossipState Digest) :
    (∃ e, ingestRecord prim ans a.applicationId a.record a.claimedSource a.localPublish a.reading
        state = ⟨.error e, state, []⟩) ∨
      (validateRecord prim.isRecordKey (ans.clock a.reading) a.record true = .ok () ∧
          a.now ans < a.record.expiresAt) ∧
        ((a.after prim ans state).entry a.applicationId a.record.key = none ∧
            ingestRecord prim ans a.applicationId a.record a.claimedSource a.localPublish
                a.reading state =
              ⟨.error .objectNotFound, a.after prim ans state, []⟩ ∨
          (a.after prim ans state).entry a.applicationId a.record.key =
              some (a.ingested prim ans state).entry ∧
            ingestRecord prim ans a.applicationId a.record a.claimedSource a.localPublish
                a.reading state =
              ⟨.ok ⟨hitFromEntry (a.ingested prim ans state).entry prim.fullScore 0,
                (a.ingested prim ans state).forwardable⟩, a.after prim ans state,
                (a.ingested prim ans state).event.toList.map .event⟩) := by
  cases hvalid : validateRecord prim.isRecordKey (ans.clock a.reading) a.record true with
  | error e =>
    refine .inl ⟨e, ?_⟩
    unfold ingestRecord
    rw [hvalid]
  | ok _ =>
    by_cases halive : a.now ans < a.record.expiresAt
    case pos => exact .inr ⟨⟨rfl, halive⟩, ingestRecord_of_valid hvalid halive state⟩
    case neg =>
      refine .inl ⟨.wire "record already expired", ?_⟩
      unfold ingestRecord
      rw [hvalid]
      exact if_pos (not_lt.mp halive)

/-! ## One step -/

section Change

variable (prim : Primitives Digest Score) (mainDht : String) (ans : Answers Digest)

/-- The record that an operation brings to the cache. -/
def Operation.arrival (node : Node Digest Score) : Operation → Option Arrival
  | .publish applicationId request =>
    some ⟨applicationId, publishedRecord mainDht (ans.clock 0) request, mainDht, true, 2⟩
  | .publishSystemRecord applicationId record =>
    some ⟨applicationId, { record with
      originMainDht := mainDht
      publishedAt := ans.clock 1
      expiresAt := max record.expiresAt (saturatingAdd (ans.clock 1) 1) }, mainDht, true, 3⟩
  | .incoming applicationId sender payload =>
    match decodeWire prim payload with
    | .ok (.record record _) => some ⟨applicationId, record, sender, false, 1⟩
    | _ => none
  | .proceed index =>
    match node.inFlight[index]? with
    | some (.withdrawal applicationId record _) =>
      some ⟨applicationId, record, mainDht, true, 1⟩
    | some (.response applicationId sender _ (record :: _) _) =>
      some ⟨applicationId, record, sender, false, 1⟩
    | _ => none
  | _ => none

/-- What a step makes of the cache. -/
inductive Change (arrival : Option Arrival) (s : GossipState Digest) : GossipState Digest → Prop
  | kept {t : GossipState Digest} (apps : ∀ applicationId, t.app applicationId = s.app applicationId)
      (items : t.items.length = s.items.length) : Change arrival s t
  | pruned (now : Nat) : Change arrival s (pruneState now s)
  | arrived {a : Arrival} (brought : arrival = some a)
      (valid : validateRecord prim.isRecordKey (ans.clock a.reading) a.record true = .ok ())
      (alive : a.now ans < a.record.expiresAt) : Change arrival s (a.after prim ans s)
  | confirmed {applicationId : String} {key : GossipObjectKey} {e e' : GossipCacheEntry Digest}
      (old : s.entry applicationId key = some e) (record : e'.record = e.record)
      (sources : e'.supportingClaimedSources = e.supportingClaimedSources)
      (conflicts : e'.conflictingDigests = e.conflictingDigests)
      (isLocal : e'.locallyPublished = e.locallyPublished) :
      Change arrival s (s.setApp applicationId ((s.app applicationId).insert key e'))

end Change

omit [DecidableEq Digest] in
/-- The cache holds a record. -/
def GossipState.Holds (state : GossipState Digest) (applicationId : String)
    (record : GossipRecord) : Prop :=
  ∃ e, state.entry applicationId record.key = some e ∧ e.record = record

/-- What an effect tells is what the cache holds. -/
def Reflects (state : GossipState Digest) : Effect Score → Prop
  | .event (.objectUpdated applicationId key generation _) =>
    ∃ e, state.entry applicationId key = some e ∧ e.record.generation = generation
  | .event (.objectWithdrawn applicationId key generation) =>
    ∃ e, state.entry applicationId key = some e ∧ e.record.generation = generation ∧
      e.record.withdrawn = true
  | .event _ => True
  | .shown applicationId hit => state.Holds applicationId hit.record
  | .fanoutRecord applicationId record _ _ => state.Holds applicationId record
  | .queryResponse applicationId _ records => ∀ record ∈ records, state.Holds applicationId record

/-- Entries stand under the keys of their records. -/
def Keyed (state : GossipState Digest) : Prop :=
  ∀ applicationId key e, state.entry applicationId key = some e → e.record.key = key

/-- The record of an entry was in the cache before, or is announced. -/
def Told (s t : GossipState Digest) (effects : List (Effect Score)) : Prop :=
  ∀ applicationId key e, t.entry applicationId key = some e →
    (∃ old, s.entry applicationId key = some old ∧ old.record = e.record) ∨
      ∃ verification, .event (storedEvent applicationId e.record verification) ∈ effects

/-- A step adds effects that tell what the cache holds after it, and tells of all that is new. -/
structure Stepped (prim : Primitives Digest Score) (ans : Answers Digest)
    (arrival : Option Arrival) (s : GossipState Digest) (t : GossipState Digest)
    (effects : List (Effect Score)) : Prop where
  change : Change prim ans arrival s t
  reflects : Keyed s → ∀ effect ∈ effects, Reflects t effect
  told : Told s t effects

section

omit [DecidableEq Digest]

theorem Told.of_kept {effects : List (Effect Score)}
    (apps : ∀ applicationId, t.app applicationId = s.app applicationId) : Told s t effects := by
  intro applicationId key e he
  rw [GossipState.entry, apps] at he
  exact .inl ⟨e, he, rfl⟩

theorem Told.mono {effects more : List (Effect Score)} (h : Told s t effects)
    (subset : effects ⊆ more) : Told s t more := by
  intro applicationId key e he
  exact (h applicationId key e he).imp_right fun ⟨verification, hmem⟩ =>
    ⟨verification, subset hmem⟩

end

theorem Change.same (arrival : Option Arrival) (s : GossipState Digest) :
    Change prim ans arrival s s := .kept (fun _ => rfl) rfl

theorem Stepped.same (arrival : Option Arrival) (s : GossipState Digest) :
    Stepped prim ans arrival s s [] :=
  ⟨.same arrival s, fun _ _ h => absurd h List.not_mem_nil, .of_kept fun _ => rfl⟩

section

omit [DecidableEq Digest]

theorem Keyed.holds (keyed : Keyed state) {key : GossipObjectKey}
    {e : GossipCacheEntry Digest} (h : state.entry applicationId key = some e) :
    state.Holds applicationId e.record := by
  have hkey := keyed applicationId key e h
  exact ⟨e, by rw [hkey]; exact h, rfl⟩

theorem app_activated (s : GossipState Digest) (applicationId other : String) :
    (s.setApp applicationId (s.app applicationId)).app other = s.app other := by
  rw [app_setApp]
  split
  case isTrue h => rw [h]
  case isFalse => rfl

end

/-- Creating the state of an application that has none. -/
theorem Change.activated (arrival : Option Arrival) (s : GossipState Digest)
    (applicationId : String) :
    Change prim ans arrival s (s.setApp applicationId (s.app applicationId)) :=
  .kept (app_activated s applicationId)
    (Nat.add_right_cancel (length_items_setApp s applicationId (s.app applicationId)))

section

omit [DecidableEq Digest]

theorem entry_activated (s : GossipState Digest) (applicationId other : String)
    (key : GossipObjectKey) :
    (s.setApp applicationId (s.app applicationId)).entry other key = s.entry other key := by
  rw [GossipState.entry, app_activated, GossipState.entry]

theorem entry_pruneState (now : Nat) (applicationId : String) (key : GossipObjectKey)
    (e : GossipCacheEntry Digest) :
    (pruneState now state).entry applicationId key = some e ↔
      now < e.record.expiresAt ∧ state.entry applicationId key = some e := by
  unfold GossipState.entry GossipState.app pruneState
  rw [AList.lookup_mapEntries]
  cases state.apps.lookup applicationId with
  | none => simp
  | some app => simp [AList.lookup_filterEntries_eq_some]

theorem storedEvent_reflects {e : GossipCacheEntry Digest} {verification : GossipVerificationState}
    (h : state.entry applicationId record.key = some e) (hrecord : e.record = record) :
    Reflects state (.event (storedEvent applicationId record verification) : Effect Score) := by
  unfold storedEvent
  split
  case isTrue hwithdrawn => exact ⟨e, h, by rw [hrecord], by rw [hrecord]; exact hwithdrawn⟩
  case isFalse => exact ⟨e, h, by rw [hrecord]⟩

theorem items_pruneState_le (now : Nat) : (pruneState now state).items.length ≤
    state.items.length := by
  have hpruned : (pruneState now state).items.length = (state.apps.entries.map fun e =>
      (e.2.filterEntries fun _ entry =>
        decide (now < entry.record.expiresAt)).entries.length).sum := by
    rw [length_items, AList.total, pruneState, AList.mapEntries, List.map_map]
    rfl
  rw [hpruned, length_items, AList.total]
  exact List.sum_le_sum fun app _ => AList.length_filterEntries_le _ _

theorem app_pruneState_le (now : Nat) (applicationId : String) :
    ((pruneState now state).app applicationId).entries.length ≤
      (state.app applicationId).entries.length := by
  unfold GossipState.app pruneState
  rw [AList.lookup_mapEntries]
  cases state.apps.lookup applicationId with
  | none => exact le_rfl
  | some app =>
    rw [Option.map_some, Option.getD_some, Option.getD_some]
    exact AList.length_filterEntries_le _ _

end

/-! ### Keys -/

theorem Arrival.ingested_cases (prim : Primitives Digest Score) (ans : Answers Digest) (a : Arrival)
    (s : GossipState Digest) :
    Stores a.applicationId a.record a.localPublish
        ((a.found ans s).entry a.applicationId a.record.key) (a.ingested prim ans s) ∨
      ∃ e, (a.found ans s).entry a.applicationId a.record.key = some e ∧
        Keeps a.applicationId a.record (prim.recordDigest a.record) a.localPublish e
          (a.ingested prim ans s) :=
  ingestEntry_cases ..

theorem Arrival.key_ingested (a : Arrival) (keyed : Keyed s) :
    (a.ingested prim ans s).entry.record.key = a.record.key := by
  rcases a.ingested_cases prim ans s with hstores | ⟨e, he, hkeeps⟩
  · exact congrArg GossipRecord.key hstores.stored
  · rw [hkeeps.kept]
    exact keyed _ _ e ((entry_pruneState _ _ _ e).mp he).2

theorem Change.keyed {arrival : Option Arrival} (h : Change prim ans arrival s t)
    (keyed : Keyed s) : Keyed t := by
  intro applicationId key e he
  cases h with
  | kept apps _ =>
    rw [GossipState.entry, apps] at he
    exact keyed applicationId key e he
  | pruned now => exact keyed _ _ e ((entry_pruneState _ _ _ e).mp he).2
  | @arrived a _ _ _ =>
    rcases Arrival.entry_after he with ⟨rfl, rfl, rfl⟩ | hfound
    · exact a.key_ingested keyed
    · exact keyed _ _ e ((entry_pruneState _ _ _ e).mp hfound).2
  | @confirmed other key' old new hold record _ _ _ =>
    rcases entry_insert he with ⟨rfl, rfl, rfl⟩ | hother
    · rw [record]
      exact keyed _ _ old hold
    · exact keyed _ _ e hother

/-! ### Records -/

/-- Taking a record in. What its result shows is in the cache, and so is a record that is to be
passed on. -/
theorem ingestRecord_stepped (prim : Primitives Digest Score) (ans : Answers Digest) (a : Arrival)
    (s : GossipState Digest) {out : Outcome Digest Score (IngestResult Score)}
    (hout : out = ingestRecord prim ans a.applicationId a.record a.claimedSource a.localPublish
      a.reading s) :
    Stepped prim ans (some a) s out.state out.effects ∧
      ∀ result, out.result = .ok result → Keyed s →
        out.state.Holds a.applicationId result.hit.record ∧
          (result.forwardable = true → out.state.Holds a.applicationId a.record) := by
  subst hout
  rcases ingestRecord_cases prim ans a s with
    ⟨e, hrejected⟩ | ⟨⟨hvalid, halive⟩, ⟨hgone, hevicted⟩ | ⟨hentry, hok⟩⟩
  · rw [hrejected]
    exact ⟨.same _ s, fun _ h => by cases h⟩
  · rw [hevicted]
    refine ⟨⟨.arrived rfl hvalid halive, fun _ _ h => absurd h List.not_mem_nil,
      fun app key e he => ?_⟩, fun _ h => by cases h⟩
    rcases Arrival.entry_after he with ⟨rfl, rfl, -⟩ | hfound
    · cases hgone.symm.trans he
    · exact .inl ⟨e, ((entry_pruneState _ _ _ e).mp hfound).2, rfl⟩
  rw [hok]
  have hcases := a.ingested_cases prim ans s
  refine ⟨⟨.arrived rfl hvalid halive, fun hkeyed effect heffect => ?_, fun app key e he => ?_⟩,
    fun result hresult hkeyed => ?_⟩
  · obtain ⟨event, hevent, rfl⟩ := List.mem_map.mp heffect
    rw [Option.mem_toList] at hevent
    rcases hcases with hstores | ⟨e, -, hkeeps⟩
    · obtain ⟨verification, hstored⟩ := hstores.event
      cases hstored.symm.trans hevent
      exact storedEvent_reflects hentry hstores.stored
    · rcases hkeeps.event with hnone | hconflict
      · cases hnone.symm.trans hevent
      · cases hconflict.symm.trans hevent
        trivial
  · rcases Arrival.entry_after he with ⟨rfl, rfl, rfl⟩ | hfound
    · rcases hcases with hstores | ⟨old, hold, hkeeps⟩
      · obtain ⟨verification, hevent⟩ := hstores.event
        refine .inr ⟨verification, List.mem_map.mpr ⟨_, ?_, rfl⟩⟩
        rw [hstores.stored]
        exact Option.mem_toList.mpr hevent
      · exact .inl ⟨old, ((entry_pruneState _ _ _ old).mp hold).2, hkeeps.kept.symm⟩
    · exact .inl ⟨e, ((entry_pruneState _ _ _ e).mp hfound).2, rfl⟩
  cases hresult
  have hafter : Keyed (a.after prim ans s) := (Change.arrived rfl hvalid halive).keyed hkeyed
  refine ⟨hafter.holds hentry, fun hforward => ?_⟩
  rcases hcases with hstores | ⟨e, -, hkeeps⟩
  · exact ⟨_, hentry, hstores.stored⟩
  · cases hkeeps.forwardable.symm.trans hforward

theorem publishRecordInternal_stepped (applicationId : String) (record : GossipRecord)
    (allowReserved : Bool) (reading : Nat) (s : GossipState Digest) :
    Stepped prim ans (some ⟨applicationId, record, mainDht, true, reading + 1⟩) s
      (publishRecordInternal prim mainDht ans applicationId record allowReserved reading s).state
      (publishRecordInternal prim mainDht ans applicationId record allowReserved reading
        s).effects := by
  unfold publishRecordInternal
  cases validateRecord prim.isRecordKey (ans.clock reading) record allowReserved with
  | error _ => exact .same _ s
  | ok _ =>
    dsimp only
    obtain ⟨out, hout⟩ : ∃ out, out =
        ingestRecord prim ans applicationId record mainDht true (reading + 1) s := ⟨_, rfl⟩
    obtain ⟨hstepped, hshown⟩ := ingestRecord_stepped prim ans
      ⟨applicationId, record, mainDht, true, reading + 1⟩ s hout
    rw [← hout]
    cases hresult : out.result with
    | error _ => exact hstepped
    | ok result =>
      refine ⟨hstepped.change, fun hkeyed effect heffect => ?_, hstepped.told.mono
        fun _ h => List.mem_append_left _ (List.mem_append_left _ h)⟩
      obtain ⟨hhit, hforward⟩ := hshown result hresult hkeyed
      dsimp only at heffect
      rcases List.mem_append.mp heffect with heffect | heffect
      · rcases List.mem_append.mp heffect with heffect | heffect
        · exact hstepped.reflects hkeyed effect heffect
        · split at heffect
          case isTrue hforwardable =>
            obtain rfl := List.mem_singleton.mp heffect
            exact hforward hforwardable
          case isFalse => cases heffect
      · obtain rfl := List.mem_singleton.mp heffect
        exact hhit

theorem processRecord_stepped (applicationId sender : String) (record : GossipRecord)
    (hopsRemaining : Nat) (s : GossipState Digest) :
    Stepped prim ans (some ⟨applicationId, record, sender, false, 1⟩) s
      (processRecord prim ans applicationId sender record hopsRemaining s).state
      (processRecord prim ans applicationId sender record hopsRemaining s).effects := by
  unfold processRecord
  cases validateRecord prim.isRecordKey (ans.clock 0) record true with
  | error _ => exact .same _ s
  | ok _ =>
    dsimp only
    obtain ⟨out, hout⟩ : ∃ out, out =
        ingestRecord prim ans applicationId record sender false 1 s := ⟨_, rfl⟩
    obtain ⟨hstepped, hshown⟩ := ingestRecord_stepped prim ans
      ⟨applicationId, record, sender, false, 1⟩ s hout
    rw [← hout]
    cases hresult : out.result with
    | error _ => exact hstepped
    | ok result =>
      refine ⟨hstepped.change, fun hkeyed effect heffect => ?_,
        hstepped.told.mono (List.subset_append_left _ _)⟩
      obtain ⟨-, hforward⟩ := hshown result hresult hkeyed
      dsimp only at heffect
      rcases List.mem_append.mp heffect with heffect | heffect
      · exact hstepped.reflects hkeyed effect heffect
      · split at heffect
        case isTrue hforwardable =>
          obtain rfl := List.mem_singleton.mp heffect
          exact hforward hforwardable.1
        case isFalse => cases heffect

/-! ### Reading -/

section

omit [DecidableEq Digest]

variable {query : GossipSearchQuery}

/-- Whatever is found in an application's part of the cache is one of its entries. -/
theorem hits_of_searchAppState {app : AppGossipState Digest}
    {now : Nat} {hit : GossipSearchHit Score} (h : hit ∈ searchAppState prim app query now) :
    ∃ key e, app.lookup key = some e ∧ hit.record = e.record := by
  have hmem := List.mem_of_mem_take h
  rw [(prim.compareHits.perm _).mem_iff, List.mem_filterMap] at hmem
  obtain ⟨item, hitem, hhit⟩ := hmem
  have hentries : item ∈ app.entries := by
    have heligible := List.mem_of_mem_filter hitem
    split at heligible
    · exact heligible
    · exact List.mem_of_mem_filter heligible
  refine ⟨item.1, item.2, AList.mem_lookup_iff.mpr hentries, ?_⟩
  dsimp only at hhit
  split at hhit
  case isTrue => cases hhit
  case isFalse =>
    split at hhit
    case isTrue => cases hhit
    case isFalse =>
      cases hhit
      rfl

theorem searchLocal_state (prim : Primitives Digest Score) (ans : Answers Digest)
    (applicationId : String) (query : GossipSearchQuery) (reading : Nat) (s : GossipState Digest) :
    (searchLocal prim ans applicationId query reading s).state = s ∨
      (searchLocal prim ans applicationId query reading s).state =
        s.setApp applicationId (s.app applicationId) := by
  unfold searchLocal
  split
  · exact .inl rfl
  · exact .inr rfl

theorem searchLocal_holds {reading : Nat} (keyed : Keyed s) {hits : List (GossipSearchHit Score)}
    (h : (searchLocal prim ans applicationId query reading s).result = .ok hits) :
    ∀ hit ∈ hits,
      (searchLocal prim ans applicationId query reading s).state.Holds applicationId hit.record := by
  unfold searchLocal at h ⊢
  split at h
  case h_1 => cases h
  case h_2 =>
  cases h
  intro hit hhit
  obtain ⟨key, e, he, hrecord⟩ := hits_of_searchAppState hhit
  obtain ⟨e', he', hsame⟩ := keyed.holds he
  rw [hrecord]
  exact ⟨e', by rw [entry_activated]; exact he', hsame⟩

end

theorem searchLocal_stepped (arrival : Option Arrival) (applicationId : String)
    (query : GossipSearchQuery) (reading : Nat) (s : GossipState Digest) :
    Stepped prim ans arrival s (searchLocal prim ans applicationId query reading s).state
      (searchLocal prim ans applicationId query reading s).effects := by
  constructor
  · rcases searchLocal_state prim ans applicationId query reading s with h | h
    · rw [h]
      exact .same arrival s
    · rw [h]
      exact .activated arrival s applicationId
  · intro hkeyed effect heffect
    have hshown : ∃ hits, (searchLocal prim ans applicationId query reading s).result = .ok hits ∧
        ∃ hit ∈ hits, effect = .shown applicationId hit := by
      unfold searchLocal at heffect ⊢
      split at heffect
      case h_1 => cases heffect
      case h_2 =>
        obtain ⟨hit, hhit, rfl⟩ := List.mem_map.mp heffect
        exact ⟨_, rfl, hit, hhit, rfl⟩
    obtain ⟨hits, hresult, hit, hhit, rfl⟩ := hshown
    exact searchLocal_holds hkeyed hresult hit hhit
  · rcases searchLocal_state prim ans applicationId query reading s with h | h
    · rw [h]
      exact .of_kept fun _ => rfl
    · rw [h]
      exact .of_kept (app_activated s applicationId)

theorem listRecent_stepped (arrival : Option Arrival) (applicationId : String)
    («namespace» : Option String) (limit : Nat) (s : GossipState Digest) :
    Stepped prim ans arrival s (listRecent prim ans applicationId «namespace» limit s).state
      (listRecent prim ans applicationId «namespace» limit s).effects := by
  unfold listRecent
  split
  · exact .same arrival s
  refine ⟨.activated arrival s applicationId, fun hkeyed effect heffect => ?_,
    .of_kept (app_activated s applicationId)⟩
  obtain ⟨hit, hhit, rfl⟩ := List.mem_map.mp heffect
  have hsorted := List.mem_of_mem_take hhit
  rw [List.mem_mergeSort, List.mem_map] at hsorted
  obtain ⟨item, hitem, rfl⟩ := hsorted
  have hmem := (ans.visit.perm _).mem_iff.mp (List.mem_of_mem_filter hitem)
  obtain ⟨e, he, rfl⟩ := List.mem_map.mp hmem
  obtain ⟨e', he', hsame⟩ := hkeyed.holds (AList.mem_lookup_iff.mpr he)
  exact ⟨e', by rw [entry_activated]; exact he', hsame⟩

section

omit [DecidableEq Digest]

theorem mem_fittingRecords {queryId : Bytes} {record : GossipRecord}
    {records rest : List GossipRecord} (h : record ∈ fittingRecords prim queryId records rest) :
    record ∈ records ∨ record ∈ rest := by
  induction rest generalizing records with
  | nil => exact .inl h
  | cons next rest ih =>
    rw [fittingRecords] at h
    split at h
    case isFalse => exact .inl h
    case isTrue =>
      rcases ih h with hrecords | hrest
      · rcases List.mem_append.mp hrecords with hrecords | hnext
        · exact .inl hrecords
        · exact .inr (List.mem_cons.mpr (.inl (List.mem_singleton.mp hnext)))
      · exact .inr (List.mem_cons_of_mem _ hrest)

theorem allowQueryResponse_kept (applicationId claimedPeer : String) (now : Nat)
    (s : GossipState Digest) :
    (allowQueryResponse applicationId claimedPeer now s).2.apps = s.apps := by
  unfold allowQueryResponse
  dsimp only
  split <;> rfl

end

theorem processQuery_stepped (arrival : Option Arrival) (applicationId sender : String)
    (queryId : Bytes) (query : GossipSearchQuery) (s : GossipState Digest) :
    Stepped prim ans arrival s (processQuery prim ans applicationId sender queryId query s).state
      (processQuery prim ans applicationId sender queryId query s).effects := by
  unfold processQuery
  split
  · exact .same arrival s
  split
  · exact .same arrival s
  have hkept := allowQueryResponse_kept applicationId sender (ans.clock 0) s
  rcases hallowed : allowQueryResponse applicationId sender (ans.clock 0) s with ⟨_ | _, cooled⟩
  case false =>
    rw [hallowed] at hkept
    have happs : ∀ other, cooled.app other = s.app other := fun other =>
      congrArg (fun apps => (AList.lookup other apps).getD ∅) hkept
    refine ⟨.kept happs ?_, fun _ _ h => absurd h List.not_mem_nil, .of_kept happs⟩
    rw [length_items, length_items, hkept]
  case true =>
  rw [hallowed] at hkept
  have happs : ∀ other, cooled.app other = s.app other := fun other =>
    congrArg (fun apps => (AList.lookup other apps).getD ∅) hkept
  have hcooled : Keyed s → Keyed cooled := by
    intro hkeyed other key e he
    rw [GossipState.entry, happs] at he
    exact hkeyed other key e he
  have hsame : ∀ t, t = cooled ∨ t = cooled.setApp applicationId (cooled.app applicationId) →
      (∀ other, t.app other = s.app other) ∧ t.items.length = s.items.length := by
    intro t ht
    have hlength : cooled.items.length = s.items.length := by
      rw [length_items, length_items, hkept]
    rcases ht with rfl | rfl
    · exact ⟨happs, hlength⟩
    · refine ⟨fun other => (app_activated cooled applicationId other).trans (happs other), ?_⟩
      have hsum := length_items_setApp cooled applicationId (cooled.app applicationId)
      omega
  obtain ⟨hsearched, hlength⟩ :=
    hsame _ (searchLocal_state prim ans applicationId query 1 cooled)
  dsimp only
  cases hresult : (searchLocal prim ans applicationId query 1 cooled).result with
  | error _ =>
    exact ⟨.kept hsearched hlength, fun _ _ h => absurd h List.not_mem_nil, .of_kept hsearched⟩
  | ok hits =>
    refine ⟨.kept hsearched hlength, fun hkeyed effect heffect => ?_, .of_kept hsearched⟩
    obtain rfl := List.mem_singleton.mp heffect
    intro record hrecord
    rcases mem_fittingRecords hrecord with hnil | hmem
    · cases hnil
    · obtain ⟨hit, hhit, rfl⟩ := List.mem_map.mp hmem
      exact searchLocal_holds (hcooled hkeyed) hresult hit (List.mem_of_mem_take hhit)

/-! ### Confirming -/

theorem confirm_stepped (arrival : Option Arrival) (applicationId : String)
    (key : GossipObjectKey) (generation : Nat) (level : GossipConfirmationLevel)
    (matchesAuthoritative : Bool) (s : GossipState Digest) :
    Stepped prim ans arrival s
      (confirm prim ans applicationId key generation level matchesAuthoritative s).state
      (confirm prim ans applicationId key generation level matchesAuthoritative s).effects := by
  unfold confirm
  split
  · exact .same arrival s
  cases hentry : s.entry applicationId key with
  | none => exact .same arrival s
  | some e =>
    dsimp only
    by_cases hgeneration : e.record.generation ≠ generation
    case pos =>
      rw [if_pos hgeneration]
      exact .same arrival s
    case neg =>
    rw [if_neg hgeneration]
    obtain ⟨confirmed, hconfirmed⟩ : ∃ confirmed, confirmed =
        confirmedEntry (ans.clock 0) generation level matchesAuthoritative e := ⟨_, rfl⟩
    have hsame : confirmed.record = e.record ∧
        confirmed.supportingClaimedSources = e.supportingClaimedSources ∧
        confirmed.conflictingDigests = e.conflictingDigests ∧
        confirmed.locallyPublished = e.locallyPublished := by
      rw [hconfirmed]
      unfold confirmedEntry
      split <;> exact ⟨rfl, rfl, rfl, rfl⟩
    have hnow : (s.setApp applicationId ((s.app applicationId).insert key confirmed)).entry
        applicationId key = some confirmed := by simp
    dsimp only
    rw [← hconfirmed]
    refine ⟨.confirmed hentry hsame.1 hsame.2.1 hsame.2.2.1 hsame.2.2.2,
      fun hkeyed effect heffect => ?_, fun app other e' he' => .inl ?_⟩
    rotate_left
    · rcases entry_insert he' with ⟨rfl, rfl, rfl⟩ | hother
      · exact ⟨e, hentry, hsame.1.symm⟩
      · exact ⟨e', hother, rfl⟩
    rcases List.mem_cons.mp heffect with rfl | heffect
    · split
      · refine ⟨confirmed, hnow, ?_⟩
        rw [hsame.1]
        exact not_not.mp hgeneration
      · trivial
    obtain rfl := List.mem_singleton.mp heffect
    have hkey : confirmed.record.key = key := by
      rw [hsame.1]
      exact hkeyed applicationId key e hentry
    refine ⟨confirmed, ?_, rfl⟩
    rw [hitFromEntry, hkey]
    exact hnow

/-! ### All operations -/

/-- What an outcome leaves and adds. -/
def Outcome.Meets {α : Type} (P : GossipState Digest → List (Effect Score) → Prop)
    (out : Outcome Digest Score α) : Prop :=
  P out.state out.effects

/-- An operation adds effects to those of the node: of the step on the state that it takes. -/
theorem perform_cases {node : Node Digest Score} {op : Operation}
    {P : GossipState Digest → List (Effect Score) → Prop} (idle : P node.state [])
    (activated : ∀ app, P (node.state.setApp app (node.state.app app)) [])
    (published : ∀ app record allowReserved reading,
      op.arrival prim mainDht ans node = some ⟨app, record, mainDht, true, reading + 1⟩ →
      (∀ app sender payload, op ≠ .incoming app sender payload) →
      (publishRecordInternal prim mainDht ans app record allowReserved reading node.state).Meets P)
    (confirmed : ∀ app key generation level matchesAuthoritative,
      (confirm prim ans app key generation level matchesAuthoritative node.state).Meets P)
    (searched : ∀ app query, (searchLocal prim ans app query 0 node.state).Meets P)
    (listed : ∀ app «namespace» limit,
      (listRecent prim ans app «namespace» limit node.state).Meets P)
    (received : ∀ app sender payload record hopsRemaining, op = .incoming app sender payload →
      decodeWire prim payload = .ok (.record record hopsRemaining) →
      (processRecord prim ans app sender record hopsRemaining node.state).Meets P)
    (queried : ∀ app sender queryId query,
      (processQuery prim ans app sender queryId query node.state).Meets P)
    (merged : ∀ app queryId accepted, P node.state [.event (.queryMerged app queryId accepted)])
    (answered : ∀ app record sender,
      op.arrival prim mainDht ans node = some ⟨app, record, sender, false, 1⟩ →
      (ingestRecord prim ans app record sender false 1 node.state).Meets P)
    (pruned : P (pruneState (ans.clock 0) node.state) []) :
    ∃ new, (perform prim mainDht ans node op).effects = node.effects ++ new ∧
      P (perform prim mainDht ans node op).state new := by
  have hidle : ∃ new, node.effects = node.effects ++ new ∧ P node.state new :=
    ⟨[], (List.append_nil _).symm, idle⟩
  cases op with
  | activateApplication app =>
    unfold perform
    dsimp only
    split
    · exact hidle
    · exact ⟨[], (List.append_nil _).symm, activated _⟩
  | publish app request =>
    refine ⟨_, rfl, ?_⟩
    unfold perform Node.after publish
    dsimp only
    split
    · exact idle
    · exact published _ _ _ _ rfl (by simp)
  | publishSystemRecord app record =>
    refine ⟨_, rfl, ?_⟩
    unfold perform Node.after publishSystemRecord
    dsimp only
    split
    · exact idle
    · exact published _ _ _ _ rfl (by simp)
  | withdraw app key requestedGeneration allowReserved =>
    unfold perform
    dsimp only
    split
    · exact hidle
    · exact hidle
  | confirm => exact ⟨_, rfl, confirmed _ _ _ _ _⟩
  | searchLocal => exact ⟨_, rfl, searched _ _⟩
  | listRecent => exact ⟨_, rfl, listed _ _ _⟩
  | incoming app sender payload =>
    unfold perform processIncoming
    dsimp only
    split
    · exact hidle
    split
    · exact hidle
    cases hdecoded : decodeWire prim payload with
    | error _ => exact hidle
    | ok message =>
      cases message with
      | record => exact ⟨_, rfl, received _ _ _ _ _ rfl hdecoded⟩
      | query => exact ⟨_, rfl, queried _ _ _ _⟩
      | queryResponse => exact hidle
  | proceed index =>
    unfold perform
    dsimp only
    cases hflight : node.inFlight[index]? with
    | none => exact hidle
    | some flight =>
      rw [Operation.arrival, hflight] at published answered
      cases flight with
      | withdrawal => exact ⟨_, rfl, published _ _ _ _ rfl (by simp)⟩
      | response app sender queryId records accepted =>
        cases records with
        | nil => exact ⟨_, rfl, merged _ _ _⟩
        | cons record records =>
          unfold proceed
          dsimp only
          cases validateRecord prim.isRecordKey (ans.clock 0) record true with
          | error _ => exact hidle
          | ok _ => exact ⟨_, rfl, answered _ _ _ rfl⟩
  | pruneExpired => exact ⟨[], (List.append_nil _).symm, pruned⟩

/-- What every operation does. -/
theorem perform_stepped (prim : Primitives Digest Score) (mainDht : String)
    (ans : Answers Digest) (node : Node Digest Score) (op : Operation) :
    ∃ new, (perform prim mainDht ans node op).effects = node.effects ++ new ∧
      Stepped prim ans (op.arrival prim mainDht ans node) node.state
        (perform prim mainDht ans node op).state new := by
  apply perform_cases
  case idle => exact .same _ _
  case activated =>
    exact fun _ => ⟨.activated _ _ _, fun _ _ h => absurd h List.not_mem_nil,
      .of_kept (app_activated _ _)⟩
  case published =>
    intro _ _ _ _ harrival _
    rw [harrival]
    exact publishRecordInternal_stepped _ _ _ _ _
  case confirmed => exact fun _ _ _ _ _ => confirm_stepped _ _ _ _ _ _ _
  case searched => exact fun _ _ => searchLocal_stepped _ _ _ _ _
  case listed => exact fun _ _ _ => listRecent_stepped _ _ _ _ _
  case received =>
    rintro _ _ _ _ _ rfl hdecoded
    rw [Operation.arrival, hdecoded]
    exact processRecord_stepped _ _ _ _ _
  case queried => exact fun _ _ _ _ => processQuery_stepped _ _ _ _ _ _
  case merged =>
    refine fun _ _ _ => ⟨.same _ _, fun _ effect heffect => ?_, .of_kept fun _ => rfl⟩
    obtain rfl := List.mem_singleton.mp heffect
    trivial
  case answered =>
    intro _ _ _ harrival
    rw [harrival]
    exact (ingestRecord_stepped prim ans _ node.state rfl).1
  case pruned =>
    exact ⟨.pruned _, fun _ _ h => absurd h List.not_mem_nil,
      fun _ _ e he => .inl ⟨e, ((entry_pruneState _ _ _ e).mp he).2, rfl⟩⟩

/-! ## A cache with room -/

/-- In a cache with room a record that arrives stays. -/
theorem Arrival.after_of_room (prim : Primitives Digest Score) (ans : Answers Digest) (a : Arrival)
    {s : GossipState Digest} (room : s.items.length < gossipMaxEntriesPerApp) :
    (a.after prim ans s).entry a.applicationId a.record.key = some (a.ingested prim ans s).entry ∧
      (a.after prim ans s).items.length ≤ s.items.length + 1 ∧
      (((a.found ans s).entry a.applicationId a.record.key).isSome →
        (a.after prim ans s).items.length ≤ s.items.length) := by
  have hpruned : (a.found ans s).items.length ≤ s.items.length := items_pruneState_le _
  have hsum := length_items_setApp (a.found ans s) a.applicationId
    (((a.found ans s).app a.applicationId).insert a.record.key (a.ingested prim ans s).entry)
  have hinsert := AList.length_insert_le ((a.found ans s).app a.applicationId) a.record.key
    (a.ingested prim ans s).entry
  have hbefore : (a.before prim ans s).items.length ≤ s.items.length + 1 := by
    rw [Arrival.before]
    omega
  have hfew : (a.before prim ans s).items.length ≤ gossipMaxEntriesPerApp := by omega
  obtain ⟨hentries, hitems⟩ := enforceCapacity_of_few ans.visit hfew
  refine ⟨?_, hitems.trans hbefore, fun hsome => hitems.trans ?_⟩
  · rw [Arrival.after, hentries]
    exact a.entry_before prim ans s
  obtain ⟨e, he⟩ := Option.isSome_iff_exists.mp hsome
  have hlookup : ((a.found ans s).app a.applicationId).lookup a.record.key = some e := he
  have hlength := AList.length_erase hlookup
  rw [AList.entries_insert, List.length_cons] at hsum
  have herase : ((((a.found ans s).app a.applicationId).entries.kerase a.record.key)).length =
      (((a.found ans s).app a.applicationId).erase a.record.key).entries.length := rfl
  rw [Arrival.before]
  omega

namespace Sample

/-- A record of a peer for the object of the samples. -/
def rivalRecord (generation : Nat) : GossipRecord where
  «namespace» := "n"
  objectId := "o"
  generation := generation
  originMainDht := "p"
  publishedAt := 0
  expiresAt := 86400
  authoritativePointer := none
  fingerprints := []
  indexTokens := []
  customPayload := []
  flags := 0
  withdrawn := false

/-- A frame carries the rival record whose generation it spells. -/
def primitives : Primitives GossipRecord Unit where
  isRecordKey text := text != ""
  recordDigest record := record
  deserialize bytes :=
    .ok ⟨gossipEngineVersion, .record (rivalRecord (Nat.ofDigits 256 (bytes.map UInt8.toNat))) 1⟩
  responseFits _ _ := true
  scoreEntry _ _ _ _ := ()
  belowMinimum _ _ := false
  compareHits := ⟨id, fun _ => .refl _⟩
  fullScore := ()
  noScore := ()

def answers (now : Nat) : Answers GossipRecord where
  clock _ := now
  visit := ⟨id, fun _ => .refl _⟩
  isKnownAppPeer _ _ := true

/-- A request to publish the object of the samples. -/
def request (generation ttlSeconds : Nat) : GossipPublishRequest where
  «namespace» := "n"
  objectId := "o"
  generation := generation
  authoritativePointer := none
  fingerprints := []
  indexTokens := []
  customPayload := []
  flags := 0
  ttlSeconds := ttlSeconds

/-- The frame for a rival record. -/
def frame (generation : Nat) : Bytes :=
  gossipWirePrefix ++ (Nat.digits 256 generation).map UInt8.ofNat

/-- The node after it has published the object. -/
def publishedNode : Node GossipRecord Unit :=
  perform primitives "me" (answers 0) (.new GossipRecord Unit) (.publish "app" (request 0 86400))

end Sample

end VeilKnit.Gossip
