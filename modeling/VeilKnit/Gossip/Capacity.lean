import VeilKnit.Gossip.Steps

/-!
# The size of the cache

The number of entries is bounded, for one application and for all together, and so is the number
of sources that an entry names. Only the set of contradicting digests has no limit: it is bounded
in the runs that bring few contradictions to any one entry, and in no others.
-/

namespace VeilKnit.Gossip

open Library

variable {Digest Score : Type} [DecidableEq Digest] {prim : Primitives Digest Score}
  {mainDht : String} {ans : Answers Digest} {visit : Visit Digest}
  {state s t : GossipState Digest} {bound : Nat}

/-- The cache is within its limits, with at most some contradicting digests for an entry. -/
structure Bounded (bound : Nat) (state : GossipState Digest) : Prop where
  perApp : ∀ applicationId, (state.app applicationId).entries.length ≤ gossipMaxEntriesPerApp
  global : state.items.length ≤ gossipMaxEntriesGlobal
  sources : ∀ applicationId key e, state.entry applicationId key = some e →
    e.supportingClaimedSources.card ≤ gossipMaxClaimedSources
  conflicts : ∀ applicationId key e, state.entry applicationId key = some e →
    e.conflictingDigests.card ≤ bound

/-- A record that contradicts an entry leaves it with at most some contradicting digests. -/
def FewContradictions (prim : Primitives Digest Score) (mainDht : String) (bound : Nat)
    (node : Node Digest Score) (label : Operation × Answers Digest) : Prop :=
  ∀ a, label.1.arrival prim mainDht label.2 node = some a →
    ∀ e, (a.found label.2 node.state).entry a.applicationId a.record.key = some e →
      Contradicts a.record (prim.recordDigest a.record) a.localPublish e →
        (insert (prim.recordDigest a.record) e.conflictingDigests).card ≤ bound

/-- Evictions spare local publications as long as there are other entries: by the limit of an
application, other entries of the application; by the global limit, any other entries. -/
structure SparesLocal (visit : Visit Digest) (before : GossipState Digest) : Prop where
  perApp : ∀ applicationId key e, before.entry applicationId key = some e →
    e.locallyPublished = true → (enforceApps visit before).entry applicationId key = none →
      ∀ other e', (enforceApps visit before).entry applicationId other = some e' →
        e'.locallyPublished = true
  global : ∀ applicationId key e, (enforceApps visit before).entry applicationId key = some e →
    e.locallyPublished = true → (enforceCapacity visit before).entry applicationId key = none →
      ∀ other key' e', (enforceCapacity visit before).entry other key' = some e' →
        e'.locallyPublished = true

omit [DecidableEq Digest] in
theorem sparesLocal (visit : Visit Digest) (before : GossipState Digest) :
    SparesLocal visit before := by
  constructor
  · intro applicationId key e he hlocal hgone other e' he'
    rw [GossipState.entry, enforceApps_app] at hgone he'
    exact (enforceAppCapacity_spec le_rfl).2.2.2 key e he hlocal hgone other e' he'
  · exact (enforceGlobalCapacity_spec visit items_enforceApps_le).2.2

/-- What a record leaves in the entry of its object. -/
theorem Arrival.ingested_bounded {a : Arrival} (h : Bounded bound s)
    (few : ∀ e, (a.found ans s).entry a.applicationId a.record.key = some e →
      Contradicts a.record (prim.recordDigest a.record) a.localPublish e →
        (insert (prim.recordDigest a.record) e.conflictingDigests).card ≤ bound) :
    (a.ingested prim ans s).entry.supportingClaimedSources.card ≤ gossipMaxClaimedSources ∧
      (a.ingested prim ans s).entry.conflictingDigests.card ≤ bound := by
  rcases a.ingested_cases prim ans s with hstores | ⟨e, he, hkeeps⟩
  · refine ⟨hstores.sources.trans (by decide), ?_⟩
    rw [hstores.conflicts]
    exact Nat.zero_le _
  have hold := ((entry_pruneState _ _ _ e).mp he).2
  refine ⟨hkeeps.sources.trans (max_le (h.sources _ _ e hold) le_rfl), ?_⟩
  rcases hkeeps.conflicts with hsame | ⟨hcontradicts, hinserted⟩
  · rw [hsame]
    exact h.conflicts _ _ e hold
  · rw [hinserted]
    exact few e he hcontradicts

theorem Change.bounded {arrival : Option Arrival} (h : Change prim ans arrival s t)
    (bounded : Bounded bound s) (few : ∀ a, arrival = some a → ∀ e,
      (a.found ans s).entry a.applicationId a.record.key = some e →
        Contradicts a.record (prim.recordDigest a.record) a.localPublish e →
          (insert (prim.recordDigest a.record) e.conflictingDigests).card ≤ bound) :
    Bounded bound t := by
  cases h with
  | kept apps items =>
    have hentry : ∀ applicationId key, t.entry applicationId key = s.entry applicationId key :=
      fun applicationId key => by rw [GossipState.entry, apps]; rfl
    refine ⟨fun a => ?_, items.trans_le bounded.global, fun a k e he => ?_, fun a k e he => ?_⟩
    · rw [apps]
      exact bounded.perApp a
    · exact bounded.sources a k e ((hentry a k).symm.trans he)
    · exact bounded.conflicts a k e ((hentry a k).symm.trans he)
  | pruned now =>
    refine ⟨fun a => (app_pruneState_le now a).trans (bounded.perApp a),
      (items_pruneState_le now).trans bounded.global, fun a k e he => ?_, fun a k e he => ?_⟩
    · exact bounded.sources a k e ((entry_pruneState _ _ _ e).mp he).2
    · exact bounded.conflicts a k e ((entry_pruneState _ _ _ e).mp he).2
  | @arrived a brought _ alive =>
    obtain ⟨-, hperApp, hglobal⟩ :=
      enforceCapacity_spec ans.visit (a.before prim ans s)
    obtain ⟨hsources, hconflicts⟩ := Arrival.ingested_bounded bounded (few a brought)
    refine ⟨hperApp, hglobal, fun app k e he => ?_, fun app k e he => ?_⟩
    · rcases Arrival.entry_after he with ⟨-, -, rfl⟩ | hfound
      · exact hsources
      · exact bounded.sources _ _ e ((entry_pruneState _ _ _ e).mp hfound).2
    · rcases Arrival.entry_after he with ⟨-, -, rfl⟩ | hfound
      · exact hconflicts
      · exact bounded.conflicts _ _ e ((entry_pruneState _ _ _ e).mp hfound).2
  | @confirmed app key old new hold _ sources conflicts _ =>
    have hlength : ((s.app app).insert key new).entries.length = (s.app app).entries.length := by
      rw [AList.entries_insert, List.length_cons]
      exact (AList.length_erase hold).symm
    have hkept : ∀ a k e, (s.setApp app ((s.app app).insert key new)).entry a k = some e →
        ∃ e₀, s.entry a k = some e₀ ∧ e.supportingClaimedSources = e₀.supportingClaimedSources ∧
          e.conflictingDigests = e₀.conflictingDigests := by
      intro a k e he
      rcases entry_insert he with ⟨rfl, rfl, rfl⟩ | hother
      · exact ⟨old, hold, sources, conflicts⟩
      · exact ⟨e, hother, rfl, rfl⟩
    refine ⟨fun a => ?_, ?_, fun a k e he => ?_, fun a k e he => ?_⟩
    · rw [app_setApp]
      split
      case isTrue => exact hlength.trans_le (bounded.perApp app)
      case isFalse => exact bounded.perApp a
    · have hsum := length_items_setApp s app ((s.app app).insert key new)
      have hglobal := bounded.global
      omega
    · obtain ⟨e₀, he₀, hsame, -⟩ := hkept a k e he
      rw [hsame]
      exact bounded.sources a k e₀ he₀
    · obtain ⟨e₀, he₀, -, hsame⟩ := hkept a k e he
      rw [hsame]
      exact bounded.conflicts a k e₀ he₀

namespace Sample

theorem decodeWire_frame {generation : Nat} (small : generation < 2 ^ 64) :
    decodeWire primitives (frame generation) = .ok (.record (rivalRecord generation) 1) := by
  have hprefix : isEngineFrame (frame generation) = true := by
    rw [isEngineFrame, List.isPrefixOf_iff_prefix]
    exact List.prefix_append _ _
  have hdigits : (Nat.digits 256 generation).length ≤ 8 :=
    (Nat.digits_length_le_iff (by decide) generation).mpr (small.trans_le (by decide))
  have hlength : (frame generation).length ≤ gossipWireMaxBytes := by
    have hwire : gossipWirePrefix.length = 27 := by decide +kernel
    rw [frame, List.length_append, List.length_map, hwire]
    exact (Nat.add_le_add_left hdigits 27).trans (by decide)
  have hvalue : Nat.ofDigits 256 (((Nat.digits 256 generation).map UInt8.ofNat).map UInt8.toNat) =
      generation := by
    have hmap : ((Nat.digits 256 generation).map UInt8.ofNat).map UInt8.toNat =
        Nat.digits 256 generation := by
      rw [List.map_map]
      refine (List.map_congr_left fun digit hdigit => ?_).trans (List.map_id _)
      have hsmall : digit < 256 := Nat.digits_lt_base (by decide) hdigit
      simp [Nat.mod_eq_of_lt hsmall]
    rw [hmap, Nat.ofDigits_digits]
  rw [decodeWire, if_neg (by simpa using hprefix), if_neg (not_lt.mpr hlength)]
  simp only [primitives, frame, List.drop_left, hvalue]
  rw [if_neg (not_not.mpr rfl)]

theorem validateRecord_rivalRecord (generation : Nat) :
    validateRecord primitives.isRecordKey 0 (rivalRecord generation) true = .ok () := by
  have hsame : validateRecord primitives.isRecordKey 0 (rivalRecord generation) true =
      validateRecord primitives.isRecordKey 0 (rivalRecord 0) true := rfl
  rw [hsame]
  decide +kernel

omit [DecidableEq Digest] in
theorem active_of_entry {applicationId : String} {key : GossipObjectKey}
    {e : GossipCacheEntry Digest} (h : state.entry applicationId key = some e) :
    state.isApplicationActive applicationId = true := by
  cases happ : state.apps.lookup applicationId with
  | none => simp [GossipState.entry, GossipState.app, happ] at h
  | some app => rw [GossipState.isApplicationActive, happ]; rfl

/-- What holds of the node while peers contradict its publication. -/
structure Contradicted (n : Nat) (node : Node GossipRecord Unit) : Prop where
  small : node.state.items.length ≤ 1
  entry : ∃ e, node.state.entry "app" ⟨"n", "o"⟩ = some e ∧ e.locallyPublished = true ∧
    e.record.expiresAt = 86400 ∧ e.record.generation = 0 ∧ e.conflictingDigests.card = n ∧
    ∀ r ∈ e.conflictingDigests, r.generation ≤ n

theorem contradicted_published : Contradicted 0 publishedNode := by
  refine ⟨by decide +kernel, ?_⟩
  have hany : (publishedNode.state.entry "app" ⟨"n", "o"⟩).any (fun e =>
      e.locallyPublished && e.record.expiresAt == 86400 && e.record.generation == 0 &&
        e.conflictingDigests == ∅) = true := by decide +kernel
  obtain ⟨e, he, hfacts⟩ := (Option.any_eq_true _ _).mp hany
  simp only [Bool.and_eq_true, beq_iff_eq] at hfacts
  obtain ⟨⟨⟨hlocal, hexpires⟩, hgeneration⟩, hconflicts⟩ := hfacts
  refine ⟨e, he, hlocal, hexpires, hgeneration, ?_, fun r hr => ?_⟩
  · rw [hconflicts]
    rfl
  · rw [hconflicts] at hr
    cases hr

/-- A rival record on its way into the cache. -/
def rivalArrival (generation : Nat) : Arrival :=
  ⟨"app", rivalRecord generation, "p", false, 1⟩

/-- One more contradiction. -/
theorem Contradicted.next {n : Nat} {node : Node GossipRecord Unit} (h : Contradicted n node)
    (small : n + 1 < 2 ^ 64) :
    Contradicted (n + 1) (perform primitives "me" (answers 0) node
      (.incoming "app" "p" (frame (n + 1)))) := by
  obtain ⟨e, he, hlocal, hexpires, hgeneration, hcard, hbelow⟩ := h.entry
  have hfound : ((rivalArrival (n + 1)).found (answers 0) node.state).entry "app" ⟨"n", "o"⟩ =
      some e := by
    refine (entry_pruneState _ _ _ e).mpr ⟨?_, he⟩
    rw [hexpires]
    exact (by decide : 0 < 86400)
  have hdiffers : rivalRecord (n + 1) ≠ e.digest ∨
      (rivalRecord (n + 1)).generation ≠ e.record.generation := by
    rw [hgeneration]
    exact .inr (Nat.succ_ne_zero n)
  have hingested : ((rivalArrival (n + 1)).ingested primitives (answers 0) node.state).entry =
      { e with
        lastSeenAt := 0
        conflictingDigests := insert (rivalRecord (n + 1)) e.conflictingDigests } := by
    have hcase : (rivalArrival (n + 1)).ingested primitives (answers 0) node.state =
        ingestEntry 0 "app" (rivalRecord (n + 1)) (rivalRecord (n + 1)) "p" false (some e) :=
      congrArg _ hfound
    rw [hcase]
    unfold ingestEntry
    dsimp only
    rw [if_pos ⟨hlocal, Bool.false_ne_true⟩]
    exact congrArg Ingested.entry (if_pos hdiffers)
  have hroom : node.state.items.length < gossipMaxEntriesPerApp := h.small.trans_lt (by decide)
  obtain ⟨hentry, -, hitems⟩ :=
    (rivalArrival (n + 1)).after_of_room primitives (answers 0) hroom
  have hstate : (perform primitives "me" (answers 0) node
      (.incoming "app" "p" (frame (n + 1)))).state =
        (rivalArrival (n + 1)).after primitives (answers 0) node.state := by
    have happ : validateApplicationId "app" = .ok () := by decide +kernel
    have hvalid := validateRecord_rivalRecord (n + 1)
    have halive : (rivalArrival (n + 1)).now (answers 0) <
        (rivalArrival (n + 1)).record.expiresAt := by
      have hexpiry : (rivalArrival (n + 1)).record.expiresAt = 86400 := rfl
      rw [hexpiry]
      exact (by decide : 0 < 86400)
    have hafter := state_ingestRecord primitives (answers 0) (a := rivalArrival (n + 1)) hvalid
      halive node.state
    rw [perform, processIncoming, happ]
    rw [if_neg (by simp [active_of_entry he]), decodeWire_frame small]
    exact (state_processRecord primitives (answers 0) hvalid 1 node.state).trans hafter
  have hnew : rivalRecord (n + 1) ∉ e.conflictingDigests :=
    fun hmem => absurd (hbelow _ hmem) (Nat.not_succ_le_self n)
  refine ⟨?_, ?_⟩
  · rw [hstate]
    exact (hitems (Option.isSome_of_eq_some hfound)).trans h.small
  rw [hstate]
  refine ⟨_, hentry.trans (congrArg some hingested), hlocal, hexpires, hgeneration, ?_, fun r hr => ?_⟩
  · exact (Finset.card_insert_of_notMem hnew).trans (congrArg Nat.succ hcard)
  · rcases Finset.mem_insert.mp hr with rfl | hold
    · exact le_rfl
    · exact (hbelow r hold).trans (Nat.le_succ n)

theorem contradicted_reached {n : Nat} (small : n < 2 ^ 64) :
    ∃ node, (gossipSystem primitives "me").Reachable node ∧ Contradicted n node := by
  induction n with
  | zero =>
    have hstart : (gossipSystem primitives "me").Reachable (.new GossipRecord Unit) := .start rfl
    exact ⟨publishedNode, hstart.next (.publish "app" (request 0 86400), answers 0) rfl,
      contradicted_published⟩
  | succ n ih =>
    obtain ⟨node, hreached, hnode⟩ := ih (Nat.lt_of_succ_lt small)
    exact ⟨_, hreached.next (.incoming "app" "p" (frame (n + 1)), answers 0) rfl, hnode.next small⟩

end Sample

end VeilKnit.Gossip
