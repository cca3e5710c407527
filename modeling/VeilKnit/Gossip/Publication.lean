import VeilKnit.Gossip.Steps

/-!
# Publishing an object again

A publication that succeeds need not have published anything. Local publications go through the
branches made for records of peers, and where the cache already has an entry of the same or a
higher generation, the entry stays and the application is told that all is well.
-/

namespace VeilKnit.Gossip

open Library

variable {Digest Score : Type} [DecidableEq Digest] {prim : Primitives Digest Score}
  {mainDht : String} {ans : Answers Digest} {state : GossipState Digest}

/-- The cache has the record as a local publication, and the record was offered to peers. -/
structure Published (applicationId : String) (record : GossipRecord)
    (outcome : Outcome Digest Score (GossipSearchHit Score)) : Prop where
  entry : ∃ e, outcome.state.entry applicationId record.key = some e ∧ e.record = record ∧
    e.locallyPublished = true ∧ e.verification = .localPublished
  offered : ∃ hops, Effect.fanoutRecord applicationId record none hops ∈ outcome.effects

variable {hit : GossipSearchHit Score}
  {applicationId : String} {record : GossipRecord} {allowReserved : Bool} {reading : Nat}

/-- What an operation that publishes a record succeeds with. -/
theorem publishRecordInternal_of_ok
    (h : (publishRecordInternal prim mainDht ans applicationId record allowReserved reading
      state).result = .ok hit) {a : Arrival}
    (ha : a = ⟨applicationId, record, mainDht, true, reading + 1⟩) :
    (a.after prim ans state).entry applicationId record.key =
        some (a.ingested prim ans state).entry ∧
      publishRecordInternal prim mainDht ans applicationId record allowReserved reading state =
        ⟨.ok hit, a.after prim ans state, (a.ingested prim ans state).event.toList.map .event ++
          (if (a.ingested prim ans state).forwardable then
            [.fanoutRecord applicationId record none gossipMaxRelayHops] else []) ++
          [.shown applicationId hit]⟩ := by
  subst ha
  unfold publishRecordInternal at h ⊢
  cases hvalid : validateRecord prim.isRecordKey (ans.clock reading) record allowReserved with
  | error e =>
    rw [hvalid] at h
    cases h
  | ok _ =>
    rw [hvalid] at h
    dsimp only at h ⊢
    rcases ingestRecord_cases prim ans ⟨applicationId, record, mainDht, true, reading + 1⟩ state
      with ⟨e, hrejected⟩ | ⟨-, ⟨-, hevicted⟩ | ⟨hentry, hok⟩⟩
    · rw [hrejected] at h
      cases h
    · rw [hevicted] at h
      cases h
    · rw [hok] at h ⊢
      cases h
      exact ⟨hentry, rfl⟩

/-- A publication that succeeds has published its record exactly if the cache held no entry of
the object or one of a lower generation. -/
theorem published_iff
    (h : (publishRecordInternal prim mainDht ans applicationId record allowReserved reading
      state).result = .ok hit) :
    Published applicationId record
        (publishRecordInternal prim mainDht ans applicationId record allowReserved reading state) ↔
      ∀ e, state.entry applicationId record.key = some e →
        ans.clock (reading + 2) < e.record.expiresAt → e.record.generation < record.generation := by
  obtain ⟨a, ha⟩ : ∃ a : Arrival, a = ⟨applicationId, record, mainDht, true, reading + 1⟩ :=
    ⟨_, rfl⟩
  obtain ⟨hentry, houtcome⟩ := publishRecordInternal_of_ok h ha
  have hfound : ∀ e, (a.found ans state).entry applicationId record.key = some e ↔
      ans.clock (reading + 2) < e.record.expiresAt ∧
        state.entry applicationId record.key = some e := by
    intro e
    rw [ha]
    exact entry_pruneState _ _ _ e
  subst ha
  have hcases := Arrival.ingested_cases prim ans
    ⟨applicationId, record, mainDht, true, reading + 1⟩ state
  rw [houtcome]
  constructor
  · intro hpublished e he halive
    rcases hcases with hstores | ⟨e', he', hkeeps⟩
    · exact hstores.newer e ((hfound e).mpr ⟨halive, he⟩)
    · -- An entry that stays is not passed on.
      obtain ⟨hops, hoffered⟩ := hpublished.offered
      simp [hkeeps.forwardable] at hoffered
  intro hlower
  rcases hcases with hstores | ⟨e, he, hkeeps⟩
  · refine ⟨⟨_, hentry, hstores.stored, hstores.isLocal, hstores.verification⟩,
      gossipMaxRelayHops, ?_⟩
    rw [hstores.forwardable]
    simp
  · obtain ⟨halive, hstate⟩ := (hfound e).mp he
    exact absurd (hlower e hstate halive) (not_lt.mpr (hkeeps.notNewer rfl))

/-- A publish request that returns Ok has published its record exactly if the cache held no
entry of the object, or one whose generation is lower than the request's. -/
theorem publish_published_iff {applicationId : String} {request : GossipPublishRequest}
    {hit : GossipSearchHit Score}
    (h : (publish prim mainDht ans applicationId request state).result = .ok hit) :
    Published applicationId (publishedRecord mainDht (ans.clock 0) request)
        (publish prim mainDht ans applicationId request state) ↔
      ∀ e, state.entry applicationId ⟨request.namespace, request.objectId⟩ = some e →
        ans.clock 3 < e.record.expiresAt → e.record.generation < request.generation := by
  unfold publish at h ⊢
  cases hvalid : validateRequest applicationId request with
  | error e =>
    rw [hvalid] at h
    cases h
  | ok _ =>
    rw [hvalid] at h
    exact published_iff h

namespace Sample

/-- The first publication of an object is published. -/
theorem publish_published_first :
    ∃ hit, (publish primitives "me" (answers 0) "app" (request 0 86400)
        (.empty GossipRecord)).result = .ok hit ∧
      Published "app" (publishedRecord "me" 0 (request 0 86400))
        (publish primitives "me" (answers 0) "app" (request 0 86400) (.empty GossipRecord)) := by
  have hok : (publish primitives "me" (answers 0) "app" (request 0 86400)
      (.empty GossipRecord)).result.isOk = true := by decide +kernel
  cases hresult : (publish primitives "me" (answers 0) "app" (request 0 86400)
      (.empty GossipRecord)).result with
  | error e => simp [hresult, Except.isOk, Except.toBool] at hok
  | ok hit =>
    refine ⟨hit, rfl, (publish_published_iff hresult).mpr fun e he => ?_⟩
    cases he

/-- The same request a second later returns Ok and leaves the old entry, in conflict. -/
theorem republish_keeps_old_entry : (gossipSystem primitives "me").Reachable publishedNode ∧
      (∃ hit, (publish primitives "me" (answers 1) "app" (request 0 86400)
        publishedNode.state).result = .ok hit) ∧
      ¬ Published "app" (publishedRecord "me" 1 (request 0 86400))
        (publish primitives "me" (answers 1) "app" (request 0 86400) publishedNode.state) := by
  have hstart : (gossipSystem primitives "me").Reachable (.new GossipRecord Unit) := .start rfl
  refine ⟨hstart.next (.publish "app" (request 0 86400), answers 0) rfl, ?_, fun hpublished => ?_⟩
  · have hok : (publish primitives "me" (answers 1) "app" (request 0 86400)
        publishedNode.state).result.isOk = true := by decide +kernel
    cases hresult : (publish primitives "me" (answers 1) "app" (request 0 86400)
        publishedNode.state).result with
    | error e => simp [hresult, Except.isOk, Except.toBool] at hok
    | ok hit => exact ⟨hit, rfl⟩
  have hold : ((publish primitives "me" (answers 1) "app" (request 0 86400)
      publishedNode.state).state.entry "app" ⟨"n", "o"⟩).any
        (fun e => e.record.publishedAt == 0 && e.verification == .conflicting) = true := by
    decide +kernel
  obtain ⟨e, he, hrecord, -⟩ := hpublished.entry
  have hentry : (publish primitives "me" (answers 1) "app" (request 0 86400)
      publishedNode.state).state.entry "app" ⟨"n", "o"⟩ = some e := he
  rw [hentry, Option.any_some, hrecord] at hold
  simp [publishedRecord] at hold

end Sample

end VeilKnit.Gossip
