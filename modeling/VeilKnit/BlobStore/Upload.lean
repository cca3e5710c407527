import VeilKnit.BlobStore.StoredChunks

/-!
# Uploads

What an upload's records hold after its appends: the chunks of all pieces, in order, each in
the first segment with room. Appends go through as long as an application's records and a
blob's segments last.
-/

namespace VeilKnit.BlobStore

open Library

variable {keys : RecordKeys}

/-! ## What an upload has stored -/

/-- How many chunks fit beside a number of other records of the application. -/
def capacity (others : Nat) : Nat :=
  63 * min blobMaxSegments (maxInternalAppStoresPerApp - others)

/-- The storage holds what has been uploaded, segment by segment. -/
structure UploadHolds (keys : RecordKeys) (app : Bytes) (others : Nat) (s : BlobStoreManager)
    (state : UploadState) (contents : List (List Bytes)) : Prop where
  owner : state.applicationId = app
  unfinished : state.finalized = false
  segments : List.Forall₂ (SegmentHolds keys s.storage) state.segments contents
  distinct : (state.segments.map (·.storeId)).Nodup
  nonempty : state.segments ≠ []
  allFull : ∀ chunks ∈ contents.dropLast, chunks.length = 63
  few : state.segments.length ≤ blobMaxSegments
  stores : s.storage.stores.length = others + state.segments.length
  room : s.storage.stores.length ≤ maxInternalAppStoresPerApp
  committed : state.committedBytes.toNat = contents.flatten.flatten.length
  small : ∀ chunk ∈ contents.flatten, chunk ≠ [] ∧ chunk.length ≤ blobChunkBytes
  blobId : state.blobId.length = 32
  contentType : state.contentType.length ≤ blobMaxContentTypeBytes

/-- The last of two lists that correspond. -/
theorem forall₂_concat_left {α β : Type} {R : α → β → Prop} {as : List α} {a : α} {bs : List β}
    (h : List.Forall₂ R (as ++ [a]) bs) :
    ∃ bs' b, bs = bs' ++ [b] ∧ List.Forall₂ R as bs' ∧ R a b := by
  induction as generalizing bs with
  | nil =>
    cases h with
    | cons hab hnil =>
      cases hnil
      exact ⟨[], _, rfl, .nil, hab⟩
  | cons a' as ih =>
    cases h with
    | cons hab htail =>
      obtain ⟨bs', b, rfl, hbs, hb⟩ := ih htail
      exact ⟨_ :: bs', b, rfl, .cons hab hbs, hb⟩

theorem forall₂_concat {α β : Type} {R : α → β → Prop} {as : List α} {a : α} {bs : List β}
    {b : β} (h : List.Forall₂ R as bs) (hab : R a b) :
    List.Forall₂ R (as ++ [a]) (bs ++ [b]) := by
  induction h with
  | nil => exact .cons hab .nil
  | cons hhead _ ih => exact .cons hhead ih

namespace UploadHolds

variable {app : Bytes} {others : Nat} {s : BlobStoreManager} {state : UploadState}
  {contents : List (List Bytes)}

/-- The last segment, and what it holds. -/
theorem last (h : UploadHolds keys app others s state contents) :
    ∃ before segment earlier chunks, state.segments = before ++ [segment] ∧
      contents = earlier ++ [chunks] ∧
      List.Forall₂ (SegmentHolds keys s.storage) before earlier ∧
      SegmentHolds keys s.storage segment chunks ∧
      ∀ full ∈ earlier, full.length = 63 := by
  rcases List.eq_nil_or_concat state.segments with hnil | ⟨before, segment, hsegments⟩
  · exact absurd hnil h.nonempty
  rw [List.concat_eq_append] at hsegments
  have hall := h.segments
  rw [hsegments] at hall
  obtain ⟨earlier, chunks, hcontents, hbefore, hsegment⟩ := forall₂_concat_left hall
  refine ⟨before, segment, earlier, chunks, hsegments, hcontents, hbefore, hsegment, ?_⟩
  have hfull := h.allFull
  rwa [hcontents, List.dropLast_concat] at hfull

/-- Full segments count their chunks. -/
theorem length_flatten_full {earlier : List (List Bytes)}
    (h : ∀ full ∈ earlier, full.length = 63) : earlier.flatten.length = 63 * earlier.length := by
  induction earlier with
  | nil => rfl
  | cons chunks earlier ih =>
    rw [List.flatten_cons, List.length_append, h chunks List.mem_cons_self,
      ih fun full hfull => h full (List.mem_cons_of_mem _ hfull), List.length_cons]
    omega

/-- No more chunks are stored than fit. -/
theorem le_capacity (h : UploadHolds keys app others s state contents) :
    contents.flatten.length ≤ capacity others := by
  obtain ⟨before, segment, earlier, chunks, hsegments, hcontents, hbefore, hsegment, hfull⟩ :=
    h.last
  have hlength := hbefore.length_eq
  have hflatten := length_flatten_full hfull
  have hchunks := hsegment.full
  have hfew := h.few
  have hstores := h.stores
  have hroom := h.room
  rw [hsegments, List.length_append, List.length_singleton] at hfew hstores
  rw [hcontents, List.flatten_append, List.length_append, List.flatten_singleton, hflatten]
  unfold capacity
  unfold blobMaxSegments at *
  unfold maxInternalAppStoresPerApp at *
  omega

end UploadHolds

/-- The number of bytes of chunks. -/
theorem length_flatten_chunks {chunks : List Bytes}
    (h : ∀ chunk ∈ chunks, chunk ≠ [] ∧ chunk.length ≤ blobChunkBytes) :
    chunks.flatten.length ≤ blobChunkBytes * chunks.length := by
  induction chunks with
  | nil => rfl
  | cons chunk chunks ih =>
    have hchunk := (h chunk List.mem_cons_self).2
    have hrest := ih fun chunk hmem => h chunk (List.mem_cons_of_mem _ hmem)
    rw [List.flatten_cons, List.length_append, List.length_cons, Nat.mul_succ]
    omega

/-! ## Steps of an append -/

section Steps

variable {app : Bytes} {others : Nat} {s : BlobStoreManager} {state : UploadState}
  {contents : List (List Bytes)}

theorem writeHeader_run (store : Nat) (header : SegmentHeader)
    (hstore : store < s.storage.stores.length) (hid : header.blobId.length = 32)
    (hnext : ∀ key ∈ header.nextRecordKey, key.length ≤ 1024)
    (htype : ∀ text ∈ header.contentType, text.length ≤ 128) :
    writeHeader store header s =
      (.ok (), { s with
        storage := s.storage.put store 0 (SegmentHeader.codec.encode header) }) := by
  have hlength := encode_header_length hid hnext htype
  have hwrite : writeHeader store header = writeOwn store 0 (SegmentHeader.codec.encode header) :=
    if_neg (Nat.not_lt.mpr hlength)
  rw [hwrite]
  exact writeOwn_run hstore (by decide) (hlength.trans (by decide))

theorem UploadHolds.put_header (h : UploadHolds keys app others s state contents) (store : Nat)
    (value : Bytes) :
    UploadHolds keys app others { s with storage := s.storage.put store 0 value } state
      contents where
  owner := h.owner
  unfinished := h.unfinished
  segments := h.segments.imp fun _ _ hsegment => hsegment.put_header store value
  distinct := h.distinct
  nonempty := h.nonempty
  allFull := h.allFull
  few := h.few
  stores := (AppStorage.length_put _ _ _ _).trans h.stores
  room := (AppStorage.length_put _ _ _ _).le.trans h.room
  committed := h.committed
  small := h.small
  blobId := h.blobId
  contentType := h.contentType

variable {blobId contentType chunk : Bytes}

/-- A new segment has a record of its own. -/
theorem createSegment_run (index : UInt32)
    (createdAt : UInt64) (hroom : s.storage.stores.length < maxInternalAppStoresPerApp)
    (hid : blobId.length = 32) (htype : contentType.length ≤ blobMaxContentTypeBytes) :
    ∃ value, createSegment blobId index contentType createdAt s =
      (.ok s.storage.stores.length, { s with
        storage := AppStorage.put { stores := s.storage.stores ++ [fun _ => none] }
          s.storage.stores.length 0 value }) := by
  let created : BlobStoreManager :=
    { s with storage := { stores := s.storage.stores ++ [fun _ => none] } }
  have hcreate : createInternalStore s = (.ok s.storage.stores.length, created) := by
    rw [createInternalStore, AppStorage.createInternalStore, if_neg (Nat.not_le.mpr hroom)]
  have hstore : s.storage.stores.length < created.storage.stores.length := by
    simp [created]
  have htexts : ∀ text ∈ (SegmentHeader.empty blobId index contentType createdAt).contentType,
      text.length ≤ 128 := by
    intro text htext
    unfold SegmentHeader.empty at htext
    dsimp only at htext
    split at htext
    · cases htext
      exact htype
    · cases htext
  have hheader := writeHeader_run (s := created) _ (.empty blobId index contentType createdAt)
    hstore hid (by simp [SegmentHeader.empty]) htexts
  refine ⟨SegmentHeader.codec.encode (.empty blobId index contentType createdAt),
    (Fallible.bind_ok hcreate).trans ((Fallible.bind_ok hheader).trans ?_)⟩
  rfl

theorem createSegment_full (index : UInt32)
    (createdAt : UInt64) (hfull : maxInternalAppStoresPerApp ≤ s.storage.stores.length) :
    createSegment blobId index contentType createdAt s = (.error (.storage .tooManyStores), s) := by
  refine Fallible.bind_error ?_
  rw [createInternalStore, AppStorage.createInternalStore, if_pos hfull]

/-- The texts of a header are of the usual lengths. -/
theorem makeHeader_texts (hid : state.blobId.length = 32)
    (htype : state.contentType.length ≤ blobMaxContentTypeBytes) (index : Nat)
    (segment : UploadSegment) (next : Option Bytes) (finalData : Option (Hash32 × UInt64)) :
    (state.makeHeader index segment next finalData).blobId.length = 32 ∧
      ∀ text ∈ (state.makeHeader index segment next finalData).contentType, text.length ≤ 128 := by
  refine ⟨hid, fun text htext => ?_⟩
  unfold UploadState.makeHeader at htext
  dsimp only at htext
  split at htext
  · cases htext
    exact htype
  · cases htext

/-- The upload with a further, empty segment. -/
theorem UploadHolds.new_segment (h : UploadHolds keys app others s state contents)
    (hfull : ∀ chunks ∈ contents, chunks.length = 63)
    (hfew : state.segments.length < blobMaxSegments)
    (hroom : s.storage.stores.length < maxInternalAppStoresPerApp) :
    UploadHolds keys app others
      { s with storage := { stores := s.storage.stores ++ [fun _ => none] } }
      { state with segments := state.segments ++ [
        { storeId := s.storage.stores.length, recordKey := keys.text s.storage.stores.length,
          chunkCount := 0, payloadBytes := 0 }] }
      (contents ++ [[]]) where
  owner := h.owner
  unfinished := h.unfinished
  segments := by
    refine forall₂_concat (h.segments.imp fun _ _ hsegment => hsegment.append_store _) ?_
    refine ⟨rfl, rfl, Nat.zero_le _, fun _ => none, ?_, fun i chunk hchunk => ?_⟩
    · simp
    · simp at hchunk
  distinct := by
    rw [List.map_append, List.nodup_append]
    refine ⟨h.distinct, List.nodup_singleton _, ?_⟩
    -- Every older segment has a record of a smaller number.
    intro store hstore new hnew
    obtain ⟨segment, hsegment, rfl⟩ := List.mem_map.mp hstore
    obtain ⟨i, hi⟩ := List.getElem?_of_mem hsegment
    have hlt := (List.getElem?_eq_some_iff.mp hi).1
    have hholds := List.forall₂_iff_get.mp h.segments
    have hholds := hholds.2 i hlt (hholds.1 ▸ hlt)
    have hget : state.segments.get ⟨i, hlt⟩ = segment := (List.getElem?_eq_some_iff.mp hi).2
    rw [hget] at hholds
    have hnew := List.mem_singleton.mp hnew
    have hstore := hholds.store_lt
    dsimp only at hnew
    omega
  nonempty := by simp
  allFull := by
    rw [List.dropLast_concat]
    exact hfull
  few := by
    rw [List.length_append, List.length_singleton]
    exact hfew
  stores := by
    have hstores := h.stores
    rw [List.length_append, List.length_append, List.length_singleton, List.length_singleton]
    omega
  room := by
    rw [List.length_append, List.length_singleton]
    exact hroom
  committed := by
    rw [List.flatten_append, List.flatten_singleton, List.append_nil]
    exact h.committed
  small := by
    rw [List.flatten_append, List.flatten_singleton, List.append_nil]
    exact h.small
  blobId := h.blobId
  contentType := h.contentType

/-- An upload whose segments are full either gets another, or cannot hold more. -/
theorem triple_addSegment (hfull : ∀ chunks ∈ contents, chunks.length = 63) :
    Fallible.Triple (fun s => UploadHolds keys app others s state contents) (state.addSegment keys)
      (fun state' s' => UploadHolds keys app others s' state' (contents ++ [[]]))
      (fun _ _ => capacity others ≤ contents.flatten.length) := by
  intro s h
  have hcount : contents.flatten.length = 63 * state.segments.length := by
    rw [UploadHolds.length_flatten_full hfull, h.segments.length_eq]
  have hstores := h.stores
  by_cases hmany : blobMaxSegments ≤ state.segments.length
  · have hrun : state.addSegment keys s = (.error .tooManySegments, s) := by
      rw [UploadState.addSegment, if_pos hmany]
      rfl
    rw [hrun]
    unfold capacity
    omega
  have hunfold : state.addSegment keys = createSegment state.blobId
      (UInt32.ofNat state.segments.length) state.contentType state.createdAt >>= _ :=
    if_neg hmany
  rw [hunfold]
  by_cases hroom : maxInternalAppStoresPerApp ≤ s.storage.stores.length
  · rw [Fallible.bind_error (createSegment_full _ _ hroom)]
    unfold capacity
    omega
  have hroom := Nat.lt_of_not_le hroom
  obtain ⟨before, previous, _, _, hsegments, _, _, hprevious, _⟩ := h.last
  obtain ⟨value, hcreate⟩ := createSegment_run (UInt32.ofNat state.segments.length)
    state.createdAt hroom h.blobId h.contentType
  rw [Fallible.bind_ok hcreate]
  have hlast : state.segments.getLast? = some previous := by simp [hsegments]
  rw [hlast]
  dsimp only
  obtain ⟨hid, htype⟩ := makeHeader_texts h.blobId h.contentType (state.segments.length - 1)
    previous (some (keys.text s.storage.stores.length)) none
  have hstored := (h.new_segment hfull (Nat.lt_of_not_le hmany) hroom).put_header
    s.storage.stores.length value
  have hstore := ((hprevious.append_store fun _ => none).put_header
    s.storage.stores.length value).store_lt
  have hheader := writeHeader_run (s := { s with
    storage := AppStorage.put { stores := s.storage.stores ++ [fun _ => none] }
      s.storage.stores.length 0 value }) previous.storeId
    (state.makeHeader (state.segments.length - 1) previous
      (some (keys.text s.storage.stores.length)) none) hstore hid
    (by rintro key ⟨⟩; exact keys.text_length _ hroom) htype
  rw [Fallible.bind_ok hheader]
  exact hstored.put_header previous.storeId _

variable {earlier : List (List Bytes)} {chunks : List Bytes}

/-- The upload with a further chunk in its last segment. -/
theorem UploadHolds.put_chunk {before : List UploadSegment} {segment : UploadSegment}
    (h : UploadHolds keys app others s state (earlier ++ [chunks]))
    (hsegments : state.segments = before ++ [segment])
    (hbefore : List.Forall₂ (SegmentHolds keys s.storage) before earlier)
    (hsegment : SegmentHolds keys s.storage segment chunks)
    (hroom : chunks.length < 63) (hne : chunk ≠ []) (hshort : chunk.length ≤ blobChunkBytes) :
    UploadHolds keys app others
      { s with storage := s.storage.put segment.storeId (segment.chunkCount + 1) chunk }
      { state with
        segments := before ++ [{ segment with
          chunkCount := segment.chunkCount + 1
          payloadBytes := segment.payloadBytes + UInt64.ofNat chunk.length }]
        committedBytes := state.committedBytes + UInt64.ofNat chunk.length }
      (earlier ++ [chunks ++ [chunk]]) where
  owner := h.owner
  unfinished := h.unfinished
  segments := by
    have hdistinct := h.distinct
    rw [hsegments, List.map_append, List.nodup_append] at hdistinct
    refine forall₂_concat ?_ (hsegment.put_chunk hroom chunk _)
    have hothers : ∀ other ∈ before, segment.storeId ≠ other.storeId := fun other hother heq =>
      hdistinct.2.2 _ (List.mem_map_of_mem hother) _ (List.mem_singleton.mpr rfl) heq.symm
    clear hsegments hdistinct h
    induction hbefore with
    | nil => exact .nil
    | cons hhead _ ih =>
      refine .cons (hhead.put_other (hothers _ List.mem_cons_self) _ _) (ih fun other hmem => ?_)
      exact hothers other (List.mem_cons_of_mem _ hmem)
  distinct := by
    have hdistinct := h.distinct
    rw [hsegments, List.map_append] at hdistinct
    rw [List.map_append]
    exact hdistinct
  nonempty := by simp
  allFull := by
    have hfull := h.allFull
    rw [List.dropLast_concat] at hfull ⊢
    exact hfull
  few := by
    have hfew := h.few
    rw [hsegments, List.length_append] at hfew
    rw [List.length_append]
    exact hfew
  stores := by
    have hstores := h.stores
    rw [hsegments, List.length_append] at hstores
    rw [List.length_append]
    exact (AppStorage.length_put _ _ _ _).trans hstores
  room := (AppStorage.length_put _ _ _ _).le.trans h.room
  committed := by
    have hcommitted := h.committed
    have hbytes := length_flatten_chunks h.small
    have hcapacity := h.le_capacity
    have hsmall : chunk.length ≤ 12288 := hshort
    have hall : (earlier ++ [chunks]).flatten.flatten.length ≤ 12288 * (63 * 256) := by
      refine hbytes.trans (Nat.mul_le_mul_left _ (hcapacity.trans ?_))
      exact Nat.mul_le_mul_left _ (Nat.min_le_left _ _)
    have hflatten : (earlier ++ [chunks ++ [chunk]]).flatten.flatten =
        (earlier ++ [chunks]).flatten.flatten ++ chunk := by simp
    rw [hflatten, List.length_append, ← hcommitted]
    rw [← hcommitted] at hall
    rw [UInt64.toNat_add, UInt64.toNat_ofNat']
    omega
  small := by
    intro c hc
    have hflatten : (earlier ++ [chunks ++ [chunk]]).flatten =
        (earlier ++ [chunks]).flatten ++ [chunk] := by simp
    rw [hflatten] at hc
    rcases List.mem_append.mp hc with hc | hc
    · exact h.small c hc
    · rw [List.mem_singleton.mp hc]
      exact ⟨hne, hshort⟩
  blobId := h.blobId
  contentType := h.contentType

/-- A chunk in a segment that has room. -/
theorem triple_storeChunk
    (hroom : chunks.length < 63) (hne : chunk ≠ []) (hshort : chunk.length ≤ blobChunkBytes) :
    Fallible.Triple (fun s => UploadHolds keys app others s state (earlier ++ [chunks]))
      (state.storeChunk chunk)
      (fun state' s' => UploadHolds keys app others s' state' (earlier ++ [chunks ++ [chunk]]))
      (fun _ _ => False) := by
  intro s h
  obtain ⟨before, segment, earlier', chunks', hsegments, hcontents, hbefore, hsegment, _⟩ := h.last
  obtain ⟨rfl, hchunks⟩ := List.append_inj' hcontents rfl
  obtain rfl : chunks = chunks' := (List.cons.inj hchunks).1
  have hstored := h.put_chunk hsegments hbefore hsegment hroom hne hshort
  have hlocation : segment.chunkCount + 1 < blobSegmentSubkeys := by
    have hcount := hsegment.count
    rw [UInt32.lt_iff_toNat_lt, UInt32.toNat_add, hcount]
    change (chunks.length + 1) % 2 ^ 32 < 64
    omega
  have hlast : state.segments.getLast? = some segment := by simp [hsegments]
  have hdropLast : state.segments.dropLast = before := by simp [hsegments]
  have hwrite := writeOwn_run hsegment.store_lt hlocation (hshort.trans (by decide))
  unfold UploadState.storeChunk
  rw [hlast]
  dsimp only
  rw [Fallible.bind_ok hwrite, hdropLast]
  obtain ⟨hid, htype⟩ := makeHeader_texts hstored.blobId hstored.contentType
    ((before ++ [{ segment with
      chunkCount := segment.chunkCount + 1
      payloadBytes := segment.payloadBytes + UInt64.ofNat chunk.length }]).length - 1)
    { segment with
      chunkCount := segment.chunkCount + 1
      payloadBytes := segment.payloadBytes + UInt64.ofNat chunk.length } none none
  have hheader := writeHeader_run (s := { s with
    storage := s.storage.put segment.storeId (segment.chunkCount + 1) chunk }) segment.storeId _
    ((AppStorage.length_put _ _ _ _).symm ▸ hsegment.store_lt) hid (by rintro key ⟨⟩) htype
  rw [Fallible.bind_ok hheader]
  exact hstored.put_header segment.storeId _

/-- A chunk goes into the last segment or into a new one. -/
theorem triple_appendChunk (hne : chunk ≠ []) (hshort : chunk.length ≤ blobChunkBytes) :
    Fallible.Triple (fun s => UploadHolds keys app others s state contents)
      (state.appendChunk keys chunk)
      (fun state' s' => ∃ contents', contents'.flatten = contents.flatten ++ [chunk] ∧
        UploadHolds keys app others s' state' contents')
      (fun _ _ => capacity others ≤ contents.flatten.length) := by
  intro s h
  obtain ⟨before, segment, earlier, chunks, hsegments, hcontents, _, hsegment, hfull⟩ := h.last
  have hlast : state.segments.getLast? = some segment := by simp [hsegments]
  have hcount := hsegment.count
  by_cases hroom : blobDataSubkeysPerSegment ≤ segment.chunkCount
  · have hall : ∀ full ∈ contents, full.length = 63 := by
      intro full hmem
      have hle := UInt32.le_iff_toNat_le.mp hroom
      have hmax := hsegment.full
      change 63 ≤ _ at hle
      rw [hcontents] at hmem
      rcases List.mem_append.mp hmem with hmem | hmem
      · exact hfull full hmem
      · rw [List.mem_singleton.mp hmem]
        omega
    have hunfold : state.appendChunk keys chunk =
        (state.addSegment keys >>= fun state => state.storeChunk chunk) := by
      unfold UploadState.appendChunk
      rw [hlast, Option.map_some, Option.getD_some, if_pos hroom]
    rw [hunfold]
    refine Fallible.triple_bind (triple_addSegment hall) (fun state' => ?_) s h
    have hstore : Fallible.Triple (fun s => UploadHolds keys app others s state' (contents ++ [[]]))
        (state'.storeChunk chunk) (fun state'' s'' =>
          UploadHolds keys app others s'' state'' (contents ++ [[] ++ [chunk]]))
        (fun _ _ => False) := triple_storeChunk (by simp) hne hshort
    refine hstore.weaken (fun _ hw => hw) (fun state'' s'' hs'' => ?_)
      (fun _ _ hfalse => hfalse.elim)
    exact ⟨contents ++ [[] ++ [chunk]], by simp, hs''⟩
  have hlt : chunks.length < 63 := by
    have hlt := UInt32.lt_iff_toNat_lt.mp (UInt32.not_le.mp hroom)
    rw [hcount] at hlt
    exact hlt
  have hunfold : state.appendChunk keys chunk = state.storeChunk chunk := by
    unfold UploadState.appendChunk
    rw [hlast, Option.map_some, Option.getD_some, if_neg hroom]
    rfl
  rw [hunfold]
  subst hcontents
  refine (triple_storeChunk hlt hne hshort).weaken (fun _ hw => hw) (fun state' s' hs' => ?_)
    (fun _ _ hfalse => hfalse.elim) s h
  exact ⟨earlier ++ [chunks ++ [chunk]], by simp, hs'⟩

end Steps

end VeilKnit.BlobStore
