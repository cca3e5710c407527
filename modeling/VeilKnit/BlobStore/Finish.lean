import VeilKnit.BlobStore.Appends

/-!
# Finishing an upload

The owner reads all chunks back to hash them, which fails on a chunk that reads as an empty
subkey, and then writes the final headers. The records now hold a chain: each header names the
record of the next segment, and the first one says what the whole blob is.
-/

namespace VeilKnit.BlobStore

open Library

variable {keys : RecordKeys} {storage : AppStorage}

/-! ## Reading chunks -/

/-- The error of chunks of which one reads as an empty subkey, or the chunks. -/
def readChunks (chunks : List Bytes) : Except BlobStoreError (List Bytes) :=
  if ∃ chunk ∈ chunks, ReadsAsNull chunk then .error nullChunkError else .ok chunks

theorem readChunks_cons (chunk : Bytes) (chunks : List Bytes) : readChunks (chunk :: chunks) =
      ((if ReadsAsNull chunk then .error nullChunkError else .ok chunk) >>= fun chunk =>
        readChunks chunks >>= fun chunks => .ok (chunk :: chunks)) := by
  unfold readChunks
  by_cases hnull : ReadsAsNull chunk
  · simp [hnull, bind, Except.bind]
  · by_cases hrest : ∃ chunk ∈ chunks, ReadsAsNull chunk
    · simp [hnull, hrest, bind, Except.bind]
    · simp [hnull, hrest, bind, Except.bind]

theorem readChunks_append (front back : List Bytes) : readChunks (front ++ back) =
      (readChunks front >>= fun front => readChunks back >>= fun back => .ok (front ++ back)) := by
  induction front with
  | nil =>
    have hnil : readChunks [] = .ok [] := by simp [readChunks]
    rw [hnil]
    cases h : readChunks back <;> simp [h, bind, Except.bind]
  | cons chunk front ih =>
    rw [List.cons_append, readChunks_cons, readChunks_cons, ih]
    by_cases hnull : ReadsAsNull chunk
    · simp [hnull, bind, Except.bind]
    · cases hfront : readChunks front with
      | error error => simp [hnull, bind, Except.bind]
      | ok front =>
        cases hback : readChunks back <;> simp [hnull, bind, Except.bind]

theorem decodeStoreValues_eq {values : List AppStoreReadValue} {chunks : List Bytes}
    (h : List.Forall₂ (fun value chunk => decodeStoreValue value =
      if ReadsAsNull chunk then .error nullChunkError else .ok chunk) values chunks) :
    decodeStoreValues values = readChunks chunks := by
  induction h with
  | nil => simp [decodeStoreValues, readChunks]
  | cons hvalue _ ih => rw [decodeStoreValues, readChunks_cons, hvalue, ih]

theorem length_chunkLocations (count : UInt32) : (chunkLocations count).length = count.toNat := by
  simp [chunkLocations]

namespace SegmentHolds

variable {segment : UploadSegment} {chunks : List Bytes}

theorem count_le (h : SegmentHolds keys storage segment chunks) :
    segment.chunkCount.toNat ≤ 63 := h.count.trans_le h.full

/-- The values that a read of all chunks returns, in the order of their locations. -/
theorem read_values (h : SegmentHolds keys storage segment chunks)
    (hsmall : ∀ chunk ∈ chunks, chunk ≠ []) :
    ∃ record, storage.stores[segment.storeId]? = some record ∧
      ∃ values, AppStorage.readValues record blobSegmentSubkeys
          (chunkLocations segment.chunkCount) = values ∧
        values.Pairwise (fun v w => v.location ≤ w.location) ∧
        decodeStoreValues values = readChunks chunks := by
  obtain ⟨record, hrecord, hstored⟩ := h.stored
  have hsorted := chunkLocations_sorted h.count_le
  refine ⟨record, hrecord, _, rfl, ?_, decodeStoreValues_eq ?_⟩
  · unfold AppStorage.readValues
    rw [deduplicateLocations_of_sorted hsorted]
    refine List.pairwise_map.mpr (hsorted.imp fun hlt => ?_)
    have hlocation : ∀ location result,
        (appStoreReadValue location result).location = location := by
      intro location result
      unfold appStoreReadValue
      split <;> (try split) <;> rfl
    rw [hlocation, hlocation]
    exact UInt32.le_of_lt hlt
  unfold AppStorage.readValues
  rw [deduplicateLocations_of_sorted hsorted]
  refine List.forall₂_map_left_iff.mpr (List.forall₂_iff_get.mpr ⟨?_, fun i hi hi' => ?_⟩)
  · rw [length_chunkLocations, h.count]
  have hfull := h.full
  have hlocation : (chunkLocations segment.chunkCount).get ⟨i, hi⟩ = UInt32.ofNat (i + 1) := by
    simp [chunkLocations]
  rw [hlocation]
  refine decode_read (location_lt (by omega)) (hsmall _ (List.get_mem _ _)) ?_
  exact hstored i _ (List.getElem?_eq_getElem hi')

/-- The owner's read of a segment. -/
theorem readOwnSegment {s : BlobStoreManager} (h : SegmentHolds keys s.storage segment chunks)
    (hsmall : ∀ chunk ∈ chunks, chunk ≠ []) :
    readOwnSegment s segment = readChunks chunks := by
  obtain ⟨record, hrecord, values, hvalues, _, hdecode⟩ := h.read_values hsmall
  unfold BlobStore.readOwnSegment
  by_cases hzero : segment.chunkCount = 0
  · have hcount := h.count
    rw [hzero] at hcount
    obtain rfl := List.length_eq_zero_iff.mp hcount.symm
    rw [if_pos hzero]
    simp [readChunks]
  have hreads : ¬ maxAppStoreReadsPerRequest < (chunkLocations segment.chunkCount).length := by
    have hcount := h.count_le
    have hmax : maxAppStoreReadsPerRequest = 256 := rfl
    rw [length_chunkLocations]
    omega
  have hfind : (chunkLocations segment.chunkCount).find? (blobSegmentSubkeys ≤ ·) = none := by
    refine List.find?_eq_none.mpr fun location hlocation => ?_
    obtain ⟨i, hi, rfl⟩ := List.mem_map.mp hlocation
    have hi := List.mem_range.mp hi
    have hcount := h.count_le
    have hlt := UInt32.not_le.mpr (location_lt (i := i) (by omega))
    simpa using hlt
  rw [if_neg hzero, AppStorage.readOwn, if_neg hreads, hrecord]
  rw [hfind]
  dsimp only
  rw [hvalues, hdecode]

end SegmentHolds

variable {segments : List UploadSegment}

/-- The owner's read of all segments. -/
theorem readOwnSegments_eq {s : BlobStoreManager} {contents : List (List Bytes)}
    (h : List.Forall₂ (SegmentHolds keys s.storage) segments contents)
    (hsmall : ∀ chunk ∈ contents.flatten, chunk ≠ []) :
    readOwnSegments s segments = readChunks contents.flatten := by
  induction h with
  | nil => simp [readOwnSegments, readChunks]
  | cons hsegment _ ih =>
    rw [List.flatten_cons] at hsmall ⊢
    have hhead := hsegment.readOwnSegment fun chunk hchunk =>
      hsmall chunk (List.mem_append_left _ hchunk)
    have htail := ih fun chunk hchunk => hsmall chunk (List.mem_append_right _ hchunk)
    rw [readOwnSegments, hhead, htail, readChunks_append]

/-! ## Final headers -/

/-- The records hold the final headers of segments, from an index on. -/
def FinalHeaders (storage : AppStorage) (state : UploadState) (finalData : Hash32 × UInt64) :
    Nat → List UploadSegment → Prop
  | _, [] => True
  | index, segment :: segments =>
    (∃ record, storage.stores[segment.storeId]? = some record ∧
      record 0 = some (normalizeWriteBytes (SegmentHeader.codec.encode
        (state.makeHeader index segment (segments.head?.map (·.recordKey)) (some finalData))))) ∧
    FinalHeaders storage state finalData (index + 1) segments

theorem FinalHeaders.put_other {state : UploadState} {finalData : Hash32 × UInt64} {store : Nat}
    (hother : ∀ segment ∈ segments, store ≠ segment.storeId)
    (value : Bytes) {index : Nat} (h : FinalHeaders storage state finalData index segments) :
    FinalHeaders (storage.put store 0 value) state finalData index segments := by
  induction segments generalizing index with
  | nil => trivial
  | cons segment segments ih =>
    obtain ⟨hhead, htail⟩ := h
    refine ⟨?_, ih (fun other hmem => hother other (List.mem_cons_of_mem _ hmem)) htail⟩
    rw [AppStorage.put_stores, if_neg (hother segment List.mem_cons_self)]
    exact hhead

/-- The final headers are all written, and no chunk changes. -/
theorem writeFinalHeaders_run (state : UploadState) (finalData : Hash32 × UInt64)
    (hid : state.blobId.length = 32) (htype : state.contentType.length ≤ blobMaxContentTypeBytes)
    (s : BlobStoreManager)
    (hstores : ∀ segment ∈ segments, segment.storeId < s.storage.stores.length)
    (hroom : s.storage.stores.length ≤ maxInternalAppStoresPerApp)
    (hkeys : ∀ segment ∈ segments, segment.recordKey = keys.text segment.storeId)
    (hdistinct : (segments.map (·.storeId)).Nodup) (index : Nat) :
    ∃ storage', writeFinalHeaders state finalData index segments s =
        (.ok (), { s with storage := storage' }) ∧
      storage'.stores.length = s.storage.stores.length ∧
      FinalHeaders storage' state finalData index segments ∧
      ∀ segment chunks, SegmentHolds keys s.storage segment chunks →
        SegmentHolds keys storage' segment chunks := by
  induction segments generalizing index with
  | nil => exact ⟨s.storage, rfl, rfl, trivial, fun _ _ h => h⟩
  | cons segment segments ih =>
    rw [List.map_cons, List.nodup_cons] at hdistinct
    obtain ⟨storage', hrun, hlength, hheaders, hholds⟩ :=
      ih (fun other hmem => hstores other (List.mem_cons_of_mem _ hmem))
        (fun other hmem => hkeys other (List.mem_cons_of_mem _ hmem)) hdistinct.2 (index + 1)
    have hstore := hstores segment List.mem_cons_self
    have hnext : ∀ key ∈ segments.head?.map (·.recordKey), key.length ≤ 1024 := by
      intro key hkey
      obtain ⟨next, hnext, rfl⟩ := Option.map_eq_some_iff.mp hkey
      have hmem := List.mem_cons_of_mem segment (List.mem_of_mem_head? hnext)
      rw [hkeys next hmem]
      exact keys.text_length _ ((hstores next hmem).trans_le hroom)
    obtain ⟨hid', htype'⟩ := makeHeader_texts hid htype index segment
      (segments.head?.map (·.recordKey)) (some finalData)
    have hheader := writeHeader_run (s := { s with storage := storage' }) segment.storeId
      (state.makeHeader index segment (segments.head?.map (·.recordKey)) (some finalData))
      (hlength.symm ▸ hstore) hid' hnext htype'
    refine ⟨_, (Fallible.bind_ok hrun).trans hheader,
      (AppStorage.length_put _ _ _ _).trans hlength, ⟨?_, ?_⟩,
      fun other chunks hother => (hholds other chunks hother).put_header _ _⟩
    · have hrecord := List.getElem?_eq_getElem (hlength.symm ▸ hstore :
        segment.storeId < storage'.stores.length)
      rw [AppStorage.put_stores, if_pos rfl, hrecord]
      exact ⟨_, rfl, Function.update_self _ _ _⟩
    · refine hheaders.put_other (fun other hmem heq => hdistinct.1 ?_) _
      rw [heq]
      exact List.mem_map_of_mem hmem

/-! ## The finished blob -/

/-- The chain of a blob's records, and what it says of the blob. -/
structure Chain (keys : RecordKeys) (storage : AppStorage) (state : UploadState)
    (finalData : Hash32 × UInt64) (contents : List (List Bytes)) : Prop where
  segments : List.Forall₂ (SegmentHolds keys storage) state.segments contents
  headers : FinalHeaders storage state finalData 0 state.segments
  few : state.segments.length ≤ blobMaxSegments
  room : storage.stores.length ≤ maxInternalAppStoresPerApp
  committed : state.committedBytes.toNat = contents.flatten.flatten.length
  whole : ∀ chunk ∈ contents.flatten, chunk ≠ [] ∧ ¬ ReadsAsNull chunk

/-- What the chain of an upload is described by. -/
def UploadState.descriptor (state : UploadState) (rootRecordKey : Bytes)
    (finalData : Hash32 × UInt64) : BlobDescriptor where
  blobId := state.blobId
  rootRecordKey
  contentType := state.contentType
  totalBytes := state.committedBytes
  segmentCount := UInt32.ofNat state.segments.length
  sha256 := finalData.1
  createdAt := state.createdAt
  finalizedAt := finalData.2

variable {sha256 : Bytes → Hash32} {app : Bytes} {others : Nat} {uploadId : UuidText}
  {contents : List (List Bytes)} {expectedSha256 : Option Hash32} {finalizedAt : UInt64}

/-- An upload is finished unless a chunk reads as an empty subkey. -/
theorem triple_finish (hexpected : ∀ expected ∈ expectedSha256,
      expected = sha256 contents.flatten.flatten) :
    Fallible.Triple (Uploading keys app others uploadId contents)
      (finish sha256 app uploadId expectedSha256 finalizedAt)
      (fun descriptor s => (∀ chunk ∈ contents.flatten, ¬ ReadsAsNull chunk) ∧
        ∃ state root, state.segments.head? = some root ∧
          descriptor = state.descriptor root.recordKey
            (sha256 contents.flatten.flatten, finalizedAt) ∧
          Chain keys s.storage state (sha256 contents.flatten.flatten, finalizedAt) contents)
      (fun error s => error = nullChunkError ∧ Uploading keys app others uploadId contents s ∧
        ∃ chunk ∈ contents.flatten, ReadsAsNull chunk) := by
  rintro s ⟨state, hlookup, hholds⟩
  have hread : readStore (findUpload app uploadId) s = (.ok state, s) := by
    rw [readStore, hholds.findUpload hlookup]
  rw [finish, Fallible.bind_ok hread]
  have hchunks := readOwnSegments_eq hholds.segments fun chunk hchunk =>
    (hholds.small chunk hchunk).1
  by_cases hnull : ∃ chunk ∈ contents.flatten, ReadsAsNull chunk
  · have hhash : readStore (fun s => hashOwnedUpload sha256 s state) s =
        (.error nullChunkError, s) := by
      rw [readStore, hashOwnedUpload, hchunks, readChunks, if_pos hnull]
      rfl
    rw [Fallible.bind_error hhash]
    exact ⟨rfl, ⟨state, hlookup, hholds⟩, hnull⟩
  have hhash : readStore (fun s => hashOwnedUpload sha256 s state) s =
      (.ok (sha256 contents.flatten.flatten), s) := by
    rw [readStore, hashOwnedUpload, hchunks, readChunks, if_neg hnull]
    rfl
  have hmatch : ¬ ∃ expected ∈ expectedSha256, expected ≠ sha256 contents.flatten.flatten := by
    rintro ⟨expected, hmem, hne⟩
    exact hne (hexpected expected hmem)
  rw [Fallible.bind_ok hhash]
  rw [if_neg hmatch]
  -- The final headers.
  have hsegments := hholds.segments
  have hmem : ∀ segment ∈ state.segments, ∃ chunks, SegmentHolds keys s.storage segment chunks := by
    intro segment hsegment
    obtain ⟨i, hi⟩ := List.getElem?_of_mem hsegment
    obtain ⟨hlength, hget⟩ := List.forall₂_iff_get.mp hsegments
    obtain ⟨hlt, rfl⟩ := List.getElem?_eq_some_iff.mp hi
    exact ⟨_, hget i hlt (hlength ▸ hlt)⟩
  obtain ⟨storage', hwrite, hlength, hheaders, hkept⟩ := writeFinalHeaders_run
    { state with finalized := true } (sha256 contents.flatten.flatten, finalizedAt)
    hholds.blobId hholds.contentType s
    (fun segment hsegment => (hmem segment hsegment).elim fun _ h => h.store_lt) hholds.room
    (fun segment hsegment => (hmem segment hsegment).elim fun _ h => h.key) hholds.distinct 0
  rw [Fallible.bind_ok hwrite]
  cases hhead : state.segments with
  | nil => exact absurd hhead hholds.nonempty
  | cons root segments =>
    refine ⟨fun chunk hchunk hreads => hnull ⟨chunk, hchunk, hreads⟩,
      { state with finalized := true }, root, by rw [hhead]; rfl, ?_, ?_⟩
    · simp [UploadState.descriptor, hhead]
    · exact ⟨hsegments.imp hkept, hheaders, hholds.few, hlength.trans_le hholds.room,
        hholds.committed, fun chunk hchunk => ⟨(hholds.small chunk hchunk).1,
          fun hreads => hnull ⟨chunk, hchunk, hreads⟩⟩⟩

end VeilKnit.BlobStore
