import Mathlib.Data.List.Dedup
import VeilKnit.BlobStore.Blob

/-!
# Chunks in the storage

What a write leaves in the records, and what a chunk reads as. A chunk reads back as it was
written, unless the DHT layer takes it for an empty subkey.
-/

namespace VeilKnit.BlobStore

open Library

/-! ## Special values -/

/-- The DHT layer stores, or reads, these bytes as an empty subkey. -/
def ReadsAsNull (data : Bytes) : Prop := data = nullDhtValue ∨ SpellsNull data

instance (data : Bytes) : Decidable (ReadsAsNull data) := inferInstanceAs (Decidable (_ ∨ _))

variable {data : Bytes}

theorem normalizeWriteBytes_of_null (h : ReadsAsNull data) :
    normalizeWriteBytes data = nullDhtValue := by
  unfold normalizeWriteBytes
  rcases h with rfl | hspells
  · simp
  · simp [hspells]

theorem normalizeWriteBytes_of_not_null (hne : data ≠ [])
    (h : ¬ ReadsAsNull data) : normalizeWriteBytes data = data := by
  rw [normalizeWriteBytes, if_neg hne, if_neg (fun hspells => h (Or.inr hspells))]

/-- The error of a chunk that reads as an empty subkey. -/
def nullChunkError : BlobStoreError :=
  .invalidManifest "application DHT operation failed: NotFound"

variable {location : UInt32}

/-- What a stored chunk reads as. -/
theorem decode_read {record : DhtRecord} {chunk : Bytes}
    (hlocation : location < blobSegmentSubkeys) (hne : chunk ≠ [])
    (hstored : record location = some (normalizeWriteBytes chunk)) :
    decodeStoreValue (appStoreReadValue location (record.read blobSegmentSubkeys location)) =
      if ReadsAsNull chunk then .error nullChunkError else .ok chunk := by
  have hread : record.read blobSegmentSubkeys location =
      normalizeDhtBytes (normalizeWriteBytes chunk) := by
    rw [DhtRecord.read, if_neg (UInt32.not_le.mpr hlocation), hstored]
  rw [hread]
  by_cases hnull : ReadsAsNull chunk
  · rw [normalizeWriteBytes_of_null hnull, if_pos hnull]
    rfl
  · have hplain : chunk ≠ nullDhtValue := fun h => hnull (Or.inl h)
    rw [normalizeWriteBytes_of_not_null hne hnull, if_neg hnull, normalizeDhtBytes, if_neg hplain]
    simp [appStoreReadValue, hplain, decodeStoreValue]

/-! ## Locations -/

theorem chunkLocations_sorted {count : UInt32} (h : count.toNat ≤ 63) :
    (chunkLocations count).Pairwise (· < ·) := by
  refine List.pairwise_map.mpr (List.pairwise_lt_range.imp_of_mem ?_)
  intro i j hi hj hlt
  have hj := List.mem_range.mp hj
  rw [UInt32.lt_iff_toNat_lt, UInt32.toNat_ofNat', UInt32.toNat_ofNat',
    Nat.mod_eq_of_lt (by omega), Nat.mod_eq_of_lt (by omega)]
  omega

theorem deduplicateLocations_of_sorted {locations : List UInt32}
    (h : locations.Pairwise (· < ·)) : deduplicateLocations locations = locations := by
  have hle : locations.Pairwise (· ≤ ·) := h.imp fun hlt => UInt32.le_of_lt hlt
  have hnodup : locations.Nodup := h.imp fun hlt => UInt32.ne_of_lt hlt
  have hsorted : locations.mergeSort (· ≤ ·) = locations :=
    List.mergeSort_of_pairwise (hle.imp fun hle => by simpa using hle)
  rw [deduplicateLocations, hsorted, List.dedup_eq_self.mpr hnodup]

theorem location_lt {i : Nat} (h : i < 63) : UInt32.ofNat (i + 1) < blobSegmentSubkeys := by
  rw [UInt32.lt_iff_toNat_lt, UInt32.toNat_ofNat', Nat.mod_eq_of_lt (by omega)]
  change i + 1 < 64
  omega

theorem location_inj {i j : Nat} (hi : i ≤ 63) (hj : j ≤ 63)
    (h : UInt32.ofNat (i + 1) = UInt32.ofNat (j + 1)) : i = j := by
  have hnat := congrArg UInt32.toNat h
  rw [UInt32.toNat_ofNat', UInt32.toNat_ofNat', Nat.mod_eq_of_lt (by omega),
    Nat.mod_eq_of_lt (by omega)] at hnat
  omega

theorem location_ne_zero {i : Nat} (h : i ≤ 63) : UInt32.ofNat (i + 1) ≠ 0 := by
  intro hzero
  have hnat := congrArg UInt32.toNat hzero
  rw [UInt32.toNat_ofNat', Nat.mod_eq_of_lt (by omega)] at hnat
  exact absurd hnat (Nat.succ_ne_zero i)

/-! ## Writes -/

/-- The storage with one subkey written. -/
def AppStorage.put (storage : AppStorage) (store : Nat) (location : UInt32) (value : Bytes) :
    AppStorage where
  stores := storage.stores.modify store fun record => record.write location value

theorem AppStorage.put_stores (storage : AppStorage) (store k : Nat) (location : UInt32)
    (value : Bytes) : (storage.put store location value).stores[k]? =
      if store = k then storage.stores[k]?.map fun record => record.write location value
      else storage.stores[k]? := by
  rw [AppStorage.put, List.getElem?_modify]
  by_cases h : store = k
  · simp [h]
  · simp [h]

theorem AppStorage.length_put (storage : AppStorage) (store : Nat) (location : UInt32)
    (value : Bytes) : (storage.put store location value).stores.length =
      storage.stores.length := by
  simp [AppStorage.put]

/-- A short value goes through to an existing store. -/
theorem writeOwn_run {s : BlobStoreManager} {store : Nat} {value : Bytes}
    (hstore : store < s.storage.stores.length) (hlocation : location < blobSegmentSubkeys)
    (hshort : value.length ≤ maxAppStoreValueBytes) :
    writeOwn store location value s =
      (.ok (), { s with storage := s.storage.put store location value }) := by
  have hrecord := List.getElem?_eq_getElem hstore
  have hmodify : s.storage.stores.set store (s.storage.stores[store].write location value) =
      s.storage.stores.modify store fun record => record.write location value := by
    rw [List.modify_eq_set_getElem?, hrecord]
    rfl
  rw [writeOwn, AppStorage.writeOwn, if_neg (Nat.not_lt.mpr hshort), hrecord]
  dsimp only
  rw [if_neg (UInt32.not_le.mpr hlocation), hmodify]
  rfl

/-! ## Headers -/

/-- A byte that starts a text, but no text that spells null. -/
structure StartsText (byte : UInt8) : Prop where
  ascii : byte.toNat < 0x80
  notSpace : Utf8.isWhitespace byte.toNat = false
  notLetter : toAsciiLowercase byte.toNat ≠ 110

variable {byte : UInt8}

theorem not_spellsNull_cons (hbyte : StartsText byte) (rest : Bytes) :
    ¬ SpellsNull (byte :: rest) := by
  rintro ⟨chars, hchars, hnull⟩
  have hdecode : Utf8.decode (byte :: rest) = (Utf8.decode rest).map (byte.toNat :: ·) := by
    rw [Utf8.decode.eq_def]
    exact if_pos hbyte.ascii
  rw [hdecode] at hchars
  obtain ⟨tail, _, rfl⟩ := Option.map_eq_some_iff.mp hchars
  have hdrop : (byte.toNat :: tail).dropWhile Utf8.isWhitespace = byte.toNat :: tail :=
    List.dropWhile_cons_of_neg (by simp [hbyte.notSpace])
  have hprefix := List.rdropWhile_prefix Utf8.isWhitespace (byte.toNat :: tail)
  rw [Utf8.trim, hdrop] at hnull
  -- What is left after trimming still starts with the byte.
  cases htrimmed : (byte.toNat :: tail).rdropWhile Utf8.isWhitespace with
  | nil =>
    have hall := List.rdropWhile_eq_nil_iff.mp htrimmed byte.toNat List.mem_cons_self
    exact absurd hall (by simp [hbyte.notSpace])
  | cons char chars =>
    rw [htrimmed] at hnull hprefix
    obtain ⟨_, hhead⟩ := hprefix
    rw [(List.cons.inj hhead).1] at hnull
    exact hbyte.notLetter (List.cons.inj hnull).1

theorem not_readsAsNull_cons (hbyte : StartsText byte) (hzero : byte ≠ 48)
    (rest : Bytes) : ¬ ReadsAsNull (byte :: rest) := by
  rintro (hplain | hspells)
  · exact hzero (List.cons.inj hplain).1
  · exact not_spellsNull_cons hbyte rest hspells

variable {header : SegmentHeader}

theorem encode_header_cons (h : header.magic = segmentMagic) :
    ∃ rest, SegmentHeader.codec.encode header = 86 :: rest := by
  have hencode : SegmentHeader.codec.encode header =
      header.magic.val ++ (SegmentHeader.codec.encode header).drop 4 := by
    rw [← List.take_append_drop 4 (SegmentHeader.codec.encode header)]
    congr 1
    · exact List.take_left' header.magic.property
    · rw [List.take_append_drop]
  rw [hencode, h]
  exact ⟨_, rfl⟩

/-- A header with texts of the usual lengths fits a chunk. -/
theorem encode_header_length (hid : header.blobId.length = 32)
    (hnext : ∀ key ∈ header.nextRecordKey, key.length ≤ 1024)
    (htype : ∀ text ∈ header.contentType, text.length ≤ 128) :
    (SegmentHeader.codec.encode header).length ≤ blobChunkBytes := by
  have hbig : 1024 < Codec.lengthEscape := by decide
  have hbytes : ∀ bytes : Bytes, bytes.length ≤ 1024 →
      (Codec.bytes.encode bytes).length = 8 + bytes.length :=
    fun bytes hle => Codec.bytes_encode_length bytes (hle.trans_lt hbig)
  have hblob := hbytes header.blobId (by omega)
  have hkey := Codec.option_encode_length_le Codec.bytes 1032 header.nextRecordKey fun key hkey => by
    have hle := hnext key hkey
    rw [hbytes key hle]
    omega
  have htext := Codec.option_encode_length_le Codec.bytes 136 header.contentType fun text htext => by
    have hle := htype text htext
    rw [hbytes text (by omega)]
    omega
  have htotal := Codec.option_encode_length_le Codec.u64 8 header.totalBytes
    fun a _ => (Codec.u64_hasLength a).le
  have hcount := Codec.option_encode_length_le Codec.u32 4 header.segmentCount
    fun a _ => (Codec.u32_hasLength a).le
  have hhash := Codec.option_encode_length_le (Codec.array 32) 32 header.sha256 fun a _ => a.property.le
  have hfinal := Codec.option_encode_length_le Codec.u64 8 header.finalizedAt
    fun a _ => (Codec.u64_hasLength a).le
  have hversion := Codec.u16_hasLength header.version
  have hindex := Codec.u32_hasLength header.segmentIndex
  have hchunks := Codec.u32_hasLength header.chunkCount
  have hpayload := Codec.u64_hasLength header.payloadBytes
  have hcreated := Codec.u64_hasLength header.createdAt
  have hmagic := header.magic.property
  change (header.magic.val ++ (Codec.u16.encode header.version ++
    (Codec.bytes.encode header.blobId ++ (Codec.u32.encode header.segmentIndex ++
    (Codec.u32.encode header.chunkCount ++ (Codec.u64.encode header.payloadBytes ++
    (Codec.bytes.option.encode header.nextRecordKey ++
    (Codec.bytes.option.encode header.contentType ++
    (Codec.u64.option.encode header.totalBytes ++
    (Codec.u32.option.encode header.segmentCount ++
    ((Codec.array 32).option.encode header.sha256 ++ (Codec.u64.encode header.createdAt ++
    Codec.u64.option.encode header.finalizedAt)))))))))))).length ≤ 12288
  simp only [List.length_append]
  omega

variable {keys : RecordKeys}

/-! ## Stored segments -/

/-- The storage holds the chunks of a segment. -/
structure SegmentHolds (keys : RecordKeys) (storage : AppStorage) (segment : UploadSegment)
    (chunks : List Bytes) : Prop where
  key : segment.recordKey = keys.text segment.storeId
  count : segment.chunkCount.toNat = chunks.length
  full : chunks.length ≤ 63
  stored : ∃ record, storage.stores[segment.storeId]? = some record ∧
    ∀ i chunk, chunks[i]? = some chunk →
      record (UInt32.ofNat (i + 1)) = some (normalizeWriteBytes chunk)

namespace SegmentHolds

variable {storage : AppStorage} {segment : UploadSegment} {chunks : List Bytes}

section

variable (h : SegmentHolds keys storage segment chunks)

include h

theorem store_lt : segment.storeId < storage.stores.length := by
  obtain ⟨record, hrecord, _⟩ := h.stored
  exact (List.getElem?_eq_some_iff.mp hrecord).1

/-- A header does not touch the chunks of any segment. -/
theorem put_header (store : Nat) (value : Bytes) :
    SegmentHolds keys (storage.put store 0 value) segment chunks := by
  obtain ⟨record, hrecord, hchunks⟩ := h.stored
  refine ⟨h.key, h.count, h.full, ?_⟩
  rw [AppStorage.put_stores]
  by_cases hstore : store = segment.storeId
  · rw [if_pos hstore, hrecord]
    refine ⟨record.write 0 value, rfl, fun i chunk hchunk => ?_⟩
    have hlt := (List.getElem?_eq_some_iff.mp hchunk).1
    have hfull := h.full
    rw [DhtRecord.write, Function.update_of_ne (location_ne_zero (by omega))]
    exact hchunks i chunk hchunk
  · rw [if_neg hstore]
    exact ⟨record, hrecord, hchunks⟩

theorem put_other {store : Nat}
    (hother : store ≠ segment.storeId) (location : UInt32) (value : Bytes) :
    SegmentHolds keys (storage.put store location value) segment chunks := by
  refine ⟨h.key, h.count, h.full, ?_⟩
  rw [AppStorage.put_stores, if_neg hother]
  exact h.stored

theorem append_store (record : DhtRecord) :
    SegmentHolds keys { stores := storage.stores ++ [record] } segment chunks := by
  obtain ⟨own, hown, hchunks⟩ := h.stored
  refine ⟨h.key, h.count, h.full, own, ?_, hchunks⟩
  exact (List.getElem?_append_left h.store_lt).trans hown

/-- The next chunk of a segment that is not full. -/
theorem put_chunk (hroom : chunks.length < 63) (chunk : Bytes) (payloadBytes : UInt64) :
    SegmentHolds keys (storage.put segment.storeId (segment.chunkCount + 1) chunk)
      { segment with chunkCount := segment.chunkCount + 1, payloadBytes } (chunks ++ [chunk]) := by
  obtain ⟨record, hrecord, hchunks⟩ := h.stored
  have hlocation : segment.chunkCount + 1 = UInt32.ofNat (chunks.length + 1) := by
    rw [← h.count, UInt32.ofNat_add, UInt32.ofNat_toNat]
    rfl
  refine ⟨h.key, ?_, by rw [List.length_append, List.length_singleton]; omega, ?_⟩
  · rw [hlocation, UInt32.toNat_ofNat', Nat.mod_eq_of_lt (by omega)]
    simp
  refine ⟨record.write (segment.chunkCount + 1) chunk, ?_, fun i stored hstored => ?_⟩
  · rw [AppStorage.put_stores, if_pos rfl, hrecord]
    rfl
  rw [DhtRecord.write, hlocation]
  -- The chunk that has just been written, or one of before.
  by_cases hi : i = chunks.length
  · subst hi
    rw [List.getElem?_concat_length] at hstored
    rw [Function.update_self, Option.some.inj hstored]
  have hlt := (List.getElem?_eq_some_iff.mp hstored).1
  rw [List.length_append, List.length_singleton] at hlt
  have hne : UInt32.ofNat (i + 1) ≠ UInt32.ofNat (chunks.length + 1) :=
    fun heq => hi (location_inj (by omega) (by omega) heq)
  rw [Function.update_of_ne hne]
  rw [List.getElem?_append_left (by omega)] at hstored
  exact hchunks i stored hstored

end

end SegmentHolds

end VeilKnit.BlobStore
