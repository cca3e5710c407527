import VeilKnit.BlobStore.Finish

/-!
# Reading a blob back

A range read follows the chain of records and takes from each chunk what lies in the range.
What it has got is at every moment the part of the range in the bytes seen so far, so at the
end it has the range.

An upload that is cut into pieces reads back as a whole exactly when the pieces fit and no
chunk reads as an empty subkey.
-/

namespace VeilKnit.BlobStore

open Library

/-! ## Ranges -/

/-- A range read that has seen some bytes from the start of the blob. -/
def RangeRead.at (start stop : Nat) (seen : Bytes) : RangeRead where
  cursor := seen.length
  output := (seen.take stop).drop start
  seen

theorem RangeRead.take_at (start stop : Nat) (seen chunk : Bytes) :
    (RangeRead.at start stop seen).take start stop chunk =
      RangeRead.at start stop (seen ++ chunk) := by
  have houtput : ((seen ++ chunk).take stop).drop start = (seen.take stop).drop start ++
        (chunk.take (stop - seen.length)).drop (start - min stop seen.length) := by
    rw [List.take_append, List.drop_append, List.length_take]
  unfold RangeRead.take RangeRead.at
  dsimp only
  rw [List.length_append, houtput]
  congr 1
  by_cases hin : start < seen.length + chunk.length ∧ seen.length < stop
  · have htake : chunk.take (min stop (seen.length + chunk.length) - seen.length) =
        chunk.take (stop - seen.length) := by
      rw [List.take_eq_take_iff]
      omega
    rw [if_pos hin, htake, Nat.min_eq_right hin.2.le]
  rw [if_neg hin]
  -- Outside the range there is nothing to take.
  have hnil : (chunk.take (stop - seen.length)).drop (start - min stop seen.length) = [] := by
    refine List.drop_eq_nil_of_le ?_
    rw [List.length_take]
    omega
  rw [hnil, List.append_nil]

theorem RangeRead.foldl_take (start stop : Nat) (seen : Bytes) (chunks : List Bytes) :
    chunks.foldl (fun read chunk => read.take start stop chunk) (RangeRead.at start stop seen) =
      RangeRead.at start stop (seen ++ chunks.flatten) := by
  induction chunks generalizing seen with
  | nil => simp
  | cons chunk chunks ih => simp [RangeRead.take_at, ih]

/-- The bytes seen so far suffice for the range. -/
def RangeRead.Complete (start stop : Nat) (seen : Bytes) : Prop :=
  stop - start ≤ (RangeRead.at start stop seen).output.length

instance (start stop : Nat) (seen : Bytes) : Decidable (RangeRead.Complete start stop seen) :=
  inferInstanceAs (Decidable (_ ≤ _))

variable {start stop store remaining : Nat}

theorem RangeRead.complete_output {seen rest : Bytes}
    (hstart : start ≤ stop) (hcomplete : RangeRead.Complete start stop seen ∨ rest = []) :
    (RangeRead.at start stop seen).output = ((seen ++ rest).drop start).take (stop - start) := by
  rw [← List.drop_take]
  rcases hcomplete with hcomplete | rfl
  · unfold RangeRead.Complete RangeRead.at at hcomplete
    dsimp only at hcomplete
    rw [List.length_drop, List.length_take] at hcomplete
    by_cases hempty : start = stop
    · subst hempty
      simp [RangeRead.at]
    · have hlong : stop ≤ seen.length := by omega
      rw [List.take_append_of_le_length hlong]
      rfl
  · rw [List.append_nil]
    rfl

/-! ## The chain -/

variable {keys : RecordKeys} {storage : AppStorage} {state : UploadState}
  {finalData : Hash32 × UInt64}

/-- A record is read by the text of its key. -/
theorem readPublic_eq {record : DhtRecord} {locations : List UInt32}
    (hrecord : storage.stores[store]? = some record)
    (hroom : storage.stores.length ≤ maxInternalAppStoresPerApp) (hne : locations ≠ [])
    (hfew : locations.length ≤ maxAppStoreReadsPerRequest) :
    readPublic keys storage (keys.text store) locations =
      .ok (AppStorage.readValues record blobSegmentSubkeys locations) := by
  have hlt := (List.getElem?_eq_some_iff.mp hrecord).1
  have hreads : ¬ (locations = [] ∨ maxAppStoreReadsPerRequest < locations.length) := by
    rintro (hnil | hmany)
    · exact hne hnil
    · exact Nat.not_lt.mpr hfew hmany
  rw [readPublic, keys.parse_text store (hlt.trans_le hroom)]
  dsimp only
  rw [AppStorage.readPublic, if_neg hreads, hrecord]

variable {header : SegmentHeader}

theorem readPublicHeader_eq {record : DhtRecord} (hrecord : storage.stores[store]? = some record)
    (hroom : storage.stores.length ≤ maxInternalAppStoresPerApp)
    (hmagic : header.magic = segmentMagic)
    (hstored : record 0 = some (normalizeWriteBytes (SegmentHeader.codec.encode header))) :
    readPublicHeader keys storage (keys.text store) = .ok header := by
  obtain ⟨rest, hencode⟩ := encode_header_cons hmagic
  have hvalues : AppStorage.readValues record blobSegmentSubkeys [0] =
      [appStoreReadValue 0 (record.read blobSegmentSubkeys 0)] := by
    rw [AppStorage.readValues, deduplicateLocations_of_sorted (List.pairwise_singleton _ _)]
    rfl
  have hvalue : decodeStoreValue (appStoreReadValue 0 (record.read blobSegmentSubkeys 0)) =
      .ok (SegmentHeader.codec.encode header) := by
    rw [decode_read (by decide) (by rw [hencode]; exact List.cons_ne_nil _ _) hstored, hencode,
      if_neg (not_readsAsNull_cons ⟨by decide, by decide, by decide⟩ (by decide) rest)]
  have hdecode := SegmentHeader.codec.decode_encode header []
  rw [List.append_nil] at hdecode
  rw [readPublicHeader, readPublic_eq hrecord hroom (List.cons_ne_nil _ _) (by decide), hvalues]
  simp [bind, Except.bind, hvalue, hdecode]

variable {segment : UploadSegment} {chunks : List Bytes}

/-- A reader's read of a segment. -/
theorem readSegment_eq (header : SegmentHeader)
    (h : SegmentHolds keys storage segment chunks) (hcount : header.chunkCount = segment.chunkCount)
    (hroom : storage.stores.length ≤ maxInternalAppStoresPerApp)
    (hwhole : ∀ chunk ∈ chunks, chunk ≠ [] ∧ ¬ ReadsAsNull chunk) :
    readSegment keys storage segment.recordKey header = .ok chunks := by
  obtain ⟨record, hrecord, values, hvalues, hsorted, hdecode⟩ :=
    h.read_values fun chunk hchunk => (hwhole chunk hchunk).1
  have hnull : ¬ ∃ chunk ∈ chunks, ReadsAsNull chunk := by
    rintro ⟨chunk, hchunk, hreads⟩
    exact (hwhole chunk hchunk).2 hreads
  rw [readSegment, hcount]
  by_cases hzero : segment.chunkCount = 0
  · have hlength := h.count
    rw [hzero] at hlength
    rw [if_pos hzero, List.length_eq_zero_iff.mp hlength.symm]
  have hlength := length_chunkLocations segment.chunkCount
  have hpos : segment.chunkCount.toNat ≠ 0 := fun hnat => hzero (UInt32.toNat_inj.mp hnat)
  have hne : chunkLocations segment.chunkCount ≠ [] := by
    intro hnil
    rw [hnil] at hlength
    exact hpos hlength.symm
  have hfew : (chunkLocations segment.chunkCount).length ≤ maxAppStoreReadsPerRequest := by
    rw [hlength]
    exact h.count_le.trans (by decide)
  have hmerge : values.mergeSort (fun v w => v.location ≤ w.location) = values :=
    List.mergeSort_of_pairwise (hsorted.imp fun hle => by simpa using hle)
  rw [if_neg hzero, h.key, readPublic_eq hrecord hroom hne hfew, hvalues]
  simp only [bind, Except.bind, hmerge, hdecode, readChunks, if_neg hnull]

/-- The final header of a segment is what a reader expects. -/
theorem makeHeader_validate (state : UploadState) (finalData : Hash32 × UInt64)
    (h : SegmentHolds keys storage segment chunks)
    (index : Nat) (next : Option Bytes) (expectedBlobId : Option Bytes)
    (hid : ∀ expected ∈ expectedBlobId, expected = state.blobId) :
    (state.makeHeader index segment next (some finalData)).validate expectedBlobId
      (UInt32.ofNat index) = .ok () := by
  have hcount : ¬ blobDataSubkeysPerSegment < segment.chunkCount := by
    rw [UInt32.lt_iff_toNat_lt]
    exact Nat.not_lt.mpr h.count_le
  have hblob : ¬ ∃ expected ∈ expectedBlobId, state.blobId ≠ expected := by
    rintro ⟨expected, hmem, hne⟩
    exact hne (hid expected hmem).symm
  unfold SegmentHeader.validate UploadState.makeHeader
  rw [if_neg (by simp), if_neg (by simp), if_neg hblob, if_neg hcount]

/-- A step along the chain, over a segment that is as a reader expects. -/
theorem readChain_step {blobId recordKey : Bytes}
    {expectedIndex : UInt32} {known : Option SegmentHeader}
    (seen : Bytes) (hheader : known = some header ∨
      known = none ∧ readPublicHeader keys storage recordKey = .ok header)
    (hvalid : header.validate (some blobId) expectedIndex = .ok ())
    (hchunks : readSegment keys storage recordKey header = .ok chunks) :
    readChain keys storage blobId start stop (remaining + 1) recordKey expectedIndex known
        (RangeRead.at start stop seen) =
      if RangeRead.Complete start stop (seen ++ chunks.flatten) then
        .ok (RangeRead.at start stop (seen ++ chunks.flatten), expectedIndex)
      else match header.nextRecordKey with
        | none => .ok (RangeRead.at start stop (seen ++ chunks.flatten), expectedIndex)
        | some next =>
          readChain keys storage blobId start stop remaining next (expectedIndex + 1) none
            (RangeRead.at start stop (seen ++ chunks.flatten)) := by
  rcases hheader with rfl | ⟨rfl, hheader⟩
  · conv_lhs => unfold readChain
    simp only [bind, Except.bind, hvalid, hchunks, RangeRead.foldl_take]
    rfl
  · conv_lhs => unfold readChain
    simp only [bind, Except.bind, hheader, hvalid, hchunks, RangeRead.foldl_take]
    rfl

variable {contents : List (List Bytes)}

/-- From a segment on, the chain hands over its chunks until the range is complete. -/
theorem readChain_run (hroom : storage.stores.length ≤ maxInternalAppStoresPerApp)
    (start stop : Nat) {segments : List UploadSegment}
    (hsegments : List.Forall₂ (SegmentHolds keys storage) segments contents)
    (hwhole : ∀ chunk ∈ contents.flatten, chunk ≠ [] ∧ ¬ ReadsAsNull chunk) {index : Nat}
    (hheaders : FinalHeaders storage state finalData index segments)
    (hhead : segments.head? = some segment) (hfew : segments.length ≤ remaining)
    (known : Option SegmentHeader) (hknown : ∀ header ∈ known, header =
      state.makeHeader index segment (segments.tail.head?.map (·.recordKey)) (some finalData))
    (seen : Bytes) :
    ∃ more rest lastIndex, contents.flatten.flatten = more ++ rest ∧
      readChain keys storage state.blobId start stop remaining segment.recordKey
        (UInt32.ofNat index) known (RangeRead.at start stop seen) =
          .ok (RangeRead.at start stop (seen ++ more), lastIndex) ∧
      (RangeRead.Complete start stop (seen ++ more) ∨ rest = []) := by
  induction hsegments generalizing segment index remaining known seen with
  | nil => cases hhead
  | @cons head chunks segments contents hsegment hrest ih =>
    cases hhead
    obtain ⟨⟨record, hrecord, hstored⟩, htail⟩ := hheaders
    rw [List.flatten_cons] at hwhole
    obtain _ | remaining := remaining
    · simp at hfew
    have hchunks := readSegment_eq (state.makeHeader index head
      (segments.head?.map (·.recordKey)) (some finalData)) hsegment rfl hroom
      fun chunk hchunk => hwhole chunk (List.mem_append_left _ hchunk)
    have hvalid := makeHeader_validate state finalData hsegment index
      (segments.head?.map (·.recordKey)) (some state.blobId) (by rintro expected ⟨⟩; rfl)
    have hheader : known = some (state.makeHeader index head
          (segments.head?.map (·.recordKey)) (some finalData)) ∨
        known = none ∧ readPublicHeader keys storage head.recordKey =
          .ok (state.makeHeader index head (segments.head?.map (·.recordKey))
            (some finalData)) := by
      cases known with
      | some header => exact Or.inl (congrArg some (hknown header rfl))
      | none =>
        rw [hsegment.key]
        exact Or.inr ⟨rfl, readPublicHeader_eq hrecord hroom rfl hstored⟩
    have hflatten : (chunks :: contents).flatten.flatten =
        chunks.flatten ++ contents.flatten.flatten := by simp
    rw [readChain_step seen hheader hvalid hchunks, hflatten]
    by_cases hcomplete : RangeRead.Complete start stop (seen ++ chunks.flatten)
    · exact ⟨chunks.flatten, contents.flatten.flatten, UInt32.ofNat index, rfl,
        if_pos hcomplete, Or.inl hcomplete⟩
    rw [if_neg hcomplete]
    cases hnext : segments.head? with
    | none =>
      -- The last segment.
      obtain rfl := List.head?_eq_none_iff.mp hnext
      cases hrest
      exact ⟨chunks.flatten, [], UInt32.ofNat index, by simp, rfl, Or.inr rfl⟩
    | some next =>
      have hfew : segments.length ≤ remaining := Nat.le_of_succ_le_succ hfew
      obtain ⟨more, rest, lastIndex, hsplit, hrun, hend⟩ := ih
        (fun chunk hchunk => hwhole chunk (List.mem_append_right _ hchunk)) htail hnext hfew
        none (by rintro header ⟨⟩) (seen ++ chunks.flatten)
      have hindex : UInt32.ofNat (index + 1) = UInt32.ofNat index + 1 := UInt32.ofNat_add _ _
      rw [hindex] at hrun
      refine ⟨chunks.flatten ++ more, rest, lastIndex, ?_, ?_, ?_⟩
      · rw [hsplit, List.append_assoc]
      · rw [← List.append_assoc]
        exact hrun
      · rwa [← List.append_assoc]

variable {sha256 : Bytes → Hash32}

/-- A range of a finished blob. -/
theorem readPublicRange_run {root : UploadSegment}
    (h : Chain keys storage state finalData contents) (hroot : state.segments.head? = some root)
    (hhash : finalData.1 = sha256 contents.flatten.flatten) {offset length : UInt64}
    (hrange : offset.toNat + length.toNat ≤ contents.flatten.flatten.length) :
    readPublicRange keys sha256 storage root.recordKey offset length =
      .ok (state.descriptor root.recordKey finalData,
        (contents.flatten.flatten.drop offset.toNat).take length.toNat) := by
  have hheaders := h.headers
  have hsegments := h.segments
  obtain ⟨segments, hcons⟩ : ∃ segments, state.segments = root :: segments := by
    cases hcons : state.segments with
    | nil => rw [hcons] at hroot; cases hroot
    | cons head segments =>
      rw [hcons] at hroot
      exact ⟨segments, by rw [Option.some.inj hroot]⟩
  rw [hcons] at hheaders hsegments
  obtain ⟨chunks, later, hholds, -, -⟩ := List.forall₂_cons_left_iff.mp hsegments
  have hfew := h.few
  rw [hcons] at hfew
  obtain ⟨more, rest, lastIndex, hsplit, hrun, hend⟩ := readChain_run h.room offset.toNat
    (offset.toNat + length.toNat) hsegments h.whole hheaders rfl hfew
    (some (state.makeHeader 0 root (segments.head?.map (·.recordKey)) (some finalData)))
    (by rintro header ⟨⟩; rfl) []
  obtain ⟨⟨record, hrecord, hstored⟩, -⟩ := hheaders
  have hheader : readPublicHeader keys storage root.recordKey = .ok (state.makeHeader 0 root
      (segments.head?.map (·.recordKey)) (some finalData)) := by
    rw [hholds.key]
    exact readPublicHeader_eq hrecord h.room rfl hstored
  have hvalid := makeHeader_validate state finalData hholds 0
    (segments.head?.map (·.recordKey)) none (by rintro expected ⟨⟩)
  rw [List.nil_append] at hrun hend
  -- What has been read is the range.
  have houtput : (RangeRead.at offset.toNat (offset.toNat + length.toNat) more).output =
      (contents.flatten.flatten.drop offset.toNat).take length.toNat := by
    rw [RangeRead.complete_output (Nat.le_add_right _ _) hend, hsplit, Nat.add_sub_cancel_left]
  have hlength : ((contents.flatten.flatten.drop offset.toNat).take length.toNat).length =
      length.toNat := by
    rw [List.length_take, List.length_drop]
    omega
  -- A read of the whole blob has seen the whole blob.
  have hseen : offset = 0 ∧ length = state.committedBytes → more = contents.flatten.flatten := by
    rintro ⟨rfl, rfl⟩
    have htake := houtput
    rw [h.committed] at htake
    have hmore : (RangeRead.at (UInt64.toNat 0)
        (UInt64.toNat 0 + contents.flatten.flatten.length) more).output = more := by
      change (more.take (0 + contents.flatten.flatten.length)).drop 0 = more
      rw [List.drop_zero, List.take_of_length_le]
      have hle := congrArg List.length hsplit
      rw [List.length_append] at hle
      omega
    rw [hmore] at htake
    rw [htake]
    exact List.take_length
  have hcommitted := h.committed
  have hsmall := state.committedBytes.toNat_lt
  have hinside : ¬ (2 ^ 64 ≤ offset.toNat + length.toNat ∨
      state.committedBytes.toNat < offset.toNat ∨
      state.committedBytes.toNat < offset.toNat + length.toNat) := by omega
  have hcheck : ¬ (offset = 0 ∧ length = state.committedBytes ∧
      sha256 (RangeRead.at offset.toNat (offset.toNat + length.toNat) more).seen ≠
        finalData.1) := by
    rintro ⟨hoffset, htotal, hne⟩
    rw [hhash, hseen ⟨hoffset, htotal⟩] at hne
    exact hne rfl
  have htotal : (state.makeHeader 0 root (segments.head?.map (·.recordKey))
      (some finalData)).totalBytes = some state.committedBytes := by simp [UploadState.makeHeader]
  have hsha : (state.makeHeader 0 root (segments.head?.map (·.recordKey))
      (some finalData)).sha256 = some finalData.1 := by simp [UploadState.makeHeader]
  have hid : (state.makeHeader 0 root (segments.head?.map (·.recordKey))
      (some finalData)).blobId = state.blobId := rfl
  have hstart : ({ cursor := 0, output := [], seen := [] } : RangeRead) =
      RangeRead.at offset.toNat (offset.toNat + length.toNat) [] := by simp [RangeRead.at]
  unfold readPublicRange
  rw [hheader]
  simp only [bind, Except.bind]
  rw [show (0 : UInt32) = UInt32.ofNat 0 from rfl, hvalid]
  rw [htotal, hsha, hid, hstart]
  dsimp only
  rw [if_neg hinside, hrun]
  dsimp only
  rw [houtput, hlength, if_neg (by simp), if_neg hcheck]
  simp [UploadState.descriptor, UploadState.makeHeader]

/-! ## Uploads -/

/-- Append the pieces of a blob and finish the upload. -/
def upload (keys : RecordKeys) (sha256 : Bytes → Hash32) (app : Bytes) (uploadId : UuidText)
    (expectedSha256 : Option Hash32) (finalizedAt : UInt64) (pieces : List Bytes) :
    BlobOp BlobDescriptor := do
  appendPieces keys app uploadId pieces
  finish sha256 app uploadId expectedSha256 finalizedAt

/-- Every range of a blob reads as what it is. -/
def ReadsBack (keys : RecordKeys) (sha256 : Bytes → Hash32) (s : BlobStoreManager) (blob : Bytes)
    (descriptor : BlobDescriptor) : Prop :=
  ∀ offset length : UInt64, offset.toNat + length.toNat ≤ blob.length →
    readPublicRange keys sha256 s.storage descriptor.rootRecordKey offset length =
      .ok (descriptor, (blob.drop offset.toNat).take length.toNat)

/-- Pieces that fit beside other records, and of whose chunks none reads as an empty subkey. -/
structure Admissible (others : Nat) (pieces : List Bytes) : Prop where
  fits : Fits others 0 pieces
  plain : ∀ chunk ∈ pieces.flatMap chunksOf, ¬ ReadsAsNull chunk

theorem flatten_chunks_of_pieces (pieces : List Bytes) :
    (pieces.flatMap chunksOf).flatten = pieces.flatten := by
  induction pieces with
  | nil => rfl
  | cons piece pieces ih =>
    rw [List.flatMap_cons, List.flatten_append, chunksOf_flatten, ih, List.flatten_cons]

section Upload

variable {app : Bytes} {uploadId : UuidText} {expectedSha256 : Option Hash32}
  {finalizedAt : UInt64} {others : Nat} {pieces : List Bytes}

/-- Admissible pieces read back, and pieces that are finished are admissible. -/
theorem triple_upload (hexpected : ∀ expected ∈ expectedSha256, expected = sha256 pieces.flatten) :
    Fallible.Triple (Uploading keys app others uploadId [[]])
      (upload keys sha256 app uploadId expectedSha256 finalizedAt pieces)
      (fun descriptor s => Admissible others pieces ∧
        ReadsBack keys sha256 s pieces.flatten descriptor)
      (fun _ _ => ¬ Admissible others pieces) := by
  refine Fallible.triple_bind ((triple_appendPieces pieces [[]]).weaken (fun _ hs => hs)
    (fun _ _ hs => hs) fun _ _ hfits hadmissible => hfits hadmissible.fits) fun _ => ?_
  rintro s ⟨hfits, contents, hcontents, hs⟩
  have hchunks : contents.flatten = pieces.flatMap chunksOf := hcontents
  have hblob : contents.flatten.flatten = pieces.flatten := by
    rw [hchunks, flatten_chunks_of_pieces]
  refine (triple_finish (by rwa [hblob])).weaken (fun _ hs => hs) (fun descriptor s' hs' => ?_)
    (fun _ _ hnull => ?_) s hs
  · obtain ⟨hplain, state, root, hroot, rfl, hchain⟩ := hs'
    refine ⟨⟨hfits, by rwa [← hchunks]⟩, fun offset length hrange => ?_⟩
    rw [← hblob] at hrange
    exact hblob ▸ readPublicRange_run hchain hroot rfl hrange
  · obtain ⟨-, -, chunk, hchunk, hreads⟩ := hnull
    exact fun hadmissible => hadmissible.plain chunk (hchunks ▸ hchunk) hreads

/-- A blob that is uploaded in pieces is finished and reads back, in every range, exactly when
its pieces are admissible. -/
theorem upload_reads_back_iff {blobId : UuidText} {contentType : Bytes} {now : UInt64}
    {s s' : BlobStoreManager}
    (hbegin : beginUpload keys app uploadId blobId contentType now s = (.ok (), s'))
    (hexpected : ∀ expected ∈ expectedSha256, expected = sha256 pieces.flatten) :
    (∃ descriptor s'', upload keys sha256 app uploadId expectedSha256 finalizedAt pieces s' =
        (.ok descriptor, s'') ∧ ReadsBack keys sha256 s'' pieces.flatten descriptor) ↔
      Admissible s.storage.stores.length pieces := by
  have hs' := beginUpload_holds hbegin
  constructor
  · rintro ⟨descriptor, s'', hrun, -⟩
    exact ((triple_upload hexpected).ok hs' hrun).1
  · intro hadmissible
    rcases hrun : upload keys sha256 app uploadId expectedSha256 finalizedAt pieces s' with
      ⟨error | descriptor, s''⟩
    · exact absurd hadmissible ((triple_upload hexpected).error hs' hrun)
    · exact ⟨descriptor, s'', rfl, ((triple_upload hexpected).ok hs' hrun).2⟩

end Upload

/-! ## A sample application -/

/-- Keys that are the number of the record in two bytes. -/
def sampleKeys : RecordKeys where
  text n := Codec.leBytes 2 n
  parse bytes := if bytes.length = 2 then some (Codec.leValue bytes) else none
  parse_text n hn := by
    rw [if_pos (Codec.leBytes_length 2 n),
      Codec.leValue_leBytes 2 n (hn.trans (by decide : maxInternalAppStoresPerApp < 256 ^ 2))]
  text_length n _ := by simp

/-- The hash of the sample blob `abc`, and of `0`. -/
def sampleSha256 (data : Bytes) : Hash32 :=
  if data = [97, 98, 99] then
    ⟨[0xba, 0x78, 0x16, 0xbf, 0x8f, 0x01, 0xcf, 0xea, 0x41, 0x41, 0x40, 0xde, 0x5d, 0xae, 0x22,
      0x23, 0xb0, 0x03, 0x61, 0xa3, 0x96, 0x17, 0x7a, 0x9c, 0xb4, 0x10, 0xff, 0x61, 0xf2, 0x00,
      0x15, 0xad], rfl⟩
  else
    ⟨[0x5f, 0xec, 0xeb, 0x66, 0xff, 0xc8, 0x6f, 0x38, 0xd9, 0x52, 0x78, 0x6c, 0x6d, 0x69, 0x6c,
      0x79, 0xc2, 0xdb, 0xc2, 0x39, 0xdd, 0x4e, 0x91, 0xb4, 0x67, 0x29, 0xd7, 0x3a, 0x27, 0xfb,
      0x57, 0xe9], rfl⟩

def sampleStore : BlobStoreManager := { storage := { stores := [] }, uploads := ∅, blobs := ∅ }

/-- An identifier of equal digits. -/
def sampleUuid (digit : UInt8) : UuidText := ⟨List.replicate 32 digit, rfl⟩

/-- The sample store with an upload that has begun. -/
def sampleBegun : Except BlobStoreError Unit × BlobStoreManager :=
  beginUpload sampleKeys [97] (sampleUuid 49) (sampleUuid 50) octetStream 7 sampleStore

theorem sampleBegun_ok : sampleBegun.1 = .ok () := by
  decide +kernel

/-- The blob `abc`, in two pieces. -/
theorem upload_reads_back_sample :
    ∃ descriptor s'', upload sampleKeys sampleSha256 [97] (sampleUuid 49) none 9
        [[97], [98, 99]] sampleBegun.2 = (.ok descriptor, s'') ∧
      ReadsBack sampleKeys sampleSha256 s'' [97, 98, 99] descriptor :=
  (upload_reads_back_iff (s := sampleStore) (Prod.ext sampleBegun_ok rfl)
    (by rintro expected ⟨⟩)).mpr ⟨⟨by decide, by decide +kernel⟩, by decide +kernel⟩

/-- The blob `0` is not finished. -/
theorem upload_zero_not_finished : sampleBegun.1 = .ok () ∧
      (upload sampleKeys sampleSha256 [97] (sampleUuid 49) none 9 [[48]] sampleBegun.2).1 =
        .error nullChunkError := by
  decide +kernel

end VeilKnit.BlobStore
