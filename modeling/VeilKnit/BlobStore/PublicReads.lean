import VeilKnit.BlobStore.ReadBack

/-!
# Reading a foreign blob

The records of a blob that somebody else has published hold what their publisher likes. A range
read of them is given here as the machine runs it: sums and differences that leave 64 bits, slices
that leave their chunk and a buffer that cannot be had end the call. Sums, differences and slices
never do, as the values of a record are short and a chain is cut off; the buffer does, as its size
is declared by the publisher.

The hash is that of all bytes of the segments that have been read, the answer is the declared part
of them.
-/

namespace VeilKnit.BlobStore

open Library

/-- A call ends with a panic or with an error of its own. -/
inductive Failure
  | panicked (reason : String)
  | refused (error : BlobStoreError)
  deriving DecidableEq

/-- A read counts the segments that it has begun. -/
abbrev ReadOp := Fallible Failure Nat

namespace ReadOp

def refuse {α : Type} (result : Except BlobStoreError α) : ReadOp α :=
  .lift (result.mapError .refused)

end ReadOp

def checkedAdd (a b : Nat) : Except Failure Nat :=
  if a + b < 2 ^ 64 then .ok (a + b) else .error (.panicked "attempt to add with overflow")

def checkedSub (a b : Nat) : Except Failure Nat :=
  if b ≤ a then .ok (a - b) else .error (.panicked "attempt to subtract with overflow")

/-- The bytes from one index up to another. -/
def slice (bytes : Bytes) (first last : Nat) : Except Failure Bytes :=
  if last < first then .error (.panicked "slice index starts after its end")
  else if bytes.length < last then .error (.panicked "range end index out of range")
  else .ok ((bytes.take last).drop first)

def isizeMax : Nat := 2 ^ 63 - 1

/-- The largest buffer that the allocator of some heap hands out. -/
def largestBuffer (heap : Nat) : Nat := min heap isizeMax

def withCapacity (heap capacity : Nat) : Except Failure Unit :=
  if capacity ≤ largestBuffer heap then .ok () else .error (.panicked "capacity overflow")

/-- The texts of a header are texts. -/
def SegmentHeader.textsAreValid (header : SegmentHeader) : Bool :=
  (Utf8.decode header.blobId).isSome &&
    header.nextRecordKey.all (fun text => (Utf8.decode text).isSome) &&
    header.contentType.all (fun text => (Utf8.decode text).isSome)

/-- One chunk of `read_public_range`. -/
def RangeRead.takeChecked (read : RangeRead) (start stop : Nat) (chunk : Bytes) :
    Except Failure RangeRead := do
  let chunkEnd ← checkedAdd read.cursor chunk.length
  let output ←
    if start < chunkEnd ∧ read.cursor < stop then do
      let last ← checkedSub (min stop chunkEnd) read.cursor
      let part ← slice chunk (start - read.cursor) last
      pure (read.output ++ part)
    else pure read.output
  pure { cursor := chunkEnd, output, seen := read.seen ++ chunk }

def takeValues (start stop : Nat) : List AppStoreReadValue → RangeRead → Except Failure RangeRead
  | [], read => .ok read
  | value :: values, read => do
    let bytes ← (decodeStoreValue value).mapError .refused
    let read ← read.takeChecked start stop bytes
    takeValues start stop values read

section Foreign

variable (keys : RecordKeys)

/-- A header as `bincode` reads it. -/
def readHeader (storage : AppStorage) (recordKey : Bytes) : Except BlobStoreError SegmentHeader := do
  let header ← readPublicHeader keys storage recordKey
  if header.textsAreValid then pure header
  else .error (.invalidManifest "header does not decode")

def readValues (storage : AppStorage) (recordKey : Bytes) (header : SegmentHeader) :
    Except BlobStoreError (List AppStoreReadValue) :=
  if header.chunkCount = 0 then .ok []
  else do
    let values ← readPublic keys storage recordKey (chunkLocations header.chunkCount)
    pure (values.mergeSort fun v w => v.location ≤ w.location)

/-- The header of a segment, unless it is known. -/
def takeHeader (storage : AppStorage) (recordKey : Bytes) : Option SegmentHeader →
    ReadOp SegmentHeader
  | some header => pure header
  | none => .refuse (readHeader keys storage recordKey)

/-- The loop of `read_public_range`, with more rounds at hand than it takes. -/
def followChain (storage : AppStorage) (blobId : Bytes) (start stop length : Nat) :
    Nat → Bytes → Nat → Option SegmentHeader → RangeRead → ReadOp (RangeRead × Nat)
  | 0, _, _, _, _ => .throw (.panicked "out of rounds")
  | rounds + 1, recordKey, expectedIndex, known, read => do
    .modify (· + 1)
    let header ← takeHeader keys storage recordKey known
    ReadOp.refuse (header.validate (some blobId) (UInt32.ofNat expectedIndex))
    let values ← ReadOp.refuse (readValues keys storage recordKey header)
    let read ← Fallible.lift (takeValues start stop values read)
    if length ≤ read.output.length then pure (read, expectedIndex)
    else match header.nextRecordKey with
      | none => pure (read, expectedIndex)
      | some next =>
        if (keys.parse next).isNone then
          ReadOp.refuse (.error (.invalidManifest "invalid next record key"))
        else if blobMaxSegments ≤ expectedIndex + 1 then
          ReadOp.refuse (.error .tooManySegments)
        else
          followChain storage blobId start stop length rounds next (expectedIndex + 1) none read

/-- `read_public_range` with a heap of some size. -/
def readForeignRange (sha256 : Bytes → Hash32) (heap : Nat) (storage : AppStorage)
    (rootRecordKey : Bytes) (offset length : UInt64) : ReadOp (BlobDescriptor × Bytes) := do
  let root ← ReadOp.refuse (readHeader keys storage rootRecordKey)
  ReadOp.refuse (root.validate none 0)
  let total ← ReadOp.refuse <| match root.totalBytes with
    | some total => .ok total
    | none => .error (.invalidManifest "root segment is not finalized")
  let expectedHash ← ReadOp.refuse <| match root.sha256 with
    | some hash => .ok hash
    | none => .error (.invalidManifest "root hash missing")
  let start := offset.toNat
  let stop := offset.toNat + length.toNat
  if 2 ^ 64 ≤ stop ∨ total.toNat < start ∨ total.toNat < stop then
    ReadOp.refuse (.error .rangeOutsideBlob)
  else do
    Fallible.lift (withCapacity heap length.toNat)
    let (read, lastIndex) ← followChain keys storage root.blobId start stop length.toNat
      blobMaxSegments rootRecordKey 0 (some root) { cursor := 0, output := [], seen := [] }
    if read.output.length ≠ length.toNat then
      ReadOp.refuse (.error (.invalidManifest "blob chain ended before requested range"))
    else if offset = 0 ∧ length = total ∧ sha256 read.seen ≠ expectedHash then
      ReadOp.refuse (.error .integrityMismatch)
    else
      pure ({ blobId := root.blobId
              rootRecordKey
              contentType := root.contentType.getD octetStream
              totalBytes := total
              segmentCount := root.segmentCount.getD (UInt32.ofNat lastIndex + 1)
              sha256 := expectedHash
              createdAt := root.createdAt
              finalizedAt := root.finalizedAt.getD 0 }, read.output)

/-! ## What a publisher has stored -/

/-- A segment as a reader accepts it, with its chunks. -/
structure Segment (storage : AppStorage) (blobId recordKey : Bytes) (index : Nat)
    (header : SegmentHeader) (chunks : List Bytes) : Prop where
  readable : readHeader keys storage recordKey = .ok header
  valid : header.validate (some blobId) (UInt32.ofNat index) = .ok ()
  chunks : readSegment keys storage recordKey header = .ok chunks

/-- The chunks of the first segments of a chain, from a record on. -/
inductive Segments (storage : AppStorage) (blobId : Bytes) : Bytes → Nat → List (List Bytes) → Prop
  | last {recordKey : Bytes} {index : Nat} {header : SegmentHeader} {chunks : List Bytes} :
      Segment keys storage blobId recordKey index header chunks →
      Segments storage blobId recordKey index [chunks]
  | link {recordKey next : Bytes} {index : Nat} {header : SegmentHeader} {chunks : List Bytes}
      {contents : List (List Bytes)} :
      Segment keys storage blobId recordKey index header chunks →
      header.nextRecordKey = some next → (keys.parse next).isSome →
      index + 1 < blobMaxSegments → Segments storage blobId next (index + 1) contents →
      Segments storage blobId recordKey index (chunks :: contents)

/-- The header of a finished blob. -/
structure Declares (storage : AppStorage) (rootRecordKey : Bytes) (root : SegmentHeader)
    (total : UInt64) (hash : Hash32) : Prop where
  readable : readHeader keys storage rootRecordKey = .ok root
  valid : root.validate none 0 = .ok ()
  total : root.totalBytes = some total
  hash : root.sha256 = some hash

/-- Values of records are short. -/
def ShortValues (storage : AppStorage) : Prop :=
  ∀ record ∈ storage.stores, ∀ location value, record location = some value →
    value.length ≤ maxAppStoreValueBytes

end Foreign

/-! ## Chunks -/

theorem RangeRead.at_nil (start stop : Nat) :
    RangeRead.at start stop [] = { cursor := 0, output := [], seen := [] } := by
  simp [RangeRead.at]

variable {start stop : Nat}

theorem RangeRead.takeChecked_at {seen chunk : Bytes} (hstop : start ≤ stop)
    (hroom : seen.length + chunk.length < 2 ^ 64) :
    (RangeRead.at start stop seen).takeChecked start stop chunk =
      .ok (RangeRead.at start stop (seen ++ chunk)) := by
  have hadd : checkedAdd seen.length chunk.length = .ok (seen.length + chunk.length) := if_pos hroom
  rw [← RangeRead.take_at]
  unfold RangeRead.takeChecked RangeRead.take RangeRead.at
  rw [hadd]
  by_cases hin : start < seen.length + chunk.length ∧ seen.length < stop
  · have hsub : checkedSub (min stop (seen.length + chunk.length)) seen.length =
        .ok (min stop (seen.length + chunk.length) - seen.length) := if_pos (by omega)
    have hslice : slice chunk (start - seen.length)
        (min stop (seen.length + chunk.length) - seen.length) =
        .ok ((chunk.take (min stop (seen.length + chunk.length) - seen.length)).drop
          (start - seen.length)) := by
      unfold slice
      rw [if_neg (by omega), if_neg (by omega)]
    simp only [bind, Except.bind, pure, Except.pure, if_pos hin, hsub, hslice]
  · simp only [bind, Except.bind, pure, Except.pure, if_neg hin]

/-- The chunk that a value stands for is short. -/
def ShortChunk (value : AppStoreReadValue) : Prop :=
  ∀ bytes, decodeStoreValue value = .ok bytes → bytes.length ≤ maxAppStoreValueBytes

variable {values : List AppStoreReadValue}

theorem takeValues_at (hstop : start ≤ stop)
    (hshort : ∀ value ∈ values, ShortChunk value) {seen : Bytes}
    (hroom : seen.length + values.length * maxAppStoreValueBytes < 2 ^ 64) :
    takeValues start stop values (RangeRead.at start stop seen) =
      ((decodeStoreValues values).mapError .refused).map fun chunks =>
        RangeRead.at start stop (seen ++ chunks.flatten) := by
  induction values generalizing seen with
  | nil => simp [takeValues, decodeStoreValues, Except.mapError, Except.map]
  | cons value values ih =>
    rw [takeValues, decodeStoreValues]
    cases hvalue : decodeStoreValue value with
    | error e => rfl
    | ok bytes =>
      have hbytes := hshort value List.mem_cons_self bytes hvalue
      rw [List.length_cons, Nat.succ_mul] at hroom
      have htake : (RangeRead.at start stop seen).takeChecked start stop bytes =
          .ok (RangeRead.at start stop (seen ++ bytes)) :=
        RangeRead.takeChecked_at hstop (by omega)
      have hroom' : (seen ++ bytes).length + values.length * maxAppStoreValueBytes < 2 ^ 64 := by
        rw [List.length_append]
        omega
      have hrest := ih (fun v hv => hshort v (List.mem_cons_of_mem _ hv)) hroom'
      simp only [Except.mapError, bind, Except.bind, htake, hrest]
      cases decodeStoreValues values with
      | error e => rfl
      | ok chunks => simp [Except.map]

theorem length_decodeStoreValues {chunks : List Bytes}
    (hshort : ∀ value ∈ values, ShortChunk value) (h : decodeStoreValues values = .ok chunks) :
    chunks.flatten.length ≤ values.length * maxAppStoreValueBytes := by
  induction values generalizing chunks with
  | nil =>
    cases h
    simp
  | cons value values ih =>
    rw [decodeStoreValues, except_bind_eq_ok] at h
    obtain ⟨bytes, hvalue, h⟩ := h
    obtain ⟨rest, hrest, h⟩ := except_bind_eq_ok.mp h
    cases h
    have hbytes := hshort value List.mem_cons_self bytes hvalue
    have hchunks := ih (fun v hv => hshort v (List.mem_cons_of_mem _ hv)) hrest
    rw [List.flatten_cons, List.length_append, List.length_cons, Nat.succ_mul]
    omega

/-! ## Segments -/

section Reads

variable {keys : RecordKeys} {storage : AppStorage} {blobId recordKey : Bytes} {index : Nat}
  {header : SegmentHeader}

theorem readSegment_eq_bind : readSegment keys storage recordKey header =
    readValues keys storage recordKey header >>= decodeStoreValues := by
  unfold readSegment readValues
  split_ifs
  · rfl
  · cases readPublic keys storage recordKey (chunkLocations header.chunkCount) with
    | error e => rfl
    | ok values => rfl

/-- A chunk is a value of the record. -/
theorem read_of_decode {record : DhtRecord} {location : UInt32} {bytes : Bytes}
    (h : decodeStoreValue (appStoreReadValue location
      (record.read blobSegmentSubkeys location)) = .ok bytes) :
    ∃ data, record location = some data ∧ data = bytes := by
  unfold DhtRecord.read at h
  by_cases hlocation : blobSegmentSubkeys ≤ location
  · rw [if_pos hlocation] at h
    cases h
  rw [if_neg hlocation] at h
  cases hdata : record location with
  | none =>
    rw [hdata] at h
    cases h
  | some data =>
    rw [hdata] at h
    by_cases hnull : data = nullDhtValue
    · simp [normalizeDhtBytes, appStoreReadValue, decodeStoreValue, hnull] at h
    · simp [normalizeDhtBytes, appStoreReadValue, decodeStoreValue, hnull] at h
      exact ⟨data, rfl, h⟩

variable {values : List AppStoreReadValue}

theorem shortChunk_of_read (hshort : ShortValues storage) {locations : List UInt32}
    (h : readPublic keys storage recordKey locations = .ok values) :
    values.length ≤ locations.length ∧ ∀ value ∈ values, ShortChunk value := by
  unfold readPublic at h
  split at h
  · cases h
  case h_2 n _ =>
  unfold AppStorage.readPublic at h
  split_ifs at h
  · cases hrecord : storage.stores[n]? with
    | none =>
      rw [hrecord] at h
      cases h
    | some record =>
      rw [hrecord] at h
      cases h
      have hmem := List.mem_of_getElem? hrecord
      constructor
      · rw [AppStorage.readValues, List.length_map]
        exact (List.dedup_sublist _).length_le.trans (List.length_mergeSort _).le
      · intro value hvalue bytes hbytes
        obtain ⟨location, -, rfl⟩ := List.mem_map.mp hvalue
        obtain ⟨data, hdata, rfl⟩ := read_of_decode hbytes
        exact hshort record hmem location _ hdata

theorem count_of_validate {expectedBlobId : Option Bytes} {expectedIndex : UInt32}
    (h : header.validate expectedBlobId expectedIndex = .ok ()) :
    header.chunkCount.toNat ≤ 63 := by
  unfold SegmentHeader.validate at h
  split_ifs at h with _ _ _ hcount
  exact UInt32.le_iff_toNat_le.mp (UInt32.not_lt.mp hcount)

theorem readValues_short (hshort : ShortValues storage)
    (h : readValues keys storage recordKey header = .ok values) :
    values.length ≤ header.chunkCount.toNat ∧ ∀ value ∈ values, ShortChunk value := by
  unfold readValues at h
  split_ifs at h
  · cases h
    exact ⟨Nat.zero_le _, fun _ hmem => absurd hmem List.not_mem_nil⟩
  obtain ⟨read, hread, h⟩ := except_bind_eq_ok.mp h
  cases h
  obtain ⟨hlength, hchunks⟩ := shortChunk_of_read hshort hread
  rw [length_chunkLocations] at hlength
  have hperm := List.mergeSort_perm read fun v w => decide (v.location ≤ w.location)
  exact ⟨hperm.length_eq.trans_le hlength, fun v hv => hchunks v (hperm.mem_iff.mp hv)⟩

/-- The bytes of a full segment. -/
def segmentBytes : Nat := 63 * maxAppStoreValueBytes

variable {chunks : List Bytes}

theorem Segment.length_flatten (hshort : ShortValues storage)
    (h : Segment keys storage blobId recordKey index header chunks) :
    chunks.flatten.length ≤ segmentBytes := by
  have hchunks := h.chunks
  rw [readSegment_eq_bind, except_bind_eq_ok] at hchunks
  obtain ⟨values, hvalues, hdecode⟩ := hchunks
  obtain ⟨hlength, hsmall⟩ := readValues_short hshort hvalues
  have hcount := count_of_validate h.valid
  have hbytes := length_decodeStoreValues hsmall hdecode
  refine hbytes.trans (Nat.mul_le_mul_right _ (hlength.trans hcount))

theorem Segment.unique {header' : SegmentHeader} {chunks' : List Bytes}
    (h : Segment keys storage blobId recordKey index header chunks)
    (h' : Segment keys storage blobId recordKey index header' chunks') :
    header = header' ∧ chunks = chunks' := by
  cases h.readable.symm.trans h'.readable
  exact ⟨rfl, Except.ok.inj (h.chunks.symm.trans h'.chunks)⟩

/-- A read has the number of bytes that it is to return. -/
def Filled (start stop length : Nat) (seen : Bytes) : Prop :=
  length ≤ (RangeRead.at start stop seen).output.length

instance (start stop length : Nat) (seen : Bytes) : Decidable (Filled start stop length seen) :=
  inferInstanceAs (Decidable (_ ≤ _))

variable {start stop length rounds begun : Nat} {known : Option SegmentHeader} {seen : Bytes}

variable (blobId) in
/-- A record is not a segment, or it gives its chunks and leads on. -/
theorem followChain_step (hshort : ShortValues storage) (hstop : start ≤ stop)
    (hknown : ∀ header ∈ known, readHeader keys storage recordKey = .ok header)
    (hindex : index < blobMaxSegments) (hseen : seen.length ≤ index * segmentBytes)
    (rounds begun : Nat) :
    (∃ e, followChain keys storage blobId start stop length (rounds + 1) recordKey index known
        (RangeRead.at start stop seen) begun = (.error (.refused e), begun + 1) ∧
      ¬ ∃ header chunks, Segment keys storage blobId recordKey index header chunks) ∨
    ∃ header chunks, Segment keys storage blobId recordKey index header chunks ∧
      followChain keys storage blobId start stop length (rounds + 1) recordKey index known
        (RangeRead.at start stop seen) begun =
      if Filled start stop length (seen ++ chunks.flatten) then
        (.ok (RangeRead.at start stop (seen ++ chunks.flatten), index), begun + 1)
      else match header.nextRecordKey with
        | none => (.ok (RangeRead.at start stop (seen ++ chunks.flatten), index), begun + 1)
        | some next =>
          if (keys.parse next).isNone then
            (.error (.refused (.invalidManifest "invalid next record key")), begun + 1)
          else if blobMaxSegments ≤ index + 1 then
            (.error (.refused .tooManySegments), begun + 1)
          else followChain keys storage blobId start stop length rounds next (index + 1) none
            (RangeRead.at start stop (seen ++ chunks.flatten)) (begun + 1) := by
  have hread : takeHeader keys storage recordKey known =
      ReadOp.refuse (readHeader keys storage recordKey) := by
    cases known with
    | none => rfl
    | some header =>
      rw [hknown header rfl]
      rfl
  rw [followChain, hread]
  cases hheader : readHeader keys storage recordKey with
  | error e =>
    refine .inl ⟨e, rfl, ?_⟩
    rintro ⟨header, chunks, hsegment⟩
    rw [hsegment.readable] at hheader
    cases hheader
  | ok header =>
    have honly : ∀ {header' chunks}, Segment keys storage blobId recordKey index header' chunks →
        header' = header := fun h => Except.ok.inj (h.readable.symm.trans hheader)
    cases hvalid : header.validate (some blobId) (UInt32.ofNat index) with
    | error e =>
      refine .inl ⟨e, ?_, ?_⟩
      · simp [bind, ReadOp.refuse, Fallible.lift, Fallible.modify, Except.mapError, hvalid]
      · rintro ⟨header', chunks, hsegment⟩
        obtain rfl := honly hsegment
        rw [hsegment.valid] at hvalid
        cases hvalid
    | ok done =>
      cases hvalues : readValues keys storage recordKey header with
      | error e =>
        refine .inl ⟨e, ?_, ?_⟩
        · simp [bind, ReadOp.refuse, Fallible.lift, Fallible.modify, Except.mapError, hvalid,
            hvalues]
        · rintro ⟨header', chunks, hsegment⟩
          obtain rfl := honly hsegment
          have hchunks := hsegment.chunks
          rw [readSegment_eq_bind, hvalues] at hchunks
          cases hchunks
      | ok values =>
        obtain ⟨hlength, hsmall⟩ := readValues_short hshort hvalues
        have hcount := count_of_validate hvalid
        have hroom : seen.length + values.length * maxAppStoreValueBytes < 2 ^ 64 := by
          unfold segmentBytes maxAppStoreValueBytes blobMaxSegments at *
          omega
        have htake := takeValues_at hstop hsmall hroom
        cases hdecode : decodeStoreValues values with
        | error e =>
          rw [hdecode] at htake
          refine .inl ⟨e, ?_, ?_⟩
          · simp [bind, ReadOp.refuse, Fallible.lift, Fallible.modify, Except.mapError,
              hvalid, hvalues, htake, Except.map]
          · rintro ⟨header', chunks, hsegment⟩
            obtain rfl := honly hsegment
            have hchunks := hsegment.chunks
            rw [readSegment_eq_bind, hvalues] at hchunks
            cases hdecode.symm.trans hchunks
        | ok chunks =>
          rw [hdecode] at htake
          refine .inr ⟨header, chunks, ⟨hheader, hvalid, ?_⟩, ?_⟩
          · rw [readSegment_eq_bind, hvalues]
            exact hdecode
          simp only [bind, ReadOp.refuse, Fallible.lift, Fallible.modify,
            Except.mapError, hvalid, hvalues, htake, Except.map]
          by_cases hfull : Filled start stop length (seen ++ chunks.flatten)
          · rw [if_pos hfull, if_pos (by exact hfull)]
            rfl
          rw [if_neg hfull, if_neg (by exact hfull)]
          cases header.nextRecordKey with
          | none => rfl
          | some next =>
            dsimp only
            split_ifs <;> rfl

/-- The bytes of segments. -/
def bytesOf (contents : List (List Bytes)) : Bytes := contents.flatten.flatten

@[simp] theorem bytesOf_cons (chunks : List Bytes) (contents : List (List Bytes)) :
    bytesOf (chunks :: contents) = chunks.flatten ++ bytesOf contents := by
  simp [bytesOf]

@[simp] theorem bytesOf_nil : bytesOf [] = [] := rfl

variable {contents : List (List Bytes)}

theorem Segments.ne_nil
    (h : Segments keys storage blobId recordKey index contents) : contents ≠ [] := by
  cases h with
  | last => exact List.cons_ne_nil _ _
  | link => exact List.cons_ne_nil _ _

/-- A read needs all of these segments: it is not complete after fewer of them. -/
def NeedsAll (complete : Bytes → Prop) (seen : Bytes) (contents : List (List Bytes)) : Prop :=
  ∀ front, front ≠ [] → front <+: contents → front ≠ contents → ¬ complete (seen ++ bytesOf front)

theorem needsAll_singleton (complete : Bytes → Prop) (seen : Bytes) (chunks : List Bytes) :
    NeedsAll complete seen [chunks] := by
  intro front hne hprefix hproper
  have hlength := hprefix.length_le
  obtain ⟨_, rfl⟩ : ∃ c, front = [c] := List.length_eq_one_iff.mp
    (le_antisymm hlength (List.length_pos_iff.mpr hne))
  obtain rfl : _ = chunks := by simpa using hprefix
  exact absurd rfl hproper

theorem needsAll_cons {complete : Bytes → Prop} (hne : contents ≠ []) :
    NeedsAll complete seen (chunks :: contents) ↔
      ¬ complete (seen ++ chunks.flatten) ∧ NeedsAll complete (seen ++ chunks.flatten) contents := by
  constructor
  · intro h
    constructor
    · have hfirst := h [chunks] (List.cons_ne_nil _ _) (by simp) (by simpa using hne.symm)
      simpa using hfirst
    · intro front hfront hprefix hproper
      have hmore := h (chunks :: front) (List.cons_ne_nil _ _) (by simpa using hprefix)
        (by simpa using hproper)
      simpa using hmore
  rintro ⟨hfirst, hrest⟩ front hfront hprefix hproper
  cases front with
  | nil => exact absurd rfl hfront
  | cons head front =>
    obtain ⟨rfl, htail⟩ : head = chunks ∧ front <+: contents := by simpa using hprefix
    by_cases hempty : front = []
    · subst hempty
      simpa using hfirst
    · have hmore := hrest front hempty htail (by simpa using hproper)
      simpa using hmore

variable (blobId) in
/-- The loop ends with an error, or with the bytes of the segments that it needed. -/
theorem followChain_sound (length : Nat) (hshort : ShortValues storage)
    (hstop : start ≤ stop) (hrounds : index + rounds = blobMaxSegments)
    (hindex : index < blobMaxSegments)
    (hknown : ∀ header ∈ known, readHeader keys storage recordKey = .ok header)
    (hseen : seen.length ≤ index * segmentBytes) (begun : Nat) :
    ∃ result begun', followChain keys storage blobId start stop length rounds recordKey index known
        (RangeRead.at start stop seen) begun = (result, begun') ∧ begun' ≤ begun + rounds ∧
      ((∃ e, result = .error (.refused e)) ∨
        ∃ contents last, Segments keys storage blobId recordKey index contents ∧
          NeedsAll (Filled start stop length) seen contents ∧
          result = .ok (RangeRead.at start stop (seen ++ bytesOf contents), last)) := by
  induction rounds generalizing index recordKey known seen begun with
  | zero => omega
  | succ rounds ih =>
    rcases followChain_step blobId hshort hstop hknown hindex hseen rounds begun with
      ⟨e, hrun, -⟩ | ⟨header, chunks, hsegment, hrun⟩
    · exact ⟨_, _, hrun, by omega, .inl ⟨e, rfl⟩⟩
    have hlast : ∃ contents last, Segments keys storage blobId recordKey index contents ∧
        NeedsAll (Filled start stop length) seen contents ∧
        (Except.ok (RangeRead.at start stop (seen ++ chunks.flatten), index) :
          Except Failure (RangeRead × Nat)) =
          .ok (RangeRead.at start stop (seen ++ bytesOf contents), last) :=
      ⟨[chunks], index, .last hsegment, needsAll_singleton _ _ _, by simp⟩
    rw [hrun]
    by_cases hfilled : Filled start stop length (seen ++ chunks.flatten)
    · exact ⟨_, _, if_pos hfilled, by omega, .inr hlast⟩
    rw [if_neg hfilled]
    cases hnext : header.nextRecordKey with
    | none => exact ⟨_, _, rfl, by omega, .inr hlast⟩
    | some next =>
      dsimp only
      split_ifs with hparse hmany
      · exact ⟨_, _, rfl, by omega, .inl ⟨_, rfl⟩⟩
      · exact ⟨_, _, rfl, by omega, .inl ⟨_, rfl⟩⟩
      have hbytes := hsegment.length_flatten hshort
      have hseen' : (seen ++ chunks.flatten).length ≤ (index + 1) * segmentBytes := by
        rw [List.length_append, Nat.succ_mul]
        omega
      obtain ⟨result, begun', hrest, hbegun, hends⟩ := @ih next (index + 1) none _
        (by omega) (by omega) (by simp) hseen' (begun + 1)
      refine ⟨result, begun', hrest, by omega, hends.imp_right ?_⟩
      rintro ⟨contents, last, hsegments, hneeds, hresult⟩
      refine ⟨chunks :: contents, last, .link hsegment hnext ?_ (by omega) hsegments,
        (needsAll_cons hsegments.ne_nil).mpr ⟨hfilled, hneeds⟩, ?_⟩
      · simpa [Option.isSome_iff_ne_none] using hparse
      · rw [hresult, bytesOf_cons, List.append_assoc]

/-- Segments that are needed and suffice are what the loop reads. -/
theorem followChain_complete (hshort : ShortValues storage)
    (hstop : start ≤ stop) (hrounds : index + rounds = blobMaxSegments)
    (hindex : index < blobMaxSegments)
    (hknown : ∀ header ∈ known, readHeader keys storage recordKey = .ok header)
    (hseen : seen.length ≤ index * segmentBytes)
    (hsegments : Segments keys storage blobId recordKey index contents)
    (hneeds : NeedsAll (Filled start stop length) seen contents)
    (hfilled : Filled start stop length (seen ++ bytesOf contents)) (begun : Nat) :
    ∃ last begun', followChain keys storage blobId start stop length rounds recordKey index known
        (RangeRead.at start stop seen) begun =
      (.ok (RangeRead.at start stop (seen ++ bytesOf contents), last), begun') := by
  induction hsegments generalizing rounds known seen begun with
  | @last recordKey index header chunks hsegment =>
    obtain ⟨rounds, rfl⟩ : ∃ n, rounds = n + 1 := ⟨rounds - 1, by omega⟩
    rcases followChain_step blobId hshort hstop hknown hindex hseen rounds begun with
      ⟨e, -, hnone⟩ | ⟨header', chunks', hsegment', hrun⟩
    · exact absurd ⟨header, chunks, hsegment⟩ hnone
    obtain ⟨rfl, rfl⟩ := hsegment.unique hsegment'
    rw [bytesOf_cons, bytesOf_nil, List.append_nil] at hfilled ⊢
    rw [hrun, if_pos hfilled]
    exact ⟨_, _, rfl⟩
  | @link recordKey next index header chunks contents hsegment hnext hparse hmore hrest ih =>
    obtain ⟨rounds, rfl⟩ : ∃ n, rounds = n + 1 := ⟨rounds - 1, by omega⟩
    rcases followChain_step blobId hshort hstop hknown hindex hseen rounds begun with
      ⟨e, -, hnone⟩ | ⟨header', chunks', hsegment', hrun⟩
    · exact absurd ⟨header, chunks, hsegment⟩ hnone
    obtain ⟨rfl, rfl⟩ := hsegment.unique hsegment'
    obtain ⟨hfirst, hneeds⟩ := (needsAll_cons hrest.ne_nil).mp hneeds
    have hbytes := hsegment.length_flatten hshort
    have hparsed : ¬ (keys.parse next).isNone := by
      simpa [Option.isSome_iff_ne_none] using hparse
    rw [bytesOf_cons, ← List.append_assoc] at hfilled ⊢
    rw [hrun, if_neg hfirst, hnext]
    dsimp only
    rw [if_neg hparsed, if_neg (by omega)]
    have hseen' : (seen ++ chunks.flatten).length ≤ (index + 1) * segmentBytes := by
      rw [List.length_append, Nat.succ_mul]
      omega
    exact @ih rounds none _ (by omega) hmore (by simp) hseen' hneeds hfilled _

/-! ## Range reads -/

variable {sha256 : Bytes → Hash32} {heap : Nat} {root : SegmentHeader} {total : UInt64}
  {hash : Hash32} {offset length : UInt64}

/-- What a range read is to be like. -/
structure ReadsSafely (keys : RecordKeys) (sha256 : Bytes → Hash32) (storage : AppStorage)
    (recordKey : Bytes) (offset length : UInt64)
    (run : Except Failure (BlobDescriptor × Bytes) × Nat) : Prop where
  calm : ∀ reason, run.1 ≠ .error (.panicked reason)
  short : run.2 ≤ blobMaxSegments
  part : ∀ blob bytes, run.1 = .ok (blob, bytes) → bytes.length = length.toNat ∧
    ∃ root contents, Declares keys storage recordKey root blob.totalBytes blob.sha256 ∧
      Segments keys storage root.blobId recordKey 0 contents ∧
      bytes = ((bytesOf contents).drop offset.toNat).take length.toNat
  whole : ∀ blob bytes, run.1 = .ok (blob, bytes) → offset = 0 → length = blob.totalBytes →
    sha256 bytes = blob.sha256

/-- The segments that reach the declared number of bytes have just that many, or else the hash
tells. -/
def TotalAgrees (keys : RecordKeys) (sha256 : Bytes → Hash32) (storage : AppStorage)
    (blobId recordKey : Bytes) (total : UInt64) (hash : Hash32) : Prop :=
  ∀ contents, Segments keys storage blobId recordKey 0 contents →
    NeedsAll (total.toNat ≤ ·.length) [] contents → total.toNat ≤ (bytesOf contents).length →
    (bytesOf contents).length = total.toNat ∨ sha256 (bytesOf contents) ≠ hash ∨
      sha256 ((bytesOf contents).take total.toNat) = hash

theorem Declares.unique {root' : SegmentHeader} {total' : UInt64} {hash' : Hash32}
    (h : Declares keys storage recordKey root total hash)
    (h' : Declares keys storage recordKey root' total' hash') :
    root = root' ∧ total = total' ∧ hash = hash' := by
  cases h.readable.symm.trans h'.readable
  exact ⟨rfl, Option.some.inj (h.total.symm.trans h'.total),
    Option.some.inj (h.hash.symm.trans h'.hash)⟩

/-- A request is refused right away, or it asks for a part of what the root declares. -/
theorem readForeignRange_cases (keys : RecordKeys) (sha256 : Bytes → Hash32) (heap : Nat)
    (storage : AppStorage) (recordKey : Bytes) (offset length : UInt64) :
    ((∃ e, readForeignRange keys sha256 heap storage recordKey offset length 0 =
        (.error (.refused e), 0)) ∧
      ¬ ∃ root total hash, Declares keys storage recordKey root total hash ∧
        offset.toNat + length.toNat ≤ total.toNat) ∨
    ∃ root total hash, Declares keys storage recordKey root total hash ∧
      offset.toNat + length.toNat ≤ total.toNat ∧
      readForeignRange keys sha256 heap storage recordKey offset length 0 =
        (do
          Fallible.lift (withCapacity heap length.toNat)
          let (read, lastIndex) ← followChain keys storage root.blobId offset.toNat
            (offset.toNat + length.toNat) length.toNat blobMaxSegments recordKey 0 (some root)
            (RangeRead.at offset.toNat (offset.toNat + length.toNat) [])
          if read.output.length ≠ length.toNat then
            ReadOp.refuse (.error (.invalidManifest "blob chain ended before requested range"))
          else if offset = 0 ∧ length = total ∧ sha256 read.seen ≠ hash then
            ReadOp.refuse (.error .integrityMismatch)
          else
            pure ({ blobId := root.blobId
                    rootRecordKey := recordKey
                    contentType := root.contentType.getD octetStream
                    totalBytes := total
                    segmentCount := root.segmentCount.getD (UInt32.ofNat lastIndex + 1)
                    sha256 := hash
                    createdAt := root.createdAt
                    finalizedAt := root.finalizedAt.getD 0 }, read.output) :
          ReadOp (BlobDescriptor × Bytes)) 0 := by
  unfold readForeignRange
  cases hroot : readHeader keys storage recordKey with
  | error e =>
    refine .inl ⟨⟨e, rfl⟩, ?_⟩
    rintro ⟨root, total, hash, hdeclares, -⟩
    rw [hdeclares.readable] at hroot
    cases hroot
  | ok root =>
    have honly : ∀ {root' total hash}, Declares keys storage recordKey root' total hash →
        root' = root := fun h => Except.ok.inj (h.readable.symm.trans hroot)
    cases hvalid : root.validate none 0 with
    | error e =>
      refine .inl ⟨⟨e, ?_⟩, ?_⟩
      · simp [bind, ReadOp.refuse, Fallible.lift, Except.mapError, hvalid]
      · rintro ⟨root', total, hash, hdeclares, -⟩
        obtain rfl := honly hdeclares
        cases hvalid.symm.trans hdeclares.valid
    | ok done =>
      cases htotal : root.totalBytes with
      | none =>
        refine .inl ⟨⟨.invalidManifest "root segment is not finalized", ?_⟩, ?_⟩
        · simp [bind, ReadOp.refuse, Fallible.lift, Except.mapError, hvalid, htotal]
        · rintro ⟨root', total, hash, hdeclares, -⟩
          obtain rfl := honly hdeclares
          cases htotal.symm.trans hdeclares.total
      | some total =>
        cases hhash : root.sha256 with
        | none =>
          refine .inl ⟨⟨.invalidManifest "root hash missing", ?_⟩, ?_⟩
          · simp [bind, ReadOp.refuse, Fallible.lift, Except.mapError, hvalid, htotal, hhash]
          · rintro ⟨root', total, hash, hdeclares, -⟩
            obtain rfl := honly hdeclares
            cases hhash.symm.trans hdeclares.hash
        | some hash =>
          have hdeclares : Declares keys storage recordKey root total hash :=
            ⟨hroot, hvalid, htotal, hhash⟩
          have hlarge := total.toNat_lt
          by_cases hfits : offset.toNat + length.toNat ≤ total.toNat
          · refine .inr ⟨root, total, hash, hdeclares, hfits, ?_⟩
            have hinside : ¬ (2 ^ 64 ≤ offset.toNat + length.toNat ∨ total.toNat < offset.toNat ∨
                total.toNat < offset.toNat + length.toNat) := by omega
            simp only [bind, ReadOp.refuse, Fallible.lift, Except.mapError, hvalid, htotal,
              hhash, RangeRead.at_nil]
            exact congrFun (if_neg hinside) 0
          refine .inl ⟨⟨.rangeOutsideBlob, ?_⟩, ?_⟩
          · have houtside : 2 ^ 64 ≤ offset.toNat + length.toNat ∨ total.toNat < offset.toNat ∨
                total.toNat < offset.toNat + length.toNat := by omega
            simp only [bind, ReadOp.refuse, Fallible.lift, Except.mapError, hvalid, htotal, hhash]
            exact congrFun (if_pos houtside) 0
          · rintro ⟨root', total', hash', hdeclares', hfits'⟩
            obtain ⟨-, rfl, -⟩ := hdeclares.unique hdeclares'
            exact hfits hfits'

theorem filled_whole (total : Nat) (seen : Bytes) :
    Filled 0 (0 + total) total seen ↔ total ≤ seen.length := by
  simp [Filled, RangeRead.at]

theorem output_at (start length : Nat) (seen : Bytes) :
    (RangeRead.at start (start + length) seen).output = (seen.drop start).take length := by
  rw [RangeRead.at, List.drop_take, Nat.add_sub_cancel_left]

theorem ReadsSafely.of_refused {error : BlobStoreError} (h : begun ≤ blobMaxSegments) :
    ReadsSafely keys sha256 storage recordKey offset length (.error (.refused error), begun) :=
  ⟨fun _ h => (by cases h), h, fun _ _ h => (by cases h), fun _ _ h => (by cases h)⟩

/-- The end of a range read, once the loop has run. -/
theorem readsSafely_end_iff (hdeclares : Declares keys storage recordKey root total hash)
    (hsegments : Segments keys storage root.blobId recordKey 0 contents)
    (hbegun : begun ≤ blobMaxSegments) (honly : offset = 0 → length = total → ∀ contents',
      Segments keys storage root.blobId recordKey 0 contents' →
      NeedsAll (total.toNat ≤ ·.length) [] contents' →
      total.toNat ≤ (bytesOf contents').length → bytesOf contents' = bytesOf contents)
    (hneeds : offset = 0 → length = total → NeedsAll (total.toNat ≤ ·.length) [] contents)
    (read : RangeRead)
    (hread : read = RangeRead.at offset.toNat (offset.toNat + length.toNat) (bytesOf contents))
    (blob : BlobDescriptor) (htotal : blob.totalBytes = total) (hhash : blob.sha256 = hash) :
    ReadsSafely keys sha256 storage recordKey offset length
        ((if read.output.length ≠ length.toNat then
            ReadOp.refuse (.error (.invalidManifest "blob chain ended before requested range"))
          else if offset = 0 ∧ length = total ∧ sha256 read.seen ≠ hash then
            ReadOp.refuse (.error .integrityMismatch)
          else pure (blob, read.output) : ReadOp (BlobDescriptor × Bytes)) begun) ↔
      (offset = 0 → length = total →
        TotalAgrees keys sha256 storage root.blobId recordKey total hash) := by
  have hseen : read.seen = bytesOf contents := by rw [hread]; rfl
  have houtput : read.output = ((bytesOf contents).drop offset.toNat).take length.toNat := by
    rw [hread, output_at]
  by_cases hlength : read.output.length ≠ length.toNat
  · rw [if_pos hlength]
    refine iff_of_true (.of_refused hbegun) fun hoffset hwhole contents' hsegments' hneeds'
      hlong => ?_
    rw [honly hoffset hwhole contents' hsegments' hneeds' hlong] at hlong
    subst hoffset hwhole
    rw [houtput, List.length_take] at hlength
    simp [hlong] at hlength
  rw [if_neg hlength]
  by_cases hmismatch : offset = 0 ∧ length = total ∧ sha256 read.seen ≠ hash
  · rw [if_pos hmismatch]
    refine iff_of_true (.of_refused hbegun) fun hoffset hwhole contents' hsegments' hneeds'
      hlong => ?_
    rw [honly hoffset hwhole contents' hsegments' hneeds' hlong, ← hseen]
    exact .inr (.inl hmismatch.2.2)
  rw [if_neg hmismatch]
  rw [not_not] at hlength
  have hpart : ∀ blob' bytes, (Except.ok (blob, read.output) : Except Failure _) =
      .ok (blob', bytes) → blob' = blob ∧ bytes = read.output := by
    intro blob' bytes h
    cases h
    exact ⟨rfl, rfl⟩
  constructor
  · intro hsafe hoffset hwhole contents' hsegments' hneeds' hlong
    have hsame := honly hoffset hwhole contents' hsegments' hneeds' hlong
    have hanswer := hsafe.whole blob read.output rfl hoffset (hwhole.trans htotal.symm)
    rw [hsame]
    subst hoffset hwhole
    rw [houtput, hhash] at hanswer
    exact .inr (.inr hanswer)
  intro hagrees
  refine ⟨fun _ h => (by cases h), hbegun, fun blob' bytes h => ?_, fun blob' bytes h => ?_⟩
  · obtain ⟨rfl, rfl⟩ := hpart blob' bytes h
    exact ⟨hlength, root, contents, by rwa [htotal, hhash], hsegments, houtput⟩
  obtain ⟨rfl, rfl⟩ := hpart blob' bytes h
  intro hoffset hwhole
  rw [htotal] at hwhole
  have hmatch : sha256 read.seen = hash := by
    by_contra hne
    exact hmismatch ⟨hoffset, hwhole, hne⟩
  have hlong : total.toNat ≤ (bytesOf contents).length := by
    rw [houtput, List.length_take] at hlength
    subst hoffset hwhole
    simpa using hlength
  rw [hhash, houtput]
  subst hoffset hwhole
  rw [hseen] at hmatch
  rcases hagrees rfl rfl contents hsegments (hneeds rfl rfl) hlong with hexact | hne | hfirst
  · have hall : ((bytesOf contents).drop (0 : UInt64).toNat).take length.toNat =
        bytesOf contents := List.take_of_length_le hexact.le
    rw [hall, hmatch]
  · exact absurd hmatch hne
  · exact hfirst

/-- A range read of any records panics for want of memory or not at all, reads no more segments than
a blob may have, and returns what lies at the offset. Of a whole blob it returns what the root has
the hash of exactly if the declared number of bytes is that of the segments, or else the hash
tells. -/
theorem foreign_read_safe_iff (keys : RecordKeys) (sha256 : Bytes → Hash32) (heap : Nat)
    {storage : AppStorage} (hshort : ShortValues storage) (recordKey : Bytes)
    (offset length : UInt64) :
    ReadsSafely keys sha256 storage recordKey offset length
        (readForeignRange keys sha256 heap storage recordKey offset length 0) ↔
      ∀ root total hash, Declares keys storage recordKey root total hash →
        offset.toNat + length.toNat ≤ total.toNat → length.toNat ≤ largestBuffer heap ∧
        (offset = 0 → length = total →
          TotalAgrees keys sha256 storage root.blobId recordKey total hash) := by
  rcases readForeignRange_cases keys sha256 heap storage recordKey offset length with
    ⟨⟨e, hrun⟩, hnone⟩ | ⟨root, total, hash, hdeclares, hfits, hrun⟩
  · rw [hrun]
    refine ⟨fun _ root total hash hdeclares hfits => absurd ⟨root, total, hash, hdeclares, hfits⟩
      hnone, fun _ => ⟨fun _ h => (by cases h), Nat.zero_le _, fun _ _ h => (by cases h),
      fun _ _ h => (by cases h)⟩⟩
  rw [hrun]
  have hthis : (∀ root' total' hash', Declares keys storage recordKey root' total' hash' →
      offset.toNat + length.toNat ≤ total'.toNat → length.toNat ≤ largestBuffer heap ∧
      (offset = 0 → length = total' →
        TotalAgrees keys sha256 storage root'.blobId recordKey total' hash')) ↔
      length.toNat ≤ largestBuffer heap ∧ (offset = 0 → length = total →
        TotalAgrees keys sha256 storage root.blobId recordKey total hash) := by
    refine ⟨fun h => h root total hash hdeclares hfits, fun h root' total' hash' hdeclares' _ => ?_⟩
    obtain ⟨rfl, rfl, rfl⟩ := hdeclares.unique hdeclares'
    exact h
  rw [hthis]
  by_cases hbuffer : length.toNat ≤ largestBuffer heap
  · have hcapacity : withCapacity heap length.toNat = .ok () := if_pos hbuffer
    have hknown : ∀ header ∈ some root, readHeader keys storage recordKey = .ok header := by
      rintro header ⟨⟩
      exact hdeclares.readable
    have hnothing : ([] : Bytes).length ≤ 0 * segmentBytes := Nat.zero_le _
    obtain ⟨result, begun, hchain, hbegun, hends⟩ := followChain_sound root.blobId length.toNat
      hshort (Nat.le_add_right offset.toNat length.toNat) (Nat.zero_add _) (by decide) hknown
      hnothing 0
    -- of a whole blob the loop reads what reaches the declared number of bytes
    have hreaches : offset = 0 → length = total → ∀ contents,
        Segments keys storage root.blobId recordKey 0 contents →
        NeedsAll (total.toNat ≤ ·.length) [] contents → total.toNat ≤ (bytesOf contents).length →
        ∃ last, result = .ok (RangeRead.at offset.toNat (offset.toNat + length.toNat)
          (bytesOf contents), last) := by
      rintro rfl rfl contents hsegments hneeds hlong
      have hfilled := fun seen => filled_whole length.toNat seen
      obtain ⟨last, begun', hcomplete⟩ := followChain_complete hshort
        (Nat.le_add_right (0 : UInt64).toNat length.toNat) (Nat.zero_add _) (by decide) hknown
        hnothing hsegments (fun front hne hprefix hproper h =>
          hneeds front hne hprefix hproper ((hfilled _).mp h)) ((hfilled _).mpr hlong) 0
      exact ⟨last, (Prod.mk.inj (hchain.symm.trans hcomplete)).1⟩
    simp only [hbuffer, true_and]
    rcases hends with ⟨e, rfl⟩ | ⟨contents, last, hsegments, hneeds, rfl⟩
    · have hrun : ∀ k, (Fallible.lift (withCapacity heap length.toNat) >>= fun _ =>
          followChain keys storage root.blobId offset.toNat (offset.toNat + length.toNat)
            length.toNat blobMaxSegments recordKey 0 (some root)
            (RangeRead.at offset.toNat (offset.toNat + length.toNat) []) >>= k :
          ReadOp (BlobDescriptor × Bytes)) 0 = (.error (.refused e), begun) := by
        intro k
        rw [Fallible.bind_ok (show Fallible.lift (withCapacity heap length.toNat) 0 = (.ok (), 0)
          from congrArg (·, 0) hcapacity), Fallible.bind_error hchain]
      rw [hrun]
      refine iff_of_true (.of_refused (by omega)) fun hoffset hwhole contents hsegments hneeds
        hlong => ?_
      obtain ⟨last, hresult⟩ := hreaches hoffset hwhole contents hsegments hneeds hlong
      cases hresult
    rw [Fallible.bind_ok (show Fallible.lift (withCapacity heap length.toNat) 0 = (.ok (), 0)
      from congrArg (·, 0) hcapacity), Fallible.bind_ok hchain]
    refine readsSafely_end_iff hdeclares hsegments (by omega) ?_ ?_ _ (by rw [List.nil_append]) _
      rfl rfl
    · intro hoffset hwhole contents' hsegments' hneeds' hlong
      obtain ⟨last', hresult⟩ := hreaches hoffset hwhole contents' hsegments' hneeds' hlong
      have hread := (Prod.mk.inj (Except.ok.inj hresult)).1
      exact (congrArg RangeRead.seen hread).symm
    · rintro rfl rfl front hne hprefix hproper hlong
      exact hneeds front hne hprefix hproper ((filled_whole _ _).mpr hlong)
  have hcapacity : withCapacity heap length.toNat = .error (.panicked "capacity overflow") :=
    if_neg hbuffer
  constructor
  · intro hsafe
    exact absurd (by simp only [bind, Fallible.lift, hcapacity]) (hsafe.calm "capacity overflow")
  · rintro ⟨h, -⟩
    exact absurd h hbuffer

end Reads

/-! ### Samples -/

namespace PublicSample

/-- The hashes of `ab` and of other samples. -/
def hash (data : Bytes) : Hash32 :=
  if data = [97, 98] then
    ⟨[0xfb, 0x8e, 0x20, 0xfc, 0x2e, 0x4c, 0x3f, 0x24, 0x8c, 0x60, 0xc3, 0x9b, 0xd6, 0x52, 0xf3,
      0xc1, 0x34, 0x72, 0x98, 0xbb, 0x97, 0x7b, 0x8b, 0x4d, 0x59, 0x03, 0xb8, 0x50, 0x55,
      0x62, 0x06, 0x03], rfl⟩
  else sampleSha256 data

/-- The header of a record with the text `abc`, as its publisher declares it. -/
def header (total : UInt64) (sha256 : Hash32) : SegmentHeader where
  magic := segmentMagic
  version := segmentVersion
  blobId := [98]
  segmentIndex := 0
  chunkCount := 1
  payloadBytes := 3
  nextRecordKey := none
  contentType := none
  totalBytes := some total
  segmentCount := some 1
  sha256 := some sha256
  createdAt := 7
  finalizedAt := some 9

def published (total : UInt64) (sha256 : Hash32) : AppStorage where
  stores := [fun location =>
    if location = 0 then some (SegmentHeader.codec.encode (header total sha256))
    else if location = 1 then some [97, 98, 99] else none]

def root : Bytes := sampleKeys.text 0

/-- The least size that no buffer has. -/
def huge : UInt64 := 9223372036854775808

theorem huge_declared :
    Declares sampleKeys (published huge (hash [])) root (header huge (hash [])) huge (hash []) :=
  ⟨by decide +kernel, by decide +kernel, rfl, rfl⟩

/-- A declared size that no buffer has, and one that is less than what is stored. -/
theorem foreign_reads_go_wrong :
    (∀ heap, (readForeignRange sampleKeys hash heap (published huge (hash [])) root 0 huge 0).1 =
      .error (.panicked "capacity overflow")) ∧
    ∃ blob, (readForeignRange sampleKeys hash 1024 (published 2 (hash [97, 98, 99])) root 0 2 0).1 =
      .ok (blob, [97, 98]) ∧ blob.totalBytes = 2 ∧ blob.sha256 = hash [97, 98, 99] ∧
      hash [97, 98] ≠ blob.sha256 := by
  constructor
  · intro heap
    rcases readForeignRange_cases sampleKeys hash heap (published huge (hash [])) root 0 huge with
      ⟨-, hnone⟩ | ⟨_, _, _, _, _, hrun⟩
    · exact absurd ⟨_, _, _, huge_declared, by decide⟩ hnone
    · have hbuffer : withCapacity heap huge.toNat = .error (.panicked "capacity overflow") := by
        refine if_neg (Nat.not_le.mpr ((min_le_right _ _).trans_lt ?_))
        decide
      rw [hrun]
      simp only [bind, Fallible.lift, hbuffer]
  · refine ⟨⟨[98], root, octetStream, 2, 1, hash [97, 98, 99], 7, 9⟩, ?_⟩
    decide +kernel

theorem published_short : ShortValues (published 3 (hash [97, 98, 99])) := by
  intro record hrecord location value hvalue
  obtain rfl := List.mem_singleton.mp hrecord
  dsimp only at hvalue
  split_ifs at hvalue
  · cases hvalue
    decide +kernel
  · cases hvalue
    decide

/-- An honest record is read as it is to be. -/
theorem foreign_read_safe_published : ReadsSafely sampleKeys hash
    (published 3 (hash [97, 98, 99])) root 1 2
    (readForeignRange sampleKeys hash 1024 (published 3 (hash [97, 98, 99])) root 1 2 0) := by
  refine (foreign_read_safe_iff sampleKeys hash 1024 published_short root 1 2).mpr ?_
  intro root total hash _ _
  exact ⟨by decide, fun h => absurd h (by decide)⟩

end PublicSample

end VeilKnit.BlobStore
