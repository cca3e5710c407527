import VeilKnit.BlobStore.Storage

/-!
# Blobs

A blob is a chain of segments. Subkey 0 of a segment's record holds its header, the subkeys
after it hold a chunk of the blob's bytes each. The header of the first segment says, once the
upload is finished, how many bytes there are and what their hash is; each header names the
record of the next segment.

An upload appends pieces of any size; each piece is cut into chunks of its own.
-/

namespace VeilKnit.BlobStore

open Library

def segmentMagic : { bytes : Bytes // bytes.length = 4 } := ⟨[86, 75, 66, 83], rfl⟩

def segmentVersion : UInt16 := 1

def blobSegmentSubkeys : UInt32 := 64

def blobDataSubkeysPerSegment : UInt32 := 63

def blobChunkBytes : Nat := 12 * 1024

def blobMaxAppendBytes : Nat := 512 * 1024

def blobMaxSegments : Nat := 256

def blobMaxBytes : Nat := blobChunkBytes * blobDataSubkeysPerSegment.toNat * blobMaxSegments

def blobMaxContentTypeBytes : Nat := 128

inductive BlobStoreError
  | uploadNotFound
  | blobNotFound
  | uploadAlreadyFinished
  | invalidContentType
  | emptyAppend
  | appendTooLarge (size : Nat)
  | blobTooLarge (size : Nat)
  | tooManySegments
  | invalidManifest (reason : String)
  | integrityMismatch
  | rangeOutsideBlob
  | storage (error : AppServiceError)
  deriving DecidableEq

abbrev Hash32 := { bytes : Bytes // bytes.length = 32 }

/-- An identifier in its simple form, thirty-two hexadecimal digits. -/
abbrev UuidText := { bytes : Bytes // bytes.length = 32 }

structure BlobDescriptor where
  blobId : Bytes
  rootRecordKey : Bytes
  contentType : Bytes
  totalBytes : UInt64
  segmentCount : UInt32
  sha256 : Hash32
  createdAt : UInt64
  finalizedAt : UInt64
  deriving DecidableEq

structure SegmentHeader where
  magic : { bytes : Bytes // bytes.length = 4 }
  version : UInt16
  blobId : Bytes
  segmentIndex : UInt32
  chunkCount : UInt32
  payloadBytes : UInt64
  nextRecordKey : Option Bytes
  contentType : Option Bytes
  totalBytes : Option UInt64
  segmentCount : Option UInt32
  sha256 : Option Hash32
  createdAt : UInt64
  finalizedAt : Option UInt64
  deriving DecidableEq

def SegmentHeader.codec : Codec SegmentHeader :=
  ((Codec.array 4).pair <| Codec.u16.pair <| Codec.bytes.pair <| Codec.u32.pair <|
      Codec.u32.pair <| Codec.u64.pair <| Codec.bytes.option.pair <| Codec.bytes.option.pair <|
      Codec.u64.option.pair <| Codec.u32.option.pair <| (Codec.array 32).option.pair <|
      Codec.u64.pair Codec.u64.option).imap
    (fun (magic, version, blobId, segmentIndex, chunkCount, payloadBytes, nextRecordKey,
        contentType, totalBytes, segmentCount, sha256, createdAt, finalizedAt) =>
      ⟨magic, version, blobId, segmentIndex, chunkCount, payloadBytes, nextRecordKey,
        contentType, totalBytes, segmentCount, sha256, createdAt, finalizedAt⟩)
    (fun h => (h.magic, h.version, h.blobId, h.segmentIndex, h.chunkCount, h.payloadBytes,
      h.nextRecordKey, h.contentType, h.totalBytes, h.segmentCount, h.sha256, h.createdAt,
      h.finalizedAt))
    (fun _ => rfl)

def SegmentHeader.validate (header : SegmentHeader) (expectedBlobId : Option Bytes)
    (expectedIndex : UInt32) : Except BlobStoreError Unit :=
  if header.magic ≠ segmentMagic ∨ header.version ≠ segmentVersion then
    .error (.invalidManifest "unknown magic or version")
  else if header.segmentIndex ≠ expectedIndex then
    .error (.invalidManifest "segment index mismatch")
  else if ∃ expected ∈ expectedBlobId, header.blobId ≠ expected then
    .error (.invalidManifest "blob id changed between segments")
  else if blobDataSubkeysPerSegment < header.chunkCount then
    .error (.invalidManifest "chunk count exceeds segment capacity")
  else .ok ()

structure UploadSegment where
  storeId : Nat
  recordKey : Bytes
  chunkCount : UInt32
  payloadBytes : UInt64

structure UploadState where
  blobId : Bytes
  applicationId : Bytes
  contentType : Bytes
  segments : List UploadSegment
  committedBytes : UInt64
  createdAt : UInt64
  finalized : Bool

structure StoredBlob where
  applicationId : Bytes
  descriptor : BlobDescriptor
  segmentStoreIds : List Nat

/-- The blob store of an application: its records, the uploads that are going on and the
blobs that are finished. -/
structure BlobStoreManager where
  storage : AppStorage
  uploads : AList fun _ : UuidText => UploadState
  blobs : AList fun _ : Bytes => StoredBlob

/-- An operation on the blob store. What it has written stays written when it fails. -/
abbrev BlobOp := Fallible BlobStoreError BlobStoreManager

variable (keys : RecordKeys) (sha256 : Bytes → Hash32)

/-! ## Access to the storage -/

def readStore {α : Type} (f : BlobStoreManager → Except BlobStoreError α) : BlobOp α :=
  fun s => (f s, s)

def modifyStore (f : BlobStoreManager → BlobStoreManager) : BlobOp Unit := fun s => (.ok (), f s)

def writeOwn (store : Nat) (location : UInt32) (value : Bytes) : BlobOp Unit := fun s =>
  match s.storage.writeOwn blobSegmentSubkeys store location value with
  | .ok storage => (.ok (), { s with storage })
  | .error error => (.error (.storage error), s)

def decodeStoreValue (value : AppStoreReadValue) : Except BlobStoreError Bytes :=
  match value.error with
  | some error => .error (.invalidManifest error)
  | none =>
    if value.isNull then .error (.invalidManifest s!"subkey {value.location} is null")
    else match value.value with
      | some bytes => .ok bytes
      | none => .error (.invalidManifest s!"subkey {value.location} has no value")

def writeHeader (store : Nat) (header : SegmentHeader) : BlobOp Unit :=
  let bytes := SegmentHeader.codec.encode header
  if blobChunkBytes < bytes.length then
    Fallible.throw (.invalidManifest "segment header too large")
  else writeOwn store 0 bytes

/-- The locations of a number of chunks. -/
def chunkLocations (chunkCount : UInt32) : List UInt32 :=
  (List.range chunkCount.toNat).map fun i => UInt32.ofNat (i + 1)

/-! ## Uploads -/

def createInternalStore : BlobOp Nat := fun s =>
  match s.storage.createInternalStore with
  | .ok (store, storage) => (.ok store, { s with storage })
  | .error error => (.error (.storage error), s)

/-- The header of a segment without chunks. -/
def SegmentHeader.empty (blobId : Bytes) (index : UInt32) (contentType : Bytes)
    (createdAt : UInt64) : SegmentHeader where
  magic := segmentMagic
  version := segmentVersion
  blobId
  segmentIndex := index
  chunkCount := 0
  payloadBytes := 0
  nextRecordKey := none
  contentType := if index = 0 then some contentType else none
  totalBytes := none
  segmentCount := none
  sha256 := none
  createdAt
  finalizedAt := none

/-- A record for a segment, with the header of an empty one. -/
def createSegment (blobId : Bytes) (index : UInt32) (contentType : Bytes) (createdAt : UInt64) :
    BlobOp Nat := do
  let store ← createInternalStore
  writeHeader store (.empty blobId index contentType createdAt)
  pure store

namespace UploadState

/-- The header of a segment; once the upload is finished, with the hash and the time. -/
def makeHeader (state : UploadState) (index : Nat) (segment : UploadSegment)
    (next : Option Bytes) (finalData : Option (Hash32 × UInt64)) : SegmentHeader where
  magic := segmentMagic
  version := segmentVersion
  blobId := state.blobId
  segmentIndex := UInt32.ofNat index
  chunkCount := segment.chunkCount
  payloadBytes := segment.payloadBytes
  nextRecordKey := next
  contentType := if index = 0 then some state.contentType else none
  totalBytes := if index = 0 ∧ finalData.isSome then some state.committedBytes else none
  segmentCount :=
    if index = 0 ∧ finalData.isSome then some (UInt32.ofNat state.segments.length) else none
  sha256 := if index = 0 then finalData.map Prod.fst else none
  createdAt := state.createdAt
  finalizedAt := finalData.map Prod.snd

/-- The next segment, with its link from the one before. -/
def addSegment (state : UploadState) : BlobOp UploadState :=
  if blobMaxSegments ≤ state.segments.length then Fallible.throw .tooManySegments
  else do
    let store ← createSegment state.blobId (UInt32.ofNat state.segments.length)
      state.contentType state.createdAt
    match state.segments.getLast? with
    | none => Fallible.throw (.invalidManifest "missing previous segment")
    | some previous => do
      writeHeader previous.storeId
        (state.makeHeader (state.segments.length - 1) previous (some (keys.text store)) none)
      pure { state with segments := state.segments ++ [
        { storeId := store, recordKey := keys.text store, chunkCount := 0, payloadBytes := 0 }] }

/-- Store a chunk in the last segment. -/
def storeChunk (state : UploadState) (chunk : Bytes) : BlobOp UploadState :=
  match state.segments.getLast? with
  | none => Fallible.throw (.invalidManifest "missing previous segment")
  | some segment => do
    writeOwn segment.storeId (segment.chunkCount + 1) chunk
    let segment :=
      { segment with
        chunkCount := segment.chunkCount + 1
        payloadBytes := segment.payloadBytes + UInt64.ofNat chunk.length }
    let state :=
      { state with
        segments := state.segments.dropLast ++ [segment]
        committedBytes := state.committedBytes + UInt64.ofNat chunk.length }
    writeHeader segment.storeId (state.makeHeader (state.segments.length - 1) segment none none)
    pure state

/-- Store a chunk, in a new segment if the last one is full. -/
def appendChunk (state : UploadState) (chunk : Bytes) : BlobOp UploadState := do
  let chunkCount := (state.segments.getLast?.map (·.chunkCount)).getD blobDataSubkeysPerSegment
  let state ←
    if blobDataSubkeysPerSegment ≤ chunkCount then state.addSegment keys else pure state
  state.storeChunk chunk

end UploadState

/-- The chunks of a piece: as long as possible, in order. -/
def chunksOf (data : Bytes) : List Bytes :=
  (List.range ((data.length + (blobChunkBytes - 1)) / blobChunkBytes)).map fun i =>
    (data.drop (i * blobChunkBytes)).take blobChunkBytes

def appendChunks (state : UploadState) : List Bytes → BlobOp UploadState
  | [] => pure state
  | chunk :: chunks => do
    let state ← state.appendChunk keys chunk
    appendChunks state chunks

def findUpload (app : Bytes) (uploadId : UuidText) (s : BlobStoreManager) :
    Except BlobStoreError UploadState :=
  match s.uploads.lookup uploadId with
  | none => .error .uploadNotFound
  | some state =>
    if app ≠ state.applicationId then .error .blobNotFound
    else if state.finalized then .error .uploadAlreadyFinished
    else .ok state

/-- Begin an upload. The identifiers are new, and the content type is without the white space
around it. -/
def beginUpload (app : Bytes) (uploadId blobId : UuidText) (contentType : Bytes)
    (now : UInt64) : BlobOp Unit :=
  if contentType = [] ∨ blobMaxContentTypeBytes < contentType.length then
    Fallible.throw .invalidContentType
  else do
    let store ← createSegment blobId.val 0 contentType now
    let state : UploadState :=
      { blobId := blobId.val
        applicationId := app
        contentType
        segments := [
          { storeId := store, recordKey := keys.text store, chunkCount := 0, payloadBytes := 0 }]
        committedBytes := 0
        createdAt := now
        finalized := false }
    modifyStore fun s => { s with uploads := s.uploads.insert uploadId state }

def append (app : Bytes) (uploadId : UuidText) (data : Bytes) : BlobOp Unit :=
  if data = [] then Fallible.throw .emptyAppend
  else if blobMaxAppendBytes < data.length then Fallible.throw (.appendTooLarge data.length)
  else do
    let state ← readStore (findUpload app uploadId)
    let newTotal := state.committedBytes.toNat + data.length
    if blobMaxBytes < newTotal then Fallible.throw (.blobTooLarge newTotal)
    else do
      let state ← appendChunks keys state (chunksOf data)
      modifyStore fun s => { s with uploads := s.uploads.insert uploadId state }

def decodeStoreValues : List AppStoreReadValue → Except BlobStoreError (List Bytes)
  | [] => .ok []
  | value :: values => do
    let bytes ← decodeStoreValue value
    let rest ← decodeStoreValues values
    .ok (bytes :: rest)

/-- The bytes of a segment, as its owner reads them. -/
def readOwnSegment (s : BlobStoreManager) (segment : UploadSegment) :
    Except BlobStoreError (List Bytes) :=
  if segment.chunkCount = 0 then .ok []
  else
    match s.storage.readOwn blobSegmentSubkeys segment.storeId
      (chunkLocations segment.chunkCount) with
    | .error error => .error (.storage error)
    | .ok values => decodeStoreValues values

def readOwnSegments (s : BlobStoreManager) : List UploadSegment → Except BlobStoreError (List Bytes)
  | [] => .ok []
  | segment :: segments => do
    let bytes ← readOwnSegment s segment
    let rest ← readOwnSegments s segments
    .ok (bytes ++ rest)

def hashOwnedUpload (s : BlobStoreManager) (state : UploadState) :
    Except BlobStoreError Hash32 := do
  let chunks ← readOwnSegments s state.segments
  .ok (sha256 chunks.flatten)

/-- Write the final headers from a segment on, the last one first. -/
def writeFinalHeaders (state : UploadState) (finalData : Hash32 × UInt64) :
    Nat → List UploadSegment → BlobOp Unit
  | _, [] => pure ()
  | index, segment :: segments => do
    writeFinalHeaders state finalData (index + 1) segments
    writeHeader segment.storeId
      (state.makeHeader index segment (segments.head?.map (·.recordKey)) (some finalData))

def finish (app : Bytes) (uploadId : UuidText) (expectedSha256 : Option Hash32)
    (finalizedAt : UInt64) : BlobOp BlobDescriptor := do
  let state ← readStore (findUpload app uploadId)
  let digest ← readStore fun s => hashOwnedUpload sha256 s state
  if ∃ expected ∈ expectedSha256, expected ≠ digest then Fallible.throw .integrityMismatch
  else do
    let state := { state with finalized := true }
    writeFinalHeaders state (digest, finalizedAt) 0 state.segments
    match state.segments.head? with
    | none => Fallible.throw (.invalidManifest "missing previous segment")
    | some root => do
      let descriptor : BlobDescriptor :=
        { blobId := state.blobId
          rootRecordKey := root.recordKey
          contentType := state.contentType
          totalBytes := state.committedBytes
          segmentCount := UInt32.ofNat state.segments.length
          sha256 := digest
          createdAt := state.createdAt
          finalizedAt }
      modifyStore fun s =>
        { s with
          uploads := s.uploads.erase uploadId
          blobs := s.blobs.insert state.blobId
            { applicationId := state.applicationId
              descriptor
              segmentStoreIds := state.segments.map (·.storeId) } }
      pure descriptor

/-! ## Reading -/

/-- Read subkeys of a record that is known by the text of its key. -/
def readPublic (storage : AppStorage) (recordKey : Bytes) (locations : List UInt32) :
    Except BlobStoreError (List AppStoreReadValue) :=
  match keys.parse recordKey with
  | none => .error (.invalidManifest "invalid next record key")
  | some record =>
    match storage.readPublic blobSegmentSubkeys record locations with
    | .error error => .error (.storage error)
    | .ok values => .ok values

def readPublicHeader (storage : AppStorage) (recordKey : Bytes) :
    Except BlobStoreError SegmentHeader := do
  let values ← readPublic keys storage recordKey [0]
  match values.getLast? with
  | none => .error (.invalidManifest "header subkey missing")
  | some value => do
    let bytes ← decodeStoreValue value
    match SegmentHeader.codec.decode bytes with
    | some (header, _) => .ok header
    | none => .error (.invalidManifest "header does not decode")

/-- What a range read has got so far: where in the blob it stands, the bytes of the range,
and all bytes that it has seen. -/
structure RangeRead where
  cursor : Nat
  output : Bytes
  seen : Bytes

/-- Take from a chunk what lies in the range. -/
def RangeRead.take (read : RangeRead) (start stop : Nat) (chunk : Bytes) : RangeRead :=
  let chunkEnd := read.cursor + chunk.length
  { cursor := chunkEnd
    output :=
      if start < chunkEnd ∧ read.cursor < stop then
        read.output ++ (chunk.take (min stop chunkEnd - read.cursor)).drop (start - read.cursor)
      else read.output
    seen := read.seen ++ chunk }

def readSegment (storage : AppStorage) (recordKey : Bytes) (header : SegmentHeader) :
    Except BlobStoreError (List Bytes) :=
  if header.chunkCount = 0 then .ok []
  else do
    let values ← readPublic keys storage recordKey (chunkLocations header.chunkCount)
    decodeStoreValues (values.mergeSort fun v w => v.location ≤ w.location)

/-- Follow the chain of segments until the range is complete. The first segment's header has
been read already; the first number is that of the segments which the limit still allows.
Also returned is the number of the last segment read. -/
def readChain (storage : AppStorage) (blobId : Bytes) (start stop : Nat) :
    Nat → Bytes → UInt32 → Option SegmentHeader → RangeRead →
      Except BlobStoreError (RangeRead × UInt32)
  | 0, _, _, _, _ => .error .tooManySegments
  | remaining + 1, recordKey, expectedIndex, known, read => do
    let header ← match known with
      | some header => .ok header
      | none => readPublicHeader keys storage recordKey
    header.validate (some blobId) expectedIndex
    let chunks ← readSegment keys storage recordKey header
    let read := chunks.foldl (fun read chunk => read.take start stop chunk) read
    if stop - start ≤ read.output.length then .ok (read, expectedIndex)
    else match header.nextRecordKey with
      | none => .ok (read, expectedIndex)
      | some next =>
        readChain storage blobId start stop remaining next (expectedIndex + 1) none read

def octetStream : Bytes := "application/octet-stream".toList.map fun c => UInt8.ofNat c.toNat

def readPublicRange (storage : AppStorage) (rootRecordKey : Bytes) (offset length : UInt64) :
    Except BlobStoreError (BlobDescriptor × Bytes) := do
  let root ← readPublicHeader keys storage rootRecordKey
  root.validate none 0
  match root.totalBytes, root.sha256 with
  | none, _ => .error (.invalidManifest "root segment is not finalized")
  | _, none => .error (.invalidManifest "root hash missing")
  | some total, some expectedHash =>
    let start := offset.toNat
    let stop := offset.toNat + length.toNat
    if 2 ^ 64 ≤ stop ∨ total.toNat < start ∨ total.toNat < stop then .error .rangeOutsideBlob
    else do
      let (read, lastIndex) ←
        readChain keys storage root.blobId start stop blobMaxSegments rootRecordKey 0
          (some root) { cursor := 0, output := [], seen := [] }
      if read.output.length ≠ length.toNat then
        .error (.invalidManifest "blob chain ended before requested range")
      else if offset = 0 ∧ length = total ∧ sha256 read.seen ≠ expectedHash then
        .error .integrityMismatch
      else
        .ok ({ blobId := root.blobId
               rootRecordKey
               contentType := root.contentType.getD octetStream
               totalBytes := total
               segmentCount := root.segmentCount.getD (lastIndex + 1)
               sha256 := expectedHash
               createdAt := root.createdAt
               finalizedAt := root.finalizedAt.getD 0 }, read.output)

end VeilKnit.BlobStore
