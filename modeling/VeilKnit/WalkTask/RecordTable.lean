import Mathlib.Data.List.Sort
import VeilKnit.Types.AppRecords

/-!
# The record table on the wire

A node publishes the peers it has verified in pages, one for each hash bucket that is in use, and
lists the pages in a manifest. Manifests alternate between two slots. A page is authenticated by
the digest in its descriptor, a manifest by its own digest.

The hash is a parameter, as are the addresses of peers, of which the text and the layout are used.
-/

namespace VeilKnit.WalkTask

open Library Types

abbrev Subkey := UInt32

def recordTableManifestSlotA : Subkey := 50
def recordTableManifestSlotB : Subkey := 51
def recordTablePageStart : Subkey := 52
def recordTablePageEnd : Subkey := 250
def recordTablePageSlotCount : Nat := 199
def recordTableFormatVersion : UInt16 := 3
def recordTableBucketCount : UInt16 := 64
def recordTableMaxEntriesPerBucket : Nat := 64
def recordTableMaxPublishedEntries : Nat := 4096
def recordTableMaxPageBytes : Nat := 30 * 1024
def recordTableDefaultPagesPerRead : Nat := 16
def recordTableSelectionEpochSecs : UInt64 := 1800
def recordTableManifestMagic : UInt8 × UInt8 × UInt8 × UInt8 := (86, 82, 77, 51)
def recordTablePageMagic : UInt8 × UInt8 × UInt8 × UInt8 := (86, 82, 80, 51)

abbrev Digest := { bytes : Bytes // bytes.length = 32 }

theorem zeroDigest_length : (List.replicate 32 (0 : UInt8)).length = 32 := rfl

def zeroDigest : Digest := ⟨List.replicate 32 0, zeroDigest_length⟩

def utf8 (text : String) : Bytes := text.toUTF8.data.toList

/-! ## Application filters -/

structure AppBloomFilter where
  word : UInt64
  deriving DecidableEq

structure AppPageBloomFilter where
  word : UInt32 := 0
  deriving DecidableEq

namespace AppPageBloomFilter

def mightContain (bloom : AppPageBloomFilter) (fingerprint : UInt64) : Bool :=
  bloom.word &&& (1 <<< (fingerprint % 32).toUInt32) ≠ 0

def includeEntryFilter (bloom : AppPageBloomFilter) (entry : AppBloomFilter) :
    AppPageBloomFilter where
  word := bloom.word ||| entry.word.toUInt32 ||| (entry.word >>> 32).toUInt32

def unionWith (bloom other : AppPageBloomFilter) : AppPageBloomFilter where
  word := bloom.word ||| other.word

end AppPageBloomFilter

/-! ## Entries, pages, manifests -/

/-- Four words, such as a sketch. -/
abbrev Words := UInt64 × UInt64 × UInt64 × UInt64

structure RecordTableEntry (Key : Type) where
  theirAddress : Key
  accountCreatedAt : UInt64
  lastUpdate : UInt64
  appBloom : AppBloomFilter
  mailboxRange : UInt32 × UInt32
  mailboxInlist : Words
  routingtableMinhash : Words
  firstSeen : UInt64
  lastSeen : UInt64
  seenIn : List UInt16
  deriving DecidableEq

structure RecordTablePageDescriptor where
  subkey : Subkey
  bucket : UInt16
  generation : UInt64
  entryCount : UInt32
  serializedSize : UInt32
  appBloom : AppPageBloomFilter
  digest : Digest
  deriving DecidableEq

structure RecordTableManifest where
  magic : UInt8 × UInt8 × UInt8 × UInt8
  version : UInt16
  generation : UInt64
  previousGeneration : Option UInt64
  createdAt : UInt64
  bucketCount : UInt16
  totalEntries : UInt32
  appBloom : AppPageBloomFilter
  pages : List RecordTablePageDescriptor
  tableRootHash : Digest
  digest : Digest
  deriving DecidableEq

structure RecordTablePage (Key : Type) where
  magic : UInt8 × UInt8 × UInt8 × UInt8
  version : UInt16
  generation : UInt64
  bucket : UInt16
  entries : List (RecordTableEntry Key)
  digest : Digest
  deriving DecidableEq

/-- The hash, and the texts and the layout of addresses. -/
structure TableFormat (Key : Type) where
  keys : RecordKeys Key
  address : Codec Key
  hash : Bytes → Digest

section Layout

def digestCodec : Codec Digest := Codec.array 32

def wordsCodec : Codec Words := Codec.u64.pair <| Codec.u64.pair <| Codec.u64.pair Codec.u64

def magicCodec : Codec (UInt8 × UInt8 × UInt8 × UInt8) :=
  Codec.u8.pair <| Codec.u8.pair <| Codec.u8.pair Codec.u8

def AppBloomFilter.codec : Codec AppBloomFilter :=
  Codec.u64.imap (fun word => ⟨word⟩) (·.word) fun _ => rfl

def AppPageBloomFilter.codec : Codec AppPageBloomFilter :=
  Codec.u32.imap (fun word => ⟨word⟩) (·.word) fun _ => rfl

def RecordTablePageDescriptor.codec : Codec RecordTablePageDescriptor :=
  (Codec.u32.pair <| Codec.u16.pair <| Codec.u64.pair <| Codec.u32.pair <| Codec.u32.pair <|
    AppPageBloomFilter.codec.pair digestCodec).imap
    (fun (subkey, bucket, generation, entryCount, serializedSize, appBloom, digest) =>
      ⟨subkey, bucket, generation, entryCount, serializedSize, appBloom, digest⟩)
    (fun d => (d.subkey, d.bucket, d.generation, d.entryCount, d.serializedSize, d.appBloom,
      d.digest)) (fun _ => rfl)

def RecordTableManifest.codec : Codec RecordTableManifest :=
  (magicCodec.pair <| Codec.u16.pair <| Codec.u64.pair <| Codec.u64.option.pair <|
    Codec.u64.pair <| Codec.u16.pair <| Codec.u32.pair <| AppPageBloomFilter.codec.pair <|
    RecordTablePageDescriptor.codec.list.pair <| digestCodec.pair digestCodec).imap
    (fun (magic, version, generation, previousGeneration, createdAt, bucketCount, totalEntries,
        appBloom, pages, tableRootHash, digest) =>
      ⟨magic, version, generation, previousGeneration, createdAt, bucketCount, totalEntries,
        appBloom, pages, tableRootHash, digest⟩)
    (fun m => (m.magic, m.version, m.generation, m.previousGeneration, m.createdAt, m.bucketCount,
      m.totalEntries, m.appBloom, m.pages, m.tableRootHash, m.digest)) (fun _ => rfl)

variable {Key : Type}

def RecordTableEntry.codec (address : Codec Key) : Codec (RecordTableEntry Key) :=
  (address.pair <| Codec.u64.pair <| Codec.u64.pair <| AppBloomFilter.codec.pair <|
    (Codec.u32.pair Codec.u32).pair <| wordsCodec.pair <| wordsCodec.pair <| Codec.u64.pair <|
    Codec.u64.pair Codec.u16.list).imap
    (fun (theirAddress, accountCreatedAt, lastUpdate, appBloom, mailboxRange, mailboxInlist,
        routingtableMinhash, firstSeen, lastSeen, seenIn) =>
      ⟨theirAddress, accountCreatedAt, lastUpdate, appBloom, mailboxRange, mailboxInlist,
        routingtableMinhash, firstSeen, lastSeen, seenIn⟩)
    (fun e => (e.theirAddress, e.accountCreatedAt, e.lastUpdate, e.appBloom, e.mailboxRange,
      e.mailboxInlist, e.routingtableMinhash, e.firstSeen, e.lastSeen, e.seenIn)) (fun _ => rfl)

def RecordTablePage.codec (address : Codec Key) : Codec (RecordTablePage Key) :=
  (magicCodec.pair <| Codec.u16.pair <| Codec.u64.pair <| Codec.u16.pair <|
    (RecordTableEntry.codec address).list.pair digestCodec).imap
    (fun (magic, version, generation, bucket, entries, digest) =>
      ⟨magic, version, generation, bucket, entries, digest⟩)
    (fun p => (p.magic, p.version, p.generation, p.bucket, p.entries, p.digest)) (fun _ => rfl)

end Layout

/-! ## Digests -/

section Format

variable {Key : Type} (fmt : TableFormat Key)

def RecordTablePage.serialize (page : RecordTablePage Key) : Bytes :=
  (RecordTablePage.codec fmt.address).encode page

def RecordTableManifest.serialize (manifest : RecordTableManifest) : Bytes :=
  RecordTableManifest.codec.encode manifest

/-- The page as it is hashed. -/
def RecordTablePage.unsigned (page : RecordTablePage Key) : RecordTablePage Key :=
  { page with digest := zeroDigest }

def recordTablePageDigest (page : RecordTablePage Key) : Digest :=
  fmt.hash (page.unsigned.serialize fmt)

def recordTableManifestDigest (manifest : RecordTableManifest) : Digest :=
  fmt.hash { manifest with digest := zeroDigest }.serialize

def recordTableRootHash (generation : UInt64) (totalEntries : UInt32)
    (pages : List RecordTablePageDescriptor) : Digest :=
  fmt.hash <| utf8 "network-walk/record-table-root/v3" ++ Codec.u64.encode generation ++
    Codec.u32.encode totalEntries ++ pages.flatMap RecordTablePageDescriptor.codec.encode

def appBloomForEntries (entries : List (RecordTableEntry Key)) : AppPageBloomFilter :=
  entries.foldl (fun bloom entry => bloom.includeEntryFilter entry.appBloom) {}

def recordTableEntryIsBounded (entry : RecordTableEntry Key) : Bool :=
  decide (entry.seenIn.length ≤ 1000)

def recordTableBucket (address : Key) : UInt16 :=
  let digest := (fmt.hash <| utf8 "network-walk/record-table-bucket/v3" ++
    utf8 (fmt.keys.text address)).val
  UInt16.ofNat (Codec.leValue (digest.take 2)) % recordTableBucketCount

/-! ## Validation -/

inductive TableError
  | decode (e : NetworkDecodeError)
  | invalid (text : String)
  deriving DecidableEq

/-- Descriptors are in range, and no subkey and no bucket is used twice. -/
def descriptorsAreValid (generation : UInt64) :
    List RecordTablePageDescriptor → List Subkey → List UInt16 → Bool
  | [], _, _ => true
  | page :: pages, seenSubkeys, seenBuckets =>
    if page.subkey < recordTablePageStart || recordTablePageEnd < page.subkey ||
        recordTableBucketCount ≤ page.bucket || page.generation = 0 ||
        generation < page.generation ||
        decide (page.entryCount.toNat > recordTableMaxEntriesPerBucket) ||
        decide (page.serializedSize.toNat > recordTableMaxPageBytes) ||
        seenSubkeys.contains page.subkey || seenBuckets.contains page.bucket then
      false
    else
      descriptorsAreValid generation pages (page.subkey :: seenSubkeys) (page.bucket :: seenBuckets)

def unionOfBlooms (pages : List RecordTablePageDescriptor) : AppPageBloomFilter :=
  pages.foldl (fun bloom page => bloom.unionWith page.appBloom) {}

def validateRecordTableManifest (manifest : RecordTableManifest) : Except TableError Unit :=
  if manifest.magic ≠ recordTableManifestMagic ∨ manifest.version ≠ recordTableFormatVersion ∨
      manifest.bucketCount ≠ recordTableBucketCount ∨
      manifest.pages.length > recordTableBucketCount.toNat ∨
      manifest.totalEntries.toNat > recordTableMaxPublishedEntries then
    .error (.invalid "record-table manifest shape/version is invalid")
  else if ¬ descriptorsAreValid manifest.generation manifest.pages [] [] then
    .error (.invalid "record-table manifest contains an invalid page descriptor")
  else if (manifest.pages.map (·.entryCount.toNat)).sum ≠ manifest.totalEntries.toNat then
    .error (.invalid "record-table manifest entry count mismatch")
  else if unionOfBlooms manifest.pages ≠ manifest.appBloom then
    .error (.invalid "record-table manifest app Bloom filter mismatch")
  else if recordTableRootHash fmt manifest.generation manifest.totalEntries manifest.pages ≠
      manifest.tableRootHash then
    .error (.invalid "record-table manifest root hash mismatch")
  else if recordTableManifestDigest fmt manifest ≠ manifest.digest then
    .error (.invalid "record-table manifest digest mismatch")
  else .ok ()

def validateRecordTablePage (page : RecordTablePage Key) (descriptor : RecordTablePageDescriptor) :
    Except TableError Unit :=
  if page.magic ≠ recordTablePageMagic ∨ page.version ≠ recordTableFormatVersion ∨
      page.generation ≠ descriptor.generation ∨ page.bucket ≠ descriptor.bucket ∨
      UInt32.ofNat page.entries.length ≠ descriptor.entryCount ∨
      page.entries.length > recordTableMaxEntriesPerBucket ∨ page.digest ≠ descriptor.digest ∨
      appBloomForEntries page.entries ≠ descriptor.appBloom ∨
      page.entries.any fun entry => ! recordTableEntryIsBounded entry then
    .error (.invalid ("record-table page " ++ toString descriptor.subkey ++ " metadata mismatch"))
  else if recordTablePageDigest fmt page ≠ descriptor.digest then
    .error (.invalid ("record-table page " ++ toString descriptor.subkey ++ " digest mismatch"))
  else .ok ()

def decodePage (bytes : Bytes) : Except TableError (RecordTablePage Key) :=
  (decodeBincodeLimited (RecordTablePage.codec fmt.address) bytes
    maxNetworkDhtValueBytes).mapError .decode

def decodeManifest (bytes : Bytes) : Except TableError RecordTableManifest :=
  (decodeBincodeLimited RecordTableManifest.codec bytes maxNetworkDhtValueBytes).mapError .decode

/-- The values of the subkeys that were read. -/
abbrev Values := Subkey → Option Bytes

/-- Check the pages whose values are there, and count them. -/
def checkLoadedPages (values : Values) (requireAll : Bool) :
    List RecordTablePageDescriptor → Nat → Except TableError Nat
  | [], loaded => .ok loaded
  | descriptor :: descriptors, loaded =>
    match values descriptor.subkey with
    | none =>
      if requireAll then
        .error (.invalid ("record-table page " ++ toString descriptor.subkey ++ " is missing"))
      else checkLoadedPages values requireAll descriptors loaded
    | some bytes =>
      if bytes.length ≠ descriptor.serializedSize.toNat then
        .error (.invalid
          ("record-table page " ++ toString descriptor.subkey ++ " serialized-size mismatch"))
      else do
        let page ← decodePage fmt bytes
        validateRecordTablePage fmt page descriptor
        checkLoadedPages values requireAll descriptors (loaded + 1)

def validateLoadedRecordTablePages (values : Values) (pages : List RecordTablePageDescriptor)
    (requireAll : Bool) : Except TableError Unit := do
  let loaded ← checkLoadedPages fmt values requireAll pages 0
  if ¬ pages.isEmpty ∧ loaded = 0 then
    throw (.invalid "record-table manifest was read without any selected pages")
  pure ()

/-- The valid manifests of the two slots, that of the highest generation first. -/
def validRecordTableManifests (values : Values) : List (Subkey × RecordTableManifest) :=
  let manifests := [recordTableManifestSlotA, recordTableManifestSlotB].filterMap fun slot => do
    let bytes ← values slot
    let manifest ← (decodeManifest bytes).toOption
    if (validateRecordTableManifest fmt manifest).isOk then some (slot, manifest) else none
  manifests.insertionSort fun left right => right.2.generation ≤ left.2.generation

end Format

end VeilKnit.WalkTask
