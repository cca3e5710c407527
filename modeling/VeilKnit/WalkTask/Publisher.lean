import VeilKnit.Library.WriteOutcome
import VeilKnit.WalkTask.ForeignRead

/-!
# The publisher of the record table

The publisher keeps the manifest it has published last and the one before it. A publication
writes the pages that have changed to subkeys that neither of the two uses, reads them back, and
then writes the new manifest to the slot that does not hold the current one.
-/

namespace VeilKnit.WalkTask

open Library Types

inductive WalkError
  | dht (error : String)
  | table (e : TableError)
  | serialize (text : String)
  | other (text : String)
  deriving DecidableEq

structure RecordTablePublisher where
  activeManifestSlot : Subkey
  currentManifest : Option RecordTableManifest
  previousManifest : Option RecordTableManifest
  deriving DecidableEq

section Publisher

variable {Key : Type} (fmt : TableFormat Key)

/-! ## Buckets -/

def pageOf (generation : UInt64) (bucket : UInt16) (entries : List (RecordTableEntry Key)) :
    RecordTablePage Key where
  magic := recordTablePageMagic
  version := recordTableFormatVersion
  generation := generation
  bucket := bucket
  entries := entries
  digest := zeroDigest

/-- The page with its digest filled in. -/
def signedPage (page : RecordTablePage Key) : RecordTablePage Key :=
  { page with digest := recordTablePageDigest fmt page }

/-- The bounded entries, the first one of each address. -/
def admissibleEntries : List (RecordTableEntry Key) → List String → List (RecordTableEntry Key)
  | [], _ => []
  | entry :: entries, seen =>
    if ! recordTableEntryIsBounded entry || seen.contains (fmt.keys.text entry.theirAddress) then
      admissibleEntries entries seen
    else entry :: admissibleEntries entries (fmt.keys.text entry.theirAddress :: seen)

/-- Remove entries from the end until the page is small enough. The number bounds the removals. -/
def fitPage (bucket : UInt16) : Nat → List (RecordTableEntry Key) → List (RecordTableEntry Key)
  | 0, entries => entries
  | n + 1, entries =>
    if entries.isEmpty ||
        decide (((pageOf 1 bucket entries).serialize fmt).length ≤ recordTableMaxPageBytes) then
      entries
    else fitPage bucket n entries.dropLast

/-- The entries of a bucket that are published, by priority. -/
def bucketEntries (entries : List (RecordTableEntry Key)) (bucket : UInt16) :
    List (RecordTableEntry Key) :=
  let admitted := admissibleEntries fmt (entries.take recordTableMaxPublishedEntries) []
  let kept := (admitted.filter fun entry => recordTableBucket fmt entry.theirAddress = bucket).take
    recordTableMaxEntriesPerBucket
  fitPage fmt bucket kept.length kept

def sortByAddress (entries : List (RecordTableEntry Key)) : List (RecordTableEntry Key) :=
  entries.insertionSort fun left right =>
    fmt.keys.text left.theirAddress ≤ fmt.keys.text right.theirAddress

def bucketRecordTableEntries (entries : List (RecordTableEntry Key)) :
    List (UInt16 × List (RecordTableEntry Key)) :=
  (List.range recordTableBucketCount.toNat).filterMap fun n =>
    let bucket := UInt16.ofNat n
    let kept := bucketEntries fmt entries bucket
    if kept.isEmpty then none else some (bucket, sortByAddress fmt kept)

/-! ## Planning -/

structure PublishPlan where
  generation : UInt64
  descriptors : List RecordTablePageDescriptor
  writes : List (RecordTablePageDescriptor × Bytes)
  totalEntries : UInt32
  deriving DecidableEq

def nextGeneration (publisher : RecordTablePublisher) : UInt64 :=
  match publisher.currentManifest with
  | none => 1
  | some manifest => max (saturatingAdd manifest.generation 1) 1

/-- The subkeys of the pages of the current and the previous manifest. -/
def unavailable (publisher : RecordTablePublisher) : List Subkey :=
  (publisher.currentManifest.toList ++ publisher.previousManifest.toList).flatMap fun manifest =>
    manifest.pages.map (·.subkey)

def pageSubkeys : List Subkey :=
  (List.range recordTablePageSlotCount).map fun n => recordTablePageStart + UInt32.ofNat n

def freeSubkeys (publisher : RecordTablePublisher) : List Subkey :=
  pageSubkeys.filter fun subkey => ! (unavailable publisher).contains subkey

/-- The descriptor of a bucket in the current manifest, if its page would be the same. -/
def reusable (current : Option RecordTableManifest) (bucket : UInt16)
    (entries : List (RecordTableEntry Key)) : Option RecordTablePageDescriptor :=
  ((current.elim [] (·.pages)).reverse.find? fun page => page.bucket = bucket).filter fun page =>
    let comparison := signedPage fmt (pageOf page.generation bucket entries)
    decide (comparison.digest = page.digest) &&
      decide ((comparison.serialize fmt).length = page.serializedSize.toNat) &&
      decide (entries.length = page.entryCount.toNat)

def descriptorOf (subkey : Subkey) (page : RecordTablePage Key) : RecordTablePageDescriptor where
  subkey := subkey
  bucket := page.bucket
  generation := page.generation
  entryCount := UInt32.ofNat page.entries.length
  serializedSize := UInt32.ofNat (page.serialize fmt).length
  appBloom := appBloomForEntries page.entries
  digest := page.digest

def planPages (publisher : RecordTablePublisher) :
    List (UInt16 × List (RecordTableEntry Key)) → List Subkey →
      Except WalkError (List RecordTablePageDescriptor × List (RecordTablePageDescriptor × Bytes))
  | [], _ => .ok ([], [])
  | (bucket, entries) :: buckets, free =>
    match reusable fmt publisher.currentManifest bucket entries with
    | some descriptor => do
      let (descriptors, writes) ← planPages publisher buckets free
      pure (descriptor :: descriptors, writes)
    | none =>
      match free with
      | [] =>
        .error <| .other <| "no free record-table page remains; " ++
          "current and previous generations occupy " ++
          toString (unavailable publisher).dedup.length ++ " of " ++
          toString recordTablePageSlotCount ++ " slots"
      | subkey :: free => do
        let page := signedPage fmt (pageOf (nextGeneration publisher) bucket entries)
        let bytes := page.serialize fmt
        if bytes.length > recordTableMaxPageBytes then
          throw <| .serialize <| "record-table bucket " ++ toString bucket ++
            " serialized to " ++ toString bytes.length ++ " bytes; maximum is " ++
            toString recordTableMaxPageBytes
        let descriptor := descriptorOf fmt subkey page
        let (descriptors, writes) ← planPages publisher buckets free
        pure (descriptor :: descriptors, (descriptor, bytes) :: writes)

/-- `publish`, up to its first write. -/
def planPublish (publisher : RecordTablePublisher) (entries : List (RecordTableEntry Key)) :
    Except WalkError PublishPlan := do
  let (descriptors, writes) ←
    planPages fmt publisher (bucketRecordTableEntries fmt entries) (freeSubkeys publisher)
  let sorted := descriptors.insertionSort fun left right => left.bucket ≤ right.bucket
  pure
    { generation := nextGeneration publisher
      descriptors := sorted
      writes := writes
      totalEntries := UInt32.ofNat (sorted.map (·.entryCount.toNat)).sum }

/-- The current manifest is already as planned. -/
def isUnchanged (publisher : RecordTablePublisher) (plan : PublishPlan) : Bool :=
  publisher.currentManifest.any fun current =>
    decide (current.totalEntries = plan.totalEntries) && decide (current.pages = plan.descriptors)

def buildManifest (publisher : RecordTablePublisher) (plan : PublishPlan) (now : UInt64) :
    RecordTableManifest :=
  let manifest : RecordTableManifest :=
    { magic := recordTableManifestMagic
      version := recordTableFormatVersion
      generation := plan.generation
      previousGeneration := publisher.currentManifest.map (·.generation)
      createdAt := now
      bucketCount := recordTableBucketCount
      totalEntries := plan.totalEntries
      appBloom := unionOfBlooms plan.descriptors
      pages := plan.descriptors
      tableRootHash := recordTableRootHash fmt plan.generation plan.totalEntries plan.descriptors
      digest := zeroDigest }
  { manifest with digest := recordTableManifestDigest fmt manifest }

def targetSlot (publisher : RecordTablePublisher) : Subkey :=
  if publisher.activeManifestSlot = recordTableManifestSlotA then recordTableManifestSlotB
  else recordTableManifestSlotA

/-! ## Reading back -/

/-- Every page that was written is there. -/
def readBackPages (read : Subkey → Except String Bytes) :
    List (RecordTablePageDescriptor × Bytes) → Except WalkError Unit
  | [] => .ok ()
  | (descriptor, _) :: writes => do
    let bytes ← (read descriptor.subkey).mapError .dht
    if bytes.length ≠ descriptor.serializedSize.toNat then
      throw <| .other <|
        "record-table page " ++ toString descriptor.subkey ++ " readback size mismatch"
    let page ← (decodePage fmt bytes).mapError .table
    (validateRecordTablePage fmt page descriptor).mapError .table
    readBackPages read writes

/-- The manifest that was written is there. -/
def readBackManifest (read : Subkey → Except String Bytes) (slot : Subkey)
    (manifest : RecordTableManifest) : Except WalkError RecordTableManifest := do
  let bytes ← (read slot).mapError .dht
  let readback ← (decodeManifest bytes).mapError .table
  (validateRecordTableManifest fmt readback).mapError .table
  if readback.digest ≠ manifest.digest then
    throw <| .other "record-table manifest readback digest mismatch"
  pure readback

/-! ## Loading -/

/-- What reads of subkeys give, without the blank ones. -/
def readValues (read : Subkey → Except String Bytes) : Values := fun subkey =>
  (read subkey).toOption.filter fun bytes => ! isBlank bytes

/-- `pages` reads the pages of the manifest of a slot. -/
def loadPublisher (slots : Subkey → Except String Bytes)
    (pages : Subkey → Subkey → Except String Bytes) : RecordTablePublisher :=
  let candidates := validRecordTableManifests fmt (readValues slots)
  let complete := (candidates.filter fun candidate =>
    (validateLoadedRecordTablePages fmt (readValues (pages candidate.1)) candidate.2.pages
      true).isOk).insertionSort fun left right => right.2.generation ≤ left.2.generation
  { activeManifestSlot := complete.head?.elim recordTableManifestSlotB (·.1)
    currentManifest := complete.head?.map (·.2)
    previousManifest := complete[1]?.map (·.2) }

end Publisher

end VeilKnit.WalkTask
