import VeilKnit.WalkTask.RecordTable

/-!
# Reading another node's record table

A reader fetches both manifest slots and then, for the newest valid manifest, some of its pages.
If the pages do not validate it tries the other manifest. What it keeps is one manifest and the
pages selected from it.
-/

namespace VeilKnit.WalkTask

open Library Types

inductive ReadResult
  | value (bytes : Bytes)
  | notFound
  | failed (error : String)
  deriving DecidableEq

inductive ReadError
  | dht (error : String)
  | table (e : TableError)
  deriving DecidableEq

structure DhtReadFailure where
  subkey : Subkey
  error : ReadError
  deriving DecidableEq

structure DhtSnapshot where
  values : Values
  readErrors : List DhtReadFailure := []
  fatalError : Option String := none

def recordTableBaseLocations : List Subkey :=
  [0, 1, 2, 10, recordTableManifestSlotA, recordTableManifestSlotB]

/-- Bytes of a subkey that has never been written. -/
def isBlank (bytes : Bytes) : Bool := bytes.isEmpty || bytes = [48]

/-- One result of a batch of reads. -/
def mergeResult (snapshot : DhtSnapshot) (subkey : Subkey) : ReadResult → DhtSnapshot
  | .value bytes =>
    { snapshot with
      values := Function.update snapshot.values subkey
        (if isBlank bytes then none else some bytes) }
  | .notFound => { snapshot with values := Function.update snapshot.values subkey none }
  | .failed error => { snapshot with readErrors := snapshot.readErrors ++ [⟨subkey, .dht error⟩] }

def mergeSnapshotResults (snapshot : DhtSnapshot) (locations : List Subkey)
    (results : Subkey → ReadResult) : DhtSnapshot :=
  locations.foldl (fun snapshot subkey => mergeResult snapshot subkey (results subkey)) snapshot

def snapshotFromResults (locations : List Subkey) (results : Subkey → ReadResult) : DhtSnapshot :=
  mergeSnapshotResults { values := fun _ => none } locations results

def retainSelectedManifest (snapshot : DhtSnapshot) (selectedSlot : Subkey) : DhtSnapshot :=
  { snapshot with
    values := fun subkey =>
      if (subkey = recordTableManifestSlotA ∨ subkey = recordTableManifestSlotB) ∧
          subkey ≠ selectedSlot then none
      else snapshot.values subkey }

section Reading

variable {Key : Type} (fmt : TableFormat Key)

/-! ## Selection of pages -/

/-- The rank of a page for a reader in an epoch. -/
def pageRank (reader publisher : Key) (manifest : RecordTableManifest) (epoch : UInt64)
    (page : RecordTablePageDescriptor) : Bytes :=
  (fmt.hash <| utf8 "network-walk/record-table-page-selection/v3" ++
    utf8 (fmt.keys.text reader) ++ utf8 (fmt.keys.text publisher) ++
    Codec.u64.encode manifest.generation ++ Codec.u64.encode epoch ++
    Codec.u16.encode page.bucket).val

/-- One page of every quarter of the buckets. -/
def pickQuarters (byBucket : List RecordTablePageDescriptor) (epoch : UInt64) :
    List RecordTablePageDescriptor :=
  (List.range 4).foldl (fun selected quarter =>
    let start := quarter * byBucket.length / 4
    let stop := max ((quarter + 1) * byBucket.length / 4) (start + 1)
    match byBucket[start + epoch.toNat % (stop - start)]? with
    | none => selected
    | some page =>
      if (selected.map (·.bucket)).contains page.bucket then selected else selected ++ [page]) []

/-- Ranked pages of new buckets, up to the number of pages of one read. -/
def fillRanked (selected : List RecordTablePageDescriptor) :
    List RecordTablePageDescriptor → List RecordTablePageDescriptor
  | [] => selected
  | page :: ranked =>
    if selected.length ≥ recordTableDefaultPagesPerRead then selected
    else if (selected.map (·.bucket)).contains page.bucket then fillRanked selected ranked
    else fillRanked (selected ++ [page]) ranked

def selectRecordTablePages (reader publisher : Key) (manifest : RecordTableManifest)
    (appFingerprint : Option UInt64) (now : UInt64) : List RecordTablePageDescriptor :=
  let eligible := manifest.pages.filter fun page =>
    match appFingerprint with
    | some fingerprint => page.appBloom.mightContain fingerprint
    | none => true
  if eligible.length ≤ recordTableDefaultPagesPerRead then eligible
  else
    let epoch := now / recordTableSelectionEpochSecs
    let ranked := eligible.insertionSort fun left right =>
      pageRank fmt reader publisher manifest epoch left ≤
        pageRank fmt reader publisher manifest epoch right
    let byBucket := eligible.insertionSort fun left right => left.bucket ≤ right.bucket
    (fillRanked (pickQuarters byBucket epoch) ranked).insertionSort fun left right =>
      left.bucket ≤ right.bucket

/-! ## The read -/

/-- A reader, the record it reads, and when. -/
structure Reader (Key : Type) where
  reader : Key
  target : Key
  appFingerprint : Option UInt64
  now : UInt64

/-- What the network answers: to the batch of base subkeys, and to the batch of pages of the
manifest of a slot. A whole batch may fail. -/
structure ForeignAnswers where
  base : Except String (Subkey → ReadResult)
  pages : Subkey → Except String (Subkey → ReadResult)

/-- Try the manifests one after the other. -/
def tryManifests (r : Reader Key) (answers : ForeignAnswers) (snapshot : DhtSnapshot) :
    List (Subkey × RecordTableManifest) → DhtSnapshot
  | [] => snapshot
  | (slot, manifest) :: manifests =>
    if r.appFingerprint.any fun fingerprint => ! manifest.appBloom.mightContain fingerprint then
      retainSelectedManifest snapshot slot
    else
      let selected := selectRecordTablePages fmt r.reader r.target manifest r.appFingerprint r.now
      if selected.isEmpty then retainSelectedManifest snapshot slot
      else
        match answers.pages slot with
        | .error error =>
          tryManifests r answers
            { snapshot with
              readErrors := snapshot.readErrors ++
                [⟨slot, .dht ("paged record-table read failed: " ++ error)⟩] }
            manifests
        | .ok results =>
          let candidate := retainSelectedManifest
            (mergeSnapshotResults snapshot (selected.map (·.subkey)) results) slot
          match validateLoadedRecordTablePages fmt candidate.values selected true with
          | .ok () => candidate
          | .error error =>
            tryManifests r answers
              { snapshot with readErrors := snapshot.readErrors ++ [⟨slot, .table error⟩] }
              manifests

def readForeign (r : Reader Key) (answers : ForeignAnswers) : DhtSnapshot :=
  match answers.base with
  | .error error => { values := fun _ => none, fatalError := some error }
  | .ok results =>
    let snapshot := snapshotFromResults recordTableBaseLocations results
    tryManifests fmt r answers snapshot (validRecordTableManifests fmt snapshot.values)

/-! ## The table of a snapshot -/

/-- The entries of the pages that are there, unless one of them is invalid, and their number. -/
def collectPages (values : Values) :
    List RecordTablePageDescriptor → List (RecordTableEntry Key) → Nat →
      Option (List (RecordTableEntry Key) × Nat)
  | [], entries, loaded => some (entries, loaded)
  | descriptor :: descriptors, entries, loaded =>
    match values descriptor.subkey with
    | none => collectPages values descriptors entries loaded
    | some bytes =>
      if bytes.length ≠ descriptor.serializedSize.toNat then none
      else
        match decodePage fmt bytes with
        | .error _ => none
        | .ok page =>
          if (validateRecordTablePage fmt page descriptor).isOk then
            let added := page.entries.foldl (fun entries entry =>
              if (entries.map fun e => fmt.keys.text e.theirAddress).contains
                  (fmt.keys.text entry.theirAddress) then entries
              else entries ++ [entry]) entries
            collectPages values descriptors added (loaded + 1)
          else none

def decodeManifests (values : Values) :
    List (Subkey × RecordTableManifest) → List (RecordTableEntry Key)
  | [] => []
  | (_, manifest) :: manifests =>
    match collectPages fmt values manifest.pages [] 0 with
    | some (entries, loaded) =>
      if manifest.pages.isEmpty || loaded ≠ 0 then entries else decodeManifests values manifests
    | none => decodeManifests values manifests

def decodeRecordTableFromValues (values : Values) : List (RecordTableEntry Key) :=
  decodeManifests fmt values (validRecordTableManifests fmt values)

/-- The record table that a read obtains. -/
def foreignTable (r : Reader Key) (answers : ForeignAnswers) : List (RecordTableEntry Key) :=
  decodeRecordTableFromValues fmt (readForeign fmt r answers).values

end Reading

end VeilKnit.WalkTask
