import Mathlib.Data.List.Sort
import VeilKnit.Library.AssociationList
import VeilKnit.Library.FirstMatch
import VeilKnit.Library.WriteOutcome
import VeilKnit.Types.AppRecords

/-!
# The directory of application roots

A user's applications register a root record each. The daemon keeps the roots in its own store
and publishes those of the applications in use: first the manifest of the directory, then the
pointer in the main record, which carries the manifest's generation.

The roots and the manifest are under two locks, taken one after the other. Every operation is
given as the section under the first lock and the section under the second.
-/

namespace VeilKnit.App

open Library Types

def appDirectorySubkey : Nat := 0
def appDirectoryLocation : Nat := 11
def appDirectoryMaxEntries : Nat := 128

abbrev Roots := AList fun _ : String => String

structure OwnAppRootUpdate (Key : Type) where
  appId : String
  rootDht : Option Key
  directoryDht : Key
  generation : UInt64
  updatedAt : UInt64
  deriving DecidableEq

/-- The manager, with what the network holds under its two subkeys. -/
structure AppDirectoryManager (Key : Type) where
  directoryDht : Key
  roots : Roots
  manifest : AppDirectoryManifest
  directoryValue : Bytes
  pointerValue : Bytes

/-- The outcomes of the two writes of a publication, and the time of the second one. -/
structure Writes where
  manifest : WriteOutcome
  pointer : WriteOutcome
  clock : UInt64
  deriving DecidableEq

section Manager

variable {Key : Type} (keys : RecordKeys Key)

/-! ## Loading -/

/-- Roots of a manifest that the store does not know are taken over. -/
def seedRoots (roots : Roots) (entries : List AppDirectoryEntry) : Roots :=
  entries.foldl (fun roots entry =>
    if (roots.lookup entry.appId).isSome then roots else roots.insert entry.appId entry.rootDht)
    roots

def loadOrCreate (saved : Option Roots) (found : Option Bytes) (directoryDht : Key)
    (now : UInt64) : AppDirectoryManager Key :=
  let rebuilt := AppDirectoryManifest.empty now
  let (manifest, value) :=
    match found with
    | none => (rebuilt, AppDirectoryManifest.codec.encode rebuilt)
    | some bytes =>
      match decodeAppDirectoryManifest keys bytes with
      | .ok manifest => (manifest, bytes)
      | .error _ => (rebuilt, AppDirectoryManifest.codec.encode rebuilt)
  { directoryDht := directoryDht
    roots := seedRoots (saved.getD ∅) manifest.entries
    manifest := manifest
    directoryValue := value
    pointerValue :=
      AppDirectoryInfo.codec.encode (.new (keys.text directoryDht) manifest.generation now) }

/-! ## Publishing -/

/-- The manifest as it is written. -/
def normalized (manifest : AppDirectoryManifest) : AppDirectoryManifest :=
  { manifest with recordVersion := appDirectoryRecordVersion }

def writeManifest (manifest : AppDirectoryManifest) (outcome : WriteOutcome) :
    Fallible String (AppDirectoryManager Key) Unit := fun d =>
  let bytes := AppDirectoryManifest.codec.encode (normalized manifest)
  if manifest.entries.length > appDirectoryMaxEntries then
    (.error <| "app directory contains " ++ toString manifest.entries.length ++
      " entries; maximum is " ++ toString appDirectoryMaxEntries, d)
  else if bytes.length > maxNetworkDhtValueBytes then
    (.error <| "app directory is " ++ toString bytes.length ++
      " bytes; maximum network DHT value is " ++ toString maxNetworkDhtValueBytes ++ " bytes", d)
  else
    (outcome.result "could not write app directory: ",
      if outcome.landed then { d with directoryValue := bytes } else d)

def publishAppDirectoryInfo (generation : UInt64) (outcome : WriteOutcome) (now : UInt64) :
    Fallible String (AppDirectoryManager Key) Unit :=
  fun d =>
    let info := AppDirectoryInfo.new (keys.text d.directoryDht) generation now
    (outcome.result "",
      if outcome.landed then { d with pointerValue := AppDirectoryInfo.codec.encode info } else d)

/-- The memory takes over a manifest only after both writes. -/
def publish (next : AppDirectoryManifest) (writes : Writes) :
    Fallible String (AppDirectoryManager Key) Unit := do
  writeManifest next writes.manifest
  publishAppDirectoryInfo keys next.generation writes.pointer writes.clock
  .modify fun d => { d with manifest := next }

def advance (manifest : AppDirectoryManifest) (entries : List AppDirectoryEntry) (now : UInt64) :
    AppDirectoryManifest :=
  { manifest with
    entries := entries
    generation := max (saturatingAdd manifest.generation 1) 1
    updatedAt := now }

def sortEntries (entries : List AppDirectoryEntry) : List AppDirectoryEntry :=
  entries.insertionSort fun left right => left.appId ≤ right.appId

/-! ## The operations -/

/-- The entries that a snapshot of the roots gives the applications in use. -/
def desiredEntries (snapshot : Roots) (active : List String) (manifest : AppDirectoryManifest)
    (now : UInt64) : List AppDirectoryEntry :=
  sortEntries <| (snapshot.retain (· ∈ active)).entries.map fun root =>
    { appId := root.1
      rootDht := root.2
      updatedAt :=
        match manifest.entries.find? fun entry => entry.appId = root.1 && entry.rootDht = root.2 with
        | some entry => entry.updatedAt
        | none => now }

/-- `sync_public_apps` after its first section, which clones the roots. -/
def syncPublicApps (snapshot : Roots) (active : List String) (now : UInt64) (writes : Writes) :
    Fallible String (AppDirectoryManager Key) Bool := fun d =>
  let desired := desiredEntries snapshot active d.manifest now
  if desired = d.manifest.entries then (.ok false, d)
  else (do publish keys (advance d.manifest desired now) writes; pure true) d

/-- First section of `set_own_app_root`. `saved` is the error of the write to the user's store. -/
def storeAppRoot (appId rootString : String) (saved : Option String) :
    Fallible String (AppDirectoryManager Key) Unit := fun d =>
  if ! isCanonicalApplicationId appId then (.error "application id is not canonical", d)
  else if d.roots.entries.length ≥ appDirectoryMaxEntries ∧ (d.roots.lookup appId).isNone then
    (.error <| "app directory contains " ++ toString d.roots.entries.length ++
      " durable roots; maximum is " ++ toString appDirectoryMaxEntries, d)
  else
    (match saved with
      | some error => .error error
      | none => .ok (),
    { d with roots := d.roots.insert appId rootString })

/-- Second section of `set_own_app_root`. -/
def setOwnAppRoot (appId : String) (rootDht : Key) (now : UInt64) (writes : Writes) :
    Fallible String (AppDirectoryManager Key) (OwnAppRootUpdate Key) := fun d =>
  let update (generation updatedAt : UInt64) : OwnAppRootUpdate Key :=
    { appId, rootDht := some rootDht, directoryDht := d.directoryDht, generation, updatedAt }
  let publishEntries (entries : List AppDirectoryEntry) :=
    let next := advance d.manifest entries now
    (do publish keys next writes; pure (update next.generation now)) d
  match d.manifest.entries.find? fun entry => entry.appId = appId with
  | some entry =>
    if entry.rootDht = keys.text rootDht then
      (.ok (update d.manifest.generation entry.updatedAt), d)
    else
      publishEntries <| updateFirst (fun entry => entry.appId = appId)
        (fun entry => { entry with rootDht := keys.text rootDht, updatedAt := now })
        d.manifest.entries
  | none =>
    if d.manifest.entries.length ≥ appDirectoryMaxEntries then
      (.error <| "app directory contains " ++ toString d.manifest.entries.length ++
        " entries; maximum is " ++ toString appDirectoryMaxEntries, d)
    else
      publishEntries <| sortEntries <| d.manifest.entries ++ [⟨appId, keys.text rootDht, now⟩]

/-- First section of `clear_own_app_root`. -/
def forgetAppRoot (appId : String) (saved : Option String) :
    Fallible String (AppDirectoryManager Key) Unit := fun d =>
  if ! isCanonicalApplicationId appId then (.error "application id is not canonical", d)
  else if (d.roots.lookup appId).isSome then
    (match saved with
      | some error => .error error
      | none => .ok (),
    { d with roots := d.roots.erase appId })
  else (.ok (), d)

/-- Second section of `clear_own_app_root`. -/
def clearOwnAppRoot (appId : String) (now : UInt64) (writes : Writes) :
    Fallible String (AppDirectoryManager Key) (OwnAppRootUpdate Key) := fun d =>
  let update (generation updatedAt : UInt64) : OwnAppRootUpdate Key :=
    { appId, rootDht := none, directoryDht := d.directoryDht, generation, updatedAt }
  if ! d.manifest.entries.any fun entry => entry.appId = appId then
    (.ok (update d.manifest.generation d.manifest.updatedAt), d)
  else
    let next := advance d.manifest (d.manifest.entries.filter fun entry => entry.appId ≠ appId) now
    (do publish keys next writes; pure (update next.generation now)) d

/-! ## A peer's lookup -/

/-- `network` gives what a read of a record's subkey from the network gives. -/
def resolvePeerRoot (network : Key → Nat → Except String Bytes) (appId : String)
    (peerMainDht : Key) (now : UInt64) : Except AppRecordError (Option Key × UInt64) := do
  let infoBytes ← (network peerMainDht appDirectoryLocation).mapError fun error =>
    .invalid ("could not read peer app-directory pointer: " ++ error)
  let info ← decodeAppDirectoryInfo keys infoBytes
  if ! info.timestampIsPlausibleAt now then
    throw <| .invalid "peer app-directory pointer has an implausible future timestamp"
  let directoryKey ← match keys.parse info.directoryDht with
    | some key => pure key
    | none => throw <| .invalid "peer app-directory key is invalid"
  let manifestBytes ← (network directoryKey appDirectorySubkey).mapError fun error =>
    .invalid ("could not read peer app directory: " ++ error)
  let manifest ← decodeAppDirectoryManifest keys manifestBytes
  if manifest.generation ≠ info.generation then
    throw <| .invalid <| "directory generation mismatch (pointer=" ++ toString info.generation ++
      ", manifest=" ++ toString manifest.generation ++ ")"
  if manifest.updatedAt > latestPlausible now then
    throw <| .invalid "peer app-directory manifest has an implausible future timestamp"
  let root ← match manifest.rootOf appId with
    | none => pure none
    | some text =>
      match keys.parse text with
      | some key => pure (some key)
      | none => throw <| .invalid "peer app root key is invalid"
  pure (root, manifest.generation)

end Manager

end VeilKnit.App
