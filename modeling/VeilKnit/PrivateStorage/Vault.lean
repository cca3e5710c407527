import Mathlib.Data.List.Sort
import Mathlib.Data.String.Basic
import VeilKnit.Library.AssociationList
import VeilKnit.Library.LabelledSystem
import VeilKnit.Types.AppRecords

/-!
# The private vault of an application

A vault is a directory: an encrypted manifest, a file for each value and a file for each chunk of a
blob. A file is named by a keyed hash of what it belongs to and bound to that by its encryption, so
files are given here by what they belong to. A file that is written is replaced as a whole or not
at all.

An operation plans its writes from the manifest that it has loaded. A write can fail, and the
process can die between two of them: of the planned writes only the first few happen. Files that
the manifest no longer names are removed as far as that works.
-/

namespace VeilKnit.PrivateStorage

open Library Types

def maxPrivateValueBytes : Nat := 524288
def maxPrivateBlobAppendBytes : Nat := 262144
def maxPrivateBlobReadBytes : Nat := 524288
def maxPrivateBlobBytes : Nat := 8589934592
def minEphemeralTtlSecs : UInt64 := 3600
def maxEphemeralTtlSecs : UInt64 := 86400
def defaultDeleteOnShutdownFallbackSecs : UInt64 := 86400
def defaultPrivateCacheLimitBytes : Nat := 1073741824
def incompleteBlobMaxAgeSecs : UInt64 := 86400
def manifestVersion : UInt32 := 1

inductive PrivateRetention
  | persistent | cache | temporary | deleteOnShutdown
  deriving DecidableEq

inductive PrivateStorageError
  | invalidKey
  | valueTooLarge (size : Nat)
  | invalidContentType
  | invalidBlobId
  | valueNotFound
  | blobNotFound
  | blobIncomplete
  | blobAlreadyComplete
  | blobTooLarge (size : Nat)
  | appendTooLarge (size : Nat)
  | rangeTooLarge (size : Nat)
  | invalidRange
  | invalidTtl
  | corrupt (message : String)
  | crypto (message : String)
  | persistence
  deriving DecidableEq

structure PrivateValueEntry where
  key : String
  bytes : Nat
  retention : PrivateRetention
  expiresAt : Option UInt64
  createdAt : UInt64
  updatedAt : UInt64
  lastAccessedAt : UInt64
  deriving DecidableEq

structure PrivateChunkEntry where
  index : UInt32
  plainBytes : Nat
  deriving DecidableEq

structure PrivateBlobEntry where
  blobId : String
  contentType : String
  totalBytes : Nat
  chunks : List PrivateChunkEntry
  complete : Bool
  retention : PrivateRetention
  expiresAt : Option UInt64
  createdAt : UInt64
  updatedAt : UInt64
  lastAccessedAt : UInt64
  deriving DecidableEq

structure PrivateAppManifest where
  version : UInt32
  values : AList fun _ : String => PrivateValueEntry
  blobs : AList fun _ : String => PrivateBlobEntry
  updatedAt : UInt64

def PrivateAppManifest.default (now : UInt64) : PrivateAppManifest where
  version := manifestVersion
  values := ∅
  blobs := ∅
  updatedAt := now

/-- What a caller learns of a value: its entry. -/
abbrev PrivateValueDescriptor := PrivateValueEntry

structure PrivateBlobDescriptor where
  blobId : String
  contentType : String
  totalBytes : Nat
  chunkCount : Nat
  complete : Bool
  retention : PrivateRetention
  expiresAt : Option UInt64
  createdAt : UInt64
  updatedAt : UInt64
  lastAccessedAt : UInt64
  deriving DecidableEq

def PrivateBlobEntry.descriptor (entry : PrivateBlobEntry) : PrivateBlobDescriptor where
  blobId := entry.blobId
  contentType := entry.contentType
  totalBytes := entry.totalBytes
  chunkCount := entry.chunks.length
  complete := entry.complete
  retention := entry.retention
  expiresAt := entry.expiresAt
  createdAt := entry.createdAt
  updatedAt := entry.updatedAt
  lastAccessedAt := entry.lastAccessedAt

structure PrivateStorageUsage where
  valueCount : Nat
  valueBytes : Nat
  blobCount : Nat
  blobBytes : Nat
  cacheBytes : Nat
  cacheLimitBytes : Nat
  deriving DecidableEq

/-! ## Checks -/

def validateValueKey (key : String) : Except PrivateStorageError Unit :=
  let key := Text.trim key
  if key = "" ∨ key.utf8ByteSize > 512 ∨ key.toList.any Text.isControl then .error .invalidKey
  else .ok ()

def isAsciiHexdigit (c : Char) : Bool :=
  ('0' ≤ c && c ≤ '9') || ('a' ≤ c && c ≤ 'f') || ('A' ≤ c && c ≤ 'F')

def validateBlobId (blobId : String) : Except PrivateStorageError Unit :=
  if blobId.utf8ByteSize ≠ 32 ∨ ¬ blobId.toList.all isAsciiHexdigit then .error .invalidBlobId
  else .ok ()

def ephemeralExpiry (ttl now : UInt64) : Except PrivateStorageError (Option UInt64) :=
  if minEphemeralTtlSecs ≤ ttl ∧ ttl ≤ maxEphemeralTtlSecs then .ok (some (saturatingAdd now ttl))
  else .error .invalidTtl

def expiryFor (retention : PrivateRetention) (ttlSeconds : Option UInt64) (now : UInt64) :
    Except PrivateStorageError (Option UInt64) :=
  match retention with
  | .persistent => .ok none
  | .cache => .ok none
  | .temporary =>
    match ttlSeconds with
    | none => .error .invalidTtl
    | some ttl => ephemeralExpiry ttl now
  | .deleteOnShutdown =>
    ephemeralExpiry (ttlSeconds.getD defaultDeleteOnShutdownFallbackSecs) now

def isExpired (expiresAt : Option UInt64) (now : UInt64) : Bool :=
  expiresAt.any fun at_ => at_ ≤ now

/-- An access is recorded once a minute. -/
def accessIsStale (lastAccessedAt now : UInt64) : Bool := 60 ≤ now.toNat - lastAccessedAt.toNat

/-! ## Files -/

/-- The manifest's file. One that does not decrypt or parse is unreadable. -/
inductive ManifestFile
  | absent
  | unreadable
  | stored (manifest : PrivateAppManifest)

structure Vault where
  manifest : ManifestFile
  valueFiles : String → Option Bytes
  chunkFiles : String → UInt32 → Option Bytes

inductive FileWrite
  | value (key : String) (bytes : Bytes)
  | chunk (blobId : String) (index : UInt32) (bytes : Bytes)
  | manifest (manifest : PrivateAppManifest)

/-- A write, or the removal of files that the manifest does not name any more. -/
inductive Action
  | write (file : FileWrite)
  | discard (values : String → Bool) (blobs : String → Bool)

/-- The files that a removal gets to. -/
structure Removed where
  values : String → Bool
  chunks : String → UInt32 → Bool

namespace Vault

def write (v : Vault) : FileWrite → Vault
  | .value key bytes => { v with valueFiles := Function.update v.valueFiles key (some bytes) }
  | .chunk blobId index bytes =>
    { v with
      chunkFiles := Function.update v.chunkFiles blobId
        (Function.update (v.chunkFiles blobId) index (some bytes)) }
  | .manifest manifest => { v with manifest := .stored manifest }

def discard (v : Vault) (removed : Removed) (values blobs : String → Bool) : Vault :=
  { v with
    valueFiles := fun key => if values key ∧ removed.values key then none else v.valueFiles key
    chunkFiles := fun blobId index =>
      if blobs blobId ∧ removed.chunks blobId index then none else v.chunkFiles blobId index }

/-- Go through the actions until a write does not happen. The budget is the number of writes that
do. -/
def perform (removed : Removed) : Vault → List Action → Nat → Vault × Bool
  | v, [], _ => (v, true)
  | v, .discard values blobs :: actions, budget =>
    perform removed (v.discard removed values blobs) actions budget
  | v, .write _ :: _, 0 => (v, false)
  | v, .write file :: actions, budget + 1 => perform removed (v.write file) actions budget

def loadManifest (v : Vault) (now : UInt64) : Except PrivateStorageError PrivateAppManifest :=
  match v.manifest with
  | .absent => .ok (.default now)
  | .unreadable => .error (.crypto "authentication failed")
  | .stored manifest =>
    if manifest.version ≠ manifestVersion then
      .error (.corrupt ("unsupported app manifest version " ++ toString manifest.version.toNat))
    else .ok manifest

end Vault

/-! ## The cache -/

inductive Candidate
  | value (key : String) (accessedAt : UInt64) (bytes : Nat)
  | blob (blobId : String) (accessedAt : UInt64) (bytes : Nat)
  deriving DecidableEq

namespace Candidate

def accessedAt : Candidate → UInt64
  | .value _ accessedAt _ => accessedAt
  | .blob _ accessedAt _ => accessedAt

def bytes : Candidate → Nat
  | .value _ _ bytes => bytes
  | .blob _ _ bytes => bytes

def isValue (key : String) : Candidate → Bool
  | .value other _ _ => other = key
  | .blob .. => false

def isBlob (blobId : String) : Candidate → Bool
  | .value .. => false
  | .blob other _ _ => other = blobId

/-- The order of eviction. -/
def Before (a b : Candidate) : Prop := a.accessedAt ≤ b.accessedAt

instance : DecidableRel Before := fun a b => inferInstanceAs (Decidable (a.accessedAt ≤ b.accessedAt))

instance : Std.Total Before := ⟨fun a b => UInt64.le_total a.accessedAt b.accessedAt⟩

instance : IsTrans Candidate Before := ⟨fun _ _ _ => UInt64.le_trans⟩

end Candidate

/-- The order in which a map is gone through. -/
abbrev Order := { arrange : List Candidate → List Candidate // ∀ l, (arrange l).Perm l }

namespace PrivateAppManifest

def isCachedValue (entry : PrivateValueEntry) : Bool := entry.retention = .cache

def isCachedBlob (entry : PrivateBlobEntry) : Bool := entry.complete ∧ entry.retention = .cache

def candidates (m : PrivateAppManifest) : List Candidate :=
  ((m.values.entries.filter fun e => isCachedValue e.2).map fun e =>
    .value e.1 e.2.lastAccessedAt e.2.bytes) ++
  ((m.blobs.entries.filter fun e => isCachedBlob e.2).map fun e =>
    .blob e.1 e.2.lastAccessedAt e.2.totalBytes)

def cacheBytes (m : PrivateAppManifest) : Nat :=
  ((m.values.entries.filter fun e => isCachedValue e.2).map fun e => e.2.bytes).sum +
  ((m.blobs.entries.filter fun e => isCachedBlob e.2).map fun e => e.2.totalBytes).sum

def remove (m : PrivateAppManifest) : Candidate → PrivateAppManifest
  | .value key _ _ => { m with values := m.values.erase key }
  | .blob blobId _ _ => { m with blobs := m.blobs.erase blobId }

/-- Remove candidates while there are too many bytes. -/
def evict (limit : Nat) : List Candidate → Nat → PrivateAppManifest →
    PrivateAppManifest × List Candidate
  | [], _, m => (m, [])
  | candidate :: rest, cached, m =>
    if cached ≤ limit then (m, [])
    else
      let (m, dead) := evict limit rest (cached - candidate.bytes) (m.remove candidate)
      (m, candidate :: dead)

/-- Bring the cache below its limit: the manifest, and what is to be done. -/
def pruneCache (m : PrivateAppManifest) (limit : Nat) (order : Order) (now : UInt64) :
    PrivateAppManifest × List Action :=
  if m.cacheBytes ≤ limit then (m, [])
  else
    let (pruned, dead) :=
      evict limit ((order.1 m.candidates).insertionSort Candidate.Before) m.cacheBytes m
    let pruned := { pruned with updatedAt := now }
    (pruned,
      [.write (.manifest pruned), .discard (fun key => dead.any (Candidate.isValue key))
          fun blobId => dead.any (Candidate.isBlob blobId)])

end PrivateAppManifest

/-! ## Operations -/

inductive Reply
  | value (descriptor : PrivateValueDescriptor)
  | found (value : Option (PrivateValueDescriptor × Bytes))
  | values (descriptors : List PrivateValueDescriptor)
  | removed (removed : Bool)
  | blob (descriptor : PrivateBlobDescriptor)
  | blobs (descriptors : List PrivateBlobDescriptor)
  | range (descriptor : PrivateBlobDescriptor) (bytes : Bytes)
  | usage (usage : PrivateStorageUsage)
  | shutdown (count : Nat)
  | done
  deriving DecidableEq

/-- What an operation is going to do, and what it will return. -/
structure Plan where
  actions : List Action
  reply : Reply

end VeilKnit.PrivateStorage
