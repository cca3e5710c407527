import VeilKnit.PrivateStorage.Vault

/-!
# Operations on a vault

Every operation that changes the vault holds the write gate from loading the manifest to its last
removal. An operation is given as the plan that it makes from the manifest; the value's or chunk's
file is written first, and the manifest after it.
-/

namespace VeilKnit.PrivateStorage

open Library Types

/-- What an operation has to go by: the clock, the limit of the cache and the order in which it
goes through the maps. -/
structure Circumstances where
  now : UInt64
  limit : Nat
  order : Order

variable (c : Circumstances)

namespace PrivateAppManifest

def putEntry (m : PrivateAppManifest) (entry : PrivateValueEntry) (now : UInt64) :
    PrivateAppManifest :=
  { m with values := m.values.insert entry.key entry, updatedAt := now }

def putBlob (m : PrivateAppManifest) (entry : PrivateBlobEntry) (now : UInt64) :
    PrivateAppManifest :=
  { m with blobs := m.blobs.insert entry.blobId entry, updatedAt := now }

end PrivateAppManifest

/-- Write a manifest, and then bring the cache below its limit. -/
def saveAndPrune (m : PrivateAppManifest) : List Action :=
  .write (.manifest m) :: (m.pruneCache c.limit c.order c.now).2

/-! ## Values -/

def newEntry (m : PrivateAppManifest) (key : String) (value : Bytes)
    (retention : PrivateRetention) (expiresAt : Option UInt64) (now : UInt64) :
    PrivateValueEntry where
  key := key
  bytes := value.length
  retention := retention
  expiresAt := expiresAt
  createdAt := ((m.values.lookup key).map PrivateValueEntry.createdAt).getD now
  updatedAt := now
  lastAccessedAt := now

def putValue (v : Vault) (key : String) (value : Bytes) (retention : PrivateRetention)
    (ttlSeconds : Option UInt64) : Except PrivateStorageError Plan :=
  match validateValueKey key with
  | .error error => .error error
  | .ok () =>
    if value.length > maxPrivateValueBytes then .error (.valueTooLarge value.length)
    else
      match expiryFor retention ttlSeconds c.now, v.loadManifest c.now with
      | .error error, _ => .error error
      | .ok _, .error error => .error error
      | .ok expiresAt, .ok m =>
        let entry := newEntry m key value retention expiresAt c.now
        .ok { actions := .write (.value key value) :: saveAndPrune c (m.putEntry entry c.now)
              reply := .value entry }

def readValue (v : Vault) (key : String) (entry : PrivateValueEntry) :
    Except PrivateStorageError Bytes :=
  match v.valueFiles key with
  | none => .error (.corrupt ("value '" ++ key ++ "' is missing its encrypted file"))
  | some bytes =>
    if bytes.length ≠ entry.bytes then
      .error (.corrupt ("value '" ++ key ++ "' length did not match its manifest"))
    else .ok bytes

/-- The entry after an access. -/
def PrivateValueEntry.accessed (entry : PrivateValueEntry) (now : UInt64) : PrivateValueEntry :=
  if accessIsStale entry.lastAccessedAt now then { entry with lastAccessedAt := now } else entry

def getValue (v : Vault) (key : String) : Except PrivateStorageError Plan :=
  match validateValueKey key with
  | .error error => .error error
  | .ok () =>
    match v.loadManifest c.now with
    | .error error => .error error
    | .ok m =>
      match m.values.lookup key with
      | none => .ok { actions := [], reply := .found none }
      | some entry =>
        if isExpired entry.expiresAt c.now then .ok { actions := [], reply := .found none }
        else
          match readValue v key entry with
          | .error error => .error error
          | .ok bytes =>
            let after := entry.accessed c.now
            let refreshed : PrivateAppManifest :=
              { m with values := m.values.insert key after, updatedAt := c.now }
            .ok { actions :=
                    if accessIsStale entry.lastAccessedAt c.now then
                      [.write (.manifest refreshed)]
                    else []
                  reply := .found (some (after, bytes)) }

def listValues (v : Vault) : Except PrivateStorageError Plan :=
  match v.loadManifest c.now with
  | .error error => .error error
  | .ok m =>
    let live := (m.values.entries.map Sigma.snd).filter fun e => ¬ isExpired e.expiresAt c.now
    .ok { actions := [], reply := .values (live.mergeSort fun a b => a.key ≤ b.key) }

def deleteValue (v : Vault) (key : String) : Except PrivateStorageError Plan :=
  match validateValueKey key with
  | .error error => .error error
  | .ok () =>
    match v.loadManifest c.now with
    | .error error => .error error
    | .ok m =>
      match m.values.lookup key with
      | none => .ok { actions := [], reply := .removed false }
      | some _ =>
        .ok { actions :=
                [.write (.manifest { m with values := m.values.erase key, updatedAt := c.now }),
                  .discard (fun other => other = key) fun _ => false]
              reply := .removed true }

def renewValue (v : Vault) (key : String) (retention : PrivateRetention)
    (ttlSeconds : Option UInt64) : Except PrivateStorageError Plan :=
  match validateValueKey key with
  | .error error => .error error
  | .ok () =>
    match v.loadManifest c.now, expiryFor retention ttlSeconds c.now with
    | .error error, _ => .error error
    | .ok _, .error error => .error error
    | .ok m, .ok expiresAt =>
      match m.values.lookup key with
      | none => .error .valueNotFound
      | some entry =>
        if isExpired entry.expiresAt c.now then .error .valueNotFound
        else
          let renewed := { entry with
            retention := retention
            expiresAt := expiresAt
            updatedAt := c.now
            lastAccessedAt := c.now }
          .ok { actions :=
                  [.write (.manifest
                    { m with values := m.values.insert key renewed, updatedAt := c.now })]
                reply := .value renewed }

/-! ## Blobs -/

def validateContentType (contentType : String) : Except PrivateStorageError String :=
  let contentType := Text.trim contentType
  if contentType = "" ∨ contentType.utf8ByteSize > 256 ∨ contentType.toList.any Text.isControl then
    .error .invalidContentType
  else .ok contentType

def beginBlob (v : Vault) (blobId contentType : String) (retention : PrivateRetention)
    (ttlSeconds : Option UInt64) : Except PrivateStorageError Plan :=
  match validateContentType contentType with
  | .error error => .error error
  | .ok contentType =>
    match expiryFor retention ttlSeconds c.now, v.loadManifest c.now with
    | .error error, _ => .error error
    | .ok _, .error error => .error error
    | .ok expiresAt, .ok m =>
      let entry : PrivateBlobEntry :=
        { blobId := blobId
          contentType := contentType
          totalBytes := 0
          chunks := []
          complete := false
          retention := retention
          expiresAt := expiresAt
          createdAt := c.now
          updatedAt := c.now
          lastAccessedAt := c.now }
      .ok { actions := [.write (.manifest (m.putBlob entry c.now))]
            reply := .blob entry.descriptor }

/-- The entry of a blob that is there and has not expired. -/
def liveBlob (m : PrivateAppManifest) (blobId : String) (now : UInt64) :
    Except PrivateStorageError PrivateBlobEntry :=
  match m.blobs.lookup blobId with
  | none => .error .blobNotFound
  | some entry => if isExpired entry.expiresAt now then .error .blobNotFound else .ok entry

def checkAppend (m : PrivateAppManifest) (blobId : String) (data : Bytes) (now : UInt64) :
    Except PrivateStorageError PrivateBlobEntry :=
  match m.blobs.lookup blobId with
  | none => .error .blobNotFound
  | some entry =>
    if entry.complete then .error .blobAlreadyComplete
    else if isExpired entry.expiresAt now then .error .blobNotFound
    else if entry.totalBytes + data.length > maxPrivateBlobBytes ∨
        entry.chunks.length ≥ 4294967296 then
      .error (.blobTooLarge (entry.totalBytes + data.length))
    else .ok entry

def appendBlob (v : Vault) (blobId : String) (data : Bytes) : Except PrivateStorageError Plan :=
  match validateBlobId blobId with
  | .error error => .error error
  | .ok () =>
    if data = [] ∨ data.length > maxPrivateBlobAppendBytes then
      .error (.appendTooLarge data.length)
    else
      match v.loadManifest c.now with
      | .error error => .error error
      | .ok m =>
        match checkAppend m blobId data c.now with
        | .error error => .error error
        | .ok entry =>
          let index := UInt32.ofNat entry.chunks.length
          let appended := { entry with
            chunks := entry.chunks ++ [⟨index, data.length⟩]
            totalBytes := entry.totalBytes + data.length
            updatedAt := c.now
            lastAccessedAt := c.now }
          .ok { actions :=
                  [.write (.chunk blobId index data),
                    .write (.manifest
                      { m with blobs := m.blobs.insert blobId appended, updatedAt := c.now })]
                reply := .blob appended.descriptor }

def finishBlob (v : Vault) (blobId : String) : Except PrivateStorageError Plan :=
  match validateBlobId blobId with
  | .error error => .error error
  | .ok () =>
    match v.loadManifest c.now with
    | .error error => .error error
    | .ok m =>
      match liveBlob m blobId c.now with
      | .error error => .error error
      | .ok entry =>
        let finished :=
          { entry with complete := true, updatedAt := c.now, lastAccessedAt := c.now }
        .ok { actions := saveAndPrune c
                { m with blobs := m.blobs.insert blobId finished, updatedAt := c.now }
              reply := .blob finished.descriptor }

def abortBlob (v : Vault) (blobId : String) : Except PrivateStorageError Plan :=
  match validateBlobId blobId with
  | .error error => .error error
  | .ok () =>
    match v.loadManifest c.now with
    | .error error => .error error
    | .ok m =>
      match m.blobs.lookup blobId with
      | none => .ok { actions := [], reply := .removed false }
      | some _ =>
        .ok { actions :=
                [.write (.manifest { m with blobs := m.blobs.erase blobId, updatedAt := c.now }),
                  .discard (fun _ => false) fun other => other = blobId]
              reply := .removed true }

def listBlobs (v : Vault) : Except PrivateStorageError Plan :=
  match v.loadManifest c.now with
  | .error error => .error error
  | .ok m =>
    let live := (m.blobs.entries.map Sigma.snd).filter fun e => ¬ isExpired e.expiresAt c.now
    .ok { actions := []
          reply := .blobs ((live.map PrivateBlobEntry.descriptor).mergeSort fun a b =>
            a.createdAt ≤ b.createdAt) }

/-- Go through the chunks and take from each what lies in the range. -/
def readChunks (v : Vault) (blobId : String) (offset stop : Nat) :
    List PrivateChunkEntry → Nat → Except PrivateStorageError Bytes
  | [], _ => .ok []
  | chunk :: chunks, chunkStart =>
    let chunkEnd := chunkStart + chunk.plainBytes
    if chunkEnd ≤ offset then readChunks v blobId offset stop chunks chunkEnd
    else if stop ≤ chunkStart then .ok []
    else
      match v.chunkFiles blobId chunk.index with
      | none => .error (.corrupt ("blob " ++ blobId ++ " chunk missing"))
      | some plain =>
        if plain.length ≠ chunk.plainBytes then
          .error (.corrupt ("blob " ++ blobId ++ " chunk length mismatch"))
        else
          match readChunks v blobId offset stop chunks chunkEnd with
          | .error error => .error error
          | .ok rest =>
            .ok ((plain.take (min stop chunkEnd - chunkStart)).drop (offset - chunkStart) ++ rest)

/-- The entry after an access. -/
def PrivateBlobEntry.accessed (entry : PrivateBlobEntry) (now : UInt64) : PrivateBlobEntry :=
  if accessIsStale entry.lastAccessedAt now then { entry with lastAccessedAt := now } else entry

def readRange (v : Vault) (blobId : String) (entry : PrivateBlobEntry) (offset length : Nat) :
    Except PrivateStorageError Bytes :=
  if offset > entry.totalBytes ∨ offset + length > entry.totalBytes then .error .invalidRange
  else
    match (if length = 0 then .ok [] else
      readChunks v blobId offset (offset + length) entry.chunks 0) with
    | .error error => .error error
    | .ok bytes =>
      if bytes.length ≠ length then .error (.corrupt ("blob " ++ blobId ++ " range was incomplete"))
      else .ok bytes

def readBlobRange (v : Vault) (blobId : String) (offset length : Nat) :
    Except PrivateStorageError Plan :=
  match validateBlobId blobId with
  | .error error => .error error
  | .ok () =>
    if length > maxPrivateBlobReadBytes then .error (.rangeTooLarge length)
    else
      match v.loadManifest c.now with
      | .error error => .error error
      | .ok m =>
        match m.blobs.lookup blobId with
        | none => .error .blobNotFound
        | some entry =>
          if ¬ entry.complete then .error .blobIncomplete
          else if isExpired entry.expiresAt c.now then .error .blobNotFound
          else
            match readRange v blobId entry offset length with
            | .error error => .error error
            | .ok bytes =>
              let after := entry.accessed c.now
              let refreshed : PrivateAppManifest :=
                { m with blobs := m.blobs.insert blobId after, updatedAt := c.now }
              .ok { actions :=
                      if accessIsStale entry.lastAccessedAt c.now then
                        [.write (.manifest refreshed)]
                      else []
                    reply := .range after.descriptor bytes }

def renewBlob (v : Vault) (blobId : String) (retention : PrivateRetention)
    (ttlSeconds : Option UInt64) : Except PrivateStorageError Plan :=
  match validateBlobId blobId with
  | .error error => .error error
  | .ok () =>
    match v.loadManifest c.now, expiryFor retention ttlSeconds c.now with
    | .error error, _ => .error error
    | .ok _, .error error => .error error
    | .ok m, .ok expiresAt =>
      match liveBlob m blobId c.now with
      | .error error => .error error
      | .ok entry =>
        let renewed := { entry with
          retention := retention
          expiresAt := expiresAt
          updatedAt := c.now
          lastAccessedAt := c.now }
        .ok { actions :=
                [.write (.manifest
                  { m with blobs := m.blobs.insert blobId renewed, updatedAt := c.now })]
              reply := .blob renewed.descriptor }

/-! ## The whole vault -/

def usage (v : Vault) : Except PrivateStorageError Plan :=
  match v.loadManifest c.now with
  | .error error => .error error
  | .ok m =>
    let values := (m.values.entries.map Sigma.snd).filter fun e => ¬ isExpired e.expiresAt c.now
    let blobs := (m.blobs.entries.map Sigma.snd).filter fun e => ¬ isExpired e.expiresAt c.now
    let complete := blobs.filter PrivateBlobEntry.complete
    let cachedValues := values.filter PrivateAppManifest.isCachedValue
    let cachedBlobs := blobs.filter PrivateAppManifest.isCachedBlob
    .ok { actions := []
          reply := .usage
            { valueCount := values.length
              valueBytes := (values.map PrivateValueEntry.bytes).sum
              blobCount := blobs.length
              blobBytes := (complete.map PrivateBlobEntry.totalBytes).sum
              cacheBytes := (cachedValues.map PrivateValueEntry.bytes).sum +
                (cachedBlobs.map PrivateBlobEntry.totalBytes).sum
              cacheLimitBytes := c.limit } }

/-- The part of a shutdown that is about one application. -/
def prepareShutdown (v : Vault) : Except PrivateStorageError Plan :=
  match v.loadManifest c.now with
  | .error error => .error error
  | .ok m =>
    let values := m.values.filterEntries fun _ e => e.retention ≠ .deleteOnShutdown
    let blobs := m.blobs.filterEntries fun _ e => e.retention ≠ .deleteOnShutdown
    let removed := (m.values.entries.length - values.entries.length) +
      (m.blobs.entries.length - blobs.entries.length)
    .ok { actions :=
            if removed = 0 then []
            else [.write (.manifest
              { m with values := values, blobs := blobs, updatedAt := c.now })]
          reply := .shutdown removed }

def blobIsDead (entry : PrivateBlobEntry) (now : UInt64) : Bool :=
  isExpired entry.expiresAt now ∨
    ¬ entry.complete ∧ incompleteBlobMaxAgeSecs.toNat ≤ now.toNat - entry.updatedAt.toNat

/-- The part of a cleanup that is about one application. -/
def cleanup (v : Vault) : Except PrivateStorageError Plan :=
  match v.loadManifest c.now with
  | .error error => .error error
  | .ok m =>
    let swept : PrivateAppManifest :=
      { m with
        values := m.values.filterEntries fun _ e => ¬ isExpired e.expiresAt c.now
        blobs := m.blobs.filterEntries fun _ e => ¬ blobIsDead e c.now
        updatedAt := c.now }
    let (pruned, actions) := swept.pruneCache c.limit c.order c.now
    .ok { actions := actions ++
            [.write (.manifest pruned),
              -- Values that have expired, and whatever else the manifest does not name.
              .discard (fun key => (pruned.values.lookup key).isNone) fun blobId =>
                (pruned.blobs.lookup blobId).isNone]
          reply := .done }

/-! ## One operation after the other -/

inductive Op
  | putValue (key : String) (value : Bytes) (retention : PrivateRetention)
      (ttlSeconds : Option UInt64)
  | getValue (key : String)
  | listValues
  | deleteValue (key : String)
  | renewValue (key : String) (retention : PrivateRetention) (ttlSeconds : Option UInt64)
  | beginBlob (blobId contentType : String) (retention : PrivateRetention)
      (ttlSeconds : Option UInt64)
  | appendBlob (blobId : String) (data : Bytes)
  | finishBlob (blobId : String)
  | abortBlob (blobId : String)
  | listBlobs
  | readBlobRange (blobId : String) (offset length : Nat)
  | renewBlob (blobId : String) (retention : PrivateRetention) (ttlSeconds : Option UInt64)
  | usage
  | prepareShutdown
  | cleanup
  deriving DecidableEq

def Op.plan (v : Vault) : Op → Except PrivateStorageError Plan
  | .putValue key value retention ttlSeconds =>
    PrivateStorage.putValue c v key value retention ttlSeconds
  | .getValue key => PrivateStorage.getValue c v key
  | .listValues => PrivateStorage.listValues c v
  | .deleteValue key => PrivateStorage.deleteValue c v key
  | .renewValue key retention ttlSeconds => PrivateStorage.renewValue c v key retention ttlSeconds
  | .beginBlob blobId contentType retention ttlSeconds =>
    PrivateStorage.beginBlob c v blobId contentType retention ttlSeconds
  | .appendBlob blobId data => PrivateStorage.appendBlob c v blobId data
  | .finishBlob blobId => PrivateStorage.finishBlob c v blobId
  | .abortBlob blobId => PrivateStorage.abortBlob c v blobId
  | .listBlobs => PrivateStorage.listBlobs c v
  | .readBlobRange blobId offset length => PrivateStorage.readBlobRange c v blobId offset length
  | .renewBlob blobId retention ttlSeconds => PrivateStorage.renewBlob c v blobId retention ttlSeconds
  | .usage => PrivateStorage.usage c v
  | .prepareShutdown => PrivateStorage.prepareShutdown c v
  | .cleanup => PrivateStorage.cleanup c v

/-- An operation with its circumstances, the number of its writes that happen, and the files that
its removals get to. -/
structure Call extends Circumstances where
  op : Op
  budget : Nat
  removed : Removed

inductive Outcome
  | returned (reply : Reply)
  | failed (error : PrivateStorageError)
  deriving DecidableEq

/-- Carry an operation out. It fails when it is refused and when a write does not happen. A process
that dies leaves the vault in the same state as a write that fails. -/
def Call.exec (call : Call) (v : Vault) : Vault × Outcome :=
  match call.op.plan call.toCircumstances v with
  | .error error => (v, .failed error)
  | .ok plan =>
    match Vault.perform call.removed v plan.actions call.budget with
    | (v, true) => (v, .returned plan.reply)
    | (v, false) => (v, .failed .persistence)

end VeilKnit.PrivateStorage
