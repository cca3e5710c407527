import VeilKnit.Library.Fallible
import VeilKnit.Library.KeyedList
import VeilKnit.Mailbox.PageFormat

/-!
# The copy-on-write paged store

The store keeps its pages in memory. A commit divides pages that have grown too
large, writes every changed page to a subkey that neither the current nor the
previous index uses, reads the pages back, writes a new index into the other index
slot, and loads the whole generation once more before it replaces the pages in
memory. Loading takes the newest generation that validates completely.

The DHT record, the transaction log and the clock are parameters.
-/

namespace VeilKnit.Mailbox

open Library

/-- A page in memory. A page without a descriptor has never been written. -/
structure LocalPage (D T : Type) where
  descriptor : Option (CowPageDescriptor D)
  entries : List T
  dirty : Bool

structure CowPagedStore (D T : Type) where
  name : String
  packageIndex : Nat
  totalSubkeys : UInt32
  activeIndexSlot : Subkey
  currentIndex : Option (CowIndex D)
  previousIndex : Option (CowIndex D)
  pages : List (LocalPage D T)

/-- The advisory record of a commit in progress. -/
structure PendingCowTransaction where
  storeName : String
  packageIndex : Nat
  generation : UInt64
  targetIndexSlot : Subkey
  newPageSubkeys : List Subkey
  startedAt : UInt64
  deriving DecidableEq

/-- The operations of one DHT record and of the transaction log on a state. -/
structure DhtOps (σ : Type) where
  totalSubkeys : σ → Option UInt32
  read : Subkey → Fallible CreateDhtError σ Bytes
  write : Subkey → Bytes → Fallible CreateDhtError σ Unit
  persistTransactionLog : List PendingCowTransaction → Fallible MailboxError σ Unit

variable {D T σ : Type} [DigestScheme D] [DecidableEq D] [PageEntry T]

/-! ## The entries in memory -/

section Entries

/-- Whether the lookup of a key stops at a page with this descriptor. -/
def stopsAt (key : Key) : Option (CowPageDescriptor D) → Bool
  | none => true
  | some descriptor => key ≤ descriptor.lastKey

/-- The page that a key belongs to, from the descriptors alone. -/
def pageIndexOf (descriptors : List (Option (CowPageDescriptor D))) (key : Key) : Nat :=
  if descriptors.length ≤ 1 then 0
  else (descriptors.findIdx? (stopsAt key)).getD (descriptors.length - 1)

def findPageIndex (pages : List (LocalPage D T)) (key : Key) : Nat :=
  pageIndexOf (pages.map LocalPage.descriptor) key

namespace CowPagedStore

def generation (store : CowPagedStore D T) : UInt64 :=
  match store.currentIndex with
  | some index => index.generation
  | none => 0

def allEntries (store : CowPagedStore D T) : List T :=
  store.pages.flatMap LocalPage.entries

def pendingChanges (store : CowPagedStore D T) : Nat :=
  store.pages.countP LocalPage.dirty

def get (store : CowPagedStore D T) (key : Key) : Option T :=
  match store.pages[findPageIndex store.pages key]? with
  | some page => KeyedList.lookup pageKey key page.entries
  | none => none

def upsert (store : CowPagedStore D T) (entry : T) : CowPagedStore D T :=
  { store with
    pages := store.pages.modify (findPageIndex store.pages (pageKey entry)) fun page =>
      { page with entries := KeyedList.upsert pageKey entry page.entries, dirty := true } }

/-- The removed entry, if any, and the store without it. -/
def remove (store : CowPagedStore D T) (key : Key) : Option T × CowPagedStore D T :=
  match store.get key with
  | none => (none, store)
  | some entry =>
    (some entry,
      { store with
        pages := store.pages.modify (findPageIndex store.pages key) fun page =>
          { page with entries := KeyedList.remove pageKey key page.entries, dirty := true } })

end CowPagedStore

end Entries

/-! ## Dividing pages -/

section Rebalance

/-- Whether a page is divided, or written without its old descriptor. -/
def LocalPage.overflows (config : MailboxConfig) (page : LocalPage D T) : Bool :=
  page.dirty && config.pageSplitThreshold < serializedPageSize D page.entries

/-- Halve until a piece fits the target or is a single entry. Each level takes one
unit of fuel; as many units as entries are enough. -/
def splitWithin (D : Type) [DigestScheme D] (config : MailboxConfig) : Nat → List T → List (List T)
  | 0, entries => [entries]
  | fuel + 1, entries =>
    if entries.length ≤ 1 ∨ serializedPageSize D entries ≤ config.pageTargetSize then [entries]
    else
      let midpoint := entries.length / 2
      splitWithin D config fuel (entries.take midpoint) ++
        splitWithin D config fuel (entries.drop midpoint)

def splitEntries (D : Type) [DigestScheme D] (config : MailboxConfig) (entries : List T) :
    List (List T) :=
  splitWithin D config entries.length entries

/-- The pages that a page becomes. -/
def LocalPage.rebalance (config : MailboxConfig) (page : LocalPage D T) : List (LocalPage D T) :=
  let page := { page with entries := page.entries.insertionSort fun a b => pageKey a ≤ pageKey b }
  if page.overflows config then
    (splitEntries D config page.entries).map fun entries =>
      { descriptor := none, entries, dirty := true }
  else [page]

def LocalPage.firstKey (page : LocalPage D T) : Key := firstKeyOf page.entries

namespace CowPagedStore

/-- Divide the pages that have grown too large and put all pages in the order of
their first keys. -/
def rebalanceDirtyPages (store : CowPagedStore D T) (config : MailboxConfig) :
    CowPagedStore D T :=
  { store with
    pages := (store.pages.flatMap (LocalPage.rebalance config)).insertionSort
      fun a b => a.firstKey ≤ b.firstKey }

end CowPagedStore

end Rebalance

/-! ## Loading a generation -/

section Loading

variable (dht : DhtOps σ)

/-- Read a subkey of the record. -/
def DhtOps.fetch (subkey : Subkey) : Fallible MailboxError σ Bytes :=
  (dht.read subkey).mapError .ofDht

/-- Write a subkey of the record. -/
def DhtOps.store (subkey : Subkey) (bytes : Bytes) : Fallible MailboxError σ Unit :=
  (dht.write subkey bytes).mapError .ofDht

/-- Check the bytes of a page against its descriptor. -/
def openPage (descriptor : CowPageDescriptor D) (bytes : Bytes) :
    Except MailboxError (LocalPage D T) := do
  if bytes.length ≠ descriptor.serializedSize.toNat then
    .error (.storeCorrupt s!"page {descriptor.subkey} serialized-size mismatch")
  else
    let page : CowDataPage D T ← deserialize CowDataPage.codec bytes
    validatePage page descriptor
    .ok { descriptor := some descriptor, entries := page.entries, dirty := false }

/-- Read and check one page that an index lists. -/
def loadPage (descriptor : CowPageDescriptor D) : Fallible MailboxError σ (LocalPage D T) := do
  let bytes ← dht.fetch descriptor.subkey
  Fallible.lift (openPage descriptor bytes)

/-- Where an index lists no page, an empty store starts with this one. -/
def emptyPage : LocalPage D T where
  descriptor := none
  entries := []
  dirty := false

/-- Pages in the order of their descriptors' first keys. -/
def sortLoaded (pages : List (LocalPage D T)) : List (LocalPage D T) :=
  pages.insertionSort fun a b =>
    (a.descriptor.elim [] CowPageDescriptor.firstKey) ≤
      (b.descriptor.elim [] CowPageDescriptor.firstKey)

/-- All pages of an index. Every page is read; the first failure is reported. -/
def loadAndValidateOwnedPages (index : CowIndex D) :
    Fallible MailboxError σ (List (LocalPage D T)) := do
  Fallible.lift (validateIndexShape index)
  let pages ← Fallible.gather (loadPage dht) index.pages
  pure (if pages.isEmpty then [emptyPage] else sortLoaded pages)

/-- The bytes of an index slot hold a candidate if they decode to an index that has
the right shape and matches its own digest. -/
def openIndex (bytes : Bytes) : Option (CowIndex D) :=
  match deserialize CowIndex.codec bytes with
  | .error _ => none
  | .ok index =>
    match validateIndexShape index with
    | .error _ => none
    | .ok () => if indexDigest index = index.digest then some index else none

def readCandidate (slot : Subkey) :
    Fallible MailboxError σ (Option (Subkey × CowIndex D)) := do
  let result ← Fallible.attempt (dht.fetch slot)
  pure <| match result with
    | .error _ => none
    | .ok bytes => (openIndex bytes).map fun index => (slot, index)

/-- The generation a load has settled on. -/
structure ChosenGeneration (D T : Type) where
  slot : Subkey
  index : CowIndex D
  pages : List (LocalPage D T)

/-- Take the first candidate that validates as the current generation and the next
one as the previous. -/
def chooseGenerations :
    List (Subkey × CowIndex D) → Option (ChosenGeneration D T) → Option (CowIndex D) →
      Fallible MailboxError σ (Option (ChosenGeneration D T) × Option (CowIndex D))
  | [], chosen, older => pure (chosen, older)
  | (slot, index) :: candidates, chosen, older => do
    let result ← Fallible.attempt (loadAndValidateOwnedPages dht index)
    match result, chosen, older with
    | .ok pages, none, older =>
      chooseGenerations candidates (some { slot, index, pages }) older
    | .ok _, some chosen, none => chooseGenerations candidates (some chosen) (some index)
    | .ok _, some chosen, some older => chooseGenerations candidates (some chosen) (some older)
    | .error _, chosen, older => chooseGenerations candidates chosen older

/-- The store on the generation that a load has settled on. -/
def loadedStore (name : String) (packageIndex : Nat) (totalSubkeys : UInt32)
    (chosen : Option (ChosenGeneration D T)) (older : Option (CowIndex D)) : CowPagedStore D T :=
  match chosen with
  | some chosen =>
    { name, packageIndex, totalSubkeys
      activeIndexSlot := chosen.slot
      currentIndex := some chosen.index
      previousIndex := older
      pages := chosen.pages }
  | none =>
    { name, packageIndex, totalSubkeys
      activeIndexSlot := indexSlotA
      currentIndex := none
      previousIndex := older
      pages := [emptyPage] }

/-- Read both index slots and settle on the newest valid generation. -/
def loadGenerations (name : String) (packageIndex : Nat) (totalSubkeys : UInt32) :
    Fallible MailboxError σ (CowPagedStore D T) := do
  let slots ← Fallible.traverse (readCandidate dht) [indexSlotA, indexSlotB]
  let candidates := (slots.filterMap id).insertionSort fun a b => b.2.generation ≤ a.2.generation
  let (chosen, older) ← chooseGenerations dht candidates none none
  pure (loadedStore name packageIndex totalSubkeys chosen older)

def loadOwned (name : String) (packageIndex : Nat) :
    Fallible MailboxError σ (CowPagedStore D T) := fun w =>
  match dht.totalSubkeys w with
  | none => (.error (.dht s!"package {packageIndex} not found"), w)
  | some totalSubkeys => loadGenerations dht name packageIndex totalSubkeys w

end Loading

/-! ## Committing -/

section Committing

/-- A generation that is about to be written. -/
structure GenerationPlan (D : Type) where
  generation : UInt64
  targetSlot : Subkey
  newPages : List (CowPageDescriptor D)
  pageWrites : List (CowPageDescriptor D × Bytes)

/-- The wire form of a page under a subkey, and its descriptor. -/
def wirePage (generation : UInt64) (subkey : Subkey) (entries : List T) :
    CowPageDescriptor D × Bytes :=
  let unsigned : CowDataPage D T :=
    { version := mailboxProtocolVersion, generation, entries, digest := DigestScheme.zero }
  let page := { unsigned with digest := pageDigest unsigned }
  let bytes := page.serialize
  ({ subkey
     firstKey := firstKeyOf entries
     lastKey := lastKeyOf entries
     generation
     entryCount := UInt32.ofNat entries.length
     serializedSize := UInt32.ofNat bytes.length
     digest := page.digest }, bytes)

/-- Keep the descriptor of a clean page; give a changed page the next free subkey. -/
def planPages (generation : UInt64) (totalSubkeys : UInt32) (limit : Nat) :
    List Subkey → List (LocalPage D T) →
      Except MailboxError (List (CowPageDescriptor D) × List (CowPageDescriptor D × Bytes))
  | _, [] => .ok ([], [])
  | free, page :: pages =>
    if !page.dirty then
      match page.descriptor with
      | none => .error (.storeCorrupt "clean page has no descriptor")
      | some descriptor => do
        let (newPages, pageWrites) ← planPages generation totalSubkeys limit free pages
        .ok (descriptor :: newPages, pageWrites)
    else
      match free with
      | [] => .error .noFreePageSubkey
      | subkey :: free =>
        let (descriptor, bytes) := wirePage generation subkey page.entries
        if limit < bytes.length then
          .error (.storeCorrupt
            (s!"page remains {bytes.length} bytes after splitting; this {totalSubkeys}-subkey " ++
              s!"DHT safely permits about {limit} bytes per value"))
        else do
          let (newPages, pageWrites) ← planPages generation totalSubkeys limit free pages
          .ok (descriptor :: newPages, (descriptor, bytes) :: pageWrites)

namespace CowPagedStore

/-- The subkeys that an index uses. -/
def referenced (index : Option (CowIndex D)) : List Subkey :=
  match index with
  | some index => index.pages.map CowPageDescriptor.subkey
  | none => []

/-- The data subkeys that neither the current nor the previous index uses. -/
def freeSubkeys (store : CowPagedStore D T) : List Subkey :=
  ((List.range store.totalSubkeys.toNat).map UInt32.ofNat).filter fun subkey =>
    firstDataSubkey ≤ subkey ∧ subkey ∉ referenced store.currentIndex ∧
      subkey ∉ referenced store.previousIndex

/-- `saturating_add(1).max(1)` on the 64-bit generation. -/
def nextGeneration (store : CowPagedStore D T) : UInt64 :=
  if store.generation.toNat + 1 < 2 ^ 64 then store.generation + 1 else store.generation

def otherSlot (store : CowPagedStore D T) : Subkey :=
  if store.activeIndexSlot = indexSlotA then indexSlotB else indexSlotA

/-- Decide every write of the next generation. -/
def planGeneration (store : CowPagedStore D T) (config : MailboxConfig) :
    Except MailboxError (GenerationPlan D) := do
  let pageValueLimit :=
    min config.pageSplitThreshold (estimatedDhtValueLimit store.totalSubkeys)
  let (newPages, pageWrites) ←
    planPages store.nextGeneration store.totalSubkeys pageValueLimit store.freeSubkeys store.pages
  .ok {
    generation := store.nextGeneration
    targetSlot := store.otherSlot
    newPages := newPages.insertionSort fun a b => a.firstKey ≤ b.firstKey
    pageWrites }

/-- The index of a planned generation. -/
def planIndex (store : CowPagedStore D T) (plan : GenerationPlan D) (createdAt : UInt64) :
    CowIndex D :=
  let unsigned : CowIndex D :=
    { version := mailboxProtocolVersion
      generation := plan.generation
      previousGeneration := store.currentIndex.map CowIndex.generation
      createdAt
      pages := plan.newPages
      digest := DigestScheme.zero }
  { unsigned with digest := indexDigest unsigned }

/-- The log entry of a planned generation. -/
def planTransaction (store : CowPagedStore D T) (plan : GenerationPlan D) (startedAt : UInt64) :
    PendingCowTransaction where
  storeName := store.name
  packageIndex := store.packageIndex
  generation := plan.generation
  targetIndexSlot := plan.targetSlot
  newPageSubkeys := plan.pageWrites.map fun write => write.1.subkey
  startedAt

end CowPagedStore

variable (dht : DhtOps σ)

/-- Write all pages, then report the first failure. -/
def writePages (writes : List (CowPageDescriptor D × Bytes)) : Fallible MailboxError σ Unit := do
  let _ ← Fallible.gather (fun write => dht.store write.1.subkey write.2) writes
  pure ()

/-- Check a page that was just written. -/
def checkReadback (T : Type) [PageEntry T] (descriptor : CowPageDescriptor D) (bytes : Bytes) :
    Except MailboxError Unit := do
  let page : CowDataPage D T ← deserialize CowDataPage.codec bytes
  validatePage page descriptor

/-- Read a page back before it becomes reachable. -/
def readBackPage (T : Type) [PageEntry T] (descriptor : CowPageDescriptor D) :
    Fallible MailboxError σ Unit := do
  let bytes ← dht.fetch descriptor.subkey
  Fallible.lift (checkReadback T descriptor bytes)

/-- Check that an index slot holds the index that was just written. -/
def checkIndexReadback (index : CowIndex D) (bytes : Bytes) : Except MailboxError (CowIndex D) := do
  let readback ← deserialize CowIndex.codec bytes
  if readback.digest ≠ index.digest ∨ indexDigest readback ≠ index.digest then
    .error (.storeCorrupt "index readback digest mismatch")
  else .ok readback

/-- Write an index and read it back. -/
def writeIndex (slot : Subkey) (index : CowIndex D) : Fallible MailboxError σ (CowIndex D) := do
  dht.store slot index.serialize
  let bytes ← dht.fetch slot
  Fallible.lift (checkIndexReadback index bytes)

/-- Carry out a plan. The result is the index and the pages as they were read back. -/
def writeGeneration (store : CowPagedStore D T) (plan : GenerationPlan D) (createdAt : UInt64)
    (transactions : List PendingCowTransaction) :
    Fallible MailboxError σ (CowIndex D × List (LocalPage D T)) := do
  dht.persistTransactionLog transactions
  writePages dht plan.pageWrites
  let _ ← Fallible.traverse (fun write => readBackPage dht T write.1) plan.pageWrites
  let index := store.planIndex plan createdAt
  let dhtValueLimit := estimatedDhtValueLimit store.totalSubkeys
  if dhtValueLimit < index.serialize.length then
    Fallible.throw (.storeCorrupt
      (s!"index is {index.serialize.length} bytes; this {store.totalSubkeys}-subkey DHT safely " ++
        s!"permits about {dhtValueLimit} bytes per value and needs another segment"))
  else
    let readbackIndex ← writeIndex dht plan.targetSlot index
    let verifiedPages ← loadAndValidateOwnedPages dht readbackIndex
    pure (readbackIndex, verifiedPages)

/-- The times at which a commit looks at the clock. -/
structure CommitClock where
  startedAt : UInt64
  createdAt : UInt64

/-- What a commit leaves behind: its result, the store, the transaction log in
memory and the state of the record. -/
structure CommitOutcome (σ D T : Type) where
  result : Except MailboxError Bool
  store : CowPagedStore D T
  transactions : List PendingCowTransaction
  world : σ

/-- Switch to a verified generation. -/
def CowPagedStore.switchTo (store : CowPagedStore D T) (slot : Subkey) (index : CowIndex D)
    (pages : List (LocalPage D T)) : CowPagedStore D T :=
  { store with
    previousIndex := store.currentIndex
    currentIndex := some index
    activeIndexSlot := slot
    pages }

/-- Commit the changed pages. An error leaves the store divided but otherwise on its
old generation, unless only the last write of the transaction log failed. -/
def commitInner (store : CowPagedStore D T) (config : MailboxConfig) (clock : CommitClock)
    (transactions : List PendingCowTransaction) (world : σ) : CommitOutcome σ D T :=
  if store.pendingChanges = 0 then { result := .ok false, store, transactions, world }
  else
    let store := store.rebalanceDirtyPages config
    match store.planGeneration config with
    | .error error => { result := .error error, store, transactions, world }
    | .ok plan =>
      let transactions := transactions ++ [store.planTransaction plan clock.startedAt]
      match writeGeneration dht store plan clock.createdAt transactions world with
      | (.error error, world) => { result := .error error, store, transactions, world }
      | (.ok (index, pages), world) =>
        let switched := store.switchTo plan.targetSlot index pages
        let transactions := transactions.filter fun transaction =>
          !(transaction.storeName == store.name && transaction.generation == plan.generation)
        match dht.persistTransactionLog transactions world with
        | (.error error, world) =>
          { result := .error error, store := switched, transactions, world }
        | (.ok (), world) => { result := .ok true, store := switched, transactions, world }

end Committing

end VeilKnit.Mailbox
