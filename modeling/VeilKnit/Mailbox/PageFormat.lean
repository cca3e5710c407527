import VeilKnit.Library.Codec

/-!
# Indexes and pages of copy-on-write stores

A store keeps its entries in pages, each written under a subkey of a DHT record,
and an index that lists the pages. Both carry a digest of their own serialization
with the digest field zeroed. This module embeds the two formats, their digests
and the checks that a reader makes.

The hash is a parameter: a digest type with a zero, a layout and a function from
byte strings. Entries are a parameter as well: any type with a page key and a
layout.
-/

namespace VeilKnit.Mailbox

open Library

/-- Page keys are byte strings, in lexicographic order. -/
abbrev Key := Bytes

abbrev Subkey := UInt32

def mailboxProtocolVersion : UInt16 := 1

def indexSlotA : Subkey := 0

def indexSlotB : Subkey := 1

def firstDataSubkey : Subkey := 2

def pagedDhtTotalSubkeys : UInt32 := 64

/-- The largest structured value a reader decodes. -/
def maxNetworkDhtValueBytes : Nat := 64 * 1024

/-- The settings of the mailbox, with their defaults. -/
structure MailboxConfig where
  pageTargetSize : Nat := 12 * 1024
  pageSplitThreshold : Nat := 14 * 1024
  completeMessageMaxSize : Nat := 10 * 1024
  maxPlaintextSize : Nat := 8 * 1024
  maxServiceRequestSize : Nat := 8 * 1024
  maxServicePayloadSize : Nat := 1024
  maxServiceReplyRouteSize : Nat := 4 * 1024
  maxServiceRequestTtlSecs : UInt64 := 60 * 60
  recentServiceRequestCache : Nat := 1024
  maxTimestampSkewSecs : UInt64 := 15 * 60
  maxMessageAgeSecs : UInt64 := 365 * 24 * 60 * 60
  maxRequestedExpirySecs : UInt64 := 180 * 24 * 60 * 60
  minimumBumpIntervalSecs : UInt64 := 24 * 60 * 60
  activeMessagesPerSender : Nat := 256
  activeMessagesPerSenderRecipient : Nat := 32
  activeMessagesPerRecipient : Nat := 4096
  activeMessagesPerOverflowRecord : Nat := 1000
  candidateMessagesPerWalk : Nat := 128
  recipientInlinePointerLimit : Nat := 48
  recipientInlineByteLimit : Nat := 9 * 1024
  overflowDemotePointerLimit : Nat := 24
  overflowDemoteByteLimit : Nat := 6 * 1024
  overflowDemoteHysteresisSecs : UInt64 := 14 * 24 * 60 * 60
  maxOverflowDhts : Nat := 256

/-- Errors of the DHT module. -/
inductive CreateDhtError
  | notFound
  | other (description : String)
  deriving DecidableEq, Repr

/-- Errors of bounded decoding. -/
inductive NetworkDecodeError
  | emptyEnvelope
  | envelopeTooLarge (actual maximum : Nat)
  | decode
  deriving DecidableEq, Repr

/-- Errors of the mailbox. -/
inductive MailboxError
  | dht (message : String)
  | auth (message : String)
  | serialize (error : NetworkDecodeError)
  | crypto (message : String)
  | invalidMessage (message : String)
  | messageTooLarge (actual maximum : Nat)
  | plaintextTooLarge (actual maximum : Nat)
  | recipientNotAccepting
  | receiveKeyUnavailable (epoch : UInt64)
  | messageNotFound
  | quotaExceeded (name : String)
  | noFreePageSubkey
  | storeCorrupt (message : String)
  deriving DecidableEq, Repr

/-- The debug rendering of a DHT error. -/
def CreateDhtError.debug : CreateDhtError → String
  | .notFound => "NotFound"
  | .other description => description

def MailboxError.ofDht (error : CreateDhtError) : MailboxError := .dht error.debug

/-- A digest type: the zero that stands in while a value is hashed, the layout of a
digest, and the hash. -/
class DigestScheme (D : Type) where
  zero : D
  codec : Codec D
  hash : Bytes → D

/-- What a store can hold. -/
class PageEntry (T : Type) where
  pageKey : T → Key
  codec : Codec T

export PageEntry (pageKey)

/-- One page as the index lists it. -/
structure CowPageDescriptor (D : Type) where
  subkey : Subkey
  firstKey : Key
  lastKey : Key
  generation : UInt64
  entryCount : UInt32
  serializedSize : UInt32
  digest : D
  deriving DecidableEq

structure CowIndex (D : Type) where
  version : UInt16
  generation : UInt64
  previousGeneration : Option UInt64
  createdAt : UInt64
  pages : List (CowPageDescriptor D)
  digest : D
  deriving DecidableEq

structure CowDataPage (D T : Type) where
  version : UInt16
  generation : UInt64
  entries : List T
  digest : D

variable {D T : Type} [DigestScheme D] [PageEntry T]

section Layout

/-- Fields in the order of declaration. -/
def CowPageDescriptor.codec : Codec (CowPageDescriptor D) :=
  (Codec.u32.pair <| Codec.bytes.pair <| Codec.bytes.pair <| Codec.u64.pair <|
      Codec.u32.pair <| Codec.u32.pair DigestScheme.codec).imap
    (fun (subkey, firstKey, lastKey, generation, entryCount, serializedSize, digest) =>
      ⟨subkey, firstKey, lastKey, generation, entryCount, serializedSize, digest⟩)
    (fun d => (d.subkey, d.firstKey, d.lastKey, d.generation, d.entryCount, d.serializedSize,
      d.digest))
    (fun _ => rfl)

def CowIndex.codec : Codec (CowIndex D) :=
  (Codec.u16.pair <| Codec.u64.pair <| Codec.u64.option.pair <| Codec.u64.pair <|
      (CowPageDescriptor.codec.list).pair DigestScheme.codec).imap
    (fun (version, generation, previousGeneration, createdAt, pages, digest) =>
      ⟨version, generation, previousGeneration, createdAt, pages, digest⟩)
    (fun i => (i.version, i.generation, i.previousGeneration, i.createdAt, i.pages, i.digest))
    (fun _ => rfl)

def CowDataPage.codec : Codec (CowDataPage D T) :=
  (Codec.u16.pair <| Codec.u64.pair <| (PageEntry.codec.list).pair DigestScheme.codec).imap
    (fun (version, generation, entries, digest) => ⟨version, generation, entries, digest⟩)
    (fun p => (p.version, p.generation, p.entries, p.digest))
    (fun _ => rfl)

/-- Decode a value that is neither empty nor too large and has no trailing bytes. -/
def decodeBincodeLimited {α : Type} (codec : Codec α) (bytes : Bytes) (maximum : Nat) :
    Except NetworkDecodeError α :=
  if bytes.isEmpty then .error .emptyEnvelope
  else if maximum < bytes.length then .error (.envelopeTooLarge bytes.length maximum)
  else
    match codec.decodeAll bytes with
    | some a => .ok a
    | none => .error .decode

def deserialize {α : Type} (codec : Codec α) (bytes : Bytes) : Except MailboxError α :=
  (decodeBincodeLimited codec bytes maxNetworkDhtValueBytes).mapError .serialize

theorem deserialize_encode {α : Type} {codec : Codec α} {a : α}
    (hne : codec.encode a ≠ []) (hsize : (codec.encode a).length ≤ maxNetworkDhtValueBytes) :
    deserialize codec (codec.encode a) = .ok a := by
  have hempty : (codec.encode a).isEmpty = false := by simpa using hne
  simp [deserialize, decodeBincodeLimited, hempty, Nat.not_lt.mpr hsize, Except.mapError]

end Layout

section Digests

def CowDataPage.serialize (page : CowDataPage D T) : Bytes := CowDataPage.codec.encode page

def CowIndex.serialize (index : CowIndex D) : Bytes := CowIndex.codec.encode index

/-- The page as it is hashed. -/
def CowDataPage.unsigned (page : CowDataPage D T) : CowDataPage D T :=
  { page with digest := DigestScheme.zero }

/-- The index as it is hashed. -/
def CowIndex.unsigned (index : CowIndex D) : CowIndex D :=
  { index with digest := DigestScheme.zero }

def pageDigest (page : CowDataPage D T) : D := DigestScheme.hash page.unsigned.serialize

def indexDigest (index : CowIndex D) : D := DigestScheme.hash index.unsigned.serialize

/-- No two byte strings have the same hash. -/
def CollisionFree (D : Type) [DigestScheme D] : Prop :=
  Function.Injective (DigestScheme.hash : Bytes → D)

theorem pageDigest_inj (free : CollisionFree D) {p q : CowDataPage D T}
    (h : pageDigest p = pageDigest q) :
    p.version = q.version ∧ p.generation = q.generation ∧ p.entries = q.entries := by
  have hunsigned : p.unsigned = q.unsigned := CowDataPage.codec.encode_injective (free h)
  injection hunsigned with hversion hgeneration hentries
  exact ⟨hversion, hgeneration, hentries⟩

theorem indexDigest_inj (free : CollisionFree D) {i j : CowIndex D}
    (h : indexDigest i = indexDigest j) (hdigest : i.digest = j.digest) : i = j := by
  have hunsigned : i.unsigned = j.unsigned := CowIndex.codec.encode_injective (free h)
  injection hunsigned with hversion hgeneration hprevious hcreated hpages
  cases i
  cases j
  simp_all

end Digests

/-- The safe size of one value in a record of so many subkeys: its share of the
record's budget less a margin. -/
def estimatedDhtValueLimit (totalSubkeys : UInt32) : Nat :=
  let recordValueBudget := 1048576
  let safetyMargin := 512
  max (recordValueBudget / max totalSubkeys.toNat 1 - safetyMargin) 256

/-- The serialized size of a page of these entries. -/
def serializedPageSize (D : Type) [DigestScheme D] (entries : List T) : Nat :=
  let page : CowDataPage D T :=
    { version := mailboxProtocolVersion, generation := 0, entries, digest := DigestScheme.zero }
  { page with digest := pageDigest page }.serialize.length

/-- The first key, or the empty key of an empty page. -/
def firstKeyOf (entries : List T) : Key := (entries.head?.map pageKey).getD []

/-- The last key, or the empty key of an empty page. -/
def lastKeyOf (entries : List T) : Key := (entries.getLast?.map pageKey).getD []

/-! ## Validation -/

section Validation

/-- The ranges of the descriptors, in order and apart, after the range that ends
with `previousLast`. -/
def validateRanges : Option Key → List (CowPageDescriptor D) → Except MailboxError Unit
  | _, [] => .ok ()
  | previousLast, descriptor :: descriptors =>
    if descriptor.subkey < firstDataSubkey ∨ descriptor.lastKey < descriptor.firstKey then
      .error (.storeCorrupt "invalid page range")
    else if previousLast.any fun last => decide (descriptor.firstKey ≤ last) then
      .error (.storeCorrupt "overlapping or unsorted page ranges")
    else validateRanges (some descriptor.lastKey) descriptors

def validateIndexShape (index : CowIndex D) : Except MailboxError Unit :=
  if index.version ≠ mailboxProtocolVersion then
    .error (.storeCorrupt s!"unsupported index version {index.version}")
  else validateRanges none index.pages

/-- Keys increase strictly along the entries of a page. -/
def KeysIncrease (entries : List T) : Prop :=
  (entries.map pageKey).IsChain (· < ·)

instance (entries : List T) : Decidable (KeysIncrease entries) :=
  inferInstanceAs (Decidable ((entries.map pageKey).IsChain (· < ·)))

/-- A page agrees with its descriptor and is sorted. -/
def validatePage [DecidableEq D] (page : CowDataPage D T) (descriptor : CowPageDescriptor D) :
    Except MailboxError Unit :=
  if page.version ≠ mailboxProtocolVersion ∨ page.generation ≠ descriptor.generation ∨
      UInt32.ofNat page.entries.length ≠ descriptor.entryCount ∨
      page.digest ≠ descriptor.digest ∨ pageDigest page ≠ descriptor.digest then
    .error (.storeCorrupt s!"page {descriptor.subkey} metadata or digest mismatch")
  else if ¬ KeysIncrease page.entries then
    .error (.storeCorrupt s!"page {descriptor.subkey} is not strictly sorted")
  else if firstKeyOf page.entries ≠ descriptor.firstKey ∨
      lastKeyOf page.entries ≠ descriptor.lastKey then
    .error (.storeCorrupt s!"page {descriptor.subkey} key range mismatch")
  else .ok ()

end Validation

end VeilKnit.Mailbox
