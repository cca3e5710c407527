import VeilKnit.Library.AssociationList
import VeilKnit.Library.Fallible
import VeilKnit.Library.Utf8

/-!
# The storage below the blob store

An application's stores are DHT records of their own. The DHT layer does not store every byte
string as it is: an empty value, and a text that spells null, become the placeholder that
stands for an empty subkey, and the placeholder reads as if nothing were stored.

Below that the DHT keeps what it is given and returns it.
-/

namespace VeilKnit.BlobStore

open Library

/-! ## Text -/

def toAsciiLowercase (char : Nat) : Nat :=
  if 65 ≤ char ∧ char ≤ 90 then char + 32 else char

/-- The letters of `null`. -/
def nullText : List Nat := [110, 117, 108, 108]

/-- Whether bytes are a text that spells null, in letters of either case and with white space
around it. -/
def SpellsNull (data : Bytes) : Prop :=
  ∃ chars ∈ Utf8.decode data, (Utf8.trim chars).map toAsciiLowercase = nullText

instance (data : Bytes) : Decidable (SpellsNull data) :=
  inferInstanceAs (Decidable (∃ chars ∈ Utf8.decode data, _))

/-! ## The DHT layer -/

/-- The placeholder of an empty subkey. -/
def nullDhtValue : Bytes := [48]

inductive CreateDhtError
  | notFound
  deriving DecidableEq

def normalizeWriteBytes (data : Bytes) : Bytes :=
  if data = [] then nullDhtValue
  else if SpellsNull data then nullDhtValue
  else data

def normalizeDhtBytes (data : Bytes) : Except CreateDhtError Bytes :=
  if data = nullDhtValue then .error .notFound else .ok data

/-- The values of the subkeys that have been written. -/
abbrev DhtRecord := UInt32 → Option Bytes

/-- Write a subkey. -/
def DhtRecord.write (record : DhtRecord) (location : UInt32) (data : Bytes) : DhtRecord :=
  Function.update record location (some (normalizeWriteBytes data))

/-- Read a subkey of a record with a number of subkeys. -/
def DhtRecord.read (record : DhtRecord) (subkeyCount location : UInt32) :
    Except CreateDhtError Bytes :=
  if subkeyCount ≤ location then .error .notFound
  else match record location with
    | some data => normalizeDhtBytes data
    | none => .error .notFound

/-! ## The stores of an application -/

def maxInternalAppStoresPerApp : Nat := 2048

def maxAppStoreReadsPerRequest : Nat := 256

def maxAppStoreValueBytes : Nat := 32 * 1024

inductive AppServiceError
  | storeNotFound
  | tooManyStores
  | invalidSubkey (location : UInt32)
  | tooManyReads
  | valueTooLarge (size : Nat)
  | dht (message : String)
  deriving DecidableEq

structure AppStoreReadValue where
  location : UInt32
  value : Option Bytes
  isNull : Bool
  error : Option String
  deriving DecidableEq

def appStoreReadValue (location : UInt32) : Except CreateDhtError Bytes → AppStoreReadValue
  | .ok value =>
    if value = nullDhtValue then { location, value := none, isNull := true, error := none }
    else { location, value := some value, isNull := false, error := none }
  | .error .notFound =>
    { location, value := none, isNull := false
      error := some "application DHT operation failed: NotFound" }

/-- The locations in order and without repetitions. -/
def deduplicateLocations (locations : List UInt32) : List UInt32 :=
  (locations.mergeSort (· ≤ ·)).dedup

/-- The daemon's stores of an application, one DHT record of equally many subkeys each. A
store is known by its number, and its record by the text of its key. -/
structure AppStorage where
  stores : List DhtRecord

/-- The texts of the keys of an application's records. A text can be parsed again and is
short. -/
structure RecordKeys where
  text : Nat → Bytes
  parse : Bytes → Option Nat
  parse_text : ∀ n < maxInternalAppStoresPerApp, parse (text n) = some n
  text_length : ∀ n < maxInternalAppStoresPerApp, (text n).length ≤ 1024

namespace AppStorage

def createInternalStore (s : AppStorage) : Except AppServiceError (Nat × AppStorage) :=
  if maxInternalAppStoresPerApp ≤ s.stores.length then .error .tooManyStores
  else .ok (s.stores.length, { stores := s.stores ++ [fun _ => none] })

/-- Write one subkey of an own store. -/
def writeOwn (s : AppStorage) (subkeyCount : UInt32) (store : Nat) (location : UInt32)
    (value : Bytes) : Except AppServiceError AppStorage :=
  if maxAppStoreValueBytes < value.length then .error (.valueTooLarge value.length)
  else match s.stores[store]? with
    | none => .error .storeNotFound
    | some record =>
      if subkeyCount ≤ location then .error (.invalidSubkey location)
      else .ok { stores := s.stores.set store (record.write location value) }

def readValues (record : DhtRecord) (subkeyCount : UInt32) (locations : List UInt32) :
    List AppStoreReadValue :=
  (deduplicateLocations locations).map fun location =>
    appStoreReadValue location (record.read subkeyCount location)

def readOwn (s : AppStorage) (subkeyCount : UInt32) (store : Nat) (locations : List UInt32) :
    Except AppServiceError (List AppStoreReadValue) :=
  if maxAppStoreReadsPerRequest < locations.length then .error .tooManyReads
  else match s.stores[store]? with
    | none => .error .storeNotFound
    | some record =>
      match locations.find? (subkeyCount ≤ ·) with
      | some location => .error (.invalidSubkey location)
      | none => .ok (readValues record subkeyCount locations)

/-- Read subkeys of a record that is known by its key. -/
def readPublic (s : AppStorage) (subkeyCount : UInt32) (record : Nat) (locations : List UInt32) :
    Except AppServiceError (List AppStoreReadValue) :=
  if locations = [] ∨ maxAppStoreReadsPerRequest < locations.length then .error .tooManyReads
  else match s.stores[record]? with
    | none => .error (.dht "NotFound")
    | some record => .ok (readValues record subkeyCount locations)

end AppStorage

end VeilKnit.BlobStore
