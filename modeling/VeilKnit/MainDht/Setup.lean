import Mathlib.Algebra.GroupWithZero.Nat
import VeilKnit.Library.LabelledSystem

/-!
# Setting up the main DHT

A process that starts restores the owned DHT packages of the last saved snapshot and then loads
or creates the user's main DHT. What survives a process is the disk, with the setup state and the
snapshot in two files, and the network, with the records and the subkeys written in them. A
process can end at any moment. Each file is replaced as a whole, and an operation that fails leaves
what it would have changed as it was.

Record keys are the numbers of the records on the network. The services that run beside the main
DHT create packages of other names and save the snapshot again.
-/

namespace VeilKnit.MainDht

open Library

def mainDhtName : String := "main_dht"

def mainDhtGroups : List Nat := [250, 1]

def mainDhtTotalSubkeys : Nat := 251

/-- An owned record, as the DHT module holds it. -/
structure RecordKeyPackage where
  recordKey : Nat
  name : String
  keypairs : List Nat
  subkeyRanges : List (Nat × Nat)
  ourIds : List Nat
deriving DecidableEq

structure StoredDhtRecord where
  recordKey : Nat
  name : String
  keypairs : List Nat
  subkeyRanges : List (Nat × Nat)
  memberIds : List Nat
deriving DecidableEq

structure UserSetupState where
  mainDhtSetup : Bool
  mainDhtPackageIndex : Option Nat
deriving DecidableEq

inductive UserDhtError
  | auth
  | dht
  | savedPackageMissing (packageIndex : Nat)
  | savedPackageTooSmall (packageIndex actualSubkeys requiredSubkeys : Nat)
deriving DecidableEq

def RecordKeyPackage.totalSubkeys (package : RecordKeyPackage) : Nat :=
  (package.subkeyRanges.map fun range => range.2 - range.1).sum

/-- The ranges of groups that lie one behind the other. -/
def subkeyRanges : Nat → List Nat → List (Nat × Nat)
  | _, [] => []
  | start, group :: groups => (start, start + group) :: subkeyRanges (start + group) groups

def RecordKeyPackage.store (package : RecordKeyPackage) : StoredDhtRecord where
  recordKey := package.recordKey
  name := package.name
  keypairs := package.keypairs
  subkeyRanges := package.subkeyRanges
  memberIds := package.ourIds

def StoredDhtRecord.restore (record : StoredDhtRecord) : RecordKeyPackage where
  recordKey := record.recordKey
  name := record.name
  keypairs := record.keypairs
  subkeyRanges := record.subkeyRanges
  ourIds := record.memberIds

def exportSnapshot (packages : List RecordKeyPackage) : List StoredDhtRecord :=
  packages.map RecordKeyPackage.store

def importSnapshot (records : List StoredDhtRecord) : List RecordKeyPackage :=
  records.map StoredDhtRecord.restore

structure Disk where
  setup : UserSetupState
  snapshot : List StoredDhtRecord
deriving DecidableEq

/-- The written subkeys of every record, and the records that were made as main DHTs. -/
structure Network where
  records : List (List Nat)
  mains : List Nat
deriving DecidableEq

/-- Where a call of `load_or_create_main_dht` stands: what it does next, or what it returned. -/
inductive Phase
  | loading
  /-- Reconnected to a saved package, before the final flag is written unless it is set. -/
  | reconnecting (packageIndex : Nat) (mainDhtSetup : Bool)
  | resetting
  | creating
  /-- The subkeys that are not written yet. -/
  | initializing (packageIndex : Nat) (missing : List Nat)
  | exporting (packageIndex : Nat)
  | recording (packageIndex : Nat)
  | finalizing (packageIndex : Nat)
  | done (packageIndex : Nat)
  | failed (error : UserDhtError)
deriving DecidableEq

/-- A running process: its packages, the package of the route manager, and its setup. -/
structure Process where
  packages : List RecordKeyPackage
  route : Option Nat
  phase : Phase
deriving DecidableEq

def Process.fail (process : Process) (error : UserDhtError) : Process :=
  { process with phase := .failed error }

structure State where
  disk : Disk
  network : Network
  process : Option Process
deriving DecidableEq

inductive Label
  /-- A process starts and imports the saved snapshot. -/
  | start
  /-- The setup takes its next step on the disk, which may fail. -/
  | advance (ok : Bool)
  /-- The creation of the main DHT ends, with the keys and member identifiers of its owners. -/
  | created (owners : Option (List Nat × List Nat))
  /-- One of the concurrent writes of the initialisation ends. -/
  | wrote (location : Nat) (ok : Bool)
  /-- Another service creates a package. -/
  | createOther (name : String) (groups : List Nat) (owners : List Nat × List Nat)
  /-- Another service or the shutdown saves the snapshot. -/
  | saveSnapshot
  /-- The process ends, by a crash or otherwise. -/
  | stop
deriving DecidableEq

/-- The next step of the setup on the disk. -/
def advance (disk : Disk) (process : Process) (ok : Bool) : Option (Disk × Process) :=
  match process.phase with
  | .loading =>
    if ok then
      match disk.setup.mainDhtPackageIndex with
      | none => some (disk, { process with phase := .resetting })
      | some index =>
        match process.packages[index]? with
        | some package =>
          if package.totalSubkeys < mainDhtTotalSubkeys then
            some (disk, process.fail
              (.savedPackageTooSmall index package.totalSubkeys mainDhtTotalSubkeys))
          else
            some (disk, { process with
              route := some index, phase := .reconnecting index disk.setup.mainDhtSetup })
        | none =>
          if disk.setup.mainDhtSetup then
            some (disk, process.fail (.savedPackageMissing index))
          -- The setup was incomplete and its package never saved: start over.
          else some (disk, { process with phase := .resetting })
    else some (disk, process.fail .auth)
  | .reconnecting index setup =>
    if setup then some (disk, { process with phase := .done index })
    else if ok then
      some ({ disk with setup := ⟨true, some index⟩ }, { process with phase := .done index })
    else some (disk, process.fail .auth)
  | .resetting =>
    if ok then some ({ disk with setup := ⟨false, none⟩ }, { process with phase := .creating })
    else some (disk, process.fail .auth)
  | .exporting index =>
    if ok then
      some ({ disk with snapshot := exportSnapshot process.packages },
        { process with phase := .recording index })
    else some (disk, process.fail .auth)
  | .recording index =>
    if ok then
      some ({ disk with setup := ⟨false, some index⟩ },
        { process with route := some index, phase := .finalizing index })
    else some (disk, process.fail .auth)
  | .finalizing index =>
    if ok then
      some ({ disk with setup := ⟨true, some index⟩ }, { process with phase := .done index })
    else some (disk, process.fail .auth)
  | .creating | .initializing _ _ | .done _ | .failed _ => none

/-- A new record on the network, as a package of the process. -/
def newPackage (network : Network) (name : String) (groups : List Nat)
    (owners : List Nat × List Nat) : RecordKeyPackage where
  recordKey := network.records.length
  name := name
  keypairs := owners.1
  subkeyRanges := subkeyRanges 0 groups
  ourIds := owners.2

/-- The record after one more subkey has been written. -/
def Network.write (network : Network) (recordKey location : Nat) : Network :=
  { network with records := network.records.modify recordKey (location :: ·) }

/-- The package of the new main DHT, with the group of its owners' keys and identifiers. -/
def newMain (network : Network) (owners : List Nat × List Nat) : RecordKeyPackage :=
  newPackage network mainDhtName mainDhtGroups owners

/-- The creation of the main DHT ends, and its initialisation begins. -/
def createMain (network : Network) (process : Process) (owners : Option (List Nat × List Nat)) :
    Option (Network × Process) :=
  match process.phase with
  | .creating =>
    match owners with
    | some owners =>
      some (⟨network.records ++ [[]], network.mains ++ [network.records.length]⟩,
        { process with
          packages := process.packages ++ [newMain network owners]
          phase := .initializing process.packages.length (List.range mainDhtTotalSubkeys) })
    | none => some (network, process.fail .dht)
  | _ => none

/-- One write of the initialisation ends. The last one ends the initialisation, and so does the
first that fails. -/
def writeSubkey (network : Network) (process : Process) (location : Nat) (ok : Bool) :
    Option (Network × Process) :=
  match process.phase with
  | .initializing index missing =>
    if location ∈ missing then
      if ok then
        (process.packages[index]?).map fun package =>
          (network.write package.recordKey location,
            { process with
              phase :=
                if missing.erase location = [] then .exporting index
                else .initializing index (missing.erase location) })
      else some (network, process.fail .dht)
    else none
  | _ => none

/-- Whether the setup is over, so that the other services may run. -/
def Process.HasReturned (process : Process) : Prop :=
  match process.phase with
  | .done _ | .failed _ => True
  | _ => False

instance (process : Process) : Decidable process.HasReturned :=
  match h : process.phase with
  | .done _ | .failed _ => .isTrue (by rw [Process.HasReturned, h]; trivial)
  | .loading | .reconnecting _ _ | .resetting | .creating | .initializing _ _ | .exporting _
  | .recording _ | .finalizing _ => .isFalse (by rw [Process.HasReturned, h]; exact id)

def next (s : State) : Label → Option State
  | .start =>
    match s.process with
    | none => some { s with process := some ⟨importSnapshot s.disk.snapshot, none, .loading⟩ }
    | some _ => none
  | .advance ok => do
    let process ← s.process
    let (disk, process) ← advance s.disk process ok
    some { s with disk, process := some process }
  | .created owners => do
    let process ← s.process
    let (network, process) ← createMain s.network process owners
    some { s with network, process := some process }
  | .wrote location ok => do
    let process ← s.process
    let (network, process) ← writeSubkey s.network process location ok
    some { s with network, process := some process }
  | .createOther name groups owners => do
    let process ← s.process
    if process.HasReturned ∧ name ≠ mainDhtName then
      some
        { s with
          network := { s.network with records := s.network.records ++ [[]] }
          process := some
            { process with
              packages := process.packages ++ [newPackage s.network name groups owners] } }
    else none
  | .saveSnapshot => do
    let process ← s.process
    if process.HasReturned then
      some { s with disk := { s.disk with snapshot := exportSnapshot process.packages } }
    else none
  | .stop => do
    let _ ← s.process
    some { s with process := none }

/-- An account without any setup. -/
def fresh : State := ⟨⟨⟨false, none⟩, []⟩, ⟨[], []⟩, none⟩

def system : LabelledSystem State Label := .ofFunction fresh next

@[simp]
theorem restore_store (package : RecordKeyPackage) : package.store.restore = package := rfl

@[simp]
theorem store_restore (record : StoredDhtRecord) : record.restore.store = record := rfl

/-- Importing what was exported brings back the packages in their order. -/
theorem importSnapshot_exportSnapshot (packages : List RecordKeyPackage) :
    importSnapshot (exportSnapshot packages) = packages := by
  rw [importSnapshot, exportSnapshot, List.map_map]
  exact List.map_id packages

theorem exportSnapshot_importSnapshot (records : List StoredDhtRecord) :
    exportSnapshot (importSnapshot records) = records := by
  rw [importSnapshot, exportSnapshot, List.map_map]
  exact List.map_id records

end VeilKnit.MainDht
