import VeilKnit.BlobStore.Blob
import VeilKnit.Library.Chunks
import VeilKnit.Library.WriteOutcome
import VeilKnit.Recovery.Manifest

/-!
# Network-assisted recovery

A backup is encrypted with a random secret, cut into chunks and stored in a DHT record of its
own: the chunks from the second subkey on, and then a manifest in the first. The recovery code
has the key of the record and the secret.

The cipher, the hash, the JSON library and the texts of record keys are parameters. Below the
normalisation of the DHT layer a record keeps what is stored in it.
-/

namespace VeilKnit.Recovery

open Library
open Security (Aead Nonce)
open BlobStore (DhtRecord nullDhtValue deduplicateLocations chunkLocations)

def recoveryVersion : UInt16 := 1

def recoverySubkeys : UInt32 := 64

def recoveryChunkBytes : Nat := 12 * 1024

def maxRecoveryBytes : Nat := recoveryChunkBytes * 63

structure NetworkRecoveryState where
  recordKey : List Char
  chunkCount : UInt32
  createdAt : UInt64
  updatedAt : UInt64

structure RecoveryUploadResult where
  recoveryCode : List Char
  recordKey : List Char
  chunkCount : UInt32

/-! ## Parameters -/

/-- The texts of record keys. A text can be parsed again, and has no bar in it. -/
structure RecordKeys (Key : Type) where
  text : Key → List Char
  parse : List Char → Except String Key
  parse_text : ∀ key, parse (text key) = .ok key
  bar_notMem : ∀ key, '|' ∉ text key

structure Primitives (Key : Type) where
  keys : RecordKeys Key
  cipher : Aead
  sha256 : Bytes → Bytes
  manifestFromJson : Bytes → Except String RecoveryManifest
  manifestFromJson_toJson : ∀ manifest : RecoveryManifest,
    manifestFromJson manifest.toJson = .ok manifest

/-- A key of the cipher. -/
abbrev Secret := { bytes : Bytes // bytes.length = 32 }

/-! ## Records -/

inductive DhtError
  | notFound
  | keyPairError
  | veilidError (message : String)

def DhtError.debug : DhtError → String
  | .notFound => "NotFound"
  | .keyPairError => "KeyPairError"
  | .veilidError message => "VeilidError(" ++ message.quote ++ ")"

def formatDhtError (error : DhtError) : String := "DHT recovery error: " ++ error.debug

structure NetworkRecord where
  subkeyCount : UInt32
  values : DhtRecord

def NetworkRecord.read (record : NetworkRecord) (location : UInt32) : Except DhtError Bytes :=
  (record.values.read record.subkeyCount location).mapError fun _ => .notFound

/-- The records of the network, and the keys of those that the daemon can write. -/
structure Dht (Key : Type) where
  packages : List Key
  records : Key → Option NetworkRecord

/-- The order in which concurrent reads of some locations end. -/
structure Arrival where
  order : List UInt32 → List UInt32
  perm : ∀ locations, (order locations).Perm locations

namespace Dht

variable {Key : Type} [DecidableEq Key]

/-- Create a record. The network chooses its key, or fails. -/
def createDht (created : Except DhtError Key) (subkeyCount : UInt32) :
    Fallible DhtError (Dht Key) Nat := fun dht =>
  match created with
  | .error error => (.error error, dht)
  | .ok key =>
    (.ok dht.packages.length, {
      packages := dht.packages ++ [key]
      records := Function.update dht.records key (some { subkeyCount, values := fun _ => none }) })

def packageIdToKey (package : Nat) : Fallible DhtError (Dht Key) Key := fun dht =>
  match dht.packages[package]? with
  | none => (.error .notFound, dht)
  | some key => (.ok key, dht)

def writeOwnedSubkey (outcome : WriteOutcome) (package : Nat) (location : UInt32)
    (data : Bytes) : Fallible DhtError (Dht Key) Unit := fun dht =>
  match dht.packages[package]? with
  | none => (.error .notFound, dht)
  | some key =>
    match dht.records key with
    | none => (.error (.veilidError "record is not open"), dht)
    | some record =>
      if record.subkeyCount ≤ location then (.error .keyPairError, dht)
      else ((outcome.result "").mapError .veilidError,
        if outcome.landed then
          { dht with
            records := Function.update dht.records key
              (some { record with values := record.values.write location data }) }
        else dht)

def readForeignSubkey (dht : Dht Key) (key : Key) (location : UInt32) :
    Except DhtError Bytes :=
  match dht.records key with
  | none => .error (.veilidError "record is not found")
  | some record => record.read location

/-- Read some subkeys, in order of their locations. -/
def readForeignSubkeys (dht : Dht Key) (arrival : Arrival) (key : Key)
    (locations : List UInt32) : Except DhtError (List (UInt32 × Except DhtError Bytes)) :=
  match dht.records key with
  | none => .error (.veilidError "record is not found")
  | some record =>
    .ok (((arrival.order (deduplicateLocations locations)).map fun location =>
      (location, record.read location)).mergeSort fun a b => a.1 ≤ b.1)

end Dht

/-! ## Recovery codes -/

section Codes

variable {Key : Type}

def recoveryCode (keys : RecordKeys Key) (key : Key) (secret : Secret) : List Char :=
  ['V', 'K', 'R', '1'] ++ '|' :: (keys.text key ++ '|' :: Hex.encode secret.val)

def trim (text : List Char) : List Char :=
  (text.dropWhile fun c => Utf8.isWhitespace c.toNat).rdropWhile fun c =>
    Utf8.isWhitespace c.toNat

def parseSecret (text : List Char) : Except String Bytes :=
  match Hex.decode text with
  | none => .error "recovery secret is not valid hexadecimal"
  | some bytes => .ok bytes

def parseRecoveryCode (keys : RecordKeys Key) (value : List Char) :
    Except String (Key × Secret) :=
  match (trim value).splitOn '|' with
  | ['V', 'K', 'R', '1'] :: parts =>
    match parts with
    | [] => .error "recovery code is missing its DHT key"
    | keyText :: parts => do
      let key ← (keys.parse keyText).mapError ("recovery DHT key is invalid: " ++ ·)
      match parts with
      | [] => .error "recovery code is missing its secret"
      | secretText :: parts =>
        let secret ← parseSecret secretText
        if h : parts = [] ∧ secret.length = 32 then .ok (key, ⟨secret, h.2⟩)
        else .error "recovery code has an invalid secret"
  | _ => .error "recovery code must begin with VKR1"

end Codes

/-! ## The daemon -/

/-- The network, and what the daemon remembers of its last upload. -/
structure Daemon (Key : Type) where
  dht : Dht Key
  recoveryState : Option NetworkRecoveryState

/-- What an upload is answered by the network, the random source, the clock and the store of
the user's files. -/
structure UploadAnswers (Key : Type) where
  stateRead : Except String Unit
  created : Except DhtError Key
  secret : Secret
  nonce : Nonce
  written : UInt32 → WriteOutcome
  createdAt : UInt64
  now : UInt64
  stateWritten : Except String Unit
  wiped : UInt32 → WriteOutcome

section Calls

variable {Key : Type} [DecidableEq Key] (prim : Primitives Key)

def onDht {α : Type} (call : Fallible DhtError (Dht Key) α) :
    Fallible String (Daemon Key) α := fun s =>
  (((call s.dht).1).mapError formatDhtError, { s with dht := (call s.dht).2 })

def readState (answer : Except String Unit) :
    Fallible String (Daemon Key) (Option NetworkRecoveryState) := fun s =>
  (answer.map fun _ => s.recoveryState, s)

def writeState (answer : Except String Unit) (state : Option NetworkRecoveryState) :
    Fallible String (Daemon Key) Unit := fun s =>
  match answer with
  | .error error => (.error error, s)
  | .ok () => (.ok (), { s with recoveryState := state })

/-- Write chunks to the subkeys after a given one. -/
def writeChunks (written : UInt32 → WriteOutcome) (package : Nat) (index : Nat) :
    List Bytes → Fallible DhtError (Dht Key) Unit
  | [] => pure ()
  | chunk :: chunks => do
    let location := UInt32.ofNat (index + 1)
    Dht.writeOwnedSubkey (written location) package location chunk
    writeChunks written package (index + 1) chunks

def wipeLocations (wiped : UInt32 → WriteOutcome) (package : Nat) :
    List UInt32 → Fallible DhtError (Dht Key) Unit
  | [] => pure ()
  | location :: locations => do
    Dht.writeOwnedSubkey (wiped location) package location nullDhtValue
    wipeLocations wiped package locations

def wipeStateRecord (keys : RecordKeys Key) (wiped : UInt32 → WriteOutcome)
    (state : NetworkRecoveryState) : Fallible String (Daemon Key) Unit := fun s =>
  match keys.parse state.recordKey with
  | .error error => (.error ("saved recovery key is invalid: " ++ error), s)
  | .ok key =>
    match s.dht.packages.findIdx? (· = key) with
    | none =>
      (.error ("the recovery writer package is not available locally; " ++
        "import the identity backup before wiping it"), s)
    | some package =>
      onDht (wipeLocations wiped package
        ((List.range (state.chunkCount.toNat + 1)).map UInt32.ofNat)) s

/-- Wipe the record of an earlier upload. A record that cannot be wiped is only logged. -/
def wipePrevious (keys : RecordKeys Key) (wiped : UInt32 → WriteOutcome)
    (previousState : Option NetworkRecoveryState) (recordKey : List Char) :
    Fallible String (Daemon Key) Unit := fun s =>
  match previousState.filter (·.recordKey ≠ recordKey) with
  | none => (.ok (), s)
  | some previous => (.ok (), (wipeStateRecord keys wiped previous s).2)

/-- What an upload encrypts its backup to. -/
def ciphertextOf (answers : UploadAnswers Key) (backup : Bytes) : Bytes :=
  prim.cipher.encrypt answers.secret.val answers.nonce.val backup

def chunksOf (answers : UploadAnswers Key) (backup : Bytes) : List Bytes :=
  chunks recoveryChunkBytes (ciphertextOf prim answers backup)

def manifestOf (answers : UploadAnswers Key) (backup : Bytes) : RecoveryManifest where
  version := recoveryVersion
  nonceHex := String.ofList (Hex.encode answers.nonce.val)
  chunkCount := UInt32.ofNat (chunksOf prim answers backup).length
  ciphertextLen := UInt64.ofNat (ciphertextOf prim answers backup).length
  ciphertextSha256Hex :=
    String.ofList (Hex.encode (prim.sha256 (ciphertextOf prim answers backup)))
  createdAt := answers.createdAt

def uploadBackup (answers : UploadAnswers Key) (backup : Bytes) :
    Fallible String (Daemon Key) RecoveryUploadResult := do
  let previousState ← readState answers.stateRead
  if maxRecoveryBytes - 64 < backup.length then
    Fallible.throw ("backup is " ++ toString backup.length ++
      " bytes; network recovery currently supports at most " ++
      toString (maxRecoveryBytes - 64) ++ " bytes")
  else
    let package ← onDht (Dht.createDht answers.created recoverySubkeys)
    let key ← onDht (Dht.packageIdToKey package)
    let cuts := chunksOf prim answers backup
    if 63 < cuts.length then
      Fallible.throw "encrypted recovery backup requires too many DHT chunks"
    else
      onDht (writeChunks answers.written package 0 cuts)
      onDht (Dht.writeOwnedSubkey (answers.written 0) package 0
        (manifestOf prim answers backup).toJson)
      writeState answers.stateWritten (some {
        recordKey := prim.keys.text key
        chunkCount := UInt32.ofNat cuts.length
        createdAt := answers.now
        updatedAt := answers.now })
      wipePrevious prim.keys answers.wiped previousState (prim.keys.text key)
      pure {
        recoveryCode := recoveryCode prim.keys key answers.secret
        recordKey := prim.keys.text key
        chunkCount := UInt32.ofNat cuts.length }

/-- Put the values of the chunks together. -/
def joinChunks : List (UInt32 × Except DhtError Bytes) → Except String Bytes
  | [] => .ok []
  | (location, value) :: values => do
    let value ← value.mapError fun error =>
      "could not read recovery chunk " ++ toString location ++ ": " ++ formatDhtError error
    let rest ← joinChunks values
    pure (value ++ rest)

/-- Decrypt what the chunks hold, if it is what the manifest says. -/
def openCiphertext (manifest : RecoveryManifest) (secret : Secret) (stored : Bytes) :
    Except String Bytes :=
  let ciphertext := stored.take manifest.ciphertextLen.toNat
  if ciphertext.length ≠ manifest.ciphertextLen.toNat ∨
      String.ofList (Hex.encode (prim.sha256 ciphertext)) ≠ manifest.ciphertextSha256Hex then
    .error "network recovery data is incomplete or damaged"
  else
    match Hex.decode manifest.nonceHex.toList with
    | none => .error "recovery manifest nonce is invalid"
    | some nonce =>
      if nonce.length ≠ 12 then .error "recovery manifest nonce has the wrong length"
      else
        match prim.cipher.decrypt secret.val nonce ciphertext with
        | none => .error "recovery code is incorrect or the backup is damaged"
        | some backup => .ok backup

/-- The bytes that a download writes to its destination. -/
def downloadBackup (dht : Dht Key) (arrival : Arrival) (code : List Char) :
    Except String Bytes := do
  let (key, secret) ← parseRecoveryCode prim.keys code
  let manifestBytes ← (dht.readForeignSubkey key 0).mapError formatDhtError
  let manifest ← (prim.manifestFromJson manifestBytes).mapError
    ("recovery manifest is invalid: " ++ ·)
  if manifest.version ≠ recoveryVersion ∨ manifest.chunkCount = 0 ∨ 63 < manifest.chunkCount then
    .error "recovery manifest uses an unsupported layout"
  else
    let values ← (dht.readForeignSubkeys arrival key
      (chunkLocations manifest.chunkCount)).mapError formatDhtError
    let stored ← joinChunks (values.mergeSort fun a b => a.1 ≤ b.1)
    openCiphertext prim manifest secret stored

def wipeNetworkBackup (wiped : UInt32 → WriteOutcome) (stateRead stateWritten : Except String Unit) :
    Fallible String (Daemon Key) Unit := do
  match ← readState stateRead with
  | none => Fallible.throw "no local network recovery record is configured"
  | some state =>
    wipeStateRecord prim.keys wiped state
    writeState stateWritten none

end Calls

end VeilKnit.Recovery
