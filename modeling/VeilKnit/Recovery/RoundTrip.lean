import VeilKnit.Library.LabelledSystem
import VeilKnit.Recovery.Downloads

/-!
# A backup and its recovery

An upload that succeeds leaves all chunks and the manifest in a new record, and no later part of
it touches them: what is wiped then is the record of the upload before, which has another key. So
the recovery code brings the backup back unless a chunk reads as an empty subkey.
-/

namespace VeilKnit.Recovery

open Library
open Library.Fallible (Triple triple_bind triple_pure triple_throw triple_and_pure)
open BlobStore (DhtRecord ReadsAsNull)

variable {Key : Type} [DecidableEq Key]

/-! ## Writes -/

/-- The daemon can write a record, which has some values. -/
structure Writes (package : Nat) (key : Key) (values : DhtRecord) (dht : Dht Key) : Prop where
  package : dht.packages[package]? = some key
  record : dht.records key = some { subkeyCount := recoverySubkeys, values }

variable {key other : Key} {package : Nat} {outcome : WriteOutcome}
  {location : UInt32} {data : Bytes}

theorem triple_writeOwnedSubkey
    (values : DhtRecord) (hlocation : location < recoverySubkeys) :
    Triple (Writes package key values) (Dht.writeOwnedSubkey outcome package location data)
      (fun _ => Writes package key (values.write location data))
      (fun _ _ => outcome ≠ .stored) := by
  intro dht hwrites
  have hin : ¬ recoverySubkeys ≤ location := UInt32.not_le.mpr hlocation
  cases outcome with
  | stored =>
    simp only [Dht.writeOwnedSubkey, hwrites.package, hwrites.record, if_neg hin]
    exact ⟨hwrites.package, Function.update_self ..⟩
  | failed error landed =>
    simp only [Dht.writeOwnedSubkey, hwrites.package, hwrites.record, if_neg hin]
    exact nofun

variable {record : Option NetworkRecord}

/-- A write leaves the records of other keys as they are. -/
theorem triple_writeOwnedSubkey_other (hother : other ≠ key) :
    Triple (fun dht : Dht Key => dht.packages[package]? = some other ∧ dht.records key = record)
      (Dht.writeOwnedSubkey outcome package location data)
      (fun _ dht => dht.packages[package]? = some other ∧ dht.records key = record)
      (fun _ dht => dht.packages[package]? = some other ∧ dht.records key = record) := by
  rintro dht ⟨hpackage, hrecord⟩
  rw [Dht.writeOwnedSubkey, hpackage]
  dsimp only
  cases hopen : dht.records other with
  | none => exact ⟨hpackage, hrecord⟩
  | some open_ =>
    dsimp only
    split_ifs
    · exact ⟨hpackage, hrecord⟩
    · cases outcome <;> exact ⟨hpackage, (Function.update_of_ne hother.symm ..).trans hrecord⟩
    · cases outcome <;> exact ⟨hpackage, hrecord⟩

theorem triple_writeChunks (written : UInt32 → WriteOutcome) (package : Nat) (key : Key)
    (cuts before : List Bytes) (hroom : before.length + cuts.length ≤ 63) :
    Triple (fun dht => ∃ values, Writes package key values dht ∧ Stored values before)
      (writeChunks written package before.length cuts)
      (fun _ dht => ∃ values, Writes package key values dht ∧ Stored values (before ++ cuts))
      (fun _ _ => ∃ location, written location ≠ .stored) := by
  induction cuts generalizing before with
  | nil =>
    refine triple_pure ?_
    simp
  | cons chunk cuts ih =>
    rw [List.length_cons] at hroom
    refine triple_bind (M := fun _ dht => ∃ values, Writes package key values dht ∧
      Stored values (before ++ [chunk])) ?_ fun _ => ?_
    · rintro dht ⟨values, hwrites, hstored⟩
      have hlocation := BlobStore.location_lt (i := before.length) (by omega)
      refine (triple_writeOwnedSubkey values hlocation).weaken (fun _ h => h) ?_ ?_ dht hwrites
      · exact fun _ _ h => ⟨_, h, hstored.write_next (by omega) chunk⟩
      · exact fun _ _ h => ⟨_, h⟩
    · have hlength : before.length + 1 = (before ++ [chunk]).length := by simp
      have hrest := ih (before ++ [chunk]) (by rw [← hlength]; omega)
      rw [← hlength, List.append_assoc] at hrest
      exact hrest

/-! ## Wipes -/

omit [DecidableEq Key] in
theorem triple_onDht {α : Type} {call : Fallible DhtError (Dht Key) α} {P : Dht Key → Prop}
    {Q : α → Dht Key → Prop} {E : Prop} (R : Option NetworkRecoveryState → Prop)
    (h : Triple P call Q fun _ _ => E) :
    Triple (fun s => P s.dht ∧ R s.recoveryState) (onDht call)
      (fun a s => Q a s.dht ∧ R s.recoveryState) (fun _ s => E ∧ R s.recoveryState) := by
  rintro s ⟨hP, hR⟩
  have hrun := h s.dht hP
  unfold onDht
  rcases hcall : call s.dht with ⟨error | a, dht⟩
  · rw [hcall] at hrun
    exact ⟨hrun, hR⟩
  · rw [hcall] at hrun
    exact ⟨hrun, hR⟩

/-- A state that an upload has left: it names a record. -/
def Recorded (keys : RecordKeys Key) (state : Option NetworkRecoveryState) : Prop :=
  ∀ saved ∈ state, ∃ key, saved.recordKey = keys.text key

theorem triple_wipeLocations (wiped : UInt32 → WriteOutcome)
    (hother : other ≠ key) (locations : List UInt32) :
    Triple (fun dht : Dht Key => dht.packages[package]? = some other ∧ dht.records key = record)
      (wipeLocations wiped package locations) (fun _ dht => dht.records key = record)
      (fun _ dht => dht.records key = record) := by
  induction locations with
  | nil => exact triple_pure fun _ h => h.2
  | cons location locations ih =>
    refine triple_bind ?_ fun _ => ih
    exact (triple_writeOwnedSubkey_other hother).weaken (fun _ h => h) (fun _ _ h => h)
      fun _ _ h => h.2

/-- Wiping one record leaves the others. -/
theorem wipeStateRecord_other {keys : RecordKeys Key} (wiped : UInt32 → WriteOutcome)
    {saved : NetworkRecoveryState} (hsaved : saved.recordKey = keys.text other)
    (hother : other ≠ key) (s : Daemon Key) :
    (wipeStateRecord keys wiped saved s).2.dht.records key = s.dht.records key ∧
      (wipeStateRecord keys wiped saved s).2.recoveryState = s.recoveryState := by
  unfold wipeStateRecord
  rw [hsaved, keys.parse_text]
  dsimp only
  cases hfound : s.dht.packages.findIdx? (· = other) with
  | none => exact ⟨rfl, rfl⟩
  | some package =>
    refine ⟨?_, rfl⟩
    obtain ⟨hlt, hkey, _⟩ := List.findIdx?_eq_some_iff_getElem.mp hfound
    have hpackage : s.dht.packages[package]? = some other := by
      rw [List.getElem?_eq_getElem hlt]
      exact congrArg some (of_decide_eq_true hkey)
    have hrun := triple_wipeLocations wiped hother
      ((List.range (saved.chunkCount.toNat + 1)).map UInt32.ofNat) s.dht ⟨hpackage, rfl⟩
    simp only [onDht]
    split at hrun
    case h_1 dht heq => rw [heq]; exact hrun
    case h_2 error dht heq => rw [heq]; exact hrun

/-! ## Uploads -/

/-- A backup that fits, and nothing that fails on the way. -/
structure Accepted (answers : UploadAnswers Key) (backup : Bytes) : Prop where
  fits : backup.length ≤ maxRecoveryBytes - 64
  stateRead : answers.stateRead = .ok ()
  created : ∃ key, answers.created = .ok key
  written : ∀ location, answers.written location = .stored
  stateWritten : answers.stateWritten = .ok ()

variable {prim : Primitives Key} {answers : UploadAnswers Key} {backup : Bytes}

/-- A new record is blank. -/
theorem triple_createDht (answers : UploadAnswers Key) (backup : Bytes) :
    Triple (fun _ : Dht Key => True)
    (Dht.createDht answers.created recoverySubkeys)
    (fun package dht => ∃ key, Writes package key (fun _ => none) dht)
    (fun _ _ => ¬ Accepted answers backup) := by
  intro dht _
  cases hcreated : answers.created with
  | error error =>
    intro haccepted
    obtain ⟨key, hkey⟩ := haccepted.created
    rw [hcreated] at hkey
    cases hkey
  | ok key => exact ⟨key, by simp, Function.update_self ..⟩

omit [DecidableEq Key] in
theorem triple_readState : Triple (fun s : Daemon Key => Recorded prim.keys s.recoveryState)
      (readState answers.stateRead)
      (fun previous s => Recorded prim.keys s.recoveryState ∧ Recorded prim.keys previous)
      (fun _ s => ¬ Accepted answers backup ∧ Recorded prim.keys s.recoveryState) := by
  intro s hs
  cases hread : answers.stateRead with
  | error error => exact ⟨fun haccepted => by simp [haccepted.stateRead] at hread, hs⟩
  | ok _ => exact ⟨hs, hs⟩

/-- What is left after an upload. Where it fails, something was not accepted. -/
theorem triple_uploadBackup (prim : Primitives Key) (answers : UploadAnswers Key) (backup : Bytes) :
    Triple (fun s => Recorded prim.keys s.recoveryState) (uploadBackup prim answers backup)
      (fun result s => (∃ key, result.recoveryCode = recoveryCode prim.keys key answers.secret ∧
        result.recordKey = prim.keys.text key ∧ backup.length ≤ maxRecoveryBytes - 64 ∧
        Uploaded key (manifestOf prim answers backup)
          (chunksOf prim answers backup) s.dht) ∧ Recorded prim.keys s.recoveryState)
      (fun _ s => ¬ Accepted answers backup ∧ Recorded prim.keys s.recoveryState) := by
  refine triple_bind triple_readState fun previous => triple_and_pure fun hprevious => ?_
  split_ifs with hlong
  · exact triple_throw fun s hs => ⟨fun haccepted => absurd haccepted.fits (by omega), hs⟩
  have hfits : backup.length ≤ maxRecoveryBytes - 64 := by omega
  have hcount := length_chunksOf prim answers hfits
  have hcreate := triple_onDht (Recorded prim.keys) (triple_createDht answers backup)
  refine triple_bind (hcreate.weaken (fun s hs => ⟨trivial, hs⟩) (fun _ _ h => h)
    fun _ _ h => h) fun package => ?_
  -- The record that has been created is the one that is written.
  refine triple_bind (M := fun key s => Writes package key (fun _ => none) s.dht ∧
    Recorded prim.keys s.recoveryState) ?_ fun key => ?_
  · rintro s ⟨⟨key, hwrites⟩, hs⟩
    simp only [onDht, Dht.packageIdToKey, hwrites.package]
    exact ⟨hwrites, hs⟩
  rw [if_neg (Nat.not_lt.mpr hcount.2)]
  have hchunks := triple_onDht (Recorded prim.keys) (triple_writeChunks answers.written package
    key (chunksOf prim answers backup) [] (by simpa using hcount.2))
  refine triple_bind (hchunks.weaken (fun s hs => ⟨⟨_, hs.1, by simp [Stored]⟩, hs.2⟩)
    (fun _ _ h => h) ?_) fun _ => ?_
  · rintro _ s ⟨⟨location, hfailed⟩, hs⟩
    exact ⟨fun haccepted => hfailed (haccepted.written location), hs⟩
  refine triple_bind (M := fun _ s => Uploaded key (manifestOf prim answers backup)
    (chunksOf prim answers backup) s.dht ∧ Recorded prim.keys s.recoveryState) ?_ fun _ => ?_
  · rintro s ⟨⟨values, hwrites, hstored⟩, hs⟩
    refine (triple_onDht (Recorded prim.keys) (triple_writeOwnedSubkey values
      (by decide))).weaken (fun _ h => h) ?_ ?_ s ⟨hwrites, hs⟩
    · exact fun _ s h => ⟨⟨_, h.1.record, Function.update_self ..,
        hstored.write_zero hcount.2 _⟩, h.2⟩
    · exact fun _ s h => ⟨fun haccepted => h.1 (haccepted.written 0), h.2⟩
  refine triple_bind (M := fun _ s => Uploaded key (manifestOf prim answers backup)
    (chunksOf prim answers backup) s.dht ∧ Recorded prim.keys s.recoveryState) ?_ fun _ => ?_
  · rintro s ⟨hup, hs⟩
    cases hwritten : answers.stateWritten with
    | error error => exact ⟨fun haccepted => by simp [haccepted.stateWritten] at hwritten, hs⟩
    | ok _ =>
      refine ⟨hup, fun saved hsaved => ⟨key, ?_⟩⟩
      cases hsaved
      rfl
  refine triple_bind (M := fun _ s => Uploaded key (manifestOf prim answers backup)
    (chunksOf prim answers backup) s.dht ∧ Recorded prim.keys s.recoveryState) ?_ fun _ => ?_
  · rintro s ⟨⟨values, hrecord, hvalues⟩, hs⟩
    unfold wipePrevious
    cases hold : previous.filter (·.recordKey ≠ prim.keys.text key) with
    | none => exact ⟨⟨values, hrecord, hvalues⟩, hs⟩
    | some saved =>
      obtain ⟨hmem, hdiffers⟩ := Option.filter_eq_some_iff.mp hold
      obtain ⟨other, hother⟩ := hprevious saved hmem
      -- The previous record has another text, so it is another record.
      have hne : other ≠ key := by
        rintro rfl
        simp [hother] at hdiffers
      obtain ⟨hsame, hstate⟩ := wipeStateRecord_other answers.wiped hother hne s
      refine ⟨⟨values, hsame.trans hrecord, hvalues⟩, ?_⟩
      rw [hstate]
      exact hs
  · exact triple_pure fun s hs => ⟨⟨key, rfl, rfl, hfits, hs.1⟩, hs.2⟩

/-! ## Runs -/

/-- What happens to the user's recovery record. The network, and what else the daemon stores
there, changes in any way. -/
inductive Label (Key : Type)
  | upload (answers : UploadAnswers Key) (backup : Bytes)
  | wipe (wiped : UInt32 → WriteOutcome) (stateRead stateWritten : Except String Unit)
  | network (dht : Dht Key)

def next (prim : Primitives Key) (s : Daemon Key) : Label Key → Daemon Key
  | .upload answers backup => (uploadBackup prim answers backup s).2
  | .wipe wiped stateRead stateWritten =>
    (wipeNetworkBackup prim wiped stateRead stateWritten s).2
  | .network dht => { s with dht }

def system (prim : Primitives Key) : LabelledSystem (Daemon Key) (Label Key) where
  initial s := s.recoveryState = none
  step s label t := next prim s label = t

theorem wipeStateRecord_recoveryState (keys : RecordKeys Key) (wiped : UInt32 → WriteOutcome)
    (saved : NetworkRecoveryState) (s : Daemon Key) :
    (wipeStateRecord keys wiped saved s).2.recoveryState = s.recoveryState := by
  unfold wipeStateRecord
  split
  · rfl
  · split <;> rfl

variable {s : Daemon Key}

theorem recorded_next (hs : Recorded prim.keys s.recoveryState)
    (label : Label Key) : Recorded prim.keys (next prim s label).recoveryState := by
  cases label with
  | upload answers backup =>
    have hrun := triple_uploadBackup prim answers backup s hs
    rw [next]
    split at hrun
    case h_1 result s' heq => rw [heq]; exact hrun.2
    case h_2 error s' heq => rw [heq]; exact hrun.2
  | wipe wiped stateRead stateWritten =>
    rw [next, wipeNetworkBackup]
    cases stateRead with
    | error error => exact hs
    | ok _ =>
      have hread : readState (.ok ()) s = (.ok s.recoveryState, s) := rfl
      rw [Fallible.bind_ok hread]
      cases hsaved : s.recoveryState with
      | none => exact hs
      | some saved =>
        have hkept := wipeStateRecord_recoveryState prim.keys wiped saved s
        dsimp only
        rcases hwipe : wipeStateRecord prim.keys wiped saved s with ⟨error | _, s'⟩
        · rw [Fallible.bind_error hwipe]
          rw [hwipe] at hkept
          rw [hkept]
          exact hs
        · rw [Fallible.bind_ok hwipe]
          rw [hwipe] at hkept
          cases stateWritten with
          | error error => exact hkept ▸ hs
          | ok _ => exact fun _ h => nomatch h
  | network dht => exact hs

/-- What a daemon remembers of an upload names the record of one. -/
theorem recorded_of_reachable (reached : (system prim).Reachable s) :
    Recorded prim.keys s.recoveryState := by
  refine LabelledSystem.Invariant.holds (P := fun s => Recorded prim.keys s.recoveryState) ?_ reached
  refine ⟨fun s hinit => ?_, fun s label t hs hstep => ?_⟩
  · intro saved hsaved
    rw [show s.recoveryState = none from hinit] at hsaved
    cases hsaved
  · obtain rfl : next prim s label = t := hstep
    exact recorded_next hs label

/-- An upload that nothing fails on the way of succeeds. -/
theorem uploadBackup_returns (reached : (system prim).Reachable s)
    (accepted : Accepted answers backup) :
    ∃ result s', uploadBackup prim answers backup s = (.ok result, s') := by
  have hrun := (triple_uploadBackup prim answers backup).weaken (E := fun _ _ => False)
    (fun _ h => h) (fun _ _ h => h) fun _ _ h => h.1 accepted
  obtain ⟨result, s', heq, _⟩ := hrun.returns (recorded_of_reachable reached)
  exact ⟨result, s', heq⟩

/-- After an upload that has succeeded, and for as long as its record is kept, the recovery code
brings the backup back exactly when no chunk of the ciphertext is a text that the DHT layer
takes for an empty subkey. -/
theorem backup_reads_back_iff {s s' : Daemon Key} {result : RecoveryUploadResult}
    (reached : (system prim).Reachable s)
    (uploaded : uploadBackup prim answers backup s = (.ok result, s')) {later : Dht Key}
    (kept : ∀ key, prim.keys.text key = result.recordKey →
      later.records key = s'.dht.records key) (arrival : Arrival) :
    downloadBackup prim later arrival result.recoveryCode = .ok backup ↔
      ∀ chunk ∈ chunksOf prim answers backup, ¬ ReadsAsNull chunk := by
  obtain ⟨⟨key, hcode, hkey, hfits, values, hrecord, hvalues⟩, _⟩ :=
    (triple_uploadBackup prim answers backup).ok (recorded_of_reachable reached) uploaded
  have hup : Uploaded key (manifestOf prim answers backup) (chunksOf prim answers backup) later :=
    ⟨values, (kept key hkey.symm).trans hrecord, hvalues⟩
  rw [hcode]
  constructor
  · intro hok chunk hchunk hnull
    obtain ⟨error, herror⟩ := downloadBackup_error arrival hfits hup hchunk hnull
    rw [hok] at herror
    cases herror
  · exact downloadBackup_ok arrival hfits hup

/-! ## A small instance -/

namespace Sample

/-- A cipher that puts its tag in front. -/
def cipher : Security.Aead where
  encrypt _ _ plaintext := List.replicate 16 0 ++ plaintext
  decrypt _ _ ciphertext := some (ciphertext.drop 16)
  length_encrypt _ _ plaintext := by
    rw [List.length_append, List.length_replicate, Nat.add_comm]
  decrypt_encrypt _ _ plaintext := by
    rw [List.drop_left' (List.length_replicate ..)]

def keys : RecordKeys Unit where
  text _ := ['V', 'L', 'D', '0']
  parse text := if text = ['V', 'L', 'D', '0'] then .ok () else .error "invalid key"
  parse_text _ := rfl
  bar_notMem _ := by decide

def primitives : Primitives Unit where
  keys
  cipher
  sha256 bytes := bytes.take 32
  manifestFromJson bytes :=
    match RecoveryManifest.read bytes with
    | some manifest => .ok manifest
    | none => .error "invalid JSON"
  manifestFromJson_toJson manifest := by simp only [RecoveryManifest.read_toJson]

def allStored : UploadAnswers Unit where
  stateRead := .ok ()
  created := .ok ()
  secret := ⟨List.replicate 32 7, rfl⟩
  nonce := ⟨List.replicate 12 9, rfl⟩
  written _ := .stored
  createdAt := 1000
  now := 1001
  stateWritten := .ok ()
  wiped _ := .stored

def daemon : Daemon Unit where
  dht := { packages := [], records := fun _ => none }
  recoveryState := none

theorem daemon_reached : (system primitives).Reachable daemon := .start rfl

theorem allStored_accepted {backup : Bytes} (hfits : backup.length ≤ maxRecoveryBytes - 64) :
    Accepted allStored backup :=
  ⟨hfits, rfl, ⟨(), rfl⟩, fun _ => rfl, rfl⟩

theorem upload_returns (backup : Bytes) (hfits : backup.length ≤ maxRecoveryBytes - 64) :
    ∃ result s', uploadBackup primitives allStored backup daemon = (.ok result, s') :=
  uploadBackup_returns daemon_reached (allStored_accepted hfits)

end Sample

theorem backup_reads_back_sample :
    ∃ result s', uploadBackup Sample.primitives Sample.allStored [1, 2, 3] Sample.daemon =
        (.ok result, s') ∧
      ∀ arrival, downloadBackup Sample.primitives s'.dht arrival result.recoveryCode =
        .ok [1, 2, 3] := by
  obtain ⟨result, s', hupload⟩ := Sample.upload_returns [1, 2, 3] (by decide)
  refine ⟨result, s', hupload, fun arrival => ?_⟩
  exact (backup_reads_back_iff Sample.daemon_reached hupload (fun _ _ => rfl) arrival).mpr
    (by decide +kernel)

/-- One byte more than a chunk, and that byte is a zero digit. -/
def lostBackup : Bytes := List.replicate 12272 0 ++ [48]

theorem lostBackup_chunk : [48] ∈ chunksOf Sample.primitives Sample.allStored lostBackup := by
  have hcipher : ciphertextOf Sample.primitives Sample.allStored lostBackup =
      List.replicate 12288 0 ++ [48] := by
    change List.replicate 16 0 ++ (List.replicate 12272 0 ++ [48]) = _
    rw [← List.append_assoc, List.replicate_append_replicate]
  rw [chunksOf, hcipher]
  refine List.mem_map.mpr ⟨1, ?_, ?_⟩
  · rw [List.mem_range, List.length_append, List.length_replicate]
    decide
  · have hcut : 1 * recoveryChunkBytes = 12288 := rfl
    rw [hcut, List.drop_left' (List.length_replicate ..)]
    rfl

theorem lostBackup_lost :
    ∃ result s', uploadBackup Sample.primitives Sample.allStored lostBackup Sample.daemon =
        (.ok result, s') ∧
      ∀ arrival, downloadBackup Sample.primitives s'.dht arrival result.recoveryCode ≠
        .ok lostBackup := by
  have hfits : lostBackup.length ≤ maxRecoveryBytes - 64 := by
    rw [lostBackup, List.length_append, List.length_replicate]
    decide
  obtain ⟨result, s', hupload⟩ := Sample.upload_returns lostBackup hfits
  obtain ⟨⟨key, hcode, _, _, hup⟩, _⟩ :=
    (triple_uploadBackup _ _ _).ok (recorded_of_reachable Sample.daemon_reached) hupload
  refine ⟨result, s', hupload, fun arrival hok => ?_⟩
  obtain ⟨error, herror⟩ :=
    downloadBackup_error arrival hfits hup lostBackup_chunk (Or.inl rfl)
  rw [hcode, herror] at hok
  cases hok

end VeilKnit.Recovery
