import VeilKnit.BlobStore.StoredChunks
import VeilKnit.Recovery.NetworkBackup

/-!
# Downloads of a backup

A recovery code is read as what it was made of. What a download makes of a record that holds a
manifest and its chunks depends on the chunks alone: a chunk that the DHT layer takes for an empty
subkey cannot be read, and without such a chunk the ciphertext is complete and opens.
-/

namespace VeilKnit.Recovery

open Library
open BlobStore (DhtRecord ReadsAsNull normalizeWriteBytes chunkLocations)

/-! ## Recovery codes -/

variable {Key : Type}

section Codes

variable (keys : RecordKeys Key)

theorem hex_ne_bar (bytes : Bytes) : '|' ∉ Hex.encode bytes := by
  intro hbar
  have hno := Hex.not_mem_encode (p := fun c => c = '|')
    (List.forall_iff_forall_mem.mp (by decide)) bytes '|' hbar
  simp at hno

theorem trim_recoveryCode (key : Key) (secret : Secret) :
    trim (recoveryCode keys key secret) = recoveryCode keys key secret := by
  have hfront : (recoveryCode keys key secret).dropWhile
      (fun c => Utf8.isWhitespace c.toNat) = recoveryCode keys key secret :=
    List.dropWhile_cons_of_neg (by decide)
  rw [trim, hfront, List.rdropWhile_eq_self_iff]
  intro hne
  have hsecret : Hex.encode secret.val ≠ [] := by
    intro hnil
    have hlength := Hex.length_encode secret.val
    rw [hnil, secret.property] at hlength
    exact absurd hlength (by decide)
  have hlast : (recoveryCode keys key secret).getLast hne =
      (Hex.encode secret.val).getLast hsecret := by
    simp only [recoveryCode]
    rw [List.getLast_append_of_ne_nil _ (by simp), List.getLast_cons (by simp),
      List.getLast_append_of_ne_nil _ (by simp), List.getLast_cons hsecret]
  rw [hlast]
  -- A text that ends with a digit does not end with white space.
  have hdigit := Hex.not_mem_encode (p := fun c => Utf8.isWhitespace c.toNat)
    (List.forall_iff_forall_mem.mp (by decide)) secret.val _ (List.getLast_mem hsecret)
  simpa using hdigit

theorem splitOn_recoveryCode (key : Key) (secret : Secret) :
    (recoveryCode keys key secret).splitOn '|' =
      [['V', 'K', 'R', '1'], keys.text key, Hex.encode secret.val] := by
  have hparts : recoveryCode keys key secret =
      ['|'].intercalate [['V', 'K', 'R', '1'], keys.text key, Hex.encode secret.val] := by
    simp [recoveryCode, List.intercalate, List.intersperse]
  rw [hparts]
  refine List.splitOn_intercalate '|' ?_ (by simp)
  intro part hpart
  simp only [List.mem_cons, List.not_mem_nil, or_false] at hpart
  rcases hpart with rfl | rfl | rfl
  · decide
  · exact keys.bar_notMem key
  · exact hex_ne_bar secret.val

/-- A recovery code is read as the key and the secret it was made of. -/
theorem parseRecoveryCode_recoveryCode (key : Key) (secret : Secret) :
    parseRecoveryCode keys (recoveryCode keys key secret) = .ok (key, secret) := by
  have hsecret : parseSecret (Hex.encode secret.val) = .ok secret.val := by
    simp [parseSecret]
  rw [parseRecoveryCode, trim_recoveryCode, splitOn_recoveryCode]
  simp only [keys.parse_text, Except.mapError, bind, Except.bind, hsecret, secret.property,
    and_self, dif_pos]

end Codes

/-! ## Records -/

/-- The first data subkeys hold some chunks. -/
def Stored (values : DhtRecord) (cuts : List Bytes) : Prop :=
  ∀ i chunk, cuts[i]? = some chunk →
    values (UInt32.ofNat (i + 1)) = some (normalizeWriteBytes chunk)

variable {cuts : List Bytes}

theorem Stored.write_zero {values : DhtRecord} (h : Stored values cuts)
    (hfull : cuts.length ≤ 63) (data : Bytes) : Stored (values.write 0 data) cuts := by
  intro i chunk hchunk
  have hlt := (List.getElem?_eq_some_iff.mp hchunk).1
  rw [DhtRecord.write, Function.update_of_ne (BlobStore.location_ne_zero (by omega))]
  exact h i chunk hchunk

theorem Stored.write_next {values : DhtRecord} (h : Stored values cuts)
    (hroom : cuts.length < 63) (chunk : Bytes) :
    Stored (values.write (UInt32.ofNat (cuts.length + 1)) chunk) (cuts ++ [chunk]) := by
  intro i chunk' hchunk'
  rcases Nat.lt_trichotomy i cuts.length with hlt | rfl | hgt
  · rw [List.getElem?_append_left hlt] at hchunk'
    have hne : UInt32.ofNat (i + 1) ≠ UInt32.ofNat (cuts.length + 1) := fun heq =>
      absurd (BlobStore.location_inj (by omega) (by omega) heq) (by omega)
    rw [DhtRecord.write, Function.update_of_ne hne]
    exact h i chunk' hchunk'
  · obtain rfl : chunk = chunk' := by simpa using hchunk'
    exact Function.update_self ..
  · have hlt := (List.getElem?_eq_some_iff.mp hchunk').1
    simp only [List.length_append, List.length_singleton] at hlt
    omega

/-- A record holds a manifest and the chunks that belong to it. -/
def Uploaded (key : Key) (manifest : RecoveryManifest) (cuts : List Bytes) (dht : Dht Key) :
    Prop :=
  ∃ values, dht.records key = some { subkeyCount := recoverySubkeys, values } ∧
    values 0 = some (normalizeWriteBytes manifest.toJson) ∧ Stored values cuts

variable {prim : Primitives Key} {answers : UploadAnswers Key} {backup : Bytes}

theorem length_ciphertextOf (prim : Primitives Key) (answers : UploadAnswers Key) (backup : Bytes) :
    (ciphertextOf prim answers backup).length = backup.length + 16 :=
  prim.cipher.length_encrypt ..

theorem length_chunksOf (prim : Primitives Key) (answers : UploadAnswers Key) {backup : Bytes}
    (hfits : backup.length ≤ maxRecoveryBytes - 64) :
    0 < (chunksOf prim answers backup).length ∧ (chunksOf prim answers backup).length ≤ 63 := by
  have hmax : maxRecoveryBytes - 64 = 774080 := rfl
  have hwidth : recoveryChunkBytes = 12288 := rfl
  rw [chunksOf, length_chunks, length_ciphertextOf, hwidth]
  omega

/-! ## Downloads -/

/-- What the DHT layer reads a stored chunk as. -/
def chunkRead (chunk : Bytes) : Except DhtError Bytes :=
  if ReadsAsNull chunk then .error .notFound else .ok chunk

theorem read_of_stored {values : DhtRecord} {location : UInt32} {data : Bytes}
    (hlocation : location < recoverySubkeys) (hne : data ≠ [])
    (hstored : values location = some (normalizeWriteBytes data)) :
    NetworkRecord.read { subkeyCount := recoverySubkeys, values } location = chunkRead data := by
  have hread : values.read recoverySubkeys location =
      BlobStore.normalizeDhtBytes (normalizeWriteBytes data) := by
    rw [DhtRecord.read, if_neg (UInt32.not_le.mpr hlocation), hstored]
  rw [NetworkRecord.read, hread, chunkRead]
  by_cases hnull : ReadsAsNull data
  · rw [BlobStore.normalizeWriteBytes_of_null hnull, if_pos hnull]
    rfl
  · have hplain : data ≠ BlobStore.nullDhtValue := fun h => hnull (Or.inl h)
    rw [BlobStore.normalizeWriteBytes_of_not_null hne hnull, if_neg hnull,
      BlobStore.normalizeDhtBytes, if_neg hplain]
    rfl

variable {values : List (UInt32 × Except DhtError Bytes)}

theorem joinChunks_ok
    (h : values.map Prod.snd = cuts.map .ok) : joinChunks values = .ok cuts.flatten := by
  induction values generalizing cuts with
  | nil =>
    obtain rfl : cuts = [] := by simpa using h.symm
    rfl
  | cons value values ih =>
    cases cuts with
    | nil => simp at h
    | cons chunk cuts =>
      obtain ⟨hvalue, hrest⟩ := List.cons.inj h
      simp only [joinChunks, hvalue, ih hrest]
      rfl

theorem joinChunks_error (h : ∃ value ∈ values, ∃ error, value.2 = .error error) :
    ∃ error, joinChunks values = .error error := by
  induction values with
  | nil => simp at h
  | cons value values ih =>
    obtain ⟨location, first⟩ := value
    cases first with
    | error error => exact ⟨_, rfl⟩
    | ok bytes =>
      obtain ⟨bad, hmem, error, hbad⟩ := h
      rcases List.mem_cons.mp hmem with rfl | hmem
      · cases hbad
      · obtain ⟨error, herror⟩ := ih ⟨bad, hmem, error, hbad⟩
        exact ⟨error, by simp only [joinChunks, herror]; rfl⟩

variable {locations : List UInt32}

/-- Locations in order, whatever order their reads end in. -/
theorem mergeSort_arrival (arrival : Arrival) (hsorted : locations.Pairwise (· < ·)) :
    (arrival.order locations).mergeSort (· ≤ ·) = locations := by
  have hpairwise : ((arrival.order locations).mergeSort (· ≤ ·)).Pairwise
      fun a b => decide (a ≤ b) = true := by
    apply List.pairwise_mergeSort
    · intro a b c hab hbc
      exact decide_eq_true (UInt32.le_trans (of_decide_eq_true hab) (of_decide_eq_true hbc))
    · intro a b
      simpa using UInt32.le_total a b
  refine List.Perm.eq_of_pairwise (fun a b _ _ hab hba => UInt32.le_antisymm hab hba)
    (hpairwise.imp of_decide_eq_true) (hsorted.imp fun h => UInt32.le_of_lt h) ?_
  exact (List.mergeSort_perm _ _).trans (arrival.perm locations)

variable {dht : Dht Key}

theorem readForeignSubkeys_eq {key : Key} {record : NetworkRecord}
    (hrecord : dht.records key = some record) (arrival : Arrival)
    (hsorted : locations.Pairwise (· < ·)) :
    dht.readForeignSubkeys arrival key locations =
      .ok (locations.map fun location => (location, record.read location)) := by
  rw [Dht.readForeignSubkeys, hrecord]
  dsimp only
  rw [BlobStore.deduplicateLocations_of_sorted hsorted]
  have hmap := List.map_mergeSort (r := fun a b : UInt32 => decide (a ≤ b))
    (s := fun a b : UInt32 × Except DhtError Bytes => decide (a.1 ≤ b.1))
    (f := fun location => (location, record.read location)) (l := arrival.order locations)
    fun _ _ _ _ => rfl
  rw [← hmap, mergeSort_arrival arrival hsorted]

theorem mergeSort_values (hsorted : locations.Pairwise (· < ·))
    (read : UInt32 → Except DhtError Bytes) :
    (locations.map fun location => (location, read location)).mergeSort (fun a b => a.1 ≤ b.1) =
      locations.map fun location => (location, read location) := by
  refine List.mergeSort_of_pairwise (List.pairwise_map.mpr ?_)
  exact hsorted.imp fun h => decide_eq_true (UInt32.le_of_lt h)

/-- The chunks of a record, read from the subkeys that its manifest names. -/
theorem values_of_stored {values : DhtRecord} (hstored : Stored values cuts)
    (hfull : cuts.length ≤ 63) (hsome : ∀ chunk ∈ cuts, chunk ≠ []) :
    ((chunkLocations (UInt32.ofNat cuts.length)).map fun location =>
      NetworkRecord.read { subkeyCount := recoverySubkeys, values } location) =
      cuts.map chunkRead := by
  have hcount : (UInt32.ofNat cuts.length).toNat = cuts.length := by
    rw [UInt32.toNat_ofNat', Nat.mod_eq_of_lt (by omega)]
  rw [chunkLocations, hcount, List.map_map]
  refine List.ext_getElem (by simp) fun i hi _ => ?_
  have hlt : i < cuts.length := by simpa using hi
  simp only [List.getElem_map, List.getElem_range, Function.comp_apply]
  exact read_of_stored (BlobStore.location_lt (by omega)) (hsome _ (List.getElem_mem hlt))
    (hstored i _ (List.getElem?_eq_getElem hlt))

theorem flatten_chunksOf (prim : Primitives Key) (answers : UploadAnswers Key) (backup : Bytes) :
    (chunksOf prim answers backup).flatten = ciphertextOf prim answers backup :=
  flatten_chunks (by decide) _

/-- The ciphertext that the manifest describes opens to the backup. -/
theorem openCiphertext_manifestOf (hfits : backup.length ≤ maxRecoveryBytes - 64) :
    openCiphertext prim (manifestOf prim answers backup) answers.secret
      (ciphertextOf prim answers backup) = .ok backup := by
  have hmax : maxRecoveryBytes - 64 = 774080 := rfl
  have hlength : (manifestOf prim answers backup).ciphertextLen.toNat =
      (ciphertextOf prim answers backup).length := by
    have hshort := length_ciphertextOf prim answers backup
    rw [manifestOf, UInt64.toNat_ofNat', Nat.mod_eq_of_lt (by omega)]
  have hnonce : Hex.decode (manifestOf prim answers backup).nonceHex.toList =
      some answers.nonce.val := by
    rw [manifestOf, String.toList_ofList, Hex.decode_encode]
  simp only [openCiphertext, hlength, List.take_length, hnonce, answers.nonce.property]
  rw [if_neg (by simp [manifestOf]), if_neg (by simp), ciphertextOf, prim.cipher.decrypt_encrypt]

/-- What a download makes of an uploaded backup depends on what its chunks read as. -/
theorem downloadBackup_uploaded (arrival : Arrival) {key : Key}
    (hfits : backup.length ≤ maxRecoveryBytes - 64)
    (hup : Uploaded key (manifestOf prim answers backup) (chunksOf prim answers backup) dht) :
    ∃ values, values.map Prod.snd = (chunksOf prim answers backup).map chunkRead ∧
      downloadBackup prim dht arrival (recoveryCode prim.keys key answers.secret) =
        (joinChunks values >>=
          openCiphertext prim (manifestOf prim answers backup) answers.secret) := by
  obtain ⟨values, hrecord, hmanifest, hstored⟩ := hup
  have hcount := length_chunksOf prim answers hfits
  -- The manifest starts with a brace, so the DHT layer takes it as it is.
  have hread : dht.readForeignSubkey key 0 = .ok (manifestOf prim answers backup).toJson := by
    obtain ⟨rest, hjson⟩ := (manifestOf prim answers backup).toJson_cons
    have hplain : ¬ ReadsAsNull (manifestOf prim answers backup).toJson := by
      rw [hjson]
      exact BlobStore.not_readsAsNull_cons ⟨by decide, by decide, by decide⟩ (by decide) rest
    rw [Dht.readForeignSubkey, hrecord]
    dsimp only
    rw [read_of_stored (by decide) (by rw [hjson]; simp) hmanifest, chunkRead, if_neg hplain]
  have hnat : (manifestOf prim answers backup).chunkCount.toNat =
      (chunksOf prim answers backup).length := by
    rw [manifestOf, UInt32.toNat_ofNat', Nat.mod_eq_of_lt (by omega)]
  have hlayout : ¬ ((manifestOf prim answers backup).version ≠ recoveryVersion ∨
      (manifestOf prim answers backup).chunkCount = 0 ∨
      63 < (manifestOf prim answers backup).chunkCount) := by
    rintro (hversion | hzero | hmany)
    · exact hversion rfl
    · rw [hzero] at hnat
      exact absurd hnat (by simp; omega)
    · rw [UInt32.lt_iff_toNat_lt, hnat] at hmany
      exact absurd hmany (by simp; omega)
  have hsorted := BlobStore.chunkLocations_sorted
    (by rw [hnat]; exact hcount.2 : (manifestOf prim answers backup).chunkCount.toNat ≤ 63)
  refine ⟨(chunkLocations (manifestOf prim answers backup).chunkCount).map fun location =>
    (location, NetworkRecord.read { subkeyCount := recoverySubkeys, values } location), ?_, ?_⟩
  · rw [List.map_map]
    exact values_of_stored hstored hcount.2 fun chunk hchunk =>
      (chunk_small (by decide) hchunk).1
  · simp only [downloadBackup, parseRecoveryCode_recoveryCode, hread,
      prim.manifestFromJson_toJson, readForeignSubkeys_eq hrecord arrival hsorted,
      Except.mapError, bind, Except.bind, if_neg hlayout, mergeSort_values hsorted]

/-- Without a chunk that reads as an empty subkey the backup comes back. -/
theorem downloadBackup_ok (arrival : Arrival) {key : Key}
    (hfits : backup.length ≤ maxRecoveryBytes - 64)
    (hup : Uploaded key (manifestOf prim answers backup) (chunksOf prim answers backup) dht)
    (hplain : ∀ chunk ∈ chunksOf prim answers backup, ¬ ReadsAsNull chunk) :
    downloadBackup prim dht arrival (recoveryCode prim.keys key answers.secret) = .ok backup := by
  obtain ⟨values, hvalues, hdownload⟩ := downloadBackup_uploaded arrival hfits hup
  have hread : (chunksOf prim answers backup).map chunkRead =
      (chunksOf prim answers backup).map .ok :=
    List.map_congr_left fun chunk hchunk => if_neg (hplain chunk hchunk)
  rw [hdownload, joinChunks_ok (hvalues.trans hread), flatten_chunksOf]
  exact openCiphertext_manifestOf hfits

/-- With such a chunk the download fails. -/
theorem downloadBackup_error (arrival : Arrival) {key : Key}
    (hfits : backup.length ≤ maxRecoveryBytes - 64)
    (hup : Uploaded key (manifestOf prim answers backup) (chunksOf prim answers backup) dht)
    {chunk : Bytes} (hchunk : chunk ∈ chunksOf prim answers backup) (hnull : ReadsAsNull chunk) :
    ∃ error, downloadBackup prim dht arrival (recoveryCode prim.keys key answers.secret) =
      .error error := by
  obtain ⟨values, hvalues, hdownload⟩ := downloadBackup_uploaded arrival hfits hup
  have hmem : chunkRead chunk ∈ values.map Prod.snd := by
    rw [hvalues]
    exact List.mem_map_of_mem hchunk
  obtain ⟨value, hvalue, hread⟩ := List.mem_map.mp hmem
  have hbad : value.2 = .error .notFound := hread.trans (if_pos hnull)
  obtain ⟨error, herror⟩ := joinChunks_error ⟨value, hvalue, _, hbad⟩
  exact ⟨error, by rw [hdownload, herror]; rfl⟩

end VeilKnit.Recovery
