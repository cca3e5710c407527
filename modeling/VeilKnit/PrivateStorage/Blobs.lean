import VeilKnit.PrivateStorage.Values

/-!
# Reading a blob

The chunk of a blob is written before the manifest that names it, under an index that no manifest
has named for that blob. So a chunk that is named is there with its length, wherever the writes
stop, and every range of a complete blob can be read.
-/

namespace VeilKnit.PrivateStorage

open Library Types

variable {c : Circumstances} {m m' : PrivateAppManifest} {v : Vault} {blobId : String}
  {e e' : PrivateBlobEntry} {actions : List Action} {op : Op} {reply : Reply} {removed : Removed}

/-! ## Chunks -/

/-- The chunks have the files that the entry says. -/
structure PrivateBlobEntry.Sound (e : PrivateBlobEntry) (files : UInt32 → Option Bytes) : Prop where
  few : e.chunks.length ≤ 4294967296
  total : e.totalBytes = (e.chunks.map PrivateChunkEntry.plainBytes).sum
  index : ∀ i chunk, e.chunks[i]? = some chunk → chunk.index = UInt32.ofNat i
  file : ∀ chunk ∈ e.chunks, ∃ plain, files chunk.index = some plain ∧
    plain.length = chunk.plainBytes

variable {files : UInt32 → Option Bytes}

theorem PrivateBlobEntry.Sound.of_same (h : e.Sound files)
    (hchunks : e'.chunks = e.chunks) (htotal : e'.totalBytes = e.totalBytes) : e'.Sound files where
  few := by
    rw [hchunks]
    exact h.few
  total := by
    rw [htotal, hchunks]
    exact h.total
  index := by
    rw [hchunks]
    exact h.index
  file := by
    rw [hchunks]
    exact h.file

theorem PrivateBlobEntry.Sound.of_empty (hchunks : e.chunks = []) (htotal : e.totalBytes = 0)
    (files : UInt32 → Option Bytes) : e.Sound files where
  few := by
    rw [hchunks]
    exact Nat.zero_le _
  total := by
    rw [htotal, hchunks]
    rfl
  index := by
    intro i chunk hi
    rw [hchunks] at hi
    cases hi
  file := by
    intro chunk hmem
    rw [hchunks] at hmem
    cases hmem

/-- The chunk that comes next has an index of its own. -/
theorem PrivateBlobEntry.Sound.index_ne (h : e.Sound files) (hroom : e.chunks.length < 4294967296) :
    ∀ chunk ∈ e.chunks, chunk.index ≠ UInt32.ofNat e.chunks.length := by
  intro chunk hmem heq
  obtain ⟨i, hi⟩ := List.mem_iff_getElem?.mp hmem
  have hlt : i < e.chunks.length := (List.getElem?_eq_some_iff.mp hi).1
  have hnat := congrArg UInt32.toNat ((h.index i chunk hi).symm.trans heq)
  have hsize : UInt32.size = 4294967296 := rfl
  rw [UInt32.toNat_ofNat_of_lt' (by omega), UInt32.toNat_ofNat_of_lt' (by omega)] at hnat
  omega

theorem PrivateBlobEntry.Sound.update (h : e.Sound files)
    (hroom : e.chunks.length < 4294967296) (data : Bytes) :
    e.Sound (Function.update files (UInt32.ofNat e.chunks.length) (some data)) where
  few := h.few
  total := h.total
  index := h.index
  file := by
    intro chunk hmem
    rw [Function.update_of_ne (h.index_ne hroom chunk hmem)]
    exact h.file chunk hmem

variable {data : Bytes}

theorem PrivateBlobEntry.Sound.append (h : e.Sound files)
    (hroom : e.chunks.length < 4294967296)
    (hfile : files (UInt32.ofNat e.chunks.length) = some data)
    (hchunks : e'.chunks = e.chunks ++ [⟨UInt32.ofNat e.chunks.length, data.length⟩])
    (htotal : e'.totalBytes = e.totalBytes + data.length) : e'.Sound files where
  few := by
    rw [hchunks, List.length_append]
    exact hroom
  total := by
    rw [htotal, hchunks, h.total, List.map_append, List.sum_append]
    rfl
  index := by
    intro i chunk hi
    rw [hchunks] at hi
    by_cases hlt : i < e.chunks.length
    · rw [List.getElem?_append_left hlt] at hi
      exact h.index i chunk hi
    rw [List.getElem?_append_right (Nat.le_of_not_lt hlt)] at hi
    obtain ⟨hlast, rfl⟩ := List.getElem?_eq_some_iff.mp hi
    have hi : i = e.chunks.length := by
      simp only [List.length_singleton] at hlast
      omega
    subst hi
    simp
  file := by
    intro chunk hmem
    rw [hchunks] at hmem
    obtain hmem | hmem := List.mem_append.mp hmem
    · exact h.file chunk hmem
    · obtain rfl := List.mem_singleton.mp hmem
      exact ⟨data, hfile, rfl⟩

/-! ## Reading a range -/

/-- What is read of the chunks is what lies in the range. -/
theorem readChunks_length (v : Vault) (blobId : String) (offset stop : Nat)
    (chunks : List PrivateChunkEntry) (start : Nat)
    (hfiles : ∀ chunk ∈ chunks, ∃ plain, v.chunkFiles blobId chunk.index = some plain ∧
      plain.length = chunk.plainBytes) :
    ∃ bytes, readChunks v blobId offset stop chunks start = .ok bytes ∧
      bytes.length = min stop (start + (chunks.map PrivateChunkEntry.plainBytes).sum) -
        max offset start := by
  induction chunks generalizing start with
  | nil => exact ⟨[], rfl, by simp⟩
  | cons chunk chunks ih =>
    obtain ⟨bytes, hrest, hlength⟩ := ih (start + chunk.plainBytes)
      fun other hmem => hfiles other (List.mem_cons_of_mem _ hmem)
    rw [readChunks, List.map_cons, List.sum_cons]
    split
    case isTrue hbefore => exact ⟨bytes, hrest, by omega⟩
    case isFalse hbefore =>
    split
    case isTrue hafter => exact ⟨[], rfl, by simp only [List.length_nil]; omega⟩
    case isFalse hafter =>
    obtain ⟨plain, hfile, hplain⟩ := hfiles chunk List.mem_cons_self
    rw [hfile, hrest]
    dsimp only
    rw [if_neg (not_not.mpr hplain)]
    refine ⟨_, rfl, ?_⟩
    rw [List.length_append, List.length_drop, List.length_take, hlength, hplain]
    omega

variable {offset length : Nat}

theorem readRange_length (h : e.Sound (v.chunkFiles blobId))
    (hrange : offset + length ≤ e.totalBytes) :
    ∃ bytes, readRange v blobId e offset length = .ok bytes ∧ bytes.length = length := by
  have hinside : ¬ (offset > e.totalBytes ∨ offset + length > e.totalBytes) := by omega
  by_cases hempty : length = 0
  · subst hempty
    exact ⟨[], by rw [readRange, if_neg hinside]; rfl, rfl⟩
  obtain ⟨bytes, hread, hlength⟩ :=
    readChunks_length v blobId offset (offset + length) e.chunks 0 h.file
  have hlength : bytes.length = length := by
    rw [hlength, ← h.total]
    omega
  refine ⟨bytes, ?_, hlength⟩
  rw [readRange, if_neg hinside, if_neg hempty, hread]
  exact if_neg (not_not.mpr hlength)

theorem readBlobRange_found {bytes : Bytes} (hm : Loads v m)
    (hvalid : validateBlobId blobId = .ok ()) (hfound : m.blobs.lookup blobId = some e)
    (hcomplete : e.complete = true) (hlive : isExpired e.expiresAt c.now = false)
    (hlength : length ≤ maxPrivateBlobReadBytes)
    (hread : readRange v blobId e offset length = .ok bytes) :
    (readBlobRange c v blobId offset length).map Plan.reply =
      .ok (.range (e.accessed c.now).descriptor bytes) := by
  obtain ⟨found, hload, -, hblobs⟩ := hm.at c.now
  rw [← hblobs] at hfound
  simp only [readBlobRange, hvalid, hload, hfound, hcomplete, hlive, hread, not_true_eq_false,
    if_false, if_neg (Nat.not_lt.mpr hlength), Bool.false_eq_true]
  rfl

/-! ## Along a list of actions -/

/-- Every blob that the manifest has is sound. -/
def BlobsSound (v : Vault) (m : PrivateAppManifest) : Prop :=
  ∀ blobId e, m.blobs.lookup blobId = some e → e.Sound (v.chunkFiles blobId)

/-- The property holds of the vault and its manifest wherever the actions stop. -/
def Follows (P : Vault → PrivateAppManifest → Prop) (removed : Removed) :
    Vault → PrivateAppManifest → List Action → Prop
  | v, m, [] => P v m
  | v, m, .write (.manifest m') :: rest =>
    P v m ∧ m'.version = m.version ∧ Follows P removed (v.write (.manifest m')) m' rest
  | v, m, .write (.value key bytes) :: rest =>
    P v m ∧ Follows P removed (v.write (.value key bytes)) m rest
  | v, m, .write (.chunk blobId index bytes) :: rest =>
    P v m ∧ Follows P removed (v.write (.chunk blobId index bytes)) m rest
  | v, m, .discard values blobs :: rest =>
    P v m ∧ Follows P removed (v.discard removed values blobs) m rest

theorem Follows.perform {P : Vault → PrivateAppManifest → Prop} (h : Follows P removed v m actions)
    (loads : Loads v m) (budget : Nat) :
    ∃ m', Loads (Vault.perform removed v actions budget).1 m' ∧
      P (Vault.perform removed v actions budget).1 m' := by
  induction actions generalizing v m budget with
  | nil => exact ⟨m, loads, h⟩
  | cons action rest ih =>
    cases action with
    | discard values blobs =>
      have hloads : Loads (v.discard removed values blobs) m := loads.congr rfl
      exact ih h.2 hloads budget
    | write file =>
      cases file with
      | value key bytes =>
        have hloads : Loads (v.write (.value key bytes)) m := loads.congr rfl
        cases budget with
        | zero => exact ⟨m, loads, h.1⟩
        | succ budget => exact ih h.2 hloads budget
      | chunk blobId index bytes =>
        have hloads : Loads (v.write (.chunk blobId index bytes)) m := loads.congr rfl
        cases budget with
        | zero => exact ⟨m, loads, h.1⟩
        | succ budget => exact ih h.2 hloads budget
      | manifest new =>
        cases budget with
        | zero => exact ⟨m, loads, h.1⟩
        | succ budget => exact ih h.2.2 (loads.write_manifest h.2.1) budget

/-- An entry that is written is empty or has the chunks of the one before it. -/
def Carries (m m' : PrivateAppManifest) : Prop :=
  ∀ blobId e', m'.blobs.lookup blobId = some e' → e'.chunks = [] ∧ e'.totalBytes = 0 ∨
    ∃ e, m.blobs.lookup blobId = some e ∧ e'.chunks = e.chunks ∧ e'.totalBytes = e.totalBytes

variable {now : UInt64}

theorem carries_insert (h : e'.chunks = [] ∧ e'.totalBytes = 0 ∨
      ∃ e, m.blobs.lookup blobId = some e ∧ e'.chunks = e.chunks ∧ e'.totalBytes = e.totalBytes) :
    Carries m { m with blobs := m.blobs.insert blobId e', updatedAt := now } := by
  exact AList.forall_lookup_insert h fun _ found hfound => .inr ⟨found, hfound, rfl, rfl⟩

theorem BlobsSound.write_manifest (h : BlobsSound v m) (hcarries : Carries m m') :
    BlobsSound (v.write (.manifest m')) m' := by
  intro blobId e' he'
  obtain ⟨hchunks, htotal⟩ | ⟨e, he, hchunks, htotal⟩ := hcarries blobId e' he'
  · exact .of_empty hchunks htotal _
  · exact (h blobId e he).of_same hchunks htotal

theorem BlobsSound.discard (h : BlobsSound v m) (removed : Removed) (values blobs : String → Bool)
    (hdead : ∀ blobId, blobs blobId = true → m.blobs.lookup blobId = none) :
    BlobsSound (v.discard removed values blobs) m := by
  intro blobId e he
  have hfiles : (v.discard removed values blobs).chunkFiles blobId = v.chunkFiles blobId := by
    funext index
    have hnot : ¬ (blobs blobId = true ∧ removed.chunks blobId index = true) := by
      rintro ⟨hcovered, -⟩
      cases (hdead blobId hcovered).symm.trans he
    exact if_neg hnot
  rw [hfiles]
  exact h blobId e he

/-- A chunk that is written beside the others. -/
theorem BlobsSound.write_chunk (h : BlobsSound v m) (hfound : m.blobs.lookup blobId = some e)
    (hroom : e.chunks.length < 4294967296) (data : Bytes) :
    BlobsSound (v.write (.chunk blobId (UInt32.ofNat e.chunks.length) data)) m := by
  intro other found he
  by_cases hother : other = blobId
  · subst hother
    cases hfound.symm.trans he
    have hfiles : (v.write (.chunk other (UInt32.ofNat e.chunks.length) data)).chunkFiles other =
        Function.update (v.chunkFiles other) (UInt32.ofNat e.chunks.length) (some data) :=
      Function.update_self _ _ _
    rw [hfiles]
    exact (h other e he).update hroom data
  · have hfiles : (v.write (.chunk blobId (UInt32.ofNat e.chunks.length) data)).chunkFiles other =
        v.chunkFiles other :=
      Function.update_of_ne hother _ _
    rw [hfiles]
    exact h other found he

/-- The manifest that names it. -/
theorem BlobsSound.append {accessedAt : UInt64} (h : BlobsSound v m)
    (hfound : m.blobs.lookup blobId = some e) (hroom : e.chunks.length < 4294967296)
    (hfile : v.chunkFiles blobId (UInt32.ofNat e.chunks.length) = some data) :
    BlobsSound (v.write (.manifest { m with
        blobs := m.blobs.insert blobId { e with
          chunks := e.chunks ++ [⟨UInt32.ofNat e.chunks.length, data.length⟩]
          totalBytes := e.totalBytes + data.length
          updatedAt := now
          lastAccessedAt := accessedAt }
        updatedAt := now })) { m with
        blobs := m.blobs.insert blobId { e with
          chunks := e.chunks ++ [⟨UInt32.ofNat e.chunks.length, data.length⟩]
          totalBytes := e.totalBytes + data.length
          updatedAt := now
          lastAccessedAt := accessedAt }
        updatedAt := now } := by
  exact AList.forall_lookup_insert ((h blobId e hfound).append hroom hfile rfl rfl) h

/-! ## Along an operation -/

/-- Every blob of the second manifest is one of the first, with the same chunks. -/
def Retains (m m' : PrivateAppManifest) : Prop :=
  ∀ blobId e', m'.blobs.lookup blobId = some e' → ∃ e, m.blobs.lookup blobId = some e ∧
    e'.chunks = e.chunks ∧ e'.totalBytes = e.totalBytes ∧ (e.complete = true → e'.complete = true)

theorem retains_of_lookup
    (h : ∀ blobId e, m'.blobs.lookup blobId = some e → m.blobs.lookup blobId = some e) :
    Retains m m' :=
  fun blobId e he => ⟨e, h blobId e he, rfl, rfl, id⟩

theorem retains_insert (hfound : m.blobs.lookup blobId = some e)
    (hchunks : e'.chunks = e.chunks) (htotal : e'.totalBytes = e.totalBytes)
    (hcomplete : e.complete = true → e'.complete = true) :
    Retains m { m with blobs := m.blobs.insert blobId e', updatedAt := now } := by
  exact AList.forall_lookup_insert ⟨e, hfound, hchunks, htotal, hcomplete⟩
    fun _ found hother => ⟨found, hother, rfl, rfl, id⟩

theorem Retains.carries (h : Retains m m') : Carries m m' := by
  intro blobId e' he'
  obtain ⟨e, he, hchunks, htotal, -⟩ := h blobId e' he'
  exact .inr ⟨e, he, hchunks, htotal⟩

/-- A property of the vault and its manifest that stays but for new blobs and new chunks. -/
structure Survives (removed : Removed) (P : Vault → PrivateAppManifest → Prop) : Prop where
  value : ∀ v m key bytes, P v m → P (v.write (.value key bytes)) m
  manifest : ∀ v m m', P v m → Retains m m' → P (v.write (.manifest m')) m'
  discard : ∀ v m values blobs, P v m →
    (∀ blobId, blobs blobId = true → m.blobs.lookup blobId = none) →
    P (v.discard removed values blobs) m

theorem survives_sound (removed : Removed) : Survives removed BlobsSound where
  value _ _ _ _ h := h
  manifest _ _ _ h hretains := h.write_manifest hretains.carries
  discard _ _ _ _ h hdead := h.discard removed _ _ hdead

section Survives

variable {P : Vault → PrivateAppManifest → Prop} (survives : Survives removed P)

include survives

theorem follows_pruneCache (h : P v m) (limit : Nat) (order : Order) (now : UInt64) :
    Follows P removed v m (m.pruneCache limit order now).2 := by
  obtain ⟨-, heq⟩ | ⟨dead, kept, -, -, heq⟩ := m.pruneCache_cases limit order now
  · rw [heq]
    exact h
  rw [heq]
  have hpruned : P (v.write (.manifest { m.removeAll dead with updatedAt := now }))
      { m.removeAll dead with updatedAt := now } := by
    refine survives.manifest _ _ _ h (retains_of_lookup fun blobId e he => ?_)
    have hkept := (m.removeAll_blobs_lookup dead blobId).symm.trans he
    split at hkept
    case isTrue => cases hkept
    case isFalse => exact hkept
  refine ⟨h, m.removeAll_version dead, hpruned,
    survives.discard _ _ _ _ hpruned fun blobId hdead => ?_⟩
  exact (m.removeAll_blobs_lookup dead blobId).trans (if_pos hdead)

theorem follows_saveAndPrune (h : P v m) (hversion : m'.version = m.version)
    (hretains : Retains m m') : Follows P removed v m (saveAndPrune c m') :=
  ⟨h, hversion,
    follows_pruneCache survives (survives.manifest _ _ _ h hretains) c.limit c.order c.now⟩

/-- The operation is to add to what the blobs have. -/
def Op.fillsBlob : Op → Bool
  | .beginBlob .. => true
  | .appendBlob .. => true
  | _ => false

/-- Wherever an operation stops that adds nothing to the blobs, the property holds. -/
theorem Planned.follows_of_survives (hplanned : Planned c m op actions reply)
    (hop : op.fillsBlob = false) (h : P v m) : Follows P removed v m actions := by
  have hsame : ∀ {m' : PrivateAppManifest}, m'.blobs = m.blobs → Retains m m' := by
    intro m' hblobs
    refine retains_of_lookup fun blobId e he => ?_
    rwa [hblobs] at he
  cases hplanned with
  | nothing => exact h
  | putValue key value retention ttlSeconds expiresAt expiry =>
    have hwritten := survives.value v m key value h
    exact ⟨h, follows_saveAndPrune survives hwritten rfl (hsame rfl)⟩
  | accessValue => exact ⟨h, rfl, survives.manifest _ _ _ h (hsame rfl)⟩
  | deleteValue key =>
    have hwritten : P (v.write (.manifest
        { m with values := m.values.erase key, updatedAt := c.now }))
        { m with values := m.values.erase key, updatedAt := c.now } :=
      survives.manifest _ _ _ h (hsame rfl)
    exact ⟨h, rfl, hwritten,
      survives.discard _ _ _ _ hwritten fun _ hdead => absurd hdead Bool.false_ne_true⟩
  | renewValue => exact ⟨h, rfl, survives.manifest _ _ _ h (hsame rfl)⟩
  | beginBlob => cases hop
  | appendBlob => cases hop
  | finishBlob blobId entry valid found =>
    exact follows_saveAndPrune survives h rfl (retains_insert found rfl rfl fun _ => rfl)
  | abortBlob blobId =>
    have hwritten : P (v.write (.manifest
        { m with blobs := m.blobs.erase blobId, updatedAt := c.now }))
        { m with blobs := m.blobs.erase blobId, updatedAt := c.now } := by
      exact survives.manifest _ _ _ h (retains_of_lookup fun _ _ he => (AList.of_lookup_erase he).2)
    refine ⟨h, rfl, hwritten, survives.discard _ _ _ _ hwritten fun other hdead => ?_⟩
    rw [of_decide_eq_true hdead]
    exact AList.lookup_erase _ _
  | accessBlob blobId offset length entry reply found =>
    exact ⟨h, rfl, survives.manifest _ _ _ h (retains_insert found rfl rfl id)⟩
  | renewBlob blobId retention ttlSeconds expiresAt entry expiry found =>
    exact ⟨h, rfl, survives.manifest _ _ _ h (retains_insert found rfl rfl id)⟩
  | prepareShutdown =>
    refine ⟨h, rfl, survives.manifest _ _ _ h (retains_of_lookup fun _ _ he => ?_)⟩
    exact (AList.lookup_filterEntries_eq_some.mp he).2
  | cleanup =>
    have hswept : ∀ blobId e, (m.swept c.now).blobs.lookup blobId = some e →
        m.blobs.lookup blobId = some e :=
      fun _ _ he => (AList.lookup_filterEntries_eq_some.mp he).2
    obtain ⟨-, heq⟩ | ⟨dead, kept, -, -, heq⟩ :=
      (m.swept c.now).pruneCache_cases c.limit c.order c.now
    · rw [heq]
      have hwritten := survives.manifest _ _ _ h (retains_of_lookup hswept)
      exact ⟨h, rfl, hwritten, survives.discard _ _ _ _ hwritten fun _ hdead =>
        Option.isNone_iff_eq_none.mp hdead⟩
    rw [heq]
    have hversion : ((m.swept c.now).removeAll dead).version = m.version :=
      PrivateAppManifest.removeAll_version _ _
    have hlookup := (m.swept c.now).removeAll_blobs_lookup dead
    have hwritten : P
        (v.write (.manifest { (m.swept c.now).removeAll dead with updatedAt := c.now }))
        { (m.swept c.now).removeAll dead with updatedAt := c.now } := by
      refine survives.manifest _ _ _ h (retains_of_lookup fun blobId e he => ?_)
      have hkept := (hlookup blobId).symm.trans he
      split at hkept
      case isTrue => cases hkept
      case isFalse => exact hswept blobId e hkept
    have hdiscarded := survives.discard _ _ (fun key => dead.any (Candidate.isValue key))
      (fun blobId => dead.any (Candidate.isBlob blobId)) hwritten fun blobId hdead =>
        (hlookup blobId).trans (if_pos hdead)
    have hagain := survives.manifest _ _ _ hdiscarded (retains_of_lookup fun _ _ he => he)
    exact ⟨h, hversion, hwritten, hdiscarded, rfl, hagain,
      survives.discard _ _ _ _ hagain fun _ hdead => Option.isNone_iff_eq_none.mp hdead⟩

end Survives

/-- Wherever an operation stops, the blobs are sound. -/
theorem Planned.follows (hplanned : Planned c m op actions reply) (h : BlobsSound v m) :
    Follows BlobsSound removed v m actions := by
  by_cases hop : op.fillsBlob = false
  · exact hplanned.follows_of_survives (survives_sound removed) hop h
  cases hplanned with
  | beginBlob blobId contentType retention ttlSeconds entry id kept empty =>
    exact ⟨h, rfl, h.write_manifest (carries_insert (.inl ⟨empty.1, empty.2.1⟩))⟩
  | appendBlob blobId data entry found incomplete room =>
    have hchunk := h.write_chunk found room data
    have hfile : (v.write (.chunk blobId (UInt32.ofNat entry.chunks.length) data)).chunkFiles blobId
        (UInt32.ofNat entry.chunks.length) = some data := by
      simp [Vault.write]
    exact ⟨h, hchunk, rfl, hchunk.append found room hfile⟩
  | nothing op reply passes =>
    cases op with
    | beginBlob => cases passes
    | appendBlob => cases passes
    | _ => exact absurd rfl hop
  | _ => exact absurd rfl hop

theorem Call.exec_sound (call : Call) (hm : Loads v m) (h : BlobsSound v m) :
    ∃ m', Loads (call.exec v).1 m' ∧ BlobsSound (call.exec v).1 m' := by
  obtain ⟨error, hexec⟩ | ⟨found, actions, reply, hload, hplanned, hexec, -⟩ := call.exec_cases v
  · rw [hexec]
    exact ⟨m, hm, h⟩
  · have hfound : BlobsSound v found := by
      rw [BlobsSound, (hm.unique ⟨_, hload⟩).2]
      exact h
    rw [hexec]
    exact (hplanned.follows hfound).perform ⟨_, hload⟩ call.budget

end VeilKnit.PrivateStorage
