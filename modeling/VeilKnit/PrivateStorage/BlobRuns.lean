import VeilKnit.PrivateStorage.CacheRuns
import VeilKnit.PrivateStorage.ManagerRuns

/-!
# What a finished blob holds

Runs of all vaults with a log of what the applications have been told: which appends to a blob have
returned since it was begun, and whether it has been finished. A chunk that is written without the
manifest that names it is written over by the next append, so that the chunks that are named hold
what the log says, and no removal gets to them.

A finished blob is read from as long as its entry is there: any range of up to 512 KiB inside it,
but that the access itself may have to be written down first.
-/

namespace VeilKnit.PrivateStorage

open Library Types

variable {c : Circumstances} {m m' : PrivateAppManifest} {v : Vault} {blobId : String}
  {e e' : PrivateBlobEntry} {actions : List Action} {op : Op} {reply : Reply} {removed : Removed}

/-! ## Reading a range -/

/-- What the chunks hold, one after the other. -/
def contentsOf (files : UInt32 → Option Bytes) (chunks : List PrivateChunkEntry) : Bytes :=
  chunks.flatMap fun chunk => (files chunk.index).getD []

theorem contentsOf_length {files : UInt32 → Option Bytes} (h : e.Sound files) :
    (contentsOf files e.chunks).length = e.totalBytes := by
  have hfiles := h.file
  rw [h.total]
  generalize e.chunks = chunks at hfiles
  induction chunks with
  | nil => rfl
  | cons chunk chunks ih =>
    obtain ⟨plain, hplain, hlength⟩ := hfiles chunk List.mem_cons_self
    have hrest := ih fun other hmem => hfiles other (List.mem_cons_of_mem _ hmem)
    rw [contentsOf] at hrest ⊢
    rw [List.flatMap_cons, List.length_append, hrest, hplain, Option.getD_some, hlength,
      List.map_cons, List.sum_cons]

variable {offset length : Nat}

/-- What is read of the chunks is the part of what they hold that lies in the range. -/
theorem readChunks_eq {stop : Nat} (hrange : offset ≤ stop)
    (chunks : List PrivateChunkEntry) (start : Nat)
    (hfiles : ∀ chunk ∈ chunks, ∃ plain, v.chunkFiles blobId chunk.index = some plain ∧
      plain.length = chunk.plainBytes) :
    readChunks v blobId offset stop chunks start =
      .ok (((contentsOf (v.chunkFiles blobId) chunks).take (stop - start)).drop
        (offset - start)) := by
  induction chunks generalizing start with
  | nil => simp [readChunks, contentsOf]
  | cons chunk chunks ih =>
    have hrest := ih (start + chunk.plainBytes)
      fun other hmem => hfiles other (List.mem_cons_of_mem _ hmem)
    obtain ⟨plain, hplain, hlength⟩ := hfiles chunk List.mem_cons_self
    have hcontents : contentsOf (v.chunkFiles blobId) (chunk :: chunks) =
        plain ++ contentsOf (v.chunkFiles blobId) chunks := by
      rw [contentsOf, List.flatMap_cons, hplain]
      rfl
    rw [readChunks, hcontents, List.take_append, List.drop_append, List.length_take, hlength]
    have hstop : stop - start - chunk.plainBytes = stop - (start + chunk.plainBytes) := by omega
    rw [hstop]
    by_cases hbefore : start + chunk.plainBytes ≤ offset
    · -- the chunk ends before the range
      rw [if_pos hbefore, hrest]
      have hnone : (plain.take (stop - start)).drop (offset - start) = [] := by
        rw [List.drop_eq_nil_iff, List.length_take]
        omega
      have hoffset : offset - start - min (stop - start) chunk.plainBytes =
          offset - (start + chunk.plainBytes) := by omega
      rw [hnone, List.nil_append, hoffset]
    rw [if_neg hbefore]
    by_cases hafter : stop ≤ start
    · -- the chunk begins after the range
      rw [if_pos hafter, Nat.sub_eq_zero_of_le hafter, Nat.sub_eq_zero_of_le
        (Nat.le_add_right_of_le hafter)]
      simp
    rw [if_neg hafter, hplain]
    dsimp only
    rw [if_neg (not_not.mpr hlength), hrest]
    have htake : plain.take (min stop (start + chunk.plainBytes) - start) =
        plain.take (stop - start) := by
      rcases Nat.le_total stop (start + chunk.plainBytes) with hle | hle
      · rw [min_eq_left hle]
      · rw [min_eq_right hle, List.take_of_length_le (by omega), List.take_of_length_le (by omega)]
    have hoffset : offset - start - min (stop - start) chunk.plainBytes = 0 := by omega
    have hrest : offset - (start + chunk.plainBytes) = 0 := by omega
    rw [htake, hoffset, hrest]

theorem readRange_eq (h : e.Sound (v.chunkFiles blobId)) (hrange : offset + length ≤ e.totalBytes) :
    readRange v blobId e offset length =
      .ok (((contentsOf (v.chunkFiles blobId) e.chunks).drop offset).take length) := by
  have hinside : ¬ (offset > e.totalBytes ∨ offset + length > e.totalBytes) := by omega
  have hcontents := contentsOf_length h
  rw [readRange, if_neg hinside]
  by_cases hempty : length = 0
  · subst hempty
    rfl
  · rw [if_neg hempty, readChunks_eq (Nat.le_add_right offset length) e.chunks 0 h.file]
    simp only [Nat.sub_zero, List.drop_take, Nat.add_sub_cancel_left]
    rw [if_neg (by simp only [List.length_take, List.length_drop]; omega)]

/-! ## What the log says -/

/-- What an application has been told of a blob: the bytes of the appends that have returned, and
whether it has been finished. -/
structure BlobLog where
  appended : Bytes
  finished : Bool
  deriving DecidableEq

/-- What an operation that returns adds to the log. -/
def Op.logged (op : Op) (outcome : Outcome) (log : String → BlobLog) : String → BlobLog :=
  match op, outcome with
  | .beginBlob blobId .., .returned _ => Function.update log blobId ⟨[], false⟩
  | .appendBlob blobId data, .returned _ =>
    Function.update log blobId ⟨(log blobId).appended ++ data, (log blobId).finished⟩
  | .finishBlob blobId, .returned _ => Function.update log blobId ⟨(log blobId).appended, true⟩
  | _, _ => log

/-- The chunks of an entry hold what the log says. -/
structure PrivateBlobEntry.Holds (e : PrivateBlobEntry) (blobId : String)
    (files : UInt32 → Option Bytes) (log : BlobLog) : Prop where
  sound : e.Sound files
  contents : contentsOf files e.chunks = log.appended
  complete : log.finished = true → e.complete = true
  valid : log.finished = true → validateBlobId blobId = .ok ()

/-- Every blob that the manifest has holds what the log says. -/
def BlobsHold (log : String → BlobLog) (v : Vault) (m : PrivateAppManifest) : Prop :=
  ∀ blobId e, m.blobs.lookup blobId = some e → e.Holds blobId (v.chunkFiles blobId) (log blobId)

section Log

variable {log : String → BlobLog}

theorem survives_hold (removed : Removed) (log : String → BlobLog) :
    Survives removed (BlobsHold log) where
  value _ _ _ _ h := h
  manifest v m m' h hretains := by
    intro blobId e' he'
    obtain ⟨e, he, hchunks, htotal, hcomplete⟩ := hretains blobId e' he'
    have hold := h blobId e he
    exact ⟨hold.sound.of_same hchunks htotal, by rw [hchunks]; exact hold.contents,
      fun hfinished => hcomplete (hold.complete hfinished), hold.valid⟩
  discard v m values blobs h hdead := by
    intro blobId e he
    have hfiles : (v.discard removed values blobs).chunkFiles blobId = v.chunkFiles blobId := by
      funext index
      have hnot : ¬ (blobs blobId = true ∧ removed.chunks blobId index = true) := by
        rintro ⟨hcovered, -⟩
        cases (hdead blobId hcovered).symm.trans he
      exact if_neg hnot
    rw [hfiles]
    exact h blobId e he

/-- A chunk that is written beside the others changes nothing. -/
theorem BlobsHold.write_chunk (h : BlobsHold log v m) (hfound : m.blobs.lookup blobId = some e)
    (hroom : e.chunks.length < 4294967296) (data : Bytes) :
    BlobsHold log (v.write (.chunk blobId (UInt32.ofNat e.chunks.length) data)) m := by
  intro other found he
  by_cases hother : other = blobId
  · subst hother
    cases hfound.symm.trans he
    have hfiles : (v.write (.chunk other (UInt32.ofNat e.chunks.length) data)).chunkFiles other =
        Function.update (v.chunkFiles other) (UInt32.ofNat e.chunks.length) (some data) :=
      Function.update_self _ _ _
    have hold := h other e he
    rw [hfiles]
    refine ⟨hold.sound.update hroom data, ?_, hold.complete, hold.valid⟩
    rw [← hold.contents, contentsOf, contentsOf]
    refine List.flatMap_congr fun chunk hmem => ?_
    rw [Function.update_of_ne (hold.sound.index_ne hroom chunk hmem)]
  · have hfiles : (v.write (.chunk blobId (UInt32.ofNat e.chunks.length) data)).chunkFiles other =
        v.chunkFiles other :=
      Function.update_of_ne hother _ _
    rw [hfiles]
    exact h other found he

/-- The log is about one more entry, and the other entries are those that were there. -/
theorem BlobsHold.insert {entry : BlobLog} {now : UInt64} (h : BlobsHold log v m)
    (hentry : e'.Holds blobId (v.chunkFiles blobId) entry) :
    BlobsHold (Function.update log blobId entry)
      (v.write (.manifest { m with blobs := m.blobs.insert blobId e', updatedAt := now }))
      { m with blobs := m.blobs.insert blobId e', updatedAt := now } := by
  intro other found he
  obtain ⟨rfl, rfl⟩ | ⟨hne, hother⟩ := AList.of_lookup_insert he
  · rw [Function.update_self]
    exact hentry
  · rw [Function.update_of_ne hne]
    exact h other found hother

/-- The entry that names a chunk more. -/
theorem PrivateBlobEntry.Holds.append {files : UInt32 → Option Bytes} {entry : BlobLog}
    (h : e.Holds blobId files entry) (hroom : e.chunks.length < 4294967296) {data : Bytes}
    (hfile : files (UInt32.ofNat e.chunks.length) = some data)
    (hchunks : e'.chunks = e.chunks ++ [⟨UInt32.ofNat e.chunks.length, data.length⟩])
    (htotal : e'.totalBytes = e.totalBytes + data.length) (hcomplete : e'.complete = e.complete) :
    e'.Holds blobId files ⟨entry.appended ++ data, entry.finished⟩ where
  sound := h.sound.append hroom hfile hchunks htotal
  contents := by
    rw [hchunks, contentsOf, List.flatMap_append, List.flatMap_singleton, hfile, Option.getD_some,
      ← contentsOf, h.contents]
  complete hfinished := hcomplete.trans (h.complete hfinished)
  valid := h.valid

/-- What is less than the log says is also so. -/
theorem BlobsHold.unfinished {entry : BlobLog}
    (h : BlobsHold (Function.update log blobId ⟨entry.appended, true⟩) v m)
    (hentry : log blobId = entry) : BlobsHold log v m := by
  intro other found he
  have hfound := h other found he
  by_cases hother : other = blobId
  · subst hother
    rw [Function.update_self] at hfound
    exact ⟨hfound.sound, hfound.contents.trans (by rw [hentry]), fun _ => hfound.complete rfl,
      fun _ => hfound.valid rfl⟩
  · rwa [Function.update_of_ne hother] at hfound

/-- The operation says something of a blob when it returns. -/
def Op.tells : Op → Bool
  | .beginBlob .. => true
  | .appendBlob .. => true
  | .finishBlob _ => true
  | _ => false

theorem Op.logged_of_quiet (hop : op.tells = false) (outcome : Outcome)
    (log : String → BlobLog) : op.logged outcome log = log := by
  cases op with
  | beginBlob => cases hop
  | appendBlob => cases hop
  | finishBlob => cases hop
  | _ => rfl

theorem Op.logged_failed (op : Op) (error : PrivateStorageError) (log : String → BlobLog) :
    op.logged (.failed error) log = log := by
  cases op <;> rfl

/-- However many of its writes happen, an operation leaves blobs that hold what the log then says. -/
theorem Planned.holds (hplanned : Planned c m op actions reply) (hm : Loads v m)
    (h : BlobsHold log v m) (budget : Nat) :
    ∃ m', Loads (Vault.perform removed v actions budget).1 m' ∧ BlobsHold
        (op.logged (if (Vault.perform removed v actions budget).2 then .returned reply
          else .failed .persistence) log)
        (Vault.perform removed v actions budget).1 m' := by
  by_cases hop : op.tells = false
  · have hfills : op.fillsBlob = false := by
      cases op with
      | beginBlob => cases hop
      | appendBlob => cases hop
      | _ => rfl
    rw [Op.logged_of_quiet hop]
    exact (hplanned.follows_of_survives (survives_hold removed log) hfills h).perform hm budget
  cases hplanned with
  | beginBlob blobId contentType retention ttlSeconds entry id kept empty =>
    subst id
    cases budget with
    | zero => exact ⟨m, hm, h⟩
    | succ budget =>
      refine ⟨_, hm.write_manifest rfl, h.insert ?_⟩
      refine ⟨.of_empty empty.1 empty.2.1 _, ?_, fun hfinished => ?_, fun hfinished => ?_⟩
      · rw [empty.1]
        rfl
      · cases hfinished
      · cases hfinished
  | appendBlob blobId data entry found incomplete room =>
    have hchunk := h.write_chunk found room data
    have hloads : Loads (v.write (.chunk blobId (UInt32.ofNat entry.chunks.length) data)) m :=
      hm.congr rfl
    match budget with
    | 0 => exact ⟨m, hm, h⟩
    | 1 => exact ⟨m, hloads, hchunk⟩
    | budget + 2 =>
      have hfile : (v.write (.chunk blobId (UInt32.ofNat entry.chunks.length) data)).chunkFiles
          blobId (UInt32.ofNat entry.chunks.length) = some data := by
        simp [Vault.write]
      refine ⟨_, hloads.write_manifest rfl, hchunk.insert ?_⟩
      exact (hchunk blobId entry found).append room hfile rfl rfl rfl
  | finishBlob blobId entry valid found live =>
    cases budget with
    | zero => exact ⟨m, hm, h⟩
    | succ budget =>
      have hold := h blobId entry found
      have hfinished : BlobsHold (Function.update log blobId ⟨(log blobId).appended, true⟩)
          (v.write (.manifest { m with
            blobs := m.blobs.insert blobId
              { entry with complete := true, updatedAt := c.now, lastAccessedAt := c.now }
            updatedAt := c.now }))
          { m with
            blobs := m.blobs.insert blobId
              { entry with complete := true, updatedAt := c.now, lastAccessedAt := c.now }
            updatedAt := c.now } :=
        h.insert ⟨hold.sound.of_same rfl rfl, hold.contents, fun _ => rfl, fun _ => valid⟩
      obtain ⟨m', hm', hpruned⟩ :=
        (follows_pruneCache (survives_hold removed _) hfinished c.limit c.order c.now).perform
          (hm.write_manifest rfl) budget
      refine ⟨m', hm', ?_⟩
      rw [saveAndPrune, Vault.perform]
      split
      · exact hpruned
      · exact hpruned.unfinished rfl
  | nothing op reply passes =>
    cases op with
    | beginBlob => cases passes
    | appendBlob => cases passes
    | finishBlob => cases passes
    | _ => exact absurd rfl hop
  | _ => exact absurd rfl hop

/-- However many of its writes happen, an operation leaves every value that the manifest has with
its file. -/
theorem Planned.valuesThere (hplanned : Planned c m op actions reply) (hm : Loads v m)
    (h : ∀ key ∈ m.values, (v.valueFiles key).isSome) (budget : Nat)
    (hm' : Loads (Vault.perform removed v actions budget).1 m') :
    ∀ key ∈ m'.values, ((Vault.perform removed v actions budget).1.valueFiles key).isSome := by
  intro key hkey
  obtain ⟨e', he'⟩ := Option.isSome_iff_exists.mp (AList.lookup_isSome.mpr hkey)
  -- what comes from an entry with the same file
  have hsame : ∀ {v' : Vault} {m'' : PrivateAppManifest}, Loads v' m'' →
      (∀ e, m''.values.lookup key = some e → (v'.valueFiles key).isSome) →
      ∀ {after : Vault}, Loads after m' →
      (∃ left, Loads after left ∧ ∀ e, left.values.lookup key = some e →
        ∃ before, m''.values.lookup key = some before ∧ True ∧
          after.valueFiles key = v'.valueFiles key) → (after.valueFiles key).isSome := by
    intro v' m'' _ hthere after hafter hleft
    obtain ⟨left, hloads, hentries⟩ := hleft
    obtain ⟨before, hbefore, -, hfile⟩ := hentries e' (by rwa [(hafter.unique hloads).1])
    rw [hfile]
    exact hthere before hbefore
  have hold : ∀ e, m.values.lookup key = some e → (v.valueFiles key).isSome := fun e he =>
    h key (AList.lookup_isSome.mp (Option.isSome_of_eq_some he))
  by_cases hputs : op.Puts key
  · cases hplanned with
    | putValue other value retention ttlSeconds expiresAt expiry =>
      obtain rfl : other = key := hputs
      have hwritten : (v.write (.value other value)).valueFiles other = some value :=
        Function.update_self _ _ _
      match budget with
      | 0 => exact hsame hm hold hm' ⟨m, hm, fun e he => ⟨e, he, trivial, rfl⟩⟩
      | 1 => exact Option.isSome_of_eq_some hwritten
      | budget + 2 =>
        have hloads : Loads (v.write (.value other value)) m := hm.congr rfl
        have hput : Loads ((v.write (.value other value)).write (.manifest
            (m.putEntry (newEntry m other value retention expiresAt c.now) c.now)))
            (m.putEntry (newEntry m other value retention expiresAt c.now) c.now) :=
          hloads.write_manifest rfl
        have hpruned := (respects_pruneCache (R := fun _ _ => True) (fun _ => trivial)
          (m.putEntry (newEntry m other value retention expiresAt c.now) c.now)
          c.limit c.order c.now other).perform removed (fun _ => trivial)
          (fun _ _ _ _ _ => trivial) hput budget
        exact hsame hput (fun _ _ => Option.isSome_of_eq_some hwritten) hm' hpruned
    | nothing op reply passes =>
      cases op with
      | putValue => cases passes
      | _ => exact absurd hputs id
    | _ => exact absurd hputs id
  · have hrespects : Respects (fun _ _ => True) key m actions :=
      hplanned.respects (fun _ => trivial) hputs fun _ _ _ _ => trivial
    exact hsame hm hold hm' (hrespects.perform removed (fun _ => trivial)
      (fun _ _ _ _ _ => trivial) hm budget)

/-- What the manifest says of blobs and values is there. -/
structure Vault.Told (v : Vault) (log : String → BlobLog) : Prop where
  blobs : ∀ m, Loads v m → BlobsHold log v m
  values : ∀ m, Loads v m → ∀ key ∈ m.values, (v.valueFiles key).isSome

theorem Vault.Told.exec (h : v.Told log) (call : Call) :
    (call.exec v).1.Told (call.op.logged (call.exec v).2 log) := by
  obtain ⟨error, hexec⟩ | ⟨found, actions, reply, hload, hplanned, hexec, houtcome⟩ :=
    call.exec_cases v
  · rw [hexec, Op.logged_failed]
    exact h
  have hfound : Loads v found := ⟨_, hload⟩
  obtain ⟨after, hafter, hold⟩ :=
    @Planned.holds _ _ v _ _ _ call.removed log hplanned hfound (h.blobs found hfound) call.budget
  rw [hexec, houtcome]
  refine ⟨fun m' hm' => ?_, fun m' hm' => ?_⟩
  · rw [BlobsHold, (hafter.unique hm').2]
    exact hold
  · exact hplanned.valuesThere hfound (h.values found hfound) call.budget hm'

end Log

/-! ## Runs -/

/-- The vaults, and for each application the log of its blobs. -/
structure Logged where
  manager : Manager
  log : String → String → BlobLog

def Logged.step (s : Logged) (call : ManagerCall) : Logged where
  manager := (s.manager.exec call).1
  log :=
    match call with
    | .app appId call written =>
      Function.update s.log appId
        (call.op.logged (s.manager.execApp appId call written).2 (s.log appId))
    | _ => s.log

def loggedSystem : LabelledSystem Logged ManagerCall where
  initial s := s = ⟨.empty, fun _ _ => ⟨[], false⟩⟩
  step s call s' := call.Possible s.manager ∧ s' = s.step call

/-- What the application of every vault has been told is so. -/
def Logged.Told (s : Logged) : Prop := ∀ appId, (s.manager.vaults appId).Told (s.log appId)

theorem Manager.execApp_cases (s : Manager) (appId : String) (call : Call) (written : Bool) :
    ((s.execApp appId call written).1.vaults = s.vaults ∧
        ∃ error, (s.execApp appId call written).2 = .failed error) ∨
      (s.execApp appId call written).1.vaults =
          Function.update s.vaults appId (call.exec (s.vaults appId)).1 ∧
        (s.execApp appId call written).2 = (call.exec (s.vaults appId)).2 := by
  rw [Manager.execApp]
  by_cases hregisters : call.op.registers = true
  · rw [if_pos hregisters, Manager.ensureAppRegistered]
    split_ifs
    · exact .inr ⟨rfl, rfl⟩
    · exact .inr ⟨rfl, rfl⟩
    · exact .inl ⟨rfl, _, rfl⟩
  · rw [if_neg hregisters]
    exact .inr ⟨rfl, rfl⟩

variable {s : Logged}

/-- An operation on all vaults tells no application anything. -/
theorem Logged.Told.sweep (h : s.Told) (at_ : Surroundings) {op : Op}
    (hop : op.tells = false) (budget : Nat) (appId : String) :
    ((PrivateStorage.sweep at_ op s.manager.catalog budget s.manager.vaults).1 appId).Told
      (s.log appId) := by
  refine @sweep_preserves op at_ s.manager.catalog s.manager.vaults budget
    (fun appId v => v.Told (s.log appId)) (fun appId _ budget v hv => ?_) h appId
  have hexec := hv.exec (at_.call op appId budget)
  have hquiet : (at_.call op appId budget).op.tells = false := hop
  rwa [Op.logged_of_quiet hquiet] at hexec

theorem not_loads_damaged (v : Vault) (m : PrivateAppManifest) : ¬ Loads v.damaged m := by
  rintro ⟨now, hload⟩
  cases hload

theorem Logged.Told.step (h : s.Told) (call : ManagerCall) : (s.step call).Told := by
  cases call with
  | app appId call written =>
    intro other
    rw [Logged.step, Manager.exec]
    rcases s.manager.execApp_cases appId call written with
      ⟨hvaults, error, hfailed⟩ | ⟨hvaults, houtcome⟩
    · rw [hvaults]
      rw [hfailed, Op.logged_failed, Function.update_eq_self]
      exact h other
    rw [hvaults]
    dsimp only
    rw [houtcome]
    by_cases hother : other = appId
    · subst hother
      rw [Function.update_self, Function.update_self]
      exact (h other).exec call
    · rw [Function.update_of_ne hother, Function.update_of_ne hother]
      exact h other
  | prepareShutdown at_ budget => exact fun appId => h.sweep at_ rfl budget appId
  | cleanupAll at_ budget => exact fun appId => h.sweep at_ rfl budget appId
  | restart => exact h
  | damage appId =>
    intro other
    change (Function.update s.manager.vaults appId (s.manager.vaults appId).damaged other).Told _
    by_cases hother : other = appId
    · subst hother
      rw [Function.update_self]
      exact ⟨fun m hm => absurd hm (not_loads_damaged _ m),
        fun m hm => absurd hm (not_loads_damaged _ m)⟩
    · rw [Function.update_of_ne hother]
      exact h other

theorem told_of_reachable (reached : loggedSystem.Reachable s) : s.Told := by
  have hinvariant : loggedSystem.Invariant Logged.Told := by
    constructor
    · rintro _ rfl appId
      refine ⟨?_, ?_⟩
      · rintro m ⟨now, hload⟩ blobId e he
        cases hload
        cases he
      · rintro m ⟨now, hload⟩ key hkey
        cases hload
        cases hkey
    · rintro s call _ h ⟨-, rfl⟩
      exact h.step call
  exact hinvariant.holds reached

/-- What a read of a finished blob returns. -/
theorem PrivateBlobEntry.Holds.exec_read {log : BlobLog}
    (h : e.Holds blobId (v.chunkFiles blobId) log)
    (hm : Loads v m) (hfound : m.blobs.lookup blobId = some e) (hfinished : log.finished = true)
    {call : Call} (hop : call.op = .readBlobRange blobId offset length)
    (hlive : isExpired e.expiresAt call.now = false) :
    (call.exec v).2 =
      if maxPrivateBlobReadBytes < length then .failed (.rangeTooLarge length)
      else if log.appended.length < offset + length then .failed .invalidRange
      else if accessIsStale e.lastAccessedAt call.now = true ∧ call.budget = 0 then
        .failed .persistence
      else .returned (.range (e.accessed call.now).descriptor
        ((log.appended.drop offset).take length)) := by
  obtain ⟨found, hload, -, hblobs⟩ := hm.at call.now
  have htotal : e.totalBytes = log.appended.length := by
    rw [← contentsOf_length h.sound, h.contents]
  rw [← hblobs] at hfound
  rw [Call.exec, hop, Op.plan, readBlobRange, h.valid hfinished]
  by_cases hlength : maxPrivateBlobReadBytes < length
  · rw [if_pos hlength, if_pos hlength]
  rw [if_neg hlength, if_neg hlength, hload]
  simp only [hfound, h.complete hfinished, hlive, not_true_eq_false, if_false, Bool.false_eq_true]
  by_cases hrange : log.appended.length < offset + length
  · have hrefused : readRange v blobId e offset length = .error .invalidRange := by
      rw [readRange, if_pos (.inr (by omega))]
    rw [if_pos hrange, hrefused]
  rw [if_neg hrange, readRange_eq h.sound (by omega), h.contents]
  by_cases hstale : accessIsStale e.lastAccessedAt call.now = true
  · simp only [hstale, if_true, true_and]
    cases hbudget : call.budget with
    | zero => rfl
    | succ budget => rfl
  · simp only [hstale, Bool.false_eq_true, if_false, false_and]
    rfl

/-! ## What is read -/

/-- What is asked of the vault of an application by the log of what it has been told. -/
structure Vault.ReadsBack (v : Vault) (log : String → BlobLog) (m : PrivateAppManifest) : Prop where
  /-- No file is gone that the manifest names. -/
  values : ∀ key ∈ m.values, (v.valueFiles key).isSome
  chunks : ∀ blobId e, m.blobs.lookup blobId = some e → ∀ chunk ∈ e.chunks,
    (v.chunkFiles blobId chunk.index).isSome
  /-- A finished blob has the length of what was appended, and is read in ranges. -/
  total : ∀ blobId e, m.blobs.lookup blobId = some e → e.totalBytes = (log blobId).appended.length
  read : ∀ blobId e, m.blobs.lookup blobId = some e → (log blobId).finished = true →
    ∀ (call : Call) (offset length : Nat), call.op = .readBlobRange blobId offset length →
      isExpired e.expiresAt call.now = false →
      (call.exec v).2 =
        if maxPrivateBlobReadBytes < length then .failed (.rangeTooLarge length)
        else if (log blobId).appended.length < offset + length then .failed .invalidRange
        else if accessIsStale e.lastAccessedAt call.now = true ∧ call.budget = 0 then
          .failed .persistence
        else .returned (.range (e.accessed call.now).descriptor
          (((log blobId).appended.drop offset).take length))

theorem Vault.Told.readsBack {log : String → BlobLog} (h : v.Told log) (hm : Loads v m) :
    v.ReadsBack log m where
  values := h.values m hm
  chunks blobId e he chunk hchunk := by
    obtain ⟨plain, hplain, -⟩ := (h.blobs m hm blobId e he).sound.file chunk hchunk
    exact Option.isSome_of_eq_some hplain
  total blobId e he := by
    have hold := h.blobs m hm blobId e he
    rw [← contentsOf_length hold.sound, hold.contents]
  read blobId e he hfinished _ _ _ hop hlive :=
    (h.blobs m hm blobId e he).exec_read hm he hfinished hop hlive

/-- In every run, whatever writes happen, a blob that is finished and whose entry is there is read
as the appends that have returned, and the files that the manifest names are there. -/
theorem finished_blobs_read_back {s : Logged} (reached : loggedSystem.Reachable s) (appId : String)
    {m : PrivateAppManifest} (hm : Loads (s.manager.vaults appId) m) :
    (s.manager.vaults appId).ReadsBack (s.log appId) m :=
  (told_of_reachable reached appId).readsBack hm

namespace BlobSample

open FullSample (videoId chunk call filled stored whole)

/-- The first run of the application "a" with its vault, a call of it after the other. -/
def after (calls : List Call) : Logged :=
  calls.foldl (fun s call => s.step (.app "a" call true)) ⟨.empty, fun _ _ => ⟨[], false⟩⟩

variable {calls : List Call}

theorem after_reachable (h : ∀ call ∈ calls, call.op.ofApp = true) :
    loggedSystem.Reachable (after calls) := by
  have hfold : after calls = (calls.map fun call => ManagerCall.app "a" call true).foldl
      Logged.step ⟨.empty, fun _ _ => ⟨[], false⟩⟩ := by
    rw [List.foldl_map, after]
  rw [hfold]
  refine .foldl (fun s label hlabel => ?_) (.start rfl)
  obtain ⟨call, hcall, rfl⟩ := List.mem_map.mp hlabel
  exact ⟨h call hcall, rfl⟩

/-- A call at a time, of which some writes happen. -/
def attempt (op : Op) (now : UInt64) (limit budget : Nat) : Call where
  toCircumstances := { TornSample.circumstances now with limit := limit }
  op := op
  budget := budget
  removed := { values := fun _ => false, chunks := fun _ _ => false }

/-- The second append writes its chunk and not the manifest, and is made again. -/
def retried (retention : PrivateRetention) (limit : Nat) : List Call :=
  [attempt (.beginBlob videoId "video" retention none) 100 limit 1,
    attempt (.appendBlob videoId [1, 2]) 100 limit 2,
    attempt (.appendBlob videoId [9]) 100 limit 1,
    attempt (.appendBlob videoId [3]) 100 limit 2,
    attempt (.finishBlob videoId) 100 limit 2]

theorem retried_reachable (retention : PrivateRetention) (limit : Nat) :
    loggedSystem.Reachable (after (retried retention limit)) :=
  after_reachable (by simp [retried, attempt, Op.ofApp])

def entry : PrivateBlobEntry where
  blobId := videoId
  contentType := "video"
  totalBytes := 3
  chunks := [⟨0, 2⟩, ⟨1, 1⟩]
  complete := true
  retention := .persistent
  expiresAt := none
  createdAt := 100
  updatedAt := 100
  lastAccessedAt := 100

/-- A range over both chunks. -/
theorem finished_blobs_read_back_retried :
    ((attempt (.readBlobRange videoId 1 2) 130 10 0).exec
      ((after (retried .persistent 10)).manager.vaults "a")).2 =
        .returned (.range entry.descriptor [2, 3]) := by
  have hentry : (((after (retried .persistent 10)).manager.vaults "a").loadManifest 0).toOption.bind
      (fun m => m.blobs.lookup videoId) = some entry := by decide +kernel
  obtain ⟨m, hload, hfound⟩ := Option.bind_eq_some_iff.mp hentry
  have hm : Loads ((after (retried .persistent 10)).manager.vaults "a") m := by
    refine ⟨0, ?_⟩
    cases hresult : ((after (retried .persistent 10)).manager.vaults "a").loadManifest 0 with
    | error error =>
      rw [hresult] at hload
      cases hload
    | ok found =>
      rw [hresult] at hload
      rw [Option.some.inj hload]
  have hread := (finished_blobs_read_back (retried_reachable .persistent 10) "a" hm).read videoId
    entry hfound (by decide +kernel) (attempt (.readBlobRange videoId 1 2) 130 10 0) 1 2 rfl
    (by decide +kernel)
  rw [hread]
  decide +kernel

theorem execApp_written (s : Manager) (appId : String) (call : Call) :
    (s.execApp appId call true).1.vaults appId = (call.exec (s.vaults appId)).1 ∧
      (s.execApp appId call true).2 = (call.exec (s.vaults appId)).2 := by
  rw [Manager.execApp]
  by_cases hregisters : call.op.registers = true
  · rw [if_pos hregisters, Manager.ensureAppRegistered, if_pos rfl]
    split_ifs
    · exact ⟨Function.update_self appId _ _, rfl⟩
    · exact ⟨Function.update_self appId _ _, rfl⟩
  · rw [if_neg hregisters]
    exact ⟨Function.update_self appId _ _, rfl⟩

/-- One call more. -/
theorem after_append (calls : List Call) (call : Call) :
    (after (calls ++ [call])).manager.vaults "a" =
        (call.exec ((after calls).manager.vaults "a")).1 ∧
      (after (calls ++ [call])).log "a" =
        call.op.logged (call.exec ((after calls).manager.vaults "a")).2 ((after calls).log "a") := by
  have hstep : after (calls ++ [call]) = (after calls).step (.app "a" call true) :=
    List.foldl_append
  obtain ⟨hvault, houtcome⟩ := execApp_written (after calls).manager "a" call
  rw [hstep, ← houtcome]
  exact ⟨hvault, Function.update_self "a" _ (after calls).log⟩

/-- A blob that is to stay, with some chunks. -/
def chunks (size : Nat) : Nat → List Call
  | 0 => [call (.beginBlob videoId "video" .persistent none)]
  | n + 1 => chunks size n ++ [call (.appendBlob videoId (chunk size))]

theorem vault_chunks (size n : Nat) :
    (after (chunks size n)).manager.vaults "a" = filled size .persistent n := by
  induction n with
  | zero => exact (after_append [] (call (.beginBlob videoId "video" .persistent none))).1
  | succ n ih =>
    rw [chunks, (after_append _ _).1, ih]
    rfl

theorem chunks_ofApp (size n : Nat) : ∀ call ∈ chunks size n, call.op.ofApp = true := by
  induction n with
  | zero => simp [chunks, call, Op.ofApp]
  | succ n ih => simpa [chunks, or_imp, forall_and, call, Op.ofApp] using ih

/-- Three chunks of the largest size. -/
def large : List Call := chunks 262144 3 ++ [call (.finishBlob videoId)]

theorem finished_reachable (size n : Nat) :
    loggedSystem.Reachable (after (chunks size n ++ [call (.finishBlob videoId)])) := by
  refine after_reachable fun call' hcall => ?_
  rcases List.mem_append.mp hcall with hcall | hcall
  · exact chunks_ofApp size n call' hcall
  · rw [List.mem_singleton.mp hcall]
    rfl

/-- A range is refused if it is long, although it is the whole of a finished blob. -/
theorem finished_refused {size n : Nat} (hsize : 0 < size ∧ size ≤ 262144) (hn : n ≤ 4097)
    (hlong : maxPrivateBlobReadBytes < size * n)
    (hcalls : calls = chunks size n ++ [call (.finishBlob videoId)]) :
    ((after calls).log "a" videoId).finished = true ∧
      ((after calls).log "a" videoId).appended.length = size * n ∧
      ((call (.readBlobRange videoId 0 (size * n))).exec ((after calls).manager.vaults "a")).2 =
        .failed (.rangeTooLarge (size * n)) := by
  obtain ⟨hvault, hlog⟩ := after_append (chunks size n) (call (.finishBlob videoId))
  rw [vault_chunks, ← hcalls] at hvault hlog
  have hm : Loads ((after calls).manager.vaults "a")
      (FullSample.manifest (whole size .persistent n)) := by
    rw [hvault]
    exact FullSample.stored_loads hsize hn
  have hfound : (FullSample.manifest (whole size .persistent n)).blobs.lookup videoId =
      some (whole size .persistent n) :=
    AList.lookup_insert _
  have hfinished : ((after calls).log "a" videoId).finished = true := by
    rw [hlog, (FullSample.finish_returned hsize (.inl rfl) hn).1]
    change (Function.update ((after (chunks size n)).log "a") videoId _ videoId).finished = true
    rw [Function.update_self]
  have htold := told_of_reachable (hcalls ▸ finished_reachable size n) "a"
  refine ⟨hfinished, ((htold.readsBack hm).total videoId _ hfound).symm, ?_⟩
  have hread : (call (.readBlobRange videoId 0 (size * n))).op =
      .readBlobRange videoId 0 (size * n) := rfl
  rw [(htold.blobs _ hm videoId _ hfound).exec_read hm hfound hfinished hread rfl]
  exact if_pos hlong

/-- Ranges inside a finished blob that are refused: a long one, one of a blob that the cache has
given up in the moment it was finished, and one whose access cannot be written down. -/
theorem inside_ranges_are_refused :
    (∃ s, loggedSystem.Reachable s ∧ (s.log "a" videoId).finished = true ∧
      (s.log "a" videoId).appended.length = 786432 ∧
      ((call (.readBlobRange videoId 0 786432)).exec (s.manager.vaults "a")).2 =
        .failed (.rangeTooLarge 786432)) ∧
    (∃ s, loggedSystem.Reachable s ∧ s.log "a" videoId = ⟨[1, 2, 3], true⟩ ∧
      ((attempt (.readBlobRange videoId 0 1) 100 2 2).exec (s.manager.vaults "a")).2 =
        .failed .blobNotFound) ∧
    ∃ s, loggedSystem.Reachable s ∧ s.log "a" videoId = ⟨[1, 2, 3], true⟩ ∧
      ((attempt (.readBlobRange videoId 0 1) 200 10 0).exec (s.manager.vaults "a")).2 =
        .failed .persistence := by
  refine ⟨⟨after large, finished_reachable 262144 3,
      finished_refused ⟨by omega, Nat.le_refl _⟩ (by omega) (by decide) rfl⟩,
    ⟨after (retried .cache 2), retried_reachable .cache 2, ?_, ?_⟩,
    ⟨after (retried .persistent 10), retried_reachable .persistent 10, ?_, ?_⟩⟩
  · decide +kernel
  · decide +kernel
  · decide +kernel
  · decide +kernel

end BlobSample

end VeilKnit.PrivateStorage
