import VeilKnit.App.DirectoryCalls
import VeilKnit.Library.LabelledSystem

/-!
# Runs of the application directory

Between its two sections a call waits, and others may go first. A run records, besides the
manager, the waiting calls, the last set or clear of every application to return, the
applications that the last completed synchronization had in use, and whether a publication has
broken off after its manifest had landed.

Two defects show. A synchronization publishes a snapshot that may be older than what has been set
or cleared since. And a call that finds the manifest in memory as it wants it returns at once,
even if what the network holds is another one, left behind by a publication that broke off.
-/

namespace VeilKnit.App

open Library Types

section Runs

variable {Key : Type} (keys : RecordKeys Key)

/-! ## Steps -/

structure DirectoryRun (Key : Type) where
  manager : AppDirectoryManager Key
  waiting : List (Call Key) := []
  /-- The root that the last set or clear of an application to return has left. -/
  lastDone : String → Option (Option String) := fun _ => none
  lastActive : Option (List String) := none
  /-- A call has returned an error or was dropped. -/
  failed : Bool := false
  /-- The network holds a manifest whose publication has broken off. -/
  halfDone : Bool := false
  /-- The call that has returned with this step. -/
  returned : Option (Call Key) := none

inductive Event (Key : Type)
  | start (request : Request Key) (now : UInt64) (saved : Option String)
  | finish (i : Nat) (writes : Writes)
  | abandon (i : Nat)

namespace DirectoryRun

def start (run : DirectoryRun Key) (request : Request Key) (now : UInt64)
    (saved : Option String) : DirectoryRun Key :=
  match request.begin keys now saved run.manager with
  | (.ok call, d) =>
    { run with manager := d, waiting := run.waiting ++ [call], returned := none }
  | (.error _, d) => { run with manager := d, failed := true, returned := none }

/-- A call returns, having left the manager in a state. -/
def succeed (run : DirectoryRun Key) (i : Nat) (call : Call Key) (d : AppDirectoryManager Key) :
    DirectoryRun Key where
  manager := d
  waiting := run.waiting.eraseIdx i
  lastDone appId :=
    if call.app? = some appId then some (call.root? keys appId) else run.lastDone appId
  lastActive := call.active?.or run.lastActive
  failed := run.failed
  halfDone := run.halfDone && decide (d.manifest = run.manager.manifest)
  returned := some call

/-- A call gives up, having left the manager in a state. -/
def fail (run : DirectoryRun Key) (i : Nat) (d : AppDirectoryManager Key) :
    DirectoryRun Key where
  manager := d
  waiting := run.waiting.eraseIdx i
  lastDone := run.lastDone
  lastActive := run.lastActive
  failed := true
  halfDone := run.halfDone || decide (d.directoryValue ≠ run.manager.directoryValue)
  returned := none

def finish (run : DirectoryRun Key) (i : Nat) (call : Call Key) (writes : Writes) :
    DirectoryRun Key :=
  match call.finish keys writes run.manager with
  | (.ok _, d) => run.succeed keys i call d
  | (.error _, d) => run.fail i d

def next (run : DirectoryRun Key) : Event Key → Option (DirectoryRun Key)
  | .start request now saved => some (run.start keys request now saved)
  | .finish i writes => run.waiting[i]?.map fun call => run.finish keys i call writes
  | .abandon i => run.waiting[i]?.map fun _ => run.fail i run.manager

end DirectoryRun

/-- Runs begin as the manager is loaded, from a store that holds what it wrote. -/
def directorySystem : LabelledSystem (DirectoryRun Key) (Event Key) where
  initial run := ∃ saved found directoryDht now, RootsValid keys (saved.getD ∅) ∧
    run = { manager := loadOrCreate keys saved found directoryDht now }
  step run event run' := run.next keys event = some run'

/-- What a step does. -/
inductive Stepped (run : DirectoryRun Key) : Event Key → DirectoryRun Key → Prop
  | started {request : Request Key} {now : UInt64} {saved : Option String} {call : Call Key}
      {roots : Roots} : Begins keys run.manager (.ok call) roots →
      Stepped run (.start request now saved)
        { run with
          manager := { run.manager with roots := roots }
          waiting := run.waiting ++ [call]
          returned := none }
  | refused {request : Request Key} {now : UInt64} {saved : Option String} {e : String}
      {roots : Roots} : Begins keys run.manager (.error e) roots →
      Stepped run (.start request now saved)
        { run with manager := { run.manager with roots := roots }, failed := true, returned := none }
  | settled {i : Nat} {writes : Writes} {call : Call Key} : run.waiting[i]? = some call →
      ¬ call.Changes keys run.manager.manifest →
      Stepped run (.finish i writes) (run.succeed keys i call run.manager)
  | complete {i : Nat} {writes : Writes} {call : Call Key} {next : AppDirectoryManifest} :
      run.waiting[i]? = some call → call.Changes keys run.manager.manifest →
      call.Next keys run.manager.manifest next → Fits next →
      Stepped run (.finish i writes)
        (run.succeed keys i call (published keys next writes.clock run.manager))
  | broken {i : Nat} {writes : Writes} {call : Call Key} {next : AppDirectoryManifest}
      {d : AppDirectoryManager Key} : run.waiting[i]? = some call →
      call.Next keys run.manager.manifest next → BrokenOff next run.manager d →
      Stepped run (.finish i writes) (run.fail i d)
  | dropped {i : Nat} {event : Event Key} : Stepped run event (run.fail i run.manager)

variable {run run' : DirectoryRun Key} {event : Event Key}

theorem stepped_of_next (h : run.next keys event = some run') : Stepped keys run event run' := by
  cases event with
  | start request now saved =>
    cases h
    unfold DirectoryRun.start
    obtain ⟨result, d, hbegin⟩ : ∃ result d,
        request.begin keys now saved run.manager = (result, d) := ⟨_, _, rfl⟩
    obtain ⟨roots, rfl, hbegins⟩ := Request.begin_spec keys hbegin
    rw [hbegin]
    cases result with
    | ok call => exact .started hbegins
    | error e => exact .refused hbegins
  | finish i writes =>
    obtain ⟨call, hcall, rfl⟩ := Option.map_eq_some_iff.mp h
    unfold DirectoryRun.finish
    have hends := call.finish_ends keys writes run.manager
    obtain ⟨result, d, hfinish⟩ : ∃ result d,
        call.finish keys writes run.manager = (result, d) := ⟨_, _, rfl⟩
    rw [hfinish] at hends ⊢
    cases hends with
    | settled hsettled => exact .settled hcall hsettled
    | complete hchanges hnext hfits => exact .complete hcall hchanges hnext hfits
    | broken hnext hbroken => exact .broken hcall hnext hbroken
    | rejected => exact .dropped
  | abandon i =>
    obtain ⟨call, -, rfl⟩ := Option.map_eq_some_iff.mp h
    exact .dropped

/-! ## What holds in every run -/

/-- The network holds the manifest of the memory and points to its generation. -/
structure Agreed (d : AppDirectoryManager Key) : Prop where
  manifest : decodeAppDirectoryManifest keys d.directoryValue = .ok d.manifest
  pointer : ∃ info, decodeAppDirectoryInfo keys d.pointerValue = .ok info ∧
    info.directoryDht = keys.text d.directoryDht ∧ info.generation = d.manifest.generation

structure RunValid (run : DirectoryRun Key) : Prop where
  manifest : run.manager.manifest.Valid keys
  roots : RootsValid keys run.manager.roots
  waiting : ∀ call ∈ run.waiting, call.Valid keys
  agreed : run.halfDone = false → Agreed keys run.manager
  astray : run.halfDone = true → ∃ next : AppDirectoryManifest, next ≠ run.manager.manifest ∧
    run.manager.directoryValue = AppDirectoryManifest.codec.encode next
  failed : run.halfDone = true → run.failed = true

variable {manifest : AppDirectoryManifest}

theorem entriesValid_of_valid (h : manifest.Valid keys) : EntriesValid keys manifest.entries :=
  ⟨h.canonical, h.parsed, h.distinct⟩

theorem normalized_of_version
    (h : manifest.recordVersion = appDirectoryRecordVersion) : normalized manifest = manifest := by
  rw [normalized, ← h]

variable {call : Call Key}

theorem Call.Next.version {next : AppDirectoryManifest}
    (h : call.Next keys manifest next) : next.recordVersion = manifest.recordVersion := by
  rw [h.advanced]
  rfl

theorem Call.Next.generation {next : AppDirectoryManifest} (h : call.Next keys manifest next) :
    next.generation = max (saturatingAdd manifest.generation 1) 1 := by
  rw [h.advanced]
  rfl

theorem Call.Next.ne {next : AppDirectoryManifest}
    (h : call.Next keys manifest next) : next ≠ manifest :=
  fun hsame => h.different (congrArg (·.entries) hsame)

theorem Call.Next.next_valid {next : AppDirectoryManifest}
    (h : call.Next keys manifest next) (hmanifest : manifest.Valid keys)
    (hcall : call.Valid keys) (hfits : Fits next) : next.Valid keys where
  version := (h.version keys).trans hmanifest.version
  generation := by
    rw [h.generation]
    exact max_one_ne_zero _
  bounded := hfits.bounded
  canonical := (h.valid (entriesValid_of_valid keys hmanifest) hcall).canonical
  parsed := (h.valid (entriesValid_of_valid keys hmanifest) hcall).parsed
  distinct := (h.valid (entriesValid_of_valid keys hmanifest) hcall).distinct

theorem max_one_of_ne_zero {generation : UInt64} (h : generation ≠ 0) :
    max generation 1 = generation := by
  change (if generation ≤ 1 then 1 else generation) = generation
  split
  case isTrue hsmall =>
    have hpositive : generation.toNat ≠ 0 := fun hzero => h (UInt64.toNat_inj.mp hzero)
    have hle : generation.toNat ≤ 1 := UInt64.le_iff_toNat_le.mp hsmall
    exact (UInt64.toNat_inj.mp (show generation.toNat = (1 : UInt64).toNat by
      change generation.toNat = 1
      omega)).symm
  case isFalse => rfl

variable {d : AppDirectoryManager Key}

/-- A manifest and its pointer, as a publication leaves them. -/
theorem agreed_of_encode
    {clock : UInt64} (hmanifest : d.manifest = manifest) (hvalid : manifest.Valid keys)
    (hvalue : decodeAppDirectoryManifest keys d.directoryValue = .ok manifest)
    (hpointer : d.pointerValue = AppDirectoryInfo.codec.encode
      (.new (keys.text d.directoryDht) manifest.generation clock)) : Agreed keys d := by
  refine ⟨hvalue.trans (congrArg _ hmanifest.symm),
    .new (keys.text d.directoryDht) manifest.generation clock, ?_, rfl, ?_⟩
  · rw [hpointer]
    exact decodeAppDirectoryInfo_encode keys d.directoryDht manifest.generation clock
  · rw [hmanifest]
    exact max_one_of_ne_zero hvalid.generation

theorem published_agreed {next : AppDirectoryManifest}
    {clock : UInt64} (hvalid : next.Valid keys) (hfits : Fits next) :
    Agreed keys (published keys next clock d) := by
  refine agreed_of_encode keys rfl hvalid ?_ rfl
  have hshort := hfits.short
  rw [normalized_of_version hvalid.version] at hshort
  rw [published, normalized_of_version hvalid.version]
  exact decodeAppDirectoryManifest_encode keys hvalid hshort

/-- What is read of a written manifest is that manifest. -/
theorem eq_of_decode_encode {written read : AppDirectoryManifest}
    (h : decodeAppDirectoryManifest keys (AppDirectoryManifest.codec.encode written) = .ok read) :
    read = written := by
  obtain ⟨value, hdecode, h⟩ := except_bind_eq_ok.mp h
  obtain ⟨-, h⟩ := except_passed_of_ok h
  obtain ⟨-, h⟩ := except_passed_of_ok h
  obtain ⟨-, h⟩ := except_passed_of_ok h
  obtain rfl : value = read := Except.ok.inj h
  have hlimited : decodeBincodeLimited AppDirectoryManifest.codec
      (AppDirectoryManifest.codec.encode written) maxNetworkDhtValueBytes = .ok value := by
    cases hresult : decodeBincodeLimited AppDirectoryManifest.codec
        (AppDirectoryManifest.codec.encode written) maxNetworkDhtValueBytes with
    | error e =>
      rw [decodeLimited, hresult] at hdecode
      cases hdecode
    | ok result =>
      rw [decodeLimited, hresult] at hdecode
      exact congrArg Except.ok (Except.ok.inj hdecode)
  have hread := decodeBincodeLimited_ok hlimited
  have hwritten := AppDirectoryManifest.codec.decode_encode written []
  rw [List.append_nil, hread] at hwritten
  exact congrArg Prod.fst (Option.some.inj hwritten)

/-- A manifest left behind by a publication that broke off is not the one in memory. -/
theorem not_agreed {next : AppDirectoryManifest} (hne : next ≠ d.manifest)
    (hvalue : d.directoryValue = AppDirectoryManifest.codec.encode next) : ¬ Agreed keys d := by
  intro h
  have hread := h.manifest
  rw [hvalue] at hread
  exact hne (eq_of_decode_encode keys hread).symm

theorem RunValid.agreed_iff (h : RunValid keys run) :
    Agreed keys run.manager ↔ run.halfDone = false := by
  constructor
  · intro hagreed
    by_contra hhalf
    obtain ⟨next, hne, hvalue⟩ := h.astray (by simpa using hhalf)
    exact not_agreed keys hne hvalue hagreed
  · exact h.agreed

/-- The stored roots have no part in the agreement. -/
theorem Agreed.with_roots (h : Agreed keys d) (roots : Roots) :
    Agreed keys { d with roots := roots } :=
  ⟨h.manifest, h.pointer⟩

/-- A step of a call that leaves the waiting calls fewer. -/
private theorem waiting_erased (h : RunValid keys run) (i : Nat) :
    ∀ call ∈ run.waiting.eraseIdx i, call.Valid keys :=
  fun call hcall => h.waiting call (List.mem_of_mem_eraseIdx hcall)

theorem RunValid.step (h : RunValid keys run)
    (hstep : Stepped keys run event run') : RunValid keys run' := by
  cases hstep with
  | started hbegins =>
    refine ⟨h.manifest, hbegins.valid h.roots, ?_,
      fun hhalf => (h.agreed hhalf).with_roots keys _, h.astray, h.failed⟩
    intro call hcall
    rcases List.mem_append.mp hcall with hcall | hcall
    · exact h.waiting call hcall
    · obtain rfl := List.mem_singleton.mp hcall
      exact hbegins.call call rfl h.roots
  | refused hbegins =>
    exact ⟨h.manifest, hbegins.valid h.roots, h.waiting,
      fun hhalf => (h.agreed hhalf).with_roots keys _, h.astray, fun _ => rfl⟩
  | settled hcall hsettled =>
    rename_i i writes call
    have hhalf : (run.succeed keys i call run.manager).halfDone = run.halfDone := by
      simp [DirectoryRun.succeed]
    refine ⟨h.manifest, h.roots, waiting_erased keys h i, ?_, ?_, ?_⟩
    · rw [hhalf]
      exact h.agreed
    · rw [hhalf]
      exact h.astray
    · rw [hhalf]
      exact h.failed
  | complete hcall hchanges hnext hfits =>
    rename_i i writes call next
    have hvalid := hnext.next_valid keys h.manifest
      (h.waiting call (List.mem_of_getElem? hcall)) hfits
    have hhalf : (run.succeed keys i call
        (published keys next writes.clock run.manager)).halfDone = false := by
      simp [DirectoryRun.succeed, published, hnext.ne keys]
    refine ⟨hvalid, h.roots, waiting_erased keys h i,
      fun _ => published_agreed keys hvalid hfits, ?_, ?_⟩
    · rw [hhalf]
      exact fun hfalse => by cases hfalse
    · rw [hhalf]
      exact fun hfalse => by cases hfalse
  | broken hcall hnext hbroken =>
    rename_i i writes call next d
    have hversion := (hnext.version keys).trans h.manifest.version
    have hvalue := hbroken.value
    rw [normalized_of_version hversion] at hvalue
    have hmanifest : d.manifest.Valid keys := hbroken.manifest.symm ▸ h.manifest
    refine ⟨hmanifest, hbroken.roots.symm ▸ h.roots, waiting_erased keys h i, ?_, ?_, fun _ => rfl⟩
    · intro hhalf
      simp only [DirectoryRun.fail, Bool.or_eq_false_iff, decide_eq_false_iff_not, not_not] at hhalf
      rcases hvalue with rfl | hvalue
      · exact h.agreed hhalf.1
      · exact absurd (h.agreed hhalf.1)
          (not_agreed keys (hnext.ne keys) (hhalf.2.symm.trans hvalue))
    · intro hhalf
      rcases hvalue with rfl | hvalue
      · refine h.astray ?_
        simpa [DirectoryRun.fail] using hhalf
      · exact ⟨next, hbroken.manifest.symm ▸ hnext.ne keys, hvalue⟩
  | dropped =>
    rename_i i
    refine ⟨h.manifest, h.roots, waiting_erased keys h i, ?_, ?_, fun _ => rfl⟩
    · intro hhalf
      exact h.agreed (by simpa [DirectoryRun.fail] using hhalf)
    · intro hhalf
      exact h.astray (by simpa [DirectoryRun.fail] using hhalf)

/-! ### The manager as it is loaded -/

theorem empty_valid (now : UInt64) : (AppDirectoryManifest.empty now).Valid keys where
  version := rfl
  generation := show (1 : UInt64) ≠ 0 by decide
  bounded := Nat.zero_le 128
  canonical _ h := nomatch h
  parsed _ h := nomatch h
  distinct := List.nodup_nil

theorem empty_encode_length (now : UInt64) :
    (AppDirectoryManifest.codec.encode (.empty now)).length = 26 := by
  have hversion (n : UInt16) : (Codec.u16.encode n).length = 2 := Codec.leBytes_length _ _
  have htime (n : UInt64) : (Codec.u64.encode n).length = 8 := Codec.leBytes_length _ _
  have hentries : (AppDirectoryEntry.codec.list.encode []).length = 8 := by
    change (Codec.length.encode 0 ++ []).length = 8
    rw [List.append_nil]
    exact Codec.length_encode_length (by decide)
  simp [AppDirectoryManifest.codec, AppDirectoryManifest.empty, Codec.imap, Codec.pair, hversion,
    htime, hentries]

theorem seedRoots_valid {roots : Roots} {entries : List AppDirectoryEntry}
    (hroots : RootsValid keys roots)
    (hentries : ∀ entry ∈ entries, isCanonicalApplicationId entry.appId ∧
      (keys.parse entry.rootDht).isSome) : RootsValid keys (seedRoots roots entries) := by
  induction entries generalizing roots with
  | nil => exact hroots
  | cons entry entries ih =>
    obtain ⟨hid, hroot⟩ := hentries entry List.mem_cons_self
    refine ih ?_ fun e he => hentries e (List.mem_cons_of_mem _ he)
    dsimp only
    split
    case isTrue => exact hroots
    case isFalse => exact hroots.insert keys hid hroot

theorem loadOrCreate_valid {saved : Option Roots} {found : Option Bytes} {directoryDht : Key}
    {now : UInt64} (h : RootsValid keys (saved.getD ∅)) :
    RunValid keys { manager := loadOrCreate keys saved found directoryDht now } := by
  -- Whatever is found, a valid manifest is in memory and its text is in the network.
  obtain ⟨manifest, value, hload, hvalid, hvalue⟩ : ∃ manifest value,
      loadOrCreate keys saved found directoryDht now =
        { directoryDht := directoryDht
          roots := seedRoots (saved.getD ∅) manifest.entries
          manifest := manifest
          directoryValue := value
          pointerValue := AppDirectoryInfo.codec.encode
            (.new (keys.text directoryDht) manifest.generation now) } ∧
      manifest.Valid keys ∧ decodeAppDirectoryManifest keys value = .ok manifest := by
    have hrebuilt : decodeAppDirectoryManifest keys
        (AppDirectoryManifest.codec.encode (.empty now)) = .ok (.empty now) :=
      decodeAppDirectoryManifest_encode keys (empty_valid keys now)
        (by rw [empty_encode_length]; decide)
    cases found with
    | none => exact ⟨.empty now, _, rfl, empty_valid keys now, hrebuilt⟩
    | some bytes =>
      cases hdecode : decodeAppDirectoryManifest keys bytes with
      | ok manifest =>
        refine ⟨manifest, bytes, ?_, decodeAppDirectoryManifest_ok keys hdecode, hdecode⟩
        rw [loadOrCreate]
        simp only [hdecode]
      | error e =>
        refine ⟨.empty now, _, ?_, empty_valid keys now, hrebuilt⟩
        rw [loadOrCreate]
        simp only [hdecode]
  rw [hload]
  exact ⟨hvalid, seedRoots_valid keys h fun e he => ⟨hvalid.canonical e he, hvalid.parsed e he⟩,
    fun _ h => (by cases h), fun _ => agreed_of_encode keys rfl hvalid hvalue rfl,
    fun h => (by cases h), fun h => (by cases h)⟩

theorem runValid_invariant : (directorySystem keys).Invariant (RunValid keys) where
  initially run hinit := by
    obtain ⟨saved, found, directoryDht, now, hroots, rfl⟩ := hinit
    exact loadOrCreate_valid keys hroots
  preserved run event run' hrun hstep := hrun.step keys (stepped_of_next keys hstep)

/-! ## Success and what a peer sees -/

/-- A peer that reads both records, and whose clock is not behind them, finds the root that the
memory has for an application. -/
def Resolves (d : AppDirectoryManager Key) : Prop :=
  ∀ (network : Key → Nat → Except String Bytes) (peerMainDht : Key) (appId : String) (now : UInt64),
    network peerMainDht appDirectoryLocation = .ok d.pointerValue →
    network d.directoryDht appDirectorySubkey = .ok d.directoryValue →
    (∀ info, decodeAppDirectoryInfo keys d.pointerValue = .ok info →
      info.updatedAt ≤ latestPlausible now) →
    d.manifest.updatedAt ≤ latestPlausible now →
    resolvePeerRoot keys network appId peerMainDht now =
      .ok ((d.manifest.rootOf appId).bind keys.parse, d.manifest.generation)

theorem Agreed.resolves (h : Agreed keys d) (hvalid : d.manifest.Valid keys) : Resolves keys d := by
  intro network peer appId now hpointer hdirectory hclock hclock'
  obtain ⟨info, hinfo, htext, hgeneration⟩ := h.pointer
  have hplausible : info.timestampIsPlausibleAt now = true := by
    simpa [AppDirectoryInfo.timestampIsPlausibleAt] using hclock info hinfo
  have hkey : keys.parse info.directoryDht = some d.directoryDht := by
    rw [htext, keys.parse_text]
  unfold resolvePeerRoot
  rw [hpointer]
  simp only [Except.mapError, bind, Except.bind, hinfo, hplausible, hkey, pure, Except.pure,
    hdirectory, h.manifest, hgeneration, Bool.not_true, Bool.false_eq_true, if_false, ne_eq,
    not_true_eq_false, gt_iff_lt, UInt64.not_lt.mpr hclock']
  cases hroot : d.manifest.rootOf appId with
  | none => rfl
  | some text =>
    obtain ⟨entry, hentry, -, rfl⟩ := (rootOf_eq_some hvalid.distinct).mp hroot
    obtain ⟨key, hparse⟩ := Option.isSome_iff_exists.mp (hvalid.parsed entry hentry)
    simp [hparse]

/-- In every run, as long as no call has failed, a peer finds what the memory has. -/
theorem public_roots_resolve {run : DirectoryRun Key}
    (reached : (directorySystem keys).Reachable run) (unfailed : run.failed = false) :
    Resolves keys run.manager := by
  have hvalid := (runValid_invariant keys).holds reached
  refine (hvalid.agreed ?_).resolves keys hvalid.manifest
  by_contra hhalf
  rw [hvalid.failed (by simpa using hhalf)] at unfailed
  cases unfailed

/-- A call that has returned stands: the network agrees with the memory, a peer's lookup
succeeds, and the memory has the roots that the call asked for. -/
def OkReturns (run : DirectoryRun Key) : Prop :=
  ∀ call ∈ run.returned, Agreed keys run.manager ∧ Resolves keys run.manager ∧
    ∀ appId, call.Concerns appId → run.manager.manifest.rootOf appId = call.root? keys appId

/-- No call finds the memory as it wants it while the network holds a manifest whose publication
has broken off. -/
def NoShortcut (run : DirectoryRun Key) : Event Key → Prop
  | .finish i _ =>
    ∀ call ∈ run.waiting[i]?, run.halfDone = true → call.Changes keys run.manager.manifest
  | _ => True

variable {appId : String}

theorem root_of_settled (h : ¬ call.Changes keys manifest) (concerned : call.Concerns appId) :
    manifest.rootOf appId = call.root? keys appId := by
  cases call with
  | sync active snapshot now =>
    exact (rootOf_desiredEntries (not_not.mp h).symm appId).trans (if_pos concerned)
  | set appId' rootDht now =>
    obtain rfl : appId = appId' := concerned
    exact not_not.mp h
  | clear appId' now =>
    obtain rfl : appId = appId' := concerned
    exact not_not.mp h

theorem root_of_complete {next : AppDirectoryManifest}
    (h : call.Next keys manifest next) (hmanifest : manifest.Valid keys)
    (concerned : call.Concerns appId) : next.rootOf appId = call.root? keys appId := by
  rw [h.roots hmanifest.distinct, Call.rootAfter_of_concerns keys concerned]

theorem okReturns_iff (h : RunValid keys run)
    (hstep : Stepped keys run event run') (returned : run'.returned.isSome) :
    OkReturns keys run' ↔ NoShortcut keys run event := by
  cases hstep with
  | started hbegins => cases returned
  | refused hbegins => cases returned
  | broken hcall hnext hbroken => cases returned
  | dropped => cases returned
  | settled hcall hsettled =>
    rename_i i writes call
    constructor
    · intro hok call' hcall' hhalf
      cases hcall.symm.trans hcall'
      have hagreed := (hok call rfl).1
      rw [(h.agreed_iff keys).mp hagreed] at hhalf
      cases hhalf
    intro hguard call' hcall'
    cases hcall'
    have hwhole : run.halfDone = false := by
      by_contra hhalf
      exact hsettled (hguard call hcall (by simpa using hhalf))
    have hagreed := h.agreed hwhole
    exact ⟨hagreed, hagreed.resolves keys h.manifest,
      fun appId concerned => root_of_settled keys hsettled concerned⟩
  | complete hcall hchanges hnext hfits =>
    rename_i i writes call next
    have hvalid := hnext.next_valid keys h.manifest
      (h.waiting call (List.mem_of_getElem? hcall)) hfits
    have hagreed : Agreed keys (published keys next writes.clock run.manager) :=
      published_agreed keys hvalid hfits
    constructor
    · intro _ call' hcall' _
      cases hcall.symm.trans hcall'
      exact hchanges
    · intro _ call' hcall'
      cases hcall'
      exact ⟨hagreed, hagreed.resolves keys hvalid,
        fun appId concerned => root_of_complete keys hnext h.manifest concerned⟩

/-- In runs without shortcuts a call that succeeds stands; and a call that succeeds stands just
if it takes no shortcut. -/
theorem directory_agrees_on_success :
    (∀ run, ((directorySystem keys).restrict (NoShortcut keys)).Reachable run →
      OkReturns keys run) ∧
    (∀ run event run', (directorySystem keys).Reachable run →
      (directorySystem keys).step run event run' → run'.returned.isSome →
      (OkReturns keys run' ↔ NoShortcut keys run event)) := by
  constructor
  · intro run reached
    refine (runValid_invariant keys).holds_within ?_ ?_ reached
    · rintro run ⟨saved, found, directoryDht, now, -, rfl⟩ call hcall
      cases hcall
    · intro run event run' hvalid _ hguard hstep call hcall
      have hstepped := stepped_of_next keys hstep
      exact (okReturns_iff keys hvalid hstepped (Option.isSome_of_mem hcall)).mpr hguard call hcall
  · intro run event run' reached hstep returned
    exact okReturns_iff keys ((runValid_invariant keys).holds reached)
      (stepped_of_next keys hstep) returned

/-! ## Concurrent calls -/

/-- A set or clear of the application waits. -/
def Awaited (waiting : List (Call Key)) (appId : String) : Prop :=
  ∃ call ∈ waiting, call.app? = some appId

/-- When all calls have returned and none has failed, the public manifest has the root that the
last set or clear of an application in use has left. -/
def LastCallStands (run : DirectoryRun Key) : Prop :=
  run.failed = false → run.waiting = [] → ∀ appId, (∀ active ∈ run.lastActive, appId ∈ active) →
    ∀ root, run.lastDone appId = some root →
    ∃ manifest, decodeAppDirectoryManifest keys run.manager.directoryValue = .ok manifest ∧
      manifest.rootOf appId = root

/-- When a call takes the second lock, the root it has for an application is the stored one, or
a set or clear of the application still waits. -/
def RootsCurrent (run : DirectoryRun Key) : Event Key → Prop
  | .finish i _ => ∀ call ∈ run.waiting[i]?, ∀ appId, call.Concerns appId →
      Awaited (run.waiting.eraseIdx i) appId ∨
        call.root? keys appId = run.manager.roots.lookup appId
  | _ => True

/-- An application that no set or clear waits for has the root of the last one, in the store
and, if it is in use, in the manifest. -/
def RootsSettled (run : DirectoryRun Key) : Prop :=
  run.failed = false → ∀ appId, ¬ Awaited run.waiting appId →
    ∀ root, run.lastDone appId = some root → run.manager.roots.lookup appId = root ∧
      ((∀ active ∈ run.lastActive, appId ∈ active) → run.manager.manifest.rootOf appId = root)

theorem awaited_of_eraseIdx {waiting : List (Call Key)} {i : Nat}
    (hcall : waiting[i]? = some call) (h : Awaited waiting appId) :
    call.app? = some appId ∨ Awaited (waiting.eraseIdx i) appId := by
  obtain ⟨other, hother, happ⟩ := h
  obtain ⟨hi, hget⟩ := List.getElem?_eq_some_iff.mp hcall
  have hperm := List.getElem_cons_eraseIdx_perm hi
  rcases List.mem_cons.mp (hperm.mem_iff.mpr hother) with rfl | hother
  · exact .inl (hget ▸ happ)
  · exact .inr ⟨other, hother, happ⟩

/-- A call that returns keeps the roots settled, if its own were current and the manifest it
leaves has them. -/
private theorem rootsSettled_succeed {i : Nat}
    (h : RootsSettled run) (hcall : run.waiting[i]? = some call)
    (current : ∀ appId, call.Concerns appId → Awaited (run.waiting.eraseIdx i) appId ∨
      call.root? keys appId = run.manager.roots.lookup appId)
    (roots : d.roots = run.manager.roots) (concerned : ∀ appId, call.Concerns appId →
      d.manifest.rootOf appId = call.root? keys appId)
    (unconcerned : ∀ appId, ¬ call.Concerns appId → call.active? = none →
      d.manifest.rootOf appId = run.manager.manifest.rootOf appId) :
    RootsSettled (run.succeed keys i call d) := by
  intro hfailed appId hawaited root hdone
  change d.roots.lookup appId = root ∧ _
  rw [roots]
  have hcurrent (hconcerns : call.Concerns appId) :
      call.root? keys appId = run.manager.roots.lookup appId :=
    (current appId hconcerns).resolve_left hawaited
  by_cases happ : call.app? = some appId
  · -- The call itself is the last one for the application.
    have hconcerns := Call.concerns_of_app? happ
    have hroot : call.root? keys appId = root := by simpa [DirectoryRun.succeed, happ] using hdone
    exact ⟨(hcurrent hconcerns).symm.trans hroot, fun _ => (concerned appId hconcerns).trans hroot⟩
  have hbefore : ¬ Awaited run.waiting appId := fun hwaits =>
    (awaited_of_eraseIdx hcall hwaits).elim happ hawaited
  have hlast : run.lastDone appId = some root := by
    simpa [DirectoryRun.succeed, happ] using hdone
  obtain ⟨hstored, hmanifest⟩ := h hfailed appId hbefore root hlast
  refine ⟨hstored, fun hactive => ?_⟩
  by_cases hconcerns : call.Concerns appId
  · exact (concerned appId hconcerns).trans ((hcurrent hconcerns).trans hstored)
  -- A synchronization without the application leaves it out of use.
  cases hused : call.active? with
  | none =>
    refine (unconcerned appId hconcerns hused).trans (hmanifest fun active hmem => ?_)
    refine hactive active ?_
    change active ∈ call.active?.or run.lastActive
    rwa [hused]
  | some active =>
    refine absurd ?_ hconcerns
    have hmem := hactive active (by
      change active ∈ call.active?.or run.lastActive
      rw [hused]
      rfl)
    cases call with
    | sync active' snapshot now =>
      cases hused
      exact hmem
    | set appId' rootDht now => cases hused
    | clear appId' now => cases hused

theorem RootsSettled.step
    (h : RootsSettled run) (hvalid : RunValid keys run) (guard : RootsCurrent keys run event)
    (hstep : Stepped keys run event run') : RootsSettled run' := by
  cases hstep with
  | started hbegins =>
    rename_i call roots
    intro hfailed appId hawaited root hdone
    have hother : call.app? ≠ some appId := fun happ =>
      hawaited ⟨call, List.mem_append_right _ List.mem_cons_self, happ⟩
    have hbefore : ¬ Awaited run.waiting appId := fun ⟨other, hmem, happ⟩ =>
      hawaited ⟨other, List.mem_append_left _ hmem, happ⟩
    obtain ⟨hstored, hmanifest⟩ := h hfailed appId hbefore root hdone
    exact ⟨(hbegins.lookup call rfl appId).trans ((if_neg hother).trans hstored), hmanifest⟩
  | refused hbegins => exact fun hfailed => by cases hfailed
  | broken hcall hnext hbroken => exact fun hfailed => by cases hfailed
  | dropped => exact fun hfailed => by cases hfailed
  | settled hcall hsettled =>
    exact rootsSettled_succeed keys h hcall (guard _ hcall) rfl
      (fun appId concerned => root_of_settled keys hsettled concerned) fun _ _ _ => rfl
  | complete hcall hchanges hnext hfits =>
    rename_i i writes call next
    refine rootsSettled_succeed keys h hcall (guard _ hcall) rfl
      (fun appId concerned => root_of_complete keys hnext hvalid.manifest concerned) ?_
    intro appId hunconcerned hnone
    refine (hnext.roots hvalid.manifest.distinct appId).trans ?_
    cases call with
    | sync active snapshot now => cases hnone
    | set appId' rootDht now => exact if_neg hunconcerned
    | clear appId' now => exact if_neg hunconcerned

/-- In runs in which every call comes with current roots, the last set or clear of an application
in use stands once all calls have returned. -/
theorem last_call_stands {run : DirectoryRun Key}
    (reached : ((directorySystem keys).restrict (RootsCurrent keys)).Reachable run) :
    LastCallStands keys run := by
  have hvalid := (runValid_invariant keys).holds reached.of_restrict
  have hsettled : RootsSettled run := by
    refine (runValid_invariant keys).holds_within ?_ ?_ reached
    · rintro run ⟨saved, found, directoryDht, now, -, rfl⟩ - appId - root hdone
      cases hdone
    · intro run event run' hvalid hsettled hguard hstep
      exact hsettled.step keys hvalid hguard (stepped_of_next keys hstep)
  intro hfailed hwaiting appId hactive root hdone
  have hwhole : run.halfDone = false := by
    by_contra hhalf
    rw [hvalid.failed (by simpa using hhalf)] at hfailed
    cases hfailed
  have hnone : ¬ Awaited run.waiting appId := by
    rintro ⟨call, hcall, -⟩
    rw [hwaiting] at hcall
    cases hcall
  exact ⟨_, (hvalid.agreed hwhole).manifest, (hsettled hfailed appId hnone root hdone).2 hactive⟩

/-- While no publication has broken off, what stands is what the memory has. -/
theorem LastCallStands.rootOf (h : LastCallStands keys run)
    (hvalid : RunValid keys run) (whole : run.halfDone = false) (failed : run.failed = false)
    (waiting : run.waiting = []) (appId : String)
    (active : ∀ active ∈ run.lastActive, appId ∈ active) (root : Option String)
    (done : run.lastDone appId = some root) : run.manager.manifest.rootOf appId = root := by
  obtain ⟨manifest, hmanifest, hroot⟩ := h failed waiting appId active root done
  have hagreed := (hvalid.agreed whole).manifest
  rw [hmanifest] at hagreed
  rw [← Except.ok.inj hagreed]
  exact hroot

/-! ## Conditions that can be tested -/

instance (waiting : List (Call Key)) (appId : String) : Decidable (Awaited waiting appId) :=
  inferInstanceAs (Decidable (∃ call ∈ waiting, call.app? = some appId))

def Call.decidableConcerned (call : Call Key) (p : String → Prop) [DecidablePred p] :
    Decidable (∀ appId, call.Concerns appId → p appId) :=
  match call with
  | .sync active _ _ => inferInstanceAs (Decidable (∀ appId, appId ∈ active → p appId))
  | .set appId _ _ => decidable_of_iff (p appId) ⟨fun h _ hsame => hsame ▸ h, fun h => h appId rfl⟩
  | .clear appId _ => decidable_of_iff (p appId) ⟨fun h _ hsame => hsame ▸ h, fun h => h appId rfl⟩

instance decidableNoShortcut (run : DirectoryRun Key) :
    ∀ event, Decidable (NoShortcut keys run event)
  | .start .. => isTrue trivial
  | .abandon _ => isTrue trivial
  | .finish i _ => inferInstanceAs (Decidable (∀ call ∈ run.waiting[i]?,
      run.halfDone = true → call.Changes keys run.manager.manifest))

instance decidableRootsCurrent (run : DirectoryRun Key) :
    ∀ event, Decidable (RootsCurrent keys run event)
  | .start .. => isTrue trivial
  | .abandon _ => isTrue trivial
  | .finish i _ =>
    have (call : Call Key) := call.decidableConcerned fun appId =>
      Awaited (run.waiting.eraseIdx i) appId ∨
        call.root? keys appId = run.manager.roots.lookup appId
    inferInstanceAs (Decidable (∀ call ∈ run.waiting[i]?, ∀ appId, call.Concerns appId →
      Awaited (run.waiting.eraseIdx i) appId ∨
        call.root? keys appId = run.manager.roots.lookup appId))

/-- Where a list of events leads, if every event meets the condition. -/
def DirectoryRun.after (guard : DirectoryRun Key → Event Key → Prop)
    [∀ run event, Decidable (guard run event)] (run : DirectoryRun Key)
    (events : List (Event Key)) : Option (DirectoryRun Key) :=
  LabelledSystem.runWithin (DirectoryRun.next keys) guard run events

theorem reachable_after {guard : DirectoryRun Key → Event Key → Prop}
    [∀ run event, Decidable (guard run event)]
    {events : List (Event Key)} (hinit : (directorySystem keys).initial run)
    (h : run.after keys guard events = some run') :
    ((directorySystem keys).restrict guard).Reachable run' := by
  have hstep : ∀ s event t, guard s event → DirectoryRun.next keys s event = some t →
      ((directorySystem keys).restrict guard).step s event t :=
    fun _ _ _ hguard hnext => ⟨hguard, hnext⟩
  exact LabelledSystem.Reachable.of_runWithin hstep (.start hinit) h

end Runs

/-! ## Samples -/

namespace Sample

inductive Key
  | directory
  | first
  | second
  deriving DecidableEq

def Key.text : Key → String
  | .directory => "VLD0:Ql5L4_BYpaHtBECl5khtcSIW-lAnnC5vV5PIZCl7vAs"
  | .first => "VLD0:9C9jBokYTHBBBaq7aev39a9ujPVCCzGLE0-Tx_N7FyQ"
  | .second => "VLD0:AAAAAAAAAAAAAAAAAAAAAAAAAAAAAAAAAAAAAAAAAAA"

def keys : RecordKeys Key where
  text := Key.text
  parse text := [Key.directory, .first, .second].find? fun key => key.text = text
  parse_text key := by cases key <;> decide
  text_short key := by cases key <;> decide

def app : String := "veilknit.notes.v1"

def fine : Writes := ⟨.stored, .stored, 5⟩

def loaded : DirectoryRun Key := { manager := loadOrCreate keys none none .directory 1 }

theorem loaded_initial : (directorySystem keys).initial loaded := by
  refine ⟨none, none, .directory, 1, ?_, rfl⟩
  intro appId root h
  cases h

def anyStep : DirectoryRun Key → Event Key → Prop := fun _ _ => True

instance : ∀ run event, Decidable (anyStep run event) := fun _ _ => isTrue trivial

/-- The pointer to a root that is set is not written. -/
def brokenOff : List (Event Key) :=
  [.start (.set app .first) 2 none, .finish 0 ⟨.stored, .failed "TryAgain" false, 5⟩]

/-- The root is to be cleared. -/
def beforeShortcut : DirectoryRun Key :=
  (loaded.after keys anyStep <| brokenOff ++ [.start (.clear app) 3 none]).get (by decide +kernel)

def shortcut : DirectoryRun Key :=
  (beforeShortcut.next keys (.finish 0 fine)).get (by decide +kernel)

theorem shortcut_step : (directorySystem keys).step beforeShortcut (.finish 0 fine) shortcut :=
  (Option.some_get _).symm

theorem beforeShortcut_reachable : (directorySystem keys).Reachable beforeShortcut :=
  (reachable_after keys loaded_initial (Option.some_get _).symm).of_restrict

/-- The root is set again. -/
def retried : DirectoryRun Key :=
  (loaded.after keys (NoShortcut keys) <| brokenOff ++
    [.start (.set app .first) 3 none, .finish 0 fine]).get (by decide +kernel)

/-- The clear succeeds, and the network still has the root. -/
theorem shortcut_disagrees : (directorySystem keys).Reachable shortcut ∧
    shortcut.returned.isSome ∧ ¬ OkReturns keys shortcut := by
  have reached : (directorySystem keys).Reachable shortcut :=
    .next _ beforeShortcut_reachable shortcut_step
  have hvalid := (runValid_invariant keys).holds reached
  have hreturned : shortcut.returned.isSome := by decide +kernel
  refine ⟨reached, hreturned, fun hok => ?_⟩
  obtain ⟨call, hcall⟩ := Option.isSome_iff_exists.mp hreturned
  have hwhole := (hvalid.agreed_iff keys).mp (hok call hcall).1
  have hhalf : shortcut.halfDone = true := by decide +kernel
  rw [hhalf] at hwhole
  cases hwhole

theorem directory_agrees_on_success_retried : OkReturns keys retried ∧ retried.returned.isSome ∧
      (OkReturns keys shortcut ↔ NoShortcut keys beforeShortcut (.finish 0 fine)) :=
  ⟨(directory_agrees_on_success keys).1 retried
    (reachable_after keys loaded_initial (Option.some_get _).symm), by decide +kernel,
    (directory_agrees_on_success keys).2 beforeShortcut _ shortcut beforeShortcut_reachable
      shortcut_step (by decide +kernel)⟩

/-- A root is set while a synchronization holds an older snapshot. -/
def overtaken : DirectoryRun Key :=
  (loaded.after keys anyStep [.start (.sync [app]) 2 none, .start (.set app .first) 3 none,
    .finish 1 fine, .finish 0 fine]).get (by decide +kernel)

/-- A root is set before a synchronization takes its snapshot. -/
def inOrder : DirectoryRun Key :=
  (loaded.after keys (RootsCurrent keys) [.start (.set app .first) 2 none,
    .start (.sync [app]) 3 none, .finish 1 fine, .finish 0 fine]).get (by decide +kernel)

theorem public_roots_resolve_inOrder : Resolves keys inOrder.manager :=
  public_roots_resolve keys (reachable_after keys loaded_initial (Option.some_get _).symm).of_restrict
    (by decide +kernel)

/-- The synchronization drops the root. -/
theorem overtaken_drops : (directorySystem keys).Reachable overtaken ∧
    ¬ LastCallStands keys overtaken := by
  have reached : (directorySystem keys).Reachable overtaken :=
    (reachable_after keys loaded_initial (Option.some_get _).symm).of_restrict
  refine ⟨reached, fun hstands => ?_⟩
  have hroot := hstands.rootOf keys ((runValid_invariant keys).holds reached)
    (by decide +kernel) (by decide +kernel) (List.isEmpty_iff.mp (by decide +kernel)) app
    (by decide +kernel) (some Key.first.text) (by decide +kernel)
  revert hroot
  decide +kernel

theorem last_call_stands_inOrder : ∃ manifest,
    decodeAppDirectoryManifest keys inOrder.manager.directoryValue = .ok manifest ∧
      manifest.rootOf app = some Key.first.text := by
  have reached : ((directorySystem keys).restrict (RootsCurrent keys)).Reachable inOrder :=
    reachable_after keys loaded_initial (Option.some_get _).symm
  have hfailed : inOrder.failed = false := by decide +kernel
  have hwaiting : inOrder.waiting = [] := List.isEmpty_iff.mp (by decide +kernel)
  have hactive : ∀ active ∈ inOrder.lastActive, app ∈ active := by decide +kernel
  have hdone : inOrder.lastDone app = some (some Key.first.text) := by decide +kernel
  exact last_call_stands keys reached hfailed hwaiting app hactive _ hdone

end Sample

end VeilKnit.App
