import VeilKnit.MainDht.Setup

/-!
# Interrupted setups

The setup state decides alone whether a main DHT is there. Between the file with the snapshot and
the file that names the package there is a moment in which a restart finds the package restored
and unnamed, and makes a second one. In every run in which no process ends at such a moment, a
setup that returns has its package named, saved and initialised, and it is the only one saved; and
where none ends after the creation of a package it has not named, it is the only one ever made.

## Main definitions

* `RecordedIn` — a snapshot has one main DHT record, at an index and initialised
* `KeepsRecord`, `KeepsPackage` — no process ends with a main DHT saved, or made, and not named

## Main results

* `finished_setup_is_recorded` — what holds whenever a setup has returned
* `SetupSample.interrupted_setup_duplicates` — the run through the moment in between
-/

namespace VeilKnit.MainDht

open Library

/-- The main DHT records of a snapshot. -/
def mainsOf (snapshot : List StoredDhtRecord) : List StoredDhtRecord :=
  snapshot.filter fun record => record.name = mainDhtName

/-- Every subkey of the main layout has been written in a record. -/
def Network.Initialised (network : Network) (recordKey : Nat) : Prop :=
  ∀ location < mainDhtTotalSubkeys, location ∈ network.records.getD recordKey []

/-- A snapshot has one main DHT record, which is at an index and initialised. -/
structure RecordedIn (network : Network) (index : Nat) (snapshot : List StoredDhtRecord) :
    Prop where
  named : ∃ record, snapshot[index]? = some record ∧ record.name = mainDhtName ∧
    mainDhtTotalSubkeys ≤ record.restore.totalSubkeys ∧ network.Initialised record.recordKey
  only : (mainsOf snapshot).length = 1

/-- What a process finds on the disk: no main DHT, or the one that is named. -/
def Disk.Consistent (disk : Disk) (network : Network) : Prop :=
  match disk.setup.mainDhtPackageIndex with
  | none => mainsOf disk.snapshot = []
  | some index => RecordedIn network index disk.snapshot

/-- What holds in each phase of the setup. -/
def Process.Sound (process : Process) (disk : Disk) (network : Network) : Prop :=
  match process.phase with
  | .loading => exportSnapshot process.packages = disk.snapshot ∧ disk.Consistent network
  | .resetting | .creating =>
    exportSnapshot process.packages = disk.snapshot ∧
      disk.setup.mainDhtPackageIndex = none ∧ mainsOf disk.snapshot = []
  | .reconnecting index setup =>
    exportSnapshot process.packages = disk.snapshot ∧ disk.setup = ⟨setup, some index⟩ ∧
      RecordedIn network index disk.snapshot
  | .initializing index missing =>
    disk.setup.mainDhtPackageIndex = none ∧ mainsOf disk.snapshot = [] ∧
      index = disk.snapshot.length ∧
      ∃ package, exportSnapshot process.packages = disk.snapshot ++ [package] ∧
        package.name = mainDhtName ∧ mainDhtTotalSubkeys ≤ package.restore.totalSubkeys ∧
        package.recordKey < network.records.length ∧
        ∀ location < mainDhtTotalSubkeys, location ∉ missing →
          location ∈ network.records.getD package.recordKey []
  | .exporting index =>
    disk.setup.mainDhtPackageIndex = none ∧
      RecordedIn network index (exportSnapshot process.packages)
  | .recording index =>
    disk.setup.mainDhtPackageIndex = none ∧ exportSnapshot process.packages = disk.snapshot ∧
      RecordedIn network index disk.snapshot
  | .finalizing index =>
    disk.setup = ⟨false, some index⟩ ∧ exportSnapshot process.packages = disk.snapshot ∧
      RecordedIn network index disk.snapshot
  | .done index =>
    disk.setup = ⟨true, some index⟩ ∧ RecordedIn network index disk.snapshot ∧
      RecordedIn network index (exportSnapshot process.packages)
  | .failed _ =>
    ∀ index, disk.setup.mainDhtPackageIndex = some index → RecordedIn network index disk.snapshot ∧
        RecordedIn network index (exportSnapshot process.packages)

def State.Sound (s : State) : Prop :=
  match s.process with
  | none => s.disk.Consistent s.network
  | some process => process.Sound s.disk s.network

/-- No process ends while the saved snapshot has a main DHT that the setup state does not name. -/
def KeepsRecord (s : State) (label : Label) : Prop :=
  label = .stop → s.disk.setup.mainDhtPackageIndex = none → mainsOf s.disk.snapshot = []

/-- Nor does one end that holds a main DHT which the setup state does not name. -/
def KeepsPackage (s : State) (label : Label) : Prop :=
  label = .stop → s.disk.setup.mainDhtPackageIndex = none → mainsOf s.disk.snapshot = [] ∧
      ∀ process, s.process = some process → mainsOf (exportSnapshot process.packages) = []

/-! ## The network only grows -/

section Networks

variable {network network' : Network} {index : Nat} {snapshot : List StoredDhtRecord}

/-- Every subkey that is written in one network is written in the other. -/
def Network.Extends (network' network : Network) : Prop :=
  ∀ recordKey location, location ∈ network.records.getD recordKey [] →
    location ∈ network'.records.getD recordKey []

theorem Network.Extends.initialised (h : network'.Extends network) {recordKey : Nat}
    (hinit : network.Initialised recordKey) : network'.Initialised recordKey :=
  fun location hlt => h recordKey location (hinit location hlt)

theorem RecordedIn.extends (hrecorded : RecordedIn network index snapshot)
    (h : network'.Extends network) : RecordedIn network' index snapshot where
  named := by
    obtain ⟨record, hrecord, hname, hsize, hinit⟩ := hrecorded.named
    exact ⟨record, hrecord, hname, hsize, h.initialised hinit⟩
  only := hrecorded.only

theorem Network.extends_append (network : Network) (mains : List Nat) :
    Network.Extends ⟨network.records ++ [[]], mains⟩ network := by
  intro recordKey location hwritten
  rw [List.getD_eq_getElem?_getD] at hwritten ⊢
  cases hrecord : network.records[recordKey]? with
  | none =>
    rw [hrecord] at hwritten
    exact absurd hwritten List.not_mem_nil
  | some written =>
    rw [hrecord] at hwritten
    rw [List.getElem?_append_left (List.getElem?_eq_some_iff.mp hrecord).1, hrecord]
    exact hwritten

theorem Network.getD_write (network : Network) (recordKey location other : Nat) :
    (network.write recordKey location).records.getD other [] =
      if recordKey = other ∧ other < network.records.length then
        location :: network.records.getD other []
      else network.records.getD other [] := by
  rw [Network.write, List.getD_eq_getElem?_getD, List.getD_eq_getElem?_getD, List.getElem?_modify]
  by_cases hlt : other < network.records.length
  · rw [List.getElem?_eq_getElem hlt]
    by_cases hkey : recordKey = other
    · simp [hkey, hlt]
    · simp [hkey]
  · rw [List.getElem?_eq_none (Nat.not_lt.mp hlt), if_neg fun h => hlt h.2]
    rfl

variable {record : StoredDhtRecord}

theorem mainsOf_append_of_ne (hname : record.name ≠ mainDhtName) :
    mainsOf (snapshot ++ [record]) = mainsOf snapshot := by
  rw [mainsOf, List.filter_append, List.filter_cons_of_neg (by simpa using hname)]
  exact List.append_nil _

theorem mainsOf_append_of_eq (hname : record.name = mainDhtName) :
    mainsOf (snapshot ++ [record]) = mainsOf snapshot ++ [record] := by
  rw [mainsOf, List.filter_append, List.filter_cons_of_pos (by simpa using hname)]
  rfl

/-- A record of another name changes nothing for the main DHT. -/
theorem RecordedIn.append (hrecorded : RecordedIn network index snapshot)
    (hname : record.name ≠ mainDhtName) :
    RecordedIn network index (snapshot ++ [record]) where
  named := by
    obtain ⟨main, hmain, hrest⟩ := hrecorded.named
    refine ⟨main, ?_, hrest⟩
    rw [List.getElem?_append_left (List.getElem?_eq_some_iff.mp hmain).1, hmain]
  only := by
    rw [mainsOf_append_of_ne hname]
    exact hrecorded.only

/-- The first main DHT of a snapshot, once its subkeys are written. -/
theorem RecordedIn.of_new (hmains : mainsOf snapshot = [])
    (hname : record.name = mainDhtName) (hsize : mainDhtTotalSubkeys ≤ record.restore.totalSubkeys)
    (hinit : network.Initialised record.recordKey) :
    RecordedIn network snapshot.length (snapshot ++ [record]) where
  named := ⟨record, List.getElem?_concat_length, hname, hsize, hinit⟩
  only := by
    rw [mainsOf_append_of_eq hname, hmains]
    rfl

end Networks

/-! ## Steps -/

section Steps

variable {disk disk' : Disk} {network network' : Network} {process process' : Process}

section

variable (h : process.Sound disk network)

include h

/-- A process that has named a main DHT has it recorded on the disk and among its packages. -/
theorem Process.Sound.recorded {index : Nat}
    (hindex : disk.setup.mainDhtPackageIndex = some index) :
    RecordedIn network index disk.snapshot ∧
      RecordedIn network index (exportSnapshot process.packages) := by
  have hsame : exportSnapshot process.packages = disk.snapshot →
      RecordedIn network index disk.snapshot → RecordedIn network index disk.snapshot ∧
        RecordedIn network index (exportSnapshot process.packages) :=
    fun hexport hrecorded => ⟨hrecorded, hexport ▸ hrecorded⟩
  rw [Process.Sound] at h
  cases hphase : process.phase <;> rw [hphase] at h <;> dsimp only at h
  case loading =>
    rw [Disk.Consistent, hindex] at h
    exact hsame h.1 h.2
  case reconnecting found setup =>
    obtain ⟨hexport, hsetup, hrecorded⟩ := h
    rw [hsetup] at hindex
    exact hsame hexport (Option.some.inj hindex ▸ hrecorded)
  case finalizing found =>
    obtain ⟨hsetup, hexport, hrecorded⟩ := h
    rw [hsetup] at hindex
    exact hsame hexport (Option.some.inj hindex ▸ hrecorded)
  case done found =>
    obtain ⟨hsetup, hsnapshot, hpackages⟩ := h
    rw [hsetup] at hindex
    exact Option.some.inj hindex ▸ ⟨hsnapshot, hpackages⟩
  case failed => exact h index hindex
  case resetting | creating =>
    rw [h.2.1] at hindex
    cases hindex
  case initializing | exporting | recording =>
    rw [h.1] at hindex
    cases hindex

/-- A setup that fails keeps what is recorded. -/
theorem Process.Sound.fail (error : UserDhtError) : (process.fail error).Sound disk network :=
  fun _ hindex => h.recorded hindex

/-- Each step on the disk keeps the setup sound. -/
theorem advance_sound {ok : Bool} (hstep : advance disk process ok = some (disk', process')) :
    process'.Sound disk' network := by
  have hfail : ∀ error, some (disk, process.fail error) = some (disk', process') →
      process'.Sound disk' network := by
    intro error heq
    cases heq
    exact h.fail error
  rw [Process.Sound] at h
  rw [advance] at hstep
  cases hphase : process.phase <;> rw [hphase] at h hstep <;> dsimp only at h hstep
  case loading =>
    obtain ⟨hexport, hconsistent⟩ := h
    cases ok with
    | false => exact hfail _ hstep
    | true =>
      rw [if_pos rfl] at hstep
      cases hindex : disk.setup.mainDhtPackageIndex with
      | none =>
        rw [hindex] at hstep
        cases hstep
        rw [Disk.Consistent, hindex] at hconsistent
        exact ⟨hexport, hindex, hconsistent⟩
      | some index =>
        -- The package that is named is among those restored, and large enough.
        rw [hindex] at hstep
        rw [Disk.Consistent, hindex] at hconsistent
        obtain ⟨record, hrecord, hname, hsize, hinit⟩ := hconsistent.named
        have hpackage : process.packages[index]? = some record.restore := by
          rw [← importSnapshot_exportSnapshot process.packages, hexport, importSnapshot,
            List.getElem?_map, hrecord]
          rfl
        dsimp only at hstep
        rw [hpackage] at hstep
        dsimp only at hstep
        rw [if_neg (Nat.not_lt.mpr hsize)] at hstep
        cases hstep
        refine ⟨hexport, ?_, hconsistent⟩
        rw [← hindex]
  case reconnecting index setup =>
    obtain ⟨hexport, hsetup, hrecorded⟩ := h
    split at hstep
    case isTrue hset =>
      cases hstep
      exact ⟨hset ▸ hsetup, hrecorded, hexport.symm ▸ hrecorded⟩
    case isFalse =>
      split at hstep
      · cases hstep
        exact ⟨rfl, hrecorded, hexport.symm ▸ hrecorded⟩
      · exact hfail _ hstep
  case resetting =>
    split at hstep
    · cases hstep
      exact ⟨h.1, rfl, h.2.2⟩
    · exact hfail _ hstep
  case exporting index =>
    split at hstep
    · cases hstep
      exact ⟨h.1, rfl, h.2⟩
    · exact hfail _ hstep
  case recording index =>
    split at hstep
    · cases hstep
      exact ⟨rfl, h.2.1, h.2.2⟩
    · exact hfail _ hstep
  case finalizing index =>
    obtain ⟨hsetup, hexport, hrecorded⟩ := h
    split at hstep
    · cases hstep
      exact ⟨rfl, hrecorded, hexport.symm ▸ hrecorded⟩
    · exact hfail _ hstep
  case creating | initializing | done | failed => cases hstep

/-- The creation of the main DHT begins its initialisation, with every subkey missing. -/
theorem createMain_sound {owners : Option (List Nat × List Nat)}
    (hstep : createMain network process owners = some (network', process')) :
    process'.Sound disk network' := by
  have hsound := h
  rw [Process.Sound] at h
  unfold createMain at hstep
  cases hphase : process.phase <;> rw [hphase] at h hstep <;> dsimp only at h hstep
  case creating =>
    obtain ⟨hexport, hindex, hmains⟩ := h
    cases owners with
    | none =>
      cases hstep
      exact hsound.fail .dht
    | some owners =>
      cases hstep
      refine ⟨hindex, hmains, ?_, (newMain network owners).store, ?_, rfl, ?_, ?_, ?_⟩
      · rw [← hexport, exportSnapshot, List.length_map]
      · rw [← hexport, exportSnapshot, exportSnapshot, List.map_append]
        rfl
      · exact Nat.le_of_eq rfl
      · rw [List.length_append]
        exact Nat.lt_succ_self _
      · exact fun location hlt hmissing => absurd (List.mem_range.mpr hlt) hmissing
  all_goals cases hstep

/-- The last write of the initialisation leaves the one main DHT initialised. -/
theorem writeSubkey_sound {location : Nat} {ok : Bool}
    (hstep : writeSubkey network process location ok = some (network', process')) :
    process'.Sound disk network' := by
  have hsound := h
  rw [Process.Sound] at h
  unfold writeSubkey at hstep
  cases hphase : process.phase <;> rw [hphase] at h hstep <;> dsimp only at h hstep
  case initializing index missing =>
    obtain ⟨hindex, hmains, rfl, record, hexport, hname, hsize, hlive, hwritten⟩ := h
    obtain ⟨hmissing, hstep⟩ := Option.ite_none_right_eq_some.mp hstep
    cases ok with
    | false =>
      cases hstep
      exact hsound.fail .dht
    | true =>
      obtain ⟨package, hpackage, heq⟩ := Option.map_eq_some_iff.mp hstep
      cases heq
      -- The package that is written is the one at the end of the list.
      have hstore : package.store = record := by
        have hget := congrArg (·[disk.snapshot.length]?) hexport
        rw [exportSnapshot, List.getElem?_map, hpackage, List.getElem?_concat_length] at hget
        exact Option.some.inj hget
      have hkey : package.recordKey = record.recordKey := congrArg (·.recordKey) hstore
      have hmore : ∀ other < mainDhtTotalSubkeys, other ∉ missing.erase location →
          other ∈ (network.write package.recordKey location).records.getD record.recordKey [] := by
        intro other hlt hgone
        rw [Network.getD_write, if_pos ⟨hkey, hlive⟩]
        by_cases hother : other = location
        · exact hother ▸ List.mem_cons_self
        · refine List.mem_cons_of_mem _ (hwritten other hlt fun hmem => hgone ?_)
          exact (List.mem_erase_of_ne hother).mpr hmem
      by_cases hlast : missing.erase location = []
      · rw [if_pos hlast]
        refine ⟨hindex, ?_⟩
        rw [hexport]
        refine RecordedIn.of_new hmains hname hsize fun other hlt => hmore other hlt ?_
        rw [hlast]
        exact List.not_mem_nil
      · rw [if_neg hlast]
        refine ⟨hindex, hmains, rfl, record, hexport, hname, hsize, ?_, hmore⟩
        rw [Network.write, List.length_modify]
        exact hlive
  all_goals cases hstep

end

/-- What a finished setup has recorded stays, as packages of other names join. -/
theorem sound_of_returned (hreturned : process.HasReturned)
    (h : process.Sound disk network) {packages : List RecordKeyPackage}
    (hpackages : ∀ index, RecordedIn network index (exportSnapshot process.packages) →
      RecordedIn network' index (exportSnapshot packages))
    (hsnapshot : ∀ index, RecordedIn network index disk.snapshot →
      RecordedIn network index (exportSnapshot process.packages) →
        RecordedIn network' index disk'.snapshot)
    (hsetup : disk'.setup = disk.setup) :
    Process.Sound { process with packages } disk' network' := by
  rw [Process.HasReturned] at hreturned
  rw [Process.Sound] at h ⊢
  cases hphase : process.phase <;> rw [hphase] at h hreturned <;> dsimp only at h hreturned ⊢
  case done index =>
    exact ⟨hsetup.trans h.1, hsnapshot index h.2.1 h.2.2, hpackages index h.2.2⟩
  case failed =>
    intro index hindex
    rw [hsetup] at hindex
    obtain ⟨hold, hown⟩ := h index hindex
    exact ⟨hsnapshot index hold hown, hpackages index hown⟩

end Steps

variable {s s' : State}

/-- Every step keeps the account sound, unless a process ends with a saved main DHT unnamed. -/
theorem next_sound {label : Label} (h : s.Sound) (hguard : KeepsRecord s label)
    (hstep : next s label = some s') : s'.Sound := by
  rw [State.Sound] at h
  cases hprocess : s.process with
  | none =>
    rw [hprocess] at h
    cases label with
    | start =>
      rw [next, hprocess] at hstep
      cases hstep
      exact ⟨exportSnapshot_importSnapshot _, h⟩
    | advance | created | wrote | createOther | saveSnapshot | stop =>
      rw [next, hprocess] at hstep
      cases hstep
  | some process =>
    rw [hprocess] at h
    cases label with
    | start =>
      rw [next, hprocess] at hstep
      cases hstep
    | advance ok =>
      simp only [next, hprocess, Option.bind_eq_bind, Option.bind_some] at hstep
      obtain ⟨⟨disk', process'⟩, hadvance, heq⟩ := Option.bind_eq_some_iff.mp hstep
      cases heq
      exact advance_sound h hadvance
    | created owners =>
      simp only [next, hprocess, Option.bind_eq_bind, Option.bind_some] at hstep
      obtain ⟨⟨network', process'⟩, hcreate, heq⟩ := Option.bind_eq_some_iff.mp hstep
      cases heq
      exact createMain_sound h hcreate
    | wrote location ok =>
      simp only [next, hprocess, Option.bind_eq_bind, Option.bind_some] at hstep
      obtain ⟨⟨network', process'⟩, hwrite, heq⟩ := Option.bind_eq_some_iff.mp hstep
      cases heq
      exact writeSubkey_sound h hwrite
    | createOther name groups owners =>
      simp only [next, hprocess, Option.bind_eq_bind, Option.bind_some] at hstep
      obtain ⟨hother, hstep⟩ := Option.ite_none_right_eq_some.mp hstep
      cases hstep
      have hextends := s.network.extends_append s.network.mains
      refine sound_of_returned hother.1 h (fun index hown => ?_)
        (fun index hold _ => hold.extends hextends) rfl
      rw [exportSnapshot, List.map_append]
      exact (hown.extends hextends).append hother.2
    | saveSnapshot =>
      simp only [next, hprocess, Option.bind_eq_bind, Option.bind_some] at hstep
      obtain ⟨hreturned, hstep⟩ := Option.ite_none_right_eq_some.mp hstep
      cases hstep
      exact sound_of_returned hreturned h (fun _ hown => hown) (fun _ _ hown => hown) rfl
    | stop =>
      rw [next, hprocess] at hstep
      cases hstep
      rw [State.Sound, Disk.Consistent]
      cases hindex : s.disk.setup.mainDhtPackageIndex with
      | none => exact hguard rfl hindex
      | some index => exact (h.recorded hindex).1

theorem fresh_sound : fresh.Sound := rfl

/-! ## The main DHTs that were made -/

/-- The main DHT records that the process holds, or that the next one will. -/
def State.mainsHeld (s : State) : List StoredDhtRecord :=
  match s.process with
  | none => mainsOf s.disk.snapshot
  | some process => mainsOf (exportSnapshot process.packages)

theorem State.mainsHeld_none (h : s.process = none) : s.mainsHeld = mainsOf s.disk.snapshot := by
  rw [mainsHeld, h]

variable {process process' : Process}

theorem State.mainsHeld_some (h : s.process = some process) :
    s.mainsHeld = mainsOf (exportSnapshot process.packages) := by
  rw [mainsHeld, h]

theorem advance_packages {disk disk' : Disk} {ok : Bool}
    (hstep : advance disk process ok = some (disk', process')) :
    process'.packages = process.packages := by
  unfold advance at hstep
  repeat' split at hstep
  all_goals
    cases hstep
    try rfl

variable {network network' : Network}

theorem createMain_mains {owners : Option (List Nat × List Nat)}
    (hstep : createMain network process owners = some (network', process'))
    (hcount : network.mains.length = (mainsOf (exportSnapshot process.packages)).length) :
    network'.mains.length = (mainsOf (exportSnapshot process'.packages)).length := by
  unfold createMain at hstep
  split at hstep
  · split at hstep <;> obtain ⟨rfl, rfl⟩ := Prod.mk.inj (Option.some.inj hstep)
    · have hnew : (newMain network ‹_›).store.name = mainDhtName := rfl
      rw [exportSnapshot, List.map_append, List.length_append, hcount]
      exact (congrArg List.length (mainsOf_append_of_eq hnew)).trans List.length_append |>.symm
    · exact hcount
  · cases hstep

theorem writeSubkey_mains {location : Nat} {ok : Bool}
    (hstep : writeSubkey network process location ok = some (network', process')) :
    network'.mains = network.mains ∧ process'.packages = process.packages := by
  unfold writeSubkey at hstep
  split at hstep
  case h_2 => cases hstep
  case h_1 index missing _ =>
  split at hstep
  case isFalse => cases hstep
  case isTrue =>
  cases ok with
  | true =>
    obtain ⟨package, -, heq⟩ := Option.map_eq_some_iff.mp hstep
    cases heq
    exact ⟨rfl, rfl⟩
  | false =>
    cases hstep
    exact ⟨rfl, rfl⟩

/-- Every main DHT that was made is still held, unless a process ends with one unnamed. -/
theorem next_mains {label : Label} (h : s.Sound) (hguard : KeepsPackage s label)
    (hcount : s.network.mains.length = s.mainsHeld.length) (hstep : next s label = some s') :
    s'.network.mains.length = s'.mainsHeld.length := by
  rw [State.Sound] at h
  cases hprocess : s.process with
  | none =>
    rw [State.mainsHeld_none hprocess] at hcount
    cases label with
    | start =>
      simp only [next, hprocess, Option.some.injEq] at hstep
      subst hstep
      rw [State.mainsHeld_some rfl, exportSnapshot_importSnapshot]
      exact hcount
    | advance | created | wrote | createOther | saveSnapshot | stop =>
      simp [next, hprocess] at hstep
  | some process =>
    rw [hprocess] at h
    rw [State.mainsHeld_some hprocess] at hcount
    cases label with
    | start => simp [next, hprocess] at hstep
    | advance ok =>
      simp only [next, hprocess, Option.bind_eq_bind, Option.bind_some] at hstep
      obtain ⟨⟨disk', process'⟩, hadvance, heq⟩ := Option.bind_eq_some_iff.mp hstep
      cases heq
      rw [State.mainsHeld_some rfl, advance_packages hadvance]
      exact hcount
    | created owners =>
      simp only [next, hprocess, Option.bind_eq_bind, Option.bind_some] at hstep
      obtain ⟨⟨network', process'⟩, hcreate, heq⟩ := Option.bind_eq_some_iff.mp hstep
      cases heq
      exact createMain_mains hcreate hcount
    | wrote location ok =>
      simp only [next, hprocess, Option.bind_eq_bind, Option.bind_some] at hstep
      obtain ⟨⟨network', process'⟩, hwrite, heq⟩ := Option.bind_eq_some_iff.mp hstep
      cases heq
      obtain ⟨hmains, hpackages⟩ := writeSubkey_mains hwrite
      rw [State.mainsHeld_some rfl, hpackages, hmains]
      exact hcount
    | createOther name groups owners =>
      simp only [next, hprocess, Option.bind_eq_bind, Option.bind_some] at hstep
      obtain ⟨hother, hstep⟩ := Option.ite_none_right_eq_some.mp hstep
      cases hstep
      have hname : (newPackage s.network name groups owners).store.name ≠ mainDhtName := hother.2
      rw [State.mainsHeld_some rfl, exportSnapshot, List.map_append]
      exact hcount.trans (congrArg List.length (mainsOf_append_of_ne hname)).symm
    | saveSnapshot =>
      simp only [next, hprocess, Option.bind_eq_bind, Option.bind_some] at hstep
      split at hstep
      case isFalse => cases hstep
      case isTrue =>
      cases hstep
      exact hcount.trans (congrArg List.length (State.mainsHeld_some rfl).symm)
    | stop =>
      simp only [next, hprocess, Option.bind_eq_bind, Option.bind_some, Option.some.injEq] at hstep
      subst hstep
      rw [State.mainsHeld_none rfl]
      refine hcount.trans ?_
      cases hindex : s.disk.setup.mainDhtPackageIndex with
      | none =>
        obtain ⟨hsnapshot, hpackages⟩ := hguard rfl hindex
        rw [hsnapshot, hpackages process hprocess]
      | some index =>
        obtain ⟨hsnapshot, hpackages⟩ := h.recorded hindex
        exact hpackages.only.trans hsnapshot.only.symm

/-! ## Finished setups -/

/-- What the setup promises when it returns a package: the setup state names the package, which
is saved and initialised and is the only main DHT of the snapshot. -/
structure SetUp (s : State) (index : Nat) : Prop where
  setup : s.disk.setup = ⟨true, some index⟩
  record : ∃ record, s.disk.snapshot[index]? = some record ∧ record.name = mainDhtName ∧
    s.network.Initialised record.recordKey
  only : (mainsOf s.disk.snapshot).length = 1

theorem SetUp.of_sound (h : s.Sound)
    (hprocess : s.process = some process) {index : Nat} (hdone : process.phase = .done index) :
    SetUp s index ∧ (mainsOf (exportSnapshot process.packages)).length = 1 := by
  rw [State.Sound, hprocess] at h
  dsimp only at h
  rw [Process.Sound, hdone] at h
  obtain ⟨hsetup, hsnapshot, hpackages⟩ := h
  obtain ⟨record, hrecord, hname, -, hinit⟩ := hsnapshot.named
  exact ⟨⟨hsetup, ⟨record, hrecord, hname, hinit⟩, hsnapshot.only⟩, hpackages.only⟩

/-- In every run in which no process ends with a saved main DHT unnamed, a setup that has returned
a package has it named, saved, initialised and the only main DHT saved. Where moreover none ends
that holds one unnamed, it is the only main DHT ever made. -/
theorem finished_setup_is_recorded (s : State) :
    ((system.restrict KeepsRecord).Reachable s → ∀ process index,
      s.process = some process → process.phase = .done index → SetUp s index) ∧
    ((system.restrict KeepsPackage).Reachable s → ∀ process index,
      s.process = some process → process.phase = .done index →
        SetUp s index ∧ s.network.mains.length = 1) := by
  have hsound : (system.restrict KeepsRecord).Invariant State.Sound :=
    ⟨fun s hs => hs ▸ fresh_sound, fun _ _ _ h hstep => next_sound h hstep.1 hstep.2⟩
  have hcounted : (system.restrict KeepsPackage).Invariant fun s =>
      s.Sound ∧ s.network.mains.length = s.mainsHeld.length := by
    refine ⟨fun s hs => hs ▸ ⟨fresh_sound, rfl⟩, ?_⟩
    intro s label t h hstep
    refine ⟨next_sound h.1 ?_ hstep.2, next_mains h.1 hstep.1 h.2 hstep.2⟩
    exact fun hstop hindex => (hstep.1 hstop hindex).1
  refine ⟨fun hreach process index hprocess hdone => ?_,
    fun hreach process index hprocess hdone => ?_⟩
  · exact (SetUp.of_sound (hsound.holds hreach) hprocess hdone).1
  · obtain ⟨h, hcount⟩ := hcounted.holds hreach
    obtain ⟨hsetup, honly⟩ := SetUp.of_sound h hprocess hdone
    rw [State.mainsHeld_some hprocess] at hcount
    exact ⟨hsetup, hcount.trans honly⟩

/-! ## A sample -/

namespace SetupSample

/-- A process that starts and sets up the main DHT until the snapshot is saved. -/
def untilSaved : List Label :=
  [.start, .advance true, .advance true, .created (some ([1, 2], [1, 2]))] ++
    (List.range mainDhtTotalSubkeys).map (fun location => .wrote location true) ++ [.advance true]

/-- The setup ends after the package has been named, and the next process takes it up. -/
def resumed : List Label :=
  untilSaved ++ [.advance true, .stop, .start, .advance true, .advance true]

/-- The process ends before the package is named, and the next one starts over. -/
def interrupted : List Label := untilSaved ++ [.stop] ++ untilSaved ++ [.advance true, .advance true]

instance (s : State) (label : Label) : Decidable (KeepsRecord s label) :=
  inferInstanceAs (Decidable (label = .stop → s.disk.setup.mainDhtPackageIndex = none →
    mainsOf s.disk.snapshot = []))

/-- Where a run of the setup ends: the package that was returned, and the main DHTs saved. -/
def outcome (s : State) : Option (Phase × Nat) :=
  s.process.map fun process => (process.phase, (mainsOf s.disk.snapshot).length)

theorem run_resumed : ((LabelledSystem.runWithin next KeepsRecord fresh resumed).bind outcome) =
      some (.done 0, 1) := by
  decide +kernel

theorem run_interrupted :
    ((LabelledSystem.run next fresh interrupted).bind outcome) = some (.done 1, 2) := by
  decide +kernel

theorem finished_setup_is_recorded_resumed :
    ∃ s : State, s.process.map Process.phase = some (.done 0) ∧ SetUp s 0 := by
  obtain ⟨s, hrun, houtcome⟩ := Option.bind_eq_some_iff.mp run_resumed
  obtain ⟨process, hprocess, heq⟩ := Option.map_eq_some_iff.mp houtcome
  have hreach : (system.restrict KeepsRecord).Reachable s :=
    LabelledSystem.Reachable.runWithin (.start rfl) hrun
  have hphase : process.phase = .done 0 := congrArg Prod.fst heq
  refine ⟨s, by rw [hprocess, Option.map_some, hphase], ?_⟩
  exact (finished_setup_is_recorded s).1 hreach process 0 hprocess hphase

/-- A process that ends between the two files leaves the restart with a second main DHT. -/
theorem interrupted_setup_duplicates : ¬ ∀ s, system.Reachable s → ∀ process index,
      s.process = some process → process.phase = .done index →
        (mainsOf s.disk.snapshot).length = 1 := by
  intro hall
  obtain ⟨s, hrun, houtcome⟩ := Option.bind_eq_some_iff.mp run_interrupted
  obtain ⟨process, hprocess, heq⟩ := Option.map_eq_some_iff.mp houtcome
  have hreach : system.Reachable s := LabelledSystem.Reachable.run (.start rfl) hrun
  have hone := hall s hreach process 1 hprocess (congrArg Prod.fst heq)
  exact absurd (hone.symm.trans (congrArg Prod.snd heq)) (by decide)

end SetupSample

end VeilKnit.MainDht
