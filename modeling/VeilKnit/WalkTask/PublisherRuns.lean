import VeilKnit.Library.LabelledSystem
import VeilKnit.WalkTask.Reads

/-!
# Runs of the publisher

A run starts from a record that has never been written. The publisher is loaded, at the start and
after every restart, from what it can read of the record. It then publishes one table after the
other. Each write of a publication may fail, with the value stored all the same, and each read may
fail. A restart may come at any time.

Besides the record and the publisher a run keeps what the record has ever held: the values, the
pages that have been hashed, and the manifests. It also keeps the table of the last publication
to succeed.

Whatever fails, the pages of the manifests that the publisher knows stay as they were written, and
a publication of any table can be planned.
-/

namespace VeilKnit.WalkTask

open Library Types

/-- A publication between its plan and its end. -/
structure Attempt (Key : Type) where
  entries : List (RecordTableEntry Key)
  plan : PublishPlan
  /-- The pages that are still to be written. -/
  todo : List (RecordTablePageDescriptor × Bytes)
  /-- The subkeys at which a page has been stored. -/
  landed : List Subkey := []
  /-- A page could not be written. -/
  failed : Bool := false
  /-- The pages have been read back. -/
  verified : Bool := false

structure TableRun (Key : Type) where
  dht : Subkey → Bytes := fun _ => []
  publisher : RecordTablePublisher := ⟨recordTableManifestSlotB, none, none⟩
  attempt : Option (Attempt Key) := none
  held : List (Subkey × Bytes) := []
  hashed : List (RecordTablePage Key) := []
  manifests : List RecordTableManifest := []
  lastOk : Option (List (RecordTableEntry Key)) := none
  /-- The number of manifests that have replaced the current one. -/
  completed : Nat := 0

/-- What happens. A read is given by the error with which it fails, if it does. -/
inductive TableEvent (Key : Type)
  | load (slots : Subkey → Option String) (pages : Subkey → Subkey → Option String)
  | start (entries : List (RecordTableEntry Key))
  | writePage (i : Nat) (outcome : WriteOutcome)
  | readBack (failing : Subkey → Option String)
  | writeManifest (now : UInt64) (outcome : WriteOutcome) (failing : Option String)

/-- The reads of a record, some of which fail. -/
def answered (dht : Subkey → Bytes) (failing : Subkey → Option String) :
    Subkey → Except String Bytes := fun subkey =>
  match failing subkey with
  | none => .ok (dht subkey)
  | some error => .error error

namespace TableRun

variable {Key : Type} (fmt : TableFormat Key)

/-- A value lands in the record. -/
def put (run : TableRun Key) (subkey : Subkey) (bytes : Bytes) : TableRun Key :=
  { run with
    dht := Function.update run.dht subkey bytes
    held := (subkey, bytes) :: run.held }

def load (run : TableRun Key) (slots : Subkey → Option String)
    (pages : Subkey → Subkey → Option String) : TableRun Key :=
  { run with
    publisher := loadPublisher fmt (answered run.dht slots) fun slot =>
      answered run.dht (pages slot)
    attempt := none }

/-- `publish`, up to its first write. -/
def begin (run : TableRun Key) (entries : List (RecordTableEntry Key)) : TableRun Key :=
  match planPublish fmt run.publisher entries with
  | .error _ => run
  | .ok plan =>
    let hashed := run.hashed ++ plannedPages fmt run.publisher entries
    if isUnchanged run.publisher plan then
      { run with hashed := hashed, lastOk := some entries }
    else
      { run with
        hashed := hashed
        attempt := some { entries := entries, plan := plan, todo := plan.writes } }

/-- One of the pages that are still to be written. -/
def writePage (run : TableRun Key) (attempt : Attempt Key) (i : Nat) (subkey : Subkey)
    (bytes : Bytes) (outcome : WriteOutcome) : TableRun Key :=
  let attempt' :=
    { attempt with
      todo := attempt.todo.eraseIdx i
      landed := if outcome.landed then subkey :: attempt.landed else attempt.landed
      failed := attempt.failed || decide (outcome ≠ .stored) }
  { (if outcome.landed then run.put subkey bytes else run) with attempt := some attempt' }

/-- After the pages have been written. -/
def readBack (run : TableRun Key) (attempt : Attempt Key)
    (failing : Subkey → Option String) : TableRun Key :=
  if ! attempt.failed &&
      (readBackPages fmt (answered run.dht failing) attempt.plan.writes).isOk then
    { run with attempt := some { attempt with verified := true } }
  else { run with attempt := none }

/-- A manifest lands in its slot. -/
def putManifest (run : TableRun Key) (manifest : RecordTableManifest) : TableRun Key :=
  { run.put (targetSlot run.publisher) manifest.serialize with
    manifests := manifest :: run.manifests
    attempt := none }

/-- The end of `publish`. -/
def advance (run : TableRun Key) (target : Subkey) (manifest : RecordTableManifest)
    (entries : List (RecordTableEntry Key)) : TableRun Key :=
  { run with
    publisher :=
      { activeManifestSlot := target
        currentManifest := some manifest
        previousManifest := run.publisher.currentManifest }
    lastOk := some entries
    completed := run.completed + 1 }

def writeManifest (run : TableRun Key) (attempt : Attempt Key) (now : UInt64)
    (outcome : WriteOutcome) (failing : Option String) : TableRun Key :=
  let manifest := buildManifest fmt run.publisher attempt.plan now
  let target := targetSlot run.publisher
  if ! (validateRecordTableManifest fmt manifest).isOk || ! outcome.landed then
    { run with attempt := none }
  else
    let written := run.putManifest manifest
    match outcome, readBackManifest fmt (answered written.dht fun _ => failing) target manifest with
    | .stored, .ok readback => written.advance target readback attempt.entries
    | _, _ => written

def next (run : TableRun Key) : TableEvent Key → Option (TableRun Key)
  | .load slots pages => some (run.load fmt slots pages)
  | .start entries => if run.attempt.isNone then some (run.begin fmt entries) else none
  | .writePage i outcome =>
    run.attempt.bind fun attempt => attempt.todo[i]?.map fun write =>
      run.writePage attempt i write.1.subkey write.2 outcome
  | .readBack failing =>
    run.attempt.bind fun attempt =>
      if attempt.todo.isEmpty && ! attempt.verified then some (run.readBack fmt attempt failing)
      else none
  | .writeManifest now outcome failing =>
    run.attempt.bind fun attempt =>
      if attempt.verified then some (run.writeManifest fmt attempt now outcome failing) else none

end TableRun

section Runs

variable {Key : Type} (fmt : TableFormat Key)

/-- The runs of a publisher over a new record. -/
def tableSystem : LabelledSystem (TableRun Key) (TableEvent Key) :=
  LabelledSystem.ofFunction {} (TableRun.next fmt)

/-! ## Steps -/

/-- What a step does. -/
inductive TableRun.Stepped (run : TableRun Key) : TableEvent Key → TableRun Key → Prop
  | loaded {slots : Subkey → Option String} {pages : Subkey → Subkey → Option String} :
      Stepped run (.load slots pages) (run.load fmt slots pages)
  | refused {entries : List (RecordTableEntry Key)} {e : WalkError} : run.attempt = none →
      planPublish fmt run.publisher entries = .error e → Stepped run (.start entries) run
  | unchanged {entries : List (RecordTableEntry Key)} {plan : PublishPlan} : run.attempt = none →
      planPublish fmt run.publisher entries = .ok plan → isUnchanged run.publisher plan →
      Stepped run (.start entries)
        { run with
          hashed := run.hashed ++ plannedPages fmt run.publisher entries
          lastOk := some entries }
  | begun {entries : List (RecordTableEntry Key)} {plan : PublishPlan} : run.attempt = none →
      planPublish fmt run.publisher entries = .ok plan →
      Stepped run (.start entries)
        { run with
          hashed := run.hashed ++ plannedPages fmt run.publisher entries
          attempt := some { entries := entries, plan := plan, todo := plan.writes } }
  | wrote {i : Nat} {outcome : WriteOutcome} {attempt : Attempt Key}
      {descriptor : RecordTablePageDescriptor} {bytes : Bytes} : run.attempt = some attempt →
      attempt.todo[i]? = some (descriptor, bytes) →
      Stepped run (.writePage i outcome) (run.writePage attempt i descriptor.subkey bytes outcome)
  | verified {failing : Subkey → Option String} {attempt : Attempt Key} :
      run.attempt = some attempt → attempt.todo = [] → attempt.failed = false →
      Stepped run (.readBack failing) { run with attempt := some { attempt with verified := true } }
  | unverified {failing : Subkey → Option String} {attempt : Attempt Key} :
      run.attempt = some attempt →
      attempt.failed ∨ ¬ (readBackPages fmt (answered run.dht failing) attempt.plan.writes).isOk →
      Stepped run (.readBack failing) { run with attempt := none }
  | unwritten {now : UInt64} {outcome : WriteOutcome} {failing : Option String}
      {attempt : Attempt Key} : run.attempt = some attempt →
      ¬ (validateRecordTableManifest fmt (buildManifest fmt run.publisher attempt.plan now)).isOk ∨
        outcome.landed = false →
      Stepped run (.writeManifest now outcome failing) { run with attempt := none }
  | unconfirmed {now : UInt64} {outcome : WriteOutcome} {failing : Option String}
      {attempt : Attempt Key} : run.attempt = some attempt → attempt.verified →
      outcome.landed → outcome ≠ .stored ∨ failing ≠ none →
      Stepped run (.writeManifest now outcome failing)
        (run.putManifest (buildManifest fmt run.publisher attempt.plan now))
  | published {now : UInt64} {attempt : Attempt Key} : run.attempt = some attempt →
      attempt.verified →
      Stepped run (.writeManifest now .stored none)
        ((run.putManifest (buildManifest fmt run.publisher attempt.plan now)).advance
          (targetSlot run.publisher) (buildManifest fmt run.publisher attempt.plan now)
          attempt.entries)

/-! ### Manifests are read as written -/

theorem descriptor_hasLength : RecordTablePageDescriptor.codec.HasLength 58 := by
  intro descriptor
  have hu16 (n : UInt16) : (Codec.u16.encode n).length = 2 := Codec.leBytes_length _ _
  have hu32 (n : UInt32) : (Codec.u32.encode n).length = 4 := Codec.leBytes_length _ _
  have hu64 (n : UInt64) : (Codec.u64.encode n).length = 8 := Codec.leBytes_length _ _
  have hdigest (d : Digest) : (digestCodec.encode d).length = 32 := d.property
  simp only [RecordTablePageDescriptor.codec, AppPageBloomFilter.codec, Codec.imap, Codec.pair,
    List.length_append, hu16, hu32, hu64, hdigest]

variable {manifest : RecordTableManifest}

theorem manifest_serialize_length (few : manifest.pages.length ≤ 64) :
    1 < manifest.serialize.length ∧ manifest.serialize.length ≤ 4096 := by
  have hu8 (n : UInt8) : (Codec.u8.encode n).length = 1 := Codec.leBytes_length _ _
  have hu16 (n : UInt16) : (Codec.u16.encode n).length = 2 := Codec.leBytes_length _ _
  have hu32 (n : UInt32) : (Codec.u32.encode n).length = 4 := Codec.leBytes_length _ _
  have hu64 (n : UInt64) : (Codec.u64.encode n).length = 8 := Codec.leBytes_length _ _
  have hdigest (d : Digest) : (digestCodec.encode d).length = 32 := d.property
  have hprevious : (Codec.u64.option.encode manifest.previousGeneration).length ≤ 9 :=
    Codec.option_encode_length_le _ 8 _ fun b _ => (hu64 b).le
  have hpages : (RecordTablePageDescriptor.codec.list.encode manifest.pages).length =
      8 + 58 * manifest.pages.length := by
    change (Codec.length.encode manifest.pages.length ++
      manifest.pages.flatMap RecordTablePageDescriptor.codec.encode).length = _
    rw [List.length_append, Codec.length_encode_length (lt_of_le_of_lt few (by decide)),
      List.length_flatMap, List.map_congr_left (g := fun _ => 58)
        fun descriptor _ => descriptor_hasLength descriptor]
    simp [Nat.mul_comm]
  simp only [RecordTableManifest.serialize, RecordTableManifest.codec, magicCodec,
    AppPageBloomFilter.codec, Codec.imap, Codec.pair, List.length_append, hu8, hu16, hu32, hu64,
    hdigest, hpages]
  omega

theorem decodeManifest_serialize (few : manifest.pages.length ≤ 64) :
    decodeManifest manifest.serialize = .ok manifest := by
  obtain ⟨hlong, hshort⟩ := manifest_serialize_length few
  have hnonempty : RecordTableManifest.codec.encode manifest ≠ [] :=
    List.ne_nil_of_length_pos (Nat.lt_of_succ_lt hlong)
  rw [decodeManifest, RecordTableManifest.serialize,
    decodeBincodeLimited_encode hnonempty (le_trans hshort (by decide))]
  rfl

theorem readBackManifest_written (dht : Subkey → Bytes)
    (valid : ManifestValid fmt manifest) (slot : Subkey) :
    readBackManifest fmt (answered (Function.update dht slot manifest.serialize) fun _ => none)
      slot manifest = .ok manifest := by
  have hread : answered (Function.update dht slot manifest.serialize) (fun _ => none) slot =
      .ok manifest.serialize := congrArg Except.ok (Function.update_self ..)
  have hvalid := (validateRecordTableManifest_ok_iff fmt).mpr valid
  rw [readBackManifest, hread]
  change ((decodeManifest manifest.serialize).mapError WalkError.table >>= _) = _
  rw [decodeManifest_serialize valid.few]
  change ((validateRecordTableManifest fmt manifest).mapError WalkError.table >>= _) = _
  rw [hvalid]
  rw [if_neg (not_not_intro rfl)]
  rfl

variable {run run' : TableRun Key} {attempt : Attempt Key}

theorem writeManifest_stepped
    (hattempt : run.attempt = some attempt) (hverified : attempt.verified) (now : UInt64)
    (outcome : WriteOutcome) (failing : Option String) :
    run.Stepped fmt (.writeManifest now outcome failing)
      (run.writeManifest fmt attempt now outcome failing) := by
  unfold TableRun.writeManifest
  dsimp only
  split
  case isTrue hunwritten =>
    refine .unwritten hattempt ?_
    simpa using hunwritten
  case isFalse hwritten =>
  simp only [Bool.or_eq_true, Bool.not_eq_true', not_or, Bool.not_eq_false] at hwritten
  obtain ⟨hok, hlanded⟩ := hwritten
  obtain ⟨⟨⟩, hok⟩ := isOk_iff.mp hok
  have hvalid := (validateRecordTableManifest_ok_iff fmt).mp hok
  split
  case h_1 readback hread =>
    cases failing with
    | none =>
      have hsame := readBackManifest_written fmt run.dht hvalid (targetSlot run.publisher)
      cases hsame.symm.trans hread
      exact .published hattempt hverified
    | some error => cases hread
  case h_2 hneither =>
    refine .unconfirmed hattempt hverified hlanded ?_
    by_contra hboth
    simp only [not_or, not_not] at hboth
    obtain ⟨rfl, rfl⟩ := hboth
    exact hneither _ rfl (readBackManifest_written fmt run.dht hvalid _)

theorem stepped_of_next {event : TableEvent Key}
    (h : run.next fmt event = some run') : run.Stepped fmt event run' := by
  cases event with
  | load slots pages =>
    cases h
    exact .loaded
  | start entries =>
    rw [TableRun.next] at h
    obtain ⟨hidle, h⟩ := Option.ite_none_right_eq_some.mp h
    have hidle := Option.isNone_iff_eq_none.mp hidle
    cases h
    unfold TableRun.begin
    split
    case h_1 e hplan => exact .refused hidle hplan
    case h_2 plan hplan =>
      split
      case isTrue hsame => exact .unchanged hidle hplan hsame
      case isFalse => exact .begun hidle hplan
  | writePage i outcome =>
    obtain ⟨attempt, hattempt, h⟩ := Option.bind_eq_some_iff.mp h
    obtain ⟨write, hwrite, rfl⟩ := Option.map_eq_some_iff.mp h
    exact .wrote hattempt hwrite
  | readBack failing =>
    obtain ⟨attempt, hattempt, h⟩ := Option.bind_eq_some_iff.mp h
    obtain ⟨hdone, h⟩ := Option.ite_none_right_eq_some.mp h
    cases h
    simp only [Bool.and_eq_true, List.isEmpty_iff, Bool.not_eq_true'] at hdone
    unfold TableRun.readBack
    split
    case isTrue hgood =>
      simp only [Bool.and_eq_true, Bool.not_eq_true'] at hgood
      exact .verified hattempt hdone.1 hgood.1
    case isFalse hbad =>
      refine .unverified hattempt ?_
      rw [Bool.and_eq_true, not_and_or] at hbad
      exact hbad.imp_left fun h => by simpa using h
  | writeManifest now outcome failing =>
    obtain ⟨attempt, hattempt, h⟩ := Option.bind_eq_some_iff.mp h
    split at h
    case isFalse => cases h
    case isTrue hverified =>
      cases h
      exact writeManifest_stepped fmt hattempt hverified now outcome failing

/-! ## What the record holds -/

/-- The values that a publisher writes. -/
inductive Known (manifests : List RecordTableManifest) (pages : List (RecordTablePage Key))
    (subkey : Subkey) (bytes : Bytes) : Prop
  | manifest {manifest : RecordTableManifest} : manifest ∈ manifests →
      subkey = recordTableManifestSlotA ∨ subkey = recordTableManifestSlotB →
      bytes = manifest.serialize → Known manifests pages subkey bytes
  | page {page : RecordTablePage Key} : page ∈ pages → subkey ∈ pageSubkeys →
      bytes = page.serialize fmt → Known manifests pages subkey bytes

/-- The pages of a manifest are as they were written. -/
def Intact (dht : Subkey → Bytes) (pages : List (RecordTablePage Key))
    (manifest : RecordTableManifest) : Prop :=
  ∀ descriptor ∈ manifest.pages, ∃ page ∈ pages,
    dht descriptor.subkey = page.serialize fmt ∧ Describes fmt page descriptor

structure AttemptSound (run : TableRun Key) (attempt : Attempt Key) : Prop where
  plan : PlanSound fmt run.publisher attempt.entries attempt.plan
  hashed : plannedPages fmt run.publisher attempt.entries ⊆ run.hashed
  todo : attempt.todo ⊆ attempt.plan.writes
  stored : attempt.failed = false → ∀ write ∈ attempt.plan.writes, write ∉ attempt.todo →
    run.dht write.1.subkey = write.2
  verified : attempt.verified → attempt.todo = [] ∧ attempt.failed = false

structure RunSound (run : TableRun Key) : Prop where
  held : ∀ value ∈ run.held, Known fmt run.manifests run.hashed value.1 value.2
  dht : ∀ subkey, run.dht subkey = [] ∨ (subkey, run.dht subkey) ∈ run.held
  manifests : ∀ manifest ∈ run.manifests, ManifestSound fmt run.hashed manifest
  current : ∀ manifest, run.publisher.currentManifest = some manifest →
    manifest ∈ run.manifests ∧ Intact fmt run.dht run.hashed manifest
  previous : ∀ manifest, run.publisher.previousManifest = some manifest →
    manifest ∈ run.manifests ∧ Intact fmt run.dht run.hashed manifest
  attempt : ∀ attempt, run.attempt = some attempt → AttemptSound fmt run attempt

theorem RunSound.publisherSound (h : RunSound fmt run) :
    PublisherSound fmt run.hashed run.publisher :=
  ⟨fun manifest hcurrent => h.manifests manifest (h.current manifest hcurrent).1,
    fun manifest hprevious => h.manifests manifest (h.previous manifest hprevious).1⟩

variable {pages pages' : List (RecordTablePage Key)} {subkey : Subkey} {bytes : Bytes}

theorem Known.mono {manifests manifests' : List RecordTableManifest}
    (h : Known fmt manifests pages subkey bytes) (hmanifests : manifests ⊆ manifests')
    (hpages : pages ⊆ pages') : Known fmt manifests' pages' subkey bytes := by
  cases h with
  | manifest hmem hslot hbytes => exact .manifest (hmanifests hmem) hslot hbytes
  | page hmem hsubkey hbytes => exact .page (hpages hmem) hsubkey hbytes

theorem ManifestSound.mono (h : ManifestSound fmt pages manifest)
    (hpages : pages ⊆ pages') : ManifestSound fmt pages' manifest :=
  ⟨h.valid, fun descriptor hdescriptor =>
    (h.described descriptor hdescriptor).imp fun _ hpage => ⟨hpages hpage.1, hpage.2⟩⟩

variable {dht : Subkey → Bytes}

/-- Pages stay intact where the record does not change. -/
theorem Intact.mono {dht' : Subkey → Bytes} (h : Intact fmt dht pages manifest)
    (hdht : ∀ descriptor ∈ manifest.pages, dht' descriptor.subkey = dht descriptor.subkey)
    (hpages : pages ⊆ pages') : Intact fmt dht' pages' manifest := by
  intro descriptor hdescriptor
  obtain ⟨page, hpage, hvalue, hdescribes⟩ := h descriptor hdescriptor
  exact ⟨page, hpages hpage, (hdht descriptor hdescriptor).trans hvalue, hdescribes⟩

theorem slots_not_pages : recordTableManifestSlotA ∉ pageSubkeys ∧
    recordTableManifestSlotB ∉ pageSubkeys := by decide +kernel

theorem mem_pageSubkeys_of_range (hfirst : recordTablePageStart ≤ subkey)
    (hlast : subkey ≤ recordTablePageEnd) : subkey ∈ pageSubkeys := by
  have hfirst : 52 ≤ subkey.toNat := UInt32.le_iff_toNat_le.mp hfirst
  have hlast : subkey.toNat ≤ 250 := UInt32.le_iff_toNat_le.mp hlast
  refine List.mem_map.mpr ⟨subkey.toNat - 52, List.mem_range.mpr ?_, ?_⟩
  · rw [recordTablePageSlotCount]
    omega
  refine UInt32.toNat_inj.mp ?_
  rw [UInt32.toNat_add, UInt32.toNat_ofNat_of_lt' (by
    change subkey.toNat - 52 < 4294967296
    omega)]
  change (52 + (subkey.toNat - 52)) % 4294967296 = subkey.toNat
  omega

variable {descriptor : RecordTablePageDescriptor}

theorem ManifestValid.pageSubkey (h : ManifestValid fmt manifest)
    (hdescriptor : descriptor ∈ manifest.pages) : descriptor.subkey ∈ pageSubkeys :=
  mem_pageSubkeys_of_range (h.within descriptor hdescriptor).first
    (h.within descriptor hdescriptor).last

theorem targetSlot_eq (publisher : RecordTablePublisher) :
    targetSlot publisher = recordTableManifestSlotA ∨
      targetSlot publisher = recordTableManifestSlotB := by
  unfold targetSlot
  split
  case isTrue => exact .inr rfl
  case isFalse => exact .inl rfl

/-- What a slot holds is a manifest that has been written. -/
theorem RunSound.manifest_of_held (h : RunSound fmt run) {slot : Subkey}
    (hheld : (slot, bytes) ∈ run.held)
    (hslot : slot = recordTableManifestSlotA ∨ slot = recordTableManifestSlotB)
    (hdecode : decodeManifest bytes = .ok manifest) :
    manifest ∈ run.manifests := by
  have hnot : slot ∉ pageSubkeys := by
    rcases hslot with rfl | rfl
    · exact slots_not_pages.1
    · exact slots_not_pages.2
  cases h.held _ hheld with
  | manifest hmem _ hbytes =>
    rw [show bytes = _ from hbytes, decodeManifest_serialize (h.manifests _ hmem).valid.few]
      at hdecode
    exact Except.ok.inj hdecode ▸ hmem
  | page _ hsubkey _ => exact absurd hsubkey hnot

variable {page : RecordTablePage Key}

/-- What a page subkey holds is a page that has been hashed. -/
theorem RunSound.page_of_held (h : RunSound fmt run)
    (hheld : (subkey, bytes) ∈ run.held) (hsubkey : subkey ∈ pageSubkeys)
    (hshort : bytes.length ≤ recordTableMaxPageBytes) (hdecode : decodePage fmt bytes = .ok page) :
    page ∈ run.hashed ∧ bytes = page.serialize fmt := by
  cases h.held _ hheld with
  | manifest _ hslot _ =>
    rcases hslot with hslot | hslot
    · exact absurd ((show subkey = _ from hslot) ▸ hsubkey) slots_not_pages.1
    · exact absurd ((show subkey = _ from hslot) ▸ hsubkey) slots_not_pages.2
  | page hmem _ hbytes =>
    obtain rfl : bytes = _ := hbytes
    rw [decodePage_serialize fmt hshort] at hdecode
    cases hdecode
    exact ⟨hmem, rfl⟩

/-- A page that is read for a descriptor of a valid manifest is a hashed one. -/
theorem RunSound.page_of_read (h : RunSound fmt run) {values : Values}
    (hvalues : ∀ subkey bytes, values subkey = some bytes → (subkey, bytes) ∈ run.held)
    (valid : ManifestValid fmt manifest) (hdescriptor : descriptor ∈ manifest.pages)
    (hread : PageRead fmt values descriptor page) :
    page ∈ run.hashed ∧ values descriptor.subkey = some (page.serialize fmt) ∧
      Describes fmt page descriptor := by
  obtain ⟨⟨bytes, hvalue, hlength, hdecode⟩, hvalid⟩ := hread
  have hwithin := valid.within descriptor hdescriptor
  obtain ⟨hmem, rfl⟩ := h.page_of_held fmt (hvalues _ _ hvalue)
    (valid.pageSubkey fmt hdescriptor) (hlength.trans_le hwithin.size) hdecode
  exact ⟨hmem, hvalue, hvalid, hlength⟩

/-! ## Every step keeps it -/

variable {failing : Subkey → Option String}

theorem readValues_answered (h : readValues (answered dht failing) subkey = some bytes) :
    dht subkey = bytes ∧ bytes ≠ [] := by
  obtain ⟨hread, hblank⟩ := Option.filter_eq_some_iff.mp h
  unfold answered at hread
  split at hread
  case h_1 =>
    cases hread
    refine ⟨rfl, fun hnil => ?_⟩
    rw [hnil] at hblank
    cases hblank
  case h_2 => cases hread

theorem RunSound.held_of_answered (h : RunSound fmt run) {failing : Subkey → Option String}
    (hread : readValues (answered run.dht failing) subkey = some bytes) :
    (subkey, bytes) ∈ run.held := by
  obtain ⟨rfl, hne⟩ := readValues_answered hread
  exact (h.dht subkey).resolve_left hne

/-- The manifests that are loaded are valid and have all their pages. -/
theorem loadPublisher_spec {slots : Subkey → Except String Bytes}
    {pages : Subkey → Subkey → Except String Bytes}
    (h : (loadPublisher fmt slots pages).currentManifest = some manifest ∨
      (loadPublisher fmt slots pages).previousManifest = some manifest) :
    ∃ slot, (slot, manifest) ∈ validRecordTableManifests fmt (readValues slots) ∧
      validateLoadedRecordTablePages fmt (readValues (pages slot)) manifest.pages true = .ok () := by
  suffices hcomplete : ∃ candidate ∈ validRecordTableManifests fmt (readValues slots),
      (validateLoadedRecordTablePages fmt (readValues (pages candidate.1)) candidate.2.pages
        true).isOk ∧ candidate.2 = manifest by
    obtain ⟨candidate, hcandidate, hloaded, rfl⟩ := hcomplete
    obtain ⟨⟨⟩, hloaded⟩ := isOk_iff.mp hloaded
    exact ⟨candidate.1, hcandidate, hloaded⟩
  rcases h with h | h
  · obtain ⟨candidate, hhead, heq⟩ := Option.map_eq_some_iff.mp h
    have hmem := (List.perm_insertionSort _ _).mem_iff.mp (List.mem_of_head? hhead)
    exact ⟨candidate, (List.mem_filter.mp hmem).1, (List.mem_filter.mp hmem).2, heq⟩
  · obtain ⟨candidate, hget, heq⟩ := Option.map_eq_some_iff.mp h
    have hmem := (List.perm_insertionSort _ _).mem_iff.mp (List.mem_of_getElem? hget)
    exact ⟨candidate, (List.mem_filter.mp hmem).1, (List.mem_filter.mp hmem).2, heq⟩

theorem RunSound.loaded_manifest (h : RunSound fmt run)
    {slots : Subkey → Option String} {pages : Subkey → Subkey → Option String}
    (hloaded : (run.load fmt slots pages).publisher.currentManifest = some manifest ∨
      (run.load fmt slots pages).publisher.previousManifest = some manifest) :
    manifest ∈ run.manifests ∧ Intact fmt run.dht run.hashed manifest := by
  obtain ⟨slot, hcandidate, hpages⟩ := loadPublisher_spec fmt hloaded
  obtain ⟨hslot, hmanifest⟩ := (mem_validRecordTableManifests fmt).mp hcandidate
  obtain ⟨bytes, hvalue, hdecode, hvalid⟩ := (slotManifest_eq_some fmt).mp hmanifest
  refine ⟨h.manifest_of_held fmt (h.held_of_answered fmt hvalue) hslot hdecode, ?_⟩
  intro descriptor hdescriptor
  obtain ⟨page, hread⟩ := (validateLoadedRecordTablePages_ok_iff fmt).mp hpages descriptor
    hdescriptor
  obtain ⟨hmem, hvalue, hdescribes⟩ := h.page_of_read fmt
    (fun subkey bytes hread => h.held_of_answered fmt hread) hvalid hdescriptor hread
  exact ⟨page, hmem, (readValues_answered hvalue).1, hdescribes⟩

theorem RunSound.load (h : RunSound fmt run)
    (slots : Subkey → Option String) (pages : Subkey → Subkey → Option String) :
    RunSound fmt (run.load fmt slots pages) where
  held := h.held
  dht := h.dht
  manifests := h.manifests
  current _ hcurrent := h.loaded_manifest fmt (.inl hcurrent)
  previous _ hprevious := h.loaded_manifest fmt (.inr hprevious)
  attempt _ hattempt := by cases hattempt

/-- More pages have been hashed. -/
theorem RunSound.hash (h : RunSound fmt run)
    (pages : List (RecordTablePage Key)) (lastOk : Option (List (RecordTableEntry Key))) :
    RunSound fmt { run with
      hashed := run.hashed ++ pages
      attempt := none
      lastOk := lastOk } where
  held value hvalue := (h.held value hvalue).mono fmt (List.Subset.refl _)
    (List.subset_append_left _ _)
  dht := h.dht
  manifests manifest hmem := (h.manifests manifest hmem).mono fmt (List.subset_append_left _ _)
  current manifest hcurrent := (h.current manifest hcurrent).imp_right fun hintact =>
    hintact.mono fmt (fun _ _ => rfl) (List.subset_append_left _ _)
  previous manifest hprevious := (h.previous manifest hprevious).imp_right fun hintact =>
    hintact.mono fmt (fun _ _ => rfl) (List.subset_append_left _ _)
  attempt _ hattempt := by cases hattempt

/-- A value lands at a subkey that no known manifest refers to. -/
theorem RunSound.put (h : RunSound fmt run)
    {manifests : List RecordTableManifest} (hmanifests : run.manifests ⊆ manifests)
    (hsound : ∀ manifest ∈ manifests, ManifestSound fmt run.hashed manifest)
    (hknown : Known fmt manifests run.hashed subkey bytes)
    (hfree : subkey ∉ unavailable run.publisher) :
    RunSound fmt { run.put subkey bytes with manifests := manifests, attempt := none } := by
  have hintact (manifest : RecordTableManifest)
      (hmem : manifest ∈ run.publisher.currentManifest.toList ++
        run.publisher.previousManifest.toList)
      (h : Intact fmt run.dht run.hashed manifest) :
      Intact fmt (Function.update run.dht subkey bytes) run.hashed manifest := by
    refine h.mono fmt (fun descriptor hdescriptor => ?_) (List.Subset.refl _)
    refine Function.update_of_ne (fun hsame => hfree ?_) _ _
    exact List.mem_flatMap.mpr ⟨manifest, hmem, hsame ▸ List.mem_map_of_mem hdescriptor⟩
  refine ⟨?_, fun k => ?_, hsound, ?_, ?_, fun _ hattempt => by cases hattempt⟩
  · intro value hvalue
    rcases List.mem_cons.mp hvalue with rfl | hvalue
    · exact hknown
    · exact (h.held value hvalue).mono fmt hmanifests (List.Subset.refl _)
  · by_cases hsame : k = subkey
    · subst hsame
      refine .inr ?_
      change (k, Function.update run.dht k bytes k) ∈ (k, bytes) :: run.held
      rw [Function.update_self]
      exact List.mem_cons_self
    · change Function.update run.dht subkey bytes k = [] ∨
        (k, Function.update run.dht subkey bytes k) ∈ (subkey, bytes) :: run.held
      rw [Function.update_of_ne hsame]
      exact (h.dht k).imp_right fun hheld => List.mem_cons_of_mem _ hheld
  · intro manifest hcurrent
    obtain ⟨hmem, hold⟩ := h.current manifest hcurrent
    refine ⟨hmanifests hmem, hintact manifest ?_ hold⟩
    exact List.mem_append_left _ (Option.mem_toList.mpr hcurrent)
  · intro manifest hprevious
    obtain ⟨hmem, hold⟩ := h.previous manifest hprevious
    refine ⟨hmanifests hmem, hintact manifest ?_ hold⟩
    exact List.mem_append_right _ (Option.mem_toList.mpr hprevious)

theorem RunSound.with_attempt
    (h : RunSound fmt { run with attempt := none }) (hattempt : AttemptSound fmt run attempt) :
    RunSound fmt { run with attempt := some attempt } := by
  refine ⟨h.held, h.dht, h.manifests, h.current, h.previous, fun other hother => ?_⟩
  cases hother
  exact ⟨hattempt.plan, hattempt.hashed, hattempt.todo, hattempt.stored, hattempt.verified⟩

theorem RunSound.without_attempt (h : RunSound fmt run) :
    RunSound fmt { run with attempt := none } :=
  ⟨h.held, h.dht, h.manifests, h.current, h.previous, fun _ hattempt => by cases hattempt⟩

/-- A page of the plan has been stored, or an error has come back. -/
theorem RunSound.writePage (h : RunSound fmt run) (hattempt : run.attempt = some attempt) {i : Nat}
    (htodo : attempt.todo[i]? = some (descriptor, bytes)) (outcome : WriteOutcome) :
    RunSound fmt (run.writePage attempt i descriptor.subkey bytes outcome) := by
  have hsound := h.attempt attempt hattempt
  have hwrite := hsound.todo (List.mem_of_getElem? htodo)
  obtain ⟨-, bucket, hbucket, heq⟩ := hsound.plan.fresh _ hwrite
  obtain ⟨hpage, hfree⟩ := mem_freeSubkeys.mp (hsound.plan.free _ hwrite)
  -- Writes of one subkey are the same write.
  have hapart : ∀ write ∈ attempt.plan.writes, write.1.subkey = descriptor.subkey →
      write = (descriptor, bytes) := fun write hmem hsame =>
    List.inj_on_of_nodup_map hsound.plan.distinct hmem hwrite hsame
  have hknown : Known fmt run.manifests run.hashed descriptor.subkey bytes :=
    .page (hsound.hashed (List.mem_flatMap.mpr ⟨bucket, hbucket, List.mem_cons_self⟩)) hpage
      (congrArg Prod.snd heq)
  unfold TableRun.writePage
  cases hlanded : outcome.landed with
  | false =>
    refine @RunSound.with_attempt _ fmt run _ (h.without_attempt fmt) ?_
    refine ⟨hsound.plan, hsound.hashed, List.Subset.trans (List.eraseIdx_subset ..) hsound.todo,
      ?_, ?_⟩
    · intro hfailed
      cases outcome with
      | stored => cases hlanded
      | failed error landed => simp at hfailed
    · intro hverified
      have hdone := (hsound.verified hverified).1
      rw [hdone] at htodo
      cases htodo
  | true =>
    refine @RunSound.with_attempt _ fmt (run.put descriptor.subkey bytes) _
      (h.put fmt (List.Subset.refl _) h.manifests hknown hfree) ?_
    refine ⟨hsound.plan, hsound.hashed, List.Subset.trans (List.eraseIdx_subset ..) hsound.todo,
      ?_, ?_⟩
    · intro hfailed write hmem hdone
      simp only [Bool.or_eq_false_iff] at hfailed
      by_cases hsame : write.1.subkey = descriptor.subkey
      · obtain rfl := hapart write hmem hsame
        exact Function.update_self ..
      refine (Function.update_of_ne hsame ..).trans
        (hsound.stored hfailed.1 write hmem fun htodo' => hdone ?_)
      obtain ⟨j, hj, hget⟩ := List.mem_iff_getElem.mp htodo'
      refine List.mem_eraseIdx_iff_getElem.mpr ⟨j, hj, fun hij => hsame ?_, hget⟩
      subst hij
      rw [List.getElem?_eq_getElem hj, hget] at htodo
      rw [Option.some.inj htodo]
    · intro hverified
      have hdone := (hsound.verified hverified).1
      rw [hdone] at htodo
      cases htodo

variable {entries : List (RecordTableEntry Key)} {plan : PublishPlan}

section

variable (h : RunSound fmt run)

include h

theorem RunSound.planned (hplan : planPublish fmt run.publisher entries = .ok plan) :
    PlanSound fmt run.publisher entries plan := by
  obtain ⟨plan', hplan', hsound⟩ := planPublish_sound fmt (h.publisherSound fmt) entries
  rw [hplan'] at hplan
  exact Except.ok.inj hplan ▸ hsound

/-- A manifest that is written has its pages. -/
theorem AttemptSound.manifestSound (hattempt : run.attempt = some attempt) (now : UInt64) :
    ManifestSound fmt run.hashed (buildManifest fmt run.publisher attempt.plan now) :=
  have hsound := h.attempt attempt hattempt
  (hsound.plan.manifestSound fmt (h.publisherSound fmt) now).mono fmt
    (List.append_subset.mpr ⟨List.Subset.refl _, hsound.hashed⟩)

theorem RunSound.putManifest (hattempt : run.attempt = some attempt) (now : UInt64) :
    RunSound fmt (run.putManifest (buildManifest fmt run.publisher attempt.plan now)) := by
  refine h.put fmt (List.subset_cons_self _ _) (fun manifest hmem => ?_)
    (.manifest List.mem_cons_self (targetSlot_eq _) rfl) (fun hmem => ?_)
  · rcases List.mem_cons.mp hmem with rfl | hmem
    · exact AttemptSound.manifestSound fmt h hattempt now
    · exact h.manifests manifest hmem
  obtain ⟨manifest, hknown, hmem⟩ := List.mem_flatMap.mp hmem
  obtain ⟨descriptor, hdescriptor, hsame⟩ := List.mem_map.mp hmem
  have hvalid : ManifestValid fmt manifest := by
    rcases List.mem_append.mp hknown with hknown | hknown
    · exact ((h.publisherSound fmt).current manifest (Option.mem_toList.mp hknown)).valid
    · exact ((h.publisherSound fmt).previous manifest (Option.mem_toList.mp hknown)).valid
  have hpage := hsame ▸ hvalid.pageSubkey fmt hdescriptor
  rcases targetSlot_eq run.publisher with hslot | hslot
  · exact slots_not_pages.1 (hslot ▸ hpage)
  · exact slots_not_pages.2 (hslot ▸ hpage)

/-- Once the pages of a plan are stored, its manifest is intact. -/
theorem PlanSound.intact (hplan : PlanSound fmt run.publisher entries plan)
    (hold : run.hashed ⊆ pages) (hnew : plannedPages fmt run.publisher entries ⊆ pages)
    (hkept : ∀ subkey ∈ unavailable run.publisher, dht subkey = run.dht subkey)
    (hstored : ∀ write ∈ plan.writes, dht write.1.subkey = write.2) (now : UInt64) :
    Intact fmt dht pages (buildManifest fmt run.publisher plan now) := by
  intro descriptor hdescriptor
  obtain ⟨bucket, hbucket, hplanned⟩ := hplan.planned descriptor hdescriptor
  cases hplanned with
  | reuse hreuse =>
    have hcurrent := (reused_of_reusable fmt hreuse).current
    obtain ⟨manifest, hmanifest, hmem⟩ := mem_currentPages hcurrent
    obtain ⟨page, hpage, hvalue, hdescribes⟩ := (h.current manifest hmanifest).2 descriptor hmem
    exact ⟨page, hold hpage, (hkept _ (current_unavailable hcurrent)).trans hvalue, hdescribes⟩
  | fresh subkey _ heq hwrite =>
    obtain ⟨-, hentries, hsort⟩ := mem_bucketRecordTableEntries fmt hbucket
    have hfits := bucketEntries_fitting fmt hentries
    rw [← hsort] at hfits
    refine ⟨_, hnew (List.mem_flatMap.mpr ⟨bucket, hbucket, List.mem_cons_self⟩),
      hstored _ hwrite, ?_⟩
    rw [heq]
    exact describes_descriptorOf fmt hfits subkey _

theorem RunSound.published
    (hattempt : run.attempt = some attempt) (hverified : attempt.verified) (now : UInt64) :
    RunSound fmt ((run.putManifest (buildManifest fmt run.publisher attempt.plan now)).advance
      (targetSlot run.publisher) (buildManifest fmt run.publisher attempt.plan now)
      attempt.entries) := by
  have hput := h.putManifest fmt hattempt now
  have hsound := h.attempt attempt hattempt
  obtain ⟨hdone, hgood⟩ := hsound.verified hverified
  have hintact : Intact fmt run.dht run.hashed (buildManifest fmt run.publisher attempt.plan now) :=
    hsound.plan.intact fmt h (List.Subset.refl _) hsound.hashed (fun _ _ => rfl)
      (fun write hmem => hsound.stored hgood write hmem (hdone ▸ List.not_mem_nil)) now
  refine ⟨hput.held, hput.dht, hput.manifests, fun manifest hcurrent => ?_, hput.current,
    fun _ hnone => by cases hnone⟩
  cases hcurrent
  refine ⟨List.mem_cons_self, hintact.mono fmt (fun descriptor hdescriptor => ?_)
    (List.Subset.refl _)⟩
  -- The manifest goes to a slot, its pages stay where they are.
  refine Function.update_of_ne (fun hsame => ?_) _ _
  have hpage := (hsound.plan.valid now).pageSubkey fmt hdescriptor
  rcases targetSlot_eq run.publisher with hslot | hslot
  · exact slots_not_pages.1 (hslot ▸ hsame ▸ hpage)
  · exact slots_not_pages.2 (hslot ▸ hsame ▸ hpage)

theorem RunSound.step {event : TableEvent Key}
    (hstep : run.Stepped fmt event run') : RunSound fmt run' := by
  cases hstep with
  | loaded => exact h.load fmt _ _
  | refused => exact h
  | unchanged hidle =>
    rename_i entries plan _ _
    have hhash := h.hash fmt (plannedPages fmt run.publisher entries) (some entries)
    exact ⟨hhash.held, hhash.dht, hhash.manifests, hhash.current, hhash.previous,
      fun _ hattempt => by rw [show run.attempt = _ from hattempt] at hidle; cases hidle⟩
  | begun hidle hplan =>
    rename_i entries plan
    have hhash := h.hash fmt (plannedPages fmt run.publisher entries) run.lastOk
    refine @RunSound.with_attempt _ fmt
      { run with hashed := run.hashed ++ plannedPages fmt run.publisher entries } _ hhash
      ⟨h.planned fmt hplan, List.subset_append_right _ _, List.Subset.refl _,
        fun _ write hmem hnot => absurd hmem hnot, fun hverified => by cases hverified⟩
  | wrote hattempt htodo => exact h.writePage fmt hattempt htodo _
  | verified hattempt hdone hgood =>
    have hsound := h.attempt _ hattempt
    exact (h.without_attempt fmt).with_attempt fmt
      ⟨hsound.plan, hsound.hashed, hsound.todo, hsound.stored, fun _ => ⟨hdone, hgood⟩⟩
  | unverified => exact h.without_attempt fmt
  | unwritten => exact h.without_attempt fmt
  | unconfirmed hattempt => exact h.putManifest fmt hattempt _
  | published hattempt hverified => exact h.published fmt hattempt hverified _

end

theorem RunSound.start : RunSound fmt ({} : TableRun Key) where
  held _ hvalue := by cases hvalue
  dht _ := .inl rfl
  manifests _ hmem := by cases hmem
  current _ hcurrent := by cases hcurrent
  previous _ hprevious := by cases hprevious
  attempt _ hattempt := by cases hattempt

theorem runSound : (tableSystem fmt).Invariant (RunSound fmt) where
  initially _ hinit := hinit ▸ RunSound.start fmt
  preserved _ _ _ h hstep := h.step fmt (stepped_of_next fmt hstep)

/-! ## What a publication comes to -/

/-- The record after the writes of a plan. -/
def writeAll (dht : Subkey → Bytes) (writes : List (RecordTablePageDescriptor × Bytes)) :
    Subkey → Bytes :=
  writes.foldl (fun dht write => Function.update dht write.1.subkey write.2) dht

/-- The page that a record holds for a descriptor. -/
def storedPage (dht : Subkey → Bytes) (descriptor : RecordTablePageDescriptor) :
    Option (RecordTablePage Key) :=
  (decodePage fmt (dht descriptor.subkey)).toOption

/-- The entries that a record holds for descriptors. -/
def storedEntries (dht : Subkey → Bytes) (descriptors : List RecordTablePageDescriptor) :
    List (RecordTableEntry Key) :=
  descriptors.flatMap fun descriptor => (storedPage fmt dht descriptor).elim [] (·.entries)

variable {writes : List (RecordTablePageDescriptor × Bytes)}

theorem writeAll_of_not_mem
    (h : subkey ∉ writes.map (·.1.subkey)) : writeAll dht writes subkey = dht subkey := by
  induction writes generalizing dht with
  | nil => rfl
  | cons write writes ih =>
    rw [List.map_cons, List.mem_cons, not_or] at h
    exact (ih h.2).trans (Function.update_of_ne h.1 ..)

theorem writeAll_of_mem
    (distinct : (writes.map (·.1.subkey)).Nodup) {write : RecordTablePageDescriptor × Bytes}
    (h : write ∈ writes) : writeAll dht writes write.1.subkey = write.2 := by
  induction writes generalizing dht with
  | nil => cases h
  | cons first writes ih =>
    obtain ⟨hnew, hdistinct⟩ := List.nodup_cons.mp distinct
    rcases List.mem_cons.mp h with rfl | h
    · exact (writeAll_of_not_mem hnew).trans (Function.update_self ..)
    · exact ih hdistinct h

theorem storedPage_of_describes (hvalue : dht descriptor.subkey = page.serialize fmt)
    (hdescribes : Describes fmt page descriptor)
    (hsize : descriptor.serializedSize.toNat ≤ recordTableMaxPageBytes) :
    storedPage fmt dht descriptor = some page := by
  rw [storedPage, hvalue, decodePage_serialize fmt (hdescribes.size.trans_le hsize)]
  rfl

/-- What the record holds once the pages of a plan are stored. -/
theorem PlanSound.stored (h : RunSound fmt run) (hplan : PlanSound fmt run.publisher entries plan) :
    Intact fmt (writeAll run.dht plan.writes) (run.hashed ++ plannedPages fmt run.publisher entries)
      (buildManifest fmt run.publisher plan 0) := by
  refine hplan.intact fmt h (List.subset_append_left _ _) (List.subset_append_right _ _)
    (fun subkey hsubkey => writeAll_of_not_mem fun hmem => ?_)
    (fun write hmem => writeAll_of_mem hplan.distinct hmem) 0
  obtain ⟨write, hwrite, hsame⟩ := List.mem_map.mp hmem
  exact (mem_freeSubkeys.mp (hplan.free write hwrite)).2 (hsame ▸ hsubkey)

/-- A bucket's entries, in the page that holds them. -/
theorem PlanSound.stored_contents (h : RunSound fmt run)
    (hplan : PlanSound fmt run.publisher entries plan)
    (collisions : NoCollisions fmt (run.hashed ++ plannedPages fmt run.publisher entries))
    (hdescriptor : descriptor ∈ plan.descriptors) :
    ∃ bucket ∈ bucketRecordTableEntries fmt entries, descriptor.bucket = bucket.1 ∧
      ∃ page, storedPage fmt (writeAll run.dht plan.writes) descriptor = some page ∧
        page.entries = bucket.2 := by
  obtain ⟨page, hpage, hvalue, hdescribes⟩ := hplan.stored fmt h descriptor hdescriptor
  obtain ⟨bucket, hbucket, hof, hplanned, hsame⟩ :=
    hplan.contents fmt (h.publisherSound fmt) collisions hdescriptor
  obtain rfl := hdescribes.entries_eq fmt collisions hpage (List.mem_append_right _ hplanned) hsame
  refine ⟨bucket, hbucket, hof, _, storedPage_of_describes fmt hvalue hdescribes ?_, rfl⟩
  exact ((hplan.valid 0).within descriptor hdescriptor).size

theorem recordTableBucket_congr {address address' : Key}
    (h : fmt.keys.text address = fmt.keys.text address') :
    recordTableBucket fmt address = recordTableBucket fmt address' := by
  rw [recordTableBucket, h, recordTableBucket]

theorem PlanSound.distinct_entries (h : RunSound fmt run)
    (hplan : PlanSound fmt run.publisher entries plan)
    (collisions : NoCollisions fmt (run.hashed ++ plannedPages fmt run.publisher entries)) :
    ((storedEntries fmt (writeAll run.dht plan.writes) plan.descriptors).map fun entry =>
      fmt.keys.text entry.theirAddress).Nodup := by
  have hfits : ∀ descriptor ∈ plan.descriptors, Fitting fmt descriptor.bucket
        ((storedPage fmt (writeAll run.dht plan.writes) descriptor).elim [] (·.entries)) := by
    intro descriptor hdescriptor
    obtain ⟨bucket, hbucket, hof, page, hpage, hentries⟩ :=
      hplan.stored_contents fmt h collisions hdescriptor
    obtain ⟨-, hkept, hsort⟩ := mem_bucketRecordTableEntries fmt hbucket
    rw [hpage, Option.elim_some, hentries, hof, hsort]
    exact bucketEntries_fitting fmt hkept
  rw [storedEntries, List.map_flatMap, List.nodup_flatMap]
  refine ⟨fun descriptor hdescriptor => (hfits descriptor hdescriptor).distinct, ?_⟩
  have hbuckets : plan.descriptors.Pairwise fun left right => left.bucket ≠ right.bucket :=
    List.pairwise_map.mp (hplan.valid 0).buckets
  refine hbuckets.imp_of_mem fun {left right} hleft hright hne => ?_
  refine List.disjoint_left.mpr ?_
  intro address hin hin'
  obtain ⟨entry, hentry, rfl⟩ := List.mem_map.mp hin
  obtain ⟨entry', hentry', hsame⟩ := List.mem_map.mp hin'
  have hof := (hfits left hleft).bucket entry hentry
  have hof' := (hfits right hright).bucket entry' hentry'
  exact hne (hof.symm.trans ((recordTableBucket_congr fmt hsame.symm).trans hof'))

theorem PlanSound.leading_entries (h : RunSound fmt run)
    (hplan : PlanSound fmt run.publisher entries plan)
    (collisions : NoCollisions fmt (run.hashed ++ plannedPages fmt run.publisher entries))
    (hdescriptor : descriptor ∈ plan.descriptors) :
    ∃ kept, kept <+: bucketAdmissible fmt entries descriptor.bucket ∧
      (storedEntries fmt (writeAll run.dht plan.writes) [descriptor]).Perm kept := by
  obtain ⟨bucket, hbucket, hof, page, hpage, hentries⟩ :=
    hplan.stored_contents fmt h collisions hdescriptor
  obtain ⟨-, -, hsort⟩ := mem_bucketRecordTableEntries fmt hbucket
  refine ⟨bucketEntries fmt entries bucket.1, hof ▸ bucketEntries_leads fmt entries bucket.1, ?_⟩
  rw [storedEntries, List.flatMap_singleton, hpage, Option.elim_some, hentries, hsort]
  exact List.perm_insertionSort _ _

/-- In every run and for all entries, a publication can be planned, fits its pages and passes the
checks of a reader. Where no two of the pages hashed in the run collide, the entries published are
distinct, and in each bucket they are the leading ones that may be published. -/
theorem publication_passes_checks {run : TableRun Key} (reached : (tableSystem fmt).Reachable run)
    (entries : List (RecordTableEntry Key)) :
    ∃ plan, planPublish fmt run.publisher entries = .ok plan ∧
      (∀ write ∈ plan.writes, write.2.length ≤ recordTableMaxPageBytes) ∧
      (∀ now, validateRecordTableManifest fmt (buildManifest fmt run.publisher plan now) = .ok ()) ∧
      (∀ descriptor ∈ plan.descriptors, ∃ page,
        storedPage fmt (writeAll run.dht plan.writes) descriptor = some page ∧
          validateRecordTablePage fmt page descriptor = .ok ()) ∧
      (NoCollisions fmt (run.hashed ++ plannedPages fmt run.publisher entries) →
        ((storedEntries fmt (writeAll run.dht plan.writes) plan.descriptors).map fun entry =>
          fmt.keys.text entry.theirAddress).Nodup ∧
        ∀ descriptor ∈ plan.descriptors, ∃ kept,
          kept <+: bucketAdmissible fmt entries descriptor.bucket ∧
            (storedEntries fmt (writeAll run.dht plan.writes) [descriptor]).Perm kept) := by
  have h := (runSound fmt).holds reached
  obtain ⟨plan, hplan, hsound⟩ := planPublish_sound fmt (h.publisherSound fmt) entries
  refine ⟨plan, hplan, fun write hwrite => ?_, fun now => ?_, fun descriptor hdescriptor => ?_,
    fun collisions => ⟨hsound.distinct_entries fmt h collisions, fun descriptor hdescriptor =>
      hsound.leading_entries fmt h collisions hdescriptor⟩⟩
  · obtain ⟨-, bucket, hbucket, heq⟩ := hsound.fresh write hwrite
    obtain ⟨-, hkept, hsort⟩ := mem_bucketRecordTableEntries fmt hbucket
    have hfits := bucketEntries_fitting fmt hkept
    rw [← hsort] at hfits
    rw [heq]
    exact hfits.short _ rfl
  · exact (validateRecordTableManifest_ok_iff fmt).mpr (hsound.valid now)
  · obtain ⟨page, -, hvalue, hdescribes⟩ := hsound.stored fmt h descriptor hdescriptor
    exact ⟨page, storedPage_of_describes fmt hvalue hdescribes
      ((hsound.valid 0).within descriptor hdescriptor).size, hdescribes.valid⟩

end Runs

/-! ## A sample run -/

namespace Sample

inductive Peer
  | first
  | second
  deriving DecidableEq

def Peer.text : Peer → String
  | .first => "VLD0:9C9jBokYTHBBBaq7aev39a9ujPVCCzGLE0-Tx_N7FyQ"
  | .second => "VLD0:AAAAAAAAAAAAAAAAAAAAAAAAAAAAAAAAAAAAAAAAAAA"

def peers : RecordKeys Peer where
  text := Peer.text
  parse text := [Peer.first, .second].find? fun peer => peer.text = text
  parse_text peer := by cases peer <;> decide
  text_short peer := by cases peer <;> decide

def address : Codec Peer :=
  Codec.bool.imap (fun isFirst => if isFirst then .first else .second)
    (fun peer => decide (peer = .first)) fun peer => by cases peer <;> rfl

/-- A polynomial in the bytes, modulo a prime. -/
def polynomial (bytes : Bytes) : Digest :=
  ⟨Codec.leBytes 32 (bytes.foldl (fun value byte => (value * 257 + byte.toNat + 1) %
      57896044618658097711785492504343953926634992332820282019728792003956564819949) 7),
    Codec.leBytes_length _ _⟩

def format : TableFormat Peer := ⟨peers, address, polynomial⟩

def entry (peer : Peer) (lastSeen : UInt64) : RecordTableEntry Peer where
  theirAddress := peer
  accountCreatedAt := 1
  lastUpdate := 1
  appBloom := ⟨0⟩
  mailboxRange := (3, 9)
  mailboxInlist := (0, 0, 0, 0)
  routingtableMinhash := (0, 0, 0, 0)
  firstSeen := 1
  lastSeen := lastSeen
  seenIn := []

/-- A publication of one page that goes through. -/
def publish (entries : List (RecordTableEntry Peer)) : List (TableEvent Peer) :=
  [.start entries, .writePage 0 .stored, .readBack fun _ => none, .writeManifest 100 .stored none]

/-- The state after events that can take place. -/
def after (events : List (TableEvent Peer))
    (h : (LabelledSystem.run (TableRun.next format) {} events).isSome) : TableRun Peer :=
  (LabelledSystem.run (TableRun.next format) {} events).get h

theorem reachable_after (events : List (TableEvent Peer))
    (h : (LabelledSystem.run (TableRun.next format) {} events).isSome) :
    (tableSystem format).Reachable (after events h) :=
  LabelledSystem.Reachable.run (.start rfl) (Option.some_get _).symm

def published : TableRun Peer := after (publish [entry .first 1]) (by decide +kernel)

instance {Key : Type} [DecidableEq Key] (fmt : TableFormat Key)
    (pages : List (RecordTablePage Key)) : Decidable (NoCollisions fmt pages) :=
  inferInstanceAs (Decidable (∀ page ∈ pages, ∀ page' ∈ pages,
    recordTablePageDigest fmt page = recordTablePageDigest fmt page' →
      page.unsigned = page'.unsigned))

/-- The second publication keeps the page of one bucket and adds one. -/
theorem publication_passes_checks_second :
    ∃ plan, planPublish format published.publisher [entry .second 2, entry .first 1] = .ok plan ∧
      (∀ write ∈ plan.writes, write.2.length ≤ recordTableMaxPageBytes) ∧
      (∀ now, validateRecordTableManifest format (buildManifest format published.publisher plan
        now) = .ok ()) ∧
      ((storedEntries format (writeAll published.dht plan.writes) plan.descriptors).map
        fun entry => entry.theirAddress.text).Nodup := by
  have reached : (tableSystem format).Reachable published := reachable_after _ _
  have collisions : NoCollisions format (published.hashed ++
      plannedPages format published.publisher [entry .second 2, entry .first 1]) := by
    decide +kernel
  obtain ⟨plan, hplan, hshort, hvalid, -, hcontents⟩ :=
    publication_passes_checks format reached [entry .second 2, entry .first 1]
  exact ⟨plan, hplan, hshort, hvalid, (hcontents collisions).1⟩

end Sample

end VeilKnit.WalkTask
