import VeilKnit.WalkTask.TableReads

/-!
# Which table a reader obtains

While nothing is in progress, and every read is answered, a reader obtains the table of the
manifest that it prefers, that of the higher generation. This is the table of the last publication
to succeed if the publisher numbers its generations from the manifest that readers prefer. After a
restart that could not read the record it does not: it begins again at generation one.
-/

namespace VeilKnit.WalkTask

open Library Types

section Freshness

variable {Key : Type} (fmt : TableFormat Key)

/-! ## The preferred manifest -/

/-- The manifest that readers prefer. -/
def preferred (dht : Subkey → Bytes) : Option (Subkey × RecordTableManifest) :=
  (validRecordTableManifests fmt (recordValues dht)).head?

def otherSlot (slot : Subkey) : Subkey :=
  if slot = recordTableManifestSlotA then recordTableManifestSlotB else recordTableManifestSlotA

theorem validRecordTableManifests_congr {values values' : Values}
    (hA : slotManifest fmt values recordTableManifestSlotA =
      slotManifest fmt values' recordTableManifestSlotA)
    (hB : slotManifest fmt values recordTableManifestSlotB =
      slotManifest fmt values' recordTableManifestSlotB) :
    validRecordTableManifests fmt values = validRecordTableManifests fmt values' := by
  rw [validRecordTableManifests_eq, validRecordTableManifests_eq]
  simp only [List.filterMap_cons, List.filterMap_nil, hA, hB]

variable {slot : Subkey} {manifest : RecordTableManifest}

/-- A manifest is preferred to the one in the other slot if its generation is higher; slot A wins
a tie. -/
theorem head_validRecordTableManifests {values : Values}
    (hslot : slot = recordTableManifestSlotA ∨ slot = recordTableManifestSlotB)
    (hmanifest : slotManifest fmt values slot = some manifest)
    (hother : ∀ other, slotManifest fmt values (otherSlot slot) = some other →
      other.generation ≤ manifest.generation ∧
        (other.generation = manifest.generation → slot = recordTableManifestSlotA)) :
    (validRecordTableManifests fmt values).head? = some (slot, manifest) := by
  rw [validRecordTableManifests_eq]
  rcases hslot with rfl | rfl
  · have hother : ∀ other, slotManifest fmt values recordTableManifestSlotB = some other → _ :=
      hother
    cases hB : slotManifest fmt values recordTableManifestSlotB with
    | none => simp [hmanifest, hB]
    | some other =>
      have hle := (hother other hB).1
      simp [hmanifest, hB, hle]
  have hother : ∀ other, slotManifest fmt values recordTableManifestSlotA = some other → _ := hother
  cases hA : slotManifest fmt values recordTableManifestSlotA with
  | none => simp [hmanifest, hA]
  | some other =>
    obtain ⟨hle, hne⟩ := hother other hA
    have hlt : ¬ manifest.generation ≤ other.generation := fun hge =>
      absurd (hne (UInt64.le_antisymm hle hge)) (by decide)
    simp [hmanifest, hA, hlt]

variable {dht dht' : Subkey → Bytes}

theorem slotManifest_recordValues_congr (h : dht' slot = dht slot) :
    slotManifest fmt (recordValues dht') slot = slotManifest fmt (recordValues dht) slot := by
  have hvalue : recordValues dht' slot = recordValues dht slot := by
    rw [recordValues, readValues, h]
    rfl
  rw [slotManifest, hvalue, slotManifest]

/-- Only the slots matter. -/
theorem preferred_congr (h : ∀ slot, slot ∉ pageSubkeys → dht' slot = dht slot) :
    preferred fmt dht' = preferred fmt dht :=
  congrArg List.head? (validRecordTableManifests_congr fmt
    (slotManifest_recordValues_congr fmt (h _ slots_not_pages.1))
    (slotManifest_recordValues_congr fmt (h _ slots_not_pages.2)))

theorem preferred_spec (h : preferred fmt dht = some (slot, manifest)) :
    (slot = recordTableManifestSlotA ∨ slot = recordTableManifestSlotB) ∧
      slotManifest fmt (recordValues dht) slot = some manifest :=
  (mem_validRecordTableManifests fmt).mp (List.mem_of_head? h)

/-! ## A read that is answered -/

/-- The network answers every read with what the record holds. -/
structure AnswersCurrent (dht : Subkey → Bytes) (answers : ForeignAnswers) : Prop where
  base : ∃ results, answers.base = .ok results ∧ ∀ subkey,
    results subkey = .value (dht subkey) ∨ (isBlank (dht subkey) ∧ results subkey = .notFound)
  pages : ∀ slot, ∃ results, answers.pages slot = .ok results ∧ ∀ subkey,
    results subkey = .value (dht subkey) ∨ (isBlank (dht subkey) ∧ results subkey = .notFound)

theorem recordValues_eq (dht : Subkey → Bytes) (subkey : Subkey) :
    recordValues dht subkey = if isBlank (dht subkey) then none else some (dht subkey) := by
  change (some (dht subkey)).filter (fun bytes => ! isBlank bytes) = _
  rw [Option.filter_some]
  cases isBlank (dht subkey) <;> rfl

variable {results : Subkey → ReadResult}

theorem mergeSnapshotResults_current
    (h : ∀ subkey, results subkey = .value (dht subkey) ∨
      (isBlank (dht subkey) ∧ results subkey = .notFound))
    (snapshot : DhtSnapshot) (locations : List Subkey) (subkey : Subkey) :
    (mergeSnapshotResults snapshot locations results).values subkey =
      if subkey ∈ locations then recordValues dht subkey else snapshot.values subkey := by
  unfold mergeSnapshotResults
  induction locations generalizing snapshot with
  | nil => rfl
  | cons location locations ih =>
    rw [List.foldl_cons, ih]
    by_cases hmem : subkey ∈ locations
    · rw [if_pos hmem, if_pos (List.mem_cons_of_mem _ hmem)]
    rw [if_neg hmem]
    have hvalues : (mergeResult snapshot location (results location)).values =
        Function.update snapshot.values location (recordValues dht location) := by
      rw [recordValues_eq]
      rcases h location with hresult | ⟨hblank, hresult⟩
      · rw [hresult]
        rfl
      · rw [hresult, if_pos hblank]
        rfl
    rw [hvalues]
    by_cases hsame : subkey = location
    · subst hsame
      rw [if_pos List.mem_cons_self, Function.update_self]
    · rw [if_neg (by simp [hsame, hmem]), Function.update_of_ne hsame]

/-- Values of a record, of one slot only. -/
structure FromSlot (dht : Subkey → Bytes) (slot : Subkey) (values : Values) : Prop where
  held : ∀ subkey bytes, values subkey = some bytes → recordValues dht subkey = some bytes
  other : values (otherSlot slot) = none

section

variable (hslot : slot = recordTableManifestSlotA ∨ slot = recordTableManifestSlotB)

include hslot

theorem otherSlot_ne : otherSlot slot ≠ slot ∧
      (otherSlot slot = recordTableManifestSlotA ∨ otherSlot slot = recordTableManifestSlotB) := by
  rcases hslot with rfl | rfl <;> decide

theorem eq_of_ne_otherSlot {slot' : Subkey}
    (hslot' : slot' = recordTableManifestSlotA ∨ slot' = recordTableManifestSlotB)
    (h : slot' ≠ otherSlot slot) : slot' = slot := by
  rcases hslot with rfl | rfl <;> rcases hslot' with rfl | rfl <;> first | rfl | exact absurd rfl h

theorem retainSelectedManifest_fromSlot {snapshot : DhtSnapshot}
    (h : ∀ subkey bytes, snapshot.values subkey = some bytes →
      recordValues dht subkey = some bytes) :
    FromSlot dht slot (retainSelectedManifest snapshot slot).values := by
  obtain ⟨hne, hor⟩ := otherSlot_ne hslot
  exact ⟨fun subkey bytes hvalue => h subkey bytes (retainSelectedManifest_values hvalue),
    if_pos ⟨hor, hne⟩⟩

end

variable {pages : List (RecordTablePage Key)} {r : Reader Key}

/-- The first manifest, if its pages are there, is the one that is read. -/
theorem tryManifests_fromSlot {answers : ForeignAnswers}
    (current : AnswersCurrent dht answers) {snapshot : DhtSnapshot}
    (hsnapshot : ∀ subkey bytes, snapshot.values subkey = some bytes →
      recordValues dht subkey = some bytes)
    (hslot : slot = recordTableManifestSlotA ∨ slot = recordTableManifestSlotB)
    (valid : ManifestValid fmt manifest) (intact : Intact fmt dht pages manifest)
    (manifests : List (Subkey × RecordTableManifest)) :
    FromSlot dht slot
      (tryManifests fmt r answers snapshot ((slot, manifest) :: manifests)).values := by
  rw [tryManifests]
  split
  case isTrue => exact retainSelectedManifest_fromSlot hslot hsnapshot
  case isFalse =>
  dsimp only
  split
  case isTrue => exact retainSelectedManifest_fromSlot hslot hsnapshot
  case isFalse =>
  obtain ⟨results, hresults, hanswers⟩ := current.pages slot
  rw [hresults]
  dsimp only
  have hmerged := mergeSnapshotResults_current hanswers snapshot
    ((selectRecordTablePages fmt r.reader r.target manifest r.appFingerprint r.now).map (·.subkey))
  have hselected := selectRecordTablePages_subset fmt r.reader r.target manifest
    r.appFingerprint r.now
  -- Every page that is selected is there.
  have hok : validateLoadedRecordTablePages fmt
      (retainSelectedManifest (mergeSnapshotResults snapshot
        ((selectRecordTablePages fmt r.reader r.target manifest r.appFingerprint r.now).map
          (·.subkey)) results) slot).values
      (selectRecordTablePages fmt r.reader r.target manifest r.appFingerprint r.now) true =
        .ok () := by
    refine (validateLoadedRecordTablePages_ok_iff fmt).mpr fun descriptor hdescriptor => ?_
    have hmem := hselected hdescriptor
    obtain ⟨page, -, hvalue, hdescribes⟩ := intact descriptor hmem
    refine ⟨page, pageRead_of_describes fmt hdescribes (valid.within descriptor hmem).size ?_⟩
    have hpage := valid.pageSubkey fmt hmem
    refine (if_neg ?_).trans ((hmerged descriptor.subkey).trans
      ((if_pos (List.mem_map_of_mem hdescriptor)).trans
        (readValues_page fmt (congrArg Except.ok hvalue))))
    rintro ⟨hor, -⟩
    rcases hor with hor | hor
    · exact slots_not_pages.1 (hor ▸ hpage)
    · exact slots_not_pages.2 (hor ▸ hpage)
  rw [hok]
  refine retainSelectedManifest_fromSlot hslot fun subkey bytes hvalue => ?_
  rw [hmerged] at hvalue
  split at hvalue
  case isTrue => exact hvalue
  case isFalse => exact hsnapshot subkey bytes hvalue

theorem base_values
    (h : ∀ subkey, results subkey = .value (dht subkey) ∨
      (isBlank (dht subkey) ∧ results subkey = .notFound)) (subkey : Subkey) :
    (snapshotFromResults recordTableBaseLocations results).values subkey =
      if subkey ∈ recordTableBaseLocations then recordValues dht subkey else none :=
  mergeSnapshotResults_current h _ _ _

/-- A reader obtains entries of the pages of the preferred manifest. -/
theorem mem_foreignTable {answers : ForeignAnswers}
    (current : AnswersCurrent dht answers) (hpreferred : preferred fmt dht = some (slot, manifest))
    (intact : Intact fmt dht pages manifest)
    {entry : RecordTableEntry Key} (hentry : entry ∈ foreignTable fmt r answers) :
    ∃ descriptor ∈ manifest.pages, ∃ page, PageRead fmt (recordValues dht) descriptor page ∧
      entry ∈ page.entries := by
  obtain ⟨hslot, hmanifest⟩ := preferred_spec fmt hpreferred
  obtain ⟨-, -, -, hvalid⟩ := (slotManifest_eq_some fmt).mp hmanifest
  obtain ⟨results, hbase, hanswers⟩ := current.base
  have hvalues := base_values hanswers
  have hslotValues : ∀ k, k ∈ recordTableBaseLocations →
      slotManifest fmt (snapshotFromResults recordTableBaseLocations results).values k =
        slotManifest fmt (recordValues dht) k := by
    intro k hk
    rw [slotManifest, hvalues, if_pos hk, slotManifest]
  have hcandidates := validRecordTableManifests_congr fmt
    (hslotValues recordTableManifestSlotA (by decide))
    (hslotValues recordTableManifestSlotB (by decide))
  obtain ⟨manifests, hmanifests⟩ : ∃ manifests,
      validRecordTableManifests fmt (recordValues dht) = (slot, manifest) :: manifests := by
    obtain ⟨manifests, hcons⟩ := List.head?_eq_some_iff.mp hpreferred
    exact ⟨manifests, hcons⟩
  have hfrom : FromSlot dht slot (readForeign fmt r answers).values := by
    rw [readForeign, hbase]
    dsimp only
    rw [hcandidates, hmanifests]
    refine tryManifests_fromSlot fmt current (fun subkey bytes hvalue => ?_) hslot hvalid intact _
    rw [hvalues] at hvalue
    split at hvalue
    case isTrue => exact hvalue
    case isFalse => cases hvalue
  rcases decodeManifests_spec fmt with hempty | ⟨candidate, hcandidate, hentries⟩
  · have hentry : entry ∈ decodeManifests fmt _ _ := hentry
    rw [hempty] at hentry
    cases hentry
  obtain ⟨hslot', hmanifest'⟩ := (mem_validRecordTableManifests fmt).mp hcandidate
  obtain ⟨bytes, hvalue, hdecode, hvalid'⟩ := (slotManifest_eq_some fmt).mp hmanifest'
  have hsame : candidate.1 = slot := eq_of_ne_otherSlot hslot hslot' fun heq => by
    rw [heq, hfrom.other] at hvalue
    cases hvalue
  have hagree : candidate.2 = manifest := by
    have hheld := (slotManifest_eq_some fmt).mpr ⟨bytes, hfrom.held _ _ hvalue, hdecode, hvalid'⟩
    rw [hsame, hmanifest] at hheld
    exact (Option.some.inj hheld).symm
  obtain ⟨descriptor, hdescriptor, page, hread, hin⟩ := hentries entry hentry
  obtain ⟨⟨bytes', hvalue', hlength, hdecode'⟩, hvalidPage⟩ := hread
  exact ⟨descriptor, hagree ▸ hdescriptor, page,
    ⟨⟨bytes', hfrom.held _ _ hvalue', hlength, hdecode'⟩, hvalidPage⟩, hin⟩

/-! ## Runs in which the last publication is the one that is read -/

/-- The publication in progress has not written over the manifest that readers prefer. -/
def SparesPreferred (run : TableRun Key) : Prop :=
  ∀ attempt, run.attempt = some attempt → ∀ slot manifest,
    preferred fmt run.dht = some (slot, manifest) →
      ∀ descriptor ∈ manifest.pages, descriptor.subkey ∉ attempt.landed

/-- Readers will prefer the manifest of the next generation to the one in the other slot. -/
def Outranks (run : TableRun Key) : Prop :=
  ∀ other, slotManifest fmt (recordValues run.dht) (otherSlot (targetSlot run.publisher)) =
      some other →
    other.generation ≤ nextGeneration run.publisher ∧
      (other.generation = nextGeneration run.publisher →
        targetSlot run.publisher = recordTableManifestSlotA)

/-- What a step has to meet. A publication that finds its table unchanged finds that readers prefer
its current manifest. A publication that is completed outranks the manifest in the other slot. And
one that breaks off, after another has succeeded, has neither stored its manifest nor written over
the one that readers prefer. -/
def KeepsLast (run : TableRun Key) : TableEvent Key → Prop
  | .load _ _ => run.lastOk.isSome → SparesPreferred fmt run
  | .start entries => ∀ plan, planPublish fmt run.publisher entries = .ok plan →
      isUnchanged run.publisher plan →
      (preferred fmt run.dht).map Prod.snd = run.publisher.currentManifest
  | .writePage _ _ => True
  | .readBack failing => ∀ attempt, run.attempt = some attempt →
      attempt.failed ∨ ¬ (readBackPages fmt (answered run.dht failing) attempt.plan.writes).isOk →
      run.lastOk.isSome → SparesPreferred fmt run
  | .writeManifest _ outcome failing =>
    if outcome = .stored ∧ failing = none then Outranks fmt run
    else run.lastOk.isSome → outcome.landed = false ∧ SparesPreferred fmt run

/-- The page of a descriptor is in the record, and its entries are among some. -/
def Within (run : TableRun Key) (entries : List (RecordTableEntry Key))
    (descriptor : RecordTablePageDescriptor) : Prop :=
  ∃ page ∈ run.hashed, Describes fmt page descriptor ∧ page.entries ⊆ entries ∧
    ((∀ attempt, run.attempt = some attempt → descriptor.subkey ∉ attempt.landed) →
      run.dht descriptor.subkey = page.serialize fmt)

/-- Readers prefer the table of the last publication to succeed. -/
def LastPreferred (run : TableRun Key) : Prop :=
  ∀ entries, run.lastOk = some entries → ∃ slot manifest,
    preferred fmt run.dht = some (slot, manifest) ∧
      ∀ descriptor ∈ manifest.pages, Within fmt run entries descriptor

variable {entries : List (RecordTableEntry Key)}

theorem bucket_subset {bucket : UInt16 × List (RecordTableEntry Key)}
    (h : bucket ∈ bucketRecordTableEntries fmt entries) : bucket.2 ⊆ entries := by
  obtain ⟨-, -, hsort⟩ := mem_bucketRecordTableEntries fmt h
  intro entry hentry
  rw [hsort, sortByAddress, List.mem_insertionSort] at hentry
  have hadmissible := (bucketEntries_leads fmt entries bucket.1).subset hentry
  have hadmitted := (admissibleEntries_sublist fmt _ _).subset (List.mem_of_mem_filter hadmissible)
  exact List.mem_of_mem_take hadmitted

variable {run run' : TableRun Key} {plan : PublishPlan}

/-- The descriptors of a plan that is in the record. -/
theorem PlanSound.within (h : RunSound fmt run)
    (hplan : PlanSound fmt run.publisher entries plan) {later : TableRun Key}
    (collisions : NoCollisions fmt later.hashed) (hold : run.hashed ⊆ later.hashed)
    (hnew : plannedPages fmt run.publisher entries ⊆ later.hashed) (now : UInt64)
    (hintact : Intact fmt later.dht later.hashed (buildManifest fmt run.publisher plan now)) :
    ∀ descriptor ∈ plan.descriptors, Within fmt later entries descriptor := by
  intro descriptor hdescriptor
  have hcollisions := collisions.mono fmt (List.append_subset.mpr ⟨hold, hnew⟩)
  obtain ⟨bucket, hbucket, -, hplanned, hdescribes⟩ :=
    hplan.contents fmt (h.publisherSound fmt) hcollisions hdescriptor
  obtain ⟨page, hpage, hvalue, hsame⟩ := hintact descriptor hdescriptor
  obtain rfl := hsame.entries_eq fmt collisions hpage (hnew hplanned) hdescribes
  exact ⟨_, hpage, hdescribes, bucket_subset fmt hbucket, fun _ => hvalue⟩

theorem Within.mono {descriptor : RecordTablePageDescriptor} (h : Within fmt run entries descriptor)
    (hhashed : run.hashed ⊆ run'.hashed)
    (hdht : (∀ attempt, run'.attempt = some attempt → descriptor.subkey ∉ attempt.landed) →
      run'.dht descriptor.subkey = run.dht descriptor.subkey ∧
        ∀ attempt, run.attempt = some attempt → descriptor.subkey ∉ attempt.landed) :
    Within fmt run' entries descriptor := by
  obtain ⟨page, hpage, hdescribes, hentries, hvalue⟩ := h
  refine ⟨page, hhashed hpage, hdescribes, hentries, fun hlanded => ?_⟩
  obtain ⟨hsame, hbefore⟩ := hdht hlanded
  exact hsame.trans (hvalue hbefore)

/-- The publication in progress ends without touching the preferred manifest. -/
theorem LastPreferred.broken (h : LastPreferred fmt run)
    (hspares : run.lastOk.isSome → SparesPreferred fmt run) (publisher : RecordTablePublisher) :
    LastPreferred fmt { run with publisher := publisher, attempt := none } := by
  intro entries hlast
  have hlast : run.lastOk = some entries := hlast
  obtain ⟨slot, manifest, hpreferred, hwithin⟩ := h entries hlast
  refine ⟨slot, manifest, hpreferred, fun descriptor hdescriptor => ?_⟩
  refine (hwithin descriptor hdescriptor).mono fmt (List.Subset.refl _) fun _ => ⟨rfl, ?_⟩
  intro attempt hattempt
  exact hspares (hlast ▸ rfl) attempt hattempt slot manifest hpreferred descriptor hdescriptor

theorem preferred_putManifest (valid : ManifestValid fmt manifest)
    (hgeneration : manifest.generation = nextGeneration run.publisher) (hrank : Outranks fmt run) :
    preferred fmt (run.putManifest manifest).dht = some (targetSlot run.publisher, manifest) := by
  obtain ⟨hne, -⟩ := otherSlot_ne (targetSlot_eq run.publisher)
  refine head_validRecordTableManifests fmt (targetSlot_eq _) ?_ fun other hother => ?_
  · refine (slotManifest_eq_some fmt).mpr
      ⟨manifest.serialize, ?_, decodeManifest_serialize valid.few, valid⟩
    have hlong := (manifest_serialize_length valid.few).1
    have hvalue : (run.putManifest manifest).dht (targetSlot run.publisher) =
        manifest.serialize := Function.update_self ..
    have hblank : isBlank manifest.serialize = false := by
      rw [isBlank, List.isEmpty_eq_false_iff.mpr
        (List.ne_nil_of_length_pos (Nat.lt_of_succ_lt hlong)), Bool.false_or,
        decide_eq_false_iff_not]
      intro hzero
      rw [hzero, List.length_singleton] at hlong
      exact absurd hlong (lt_irrefl 1)
    rw [recordValues_eq, hvalue, hblank]
    rfl
  · have hkept : (run.putManifest manifest).dht (otherSlot (targetSlot run.publisher)) =
        run.dht (otherSlot (targetSlot run.publisher)) := Function.update_of_ne hne ..
    rw [slotManifest_recordValues_congr fmt hkept] at hother
    rw [hgeneration]
    exact hrank other hother

theorem LastPreferred.wrote (h : LastPreferred fmt run)
    {attempt : Attempt Key} (hattempt : run.attempt = some attempt) {i : Nat} {subkey : Subkey}
    (hsubkey : subkey ∈ pageSubkeys) (bytes : Bytes) (outcome : WriteOutcome) :
    LastPreferred fmt (run.writePage attempt i subkey bytes outcome) := by
  intro entries hlast
  have hlastOk : (run.writePage attempt i subkey bytes outcome).lastOk = run.lastOk := by
    unfold TableRun.writePage
    split <;> rfl
  obtain ⟨slot, manifest, hpreferred, hwithin⟩ := h entries (hlastOk.symm.trans hlast)
  refine ⟨slot, manifest, ?_, fun descriptor hdescriptor => ?_⟩
  · have hslots : ∀ k, k ∉ pageSubkeys →
        (run.writePage attempt i subkey bytes outcome).dht k = run.dht k := by
      intro k hk
      refine writePage_dht fun hsame => hk ?_
      rw [hsame]
      exact hsubkey
    rw [preferred_congr fmt hslots]
    exact hpreferred
  refine (hwithin descriptor hdescriptor).mono fmt
    (by rw [writePage_hashed]; exact List.Subset.refl _) fun hlanded => ?_
  have hnew := hlanded _ rfl
  dsimp only at hnew
  cases houtcome : outcome.landed with
  | false =>
    rw [houtcome, if_neg Bool.false_ne_true] at hnew
    refine ⟨?_, fun other hother => ?_⟩
    · simp [TableRun.writePage, houtcome]
    · cases hattempt.symm.trans hother
      exact hnew
  | true =>
    rw [houtcome, if_pos rfl, List.mem_cons, not_or] at hnew
    refine ⟨writePage_dht hnew.1, fun other hother => ?_⟩
    cases hattempt.symm.trans hother
    exact hnew.2

/-- A publication that finds its table unchanged leaves it to the current manifest. -/
theorem lastPreferred_unchanged (h : RunSound fmt run)
    (hplan : planPublish fmt run.publisher entries = .ok plan)
    (hsame : isUnchanged run.publisher plan)
    (hcurrent : (preferred fmt run.dht).map Prod.snd = run.publisher.currentManifest)
    (collisions : NoCollisions fmt (run.hashed ++ plannedPages fmt run.publisher entries)) :
    LastPreferred fmt
      { run with
        hashed := run.hashed ++ plannedPages fmt run.publisher entries
        lastOk := some entries } := by
  intro last hlast
  cases hlast
  obtain ⟨manifest, hmanifest, hequal⟩ := (Option.any_eq_true _ _).mp hsame
  simp only [Bool.and_eq_true, decide_eq_true_eq] at hequal
  rw [hmanifest] at hcurrent
  obtain ⟨⟨slot, preferredManifest⟩, hpreferred, rfl⟩ := Option.map_eq_some_iff.mp hcurrent
  refine ⟨slot, preferredManifest, hpreferred, fun descriptor hdescriptor => ?_⟩
  refine PlanSound.within fmt h (h.planned fmt hplan) collisions (List.subset_append_left _ _)
    (List.subset_append_right _ _) 0 (fun d hd => ?_) descriptor (hequal.2 ▸ hdescriptor)
  obtain ⟨page, hpage, hvalue⟩ := (h.current _ hmanifest).2 d (hequal.2.symm ▸ hd)
  exact ⟨page, List.mem_append_left _ hpage, hvalue⟩

variable {event : TableEvent Key}

theorem hashed_subset (hstep : run.Stepped fmt event run') : run.hashed ⊆ run'.hashed := by
  cases hstep with
  | loaded => exact List.Subset.refl _
  | refused => exact List.Subset.refl _
  | unchanged => exact List.subset_append_left _ _
  | begun => exact List.subset_append_left _ _
  | wrote => rw [writePage_hashed]; exact List.Subset.refl _
  | verified => exact List.Subset.refl _
  | unverified => exact List.Subset.refl _
  | unwritten => exact List.Subset.refl _
  | unconfirmed => exact List.Subset.refl _
  | published => exact List.Subset.refl _

variable {now : UInt64}

theorem KeepsLast.of_completed
    (h : KeepsLast fmt run (.writeManifest now .stored none)) : Outranks fmt run := by
  rw [KeepsLast, if_pos ⟨rfl, rfl⟩] at h
  exact h

theorem KeepsLast.of_broken {outcome : WriteOutcome}
    {failing : Option String} (h : KeepsLast fmt run (.writeManifest now outcome failing))
    (hbroken : outcome ≠ .stored ∨ failing ≠ none) :
    run.lastOk.isSome → outcome.landed = false ∧ SparesPreferred fmt run := by
  rw [KeepsLast, if_neg (by rwa [not_and_or])] at h
  exact h

theorem LastPreferred.step
    (hsound : RunSound fmt run) (h : LastPreferred fmt run) (guard : KeepsLast fmt run event)
    (hstep : run.Stepped fmt event run') (collisions : NoCollisions fmt run'.hashed) :
    LastPreferred fmt run' := by
  have hnext := hsound.step fmt hstep
  cases hstep with
  | loaded => exact h.broken fmt guard _
  | refused => exact h
  | unchanged _ hplan hsame =>
    exact lastPreferred_unchanged fmt hsound hplan hsame (guard _ hplan hsame) collisions
  | begun hidle hplan =>
    intro entries hlast
    obtain ⟨slot, manifest, hpreferred, hwithin⟩ := h entries hlast
    refine ⟨slot, manifest, hpreferred, fun descriptor hdescriptor => ?_⟩
    refine (hwithin descriptor hdescriptor).mono fmt (List.subset_append_left _ _) fun _ => ?_
    exact ⟨rfl, fun attempt hattempt => by rw [hidle] at hattempt; cases hattempt⟩
  | wrote hattempt htodo =>
    have hattemptSound := hsound.attempt _ hattempt
    have hfree := hattemptSound.plan.free _ (hattemptSound.todo (List.mem_of_getElem? htodo))
    exact h.wrote fmt hattempt (mem_freeSubkeys.mp hfree).1 _ _
  | verified hattempt =>
    intro entries hlast
    obtain ⟨slot, manifest, hpreferred, hwithin⟩ := h entries hlast
    refine ⟨slot, manifest, hpreferred, fun descriptor hdescriptor => ?_⟩
    refine (hwithin descriptor hdescriptor).mono fmt (List.Subset.refl _) fun hlanded => ?_
    refine ⟨rfl, fun other hother => ?_⟩
    cases hattempt.symm.trans hother
    have hbefore := hlanded _ rfl
    exact hbefore
  | unverified hattempt hbad => exact h.broken fmt (guard _ hattempt hbad) _
  | unwritten hattempt hbad =>
    rename_i now outcome failing attempt
    have hvalid := (validateRecordTableManifest_ok_iff fmt).mpr
      ((hsound.attempt _ hattempt).plan.valid now)
    have hunlanded := hbad.resolve_left (not_not_intro (isOk_iff.mpr ⟨_, hvalid⟩))
    have hnotStored : outcome ≠ .stored := by
      rintro rfl
      cases hunlanded
    exact h.broken fmt (fun hlast => (guard.of_broken fmt (.inl hnotStored) hlast).2) _
  | unconfirmed hattempt _ hlanded hneither =>
    intro entries hlast
    have hlast : run.lastOk = some entries := hlast
    have hunlanded := (guard.of_broken fmt hneither (hlast ▸ rfl)).1
    rw [hunlanded] at hlanded
    cases hlanded
  | published hattempt hverified =>
    rename_i now attempt
    have hattemptSound := hsound.attempt _ hattempt
    have hrank := guard.of_completed fmt
    intro entries hlast
    cases hlast
    refine ⟨_, _, preferred_putManifest fmt (hattemptSound.plan.valid now)
      hattemptSound.plan.generation hrank, ?_⟩
    exact PlanSound.within fmt hsound hattemptSound.plan collisions (List.Subset.refl _)
      hattemptSound.hashed now (hnext.current _ rfl).2

theorem lastPreferred (reached : ((tableSystem fmt).restrict (KeepsLast fmt)).Reachable run)
    (collisions : NoCollisions fmt run.hashed) : LastPreferred fmt run := by
  suffices h : NoCollisions fmt run.hashed → LastPreferred fmt run from h collisions
  refine (runSound fmt).holds_within (P := fun run => NoCollisions fmt run.hashed →
    LastPreferred fmt run) ?_ ?_ reached
  · intro s hs _ entries hlast
    obtain rfl := hs
    cases hlast
  · intro s event t hsound h guard hstep hcollisions
    have hstepped := stepped_of_next fmt hstep
    have hbefore := hcollisions.mono fmt (hashed_subset fmt hstepped)
    exact LastPreferred.step fmt hsound (h hbefore) guard hstepped hcollisions

/-- In every run whose steps keep to the condition, while nothing is in progress a read that is
answered gives entries of the last publication to succeed, whatever pages it selects. -/
theorem read_gives_last_publication {run : TableRun Key}
    (reached : ((tableSystem fmt).restrict (KeepsLast fmt)).Reachable run)
    (collisions : NoCollisions fmt run.hashed) (idle : run.attempt = none)
    {entries : List (RecordTableEntry Key)} (last : run.lastOk = some entries) (r : Reader Key)
    {answers : ForeignAnswers} (current : AnswersCurrent run.dht answers) :
    foreignTable fmt r answers ⊆ entries := by
  have hsound := (runSound fmt).holds reached.of_restrict
  obtain ⟨slot, manifest, hpreferred, hwithin⟩ := lastPreferred fmt reached collisions entries last
  have hidle : ∀ attempt, run.attempt = some attempt → False := fun attempt hattempt => by
    rw [idle] at hattempt
    cases hattempt
  have hintact : Intact fmt run.dht run.hashed manifest := by
    intro descriptor hdescriptor
    obtain ⟨page, hpage, hdescribes, -, hvalue⟩ := hwithin descriptor hdescriptor
    exact ⟨page, hpage, hvalue fun attempt hattempt => (hidle attempt hattempt).elim, hdescribes⟩
  obtain ⟨-, hmanifest⟩ := preferred_spec fmt hpreferred
  obtain ⟨-, -, -, hvalid⟩ := (slotManifest_eq_some fmt).mp hmanifest
  intro entry hentry
  obtain ⟨descriptor, hdescriptor, page, hread, hin⟩ :=
    mem_foreignTable fmt current hpreferred hintact hentry
  have hheld : ∀ subkey bytes, recordValues run.dht subkey = some bytes →
      (subkey, bytes) ∈ run.held := fun subkey bytes hvalue =>
    @RunSound.held_of_answered _ fmt run subkey bytes hsound (fun _ => none) hvalue
  obtain ⟨hpage, -, hdescribes⟩ := hsound.page_of_read fmt hheld hvalid hdescriptor hread
  obtain ⟨page', hpage', hdescribes', hsubset, -⟩ := hwithin descriptor hdescriptor
  obtain rfl := hdescribes.entries_eq fmt collisions hpage hpage' hdescribes'
  exact hsubset hin

/-! ## The conditions are decidable -/

theorem toOption_eq_some {E A : Type} {result : Except E A} {a : A} :
    result.toOption = some a ↔ result = .ok a := by
  cases result with
  | ok b => simp [Except.toOption]
  | error e => simp [Except.toOption]

instance decidableSparesPreferred (run : TableRun Key) : Decidable (SparesPreferred fmt run) :=
  decidable_of_iff (∀ attempt ∈ run.attempt, ∀ candidate ∈ preferred fmt run.dht,
    ∀ descriptor ∈ candidate.2.pages, descriptor.subkey ∉ attempt.landed)
    ⟨fun h attempt hattempt slot manifest hpreferred =>
      h attempt hattempt (slot, manifest) hpreferred,
      fun h attempt hattempt candidate hcandidate =>
      h attempt hattempt candidate.1 candidate.2 hcandidate⟩

instance decidableOutranks (run : TableRun Key) : Decidable (Outranks fmt run) :=
  inferInstanceAs (Decidable (∀ other ∈ slotManifest fmt (recordValues run.dht)
      (otherSlot (targetSlot run.publisher)),
    other.generation ≤ nextGeneration run.publisher ∧
      (other.generation = nextGeneration run.publisher →
        targetSlot run.publisher = recordTableManifestSlotA)))

instance decidableKeepsLast (run : TableRun Key) : ∀ event, Decidable (KeepsLast fmt run event)
  | .load _ _ => inferInstanceAs (Decidable (run.lastOk.isSome → SparesPreferred fmt run))
  | .start entries =>
    decidable_of_iff (∀ plan ∈ (planPublish fmt run.publisher entries).toOption,
      isUnchanged run.publisher plan →
        (preferred fmt run.dht).map Prod.snd = run.publisher.currentManifest)
      ⟨fun h plan hplan => h plan (toOption_eq_some.mpr hplan),
        fun h plan hplan => h plan (toOption_eq_some.mp hplan)⟩
  | .writePage _ _ => isTrue trivial
  | .readBack failing => inferInstanceAs (Decidable (∀ attempt ∈ run.attempt,
      attempt.failed ∨ ¬ (readBackPages fmt (answered run.dht failing) attempt.plan.writes).isOk →
      run.lastOk.isSome → SparesPreferred fmt run))
  | .writeManifest _ outcome failing =>
    inferInstanceAs (Decidable (if outcome = .stored ∧ failing = none then Outranks fmt run
      else run.lastOk.isSome → outcome.landed = false ∧ SparesPreferred fmt run))

end Freshness

namespace Sample

/-- A network that answers every read. -/
def answers (run : TableRun Peer) : ForeignAnswers where
  base := .ok fun subkey => .value (run.dht subkey)
  pages _ := .ok fun subkey => .value (run.dht subkey)

theorem answers_current (run : TableRun Peer) : AnswersCurrent run.dht (answers run) :=
  ⟨⟨_, rfl, fun _ => .inl rfl⟩, fun _ => ⟨_, rfl, fun _ => .inl rfl⟩⟩

/-- Two publications, a restart at which both slots fail to be read, and a third publication. -/
def renumbered : TableRun Peer :=
  after (publish [entry .first 1] ++ publish [entry .first 2] ++
    [.load (fun _ => some "timeout") fun _ _ => none] ++ publish [entry .first 3])
    (by decide +kernel)

/-- The third publication has succeeded, and readers obtain the second one. -/
theorem renumbered_stays_hidden :
    ¬ ∀ (run : TableRun Peer) (entries : List (RecordTableEntry Peer)) (r : Reader Peer)
        (answers : ForeignAnswers), (tableSystem format).Reachable run → run.attempt = none →
      run.lastOk = some entries → AnswersCurrent run.dht answers →
      foreignTable format r answers ⊆ entries := by
  intro h
  have hidle : renumbered.attempt = none := by decide +kernel
  have hlast : renumbered.lastOk = some [entry .first 3] := by decide +kernel
  have hread : entry .first 2 ∈ foreignTable format reader (answers renumbered) := by
    decide +kernel
  have hsubset := h renumbered [entry .first 3] reader (answers renumbered) (reachable_after _ _)
    hidle hlast (answers_current _)
  exact absurd (hsubset hread) (by decide +kernel)

/-- Two publications and a restart that reads the record, between them one that breaks off. -/
def orderly : List (TableEvent Peer) :=
  publish [entry .first 1] ++ [.start [entry .first 4], .writePage 0 (.failed "timeout" true),
    .load (fun _ => none) fun _ _ => none] ++ publish [entry .first 2]

def inOrder : TableRun Peer :=
  (LabelledSystem.runWithin (TableRun.next format) (KeepsLast format) {} orderly).get
    (by decide +kernel)

theorem read_gives_last_publication_inOrder :
    foreignTable format reader (answers inOrder) ⊆ [entry .first 2] := by
  have hreached : ((tableSystem format).restrict (KeepsLast format)).Reachable inOrder :=
    LabelledSystem.Reachable.runWithin (.start rfl) (Option.some_get _).symm
  have hcollisions : NoCollisions format inOrder.hashed := by decide +kernel
  have hidle : inOrder.attempt = none := by decide +kernel
  have hlast : inOrder.lastOk = some [entry .first 2] := by decide +kernel
  exact read_gives_last_publication format hreached hcollisions hidle hlast reader
    (answers_current inOrder)

end Sample

end VeilKnit.WalkTask
