import VeilKnit.WalkTask.PublisherRuns

/-!
# What readers see of the record table

A reader takes the manifests first and the pages later, while the publisher goes on. Its table
comes from one manifest all the same, because a page is accepted only for the digest in its
descriptor. Whether the pages are still there when they are read depends on the publications in
between: the publisher spares the pages of its current and its previous manifest, and of no other.

Which table a reader obtains while nothing is in progress depends on which manifest it prefers.
Restarts that could not read the record number their publications from the beginning, and what
they publish may stay hidden behind an older manifest.
-/

namespace VeilKnit.WalkTask

open Library Types

section Readers

variable {Key : Type} (fmt : TableFormat Key)

/-! ## One manifest -/

/-- The network answers with values that have been held at some time, or not at all. -/
structure AnswersHeld (held : List (Subkey × Bytes)) (answers : ForeignAnswers) : Prop where
  base : ∀ results, answers.base = .ok results → ∀ subkey bytes,
    results subkey = .value bytes → isBlank bytes ∨ (subkey, bytes) ∈ held
  pages : ∀ slot results, answers.pages slot = .ok results → ∀ subkey bytes,
    results subkey = .value bytes → isBlank bytes ∨ (subkey, bytes) ∈ held

variable {subkey : Subkey} {bytes : Bytes} {answers : ForeignAnswers}

theorem AnswersHeld.of_answered {held : List (Subkey × Bytes)} (h : AnswersHeld held answers)
    (hanswered : Answered answers subkey bytes) : (subkey, bytes) ∈ held := by
  obtain ⟨hanswer, hwritten⟩ := hanswered
  have hblank : ¬ isBlank bytes := by rw [hwritten]; exact Bool.false_ne_true
  rcases hanswer with ⟨results, hbase, hvalue⟩ | ⟨slot, results, hpages, hvalue⟩
  · exact (h.base results hbase subkey bytes hvalue).resolve_left hblank
  · exact (h.pages slot results hpages subkey bytes hvalue).resolve_left hblank

variable {run run' later : TableRun Key}

/-- The table comes from pages of one manifest that has been written. -/
theorem RunSound.foreignTable_spec (h : RunSound fmt run) (r : Reader Key)
    (held : AnswersHeld run.held answers) :
    foreignTable fmt r answers = [] ∨ ∃ manifest ∈ run.manifests,
      ∀ entry ∈ foreignTable fmt r answers, ∃ descriptor ∈ manifest.pages,
        ∃ page ∈ run.hashed, Describes fmt page descriptor ∧ entry ∈ page.entries := by
  have hvalues : ∀ subkey bytes, (readForeign fmt r answers).values subkey = some bytes →
      (subkey, bytes) ∈ run.held :=
    fun _ _ hvalue => held.of_answered (readForeign_values fmt hvalue)
  refine (decodeManifests_spec fmt).imp_right fun ⟨candidate, hcandidate, hentries⟩ => ?_
  obtain ⟨hslot, hmanifest⟩ := (mem_validRecordTableManifests fmt).mp hcandidate
  obtain ⟨bytes, hvalue, hdecode, hvalid⟩ := (slotManifest_eq_some fmt).mp hmanifest
  refine ⟨candidate.2, h.manifest_of_held fmt (hvalues _ _ hvalue) hslot hdecode, ?_⟩
  intro entry hentry
  obtain ⟨descriptor, hdescriptor, page, hread, hmem⟩ := hentries entry hentry
  obtain ⟨hpage, -, hdescribes⟩ := h.page_of_read fmt hvalues hvalid hdescriptor hread
  exact ⟨descriptor, hdescriptor, page, hpage, hdescribes, hmem⟩

/-! ## Pages that stay -/

/-- The publications that begin find a manifest as the publisher's current or previous one. -/
def Spares (manifest : RecordTableManifest) (run : TableRun Key) : TableEvent Key → Prop
  | .start _ => run.publisher.currentManifest = some manifest ∨
      run.publisher.previousManifest = some manifest
  | _ => True

/-- The runs that go on from a state and spare a manifest. -/
def sparing (run : TableRun Key) (manifest : RecordTableManifest) :
    LabelledSystem (TableRun Key) (TableEvent Key) :=
  (LabelledSystem.ofFunction run (TableRun.next fmt)).restrict (Spares manifest)

/-- The pages of a manifest are intact, and no publication in progress writes to them. -/
structure Spared (manifest : RecordTableManifest) (run : TableRun Key) : Prop where
  sound : RunSound fmt run
  intact : Intact fmt run.dht run.hashed manifest
  apart : ∀ attempt, run.attempt = some attempt → ∀ write ∈ attempt.plan.writes,
    write.1.subkey ∉ manifest.pages.map (·.subkey)

variable {manifest : RecordTableManifest} {publisher : RecordTablePublisher}

theorem unavailable_of_known
    (h : publisher.currentManifest = some manifest ∨ publisher.previousManifest = some manifest)
    (hsubkey : subkey ∈ manifest.pages.map (·.subkey)) :
    subkey ∈ unavailable publisher := by
  refine List.mem_flatMap.mpr ⟨manifest, ?_, hsubkey⟩
  rcases h with h | h
  · exact List.mem_append_left _ (Option.mem_toList.mpr h)
  · exact List.mem_append_right _ (Option.mem_toList.mpr h)

theorem PlanSound.apart {entries : List (RecordTableEntry Key)}
    {plan : PublishPlan} (h : PlanSound fmt publisher entries plan)
    (hknown : publisher.currentManifest = some manifest ∨
      publisher.previousManifest = some manifest) :
    ∀ write ∈ plan.writes, write.1.subkey ∉ manifest.pages.map (·.subkey) :=
  fun write hwrite hmem =>
    (mem_freeSubkeys.mp (h.free write hwrite)).2 (unavailable_of_known hknown hmem)

/-- A manifest that is written leaves pages alone. -/
theorem Intact.putManifest
    (valid : ManifestValid fmt manifest) (h : Intact fmt run.dht run.hashed manifest)
    (written : RecordTableManifest) :
    Intact fmt (run.putManifest written).dht (run.putManifest written).hashed manifest := by
  refine h.mono fmt (fun descriptor hdescriptor => ?_) (List.Subset.refl _)
  refine Function.update_of_ne (fun hsame => ?_) _ _
  have hpage := valid.pageSubkey fmt hdescriptor
  rcases targetSlot_eq run.publisher with hslot | hslot
  · exact slots_not_pages.1 (hslot ▸ hsame ▸ hpage)
  · exact slots_not_pages.2 (hslot ▸ hsame ▸ hpage)

variable {attempt : Attempt Key} {outcome : WriteOutcome}

/-- The record, where no page has landed. -/
theorem writePage_dht {i : Nat} {k : Subkey} (h : k ≠ subkey) :
    (run.writePage attempt i subkey bytes outcome).dht k = run.dht k := by
  unfold TableRun.writePage
  split
  case isTrue => exact Function.update_of_ne h ..
  case isFalse => rfl

theorem writePage_hashed {i : Nat} :
    (run.writePage attempt i subkey bytes outcome).hashed = run.hashed := by
  unfold TableRun.writePage
  split <;> rfl

variable {event : TableEvent Key}

theorem Spared.step (valid : ManifestValid fmt manifest) (h : Spared fmt manifest run)
    (guard : Spares manifest run event) (hstep : run.Stepped fmt event run') :
    Spared fmt manifest run' := by
  refine ⟨h.sound.step fmt hstep, ?_, ?_⟩
  · cases hstep with
    | loaded => exact h.intact
    | refused => exact h.intact
    | unchanged => exact h.intact.mono fmt (fun _ _ => rfl) (List.subset_append_left _ _)
    | begun => exact h.intact.mono fmt (fun _ _ => rfl) (List.subset_append_left _ _)
    | wrote hattempt htodo =>
      rename_i attempt descriptor bytes
      have hwrite := (h.sound.attempt _ hattempt).todo (List.mem_of_getElem? htodo)
      rw [writePage_hashed]
      refine h.intact.mono fmt (fun d hd => writePage_dht fun hsame => ?_) (List.Subset.refl _)
      exact h.apart _ hattempt _ hwrite (List.mem_map.mpr ⟨d, hd, hsame⟩)
    | verified => exact h.intact
    | unverified => exact h.intact
    | unwritten => exact h.intact
    | unconfirmed => exact h.intact.putManifest fmt valid _
    | published => exact h.intact.putManifest fmt valid _
  intro attempt hattempt
  cases hstep with
  | loaded => cases hattempt
  | refused => exact h.apart attempt hattempt
  | unchanged => exact h.apart attempt hattempt
  | begun hidle hplan =>
    cases hattempt
    exact (h.sound.planned fmt hplan).apart fmt guard
  | wrote hold htodo =>
    cases hattempt
    have hapart := h.apart _ hold
    exact hapart
  | verified hold =>
    cases hattempt
    have hapart := h.apart _ hold
    exact hapart
  | unverified => cases hattempt
  | unwritten => cases hattempt
  | unconfirmed => cases hattempt
  | published => cases hattempt

theorem spared (h : RunSound fmt run) (hknown : run.publisher.currentManifest = some manifest ∨
      run.publisher.previousManifest = some manifest)
    (reached : (sparing fmt run manifest).Reachable later) :
    Spared fmt manifest later := by
  have hsound : ManifestValid fmt manifest ∧ Intact fmt run.dht run.hashed manifest := by
    rcases hknown with hknown | hknown
    · exact ⟨((h.publisherSound fmt).current _ hknown).valid, (h.current _ hknown).2⟩
    · exact ⟨((h.publisherSound fmt).previous _ hknown).valid, (h.previous _ hknown).2⟩
  have hinvariant : (sparing fmt run manifest).Invariant (Spared fmt manifest) := by
    refine ⟨fun s hs => ?_, fun s event t hs hstep =>
      hs.step fmt hsound.1 hstep.1 (stepped_of_next fmt hstep.2)⟩
    obtain rfl := hs
    exact ⟨h, hsound.2, fun attempt hattempt => (h.attempt _ hattempt).plan.apart fmt hknown⟩
  exact hinvariant.holds reached

/-- The values of subkeys that have been read at different times. -/
def viewed (views : Subkey → TableRun Key) : Values :=
  readValues fun subkey => .ok ((views subkey).dht subkey)

theorem serialize_not_blank (page : RecordTablePage Key) : isBlank (page.serialize fmt) = false := by
  have hlength := serialize_length fmt page
  rw [pageHeaderSize] at hlength
  have hempty : (page.serialize fmt).isEmpty = false := by
    rw [List.isEmpty_eq_false_iff]
    intro hnil
    rw [hnil, List.length_nil] at hlength
    omega
  rw [isBlank, hempty, Bool.false_or, decide_eq_false_iff_not]
  intro hzero
  rw [hzero, List.length_singleton] at hlength
  omega

theorem readValues_page {read : Subkey → Except String Bytes}
    {page : RecordTablePage Key} (h : read subkey = .ok (page.serialize fmt)) :
    readValues read subkey = some (page.serialize fmt) := by
  rw [readValues, h]
  exact Option.filter_some_pos (by rw [serialize_not_blank]; rfl)

theorem spared_validates (h : RunSound fmt run)
    (hknown : run.publisher.currentManifest = some manifest ∨
      run.publisher.previousManifest = some manifest)
    {views : Subkey → TableRun Key}
    (reached : ∀ subkey, (sparing fmt run manifest).Reachable (views subkey))
    {selected : List RecordTablePageDescriptor} (hselected : selected ⊆ manifest.pages) :
    validateLoadedRecordTablePages fmt (viewed views) selected true = .ok () := by
  have hvalid : ManifestValid fmt manifest := by
    rcases hknown with hknown | hknown
    · exact ((h.publisherSound fmt).current _ hknown).valid
    · exact ((h.publisherSound fmt).previous _ hknown).valid
  refine (validateLoadedRecordTablePages_ok_iff fmt).mpr fun descriptor hdescriptor => ?_
  have hmem := hselected hdescriptor
  obtain ⟨page, -, hvalue, hdescribes⟩ :=
    (spared fmt h hknown (reached descriptor.subkey)).intact descriptor hmem
  exact ⟨page, pageRead_of_describes fmt hdescribes (hvalid.within descriptor hmem).size
    (readValues_page fmt (congrArg Except.ok hvalue))⟩

/-- No restart, and no publication begins after two have been completed. -/
def AtMostTwo (start : Nat) (run : TableRun Key) : TableEvent Key → Prop
  | .load _ _ => False
  | .start _ => run.completed ≤ start + 1
  | _ => True

/-- The runs that go on from a state in this way. -/
def undisturbed (run : TableRun Key) : LabelledSystem (TableRun Key) (TableEvent Key) :=
  (LabelledSystem.ofFunction run (TableRun.next fmt)).restrict (AtMostTwo run.completed)

/-- The manifest is first the current one, then the previous one, then unknown. -/
structure Ageing (manifest : RecordTableManifest) (start : Nat) (run : TableRun Key) : Prop where
  not_before : start ≤ run.completed
  current : run.completed = start → run.publisher.currentManifest = some manifest
  previous : run.completed = start + 1 → run.publisher.previousManifest = some manifest

theorem Ageing.step {start : Nat}
    (h : Ageing manifest start run) (guard : AtMostTwo start run event)
    (hstep : run.Stepped fmt event run') : Ageing manifest start run' := by
  cases hstep with
  | loaded => exact guard.elim
  | refused => exact h
  | unchanged => exact ⟨h.not_before, h.current, h.previous⟩
  | begun => exact ⟨h.not_before, h.current, h.previous⟩
  | wrote =>
    unfold TableRun.writePage
    split
    case isTrue => exact ⟨h.not_before, h.current, h.previous⟩
    case isFalse => exact ⟨h.not_before, h.current, h.previous⟩
  | verified => exact ⟨h.not_before, h.current, h.previous⟩
  | unverified => exact ⟨h.not_before, h.current, h.previous⟩
  | unwritten => exact ⟨h.not_before, h.current, h.previous⟩
  | unconfirmed => exact ⟨h.not_before, h.current, h.previous⟩
  | published =>
    refine ⟨le_trans h.not_before (Nat.le_succ _), fun hsame => ?_, fun hnext => ?_⟩
    · have hsame : run.completed + 1 = start := hsame
      have hle := h.not_before
      omega
    · exact h.current (Nat.succ.inj hnext)

/-- Two publications may be completed while a manifest is read. -/
theorem sparing_of_undisturbed (hcurrent : run.publisher.currentManifest = some manifest)
    (reached : (undisturbed fmt run).Reachable later) :
    (sparing fmt run manifest).Reachable later := by
  suffices h : (sparing fmt run manifest).Reachable later ∧
      Ageing manifest run.completed later from h.1
  induction reached with
  | start hinit =>
    obtain rfl := hinit
    exact ⟨.start rfl, le_rfl, fun _ => hcurrent, fun hnext => absurd hnext (by omega)⟩
  | next event hreached hstep ih =>
    obtain ⟨hsparing, hage⟩ := ih
    obtain ⟨hguard, hnext⟩ := hstep
    refine ⟨hsparing.next event ⟨?_, hnext⟩, hage.step fmt hguard (stepped_of_next fmt hnext)⟩
    cases event with
    | start entries =>
      rcases Nat.lt_or_ge run.completed _ with hlater | hnow
      · exact .inr (hage.previous (Nat.le_antisymm hguard hlater))
      · exact .inl (hage.current (Nat.le_antisymm hnow hage.not_before))
    | load _ _ => trivial
    | writePage _ _ => trivial
    | readBack _ => trivial
    | writeManifest _ _ _ => trivial

/-- In every run: what a reader obtains, from whatever the record has held at any time, comes from
the pages of one manifest; no page of the current or the previous manifest is written to; and the
pages of a manifest that was the current or the previous one when the read began stay valid while
the publications that begin still find it so. From the current manifest, two publications may be
completed. -/
theorem reads_come_from_one_manifest {run : TableRun Key}
    (reached : (tableSystem fmt).Reachable run) (collisions : NoCollisions fmt run.hashed) :
    (∀ (r : Reader Key) (answers : ForeignAnswers), AnswersHeld run.held answers →
      foreignTable fmt r answers = [] ∨ ∃ manifest ∈ run.manifests,
        ∀ entry ∈ foreignTable fmt r answers, ∃ descriptor ∈ manifest.pages,
          ∃ page ∈ run.hashed, Describes fmt page descriptor ∧
            (∀ page' ∈ run.hashed, Describes fmt page' descriptor → page' = page) ∧
            entry ∈ page.entries) ∧
    (∀ attempt, run.attempt = some attempt → ∀ write ∈ attempt.todo,
      write.1.subkey ∉ unavailable run.publisher) ∧
    (∀ manifest, run.publisher.currentManifest = some manifest ∨
        run.publisher.previousManifest = some manifest →
      ∀ views : Subkey → TableRun Key,
        (∀ subkey, (sparing fmt run manifest).Reachable (views subkey)) →
        ∀ selected ⊆ manifest.pages,
          validateLoadedRecordTablePages fmt (viewed views) selected true = .ok ()) ∧
    ∀ manifest, run.publisher.currentManifest = some manifest → ∀ views : Subkey → TableRun Key,
        (∀ subkey, (undisturbed fmt run).Reachable (views subkey)) →
        ∀ selected ⊆ manifest.pages,
          validateLoadedRecordTablePages fmt (viewed views) selected true = .ok () := by
  have h := (runSound fmt).holds reached
  refine ⟨fun r answers held => ?_, fun attempt hattempt write hwrite => ?_, ?_, ?_⟩
  · refine (h.foreignTable_spec fmt r held).imp_right fun ⟨manifest, hmem, hentries⟩ => ?_
    refine ⟨manifest, hmem, fun entry hentry => ?_⟩
    obtain ⟨descriptor, hdescriptor, page, hpage, hdescribes, hin⟩ := hentries entry hentry
    exact ⟨descriptor, hdescriptor, page, hpage, hdescribes,
      fun page' hpage' hdescribes' => hdescribes'.entries_eq fmt collisions hpage' hpage hdescribes,
      hin⟩
  · have hsound := h.attempt attempt hattempt
    exact (mem_freeSubkeys.mp (hsound.plan.free write (hsound.todo hwrite))).2
  · intro manifest hknown views hviews selected hselected
    exact spared_validates fmt h hknown hviews hselected
  · intro manifest hcurrent views hviews selected hselected
    exact spared_validates fmt h (.inl hcurrent)
      (fun subkey => sparing_of_undisturbed fmt hcurrent (hviews subkey)) hselected

end Readers

/-- What an undisturbed read of a record gives. -/
def recordValues (dht : Subkey → Bytes) : Values :=
  readValues fun subkey => .ok (dht subkey)

namespace Sample

/-- Two further publications, and a third one that stops after its page. -/
def further : List (TableEvent Peer) :=
  publish [entry .first 2] ++ publish [entry .first 3] ++
    [.start [entry .first 4], .writePage 0 .stored]

def overwritten : TableRun Peer :=
  (LabelledSystem.run (TableRun.next format) published further).get (by decide +kernel)

def firstManifest : RecordTableManifest :=
  published.publisher.currentManifest.get (by decide +kernel)

def reader : Reader Peer := ⟨.second, .first, none, 0⟩

/-- The page of the manifest that was read first is gone, though two publications have succeeded
since and the third one has not. -/
theorem third_publication_overwrites :
    ¬ ∀ (run later : TableRun Peer) (events : List (TableEvent Peer)) (slot : Subkey)
        (manifest : RecordTableManifest), (tableSystem format).Reachable run →
      (validRecordTableManifests format (recordValues run.dht)).head? = some (slot, manifest) →
      LabelledSystem.run (TableRun.next format) run events = some later →
      later.completed ≤ run.completed + 2 →
      ∀ r : Reader Peer, validateLoadedRecordTablePages format (viewed fun _ => later)
        (selectRecordTablePages format r.reader r.target manifest r.appFingerprint r.now) true =
          .ok () := by
  intro h
  have hhead : (validRecordTableManifests format (recordValues published.dht)).head? =
      some (recordTableManifestSlotA, firstManifest) := by decide +kernel
  have hcount : overwritten.completed ≤ published.completed + 2 := by decide +kernel
  have hgone : ¬ (validateLoadedRecordTablePages format (viewed fun _ => overwritten)
      (selectRecordTablePages format reader.reader reader.target firstManifest
        reader.appFingerprint reader.now) true).isOk := by decide +kernel
  have hok := h published overwritten further recordTableManifestSlotA firstManifest
    (reachable_after _ _) hhead (Option.some_get _).symm hcount reader
  exact hgone (isOk_iff.mpr ⟨(), hok⟩)

/-- While a publication is in progress, the manifest before it is still complete. -/
theorem reads_come_from_one_manifest_published :
    (∀ write ∈ (overwritten.attempt.elim [] (·.todo)),
      write.1.subkey ∉ unavailable overwritten.publisher) ∧
    validateLoadedRecordTablePages format (viewed fun _ => published) firstManifest.pages true =
      .ok () := by
  have hcollisions : NoCollisions format published.hashed := by decide +kernel
  have hcollisions' : NoCollisions format overwritten.hashed := by decide +kernel
  have hreached : (tableSystem format).Reachable published := reachable_after _ _
  have hlater : (tableSystem format).Reachable overwritten := hreached.run (Option.some_get _).symm
  obtain ⟨-, -, -, hpages⟩ := reads_come_from_one_manifest format hreached hcollisions
  obtain ⟨-, hapart, -, -⟩ := reads_come_from_one_manifest format hlater hcollisions'
  refine ⟨fun write hwrite => ?_, ?_⟩
  · cases hattempt : overwritten.attempt with
    | none =>
      rw [hattempt] at hwrite
      cases hwrite
    | some attempt =>
      rw [hattempt] at hwrite
      exact hapart attempt hattempt write hwrite
  · exact hpages firstManifest (Option.some_get _).symm (fun _ => published)
      (fun _ => .start rfl) _ (List.Subset.refl _)

end Sample

end VeilKnit.WalkTask
