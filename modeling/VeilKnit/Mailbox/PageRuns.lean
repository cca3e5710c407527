import VeilKnit.Mailbox.PageMap
import VeilKnit.Mailbox.PageRecord

/-!
# Stores and their records over whole runs

A store is edited, committed under any fates and reloaded after a crash, over a
record that starts out empty. What the store knows of the record stays anchored in
it: the current index lies in the active slot, the pages it lists are intact, and
every clean page in memory is one of them.
-/

namespace VeilKnit.Mailbox

open Library Fallible

variable {D T : Type} [DigestScheme D] [DecidableEq D] [PageEntry T]

/-! ## What a plan touches -/

section Plans

variable {config : MailboxConfig} {store : CowPagedStore D T} {plan : GenerationPlan D}

omit [DigestScheme D] [DecidableEq D] [PageEntry T] in
theorem mem_freeSubkeys {subkey : Subkey} (h : subkey ∈ store.freeSubkeys) :
    firstDataSubkey ≤ subkey ∧ subkey ∉ CowPagedStore.referenced store.currentIndex ∧
      subkey ∉ CowPagedStore.referenced store.previousIndex := by
  simpa using (List.mem_filter.mp h).2

section

omit [DecidableEq D]

/-- Every page of a plan goes to a free subkey. -/
theorem plan_writes_free (h : store.planGeneration config = .ok plan)
    {write : CowPageDescriptor D × Bytes} (hwrite : write ∈ plan.pageWrites) :
    write.1.subkey ∈ store.freeSubkeys := by
  simp only [CowPagedStore.planGeneration, except_bind_eq_ok] at h
  obtain ⟨⟨newPages, writes⟩, hpages, hplan⟩ := h
  cases hplan
  have hprefix := (planPages_ok hpages).2.subkeys
  exact hprefix.subset (List.mem_map_of_mem hwrite)

theorem plan_target (h : store.planGeneration config = .ok plan) :
    plan.targetSlot = store.otherSlot ∧ plan.generation = store.nextGeneration := by
  simp only [CowPagedStore.planGeneration, except_bind_eq_ok] at h
  obtain ⟨_, _, hplan⟩ := h
  cases hplan
  exact ⟨rfl, rfl⟩

end

section

omit [DigestScheme D] [DecidableEq D] [PageEntry T]

theorem otherSlot_lt : store.otherSlot < firstDataSubkey := by
  unfold CowPagedStore.otherSlot
  split <;> decide

theorem otherSlot_ne (h : store.activeIndexSlot = indexSlotA ∨ store.activeIndexSlot = indexSlotB) :
    store.otherSlot ≠ store.activeIndexSlot := by
  unfold CowPagedStore.otherSlot
  rcases h with h | h <;> rw [h] <;> decide

end

section

omit [DecidableEq D]

variable {m m' : Memory} {index : CowIndex D}

/-- A stopped commit leaves alone what is neither free nor the other index slot. -/
theorem Interrupted.keeps (h : Interrupted m plan index m')
    (hplan : store.planGeneration config = .ok plan) {k : Subkey} (hfree : k ∉ store.freeSubkeys)
    (hslot : k ≠ store.otherSlot) : m' k = m k := by
  obtain ⟨written, hwritten, hm'⟩ := h
  have hkept : written k = m k := by
    rcases hwritten k with hkept | ⟨write, hwrite, rfl, _⟩
    · exact hkept
    · exact absurd (plan_writes_free hplan hwrite) hfree
  rcases hm' with rfl | rfl
  · exact hkept
  · rw [(plan_target hplan).1, Function.update_of_ne hslot, hkept]

/-- The other index slot holds the new index or what it held. -/
theorem Interrupted.otherSlot (h : Interrupted m plan index m')
    (hplan : store.planGeneration config = .ok plan) :
    m' store.otherSlot = m store.otherSlot ∨ m' store.otherSlot = some index.serialize := by
  obtain ⟨written, hwritten, hm'⟩ := h
  have hkept : written store.otherSlot = m store.otherSlot := by
    rcases hwritten store.otherSlot with hkept | ⟨write, hwrite, hsubkey, _⟩
    · exact hkept
    · have hdata := (mem_freeSubkeys (plan_writes_free hplan hwrite)).1
      rw [hsubkey] at hdata
      exact absurd otherSlot_lt (UInt32.not_lt.mpr hdata)
  rcases hm' with rfl | rfl
  · exact .inl hkept
  · rw [(plan_target hplan).1, Function.update_self]
    exact .inr rfl

end

end Plans

/-! ## Anchored stores -/

section Anchored

/-- The record holds a page of these entries under a descriptor. -/
def Stored (m : Memory) (d : CowPageDescriptor D) (entries : List T) : Prop :=
  ∃ bytes, m.Holds d.subkey bytes ∧
    openPage d bytes = .ok { descriptor := some d, entries, dirty := false }

/-- An index slot of the record holds an index that a reader accepts. -/
def HoldsIndex (m : Memory) (slot : Subkey) (index : CowIndex D) : Prop :=
  ∃ bytes, m.Holds slot bytes ∧ openIndex bytes = some index

/-- What the store knows of the record is there. -/
structure Anchored (store : CowPagedStore D T) (m : Memory) : Prop where
  slot : store.activeIndexSlot = indexSlotA ∨ store.activeIndexSlot = indexSlotB
  index : ∀ index, store.currentIndex = some index → HoldsIndex m store.activeIndexSlot index ∧
      ∀ d ∈ index.pages, ∃ entries : List T, Stored m d entries
  fresh : store.currentIndex = none → store.activeIndexSlot = indexSlotA ∧ m indexSlotA = none
  strict : ∀ page ∈ store.pages, KeyedList.Strict pageKey page.entries
  clean : store.pages = [emptyPage] ∨
    ∀ page ∈ store.pages, page.dirty = false → ∃ index d, store.currentIndex = some index ∧
      d ∈ index.pages ∧ page.descriptor = some d ∧ Stored m d page.entries

variable {store : CowPagedStore D T} {m m' : Memory}

theorem Stored.describes {d : CowPageDescriptor D} {entries : List T} (h : Stored m d entries) :
    Describes d entries := by
  obtain ⟨bytes, _, hopen⟩ := h
  exact (loadedPage_of_openPage hopen).describes

variable {index : CowIndex D}

theorem openIndex_eq_some_iff {bytes : Bytes} : openIndex bytes = some index ↔
      deserialize CowIndex.codec bytes = .ok index ∧ validateIndexShape index = .ok () ∧
        indexDigest index = index.digest := by
  unfold openIndex
  split
  case h_1 error hdecode => simp [hdecode]
  case h_2 decoded hdecode =>
  rw [hdecode]
  split
  case h_1 error hshape =>
    simp only [reduceCtorEq, false_iff, not_and, Except.ok.injEq]
    rintro rfl hok
    rw [hshape] at hok
    cases hok
  case h_2 hshape =>
  split
  case isTrue hdigest =>
    simp only [Option.some.injEq, Except.ok.injEq]
    constructor
    · rintro rfl
      exact ⟨rfl, hshape, hdigest⟩
    · rintro ⟨rfl, _⟩
      rfl
  case isFalse hdigest =>
    simp only [reduceCtorEq, false_iff, not_and, Except.ok.injEq]
    rintro rfl _
    exact hdigest

theorem HoldsIndex.shape {slot : Subkey} (h : HoldsIndex m slot index) :
    validateIndexShape index = .ok () := by
  obtain ⟨bytes, _, hopen⟩ := h
  exact (openIndex_eq_some_iff.mp hopen).2.1

section

variable (h : Anchored store m)

include h

theorem Anchored.sound : PagesSound store.pages := by
  refine ⟨h.strict, fun page hpage hdirty d hd => ?_⟩
  rcases h.clean with hfresh | hclean
  · rw [hfresh, List.mem_singleton] at hpage
    rw [hpage] at hd
    cases hd
  · obtain ⟨index, d', _, _, hd', hstored⟩ := hclean page hpage hdirty
    cases hd'.symm.trans hd
    exact hstored.describes

/-- The pages that the current index lists are on data subkeys in use. -/
theorem Anchored.pages_in_use
    (hindex : store.currentIndex = some index) {d : CowPageDescriptor D} (hd : d ∈ index.pages) :
    d.subkey ∉ store.freeSubkeys ∧ d.subkey ≠ store.otherSlot := by
  constructor
  · intro hfree
    refine (mem_freeSubkeys hfree).2.1 ?_
    rw [hindex]
    exact List.mem_map_of_mem hd
  · have hshape := (h.index index hindex).1.shape
    have hdata := ((validateIndexShape_ok_iff.mp hshape).2.1 d hd).1
    intro hslot
    rw [hslot] at hdata
    exact absurd otherSlot_lt (UInt32.not_lt.mpr hdata)

theorem Anchored.slot_in_use :
    store.activeIndexSlot ∉ store.freeSubkeys ∧ store.activeIndexSlot ≠ store.otherSlot := by
  refine ⟨fun hfree => ?_, (otherSlot_ne h.slot).symm⟩
  have hdata := (mem_freeSubkeys hfree).1
  rcases h.slot with hslot | hslot <;> rw [hslot] at hdata <;> exact absurd hdata (by decide)

/-- A record that keeps everything in use keeps a store anchored. -/
theorem Anchored.of_kept (hkept : ∀ k, k ∉ store.freeSubkeys → k ≠ store.otherSlot → m' k = m k) :
    Anchored store m' := by
  have hstored : ∀ {index : CowIndex D}, store.currentIndex = some index → ∀ d ∈ index.pages,
      ∀ entries : List T, Stored m d entries → Stored m' d entries := by
    rintro index hindex d hd entries ⟨bytes, hholds, hopen⟩
    obtain ⟨hfree, hslot⟩ := h.pages_in_use hindex hd
    exact ⟨bytes, (hkept _ hfree hslot).trans hholds, hopen⟩
  have hactive : m' store.activeIndexSlot = m store.activeIndexSlot :=
    hkept _ h.slot_in_use.1 h.slot_in_use.2
  refine ⟨h.slot, fun index hindex => ?_, fun hnone => ?_, h.strict, ?_⟩
  · obtain ⟨⟨bytes, hholds, hopen⟩, hpages⟩ := h.index index hindex
    refine ⟨⟨bytes, hactive.trans hholds, hopen⟩, fun d hd => ?_⟩
    obtain ⟨entries, hentries⟩ := hpages d hd
    exact ⟨entries, hstored hindex d hd entries hentries⟩
  · obtain ⟨hslot, hempty⟩ := h.fresh hnone
    refine ⟨hslot, ?_⟩
    rw [← hslot, hactive, hslot]
    exact hempty
  · refine h.clean.imp id fun hclean page hpage hdirty => ?_
    obtain ⟨index, d, hindex, hd, hdescriptor, hentries⟩ := hclean page hpage hdirty
    exact ⟨index, d, hindex, hd, hdescriptor, hstored hindex d hd _ hentries⟩

/-- New sorted pages over the same index, of which the clean ones were there before,
keep the store anchored. -/
theorem Anchored.of_pages {pages : List (LocalPage D T)}
    (hstrict : ∀ page ∈ pages, KeyedList.Strict pageKey page.entries)
    (hclean : ∀ page ∈ pages, page.dirty = false → page ∈ store.pages)
    (hfresh : store.pages = [emptyPage] → ∀ page ∈ pages, page.dirty = true) :
    Anchored { store with pages } m := by
  refine ⟨h.slot, h.index, h.fresh, hstrict, .inr fun page hpage hdirty => ?_⟩
  rcases h.clean with hempty | hstored
  · rw [hfresh hempty page hpage] at hdirty
    cases hdirty
  · exact hstored page (hclean page hpage hdirty) hdirty

/-- An edit of the page that a key belongs to. -/
theorem Anchored.modify (k : Key) {f : LocalPage D T → LocalPage D T}
    (hstrict : ∀ page ∈ store.pages, KeyedList.Strict pageKey (f page).entries)
    (hdirty : ∀ page, (f page).dirty = true) :
    Anchored { store with pages := store.pages.modify (findPageIndex store.pages k) f } m := by
  refine h.of_pages (fun page hpage => ?_) (fun page hpage hclean => ?_) fun hempty page hpage => ?_
  · rcases mem_modify_cases hpage with hmem | ⟨old, hold, rfl⟩
    · exact h.strict page hmem
    · exact hstrict old hold
  · rcases mem_modify_cases hpage with hmem | ⟨old, hold, rfl⟩
    · exact hmem
    · rw [hdirty] at hclean
      cases hclean
  have hsingle : store.pages.modify (findPageIndex store.pages k) f = [f emptyPage] := by
    rw [hempty]
    rfl
  rw [hsingle, List.mem_singleton] at hpage
  rw [hpage]
  exact hdirty _

theorem anchored_upsert (entry : T) : Anchored (store.upsert entry) m :=
  h.modify (pageKey entry) (fun page hpage => (h.strict page hpage).upsert entry) fun _ => rfl

theorem anchored_remove (k : Key) : Anchored (store.remove k).2 m := by
  unfold CowPagedStore.remove
  split
  · exact h
  · exact h.modify k (fun page hpage => (h.strict page hpage).remove k) fun _ => rfl

theorem anchored_rebalance (config : MailboxConfig)
    (hpending : store.pendingChanges ≠ 0) : Anchored (store.rebalanceDirtyPages config) m := by
  refine h.of_pages (strict_rebalance h.strict)
    (fun page hpage hclean => clean_of_rebalance h.strict hpage hclean) fun hempty => ?_
  refine absurd ?_ hpending
  simp [CowPagedStore.pendingChanges, hempty, emptyPage]

end

/-- Pages that were opened from the record are stored there. -/
theorem OpenedPages.stored {ds : List (CowPageDescriptor D)} {loaded : List (LocalPage D T)}
    (h : OpenedPages m.Holds ds loaded) :
    (∀ d ∈ ds, ∃ entries : List T, Stored m d entries) ∧
      ∀ page ∈ loaded, ∃ d ∈ ds, page.descriptor = some d ∧ Stored m d page.entries := by
  have hpage : ∀ (d : CowPageDescriptor D) (page : LocalPage D T),
      (∃ bytes, m.Holds d.subkey bytes ∧ openPage d bytes = .ok page) →
        page.descriptor = some d ∧ Stored m d page.entries := by
    rintro d page ⟨bytes, hholds, hopen⟩
    have hvalid := loadedPage_of_openPage hopen
    refine ⟨hvalid.descriptor, bytes, hholds, ?_⟩
    rw [hopen, ← hvalid.descriptor, ← hvalid.clean]
  constructor
  · intro d hd
    obtain ⟨page, _, hopen⟩ := forall₂_exists_right h hd
    exact ⟨page.entries, (hpage d page hopen).2⟩
  · intro page hmem
    obtain ⟨d, hd, hopen⟩ := forall₂_exists_left h hmem
    exact ⟨d, hd, hpage d page hopen⟩

/-- A store on a generation that the record holds and whose pages validated. -/
theorem anchored_of_opened
    (hslot : store.activeIndexSlot = indexSlotA ∨ store.activeIndexSlot = indexSlotB)
    (hindex : store.currentIndex = some index) (hholds : HoldsIndex m store.activeIndexSlot index)
    (hopened : OpenedFrom m.Holds index store.pages) : Anchored store m := by
  refine ⟨hslot, fun index' hindex' => ?_, fun hnone => ?_, hopened.loadedFrom.sound.strict, ?_⟩
  · cases hindex.symm.trans hindex'
    obtain ⟨_, loaded, hloaded, _⟩ := hopened
    exact ⟨hholds, hloaded.stored.1⟩
  · rw [hindex] at hnone
    cases hnone
  obtain ⟨_, loaded, hloaded, hpages⟩ := hopened
  rw [hpages]
  split
  · exact .inl rfl
  · refine .inr fun page hpage _ => ?_
    obtain ⟨d, hd, hdescriptor, hstored⟩ := hloaded.stored.2 page hpage
    exact ⟨index, d, hindex, hd, hdescriptor, hstored⟩

end Anchored

end VeilKnit.Mailbox
