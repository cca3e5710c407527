import Mathlib.Data.List.Perm.Basic
import VeilKnit.Mailbox.PageStore

/-!
# Which page a key belongs to

A lookup visits one page, which it finds from the descriptors alone. The entries of
a store are a finite map when every entry lies in the page that the lookup of its
key visits and every page is sorted: the store is then *routed*. Insertions and
removals keep the descriptors and keep a store routed. A generation loaded from an
index is routed because the ranges of its pages lie apart.

Dividing pages can destroy the routing: a piece has no descriptor, and a lookup
stops at the first page without one. `Undisturbed` says when it does not.
-/

namespace VeilKnit.Mailbox

open Library

variable {D T : Type} [PageEntry T]

/-! ## The lookup -/

section Lookup

variable {k k' : Key}

theorem stopsAt_of_le (h : k ≤ k') {d : Option (CowPageDescriptor D)}
    (hstop : stopsAt k' d = true) : stopsAt k d = true := by
  cases d with
  | none => rfl
  | some d => exact decide_eq_true (h.trans (of_decide_eq_true hstop))

theorem pageIndexOf_eq_min (descriptors : List (Option (CowPageDescriptor D))) (k : Key) :
    pageIndexOf descriptors k = min (descriptors.findIdx (stopsAt k)) (descriptors.length - 1) := by
  have hle : descriptors.findIdx (stopsAt k) ≤ descriptors.length := List.findIdx_le_length
  unfold pageIndexOf
  split
  · omega
  by_cases hlt : descriptors.findIdx (stopsAt k) < descriptors.length
  · rw [List.findIdx?_eq_some_of_exists (List.findIdx_lt_length.mp hlt), Option.getD_some]
    omega
  · rw [List.findIdx?_eq_none_iff.mpr, Option.getD_none]
    · omega
    · intro d hd
      have hnone := List.findIdx_eq_length.mp (by omega : descriptors.findIdx (stopsAt k) = _)
      simpa using hnone d hd

variable {descriptors : List (Option (CowPageDescriptor D))}

theorem pageIndexOf_lt (h : descriptors ≠ [])
    (k : Key) : pageIndexOf descriptors k < descriptors.length := by
  have := List.length_pos_of_ne_nil h
  rw [pageIndexOf_eq_min]
  omega

/-- Smaller keys belong to earlier pages. -/
theorem pageIndexOf_mono (descriptors : List (Option (CowPageDescriptor D)))
    (h : k ≤ k') : pageIndexOf descriptors k ≤ pageIndexOf descriptors k' := by
  rw [pageIndexOf_eq_min, pageIndexOf_eq_min]
  have hle : descriptors.findIdx (stopsAt k) ≤ descriptors.findIdx (stopsAt k') := by
    by_contra hlt
    push Not at hlt
    have hbound : descriptors.findIdx (stopsAt k') < descriptors.length :=
      hlt.trans_le List.findIdx_le_length
    have hstop := List.findIdx_getElem (w := hbound)
    exact absurd (stopsAt_of_le h hstop) (by simpa using List.not_of_lt_findIdx hlt)
  omega

/-- A key belongs to a page when no earlier page stops its lookup and this page does
or is the last. -/
theorem pageIndexOf_eq_iff {i : Nat} (hi : i < descriptors.length) :
    pageIndexOf descriptors k = i ↔ (∀ j, (hj : j < i) → stopsAt k (descriptors[j]) = false) ∧
        (stopsAt k descriptors[i] = true ∨ i = descriptors.length - 1) := by
  rw [pageIndexOf_eq_min]
  constructor
  · intro h
    refine ⟨fun j hj => ?_, ?_⟩
    · have hlt : j < descriptors.findIdx (stopsAt k) := by omega
      simpa using List.not_of_lt_findIdx hlt
    · by_cases hlast : i = descriptors.length - 1
      · exact .inr hlast
      · have heq : descriptors.findIdx (stopsAt k) = i := by omega
        subst heq
        exact .inl (List.findIdx_getElem (w := hi))
  rintro ⟨hbefore, hstop⟩
  have hge : i ≤ descriptors.findIdx (stopsAt k) := by
    by_contra hlt
    push Not at hlt
    have := List.findIdx_getElem (w := hlt.trans hi)
    rw [hbefore _ hlt] at this
    cases this
  rcases hstop with hstop | hlast
  · have hle : descriptors.findIdx (stopsAt k) ≤ i := by
      by_contra hlt
      push Not at hlt
      simpa [hstop] using List.not_of_lt_findIdx hlt
    omega
  · omega

end Lookup

/-! ## Routed stores -/

section Routed

variable {f : LocalPage D T → LocalPage D T}

omit [PageEntry T] in
theorem mem_modify_cases {pages : List (LocalPage D T)} {i : Nat}
    {page : LocalPage D T} (h : page ∈ pages.modify i f) :
    page ∈ pages ∨ ∃ old ∈ pages, page = f old := by
  obtain ⟨j, hj⟩ := List.getElem?_of_mem h
  rw [List.getElem?_modify] at hj
  cases hold : pages[j]? with
  | none => simp [hold] at hj
  | some old =>
    have hmem := List.mem_of_getElem? hold
    by_cases hij : i = j
    · exact .inr ⟨old, hmem, by simpa [hold, hij, eq_comm] using hj⟩
    · obtain rfl : old = page := by simpa [hold, hij] using hj
      exact .inl hmem

/-- Every page is sorted, and the lookup of an entry's key visits the entry's page. -/
structure Routed (pages : List (LocalPage D T)) : Prop where
  nonempty : pages ≠ []
  strict : ∀ page ∈ pages, KeyedList.Strict pageKey page.entries
  route : ∀ i page, pages[i]? = some page → ∀ e ∈ page.entries, findPageIndex pages (pageKey e) = i

variable {pages : List (LocalPage D T)}

omit [PageEntry T] in
theorem findPageIndex_lt (h : pages ≠ []) (k : Key) : findPageIndex pages k < pages.length := by
  have hne : pages.map LocalPage.descriptor ≠ [] := by simpa using h
  simpa [findPageIndex] using pageIndexOf_lt hne k

omit [PageEntry T] in
theorem findPageIndex_congr {pages' : List (LocalPage D T)}
    (h : pages.map LocalPage.descriptor = pages'.map LocalPage.descriptor) (k : Key) :
    findPageIndex pages k = findPageIndex pages' k := by
  rw [findPageIndex, findPageIndex, h]

/-- The entries of a routed store are sorted across its pages. -/
theorem Routed.strict_entries (h : Routed pages) :
    KeyedList.Strict pageKey (pages.flatMap LocalPage.entries) := by
  rw [List.flatMap_def]
  refine KeyedList.strict_flatten (by simpa using h.strict) ?_
  rw [List.pairwise_map, List.pairwise_iff_getElem]
  intro i j hi hj hij a ha b hb
  by_contra hle
  have hmono : findPageIndex pages (pageKey b) ≤ findPageIndex pages (pageKey a) :=
    pageIndexOf_mono _ (not_lt.mp hle)
  rw [h.route i _ (List.getElem?_eq_getElem hi) a ha,
    h.route j _ (List.getElem?_eq_getElem hj) b hb] at hmono
  omega

variable {store : CowPagedStore D T}

/-- Looking up a key in a routed store finds the entry with that key. -/
theorem get_eq_some_iff (h : Routed store.pages) {k : Key} {e : T} :
    store.get k = some e ↔ e ∈ store.allEntries ∧ pageKey e = k := by
  obtain ⟨visited, hvisited⟩ : ∃ page, store.pages[findPageIndex store.pages k]? = some page :=
    ⟨_, List.getElem?_eq_getElem (findPageIndex_lt h.nonempty k)⟩
  have hmem : visited ∈ store.pages := List.mem_of_getElem? hvisited
  rw [CowPagedStore.get, hvisited]
  rw [KeyedList.lookup_eq_some_iff (h.strict _ hmem), CowPagedStore.allEntries, List.mem_flatMap]
  constructor
  · rintro ⟨he, hk⟩
    exact ⟨⟨visited, hmem, he⟩, hk⟩
  · rintro ⟨⟨page, hpage, he⟩, rfl⟩
    obtain ⟨i, hi⟩ := List.getElem?_of_mem hpage
    rw [h.route i page hi e he, hi] at hvisited
    exact ⟨Option.some.inj hvisited ▸ he, rfl⟩

theorem get_eq_none_iff (h : Routed store.pages) {k : Key} :
    store.get k = none ↔ ∀ e ∈ store.allEntries, pageKey e ≠ k := by
  constructor
  · intro hnone e he hk
    rw [(get_eq_some_iff h).mpr ⟨he, hk⟩] at hnone
    cases hnone
  intro habsent
  cases hget : store.get k with
  | none => rfl
  | some e =>
    obtain ⟨he, hk⟩ := (get_eq_some_iff h).mp hget
    exact absurd hk (habsent e he)

/-- Editing the page of a key keeps a store routed when the page stays sorted, keeps
its descriptor and gains no other key. -/
theorem Routed.modify (h : Routed pages) (k : Key)
    (hdescriptor : ∀ page, (f page).descriptor = page.descriptor)
    (hstrict : ∀ page ∈ pages, KeyedList.Strict pageKey (f page).entries)
    (hkeys : ∀ page ∈ pages, ∀ e ∈ (f page).entries, e ∈ page.entries ∨ pageKey e = k) :
    Routed (pages.modify (findPageIndex pages k) f) := by
  have hsame : (pages.modify (findPageIndex pages k) f).map LocalPage.descriptor =
      pages.map LocalPage.descriptor := by
    apply List.ext_getElem?
    intro i
    rw [List.getElem?_map, List.getElem?_map, List.getElem?_modify]
    cases pages[i]? with
    | none => rfl
    | some page =>
      by_cases hi : findPageIndex pages k = i <;> simp [hi, hdescriptor]
  have hpages : ∀ i page, (pages.modify (findPageIndex pages k) f)[i]? = some page →
      ∃ old, pages[i]? = some old ∧ (page = old ∨ (findPageIndex pages k = i ∧ page = f old)) := by
    intro i page hpage
    rw [List.getElem?_modify] at hpage
    cases hold : pages[i]? with
    | none => simp [hold] at hpage
    | some old =>
      rw [hold] at hpage
      refine ⟨old, rfl, ?_⟩
      by_cases hi : findPageIndex pages k = i
      · exact .inr ⟨hi, by simpa [hi, eq_comm] using hpage⟩
      · exact .inl (by simpa [hi, eq_comm] using hpage)
  refine ⟨?_, ?_, ?_⟩
  · intro hnil
    have hlength := congrArg List.length hnil
    simp [h.nonempty] at hlength
  · intro page hpage
    obtain ⟨i, hi⟩ := List.getElem?_of_mem hpage
    obtain ⟨old, hold, rfl | ⟨_, rfl⟩⟩ := hpages i page hi
    · exact h.strict _ (List.mem_of_getElem? hold)
    · exact hstrict _ (List.mem_of_getElem? hold)
  intro i page hpage e he
  rw [findPageIndex_congr hsame]
  obtain ⟨old, hold, rfl | ⟨hi, rfl⟩⟩ := hpages i page hpage
  · exact h.route i _ hold e he
  · rcases hkeys old (List.mem_of_getElem? hold) e he with he | rfl
    · exact h.route i old hold e he
    · exact hi

theorem routed_upsert (h : Routed store.pages) (entry : T) : Routed (store.upsert entry).pages := by
  refine h.modify (pageKey entry) (fun _ => rfl) (fun page hpage => ?_) fun page hpage e he => ?_
  · exact (h.strict page hpage).upsert entry
  · rcases (KeyedList.mem_upsert (h.strict page hpage)).mp he with rfl | ⟨he, _⟩
    · exact .inr rfl
    · exact .inl he

theorem routed_remove (h : Routed store.pages) (k : Key) : Routed (store.remove k).2.pages := by
  unfold CowPagedStore.remove
  split
  · exact h
  · refine h.modify k (fun _ => rfl) (fun page hpage => ?_) fun page hpage e he => .inl ?_
    · exact (h.strict page hpage).remove k
    · exact ((KeyedList.mem_remove (h.strict page hpage)).mp he).1

omit [PageEntry T] in
theorem mem_entries_iff {e : T} : e ∈ pages.flatMap LocalPage.entries ↔
      ∃ (i : Nat) (page : LocalPage D T), pages[i]? = some page ∧ e ∈ page.entries := by
  rw [List.mem_flatMap]
  constructor
  · rintro ⟨page, hpage, he⟩
    obtain ⟨i, hi⟩ := List.getElem?_of_mem hpage
    exact ⟨i, page, hi, he⟩
  · rintro ⟨i, page, hi, he⟩
    exact ⟨page, List.mem_of_getElem? hi, he⟩

/-- The entries of a routed store after an edit of the page that a key belongs to. -/
theorem Routed.mem_modify (h : Routed pages) (k : Key) {P : T → Prop} (hf : ∀ page ∈ pages, ∀ e,
      e ∈ (f page).entries ↔ P e ∨ (e ∈ page.entries ∧ pageKey e ≠ k)) (e : T) :
    e ∈ (pages.modify (findPageIndex pages k) f).flatMap LocalPage.entries ↔
      P e ∨ (e ∈ pages.flatMap LocalPage.entries ∧ pageKey e ≠ k) := by
  have hlt := findPageIndex_lt h.nonempty k
  simp only [mem_entries_iff]
  constructor
  · rintro ⟨i, page, hi, he⟩
    rw [List.getElem?_modify] at hi
    cases hold : pages[i]? with
    | none => simp [hold] at hi
    | some old =>
      have hmem : old ∈ pages := List.mem_of_getElem? hold
      by_cases hfind : findPageIndex pages k = i
      · obtain rfl : f old = page := by simpa [hold, hfind] using hi
        rcases (hf old hmem e).mp he with hP | ⟨he, hk⟩
        · exact .inl hP
        · exact .inr ⟨⟨i, old, hold, he⟩, hk⟩
      · obtain rfl : old = page := by simpa [hold, hfind] using hi
        refine .inr ⟨⟨i, old, hold, he⟩, fun hk => hfind ?_⟩
        rw [← hk]
        exact h.route i old hold e he
  obtain ⟨visited, hvisited⟩ : ∃ page, pages[findPageIndex pages k]? = some page :=
    ⟨_, List.getElem?_eq_getElem hlt⟩
  have hmem : visited ∈ pages := List.mem_of_getElem? hvisited
  have hmodified : (pages.modify (findPageIndex pages k) f)[findPageIndex pages k]? =
      some (f visited) := by
    rw [List.getElem?_modify, hvisited]
    simp
  rintro (hP | ⟨⟨i, page, hi, he⟩, hk⟩)
  · exact ⟨_, f visited, hmodified, (hf visited hmem e).mpr (.inl hP)⟩
  by_cases hfind : findPageIndex pages k = i
  · subst hfind
    cases hvisited.symm.trans hi
    exact ⟨_, f visited, hmodified, (hf visited hmem e).mpr (.inr ⟨he, hk⟩)⟩
  · refine ⟨i, page, ?_, he⟩
    rw [List.getElem?_modify, hi]
    simp [hfind]

theorem mem_upsert (h : Routed store.pages) (entry e : T) : e ∈ (store.upsert entry).allEntries ↔
      e = entry ∨ (e ∈ store.allEntries ∧ pageKey e ≠ pageKey entry) :=
  h.mem_modify (pageKey entry) (P := fun e => e = entry)
    (f := fun page =>
      { page with entries := KeyedList.upsert pageKey entry page.entries, dirty := true })
    (fun page hpage _ => KeyedList.mem_upsert (h.strict page hpage)) e

theorem mem_remove (h : Routed store.pages) (k : Key) (e : T) :
    e ∈ (store.remove k).2.allEntries ↔ e ∈ store.allEntries ∧ pageKey e ≠ k := by
  unfold CowPagedStore.remove
  split
  case h_1 hnone =>
    refine ⟨fun he => ⟨he, ?_⟩, And.left⟩
    exact (get_eq_none_iff h).mp hnone e he
  case h_2 =>
  have hmem := h.mem_modify k (P := fun _ => False)
    (f := fun page =>
      { page with entries := KeyedList.remove pageKey k page.entries, dirty := true })
    (fun page hpage e => by
      rw [false_or]
      exact KeyedList.mem_remove (h.strict page hpage)) e
  rwa [false_or] at hmem

end Routed

/-! ## Dividing pages -/

section Rebalance

variable [DigestScheme D] {config : MailboxConfig}

theorem splitWithin_flatten (fuel : Nat) (entries : List T) :
    (splitWithin D config fuel entries).flatten = entries := by
  induction fuel generalizing entries with
  | zero => simp [splitWithin]
  | succ fuel ih =>
    rw [splitWithin]
    split
    · simp
    · rw [List.flatten_append, ih, ih, List.take_append_drop]

variable {entries : List T}

theorem splitEntries_whole
    (h : entries.length ≤ 1 ∨ serializedPageSize D entries ≤ config.pageTargetSize) :
    splitEntries D config entries = [entries] := by
  unfold splitEntries
  cases entries.length with
  | zero => rfl
  | succ n => rw [splitWithin, if_pos h]

/-- The entries of a page in the order of their keys. -/
theorem sorted_entries (h : KeyedList.Strict pageKey entries) :
    entries.insertionSort (fun a b => pageKey a ≤ pageKey b) = entries :=
  List.Pairwise.insertionSort_eq (h.imp fun hlt => hlt.le)

variable {page : LocalPage D T}

/-- A page becomes itself or pieces without a descriptor. -/
theorem LocalPage.rebalance_eq (h : KeyedList.Strict pageKey page.entries) : page.rebalance config =
      if page.overflows config then
        (splitEntries D config page.entries).map fun entries =>
          { descriptor := none, entries, dirty := true }
      else [page] := by
  unfold LocalPage.rebalance
  rw [sorted_entries h]

/-- The pieces of a page have its entries between them. -/
theorem rebalancePage_perm (page : LocalPage D T) :
    ((page.rebalance config).flatMap LocalPage.entries).Perm page.entries := by
  have hsort : (page.entries.insertionSort fun a b => pageKey a ≤ pageKey b).Perm page.entries :=
    List.perm_insertionSort _ _
  simp only [LocalPage.rebalance]
  split
  · rw [List.flatMap_map, splitEntries, List.flatMap_id', splitWithin_flatten]
    exact hsort
  · simpa using hsort

variable {store : CowPagedStore D T}

/-- Dividing pages keeps every entry and adds none. -/
theorem rebalance_perm : (store.rebalanceDirtyPages config).allEntries.Perm store.allEntries := by
  have hsort := List.perm_insertionSort (fun a b : LocalPage D T => a.firstKey ≤ b.firstKey)
    (store.pages.flatMap (LocalPage.rebalance config))
  refine (hsort.flatMap_right LocalPage.entries).trans ?_
  rw [List.flatMap_assoc]
  exact List.Perm.flatMap_left _ fun page _ => rebalancePage_perm page

theorem mem_rebalance {e : T} :
    e ∈ (store.rebalanceDirtyPages config).allEntries ↔ e ∈ store.allEntries :=
  rebalance_perm.mem_iff

theorem splitWithin_ne_nil (fuel : Nat) (entries : List T) :
    splitWithin D config fuel entries ≠ [] := by
  induction fuel generalizing entries with
  | zero => simp [splitWithin]
  | succ fuel ih =>
    rw [splitWithin]
    split
    · simp
    · simp [ih]

/-- A clean page of a store that has been divided was there before. -/
theorem clean_of_rebalance (hstrict : ∀ page ∈ store.pages, KeyedList.Strict pageKey page.entries)
    (hpage : page ∈ (store.rebalanceDirtyPages config).pages)
    (hclean : page.dirty = false) : page ∈ store.pages := by
  rw [CowPagedStore.rebalanceDirtyPages, List.mem_insertionSort, List.mem_flatMap] at hpage
  obtain ⟨old, hold, hpage⟩ := hpage
  rw [LocalPage.rebalance_eq (hstrict old hold)] at hpage
  split at hpage
  · obtain ⟨entries, _, rfl⟩ := List.mem_map.mp hpage
    cases hclean
  · rw [List.mem_singleton.mp hpage]
    exact hold

theorem splitWithin_strict (fuel : Nat) (h : KeyedList.Strict pageKey entries) :
    ∀ piece ∈ splitWithin D config fuel entries, KeyedList.Strict pageKey piece := by
  induction fuel generalizing entries with
  | zero => simpa [splitWithin] using h
  | succ fuel ih =>
    intro piece hpiece
    rw [splitWithin] at hpiece
    split at hpiece
    · rw [List.mem_singleton.mp hpiece]
      exact h
    · rcases List.mem_append.mp hpiece with hpiece | hpiece
      · exact ih (List.Pairwise.sublist (List.take_sublist _ _) h) piece hpiece
      · exact ih (List.Pairwise.sublist (List.drop_sublist _ _) h) piece hpiece

/-- Sorted pages divide into sorted pages. -/
theorem strict_rebalance (hstrict : ∀ page ∈ store.pages, KeyedList.Strict pageKey page.entries) :
    ∀ page ∈ (store.rebalanceDirtyPages config).pages, KeyedList.Strict pageKey page.entries := by
  intro page hpage
  rw [CowPagedStore.rebalanceDirtyPages, List.mem_insertionSort, List.mem_flatMap] at hpage
  obtain ⟨old, hold, hpage⟩ := hpage
  rw [LocalPage.rebalance_eq (hstrict old hold)] at hpage
  split at hpage
  · obtain ⟨entries, hentries, rfl⟩ := List.mem_map.mp hpage
    exact splitWithin_strict _ (hstrict old hold) entries hentries
  · rw [List.mem_singleton.mp hpage]
    exact hstrict old hold

/-- Changes stay pending when the pages are divided. -/
theorem pendingChanges_rebalance (h : store.pendingChanges ≠ 0) :
    (store.rebalanceDirtyPages config).pendingChanges ≠ 0 := by
  obtain ⟨page, hpage, hdirty⟩ := List.countP_pos_iff.mp (Nat.pos_of_ne_zero h)
  have hpiece : ∃ piece ∈ page.rebalance config, piece.dirty = true := by
    simp only [LocalPage.rebalance]
    split
    · have hne : splitEntries D config
          (page.entries.insertionSort fun a b => pageKey a ≤ pageKey b) ≠ [] :=
        splitWithin_ne_nil _ _
      obtain ⟨piece, hpiece⟩ := List.exists_mem_of_ne_nil _ hne
      exact ⟨_, List.mem_map_of_mem hpiece, rfl⟩
    · exact ⟨_, List.mem_singleton_self _, hdirty⟩
  obtain ⟨piece, hpiece, hdirty'⟩ := hpiece
  refine (List.countP_pos_iff.mpr ⟨piece, ?_, hdirty'⟩).ne'
  rw [CowPagedStore.rebalanceDirtyPages, List.mem_insertionSort]
  exact List.mem_flatMap.mpr ⟨page, hpage, hpiece⟩

/-- Dividing the pages moves no entry to where its key is not looked up: the pages
are in the order of their first keys already, no page has to be cut in two, and an
overflowing page, which loses its descriptor, is followed by empty pages only. -/
structure Undisturbed (config : MailboxConfig) (pages : List (LocalPage D T)) : Prop where
  inOrder : (pages.map LocalPage.firstKey).Pairwise (· ≤ ·)
  whole : ∀ page ∈ pages, page.overflows config →
    page.entries.length ≤ 1 ∨ serializedPageSize D page.entries ≤ config.pageTargetSize
  last : pages.Pairwise fun page later => page.overflows config → later.entries = []

instance (pages : List (LocalPage D T)) : Decidable (Undisturbed config pages) :=
  decidable_of_iff
    ((pages.map LocalPage.firstKey).Pairwise (· ≤ ·) ∧
      (∀ page ∈ pages, page.overflows config →
        page.entries.length ≤ 1 ∨ serializedPageSize D page.entries ≤ config.pageTargetSize) ∧
      pages.Pairwise fun page later => page.overflows config → later.entries = [])
    ⟨fun ⟨h₁, h₂, h₃⟩ => ⟨h₁, h₂, h₃⟩, fun h => ⟨h.inOrder, h.whole, h.last⟩⟩

/-- A page that is not cut, without the descriptor that dividing takes from it. -/
def LocalPage.undescribed (config : MailboxConfig) (page : LocalPage D T) : LocalPage D T :=
  if page.overflows config then { page with descriptor := none, dirty := true } else page

@[simp]
theorem LocalPage.undescribed_entries (page : LocalPage D T) :
    (page.undescribed config).entries = page.entries := by
  unfold LocalPage.undescribed
  split <;> rfl

theorem rebalance_undisturbed (hrouted : Routed store.pages) (h : Undisturbed config store.pages) :
    (store.rebalanceDirtyPages config).pages = store.pages.map (LocalPage.undescribed config) := by
  have hpieces : store.pages.flatMap (LocalPage.rebalance config) =
      store.pages.map (LocalPage.undescribed config) := by
    rw [List.map_eq_flatMap, List.flatMap_def, List.flatMap_def]
    refine congrArg _ (List.map_congr_left fun page hpage => ?_)
    rw [LocalPage.rebalance_eq (hrouted.strict page hpage), LocalPage.undescribed]
    split
    case isTrue hover =>
      rw [splitEntries_whole (h.whole page hpage hover)]
      rfl
    case isFalse => rfl
  have hsorted : (store.pages.map (LocalPage.undescribed config)).Pairwise
      fun a b => a.firstKey ≤ b.firstKey := by
    rw [List.pairwise_map]
    simpa [LocalPage.firstKey, List.pairwise_map] using h.inOrder
  rw [CowPagedStore.rebalanceDirtyPages]
  simp only [hpieces]
  exact List.Pairwise.insertionSort_eq hsorted

/-- An undisturbed store is routed after its pages have been divided. -/
theorem routed_rebalance (hrouted : Routed store.pages) (h : Undisturbed config store.pages) :
    Routed (store.rebalanceDirtyPages config).pages := by
  rw [rebalance_undisturbed hrouted h]
  refine ⟨by simpa using hrouted.nonempty, ?_, ?_⟩
  · intro page hpage
    obtain ⟨old, hold, rfl⟩ := List.mem_map.mp hpage
    rw [LocalPage.undescribed_entries]
    exact hrouted.strict old hold
  intro i page hpage e he
  rw [List.getElem?_map, Option.map_eq_some_iff] at hpage
  obtain ⟨old, hold, rfl⟩ := hpage
  rw [LocalPage.undescribed_entries] at he
  obtain ⟨hi, rfl⟩ := List.getElem?_eq_some_iff.mp hold
  have hroute := hrouted.route i _ hold e he
  rw [findPageIndex, pageIndexOf_eq_iff (by simpa using hi)] at hroute ⊢
  obtain ⟨hbefore, hstop⟩ := hroute
  simp only [List.getElem_map, List.length_map] at hbefore hstop ⊢
  refine ⟨fun j hj => ?_, ?_⟩
  · -- An earlier page that lost its descriptor would leave no entry at `i`.
    have hover : store.pages[j].overflows config = false := by
      by_contra hover
      have hempty := List.pairwise_iff_getElem.mp h.last j i (hj.trans hi) hi hj
        (by simpa using hover)
      rw [hempty] at he
      cases he
    rw [LocalPage.undescribed, if_neg (by simp [hover])]
    exact hbefore j hj
  rcases hstop with hstop | hlast
  · left
    rw [LocalPage.undescribed]
    split
    · rfl
    · exact hstop
  · exact .inr hlast

end Rebalance

end VeilKnit.Mailbox
