import VeilKnit.Mailbox.PageRouting

/-!
# Validated generations

What a reader knows of pages and indexes that passed its checks: the ranges of an
index lie apart, a page matches its descriptor, the pages of a loaded generation
are routed. A generation that a commit has read back holds the entries that were
in memory, because the index and each page agree with what was planned in their
digests.
-/

namespace VeilKnit.Mailbox

open Library Fallible

variable {D T σ : Type} [DigestScheme D] [PageEntry T]

/-! ## Checks -/

section Checks

omit [DigestScheme D] in
/-- The ranges of an index pass validation when each is well formed and they lie one
after the other, all after the given key. -/
theorem validateRanges_ok_iff {previousLast : Option Key} {ds : List (CowPageDescriptor D)} :
    validateRanges previousLast ds = .ok () ↔
      (∀ d ∈ ds, firstDataSubkey ≤ d.subkey ∧ d.firstKey ≤ d.lastKey) ∧
        ds.Pairwise (fun d d' => d.lastKey < d'.firstKey) ∧
        ∀ last ∈ previousLast, ∀ d ∈ ds, last < d.firstKey := by
  induction ds generalizing previousLast with
  | nil => simp [validateRanges]
  | cons d ds ih =>
    rw [validateRanges]
    split
    case isTrue hrange =>
      simp only [reduceCtorEq, false_iff, not_and, List.mem_cons, forall_eq_or_imp]
      rintro ⟨⟨hsubkey, hkeys⟩, _⟩
      rcases hrange with hrange | hrange
      · exact absurd hrange (UInt32.not_lt.mpr hsubkey)
      · exact absurd hkeys (not_le.mpr hrange)
    case isFalse hrange =>
    push Not at hrange
    obtain ⟨hsubkey, hkeys⟩ := hrange
    rw [UInt32.not_lt] at hsubkey
    have hfollows : (∀ last ∈ previousLast, last < d.firstKey) ↔
        previousLast.any (fun last => decide (d.firstKey ≤ last)) = false := by
      cases previousLast <;> simp
    split
    case isTrue hoverlap =>
      simp only [reduceCtorEq, false_iff, not_and]
      intro _ _ hafter
      have := hfollows.mp fun last hlast => hafter last hlast d List.mem_cons_self
      rw [hoverlap] at this
      cases this
    case isFalse hoverlap =>
    rw [Bool.not_eq_true] at hoverlap
    rw [ih]
    simp only [List.mem_cons, forall_eq_or_imp, List.pairwise_cons, Option.mem_def,
      Option.some.injEq, forall_eq']
    constructor
    · rintro ⟨hds, hapart, hfirst⟩
      refine ⟨⟨⟨hsubkey, hkeys⟩, hds⟩, ⟨hfirst, hapart⟩, fun last hlast => ?_⟩
      have hd := hfollows.mpr hoverlap last hlast
      exact ⟨hd, fun d' hd' => hd.trans (hkeys.trans_lt (hfirst d' hd'))⟩
    · rintro ⟨⟨_, hds⟩, ⟨hfirst, hapart⟩, _⟩
      exact ⟨hds, hapart, hfirst⟩

omit [DigestScheme D] in
theorem validateIndexShape_ok_iff {index : CowIndex D} : validateIndexShape index = .ok () ↔
      index.version = mailboxProtocolVersion ∧
        (∀ d ∈ index.pages, firstDataSubkey ≤ d.subkey ∧ d.firstKey ≤ d.lastKey) ∧
        index.pages.Pairwise fun d d' => d.lastKey < d'.firstKey := by
  unfold validateIndexShape
  split
  case isTrue hversion => simp [hversion]
  case isFalse hversion =>
    push Not at hversion
    simp [hversion, validateRanges_ok_iff]

theorem keysIncrease_iff {entries : List T} :
    KeysIncrease entries ↔ KeyedList.Strict pageKey entries := by
  rw [KeysIncrease, List.isChain_iff_pairwise, List.pairwise_map]
  rfl

/-- The digest of a page of the entries. -/
def entriesDigest (generation : UInt64) (entries : List T) : D :=
  pageDigest
    ({ version := mailboxProtocolVersion, generation, entries, digest := DigestScheme.zero } :
      CowDataPage D T)

/-- A descriptor tells the truth about the entries of its page. -/
structure Describes (d : CowPageDescriptor D) (entries : List T) : Prop where
  count : UInt32.ofNat entries.length = d.entryCount
  digest : entriesDigest d.generation entries = d.digest
  strict : KeyedList.Strict pageKey entries
  firstKey : firstKeyOf entries = d.firstKey
  lastKey : lastKeyOf entries = d.lastKey

variable [DecidableEq D] {d : CowPageDescriptor D}

theorem validatePage_ok_iff {page : CowDataPage D T} : validatePage page d = .ok () ↔
      page.version = mailboxProtocolVersion ∧ page.generation = d.generation ∧
        page.digest = d.digest ∧ Describes d page.entries := by
  have hdigest : page.version = mailboxProtocolVersion → page.generation = d.generation →
      entriesDigest d.generation page.entries = pageDigest page := by
    intro hversion hgeneration
    simp only [entriesDigest, pageDigest, CowDataPage.unsigned, ← hversion, ← hgeneration]
  unfold validatePage
  constructor
  · intro h
    split at h
    · cases h
    split at h
    · cases h
    split at h
    · cases h
    rename_i hmeta hsorted hkeys
    push Not at hmeta hsorted hkeys
    obtain ⟨hversion, hgeneration, hcount, hpage, hcomputed⟩ := hmeta
    exact ⟨hversion, hgeneration, hpage, hcount,
      (hdigest hversion hgeneration).trans hcomputed, keysIncrease_iff.mp hsorted,
      hkeys.1, hkeys.2⟩
  rintro ⟨hversion, hgeneration, hpage, h⟩
  rw [if_neg, if_neg, if_neg]
  · push Not
    exact ⟨h.firstKey, h.lastKey⟩
  · push Not
    exact keysIncrease_iff.mpr h.strict
  · push Not
    exact ⟨hversion, hgeneration, h.count, hpage, (hdigest hversion hgeneration) ▸ h.digest⟩

/-- A page in memory as a load makes it from a descriptor. -/
structure LoadedPage (d : CowPageDescriptor D) (page : LocalPage D T) : Prop where
  descriptor : page.descriptor = some d
  clean : page.dirty = false
  describes : Describes d page.entries

theorem loadedPage_of_openPage {bytes : Bytes} {page : LocalPage D T}
    (h : openPage d bytes = .ok page) : LoadedPage d page := by
  unfold openPage at h
  split at h
  · cases h
  cases hdecoded : deserialize (CowDataPage.codec (D := D) (T := T)) bytes with
  | error error =>
    rw [hdecoded] at h
    cases h
  | ok wire =>
    rw [hdecoded] at h
    cases hvalid : validatePage wire d with
    | error error =>
      simp only [bind, Except.bind, hvalid] at h
      cases h
    | ok _ =>
      simp only [bind, Except.bind, hvalid] at h
      cases h
      exact ⟨rfl, rfl, (validatePage_ok_iff.mp hvalid).2.2.2⟩

end Checks

/-! ## Loaded generations -/

section Loaded

/-- Pages made from the descriptors of an index, one by one. -/
structure LoadedPages (ds : List (CowPageDescriptor D)) (loaded : List (LocalPage D T)) :
    Prop where
  descriptors : loaded.map LocalPage.descriptor = ds.map some
  valid : ∀ page ∈ loaded, ∀ d, page.descriptor = some d → LoadedPage d page

/-- The pages of a validated generation. -/
structure LoadedFrom (index : CowIndex D) (pages : List (LocalPage D T)) : Prop where
  shape : validateIndexShape index = .ok ()
  pages : ∃ loaded, LoadedPages index.pages loaded ∧
    pages = if loaded.isEmpty then [emptyPage] else loaded

variable {index : CowIndex D} {pages loaded : List (LocalPage D T)}

/-- The index of a validated generation already lists its pages in order. -/
theorem sortLoaded_eq (hshape : validateIndexShape index = .ok ())
    (h : LoadedPages index.pages loaded) : sortLoaded loaded = loaded := by
  obtain ⟨_, hranges, hapart⟩ := validateIndexShape_ok_iff.mp hshape
  apply List.Pairwise.insertionSort_eq
  have hkeys : loaded.map (fun page => page.descriptor.elim [] CowPageDescriptor.firstKey) =
      index.pages.map CowPageDescriptor.firstKey := by
    have hmap := congrArg (List.map fun d => d.elim [] CowPageDescriptor.firstKey) h.descriptors
    simpa [Function.comp_def] using hmap
  have hordered : (index.pages.map CowPageDescriptor.firstKey).Pairwise (· ≤ ·) := by
    rw [List.pairwise_map]
    refine hapart.imp_of_mem fun {d d'} hd hd' hlt => ?_
    exact (hranges d hd).2.trans hlt.le
  rw [← hkeys, List.pairwise_map] at hordered
  exact hordered

variable {d : CowPageDescriptor D}

theorem LoadedPages.page (h : LoadedPages index.pages loaded)
    (hd : d ∈ index.pages) : ∃ page ∈ loaded, LoadedPage d page := by
  have hmem : some d ∈ loaded.map LocalPage.descriptor := by
    rw [h.descriptors]
    exact List.mem_map_of_mem hd
  obtain ⟨page, hpage, hdescriptor⟩ := List.mem_map.mp hmem
  exact ⟨page, hpage, h.valid page hpage d hdescriptor⟩

theorem LoadedPages.descriptor (h : LoadedPages index.pages loaded) {page : LocalPage D T}
    (hpage : page ∈ loaded) : ∃ d ∈ index.pages, LoadedPage d page := by
  have hmem : page.descriptor ∈ index.pages.map some := by
    rw [← h.descriptors]
    exact List.mem_map_of_mem hpage
  obtain ⟨d, hd, hdescriptor⟩ := List.mem_map.mp hmem
  exact ⟨d, hd, h.valid page hpage d hdescriptor.symm⟩

theorem LoadedFrom.page (h : LoadedFrom index pages)
    (hd : d ∈ index.pages) : ∃ page ∈ pages, LoadedPage d page := by
  obtain ⟨loaded, hloaded, rfl⟩ := h.pages
  obtain ⟨page, hpage, hvalid⟩ := hloaded.page hd
  have hne : loaded.isEmpty = false := by
    cases loaded with
    | nil => cases hpage
    | cons => rfl
  simp only [hne]
  exact ⟨page, hpage, hvalid⟩

theorem LoadedFrom.descriptor (h : LoadedFrom index pages) {page : LocalPage D T}
    (hpage : page ∈ pages) : page = emptyPage ∨ ∃ d ∈ index.pages, LoadedPage d page := by
  obtain ⟨loaded, hloaded, rfl⟩ := h.pages
  split at hpage
  · exact .inl (List.mem_singleton.mp hpage)
  · exact .inr (hloaded.descriptor hpage)

/-- A page of a validated generation is clean. -/
theorem LoadedFrom.clean (h : LoadedFrom index pages) {page : LocalPage D T}
    (hpage : page ∈ pages) : page.dirty = false := by
  rcases h.descriptor hpage with rfl | ⟨d, _, hd⟩
  · rfl
  · exact hd.clean

variable {entries : List T}

theorem firstKeyOf_le (h : KeyedList.Strict pageKey entries) {e : T}
    (he : e ∈ entries) : firstKeyOf entries ≤ pageKey e := by
  cases entries with
  | nil => cases he
  | cons a entries =>
    rcases List.mem_cons.mp he with rfl | he
    · exact le_refl _
    · exact ((List.pairwise_cons.mp h).1 e he).le

theorem le_lastKeyOf (h : KeyedList.Strict pageKey entries) {e : T}
    (he : e ∈ entries) : pageKey e ≤ lastKeyOf entries := by
  rcases List.eq_nil_or_concat entries with rfl | ⟨before, a, rfl⟩
  · cases he
  rw [List.concat_eq_append] at h he ⊢
  have hlast : lastKeyOf (before ++ [a]) = pageKey a := by simp [lastKeyOf]
  rw [hlast]
  rcases List.mem_append.mp he with he | he
  · exact ((List.pairwise_append.mp h).2.2 e he a (List.mem_singleton_self a)).le
  · rw [List.mem_singleton.mp he]

/-- A validated generation is routed. -/
theorem LoadedFrom.routed (h : LoadedFrom index pages) : Routed pages := by
  obtain ⟨loaded, hloaded, rfl⟩ := h.pages
  obtain ⟨_, hranges, hapart⟩ := validateIndexShape_ok_iff.mp h.shape
  split
  case isTrue =>
    refine ⟨by simp, fun page hpage => ?_, fun i page hpage e he => ?_⟩
    · rw [List.mem_singleton.mp hpage]
      exact List.Pairwise.nil
    · rw [List.mem_singleton.mp (List.mem_of_getElem? hpage)] at he
      cases he
  case isFalse hne =>
  refine ⟨by simpa using hne, fun page hpage => ?_, fun i page hpage e he => ?_⟩
  · obtain ⟨d, _, hd⟩ := hloaded.descriptor hpage
    exact hd.describes.strict
  obtain ⟨hi, hget⟩ := List.getElem?_eq_some_iff.mp hpage
  have hlength : loaded.length = index.pages.length := by
    simpa using congrArg List.length hloaded.descriptors
  have hdescriptor : page.descriptor = some index.pages[i] := by
    have := congrArg (fun ds => ds[i]?) hloaded.descriptors
    simpa [hpage, List.getElem?_eq_getElem (hlength ▸ hi)] using this
  have hd := (hloaded.valid page (List.mem_of_getElem? hpage) _ hdescriptor).describes
  rw [findPageIndex, hloaded.descriptors, pageIndexOf_eq_iff (by simpa [← hlength] using hi)]
  simp only [List.getElem_map, stopsAt]
  refine ⟨fun j hj => decide_eq_false (not_le.mpr ?_), .inl (decide_eq_true ?_)⟩
  · have hlt := List.pairwise_iff_getElem.mp hapart j i (by omega) (by omega) hj
    refine hlt.trans_le ?_
    rw [← hd.firstKey]
    exact firstKeyOf_le hd.strict he
  · rw [← hd.lastKey]
    exact le_lastKeyOf hd.strict he

end Loaded

/-! ## Reading through a record -/

section Reading

variable [DecidableEq D]

/-- Reads keep an invariant of the record and return bytes in a relation to the
subkey that the invariant warrants. -/
def ReadsAs (dht : DhtOps σ) (inv : σ → Prop) (content : Subkey → Bytes → Prop) : Prop :=
  ∀ subkey, Triple inv (dht.read subkey) (fun bytes w => inv w ∧ content subkey bytes)
    (fun _ w => inv w)

variable {dht : DhtOps σ} {inv : σ → Prop} {content : Subkey → Bytes → Prop}

theorem ReadsAs.fetch (h : ReadsAs dht inv content) (subkey : Subkey) :
    Triple inv (dht.fetch subkey) (fun bytes w => inv w ∧ content subkey bytes)
      (fun _ w => inv w) :=
  triple_mapError (h subkey)

theorem triple_loadPage (h : ReadsAs dht inv content) (d : CowPageDescriptor D) :
    Triple inv (loadPage dht d : Fallible MailboxError σ (LocalPage D T))
      (fun page w => inv w ∧ ∃ bytes, content d.subkey bytes ∧ openPage d bytes = .ok page)
      (fun _ w => inv w) :=
  triple_bind (h.fetch d.subkey) fun bytes =>
    triple_lift (fun _ hopen _ hw => ⟨hw.1, bytes, hw.2, hopen⟩) fun _ _ _ hw => hw.1

/-- The pages of an index, each opened from bytes that the record returned. -/
def OpenedPages (content : Subkey → Bytes → Prop) (ds : List (CowPageDescriptor D))
    (loaded : List (LocalPage D T)) : Prop :=
  List.Forall₂ (fun d page => ∃ bytes, content d.subkey bytes ∧ openPage d bytes = .ok page)
    ds loaded

/-- The pages of a generation that validated over bytes that the record returned. -/
def OpenedFrom (content : Subkey → Bytes → Prop) (index : CowIndex D)
    (pages : List (LocalPage D T)) : Prop :=
  validateIndexShape index = .ok () ∧ ∃ loaded, OpenedPages content index.pages loaded ∧
      pages = if loaded.isEmpty then [emptyPage] else loaded

theorem OpenedPages.loadedPages {ds : List (CowPageDescriptor D)} {loaded : List (LocalPage D T)}
    (h : OpenedPages content ds loaded) : LoadedPages ds loaded := by
  induction h with
  | nil => exact ⟨rfl, fun page hpage => by cases hpage⟩
  | @cons d page ds loaded hpage _ ih =>
    obtain ⟨bytes, _, hopen⟩ := hpage
    have hvalid := loadedPage_of_openPage hopen
    refine ⟨by simp [hvalid.descriptor, ih.descriptors], fun page' hpage' d' hd' => ?_⟩
    rcases List.mem_cons.mp hpage' with rfl | hpage'
    · cases hvalid.descriptor.symm.trans hd'
      exact hvalid
    · exact ih.valid page' hpage' d' hd'

theorem triple_readBackPage (h : ReadsAs dht inv content) (d : CowPageDescriptor D) :
    Triple inv (readBackPage dht T d) (fun _ w => inv w) (fun _ w => inv w) :=
  triple_bind (h.fetch d.subkey) fun _ =>
    triple_lift (fun _ _ _ hw => hw.1) fun _ _ _ hw => hw.1

/-- A load of an index's pages that succeeds has opened all of them. -/
theorem triple_loadAndValidateOwnedPages (h : ReadsAs dht inv content) (index : CowIndex D) :
    Triple inv
      (loadAndValidateOwnedPages dht index : Fallible MailboxError σ (List (LocalPage D T)))
      (fun pages w => inv w ∧ OpenedFrom content index pages) (fun _ w => inv w) := by
  refine triple_bind (M := fun _ w => inv w ∧ validateIndexShape index = .ok ()) ?_ fun _ => ?_
  · exact triple_lift (fun _ hshape _ hw => ⟨hw, hshape⟩) fun _ _ _ hw => hw
  intro w hw
  have hgather := triple_gather (f := (loadPage dht : _ → Fallible MailboxError σ (LocalPage D T)))
    (C := True) fun d (_ : d ∈ index.pages) => (triple_loadPage h d).weaken (fun _ hw => hw)
      (fun _ _ hw => hw) (fun _ _ hw => ⟨hw, trivial⟩)
  refine triple_bind (hgather.weaken (fun _ hw => hw) (fun _ _ hw => hw) (fun _ _ hw => hw.1))
    (fun loaded => ?_) w hw.1
  refine triple_pure fun w' hw' => ⟨hw'.1, hw.2, loaded, hw'.2, ?_⟩
  rw [sortLoaded_eq hw.2 (OpenedPages.loadedPages hw'.2)]

theorem OpenedFrom.loadedFrom {index : CowIndex D} {pages : List (LocalPage D T)}
    (h : OpenedFrom content index pages) : LoadedFrom index pages := by
  obtain ⟨hshape, loaded, hopened, hpages⟩ := h
  exact ⟨hshape, loaded, hopened.loadedPages, hpages⟩

end Reading

/-! ## Planned generations -/

section Planned

variable {α β : Type} {R : α → β → Prop}

theorem forall₂_exists_left {as : List α} {bs : List β}
    (h : List.Forall₂ R as bs) {b : β} (hb : b ∈ bs) : ∃ a ∈ as, R a b := by
  induction h with
  | nil => cases hb
  | @cons a b' _ _ hab _ ih =>
    rcases List.mem_cons.mp hb with rfl | hb
    · exact ⟨a, List.mem_cons_self, hab⟩
    · obtain ⟨a', ha', hR⟩ := ih hb
      exact ⟨a', List.mem_cons_of_mem _ ha', hR⟩

theorem forall₂_exists_right {as : List α} {bs : List β}
    (h : List.Forall₂ R as bs) {a : α} (ha : a ∈ as) : ∃ b ∈ bs, R a b :=
  forall₂_exists_left h.flip ha

/-- The descriptor that a plan gives a page: its own if it is clean, that of its wire
form under some subkey if it has changed. -/
def PlannedPage (generation : UInt64) (page : LocalPage D T) (d : CowPageDescriptor D) : Prop :=
  if page.dirty then d = (wirePage generation d.subkey page.entries).1
  else page.descriptor = some d

/-- A plan keeps to the free subkeys, in order, and to the size limit. -/
structure PlannedWrites (generation : UInt64) (limit : Nat) (free : List Subkey)
    (pages : List (LocalPage D T)) (writes : List (CowPageDescriptor D × Bytes)) : Prop where
  subkeys : writes.map (fun write => write.1.subkey) <+: free
  wire : ∀ write ∈ writes, ∃ page ∈ pages, page.dirty = true ∧
    write = wirePage generation write.1.subkey page.entries
  size : ∀ write ∈ writes, write.2.length ≤ limit

variable {generation : UInt64} {totalSubkeys : UInt32} {limit : Nat} {free : List Subkey}
  {pages : List (LocalPage D T)} {newPages : List (CowPageDescriptor D)}
  {writes : List (CowPageDescriptor D × Bytes)}

theorem planPages_ok
    (h : planPages generation totalSubkeys limit free pages = .ok (newPages, writes)) :
    List.Forall₂ (PlannedPage generation) pages newPages ∧
      PlannedWrites generation limit free pages writes := by
  induction pages generalizing free newPages writes with
  | nil =>
    cases h
    exact ⟨.nil, List.nil_prefix, by simp, by simp⟩
  | cons page pages ih =>
    simp only [planPages] at h
    split at h
    case isTrue hclean =>
      rw [Bool.not_eq_true'] at hclean
      cases hdescriptor : page.descriptor with
      | none => simp [hdescriptor] at h
      | some d =>
        simp only [hdescriptor, except_bind_eq_ok] at h
        obtain ⟨⟨ds, ws⟩, hrest, hresult⟩ := h
        cases hresult
        obtain ⟨hpages, hwrites⟩ := ih hrest
        refine ⟨.cons (by simpa [PlannedPage, hclean] using hdescriptor) hpages,
          hwrites.subkeys, fun write hwrite => ?_, hwrites.size⟩
        obtain ⟨page', hpage', hwire⟩ := hwrites.wire write hwrite
        exact ⟨page', List.mem_cons_of_mem _ hpage', hwire⟩
    case isFalse hdirty =>
    rw [Bool.not_eq_true', Bool.not_eq_false] at hdirty
    cases free with
    | nil => simp at h
    | cons subkey free =>
      dsimp only at h
      split at h
      case isTrue => cases h
      case isFalse hsize =>
      simp only [except_bind_eq_ok] at h
      obtain ⟨⟨ds, ws⟩, hrest, hresult⟩ := h
      cases hresult
      obtain ⟨hpages, hwrites⟩ := ih hrest
      refine ⟨.cons (by simp [PlannedPage, hdirty, wirePage]) hpages,
        ⟨(List.cons_prefix_cons).mpr ⟨rfl, hwrites.subkeys⟩, fun write hwrite => ?_,
          fun write hwrite => ?_⟩⟩
      · rcases List.mem_cons.mp hwrite with rfl | hwrite
        · exact ⟨page, List.mem_cons_self, hdirty, rfl⟩
        · obtain ⟨page', hpage', hwire⟩ := hwrites.wire write hwrite
          exact ⟨page', List.mem_cons_of_mem _ hpage', hwire⟩
      · rcases List.mem_cons.mp hwrite with rfl | hwrite
        · exact not_lt.mp hsize
        · exact hwrites.size write hwrite

/-- Pages of a store that stays consistent with what it has written: every page is
sorted, and the descriptor of a clean page describes its entries. -/
structure PagesSound (pages : List (LocalPage D T)) : Prop where
  strict : ∀ page ∈ pages, KeyedList.Strict pageKey page.entries
  described : ∀ page ∈ pages, page.dirty = false → ∀ d, page.descriptor = some d →
    Describes d page.entries

/-- A descriptor gives the digest and the range of a page in memory. -/
structure Accounts (d : CowPageDescriptor D) (page : LocalPage D T) : Prop where
  digest : entriesDigest d.generation page.entries = d.digest
  firstKey : d.firstKey = page.firstKey
  lastKey : d.lastKey = lastKeyOf page.entries

theorem PlannedPage.accounts {page : LocalPage D T} {d : CowPageDescriptor D}
    (h : PlannedPage generation page d)
    (hdescribed : page.dirty = false → ∀ d, page.descriptor = some d → Describes d page.entries) :
    Accounts d page := by
  unfold PlannedPage at h
  split at h
  case isTrue =>
    rw [h]
    exact ⟨rfl, rfl, rfl⟩
  case isFalse hclean =>
    have hd := hdescribed (by simpa using hclean) d h
    exact ⟨hd.digest, hd.firstKey.symm, hd.lastKey.symm⟩

theorem planned_accounts (h : List.Forall₂ (PlannedPage generation) pages newPages)
    (hsound : PagesSound pages) : List.Forall₂ Accounts newPages pages := by
  have hdescribed := hsound.described
  clear hsound
  induction h with
  | nil => exact .nil
  | @cons page d pages newPages hd _ ih =>
    refine .cons (hd.accounts (hdescribed page List.mem_cons_self)) (ih ?_)
    exact fun page' hpage' => hdescribed page' (List.mem_cons_of_mem _ hpage')

/-- The verified pages of a planned index hold the entries that were in memory. -/
theorem mem_verified (free : CollisionFree D) {index : CowIndex D}
    {verified : List (LocalPage D T)} (hsound : PagesSound pages)
    (hplan : List.Forall₂ (PlannedPage generation) pages newPages)
    (hindex : ∀ d, d ∈ index.pages ↔ d ∈ newPages) (hloaded : LoadedFrom index verified) {e : T} :
    e ∈ verified.flatMap LocalPage.entries ↔ e ∈ pages.flatMap LocalPage.entries := by
  have hsame : ∀ page ∈ pages, ∀ d, PlannedPage generation page d →
      ∀ page', LoadedPage d page' → page'.entries = page.entries := by
    intro page hpage d hd page' hpage'
    have hdigest := (hd.accounts (hsound.described page hpage)).digest
    exact (pageDigest_inj free (hpage'.describes.digest.trans hdigest.symm)).2.2
  simp only [List.mem_flatMap]
  constructor
  · rintro ⟨page', hpage', he⟩
    rcases hloaded.descriptor hpage' with rfl | ⟨d, hd, hvalid⟩
    · cases he
    · obtain ⟨page, hpage, hplanned⟩ := forall₂_exists_left hplan ((hindex d).mp hd)
      exact ⟨page, hpage, hsame page hpage d hplanned page' hvalid ▸ he⟩
  · rintro ⟨page, hpage, he⟩
    obtain ⟨d, hd, hplanned⟩ := forall₂_exists_right hplan hpage
    obtain ⟨page', hpage', hvalid⟩ := hloaded.page ((hindex d).mpr hd)
    exact ⟨page', hpage', (hsame page hpage d hplanned page' hvalid).symm ▸ he⟩

end Planned

end VeilKnit.Mailbox
