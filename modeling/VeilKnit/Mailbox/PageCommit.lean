import VeilKnit.Mailbox.PageCrash

/-!
# Commits over a record that answers

When every call is served, a plan is carried out: its pages land on their own
subkeys, read back as they were written, and open again from the new index with the
entries that were in memory. The module also computes how much room pages and indexes
take, which is what a plan can fail by.
-/

namespace VeilKnit.Mailbox

open Library Fallible

variable {D T : Type} [DigestScheme D] [DecidableEq D] [PageEntry T]

/-! ## Writes that are served -/

section Served

variable {n : UInt32} {m : Memory}

/-- The record after some page writes. -/
def Memory.write (m : Memory) (writes : List (CowPageDescriptor D × Bytes)) : Memory :=
  writes.foldl (fun m write => Function.update m write.1.subkey (some write.2)) m

section

omit [DigestScheme D] [DecidableEq D] [PageEntry T]

variable {writes : List (CowPageDescriptor D × Bytes)}

theorem Memory.write_of_not_mem {k : Subkey}
    (h : k ∉ writes.map fun write => write.1.subkey) : m.write writes k = m k := by
  induction writes generalizing m with
  | nil => rfl
  | cons write writes ih =>
    rw [List.map_cons, List.mem_cons, not_or] at h
    change (Memory.write (Function.update m write.1.subkey (some write.2)) writes) k = m k
    rw [ih h.2, Function.update_of_ne h.1]

/-- Writes to different subkeys all stay in place. -/
theorem Memory.write_of_mem (hdistinct : (writes.map fun write => write.1.subkey).Nodup)
    {write : CowPageDescriptor D × Bytes} (h : write ∈ writes) :
    (m.write writes).Holds write.1.subkey write.2 := by
  induction writes generalizing m with
  | nil => cases h
  | cons first writes ih =>
    rw [List.map_cons, List.nodup_cons] at hdistinct
    rcases List.mem_cons.mp h with rfl | h
    · change Memory.write (Function.update m write.1.subkey (some write.2)) writes _ = _
      rw [Memory.write_of_not_mem hdistinct.1, Function.update_self]
    · exact ih hdistinct.2 h

theorem triple_store_quiet (subkey : Subkey) (bytes : Bytes) :
    Triple (fun w => w = Record.quiet n m) (recordOps.store subkey bytes)
      (fun _ w => w = Record.quiet n (Function.update m subkey (some bytes)))
      (fun _ _ => False) := by
  refine triple_mapError fun w hw => ?_
  subst hw
  rfl

theorem triple_persist_quiet (transactions : List PendingCowTransaction) :
    Triple (fun w => w = Record.quiet n m) (recordOps.persistTransactionLog transactions)
      (fun _ w => w = Record.quiet n m) (fun _ _ => False) := by
  intro w hw
  subst hw
  rfl

theorem triple_writePages_quiet (writes : List (CowPageDescriptor D × Bytes)) :
    Triple (fun w => w = Record.quiet n m) (writePages recordOps writes)
      (fun _ w => w = Record.quiet n (m.write writes)) (fun _ _ => False) := by
  refine triple_bind (triple_gather_total
    (I := fun before w => w = Record.quiet n (m.write before)) fun before write after _ => ?_)
    fun _ => triple_pure fun _ hw => hw
  have hlast : m.write (before ++ [write]) =
      Function.update (m.write before) write.1.subkey (some write.2) := by
    simp [Memory.write]
  rw [hlast]
  exact triple_store_quiet _ _

/-- A served read of a subkey in use returns what it holds. -/
theorem triple_fetch_held {subkey : Subkey} {bytes : Bytes} (h : m.Holds subkey bytes) :
    Triple (fun w => w = Record.quiet n m) (recordOps.fetch subkey)
      (fun read w => w = Record.quiet n m ∧ read = bytes) (fun _ _ => False) := by
  refine (triple_fetch_quiet subkey).weaken (fun _ hw => hw) (fun read w hw => ⟨hw.1, ?_⟩)
    fun _ w hw => ?_
  · exact Option.some.inj (hw.2.symm.trans h)
  · rw [Memory.Holds, hw.2] at h
    cases h

end

end Served

/-! ## The wire form of pages and indexes -/

section Wire

/-- A digest of 32 bytes. -/
def DigestWidth (D : Type) [DigestScheme D] : Prop :=
  (DigestScheme.codec : Codec D).HasLength 32

variable {generation : UInt64} {subkey : Subkey} {entries : List T}

omit [DecidableEq D] in
/-- A page takes as much room as its size was estimated at. -/
theorem wirePage_length (hwidth : DigestWidth D) :
    (wirePage (D := D) generation subkey entries).2.length = serializedPageSize D entries := by
  have hsize : ∀ page : CowDataPage D T, page.serialize.length =
      10 + ((PageEntry.codec : Codec T).list.encode page.entries).length + 32 := by
    intro page
    have hversion := Codec.u16_hasLength page.version
    have hgeneration := Codec.u64_hasLength page.generation
    have hdigest := hwidth page.digest
    simp only [CowDataPage.serialize, CowDataPage.codec, Codec.imap, Codec.pair,
      List.length_append, hversion, hgeneration, hdigest]
    omega
  simp only [wirePage, serializedPageSize, hsize]

/-- What a descriptor of a page is sure to contain: the range. -/
def LocalPage.rangeOnly (page : LocalPage D T) : CowPageDescriptor D where
  subkey := 0
  firstKey := page.firstKey
  lastKey := lastKeyOf page.entries
  generation := 0
  entryCount := 0
  serializedSize := 0
  digest := DigestScheme.zero

/-- The serialized size of the index that lists the pages of a store. -/
def CowPagedStore.serializedIndexSize (store : CowPagedStore D T) : Nat :=
  let index : CowIndex D :=
    { version := mailboxProtocolVersion
      generation := 0
      previousGeneration := store.currentIndex.map CowIndex.generation
      createdAt := 0
      pages := store.pages.map LocalPage.rangeOnly
      digest := DigestScheme.zero }
  index.serialize.length

section

omit [DecidableEq D]

/-- The room a descriptor takes depends on its range alone. -/
theorem descriptor_length (hwidth : DigestWidth D) (d : CowPageDescriptor D) :
    (CowPageDescriptor.codec.encode d).length =
      52 + (Codec.bytes.encode d.firstKey).length + (Codec.bytes.encode d.lastKey).length := by
  have hsubkey := Codec.u32_hasLength d.subkey
  have hgeneration := Codec.u64_hasLength d.generation
  have hcount := Codec.u32_hasLength d.entryCount
  have hsize := Codec.u32_hasLength d.serializedSize
  have hdigest := hwidth d.digest
  simp only [CowPageDescriptor.codec, Codec.imap, Codec.pair, List.length_append, hsubkey,
    hgeneration, hcount, hsize, hdigest]
  omega

theorem index_length (hwidth : DigestWidth D) (index : CowIndex D) : index.serialize.length =
      50 + (Codec.u64.option.encode index.previousGeneration).length +
        (Codec.length.encode index.pages.length).length +
        (index.pages.map fun d => 52 + (Codec.bytes.encode d.firstKey).length +
          (Codec.bytes.encode d.lastKey).length).sum := by
  have hversion := Codec.u16_hasLength index.version
  have hgeneration := Codec.u64_hasLength index.generation
  have hcreated := Codec.u64_hasLength index.createdAt
  have hdigest := hwidth index.digest
  simp only [CowIndex.serialize, CowIndex.codec, Codec.imap, Codec.pair, Codec.list,
    List.length_append, List.length_flatMap, hversion, hgeneration, hcreated, hdigest,
    ← descriptor_length hwidth]
  simp only [CowPageDescriptor.codec, Codec.imap, Codec.pair]
  omega

theorem planIndex_length (hwidth : DigestWidth D) {store : CowPagedStore D T}
    {plan : GenerationPlan D} (createdAt : UInt64)
    (haccounts : List.Forall₂ Accounts plan.newPages store.pages) :
    (store.planIndex plan createdAt).serialize.length = store.serializedIndexSize := by
  have hranges : plan.newPages.map (fun d => (d.firstKey, d.lastKey)) =
      (store.pages.map LocalPage.rangeOnly).map (fun d => (d.firstKey, d.lastKey)) := by
    rw [← List.forall₂_eq_eq_eq, List.forall₂_map_left_iff, List.forall₂_map_right_iff,
      List.forall₂_map_right_iff]
    exact haccounts.imp fun d page h => Prod.ext h.firstKey h.lastKey
  have hsizes := congrArg (List.map fun range : Key × Key =>
    52 + (Codec.bytes.encode range.1).length + (Codec.bytes.encode range.2).length) hranges
  have hcount := congrArg List.length hranges
  simp only [List.map_map, Function.comp_def, List.length_map] at hsizes hcount
  rw [index_length hwidth, CowPagedStore.serializedIndexSize, index_length hwidth]
  simp only [CowPagedStore.planIndex, List.length_map, List.map_map, Function.comp_def, hsizes,
    hcount]

end

/-- A sorted page that fits a value opens again from its wire form. -/
theorem wirePage_opens (hstrict : KeyedList.Strict pageKey entries)
    (hsize : (wirePage (D := D) generation subkey entries).2.length ≤ maxNetworkDhtValueBytes) :
    checkReadback T (wirePage (D := D) generation subkey entries).1
        (wirePage (D := D) generation subkey entries).2 = .ok () ∧
      openPage (wirePage (D := D) generation subkey entries).1
          (wirePage (D := D) generation subkey entries).2 =
        .ok { descriptor := some (wirePage generation subkey entries).1, entries, dirty := false } := by
  let unsigned : CowDataPage D T :=
    { version := mailboxProtocolVersion, generation, entries, digest := DigestScheme.zero }
  let page : CowDataPage D T := { unsigned with digest := pageDigest unsigned }
  have hdecoded : deserialize CowDataPage.codec (wirePage (D := D) generation subkey entries).2 =
      .ok page := by
    refine deserialize_encode ?_ hsize
    intro hnil
    have hlength := congrArg List.length hnil
    have hversion := Codec.u16_hasLength mailboxProtocolVersion
    simp only [CowDataPage.codec, Codec.imap, Codec.pair, List.length_append,
      List.length_nil] at hlength
    omega
  have hvalid : validatePage page (wirePage (D := D) generation subkey entries).1 = .ok () :=
    validatePage_ok_iff.mpr ⟨rfl, rfl, rfl, rfl, rfl, hstrict, rfl, rfl⟩
  have hlength : (wirePage (D := D) generation subkey entries).1.serializedSize.toNat =
      (wirePage (D := D) generation subkey entries).2.length := by
    exact UInt32.toNat_ofNat_of_lt' (hsize.trans_lt (by decide))
  constructor
  · rw [checkReadback, hdecoded]
    exact hvalid
  · rw [openPage, if_neg (not_not.mpr hlength.symm), hdecoded]
    change (do validatePage page _; Except.ok _ : Except MailboxError (LocalPage D T)) = _
    rw [hvalid]
    rfl

end Wire

/-! ## Plans that succeed -/

section Planning

variable {generation : UInt64} {totalSubkeys : UInt32} {limit : Nat} {free : List Subkey}
  {pages : List (LocalPage D T)}

omit [DecidableEq D] in
theorem planPages_succeeds (hdescribed : ∀ page ∈ pages, page.dirty = false →
      ∃ d, page.descriptor = some d)
    (hfree : pages.countP LocalPage.dirty ≤ free.length)
    (hsize : ∀ page ∈ pages, page.dirty = true → ∀ subkey,
      (wirePage (D := D) generation subkey page.entries).2.length ≤ limit) :
    ∃ r, planPages generation totalSubkeys limit free pages = .ok r := by
  induction pages generalizing free with
  | nil => exact ⟨_, rfl⟩
  | cons page pages ih =>
    have hrest := fun free (hfree : _ ≤ List.length free) => ih
      (fun page' hpage' => hdescribed page' (List.mem_cons_of_mem _ hpage')) hfree
      (fun page' hpage' => hsize page' (List.mem_cons_of_mem _ hpage'))
    simp only [planPages]
    by_cases hdirty : page.dirty = true
    · rw [List.countP_cons_of_pos hdirty] at hfree
      cases free with
      | nil => exact absurd hfree (by simp)
      | cons subkey free =>
        obtain ⟨r, hr⟩ := hrest free (by simpa using hfree)
        have hfits := hsize page List.mem_cons_self hdirty subkey
        refine ⟨((wirePage generation subkey page.entries).1 :: r.1,
          wirePage generation subkey page.entries :: r.2), ?_⟩
        simp only [hdirty, Bool.not_true, Bool.false_eq_true, if_false, hr,
          if_neg (not_lt.mpr hfits)]
        rfl
    rw [List.countP_cons_of_neg hdirty] at hfree
    rw [Bool.not_eq_true] at hdirty
    obtain ⟨d, hd⟩ := hdescribed page List.mem_cons_self hdirty
    obtain ⟨r, hr⟩ := hrest free hfree
    refine ⟨(d :: r.1, r.2), ?_⟩
    simp only [hdirty, Bool.not_false, if_true, hd, hr]
    rfl

/-- Where a planned descriptor finds its page: a clean page has it already, a changed
page is written under it. -/
def Placed (generation : UInt64) (writes : List (CowPageDescriptor D × Bytes))
    (page : LocalPage D T) (d : CowPageDescriptor D) : Prop :=
  (page.dirty = false ∧ page.descriptor = some d) ∨
    (page.dirty = true ∧ ∃ write ∈ writes, write.1 = d ∧
      write = wirePage generation d.subkey page.entries)

section

omit [DecidableEq D]

theorem Placed.mono {writes writes' : List (CowPageDescriptor D × Bytes)} {page : LocalPage D T}
    {d : CowPageDescriptor D} (h : Placed generation writes page d)
    (hsub : ∀ write ∈ writes, write ∈ writes') : Placed generation writes' page d := by
  refine h.imp id fun ⟨hdirty, write, hwrite, hd⟩ => ?_
  exact ⟨hdirty, write, hsub write hwrite, hd⟩

theorem planPages_placed {newPages : List (CowPageDescriptor D)}
    {writes : List (CowPageDescriptor D × Bytes)}
    (h : planPages generation totalSubkeys limit free pages = .ok (newPages, writes)) :
    List.Forall₂ (Placed generation writes) pages newPages := by
  induction pages generalizing free newPages writes with
  | nil =>
    cases h
    exact .nil
  | cons page pages ih =>
    simp only [planPages] at h
    by_cases hdirty : page.dirty = true
    · cases free with
      | nil => simp [hdirty] at h
      | cons subkey free =>
        simp only [hdirty, Bool.not_true, Bool.false_eq_true, if_false] at h
        split at h
        · cases h
        simp only [except_bind_eq_ok] at h
        obtain ⟨⟨ds, ws⟩, hrest, hresult⟩ := h
        cases hresult
        refine .cons (.inr ⟨hdirty, _, List.mem_cons_self, rfl, rfl⟩) ?_
        exact (ih hrest).imp fun _ _ hplaced =>
          hplaced.mono fun write hwrite => List.mem_cons_of_mem _ hwrite
    rw [Bool.not_eq_true] at hdirty
    cases hdescriptor : page.descriptor with
    | none => simp [hdirty, hdescriptor] at h
    | some d =>
      simp only [hdirty, Bool.not_false, if_true, hdescriptor, except_bind_eq_ok] at h
      obtain ⟨⟨ds, ws⟩, hrest, hresult⟩ := h
      cases hresult
      exact .cons (.inl ⟨hdirty, hdescriptor⟩) (ih hrest)

end

omit [DigestScheme D] [DecidableEq D] [PageEntry T] in
theorem freeSubkeys_nodup (store : CowPagedStore D T) : store.freeSubkeys.Nodup := by
  refine List.Nodup.filter _ (List.Nodup.map_on ?_ List.nodup_range)
  intro i hi j hj heq
  have hbound : store.totalSubkeys.toNat < UInt32.size := store.totalSubkeys.toNat_lt
  rw [List.mem_range] at hi hj
  have hnat := congrArg UInt32.toNat heq
  rwa [UInt32.toNat_ofNat_of_lt' (by omega), UInt32.toNat_ofNat_of_lt' (by omega)] at hnat

end Planning

/-! ## Commits that are served -/

section Commits

variable {config : MailboxConfig} {store : CowPagedStore D T} {plan : GenerationPlan D} {n : UInt32}
  {m : Memory}

/-- What a commit needs of a store, as dividing leaves it, besides free subkeys: the
ranges of its pages lie apart, and its changed pages and its index fit a value. -/
structure Committable (config : MailboxConfig) (store : CowPagedStore D T) : Prop where
  apart : store.pages.Pairwise fun a b => lastKeyOf a.entries < b.firstKey
  pages : ∀ page ∈ store.pages, page.dirty = true → serializedPageSize D page.entries ≤
      min (min config.pageSplitThreshold (estimatedDhtValueLimit store.totalSubkeys))
        maxNetworkDhtValueBytes
  index : store.serializedIndexSize ≤
    min (estimatedDhtValueLimit store.totalSubkeys) maxNetworkDhtValueBytes

/-- What is known of the page writes of a plan. -/
structure PlanWrites (config : MailboxConfig) (store : CowPagedStore D T)
    (plan : GenerationPlan D) : Prop where
  distinct : (plan.pageWrites.map fun write => write.1.subkey).Nodup
  wire : ∀ write ∈ plan.pageWrites, ∃ page ∈ store.pages, page.dirty = true ∧
    write = wirePage plan.generation write.1.subkey page.entries
  size : ∀ write ∈ plan.pageWrites, write.2.length ≤
    min config.pageSplitThreshold (estimatedDhtValueLimit store.totalSubkeys)
  placed : List.Forall₂ (Placed plan.generation plan.pageWrites) store.pages plan.newPages

section

omit [DecidableEq D]

theorem planWrites (hsound : PagesSound store.pages)
    (hsorted : store.pages.Pairwise fun a b => a.firstKey ≤ b.firstKey)
    (hplan : store.planGeneration config = .ok plan) : PlanWrites config store plan := by
  have hpages := planned_in_order hsound hsorted hplan
  have hwrites := (planPages_ok hpages).2
  exact ⟨hwrites.subkeys.sublist.nodup (freeSubkeys_nodup store), hwrites.wire, hwrites.size,
    planPages_placed hpages⟩

theorem planGeneration_succeeds (hwidth : DigestWidth D) (h : Committable config store)
    (hdescribed : ∀ page ∈ store.pages, page.dirty = false → ∃ d, page.descriptor = some d)
    (hfree : store.pendingChanges ≤ store.freeSubkeys.length) :
    ∃ plan, store.planGeneration config = .ok plan := by
  have hplanned : ∃ r, planPages store.nextGeneration store.totalSubkeys
      (min config.pageSplitThreshold (estimatedDhtValueLimit store.totalSubkeys))
      store.freeSubkeys store.pages = .ok r := by
    refine planPages_succeeds hdescribed hfree fun page hpage hdirty subkey => ?_
    rw [wirePage_length hwidth]
    exact (h.pages page hpage hdirty).trans (min_le_left _ _)
  obtain ⟨r, hr⟩ := hplanned
  exact ⟨_, by simp only [CowPagedStore.planGeneration, hr]; rfl⟩

theorem firstKeyOf_le_lastKeyOf {entries : List T} (h : KeyedList.Strict pageKey entries) :
    firstKeyOf entries ≤ lastKeyOf entries := by
  cases entries with
  | nil => exact le_refl _
  | cons e entries => exact le_lastKeyOf h List.mem_cons_self

end

/-- A clean page of a store with changes is in the record. -/
theorem Anchored.clean_stored (h : Anchored store m) (hpending : store.pendingChanges ≠ 0)
    {page : LocalPage D T} (hpage : page ∈ store.pages) (hclean : page.dirty = false) :
    ∃ index d, store.currentIndex = some index ∧ d ∈ index.pages ∧ page.descriptor = some d ∧
      Stored m d page.entries := by
  rcases h.clean with hfresh | hstored
  · exact absurd (by simp [CowPagedStore.pendingChanges, hfresh, emptyPage]) hpending
  · exact hstored page hpage hclean

/-- The planned descriptors are on data subkeys. -/
theorem Anchored.plan_subkeys (h : Anchored store m) (hpending : store.pendingChanges ≠ 0)
    (hsorted : store.pages.Pairwise fun a b => a.firstKey ≤ b.firstKey)
    (hplan : store.planGeneration config = .ok plan) {d : CowPageDescriptor D}
    (hd : d ∈ plan.newPages) : firstDataSubkey ≤ d.subkey := by
  obtain ⟨page, hpage, hplaced⟩ :=
    forall₂_exists_left (planWrites h.sound hsorted hplan).placed hd
  rcases hplaced with ⟨hclean, hdescriptor⟩ | ⟨_, write, hwrite, rfl, _⟩
  · obtain ⟨index, d', hindex, hd', hdescriptor', _⟩ := h.clean_stored hpending hpage hclean
    cases hdescriptor.symm.trans hdescriptor'
    exact ((validateIndexShape_ok_iff.mp (h.complete hindex).2.shape).2.1 d hd').1
  · exact (mem_freeSubkeys (plan_writes_free hplan hwrite)).1

/-- A planned index has the right shape exactly when the ranges of the pages lie apart. -/
theorem Anchored.planIndex_shape_iff (h : Anchored store m) (hpending : store.pendingChanges ≠ 0)
    (hsorted : store.pages.Pairwise fun a b => a.firstKey ≤ b.firstKey)
    (hplan : store.planGeneration config = .ok plan) (createdAt : UInt64) :
    validateIndexShape (store.planIndex plan createdAt) = .ok () ↔
      store.pages.Pairwise fun a b => lastKeyOf a.entries < b.firstKey := by
  have haccounts := planned_pages h.sound hsorted hplan
  have hranges : plan.newPages.map (fun d => (d.firstKey, d.lastKey)) =
      store.pages.map fun page => (page.firstKey, lastKeyOf page.entries) := by
    rw [← List.forall₂_eq_eq_eq, List.forall₂_map_left_iff, List.forall₂_map_right_iff]
    exact haccounts.imp fun d page hd => Prod.ext hd.firstKey hd.lastKey
  have happart : plan.newPages.Pairwise (fun d d' => d.lastKey < d'.firstKey) ↔
      store.pages.Pairwise fun a b => lastKeyOf a.entries < b.firstKey := by
    have hpairs := congrArg
      (List.Pairwise fun range range' : Key × Key => range.2 < range'.1) hranges
    simpa only [List.pairwise_map, eq_iff_iff] using hpairs
  rw [validateIndexShape_ok_iff]
  constructor
  · rintro ⟨_, _, hpairs⟩
    exact happart.mp hpairs
  · intro hpairs
    refine ⟨rfl, fun d hd => ⟨h.plan_subkeys hpending hsorted hplan hd, ?_⟩, happart.mpr hpairs⟩
    obtain ⟨page, hpage, hd'⟩ := forall₂_exists_right haccounts hd
    rw [hd'.firstKey, hd'.lastKey]
    exact firstKeyOf_le_lastKeyOf (h.strict page hpage)

/-- Once all writes have landed, the planned pages are in the record. -/
theorem Anchored.planned_stored (h : Anchored store m) (hpending : store.pendingChanges ≠ 0)
    (hsorted : store.pages.Pairwise fun a b => a.firstKey ≤ b.firstKey)
    (hplan : store.planGeneration config = .ok plan)
    (hsize : ∀ write ∈ plan.pageWrites, write.2.length ≤ maxNetworkDhtValueBytes) (bytes : Bytes) :
    List.Forall₂ (fun page d => Stored
        (Function.update (m.write plan.pageWrites) plan.targetSlot (some bytes)) d page.entries)
      store.pages plan.newPages := by
  have hwrites := planWrites h.sound hsorted hplan
  have htarget : ∀ d : CowPageDescriptor D, firstDataSubkey ≤ d.subkey →
      d.subkey ≠ plan.targetSlot := by
    intro d hdata hsame
    rw [hsame, (plan_target hplan).1] at hdata
    exact UInt32.not_lt.mpr hdata otherSlot_lt
  have hmembers := (List.forall₂_and_left store.pages plan.newPages).mpr
    ⟨fun (page : LocalPage D T) (hpage : page ∈ store.pages) => hpage, hwrites.placed⟩
  refine hmembers.imp fun page d hplaced => ?_
  obtain ⟨hpage, ⟨hclean, hdescriptor⟩ | ⟨_, write, hwrite, rfl, hwire⟩⟩ := hplaced
  · -- A clean page is where it was.
    obtain ⟨index, d', hindex, hd', hdescriptor', held, hholds, hopen⟩ :=
      h.clean_stored hpending hpage hclean
    cases hdescriptor.symm.trans hdescriptor'
    have hfree := (h.pages_in_use hindex hd').1
    have hdata := ((validateIndexShape_ok_iff.mp (h.complete hindex).2.shape).2.1 d hd').1
    have huntouched : d.subkey ∉ plan.pageWrites.map fun write => write.1.subkey := by
      intro hmem
      obtain ⟨write, hwrite, hsubkey⟩ := List.mem_map.mp hmem
      rw [← hsubkey] at hfree
      exact hfree (plan_writes_free hplan hwrite)
    refine ⟨held, ?_, hopen⟩
    rw [Memory.Holds, Function.update_of_ne (htarget d hdata), Memory.write_of_not_mem huntouched]
    exact hholds
  have hfits := hsize write hwrite
  have hlanded := Memory.write_of_mem (m := m) hwrites.distinct hwrite
  have hdata := (mem_freeSubkeys (plan_writes_free hplan hwrite)).1
  rw [hwire] at hfits
  have hopens := (wirePage_opens (h.strict page hpage) hfits).2
  rw [← hwire] at hopens
  refine ⟨write.2, ?_, hopens⟩
  rw [Memory.Holds, Function.update_of_ne (htarget write.1 hdata)]
  exact hlanded

omit [PageEntry T] in
theorem checkIndexReadback_serialize {index : CowIndex D}
    (hsize : index.serialize.length ≤ maxNetworkDhtValueBytes)
    (hdigest : indexDigest index = index.digest) :
    deserialize CowIndex.codec index.serialize = .ok index ∧
      checkIndexReadback index index.serialize = .ok index := by
  have hdecoded : deserialize CowIndex.codec index.serialize = .ok index := by
    refine deserialize_encode ?_ hsize
    intro hnil
    have hlength := congrArg List.length hnil
    have hversion := Codec.u16_hasLength index.version
    simp only [CowIndex.codec, Codec.imap, Codec.pair, List.length_append, hversion,
      List.length_nil] at hlength
    omega
  refine ⟨hdecoded, ?_⟩
  rw [checkIndexReadback, hdecoded]
  change (if index.digest ≠ index.digest ∨ indexDigest index ≠ index.digest then _ else _ :
    Except MailboxError (CowIndex D)) = _
  rw [if_neg (by simp [hdigest])]

/-- Pages that open from where other pages are stored have their entries. -/
theorem OpenedFrom.entries {index : CowIndex D} {pages stored : List (LocalPage D T)}
    (h : OpenedFrom m.Holds index pages)
    (hstored : List.Forall₂ (fun d (page : LocalPage D T) => Stored m d page.entries)
      index.pages stored) :
    pages.flatMap LocalPage.entries = stored.flatMap LocalPage.entries := by
  obtain ⟨_, loaded, hloaded, rfl⟩ := h
  rw [flatMap_entries_orEmpty]
  generalize index.pages = ds at hloaded hstored
  induction hloaded generalizing stored with
  | nil =>
    cases hstored
    rfl
  | cons hpage _ ih =>
    cases hstored with
    | cons hstored hrest =>
      obtain ⟨bytes, hholds, hopen⟩ := hpage
      obtain ⟨bytes', hholds', hopen'⟩ := hstored
      cases hholds.symm.trans hholds'
      have hsame := Except.ok.inj (hopen.symm.trans hopen')
      rw [List.flatMap_cons, List.flatMap_cons, ih hrest, hsame]

/-- A plan within the limits is carried out when every call is served, and the pages
that are verified at its end have the entries that were in memory. -/
theorem triple_writeGeneration_quiet (h : Anchored store m) (hpending : store.pendingChanges ≠ 0)
    (hsorted : store.pages.Pairwise fun a b => a.firstKey ≤ b.firstKey)
    (hplan : store.planGeneration config = .ok plan) (createdAt : UInt64)
    (hshape : validateIndexShape (store.planIndex plan createdAt) = .ok ())
    (hsize : ∀ write ∈ plan.pageWrites, write.2.length ≤ maxNetworkDhtValueBytes)
    (hindex : (store.planIndex plan createdAt).serialize.length ≤
      min (estimatedDhtValueLimit store.totalSubkeys) maxNetworkDhtValueBytes)
    (transactions : List PendingCowTransaction) :
    Triple (fun w => w = Record.quiet n m)
      (writeGeneration recordOps store plan createdAt transactions)
      (fun r w => w = Record.quiet n (Function.update (m.write plan.pageWrites) plan.targetSlot
          (some (store.planIndex plan createdAt).serialize)) ∧
        (∀ page ∈ r.2, page.dirty = false) ∧ r.2.flatMap LocalPage.entries = store.allEntries)
      (fun _ _ => False) := by
  have hwrites := planWrites h.sound hsorted hplan
  refine triple_bind (triple_persist_quiet transactions) fun _ => ?_
  refine triple_bind (triple_writePages_quiet plan.pageWrites) fun _ => ?_
  refine triple_bind ((triple_traverse_forall₂ (R := fun _ _ => True) fun write hwrite => ?_).weaken
    (fun _ hw => hw) (fun _ _ hw => hw.1) fun _ _ hw => hw) fun _ => ?_
  · -- Every page reads back as it was written.
    refine triple_bind (triple_fetch_held (Memory.write_of_mem hwrites.distinct hwrite)) fun read => ?_
    obtain ⟨page, hpage, _, hwire⟩ := hwrites.wire write hwrite
    have hfits := hsize write hwrite
    rw [hwire] at hfits
    have hreadback := (wirePage_opens (h.strict page hpage) hfits).1
    rw [← hwire] at hreadback
    refine triple_lift (fun _ _ w hw => ⟨hw.1, trivial⟩) fun e herror w hw => ?_
    rw [hw.2, hreadback] at herror
    cases herror
  rw [if_neg (not_lt.mpr (hindex.trans (min_le_left _ _)))]
  obtain ⟨_, hcheck⟩ := checkIndexReadback_serialize (hindex.trans (min_le_right _ _))
    (planIndex_digest store plan createdAt)
  refine triple_bind (M := fun readback w =>
    w = Record.quiet n (Function.update (m.write plan.pageWrites) plan.targetSlot
      (some (store.planIndex plan createdAt).serialize)) ∧
      readback = store.planIndex plan createdAt) ?_ fun readback => ?_
  · refine triple_bind (triple_store_quiet _ _) fun _ => ?_
    refine triple_bind (triple_fetch_held (Function.update_self ..)) fun read => ?_
    refine triple_lift (fun readback hok w hw => ⟨hw.1, ?_⟩) fun e herror w hw => ?_
    · rw [hw.2, hcheck] at hok
      exact (Except.ok.inj hok).symm
    · rw [hw.2, hcheck] at herror
      cases herror
  refine triple_and_pure fun hreadback => ?_
  subst hreadback
  refine triple_bind ((triple_loadAndValidate_quiet (T := T) _).weaken (fun _ hw => hw)
    (fun _ _ hw => hw) fun e w hw => ?_) fun pages => triple_pure fun w hw =>
      ⟨hw.1, fun page hpage => hw.2.loadedFrom.clean hpage, ?_⟩
  · refine hw.2 ⟨hshape, fun d hd => ?_⟩
    obtain ⟨page, _, hstored⟩ := forall₂_exists_left
      (h.planned_stored hpending hsorted hplan hsize _) hd
    exact ⟨page.entries, hstored⟩
  · exact hw.2.entries (h.planned_stored hpending hsorted hplan hsize _).flip

end Commits

end VeilKnit.Mailbox
