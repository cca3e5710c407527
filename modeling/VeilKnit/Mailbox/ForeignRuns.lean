import VeilKnit.Mailbox.ForeignStore

/-!
# What a foreign reader gets

Whatever a reader returns is one whole generation, as the owner planned it. A read that
overlaps at most one commit returns one: the generation that was current when the commit
began stays in its slot, with all its pages, until the read is over.
-/

namespace VeilKnit.Mailbox

open Library Fallible

variable {D T : Type} [DigestScheme D] [DecidableEq D] [PageEntry T]

/-! ## Opening what was read -/

section Opening

variable {reads : ForeignReads} {ds : List (CowPageDescriptor D)}

/-- The reader has these bytes of a subkey. -/
def ForeignReads.Got (reads : ForeignReads) (subkey : Subkey) (bytes : Bytes) : Prop :=
  reads.lookup subkey = some (some bytes)

variable {entries : List T}

theorem openForeign_opened (h : openForeign reads ds = some entries) :
    ∃ loaded : List (LocalPage D T), OpenedPages reads.Got ds loaded ∧
      loaded.flatMap LocalPage.entries = entries := by
  induction ds generalizing entries with
  | nil =>
    obtain rfl : [] = entries := by simpa [openForeign] using h
    exact ⟨[], .nil, rfl⟩
  | cons d ds ih =>
    rw [openForeign] at h
    split at h
    case h_1 bytes hgot =>
      split at h
      case h_1 page hopen =>
        obtain ⟨rest, hrest, rfl⟩ := Option.map_eq_some_iff.mp h
        obtain ⟨loaded, hloaded, rfl⟩ := ih hrest
        exact ⟨page :: loaded, .cons ⟨bytes, hgot, hopen⟩ hloaded, rfl⟩
      case h_2 => cases h
    case h_2 => cases h

theorem openForeign_isSome
    (h : ∀ d ∈ ds, ∃ bytes, reads.Got d.subkey bytes ∧
      ∃ page : LocalPage D T, openPage d bytes = .ok page) :
    ∃ entries : List T, openForeign reads ds = some entries := by
  induction ds with
  | nil => exact ⟨[], rfl⟩
  | cons d ds ih =>
    obtain ⟨⟨bytes, hgot, page, hopen⟩, hrest⟩ := List.forall_mem_cons.mp h
    obtain ⟨entries, hentries⟩ := ih hrest
    refine ⟨page.entries ++ entries, ?_⟩
    have hlookup : reads.lookup d.subkey = some (some bytes) := hgot
    simp only [openForeign, hlookup, hopen, hentries, Option.map_some]

variable {index : CowIndex D}

/-- Pages that validate are those of a generation loaded from the index. -/
theorem loadedFrom_of_openForeign (hshape : validateIndexShape index = .ok ())
    (h : openForeign reads index.pages = some entries) :
    ∃ pages : List (LocalPage D T), LoadedFrom index pages ∧
      pages.flatMap LocalPage.entries = entries := by
  obtain ⟨loaded, hopened, rfl⟩ := openForeign_opened h
  exact ⟨_, ⟨hshape, loaded, hopened.loadedPages, rfl⟩, flatMap_entries_orEmpty loaded⟩

omit [PageEntry T] in
theorem mem_foreignIndexes : index ∈ foreignIndexes reads ↔
      ∃ k bytes, (k, some bytes) ∈ reads ∧ openIndex bytes = some index := by
  rw [foreignIndexes, List.mem_insertionSort, List.mem_filterMap]
  constructor
  · rintro ⟨⟨k, read⟩, hmem, hopen⟩
    obtain ⟨bytes, rfl, hindex⟩ := Option.bind_eq_some_iff.mp hopen
    exact ⟨k, bytes, hmem, hindex⟩
  · rintro ⟨k, bytes, hmem, hindex⟩
    exact ⟨(k, some bytes), hmem, hindex⟩

end Opening

namespace ForeignRead

variable {reader : ForeignRead D T}

/-! ## A generation in sight -/

section Sight

/-- The reader is on its way to a generation: what it has read of the index slot is the
index, the index is the one it is trying or still to be tried, and what it has read of
the index's pages is valid. A reader that is done has returned a generation. -/
def Sees (reader : ForeignRead D T) (slot : Subkey) (index : CowIndex D) : Prop :=
  match reader.stage with
  | .indexes reads =>
    ∀ read, reads.lookup slot = some read → read.bind openIndex = some index
  | .pages tried reads later =>
    (tried = index ∧ ∀ d ∈ index.pages, ∀ read, reads.lookup d.subkey = some read →
      ∃ bytes, read = some bytes ∧ ∃ page : LocalPage D T, openPage d bytes = .ok page) ∨
    index ∈ later
  | .done result => ∃ generation, result = .ok generation

variable {slot : Subkey} {index : CowIndex D} {m : Memory}

omit [DigestScheme D] [DecidableEq D] [PageEntry T] in
theorem lookup_append_read (reads : ForeignReads) (k : Subkey) (read : Option Bytes) (k' : Subkey) :
    (reads ++ [(k, read)]).lookup k' =
      (reads.lookup k').or (if k' = k then some read else none) := by
  rw [List.lookup_append]
  by_cases h : k' = k
  · simp [h]
  · have hne : (k' == k) = false := by simpa using h
    simp [h, List.lookup_cons, hne]

/-- A read of a record that holds the generation keeps it in sight. -/
theorem Sees.read (h : reader.Sees slot index) (hholds : HoldsIndex m slot index)
    (hcomplete : Complete T m index) (subkey : Subkey) :
    (reader.read subkey (m subkey)).Sees slot index := by
  unfold Sees at h ⊢
  unfold ForeignRead.read
  cases hstage : reader.stage with
  | indexes reads =>
    rw [hstage] at h
    intro read hread
    rw [lookup_append_read, Option.or_eq_some_iff] at hread
    rcases hread with hold | ⟨_, hnew⟩
    · exact h read hold
    split at hnew
    case isTrue hslot =>
      cases hnew
      obtain ⟨bytes, hbytes, hopen⟩ := hholds
      rw [← hslot, hbytes]
      exact hopen
    case isFalse => cases hnew
  | pages tried reads later =>
    rw [hstage] at h
    refine h.imp (fun ⟨htried, hpages⟩ => ⟨htried, fun d hd read hread => ?_⟩) id
    rw [lookup_append_read, Option.or_eq_some_iff] at hread
    rcases hread with hold | ⟨_, hnew⟩
    · exact hpages d hd read hold
    split at hnew
    case isTrue hsubkey =>
      cases hnew
      obtain ⟨entries, bytes, hbytes, hopen⟩ := hcomplete.pages d hd
      exact ⟨bytes, hsubkey ▸ hbytes, _, hopen⟩
    case isFalse => cases hnew
  | done result =>
    rw [hstage] at h
    exact h

omit [DigestScheme D] [DecidableEq D] [PageEntry T] in
theorem missing_nil_iff : reader.missing = [] ↔
    ∀ k ∈ reader.locations, ∃ read, reader.reads.lookup k = some read := by
  simp only [missing, List.filter_eq_nil_iff, Option.isNone_iff_eq_none]
  exact forall₂_congr fun k _ => Option.ne_none_iff_exists'

/-- Among the indexes to be tried, one that is not too long stays in sight. -/
theorem sees_tryNext {later : List (CowIndex D)} {recordKey : String} {maximumPages : Nat}
    (h : index ∈ later) (hsmall : index.pages.length ≤ maximumPages) :
    ({ recordKey, maximumPages, stage := tryNext recordKey maximumPages later } :
      ForeignRead D T).Sees slot index := by
  induction later with
  | nil => cases h
  | cons tried later ih =>
    rw [tryNext]
    split
    case isTrue hlong =>
      rcases List.mem_cons.mp h with rfl | hlater
      · omega
      · exact ih hlater
    case isFalse =>
      rcases List.mem_cons.mp h with rfl | hlater
      · exact .inl ⟨rfl, fun d _ read hread => by cases hread⟩
      · exact .inr hlater

theorem Sees.advance (h : reader.Sees slot index) (hslot : IsIndexSlot slot)
    (hsmall : index.pages.length ≤ reader.maximumPages) (hmissing : reader.missing = []) :
    reader.advance.Sees slot index := by
  have hread := missing_nil_iff.mp hmissing
  unfold ForeignRead.advance
  cases hstage : reader.stage with
  | indexes reads =>
    simp only [Sees, hstage] at h
    simp only [locations, ForeignRead.reads, hstage] at hread
    have hlocation : slot ∈ [indexSlotA, indexSlotB] := by simpa [IsIndexSlot] using hslot
    obtain ⟨read, hlookup⟩ := hread slot hlocation
    obtain ⟨bytes, rfl, hopen⟩ := Option.bind_eq_some_iff.mp (h read hlookup)
    have hmem : (slot, some bytes) ∈ reads := by
      obtain ⟨before, after, rfl, _⟩ := List.lookup_eq_some_iff.mp hlookup
      simp
    exact sees_tryNext (mem_foreignIndexes.mpr ⟨slot, bytes, hmem, hopen⟩) hsmall
  | pages tried reads later =>
    simp only [Sees, hstage] at h
    simp only [locations, ForeignRead.reads, hstage] at hread
    dsimp only
    rcases h with ⟨rfl, hpages⟩ | hlater
    · -- All pages of the index have been read, and each of them is valid.
      have hvalid : ∀ d ∈ tried.pages, ∃ bytes, reads.Got d.subkey bytes ∧
          ∃ page : LocalPage D T, openPage d bytes = .ok page := by
        intro d hd
        obtain ⟨read, hlookup⟩ := hread d.subkey (List.mem_map_of_mem hd)
        obtain ⟨bytes, rfl, page, hopen⟩ := hpages d hd read hlookup
        exact ⟨bytes, hlookup, page, hopen⟩
      obtain ⟨entries, hentries⟩ := openForeign_isSome hvalid
      rw [hentries]
      exact ⟨_, rfl⟩
    · split
      · exact ⟨_, rfl⟩
      · exact sees_tryNext hlater hsmall
  | done result =>
    simp only [Sees, hstage] at h ⊢
    exact h

end Sight

/-! ## Where a generation comes from -/

section Origin

/-- Every index that the reader has seen is a planned one, and what it has returned are
the entries that the index was planned for. -/
def FromPlanned (planned : List (Attempt D T)) (reader : ForeignRead D T) : Prop :=
  match reader.stage with
  | .indexes reads => ∀ k bytes index, (k, some bytes) ∈ reads → openIndex bytes = some index →
      ∃ a ∈ planned, a.index = index
  | .pages tried _ later => ∀ index ∈ tried :: later,
      validateIndexShape index = .ok () ∧ ∃ a ∈ planned, a.index = index
  | .done result => ∀ index entries, result = .ok (index, entries) →
      ∃ a ∈ planned, a.index = index ∧ entries.Perm a.entries

variable {planned : List (Attempt D T)}

omit [PageEntry T] in
theorem fromPlanned_tryNext {later : List (CowIndex D)} (recordKey : String) (maximumPages : Nat)
    (h : ∀ index ∈ later, validateIndexShape index = .ok () ∧ ∃ a ∈ planned, a.index = index) :
    ({ recordKey, maximumPages, stage := tryNext recordKey maximumPages later } :
      ForeignRead D T).FromPlanned planned := by
  induction later with
  | nil => exact fun index entries hresult => by cases hresult
  | cons tried later ih =>
    rw [tryNext]
    split
    · exact ih (List.forall_mem_cons.mp h).2
    · exact h

omit [PageEntry T] in
theorem FromPlanned.mono {planned' : List (Attempt D T)} (h : reader.FromPlanned planned)
    (hsub : planned ⊆ planned') : reader.FromPlanned planned' := by
  unfold FromPlanned at h ⊢
  split at h
  · intro k bytes index hmem hopen
    obtain ⟨a, ha, hindex⟩ := h k bytes index hmem hopen
    exact ⟨a, hsub ha, hindex⟩
  · intro index hindex
    obtain ⟨hshape, a, ha, heq⟩ := h index hindex
    exact ⟨hshape, a, hsub ha, heq⟩
  · intro index entries hresult
    obtain ⟨a, ha, hfound⟩ := h index entries hresult
    exact ⟨a, hsub ha, hfound⟩

omit [PageEntry T] in
theorem FromPlanned.read (h : reader.FromPlanned planned) {subkey : Subkey} {read : Option Bytes}
    (hsubkey : subkey ∈ reader.missing)
    (hread : IsIndexSlot subkey → ∀ bytes index, read = some bytes → openIndex bytes = some index →
      ∃ a ∈ planned, a.index = index) :
    (reader.read subkey read).FromPlanned planned := by
  have hlocation := (List.mem_filter.mp hsubkey).1
  unfold FromPlanned at h ⊢
  unfold ForeignRead.read
  cases hstage : reader.stage with
  | indexes reads =>
    rw [hstage] at h
    simp only [locations, hstage] at hlocation
    intro k bytes index hmem hopen
    rcases List.mem_append.mp hmem with hold | hnew
    · exact h k bytes index hold hopen
    · cases List.mem_singleton.mp hnew
      exact hread (by simpa [IsIndexSlot] using hlocation) bytes index rfl hopen
  | pages tried reads later =>
    rw [hstage] at h
    exact h
  | done result =>
    rw [hstage] at h
    exact h

/-- Pages that validate against a planned index have the planned entries. -/
theorem FromPlanned.advance (h : reader.FromPlanned planned)
    (hcontents : ∀ a ∈ planned, IndexContents a.index a.entries) :
    reader.advance.FromPlanned planned := by
  unfold ForeignRead.advance
  cases hstage : reader.stage with
  | indexes reads =>
    simp only [FromPlanned, hstage] at h
    apply fromPlanned_tryNext
    intro index hindex
    obtain ⟨k, bytes, hmem, hopen⟩ := mem_foreignIndexes.mp hindex
    exact ⟨(openIndex_eq_some_iff.mp hopen).2.1, h k bytes index hmem hopen⟩
  | pages tried reads later =>
    simp only [FromPlanned, hstage] at h
    obtain ⟨⟨hshape, a, ha, hindex⟩, hlater⟩ := List.forall_mem_cons.mp h
    dsimp only
    split
    case h_1 entries hentries =>
      intro index' entries' hresult
      cases hresult
      obtain ⟨pages, hloaded, rfl⟩ := loadedFrom_of_openForeign hshape hentries
      exact ⟨a, ha, hindex, hcontents a ha pages (hindex ▸ hloaded)⟩
    case h_2 => exact fromPlanned_tryNext _ _ hlater
  | done result =>
    simp only [FromPlanned, hstage] at h ⊢
    exact h

end Origin

end ForeignRead

/-! ## Commits in flight -/

section InFlight

variable {config : MailboxConfig} {s : RecordedStore D T}

/-- Each subkey is as before the commit or as after it. -/
def Between (before after m : Memory) : Prop :=
  ∀ k, m k = before k ∨ m k = after k

variable {index : CowIndex D}

/-- While a commit is under way, the current generation stays in its slot, complete. -/
theorem RecordedStore.Kept.during_commit (h : s.Kept) (clock : CommitClock)
    (transactions : List PendingCowTransaction) (fates : List Fate) {m : Memory}
    (hm : Between s.memory (s.next config (.commit clock transactions fates)).memory m)
    (hindex : s.store.currentIndex = some index) :
    HoldsIndex m s.store.activeIndexSlot index ∧ Complete T m index := by
  have hmoves := commit_moves config s clock transactions fates
  generalize s.next config (.commit clock transactions fates) = after at hm hmoves
  have hquiet : after.memory = s.memory →
      HoldsIndex m s.store.activeIndexSlot index ∧ Complete T m index := by
    intro hsame
    obtain rfl : m = s.memory := by
      funext k
      rcases hm k with h | h
      · exact h
      · rw [h, hsame]
    exact h.anchored.complete hindex
  have hstopped : ∀ {plan : GenerationPlan D} {index' : CowIndex D}, s.store.pendingChanges ≠ 0 →
      (s.store.rebalanceDirtyPages config).planGeneration config = .ok plan →
      Interrupted s.memory plan index' after.memory →
      HoldsIndex m s.store.activeIndexSlot index ∧ Complete T m index := by
    intro plan index' hpending hplan hleft
    -- The store as it was divided is anchored in any state between the two.
    have hanchored : Anchored (s.store.rebalanceDirtyPages config) m := by
      apply (anchored_rebalance h.anchored config hpending).of_kept
      intro k hfree hslot
      rcases hm k with hk | hk
      · exact hk
      · rw [hk]
        exact hleft.keeps hplan hfree hslot
    exact hanchored.complete hindex
  cases hmoves with
  | unchanged => exact hquiet rfl
  | unplanned => exact hquiet rfl
  | interrupted hpending hplan hleft => exact hstopped hpending hplan hleft
  | landed hpending hplan hlanded => exact hstopped hpending hplan hlanded.interrupted

/-- After a commit an index slot holds what it held, or the index that was planned. -/
theorem RecordedStore.Kept.holdsIndex_commit (h : s.Kept) (clock : CommitClock)
    (transactions : List PendingCowTransaction) (fates : List Fate) {slot : Subkey}
    (hslot : IsIndexSlot slot) (hholds :
      HoldsIndex (s.next config (.commit clock transactions fates)).memory slot index) :
    HoldsIndex s.memory slot index ∨
      s.store.pendingChanges ≠ 0 ∧ ∃ a ∈ s.attempted config clock, a.index = index := by
  have hmoves := commit_moves config s clock transactions fates
  generalize s.next config (.commit clock transactions fates) = after at hholds hmoves
  have hstopped : ∀ {plan : GenerationPlan D}, s.store.pendingChanges ≠ 0 →
      (s.store.rebalanceDirtyPages config).planGeneration config = .ok plan →
      Interrupted s.memory plan
        ((s.store.rebalanceDirtyPages config).planIndex plan clock.createdAt) after.memory →
      HoldsIndex s.memory slot index ∨
        s.store.pendingChanges ≠ 0 ∧ ∃ a ∈ s.attempted config clock, a.index = index := by
    intro plan hpending hplan hleft
    by_cases hother : slot = s.store.otherSlot
    · subst hother
      refine (hleft.holdsIndex hplan hholds).imp id fun hnew => ⟨hpending, ?_⟩
      refine ⟨⟨_, s.store.allEntries⟩, ?_, hnew.symm⟩
      simp only [RecordedStore.attempted, hplan]
      exact List.mem_singleton_self _
    left
    have hanchored := anchored_rebalance h.anchored config hpending
    have hactive : slot = s.store.activeIndexSlot := by
      unfold CowPagedStore.otherSlot at hother
      rcases hslot with rfl | rfl <;> rcases h.anchored.slot with hA | hB <;> simp_all
    subst hactive
    have hkept := hleft.keeps hplan hanchored.slot_in_use.1 hanchored.slot_in_use.2
    obtain ⟨bytes, hbytes, hopen⟩ := hholds
    exact ⟨bytes, hkept.symm.trans hbytes, hopen⟩
  cases hmoves with
  | unchanged => exact .inl hholds
  | unplanned => exact .inl hholds
  | interrupted hpending hplan hleft => exact hstopped hpending hplan hleft
  | landed hpending hplan hlanded => exact hstopped hpending hplan hlanded.interrupted

/-- What a commit is about to write has the entries that are in memory. -/
theorem RecordedStore.Kept.attempted_contents (free : CollisionFree D) (h : s.Kept)
    (hpending : s.store.pendingChanges ≠ 0) (clock : CommitClock) {a : Attempt D T}
    (ha : a ∈ s.attempted config clock) : IndexContents a.index a.entries := by
  cases hplan : (s.store.rebalanceDirtyPages config).planGeneration config with
  | error error =>
    simp only [RecordedStore.attempted, hplan, List.not_mem_nil] at ha
  | ok plan =>
    simp only [RecordedStore.attempted, hplan, List.mem_singleton] at ha
    rw [ha]
    exact h.planned free hpending clock.createdAt hplan

end InFlight

/-! ## Every run -/

namespace ForeignWorld

variable {config : MailboxConfig} {w w' : ForeignWorld D T}

/-- The owner is one of a run of its own, a commit in flight is one of its commits, and
the record is between the two. -/
structure OwnerRuns (config : MailboxConfig) (w : ForeignWorld D T) : Prop where
  owner : (countedSystem config).Reachable w.owner
  inFlight : ∀ after, w.inFlight = some after → ∃ clock transactions fates,
    w.owner.CounterLeft ∧ after = w.owner.next config (.commit clock transactions fates)
  idle : w.inFlight = none → w.visible = w.owner.memory
  between : ∀ after, w.inFlight = some after → Between w.owner.memory after.memory w.visible

/-- What the steps do, with their conditions. -/
inductive Moves (config : MailboxConfig) (w : ForeignWorld D T) :
    ForeignEvent T → ForeignWorld D T → Prop
  | edit {event : RecordEvent T} (hidle : w.inFlight = none) (hcounter : w.owner.CounterLeft)
      (hmemory : (w.owner.next config event).memory = w.owner.memory)
      (hedit : event = .reload ∨
        (w.owner.next config event).store.currentIndex = w.owner.store.currentIndex) :
      Moves config w (.edit event) { w with owner := w.owner.next config event }
  | startCommit (clock : CommitClock) (transactions : List PendingCowTransaction)
      (fates : List Fate) (hidle : w.inFlight = none) (hcounter : w.owner.CounterLeft) :
      Moves config w (.startCommit clock transactions fates)
        { w with
          inFlight := some (w.owner.next config (.commit clock transactions fates))
          overlapping := w.overlapping + 1
          planned :=
            if w.owner.store.pendingChanges = 0 then w.planned
            else w.planned ++ w.owner.attempted config clock }
  | land (subkey : Subkey) {after : RecordedStore D T} (hinFlight : w.inFlight = some after) :
      Moves config w (.land subkey)
        { w with visible := Function.update w.visible subkey (after.memory subkey) }
  | finishCommit {after : RecordedStore D T} (hinFlight : w.inFlight = some after)
      (committed : List (List T)) :
      Moves config w .finishCommit
        { w with owner := after, visible := after.memory, inFlight := none, committed }
  | startRead (recordKey : String) (maximumPages : Nat) :
      Moves config w (.startRead recordKey maximumPages)
        { w with
          reader := some { recordKey, maximumPages, stage := .indexes [] }
          overlapping := if w.inFlight.isSome then 1 else 0 }
  | read {subkey : Subkey} {reader : ForeignRead D T} (hreader : w.reader = some reader)
      (hmissing : subkey ∈ reader.missing) :
      Moves config w (.read subkey)
        { w with reader := some (reader.read subkey (w.visible subkey)) }
  | advance {reader : ForeignRead D T} (hreader : w.reader = some reader)
      (hmissing : reader.missing = []) :
      Moves config w .advance { w with reader := some reader.advance }

variable {event : ForeignEvent T}

theorem moves_of_step (h : (foreignSystem config).step w event w') : Moves config w event w' := by
  obtain ⟨hcounted, hnext⟩ := h
  cases event with
  | edit event =>
    simp only [next, Option.ite_none_left_eq_some, Bool.or_eq_true, not_or,
      Option.some.injEq] at hnext
    obtain ⟨⟨hidle, hcommit⟩, rfl⟩ := hnext
    have hnone : w.inFlight = none := by simpa using hidle
    cases event with
    | upsert entry => exact .edit hnone hcounted rfl (.inr rfl)
    | remove key =>
      refine .edit hnone hcounted rfl (.inr ?_)
      simp only [RecordedStore.next, CowPagedStore.remove]
      split <;> rfl
    | commit clock transactions fates => exact absurd rfl hcommit
    | reload =>
      refine .edit hnone hcounted ?_ (.inl rfl)
      simp only [RecordedStore.next]
      split <;> rfl
  | startCommit clock transactions fates =>
    simp only [next, Option.ite_none_left_eq_some, Option.some.injEq] at hnext
    obtain ⟨hidle, rfl⟩ := hnext
    exact .startCommit clock transactions fates (by simpa using hidle) hcounted
  | land subkey =>
    obtain ⟨after, hinFlight, rfl⟩ := Option.map_eq_some_iff.mp hnext
    exact .land subkey hinFlight
  | finishCommit =>
    obtain ⟨after, hinFlight, rfl⟩ := Option.map_eq_some_iff.mp hnext
    exact .finishCommit hinFlight _
  | startRead recordKey maximumPages =>
    cases hnext
    exact .startRead recordKey maximumPages
  | read subkey =>
    simp only [next] at hnext
    split at hnext
    case h_1 reader hreader =>
      obtain ⟨hmissing, hnext⟩ := Option.ite_none_right_eq_some.mp hnext
      cases hnext
      exact .read hreader hmissing
    case h_2 => cases hnext
  | advance =>
    simp only [next] at hnext
    split at hnext
    case h_1 reader hreader =>
      obtain ⟨hmissing, hnext⟩ := Option.ite_none_right_eq_some.mp hnext
      cases hnext
      exact .advance hreader hmissing
    case h_2 => cases hnext

theorem ownerRuns_invariant :
    (foreignSystem config : LabelledSystem (ForeignWorld D T) (ForeignEvent T)).Invariant
      (OwnerRuns config) where
  initially w hinit := by
    obtain ⟨owner, howner, rfl⟩ := hinit
    exact ⟨.start howner, nofun, fun _ => rfl, nofun⟩
  preserved w event w' h hstep := by
    cases moves_of_step hstep with
    | @edit event hidle hcounter hmemory _ =>
      exact ⟨reachable_next h.owner event hcounter, fun after hafter => by simp [hidle] at hafter,
        fun _ => (h.idle hidle).trans hmemory.symm, fun after hafter => by simp [hidle] at hafter⟩
    | startCommit clock transactions fates hidle hcounter =>
      refine ⟨h.owner, fun after hafter => ?_, nofun, fun after _ k => .inl ?_⟩
      · exact ⟨clock, transactions, fates, hcounter, (Option.some.inj hafter).symm⟩
      · rw [h.idle hidle]
    | @land subkey after hinFlight =>
      refine ⟨h.owner, h.inFlight, fun hidle => by simp [hinFlight] at hidle, ?_⟩
      intro after' hafter' k
      cases hinFlight.symm.trans hafter'
      by_cases hk : k = subkey
      · subst hk
        exact .inr (Function.update_self ..)
      · simp only [Function.update_of_ne hk]
        exact h.between after hinFlight k
    | finishCommit hinFlight _ =>
      obtain ⟨clock, transactions, fates, hcounter, rfl⟩ := h.inFlight _ hinFlight
      exact ⟨reachable_next h.owner (.commit clock transactions fates) hcounter, nofun,
        fun _ => rfl, nofun⟩
    | startRead => exact ⟨h.owner, h.inFlight, h.idle, h.between⟩
    | read => exact ⟨h.owner, h.inFlight, h.idle, h.between⟩
    | advance => exact ⟨h.owner, h.inFlight, h.idle, h.between⟩

/-! ### Safety -/

/-- Every index in a slot is a planned one, and so is every one that the reader has. -/
structure Planned (w : ForeignWorld D T) : Prop where
  contents : ∀ a ∈ w.planned, IndexContents a.index a.entries
  before : ∀ slot index, IsIndexSlot slot → HoldsIndex w.owner.memory slot index →
    ∃ a ∈ w.planned, a.index = index
  after : ∀ after, w.inFlight = some after → ∀ slot index, IsIndexSlot slot →
    HoldsIndex after.memory slot index → ∃ a ∈ w.planned, a.index = index
  reader : ∀ reader, w.reader = some reader → reader.FromPlanned w.planned

theorem Planned.visible (h : w.Planned) (hruns : w.OwnerRuns config) {slot : Subkey}
    (hslot : IsIndexSlot slot) {index : CowIndex D} (hholds : HoldsIndex w.visible slot index) :
    ∃ a ∈ w.planned, a.index = index := by
  obtain ⟨bytes, hbytes, hopen⟩ := hholds
  cases hinFlight : w.inFlight with
  | none =>
    apply h.before slot index hslot
    exact ⟨bytes, (hruns.idle hinFlight) ▸ hbytes, hopen⟩
  | some after =>
    rcases hruns.between after hinFlight slot with hbefore | hafter
    · exact h.before slot index hslot ⟨bytes, hbefore.symm.trans hbytes, hopen⟩
    · exact h.after after hinFlight slot index hslot ⟨bytes, hafter.symm.trans hbytes, hopen⟩

theorem planned_preserved (free : CollisionFree D) (hruns : w.OwnerRuns config) (h : w.Planned)
    (hmoves : Moves config w event w') : w'.Planned := by
  have hkept := kept_invariant.holds hruns.owner
  cases hmoves with
  | edit hidle _ hmemory _ =>
    exact ⟨h.contents, fun slot index hslot hholds => h.before slot index hslot (hmemory ▸ hholds),
      h.after, h.reader⟩
  | startCommit clock transactions fates hidle _ =>
    have hsub : w.planned ⊆ if w.owner.store.pendingChanges = 0 then w.planned
        else w.planned ++ w.owner.attempted config clock := by
      split
      · exact fun _ ha => ha
      · exact List.subset_append_left _ _
    have hbefore : ∀ slot index, IsIndexSlot slot → HoldsIndex w.owner.memory slot index →
        ∃ a ∈ if w.owner.store.pendingChanges = 0 then w.planned
          else w.planned ++ w.owner.attempted config clock, a.index = index := by
      intro slot index hslot hholds
      obtain ⟨a, ha, hindex⟩ := h.before slot index hslot hholds
      exact ⟨a, hsub ha, hindex⟩
    refine ⟨fun a ha => ?_, hbefore, fun after hafter slot index hslot hholds => ?_,
      fun reader hreader => (h.reader reader hreader).mono hsub⟩
    · dsimp only at ha
      split at ha
      · exact h.contents a ha
      · rename_i hpending
        rcases List.mem_append.mp ha with hold | hnew
        · exact h.contents a hold
        · exact hkept.attempted_contents free hpending clock hnew
    cases hafter
    rcases hkept.holdsIndex_commit clock transactions fates hslot hholds with
      hold | ⟨hpending, a, ha, hindex⟩
    · exact hbefore slot index hslot hold
    · refine ⟨a, ?_, hindex⟩
      simp only [if_neg hpending]
      exact List.mem_append_right _ ha
  | land subkey _ => exact ⟨h.contents, h.before, h.after, h.reader⟩
  | finishCommit hinFlight _ =>
    exact ⟨h.contents, h.after _ hinFlight, nofun, h.reader⟩
  | startRead recordKey maximumPages =>
    refine ⟨h.contents, h.before, h.after, fun reader hreader => ?_⟩
    cases hreader
    intro k bytes index hmem
    cases hmem
  | read hreader hmissing =>
    refine ⟨h.contents, h.before, h.after, fun reader' hreader' => ?_⟩
    cases hreader'
    refine (h.reader _ hreader).read hmissing fun hslot bytes index hbytes hopen => ?_
    exact h.visible hruns hslot ⟨bytes, hbytes, hopen⟩
  | advance hreader _ =>
    refine ⟨h.contents, h.before, h.after, fun reader' hreader' => ?_⟩
    cases hreader'
    exact (h.reader _ hreader).advance h.contents

theorem planned_of_reachable (free : CollisionFree D)
    (reached : (foreignSystem config).Reachable w) : w.Planned := by
  refine ownerRuns_invariant.holds_of_relative (fun w hinit => ?_)
    (fun w event w' hruns h hstep => planned_preserved free hruns h (moves_of_step hstep)) reached
  obtain ⟨owner, ⟨name, packageIndex, totalSubkeys, rfl⟩, rfl⟩ := hinit
  refine ⟨nofun, fun slot index _ hholds => ?_, nofun, nofun⟩
  obtain ⟨bytes, hbytes, _⟩ := hholds
  cases hbytes

end ForeignWorld

end VeilKnit.Mailbox
