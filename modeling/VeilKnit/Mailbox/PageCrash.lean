import VeilKnit.Mailbox.PageReload

/-!
# Runs of a store over its record

A store is edited, committed under any fates and reloaded, over a record that starts
out empty. Beside it run the contents of the last commit that succeeded and the
attempts since then that failed. The store stays anchored in its record, and the
index slot that is not active holds an older generation or the index of a failed
attempt.
-/

namespace VeilKnit.Mailbox

open Library Fallible

variable {D T : Type} [DigestScheme D] [DecidableEq D] [PageEntry T]

/-! ## The contents of an index -/

section IndexContents

/-- Whatever loads from an index has these entries. -/
def IndexContents (index : CowIndex D) (entries : List T) : Prop :=
  ∀ pages : List (LocalPage D T), LoadedFrom index pages →
    (pages.flatMap LocalPage.entries).Perm entries

variable {config : MailboxConfig}

section

omit [DecidableEq D]

variable {ds : List (CowPageDescriptor D)}

theorem LoadedPages.forall₂ {loaded : List (LocalPage D T)}
    (h : LoadedPages ds loaded) : List.Forall₂ LoadedPage ds loaded := by
  induction ds generalizing loaded with
  | nil =>
    have hnil : loaded = [] := by simpa using h.descriptors
    rw [hnil]
    exact .nil
  | cons d ds ih =>
    cases loaded with
    | nil => simpa using h.descriptors
    | cons page loaded =>
      obtain ⟨hpage, hrest⟩ := List.cons.inj h.descriptors
      refine .cons (h.valid page List.mem_cons_self d hpage) (ih ⟨hrest, fun page' hpage' => ?_⟩)
      exact h.valid page' (List.mem_cons_of_mem _ hpage')

/-- Two lists of pages with the digests of the same descriptors have the same entries. -/
theorem entries_eq_of_digests (free : CollisionFree D)
    {pages pages' : List (LocalPage D T)} (h : List.Forall₂ (fun d (page : LocalPage D T) =>
      entriesDigest d.generation page.entries = d.digest) ds pages)
    (h' : List.Forall₂ (fun d (page : LocalPage D T) =>
      entriesDigest d.generation page.entries = d.digest) ds pages') :
    pages.flatMap LocalPage.entries = pages'.flatMap LocalPage.entries := by
  induction h generalizing pages' with
  | nil =>
    cases h'
    rfl
  | cons hpage _ ih =>
    cases h' with
    | cons hpage' hrest' =>
      have hentries := (pageDigest_inj free (hpage.trans hpage'.symm)).2.2
      rw [List.flatMap_cons, List.flatMap_cons, ih hrest']
      exact congrArg (· ++ _) hentries

theorem LoadedPages.digests {loaded : List (LocalPage D T)} (h : LoadedPages ds loaded) :
    List.Forall₂ (fun d (page : LocalPage D T) =>
      entriesDigest d.generation page.entries = d.digest) ds loaded :=
  h.forall₂.imp fun _ _ hpage => hpage.describes.digest

end

omit [DecidableEq D] [DigestScheme D] [PageEntry T] in
/-- The page that stands in for no pages adds no entries. -/
theorem flatMap_entries_orEmpty (loaded : List (LocalPage D T)) :
    (if loaded.isEmpty then [emptyPage] else loaded).flatMap LocalPage.entries =
      loaded.flatMap LocalPage.entries := by
  cases loaded <;> rfl

section

omit [DecidableEq D]

/-- An index from which pages with some entries loaded has those entries. -/
theorem LoadedFrom.contents (free : CollisionFree D) {index : CowIndex D}
    {pages : List (LocalPage D T)} (h : LoadedFrom index pages) :
    IndexContents index (pages.flatMap LocalPage.entries) := by
  intro pages' h'
  obtain ⟨loaded, hloaded, rfl⟩ := h.pages
  obtain ⟨loaded', hloaded', rfl⟩ := h'.pages
  rw [flatMap_entries_orEmpty, flatMap_entries_orEmpty,
    entries_eq_of_digests free hloaded'.digests hloaded.digests]

theorem rebalance_sorted (store : CowPagedStore D T) :
    (store.rebalanceDirtyPages config).pages.Pairwise fun a b => a.firstKey ≤ b.firstKey := by
  have : Std.Total fun a b : LocalPage D T => a.firstKey ≤ b.firstKey :=
    ⟨fun a b => le_total a.firstKey b.firstKey⟩
  have : IsTrans (LocalPage D T) fun a b => a.firstKey ≤ b.firstKey :=
    ⟨fun _ _ _ hab hbc => hab.trans hbc⟩
  exact List.pairwise_insertionSort _ _

variable {store : CowPagedStore D T} {plan : GenerationPlan D}

/-- A plan lists its descriptors in the order of the pages. -/
theorem planned_in_order (hsound : PagesSound store.pages)
    (hsorted : store.pages.Pairwise fun a b => a.firstKey ≤ b.firstKey)
    (hplan : store.planGeneration config = .ok plan) :
    planPages plan.generation store.totalSubkeys
      (min config.pageSplitThreshold (estimatedDhtValueLimit store.totalSubkeys))
      store.freeSubkeys store.pages = .ok (plan.newPages, plan.pageWrites) := by
  simp only [CowPagedStore.planGeneration, except_bind_eq_ok] at hplan
  obtain ⟨⟨newPages, writes⟩, hpages, hplan⟩ := hplan
  cases hplan
  have haccounts := planned_accounts (planPages_ok hpages).1 hsound
  have hkeys : newPages.map CowPageDescriptor.firstKey = store.pages.map LocalPage.firstKey := by
    rw [← List.forall₂_eq_eq_eq, List.forall₂_map_left_iff, List.forall₂_map_right_iff]
    exact haccounts.imp fun _ _ h => h.firstKey
  -- The pages are in order already, so sorting the planned descriptors changes nothing.
  have hnewSorted : newPages.insertionSort (fun a b => a.firstKey ≤ b.firstKey) = newPages := by
    apply List.Pairwise.insertionSort_eq
    have hordered : (newPages.map CowPageDescriptor.firstKey).Pairwise (· ≤ ·) := by
      rw [hkeys, List.pairwise_map]
      exact hsorted
    rwa [List.pairwise_map] at hordered
  simp only [hnewSorted]
  exact hpages

/-- The descriptors of a plan account for the pages, one by one. -/
theorem planned_pages (hsound : PagesSound store.pages)
    (hsorted : store.pages.Pairwise fun a b => a.firstKey ≤ b.firstKey)
    (hplan : store.planGeneration config = .ok plan) :
    List.Forall₂ Accounts plan.newPages store.pages :=
  planned_accounts (planPages_ok (planned_in_order hsound hsorted hplan)).1 hsound

/-- A planned index has the entries of the pages it was planned for. -/
theorem planned_contents (free : CollisionFree D)
    (createdAt : UInt64) (hsound : PagesSound store.pages)
    (hsorted : store.pages.Pairwise fun a b => a.firstKey ≤ b.firstKey)
    (hplan : store.planGeneration config = .ok plan) :
    IndexContents (store.planIndex plan createdAt) store.allEntries := by
  intro pages hloaded
  obtain ⟨loaded, hvalid, rfl⟩ := hloaded.pages
  have haccounts := planned_pages hsound hsorted hplan
  rw [flatMap_entries_orEmpty, CowPagedStore.allEntries,
    entries_eq_of_digests free hvalid.digests (haccounts.imp fun _ _ h => h.digest)]

end

end IndexContents

/-! ## What a commit leaves behind -/

section Commits

variable {config : MailboxConfig}

/-- The store and the record after a commit, under any fates. -/
inductive CommitLeaves (config : MailboxConfig) (createdAt : UInt64) (store : CowPagedStore D T)
    (m : Memory) : CowPagedStore D T → Memory → Prop
  | unchanged (h : store.pendingChanges = 0) : CommitLeaves config createdAt store m store m
  | unplanned (h : store.pendingChanges ≠ 0) {error : MailboxError}
      (hplan : (store.rebalanceDirtyPages config).planGeneration config = .error error) :
      CommitLeaves config createdAt store m (store.rebalanceDirtyPages config) m
  | interrupted (h : store.pendingChanges ≠ 0) {plan : GenerationPlan D} {m' : Memory}
      (hplan : (store.rebalanceDirtyPages config).planGeneration config = .ok plan)
      (hleft : Interrupted m plan ((store.rebalanceDirtyPages config).planIndex plan createdAt) m') :
      CommitLeaves config createdAt store m (store.rebalanceDirtyPages config) m'
  | landed (h : store.pendingChanges ≠ 0) {plan : GenerationPlan D} {pages : List (LocalPage D T)}
      {m' : Memory} (hplan : (store.rebalanceDirtyPages config).planGeneration config = .ok plan)
      (hlanded :
        Landed m plan ((store.rebalanceDirtyPages config).planIndex plan createdAt) pages m') :
      CommitLeaves config createdAt store m
        ((store.rebalanceDirtyPages config).switchTo plan.targetSlot
          ((store.rebalanceDirtyPages config).planIndex plan createdAt) pages) m'

theorem commitInner_leaves (store : CowPagedStore D T) (clock : CommitClock)
    (transactions : List PendingCowTransaction) (w : Record) :
    CommitLeaves config clock.createdAt store w.memory
      (commitInner recordOps store config clock transactions w).store
      (commitInner recordOps store config clock transactions w).world.memory := by
  unfold commitInner
  split
  case isTrue hpending => exact .unchanged hpending
  case isFalse hpending =>
  dsimp only
  split
  case h_1 error hplan => exact .unplanned hpending hplan
  case h_2 plan hplan =>
  have hwrites := triple_writeGeneration_record (m := w.memory)
    (store.rebalanceDirtyPages config) plan clock.createdAt
    (transactions ++ [(store.rebalanceDirtyPages config).planTransaction plan clock.startedAt])
  split
  case h_1 error w' hwrite => exact .interrupted hpending hplan (hwrites.error rfl hwrite)
  case h_2 index pages w' hwrite =>
  obtain ⟨hindex, _, hlanded⟩ := hwrites.ok rfl hwrite
  dsimp only at hindex hlanded
  subst hindex
  -- The last write of the transaction log touches no subkey.
  have hlog := triple_persist (m := w'.memory)
  split
  case h_1 error w'' hpersist =>
    have hmemory : w''.memory = w'.memory := (hlog _).error rfl hpersist
    exact hmemory ▸ .landed hpending hplan hlanded
  case h_2 w'' hpersist =>
    have hmemory : w''.memory = w'.memory := (hlog _).ok rfl hpersist
    exact hmemory ▸ .landed hpending hplan hlanded

end Commits

/-! ## Runs over a record -/

section Runs

/-- A commit that failed: the index it was about to write and the contents. -/
structure Attempt (D T : Type) where
  index : CowIndex D
  entries : List T

/-- A store and its record, beside the contents of the last commit and the attempts
that have failed since. -/
structure RecordedStore (D T : Type) where
  store : CowPagedStore D T
  memory : Memory
  committed : List T
  attempts : List (Attempt D T)

/-- An edit, a commit under some fates, or a restart. -/
inductive RecordEvent (T : Type)
  | upsert (entry : T)
  | remove (key : Key)
  | commit (clock : CommitClock) (transactions : List PendingCowTransaction) (fates : List Fate)
  | reload

namespace RecordedStore

/-- Load the store again from what its record holds. -/
def load (s : RecordedStore D T) : Except MailboxError (CowPagedStore D T) :=
  (loadOwned recordOps s.store.name s.store.packageIndex (.quiet s.store.totalSubkeys s.memory)).1

/-- Commit the store over its record. -/
def commit (s : RecordedStore D T) (config : MailboxConfig) (clock : CommitClock)
    (transactions : List PendingCowTransaction) (fates : List Fate) : CommitOutcome Record D T :=
  commitInner recordOps s.store config clock transactions
    { totalSubkeys := s.store.totalSubkeys, memory := s.memory, fates }

/-- What a commit is about to write, if it gets as far as a plan. -/
def attempted (s : RecordedStore D T) (config : MailboxConfig) (clock : CommitClock) :
    List (Attempt D T) :=
  let store := s.store.rebalanceDirtyPages config
  match store.planGeneration config with
  | .ok plan => [{ index := store.planIndex plan clock.createdAt, entries := s.store.allEntries }]
  | .error _ => []

def next (config : MailboxConfig) (s : RecordedStore D T) : RecordEvent T → RecordedStore D T
  | .upsert entry => { s with store := s.store.upsert entry }
  | .remove key => { s with store := (s.store.remove key).2 }
  | .commit clock transactions fates =>
    let outcome := s.commit config clock transactions fates
    let memory := outcome.world.memory
    if s.store.pendingChanges = 0 then { s with store := outcome.store, memory }
    else if outcome.store.pendingChanges = 0 then
      -- The new generation was verified and is the current one.
      { store := outcome.store, memory, committed := s.store.allEntries, attempts := [] }
    else
      { s with
        store := outcome.store, memory
        attempts := s.attempts ++ s.attempted config clock }
  | .reload =>
    match s.load with
    | .error _ => s
    | .ok store =>
      { store
        memory := s.memory
        committed := store.allEntries
        attempts := if store.generation = s.store.generation then s.attempts else [] }

end RecordedStore

/-- Stores over a record that starts out empty. -/
def recordSystem (config : MailboxConfig) :
    LabelledSystem (RecordedStore D T) (RecordEvent T) where
  initial s := ∃ name packageIndex totalSubkeys,
    s = {
      store := loadedStore name packageIndex totalSubkeys none none
      memory := fun _ => none
      committed := []
      attempts := [] }
  step s event t := t = s.next config event

/-- The generation counter can still be advanced. -/
def RecordedStore.CounterLeft (s : RecordedStore D T) : Prop :=
  s.store.generation.toNat + 1 < 2 ^ 64

instance (s : RecordedStore D T) : Decidable s.CounterLeft :=
  inferInstanceAs (Decidable (s.store.generation.toNat + 1 < 2 ^ 64))

/-- How a commit moves a recorded store. -/
inductive CommitMoves (config : MailboxConfig) (createdAt : UInt64) (s : RecordedStore D T) :
    RecordedStore D T → Prop
  | unchanged (h : s.store.pendingChanges = 0) : CommitMoves config createdAt s s
  | unplanned (h : s.store.pendingChanges ≠ 0) :
      CommitMoves config createdAt s { s with store := s.store.rebalanceDirtyPages config }
  | interrupted (h : s.store.pendingChanges ≠ 0) {plan : GenerationPlan D} {m : Memory}
      (hplan : (s.store.rebalanceDirtyPages config).planGeneration config = .ok plan)
      (hleft : Interrupted s.memory plan
        ((s.store.rebalanceDirtyPages config).planIndex plan createdAt) m) :
      CommitMoves config createdAt s
        { s with
          store := s.store.rebalanceDirtyPages config
          memory := m
          attempts := s.attempts ++
            [{ index := (s.store.rebalanceDirtyPages config).planIndex plan createdAt
               entries := s.store.allEntries }] }
  | landed (h : s.store.pendingChanges ≠ 0) {plan : GenerationPlan D}
      {pages : List (LocalPage D T)} {m : Memory}
      (hplan : (s.store.rebalanceDirtyPages config).planGeneration config = .ok plan)
      (hlanded : Landed s.memory plan
        ((s.store.rebalanceDirtyPages config).planIndex plan createdAt) pages m) :
      CommitMoves config createdAt s
        { store := (s.store.rebalanceDirtyPages config).switchTo plan.targetSlot
            ((s.store.rebalanceDirtyPages config).planIndex plan createdAt) pages
          memory := m
          committed := s.store.allEntries
          attempts := [] }

theorem commit_moves (config : MailboxConfig) (s : RecordedStore D T) (clock : CommitClock)
    (transactions : List PendingCowTransaction) (fates : List Fate) :
    CommitMoves config clock.createdAt s (s.next config (.commit clock transactions fates)) := by
  have hleaves : CommitLeaves config clock.createdAt s.store s.memory
      (s.commit config clock transactions fates).store
      (s.commit config clock transactions fates).world.memory :=
    commitInner_leaves s.store clock transactions
      { totalSubkeys := s.store.totalSubkeys, memory := s.memory, fates }
  unfold RecordedStore.next
  dsimp only
  generalize (s.commit config clock transactions fates).store = store' at hleaves ⊢
  generalize (s.commit config clock transactions fates).world.memory = m' at hleaves ⊢
  cases hleaves with
  | unchanged hpending =>
    rw [if_pos hpending]
    exact .unchanged hpending
  | unplanned hpending hplan =>
    rw [if_neg hpending, if_neg (pendingChanges_rebalance hpending)]
    simp only [RecordedStore.attempted, hplan, List.append_nil]
    exact .unplanned hpending
  | interrupted hpending hplan hleft =>
    rw [if_neg hpending, if_neg (pendingChanges_rebalance hpending)]
    simp only [RecordedStore.attempted, hplan]
    exact .interrupted hpending hplan hleft
  | landed hpending hplan hlanded =>
    rw [if_neg hpending, if_pos (pendingChanges_switchTo hlanded.opened.loadedFrom)]
    exact .landed hpending hplan hlanded

end Runs

/-! ## What every run keeps -/

section Kept

variable {config : MailboxConfig} {s : RecordedStore D T}

/-- The store is anchored in its record, and the slot that is not active holds
nothing newer than the current generation except the index of a failed attempt. -/
structure RecordedStore.Kept (s : RecordedStore D T) : Prop where
  anchored : Anchored s.store s.memory
  other : ∀ index : CowIndex D, HoldsIndex s.memory s.store.otherSlot index →
    index.generation < s.store.generation ∨ ∃ a ∈ s.attempts, a.index = index
  attempts : ∀ a ∈ s.attempts, s.store.generation < a.index.generation
  previous : ∀ index ∈ s.store.previousIndex, validateIndexShape index = .ok ()

variable {store store' : CowPagedStore D T}

section

omit [DigestScheme D] [DecidableEq D] [PageEntry T]

theorem generation_of_current {index : CowIndex D}
    (h : store.currentIndex = some index) : store.generation = index.generation := by
  rw [CowPagedStore.generation, h]

theorem generation_of_fresh (h : store.currentIndex = none) : store.generation = 0 := by
  rw [CowPagedStore.generation, h]

end

variable {m m' : Memory} {index : CowIndex D}

theorem Anchored.complete (h : Anchored store m) (hindex : store.currentIndex = some index) :
    HoldsIndex m store.activeIndexSlot index ∧ Complete T m index := by
  obtain ⟨hholds, hpages⟩ := h.index index hindex
  exact ⟨hholds, hholds.shape, hpages⟩

/-- A load of the record reaches a store that it warrants. -/
theorem RecordedStore.load_ok (s : RecordedStore D T) :
    ∃ loaded, s.load = .ok loaded ∧ loaded.name = s.store.name ∧
      loaded.packageIndex = s.store.packageIndex ∧
      loaded.totalSubkeys = s.store.totalSubkeys ∧
      (∀ index ∈ loaded.previousIndex, Complete T s.memory index) ∧ Loads s.memory loaded := by
  obtain ⟨loaded, hrun, hloaded⟩ := loadOwned_quiet (D := D) (T := T) (n := s.store.totalSubkeys)
    (m := s.memory) s.store.name s.store.packageIndex
  exact ⟨loaded, by rw [RecordedStore.load, hrun], hloaded⟩

/-- An index in either slot is the current one, older, or that of a failed attempt. -/
theorem RecordedStore.Kept.index_cases (h : s.Kept) {slot : Subkey}
    (hslot : IsIndexSlot slot) (hholds : HoldsIndex s.memory slot index) :
    (slot = s.store.activeIndexSlot ∧ s.store.currentIndex = some index) ∨
      (slot = s.store.otherSlot ∧ (index.generation < s.store.generation ∨
        ∃ a ∈ s.attempts, a.index = index)) := by
  by_cases hactive : slot = s.store.activeIndexSlot
  · refine .inl ⟨hactive, ?_⟩
    subst hactive
    cases hcurrent : s.store.currentIndex with
    | none =>
      -- A store without an index has an empty first slot.
      obtain ⟨hslotA, hempty⟩ := h.anchored.fresh hcurrent
      obtain ⟨bytes, hbytes, _⟩ := hholds
      rw [hslotA, Memory.Holds, hempty] at hbytes
      cases hbytes
    | some current =>
      rw [(h.anchored.index current hcurrent).1.unique hholds]
  have hother : slot = s.store.otherSlot := by
    unfold CowPagedStore.otherSlot
    rcases hslot with rfl | rfl <;> rcases h.anchored.slot with hA | hB <;> simp_all
  refine .inr ⟨hother, h.other index ?_⟩
  rw [← hother]
  exact hholds

/-- A load settles on the current generation or on that of a failed attempt. -/
theorem RecordedStore.Kept.loaded (h : s.Kept) {loaded : CowPagedStore D T}
    (hloads : Loads s.memory loaded) :
    (loaded.activeIndexSlot = s.store.activeIndexSlot ∧
        loaded.currentIndex = s.store.currentIndex) ∨
      (loaded.activeIndexSlot = s.store.otherSlot ∧
        ∃ a ∈ s.attempts, loaded.currentIndex = some a.index) := by
  cases hloads with
  | @generation index slot current holds opened newest =>
    rcases h.index_cases slot holds with ⟨hactive, hcurrent⟩ | ⟨hother, hold | ⟨a, ha, hindex⟩⟩
    · exact .inl ⟨hactive, current.trans hcurrent.symm⟩
    · -- The current generation is newer and would have been preferred.
      exfalso
      cases hcurrent : s.store.currentIndex with
      | none =>
        rw [generation_of_fresh hcurrent] at hold
        exact absurd hold (UInt64.not_lt.mpr (UInt64.zero_le))
      | some index' =>
        obtain ⟨hholds, hcomplete⟩ := h.anchored.complete hcurrent
        rw [generation_of_current hcurrent] at hold
        exact absurd hold (UInt64.not_lt.mpr (newest _ _ h.anchored.slot hholds hcomplete))
    · exact .inr ⟨hother, a, ha, hindex ▸ current⟩
  | nothing slot current pages incomplete =>
    cases hcurrent : s.store.currentIndex with
    | none => exact .inl ⟨slot.trans (h.anchored.fresh hcurrent).1.symm, current⟩
    | some index =>
      obtain ⟨hholds, hcomplete⟩ := h.anchored.complete hcurrent
      exact absurd hcomplete (incomplete _ _ h.anchored.slot hholds)

theorem Loads.anchored {loaded : CowPagedStore D T} (h : Loads m loaded)
    (hempty : loaded.currentIndex = none → m indexSlotA = none) : Anchored loaded m := by
  cases h with
  | generation slot current holds opened _ => exact anchored_of_opened slot current holds opened
  | nothing slot current pages _ =>
    refine ⟨.inl slot, fun index hindex => ?_, fun hnone => ⟨slot, hempty hnone⟩, ?_, .inl pages⟩
    · rw [current] at hindex
      cases hindex
    · rw [pages]
      exact emptyPage_routed.strict

section

omit [DigestScheme D] [DecidableEq D] [PageEntry T]

theorem otherSlot_congr
    (h : store.activeIndexSlot = store'.activeIndexSlot) : store.otherSlot = store'.otherSlot := by
  rw [CowPagedStore.otherSlot, h, CowPagedStore.otherSlot]

/-- The slots change places. -/
theorem otherSlot_of_switched
    (hslot : IsIndexSlot store.activeIndexSlot) (h : store'.activeIndexSlot = store.otherSlot) :
    store'.otherSlot = store.activeIndexSlot := by
  unfold CowPagedStore.otherSlot at h ⊢
  rcases hslot with hA | hB
  · rw [h, hA]
    decide
  · rw [h, hB]
    decide

end

theorem RecordedStore.Kept.reload (h : s.Kept) : (s.next config .reload).Kept := by
  obtain ⟨loaded, hload, _, _, _, hprevious, hloads⟩ := s.load_ok
  simp only [RecordedStore.next, hload]
  have hempty : loaded.currentIndex = none → s.memory indexSlotA = none := by
    intro hnone
    rcases h.loaded hloads with ⟨_, hcurrent⟩ | ⟨_, a, _, hcurrent⟩
    · exact (h.anchored.fresh (hcurrent.symm.trans hnone)).2
    · rw [hnone] at hcurrent
      cases hcurrent
  have hanchored := hloads.anchored hempty
  rcases h.loaded hloads with ⟨hslot, hcurrent⟩ | ⟨hslot, a, ha, hcurrent⟩
  · have hgeneration : loaded.generation = s.store.generation := by
      rw [CowPagedStore.generation, hcurrent, ← CowPagedStore.generation]
    refine ⟨hanchored, fun index hholds => ?_, fun a ha => ?_, fun index hindex =>
      (hprevious index hindex).shape⟩
    · simp only [otherSlot_congr hslot] at hholds
      simp only [hgeneration, if_true]
      exact h.other index hholds
    · simp only [hgeneration, if_true] at ha ⊢
      exact h.attempts a ha
  -- The attempt is newer than what was current, which now is in the other slot.
  have hnewer : s.store.generation < loaded.generation := by
    rw [generation_of_current hcurrent]
    exact h.attempts a ha
  have hreset : ¬ loaded.generation = s.store.generation := by
    intro hsame
    rw [hsame] at hnewer
    exact UInt64.lt_irrefl _ hnewer
  refine ⟨hanchored, fun index hholds => .inl ?_, fun a ha => ?_, fun index hindex =>
    (hprevious index hindex).shape⟩
  · simp only [otherSlot_of_switched h.anchored.slot hslot] at hholds
    rcases h.index_cases h.anchored.slot hholds with ⟨_, hcurrent'⟩ | ⟨hsame, _⟩
    · rw [← generation_of_current hcurrent']
      exact hnewer
    · exact absurd hsame.symm (otherSlot_ne h.anchored.slot)
  · simp only [hreset, if_false, List.not_mem_nil] at ha

variable {pages : List (LocalPage D T)}

/-- An edit, which leaves the indexes and the record alone. -/
theorem RecordedStore.Kept.edit (h : s.Kept)
    (hanchored : Anchored { s.store with pages } s.memory) :
    RecordedStore.Kept { s with store := { s.store with pages } } :=
  ⟨hanchored, h.other, h.attempts, h.previous⟩

theorem RecordedStore.Kept.upsert (h : s.Kept) (entry : T) :
    RecordedStore.Kept { s with store := s.store.upsert entry } :=
  h.edit (anchored_upsert h.anchored entry)

theorem RecordedStore.Kept.remove (h : s.Kept) (key : Key) :
    RecordedStore.Kept { s with store := (s.store.remove key).2 } := by
  have hanchored := anchored_remove h.anchored key
  unfold CowPagedStore.remove at hanchored ⊢
  split at hanchored
  · exact h
  · exact h.edit hanchored

omit [DecidableEq D] in
/-- The next generation is newer as long as the counter has not run out. -/
theorem RecordedStore.CounterLeft.lt (h : s.CounterLeft) :
    s.store.generation < (s.store.rebalanceDirtyPages config).nextGeneration := by
  have hnext : (s.store.rebalanceDirtyPages config).nextGeneration = s.store.generation + 1 :=
    if_pos h
  rw [hnext, UInt64.lt_iff_toNat_lt, UInt64.toNat_add]
  have hbound := h
  unfold RecordedStore.CounterLeft at hbound
  simp only [UInt64.toNat_one]
  omega

variable {plan : GenerationPlan D}

theorem Landed.interrupted (h : Landed m plan index pages m') : Interrupted m plan index m' := by
  obtain ⟨written, hwritten, hm'⟩ := h.written
  exact ⟨written, hwritten, .inr hm'⟩

/-- The index that has landed can be read from its slot. -/
theorem Landed.holds
    {createdAt : UInt64} (h : Landed m plan (store.planIndex plan createdAt) pages m') :
    HoldsIndex m' plan.targetSlot (store.planIndex plan createdAt) := by
  obtain ⟨written, _, hm'⟩ := h.written
  refine ⟨_, ?_, openIndex_eq_some_iff.mpr ⟨h.decodes, h.opened.1, planIndex_digest _ _ _⟩⟩
  rw [Memory.Holds, hm', Function.update_self]

/-- What a stopped commit leaves in the other slot is what was there or the new index. -/
theorem Interrupted.holdsIndex {index' : CowIndex D} (h : Interrupted m plan index m')
    (hplan : store.planGeneration config = .ok plan)
    (hholds : HoldsIndex m' store.otherSlot index') :
    HoldsIndex m store.otherSlot index' ∨ index' = index := by
  rcases h.otherSlot hplan with hsame | hnew
  · left
    obtain ⟨bytes, hbytes, hopen⟩ := hholds
    exact ⟨bytes, hsame.symm.trans hbytes, hopen⟩
  · right
    obtain ⟨bytes, hbytes, hopen⟩ := hholds
    cases hnew.symm.trans hbytes
    exact deserialize_serialize (openIndex_eq_some_iff.mp hopen).1

theorem RecordedStore.Kept.commit (h : s.Kept) (hcounter : s.CounterLeft) (clock : CommitClock)
    (transactions : List PendingCowTransaction) (fates : List Fate) :
    (s.next config (.commit clock transactions fates)).Kept := by
  have hmoves := commit_moves config s clock transactions fates
  generalize s.next config (.commit clock transactions fates) = t at hmoves ⊢
  cases hmoves with
  | unchanged => exact h
  | unplanned hpending => exact h.edit (anchored_rebalance h.anchored config hpending)
  | @interrupted hpending plan m' hplan hleft =>
    have hanchored := anchored_rebalance h.anchored config hpending
    refine ⟨hanchored.of_kept fun k => hleft.keeps hplan, fun index hholds => ?_,
      fun a ha => ?_, h.previous⟩
    · rcases hleft.holdsIndex hplan hholds with hold | rfl
      · refine (h.other index hold).imp id fun ⟨a, ha, hindex⟩ => ?_
        exact ⟨a, List.mem_append_left _ ha, hindex⟩
      · exact .inr ⟨_, List.mem_append_right _ (List.mem_singleton_self _), rfl⟩
    · rcases List.mem_append.mp ha with hold | hnew
      · exact h.attempts a hold
      · rw [List.mem_singleton.mp hnew]
        have hgeneration := (plan_target hplan).2
        exact lt_of_lt_of_eq hcounter.lt hgeneration.symm
  | @landed hpending plan pages m' hplan hlanded =>
    have hanchored := anchored_rebalance h.anchored config hpending
    obtain ⟨htarget, hgeneration⟩ := plan_target hplan
    have hslot : IsIndexSlot plan.targetSlot := by
      rw [htarget]
      unfold CowPagedStore.otherSlot
      split
      · exact .inr rfl
      · exact .inl rfl
    refine ⟨anchored_of_opened hslot rfl hlanded.holds hlanded.opened,
      fun index hholds => .inl ?_, fun a ha => (by cases ha), fun index hindex => ?_⟩
    · -- The old current index stays where it was.
      have hswitched : ((s.store.rebalanceDirtyPages config).switchTo plan.targetSlot
          ((s.store.rebalanceDirtyPages config).planIndex plan clock.createdAt) pages).otherSlot =
            s.store.activeIndexSlot :=
        otherSlot_of_switched h.anchored.slot htarget
      have hkept : m' s.store.activeIndexSlot = s.memory s.store.activeIndexSlot :=
        hlanded.interrupted.keeps hplan hanchored.slot_in_use.1 hanchored.slot_in_use.2
      obtain ⟨bytes, hbytes, hopen⟩ := hholds
      simp only [hswitched, Memory.Holds, hkept] at hbytes
      have hold : HoldsIndex s.memory s.store.activeIndexSlot index := ⟨bytes, hbytes, hopen⟩
      rcases h.index_cases h.anchored.slot hold with ⟨_, hcurrent⟩ | ⟨hsame, _⟩
      · rw [← generation_of_current hcurrent]
        exact lt_of_lt_of_eq hcounter.lt hgeneration.symm
      · exact absurd hsame.symm (otherSlot_ne h.anchored.slot)
    · obtain ⟨hholds, _⟩ := hanchored.complete hindex
      exact hholds.shape

/-- Runs that do not exhaust the generation counter. -/
def countedSystem (config : MailboxConfig) : LabelledSystem (RecordedStore D T) (RecordEvent T) :=
  (recordSystem config).restrict fun s _ => s.CounterLeft

theorem reachable_next (reached : (countedSystem config).Reachable s) (event : RecordEvent T)
    (hcounter : s.CounterLeft) : (countedSystem config).Reachable (s.next config event) :=
  .next event reached ⟨hcounter, rfl⟩

theorem loads_initial (name : String) (packageIndex : Nat) (totalSubkeys : UInt32) :
    Loads (fun _ => none)
      (loadedStore name packageIndex totalSubkeys none none : CowPagedStore D T) := by
  refine .nothing rfl rfl rfl fun slot index _ hholds => ?_
  obtain ⟨bytes, hbytes, _⟩ := hholds
  cases hbytes

theorem kept_initial (h : (recordSystem config).initial s) : s.Kept := by
  obtain ⟨name, packageIndex, totalSubkeys, rfl⟩ := h
  refine ⟨(loads_initial name packageIndex totalSubkeys).anchored fun _ => rfl,
    fun index hholds => ?_, fun a ha => ?_, fun index hindex => ?_⟩
  · obtain ⟨bytes, hbytes, _⟩ := hholds
    cases hbytes
  · cases ha
  · cases hindex

theorem kept_invariant :
    (countedSystem config : LabelledSystem (RecordedStore D T) (RecordEvent T)).Invariant
      RecordedStore.Kept where
  initially s hinit := by
    have hstart : (recordSystem config).initial s := hinit
    exact kept_initial hstart
  preserved s event t hkept hstep := by
    obtain ⟨hcounter, rfl⟩ := hstep
    cases event with
    | upsert entry => exact hkept.upsert entry
    | remove key => exact hkept.remove key
    | commit clock transactions fates => exact hkept.commit hcounter clock transactions fates
    | reload => exact hkept.reload

end Kept

end VeilKnit.Mailbox
