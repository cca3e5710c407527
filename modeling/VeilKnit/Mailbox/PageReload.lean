import VeilKnit.Mailbox.PageRuns

/-!
# Loading from a record that answers

A load over a record that serves every call never fails. It settles on the newest
of the two index slots whose pages are all intact, or on nothing when neither has
such an index.
-/

namespace VeilKnit.Mailbox

open Library Fallible

variable {D T : Type} [DigestScheme D] [DecidableEq D] [PageEntry T]

/-- A record that serves every call. -/
def Record.quiet (totalSubkeys : UInt32) (m : Memory) : Record :=
  { totalSubkeys, memory := m, fates := [] }

/-- Everything that an index lists is in the record. -/
structure Complete (T : Type) [PageEntry T] (m : Memory) (index : CowIndex D) : Prop where
  shape : validateIndexShape index = .ok ()
  pages : ∀ d ∈ index.pages, ∃ entries : List T, Stored m d entries

def IsIndexSlot (slot : Subkey) : Prop := slot = indexSlotA ∨ slot = indexSlotB

section Quiet

variable {n : UInt32} {m : Memory} {index : CowIndex D}

theorem HoldsIndex.unique {slot : Subkey} {index' : CowIndex D}
    (h : HoldsIndex m slot index) (h' : HoldsIndex m slot index') : index = index' := by
  obtain ⟨bytes, hholds, hopen⟩ := h
  obtain ⟨bytes', hholds', hopen'⟩ := h'
  cases hholds.symm.trans hholds'
  exact Option.some.inj (hopen.symm.trans hopen')

theorem OpenedFrom.complete {pages : List (LocalPage D T)}
    (h : OpenedFrom m.Holds index pages) : Complete T m index := by
  obtain ⟨hshape, loaded, hloaded, _⟩ := h
  exact ⟨hshape, hloaded.stored.1⟩

/-- The pages of an index are determined by the record. -/
theorem OpenedPages.unique {ds : List (CowPageDescriptor D)} {loaded loaded' : List (LocalPage D T)}
    (h : OpenedPages m.Holds ds loaded) (h' : OpenedPages m.Holds ds loaded') :
    loaded = loaded' := by
  induction h generalizing loaded' with
  | nil =>
    cases h'
    rfl
  | cons hpage _ ih =>
    cases h' with
    | cons hpage' hrest' =>
      obtain ⟨bytes, hholds, hopen⟩ := hpage
      obtain ⟨bytes', hholds', hopen'⟩ := hpage'
      cases hholds.symm.trans hholds'
      rw [Except.ok.inj (hopen.symm.trans hopen'), ih hrest']

theorem OpenedFrom.unique {pages pages' : List (LocalPage D T)}
    (h : OpenedFrom m.Holds index pages) (h' : OpenedFrom m.Holds index pages') :
    pages = pages' := by
  obtain ⟨_, loaded, hloaded, rfl⟩ := h
  obtain ⟨_, loaded', hloaded', rfl⟩ := h'
  rw [hloaded.unique hloaded']

omit [DigestScheme D] [DecidableEq D] [PageEntry T] in
theorem triple_fetch_quiet (subkey : Subkey) :
    Triple (fun w => w = Record.quiet n m) (recordOps.fetch subkey)
      (fun bytes w => w = Record.quiet n m ∧ m.Holds subkey bytes)
      (fun _ w => w = Record.quiet n m ∧ m subkey = none) := by
  refine triple_mapError fun w hw => ?_
  subst hw
  cases hread : m subkey with
  | none => simp [recordOps, Record.quiet, Record.nextFate, Record.advance, hread]
  | some bytes =>
    simp [recordOps, Record.quiet, Record.nextFate, Record.advance, Memory.Holds, hread]

/-- The candidate that an index slot holds. -/
def candidateAt (m : Memory) (slot : Subkey) : Option (Subkey × CowIndex D) :=
  (m slot).bind fun bytes => (openIndex bytes).map fun index => (slot, index)

omit [PageEntry T] in
theorem candidateAt_eq_some_iff {slot slot' : Subkey} :
    candidateAt m slot = some (slot', index) ↔ slot' = slot ∧ HoldsIndex m slot index := by
  simp only [candidateAt, HoldsIndex, Memory.Holds, Option.bind_eq_some_iff,
    Option.map_eq_some_iff, Prod.mk.injEq]
  constructor
  · rintro ⟨bytes, hholds, index', hopen, rfl, rfl⟩
    exact ⟨rfl, bytes, hholds, hopen⟩
  · rintro ⟨rfl, bytes, hholds, hopen⟩
    exact ⟨bytes, hholds, index, hopen, rfl, rfl⟩

theorem triple_readCandidate_quiet (slot : Subkey) :
    Triple (fun w => w = Record.quiet n m) (readCandidate (D := D) recordOps slot)
      (fun r w => w = Record.quiet n m ∧ candidateAt m slot = r) (fun _ _ => False) := by
  refine triple_bind (triple_attempt (triple_fetch_quiet slot)
    (R := fun r w => w = Record.quiet n m ∧ (∀ bytes, r = .ok bytes → m slot = some bytes) ∧
      ∀ e, r = .error e → m slot = none) ?_ ?_) fun r => triple_pure fun w hw => ?_
  · rintro bytes w ⟨hw, hholds⟩
    refine ⟨hw, fun bytes' hbytes => ?_, fun e he => by cases he⟩
    cases hbytes
    exact hholds
  · rintro e w ⟨hw, hnone⟩
    exact ⟨hw, fun bytes hbytes => (by cases hbytes), fun _ _ => hnone⟩
  · obtain ⟨hquiet, hok, herror⟩ := hw
    refine ⟨hquiet, ?_⟩
    cases r with
    | ok bytes => simp [candidateAt, hok bytes rfl]
    | error e => simp [candidateAt, herror e rfl]

/-- All pages of an index load exactly when the record holds them. -/
theorem triple_loadAndValidate_quiet (index : CowIndex D) : Triple (fun w => w = Record.quiet n m)
      (loadAndValidateOwnedPages recordOps index :
        Fallible MailboxError Record (List (LocalPage D T)))
      (fun pages w => w = Record.quiet n m ∧ OpenedFrom m.Holds index pages)
      (fun _ w => w = Record.quiet n m ∧ ¬ Complete T m index) := by
  refine triple_bind (triple_lift
    (Q := fun _ w => w = Record.quiet n m ∧ validateIndexShape index = .ok ())
    (fun _ hshape _ hw => ⟨hw, hshape⟩) fun e hshape _ hw => ⟨hw, fun h => ?_⟩) fun _ => ?_
  · rw [h.shape] at hshape
    cases hshape
  refine triple_and_pure fun hshape => ?_
  have hpage : ∀ d ∈ index.pages, Triple (fun w => w = Record.quiet n m)
      (loadPage recordOps d : Fallible MailboxError Record (LocalPage D T))
      (fun page w => w = Record.quiet n m ∧
        ∃ bytes, m.Holds d.subkey bytes ∧ openPage d bytes = .ok page)
      (fun _ w => w = Record.quiet n m ∧ ¬ Complete T m index) := by
    intro d hd
    refine triple_bind ((triple_fetch_quiet d.subkey).weaken (fun _ hw => hw) (fun _ _ hw => hw)
      fun e w hw => ⟨hw.1, fun h => ?_⟩) fun bytes => ?_
    · -- The subkey is empty, so the page is not there.
      obtain ⟨entries, bytes, hholds, _⟩ := h.pages d hd
      rw [Memory.Holds, hw.2] at hholds
      cases hholds
    refine triple_lift (fun page hopen _ hw => ⟨hw.1, bytes, hw.2, hopen⟩)
      fun e hopen w hw => ⟨hw.1, fun h => ?_⟩
    obtain ⟨entries, bytes', hholds, hopen'⟩ := h.pages d hd
    cases hw.2.symm.trans hholds
    rw [hopen] at hopen'
    cases hopen'
  refine triple_bind (triple_gather hpage) fun loaded => triple_pure fun w hw => ?_
  refine ⟨hw.1, hshape, loaded, hw.2, ?_⟩
  rw [sortLoaded_eq hshape (OpenedPages.loadedPages hw.2)]

/-- The first candidate whose pages are all in the record, or none. -/
inductive Chosen (m : Memory) (candidates : List (Subkey × CowIndex D)) :
    Option (ChosenGeneration D T) → Prop
  | nothing (h : ∀ c ∈ candidates, ¬ Complete T m c.2) : Chosen m candidates none
  | first {chosen : ChosenGeneration D T} (before : List (Subkey × CowIndex D))
      {after : List (Subkey × CowIndex D)}
        (hsplit : candidates = before ++ (chosen.slot, chosen.index) :: after)
      (hbefore : ∀ c ∈ before, ¬ Complete T m c.2)
      (hopened : OpenedFrom m.Holds chosen.index chosen.pages) : Chosen m candidates (some chosen)

theorem triple_attempt_load_quiet (index : CowIndex D) : Triple (fun w => w = Record.quiet n m)
      (attempt (loadAndValidateOwnedPages recordOps index) :
        Fallible MailboxError Record (Except MailboxError (List (LocalPage D T))))
      (fun r w => w = Record.quiet n m ∧ (∀ pages, r = .ok pages → OpenedFrom m.Holds index pages) ∧
        ∀ e, r = .error e → ¬ Complete T m index)
      (fun _ _ => False) := by
  refine triple_attempt (triple_loadAndValidate_quiet (T := T) index) ?_ ?_
  · rintro pages w ⟨hw, hopened⟩
    refine ⟨hw, fun pages' hpages' => ?_, fun e he => by cases he⟩
    cases hpages'
    exact hopened
  · rintro e w ⟨hw, hincomplete⟩
    exact ⟨hw, fun pages hpages => (by cases hpages), fun _ _ => hincomplete⟩

/-- A generation that has been chosen stays chosen. -/
theorem triple_chooseGenerations_kept (candidates : List (Subkey × CowIndex D))
    (chosen : ChosenGeneration D T) (older : Option (CowIndex D))
    (hcomplete : ∀ index ∈ older, Complete T m index) :
    Triple (fun w => w = Record.quiet n m)
      (chooseGenerations recordOps candidates (some chosen) older)
      (fun r w => w = Record.quiet n m ∧ r.1 = some chosen ∧ ∀ index ∈ r.2, Complete T m index)
      (fun _ _ => False) := by
  induction candidates generalizing older with
  | nil => exact triple_pure fun w hw => ⟨hw, rfl, hcomplete⟩
  | cons candidate candidates ih =>
    obtain ⟨slot, index⟩ := candidate
    rw [chooseGenerations]
    refine triple_bind (triple_attempt_load_quiet (T := T) index) fun r => ?_
    rintro w ⟨hw, hok, _⟩
    rcases r with error | pages
    · exact ih older hcomplete w hw
    cases older with
    | some older => exact ih (some older) hcomplete w hw
    | none =>
      refine ih (some index) (fun index' hindex' => ?_) w hw
      cases hindex'
      exact (hok pages rfl).complete

theorem triple_chooseGenerations_quiet (candidates : List (Subkey × CowIndex D)) :
    Triple (fun w => w = Record.quiet n m) (chooseGenerations (T := T) recordOps candidates none none)
      (fun r w => w = Record.quiet n m ∧ Chosen m candidates r.1 ∧ ∀ index ∈ r.2, Complete T m index)
      (fun _ _ => False) := by
  induction candidates with
  | nil =>
    refine triple_pure fun w hw => ⟨hw, .nothing fun c hc => ?_, fun index hindex => ?_⟩
    · cases hc
    · cases hindex
  | cons candidate candidates ih =>
    obtain ⟨slot, index⟩ := candidate
    rw [chooseGenerations]
    refine triple_bind (triple_attempt_load_quiet (T := T) index) fun r => ?_
    rintro w ⟨hw, hok, herror⟩
    rcases r with error | pages
    · -- This candidate does not load, so the choice falls on a later one.
      refine (ih.weaken (fun _ hw => hw) (fun r w hr => ⟨hr.1, ?_, hr.2.2⟩) fun _ _ h => h) w hw
      obtain ⟨_, hchosen, _⟩ := hr
      obtain ⟨chosen, older⟩ := r
      have hincomplete : ¬ Complete T m index := herror error rfl
      cases hchosen with
      | nothing h => exact .nothing (List.forall_mem_cons.mpr ⟨hincomplete, h⟩)
      | first before hsplit hbefore hopened =>
        refine .first ((slot, index) :: before) (by rw [hsplit]; rfl) ?_ hopened
        exact List.forall_mem_cons.mpr ⟨hincomplete, hbefore⟩
    · refine ((triple_chooseGenerations_kept candidates ⟨slot, index, pages⟩ none
        fun _ h => by cases h).weaken (fun _ hw => hw) (fun r w hr => ⟨hr.1, ?_, hr.2.2⟩)
        fun _ _ h => h) w hw
      rw [hr.2.1]
      exact .first [] rfl (fun c hc => by cases hc) (hok pages rfl)

/-- The candidates of both slots, newest first. -/
def candidates (m : Memory) : List (Subkey × CowIndex D) :=
  ([indexSlotA, indexSlotB].filterMap (candidateAt m)).insertionSort
    fun a b => b.2.generation ≤ a.2.generation

omit [PageEntry T] in
theorem mem_candidates {slot : Subkey} :
    (slot, index) ∈ candidates m ↔ IsIndexSlot slot ∧ HoldsIndex m slot index := by
  simp only [candidates, List.mem_insertionSort, List.mem_filterMap, List.mem_cons,
    List.not_mem_nil, or_false, candidateAt_eq_some_iff, IsIndexSlot]
  constructor
  · rintro ⟨slot', hslot', rfl, hholds⟩
    exact ⟨hslot', hholds⟩
  · rintro ⟨hslot, hholds⟩
    exact ⟨slot, hslot, rfl, hholds⟩

omit [PageEntry T] in
theorem candidates_newest_first :
    (candidates (D := D) m).Pairwise fun a b => b.2.generation ≤ a.2.generation := by
  have : Std.Total fun a b : Subkey × CowIndex D => b.2.generation ≤ a.2.generation :=
    ⟨fun _ _ => UInt64.le_total _ _⟩
  have : IsTrans _ fun a b : Subkey × CowIndex D => b.2.generation ≤ a.2.generation :=
    ⟨fun _ _ _ hab hbc => UInt64.le_trans hbc hab⟩
  exact List.pairwise_insertionSort _ _

/-- What a load settles on: a complete generation than which no other slot holds a
newer one, or nothing when no slot holds a complete one. -/
inductive Loads (m : Memory) (store : CowPagedStore D T) : Prop
  | generation {index : CowIndex D} (slot : IsIndexSlot store.activeIndexSlot)
      (current : store.currentIndex = some index)
      (holds : HoldsIndex m store.activeIndexSlot index)
      (opened : OpenedFrom m.Holds index store.pages)
      (newest : ∀ slot' (index' : CowIndex D), IsIndexSlot slot' → HoldsIndex m slot' index' →
        Complete T m index' → index'.generation ≤ index.generation)
  | nothing (slot : store.activeIndexSlot = indexSlotA) (current : store.currentIndex = none)
      (pages : store.pages = [emptyPage])
      (incomplete : ∀ slot' (index' : CowIndex D), IsIndexSlot slot' → HoldsIndex m slot' index' →
        ¬ Complete T m index')

theorem loads_of_chosen {chosen : Option (ChosenGeneration D T)} {older : Option (CowIndex D)}
    (name : String) (packageIndex : Nat) (h : Chosen m (candidates m) chosen) :
    Loads m (loadedStore name packageIndex n chosen older) := by
  cases h with
  | nothing hincomplete =>
    refine .nothing rfl rfl rfl fun slot index hslot hholds => ?_
    exact hincomplete (slot, index) (mem_candidates.mpr ⟨hslot, hholds⟩)
  | @first chosen before _ hsplit hbefore hopened =>
    have hmem : (chosen.slot, chosen.index) ∈ candidates m := by
      rw [hsplit]
      simp
    obtain ⟨hslot, hholds⟩ := mem_candidates.mp hmem
    refine .generation hslot rfl hholds hopened fun slot' index' hslot' hholds' hcomplete => ?_
    have hmem' : (slot', index') ∈ candidates m := mem_candidates.mpr ⟨hslot', hholds'⟩
    rw [hsplit, List.mem_append, List.mem_cons] at hmem'
    rcases hmem' with hbefore' | heq | hafter
    · exact absurd hcomplete (hbefore _ hbefore')
    · rw [(Prod.mk.inj heq).2]
      exact UInt64.le_refl _
    · have hsorted := candidates_newest_first (D := D) (m := m)
      rw [hsplit, List.pairwise_append, List.pairwise_cons] at hsorted
      exact hsorted.2.1.1 _ hafter

/-- A load over a record that serves every call succeeds. -/
theorem loadOwned_quiet (name : String) (packageIndex : Nat) : ∃ store : CowPagedStore D T,
      loadOwned recordOps name packageIndex (Record.quiet n m) = (.ok store, Record.quiet n m) ∧
        store.name = name ∧ store.packageIndex = packageIndex ∧ store.totalSubkeys = n ∧
        (∀ index ∈ store.previousIndex, Complete T m index) ∧ Loads m store := by
  have hload : Triple (fun w => w = Record.quiet n m)
      (loadGenerations recordOps name packageIndex n :
        Fallible MailboxError Record (CowPagedStore D T))
      (fun store w => w = Record.quiet n m ∧ store.name = name ∧
        store.packageIndex = packageIndex ∧ store.totalSubkeys = n ∧
        (∀ index ∈ store.previousIndex, Complete T m index) ∧ Loads m store)
      (fun _ _ => False) := by
    refine triple_bind (triple_traverse_forall₂ fun slot _ => triple_readCandidate_quiet slot)
      fun slots => triple_and_pure fun hslots => ?_
    have hcandidates : (slots.filterMap id).insertionSort
        (fun a b => b.2.generation ≤ a.2.generation) = candidates (D := D) m := by
      rcases hslots with _ | ⟨rfl, _ | ⟨rfl, ⟨⟩⟩⟩
      rfl
    rw [hcandidates]
    refine triple_bind (triple_chooseGenerations_quiet (candidates m)) fun r => ?_
    refine triple_pure fun w hw => ⟨hw.1, ?_⟩
    obtain ⟨chosen, older⟩ := r
    have holder : (loadedStore name packageIndex n chosen older).previousIndex = older := by
      cases chosen <;> rfl
    refine ⟨?_, ?_, ?_, holder.symm ▸ hw.2.2, loads_of_chosen name packageIndex hw.2.1⟩ <;>
      cases chosen <;> rfl
  obtain ⟨store, w, hrun, rfl, hstore⟩ := hload.returns rfl
  exact ⟨store, hrun, hstore⟩

end Quiet

/-! ## Loading under any fates -/

section AnyFates

variable {m : Memory}

/-- The record holds a complete generation in this slot, with these pages. -/
structure HoldsGeneration (m : Memory) (slot : Subkey) (index : CowIndex D)
    (pages : List (LocalPage D T)) : Prop where
  isSlot : IsIndexSlot slot
  held : HoldsIndex m slot index
  opened : OpenedFrom m.Holds index pages

omit [PageEntry T] in
theorem triple_readCandidate_record (slot : Subkey) :
    Triple (fun w => w.memory = m) (readCandidate (D := D) recordOps slot)
      (fun r w => w.memory = m ∧ ∀ c ∈ r, c.1 = slot ∧ HoldsIndex m slot c.2)
      (fun _ _ => False) := by
  refine triple_bind (triple_attempt (readsAs_record.fetch slot)
    (R := fun r w => w.memory = m ∧ ∀ bytes, r = .ok bytes → m.Holds slot bytes) ?_ ?_)
    fun r => triple_pure fun w hw => ⟨hw.1, ?_⟩
  · rintro bytes w ⟨hw, hholds⟩
    refine ⟨hw, fun bytes' hbytes => ?_⟩
    cases hbytes
    exact hholds
  · exact fun e w hw => ⟨hw, fun bytes hbytes => by cases hbytes⟩
  intro c hc
  cases r with
  | error e => cases hc
  | ok bytes =>
    obtain ⟨index, hopen, rfl⟩ := Option.map_eq_some_iff.mp hc
    exact ⟨rfl, bytes, hw.2 bytes rfl, hopen⟩

/-- Whatever a load chooses among candidates that the record holds is complete. -/
theorem triple_chooseGenerations_record (candidates : List (Subkey × CowIndex D))
    (chosen : Option (ChosenGeneration D T)) (older : Option (CowIndex D))
    (hcandidates : ∀ c ∈ candidates, IsIndexSlot c.1 ∧ HoldsIndex m c.1 c.2)
    (hchosen : ∀ c, chosen = some c → HoldsGeneration m c.slot c.index c.pages) :
    Triple (fun w => w.memory = m) (chooseGenerations recordOps candidates chosen older)
      (fun r _ => ∀ c, r.1 = some c → HoldsGeneration m c.slot c.index c.pages)
      (fun _ _ => True) := by
  induction candidates generalizing chosen older with
  | nil => exact triple_pure fun _ _ => hchosen
  | cons candidate candidates ih =>
    obtain ⟨slot, index⟩ := candidate
    obtain ⟨⟨hslot, hindex⟩, hrest⟩ := List.forall_mem_cons.mp hcandidates
    rw [chooseGenerations]
    refine triple_bind (M := fun r w => w.memory = m ∧
      ∀ pages, r = .ok pages → OpenedFrom m.Holds index pages) ?_ fun r => ?_
    · refine triple_attempt (triple_loadAndValidateOwnedPages (T := T) readsAs_record index) ?_ ?_
      · rintro pages w ⟨hw, hopened⟩
        refine ⟨hw, fun pages' hpages' => ?_⟩
        cases hpages'
        exact hopened
      · exact fun e w hw => ⟨hw, fun pages hpages => by cases hpages⟩
    rintro w ⟨hw, hr⟩
    rcases r with error | pages
    · exact ih chosen older hrest hchosen w hw
    cases chosen with
    | none =>
      refine ih _ older hrest (fun c hc => ?_) w hw
      cases hc
      exact ⟨hslot, hindex, hr pages rfl⟩
    | some c =>
      cases older with
      | none => exact ih _ _ hrest hchosen w hw
      | some index' => exact ih _ _ hrest hchosen w hw

/-- A load that meets any fates yields nothing or a generation that the record holds. -/
theorem loadOwned_record {name : String} {packageIndex : Nat} {w w' : Record}
    {store : CowPagedStore D T} (h : loadOwned recordOps name packageIndex w = (.ok store, w')) :
    store.pages = [emptyPage] ∨ ∃ slot index, HoldsGeneration w.memory slot index store.pages := by
  have hload : Triple (fun w' => w'.memory = w.memory)
      (loadGenerations recordOps name packageIndex w.totalSubkeys :
        Fallible MailboxError Record (CowPagedStore D T))
      (fun store _ => store.pages = [emptyPage] ∨
        ∃ slot index, HoldsGeneration w.memory slot index store.pages) (fun _ _ => True) := by
    refine triple_bind ((triple_traverse_forall₂
      fun slot _ => triple_readCandidate_record slot).weaken (fun _ hw => hw) (fun _ _ hw => hw)
        fun _ _ _ => trivial) fun slots => triple_and_pure fun hslots => ?_
    refine triple_bind (triple_chooseGenerations_record _ none none (fun c hc => ?_)
      fun c hc => by cases hc) fun r => ?_
    · rw [List.mem_insertionSort, List.mem_filterMap] at hc
      obtain ⟨candidate, hcandidate, hc⟩ := hc
      obtain ⟨slot, hslot, hheld⟩ := forall₂_exists_left hslots hcandidate
      obtain ⟨rfl, hindex⟩ := hheld c hc
      exact ⟨by simpa [IsIndexSlot] using hslot, hindex⟩
    · refine triple_pure fun w hr => ?_
      obtain ⟨chosen, older⟩ := r
      cases chosen with
      | none => exact .inl rfl
      | some c => exact .inr ⟨c.slot, c.index, hr c rfl⟩
  exact hload.ok rfl h

end AnyFates

end VeilKnit.Mailbox
