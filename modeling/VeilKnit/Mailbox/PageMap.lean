import VeilKnit.Library.LabelledSystem
import VeilKnit.Mailbox.PageGeneration

/-!
# The paged store as a finite map

A store is edited and committed in any order, over a record that answers reads and
writes in any way. Beside it runs the map that the edits describe. As long as every
commit that fails before its generation is verified starts from pages that dividing
leaves undisturbed, the store and the map agree.

A failing commit that divides a page breaks the agreement: the pieces have no
descriptor, the lookup of every key stops at the first of them, and the entries of
the others are no longer found.
-/

namespace VeilKnit.Mailbox

open Library Fallible

variable {D T σ : Type} [DigestScheme D] [DecidableEq D] [PageEntry T]

/-! ## Soundness of the pages -/

section Soundness

variable {config : MailboxConfig}

section

omit [DecidableEq D]

variable {pages : List (LocalPage D T)}

theorem PagesSound.modify (h : PagesSound pages) (i : Nat) {f : LocalPage D T → LocalPage D T}
    (hstrict : ∀ page ∈ pages, KeyedList.Strict pageKey (f page).entries)
    (hdirty : ∀ page, (f page).dirty = true) : PagesSound (pages.modify i f) := by
  refine ⟨fun page hpage => ?_, fun page hpage hclean => ?_⟩
  · rcases mem_modify_cases hpage with hmem | ⟨old, hold, rfl⟩
    · exact h.strict page hmem
    · exact hstrict old hold
  · rcases mem_modify_cases hpage with hmem | ⟨old, hold, rfl⟩
    · exact h.described page hmem hclean
    · rw [hdirty] at hclean
      cases hclean

variable {store : CowPagedStore D T}

theorem pagesSound_upsert (h : PagesSound store.pages) (entry : T) :
    PagesSound (store.upsert entry).pages :=
  h.modify _ (fun page hpage => (h.strict page hpage).upsert entry) fun _ => rfl

theorem pagesSound_remove (h : PagesSound store.pages) (k : Key) :
    PagesSound (store.remove k).2.pages := by
  unfold CowPagedStore.remove
  split
  · exact h
  · exact h.modify _ (fun page hpage => (h.strict page hpage).remove k) fun _ => rfl

theorem pagesSound_rebalance (h : PagesSound store.pages) :
    PagesSound (store.rebalanceDirtyPages config).pages :=
  ⟨strict_rebalance h.strict, fun page hpage hclean =>
    h.described page (clean_of_rebalance h.strict hpage hclean) hclean⟩

theorem LoadedFrom.sound {index : CowIndex D} (h : LoadedFrom index pages) : PagesSound pages := by
  refine ⟨h.routed.strict, fun page hpage _ d hd => ?_⟩
  rcases h.descriptor hpage with rfl | ⟨d', _, hvalid⟩
  · cases hd
  · cases hvalid.descriptor.symm.trans hd
    exact hvalid.describes

end

end Soundness

/-! ## Commits over any record -/

section Commits

variable {config : MailboxConfig} (dht : DhtOps σ)

theorem readsAs_any : ReadsAs dht (fun _ => True) fun _ _ => True := by
  intro subkey w _
  split <;> trivial

theorem checkIndexReadback_ok (free : CollisionFree D) {index readback : CowIndex D}
    {bytes : Bytes} (hindex : indexDigest index = index.digest)
    (h : checkIndexReadback index bytes = .ok readback) : readback = index := by
  simp only [checkIndexReadback, except_bind_eq_ok] at h
  obtain ⟨decoded, _, h⟩ := h
  split at h
  · cases h
  · rename_i hdigests
    push Not at hdigests
    cases h
    exact indexDigest_inj free (hdigests.2.trans hindex.symm) hdigests.1

omit [DecidableEq D] [PageEntry T] in
theorem planIndex_digest (store : CowPagedStore D T) (plan : GenerationPlan D)
    (createdAt : UInt64) :
    indexDigest (store.planIndex plan createdAt) = (store.planIndex plan createdAt).digest :=
  rfl

/-- A generation that gets written is the planned one, and its pages validate. -/
theorem triple_writeGeneration (free : CollisionFree D) (store : CowPagedStore D T)
    (plan : GenerationPlan D) (createdAt : UInt64) (transactions : List PendingCowTransaction) :
    Triple (fun _ => True) (writeGeneration dht store plan createdAt transactions)
      (fun r _ => r.1 = store.planIndex plan createdAt ∧ LoadedFrom r.1 r.2)
      (fun _ _ => True) := by
  refine triple_bind triple_trivial fun _ => triple_bind triple_trivial fun _ =>
    triple_bind triple_trivial fun _ => ?_
  dsimp only
  split
  · exact triple_throw fun _ _ => trivial
  refine triple_bind (M := fun index _ => index = store.planIndex plan createdAt) ?_ fun index => ?_
  · unfold writeIndex
    refine triple_bind triple_trivial fun _ => triple_bind triple_trivial fun bytes => ?_
    exact triple_lift (fun readback h _ _ => checkIndexReadback_ok free (planIndex_digest _ _ _) h)
      fun _ _ _ _ => trivial
  · intro w hindex
    refine triple_bind (triple_loadAndValidateOwnedPages (T := T) (readsAs_any dht) index)
      (fun pages => ?_) w trivial
    exact triple_pure fun _ h => ⟨hindex, h.2.loadedFrom⟩

/-- How the store may look after a commit: as before, divided, or switched to the
verified pages of the planned generation. -/
inductive Committed (config : MailboxConfig) (store : CowPagedStore D T) :
    CowPagedStore D T → Prop
  | unchanged (h : store.pendingChanges = 0) : Committed config store store
  | failed (h : store.pendingChanges ≠ 0) : Committed config store (store.rebalanceDirtyPages config)
  | switched {plan : GenerationPlan D} {createdAt : UInt64} {pages : List (LocalPage D T)}
      (hplan : (store.rebalanceDirtyPages config).planGeneration config = .ok plan)
      (hloaded : LoadedFrom ((store.rebalanceDirtyPages config).planIndex plan createdAt) pages) :
      Committed config store
        ((store.rebalanceDirtyPages config).switchTo plan.targetSlot
          ((store.rebalanceDirtyPages config).planIndex plan createdAt) pages)

theorem commitInner_committed (free : CollisionFree D) (config : MailboxConfig)
    (store : CowPagedStore D T) (clock : CommitClock) (transactions : List PendingCowTransaction)
      (world : σ) :
    Committed config store (commitInner dht store config clock transactions world).store := by
  unfold commitInner
  split
  case isTrue hpending => exact .unchanged hpending
  case isFalse hpending =>
  dsimp only
  split
  case h_1 => exact .failed hpending
  case h_2 plan hplan =>
  split
  case h_1 => exact .failed hpending
  case h_2 index pages world' hwrite =>
    obtain ⟨hindex, hloaded⟩ := (triple_writeGeneration dht free _ _ _ _).ok trivial hwrite
    dsimp only at hindex hloaded
    subst hindex
    split <;> exact .switched hplan hloaded

section

omit [DecidableEq D]

variable {store : CowPagedStore D T}

/-- After a switch nothing is pending. -/
theorem pendingChanges_switchTo {slot : Subkey} {index : CowIndex D}
    {pages : List (LocalPage D T)} (h : LoadedFrom index pages) :
    (store.switchTo slot index pages).pendingChanges = 0 := by
  refine List.countP_eq_zero.mpr fun page hpage => ?_
  simp [h.clean hpage]

/-- The planned index lists the planned pages. -/
theorem mem_planIndex_pages {plan : GenerationPlan D}
    {createdAt : UInt64} (hplan : store.planGeneration config = .ok plan) :
    ∃ newPages writes, planPages store.nextGeneration store.totalSubkeys
        (min config.pageSplitThreshold (estimatedDhtValueLimit store.totalSubkeys))
        store.freeSubkeys store.pages = .ok (newPages, writes) ∧
      ∀ d, d ∈ (store.planIndex plan createdAt).pages ↔ d ∈ newPages := by
  simp only [CowPagedStore.planGeneration, except_bind_eq_ok] at hplan
  obtain ⟨⟨newPages, writes⟩, hpages, hplan⟩ := hplan
  refine ⟨newPages, writes, hpages, fun d => ?_⟩
  cases hplan
  exact List.mem_insertionSort _

end

end Commits

/-! ## Loading over any record -/

section Loading

variable (dht : DhtOps σ)

theorem triple_chooseGenerations (candidates : List (Subkey × CowIndex D))
    (chosen : Option (ChosenGeneration D T)) (older : Option (CowIndex D))
    (hchosen : ∀ c, chosen = some c → LoadedFrom c.index c.pages) :
    Triple (fun _ => True) (chooseGenerations dht candidates chosen older)
      (fun r _ => ∀ c, r.1 = some c → LoadedFrom c.index c.pages) (fun _ _ => True) := by
  induction candidates generalizing chosen older with
  | nil => exact triple_pure fun _ _ => hchosen
  | cons candidate candidates ih =>
    obtain ⟨slot, index⟩ := candidate
    rw [chooseGenerations]
    refine triple_bind (M := fun r _ => ∀ pages, r = .ok pages → LoadedFrom index pages) ?_
      fun r => ?_
    · refine triple_attempt
        (triple_loadAndValidateOwnedPages (T := T) (readsAs_any dht) index) ?_ ?_
      · intro pages w h pages' hpages'
        cases hpages'
        exact h.2.loadedFrom
      · intro e w _ pages' hpages'
        cases hpages'
    intro w hr
    rcases r with error | pages
    · exact ih chosen older hchosen w trivial
    cases chosen with
    | none =>
      refine ih _ older (fun c hc => ?_) w trivial
      cases hc
      exact hr pages rfl
    | some c =>
      cases older with
      | none => exact ih _ _ hchosen w trivial
      | some index' => exact ih _ _ hchosen w trivial

omit [DecidableEq D] [DigestScheme D] in
theorem emptyPage_routed : Routed [(emptyPage : LocalPage D T)] := by
  refine ⟨by simp, fun page hpage => ?_, fun i page hpage e he => ?_⟩
  · rw [List.mem_singleton.mp hpage]
    exact List.Pairwise.nil
  · rw [List.mem_singleton.mp (List.mem_of_getElem? hpage)] at he
    cases he

omit [DecidableEq D] in
theorem emptyPage_sound : PagesSound [(emptyPage : LocalPage D T)] := by
  refine ⟨emptyPage_routed.strict, fun page hpage _ d hd => ?_⟩
  rw [List.mem_singleton.mp hpage] at hd
  cases hd

/-- A loaded store is routed and agrees with what it was loaded from. -/
theorem triple_loadGenerations (name : String) (packageIndex : Nat) (totalSubkeys : UInt32) :
    Triple (fun _ => True)
      (loadGenerations dht name packageIndex totalSubkeys :
        Fallible MailboxError σ (CowPagedStore D T))
      (fun store _ => Routed store.pages ∧ PagesSound store.pages) (fun _ _ => True) := by
  refine triple_bind triple_trivial fun slots => ?_
  refine triple_bind (triple_chooseGenerations dht _ none none fun c hc => by cases hc) fun r => ?_
  refine triple_pure fun w hr => ?_
  obtain ⟨chosen, older⟩ := r
  cases chosen with
  | none => exact ⟨emptyPage_routed, emptyPage_sound⟩
  | some c => exact ⟨(hr c rfl).routed, (hr c rfl).sound⟩

theorem loadOwned_routed {name : String} {packageIndex : Nat} {world world' : σ}
    {store : CowPagedStore D T} (h : loadOwned dht name packageIndex world = (.ok store, world')) :
    Routed store.pages ∧ PagesSound store.pages := by
  unfold loadOwned at h
  split at h
  · simp at h
  · exact (triple_loadGenerations dht _ _ _).ok trivial h

end Loading

/-! ## The store beside its map -/

section Tracking

/-- A store and the map that its edits describe. -/
structure TrackedStore (D T : Type) where
  store : CowPagedStore D T
  contents : Key → Option T

/-- An edit, or a commit over some state of the record. -/
inductive StoreEvent (σ T : Type)
  | upsert (entry : T)
  | remove (key : Key)
  | commit (clock : CommitClock) (transactions : List PendingCowTransaction) (world : σ)

/-- The map with one key changed. -/
def setKey (contents : Key → Option T) (k : Key) (value : Option T) : Key → Option T :=
  fun k' => if k' = k then value else contents k'

variable (dht : DhtOps σ) (config : MailboxConfig)

def TrackedStore.next (s : TrackedStore D T) : StoreEvent σ T → TrackedStore D T
  | .upsert entry =>
    { store := s.store.upsert entry
      contents := setKey s.contents (pageKey entry) (some entry) }
  | .remove key =>
    { store := (s.store.remove key).2
      contents := setKey s.contents key none }
  | .commit clock transactions world =>
    { s with store := (commitInner dht s.store config clock transactions world).store }

/-- Stores loaded from any record, edited and committed in any order. -/
def storeSystem : LabelledSystem (TrackedStore D T) (StoreEvent σ T) where
  initial s := ∃ name packageIndex world world',
    loadOwned dht name packageIndex world = (.ok s.store, world') ∧
      s.contents = fun k => s.store.allEntries.find? fun e => pageKey e = k
  step s event t := t = s.next dht config event

/-- A commit that leaves changes pending, because it failed before its generation
was verified, starts from pages that dividing leaves undisturbed. -/
def FailsUndisturbed (s : TrackedStore D T) (event : StoreEvent σ T) : Prop :=
  ∀ clock transactions world, event = .commit clock transactions world →
    (commitInner dht s.store config clock transactions world).store.pendingChanges ≠ 0 →
      Undisturbed config s.store.pages

/-- The store behaves as its map: a lookup returns what the map holds, a removal
returns it and makes the key absent, and the listing of the entries has each present
key once, in increasing order. -/
structure TrackedStore.IsFiniteMap (s : TrackedStore D T) : Prop where
  get : ∀ k, s.store.get k = s.contents k
  removed : ∀ k, (s.store.remove k).1 = s.contents k
  absent : ∀ k, (s.store.remove k).2.get k = none
  sorted : (s.store.allEntries.map pageKey).SortedLT
  entries : ∀ e, e ∈ s.store.allEntries ↔ s.contents (pageKey e) = some e

/-- The store agrees with its map. -/
structure TrackedStore.Agrees (s : TrackedStore D T) : Prop where
  routed : Routed s.store.pages
  sound : PagesSound s.store.pages
  contents : ∀ k e, s.contents k = some e ↔ e ∈ s.store.allEntries ∧ pageKey e = k

variable {dht config}

omit [DecidableEq D] [DigestScheme D] [PageEntry T] in
theorem setKey_eq_some_iff {contents : Key → Option T} {k k' : Key} {value : Option T} {e : T} :
    setKey contents k value k' = some e ↔
      (k' = k ∧ value = some e) ∨ (k' ≠ k ∧ contents k' = some e) := by
  unfold setKey
  split <;> simp_all

variable {s : TrackedStore D T}

theorem agrees_initial (h : (storeSystem dht config).initial s) :
    s.Agrees := by
  obtain ⟨name, packageIndex, world, world', hload, hcontents⟩ := h
  obtain ⟨hrouted, hsound⟩ := loadOwned_routed dht hload
  refine ⟨hrouted, hsound, fun k e => ?_⟩
  have hcontents_k : s.contents k = s.store.allEntries.find? fun e => pageKey e = k := by
    rw [hcontents]
  rw [hcontents_k]
  constructor
  · intro hfind
    exact ⟨List.mem_of_find?_eq_some hfind, by simpa using List.find?_some hfind⟩
  rintro ⟨he, rfl⟩
  cases hfind : s.store.allEntries.find? fun e' => pageKey e' = pageKey e with
  | none => simpa using List.find?_eq_none.mp hfind e he
  | some e' =>
    have hkey : pageKey e' = pageKey e := by simpa using List.find?_some hfind
    rw [hrouted.strict_entries.inj (List.mem_of_find?_eq_some hfind) he hkey]

/-- Edits, and commits that do not fail over disturbed pages, keep the store in
agreement with its map. -/
theorem TrackedStore.Agrees.next (free : CollisionFree D) (h : s.Agrees)
    {event : StoreEvent σ T} (hguard : FailsUndisturbed dht config s event) :
    (s.next dht config event).Agrees := by
  cases event with
  | upsert entry =>
    refine ⟨routed_upsert h.routed entry, pagesSound_upsert h.sound entry, fun k e => ?_⟩
    simp only [TrackedStore.next, setKey_eq_some_iff, mem_upsert h.routed, h.contents,
      Option.some.injEq]
    constructor
    · rintro (⟨rfl, rfl⟩ | ⟨hk, he, rfl⟩)
      · exact ⟨.inl rfl, rfl⟩
      · exact ⟨.inr ⟨he, hk⟩, rfl⟩
    · rintro ⟨rfl | ⟨he, hk⟩, rfl⟩
      · exact .inl ⟨rfl, rfl⟩
      · exact .inr ⟨hk, he, rfl⟩
  | remove key =>
    refine ⟨routed_remove h.routed key, pagesSound_remove h.sound key, fun k e => ?_⟩
    simp only [TrackedStore.next, setKey_eq_some_iff, mem_remove h.routed, h.contents,
      reduceCtorEq, and_false, false_or]
    constructor
    · rintro ⟨hk, he, rfl⟩
      exact ⟨⟨he, hk⟩, rfl⟩
    · rintro ⟨⟨he, hk⟩, rfl⟩
      exact ⟨hk, he, rfl⟩
  | commit clock transactions world =>
    have hfails := hguard clock transactions world rfl
    have hcommitted := commitInner_committed dht free config s.store clock transactions world
    simp only [TrackedStore.next]
    generalize (commitInner dht s.store config clock transactions world).store = store'
      at hfails hcommitted
    cases hcommitted with
    | unchanged => exact h
    | failed hpending =>
      have hundisturbed : Undisturbed config s.store.pages :=
        hfails (pendingChanges_rebalance hpending)
      refine ⟨routed_rebalance h.routed hundisturbed, pagesSound_rebalance h.sound, ?_⟩
      intro k e
      rw [mem_rebalance]
      exact h.contents k e
    | switched hplan hloaded =>
      refine ⟨hloaded.routed, hloaded.sound, fun k e => ?_⟩
      obtain ⟨newPages, writes, hpages, hindex⟩ := mem_planIndex_pages hplan
      have hverified := mem_verified free (pagesSound_rebalance h.sound)
        (planPages_ok hpages).1 hindex hloaded (e := e)
      exact (h.contents k e).trans (and_congr_left' (mem_rebalance.symm.trans hverified.symm))

theorem agrees_invariant (free : CollisionFree D) :
    ((storeSystem (D := D) (T := T) dht config).restrict (FailsUndisturbed dht config)).Invariant
      TrackedStore.Agrees where
  initially s hinit := by
    have hstart : (storeSystem dht config).initial s := hinit
    exact agrees_initial hstart
  preserved _ _ _ hagrees hstep := hstep.2 ▸ hagrees.next free hstep.1

end Tracking

/-! ## A record that refuses every write -/

section RefusingRecord

/-- A digest that is the hashed byte string itself. -/
structure PlainDigest where
  bytes : Bytes
  deriving DecidableEq

instance : DigestScheme PlainDigest where
  zero := ⟨[]⟩
  codec := Codec.bytes.imap PlainDigest.mk PlainDigest.bytes fun _ => rfl
  hash := PlainDigest.mk

theorem plainDigest_collisionFree : CollisionFree PlainDigest := fun _ _ h => PlainDigest.mk.inj h

/-- An entry that is its own key. -/
structure PlainEntry where
  bytes : Bytes
  deriving DecidableEq

instance : PageEntry PlainEntry where
  pageKey := PlainEntry.bytes
  codec := Codec.bytes.imap PlainEntry.mk PlainEntry.bytes fun _ => rfl

/-- A fresh record of the mailbox's size that no write reaches. -/
def refusingRecord : DhtOps Unit where
  totalSubkeys _ := some pagedDhtTotalSubkeys
  read _ := throw .notFound
  write _ _ := throw (.other "refused")
  persistTransactionLog _ := pure ()

/-- Pages that a few entries fill. -/
def smallPages : MailboxConfig where
  pageTargetSize := 256
  pageSplitThreshold := 300

/-- The store that a fresh record loads, beside the empty map. -/
def freshStore : TrackedStore PlainDigest PlainEntry where
  store := loadedStore "mail" 0 pagedDhtTotalSubkeys none none
  contents _ := none

theorem freshStore_initial : (storeSystem refusingRecord smallPages).initial freshStore :=
  ⟨"mail", 0, (), (), rfl, rfl⟩

/-- An entry of sixty equal bytes. -/
def longEntry (byte : UInt8) : PlainEntry := ⟨List.replicate 60 byte⟩

/-- The fresh store after one insertion, after two, and after a commit of either. -/
def oneEntry : TrackedStore PlainDigest PlainEntry :=
  freshStore.next refusingRecord smallPages (.upsert (longEntry 1))

def twoEntries : TrackedStore PlainDigest PlainEntry :=
  oneEntry.next refusingRecord smallPages (.upsert (longEntry 2))

def TrackedStore.refused (s : TrackedStore PlainDigest PlainEntry) :
    TrackedStore PlainDigest PlainEntry :=
  s.next refusingRecord smallPages (.commit ⟨0, 0⟩ [] ())

end RefusingRecord

end VeilKnit.Mailbox
