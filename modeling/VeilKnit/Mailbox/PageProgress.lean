import VeilKnit.Mailbox.PageCommit

/-!
# When a commit succeeds

When every call is served and there are subkeys enough, a commit of a reachable store
succeeds exactly when the ranges of the divided pages lie apart and every page and
the index fit a value. An emptied page has the range of the empty key alone, so two
emptied pages never lie apart: a store that has emptied two of its pages can no longer
commit.
-/

namespace VeilKnit.Mailbox

open Library Fallible

variable {D T : Type} [DigestScheme D] [DecidableEq D] [PageEntry T]

/-! ## Stores with nothing pending -/

section Settled

variable {config : MailboxConfig} {s : RecordedStore D T}
  {pages : List (LocalPage D T)} {f : LocalPage D T → LocalPage D T}

omit [DigestScheme D] [DecidableEq D] [PageEntry T] in
/-- An edit that leaves nothing pending has changed nothing. -/
theorem modify_eq_self_of_clean {i : Nat} (hdirty : ∀ page, (f page).dirty = true)
    (h : (pages.modify i f).countP LocalPage.dirty = 0) : pages.modify i f = pages := by
  by_cases hi : i < pages.length
  · have hmem : f pages[i] ∈ pages.modify i f := by
      refine List.mem_of_getElem? (i := i) ?_
      simp [List.getElem?_eq_getElem hi]
    have hclean := List.countP_eq_zero.mp h _ hmem
    exact absurd (hdirty pages[i]) hclean
  · exact List.modify_eq_self (not_lt.mp hi)

/-- A load finds what is in memory, unless changes are pending. -/
def RecordedStore.Settled (s : RecordedStore D T) : Prop :=
  s.store.pendingChanges = 0 →
    ∃ loaded, s.load = .ok loaded ∧ loaded.allEntries = s.store.allEntries

theorem RecordedStore.Settled.edit (h : s.Settled) (i : Nat)
    (hdirty : ∀ page, (f page).dirty = true) :
    RecordedStore.Settled
      { s with store := { s.store with pages := s.store.pages.modify i f } } := by
  intro hpending
  have hsame : s.store.pages.modify i f = s.store.pages := modify_eq_self_of_clean hdirty hpending
  rw [hsame] at hpending ⊢
  exact h hpending

/-- After a switch, a load finds the pages that were verified. -/
theorem Landed.settled {plan : GenerationPlan D} {index : CowIndex D}
    {m : Memory} (hlanded : Landed m plan index pages s.memory)
    (hpages : s.store.pages = pages) (hindex : s.store.currentIndex = some index)
    (hattempts : s.attempts = []) (hkept : s.Kept) : s.Settled := by
  intro _
  obtain ⟨loaded, hload, _, _, _, _, hloads⟩ := s.load_ok
  refine ⟨loaded, hload, ?_⟩
  rcases hkept.loaded hloads with ⟨_, hcurrent⟩ | ⟨_, a, ha, _⟩
  · cases hloads with
    | generation _ current _ opened _ =>
      cases current.symm.trans (hcurrent.trans hindex)
      rw [CowPagedStore.allEntries, CowPagedStore.allEntries, hpages, opened.unique hlanded.opened]
    | nothing _ current _ _ =>
      rw [hcurrent, hindex] at current
      cases current
  · rw [hattempts] at ha
    cases ha

theorem settled_of_reachable (reached : (countedSystem config).Reachable s) : s.Settled := by
  induction reached with
  | start hinit =>
    obtain ⟨name, packageIndex, totalSubkeys, rfl⟩ := hinit
    intro _
    obtain ⟨loaded, hload, _, _, _, _, hloads⟩ := RecordedStore.load_ok (D := D) (T := T)
      { store := loadedStore name packageIndex totalSubkeys none none
        memory := fun _ => none
        committed := []
        attempts := [] }
    refine ⟨loaded, hload, ?_⟩
    cases hloads with
    | generation _ _ holds _ _ =>
      obtain ⟨bytes, hbytes, _⟩ := holds
      cases hbytes
    | nothing _ _ pages _ =>
      rw [CowPagedStore.allEntries, pages]
      rfl
  | @next s t event hreached hstep ih =>
    have hkept := kept_invariant.holds (hreached.next event hstep)
    obtain ⟨_, rfl⟩ := hstep
    cases event with
    | upsert entry => exact ih.edit _ fun _ => rfl
    | remove key =>
      simp only [RecordedStore.next, CowPagedStore.remove]
      split
      · exact ih
      · exact ih.edit _ fun _ => rfl
    | commit clock transactions fates =>
      have hmoves := commit_moves config s clock transactions fates
      generalize s.next config (.commit clock transactions fates) = t at hmoves hkept ⊢
      cases hmoves with
      | unchanged => exact ih
      | unplanned hpending => exact fun h => absurd h (pendingChanges_rebalance hpending)
      | interrupted hpending => exact fun h => absurd h (pendingChanges_rebalance hpending)
      | landed _ _ hlanded => exact hlanded.settled rfl rfl rfl hkept
    | reload =>
      obtain ⟨loaded, hload, hname, hpackage, htotal, _, _⟩ := s.load_ok
      have hnext : s.next config .reload =
          { store := loaded
            memory := s.memory
            committed := loaded.allEntries
            attempts := if loaded.generation = s.store.generation then s.attempts else [] } := by
        simp only [RecordedStore.next, hload]
      rw [hnext]
      intro _
      refine ⟨loaded, ?_, rfl⟩
      rw [← hload]
      simp only [RecordedStore.load, hname, hpackage, htotal]

end Settled

/-! ## When a commit succeeds -/

section Succeeds

variable {config : MailboxConfig} {s : RecordedStore D T} {clock : CommitClock}
  {transactions : List PendingCowTransaction}

/-- A commit over a record that serves every call succeeds, leaves an index of the
right shape, and a load finds the entries that were in memory. -/
structure RecordedStore.CommitsCleanly (s : RecordedStore D T) (config : MailboxConfig)
    (clock : CommitClock) (transactions : List PendingCowTransaction) : Prop where
  ok : ∃ changed, (s.commit config clock transactions []).result = .ok changed
  shape : ∀ index ∈ (s.next config (.commit clock transactions [])).store.currentIndex,
    validateIndexShape index = .ok ()
  reload : ∃ loaded, (s.next config (.commit clock transactions [])).load = .ok loaded ∧
    loaded.allEntries.Perm s.store.allEntries

/-- A commit that succeeds has planned a generation within the limits and landed it. -/
theorem commit_ok_landed (hpending : s.store.pendingChanges ≠ 0) {changed : Bool}
    (h : (s.commit config clock transactions []).result = .ok changed) :
    ∃ plan pages m, (s.store.rebalanceDirtyPages config).planGeneration config = .ok plan ∧
        ((s.store.rebalanceDirtyPages config).planIndex plan clock.createdAt).serialize.length ≤
          estimatedDhtValueLimit s.store.totalSubkeys ∧
        Landed s.memory plan ((s.store.rebalanceDirtyPages config).planIndex plan clock.createdAt)
          (pages : List (LocalPage D T)) m := by
  simp only [RecordedStore.commit, commitInner, if_neg hpending] at h
  split at h
  case h_1 error hplan => cases h
  case h_2 plan hplan =>
  have hwrites := triple_writeGeneration_record (m := s.memory)
    (s.store.rebalanceDirtyPages config) plan clock.createdAt
    (transactions ++ [(s.store.rebalanceDirtyPages config).planTransaction plan clock.startedAt])
  split at h
  case h_1 error w hwrite => cases h
  case h_2 index pages w hwrite =>
    obtain ⟨hindex, hfits, hlanded⟩ := hwrites.ok rfl hwrite
    dsimp only at hindex hfits hlanded
    subst hindex
    exact ⟨plan, pages, w.memory, hplan, hfits, hlanded⟩

/-- A commit of a store that meets the needs succeeds. -/
theorem commit_ok_of_committable (clock : CommitClock)
    (transactions : List PendingCowTransaction) (hwidth : DigestWidth D) (hkept : s.Kept)
    (hpending : s.store.pendingChanges ≠ 0)
    (hfree : (s.store.rebalanceDirtyPages config).pendingChanges ≤ s.store.freeSubkeys.length)
    (h : Committable config (s.store.rebalanceDirtyPages config)) :
    (s.commit config clock transactions []).result = .ok true ∧
      (s.commit config clock transactions []).store.pendingChanges = 0 ∧
      (s.commit config clock transactions []).store.allEntries =
        (s.store.rebalanceDirtyPages config).allEntries := by
  have hanchored := anchored_rebalance hkept.anchored config hpending
  have hpending' : (s.store.rebalanceDirtyPages config).pendingChanges ≠ 0 :=
    pendingChanges_rebalance hpending
  have hsorted : (s.store.rebalanceDirtyPages config).pages.Pairwise
      fun a b => a.firstKey ≤ b.firstKey := rebalance_sorted s.store
  have hdescribed : ∀ page ∈ (s.store.rebalanceDirtyPages config).pages, page.dirty = false →
      ∃ d, page.descriptor = some d := by
    intro page hpage hclean
    obtain ⟨_, d, _, _, hd, _⟩ := hanchored.clean_stored hpending' hpage hclean
    exact ⟨d, hd⟩
  obtain ⟨plan, hplan⟩ := planGeneration_succeeds hwidth h hdescribed hfree
  have hwrites := planWrites hanchored.sound hsorted hplan
  have hsize : ∀ write ∈ plan.pageWrites, write.2.length ≤ maxNetworkDhtValueBytes := by
    intro write hwrite
    obtain ⟨page, hpage, hdirty, hwire⟩ := hwrites.wire write hwrite
    rw [hwire, wirePage_length hwidth]
    exact (h.pages page hpage hdirty).trans (min_le_right _ _)
  have hlength := planIndex_length hwidth clock.createdAt
    (planned_pages hanchored.sound hsorted hplan)
  obtain ⟨⟨index, pages⟩, w, hrun, rfl, hclean, hentries⟩ := (triple_writeGeneration_quiet
    (n := s.store.totalSubkeys) hanchored hpending' hsorted hplan clock.createdAt
    ((hanchored.planIndex_shape_iff hpending' hsorted hplan clock.createdAt).mpr h.apart) hsize
    (hlength ▸ h.index)
    (transactions ++
      [(s.store.rebalanceDirtyPages config).planTransaction plan clock.startedAt])).returns rfl
  have hquiet : Record.quiet s.store.totalSubkeys s.memory =
      { totalSubkeys := s.store.totalSubkeys, memory := s.memory, fates := [] } := rfl
  rw [hquiet] at hrun
  simp only [RecordedStore.commit, commitInner, if_neg hpending, hplan, hrun]
  refine ⟨rfl, List.countP_eq_zero.mpr fun page hpage => ?_, hentries⟩
  simp [hclean page hpage]

theorem next_commit_store {fates : List Fate} :
    (s.next config (.commit clock transactions fates)).store =
      (s.commit config clock transactions fates).store := by
  simp only [RecordedStore.next]
  split
  · rfl
  · split <;> rfl

theorem deserialize_ok_size {α : Type} {codec : Codec α} {bytes : Bytes} {a : α}
    (h : deserialize codec bytes = .ok a) : bytes.length ≤ maxNetworkDhtValueBytes := by
  unfold deserialize decodeBincodeLimited at h
  split at h
  · cases h
  · split at h
    case isTrue => cases h
    case isFalse hsize => exact not_lt.mp hsize

/-- A descriptor whose page opens lists a size that fits a value. -/
theorem openPage_ok_size {d : CowPageDescriptor D} {bytes : Bytes} {page : LocalPage D T}
    (h : openPage d bytes = .ok page) : d.serializedSize.toNat ≤ maxNetworkDhtValueBytes := by
  unfold openPage at h
  split at h
  case isTrue => cases h
  case isFalse hlength =>
    rw [except_bind_eq_ok] at h
    obtain ⟨wire, hdecoded, _⟩ := h
    rw [← not_not.mp hlength]
    exact deserialize_ok_size hdecoded

theorem estimatedDhtValueLimit_le (totalSubkeys : UInt32) :
    estimatedDhtValueLimit totalSubkeys ≤ 1048576 := by
  unfold estimatedDhtValueLimit
  have hshare : 1048576 / max totalSubkeys.toNat 1 ≤ 1048576 := Nat.div_le_self _ _
  dsimp only
  omega

/-- A generation that has landed met the needs of a commit. -/
theorem Landed.committable (hwidth : DigestWidth D) {store : CowPagedStore D T} {m m' : Memory}
    {plan : GenerationPlan D} {createdAt : UInt64} {pages : List (LocalPage D T)}
    (h : Anchored store m) (hpending : store.pendingChanges ≠ 0)
    (hsorted : store.pages.Pairwise fun a b => a.firstKey ≤ b.firstKey)
    (hplan : store.planGeneration config = .ok plan)
    (hfits : (store.planIndex plan createdAt).serialize.length ≤
      estimatedDhtValueLimit store.totalSubkeys)
    (hlanded : Landed m plan (store.planIndex plan createdAt) pages m') :
    Committable config store := by
  have hwrites := planWrites h.sound hsorted hplan
  obtain ⟨hshape, loaded, hopened, _⟩ := hlanded.opened
  refine ⟨(h.planIndex_shape_iff hpending hsorted hplan createdAt).mp hshape,
    fun page hpage hdirty => ?_, ?_⟩
  · obtain ⟨d, hd, hplaced⟩ := forall₂_exists_right hwrites.placed hpage
    rcases hplaced with ⟨hclean, _⟩ | ⟨_, write, hwrite, rfl, hwire⟩
    · rw [hdirty] at hclean
      cases hclean
    have hlimit := hwrites.size write hwrite
    obtain ⟨_, _, bytes, _, hopen⟩ := forall₂_exists_right hopened hd
    have hvalue := openPage_ok_size hopen
    -- The listed size is the length of the page, which is far below the counter's end.
    have hlisted : write.1.serializedSize = UInt32.ofNat write.2.length := by
      rw [hwire]
      rfl
    have hbound := estimatedDhtValueLimit_le store.totalSubkeys
    have hsmall : write.2.length < UInt32.size := by
      have hsize : UInt32.size = 4294967296 := rfl
      have hlimit' := hlimit.trans (min_le_right _ _)
      omega
    rw [hlisted, UInt32.toNat_ofNat_of_lt' hsmall] at hvalue
    have hlength : write.2.length = serializedPageSize D page.entries := by
      rw [hwire]
      exact wirePage_length hwidth
    rw [hlength] at hlimit hvalue
    exact le_min hlimit hvalue
  · rw [← planIndex_length hwidth createdAt (planned_pages h.sound hsorted hplan)]
    exact le_min hfits (deserialize_ok_size hlanded.decodes)

/-- Over a record that serves every call, with subkeys enough, a commit of a reachable
store succeeds exactly when there is nothing to commit or the divided store meets the
needs of a commit. -/
theorem commit_succeeds_iff (hwidth : DigestWidth D) (reached : (countedSystem config).Reachable s)
    (hcounter : s.CounterLeft)
    (hfree : (s.store.rebalanceDirtyPages config).pendingChanges ≤ s.store.freeSubkeys.length) :
    s.CommitsCleanly config clock transactions ↔
      (s.store.pendingChanges ≠ 0 → Committable config (s.store.rebalanceDirtyPages config)) := by
  have hkept := kept_invariant.holds reached
  constructor
  · intro hclean hpending
    obtain ⟨changed, hok⟩ := hclean.ok
    obtain ⟨plan, pages, m, hplan, hfits, hlanded⟩ := commit_ok_landed hpending hok
    exact hlanded.committable hwidth (anchored_rebalance hkept.anchored config hpending)
      (pendingChanges_rebalance hpending) (rebalance_sorted s.store) hplan hfits
  intro hneeds
  have hnext : (countedSystem config).Reachable (s.next config (.commit clock transactions [])) :=
    reachable_next reached (.commit clock transactions []) hcounter
  have hshape : ∀ index ∈ (s.next config (.commit clock transactions [])).store.currentIndex,
      validateIndexShape index = .ok () := fun index hindex =>
    ((kept_invariant.holds hnext).anchored.complete hindex).2.shape
  have hsettled := settled_of_reachable hnext
  rw [RecordedStore.Settled, next_commit_store] at hsettled
  by_cases hpending : s.store.pendingChanges = 0
  · -- Nothing to commit: the store stays as it is.
    have hidle : s.commit config clock transactions [] =
        { result := .ok false
          store := s.store
          transactions
          world := { totalSubkeys := s.store.totalSubkeys, memory := s.memory, fates := [] } } := by
      rw [RecordedStore.commit, commitInner, if_pos hpending]
    rw [hidle] at hsettled
    obtain ⟨loaded, hload, hentries⟩ := hsettled hpending
    exact ⟨⟨false, by rw [hidle]⟩, hshape, loaded, hload, .of_eq hentries⟩
  obtain ⟨hok, hclean, hentries⟩ := commit_ok_of_committable clock transactions
    hwidth hkept hpending hfree (hneeds hpending)
  obtain ⟨loaded, hload, hloaded⟩ := hsettled hclean
  refine ⟨⟨true, hok⟩, hshape, loaded, hload, ?_⟩
  rw [hloaded, hentries]
  exact rebalance_perm

end Succeeds

/-! ## A store that has emptied two pages -/

section Emptied

/-- A digest of 32 bytes, rolled over the byte string. -/
structure RollingDigest where
  word : Fin (2 ^ 256)
  deriving DecidableEq

instance : DigestScheme RollingDigest where
  zero := ⟨0⟩
  codec := (Codec.fixedWidth 32 Fin.val (Fin.ofNat (2 ^ 256)) (fun word => word.isLt)
    fun word => Fin.ofNat_val_eq_self word).imap RollingDigest.mk RollingDigest.word fun _ => rfl
  hash bytes := ⟨Fin.ofNat _ (bytes.foldl (fun word byte => word * 257 + (byte.toNat + 1)) 0)⟩

theorem rollingDigest_width : DigestWidth RollingDigest := fun _ => Codec.leBytes_length _ _

/-- Pages that one short entry fills. -/
def narrowPages : MailboxConfig where
  pageTargetSize := 60
  pageSplitThreshold := 65

def shortEntry (byte : UInt8) : PlainEntry := ⟨[byte]⟩

def serve : RecordEvent PlainEntry := .commit ⟨0, 0⟩ [] []

/-- A fresh store of narrow pages. -/
def freshNarrow : RecordedStore RollingDigest PlainEntry where
  store := loadedStore "mail" 0 pagedDhtTotalSubkeys none none
  memory _ := none
  committed := []
  attempts := []

/-- Two entries have been inserted. -/
def twoShort : RecordedStore RollingDigest PlainEntry :=
  (freshNarrow.next narrowPages (.upsert (shortEntry 1))).next narrowPages (.upsert (shortEntry 2))

/-- They have been committed to a page each. -/
def twoPages : RecordedStore RollingDigest PlainEntry := twoShort.next narrowPages serve

/-- Both have been removed again. -/
def twoEmptied : RecordedStore RollingDigest PlainEntry :=
  (twoPages.next narrowPages (.remove (shortEntry 1).bytes)).next narrowPages
    (.remove (shortEntry 2).bytes)

theorem twoShort_reachable : (countedSystem narrowPages).Reachable twoShort := by
  have hfresh : (countedSystem narrowPages).Reachable freshNarrow :=
    .start ⟨"mail", 0, pagedDhtTotalSubkeys, rfl⟩
  have hone := reachable_next hfresh (.upsert (shortEntry 1)) (by decide +kernel)
  exact reachable_next hone (.upsert (shortEntry 2)) (by decide +kernel)

theorem twoEmptied_reachable : (countedSystem narrowPages).Reachable twoEmptied := by
  have hpages : (countedSystem narrowPages).Reachable twoPages :=
    reachable_next twoShort_reachable serve (by decide +kernel)
  have hone := reachable_next hpages (.remove (shortEntry 1).bytes) (by decide +kernel)
  exact reachable_next hone (.remove (shortEntry 2).bytes) (by decide +kernel)

theorem commit_succeeds_iff_two_pages :
    (twoShort.store.rebalanceDirtyPages narrowPages).pages.length = 2 ∧
      twoShort.CommitsCleanly narrowPages ⟨0, 0⟩ [] := by
  have hneeds : Committable narrowPages (twoShort.store.rebalanceDirtyPages narrowPages) :=
    ⟨by decide +kernel, by decide +kernel, by decide +kernel⟩
  refine ⟨by decide +kernel, ?_⟩
  exact (commit_succeeds_iff rollingDigest_width twoShort_reachable (by decide +kernel)
    (by decide +kernel)).mpr fun _ => hneeds

/-- The store whose two pages have been emptied cannot commit. -/
theorem two_emptied_pages_stop_commits :
    ¬ ∀ s : RecordedStore RollingDigest PlainEntry, (countedSystem narrowPages).Reachable s →
        s.CounterLeft →
        (∀ e ∈ s.store.allEntries, serializedPageSize RollingDigest [e] ≤
          min narrowPages.pageSplitThreshold (estimatedDhtValueLimit s.store.totalSubkeys)) →
        (s.store.rebalanceDirtyPages narrowPages).pendingChanges ≤ s.store.freeSubkeys.length →
        s.CommitsCleanly narrowPages ⟨0, 0⟩ [] := by
  intro hclaim
  obtain ⟨changed, hok⟩ := (hclaim twoEmptied twoEmptied_reachable (by decide +kernel)
    (by decide +kernel) (by decide +kernel)).ok
  have hfails : (twoEmptied.commit narrowPages ⟨0, 0⟩ [] []).result.isOk = false := by
    decide +kernel
  rw [hok] at hfails
  cases hfails

end Emptied

end VeilKnit.Mailbox
