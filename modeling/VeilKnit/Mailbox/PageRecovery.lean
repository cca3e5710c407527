import VeilKnit.Mailbox.PageCrash

/-!
# Recovery from a commit that stopped

Whatever a commit leaves of its writes, a reload finds the contents of one whole
generation: the last committed one, the one in flight, or that of an earlier failed
attempt whose index had landed all the same. The last of these does happen: a commit
that fails after its index has landed is reported as an error, and its contents come
back after a restart.
-/

namespace VeilKnit.Mailbox

open Library Fallible

variable {D T : Type} [DigestScheme D] [DecidableEq D] [PageEntry T]

/-! ## What a load finds -/

section Contents

variable {config : MailboxConfig} {s : RecordedStore D T}

/-- The current index has the committed contents, and the index of a failed attempt
has that attempt's. -/
structure RecordedStore.Tells (s : RecordedStore D T) : Prop where
  committed : ∀ index, s.store.currentIndex = some index → IndexContents index s.committed
  fresh : s.store.currentIndex = none → s.committed = []
  attempts : ∀ a ∈ s.attempts, IndexContents a.index a.entries

variable {loaded : CowPagedStore D T}

/-- The entries of a load are those of the index it settled on. -/
theorem Loads.contents {m : Memory} (h : Loads m loaded)
    {index : CowIndex D} {entries : List T} (hindex : loaded.currentIndex = some index)
    (hcontents : IndexContents index entries) : loaded.allEntries.Perm entries := by
  cases h with
  | generation _ current _ opened _ =>
    cases current.symm.trans hindex
    exact hcontents _ opened.loadedFrom
  | nothing _ current _ _ =>
    rw [current] at hindex
    cases hindex

theorem Loads.contents_nothing {m : Memory} (h : Loads m loaded)
    (hindex : loaded.currentIndex = none) : loaded.allEntries = [] := by
  cases h with
  | generation _ current _ _ _ =>
    rw [current] at hindex
    cases hindex
  | nothing _ _ pages _ =>
    rw [CowPagedStore.allEntries, pages]
    rfl

variable {plan : GenerationPlan D}

/-- The index that a commit writes has the entries that were in memory. -/
theorem RecordedStore.Kept.planned (free : CollisionFree D) (h : s.Kept)
    (hpending : s.store.pendingChanges ≠ 0) (createdAt : UInt64)
    (hplan : (s.store.rebalanceDirtyPages config).planGeneration config = .ok plan) :
    IndexContents ((s.store.rebalanceDirtyPages config).planIndex plan createdAt)
      s.store.allEntries := by
  intro pages hloaded
  have hsound := (anchored_rebalance h.anchored config hpending).sound
  have hcontents := planned_contents free createdAt hsound (rebalance_sorted s.store) hplan
  exact (hcontents pages hloaded).trans rebalance_perm

theorem RecordedStore.Tells.commit (free : CollisionFree D) (hkept : s.Kept) (h : s.Tells)
    (clock : CommitClock) (transactions : List PendingCowTransaction) (fates : List Fate) :
    (s.next config (.commit clock transactions fates)).Tells := by
  have hmoves := commit_moves config s clock transactions fates
  generalize s.next config (.commit clock transactions fates) = t at hmoves ⊢
  cases hmoves with
  | unchanged => exact h
  | unplanned => exact ⟨h.committed, h.fresh, h.attempts⟩
  | interrupted hpending hplan _ =>
    refine ⟨h.committed, h.fresh, fun a ha => ?_⟩
    rcases List.mem_append.mp ha with hold | hnew
    · exact h.attempts a hold
    · rw [List.mem_singleton.mp hnew]
      exact hkept.planned free hpending clock.createdAt hplan
  | landed hpending hplan _ =>
    refine ⟨fun index hindex => ?_, fun hnone => (by cases hnone), fun a ha => by cases ha⟩
    cases hindex
    exact hkept.planned free hpending clock.createdAt hplan

theorem RecordedStore.Tells.reload (free : CollisionFree D) (h : s.Tells) :
    (s.next config .reload).Tells := by
  obtain ⟨loaded, hload, _, _, _, _, hloads⟩ := s.load_ok
  simp only [RecordedStore.next, hload]
  refine ⟨fun index hindex => ?_, hloads.contents_nothing, fun a ha => ?_⟩
  · cases hloads with
    | generation _ current _ opened _ =>
      cases current.symm.trans hindex
      exact opened.loadedFrom.contents free
    | nothing _ current _ _ =>
      rw [current] at hindex
      cases hindex
  · dsimp only at ha
    split at ha
    · exact h.attempts a ha
    · cases ha

theorem tells_of_reachable (free : CollisionFree D) (reached : (countedSystem config).Reachable s) :
    s.Tells := by
  refine kept_invariant.holds_of_relative (fun s hinit => ?_) (fun s event t hkept htells hstep => ?_)
    reached
  · obtain ⟨name, packageIndex, totalSubkeys, rfl⟩ := hinit
    exact ⟨fun index hindex => (by cases hindex), fun _ => rfl, fun a ha => by cases ha⟩
  obtain ⟨_, rfl⟩ := hstep
  cases event with
  | upsert entry => exact ⟨htells.committed, htells.fresh, htells.attempts⟩
  | remove key =>
    have hcurrent : (s.store.remove key).2.currentIndex = s.store.currentIndex := by
      unfold CowPagedStore.remove
      split <;> rfl
    exact ⟨fun index hindex => htells.committed index (hcurrent ▸ hindex),
      fun hnone => htells.fresh (hcurrent ▸ hnone), htells.attempts⟩
  | commit clock transactions fates => exact htells.commit free hkept clock transactions fates
  | reload => exact htells.reload free

/-- The subkeys that a plan writes. -/
def GenerationPlan.subkeys (plan : GenerationPlan D) : List Subkey :=
  plan.targetSlot :: plan.pageWrites.map fun write => write.1.subkey

/-- Whatever a plan writes, neither the current nor the previous index uses. -/
theorem RecordedStore.Kept.plan_spares (h : s.Kept)
    (hplan : (s.store.rebalanceDirtyPages config).planGeneration config = .ok plan) {k : Subkey}
    (hk : k ∈ plan.subkeys) :
    k ∉ CowPagedStore.referenced s.store.currentIndex ∧
      k ∉ CowPagedStore.referenced s.store.previousIndex := by
  rcases List.mem_cons.mp hk with rfl | hk
  · -- An index slot is no data subkey.
    have hslot : plan.targetSlot < firstDataSubkey := by
      rw [(plan_target hplan).1]
      exact otherSlot_lt
    have hspared : ∀ index : CowIndex D, validateIndexShape index = .ok () →
        plan.targetSlot ∉ index.pages.map CowPageDescriptor.subkey := by
      intro index hshape hmem
      obtain ⟨d, hd, hsubkey⟩ := List.mem_map.mp hmem
      have hdata := ((validateIndexShape_ok_iff.mp hshape).2.1 d hd).1
      rw [hsubkey] at hdata
      exact UInt32.not_lt.mpr hdata hslot
    constructor
    · cases hcurrent : s.store.currentIndex with
      | none => exact List.not_mem_nil
      | some index => exact hspared index (h.anchored.complete hcurrent).2.shape
    · cases hprevious : s.store.previousIndex with
      | none => exact List.not_mem_nil
      | some index => exact hspared index (h.previous index hprevious)
  · obtain ⟨write, hwrite, rfl⟩ := List.mem_map.mp hk
    exact (mem_freeSubkeys (plan_writes_free hplan hwrite)).2

/-- After a commit that may have stopped anywhere, a load finds the contents of the
last commit, those of the commit in flight, or those of a failed attempt since the
last commit whose index had landed; and the commit has spared the pages in use. -/
theorem reload_after_commit (free : CollisionFree D)
    (reached : (countedSystem config).Reachable s) (hcounter : s.CounterLeft)
    (clock : CommitClock) (transactions : List PendingCowTransaction) (fates : List Fate) :
    (∃ loaded, (s.next config (.commit clock transactions fates)).load = .ok loaded ∧
      (loaded.allEntries.Perm s.committed ∨ loaded.allEntries.Perm s.store.allEntries ∨
        ∃ a ∈ s.attempts, HoldsIndex s.memory s.store.otherSlot a.index ∧
          loaded.allEntries.Perm a.entries)) ∧
      ∀ plan, (s.store.rebalanceDirtyPages config).planGeneration config = .ok plan →
        ∀ k ∈ plan.subkeys, k ∉ CowPagedStore.referenced s.store.currentIndex ∧
          k ∉ CowPagedStore.referenced s.store.previousIndex := by
  have hkept := kept_invariant.holds reached
  refine ⟨?_, fun plan hplan k hk => hkept.plan_spares hplan hk⟩
  have hnext : (countedSystem config).Reachable (s.next config (.commit clock transactions fates)) :=
    reachable_next reached (.commit clock transactions fates) hcounter
  have hmoves := commit_moves config s clock transactions fates
  generalize s.next config (.commit clock transactions fates) = t at hnext hmoves ⊢
  obtain ⟨loaded, hload, _, _, _, _, hloads⟩ := t.load_ok
  refine ⟨loaded, hload, ?_⟩
  have htells := tells_of_reachable free hnext
  rcases (kept_invariant.holds hnext).loaded hloads with ⟨_, hcurrent⟩ | ⟨hslot, a, ha, hcurrent⟩
  · -- The load settles on the current generation.
    have hcommitted : loaded.allEntries.Perm t.committed := by
      cases hindex : t.store.currentIndex with
      | none =>
        rw [hloads.contents_nothing (hcurrent.trans hindex), htells.fresh hindex]
      | some index =>
        exact hloads.contents (hcurrent.trans hindex) (htells.committed index hindex)
    cases hmoves with
    | unchanged => exact .inl hcommitted
    | unplanned => exact .inl hcommitted
    | interrupted => exact .inl hcommitted
    | landed => exact .inr (.inl hcommitted)
  -- The load settles on a failed attempt, the one in flight or an earlier one.
  have hentries := hloads.contents hcurrent (htells.attempts a ha)
  have hholds : HoldsIndex t.memory t.store.otherSlot a.index := by
    cases hloads with
    | generation _ current holds _ _ =>
      rw [← hslot]
      exact Option.some.inj (current.symm.trans hcurrent) ▸ holds
    | nothing _ current _ _ =>
      rw [current] at hcurrent
      cases hcurrent
  cases hmoves with
  | unchanged => exact .inr (.inr ⟨a, ha, hholds, hentries⟩)
  | unplanned => exact .inr (.inr ⟨a, ha, hholds, hentries⟩)
  | interrupted hpending hplan hleft =>
    rcases List.mem_append.mp ha with hold | hnew
    · rcases hleft.holdsIndex hplan hholds with hheld | hsame
      · exact .inr (.inr ⟨a, hold, hheld, hentries⟩)
      · have hplanned := hkept.planned free hpending clock.createdAt hplan
        exact .inr (.inl (hloads.contents (hsame ▸ hcurrent) hplanned))
    · rw [List.mem_singleton.mp hnew] at hentries
      exact .inr (.inl hentries)
  | landed => cases ha

end Contents

/-! ## An attempt that comes back -/

section ComesBack

/-- The mailbox's record as it is created, under the default page sizes. -/
def freshRecord : RecordedStore PlainDigest PlainEntry where
  store := loadedStore "mail" 0 pagedDhtTotalSubkeys none none
  memory _ := none
  committed := []
  attempts := []

theorem freshRecord_reachable : (countedSystem {}).Reachable freshRecord :=
  .start ⟨"mail", 0, pagedDhtTotalSubkeys, rfl⟩

/-- One entry has been inserted. -/
def oneInserted : RecordedStore PlainDigest PlainEntry :=
  freshRecord.next {} (.upsert ⟨[1]⟩)

theorem oneInserted_reachable : (countedSystem {}).Reachable oneInserted :=
  reachable_next freshRecord_reachable (.upsert ⟨[1]⟩) (by decide +kernel)

/-- A commit that is refused the last of its reads, the readback of its index. -/
def unconfirmed : RecordEvent PlainEntry :=
  .commit ⟨0, 0⟩ [] [.served, .served, .served, .served, .refused]

/-- A commit that is refused its first call. -/
def refused : RecordEvent PlainEntry := .commit ⟨0, 0⟩ [] [.refused]

/-- The unconfirmed commit has failed and a second entry has been inserted. -/
def twoInserted : RecordedStore PlainDigest PlainEntry :=
  (oneInserted.next {} unconfirmed).next {} (.upsert ⟨[2]⟩)

theorem twoInserted_reachable : (countedSystem {}).Reachable twoInserted :=
  reachable_next (reachable_next oneInserted_reachable unconfirmed (by decide +kernel))
    (.upsert ⟨[2]⟩) (by decide +kernel)

theorem reload_after_commit_unconfirmed :
    ∃ loaded, (oneInserted.next {} unconfirmed).load = .ok loaded ∧
      (loaded.allEntries.Perm [] ∨ loaded.allEntries.Perm [⟨[1]⟩]) := by
  obtain ⟨⟨loaded, hload, hentries⟩, _⟩ := reload_after_commit plainDigest_collisionFree
    oneInserted_reachable (by decide +kernel) ⟨0, 0⟩ []
    [.served, .served, .served, .served, .refused]
  have hcommitted : oneInserted.committed = [] := by decide +kernel
  have hinserted : oneInserted.store.allEntries = [⟨[1]⟩] := by decide +kernel
  refine ⟨loaded, hload, ?_⟩
  rw [hcommitted, hinserted] at hentries
  rcases hentries with hold | hnew | ⟨a, ha, _⟩
  · exact .inl hold
  · exact .inr hnew
  · cases ha

/-- The contents of a commit that was reported as failed come back when the next one
crashes at its start: they are neither committed nor in flight. -/
theorem failed_attempt_comes_back :
    ¬ ∀ s : RecordedStore PlainDigest PlainEntry, (countedSystem {}).Reachable s →
        ∀ clock transactions fates,
          ∃ loaded, (s.next {} (.commit clock transactions fates)).load = .ok loaded ∧
            (loaded.allEntries.Perm s.committed ∨ loaded.allEntries.Perm s.store.allEntries) := by
  intro hclaim
  obtain ⟨loaded, hload, hentries⟩ := hclaim twoInserted twoInserted_reachable ⟨0, 0⟩ [] [.refused]
  have hcommitted : twoInserted.committed = [] := by decide +kernel
  have hinserted : twoInserted.store.allEntries = [⟨[1]⟩, ⟨[2]⟩] := by decide +kernel
  have hfound : (twoInserted.next {} refused).load.map CowPagedStore.allEntries =
      .ok [⟨[1]⟩] := by decide +kernel
  have hone : loaded.allEntries = [⟨[1]⟩] := by
    have hmap := congrArg (Except.map CowPagedStore.allEntries) hload
    exact Except.ok.inj (hmap.symm.trans hfound)
  rw [hcommitted, hinserted, hone] at hentries
  rcases hentries with hold | hnew
  · simpa using hold.length_eq
  · simpa using hnew.length_eq

end ComesBack

end VeilKnit.Mailbox
