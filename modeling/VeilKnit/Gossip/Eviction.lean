import Mathlib.Algebra.Order.BigOperators.Group.List
import VeilKnit.Gossip.Manager

/-!
# Eviction

What the two loops that enforce the limits leave of the cache: no more entries than allowed, none
that were not there before, and no local publication less as long as there are others to remove.
-/

namespace VeilKnit.Gossip

open Library

variable {Digest : Type} {visit : Visit Digest}
  {state s t : GossipState Digest} {app : AppGossipState Digest}
  {applicationId : String} {key : GossipObjectKey} {entry : GossipCacheEntry Digest}

/-! ## Entries and items -/

@[simp]
theorem app_setApp (applicationId other : String) : (state.setApp applicationId app).app other =
      if other = applicationId then app else state.app other := by
  unfold GossipState.app GossipState.setApp
  by_cases h : other = applicationId
  · subst h
    simp
  · rw [if_neg h, AList.lookup_insert_ne h]

@[simp]
theorem entry_setApp (applicationId other : String) (key : GossipObjectKey) :
    (state.setApp applicationId app).entry other key =
      if other = applicationId then app.lookup key else state.entry other key := by
  rw [GossipState.entry, app_setApp]
  split <;> rfl

theorem entry_insert {applicationId other : String} {key key' : GossipObjectKey}
    {new e : GossipCacheEntry Digest}
    (h : (state.setApp applicationId ((state.app applicationId).insert key new)).entry other key' =
      some e) : (other = applicationId ∧ key' = key ∧ e = new) ∨ state.entry other key' = some e := by
  rw [entry_setApp] at h
  split at h
  case isTrue hsame =>
    subst hsame
    obtain ⟨rfl, rfl⟩ | ⟨-, hother⟩ := AList.of_lookup_insert h
    · exact .inl ⟨rfl, rfl, rfl⟩
    · exact .inr hother
  case isFalse => exact .inr h

variable {item : CacheItem Digest}

theorem mem_items : item ∈ state.items ↔ state.entry item.1 item.2.1 = some item.2.2 := by
  obtain ⟨applicationId, key, entry⟩ := item
  simp only [GossipState.items, List.mem_flatMap, List.mem_map, Prod.mk.injEq]
  constructor
  · rintro ⟨⟨_, app⟩, happ, ⟨_, _⟩, hentry, rfl, rfl, rfl⟩
    have hlookup : state.apps.lookup _ = some app := AList.mem_lookup_iff.mpr happ
    rw [GossipState.entry, GossipState.app, hlookup]
    exact AList.mem_lookup_iff.mpr hentry
  intro h
  cases hlookup : state.apps.lookup applicationId with
  | none => simp [GossipState.entry, GossipState.app, hlookup] at h
  | some app =>
    rw [GossipState.entry, GossipState.app, hlookup] at h
    exact ⟨⟨applicationId, app⟩, AList.mem_lookup_iff.mp hlookup, ⟨key, entry⟩,
      AList.mem_lookup_iff.mp h, rfl, rfl, rfl⟩

theorem length_items :
    state.items.length = AList.total (fun app => app.entries.length) state.apps := by
  rw [GossipState.items, List.length_flatMap, AList.total]
  simp

theorem total_erase_app (state : GossipState Digest) (applicationId : String) :
    AList.total (fun app => app.entries.length) state.apps =
      (state.app applicationId).entries.length +
        AList.total (fun app => app.entries.length) (state.apps.erase applicationId) := by
  cases hlookup : state.apps.lookup applicationId with
  | none => simp [GossipState.app, hlookup, AList.erase_of_lookup hlookup]
  | some app => simp [GossipState.app, hlookup, AList.total_erase _ hlookup]

theorem length_items_setApp (state : GossipState Digest) (applicationId : String)
    (app : AppGossipState Digest) :
    (state.setApp applicationId app).items.length + (state.app applicationId).entries.length =
      state.items.length + app.entries.length := by
  rw [length_items, length_items, GossipState.setApp, AList.total_insert,
    total_erase_app state applicationId]
  omega

/-! ## Candidates -/

variable {items : List (CacheItem Digest)}

theorem minByRank_eq_some (h : minByRank visit items = some item) :
    item ∈ items ∧ ∀ other ∈ items, evictionRank item ≤ evictionRank other := by
  refine ⟨(visit.perm items).mem_iff.mp (List.argmin_mem h), fun other hother => ?_⟩
  exact List.le_of_mem_argmin ((visit.perm items).mem_iff.mpr hother) h

theorem minByRank_isSome (visit : Visit Digest) (h : items ≠ []) :
    ∃ item, minByRank visit items = some item := by
  cases hmin : minByRank visit items with
  | some item => exact ⟨item, rfl⟩
  | none =>
    have hperm := visit.perm items
    rw [List.argmin_eq_none.mp hmin] at hperm
    exact absurd hperm.symm.eq_nil h

/-- Only where all are local publications is one of them the lowest. -/
theorem locallyPublished_of_rank_le {other : CacheItem Digest}
    (hlocal : item.2.2.locallyPublished = true) (h : evictionRank item ≤ evictionRank other) :
    other.2.2.locallyPublished = true := by
  rcases Prod.Lex.toLex_le_toLex.mp h with hlt | ⟨heq, -⟩
  · rw [hlocal] at hlt
    cases hother : other.2.2.locallyPublished with
    | true => rfl
    | false => simp [hother] at hlt
  · rw [hlocal] at heq
    cases hother : other.2.2.locallyPublished with
    | true => rfl
    | false => simp [hother] at heq

theorem evictionCandidate_eq_some (h : evictionCandidate visit applicationId app = some key) :
    ∃ entry, app.lookup key = some entry ∧ (entry.locallyPublished = true →
      ∀ other e, app.lookup other = some e → e.locallyPublished = true) := by
  obtain ⟨item, hitem, rfl⟩ := Option.map_eq_some_iff.mp h
  obtain ⟨hmem, hleast⟩ := minByRank_eq_some hitem
  obtain ⟨e, he, rfl⟩ := List.mem_map.mp hmem
  refine ⟨e.2, AList.mem_lookup_iff.mpr he, fun hlocal other e' he' => ?_⟩
  have hmem' : (applicationId, other, e') ∈ app.entries.map fun e => (applicationId, e.1, e.2) :=
    List.mem_map.mpr ⟨⟨other, e'⟩, AList.mem_lookup_iff.mp he', rfl⟩
  exact locallyPublished_of_rank_le hlocal (hleast _ hmem')

theorem evictionCandidate_isSome (visit : Visit Digest) (applicationId : String)
    (h : app.entries ≠ []) :
    ∃ key, evictionCandidate visit applicationId app = some key := by
  have hitems : (app.entries.map fun e => (applicationId, e.1, e.2)) ≠ [] := by simpa using h
  obtain ⟨item, hitem⟩ := minByRank_isSome visit hitems
  exact ⟨item.2.1, by rw [evictionCandidate, hitem]; rfl⟩

theorem globalCandidate_eq_some (h : globalCandidate visit state = some (applicationId, key)) :
    ∃ entry, state.entry applicationId key = some entry ∧ (entry.locallyPublished = true →
      ∀ other key' e, state.entry other key' = some e → e.locallyPublished = true) := by
  obtain ⟨item, hitem, hpair⟩ := Option.map_eq_some_iff.mp h
  cases hpair
  obtain ⟨hmem, hleast⟩ := minByRank_eq_some hitem
  refine ⟨item.2.2, mem_items.mp hmem, fun hlocal other key' e he => ?_⟩
  exact locallyPublished_of_rank_le hlocal (hleast (other, key', e) (mem_items.mpr he))

theorem globalCandidate_isSome (visit : Visit Digest) (h : state.items ≠ []) :
    ∃ applicationId key, globalCandidate visit state = some (applicationId, key) := by
  obtain ⟨item, hitem⟩ := minByRank_isSome visit h
  exact ⟨item.1, item.2.1, by rw [globalCandidate, hitem]; rfl⟩

/-! ## One application -/

variable {rounds : Nat}

/-- What the loop makes of the entries of one application. -/
theorem enforceAppCapacity_spec (enough : app.entries.length ≤ rounds) :
    (enforceAppCapacity visit applicationId rounds app).entries.length ≤ gossipMaxEntriesPerApp ∧
      (enforceAppCapacity visit applicationId rounds app).entries.length ≤ app.entries.length ∧
      (∀ key e, (enforceAppCapacity visit applicationId rounds app).lookup key = some e →
        app.lookup key = some e) ∧
      ∀ key e, app.lookup key = some e → e.locallyPublished = true →
        (enforceAppCapacity visit applicationId rounds app).lookup key = none →
          ∀ other e', (enforceAppCapacity visit applicationId rounds app).lookup other = some e' →
            e'.locallyPublished = true := by
  induction rounds generalizing app with
  | zero =>
    refine ⟨by rw [enforceAppCapacity, Nat.le_zero.mp enough]; exact Nat.zero_le _, le_rfl,
      fun _ _ h => h,
      fun key e he _ hgone => ?_⟩
    cases hgone.symm.trans he
  | succ rounds ih =>
    rw [enforceAppCapacity]
    by_cases hover : app.entries.length > gossipMaxEntriesPerApp
    case neg =>
      rw [if_neg hover]
      refine ⟨not_lt.mp hover, le_rfl, fun _ _ h => h, fun key e he _ hgone => ?_⟩
      cases hgone.symm.trans he
    case pos =>
    have hsome : app.entries ≠ [] := by
      intro hnil
      simp [hnil] at hover
    obtain ⟨victim, hvictim⟩ := evictionCandidate_isSome visit applicationId hsome
    obtain ⟨entry, hentry, hall⟩ := evictionCandidate_eq_some hvictim
    rw [if_pos hover, hvictim]
    have hlength := AList.length_erase hentry
    have hless : (app.erase victim).entries.length ≤ rounds := by omega
    obtain ⟨hcap, hfewer, hsub, hprotect⟩ := ih hless
    have herased : ∀ key e, (app.erase victim).lookup key = some e → app.lookup key = some e :=
      fun _ _ he => (AList.of_lookup_erase he).2
    refine ⟨hcap, by dsimp only; omega, fun key e he => herased key e (hsub key e he), ?_⟩
    intro key e he hlocal hgone other e' he'
    by_cases hkey : key = victim
    · subst hkey
      cases hentry.symm.trans he
      exact hall hlocal other e' (herased other e' (hsub other e' he'))
    · exact hprotect key e (by rwa [AList.lookup_erase_ne hkey]) hlocal hgone other e' he'

theorem enforceApps_app (applicationId : String) : (enforceApps visit state).app applicationId =
      enforceAppCapacity visit applicationId (state.app applicationId).entries.length
        (state.app applicationId) := by
  unfold enforceApps GossipState.app
  rw [AList.lookup_mapEntries]
  cases state.apps.lookup applicationId <;> rfl

/-! ## All applications -/

/-- A state whose entries are among those of another. -/
structure Shrinks (s t : GossipState Digest) : Prop where
  entries : ∀ applicationId key e, t.entry applicationId key = some e →
    s.entry applicationId key = some e
  sizes : ∀ applicationId, (t.app applicationId).entries.length ≤
    (s.app applicationId).entries.length

theorem Shrinks.refl (s : GossipState Digest) : Shrinks s s := ⟨fun _ _ _ h => h, fun _ => le_rfl⟩

theorem Shrinks.trans {u : GossipState Digest} (h : Shrinks s t) (h' : Shrinks t u) :
    Shrinks s u :=
  ⟨fun a k e he => h.entries a k e (h'.entries a k e he), fun a => (h'.sizes a).trans (h.sizes a)⟩

theorem Shrinks.erase (state : GossipState Digest) (applicationId : String)
    (key : GossipObjectKey) :
    Shrinks state (state.setApp applicationId ((state.app applicationId).erase key)) := by
  constructor
  · intro other key' e he
    rw [entry_setApp] at he
    split at he
    case isTrue hsame =>
      subst hsame
      exact (AList.of_lookup_erase he).2
    case isFalse => exact he
  intro other
  rw [app_setApp]
  split
  case isTrue hsame =>
    subst hsame
    exact (List.kerase_sublist key _).length_le
  case isFalse => exact le_rfl

/-- What the loop makes of the entries of all applications. -/
theorem enforceGlobalCapacity_spec (visit : Visit Digest) (enough : state.items.length ≤ rounds) :
    (enforceGlobalCapacity visit rounds state).items.length ≤ gossipMaxEntriesGlobal ∧
      Shrinks state (enforceGlobalCapacity visit rounds state) ∧
      ∀ applicationId key e, state.entry applicationId key = some e → e.locallyPublished = true →
        (enforceGlobalCapacity visit rounds state).entry applicationId key = none →
          ∀ other key' e', (enforceGlobalCapacity visit rounds state).entry other key' = some e' →
            e'.locallyPublished = true := by
  induction rounds generalizing state with
  | zero =>
    refine ⟨by rw [enforceGlobalCapacity, Nat.le_zero.mp enough]; exact Nat.zero_le _, .refl state,
      fun _ _ e he _ hgone => ?_⟩
    cases hgone.symm.trans he
  | succ rounds ih =>
    rw [enforceGlobalCapacity]
    by_cases hover : state.items.length > gossipMaxEntriesGlobal
    case neg =>
      rw [if_neg hover]
      refine ⟨not_lt.mp hover, .refl state, fun _ _ e he _ hgone => ?_⟩
      cases hgone.symm.trans he
    case pos =>
    have hsome : state.items ≠ [] := by
      intro hnil
      simp [hnil] at hover
    obtain ⟨a, k, hvictim⟩ := globalCandidate_isSome visit hsome
    obtain ⟨entry, hentry, hall⟩ := globalCandidate_eq_some hvictim
    rw [if_pos hover, hvictim]
    obtain ⟨next, hnext⟩ : ∃ next, next = state.setApp a ((state.app a).erase k) := ⟨_, rfl⟩
    have hshrinks : Shrinks state next := hnext ▸ Shrinks.erase state a k
    have hfewer : next.items.length < state.items.length := by
      have hsum := length_items_setApp state a ((state.app a).erase k)
      have hlength := AList.length_erase hentry
      rw [← hnext] at hsum
      omega
    dsimp only
    rw [← hnext]
    have hless : next.items.length ≤ rounds := by omega
    obtain ⟨hcap, hsub, hprotect⟩ := ih hless
    refine ⟨hcap, hshrinks.trans hsub, fun a' k' e he hlocal hgone other key' e' he' => ?_⟩
    by_cases hsame : a' = a ∧ k' = k
    · obtain ⟨rfl, rfl⟩ := hsame
      cases hentry.symm.trans he
      exact hall hlocal other key' e' ((hshrinks.trans hsub).entries other key' e' he')
    have hkept : next.entry a' k' = some e := by
      rw [hnext, entry_setApp]
      split
      case isTrue ha =>
        subst ha
        rw [AList.lookup_erase_ne fun hk => hsame ⟨rfl, hk⟩]
        exact he
      case isFalse => exact he
    exact hprotect a' k' e hkept hlocal hgone other key' e' he'

theorem enforceApps_shrinks : Shrinks state (enforceApps visit state) := by
  constructor
  · intro a k e he
    rw [GossipState.entry, enforceApps_app] at he
    exact (enforceAppCapacity_spec le_rfl).2.2.1 k e he
  · intro a
    rw [enforceApps_app]
    exact (enforceAppCapacity_spec le_rfl).2.1

theorem items_enforceApps_le : (enforceApps visit state).items.length ≤ state.items.length := by
  have henforced : (enforceApps visit state).items.length = (state.apps.entries.map fun e =>
      (enforceAppCapacity visit e.1 e.2.entries.length e.2).entries.length).sum := by
    rw [length_items, AList.total, enforceApps, AList.mapEntries, List.map_map]
    rfl
  rw [henforced, length_items, AList.total]
  exact List.sum_le_sum fun app _ => (enforceAppCapacity_spec le_rfl).2.1

/-- Enforcing the limits removes entries and leaves both limits kept. -/
theorem enforceCapacity_spec (visit : Visit Digest) (state : GossipState Digest) :
    Shrinks state (enforceCapacity visit state) ∧
      (∀ a, ((enforceCapacity visit state).app a).entries.length ≤ gossipMaxEntriesPerApp) ∧
      (enforceCapacity visit state).items.length ≤ gossipMaxEntriesGlobal := by
  obtain ⟨hcap, hshrinks, -⟩ := enforceGlobalCapacity_spec visit items_enforceApps_le
  refine ⟨enforceApps_shrinks.trans hshrinks, fun a => (hshrinks.sizes a).trans ?_, hcap⟩
  rw [enforceApps_app]
  exact (enforceAppCapacity_spec le_rfl).1

/-! ## A cache with room -/

theorem length_app_le_items (state : GossipState Digest) (applicationId : String) :
    (state.app applicationId).entries.length ≤ state.items.length := by
  rw [length_items, total_erase_app state applicationId]
  exact Nat.le_add_right _ _

theorem enforceAppCapacity_of_few (few : app.entries.length ≤ gossipMaxEntriesPerApp) :
    enforceAppCapacity visit applicationId rounds app = app := by
  cases rounds with
  | zero => rfl
  | succ rounds => rw [enforceAppCapacity, if_neg (not_lt.mpr few)]

theorem enforceGlobalCapacity_of_few (few : state.items.length ≤ gossipMaxEntriesGlobal) :
    enforceGlobalCapacity visit rounds state = state := by
  cases rounds with
  | zero => rfl
  | succ rounds => rw [enforceGlobalCapacity, if_neg (not_lt.mpr few)]

/-- A cache with room keeps its entries. -/
theorem enforceCapacity_of_few (visit : Visit Digest)
    (few : state.items.length ≤ gossipMaxEntriesPerApp) :
    (∀ a k, (enforceCapacity visit state).entry a k = state.entry a k) ∧
      (enforceCapacity visit state).items.length ≤ state.items.length := by
  have happs : ∀ a, (enforceApps visit state).app a = state.app a := by
    intro a
    rw [enforceApps_app]
    exact enforceAppCapacity_of_few ((length_app_le_items state a).trans few)
  have hitems : (enforceApps visit state).items.length ≤ state.items.length := items_enforceApps_le
  have hglobal : (enforceApps visit state).items.length ≤ gossipMaxEntriesGlobal :=
    (hitems.trans few).trans (by decide)
  rw [enforceCapacity, enforceGlobalCapacity_of_few hglobal]
  refine ⟨fun a k => ?_, hitems⟩
  rw [GossipState.entry, happs]
  rfl

end VeilKnit.Gossip
