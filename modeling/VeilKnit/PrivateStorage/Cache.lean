import VeilKnit.PrivateStorage.Plans

/-!
# Pruning the cache

Pruning removes the first few candidates in the order of their last access, as many as it takes. It
removes no object that is not in the cache, and what stays in the cache fits the limit.
-/

namespace VeilKnit.PrivateStorage.PrivateAppManifest

open Library Types

variable {m : PrivateAppManifest} {candidate : Candidate} {dead l : List Candidate}
  {limit cached : Nat} {key blobId : String} {order : Order} {now : UInt64}

/-- The manifest without some objects. -/
def removeAll (m : PrivateAppManifest) (dead : List Candidate) : PrivateAppManifest :=
  dead.foldl remove m

@[simp]
theorem removeAll_version (m : PrivateAppManifest) (dead : List Candidate) :
    (m.removeAll dead).version = m.version := by
  induction dead generalizing m with
  | nil => rfl
  | cons candidate dead ih =>
    refine (ih (m.remove candidate)).trans ?_
    cases candidate with
    | value => rfl
    | blob => rfl

theorem removeAll_values_lookup (m : PrivateAppManifest) (dead : List Candidate) (key : String) :
    (m.removeAll dead).values.lookup key =
      if dead.any (Candidate.isValue key) then none else m.values.lookup key := by
  induction dead generalizing m with
  | nil => rfl
  | cons candidate dead ih =>
    refine (ih (m.remove candidate)).trans ?_
    rw [List.any_cons]
    cases candidate with
    | blob => rfl
    | value other accessedAt bytes =>
      by_cases hkey : other = key
      · subst hkey
        simp [remove, Candidate.isValue]
      · have hlookup : (m.values.erase other).lookup key = m.values.lookup key :=
          AList.lookup_erase_ne (Ne.symm hkey)
        simp [remove, Candidate.isValue, hkey, hlookup]

theorem removeAll_blobs_lookup (m : PrivateAppManifest) (dead : List Candidate) (blobId : String) :
    (m.removeAll dead).blobs.lookup blobId =
      if dead.any (Candidate.isBlob blobId) then none else m.blobs.lookup blobId := by
  induction dead generalizing m with
  | nil => rfl
  | cons candidate dead ih =>
    refine (ih (m.remove candidate)).trans ?_
    rw [List.any_cons]
    cases candidate with
    | value => rfl
    | blob other accessedAt bytes =>
      by_cases hid : other = blobId
      · subst hid
        simp [remove, Candidate.isBlob]
      · have hlookup : (m.blobs.erase other).lookup blobId = m.blobs.lookup blobId :=
          AList.lookup_erase_ne (Ne.symm hid)
        simp [remove, Candidate.isBlob, hid, hlookup]

/-- Eviction removes the shortest part of the list that makes room. -/
theorem evict_eq (limit : Nat) (l : List Candidate) (cached : Nat) (m : PrivateAppManifest) :
    ∃ n, evict limit l cached m = (m.removeAll (l.take n), l.take n) ∧
      (cached - ((l.take n).map Candidate.bytes).sum ≤ limit ∨ l.length ≤ n) ∧
      ∀ k < n, k < l.length → limit < cached - ((l.take k).map Candidate.bytes).sum := by
  induction l generalizing cached m with
  | nil => exact ⟨0, rfl, .inr (Nat.le_refl 0), fun k hk => absurd hk (Nat.not_lt_zero k)⟩
  | cons candidate l ih =>
    rw [evict]
    by_cases hfits : cached ≤ limit
    · rw [if_pos hfits]
      exact ⟨0, rfl, .inl (by simpa using hfits), fun k hk => absurd hk (Nat.not_lt_zero k)⟩
    rw [if_neg hfits]
    obtain ⟨n, heq, hroom, hleast⟩ := ih (cached - candidate.bytes) (m.remove candidate)
    refine ⟨n + 1, ?_, ?_, ?_⟩
    · rw [heq]
      rfl
    · rw [List.take_succ_cons, List.map_cons, List.sum_cons, ← Nat.sub_sub]
      exact hroom.imp_right Nat.succ_le_succ
    intro k hk hlength
    cases k with
    | zero => simpa using hfits
    | succ k =>
      rw [List.take_succ_cons, List.map_cons, List.sum_cons, ← Nat.sub_sub]
      exact hleast k (Nat.lt_of_succ_lt_succ hk) (Nat.lt_of_succ_lt_succ hlength)

/-! ## What counts as cache -/

theorem cacheBytes_eq (m : PrivateAppManifest) :
    m.cacheBytes = (m.candidates.map Candidate.bytes).sum := by
  rw [cacheBytes, candidates, List.map_append, List.sum_append, List.map_map, List.map_map]
  rfl

theorem mem_candidates : candidate ∈ m.candidates ↔
      (∃ key entry, m.values.lookup key = some entry ∧ isCachedValue entry = true ∧
        candidate = .value key entry.lastAccessedAt entry.bytes) ∨
      ∃ blobId entry, m.blobs.lookup blobId = some entry ∧ isCachedBlob entry = true ∧
        candidate = .blob blobId entry.lastAccessedAt entry.totalBytes := by
  simp only [candidates, List.mem_append, List.mem_map, List.mem_filter]
  refine or_congr ?_ ?_
  · constructor
    · rintro ⟨⟨key, entry⟩, ⟨hmem, hcached⟩, rfl⟩
      exact ⟨key, entry, AList.mem_lookup_iff.mpr hmem, hcached, rfl⟩
    · rintro ⟨key, entry, hlookup, hcached, rfl⟩
      exact ⟨⟨key, entry⟩, ⟨AList.mem_lookup_iff.mp hlookup, hcached⟩, rfl⟩
  · constructor
    · rintro ⟨⟨blobId, entry⟩, ⟨hmem, hcached⟩, rfl⟩
      exact ⟨blobId, entry, AList.mem_lookup_iff.mpr hmem, hcached, rfl⟩
    · rintro ⟨blobId, entry, hlookup, hcached, rfl⟩
      exact ⟨⟨blobId, entry⟩, ⟨AList.mem_lookup_iff.mp hlookup, hcached⟩, rfl⟩

/-- Removing a candidate takes one candidate away. -/
theorem candidates_remove (h : candidate ∈ m.candidates) :
    m.candidates.Perm (candidate :: (m.remove candidate).candidates) := by
  obtain ⟨key, entry, hlookup, hcached, rfl⟩ | ⟨blobId, entry, hlookup, hcached, rfl⟩ :=
    mem_candidates.mp h
  · have hperm := ((AList.perm_entries_of_lookup hlookup).filter
      fun e => isCachedValue e.2).map fun e =>
        Candidate.value e.1 e.2.lastAccessedAt e.2.bytes
    rw [List.filter_cons_of_pos (by simpa using hcached)] at hperm
    exact hperm.append_right _
  · have hperm := ((AList.perm_entries_of_lookup hlookup).filter
      fun e => isCachedBlob e.2).map fun e =>
        Candidate.blob e.1 e.2.lastAccessedAt e.2.totalBytes
    rw [List.filter_cons_of_pos (by simpa using hcached)] at hperm
    exact (hperm.append_left _).trans List.perm_middle

theorem candidates_removeAll {rest : List Candidate} (h : m.candidates.Perm (dead ++ rest)) :
    (m.removeAll dead).candidates.Perm rest := by
  induction dead generalizing m with
  | nil => exact h
  | cons candidate dead ih =>
    have hmem : candidate ∈ m.candidates := h.symm.subset List.mem_cons_self
    exact ih ((candidates_remove hmem).symm.trans h).cons_inv

/-! ## Pruning -/

/-- The candidates in the order of eviction. -/
def inEvictionOrder (m : PrivateAppManifest) (order : Order) : List Candidate :=
  (order.1 m.candidates).insertionSort Candidate.Before

theorem inEvictionOrder_perm (m : PrivateAppManifest) (order : Order) :
    (m.inEvictionOrder order).Perm m.candidates :=
  (List.perm_insertionSort _ _).trans (order.2 _)

theorem inEvictionOrder_sorted (m : PrivateAppManifest) (order : Order) :
    (m.inEvictionOrder order).Pairwise Candidate.Before :=
  List.pairwise_insertionSort _ _

/-- Objects that pruning removes: the first ones in the order of eviction, as few as make room. -/
structure Evicted (m : PrivateAppManifest) (limit : Nat) (dead kept : List Candidate) : Prop where
  perm : m.candidates.Perm (dead ++ kept)
  sorted : (dead ++ kept).Pairwise Candidate.Before
  room : (kept.map Candidate.bytes).sum ≤ limit
  least : ∀ before candidate after, dead = before ++ candidate :: after →
    limit < candidate.bytes + (after.map Candidate.bytes).sum + (kept.map Candidate.bytes).sum

/-- Pruning leaves a cache that fits, and removes objects from one that does not. -/
theorem pruneCache_cases (m : PrivateAppManifest) (limit : Nat) (order : Order) (now : UInt64) :
    (m.cacheBytes ≤ limit ∧ m.pruneCache limit order now = (m, [])) ∨
      ∃ dead kept, Evicted m limit dead kept ∧ dead ++ kept = m.inEvictionOrder order ∧
        m.pruneCache limit order now =
          ({ m.removeAll dead with updatedAt := now },
            [.write (.manifest { m.removeAll dead with updatedAt := now }),
              .discard (fun key => dead.any (Candidate.isValue key))
                fun blobId => dead.any (Candidate.isBlob blobId)]) := by
  by_cases hfits : m.cacheBytes ≤ limit
  · exact .inl ⟨hfits, by rw [pruneCache, if_pos hfits]⟩
  obtain ⟨n, hevict, hroom, hleast⟩ := evict_eq limit (m.inEvictionOrder order) m.cacheBytes m
  refine .inr ⟨(m.inEvictionOrder order).take n, (m.inEvictionOrder order).drop n, ?_, ?_, ?_⟩
  · have hsplit := List.take_append_drop n (m.inEvictionOrder order)
    have hperm := (m.inEvictionOrder_perm order).symm
    rw [← hsplit] at hperm
    have htotal : m.cacheBytes = (((m.inEvictionOrder order).take n).map Candidate.bytes).sum +
          (((m.inEvictionOrder order).drop n).map Candidate.bytes).sum := by
      rw [cacheBytes_eq, (hperm.map Candidate.bytes).sum_nat, List.map_append, List.sum_append]
    have hsorted := m.inEvictionOrder_sorted order
    rw [← hsplit] at hsorted
    refine ⟨hperm, hsorted, ?_, fun before candidate after hdead => ?_⟩
    · obtain hroom | hall := hroom
      · omega
      · rw [List.drop_eq_nil_of_le hall]
        exact Nat.zero_le _
    -- The candidates before this one do not make room.
    · have hlength := congrArg List.length hdead
      rw [List.length_take, List.length_append, List.length_cons] at hlength
      have hbefore : (m.inEvictionOrder order).take before.length = before := by
        have htake := congrArg (List.take before.length) hdead
        rwa [List.take_take, List.take_left', min_eq_left (by omega)] at htake
        rfl
      have hover := hleast before.length (by omega) (by omega)
      rw [hbefore, htotal, hdead, List.map_append, List.sum_append, List.map_cons,
        List.sum_cons] at hover
      omega
  · exact List.take_append_drop n _
  · rw [inEvictionOrder] at hevict ⊢
    rw [pruneCache, if_neg hfits]
    simp only [hevict]

/-- Whatever is in the manifest after pruning was there before. -/
theorem pruneCache_values_lookup {entry : PrivateValueEntry}
    (h : (m.pruneCache limit order now).1.values.lookup key = some entry) :
    m.values.lookup key = some entry := by
  obtain ⟨-, heq⟩ | ⟨dead, kept, -, -, heq⟩ := m.pruneCache_cases limit order now
  · rwa [heq] at h
  · rw [heq] at h
    have hkept := (m.removeAll_values_lookup dead key).symm.trans h
    split at hkept
    case isTrue => cases hkept
    case isFalse => exact hkept

theorem pruneCache_blobs_lookup {entry : PrivateBlobEntry}
    (h : (m.pruneCache limit order now).1.blobs.lookup blobId = some entry) :
    m.blobs.lookup blobId = some entry := by
  obtain ⟨-, heq⟩ | ⟨dead, kept, -, -, heq⟩ := m.pruneCache_cases limit order now
  · rwa [heq] at h
  · rw [heq] at h
    have hkept := (m.removeAll_blobs_lookup dead blobId).symm.trans h
    split at hkept
    case isTrue => cases hkept
    case isFalse => exact hkept

@[simp]
theorem pruneCache_version (m : PrivateAppManifest) (limit : Nat) (order : Order) (now : UInt64) :
    (m.pruneCache limit order now).1.version = m.version := by
  obtain ⟨-, heq⟩ | ⟨dead, kept, -, -, heq⟩ := m.pruneCache_cases limit order now
  · rw [heq]
  · rw [heq]
    exact m.removeAll_version dead

/-- A pruned cache fits. -/
theorem pruneCache_fits (m : PrivateAppManifest) (limit : Nat) (order : Order) (now : UInt64) :
    (m.pruneCache limit order now).1.cacheBytes ≤ limit := by
  obtain ⟨hfits, heq⟩ | ⟨dead, kept, hevicted, -, heq⟩ := m.pruneCache_cases limit order now
  · rwa [heq]
  · rw [heq]
    have hcandidates := candidates_removeAll hevicted.perm
    have hbytes : (m.removeAll dead).cacheBytes = (kept.map Candidate.bytes).sum := by
      rw [cacheBytes_eq, (hcandidates.map Candidate.bytes).sum_nat]
    exact hbytes.le.trans hevicted.room

end VeilKnit.PrivateStorage.PrivateAppManifest
