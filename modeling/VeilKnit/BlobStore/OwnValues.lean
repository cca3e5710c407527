import VeilKnit.BlobStore.StoredChunks

/-!
# The values of an application's own stores

The service marks a subkey as null when the DHT returns the placeholder. The DHT never does:
it takes the placeholder for a subkey that is not there. So a new subkey reads as an error, and
so does every value that the DHT stores as the placeholder.
-/

namespace VeilKnit.BlobStore

open Library

def maxAppStoreWritesPerRequest : Nat := 128

def maxAppStoreWriteBytesPerRequest : Nat := 512 * 1024

inductive StoreWriteError
  | tooManyWrites
  | writeRequestTooLarge (size : Nat)
  | valueTooLarge (size : Nat)
  | generationConflict (expected actual : UInt64)
  | invalidSubkey (location : UInt32)

structure StoredAppStore where
  record : DhtRecord
  subkeyCount : UInt16
  generation : UInt64

abbrev StoreWrite := UInt32 × Bytes

def DhtRecord.writeAll (record : DhtRecord) (writes : List StoreWrite) : DhtRecord :=
  writes.foldl (fun record write => record.write write.1 write.2) record

namespace StoredAppStore

/-- A new store. Its subkeys are initialised in any order. -/
def createStore (subkeyCount : UInt16) (locations : List UInt32) : StoredAppStore where
  record := DhtRecord.writeAll (fun _ => none) (locations.map (·, nullDhtValue))
  subkeyCount := subkeyCount
  generation := 0

/-- Write subkeys. The writes reach the DHT in the order of `arrival`. -/
def writeOwn (store : StoredAppStore) (expectedGeneration : Option UInt64)
    (writes arrival : List StoreWrite) : Except StoreWriteError StoredAppStore :=
  if writes = [] ∨ maxAppStoreWritesPerRequest < writes.length then .error .tooManyWrites
  else if maxAppStoreWriteBytesPerRequest < (writes.map (·.2.length)).sum then
    .error (.writeRequestTooLarge (writes.map (·.2.length)).sum)
  else match writes.find? (maxAppStoreValueBytes < ·.2.length),
      expectedGeneration.filter (· ≠ store.generation),
      writes.find? (store.subkeyCount.toUInt32 ≤ ·.1) with
    | some write, _, _ => .error (.valueTooLarge write.2.length)
    | none, some expected, _ => .error (.generationConflict expected store.generation)
    | none, none, some write => .error (.invalidSubkey write.1)
    | none, none, none =>
      .ok { store with
        record := store.record.writeAll arrival
        generation := max store.generation (store.generation + 1) }

def readOwn (store : StoredAppStore) (locations : List UInt32) :
    Except AppServiceError (List AppStoreReadValue) :=
  if maxAppStoreReadsPerRequest < locations.length then .error .tooManyReads
  else match locations.find? (store.subkeyCount.toUInt32 ≤ ·) with
    | some location => .error (.invalidSubkey location)
    | none => .ok (AppStorage.readValues store.record store.subkeyCount.toUInt32 locations)

/-- The subkey reads without an error, as the value or as null. -/
def Returns (store : StoredAppStore) (location : UInt32) (value : Option Bytes) : Prop :=
  store.readOwn [location] = .ok [{ location, value, isNull := value.isNone, error := none }]

/-- A store in which the subkey has been initialised and never set. -/
inductive Unset (location : UInt32) : StoredAppStore → Prop
  | created {subkeyCount : UInt16} {locations : List UInt32} (h : location ∈ locations) :
    Unset location (createStore subkeyCount locations)
  | written {store after : StoredAppStore} {expected : Option UInt64}
    {writes arrival : List StoreWrite} (h : Unset location store) (hperm : arrival.Perm writes)
    (hother : ∀ write ∈ writes, write.1 ≠ location)
    (hwrite : store.writeOwn expected writes arrival = .ok after) : Unset location after

end StoredAppStore

/-- The last write to a subkey stays. -/
theorem DhtRecord.writeAll_apply (record : DhtRecord) (writes : List StoreWrite)
    (location : UInt32) : record.writeAll writes location =
      ((writes.filter (·.1 = location)).getLast?.elim (record location)
        fun write => some (normalizeWriteBytes write.2)) := by
  induction writes using List.reverseRecOn with
  | nil => rfl
  | append_singleton writes write ih =>
    rw [writeAll, List.foldl_concat, ← writeAll, DhtRecord.write, Function.update_apply,
      List.filter_append]
    by_cases h : write.1 = location
    · simp [h]
    · rw [if_neg (Ne.symm h), ih]
      simp [h]

namespace StoredAppStore

variable {store after : StoredAppStore} {expected : Option UInt64}
  {writes arrival : List StoreWrite} {location : UInt32} {value : Bytes}

theorem writeOwn_ok (h : store.writeOwn expected writes arrival = .ok after) :
    (∀ write ∈ writes, write.1 < store.subkeyCount.toUInt32) ∧
      after.record = store.record.writeAll arrival ∧ after.subkeyCount = store.subkeyCount := by
  unfold writeOwn at h
  split_ifs at h
  split at h
  · cases h
  · cases h
  · cases h
  · rename_i hvalid
    cases h
    refine ⟨fun write hwrite => ?_, rfl, rfl⟩
    have hfit := List.find?_eq_none.mp hvalid write hwrite
    exact UInt32.not_le.mp (by simpa using hfit)

/-- What one subkey reads as. -/
theorem readOwn_single (hlocation : location < store.subkeyCount.toUInt32) :
    store.readOwn [location] = .ok [appStoreReadValue location
      (store.record.read store.subkeyCount.toUInt32 location)] := by
  have hvalid : [location].find? (store.subkeyCount.toUInt32 ≤ ·) = none := by
    simpa using hlocation
  rw [readOwn, if_neg (by simp [maxAppStoreReadsPerRequest]), hvalid]
  simp only [AppStorage.readValues]
  rw [deduplicateLocations_of_sorted (List.pairwise_singleton _ _)]
  rfl

/-- A value that has been written reads back if the DHT stores it as it is. -/
theorem returns_some_iff (hlocation : location < store.subkeyCount.toUInt32)
    (hstored : store.record location = some (normalizeWriteBytes value)) :
    store.Returns location (some value) ↔ value ≠ [] ∧ ¬ ReadsAsNull value := by
  rw [Returns, readOwn_single hlocation, DhtRecord.read, if_neg (UInt32.not_le.mpr hlocation),
    hstored]
  by_cases hplain : value ≠ [] ∧ ¬ ReadsAsNull value
  · have hvalue : value ≠ nullDhtValue := fun h => hplain.2 (Or.inl h)
    simp [hplain, normalizeWriteBytes_of_not_null, normalizeDhtBytes, hvalue, appStoreReadValue]
  · have hnull : normalizeWriteBytes value = nullDhtValue := by
      by_cases hempty : value = []
      · rw [hempty, normalizeWriteBytes, if_pos rfl]
      · exact normalizeWriteBytes_of_null (not_not.mp fun h => hplain ⟨hempty, h⟩)
    simp [hnull, hplain, normalizeDhtBytes, appStoreReadValue]

theorem Unset.record_eq (h : Unset location store) : store.record location = some nullDhtValue := by
  induction h with
  | @created _ locations h =>
    refine (DhtRecord.writeAll_apply _ _ _).trans ?_
    cases hlast : ((locations.map (·, nullDhtValue)).filter (·.1 = location)).getLast? with
    | none =>
      have hnone := List.filter_eq_nil_iff.mp (List.getLast?_eq_none_iff.mp hlast)
      exact absurd (hnone _ (List.mem_map_of_mem h)) (by simp)
    | some write =>
      have hmem := List.mem_of_mem_filter (List.mem_of_getLast? hlast)
      obtain ⟨_, -, rfl⟩ := List.mem_map.mp hmem
      exact congrArg some (normalizeWriteBytes_of_null (Or.inl rfl))
  | written h hperm hother hwrite ih =>
    rw [(writeOwn_ok hwrite).2.1, DhtRecord.writeAll_apply, List.filter_eq_nil_iff.mpr, ih]
    · rfl
    · intro write hmem
      simpa using hother write (hperm.mem_iff.mp hmem)

theorem Unset.not_returns (h : Unset location store) : ¬ store.Returns location none := by
  intro hreads
  by_cases hlocation : location < store.subkeyCount.toUInt32
  · rw [Returns, readOwn_single hlocation, DhtRecord.read,
      if_neg (UInt32.not_le.mpr hlocation), h.record_eq] at hreads
    exact absurd hreads (by simp [normalizeDhtBytes, appStoreReadValue])
  · have hinvalid : [location].find? (store.subkeyCount.toUInt32 ≤ ·) = some location := by
      simpa using hlocation
    rw [Returns, readOwn, hinvalid] at hreads
    split_ifs at hreads

/-- A value reads back if and only if it is not empty and does not read as null. A subkey that
has only been initialised never reads as null. -/
theorem writeOwn_readOwn_iff (location : UInt32) :
    (∀ (store after : StoredAppStore) (expected : Option UInt64)
      (writes arrival : List StoreWrite) (value : Bytes),
        arrival.Perm writes → store.writeOwn expected writes arrival = .ok after →
      writes.filter (·.1 = location) = [(location, value)] →
      (after.Returns location (some value) ↔ value ≠ [] ∧ ¬ ReadsAsNull value)) ∧
      ∀ store : StoredAppStore, Unset location store → ¬ store.Returns location none := by
  refine ⟨fun store after expected writes arrival value hperm hwrite honce => ?_,
    fun _ => Unset.not_returns⟩
  obtain ⟨hvalid, hrecord, hcount⟩ := writeOwn_ok hwrite
  have hmem : (location, value) ∈ writes := List.mem_of_mem_filter
    (honce ▸ List.mem_singleton_self (location, value))
  have harrived : arrival.filter (·.1 = location) = [(location, value)] :=
    List.perm_singleton.mp (honce ▸ hperm.filter _)
  refine returns_some_iff (hcount ▸ hvalid _ hmem) ?_
  rw [hrecord, DhtRecord.writeAll_apply, harrived]
  rfl

/-- The byte of the placeholder is lost, and a new subkey is not null. -/
theorem writeOwn_readOwn_sample :
    (∃ after, (createStore 1 [0]).writeOwn none [(0, [48])] [(0, [48])] = .ok after ∧
      ¬ after.Returns 0 (some [48])) ∧ ¬ (createStore 1 [0]).Returns 0 none :=
  ⟨⟨_, rfl, fun h => ((returns_some_iff (by decide) rfl).mp h).2 (Or.inl rfl)⟩,
    (Unset.created (List.mem_singleton_self 0)).not_returns⟩

theorem writeOwn_readOwn_one :
    (∃ after, (createStore 1 [0]).writeOwn none [(0, [1])] [(0, [1])] = .ok after ∧
      after.Returns 0 (some [1])) ∧ ¬ (createStore 1 [0]).Returns 0 none := by
  have hunset : Unset 0 (createStore 1 [0]) := .created (List.mem_singleton_self 0)
  refine ⟨⟨_, rfl, ?_⟩, (writeOwn_readOwn_iff 0).2 _ hunset⟩
  exact ((writeOwn_readOwn_iff 0).1 (createStore 1 [0]) _ none [(0, [1])] _ [1]
    (List.Perm.refl _) rfl rfl).mpr (by decide)

end StoredAppStore

end VeilKnit.BlobStore
