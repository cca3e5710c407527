import Mathlib.Algebra.GroupWithZero.Nat
import Mathlib.Data.List.AList
import Mathlib.Data.List.Perm.Subperm

/-!
# Association lists

Maps and restrictions of association lists, by what looking up a key gives.
-/

namespace AList

variable {α : Type*} {β : Type*} [DecidableEq α]

/-- Apply a function to every value and its key. -/
def mapEntries (f : α → β → β) (l : AList fun _ : α => β) : AList fun _ : α => β where
  entries := l.entries.map (Sigma.map id f)
  nodupKeys := l.nodupKeys.map₂ f l.entries

@[simp]
theorem lookup_mapEntries (f : α → β → β) (l : AList fun _ : α => β) (a : α) :
    (l.mapEntries f).lookup a = (l.lookup a).map (f a) :=
  List.dlookup_map₂ a

omit [DecidableEq α] in
@[simp]
theorem keys_mapEntries (f : α → β → β) (l : AList fun _ : α => β) :
    (l.mapEntries f).keys = l.keys :=
  List.map₂_keys f l.entries

/-- Keep the entries whose keys satisfy a predicate. -/
def retain (p : α → Prop) [DecidablePred p] (l : AList fun _ : α => β) :
    AList fun _ : α => β where
  entries := l.entries.filter fun e => p e.1
  nodupKeys := l.nodupKeys.sublist List.filter_sublist

private theorem dlookup_filter (p : α → Prop) [DecidablePred p] (a : α)
    (entries : List (Σ _ : α, β)) :
    List.dlookup a (entries.filter fun e => p e.1) =
      if p a then List.dlookup a entries else none := by
  induction entries with
  | nil => simp
  | cons e entries ih =>
    obtain ⟨k, v⟩ := e
    by_cases hk : a = k
    · subst hk
      by_cases hp : p a
      · simp [hp]
      · simp [hp, ih]
    · by_cases hp : p k
      · rw [List.filter_cons_of_pos (by simpa using hp), List.dlookup_cons_ne _ _ hk, ih,
          List.dlookup_cons_ne _ _ hk]
      · rw [List.filter_cons_of_neg (by simpa using hp), ih, List.dlookup_cons_ne _ _ hk]

theorem lookup_retain (p : α → Prop) [DecidablePred p] (l : AList fun _ : α => β) (a : α) :
    (l.retain p).lookup a = if p a then l.lookup a else none :=
  dlookup_filter p a l.entries

variable {l : AList fun _ : α => β} {a k : α} {b c : β}

theorem lookup_retain_eq_some {p : α → Prop} [DecidablePred p] :
    (l.retain p).lookup a = some b ↔ p a ∧ l.lookup a = some b := by
  rw [lookup_retain]
  by_cases hp : p a
  · simp [hp]
  · simp [hp]

theorem of_lookup_insert (h : (l.insert a b).lookup k = some c) :
    (k = a ∧ b = c) ∨ (k ≠ a ∧ l.lookup k = some c) := by
  by_cases hk : k = a
  · subst hk
    exact .inl ⟨rfl, Option.some.inj ((lookup_insert _).symm.trans h)⟩
  · exact .inr ⟨hk, (lookup_insert_ne hk).symm.trans h⟩

/-- What holds of a new entry and of the others holds of all. -/
theorem forall_lookup_insert {P : α → β → Prop} (hnew : P a b)
    (hothers : ∀ k c, l.lookup k = some c → P k c) (k : α) (c : β)
    (h : (l.insert a b).lookup k = some c) : P k c := by
  obtain ⟨rfl, rfl⟩ | ⟨-, hother⟩ := of_lookup_insert h
  · exact hnew
  · exact hothers k c hother

theorem of_lookup_erase (h : (l.erase a).lookup k = some c) : k ≠ a ∧ l.lookup k = some c := by
  have hk : k ≠ a := by
    rintro rfl
    cases (lookup_erase _ _).symm.trans h
  exact ⟨hk, (lookup_erase_ne hk).symm.trans h⟩

variable {f : α → Option β}

/-- A function that says what a list has says so after an update of both. -/
theorem update_eq_lookup_insert (h : ∀ a, f a = l.lookup a) (a : α) (b : β)
    (a' : α) : Function.update f a (some b) a' = (l.insert a b).lookup a' := by
  by_cases ha : a' = a
  · rw [ha, lookup_insert, Function.update_self]
  · rw [lookup_insert_ne ha, Function.update_of_ne ha, h]

theorem update_eq_lookup_erase (h : ∀ a, f a = l.lookup a) (a a' : α) :
    Function.update f a none a' = (l.erase a).lookup a' := by
  by_cases ha : a' = a
  · rw [ha, lookup_erase, Function.update_self]
  · rw [lookup_erase_ne ha, Function.update_of_ne ha, h]

/-- Keep the entries that satisfy a predicate. -/
def filterEntries (p : α → β → Bool) (l : AList fun _ : α => β) : AList fun _ : α => β where
  entries := l.entries.filter fun e => p e.1 e.2
  nodupKeys := l.nodupKeys.sublist List.filter_sublist

theorem lookup_filterEntries_eq_some {p : α → β → Bool} :
    (l.filterEntries p).lookup a = some b ↔ p a b ∧ l.lookup a = some b := by
  rw [← Option.mem_def, ← Option.mem_def, mem_lookup_iff, mem_lookup_iff]
  simp [filterEntries, and_comm]

theorem filter_eq_lookup_filterEntries (h : ∀ a, f a = l.lookup a)
    (p : β → Bool) (a : α) : (f a).filter p = (l.filterEntries fun _ => p).lookup a := by
  refine Option.ext fun b => ?_
  rw [lookup_filterEntries_eq_some, h, Option.filter_eq_some_iff, and_comm]

omit [DecidableEq α] in
theorem length_filterEntries_le (p : α → β → Bool) (l : AList fun _ : α => β) :
    (l.filterEntries p).entries.length ≤ l.entries.length :=
  List.length_filter_le _ _

omit [DecidableEq α] in
theorem filterEntries_eq_self {p : α → β → Bool}
    (h : ∀ e ∈ l.entries, p e.1 e.2) : l.filterEntries p = l :=
  ext (List.filter_eq_self.mpr h)

/-- What is taken out again leaves nothing behind. -/
theorem retain_insert {p : α → Prop} [DecidablePred p] (b : β)
    (hnone : l.lookup a = none) (ha : ¬ p a) (hothers : ∀ a' ∈ l, p a') :
    (l.insert a b).retain p = l := by
  have hretained : ((l.insert a b).retain p).entries =
      (l.insert a b).entries.filter fun e => p e.1 := rfl
  refine ext ?_
  rw [hretained, entries_insert_of_notMem (lookup_eq_none.mp hnone),
    List.filter_cons_of_neg (by simpa using ha)]
  exact List.filter_eq_self.mpr fun e he =>
    decide_eq_true (hothers e.1 (List.mem_map_of_mem he))

/-! ## Counting values -/

/-- The number of keys whose value satisfies a predicate. -/
def count (p : β → Bool) (l : AList fun _ : α => β) : Nat :=
  l.entries.countP fun e => p e.2

private def keysWith (p : β → Bool) (l : AList fun _ : α => β) : List α :=
  (l.entries.filter fun e => p e.2).map Sigma.fst

omit [DecidableEq α] in
private theorem length_keysWith (p : β → Bool) (l : AList fun _ : α => β) :
    (l.keysWith p).length = l.count p := by
  rw [keysWith, List.length_map, count, List.countP_eq_length_filter]

omit [DecidableEq α] in
private theorem nodup_keysWith (p : β → Bool) (l : AList fun _ : α => β) : (l.keysWith p).Nodup :=
  l.nodupKeys.sublist (List.filter_sublist (l := l.entries))

private theorem mem_keysWith {p : β → Bool} :
    a ∈ l.keysWith p ↔ ∃ b, l.lookup a = some b ∧ p b := by
  simp only [keysWith, List.mem_map, List.mem_filter]
  constructor
  · rintro ⟨⟨k, b⟩, ⟨hmem, hp⟩, rfl⟩
    exact ⟨b, mem_lookup_iff.mpr hmem, hp⟩
  · rintro ⟨b, hlookup, hp⟩
    exact ⟨⟨a, b⟩, ⟨mem_lookup_iff.mp hlookup, hp⟩, rfl⟩

/-- A list counts no more than another if the other has what it counts under the same keys. -/
theorem count_le_count {γ : Type*} {p : β → Bool} {q : γ → Bool} {m : AList fun _ : α => γ}
    (h : ∀ a b, l.lookup a = some b → p b → ∃ c, m.lookup a = some c ∧ q c) :
    l.count p ≤ m.count q := by
  rw [← length_keysWith, ← length_keysWith]
  apply List.Subperm.length_le
  apply List.subperm_of_subset (nodup_keysWith p l)
  intro a ha
  obtain ⟨b, hlookup, hp⟩ := mem_keysWith.mp ha
  exact mem_keysWith.mpr (h a b hlookup hp)

theorem count_insert_le (p : β → Bool) (l : AList fun _ : α => β) (a : α) (b : β) :
    (l.insert a b).count p ≤ l.count p + 1 := by
  have hle : (List.countP (fun e => p e.2) (List.kerase a l.entries)) ≤ l.count p :=
    (List.kerase_sublist a l.entries).countP_le
  rw [count, entries_insert, List.countP_cons]
  split
  · omega
  · omega

/-- Inserting what is not counted adds nothing. -/
theorem count_insert_of_not (p : β → Bool) (l : AList fun _ : α => β) (a : α)
    (hb : p b = false) : (l.insert a b).count p ≤ l.count p := by
  have hle : (List.countP (fun e => p e.2) (List.kerase a l.entries)) ≤ l.count p :=
    (List.kerase_sublist a l.entries).countP_le
  rw [count, entries_insert, List.countP_cons]
  simpa [hb] using hle

/-- Inserting what is counted, where nothing counted stood before, adds one. -/
theorem count_insert_of_new (p : β → Bool) (l : AList fun _ : α => β) (a : α)
    (hb : p b = true) (hnew : ∀ c, l.lookup a = some c → p c = false) :
    (l.insert a b).count p = l.count p + 1 := by
  have hkept : (l.erase a).count p = l.count p := by
    apply le_antisymm
    · exact (List.kerase_sublist a l.entries).countP_le
    apply count_le_count
    intro a' c hc hpc
    have hne : a' ≠ a := by
      rintro rfl
      rw [hnew c hc] at hpc
      cases hpc
    exact ⟨c, (lookup_erase_ne hne).trans hc, hpc⟩
  rw [← hkept, count, count, entries_insert, List.countP_cons, if_pos hb]
  rfl

omit [DecidableEq α] in
theorem count_add_count_not (p : β → Bool) (l : AList fun _ : α => β) :
    l.count p + l.count (fun b => !p b) = l.entries.length := by
  rw [count, count, List.length_eq_countP_add_countP fun e => p e.2]
  simp only [Bool.not_eq_true, Bool.decide_eq_false]

/-! ## Summing over values -/

/-- The sum of a measure of the values. -/
def total (f : β → Nat) (l : AList fun _ : α => β) : Nat := (l.entries.map fun e => f e.2).sum

theorem perm_entries_of_lookup
    (h : l.lookup a = some b) : l.entries.Perm (⟨a, b⟩ :: (l.erase a).entries) := by
  have hkey : a ∈ l.entries.keys := lookup_isSome.mp (Option.isSome_of_eq_some h)
  obtain ⟨c, before, after, hbefore, hentries, herase⟩ := List.exists_of_kerase hkey
  have hc : l.lookup a = some c := by
    rw [AList.lookup, hentries, List.dlookup_append, List.dlookup_eq_none.mpr hbefore,
      List.dlookup_cons_eq, Option.none_or]
  cases hc.symm.trans h
  have herased : (l.erase a).entries = before ++ after := herase
  rw [herased, hentries]
  exact List.perm_middle

theorem total_erase (f : β → Nat)
    (h : l.lookup a = some b) : total f l = f b + total f (l.erase a) := by
  rw [total, ((perm_entries_of_lookup h).map _).sum_nat]
  simp [total]

theorem total_insert (f : β → Nat) (l : AList fun _ : α => β) (a : α) (b : β) :
    total f (l.insert a b) = f b + total f (l.erase a) := by
  rw [total, entries_insert, List.map_cons, List.sum_cons]
  rfl

/-- Replacing a value changes the sum by what the values differ. -/
theorem total_insert_of_lookup (f : β → Nat)
    (h : l.lookup a = some b) (b' : β) : total f (l.insert a b') + f b = total f l + f b' := by
  rw [total_insert, total_erase f h]
  omega

omit [DecidableEq α] in
private theorem sum_filter_le (f : β → Nat) (p : α → β → Bool) (entries : List (Σ _ : α, β)) :
    ((entries.filter fun e => p e.1 e.2).map fun e => f e.2).sum ≤
      (entries.map fun e => f e.2).sum := by
  induction entries with
  | nil => exact Nat.le_refl _
  | cons e entries ih =>
    rw [List.filter_cons, List.map_cons, List.sum_cons]
    split
    case isTrue =>
      rw [List.map_cons, List.sum_cons]
      exact Nat.add_le_add_left ih _
    case isFalse => exact Nat.le_trans ih (Nat.le_add_left _ _)

omit [DecidableEq α] in
theorem total_filterEntries_le (f : β → Nat) (p : α → β → Bool) (l : AList fun _ : α => β) :
    total f (l.filterEntries p) ≤ total f l :=
  sum_filter_le f p l.entries

theorem erase_of_lookup (h : l.lookup a = none) : l.erase a = l :=
  ext (List.kerase_of_notMem_keys (lookup_eq_none.mp h))

theorem total_erase_le (f : β → Nat) (l : AList fun _ : α => β) (a : α) :
    total f (l.erase a) ≤ total f l := by
  cases h : l.lookup a with
  | none => rw [erase_of_lookup h]
  | some b =>
    rw [total_erase f h]
    exact Nat.le_add_left _ _

theorem length_erase (h : l.lookup a = some b) :
    l.entries.length = (l.erase a).entries.length + 1 :=
  (perm_entries_of_lookup h).length_eq

theorem length_insert_le (l : AList fun _ : α => β) (a : α) (b : β) :
    (l.insert a b).entries.length ≤ l.entries.length + 1 := by
  rw [entries_insert, List.length_cons]
  exact Nat.succ_le_succ (List.kerase_sublist a l.entries).length_le

end AList
