import Mathlib.Data.Multiset.Bind

/-!
# Tables of counters

A table of fixed-width counters tallies a multiset of keys when every counter is the
multiplicity of its key. The lemmas follow the edits of such a table: one key more, one
key less, a new key with all of its occurrences, and a key given up.
-/

namespace VeilKnit.Library

variable {K : Type*} [DecidableEq K]

/-- Every counter of the table is the number of times that its key occurs. -/
def Tallies (table : K → UInt32) (keys : Multiset K) : Prop :=
  ∀ k, (table k).toNat = keys.count k

variable {table table' : K → UInt32} {keys keys' : Multiset K} {k : K} {value : UInt32} {n : Nat}

theorem tallies_zero : Tallies (fun _ => 0) (0 : Multiset K) := by
  intro k
  simp

/-- A multiset has one table. -/
theorem Tallies.unique (h : Tallies table keys) (h' : Tallies table' keys) : table = table' := by
  funext k
  apply UInt32.toNat.inj
  rw [h k, h' k]

/-- Changing the counter of one key. -/
theorem Tallies.update (h : Tallies table keys) (hvalue : value.toNat = keys'.count k)
    (hother : ∀ k' ≠ k, keys'.count k' = keys.count k') :
    Tallies (Function.update table k value) keys' := by
  intro k'
  by_cases hk : k' = k
  · subst hk
    rw [Function.update_self, hvalue]
  · rw [Function.update_of_ne hk, h k', hother k' hk]

theorem Tallies.cons (h : Tallies table keys) (hvalue : value.toNat = (table k).toNat + 1) :
    Tallies (Function.update table k value) (k ::ₘ keys) := by
  apply h.update
  · rw [hvalue, h k, Multiset.count_cons_self]
  · intro k' hk
    exact Multiset.count_cons_of_ne hk _

theorem Tallies.uncons (h : Tallies table (k ::ₘ keys))
    (hvalue : value.toNat = (table k).toNat - 1) : Tallies (Function.update table k value) keys := by
  apply h.update
  · rw [hvalue, h k, Multiset.count_cons_self, Nat.add_sub_cancel]
  · intro k' hk
    exact (Multiset.count_cons_of_ne hk _).symm

/-- A key that does not occur yet, with all of its occurrences at once. -/
theorem Tallies.replicate (h : Tallies table keys) (habsent : k ∉ keys) (hvalue : value.toNat = n) :
    Tallies (Function.update table k value) (Multiset.replicate n k + keys) := by
  apply h.update
  · rw [hvalue, Multiset.count_add, Multiset.count_replicate_self,
      Multiset.count_eq_zero_of_notMem habsent, Nat.add_zero]
  · intro k' hk
    rw [Multiset.count_add, Multiset.count_replicate, if_neg (Ne.symm hk), Nat.zero_add]

/-- A key given up. -/
theorem Tallies.drop (h : Tallies table (Multiset.replicate n k + keys)) (habsent : k ∉ keys) :
    Tallies (Function.update table k 0) keys := by
  apply h.update
  · rw [Multiset.count_eq_zero_of_notMem habsent]
    rfl
  · intro k' hk
    rw [Multiset.count_add, Multiset.count_replicate, if_neg (Ne.symm hk), Nat.zero_add]

end VeilKnit.Library
