import Mathlib.Data.List.Nodup
import Mathlib.Data.List.Perm.Basic

/-!
# First matches

The first element of a list that satisfies a predicate, and the list with that element changed.
Where the predicate asks for a key and no key occurs twice, the order of the list does not
matter to what is found.
-/

namespace VeilKnit.Library

variable {α κ : Type} {p : α → Bool} {as bs : List α} {a : α}

/-- Changes the first element that satisfies a predicate. -/
def updateFirst (p : α → Bool) (f : α → α) : List α → List α
  | [] => []
  | a :: as => if p a then f a :: as else a :: updateFirst p f as

theorem updateFirst_of_find? (f : α → α) (h : as.find? p = some a) : ∃ before after,
    as = before ++ a :: after ∧ updateFirst p f as = before ++ f a :: after := by
  induction as with
  | nil => cases h
  | cons b as ih =>
    rw [List.find?_cons] at h
    cases hb : p b with
    | true =>
      rw [hb] at h
      cases h
      exact ⟨[], as, rfl, by rw [updateFirst, if_pos hb, List.nil_append]⟩
    | false =>
      rw [hb] at h
      obtain ⟨before, after, has, hupdated⟩ := ih h
      refine ⟨b :: before, after, by rw [has, List.cons_append], ?_⟩
      rw [updateFirst, if_neg (by simp [hb]), hupdated, List.cons_append]

variable {f : α → α}

theorem map_updateFirst {g : α → κ} (h : ∀ a, g (f a) = g a) :
    (updateFirst p f as).map g = as.map g := by
  induction as with
  | nil => rfl
  | cons a as ih =>
    rw [updateFirst]
    split
    case isTrue => rw [List.map_cons, List.map_cons, h]
    case isFalse => rw [List.map_cons, List.map_cons, ih]

/-- A changed list holds the changed element and old ones. -/
theorem mem_updateFirst (h : a ∈ updateFirst p f as) :
    a ∈ as ∨ ∃ b ∈ as, p b ∧ a = f b := by
  induction as with
  | nil => cases h
  | cons b as ih =>
    rw [updateFirst] at h
    split at h
    case isTrue hb =>
      rcases List.mem_cons.mp h with rfl | h
      · exact .inr ⟨b, List.mem_cons_self, hb, rfl⟩
      · exact .inl (List.mem_cons_of_mem _ h)
    case isFalse =>
      rcases List.mem_cons.mp h with rfl | h
      · exact .inl List.mem_cons_self
      · rcases ih h with h | ⟨c, hc, hp, rfl⟩
        · exact .inl (List.mem_cons_of_mem _ h)
        · exact .inr ⟨c, List.mem_cons_of_mem _ hc, hp, rfl⟩

/-! ## Elements found by their keys -/

variable [DecidableEq κ] {key : α → κ} {j k : κ}

theorem find?_key_updateFirst (h : ∀ a, key (f a) = key a) :
    (updateFirst (fun a => decide (key a = k)) f as).find? (fun a => decide (key a = j)) =
      if j = k then (as.find? fun a => decide (key a = k)).map f
      else as.find? fun a => decide (key a = j) := by
  induction as with
  | nil => simp [updateFirst]
  | cons a as ih =>
    by_cases hk : key a = k
    · by_cases hj : j = k
      · simp [updateFirst, hk, hj, h]
      · have hne : key a ≠ j := fun hsame => hj (hsame.symm.trans hk)
        rw [updateFirst, if_pos (by simpa using hk), if_neg hj,
          List.find?_cons_of_neg (by simpa using ((h a).trans_ne hne)),
          List.find?_cons_of_neg (by simpa using hne)]
    rw [updateFirst, if_neg (by simpa using hk), List.find?_cons, ih]
    by_cases hj : j = k
    · subst hj
      simp [hk]
    · simp only [if_neg hj]
      rw [List.find?_cons]

theorem find?_key_filter_ne :
    (as.filter fun a => decide (key a ≠ k)).find? (fun a => decide (key a = j)) =
      if j = k then none else as.find? fun a => decide (key a = j) := by
  induction as with
  | nil => simp
  | cons a as ih =>
    by_cases hk : key a = k
    · rw [List.filter_cons_of_neg (by simpa using hk), ih]
      by_cases hj : j = k
      · simp [hj]
      · have hne : key a ≠ j := fun hsame => hj (hsame.symm.trans hk)
        simp [hj, List.find?_cons_of_neg, hne]
    rw [List.filter_cons_of_pos (by simpa using hk), List.find?_cons, ih]
    by_cases hj : j = k
    · subst hj
      simp [hk]
    · simp only [if_neg hj]
      rw [List.find?_cons]

/-- Where no key occurs twice, what is found is what is there. -/
theorem find?_key_eq_some (h : (as.map key).Nodup) :
    as.find? (fun a => decide (key a = k)) = some a ↔ a ∈ as ∧ key a = k := by
  constructor
  · intro hfound
    exact ⟨List.mem_of_find?_eq_some hfound, by simpa using List.find?_some hfound⟩
  rintro ⟨ha, rfl⟩
  induction as with
  | nil => cases ha
  | cons b as ih =>
    obtain ⟨hb, hnodup⟩ := List.nodup_cons.mp h
    rcases List.mem_cons.mp ha with rfl | ha
    · simp
    · have hne : key b ≠ key a := fun hsame => hb (hsame ▸ List.mem_map_of_mem ha)
      rw [List.find?_cons_of_neg (by simpa using hne)]
      exact ih hnodup ha

theorem find?_key_eq_none : as.find? (fun a => decide (key a = k)) = none ↔ k ∉ as.map key := by
  rw [List.find?_eq_none, List.mem_map]
  constructor
  · rintro hnone ⟨a, ha, hk⟩
    exact hnone a ha (by simpa using hk)
  · intro hnone a ha hk
    exact hnone ⟨a, ha, by simpa using hk⟩

/-- Lists with the same elements find the same ones. -/
theorem find?_key_of_perm (h : as.Perm bs) (hnodup : (as.map key).Nodup) :
    as.find? (fun a => decide (key a = k)) = bs.find? (fun a => decide (key a = k)) := by
  ext a
  rw [find?_key_eq_some hnodup, find?_key_eq_some ((h.map key).nodup_iff.mp hnodup), h.mem_iff]

end VeilKnit.Library
