import VeilKnit.Library.AssociationList

/-!
# Stamps by key

For every key a list of stamps, the oldest first. A stamp is live or not, by a predicate that the
time of the look gives. A look drops the stamps at the front that are not live; a sweep does so for
all keys and drops the keys that have nothing left. Every key that a sweep leaves has a live stamp,
and the keys of a table are no more than the events they come from.
-/

namespace VeilKnit.Library

/-- Lists of stamps. -/
abbrev Stamps (κ τ : Type) := AList fun _ : κ => List τ

namespace Stamps

variable {κ τ : Type} {live : τ → Bool} {values : List τ} {t : τ}

/-- Drop the stamps at the front that are not live. -/
def trim (live : τ → Bool) (values : List τ) : List τ := values.dropWhile fun t => !live t

theorem mem_of_mem_trim (h : t ∈ trim live values) : t ∈ values :=
  (List.dropWhile_sublist _).subset h

/-- What is left begins with a live stamp. -/
theorem exists_trim_eq_cons (h : trim live values ≠ []) :
    ∃ first rest, trim live values = first :: rest ∧ live first := by
  have hfirst := List.head_dropWhile_not (fun t => !live t) h
  obtain ⟨first, rest, heq⟩ := List.exists_cons_of_ne_nil h
  refine ⟨first, rest, heq, ?_⟩
  unfold trim at heq
  simpa [heq] using hfirst

/-- A stamp that has been dropped was not live. -/
theorem mem_trim_or (h : t ∈ values) : t ∈ trim live values ∨ live t = false := by
  induction values with
  | nil => cases h
  | cons first rest ih =>
    rw [trim, List.dropWhile_cons]
    by_cases hlive : live first = true
    · rw [if_neg (by simpa using hlive)]
      exact .inl h
    · rw [if_pos (by simpa using hlive)]
      rcases List.mem_cons.mp h with rfl | h
      · exact .inr (by simpa using hlive)
      · exact ih h

variable [DecidableEq κ] {m : Stamps κ τ} {k j : κ}

/-- The stamps of a key. -/
def of (m : Stamps κ τ) (k : κ) : List τ := (m.lookup k).getD []

/-- Look at the stamps of a key. -/
def visit (live : τ → Bool) (m : Stamps κ τ) (k : κ) : Stamps κ τ :=
  m.insert k (trim live (of m k))

/-- Look at the stamps of a key and add one. -/
def record (live : τ → Bool) (m : Stamps κ τ) (k : κ) (t : τ) : Stamps κ τ :=
  m.insert k (trim live (of m k) ++ [t])

/-- Drop the keys without stamps. -/
def dropEmpty (m : Stamps κ τ) : Stamps κ τ := m.filterEntries fun _ values => !values.isEmpty

/-- Look at the stamps of all keys. -/
def trimAll (live : τ → Bool) (m : Stamps κ τ) : Stamps κ τ := m.mapEntries fun _ => trim live

def sweep (live : τ → Bool) (m : Stamps κ τ) : Stamps κ τ := dropEmpty (trimAll live m)

theorem of_insert (m : Stamps κ τ) (k j : κ) (values : List τ) :
    of (m.insert k values) j = if j = k then values else of m j := by
  unfold of
  split_ifs with h
  · rw [h, AList.lookup_insert, Option.getD_some]
  · rw [AList.lookup_insert_ne h]

theorem update_eq_of_insert {f : κ → List τ} (h : ∀ k, f k = of m k) (k : κ) (values : List τ)
    (j : κ) : Function.update f k values j = of (m.insert k values) j := by
  rw [of_insert, Function.update_apply, h]

theorem of_visit : of (visit live m k) j = if j = k then trim live (of m k) else of m j :=
  of_insert ..

theorem of_record :
    of (record live m k t) j = if j = k then trim live (of m k) ++ [t] else of m j :=
  of_insert ..

theorem mem_of_mem_of (h : t ∈ of m k) : k ∈ m := by
  unfold of at h
  cases hlookup : m.lookup k with
  | none =>
    rw [hlookup] at h
    cases h
  | some values => exact AList.lookup_isSome.mp (by rw [hlookup]; rfl)

theorem of_sweep : of (sweep live m) k = trim live (of m k) := by
  unfold of
  cases hlookup : (sweep live m).lookup k with
  | some values =>
    obtain ⟨-, hvalues⟩ := AList.lookup_filterEntries_eq_some.mp hlookup
    rw [trimAll, AList.lookup_mapEntries] at hvalues
    cases hm : m.lookup k with
    | none =>
      rw [hm] at hvalues
      cases hvalues
    | some before =>
      rw [hm] at hvalues
      exact (Option.some.inj hvalues).symm
  | none =>
    cases hm : m.lookup k with
    | none => rfl
    | some before =>
      by_contra hne
      have hkept : (sweep live m).lookup k = some (trim live before) := by
        refine AList.lookup_filterEntries_eq_some.mpr ⟨?_, ?_⟩
        · rw [Option.getD_some, Option.getD_none] at hne
          simpa using fun hnil => hne hnil.symm
        · rw [trimAll, AList.lookup_mapEntries, hm, Option.map_some]
      rw [hlookup] at hkept
      cases hkept

/-- A key that a sweep leaves has a live stamp. -/
theorem exists_live_of_mem_sweep (h : k ∈ sweep live m) : ∃ t ∈ of (sweep live m) k, live t := by
  obtain ⟨values, hvalues⟩ := Option.isSome_iff_exists.mp (AList.lookup_isSome.mpr h)
  obtain ⟨hsome, -⟩ := AList.lookup_filterEntries_eq_some.mp hvalues
  have hleft : of (sweep live m) k = values := by rw [of, hvalues, Option.getD_some]
  have hne : trim live (of m k) ≠ [] := by
    rw [← of_sweep, hleft]
    simpa using hsome
  obtain ⟨first, rest, heq, hlive⟩ := exists_trim_eq_cons hne
  exact ⟨first, by rw [of_sweep, heq]; exact List.mem_cons_self, hlive⟩

end Stamps

/-- There are no more keys than there are events that they come from. -/
theorem length_le_of_events {κ ε : Type} {keys : List κ} {events : List ε} {key : ε → κ}
    (hnodup : keys.Nodup) (h : ∀ k ∈ keys, ∃ e ∈ events, key e = k) :
    keys.length ≤ events.length := by
  have hsubset : keys ⊆ events.map key := by
    intro k hk
    obtain ⟨e, he, rfl⟩ := h k hk
    exact List.mem_map_of_mem he
  simpa using (hnodup.subperm hsubset).length_le

end VeilKnit.Library
