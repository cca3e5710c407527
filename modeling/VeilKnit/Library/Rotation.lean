import Mathlib.Algebra.GroupWithZero.Nat
import Mathlib.Algebra.Order.BigOperators.Group.List
import Mathlib.Algebra.Order.Group.Nat
import Mathlib.Data.List.Sort

/-!
# Rotation

In each round a list is put in order, its first elements are served and changed so that they come
later in the order, and the others wait. An element is served within a bounded number of rounds if
whatever is served before it loses rank each time. The bound is the rank of the list, so that the
rounds need not all be alike.
-/

namespace VeilKnit.Library.Rotation

variable {α τ : Type*} (r : α → α → Prop) [DecidableRel r] (touch : τ → α → α)

def served (q : Nat) (l : List α) : List α := (l.insertionSort r).take q

def waiting (q : Nat) (l : List α) : List α := (l.insertionSort r).drop q

/-- The list after a round. -/
def round (q : Nat) (t : τ) (l : List α) : List α :=
  (served r q l).map (touch t) ++ waiting r q l

/-- What is served in some rounds after each other. -/
def history (q : Nat) : List τ → List α → List (List α)
  | [], _ => []
  | t :: ts, l => served r q l :: history q ts (round r touch q t l)

def rank (weight : α → Nat) (l : List α) : Nat := (l.map weight).sum

variable {r touch} {q : Nat} {l : List α} {x : α}

theorem perm_served_waiting : (served r q l ++ waiting r q l).Perm l := by
  rw [served, waiting, List.take_append_drop]
  exact List.perm_insertionSort r l

theorem length_round (t : τ) : (round r touch q t l).length = l.length := by
  rw [round, List.length_append, List.length_map, ← List.length_append]
  exact perm_served_waiting.length_eq

/-- What the change leaves as it is, a round leaves, up to the order. -/
theorem map_round_perm {β : Type*} {f : α → β} {t : τ} (hf : ∀ a, f (touch t a) = f a) :
    ((round r touch q t l).map f).Perm (l.map f) := by
  have hserved : ((served r q l).map (touch t)).map f = (served r q l).map f := by
    rw [List.map_map]
    exact List.map_congr_left fun a _ => hf a
  rw [round, List.map_append, hserved, ← List.map_append]
  exact perm_served_waiting.map f

theorem mem_served_or_waiting (h : x ∈ l) : x ∈ served r q l ∨ x ∈ waiting r q l :=
  List.mem_append.mp (perm_served_waiting.mem_iff.mpr h)

/-- What is served comes before what waits. -/
theorem served_before [Std.Total r] [IsTrans α r] {y : α} (hy : y ∈ served r q l)
    (hx : x ∈ waiting r q l) : r y x := by
  have hsorted := List.pairwise_insertionSort r l
  rw [← List.take_append_drop q (l.insertionSort r)] at hsorted
  exact (List.pairwise_append.mp hsorted).2.2 y hy x hx

variable {weight : α → Nat}

theorem rank_perm {l l' : List α} (h : l.Perm l') :
    rank weight l = rank weight l' := (h.map weight).sum_eq

theorem rank_le {bound : Nat} (h : ∀ y ∈ l, weight y ≤ bound) :
    rank weight l ≤ l.length * bound := by
  have hsum := List.sum_le_card_nsmul (l.map weight) bound (by simpa using h)
  simpa [rank] using hsum

/-- A round in which all that is served loses weight lowers the rank. -/
theorem rank_round {t : τ} (hserved : served r q l ≠ [])
    (h : ∀ y ∈ served r q l, weight (touch t y) < weight y) :
    rank weight (round r touch q t l) < rank weight l := by
  have hlower : ((served r q l).map fun y => weight (touch t y)).sum <
      ((served r q l).map weight).sum := by
    obtain ⟨y, hy⟩ := List.exists_mem_of_ne_nil _ hserved
    exact List.sum_lt_sum _ _ (fun z hz => (h z hz).le) ⟨y, hy, h y hy⟩
  rw [← rank_perm (perm_served_waiting (r := r) (q := q) (l := l))]
  simp only [rank, round, List.map_append, List.sum_append, List.map_map]
  exact Nat.add_lt_add_right hlower _

/-- An element is served within as many rounds as the list has rank. -/
theorem served_within [Std.Total r] [IsTrans α r] {ts : List τ} (hq : 0 < q)
    (hx : x ∈ l) (h : ∀ t ∈ ts, ∀ y, r y x → weight (touch t y) < weight y)
    (hlong : rank weight l < ts.length) : ∃ s ∈ history r touch q ts l, x ∈ s := by
  induction ts generalizing l with
  | nil => exact absurd hlong (Nat.not_lt_zero _)
  | cons t ts ih =>
    rcases mem_served_or_waiting (r := r) (q := q) hx with hserved | hwaiting
    · exact ⟨_, List.mem_cons_self, hserved⟩
    -- what is served instead of it comes before it
    have hlower : ∀ y ∈ served r q l, weight (touch t y) < weight y := fun y hy =>
      h t List.mem_cons_self y (served_before hy hwaiting)
    have hsome : served r q l ≠ [] := by
      intro hnil
      have hempty : l.insertionSort r = [] := by
        rcases List.take_eq_nil_iff.mp hnil with hzero | hempty
        · exact absurd hzero hq.ne'
        · exact hempty
      rw [waiting, hempty, List.drop_nil] at hwaiting
      cases hwaiting
    have hrank := rank_round hsome hlower
    have hlater : rank weight (round r touch q t l) < ts.length := by
      rw [List.length_cons] at hlong
      omega
    obtain ⟨s, hs, hmem⟩ := ih (List.mem_append_right _ hwaiting)
      (fun u hu => h u (List.mem_cons_of_mem _ hu)) hlater
    exact ⟨s, List.mem_cons_of_mem _ hs, hmem⟩

end VeilKnit.Library.Rotation
