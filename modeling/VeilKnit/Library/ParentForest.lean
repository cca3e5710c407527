import Mathlib.Data.Finset.Card

/-!
# Forests given by parents

A parent function sends a node to the node above it, and a root to none. How many edges
lead from a node up to a given root is determined by the function; where some number does,
the node lies on no cycle, and the number is at most that of the nodes that have a parent.
-/

namespace VeilKnit.Library.ParentForest

variable {α : Type*} {parent parent' : α → Option α} {root : α}

/-- So many edges lead from a node up to the root. -/
inductive Edges (parent : α → Option α) (root : α) : α → Nat → Prop
  | root : Edges parent root root 0
  | step {a b : α} {n : Nat} :
      parent a = some b → Edges parent root b n → Edges parent root a (n + 1)

namespace Edges

variable {a b : α} {m n : Nat}

theorem unique (hroot : parent root = none) (hm : Edges parent root a m)
    (hn : Edges parent root a n) : m = n := by
  induction hm generalizing n with
  | root =>
    cases hn with
    | root => rfl
    | step hparent _ => exact absurd hparent (by simp [hroot])
  | step hparent _ ih =>
    cases hn with
    | root => exact absurd hparent (by simp [hroot])
    | step hparent' hn =>
      cases hparent.symm.trans hparent'
      rw [ih hn]

/-- The parent is one edge closer to the root. -/
theorem above (hroot : parent root = none) (h : Edges parent root a n)
    (hparent : parent a = some b) : ∃ m, n = m + 1 ∧ Edges parent root b m := by
  cases h with
  | root => exact absurd hparent (by simp [hroot])
  | step hparent' h =>
    cases hparent.symm.trans hparent'
    exact ⟨_, rfl, h⟩

/-- Going up brings a node closer to the root. -/
theorem transGen (hroot : parent root = none) (h : Edges parent root a n)
    (hup : Relation.TransGen (fun a b => parent a = some b) a b) :
    ∃ m < n, Edges parent root b m := by
  induction hup with
  | single hparent =>
    obtain ⟨m, rfl, hm⟩ := h.above hroot hparent
    exact ⟨m, Nat.lt_succ_self m, hm⟩
  | tail _ hparent ih =>
    obtain ⟨k, hk, hedges⟩ := ih
    obtain ⟨m, rfl, hm⟩ := hedges.above hroot hparent
    exact ⟨m, by omega, hm⟩

/-- A node that is under the root lies on no cycle. -/
theorem acyclic (hroot : parent root = none) (h : Edges parent root a n) :
    ¬ Relation.TransGen (fun a b => parent a = some b) a a := by
  intro hcycle
  obtain ⟨m, hlt, hm⟩ := h.transGen hroot hcycle
  exact absurd (hm.unique hroot h) hlt.ne

/-- Chains inside a set on which the parents are kept are kept. -/
theorem transfer {S : α → Prop} (h : Edges parent root a n) (ha : S a)
    (hkept : ∀ a b, S a → parent a = some b → S b ∧ parent' a = some b) :
    Edges parent' root a n := by
  induction h with
  | root => exact .root
  | step hparent _ ih =>
    obtain ⟨hb, hparent'⟩ := hkept _ _ ha hparent
    exact .step hparent' (ih hb)

/-- Each node on the way up has its own number of edges. -/
theorem exists_edges (h : Edges parent root a n) {k : Nat} (hpos : 0 < k) (hk : k ≤ n) :
    ∃ b c, parent b = some c ∧ Edges parent root b k := by
  induction h with
  | root => omega
  | @step a b n hparent hb ih =>
    by_cases htop : k = n + 1
    · subst htop
      exact ⟨a, b, hparent, .step hparent hb⟩
    · exact ih (by omega)

/-- There are no more edges than nodes with a parent. -/
theorem le_card [DecidableEq α] {nodes : Finset α} (hroot : parent root = none)
    (hnodes : ∀ a b, parent a = some b → a ∈ nodes) (h : Edges parent root a n) :
    n ≤ nodes.card := by
  classical
  -- A node is sent to its number of edges, less one.
  let level : α → Nat := fun b =>
    if hb : ∃ k, Edges parent root b (k + 1) then hb.choose else 0
  have hsub : Finset.range n ⊆ nodes.image level := by
    intro k hk
    have hlt : k < n := Finset.mem_range.mp hk
    obtain ⟨b, c, hparent, hb⟩ := h.exists_edges (Nat.succ_pos k) hlt
    have hex : ∃ k, Edges parent root b (k + 1) := ⟨k, hb⟩
    have hlevel : level b = k := by
      have heq := hex.choose_spec.unique hroot hb
      simp only [level, dif_pos hex]
      omega
    exact Finset.mem_image.mpr ⟨b, hnodes b c hparent, hlevel⟩
  calc n = (Finset.range n).card := (Finset.card_range n).symm
    _ ≤ (nodes.image level).card := Finset.card_le_card hsub
    _ ≤ nodes.card := Finset.card_image_le

end Edges

end VeilKnit.Library.ParentForest
