import Mathlib.Order.WellFounded
import VeilKnit.Library.TopRanked

/-!
# MinHash signatures

The signature of a set has in each slot the least value that the slot's hash function takes on
the set. It is computed over a list, and does not depend on the order of the list. The signature
of the first few of a ranking does not depend on how ties are broken just when in each slot the
least value is certain to be within the cut.
-/

namespace VeilKnit.Library.MinHash

open TopRanked

section Signatures

variable {α : Type*} (hash : Nat → α → Nat) (top : Nat)

/-- A member lowers every slot to its own value. -/
def lower (signature : List Nat) (member : α) : List Nat :=
  signature.mapIdx fun slot least => min least (hash slot member)

def signature (components : Nat) (members : List α) : List Nat :=
  members.foldl (lower hash) (List.replicate components top)

/-- The least value in one slot. -/
def least (slot : Nat) (members : List α) : Nat :=
  members.foldl (fun least member => min least (hash slot member)) top

theorem foldl_lower (slots : List Nat) (members : List α) : members.foldl (lower hash) slots =
      slots.mapIdx fun slot start =>
        members.foldl (fun least member => min least (hash slot member)) start := by
  induction members generalizing slots with
  | nil =>
    refine List.ext_getElem? fun slot => ?_
    rw [List.foldl_nil, List.getElem?_mapIdx]
    exact Option.map_id'.symm
  | cons member members ih =>
    rw [List.foldl_cons, ih, lower, List.mapIdx_mapIdx]
    rfl

theorem getElem?_signature {components slot : Nat} (h : slot < components) (members : List α) :
    (signature hash top components members)[slot]? = some (least hash top slot members) := by
  rw [signature, foldl_lower, List.getElem?_mapIdx, List.getElem?_replicate_of_lt h]
  rfl

@[simp]
theorem length_signature (components : Nat) (members : List α) :
    (signature hash top components members).length = components := by
  rw [signature, foldl_lower, List.length_mapIdx, List.length_replicate]

/-- Two signatures agree if and only if they agree slot by slot. -/
theorem signature_eq_iff (components : Nat) (members members' : List α) :
    signature hash top components members = signature hash top components members' ↔
      ∀ slot < components, least hash top slot members = least hash top slot members' := by
  constructor
  · intro heq slot hslot
    have hget := congrArg (·[slot]?) heq
    simp only [getElem?_signature hash top hslot] at hget
    exact Option.some.inj hget
  · intro hall
    refine List.ext_getElem? fun slot => ?_
    by_cases hslot : slot < components
    · rw [getElem?_signature hash top hslot, getElem?_signature hash top hslot, hall slot hslot]
    · rw [List.getElem?_eq_none (by simpa using hslot), List.getElem?_eq_none (by simpa using hslot)]

variable {hash top} {slot : Nat} {members members' : List α} {a : α}

theorem foldl_min_le_iff (start bound : Nat) (members : List α) :
    bound ≤ members.foldl (fun least member => min least (hash slot member)) start ↔
      bound ≤ start ∧ ∀ a ∈ members, bound ≤ hash slot a := by
  induction members generalizing start with
  | nil => simp
  | cons member members ih =>
    rw [List.foldl_cons, ih, Nat.le_min, List.forall_mem_cons, and_assoc]

/-- The least value is the largest bound from below. -/
theorem le_least_iff {bound : Nat} :
    bound ≤ least hash top slot members ↔ bound ≤ top ∧ ∀ a ∈ members, bound ≤ hash slot a :=
  foldl_min_le_iff top bound members

theorem least_congr (h : ∀ a, a ∈ members ↔ a ∈ members') :
    least hash top slot members = least hash top slot members' := by
  refine eq_of_forall_le_iff fun bound => ?_
  rw [le_least_iff, le_least_iff]
  exact and_congr_right fun _ => forall_congr' fun a => imp_congr_left (h a)

theorem least_le (ha : a ∈ members) : least hash top slot members ≤ hash slot a :=
  (le_least_iff.mp le_rfl).2 a ha

/-- A member below all others has the least value. -/
theorem least_eq (htop : hash slot a ≤ top) (ha : a ∈ members)
    (hall : ∀ b ∈ members, hash slot a ≤ hash slot b) :
    least hash top slot members = hash slot a :=
  Nat.le_antisymm (least_le ha) (le_least_iff.mpr ⟨htop, hall⟩)

/-- The least value is some member's, unless there is none. -/
theorem exists_mem_least (htop : ∀ a, hash slot a ≤ top) (hne : members ≠ []) :
    ∃ a ∈ members, least hash top slot members = hash slot a := by
  obtain ⟨b, hb⟩ := List.exists_mem_of_ne_nil members hne
  obtain ⟨a, ha, hmin⟩ := (measure (hash slot)).wf.has_min {a | a ∈ members} ⟨b, hb⟩
  exact ⟨a, ha, least_eq (htop a) ha fun c hc => Nat.not_lt.mp (hmin c hc)⟩

theorem least_eq_foldl (hash : Nat → α → Nat) (top slot : Nat) (members : List α) :
    least hash top slot members = (members.map (hash slot)).foldl min top :=
  List.foldl_map.symm

theorem least_map {β : Type*} (f : β → α) (members : List β) :
    least hash top slot (members.map f) = least (fun slot b => hash slot (f b)) top slot members :=
  List.foldl_map

/-! ## The first few of a ranking -/

section Leaders

variable (hash) (rank : α → Nat) (k : Nat)

/-- None of the possible members has a lower value. -/
def Least (slot : Nat) (l : List α) (a : α) : Prop :=
  ∀ b ∈ l, Possible rank k l b → hash slot a ≤ hash slot b

instance (slot : Nat) (l : List α) : DecidablePred (Least hash rank k slot l) := fun a =>
  inferInstanceAs (Decidable (∀ b ∈ l, Possible rank k l b → hash slot a ≤ hash slot b))

/-- A certain member has the least value, or more of the possible ones have it than the cut
leaves out. -/
def Settled (l : List α) (slot : Nat) : Prop :=
  l = [] ∨ (∃ a ∈ l, Sure rank k l a ∧ Least hash rank k slot l a) ∨
    l.countP (fun a => Possible rank k l a) - k <
      l.countP fun a => Possible rank k l a ∧ Least hash rank k slot l a

variable {hash rank k} {l : List α}

variable (rank) in
theorem leaders_ne_nil (hk : 0 < k) (hne : l ≠ []) : leaders rank k l ≠ [] := by
  intro hnil
  rcases List.take_eq_nil_iff.mp hnil with hzero | hempty
  · exact hk.ne' hzero
  · refine hne (List.eq_nil_of_length_eq_zero ?_)
    rw [← List.length_insertionSort fun a b => rank b ≤ rank a, hempty, List.length_nil]

variable (hash rank) in
/-- Among the members that can be within the cut, one has the least value. -/
theorem exists_least (hk : 0 < k) (hne : l ≠ []) (slot : Nat) :
    ∃ a ∈ l, Possible rank k l a ∧ Least hash rank k slot l a := by
  obtain ⟨b, hb⟩ := List.exists_mem_of_ne_nil _ (leaders_ne_nil rank hk hne)
  obtain ⟨a, ⟨ha, hpossible⟩, hmin⟩ := (measure (hash slot)).wf.has_min
    {a | a ∈ l ∧ Possible rank k l a} ⟨b, mem_of_mem_leaders hb, possible_of_mem_leaders hb⟩
  exact ⟨a, ha, hpossible, fun c hc hp => Nat.not_lt.mp (hmin c ⟨hc, hp⟩)⟩

variable (top) in
/-- The value in a slot of the first few is the same for every order of the list if and only if
the slot is settled. -/
theorem least_leaders_iff (hk : 0 < k) (htop : ∀ a, hash slot a ≤ top) :
    (∀ l', l'.Perm l →
      least hash top slot (leaders rank k l') = least hash top slot (leaders rank k l)) ↔
      Settled hash rank k l slot := by
  by_cases hne : l = []
  · subst hne
    refine iff_of_true (fun l' hperm => ?_) (Or.inl rfl)
    rw [hperm.eq_nil]
  -- Some order has the least value within the cut, and where all do the values agree.
  obtain ⟨a, ha, hpossible, hleast⟩ := exists_least hash rank hk hne slot
  have hvalue : ∀ {l' : List α}, l'.Perm l →
      (least hash top slot (leaders rank k l') = hash slot a ↔
        ∃ b ∈ leaders rank k l', Least hash rank k slot l b) := by
    intro l' hperm
    have hin : ∀ b ∈ leaders rank k l', b ∈ l ∧ Possible rank k l b := fun b hb =>
      ⟨hperm.mem_iff.mp (mem_of_mem_leaders hb),
        (possible_congr hperm).mp (possible_of_mem_leaders hb)⟩
    constructor
    · intro heq
      obtain ⟨b, hb, hmin⟩ := exists_mem_least htop
        (leaders_ne_nil rank hk fun hnil => hne (List.perm_nil.mp (hnil ▸ hperm.symm)))
      refine ⟨b, hb, fun c hc hp => ?_⟩
      rw [← hmin, heq]
      exact hleast c hc hp
    · rintro ⟨b, hb, hmin⟩
      rw [← Nat.le_antisymm (hmin a ha hpossible) (hleast b (hin b hb).1 (hin b hb).2)]
      exact least_eq (htop b) hb fun c hc => hmin c (hin c hc).1 (hin c hc).2
  rw [Settled, or_iff_right hne, ← leaders_meet_iff]
  constructor
  · intro hall l' hperm
    have harranged := perm_arranged rank k (Least hash rank k slot l) l
    have hmeets := exists_leader_of_possible (Least hash rank k slot l) ha hpossible hleast
    refine (hvalue hperm).mp ?_
    rw [hall l' hperm, ← hall _ harranged]
    exact (hvalue harranged).mpr hmeets
  · intro hall l' hperm
    rw [(hvalue hperm).mpr (hall l' hperm), (hvalue (List.Perm.refl l)).mpr (hall l (.refl l))]

end Leaders

end Signatures

end VeilKnit.Library.MinHash
