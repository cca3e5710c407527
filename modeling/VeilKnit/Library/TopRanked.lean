import Mathlib.Data.List.Sort

/-!
# The first few of a ranking with ties

A list is sorted by falling rank, stably, and cut after `k` members. Where members tie across the
cut, the order of the list decides which of them are within. What is certain is what the ranks
alone decide: a member with fewer than `k` members above it can be within, and one with at most
`k` members at least as high always is.

## Main results

* `possible_of_mem_leaders`, `mem_leaders_of_sure` — between what is certain and what is possible
* `leaders_meet_iff` — when every order has a member of a class within the cut
-/

namespace VeilKnit.Library.TopRanked

section Ranking

variable {α : Type*} (rank : α → Nat) (k : Nat)

/-- The `k` members of highest rank; of equal ones those that come first. -/
def leaders (l : List α) : List α := (l.insertionSort fun a b => rank b ≤ rank a).take k

/-- Fewer than `k` members rank above. -/
def Possible (l : List α) (a : α) : Prop := l.countP (fun b => rank a < rank b) < k

/-- At most `k` members rank at least as high. -/
def Sure (l : List α) (a : α) : Prop := l.countP (fun b => rank a ≤ rank b) ≤ k

instance (l : List α) : DecidablePred (Possible rank k l) := fun a =>
  inferInstanceAs (Decidable (l.countP (fun b => rank a < rank b) < k))

instance (l : List α) : DecidablePred (Sure rank k l) := fun a =>
  inferInstanceAs (Decidable (l.countP (fun b => rank a ≤ rank b) ≤ k))

variable {rank k} {l l' : List α} {a b : α}

theorem possible_congr (h : l.Perm l') : Possible rank k l a ↔ Possible rank k l' a := by
  rw [Possible, Possible, h.countP_eq]

theorem sure_congr (h : l.Perm l') : Sure rank k l a ↔ Sure rank k l' a := by
  rw [Sure, Sure, h.countP_eq]

variable (rank) in
theorem sorted_ranking (l : List α) :
    (l.insertionSort fun a b => rank b ≤ rank a).Pairwise fun a b => rank b ≤ rank a := by
  have : Std.Total fun a b : α => rank b ≤ rank a := ⟨fun a b => le_total (rank b) (rank a)⟩
  have : IsTrans α fun a b : α => rank b ≤ rank a := ⟨fun _ _ _ hab hbc => hbc.trans hab⟩
  exact List.pairwise_insertionSort _ l

theorem mem_of_mem_leaders (h : a ∈ leaders rank k l) : a ∈ l :=
  (List.mem_insertionSort _).mp (List.mem_of_mem_take h)

/-! ## Certain and possible members -/

theorem possible_of_mem_leaders (h : a ∈ leaders rank k l) : Possible rank k l a := by
  rw [← possible_congr (List.perm_insertionSort (fun a b => rank b ≤ rank a) l)]
  have hsorted := sorted_ranking rank l
  rw [leaders] at h
  generalize l.insertionSort (fun a b => rank b ≤ rank a) = ranking at h hsorted ⊢
  obtain ⟨i, hi, hia⟩ := List.mem_take_iff_getElem.mp h
  have hik : i < k := (Nat.lt_min.mp hi).1
  have hsplit : ranking = ranking.take i ++ a :: ranking.drop (i + 1) := by
    rw [← hia, ← List.drop_eq_getElem_cons ((Nat.lt_min.mp hi).2), List.take_append_drop]
  rw [hsplit, List.pairwise_append, List.pairwise_cons] at hsorted
  -- Only members in front of the place rank above it.
  have hbehind : (a :: ranking.drop (i + 1)).countP (fun b => rank a < rank b) = 0 := by
    refine List.countP_eq_zero.mpr fun b hb => ?_
    rcases List.mem_cons.mp hb with rfl | hb
    · simp
    · simpa using hsorted.2.1.1 b hb
  rw [Possible, hsplit, List.countP_append, hbehind, Nat.add_zero]
  exact (List.countP_le_length.trans (List.length_take_le i ranking)).trans_lt hik

theorem mem_leaders_of_sure (hmem : a ∈ l) (h : Sure rank k l a) : a ∈ leaders rank k l := by
  rw [← sure_congr (List.perm_insertionSort (fun a b => rank b ≤ rank a) l)] at h
  have hsorted := sorted_ranking rank l
  rw [← List.mem_insertionSort (fun a b => rank b ≤ rank a)] at hmem
  rw [leaders]
  generalize l.insertionSort (fun a b => rank b ≤ rank a) = ranking at h hsorted hmem ⊢
  by_contra hout
  -- A member behind the cut has all those within it at least as high, and itself.
  rw [← List.take_append_drop k ranking] at hmem hsorted
  have hdrop : a ∈ ranking.drop k := (List.mem_append.mp hmem).resolve_left hout
  have hbefore : (ranking.take k).countP (fun b => rank a ≤ rank b) = (ranking.take k).length :=
    List.countP_eq_length.mpr fun b hb => by
      simpa using (List.pairwise_append.mp hsorted).2.2 b hb a hdrop
  have hself : 0 < (ranking.drop k).countP (fun b => rank a ≤ rank b) :=
    List.countP_pos_iff.mpr ⟨a, hdrop, by simp⟩
  have hlong : k < ranking.length := by
    have := List.length_pos_of_mem hdrop
    rw [List.length_drop] at this
    omega
  rw [Sure, ← List.take_append_drop k ranking, List.countP_append, hbefore, List.length_take,
    Nat.min_eq_left hlong.le] at h
  omega

/-- A member that is certain is possible. -/
theorem possible_of_sure (hmem : a ∈ l) (h : Sure rank k l a) : Possible rank k l a :=
  possible_of_mem_leaders (mem_leaders_of_sure hmem h)

/-- What ranks below a member that is not certain is not certain either. -/
theorem lt_of_sure_of_not_sure (ha : Sure rank k l a) (hb : ¬ Sure rank k l b) :
    rank b < rank a := by
  by_contra hle
  refine hb (le_trans (List.countP_mono_left fun c _ hc => ?_) ha)
  rw [decide_eq_true_eq] at hc ⊢
  omega

/-- What ranks above a possible member is possible. -/
theorem lt_of_possible_of_not_possible (ha : Possible rank k l a) (hb : ¬ Possible rank k l b) :
    rank b < rank a := by
  by_contra hle
  refine hb (lt_of_le_of_lt (List.countP_mono_left fun c _ hc => ?_) ha)
  rw [decide_eq_true_eq] at hc ⊢
  omega

/-- Members that are possible but not certain tie. -/
theorem rank_eq_of_crossing (ha : Possible rank k l a) (ha' : ¬ Sure rank k l a)
    (hb : Possible rank k l b) (hb' : ¬ Sure rank k l b) : rank a = rank b := by
  -- Were one higher, the other's few members above would make it certain.
  have hle : ∀ {c d : α}, Possible rank k l c → ¬ Sure rank k l d → rank d ≤ rank c := by
    intro c d hc hd
    by_contra hlt
    refine hd (le_trans (List.countP_mono_left fun e _ he => ?_) hc.le)
    rw [decide_eq_true_eq] at he ⊢
    omega
  exact Nat.le_antisymm (hle hb ha') (hle ha hb')

/-! ## All orders of the list -/

variable (rank k) in
/-- The members that tie across the cut. -/
def crossing (l : List α) : List α := l.filter fun a => Possible rank k l a ∧ ¬ Sure rank k l a

variable (rank) in
/-- The members from the highest rank to the lowest. -/
def ranked (l : List α) : List α := l.insertionSort fun a b => rank b ≤ rank a

variable (rank k) in
/-- The members by their ranks, with those of a class first among the ones that tie across the
cut. -/
def arranged (l : List α) (first : α → Prop) [DecidablePred first] : List α :=
  ranked rank (l.filter fun a => Sure rank k l a) ++
    ((crossing rank k l).filter (fun a => first a) ++
      ((crossing rank k l).filter (fun a => ¬ first a) ++
        ranked rank (l.filter fun a => ¬ Possible rank k l a)))

theorem mem_crossing : a ∈ crossing rank k l ↔ a ∈ l ∧ Possible rank k l a ∧ ¬ Sure rank k l a := by
  rw [crossing, List.mem_filter, decide_eq_true_eq]

variable (rank k) in
/-- The certain members and those that tie across the cut are the possible ones. -/
theorem perm_sure_append_crossing (l : List α) :
    (l.filter (fun a => Sure rank k l a) ++ crossing rank k l).Perm
      (l.filter fun a => Possible rank k l a) := by
  have hsplit := List.filter_append_perm (fun a => decide (Sure rank k l a))
    (l.filter fun a => Possible rank k l a)
  rw [List.filter_filter, List.filter_filter] at hsplit
  have hsure : l.filter (fun a => decide (Sure rank k l a) && decide (Possible rank k l a)) =
      l.filter fun a => Sure rank k l a := by
    refine List.filter_congr fun a ha => ?_
    rw [← Bool.decide_and]
    exact decide_eq_decide.mpr ⟨fun h => h.1, fun h => ⟨h, possible_of_sure ha h⟩⟩
  have hcrossing : l.filter (fun a => (!decide (Sure rank k l a)) && decide (Possible rank k l a)) =
        crossing rank k l := by
    refine List.filter_congr fun a _ => ?_
    rw [← decide_not, ← Bool.decide_and]
    exact decide_eq_decide.mpr and_comm
  rwa [hsure, hcrossing] at hsplit

section Arranged

variable (first : α → Prop) [DecidablePred first]

variable (rank k) in
theorem perm_arranged (l : List α) : (arranged rank k l first).Perm l := by
  have hcrossing := List.filter_append_perm (fun a => decide (first a)) (crossing rank k l)
  have hpossible := List.filter_append_perm (fun a => decide (Possible rank k l a)) l
  simp only [← decide_not] at hcrossing hpossible
  refine List.Perm.trans ?_ hpossible
  refine List.Perm.trans ?_ ((perm_sure_append_crossing rank k l).append_right _)
  rw [List.append_assoc, arranged]
  refine (List.perm_insertionSort _ _).append ?_
  rw [← List.append_assoc]
  exact hcrossing.append (List.perm_insertionSort _ _)

theorem sorted_arranged (l : List α) :
    (arranged rank k l first).Pairwise fun a b => rank b ≤ rank a := by
  have hties : ∀ {c d : α}, c ∈ crossing rank k l → d ∈ crossing rank k l → rank d ≤ rank c := by
    intro c d hc hd
    obtain ⟨-, hc, hc'⟩ := mem_crossing.mp hc
    obtain ⟨-, hd, hd'⟩ := mem_crossing.mp hd
    exact (rank_eq_of_crossing hd hd' hc hc').le
  -- What is certain lies above what ties, and that above what is not possible.
  have hranked : ∀ {members : List α} {c : α}, c ∈ ranked rank members → c ∈ members := fun h =>
    (List.mem_insertionSort _).mp h
  have hbelow : ∀ {c d : α}, Possible rank k l c →
      d ∈ ranked rank (l.filter fun a => ¬ Possible rank k l a) → rank d ≤ rank c := by
    intro c d hc hd
    have hd := (List.mem_filter.mp (hranked hd)).2
    rw [decide_eq_true_eq] at hd
    exact (lt_of_possible_of_not_possible hc hd).le
  have hsure : ∀ {c : α}, c ∈ ranked rank (l.filter fun a => Sure rank k l a) →
      c ∈ l ∧ Sure rank k l c := fun h => by
    simpa using List.mem_filter.mp (hranked h)
  have hin : ∀ {p : α → Bool} {c : α}, c ∈ (crossing rank k l).filter p → c ∈ crossing rank k l :=
    fun h => (List.mem_filter.mp h).1
  refine List.pairwise_append.mpr ⟨sorted_ranking rank _, ?_, ?_⟩
  · refine List.pairwise_append.mpr ⟨?_, ?_, ?_⟩
    · exact List.pairwise_of_forall_mem_list fun c hc d hd => hties (hin hc) (hin hd)
    · refine List.pairwise_append.mpr ⟨?_, sorted_ranking rank _, ?_⟩
      · exact List.pairwise_of_forall_mem_list fun c hc d hd => hties (hin hc) (hin hd)
      · exact fun c hc d hd => hbelow (mem_crossing.mp (hin hc)).2.1 hd
    · intro c hc d hd
      rcases List.mem_append.mp hd with hd | hd
      · exact hties (hin hc) (hin hd)
      · exact hbelow (mem_crossing.mp (hin hc)).2.1 hd
  intro c hc d hd
  obtain ⟨hmem, hc⟩ := hsure hc
  rcases List.mem_append.mp hd with hd | hd
  · exact (lt_of_sure_of_not_sure hc (mem_crossing.mp (hin hd)).2.2).le
  · rcases List.mem_append.mp hd with hd | hd
    · exact (lt_of_sure_of_not_sure hc (mem_crossing.mp (hin hd)).2.2).le
    · exact hbelow (possible_of_sure hmem hc) hd

theorem leaders_arranged (l : List α) :
    leaders rank k (arranged rank k l first) = (arranged rank k l first).take k := by
  rw [leaders, (sorted_arranged first l).insertionSort_eq]

/-- A possible member of a class is within the cut in some order, or another of the class is. -/
theorem exists_leader_of_possible (ha : a ∈ l) (hpossible : Possible rank k l a)
    (hfirst : first a) : ∃ b ∈ leaders rank k (arranged rank k l first), first b := by
  by_cases hsure : Sure rank k l a
  · refine ⟨a, mem_leaders_of_sure ((perm_arranged rank k first l).mem_iff.mpr ha) ?_, hfirst⟩
    exact (sure_congr (perm_arranged rank k first l)).mpr hsure
  have hmem : a ∈ (crossing rank k l).filter fun a => first a := by
    simpa using ⟨mem_crossing.mpr ⟨ha, hpossible, hsure⟩, hfirst⟩
  obtain ⟨c, cs, hcs⟩ := List.exists_cons_of_ne_nil (List.ne_nil_of_mem hmem)
  -- The certain members all lie above the one that ties, so that they leave a place.
  have hshort : (ranked rank (l.filter fun a => Sure rank k l a)).length < k := by
    rw [ranked, List.length_insertionSort, ← List.countP_eq_length_filter]
    refine lt_of_le_of_lt (List.countP_mono_left fun b _ hb => ?_) hpossible
    rw [decide_eq_true_eq] at hb ⊢
    exact lt_of_sure_of_not_sure hb hsure
  have hc : c ∈ (crossing rank k l).filter fun a => first a := hcs ▸ List.mem_cons_self
  refine ⟨c, ?_, by simpa using (List.mem_filter.mp hc).2⟩
  rw [leaders_arranged, arranged, hcs, List.take_append]
  refine List.mem_append_right _ ?_
  obtain ⟨n, hn⟩ := Nat.exists_eq_succ_of_ne_zero (Nat.sub_ne_zero_of_lt hshort)
  rw [hn]
  exact List.mem_cons_self

end Arranged

/-- Where no certain member is of a class, the possible ones of the class are those that tie. -/
theorem countP_possible_of_not_sure {q : α → Prop} [DecidablePred q]
    (h : ∀ a, ¬ (a ∈ l ∧ Sure rank k l a ∧ q a)) :
    l.countP (fun a => Possible rank k l a ∧ q a) =
      ((crossing rank k l).filter fun a => q a).length := by
  rw [crossing, List.filter_filter, List.countP_eq_length_filter]
  refine congrArg List.length (List.filter_congr fun a ha => ?_)
  rw [← Bool.decide_and]
  refine decide_eq_decide.mpr ⟨fun ⟨hp, hq⟩ => ⟨hq, hp, fun hs => h a ⟨ha, hs, hq⟩⟩, ?_⟩
  rintro ⟨hq, hp, -⟩
  exact ⟨hp, hq⟩

/-- Every order of the list has a member of a class within the cut if and only if one is certain,
or more of the possible members are of the class than the cut leaves out. -/
theorem leaders_meet_iff (l : List α) (q : α → Prop) [DecidablePred q] :
    (∀ l', l'.Perm l → ∃ a ∈ leaders rank k l', q a) ↔ (∃ a ∈ l, Sure rank k l a ∧ q a) ∨
        l.countP (fun a => Possible rank k l a) - k <
          l.countP fun a => Possible rank k l a ∧ q a := by
  constructor
  · intro hall
    by_contra hnone
    rw [not_or, not_exists] at hnone
    obtain ⟨hcertain, hfew⟩ := hnone
    -- Put the others first among the ties; then one of the class is still within the cut.
    have hperm := perm_arranged rank k (fun a => ¬ q a) l
    obtain ⟨a, hleader, hq⟩ := hall _ hperm
    have hpossible := (possible_congr hperm).mp (possible_of_mem_leaders hleader)
    have ha := hperm.mem_iff.mp (mem_of_mem_leaders hleader)
    have hcrossing : a ∈ crossing rank k l :=
      mem_crossing.mpr ⟨ha, hpossible, fun hsure => hcertain a ⟨ha, hsure, hq⟩⟩
    have hclass := (List.filter_append_perm (fun a => decide (q a)) (crossing rank k l)).length_eq
    have hsplit := (perm_sure_append_crossing rank k l).length_eq
    have hcount := countP_possible_of_not_sure hcertain
    have hone : 0 < ((crossing rank k l).filter fun a => q a).length :=
      List.length_pos_of_mem (List.mem_filter.mpr ⟨hcrossing, decide_eq_true hq⟩)
    simp only [List.length_append, ← List.countP_eq_length_filter] at hclass hsplit hone hcount
    rw [leaders_arranged, arranged, ← List.append_assoc] at hleader
    have hfull : k ≤ (ranked rank (l.filter fun a => Sure rank k l a) ++
        (crossing rank k l).filter fun a => ¬ q a).length := by
      rw [List.length_append, ranked, List.length_insertionSort, ← List.countP_eq_length_filter,
        ← List.countP_eq_length_filter]
      simp only [decide_not]
      omega
    rw [List.take_append_of_le_length hfull] at hleader
    rcases List.mem_append.mp (List.mem_of_mem_take hleader) with hin | hin
    · have hin := (List.mem_insertionSort _).mp hin
      exact hcertain a ⟨ha, by simpa using (List.mem_filter.mp hin).2, hq⟩
    · have hin := (List.mem_filter.mp hin).2
      rw [decide_eq_true_eq] at hin
      exact hin hq
  rintro (⟨a, ha, hsure, hq⟩ | hmany) l' hperm
  · exact ⟨a, mem_leaders_of_sure (hperm.mem_iff.mpr ha) ((sure_congr hperm).mpr hsure), hq⟩
  by_contra hnone
  rw [not_exists] at hnone
  have hranking := List.perm_insertionSort (fun a b => rank b ≤ rank a) l'
  rw [← (hranking.trans hperm).countP_eq, ← (hranking.trans hperm).countP_eq] at hmany
  have hleaders : ∀ a ∈ leaders rank k l', Possible rank k l a := fun a ha =>
    (possible_congr hperm).mp (possible_of_mem_leaders ha)
  simp only [leaders] at hnone hleaders
  generalize l'.insertionSort (fun a b => rank b ≤ rank a) = ranking at *
  -- Those of the class are all behind the cut, where at most the rest of the possible are.
  have hwithin : (ranking.take k).countP (fun a => Possible rank k l a ∧ q a) = 0 :=
    List.countP_eq_zero.mpr fun a ha => by
      simpa using fun _ hq => hnone a ⟨ha, hq⟩
  have hall : (ranking.take k).countP (fun a => Possible rank k l a) = (ranking.take k).length :=
    List.countP_eq_length.mpr fun a ha => decide_eq_true (hleaders a ha)
  have hbehind : (ranking.drop k).countP (fun a => Possible rank k l a ∧ q a) ≤
      (ranking.drop k).countP fun a => Possible rank k l a :=
    List.countP_mono_left fun a _ ha => by
      rw [decide_eq_true_eq] at ha ⊢
      exact ha.1
  have hrest := List.countP_le_length (p := fun a => decide (Possible rank k l a ∧ q a))
    (l := ranking.drop k)
  rw [← List.take_append_drop k ranking, List.countP_append, List.countP_append, hwithin,
    hall, List.length_take] at hmany
  rw [List.length_drop] at hrest
  omega

end Ranking

end VeilKnit.Library.TopRanked
