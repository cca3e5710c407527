import Mathlib.Data.Finset.Insert

/-!
# The targets of a walk

A picker hands out the targets that it has been given, in random order, each of them once. A
focused walk has two of them, one for the preferred targets, which is asked first, and one for all
others. Each of the two remembers what it has handed out itself only, so a target that both have
been given is handed out twice.
-/

namespace VeilKnit.WalkTask

variable {Key : Type} (text : Key → String)

/-! ## Pickers -/

structure RandomHopPicker (Key : Type) where
  ownDht : String
  pending : List Key
  known : Finset String
  visited : Finset String
  rngState : UInt64

/-- The last element takes the place of the one that is removed. -/
def swapRemove {α : Type} (l : List α) (idx : Nat) : List α :=
  match l.getLast? with
  | none => []
  | some last => (l.set idx last).dropLast

namespace RandomHopPicker

/-- The picker, and how many candidates were new to it. -/
def addCandidates (picker : RandomHopPicker Key) (candidates : List Key) :
    RandomHopPicker Key × Nat :=
  candidates.foldl (fun (picker, added) candidate =>
    let key := text candidate
    if key = picker.ownDht ∨ key ∈ picker.visited ∨ key ∈ picker.known then (picker, added)
    else ({ picker with
      known := insert key picker.known
      pending := picker.pending ++ [candidate] }, added + 1)) (picker, 0)

def new (ownDht : String) (initial : List Key) (seed : UInt64) : RandomHopPicker Key :=
  (addCandidates text ⟨ownDht, [], ∅, ∅, seed⟩ initial).1

/-- The next state of the generator, and an index. -/
def randomIndex (picker : RandomHopPicker Key) : UInt64 × Nat :=
  let x := picker.rngState
  let x := x ^^^ (x >>> 12)
  let x := x ^^^ (x <<< 25)
  let x := x ^^^ (x >>> 27)
  (x, (x * 0x2545F4914F6CDD1D).toNat % picker.pending.length)

/-- The loop of `nextHop`. It takes one candidate a round, so it makes no more rounds than there
are candidates. -/
def pick : Nat → RandomHopPicker Key → Option Key × RandomHopPicker Key
  | 0, picker => (none, picker)
  | rounds + 1, picker =>
    let (rngState, idx) := picker.randomIndex
    match picker.pending[idx]? with
    | none => (none, picker)
    | some candidate =>
      let picker := { picker with rngState, pending := swapRemove picker.pending idx }
      let key := text candidate
      if key ∈ picker.visited then pick rounds picker
      else (some candidate, { picker with visited := insert key picker.visited })

def nextHop (picker : RandomHopPicker Key) : Option Key × RandomHopPicker Key :=
  picker.pick text picker.pending.length

end RandomHopPicker

inductive WalkStyle
  | random
  | focused

inductive HopPicker (Key : Type)
  | random (picker : RandomHopPicker Key)
  | focused (preferred fallback : RandomHopPicker Key)

namespace HopPicker

/-- What is discovered on a focused walk goes to the fallback. -/
def addCandidates (candidates : List Key) : HopPicker Key → HopPicker Key
  | .random picker => .random (picker.addCandidates text candidates).1
  | .focused preferred fallback => .focused preferred (fallback.addCandidates text candidates).1

def nextHop : HopPicker Key → Option Key × HopPicker Key
  | .random picker =>
    let (hop, picker) := picker.nextHop text
    (hop, .random picker)
  | .focused preferred fallback =>
    match preferred.nextHop text with
    | (some hop, preferred) => (some hop, .focused preferred fallback)
    | (none, preferred) =>
      let (hop, fallback) := fallback.nextHop text
      (hop, .focused preferred fallback)

end HopPicker

def makeHopPicker (style : WalkStyle) (ownDht : String) (initial preferred : List Key)
    (seeds : UInt64 × UInt64) : HopPicker Key :=
  match style with
  | .random => .random (.new text ownDht initial seeds.1)
  | .focused => .focused (.new text ownDht preferred seeds.1) (.new text ownDht initial seeds.2)

/-! ## Walks -/

inductive HopCall (Key : Type)
  | addCandidates (candidates : List Key)
  | nextHop

/-- A picker, the candidates that it has been given, and the addresses that it has handed out. -/
structure HopRun (Key : Type) where
  picker : HopPicker Key
  added : List Key
  returned : List String

def HopRun.start (style : WalkStyle) (ownDht : String) (initial preferred : List Key)
    (seeds : UInt64 × UInt64) : HopRun Key where
  picker := makeHopPicker text style ownDht initial preferred seeds
  added := match style with
    | .random => initial
    | .focused => preferred ++ initial
  returned := []

def HopRun.call (run : HopRun Key) : HopCall Key → HopRun Key
  | .addCandidates candidates =>
    { run with
      picker := run.picker.addCandidates text candidates
      added := run.added ++ candidates }
  | .nextHop =>
    match run.picker.nextHop text with
    | (some hop, picker) => { run with picker, returned := text hop :: run.returned }
    | (none, picker) => { run with picker }

/-- The own address is never handed out and no other twice, and there is none left when none is
handed out. -/
structure HopRun.WellPicked (ownDht : String) (run : HopRun Key) : Prop where
  own : ownDht ∉ run.returned
  once : run.returned.Nodup
  complete : (run.picker.nextHop text).1 = none → ∀ candidate ∈ run.added,
    text candidate ≠ ownDht → text candidate ∈ run.returned

/-! ## One picker -/

namespace RandomHopPicker

variable {text} {picker : RandomHopPicker Key} {ownDht : String}

/-- The known addresses are those handed out and those that wait, once each. -/
structure Sound (text : Key → String) (ownDht : String) (picker : RandomHopPicker Key) : Prop where
  own : picker.ownDht = ownDht
  known : ∀ key, key ∈ picker.known ↔ key ∈ picker.visited ∨ key ∈ picker.pending.map text
  nodup : (picker.pending.map text).Nodup
  fresh : ∀ candidate ∈ picker.pending, text candidate ∉ picker.visited
  notOwn : ownDht ∉ picker.known

theorem swapRemove_perm {α : Type} {l : List α} {idx : Nat} {a : α} (h : l[idx]? = some a) :
    l.Perm (a :: swapRemove l idx) := by
  obtain ⟨hidx, rfl⟩ := List.getElem?_eq_some_iff.mp h
  have hne : l ≠ [] := List.ne_nil_of_length_pos (by omega)
  refine (List.getElem_cons_eraseIdx_perm hidx).symm.trans (.cons _ ?_)
  rw [swapRemove, List.getLast?_eq_some_getLast hne]
  have hset := List.set_perm_cons_eraseIdx hidx (l.getLast hne)
  have hne' : l.set idx (l.getLast hne) ≠ [] := by simpa using hne
  have hlast : (l.set idx (l.getLast hne)).getLast hne' = l.getLast hne := by
    simp [List.getLast_eq_getElem, List.getElem_set]
  have hsplit := List.dropLast_append_getLast hne'
  rw [hlast] at hsplit
  rw [← hsplit] at hset
  exact ((List.perm_append_singleton _ _).symm.trans hset).cons_inv.symm

theorem Sound.addCandidates (h : picker.Sound text ownDht) (candidates : List Key) :
    (picker.addCandidates text candidates).1.Sound text ownDht ∧
      (picker.addCandidates text candidates).1.visited = picker.visited ∧
      ∀ key, key ∈ (picker.addCandidates text candidates).1.known ↔
        key ∈ picker.known ∨ key ∈ candidates.map text ∧ key ≠ ownDht := by
  unfold RandomHopPicker.addCandidates
  generalize 0 = added
  induction candidates generalizing picker added with
  | nil => exact ⟨h, rfl, by simp⟩
  | cons candidate candidates ih =>
    rw [List.foldl_cons]
    dsimp only
    split
    case isTrue hold =>
      obtain ⟨hsound, hvisited, hknown⟩ := ih h added
      refine ⟨hsound, hvisited, fun key => ?_⟩
      have hcandidate : text candidate = ownDht ∨ text candidate ∈ picker.known := by
        rw [h.own] at hold
        exact hold.imp_right fun hmem => hmem.elim (fun hv => (h.known _).mpr (.inl hv)) id
      rw [hknown, List.map_cons, List.mem_cons]
      by_cases hkey : key = text candidate
      · subst hkey
        tauto
      · simp [hkey]
    case isFalse hnew =>
      simp only [not_or, h.own] at hnew
      obtain ⟨hown, hvisited, hknown⟩ := hnew
      have hsound : Sound text ownDht { picker with
          known := insert (text candidate) picker.known
          pending := picker.pending ++ [candidate] } := by
        refine ⟨h.own, fun key => ?_, ?_, fun other hother => ?_, ?_⟩
        · simp [h.known key, or_comm, or_left_comm]
        · rw [List.map_append, List.map_singleton]
          refine h.nodup.append (List.nodup_singleton _) ?_
          rw [List.disjoint_singleton]
          exact fun hmem => hknown ((h.known _).mpr (.inr hmem))
        · rcases List.mem_append.mp hother with hmem | hmem
          · exact h.fresh other hmem
          · rwa [List.mem_singleton.mp hmem]
        · simp [Ne.symm hown, h.notOwn]
      obtain ⟨hsound', hvisited', hknown'⟩ := ih hsound (added + 1)
      refine ⟨hsound', hvisited', fun key => ?_⟩
      rw [hknown', Finset.mem_insert, List.map_cons, List.mem_cons]
      by_cases hkey : key = text candidate
      · simp [hkey, hown]
      · simp [hkey]

theorem Sound.new (initial : List Key) (seed : UInt64) :
    (RandomHopPicker.new text ownDht initial seed).Sound text ownDht ∧
      (RandomHopPicker.new text ownDht initial seed).visited = ∅ ∧
      ∀ key, key ∈ (RandomHopPicker.new text ownDht initial seed).known ↔
        key ∈ initial.map text ∧ key ≠ ownDht := by
  have hempty : Sound text ownDht (⟨ownDht, [], ∅, ∅, seed⟩ : RandomHopPicker Key) :=
    ⟨rfl, by simp, .nil, by simp, by simp⟩
  rw [RandomHopPicker.new]
  simpa using hempty.addCandidates initial

/-- What the next hop of a picker is: an address that waits, or none when nothing waits. -/
theorem Sound.nextHop (h : picker.Sound text ownDht) :
    (∃ hop after, picker.nextHop text = (some hop, after) ∧ after.Sound text ownDht ∧
      text hop ∉ picker.visited ∧ after.known = picker.known ∧
      after.visited = insert (text hop) picker.visited ∧
      picker.pending.length = after.pending.length + 1) ∨
    picker.nextHop text = (none, picker) ∧ picker.pending = [] := by
  unfold RandomHopPicker.nextHop
  cases hlength : picker.pending.length with
  | zero => exact .inr ⟨rfl, List.length_eq_zero_iff.mp hlength⟩
  | succ rounds =>
    have hidx : picker.randomIndex.2 < picker.pending.length := Nat.mod_lt _ (by omega)
    obtain ⟨hop, hhop⟩ : ∃ hop, picker.pending[picker.randomIndex.2]? = some hop :=
      ⟨_, List.getElem?_eq_getElem hidx⟩
    have hperm := swapRemove_perm hhop
    have hwaits : hop ∈ picker.pending := hperm.mem_iff.mpr List.mem_cons_self
    have hfresh := h.fresh hop hwaits
    have hkeys := hperm.map text
    have hnodup := hkeys.nodup_iff.mp h.nodup
    rw [List.map_cons, List.nodup_cons] at hnodup
    refine .inl ⟨hop, { picker with
      rngState := picker.randomIndex.1
      pending := swapRemove picker.pending picker.randomIndex.2
      visited := insert (text hop) picker.visited }, ?_, ?_, hfresh, rfl, rfl, ?_⟩
    · simp only [pick, hhop, if_neg hfresh]
    · refine ⟨h.own, fun key => ?_, hnodup.2, fun other hother => ?_, h.notOwn⟩
      · rw [h.known, hkeys.mem_iff, List.map_cons, List.mem_cons, Finset.mem_insert]
        tauto
      · rw [Finset.mem_insert, not_or]
        refine ⟨fun heq => hnodup.1 (heq ▸ List.mem_map_of_mem hother), ?_⟩
        exact h.fresh other (hperm.mem_iff.mpr (List.mem_cons_of_mem _ hother))
    · rw [← hlength, hperm.length_eq, List.length_cons]

end RandomHopPicker

/-! ## Both pickers of a walk -/

variable {text} {ownDht : String} {run : HopRun Key} {preferred others : List Key}

/-- The picker that is asked first, and the other one. A random walk has nothing preferred. -/
def HopPicker.parts (ownDht : String) :
    HopPicker Key → RandomHopPicker Key × RandomHopPicker Key
  | .random picker => (⟨ownDht, [], ∅, ∅, 0⟩, picker)
  | .focused preferred fallback => (preferred, fallback)

/-- The record of a walk tells what its two pickers know and have handed out. -/
structure HopRun.Tracked (text : Key → String) (ownDht : String) (run : HopRun Key)
    (preferred others : List Key) : Prop where
  first : (run.picker.parts ownDht).1.Sound text ownDht
  second : (run.picker.parts ownDht).2.Sound text ownDht
  firstKnown : ∀ key, key ∈ (run.picker.parts ownDht).1.known ↔
    key ∈ preferred.map text ∧ key ≠ ownDht
  secondKnown : ∀ key, key ∈ (run.picker.parts ownDht).2.known ↔
    key ∈ others.map text ∧ key ≠ ownDht
  added : run.added = preferred ++ others
  returned : ∀ key, run.returned.count key =
    (if key ∈ (run.picker.parts ownDht).1.visited then 1 else 0) +
      if key ∈ (run.picker.parts ownDht).2.visited then 1 else 0

/-- The candidates that calls add. -/
def addedBy (calls : List (HopCall Key)) : List Key :=
  calls.flatMap fun
    | .addCandidates candidates => candidates
    | .nextHop => []

/-- The preferred targets, as far as the style of the walk uses them. -/
def preferredOf (style : WalkStyle) (preferred : List Key) : List Key :=
  match style with
  | .random => []
  | .focused => preferred

namespace HopRun

theorem Tracked.start (style : WalkStyle) (initial preferred : List Key)
    (seeds : UInt64 × UInt64) : (HopRun.start text style ownDht initial preferred seeds).Tracked
      text ownDht (preferredOf style preferred) initial := by
  have hempty : RandomHopPicker.Sound text ownDht (⟨ownDht, [], ∅, ∅, 0⟩ : RandomHopPicker Key) :=
    ⟨rfl, by simp, .nil, by simp, by simp⟩
  cases style with
  | random =>
    obtain ⟨hsound, hvisited, hknown⟩ := RandomHopPicker.Sound.new initial seeds.1
    refine ⟨hempty, hsound, fun key => by simp [HopRun.start, makeHopPicker, HopPicker.parts,
      preferredOf], hknown, rfl, fun key => ?_⟩
    simp [HopRun.start, makeHopPicker, HopPicker.parts, hvisited]
  | focused =>
    obtain ⟨hfirst, hvisited, hpreferred⟩ := RandomHopPicker.Sound.new preferred seeds.1
    obtain ⟨hsecond, hvisited', hfallback⟩ := RandomHopPicker.Sound.new initial seeds.2
    refine ⟨hfirst, hsecond, hpreferred, hfallback, rfl, fun key => ?_⟩
    simp [HopRun.start, makeHopPicker, HopPicker.parts, hvisited, hvisited']

section

variable (h : run.Tracked text ownDht preferred others)

include h

theorem Tracked.addCandidates
    (candidates : List Key) : (run.call text (.addCandidates candidates)).Tracked text ownDht
      preferred (others ++ candidates) := by
  have hparts : ((run.picker.addCandidates text candidates).parts ownDht) =
      ((run.picker.parts ownDht).1,
        ((run.picker.parts ownDht).2.addCandidates text candidates).1) := by
    cases run.picker <;> rfl
  obtain ⟨hsound, hvisited, hknown⟩ := h.second.addCandidates candidates
  constructor <;> simp only [call, hparts, hvisited]
  · exact h.first
  · exact hsound
  · exact h.firstKnown
  · intro key
    rw [hknown, h.secondKnown, List.map_append, List.mem_append, or_and_right]
  · rw [h.added, List.append_assoc]
  · exact h.returned

/-- The first picker hands out a target, or the second does and the first has nothing left, or
neither has. -/
theorem Tracked.nextHop :
    (∃ hop picker, run.picker.nextHop text = (some hop, picker) ∧
      (run.call text .nextHop).Tracked text ownDht preferred others ∧
      (run.picker.parts ownDht).1.pending.length + (run.picker.parts ownDht).2.pending.length =
        (picker.parts ownDht).1.pending.length + (picker.parts ownDht).2.pending.length + 1) ∨
    run.picker.nextHop text = (none, run.picker) ∧ run.call text .nextHop = run ∧
      (run.picker.parts ownDht).1.pending = [] ∧ (run.picker.parts ownDht).2.pending = [] := by
  rcases h.first.nextHop with
    ⟨hop, after, hnext, hsound, hfresh, hknown, hvisited, hlength⟩ | ⟨hnone, hfirst⟩
  · obtain ⟨picker, hpicker, hparts⟩ : ∃ picker, run.picker.nextHop text = (some hop, picker) ∧
        picker.parts ownDht = (after, (run.picker.parts ownDht).2) := by
      cases hrun : run.picker with
      | random second =>
        rw [hrun] at hnext
        exact absurd (congrArg Prod.fst hnext) (Option.some_ne_none hop).symm
      | focused first second =>
        simp only [hrun, HopPicker.parts] at hnext
        exact ⟨.focused after second, by simp only [HopPicker.nextHop, hnext], rfl⟩
    refine .inl ⟨hop, picker, hpicker, ?_, ?_⟩
    · constructor <;> simp only [call, hpicker, hparts]
      · exact hsound
      · exact h.second
      · rw [hknown]
        exact h.firstKnown
      · exact h.secondKnown
      · exact h.added
      · intro key
        rw [List.count_cons, h.returned, hvisited]
        by_cases hkey : text hop = key
        · subst hkey
          simp [hfresh, Nat.add_comm]
        · simp [hkey, Ne.symm hkey]
    · simp only [hparts, hlength]
      omega
  · rcases h.second.nextHop with
      ⟨hop, after, hnext, hsound, hfresh, hknown, hvisited, hlength⟩ | ⟨hnone', hsecond⟩
    · obtain ⟨picker, hpicker, hparts⟩ : ∃ picker, run.picker.nextHop text = (some hop, picker) ∧
          picker.parts ownDht = ((run.picker.parts ownDht).1, after) := by
        cases hrun : run.picker with
        | random second =>
          simp only [hrun, HopPicker.parts] at hnext
          exact ⟨.random after, by simp only [HopPicker.nextHop, hnext], rfl⟩
        | focused first second =>
          simp only [hrun, HopPicker.parts] at hnext hnone
          exact ⟨.focused first after, by simp only [HopPicker.nextHop, hnext, hnone], rfl⟩
      refine .inl ⟨hop, picker, hpicker, ?_, ?_⟩
      · constructor <;> simp only [call, hpicker, hparts]
        · exact h.first
        · exact hsound
        · exact h.firstKnown
        · rw [hknown]
          exact h.secondKnown
        · exact h.added
        · intro key
          rw [List.count_cons, h.returned, hvisited]
          by_cases hkey : text hop = key
          · subst hkey
            simp [hfresh]
          · simp [hkey, Ne.symm hkey]
      · simp only [hparts, hlength]
        omega
    · have hpicker : run.picker.nextHop text = (none, run.picker) := by
        cases hrun : run.picker with
        | random second =>
          simp only [hrun, HopPicker.parts] at hnone'
          simp only [HopPicker.nextHop, hnone']
        | focused first second =>
          simp only [hrun, HopPicker.parts] at hnone hnone'
          simp only [HopPicker.nextHop, hnone', hnone]
      exact .inr ⟨hpicker, by simp only [call, hpicker], hfirst, hsecond⟩

theorem Tracked.calls (calls : List (HopCall Key)) :
    (calls.foldl (call text) run).Tracked text ownDht preferred (others ++ addedBy calls) := by
  induction calls generalizing run others with
  | nil => simpa [addedBy] using h
  | cons request calls ih =>
    rw [List.foldl_cons]
    cases request with
    | addCandidates candidates =>
      have hrest := ih (h.addCandidates candidates)
      rwa [List.append_assoc] at hrest
    | nextHop =>
      rcases h.nextHop with ⟨_, _, -, htracked, -⟩ | ⟨-, hsame, -⟩
      · exact ih htracked
      · rw [hsame]
        exact ih h

/-- A walk that is asked often enough has handed out all that its pickers know. -/
theorem Tracked.drained : ∃ rounds, ∀ picker,
      ((List.replicate rounds HopCall.nextHop).foldl (call text) run).picker = picker →
      (picker.parts ownDht).1.pending = [] ∧ (picker.parts ownDht).2.pending = [] := by
  generalize hwaiting : (run.picker.parts ownDht).1.pending.length +
    (run.picker.parts ownDht).2.pending.length = waiting
  induction waiting generalizing run with
  | zero =>
    refine ⟨0, fun picker hpicker => ?_⟩
    subst hpicker
    simpa using hwaiting
  | succ waiting ih =>
    rcases h.nextHop with ⟨hop, picker, hpicker, htracked, hlength⟩ | ⟨-, -, hfirst, hsecond⟩
    · have hleft : (run.call text .nextHop).picker = picker := by simp only [call, hpicker]
      obtain ⟨rounds, hdrained⟩ := ih htracked (by rw [hleft]; omega)
      exact ⟨rounds + 1, hdrained⟩
    · simp [hfirst, hsecond] at hwaiting

/-- When both pickers have nothing left, an address that both know has been handed out twice. -/
theorem Tracked.picksOnce_iff :
    run.WellPicked text ownDht ↔ ∀ key ∈ (run.picker.parts ownDht).1.visited,
      key ∉ (run.picker.parts ownDht).2.visited := by
  constructor
  · intro hpicked key hfirst hsecond
    have hcount := h.returned key
    rw [if_pos hfirst, if_pos hsecond] at hcount
    have honce := List.nodup_iff_count_le_one.mp hpicked.once key
    omega
  · intro hdisjoint
    have hfirstKnown := fun key hkey => (h.firstKnown key).mp ((h.first.known key).mpr (.inl hkey))
    have hsecondKnown := fun key hkey =>
      (h.secondKnown key).mp ((h.second.known key).mpr (.inl hkey))
    refine ⟨fun hmem => ?_, List.nodup_iff_count_le_one.mpr fun key => ?_, ?_⟩
    · have hcount := List.count_pos_iff.mpr hmem
      rw [h.returned, if_neg fun hkey => (hfirstKnown _ hkey).2 rfl,
        if_neg fun hkey => (hsecondKnown _ hkey).2 rfl] at hcount
      omega
    · rw [h.returned]
      split <;> split <;> first | omega | skip
      exact absurd ‹_› (hdisjoint key ‹_›)
    · intro hnone candidate hcandidate hown
      rcases h.nextHop with ⟨hop, picker, hpicker, -⟩ | ⟨-, -, hfirst, hsecond⟩
      · rw [hpicker] at hnone
        cases hnone
      · refine List.count_pos_iff.mp ?_
        rw [h.returned]
        rw [h.added, List.mem_append] at hcandidate
        rcases hcandidate with hpreferred | hother
        · have hknown := (h.firstKnown _).mpr ⟨List.mem_map_of_mem hpreferred, hown⟩
          rw [h.first.known, hfirst] at hknown
          rw [if_pos (by simpa using hknown)]
          omega
        · have hknown := (h.secondKnown _).mpr ⟨List.mem_map_of_mem hother, hown⟩
          rw [h.second.known, hsecond] at hknown
          rw [Nat.add_comm, if_pos (by simpa using hknown)]
          omega

end

end HopRun

/-- A walk of either style, whatever calls are made of it, never hands out the own address, hands
out no other twice, and hands out each before it says that there is none left, if and only if no
other address is both among the preferred targets of a focused walk and among those that it starts
with or is given later. -/
theorem wellPicked_iff (text : Key → String) (style : WalkStyle) (ownDht : String)
    (initial preferred : List Key) (seeds : UInt64 × UInt64) (calls : List (HopCall Key)) :
    (∀ rounds, ((calls ++ List.replicate rounds HopCall.nextHop).foldl (HopRun.call text)
      (HopRun.start text style ownDht initial preferred seeds)).WellPicked text ownDht) ↔
    ∀ key ∈ (preferredOf style preferred).map text, key ≠ ownDht →
      key ∉ (initial ++ addedBy calls).map text := by
  have hcalls := (@HopRun.Tracked.start _ text ownDht style initial preferred seeds).calls calls
  have hrounds : ∀ rounds, ((calls ++ List.replicate rounds HopCall.nextHop).foldl
      (HopRun.call text) (HopRun.start text style ownDht initial preferred seeds)).Tracked text
        ownDht (preferredOf style preferred) (initial ++ addedBy calls) := fun rounds => by
    have hnone : addedBy (List.replicate rounds (.nextHop : HopCall Key)) = [] := by
      simp [addedBy]
    rw [List.foldl_append]
    simpa [hnone] using hcalls.calls (List.replicate rounds HopCall.nextHop)
  constructor
  · intro hpicked key hpreferred hown hother
    obtain ⟨rounds, hdrained⟩ := hcalls.drained
    rw [← List.foldl_append] at hdrained
    obtain ⟨hfirstEmpty, hsecondEmpty⟩ := hdrained _ rfl
    have htracked := hrounds rounds
    -- What both pickers know has left both of them.
    have hfirst := (htracked.firstKnown key).mpr ⟨hpreferred, hown⟩
    have hsecond := (htracked.secondKnown key).mpr ⟨hother, hown⟩
    rw [htracked.first.known, hfirstEmpty] at hfirst
    rw [htracked.second.known, hsecondEmpty] at hsecond
    exact htracked.picksOnce_iff.mp (hpicked _) key (by simpa using hfirst) (by simpa using hsecond)
  · intro hdisjoint rounds
    have htracked := hrounds rounds
    refine htracked.picksOnce_iff.mpr fun key hfirst hsecond => ?_
    obtain ⟨hpreferred, hown⟩ :=
      (htracked.firstKnown key).mp ((htracked.first.known key).mpr (.inl hfirst))
    exact hdisjoint key hpreferred hown
      ((htracked.secondKnown key).mp ((htracked.second.known key).mpr (.inl hsecond))).1

/-- A focused walk that starts with a preferred target hands it out twice. -/
theorem preferred_target_is_picked_twice :
    ¬ ∀ (style : WalkStyle) (ownDht : String) (initial preferred : List String)
      (seeds : UInt64 × UInt64) (calls : List (HopCall String)),
      (calls.foldl (HopRun.call id)
        (HopRun.start id style ownDht initial preferred seeds)).WellPicked id ownDht := by
  intro h
  have hpicked := h .focused "own" ["peer"] ["peer"] (1, 1) [.nextHop, .nextHop]
  exact absurd hpicked.once (by decide +kernel)

end VeilKnit.WalkTask
