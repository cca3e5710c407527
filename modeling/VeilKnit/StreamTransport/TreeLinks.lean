import VeilKnit.StreamTransport.ParticipantTree

/-!
# The shape of the participant tree

Parents, children and direct children agree, there is no cycle and no relay is over its
capacity: inserting a viewer and removing one keep that. Inserting also keeps the recorded
depths equal to the numbers of edges; removing keeps them so just when the viewer has no
grandchildren, whose depths are not corrected.
-/

namespace VeilKnit.StreamTransport

open Library ParentForest

namespace OutgoingStreamState

/-- The parent of a participant. -/
def parentOf (stream : OutgoingStreamState) (peer : MainDht) : Option MainDht :=
  (stream.participants.lookup peer).map ParticipantState.parentMainDht

/-! ## What the operations do to each participant -/

section Lookups

variable {stream : OutgoingStreamState} {source viewer peer : MainDht}

theorem lookup_withdraw : (stream.withdraw viewer).participants.lookup peer =
    if peer = viewer then none else
      (stream.participants.lookup peer).map fun participant =>
        { participant with children := participant.children.erase viewer } := by
  simp only [withdraw, AList.lookup_mapEntries]
  by_cases hpeer : peer = viewer
  · rw [if_pos hpeer, hpeer, AList.lookup_erase]
    rfl
  · rw [if_neg hpeer, AList.lookup_erase_ne hpeer]

@[simp]
theorem participants_eraseDirect :
    (stream.eraseDirect viewer).participants = stream.participants := rfl

/-- A new viewer is under its parent, which has one more child. -/
theorem lookup_insertViewer {relayCapacity : UInt16} {joinedAt : UInt64}
    (hsource : stream.participants.lookup source = none) :
    (stream.insertViewer source viewer relayCapacity joinedAt).participants.lookup peer =
      if peer = viewer then some {
        parentMainDht := (stream.chooseParent source).1
        children := ∅
        relayCapacity := min relayCapacity streamMaxRelayChildren
        depth := (stream.chooseParent source).2
        joinedAt }
      else (stream.participants.lookup peer).map fun participant =>
        if peer = (stream.chooseParent source).1 then
          { participant with children := insert viewer participant.children }
        else participant := by
  unfold insertViewer
  by_cases hpeer : peer = viewer
  · rw [if_pos hpeer, hpeer, AList.lookup_insert]
  rw [if_neg hpeer, AList.lookup_insert_ne hpeer]
  by_cases hparent : (stream.chooseParent source).1 = source
  · rw [if_pos hparent, hparent]
    by_cases hpeer : peer = source
    · rw [hpeer, hsource]
      rfl
    · simp only [if_neg hpeer, Option.map_id']
  · rw [if_neg hparent, AList.lookup_mapEntries]

theorem directChildren_insertViewer (stream : OutgoingStreamState) (source viewer : MainDht)
    (relayCapacity : UInt16) (joinedAt : UInt64) :
    (stream.insertViewer source viewer relayCapacity joinedAt).directChildren =
      if (stream.chooseParent source).1 = source then insert viewer stream.directChildren
      else stream.directChildren := by
  unfold insertViewer
  dsimp only
  split <;> rfl

variable {orphaned : List MainDht}

/-- Reattaching sends each of the orphans to the source. -/
theorem lookup_reattach : (reattach source stream orphaned).1.participants.lookup peer =
      (stream.participants.lookup peer).map fun participant =>
        if peer ∈ orphaned then { participant with parentMainDht := source, depth := 1 }
        else participant := by
  induction orphaned generalizing stream with
  | nil => simp [reattach]
  | cons child orphaned ih =>
    rw [reattach]
    split
    case isTrue hnone =>
      rw [ih]
      by_cases hpeer : peer = child
      · rw [hpeer, hnone]
        rfl
      · simp [hpeer]
    case isFalse =>
      simp only [ih, AList.lookup_mapEntries, Option.map_map]
      congr 1
      funext participant
      by_cases hpeer : peer = child <;> simp [hpeer]

theorem directChildren_reattach :
    peer ∈ (reattach source stream orphaned).1.directChildren ↔ peer ∈ stream.directChildren ∨
        peer ∈ orphaned ∧ stream.participants.lookup peer ≠ none := by
  induction orphaned generalizing stream with
  | nil => simp [reattach]
  | cons child orphaned ih =>
    rw [reattach]
    split
    case isTrue hnone =>
      rw [ih]
      by_cases hpeer : peer = child
      · subst hpeer
        simp [hnone]
      · simp [hpeer]
    case isFalse hsome =>
      simp only [ih, AList.lookup_mapEntries, Finset.mem_insert, List.mem_cons]
      by_cases hpeer : peer = child
      · subst hpeer
        simp [hsome]
      · simp [hpeer]

variable {removed : ParticipantState}

/-- Removing a viewer reattaches its children to the source. -/
theorem lookup_remove (hremoved : stream.participants.lookup viewer = some removed) :
    (stream.removeParticipantAndReassign source viewer).1.participants.lookup peer =
      if peer = viewer then none else
        (stream.participants.lookup peer).map fun participant =>
          if peer ∈ removed.children then
            { participant with
              parentMainDht := source
              children := participant.children.erase viewer
              depth := 1 }
          else { participant with children := participant.children.erase viewer } := by
  unfold removeParticipantAndReassign
  rw [hremoved]
  simp only [lookup_reattach, participants_eraseDirect, lookup_withdraw, Finset.mem_sort]
  by_cases hpeer : peer = viewer
  · rw [if_pos hpeer, if_pos hpeer]
    rfl
  · rw [if_neg hpeer, if_neg hpeer, Option.map_map]
    rfl

theorem directChildren_remove (hremoved : stream.participants.lookup viewer = some removed) :
    peer ∈ (stream.removeParticipantAndReassign source viewer).1.directChildren ↔
      peer ≠ viewer ∧ (peer ∈ stream.directChildren ∨
        peer ∈ removed.children ∧ stream.participants.lookup peer ≠ none) := by
  unfold removeParticipantAndReassign
  rw [hremoved]
  simp only [directChildren_reattach, participants_eraseDirect, lookup_withdraw, Finset.mem_sort]
  by_cases hpeer : peer = viewer
  · simp [hpeer, eraseDirect]
  · simp [hpeer, eraseDirect, withdraw]

end Lookups

/-! ## The tree -/

/-- The four places agree: each participant is a child of its parent, no participant is
above itself, no relay is over its capacity, and depths are numbers of edges. -/
structure WellFormed (source : MainDht) (stream : OutgoingStreamState) : Prop where
  listed : ∀ peer participant, stream.participants.lookup peer = some participant →
    (participant.parentMainDht = source ∧ peer ∈ stream.directChildren) ∨
      ∃ above, stream.participants.lookup participant.parentMainDht = some above ∧
        peer ∈ above.children
  acyclic : ∀ peer, ¬ Relation.TransGen (fun a b => stream.parentOf a = some b) peer peer
  capacity : ∀ peer participant, stream.participants.lookup peer = some participant →
    participant.children.card ≤ participant.relayCapacity.toNat
  depth : ∀ peer participant, stream.participants.lookup peer = some participant →
    Edges stream.parentOf source peer participant.depth.toNat

/-- What holds of parents and children without regard to depths. -/
structure Linked (source : MainDht) (stream : OutgoingStreamState) : Prop where
  source_absent : stream.participants.lookup source = none
  listed : ∀ peer participant, stream.participants.lookup peer = some participant →
    (participant.parentMainDht = source ∧ peer ∈ stream.directChildren) ∨
      ∃ above, stream.participants.lookup participant.parentMainDht = some above ∧
        peer ∈ above.children
  child : ∀ peer participant, stream.participants.lookup peer = some participant →
    ∀ child ∈ participant.children, stream.parentOf child = some peer
  direct : ∀ child ∈ stream.directChildren, stream.parentOf child = some source
  rooted : ∀ peer participant, stream.participants.lookup peer = some participant →
    ∃ n, Edges stream.parentOf source peer n
  capacity : ∀ peer participant, stream.participants.lookup peer = some participant →
    participant.children.card ≤ participant.relayCapacity.toNat
  count : stream.participants.keys.length ≤ streamMaxViewers

/-- Every recorded depth is the number of edges to the source. -/
def DepthsExact (source : MainDht) (stream : OutgoingStreamState) : Prop :=
  ∀ peer participant, stream.participants.lookup peer = some participant →
    Edges stream.parentOf source peer participant.depth.toNat

section Tree

variable {stream stream' : OutgoingStreamState} {source viewer peer parent : MainDht}
  {participant removed : ParticipantState} {relayCapacity : UInt16} {joinedAt : UInt64}

theorem parentOf_eq_some : stream.parentOf peer = some parent ↔
    ∃ participant, stream.participants.lookup peer = some participant ∧
      participant.parentMainDht = parent :=
  Option.map_eq_some_iff

theorem parentOf_of_lookup (h : stream.participants.lookup peer = some participant) :
    stream.parentOf peer = some participant.parentMainDht :=
  parentOf_eq_some.mpr ⟨participant, h, rfl⟩

theorem Linked.source_root (h : stream.Linked source) : stream.parentOf source = none := by
  rw [parentOf, h.source_absent]
  rfl

theorem Linked.wellFormed (h : stream.Linked source) (hdepth : stream.DepthsExact source) :
    stream.WellFormed source := by
  refine ⟨h.listed, fun peer hcycle => ?_, h.capacity, hdepth⟩
  -- A peer on a cycle has a parent, so it is a participant and under the source.
  obtain ⟨parent, hparent⟩ : ∃ parent, stream.parentOf peer = some parent := by
    cases hcycle using Relation.TransGen.head_induction_on with
    | single hparent => exact ⟨_, hparent⟩
    | head hparent _ => exact ⟨_, hparent⟩
  obtain ⟨participant, hlookup, _⟩ := parentOf_eq_some.mp hparent
  obtain ⟨n, hedges⟩ := h.rooted peer participant hlookup
  exact hedges.acyclic h.source_root hcycle

/-- A parent is the source, or a participant that lists the child. -/
theorem Linked.parent_cases (h : stream.Linked source)
    (hparent : stream.parentOf peer = some parent) :
    parent = source ∨ ∃ above, stream.participants.lookup parent = some above ∧
      peer ∈ above.children := by
  obtain ⟨participant, hlookup, rfl⟩ := parentOf_eq_some.mp hparent
  rcases h.listed peer participant hlookup with ⟨hsource, _⟩ | habove
  · exact .inl hsource
  · exact .inr habove

theorem length_keys_le (stream : OutgoingStreamState) (peers : List MainDht)
    (h : ∀ peer, stream.participants.lookup peer ≠ none → peer ∈ peers) :
    stream.participants.keys.length ≤ peers.length := by
  have hsub : stream.participants.keys ⊆ peers := by
    intro peer hpeer
    apply h
    rw [Ne, AList.lookup_eq_none, not_not]
    exact AList.mem_keys.mpr hpeer
  exact (stream.participants.keys_nodup.subperm hsub).length_le

theorem mem_keys_of_lookup (h : stream.participants.lookup peer ≠ none) :
    peer ∈ stream.participants.keys := by
  rw [Ne, AList.lookup_eq_none, not_not] at h
  exact AList.mem_keys.mp h

/-! ## Trees that are the same -/

structure SameTree (stream stream' : OutgoingStreamState) : Prop where
  lookup : ∀ peer, stream'.participants.lookup peer = stream.participants.lookup peer
  directChildren : stream'.directChildren = stream.directChildren

theorem SameTree.refl : SameTree stream stream := ⟨fun _ => rfl, rfl⟩

theorem SameTree.parentOf (h : SameTree stream stream') : stream'.parentOf = stream.parentOf := by
  funext peer
  rw [OutgoingStreamState.parentOf, OutgoingStreamState.parentOf, h.lookup]

theorem Linked.congr (h : stream.Linked source) (hsame : SameTree stream stream') :
    stream'.Linked source where
  source_absent := (hsame.lookup source).trans h.source_absent
  listed peer participant hlookup := by
    rw [hsame.directChildren, hsame.lookup]
    exact h.listed peer participant ((hsame.lookup peer).symm.trans hlookup)
  child peer participant hlookup := by
    rw [hsame.parentOf]
    exact h.child peer participant ((hsame.lookup peer).symm.trans hlookup)
  direct := by
    rw [hsame.parentOf, hsame.directChildren]
    exact h.direct
  rooted peer participant hlookup := by
    rw [hsame.parentOf]
    exact h.rooted peer participant ((hsame.lookup peer).symm.trans hlookup)
  capacity peer participant hlookup :=
    h.capacity peer participant ((hsame.lookup peer).symm.trans hlookup)
  count := by
    refine le_trans (length_keys_le stream' _ fun peer hpeer => ?_) h.count
    rw [hsame.lookup] at hpeer
    exact mem_keys_of_lookup hpeer

theorem DepthsExact.congr (h : stream.DepthsExact source) (hsame : SameTree stream stream') :
    stream'.DepthsExact source := by
  intro peer participant hlookup
  rw [hsame.parentOf]
  exact h peer participant ((hsame.lookup peer).symm.trans hlookup)

/-! ## A new viewer -/

/-- The parent that is chosen: a participant with room, or the source. -/
theorem chooseParent_cases (stream : OutgoingStreamState) (source : MainDht) :
    stream.chooseParent source = (source, 1) ∨
    ∃ peer participant, stream.participants.lookup peer = some participant ∧
      HasCapacity participant ∧ stream.chooseParent source = (peer, deeper participant.depth) := by
  unfold chooseParent chooseParentExcluding
  dsimp only
  split
  case h_1 entry hentry =>
    right
    have hmem := List.argmin_mem hentry
    obtain ⟨hentries, hkept⟩ := List.mem_filter.mp hmem
    have hcapacity : HasCapacity entry.2 := (of_decide_eq_true hkept).2
    exact ⟨entry.1, entry.2, AList.mem_lookup_iff.mpr hentries, hcapacity, rfl⟩
  case h_2 =>
    left
    split <;> rfl

theorem parentOf_insertViewer (hsource : stream.participants.lookup source = none) :
    (stream.insertViewer source viewer relayCapacity joinedAt).parentOf peer =
      if peer = viewer then some (stream.chooseParent source).1 else stream.parentOf peer := by
  unfold parentOf
  rw [lookup_insertViewer hsource]
  split
  · rfl
  · rw [Option.map_map]
    congr 1
    funext participant
    by_cases hpeer : peer = (stream.chooseParent source).1 <;> simp [hpeer]

/-- A participant with room for a child has fewer children than its capacity. -/
theorem HasCapacity.card_lt (h : HasCapacity participant)
    (hcard : participant.children.card ≤ participant.relayCapacity.toNat) :
    participant.children.card < participant.relayCapacity.toNat := by
  have hsmall : participant.relayCapacity.toNat < 2 ^ 16 := participant.relayCapacity.toNat_lt
  have hlt := UInt16.lt_iff_toNat_lt.mp h
  rwa [UInt16.toNat_ofNat_of_lt' (by simp only [UInt16.size]; omega)] at hlt

theorem chooseParent_ne (hfresh : stream.participants.lookup viewer = none)
    (hviewer : viewer ≠ source) : (stream.chooseParent source).1 ≠ viewer := by
  rcases stream.chooseParent_cases source with hchoice | ⟨q, above, hlookup, _, hchoice⟩
  · rw [hchoice]
    exact hviewer.symm
  · rw [hchoice]
    rintro rfl
    rw [hfresh] at hlookup
    cases hlookup

section Insert

variable (h : stream.Linked source) (hfresh : stream.participants.lookup viewer = none)
  (hviewer : viewer ≠ source)

include h hfresh hviewer

/-- No one is under a viewer that has not joined. -/
theorem Linked.parent_ne (hparent : stream.parentOf peer = some parent) : parent ≠ viewer := by
  rintro rfl
  rcases h.parent_cases hparent with rfl | ⟨above, habove, _⟩
  · exact hviewer rfl
  · rw [hfresh] at habove
    cases habove

/-- The chains of the others stay as they are. -/
theorem Linked.edges_insertViewer {n : Nat} (hedges : Edges stream.parentOf source peer n)
    (hpeer : peer ≠ viewer) :
    Edges (stream.insertViewer source viewer relayCapacity joinedAt).parentOf source peer n := by
  apply hedges.transfer (S := fun peer => peer ≠ viewer) hpeer
  intro a b ha hparent
  refine ⟨h.parent_ne hfresh hviewer hparent, ?_⟩
  rw [parentOf_insertViewer h.source_absent, if_neg ha]
  exact hparent

/-- A new viewer is one edge further from the source than its parent. -/
theorem Linked.edges_viewer {n : Nat}
    (hedges : Edges stream.parentOf source (stream.chooseParent source).1 n)
    (hparent : (stream.chooseParent source).1 ≠ viewer) :
    Edges (stream.insertViewer source viewer relayCapacity joinedAt).parentOf source viewer
      (n + 1) := by
  refine .step ?_ (h.edges_insertViewer hfresh hviewer hedges hparent)
  rw [parentOf_insertViewer h.source_absent, if_pos rfl]

theorem Linked.insertViewer (hcount : stream.participants.keys.length < streamMaxViewers) :
    (stream.insertViewer source viewer relayCapacity joinedAt).Linked source where
  source_absent := by
    rw [lookup_insertViewer h.source_absent, if_neg hviewer.symm, h.source_absent]
    rfl
  listed peer participant hlookup := by
    rw [lookup_insertViewer h.source_absent] at hlookup
    rw [directChildren_insertViewer]
    split at hlookup
    case isTrue hpeer =>
      cases hlookup
      rcases stream.chooseParent_cases source with hchoice | ⟨q, above, habove, _, hchoice⟩
      · left
        simp [hchoice, hpeer]
      right
      have hq : q ≠ viewer := by
        have hne := chooseParent_ne hfresh hviewer
        rwa [hchoice] at hne
      refine ⟨{ above with children := insert viewer above.children }, ?_, ?_⟩
      · rw [hchoice, lookup_insertViewer h.source_absent, hchoice, if_neg hq, habove]
        simp
      · rw [hpeer]
        exact Finset.mem_insert_self viewer above.children
    case isFalse hpeer =>
    obtain ⟨old, hold, rfl⟩ := Option.map_eq_some_iff.mp hlookup
    have hsame : (if peer = (stream.chooseParent source).1 then
        { old with children := insert viewer old.children } else old).parentMainDht =
          old.parentMainDht := by
      split <;> rfl
    rw [hsame]
    rcases h.listed peer old hold with ⟨hparent, hdirect⟩ | ⟨above, habove, hchild⟩
    · left
      refine ⟨hparent, ?_⟩
      split
      · exact Finset.mem_insert_of_mem hdirect
      · exact hdirect
    right
    have hne : old.parentMainDht ≠ viewer := h.parent_ne hfresh hviewer (parentOf_of_lookup hold)
    refine ⟨_, by rw [lookup_insertViewer h.source_absent, if_neg hne, habove]; rfl, ?_⟩
    split
    · exact Finset.mem_insert_of_mem hchild
    · exact hchild
  child peer participant hlookup child hchild := by
    rw [lookup_insertViewer h.source_absent] at hlookup
    rw [parentOf_insertViewer h.source_absent]
    split at hlookup
    case isTrue hpeer =>
      cases hlookup
      simp at hchild
    case isFalse hpeer =>
    obtain ⟨old, hold, rfl⟩ := Option.map_eq_some_iff.mp hlookup
    by_cases hnew : child = viewer
    · -- Only the chosen parent has the new viewer as a child.
      rw [if_pos hnew]
      split at hchild
      case isTrue hchosen => rw [hchosen]
      case isFalse =>
        have hparent := h.child peer old hold child hchild
        obtain ⟨_, hlookup, _⟩ := parentOf_eq_some.mp hparent
        rw [hnew, hfresh] at hlookup
        cases hlookup
    · rw [if_neg hnew]
      apply h.child peer old hold child
      split at hchild
      · exact (Finset.mem_insert.mp hchild).resolve_left hnew
      · exact hchild
  direct child hchild := by
    rw [directChildren_insertViewer] at hchild
    rw [parentOf_insertViewer h.source_absent]
    by_cases hnew : child = viewer
    · rw [if_pos hnew]
      split at hchild
      case isTrue hchosen => rw [hchosen]
      case isFalse =>
        obtain ⟨_, hlookup, _⟩ := parentOf_eq_some.mp (h.direct child hchild)
        rw [hnew, hfresh] at hlookup
        cases hlookup
    · rw [if_neg hnew]
      apply h.direct child
      split at hchild
      · exact (Finset.mem_insert.mp hchild).resolve_left hnew
      · exact hchild
  rooted peer participant hlookup := by
    by_cases hpeer : peer = viewer
    · subst hpeer
      have hne := chooseParent_ne hfresh hviewer
      rcases stream.chooseParent_cases source with hchoice | ⟨q, above, habove, _, hchoice⟩
      · exact ⟨_, h.edges_viewer hfresh hviewer (by rw [hchoice]; exact .root) hne⟩
      · obtain ⟨n, hedges⟩ := h.rooted q above habove
        exact ⟨_, h.edges_viewer hfresh hviewer (by rw [hchoice]; exact hedges) hne⟩
    · rw [lookup_insertViewer h.source_absent, if_neg hpeer] at hlookup
      obtain ⟨old, hold, _⟩ := Option.map_eq_some_iff.mp hlookup
      obtain ⟨n, hedges⟩ := h.rooted peer old hold
      exact ⟨n, h.edges_insertViewer hfresh hviewer hedges hpeer⟩
  capacity peer participant hlookup := by
    rw [lookup_insertViewer h.source_absent] at hlookup
    split at hlookup
    case isTrue =>
      cases hlookup
      simp
    case isFalse =>
    obtain ⟨old, hold, rfl⟩ := Option.map_eq_some_iff.mp hlookup
    have hcard := h.capacity peer old hold
    split
    case isTrue hchosen =>
      -- The chosen parent had room for one more child.
      rcases stream.chooseParent_cases source with hchoice | ⟨q, above, habove, hroom, hchoice⟩
      · rw [hchosen, hchoice, h.source_absent] at hold
        cases hold
      · rw [hchosen, hchoice, habove] at hold
        obtain rfl := Option.some.inj hold
        calc (insert viewer above.children).card ≤ above.children.card + 1 :=
              Finset.card_insert_le _ _
          _ ≤ above.relayCapacity.toNat := hroom.card_lt hcard
    case isFalse => exact hcard
  count := by
    have hle := length_keys_le (stream.insertViewer source viewer relayCapacity joinedAt)
      (viewer :: stream.participants.keys) fun peer hpeer => by
        by_cases hnew : peer = viewer
        · exact hnew ▸ List.mem_cons_self
        · rw [lookup_insertViewer h.source_absent, if_neg hnew, Ne, Option.map_eq_none_iff] at hpeer
          exact List.mem_cons_of_mem _ (mem_keys_of_lookup hpeer)
    rw [List.length_cons] at hle
    omega

omit hfresh hviewer in
/-- No chain is longer than the limit on viewers, so a depth never saturates. -/
theorem Linked.deeper_toNat (hedges : Edges stream.parentOf source peer participant.depth.toNat) :
    (deeper participant.depth).toNat = participant.depth.toNat + 1 := by
  have hle : participant.depth.toNat ≤ stream.participants.keys.toFinset.card := by
    apply hedges.le_card h.source_root
    intro a b hparent
    obtain ⟨_, hlookup, _⟩ := parentOf_eq_some.mp hparent
    exact List.mem_toFinset.mpr (mem_keys_of_lookup (by rw [hlookup]; nofun))
  have hcard := List.toFinset_card_le stream.participants.keys
  have hcount := h.count
  simp only [streamMaxViewers] at hcount
  have hsmall : participant.depth.toNat + 1 < 2 ^ 16 := by omega
  rw [deeper, if_pos hsmall, UInt16.toNat_add]
  exact Nat.mod_eq_of_lt hsmall

theorem DepthsExact.insertViewer (hdepth : stream.DepthsExact source) :
    (stream.insertViewer source viewer relayCapacity joinedAt).DepthsExact source := by
  intro peer participant hlookup
  by_cases hpeer : peer = viewer
  · subst hpeer
    rw [lookup_insertViewer h.source_absent, if_pos rfl] at hlookup
    cases hlookup
    have hne := chooseParent_ne hfresh hviewer
    rcases stream.chooseParent_cases source with hchoice | ⟨q, above, habove, _, hchoice⟩
    · rw [hchoice]
      exact h.edges_viewer hfresh hviewer (by rw [hchoice]; exact .root) hne
    · have hedges := hdepth q above habove
      rw [hchoice, h.deeper_toNat hedges]
      exact h.edges_viewer hfresh hviewer (by rw [hchoice]; exact hedges) hne
  rw [lookup_insertViewer h.source_absent, if_neg hpeer] at hlookup
  obtain ⟨old, hold, rfl⟩ := Option.map_eq_some_iff.mp hlookup
  have hsame : (if peer = (stream.chooseParent source).1 then
      { old with children := insert viewer old.children } else old).depth = old.depth := by
    split <;> rfl
  rw [hsame]
  exact h.edges_insertViewer hfresh hviewer (hdepth peer old hold) hpeer

/-- A viewer that is taken out again leaves the tree as it was. -/
theorem Linked.sameTree_withdraw : SameTree stream
      (((stream.insertViewer source viewer relayCapacity joinedAt).withdraw viewer).eraseDirect
        viewer) := by
  constructor
  · intro peer
    rw [participants_eraseDirect, lookup_withdraw, lookup_insertViewer h.source_absent]
    by_cases hpeer : peer = viewer
    · subst hpeer
      rw [if_pos rfl, hfresh]
    rw [if_neg hpeer, if_neg hpeer, Option.map_map]
    cases hlookup : stream.participants.lookup peer with
    | none => rfl
    | some participant =>
      have hnot : viewer ∉ participant.children := by
        intro hchild
        obtain ⟨_, hsome, _⟩ := parentOf_eq_some.mp (h.child peer participant hlookup viewer hchild)
        rw [hfresh] at hsome
        cases hsome
      by_cases hchosen : peer = (stream.chooseParent source).1 <;> simp [hchosen, hnot]
  have hnot : viewer ∉ stream.directChildren := by
    intro hchild
    obtain ⟨_, hsome, _⟩ := parentOf_eq_some.mp (h.direct viewer hchild)
    rw [hfresh] at hsome
    cases hsome
  have hdirect := stream.directChildren_insertViewer source viewer relayCapacity joinedAt
  simp only [eraseDirect, withdraw, hdirect]
  split
  · exact Finset.erase_insert hnot
  · exact Finset.erase_eq_of_notMem hnot

/-- Where the parent is a relay, the direct children need no correction. -/
theorem Linked.sameTree_withdraw_relay (hparent : (stream.chooseParent source).1 ≠ source) :
    SameTree stream ((stream.insertViewer source viewer relayCapacity joinedAt).withdraw viewer) := by
  have hsame : SameTree stream (((stream.insertViewer source viewer relayCapacity joinedAt).withdraw
      viewer).eraseDirect viewer) := h.sameTree_withdraw hfresh hviewer
  refine ⟨hsame.lookup, ?_⟩
  have hdirect := stream.directChildren_insertViewer source viewer relayCapacity joinedAt
  rw [if_neg hparent] at hdirect
  exact hdirect

end Insert

/-! ## A viewer that leaves -/

section Remove

variable (h : stream.Linked source) (hremoved : stream.participants.lookup viewer = some removed)

include h hremoved

theorem Linked.viewer_ne_source : viewer ≠ source := by
  rintro rfl
  rw [h.source_absent] at hremoved
  cases hremoved

omit h in
theorem parentOf_remove : (stream.removeParticipantAndReassign source viewer).1.parentOf peer =
    if peer = viewer then none
    else if peer ∈ removed.children then (stream.parentOf peer).map fun _ => source
    else stream.parentOf peer := by
  unfold parentOf
  rw [lookup_remove hremoved]
  split
  · rfl
  · split
    case isTrue => simp [Function.comp_def]
    case isFalse => simp [Function.comp_def]

/-- The children of the viewer are those that have it as their parent. -/
theorem Linked.mem_children_iff : peer ∈ removed.children ↔ stream.parentOf peer = some viewer := by
  constructor
  · exact h.child viewer removed hremoved peer
  intro hparent
  rcases h.parent_cases hparent with hsource | ⟨above, habove, hchild⟩
  · exact absurd hsource (h.viewer_ne_source hremoved)
  · rw [hremoved] at habove
    cases habove
    exact hchild

theorem Linked.parentOf_orphan (horphan : peer ∈ removed.children) (hpeer : peer ≠ viewer) :
    (stream.removeParticipantAndReassign source viewer).1.parentOf peer = some source := by
  rw [parentOf_remove hremoved, if_neg hpeer, if_pos horphan,
    (h.mem_children_iff hremoved).mp horphan]
  rfl

/-- The chain of another participant is cut where it meets the viewer's children. -/
theorem Linked.edges_remove {n : Nat} (hedges : Edges stream.parentOf source peer n)
    (hpeer : peer ≠ viewer) :
    ∃ m, Edges (stream.removeParticipantAndReassign source viewer).1.parentOf source peer m := by
  induction hedges with
  | root => exact ⟨0, .root⟩
  | @step a b n hparent _ ih =>
    by_cases horphan : a ∈ removed.children
    · exact ⟨1, .step (h.parentOf_orphan hremoved horphan hpeer) .root⟩
    · have hb : b ≠ viewer := fun hviewer =>
        horphan ((h.mem_children_iff hremoved).mpr (hviewer ▸ hparent))
      obtain ⟨m, hm⟩ := ih hb
      refine ⟨m + 1, .step ?_ hm⟩
      rw [parentOf_remove hremoved, if_neg hpeer, if_neg horphan, hparent]

theorem Linked.remove : (stream.removeParticipantAndReassign source viewer).1.Linked source where
  source_absent := by
    rw [lookup_remove hremoved, if_neg (h.viewer_ne_source hremoved).symm, h.source_absent]
    rfl
  listed peer participant hlookup := by
    rw [lookup_remove hremoved] at hlookup
    split at hlookup
    case isTrue => cases hlookup
    case isFalse hpeer =>
    obtain ⟨old, hold, rfl⟩ := Option.map_eq_some_iff.mp hlookup
    by_cases horphan : peer ∈ removed.children
    · left
      rw [if_pos horphan, directChildren_remove hremoved]
      exact ⟨rfl, hpeer, .inr ⟨horphan, by rw [hold]; nofun⟩⟩
    rw [if_neg horphan]
    rcases h.listed peer old hold with ⟨hparent, hdirect⟩ | ⟨above, habove, hchild⟩
    · left
      exact ⟨hparent, (directChildren_remove hremoved).mpr ⟨hpeer, .inl hdirect⟩⟩
    right
    have hne : old.parentMainDht ≠ viewer := by
      intro hparent
      rw [h.mem_children_iff hremoved, parentOf_of_lookup hold, hparent] at horphan
      exact horphan rfl
    refine ⟨_, by rw [lookup_remove hremoved, if_neg hne, habove]; rfl, ?_⟩
    split <;> exact Finset.mem_erase.mpr ⟨hpeer, hchild⟩
  child peer participant hlookup child hchild := by
    rw [lookup_remove hremoved] at hlookup
    split at hlookup
    case isTrue => cases hlookup
    case isFalse hpeer =>
    obtain ⟨old, hold, rfl⟩ := Option.map_eq_some_iff.mp hlookup
    have hold_child : child ∈ old.children.erase viewer := by
      split at hchild <;> exact hchild
    obtain ⟨hne, hmem⟩ := Finset.mem_erase.mp hold_child
    have hparent := h.child peer old hold child hmem
    have hnot : child ∉ removed.children := by
      rw [h.mem_children_iff hremoved, hparent, Option.some.injEq]
      exact hpeer
    rw [parentOf_remove hremoved, if_neg hne, if_neg hnot]
    exact hparent
  direct child hchild := by
    obtain ⟨hne, hdirect⟩ := (directChildren_remove hremoved).mp hchild
    by_cases horphan : child ∈ removed.children
    · exact h.parentOf_orphan hremoved horphan hne
    · rw [parentOf_remove hremoved, if_neg hne, if_neg horphan]
      rcases hdirect with hdirect | ⟨hmem, _⟩
      · exact h.direct child hdirect
      · exact absurd hmem horphan
  rooted peer participant hlookup := by
    rw [lookup_remove hremoved] at hlookup
    split at hlookup
    case isTrue => cases hlookup
    case isFalse hpeer =>
      obtain ⟨old, hold, _⟩ := Option.map_eq_some_iff.mp hlookup
      obtain ⟨n, hedges⟩ := h.rooted peer old hold
      exact h.edges_remove hremoved hedges hpeer
  capacity peer participant hlookup := by
    rw [lookup_remove hremoved] at hlookup
    split at hlookup
    case isTrue => cases hlookup
    case isFalse =>
      obtain ⟨old, hold, rfl⟩ := Option.map_eq_some_iff.mp hlookup
      have hcard := h.capacity peer old hold
      have hle := Finset.card_erase_le (s := old.children) (a := viewer)
      split <;> exact hle.trans hcard
  count := by
    refine le_trans (length_keys_le _ _ fun peer hpeer => ?_) h.count
    rw [lookup_remove hremoved] at hpeer
    split at hpeer
    · exact absurd rfl hpeer
    · rw [Ne, Option.map_eq_none_iff] at hpeer
      exact mem_keys_of_lookup hpeer

/-- Depths stay exact if the children of the viewer have no children. -/
theorem DepthsExact.remove (hdepth : stream.DepthsExact source)
    (hshallow : ∀ child ∈ removed.children, ∀ below,
      stream.participants.lookup child = some below → below.children = ∅) :
    (stream.removeParticipantAndReassign source viewer).1.DepthsExact source := by
  intro peer participant hlookup
  rw [lookup_remove hremoved] at hlookup
  split at hlookup
  case isTrue => cases hlookup
  case isFalse hpeer =>
  obtain ⟨old, hold, rfl⟩ := Option.map_eq_some_iff.mp hlookup
  by_cases horphan : peer ∈ removed.children
  · rw [if_pos horphan]
    exact .step (h.parentOf_orphan hremoved horphan hpeer) .root
  rw [if_neg horphan]
  -- The chain avoids the viewer and its children.
  apply (hdepth peer old hold).transfer
    (S := fun peer => peer ≠ viewer ∧ peer ∉ removed.children) ⟨hpeer, horphan⟩
  rintro a b ⟨ha, hnot⟩ hparent
  have hkept : (stream.removeParticipantAndReassign source viewer).1.parentOf a = some b := by
    rw [parentOf_remove hremoved, if_neg ha, if_neg hnot]
    exact hparent
  refine ⟨⟨?_, fun hb => ?_⟩, hkept⟩
  · rintro rfl
    exact hnot ((h.mem_children_iff hremoved).mpr hparent)
  rcases h.parent_cases hparent with rfl | ⟨below, hbelow, hchild⟩
  · have hsource := (h.mem_children_iff hremoved).mp hb
    rw [h.source_root] at hsource
    cases hsource
  · rw [hshallow b hb below hbelow] at hchild
    exact absurd hchild (Finset.notMem_empty a)

/-- The recorded depth of a grandchild is not corrected. -/
theorem DepthsExact.shallow_of_remove (hdepth : stream.DepthsExact source)
    (hdepth' : (stream.removeParticipantAndReassign source viewer).1.DepthsExact source) :
    ∀ child ∈ removed.children, ∀ below,
      stream.participants.lookup child = some below → below.children = ∅ := by
  intro child hchild below hbelow
  rw [Finset.eq_empty_iff_forall_notMem]
  intro grandchild hgrandchild
  have hup := h.child child below hbelow grandchild hgrandchild
  have hupper := (h.mem_children_iff hremoved).mp hchild
  obtain ⟨participant, hlookup, _⟩ := parentOf_eq_some.mp hup
  -- Before, the grandchild is two edges below the viewer, which is below the source.
  have hedges := hdepth grandchild participant hlookup
  obtain ⟨m, hm, hedges_child⟩ := hedges.above h.source_root hup
  obtain ⟨k, rfl, hedges_viewer⟩ := hedges_child.above h.source_root hupper
  have hviewer := h.viewer_ne_source hremoved
  have hk : k ≠ 0 := by
    rintro rfl
    cases hedges_viewer
    exact hviewer rfl
  have hne : ∀ peer n, Edges stream.parentOf source peer n → n ≠ k → peer ≠ viewer := by
    rintro peer n hn hnk rfl
    exact hnk (hn.unique h.source_root hedges_viewer)
  have hgrandchild_ne : grandchild ≠ viewer := hne _ _ hedges (by omega)
  have hchild_ne : child ≠ viewer := hne _ _ hedges_child (by omega)
  have hnot : grandchild ∉ removed.children := by
    rw [h.mem_children_iff hremoved, hup, Option.some.injEq]
    exact hchild_ne
  -- Afterwards it is two edges below the source.
  have hup' : (stream.removeParticipantAndReassign source viewer).1.parentOf grandchild =
      some child := by
    rw [parentOf_remove hremoved, if_neg hgrandchild_ne, if_neg hnot]
    exact hup
  have htwo := Edges.step hup' (.step (h.parentOf_orphan hremoved hchild hchild_ne) .root)
  have hrecorded := hdepth' grandchild _ (by
    rw [lookup_remove hremoved, if_neg hgrandchild_ne, hlookup, Option.map_some, if_neg hnot])
  have hequal := hrecorded.unique (h.remove hremoved).source_root htwo
  dsimp only at hequal
  omega

end Remove

end Tree

end OutgoingStreamState

end VeilKnit.StreamTransport
