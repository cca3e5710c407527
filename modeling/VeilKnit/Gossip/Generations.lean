import VeilKnit.Gossip.Steps

/-!
# Generations do not roll back while they are remembered

What the cache holds of an object it has announced, and every later announcement or relay is of
the same or a higher generation, unless the cache has meanwhile lost the entry: then nothing is
left that an older record would be compared with.
-/

namespace VeilKnit.Gossip

open Library

variable {Digest Score : Type} [DecidableEq Digest] {prim : Primitives Digest Score}
  {mainDht : String} {ans : Answers Digest} {s t : GossipState Digest}

/-- The node has told the application that it holds a generation of an object, or its
withdrawal. -/
structure Announcement where
  applicationId : String
  key : GossipObjectKey
  generation : Nat
  withdrawn : Bool

/-- A record may be shown after an announcement. -/
def Announcement.Allows (announcement : Announcement) (record : GossipRecord) : Prop :=
  announcement.generation ≤ record.generation ∧
    (announcement.withdrawn = true → announcement.generation = record.generation →
      record.withdrawn = true)

instance Announcement.decidableAllows (announcement : Announcement) (record : GossipRecord) :
    Decidable (announcement.Allows record) :=
  inferInstanceAs (Decidable (_ ∧ _))

def Effect.announces : Effect Score → List Announcement
  | .event (.objectUpdated applicationId key generation _) =>
    [⟨applicationId, key, generation, false⟩]
  | .event (.objectWithdrawn applicationId key generation) =>
    [⟨applicationId, key, generation, true⟩]
  | _ => []

/-- The records that an effect shows an application or passes on to peers. -/
def Effect.presents : Effect Score → List (String × GossipRecord)
  | .shown applicationId hit => [(applicationId, hit.record)]
  | .fanoutRecord applicationId record _ _ => [(applicationId, record)]
  | .queryResponse applicationId _ records => records.map fun record => (applicationId, record)
  | .event _ => []

/-- What a later effect presents is allowed by what an earlier one announces. -/
def Consistent (earlier later : Effect Score) : Prop :=
  ∀ announcement ∈ earlier.announces, ∀ presented ∈ later.presents,
    announcement.applicationId = presented.1 → announcement.key = presented.2.key →
      announcement.Allows presented.2

instance decidableConsistent (earlier later : Effect Score) :
    Decidable (Consistent earlier later) :=
  inferInstanceAs (Decidable (∀ announcement ∈ earlier.announces, _))

/-- No object is shown or passed on at a generation below one that was announced before, and
none unwithdrawn at the generation of a withdrawal. -/
def NoRollback (effects : List (Effect Score)) : Prop := effects.Pairwise Consistent

/-- A record for an object that the cache no longer holds is allowed by everything that the node
has announced of the object. -/
def Remembers (prim : Primitives Digest Score) (mainDht : String) (node : Node Digest Score)
    (label : Operation × Answers Digest) : Prop :=
  ∀ a, label.1.arrival prim mainDht label.2 node = some a →
    (a.found label.2 node.state).entry a.applicationId a.record.key = none →
      ∀ effect ∈ node.effects, ∀ announcement ∈ effect.announces,
        announcement.applicationId = a.applicationId → announcement.key = a.record.key →
          announcement.Allows a.record

/-- What the cache holds is allowed by what was announced. -/
def Current (effects : List (Effect Score)) (state : GossipState Digest) : Prop :=
  ∀ effect ∈ effects, ∀ announcement ∈ effect.announces, ∀ e,
    state.entry announcement.applicationId announcement.key = some e → announcement.Allows e.record

variable {announcement : Announcement}

theorem Announcement.Allows.of_lt {old new : GossipRecord}
    (h : announcement.Allows old) (newer : old.generation < new.generation) :
    announcement.Allows new := by
  refine ⟨h.1.trans newer.le, fun _ hsame => ?_⟩
  exact absurd (hsame ▸ h.1) (not_le.mpr newer)

/-- A change keeps the cache up to what was announced before it. -/
theorem Change.current {arrival : Option Arrival} {effects : List (Effect Score)}
    (h : Change prim ans arrival s t) (current : Current effects s)
    (remembers : ∀ a, arrival = some a → (a.found ans s).entry a.applicationId a.record.key = none →
        ∀ effect ∈ effects, ∀ announcement ∈ effect.announces,
          announcement.applicationId = a.applicationId → announcement.key = a.record.key →
            announcement.Allows a.record) :
    Current effects t := by
  intro effect heffect announcement hannounced e he
  have hbefore : ∀ e, s.entry announcement.applicationId announcement.key = some e →
      announcement.Allows e.record := current effect heffect announcement hannounced
  cases h with
  | kept apps _ =>
    rw [GossipState.entry, apps] at he
    exact hbefore e he
  | pruned now => exact hbefore e ((entry_pruneState _ _ _ e).mp he).2
  | @arrived a brought _ alive =>
    rcases Arrival.entry_after he with ⟨happ, hkey, rfl⟩ | hfound
    · rcases a.ingested_cases prim ans s with hstores | ⟨e, he, hkeeps⟩
      · rw [hstores.stored]
        cases hold : (a.found ans s).entry a.applicationId a.record.key with
        | none => exact remembers a brought hold effect heffect announcement hannounced happ hkey
        | some e₀ =>
          have hsince := ((entry_pruneState _ _ _ e₀).mp hold).2
          rw [← happ, ← hkey] at hsince
          exact (hbefore e₀ hsince).of_lt (hstores.newer e₀ hold)
      · have hsince := ((entry_pruneState _ _ _ e).mp he).2
        rw [← happ, ← hkey] at hsince
        rw [hkeeps.kept]
        exact hbefore e hsince
    · exact hbefore e ((entry_pruneState _ _ _ e).mp hfound).2
  | @confirmed app key old new hold record _ _ _ =>
    rcases entry_insert he with ⟨happ, hkey, rfl⟩ | hother
    · rw [record]
      exact hbefore old (by rw [happ, hkey]; exact hold)
    · exact hbefore e hother

variable {effect : Effect Score}

omit [DecidableEq Digest] in
/-- What an effect announces is what the cache holds. -/
theorem Reflects.allows (h : Reflects t effect)
    (announced : announcement ∈ effect.announces) {e : GossipCacheEntry Digest}
    (he : t.entry announcement.applicationId announcement.key = some e) :
    announcement.Allows e.record := by
  cases effect with
  | shown _ _ => cases announced
  | fanoutRecord _ _ _ _ => cases announced
  | queryResponse _ _ _ => cases announced
  | event event =>
    cases event with
    | conflictObserved _ _ _ => cases announced
    | queryMerged _ _ _ => cases announced
    | objectUpdated _ _ _ _ =>
      obtain rfl := List.mem_singleton.mp announced
      obtain ⟨e', he', hgeneration⟩ := h
      cases he.symm.trans he'
      exact ⟨hgeneration.ge, nofun⟩
    | objectWithdrawn _ _ _ =>
      obtain rfl := List.mem_singleton.mp announced
      obtain ⟨e', he', hgeneration, hwithdrawn⟩ := h
      cases he.symm.trans he'
      exact ⟨hgeneration.ge, fun _ _ => hwithdrawn⟩

omit [DecidableEq Digest] in
theorem Reflects.holds (h : Reflects t effect)
    {presented : String × GossipRecord} (hpresented : presented ∈ effect.presents) :
    t.Holds presented.1 presented.2 := by
  cases effect with
  | event _ => cases hpresented
  | shown _ _ =>
    obtain rfl := List.mem_singleton.mp hpresented
    exact h
  | fanoutRecord _ _ _ _ =>
    obtain rfl := List.mem_singleton.mp hpresented
    exact h
  | queryResponse _ _ _ =>
    obtain ⟨record, hrecord, rfl⟩ := List.mem_map.mp hpresented
    exact h record hrecord

/-- Every entry of the cache has been announced. -/
def Announced (node : Node Digest Score) : Prop :=
  ∀ applicationId key e, node.state.entry applicationId key = some e → ∃ effect ∈ node.effects,
      ⟨applicationId, key, e.record.generation, e.record.withdrawn⟩ ∈ effect.announces

/-- What holds of the node between steps. -/
structure Faithful (node : Node Digest Score) : Prop where
  keyed : Keyed node.state
  current : Current node.effects node.state
  noRollback : NoRollback node.effects
  announced : Announced node

theorem announces_storedEvent (applicationId : String) (record : GossipRecord)
    (verification : GossipVerificationState) :
    ⟨applicationId, record.key, record.generation, record.withdrawn⟩ ∈
      (.event (storedEvent applicationId record verification) : Effect Score).announces := by
  unfold storedEvent
  split
  case isTrue hwithdrawn =>
    rw [hwithdrawn]
    exact List.mem_singleton_self _
  case isFalse hshown =>
    rw [Bool.not_eq_true] at hshown
    rw [hshown]
    exact List.mem_singleton_self _

variable {node : Node Digest Score} {label : Operation × Answers Digest}

theorem Announced.step (h : Announced node) (keyed : Keyed node.state) :
    Announced (perform prim mainDht label.2 node label.1) := by
  obtain ⟨new, heffects, hstepped⟩ := perform_stepped prim mainDht label.2 node label.1
  intro applicationId key e he
  rw [heffects]
  rcases hstepped.told applicationId key e he with ⟨old, hold, hrecord⟩ | ⟨verification, htold⟩
  · obtain ⟨effect, heffect, hannounced⟩ := h applicationId key old hold
    rw [hrecord] at hannounced
    exact ⟨effect, List.mem_append_left _ heffect, hannounced⟩
  · refine ⟨_, List.mem_append_right _ htold, ?_⟩
    rw [← hstepped.change.keyed keyed applicationId key e he]
    exact announces_storedEvent applicationId e.record verification

theorem Faithful.step (h : Faithful node) (remembers : Remembers prim mainDht node label) :
    Faithful (perform prim mainDht label.2 node label.1) := by
  obtain ⟨new, heffects, hstepped⟩ := perform_stepped prim mainDht label.2 node label.1
  have hreflects := hstepped.reflects h.keyed
  have hold : Current node.effects (perform prim mainDht label.2 node label.1).state :=
    hstepped.change.current h.current remembers
  have hcurrent : Current (node.effects ++ new)
      (perform prim mainDht label.2 node label.1).state := by
    intro effect heffect announcement hannounced e he
    rcases List.mem_append.mp heffect with hbefore | hnew
    · exact hold effect hbefore announcement hannounced e he
    · exact (hreflects effect hnew).allows hannounced he
  -- Whatever is presented now is what the cache holds now.
  have hconsistent : ∀ earlier ∈ node.effects ++ new, ∀ later ∈ new,
      Consistent earlier later := by
    intro earlier hearlier later hlater announcement hannounced presented hpresented happ hkey
    obtain ⟨e, he, hrecord⟩ := (hreflects later hlater).holds hpresented
    rw [← hrecord]
    refine hcurrent earlier hearlier announcement hannounced e ?_
    rw [happ, hkey]
    exact he
  refine ⟨hstepped.change.keyed h.keyed, by rw [heffects]; exact hcurrent, ?_,
    h.announced.step h.keyed⟩
  rw [heffects]
  refine List.pairwise_append.mpr ⟨h.noRollback, ?_, fun earlier hearlier later hlater =>
    hconsistent earlier (List.mem_append_left _ hearlier) later hlater⟩
  exact List.pairwise_of_forall_mem_list fun earlier hearlier later hlater =>
    hconsistent earlier (List.mem_append_right _ hearlier) later hlater

/-- Entries stand under the keys of their records, and have been announced, in every run. -/
theorem announced_invariant :
    (gossipSystem prim mainDht).Invariant fun node => Keyed node.state ∧ Announced node where
  initially := by
    rintro _ rfl
    exact ⟨fun _ _ _ he => (by cases he), fun _ _ _ he => (by cases he)⟩
  preserved := by
    rintro node ⟨op, ans⟩ _ ⟨keyed, announced⟩ rfl
    obtain ⟨_, -, hstepped⟩ := perform_stepped prim mainDht ans node op
    exact ⟨hstepped.change.keyed keyed, announced.step keyed⟩

namespace Sample

/-- The object after its withdrawal. -/
def withdrawnNode : Node GossipRecord Unit :=
  perform primitives "me" (answers 1)
    (perform primitives "me" (answers 1) publishedNode (.withdraw "app" ⟨"n", "o"⟩ none false))
    (.proceed 0)

/-- A peer's older record arrives when the tombstone has expired. -/
def rolledBackNode : Node GossipRecord Unit :=
  perform primitives "me" (answers 1802) withdrawnNode (.incoming "app" "p" (frame 0))

theorem withdrawnNode_reachable : (gossipSystem primitives "me").Reachable withdrawnNode := by
  have hstart : (gossipSystem primitives "me").Reachable (.new GossipRecord Unit) := .start rfl
  have hpublished := hstart.next (.publish "app" (request 0 86400), answers 0) rfl
  have hread := hpublished.next (.withdraw "app" ⟨"n", "o"⟩ none false, answers 1) rfl
  exact hread.next (.proceed 0, answers 1) rfl

end Sample

end VeilKnit.Gossip
