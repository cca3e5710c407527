import Mathlib.Algebra.Order.BigOperators.Group.List
import VeilKnit.App.Discovery
import VeilKnit.Library.LabelledSystem

/-!
# Bounds of the application discovery cache

The lists of every application and the two tables stay within their capacities, memberships refer
to peers that are there, and no peer has two memberships of one application. Peers are evicted by
another rule than associations, but together with what refers to them.

The numbers of peers are distinct until the counter starts over.
-/

namespace VeilKnit.App

open Library Types

/-! ## Sets -/

theorem nodup_of_subperm {α : Type} {as bs : List α} (h : as.Subperm bs) (hnodup : bs.Nodup) :
    as.Nodup := by
  obtain ⟨cs, hperm, hsub⟩ := h
  exact hperm.nodup_iff.mp (hnodup.sublist hsub)

theorem ids_eq (set : AppPeerSet) :
    set.ids = set.recent.map (·.peerId) ++ set.archive.map (·.peerId) :=
  List.map_append

/-- No list has gained a peer. -/
structure AppPeerSet.Shrinks (set' set : AppPeerSet) : Prop where
  recent : (set'.recent.map (·.peerId)).Subperm (set.recent.map (·.peerId))
  archive : (set'.archive.map (·.peerId)).Subperm (set.archive.map (·.peerId))

namespace AppPeerSet.Shrinks

variable {set set' set'' : AppPeerSet}

theorem refl (set : AppPeerSet) : set.Shrinks set := ⟨.refl _, .refl _⟩

theorem trans (h : set''.Shrinks set') (h' : set'.Shrinks set) : set''.Shrinks set :=
  ⟨h.recent.trans h'.recent, h.archive.trans h'.archive⟩

theorem ids (h : set'.Shrinks set) : set'.ids.Subperm set.ids := by
  rw [ids_eq, ids_eq]
  exact h.recent.append h.archive

theorem size_le (h : set'.Shrinks set) : set'.size ≤ set.size := by
  have hrecent := h.recent.length_le
  have harchive := h.archive.length_le
  rw [List.length_map, List.length_map] at hrecent harchive
  exact Nat.add_le_add hrecent harchive

end AppPeerSet.Shrinks

theorem keep_shrinks (p : AppPeerTier → AppPeerMembership → Bool) (set : AppPeerSet) :
    (set.keep p).Shrinks set :=
  ⟨(List.filter_sublist.map _).subperm, (List.filter_sublist.map _).subperm⟩

theorem mem_ids_keep {p : AppPeerTier → AppPeerMembership → Bool} {set : AppPeerSet}
    {id : UInt64} (h : id ∈ (set.keep p).ids) :
    id ∈ set.ids ∧ ∃ tier m, p tier m ∧ m.peerId = id := by
  refine ⟨(keep_shrinks p set).ids.subset h, ?_⟩
  obtain ⟨m, hm, rfl⟩ := List.mem_map.mp h
  rcases List.mem_append.mp hm with hm | hm
  · exact ⟨.recent, m, (List.mem_filter.mp hm).2, rfl⟩
  · exact ⟨.archive, m, (List.mem_filter.mp hm).2, rfl⟩

/-- What every set of memberships keeps to. -/
structure SetBounded (set : AppPeerSet) : Prop where
  recent : set.recent.length ≤ appDiscoveryRecentCapacity
  archive : set.archive.length ≤ appDiscoveryArchiveCapacity
  distinct : set.ids.Nodup

theorem SetBounded.of_shrinks {set set' : AppPeerSet} (h : SetBounded set)
    (hshrinks : set'.Shrinks set) : SetBounded set' := by
  have hrecent := hshrinks.recent.length_le
  have harchive := hshrinks.archive.length_le
  rw [List.length_map, List.length_map] at hrecent harchive
  exact ⟨hrecent.trans h.recent, harchive.trans h.archive, nodup_of_subperm hshrinks.ids h.distinct⟩

/-! ### A new member -/

section Sample

variable (archiveSample : String → UInt64 → UInt64 → UInt64) {set : AppPeerSet}
  {f : AppPeerMembership → AppPeerMembership} {peerId : UInt64}

theorem update_recent_ids (hf : ∀ m, (f m).peerId = m.peerId) :
    ((set.update peerId f).recent.map (·.peerId) = set.recent.map (·.peerId)) ∧
      (set.update peerId f).archive.map (·.peerId) = set.archive.map (·.peerId) := by
  unfold AppPeerSet.update
  split
  case isTrue => exact ⟨map_updateFirst hf, rfl⟩
  case isFalse => exact ⟨rfl, map_updateFirst hf⟩

theorem update_shrinks (hf : ∀ m, (f m).peerId = m.peerId) : (set.update peerId f).Shrinks set := by
  obtain ⟨hrecent, harchive⟩ := @update_recent_ids set f peerId hf
  exact ⟨hrecent ▸ .refl _, harchive ▸ .refl _⟩

/-- Replacing an element gives the others and the new one. -/
theorem set_subperm {α : Type} (as : List α) (i : Nat) (a : α) :
    (as.set i a).Subperm (a :: as) := by
  induction as generalizing i with
  | nil => exact List.nil_subperm
  | cons b as ih =>
    cases i with
    | zero => exact ((List.sublist_cons_self b as).cons_cons a).subperm
    | succ i =>
      exact ((List.subperm_cons b).mpr (ih i)).trans (List.Perm.swap a b as).subperm

theorem set_append_perm {α : Type} {as : List α} {i : Nat} {a b : α} (h : as[i]? = some b) :
    (as.set i a ++ [b]).Perm (a :: as) := by
  induction as generalizing i with
  | nil => cases h
  | cons c as ih =>
    cases i with
    | zero =>
      obtain rfl := Option.some.inj h
      exact (List.perm_append_singleton c as).cons a
    | succ i => exact ((ih h).cons c).trans (List.Perm.swap a c as)

/-- What a set may become when a member is new. -/
structure Gains (set' set : AppPeerSet) (m : AppPeerMembership) : Prop where
  recent : set'.recent.length ≤ appDiscoveryRecentCapacity
  archive : set'.archive.length ≤ appDiscoveryArchiveCapacity
  members : set'.memberships.Subperm (m :: set.memberships)
  entered : m ∈ set'.recent

theorem Gains.ids {set' : AppPeerSet} {m : AppPeerMembership} (h : Gains set' set m) :
    set'.ids.Subperm (m.peerId :: set.ids) := by
  obtain ⟨ms, hperm, hsub⟩ := h.members
  exact ⟨ms.map (·.peerId), hperm.map _, hsub.map _⟩

variable {recent : List AppPeerMembership}

theorem considerArchive_gains (total : UInt64)
    (hrecent : recent.length ≤ appDiscoveryRecentCapacity)
    (harchive : set.archive.length ≤ appDiscoveryArchiveCapacity) (appId : String)
    {displaced m : AppPeerMembership} (hperm : (recent ++ [displaced]).Subperm (m :: set.recent))
    (hm : m ∈ recent) :
    Gains (considerArchive archiveSample appId
      { set with totalVerifiedObservations := total, recent := recent } displaced) set m := by
  -- Whatever the archive does, it has at most one member more, the displaced one.
  have hmembers (archive : List AppPeerMembership)
      (h : archive.Subperm (displaced :: set.archive)) :
      (recent ++ archive).Subperm (m :: set.memberships) := by
    have hmoved : recent ++ displaced :: set.archive = (recent ++ [displaced]) ++ set.archive := by
      simp
    refine ((List.subperm_append_left _).mpr h).trans ?_
    rw [hmoved]
    exact hperm.append (.refl _)
  unfold considerArchive
  dsimp only
  split
  case isTrue hroom =>
    refine ⟨hrecent, ?_, hmembers _ (List.perm_append_singleton _ _).subperm, hm⟩
    rw [List.length_append, List.length_singleton]
    exact hroom
  case isFalse =>
    split
    case isTrue =>
      exact ⟨hrecent, (List.length_set ..).trans_le harchive, hmembers _ (set_subperm _ _ _), hm⟩
    case isFalse => exact ⟨hrecent, harchive, hmembers _ List.Subperm.cons_self, hm⟩

/-- A fold that keeps what it has or takes the next element ends with one of them. -/
theorem foldl_chooses {α : Type} {P : α → Prop} {g : Option α → α → Option α} {as : List α}
    (hg : ∀ best, ∀ a ∈ as, g (some best) a = some a ∨ g (some best) a = some best)
    (has : ∀ a ∈ as, P a) {best : α} (hbest : P best) :
    ∃ chosen, as.foldl g (some best) = some chosen ∧ P chosen := by
  induction as generalizing best with
  | nil => exact ⟨best, rfl, hbest⟩
  | cons a as ih =>
    have hlater := @ih (fun best a' ha' => hg best a' (List.mem_cons_of_mem _ ha'))
      (fun a' ha' => has a' (List.mem_cons_of_mem _ ha'))
    rw [List.foldl_cons]
    rcases hg best a List.mem_cons_self with htaken | hkept
    · rw [htaken]
      exact hlater (has a List.mem_cons_self)
    · rw [hkept]
      exact hlater hbest

/-- One of the members is displaced. -/
theorem displacedIndex_lt (h : recent ≠ []) : displacedIndex recent < recent.length := by
  have hindices : ∀ candidate ∈ recent.zipIdx, candidate.2 < recent.length := by
    rintro ⟨m, i⟩ hmem
    exact (List.mem_zipIdx hmem).2.1.trans_eq (Nat.zero_add _)
  unfold displacedIndex
  cases hzip : recent.zipIdx with
  | nil => exact absurd (List.zipIdx_eq_nil_iff.mp hzip) h
  | cons first rest =>
    rw [hzip] at hindices
    have hplace (g : Option (AppPeerMembership × Nat) → AppPeerMembership × Nat →
        Option (AppPeerMembership × Nat))
        (hg : ∀ best, ∀ a ∈ rest, g (some best) a = some a ∨ g (some best) a = some best) :
        (rest.foldl g (some first)).elim 0 Prod.snd < recent.length := by
      obtain ⟨chosen, hchosen, hlt⟩ := foldl_chooses hg
        (fun c hc => hindices c (List.mem_cons_of_mem _ hc)) (hindices first List.mem_cons_self)
      rw [hchosen]
      exact hlt
    refine hplace _ fun best candidate _ => ?_
    dsimp only
    split
    case isTrue => exact .inl rfl
    case isFalse => exact .inr rfl

theorem observe_gains (h : SetBounded set) (appId : String) (now : UInt64)
    (hnone : set.memberships.find? (fun m => decide (m.peerId = peerId)) = none) :
    Gains (set.observe archiveSample appId peerId now).1 set (newMembership peerId now) := by
  unfold AppPeerSet.observe
  rw [hnone]
  dsimp only
  split
  case isTrue hroom =>
    refine ⟨?_, h.archive, ?_, List.mem_append_right _ List.mem_cons_self⟩
    · rw [List.length_append, List.length_singleton]
      exact hroom
    · have hmembers : (set.recent ++ [newMembership peerId now] ++ set.archive).Perm
          (newMembership peerId now :: (set.recent ++ set.archive)) := by
        rw [List.append_assoc, List.singleton_append]
        exact List.perm_middle
      exact hmembers.subperm
  case isFalse hfull =>
  have hplace : displacedIndex set.recent < set.recent.length := by
    refine displacedIndex_lt fun hempty => hfull ?_
    rw [hempty]
    decide
  split
  case h_1 hmissing => exact absurd hplace (not_lt.mpr (List.getElem?_eq_none_iff.mp hmissing))
  case h_2 displaced hdisplaced =>
    exact considerArchive_gains archiveSample _ ((List.length_set ..).trans_le h.recent)
      h.archive appId (set_append_perm hdisplaced).subperm (List.mem_set hplace _)

theorem SetBounded.observe (h : SetBounded set) (appId : String) (peerId now : UInt64) :
    SetBounded (set.observe archiveSample appId peerId now).1 ∧
      (set.observe archiveSample appId peerId now).1.ids ⊆ peerId :: set.ids := by
  cases hfound : set.memberships.find? (fun m => decide (m.peerId = peerId)) with
  | none =>
    have hnew : peerId ∉ set.ids := find?_key_eq_none.mp hfound
    have hgains := observe_gains archiveSample h appId now hfound
    exact ⟨⟨hgains.recent, hgains.archive,
      nodup_of_subperm hgains.ids (List.nodup_cons.mpr ⟨hnew, h.distinct⟩)⟩, hgains.ids.subset⟩
  | some existing =>
    have hshrinks : (set.observe archiveSample appId peerId now).1.Shrinks set := by
      unfold AppPeerSet.observe
      rw [hfound]
      dsimp only
      split
      case isTrue => exact update_shrinks fun _ => rfl
      case isFalse => exact .refl _
    exact ⟨h.of_shrinks hshrinks, fun _ hid =>
      List.mem_cons_of_mem _ (hshrinks.ids.subset hid)⟩

end Sample

/-! ## States -/

namespace AppDiscoveryState

/-- The number of associations of all applications. -/
def total (s : AppDiscoveryState) : Nat := s.apps.total AppPeerSet.size

/-- A number belongs to a peer that is there. -/
def Refers (peers : Peers) (id : UInt64) : Prop :=
  ∃ address record, peers.lookup address = some record ∧ record.peerId = id

/-- Sets are bounded, and refer to peers that are there. -/
structure Consistent (s : AppDiscoveryState) : Prop where
  sets : ∀ appId set, s.apps.lookup appId = some set → SetBounded set
  referred : ∀ appId set, s.apps.lookup appId = some set → ∀ id ∈ set.ids, Refers s.peers id

variable {s : AppDiscoveryState}

theorem mem_referenced {id : UInt64} :
    id ∈ s.referenced ↔ ∃ appId set, s.apps.lookup appId = some set ∧ id ∈ set.ids := by
  rw [referenced, List.mem_flatMap]
  constructor
  · rintro ⟨⟨appId, set⟩, hmem, hid⟩
    exact ⟨appId, set, AList.mem_lookup_iff.mpr hmem, hid⟩
  · rintro ⟨appId, set, hlookup, hid⟩
    exact ⟨⟨appId, set⟩, AList.mem_lookup_iff.mp hlookup, hid⟩

variable {appId address : String} {set set' : AppPeerSet}

theorem lookup_keepMemberships {p : String → AppPeerTier → AppPeerMembership → Bool} :
    (s.keepMemberships p).1.apps.lookup appId = some set ↔
      ∃ before, s.apps.lookup appId = some before ∧ before.keep (p appId) = set := by
  change (s.apps.mapEntries _).lookup appId = some set ↔ _
  rw [AList.lookup_mapEntries, Option.map_eq_some_iff]

theorem lookup_dropEmpty :
    s.dropEmpty.apps.lookup appId = some set ↔ set.size ≠ 0 ∧ s.apps.lookup appId = some set := by
  change (s.apps.filterEntries _).lookup appId = some set ↔ _
  rw [AList.lookup_filterEntries_eq_some, decide_eq_true_iff]

@[simp] theorem peers_keepMemberships (s : AppDiscoveryState)
    (p : String → AppPeerTier → AppPeerMembership → Bool) :
    (s.keepMemberships p).1.peers = s.peers :=
  rfl

@[simp] theorem peers_dropEmpty (s : AppDiscoveryState) : s.dropEmpty.peers = s.peers := rfl

/-- The sets have lost members only, and the peers they refer to stay. -/
theorem Consistent.of_shrinks {s' : AppDiscoveryState} (h : Consistent s)
    (hsets : ∀ appId set', s'.apps.lookup appId = some set' →
      ∃ set, s.apps.lookup appId = some set ∧ set'.Shrinks set)
    (hpeers : ∀ appId set', s'.apps.lookup appId = some set' → ∀ id ∈ set'.ids,
      Refers s.peers id → Refers s'.peers id) : Consistent s' := by
  refine ⟨fun appId set' hlookup => ?_, fun appId set' hlookup id hid => ?_⟩
  · obtain ⟨set, hset, hshrinks⟩ := hsets appId set' hlookup
    exact (h.sets appId set hset).of_shrinks hshrinks
  · obtain ⟨set, hset, hshrinks⟩ := hsets appId set' hlookup
    exact hpeers appId set' hlookup id hid (h.referred appId set hset id (hshrinks.ids.subset hid))

theorem Consistent.keepMemberships (h : Consistent s)
    (p : String → AppPeerTier → AppPeerMembership → Bool) : Consistent (s.keepMemberships p).1 := by
  refine h.of_shrinks (fun appId set' hlookup => ?_) fun _ _ _ _ _ hrefers => hrefers
  obtain ⟨set, hset, rfl⟩ := lookup_keepMemberships.mp hlookup
  exact ⟨set, hset, keep_shrinks _ _⟩

theorem Consistent.dropEmpty (h : Consistent s) : Consistent s.dropEmpty :=
  h.of_shrinks (fun _ set' hlookup => ⟨set', (lookup_dropEmpty.mp hlookup).2, .refl _⟩)
    fun _ _ _ _ _ hrefers => hrefers

variable {peers : Peers}

/-- Peers go together with what refers to them. -/
theorem Consistent.removed (h : Consistent s) {ids : List UInt64}
    (hpeers : ∀ address record, s.peers.lookup address = some record → record.peerId ∉ ids →
      peers.lookup address = some record) :
    Consistent ({ s with peers := peers }.keepMemberships fun _ _ m =>
      decide (m.peerId ∉ ids)).1.dropEmpty := by
  refine h.of_shrinks (fun appId set' hlookup => ?_) fun appId set' hlookup id hid hrefers => ?_
  · obtain ⟨set, hset, rfl⟩ := lookup_keepMemberships.mp (lookup_dropEmpty.mp hlookup).2
    exact ⟨set, hset, keep_shrinks _ _⟩
  obtain ⟨set, -, rfl⟩ := lookup_keepMemberships.mp (lookup_dropEmpty.mp hlookup).2
  obtain ⟨-, -, m, hkept, rfl⟩ := mem_ids_keep hid
  obtain ⟨address, record, hrecord, hsame⟩ := hrefers
  refine ⟨address, record, hpeers address record hrecord ?_, hsame⟩
  rw [hsame]
  exact of_decide_eq_true hkept

theorem mem_evictedPeers {order : Arrangement (String × AppPeerRecord)}
    {peer : String × AppPeerRecord} (h : peer ∈ evictedPeers order s) :
    s.peers.lookup peer.1 = some peer.2 := by
  have hmem := (List.perm_insertionSort _ _).mem_iff.mp (List.mem_of_mem_take h)
  obtain ⟨e, he, rfl⟩ := List.mem_map.mp ((order.2 _).mem_iff.mp hmem)
  exact AList.mem_lookup_iff.mpr he

theorem Consistent.enforcePeerCapacity (h : Consistent s)
    (order : Arrangement (String × AppPeerRecord)) :
    Consistent (AppDiscoveryState.enforcePeerCapacity order s).1 := by
  unfold AppDiscoveryState.enforcePeerCapacity
  split
  case isTrue => exact h
  case isFalse =>
    refine h.removed fun address record hrecord hkept => ?_
    refine AList.lookup_retain_eq_some.mpr ⟨fun hremoved => hkept ?_, hrecord⟩
    obtain ⟨peer, hpeer, rfl⟩ := List.mem_map.mp hremoved
    cases (mem_evictedPeers hpeer).symm.trans hrecord
    exact List.mem_map.mpr ⟨peer, hpeer, rfl⟩

theorem Consistent.enforceGlobalCapacity (h : Consistent s)
    (order : Arrangement (UInt64 × Association)) :
    Consistent (AppDiscoveryState.enforceGlobalCapacity order s).1 := by
  unfold AppDiscoveryState.enforceGlobalCapacity
  split
  case isTrue => exact h
  case isFalse => exact (h.keepMemberships _).dropEmpty

/-- The interests, applications and memberships that have not expired. -/
def fresh (s : AppDiscoveryState) (now : UInt64) : AppDiscoveryState :=
  let interested := s.interestedApps.filterEntries fun _ lastRequested =>
    decide (cutoff now ≤ lastRequested)
  ({ s with
      interestedApps := interested
      apps := s.apps.retain fun appId => appId ∈ interested }.keepMemberships fun _ _ m =>
    decide (cutoff now ≤ m.lastVerifiedForApp)).1.dropEmpty

/-- And the peers that have not expired or are members of something. -/
def unexpired (s : AppDiscoveryState) (now : UInt64) : AppDiscoveryState :=
  { s.fresh now with
    peers := s.peers.filterEntries fun _ record =>
      decide (cutoff now ≤ record.lastDirectlyVerifiedAt ∨
        record.peerId ∈ (s.fresh now).referenced) }

theorem pruneExpired_fst (s : AppDiscoveryState) (order : Arrangement (String × AppPeerRecord))
    (now : UInt64) :
    (s.pruneExpired order now).1 = (AppDiscoveryState.enforcePeerCapacity order
      (s.unexpired now)).1 :=
  rfl

theorem Consistent.unexpired (h : Consistent s) (now : UInt64) : Consistent (s.unexpired now) := by
  have hinterested : Consistent { s with
      interestedApps := s.interestedApps.filterEntries fun _ t => decide (cutoff now ≤ t)
      apps := s.apps.retain fun appId => appId ∈ s.interestedApps.filterEntries fun _ t =>
        decide (cutoff now ≤ t) } :=
    h.of_shrinks (fun _ set' hlookup =>
      ⟨set', (AList.lookup_retain_eq_some.mp hlookup).2, .refl _⟩) fun _ _ _ _ _ hrefers => hrefers
  have hfresh : Consistent (s.fresh now) := (hinterested.keepMemberships _).dropEmpty
  refine hfresh.of_shrinks (fun _ set' hlookup => ⟨set', hlookup, .refl _⟩) ?_
  rintro appId set hlookup id hid ⟨address, record, hrecord, rfl⟩
  refine ⟨address, record, AList.lookup_filterEntries_eq_some.mpr ⟨?_, hrecord⟩, rfl⟩
  exact decide_eq_true (.inr (mem_referenced.mpr ⟨appId, set, hlookup, hid⟩))

theorem Consistent.pruneExpired (h : Consistent s)
    (order : Arrangement (String × AppPeerRecord)) (now : UInt64) :
    Consistent (s.pruneExpired order now).1 :=
  (h.unexpired now).enforcePeerCapacity order

theorem Consistent.withdraw (h : Consistent s) (address : String)
    (advertised : List String) : Consistent (s.withdraw address advertised).1 :=
  h.keepMemberships _

/-- Writing a record that keeps its number. -/
theorem refers_insert {record : AppPeerRecord} {id : UInt64}
    (h : ∀ before, peers.lookup address = some before → before.peerId = record.peerId)
    (hrefers : Refers peers id) : Refers (peers.insert address record) id := by
  obtain ⟨a, r, hlookup, rfl⟩ := hrefers
  by_cases hsame : a = address
  · subst hsame
    exact ⟨a, record, AList.lookup_insert _, (h r hlookup).symm⟩
  · exact ⟨a, r, (AList.lookup_insert_ne hsame).trans hlookup, rfl⟩

theorem Consistent.insertPeer (h : Consistent s) {record : AppPeerRecord} (next : UInt64)
    (hsame : ∀ before, s.peers.lookup address = some before → before.peerId = record.peerId) :
    Consistent { s with nextPeerId := next, peers := s.peers.insert address record } :=
  h.of_shrinks (fun _ set' hlookup => ⟨set', hlookup, .refl _⟩)
    fun _ _ _ _ _ hrefers => refers_insert hsame hrefers

theorem Consistent.keepTombstone (h : Consistent s) (address : String)
    (verifiedAt appInfoUpdatedAt : UInt64) :
    Consistent (s.keepTombstone address verifiedAt appInfoUpdatedAt).1 := by
  unfold AppDiscoveryState.keepTombstone
  split
  case h_1 => exact h
  case h_2 record hrecord =>
    refine h.insertPeer s.nextPeerId fun before hbefore => ?_
    cases hrecord.symm.trans hbefore
    rfl

theorem Consistent.recordPeer (h : Consistent s) (address : String)
    (verifiedAt appInfoUpdatedAt : UInt64) :
    Consistent (s.recordPeer address verifiedAt appInfoUpdatedAt).1 ∧
      Refers (s.recordPeer address verifiedAt appInfoUpdatedAt).1.peers
        (s.recordPeer address verifiedAt appInfoUpdatedAt).2.1 := by
  unfold AppDiscoveryState.recordPeer
  split
  case h_1 record hrecord =>
    refine ⟨h.insertPeer s.nextPeerId fun before hbefore => ?_,
      address, _, AList.lookup_insert _, rfl⟩
    cases hrecord.symm.trans hbefore
    rfl
  case h_2 hnone =>
    refine ⟨h.insertPeer _ fun before hbefore => ?_, address, _, AList.lookup_insert _, rfl⟩
    rw [hnone] at hbefore
    cases hbefore

section Sample

variable (archiveSample : String → UInt64 → UInt64 → UInt64)

theorem setBounded_empty : SetBounded {} := ⟨Nat.zero_le _, Nat.zero_le _, List.nodup_nil⟩

variable {s : AppDiscoveryState}

theorem Consistent.observeMembership (h : Consistent s) (appId : String)
    {peerId : UInt64} (now : UInt64) (hpeer : Refers s.peers peerId) :
    Consistent (s.observeMembership archiveSample appId peerId now).1 := by
  have hset : SetBounded ((s.apps.lookup appId).getD {}) ∧
      ∀ id ∈ ((s.apps.lookup appId).getD {}).ids, Refers s.peers id := by
    cases hlookup : s.apps.lookup appId with
    | none => exact ⟨setBounded_empty, fun id hid => by cases hid⟩
    | some set => exact ⟨h.sets appId set hlookup, h.referred appId set hlookup⟩
  obtain ⟨hbounded, hids⟩ := hset.1.observe archiveSample appId peerId now
  refine ⟨fun other set hlookup => ?_, fun other set hlookup id hid => ?_⟩
  · exact AList.forall_lookup_insert hbounded h.sets other set hlookup
  obtain ⟨rfl, rfl⟩ | ⟨-, hother⟩ := AList.of_lookup_insert hlookup
  · rcases List.mem_cons.mp (hids hid) with rfl | hid
    · exact hpeer
    · exact hset.2 id hid
  · exact h.referred other set hother id hid

theorem Consistent.observeMemberships (h : Consistent s)
    (appIds : List String) {peerId : UInt64} (now : UInt64) (hpeer : Refers s.peers peerId) :
    Consistent (s.observeMemberships archiveSample peerId now appIds).1 := by
  induction appIds generalizing s with
  | nil => exact h
  | cons appId appIds ih => exact ih (h.observeMembership archiveSample appId now hpeer) hpeer

theorem Consistent.enter (h : Consistent s) (orders : Orders)
    (address : String) (advertised : List String) (appInfoUpdatedAt verifiedAt : UInt64) :
    Consistent (s.enter archiveSample orders address advertised appInfoUpdatedAt verifiedAt).1 := by
  have hwithdrawn := h.withdraw address advertised
  unfold AppDiscoveryState.enter
  split
  case isTrue =>
    exact (hwithdrawn.keepTombstone address verifiedAt appInfoUpdatedAt).enforcePeerCapacity _
  case isFalse =>
    obtain ⟨hrecorded, hrefers⟩ := hwithdrawn.recordPeer address verifiedAt appInfoUpdatedAt
    exact ((hrecorded.observeMemberships archiveSample advertised verifiedAt
      hrefers).enforceGlobalCapacity _).enforcePeerCapacity _

end Sample

theorem Consistent.bump (h : Consistent s) (changed : Bool) : Consistent (s.bump changed) := by
  unfold AppDiscoveryState.bump
  split
  case isTrue => exact ⟨h.sets, h.referred⟩
  case isFalse => exact h

/-! ### Replaced sets -/

/-- One set is replaced by a smaller one. -/
theorem Consistent.insertSet (h : Consistent s)
    (hset : s.apps.lookup appId = some set) (hshrinks : set'.Shrinks set) :
    Consistent { s with apps := s.apps.insert appId set' } := by
  refine h.of_shrinks (fun other found hlookup => ?_) fun _ _ _ _ _ hrefers => hrefers
  obtain ⟨rfl, rfl⟩ | ⟨-, hother⟩ := AList.of_lookup_insert hlookup
  · exact ⟨set, hset, hshrinks⟩
  · exact ⟨found, hother, .refl _⟩

theorem sortMembers_shrinks (set : AppPeerSet) : (sortMembers set).Shrinks set :=
  ⟨((List.perm_insertionSort _ _).map _).subperm, ((List.perm_insertionSort _ _).map _).subperm⟩

theorem map_mapIdx_ids {members : List AppPeerMembership}
    {f : Nat → AppPeerMembership → AppPeerMembership} (hf : ∀ i m, (f i m).peerId = m.peerId) :
    (members.mapIdx f).map (·.peerId) = members.map (·.peerId) := by
  refine List.ext_getElem (by simp) fun i h₁ h₂ => ?_
  simp only [List.getElem_map, List.getElem_mapIdx]
  exact hf _ _

theorem markSelected_shrinks (now : UInt64) (selected : List (AppPeerTier × Nat))
    (set : AppPeerSet) : (markSelected now selected set).Shrinks set := by
  have hrecent : (markSelected now selected set).recent.map (·.peerId) =
      set.recent.map (·.peerId) := map_mapIdx_ids fun i m => by
    split <;> rfl
  have harchive : (markSelected now selected set).archive.map (·.peerId) =
      set.archive.map (·.peerId) := map_mapIdx_ids fun i m => by
    split <;> rfl
  exact ⟨hrecent ▸ .refl _, harchive ▸ .refl _⟩

/-! ## Capacities -/

/-- The tables are within their capacities. -/
structure Capped (s : AppDiscoveryState) : Prop where
  total : s.total ≤ appDiscoveryGlobalAssociationCapacity
  peers : s.peers.entries.length ≤ appDiscoveryGlobalPeerCapacity

theorem total_map_le (measure : AppPeerSet → Nat) (entries : List (Σ _ : String, AppPeerSet))
    (f : String → AppPeerSet → AppPeerSet) (hf : ∀ appId set, measure (f appId set) ≤ measure set) :
    ((entries.map (Sigma.map id f)).map fun e : (Σ _ : String, AppPeerSet) => measure e.2).sum ≤
      (entries.map fun e : (Σ _ : String, AppPeerSet) => measure e.2).sum := by
  induction entries with
  | nil => exact le_rfl
  | cons e entries ih =>
    simp only [List.map_cons, List.sum_cons]
    exact Nat.add_le_add (hf e.1 e.2) ih

theorem total_filter_le (measure : AppPeerSet → Nat) (entries : List (Σ _ : String, AppPeerSet))
    (p : (Σ _ : String, AppPeerSet) → Bool) :
    ((entries.filter p).map fun e => measure e.2).sum ≤ (entries.map fun e => measure e.2).sum :=
  (List.filter_sublist.map _).sum_le_sum fun _ _ => Nat.zero_le _

theorem total_keepMemberships (s : AppDiscoveryState)
    (p : String → AppPeerTier → AppPeerMembership → Bool) :
    (s.keepMemberships p).1.total ≤ s.total :=
  total_map_le _ s.apps.entries _ fun _ _ => (keep_shrinks _ _).size_le

theorem total_dropEmpty (s : AppDiscoveryState) : s.dropEmpty.total ≤ s.total :=
  total_filter_le _ s.apps.entries _

theorem length_flatMap_associations (s : AppDiscoveryState) : s.associations.length = s.total := by
  unfold associations total AList.total
  rw [List.length_flatMap]
  refine congrArg List.sum (List.map_congr_left fun e _ => ?_)
  simp [AppPeerSet.size]

/-- Without the first `n` of a rearrangement, all but `n` are left. -/
theorem length_filter_not_mem_take {α : Type} {as bs removed : List α} {n : Nat} {p : α → Bool}
    (h : bs.Perm as) (hnodup : as.Nodup) (hremoved : removed = bs.take n)
    (hp : ∀ a, p a ↔ a ∉ removed) : (as.filter p).length = as.length - n := by
  subst hremoved
  have hnodup' : (bs.take n ++ bs.drop n).Nodup := by
    rw [List.take_append_drop]
    exact h.nodup_iff.mpr hnodup
  have hdisjoint := (List.nodup_append.mp hnodup').2.2
  rw [← (h.filter _).length_eq, ← h.length_eq]
  have hfilter : bs.filter p = bs.drop n := by
    have hsplit : bs.filter p = (bs.take n ++ bs.drop n).filter p := by
      rw [List.take_append_drop]
    have htake : (bs.take n).filter p = [] :=
      List.filter_eq_nil_iff.mpr fun a ha hkept => (hp a).mp hkept ha
    have hdrop : (bs.drop n).filter p = bs.drop n :=
      List.filter_eq_self.mpr fun a ha => (hp a).mpr fun hmem => hdisjoint a hmem a ha rfl
    rw [hsplit, List.filter_append, htake, hdrop, List.nil_append]
  rw [hfilter, List.length_drop]

/-- The associations of one application. -/
def associationsOf (appId : String) (set : AppPeerSet) : List Association :=
  set.recent.map (fun m => (appId, .recent, m.peerId)) ++
    set.archive.map fun m => (appId, .archive, m.peerId)

theorem map_associations (s : AppDiscoveryState) :
    s.associations.map Prod.snd = s.apps.entries.flatMap fun e => associationsOf e.1 e.2 := by
  unfold associations associationsOf
  rw [List.map_flatMap]
  simp [Function.comp_def]

theorem associationsOf_nodup (h : SetBounded set) : (associationsOf appId set).Nodup := by
  have hids := h.distinct
  rw [ids_eq] at hids
  obtain ⟨hrecent, harchive, -⟩ := List.nodup_append.mp hids
  refine List.nodup_append.mpr ⟨?_, ?_, ?_⟩
  · refine List.Nodup.of_map (fun key : Association => key.2.2) ?_
    simpa [Function.comp_def] using hrecent
  · refine List.Nodup.of_map (fun key : Association => key.2.2) ?_
    simpa [Function.comp_def] using harchive
  · intro a ha b hb hsame
    obtain ⟨m, -, rfl⟩ := List.mem_map.mp ha
    obtain ⟨m', -, rfl⟩ := List.mem_map.mp hb
    exact AppPeerTier.noConfusion (congrArg (fun key : Association => key.2.1) hsame)

theorem associations_nodup (h : Consistent s) : (s.associations.map Prod.snd).Nodup := by
  rw [map_associations, List.nodup_flatMap]
  refine ⟨fun e he => associationsOf_nodup (h.sets e.1 e.2 (AList.mem_lookup_iff.mpr he)), ?_⟩
  refine (List.pairwise_map.mp s.apps.nodupKeys).imp fun {left right} hne => ?_
  refine List.disjoint_left.mpr ?_
  have hof : ∀ (appId : String) (set : AppPeerSet), ∀ key ∈ associationsOf appId set,
      key.1 = appId := by
    intro appId set key hkey
    rcases List.mem_append.mp hkey with hkey | hkey
    · obtain ⟨m, -, rfl⟩ := List.mem_map.mp hkey
      rfl
    · obtain ⟨m, -, rfl⟩ := List.mem_map.mp hkey
      rfl
  exact fun key hleft hright =>
    hne ((hof left.1 left.2 key hleft).symm.trans (hof right.1 right.2 key hright))

theorem associations_keep (s : AppDiscoveryState) (p : Association → Bool) :
    (s.keepMemberships fun appId tier m => p (appId, tier, m.peerId)).1.associations.map
      Prod.snd = (s.associations.map Prod.snd).filter p := by
  rw [map_associations, map_associations, List.filter_flatMap]
  change (s.apps.entries.map _).flatMap _ = _
  rw [List.flatMap_map]
  refine List.flatMap_congr fun e _ => ?_
  simp only [associationsOf, AppPeerSet.keep, Sigma.map, id, List.filter_append, List.filter_map]
  rfl

theorem total_enforceGlobalCapacity (h : Consistent s)
    (order : Arrangement (UInt64 × Association)) :
    (enforceGlobalCapacity order s).1.total ≤ appDiscoveryGlobalAssociationCapacity := by
  unfold enforceGlobalCapacity
  split
  case isTrue hroom => exact length_flatMap_associations s ▸ hroom
  case isFalse hfull =>
  refine (total_dropEmpty _).trans ?_
  rw [← length_flatMap_associations, ← List.length_map Prod.snd]
  have hkeys := associations_keep s fun key => decide (key ∉ evictedAssociations order s)
  refine (congrArg List.length hkeys).trans_le ?_
  have hperm : (((order.1 s.associations).insertionSort fun left right =>
      left.1 ≤ right.1).map Prod.snd).Perm (s.associations.map Prod.snd) :=
    ((List.perm_insertionSort _ _).trans (order.2 _)).map _
  have hremoved : evictedAssociations order s = (((order.1 s.associations).insertionSort
      fun left right => left.1 ≤ right.1).map Prod.snd).take
        (s.associations.length - appDiscoveryGlobalAssociationCapacity) := List.map_take
  have hleft := length_filter_not_mem_take hperm (associations_nodup h) hremoved
    fun key => @decide_eq_true_iff (key ∉ evictedAssociations order s) _
  rw [hleft, List.length_map]
  omega

/-- Without the first `n` peers in some order, all but `n` are left. -/
theorem length_retain {l : List (String × AppPeerRecord)} {n : Nat}
    (h : l.Perm (peers.entries.map fun e => (e.1, e.2))) :
    (peers.retain fun address => address ∉ (l.take n).map Prod.fst).entries.length =
      peers.entries.length - n := by
  have hkeys : (l.map Prod.fst).Perm (peers.entries.map Sigma.fst) := by
    have hpeers : (peers.entries.map fun e => (e.1, e.2)).map Prod.fst =
        peers.entries.map Sigma.fst := by
      rw [List.map_map]
      exact List.map_congr_left fun _ _ => rfl
    exact hpeers ▸ h.map Prod.fst
  have hnodup : (peers.entries.map Sigma.fst).Nodup := peers.nodupKeys
  have hleft := length_filter_not_mem_take hkeys hnodup List.map_take
    fun address => @decide_eq_true_iff (address ∉ (l.take n).map Prod.fst) _
  rw [List.filter_map, List.length_map, List.length_map] at hleft
  exact hleft

theorem peers_enforcePeerCapacity (s : AppDiscoveryState)
    (order : Arrangement (String × AppPeerRecord)) :
    (enforcePeerCapacity order s).1.peers.entries.length ≤ appDiscoveryGlobalPeerCapacity := by
  unfold enforcePeerCapacity
  split
  case isTrue hroom => exact hroom
  case isFalse hfull =>
    dsimp only [peers_dropEmpty, peers_keepMemberships, evictedPeers]
    rw [length_retain ((List.perm_insertionSort _ _).trans (order.2 _))]
    omega

theorem total_enforcePeerCapacity (s : AppDiscoveryState)
    (order : Arrangement (String × AppPeerRecord)) :
    (enforcePeerCapacity order s).1.total ≤ s.total := by
  unfold enforcePeerCapacity
  split
  case isTrue => exact le_rfl
  case isFalse => exact (total_dropEmpty _).trans (total_keepMemberships _ _)

theorem Capped.pruneExpired (h : Capped s)
    (order : Arrangement (String × AppPeerRecord)) (now : UInt64) :
    Capped (s.pruneExpired order now).1 := by
  refine ⟨?_, peers_enforcePeerCapacity _ order⟩
  refine (total_enforcePeerCapacity _ order).trans ?_
  refine (total_dropEmpty _).trans ((total_keepMemberships _ _).trans ?_)
  exact (total_filter_le _ _ _).trans h.total

theorem Capped.bump (h : Capped s) (changed : Bool) : Capped (s.bump changed) := by
  unfold AppDiscoveryState.bump
  split
  case isTrue => exact ⟨h.total, h.peers⟩
  case isFalse => exact h

theorem total_insertSet (hset : s.apps.lookup appId = some set) (hshrinks : set'.Shrinks set) :
    { s with apps := s.apps.insert appId set' }.total ≤ s.total := by
  unfold total
  rw [AList.total_insert, AList.total_erase AppPeerSet.size hset]
  exact Nat.add_le_add_right hshrinks.size_le _

theorem Capped.enter (hconsistent : Consistent s) (h : Capped s)
    (archiveSample : String → UInt64 → UInt64 → UInt64) (orders : Orders) (address : String)
    (advertised : List String) (appInfoUpdatedAt verifiedAt : UInt64) :
    Capped (s.enter archiveSample orders address advertised appInfoUpdatedAt verifiedAt).1 := by
  have hwithdrawn := hconsistent.withdraw address advertised
  unfold AppDiscoveryState.enter
  split
  case isTrue =>
    refine ⟨(total_enforcePeerCapacity _ _).trans ?_, peers_enforcePeerCapacity _ _⟩
    have hkept : (((s.withdraw address advertised).1.keepTombstone address verifiedAt
        appInfoUpdatedAt).1).total = (s.withdraw address advertised).1.total := by
      unfold AppDiscoveryState.keepTombstone
      split <;> rfl
    exact hkept.trans_le ((total_keepMemberships _ _).trans h.total)
  case isFalse =>
  obtain ⟨hrecorded, hrefers⟩ := hwithdrawn.recordPeer address verifiedAt appInfoUpdatedAt
  have hobserved := hrecorded.observeMemberships archiveSample advertised verifiedAt hrefers
  exact ⟨(total_enforcePeerCapacity _ _).trans (total_enforceGlobalCapacity hobserved _),
    peers_enforcePeerCapacity _ _⟩

/-! ## Operations -/

/-- What operations that enter no peer are made of. -/
inductive Quiet (s : AppDiscoveryState) : AppDiscoveryState → Prop
  | same : Quiet s s
  | bump {t : AppDiscoveryState} (h : Quiet s t) (changed : Bool) : Quiet s (t.bump changed)
  | prune {t : AppDiscoveryState} (h : Quiet s t) (order : Arrangement (String × AppPeerRecord))
      (now : UInt64) : Quiet s (t.pruneExpired order now).1
  | interests {t : AppDiscoveryState} (h : Quiet s t) (interested : AList fun _ : String => UInt64) :
      Quiet s { t with interestedApps := interested }
  | insertSet {t : AppDiscoveryState} (h : Quiet s t) {appId : String} {set set' : AppPeerSet}
      (hset : t.apps.lookup appId = some set) (hshrinks : set'.Shrinks set) :
      Quiet s { t with apps := t.apps.insert appId set' }
  | remove {t : AppDiscoveryState} (h : Quiet s t) {addresses : List String} {ids : List UInt64}
      (hids : ∀ address ∈ addresses, ∀ record, t.peers.lookup address = some record →
        record.peerId ∈ ids) :
      Quiet s ({ t with peers := t.peers.retain fun address => address ∉ addresses
        }.keepMemberships fun _ _ m => decide (m.peerId ∉ ids)).1.dropEmpty

theorem Quiet.consistent {t : AppDiscoveryState} (h : Quiet s t) (hs : Consistent s) :
    Consistent t := by
  induction h with
  | same => exact hs
  | bump _ changed ih => exact ih.bump changed
  | prune _ order now ih => exact ih.pruneExpired order now
  | interests _ _ ih => exact ⟨ih.sets, ih.referred⟩
  | insertSet _ hset hshrinks ih => exact ih.insertSet hset hshrinks
  | remove _ hids ih =>
    refine ih.removed fun address record hrecord hkept => ?_
    exact AList.lookup_retain_eq_some.mpr
      ⟨fun hremoved => hkept (hids address hremoved record hrecord), hrecord⟩

theorem Quiet.capped {t : AppDiscoveryState} (h : Quiet s t) (hs : Capped s) : Capped t := by
  induction h with
  | same => exact hs
  | bump _ changed ih => exact ih.bump changed
  | prune _ order now ih => exact ih.pruneExpired order now
  | interests _ _ ih => exact ⟨ih.total, ih.peers⟩
  | insertSet _ hset hshrinks ih => exact ⟨(total_insertSet hset hshrinks).trans ih.total, ih.peers⟩
  | remove _ _ ih =>
    exact ⟨(total_dropEmpty _).trans ((total_keepMemberships _ _).trans ih.total),
      (List.length_filter_le _ _).trans ih.peers⟩

section Operations

variable {Key : Type} (keys : RecordKeys Key) (s : AppDiscoveryState)

theorem quiet_listPeers (order : Arrangement (String × AppPeerRecord)) (appId : String)
    (requestedLimit : Nat) (now : UInt64) :
    Quiet s (s.listPeers keys order appId requestedLimit now).1 := by
  have hpruned : Quiet s (s.pruneExpired order now).1 := .prune .same order now
  unfold AppDiscoveryState.listPeers
  dsimp only
  split
  case h_1 => exact hpruned.bump _
  case h_2 set hset =>
    exact (hpruned.insertSet hset ((markSelected_shrinks _ _ _).trans
      (sortMembers_shrinks _))).bump _

theorem quiet_cacheAppRoot (appId : String) (peer : Key) (rootDht : Option Key)
    (directoryGeneration checkedAt : UInt64) :
    Quiet s (s.cacheAppRoot keys appId peer rootDht directoryGeneration checkedAt).1 := by
  unfold AppDiscoveryState.cacheAppRoot
  split
  case h_1 record set _ hset =>
    split
    case h_1 => exact .same
    case h_2 =>
    dsimp only
    split
    case isTrue =>
      refine (Quiet.same.insertSet hset ?_).bump true
      exact update_shrinks fun _ => rfl
    case isFalse => exact .same
  case h_2 => exact .same

theorem quiet_searchSeeds (order : Arrangement (String × AppPeerRecord)) (appId : String)
    (maximum : Nat) (now : UInt64) : Quiet s (s.searchSeeds keys order appId maximum now).1 := by
  have hpruned : Quiet s (bump (s.pruneExpired order now).2 (s.pruneExpired order now).1) :=
    (Quiet.same.prune order now).bump _
  unfold AppDiscoveryState.searchSeeds
  dsimp only
  split
  case h_1 => exact hpruned
  case h_2 => exact hpruned

theorem quiet_removePeers (peers : List Key) : Quiet s (s.removePeers keys peers).1 := by
  unfold AppDiscoveryState.removePeers
  split
  case isTrue => exact .same
  case isFalse =>
    refine (Quiet.same.remove fun address hblocked record hrecord => ?_).bump _
    exact List.mem_filterMap.mpr ⟨address, hblocked, by rw [hrecord]; rfl⟩

end Operations

end AppDiscoveryState

end VeilKnit.App
