import VeilKnit.App.DiscoveryRuns

/-!
# The members that a direct read leaves

After a direct read that is not older than what is known of the peer, the peer is a member of the
interesting applications that it announces, and of no others. Capacities do not get in the way:
what was verified last is evicted last.
-/

namespace VeilKnit.App

open Library Types

/-! ## What is evicted last -/

/-- A sorted list with few elements that count has none of these among those that are taken. -/
theorem not_mem_take_of_countP_le {α : Type} {r : α → α → Prop} {p : α → Bool} {l : List α}
    (hsorted : l.Pairwise r) (hp : ∀ a b, r a b → p a → p b) {capacity : Nat}
    (hfew : l.countP p ≤ capacity) (hfull : capacity ≤ l.length) {a : α} (ha : p a) :
    a ∉ l.take (l.length - capacity) := by
  intro hmem
  have hsplit : l.take (l.length - capacity) ++ l.drop (l.length - capacity) = l :=
    List.take_append_drop ..
  have hlater : ∀ b ∈ l.drop (l.length - capacity), p b := by
    rw [← hsplit] at hsorted
    exact fun b hb => hp a b ((List.pairwise_append.mp hsorted).2.2 a hmem b hb) ha
  have hdrop : (l.drop (l.length - capacity)).countP p = capacity := by
    rw [List.countP_eq_length.mpr hlater, List.length_drop]
    omega
  have htake : 0 < (l.take (l.length - capacity)).countP p := List.countP_pos_iff.mpr ⟨a, hmem, ha⟩
  have hcount : l.countP p = (l.take (l.length - capacity)).countP p +
      (l.drop (l.length - capacity)).countP p := by
    rw [← List.countP_append, hsplit]
  omega

/-! ## Sets -/

/-- The members verified at some time or later. -/
def AppPeerSet.verifiedSince (t : UInt64) (set : AppPeerSet) : Nat :=
  set.memberships.countP fun m => decide (t ≤ m.lastVerifiedForApp)

theorem keep_memberships_sublist (p : AppPeerTier → AppPeerMembership → Bool)
    (set : AppPeerSet) : (set.keep p).memberships.Sublist set.memberships :=
  List.filter_sublist.append List.filter_sublist

theorem verifiedSince_keep (t : UInt64) (p : AppPeerTier → AppPeerMembership → Bool)
    (set : AppPeerSet) : (set.keep p).verifiedSince t ≤ set.verifiedSince t :=
  (keep_memberships_sublist p set).countP_le

section Sample

variable (archiveSample : String → UInt64 → UInt64 → UInt64)

theorem countP_updateFirst_le {α : Type} (p q : α → Bool) (f : α → α) (as : List α) :
    (updateFirst p f as).countP q ≤ as.countP q + 1 := by
  induction as with
  | nil => exact Nat.zero_le _
  | cons a as ih =>
    rw [updateFirst]
    split
    case isTrue =>
      rw [List.countP_cons, List.countP_cons]
      split <;> omega
    case isFalse =>
      rw [List.countP_cons, List.countP_cons]
      omega

theorem verifiedSince_update (t : UInt64) (set : AppPeerSet) (peerId : UInt64)
    (f : AppPeerMembership → AppPeerMembership) :
    (set.update peerId f).verifiedSince t ≤ set.verifiedSince t + 1 := by
  unfold AppPeerSet.update AppPeerSet.verifiedSince AppPeerSet.memberships
  split
  case isTrue =>
    rw [List.countP_append, List.countP_append]
    have hle := countP_updateFirst_le (fun m => decide (m.peerId = peerId))
      (fun m => decide (t ≤ m.lastVerifiedForApp)) f set.recent
    dsimp only
    omega
  case isFalse =>
    rw [List.countP_append, List.countP_append]
    have hle := countP_updateFirst_le (fun m => decide (m.peerId = peerId))
      (fun m => decide (t ≤ m.lastVerifiedForApp)) f set.archive
    dsimp only
    omega

/-- An observation adds at most one. -/
theorem verifiedSince_observe {set : AppPeerSet} (h : SetBounded set) (appId : String)
    (peerId now t : UInt64) :
    (set.observe archiveSample appId peerId now).1.verifiedSince t ≤ set.verifiedSince t + 1 := by
  cases hfound : set.memberships.find? (fun m => decide (m.peerId = peerId)) with
  | none =>
    have hgains := observe_gains archiveSample h appId now hfound
    refine (hgains.members.countP_le _).trans ?_
    rw [List.countP_cons]
    unfold AppPeerSet.verifiedSince
    split <;> omega
  | some existing =>
    unfold AppPeerSet.observe
    rw [hfound]
    dsimp only
    split
    case isTrue => exact verifiedSince_update t set peerId _
    case isFalse => exact Nat.le_succ _

/-- After an observation the peer is a member, verified then. -/
theorem observe_verified {set : AppPeerSet} (h : SetBounded set) (appId : String)
    (peerId now : UInt64) :
    ∃ m ∈ (set.observe archiveSample appId peerId now).1.memberships,
      m.peerId = peerId ∧ now ≤ m.lastVerifiedForApp := by
  cases hfound : set.memberships.find? (fun m => decide (m.peerId = peerId)) with
  | none =>
    have hgains := observe_gains archiveSample h appId now hfound
    exact ⟨_, List.mem_append_left _ hgains.entered, rfl, UInt64.le_refl _⟩
  | some existing =>
    have hid : existing.peerId = peerId := by simpa using List.find?_some hfound
    unfold AppPeerSet.observe
    rw [hfound]
    dsimp only
    split
    case isTrue =>
      unfold AppPeerSet.update AppPeerSet.memberships
      have hupdated {as : List AppPeerMembership}
          (has : as.find? (fun m => decide (m.peerId = peerId)) = some existing) :
          ∃ m ∈ updateFirst (fun m => decide (m.peerId = peerId))
            (fun m => { m with lastVerifiedForApp := now }) as,
            m.peerId = peerId ∧ now ≤ m.lastVerifiedForApp := by
        obtain ⟨before, after, -, heq⟩ := updateFirst_of_find?
          (fun m => { m with lastVerifiedForApp := now }) has
        rw [heq]
        exact ⟨_, List.mem_append_right _ List.mem_cons_self, hid, UInt64.le_refl _⟩
      rw [AppPeerSet.memberships, List.find?_append] at hfound
      split
      case isTrue hrecent =>
        obtain ⟨first, hfirst⟩ := Option.isSome_iff_exists.mp hrecent
        rw [hfirst, Option.some_or] at hfound
        obtain ⟨m, hm, hverified⟩ := hupdated (hfirst.trans hfound)
        exact ⟨m, List.mem_append_left _ hm, hverified⟩
      case isFalse harchive =>
        rw [Option.not_isSome_iff_eq_none.mp harchive, Option.none_or] at hfound
        obtain ⟨m, hm, hverified⟩ := hupdated hfound
        exact ⟨m, List.mem_append_right _ hm, hverified⟩
    case isFalse hcurrent =>
      exact ⟨existing, List.mem_of_find?_eq_some hfound, hid, UInt64.not_lt.mp hcurrent⟩

end Sample

/-! ## States -/

namespace AppDiscoveryState

/-- The associations verified at some time or later. -/
def verifiedSince (t : UInt64) (s : AppDiscoveryState) : Nat :=
  s.apps.total (AppPeerSet.verifiedSince t)

section

variable (s : AppDiscoveryState)

include s

theorem countP_associations (t : UInt64) :
    (s.associations.countP fun a => decide (t ≤ a.1)) = s.verifiedSince t := by
  unfold associations verifiedSince AList.total
  rw [List.countP_flatMap]
  refine congrArg List.sum (List.map_congr_left fun e _ => ?_)
  rw [Function.comp_apply, List.countP_append, List.countP_map, List.countP_map,
    AppPeerSet.verifiedSince, AppPeerSet.memberships, List.countP_append]
  rfl

theorem verifiedSince_keepMemberships (t : UInt64)
    (p : String → AppPeerTier → AppPeerMembership → Bool) :
    (s.keepMemberships p).1.verifiedSince t ≤ s.verifiedSince t :=
  total_map_le _ s.apps.entries _ fun _ _ => verifiedSince_keep _ _ _

theorem verifiedSince_dropEmpty (t : UInt64) : s.dropEmpty.verifiedSince t ≤ s.verifiedSince t :=
  total_filter_le _ s.apps.entries _

theorem verifiedSince_unexpired (t now : UInt64) :
    (s.unexpired now).verifiedSince t ≤ s.verifiedSince t := by
  refine (verifiedSince_dropEmpty _ t).trans ((verifiedSince_keepMemberships _ t _).trans ?_)
  exact total_filter_le _ s.apps.entries _

theorem verifiedSince_enforcePeerCapacity (t : UInt64)
    (order : Arrangement (String × AppPeerRecord)) :
    (enforcePeerCapacity order s).1.verifiedSince t ≤ s.verifiedSince t := by
  unfold enforcePeerCapacity
  split
  case isTrue => exact le_rfl
  case isFalse =>
    exact (verifiedSince_dropEmpty _ t).trans (verifiedSince_keepMemberships _ t _)

end

section Sample

variable (archiveSample : String → UInt64 → UInt64 → UInt64) {s : AppDiscoveryState}

theorem verifiedSince_observeMembership (h : Consistent s) (t : UInt64)
    (appId : String) (peerId now : UInt64) :
    (s.observeMembership archiveSample appId peerId now).1.verifiedSince t ≤
      s.verifiedSince t + 1 := by
  unfold observeMembership verifiedSince
  rw [AList.total_insert]
  cases hlookup : s.apps.lookup appId with
  | none =>
    have hle := verifiedSince_observe archiveSample setBounded_empty appId peerId now t
    rw [AList.erase_of_lookup hlookup]
    change AppPeerSet.verifiedSince t (AppPeerSet.observe archiveSample {} appId peerId now).1 +
      _ ≤ _
    have hempty : AppPeerSet.verifiedSince t {} = 0 := rfl
    omega
  | some set =>
    have hle := verifiedSince_observe archiveSample (h.sets appId set hlookup) appId peerId now t
    rw [AList.total_erase _ hlookup]
    change AppPeerSet.verifiedSince t (set.observe archiveSample appId peerId now).1 + _ ≤ _
    omega

theorem verifiedSince_observeMemberships (h : Consistent s) (t : UInt64)
    (appIds : List String) {peerId : UInt64} (now : UInt64) (hpeer : Refers s.peers peerId) :
    (s.observeMemberships archiveSample peerId now appIds).1.verifiedSince t ≤
      s.verifiedSince t + appIds.length := by
  induction appIds generalizing s with
  | nil => exact le_rfl
  | cons appId appIds ih =>
    have hfirst := verifiedSince_observeMembership archiveSample h t appId peerId now
    have hlater := ih (h.observeMembership archiveSample appId now hpeer) hpeer
    have hstep : (s.observeMemberships archiveSample peerId now (appId :: appIds)).1 =
        ((s.observeMembership archiveSample appId peerId now).1.observeMemberships archiveSample
          peerId now appIds).1 := rfl
    rw [hstep, List.length_cons]
    omega

/-- A peer is a member of an application, verified at some time or later. -/
def HasVerified (s : AppDiscoveryState) (appId : String) (peerId t : UInt64) : Prop :=
  ∃ set, s.apps.lookup appId = some set ∧
    ∃ m ∈ set.memberships, m.peerId = peerId ∧ t ≤ m.lastVerifiedForApp

theorem lookup_observeMemberships {appId : String} {appIds : List String}
    (h : appId ∉ appIds) (peerId now : UInt64) :
    (s.observeMemberships archiveSample peerId now appIds).1.apps.lookup appId =
      s.apps.lookup appId := by
  induction appIds generalizing s with
  | nil => rfl
  | cons other appIds ih =>
    have hne : appId ≠ other := fun hsame => h (hsame ▸ List.mem_cons_self)
    exact (ih fun hmem => h (List.mem_cons_of_mem _ hmem)).trans (AList.lookup_insert_ne hne)

theorem observeMemberships_verified (h : Consistent s) {appId : String}
    {appIds : List String} (hnodup : appIds.Nodup) (hmem : appId ∈ appIds) {peerId : UInt64}
    (now : UInt64) (hpeer : Refers s.peers peerId) :
    (s.observeMemberships archiveSample peerId now appIds).1.HasVerified appId peerId now := by
  induction appIds generalizing s with
  | nil => cases hmem
  | cons other appIds ih =>
    obtain ⟨hother, hnodup⟩ := List.nodup_cons.mp hnodup
    rcases List.mem_cons.mp hmem with rfl | hmem
    · have hset : SetBounded ((s.apps.lookup appId).getD {}) := by
        cases hlookup : s.apps.lookup appId with
        | none => exact setBounded_empty
        | some set => exact h.sets appId set hlookup
      obtain ⟨m, hm, hverified⟩ := observe_verified archiveSample hset appId peerId now
      exact ⟨_, (lookup_observeMemberships archiveSample hother peerId now).trans
        (AList.lookup_insert _), m, hm, hverified⟩
    · exact ih (h.observeMembership archiveSample other now hpeer) hnodup hmem hpeer

end Sample

/-! ### Capacities -/

variable {s s' : AppDiscoveryState} {appId address : String}
variable {peerId t verifiedAt appInfoUpdatedAt : UInt64}

theorem HasVerified.keepMemberships
    (h : s.HasVerified appId peerId t) {p : String → AppPeerTier → AppPeerMembership → Bool}
    (hp : ∀ tier m, m.peerId = peerId → t ≤ m.lastVerifiedForApp →
      (∀ set, s.apps.lookup appId = some set → m ∈ set.memberships) → p appId tier m) :
    (s.keepMemberships p).1.dropEmpty.HasVerified appId peerId t := by
  obtain ⟨set, hset, m, hm, hid, ht⟩ := h
  have hkept (tier : AppPeerTier) : p appId tier m := by
    refine hp tier m hid ht fun set' hset' => ?_
    cases hset.symm.trans hset'
    exact hm
  have hm' : m ∈ (set.keep (p appId)).memberships := by
    rcases List.mem_append.mp hm with hm | hm
    · exact List.mem_append_left _ (List.mem_filter.mpr ⟨hm, hkept _⟩)
    · exact List.mem_append_right _ (List.mem_filter.mpr ⟨hm, hkept _⟩)
  refine ⟨set.keep (p appId), lookup_dropEmpty.mpr ⟨fun hsize => ?_,
    lookup_keepMemberships.mpr ⟨set, hset, rfl⟩⟩, m, hm', hid, ht⟩
  have hlength := List.length_pos_of_mem hm'
  rw [AppPeerSet.memberships, List.length_append] at hlength
  exact hlength.ne' hsize

theorem of_mem_associations {time : UInt64}
    {tier : AppPeerTier} (h : (time, appId, tier, peerId) ∈ s.associations) :
    ∃ set, s.apps.lookup appId = some set ∧
      ∃ m ∈ set.memberships, m.peerId = peerId ∧ m.lastVerifiedForApp = time := by
  obtain ⟨⟨appId', set⟩, hmem, ha⟩ := List.mem_flatMap.mp h
  have hset := AList.mem_lookup_iff.mpr hmem
  rcases List.mem_append.mp ha with ha | ha
  · obtain ⟨m, hm, heq⟩ := List.mem_map.mp ha
    cases heq
    exact ⟨set, hset, m, List.mem_append_left _ hm, rfl, rfl⟩
  · obtain ⟨m, hm, heq⟩ := List.mem_map.mp ha
    cases heq
    exact ⟨set, hset, m, List.mem_append_right _ hm, rfl, rfl⟩

/-- A peer is a member of an application once only. -/
theorem Consistent.member_unique (h : Consistent s)
    {set : AppPeerSet} (hset : s.apps.lookup appId = some set) {m m' : AppPeerMembership}
    (hm : m ∈ set.memberships) (hm' : m' ∈ set.memberships) (hid : m.peerId = m'.peerId) :
    m = m' :=
  List.inj_on_of_nodup_map (h.sets appId set hset).distinct hm hm' hid

theorem HasVerified.enforceGlobalCapacity
    (h : s.HasVerified appId peerId t) (hconsistent : Consistent s)
    (order : Arrangement (UInt64 × Association))
    (hfew : s.verifiedSince t ≤ appDiscoveryGlobalAssociationCapacity) :
    (enforceGlobalCapacity order s).1.HasVerified appId peerId t := by
  unfold AppDiscoveryState.enforceGlobalCapacity
  split
  case isTrue => exact h
  case isFalse hfull =>
  refine h.keepMemberships fun tier m hid ht hm => decide_eq_true fun hevicted => ?_
  obtain ⟨⟨time, key⟩, htaken, heq⟩ := List.mem_map.mp hevicted
  obtain rfl : key = (appId, tier, m.peerId) := heq
  have hperm := (List.perm_insertionSort (fun left right : UInt64 × Association =>
    left.1 ≤ right.1) (order.1 s.associations)).trans (order.2 _)
  obtain ⟨set, hset, m', hm', hid', htime⟩ :=
    of_mem_associations (hperm.mem_iff.mp (List.mem_of_mem_take htaken))
  obtain rfl := hconsistent.member_unique hset hm' (hm set hset) hid'
  have htotal : Std.Total fun left right : UInt64 × Association => left.1 ≤ right.1 :=
    ⟨fun _ _ => UInt64.le_total _ _⟩
  have htrans : IsTrans (UInt64 × Association) fun left right => left.1 ≤ right.1 :=
    ⟨fun _ _ _ => UInt64.le_trans⟩
  have hsorted := List.pairwise_insertionSort (fun left right : UInt64 × Association =>
    left.1 ≤ right.1) (order.1 s.associations)
  have hcount := hperm.countP_eq fun a => decide (t ≤ a.1)
  rw [countP_associations] at hcount
  rw [← hperm.length_eq] at htaken
  refine not_mem_take_of_countP_le hsorted (fun a b hab ha => ?_) (hcount.trans_le hfew) ?_ ?_
    htaken
  · exact decide_eq_true (UInt64.le_trans (of_decide_eq_true ha) hab)
  · rw [hperm.length_eq]
    exact (not_le.mp hfull).le
  · exact decide_eq_true (htime ▸ ht)

instance (referenced : List UInt64) : Std.Total (evictedBefore referenced) where
  total a b := by
    have htimes := UInt64.le_total a.2.lastDirectlyVerifiedAt b.2.lastDirectlyVerifiedAt
    unfold evictedBefore
    tauto

instance (referenced : List UInt64) : IsTrans _ (evictedBefore referenced) where
  trans a b c hab hbc := by
    have htimes := @UInt64.le_trans a.2.lastDirectlyVerifiedAt b.2.lastDirectlyVerifiedAt
      c.2.lastDirectlyVerifiedAt
    unfold evictedBefore at *
    tauto

/-- The peers verified at some time or later. -/
def peersSince (t : UInt64) (s : AppDiscoveryState) : Nat :=
  s.peers.count fun record => decide (t ≤ record.lastDirectlyVerifiedAt)

/-- A peer that is a member of something and was verified late is not evicted. -/
theorem not_mem_evictedPeers (order : Arrangement (String × AppPeerRecord))
    (hfew : s.peersSince t ≤ appDiscoveryGlobalPeerCapacity)
    (hfull : appDiscoveryGlobalPeerCapacity ≤ s.peers.entries.length) {peer : String × AppPeerRecord}
    (hreferenced : peer.2.peerId ∈ s.referenced) (ht : t ≤ peer.2.lastDirectlyVerifiedAt) :
    peer ∉ evictedPeers order s := by
  have hperm := (List.perm_insertionSort (evictedBefore s.referenced)
    (order.1 (s.peers.entries.map fun e => (e.1, e.2)))).trans (order.2 _)
  have hsorted := List.pairwise_insertionSort (evictedBefore s.referenced)
    (order.1 (s.peers.entries.map fun e => (e.1, e.2)))
  have hcount : (s.peers.entries.map fun e => (e.1, e.2)).countP (fun a => decide
      (a.2.peerId ∈ s.referenced ∧ t ≤ a.2.lastDirectlyVerifiedAt)) ≤ s.peersSince t := by
    rw [List.countP_map]
    refine List.countP_mono_left fun e _ he => ?_
    exact decide_eq_true (of_decide_eq_true he).2
  have hlength := hperm.length_eq
  rw [List.length_map] at hlength
  unfold evictedPeers
  rw [← hlength]
  refine not_mem_take_of_countP_le (p := fun a => decide (a.2.peerId ∈ s.referenced ∧
    t ≤ a.2.lastDirectlyVerifiedAt)) hsorted (fun a b hab ha => ?_) ?_ (hlength ▸ hfull) ?_
  · obtain ⟨ha, hta⟩ := of_decide_eq_true ha
    rcases hab with ⟨hunreferenced, -⟩ | ⟨hsame, htimes⟩
    · exact absurd ha hunreferenced
    · exact decide_eq_true ⟨hsame.mp ha, UInt64.le_trans hta htimes⟩
  · exact (hperm.countP_eq _).trans_le (hcount.trans hfew)
  · exact decide_eq_true ⟨hreferenced, ht⟩

variable {record : AppPeerRecord}

/-- What such a peer is a member of stays, too. -/
theorem kept_enforcePeerCapacity (order : Arrangement (String × AppPeerRecord))
    (hfew : s.peersSince t ≤ appDiscoveryGlobalPeerCapacity)
    (hrecord : s.peers.lookup address = some record)
    (hreferenced : record.peerId ∈ s.referenced) (ht : t ≤ record.lastDirectlyVerifiedAt)
    (hdistinct : ∀ address' record', s.peers.lookup address' = some record' →
      record'.peerId = record.peerId → address' = address) :
    (enforcePeerCapacity order s).1.peers.lookup address = some record ∧
      ∀ appId, s.HasVerified appId record.peerId t →
        (enforcePeerCapacity order s).1.HasVerified appId record.peerId t := by
  unfold enforcePeerCapacity
  split
  case isTrue => exact ⟨hrecord, fun _ h => h⟩
  case isFalse hfull =>
  have hkept (peer : String × AppPeerRecord) (hpeer : peer ∈ evictedPeers order s) :
      peer.2.peerId ≠ record.peerId := by
    intro hid
    have hlookup := mem_evictedPeers hpeer
    obtain rfl := hdistinct peer.1 peer.2 hlookup hid
    cases hlookup.symm.trans hrecord
    exact not_mem_evictedPeers order hfew (not_le.mp hfull).le hreferenced ht hpeer
  refine ⟨?_, fun appId h => ?_⟩
  · dsimp only [peers_dropEmpty, peers_keepMemberships]
    refine AList.lookup_retain_eq_some.mpr ⟨fun hevicted => ?_, hrecord⟩
    obtain ⟨peer, hpeer, rfl⟩ := List.mem_map.mp hevicted
    have hlookup := mem_evictedPeers hpeer
    cases hlookup.symm.trans hrecord
    exact hkept peer hpeer rfl
  · refine HasVerified.keepMemberships (s := { s with peers := _ }) h
      fun tier m hid _ _ => decide_eq_true fun hevicted => ?_
    obtain ⟨peer, hpeer, hsame⟩ := List.mem_map.mp hevicted
    exact hkept peer hpeer (hsame.trans hid)

/-! ### Direct reads -/

/-- A peer that is known is a member of an application. -/
def IsMember (s : AppDiscoveryState) (address appId : String) : Prop :=
  ∃ record set, s.peers.lookup address = some record ∧ s.apps.lookup appId = some set ∧
    record.peerId ∈ set.ids

/-- No peer and no member is new. -/
structure Dwindles (s s' : AppDiscoveryState) : Prop where
  peers : ∀ address record, s'.peers.lookup address = some record →
    s.peers.lookup address = some record
  sets : ∀ appId set', s'.apps.lookup appId = some set' →
    ∃ set, s.apps.lookup appId = some set ∧ set'.ids ⊆ set.ids

namespace Dwindles

variable {s'' : AppDiscoveryState}

theorem refl (s : AppDiscoveryState) : Dwindles s s :=
  ⟨fun _ _ h => h, fun _ set h => ⟨set, h, List.Subset.refl _⟩⟩

theorem trans (h : Dwindles s s') (h' : Dwindles s' s'') : Dwindles s s'' := by
  refine ⟨fun address record hrecord => h.peers _ _ (h'.peers _ _ hrecord),
    fun appId set'' hset'' => ?_⟩
  obtain ⟨set', hset', hsub'⟩ := h'.sets appId set'' hset''
  obtain ⟨set, hset, hsub⟩ := h.sets appId set' hset'
  exact ⟨set, hset, List.Subset.trans hsub' hsub⟩

theorem keepMemberships (s : AppDiscoveryState)
    (p : String → AppPeerTier → AppPeerMembership → Bool) :
    Dwindles s (s.keepMemberships p).1.dropEmpty := by
  refine ⟨fun _ _ h => h, fun appId set' hset' => ?_⟩
  obtain ⟨set, hset, rfl⟩ := lookup_keepMemberships.mp (lookup_dropEmpty.mp hset').2
  exact ⟨set, hset, (keep_shrinks _ set).ids.subset⟩

theorem retain (s : AppDiscoveryState) (p : String → Prop) [DecidablePred p] :
    Dwindles s { s with peers := s.peers.retain p } :=
  ⟨fun _ _ h => (AList.lookup_retain_eq_some.mp h).2, fun _ set h => ⟨set, h, List.Subset.refl _⟩⟩

theorem enforcePeerCapacity (s : AppDiscoveryState) (order : Arrangement (String × AppPeerRecord)) :
    Dwindles s (enforcePeerCapacity order s).1 := by
  unfold AppDiscoveryState.enforcePeerCapacity
  split
  case isTrue => exact refl s
  case isFalse => exact (retain s _).trans (keepMemberships _ _)

theorem enforceGlobalCapacity (s : AppDiscoveryState) (order : Arrangement (UInt64 × Association)) :
    Dwindles s (enforceGlobalCapacity order s).1 := by
  unfold AppDiscoveryState.enforceGlobalCapacity
  split
  case isTrue => exact refl s
  case isFalse => exact keepMemberships s _

end Dwindles

theorem IsMember.of_dwindles
    (h : s'.IsMember address appId) (hdwindles : Dwindles s s') : s.IsMember address appId := by
  obtain ⟨record, set', hrecord, hset', hid⟩ := h
  obtain ⟨set, hset, hsub⟩ := hdwindles.sets appId set' hset'
  exact ⟨record, set, hdwindles.peers address record hrecord, hset, hsub hid⟩

variable {advertised : List String}

/-- A peer that is withdrawn is a member of announced applications only. -/
theorem withdraw_members (h : (s.withdraw address advertised).1.IsMember address appId) :
    appId ∈ advertised := by
  obtain ⟨record, set, hrecord, hset, hid⟩ := h
  obtain ⟨before, hbefore, rfl⟩ := lookup_keepMemberships.mp hset
  obtain ⟨-, tier, m, hkept, hm⟩ := mem_ids_keep hid
  rcases (Bool.or_eq_true ..).mp hkept with hannounced | hother
  · exact of_decide_eq_true hannounced
  · refine absurd ?_ (of_decide_eq_true hother)
    have hexisting : s.peers.lookup address = some record := hrecord
    rw [hexisting, hm]
    rfl

/-- The record of a peer that is entered. -/
theorem recordPeer_record (s : AppDiscoveryState) (address : String)
    (verifiedAt appInfoUpdatedAt : UInt64) :
    ∃ record, (s.recordPeer address verifiedAt appInfoUpdatedAt).1.peers =
        s.peers.insert address record ∧
      record.peerId = (s.recordPeer address verifiedAt appInfoUpdatedAt).2.1 ∧
      verifiedAt ≤ record.lastDirectlyVerifiedAt ∧
      record.lastAppInfoUpdatedAt = appInfoUpdatedAt := by
  unfold recordPeer
  split
  case h_1 => exact ⟨_, rfl, rfl, le_max_right' _ _, rfl⟩
  case h_2 => exact ⟨_, rfl, rfl, UInt64.le_refl _, rfl⟩

@[simp] theorem apps_recordPeer (s : AppDiscoveryState) (address : String)
    (verifiedAt appInfoUpdatedAt : UInt64) :
    (s.recordPeer address verifiedAt appInfoUpdatedAt).1.apps = s.apps := by
  unfold recordPeer
  split <;> rfl

/-- Entering a peer makes it a member of nothing. -/
theorem recordPeer_members (hconsistent : Consistent s) {n : Nat}
    (hnumbered : Numbered n s) (hn : n + 1 < 2 ^ 64)
    (h : (s.recordPeer address verifiedAt appInfoUpdatedAt).1.IsMember address appId) :
    s.IsMember address appId := by
  obtain ⟨record, set, hrecord, hset, hid⟩ := h
  rw [apps_recordPeer] at hset
  obtain ⟨entered, hpeers, hentered, -⟩ :=
    recordPeer_record s address verifiedAt appInfoUpdatedAt
  rw [hpeers, AList.lookup_insert] at hrecord
  obtain rfl := Option.some.inj hrecord
  cases hknown : s.peers.lookup address with
  | some before =>
    have hsame : entered.peerId = before.peerId := by
      rw [hentered, recordPeer, hknown]
    exact ⟨before, set, hknown, hset, hsame ▸ hid⟩
  | none =>
    have hnew : entered.peerId = s.nextPeerId := by
      rw [hentered, recordPeer, hknown]
      exact max_one (by rw [hnumbered.next hn]; omega)
    obtain ⟨other, found, hfound, hsame⟩ := hconsistent.referred appId set hset _ hid
    have hgiven := (hnumbered.given other found hfound).2
    rw [hsame, hnew, hnumbered.next hn] at hgiven
    omega

theorem keepTombstone_members
    (h : (s.keepTombstone address verifiedAt appInfoUpdatedAt).1.IsMember address appId) :
    s.IsMember address appId := by
  unfold keepTombstone at h
  split at h
  case h_1 => exact h
  case h_2 before hbefore =>
    obtain ⟨record, set, hrecord, hset, hid⟩ := h
    cases (AList.lookup_insert _).symm.trans hrecord
    exact ⟨before, set, hbefore, hset, hid⟩

/-- What is entered of a peer is what it announces. -/
theorem enter_reflects (hconsistent : Consistent s) {n : Nat}
    (hnumbered : Numbered n s) (hn : n + 1 < 2 ^ 64)
    (archiveSample : String → UInt64 → UInt64 → UInt64) (orders : Orders) (address : String)
    (hnodup : advertised.Nodup) (appInfoUpdatedAt verifiedAt : UInt64)
    (hassociations : s.verifiedSince verifiedAt + advertised.length ≤
      appDiscoveryGlobalAssociationCapacity)
    (hpeers : s.peersSince verifiedAt < appDiscoveryGlobalPeerCapacity) (appId : String) :
    (s.enter archiveSample orders address advertised appInfoUpdatedAt verifiedAt).1.IsMember
      address appId ↔ appId ∈ advertised := by
  cases hempty : advertised.isEmpty with
  | true =>
    obtain rfl := List.isEmpty_iff.mp hempty
    refine ⟨fun h => ?_, fun h => absurd h List.not_mem_nil⟩
    have hkept : ((s.withdraw address []).1.keepTombstone address verifiedAt
        appInfoUpdatedAt).1.IsMember address appId := by
      refine IsMember.of_dwindles ?_ (.enforcePeerCapacity _ orders.peers)
      exact h
    exact withdraw_members (keepTombstone_members hkept)
  | false =>
    have hwithdrawn := hconsistent.withdraw address advertised
    have hnumbered' : Numbered n (s.withdraw address advertised).1 :=
      hnumbered.inherits (.of_peers rfl rfl)
    obtain ⟨hrecorded, hrefers⟩ := hwithdrawn.recordPeer address verifiedAt appInfoUpdatedAt
    obtain ⟨record, hinserted, hid, hverified, -⟩ := recordPeer_record
      (s.withdraw address advertised).1 address verifiedAt appInfoUpdatedAt
    have hmembers := @recordPeer_members _ appId address verifiedAt appInfoUpdatedAt hwithdrawn n
      hnumbered' hn
    have hnumbers := recordPeer_numbers (s.withdraw address advertised).1 address verifiedAt
      appInfoUpdatedAt
    have happs := apps_recordPeer (s.withdraw address advertised).1 address verifiedAt
      appInfoUpdatedAt
    rw [enter_of_advertised archiveSample orders hempty]
    dsimp only
    rw [← hid] at hrefers ⊢
    have hwithdraw := @withdraw_members s appId address advertised
    have hsince : (s.withdraw address advertised).1.verifiedSince verifiedAt ≤
        s.verifiedSince verifiedAt := verifiedSince_keepMemberships s _ _
    have hpeersSame : (s.withdraw address advertised).1.peers = s.peers := rfl
    generalize ((s.withdraw address advertised).1.recordPeer address verifiedAt
      appInfoUpdatedAt).1 = t at *
    generalize (s.withdraw address advertised).1 = u at *
    have hfew : (t.observeMemberships archiveSample record.peerId verifiedAt
        advertised).1.verifiedSince verifiedAt ≤ appDiscoveryGlobalAssociationCapacity := by
      refine (verifiedSince_observeMemberships archiveSample hrecorded verifiedAt advertised
        verifiedAt hrefers).trans ?_
      have hsame : t.verifiedSince verifiedAt = u.verifiedSince verifiedAt := by
        rw [verifiedSince, happs, verifiedSince]
      omega
    have hobserved := hrecorded.observeMemberships archiveSample advertised verifiedAt hrefers
    have hpeersObserved := peers_observeMemberships archiveSample t record.peerId verifiedAt
      advertised
    constructor
    · intro h
      have hmember := (h.of_dwindles (.enforcePeerCapacity _ orders.peers)).of_dwindles
        (.enforceGlobalCapacity _ orders.associations)
      by_contra hother
      obtain ⟨found, set, hfound, hset, hmem⟩ := hmember
      rw [hpeersObserved] at hfound
      rw [lookup_observeMemberships archiveSample hother] at hset
      exact hother (hwithdraw (hmembers ⟨found, set, hfound, hset, hmem⟩))
    intro hmem
    have hentered := (observeMemberships_verified archiveSample hrecorded hnodup hmem
      verifiedAt hrefers).enforceGlobalCapacity hobserved orders.associations hfew
    have hsame := (Alike.enforceGlobalCapacity (t.observeMemberships archiveSample record.peerId
      verifiedAt advertised).1 orders.associations).peers.trans hpeersObserved
    generalize (AppDiscoveryState.enforceGlobalCapacity orders.associations
      (t.observeMemberships archiveSample record.peerId verifiedAt advertised).1).1 = x
        at hentered hsame ⊢
    have hdistinct : ∀ address' record', x.peers.lookup address' = some record' →
        record'.peerId = record.peerId → address' = address := by
      have hlookup : t.peers.lookup address = some record := by
        rw [hinserted, AList.lookup_insert]
      intro address' record' hrecord' hid'
      rw [hsame] at hrecord'
      rcases hnumbers with hinherits | henrols
      · exact (hnumbered'.inherits hinherits).distinct _ _ _ _ hrecord' hlookup hid'
      · exact (hnumbered'.enrols henrols hn).distinct _ _ _ _ hrecord' hlookup hid'
    have hroom : x.peersSince verifiedAt ≤ appDiscoveryGlobalPeerCapacity := by
      unfold peersSince at hpeers ⊢
      rw [hsame, hinserted, hpeersSame]
      exact (AList.count_insert_le _ _ _ _).trans hpeers
    have hreferenced : record.peerId ∈ x.referenced := by
      obtain ⟨set, hset, m, hm, hmid, -⟩ := hentered
      exact mem_referenced.mpr ⟨appId, set, hset, hmid ▸ List.mem_map_of_mem hm⟩
    have hlookup : x.peers.lookup address = some record := by
      rw [hsame, hinserted, AList.lookup_insert]
    obtain ⟨hkept, hstays⟩ := kept_enforcePeerCapacity orders.peers hroom hlookup hreferenced
      hverified hdistinct
    obtain ⟨set', hset', m', hm', hid', -⟩ := hstays appId hentered
    exact ⟨record, set', hkept, hset', hid' ▸ List.mem_map_of_mem hm'⟩

theorem enter_interested (s : AppDiscoveryState)
    (archiveSample : String → UInt64 → UInt64 → UInt64) (orders : Orders) (address : String)
    (advertised : List String) (appInfoUpdatedAt verifiedAt : UInt64) :
    (s.enter archiveSample orders address advertised appInfoUpdatedAt verifiedAt).1.interestedApps =
      s.interestedApps := by
  have hcapped (t : AppDiscoveryState) :
      (enforcePeerCapacity orders.peers t).1.interestedApps = t.interestedApps := by
    unfold enforcePeerCapacity
    split <;> rfl
  unfold enter
  split
  case isTrue =>
    rw [hcapped]
    unfold keepTombstone
    split <;> rfl
  case isFalse =>
    rw [hcapped, (Alike.enforceGlobalCapacity _ _).interested,
      (Alike.observeMemberships archiveSample _ _ _ _).interested]
    unfold recordPeer
    split <;> rfl

theorem pruneExpired_dwindles (s : AppDiscoveryState)
    (order : Arrangement (String × AppPeerRecord)) (now : UInt64) :
    Dwindles s (s.pruneExpired order now).1 := by
  have hfresh : Dwindles s (s.unexpired now) := by
    refine ⟨fun _ _ h => (AList.lookup_filterEntries_eq_some.mp h).2, fun appId set' hset' => ?_⟩
    obtain ⟨set, hset, rfl⟩ := lookup_keepMemberships.mp (lookup_dropEmpty.mp hset').2
    exact ⟨set, (AList.lookup_retain_eq_some.mp hset).2, (keep_shrinks _ set).ids.subset⟩
  exact hfresh.trans (.enforcePeerCapacity _ order)

theorem peersSince_le (h : Dwindles s s') (t : UInt64) : s'.peersSince t ≤ s.peersSince t :=
  AList.count_le_count fun address record hrecord hsince =>
    ⟨record, h.peers address record hrecord, hsince⟩

/-- After a direct read that is not older than what is known of a peer, the peer is a member of the
interesting applications that it announces. -/
theorem observe_reflects (hconsistent : Consistent s) {n : Nat}
    (hnumbered : Numbered n s) (hn : n + 1 < 2 ^ 64) {Key : Type} (keys : RecordKeys Key)
    (archiveSample : String → UInt64 → UInt64 → UInt64) (orders : Orders) (peer : Key)
    (applicationIds : List String) {directlyVerifiedAt now : UInt64}
    (hcurrent : ∀ record, s.peers.lookup (keys.text peer) = some record →
      record.lastAppInfoUpdatedAt ≤ appInfoUpdatedAt)
    (hassociations : s.verifiedSince (min directlyVerifiedAt now) + applicationIds.length ≤
      appDiscoveryGlobalAssociationCapacity)
    (hpeers : s.peersSince (min directlyVerifiedAt now) < appDiscoveryGlobalPeerCapacity) :
    let s' := (s.observeDirectAppSet keys archiveSample orders peer applicationIds
      appInfoUpdatedAt directlyVerifiedAt now).1
    ∀ appId ∈ s'.interestedApps, s'.IsMember (keys.text peer) appId ↔ appId ∈ applicationIds := by
  have hpruned := hconsistent.pruneExpired orders.prune now
  have hdwindles := pruneExpired_dwindles s orders.prune now
  have hsince : (s.pruneExpired orders.prune now).1.verifiedSince (min directlyVerifiedAt now) ≤
      s.verifiedSince (min directlyVerifiedAt now) :=
    (verifiedSince_enforcePeerCapacity _ _ orders.prune).trans (verifiedSince_unexpired s _ now)
  have hnumbered' := hnumbered.inherits (Inherits.pruneExpired s orders.prune now)
  unfold observeDirectAppSet
  dsimp only
  generalize (s.pruneExpired orders.prune now).1 = t at *
  have hstale : t.isStale (keys.text peer) appInfoUpdatedAt = false := by
    unfold isStale
    cases hrecord : t.peers.lookup (keys.text peer) with
    | none => rfl
    | some record =>
      have hle := hcurrent record (hdwindles.peers _ _ hrecord)
      exact decide_eq_false (UInt64.not_lt.mpr hle)
  rw [hstale, if_neg Bool.false_ne_true]
  intro appId hinterested
  have hlength : (t.advertised applicationIds).length ≤ applicationIds.length :=
    (List.dedup_sublist _).length_le.trans (List.length_filter_le _ _)
  have hnodup : (t.advertised applicationIds).Nodup := List.nodup_dedup _
  have hreflects := enter_reflects hpruned hnumbered' hn archiveSample orders (keys.text peer)
    hnodup appInfoUpdatedAt (min directlyVerifiedAt now) (by omega)
    ((peersSince_le hdwindles _).trans_lt hpeers) appId
  rw [(Alike.bump _ _).interested, enter_interested] at hinterested
  have hannounced : appId ∈ t.advertised applicationIds ↔ appId ∈ applicationIds := by
    unfold advertised
    rw [List.mem_dedup, List.mem_filter, decide_eq_true_iff]
    exact and_iff_left hinterested
  rw [← hannounced, ← hreflects]
  unfold bump
  split <;> rfl

/-! ### Records -/

variable {archiveSample : String → UInt64 → UInt64 → UInt64}

theorem enter_records {orders : Orders} {other : String}
    (h : (s.enter archiveSample orders address advertised appInfoUpdatedAt
      verifiedAt).1.peers.lookup other = some record) :
    s.peers.lookup other = some record ∨
      other = address ∧ record.lastAppInfoUpdatedAt = appInfoUpdatedAt := by
  have hinserted (peers : Peers) (entered : AppPeerRecord)
      (hstamp : entered.lastAppInfoUpdatedAt = appInfoUpdatedAt)
      (hlookup : (peers.insert address entered).lookup other = some record) :
      peers.lookup other = some record ∨
        other = address ∧ record.lastAppInfoUpdatedAt = appInfoUpdatedAt := by
    obtain ⟨rfl, rfl⟩ | ⟨-, hother⟩ := AList.of_lookup_insert hlookup
    · exact .inr ⟨rfl, hstamp⟩
    · exact .inl hother
  cases hempty : advertised.isEmpty with
  | true =>
    have hkept : ((s.withdraw address advertised).1.keepTombstone address verifiedAt
        appInfoUpdatedAt).1.peers.lookup other = some record := by
      refine (Dwindles.enforcePeerCapacity _ orders.peers).peers _ _ ?_
      unfold enter at h
      rw [if_pos hempty] at h
      exact h
    unfold keepTombstone at hkept
    split at hkept
    case h_1 => exact .inl hkept
    case h_2 => exact hinserted _ _ rfl hkept
  | false =>
    rw [enter_of_advertised archiveSample orders hempty] at h
    have hobserved := (Dwindles.enforceGlobalCapacity _ orders.associations).peers _ _
      ((Dwindles.enforcePeerCapacity _ orders.peers).peers _ _ h)
    rw [peers_observeMemberships] at hobserved
    obtain ⟨entered, hpeers, -, -, hstamp⟩ := recordPeer_record
      (s.withdraw address advertised).1 address verifiedAt appInfoUpdatedAt
    rw [hpeers] at hobserved
    exact hinserted _ _ hstamp hobserved

theorem peers_bump (s : AppDiscoveryState) (changed : Bool) : (s.bump changed).peers = s.peers :=
  (Alike.bump s changed).peers

/-- The record of a peer changes only when the peer is read. -/
theorem after_records {Key : Type} {keys : RecordKeys Key} {event : DiscoveryEvent Key}
    (h : (s.after keys archiveSample event).peers.lookup address = some record) :
    s.peers.lookup address = some record ∨
      ∃ orders peer applicationIds appInfoUpdatedAt directlyVerifiedAt now,
        event = .observe orders peer applicationIds appInfoUpdatedAt directlyVerifiedAt now ∧
          address = keys.text peer ∧ record.lastAppInfoUpdatedAt = appInfoUpdatedAt := by
  have hquiet {t : AppDiscoveryState} (hquiet : Quiet s t)
      (hlookup : t.peers.lookup address = some record) :
      s.peers.lookup address = some record := by
    induction hquiet with
    | same => exact hlookup
    | bump _ changed ih =>
      rw [peers_bump] at hlookup
      exact ih hlookup
    | prune _ order now ih => exact ih ((pruneExpired_dwindles _ order now).peers _ _ hlookup)
    | interests _ _ ih => exact ih hlookup
    | insertSet _ _ _ ih => exact ih hlookup
    | remove _ _ ih => exact ih (AList.lookup_retain_eq_some.mp hlookup).2
  cases performs_after keys archiveSample s event with
  | quiet hsame => exact .inl (hquiet hsame h)
  | entered hsame hentered =>
    rw [hentered, peers_bump] at h
    rcases enter_records h with hbefore | ⟨haddress, hstamp⟩
    · exact .inl (hquiet hsame hbefore)
    · exact .inr ⟨_, _, _, _, _, _, rfl, haddress, hstamp⟩

end AppDiscoveryState

end VeilKnit.App
