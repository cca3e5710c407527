import VeilKnit.App.DiscoveryRuns
import VeilKnit.Library.Rotation

/-!
# Pages of peers

A page takes most of its peers from the recent list and the rest from the archive, and fills up
from either when the other is short. The peers of a page go to the back of their lists, by the time
and the number of their returns, so that repeated pages come round to every peer of a list that
gets a share.

The share of the recent list is rounded up. A page of at most four peers is all recent ones as long
as there are enough of these, and then no number of pages returns an archived peer.
-/

namespace VeilKnit.App

open Library Types

/-! ## The order of returns -/

theorem precedes_total (a b : List UInt64) : precedes a b = true ∨ precedes b a = true := by
  induction a generalizing b with
  | nil => exact .inl (by simp [precedes])
  | cons x a ih =>
    cases b with
    | nil => exact .inr (by simp [precedes])
    | cons y b =>
      simp only [precedes, Bool.or_eq_true, Bool.and_eq_true, decide_eq_true_eq]
      rcases Nat.lt_trichotomy x.toNat y.toNat with h | h | h
      · exact .inl (.inl (UInt64.lt_iff_toNat_lt.mpr h))
      · obtain rfl := UInt64.toNat_inj.mp h
        rcases ih b with hab | hba
        · exact .inl (.inr ⟨rfl, hab⟩)
        · exact .inr (.inr ⟨rfl, hba⟩)
      · exact .inr (.inl (UInt64.lt_iff_toNat_lt.mpr h))

theorem precedes_trans {a b c : List UInt64} (hab : precedes a b = true)
    (hbc : precedes b c = true) : precedes a c = true := by
  induction a generalizing b c with
  | nil => simp [precedes]
  | cons x a ih =>
    cases b with
    | nil => cases hab
    | cons y b =>
      cases c with
      | nil => cases hbc
      | cons z c =>
        simp only [precedes, Bool.or_eq_true, Bool.and_eq_true, decide_eq_true_eq] at hab hbc ⊢
        rcases hab with hxy | ⟨rfl, hab⟩
        · rcases hbc with hyz | ⟨rfl, -⟩
          · exact .inl (UInt64.lt_trans hxy hyz)
          · exact .inl hxy
        · rcases hbc with hxz | ⟨rfl, hbc⟩
          · exact .inl hxz
          · exact .inr ⟨rfl, ih hab hbc⟩

namespace AppDiscoveryState

/-- A member is returned no later than another. -/
def ReturnedFirst (left right : AppPeerMembership) : Prop :=
  precedes (returnPriority left) (returnPriority right) = true

instance : DecidableRel ReturnedFirst := fun left right =>
  inferInstanceAs (Decidable (precedes (returnPriority left) (returnPriority right) = true))

instance : Std.Total ReturnedFirst := ⟨fun _ _ => precedes_total _ _⟩

instance : IsTrans AppPeerMembership ReturnedFirst := ⟨fun _ _ _ => precedes_trans⟩

/-- How often a member may be returned before another one is. -/
def turns (m other : AppPeerMembership) : Nat :=
  if ReturnedFirst other m then 1 + (m.returnCount.toNat - other.returnCount.toNat) else 0

theorem turns_le (m other : AppPeerMembership) : turns m other ≤ m.returnCount.toNat + 1 := by
  unfold turns
  split_ifs <;> omega

/-- At this time a member can wait for its turn: it has not been returned later, and if it has been
returned in the same second, its count is not at its end. -/
def CanWait (m : AppPeerMembership) (now : UInt64) : Prop :=
  m.lastReturnedAt < now ∨ m.lastReturnedAt = now ∧ m.returnCount ≠ 4294967295

instance (m : AppPeerMembership) (now : UInt64) : Decidable (CanWait m now) :=
  inferInstanceAs (Decidable (m.lastReturnedAt < now ∨
    m.lastReturnedAt = now ∧ m.returnCount ≠ 4294967295))

theorem returnCount_markReturned (now : UInt64) (m : AppPeerMembership) :
    (markReturned now m).returnCount.toNat = min (m.returnCount.toNat + 1) 4294967295 := by
  have hlt := m.returnCount.toNat_lt
  unfold markReturned
  by_cases h : m.returnCount = 4294967295
  · simp [h]
  · have hne : m.returnCount.toNat ≠ 4294967295 := fun heq => h (UInt32.toNat_inj.mp heq)
    simp only [h, if_false, UInt32.toNat_add]
    have hone : (1 : UInt32).toNat = 1 := rfl
    omega

/-- A member that has been returned is behind one that waits, or has fewer turns left. -/
theorem turns_markReturned {m other : AppPeerMembership} {now : UInt64} (hwait : CanWait m now)
    (hfirst : ReturnedFirst other m) : turns m (markReturned now other) < turns m other := by
  have hcount := returnCount_markReturned now other
  have hturns : turns m other = 1 + (m.returnCount.toNat - other.returnCount.toNat) := if_pos hfirst
  unfold turns at hturns ⊢
  by_cases hahead : ReturnedFirst (markReturned now other) m
  · rw [if_pos hahead, hturns]
    have hkeys := hahead
    simp only [ReturnedFirst, returnPriority, precedes, Bool.or_eq_true, Bool.and_eq_true,
      decide_eq_true_eq] at hkeys
    have hlast : (markReturned now other).lastReturnedAt = now := rfl
    rw [hlast] at hkeys
    -- only in the same second can it still be ahead, by its count
    rcases hkeys with hearlier | ⟨hsame, hle⟩
    · rcases hwait with hlater | ⟨hsame, -⟩
      · exact absurd (UInt64.lt_trans hearlier hlater) (UInt64.lt_irrefl _)
      · exact absurd (hsame ▸ hearlier) (UInt64.lt_irrefl _)
    have hroom : m.returnCount.toNat ≠ 4294967295 := by
      rcases hwait with hlater | ⟨-, hroom⟩
      · exact absurd (hsame ▸ hlater) (UInt64.lt_irrefl _)
      · exact fun heq => hroom (UInt32.toNat_inj.mp heq)
    have hcounts : (markReturned now other).returnCount.toNat ≤ m.returnCount.toNat := by
      rcases hle with hlt | ⟨heq, -⟩
      · have hlt := UInt64.lt_iff_toNat_lt.mp hlt
        simp only [UInt32.toNat_toUInt64] at hlt
        exact hlt.le
      · have heq := congrArg UInt64.toNat heq
        simp only [UInt32.toNat_toUInt64] at heq
        exact heq.le
    have hlt := m.returnCount.toNat_lt
    omega
  · rw [if_neg hahead, hturns]
    omega

/-! ## The shares of the lists -/

/-- The number of recent peers on a page. -/
def recentShare (limit recent archive : Nat) : Nat :=
  let recent₁ := min recent ((limit * 4 + 4) / 5)
  let archive₁ := min archive (limit - recent₁)
  min recent (recent₁ + (limit - (recent₁ + archive₁)))

/-- The number of archived peers on a page. -/
def archiveShare (limit recent archive : Nat) : Nat :=
  let archive₁ := min archive (limit - min recent ((limit * 4 + 4) / 5))
  min archive (archive₁ + (limit - (recentShare limit recent archive + archive₁)))

theorem shares_add (limit recent archive : Nat) :
    recentShare limit recent archive + archiveShare limit recent archive =
      min limit (recent + archive) := by
  unfold archiveShare recentShare
  dsimp only
  omega

theorem recentShare_le (limit recent archive : Nat) :
    recentShare limit recent archive ≤ recent := min_le_left _ _

theorem archiveShare_le (limit recent archive : Nat) :
    archiveShare limit recent archive ≤ archive := min_le_left _ _

variable {limit recent archive i : Nat}

theorem recentShare_pos (hlimit : 0 < limit) (hrecent : 0 < recent) :
    0 < recentShare limit recent archive := by
  unfold recentShare
  dsimp only
  omega

/-- The archive has a share on pages of more than four peers, and where recent peers are few. -/
theorem archiveShare_pos_iff :
    0 < archiveShare limit recent archive ↔ 0 < archive ∧ 0 < limit ∧
      (4 < limit ∨ recent < limit) := by
  unfold archiveShare recentShare
  dsimp only
  omega

theorem range_append_range' {m n : Nat} (h : m ≤ n) :
    List.range m ++ List.range' m (n - m) = List.range n := by
  rw [List.range_eq_range', List.range_eq_range']
  have happend := List.range'_append_1 (s := 0) (m := m) (n := n - m)
  rwa [Nat.zero_add, Nat.add_sub_cancel' h] at happend

/-- The places of a page are the first ones of both lists. -/
theorem selectMembers_perm (limit recent archive : Nat) : (selectMembers limit recent archive).Perm
      ((List.range (recentShare limit recent archive)).map (AppPeerTier.recent, ·) ++
        (List.range (archiveShare limit recent archive)).map (AppPeerTier.archive, ·)) := by
  have hrecent : min recent ((limit * 4 + 4) / 5) ≤ recentShare limit recent archive := by
    unfold recentShare
    dsimp only
    omega
  have harchive : min archive (limit - min recent ((limit * 4 + 4) / 5)) ≤
      archiveShare limit recent archive := by
    unfold archiveShare
    dsimp only
    omega
  rw [← range_append_range' hrecent, ← range_append_range' harchive, List.map_append,
    List.map_append]
  have hswap : ∀ a b c d : List (AppPeerTier × Nat),
      (a ++ b ++ c ++ d).Perm (a ++ c ++ (b ++ d)) := by
    intro a b c d
    simpa only [List.append_assoc] using
      ((@List.perm_append_comm _ b c).append_right d).append_left a
  exact hswap _ _ _ _

theorem mem_selectMembers_recent :
    (AppPeerTier.recent, i) ∈ selectMembers limit recent archive ↔
      i < recentShare limit recent archive := by
  rw [(selectMembers_perm limit recent archive).mem_iff]
  simp

theorem mem_selectMembers_archive :
    (AppPeerTier.archive, i) ∈ selectMembers limit recent archive ↔
      i < archiveShare limit recent archive := by
  rw [(selectMembers_perm limit recent archive).mem_iff]
  simp

/-! ## One page -/

theorem mapIdx_lt {α : Type} (f : α → α) (q : Nat) (l : List α) :
    (l.mapIdx fun i a => if i < q then f a else a) = (l.take q).map f ++ l.drop q := by
  refine List.ext_getElem ?_ fun i h₁ h₂ => ?_
  · simp
    omega
  rw [List.getElem_mapIdx]
  by_cases hi : i < q
  · have hlength : i < ((l.take q).map f).length := by
      simp only [List.length_mapIdx] at h₁
      simp [hi, h₁]
    rw [if_pos hi, List.getElem_append_left hlength]
    simp
  have hlength : ((l.take q).map f).length ≤ i := by
    rw [List.length_map, List.length_take]
    omega
  rw [if_neg hi, List.getElem_append_right hlength, List.getElem_drop]
  congr 1
  simp only [List.length_mapIdx] at h₁
  rw [List.length_map, List.length_take]
  omega

/-- The pages of some limit have room for this many peers. -/
def pageLimit (requestedLimit : Nat) : Nat := min (max requestedLimit 1) appDiscoveryMaxApiResults

theorem pageLimit_pos (requestedLimit : Nat) : 0 < pageLimit requestedLimit := by
  unfold pageLimit appDiscoveryMaxApiResults
  omega

section Pages

variable {Key : Type} (keys : RecordKeys Key)

/-- One of the two lists. -/
def listOf (set : AppPeerSet) : AppPeerTier → List AppPeerMembership
  | .recent => set.recent
  | .archive => set.archive

/-- What a list gets of a page. -/
def share (limit : Nat) (set : AppPeerSet) : AppPeerTier → Nat
  | .recent => recentShare limit set.recent.length set.archive.length
  | .archive => archiveShare limit set.recent.length set.archive.length

/-- The members of one list that are on a page. -/
def onPage (limit : Nat) (set : AppPeerSet) (tier : AppPeerTier) : List AppPeerMembership :=
  Rotation.served ReturnedFirst (share limit set tier) (listOf set tier)

/-- All members that are on a page, with their lists. -/
def pageMembers (limit : Nat) (set : AppPeerSet) : List (AppPeerTier × AppPeerMembership) :=
  (onPage limit set .recent).map (AppPeerTier.recent, ·) ++
    (onPage limit set .archive).map (AppPeerTier.archive, ·)

/-- A page is a round in either list. -/
def Turns (limit : Nat) (now : UInt64) (set set' : AppPeerSet) : Prop :=
  ∀ tier, listOf set' tier = Rotation.round ReturnedFirst markReturned (share limit set tier) now
    (listOf set tier)

theorem turns_markSelected (limit : Nat) (now : UInt64) (set : AppPeerSet) :
    Turns limit now set (markSelected now
      (selectMembers limit (sortMembers set).recent.length (sortMembers set).archive.length)
      (sortMembers set)) := by
  have hrecent : (sortMembers set).recent.length = set.recent.length :=
    (List.perm_insertionSort _ _).length_eq
  have harchive : (sortMembers set).archive.length = set.archive.length :=
    (List.perm_insertionSort _ _).length_eq
  rw [hrecent, harchive]
  intro tier
  cases tier with
  | recent =>
    simp only [markSelected, listOf, mem_selectMembers_recent]
    exact mapIdx_lt _ _ _
  | archive =>
    simp only [markSelected, listOf, mem_selectMembers_archive]
    exact mapIdx_lt _ _ _

variable {α β : Type}

/-- The members at the places of a page, with their lists. -/
theorem filterMap_range (l : List α) (q : Nat) (f : α → Option β) :
    ((List.range q).filterMap fun i => (l[i]?).bind f) = (l.take q).filterMap f := by
  have hmembers : ((List.range q).filterMap fun i => l[i]?) = l.take q := by
    induction q generalizing l with
    | zero => rfl
    | succ q ih =>
      rw [List.range_succ_eq_map, List.filterMap_cons, List.filterMap_map]
      cases l with
      | nil => simp
      | cons a l =>
        simp only [List.getElem?_cons_zero, List.take_succ_cons]
        exact congrArg (a :: ·) (ih l)
  rw [← hmembers, List.filterMap_filterMap]

/-- What is on a page, up to its order. -/
theorem page_perm (peers : Peers) (limit : Nat) (set : AppPeerSet) :
    ((selectMembers limit (sortMembers set).recent.length
        (sortMembers set).archive.length).filterMap fun place =>
      (memberAt (sortMembers set) place).bind (resultOf keys peers place.1)).Perm
    ((pageMembers limit set).filterMap fun member => resultOf keys peers member.1 member.2) := by
  have hrecent : (sortMembers set).recent.length = set.recent.length :=
    (List.perm_insertionSort _ _).length_eq
  have harchive : (sortMembers set).archive.length = set.archive.length :=
    (List.perm_insertionSort _ _).length_eq
  rw [hrecent, harchive]
  refine ((selectMembers_perm _ _ _).filterMap _).trans ?_
  rw [pageMembers, List.filterMap_append, List.filterMap_append, List.filterMap_map,
    List.filterMap_map, List.filterMap_map, List.filterMap_map]
  refine List.Perm.of_eq ?_
  congr 1
  · exact filterMap_range (sortMembers set).recent _ (resultOf keys peers .recent)
  · exact filterMap_range (sortMembers set).archive _ (resultOf keys peers .archive)

/-- A page of a state in which nothing has expired. -/
structure Page (limit : Nat) (now : UInt64) (s s' : AppDiscoveryState) (appId : String)
    (set : AppPeerSet) (page : AppPeerPage Key) : Prop where
  turned : ∃ set', s'.apps.lookup appId = some set' ∧ Turns limit now set set'
  others : ∀ other ≠ appId, s'.apps.lookup other = s.apps.lookup other
  interests : s'.interestedApps = s.interestedApps
  peers : s'.peers = s.peers
  cached : page.totalCached = set.size
  content : page.peers.Perm
    ((pageMembers limit set).filterMap fun member => resultOf keys s.peers member.1 member.2)

variable {set set' : AppPeerSet} {s : AppDiscoveryState} {now : UInt64}

theorem listPeers_page {order : Arrangement (String × AppPeerRecord)}
    {appId : String} (requestedLimit : Nat)
    (hquiet : (s.pruneExpired order now).1 = s) (hset : s.apps.lookup appId = some set) :
    Page keys (pageLimit requestedLimit) now s
      (s.listPeers keys order appId requestedLimit now).1 appId set
      (s.listPeers keys order appId requestedLimit now).2 := by
  unfold listPeers
  dsimp only
  rw [hquiet]
  split
  case h_1 hnone =>
    rw [hset] at hnone
    cases hnone
  case h_2 found hfound =>
  cases hset.symm.trans hfound
  refine ⟨⟨_, ?_, turns_markSelected _ _ _⟩, fun other hother => ?_, ?_, ?_, rfl,
    page_perm keys s.peers _ set⟩
  · unfold bump
    split_ifs
    · exact AList.lookup_insert _
    · exact AList.lookup_insert _
  · unfold bump
    split_ifs
    · exact AList.lookup_insert_ne hother
    · exact AList.lookup_insert_ne hother
  · unfold bump
    split_ifs
    · rfl
    · rfl
  · unfold bump
    split_ifs
    · rfl
    · rfl

/-! ## The peers of a page -/

/-- Every address is the text of a key. -/
def Addressed (peers : Peers) : Prop :=
  ∀ address record, peers.lookup address = some record → ∃ key, address = keys.text key

/-- A result is the peer of some number. -/
def Names (peers : Peers) (result : AppPeerResult Key) (peerId : UInt64) : Prop :=
  ∃ record, peers.lookup (keys.text result.mainDht) = some record ∧ record.peerId = peerId

variable {keys} {peers : Peers} {m : AppPeerMembership}

theorem resultOf_names (haddressed : Addressed keys peers) (tier : AppPeerTier)
    (hrefers : Refers peers m.peerId) :
    ∃ result, resultOf keys peers tier m = some result ∧ Names keys peers result m.peerId := by
  obtain ⟨address, record, hrecord, hid⟩ := hrefers
  have hmem : ⟨address, record⟩ ∈ peers.entries.reverse :=
    List.mem_reverse.mpr (AList.mem_lookup_iff.mp hrecord)
  cases hfind : peers.entries.reverse.find? fun e => decide (e.2.peerId = m.peerId) with
  | none =>
    have hnone := List.find?_eq_none.mp hfind ⟨address, record⟩ hmem
    simp [hid] at hnone
  | some e =>
    have hfound := AList.mem_lookup_iff.mpr (List.mem_reverse.mp (List.mem_of_find?_eq_some hfind))
    obtain ⟨key, hkey⟩ := haddressed e.1 e.2 hfound
    have hresult : ∃ result, resultOf keys peers tier m = some result ∧ result.mainDht = key := by
      unfold resultOf
      rw [hfind, Option.bind_some, hkey, keys.parse_text]
      exact ⟨_, rfl, rfl⟩
    obtain ⟨result, hresult, hmain⟩ := hresult
    refine ⟨result, hresult, e.2, ?_, by simpa using List.find?_some hfind⟩
    rw [hmain, ← hkey]
    exact hfound

/-- Peers with different numbers are different. -/
theorem Names.eq {result result' : AppPeerResult Key} {peerId peerId' : UInt64}
    (h : Names keys peers result peerId) (h' : Names keys peers result' peerId')
    (hsame : result.mainDht = result'.mainDht) : peerId = peerId' := by
  obtain ⟨record, hrecord, rfl⟩ := h
  obtain ⟨record', hrecord', rfl⟩ := h'
  rw [hsame, hrecord'] at hrecord
  rw [Option.some.inj hrecord]

theorem length_filterMap_of_isSome {f : α → Option β} {l : List α}
    (h : ∀ a ∈ l, (f a).isSome) : (l.filterMap f).length = l.length := by
  induction l with
  | nil => rfl
  | cons a l ih =>
    obtain ⟨b, hb⟩ := Option.isSome_iff_exists.mp (h a List.mem_cons_self)
    rw [List.filterMap_cons_some hb, List.length_cons, List.length_cons,
      ih fun c hc => h c (List.mem_cons_of_mem _ hc)]

theorem length_listOf (set : AppPeerSet) (tier : AppPeerTier) (limit : Nat) :
    (onPage limit set tier).length = share limit set tier := by
  have hshare : share limit set tier ≤ (listOf set tier).length := by
    cases tier with
    | recent => exact recentShare_le _ _ _
    | archive => exact archiveShare_le _ _ _
  unfold onPage Rotation.served
  rw [List.length_take, (List.perm_insertionSort _ _).length_eq, Nat.min_eq_left hshare]

theorem length_pageMembers (limit : Nat) (set : AppPeerSet) :
    (pageMembers limit set).length = min limit set.size := by
  rw [pageMembers, List.length_append, List.length_map, List.length_map, length_listOf,
    length_listOf]
  exact shares_add _ _ _

theorem onPage_subperm (limit : Nat) (set : AppPeerSet) (tier : AppPeerTier) :
    (onPage limit set tier).Subperm (listOf set tier) :=
  ((List.take_sublist _ _).subperm).trans (List.perm_insertionSort _ _).subperm

theorem ids_pageMembers (limit : Nat) (set : AppPeerSet) :
    ((pageMembers limit set).map fun member => member.2.peerId).Subperm set.ids := by
  have hmembers : ((pageMembers limit set).map Prod.snd).Subperm set.memberships := by
    rw [pageMembers, List.map_append, List.map_map, List.map_map]
    simpa [Function.comp_def, listOf, AppPeerSet.memberships] using
      (onPage_subperm limit set .recent).append (onPage_subperm limit set .archive)
  obtain ⟨members, hperm, hsub⟩ := hmembers
  have hids := hperm.map fun m => m.peerId
  rw [List.map_map] at hids
  exact ⟨_, hids, hsub.map _⟩

variable {s s' : AppDiscoveryState} {appId : String} {set : AppPeerSet} {page : AppPeerPage Key}
  {limit : Nat} {now : UInt64}

theorem Page.refers (hconsistent : Consistent s) (hset : s.apps.lookup appId = some set)
    {member : AppPeerTier × AppPeerMembership} (h : member ∈ pageMembers limit set) :
    Refers s.peers member.2.peerId :=
  hconsistent.referred appId set hset _ ((ids_pageMembers limit set).subset (List.mem_map_of_mem h))

section

variable (h : Page keys limit now s s' appId set page)

include h

/-- A page has as many peers as it can have. -/
theorem Page.length (hconsistent : Consistent s)
    (haddressed : Addressed keys s.peers) (hset : s.apps.lookup appId = some set) :
    page.peers.length = min limit set.size := by
  rw [h.content.length_eq, length_filterMap_of_isSome, length_pageMembers]
  intro member hmember
  obtain ⟨result, hresult, -⟩ := resultOf_names haddressed member.1
    (Page.refers hconsistent hset hmember)
  rw [hresult]
  rfl

/-- The peers of a page are different. -/
theorem Page.nodup (hconsistent : Consistent s)
    (haddressed : Addressed keys s.peers) (hset : s.apps.lookup appId = some set) :
    (page.peers.map (·.mainDht)).Nodup := by
  have hdistinct := nodup_of_subperm (ids_pageMembers limit set)
    (hconsistent.sets appId set hset).distinct
  rw [(h.content.map _).nodup_iff, List.Nodup, List.pairwise_map, List.pairwise_filterMap]
  rw [List.Nodup, List.pairwise_map] at hdistinct
  refine hdistinct.imp_of_mem ?_
  intro a b ha hb hne result hresult result' hresult' hsame
  obtain ⟨found, hfound, hnames⟩ := resultOf_names haddressed a.1 (Page.refers hconsistent hset ha)
  obtain ⟨found', hfound', hnames'⟩ := resultOf_names haddressed b.1
    (Page.refers hconsistent hset hb)
  cases hfound.symm.trans hresult
  cases hfound'.symm.trans hresult'
  exact hne (hnames.eq hnames' hsame)

/-- The members on a page are returned. -/
theorem Page.returns (hconsistent : Consistent s)
    (haddressed : Addressed keys s.peers) (hset : s.apps.lookup appId = some set)
    {tier : AppPeerTier} (hm : m ∈ onPage limit set tier) :
    ∃ result ∈ page.peers, Names keys s.peers result m.peerId := by
  have hmember : (tier, m) ∈ pageMembers limit set := by
    cases tier with
    | recent => exact List.mem_append_left _ (List.mem_map_of_mem hm)
    | archive => exact List.mem_append_right _ (List.mem_map_of_mem hm)
  obtain ⟨result, hresult, hnames⟩ := resultOf_names haddressed tier
    (Page.refers hconsistent hset hmember)
  exact ⟨result, h.content.mem_iff.mpr (List.mem_filterMap.mpr ⟨_, hmember, hresult⟩), hnames⟩

end

/-! ## Nothing expires -/

/-- Nothing in the cache has expired at some time. -/
structure Fresh (s : AppDiscoveryState) (now : UInt64) : Prop where
  interests : ∀ e ∈ s.interestedApps.entries, cutoff now ≤ e.2
  wanted : ∀ appId set, s.apps.lookup appId = some set → appId ∈ s.interestedApps ∧ set.size ≠ 0
  members : ∀ appId set, s.apps.lookup appId = some set →
    ∀ m ∈ set.memberships, cutoff now ≤ m.lastVerifiedForApp
  peers : ∀ e ∈ s.peers.entries, cutoff now ≤ e.2.lastDirectlyVerifiedAt ∨ e.2.peerId ∈ s.referenced
  few : s.peers.entries.length ≤ appDiscoveryGlobalPeerCapacity

theorem keep_eq_self {p : AppPeerTier → AppPeerMembership → Bool}
    (h : ∀ tier, ∀ m ∈ set.memberships, p tier m) : set.keep p = set := by
  unfold AppPeerSet.keep
  have hrecent : set.recent.filter (p .recent) = set.recent :=
    List.filter_eq_self.mpr fun m hm => h .recent m (List.mem_append_left _ hm)
  have harchive : set.archive.filter (p .archive) = set.archive :=
    List.filter_eq_self.mpr fun m hm => h .archive m (List.mem_append_right _ hm)
  rw [hrecent, harchive]

theorem keepMemberships_eq_self {p : String → AppPeerTier → AppPeerMembership → Bool}
    (h : ∀ appId set, s.apps.lookup appId = some set →
      ∀ tier, ∀ m ∈ set.memberships, p appId tier m) : (s.keepMemberships p).1 = s := by
  have happs : (s.apps.mapEntries fun appId set => set.keep (p appId)) = s.apps := by
    refine AList.ext ?_
    refine (List.map_congr_left fun e he => ?_).trans (List.map_id _)
    change (⟨e.1, e.2.keep (p e.1)⟩ : Σ _ : String, AppPeerSet) = e
    rw [keep_eq_self (h e.1 e.2 (AList.mem_lookup_iff.mpr he))]
  unfold keepMemberships
  rw [happs]

/-- Where nothing has expired, nothing is removed. -/
theorem Fresh.pruneExpired (h : Fresh s now)
    (order : Arrangement (String × AppPeerRecord)) : (s.pruneExpired order now).1 = s := by
  have hinterests : (s.interestedApps.filterEntries fun _ lastRequested =>
      decide (cutoff now ≤ lastRequested)) = s.interestedApps :=
    AList.filterEntries_eq_self fun e he => decide_eq_true (h.interests e he)
  have hwanted : (s.apps.retain fun appId => appId ∈ s.interestedApps) = s.apps := by
    refine AList.ext (List.filter_eq_self.mpr fun e he => decide_eq_true ?_)
    exact (h.wanted e.1 e.2 (AList.mem_lookup_iff.mpr he)).1
  have hmembers : (s.keepMemberships fun _ _ m =>
      decide (cutoff now ≤ m.lastVerifiedForApp)).1 = s :=
    keepMemberships_eq_self fun appId set hset _ m hm =>
      decide_eq_true (h.members appId set hset m hm)
  have hfilled : s.dropEmpty = s := by
    have happs : (s.apps.filterEntries fun _ set => decide (set.size ≠ 0)) = s.apps :=
      AList.filterEntries_eq_self fun e he =>
        decide_eq_true (h.wanted e.1 e.2 (AList.mem_lookup_iff.mpr he)).2
    unfold dropEmpty
    rw [happs]
  have hfresh : s.fresh now = s := by
    unfold AppDiscoveryState.fresh
    rw [hinterests]
    dsimp only
    rw [hwanted, hmembers, hfilled]
  have hpeers : (s.peers.filterEntries fun _ record =>
      decide (cutoff now ≤ record.lastDirectlyVerifiedAt ∨ record.peerId ∈ s.referenced)) =
        s.peers :=
    AList.filterEntries_eq_self fun e he => decide_eq_true (h.peers e he)
  have hunexpired : s.unexpired now = s := by
    unfold AppDiscoveryState.unexpired
    rw [hfresh, hpeers]
  rw [pruneExpired_fst, hunexpired, enforcePeerCapacity, if_pos h.few]

/-- What a page leaves of the members. -/
theorem Turns.members {limit : Nat} (h : Turns limit now set set') :
    (set'.memberships.map fun m => (m.peerId, m.lastVerifiedForApp)).Perm
      (set.memberships.map fun m => (m.peerId, m.lastVerifiedForApp)) := by
  have htier : ∀ tier, ((listOf set' tier).map fun m => (m.peerId, m.lastVerifiedForApp)).Perm
      ((listOf set tier).map fun m => (m.peerId, m.lastVerifiedForApp)) := by
    intro tier
    rw [h tier]
    exact Rotation.map_round_perm fun _ => rfl
  unfold AppPeerSet.memberships
  rw [List.map_append, List.map_append]
  exact (htier .recent).append (htier .archive)

section

variable (h : Turns limit now set set')

include h

theorem Turns.ids : set'.ids.Perm set.ids := by
  have hids := h.members.map Prod.fst
  rwa [List.map_map, List.map_map] at hids

theorem Turns.verified (hm : m ∈ set'.memberships) :
    ∃ before ∈ set.memberships, before.lastVerifiedForApp = m.lastVerifiedForApp := by
  obtain ⟨before, hbefore, heq⟩ :=
    List.mem_map.mp (h.members.mem_iff.mp (List.mem_map_of_mem hm))
  exact ⟨before, hbefore, congrArg Prod.snd heq⟩

theorem Turns.size : set'.size = set.size := by
  have hids := h.ids.length_eq
  simpa [AppPeerSet.ids, AppPeerSet.memberships, AppPeerSet.size] using hids

end

/-- A page makes nothing expire. -/
theorem Page.fresh {later : UInt64} (h : Page keys limit now s s' appId set page)
    (hset : s.apps.lookup appId = some set) (hfresh : Fresh s later) : Fresh s' later := by
  obtain ⟨set', hset', hturns⟩ := h.turned
  -- a set of the state after the page is one before, up to its turns
  have hsets : ∀ other found', s'.apps.lookup other = some found' → ∃ found,
      s.apps.lookup other = some found ∧ found'.size = found.size ∧
      ∀ m ∈ found'.memberships, ∃ before ∈ found.memberships,
        before.lastVerifiedForApp = m.lastVerifiedForApp := by
    intro other found' hfound'
    by_cases hother : other = appId
    · subst hother
      cases hset'.symm.trans hfound'
      exact ⟨set, hset, hturns.size, fun m hm => hturns.verified hm⟩
    · rw [h.others other hother] at hfound'
      exact ⟨found', hfound', rfl, fun m hm => ⟨m, hm, rfl⟩⟩
  have hreferenced : ∀ id ∈ s.referenced, id ∈ s'.referenced := by
    intro id hid
    obtain ⟨other, found, hfound, hmem⟩ := mem_referenced.mp hid
    by_cases hother : other = appId
    · subst hother
      cases hset.symm.trans hfound
      exact mem_referenced.mpr ⟨other, set', hset', hturns.ids.mem_iff.mpr hmem⟩
    · exact mem_referenced.mpr ⟨other, found, (h.others other hother).trans hfound, hmem⟩
  constructor
  · rw [h.interests]
    exact hfresh.interests
  · intro other found' hfound'
    obtain ⟨found, hfound, hsize, -⟩ := hsets other found' hfound'
    rw [h.interests, hsize]
    exact hfresh.wanted other found hfound
  · intro other found' hfound' m hm
    obtain ⟨found, hfound, -, hmembers⟩ := hsets other found' hfound'
    obtain ⟨before, hbefore, heq⟩ := hmembers m hm
    rw [← heq]
    exact hfresh.members other found hfound before hbefore
  · rw [h.peers]
    exact fun e he => (hfresh.peers e he).imp_right (hreferenced _)
  · rw [h.peers]
    exact hfresh.few

/-! ## Pages after each other -/

variable (keys)

/-- The pages of some calls in a row. -/
def pages (appId : String) (requestedLimit : Nat) (s : AppDiscoveryState) :
    List (Arrangement (String × AppPeerRecord) × UInt64) → List (AppPeerPage Key)
  | [] => []
  | (order, now) :: calls =>
    (s.listPeers keys order appId requestedLimit now).2 ::
      pages appId requestedLimit (s.listPeers keys order appId requestedLimit now).1 calls

variable {keys} {requestedLimit : Nat}
  {calls : List (Arrangement (String × AppPeerRecord) × UInt64)}

theorem Turns.length (h : Turns limit now set set') (tier : AppPeerTier) :
    (listOf set' tier).length = (listOf set tier).length := by
  rw [h tier, Rotation.length_round]

theorem Turns.share (h : Turns limit now set set') (tier : AppPeerTier) :
    share limit set' tier = share limit set tier := by
  have hrecent : set'.recent.length = set.recent.length := h.length .recent
  have harchive : set'.archive.length = set.archive.length := h.length .archive
  cases tier with
  | recent => simp only [AppDiscoveryState.share, hrecent, harchive]
  | archive => simp only [AppDiscoveryState.share, hrecent, harchive]

/-- Every page is as long as it can be, and has different peers. -/
theorem pages_full (hconsistent : Consistent s) (haddressed : Addressed keys s.peers)
    (hset : s.apps.lookup appId = some set) (hfresh : ∀ call ∈ calls, Fresh s call.2) :
    ∀ page ∈ pages keys appId requestedLimit s calls, page.totalCached = set.size ∧
      page.peers.length = min (pageLimit requestedLimit) set.size ∧
      (page.peers.map (·.mainDht)).Nodup := by
  induction calls generalizing s set with
  | nil => exact fun page hpage => nomatch hpage
  | cons call calls ih =>
    have hsame := (hfresh call List.mem_cons_self).pruneExpired call.1
    have hpage := listPeers_page keys requestedLimit hsame hset
    have hlater := fun later hmem => hpage.fresh hset (hfresh later (List.mem_cons_of_mem _ hmem))
    obtain ⟨set', hset', hturns⟩ := hpage.turned
    intro page hmem
    rcases List.mem_cons.mp hmem with rfl | hmem
    · exact ⟨hpage.cached, hpage.length hconsistent haddressed hset,
        hpage.nodup hconsistent haddressed hset⟩
    · rw [← hturns.size]
      exact ih ((quiet_listPeers keys s _ _ _ _).consistent hconsistent) (hpage.peers ▸ haddressed)
        hset' hlater
        page hmem

/-- What a list serves in its rounds is on the pages. -/
theorem pages_return (hconsistent : Consistent s) (haddressed : Addressed keys s.peers)
    (hset : s.apps.lookup appId = some set)
    (hfresh : ∀ call ∈ calls, Fresh s call.2) (tier : AppPeerTier) :
    List.Forall₂ (fun members page => ∀ m ∈ members, ∃ result ∈ page.peers,
        Names keys s.peers result m.peerId)
      (Rotation.history ReturnedFirst markReturned (share (pageLimit requestedLimit) set tier)
        (calls.map Prod.snd) (listOf set tier))
      (pages keys appId requestedLimit s calls) := by
  induction calls generalizing s set with
  | nil => exact .nil
  | cons call calls ih =>
    have hsame := (hfresh call List.mem_cons_self).pruneExpired call.1
    have hpage := listPeers_page keys requestedLimit hsame hset
    have hlater := fun later hmem => hpage.fresh hset (hfresh later (List.mem_cons_of_mem _ hmem))
    obtain ⟨set', hset', hturns⟩ := hpage.turned
    refine .cons (fun m hm => hpage.returns hconsistent haddressed hset hm) ?_
    have hrest := ih ((quiet_listPeers keys s _ _ _ _).consistent hconsistent)
      (hpage.peers ▸ haddressed) hset' hlater
    rw [hpage.peers, hturns tier, hturns.share tier] at hrest
    exact hrest

theorem exists_of_forall₂ {R : α → β → Prop} {as : List α} {bs : List β}
    (h : List.Forall₂ R as bs) {a : α} (ha : a ∈ as) : ∃ b ∈ bs, R a b := by
  induction h with
  | nil => cases ha
  | cons hab _ ih =>
    rcases List.mem_cons.mp ha with rfl | ha
    · exact ⟨_, List.mem_cons_self, hab⟩
    · obtain ⟨b, hb, hrelated⟩ := ih ha
      exact ⟨b, List.mem_cons_of_mem _ hb, hrelated⟩

/-- A member of a list with a share is returned within a number of pages that depends on the length
of the list and on how often the member has been returned. -/
theorem pages_come_round (hconsistent : Consistent s) (haddressed : Addressed keys s.peers)
    (hset : s.apps.lookup appId = some set)
    (hfresh : ∀ call ∈ calls, Fresh s call.2) {tier : AppPeerTier}
    (hshare : 0 < share (pageLimit requestedLimit) set tier)
    (hm : m ∈ listOf set tier) (hwait : ∀ call ∈ calls, CanWait m call.2)
    (hlong : (listOf set tier).length * (m.returnCount.toNat + 1) < calls.length) :
    ∃ page ∈ pages keys appId requestedLimit s calls, ∃ result ∈ page.peers,
      Names keys s.peers result m.peerId := by
  have hrank : Rotation.rank (turns m) (listOf set tier) < (calls.map Prod.snd).length := by
    rw [List.length_map]
    exact (Rotation.rank_le fun other _ => turns_le m other).trans_lt hlong
  have hlower : ∀ now ∈ calls.map Prod.snd, ∀ other, ReturnedFirst other m →
      turns m (markReturned now other) < turns m other := by
    intro now hnow other hfirst
    obtain ⟨call, hcall, rfl⟩ := List.mem_map.mp hnow
    exact turns_markReturned (hwait call hcall) hfirst
  obtain ⟨members, hmembers, hserved⟩ := Rotation.served_within hshare hm hlower hrank
  obtain ⟨page, hpage, hreturns⟩ := exists_of_forall₂
    (pages_return hconsistent haddressed hset hfresh tier) hmembers
  exact ⟨page, hpage, hreturns m hserved⟩

/-! ## What no page returns -/

/-- A member that is on no page of any state of its set that the calls can lead to. -/
theorem never_on_pages {P : AppPeerSet → Prop} {id : UInt64} (hconsistent : Consistent s)
    (haddressed : Addressed keys s.peers) (hset : s.apps.lookup appId = some set)
    (hfresh : ∀ call ∈ calls, Fresh s call.2) (hkeep : ∀ set set', ∀ call ∈ calls, P set →
      Turns (pageLimit requestedLimit) call.2 set set' → P set')
    (hout : ∀ set, P set → ∀ member ∈ pageMembers (pageLimit requestedLimit) set,
      member.2.peerId ≠ id)
    (hP : P set) :
    ∀ page ∈ pages keys appId requestedLimit s calls, ∀ result ∈ page.peers,
      ¬ Names keys s.peers result id := by
  induction calls generalizing s set with
  | nil => exact fun page hpage => nomatch hpage
  | cons call calls ih =>
    have hsame := (hfresh call List.mem_cons_self).pruneExpired call.1
    have hpage := listPeers_page keys requestedLimit hsame hset
    have hlater := fun later hmem => hpage.fresh hset (hfresh later (List.mem_cons_of_mem _ hmem))
    obtain ⟨set', hset', hturns⟩ := hpage.turned
    intro page hmem result hresult
    rcases List.mem_cons.mp hmem with rfl | hmem
    · intro hnames
      obtain ⟨member, hmember, hfound⟩ :=
        List.mem_filterMap.mp (hpage.content.mem_iff.mp hresult)
      obtain ⟨found, hfound', hmine⟩ := resultOf_names haddressed member.1
        (Page.refers hconsistent hset hmember)
      cases hfound.symm.trans hfound'
      exact hout set hP member hmember (hmine.eq hnames rfl)
    · rw [← hpage.peers]
      exact ih ((quiet_listPeers keys s _ _ _ _).consistent hconsistent)
        (hpage.peers ▸ haddressed) hset' hlater
        (fun set set' later hcall => hkeep set set' later (List.mem_cons_of_mem _ hcall))
        (hkeep set set' call List.mem_cons_self hP hturns) page hmem result hresult

/-- A list without a share is left out, however many pages there are. -/
theorem archive_is_left_out (hconsistent : Consistent s) (haddressed : Addressed keys s.peers)
    (hset : s.apps.lookup appId = some set) (hfresh : ∀ call ∈ calls, Fresh s call.2)
    (hshare : share (pageLimit requestedLimit) set .archive = 0) (hm : m ∈ set.archive) :
    ∀ page ∈ pages keys appId requestedLimit s calls, ∀ result ∈ page.peers,
      ¬ Names keys s.peers result m.peerId := by
  have hdistinct := (hconsistent.sets appId set hset).distinct
  rw [AppPeerSet.ids, AppPeerSet.memberships, List.map_append, List.nodup_append] at hdistinct
  refine never_on_pages (P := fun set => share (pageLimit requestedLimit) set .archive = 0 ∧
    m.peerId ∉ set.recent.map (·.peerId)) hconsistent haddressed hset hfresh ?_ ?_ ⟨hshare, ?_⟩
  · intro set set' call _ hP hturns
    have hids : (set'.recent.map (·.peerId)).Perm (set.recent.map (·.peerId)) := by
      have hround : set'.recent = _ := hturns .recent
      rw [hround]
      exact Rotation.map_round_perm fun _ => rfl
    exact ⟨(hturns.share .archive).trans hP.1, fun hmem => hP.2 (hids.mem_iff.mp hmem)⟩
  · intro set hP member hmember heq
    rcases List.mem_append.mp hmember with hrecent | harchive
    · obtain ⟨other, hother, rfl⟩ := List.mem_map.mp hrecent
      exact hP.2 (heq ▸ List.mem_map_of_mem ((onPage_subperm _ set .recent).subset hother))
    · obtain ⟨other, hother, -⟩ := List.mem_map.mp harchive
      rw [onPage, hP.1] at hother
      cases hother
  · intro hmem
    exact hdistinct.2.2 _ hmem _ (List.mem_map_of_mem hm) rfl

/-- In the second of its last return a member whose count is at its end stays in front. -/
theorem count_at_its_end {first second : AppPeerMembership} (hconsistent : Consistent s)
    (haddressed : Addressed keys s.peers) (hset : s.apps.lookup appId = some set)
    (hfresh : ∀ call ∈ calls, Fresh s call.2) (hrecent : set.recent = [first, second])
    (harchive : set.archive = []) (hlimit : pageLimit requestedLimit = 1)
    (horder : ReturnedFirst first second) (hcount : first.returnCount = 4294967295)
    (htimes : ∀ call ∈ calls, call.2 = first.lastReturnedAt) (hids : first.peerId ≠ second.peerId) :
    ∀ page ∈ pages keys appId requestedLimit s calls, ∀ result ∈ page.peers,
      ¬ Names keys s.peers result second.peerId := by
  have hsorted : ([first, second].insertionSort ReturnedFirst) = [first, second] :=
    List.Pairwise.insertionSort_eq (by simp [horder])
  refine never_on_pages (P := fun set => set.recent = [first, second] ∧ set.archive = [])
    hconsistent haddressed hset hfresh ?_ ?_ ⟨hrecent, harchive⟩
  · intro set set' call hcall hP hturns
    have hround := hturns .recent
    have hrest := hturns .archive
    simp only [listOf, share, hP.1, hP.2, hlimit] at hround hrest
    constructor
    · rw [hround, Rotation.round, Rotation.served, Rotation.waiting, hsorted, htimes call hcall]
      have hmarked : markReturned first.lastReturnedAt first = first := by
        rw [markReturned, if_pos hcount]
      change [markReturned first.lastReturnedAt first, second] = _
      rw [hmarked]
    · rw [hrest]
      rfl
  · intro set hP member hmember
    simp only [pageMembers, onPage, share, listOf, hP.1, hP.2, hlimit, Rotation.served, hsorted]
      at hmember
    obtain rfl : member = (AppPeerTier.recent, first) := by simpa [recentShare] using hmember
    exact hids

/-! ## Addresses along runs -/

theorem Addressed.inherits (h : Addressed keys s.peers) (hinherits : Inherits s s') :
    Addressed keys s'.peers := by
  intro address record' hrecord'
  obtain ⟨record, hrecord, -⟩ := hinherits.peers address record' hrecord'
  exact h address record hrecord

theorem Addressed.recordPeer (h : Addressed keys s.peers) (peer : Key)
    (verifiedAt appInfoUpdatedAt : UInt64) :
    Addressed keys (s.recordPeer (keys.text peer) verifiedAt appInfoUpdatedAt).1.peers := by
  unfold AppDiscoveryState.recordPeer
  split
  case h_1 record hrecord => exact h.inherits (.insertPeer hrecord rfl)
  case h_2 =>
    exact AList.forall_lookup_insert ⟨peer, rfl⟩ h

variable (archiveSample : String → UInt64 → UInt64 → UInt64)

theorem Addressed.enter (h : Addressed keys s.peers) (orders : Orders) (peer : Key)
    (advertised : List String) (appInfoUpdatedAt verifiedAt : UInt64) :
    Addressed keys (s.enter archiveSample orders (keys.text peer) advertised appInfoUpdatedAt
      verifiedAt).1.peers := by
  have hwithdrawn : Inherits s (s.withdraw (keys.text peer) advertised).1 := .of_peers rfl rfl
  unfold AppDiscoveryState.enter
  split
  case isTrue =>
    exact h.inherits ((hwithdrawn.trans (.keepTombstone _ _ _ _)).trans (.enforcePeerCapacity _ _))
  case isFalse =>
    have hrecorded := (h.inherits hwithdrawn).recordPeer peer verifiedAt appInfoUpdatedAt
    refine hrecorded.inherits (((Inherits.of_peers (peers_observeMemberships ..)
      (nextPeerId_observeMemberships ..)).trans (.enforceGlobalCapacity _ _)).trans
        (.enforcePeerCapacity _ _))

theorem Addressed.after (h : Addressed keys s.peers) (event : DiscoveryEvent Key) :
    Addressed keys (s.after keys archiveSample event).peers := by
  cases performs_after keys archiveSample s event with
  | quiet hquiet => exact h.inherits (.quiet hquiet)
  | entered hquiet hentered =>
    rw [hentered]
    exact ((h.inherits (.quiet hquiet)).enter archiveSample _ _ _ _ _).inherits
      ((Inherits.refl _).bump _)

end Pages

end AppDiscoveryState

section Runs

variable {Key : Type} (keys : RecordKeys Key) (archiveSample : String → UInt64 → UInt64 → UInt64)

open AppDiscoveryState

theorem addressed_of_reachable {run : DiscoveryRun}
    (h : (discoverySystem keys archiveSample).Reachable run) :
    Addressed keys run.state.peers := by
  induction h with
  | start hinit =>
    obtain rfl := hinit
    intro address record hrecord
    simp at hrecord
  | next event _ hstep ih =>
    obtain rfl := hstep
    exact ih.after archiveSample event

/-- The pages of a reachable cache in which nothing expires meanwhile. Each has as many different
peers as its limit and the cache allow. Every recent peer comes round within a bounded number of
pages, and every archived peer on pages of more than four peers or with few recent ones, if the
clock does not go back behind the last return of the peer and its count of returns is not at its
end in that same second. -/
theorem pages_rotate {run : DiscoveryRun}
    (h : (discoverySystem keys archiveSample).Reachable run) {appId : String} {set : AppPeerSet}
    (hset : run.state.apps.lookup appId = some set) (requestedLimit : Nat)
    {calls : List (Arrangement (String × AppPeerRecord) × UInt64)}
    (hfresh : ∀ call ∈ calls, Fresh run.state call.2) :
    (∀ page ∈ pages keys appId requestedLimit run.state calls,
      page.totalCached = set.recent.length + set.archive.length ∧
      page.peers.length =
        min (min (max requestedLimit 1) appDiscoveryMaxApiResults) page.totalCached ∧
      (page.peers.map (·.mainDht)).Nodup) ∧
    (∀ m ∈ set.recent, (∀ call ∈ calls, CanWait m call.2) →
      set.recent.length * (m.returnCount.toNat + 1) < calls.length →
      ∃ page ∈ pages keys appId requestedLimit run.state calls, ∃ result ∈ page.peers,
        Names keys run.state.peers result m.peerId) ∧
    (∀ m ∈ set.archive, 4 < requestedLimit ∨ set.recent.length < max requestedLimit 1 →
      (∀ call ∈ calls, CanWait m call.2) →
      set.archive.length * (m.returnCount.toNat + 1) < calls.length →
      ∃ page ∈ pages keys appId requestedLimit run.state calls, ∃ result ∈ page.peers,
        Names keys run.state.peers result m.peerId) := by
  have hconsistent := ((runBounded_invariant keys archiveSample).holds h).consistent
  have haddressed := addressed_of_reachable keys archiveSample h
  refine ⟨fun page hpage => ?_, fun m hm hwait hlong => ?_, fun m hm hlimit hwait hlong => ?_⟩
  · obtain ⟨hcached, hlength, hnodup⟩ := pages_full hconsistent haddressed hset hfresh page hpage
    exact ⟨hcached, hcached ▸ hlength, hnodup⟩
  · have hshare : 0 < share (pageLimit requestedLimit) set .recent :=
      recentShare_pos (pageLimit_pos _) (List.length_pos_of_mem hm)
    exact pages_come_round hconsistent haddressed hset hfresh hshare hm hwait hlong
  have hshare : 0 < share (pageLimit requestedLimit) set .archive := by
    refine archiveShare_pos_iff.mpr ⟨List.length_pos_of_mem hm, pageLimit_pos _, ?_⟩
    unfold pageLimit appDiscoveryMaxApiResults
    omega
  exact pages_come_round hconsistent haddressed hset hfresh hshare hm hwait hlong

end Runs

/-! ### Samples -/

namespace DiscoverySample

open AppDiscoveryState

def noOrder : Arrangement (String × AppPeerRecord) := ⟨fun peers => peers, .refl⟩

def member (peerId lastReturnedAt : UInt64) (returnCount : UInt32) : AppPeerMembership :=
  { newMembership peerId 1000 with lastReturnedAt := lastReturnedAt, returnCount := returnCount }

theorem few_peers : both.state.peers.entries.length ≤ appDiscoveryGlobalPeerCapacity := by
  decide +kernel

variable {now : UInt64}

/-- Within half a year of the epoch nothing has expired. -/
theorem fresh_of_cutoff {s : AppDiscoveryState} (hcutoff : cutoff now = 0)
    (hpeers : s.peers = both.state.peers) (hwanted : ∀ appId set, s.apps.lookup appId = some set →
      appId ∈ s.interestedApps ∧ set.size ≠ 0) : Fresh s now := by
  constructor
  · simp [hcutoff]
  · exact hwanted
  · simp [hcutoff]
  · simp [hcutoff]
  · exact hpeers ▸ few_peers

theorem interested_both : app ∈ both.state.interestedApps := by decide +kernel

theorem keys_both : both.state.apps.keys = [app] := by decide +kernel

theorem eq_app_of_lookup {appId : String} {found : AppPeerSet}
    (h : both.state.apps.lookup appId = some found) : appId = app := by
  have hmem : appId ∈ both.state.apps := AList.lookup_isSome.mp (by rw [h]; rfl)
  rw [AList.mem_keys, keys_both] at hmem
  exact List.mem_singleton.mp hmem

/-- The peers of the app. -/
def known : AppPeerSet := (both.state.apps.lookup app).get (by decide +kernel)

theorem known_set : both.state.apps.lookup app = some known := (Option.some_get _).symm

theorem both_fresh (hcutoff : cutoff now = 0) : Fresh both.state now := by
  refine fresh_of_cutoff hcutoff rfl fun appId set hset => ?_
  obtain rfl := eq_app_of_lookup hset
  cases known_set.symm.trans hset
  exact ⟨interested_both, by decide +kernel⟩

/-- Three pages of one peer each come round to both peers. -/
theorem pages_rotate_both : known.recent.length = 2 ∧ ∀ m ∈ known.recent,
    ∃ page ∈ pages keys app 1 both.state [(noOrder, 1300), (noOrder, 1300), (noOrder, 1301)],
      ∃ result ∈ page.peers, Names keys both.state.peers result m.peerId := by
  have hfresh : ∀ call ∈ [(noOrder, (1300 : UInt64)), (noOrder, 1300), (noOrder, 1301)],
      Fresh both.state call.2 := by
    simp only [List.forall_mem_cons]
    exact ⟨both_fresh (by decide), both_fresh (by decide), both_fresh (by decide), by simp⟩
  have hrotate := pages_rotate keys archiveSample both_reachable known_set 1 hfresh
  have hnew : ∀ m ∈ known.recent, m.lastReturnedAt = 0 ∧ m.returnCount = 0 := by decide +kernel
  have htwo : known.recent.length = 2 := by decide +kernel
  refine ⟨htwo, fun m hm => ?_⟩
  obtain ⟨hnever, hcount⟩ := hnew m hm
  refine hrotate.2.1 m hm ?_ ?_
  · simp only [List.forall_mem_cons, CanWait, hnever, hcount]
    decide
  · rw [htwo, hcount]
    decide

theorem withSet_fresh (set : AppPeerSet) (hsize : set.size ≠ 0) (hcutoff : cutoff now = 0) :
    Fresh { both.state with apps := both.state.apps.insert app set } now := by
  refine fresh_of_cutoff hcutoff rfl fun appId found hfound => ?_
  obtain ⟨rfl, rfl⟩ | ⟨hne, hother⟩ := AList.of_lookup_insert hfound
  · exact ⟨interested_both, hsize⟩
  · exact absurd (eq_app_of_lookup hother) hne

theorem both_consistent {set : AppPeerSet} (hbounded : SetBounded set)
    (hids : ∀ id ∈ set.ids, id = 1 ∨ id = 2) :
    Consistent { both.state with apps := both.state.apps.insert app set } := by
  have hbase := ((runBounded_invariant keys archiveSample).holds both_reachable).consistent
  obtain ⟨found, hfound⟩ : ∃ found, both.state.apps.lookup app = some found :=
    Option.isSome_iff_exists.mp (by decide +kernel)
  have hknown : ∀ id, id = 1 ∨ id = 2 → id ∈ found.ids := by
    have hall : (both.state.apps.lookup app).map AppPeerSet.ids = some [1, 2] := by decide +kernel
    rw [hfound, Option.map_some] at hall
    rw [Option.some.inj hall]
    simp
  constructor
  · exact AList.forall_lookup_insert hbounded hbase.sets
  intro appId other hother id hid
  obtain ⟨rfl, rfl⟩ | ⟨-, hother⟩ := AList.of_lookup_insert hother
  · exact hbase.referred app found hfound id (hknown id (hids id hid))
  · exact hbase.referred appId other hother id hid

/-- One recent peer and one in the archive. -/
def archived : AppPeerSet := ⟨2, [member 1 0 0], [member 2 0 0]⟩

/-- Two recent peers, returned in the same second, one as often as can be counted. -/
def counted : AppPeerSet := ⟨2, [member 1 1300 4294967295, member 2 1300 4294967295], []⟩

def withSet (set : AppPeerSet) : AppDiscoveryState :=
  { both.state with apps := both.state.apps.insert app set }

/-- Pages of one peer each, at times when nothing has expired. -/
theorem pages_fall_short : (both.state.listPeers keys noOrder app 0 1300).2.peers.length = 1 ∧
    ((withSet archived).apps.lookup app = some archived ∧ Fresh (withSet archived) 1300 ∧
      ∀ calls, (∀ call ∈ calls, Fresh (withSet archived) call.2) →
        ∀ page ∈ pages keys app 1 (withSet archived) calls, ∀ result ∈ page.peers,
          ¬ Names keys (withSet archived).peers result 2) ∧
    ((withSet counted).apps.lookup app = some counted ∧ Fresh (withSet counted) 1300 ∧
      ∀ calls, (∀ call ∈ calls, call.2 = 1300) →
        ∀ page ∈ pages keys app 1 (withSet counted) calls, ∀ result ∈ page.peers,
          ¬ Names keys (withSet counted).peers result 2) := by
  have haddressed : ∀ set, Addressed keys (withSet set).peers := fun _ =>
    addressed_of_reachable keys archiveSample both_reachable
  have hlookup : ∀ set, (withSet set).apps.lookup app = some set := fun _ => AList.lookup_insert _
  refine ⟨by decide +kernel,
    ⟨hlookup _, withSet_fresh _ (by decide) (by decide), fun calls hfresh => ?_⟩,
    hlookup _, withSet_fresh _ (by decide) (by decide), fun calls htimes => ?_⟩
  · have hconsistent : Consistent (withSet archived) :=
      both_consistent ⟨by decide, by decide, by decide⟩
        (List.forall_iff_forall_mem.mp (by decide))
    exact archive_is_left_out hconsistent (haddressed _) (hlookup _) hfresh (by decide)
      (m := member 2 0 0) (by decide)
  have hconsistent : Consistent (withSet counted) :=
    both_consistent ⟨by decide, by decide, by decide⟩
      (List.forall_iff_forall_mem.mp (by decide))
  have hfresh : ∀ call ∈ calls, Fresh (withSet counted) call.2 := fun call hcall =>
    (htimes call hcall) ▸ withSet_fresh _ (by decide) (by decide)
  have horder : ReturnedFirst (member 1 1300 4294967295) (member 2 1300 4294967295) := by decide
  exact count_at_its_end hconsistent (haddressed _) (hlookup _) hfresh rfl rfl (by decide)
    horder rfl htimes (by decide)

end DiscoverySample

end VeilKnit.App
