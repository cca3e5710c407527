import VeilKnit.App.DiscoveryBounds

/-!
# Runs of the application discovery cache

Operations come in any order and at any times. A run also counts the peers that have been
entered: the numbers of peers are distinct as long as the counter has not started over.
-/

namespace VeilKnit.App

open Library Types

namespace AppDiscoveryState

/-- Peers keep their numbers, and no peer is new. -/
structure Inherits (s s' : AppDiscoveryState) : Prop where
  peers : ∀ address record', s'.peers.lookup address = some record' →
    ∃ record, s.peers.lookup address = some record ∧ record.peerId = record'.peerId
  next : s'.nextPeerId = s.nextPeerId

/-- One peer is new, and has the number that was next. -/
structure Enrols (s s' : AppDiscoveryState) : Prop where
  peers : ∃ new, ∀ address record', s'.peers.lookup address = some record' →
    (address = new ∧ record'.peerId = max s.nextPeerId 1) ∨
      ∃ record, s.peers.lookup address = some record ∧ record.peerId = record'.peerId
  next : s'.nextPeerId = if max s.nextPeerId 1 = 18446744073709551615 then 1
    else max s.nextPeerId 1 + 1

namespace Inherits

variable {s s' s'' : AppDiscoveryState}

theorem refl (s : AppDiscoveryState) : Inherits s s := ⟨fun _ record h => ⟨record, h, rfl⟩, rfl⟩

theorem trans (h : Inherits s s') (h' : Inherits s' s'') : Inherits s s'' := by
  refine ⟨fun address record'' hrecord'' => ?_, h'.next.trans h.next⟩
  obtain ⟨record', hrecord', hsame'⟩ := h'.peers address record'' hrecord''
  obtain ⟨record, hrecord, hsame⟩ := h.peers address record' hrecord'
  exact ⟨record, hrecord, hsame.trans hsame'⟩

theorem of_peers (hpeers : s'.peers = s.peers) (hnext : s'.nextPeerId = s.nextPeerId) :
    Inherits s s' :=
  ⟨fun _ record h => ⟨record, hpeers ▸ h, rfl⟩, hnext⟩

theorem of_subset
    (hpeers : ∀ address record, s'.peers.lookup address = some record →
      s.peers.lookup address = some record)
    (hnext : s'.nextPeerId = s.nextPeerId) : Inherits s s' :=
  ⟨fun address record h => ⟨record, hpeers address record h, rfl⟩, hnext⟩

theorem bump (h : Inherits s s') (changed : Bool) : Inherits s (s'.bump changed) := by
  unfold AppDiscoveryState.bump
  split
  case isTrue => exact h.trans (of_peers rfl rfl)
  case isFalse => exact h

theorem retain (s : AppDiscoveryState) (p : String → Prop) [DecidablePred p] :
    Inherits s { s with peers := s.peers.retain p } :=
  of_subset (fun _ _ h => (AList.lookup_retain_eq_some.mp h).2) rfl

theorem keepMemberships (s : AppDiscoveryState)
    (p : String → AppPeerTier → AppPeerMembership → Bool) :
    Inherits s (s.keepMemberships p).1.dropEmpty :=
  of_peers rfl rfl

theorem enforcePeerCapacity (s : AppDiscoveryState) (order : Arrangement (String × AppPeerRecord)) :
    Inherits s (enforcePeerCapacity order s).1 := by
  unfold AppDiscoveryState.enforcePeerCapacity
  split
  case isTrue => exact refl s
  case isFalse => exact (retain s _).trans (keepMemberships _ _)

theorem enforceGlobalCapacity (s : AppDiscoveryState) (order : Arrangement (UInt64 × Association)) :
    Inherits s (enforceGlobalCapacity order s).1 := by
  unfold AppDiscoveryState.enforceGlobalCapacity
  split
  case isTrue => exact refl s
  case isFalse => exact of_peers rfl rfl

theorem pruneExpired (s : AppDiscoveryState) (order : Arrangement (String × AppPeerRecord))
    (now : UInt64) : Inherits s (s.pruneExpired order now).1 := by
  refine trans ?_ (enforcePeerCapacity _ order)
  exact of_subset (fun _ _ h => (AList.lookup_filterEntries_eq_some.mp h).2) rfl

/-- A record is written again with its number. -/
theorem insertPeer {address : String} {record record' : AppPeerRecord}
    (hrecord : s.peers.lookup address = some record) (hsame : record.peerId = record'.peerId) :
    Inherits s { s with peers := s.peers.insert address record' } := by
  refine ⟨fun other found hfound => ?_, rfl⟩
  obtain ⟨rfl, rfl⟩ | ⟨-, hother⟩ := AList.of_lookup_insert hfound
  · exact ⟨record, hrecord, hsame⟩
  · exact ⟨found, hother, rfl⟩

theorem keepTombstone (s : AppDiscoveryState) (address : String)
    (verifiedAt appInfoUpdatedAt : UInt64) :
    Inherits s (s.keepTombstone address verifiedAt appInfoUpdatedAt).1 := by
  unfold AppDiscoveryState.keepTombstone
  split
  case h_1 => exact refl s
  case h_2 record hrecord => exact insertPeer hrecord rfl

end Inherits

theorem Enrols.of_inherits {s s' t t' : AppDiscoveryState} (h : Inherits s s')
    (hnew : Enrols s' t) (h' : Inherits t t') : Enrols s t' := by
  obtain ⟨new, hpeers⟩ := hnew.peers
  refine ⟨⟨new, fun address record'' hrecord'' => ?_⟩, ?_⟩
  · obtain ⟨record', hrecord', hsame'⟩ := h'.peers address record'' hrecord''
    rw [← hsame', ← h.next]
    rcases hpeers address record' hrecord' with hfirst | ⟨record, hrecord, hsame⟩
    · exact .inl hfirst
    · obtain ⟨before, hbefore, hbefore'⟩ := h.peers address record hrecord
      exact .inr ⟨before, hbefore, hbefore'.trans hsame⟩
  · rw [h'.next, hnew.next, h.next]

theorem recordPeer_numbers (s : AppDiscoveryState) (address : String)
    (verifiedAt appInfoUpdatedAt : UInt64) :
    Inherits s (s.recordPeer address verifiedAt appInfoUpdatedAt).1 ∨
      Enrols s (s.recordPeer address verifiedAt appInfoUpdatedAt).1 := by
  unfold recordPeer
  split
  case h_1 record hrecord => exact .inl (Inherits.insertPeer hrecord rfl)
  case h_2 hnone =>
  refine .inr ⟨⟨address, fun other found hfound => ?_⟩, rfl⟩
  obtain ⟨rfl, rfl⟩ | ⟨-, hother⟩ := AList.of_lookup_insert hfound
  · exact .inl ⟨rfl, rfl⟩
  · exact .inr ⟨found, hother, rfl⟩

section Operations

variable {Key : Type} (keys : RecordKeys Key) (archiveSample : String → UInt64 → UInt64 → UInt64)

@[simp] theorem peers_observeMemberships (s : AppDiscoveryState) (peerId now : UInt64)
    (appIds : List String) :
    (s.observeMemberships archiveSample peerId now appIds).1.peers = s.peers := by
  induction appIds generalizing s with
  | nil => rfl
  | cons appId appIds ih => exact ih _

@[simp] theorem nextPeerId_observeMemberships (s : AppDiscoveryState) (peerId now : UInt64)
    (appIds : List String) :
    (s.observeMemberships archiveSample peerId now appIds).1.nextPeerId = s.nextPeerId := by
  induction appIds generalizing s with
  | nil => rfl
  | cons appId appIds ih => exact ih _

theorem enter_numbers (s : AppDiscoveryState) (orders : Orders) (address : String)
    (advertised : List String) (appInfoUpdatedAt verifiedAt : UInt64) :
    let s' := (s.enter archiveSample orders address advertised appInfoUpdatedAt verifiedAt).1
    Inherits s s' ∨ Enrols s s' := by
  have hwithdrawn : Inherits s (s.withdraw address advertised).1 := .of_peers rfl rfl
  unfold enter
  split
  case isTrue =>
    exact .inl ((hwithdrawn.trans (.keepTombstone _ _ _ _)).trans (.enforcePeerCapacity _ _))
  case isFalse =>
  have hlater (t : AppDiscoveryState) (peerId : UInt64) : Inherits t (enforcePeerCapacity
      orders.peers (enforceGlobalCapacity orders.associations
        (t.observeMemberships archiveSample peerId verifiedAt advertised).1).1).1 :=
    ((Inherits.of_peers (peers_observeMemberships ..) (nextPeerId_observeMemberships ..)).trans
      (.enforceGlobalCapacity _ _)).trans (.enforcePeerCapacity _ _)
  rcases recordPeer_numbers (s.withdraw address advertised).1 address verifiedAt
    appInfoUpdatedAt with hsame | hnew
  · exact .inl ((hwithdrawn.trans hsame).trans (hlater _ _))
  · exact .inr (hnew.of_inherits hwithdrawn (hlater _ _))

theorem Inherits.quiet {s s' : AppDiscoveryState} (h : Quiet s s') : Inherits s s' := by
  induction h with
  | same => exact refl s
  | bump _ changed ih => exact ih.bump changed
  | prune _ order now ih => exact ih.trans (pruneExpired _ order now)
  | interests _ _ ih => exact ih.trans (of_peers rfl rfl)
  | insertSet _ _ _ ih => exact ih.trans (of_peers rfl rfl)
  | remove _ _ ih => exact ih.trans ((retain _ _).trans (keepMemberships _ _))

end Operations

end AppDiscoveryState

/-! ## Runs -/

/-- An operation on the cache, with its times. -/
inductive DiscoveryEvent (Key : Type)
  | registerInterest (appId : String) (now : UInt64)
  | observe (orders : Orders) (peer : Key) (applicationIds : List String)
      (appInfoUpdatedAt directlyVerifiedAt now : UInt64)
  | listPeers (order : Arrangement (String × AppPeerRecord)) (appId : String)
      (requestedLimit : Nat) (now : UInt64)
  | searchSeeds (order : Arrangement (String × AppPeerRecord)) (appId : String) (maximum : Nat)
      (now : UInt64)
  | cacheAppRoot (appId : String) (peer : Key) (rootDht : Option Key)
      (directoryGeneration checkedAt : UInt64)
  | removePeers (peers : List Key)
  | appSummaries (order : Arrangement (String × AppPeerRecord)) (now : UInt64)

section Runs

variable {Key : Type} (keys : RecordKeys Key) (archiveSample : String → UInt64 → UInt64 → UInt64)

namespace AppDiscoveryState

def after (s : AppDiscoveryState) : DiscoveryEvent Key → AppDiscoveryState
  | .registerInterest appId now => (s.registerInterest appId now).1
  | .observe orders peer applicationIds appInfoUpdatedAt directlyVerifiedAt now =>
    (s.observeDirectAppSet keys archiveSample orders peer applicationIds appInfoUpdatedAt
      directlyVerifiedAt now).1
  | .listPeers order appId requestedLimit now =>
    (s.listPeers keys order appId requestedLimit now).1
  | .searchSeeds order appId maximum now => (s.searchSeeds keys order appId maximum now).1
  | .cacheAppRoot appId peer rootDht directoryGeneration checkedAt =>
    (s.cacheAppRoot keys appId peer rootDht directoryGeneration checkedAt).1
  | .removePeers peers => (s.removePeers keys peers).1
  | .appSummaries order now => s.appSummaries order now

/-- An event enters no peer, or the one that has been read. -/
inductive Performs (s : AppDiscoveryState) : DiscoveryEvent Key → AppDiscoveryState → Prop
  | quiet {event : DiscoveryEvent Key} {s' : AppDiscoveryState} (h : Quiet s s') :
      Performs s event s'
  | entered {t s' : AppDiscoveryState} {orders : Orders} {peer : Key}
      {applicationIds advertised : List String}
      {appInfoUpdatedAt directlyVerifiedAt now verifiedAt : UInt64} {changed : Bool}
      (h : Quiet s t) (hentered : s' = (t.enter archiveSample orders (keys.text peer) advertised
        appInfoUpdatedAt verifiedAt).1.bump changed) :
      Performs s (.observe orders peer applicationIds appInfoUpdatedAt directlyVerifiedAt now) s'

theorem performs_after (s : AppDiscoveryState) (event : DiscoveryEvent Key) :
    Performs keys archiveSample s event (s.after keys archiveSample event) := by
  cases event with
  | registerInterest appId now => exact .quiet ((Quiet.same.interests _).bump _)
  | observe orders peer ids updatedAt verifiedAt now =>
    have hpruned : Quiet s (s.pruneExpired orders.prune now).1 := .prune .same _ now
    unfold after observeDirectAppSet
    dsimp only
    split
    case isTrue => exact .quiet (hpruned.bump _)
    case isFalse => exact .entered hpruned rfl
  | listPeers order appId limit now => exact .quiet (quiet_listPeers keys s order appId limit now)
  | searchSeeds order appId maximum now =>
    exact .quiet (quiet_searchSeeds keys s order appId maximum now)
  | cacheAppRoot appId peer rootDht generation checkedAt =>
    exact .quiet (quiet_cacheAppRoot keys s appId peer rootDht generation checkedAt)
  | removePeers peers => exact .quiet (quiet_removePeers keys s peers)
  | appSummaries order now => exact .quiet ((Quiet.same.prune order now).bump _)

variable {s : AppDiscoveryState}

theorem Consistent.after (h : Consistent s) (event : DiscoveryEvent Key) :
    Consistent (s.after keys archiveSample event) := by
  cases performs_after keys archiveSample s event with
  | quiet hquiet => exact hquiet.consistent h
  | entered hquiet hentered =>
    rw [hentered]
    exact ((hquiet.consistent h).enter archiveSample _ _ _ _ _).bump _

theorem Capped.after (hconsistent : Consistent s) (h : Capped s)
    (event : DiscoveryEvent Key) : Capped (s.after keys archiveSample event) := by
  cases performs_after keys archiveSample s event with
  | quiet hquiet => exact hquiet.capped h
  | entered hquiet hentered =>
    rw [hentered]
    exact ((hquiet.capped h).enter (hquiet.consistent hconsistent) archiveSample _ _ _ _ _).bump _

/-- What an event does to the numbers of peers. -/
theorem after_numbers (s : AppDiscoveryState) (event : DiscoveryEvent Key) :
    Inherits s (s.after keys archiveSample event) ∨
      Enrols s (s.after keys archiveSample event) := by
  cases performs_after keys archiveSample s event with
  | quiet hquiet => exact .inl (.quiet hquiet)
  | @entered t _ orders peer _ advertised updatedAt _ _ verifiedAt changed hquiet hentered =>
    rw [hentered]
    have hbumped (t : AppDiscoveryState) : Inherits t (t.bump changed) :=
      (Inherits.refl t).bump changed
    rcases enter_numbers archiveSample t orders (keys.text peer) advertised updatedAt verifiedAt
      with hsame | hnew
    · exact .inl (((Inherits.quiet hquiet).trans hsame).trans (hbumped _))
    · exact .inr (hnew.of_inherits (.quiet hquiet) (hbumped _))

end AppDiscoveryState

/-- The cache, and how often the counter for peers has moved. -/
structure DiscoveryRun where
  state : AppDiscoveryState := {}
  numbered : Nat := 0

def DiscoveryRun.next (run : DiscoveryRun) (event : DiscoveryEvent Key) : DiscoveryRun where
  state := run.state.after keys archiveSample event
  numbered :=
    if (run.state.after keys archiveSample event).nextPeerId = run.state.nextPeerId then
      run.numbered
    else run.numbered + 1

def discoverySystem : LabelledSystem DiscoveryRun (DiscoveryEvent Key) where
  initial run := run = {}
  step run event run' := run.next keys archiveSample event = run'

end Runs

/-! ### Numbers of peers -/

namespace AppDiscoveryState

theorem max_one {id : UInt64} (h : 1 ≤ id.toNat) : max id 1 = id := by
  change (if id ≤ 1 then 1 else id) = id
  split
  case isTrue hle =>
    have hle' : id.toNat ≤ 1 := UInt64.le_iff_toNat_le.mp hle
    exact UInt64.toNat_inj.mp (show (1 : UInt64).toNat = id.toNat from le_antisymm h hle')
  case isFalse => rfl

variable {s s' : AppDiscoveryState}

/-- A new peer moves the counter. -/
theorem Enrols.moves (h : Enrols s s') : s'.nextPeerId ≠ s.nextPeerId := by
  rw [h.next]
  by_cases hzero : s.nextPeerId = 0
  · rw [hzero]
    decide
  have hpos : 1 ≤ s.nextPeerId.toNat :=
    Nat.one_le_iff_ne_zero.mpr fun h => hzero (UInt64.toNat_inj.mp h)
  rw [max_one hpos]
  split
  case isTrue hlast =>
    rw [hlast]
    decide
  case isFalse => simp

/-- The first `n` numbers have been given to peers, each to one. -/
structure Numbered (n : Nat) (s : AppDiscoveryState) : Prop where
  given : ∀ address record, s.peers.lookup address = some record →
    1 ≤ record.peerId.toNat ∧ record.peerId.toNat ≤ n
  distinct : ∀ address record address' record', s.peers.lookup address = some record →
    s.peers.lookup address' = some record' → record.peerId = record'.peerId → address = address'
  next : n + 1 < 2 ^ 64 → s.nextPeerId.toNat = n + 1

variable {n : Nat}

theorem Numbered.inherits (h : Numbered n s) (hsame : Inherits s s') : Numbered n s' := by
  refine ⟨fun address record' hrecord' => ?_, fun address record' address₂ record₂' hrecord'
    hrecord₂' hid => ?_, fun hn => hsame.next ▸ h.next hn⟩
  · obtain ⟨record, hrecord, hid⟩ := hsame.peers address record' hrecord'
    exact hid ▸ h.given address record hrecord
  · obtain ⟨record, hrecord, hid₁⟩ := hsame.peers address record' hrecord'
    obtain ⟨record₂, hrecord₂, hid₂⟩ := hsame.peers address₂ record₂' hrecord₂'
    exact h.distinct address record address₂ record₂ hrecord hrecord₂
      (hid₁.trans (hid.trans hid₂.symm))

theorem Numbered.enrols (h : Numbered n s)
    (hnew : Enrols s s') (hn : n + 1 < 2 ^ 64) : Numbered (n + 1) s' := by
  have hnext := h.next hn
  have hfirst : max s.nextPeerId 1 = s.nextPeerId := max_one (by omega)
  obtain ⟨new, hpeers⟩ := hnew.peers
  have hmoved := hnew.next
  rw [hfirst] at hpeers hmoved
  have hold : ∀ address record', s'.peers.lookup address = some record' →
      (address = new ∧ record'.peerId.toNat = n + 1) ∨
        ∃ record, s.peers.lookup address = some record ∧ record.peerId = record'.peerId ∧
          1 ≤ record'.peerId.toNat ∧ record'.peerId.toNat ≤ n := by
    intro address record' hrecord'
    rcases hpeers address record' hrecord' with ⟨hnew, hid⟩ | ⟨record, hrecord, hid⟩
    · exact .inl ⟨hnew, hid ▸ hnext⟩
    · exact .inr ⟨record, hrecord, hid, hid ▸ h.given address record hrecord⟩
  refine ⟨fun address record' hrecord' => ?_, fun address record' address₂ record₂' hrecord'
    hrecord₂' hid => ?_, fun hlater => ?_⟩
  · rcases hold address record' hrecord' with ⟨-, hid⟩ | ⟨record, -, -, hgiven⟩
    · omega
    · omega
  · rcases hold address record' hrecord' with ⟨haddress, hid₁⟩ | ⟨record, hrecord, hid₁, hgiven₁⟩
    · rcases hold address₂ record₂' hrecord₂' with ⟨haddress₂, -⟩ | ⟨record₂, -, -, hgiven₂⟩
      · exact haddress.trans haddress₂.symm
      · rw [hid] at hid₁
        omega
    · rcases hold address₂ record₂' hrecord₂' with ⟨-, hid₂⟩ | ⟨record₂, hrecord₂, hid₂, -⟩
      · rw [hid] at hgiven₁
        omega
      · exact h.distinct address record address₂ record₂ hrecord hrecord₂
          (hid₁.trans (hid.trans hid₂.symm))
  rw [hmoved]
  split
  case isTrue hlast =>
    rw [hlast] at hnext
    change 18446744073709551615 = n + 1 at hnext
    omega
  case isFalse =>
    rw [UInt64.toNat_add, hnext]
    exact Nat.mod_eq_of_lt hlater

theorem Numbered.nodup (h : Numbered n s) : (s.peers.entries.map fun e => e.2.peerId).Nodup := by
  have hkeys : (s.peers.entries.map Sigma.fst).Nodup := s.peers.nodupKeys
  refine List.Nodup.map_on (fun e he e' he' hid => ?_) (List.Nodup.of_map _ hkeys)
  have hlookup := AList.mem_lookup_iff.mpr he
  have hlookup' := AList.mem_lookup_iff.mpr he'
  have haddress := h.distinct e.1 e.2 e'.1 e'.2 hlookup hlookup' hid
  obtain ⟨address, record⟩ := e
  obtain ⟨address', record'⟩ := e'
  obtain rfl : address = address' := haddress
  cases hlookup.symm.trans hlookup'
  rfl

end AppDiscoveryState

section Runs

variable {Key : Type} (keys : RecordKeys Key) (archiveSample : String → UInt64 → UInt64 → UInt64)

/-- What holds along runs. -/
structure RunBounded (run : DiscoveryRun) : Prop where
  consistent : run.state.Consistent
  capped : run.state.Capped
  numbered : run.numbered < 2 ^ 64 → run.state.Numbered run.numbered

theorem runBounded_invariant : (discoverySystem keys archiveSample).Invariant RunBounded where
  initially := by
    rintro run rfl
    have hempty {β : Type} {key : String} {b : β} :
        (∅ : AList fun _ : String => β).lookup key ≠ some b := by simp
    exact ⟨⟨fun _ _ h => absurd h hempty, fun _ _ h => absurd h hempty⟩,
      ⟨Nat.zero_le _, Nat.zero_le _⟩,
      fun _ => ⟨fun _ _ h => absurd h hempty, fun _ _ _ _ h => absurd h hempty, fun _ => rfl⟩⟩
  preserved := by
    rintro run event _ h rfl
    refine ⟨h.consistent.after keys archiveSample event,
      h.capped.after keys archiveSample h.consistent event, fun hfew => ?_⟩
    unfold DiscoveryRun.next at hfew ⊢
    dsimp only at hfew ⊢
    rcases AppDiscoveryState.after_numbers keys archiveSample run.state event with hsame | hnew
    · rw [if_pos hsame.next] at hfew ⊢
      exact (h.numbered hfew).inherits hsame
    · rw [if_neg hnew.moves] at hfew ⊢
      exact (h.numbered (by omega)).enrols hnew hfew

/-- In every run all lists and tables stay within their capacities, every membership refers to a
peer that is there, no application has a peer twice, and the numbers of the peers are distinct
unless the counter has moved 2 ^ 64 times. -/
theorem cache_stays_bounded {run : DiscoveryRun}
    (h : (discoverySystem keys archiveSample).Reachable run) :
    (∀ appId set, run.state.apps.lookup appId = some set →
      set.recent.length ≤ appDiscoveryRecentCapacity ∧
        set.archive.length ≤ appDiscoveryArchiveCapacity ∧
        (set.recent ++ set.archive).Pairwise (fun m m' => m.peerId ≠ m'.peerId) ∧
        ∀ m ∈ set.recent ++ set.archive, ∃ address record,
          run.state.peers.lookup address = some record ∧ record.peerId = m.peerId) ∧
      (run.state.apps.entries.map fun e => e.2.recent.length + e.2.archive.length).sum ≤
        appDiscoveryGlobalAssociationCapacity ∧
      run.state.peers.entries.length ≤ appDiscoveryGlobalPeerCapacity ∧
      (run.numbered < 2 ^ 64 → (run.state.peers.entries.map fun e => e.2.peerId).Nodup) := by
  have hbounded := (runBounded_invariant keys archiveSample).holds h
  refine ⟨fun appId set hset => ?_, hbounded.capped.total, hbounded.capped.peers,
    fun hfew => (hbounded.numbered hfew).nodup⟩
  have hset' := hbounded.consistent.sets appId set hset
  refine ⟨hset'.recent, hset'.archive, List.pairwise_map.mp hset'.distinct, fun m hm => ?_⟩
  exact hbounded.consistent.referred appId set hset m.peerId (List.mem_map_of_mem hm)

end Runs

/-! ### The counter starts over -/

namespace AppDiscoveryState

/-- The same peers, numbers and interests. -/
structure Alike (s s' : AppDiscoveryState) : Prop where
  interested : s'.interestedApps = s.interestedApps
  peers : s'.peers = s.peers
  next : s'.nextPeerId = s.nextPeerId

namespace Alike

variable {s s' s'' : AppDiscoveryState}

theorem trans (h : Alike s s') (h' : Alike s' s'') : Alike s s'' :=
  ⟨h'.interested.trans h.interested, h'.peers.trans h.peers, h'.next.trans h.next⟩

theorem bump (s : AppDiscoveryState) (changed : Bool) : Alike s (s.bump changed) := by
  unfold AppDiscoveryState.bump
  split
  case isTrue => exact ⟨rfl, rfl, rfl⟩
  case isFalse => exact ⟨rfl, rfl, rfl⟩

theorem enforceGlobalCapacity (s : AppDiscoveryState)
    (order : Arrangement (UInt64 × Association)) : Alike s (enforceGlobalCapacity order s).1 := by
  unfold AppDiscoveryState.enforceGlobalCapacity
  split
  case isTrue => exact ⟨rfl, rfl, rfl⟩
  case isFalse => exact ⟨rfl, rfl, rfl⟩

theorem enforcePeerCapacity (order : Arrangement (String × AppPeerRecord))
    (h : s.peers.entries.length ≤ appDiscoveryGlobalPeerCapacity) :
    Alike s (enforcePeerCapacity order s).1 := by
  unfold AppDiscoveryState.enforcePeerCapacity
  rw [if_pos h]
  exact ⟨rfl, rfl, rfl⟩

/-- At the beginning of time nothing has expired. -/
theorem unexpired (s : AppDiscoveryState) : Alike s (s.unexpired 0) := by
  have hinterested : (s.unexpired 0).interestedApps = s.interestedApps.filterEntries
      fun _ lastRequested => decide (cutoff 0 ≤ lastRequested) := rfl
  have hpeers : (s.unexpired 0).peers = s.peers.filterEntries fun _ record => decide
      (cutoff 0 ≤ record.lastDirectlyVerifiedAt ∨ record.peerId ∈ (s.fresh 0).referenced) := rfl
  refine ⟨hinterested.trans ?_, hpeers.trans ?_, rfl⟩
  · exact AList.filterEntries_eq_self fun _ _ => decide_eq_true UInt64.zero_le
  · exact AList.filterEntries_eq_self fun _ _ => decide_eq_true (Or.inl UInt64.zero_le)

theorem pruneExpired (order : Arrangement (String × AppPeerRecord))
    (h : s.peers.entries.length ≤ appDiscoveryGlobalPeerCapacity) :
    Alike s (s.pruneExpired order 0).1 :=
  (unexpired s).trans (enforcePeerCapacity order ((unexpired s).peers ▸ h))

end Alike

section Operations

variable {Key : Type} (keys : RecordKeys Key) (archiveSample : String → UInt64 → UInt64 → UInt64)

theorem Alike.observeMemberships (s : AppDiscoveryState) (peerId now : UInt64)
    (appIds : List String) :
    Alike s (s.observeMemberships archiveSample peerId now appIds).1 := by
  induction appIds generalizing s with
  | nil => exact ⟨rfl, rfl, rfl⟩
  | cons appId appIds ih =>
    have hfirst : Alike s (s.observeMembership archiveSample appId peerId now).1 := ⟨rfl, rfl, rfl⟩
    exact hfirst.trans (ih _)

variable {s : AppDiscoveryState} {address : String}

/-- What is entered when there is something to enter. -/
theorem enter_of_advertised (orders : Orders)
    {advertised : List String} {appInfoUpdatedAt verifiedAt : UInt64}
    (h : advertised.isEmpty = false) :
    (s.enter archiveSample orders address advertised appInfoUpdatedAt verifiedAt).1 =
      let recorded := (s.withdraw address advertised).1.recordPeer address verifiedAt
        appInfoUpdatedAt
      (enforcePeerCapacity orders.peers (enforceGlobalCapacity orders.associations
        (recorded.1.observeMemberships archiveSample recorded.2.1 verifiedAt
          advertised).1).1).1 := by
  unfold enter
  rw [h, if_neg Bool.false_ne_true]

theorem Alike.entered (orders : Orders)
    (h : s.peers.entries.length ≤ appDiscoveryGlobalPeerCapacity) (peerId now : UInt64)
    (appIds : List String) :
    Alike s (AppDiscoveryState.enforcePeerCapacity orders.peers
      (AppDiscoveryState.enforceGlobalCapacity orders.associations
        (s.observeMemberships archiveSample peerId now appIds).1).1).1 := by
  have htrimmed := (Alike.observeMemberships archiveSample s peerId now appIds).trans
    (Alike.enforceGlobalCapacity _ orders.associations)
  exact htrimmed.trans (Alike.enforcePeerCapacity orders.peers (htrimmed.peers ▸ h))

theorem recordPeer_unknown
    (hnone : s.peers.lookup address = none) (verifiedAt appInfoUpdatedAt : UInt64) :
    (s.recordPeer address verifiedAt appInfoUpdatedAt).1 =
      { s with
        nextPeerId := if max s.nextPeerId 1 = 18446744073709551615 then 1
          else max s.nextPeerId 1 + 1
        peers := s.peers.insert address
          ⟨max s.nextPeerId 1, verifiedAt, verifiedAt, appInfoUpdatedAt⟩ } := by
  unfold recordPeer
  rw [hnone]

/-- A peer that is not known is entered under the next number. -/
theorem observe_unknown (orders : Orders) {peer : Key} {appId : String}
    (hroom : s.peers.entries.length < appDiscoveryGlobalPeerCapacity)
    (hnone : s.peers.lookup (keys.text peer) = none) (hinterested : appId ∈ s.interestedApps) :
    Alike { s with
        nextPeerId := if max s.nextPeerId 1 = 18446744073709551615 then 1
          else max s.nextPeerId 1 + 1
        peers := s.peers.insert (keys.text peer) ⟨max s.nextPeerId 1, 0, 0, 0⟩ }
      (s.observeDirectAppSet keys archiveSample orders peer [appId] 0 0 0).1 := by
  have hpruned := Alike.pruneExpired orders.prune hroom.le
  unfold observeDirectAppSet
  dsimp only
  generalize (s.pruneExpired orders.prune 0).1 = t at hpruned ⊢
  have hstale : t.isStale (keys.text peer) 0 = false := by
    rw [isStale, hpruned.peers, hnone]
    rfl
  have hadvertised : t.advertised [appId] = [appId] := by
    have hkept : [appId].filter (fun appId => decide (appId ∈ t.interestedApps)) = [appId] := by
      rw [hpruned.interested]
      exact List.filter_eq_self.mpr fun _ h => decide_eq_true (List.mem_singleton.mp h ▸ hinterested)
    rw [advertised, hkept]
    exact (List.nodup_singleton appId).dedup
  rw [hstale, hadvertised, if_neg Bool.false_ne_true]
  refine Alike.trans ?_ (.bump _ _)
  rw [enter_of_advertised archiveSample orders rfl]
  have hunknown : (t.withdraw (keys.text peer) [appId]).1.peers.lookup (keys.text peer) = none := by
    rw [← hnone, ← hpruned.peers]
    rfl
  dsimp only
  rw [recordPeer_unknown hunknown]
  refine Alike.trans ⟨?_, ?_, ?_⟩ (.entered archiveSample orders ?_ _ _ _)
  · exact hpruned.interested
  · change t.peers.insert _ ⟨max t.nextPeerId 1, _, _, _⟩ = _
    rw [hpruned.peers, hpruned.next]
    rfl
  · have hnext : (t.withdraw (keys.text peer) [appId]).1.nextPeerId = s.nextPeerId := hpruned.next
    rw [hnext]
  · refine (AList.length_insert_le _ _ _).trans ?_
    change t.peers.entries.length + 1 ≤ _
    rw [hpruned.peers]
    exact hroom

theorem Alike.removePeer (s : AppDiscoveryState) (peer : Key) :
    Alike { s with peers := s.peers.retain fun address => address ∉ [keys.text peer] }
      (s.removePeers keys [peer]).1 := by
  have hkept (t : AppDiscoveryState) (p : String → AppPeerTier → AppPeerMembership → Bool) :
      Alike t (t.keepMemberships p).1.dropEmpty := ⟨rfl, rfl, rfl⟩
  unfold AppDiscoveryState.removePeers
  rw [if_neg (by simp)]
  exact (hkept _ _).trans (.bump _ _)

end Operations

end AppDiscoveryState

/-! ### Samples -/

namespace DiscoverySample

inductive Peer
  | first
  | second
  deriving DecidableEq

def Peer.text : Peer → String
  | .first => "VLD0:9C9jBokYTHBBBaq7aev39a9ujPVCCzGLE0-Tx_N7FyQ"
  | .second => "VLD0:AAAAAAAAAAAAAAAAAAAAAAAAAAAAAAAAAAAAAAAAAAA"

def keys : RecordKeys Peer where
  text := Peer.text
  parse text := [Peer.first, .second].find? fun key => key.text = text
  parse_text key := by cases key <;> decide
  text_short key := by cases key <;> decide

def archiveSample : String → UInt64 → UInt64 → UInt64 := fun _ peerId observed => peerId + observed

def app : String := "veilknit.notes.v1"

def orders : Orders := {}

def both : DiscoveryRun :=
  [.registerInterest app 1000, .observe orders .first [app] 900 1000 1000,
    .observe orders .second [app] 950 1100 1200].foldl (DiscoveryRun.next keys archiveSample) {}

theorem both_reachable : (discoverySystem keys archiveSample).Reachable both := by
  have hstart : (discoverySystem keys archiveSample).Reachable {} := .start rfl
  exact LabelledSystem.Reachable.foldl (fun _ _ _ => rfl) hstart

theorem cache_stays_bounded_both : both.numbered = 2 ∧
    (both.state.peers.entries.map fun e => e.2.peerId).Nodup := by
  have hfew : both.numbered = 2 := by decide +kernel
  have hbounded := cache_stays_bounded keys archiveSample both_reachable
  exact ⟨hfew, hbounded.2.2.2 (by rw [hfew]; decide)⟩

/-- One peer is known, and another may be entered under some number. -/
structure Waiting (n : UInt64) (s : AppDiscoveryState) : Prop where
  interested : app ∈ s.interestedApps
  peers : s.peers = (∅ : Peers).insert Peer.first.text ⟨1, 0, 0, 0⟩
  next : s.nextPeerId = n

def observation (peer : Peer) : DiscoveryEvent Peer := .observe orders peer [app] 0 0 0

variable {n : UInt64} {s : AppDiscoveryState}

/-- A new peer is entered. -/
theorem Waiting.entered (h : Waiting n s) :
    AppDiscoveryState.Alike { s with
        nextPeerId := if max n 1 = 18446744073709551615 then 1 else max n 1 + 1
        peers := s.peers.insert Peer.second.text ⟨max n 1, 0, 0, 0⟩ }
      (s.after keys archiveSample (observation .second)) := by
  obtain ⟨hinterested, hpeers, rfl⟩ := h
  have hunknown : s.peers.lookup (keys.text .second) = none := by
    rw [hpeers]
    decide
  have hroom : s.peers.entries.length < appDiscoveryGlobalPeerCapacity := by
    rw [hpeers]
    decide
  exact AppDiscoveryState.observe_unknown keys archiveSample orders hroom hunknown hinterested

/-- A peer comes and goes. -/
theorem Waiting.passes (h : Waiting n s) (hn : n ≠ 0) :
    Waiting (if n = 18446744073709551615 then 1 else n + 1)
      ((s.after keys archiveSample (observation .second)).after keys archiveSample
        (.removePeers [.second])) := by
  have hentered := h.entered
  generalize s.after keys archiveSample (observation .second) = t at hentered ⊢
  have hremoved := AppDiscoveryState.Alike.removePeer keys t .second
  have hmax : max n 1 = n :=
    AppDiscoveryState.max_one (Nat.one_le_iff_ne_zero.mpr fun h => hn (UInt64.toNat_inj.mp h))
  refine ⟨?_, ?_, ?_⟩
  · rw [AppDiscoveryState.after, hremoved.interested, hentered.interested]
    exact h.interested
  · rw [AppDiscoveryState.after, hremoved.peers, hentered.peers, h.peers]
    have hothers : ∀ a ∈ (∅ : Peers).insert Peer.first.text ⟨1, 0, 0, 0⟩,
        a ∉ [Peer.second.text] := by
      intro a ha
      rcases (AList.mem_insert _).mp ha with rfl | hempty
      · decide
      · exact absurd hempty (AList.notMem_empty a)
    exact AList.retain_insert _ (by decide) (by decide) hothers
  · rw [AppDiscoveryState.after, hremoved.next, hentered.next, hmax]

theorem waiting_upTo (k : Nat) (hk : k + 2 < 2 ^ 64) :
    ∃ run, (discoverySystem keys archiveSample).Reachable run ∧
      Waiting (UInt64.ofNat (k + 2)) run.state := by
  induction k with
  | zero =>
    let started := [.registerInterest app 0, observation .first].foldl
      (DiscoveryRun.next keys archiveSample) {}
    have hstarted : (discoverySystem keys archiveSample).Reachable started :=
      LabelledSystem.Reachable.foldl (fun _ _ _ => rfl) (.start rfl)
    exact ⟨started, hstarted, by decide +kernel, AList.ext (by decide +kernel), by decide +kernel⟩
  | succ k ih =>
    obtain ⟨run, reached, hwaiting⟩ := ih (by omega)
    have hsmall : (UInt64.ofNat (k + 2)).toNat = k + 2 :=
      UInt64.toNat_ofNat_of_lt' (Nat.lt_of_succ_lt hk)
    have hpasses := hwaiting.passes (fun hzero => by
      rw [hzero] at hsmall
      cases hsmall)
    have hnext : (if UInt64.ofNat (k + 2) = 18446744073709551615 then 1
        else UInt64.ofNat (k + 2) + 1) = UInt64.ofNat (k + 1 + 2) := by
      rw [if_neg fun hlast => by
        rw [hlast] at hsmall
        change 18446744073709551615 = k + 2 at hsmall
        omega]
      exact (UInt64.ofNat_add (k + 2) 1).symm
    rw [hnext] at hpasses
    exact ⟨_, .next (.removePeers [.second]) (.next (observation .second) reached rfl) rfl, hpasses⟩

/-- When all numbers have been used, the first one is given to a second peer. -/
theorem numbers_repeat : ∃ run, (discoverySystem keys archiveSample).Reachable run ∧
    ¬ (run.state.peers.entries.map fun e => e.2.peerId).Nodup := by
  obtain ⟨run, reached, hwaiting⟩ := waiting_upTo (2 ^ 64 - 3) (by decide)
  have hlast : UInt64.ofNat (2 ^ 64 - 3 + 2) = 18446744073709551615 := by decide
  rw [hlast] at hwaiting
  have hpasses := hwaiting.passes (by decide)
  rw [if_pos rfl] at hpasses
  have hpeers := hpasses.entered.peers
  dsimp only at hpeers
  rw [hpasses.peers] at hpeers
  refine ⟨_, .next (observation .second) (.next (.removePeers [.second])
    (.next (observation .second) reached rfl) rfl) rfl, fun hnodup => ?_⟩
  dsimp only [DiscoveryRun.next] at hnodup
  rw [hpeers] at hnodup
  revert hnodup
  decide

end DiscoverySample

end VeilKnit.App
