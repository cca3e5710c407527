import Mathlib.Data.List.Dedup
import Mathlib.Data.List.Sort
import VeilKnit.Library.AssociationList
import VeilKnit.Library.FirstMatch
import VeilKnit.Types.AppRecords

/-!
# The application discovery cache

The cache remembers which peers have announced the applications that are of interest here. An
application has a list of recent peers and an archive sampled from those displaced. Peers are
numbered, and memberships refer to these numbers.

Maps have no order. Where the program goes through one and the order may matter, it is a
parameter.
-/

namespace VeilKnit.App

open Library Types

def appDiscoveryCacheVersion : UInt16 := 1
def appDiscoveryRecentCapacity : Nat := 3072
def appDiscoveryArchiveCapacity : Nat := 1024
def appDiscoveryGlobalAssociationCapacity : Nat := 24576
def appDiscoveryGlobalPeerCapacity : Nat := 24576
def appDiscoveryMaxApiResults : Nat := 1000
def appDiscoveryMaxSearchSeeds : Nat := 256

inductive AppPeerTier
  | recent
  | archive
  deriving DecidableEq

structure AppPeerRecord where
  peerId : UInt64
  firstDiscoveredAt : UInt64
  lastDirectlyVerifiedAt : UInt64
  lastAppInfoUpdatedAt : UInt64
  deriving DecidableEq

structure AppPeerMembership where
  peerId : UInt64
  firstSeenForApp : UInt64
  lastVerifiedForApp : UInt64
  lastReturnedAt : UInt64
  returnCount : UInt32
  appRootDht : Option String
  appRootCheckedAt : UInt64
  appDirectoryGeneration : UInt64
  deriving DecidableEq

structure AppPeerSet where
  totalVerifiedObservations : UInt64 := 0
  recent : List AppPeerMembership := []
  archive : List AppPeerMembership := []
  deriving DecidableEq

abbrev Apps := AList fun _ : String => AppPeerSet
abbrev Peers := AList fun _ : String => AppPeerRecord

structure AppDiscoveryState where
  version : UInt16 := appDiscoveryCacheVersion
  generation : UInt64 := 0
  nextPeerId : UInt64 := 1
  interestedApps : AList fun _ : String => UInt64 := ∅
  peers : Peers := ∅
  apps : Apps := ∅

/-- An order in which to go through a collection. -/
abbrev Arrangement (α : Type) := { arrange : List α → List α // ∀ l, (arrange l).Perm l }

/-- An application, one of its two lists, and the number of a peer. -/
abbrev Association := String × AppPeerTier × UInt64

/-- The orders in which one operation goes through the maps. -/
structure Orders where
  prune : Arrangement (String × AppPeerRecord) := ⟨id, fun _ => .refl _⟩
  associations : Arrangement (UInt64 × Association) := ⟨id, fun _ => .refl _⟩
  peers : Arrangement (String × AppPeerRecord) := ⟨id, fun _ => .refl _⟩

/-- The lexicographic order of keys. -/
def precedes : List UInt64 → List UInt64 → Bool
  | [], _ => true
  | _ :: _, [] => false
  | a :: as, b :: bs => decide (a < b) || decide (a = b) && precedes as bs

def sortByKey {α : Type} (key : α → List UInt64) (l : List α) : List α :=
  l.insertionSort fun left right => precedes (key left) (key right)

/-- The opposite order of numbers. -/
def reversed (a : UInt64) : UInt64 := 18446744073709551615 - a

def saturatingSub (a b : UInt64) : UInt64 := if a < b then 0 else a - b

/-! ## Sets of memberships -/

namespace AppPeerSet

def memberships (set : AppPeerSet) : List AppPeerMembership := set.recent ++ set.archive

def size (set : AppPeerSet) : Nat := set.recent.length + set.archive.length

/-- The numbers of the peers. -/
def ids (set : AppPeerSet) : List UInt64 := set.memberships.map (·.peerId)

def keep (p : AppPeerTier → AppPeerMembership → Bool) (set : AppPeerSet) : AppPeerSet :=
  { set with recent := set.recent.filter (p .recent), archive := set.archive.filter (p .archive) }

end AppPeerSet

namespace AppDiscoveryState

/-- The next generation, after a change. -/
def bump (changed : Bool) (s : AppDiscoveryState) : AppDiscoveryState :=
  if changed then { s with generation := max (saturatingAdd s.generation 1) 1 } else s

/-- The numbers that memberships refer to. -/
def referenced (s : AppDiscoveryState) : List UInt64 := s.apps.entries.flatMap fun e => e.2.ids

def dropEmpty (s : AppDiscoveryState) : AppDiscoveryState :=
  { s with apps := s.apps.filterEntries fun _ set => decide (set.size ≠ 0) }

/-- Keep some memberships of every application, and tell whether any were removed. -/
def keepMemberships (p : String → AppPeerTier → AppPeerMembership → Bool)
    (s : AppDiscoveryState) : AppDiscoveryState × Bool :=
  ({ s with apps := s.apps.mapEntries fun appId set => set.keep (p appId) },
    s.apps.entries.any fun e => decide ((e.2.keep (p e.1)).size ≠ e.2.size))

/-! ## Capacities -/

/-- Unreferenced peers first, then those verified longest ago. -/
def evictedBefore (referenced : List UInt64) (left right : String × AppPeerRecord) : Prop :=
  (left.2.peerId ∉ referenced ∧ right.2.peerId ∈ referenced) ∨
    ((left.2.peerId ∈ referenced ↔ right.2.peerId ∈ referenced) ∧
      left.2.lastDirectlyVerifiedAt ≤ right.2.lastDirectlyVerifiedAt)

instance (referenced : List UInt64) : DecidableRel (evictedBefore referenced) :=
  fun left right => inferInstanceAs (Decidable
    ((left.2.peerId ∉ referenced ∧ right.2.peerId ∈ referenced) ∨
      ((left.2.peerId ∈ referenced ↔ right.2.peerId ∈ referenced) ∧
        left.2.lastDirectlyVerifiedAt ≤ right.2.lastDirectlyVerifiedAt)))

/-- The peers to remove. -/
def evictedPeers (order : Arrangement (String × AppPeerRecord)) (s : AppDiscoveryState) :
    List (String × AppPeerRecord) :=
  ((order.1 (s.peers.entries.map fun e => (e.1, e.2))).insertionSort
    (evictedBefore s.referenced)).take (s.peers.entries.length - appDiscoveryGlobalPeerCapacity)

def enforcePeerCapacity (order : Arrangement (String × AppPeerRecord)) (s : AppDiscoveryState) :
    AppDiscoveryState × Bool :=
  if s.peers.entries.length ≤ appDiscoveryGlobalPeerCapacity then (s, false)
  else
    let removed := evictedPeers order s
    let kept := { s with peers := s.peers.retain fun address => address ∉ removed.map Prod.fst }
    ((kept.keepMemberships fun _ _ m =>
      decide (m.peerId ∉ removed.map fun peer => peer.2.peerId)).1.dropEmpty, true)

/-- All associations, and when they were last verified. -/
def associations (s : AppDiscoveryState) : List (UInt64 × Association) :=
  s.apps.entries.flatMap fun e =>
    (e.2.recent.map fun m => (m.lastVerifiedForApp, e.1, .recent, m.peerId)) ++
      e.2.archive.map fun m => (m.lastVerifiedForApp, e.1, .archive, m.peerId)

/-- The associations to remove. -/
def evictedAssociations (order : Arrangement (UInt64 × Association)) (s : AppDiscoveryState) :
    List Association :=
  (((order.1 s.associations).insertionSort fun left right => left.1 ≤ right.1).take
    (s.associations.length - appDiscoveryGlobalAssociationCapacity)).map Prod.snd

def enforceGlobalCapacity (order : Arrangement (UInt64 × Association)) (s : AppDiscoveryState) :
    AppDiscoveryState × Bool :=
  if s.associations.length ≤ appDiscoveryGlobalAssociationCapacity then (s, false)
  else
    let removed := evictedAssociations order s
    ((s.keepMemberships fun appId tier m =>
      decide ((appId, tier, m.peerId) ∉ removed)).1.dropEmpty, true)

/-- The earliest activity that counts. -/
def cutoff (now : UInt64) : UInt64 := saturatingSub now appDiscoveryActivityTtlSecs

def pruneExpired (order : Arrangement (String × AppPeerRecord)) (now : UInt64)
    (s : AppDiscoveryState) : AppDiscoveryState × Bool :=
  let interested := s.interestedApps.filterEntries fun _ lastRequested =>
    decide (cutoff now ≤ lastRequested)
  let apps := s.apps.retain fun appId => appId ∈ interested
  let s₁ := { s with interestedApps := interested, apps := apps }
  let fresh := s₁.keepMemberships fun _ _ m => decide (cutoff now ≤ m.lastVerifiedForApp)
  let s₂ := fresh.1.dropEmpty
  let peers := s₂.peers.filterEntries fun _ record =>
    decide (cutoff now ≤ record.lastDirectlyVerifiedAt ∨ record.peerId ∈ s₂.referenced)
  let capped := enforcePeerCapacity order { s₂ with peers := peers }
  (capped.1,
    decide (interested.entries.length ≠ s.interestedApps.entries.length) ||
      decide (apps.entries.length ≠ s.apps.entries.length) || fresh.2 ||
      decide (peers.entries.length ≠ s.peers.entries.length) || capped.2)

end AppDiscoveryState

/-! ## Observations -/

section Memberships

-- The sample that decides whether a displaced peer enters a full archive: a hash of the
-- application, the number of the peer and the number of observations.
variable (archiveSample : String → UInt64 → UInt64 → UInt64)

/-- Of two members, the one returned last and most often, and known for longest, is displaced. -/
def displacementKey (m : AppPeerMembership) : List UInt64 :=
  [m.lastReturnedAt, m.returnCount.toUInt64, reversed m.firstSeenForApp]

/-- The place of the membership that is displaced; of several alike, the last one. -/
def displacedIndex (recent : List AppPeerMembership) : Nat :=
  (recent.zipIdx.foldl (fun best candidate =>
    match best with
    | none => some candidate
    | some chosen =>
      if precedes (displacementKey chosen.1) (displacementKey candidate.1) then some candidate
      else best)
    none).elim 0 Prod.snd

def considerArchive (appId : String) (set : AppPeerSet) (membership : AppPeerMembership) :
    AppPeerSet :=
  if set.archive.length < appDiscoveryArchiveCapacity then
    { set with archive := set.archive ++ [membership] }
  else
    let draw := (archiveSample appId membership.peerId set.totalVerifiedObservations).toNat %
      (max set.totalVerifiedObservations 1).toNat
    if draw < appDiscoveryArchiveCapacity then
      { set with archive := set.archive.set draw membership }
    else set

def newMembership (peerId now : UInt64) : AppPeerMembership where
  peerId := peerId
  firstSeenForApp := now
  lastVerifiedForApp := now
  lastReturnedAt := 0
  returnCount := 0
  appRootDht := none
  appRootCheckedAt := 0
  appDirectoryGeneration := 0

/-- Change the first membership of a peer, in the list that has it. -/
def AppPeerSet.update (set : AppPeerSet) (peerId : UInt64)
    (f : AppPeerMembership → AppPeerMembership) : AppPeerSet :=
  if (set.recent.find? fun m => m.peerId = peerId).isSome then
    { set with recent := updateFirst (fun m => m.peerId = peerId) f set.recent }
  else { set with archive := updateFirst (fun m => m.peerId = peerId) f set.archive }

/-- A peer has announced an application. -/
def AppPeerSet.observe (set : AppPeerSet) (appId : String) (peerId now : UInt64) :
    AppPeerSet × Bool :=
  match set.memberships.find? fun m => m.peerId = peerId with
  | some existing =>
    if existing.lastVerifiedForApp < now then
      (set.update peerId fun m => { m with lastVerifiedForApp := now }, true)
    else (set, false)
  | none =>
    let counted := { set with
      totalVerifiedObservations := saturatingAdd set.totalVerifiedObservations 1 }
    if counted.recent.length < appDiscoveryRecentCapacity then
      ({ counted with recent := counted.recent ++ [newMembership peerId now] }, true)
    else
      let i := displacedIndex counted.recent
      match counted.recent[i]? with
      | none => (counted, true)
      | some displaced =>
        (considerArchive archiveSample appId
          { counted with recent := counted.recent.set i (newMembership peerId now) } displaced,
          true)

def AppDiscoveryState.observeMembership (s : AppDiscoveryState) (appId : String)
    (peerId now : UInt64) : AppDiscoveryState × Bool :=
  let observed := ((s.apps.lookup appId).getD {}).observe archiveSample appId peerId now
  ({ s with apps := s.apps.insert appId observed.1 }, observed.2)

/-- One application after the other. -/
def AppDiscoveryState.observeMemberships (s : AppDiscoveryState) (peerId now : UInt64) :
    List String → AppDiscoveryState × Bool
  | [] => (s, false)
  | appId :: appIds =>
    let first := s.observeMembership archiveSample appId peerId now
    let rest := first.1.observeMemberships peerId now appIds
    (rest.1, first.2 || rest.2)

end Memberships

/-! ## Operations -/

namespace AppDiscoveryState

/-- Announcements of interest from applications that run here. -/
def registerInterest (s : AppDiscoveryState) (appId : String) (now : UInt64) :
    AppDiscoveryState × Bool :=
  let previous := s.interestedApps.lookup appId
  let s' := { s with interestedApps := s.interestedApps.insert appId now }
  (s'.bump (previous ≠ some now), previous.all fun lastRequested => lastRequested < cutoff now)

/-- Note a read of a peer in its record. -/
def AppPeerRecord.refresh (record : AppPeerRecord) (verifiedAt appInfoUpdatedAt : UInt64) :
    AppPeerRecord :=
  { record with
    lastDirectlyVerifiedAt := max record.lastDirectlyVerifiedAt verifiedAt
    lastAppInfoUpdatedAt := appInfoUpdatedAt }

/-- The record of a peer that is no longer a member of anything stays for a while. -/
def keepTombstone (s : AppDiscoveryState) (address : String)
    (verifiedAt appInfoUpdatedAt : UInt64) : AppDiscoveryState × Bool :=
  match s.peers.lookup address with
  | none => (s, false)
  | some record =>
    let refreshed := AppPeerRecord.refresh record verifiedAt appInfoUpdatedAt
    ({ s with peers := s.peers.insert address refreshed }, decide (refreshed ≠ record))

/-- The record of a peer, made if there is none, and its number. -/
def recordPeer (s : AppDiscoveryState) (address : String) (verifiedAt appInfoUpdatedAt : UInt64) :
    AppDiscoveryState × UInt64 × Bool :=
  match s.peers.lookup address with
  | some record =>
    let refreshed := AppPeerRecord.refresh record verifiedAt appInfoUpdatedAt
    ({ s with peers := s.peers.insert address refreshed }, record.peerId,
      decide (refreshed ≠ record))
  | none =>
    let peerId := max s.nextPeerId 1
    let record : AppPeerRecord := ⟨peerId, verifiedAt, verifiedAt, appInfoUpdatedAt⟩
    ({ s with
        -- After the last number comes the first one again.
        nextPeerId := if peerId = 18446744073709551615 then 1 else peerId + 1
        peers := s.peers.insert address record }, peerId, true)

/-- The names in an announcement that are of interest. -/
def advertised (s : AppDiscoveryState) (applicationIds : List String) : List String :=
  (applicationIds.filter fun appId => decide (appId ∈ s.interestedApps)).dedup

/-- What is known of a peer is newer. -/
def isStale (s : AppDiscoveryState) (address : String) (appInfoUpdatedAt : UInt64) : Bool :=
  (s.peers.lookup address).any fun record => appInfoUpdatedAt < record.lastAppInfoUpdatedAt

/-- Remove a peer from the applications that it does not announce. -/
def withdraw (s : AppDiscoveryState) (address : String) (advertised : List String) :
    AppDiscoveryState × Bool :=
  let existing := (s.peers.lookup address).map (·.peerId)
  s.keepMemberships fun appId _ m =>
    decide (appId ∈ advertised) || decide (some m.peerId ≠ existing)

section Operations

variable {Key : Type} (keys : RecordKeys Key) (archiveSample : String → UInt64 → UInt64 → UInt64)

/-- Enter the announcement of a peer, once it is known to be current. -/
def enter (s : AppDiscoveryState) (orders : Orders) (address : String) (advertised : List String)
    (appInfoUpdatedAt verifiedAt : UInt64) : AppDiscoveryState × Bool :=
  let withdrawn := s.withdraw address advertised
  if advertised.isEmpty then
    let kept := withdrawn.1.keepTombstone address verifiedAt appInfoUpdatedAt
    let capped := enforcePeerCapacity orders.peers kept.1
    (capped.1, withdrawn.2 || kept.2 || capped.2)
  else
    let recorded := withdrawn.1.recordPeer address verifiedAt appInfoUpdatedAt
    let observed := recorded.1.observeMemberships archiveSample recorded.2.1 verifiedAt advertised
    let trimmed := enforceGlobalCapacity orders.associations observed.1
    let capped := enforcePeerCapacity orders.peers trimmed.1
    (capped.1, withdrawn.2 || recorded.2.2 || observed.2 || trimmed.2 || capped.2)

/-- A direct read of the announcement of a peer. -/
def observeDirectAppSet (s : AppDiscoveryState) (orders : Orders) (peer : Key)
    (applicationIds : List String) (appInfoUpdatedAt directlyVerifiedAt now : UInt64) :
    AppDiscoveryState × Bool :=
  let address := keys.text peer
  let verifiedAt := min directlyVerifiedAt now
  let pruned := s.pruneExpired orders.prune now
  if pruned.1.isStale address appInfoUpdatedAt then (pruned.1.bump pruned.2, pruned.2)
  else
    let entered := pruned.1.enter archiveSample orders address
      (pruned.1.advertised applicationIds) appInfoUpdatedAt verifiedAt
    (entered.1.bump (pruned.2 || entered.2), pruned.2 || entered.2)

structure AppPeerResult (Key : Type) where
  mainDht : Key
  firstDiscoveredAt : UInt64
  lastDirectlyVerifiedAt : UInt64
  lastReturnedAt : UInt64
  returnCount : UInt32
  tier : AppPeerTier
  appRootDht : Option Key
  appRootCheckedAt : UInt64
  appDirectoryGeneration : UInt64
  deriving DecidableEq

structure AppPeerPage (Key : Type) where
  generation : UInt64
  totalCached : Nat
  peers : List (AppPeerResult Key)
  deriving DecidableEq

/-- Members are returned in the order of this key. -/
def returnPriority (m : AppPeerMembership) : List UInt64 :=
  [m.lastReturnedAt, m.returnCount.toUInt64, m.firstSeenForApp, m.peerId]

/-- The places of the members that a page of some size returns. -/
def selectMembers (limit recent archive : Nat) : List (AppPeerTier × Nat) :=
  let desiredRecent := (limit * 4 + 4) / 5
  let recent₁ := min recent desiredRecent
  let archive₁ := min archive (limit - recent₁)
  let recent₂ := min recent (recent₁ + (limit - (recent₁ + archive₁)))
  let archive₂ := min archive (archive₁ + (limit - (recent₂ + archive₁)))
  (List.range recent₁).map (.recent, ·) ++ (List.range archive₁).map (.archive, ·) ++
    (List.range' recent₁ (recent₂ - recent₁)).map (.recent, ·) ++
    (List.range' archive₁ (archive₂ - archive₁)).map (.archive, ·)

/-- A member is returned. -/
def markReturned (now : UInt64) (m : AppPeerMembership) : AppPeerMembership :=
  { m with
    lastReturnedAt := now
    returnCount := if m.returnCount = 4294967295 then m.returnCount else m.returnCount + 1 }

def memberAt (set : AppPeerSet) : AppPeerTier × Nat → Option AppPeerMembership
  | (.recent, i) => set.recent[i]?
  | (.archive, i) => set.archive[i]?

def resultOf (peers : Peers) (tier : AppPeerTier) (m : AppPeerMembership) :
    Option (AppPeerResult Key) :=
  (peers.entries.reverse.find? fun e => e.2.peerId = m.peerId).bind fun e =>
    (keys.parse e.1).map fun mainDht =>
      { mainDht := mainDht
        firstDiscoveredAt := e.2.firstDiscoveredAt
        lastDirectlyVerifiedAt := m.lastVerifiedForApp
        lastReturnedAt := m.lastReturnedAt
        returnCount := m.returnCount
        tier := tier
        appRootDht := m.appRootDht.bind keys.parse
        appRootCheckedAt := m.appRootCheckedAt
        appDirectoryGeneration := m.appDirectoryGeneration }

def sortMembers (set : AppPeerSet) : AppPeerSet :=
  { set with
    recent := sortByKey returnPriority set.recent
    archive := sortByKey returnPriority set.archive }

def markSelected (now : UInt64) (selected : List (AppPeerTier × Nat)) (set : AppPeerSet) :
    AppPeerSet :=
  { set with
    recent := set.recent.mapIdx fun i m =>
      if (.recent, i) ∈ selected then markReturned now m else m
    archive := set.archive.mapIdx fun i m =>
      if (.archive, i) ∈ selected then markReturned now m else m }

/-- A page of the peers of an application. -/
def listPeers (s : AppDiscoveryState) (order : Arrangement (String × AppPeerRecord))
    (appId : String) (requestedLimit : Nat) (now : UInt64) :
    AppDiscoveryState × AppPeerPage Key :=
  let limit := min (max requestedLimit 1) appDiscoveryMaxApiResults
  let pruned := s.pruneExpired order now
  match pruned.1.apps.lookup appId with
  | none =>
    let s' := pruned.1.bump pruned.2
    (s', ⟨s'.generation, 0, []⟩)
  | some set =>
    let sorted := sortMembers set
    let selected := selectMembers limit sorted.recent.length sorted.archive.length
    let marked := markSelected now selected sorted
    let s' := { pruned.1 with apps := pruned.1.apps.insert appId marked }.bump
      (pruned.2 || decide (marked ≠ sorted))
    (s', ⟨s'.generation, set.size, selected.filterMap fun place =>
      (memberAt sorted place).bind (resultOf keys pruned.1.peers place.1)⟩)

/-- Note what the directory of a peer says about an application. -/
def cacheAppRoot (s : AppDiscoveryState) (appId : String) (peer : Key) (rootDht : Option Key)
    (directoryGeneration checkedAt : UInt64) : AppDiscoveryState × Bool :=
  match s.peers.lookup (keys.text peer), s.apps.lookup appId with
  | some record, some set =>
    match set.memberships.find? fun m => m.peerId = record.peerId with
    | none => (s, false)
    | some m =>
      let root := rootDht.map keys.text
      if m.appRootDht ≠ root ∨ m.appRootCheckedAt ≠ checkedAt ∨
          m.appDirectoryGeneration ≠ directoryGeneration then
        let set' := set.update record.peerId fun m =>
          { m with
            appRootDht := root
            appRootCheckedAt := checkedAt
            appDirectoryGeneration := directoryGeneration }
        ({ s with apps := s.apps.insert appId set' }.bump true, true)
      else (s, false)
  | _, _ => (s, false)

/-- Members serve as seeds in the order of this key. -/
def seedKey (m : AppPeerMembership) : List UInt64 :=
  [m.lastReturnedAt, reversed m.lastVerifiedForApp, m.peerId]

def searchSeeds (s : AppDiscoveryState) (order : Arrangement (String × AppPeerRecord))
    (appId : String) (maximum : Nat) (now : UInt64) : AppDiscoveryState × List Key :=
  let pruned := s.pruneExpired order now
  let s' := pruned.1.bump pruned.2
  match s'.apps.lookup appId with
  | none => (s', [])
  | some set =>
    let seeds := (sortByKey seedKey set.memberships).filterMap fun m =>
      (s'.peers.entries.reverse.find? fun e => e.2.peerId = m.peerId).bind fun e =>
        keys.parse e.1
    (s', seeds.take (min maximum appDiscoveryMaxSearchSeeds))

/-- Forget peers that are blocked. -/
def removePeers (s : AppDiscoveryState) (peers : List Key) : AppDiscoveryState × Bool :=
  if peers.isEmpty then (s, false)
  else
    let blocked := peers.map keys.text
    let blockedIds := blocked.filterMap fun address =>
      (s.peers.lookup address).map (·.peerId)
    let kept := { s with peers := s.peers.retain fun address => address ∉ blocked }
    let filtered := kept.keepMemberships fun _ _ m => decide (m.peerId ∉ blockedIds)
    let changed := decide (kept.peers.entries.length ≠ s.peers.entries.length) || filtered.2
    (filtered.1.dropEmpty.bump changed, changed)

/-- The counts that the dashboard shows prune the cache, too. -/
def appSummaries (s : AppDiscoveryState) (order : Arrangement (String × AppPeerRecord))
    (now : UInt64) : AppDiscoveryState :=
  let pruned := s.pruneExpired order now
  pruned.1.bump pruned.2

end Operations

end AppDiscoveryState

end VeilKnit.App
