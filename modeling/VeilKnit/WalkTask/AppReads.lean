import VeilKnit.App.DiscoveryMembers

/-!
# Direct reads of the applications of a peer

A walk enters what a peer announces in two places, the peer's entry in the node list and the
discovery cache. Both ignore an announcement whose time is earlier than a stored one.

A read that finds nothing clears both, and leaves a time of the local clock: the present one in
the entry, and the latest plausible one in the cache. An announcement that was made before, but is
only found later, carries an earlier time, so it is ignored.
-/

namespace VeilKnit.WalkTask

open Library Types App

/-- The fields of an entry of the node list that concern applications. -/
structure ListEntry where
  capabilityFlags : UInt64 := 0
  applicationIds : List String := []
  appInfoUpdatedAt : UInt64 := 0
  deriving DecidableEq

/-- What a walk has read of a peer, as far as its applications are concerned. -/
structure AppInfoSnapshot where
  fatalError : Bool
  accountCreatedAt : Option UInt64
  appInfoFailed : Bool
  appInfo : Option Bytes
  deriving DecidableEq

namespace AppInfoSnapshot

def appInfoReadCompleted (snapshot : AppInfoSnapshot) : Bool :=
  ! snapshot.fatalError && ! snapshot.appInfoFailed

/-- The announcement, if there is one that decodes. -/
def parsedAppInfo (snapshot : AppInfoSnapshot) : Option AppInfo :=
  snapshot.appInfo.bind fun bytes =>
    if bytes = [] ∨ bytes = [48] then none else (decodeAppInfo bytes).toOption

/-- The announcement that a completed read has found. -/
def found (snapshot : AppInfoSnapshot) : Option AppInfo :=
  if snapshot.appInfoReadCompleted then snapshot.parsedAppInfo else none

/-- A completed read has found no announcement. -/
def foundNothing (snapshot : AppInfoSnapshot) : Bool :=
  snapshot.appInfoReadCompleted && snapshot.parsedAppInfo.isNone

end AppInfoSnapshot

/-- Enter a completed read in the node list. -/
def ListEntry.noteAppInfo (entry : ListEntry) (appInfo : Option AppInfo) (now : UInt64) :
    ListEntry :=
  match appInfo with
  | some info =>
    if info.timestampIsPlausibleAt now then
      if entry.appInfoUpdatedAt ≤ info.updatedAt then
        { capabilityFlags := info.flags
          applicationIds :=
            if AppDiscoveryState.cutoff now ≤ info.updatedAt then info.applicationIds else []
          appInfoUpdatedAt := min info.updatedAt (latestPlausible now) }
      else entry
    else
      { capabilityFlags := 0, applicationIds := [], appInfoUpdatedAt := latestPlausible now }
  | none => { capabilityFlags := 0, applicationIds := [], appInfoUpdatedAt := now }

def processRemoteSnapshot (entry : Option ListEntry) (snapshot : AppInfoSnapshot) (now : UInt64) :
    Option ListEntry :=
  if snapshot.fatalError then entry
  else if snapshot.accountCreatedAt.any fun created => latestPlausible now < created then
    -- The peer is quarantined.
    none
  else
    let target := entry.getD {}
    some (if snapshot.appInfoReadCompleted then target.noteAppInfo snapshot.parsedAppInfo now
      else target)

section Cache

variable {Key : Type} (target : Key)

/-- How the cache is told of a read. -/
def appCacheUpdate (orders : Orders) (snapshot : AppInfoSnapshot) (now : UInt64) :
    Option (DiscoveryEvent Key) :=
  if snapshot.appInfoReadCompleted then
    match snapshot.parsedAppInfo with
    | some info =>
      if info.timestampIsPlausibleAt now then
        let appIds :=
          if AppDiscoveryState.cutoff now ≤ info.updatedAt then info.applicationIds else []
        some (.observe orders target appIds info.updatedAt now now)
      else some (.observe orders target [] (latestPlausible now) now now)
    | none => some (.observe orders target [] (latestPlausible now) now now)
  else none

/-- The cache is seeded from the node list when an application becomes of interest. -/
def seedFrom (orders : Orders) (entry : ListEntry) (lastDirectDhtReadAt now : UInt64) :
    Option (DiscoveryEvent Key) :=
  if AppDiscoveryState.cutoff now ≤ entry.appInfoUpdatedAt ∧ entry.applicationIds ≠ [] then
    some (.observe orders target entry.applicationIds entry.appInfoUpdatedAt
      (max lastDirectDhtReadAt entry.appInfoUpdatedAt) now)
  else none

end Cache

/-! ## Runs -/

/-- What is stored of one peer, the cache that also holds others, and what reads have found. -/
structure DirectRun where
  entry : Option ListEntry := none
  cache : DiscoveryRun := {}
  clock : UInt64 := 0
  /-- The latest time that an announcement read so far carries. -/
  newest : UInt64 := 0
  foundNothing : Bool := false
  /-- The announcement that the last step has read, if none is newer and it is plausible. -/
  lastRead : Option AppInfo := none

inductive DirectEvent (Key : Type)
  | read (snapshot : AppInfoSnapshot) (kept : Bool) (orders : Orders) (listNow cacheNow : UInt64)
  | dropEntry
  | seed (orders : Orders) (lastDirectDhtReadAt now : UInt64)
  | elsewhere (event : DiscoveryEvent Key)

section Runs

variable {Key : Type} (keys : RecordKeys Key)
  (archiveSample : String → UInt64 → UInt64 → UInt64) (target : Key)

def isReadOf : DiscoveryEvent Key → Bool
  | .observe _ peer _ _ _ _ => decide (keys.text peer = keys.text target)
  | _ => false

namespace DirectRun

def updateCache (cache : DiscoveryRun) (event : Option (DiscoveryEvent Key)) : DiscoveryRun :=
  event.elim cache (cache.next keys archiveSample)

/-- An announcement that is valid when it is read, and not older than those read before. -/
def genuine (run : DirectRun) (snapshot : AppInfoSnapshot) (listNow cacheNow : UInt64) :
    Option AppInfo :=
  snapshot.found.filter fun info =>
    info.timestampIsPlausibleAt listNow && decide (AppDiscoveryState.cutoff cacheNow ≤ info.updatedAt)
      && decide (run.newest ≤ info.updatedAt)

def next (run : DirectRun) : DirectEvent Key → Option DirectRun
  | .read snapshot kept orders listNow cacheNow =>
    if run.clock ≤ listNow ∧ listNow ≤ cacheNow then
      some
        { entry := if kept then processRemoteSnapshot run.entry snapshot listNow else none
          cache := updateCache keys archiveSample run.cache
            (appCacheUpdate target orders snapshot cacheNow)
          clock := cacheNow
          newest := snapshot.found.elim run.newest fun info => max run.newest info.updatedAt
          foundNothing := run.foundNothing || snapshot.foundNothing
          lastRead := run.genuine snapshot listNow cacheNow }
    else none
  | .dropEntry => some { run with entry := none, lastRead := none }
  | .seed orders lastDirectDhtReadAt now =>
    some { run with
      cache := updateCache keys archiveSample run.cache
        (run.entry.bind fun entry => seedFrom target orders entry lastDirectDhtReadAt now)
      lastRead := none }
  | .elsewhere event =>
    if isReadOf keys target event then none
    else some { run with cache := run.cache.next keys archiveSample event, lastRead := none }

/-- The node list and the cache have what the last read has found. -/
def Reflects (run : DirectRun) : Prop :=
  ∀ info ∈ run.lastRead,
    (∀ entry ∈ run.entry, entry.applicationIds = info.applicationIds ∧
      entry.appInfoUpdatedAt = info.updatedAt) ∧
    ∀ appId ∈ run.cache.state.interestedApps,
      run.cache.state.IsMember (keys.text target) appId ↔ appId ∈ info.applicationIds

/-- Where an earlier read has found nothing, no stored time is later than that of a genuine
announcement; and there is room for the peer. -/
def Unobstructed (run : DirectRun) : DirectEvent Key → Prop
  | .read snapshot _ _ listNow cacheNow =>
    ∀ info ∈ run.genuine snapshot listNow cacheNow,
      (run.foundNothing → (∀ entry ∈ run.entry, entry.appInfoUpdatedAt ≤ info.updatedAt) ∧
          ∀ record ∈ run.cache.state.peers.lookup (keys.text target),
            record.lastAppInfoUpdatedAt ≤ info.updatedAt) ∧
        run.cache.numbered + 1 < 2 ^ 64 ∧
        run.cache.state.verifiedSince cacheNow + info.applicationIds.length ≤
          appDiscoveryGlobalAssociationCapacity ∧
        run.cache.state.peersSince cacheNow < appDiscoveryGlobalPeerCapacity
  | _ => True

end DirectRun

def directReadSystem : LabelledSystem DirectRun (DirectEvent Key) :=
  .ofFunction {} (DirectRun.next keys archiveSample target)

end Runs

/-! ## Times -/

variable {a b now latest : UInt64}

theorem latestPlausible_mono (h : a ≤ b) : latestPlausible a ≤ latestPlausible b := by
  have h' : a.toNat ≤ b.toNat := UInt64.le_iff_toNat_le.mp h
  have htoNat (c : UInt64) : (latestPlausible c).toNat = min (c.toNat + 120)
      18446744073709551615 := saturatingAdd_toNat c publicMetadataMaxFutureSkewSecs
  rw [UInt64.le_iff_toNat_le, htoNat, htoNat]
  omega

theorem cutoff_mono (h : a ≤ b) : AppDiscoveryState.cutoff a ≤ AppDiscoveryState.cutoff b := by
  have h' : a.toNat ≤ b.toNat := UInt64.le_iff_toNat_le.mp h
  have htoNat (c : UInt64) : (AppDiscoveryState.cutoff c).toNat = c.toNat - 15552000 := by
    unfold AppDiscoveryState.cutoff saturatingSub
    split
    case isTrue hlt =>
      have hlt' : c.toNat < 15552000 := UInt64.lt_iff_toNat_lt.mp hlt
      change 0 = c.toNat - 15552000
      omega
    case isFalse hle => exact UInt64.toNat_sub_of_le _ _ (UInt64.not_lt.mp hle)
  rw [UInt64.le_iff_toNat_le, htoNat, htoNat]
  omega

/-! ## Stored times -/

/-- A read that finds an announcement stores no time later than the announcement's own. -/
theorem noteAppInfo_stamp {entry : ListEntry} {info : AppInfo}
    (hentry : entry.appInfoUpdatedAt ≤ latest) (hinfo : info.updatedAt ≤ latest) :
    (entry.noteAppInfo (some info) now).appInfoUpdatedAt ≤ latest := by
  unfold ListEntry.noteAppInfo
  dsimp only
  split
  case isTrue =>
    split
    case isTrue => exact UInt64.le_trans (min_le_left' _ _) hinfo
    case isFalse => exact hentry
  case isFalse hfuture =>
    have hlater : latestPlausible now < info.updatedAt :=
      UInt64.not_le.mp fun hle => hfuture (decide_eq_true hle)
    exact UInt64.le_trans (UInt64.le_of_lt hlater) hinfo

theorem processRemoteSnapshot_stamp {entry : Option ListEntry} {snapshot : AppInfoSnapshot}
    (hentry : ∀ e ∈ entry, e.appInfoUpdatedAt ≤ latest) (hsomething : snapshot.foundNothing = false)
    (hinfo : ∀ info ∈ snapshot.found, info.updatedAt ≤ latest) :
    ∀ e ∈ processRemoteSnapshot entry snapshot now, e.appInfoUpdatedAt ≤ latest := by
  have htarget : (entry.getD {}).appInfoUpdatedAt ≤ latest := by
    cases entry with
    | none => exact UInt64.zero_le
    | some e => exact hentry e rfl
  intro e he
  unfold processRemoteSnapshot at he
  split at he
  case isTrue => exact hentry e he
  case isFalse =>
  split at he
  case isTrue => cases he
  case isFalse =>
  cases he
  split
  case isTrue hcompleted =>
    cases hparsed : snapshot.parsedAppInfo with
    | none =>
      rw [AppInfoSnapshot.foundNothing, hcompleted, hparsed] at hsomething
      cases hsomething
    | some info =>
      refine noteAppInfo_stamp htarget (hinfo info ?_)
      rw [AppInfoSnapshot.found, if_pos hcompleted]
      exact hparsed
  case isFalse => exact htarget

section Runs

variable {Key : Type} {keys : RecordKeys Key}
  {archiveSample : String → UInt64 → UInt64 → UInt64} {target : Key} {now latest : UInt64}

/-- The time that an update of the cache carries. -/
theorem appCacheUpdate_stamp {orders : Orders} {snapshot : AppInfoSnapshot}
    (hsomething : snapshot.foundNothing = false)
    (hinfo : ∀ info ∈ snapshot.found, info.updatedAt ≤ latest) :
    ∀ event ∈ appCacheUpdate target orders snapshot now, ∃ appIds appInfoUpdatedAt,
      event = .observe orders target appIds appInfoUpdatedAt now now ∧
        appInfoUpdatedAt ≤ latest := by
  intro event hevent
  unfold appCacheUpdate at hevent
  split at hevent
  case isTrue hcompleted =>
    split at hevent
    case h_1 info hparsed =>
      have hlatest : info.updatedAt ≤ latest := by
        refine hinfo info ?_
        rw [AppInfoSnapshot.found, if_pos hcompleted]
        exact hparsed
      split at hevent
      case isTrue =>
        cases hevent
        exact ⟨_, _, rfl, hlatest⟩
      case isFalse hfuture =>
        cases hevent
        have hlater : latestPlausible now < info.updatedAt :=
          UInt64.not_le.mp fun hle => hfuture (decide_eq_true hle)
        exact ⟨_, _, rfl, UInt64.le_trans (UInt64.le_of_lt hlater) hlatest⟩
    case h_2 hparsed =>
      rw [AppInfoSnapshot.foundNothing, hcompleted, hparsed] at hsomething
      cases hsomething
  case isFalse => cases hevent

/-- Along runs the cache is consistent; and until a read finds nothing, no stored time is later
than those of the announcements that have been read. -/
structure DirectSound (keys : RecordKeys Key) (target : Key) (run : DirectRun) : Prop where
  bounded : RunBounded run.cache
  listed : run.foundNothing = false → ∀ e ∈ run.entry, e.appInfoUpdatedAt ≤ run.newest
  cached : run.foundNothing = false → ∀ record ∈ run.cache.state.peers.lookup (keys.text target),
      record.lastAppInfoUpdatedAt ≤ run.newest

variable {cache : DiscoveryRun}

theorem runBounded_updateCache (h : RunBounded cache)
    (event : Option (DiscoveryEvent Key)) :
    RunBounded (DirectRun.updateCache keys archiveSample cache event) := by
  cases event with
  | none => exact h
  | some event => exact (runBounded_invariant keys archiveSample).preserved _ event _ h rfl

theorem updateCache_stamp {event : Option (DiscoveryEvent Key)}
    (hbefore : ∀ record ∈ cache.state.peers.lookup (keys.text target),
      record.lastAppInfoUpdatedAt ≤ latest)
    (hevent : ∀ orders appIds appInfoUpdatedAt verifiedAt now peer,
      event = some (.observe orders peer appIds appInfoUpdatedAt verifiedAt now) →
      keys.text peer = keys.text target → appInfoUpdatedAt ≤ latest) :
    ∀ record ∈ (DirectRun.updateCache keys archiveSample cache event).state.peers.lookup
      (keys.text target), record.lastAppInfoUpdatedAt ≤ latest := by
  intro record hrecord
  cases event with
  | none => exact hbefore record hrecord
  | some event =>
    rcases AppDiscoveryState.after_records hrecord with hrecord |
      ⟨orders, peer, appIds, updatedAt, verifiedAt, now, rfl, hpeer, hstamp⟩
    · exact hbefore record hrecord
    · exact hstamp ▸ hevent orders appIds updatedAt verifiedAt now peer rfl hpeer.symm

theorem directSound_invariant :
    (directReadSystem keys archiveSample target).Invariant (DirectSound keys target) where
  initially := by
    rintro run rfl
    have hempty := (runBounded_invariant keys archiveSample).initially {} rfl
    exact ⟨hempty, fun _ _ he => absurd he (Option.not_mem_none _),
      fun _ _ hrecord => absurd hrecord (Option.not_mem_none _)⟩
  preserved := by
    rintro run event run' h hstep
    cases event with
    | read snapshot kept orders listNow cacheNow =>
      change (if _ then some _ else none) = some run' at hstep
      split at hstep
      case isFalse => cases hstep
      case isTrue =>
      cases hstep
      have hnewest : run.newest ≤ snapshot.found.elim run.newest fun info =>
          max run.newest info.updatedAt := by
        cases snapshot.found with
        | none => exact UInt64.le_refl _
        | some info => exact le_max_left' _ _
      have hinfo : ∀ info ∈ snapshot.found, info.updatedAt ≤ snapshot.found.elim run.newest
          fun info => max run.newest info.updatedAt := by
        intro info hfound
        rw [Option.mem_def.mp hfound]
        exact le_max_right' _ _
      refine ⟨runBounded_updateCache h.bounded _, fun hnothing e he => ?_, fun hnothing => ?_⟩
      · obtain ⟨hbefore, hsomething⟩ := Bool.or_eq_false_iff.mp hnothing
        dsimp only at he ⊢
        split at he
        case isTrue =>
          exact processRemoteSnapshot_stamp (fun e he =>
            UInt64.le_trans (h.listed hbefore e he) hnewest) hsomething hinfo e he
        case isFalse => cases he
      obtain ⟨hbefore, hsomething⟩ := Bool.or_eq_false_iff.mp hnothing
      refine updateCache_stamp (fun record hrecord =>
        UInt64.le_trans (h.cached hbefore record hrecord) hnewest) ?_
      rintro orders' appIds updatedAt verifiedAt now peer hevent -
      obtain ⟨appIds', updatedAt', heq, hle⟩ :=
        appCacheUpdate_stamp hsomething hinfo _ hevent
      cases heq
      exact hle
    | dropEntry =>
      cases hstep
      exact ⟨h.bounded, fun _ _ he => absurd he (Option.not_mem_none _), h.cached⟩
    | seed orders lastDirectDhtReadAt now =>
      cases hstep
      refine ⟨runBounded_updateCache h.bounded _, h.listed, fun hnothing => ?_⟩
      refine updateCache_stamp (h.cached hnothing) ?_
      rintro orders' appIds updatedAt verifiedAt now' peer hevent -
      obtain ⟨entry, hentry, hseed⟩ := Option.bind_eq_some_iff.mp hevent
      unfold seedFrom at hseed
      split at hseed
      case isTrue =>
        cases hseed
        exact h.listed hnothing entry hentry
      case isFalse => cases hseed
    | elsewhere event =>
      change (if _ then none else some _) = some run' at hstep
      split at hstep
      case isTrue => cases hstep
      case isFalse hother =>
      cases hstep
      refine ⟨runBounded_updateCache h.bounded (some event), h.listed, fun hnothing => ?_⟩
      refine @updateCache_stamp _ _ _ _ _ _ (some event) (h.cached hnothing) ?_
      rintro orders' appIds updatedAt verifiedAt now peer hevent hpeer
      cases hevent
      exact absurd (decide_eq_true hpeer) hother

variable {info : AppInfo}

/-- What a genuine announcement is. -/
theorem mem_genuine {run : DirectRun} {snapshot : AppInfoSnapshot} {listNow cacheNow : UInt64}
    (h : info ∈ run.genuine snapshot listNow cacheNow) :
    snapshot.appInfoReadCompleted = true ∧ snapshot.parsedAppInfo = some info ∧
      info.timestampIsPlausibleAt listNow = true ∧
      AppDiscoveryState.cutoff cacheNow ≤ info.updatedAt ∧ run.newest ≤ info.updatedAt := by
  obtain ⟨hfound, hvalid⟩ := Option.filter_eq_some_iff.mp h
  rw [Bool.and_eq_true, Bool.and_eq_true] at hvalid
  unfold AppInfoSnapshot.found at hfound
  split at hfound
  case isTrue hcompleted =>
    exact ⟨hcompleted, hfound, hvalid.1.1, of_decide_eq_true hvalid.1.2, of_decide_eq_true hvalid.2⟩
  case isFalse => cases hfound

/-- The node list has a genuine announcement if the stored time is not later. -/
theorem listed_of_genuine {entry : Option ListEntry} {snapshot : AppInfoSnapshot}
    (hcompleted : snapshot.appInfoReadCompleted = true)
    (hparsed : snapshot.parsedAppInfo = some info)
    (hintime : info.timestampIsPlausibleAt now = true)
    (hwindow : AppDiscoveryState.cutoff now ≤ info.updatedAt)
    (hstored : ∀ e ∈ entry, e.appInfoUpdatedAt ≤ info.updatedAt) :
    ∀ e ∈ processRemoteSnapshot entry snapshot now,
      e.applicationIds = info.applicationIds ∧ e.appInfoUpdatedAt = info.updatedAt := by
  have htarget : (entry.getD {}).appInfoUpdatedAt ≤ info.updatedAt := by
    cases entry with
    | none => exact UInt64.zero_le
    | some e => exact hstored e rfl
  have hreached : snapshot.fatalError = false := by
    have hboth := (Bool.and_eq_true ..).mp hcompleted
    simpa using hboth.1
  intro e he
  unfold processRemoteSnapshot at he
  rw [if_neg (by simp [hreached])] at he
  split at he
  case isTrue => cases he
  case isFalse =>
  cases he
  rw [hparsed]
  unfold ListEntry.noteAppInfo
  dsimp only
  rw [if_pos hintime, if_pos htarget]
  exact ⟨if_pos hwindow, min_eq_left' (of_decide_eq_true hintime)⟩

/-- In every run a genuine announcement is reflected in the node list and in the cache, unless an
earlier read that found nothing has left a later time there. -/
theorem genuine_read_is_reflected {run : DirectRun}
    (h : ((directReadSystem keys archiveSample target).restrict
      (DirectRun.Unobstructed keys target)).Reachable run) :
    run.Reflects keys target := by
  refine directSound_invariant.holds_within (fun s hs => ?_) (fun s event t hsound _ hguard hstep =>
    ?_) h
  · obtain rfl := hs
    exact fun _ hinfo => absurd hinfo (Option.not_mem_none _)
  cases event with
  | read snapshot kept orders listNow cacheNow =>
    change (if _ then some _ else none) = some t at hstep
    obtain ⟨hclock, hstep⟩ := Option.ite_none_right_eq_some.mp hstep
    cases hstep
    intro info hinfo
    obtain ⟨hstored, hnumbered, hassociations, hpeers⟩ := hguard info hinfo
    obtain ⟨hcompleted, hparsed, hintime, hwindow, hnewest⟩ := mem_genuine hinfo
    have hlisted : ∀ e ∈ s.entry, e.appInfoUpdatedAt ≤ info.updatedAt := by
      intro e he
      cases hnothing : s.foundNothing with
      | true => exact (hstored hnothing).1 e he
      | false => exact UInt64.le_trans (hsound.listed hnothing e he) hnewest
    have hcached : ∀ record, s.cache.state.peers.lookup (keys.text target) = some record →
        record.lastAppInfoUpdatedAt ≤ info.updatedAt := by
      intro record hrecord
      cases hnothing : s.foundNothing with
      | true => exact (hstored hnothing).2 record hrecord
      | false => exact UInt64.le_trans (hsound.cached hnothing record hrecord) hnewest
    refine ⟨fun e he => ?_, ?_⟩
    · dsimp only at he
      split at he
      case isTrue =>
        exact listed_of_genuine hcompleted hparsed hintime
          (UInt64.le_trans (cutoff_mono hclock.2) hwindow) hlisted e he
      case isFalse => cases he
    have hintime' : info.timestampIsPlausibleAt cacheNow = true :=
      decide_eq_true (UInt64.le_trans (of_decide_eq_true hintime) (latestPlausible_mono hclock.2))
    have hupdate : appCacheUpdate target orders snapshot cacheNow =
        some (.observe orders target info.applicationIds info.updatedAt cacheNow cacheNow) := by
      unfold appCacheUpdate
      rw [if_pos hcompleted, hparsed]
      dsimp only
      rw [if_pos hintime', if_pos hwindow]
    have hnow : min cacheNow cacheNow = cacheNow := min_eq_left' (UInt64.le_refl _)
    rw [← hnow] at hassociations hpeers
    rw [hupdate]
    exact AppDiscoveryState.observe_reflects hsound.bounded.consistent
      (hsound.bounded.numbered (by omega)) hnumbered keys archiveSample orders target
      info.applicationIds hcached hassociations hpeers
  | dropEntry =>
    cases hstep
    exact fun _ hinfo => absurd hinfo (Option.not_mem_none _)
  | seed orders lastDirectDhtReadAt now =>
    cases hstep
    exact fun _ hinfo => absurd hinfo (Option.not_mem_none _)
  | elsewhere event =>
    change (if _ then none else some _) = some t at hstep
    split at hstep
    case isTrue => cases hstep
    case isFalse =>
      cases hstep
      exact fun _ hinfo => absurd hinfo (Option.not_mem_none _)

end Runs

/-! ## Samples -/

namespace AppReadSample

open DiscoverySample

def announcement : AppInfo := ⟨0, appInfoRecordVersion, [app], 900⟩

def snapshot (appInfo : Option Bytes) : AppInfoSnapshot := ⟨false, none, false, appInfo⟩

/-- A read that finds the announcement. -/
def finding (now : UInt64) : DirectEvent Peer :=
  .read (snapshot (some (AppInfo.codec.encode announcement))) true orders now (now + 1)

def registered : DirectRun :=
  (DirectRun.next keys archiveSample .first {} (.elsewhere (.registerInterest app 950))).get
    (by decide +kernel)

/-- The announcement is found at once. -/
def foundAtOnce : DirectRun :=
  (registered.next keys archiveSample .first (finding 1100)).get (by decide +kernel)

/-- At first nothing is found. -/
def foundNothing : DirectRun :=
  (registered.next keys archiveSample .first (.read (snapshot none) true orders 1000 1001)).get
    (by decide +kernel)

def foundLater : DirectRun :=
  (foundNothing.next keys archiveSample .first (finding 1100)).get (by decide +kernel)

theorem genuine_read_is_reflected_atOnce : foundAtOnce.lastRead = some announcement ∧
    foundAtOnce.Reflects keys .first := by
  have hread : registered.genuine (snapshot (some (AppInfo.codec.encode announcement))) 1100 1101 =
      some announcement := by decide +kernel
  have hguard : registered.Unobstructed keys .first (finding 1100) := by
    intro info hinfo
    cases hread.symm.trans hinfo
    have hnothing : registered.foundNothing = false := by decide +kernel
    exact ⟨fun h => absurd (hnothing.symm.trans h) (by decide), by decide +kernel,
      by decide +kernel, by decide +kernel⟩
  have reached : ((directReadSystem keys archiveSample .first).restrict
      (DirectRun.Unobstructed keys .first)).Reachable foundAtOnce :=
    .next (finding 1100) (.next (.elsewhere (.registerInterest app 950)) (.start rfl)
      ⟨trivial, (Option.some_get _).symm⟩) ⟨hguard, (Option.some_get _).symm⟩
  exact ⟨by decide +kernel, genuine_read_is_reflected reached⟩

/-- The only announcement that is ever read is ignored. -/
theorem foundLater_ignored : (directReadSystem keys archiveSample .first).Reachable foundLater ∧
    foundLater.lastRead = some announcement ∧ ¬ foundLater.Reflects keys .first := by
  have reached : (directReadSystem keys archiveSample .first).Reachable foundLater :=
    .next (finding 1100) (.next (.read (snapshot none) true orders 1000 1001)
      (.next (.elsewhere (.registerInterest app 950)) (.start rfl) (Option.some_get _).symm)
      (Option.some_get _).symm) (Option.some_get _).symm
  have hread : foundLater.lastRead = some announcement := by decide +kernel
  refine ⟨reached, hread, fun hreflects => ?_⟩
  have hentry : foundLater.entry = some { appInfoUpdatedAt := 1000 } := by decide +kernel
  have hids := ((hreflects announcement hread).1 _ hentry).1
  cases hids

end AppReadSample

end VeilKnit.WalkTask
