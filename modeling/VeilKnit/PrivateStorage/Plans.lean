import VeilKnit.PrivateStorage.Operations

/-!
# What an operation plans

Every plan comes from the manifest that was loaded and has one of a few forms. Whatever becomes of
its writes, the manifest afterwards is one of those that were planned, or the one before.
-/

namespace VeilKnit.PrivateStorage

open Library Types

/-- The operation may find that there is nothing to write. -/
def Op.MayPass : Op → Bool
  | .getValue _ => true
  | .listValues => true
  | .deleteValue _ => true
  | .abortBlob _ => true
  | .listBlobs => true
  | .readBlobRange .. => true
  | .usage => true
  | .prepareShutdown => true
  | _ => false

/-- The manifest after a shutdown. -/
def PrivateAppManifest.withoutShutdown (m : PrivateAppManifest) (now : UInt64) :
    PrivateAppManifest :=
  { m with
    values := m.values.filterEntries fun _ e => e.retention ≠ .deleteOnShutdown
    blobs := m.blobs.filterEntries fun _ e => e.retention ≠ .deleteOnShutdown
    updatedAt := now }

/-- The manifest of a cleanup, before its cache is pruned. -/
def PrivateAppManifest.swept (m : PrivateAppManifest) (now : UInt64) : PrivateAppManifest :=
  { m with
    values := m.values.filterEntries fun _ e => ¬ isExpired e.expiresAt now
    blobs := m.blobs.filterEntries fun _ e => ¬ blobIsDead e now
    updatedAt := now }

variable {c : Circumstances} {m : PrivateAppManifest} {v : Vault}

/-- The writes and removals of an operation on a manifest, and its reply. -/
inductive Planned (c : Circumstances) (m : PrivateAppManifest) : Op → List Action → Reply → Prop
  | nothing (op : Op) (reply : Reply) (passes : op.MayPass) : Planned c m op [] reply
  | putValue (key : String) (value : Bytes) (retention : PrivateRetention)
      (ttlSeconds expiresAt : Option UInt64)
      (expiry : expiryFor retention ttlSeconds c.now = .ok expiresAt) :
      Planned c m (.putValue key value retention ttlSeconds)
        (.write (.value key value) ::
          saveAndPrune c (m.putEntry (newEntry m key value retention expiresAt c.now) c.now))
        (.value (newEntry m key value retention expiresAt c.now))
  | accessValue (key : String) (entry : PrivateValueEntry) (reply : Reply)
      (found : m.values.lookup key = some entry) :
      Planned c m (.getValue key)
        [.write (.manifest { m with
          values := m.values.insert key { entry with lastAccessedAt := c.now }
          updatedAt := c.now })]
        reply
  | deleteValue (key : String) (found : (m.values.lookup key).isSome) :
      Planned c m (.deleteValue key)
        [.write (.manifest { m with values := m.values.erase key, updatedAt := c.now }),
          .discard (fun other => other = key) fun _ => false]
        (.removed true)
  | renewValue (key : String) (retention : PrivateRetention) (ttlSeconds expiresAt : Option UInt64)
      (entry : PrivateValueEntry) (expiry : expiryFor retention ttlSeconds c.now = .ok expiresAt)
      (found : m.values.lookup key = some entry) (reply : Reply) :
      Planned c m (.renewValue key retention ttlSeconds)
        [.write (.manifest { m with
          values := m.values.insert key { entry with
            retention := retention
            expiresAt := expiresAt
            updatedAt := c.now
            lastAccessedAt := c.now }
          updatedAt := c.now })]
        reply
  | beginBlob (blobId contentType : String) (retention : PrivateRetention)
      (ttlSeconds : Option UInt64) (entry : PrivateBlobEntry) (id : entry.blobId = blobId)
      (kept : entry.retention = retention)
      (empty : entry.chunks = [] ∧ entry.totalBytes = 0 ∧ entry.complete = false) (reply : Reply) :
      Planned c m (.beginBlob blobId contentType retention ttlSeconds)
        [.write (.manifest (m.putBlob entry c.now))] reply
  | appendBlob (blobId : String) (data : Bytes) (entry : PrivateBlobEntry)
      (found : m.blobs.lookup blobId = some entry) (incomplete : entry.complete = false)
      (room : entry.chunks.length < 4294967296) (reply : Reply) :
      Planned c m (.appendBlob blobId data)
        [.write (.chunk blobId (UInt32.ofNat entry.chunks.length) data),
          .write (.manifest { m with
            blobs := m.blobs.insert blobId { entry with
              chunks := entry.chunks ++ [⟨UInt32.ofNat entry.chunks.length, data.length⟩]
              totalBytes := entry.totalBytes + data.length
              updatedAt := c.now
              lastAccessedAt := c.now }
            updatedAt := c.now })]
        reply
  | finishBlob (blobId : String) (entry : PrivateBlobEntry)
      (valid : validateBlobId blobId = .ok ())
      (found : m.blobs.lookup blobId = some entry)
      (live : isExpired entry.expiresAt c.now = false) (reply : Reply) :
      Planned c m (.finishBlob blobId)
        (saveAndPrune c { m with
          blobs := m.blobs.insert blobId
            { entry with complete := true, updatedAt := c.now, lastAccessedAt := c.now }
          updatedAt := c.now })
        reply
  | abortBlob (blobId : String) (found : (m.blobs.lookup blobId).isSome) :
      Planned c m (.abortBlob blobId)
        [.write (.manifest { m with blobs := m.blobs.erase blobId, updatedAt := c.now }),
          .discard (fun _ => false) fun other => other = blobId]
        (.removed true)
  | accessBlob (blobId : String) (offset length : Nat) (entry : PrivateBlobEntry) (reply : Reply)
      (found : m.blobs.lookup blobId = some entry) :
      Planned c m (.readBlobRange blobId offset length)
        [.write (.manifest { m with
          blobs := m.blobs.insert blobId { entry with lastAccessedAt := c.now }
          updatedAt := c.now })]
        reply
  | renewBlob (blobId : String) (retention : PrivateRetention)
      (ttlSeconds expiresAt : Option UInt64) (entry : PrivateBlobEntry)
      (expiry : expiryFor retention ttlSeconds c.now = .ok expiresAt)
      (found : m.blobs.lookup blobId = some entry) (reply : Reply) :
      Planned c m (.renewBlob blobId retention ttlSeconds)
        [.write (.manifest { m with
          blobs := m.blobs.insert blobId { entry with
            retention := retention
            expiresAt := expiresAt
            updatedAt := c.now
            lastAccessedAt := c.now }
          updatedAt := c.now })]
        reply
  | prepareShutdown (reply : Reply) (some : m.values.entries ≠ [] ∨ m.blobs.entries ≠ []) :
      Planned c m .prepareShutdown [.write (.manifest (m.withoutShutdown c.now))] reply
  | cleanup :
      Planned c m .cleanup
        (((m.swept c.now).pruneCache c.limit c.order c.now).2 ++
          [.write (.manifest ((m.swept c.now).pruneCache c.limit c.order c.now).1), .discard
              (fun key =>
                (((m.swept c.now).pruneCache c.limit c.order c.now).1.values.lookup key).isNone)
              fun blobId =>
                (((m.swept c.now).pruneCache c.limit c.order c.now).1.blobs.lookup blobId).isNone])
        .done

variable {entry : PrivateBlobEntry} {blobId : String} {now : UInt64}

theorem checkAppend_eq_ok {data : Bytes}
    (h : checkAppend m blobId data now = .ok entry) :
    m.blobs.lookup blobId = some entry ∧ entry.complete = false ∧
      entry.chunks.length < 4294967296 := by
  rw [checkAppend] at h
  split at h
  case h_1 => cases h
  case h_2 found hfound =>
  split at h
  case isTrue => cases h
  case isFalse hincomplete =>
  split at h
  case isTrue => cases h
  case isFalse =>
  split at h
  case isTrue => cases h
  case isFalse hroom =>
    cases h
    rw [not_or, not_le] at hroom
    exact ⟨hfound, Bool.eq_false_of_not_eq_true hincomplete, hroom.2⟩

theorem liveBlob_eq_ok (h : liveBlob m blobId now = .ok entry) :
    m.blobs.lookup blobId = some entry ∧ isExpired entry.expiresAt now = false := by
  rw [liveBlob] at h
  split at h
  case h_1 => cases h
  case h_2 found hfound =>
    split at h
    case isTrue => cases h
    case isFalse hlive =>
      cases h
      exact ⟨hfound, Bool.eq_false_of_not_eq_true hlive⟩

/-- A plan that is not refused comes from the manifest. -/
theorem Op.plan_eq_ok {op : Op} {plan : Plan} (h : op.plan c v = .ok plan) :
    ∃ m, v.loadManifest c.now = .ok m ∧ Planned c m op plan.actions plan.reply := by
  cases op with
  | putValue key value retention ttlSeconds =>
    simp only [Op.plan, PrivateStorage.putValue] at h
    split at h
    case h_1 => cases h
    case h_2 =>
    split at h
    case isTrue => cases h
    case isFalse =>
    split at h
    case h_1 => cases h
    case h_2 => cases h
    case h_3 expiresAt m hexpiry hload =>
      cases h
      exact ⟨m, hload, .putValue key value retention ttlSeconds expiresAt hexpiry⟩
  | getValue key =>
    simp only [Op.plan, PrivateStorage.getValue] at h
    split at h
    case h_1 => cases h
    case h_2 =>
    split at h
    case h_1 => cases h
    case h_2 m hload =>
    refine ⟨m, hload, ?_⟩
    split at h
    case h_1 =>
      cases h
      exact .nothing _ _ rfl
    case h_2 entry hfound =>
    split at h
    case isTrue =>
      cases h
      exact .nothing _ _ rfl
    case isFalse =>
    split at h
    case h_1 => cases h
    case h_2 bytes hread =>
    cases h
    by_cases hstale : accessIsStale entry.lastAccessedAt c.now
    · simp only [hstale, if_true, PrivateValueEntry.accessed]
      exact .accessValue key entry _ hfound
    · simp only [hstale]
      exact .nothing _ _ rfl
  | listValues =>
    simp only [Op.plan, PrivateStorage.listValues] at h
    split at h
    case h_1 => cases h
    case h_2 m hload =>
      cases h
      exact ⟨m, hload, .nothing _ _ rfl⟩
  | deleteValue key =>
    simp only [Op.plan, PrivateStorage.deleteValue] at h
    split at h
    case h_1 => cases h
    case h_2 =>
    split at h
    case h_1 => cases h
    case h_2 m hload =>
    refine ⟨m, hload, ?_⟩
    split at h
    case h_1 =>
      cases h
      exact .nothing _ _ rfl
    case h_2 entry hfound =>
      cases h
      exact .deleteValue key (Option.isSome_of_eq_some hfound)
  | renewValue key retention ttlSeconds =>
    simp only [Op.plan, PrivateStorage.renewValue] at h
    split at h
    case h_1 => cases h
    case h_2 =>
    split at h
    case h_1 => cases h
    case h_2 => cases h
    case h_3 m expiresAt hload hexpiry =>
    refine ⟨m, hload, ?_⟩
    split at h
    case h_1 => cases h
    case h_2 entry hfound =>
      split at h
      case isTrue => cases h
      case isFalse =>
        cases h
        exact .renewValue key retention ttlSeconds expiresAt entry hexpiry hfound _
  | beginBlob blobId contentType retention ttlSeconds =>
    simp only [Op.plan, PrivateStorage.beginBlob] at h
    split at h
    case h_1 => cases h
    case h_2 =>
    split at h
    case h_1 => cases h
    case h_2 => cases h
    case h_3 expiresAt m hexpiry hload =>
      cases h
      exact ⟨m, hload, .beginBlob blobId contentType retention ttlSeconds _ rfl rfl
        ⟨rfl, rfl, rfl⟩ _⟩
  | appendBlob blobId data =>
    simp only [Op.plan, PrivateStorage.appendBlob] at h
    split at h
    case h_1 => cases h
    case h_2 =>
    split at h
    case isTrue => cases h
    case isFalse =>
    split at h
    case h_1 => cases h
    case h_2 m hload =>
    refine ⟨m, hload, ?_⟩
    split at h
    case h_1 => cases h
    case h_2 entry hchecked =>
      cases h
      obtain ⟨hfound, hincomplete, hroom⟩ := checkAppend_eq_ok hchecked
      exact .appendBlob blobId data entry hfound hincomplete hroom _
  | finishBlob blobId =>
    simp only [Op.plan, PrivateStorage.finishBlob] at h
    split at h
    case h_1 => cases h
    case h_2 hvalid =>
    split at h
    case h_1 => cases h
    case h_2 m hload =>
    refine ⟨m, hload, ?_⟩
    split at h
    case h_1 => cases h
    case h_2 entry hlive =>
      cases h
      obtain ⟨hfound, hexpired⟩ := liveBlob_eq_ok hlive
      exact .finishBlob blobId entry hvalid hfound hexpired _
  | abortBlob blobId =>
    simp only [Op.plan, PrivateStorage.abortBlob] at h
    split at h
    case h_1 => cases h
    case h_2 =>
    split at h
    case h_1 => cases h
    case h_2 m hload =>
    refine ⟨m, hload, ?_⟩
    split at h
    case h_1 =>
      cases h
      exact .nothing _ _ rfl
    case h_2 entry hfound =>
      cases h
      exact .abortBlob blobId (Option.isSome_of_eq_some hfound)
  | listBlobs =>
    simp only [Op.plan, PrivateStorage.listBlobs] at h
    split at h
    case h_1 => cases h
    case h_2 m hload =>
      cases h
      exact ⟨m, hload, .nothing _ _ rfl⟩
  | readBlobRange blobId offset length =>
    simp only [Op.plan, PrivateStorage.readBlobRange] at h
    split at h
    case h_1 => cases h
    case h_2 =>
    split at h
    case isTrue => cases h
    case isFalse =>
    split at h
    case h_1 => cases h
    case h_2 m hload =>
    refine ⟨m, hload, ?_⟩
    split at h
    case h_1 => cases h
    case h_2 entry hfound =>
    split at h
    case isTrue => cases h
    case isFalse =>
    split at h
    case isTrue => cases h
    case isFalse =>
    split at h
    case h_1 => cases h
    case h_2 bytes hread =>
    cases h
    by_cases hstale : accessIsStale entry.lastAccessedAt c.now
    · simp only [hstale, if_true, PrivateBlobEntry.accessed]
      exact .accessBlob blobId offset length entry _ hfound
    · simp only [hstale]
      exact .nothing _ _ rfl
  | renewBlob blobId retention ttlSeconds =>
    simp only [Op.plan, PrivateStorage.renewBlob] at h
    split at h
    case h_1 => cases h
    case h_2 =>
    split at h
    case h_1 => cases h
    case h_2 => cases h
    case h_3 m expiresAt hload hexpiry =>
    refine ⟨m, hload, ?_⟩
    split at h
    case h_1 => cases h
    case h_2 entry hlive =>
      cases h
      obtain ⟨hfound, -⟩ := liveBlob_eq_ok hlive
      exact .renewBlob blobId retention ttlSeconds expiresAt entry hexpiry hfound _
  | usage =>
    simp only [Op.plan, PrivateStorage.usage] at h
    split at h
    case h_1 => cases h
    case h_2 m hload =>
      cases h
      exact ⟨m, hload, .nothing _ _ rfl⟩
  | prepareShutdown =>
    simp only [Op.plan, PrivateStorage.prepareShutdown] at h
    split at h
    case h_1 => cases h
    case h_2 m hload =>
    refine ⟨m, hload, ?_⟩
    cases h
    split
    case isTrue => exact .nothing _ _ rfl
    case isFalse hchanged =>
      refine .prepareShutdown _ ?_
      by_contra hempty
      rw [not_or, not_not, not_not] at hempty
      rw [hempty.1, hempty.2] at hchanged
      exact hchanged (by simp)
  | cleanup =>
    simp only [Op.plan, PrivateStorage.cleanup] at h
    split at h
    case h_1 => cases h
    case h_2 m hload =>
      cases h
      exact ⟨m, hload, .cleanup⟩

end VeilKnit.PrivateStorage
