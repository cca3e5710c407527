import VeilKnit.PrivateStorage.Cache

/-!
# What becomes of a vault

An operation is refused, or it carries its plan out as far as its writes go. Afterwards the manifest
is the one that was loaded or one of those that were planned.
-/

namespace VeilKnit.PrivateStorage

open Library Types

variable {c : Circumstances} {m m' : PrivateAppManifest} {v v' : Vault} {op : Op}
  {actions : List Action} {reply : Reply}

/-! ## Loading -/

/-- The manifest is what an operation finds. -/
def Loads (v : Vault) (m : PrivateAppManifest) : Prop := ∃ now, v.loadManifest now = .ok m

variable {now : UInt64}

theorem loadManifest_stored (hmanifest : v.manifest = .stored m)
    (hversion : m.version = manifestVersion) : v.loadManifest now = .ok m := by
  rw [Vault.loadManifest, hmanifest]
  exact if_neg (not_not.mpr hversion)

theorem Loads.version (h : Loads v m) : m.version = manifestVersion := by
  obtain ⟨now, h⟩ := h
  rw [Vault.loadManifest] at h
  split at h
  case h_1 =>
    cases h
    rfl
  case h_2 => cases h
  case h_3 stored _ =>
    split at h
    case isTrue => cases h
    case isFalse hversion =>
      cases h
      exact not_not.mp hversion

/-- What is found does not depend on the time, but for the time of an empty manifest. -/
theorem Loads.at (h : Loads v m) (now : UInt64) :
    ∃ m', v.loadManifest now = .ok m' ∧ m'.values = m.values ∧ m'.blobs = m.blobs := by
  obtain ⟨before, h⟩ := h
  rw [Vault.loadManifest] at h ⊢
  cases hmanifest : v.manifest with
  | absent =>
    rw [hmanifest] at h
    cases h
    exact ⟨_, rfl, rfl, rfl⟩
  | unreadable =>
    rw [hmanifest] at h
    cases h
  | stored stored =>
    rw [hmanifest] at h
    exact ⟨m, h, rfl, rfl⟩

theorem Loads.unique (h : Loads v m) (h' : Loads v m') :
    m'.values = m.values ∧ m'.blobs = m.blobs := by
  obtain ⟨now, h'⟩ := h'
  obtain ⟨found, hfound, hvalues, hblobs⟩ := h.at now
  cases h'.symm.trans hfound
  exact ⟨hvalues, hblobs⟩

theorem Loads.congr (h : Loads v m) (hmanifest : v'.manifest = v.manifest) : Loads v' m := by
  obtain ⟨now, h⟩ := h
  refine ⟨now, ?_⟩
  rwa [Vault.loadManifest, hmanifest]

theorem Loads.write_manifest (h : Loads v m) (hversion : m'.version = m.version) :
    Loads (v.write (.manifest m')) m' :=
  ⟨0, loadManifest_stored rfl (hversion.trans h.version)⟩

/-! ## What is not refused -/

variable {plan : Plan}

theorem putValue_checked {key : String} {value : Bytes} {retention : PrivateRetention}
    {ttlSeconds : Option UInt64} (h : putValue c v key value retention ttlSeconds = .ok plan) :
    validateValueKey key = .ok () ∧ value.length ≤ maxPrivateValueBytes := by
  rw [putValue] at h
  split at h
  case h_1 => cases h
  case h_2 hkey =>
    split at h
    case isTrue => cases h
    case isFalse hlength => exact ⟨hkey, Nat.le_of_not_lt hlength⟩

theorem finishBlob_eq_ok {blobId : String} (h : finishBlob c v blobId = .ok plan) :
    ∃ m entry, validateBlobId blobId = .ok () ∧ v.loadManifest c.now = .ok m ∧
      m.blobs.lookup blobId = some entry ∧ isExpired entry.expiresAt c.now = false ∧
      plan.reply = .blob { entry with
        complete := true, updatedAt := c.now, lastAccessedAt := c.now :
          PrivateBlobEntry }.descriptor := by
  rw [finishBlob] at h
  split at h
  case h_1 => cases h
  case h_2 hvalid =>
  split at h
  case h_1 => cases h
  case h_2 m hload =>
  split at h
  case h_1 => cases h
  case h_2 entry hlive =>
    cases h
    obtain ⟨hfound, hexpired⟩ := liveBlob_eq_ok hlive
    exact ⟨m, entry, hvalid, hload, hfound, hexpired, rfl⟩

/-! ## Carrying out -/

def Action.isWrite : Action → Bool
  | .write _ => true
  | .discard .. => false

/-- The actions are gone through just when the budget has all their writes. -/
theorem perform_completed (removed : Removed) (v : Vault) (actions : List Action) (budget : Nat) :
    (Vault.perform removed v actions budget).2 = true ↔ actions.countP Action.isWrite ≤ budget := by
  induction actions generalizing v budget with
  | nil => simp [Vault.perform]
  | cons action rest ih =>
    cases action with
    | discard values blobs =>
      rw [List.countP_cons_of_neg Bool.false_ne_true]
      exact ih (v.discard removed values blobs) budget
    | write file =>
      rw [List.countP_cons_of_pos rfl]
      cases budget with
      | zero => simp [Vault.perform]
      | succ budget => simpa [Vault.perform] using ih (v.write file) budget

/-- An operation that is not refused carries its plan out, as far as its writes go. -/
theorem Call.exec_of_plan {call : Call} (hplan : call.op.plan call.toCircumstances v = .ok plan) :
    (call.exec v).1 = (Vault.perform call.removed v plan.actions call.budget).1 ∧ (call.exec v).2 =
        if (Vault.perform call.removed v plan.actions call.budget).2 then .returned plan.reply
        else .failed .persistence := by
  rw [Call.exec, hplan]
  dsimp only
  cases hperform : Vault.perform call.removed v plan.actions call.budget with
  | mk after completed =>
    cases completed with
    | true => exact ⟨rfl, rfl⟩
    | false => exact ⟨rfl, rfl⟩

theorem Call.exec_plan (call : Call) (v : Vault) : (∃ error, call.exec v = (v, .failed error)) ∨
      ∃ plan, call.op.plan call.toCircumstances v = .ok plan ∧
        (call.exec v).1 = (Vault.perform call.removed v plan.actions call.budget).1 ∧
        (call.exec v).2 =
          if (Vault.perform call.removed v plan.actions call.budget).2 then .returned plan.reply
          else .failed .persistence := by
  cases hplan : call.op.plan call.toCircumstances v with
  | error error =>
    refine .inl ⟨error, ?_⟩
    rw [Call.exec, hplan]
  | ok plan => exact .inr ⟨plan, rfl, Call.exec_of_plan hplan⟩

/-- What becomes of the vault is decided by the manifest. -/
theorem Call.exec_cases (call : Call) (v : Vault) : (∃ error, call.exec v = (v, .failed error)) ∨
      ∃ m actions reply, v.loadManifest call.now = .ok m ∧
        Planned call.toCircumstances m call.op actions reply ∧
        (call.exec v).1 = (Vault.perform call.removed v actions call.budget).1 ∧
        (call.exec v).2 =
          if (Vault.perform call.removed v actions call.budget).2 then .returned reply
          else .failed .persistence := by
  obtain hrefused | ⟨plan, hplan, hexec, hreply⟩ := call.exec_plan v
  · exact .inl hrefused
  · obtain ⟨m, hload, hplanned⟩ := Op.plan_eq_ok hplan
    exact .inr ⟨m, plan.actions, plan.reply, hload, hplanned, hexec, hreply⟩

/-! ## The manifest after an operation -/

/-- However many of the writes happen, the manifest is the old one or one that was written. -/
theorem perform_manifest (removed : Removed) (v : Vault) (actions : List Action) (budget : Nat) :
    (Vault.perform removed v actions budget).1.manifest = v.manifest ∨
      ∃ new, .write (.manifest new) ∈ actions ∧
        (Vault.perform removed v actions budget).1.manifest = .stored new := by
  induction actions generalizing v budget with
  | nil => exact .inl rfl
  | cons action rest ih =>
    cases action with
    | discard values blobs =>
      obtain hold | ⟨new, hmem, hnew⟩ := ih (v.discard removed values blobs) budget
      · exact .inl hold
      · exact .inr ⟨new, List.mem_cons_of_mem _ hmem, hnew⟩
    | write file =>
      cases budget with
      | zero => exact .inl rfl
      | succ budget =>
        obtain hold | ⟨new, hmem, hnew⟩ := ih (v.write file) budget
        · cases file with
          | value => exact .inl hold
          | chunk => exact .inl hold
          | manifest new => exact .inr ⟨new, List.mem_cons_self, hold⟩
        · exact .inr ⟨new, List.mem_cons_of_mem _ hmem, hnew⟩

/-- What becomes of the vault's manifest. -/
theorem Call.exec_manifest (call : Call) (v : Vault) : (call.exec v).1.manifest = v.manifest ∨
      ∃ m plan new, call.op.plan call.toCircumstances v = .ok plan ∧
        v.loadManifest call.now = .ok m ∧
        Planned call.toCircumstances m call.op plan.actions plan.reply ∧
        .write (.manifest new) ∈ plan.actions ∧ (call.exec v).1.manifest = .stored new := by
  obtain ⟨error, hexec⟩ | ⟨plan, hplan, hexec, -⟩ := call.exec_plan v
  · exact .inl (by rw [hexec])
  · rw [hexec]
    obtain hold | ⟨new, hmem, hnew⟩ := perform_manifest call.removed v plan.actions call.budget
    · exact .inl hold
    · obtain ⟨m, hload, hplanned⟩ := Op.plan_eq_ok hplan
      exact .inr ⟨m, plan, new, hplan, hload, hplanned, hmem, hnew⟩

variable {new : PrivateAppManifest}

/-- Pruning writes what it returns. -/
theorem mem_pruneCache {limit : Nat} {order : Order}
    (h : .write (.manifest new) ∈ (m.pruneCache limit order now).2) :
    new = (m.pruneCache limit order now).1 := by
  obtain ⟨-, heq⟩ | ⟨dead, kept, -, -, heq⟩ := m.pruneCache_cases limit order now
  · rw [heq] at h
    cases h
  · rw [heq] at h ⊢
    simpa using h

theorem mem_saveAndPrune (h : .write (.manifest new) ∈ saveAndPrune c m) :
    new = m ∨ new = (m.pruneCache c.limit c.order c.now).1 := by
  obtain h | h := List.mem_cons.mp h
  · exact .inl (FileWrite.manifest.inj (Action.write.inj h))
  · exact .inr (mem_pruneCache h)

/-- A manifest that has nothing new. -/
structure Within (m m' : PrivateAppManifest) : Prop where
  values : ∀ key e, m'.values.lookup key = some e → m.values.lookup key = some e
  blobs : ∀ blobId e, m'.blobs.lookup blobId = some e → m.blobs.lookup blobId = some e

theorem within_pruneCache (m : PrivateAppManifest) (limit : Nat) (order : Order) (now : UInt64) :
    Within m (m.pruneCache limit order now).1 :=
  ⟨fun _ _ => PrivateAppManifest.pruneCache_values_lookup,
    fun _ _ => PrivateAppManifest.pruneCache_blobs_lookup⟩

end VeilKnit.PrivateStorage
