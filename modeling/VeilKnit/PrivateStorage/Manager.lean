import VeilKnit.PrivateStorage.Values

/-!
# The vaults of all applications

The catalogue names the applications that have a vault. It is held in memory and written when an
application is registered, which comes before the first write to its vault. A shutdown and a
cleanup go through the catalogue, one vault after the other, and stop at the first error.

The application goes into the catalogue in memory before the catalogue is written, so that after a
write that failed its vault fills up without an entry in the file. And a vault that cannot be read
keeps a shutdown from those that come after it.
-/

namespace VeilKnit.PrivateStorage

open Library Types

/-- The catalogue in memory and the one on disk, and the vaults. The flag says whether nothing has
been kept until the next shutdown since the last one. -/
structure Manager where
  catalog : List String
  catalogFile : List String
  vaults : String → Vault
  shutDown : Bool

def Manager.empty : Manager where
  catalog := []
  catalogFile := []
  vaults := fun _ => .empty
  shutDown := false

/-! ## Operations of one application -/

/-- The operation registers its application: it has passed the checks that come before. -/
def Op.registers : Op → Bool
  | .putValue key value _ _ =>
    validateValueKey key = .ok () ∧ value.length ≤ maxPrivateValueBytes
  | .beginBlob _ contentType _ _ => (validateContentType contentType).isOk
  | _ => false

/-- The operation is one that an application calls. -/
def Op.ofApp : Op → Bool
  | .prepareShutdown => false
  | .cleanup => false
  | _ => true

/-- What the operation leaves is to be kept until the next shutdown. -/
def Op.ephemeral : Op → Bool
  | .putValue _ _ retention _ => retention = .deleteOnShutdown
  | .renewValue _ retention _ => retention = .deleteOnShutdown
  | .beginBlob _ _ retention _ => retention = .deleteOnShutdown
  | .renewBlob _ retention _ => retention = .deleteOnShutdown
  | _ => false

/-- The operation keeps something until the next shutdown: it has not been refused. -/
def Call.keeps (call : Call) (v : Vault) : Bool :=
  call.op.ephemeral && (call.op.plan call.toCircumstances v).isOk

namespace Manager

/-- The application's entry goes into the catalogue in memory whether the catalogue is written or
not. -/
def ensureAppRegistered (s : Manager) (appId : String) (written : Bool) : Manager × Bool :=
  if appId ∈ s.catalog then (s, true)
  else
    let catalog := s.catalog.orderedInsert (· ≤ ·) appId
    if written then ({ s with catalog := catalog, catalogFile := catalog }, true)
    else ({ s with catalog := catalog }, false)

/-- Carry an operation out on the application's vault. -/
def execIn (s : Manager) (appId : String) (call : Call) : Manager × Outcome :=
  ({ s with
      vaults := Function.update s.vaults appId (call.exec (s.vaults appId)).1
      shutDown := s.shutDown && ¬ call.keeps (s.vaults appId) },
    (call.exec (s.vaults appId)).2)

def execApp (s : Manager) (appId : String) (call : Call) (written : Bool) : Manager × Outcome :=
  if call.op.registers then
    match s.ensureAppRegistered appId written with
    | (s, true) => s.execIn appId call
    | (s, false) => (s, .failed .persistence)
  else s.execIn appId call

end Manager

/-! ## Operations on all applications -/

/-- The number of writes that an operation takes to go through. -/
def Call.writes (call : Call) (v : Vault) : Nat :=
  match call.op.plan call.toCircumstances v with
  | .error _ => 0
  | .ok plan => plan.actions.countP Action.isWrite

/-- What an operation on all applications has to go by, at each of them. -/
structure Surroundings where
  circumstances : String → Circumstances
  removed : String → Removed

def Surroundings.call (at_ : Surroundings) (op : Op) (appId : String) (budget : Nat) : Call where
  toCircumstances := at_.circumstances appId
  op := op
  budget := budget
  removed := at_.removed appId

/-- The operation on one vault after the other, up to the first that fails. -/
def sweep (at_ : Surroundings) (op : Op) :
    List String → Nat → (String → Vault) → (String → Vault) × Except PrivateStorageError (List Reply)
  | [], _, vaults => (vaults, .ok [])
  | appId :: appIds, budget, vaults =>
    let call := at_.call op appId budget
    let swept := Function.update vaults appId (call.exec (vaults appId)).1
    match (call.exec (vaults appId)).2 with
    | .failed error => (swept, .error error)
    | .returned reply =>
      let rest := sweep at_ op appIds (budget - call.writes (vaults appId)) swept
      (rest.1, rest.2.map (reply :: ·))

def Reply.shutdownCount : Reply → Nat
  | .shutdown count => count
  | _ => 0

namespace Manager

def prepareShutdown (s : Manager) (at_ : Surroundings) (budget : Nat) : Manager × Outcome :=
  let swept := sweep at_ .prepareShutdown s.catalog budget s.vaults
  ({ s with vaults := swept.1, shutDown := true },
    match swept.2 with
    | .error error => .failed error
    | .ok replies => .returned (.shutdown (replies.map Reply.shutdownCount).sum))

def cleanupAll (s : Manager) (at_ : Surroundings) (budget : Nat) : Manager × Outcome :=
  let swept := sweep at_ .cleanup s.catalog budget s.vaults
  ({ s with vaults := swept.1 },
    match swept.2 with
    | .error error => .failed error
    | .ok _ => .returned .done)

/-- The process is gone, or has come to its end, and another one loads what is on disk. -/
def restart (s : Manager) : Manager := { s with catalog := s.catalogFile }

end Manager

inductive ManagerCall
  | app (appId : String) (call : Call) (written : Bool)
  | prepareShutdown (at_ : Surroundings) (budget : Nat)
  | cleanupAll (at_ : Surroundings) (budget : Nat)
  | restart
  /-- Something makes a manifest unreadable. -/
  | damage (appId : String)

def ManifestFile.isThere : ManifestFile → Bool
  | .absent => false
  | .unreadable => true
  | .stored _ => true

def Vault.damaged (v : Vault) : Vault := { v with manifest := .unreadable }

def Manager.exec (s : Manager) : ManagerCall → Manager × Outcome
  | .app appId call written => s.execApp appId call written
  | .prepareShutdown at_ budget => s.prepareShutdown at_ budget
  | .cleanupAll at_ budget => s.cleanupAll at_ budget
  | .restart => (s.restart, .returned .done)
  | .damage appId =>
    ({ s with vaults := Function.update s.vaults appId (s.vaults appId).damaged }, .returned .done)

def ManagerCall.Possible (s : Manager) : ManagerCall → Prop
  | .app _ call _ => call.op.ofApp = true
  | .damage appId => (s.vaults appId).manifest.isThere = true
  | _ => True

def managerSystem : LabelledSystem Manager ManagerCall where
  initial s := s = .empty
  step s call s' := call.Possible s ∧ s' = (s.exec call).1

/-! ## What is kept until a shutdown -/

def PrivateAppManifest.ephemeral (m : PrivateAppManifest) : Bool :=
  m.values.entries.any (fun e => e.2.retention = .deleteOnShutdown) ||
    m.blobs.entries.any fun e => e.2.retention = .deleteOnShutdown

/-- The manifest can be read and has something that is to go with the next shutdown. -/
def Vault.ephemeral (v : Vault) : Bool :=
  match v.loadManifest 0 with
  | .error _ => false
  | .ok m => m.ephemeral

theorem ephemeral_eq_false {m : PrivateAppManifest} : m.ephemeral = false ↔
      (∀ key e, m.values.lookup key = some e → e.retention ≠ .deleteOnShutdown) ∧
        ∀ blobId e, m.blobs.lookup blobId = some e → e.retention ≠ .deleteOnShutdown := by
  simp only [PrivateAppManifest.ephemeral, Bool.or_eq_false_iff, List.any_eq_false,
    decide_eq_true_eq]
  refine and_congr ?_ ?_
  · exact ⟨fun h key e he => h ⟨key, e⟩ (AList.mem_lookup_iff.mp he),
      fun h e he => h e.1 e.2 (AList.mem_lookup_iff.mpr he)⟩
  · exact ⟨fun h blobId e he => h ⟨blobId, e⟩ (AList.mem_lookup_iff.mp he),
      fun h e he => h e.1 e.2 (AList.mem_lookup_iff.mpr he)⟩

variable {c : Circumstances} {m m' : PrivateAppManifest} {v : Vault} {op : Op}
  {actions : List Action} {reply : Reply}

theorem ephemeral_congr (hvalues : m'.values = m.values) (hblobs : m'.blobs = m.blobs) :
    m'.ephemeral = m.ephemeral := by
  rw [PrivateAppManifest.ephemeral, hvalues, hblobs, PrivateAppManifest.ephemeral]

theorem Loads.ephemeral (h : Loads v m) : v.ephemeral = m.ephemeral := by
  obtain ⟨found, hfound, hvalues, hblobs⟩ := h.at 0
  rw [Vault.ephemeral, hfound]
  exact ephemeral_congr hvalues hblobs

variable {now : UInt64}

theorem Vault.ephemeral_of_unreadable {error : PrivateStorageError}
    (h : v.loadManifest now = .error error) : v.ephemeral = false := by
  rw [Vault.ephemeral]
  cases hload : v.loadManifest 0 with
  | error => rfl
  | ok m =>
    obtain ⟨found, hfound, -⟩ := Loads.at ⟨0, hload⟩ now
    cases h.symm.trans hfound

/-! ## Plans that leave it as it is -/

theorem Within.clean (h : Within m m') (hclean : m.ephemeral = false) : m'.ephemeral = false := by
  rw [ephemeral_eq_false] at hclean ⊢
  exact ⟨fun key e he => hclean.1 key e (h.values key e he),
    fun blobId e he => hclean.2 blobId e (h.blobs blobId e he)⟩

variable {key blobId : String}

theorem clean_insertValue {entry : PrivateValueEntry}
    (hclean : m.ephemeral = false) (hentry : entry.retention ≠ .deleteOnShutdown) :
    ({ m with values := m.values.insert key entry, updatedAt := now } :
      PrivateAppManifest).ephemeral = false := by
  rw [ephemeral_eq_false] at hclean ⊢
  exact ⟨AList.forall_lookup_insert hentry hclean.1, hclean.2⟩

theorem clean_insertBlob {entry : PrivateBlobEntry}
    (hclean : m.ephemeral = false) (hentry : entry.retention ≠ .deleteOnShutdown) :
    ({ m with blobs := m.blobs.insert blobId entry, updatedAt := now } :
      PrivateAppManifest).ephemeral = false := by
  rw [ephemeral_eq_false] at hclean ⊢
  exact ⟨hclean.1, AList.forall_lookup_insert hentry hclean.2⟩

variable {new : PrivateAppManifest}

/-- The only operations that write what is to go with the next shutdown are those that say so. -/
theorem Planned.clean (h : Planned c m op actions reply)
    (hclean : m.ephemeral = false) (hop : op.ephemeral = false)
    (hmem : .write (.manifest new) ∈ actions) : new.ephemeral = false := by
  have hvalues := (ephemeral_eq_false.mp hclean).1
  have hblobs := (ephemeral_eq_false.mp hclean).2
  cases h with
  | nothing => cases hmem
  | putValue key value retention ttlSeconds expiresAt expiry =>
    have hput : (m.putEntry (newEntry m key value retention expiresAt c.now) c.now).ephemeral =
        false :=
      clean_insertValue hclean (of_decide_eq_false hop)
    obtain hmem | hmem := List.mem_cons.mp hmem
    · cases hmem
    · obtain rfl | rfl := mem_saveAndPrune hmem
      · exact hput
      · exact (within_pruneCache _ _ _ _).clean hput
  | accessValue key entry reply found =>
    obtain rfl : new = _ := by simpa using hmem
    exact clean_insertValue hclean (hvalues key entry found)
  | deleteValue key =>
    obtain rfl : new = _ := by simpa using hmem
    exact Within.clean (m := m) ⟨fun _ _ he => (AList.of_lookup_erase he).2, fun _ _ he => he⟩ hclean
  | renewValue key retention ttlSeconds expiresAt entry expiry found =>
    obtain rfl : new = _ := by simpa using hmem
    exact clean_insertValue hclean (of_decide_eq_false hop)
  | beginBlob blobId contentType retention ttlSeconds entry id kept =>
    obtain rfl : new = _ := by simpa using hmem
    exact clean_insertBlob hclean (kept.trans_ne (of_decide_eq_false hop))
  | appendBlob blobId data entry found =>
    obtain rfl : new = _ := by simpa using hmem
    exact clean_insertBlob hclean (hblobs blobId entry found)
  | finishBlob blobId entry valid found =>
    have hfinished : ({ m with
        blobs := m.blobs.insert blobId
          { entry with complete := true, updatedAt := c.now, lastAccessedAt := c.now }
        updatedAt := c.now } : PrivateAppManifest).ephemeral = false :=
      clean_insertBlob hclean (hblobs blobId entry found)
    obtain rfl | rfl := mem_saveAndPrune hmem
    · exact hfinished
    · exact (within_pruneCache _ _ _ _).clean hfinished
  | abortBlob blobId =>
    obtain rfl : new = _ := by simpa using hmem
    exact Within.clean (m := m) ⟨fun _ _ he => he, fun _ _ he => (AList.of_lookup_erase he).2⟩ hclean
  | accessBlob blobId offset length entry reply found =>
    obtain rfl : new = _ := by simpa using hmem
    exact clean_insertBlob hclean (hblobs blobId entry found)
  | renewBlob blobId retention ttlSeconds expiresAt entry expiry found =>
    obtain rfl : new = _ := by simpa using hmem
    exact clean_insertBlob hclean (of_decide_eq_false hop)
  | prepareShutdown reply =>
    obtain rfl : new = _ := by simpa using hmem
    exact Within.clean (m := m) ⟨fun _ _ he => (AList.lookup_filterEntries_eq_some.mp he).2,
      fun _ _ he => (AList.lookup_filterEntries_eq_some.mp he).2⟩ hclean
  | cleanup =>
    have hswept : (m.swept c.now).ephemeral = false :=
      Within.clean (m := m) ⟨fun _ _ he => (AList.lookup_filterEntries_eq_some.mp he).2,
        fun _ _ he => (AList.lookup_filterEntries_eq_some.mp he).2⟩ hclean
    have hnew : new = ((m.swept c.now).pruneCache c.limit c.order c.now).1 := by
      obtain hmem | hmem := List.mem_append.mp hmem
      · exact mem_pruneCache hmem
      · simpa using hmem
    rw [hnew]
    exact (within_pruneCache _ _ _ _).clean hswept

/-! ## One vault -/

theorem Vault.ephemeral_congr {v' : Vault} (h : v'.manifest = v.manifest) :
    v'.ephemeral = v.ephemeral := by
  rw [Vault.ephemeral, Vault.loadManifest, h, Vault.ephemeral, Vault.loadManifest]

theorem Vault.clean_of_stored (hstored : v.manifest = .stored m) (hclean : m.ephemeral = false) :
    v.ephemeral = false := by
  rw [Vault.ephemeral, Vault.loadManifest, hstored]
  dsimp only
  split
  case h_1 => rfl
  case h_2 found hfound =>
    split at hfound
    case isTrue => cases hfound
    case isFalse =>
      cases hfound
      exact hclean

theorem Call.exec_clean {call : Call} (hclean : v.ephemeral = false)
    (hkeeps : call.keeps v = false) : (call.exec v).1.ephemeral = false := by
  obtain hold | ⟨m, plan, new, hplan, hload, hplanned, hmem, hnew⟩ := call.exec_manifest v
  · rw [Vault.ephemeral_congr hold]
    exact hclean
  · have hop : call.op.ephemeral = false := by
      rw [Call.keeps, hplan] at hkeeps
      simpa [Except.isOk, Except.toBool] using hkeeps
    have hm : Loads v m := ⟨_, hload⟩
    exact Vault.clean_of_stored hnew (hplanned.clean (hm.ephemeral.symm.trans hclean) hop hmem)

variable {retention : PrivateRetention} {ttlSeconds : Option UInt64} {plan : Plan}

/-- An operation that is planned has passed the checks before its application is registered. -/
theorem registers_of_putValue {value : Bytes}
    (h : (Op.putValue key value retention ttlSeconds).plan c v = .ok plan) :
    (Op.putValue key value retention ttlSeconds).registers = true :=
  decide_eq_true (putValue_checked h)

theorem registers_of_beginBlob {contentType : String}
    (h : (Op.beginBlob blobId contentType retention ttlSeconds).plan c v = .ok plan) :
    (Op.beginBlob blobId contentType retention ttlSeconds).registers = true := by
  simp only [Op.plan, PrivateStorage.beginBlob] at h
  split at h
  case h_1 => cases h
  case h_2 trimmed hvalid =>
    rw [Op.registers, hvalid]
    rfl

/-- The operation writes a manifest where there was none. -/
def Op.creates : Op → Bool
  | .putValue .. => true
  | .beginBlob .. => true
  | .cleanup => true
  | _ => false

/-- The other operations write no more than a change of what they have found. -/
theorem Planned.creates
    (h : Planned c (.default now) op actions reply) (hmem : .write (.manifest new) ∈ actions) :
    op.creates = true := by
  cases h with
  | nothing => cases hmem
  | putValue => rfl
  | accessValue key entry reply found => cases found
  | deleteValue key found => cases found
  | renewValue key retention ttlSeconds expiresAt entry expiry found => cases found
  | beginBlob => rfl
  | appendBlob blobId data entry found => cases found
  | finishBlob blobId entry valid found => cases found
  | abortBlob blobId found => cases found
  | accessBlob blobId offset length entry reply found => cases found
  | renewBlob blobId retention ttlSeconds expiresAt entry expiry found => cases found
  | prepareShutdown reply some =>
    obtain hvalues | hblobs := some
    · exact absurd rfl hvalues
    · exact absurd rfl hblobs
  | cleanup => rfl

theorem loadManifest_absent (habsent : v.manifest.isThere = false)
    (hload : v.loadManifest now = .ok m) : m = .default now := by
  rw [Vault.loadManifest] at hload
  cases hmanifest : v.manifest with
  | absent =>
    rw [hmanifest] at hload
    exact (Except.ok.inj hload).symm
  | unreadable =>
    rw [hmanifest] at habsent
    cases habsent
  | stored =>
    rw [hmanifest] at habsent
    cases habsent

/-- Where there is no manifest, only what registers its application, or a cleanup, writes one. -/
theorem Call.exec_absent {call : Call} (habsent : v.manifest.isThere = false)
    (hregisters : call.op.registers = false) (hcleanup : call.op ≠ .cleanup) :
    (call.exec v).1.manifest.isThere = false := by
  obtain hold | ⟨m, plan, new, hplan, hload, hplanned, hmem, -⟩ := call.exec_manifest v
  · rw [hold]
    exact habsent
  obtain rfl := loadManifest_absent habsent hload
  have hcreates := hplanned.creates hmem
  cases hop : call.op with
  | putValue =>
    rw [hop] at hplan hregisters
    cases hregisters.symm.trans (registers_of_putValue hplan)
  | beginBlob =>
    rw [hop] at hplan hregisters
    cases hregisters.symm.trans (registers_of_beginBlob hplan)
  | cleanup => exact absurd hop hcleanup
  | _ =>
    rw [hop] at hcreates
    cases hcreates

/-! ## A shutdown -/

theorem withoutShutdown_clean (m : PrivateAppManifest) (now : UInt64) :
    (m.withoutShutdown now).ephemeral = false := by
  refine ephemeral_eq_false.mpr ⟨fun key e he => ?_, fun blobId e he => ?_⟩
  · exact of_decide_eq_true (AList.lookup_filterEntries_eq_some.mp he).1
  · exact of_decide_eq_true (AList.lookup_filterEntries_eq_some.mp he).1

/-- Nothing is removed just when there is nothing to remove. -/
theorem removed_eq_zero (m : PrivateAppManifest) (now : UInt64) :
    (m.values.entries.length - (m.withoutShutdown now).values.entries.length) +
        (m.blobs.entries.length - (m.withoutShutdown now).blobs.entries.length) = 0 ↔
      m.ephemeral = false := by
  have hvalues : (m.withoutShutdown now).values.entries.length ≤ m.values.entries.length :=
    AList.length_filterEntries_le _ _
  have hblobs : (m.withoutShutdown now).blobs.entries.length ≤ m.blobs.entries.length :=
    AList.length_filterEntries_le _ _
  have hlengths : (m.values.entries.length - (m.withoutShutdown now).values.entries.length) +
        (m.blobs.entries.length - (m.withoutShutdown now).blobs.entries.length) = 0 ↔
      (m.withoutShutdown now).values.entries.length = m.values.entries.length ∧
        (m.withoutShutdown now).blobs.entries.length = m.blobs.entries.length := by
    omega
  rw [hlengths, PrivateAppManifest.withoutShutdown, AList.filterEntries, AList.filterEntries,
    List.length_filter_eq_length_iff, List.length_filter_eq_length_iff,
    PrivateAppManifest.ephemeral, Bool.or_eq_false_iff, List.any_eq_false, List.any_eq_false]
  simp

/-- At one vault a shutdown writes a manifest only where there is something to remove. -/
theorem exec_shutdown_clean (call : Call) (hop : call.op = .prepareShutdown)
    (hload : v.loadManifest call.now = .ok m) (hclean : m.ephemeral = false) :
    (call.exec v).1 = v ∧ (∃ reply, (call.exec v).2 = .returned reply) ∧ call.writes v = 0 := by
  have hplan : ∃ reply, call.op.plan call.toCircumstances v =
      .ok { actions := [], reply := reply } := by
    have hzero := (removed_eq_zero m call.now).mpr hclean
    rw [PrivateAppManifest.withoutShutdown] at hzero
    simp only [hop, Op.plan, PrivateStorage.prepareShutdown, hload]
    exact ⟨_, by rw [if_pos hzero]⟩
  obtain ⟨reply, hplan⟩ := hplan
  rw [Call.exec, Call.writes, hplan]
  exact ⟨rfl, ⟨reply, rfl⟩, rfl⟩

theorem exec_shutdown (call : Call) (hop : call.op = .prepareShutdown)
    (hload : v.loadManifest call.now = .ok m) (hephemeral : m.ephemeral = true)
    (hbudget : 0 < call.budget) :
    (call.exec v).1 = v.write (.manifest (m.withoutShutdown call.now)) ∧
      (∃ reply, (call.exec v).2 = .returned reply) ∧ call.writes v = 1 := by
  have hplan : ∃ reply, call.op.plan call.toCircumstances v =
      .ok { actions := [.write (.manifest (m.withoutShutdown call.now))], reply := reply } := by
    have hzero := mt (removed_eq_zero m call.now).mp (by simp [hephemeral])
    rw [PrivateAppManifest.withoutShutdown] at hzero ⊢
    simp only [hop, Op.plan, PrivateStorage.prepareShutdown, hload]
    exact ⟨_, by rw [if_neg hzero]⟩
  obtain ⟨reply, hplan⟩ := hplan
  obtain ⟨budget, hbudget⟩ := Nat.exists_eq_add_of_lt hbudget
  rw [Call.exec, Call.writes, hplan, hbudget]
  exact ⟨rfl, ⟨reply, rfl⟩, rfl⟩

/-! ## All vaults -/

section Sweep

variable {at_ : Surroundings} {appIds : List String} {vaults : String → Vault} {budget : Nat}

/-- What the operation keeps at each vault that it comes to holds of all of them afterwards. -/
theorem sweep_preserves {P : String → Vault → Prop}
    (step : ∀ appId ∈ appIds, ∀ budget v, P appId v → P appId ((at_.call op appId budget).exec v).1)
    (h : ∀ appId, P appId (vaults appId)) (appId : String) :
    P appId ((sweep at_ op appIds budget vaults).1 appId) := by
  induction appIds generalizing budget vaults with
  | nil => exact h appId
  | cons first rest ih =>
    have hswept : ∀ other, P other (Function.update vaults first
        ((at_.call op first budget).exec (vaults first)).1 other) := by
      intro other
      by_cases hother : other = first
      · subst hother
        rw [Function.update_self]
        exact step other List.mem_cons_self budget _ (h other)
      · rw [Function.update_of_ne hother]
        exact h other
    rw [sweep]
    split
    case h_1 => exact hswept appId
    case h_2 => exact ih (fun other hmem => step other (List.mem_cons_of_mem _ hmem)) hswept

theorem sweep_cons {first : String} {reply : Reply}
    (h : ((at_.call op first budget).exec (vaults first)).2 = .returned reply) :
    (sweep at_ op (first :: appIds) budget vaults).1 =
      (sweep at_ op appIds (budget - (at_.call op first budget).writes (vaults first))
        (Function.update vaults first ((at_.call op first budget).exec (vaults first)).1)).1 := by
  rw [sweep]
  simp only [h]

variable {appId : String}

/-- A shutdown leaves what is clean. -/
theorem sweep_shutdown_clean (h : (vaults appId).ephemeral = false) :
    ((sweep at_ .prepareShutdown appIds budget vaults).1 appId).ephemeral = false := by
  refine sweep_preserves (P := fun other v => other = appId → v.ephemeral = false) ?_ ?_ appId rfl
  · intro other _ budget v hv hother
    exact Call.exec_clean (hv hother) rfl
  · rintro other rfl
    exact h

/-- A shutdown comes to every vault that has something to remove if the vaults before it can be
read, and removes it there if the writes go through. -/
theorem sweep_shutdown
    (hcut : ∀ before appId after, appIds = before ++ appId :: after →
      (vaults appId).ephemeral = true → ∀ other ∈ before, ∃ m, Loads (vaults other) m)
    (hbudget : (appIds.countP fun appId => (vaults appId).ephemeral) ≤ budget)
    (hmem : appId ∈ appIds) :
    ((sweep at_ .prepareShutdown appIds budget vaults).1 appId).ephemeral = false := by
  induction appIds generalizing budget vaults with
  | nil => cases hmem
  | cons first rest ih =>
    cases hload : (vaults first).loadManifest (at_.circumstances first).now with
    | error error =>
      -- The first vault cannot be read, so that nothing is to be removed from the others.
      refine sweep_shutdown_clean ?_
      obtain rfl | hrest := List.mem_cons.mp hmem
      · exact Vault.ephemeral_of_unreadable hload
      obtain ⟨before, after, rfl⟩ := List.append_of_mem hrest
      by_contra hephemeral
      obtain ⟨m, hm⟩ := hcut (first :: before) appId after rfl
        (Bool.eq_true_of_not_eq_false hephemeral) first List.mem_cons_self
      obtain ⟨found, hfound, -⟩ := hm.at (at_.circumstances first).now
      cases hfound.symm.trans hload
    | ok m =>
      have hm : Loads (vaults first) m := ⟨_, hload⟩
      rw [List.countP_cons, hm.ephemeral] at hbudget
      have hrest : ∀ before appId after, rest = before ++ appId :: after →
          (vaults appId).ephemeral = true → ∀ other ∈ before, ∃ m, Loads (vaults other) m := by
        rintro before appId after rfl hephemeral other hother
        exact hcut (first :: before) appId after rfl hephemeral other
          (List.mem_cons_of_mem _ hother)
      cases hclean : m.ephemeral with
      | false =>
        obtain ⟨hsame, ⟨reply, hreply⟩, hwrites⟩ :=
          exec_shutdown_clean (at_.call .prepareShutdown first budget) rfl hload hclean
        rw [hclean] at hbudget
        rw [sweep_cons hreply, hsame, hwrites, Function.update_eq_self]
        obtain rfl | hmem := List.mem_cons.mp hmem
        · exact sweep_shutdown_clean (hm.ephemeral.trans hclean)
        · exact ih hrest hbudget hmem
      | true =>
        rw [hclean, if_pos rfl] at hbudget
        obtain ⟨hafter, ⟨reply, hreply⟩, hwrites⟩ :=
          exec_shutdown (at_.call .prepareShutdown first budget) rfl hload hclean
            (Nat.lt_of_lt_of_le (Nat.succ_pos _) hbudget)
        rw [sweep_cons hreply, hwrites, hafter]
        have hnew : Loads ((vaults first).write
            (.manifest (m.withoutShutdown (at_.circumstances first).now)))
            (m.withoutShutdown (at_.circumstances first).now) := hm.write_manifest rfl
        have hgone := hnew.ephemeral.trans (withoutShutdown_clean _ _)
        obtain rfl | hmem := List.mem_cons.mp hmem
        · refine sweep_shutdown_clean ?_
          rw [Function.update_self]
          exact hgone
        -- The write leaves less to remove, and makes no vault unreadable.
        · have hless : ∀ other, (Function.update vaults first ((vaults first).write
              (.manifest (m.withoutShutdown (at_.circumstances first).now))) other).ephemeral =
                true → (vaults other).ephemeral = true := by
            intro other hother
            by_cases hfirst : other = first
            · subst hfirst
              rw [Function.update_self, hgone] at hother
              cases hother
            · rwa [Function.update_of_ne hfirst] at hother
          refine ih (fun before appId after happ hephemeral other hother => ?_) ?_ hmem
          · by_cases hfirst : other = first
            · subst hfirst
              rw [Function.update_self]
              exact ⟨_, hnew⟩
            · rw [Function.update_of_ne hfirst]
              exact hrest before appId after happ (hless appId hephemeral) other hother
          · have hcount := List.countP_mono_left (l := rest) fun other _ => hless other
            exact hcount.trans (Nat.le_sub_of_add_le hbudget)

end Sweep

end VeilKnit.PrivateStorage
