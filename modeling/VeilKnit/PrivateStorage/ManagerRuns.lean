import VeilKnit.PrivateStorage.Manager

/-!
# The catalogue and the shutdown in runs

In a run an application's manifest can be missing from the catalogue on disk just after a write of
the catalogue failed and the application went on, and a shutdown can leave what it was to remove
when a manifest before it is unreadable or a write fails. Where neither comes about, the catalogue on
disk has every application that has a manifest, and a shutdown leaves nothing that it was to remove.
What has expired is returned in no run at all.
-/

namespace VeilKnit.PrivateStorage

open Library Types

variable {c : Circumstances} {m : PrivateAppManifest} {v : Vault} {op : Op} {plan : Plan}

/-! ## Runs -/

/-- A write of the catalogue that failed is not followed by a write to a vault that it would have
named; and a shutdown finds every manifest readable up to the last that it has to change, and its
writes go through. -/
def Manager.Proper (s : Manager) : ManagerCall → Prop
  | .app appId call _ => call.op.registers = true → appId ∈ s.catalog → appId ∈ s.catalogFile
  | .prepareShutdown _ budget =>
    (∀ before appId after, s.catalog = before ++ appId :: after →
      (s.vaults appId).ephemeral = true → ∀ other ∈ before, ∃ m, Loads (s.vaults other) m) ∧
    (s.catalog.countP fun appId => (s.vaults appId).ephemeral) ≤ budget
  | .cleanupAll _ _ => ∀ appId ∈ s.catalog, appId ∈ s.catalogFile
  | _ => True

/-- Every application that has a manifest is in the catalogue on disk; nothing is left there that
was to go with a shutdown. -/
structure Manager.Kept (s : Manager) : Prop where
  persisted : ∀ appId, (s.vaults appId).manifest.isThere = true → appId ∈ s.catalogFile
  loaded : ∀ appId ∈ s.catalogFile, appId ∈ s.catalog
  distinct : s.catalog.Nodup
  distinctFile : s.catalogFile.Nodup
  clean : s.shutDown = true → ∀ appId, (s.vaults appId).ephemeral = false

variable {s : Manager}

theorem Manager.Kept.ensureAppRegistered (h : s.Kept) (appId : String)
    (written : Bool) : (s.ensureAppRegistered appId written).1.Kept := by
  rw [Manager.ensureAppRegistered]
  split
  case isTrue => exact h
  case isFalse hnew =>
  have hinserted : ∀ other ∈ s.catalog, other ∈ s.catalog.orderedInsert (· ≤ ·) appId :=
    fun other hother => (List.mem_orderedInsert _).mpr (.inr hother)
  have hdistinct : (s.catalog.orderedInsert (· ≤ ·) appId).Nodup :=
    (List.perm_orderedInsert _ _ _).nodup_iff.mpr (List.nodup_cons.mpr ⟨hnew, h.distinct⟩)
  split
  case isTrue =>
    exact ⟨fun other hthere => hinserted other (h.loaded other (h.persisted other hthere)),
      fun _ hother => hother, hdistinct, hdistinct, h.clean⟩
  case isFalse =>
    exact ⟨h.persisted, fun other hother => hinserted other (h.loaded other hother), hdistinct,
      h.distinctFile, h.clean⟩

variable {appId : String} {call : Call}

theorem Manager.Kept.execIn (h : s.Kept)
    (hop : call.op.ofApp = true) (hregisters : call.op.registers = true → appId ∈ s.catalogFile) :
    (s.execIn appId call).1.Kept := by
  refine ⟨fun other hthere => ?_, h.loaded, h.distinct, h.distinctFile, fun hshut other => ?_⟩
  · by_cases hother : other = appId
    · subst hother
      by_cases hregistered : call.op.registers = true
      · exact hregisters hregistered
      refine h.persisted other ?_
      by_contra habsent
      have hkept := Call.exec_absent (Bool.eq_false_of_not_eq_true habsent)
        (Bool.eq_false_of_not_eq_true hregistered) fun hcleanup => by
          rw [hcleanup] at hop
          cases hop
      have hafter : ((s.execIn other call).1.vaults other) = (call.exec (s.vaults other)).1 :=
        Function.update_self _ _ _
      rw [hafter, hkept] at hthere
      cases hthere
    · have hafter : (s.execIn appId call).1.vaults other = s.vaults other :=
        Function.update_of_ne hother _ _
      rw [hafter] at hthere
      exact h.persisted other hthere
  obtain ⟨hbefore, hkeeps⟩ : s.shutDown = true ∧ call.keeps (s.vaults appId) = false := by
    simpa [Manager.execIn] using hshut
  by_cases hother : other = appId
  · subst hother
    have hafter : ((s.execIn other call).1.vaults other) = (call.exec (s.vaults other)).1 :=
      Function.update_self _ _ _
    rw [hafter]
    exact Call.exec_clean (h.clean hbefore other) hkeeps
  · have hafter : (s.execIn appId call).1.vaults other = s.vaults other :=
      Function.update_of_ne hother _ _
    rw [hafter]
    exact h.clean hbefore other

variable {written : Bool}

theorem Manager.Kept.execApp (h : s.Kept) (hop : call.op.ofApp = true)
    (hproper : call.op.registers = true → appId ∈ s.catalog → appId ∈ s.catalogFile) :
    (s.execApp appId call written).1.Kept := by
  rw [Manager.execApp]
  split
  case isFalse hregisters => exact h.execIn hop fun hregistered => absurd hregistered hregisters
  case isTrue hregisters =>
  have hafter := h.ensureAppRegistered appId written
  rw [Manager.ensureAppRegistered] at hafter ⊢
  split
  case h_1 registered heq =>
    rw [heq] at hafter
    refine Manager.Kept.execIn hafter hop fun _ => ?_
    split at heq
    case isTrue hmem =>
      obtain ⟨rfl, -⟩ := Prod.mk.inj heq
      exact hproper hregisters hmem
    case isFalse =>
      split at heq
      case isTrue =>
        obtain ⟨rfl, -⟩ := Prod.mk.inj heq
        exact (List.mem_orderedInsert _).mpr (.inl rfl)
      case isFalse => cases (Prod.mk.inj heq).2
  case h_2 registered heq =>
    rw [heq] at hafter
    exact hafter

/-- What goes on in a run keeps the catalogue and what a shutdown has left. -/
theorem Manager.Kept.exec {call : ManagerCall} (h : s.Kept)
    (hpossible : call.Possible s) (hproper : s.Proper call) : (s.exec call).1.Kept := by
  cases call with
  | app appId call written => exact h.execApp hpossible hproper
  | prepareShutdown at_ budget =>
    obtain ⟨hcut, hbudget⟩ := hproper
    have habsent : ∀ appId, (s.vaults appId).manifest.isThere = false →
        ((s.prepareShutdown at_ budget).1.vaults appId).manifest.isThere = false := by
      refine sweep_preserves (P := fun appId v => (s.vaults appId).manifest.isThere = false →
        v.manifest.isThere = false) ?_ fun _ habsent => habsent
      intro appId _ budget v hv habsent
      exact Call.exec_absent (hv habsent) rfl (fun h => nomatch h)
    refine ⟨fun appId hthere => h.persisted appId ?_, h.loaded, h.distinct, h.distinctFile,
      fun _ appId => ?_⟩
    · by_contra hnot
      cases (habsent appId (Bool.eq_false_of_not_eq_true hnot)).symm.trans hthere
    by_cases hmem : appId ∈ s.catalog
    · exact sweep_shutdown hcut hbudget hmem
    refine sweep_shutdown_clean ?_
    have hnot : (s.vaults appId).manifest.isThere = false := by
      by_contra hthere
      exact hmem (h.loaded appId (h.persisted appId (Bool.eq_true_of_not_eq_false hthere)))
    cases hload : (s.vaults appId).loadManifest 0 with
    | error => exact Vault.ephemeral_of_unreadable hload
    | ok m =>
      obtain rfl := loadManifest_absent hnot hload
      exact Loads.ephemeral ⟨0, hload⟩
  | cleanupAll at_ budget =>
    refine ⟨?_, h.loaded, h.distinct, h.distinctFile, fun hshut appId => ?_⟩
    · refine sweep_preserves (P := fun appId v => v.manifest.isThere = true →
        appId ∈ s.catalogFile) ?_ h.persisted
      intro appId hmem _ _ _ _
      exact hproper appId hmem
    · refine sweep_preserves (P := fun _ v => v.ephemeral = false) ?_ (h.clean hshut) appId
      intro appId _ budget v hv
      exact Call.exec_clean hv rfl
  | restart => exact ⟨h.persisted, fun _ hmem => hmem, h.distinctFile, h.distinctFile, h.clean⟩
  | damage appId =>
    refine ⟨fun other hthere => ?_, h.loaded, h.distinct, h.distinctFile, fun hshut other => ?_⟩
    · by_cases hother : other = appId
      · subst hother
        exact h.persisted other hpossible
      · have hafter : (s.exec (.damage appId)).1.vaults other = s.vaults other :=
          Function.update_of_ne hother _ _
        rw [hafter] at hthere
        exact h.persisted other hthere
    by_cases hother : other = appId
    · subst hother
      have hafter : (s.exec (.damage other)).1.vaults other = (s.vaults other).damaged :=
        Function.update_self _ _ _
      rw [hafter]
      rfl
    · have hafter : (s.exec (.damage appId)).1.vaults other = s.vaults other :=
        Function.update_of_ne hother _ _
      rw [hafter]
      exact h.clean hshut other

theorem kept_within (reached : (managerSystem.restrict Manager.Proper).Reachable s) : s.Kept := by
  induction reached with
  | start hinit =>
    rw [show _ = Manager.empty from hinit]
    exact ⟨fun _ hthere => (nomatch hthere), fun _ hmem => (nomatch hmem), .nil, .nil,
      fun _ _ => rfl⟩
  | next call _ hstep ih =>
    obtain ⟨hproper, hpossible, rfl⟩ := hstep
    exact ih.exec hpossible hproper

/-! ## What is returned -/

/-- The objects that a read or a listing returns, by their retention and expiry. -/
def Reply.objects : Reply → List (PrivateRetention × Option UInt64)
  | .found none => []
  | .found (some (descriptor, _)) => [(descriptor.retention, descriptor.expiresAt)]
  | .values descriptors => descriptors.map fun d => (d.retention, d.expiresAt)
  | .blobs descriptors => descriptors.map fun d => (d.retention, d.expiresAt)
  | .range descriptor _ => [(descriptor.retention, descriptor.expiresAt)]
  | _ => []

/-- An object of the manifest that has not expired. -/
def Lives (m : PrivateAppManifest) (now : UInt64) (object : PrivateRetention × Option UInt64) :
    Prop :=
  isExpired object.2 now = false ∧
    ((∃ key e, m.values.lookup key = some e ∧ object = (e.retention, e.expiresAt)) ∨
      ∃ blobId e, m.blobs.lookup blobId = some e ∧ object = (e.retention, e.expiresAt))

theorem PrivateValueEntry.accessed_lifetime (e : PrivateValueEntry) (now : UInt64) :
    (e.accessed now).retention = e.retention ∧ (e.accessed now).expiresAt = e.expiresAt := by
  rw [PrivateValueEntry.accessed]
  split
  case isTrue => exact ⟨rfl, rfl⟩
  case isFalse => exact ⟨rfl, rfl⟩

theorem PrivateBlobEntry.accessed_lifetime (e : PrivateBlobEntry) (now : UInt64) :
    (e.accessed now).retention = e.retention ∧ (e.accessed now).expiresAt = e.expiresAt := by
  rw [PrivateBlobEntry.accessed]
  split
  case isTrue => exact ⟨rfl, rfl⟩
  case isFalse => exact ⟨rfl, rfl⟩

/-- Reads and listings return what the manifest has and what has not expired. -/
theorem plan_objects (h : op.plan c v = .ok plan) :
    ∃ m, v.loadManifest c.now = .ok m ∧ ∀ object ∈ plan.reply.objects, Lives m c.now object := by
  obtain ⟨m, hload, -⟩ := Op.plan_eq_ok h
  refine ⟨m, hload, ?_⟩
  have hnone : plan.reply.objects = [] → ∀ object ∈ plan.reply.objects, Lives m c.now object := by
    intro hempty object hmem
    rw [hempty] at hmem
    cases hmem
  cases op with
  | getValue key =>
    simp only [Op.plan, PrivateStorage.getValue, hload] at h
    split at h
    case h_1 => cases h
    case h_2 =>
    split at h
    case h_1 =>
      cases h
      exact hnone rfl
    case h_2 entry hfound =>
    split at h
    case isTrue =>
      cases h
      exact hnone rfl
    case isFalse hlive =>
    split at h
    case h_1 => cases h
    case h_2 =>
    cases h
    intro object hmem
    obtain rfl := List.mem_singleton.mp hmem
    obtain ⟨hretention, hexpires⟩ := entry.accessed_lifetime c.now
    rw [hretention, hexpires]
    exact ⟨Bool.eq_false_of_not_eq_true hlive, .inl ⟨key, entry, hfound, rfl⟩⟩
  | listValues =>
    simp only [Op.plan, PrivateStorage.listValues, hload] at h
    cases h
    intro object hmem
    obtain ⟨e, he, rfl⟩ := List.mem_map.mp hmem
    obtain ⟨hentry, hlive⟩ := List.mem_filter.mp (List.mem_mergeSort.mp he)
    obtain ⟨pair, hpair, rfl⟩ := List.mem_map.mp hentry
    have hlive : isExpired pair.2.expiresAt c.now = false := by simpa using hlive
    exact ⟨hlive, .inl ⟨pair.1, pair.2, AList.mem_lookup_iff.mpr hpair, rfl⟩⟩
  | listBlobs =>
    simp only [Op.plan, PrivateStorage.listBlobs, hload] at h
    cases h
    intro object hmem
    obtain ⟨d, hd, rfl⟩ := List.mem_map.mp hmem
    obtain ⟨e, he, rfl⟩ := List.mem_map.mp (List.mem_mergeSort.mp hd)
    obtain ⟨hentry, hlive⟩ := List.mem_filter.mp he
    obtain ⟨pair, hpair, rfl⟩ := List.mem_map.mp hentry
    have hlive : isExpired pair.2.expiresAt c.now = false := by simpa using hlive
    exact ⟨hlive, .inr ⟨pair.1, pair.2, AList.mem_lookup_iff.mpr hpair, rfl⟩⟩
  | readBlobRange blobId offset length =>
    simp only [Op.plan, PrivateStorage.readBlobRange, hload] at h
    split at h
    case h_1 => cases h
    case h_2 =>
    split at h
    case isTrue => cases h
    case isFalse =>
    split at h
    case h_1 => cases h
    case h_2 entry hfound =>
    split at h
    case isTrue => cases h
    case isFalse =>
    split at h
    case isTrue => cases h
    case isFalse hlive =>
    split at h
    case h_1 => cases h
    case h_2 =>
    cases h
    intro object hmem
    obtain rfl := List.mem_singleton.mp hmem
    obtain ⟨hretention, hexpires⟩ := entry.accessed_lifetime c.now
    dsimp only [PrivateBlobEntry.descriptor]
    rw [hretention, hexpires]
    exact ⟨Bool.eq_false_of_not_eq_true hlive, .inr ⟨blobId, entry, hfound, rfl⟩⟩
  -- The others return no object that they have read.
  | putValue => grind [Op.plan, PrivateStorage.putValue, Reply.objects]
  | deleteValue => grind [Op.plan, PrivateStorage.deleteValue, Reply.objects]
  | renewValue => grind [Op.plan, PrivateStorage.renewValue, Reply.objects]
  | beginBlob => grind [Op.plan, PrivateStorage.beginBlob, Reply.objects]
  | appendBlob => grind [Op.plan, PrivateStorage.appendBlob, Reply.objects]
  | finishBlob => grind [Op.plan, PrivateStorage.finishBlob, Reply.objects]
  | abortBlob => grind [Op.plan, PrivateStorage.abortBlob, Reply.objects]
  | renewBlob => grind [Op.plan, PrivateStorage.renewBlob, Reply.objects]
  | usage => grind [Op.plan, PrivateStorage.usage, Reply.objects]
  | prepareShutdown => grind [Op.plan, PrivateStorage.prepareShutdown, Reply.objects]
  | cleanup => grind [Op.plan, PrivateStorage.cleanup, Reply.objects]

variable {reply : Reply}

theorem exec_objects (h : (call.exec v).2 = .returned reply) :
    ∃ m, v.loadManifest call.now = .ok m ∧ ∀ object ∈ reply.objects, Lives m call.now object := by
  obtain ⟨error, hexec⟩ | ⟨plan, hplan, -, hreply⟩ := call.exec_plan v
  · rw [hexec] at h
    cases h
  rw [hreply] at h
  split at h
  case isTrue =>
    cases h
    exact plan_objects hplan
  case isFalse => cases h

/-- What is returned has not expired; and where nothing was left that is to go with a shutdown,
nothing of that kind is returned. -/
theorem execApp_objects (h : (s.execApp appId call written).2 = .returned reply) :
    ∀ object ∈ reply.objects, isExpired object.2 call.now = false ∧
      ((s.vaults appId).ephemeral = false → object.1 ≠ .deleteOnShutdown) := by
  have hvault : (call.exec (s.vaults appId)).2 = .returned reply := by
    rw [Manager.execApp] at h
    split at h
    case isFalse => exact h
    case isTrue =>
    rw [Manager.ensureAppRegistered] at h
    split at h
    case h_1 registered heq =>
      split at heq
      case isTrue =>
        obtain ⟨rfl, -⟩ := Prod.mk.inj heq
        exact h
      case isFalse =>
        split at heq
        case isTrue =>
          obtain ⟨rfl, -⟩ := Prod.mk.inj heq
          exact h
        case isFalse => cases (Prod.mk.inj heq).2
    case h_2 => cases h
  obtain ⟨m, hload, hobjects⟩ := exec_objects hvault
  have hm : Loads (s.vaults appId) m := ⟨_, hload⟩
  intro object hmem
  obtain ⟨hlive, hfound⟩ := hobjects object hmem
  refine ⟨hlive, fun hclean => ?_⟩
  have hentries := ephemeral_eq_false.mp (hm.ephemeral.symm.trans hclean)
  obtain ⟨key, e, he, rfl⟩ | ⟨blobId, e, he, rfl⟩ := hfound
  · exact hentries.1 key e he
  · exact hentries.2 blobId e he

/-! ## What a sweep comes to -/

variable {at_ : Surroundings} {appIds : List String} {vaults : String → Vault} {budget : Nat}

theorem sweep_others (hmem : appId ∉ appIds) :
    (sweep at_ op appIds budget vaults).1 appId = vaults appId := by
  refine sweep_preserves (P := fun other v => other = appId → v = vaults appId) ?_ ?_ appId rfl
  · rintro other hother _ _ _ rfl
    exact absurd hother hmem
  · rintro other rfl
    rfl

/-- A sweep that ends without an error has carried its operation out on every vault. -/
theorem sweep_reaches {replies : List Reply} (hdistinct : appIds.Nodup)
    (hok : (sweep at_ op appIds budget vaults).2 = .ok replies) (hmem : appId ∈ appIds) :
    ∃ budget' reply, (at_.call op appId budget').exec (vaults appId) =
      ((sweep at_ op appIds budget vaults).1 appId, .returned reply) := by
  induction appIds generalizing budget vaults replies with
  | nil => cases hmem
  | cons first rest ih =>
    obtain ⟨hfirst, hrest⟩ := List.nodup_cons.mp hdistinct
    cases hreply : ((at_.call op first budget).exec (vaults first)).2 with
    | failed error =>
      simp only [sweep, hreply] at hok
      cases hok
    | returned reply =>
      rw [sweep_cons hreply]
      simp only [sweep, hreply] at hok
      cases hafter : (sweep at_ op rest (budget - (at_.call op first budget).writes (vaults first))
          (Function.update vaults first ((at_.call op first budget).exec (vaults first)).1)).2 with
      | error error =>
        rw [hafter] at hok
        cases hok
      | ok after =>
        obtain rfl | hmem := List.mem_cons.mp hmem
        · refine ⟨budget, reply, Prod.ext ?_ hreply⟩
          rw [sweep_others hfirst, Function.update_self]
        · obtain ⟨budget', reply', hexec⟩ := ih hrest hafter hmem
          have hne : appId ≠ first := fun heq => hfirst (heq ▸ hmem)
          rw [Function.update_of_ne hne] at hexec
          exact ⟨budget', reply', hexec⟩

/-- In a run whose steps all meet the condition every application with a manifest is in the
catalogue on disk, and after a restart a cleanup that goes through comes to its vault; nothing that
was to go with a shutdown is returned after it. Whatever the run, nothing is returned that has
expired. -/
theorem catalogued_and_swept {s : Manager}
    (reached : (managerSystem.restrict Manager.Proper).Reachable s) :
    (∀ appId, (s.vaults appId).manifest.isThere = true → appId ∈ s.catalogFile ∧
        ∀ at_ budget reply, (s.restart.cleanupAll at_ budget).2 = .returned reply →
          ∃ budget' reply', (at_.call .cleanup appId budget').exec (s.vaults appId) =
            ((s.restart.cleanupAll at_ budget).1.vaults appId, .returned reply')) ∧
      (s.shutDown = true → ∀ appId, (s.vaults appId).ephemeral = false) ∧
      (s.shutDown = true → ∀ appId call written reply,
        (s.exec (.app appId call written)).2 = .returned reply →
          ∀ object ∈ reply.objects, object.1 ≠ .deleteOnShutdown) ∧
      ∀ (s' : Manager) (appId : String) (call : Call) (written : Bool) (reply : Reply),
        (s'.exec (.app appId call written)).2 = .returned reply →
          ∀ object ∈ reply.objects, isExpired object.2 call.now = false := by
  have hkept := kept_within reached
  refine ⟨fun appId hthere => ⟨hkept.persisted appId hthere, ?_⟩, hkept.clean, ?_, ?_⟩
  · intro at_ budget reply hreturned
    have hok : ∃ replies, (sweep at_ .cleanup s.catalogFile budget s.vaults).2 = .ok replies := by
      cases hswept : (sweep at_ .cleanup s.catalogFile budget s.vaults).2 with
      | ok replies => exact ⟨replies, rfl⟩
      | error error =>
        simp only [Manager.cleanupAll, Manager.restart, hswept] at hreturned
        cases hreturned
    obtain ⟨replies, hok⟩ := hok
    exact sweep_reaches hkept.distinctFile hok (hkept.persisted appId hthere)
  · intro hshut appId call written reply hreturned object hmem
    exact (execApp_objects hreturned object hmem).2 (hkept.clean hshut appId)
  · intro s' appId call written reply hreturned object hmem
    exact (execApp_objects hreturned object hmem).1

/-! ## A catalogue that is not written, and a manifest that cannot be read -/

namespace ShutdownSample

def surroundings : Surroundings where
  circumstances := fun _ => TornSample.circumstances 300
  removed := fun _ => { values := fun _ => false, chunks := fun _ _ => false }

def keep (retention : PrivateRetention) : Call where
  toCircumstances := TornSample.circumstances 100
  op := .putValue "k" [1] retention none
  budget := 2
  removed := { values := fun _ => false, chunks := fun _ _ => false }

def look : Call where
  toCircumstances := TornSample.circumstances 350
  op := .getValue "k"
  budget := 1
  removed := { values := fun _ => false, chunks := fun _ _ => false }

/-- "a" keeps a value, "b" keeps one until the next shutdown, and "a" becomes unreadable. -/
def cutOff : List ManagerCall :=
  [.app "a" (keep .persistent) true, .app "b" (keep .deleteOnShutdown) true, .damage "a",
    .prepareShutdown surroundings 1]

/-- The catalogue is not written, and the application puts its value once more. -/
def unlisted : List ManagerCall :=
  [.app "a" (keep .deleteOnShutdown) false, .app "a" (keep .deleteOnShutdown) true, .restart,
    .prepareShutdown surroundings 1]

def after (calls : List ManagerCall) : Manager :=
  calls.foldl (fun s call => (s.exec call).1) .empty

/-- What is found after the shutdown. -/
def entry : PrivateValueEntry where
  key := "k"
  bytes := 1
  retention := .deleteOnShutdown
  expiresAt := some 86500
  createdAt := 100
  updatedAt := 100
  lastAccessedAt := 350

/-- After the shutdown both values are read, and an application with a manifest is not in the
catalogue. -/
theorem shutdown_leaves_values :
    (managerSystem.Reachable (after cutOff) ∧ (after cutOff).shutDown = true ∧
      ((after cutOff).exec (.app "b" look true)).2 = .returned (.found (some (entry, [1])))) ∧
    managerSystem.Reachable (after unlisted) ∧ (after unlisted).shutDown = true ∧
      ((after unlisted).vaults "a").manifest.isThere = true ∧ "a" ∉ (after unlisted).catalogFile ∧
      ((after unlisted).exec (.app "a" look true)).2 = .returned (.found (some (entry, [1]))) := by
  refine ⟨⟨?_, rfl, ?_⟩, ?_, rfl, ?_, ?_, ?_⟩
  · exact .next (.prepareShutdown surroundings 1)
      (.next (.damage "a")
        (.next (.app "b" (keep .deleteOnShutdown) true)
          (.next (.app "a" (keep .persistent) true) (.start rfl) ⟨rfl, rfl⟩) ⟨rfl, rfl⟩)
        ⟨rfl, rfl⟩)
      ⟨trivial, rfl⟩
  · decide +kernel
  · exact .next (.prepareShutdown surroundings 1)
      (.next .restart
        (.next (.app "a" (keep .deleteOnShutdown) true)
          (.next (.app "a" (keep .deleteOnShutdown) false) (.start rfl) ⟨rfl, rfl⟩) ⟨rfl, rfl⟩)
        ⟨trivial, rfl⟩)
      ⟨trivial, rfl⟩
  · decide +kernel
  · decide +kernel
  · decide +kernel

/-- A shutdown that goes through. -/
def wholeSweep : List ManagerCall :=
  [.app "a" (keep .deleteOnShutdown) true, .prepareShutdown surroundings 1]

theorem kept_value_is_swept :
    ((after wholeSweep).vaults "a").ephemeral = false ∧ "a" ∈ (after wholeSweep).catalogFile := by
  have hreached : (managerSystem.restrict Manager.Proper).Reachable (after wholeSweep) := by
    refine .next (.prepareShutdown surroundings 1)
      (.next (.app "a" (keep .deleteOnShutdown) true) (.start rfl) ⟨fun _ h => (nomatch h), rfl, rfl⟩)
      ⟨⟨?_, by decide +kernel⟩, trivial, rfl⟩
    intro before appId rest hcatalog _ other hother
    cases before with
    | nil => cases hother
    | cons first before =>
      have hone : (Manager.empty.exec
          (.app "a" (keep .deleteOnShutdown) true)).1.catalog.length = 1 := by decide +kernel
      rw [hcatalog] at hone
      simp at hone
  have hswept := catalogued_and_swept hreached
  exact ⟨hswept.2.1 rfl "a", (hswept.1 "a" (by decide +kernel)).1⟩

end ShutdownSample

end VeilKnit.PrivateStorage
