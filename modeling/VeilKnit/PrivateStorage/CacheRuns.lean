import VeilKnit.PrivateStorage.Blobs

/-!
# The cache in runs

Putting a value, finishing a blob and a cleanup prune the cache; renewing an object does not, and
may bring one into a cache that has no room for it. Pruning comes after the manifest with the new
object is written, and it may take the new object itself: one that is larger than the cache, or one
that is no later in the order of eviction than others.

Where an object is renewed into the cache only as far as there is room, no put and no finish is cut
off before its pruning, and a new object has room beside those that are evicted after it, the cache
fits its limit in every state, and what has been put or finished can be read.
-/

namespace VeilKnit.PrivateStorage

open Library Types

variable {c : Circumstances} {m m' : PrivateAppManifest} {v v' : Vault} {key blobId : String}
  {actions : List Action} {op : Op} {plan : Plan} {reply : Reply} {removed : Removed} {limit : Nat}

/-! ## What counts -/

def valueWeight (e : PrivateValueEntry) : Nat :=
  if PrivateAppManifest.isCachedValue e then e.bytes else 0

def blobWeight (e : PrivateBlobEntry) : Nat :=
  if PrivateAppManifest.isCachedBlob e then e.totalBytes else 0

variable {e : PrivateValueEntry}

theorem valueWeight_cached (h : e.retention = .cache) : valueWeight e = e.bytes :=
  if_pos (decide_eq_true h)

theorem valueWeight_other (h : e.retention ≠ .cache) : valueWeight e = 0 :=
  if_neg (by simpa [PrivateAppManifest.isCachedValue] using h)

theorem blobWeight_cached {e : PrivateBlobEntry} (hcomplete : e.complete = true)
    (h : e.retention = .cache) : blobWeight e = e.totalBytes :=
  if_pos (decide_eq_true ⟨hcomplete, h⟩)

theorem blobWeight_other {e : PrivateBlobEntry} (h : e.complete = false ∨ e.retention ≠ .cache) :
    blobWeight e = 0 := by
  refine if_neg fun hcached => ?_
  obtain ⟨hcomplete, hretention⟩ := of_decide_eq_true hcached
  obtain hincomplete | hother := h
  · cases hincomplete.symm.trans hcomplete
  · exact hother hretention

private theorem sum_filter {α : Type} (p : α → Bool) (f : α → Nat) (l : List α) :
    ((l.filter p).map f).sum = (l.map fun x => if p x then f x else 0).sum := by
  induction l with
  | nil => rfl
  | cons x l ih =>
    rw [List.map_cons, List.sum_cons, ← ih]
    by_cases hx : p x
    · simp [hx]
    · simp [hx]

theorem cacheBytes_eq_total (m : PrivateAppManifest) :
    m.cacheBytes = AList.total valueWeight m.values + AList.total blobWeight m.blobs := by
  rw [PrivateAppManifest.cacheBytes, sum_filter, sum_filter]
  rfl

theorem cacheBytes_congr (hvalues : m'.values = m.values) (hblobs : m'.blobs = m.blobs) :
    m'.cacheBytes = m.cacheBytes := by
  rw [cacheBytes_eq_total, cacheBytes_eq_total, hvalues, hblobs]

variable {now : UInt64}

theorem insertValue_fits {e' : PrivateValueEntry} (hfound : m.values.lookup key = some e)
    (hroom : m.cacheBytes + valueWeight e' ≤ limit + valueWeight e) :
    ({ m with values := m.values.insert key e', updatedAt := now } :
      PrivateAppManifest).cacheBytes ≤ limit := by
  have htotal := AList.total_insert_of_lookup valueWeight hfound e'
  rw [cacheBytes_eq_total] at hroom ⊢
  dsimp only
  omega

theorem insertBlob_fits {e e' : PrivateBlobEntry} (hfound : m.blobs.lookup blobId = some e)
    (hroom : m.cacheBytes + blobWeight e' ≤ limit + blobWeight e) :
    ({ m with blobs := m.blobs.insert blobId e', updatedAt := now } :
      PrivateAppManifest).cacheBytes ≤ limit := by
  have htotal := AList.total_insert_of_lookup blobWeight hfound e'
  rw [cacheBytes_eq_total] at hroom ⊢
  dsimp only
  omega

/-! ## What is asked of a step -/

/-- The manifest that the operation prunes. -/
def Call.prunes (call : Call) (m : PrivateAppManifest) : Option PrivateAppManifest :=
  match call.op with
  | .putValue key value retention ttlSeconds =>
    match expiryFor retention ttlSeconds call.now with
    | .error _ => none
    | .ok expiresAt =>
      some (m.putEntry (newEntry m key value retention expiresAt call.now) call.now)
  | .finishBlob blobId =>
    (m.blobs.lookup blobId).map fun entry =>
      { m with
        blobs := m.blobs.insert blobId
          { entry with complete := true, updatedAt := call.now, lastAccessedAt := call.now }
        updatedAt := call.now }
  | .cleanup => some (m.swept call.now)
  | _ => none

/-- The number of writes after which the manifest is there that the operation then prunes. -/
def Op.savedAt : Op → Option Nat
  | .putValue .. => some 2
  | .finishBlob _ => some 1
  | _ => none

/-- The candidate is the object that the operation has put or finished. -/
def Op.Leaves (candidate : Candidate) : Op → Prop
  | .putValue key .. => candidate.isValue key = true
  | .finishBlob blobId => candidate.isBlob blobId = true
  | _ => False

/-- There is room for what is renewed into the cache and for what is put or finished; and the
operation is not cut off before its pruning. -/
structure Call.Frugal (call : Call) (v : Vault) : Prop where
  renewedValue : ∀ key ttlSeconds m e, call.op = .renewValue key .cache ttlSeconds →
    v.loadManifest call.now = .ok m → m.values.lookup key = some e → e.retention ≠ .cache →
      m.cacheBytes + e.bytes ≤ call.limit
  renewedBlob : ∀ blobId ttlSeconds m e, call.op = .renewBlob blobId .cache ttlSeconds →
    v.loadManifest call.now = .ok m → m.blobs.lookup blobId = some e → e.complete = true →
      e.retention ≠ .cache → m.cacheBytes + e.totalBytes ≤ call.limit
  whole : ∀ m asked, v.loadManifest call.now = .ok m → call.prunes m = some asked →
    call.limit < asked.cacheBytes → call.op.savedAt ≠ some call.budget
  room : ∀ m asked candidate, v.loadManifest call.now = .ok m → call.prunes m = some asked →
    call.op.Leaves candidate → ∀ before after,
      asked.inEvictionOrder call.order = before ++ candidate :: after →
        candidate.bytes + (after.map Candidate.bytes).sum ≤ call.limit
  /-- A clock at its very end lets nothing expire later. -/
  clock : ∀ key value retention ttlSeconds, call.op = .putValue key value retention ttlSeconds →
    retention ≠ .persistent → retention ≠ .cache → call.now ≠ 18446744073709551615

/-! ## What an operation writes -/

variable {new asked : PrivateAppManifest}

/-- What an operation without pruning leaves is there already, or fits if what was there does. -/
theorem Planned.fits {call : Call}
    (hplanned : Planned call.toCircumstances m call.op actions reply) (hfrugal : call.Frugal v)
    (hload : v.loadManifest call.now = .ok m) (hpruned : call.op.savedAt = none)
    (hfits : m.cacheBytes ≤ call.limit) (hmem : .write (.manifest new) ∈ actions) :
    new.cacheBytes ≤ call.limit := by
  generalize hop : call.op = op at hplanned hpruned
  cases hplanned with
  | nothing => cases hmem
  | putValue => cases hpruned
  | accessValue key entry reply found =>
    obtain rfl : new = _ := by simpa using hmem
    exact insertValue_fits found (Nat.add_le_add_right hfits _)
  | deleteValue key =>
    obtain rfl : new = _ := by simpa using hmem
    rw [cacheBytes_eq_total] at hfits ⊢
    exact (Nat.add_le_add_right (AList.total_erase_le _ _ _) _).trans hfits
  | renewValue key retention ttlSeconds expiresAt entry expiry found =>
    obtain rfl : new = _ := by simpa using hmem
    refine insertValue_fits found ?_
    by_cases hnew : retention = .cache
    · subst hnew
      rw [valueWeight_cached rfl]
      by_cases hold : entry.retention = .cache
      · rw [valueWeight_cached hold]
        exact Nat.add_le_add_right hfits _
      · rw [valueWeight_other hold]
        exact hfrugal.renewedValue key ttlSeconds m entry hop hload found hold
    · exact Nat.add_le_add hfits (le_of_eq_of_le (valueWeight_other hnew) (Nat.zero_le _))
  | beginBlob blobId contentType retention ttlSeconds entry id kept empty =>
    obtain rfl : new = _ := by simpa using hmem
    have herased := AList.total_erase_le blobWeight m.blobs entry.blobId
    rw [cacheBytes_eq_total] at hfits ⊢
    rw [PrivateAppManifest.putBlob, AList.total_insert, blobWeight_other (.inl empty.2.2)]
    dsimp only
    omega
  | appendBlob blobId data entry found incomplete =>
    obtain rfl : new = _ := by simpa using hmem
    refine insertBlob_fits found (Nat.add_le_add hfits ?_)
    exact le_of_eq_of_le (blobWeight_other (.inl incomplete)) (Nat.zero_le _)
  | finishBlob => cases hpruned
  | abortBlob blobId =>
    obtain rfl : new = _ := by simpa using hmem
    rw [cacheBytes_eq_total] at hfits ⊢
    exact (Nat.add_le_add_left (AList.total_erase_le _ _ _) _).trans hfits
  | accessBlob blobId offset length entry reply found =>
    obtain rfl : new = _ := by simpa using hmem
    exact insertBlob_fits found (Nat.add_le_add_right hfits _)
  | renewBlob blobId retention ttlSeconds expiresAt entry expiry found =>
    obtain rfl : new = _ := by simpa using hmem
    refine insertBlob_fits found ?_
    by_cases hcached : entry.complete = true ∧ retention = .cache
    · obtain ⟨hcomplete, rfl⟩ := hcached
      have hle : blobWeight { entry with
          retention := .cache
          expiresAt := expiresAt
          updatedAt := call.now
          lastAccessedAt := call.now } = entry.totalBytes :=
        blobWeight_cached hcomplete rfl
      rw [hle]
      by_cases hold : entry.retention = .cache
      · rw [blobWeight_cached hcomplete hold]
        exact Nat.add_le_add_right hfits _
      · rw [blobWeight_other (.inr hold)]
        exact hfrugal.renewedBlob blobId ttlSeconds m entry hop hload found hcomplete hold
    · rw [not_and_or, Bool.not_eq_true] at hcached
      exact Nat.add_le_add hfits (le_of_eq_of_le (blobWeight_other hcached) (Nat.zero_le _))
  | prepareShutdown =>
    obtain rfl : new = _ := by simpa using hmem
    rw [cacheBytes_eq_total] at hfits ⊢
    exact (Nat.add_le_add (AList.total_filterEntries_le _ _ _)
      (AList.total_filterEntries_le _ _ _)).trans hfits
  | cleanup =>
    have hnew : new = ((m.swept call.now).pruneCache call.limit call.order call.now).1 := by
      obtain hmem | hmem := List.mem_append.mp hmem
      · exact mem_pruneCache hmem
      · simpa using hmem
    rw [hnew]
    exact PrivateAppManifest.pruneCache_fits _ _ _ _

theorem Planned.version (hplanned : Planned c m op actions reply)
    (hmem : .write (.manifest new) ∈ actions) : new.version = m.version := by
  have hsaved : ∀ {asked : PrivateAppManifest}, .write (.manifest new) ∈ saveAndPrune c asked →
      asked.version = m.version → new.version = m.version := by
    intro asked hmem hversion
    obtain rfl | rfl := mem_saveAndPrune hmem
    · exact hversion
    · exact (PrivateAppManifest.pruneCache_version _ _ _ _).trans hversion
  cases hplanned with
  | nothing => cases hmem
  | putValue =>
    obtain hmem | hmem := List.mem_cons.mp hmem
    · cases hmem
    · exact hsaved hmem rfl
  | finishBlob => exact hsaved hmem rfl
  | cleanup =>
    have hnew : new = ((m.swept c.now).pruneCache c.limit c.order c.now).1 := by
      obtain hmem | hmem := List.mem_append.mp hmem
      · exact mem_pruneCache hmem
      · simpa using hmem
    rw [hnew]
    exact PrivateAppManifest.pruneCache_version _ _ _ _
  | _ =>
    obtain rfl : new = _ := by simpa using hmem
    rfl

/-! ## The limit -/

variable {budget : Nat}

/-- A manifest that is saved and pruned fits, unless it is cut off between the two. -/
theorem perform_saveAndPrune (hm : Loads v m) (m' : PrivateAppManifest)
    (hversion : m'.version = m.version) (hfits : m.cacheBytes ≤ c.limit)
    (hcut : c.limit < m'.cacheBytes → budget ≠ 1) :
    ∃ new, Loads (Vault.perform removed v (saveAndPrune c m') budget).1 new ∧
      new.cacheBytes ≤ c.limit := by
  cases budget with
  | zero => exact ⟨m, hm, hfits⟩
  | succ budget =>
    have hsaved : Loads (v.write (.manifest m')) m' := hm.write_manifest hversion
    by_cases hroom : m'.cacheBytes ≤ c.limit
    · have hnothing : (m'.pruneCache c.limit c.order c.now).2 = [] := by
        rw [PrivateAppManifest.pruneCache, if_pos hroom]
      rw [saveAndPrune, hnothing]
      exact ⟨m', hsaved, hroom⟩
    cases budget with
    | zero => exact absurd rfl (hcut (Nat.lt_of_not_le hroom))
    | succ budget =>
      have hpruned := m'.pruneCache_fits c.limit c.order c.now
      obtain ⟨hfit, -⟩ | ⟨dead, kept, -, -, heq⟩ :=
        m'.pruneCache_cases c.limit c.order c.now
      · exact absurd hfit hroom
      · rw [heq] at hpruned
        rw [saveAndPrune, heq]
        refine ⟨_, Loads.congr (hsaved.write_manifest ?_) rfl, hpruned⟩
        exact m'.removeAll_version dead

theorem exec_fits {call : Call} (hm : Loads v m) (hfits : m.cacheBytes ≤ call.limit)
    (hfrugal : call.Frugal v) :
    ∃ m', Loads (call.exec v).1 m' ∧ m'.cacheBytes ≤ call.limit := by
  obtain ⟨error, hexec⟩ | ⟨found, actions, reply, hload, hplanned, hexec, -⟩ := call.exec_cases v
  · rw [hexec]
    exact ⟨m, hm, hfits⟩
  have hsame : found.cacheBytes ≤ call.limit := by
    obtain ⟨hvalues, hblobs⟩ := hm.unique ⟨_, hload⟩
    rw [cacheBytes_congr hvalues hblobs]
    exact hfits
  have hfound : Loads v found := ⟨_, hload⟩
  rw [hexec]
  cases hsaved : call.op.savedAt with
  | none =>
    obtain hold | ⟨new, hmem, hnew⟩ := perform_manifest call.removed v actions call.budget
    · exact ⟨found, hfound.congr hold, hsame⟩
    · refine ⟨new, ⟨0, loadManifest_stored hnew ?_⟩, hplanned.fits hfrugal hload hsaved hsame hmem⟩
      exact (hplanned.version hmem).trans hfound.version
  | some writes =>
    have hwhole := hfrugal.whole found
    generalize hop : call.op = op at hplanned hsaved
    cases hplanned with
    | putValue key value retention ttlSeconds expiresAt expiry =>
      have hasked : call.prunes found = some
          (found.putEntry (newEntry found key value retention expiresAt call.now) call.now) := by
        simp only [Call.prunes, hop, expiry]
      have hcut := hwhole _ hload hasked
      rw [hop] at hcut
      cases hbudget : call.budget with
      | zero => exact ⟨found, hfound, hsame⟩
      | succ budget =>
        have hfile : Loads (v.write (.value key value)) found := hfound.congr rfl
        refine perform_saveAndPrune hfile (found.putEntry
          (newEntry found key value retention expiresAt call.now) call.now) rfl hsame
          fun hover hone => hcut hover ?_
        rw [hbudget, hone]
        rfl
    | finishBlob blobId entry valid found' =>
      have hasked : call.prunes found = some { found with
          blobs := found.blobs.insert blobId
            { entry with complete := true, updatedAt := call.now, lastAccessedAt := call.now }
          updatedAt := call.now } := by
        simp only [Call.prunes, hop, found', Option.map_some]
      have hcut := hwhole _ hload hasked
      rw [hop] at hcut
      refine perform_saveAndPrune hfound { found with
          blobs := found.blobs.insert blobId
            { entry with complete := true, updatedAt := call.now, lastAccessedAt := call.now }
          updatedAt := call.now } rfl hsame fun hover hone => hcut hover ?_
      rw [hone]
      rfl
    | nothing => exact ⟨found, hfound, hsame⟩
    | _ => cases hsaved

/-! ## What goes -/

/-- What pruning has taken away was in the cache, and accessed no later than what it has left
there. -/
structure PrunedTo (asked after : PrivateAppManifest) : Prop where
  within : Within asked after
  values : ∀ key e, asked.values.lookup key = some e → after.values.lookup key = none →
    e.retention = .cache ∧ ∀ other ∈ after.candidates, e.lastAccessedAt ≤ other.accessedAt
  blobs : ∀ blobId e, asked.blobs.lookup blobId = some e → after.blobs.lookup blobId = none →
    e.complete = true ∧ e.retention = .cache ∧
      ∀ other ∈ after.candidates, e.lastAccessedAt ≤ other.accessedAt

theorem PrunedTo.congr {after : PrivateAppManifest} (h : PrunedTo asked after)
    (hvalues : m'.values = after.values) (hblobs : m'.blobs = after.blobs) :
    PrunedTo asked m' := by
  have hcandidates : m'.candidates = after.candidates := by
    rw [PrivateAppManifest.candidates, hvalues, hblobs, PrivateAppManifest.candidates]
  refine ⟨⟨?_, ?_⟩, ?_, ?_⟩
  · rw [hvalues]
    exact h.within.values
  · rw [hblobs]
    exact h.within.blobs
  · rw [hvalues, hcandidates]
    exact h.values
  · rw [hblobs, hcandidates]
    exact h.blobs

variable {candidate : Candidate}

theorem isValue_eq_true (h : candidate.isValue key = true) :
    ∃ accessedAt bytes, candidate = .value key accessedAt bytes := by
  cases candidate with
  | value other accessedAt bytes =>
    obtain rfl : other = key := of_decide_eq_true h
    exact ⟨accessedAt, bytes, rfl⟩
  | blob => cases h

theorem isBlob_eq_true (h : candidate.isBlob blobId = true) :
    ∃ accessedAt bytes, candidate = .blob blobId accessedAt bytes := by
  cases candidate with
  | value => cases h
  | blob other accessedAt bytes =>
    obtain rfl : other = blobId := of_decide_eq_true h
    exact ⟨accessedAt, bytes, rfl⟩

/-- A candidate of a key is the key's entry. -/
theorem mem_candidates_value (hmem : candidate ∈ m.candidates)
    (hkey : candidate.isValue key = true) : ∃ e, m.values.lookup key = some e ∧
      e.retention = .cache ∧ candidate = .value key e.lastAccessedAt e.bytes := by
  obtain ⟨accessedAt, bytes, rfl⟩ := isValue_eq_true hkey
  obtain ⟨other, e, hlookup, hcached, heq⟩ | ⟨other, e, -, -, heq⟩ :=
    PrivateAppManifest.mem_candidates.mp hmem
  · cases heq
    exact ⟨e, hlookup, of_decide_eq_true hcached, rfl⟩
  · cases heq

theorem mem_candidates_blob (hmem : candidate ∈ m.candidates)
    (hid : candidate.isBlob blobId = true) : ∃ e, m.blobs.lookup blobId = some e ∧
      (e.complete = true ∧ e.retention = .cache) ∧
        candidate = .blob blobId e.lastAccessedAt e.totalBytes := by
  obtain ⟨accessedAt, bytes, rfl⟩ := isBlob_eq_true hid
  obtain ⟨other, e, -, -, heq⟩ | ⟨other, e, hlookup, hcached, heq⟩ :=
    PrivateAppManifest.mem_candidates.mp hmem
  · cases heq
  · cases heq
    exact ⟨e, hlookup, of_decide_eq_true hcached, rfl⟩

theorem pruneCache_pruned (m : PrivateAppManifest) (limit : Nat) (order : Order) (now : UInt64) :
    PrunedTo m (m.pruneCache limit order now).1 := by
  have hwithin := within_pruneCache m limit order now
  obtain ⟨-, heq⟩ | ⟨dead, kept, hevicted, -, heq⟩ := m.pruneCache_cases limit order now
  · rw [heq] at hwithin ⊢
    refine ⟨hwithin, fun key e he hgone => ?_, fun blobId e he hgone => ?_⟩
    · cases he.symm.trans hgone
    · cases he.symm.trans hgone
  rw [heq] at hwithin ⊢
  have hcandidates := PrivateAppManifest.candidates_removeAll hevicted.perm
  have hdead : ∀ candidate ∈ dead, candidate ∈ m.candidates := fun candidate hmem =>
    hevicted.perm.symm.subset (List.mem_append_left _ hmem)
  have hbefore : ∀ candidate ∈ dead, ∀ other ∈ (m.removeAll dead).candidates,
      candidate.accessedAt ≤ other.accessedAt := fun candidate hmem other hother =>
    (List.pairwise_append.mp hevicted.sorted).2.2 candidate hmem other (hcandidates.subset hother)
  refine ⟨hwithin, fun key e he hgone => ?_, fun blobId e he hgone => ?_⟩
  · have hany : dead.any (Candidate.isValue key) = true := by
      by_contra hnot
      cases (((m.removeAll_values_lookup dead key).trans (if_neg hnot)).symm.trans hgone).symm.trans
        he
    obtain ⟨candidate, hmem, hkey⟩ := List.any_eq_true.mp hany
    obtain ⟨found, hfound, hcached, rfl⟩ := mem_candidates_value (hdead candidate hmem) hkey
    cases hfound.symm.trans he
    exact ⟨hcached, hbefore _ hmem⟩
  have hany : dead.any (Candidate.isBlob blobId) = true := by
    by_contra hnot
    cases (((m.removeAll_blobs_lookup dead blobId).trans (if_neg hnot)).symm.trans hgone).symm.trans
      he
  obtain ⟨candidate, hmem, hid⟩ := List.any_eq_true.mp hany
  obtain ⟨found, hfound, hcached, rfl⟩ := mem_candidates_blob (hdead candidate hmem) hid
  cases hfound.symm.trans he
  exact ⟨hcached.1, hcached.2, hbefore _ hmem⟩

/-- What is saved and pruned to the end. -/
theorem perform_saveAndPrune_completed (hm : Loads v m)
    (hcompleted : (Vault.perform removed v (saveAndPrune c m') budget).2 = true)
    (hversion : m'.version = m.version) :
    Loads (Vault.perform removed v (saveAndPrune c m') budget).1
      (m'.pruneCache c.limit c.order c.now).1 := by
  cases budget with
  | zero => cases hcompleted
  | succ budget =>
    have hsaved : Loads (v.write (.manifest m')) m' := hm.write_manifest hversion
    rw [saveAndPrune] at hcompleted ⊢
    obtain ⟨-, heq⟩ | ⟨dead, kept, -, -, heq⟩ := m'.pruneCache_cases c.limit c.order c.now
    · rw [heq]
      exact hsaved
    · rw [heq] at hcompleted ⊢
      cases budget with
      | zero => cases hcompleted
      | succ budget =>
        exact Loads.congr (hsaved.write_manifest (m'.removeAll_version dead)) rfl

/-- What a cleanup leaves that goes through. -/
theorem perform_cleanup_completed (hm : Loads v m) {dead blobs : String → Bool}
    (hcompleted : (Vault.perform removed v (((m.swept c.now).pruneCache c.limit c.order c.now).2 ++
      [.write (.manifest ((m.swept c.now).pruneCache c.limit c.order c.now).1),
        .discard dead blobs]) budget).2 = true) :
    Loads (Vault.perform removed v (((m.swept c.now).pruneCache c.limit c.order c.now).2 ++
      [.write (.manifest ((m.swept c.now).pruneCache c.limit c.order c.now).1),
        .discard dead blobs]) budget).1 ((m.swept c.now).pruneCache c.limit c.order c.now).1 := by
  obtain ⟨-, heq⟩ | ⟨gone, kept, -, -, heq⟩ :=
    (m.swept c.now).pruneCache_cases c.limit c.order c.now
  · rw [heq] at hcompleted ⊢
    cases budget with
    | zero => cases hcompleted
    | succ budget => exact Loads.congr (hm.write_manifest rfl) rfl
  rw [heq] at hcompleted ⊢
  have hversion : ((m.swept c.now).removeAll gone).version = m.version :=
    PrivateAppManifest.removeAll_version _ _
  cases budget with
  | zero => cases hcompleted
  | succ budget =>
    cases budget with
    | zero => cases hcompleted
    | succ budget =>
      exact Loads.congr (v := v.write _) (hm.write_manifest hversion) rfl

theorem exec_returned {call : Call} (h : (call.exec v).2 = .returned reply) :
    ∃ plan, call.op.plan call.toCircumstances v = .ok plan ∧ reply = plan.reply ∧
      (call.exec v).1 = (Vault.perform call.removed v plan.actions call.budget).1 ∧
      (Vault.perform call.removed v plan.actions call.budget).2 = true := by
  obtain ⟨error, hexec⟩ | ⟨plan, hplan, hexec, hreply⟩ := call.exec_plan v
  · rw [hexec] at h
    cases h
  · rw [hreply] at h
    split at h
    case isTrue hcompleted =>
      exact ⟨plan, hplan, (Outcome.returned.inj h).symm, hexec, hcompleted⟩
    case isFalse => cases h

/-- What an operation leaves that prunes and goes through. -/
theorem exec_prunes {call : Call}
    (h : (call.exec v).2 = .returned reply) (hload : v.loadManifest call.now = .ok m)
    (hasked : call.prunes m = some asked) :
    Loads (call.exec v).1 (asked.pruneCache call.limit call.order call.now).1 := by
  obtain ⟨plan, hplan, -, hexec, hcompleted⟩ := exec_returned h
  obtain ⟨found, hfound, hplanned⟩ := Op.plan_eq_ok hplan
  cases hload.symm.trans hfound
  have hm : Loads v m := ⟨_, hload⟩
  rw [hexec]
  generalize plan.actions = actions at hplanned hcompleted
  generalize plan.reply = reply at hplanned
  rw [Call.prunes] at hasked
  generalize call.op = op at hplanned hasked
  cases hplanned with
  | nothing op reply passes => cases op with
    | putValue => cases passes
    | finishBlob => cases passes
    | cleanup => cases passes
    | _ => cases hasked
  | putValue key value retention ttlSeconds expiresAt expiry =>
    simp only [expiry] at hasked
    cases hasked
    cases hbudget : call.budget with
    | zero =>
      rw [hbudget] at hcompleted
      cases hcompleted
    | succ budget =>
      rw [hbudget] at hcompleted
      have hfile : Loads (v.write (.value key value)) m := hm.congr rfl
      exact perform_saveAndPrune_completed hfile hcompleted rfl
  | finishBlob blobId entry valid found =>
    simp only [found, Option.map_some] at hasked
    cases hasked
    exact perform_saveAndPrune_completed hm hcompleted rfl
  | cleanup =>
    cases hasked
    exact perform_cleanup_completed hm hcompleted
  | _ => cases hasked

/-- The operation is meant to remove the value. -/
def Op.RemovesValue (key : String) (e : PrivateValueEntry) : Op → Prop
  | .deleteValue other => other = key
  | .prepareShutdown => e.retention = .deleteOnShutdown
  | _ => False

/-- The operation is meant to remove the blob. -/
def Op.RemovesBlob (blobId : String) (e : PrivateBlobEntry) : Op → Prop
  | .abortBlob other => other = blobId
  | .prepareShutdown => e.retention = .deleteOnShutdown
  | _ => False

/-- Only a lookup of another key can come to nothing. -/
private theorem lookup_insert_eq_none {β : Type} {l : AList fun _ : String => β} {a b : String}
    {x : β} (h : (l.insert a x).lookup b = none) : l.lookup b = none := by
  by_cases hab : b = a
  · subst hab
    cases (AList.lookup_insert _).symm.trans h
  · exact (AList.lookup_insert_ne hab).symm.trans h

private theorem lookup_filterEntries_eq_none {β : Type} {p : String → β → Bool}
    {l : AList fun _ : String => β} {a : String} {x : β} (h : (l.filterEntries p).lookup a = none)
    (hx : l.lookup a = some x) : p a x = false := by
  by_contra hp
  have hkept : (l.filterEntries p).lookup a = some x :=
    AList.lookup_filterEntries_eq_some.mpr ⟨Bool.eq_true_of_not_eq_false hp, hx⟩
  cases hkept.symm.trans h

/-- Without pruning nothing goes but what the operation is meant to remove. -/
theorem Planned.keeps (hplanned : Planned c m op actions reply)
    (hsaved : op.savedAt = none) (hcleanup : op ≠ .cleanup)
    (hmem : .write (.manifest new) ∈ actions) :
    (∀ key e, m.values.lookup key = some e → new.values.lookup key = none → op.RemovesValue key e) ∧
    ∀ blobId e, m.blobs.lookup blobId = some e → new.blobs.lookup blobId = none →
      op.RemovesBlob blobId e := by
  have hsame : ∀ {β : Type} {l : AList fun _ : String => β} {a : String} {x : β} {P : Prop},
      l.lookup a = some x → l.lookup a = none → P := fun hx hnone => nomatch hx.symm.trans hnone
  cases hplanned with
  | nothing => cases hmem
  | putValue => cases hsaved
  | finishBlob => cases hsaved
  | cleanup => exact absurd rfl hcleanup
  | deleteValue key =>
    obtain rfl : new = _ := by simpa using hmem
    refine ⟨fun other e he hgone => ?_, fun _ _ he hgone => hsame he hgone⟩
    by_contra hother
    exact hsame he ((AList.lookup_erase_ne (Ne.symm hother)).symm.trans hgone)
  | abortBlob blobId =>
    obtain rfl : new = _ := by simpa using hmem
    refine ⟨fun _ _ he hgone => hsame he hgone, fun other e he hgone => ?_⟩
    by_contra hother
    exact hsame he ((AList.lookup_erase_ne (Ne.symm hother)).symm.trans hgone)
  | prepareShutdown =>
    obtain rfl : new = _ := by simpa using hmem
    refine ⟨fun key e he hgone => ?_, fun blobId e he hgone => ?_⟩
    · have hdropped := of_decide_eq_false (lookup_filterEntries_eq_none hgone he)
      exact not_not.mp hdropped
    · have hdropped := of_decide_eq_false (lookup_filterEntries_eq_none hgone he)
      exact not_not.mp hdropped
  | accessValue | renewValue =>
    obtain rfl : new = _ := by simpa using hmem
    exact ⟨fun _ _ he hgone => hsame he (lookup_insert_eq_none hgone),
      fun _ _ he hgone => hsame he hgone⟩
  | beginBlob | appendBlob | accessBlob | renewBlob =>
    obtain rfl : new = _ := by simpa using hmem
    exact ⟨fun _ _ he hgone => hsame he hgone,
      fun _ _ he hgone => hsame he (lookup_insert_eq_none hgone)⟩

theorem Planned.not_pruning {call : Call}
    (hplanned : Planned call.toCircumstances m call.op actions reply)
    (hmem : .write (.manifest new) ∈ actions) (hasked : call.prunes m = none) :
    call.op.savedAt = none ∧ call.op ≠ .cleanup := by
  rw [Call.prunes] at hasked
  generalize call.op = op at hplanned hasked
  cases hplanned with
  | nothing => cases hmem
  | putValue key value retention ttlSeconds expiresAt expiry =>
    simp only [expiry] at hasked
    cases hasked
  | finishBlob blobId entry valid found =>
    simp only [found, Option.map_some] at hasked
    cases hasked
  | cleanup => cases hasked
  | _ => exact ⟨rfl, fun h => nomatch h⟩

theorem exec_keeps {call : Call} (hload : v.loadManifest call.now = .ok m)
    (hm' : Loads (call.exec v).1 m') (hasked : call.prunes m = none) :
    (∀ key e, m.values.lookup key = some e → m'.values.lookup key = none →
      call.op.RemovesValue key e) ∧
    ∀ blobId e, m.blobs.lookup blobId = some e → m'.blobs.lookup blobId = none →
      call.op.RemovesBlob blobId e := by
  have hm : Loads v m := ⟨_, hload⟩
  obtain hold | ⟨found, plan, new, hplan, hfound, hplanned, hmem, hnew⟩ := call.exec_manifest v
  · obtain ⟨hvalues, hblobs⟩ := (hm.congr hold).unique hm'
    rw [hvalues, hblobs]
    exact ⟨fun _ _ he hgone => (nomatch he.symm.trans hgone),
      fun _ _ he hgone => (nomatch he.symm.trans hgone)⟩
  cases hload.symm.trans hfound
  have hwritten : Loads (call.exec v).1 new :=
    ⟨0, loadManifest_stored hnew ((hplanned.version hmem).trans hm.version)⟩
  obtain ⟨hvalues, hblobs⟩ := hwritten.unique hm'
  rw [hvalues, hblobs]
  obtain ⟨hsaved, hcleanup⟩ := hplanned.not_pruning hmem hasked
  exact hplanned.keeps hsaved hcleanup hmem

/-! ## What stays -/

variable {order : Order}

/-- A new object stays if there is room for it and those that are evicted after it. -/
theorem not_evicted
    (hroom : ∀ before after, m.inEvictionOrder order = before ++ candidate :: after →
      candidate.bytes + (after.map Candidate.bytes).sum ≤ limit)
    {dead kept : List Candidate} (hevicted : m.Evicted limit dead kept)
    (horder : dead ++ kept = m.inEvictionOrder order) : candidate ∉ dead := by
  intro hmem
  obtain ⟨before, after, rfl⟩ := List.append_of_mem hmem
  have hsplit : m.inEvictionOrder order = before ++ candidate :: (after ++ kept) := by
    rw [← horder, List.append_assoc, List.cons_append]
  have hfits := hroom before (after ++ kept) hsplit
  have hover := hevicted.least before candidate after rfl
  rw [List.map_append, List.sum_append] at hfits
  omega

theorem pruneCache_keepsValue
    (hroom : ∀ candidate, candidate.isValue key = true → ∀ before after,
      m.inEvictionOrder order = before ++ candidate :: after →
        candidate.bytes + (after.map Candidate.bytes).sum ≤ limit) :
    (m.pruneCache limit order now).1.values.lookup key = m.values.lookup key := by
  obtain ⟨-, heq⟩ | ⟨dead, kept, hevicted, horder, heq⟩ := m.pruneCache_cases limit order now
  · rw [heq]
  · rw [heq]
    refine (m.removeAll_values_lookup dead key).trans (if_neg fun hany => ?_)
    obtain ⟨candidate, hmem, hkey⟩ := List.any_eq_true.mp hany
    exact not_evicted (hroom candidate hkey) hevicted horder hmem

theorem pruneCache_keepsBlob
    (hroom : ∀ candidate, candidate.isBlob blobId = true → ∀ before after,
      m.inEvictionOrder order = before ++ candidate :: after →
        candidate.bytes + (after.map Candidate.bytes).sum ≤ limit) :
    (m.pruneCache limit order now).1.blobs.lookup blobId = m.blobs.lookup blobId := by
  obtain ⟨-, heq⟩ | ⟨dead, kept, hevicted, horder, heq⟩ := m.pruneCache_cases limit order now
  · rw [heq]
  · rw [heq]
    refine (m.removeAll_blobs_lookup dead blobId).trans (if_neg fun hany => ?_)
    obtain ⟨candidate, hmem, hid⟩ := List.any_eq_true.mp hany
    exact not_evicted (hroom candidate hid) hevicted horder hmem

variable {expiresAt ttlSeconds : Option UInt64}

theorem ephemeralExpiry_live {ttl : UInt64}
    (h : ephemeralExpiry ttl now = .ok expiresAt) (hclock : now ≠ 18446744073709551615) :
    isExpired expiresAt now = false := by
  rw [ephemeralExpiry] at h
  split at h
  case isFalse => cases h
  case isTrue hbounds =>
  cases h
  refine decide_eq_false fun hle => ?_
  have hleast : 3600 ≤ ttl.toNat := UInt64.le_iff_toNat_le.mp hbounds.1
  have htoNat := UInt64.le_iff_toNat_le.mp hle
  have hsize := now.toNat_lt
  have hnow : now.toNat ≠ 18446744073709551615 := fun heq => hclock (UInt64.toNat_inj.mp heq)
  rw [saturatingAdd_toNat] at htoNat
  omega

variable {retention : PrivateRetention}

/-- What is put does not expire in the moment it is put. -/
theorem expiryFor_live (h : expiryFor retention ttlSeconds now = .ok expiresAt)
    (hclock : retention ≠ .persistent → retention ≠ .cache → now ≠ 18446744073709551615) :
    isExpired expiresAt now = false := by
  cases retention with
  | persistent =>
    cases h
    rfl
  | cache =>
    cases h
    rfl
  | temporary =>
    cases ttlSeconds with
    | none => cases h
    | some ttl => exact ephemeralExpiry_live h (hclock nofun nofun)
  | deleteOnShutdown => exact ephemeralExpiry_live h (hclock nofun nofun)

/-- What is put can be read until it expires. -/
theorem put_readable {call : Call} {value : Bytes} (h : (call.exec v).2 = .returned reply)
    (hop : call.op = .putValue key value retention ttlSeconds) (hfrugal : call.Frugal v) :
    ∃ entry, reply = .value entry ∧ isExpired entry.expiresAt call.now = false ∧
      ∀ c : Circumstances, isExpired entry.expiresAt c.now = false →
        readBack c (call.exec v).1 key = .ok (.found (some (entry.accessed c.now, value))) := by
  obtain ⟨plan, hplan, rfl, hexec, hcompleted⟩ := exec_returned h
  obtain ⟨m, hload, hplanned⟩ := Op.plan_eq_ok hplan
  have hm : Loads v m := ⟨_, hload⟩
  have hroom := hfrugal.room m
  have hclock := hfrugal.clock key value retention ttlSeconds hop
  rw [hop] at hplan
  obtain ⟨hkey, -⟩ := putValue_checked hplan
  rw [hexec]
  generalize plan.actions = actions at hplanned hcompleted
  generalize plan.reply = reply at hplanned
  rw [hop] at hplanned
  cases hplanned with
  | nothing _ _ passes => cases passes
  | putValue key value retention ttlSeconds expiresAt expiry =>
    refine ⟨_, rfl, expiryFor_live expiry hclock, fun c hlive => ?_⟩
    have hasked : call.prunes m = some
        (m.putEntry (newEntry m key value retention expiresAt call.now) call.now) := by
      simp only [Call.prunes, hop, expiry]
    have hleft : ((m.putEntry (newEntry m key value retention expiresAt call.now)
        call.now).pruneCache call.limit call.order call.now).1.values.lookup key =
          some (newEntry m key value retention expiresAt call.now) := by
      refine (pruneCache_keepsValue fun candidate hcandidate => ?_).trans
        (newEntry_lookup m key value retention expiresAt call.now)
      refine hroom _ candidate hload hasked ?_
      rw [hop]
      exact hcandidate
    cases hbudget : call.budget with
    | zero =>
      rw [hbudget] at hcompleted
      cases hcompleted
    | succ budget =>
      cases budget with
      | zero =>
        rw [hbudget] at hcompleted
        cases hcompleted
      | succ budget =>
        have hfile : Loads (v.write (.value key value)) m := hm.congr rfl
        have hput : Loads (putVault v m key value
            (newEntry m key value retention expiresAt call.now) call.now)
            (m.putEntry (newEntry m key value retention expiresAt call.now) call.now) :=
          hfile.write_manifest rfl
        obtain ⟨m', hm', hkept, hsame⟩ :=
          perform_prune_new hput call.limit call.order call.now call.removed budget
        have hentry := (hsame (.inr (Option.isSome_of_eq_some hleft))).trans
          (newEntry_lookup m key value retention expiresAt call.now)
        have hwritten : (putVault v m key value (newEntry m key value retention expiresAt
            call.now) call.now).valueFiles key = some value :=
          Function.update_self _ _ _
        exact readBack_found hm' hkey hentry ((hkept _ hentry).2.trans hwritten) rfl hlive

/-- What is finished can be read until it expires. -/
theorem finish_readable {call : Call} (h : (call.exec v).2 = .returned reply)
    (hop : call.op = .finishBlob blobId) (hfrugal : call.Frugal v) (hm : Loads v m)
    (hsound : BlobsSound v m) :
    ∃ d, reply = .blob d ∧ isExpired d.expiresAt call.now = false ∧
      ∀ (c : Circumstances) (offset length : Nat), isExpired d.expiresAt c.now = false →
        offset + length ≤ d.totalBytes → length ≤ maxPrivateBlobReadBytes →
          ∃ d' bytes, (readBlobRange c (call.exec v).1 blobId offset length).map Plan.reply =
            .ok (.range d' bytes) ∧ bytes.length = length := by
  obtain ⟨plan, hplan, rfl, -, -⟩ := exec_returned h
  rw [hop] at hplan
  obtain ⟨found, entry, hvalid, hload, hfound, hlive, hreply⟩ := finishBlob_eq_ok hplan
  refine ⟨_, hreply, hlive, fun c offset length hlater hrange hlength => ?_⟩
  obtain ⟨asked, hasked, hentry⟩ : ∃ asked, call.prunes found = some asked ∧
      asked.blobs.lookup blobId = some
        { entry with complete := true, updatedAt := call.now, lastAccessedAt := call.now } := by
    simp only [Call.prunes, hop, hfound, Option.map_some]
    exact ⟨_, rfl, AList.lookup_insert _⟩
  have hpruned := exec_prunes h hload hasked
  have hleft : (asked.pruneCache call.limit call.order call.now).1.blobs.lookup blobId = some
      { entry with complete := true, updatedAt := call.now, lastAccessedAt := call.now } := by
    refine (pruneCache_keepsBlob fun candidate hcandidate => ?_).trans hentry
    refine hfrugal.room found asked candidate hload hasked ?_
    rw [hop]
    exact hcandidate
  obtain ⟨after, hafter, hblobs⟩ := call.exec_sound hm hsound
  have hsoundEntry := hblobs blobId _ (by rw [(hpruned.unique hafter).2]; exact hleft)
  obtain ⟨bytes, hread, hbytes⟩ := readRange_length hsoundEntry hrange
  exact ⟨_, bytes, readBlobRange_found hpruned hvalid hleft rfl hlater hlength hread, hbytes⟩

/-! ## Runs -/

/-- The vault of an application, with the limit of the cache. -/
def cachedSystem (limit : Nat) : LabelledSystem Vault Call :=
  vaultSystem.restrict fun _ call => call.limit = limit

theorem cache_within {v : Vault} (reached : ((cachedSystem limit).restrict
    fun v call => call.Frugal v).Reachable v) :
    ∃ m, Loads v m ∧ m.cacheBytes ≤ limit ∧ BlobsSound v m := by
  induction reached with
  | start hinit =>
    rw [show _ = Vault.empty from hinit]
    exact ⟨.default 0, ⟨0, rfl⟩, Nat.zero_le _, fun blobId e he => by cases he⟩
  | next call _ hstep ih =>
    obtain ⟨hfrugal, rfl, rfl⟩ := hstep
    obtain ⟨m, hm, hfits, hsound⟩ := ih
    obtain ⟨m', hm', hfits'⟩ := exec_fits hm hfits hfrugal
    obtain ⟨after, hafter, hsound'⟩ := call.exec_sound hm hsound
    refine ⟨m', hm', hfits', ?_⟩
    rw [BlobsSound, (hafter.unique hm').2]
    exact hsound'

/-- In a run whose steps all meet the condition the cache fits its limit, and what a put or a finish
returns can be read. Whatever the run, what is evicted was in the cache and accessed no later than
what stays there, and an operation that does not prune removes nothing that it is not meant to. -/
theorem cache_fits_and_reads {v : Vault} (reached : ((cachedSystem limit).restrict
    fun v call => call.Frugal v).Reachable v) :
    (∀ m, Loads v m → m.cacheBytes ≤ limit) ∧
      (∀ call : Call, call.limit = limit → call.Frugal v →
        ∀ reply, (call.exec v).2 = .returned reply →
          (∀ m', Loads (call.exec v).1 m' → m'.cacheBytes ≤ limit) ∧
          (∀ key value retention ttlSeconds, call.op = .putValue key value retention ttlSeconds →
              ∃ entry, reply = .value entry ∧ isExpired entry.expiresAt call.now = false ∧
                ∀ c : Circumstances, isExpired entry.expiresAt c.now = false →
                  readBack c (call.exec v).1 key =
                    .ok (.found (some (entry.accessed c.now, value)))) ∧
          ∀ blobId, call.op = .finishBlob blobId →
            ∃ d, reply = .blob d ∧ isExpired d.expiresAt call.now = false ∧
              ∀ (c : Circumstances) (offset length : Nat), isExpired d.expiresAt c.now = false →
                offset + length ≤ d.totalBytes → length ≤ maxPrivateBlobReadBytes → ∃ d' bytes,
                    (readBlobRange c (call.exec v).1 blobId offset length).map Plan.reply =
                      .ok (.range d' bytes) ∧ bytes.length = length) ∧
      ∀ (v : Vault) (call : Call) (reply : Reply), (call.exec v).2 = .returned reply →
        ∀ m m', v.loadManifest call.now = .ok m → Loads (call.exec v).1 m' →
          (∀ asked, call.prunes m = some asked → PrunedTo asked m') ∧
          (call.prunes m = none →
            (∀ key e, m.values.lookup key = some e → m'.values.lookup key = none →
              call.op.RemovesValue key e) ∧
            ∀ blobId e, m.blobs.lookup blobId = some e → m'.blobs.lookup blobId = none →
              call.op.RemovesBlob blobId e) := by
  obtain ⟨m, hm, hfits, hsound⟩ := cache_within reached
  refine ⟨fun other hother => ?_, fun call hlimit hfrugal reply hreturned => ⟨?_, ?_, ?_⟩, ?_⟩
  · obtain ⟨hvalues, hblobs⟩ := hm.unique hother
    rw [cacheBytes_congr hvalues hblobs]
    exact hfits
  · intro m' hm'
    subst hlimit
    obtain ⟨after, hafter, hroom⟩ := exec_fits hm hfits hfrugal
    obtain ⟨hvalues, hblobs⟩ := hafter.unique hm'
    rw [cacheBytes_congr hvalues hblobs]
    exact hroom
  · intro key value retention ttlSeconds hop
    exact put_readable hreturned hop hfrugal
  · intro blobId hop
    exact finish_readable hreturned hop hfrugal hm hsound
  · intro v call reply hreturned m m' hload hm'
    refine ⟨fun asked hasked => ?_, fun hasked => exec_keeps hload hm' hasked⟩
    obtain ⟨hvalues, hblobs⟩ := (exec_prunes hreturned hload hasked).unique hm'
    exact (pruneCache_pruned asked _ _ _).congr hvalues hblobs

/-! ## A blob that is larger than the cache -/

namespace FullSample

def videoId : String := "0123456789abcdef0123456789abcdef"

def chunk (size : Nat) : Bytes := List.replicate size 0

def call (op : Op) : Call where
  toCircumstances := TornSample.circumstances 100
  op := op
  budget := 3
  removed := { values := fun _ => false, chunks := fun _ _ => false }

/-- A blob with some chunks. -/
def filled (size : Nat) (retention : PrivateRetention) : Nat → Vault
  | 0 => ((call (.beginBlob videoId "video" retention none)).exec .empty).1
  | n + 1 => ((call (.appendBlob videoId (chunk size))).exec (filled size retention n)).1

def entry (size : Nat) (retention : PrivateRetention) (n : Nat) : PrivateBlobEntry where
  blobId := videoId
  contentType := "video"
  totalBytes := size * n
  chunks := (List.range n).map fun i => ⟨UInt32.ofNat i, size⟩
  complete := false
  retention := retention
  expiresAt := none
  createdAt := 100
  updatedAt := 100
  lastAccessedAt := 100

def manifest (entry : PrivateBlobEntry) : PrivateAppManifest where
  version := manifestVersion
  values := ∅
  blobs := (∅ : AList fun _ : String => PrivateBlobEntry).insert videoId entry
  updatedAt := 100

theorem videoId_valid : validateBlobId videoId = .ok () := by decide +kernel

variable {size : Nat} {retention : PrivateRetention} {n : Nat}

theorem chunk_length : (chunk size).length = size := List.length_replicate

theorem entry_length : (entry size retention n).chunks.length = n := by
  simp [entry]

/-- Every chunk is appended, up to more than the cache holds. -/
theorem filled_manifest (hsize : 0 < size ∧ size ≤ 262144)
    (hretention : retention = .persistent ∨ retention = .cache) (hn : n ≤ 4097) :
    (filled size retention n).manifest = .stored (manifest (entry size retention n)) := by
  induction n with
  | zero =>
    obtain rfl | rfl := hretention
    · rfl
    · rfl
  | succ n ih =>
    have hload : (filled size retention n).loadManifest 100 = .ok (manifest (entry size retention n)) :=
      loadManifest_stored (ih (Nat.le_of_succ_le hn)) rfl
    have hfound : (manifest (entry size retention n)).blobs.lookup videoId =
        some (entry size retention n) :=
      AList.lookup_insert _
    have hchecked : checkAppend (manifest (entry size retention n)) videoId (chunk size) 100 =
        .ok (entry size retention n) := by
      have hroom : ¬ ((entry size retention n).totalBytes + (chunk size).length > maxPrivateBlobBytes ∨
          (entry size retention n).chunks.length ≥ 4294967296) := by
        have hbytes : size * n ≤ 262144 * 4097 := Nat.mul_le_mul hsize.2 (Nat.le_of_succ_le hn)
        rw [chunk_length, entry_length, maxPrivateBlobBytes, entry]
        dsimp only
        omega
      rw [checkAppend, hfound]
      dsimp only
      rw [if_neg hroom]
      rfl
    have hfits : ¬ (chunk size = [] ∨ (chunk size).length > maxPrivateBlobAppendBytes) := by
      rw [← List.length_eq_zero_iff, chunk_length, maxPrivateBlobAppendBytes]
      omega
    have happended : ({ entry size retention n with
        chunks := (entry size retention n).chunks ++
          [⟨UInt32.ofNat (entry size retention n).chunks.length, (chunk size).length⟩]
        totalBytes := (entry size retention n).totalBytes + (chunk size).length
        updatedAt := 100
        lastAccessedAt := 100 } : PrivateBlobEntry) = entry size retention (n + 1) := by
      rw [chunk_length, entry_length]
      simp [entry, List.range_succ, Nat.mul_succ]
    have hmanifest : ({ manifest (entry size retention n) with
        blobs := (manifest (entry size retention n)).blobs.insert videoId (entry size retention (n + 1))
        updatedAt := 100 } : PrivateAppManifest) = manifest (entry size retention (n + 1)) := by
      simp [manifest]
    have hplan :
      appendBlob (TornSample.circumstances 100) (filled size retention n) videoId (chunk size) =
        .ok { actions :=
                [.write (.chunk videoId (UInt32.ofNat (entry size retention n).chunks.length)
                    (chunk size)),
                  .write (.manifest (manifest (entry size retention (n + 1))))]
              reply := .blob (entry size retention (n + 1)).descriptor } := by
      rw [← hmanifest, ← happended, appendBlob, videoId_valid]
      rw [if_neg hfits]
      simp only [TornSample.circumstances, hload, hchecked]
    rw [filled, Call.exec]
    simp only [call, Op.plan, hplan]
    rfl

theorem manifest_cacheBytes (entry : PrivateBlobEntry) :
    (manifest entry).cacheBytes = blobWeight entry := by
  rw [cacheBytes_eq_total, manifest, AList.total_insert]
  exact Nat.zero_add (blobWeight entry)

/-- The blob with all its chunks. -/
def whole (size : Nat) (retention : PrivateRetention) (n : Nat) : PrivateBlobEntry :=
  { entry size retention n with complete := true }

theorem finish_plan (hsize : 0 < size ∧ size ≤ 262144)
    (hretention : retention = .persistent ∨ retention = .cache) (hn : n ≤ 4097) :
    (call (.finishBlob videoId)).op.plan (call (.finishBlob videoId)).toCircumstances
        (filled size retention n) =
      .ok { actions := saveAndPrune (TornSample.circumstances 100) (manifest (whole size retention n))
            reply := .blob (whole size retention n).descriptor } := by
  have hload : (filled size retention n).loadManifest 100 = .ok (manifest (entry size retention n)) :=
    loadManifest_stored (filled_manifest hsize hretention hn) rfl
  have hfound : (manifest (entry size retention n)).blobs.lookup videoId =
      some (entry size retention n) :=
    AList.lookup_insert _
  have hlive : liveBlob (manifest (entry size retention n)) videoId 100 =
      .ok (entry size retention n) := by
    rw [liveBlob, hfound]
    rfl
  have hmanifest : ({ manifest (entry size retention n) with
      blobs := (manifest (entry size retention n)).blobs.insert videoId (whole size retention n)
      updatedAt := 100 } : PrivateAppManifest) = manifest (whole size retention n) := by
    simp [manifest]
  rw [← hmanifest]
  simp only [call, Op.plan, finishBlob, videoId_valid, TornSample.circumstances, hload, hlive]
  rfl

theorem saveAndPrune_writes (c : Circumstances) (m : PrivateAppManifest) :
    (saveAndPrune c m).countP Action.isWrite ≤ 2 := by
  rw [saveAndPrune]
  obtain ⟨-, heq⟩ | ⟨dead, kept, -, -, heq⟩ := m.pruneCache_cases c.limit c.order c.now
  · rw [heq]
    exact Nat.le_succ 1
  · rw [heq]
    exact Nat.le_refl 2

/-- Finishing the blob succeeds. -/
theorem finish_returned (hsize : 0 < size ∧ size ≤ 262144)
    (hretention : retention = .persistent ∨ retention = .cache) (hn : n ≤ 4097) :
    ((call (.finishBlob videoId)).exec (filled size retention n)).2 =
        .returned (.blob (whole size retention n).descriptor) ∧
      Loads ((call (.finishBlob videoId)).exec (filled size retention n)).1
        ((manifest (whole size retention n)).pruneCache defaultPrivateCacheLimitBytes
          (TornSample.circumstances 100).order 100).1 := by
  have hm : Loads (filled size retention n) (manifest (entry size retention n)) :=
    ⟨100, loadManifest_stored (filled_manifest hsize hretention hn) rfl⟩
  obtain ⟨hexec, hreply⟩ := Call.exec_of_plan (finish_plan hsize hretention hn)
  have hcompleted : (Vault.perform (call (.finishBlob videoId)).removed (filled size retention n)
      (saveAndPrune (TornSample.circumstances 100) (manifest (whole size retention n))) 3).2 = true :=
    (perform_completed _ _ _ _).mpr ((saveAndPrune_writes _ _).trans (Nat.le_succ 2))
  refine ⟨hreply.trans (if_pos hcompleted), ?_⟩
  rw [hexec]
  exact perform_saveAndPrune_completed hm hcompleted rfl

/-- A blob that belongs to the cache and is larger is not there once it is finished. -/
theorem finish_unreadable (hsize : 0 < size ∧ size ≤ 262144) (hn : n ≤ 4097)
    (hover : defaultPrivateCacheLimitBytes < size * n) :
    readBlobRange (TornSample.circumstances 100)
      ((call (.finishBlob videoId)).exec (filled size .cache n)).1 videoId 0 1 =
        .error .blobNotFound := by
  have hm := (finish_returned hsize (.inr rfl) hn).2
  obtain ⟨found, hload, -, hblobs⟩ := hm.at 100
  have hgone : found.blobs.lookup videoId = none := by
    rw [hblobs]
    by_contra hthere
    obtain ⟨e, he⟩ := Option.ne_none_iff_exists'.mp hthere
    obtain rfl := Option.some.inj ((AList.lookup_insert _).symm.trans
      ((within_pruneCache _ _ _ _).blobs videoId e he))
    have hfits := (manifest (whole size .cache n)).pruneCache_fits defaultPrivateCacheLimitBytes
      (TornSample.circumstances 100).order 100
    have hweight : blobWeight (whole size .cache n) = size * n := blobWeight_cached rfl rfl
    rw [cacheBytes_eq_total, AList.total_erase blobWeight he] at hfits
    omega
  rw [readBlobRange, videoId_valid]
  rw [if_neg (by decide)]
  simp only [TornSample.circumstances, hload, hgone]

theorem filled_reachable (size : Nat) (retention : PrivateRetention) (n : Nat) :
    (cachedSystem defaultPrivateCacheLimitBytes).Reachable (filled size retention n) := by
  induction n with
  | zero => exact .next (call (.beginBlob videoId "video" retention none)) (.start rfl) ⟨rfl, rfl⟩
  | succ n ih => exact .next (call (.appendBlob videoId (chunk size))) ih ⟨rfl, rfl⟩

/-- The vault once the blob is finished that is to stay. -/
def stored (size n : Nat) : Vault := ((call (.finishBlob videoId)).exec (filled size .persistent n)).1

theorem stored_loads (hsize : 0 < size ∧ size ≤ 262144) (hn : n ≤ 4097) :
    Loads (stored size n) (manifest (whole size .persistent n)) := by
  have hm := (finish_returned hsize (.inl rfl) hn).2
  have hfits : (manifest (whole size .persistent n)).cacheBytes ≤ defaultPrivateCacheLimitBytes := by
    rw [manifest_cacheBytes, blobWeight_other (.inr PrivateRetention.noConfusion)]
    exact Nat.zero_le _
  rwa [PrivateAppManifest.pruneCache, if_pos hfits] at hm

/-- The blob is renewed into the cache, whatever its size. -/
theorem renew_returned (hsize : 0 < size ∧ size ≤ 262144) (hn : n ≤ 4097) :
    ((call (.renewBlob videoId .cache none)).exec (stored size n)).2 =
        .returned (.blob (whole size .cache n).descriptor) ∧
      ∃ m, Loads ((call (.renewBlob videoId .cache none)).exec (stored size n)).1 m ∧
        m.cacheBytes = size * n := by
  obtain ⟨found, hload, hvalues, hblobs⟩ := (stored_loads hsize hn).at 100
  have hfound : found.blobs.lookup videoId = some (whole size .persistent n) := by
    rw [hblobs]
    exact AList.lookup_insert _
  have hlive : liveBlob found videoId 100 = .ok (whole size .persistent n) := by
    rw [liveBlob, hfound]
    rfl
  have hplan : (call (.renewBlob videoId .cache none)).op.plan
      (call (.renewBlob videoId .cache none)).toCircumstances (stored size n) =
        .ok { actions := [.write (.manifest { found with
                blobs := found.blobs.insert videoId (whole size .cache n), updatedAt := 100 })]
              reply := .blob (whole size .cache n).descriptor } := by
    simp only [call, Op.plan, renewBlob, videoId_valid, TornSample.circumstances, hload, hlive,
      expiryFor]
    rfl
  obtain ⟨hexec, hreply⟩ := Call.exec_of_plan hplan
  refine ⟨hreply, { found with
    blobs := found.blobs.insert videoId (whole size .cache n), updatedAt := 100 }, ?_, ?_⟩
  · rw [hexec]
    exact Loads.write_manifest ⟨100, hload⟩ rfl
  have hsame : found.blobs.insert videoId (whole size .cache n) =
      (manifest (whole size .cache n)).blobs := by
    rw [hblobs]
    simp [manifest]
  have hbytes : ({ found with
      blobs := found.blobs.insert videoId (whole size .cache n), updatedAt := 100 } :
        PrivateAppManifest).cacheBytes = (manifest (whole size .cache n)).cacheBytes :=
    cacheBytes_congr hvalues hsame
  exact hbytes.trans ((manifest_cacheBytes _).trans (blobWeight_cached rfl rfl))

theorem stored_reachable (size n : Nat) :
    (cachedSystem defaultPrivateCacheLimitBytes).Reachable (stored size n) :=
  .next (call (.finishBlob videoId)) (filled_reachable size .persistent n) ⟨rfl, rfl⟩

theorem renew_overfills (hsize : 0 < size ∧ size ≤ 262144) (hn : n ≤ 4097)
    (hover : defaultPrivateCacheLimitBytes < size * n) :
    ∃ m, Loads ((call (.renewBlob videoId .cache none)).exec (stored size n)).1 m ∧
      defaultPrivateCacheLimitBytes < m.cacheBytes := by
  obtain ⟨-, m, hm, hbytes⟩ := renew_returned hsize hn
  exact ⟨m, hm, hbytes ▸ hover⟩

/-- A blob of more bytes than the cache holds is evicted in the moment it is finished, and is in the
cache, over the limit, once it is renewed. -/
theorem large_blob_breaks_cache :
    ((cachedSystem defaultPrivateCacheLimitBytes).Reachable (filled 262144 .cache 4097) ∧
      ((call (.finishBlob videoId)).exec (filled 262144 .cache 4097)).2 =
        .returned (.blob (whole 262144 .cache 4097).descriptor) ∧
      readBlobRange (TornSample.circumstances 100)
        ((call (.finishBlob videoId)).exec (filled 262144 .cache 4097)).1 videoId 0 1 =
          .error .blobNotFound) ∧
    (cachedSystem defaultPrivateCacheLimitBytes).Reachable (stored 262144 4097) ∧
      ((call (.renewBlob videoId .cache none)).exec (stored 262144 4097)).2 =
        .returned (.blob (whole 262144 .cache 4097).descriptor) ∧
      ∃ m, Loads ((call (.renewBlob videoId .cache none)).exec (stored 262144 4097)).1 m ∧
        defaultPrivateCacheLimitBytes < m.cacheBytes := by
  have hover : defaultPrivateCacheLimitBytes < 262144 * 4097 := by
    rw [defaultPrivateCacheLimitBytes]
    omega
  have hsize : 0 < 262144 ∧ 262144 ≤ 262144 := ⟨by omega, Nat.le_refl _⟩
  have hn : 4097 ≤ 4097 := Nat.le_refl 4097
  exact ⟨⟨filled_reachable 262144 .cache 4097, (finish_returned hsize (.inr rfl) hn).1,
    finish_unreadable hsize hn hover⟩, stored_reachable 262144 4097, (renew_returned hsize hn).1,
    renew_overfills hsize hn hover⟩

/-- A value for the cache. -/
def cached : Call := call (.putValue "k" [1, 2] .cache none)

/-- A put that leaves the cache below its limit meets the condition, and its value is read. -/
theorem cached_value_reads : ∃ entry, readBack (TornSample.circumstances 100) (cached.exec .empty).1
    "k" = .ok (.found (some (entry, [1, 2]))) := by
  have hasked : ∀ m asked, Vault.empty.loadManifest 100 = .ok m → cached.prunes m = some asked →
      asked.cacheBytes = 2 := by
    intro m asked hload hasked
    cases hload
    cases hasked
    rfl
  have hfrugal : cached.Frugal .empty := by
    refine ⟨fun _ _ _ _ hop => (nomatch hop), fun _ _ _ _ hop => (nomatch hop), ?_, ?_,
      fun _ _ _ _ _ _ _ => by decide⟩
    · intro m asked hload hprunes hover
      rw [hasked m asked hload hprunes] at hover
      exact absurd hover (by decide)
    intro m asked candidate hload hprunes _ before after horder
    have htotal := asked.cacheBytes_eq
    rw [hasked m asked hload hprunes, ← ((asked.inEvictionOrder_perm _).map _).sum_nat, horder,
      List.map_append, List.sum_append, List.map_cons, List.sum_cons] at htotal
    have hlimit : cached.limit = 1073741824 := rfl
    omega
  have hput := (@cache_fits_and_reads cached.limit .empty (.start rfl)).2.1 cached rfl hfrugal
  obtain ⟨entry, -, hlive, hread⟩ := (hput _ rfl).2.1 "k" [1, 2] .cache none rfl
  exact ⟨_, hread (TornSample.circumstances 100) hlive⟩

end FullSample

end VeilKnit.PrivateStorage
