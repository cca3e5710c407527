import VeilKnit.Library.AssociationList
import VeilKnit.Mailbox.CustodianStores

/-!
# Runs of a custodian

A run starts from stores that were loaded from any records and takes observations,
filings, expiry passes, demotions and commits in any order. Along every run the stores
stay routed, as long as no commit fails over pages that dividing disturbs.
-/

namespace VeilKnit.Mailbox

open Library Fallible

variable {D T σ : Type} [DigestScheme D]

/-! ## Commits and routing -/

section Commits

variable [DecidableEq D] [PageEntry T] (config : MailboxConfig) (dht : DhtOps σ)

/-- Whatever index a commit reads back, its pages validate. -/
theorem triple_writeGeneration_loads (store : CowPagedStore D T) (plan : GenerationPlan D)
    (createdAt : UInt64) (transactions : List PendingCowTransaction) :
    Triple (fun _ => True) (writeGeneration dht store plan createdAt transactions)
      (fun r _ => LoadedFrom r.1 r.2) (fun _ _ => True) := by
  apply triple_bind triple_trivial
  intro _
  apply triple_bind triple_trivial
  intro _
  apply triple_bind triple_trivial
  intro _
  dsimp only
  split
  · exact triple_throw fun _ _ => trivial
  · apply triple_bind triple_trivial
    intro index w _
    apply triple_bind (triple_loadAndValidateOwnedPages (T := T) (readsAs_any dht) index) _ w trivial
    intro pages
    exact triple_pure fun _ h => h.2.loadedFrom

/-- A commit that succeeds leaves a routed store. One that fails does too, unless it has
divided pages that dividing disturbs. -/
theorem commitInner_routed {store : CowPagedStore D T} (h : Routed store.pages)
    (clock : CommitClock) (transactions : List PendingCowTransaction) (world : σ) :
    let outcome := commitInner dht store config clock transactions world
    Routed outcome.store.pages ∨
      ((∀ b, outcome.result ≠ .ok b) ∧ outcome.store = store.rebalanceDirtyPages config ∧
        ¬ Undisturbed config store.pages) := by
  -- The store that a failure leaves is routed exactly if nothing was disturbed.
  have hfailed : ∀ error, Routed (store.rebalanceDirtyPages config).pages ∨
      ((∀ b, (Except.error error : Except MailboxError Bool) ≠ .ok b) ∧
        store.rebalanceDirtyPages config = store.rebalanceDirtyPages config ∧
        ¬ Undisturbed config store.pages) := by
    intro error
    by_cases hundisturbed : Undisturbed config store.pages
    · exact .inl (routed_rebalance h hundisturbed)
    · exact .inr ⟨fun _ => nofun, rfl, hundisturbed⟩
  unfold commitInner
  split
  case isTrue => exact .inl h
  case isFalse hpending =>
  dsimp only
  split
  case h_1 error _ => exact hfailed error
  case h_2 plan _ =>
    split
    case h_1 error _ _ => exact hfailed error
    case h_2 index pages world' hwrite =>
      have hloaded := (triple_writeGeneration_loads dht _ _ _ _).ok trivial hwrite
      split <;> exact .inl hloaded.routed

end Commits

section Undisturbed

variable [PageEntry T] {config : MailboxConfig}

/-- Dividing a store into at most one page has disturbed nothing. -/
theorem undisturbed_of_rebalance {store : CowPagedStore D T} (hrouted : Routed store.pages)
    (h : (store.rebalanceDirtyPages config).pages.length ≤ 1) : Undisturbed config store.pages := by
  rw [CowPagedStore.rebalanceDirtyPages, List.length_insertionSort, List.length_flatMap] at h
  -- Every page gives at least one.
  have hpos : ∀ page : LocalPage D T, 1 ≤ (page.rebalance config).length := by
    intro page
    rw [LocalPage.rebalance]
    split
    · rw [List.length_map]
      exact List.length_pos_iff.mpr (splitWithin_ne_nil _ _)
    · simp
  rcases hpages : store.pages with _ | ⟨page, _ | ⟨later, rest⟩⟩
  · exact ⟨by simp, by simp, List.Pairwise.nil⟩
  · refine ⟨by simp, fun page' hpage' hover => ?_, List.pairwise_singleton _ _⟩
    obtain rfl := List.mem_singleton.mp hpage'
    by_contra hwhole
    -- A page that is cut gives at least two.
    have hstrict := hrouted.strict page' (hpages ▸ List.mem_singleton_self page')
    rw [hpages, List.map_singleton, List.sum_singleton, LocalPage.rebalance_eq hstrict, if_pos hover,
      List.length_map, splitEntries] at h
    have hentries : page'.entries.length = page'.entries.length - 1 + 1 := by omega
    rw [hentries, splitWithin, if_neg hwhole, List.length_append] at h
    have hpieces : ∀ entries : List T,
        0 < (splitWithin D config (page'.entries.length - 1) entries).length :=
      fun entries => List.length_pos_iff.mpr (splitWithin_ne_nil _ entries)
    have hleft := hpieces (page'.entries.take (page'.entries.length / 2))
    have hright := hpieces (page'.entries.drop (page'.entries.length / 2))
    omega
  · rw [hpages] at h
    have h₁ := hpos page
    have h₂ := hpos later
    simp at h
    omega

end Undisturbed

namespace Custodian

/-- A commit has failed and left one of the stores divided where that disturbs it. -/
def LeftDisturbed (config : MailboxConfig) (c : Custodian D) : Prop :=
  (∃ store : CowPagedStore D (MailboxRecipientEntry D),
      Mailbox.Routed store.pages ∧ ¬ Undisturbed config store.pages ∧
        c.mailboxStore = some (store.rebalanceDirtyPages config)) ∨
    ∃ (recipient : RecordKey) (store : CowPagedStore D MailSourcePointer),
      Mailbox.Routed store.pages ∧ ¬ Undisturbed config store.pages ∧
        c.overflowStores.lookup recipient = some (store.rebalanceDirtyPages config)

end Custodian

/-! ## Operations that keep the stores routed -/

/-- The operation keeps a sound custodian sound, unless a commit fails over pages that
dividing disturbs. -/
def Careful {α : Type} (config : MailboxConfig) (P : Custodian D → Prop) (x : Custodial D σ α)
    (Q : α → Custodian D → Prop) : Prop :=
  Triple (fun s => P s.1) x (fun a s => Q a s.1) fun _ s => s.1.Sound ∨ s.1.LeftDisturbed config

section Rules

variable {α β : Type} {config : MailboxConfig} {P : Custodian D → Prop}

theorem Careful.bind {x : Custodial D σ α} {f : α → Custodial D σ β}
    {M : α → Custodian D → Prop} {Q : β → Custodian D → Prop} (hx : Careful config P x M)
    (hf : ∀ a, Careful config (M a) (f a) Q) : Careful config P (x >>= f) Q :=
  triple_bind hx hf

theorem careful_pure {a : α} {Q : α → Custodian D → Prop} (h : ∀ c, P c → Q a c) :
    Careful config P (pure a : Custodial D σ α) Q :=
  triple_pure fun s hs => h s.1 hs

theorem careful_throw {error : MailboxError} {Q : α → Custodian D → Prop}
    (h : ∀ c, P c → c.Sound) : Careful config P (Fallible.throw error : Custodial D σ α) Q :=
  triple_throw fun s hs => .inl (h s.1 hs)

theorem careful_lift {r : Except MailboxError α} (h : ∀ c, P c → c.Sound) :
    Careful config P (Fallible.lift r : Custodial D σ α) fun _ => P :=
  triple_lift (fun _ _ _ hs => hs) fun _ _ s hs => .inl (h s.1 hs)

variable {x : Fallible MailboxError σ α}

/-- What happens outside of the custodian tells at most something about its result. -/
theorem careful_outside {R : α → Prop}
    (hsound : ∀ c, P c → c.Sound) (h : ∀ w a w', x w = (.ok a, w') → R a) :
    Careful config P (outside x : Custodial D σ α) fun a c => P c ∧ R a := by
  rintro ⟨c, w⟩ hs
  simp only [outside]
  rcases hx : x w with ⟨error | a, w'⟩
  · exact .inl (hsound c hs)
  · exact ⟨hs, h w a w' hx⟩

theorem careful_outside_any (hsound : ∀ c, P c → c.Sound) :
    Careful config P (outside x : Custodial D σ α) fun _ => P := by
  apply (careful_outside (R := fun _ => True) hsound fun _ _ _ _ => trivial).weaken
    (fun _ h => h) (fun _ _ h => h.1) fun _ _ h => h

theorem careful_attempt :
    Careful config P (attempt (outside x) : Custodial D σ (Except MailboxError α)) fun _ => P :=
  fun _ hs => hs

theorem careful_inspect {f : Custodian D → α} :
    Careful config P (inspect f : Custodial D σ α) fun a c => P c ∧ f c = a :=
  fun _ hs => ⟨hs, rfl⟩

theorem careful_read {f : Custodian D → α} :
    Careful config P (inspect f : Custodial D σ α) fun _ => P :=
  fun _ hs => hs

theorem careful_update {f : Custodian D → Custodian D} {Q : Custodian D → Prop}
    (h : ∀ c, P c → Q (f c)) : Careful config P (update f : Custodial D σ Unit) fun _ => Q :=
  fun s hs => h s.1 hs

theorem careful_ensure {condition : Bool} {error : MailboxError} (h : ∀ c, P c → c.Sound) :
    Careful config P (ensure condition error : Custodial D σ Unit) fun _ => P := by
  unfold ensure
  split
  · exact careful_pure fun _ hc => hc
  · exact careful_throw h

theorem careful_traverse {f : α → Custodial D σ β} {as : List α}
    (h : ∀ a, Careful config P (f a) fun _ => P) :
    Careful config P (Fallible.traverse f as) fun _ => P :=
  triple_traverse (I := fun _ _ (s : Custodian D × σ) => P s.1) fun _ a _ _ _ => h a

/-- After an operation the custodian is sound, unless a commit has disturbed it. -/
theorem Careful.after {x : Custodial D σ α} (h : Careful config Custodian.Sound x
    fun _ => Custodian.Sound) {c : Custodian D} (hc : c.Sound) {w : σ}
    (hleft : ¬ (x (c, w)).2.1.LeftDisturbed config) : (x (c, w)).2.1.Sound := by
  have hx := h (c, w) hc
  rcases hrun : x (c, w) with ⟨error | a, s⟩
  · rw [hrun] at hx hleft
    exact hx.resolve_right hleft
  · rw [hrun] at hx
    exact hx

end Rules

namespace Custodian

variable {c : Custodian D}

theorem Sound.upsertEntry (h : c.Sound) (entry : MailboxRecipientEntry D) :
    (c.upsertEntry entry).Sound := by
  refine ⟨fun store hstore => ?_, h.overflow, h.cached⟩
  obtain ⟨old, hold, rfl⟩ := Option.map_eq_some_iff.mp hstore
  exact routed_upsert (h.mailbox old hold) entry

theorem Sound.insertOverflow (h : c.Sound) (recipient : RecordKey)
    {overflow : CowPagedStore D MailSourcePointer} (hrouted : Routed overflow.pages) :
    { c with overflowStores := c.overflowStores.insert recipient overflow }.Sound := by
  exact ⟨h.mailbox, AList.forall_lookup_insert hrouted h.overflow, h.cached⟩

theorem Sound.eraseOverflow (h : c.Sound) (recipient : RecordKey) :
    { c with overflowStores := c.overflowStores.erase recipient }.Sound := by
  refine ⟨h.mailbox, fun r store hstore => ?_, h.cached⟩
  by_cases hr : r = recipient
  · subst hr
    rw [AList.lookup_erase] at hstore
    cases hstore
  · rw [AList.lookup_erase_ne hr] at hstore
    exact h.overflow r store hstore

theorem strict_evictOldest (excess : Nat) {requests : List ServiceRequest}
    (h : KeyedList.Strict requestKey requests) :
    KeyedList.Strict requestKey (evictOldest excess requests) := by
  induction excess generalizing requests with
  | zero => exact h
  | succ excess ih =>
    rw [evictOldest]
    split
    · exact h
    · exact ih (h.remove _)

theorem Sound.cacheServiceRequest (h : c.Sound) (config : MailboxConfig) (now : UInt64)
    (request : ServiceRequest) : (c.cacheServiceRequest config now request).Sound := by
  have hkept : KeyedList.Strict requestKey
      (c.recentServiceRequests.filter fun existing => now < existing.expiresAt) :=
    List.Pairwise.filter _ h.cached
  exact ⟨h.mailbox, h.overflow, strict_evictOldest _ (hkept.upsert request)⟩

theorem Sound.expireServiceRequests (h : c.Sound) (now : UInt64) :
    (c.expireServiceRequests now).Sound :=
  ⟨h.mailbox, h.overflow, List.Pairwise.filter _ h.cached⟩

end Custodian

section Operations

variable [DecidableEq D] (env : Surroundings σ) (config : MailboxConfig)

theorem careful_commitMailbox :
    Careful config Custodian.Sound (commitMailbox env config : Custodial D σ Unit)
      fun _ => Custodian.Sound := by
  rintro ⟨c, w⟩ hs
  simp only [commitMailbox]
  cases hstore : c.mailboxStore with
  | none => exact hs
  | some store =>
    have hcommit := commitInner_routed config (env.dht store.packageIndex)
      (hs.mailbox store hstore) (commitClock env w).1 c.pendingTransactions (commitClock env w).2
    dsimp only at hcommit ⊢
    generalize commitInner (env.dht store.packageIndex) store config _ _ _ = outcome at hcommit
    -- Where the new pages are routed, so is the custodian that holds them.
    have hsound (hrouted : Routed outcome.store.pages) : Custodian.Sound { c with
        mailboxStore := some outcome.store
        pendingTransactions := outcome.transactions } := by
      refine ⟨fun s hs' => ?_, hs.overflow, hs.cached⟩
      cases hs'
      exact hrouted
    rcases hresult : outcome.result with error | b
    · rcases hcommit with hrouted | ⟨_, hdivided, hdisturbed⟩
      · exact .inl (hsound hrouted)
      · exact .inr (.inl ⟨store, hs.mailbox store hstore, hdisturbed, congrArg some hdivided⟩)
    · rcases hcommit with hrouted | ⟨hfails, _⟩
      · exact hsound hrouted
      · exact absurd hresult (hfails b)

theorem careful_commitOverflow (recipient : RecordKey) :
    Careful config Custodian.Sound (commitOverflow env config recipient : Custodial D σ Unit)
      fun _ => Custodian.Sound := by
  rintro ⟨c, w⟩ hs
  simp only [commitOverflow]
  cases hstore : c.overflowStores.lookup recipient with
  | none => exact hs
  | some store =>
    have hcommit := commitInner_routed config (env.dht store.packageIndex)
      (hs.overflow _ store hstore) (commitClock env w).1 c.pendingTransactions
      (commitClock env w).2
    dsimp only at hcommit ⊢
    generalize commitInner (env.dht store.packageIndex) store config _ _ _ = outcome at hcommit
    have hsound (hrouted : Routed outcome.store.pages) : Custodian.Sound { c with
        overflowStores := c.overflowStores.insert recipient outcome.store
        pendingTransactions := outcome.transactions } :=
      have h := hs.insertOverflow recipient hrouted
      ⟨h.mailbox, h.overflow, h.cached⟩
    rcases hresult : outcome.result with error | b
    · rcases hcommit with hrouted | ⟨_, hdivided, hdisturbed⟩
      · exact .inl (hsound hrouted)
      · refine .inr (.inr ⟨recipient, store, hs.overflow _ store hstore, hdisturbed, ?_⟩)
        exact (AList.lookup_insert _).trans (congrArg some hdivided)
    · rcases hcommit with hrouted | ⟨hfails, _⟩
      · exact hsound hrouted
      · exact absurd hresult (hfails b)

variable {store : CowPagedStore D MailSourcePointer}

theorem careful_commitNewOverflow (package : Nat) (hstore : Routed store.pages) :
    Careful config Custodian.Sound (commitNewOverflow env config package store : Custodial D σ _)
      fun committed c => c.Sound ∧ Routed committed.pages := by
  rintro ⟨c, w⟩ hs
  have hcommit := commitInner_routed config (env.dht package) hstore
    (commitClock env w).1 c.pendingTransactions (commitClock env w).2
  simp only [commitNewOverflow]
  dsimp only at hcommit
  generalize commitInner (env.dht package) store config _ _ _ = outcome at hcommit
  -- A failed commit is not kept, so it disturbs nothing.
  have hsound : Custodian.Sound { c with pendingTransactions := outcome.transactions } :=
    ⟨hs.mailbox, hs.overflow, hs.cached⟩
  rcases hresult : outcome.result with error | b
  · exact .inl hsound
  · refine ⟨hsound, hcommit.resolve_right fun hfails => ?_⟩
    exact hfails.1 b hresult

omit [DecidableEq D] [DigestScheme D] in
theorem routed_upserts (sources : List MailSourcePointer) (h : Routed store.pages) :
    Routed (sources.foldl CowPagedStore.upsert store).pages := by
  induction sources generalizing store with
  | nil => exact h
  | cons source sources ih => exact ih (routed_upsert h source)

theorem careful_promote (recipient : RecordKey) (sources : List MailSourcePointer) :
    Careful config Custodian.Sound
      (promoteRecipientToOverflow env config recipient sources : Custodial D σ _)
      fun _ => Custodian.Sound := by
  apply (careful_outside_any fun _ hc => hc).bind
  intro epoch
  apply (careful_outside_any fun _ hc => hc).bind
  intro package
  apply (careful_outside_any fun _ hc => hc).bind
  intro recordKey
  apply (careful_outside (R := fun store => Routed store.pages) (fun _ hc => hc)
    fun _ _ _ hload => (loadOwned_routed _ hload).1).bind
  rintro store ⟨c, w⟩ ⟨hc, hrouted⟩
  apply (careful_commitNewOverflow env config package (routed_upserts sources hrouted)).bind _ _ hc
  intro committed
  dsimp only
  split
  · exact careful_throw fun _ hc => hc.1
  apply (careful_update (Q := Custodian.Sound) ?_).bind
  · intro _
    apply (careful_outside_any fun _ hc => hc).bind
    intro _
    exact careful_pure fun _ hc => hc
  · rintro c ⟨hc, hcommitted⟩
    have h := hc.insertOverflow recipient hcommitted
    exact ⟨h.mailbox, h.overflow, h.cached⟩

theorem careful_storePointer (recipient : RecordKey) (pointer : MailSourcePointer)
    (storage : RecipientSourceStorage D) :
    Careful config Custodian.Sound
      (storePointer env config recipient pointer storage : Custodial D σ _)
      fun _ => Custodian.Sound := by
  cases storage with
  | inline sources =>
    apply careful_inspect.bind
    intro records
    split
    · split
      · exact careful_throw fun _ hc => hc.1
      · rintro s ⟨hc, _⟩
        apply (careful_promote env config recipient _).bind _ s hc
        intro promoted
        exact careful_pure fun _ hc => hc
    · exact careful_pure fun _ hc => hc.1
  | overflow recordKey overflowEpoch entryCount serializedSize digest since =>
    apply careful_inspect.bind
    intro found
    cases found with
    | none => exact careful_throw fun _ hc => hc.1
    | some store =>
      dsimp only
      apply (careful_update (Q := Custodian.Sound) ?_).bind
      · intro _
        split
        · exact careful_throw fun _ hc => hc
        apply careful_inspect.bind
        intro known
        cases known with
        | none => exact careful_throw fun _ hc => hc.1
        | some known =>
          dsimp only
          split
          · exact careful_throw fun _ hc => hc.1
          · exact careful_pure fun _ hc => hc.1
      · rintro c ⟨hc, hlookup⟩
        exact hc.insertOverflow recipient (routed_upsert (hc.overflow _ _ hlookup) pointer)

omit [DecidableEq D] in
theorem careful_putEntry (entry : MailboxRecipientEntry D) :
    Careful config Custodian.Sound (putEntry entry : Custodial D σ Unit)
      fun _ => Custodian.Sound := by
  rintro ⟨c, w⟩ hc
  simp only [putEntry]
  cases c.mailboxStore with
  | none => exact .inl hc
  | some _ => exact hc.upsertEntry entry

theorem careful_addPointer (recipient : RecordKey) (pointer : MailSourcePointer) :
    Careful config Custodian.Sound
      (addPointerToCustodianMailbox env config recipient pointer : Custodial D σ Unit)
      fun _ => Custodian.Sound := by
  apply careful_read.bind
  intro current
  apply careful_read.bind
  intro existing
  apply (careful_ensure fun _ hc => hc).bind
  intro _
  apply (careful_read.bind fun quota => careful_lift fun _ hc => hc).bind
  intro _
  apply (careful_outside_any fun _ hc => hc).bind
  intro now
  apply (careful_storePointer env config recipient pointer _).bind
  intro stored
  apply (careful_putEntry config _).bind
  intro _
  apply (careful_update (Q := Custodian.Sound) ?_).bind
  · intro _
    unfold settlePromotion
    split
    · apply (careful_commitMailbox env config).bind
      intro _
      exact careful_outside_any fun _ hc => hc
    · exact careful_pure fun _ hc => hc
  · intro c hc
    split
    · exact ⟨hc.mailbox, hc.overflow, hc.cached⟩
    · exact hc

theorem careful_filePointer (recipient : RecordKey) (pointer : MailSourcePointer) :
    Careful config Custodian.Sound (filePointer env config recipient pointer : Custodial D σ Unit)
      fun _ => Custodian.Sound := by
  apply careful_read.bind
  intro present
  split
  · exact careful_addPointer env config recipient pointer
  · exact careful_pure fun _ hc => hc

omit [DecidableEq D] in
theorem careful_recordVerified (request : ServiceRequest) : Careful config Custodian.Sound
      (recordVerifiedServiceRequest env config request : Custodial D σ Unit)
      fun _ => Custodian.Sound := by
  apply (careful_outside_any fun _ hc => hc).bind
  intro now
  exact careful_update fun c hc => hc.cacheServiceRequest config now request

theorem careful_observeCandidates (outbox : ObservedOutbox) (records : List OutgoingRecord) :
    Careful config Custodian.Sound
      (observeCandidates env config outbox records : Custodial D σ Unit)
      fun _ => Custodian.Sound := by
  apply (careful_traverse fun message => ?_).bind
  · intro _
    apply (careful_traverse fun request => ?_).bind
    · intro _
      exact careful_pure fun _ hc => hc
    unfold observeServiceRequest
    split
    · apply careful_attempt.bind
      intro result
      cases result with
      | error _ => exact careful_pure fun _ hc => hc
      | ok _ =>
        apply (careful_outside_any fun _ hc => hc).bind
        intro now
        apply (careful_recordVerified env config request).bind
        intro _
        exact careful_filePointer env config _ _
    · exact careful_pure fun _ hc => hc
  unfold observeMessage
  split
  · apply careful_attempt.bind
    intro result
    cases result with
    | error _ => exact careful_pure fun _ hc => hc
    | ok _ =>
      apply (careful_outside_any fun _ hc => hc).bind
      intro now
      apply (careful_outside_any fun _ hc => hc).bind
      intro _
      exact careful_filePointer env config _ _
  · exact careful_pure fun _ hc => hc

omit [DecidableEq D] in
theorem careful_observeServicePointer (pointer : MailSourcePointer)
    (advertisement : Option MailboxAdvertisement) (records : Option (List OutgoingRecord)) :
    Careful config Custodian.Sound
      (observeServicePointer env config pointer advertisement records : Custodial D σ Unit)
      fun _ => Custodian.Sound := by
  unfold observeServicePointer
  split
  · split
    · split
      · apply careful_attempt.bind
        intro result
        cases result with
        | error _ => exact careful_pure fun _ hc => hc
        | ok _ => exact careful_recordVerified env config _
      · exact careful_pure fun _ hc => hc
    · exact careful_pure fun _ hc => hc
  · exact careful_pure fun _ hc => hc

omit [DecidableEq D] in
theorem Custodian.Sound.changeOverflowRecord {c : Custodian D} (h : c.Sound)
    (recipient : RecordKey) (f : OverflowLocalState → OverflowLocalState) :
    (c.changeOverflowRecord recipient f).Sound := by
  unfold Custodian.changeOverflowRecord
  split
  · exact ⟨h.mailbox, h.overflow, h.cached⟩
  · exact h

theorem careful_considerDemotion (now : UInt64) (entry : MailboxRecipientEntry D) :
    Careful config Custodian.Sound (considerDemotion env config now entry : Custodial D σ Unit)
      fun _ => Custodian.Sound := by
  unfold considerDemotion
  split
  · exact careful_pure fun _ hc => hc
  split
  · apply (careful_update fun c hc => Custodian.Sound.changeOverflowRecord hc _ _).bind
    intro _
    split
    · exact careful_update fun c hc => hc.upsertEntry _
    apply careful_read.bind
    intro found
    cases found with
    | none => exact careful_throw fun _ hc => hc
    | some overflow =>
      apply (careful_update fun c hc => Custodian.Sound.upsertEntry hc _).bind
      intro _
      apply (careful_commitMailbox env config).bind
      intro _
      apply (careful_update fun c hc => Custodian.Sound.changeOverflowRecord hc _ _).bind
      intro _
      apply careful_update
      intro c hc
      have h := hc.eraseOverflow entry.recipientMainDht
      exact ⟨h.mailbox, h.overflow, h.cached⟩
  · apply (careful_update fun c hc => Custodian.Sound.changeOverflowRecord hc _ _).bind
    intro _
    exact careful_update fun c hc => hc.upsertEntry _

theorem careful_considerOverflowDemotion (now : UInt64) :
    Careful config Custodian.Sound (considerOverflowDemotion env config now : Custodial D σ Unit)
      fun _ => Custodian.Sound := by
  apply careful_read.bind
  intro entries
  apply (careful_traverse fun entry => careful_considerDemotion env config now entry).bind
  intro _
  exact careful_pure fun _ hc => hc

theorem careful_flush (order : List RecordKey) :
    Careful config Custodian.Sound (flushCustodianStores env config order : Custodial D σ Unit)
      fun _ => Custodian.Sound := by
  apply (careful_traverse fun recipient => careful_commitOverflow env config recipient).bind
  intro _
  exact careful_commitMailbox env config

end Operations

/-! ## The custodian as a system -/

section System

variable [DecidableEq D] (env : Surroundings σ) (config : MailboxConfig)

/-- What a custodian can be asked to do. The state of the world is that of the moment:
nothing is assumed about how it changes in between. -/
inductive CustodianEvent (σ : Type)
  | observeSenderOutbox (outbox : ObservedOutbox) (world : σ)
  | observeServicePointer (pointer : MailSourcePointer)
      (advertisement : Option MailboxAdvertisement) (records : Option (List OutgoingRecord))
      (world : σ)
  | filePointer (recipient : RecordKey) (pointer : MailSourcePointer) (world : σ)
  | expireCustodianEntries (now : UInt64)
  | expireServiceRequests (now : UInt64)
  | considerOverflowDemotion (now : UInt64) (world : σ)
  | flush (order : List RecordKey) (world : σ)
  | withdrawOwn (messageId : Id32)

/-- Forget a cached request of our own. -/
def Custodian.forgetRequest (c : Custodian D) (messageId : Id32) : Custodian D :=
  { c with
    recentServiceRequests := KeyedList.remove requestKey messageId c.recentServiceRequests }

def Custodian.next (c : Custodian D) : CustodianEvent σ → Custodian D
  | .observeSenderOutbox outbox w => (observeSenderOutbox env config outbox (c, w)).2.1
  | .observeServicePointer pointer advertisement records w =>
    (observeServicePointer env config pointer advertisement records (c, w)).2.1
  | .filePointer recipient pointer w => (filePointer env config recipient pointer (c, w)).2.1
  | .expireCustodianEntries now => c.expireCustodianEntries config now
  | .expireServiceRequests now => c.expireServiceRequests now
  | .considerOverflowDemotion now w => (considerOverflowDemotion env config now (c, w)).2.1
  | .flush order w => (flushCustodianStores env config order (c, w)).2.1
  | .withdrawOwn messageId => c.forgetRequest messageId

/-- A custodian that has just loaded its stores, from records in any state. -/
structure Custodian.Loaded (c : Custodian D) : Prop where
  mailbox : ∀ store, c.mailboxStore = some store → ∃ name package w w',
    loadOwned (env.dht package) name package w = (.ok store, w')
  overflow : ∀ recipient store, c.overflowStores.lookup recipient = some store →
    ∃ name package w w', loadOwned (env.dht package) name package w = (.ok store, w')
  cache : c.recentServiceRequests = []

def custodianSystem : LabelledSystem (Custodian D) (CustodianEvent σ) where
  initial := Custodian.Loaded env
  step c event c' := c' = c.next env config event

/-- No commit of the step fails over pages that dividing disturbs. -/
def CommitsUndisturbed (c : Custodian D) (event : CustodianEvent σ) : Prop :=
  ¬ (c.next env config event).LeftDisturbed config

variable {env config} {c : Custodian D}

theorem Custodian.Loaded.sound (h : c.Loaded env) : c.Sound := by
  constructor
  case mailbox =>
    intro store hstore
    obtain ⟨_, _, _, _, hload⟩ := h.mailbox store hstore
    exact (loadOwned_routed _ hload).1
  case overflow =>
    intro recipient store hstore
    obtain ⟨_, _, _, _, hload⟩ := h.overflow recipient store hstore
    exact (loadOwned_routed _ hload).1
  case cached =>
    rw [h.cache]
    exact List.Pairwise.nil

omit [DecidableEq D] in
/-- Withdrawing takes away pointers and requests of accepted withdrawals only. -/
theorem Custodian.withdraw_spec (ids : IdScheme) (advertisement : MailboxAdvertisement)
    (h : c.Sound) (withdrawal : OutgoingWithdrawal) :
    (c.withdraw ids advertisement withdrawal).Sound ∧
      (∀ r p, (c.withdraw ids advertisement withdrawal).Holds r p → c.Holds r p) ∧
      (∀ r p, c.Holds r p →
        (acceptsWithdrawal ids advertisement withdrawal → p.messageId ≠ withdrawal.messageId) →
        (c.withdraw ids advertisement withdrawal).Holds r p) ∧
      ∀ q ∈ c.recentServiceRequests,
        (acceptsWithdrawal ids advertisement withdrawal → q.requestId ≠ withdrawal.messageId) →
        q ∈ (c.withdraw ids advertisement withdrawal).recentServiceRequests := by
  unfold Custodian.withdraw
  split
  case isTrue haccept =>
    have hforgotten : (c.forgetRequest withdrawal.messageId).Sound :=
      ⟨h.mailbox, h.overflow, h.cached.remove _⟩
    obtain ⟨hsound, hshrinks, hkeeps, hcache⟩ :=
      Custodian.removePointerEverywhere_spec hforgotten withdrawal.messageId
    refine ⟨hsound, hshrinks, fun r p hp hne => hkeeps r p hp (hne haccept), ?_⟩
    intro q hq hne
    have hq' : q ∈ (c.forgetRequest withdrawal.messageId).recentServiceRequests :=
      (KeyedList.mem_remove h.cached).mpr ⟨hq, hne haccept⟩
    rw [← hcache] at hq'
    exact hq'
  case isFalse => exact ⟨h, fun _ _ hp => hp, fun _ _ hp _ => hp, fun _ hq _ => hq⟩

omit [DecidableEq D] in
/-- Going through withdrawals takes away pointers and requests of accepted ones only. -/
theorem Custodian.processWithdrawals_spec (ids : IdScheme) (advertisement : MailboxAdvertisement)
    (records : List OutgoingRecord) (h : c.Sound) :
    (c.processWithdrawals ids advertisement records).Sound ∧
      (∀ r p, (c.processWithdrawals ids advertisement records).Holds r p → c.Holds r p) ∧
      (∀ r p, c.Holds r p →
        (∀ w, .withdrawal w ∈ records → acceptsWithdrawal ids advertisement w →
          p.messageId ≠ w.messageId) →
        (c.processWithdrawals ids advertisement records).Holds r p) ∧
      ∀ q ∈ c.recentServiceRequests,
        (∀ w, .withdrawal w ∈ records → acceptsWithdrawal ids advertisement w →
          q.requestId ≠ w.messageId) →
        q ∈ (c.processWithdrawals ids advertisement records).recentServiceRequests := by
  have hwithdrawals : ∀ w, w ∈ records.filterMap OutgoingRecord.asWithdrawal →
      .withdrawal w ∈ records := by
    intro w hw
    obtain ⟨record, hrecord, has⟩ := List.mem_filterMap.mp hw
    cases record <;> simp [OutgoingRecord.asWithdrawal] at has
    exact has ▸ hrecord
  unfold Custodian.processWithdrawals
  generalize records.filterMap OutgoingRecord.asWithdrawal = withdrawals at hwithdrawals
  induction withdrawals generalizing c with
  | nil => exact ⟨h, fun _ _ hp => hp, fun _ _ hp _ => hp, fun _ hq _ => hq⟩
  | cons withdrawal withdrawals ih =>
    have hmem := hwithdrawals withdrawal List.mem_cons_self
    obtain ⟨hsound, hshrinks, hkeeps, hcache⟩ :=
      Custodian.withdraw_spec ids advertisement h withdrawal
    obtain ⟨hsound', hshrinks', hkeeps', hcache'⟩ := ih hsound fun w hw =>
      hwithdrawals w (List.mem_cons_of_mem _ hw)
    refine ⟨hsound', fun r p hp => hshrinks r p (hshrinks' r p hp), ?_, ?_⟩
    · intro r p hp hne
      exact hkeeps' r p (hkeeps r p hp (hne withdrawal hmem)) hne
    · intro q hq hne
      exact hcache' q (hcache q hq (hne withdrawal hmem)) hne

theorem Custodian.Sound.next (h : c.Sound) {event : CustodianEvent σ}
    (hguard : CommitsUndisturbed env config c event) : (c.next env config event).Sound := by
  cases event with
  | observeSenderOutbox outbox w =>
    apply Careful.after _ h hguard
    apply (careful_outside_any fun _ hc => hc).bind
    intro access
    split
    · exact careful_pure fun _ hc => hc
    apply careful_attempt.bind
    intro result
    cases result with
    | error _ => exact careful_pure fun _ hc => hc
    | ok records =>
      apply (careful_update fun c hc => (Custodian.processWithdrawals_spec env.ids
        outbox.senderAdvertisement records hc).1).bind
      intro _
      exact careful_observeCandidates env config outbox records
  | observeServicePointer pointer advertisement records w =>
    exact (careful_observeServicePointer env config pointer advertisement records).after h hguard
  | filePointer recipient pointer w =>
    exact (careful_filePointer env config recipient pointer).after h hguard
  | expireCustodianEntries now => exact (Custodian.expireCustodianEntries_spec h).1
  | expireServiceRequests now => exact h.expireServiceRequests now
  | considerOverflowDemotion now w =>
    exact (careful_considerOverflowDemotion env config now).after h hguard
  | flush order w => exact (careful_flush env config order).after h hguard
  | withdrawOwn messageId => exact ⟨h.mailbox, h.overflow, h.cached.remove _⟩

theorem sound_invariant :
    ((custodianSystem (D := D) env config).restrict (CommitsUndisturbed env config)).Invariant
      Custodian.Sound where
  initially _ hinit := Custodian.Loaded.sound hinit
  preserved _ _ _ h hstep := hstep.2 ▸ h.next hstep.1

end System

end VeilKnit.Mailbox
