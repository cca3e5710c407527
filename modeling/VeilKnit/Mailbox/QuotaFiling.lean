import VeilKnit.Mailbox.QuotaPasses

/-!
# Filing pointers within the quotas

A pointer is filed under a recipient inline, in the recipient's overflow record, or along
with all of the recipient's pointers in a new overflow record. In each case the ledger
gains the pointer, if it is new, and the counters gain it too.

A promotion has set the count of the new overflow record before it stores what it knows
locally. It has to succeed in that: otherwise the count stays, although the mailbox entry
never names the record.
-/

namespace VeilKnit.Mailbox

open Library Fallible

variable {D σ : Type} [DigestScheme D]

/-! ## Lists of pointers -/

section Pointers

variable {pointer : MailSourcePointer} {sources : List MailSourcePointer}

theorem upsertPointer_absent (h : ∀ s ∈ sources, s.messageId ≠ pointer.messageId) :
    upsertPointer pointer sources = sources ++ [pointer] := by
  induction sources with
  | nil => rfl
  | cons source sources ih =>
    rw [upsertPointer, if_neg (h source List.mem_cons_self), List.cons_append,
      ih fun s hs => h s (List.mem_cons_of_mem _ hs)]

/-- Renewing a pointer keeps identifiers and senders. -/
theorem upsertPointer_present (recipient : RecordKey)
    (h : ∃ s ∈ sources, s.messageId = pointer.messageId) :
    (upsertPointer pointer sources).map MailSourcePointer.messageId =
        sources.map MailSourcePointer.messageId ∧
      ledgerOf recipient (upsertPointer pointer sources) = ledgerOf recipient sources := by
  induction sources with
  | nil => simp at h
  | cons source sources ih =>
    rw [upsertPointer]
    split
    · exact ⟨rfl, rfl⟩
    rename_i hne
    have hrest : ∃ s ∈ sources, s.messageId = pointer.messageId := by
      obtain ⟨s, hs, hid⟩ := h
      rcases List.mem_cons.mp hs with rfl | hs
      · exact absurd hid hne
      · exact ⟨s, hs, hid⟩
    obtain ⟨hids, hledger⟩ := ih hrest
    simp [hids, hledger]

/-- The pointers of an entry after a pointer has been filed inline. -/
def filedInline (pointer : MailSourcePointer) (sources : List MailSourcePointer) :
    List MailSourcePointer :=
  (upsertPointer pointer sources).insertionSort fun a b => a.messageId.val ≤ b.messageId.val

theorem filedInline_perm : (filedInline pointer sources).Perm (upsertPointer pointer sources) :=
  List.perm_insertionSort _ _

/-- What filing adds to a ledger: a new pointer counts, a renewed one does not. -/
def ledgerAdded (isNew : Bool) (recipient : RecordKey) (pointer : MailSourcePointer) :
    Multiset (RecordKey × RecordKey) :=
  if isNew then {(pointer.senderMainDht, recipient)} else 0

theorem filedInline_spec (recipient : RecordKey) (pointer : MailSourcePointer)
    (hids : (sources.map MailSourcePointer.messageId).Nodup) :
    ((filedInline pointer sources).map MailSourcePointer.messageId).Nodup ∧
      ledgerOf recipient (filedInline pointer sources) =
        ledgerAdded (sources.find? fun s => s.messageId = pointer.messageId).isNone recipient
          pointer + ledgerOf recipient sources := by
  rw [ledgerOf_perm _ filedInline_perm, (filedInline_perm.map _).nodup_iff]
  cases hfind : sources.find? fun s => s.messageId = pointer.messageId with
  | none =>
    have habsent : ∀ s ∈ sources, s.messageId ≠ pointer.messageId := by
      simpa using List.find?_eq_none.mp hfind
    rw [upsertPointer_absent habsent]
    refine ⟨?_, by simp [ledgerAdded, ledgerOf_append, add_comm]⟩
    rw [List.map_append, List.nodup_append]
    refine ⟨hids, by simp, ?_⟩
    rintro id hid id' hid' rfl
    obtain ⟨s, hs, rfl⟩ := List.mem_map.mp hid
    exact habsent s hs (by simpa using hid')
  | some existing =>
    have hpresent : ∃ s ∈ sources, s.messageId = pointer.messageId :=
      ⟨existing, List.mem_of_find?_eq_some hfind, by simpa using List.find?_some hfind⟩
    obtain ⟨hsame, hledger⟩ := upsertPointer_present recipient hpresent
    rw [hsame, hledger]
    exact ⟨hids, by simp [ledgerAdded]⟩

/-- The pointers of an overflow record after a pointer has been filed. -/
theorem upsertOverflow_spec (recipient : RecordKey) {store : CowPagedStore D MailSourcePointer}
    (h : store.Kept) (hsender : ∀ existing, store.get pointer.messageId.val = some existing →
      existing.senderMainDht = pointer.senderMainDht) :
    ledgerOf recipient (store.upsert pointer).allEntries =
        ledgerAdded (store.get pointer.messageId.val).isNone recipient pointer +
          ledgerOf recipient store.allEntries ∧
      (store.upsert pointer).allEntries.length =
        (if (store.get pointer.messageId.val).isNone then 1 else 0) +
          store.allEntries.length := by
  -- Both listings are the other pointers with one in front.
  let others := store.allEntries.filter fun p => p.messageId ≠ pointer.messageId
  have hkey : ∀ p : MailSourcePointer, pageKey p ≠ pageKey pointer ↔
      p.messageId ≠ pointer.messageId := fun p => not_congr Subtype.ext_iff.symm
  have hafter : (store.upsert pointer).allEntries.Perm (pointer :: others) := by
    rw [List.perm_ext_iff_of_nodup (h.upsert pointer).nodup]
    · intro p
      rw [mem_upsert h.routed, hkey]
      simp [others]
    · exact List.nodup_cons.mpr ⟨by simp [others], h.nodup.filter _⟩
  rw [ledgerOf_perm _ hafter, hafter.length_eq, ledgerOf_cons, List.length_cons]
  cases hget : store.get pointer.messageId.val with
  | none =>
    have habsent := (get_eq_none_iff h.routed).mp hget
    have hothers : others = store.allEntries := by
      apply List.filter_eq_self.mpr
      intro p hp
      simpa using fun hid => habsent p hp (congrArg Subtype.val hid)
    rw [hothers]
    exact ⟨by simp [ledgerAdded], by simp [add_comm]⟩
  | some existing =>
    obtain ⟨hexisting, hid⟩ := (get_eq_some_iff h.routed).mp hget
    have hbefore : store.allEntries.Perm (existing :: others) := by
      rw [List.perm_ext_iff_of_nodup h.nodup]
      · intro p
        simp only [others, List.mem_cons, List.mem_filter, decide_eq_true_eq]
        constructor
        · intro hp
          by_cases hpid : p.messageId = pointer.messageId
          · left
            exact h.routed.strict_entries.inj hp hexisting
              ((congrArg Subtype.val hpid).trans hid.symm)
          · exact .inr ⟨hp, hpid⟩
        · rintro (rfl | ⟨hp, _⟩)
          · exact hexisting
          · exact hp
      · refine List.nodup_cons.mpr ⟨?_, h.nodup.filter _⟩
        simp [others, Subtype.ext hid]
    rw [ledgerOf_perm _ hbefore, hbefore.length_eq, ledgerOf_cons, hsender existing hget]
    exact ⟨by simp [ledgerAdded], by simp⟩

end Pointers

/-! ## Promotions -/

section Promotions

variable [DecidableEq D] (env : Surroundings σ) (config : MailboxConfig)

/-- The new overflow record of a promotion, before anything is known about it. -/
structure PreparedOverflow (D : Type) where
  overflowEpoch : Id16
  packageIndex : Nat
  recordKey : RecordKey
  store : CowPagedStore D MailSourcePointer

def prepareOverflow (recipient : RecordKey) (sources : List MailSourcePointer) :
    Custodial D σ (PreparedOverflow D) := do
  let epoch ← outside fun w => (.ok (env.randomEpoch w).1, (env.randomEpoch w).2)
  let package ← outside env.createDht
  let recordKey ← outside (env.packageIdToKey package)
  let store ← outside (loadOwned (env.dht package) s!"overflow:{recipient.text}" package)
  let store ← commitNewOverflow env config package (sources.foldl CowPagedStore.upsert store)
  pure { overflowEpoch := epoch, packageIndex := package, recordKey, store }

/-- What a promotion makes known before it stores it. -/
def Custodian.promoted (c : Custodian D) (recipient : RecordKey)
    (prepared : PreparedOverflow D) : Custodian D :=
  { c with
    quotaState := c.quotaState.setOverflowCount prepared.recordKey prepared.store.allEntries.length
    overflowRecords := c.overflowRecords.insert recipient {
      recipientMainDht := recipient
      recordKey := prepared.recordKey
      packageIndex := prepared.packageIndex
      overflowEpoch := prepared.overflowEpoch
      belowInlineThresholdSince := none
      retired := false }
    overflowStores := c.overflowStores.insert recipient prepared.store }

def PreparedOverflow.storage (prepared : PreparedOverflow D) : RecipientSourceStorage D :=
  describeOverflow prepared.recordKey prepared.overflowEpoch prepared.store.allEntries none

def settleOverflow (recipient : RecordKey) (prepared : PreparedOverflow D) :
    Custodial D σ (RecipientSourceStorage D × RecordKey) := do
  if config.activeMessagesPerOverflowRecord < prepared.store.allEntries.length then
    Fallible.throw (.quotaExceeded "messages in one overflow record")
  else
    update fun c => c.promoted recipient prepared
    outside env.persist
    pure (prepared.storage, prepared.recordKey)

/-- A promotion prepares the overflow record, makes it known and stores that. -/
theorem promoteRecipientToOverflow_eq (recipient : RecordKey) (sources : List MailSourcePointer) :
    (promoteRecipientToOverflow env config recipient sources : Custodial D σ _) =
      prepareOverflow env config recipient sources >>= settleOverflow env config recipient := by
  unfold promoteRecipientToOverflow prepareOverflow
  simp only [Fallible.bind_bind]
  rfl

omit [DecidableEq D] in
/-- Filling a store with pointers leaves all of them in it. -/
theorem foldl_upsert_kept (sources : List MailSourcePointer)
    (hids : (sources.map MailSourcePointer.messageId).Nodup)
    {store : CowPagedStore D MailSourcePointer} (h : store.Kept) :
    (sources.foldl CowPagedStore.upsert store).Kept ∧
      (∀ p ∈ sources, p ∈ (sources.foldl CowPagedStore.upsert store).allEntries) ∧
      ∀ p ∈ store.allEntries, p.messageId ∉ sources.map MailSourcePointer.messageId →
        p ∈ (sources.foldl CowPagedStore.upsert store).allEntries := by
  induction sources generalizing store with
  | nil => exact ⟨h, by simp, fun p hp _ => hp⟩
  | cons source sources ih =>
    obtain ⟨hfirst, hrest⟩ := List.nodup_cons.mp hids
    obtain ⟨hkept, hall, hothers⟩ := ih hrest (h.upsert source)
    have hmem := mem_upsert h.routed source
    refine ⟨hkept, fun p hp => ?_, fun p hp hid => ?_⟩
    · rcases List.mem_cons.mp hp with rfl | hp
      · exact hothers p ((hmem p).mpr (.inl rfl)) hfirst
      · exact hall p hp
    · rw [List.map_cons, List.mem_cons, not_or] at hid
      refine hothers p ((hmem p).mpr (.inr ⟨hp, fun hkey => ?_⟩)) hid.2
      exact hid.1 (Subtype.ext hkey)

variable {sources : List MailSourcePointer}

/-- Preparing an overflow record changes nothing about the custodian but the log of its
commits. On success the record holds the pointers. -/
theorem prepareOverflow_spec (free : CollisionFree D) (c : Custodian D) (recipient : RecordKey)
    (hids : (sources.map MailSourcePointer.messageId).Nodup) :
    Triple (fun s => s.1 = c) (prepareOverflow env config recipient sources : Custodial D σ _)
      (fun prepared s => (∃ log, s.1 = { c with pendingTransactions := log }) ∧
        prepared.store.Kept ∧ ∀ p ∈ sources, p ∈ prepared.store.allEntries)
      fun _ s => ∃ log, s.1 = { c with pendingTransactions := log } := by
  have houtside {α : Type} (x : Fallible MailboxError σ α) (R : α → Prop)
      (hR : ∀ w a w', x w = (.ok a, w') → R a) :
      Triple (fun s => s.1 = c) (outside x : Custodial D σ α) (fun a s => s.1 = c ∧ R a)
        fun _ s => ∃ log, s.1 = { c with pendingTransactions := log } := by
    rintro ⟨c', w⟩ rfl
    simp only [outside]
    rcases hx : x w with ⟨error | a, w'⟩
    · exact ⟨c'.pendingTransactions, rfl⟩
    · exact ⟨rfl, hR w a w' hx⟩
  apply triple_bind (houtside _ (fun _ => True) fun _ _ _ _ => trivial)
  intro epoch
  apply triple_bind ((houtside _ (fun _ => True) fun _ _ _ _ => trivial).weaken
    (fun _ hs => hs.1) (fun _ _ h => h) fun _ _ h => h)
  intro package
  apply triple_bind ((houtside _ (fun _ => True) fun _ _ _ _ => trivial).weaken
    (fun _ hs => hs.1) (fun _ _ h => h) fun _ _ h => h)
  intro recordKey
  apply triple_bind ((houtside _ (fun store : CowPagedStore D MailSourcePointer => store.Kept)
    fun w store w' hload => ?_).weaken
    (fun _ hs => hs.1) (fun _ _ h => h) fun _ _ h => h)
  · rintro store ⟨c', w⟩ ⟨rfl, hkept⟩
    obtain ⟨hfilled, hall, _⟩ := foldl_upsert_kept sources hids hkept
    apply triple_bind (M := fun (store : CowPagedStore D MailSourcePointer) s =>
        (∃ log, s.1 = { c' with pendingTransactions := log }) ∧
          store.Kept ∧ ∀ p ∈ sources, p ∈ store.allEntries) (P := fun s => s = (c', w)) ?_ ?_ _ rfl
    · rintro _ rfl
      have hcommit := commitInner_kept free config (env.dht package) hfilled (commitClock env w).1
        c'.pendingTransactions (commitClock env w).2
      simp only [commitNewOverflow]
      dsimp only at hcommit
      generalize commitInner (env.dht package) (sources.foldl CowPagedStore.upsert store) config
        _ _ _ = outcome at hcommit
      rcases hresult : outcome.result with error | b
      · exact ⟨_, rfl⟩
      · rcases hcommit with ⟨hkept', hsame⟩ | ⟨hfails, _⟩
        · exact ⟨⟨_, rfl⟩, hkept', fun p hp => hsame ▸ hall p hp⟩
        · exact absurd hresult (hfails b)
    · intro store'
      exact triple_pure fun _ hs => hs
  · obtain ⟨hrouted, hsound⟩ := loadOwned_routed _ hload
    exact ⟨hrouted, hsound⟩

/-- The pointers are too many or too large for an entry, and there is room for another
overflow record. -/
def Custodian.Promotes (c : Custodian D) (sources : List MailSourcePointer) : Prop :=
  (config.recipientInlinePointerLimit < sources.length ∨
      config.recipientInlineByteLimit < (serializeSources sources).length) ∧
    c.overflowRecords.keys.length < config.maxOverflowDhts

/-- The storage of a recipient's pointers, empty if there are none. -/
def Custodian.currentStorage (c : Custodian D) (recipient : RecordKey) :
    RecipientSourceStorage D :=
  match c.mailboxStore.bind fun store => store.get (fullRecordKeyBytes recipient) with
  | some entry => entry.storage
  | none => .inline []

/-- A prepared overflow record is a new one, which holds the pointers of the recipient
only, and what is known about it gets stored. -/
structure PromotionSettles (c : Custodian D) (sources : List MailSourcePointer)
    (prepared : PreparedOverflow D) (w : σ) : Prop where
  only : ∀ p ∈ prepared.store.allEntries, p ∈ sources
  fresh : ∀ e ∈ c.entries, overflowRecordOf (some e) ≠ some prepared.recordKey
  persisted : (env.persist w).1 = .ok ()

/-- Filing the pointer does not start a promotion that does not settle. -/
def PromotesSafely (c : Custodian D) (recipient : RecordKey) (pointer : MailSourcePointer)
    (w : σ) : Prop :=
  ∀ sources prepared s, c.currentStorage recipient = .inline sources →
    c.Promotes config (filedInline pointer sources) →
    prepareOverflow env config recipient (filedInline pointer sources) (c, w) = (.ok prepared, s) →
      PromotionSettles env c (filedInline pointer sources) prepared s.2

/-! ## Storing a pointer -/

/-- How a pointer is stored under a recipient. -/
inductive PointerStored (c : Custodian D) (recipient : RecordKey) (pointer : MailSourcePointer) :
    RecipientSourceStorage D → RecipientSourceStorage D × Bool → Custodian D → Prop
  | inline {sources : List MailSourcePointer} :
      PointerStored c recipient pointer (.inline sources) (.inline
        (filedInline pointer sources), false) c
  | overflow {recordKey : RecordKey} {overflowEpoch : Id16} {entryCount serializedSize : UInt32}
      {digest : D} {since : Option UInt64} {store : CowPagedStore D MailSourcePointer}
      (lookup : c.overflowStores.lookup recipient = some store) :
      PointerStored c recipient pointer
        (.overflow recordKey overflowEpoch entryCount serializedSize digest since)
        (describeOverflow recordKey overflowEpoch (store.upsert pointer).allEntries none, false)
        { c with overflowStores := c.overflowStores.insert recipient (store.upsert pointer) }
  | promoted {sources : List MailSourcePointer} {prepared : PreparedOverflow D}
      {log : List PendingCowTransaction} (kept : prepared.store.Kept)
      (entries : ∀ p, p ∈ prepared.store.allEntries ↔ p ∈ filedInline pointer sources)
      (fresh : ∀ e ∈ c.entries, overflowRecordOf (some e) ≠ some prepared.recordKey)
      (fits : prepared.store.allEntries.length ≤ config.activeMessagesPerOverflowRecord) :
      PointerStored c recipient pointer (.inline sources) (prepared.storage, true)
        ({ c with pendingTransactions := log }.promoted recipient prepared)

variable {pointer : MailSourcePointer} {recipient : RecordKey}

omit [DecidableEq D] in
/-- Storing a pointer leaves the mailbox alone. -/
theorem PointerStored.mailboxStore {c c' : Custodian D}
    {storage : RecipientSourceStorage D} {stored : RecipientSourceStorage D × Bool}
    (h : PointerStored config c recipient pointer storage stored c') :
    c'.mailboxStore = c.mailboxStore := by
  cases h <;> rfl

/-- Only the log of the commits has changed. -/
def Custodian.SameUpToLog (c c' : Custodian D) : Prop :=
  ∃ log, c' = { c with pendingTransactions := log }

/-- A promotion that settles, or fails before anything is known about it. -/
theorem promote_stored (free : CollisionFree D) {c : Custodian D} {w : σ}
    (hids : ((filedInline pointer sources).map MailSourcePointer.messageId).Nodup)
    (hsafe : ∀ prepared s,
      prepareOverflow env config recipient (filedInline pointer sources) (c, w) =
        (.ok prepared, s) →
        PromotionSettles env c (filedInline pointer sources) prepared s.2) :
    Triple (fun s => s = (c, w))
      (promoteRecipientToOverflow env config recipient (filedInline pointer sources))
      (fun stored s => PointerStored config c recipient pointer (.inline sources) (stored.1, true) s.1)
      fun _ s => c.SameUpToLog s.1 := by
  rw [promoteRecipientToOverflow_eq]
  apply triple_bind (M := fun prepared s => c.SameUpToLog s.1 ∧ prepared.store.Kept ∧
    (∀ p ∈ filedInline pointer sources, p ∈ prepared.store.allEntries) ∧
      PromotionSettles env c (filedInline pointer sources) prepared s.2)
  · rintro _ rfl
    have hspec := prepareOverflow_spec env config free c recipient hids (c, w) rfl
    rcases hprepare : prepareOverflow env config recipient (filedInline pointer sources) (c, w)
      with ⟨error | prepared, s⟩
    · rw [hprepare] at hspec
      exact hspec
    · rw [hprepare] at hspec
      exact ⟨hspec.1, hspec.2.1, hspec.2.2, hsafe prepared s hprepare⟩
  intro prepared
  unfold settleOverflow
  split
  · -- The pointers are too many even for an overflow record.
    exact triple_throw fun _ hs => hs.1
  rename_i hfits
  rintro ⟨c', w'⟩ ⟨⟨log, rfl⟩, hkept, hall, honly, hfresh, hpersisted⟩
  dsimp only at hpersisted
  have hstored : PointerStored config c recipient pointer (.inline sources) (prepared.storage, true)
      ({ c with pendingTransactions := log }.promoted recipient prepared) :=
    .promoted hkept (fun p => ⟨honly p, hall p⟩) hfresh (not_lt.mp hfits)
  rcases hpersist : env.persist w' with ⟨error | _, w''⟩
  · rw [hpersist] at hpersisted
    cases hpersisted
  · simpa [bind, update, outside, hpersist, pure] using hstored

/-- Storing a pointer for a custodian in order. -/
theorem storePointer_stored (free : CollisionFree D) (c : Custodian D) (w : σ)
    (recipient : RecordKey) (pointer : MailSourcePointer) {storage : RecipientSourceStorage D}
    (hids : ∀ sources, storage = .inline sources → (sources.map MailSourcePointer.messageId).Nodup)
    (hsafe : ∀ sources prepared s, storage = .inline sources →
      c.Promotes config (filedInline pointer sources) →
      prepareOverflow env config recipient (filedInline pointer sources) (c, w) =
        (.ok prepared, s) →
        PromotionSettles env c (filedInline pointer sources) prepared s.2)
    (hroom : ∀ store, c.overflowStores.lookup recipient = some store →
      (∀ sources, storage ≠ .inline sources) →
        (store.upsert pointer).allEntries.length ≤ config.activeMessagesPerOverflowRecord)
    (hknown : ∀ recordKey overflowEpoch entryCount serializedSize digest since,
      storage = .overflow recordKey overflowEpoch entryCount serializedSize digest since →
      (c.overflowStores.lookup recipient).isSome →
        ∃ known, c.overflowRecords.lookup recipient = some known ∧
          known.recordKey = recordKey ∧ known.overflowEpoch = overflowEpoch) :
    Triple (fun s => s = (c, w)) (storePointer env config recipient pointer storage)
      (fun stored s => PointerStored config c recipient pointer storage stored s.1)
      fun _ s => c.SameUpToLog s.1 := by
  have hunchanged : c.SameUpToLog c := ⟨c.pendingTransactions, rfl⟩
  cases storage with
  | inline sources =>
    have hids' := (filedInline_spec recipient pointer (hids sources rfl)).1
    refine triple_step rfl ?_
    split
    · rename_i hpromotes
      split
      · apply triple_throw
        rintro _ rfl
        exact hunchanged
      · apply triple_bind (promote_stored env config free hids' fun prepared s =>
          hsafe sources prepared s rfl hpromotes)
        intro stored
        exact triple_pure fun _ hs => hs
    · apply triple_pure
      rintro _ rfl
      exact .inline
  | overflow recordKey overflowEpoch entryCount serializedSize digest since =>
    refine triple_step rfl ?_
    dsimp only
    cases hfound : c.overflowStores.lookup recipient with
    | none =>
      apply triple_throw
      rintro _ rfl
      exact hunchanged
    | some store =>
      obtain ⟨known, hlookup, hkey, hepoch⟩ :=
        hknown _ _ _ _ _ _ rfl (by simp [hfound])
      have hfits := hroom store hfound (by simp)
      rintro _ rfl
      -- The checks against what is known locally go through.
      have hstored : PointerStored config c recipient pointer
          (.overflow recordKey overflowEpoch entryCount serializedSize digest since) _ _ :=
        .overflow hfound
      simpa [bind, update, inspect, pure, not_lt.mpr hfits, hlookup, hkey, hepoch] using hstored

end Promotions

end VeilKnit.Mailbox
