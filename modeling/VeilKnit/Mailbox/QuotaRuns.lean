import VeilKnit.Mailbox.PageRecord
import VeilKnit.Mailbox.QuotaSteps
import VeilKnit.Mailbox.Withdrawals

/-!
# The quotas over whole runs

A custodian takes pointers in, gives them up, promotes and demotes recipients and commits
its stores, in any order. The counters follow every step that completes. They are right
after every run whose promotions and demotions complete, whose failing commits disturb
nothing, and in which no two recipients share a page key.
-/

namespace VeilKnit.Mailbox

open Library Fallible

variable {D σ : Type} [DigestScheme D] [DecidableEq D]

namespace Custodian

variable {env : Surroundings σ} {config : MailboxConfig} {c : Custodian D} {w : σ}
  {recipient : RecordKey} {pointer : MailSourcePointer}

/-! ## Filing a pointer -/

omit [DecidableEq D] in
theorem Balanced.sameUpToLog {c' : Custodian D} (h : c.Balanced config)
    (hsame : c.SameUpToLog c') : c'.Balanced config := by
  obtain ⟨log, rfl⟩ := hsame
  exact ⟨⟨h.inOrder.mailbox, h.inOrder.overflow, h.inOrder.ids, h.inOrder.records, h.inOrder.known⟩,
    h.counts, h.within⟩

/-- Balanced, unless a commit has failed over pages that dividing disturbs. -/
def BalancedOrDisturbed (config : MailboxConfig) (c : Custodian D) : Prop :=
  c.Balanced config ∨ c.LeftDisturbed config

omit [DigestScheme D] [DecidableEq D] in
/-- What happens outside of the custodian keeps what is known about it. -/
theorem triple_outside {α : Type} (P : Custodian D → Prop) (x : Fallible MailboxError σ α) :
    Triple (fun s => P s.1) (outside x : Custodial D σ α) (fun _ s => P s.1) fun _ s => P s.1 := by
  rintro ⟨c, w⟩ h
  simp only [outside]
  rcases x w with ⟨error | _, w'⟩ <;> exact h

theorem triple_settlePromotion (free : CollisionFree D) (promoted : Bool) :
    Triple (fun s => s.1.Balanced config) (settlePromotion env config promoted : Custodial D σ Unit)
      (fun _ s => s.1.BalancedOrDisturbed config)
      fun _ s => s.1.BalancedOrDisturbed config := by
  unfold settlePromotion
  split
  · rintro ⟨c, w⟩ h
    apply triple_bind (P := fun s => s = (c, w)) (M := fun _ s => s.1.Balanced config) _ _ _ rfl
    · rintro _ rfl
      have hcommit := triple_commitMailbox config env free (c, w) (Recommitted.refl h.inOrder)
      rcases hrun : commitMailbox env config (c, w) with ⟨error | _, s⟩
      · rw [hrun] at hcommit
        exact hcommit.imp (fun hsame => hsame.balanced h) id
      · rw [hrun] at hcommit
        exact hcommit.balanced h
    · intro _
      exact (triple_outside (Balanced config) env.persist).weaken (fun _ h => h)
        (fun _ _ h => .inl h) fun _ _ h => .inl h
  · exact triple_pure fun _ h => .inl h

variable {store : CowPagedStore D (MailboxRecipientEntry D)} {entry : MailboxRecipientEntry D}

omit [DigestScheme D] [DecidableEq D] in
theorem putEntry_ok [DigestScheme D] (hstore : c.mailboxStore = some store) :
    putEntry entry (c, w) = (.ok (), (c.upsertEntry entry, w)) := by
  simp only [putEntry, hstore]

omit [DecidableEq D] in
theorem countAdded_upsertEntry {isNew : Bool} {overflowRecord : Option RecordKey} :
    countAdded isNew recipient pointer overflowRecord (c.upsertEntry entry, w) =
      (.ok (), ((c.withCount isNew recipient pointer overflowRecord).upsertEntry entry, w)) := by
  cases isNew <;> rfl

/-- Filing a pointer keeps the custodian balanced, if its recipient owns its page key
and a promotion settles. -/
theorem addPointer_balanced (free : CollisionFree D) (hfit : config.CountersFit)
    (h : c.Balanced config) (hstore : c.mailboxStore = some store) (howns : c.OwnsPageKey recipient)
    (hsafe : PromotesSafely env config c recipient pointer (env.currentTimestamp w).2) :
    Triple (fun s => s = (c, w))
      (addPointerToCustodianMailbox env config recipient pointer : Custodial D σ Unit)
      (fun _ s => s.1.BalancedOrDisturbed config)
      fun _ s => s.1.BalancedOrDisturbed config := by
  refine triple_step (a := store.get (fullRecordKeyBytes recipient)) (v := (c, w))
    (by simp [inspect, hstore]) (triple_step rfl ?_)
  dsimp only
  generalize hexisting : c.existingPointer recipient pointer.messageId _ = existing
  apply triple_bind (M := fun _ s => s = (c, w) ∧ ∀ e ∈ existing,
    e.senderMainDht = pointer.senderMainDht)
  · unfold ensure
    split
    · rename_i hsame
      apply triple_pure
      rintro _ rfl
      refine ⟨rfl, fun e he => ?_⟩
      obtain rfl := Option.mem_def.mp he
      simp at hsame
      exact hsame.1
    · apply triple_throw
      rintro _ rfl
      exact .inl h
  intro _
  apply triple_and_pure
  intro hsender
  apply triple_bind (M := fun _ s => s = (c, w) ∧ (existing.isNone →
    c.quotaState.ensureCanAdd recipient pointer
      (overflowRecordOf (store.get (fullRecordKeyBytes recipient))) config = .ok ()))
  · unfold checkQuota
    refine triple_step rfl ?_
    apply triple_lift
    · rintro _ hok _ rfl
      refine ⟨rfl, fun hnew => ?_⟩
      rw [if_pos hnew] at hok
      exact hok
    · rintro _ _ _ rfl
      exact .inl h
  intro _
  apply triple_and_pure
  intro hadmitted
  refine triple_step rfl ?_
  generalize (env.currentTimestamp w).1 = now
  -- The entry of the recipient, or an empty one.
  have hcurrent : c.IsCurrent recipient ((store.get (fullRecordKeyBytes recipient)).getD
      { recipientMainDht := recipient, storage := .inline [], newestPostedAt := pointer.postedAt,
        newestFirstSeenAt := pointer.firstObservedAt, lastRecipientCheck := now,
        lastSenderCheck := now }) := by
    have hrouted := (h.inOrder.mailbox store hstore).routed
    constructor
    · cases hget : store.get (fullRecordKeyBytes recipient) with
      | none => rfl
      | some existing =>
        obtain ⟨hmem, hkey⟩ := (get_eq_some_iff hrouted).mp hget
        rw [← entries_of_mailboxStore hstore] at hmem
        exact howns existing hmem hkey
    · rw [currentStorage, hstore, Option.bind_some]
      cases store.get (fullRecordKeyBytes recipient) <;> rfl
  generalize (store.get (fullRecordKeyBytes recipient)).getD _ = entry at hcurrent ⊢
  rw [overflowRecordOf_eq hcurrent hstore] at hadmitted ⊢
  obtain ⟨_, hoverflowed, hids, hknown, _⟩ := h.inOrder.currentEntry hstore howns hcurrent
  unfold KnowsOverflow at hknown
  rw [hcurrent.isRecipient] at hknown
  have hstored := storePointer_stored env config free c (env.currentTimestamp w).2 recipient pointer
    hids
    (fun sources prepared s hs hp hrun =>
      hsafe sources prepared s (hcurrent.isStorage.symm.trans hs) hp hrun) ?_ hknown
  · apply triple_bind (hstored.weaken (fun _ hs => hs) (fun _ _ hs => hs)
      fun _ _ hs => .inl (h.sameUpToLog hs))
    rintro ⟨storage, promoted⟩
    rintro ⟨c₁, w₁⟩ hs
    -- What is put into the mailbox is counted, and a promotion is committed.
    rw [bind_ok (putEntry_ok (hs.mailboxStore.trans hstore)), bind_ok countAdded_upsertEntry]
    apply triple_settlePromotion free promoted
    exact h.stored hfit hstore howns hcurrent (congrArg Option.isNone hexisting.symm)
      (hexisting ▸ hsender) hadmitted hs hcurrent.isRecipient rfl
  -- A new pointer finds its overflow record below the limit.
  intro overflow hlookup hnotInline
  have hkept := h.inOrder.overflow _ _ hlookup
  have hget : existing = overflow.get pointer.messageId.val := by
    rw [← hexisting, existingPointer_eq hcurrent hstore, hlookup]
    cases hstorage : entry.storage with
    | inline sources => exact absurd hstorage (hnotInline sources)
    | overflow => rfl
  rw [(upsertOverflow_spec recipient hkept fun e he => hsender e (hget.trans he)).2, ← hget]
  have hentry : c.overflowEntry entry ≤ c.overflowed := by
    rw [hoverflowed]
    exact Multiset.le_add_right _ _
  cases hstorage : entry.storage with
  | inline sources => exact absurd hstorage (hnotInline sources)
  | overflow recordKey overflowEpoch entryCount serializedSize digest since =>
    have hlookup' : c.overflowStores.lookup entry.recipientMainDht = some overflow := by
      rw [hcurrent.isRecipient]
      exact hlookup
    have hcount : overflow.allEntries.length ≤ c.overflowed.count recordKey := by
      have hle := Multiset.count_le_of_le recordKey hentry
      simpa [overflowEntry, sourcesOf, hstorage, hlookup'] using hle
    have hlimit := h.within.overflow recordKey
    split
    · rename_i hnew
      have hadmitted' := MailboxQuotaState.ensureCanAdd_ok (hadmitted hnew)
      have hlt := hadmitted'.2.2.2 recordKey (by simp [overflowRecordOf, hstorage])
      rw [h.counts.overflow] at hlt
      omega
    · omega

theorem filePointer_balanced (h : c.Balanced config) (free : CollisionFree D)
    (hfit : config.CountersFit) (howns : c.OwnsPageKey recipient)
    (hsafe : PromotesSafely env config c recipient pointer (env.currentTimestamp w).2) :
    (filePointer env config recipient pointer (c, w)).2.1.BalancedOrDisturbed config := by
  have htriple : Triple (fun s => s = (c, w)) (filePointer env config recipient pointer)
      (fun _ s => s.1.BalancedOrDisturbed config)
      fun _ s => s.1.BalancedOrDisturbed config := by
    refine triple_step rfl ?_
    split
    · rename_i hsome
      obtain ⟨store, hstore⟩ := Option.isSome_iff_exists.mp hsome
      exact addPointer_balanced free hfit h hstore howns hsafe
    · apply triple_pure
      rintro _ rfl
      exact .inl h
  have hrun := htriple (c, w) rfl
  rcases hresult : filePointer env config recipient pointer (c, w) with ⟨error | _, s⟩ <;>
    rw [hresult] at hrun <;> exact hrun

/-! ## Moving pointers back -/

omit [DecidableEq D] in
/-- Knowing something else about an overflow record, but its key and its epoch. -/
theorem Balanced.changeOverflowRecord (h : c.Balanced config) (recipient : RecordKey)
    {f : OverflowLocalState → OverflowLocalState}
    (hkey : ∀ known, (f known).recordKey = known.recordKey)
    (hepoch : ∀ known, (f known).overflowEpoch = known.overflowEpoch) :
    (c.changeOverflowRecord recipient f).Balanced config := by
  unfold Custodian.changeOverflowRecord
  split
  · rename_i known hlookup
    refine ⟨⟨h.inOrder.mailbox, h.inOrder.overflow, h.inOrder.ids, h.inOrder.records, ?_⟩,
      h.counts, h.within⟩
    intro e he recordKey overflowEpoch _ _ _ _ hstorage hsome
    obtain ⟨known', hlookup', hkey', hepoch'⟩ :=
      h.inOrder.known e he recordKey overflowEpoch _ _ _ _ hstorage hsome
    by_cases hr : e.recipientMainDht = recipient
    · obtain rfl : known = known' := by
        rw [hr, hlookup] at hlookup'
        exact Option.some.inj hlookup'
      refine ⟨f known, ?_, (hkey _).trans hkey', (hepoch _).trans hepoch'⟩
      rw [hr]
      exact AList.lookup_insert _
    · exact ⟨known', (AList.lookup_insert_ne hr).trans hlookup', hkey', hepoch'⟩
  · exact h

omit [DigestScheme D] [DecidableEq D] in
theorem changeOverflowRecord_frame (c : Custodian D) (recipient : RecordKey)
    (f : OverflowLocalState → OverflowLocalState) :
    (c.changeOverflowRecord recipient f).mailboxStore = c.mailboxStore ∧
      (c.changeOverflowRecord recipient f).overflowStores = c.overflowStores ∧
      (c.changeOverflowRecord recipient f).quotaState = c.quotaState := by
  unfold Custodian.changeOverflowRecord
  split <;> exact ⟨rfl, rfl, rfl⟩

variable {entryCount serializedSize : UInt32}
  {recordKey : RecordKey} {overflowEpoch : Id16} {digest : D} {since : Option UInt64}

omit [DecidableEq D] in
/-- Putting an entry back with another date. -/
theorem Balanced.redated (h : c.Balanced config) (hentry : entry ∈ c.entries)
    (hstorage : entry.storage =
      .overflow recordKey overflowEpoch entryCount serializedSize digest since)
    (since' : Option UInt64) :
    Rebalanced config entry c (c.upsertEntry { entry with
      storage := .overflow recordKey overflowEpoch entryCount serializedSize digest since' }) := by
  obtain ⟨store, hstore⟩ := exists_store_of_mem hentry
  have hsources : c.sourcesOf { entry with
      storage := .overflow recordKey overflowEpoch entryCount serializedSize digest since' } =
        c.sourcesOf entry := by
    simp [sourcesOf, hstorage]
  have hledger : c.ledgerEntry { entry with
      storage := .overflow recordKey overflowEpoch entryCount serializedSize digest since' } =
        c.ledgerEntry entry := by
    rw [ledgerEntry, ledgerEntry, hsources]
  have hoverflow : c.overflowEntry { entry with
      storage := .overflow recordKey overflowEpoch entryCount serializedSize digest since' } =
        c.overflowEntry entry := by
    simp only [overflowEntry, hstorage, hsources]
  apply h.rewrite hstore hentry (changedAt_refl _ c)
  case hrecipient => rfl
  case hown => exact h.inOrder.overflow _
  case hids => exact fun _ hs => by cases hs
  case hrecord =>
    intro k hk
    simpa [overflowRecordOf, hstorage] using hk
  case hknown =>
    rintro _ _ _ _ _ _ hk hsome
    obtain ⟨rfl, rfl, _⟩ := RecipientSourceStorage.overflow.inj hk
    exact h.inOrder.known entry hentry _ _ _ _ _ _ hstorage hsome
  case hcounts =>
    rw [hledger, hoverflow, ← h.inOrder.filed_eq hentry, ← h.inOrder.overflowed_eq hentry]
    exact h.counts
  case hless => exact hledger.le
  case hlessOverflow => exact hoverflow.le

variable {overflow : CowPagedStore D MailSourcePointer}

omit [DecidableEq D] in
/-- The inline copy of an overflow record keeps the custodian in order. -/
theorem InOrder.inlined (h : c.InOrder) (hstore : c.mailboxStore = some store)
    (hlookup : c.overflowStores.lookup entry.recipientMainDht = some overflow) :
    (c.upsertEntry { entry with storage := .inline overflow.allEntries }).InOrder := by
  have hkept := h.overflow _ _ hlookup
  apply h.upsertEntry hstore (changedAt_refl _ c)
  case hown => exact h.overflow _
  case hids =>
    rintro sources hs
    cases hs
    apply List.Nodup.map_on _ hkept.nodup
    intro p hp q hq hid
    exact hkept.routed.strict_entries.inj hp hq (congrArg Subtype.val hid)
  case hrecord => exact fun _ hk => by simp [overflowRecordOf] at hk
  case hknown => exact fun _ _ _ _ _ _ hk => by cases hk

/-- What a demotion does after it has committed the inline copy. -/
def retireOverflow (c : Custodian D) (recipient recordKey : RecordKey) : Custodian D :=
  { c.changeOverflowRecord recipient fun known => { known with retired := true } with
    overflowStores := (c.changeOverflowRecord recipient fun known =>
      { known with retired := true }).overflowStores.erase recipient
    quotaState := (c.changeOverflowRecord recipient fun known =>
      { known with retired := true }).quotaState.removeOverflowRecord recordKey }

omit [DigestScheme D] [DecidableEq D] in
theorem retireOverflow_frame (c : Custodian D) (recipient recordKey : RecordKey) :
    (c.retireOverflow recipient recordKey).mailboxStore = c.mailboxStore ∧
      (c.retireOverflow recipient recordKey).overflowStores = c.overflowStores.erase recipient ∧
      (∀ r ≠ recipient, (c.retireOverflow recipient recordKey).overflowRecords.lookup r =
        c.overflowRecords.lookup r) ∧
      (c.retireOverflow recipient recordKey).quotaState =
        c.quotaState.removeOverflowRecord recordKey := by
  unfold retireOverflow Custodian.changeOverflowRecord
  split
  · exact ⟨rfl, rfl, fun r hr => AList.lookup_insert_ne hr, rfl⟩
  · exact ⟨rfl, rfl, fun r hr => rfl, rfl⟩

omit [DecidableEq D] in
/-- Giving up the overflow record of a recipient whose pointers are inline again. -/
theorem Balanced.retired {c₁ : Custodian D} (h : c.Balanced config)
    (hstore : c.mailboxStore = some store) (hentry : entry ∈ c.entries) (hstorage : entry.storage =
      .overflow recordKey overflowEpoch entryCount serializedSize digest since)
    (hlookup : c.overflowStores.lookup entry.recipientMainDht = some overflow)
    (hcommitted : Recommitted
      (c.upsertEntry { entry with storage := .inline overflow.allEntries }) c₁) :
    Rebalanced config entry c (c₁.retireOverflow entry.recipientMainDht recordKey) := by
  obtain ⟨hmailbox, hstores, hrecords, hquota⟩ :=
    retireOverflow_frame c₁ entry.recipientMainDht recordKey
  generalize c₁.retireOverflow entry.recipientMainDht recordKey = c₂
    at hmailbox hstores hrecords hquota ⊢
  have hsources : c.sourcesOf entry = overflow.allEntries := by simp [sourcesOf, hstorage, hlookup]
  generalize hinline : ({ entry with storage := .inline overflow.allEntries } :
    MailboxRecipientEntry D) = inline at hcommitted
  have hrecipient : inline.recipientMainDht = entry.recipientMainDht := by rw [← hinline]
  have hstorage' : inline.storage = .inline overflow.allEntries := by rw [← hinline]
  have hkey : pageKey inline = pageKey entry := by
    change fullRecordKeyBytes _ = fullRecordKeyBytes _
    rw [hrecipient]
  have hsame : c₂.entries = c₁.entries := by
    unfold entries
    rw [hmailbox]
  have hentries : ∀ e, e ∈ c₂.entries ↔ e = inline ∨ e ∈ c.otherEntries (pageKey entry) := by
    intro e
    rw [hsame, hcommitted.entries,
      (h.inOrder.entries_upsertEntry hstore (changedAt_refl _ c)).mem_iff, hkey, List.mem_cons]
  -- The other recipients keep their overflow records.
  have hother : ∀ e ∈ c.otherEntries (pageKey entry),
      e.recipientMainDht ≠ entry.recipientMainDht := by
    intro e he
    apply recipient_ne_of_pageKey_ne
    simpa [otherEntries] using (List.mem_filter.mp he).2
  have hledger : c.ledgerEntry inline = c.ledgerEntry entry := by
    rw [ledgerEntry, ledgerEntry, hsources, hrecipient]
    simp [sourcesOf, hstorage']
  have hsourcesOf : ∀ e ∈ c₂.entries, c₂.sourcesOf e = (c.upsertEntry inline).sourcesOf e := by
    intro e he
    rcases (hentries e).mp he with rfl | he
    · simp [sourcesOf, hstorage']
    · apply sourcesOf_of_allEntries
      rw [hstores, AList.lookup_erase_ne (hother e he)]
      exact hcommitted.stores _
  have hall : c₂.entries = (c.upsertEntry inline).entries := hsame.trans hcommitted.entries
  have hfiled : c₂.filed = c.filed := by
    have hupserted := h.inOrder.filed_upsertEntry hstore (changedAt_refl inline.recipientMainDht c)
    rw [hledger, hkey, ← h.inOrder.filed_eq hentry] at hupserted
    rw [← hupserted, filed, filed, ← hall]
    apply Multiset.bind_congr
    intro e he
    rw [ledgerEntry, ledgerEntry, hsourcesOf e (Multiset.mem_coe.mp he)]
  have hoverflowed : c₂.overflowed = c.otherOverflowed (pageKey entry) := by
    have hupserted := h.inOrder.overflowed_upsertEntry hstore
      (changedAt_refl inline.recipientMainDht c)
    have hnone : c.overflowEntry inline = 0 := by simp [overflowEntry, hstorage']
    rw [hnone, hkey, zero_add] at hupserted
    rw [← hupserted, overflowed, overflowed, ← hall]
    apply Multiset.bind_congr
    intro e he
    rw [overflowEntry, overflowEntry, hsourcesOf e (Multiset.mem_coe.mp he)]
  have hbefore : c.overflowed = Multiset.replicate overflow.allEntries.length recordKey +
      c.otherOverflowed (pageKey entry) := by
    rw [h.inOrder.overflowed_eq hentry]
    simp only [overflowEntry, hstorage, hsources]
  have habsent : recordKey ∉ c.otherOverflowed (pageKey entry) := by
    intro hmem
    obtain ⟨e, he, hk⟩ := Multiset.mem_bind.mp hmem
    obtain ⟨he, hne⟩ := List.mem_filter.mp (Multiset.mem_coe.mp he)
    have heq := h.inOrder.records e he entry hentry recordKey (overflowRecordOf_of_mem hk)
      (by simp [overflowRecordOf, hstorage])
    rw [heq] at hne
    simp at hne
  have hinOrder := hcommitted.inOrder
  refine ⟨⟨⟨?_, ?_, ?_, ?_, ?_⟩, ?_, ?_⟩, ?_⟩
  · rw [hmailbox]
    exact hinOrder.mailbox
  · intro r s hs
    rw [hstores] at hs
    by_cases hr : r = entry.recipientMainDht
    · subst hr
      rw [AList.lookup_erase] at hs
      cases hs
    · rw [AList.lookup_erase_ne hr] at hs
      exact hinOrder.overflow r s hs
  · intro e he sources hs
    exact hinOrder.ids e (hsame ▸ he) sources hs
  · rw [hsame]
    exact hinOrder.records
  · intro e he
    rcases (hentries e).mp he with rfl | hmem
    · rintro _ _ _ _ _ _ hk
      rw [hstorage'] at hk
      cases hk
    · have hold : c₁.KnowsOverflow e := hinOrder.known e (hsame ▸ he)
      unfold KnowsOverflow at hold ⊢
      rw [hstores, AList.lookup_erase_ne (hother e hmem), hrecords _ (hother e hmem)]
      exact hold
  · rw [hfiled, hoverflowed, hquota, hcommitted.quota]
    have hcounts := h.counts
    rw [hbefore] at hcounts
    exact hcounts.removeOverflowRecord habsent
  · apply h.within.mono hfiled.le
    rw [hoverflowed, hbefore]
    exact Multiset.le_add_left _ _
  · intro e he hne
    exact (hentries e).mpr (.inr (by simp [otherEntries, he, hne]))

end Custodian

section Demotions

variable (env : Surroundings σ) (config : MailboxConfig)

/-- The pointers have been few for long enough. -/
def Due (now : UInt64) (entryCount serializedSize : UInt32) (since : Option UInt64) : Prop :=
  (entryCount.toNat ≤ config.overflowDemotePointerLimit ∧
      serializedSize.toNat ≤ config.overflowDemoteByteLimit) ∧
    ¬ now < saturatingAdd (since.getD now) config.overflowDemoteHysteresisSecs

/-- The custodian just before a demotion commits the inline copy. -/
def Custodian.inlined (c : Custodian D) (now : UInt64) (entry : MailboxRecipientEntry D)
    (since : Option UInt64) (sources : List MailSourcePointer) : Custodian D :=
  (c.changeOverflowRecord entry.recipientMainDht fun known =>
      { known with belowInlineThresholdSince := some (since.getD now) }).upsertEntry
    { entry with storage := .inline sources }

/-- Every demotion that the pass starts can commit its inline copy. -/
def DemotesSafely (now : UInt64) :
    List (MailboxRecipientEntry D) → Custodian D × σ → Prop
  | [], _ => True
  | entry :: entries, s =>
    (∀ recordKey overflowEpoch entryCount serializedSize digest since overflow, entry.storage =
        .overflow recordKey overflowEpoch entryCount serializedSize digest since →
      Due config now entryCount serializedSize since →
      s.1.overflowStores.lookup entry.recipientMainDht = some overflow →
        (commitMailbox env config
          (s.1.inlined now entry since overflow.allEntries, s.2)).1 = .ok ()) ∧
      ∀ s', considerDemotion env config now entry s = (.ok (), s') → DemotesSafely now entries s'

variable {env config} {now : UInt64} {c : Custodian D} {w : σ}

/-- Considering one entry, whose demotion can commit. -/
theorem considerDemotion_rebalanced (free : CollisionFree D)
    {entry : MailboxRecipientEntry D} (h : c.Balanced config) (hentry : entry ∈ c.entries)
    (hsafe : ∀ recordKey overflowEpoch entryCount serializedSize digest since overflow,
      entry.storage = .overflow recordKey overflowEpoch entryCount serializedSize digest since →
      Due config now entryCount serializedSize since →
      c.overflowStores.lookup entry.recipientMainDht = some overflow →
        (commitMailbox env config (c.inlined now entry since overflow.allEntries, w)).1 = .ok ()) :
    Triple (fun s => s = (c, w)) (considerDemotion env config now entry : Custodial D σ Unit)
      (fun _ s => c.Rebalanced config entry s.1) fun _ s => s.1.Balanced config := by
  unfold considerDemotion
  cases hstorage : entry.storage with
  | inline sources =>
    apply triple_pure
    rintro _ rfl
    exact .refl h
  | overflow recordKey overflowEpoch entryCount serializedSize digest since =>
    dsimp only
    -- What is known about the record changes first, in either case.
    have hchanged (since' : Option UInt64) : (c.changeOverflowRecord entry.recipientMainDht
        fun known => { known with belowInlineThresholdSince := since' }).Balanced config :=
      h.changeOverflowRecord _ (fun _ => rfl) fun _ => rfl
    have hframe (since' : Option UInt64) := Custodian.changeOverflowRecord_frame c
      entry.recipientMainDht fun known => { known with belowInlineThresholdSince := since' }
    have hredated (since' : Option UInt64) : c.Rebalanced config entry
        ((c.changeOverflowRecord entry.recipientMainDht fun known =>
          { known with belowInlineThresholdSince := since' }).upsertEntry { entry with
            storage := .overflow recordKey overflowEpoch entryCount serializedSize digest
              since' }) := by
      have hentries : (c.changeOverflowRecord entry.recipientMainDht fun known =>
          { known with belowInlineThresholdSince := since' }).entries = c.entries := by
        unfold Custodian.entries
        rw [(hframe since').1]
      have hstep := (hchanged since').redated (hentries ▸ hentry) hstorage since'
      exact ⟨hstep.balanced, fun e he => hstep.others e (hentries ▸ he)⟩
    split
    · rename_i hbelow
      refine triple_step rfl ?_
      dsimp only
      split
      · rintro _ rfl
        exact hredated _
      rename_i hlong
      generalize hc₁ : (c.changeOverflowRecord entry.recipientMainDht fun known =>
        { known with belowInlineThresholdSince := some (since.getD now) }) = c₁
      have hbalanced₁ : c₁.Balanced config := hc₁ ▸ hchanged _
      have hmailbox₁ : c₁.mailboxStore = c.mailboxStore := hc₁ ▸ (hframe _).1
      have hstores₁ : c₁.overflowStores = c.overflowStores := hc₁ ▸ (hframe _).2.1
      refine triple_step rfl ?_
      dsimp only
      cases hfound : c₁.overflowStores.lookup entry.recipientMainDht with
      | none =>
        apply triple_throw
        rintro _ rfl
        exact hbalanced₁
      | some overflow =>
        have hsafe' := hsafe _ _ _ _ _ _ _ hstorage ⟨hbelow, hlong⟩ (hstores₁ ▸ hfound)
        rw [Custodian.inlined, hc₁] at hsafe'
        have hentries₁ : c₁.entries = c.entries := by
          unfold Custodian.entries
          rw [hmailbox₁]
        have hentry₁ : entry ∈ c₁.entries := hentries₁ ▸ hentry
        obtain ⟨store, hstore⟩ := Custodian.exists_store_of_mem hentry₁
        have hinlined := hbalanced₁.inOrder.inlined hstore hfound
        refine triple_step rfl ?_
        apply triple_bind (M := fun _ s => Custodian.Recommitted (c₁.upsertEntry
          { entry with storage := .inline overflow.allEntries }) s.1)
        · rintro _ rfl
          have hcommit := Custodian.triple_commitMailbox config env free
            (c₁.upsertEntry { entry with storage := .inline overflow.allEntries }, w)
            (Custodian.Recommitted.refl hinlined)
          rcases hrun : commitMailbox env config (c₁.upsertEntry
            { entry with storage := .inline overflow.allEntries }, w) with ⟨error | _, s⟩
          · rw [hrun] at hsafe'
            cases hsafe'
          · rw [hrun] at hcommit
            exact hcommit
        · rintro _ ⟨c₂, w₂⟩ hcommitted
          have hretired := hbalanced₁.retired hstore hentry₁ hstorage hfound hcommitted
          exact ⟨hretired.balanced, fun e he => hretired.others e (hentries₁ ▸ he)⟩
    refine triple_step rfl ?_
    rintro _ rfl
    exact hredated none

/-- A whole pass. Each entry is still in the mailbox when its turn comes. -/
theorem demotionPass_balanced (free : CollisionFree D)
    (entries : List (MailboxRecipientEntry D)) (hstrict : KeyedList.Strict pageKey entries)
    (h : c.Balanced config) (hmem : ∀ e ∈ entries, e ∈ c.entries)
    (hsafe : DemotesSafely env config now entries (c, w)) :
    (Fallible.traverse (considerDemotion env config now) entries (c, w)).2.1.Balanced config := by
  induction entries generalizing c w with
  | nil => exact h
  | cons entry entries ih =>
    obtain ⟨hfirst, hrest⟩ := List.pairwise_cons.mp hstrict
    obtain ⟨hcommits, hafter⟩ := hsafe
    have hentry := considerDemotion_rebalanced free h (hmem entry List.mem_cons_self) hcommits
      (c, w) rfl
    rw [Fallible.traverse]
    rcases hrun : considerDemotion env config now entry (c, w) with ⟨error | _, c', w'⟩
    · rw [hrun] at hentry
      rw [bind_error hrun]
      exact hentry
    rw [hrun] at hentry
    have htail := ih hrest hentry.balanced (fun e he =>
      hentry.others e (hmem e (List.mem_cons_of_mem _ he)) (hfirst e he).ne')
      (hafter (c', w') hrun)
    rw [bind_ok hrun]
    rcases hrunRest : Fallible.traverse (considerDemotion env config now) entries (c', w')
      with ⟨error | _, s⟩
    · rw [hrunRest] at htail
      rw [bind_error hrunRest]
      exact htail
    · rw [hrunRest] at htail
      rw [bind_ok hrunRest]
      exact htail

theorem considerOverflowDemotion_balanced (free : CollisionFree D) (h : c.Balanced config)
    (hsafe : DemotesSafely env config now c.entries (c, w)) :
    (considerOverflowDemotion env config now (c, w)).2.1.Balanced config := by
  have hpass := demotionPass_balanced free c.entries h.inOrder.strict_entries h (fun _ he => he)
    hsafe
  have hread : considerOverflowDemotion env config now (c, w) =
      (Fallible.traverse (considerDemotion env config now) c.entries >>= fun _ => pure ()) (c, w) := rfl
  rw [hread]
  rcases hrun : Fallible.traverse (considerDemotion env config now) c.entries (c, w) with ⟨error | _, s⟩
  · rw [hrun] at hpass
    rw [bind_error hrun]
    exact hpass
  · rw [hrun] at hpass
    rw [bind_ok hrun]
    exact hpass

end Demotions

/-! ## The counters of a custodian as a system -/

section System

variable (env : Surroundings σ) (config : MailboxConfig)

/-- What changes the pointers of a custodian, or commits them. -/
inductive QuotaEvent (σ : Type)
  | filePointer (recipient : RecordKey) (pointer : MailSourcePointer) (world : σ)
  | removePointerEverywhere (messageId : Id32)
  | expireCustodianEntries (now : UInt64)
  | considerOverflowDemotion (now : UInt64) (world : σ)
  | flush (order : List RecordKey) (world : σ)

/-- Whether the step fails or not, what it has done stays. -/
def Custodian.nextQuota (c : Custodian D) : QuotaEvent σ → Custodian D
  | .filePointer recipient pointer w => (filePointer env config recipient pointer (c, w)).2.1
  | .removePointerEverywhere messageId => c.removePointerEverywhere messageId
  | .expireCustodianEntries now => c.expireCustodianEntries config now
  | .considerOverflowDemotion now w => (considerOverflowDemotion env config now (c, w)).2.1
  | .flush order w => (flushCustodianStores env config order (c, w)).2.1

/-- A custodian that has just loaded its stores and counted the quotas: what it has loaded
is in order and within the limits. -/
structure Custodian.Started (c : Custodian D) : Prop where
  loaded : c.Loaded env
  ids : ∀ e ∈ c.entries, ∀ sources, e.storage = .inline sources →
    (sources.map MailSourcePointer.messageId).Nodup
  records : ∀ e ∈ c.entries, ∀ e' ∈ c.entries, ∀ recordKey,
    overflowRecordOf (some e) = some recordKey → overflowRecordOf (some e') = some recordKey →
      e = e'
  known : ∀ e ∈ c.entries, c.KnowsOverflow e
  counted : c.quotaState = .rebuild c.mailboxStore c.overflowStores
  within : LedgerWithin config c.filed c.overflowed

def quotaSystem : LabelledSystem (Custodian D) (QuotaEvent σ) where
  initial := Custodian.Started env config
  step c event c' := c' = c.nextQuota env config event

/-- The step completes what it moves: a pointer is filed under a recipient that owns its
page key, a promotion settles, a demotion commits, and no commit fails over pages that
dividing disturbs. -/
def StepCompletes (c : Custodian D) (event : QuotaEvent σ) : Prop :=
  (match event with
    | .filePointer recipient pointer w => c.OwnsPageKey recipient ∧
        PromotesSafely env config c recipient pointer (env.currentTimestamp w).2
    | .considerOverflowDemotion now w => DemotesSafely env config now c.entries (c, w)
    | _ => True) ∧
    ¬ (c.nextQuota env config event).LeftDisturbed config

variable {env config} {c : Custodian D}

omit [DecidableEq D] in
theorem Custodian.InOrder.recountable (h : c.InOrder) : c.Recountable where
  recipients := by
    have hstrict := h.strict_entries
    apply List.Nodup.map_on _ hstrict.nodup
    intro e he e' he' hrecipient
    exact hstrict.inj he he' (congrArg fullRecordKeyBytes hrecipient)
  ids := by
    intro e he
    unfold Custodian.sourcesOf
    cases hstorage : e.storage with
    | inline sources => exact h.ids e he sources hstorage
    | overflow =>
      cases hlookup : c.overflowStores.lookup e.recipientMainDht with
      | none => simp
      | some overflow =>
        have hkept := h.overflow _ _ hlookup
        apply List.Nodup.map_on _ hkept.nodup
        intro p hp q hq hid
        exact hkept.routed.strict_entries.inj hp hq (congrArg Subtype.val hid)
  records := by
    intro e he e' he' k hk hk'
    exact h.records e he e' he' k (Custodian.overflowRecordOf_of_mem hk)
      (Custodian.overflowRecordOf_of_mem hk')

/-- A ledger within limits that fit the counters fits them too. -/
theorem LedgerWithin.fits (hfit : config.CountersFit)
    {filed : Multiset (RecordKey × RecordKey)} {overflowed : Multiset RecordKey}
    (h : LedgerWithin config filed overflowed) : MailboxQuotaState.Fits filed where
  senders s := (h.senders s).trans_lt hfit.sender
  pairs p := (h.pairs p).trans_lt hfit.pair
  recipients r := (h.recipients r).trans_lt hfit.recipient

theorem Custodian.Started.balanced (hfit : config.CountersFit)
    (h : c.Started env config) : c.Balanced config := by
  have hinOrder : c.InOrder := by
    refine ⟨fun store hstore => ?_, fun recipient store hstore => ?_, h.ids, h.records, h.known⟩
    · obtain ⟨_, _, _, _, hload⟩ := h.loaded.mailbox store hstore
      obtain ⟨hrouted, hsound⟩ := loadOwned_routed _ hload
      exact ⟨hrouted, hsound⟩
    · obtain ⟨_, _, _, _, hload⟩ := h.loaded.overflow recipient store hstore
      obtain ⟨hrouted, hsound⟩ := loadOwned_routed _ hload
      exact ⟨hrouted, hsound⟩
  refine ⟨hinOrder, ?_, h.within⟩
  rw [h.counted]
  exact hinOrder.recountable.rebuild_counts (h.within.fits hfit)

theorem balanced_invariant (free : CollisionFree D) (hfit : config.CountersFit) :
    ((quotaSystem (D := D) env config).restrict (StepCompletes env config)).Invariant
      (Custodian.Balanced config) where
  initially _ hinit := Custodian.Started.balanced hfit hinit
  preserved := by
    rintro c event _ h ⟨⟨hcompletes, hundisturbed⟩, rfl⟩
    cases event with
    | filePointer recipient pointer w =>
      exact (Custodian.filePointer_balanced h free hfit hcompletes.1 hcompletes.2).resolve_right
        hundisturbed
    | removePointerEverywhere messageId => exact h.removePointerEverywhere messageId
    | expireCustodianEntries now => exact h.expireCustodianEntries now
    | considerOverflowDemotion now w => exact considerOverflowDemotion_balanced free h hcompletes
    | flush order w =>
      have hflush := Custodian.triple_flush config env free order (c, w)
        (Custodian.Recommitted.refl h.inOrder)
      change ¬ (flushCustodianStores env config order (c, w)).2.1.LeftDisturbed config
        at hundisturbed
      change (flushCustodianStores env config order (c, w)).2.1.Balanced config
      rcases hrun : flushCustodianStores env config order (c, w) with ⟨error | _, s⟩
      · rw [hrun] at hflush hundisturbed
        exact (hflush.resolve_right hundisturbed).balanced h
      · rw [hrun] at hflush
        exact hflush.balanced h

/-- After every run whose steps complete, the counters are those of a recount, and no
counter is above its limit. -/
theorem counters_match_recount (free : CollisionFree D) (hfit : config.CountersFit)
    {c : Custodian D}
    (reached : ((quotaSystem env config).restrict (StepCompletes env config)).Reachable c) :
    c.quotaState.sameCounts (.rebuild c.mailboxStore c.overflowStores) ∧
      c.quotaState.WithinLimits config := by
  have h := (balanced_invariant free hfit).holds reached
  have hrebuilt := h.inOrder.recountable.rebuild_counts h.counts.fits
  exact ⟨h.counts.same hrebuilt, h.counts.withinLimits h.within⟩

end System

/-! ## A promotion that is not saved -/

section UnsavedPromotion

def pointerFrom (sender : RecordKey) (n : UInt8) : MailSourcePointer where
  messageId := lastBytes [n]
  senderMainDht := sender
  mailSendDht := sender
  postedAt := 1000
  bumpedAt := 1000
  requestedExpiresAt := 2000
  firstObservedAt := 1000
  lastObservedAt := 1000
  lastVerifiedAt := 1000
  failedVerificationCount := 0

/-- A custodian with an empty mailbox, which has counted its quotas. -/
def countedCustodian : Custodian PlainDigest :=
  { freshCustodian with
    quotaState := .rebuild freshCustodian.mailboxStore freshCustodian.overflowStores }

theorem countedCustodian_started {σ : Type} {env : Surroundings σ}
    (hloaded : freshCustodian.Loaded env) (config : MailboxConfig) :
    countedCustodian.Started env config := by
  have hentries : countedCustodian.entries = [] := rfl
  constructor
  case loaded => exact ⟨hloaded.mailbox, hloaded.overflow, hloaded.cache⟩
  case ids => simp [hentries]
  case records => simp [hentries]
  case known => simp [hentries]
  case counted => rfl
  case within =>
    have hfiled : countedCustodian.filed = 0 := rfl
    have hoverflowed : countedCustodian.overflowed = 0 := rfl
    rw [hfiled, hoverflowed]
    exact ⟨by simp, by simp, by simp, by simp⟩

/-- Alice's pointer is filed under Bob. -/
theorem counters_match_recount_alice :
    let c := countedCustodian.nextQuota smallNetwork {} (.filePointer bob (pointerFrom alice 1) ())
    c.quotaState.sameCounts (.rebuild c.mailboxStore c.overflowStores) ∧
      c.quotaState.WithinLimits {} := by
  have hstart : countedCustodian.Started smallNetwork {} :=
    countedCustodian_started freshCustodian_loaded {}
  have hsmall : ¬ countedCustodian.Promotes {} (filedInline (pointerFrom alice 1) []) := by
    rintro ⟨hlarge, -⟩
    revert hlarge
    decide +kernel
  have hreached : ((quotaSystem smallNetwork {}).restrict (StepCompletes smallNetwork {})).Reachable
      (countedCustodian.nextQuota smallNetwork {} (.filePointer bob (pointerFrom alice 1) ())) := by
    refine .next (.filePointer bob (pointerFrom alice 1) ()) (.start hstart) ⟨⟨⟨?_, ?_⟩, ?_⟩, rfl⟩
    · intro e he
      cases he
    · intro sources prepared s hsources hpromotes
      cases hsources
      exact absurd hpromotes hsmall
    · apply not_leftDisturbed
      · decide +kernel
      · decide +kernel
  exact counters_match_recount plainDigest_collisionFree
    ⟨by decide, by decide, by decide, by decide⟩ hreached

/-- The overflow record that promotions create. -/
def overflowKey : RecordKey := ⟨ascii "VLD0:Rw"⟩

/-- Records keep what is written, but the state of the node cannot be saved. -/
def unsavedPromotions : Surroundings Record where
  ids := plainIds
  ownMainDht := ⟨ascii "VLD0:Qw"⟩
  dht _ := recordOps
  currentTimestamp w := (1000, w)
  networkAccess _ w := (.allowed, w)
  readMailboxAdvertisement owner := pure (advertisementOf owner)
  readForeignOutbox owner := pure [.message (signedMessage owner)]
  createDht := pure 1
  packageIdToKey _ := pure overflowKey
  randomEpoch w := (⟨0 :: List.replicate 15 0, rfl⟩, w)
  persist := Fallible.throw (.auth "state not saved")
  decryptAndEmit _ := pure ()

def emptyRecord : Record where
  totalSubkeys := pagedDhtTotalSubkeys
  memory _ := none
  fates := []

/-- More than one pointer moves a recipient into an overflow record. -/
def oneInline : MailboxConfig where
  recipientInlinePointerLimit := 1

theorem freshCustodian_loaded_unsaved : freshCustodian.Loaded unsavedPromotions where
  mailbox store hstore := by
    cases hstore
    exact ⟨"mailbox", 0, emptyRecord, _, rfl⟩
  overflow recipient store hstore := by cases hstore
  cache := rfl

/-- The second pointer of Bob promotes him, and saving that fails. -/
def unsavedCustodian : Custodian PlainDigest :=
  [.filePointer bob (pointerFrom alice 1) emptyRecord,
    .filePointer bob (pointerFrom alice 2) emptyRecord].foldl
      (Custodian.nextQuota unsavedPromotions oneInline) countedCustodian

/-- The count of the overflow record stays, although no entry names the record. -/
theorem counters_drift_unsaved_promotion :
    ¬ ∀ c : Custodian PlainDigest, (quotaSystem unsavedPromotions oneInline).Reachable c →
        c.quotaState.sameCounts (.rebuild c.mailboxStore c.overflowStores) ∧
          c.quotaState.WithinLimits oneInline := by
  intro hclaim
  have hstart : (quotaSystem unsavedPromotions oneInline).Reachable countedCustodian :=
    .start (countedCustodian_started freshCustodian_loaded_unsaved oneInline)
  have hreached : (quotaSystem unsavedPromotions oneInline).Reachable unsavedCustodian :=
    LabelledSystem.Reachable.foldl (fun _ _ _ => rfl) hstart
  have hsame := congrFun (hclaim _ hreached).1.2.2.2 overflowKey
  have hdiffers : unsavedCustodian.quotaState.overflowRecordCounts overflowKey ≠
      (MailboxQuotaState.rebuild unsavedCustodian.mailboxStore
        unsavedCustodian.overflowStores).overflowRecordCounts overflowKey := by
    decide +kernel
  exact hdiffers hsame

end UnsavedPromotion

end VeilKnit.Mailbox
