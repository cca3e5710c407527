import VeilKnit.Mailbox.CustodianRuns
import VeilKnit.Mailbox.QuotaLedger

/-!
# Balanced custodians

A custodian is balanced when its stores find their entries, every pointer of a recipient
is listed once, every overflow record belongs to one recipient, and the quota counters
count the ledger within their limits.

Removing an identifier and expiring entries are sequences of rewritten entries, and each
rewritten entry takes the same pointers out of the ledger and out of the counters.
-/

namespace VeilKnit.Mailbox

open Library Fallible

variable {D T σ : Type} [DigestScheme D]

/-! ## Stores that keep their entries -/

/-- The store finds its entries, and its descriptors describe its pages. -/
structure CowPagedStore.Kept [PageEntry T] (store : CowPagedStore D T) : Prop where
  routed : Routed store.pages
  sound : PagesSound store.pages

section Kept

variable [PageEntry T] {store : CowPagedStore D T}

theorem CowPagedStore.Kept.upsert (h : store.Kept) (entry : T) : (store.upsert entry).Kept :=
  ⟨routed_upsert h.routed entry, pagesSound_upsert h.sound entry⟩

theorem CowPagedStore.Kept.remove (h : store.Kept) (key : Key) : (store.remove key).2.Kept :=
  ⟨routed_remove h.routed key, pagesSound_remove h.sound key⟩

theorem CowPagedStore.Kept.nodup (h : store.Kept) : store.allEntries.Nodup :=
  h.routed.strict_entries.nodup

/-- A commit keeps the entries of the store, unless it fails over pages that dividing
disturbs. -/
theorem commitInner_kept [DecidableEq D] (free : CollisionFree D) (config : MailboxConfig)
    (dht : DhtOps σ) (h : store.Kept) (clock : CommitClock)
    (transactions : List PendingCowTransaction) (world : σ) :
    let outcome := commitInner dht store config clock transactions world
    (outcome.store.Kept ∧ outcome.store.allEntries = store.allEntries) ∨
      ((∀ b, outcome.result ≠ .ok b) ∧ outcome.store = store.rebalanceDirtyPages config ∧
        ¬ Undisturbed config store.pages) := by
  rcases commitInner_routed config dht h.routed clock transactions world with hrouted | hfails
  · left
    have hcommitted := commitInner_committed dht free config store clock transactions world
    generalize (commitInner dht store config clock transactions world).store = store'
      at hrouted hcommitted
    -- Both listings are in the order of the keys, so the same entries are the same list.
    have hsame (hmem : ∀ e, e ∈ store'.allEntries ↔ e ∈ store.allEntries) :
        store'.allEntries = store.allEntries :=
      hrouted.strict_entries.eq_of_mem_iff h.routed.strict_entries hmem
    cases hcommitted with
    | unchanged => exact ⟨h, rfl⟩
    | failed =>
      refine ⟨⟨hrouted, pagesSound_rebalance h.sound⟩, hsame fun e => ?_⟩
      exact mem_rebalance
    | switched hplan hloaded =>
      refine ⟨⟨hrouted, hloaded.sound⟩, hsame fun e => ?_⟩
      obtain ⟨newPages, writes, hpages, hindex⟩ := mem_planIndex_pages hplan
      have hverified := mem_verified free (pagesSound_rebalance h.sound)
        (planPages_ok hpages).1 hindex hloaded (e := e)
      exact hverified.trans mem_rebalance
  · exact .inr hfails

end Kept

/-! ## Balance -/

/-- The ledger stays within the limits. -/
structure LedgerWithin (config : MailboxConfig) (filed : Multiset (RecordKey × RecordKey))
    (overflowed : Multiset RecordKey) : Prop where
  senders : ∀ s, (filed.map Prod.fst).count s ≤ config.activeMessagesPerSender
  pairs : ∀ p, filed.count p ≤ config.activeMessagesPerSenderRecipient
  recipients : ∀ r, (filed.map Prod.snd).count r ≤ config.activeMessagesPerRecipient
  overflow : ∀ k, overflowed.count k ≤ config.activeMessagesPerOverflowRecord

variable {config : MailboxConfig}

/-- A part of the ledger is within the limits too. -/
theorem LedgerWithin.mono
    {filed filed' : Multiset (RecordKey × RecordKey)} {overflowed overflowed' : Multiset RecordKey}
    (h : LedgerWithin config filed overflowed) (hfiled : filed' ≤ filed)
    (hoverflowed : overflowed' ≤ overflowed) : LedgerWithin config filed' overflowed' where
  senders s := (Multiset.count_le_of_le s (Multiset.map_le_map hfiled)).trans (h.senders s)
  pairs p := (Multiset.count_le_of_le p hfiled).trans (h.pairs p)
  recipients r := (Multiset.count_le_of_le r (Multiset.map_le_map hfiled)).trans (h.recipients r)
  overflow k := (Multiset.count_le_of_le k hoverflowed).trans (h.overflow k)

/-- Counters of a ledger within the limits are within them. -/
theorem MailboxQuotaState.Counts.withinLimits {state : MailboxQuotaState}
    {filed : Multiset (RecordKey × RecordKey)} {overflowed : Multiset RecordKey}
    (h : state.Counts filed overflowed) (hwithin : LedgerWithin config filed overflowed) :
    state.WithinLimits config where
  senders s := (h.senders s).trans_le (hwithin.senders s)
  pairs s r := (h.pairs (s, r)).trans_le (hwithin.pairs (s, r))
  recipients r := (h.recipients r).trans_le (hwithin.recipients r)
  overflow k := (h.overflow k).trans_le (hwithin.overflow k)

namespace Custodian

/-- What the custodian knows locally fits the overflow record of the entry. -/
def KnowsOverflow (c : Custodian D) (entry : MailboxRecipientEntry D) : Prop :=
  ∀ recordKey overflowEpoch entryCount serializedSize digest since, entry.storage =
      .overflow recordKey overflowEpoch entryCount serializedSize digest since →
    (c.overflowStores.lookup entry.recipientMainDht).isSome →
      ∃ known, c.overflowRecords.lookup entry.recipientMainDht = some known ∧
        known.recordKey = recordKey ∧ known.overflowEpoch = overflowEpoch

/-- The stores find their entries, and the entries are in order: no pointer is listed
twice, and every overflow record has one owner, who knows it. -/
structure InOrder (c : Custodian D) : Prop where
  mailbox : ∀ store, c.mailboxStore = some store → store.Kept
  overflow : ∀ recipient store, c.overflowStores.lookup recipient = some store → store.Kept
  ids : ∀ e ∈ c.entries, ∀ sources, e.storage = .inline sources →
    (sources.map MailSourcePointer.messageId).Nodup
  records : ∀ e ∈ c.entries, ∀ e' ∈ c.entries, ∀ recordKey,
    overflowRecordOf (some e) = some recordKey → overflowRecordOf (some e') = some recordKey →
      e = e'
  known : ∀ e ∈ c.entries, c.KnowsOverflow e

/-- The counters of a custodian in order count the ledger, within the limits. -/
structure Balanced (config : MailboxConfig) (c : Custodian D) : Prop where
  inOrder : c.InOrder
  counts : c.quotaState.Counts c.filed c.overflowed
  within : LedgerWithin config c.filed c.overflowed

variable {c c₁ : Custodian D} {entry : MailboxRecipientEntry D} {config : MailboxConfig}

/-! ### One entry and the rest -/

/-- The entries with other page keys. -/
def otherEntries (c : Custodian D) (key : Key) : List (MailboxRecipientEntry D) :=
  c.entries.filter fun e => pageKey e ≠ key

/-- The part of the ledger that entries with other page keys stand for. -/
def otherFiled (c : Custodian D) (key : Key) : Multiset (RecordKey × RecordKey) :=
  (c.otherEntries key : Multiset (MailboxRecipientEntry D)).bind c.ledgerEntry

def otherOverflowed (c : Custodian D) (key : Key) : Multiset RecordKey :=
  (c.otherEntries key : Multiset (MailboxRecipientEntry D)).bind c.overflowEntry

theorem InOrder.strict_entries (h : c.InOrder) : KeyedList.Strict pageKey c.entries := by
  unfold entries
  cases hstore : c.mailboxStore with
  | none => exact List.Pairwise.nil
  | some store => exact (h.mailbox store hstore).routed.strict_entries

/-- An entry of the mailbox and the others are all of them. -/
theorem InOrder.entries_perm (h : c.InOrder) (hentry : entry ∈ c.entries) :
    c.entries.Perm (entry :: c.otherEntries (pageKey entry)) := by
  have hstrict := h.strict_entries
  have hnodup := hstrict.nodup
  rw [List.perm_ext_iff_of_nodup hnodup]
  · intro e
    simp only [otherEntries, List.mem_cons, List.mem_filter, decide_eq_true_eq]
    constructor
    · intro he
      by_cases hkey : pageKey e = pageKey entry
      · exact .inl (hstrict.inj he hentry hkey)
      · exact .inr ⟨he, hkey⟩
    · rintro (rfl | ⟨he, _⟩)
      · exact hentry
      · exact he
  · refine List.nodup_cons.mpr ⟨?_, hnodup.filter _⟩
    simp [otherEntries]

theorem InOrder.filed_eq (h : c.InOrder) (hentry : entry ∈ c.entries) :
    c.filed = c.ledgerEntry entry + c.otherFiled (pageKey entry) := by
  rw [filed, Multiset.coe_eq_coe.mpr (h.entries_perm hentry), ← Multiset.cons_coe,
    Multiset.cons_bind]
  rfl

theorem InOrder.overflowed_eq (h : c.InOrder) (hentry : entry ∈ c.entries) :
    c.overflowed = c.overflowEntry entry + c.otherOverflowed (pageKey entry) := by
  rw [overflowed, Multiset.coe_eq_coe.mpr (h.entries_perm hentry), ← Multiset.cons_coe,
    Multiset.cons_bind]
  rfl

/-- Without an entry of the page key, all entries are others. -/
theorem otherEntries_of_absent {key : Key} (habsent : ∀ e ∈ c.entries, pageKey e ≠ key) :
    c.otherEntries key = c.entries := by
  apply List.filter_eq_self.mpr
  simpa using habsent

/-! ### Putting an entry back -/

/-- What changes around an entry before it is put back: its overflow record, and what is
known about it. -/
structure ChangedAt (recipient : RecordKey) (c c₁ : Custodian D) : Prop where
  mailbox : c₁.mailboxStore = c.mailboxStore
  stores : ∀ r ≠ recipient, c₁.overflowStores.lookup r = c.overflowStores.lookup r
  records : ∀ r ≠ recipient, c₁.overflowRecords.lookup r = c.overflowRecords.lookup r

/-- A recipient is the only one with its page key. -/
def OwnsPageKey (c : Custodian D) (recipient : RecordKey) : Prop :=
  ∀ e ∈ c.entries, pageKey e = fullRecordKeyBytes recipient → e.recipientMainDht = recipient

section Upsert

variable {store : CowPagedStore D (MailboxRecipientEntry D)}

omit [DigestScheme D] in
theorem entries_of_mailboxStore (hstore : c.mailboxStore = some store) :
    c.entries = store.allEntries := by
  simp [entries, hstore]

/-- The entries after an entry has been put back. -/
theorem InOrder.entries_upsertEntry (h : c.InOrder) (hstore : c.mailboxStore = some store)
    (hchanged : ChangedAt entry.recipientMainDht c c₁) :
    (c₁.upsertEntry entry).entries.Perm (entry :: c.otherEntries (pageKey entry)) := by
  have hkept := h.mailbox store hstore
  have hentries : (c₁.upsertEntry entry).entries = (store.upsert entry).allEntries :=
    entries_of_mailboxStore (by simp [upsertEntry, hchanged.mailbox, hstore])
  rw [hentries, List.perm_ext_iff_of_nodup ((hkept.upsert entry).nodup)]
  · intro e
    rw [mem_upsert hkept.routed, otherEntries, entries_of_mailboxStore hstore]
    simp
  · refine List.nodup_cons.mpr ⟨?_, h.strict_entries.nodup.filter _⟩
    simp [otherEntries]

/-- The pointers of other recipients are as before. -/
theorem ledgerEntry_upsertEntry (hchanged : ChangedAt entry.recipientMainDht c c₁)
    {e : MailboxRecipientEntry D} (he : e ∈ c.otherEntries (pageKey entry)) :
    (c₁.upsertEntry entry).sourcesOf e = c.sourcesOf e := by
  have hkey : pageKey e ≠ pageKey entry := by
    simpa [otherEntries] using (List.mem_filter.mp he).2
  exact sourcesOf_congr (hchanged.stores _ (recipient_ne_of_pageKey_ne hkey))

theorem InOrder.filed_upsertEntry (h : c.InOrder) (hstore : c.mailboxStore = some store)
    (hchanged : ChangedAt entry.recipientMainDht c c₁) :
    (c₁.upsertEntry entry).filed = c₁.ledgerEntry entry + c.otherFiled (pageKey entry) := by
  rw [filed, Multiset.coe_eq_coe.mpr (h.entries_upsertEntry hstore hchanged),
    ← Multiset.cons_coe, Multiset.cons_bind]
  congr 1
  apply Multiset.bind_congr
  intro e he
  rw [ledgerEntry, ledgerEntry, ledgerEntry_upsertEntry hchanged (Multiset.mem_coe.mp he)]

theorem InOrder.overflowed_upsertEntry (h : c.InOrder) (hstore : c.mailboxStore = some store)
    (hchanged : ChangedAt entry.recipientMainDht c c₁) :
    (c₁.upsertEntry entry).overflowed =
      c₁.overflowEntry entry + c.otherOverflowed (pageKey entry) := by
  rw [overflowed, Multiset.coe_eq_coe.mpr (h.entries_upsertEntry hstore hchanged),
    ← Multiset.cons_coe, Multiset.cons_bind]
  congr 1
  apply Multiset.bind_congr
  intro e he
  rw [overflowEntry, overflowEntry, ledgerEntry_upsertEntry hchanged (Multiset.mem_coe.mp he)]

/-- Putting an entry back keeps the custodian in order. -/
theorem InOrder.upsertEntry (h : c.InOrder) (hstore : c.mailboxStore = some store)
    (hchanged : ChangedAt entry.recipientMainDht c c₁)
    (hown : ∀ overflow, c₁.overflowStores.lookup entry.recipientMainDht = some overflow →
      overflow.Kept)
    (hids : ∀ sources, entry.storage = .inline sources →
      (sources.map MailSourcePointer.messageId).Nodup)
    (hrecord : ∀ recordKey, overflowRecordOf (some entry) = some recordKey →
      ∀ e ∈ c.otherEntries (pageKey entry), overflowRecordOf (some e) ≠ some recordKey)
    (hknown : c₁.KnowsOverflow entry) : (c₁.upsertEntry entry).InOrder := by
  have hmem : ∀ e, e ∈ (c₁.upsertEntry entry).entries ↔
      e = entry ∨ e ∈ c.otherEntries (pageKey entry) := by
    intro e
    rw [(h.entries_upsertEntry hstore hchanged).mem_iff, List.mem_cons]
  have hother : ∀ e ∈ c.otherEntries (pageKey entry), e ∈ c.entries :=
    fun e he => List.mem_of_mem_filter he
  constructor
  case mailbox =>
    intro s hs
    simp only [Custodian.upsertEntry, hchanged.mailbox, hstore, Option.map_some] at hs
    cases hs
    exact (h.mailbox store hstore).upsert entry
  case overflow =>
    intro r overflow hlookup
    by_cases hr : r = entry.recipientMainDht
    · subst hr
      exact hown overflow hlookup
    · exact h.overflow r overflow ((hchanged.stores r hr).symm.trans hlookup)
  case ids =>
    intro e he
    rcases (hmem e).mp he with rfl | he
    · exact hids
    · exact h.ids e (hother e he)
  case records =>
    intro e he e' he' recordKey hk hk'
    rcases (hmem e).mp he with rfl | he <;> rcases (hmem e').mp he' with rfl | he'
    · rfl
    · exact absurd hk' (hrecord recordKey hk e' he')
    · exact absurd hk (hrecord recordKey hk' e he)
    · exact h.records e (hother e he) e' (hother e' he') recordKey hk hk'
  case known =>
  intro e he
  rcases (hmem e).mp he with rfl | he
  · exact hknown
  have hkey : pageKey e ≠ pageKey entry := by
    simpa [otherEntries] using (List.mem_filter.mp he).2
  have hne := recipient_ne_of_pageKey_ne hkey
  have hold := h.known e (hother e he)
  change ∀ _ _ _ _ _ _, _ → (c₁.overflowStores.lookup _).isSome → ∃ known,
    c₁.overflowRecords.lookup _ = some known ∧ _
  rw [hchanged.stores _ hne, hchanged.records _ hne]
  exact hold

end Upsert

/-! ### Removing pointers -/

section Removing

variable {store : CowPagedStore D (MailboxRecipientEntry D)}

/-- The custodian stays balanced, and the entries with other page keys stay. -/
structure Rebalanced (config : MailboxConfig) (entry : MailboxRecipientEntry D)
    (c c' : Custodian D) : Prop where
  balanced : c'.Balanced config
  others : ∀ e ∈ c.entries, pageKey e ≠ pageKey entry → e ∈ c'.entries

theorem Rebalanced.refl (h : c.Balanced config) : Rebalanced config entry c c :=
  ⟨h, fun _ he _ => he⟩

/-- Put back an entry that stands for fewer pointers than before. -/
theorem Balanced.rewrite (h : c.Balanced config) (hstore : c.mailboxStore = some store)
    (hentry : entry ∈ c.entries) (hchanged : ChangedAt entry.recipientMainDht c c₁)
    {entry' : MailboxRecipientEntry D} (hrecipient : entry'.recipientMainDht = entry.recipientMainDht)
    (hown : ∀ overflow, c₁.overflowStores.lookup entry.recipientMainDht = some overflow →
      overflow.Kept)
    (hids : ∀ sources, entry'.storage = .inline sources →
      (sources.map MailSourcePointer.messageId).Nodup)
    (hrecord : ∀ recordKey, overflowRecordOf (some entry') = some recordKey →
      overflowRecordOf (some entry) = some recordKey)
    (hknown : c₁.KnowsOverflow entry') (hcounts : c₁.quotaState.Counts
      (c₁.ledgerEntry entry' + c.otherFiled (pageKey entry))
      (c₁.overflowEntry entry' + c.otherOverflowed (pageKey entry)))
    (hless : c₁.ledgerEntry entry' ≤ c.ledgerEntry entry)
    (hlessOverflow : c₁.overflowEntry entry' ≤ c.overflowEntry entry) :
    Rebalanced config entry c (c₁.upsertEntry entry') := by
  have hkey : pageKey entry' = pageKey entry := by
    change fullRecordKeyBytes _ = fullRecordKeyBytes _
    rw [hrecipient]
  rw [← hrecipient] at hchanged hown
  have hfiled := h.inOrder.filed_upsertEntry hstore hchanged
  have hoverflowed := h.inOrder.overflowed_upsertEntry hstore hchanged
  rw [hkey] at hfiled hoverflowed
  refine ⟨⟨h.inOrder.upsertEntry hstore hchanged hown hids ?_ hknown, ?_, ?_⟩, ?_⟩
  · intro recordKey hk e he hke
    obtain ⟨he, hne⟩ := List.mem_filter.mp he
    have heq := h.inOrder.records e he entry hentry recordKey hke (hrecord recordKey hk)
    rw [hkey, heq] at hne
    simp at hne
  · rw [hfiled, hoverflowed]
    exact hcounts
  · apply h.within.mono
    · rw [hfiled, h.inOrder.filed_eq hentry]
      exact Multiset.add_le_add_right hless
    · rw [hoverflowed, h.inOrder.overflowed_eq hentry]
      exact Multiset.add_le_add_right hlessOverflow
  · intro e he hne
    rw [(h.inOrder.entries_upsertEntry hstore hchanged).mem_iff, hkey]
    apply List.mem_cons_of_mem
    simp [otherEntries, he, hne]

/-- Rewriting entries one after the other. -/
theorem foldl_rebalanced {rewrite : Custodian D → MailboxRecipientEntry D → Custodian D}
    (hrewrite : ∀ c entry, Balanced config c → entry ∈ c.entries →
      Rebalanced config entry c (rewrite c entry))
    (entries : List (MailboxRecipientEntry D)) (hstrict : KeyedList.Strict pageKey entries)
    (h : c.Balanced config) (hmem : ∀ e ∈ entries, e ∈ c.entries) :
    (entries.foldl rewrite c).Balanced config := by
  induction entries generalizing c with
  | nil => exact h
  | cons entry entries ih =>
    obtain ⟨hfirst, hrest⟩ := List.pairwise_cons.mp hstrict
    have hstep := hrewrite c entry h (hmem entry List.mem_cons_self)
    apply ih hrest hstep.balanced
    intro e he
    exact hstep.others e (hmem e (List.mem_cons_of_mem _ he)) (hfirst e he).ne'

end Removing

end Custodian

end VeilKnit.Mailbox
