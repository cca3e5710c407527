import VeilKnit.Mailbox.QuotaFiling

/-!
# What filing and committing do to the counters

However a pointer has been stored under its recipient, counting it once when it is new
leaves the counters in agreement with the ledger. A commit leaves the ledger alone: it
keeps the entries of its store, unless it fails over pages that dividing disturbs.
-/

namespace VeilKnit.Mailbox

open Library Fallible

variable {D σ : Type} [DigestScheme D]

/-- The limits of the quotas fit the counters. -/
structure MailboxConfig.CountersFit (config : MailboxConfig) : Prop where
  sender : config.activeMessagesPerSender < 2 ^ 32
  pair : config.activeMessagesPerSenderRecipient < 2 ^ 32
  recipient : config.activeMessagesPerRecipient < 2 ^ 32
  overflow : config.activeMessagesPerOverflowRecord < 2 ^ 32

namespace MailboxQuotaState

variable {state : MailboxQuotaState} {filed : Multiset (RecordKey × RecordKey)}
  {overflowed : Multiset RecordKey} {recipient recordKey : RecordKey}
  {pointer : MailSourcePointer} {config : MailboxConfig} {overflowRecord : Option RecordKey}

theorem hasRoom_of_ensureCanAdd (hfit : config.CountersFit)
    (h : state.ensureCanAdd recipient pointer overflowRecord config = .ok ()) :
    state.HasRoom recipient pointer := by
  obtain ⟨hsender, hpair, hrecipient, _⟩ := ensureCanAdd_ok h
  have := hfit.sender
  have := hfit.pair
  have := hfit.recipient
  exact ⟨by omega, by omega, by omega⟩

/-- A pointer that the quotas admit keeps the ledger within the limits. -/
theorem ledgerWithin_add (hcounts : state.Counts filed overflowed)
    (hwithin : LedgerWithin config filed overflowed)
    (h : state.ensureCanAdd recipient pointer overflowRecord config = .ok ()) :
    LedgerWithin config ((pointer.senderMainDht, recipient) ::ₘ filed) overflowed := by
  obtain ⟨hsender, hpair, hrecipient, _⟩ := ensureCanAdd_ok h
  rw [hcounts.senders] at hsender
  rw [hcounts.recipients] at hrecipient
  have hpair' := (hcounts.pairs (pointer.senderMainDht, recipient)).symm.trans_lt hpair
  refine ⟨fun s => ?_, fun p => ?_, fun r => ?_, hwithin.overflow⟩
  · rw [Multiset.map_cons, Multiset.count_cons]
    split
    · rename_i heq
      subst heq
      exact hsender
    · exact hwithin.senders s
  · rw [Multiset.count_cons]
    split
    · rename_i heq
      subst heq
      exact hpair'
    · exact hwithin.pairs p
  rw [Multiset.map_cons, Multiset.count_cons]
  split
  · rename_i heq
    subst heq
    exact hrecipient
  · exact hwithin.recipients r

end MailboxQuotaState

namespace Custodian

variable {c c₁ : Custodian D} {entry : MailboxRecipientEntry D} {config : MailboxConfig}
  {store : CowPagedStore D (MailboxRecipientEntry D)} {recipient : RecordKey}
  {pointer : MailSourcePointer}

/-! ## The entry of a recipient -/

/-- The entry stands for what the recipient has now. -/
structure IsCurrent (c : Custodian D) (recipient : RecordKey) (entry : MailboxRecipientEntry D) :
    Prop where
  isRecipient : entry.recipientMainDht = recipient
  isStorage : entry.storage = c.currentStorage recipient

/-- The recipient's own part of the ledger and the others'. -/
theorem InOrder.currentEntry (h : c.InOrder) (hstore : c.mailboxStore = some store)
    (howns : c.OwnsPageKey recipient) (hcurrent : c.IsCurrent recipient entry) :
    c.filed = c.ledgerEntry entry + c.otherFiled (pageKey entry) ∧
      c.overflowed = c.overflowEntry entry + c.otherOverflowed (pageKey entry) ∧
      (∀ sources, entry.storage = .inline sources →
        (sources.map MailSourcePointer.messageId).Nodup) ∧
      c.KnowsOverflow entry ∧
      ∀ recordKey, overflowRecordOf (some entry) = some recordKey →
        ∀ e ∈ c.otherEntries (pageKey entry), overflowRecordOf (some e) ≠ some recordKey := by
  have hrouted := (h.mailbox store hstore).routed
  have hentries := entries_of_mailboxStore hstore
  have hkey : pageKey entry = fullRecordKeyBytes recipient := by
    change fullRecordKeyBytes _ = _
    rw [hcurrent.isRecipient]
  have hstorage := hcurrent.isStorage
  rw [currentStorage, hstore, Option.bind_some] at hstorage
  cases hget : store.get (fullRecordKeyBytes recipient) with
  | none =>
    -- Nothing is filed under the recipient yet.
    rw [hget] at hstorage
    have habsent : ∀ e ∈ c.entries, pageKey e ≠ pageKey entry := by
      rw [hentries, hkey]
      exact (get_eq_none_iff hrouted).mp hget
    have hothers := otherEntries_of_absent habsent
    have hsources : c.sourcesOf entry = [] := by simp [sourcesOf, hstorage]
    refine ⟨?_, ?_, ?_, ?_, ?_⟩
    · rw [ledgerEntry, hsources, ledgerOf_nil, zero_add, otherFiled, hothers]
      rfl
    · rw [overflowEntry, hstorage, zero_add, otherOverflowed, hothers]
      rfl
    · rintro sources hsources'
      rw [hstorage] at hsources'
      cases hsources'
      exact List.nodup_nil
    · rintro _ _ _ _ _ _ hk
      rw [hstorage] at hk
      cases hk
    · intro recordKey hk
      simp [overflowRecordOf, hstorage] at hk
  | some existing =>
    rw [hget] at hstorage
    dsimp only at hstorage
    obtain ⟨hmem, hpage⟩ := (get_eq_some_iff hrouted).mp hget
    rw [← hentries] at hmem
    have hrecipient := howns existing hmem hpage
    -- The entry differs from the stored one in times only.
    have hsame : entry.recipientMainDht = existing.recipientMainDht :=
      hcurrent.isRecipient.trans hrecipient.symm
    have hsources : c.sourcesOf entry = c.sourcesOf existing := by
      unfold sourcesOf
      rw [hstorage, hsame]
    have hoverflow : c.overflowEntry entry = c.overflowEntry existing := by
      simp only [overflowEntry, hstorage, hsources]
    have hpage' : pageKey entry = pageKey existing := hkey.trans hpage.symm
    have hrecord : overflowRecordOf (some entry) = overflowRecordOf (some existing) := by
      simp only [overflowRecordOf, Option.map_some, hstorage]
    refine ⟨?_, ?_, ?_, ?_, ?_⟩
    · rw [h.filed_eq hmem, hpage', ledgerEntry, ledgerEntry, hsources, hsame]
    · rw [h.overflowed_eq hmem, hpage', hoverflow]
    · intro sources hsources'
      exact h.ids existing hmem sources (hstorage ▸ hsources')
    · have hold := h.known existing hmem
      unfold KnowsOverflow at hold ⊢
      rw [hstorage, hsame]
      exact hold
    intro recordKey hk e he hke
    rw [hrecord] at hk
    obtain ⟨he, hne⟩ := List.mem_filter.mp he
    have heq := h.records e he existing hmem recordKey hke hk
    rw [hpage', heq] at hne
    simp at hne

section

omit [DigestScheme D]

variable {recordKey : RecordKey}

/-- Pointers lie in the overflow record that their entry names. -/
theorem overflowRecordOf_of_mem (h : recordKey ∈ c.overflowEntry entry) :
    overflowRecordOf (some entry) = some recordKey := by
  unfold overflowEntry at h
  cases hstorage : entry.storage with
  | inline sources => simp [hstorage] at h
  | overflow key epoch count size digest since =>
    simp only [hstorage] at h
    rw [Multiset.eq_of_mem_replicate h]
    simp [overflowRecordOf, hstorage]

/-- No pointer lies in an overflow record that no entry names. -/
theorem notMem_overflowed (h : ∀ e ∈ c.entries, overflowRecordOf (some e) ≠ some recordKey) :
    recordKey ∉ c.overflowed := by
  intro hmem
  obtain ⟨e, he, hk⟩ := Multiset.mem_bind.mp hmem
  exact h e (Multiset.mem_coe.mp he) (overflowRecordOf_of_mem hk)

end

/-- Putting an entry back whose part of the ledger has been counted. -/
theorem Balanced.upsertEntry (h : c.Balanced config) (hstore : c.mailboxStore = some store)
    (hchanged : ChangedAt entry.recipientMainDht c c₁)
    (hown : ∀ overflow, c₁.overflowStores.lookup entry.recipientMainDht = some overflow →
      overflow.Kept)
    (hids : ∀ sources, entry.storage = .inline sources →
      (sources.map MailSourcePointer.messageId).Nodup)
    (hrecord : ∀ recordKey, overflowRecordOf (some entry) = some recordKey →
      ∀ e ∈ c.otherEntries (pageKey entry), overflowRecordOf (some e) ≠ some recordKey)
    (hknown : c₁.KnowsOverflow entry)
    (hcounts : c₁.quotaState.Counts (c₁.ledgerEntry entry + c.otherFiled (pageKey entry))
      (c₁.overflowEntry entry + c.otherOverflowed (pageKey entry)))
    (hwithin : LedgerWithin config (c₁.ledgerEntry entry + c.otherFiled (pageKey entry))
      (c₁.overflowEntry entry + c.otherOverflowed (pageKey entry))) :
    (c₁.upsertEntry entry).Balanced config := by
  have hinOrder := h.inOrder.upsertEntry hstore hchanged hown hids hrecord hknown
  rw [← h.inOrder.filed_upsertEntry hstore hchanged,
    ← h.inOrder.overflowed_upsertEntry hstore hchanged] at hcounts hwithin
  exact ⟨hinOrder, hcounts, hwithin⟩

/-! ## Filing -/

/-- The pointer with the same identifier, in the storage of a recipient. -/
theorem existingPointer_eq (hcurrent : c.IsCurrent recipient entry)
    (hstore : c.mailboxStore = some store) (messageId : Id32) :
    c.existingPointer recipient messageId (store.get (fullRecordKeyBytes recipient)) =
      match entry.storage with
      | .inline sources => sources.find? fun existing => existing.messageId = messageId
      | .overflow .. =>
        (c.overflowStores.lookup recipient).bind fun store => store.get messageId.val := by
  rw [hcurrent.isStorage, currentStorage, hstore, Option.bind_some]
  cases store.get (fullRecordKeyBytes recipient) <;> rfl

theorem overflowRecordOf_eq (hcurrent : c.IsCurrent recipient entry)
    (hstore : c.mailboxStore = some store) :
    overflowRecordOf (store.get (fullRecordKeyBytes recipient)) =
      overflowRecordOf (some entry) := by
  have hstorage := hcurrent.isStorage
  rw [currentStorage, hstore, Option.bind_some] at hstorage
  cases hget : store.get (fullRecordKeyBytes recipient) with
  | none =>
    rw [hget] at hstorage
    simp [overflowRecordOf, hstorage]
  | some existing =>
    rw [hget] at hstorage
    simp [overflowRecordOf, hstorage]

/-- Count a pointer, if it is new. -/
def withCount (c : Custodian D) (isNew : Bool) (recipient : RecordKey)
    (pointer : MailSourcePointer) (overflowRecord : Option RecordKey) : Custodian D :=
  if isNew then { c with quotaState := c.quotaState.noteAdded recipient pointer overflowRecord }
  else c

variable {overflowRecord : Option RecordKey}

section

omit [DigestScheme D]

variable {isNew : Bool}

theorem withCount_mailboxStore :
    (c₁.withCount isNew recipient pointer overflowRecord).mailboxStore = c₁.mailboxStore := by
  unfold withCount
  split <;> rfl

@[simp]
theorem withCount_overflowStores :
    (c₁.withCount isNew recipient pointer overflowRecord).overflowStores = c₁.overflowStores := by
  unfold withCount
  split <;> rfl

@[simp]
theorem withCount_overflowRecords :
    (c₁.withCount isNew recipient pointer overflowRecord).overflowRecords =
      c₁.overflowRecords := by
  unfold withCount
  split <;> rfl

theorem ChangedAt.withCount {r : RecordKey}
    (h : ChangedAt r c c₁) : ChangedAt r c (c₁.withCount isNew recipient pointer overflowRecord) :=
  ⟨withCount_mailboxStore.trans h.mailbox,
    fun r hr => by rw [withCount_overflowStores, h.stores r hr],
    fun r hr => by rw [withCount_overflowRecords, h.records r hr]⟩

theorem changedAt_refl (r : RecordKey) (c : Custodian D) : ChangedAt r c c :=
  ⟨rfl, fun _ _ => rfl, fun _ _ => rfl⟩

/-- Counting what filing adds to the ledger. -/
theorem counts_withCount (isNew : Bool) {filed : Multiset (RecordKey × RecordKey)}
    {overflowed : Multiset RecordKey} (hcounts : c₁.quotaState.Counts filed overflowed)
    (hroom : isNew → c₁.quotaState.HasRoom recipient pointer) :
    (c₁.withCount isNew recipient pointer none).quotaState.Counts
      (ledgerAdded isNew recipient pointer + filed) overflowed := by
  unfold withCount ledgerAdded
  cases isNew with
  | false => simpa using hcounts
  | true =>
    rw [if_pos rfl, if_pos rfl, Multiset.singleton_add]
    exact hcounts.noteAdded (hroom rfl)

theorem counts_withCount_overflow (isNew : Bool) (recordKey : RecordKey)
    {filed : Multiset (RecordKey × RecordKey)} {overflowed : Multiset RecordKey}
    (hcounts : c₁.quotaState.Counts filed overflowed)
    (hroom : isNew → c₁.quotaState.HasRoom recipient pointer ∧
      (c₁.quotaState.overflowRecordCounts recordKey).toNat + 1 < 2 ^ 32) :
    (c₁.withCount isNew recipient pointer (some recordKey)).quotaState.Counts
      (ledgerAdded isNew recipient pointer + filed)
      (Multiset.replicate (if isNew then 1 else 0) recordKey + overflowed) := by
  unfold withCount ledgerAdded
  cases isNew with
  | false => simpa using hcounts
  | true =>
    obtain ⟨hroom, hrecord⟩ := hroom rfl
    simpa using hcounts.noteAdded_overflow hroom hrecord

end

/-- What filing adds stays within the limits, if the quotas admit it. -/
theorem within_ledgerAdded {isNew : Bool} (h : c.Balanced config)
    (hadmitted : isNew → c.quotaState.ensureCanAdd recipient pointer overflowRecord config = .ok ()) :
    LedgerWithin config (ledgerAdded isNew recipient pointer + c.filed) c.overflowed := by
  unfold ledgerAdded
  cases isNew with
  | false => simpa using h.within
  | true =>
    rw [if_pos rfl, Multiset.singleton_add]
    exact MailboxQuotaState.ledgerWithin_add h.counts h.within (hadmitted rfl)

/-- Storing and counting a pointer keeps the custodian balanced. -/
theorem Balanced.stored (h : c.Balanced config) (hfit : config.CountersFit)
    (hstore : c.mailboxStore = some store) (howns : c.OwnsPageKey recipient)
    (hcurrent : c.IsCurrent recipient entry) {isNew : Bool} (hisNew : isNew =
      (c.existingPointer recipient pointer.messageId
        (store.get (fullRecordKeyBytes recipient))).isNone)
    (hsender : ∀ existing ∈ c.existingPointer recipient pointer.messageId
      (store.get (fullRecordKeyBytes recipient)), existing.senderMainDht = pointer.senderMainDht)
    (hadmitted : isNew → c.quotaState.ensureCanAdd recipient pointer
      (overflowRecordOf (some entry)) config = .ok ())
    {stored : RecipientSourceStorage D × Bool}
    (hstored : PointerStored config c recipient pointer entry.storage stored c₁)
    {entry' : MailboxRecipientEntry D} (hrecipient : entry'.recipientMainDht = recipient)
    (hstorage' : entry'.storage = stored.1) :
    ((c₁.withCount isNew recipient pointer
      (if stored.2 then none else overflowRecordOf (some entry))).upsertEntry entry').Balanced
        config := by
  obtain ⟨hfiled, hoverflowed, hids, hknown, hrecord⟩ :=
    h.inOrder.currentEntry hstore howns hcurrent
  rw [existingPointer_eq hcurrent hstore] at hisNew hsender
  have hkey : pageKey entry' = pageKey entry := by
    change fullRecordKeyBytes _ = fullRecordKeyBytes _
    rw [hrecipient, hcurrent.isRecipient]
  have hroom : isNew → c.quotaState.HasRoom recipient pointer := fun hnew =>
    MailboxQuotaState.hasRoom_of_ensureCanAdd hfit (hadmitted hnew)
  have hwithin := within_ledgerAdded h hadmitted
  generalize hstorage : entry.storage = storage at hstored hisNew hsender
  cases hstored with
  | @inline sources =>
    dsimp only at hisNew hstorage'
    have hsources : c.sourcesOf entry = sources := by simp [sourcesOf, hstorage]
    obtain ⟨hids', hledger⟩ :=
      filedInline_spec recipient pointer (hids sources hstorage)
    rw [← hisNew] at hledger
    have hrecord' : overflowRecordOf (some entry) = none := by simp [overflowRecordOf, hstorage]
    have hentry : c.overflowEntry entry = 0 := by simp [overflowEntry, hstorage]
    have hentry' : ∀ c₂ : Custodian D, c₂.overflowEntry entry' = 0 := by
      simp [overflowEntry, hstorage']
    have hledger' : ∀ c₂ : Custodian D, c₂.ledgerEntry entry' =
        ledgerAdded isNew recipient pointer + c.ledgerEntry entry := by
      intro c₂
      rw [ledgerEntry, ledgerEntry, hsources, hrecipient, hcurrent.isRecipient, ← hledger]
      simp [sourcesOf, hstorage']
    rw [hrecord', if_neg (by simp)]
    have hcounts := counts_withCount isNew h.counts hroom
    rw [hfiled, hoverflowed, ← add_assoc] at hcounts hwithin
    apply h.upsertEntry hstore
    case hchanged => exact (changedAt_refl _ c).withCount
    case hown =>
      intro overflow hlookup
      rw [withCount_overflowStores] at hlookup
      exact h.inOrder.overflow _ _ hlookup
    case hids =>
      rintro sources' hs
      cases hstorage'.symm.trans hs
      exact hids'
    case hrecord =>
      intro k hk
      simp [overflowRecordOf, hstorage'] at hk
    case hknown =>
      intro _ _ _ _ _ _ hk
      rw [hstorage'] at hk
      cases hk
    case hcounts =>
      rw [hledger', hentry', hkey, ← hentry]
      exact hcounts
    case hwithin =>
      rw [hledger', hentry', hkey, ← hentry]
      exact hwithin
  | @overflow recordKey overflowEpoch _ _ _ _ overflow lookup =>
    dsimp only [Option.bind] at hisNew hsender hstorage'
    rw [lookup] at hisNew hsender
    have hkept := h.inOrder.overflow _ _ lookup
    have hlookup : c.overflowStores.lookup entry.recipientMainDht = some overflow := by
      rw [hcurrent.isRecipient]
      exact lookup
    have hsources : c.sourcesOf entry = overflow.allEntries := by
      simp [sourcesOf, hstorage, hlookup]
    have hrecord' : overflowRecordOf (some entry) = some recordKey := by
      simp [overflowRecordOf, hstorage]
    rw [hrecord'] at hadmitted ⊢
    obtain ⟨hledger, hlength⟩ := upsertOverflow_spec recipient hkept fun existing hget =>
      hsender existing hget
    rw [← hisNew] at hledger hlength
    -- One more pointer in the record is within its limit.
    have hone : isNew → c.overflowed.count recordKey < config.activeMessagesPerOverflowRecord := by
      intro hnew
      rw [← h.counts.overflow]
      exact (MailboxQuotaState.ensureCanAdd_ok (hadmitted hnew)).2.2.2 recordKey rfl
    have hroom' : isNew → c.quotaState.HasRoom recipient pointer ∧
        (c.quotaState.overflowRecordCounts recordKey).toNat + 1 < 2 ^ 32 := by
      intro hnew
      have hlt := hone hnew
      rw [← h.counts.overflow] at hlt
      have := hfit.overflow
      exact ⟨hroom hnew, by omega⟩
    have hcounts₁ : Custodian.quotaState
        { c with overflowStores := c.overflowStores.insert recipient (overflow.upsert pointer) }
        |>.Counts c.filed c.overflowed := h.counts
    have hcounts := counts_withCount_overflow isNew recordKey hcounts₁ hroom'
    have hwithin' : LedgerWithin config (ledgerAdded isNew recipient pointer + c.filed)
        (Multiset.replicate (if isNew then 1 else 0) recordKey + c.overflowed) := by
      refine ⟨hwithin.senders, hwithin.pairs, hwithin.recipients, fun k => ?_⟩
      rw [Multiset.count_add, Multiset.count_replicate]
      have hold := h.within.overflow k
      split
      · rename_i heq
        subst heq
        split
        · rename_i hnew
          have := hone hnew
          omega
        · omega
      · omega
    have hlookup' : ((c.overflowStores.insert recipient (overflow.upsert pointer)).lookup
        entry'.recipientMainDht) = some (overflow.upsert pointer) := by
      rw [hrecipient, AList.lookup_insert]
    rw [if_neg (by simp)]
    generalize hc₂ : withCount _ isNew recipient pointer (some recordKey) = c₂ at hcounts ⊢
    have hstores : c₂.overflowStores =
        c.overflowStores.insert recipient (overflow.upsert pointer) := by
      rw [← hc₂, withCount_overflowStores]
    have hrecords : c₂.overflowRecords = c.overflowRecords := by
      rw [← hc₂, withCount_overflowRecords]
    have hsources' : c₂.sourcesOf entry' = (overflow.upsert pointer).allEntries := by
      simp [sourcesOf, hstorage', describeOverflow, hstores, hlookup']
    have hledger' : c₂.ledgerEntry entry' =
        ledgerAdded isNew recipient pointer + c.ledgerEntry entry := by
      rw [ledgerEntry, ledgerEntry, hsources, hsources', hrecipient, hcurrent.isRecipient, hledger]
    have hentry' : c₂.overflowEntry entry' =
        Multiset.replicate (if isNew then 1 else 0) recordKey + c.overflowEntry entry := by
      simp only [overflowEntry, hstorage, hstorage', describeOverflow]
      rw [hsources, hsources', hlength, Multiset.replicate_add]
    rw [hfiled, hoverflowed, ← add_assoc, ← add_assoc] at hcounts hwithin'
    apply h.upsertEntry hstore
    case hchanged =>
      rw [hrecipient, ← hc₂]
      apply ChangedAt.withCount
      exact ⟨rfl, fun r hr => AList.lookup_insert_ne hr, fun _ _ => rfl⟩
    case hown =>
      intro s hs
      rw [hstores, hlookup'] at hs
      cases hs
      exact hkept.upsert pointer
    case hids =>
      intro sources' hs
      rw [hstorage'] at hs
      cases hs
    case hrecord =>
      intro k hk
      rw [hkey]
      apply hrecord k
      rw [hrecord', ← hk]
      simp [overflowRecordOf, hstorage', describeOverflow]
    case hknown =>
      rintro _ _ _ _ _ _ hk -
      rw [hstorage'] at hk
      obtain ⟨rfl, rfl, _⟩ := RecipientSourceStorage.overflow.inj hk
      rw [hrecords, hrecipient, ← hcurrent.isRecipient]
      exact hknown _ _ _ _ _ _ hstorage (by simp [hlookup])
    case hcounts =>
      rw [hledger', hentry', hkey]
      exact hcounts
    case hwithin =>
      rw [hledger', hentry', hkey]
      exact hwithin'
  | @promoted sources prepared log kept entries fresh fits =>
    dsimp only at hisNew hstorage'
    have hsources : c.sourcesOf entry = sources := by simp [sourcesOf, hstorage]
    obtain ⟨hids', hledger⟩ :=
      filedInline_spec recipient pointer (hids sources hstorage)
    rw [← hisNew] at hledger
    have hperm : prepared.store.allEntries.Perm (filedInline pointer sources) :=
      (List.perm_ext_iff_of_nodup kept.nodup hids'.of_map).mpr entries
    rw [← ledgerOf_perm _ hperm] at hledger
    have hentry : c.overflowEntry entry = 0 := by simp [overflowEntry, hstorage]
    have habsent := notMem_overflowed fresh
    have hfits : prepared.store.allEntries.length < 2 ^ 32 := by
      have := hfit.overflow
      omega
    -- The promotion has set the count of the record; the pointer itself is counted after it.
    have hcounts₁ : ({ c with pendingTransactions := log }.promoted recipient
        prepared).quotaState.Counts c.filed (Multiset.replicate prepared.store.allEntries.length
          prepared.recordKey + c.overflowed) := h.counts.setOverflowCount hfits habsent
    have hcounts := counts_withCount isNew hcounts₁ fun hnew =>
      (⟨(hroom hnew).sender, (hroom hnew).pair, (hroom hnew).recipient⟩ :
        ({ c with pendingTransactions := log }.promoted recipient prepared).quotaState.HasRoom
          recipient pointer)
    have hwithin' : LedgerWithin config (ledgerAdded isNew recipient pointer + c.filed)
        (Multiset.replicate prepared.store.allEntries.length prepared.recordKey +
          c.overflowed) := by
      refine ⟨hwithin.senders, hwithin.pairs, hwithin.recipients, fun k => ?_⟩
      rw [Multiset.count_add, Multiset.count_replicate]
      split
      · rename_i heq
        subst heq
        rw [Multiset.count_eq_zero_of_notMem habsent]
        exact fits
      · rw [Nat.zero_add]
        exact h.within.overflow k
    rw [if_pos rfl]
    generalize hc₂ : withCount _ isNew recipient pointer none = c₂ at hcounts ⊢
    have hstores : c₂.overflowStores = c.overflowStores.insert recipient prepared.store := by
      rw [← hc₂, withCount_overflowStores, promoted]
    have hlookup' : c₂.overflowStores.lookup entry'.recipientMainDht = some prepared.store := by
      rw [hstores, hrecipient, AList.lookup_insert]
    have hsources' : c₂.sourcesOf entry' = prepared.store.allEntries := by
      simp [sourcesOf, hstorage', PreparedOverflow.storage, describeOverflow, hlookup']
    have hledger' : c₂.ledgerEntry entry' =
        ledgerAdded isNew recipient pointer + c.ledgerEntry entry := by
      rw [ledgerEntry, ledgerEntry, hsources, hsources', hrecipient, hcurrent.isRecipient, hledger]
    have hentry' : c₂.overflowEntry entry' =
        Multiset.replicate prepared.store.allEntries.length prepared.recordKey := by
      simp only [overflowEntry, hstorage', PreparedOverflow.storage, describeOverflow]
      rw [hsources']
    rw [hfiled, hoverflowed, hentry, zero_add, ← add_assoc] at hcounts hwithin'
    apply h.upsertEntry hstore
    case hchanged =>
      rw [hrecipient, ← hc₂]
      apply ChangedAt.withCount
      exact ⟨rfl, fun r hr => AList.lookup_insert_ne hr, fun r hr => AList.lookup_insert_ne hr⟩
    case hown =>
      intro s hs
      rw [hlookup'] at hs
      cases hs
      exact kept
    case hids =>
      intro sources' hs
      rw [hstorage'] at hs
      cases hs
    case hrecord =>
      intro k hk e he
      obtain rfl : prepared.recordKey = k := by
        simpa [overflowRecordOf, hstorage', PreparedOverflow.storage, describeOverflow] using hk
      exact fresh e (List.mem_of_mem_filter he)
    case hknown =>
      rintro _ _ _ _ _ _ hk -
      rw [hstorage'] at hk
      obtain ⟨rfl, rfl, _⟩ := RecipientSourceStorage.overflow.inj hk
      rw [hrecipient, ← hc₂, withCount_overflowRecords, promoted]
      exact ⟨_, AList.lookup_insert _, rfl, rfl⟩
    case hcounts =>
      rw [hledger', hentry', hkey]
      exact hcounts
    case hwithin =>
      rw [hledger', hentry', hkey]
      exact hwithin'

/-! ## Commits -/

/-- The stores have been committed: they are in order and hold what they held. -/
structure Recommitted (c c' : Custodian D) : Prop where
  inOrder : c'.InOrder
  entries : c'.entries = c.entries
  stores : ∀ r, (c'.overflowStores.lookup r).map CowPagedStore.allEntries =
    (c.overflowStores.lookup r).map CowPagedStore.allEntries
  records : c'.overflowRecords = c.overflowRecords
  quota : c'.quotaState = c.quotaState

theorem Recommitted.refl (h : c.InOrder) : Recommitted c c := ⟨h, rfl, fun _ => rfl, rfl, rfl⟩

variable {e : MailboxRecipientEntry D}

omit [DigestScheme D] in
/-- The pointers of an entry depend on what the overflow record of its recipient holds. -/
theorem sourcesOf_of_allEntries
    (h : (c₁.overflowStores.lookup e.recipientMainDht).map CowPagedStore.allEntries =
      (c.overflowStores.lookup e.recipientMainDht).map CowPagedStore.allEntries) :
    c₁.sourcesOf e = c.sourcesOf e := by
  unfold sourcesOf
  cases e.storage with
  | inline sources => rfl
  | overflow =>
    cases h₁ : c₁.overflowStores.lookup e.recipientMainDht <;>
      cases h₂ : c.overflowStores.lookup e.recipientMainDht <;> simp_all

theorem Recommitted.filed (h : Recommitted c c₁) : c₁.filed = c.filed := by
  rw [Custodian.filed, Custodian.filed, h.entries]
  apply Multiset.bind_congr
  intro e _
  rw [ledgerEntry, ledgerEntry, sourcesOf_of_allEntries (h.stores _)]

theorem Recommitted.overflowed (h : Recommitted c c₁) : c₁.overflowed = c.overflowed := by
  rw [Custodian.overflowed, Custodian.overflowed, h.entries]
  apply Multiset.bind_congr
  intro e _
  rw [overflowEntry, overflowEntry, sourcesOf_of_allEntries (h.stores _)]

theorem Recommitted.balanced (h : Recommitted c c₁) (hbalanced : c.Balanced config) :
    c₁.Balanced config := by
  refine ⟨h.inOrder, ?_, ?_⟩
  · rw [h.quota, h.filed, h.overflowed]
    exact hbalanced.counts
  · rw [h.filed, h.overflowed]
    exact hbalanced.within

omit [DigestScheme D] in
theorem KnowsOverflow.congr (h : c.KnowsOverflow e)
    (hstores : (c₁.overflowStores.lookup e.recipientMainDht).isSome =
      (c.overflowStores.lookup e.recipientMainDht).isSome)
    (hrecords : c₁.overflowRecords = c.overflowRecords) : c₁.KnowsOverflow e := by
  unfold KnowsOverflow at h ⊢
  rw [hstores, hrecords]
  exact h

section Committing

variable [DecidableEq D] (env : Surroundings σ)

variable (config) in
/-- Committing the mailbox keeps everything, unless it fails over pages that dividing
disturbs. -/
theorem triple_commitMailbox (free : CollisionFree D) :
    Triple (fun s => Recommitted c s.1) (commitMailbox env config : Custodial D σ Unit)
      (fun _ s => Recommitted c s.1)
      fun _ s => Recommitted c s.1 ∨ s.1.LeftDisturbed config := by
  rintro ⟨c₁, w⟩ h
  simp only [commitMailbox]
  cases hstore : c₁.mailboxStore with
  | none => exact h
  | some store =>
    have hkept := h.inOrder.mailbox store hstore
    have hcommit := commitInner_kept free config (env.dht store.packageIndex) hkept
      (commitClock env w).1 c₁.pendingTransactions (commitClock env w).2
    dsimp only at hcommit ⊢
    generalize commitInner (env.dht store.packageIndex) store config _ _ _ = outcome at hcommit
    have hsame (hkept' : outcome.store.Kept)
        (hentries : outcome.store.allEntries = store.allEntries) : Recommitted c { c₁ with
          mailboxStore := some outcome.store
          pendingTransactions := outcome.transactions } := by
      have hall : Custodian.entries { c₁ with
          mailboxStore := some outcome.store
          pendingTransactions := outcome.transactions } = c₁.entries := by
        rw [entries_of_mailboxStore hstore, ← hentries]
        rfl
      refine ⟨⟨fun s hs => ?_, h.inOrder.overflow, ?_, ?_, ?_⟩, hall.trans h.entries, h.stores,
        h.records, h.quota⟩
      · cases hs
        exact hkept'
      · rw [hall]
        exact h.inOrder.ids
      · rw [hall]
        exact h.inOrder.records
      · rw [hall]
        exact h.inOrder.known
    rcases hresult : outcome.result with error | b
    · rcases hcommit with ⟨hkept', hentries⟩ | ⟨_, hdivided, hdisturbed⟩
      · exact .inl (hsame hkept' hentries)
      · exact .inr (.inl ⟨store, hkept.routed, hdisturbed, congrArg some hdivided⟩)
    · rcases hcommit with ⟨hkept', hentries⟩ | ⟨hfails, _⟩
      · exact hsame hkept' hentries
      · exact absurd hresult (hfails b)

variable (config) in
theorem triple_commitOverflow (free : CollisionFree D) (recipient : RecordKey) :
    Triple (fun s => Recommitted c s.1) (commitOverflow env config recipient : Custodial D σ Unit)
      (fun _ s => Recommitted c s.1)
      fun _ s => Recommitted c s.1 ∨ s.1.LeftDisturbed config := by
  rintro ⟨c₁, w⟩ h
  simp only [commitOverflow]
  cases hstore : c₁.overflowStores.lookup recipient with
  | none => exact h
  | some store =>
    have hkept := h.inOrder.overflow _ store hstore
    have hcommit := commitInner_kept free config (env.dht store.packageIndex) hkept
      (commitClock env w).1 c₁.pendingTransactions (commitClock env w).2
    dsimp only at hcommit ⊢
    generalize commitInner (env.dht store.packageIndex) store config _ _ _ = outcome at hcommit
    have hsame (hkept' : outcome.store.Kept)
        (hentries : outcome.store.allEntries = store.allEntries) : Recommitted c { c₁ with
          overflowStores := c₁.overflowStores.insert recipient outcome.store
          pendingTransactions := outcome.transactions } := by
      have hlookup : ∀ r, ((c₁.overflowStores.insert recipient outcome.store).lookup r).map
          CowPagedStore.allEntries = (c₁.overflowStores.lookup r).map
            CowPagedStore.allEntries := by
        intro r
        by_cases hr : r = recipient
        · subst hr
          rw [AList.lookup_insert, hstore, Option.map_some, Option.map_some, hentries]
        · rw [AList.lookup_insert_ne hr]
      refine ⟨⟨h.inOrder.mailbox, AList.forall_lookup_insert hkept' h.inOrder.overflow,
        h.inOrder.ids, h.inOrder.records, fun e he => ?_⟩, h.entries,
        fun r => (hlookup r).trans (h.stores r), h.records, h.quota⟩
      refine (h.inOrder.known e he).congr ?_ rfl
      have hsome := congrArg Option.isSome (hlookup e.recipientMainDht)
      simpa using hsome
    rcases hresult : outcome.result with error | b
    · rcases hcommit with ⟨hkept', hentries⟩ | ⟨_, hdivided, hdisturbed⟩
      · exact .inl (hsame hkept' hentries)
      · refine .inr (.inr ⟨recipient, store, hkept.routed, hdisturbed, ?_⟩)
        exact (AList.lookup_insert _).trans (congrArg some hdivided)
    · rcases hcommit with ⟨hkept', hentries⟩ | ⟨hfails, _⟩
      · exact hsame hkept' hentries
      · exact absurd hresult (hfails b)

variable (config) in
theorem triple_flush (free : CollisionFree D) (order : List RecordKey) :
    Triple (fun s => Recommitted c s.1) (flushCustodianStores env config order : Custodial D σ Unit)
      (fun _ s => Recommitted c s.1)
      fun _ s => Recommitted c s.1 ∨ s.1.LeftDisturbed config := by
  apply triple_bind (triple_traverse (I := fun _ _ (s : Custodian D × σ) => Recommitted c s.1)
    fun _ recipient _ _ _ => triple_commitOverflow config env free recipient)
  intro _
  exact triple_commitMailbox config env free

end Committing

end Custodian

end VeilKnit.Mailbox
