import VeilKnit.Mailbox.QuotaBalance

/-!
# Passes that take pointers away

A withdrawal takes one identifier out of every entry of the mailbox, and expiry takes out
the pointers that have reached their end. Both keep a custodian balanced, whatever its
entries are: each pointer that leaves a list leaves the counters with it.
-/

namespace VeilKnit.Mailbox

open Library

variable {D : Type} [DigestScheme D]

/-! ## Lists and stores that give up pointers -/

/-- Taking out the first element that is found. -/
theorem perm_cons_eraseP {α : Type*} {p : α → Bool} {l : List α} {a : α}
    (h : l.find? p = some a) : l.Perm (a :: l.eraseP p) := by
  obtain ⟨ha, before, after, rfl, hbefore⟩ := List.find?_eq_some_iff_append.mp h
  rw [List.eraseP_append_right _ (by simpa using hbefore), List.eraseP_cons_of_pos ha]
  exact List.perm_middle

/-- Taking an entry out of a store. -/
theorem CowPagedStore.Kept.remove_perm {store store' : CowPagedStore D MailSourcePointer}
    (h : store.Kept) {key : Key} {pointer : MailSourcePointer}
    (hremove : store.remove key = (some pointer, store')) :
    store.allEntries.Perm (pointer :: store'.allEntries) := by
  have hkept := h.remove key
  have hmem := mem_remove h.routed key
  rw [hremove] at hkept hmem
  have hget : store.get key = some pointer := by
    unfold CowPagedStore.remove at hremove
    split at hremove
    · cases hremove
    · rename_i entry hentry
      exact hentry.trans (Prod.mk.inj hremove).1
  obtain ⟨hpointer, hkey⟩ := (get_eq_some_iff h.routed).mp hget
  rw [List.perm_ext_iff_of_nodup h.nodup]
  · intro p
    rw [List.mem_cons, hmem]
    constructor
    · intro hp
      by_cases hpkey : pageKey p = key
      · exact .inl (h.routed.strict_entries.inj hp hpointer (hpkey.trans hkey.symm))
      · exact .inr ⟨hp, hpkey⟩
    · rintro (rfl | ⟨hp, _⟩)
      · exact hpointer
      · exact hp
  · refine List.nodup_cons.mpr ⟨fun hp => ?_, hkept.nodup⟩
    exact ((hmem pointer).mp hp).2 hkey

/-- Removing a list of identifiers collects what leaves the store. -/
theorem removeAll_perm (messageIds : List Id32) (removed : List MailSourcePointer)
    {overflow : CowPagedStore D MailSourcePointer} (h : overflow.Kept) :
    (Custodian.removeAll messageIds (removed, overflow)).2.Kept ∧
      (removed ++ overflow.allEntries).Perm
        ((Custodian.removeAll messageIds (removed, overflow)).1 ++
          (Custodian.removeAll messageIds (removed, overflow)).2.allEntries) := by
  induction messageIds generalizing removed overflow with
  | nil => exact ⟨h, List.Perm.refl _⟩
  | cons messageId messageIds ih =>
    rcases hremove : overflow.remove messageId.val with ⟨_ | pointer, overflow'⟩
    · have hsame : Custodian.removeAll (messageId :: messageIds) (removed, overflow) =
          Custodian.removeAll messageIds (removed, overflow') := by
        simp [Custodian.removeAll, hremove]
      obtain rfl : overflow = overflow' := by
        unfold CowPagedStore.remove at hremove
        split at hremove
        · exact (Prod.mk.inj hremove).2
        · cases hremove
      rw [hsame]
      exact ih removed h
    have hstep : Custodian.removeAll (messageId :: messageIds) (removed, overflow) =
        Custodian.removeAll messageIds (removed ++ [pointer], overflow') := by
      simp [Custodian.removeAll, hremove]
    have hkept := h.remove messageId.val
    rw [hremove] at hkept
    obtain ⟨hkept', hperm⟩ := ih (removed ++ [pointer]) hkept
    rw [hstep]
    refine ⟨hkept', List.Perm.trans ?_ hperm⟩
    rw [List.append_assoc, List.singleton_append]
    exact (h.remove_perm hremove).append_left removed

namespace MailboxQuotaState

variable {state : MailboxQuotaState} {filed : Multiset (RecordKey × RecordKey)}
  {overflowed : Multiset RecordKey} {recipient recordKey : RecordKey}

/-- Counting removed pointers takes them out of what is counted. -/
theorem Counts.noteRemovedAll (removed : List MailSourcePointer)
    (h : state.Counts (ledgerOf recipient removed + filed) overflowed) :
    (removed.foldl (fun state pointer => state.noteRemoved recipient pointer none) state).Counts
      filed overflowed := by
  induction removed generalizing state with
  | nil => simpa using h
  | cons pointer removed ih =>
    rw [ledgerOf_cons, Multiset.cons_add] at h
    exact ih h.noteRemoved

theorem Counts.noteRemovedAll_overflow (removed : List MailSourcePointer)
    (h : state.Counts (ledgerOf recipient removed + filed)
      (Multiset.replicate removed.length recordKey + overflowed)) :
    (removed.foldl (fun state pointer => state.noteRemoved recipient pointer (some recordKey))
      state).Counts filed overflowed := by
  induction removed generalizing state with
  | nil => simpa using h
  | cons pointer removed ih =>
    rw [ledgerOf_cons, Multiset.cons_add, List.length_cons, Multiset.replicate_succ,
      Multiset.cons_add] at h
    exact ih h.noteRemoved_overflow

end MailboxQuotaState

namespace Custodian

variable {c : Custodian D} {entry : MailboxRecipientEntry D} {config : MailboxConfig}

omit [DigestScheme D] in
theorem exists_store_of_mem (hentry : entry ∈ c.entries) :
    ∃ store, c.mailboxStore = some store := by
  unfold entries at hentry
  cases hstore : c.mailboxStore with
  | none => simp [hstore] at hentry
  | some store => exact ⟨store, rfl⟩

/-! ## Entries that give up pointers -/

theorem Balanced.giveUpInline {sources removed kept : List MailSourcePointer}
    (h : c.Balanced config) (hentry : entry ∈ c.entries) (hstorage : entry.storage = .inline sources)
    (hperm : (removed ++ kept).Perm sources) (hsub : kept.Sublist sources) :
    Rebalanced config entry c ((c.noteRemovedAll entry.recipientMainDht removed none).upsertEntry
      { entry with storage := .inline kept }) := by
  obtain ⟨store, hstore⟩ := exists_store_of_mem hentry
  have hcounts := h.counts
  have hsources : c.sourcesOf entry = sources := by simp [sourcesOf, hstorage]
  have hledger : c.ledgerEntry entry = ledgerOf entry.recipientMainDht removed +
      ledgerOf entry.recipientMainDht kept := by
    rw [ledgerEntry, hsources, ← ledgerOf_perm _ hperm, ledgerOf_append]
  have hoverflow : c.overflowEntry entry = 0 := by simp [overflowEntry, hstorage]
  rw [h.inOrder.filed_eq hentry, h.inOrder.overflowed_eq hentry, hledger, hoverflow,
    add_assoc] at hcounts
  apply h.rewrite hstore hentry
  case hchanged => exact ⟨rfl, fun _ _ => rfl, fun _ _ => rfl⟩
  case hrecipient => rfl
  case hown => exact h.inOrder.overflow _
  case hids =>
    rintro sources' hsources'
    cases hsources'
    exact (h.inOrder.ids entry hentry sources hstorage).sublist (hsub.map _)
  case hrecord => exact fun _ hk => by simp [overflowRecordOf] at hk
  case hknown => exact fun _ _ _ _ _ _ hk => by cases hk
  case hcounts => exact hcounts.noteRemovedAll
  case hless =>
    rw [hledger]
    exact Multiset.le_add_left _ _
  case hlessOverflow =>
    rw [hoverflow]
    exact le_refl _

theorem Balanced.giveUpOverflow {recordKey : RecordKey} {overflowEpoch : Id16}
    {entryCount serializedSize : UInt32} {digest : D} {since : Option UInt64}
    {overflow overflow' : CowPagedStore D MailSourcePointer} {removed : List MailSourcePointer}
    (h : c.Balanced config) (hentry : entry ∈ c.entries) (hstorage : entry.storage =
      .overflow recordKey overflowEpoch entryCount serializedSize digest since)
    (hlookup : c.overflowStores.lookup entry.recipientMainDht = some overflow)
    (hkept : overflow'.Kept) (hperm : overflow.allEntries.Perm (removed ++ overflow'.allEntries)) :
    Rebalanced config entry c (({ c with
      overflowStores := c.overflowStores.insert entry.recipientMainDht overflow'
      }.noteRemovedAll entry.recipientMainDht removed (some recordKey)).upsertEntry
        { entry with
          storage := describeOverflow recordKey overflowEpoch overflow'.allEntries since }) := by
  obtain ⟨store, hstore⟩ := exists_store_of_mem hentry
  have hcounts := h.counts
  have hsources : c.sourcesOf entry = overflow.allEntries := by
    simp [sourcesOf, hstorage, hlookup]
  have hledger : c.ledgerEntry entry = ledgerOf entry.recipientMainDht removed +
      ledgerOf entry.recipientMainDht overflow'.allEntries := by
    rw [ledgerEntry, hsources, ledgerOf_perm _ hperm, ledgerOf_append]
  have hoverflow : c.overflowEntry entry = Multiset.replicate removed.length recordKey +
      Multiset.replicate overflow'.allEntries.length recordKey := by
    simp only [overflowEntry, hstorage]
    rw [hsources, hperm.length_eq, List.length_append, Multiset.replicate_add]
  rw [h.inOrder.filed_eq hentry, h.inOrder.overflowed_eq hentry, hledger, hoverflow, add_assoc,
    add_assoc] at hcounts
  apply h.rewrite hstore hentry
  case hchanged => exact ⟨rfl, fun r hr => AList.lookup_insert_ne hr, fun _ _ => rfl⟩
  case hrecipient => rfl
  case hown =>
    intro s hs
    simp only [noteRemovedAll, AList.lookup_insert] at hs
    cases hs
    exact hkept
  case hids => exact fun _ hs => by cases hs
  case hrecord =>
    intro k hk
    simpa [overflowRecordOf, describeOverflow, hstorage] using hk
  case hknown =>
    rintro _ _ _ _ _ _ hk -
    obtain ⟨rfl, rfl, _⟩ := RecipientSourceStorage.overflow.inj hk
    exact h.inOrder.known entry hentry _ _ _ _ _ _ hstorage (by simp [hlookup])
  case hcounts =>
    have hnew := hcounts.noteRemovedAll_overflow
    simpa [ledgerEntry, overflowEntry, sourcesOf, describeOverflow, noteRemovedAll] using hnew
  case hless =>
    rw [hledger]
    have hle := Multiset.le_add_left (ledgerOf entry.recipientMainDht overflow'.allEntries)
      (ledgerOf entry.recipientMainDht removed)
    simpa [ledgerEntry, sourcesOf, describeOverflow, noteRemovedAll] using hle
  case hlessOverflow =>
    rw [hoverflow]
    have hle := Multiset.le_add_left (Multiset.replicate overflow'.allEntries.length recordKey)
      (Multiset.replicate removed.length recordKey)
    simpa [overflowEntry, sourcesOf, describeOverflow, noteRemovedAll] using hle

/-! ## Removing an identifier -/

theorem removePointerFrom_rebalanced (messageId : Id32) (h : c.Balanced config)
    (hentry : entry ∈ c.entries) :
    Rebalanced config entry c (removePointerFrom messageId c entry) := by
  unfold removePointerFrom
  cases hstorage : entry.storage with
  | inline sources =>
    dsimp only
    split
    · exact .refl h
    rename_i pointer hfind
    have hperm : ([pointer] ++ sources.eraseP fun source => source.messageId = messageId).Perm
        sources := (perm_cons_eraseP hfind).symm
    exact h.giveUpInline hentry hstorage hperm List.eraseP_sublist
  | overflow recordKey overflowEpoch entryCount serializedSize digest since =>
    dsimp only
    cases hlookup : c.overflowStores.lookup entry.recipientMainDht with
    | none => exact .refl h
    | some overflow =>
      dsimp only
      split
      · exact .refl h
      rename_i pointer overflow' hremove
      have hkept := h.inOrder.overflow _ _ hlookup
      have hkept' := hkept.remove messageId.val
      rw [hremove] at hkept'
      have hperm : overflow.allEntries.Perm ([pointer] ++ overflow'.allEntries) :=
        hkept.remove_perm hremove
      exact h.giveUpOverflow hentry hstorage hlookup hkept' hperm

theorem Balanced.removePointerEverywhere (h : c.Balanced config) (messageId : Id32) :
    (c.removePointerEverywhere messageId).Balanced config := by
  unfold Custodian.removePointerEverywhere
  cases hstore : c.mailboxStore with
  | none => exact h
  | some store =>
    apply foldl_rebalanced
    · intro c entry hc he
      exact removePointerFrom_rebalanced messageId hc he
    · exact (h.inOrder.mailbox store hstore).routed.strict_entries
    · exact h
    · intro e he
      rw [entries_of_mailboxStore hstore]
      exact he

/-! ## Expiring entries -/

theorem expireEntry_rebalanced {now : UInt64} (h : c.Balanced config)
    (hentry : entry ∈ c.entries) : Rebalanced config entry c (expireEntry config now c entry) := by
  unfold expireEntry
  cases hstorage : entry.storage with
  | inline sources =>
    dsimp only
    split
    · exact .refl h
    exact h.giveUpInline hentry hstorage (List.filter_append_perm (expired config now) sources)
      List.filter_sublist
  | overflow recordKey overflowEpoch entryCount serializedSize digest since =>
    dsimp only
    cases hlookup : c.overflowStores.lookup entry.recipientMainDht with
    | none => exact .refl h
    | some overflow =>
      dsimp only
      obtain ⟨hkept, hperm⟩ := removeAll_perm
        ((overflow.allEntries.filter (expired config now)).map MailSourcePointer.messageId)
        [] (h.inOrder.overflow _ _ hlookup)
      split
      · exact .refl h
      exact h.giveUpOverflow hentry hstorage hlookup hkept hperm

theorem Balanced.expireCustodianEntries (h : c.Balanced config) (now : UInt64) :
    (c.expireCustodianEntries config now).Balanced config := by
  unfold Custodian.expireCustodianEntries
  cases hstore : c.mailboxStore with
  | none => exact h
  | some store =>
    apply foldl_rebalanced
    · intro c entry hc he
      exact expireEntry_rebalanced hc he
    · exact (h.inOrder.mailbox store hstore).routed.strict_entries
    · exact h
    · intro e he
      rw [entries_of_mailboxStore hstore]
      exact he

end Custodian

end VeilKnit.Mailbox
