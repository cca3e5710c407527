import VeilKnit.Library.Tally
import VeilKnit.Mailbox.Custodian

/-!
# Recounting the quotas

The quotas of a custodian can be counted again from its stores. The recount goes through
the mailbox entries and counts every pointer of a recipient once, even if it is listed
twice.

What the counters of a custodian should be is said by two multisets: the sender and the
recipient of every pointer, and the overflow record of every pointer that has one. Each
quota operation changes the multisets that the counters tally in one way.
-/

namespace VeilKnit.Mailbox

open Library

variable {D : Type}

/-! ## The recount -/

namespace MailboxQuotaState

/-- The pointers seen so far, and the counters they give. -/
structure Recount where
  seen : List (RecordKey × Id32)
  state : MailboxQuotaState

/-- Count a pointer of a recipient that has not been seen, and count it for its overflow
record. -/
def recountPointer (recipient : RecordKey) (r : Recount × UInt32) (pointer : MailSourcePointer) :
    Recount × UInt32 :=
  if (recipient, pointer.messageId) ∈ r.1.seen then r
  else
    ({ seen := (recipient, pointer.messageId) :: r.1.seen
       state := r.1.state.addPointerCounts recipient pointer },
      incremented r.2)

/-- Count the pointers of one entry of the mailbox. -/
def recountEntry (overflowStores : AList fun _ : RecordKey => CowPagedStore D MailSourcePointer)
    (r : Recount) (entry : MailboxRecipientEntry D) : Recount :=
  let recipient := entry.recipientMainDht
  match entry.storage with
  | .inline sources => (sources.foldl (recountPointer recipient) (r, 0)).1
  | .overflow recordKey .. =>
    let sources := ((overflowStores.lookup recipient).map CowPagedStore.allEntries).getD []
    let (r, overflowCount) := sources.foldl (recountPointer recipient) (r, 0)
    if overflowCount = 0 then r
    else
      { r with
        state := { r.state with
          overflowRecordCounts :=
            Function.update r.state.overflowRecordCounts recordKey overflowCount } }

def rebuild (mailboxStore : Option (CowPagedStore D (MailboxRecipientEntry D)))
    (overflowStores : AList fun _ : RecordKey => CowPagedStore D MailSourcePointer) :
    MailboxQuotaState :=
  let state : MailboxQuotaState := { empty with generation := 1 }
  match mailboxStore with
  | none => state
  | some store =>
    (store.allEntries.foldl (recountEntry overflowStores) { seen := [], state }).state

def sameCounts (state other : MailboxQuotaState) : Prop :=
  state.senderCounts = other.senderCounts ∧
    state.senderRecipientCounts = other.senderRecipientCounts ∧
    state.recipientCounts = other.recipientCounts ∧
    state.overflowRecordCounts = other.overflowRecordCounts

/-! ## What the counters count -/

/-- The counters count these pointers, given by sender and recipient, of which some lie
in these overflow records. -/
structure Counts (state : MailboxQuotaState) (filed : Multiset (RecordKey × RecordKey))
    (overflowed : Multiset RecordKey) : Prop where
  senders : Tallies state.senderCounts (filed.map Prod.fst)
  pairs : Tallies (Function.uncurry state.senderRecipientCounts) filed
  recipients : Tallies state.recipientCounts (filed.map Prod.snd)
  overflow : Tallies state.overflowRecordCounts overflowed

/-- No counter is above its limit. -/
structure WithinLimits (config : MailboxConfig) (state : MailboxQuotaState) : Prop where
  senders : ∀ s, (state.senderCounts s).toNat ≤ config.activeMessagesPerSender
  pairs : ∀ s r, (state.senderRecipientCounts s r).toNat ≤ config.activeMessagesPerSenderRecipient
  recipients : ∀ r, (state.recipientCounts r).toNat ≤ config.activeMessagesPerRecipient
  overflow : ∀ k, (state.overflowRecordCounts k).toNat ≤ config.activeMessagesPerOverflowRecord

variable {state state' : MailboxQuotaState} {filed filed' : Multiset (RecordKey × RecordKey)}
  {overflowed overflowed' : Multiset RecordKey} {recipient recordKey : RecordKey}
  {pointer : MailSourcePointer} {config : MailboxConfig}

/-- Counters that count the same pointers are the same. -/
theorem Counts.same (h : state.Counts filed overflowed) (h' : state'.Counts filed overflowed) :
    state.sameCounts state' := by
  refine ⟨h.senders.unique h'.senders, ?_, h.recipients.unique h'.recipients,
    h.overflow.unique h'.overflow⟩
  have hpairs := h.pairs.unique h'.pairs
  funext s r
  exact congrFun hpairs (s, r)

theorem counts_empty (generation : UInt64) :
    ({ empty with generation } : MailboxQuotaState).Counts 0 0 where
  senders := tallies_zero
  pairs := by
    rintro ⟨s, r⟩
    simp [empty]
  recipients := tallies_zero
  overflow := tallies_zero

/-- The generation is not a counter. -/
theorem Counts.touch (h : state.Counts filed overflowed) : state.touch.Counts filed overflowed :=
  ⟨h.senders, h.pairs, h.recipients, h.overflow⟩

theorem incremented_toNat {n : UInt32} (h : n.toNat + 1 < 2 ^ 32) :
    (incremented n).toNat = n.toNat + 1 := by
  rw [incremented, if_pos h, UInt32.toNat_add]
  exact Nat.mod_eq_of_lt h

theorem decremented_toNat (n : UInt32) : (decremented n).toNat = n.toNat - 1 := by
  unfold decremented
  split
  · rename_i h
    have hlt : 1 < n.toNat := by simpa using UInt32.lt_iff_toNat_lt.mp h
    exact UInt32.toNat_sub_of_le n 1 (UInt32.le_iff_toNat_le.mpr (by simp; omega))
  rename_i h
  have hle : n.toNat ≤ 1 := by
    by_contra hlt
    exact h (UInt32.lt_iff_toNat_lt.mpr (by simpa using hlt))
  simp
  omega

/-- A nested table is changed as the table of pairs. -/
theorem uncurry_update_update (table : RecordKey → RecordKey → UInt32) (s r : RecordKey)
    (value : UInt32) :
    Function.uncurry (Function.update table s (Function.update (table s) r value)) =
      Function.update (Function.uncurry table) (s, r) value := by
  ext ⟨s', r'⟩
  by_cases hs : s' = s
  · subst hs
    by_cases hr : r' = r
    · subst hr
      simp [Function.uncurry_def]
    · have hne : (s', r') ≠ (s', r) := fun h => hr (congrArg Prod.snd h)
      simp [Function.uncurry_def, Function.update_of_ne hr, Function.update_of_ne hne]
  · have hne : (s', r') ≠ (s, r) := fun h => hs (congrArg Prod.fst h)
    simp [Function.uncurry_def, Function.update_of_ne hs, Function.update_of_ne hne]

/-- The counters that one more pointer changes have room for it. -/
structure HasRoom (state : MailboxQuotaState) (recipient : RecordKey)
    (pointer : MailSourcePointer) : Prop where
  sender : (state.senderCounts pointer.senderMainDht).toNat + 1 < 2 ^ 32
  pair : (state.senderRecipientCounts pointer.senderMainDht recipient).toNat + 1 < 2 ^ 32
  recipient : (state.recipientCounts recipient).toNat + 1 < 2 ^ 32

theorem Counts.addPointerCounts (h : state.Counts filed overflowed)
    (hroom : state.HasRoom recipient pointer) :
    (state.addPointerCounts recipient pointer).Counts
      ((pointer.senderMainDht, recipient) ::ₘ filed) overflowed where
  senders := by
    rw [Multiset.map_cons]
    exact h.senders.cons (incremented_toNat hroom.sender)
  pairs := by
    change Tallies (Function.uncurry (Function.update _ _ (Function.update _ _ _))) _
    rw [uncurry_update_update]
    exact h.pairs.cons (incremented_toNat hroom.pair)
  recipients := by
    rw [Multiset.map_cons]
    exact h.recipients.cons (incremented_toNat hroom.recipient)
  overflow := h.overflow

theorem Counts.noteAdded (h : state.Counts filed overflowed)
    (hroom : state.HasRoom recipient pointer) :
    (state.noteAdded recipient pointer none).Counts
      ((pointer.senderMainDht, recipient) ::ₘ filed) overflowed :=
  (h.addPointerCounts hroom).touch

theorem Counts.noteAdded_overflow (h : state.Counts filed overflowed)
    (hroom : state.HasRoom recipient pointer)
    (hrecord : (state.overflowRecordCounts recordKey).toNat + 1 < 2 ^ 32) :
    (state.noteAdded recipient pointer (some recordKey)).Counts
      ((pointer.senderMainDht, recipient) ::ₘ filed) (recordKey ::ₘ overflowed) := by
  have hadded := h.addPointerCounts hroom
  exact ⟨hadded.senders, hadded.pairs, hadded.recipients,
    hadded.overflow.cons (incremented_toNat hrecord)⟩

theorem Counts.noteRemoved
    (h : state.Counts ((pointer.senderMainDht, recipient) ::ₘ filed) overflowed) :
    (state.noteRemoved recipient pointer none).Counts filed overflowed where
  senders := by
    have hsenders := h.senders
    rw [Multiset.map_cons] at hsenders
    exact hsenders.uncons (decremented_toNat _)
  pairs := by
    change Tallies (Function.uncurry (Function.update _ _ (Function.update _ _ _))) _
    rw [uncurry_update_update]
    exact h.pairs.uncons (decremented_toNat _)
  recipients := by
    have hrecipients := h.recipients
    rw [Multiset.map_cons] at hrecipients
    exact hrecipients.uncons (decremented_toNat _)
  overflow := h.overflow

theorem Counts.noteRemoved_overflow
    (h : state.Counts ((pointer.senderMainDht, recipient) ::ₘ filed) (recordKey ::ₘ overflowed)) :
    (state.noteRemoved recipient pointer (some recordKey)).Counts filed overflowed := by
  have hremoved := h.noteRemoved
  exact ⟨hremoved.senders, hremoved.pairs, hremoved.recipients,
    h.overflow.uncons (decremented_toNat _)⟩

/-- The count of a new overflow record is set at once. -/
theorem Counts.setOverflowCount (h : state.Counts filed overflowed) {count : Nat}
    (hcount : count < 2 ^ 32) (habsent : recordKey ∉ overflowed) :
    (state.setOverflowCount recordKey count).Counts filed
      (Multiset.replicate count recordKey + overflowed) := by
  refine ⟨h.senders, h.pairs, h.recipients, h.overflow.replicate habsent ?_⟩
  rw [min_eq_left (by omega), UInt32.toNat_ofNat_of_lt' hcount]

theorem Counts.removeOverflowRecord {count : Nat}
    (h : state.Counts filed (Multiset.replicate count recordKey + overflowed))
    (habsent : recordKey ∉ overflowed) :
    (state.removeOverflowRecord recordKey).Counts filed overflowed := by
  have hoverflow := h.overflow.drop habsent
  unfold MailboxQuotaState.removeOverflowRecord
  split
  · -- The table already gives zero.
    rename_i hzero
    rw [← hzero, Function.update_eq_self] at hoverflow
    exact ⟨h.senders, h.pairs, h.recipients, hoverflow⟩
  · exact ⟨h.senders, h.pairs, h.recipients, hoverflow⟩

/-- What the quotas check leaves room for. -/
theorem ensureCanAdd_ok {overflowRecord : Option RecordKey}
    (h : state.ensureCanAdd recipient pointer overflowRecord config = .ok ()) :
    (state.senderCounts pointer.senderMainDht).toNat < config.activeMessagesPerSender ∧
      (state.senderRecipientCounts pointer.senderMainDht recipient).toNat <
        config.activeMessagesPerSenderRecipient ∧
      (state.recipientCounts recipient).toNat < config.activeMessagesPerRecipient ∧
      ∀ recordKey, overflowRecord = some recordKey →
        (state.overflowRecordCounts recordKey).toNat < config.activeMessagesPerOverflowRecord := by
  simp only [ensureCanAdd] at h
  split at h
  · cases h
  split at h
  · cases h
  split at h
  · cases h
  rename_i hsender hpair hrecipient
  refine ⟨by omega, by omega, by omega, ?_⟩
  rintro recordKey rfl
  dsimp only at h
  split at h
  · cases h
  · omega

end MailboxQuotaState

end VeilKnit.Mailbox
