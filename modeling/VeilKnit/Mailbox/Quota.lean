import VeilKnit.Mailbox.PageStore
import VeilKnit.Mailbox.Protocol

/-!
# Quotas of a custodian

A custodian counts the pointers it keeps: by sender, by sender and recipient, by
recipient, and by overflow record. A new pointer is accepted while all of its counts
are below their limits.

A count that a table does not list is zero, and a count that falls to zero leaves the
table, so the tables are functions.
-/

namespace VeilKnit.Mailbox

structure MailboxQuotaState where
  generation : UInt64
  senderCounts : RecordKey → UInt32
  senderRecipientCounts : RecordKey → RecordKey → UInt32
  recipientCounts : RecordKey → UInt32
  overflowRecordCounts : RecordKey → UInt32

/-- One more, unless the counter is full. -/
def incremented (n : UInt32) : UInt32 := if n.toNat + 1 < 2 ^ 32 then n + 1 else n

/-- One less, and zero at the least. -/
def decremented (n : UInt32) : UInt32 := if 1 < n then n - 1 else 0

def incrementMap (map : RecordKey → UInt32) (key : RecordKey) : RecordKey → UInt32 :=
  Function.update map key (incremented (map key))

def decrementMap (map : RecordKey → UInt32) (key : RecordKey) : RecordKey → UInt32 :=
  Function.update map key (decremented (map key))

namespace MailboxQuotaState

def empty : MailboxQuotaState where
  generation := 0
  senderCounts _ := 0
  senderRecipientCounts _ _ := 0
  recipientCounts _ := 0
  overflowRecordCounts _ := 0

/-- `saturating_add(1).max(1)` on the generation. -/
def touch (state : MailboxQuotaState) : MailboxQuotaState :=
  { state with generation := saturatingAdd state.generation 1 }

def addPointerCounts (state : MailboxQuotaState) (recipient : RecordKey)
    (pointer : MailSourcePointer) : MailboxQuotaState :=
  let sender := pointer.senderMainDht
  { state with
    senderCounts := incrementMap state.senderCounts sender
    senderRecipientCounts := Function.update state.senderRecipientCounts sender
      (incrementMap (state.senderRecipientCounts sender) recipient)
    recipientCounts := incrementMap state.recipientCounts recipient }

def ensureCanAdd (state : MailboxQuotaState) (recipient : RecordKey) (pointer : MailSourcePointer)
    (overflowRecord : Option RecordKey) (config : MailboxConfig) : Except MailboxError Unit :=
  let sender := pointer.senderMainDht
  if config.activeMessagesPerSender ≤ (state.senderCounts sender).toNat then
    .error (.quotaExceeded "custodian messages per sender")
  else if config.activeMessagesPerSenderRecipient ≤
      (state.senderRecipientCounts sender recipient).toNat then
    .error (.quotaExceeded "custodian messages per sender-recipient")
  else if config.activeMessagesPerRecipient ≤ (state.recipientCounts recipient).toNat then
    .error (.quotaExceeded "custodian messages per recipient")
  else
    match overflowRecord with
    | some recordKey =>
      if config.activeMessagesPerOverflowRecord ≤ (state.overflowRecordCounts recordKey).toNat then
        .error (.quotaExceeded "messages in one overflow record")
      else .ok ()
    | none => .ok ()

def noteAdded (state : MailboxQuotaState) (recipient : RecordKey) (pointer : MailSourcePointer)
    (overflowRecord : Option RecordKey) : MailboxQuotaState :=
  let state := state.addPointerCounts recipient pointer
  let state := match overflowRecord with
    | some recordKey =>
      { state with overflowRecordCounts := incrementMap state.overflowRecordCounts recordKey }
    | none => state
  state.touch

def noteRemoved (state : MailboxQuotaState) (recipient : RecordKey) (pointer : MailSourcePointer)
    (overflowRecord : Option RecordKey) : MailboxQuotaState :=
  let sender := pointer.senderMainDht
  let state :=
    { state with
      senderCounts := decrementMap state.senderCounts sender
      senderRecipientCounts := Function.update state.senderRecipientCounts sender
        (decrementMap (state.senderRecipientCounts sender) recipient)
      recipientCounts := decrementMap state.recipientCounts recipient }
  let state := match overflowRecord with
    | some recordKey =>
      { state with overflowRecordCounts := decrementMap state.overflowRecordCounts recordKey }
    | none => state
  state.touch

def setOverflowCount (state : MailboxQuotaState) (recordKey : RecordKey) (count : Nat) :
    MailboxQuotaState :=
  { state with
    overflowRecordCounts := Function.update state.overflowRecordCounts recordKey
      (UInt32.ofNat (min count (2 ^ 32 - 1))) }.touch

def removeOverflowRecord (state : MailboxQuotaState) (recordKey : RecordKey) :
    MailboxQuotaState :=
  if state.overflowRecordCounts recordKey = 0 then state
  else
    { state with
      overflowRecordCounts := Function.update state.overflowRecordCounts recordKey 0 }.touch

end MailboxQuotaState

end VeilKnit.Mailbox
