import Mathlib.Data.List.MinMax
import Mathlib.Data.Prod.Lex
import VeilKnit.Mailbox.Outbox

/-!
# The recipient's inbox

Pointers to one message are seen at many custodians and at any time. A recipient
decrypts the message they point to unless a cache of recently decrypted identifiers has
it, and files it in the local inbox as unread. The inbox is saved to encrypted local
files; the cache is lost with the process.
-/

namespace VeilKnit.Mailbox

open Library

def recentlyDecryptedMaxEntries : Nat := 65536

def recentlyDecryptedTtlSecs : UInt64 := 30 * 24 * 60 * 60

def localInboxMaxMessages : Nat := 4096

/-! ## The cache -/

/-- The identifiers with the times of their insertion, as a map and as a queue. -/
structure RecentlyDecryptedCache where
  entries : List (Id32 × UInt64)
  order : List (Id32 × UInt64)
  deriving DecidableEq

namespace RecentlyDecryptedCache

def new : RecentlyDecryptedCache where
  entries := []
  order := []

/-- Drop the front of the queue while it has expired or the map is too large. -/
def pruneOrder (now : UInt64) (entries : List (Id32 × UInt64)) :
    List (Id32 × UInt64) → RecentlyDecryptedCache
  | [] => { entries, order := [] }
  | (messageId, insertedAt) :: order =>
    let expired := saturatingAdd insertedAt recentlyDecryptedTtlSecs ≤ now
    let overCapacity := recentlyDecryptedMaxEntries < entries.length
    if ¬ expired ∧ ¬ overCapacity then { entries, order := (messageId, insertedAt) :: order }
    else if entries.lookup messageId = some insertedAt then
      pruneOrder now (entries.filter fun entry => entry.1 ≠ messageId) order
    else pruneOrder now entries order

def prune (cache : RecentlyDecryptedCache) (now : UInt64) : RecentlyDecryptedCache :=
  pruneOrder now cache.entries cache.order

/-- The map has the identifier. -/
def Has (cache : RecentlyDecryptedCache) (messageId : Id32) : Prop :=
  (cache.entries.lookup messageId).isSome

instance (cache : RecentlyDecryptedCache) (messageId : Id32) : Decidable (cache.Has messageId) :=
  inferInstanceAs (Decidable ((cache.entries.lookup messageId).isSome = true))

def insert (cache : RecentlyDecryptedCache) (messageId : Id32) (now : UInt64) :
    RecentlyDecryptedCache :=
  let pruned := cache.prune now
  if pruned.Has messageId then pruned
  else
    { entries := (messageId, now) :: pruned.entries
      order := pruned.order ++ [(messageId, now)] : RecentlyDecryptedCache }.prune now

end RecentlyDecryptedCache

/-! ## The inbox -/

structure StoredMailboxMessage where
  messageId : Id32
  senderMainDht : RecordKey
  recipientMainDht : RecordKey
  applicationId : Bytes
  postedAt : UInt64
  receivedAt : UInt64
  expiresAt : UInt64
  conversationId : Option Id32
  plaintext : Bytes
  read : Bool
  deriving DecidableEq

/-- What of the recipient's state is saved. -/
structure SavedInbox where
  inboxMessages : List StoredMailboxMessage
  revokedReceiveEpochs : List UInt64
  deriving DecidableEq

structure Inbox extends SavedInbox where
  recentlyDecrypted : RecentlyDecryptedCache
  saved : SavedInbox
  deriving DecidableEq

namespace Inbox

def created : Inbox where
  inboxMessages := []
  revokedReceiveEpochs := []
  recentlyDecrypted := .new
  saved := { inboxMessages := [], revokedReceiveEpochs := [] }

def persist (s : Inbox) : PersistFate → Except MailboxError Unit × Inbox
  | .written => (.ok (), { s with saved := s.toSavedInbox })
  | .refused => (.error (.auth "mailbox state not written"), s)
  | .partlyWritten =>
    (.error (.auth "quota state not written"), { s with saved := s.toSavedInbox })

/-- Drop read messages before unread ones and old ones before new ones. -/
def evictionKey (message : StoredMailboxMessage) : Nat ×ₗ Nat :=
  toLex (if message.read then 0 else 1, message.receivedAt.toNat)

/-- One message goes at a time, for at most so many rounds. -/
def pruneWithin : Nat → List StoredMailboxMessage → List StoredMailboxMessage
  | 0, messages => messages
  | fuel + 1, messages =>
    if localInboxMaxMessages < messages.length then
      match messages.argmin evictionKey with
      | some message =>
        pruneWithin fuel
          (KeyedList.remove StoredMailboxMessage.messageId message.messageId messages)
      | none => messages
    else messages

def pruneLocalInbox (messages : List StoredMailboxMessage) : List StoredMailboxMessage :=
  pruneWithin messages.length messages

variable (decrypt : OutgoingMessage → Except MailboxError EncryptedApplicationEnvelope)

/-- File a message that has been decrypted. -/
def file (s : Inbox) (message : OutgoingMessage) (envelope : EncryptedApplicationEnvelope)
    (now : UInt64) : Inbox :=
  let stored : StoredMailboxMessage := {
    messageId := message.messageId
    senderMainDht := message.senderMainDht
    recipientMainDht := message.recipientMainDht
    applicationId := envelope.applicationId
    postedAt := message.postedAt
    receivedAt := now
    expiresAt := message.expiresAt
    conversationId := message.conversationId
    plaintext := envelope.payload
    read := false }
  { s with
    recentlyDecrypted := s.recentlyDecrypted.insert message.messageId now
    inboxMessages := pruneLocalInbox
      (KeyedList.upsert StoredMailboxMessage.messageId stored s.inboxMessages) }

def decryptAndEmit (s : Inbox) (message : OutgoingMessage) (now : UInt64) (fate : PersistFate) :
    Except MailboxError Unit × Inbox :=
  let checked := { s with recentlyDecrypted := s.recentlyDecrypted.prune now }
  if checked.recentlyDecrypted.Has message.messageId then (.ok (), checked)
  else if message.receiveKeyEpoch ∈ s.revokedReceiveEpochs then
    (.error (.receiveKeyUnavailable message.receiveKeyEpoch), checked)
  else
    match decrypt message with
    | .error error => (.error error, checked)
    | .ok envelope => (checked.file message envelope now).persist fate

/-- Mark a message as read. -/
def readInboxMessage (s : Inbox) (messageId : Id32) (fate : PersistFate) :
    Except MailboxError StoredMailboxMessage × Inbox :=
  match KeyedList.lookup StoredMailboxMessage.messageId messageId s.inboxMessages with
  | none => (.error .messageNotFound, s)
  | some stored =>
    let marked := { stored with read := true }
    let (result, s') := { s with
      inboxMessages :=
        KeyedList.upsert StoredMailboxMessage.messageId marked s.inboxMessages }.persist fate
    (result.map fun _ => marked, s')

def deleteInboxMessage (s : Inbox) (messageId : Id32) (fate : PersistFate) :
    Except MailboxError Unit × Inbox :=
  match KeyedList.lookup StoredMailboxMessage.messageId messageId s.inboxMessages with
  | none => (.error .messageNotFound, s)
  | some _ =>
    { s with
      inboxMessages :=
        KeyedList.remove StoredMailboxMessage.messageId messageId s.inboxMessages }.persist fate

/-- The part of a key rotation that revokes an epoch. -/
def revokeEpoch (s : Inbox) (epoch : UInt64) (fate : PersistFate) : Inbox :=
  ({ s with revokedReceiveEpochs := epoch :: s.revokedReceiveEpochs }.persist fate).2

/-- A restart: the saved state and an empty cache. -/
def restart (s : Inbox) : Inbox where
  toSavedInbox := s.saved
  recentlyDecrypted := .new
  saved := s.saved

/-- An observation of the message at this time files it. -/
def Enters (s : Inbox) (message : OutgoingMessage) (now : UInt64) : Prop :=
  ¬ (s.recentlyDecrypted.prune now).Has message.messageId ∧
    message.receiveKeyEpoch ∉ s.revokedReceiveEpochs ∧ ∃ envelope, decrypt message = .ok envelope

instance (s : Inbox) (message : OutgoingMessage) (now : UInt64) :
    Decidable (s.Enters decrypt message now) :=
  have : Decidable (∃ envelope, decrypt message = .ok envelope) :=
    match decrypt message with
    | .ok envelope => isTrue ⟨envelope, rfl⟩
    | .error _ => isFalse nofun
  inferInstanceAs (Decidable (_ ∧ _ ∧ _))

end Inbox

/-! ## Runs -/

/-- An inbox, the identifiers that have entered it as new, each time they did, and those
that the user has read and deleted. -/
structure InboxRun where
  inbox : Inbox
  entered : List Id32
  read : List Id32
  deleted : List Id32
  deriving DecidableEq

inductive InboxEvent
  | observe (message : OutgoingMessage) (now : UInt64) (fate : PersistFate)
  | read (messageId : Id32) (fate : PersistFate)
  | delete (messageId : Id32) (fate : PersistFate)
  | revoke (epoch : UInt64) (fate : PersistFate)
  | persist (fate : PersistFate)
  | restart

/-- An identifier is put on record when the call on it succeeds. -/
def noteSuccess {α : Type} (ids : List Id32) (messageId : Id32) :
    Except MailboxError α → List Id32
  | .ok _ => messageId :: ids
  | .error _ => ids

variable (decrypt : OutgoingMessage → Except MailboxError EncryptedApplicationEnvelope)

def InboxRun.next (s : InboxRun) : InboxEvent → InboxRun
  | .observe message now fate =>
    { s with
      inbox := (s.inbox.decryptAndEmit decrypt message now fate).2
      entered :=
        if s.inbox.Enters decrypt message now then message.messageId :: s.entered
        else s.entered }
  | .read messageId fate =>
    let (result, inbox) := s.inbox.readInboxMessage messageId fate
    { s with inbox, read := noteSuccess s.read messageId result }
  | .delete messageId fate =>
    let (result, inbox) := s.inbox.deleteInboxMessage messageId fate
    { s with inbox, deleted := noteSuccess s.deleted messageId result }
  | .revoke epoch fate => { s with inbox := s.inbox.revokeEpoch epoch fate }
  | .persist fate => { s with inbox := (s.inbox.persist fate).2 }
  | .restart => { s with inbox := s.inbox.restart }

/-- The runs of a recipient that starts out with an empty inbox. -/
def inboxSystem : LabelledSystem InboxRun InboxEvent where
  initial s := s = { inbox := .created, entered := [], read := [], deleted := [] }
  step s event t := t = s.next decrypt event

end VeilKnit.Mailbox
