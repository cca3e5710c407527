import VeilKnit.Mailbox.PageRecord
import VeilKnit.Mailbox.Protocol

/-!
# The sender's outbox

A sender keeps its live messages twice: in a catalogue that is saved to encrypted local
files, and as records of a paged store whose pages are committed to a DHT record later.
Submitting, bumping and withdrawing change both in memory; a restart merges the saved
catalogue with whatever generation of the store it loads.
-/

namespace VeilKnit.Mailbox

open Library

variable {D : Type} [DigestScheme D] [DecidableEq D]

/-- The sender's side: the outbox store, what has landed in its record, the live
messages and service requests, and the messages as they were last saved. -/
structure Outbox (D : Type) where
  outboxStore : CowPagedStore D OutgoingRecord
  memory : Memory
  outgoingMessages : List OutgoingMessage
  outgoingServiceRequests : List ServiceRequest
  saved : List OutgoingMessage

/-- How the writes of the local files go: all land, none does, or the catalogue lands
and a later file does not. -/
inductive PersistFate
  | written
  | refused
  | partlyWritten
  deriving DecidableEq

namespace Outbox

omit [DigestScheme D] [DecidableEq D] in
/-- The outbox of a sender that has published nothing. -/
def created (packageIndex : Nat) (totalSubkeys : UInt32) : Outbox D where
  outboxStore := loadedStore "mail_send" packageIndex totalSubkeys none none
  memory _ := none
  outgoingMessages := []
  outgoingServiceRequests := []
  saved := []

def persist (s : Outbox D) : PersistFate → Except MailboxError Unit × Outbox D
  | .written => (.ok (), { s with saved := s.outgoingMessages })
  | .refused => (.error (.auth "mailbox state not written"), s)
  | .partlyWritten =>
    (.error (.auth "quota state not written"), { s with saved := s.outgoingMessages })

/-- A submission that has passed its checks. -/
def submit (s : Outbox D) (message : OutgoingMessage) : Outbox D :=
  { s with
    outboxStore := s.outboxStore.upsert (.message message)
    outgoingMessages :=
      KeyedList.upsert OutgoingMessage.messageId message s.outgoingMessages }

/-- A service request that has passed its checks. -/
def publishServiceRequest (s : Outbox D) (request : ServiceRequest) : Outbox D :=
  { s with
    outboxStore := s.outboxStore.upsert (.serviceRequest request)
    outgoingServiceRequests :=
      KeyedList.upsert ServiceRequest.requestId request s.outgoingServiceRequests }

def bumpMessage (s : Outbox D) (config : MailboxConfig) (id : Id32) (now : UInt64)
    (signed : Except MailboxError (List Signature)) (fate : PersistFate) :
    Except MailboxError Unit × Outbox D :=
  match KeyedList.lookup OutgoingMessage.messageId id s.outgoingMessages with
  | none => (.error .messageNotFound, s)
  | some message =>
    if now < saturatingAdd message.bumpedAt config.minimumBumpIntervalSecs then
      (.error (.quotaExceeded "minimum bump interval"), s)
    else
      match signed with
      | .error error => (.error error, s)
      | .ok bumpSignature =>
        (s.submit { message with bumpedAt := now, bumpSignature }).persist fate

def withdrawMessage (s : Outbox D) (ownMainDht : RecordKey) (id : Id32) (withdrawnAt : UInt64)
    (signed : Except MailboxError (List Signature)) (fate : PersistFate) :
    Except MailboxError Unit × Outbox D :=
  let removedMessage := KeyedList.lookup OutgoingMessage.messageId id s.outgoingMessages
  let removedService := KeyedList.lookup ServiceRequest.requestId id s.outgoingServiceRequests
  let removed := { s with
    outgoingMessages := KeyedList.remove OutgoingMessage.messageId id s.outgoingMessages
    outgoingServiceRequests :=
      KeyedList.remove ServiceRequest.requestId id s.outgoingServiceRequests }
  if removedMessage.isNone && removedService.isNone then (.error .messageNotFound, removed)
  else
    match signed with
    | .error error => (.error error, removed)
    | .ok signature =>
      let withdrawal : OutgoingWithdrawal := {
        version := mailboxProtocolVersion
        messageId := id
        senderMainDht := ownMainDht
        withdrawnAt, signature }
      { removed with outboxStore := s.outboxStore.upsert (.withdrawal withdrawal) }.persist fate

def commit (s : Outbox D) (config : MailboxConfig) (clock : CommitClock)
    (transactions : List PendingCowTransaction) (fates : List Fate) : Outbox D :=
  let outcome := commitInner recordOps s.outboxStore config clock transactions
    { totalSubkeys := s.outboxStore.totalSubkeys, memory := s.memory, fates }
  { s with outboxStore := outcome.store, memory := outcome.world.memory }

/-! ## Restarts -/

/-- Load the store from its record, whose calls meet these fates. -/
def load (s : Outbox D) (fates : List Fate) :
    Except MailboxError (CowPagedStore D OutgoingRecord) :=
  (loadOwned recordOps s.outboxStore.name s.outboxStore.packageIndex
    { totalSubkeys := s.outboxStore.totalSubkeys, memory := s.memory, fates }).1

/-- Insert a message unless one with its identifier is there. -/
def orInsert (messages : List OutgoingMessage) (message : OutgoingMessage) :
    List OutgoingMessage :=
  match KeyedList.lookup OutgoingMessage.messageId message.messageId messages with
  | some _ => messages
  | none => KeyedList.upsert OutgoingMessage.messageId message messages

/-- What a restart does for one record of the loaded store. -/
def recoverRecord (s : Outbox D) : OutgoingRecord → Outbox D
  | .message message => { s with outgoingMessages := orInsert s.outgoingMessages message }
  | .serviceRequest request =>
    { s with outboxStore := (s.outboxStore.remove request.requestId.val).2 }
  | .withdrawal withdrawal =>
    { s with
      outgoingMessages :=
        KeyedList.remove OutgoingMessage.messageId withdrawal.messageId s.outgoingMessages }

/-- Publish a catalogued message that the store lacks. -/
def republish (s : Outbox D) (message : OutgoingMessage) : Outbox D :=
  match s.outboxStore.get message.messageId.val with
  | some _ => s
  | none => { s with outboxStore := s.outboxStore.upsert (.message message) }

/-- Merge the catalogue and the store, in both directions. -/
def reconcile (s : Outbox D) : Outbox D :=
  let recovered := s.outboxStore.allEntries.foldl recoverRecord s
  recovered.outgoingMessages.foldl republish recovered

/-- A restart: nothing is left but the saved catalogue and the record. -/
def restart (s : Outbox D) (fates : List Fate) : Outbox D :=
  match s.load fates with
  | .error _ => s
  | .ok store =>
    reconcile {
      outboxStore := store
      memory := s.memory
      outgoingMessages := s.saved
      outgoingServiceRequests := []
      saved := s.saved }

/-- Load the store again, and leave the messages in memory as they are. -/
def repairStores (s : Outbox D) (fates : List Fate) : Outbox D :=
  match s.load fates with
  | .error _ => s
  | .ok store => { s with outboxStore := store }

end Outbox

/-! ## Runs -/

/-- An outbox and the identifiers whose withdrawal has returned `Ok`. -/
structure OutboxRun (D : Type) where
  outbox : Outbox D
  withdrawn : List Id32

inductive OutboxEvent
  | submit (message : OutgoingMessage)
  | publishServiceRequest (request : ServiceRequest)
  | bump (id : Id32) (now : UInt64) (signed : Except MailboxError (List Signature))
      (fate : PersistFate)
  | withdraw (id : Id32) (withdrawnAt : UInt64) (signed : Except MailboxError (List Signature))
      (fate : PersistFate)
  | commit (clock : CommitClock) (transactions : List PendingCowTransaction) (fates : List Fate)
  | persist (fate : PersistFate)
  | restart (fates : List Fate)
  | repair (fates : List Fate)

/-- A withdrawal is on record once it has returned `Ok`. -/
def noteWithdrawal (withdrawn : List Id32) (id : Id32) : Except MailboxError Unit → List Id32
  | .ok _ => id :: withdrawn
  | .error _ => withdrawn

def OutboxRun.next (ownMainDht : RecordKey) (config : MailboxConfig) (s : OutboxRun D) :
    OutboxEvent → OutboxRun D
  | .submit message => { s with outbox := s.outbox.submit message }
  | .publishServiceRequest request =>
    { s with outbox := s.outbox.publishServiceRequest request }
  | .bump id now signed fate =>
    { s with outbox := (s.outbox.bumpMessage config id now signed fate).2 }
  | .withdraw id withdrawnAt signed fate =>
    let (result, outbox) := s.outbox.withdrawMessage ownMainDht id withdrawnAt signed fate
    { outbox, withdrawn := noteWithdrawal s.withdrawn id result }
  | .commit clock transactions fates =>
    { s with outbox := s.outbox.commit config clock transactions fates }
  | .persist fate => { s with outbox := (s.outbox.persist fate).2 }
  | .restart fates => { s with outbox := s.outbox.restart fates }
  | .repair fates => { s with outbox := s.outbox.repairStores fates }

/-- An outbox over a record that starts out empty. -/
def outboxSystem (ownMainDht : RecordKey) (config : MailboxConfig) :
    LabelledSystem (OutboxRun D) OutboxEvent where
  initial s := ∃ packageIndex totalSubkeys,
    s = { outbox := .created packageIndex totalSubkeys, withdrawn := [] }
  step s event t := t = s.next ownMainDht config event

end VeilKnit.Mailbox
