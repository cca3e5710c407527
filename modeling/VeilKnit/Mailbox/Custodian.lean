import Mathlib.Data.List.AList
import VeilKnit.Mailbox.Quota

/-!
# The custodian

A custodian observes the outboxes of senders. It removes the pointers that a valid
withdrawal names and files a pointer for each valid message and service request under
its recipient. Pointers of a recipient start inside its mailbox entry; when there are
many of them they move into an overflow record, and back again when few have been left
for long enough.

The clock, the network, the signatures and the local persistence are parameters.
-/

namespace VeilKnit.Mailbox

open Library Fallible

/-- What the custodian knows locally about an overflow record. -/
structure OverflowLocalState where
  recipientMainDht : RecordKey
  recordKey : RecordKey
  packageIndex : Nat
  overflowEpoch : Id16
  belowInlineThresholdSince : Option UInt64
  retired : Bool

structure Custodian (D : Type) where
  mailboxStore : Option (CowPagedStore D (MailboxRecipientEntry D))
  overflowStores : AList fun _ : RecordKey => CowPagedStore D MailSourcePointer
  overflowRecords : AList fun _ : RecordKey => OverflowLocalState
  quotaState : MailboxQuotaState
  /-- In the order of their identifiers. -/
  recentServiceRequests : List ServiceRequest
  pendingTransactions : List PendingCowTransaction

inductive AccessLevel
  | allowed
  | restricted
  | blocked
  deriving DecidableEq

/-- What the custodian relies on, over some state of the world. -/
structure Surroundings (σ : Type) where
  ids : IdScheme
  ownMainDht : RecordKey
  dht : Nat → DhtOps σ
  currentTimestamp : σ → UInt64 × σ
  networkAccess : RecordKey → σ → AccessLevel × σ
  readMailboxAdvertisement : RecordKey → Fallible MailboxError σ MailboxAdvertisement
  readForeignOutbox : RecordKey → Fallible MailboxError σ (List OutgoingRecord)
  createDht : Fallible MailboxError σ Nat
  packageIdToKey : Nat → Fallible MailboxError σ RecordKey
  randomEpoch : σ → Id16 × σ
  persist : Fallible MailboxError σ Unit
  decryptAndEmit : OutgoingMessage → Fallible MailboxError σ Unit

variable {D σ : Type} [DigestScheme D] [DecidableEq D]

/-- The key of a cached request. -/
def requestKey (request : ServiceRequest) : Id32 := request.requestId

/-- The storage that describes these pointers of an overflow record. -/
def describeOverflow (recordKey : RecordKey) (overflowEpoch : Id16)
    (all : List MailSourcePointer) (since : Option UInt64) : RecipientSourceStorage D :=
  let encoded := serializeSources all
  .overflow recordKey overflowEpoch (UInt32.ofNat all.length) (UInt32.ofNat encoded.length)
    (DigestScheme.hash encoded) since

/-! ## Removing pointers -/

namespace Custodian

/-- Put an entry back into the mailbox. -/
def upsertEntry (c : Custodian D) (entry : MailboxRecipientEntry D) : Custodian D :=
  { c with mailboxStore := c.mailboxStore.map fun store => store.upsert entry }

/-- The pointers that an entry stands for. -/
def sourcesOf (c : Custodian D) (entry : MailboxRecipientEntry D) : List MailSourcePointer :=
  match entry.storage with
  | .inline sources => sources
  | .overflow .. =>
    match c.overflowStores.lookup entry.recipientMainDht with
    | some overflow => overflow.allEntries
    | none => []

/-- Remove the pointer with an identifier from one entry of the mailbox. -/
def removePointerFrom (messageId : Id32) (c : Custodian D) (entry : MailboxRecipientEntry D) :
    Custodian D :=
  let recipient := entry.recipientMainDht
  match entry.storage with
  | .inline sources =>
    match sources.find? fun source => source.messageId = messageId with
    | none => c
    | some pointer =>
      let sources := sources.eraseP fun source => source.messageId = messageId
      { c with quotaState := c.quotaState.noteRemoved recipient pointer none }.upsertEntry
        { entry with storage := .inline sources }
  | .overflow recordKey overflowEpoch _ _ _ since =>
    match c.overflowStores.lookup recipient with
    | none => c
    | some overflow =>
      match overflow.remove messageId.val with
      | (none, _) => c
      | (some pointer, overflow) =>
        { c with
          overflowStores := c.overflowStores.insert recipient overflow
          quotaState := c.quotaState.noteRemoved recipient pointer (some recordKey)
          }.upsertEntry
          { entry with
            storage := describeOverflow recordKey overflowEpoch overflow.allEntries since }

def removePointerEverywhere (c : Custodian D) (messageId : Id32) : Custodian D :=
  match c.mailboxStore with
  | none => c
  | some store => store.allEntries.foldl (removePointerFrom messageId) c

/-- Whether a pointer has reached its end. -/
def expired (config : MailboxConfig) (now : UInt64) (source : MailSourcePointer) : Bool :=
  source.requestedExpiresAt ≤ now || saturatingAdd source.postedAt config.maxMessageAgeSecs ≤ now

/-- Count pointers that have been removed. -/
def noteRemovedAll (c : Custodian D) (recipient : RecordKey) (removed : List MailSourcePointer)
    (overflowRecord : Option RecordKey) : Custodian D :=
  { c with
    quotaState := removed.foldl
      (fun state pointer => state.noteRemoved recipient pointer overflowRecord) c.quotaState }

/-- Remove pointers from an overflow store, and collect those that were there. -/
def removeAll (messageIds : List Id32)
    (state : List MailSourcePointer × CowPagedStore D MailSourcePointer) :
    List MailSourcePointer × CowPagedStore D MailSourcePointer :=
  messageIds.foldl
    (fun (removed, overflow) messageId =>
      match overflow.remove messageId.val with
      | (some pointer, overflow) => (removed ++ [pointer], overflow)
      | (none, overflow) => (removed, overflow))
    state

/-- Remove the expired pointers from one entry of the mailbox. -/
def expireEntry (config : MailboxConfig) (now : UInt64) (c : Custodian D)
    (entry : MailboxRecipientEntry D) : Custodian D :=
  let recipient := entry.recipientMainDht
  match entry.storage with
  | .inline sources =>
    let removed := sources.filter (expired config now)
    if removed = [] then c
    else
      (c.noteRemovedAll recipient removed none).upsertEntry
        { entry with storage := .inline (sources.filter fun source => !expired config now source) }
  | .overflow recordKey overflowEpoch _ _ _ since =>
    match c.overflowStores.lookup recipient with
    | none => c
    | some overflow =>
      let (removed, overflow) := removeAll
        ((overflow.allEntries.filter (expired config now)).map MailSourcePointer.messageId)
        ([], overflow)
      if removed = [] then c
      else
        ({ c with overflowStores := c.overflowStores.insert recipient overflow
          }.noteRemovedAll recipient removed (some recordKey)).upsertEntry
          { entry with
            storage := describeOverflow recordKey overflowEpoch overflow.allEntries since }

def expireCustodianEntries (config : MailboxConfig) (now : UInt64) (c : Custodian D) :
    Custodian D :=
  match c.mailboxStore with
  | none => c
  | some store => store.allEntries.foldl (expireEntry config now) c

/-- Forget the cached requests that have reached their end. -/
def expireServiceRequests (now : UInt64) (c : Custodian D) : Custodian D :=
  { c with
    recentServiceRequests := c.recentServiceRequests.filter fun request => now < request.expiresAt }

end Custodian

/-! ## Withdrawals -/

section Withdrawals

variable (ids : IdScheme)

def verifyWithdrawal (withdrawal : OutgoingWithdrawal) (advertisement : MailboxAdvertisement) :
    Except MailboxError Bool :=
  ids.verify advertisement.mailboxSigningPublicKey (withdrawalBytes withdrawal) withdrawal.signature

/-- Whether an observed withdrawal is acted on. -/
def acceptsWithdrawal (advertisement : MailboxAdvertisement) (withdrawal : OutgoingWithdrawal) :
    Bool :=
  match verifyWithdrawal ids withdrawal advertisement with
  | .ok verified => verified
  | .error _ => false

def OutgoingRecord.asMessage : OutgoingRecord → Option OutgoingMessage
  | .message m => some m
  | _ => none

def OutgoingRecord.asWithdrawal : OutgoingRecord → Option OutgoingWithdrawal
  | .withdrawal w => some w
  | _ => none

def OutgoingRecord.asServiceRequest : OutgoingRecord → Option ServiceRequest
  | .serviceRequest r => some r
  | _ => none

/-- Act on a withdrawal that verifies. -/
def Custodian.withdraw (advertisement : MailboxAdvertisement) (c : Custodian D)
    (withdrawal : OutgoingWithdrawal) : Custodian D :=
  if acceptsWithdrawal ids advertisement withdrawal then
    { c with
      recentServiceRequests :=
        KeyedList.remove requestKey withdrawal.messageId c.recentServiceRequests
      }.removePointerEverywhere withdrawal.messageId
  else c

/-- Go through the withdrawals of an observed outbox. -/
def Custodian.processWithdrawals (advertisement : MailboxAdvertisement)
    (records : List OutgoingRecord) (c : Custodian D) : Custodian D :=
  (records.filterMap OutgoingRecord.asWithdrawal).foldl (Custodian.withdraw ids advertisement) c

end Withdrawals

/-! ## Validating candidates -/

section Validation

variable (env : Surroundings σ) (config : MailboxConfig)

/-- The time, as the world has it. -/
def now : Fallible MailboxError σ UInt64 := fun w =>
  (.ok (env.currentTimestamp w).1, (env.currentTimestamp w).2)

/-- Fail with an error where a check does not hold. -/
def ensure (condition : Bool) (error : MailboxError) : Fallible MailboxError σ Unit :=
  if condition then pure () else Fallible.throw error

def validateCandidateServiceRequest (observedSender : RecordKey)
    (senderAdvertisement : MailboxAdvertisement) (mailSendDht : RecordKey)
    (request : ServiceRequest) : Fallible MailboxError σ Unit := do
  ensure (senderAdvertisement.mailSendDht = some mailSendDht)
    (.invalidMessage "sender no longer advertises this MailSend DHT")
  ensure (request.requesterMainDht = observedSender)
    (.invalidMessage "service requester does not match observed sender")
  ensure (request.version = mailboxProtocolVersion)
    (.invalidMessage "unsupported service request protocol version")
  ensure (request.publicPayload.length ≤ config.maxServicePayloadSize ∧
      request.replyRouteBlob ≠ [] ∧
      request.replyRouteBlob.length ≤ config.maxServiceReplyRouteSize)
    (.invalidMessage "service request payload/route exceeds policy")
  ensure (calculateServiceRequestId env.ids request = request.requestId)
    (.invalidMessage "service request identity changed")
  let verified ← Fallible.lift (env.ids.verify senderAdvertisement.mailboxSigningPublicKey
    (immutableServiceRequestBytes request) request.signature)
  ensure verified (.invalidMessage "service request signature is invalid")
  let serializedSize := (ServiceRequest.codec.encode request).length
  ensure (serializedSize ≤ config.maxServiceRequestSize)
    (.messageTooLarge serializedSize config.maxServiceRequestSize)
  let now ← now env
  ensure (request.postedAt ≤ saturatingAdd now config.maxTimestampSkewSecs ∧
      request.postedAt < request.expiresAt ∧
      request.expiresAt ≤ saturatingAdd request.postedAt config.maxServiceRequestTtlSecs ∧
      now < request.expiresAt)
    (.invalidMessage "service request timestamps are outside short-lived policy")

def validateCandidateMessage (observedSender : RecordKey)
    (senderAdvertisement : MailboxAdvertisement) (mailSendDht : RecordKey)
    (message : OutgoingMessage) : Fallible MailboxError σ MailboxAdvertisement := do
  ensure (senderAdvertisement.mailSendDht = some mailSendDht)
    (.invalidMessage "sender no longer advertises this MailSend DHT")
  ensure (message.senderMainDht = observedSender)
    (.invalidMessage "message sender does not match the observed main DHT")
  ensure (message.version = mailboxProtocolVersion)
    (.invalidMessage "unsupported message protocol version")
  ensure (calculateMessageId env.ids message.senderMainDht message.recipientMainDht
      message.postedAt message.messageNonce message.ciphertext = message.messageId)
    (.invalidMessage "immutable message identity changed")
  let signed ← Fallible.lift (env.ids.verify senderAdvertisement.mailboxSigningPublicKey
    (immutableMessageBytes message) message.signature)
  ensure signed (.invalidMessage "immutable message signature is invalid")
  let bumped ← Fallible.lift (env.ids.verify senderAdvertisement.mailboxSigningPublicKey
    (bumpBytes message.messageId message.bumpedAt) message.bumpSignature)
  ensure bumped (.invalidMessage "bump signature is invalid")
  let serializedSize := (OutgoingMessage.codec.encode message).length
  ensure (serializedSize ≤ config.completeMessageMaxSize)
    (.messageTooLarge serializedSize config.completeMessageMaxSize)
  let now ← now env
  ensure (message.postedAt ≤ saturatingAdd now config.maxTimestampSkewSecs ∧
      message.bumpedAt ≤ saturatingAdd now config.maxTimestampSkewSecs ∧
      message.postedAt ≤ message.bumpedAt ∧ message.postedAt < message.expiresAt ∧
      message.expiresAt ≤ saturatingAdd message.postedAt config.maxRequestedExpirySecs ∧
      now ≤ saturatingAdd message.postedAt config.maxMessageAgeSecs)
    (.invalidMessage "message timestamps are outside policy")
  ensure (now < message.expiresAt) (.invalidMessage "message expired")
  let recipientAdvertisement ← env.readMailboxAdvertisement message.recipientMainDht
  ensure (recipientAdvertisement.receiveStatus.permitsMessagePostedAt message.postedAt)
    .recipientNotAccepting
  match recipientAdvertisement.findReceiveKey message.receiveKeyEpoch with
  | none => Fallible.throw (.receiveKeyUnavailable message.receiveKeyEpoch)
  | some keyVersion =>
    ensure (keyVersion.status ≠ .revoked ∧ keyVersion.validFrom ≤ message.postedAt ∧
        keyVersion.validUntil.all fun «until» => message.postedAt ≤ «until»)
      (.receiveKeyUnavailable message.receiveKeyEpoch)
    pure recipientAdvertisement

end Validation

end VeilKnit.Mailbox
