import Mathlib.Data.List.MinMax
import Mathlib.Data.Prod.Lex
import VeilKnit.Mailbox.Custodian

/-!
# What a custodian does with what it observes

The operations of the custodian that reach the network or the disk: filing a pointer,
moving a recipient's pointers into an overflow record and back, going through an
observed outbox, and committing the stores. An error stops an operation where it is;
what was done before stays done.
-/

namespace VeilKnit.Mailbox

open Library Fallible

variable {D σ : Type} [DigestScheme D] [DecidableEq D]

/-- An operation of the custodian. -/
abbrev Custodial (D σ α : Type) := Fallible MailboxError (Custodian D × σ) α

section Basics

variable {α : Type}

/-- An operation that leaves the custodian alone. -/
def outside (x : Fallible MailboxError σ α) : Custodial D σ α := fun (c, w) =>
  let (r, w) := x w
  (r, (c, w))

def inspect (f : Custodian D → α) : Custodial D σ α := fun s => (.ok (f s.1), s)

def update (f : Custodian D → Custodian D) : Custodial D σ Unit := fun s => (.ok (), (f s.1, s.2))

end Basics

variable (env : Surroundings σ) (config : MailboxConfig)

/-- The two times of a commit. -/
def commitClock (w : σ) : CommitClock × σ :=
  let (startedAt, w) := env.currentTimestamp w
  let (createdAt, w) := env.currentTimestamp w
  ({ startedAt, createdAt }, w)

/-- Commit the mailbox, if there is one. -/
def commitMailbox : Custodial D σ Unit := fun (c, w) =>
  match c.mailboxStore with
  | none => (.ok (), (c, w))
  | some store =>
    let (clock, w) := commitClock env w
    let outcome := commitInner (env.dht store.packageIndex) store config clock
      c.pendingTransactions w
    (outcome.result.map fun _ => (),
      ({ c with mailboxStore := some outcome.store, pendingTransactions := outcome.transactions },
        outcome.world))

/-- Commit the overflow record of a recipient. -/
def commitOverflow (recipient : RecordKey) : Custodial D σ Unit := fun (c, w) =>
  match c.overflowStores.lookup recipient with
  | none => (.ok (), (c, w))
  | some store =>
    let (clock, w) := commitClock env w
    let outcome := commitInner (env.dht store.packageIndex) store config clock
      c.pendingTransactions w
    (outcome.result.map fun _ => (),
      ({ c with
          overflowStores := c.overflowStores.insert recipient outcome.store
          pendingTransactions := outcome.transactions },
        outcome.world))

/-- Commit the overflow records, in some order, and then the mailbox. -/
def flushCustodianStores (order : List RecordKey) : Custodial D σ Unit := do
  let _ ← Fallible.traverse (commitOverflow env config) order
  commitMailbox env config

/-! ## Filing a pointer -/

/-- Renew the pointer with the same identifier, or append a new one. -/
def upsertPointer (pointer : MailSourcePointer) : List MailSourcePointer → List MailSourcePointer
  | [] => [pointer]
  | existing :: sources =>
    if existing.messageId = pointer.messageId then
      { existing with
        bumpedAt := max existing.bumpedAt pointer.bumpedAt
        lastObservedAt := pointer.lastObservedAt
        lastVerifiedAt := pointer.lastVerifiedAt
        requestedExpiresAt := pointer.requestedExpiresAt } :: sources
    else existing :: upsertPointer pointer sources

/-- Commit an overflow record that the custodian does not own yet. -/
def commitNewOverflow (package : Nat) (store : CowPagedStore D MailSourcePointer) :
    Custodial D σ (CowPagedStore D MailSourcePointer) := fun (c, w) =>
  let (clock, w) := commitClock env w
  let outcome := commitInner (env.dht package) store config clock c.pendingTransactions w
  (outcome.result.map fun _ => outcome.store,
    ({ c with pendingTransactions := outcome.transactions }, outcome.world))

/-- Write pointers into a new overflow record. -/
def promoteRecipientToOverflow (recipient : RecordKey) (sources : List MailSourcePointer) :
    Custodial D σ (RecipientSourceStorage D × RecordKey) := do
  let epoch ← outside fun w => (.ok (env.randomEpoch w).1, (env.randomEpoch w).2)
  let package ← outside env.createDht
  let recordKey ← outside (env.packageIdToKey package)
  let store ← outside (loadOwned (env.dht package) s!"overflow:{recipient.text}" package)
  let store : CowPagedStore D MailSourcePointer := sources.foldl CowPagedStore.upsert store
  let store ← commitNewOverflow env config package store
  let all := store.allEntries
  if config.activeMessagesPerOverflowRecord < all.length then
    Fallible.throw (.quotaExceeded "messages in one overflow record")
  else
    update fun c =>
      { c with
        quotaState := c.quotaState.setOverflowCount recordKey all.length
        overflowRecords := c.overflowRecords.insert recipient {
          recipientMainDht := recipient
          recordKey
          packageIndex := package
          overflowEpoch := epoch
          belowInlineThresholdSince := none
          retired := false }
        overflowStores := c.overflowStores.insert recipient store }
    outside env.persist
    pure (describeOverflow recordKey epoch all none, recordKey)

/-- The pointer with the same identifier that the recipient already has. -/
def Custodian.existingPointer (c : Custodian D) (recipient : RecordKey) (messageId : Id32)
    (current : Option (MailboxRecipientEntry D)) : Option MailSourcePointer :=
  match current with
  | none => none
  | some entry =>
    match entry.storage with
    | .inline sources => sources.find? fun existing => existing.messageId = messageId
    | .overflow .. =>
      (c.overflowStores.lookup recipient).bind fun store => store.get messageId.val

/-- What becomes of an entry when a pointer is filed: its storage, and whether the
pointers have moved into an overflow record of their own. -/
def storePointer (recipient : RecordKey) (pointer : MailSourcePointer)
    (storage : RecipientSourceStorage D) : Custodial D σ (RecipientSourceStorage D × Bool) :=
  match storage with
  | .inline sources => do
    let sources := (upsertPointer pointer sources).insertionSort
      fun a b => a.messageId.val ≤ b.messageId.val
    let inlineSize := (serializeSources sources).length
    let records ← inspect fun c => c.overflowRecords.keys.length
    if (config.recipientInlinePointerLimit < sources.length ∨
          config.recipientInlineByteLimit < inlineSize) ∧
        records < config.maxOverflowDhts then
      if config.activeMessagesPerOverflowRecord < sources.length then
        Fallible.throw (.quotaExceeded "messages in one overflow record")
      else
        let (storage, _) ← promoteRecipientToOverflow env config recipient sources
        pure (storage, true)
    else pure (.inline sources, false)
  | .overflow recordKey overflowEpoch _ _ _ _ => do
    match ← inspect fun c => c.overflowStores.lookup recipient with
    | none => Fallible.throw (.storeCorrupt "overflow store missing")
    | some store =>
      let store := store.upsert pointer
      update fun c => { c with overflowStores := c.overflowStores.insert recipient store }
      let all := store.allEntries
      if config.activeMessagesPerOverflowRecord < all.length then
        Fallible.throw (.quotaExceeded "messages in one overflow record")
      else
        match ← inspect fun c => c.overflowRecords.lookup recipient with
        | none => Fallible.throw (.storeCorrupt "overflow metadata missing")
        | some known =>
          if known.recordKey ≠ recordKey ∨ known.overflowEpoch ≠ overflowEpoch then
            Fallible.throw (.storeCorrupt "overflow epoch/key mismatch")
          else pure (describeOverflow recordKey overflowEpoch all none, false)

/-- The overflow record of an entry. -/
def overflowRecordOf (current : Option (MailboxRecipientEntry D)) : Option RecordKey :=
  match current.map MailboxRecipientEntry.storage with
  | some (.overflow recordKey ..) => some recordKey
  | _ => none

/-- A new pointer has to stay within the quotas. -/
def checkQuota (isNew : Bool) (recipient : RecordKey) (pointer : MailSourcePointer)
    (overflowRecord : Option RecordKey) : Custodial D σ Unit := do
  let quota ← inspect Custodian.quotaState
  Fallible.lift
    (if isNew then quota.ensureCanAdd recipient pointer overflowRecord config else .ok ())

/-- Put an entry into the mailbox, which has to be there. -/
def putEntry (entry : MailboxRecipientEntry D) : Custodial D σ Unit := fun (c, w) =>
  match c.mailboxStore with
  | none => (.error (.storeCorrupt "custodian mailbox store missing"), (c, w))
  | some _ => (.ok (), (c.upsertEntry entry, w))

/-- Count a new pointer. -/
def countAdded (isNew : Bool) (recipient : RecordKey) (pointer : MailSourcePointer)
    (overflowRecord : Option RecordKey) : Custodial D σ Unit :=
  update fun c =>
    if isNew then
      { c with quotaState := c.quotaState.noteAdded recipient pointer overflowRecord }
    else c

/-- The overflow record has been committed; its owner follows. -/
def settlePromotion (promoted : Bool) : Custodial D σ Unit :=
  if promoted then do
    commitMailbox env config
    outside env.persist
  else pure ()

/-- File a pointer under its recipient. -/
def addPointerToCustodianMailbox (recipient : RecordKey) (pointer : MailSourcePointer) :
    Custodial D σ Unit := do
  let current ← inspect fun c =>
    c.mailboxStore.bind fun store => store.get (fullRecordKeyBytes recipient)
  let existing ← inspect fun c => c.existingPointer recipient pointer.messageId current
  ensure (existing.all fun existing =>
      existing.senderMainDht = pointer.senderMainDht ∧ existing.mailSendDht = pointer.mailSendDht)
    (.invalidMessage "message id was reused with a different sender or MailSend DHT")
  checkQuota config existing.isNone recipient pointer (overflowRecordOf current)
  let now ← outside (now env)
  let entry := current.getD {
    recipientMainDht := recipient
    storage := .inline []
    newestPostedAt := pointer.postedAt
    newestFirstSeenAt := pointer.firstObservedAt
    lastRecipientCheck := now
    lastSenderCheck := now }
  let (storage, promoted) ← storePointer env config recipient pointer entry.storage
  putEntry { entry with
    storage
    newestPostedAt := max entry.newestPostedAt pointer.postedAt
    newestFirstSeenAt := max entry.newestFirstSeenAt pointer.firstObservedAt }
  -- The promotion has counted the pointers of the new overflow record already.
  countAdded existing.isNone recipient pointer (if promoted then none else overflowRecordOf current)
  settlePromotion env config promoted

/-! ## Observing an outbox -/

/-- File a pointer, if there is a mailbox. -/
def filePointer (recipient : RecordKey) (pointer : MailSourcePointer) : Custodial D σ Unit := do
  if ← inspect fun c => c.mailboxStore.isSome then
    addPointerToCustodianMailbox env config recipient pointer

/-- File the pointer of a valid message, and open the message if it is for us. -/
def acceptValidMessagePointer (mailSendDht : RecordKey) (message : OutgoingMessage) :
    Custodial D σ Unit := do
  let now ← outside (now env)
  let pointer : MailSourcePointer := {
    messageId := message.messageId
    senderMainDht := message.senderMainDht
    mailSendDht
    postedAt := message.postedAt
    bumpedAt := message.bumpedAt
    requestedExpiresAt := message.expiresAt
    firstObservedAt := now
    lastObservedAt := now
    lastVerifiedAt := now
    failedVerificationCount := 0 }
  outside
    (if message.recipientMainDht = env.ownMainDht then env.decryptAndEmit message else pure ())
  filePointer env config message.recipientMainDht pointer

/-- Drop the cached requests that end first while there are too many. -/
def evictOldest : Nat → List ServiceRequest → List ServiceRequest
  | 0, requests => requests
  | excess + 1, requests =>
    match requests.argmin fun r => toLex (r.expiresAt.toNat, r.postedAt.toNat) with
    | none => requests
    | some oldest => evictOldest excess (KeyedList.remove requestKey oldest.requestId requests)

/-- Put a request into the cache, without those that have ended. -/
def Custodian.cacheServiceRequest (config : MailboxConfig) (now : UInt64)
    (request : ServiceRequest) (c : Custodian D) : Custodian D :=
  let kept := c.recentServiceRequests.filter fun existing => now < existing.expiresAt
  let requests := KeyedList.upsert requestKey request kept
  { c with
    recentServiceRequests :=
      evictOldest (requests.length - config.recentServiceRequestCache) requests }

/-- Remember a valid service request for a while. -/
def recordVerifiedServiceRequest (request : ServiceRequest) : Custodial D σ Unit := do
  let now ← outside (now env)
  update (Custodian.cacheServiceRequest config now request)

/-- Remember a valid service request and file a pointer to it. -/
def acceptValidServiceRequestPointer (mailSendDht : RecordKey) (request : ServiceRequest) :
    Custodial D σ Unit := do
  let now ← outside (now env)
  recordVerifiedServiceRequest env config request
  filePointer env config request.intendedHostMainDht {
    messageId := request.requestId
    senderMainDht := request.requesterMainDht
    mailSendDht
    postedAt := request.postedAt
    bumpedAt := request.postedAt
    requestedExpiresAt := request.expiresAt
    firstObservedAt := now
    lastObservedAt := now
    lastVerifiedAt := now
    failedVerificationCount := 0 }

/-- An advertised outbox, and where its owner was found. -/
structure ObservedOutbox where
  senderMainDht : RecordKey
  senderAdvertisement : MailboxAdvertisement
  mailSendDht : RecordKey

/-- Consider one message of an observed outbox. -/
def observeMessage (outbox : ObservedOutbox) (withdrawn : List Id32) (message : OutgoingMessage) :
    Custodial D σ Unit := do
  if message.messageId ∉ withdrawn then
    match ← attempt (outside (validateCandidateMessage env config outbox.senderMainDht
        outbox.senderAdvertisement outbox.mailSendDht message)) with
    | .ok _ => acceptValidMessagePointer env config outbox.mailSendDht message
    -- A rejected candidate only counts against its sender.
    | .error _ => pure ()

/-- Consider one service request of an observed outbox. -/
def observeServiceRequest (outbox : ObservedOutbox) (withdrawn : List Id32)
    (request : ServiceRequest) : Custodial D σ Unit := do
  if request.requestId ∉ withdrawn then
    match ← attempt (outside (validateCandidateServiceRequest env config outbox.senderMainDht
        outbox.senderAdvertisement outbox.mailSendDht request)) with
    | .ok _ => acceptValidServiceRequestPointer env config outbox.mailSendDht request
    | .error _ => pure ()

/-- Go through the messages and requests of an outbox that has been read. -/
def observeCandidates (outbox : ObservedOutbox) (records : List OutgoingRecord) :
    Custodial D σ Unit := do
  let withdrawn := (records.filterMap OutgoingRecord.asWithdrawal).map OutgoingWithdrawal.messageId
  let _ ← Fallible.traverse (observeMessage env config outbox withdrawn)
    ((records.filterMap OutgoingRecord.asMessage).take config.candidateMessagesPerWalk)
  let _ ← Fallible.traverse (observeServiceRequest env config outbox withdrawn)
    ((records.filterMap OutgoingRecord.asServiceRequest).take config.candidateMessagesPerWalk)
  pure ()

/-- Read an outbox and act on its withdrawals, messages and requests. -/
def observeSenderOutbox (outbox : ObservedOutbox) : Custodial D σ Unit := do
  let access ← outside fun w =>
    (.ok (env.networkAccess outbox.senderMainDht w).1, (env.networkAccess outbox.senderMainDht w).2)
  if access = .blocked then pure ()
  else
    match ← attempt (outside (env.readForeignOutbox outbox.mailSendDht)) with
    | .error _ => pure ()
    | .ok records =>
      update (Custodian.processWithdrawals env.ids outbox.senderAdvertisement records)
      observeCandidates env config outbox records

/-- Follow a pointer found in another custodian's mailbox to a public request, in the
outbox that its sender advertises. -/
def observeServicePointer (pointer : MailSourcePointer)
    (advertisement : Option MailboxAdvertisement) (records : Option (List OutgoingRecord)) :
    Custodial D σ Unit := do
  match advertisement, records with
  | some advertisement, some records =>
    if advertisement.mailSendDht = some pointer.mailSendDht then
      match records.find? fun record => record.id = pointer.messageId with
      | some (.serviceRequest request) =>
        match ← attempt (outside (validateCandidateServiceRequest env config
            pointer.senderMainDht advertisement pointer.mailSendDht request)) with
        | .ok _ => recordVerifiedServiceRequest env config request
        | .error _ => pure ()
      | _ => pure ()
  | _, _ => pure ()

/-! ## Moving pointers back -/

/-- Change what is known about an overflow record, if anything is. -/
def Custodian.changeOverflowRecord (c : Custodian D) (recipient : RecordKey)
    (f : OverflowLocalState → OverflowLocalState) : Custodian D :=
  match c.overflowRecords.lookup recipient with
  | some known => { c with overflowRecords := c.overflowRecords.insert recipient (f known) }
  | none => c

/-- Move the pointers of one entry back into the mailbox when they have been few for
long enough. -/
def considerDemotion (now : UInt64) (entry : MailboxRecipientEntry D) : Custodial D σ Unit := do
  match entry.storage with
  | .inline _ => pure ()
  | .overflow recordKey overflowEpoch entryCount serializedSize digest since =>
    let key := entry.recipientMainDht
    if entryCount.toNat ≤ config.overflowDemotePointerLimit ∧
        serializedSize.toNat ≤ config.overflowDemoteByteLimit then
      let below := since.getD now
      update fun c => c.changeOverflowRecord key fun known =>
        { known with belowInlineThresholdSince := some below }
      if now < saturatingAdd below config.overflowDemoteHysteresisSecs then
        update fun c => c.upsertEntry { entry with
          storage := .overflow recordKey overflowEpoch entryCount serializedSize digest
            (some below) }
      else
        match ← inspect fun c => c.overflowStores.lookup key with
        | none => Fallible.throw (.storeCorrupt "overflow store missing")
        | some overflow =>
          update fun c => c.upsertEntry { entry with storage := .inline overflow.allEntries }
          commitMailbox env config
          update fun c => c.changeOverflowRecord key fun known => { known with retired := true }
          update fun c =>
            { c with
              overflowStores := c.overflowStores.erase key
              quotaState := c.quotaState.removeOverflowRecord recordKey }
    else
      update fun c => c.changeOverflowRecord key fun known =>
        { known with belowInlineThresholdSince := none }
      update fun c => c.upsertEntry { entry with
        storage := .overflow recordKey overflowEpoch entryCount serializedSize digest none }

def considerOverflowDemotion (now : UInt64) : Custodial D σ Unit := do
  let entries ← inspect fun c =>
    match c.mailboxStore with
    | some store => store.allEntries
    | none => []
  let _ ← Fallible.traverse (considerDemotion env config now) entries
  pure ()

end VeilKnit.Mailbox
