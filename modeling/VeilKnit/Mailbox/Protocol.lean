import VeilKnit.Mailbox.PageFormat

/-!
# Records of the mailbox protocol

A sender publishes messages, public service requests and withdrawals in an outbox of
its own. A custodian keeps, for each recipient, pointers to the outboxes that hold
messages for it: a few pointers inside the recipient's entry, many in an overflow
record of their own.

Record keys, public keys and signatures are known by their texts. Signatures are
checked by a parameter; the byte strings that they cover are those of the source.
-/

namespace VeilKnit.Mailbox

open Library

/-! ## Keys and identifiers -/

/-- The key of a DHT record, by its text. -/
structure RecordKey where
  text : Bytes
  deriving DecidableEq

structure PublicKey where
  text : Bytes
  deriving DecidableEq

structure Signature where
  text : Bytes
  deriving DecidableEq

/-- Identifiers and nonces of thirty-two bytes. -/
abbrev Id32 := { bytes : Bytes // bytes.length = 32 }

abbrev Id16 := { bytes : Bytes // bytes.length = 16 }

def RecordKey.codec : Codec RecordKey :=
  Codec.bytes.imap RecordKey.mk RecordKey.text fun _ => rfl

def Signature.codec : Codec Signature :=
  Codec.bytes.imap Signature.mk Signature.text fun _ => rfl

/-- The value of a character of the URL-safe alphabet. -/
def base64UrlValue (char : UInt8) : Option Nat :=
  let c := char.toNat
  if 65 ≤ c ∧ c ≤ 90 then some (c - 65)
  else if 97 ≤ c ∧ c ≤ 122 then some (c - 71)
  else if 48 ≤ c ∧ c ≤ 57 then some (c + 4)
  else if c = 45 then some 62
  else if c = 95 then some 63
  else none

/-- Decode the URL-safe alphabet without padding. The unused bits of the last
character have to be zero. -/
def decodeBase64Url : Bytes → Option Bytes
  | [] => some []
  | [_] => none
  | [a, b] => do
    let a ← base64UrlValue a
    let b ← base64UrlValue b
    if b % 16 = 0 then some [UInt8.ofNat (a * 4 + b / 16)] else none
  | [a, b, c] => do
    let a ← base64UrlValue a
    let b ← base64UrlValue b
    let c ← base64UrlValue c
    if c % 4 = 0 then
      some [UInt8.ofNat (a * 4 + b / 16), UInt8.ofNat (b % 16 * 16 + c / 4)]
    else none
  | a :: b :: c :: d :: rest => do
    let a ← base64UrlValue a
    let b ← base64UrlValue b
    let c ← base64UrlValue c
    let d ← base64UrlValue d
    let rest ← decodeBase64Url rest
    some (UInt8.ofNat (a * 4 + b / 16) :: UInt8.ofNat (b % 16 * 16 + c / 4) ::
      UInt8.ofNat (c % 4 * 64 + d) :: rest)

/-- The key bytes of a record key: its text between the first two colons, decoded, or
the whole text where that does not decode. -/
def fullRecordKeyBytes (key : RecordKey) : Key :=
  match key.text.splitOn 58 with
  | _ :: encoded :: _ => (decodeBase64Url encoded).getD key.text
  | _ => key.text

/-- `u64::saturating_add`. -/
def saturatingAdd (a b : UInt64) : UInt64 :=
  if a.toNat + b.toNat < 2 ^ 64 then a + b else UInt64.ofNat (2 ^ 64 - 1)

/-! ## What a sender publishes -/

structure OutgoingMessage where
  version : UInt16
  messageId : Id32
  senderMainDht : RecordKey
  recipientMainDht : RecordKey
  receiveKeyEpoch : UInt64
  senderEphemeralPublicKey : Bytes
  messageNonce : Id32
  ciphertext : Bytes
  postedAt : UInt64
  bumpedAt : UInt64
  expiresAt : UInt64
  conversationId : Option Id32
  proposedConversationDht : Option RecordKey
  signature : List Signature
  bumpSignature : List Signature
  deriving DecidableEq

/-- What a message decrypts to. -/
structure EncryptedApplicationEnvelope where
  version : UInt16
  applicationId : Bytes
  sentAt : UInt64
  payload : Bytes
  deriving DecidableEq

structure ServiceRequest where
  version : UInt16
  requestId : Id32
  requesterMainDht : RecordKey
  intendedHostMainDht : RecordKey
  serviceId : Id32
  serviceManifestHash : Id32
  instanceId : Id32
  replyRouteBlob : Bytes
  publicPayload : Bytes
  delegationAllowed : Bool
  spectatorsAllowed : Bool
  postedAt : UInt64
  expiresAt : UInt64
  requestNonce : Id32
  signature : List Signature
  deriving DecidableEq

structure OutgoingWithdrawal where
  version : UInt16
  messageId : Id32
  senderMainDht : RecordKey
  withdrawnAt : UInt64
  signature : List Signature
  deriving DecidableEq

inductive OutgoingRecord
  | message (message : OutgoingMessage)
  | withdrawal (withdrawal : OutgoingWithdrawal)
  | serviceRequest (request : ServiceRequest)
  deriving DecidableEq

/-- The identifier that a record is filed under. -/
def OutgoingRecord.id : OutgoingRecord → Id32
  | .message m => m.messageId
  | .withdrawal w => w.messageId
  | .serviceRequest r => r.requestId

section Layout

def OutgoingMessage.codec : Codec OutgoingMessage :=
  (Codec.u16.pair <| (Codec.array 32).pair <| RecordKey.codec.pair <| RecordKey.codec.pair <|
      Codec.u64.pair <| Codec.bytes.pair <| (Codec.array 32).pair <| Codec.bytes.pair <|
      Codec.u64.pair <| Codec.u64.pair <| Codec.u64.pair <| (Codec.array 32).option.pair <|
      RecordKey.codec.option.pair <| Signature.codec.list.pair Signature.codec.list).imap
    (fun (version, messageId, senderMainDht, recipientMainDht, receiveKeyEpoch,
        senderEphemeralPublicKey, messageNonce, ciphertext, postedAt, bumpedAt, expiresAt,
        conversationId, proposedConversationDht, signature, bumpSignature) =>
      ⟨version, messageId, senderMainDht, recipientMainDht, receiveKeyEpoch,
        senderEphemeralPublicKey, messageNonce, ciphertext, postedAt, bumpedAt, expiresAt,
        conversationId, proposedConversationDht, signature, bumpSignature⟩)
    (fun m => (m.version, m.messageId, m.senderMainDht, m.recipientMainDht, m.receiveKeyEpoch,
      m.senderEphemeralPublicKey, m.messageNonce, m.ciphertext, m.postedAt, m.bumpedAt,
      m.expiresAt, m.conversationId, m.proposedConversationDht, m.signature, m.bumpSignature))
    (fun _ => rfl)

def EncryptedApplicationEnvelope.codec : Codec EncryptedApplicationEnvelope :=
  (Codec.u16.pair <| Codec.bytes.pair <| Codec.u64.pair Codec.bytes).imap
    (fun (version, applicationId, sentAt, payload) => ⟨version, applicationId, sentAt, payload⟩)
    (fun e => (e.version, e.applicationId, e.sentAt, e.payload))
    (fun _ => rfl)

def ServiceRequest.codec : Codec ServiceRequest :=
  (Codec.u16.pair <| (Codec.array 32).pair <| RecordKey.codec.pair <| RecordKey.codec.pair <|
      (Codec.array 32).pair <| (Codec.array 32).pair <| (Codec.array 32).pair <|
      Codec.bytes.pair <| Codec.bytes.pair <| Codec.bool.pair <| Codec.bool.pair <|
      Codec.u64.pair <| Codec.u64.pair <| (Codec.array 32).pair Signature.codec.list).imap
    (fun (version, requestId, requesterMainDht, intendedHostMainDht, serviceId,
        serviceManifestHash, instanceId, replyRouteBlob, publicPayload, delegationAllowed,
        spectatorsAllowed, postedAt, expiresAt, requestNonce, signature) =>
      ⟨version, requestId, requesterMainDht, intendedHostMainDht, serviceId,
        serviceManifestHash, instanceId, replyRouteBlob, publicPayload, delegationAllowed,
        spectatorsAllowed, postedAt, expiresAt, requestNonce, signature⟩)
    (fun r => (r.version, r.requestId, r.requesterMainDht, r.intendedHostMainDht, r.serviceId,
      r.serviceManifestHash, r.instanceId, r.replyRouteBlob, r.publicPayload,
      r.delegationAllowed, r.spectatorsAllowed, r.postedAt, r.expiresAt, r.requestNonce,
      r.signature))
    (fun _ => rfl)

def OutgoingWithdrawal.codec : Codec OutgoingWithdrawal :=
  (Codec.u16.pair <| (Codec.array 32).pair <| RecordKey.codec.pair <| Codec.u64.pair
      Signature.codec.list).imap
    (fun (version, messageId, senderMainDht, withdrawnAt, signature) =>
      ⟨version, messageId, senderMainDht, withdrawnAt, signature⟩)
    (fun w => (w.version, w.messageId, w.senderMainDht, w.withdrawnAt, w.signature))
    (fun _ => rfl)

/-- The fields of each variant, in the order of the variants. -/
def OutgoingRecord.fields : Fin 3 → Type
  | 0 => OutgoingMessage
  | 1 => OutgoingWithdrawal
  | 2 => ServiceRequest

def OutgoingRecord.fieldsCodec : ∀ i, Codec (OutgoingRecord.fields i)
  | 0 => OutgoingMessage.codec
  | 1 => OutgoingWithdrawal.codec
  | 2 => ServiceRequest.codec

def OutgoingRecord.codec : Codec OutgoingRecord :=
  (Codec.variants OutgoingRecord.fieldsCodec (by decide)).imap
    (fun
      | ⟨0, m⟩ => .message m
      | ⟨1, w⟩ => .withdrawal w
      | ⟨2, r⟩ => .serviceRequest r)
    (fun
      | .message m => ⟨0, m⟩
      | .withdrawal w => ⟨1, w⟩
      | .serviceRequest r => ⟨2, r⟩)
    (fun record => by cases record <;> rfl)

instance : PageEntry OutgoingRecord where
  pageKey record := record.id.val
  codec := OutgoingRecord.codec

end Layout

/-! ## What a custodian keeps -/

structure MailSourcePointer where
  messageId : Id32
  senderMainDht : RecordKey
  mailSendDht : RecordKey
  postedAt : UInt64
  bumpedAt : UInt64
  requestedExpiresAt : UInt64
  firstObservedAt : UInt64
  lastObservedAt : UInt64
  lastVerifiedAt : UInt64
  failedVerificationCount : UInt16
  deriving DecidableEq

/-- Where the pointers of a recipient are: in its entry, or in an overflow record that
the entry describes. -/
inductive RecipientSourceStorage (D : Type)
  | inline (sources : List MailSourcePointer)
  | overflow (recordKey : RecordKey) (overflowEpoch : Id16) (entryCount serializedSize : UInt32)
      (digest : D) (belowInlineThresholdSince : Option UInt64)
  deriving DecidableEq

structure MailboxRecipientEntry (D : Type) where
  recipientMainDht : RecordKey
  storage : RecipientSourceStorage D
  newestPostedAt : UInt64
  newestFirstSeenAt : UInt64
  lastRecipientCheck : UInt64
  lastSenderCheck : UInt64
  deriving DecidableEq

section Layout

variable {D : Type} [DigestScheme D]

def MailSourcePointer.codec : Codec MailSourcePointer :=
  ((Codec.array 32).pair <| RecordKey.codec.pair <| RecordKey.codec.pair <| Codec.u64.pair <|
      Codec.u64.pair <| Codec.u64.pair <| Codec.u64.pair <| Codec.u64.pair <| Codec.u64.pair
      Codec.u16).imap
    (fun (messageId, senderMainDht, mailSendDht, postedAt, bumpedAt, requestedExpiresAt,
        firstObservedAt, lastObservedAt, lastVerifiedAt, failedVerificationCount) =>
      ⟨messageId, senderMainDht, mailSendDht, postedAt, bumpedAt, requestedExpiresAt,
        firstObservedAt, lastObservedAt, lastVerifiedAt, failedVerificationCount⟩)
    (fun p => (p.messageId, p.senderMainDht, p.mailSendDht, p.postedAt, p.bumpedAt,
      p.requestedExpiresAt, p.firstObservedAt, p.lastObservedAt, p.lastVerifiedAt,
      p.failedVerificationCount))
    (fun _ => rfl)

instance : PageEntry MailSourcePointer where
  pageKey pointer := pointer.messageId.val
  codec := MailSourcePointer.codec

/-- The fields of an overflow storage. -/
abbrev OverflowFields (D : Type) := RecordKey × Id16 × UInt32 × UInt32 × D × Option UInt64

def RecipientSourceStorage.fields (D : Type) : Fin 2 → Type
  | 0 => List MailSourcePointer
  | 1 => OverflowFields D

def RecipientSourceStorage.fieldsCodec : ∀ i, Codec (RecipientSourceStorage.fields D i)
  | 0 => MailSourcePointer.codec.list
  | 1 =>
    (RecordKey.codec.pair <| (Codec.array 16).pair <| Codec.u32.pair <| Codec.u32.pair <|
      DigestScheme.codec.pair Codec.u64.option : Codec (OverflowFields D))

def RecipientSourceStorage.codec : Codec (RecipientSourceStorage D) :=
  (Codec.variants RecipientSourceStorage.fieldsCodec (by decide)).imap
    (fun
      | ⟨0, sources⟩ => .inline sources
      | ⟨1, (recordKey, overflowEpoch, entryCount, serializedSize, digest, since)⟩ =>
        .overflow recordKey overflowEpoch entryCount serializedSize digest since)
    (fun
      | .inline sources => ⟨0, sources⟩
      | .overflow recordKey overflowEpoch entryCount serializedSize digest since =>
        ⟨1, (recordKey, overflowEpoch, entryCount, serializedSize, digest, since)⟩)
    (fun storage => by cases storage <;> rfl)

def MailboxRecipientEntry.codec : Codec (MailboxRecipientEntry D) :=
  (RecordKey.codec.pair <| RecipientSourceStorage.codec.pair <| Codec.u64.pair <|
      Codec.u64.pair <| Codec.u64.pair Codec.u64).imap
    (fun (recipientMainDht, storage, newestPostedAt, newestFirstSeenAt, lastRecipientCheck,
        lastSenderCheck) =>
      ⟨recipientMainDht, storage, newestPostedAt, newestFirstSeenAt, lastRecipientCheck,
        lastSenderCheck⟩)
    (fun e => (e.recipientMainDht, e.storage, e.newestPostedAt, e.newestFirstSeenAt,
      e.lastRecipientCheck, e.lastSenderCheck))
    (fun _ => rfl)

instance : PageEntry (MailboxRecipientEntry D) where
  pageKey entry := fullRecordKeyBytes entry.recipientMainDht
  codec := MailboxRecipientEntry.codec

/-- The serialization of a list of pointers. -/
def serializeSources (sources : List MailSourcePointer) : Bytes :=
  MailSourcePointer.codec.list.encode sources

end Layout

/-! ## Advertisements -/

inductive ReceiveStatus
  | accepting
  | paused (acceptMessagesPostedBefore : UInt64)
  | closed
  deriving DecidableEq

def ReceiveStatus.permitsNewMessage : ReceiveStatus → UInt64 → Bool
  | .accepting, _ => true
  | .paused acceptMessagesPostedBefore, now => now ≤ acceptMessagesPostedBefore
  | .closed, _ => false

def ReceiveStatus.permitsMessagePostedAt : ReceiveStatus → UInt64 → Bool
  | .accepting, _ => true
  | .paused acceptMessagesPostedBefore, postedAt => postedAt ≤ acceptMessagesPostedBefore
  | .closed, _ => false

inductive ReceiveKeyStatus
  | current
  | superseded
  | revoked
  deriving DecidableEq

structure ReceiveKeyVersion where
  epoch : UInt64
  publicKey : Bytes
  validFrom : UInt64
  validUntil : Option UInt64
  status : ReceiveKeyStatus
  deriving DecidableEq

/-- The fields of an advertisement that its observers use here. -/
structure MailboxAdvertisement where
  custodianMailboxDht : Option RecordKey
  mailSendDht : Option RecordKey
  receiveStatus : ReceiveStatus
  currentReceivePublicKey : Bytes
  receiveKeyEpoch : UInt64
  currentReceiveKeyValidFrom : UInt64
  previousReceiveKeys : List ReceiveKeyVersion
  mailboxSigningPublicKey : PublicKey
  deriving DecidableEq

def MailboxAdvertisement.findReceiveKey (advertisement : MailboxAdvertisement) (epoch : UInt64) :
    Option ReceiveKeyVersion :=
  if epoch = advertisement.receiveKeyEpoch then
    some {
      epoch
      publicKey := advertisement.currentReceivePublicKey
      validFrom := advertisement.currentReceiveKeyValidFrom
      validUntil := none
      status := .current }
  else advertisement.previousReceiveKeys.find? fun version => version.epoch = epoch

/-! ## What is signed and hashed -/

section Signed

/-- The bytes of an ASCII text. -/
def ascii (text : String) : Bytes := text.toList.map fun c => UInt8.ofNat c.toNat

def messageIdDomain : Bytes := ascii "network-walk/mailbox/message-id/v1"

def messageSignatureDomain : Bytes := ascii "network-walk/mailbox/message-signature/v1"

def bumpSignatureDomain : Bytes := ascii "network-walk/mailbox/bump-signature/v1"

def serviceRequestIdDomain : Bytes := ascii "network-walk/mailbox/service-request-id/v1"

def serviceRequestSignatureDomain : Bytes :=
  ascii "network-walk/mailbox/service-request-signature/v1"

def immutableMessageBytes (message : OutgoingMessage) : Bytes :=
  Codec.bytes.encode messageSignatureDomain ++ Codec.u16.encode message.version ++
    message.messageId.val ++ RecordKey.codec.encode message.senderMainDht ++
    RecordKey.codec.encode message.recipientMainDht ++
    Codec.u64.encode message.receiveKeyEpoch ++
    Codec.bytes.encode message.senderEphemeralPublicKey ++ message.messageNonce.val ++
    Codec.bytes.encode message.ciphertext ++ Codec.u64.encode message.postedAt ++
    Codec.u64.encode message.expiresAt ++
    (Codec.array 32).option.encode message.conversationId ++
    RecordKey.codec.option.encode message.proposedConversationDht

def bumpBytes (messageId : Id32) (bumpedAt : UInt64) : Bytes :=
  Codec.bytes.encode bumpSignatureDomain ++ messageId.val ++ Codec.u64.encode bumpedAt

def immutableServiceRequestBytes (request : ServiceRequest) : Bytes :=
  Codec.bytes.encode serviceRequestSignatureDomain ++ Codec.u16.encode request.version ++
    request.requestId.val ++ RecordKey.codec.encode request.requesterMainDht ++
    RecordKey.codec.encode request.intendedHostMainDht ++ request.serviceId.val ++
    request.serviceManifestHash.val ++ request.instanceId.val ++
    Codec.bytes.encode request.replyRouteBlob ++ Codec.bytes.encode request.publicPayload ++
    Codec.bool.encode request.delegationAllowed ++ Codec.bool.encode request.spectatorsAllowed ++
    Codec.u64.encode request.postedAt ++ Codec.u64.encode request.expiresAt ++
    request.requestNonce.val

/-- What the signature of a withdrawal covers. -/
def withdrawalBytes (withdrawal : OutgoingWithdrawal) : Bytes :=
  Codec.bytes.encode messageSignatureDomain ++ ascii "withdrawal" ++ withdrawal.messageId.val ++
    Codec.bytes.encode withdrawal.senderMainDht.text ++ Codec.u64.encode withdrawal.withdrawnAt

/-- The highest byte first. -/
def beBytes (width n : Nat) : Bytes := (Codec.leBytes width n).reverse

/-- The hash that identifiers are made with. -/
structure IdScheme where
  hash : Bytes → Id32
  verify : PublicKey → Bytes → List Signature → Except MailboxError Bool

variable (scheme : IdScheme)

def calculateMessageId (sender recipient : RecordKey) (postedAt : UInt64) (nonce : Id32)
    (ciphertext : Bytes) : Id32 :=
  scheme.hash (messageIdDomain ++ beBytes 2 mailboxProtocolVersion.toNat ++ sender.text ++
    recipient.text ++ beBytes 8 postedAt.toNat ++ nonce.val ++ (scheme.hash ciphertext).val)

def calculateServiceRequestId (request : ServiceRequest) : Id32 :=
  scheme.hash (serviceRequestIdDomain ++ beBytes 2 mailboxProtocolVersion.toNat ++
    request.requesterMainDht.text ++ request.intendedHostMainDht.text ++ request.serviceId.val ++
    request.serviceManifestHash.val ++ request.instanceId.val ++
    (scheme.hash request.replyRouteBlob).val ++ (scheme.hash request.publicPayload).val ++
    [if request.delegationAllowed then 1 else 0, if request.spectatorsAllowed then 1 else 0] ++
    beBytes 8 request.postedAt.toNat ++ beBytes 8 request.expiresAt.toNat ++
    request.requestNonce.val)

end Signed

end VeilKnit.Mailbox
