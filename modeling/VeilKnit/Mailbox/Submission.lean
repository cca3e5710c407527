import Mathlib.Tactic.Linarith
import VeilKnit.Library.Utf8
import VeilKnit.Mailbox.Outbox
import VeilKnit.Mailbox.PageProgress
import VeilKnit.Security.Padding

/-!
# Submitting a message

A request for an outgoing message is checked, its text is encrypted for the recipient, and the
signed message is checked once more before it is published. Three sizes meet here: the limit on
the plaintext, the size class that the encrypted envelope is padded to, and the limit on the
complete message.

A plaintext within its limit whose envelope needs the largest size class makes a message beyond
the limit.
-/

namespace VeilKnit.Mailbox

open Library Security

/-! ## Requests -/

structure OutgoingMessageRequest where
  applicationId : Bytes
  recipientMainDht : RecordKey
  plaintext : Bytes
  expiresAt : Option UInt64
  conversationId : Option Id32
  proposedConversationDht : Option RecordKey

/-- Nothing but white space. -/
def IsBlank (text : Bytes) : Prop := ∀ chars ∈ Utf8.decode text, Utf8.trim chars = []

instance (text : Bytes) : Decidable (IsBlank text) :=
  inferInstanceAs (Decidable (∀ chars ∈ Utf8.decode text, _))

/-- Application identifiers that a request may name. -/
def ValidApplicationId (applicationId : Bytes) : Prop :=
  ¬ IsBlank applicationId ∧ applicationId.length ≤ 256

instance (applicationId : Bytes) : Decidable (ValidApplicationId applicationId) :=
  inferInstanceAs (Decidable (_ ∧ _))

/-- A rejection for the size of what is sent. -/
def MailboxError.IsSizeError : MailboxError → Prop
  | .messageTooLarge _ _ => True
  | .plaintextTooLarge _ _ => True
  | _ => False

/-! ## Encryption -/

/-- The functions that messages are encrypted with. -/
structure MessageCrypto where
  scheme : IdScheme
  aead : Aead
  x25519PublicKey : Id32 → Id32
  diffieHellman : Id32 → Id32 → Id32

def messageKeyDomain : Bytes := ascii "network-walk/mailbox/message-key/v1"

/-- The longest text of a key or a signature. -/
def maxKeyText : Nat := 128

/-- What a submission meets: the clock, the recipient's advertisement, the signer if it is
available, and the random values that are drawn. -/
structure SubmissionInputs where
  ownMainDht : RecordKey
  now : UInt64
  advertisement : Except MailboxError MailboxAdvertisement
  advertisement_error : ∀ error, advertisement = .error error → ¬ error.IsSizeError
  sign : Option (Bytes → { signature : Signature // signature.text.length ≤ maxKeyText })
  ephemeralSecret : Id32
  nonce : Nonce
  padding : RandomBytes
  messageNonce : Id32

variable (crypto : MessageCrypto)

def deriveMessageKey (sharedSecret : Id32) (sender recipient : RecordKey) (epoch : UInt64) :
    Id32 :=
  crypto.scheme.hash (messageKeyDomain ++ sharedSecret.val ++ sender.text ++ recipient.text ++
    beBytes 8 epoch.toNat)

/-- The ephemeral public key and the encrypted envelope, behind its nonce. -/
def encryptEnvelope (inputs : SubmissionInputs) (envelope : EncryptedApplicationEnvelope)
    (recipientPublicKey : Bytes) (recipient : RecordKey) (epoch : UInt64) :
    Except MailboxError (Bytes × Bytes) :=
  if h : recipientPublicKey.length = 32 then
    let shared := crypto.diffieHellman inputs.ephemeralSecret ⟨recipientPublicKey, h⟩
    let key := deriveMessageKey crypto shared inputs.ownMainDht recipient epoch
    let serialized := EncryptedApplicationEnvelope.codec.encode envelope
    match padForEncryption inputs.padding serialized with
    | .error _ =>
      .error (.messageTooLarge serialized.length (dhtSizeClasses.getLast?.getD 0))
    | .ok plaintext =>
      .ok ((crypto.x25519PublicKey inputs.ephemeralSecret).val,
        inputs.nonce.val ++ crypto.aead.encrypt key.val inputs.nonce.val plaintext)
  else .error (.crypto "recipient X25519 public key is not 32 bytes")

/-! ## Submission -/

variable {D : Type}

def Outbox.enforceOutgoingQuotas (s : Outbox D) (config : MailboxConfig)
    (recipient : RecordKey) : Except MailboxError Unit :=
  if config.activeMessagesPerSender ≤ s.outgoingMessages.length then
    .error (.quotaExceeded "active messages per sender")
  else if config.activeMessagesPerSenderRecipient ≤
      (s.outgoingMessages.filter fun message => message.recipientMainDht = recipient).length then
    .error (.quotaExceeded "active messages per sender-recipient pair")
  else .ok ()

def signBytes (inputs : SubmissionInputs) (bytes : Bytes) :
    Except MailboxError (List Signature) :=
  match inputs.sign with
  | none => .error (.crypto "signing failed")
  | some sign => .ok [(sign bytes).val]

/-- The message of a request, without its signatures. -/
def draftMessage (config : MailboxConfig) (inputs : SubmissionInputs)
    (request : OutgoingMessageRequest) (receiveKeyEpoch : UInt64)
    (ephemeralPublic ciphertext : Bytes) : OutgoingMessage :=
  let now := inputs.now
  let requestedExpiry := request.expiresAt.getD (saturatingAdd now (30 * 24 * 60 * 60))
  { version := mailboxProtocolVersion
    messageId := calculateMessageId crypto.scheme inputs.ownMainDht request.recipientMainDht now
      inputs.messageNonce ciphertext
    senderMainDht := inputs.ownMainDht
    recipientMainDht := request.recipientMainDht
    receiveKeyEpoch
    senderEphemeralPublicKey := ephemeralPublic
    messageNonce := inputs.messageNonce
    ciphertext
    postedAt := now
    bumpedAt := now
    expiresAt := max (min requestedExpiry (saturatingAdd now config.maxRequestedExpirySecs))
      (saturatingAdd now 60)
    conversationId := request.conversationId
    proposedConversationDht := request.proposedConversationDht
    signature := []
    bumpSignature := [] }

/-- The signed message, from a request that has passed its own checks. -/
def buildMessage (config : MailboxConfig) (inputs : SubmissionInputs)
    (request : OutgoingMessageRequest) (advertisement : MailboxAdvertisement) :
    Except MailboxError OutgoingMessage := do
  let envelope : EncryptedApplicationEnvelope :=
    { version := mailboxProtocolVersion
      applicationId := request.applicationId
      sentAt := inputs.now
      payload := request.plaintext }
  let (ephemeralPublic, ciphertext) ←
    encryptEnvelope crypto inputs envelope advertisement.currentReceivePublicKey
      request.recipientMainDht advertisement.receiveKeyEpoch
  let message := draftMessage crypto config inputs request advertisement.receiveKeyEpoch
    ephemeralPublic ciphertext
  let signature ← signBytes inputs (immutableMessageBytes message)
  let bumpSignature ← signBytes inputs (bumpBytes message.messageId message.bumpedAt)
  .ok { message with signature, bumpSignature }

/-- The message alone, and a page with nothing but the message. -/
def checkMessageSize (D : Type) [DigestScheme D] (config : MailboxConfig)
    (message : OutgoingMessage) : Except MailboxError Unit :=
  let wireSize := (OutgoingMessage.codec.encode message).length
  if config.completeMessageMaxSize < wireSize then
    .error (.messageTooLarge wireSize config.completeMessageMaxSize)
  else
    let pageWireSize := serializedPageSize D [OutgoingRecord.message message]
    let pageLimit := min config.pageSplitThreshold (estimatedDhtValueLimit pagedDhtTotalSubkeys)
    if pageLimit < pageWireSize then .error (.messageTooLarge pageWireSize pageLimit)
    else .ok ()

variable [DigestScheme D]

/-- The checks of a submission, and the message that passes them. -/
def Outbox.prepareMessage (s : Outbox D) (config : MailboxConfig) (inputs : SubmissionInputs)
    (request : OutgoingMessageRequest) : Except MailboxError OutgoingMessage :=
  if config.maxPlaintextSize < request.plaintext.length then
    .error (.plaintextTooLarge request.plaintext.length config.maxPlaintextSize)
  else if IsBlank request.applicationId ∨ 256 < request.applicationId.length then
    .error (.invalidMessage "application id is empty or too long")
  else do
    s.enforceOutgoingQuotas config request.recipientMainDht
    let advertisement ← inputs.advertisement
    if ¬ advertisement.receiveStatus.permitsNewMessage inputs.now then .error .recipientNotAccepting
    else do
      let message ← buildMessage crypto config inputs request advertisement
      checkMessageSize D config message
      .ok message

def Outbox.submitOutgoingMessage (s : Outbox D) (config : MailboxConfig)
    (inputs : SubmissionInputs) (request : OutgoingMessageRequest) :
    Except MailboxError Id32 × Outbox D :=
  match s.prepareMessage crypto config inputs request with
  | .error error => (.error error, s)
  | .ok message => (.ok message.messageId, s.submit message)

/-! ## Sizes -/

theorem RecordKey.encode_length {key : RecordKey} (h : key.text.length ≤ maxKeyText) :
    (RecordKey.codec.encode key).length = 8 + key.text.length :=
  Codec.bytes_encode_length key.text (h.trans_lt (by decide))

/-- An envelope is its texts and twenty-six bytes. -/
theorem envelope_encode_length (envelope : EncryptedApplicationEnvelope)
    (hid : envelope.applicationId.length ≤ 256) (hpayload : envelope.payload.length ≤ 8192) :
    (EncryptedApplicationEnvelope.codec.encode envelope).length =
      26 + envelope.applicationId.length + envelope.payload.length := by
  have hescape : 8192 < Codec.lengthEscape := by decide
  have happlication := Codec.bytes_encode_length envelope.applicationId (by omega)
  have hbody := Codec.bytes_encode_length envelope.payload (by omega)
  change (Codec.u16.encode envelope.version ++ (Codec.bytes.encode envelope.applicationId ++
    (Codec.u64.encode envelope.sentAt ++ Codec.bytes.encode envelope.payload))).length = _
  simp only [List.length_append, Codec.u16_hasLength envelope.version, happlication,
    Codec.u64_hasLength envelope.sentAt, hbody]
  omega

/-- A message is its ciphertext and some hundred bytes of metadata. -/
theorem message_encode_length (message : OutgoingMessage)
    (hsender : message.senderMainDht.text.length ≤ maxKeyText)
    (hrecipient : message.recipientMainDht.text.length ≤ maxKeyText)
    (hproposed : ∀ key ∈ message.proposedConversationDht, key.text.length ≤ maxKeyText)
    (hephemeral : message.senderEphemeralPublicKey.length = 32)
    (hciphertext : message.ciphertext.length ≤ 16384)
    {signature bumpSignature : Signature} (hsignature : message.signature = [signature])
    (hbump : message.bumpSignature = [bumpSignature])
    (hsignatureText : signature.text.length ≤ maxKeyText)
    (hbumpText : bumpSignature.text.length ≤ maxKeyText) :
    message.ciphertext.length ≤ (OutgoingMessage.codec.encode message).length ∧
      (OutgoingMessage.codec.encode message).length ≤ message.ciphertext.length + 1024 := by
  have hescape : 16384 < Codec.lengthEscape := by decide
  have hmax : maxKeyText = 128 := rfl
  have hbytes : ∀ bytes : Bytes, bytes.length ≤ 16384 →
      (Codec.bytes.encode bytes).length = 8 + bytes.length :=
    fun bytes hle => Codec.bytes_encode_length bytes (by omega)
  have hkey : ∀ key : RecordKey, key.text.length ≤ maxKeyText →
      (RecordKey.codec.encode key).length ≤ 136 := fun key hle => by
    rw [RecordKey.encode_length hle]
    omega
  have hsign : ∀ s : Signature, s.text.length ≤ maxKeyText →
      (Signature.codec.list.encode [s]).length ≤ 144 := fun s hle => by
    rw [Codec.singleton_encode_length]
    change 8 + (Codec.bytes.encode s.text).length ≤ 144
    rw [hbytes s.text (by omega)]
    omega
  have hconversation := Codec.option_encode_length_le (Codec.array 32) 32 message.conversationId
    fun id _ => id.property.le
  have hdht := Codec.option_encode_length_le RecordKey.codec 136 message.proposedConversationDht
    fun key hmem => hkey key (hproposed key hmem)
  have hs := hkey _ hsender
  have hr := hkey _ hrecipient
  have he := hbytes message.senderEphemeralPublicKey (by omega)
  have hc := hbytes message.ciphertext hciphertext
  have hsig := hsign _ hsignatureText
  have hbsig := hsign _ hbumpText
  have hid := message.messageId.property
  have hnonce := message.messageNonce.property
  have hversion := Codec.u16_hasLength message.version
  have hepoch := Codec.u64_hasLength message.receiveKeyEpoch
  have hposted := Codec.u64_hasLength message.postedAt
  have hbumped := Codec.u64_hasLength message.bumpedAt
  have hexpires := Codec.u64_hasLength message.expiresAt
  have hencode : OutgoingMessage.codec.encode message =
      Codec.u16.encode message.version ++ (message.messageId.val ++
      (RecordKey.codec.encode message.senderMainDht ++
      (RecordKey.codec.encode message.recipientMainDht ++
      (Codec.u64.encode message.receiveKeyEpoch ++
      (Codec.bytes.encode message.senderEphemeralPublicKey ++ (message.messageNonce.val ++
      (Codec.bytes.encode message.ciphertext ++ (Codec.u64.encode message.postedAt ++
      (Codec.u64.encode message.bumpedAt ++ (Codec.u64.encode message.expiresAt ++
      ((Codec.array 32).option.encode message.conversationId ++
      (RecordKey.codec.option.encode message.proposedConversationDht ++
      (Signature.codec.list.encode message.signature ++
      Signature.codec.list.encode message.bumpSignature))))))))))))) := rfl
  rw [hencode, hsignature, hbump]
  simp only [List.length_append, hid, hnonce, hversion, hepoch, hposted, hbumped, hexpires, he, hc]
  constructor
  · omega
  · linarith only [hs, hr, hconversation, hdht, hsig, hbsig, hephemeral]

/-- A page with one message is the message and fifty-four bytes. -/
theorem serializedPageSize_message (hdigest : DigestWidth D) (message : OutgoingMessage) :
    serializedPageSize D [OutgoingRecord.message message] =
      54 + (OutgoingMessage.codec.encode message).length := by
  have hrecord : (OutgoingRecord.codec.encode (.message message)).length =
      4 + (OutgoingMessage.codec.encode message).length := by
    change (Codec.u32.encode 0 ++ OutgoingMessage.codec.encode message).length = _
    rw [List.length_append, Codec.u32_hasLength]
  let page : CowDataPage D OutgoingRecord :=
    { version := mailboxProtocolVersion, generation := 0
      entries := [OutgoingRecord.message message], digest := DigestScheme.zero }
  change (Codec.u16.encode mailboxProtocolVersion ++ (Codec.u64.encode 0 ++
    (OutgoingRecord.codec.list.encode [OutgoingRecord.message message] ++
      DigestScheme.codec.encode (pageDigest page)))).length = _
  simp only [List.length_append, Codec.u16_hasLength mailboxProtocolVersion,
    Codec.u64_hasLength 0, Codec.singleton_encode_length, hrecord, hdigest (pageDigest page)]
  omega

/-! ## Requests within the limits -/

section Limits

variable {crypto : MessageCrypto} {inputs : SubmissionInputs} {request : OutgoingMessageRequest}

/-- The texts of all keys are of the usual lengths. -/
structure UsualKeys (inputs : SubmissionInputs) (request : OutgoingMessageRequest) : Prop where
  own : inputs.ownMainDht.text.length ≤ maxKeyText
  recipient : request.recipientMainDht.text.length ≤ maxKeyText
  proposed : ∀ key ∈ request.proposedConversationDht, key.text.length ≤ maxKeyText

/-- The ciphertext of a request has the size class of its envelope. -/
theorem encryptEnvelope_run (crypto : MessageCrypto) (inputs : SubmissionInputs)
    {publicKey : Bytes} (epoch : UInt64) (hid : request.applicationId.length ≤ 256)
    (hplaintext : request.plaintext.length ≤ 8192)
    (hkey : publicKey.length = 32) :
    ∃ ciphertext target, encryptEnvelope crypto inputs
        { version := mailboxProtocolVersion, applicationId := request.applicationId
          sentAt := inputs.now, payload := request.plaintext }
        publicKey request.recipientMainDht epoch =
          .ok ((crypto.x25519PublicKey inputs.ephemeralSecret).val, ciphertext) ∧
      sizeClass dhtSizeClasses (26 + request.applicationId.length + request.plaintext.length) =
        some target ∧
      target ≤ 12288 ∧ ciphertext.length = target + 28 := by
  let envelope : EncryptedApplicationEnvelope :=
    { version := mailboxProtocolVersion, applicationId := request.applicationId
      sentAt := inputs.now, payload := request.plaintext }
  have hlength : (EncryptedApplicationEnvelope.codec.encode envelope).length =
      26 + request.applicationId.length + request.plaintext.length :=
    envelope_encode_length envelope hid hplaintext
  have hfits : headerLen + (26 + request.applicationId.length + request.plaintext.length) ≤
      12288 := by
    change 12 + _ ≤ _
    omega
  obtain ⟨target, -, hclass, -, hmax⟩ := sizeClass_le
    (by decide : dhtSizeClasses.Pairwise (· ≤ ·)) (by decide : 12288 ∈ dhtSizeClasses) hfits
  obtain ⟨padded, hpad, hpadded⟩ := padWithClasses_ok inputs.padding (hlength.symm ▸ hclass)
  refine ⟨inputs.nonce.val ++ crypto.aead.encrypt (deriveMessageKey crypto
    (crypto.diffieHellman inputs.ephemeralSecret ⟨publicKey, hkey⟩) inputs.ownMainDht
    request.recipientMainDht epoch).val inputs.nonce.val padded, target, ?_, hclass, hmax, ?_⟩
  · rw [encryptEnvelope, dif_pos hkey]
    dsimp only
    rw [padForEncryption, hpad]
  · rw [List.length_append, inputs.nonce.property, crypto.aead.length_encrypt, hpadded]
    omega

variable {advertisement : MailboxAdvertisement}

/-- The message of a request is its ciphertext and little more. -/
theorem buildMessage_run (crypto : MessageCrypto) (config : MailboxConfig)
    (hid : request.applicationId.length ≤ 256) (hplaintext : request.plaintext.length ≤ 8192)
    (hkey : advertisement.currentReceivePublicKey.length = 32)
    (hsign : inputs.sign.isSome) (hkeys : UsualKeys inputs request) :
    ∃ message target, buildMessage crypto config inputs request advertisement = .ok message ∧
      sizeClass dhtSizeClasses (26 + request.applicationId.length + request.plaintext.length) =
        some target ∧
      target + 28 ≤ (OutgoingMessage.codec.encode message).length ∧
      (OutgoingMessage.codec.encode message).length ≤ target + 1052 := by
  obtain ⟨sign, hsign⟩ := Option.isSome_iff_exists.mp hsign
  obtain ⟨ciphertext, target, hencrypt, hclass, hmax, hcipher⟩ :=
    encryptEnvelope_run crypto inputs advertisement.receiveKeyEpoch hid hplaintext hkey
  let message := draftMessage crypto config inputs request advertisement.receiveKeyEpoch
    (crypto.x25519PublicKey inputs.ephemeralSecret).val ciphertext
  let signed : OutgoingMessage := { message with
    signature := [(sign (immutableMessageBytes message)).val]
    bumpSignature := [(sign (bumpBytes message.messageId message.bumpedAt)).val] }
  refine ⟨signed, target, ?_, hclass, ?_⟩
  · unfold buildMessage
    dsimp only
    rw [hencrypt]
    simp only [bind, Except.bind, signBytes, hsign]
    rfl
  · have hciphertext : signed.ciphertext.length = target + 28 := hcipher
    obtain ⟨hlower, hupper⟩ := message_encode_length signed hkeys.own hkeys.recipient
      hkeys.proposed (crypto.x25519PublicKey inputs.ephemeralSecret).property
      (by omega) rfl rfl (sign _).property (sign _).property
    exact ⟨by omega, by omega⟩

/-- What a submission needs before the size of its message matters. -/
structure ReachesSizeCheck (s : Outbox D) (config : MailboxConfig) (inputs : SubmissionInputs)
    (request : OutgoingMessageRequest) : Prop where
  quotas : s.enforceOutgoingQuotas config request.recipientMainDht = .ok ()
  recipient : ∃ advertisement, inputs.advertisement = .ok advertisement ∧
    advertisement.receiveStatus.permitsNewMessage inputs.now = true ∧
    advertisement.currentReceivePublicKey.length = 32
  signer : inputs.sign.isSome

/-- The envelope needs no larger size class than 8192 bytes. -/
def FitsSizeClass (request : OutgoingMessageRequest) : Prop :=
  headerLen + (26 + request.applicationId.length + request.plaintext.length) ≤ 8192

instance (request : OutgoingMessageRequest) : Decidable (FitsSizeClass request) :=
  inferInstanceAs (Decidable (_ ≤ _))

variable {message : OutgoingMessage}

theorem checkMessageSize_ok (hdigest : DigestWidth D)
    (hsmall : (OutgoingMessage.codec.encode message).length ≤ 9244) :
    checkMessageSize D {} message = .ok () := by
  have hmessage : ¬ (10240 < (OutgoingMessage.codec.encode message).length) := by omega
  have hpage : ¬ (14336 < serializedPageSize D [OutgoingRecord.message message]) := by
    rw [serializedPageSize_message hdigest]
    omega
  have hlimit : min ({} : MailboxConfig).pageSplitThreshold
      (estimatedDhtValueLimit pagedDhtTotalSubkeys) = 14336 := by decide
  unfold checkMessageSize
  rw [if_neg hmessage, hlimit, if_neg hpage]

theorem checkMessageSize_error (hlarge : 12288 ≤ (OutgoingMessage.codec.encode message).length) :
    checkMessageSize D {} message =
      .error (.messageTooLarge (OutgoingMessage.codec.encode message).length 10240) :=
  if_pos (by change 10240 < _; omega)

variable {s : Outbox D}

/-- A submission that reaches the size check passes it exactly when its envelope fits. -/
theorem prepareMessage_of_reaches (crypto : MessageCrypto) (hdigest : DigestWidth D)
    (hplaintext : request.plaintext.length ≤ 8192)
    (hid : ValidApplicationId request.applicationId) (hkeys : UsualKeys inputs request)
    (h : ReachesSizeCheck s {} inputs request) :
    (FitsSizeClass request → ∃ message, s.prepareMessage crypto {} inputs request = .ok message) ∧
      (¬ FitsSizeClass request → ∃ actual,
        s.prepareMessage crypto {} inputs request = .error (.messageTooLarge actual 10240)) := by
  obtain ⟨advertisement, hread, hpermits, hkey⟩ := h.recipient
  obtain ⟨message, target, hbuild, hclass, hlower, hupper⟩ := buildMessage_run crypto {}
    hid.2 hplaintext hkey h.signer hkeys
  have happlication : ¬ (IsBlank request.applicationId ∨ 256 < request.applicationId.length) := by
    rintro (hblank | hlong)
    · exact hid.1 hblank
    · exact absurd hid.2 (Nat.not_le.mpr hlong)
  have hprepare : s.prepareMessage crypto {} inputs request =
      (checkMessageSize D {} message >>= fun _ => .ok message) := by
    unfold Outbox.prepareMessage
    rw [if_neg (Nat.not_lt.mpr hplaintext), if_neg happlication, h.quotas]
    simp only [bind, Except.bind, hread, hpermits, hbuild]
    rfl
  rw [hprepare]
  constructor
  · intro hfits
    obtain ⟨small, -, hsmall, -, hle⟩ := sizeClass_le
      (by decide : dhtSizeClasses.Pairwise (· ≤ ·)) (by decide : 8192 ∈ dhtSizeClasses) hfits
    cases hclass.symm.trans hsmall
    rw [checkMessageSize_ok hdigest (by omega)]
    exact ⟨message, rfl⟩
  intro hlarge
  -- The only class left is the largest one.
  have hmem := List.mem_of_find?_eq_some hclass
  have hrequired : headerLen + (26 + request.applicationId.length + request.plaintext.length) ≤
      target := by simpa using List.find?_some hclass
  have htarget : target = 12288 := by
    unfold FitsSizeClass at hlarge
    simp only [dhtSizeClasses, List.mem_cons, List.not_mem_nil, or_false] at hmem
    omega
  rw [checkMessageSize_error (by omega)]
  exact ⟨_, rfl⟩

variable {config : MailboxConfig} {error : MailboxError}

omit [DigestScheme D] in
theorem enforceOutgoingQuotas_error {recipient : RecordKey}
    (h : s.enforceOutgoingQuotas config recipient = .error error) : ¬ error.IsSizeError := by
  unfold Outbox.enforceOutgoingQuotas at h
  split at h
  · cases h
    exact id
  · split at h
    · cases h
      exact id
    · cases h

/-- Without a key to encrypt for, or a signer, there is no message to measure. -/
theorem buildMessage_error (crypto : MessageCrypto) (config : MailboxConfig)
    (hid : request.applicationId.length ≤ 256) (hplaintext : request.plaintext.length ≤ 8192)
    (h : ¬ (advertisement.currentReceivePublicKey.length = 32 ∧ inputs.sign.isSome)) :
    ∃ reason, buildMessage crypto config inputs request advertisement =
      .error (.crypto reason) := by
  unfold buildMessage
  by_cases hkey : advertisement.currentReceivePublicKey.length = 32
  · have hsign : inputs.sign = none := by
      cases hsign : inputs.sign with
      | none => rfl
      | some sign => exact absurd ⟨hkey, by rw [hsign]; rfl⟩ h
    obtain ⟨ciphertext, target, hencrypt, -⟩ := encryptEnvelope_run crypto inputs
      advertisement.receiveKeyEpoch hid hplaintext hkey
    refine ⟨"signing failed", ?_⟩
    simp only [hencrypt, bind, Except.bind, signBytes, hsign]
  · refine ⟨"recipient X25519 public key is not 32 bytes", ?_⟩
    simp only [encryptEnvelope, dif_neg hkey, bind, Except.bind]

/-- A submission that does not reach the size check is turned down for another reason. -/
theorem prepareMessage_of_not_reaches
    (hplaintext : request.plaintext.length ≤ config.maxPlaintextSize)
    (hmax : config.maxPlaintextSize ≤ 8192) (h : ¬ ReachesSizeCheck s config inputs request)
    (hprepare : s.prepareMessage crypto config inputs request = .error error) :
    ¬ error.IsSizeError := by
  unfold Outbox.prepareMessage at hprepare
  rw [if_neg (Nat.not_lt.mpr hplaintext)] at hprepare
  by_cases hid : IsBlank request.applicationId ∨ 256 < request.applicationId.length
  · rw [if_pos hid] at hprepare
    cases hprepare
    exact id
  rw [if_neg hid] at hprepare
  cases hquotas : s.enforceOutgoingQuotas config request.recipientMainDht with
  | error e =>
    rw [hquotas] at hprepare
    cases hprepare
    exact enforceOutgoingQuotas_error hquotas
  | ok _ =>
    rw [hquotas] at hprepare
    cases hread : inputs.advertisement with
    | error e =>
      rw [hread] at hprepare
      cases hprepare
      exact inputs.advertisement_error _ hread
    | ok advertisement =>
      simp only [bind, Except.bind, hread] at hprepare
      by_cases hpermits : advertisement.receiveStatus.permitsNewMessage inputs.now = true
      · rw [if_neg (by simpa using hpermits)] at hprepare
        have hunsent : ¬ (advertisement.currentReceivePublicKey.length = 32 ∧
            inputs.sign.isSome) := fun hsent =>
          h ⟨hquotas, ⟨advertisement, hread, hpermits, hsent.1⟩, hsent.2⟩
        obtain ⟨reason, hbuild⟩ := buildMessage_error crypto config
          (Nat.le_of_not_lt fun hlong => hid (Or.inr hlong)) (hplaintext.trans hmax) hunsent
        rw [hbuild] at hprepare
        cases hprepare
        exact id
      · rw [if_pos hpermits] at hprepare
        cases hprepare
        exact id

/-- An admitted request does not fail with a size error exactly when it is turned down before
its message is measured, or its envelope fits a size class that leaves room. -/
theorem submission_size_iff (hdigest : DigestWidth D) (s : Outbox D)
    (hplaintext : request.plaintext.length ≤ ({} : MailboxConfig).maxPlaintextSize)
    (hid : ValidApplicationId request.applicationId) (hkeys : UsualKeys inputs request) :
    (∀ error, (s.submitOutgoingMessage crypto {} inputs request).1 = .error error →
      ¬ error.IsSizeError) ↔
      (ReachesSizeCheck s {} inputs request → FitsSizeClass request) := by
  unfold Outbox.submitOutgoingMessage
  constructor
  · intro hsize hreaches
    by_contra hlarge
    obtain ⟨actual, hprepare⟩ :=
      (prepareMessage_of_reaches crypto hdigest (s := s) hplaintext hid hkeys hreaches).2 hlarge
    exact hsize (.messageTooLarge actual 10240) (by rw [hprepare]) trivial
  intro hfits error herror
  by_cases hreaches : ReachesSizeCheck s {} inputs request
  · obtain ⟨message, hprepare⟩ :=
      (prepareMessage_of_reaches crypto hdigest hplaintext hid hkeys hreaches).1 (hfits hreaches)
    rw [hprepare] at herror
    cases herror
  cases hprepare : s.prepareMessage crypto {} inputs request with
  | ok message =>
    rw [hprepare] at herror
    cases herror
  | error e =>
    rw [hprepare] at herror
    cases herror
    exact prepareMessage_of_not_reaches hplaintext le_rfl hreaches hprepare

end Limits

/-! ## A sample recipient -/

/-- A cipher that only adds a tag. -/
def plainAead : Aead where
  encrypt _ _ plaintext := plaintext ++ List.replicate 16 0
  decrypt _ _ ciphertext := some (ciphertext.take (ciphertext.length - 16))
  length_encrypt _ _ plaintext := by simp
  decrypt_encrypt _ _ plaintext := by simp

/-- Keys and hashes that only count the bytes. -/
def plainCrypto : MessageCrypto where
  scheme :=
    { hash := fun bytes => ⟨Codec.leBytes 32 bytes.length, Codec.leBytes_length _ _⟩
      verify := fun _ _ _ => .ok true }
  aead := plainAead
  x25519PublicKey secret := secret
  diffieHellman secret _ := secret

/-- Thirty-two times one byte. -/
def sampleId (byte : UInt8) : Id32 := ⟨byte :: List.replicate 31 byte, rfl⟩

/-- A recipient that accepts messages, and a signer. -/
def acceptingInputs : SubmissionInputs where
  ownMainDht := ⟨[65]⟩
  now := 1000
  advertisement := .ok
    { custodianMailboxDht := none
      mailSendDht := none
      receiveStatus := .accepting
      currentReceivePublicKey := List.replicate 32 1
      receiveKeyEpoch := 1
      currentReceiveKeyValidFrom := 0
      previousReceiveKeys := []
      mailboxSigningPublicKey := ⟨[66]⟩ }
  advertisement_error := by rintro error ⟨⟩
  sign := some fun _ => ⟨⟨List.replicate 64 1⟩, by decide⟩
  ephemeralSecret := sampleId 2
  nonce := ⟨List.replicate 12 3, rfl⟩
  padding _ := 0
  messageNonce := sampleId 4

/-- A request of the application `a`. -/
def requestOf (plaintext : Bytes) : OutgoingMessageRequest where
  applicationId := [97]
  recipientMainDht := ⟨[66]⟩
  plaintext
  expiresAt := none
  conversationId := none
  proposedConversationDht := none

theorem usualKeys_sample (plaintext : Bytes) : UsualKeys acceptingInputs (requestOf plaintext) :=
  ⟨by decide, (by decide : 1 ≤ maxKeyText), by rintro key ⟨⟩⟩

theorem reachesSizeCheck_sample (plaintext : Bytes) :
    ReachesSizeCheck (Outbox.created 0 64 : Outbox RollingDigest) {} acceptingInputs
      (requestOf plaintext) :=
  ⟨rfl, ⟨_, rfl, rfl, rfl⟩, rfl⟩

theorem submission_size_sample : FitsSizeClass (requestOf [104, 105]) ∧
      ∀ error, ((Outbox.created 0 64 : Outbox RollingDigest).submitOutgoingMessage plainCrypto {}
        acceptingInputs (requestOf [104, 105])).1 = .error error → ¬ error.IsSizeError :=
  ⟨by decide, (submission_size_iff rollingDigest_width _ (by decide) (by decide)
    (usualKeys_sample _)).mpr fun _ => by decide⟩

theorem large_plaintext_too_large {plaintext : Bytes} (hlength : plaintext.length = 8192) :
    ∃ actual, ((Outbox.created 0 64 : Outbox RollingDigest).submitOutgoingMessage plainCrypto {}
      acceptingInputs (requestOf plaintext)).1 = .error (.messageTooLarge actual 10240) := by
  have hlarge : ¬ FitsSizeClass (requestOf plaintext) := by
    unfold FitsSizeClass
    rw [show (requestOf plaintext).plaintext.length = 8192 from hlength]
    omega
  have hshort : (requestOf plaintext).plaintext.length ≤ 8192 := hlength.le
  have happlication : ValidApplicationId (requestOf []).applicationId := by decide
  obtain ⟨actual, hprepare⟩ := (prepareMessage_of_reaches plainCrypto
    rollingDigest_width hshort happlication (usualKeys_sample _)
    (reachesSizeCheck_sample _)).2 hlarge
  refine ⟨actual, ?_⟩
  unfold Outbox.submitOutgoingMessage
  rw [hprepare]

/-- A plaintext of exactly the limit is admitted and then too large. -/
theorem full_plaintext_too_large :
    (requestOf (List.replicate 8192 0)).plaintext.length = ({} : MailboxConfig).maxPlaintextSize ∧
      ValidApplicationId (requestOf (List.replicate 8192 0)).applicationId ∧
      ∃ actual, ((Outbox.created 0 64 : Outbox RollingDigest).submitOutgoingMessage plainCrypto {}
        acceptingInputs (requestOf (List.replicate 8192 0))).1 =
          .error (.messageTooLarge actual 10240) :=
  ⟨List.length_replicate, by decide, large_plaintext_too_large List.length_replicate⟩

end VeilKnit.Mailbox
