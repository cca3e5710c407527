import VeilKnit.Mailbox.CustodianRuns

/-!
# Who can withdraw a pointer

An observed withdrawal is checked against the key that the owner of the outbox
advertises, and then removes its identifier wherever the custodian has it. Nothing
compares the owner of the outbox with the sender of the pointer. So the withdrawals of
an outbox take away pointers of its owner only, provided that they name no identifier
of anyone else.
-/

namespace VeilKnit.Mailbox

open Library Fallible

variable {D σ : Type} [DigestScheme D] [DecidableEq D]

/-- What the withdrawals of an outbox take away was sent by the owner of the outbox,
and one of the withdrawals that its key verifies names it. -/
structure WithdrawnBySender (ids : IdScheme) (outbox : ObservedOutbox)
    (records : List OutgoingRecord) (c : Custodian D) : Prop where
  pointers : ∀ recipient pointer, c.Holds recipient pointer →
    ¬ (c.processWithdrawals ids outbox.senderAdvertisement records).Holds recipient pointer →
      ∃ w, .withdrawal w ∈ records ∧ acceptsWithdrawal ids outbox.senderAdvertisement w ∧
        w.messageId = pointer.messageId ∧ pointer.senderMainDht = outbox.senderMainDht
  requests : ∀ request ∈ c.recentServiceRequests,
    request ∉ (c.processWithdrawals ids outbox.senderAdvertisement records).recentServiceRequests →
      ∃ w, .withdrawal w ∈ records ∧ acceptsWithdrawal ids outbox.senderAdvertisement w ∧
        w.messageId = request.requestId ∧ request.requesterMainDht = outbox.senderMainDht

/-- The verified withdrawals of an outbox name no pointer and no cached request of
anyone but the owner of the outbox. -/
structure NamesOwn (ids : IdScheme) (outbox : ObservedOutbox) (records : List OutgoingRecord)
    (c : Custodian D) : Prop where
  pointers : ∀ w, .withdrawal w ∈ records → acceptsWithdrawal ids outbox.senderAdvertisement w →
    ∀ recipient pointer, c.Holds recipient pointer → pointer.messageId = w.messageId →
      pointer.senderMainDht = outbox.senderMainDht
  requests : ∀ w, .withdrawal w ∈ records → acceptsWithdrawal ids outbox.senderAdvertisement w →
    ∀ request ∈ c.recentServiceRequests, request.requestId = w.messageId →
      request.requesterMainDht = outbox.senderMainDht

variable {env : Surroundings σ} {config : MailboxConfig}

/-- In every run without commits that fail over disturbed pages, and for every outbox
whose verified withdrawals name only what its owner sent, nothing of anyone else is
withdrawn. -/
theorem withdrawn_by_sender {c : Custodian D}
    (reached : ((custodianSystem env config).restrict (CommitsUndisturbed env config)).Reachable c)
    (outbox : ObservedOutbox) (records : List OutgoingRecord)
    (hown : NamesOwn env.ids outbox records c) : WithdrawnBySender env.ids outbox records c := by
  have hsound := sound_invariant.holds reached
  obtain ⟨_, _, hkeeps, hcache⟩ :=
    Custodian.processWithdrawals_spec env.ids outbox.senderAdvertisement records hsound
  constructor
  case pointers =>
    intro recipient pointer hholds hgone
    -- Some accepted withdrawal names the pointer, or it would still be there.
    by_contra hnone
    apply hgone
    apply hkeeps recipient pointer hholds
    intro w hw haccept hid
    exact hnone ⟨w, hw, haccept, hid.symm, hown.pointers w hw haccept recipient pointer hholds hid⟩
  case requests =>
  intro request hrequest hgone
  by_contra hnone
  apply hgone
  apply hcache request hrequest
  intro w hw haccept hid
  exact hnone ⟨w, hw, haccept, hid.symm, hown.requests w hw haccept request hrequest hid⟩

/-! ## Two senders -/

section TwoSenders

/-- All pointers that the mailbox stands for. -/
def Custodian.pointers (c : Custodian D) : List MailSourcePointer :=
  match c.mailboxStore with
  | some store => store.allEntries.flatMap c.sourcesOf
  | none => []

variable {pointer : MailSourcePointer}

omit [DecidableEq D] [DigestScheme D] in
theorem Custodian.mem_pointers_iff {c : Custodian D} :
    pointer ∈ c.pointers ↔ ∃ recipient, c.Holds recipient pointer := by
  unfold Custodian.pointers Custodian.Holds
  cases c.mailboxStore with
  | none => simp
  | some store => simp [List.mem_flatMap]

/-- The last thirty-two bytes of a byte string. -/
def lastBytes (bytes : Bytes) : Id32 :=
  ⟨((bytes.reverse ++ List.replicate 32 0).take 32).reverse, by simp⟩

/-- A signature that is the key followed by what is signed. -/
def plainSignature (key : PublicKey) (bytes : Bytes) : List Signature := [⟨key.text ++ bytes⟩]

def plainIds : IdScheme where
  hash := lastBytes
  verify key bytes signature := .ok (signature = plainSignature key bytes)

def alice : RecordKey := ⟨ascii "VLD0:QQ"⟩

def bob : RecordKey := ⟨ascii "VLD0:Qg"⟩

def mallory : RecordKey := ⟨ascii "VLD0:TQ"⟩

def advertisementOf (owner : RecordKey) : MailboxAdvertisement where
  custodianMailboxDht := none
  mailSendDht := some owner
  receiveStatus := .accepting
  currentReceivePublicKey := []
  receiveKeyEpoch := 1
  currentReceiveKeyValidFrom := 0
  previousReceiveKeys := []
  mailboxSigningPublicKey := ⟨owner.text⟩

def outboxOf (owner : RecordKey) : ObservedOutbox where
  senderMainDht := owner
  senderAdvertisement := advertisementOf owner
  mailSendDht := owner

/-- The message of one byte that a sender has for Bob. -/
def unsignedMessage (sender : RecordKey) : OutgoingMessage where
  version := mailboxProtocolVersion
  messageId := lastBytes [7]
  senderMainDht := sender
  recipientMainDht := bob
  receiveKeyEpoch := 1
  senderEphemeralPublicKey := []
  messageNonce := lastBytes []
  ciphertext := [7]
  postedAt := 1000
  bumpedAt := 1000
  expiresAt := 2000
  conversationId := none
  proposedConversationDht := none
  signature := []
  bumpSignature := []

def signedMessage (sender : RecordKey) : OutgoingMessage :=
  let message := unsignedMessage sender
  { message with
    signature := plainSignature ⟨sender.text⟩ (immutableMessageBytes message)
    bumpSignature := plainSignature ⟨sender.text⟩ (bumpBytes message.messageId 1000) }

/-- The withdrawal of that message that someone signs. -/
def signedWithdrawal (signer : RecordKey) : OutgoingWithdrawal :=
  let withdrawal : OutgoingWithdrawal := {
    version := mailboxProtocolVersion
    messageId := lastBytes [7]
    senderMainDht := signer
    withdrawnAt := 1500
    signature := [] }
  { withdrawal with signature := plainSignature ⟨signer.text⟩ (withdrawalBytes withdrawal) }

/-- Everyone's outbox holds one message to Bob. -/
def smallNetwork : Surroundings Unit where
  ids := plainIds
  ownMainDht := ⟨ascii "VLD0:Qw"⟩
  dht _ := refusingRecord
  currentTimestamp w := (1000, w)
  networkAccess _ w := (.allowed, w)
  readMailboxAdvertisement owner := pure (advertisementOf owner)
  readForeignOutbox owner := pure [.message (signedMessage owner)]
  createDht := throw (.dht "refused")
  packageIdToKey _ := throw (.dht "refused")
  randomEpoch w := (⟨List.replicate 16 0, rfl⟩, w)
  persist := pure ()
  decryptAndEmit _ := pure ()

/-- A custodian with an empty mailbox. -/
def freshCustodian : Custodian PlainDigest where
  mailboxStore := some (loadedStore "mailbox" 0 pagedDhtTotalSubkeys none none)
  overflowStores := ∅
  overflowRecords := ∅
  quotaState := .empty
  recentServiceRequests := []
  pendingTransactions := []

theorem freshCustodian_loaded : freshCustodian.Loaded smallNetwork where
  mailbox store hstore := by
    cases hstore
    exact ⟨"mailbox", 0, (), (), rfl⟩
  overflow recipient store hstore := by cases hstore
  cache := rfl

/-- The custodian after it has observed Alice's outbox. -/
def filedCustodian : Custodian PlainDigest :=
  freshCustodian.next smallNetwork {} (.observeSenderOutbox (outboxOf alice) ())

/-- No commit that fails can have left a mailbox of one page divided. -/
theorem not_leftDisturbed {c : Custodian PlainDigest}
    (hmailbox : ∀ store ∈ c.mailboxStore, store.pages.length ≤ 1)
    (hoverflow : c.overflowStores.entries = []) : ¬ c.LeftDisturbed {} := by
  rintro (⟨store, hrouted, hdisturbed, hstore⟩ | ⟨recipient, store, _, _, hstore⟩)
  · exact hdisturbed (undisturbed_of_rebalance hrouted (hmailbox _ hstore))
  · have hmem := AList.mem_lookup_iff.mp hstore
    rw [hoverflow] at hmem
    cases hmem

theorem filedCustodian_reachable :
    ((custodianSystem smallNetwork {}).restrict (CommitsUndisturbed smallNetwork {})).Reachable
      filedCustodian := by
  refine .next (.observeSenderOutbox (outboxOf alice) ()) (.start freshCustodian_loaded) ⟨?_, rfl⟩
  apply not_leftDisturbed
  · decide +kernel
  · decide +kernel

/-- Alice's pointer is the only one. -/
theorem filedCustodian_pointers {recipient : RecordKey}
    (h : filedCustodian.Holds recipient pointer) :
    pointer.messageId = lastBytes [7] ∧ pointer.senderMainDht = alice := by
  have hall : ∀ p ∈ filedCustodian.pointers, p.messageId = lastBytes [7] ∧
      p.senderMainDht = alice := by decide +kernel
  exact hall pointer (Custodian.mem_pointers_iff.mpr ⟨recipient, h⟩)

/-- Alice withdraws her message. -/
theorem withdrawn_by_sender_alice : filedCustodian.pointers.length = 1 ∧
      (filedCustodian.processWithdrawals plainIds (advertisementOf alice)
        [.withdrawal (signedWithdrawal alice)]).pointers = [] ∧
      WithdrawnBySender plainIds (outboxOf alice) [.withdrawal (signedWithdrawal alice)]
        filedCustodian := by
  refine ⟨by decide +kernel, by decide +kernel, ?_⟩
  have hown : NamesOwn smallNetwork.ids (outboxOf alice) [.withdrawal (signedWithdrawal alice)]
      filedCustodian := by
    constructor
    · intro w _ _ recipient pointer hholds _
      exact (filedCustodian_pointers hholds).2
    · have hcache : filedCustodian.recentServiceRequests = [] := by decide +kernel
      intro w _ _ request hrequest
      rw [hcache] at hrequest
      cases hrequest
  exact withdrawn_by_sender filedCustodian_reachable _ _ hown

/-- Mallory withdraws Alice's message. -/
theorem withdrawn_by_another :
    ¬ ∀ c : Custodian PlainDigest, (custodianSystem smallNetwork {}).Reachable c →
        ∀ outbox records, WithdrawnBySender smallNetwork.ids outbox records c := by
  intro hclaim
  have hwithdrawn := hclaim filedCustodian filedCustodian_reachable.of_restrict (outboxOf mallory)
    [.withdrawal (signedWithdrawal mallory)]
  have hone : filedCustodian.pointers.length = 1 := by decide +kernel
  have hnone : (filedCustodian.processWithdrawals smallNetwork.ids (advertisementOf mallory)
      [.withdrawal (signedWithdrawal mallory)]).pointers = [] := by decide +kernel
  obtain ⟨pointer, hpointer⟩ := List.exists_mem_of_length_pos (hone.symm ▸ Nat.one_pos)
  obtain ⟨recipient, hholds⟩ := Custodian.mem_pointers_iff.mp hpointer
  have hgone : ¬ (filedCustodian.processWithdrawals smallNetwork.ids (advertisementOf mallory)
      [.withdrawal (signedWithdrawal mallory)]).Holds recipient pointer := by
    intro hstill
    have hmem := Custodian.mem_pointers_iff.mpr ⟨recipient, hstill⟩
    rw [hnone] at hmem
    cases hmem
  -- The outbox is Mallory's, the pointer is Alice's.
  obtain ⟨_, _, _, _, hsender⟩ := hwithdrawn.pointers recipient pointer hholds hgone
  rw [(filedCustodian_pointers hholds).2] at hsender
  exact absurd hsender (by decide +kernel)

end TwoSenders

end VeilKnit.Mailbox
