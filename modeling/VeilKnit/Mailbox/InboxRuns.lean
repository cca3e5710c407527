import VeilKnit.Mailbox.Inbox
import VeilKnit.Mailbox.OutboxRuns

/-!
# Messages enter the inbox once

The cache is what keeps a message from entering twice: within a process, for thirty days
and as long as fewer than its capacity of other messages are decrypted. A restart empties
it, while messages live for up to half a year; a message observed again after a restart
enters as unread again, also when the user has deleted it.
-/

namespace VeilKnit.Mailbox

open Library

/-! ## Lists of messages -/

/-- The messages are sorted; all of them have entered, those that were read are marked
as read, and none of them was deleted. -/
structure Filed (entered read deleted : List Id32) (messages : List StoredMailboxMessage) :
    Prop where
  strict : KeyedList.Strict StoredMailboxMessage.messageId messages
  entered : ∀ m ∈ messages, m.messageId ∈ entered
  read : ∀ m ∈ messages, m.messageId ∈ read → m.read = true
  deleted : ∀ m ∈ messages, m.messageId ∉ deleted

section Lists

variable {entered read deleted : List Id32} {messages : List StoredMailboxMessage}

section

variable (h : Filed entered read deleted messages)

include h

theorem Filed.enter (messageId : Id32) : Filed (messageId :: entered) read deleted messages :=
  ⟨h.strict, fun m hm => List.mem_cons_of_mem _ (h.entered m hm), h.read, h.deleted⟩

theorem Filed.remove (messageId : Id32) : Filed entered read deleted
      (KeyedList.remove StoredMailboxMessage.messageId messageId messages) := by
  have hold : ∀ m ∈ KeyedList.remove StoredMailboxMessage.messageId messageId messages,
      m ∈ messages := fun m hm => ((KeyedList.mem_remove h.strict).mp hm).1
  exact ⟨h.strict.remove messageId, fun m hm => h.entered m (hold m hm),
    fun m hm => h.read m (hold m hm), fun m hm => h.deleted m (hold m hm)⟩

/-- A deleted message is gone. -/
theorem Filed.delete (messageId : Id32) : Filed entered read (messageId :: deleted)
      (KeyedList.remove StoredMailboxMessage.messageId messageId messages) := by
  have hremoved := Filed.remove h messageId
  refine ⟨hremoved.strict, hremoved.entered, hremoved.read, fun m hm => ?_⟩
  rw [List.mem_cons, not_or]
  exact ⟨((KeyedList.mem_remove h.strict).mp hm).2, hremoved.deleted m hm⟩

theorem Filed.upsert (stored : StoredMailboxMessage)
    (hentered : stored.messageId ∈ entered) (hread : stored.messageId ∈ read → stored.read = true)
    (hdeleted : stored.messageId ∉ deleted) :
    Filed entered read deleted
      (KeyedList.upsert StoredMailboxMessage.messageId stored messages) := by
  refine ⟨h.strict.upsert stored, fun m hm => ?_, fun m hm => ?_, fun m hm => ?_⟩ <;>
    rcases (KeyedList.mem_upsert h.strict).mp hm with rfl | ⟨hold, _⟩
  · exact hentered
  · exact h.entered m hold
  · exact hread
  · exact h.read m hold
  · exact hdeleted
  · exact h.deleted m hold

/-- A message that is marked as read counts as read from then on. -/
theorem Filed.mark {stored : StoredMailboxMessage} (hstored : stored ∈ messages) :
    Filed entered (stored.messageId :: read) deleted
      (KeyedList.upsert StoredMailboxMessage.messageId { stored with read := true } messages) := by
  have hmarked := Filed.upsert h { stored with read := true } (h.entered stored hstored)
    (fun _ => rfl) (h.deleted stored hstored)
  refine ⟨hmarked.strict, hmarked.entered, fun m hm hread => ?_, hmarked.deleted⟩
  rcases (KeyedList.mem_upsert h.strict).mp hm with rfl | ⟨hold, hother⟩
  · rfl
  · rcases List.mem_cons.mp hread with hsame | hread
    · exact absurd hsame hother
    · exact h.read m hold hread

end

theorem Filed.unmark {messageId : Id32} (h : Filed entered (messageId :: read) deleted messages) :
    Filed entered read deleted messages :=
  ⟨h.strict, h.entered, fun m hm hread => h.read m hm (List.mem_cons_of_mem _ hread), h.deleted⟩

theorem Filed.pruneWithin (h : Filed entered read deleted messages) (fuel : Nat) :
    Filed entered read deleted (Inbox.pruneWithin fuel messages) := by
  induction fuel generalizing messages with
  | zero => exact h
  | succ fuel ih =>
    unfold Inbox.pruneWithin
    split
    · split
      · exact ih (Filed.remove h _)
      · exact h
    · exact h

end Lists

/-! ## Every run -/

namespace InboxRun

variable {decrypt : OutgoingMessage → Except MailboxError EncryptedApplicationEnvelope}
  {s : InboxRun}

/-- No message has entered twice, none that was read is marked as unread, and none that
was deleted is there. -/
structure EntersOnce (s : InboxRun) : Prop where
  entered : s.entered.Nodup
  read : ∀ m ∈ s.inbox.inboxMessages, m.messageId ∈ s.read → m.read = true
  deleted : ∀ m ∈ s.inbox.inboxMessages, m.messageId ∉ s.deleted

/-- The condition on one step: a message that has entered before is still in the cache
when it is observed again, or cannot be decrypted any more. -/
def Remembered (decrypt : OutgoingMessage → Except MailboxError EncryptedApplicationEnvelope)
    (s : InboxRun) : InboxEvent → Prop
  | .observe message now _ =>
    message.messageId ∈ s.entered → ¬ s.inbox.Enters decrypt message now
  | _ => True

/-- What every run with such steps keeps, in memory and on disk. -/
structure Kept (s : InboxRun) : Prop where
  entered : s.entered.Nodup
  read : s.read ⊆ s.entered
  deleted : s.deleted ⊆ s.entered
  live : Filed s.entered s.read s.deleted s.inbox.inboxMessages
  saved : Filed s.entered s.read s.deleted s.inbox.saved.inboxMessages

variable {message : OutgoingMessage} {now : UInt64}

theorem decryptAndEmit_of_not_enters {s : Inbox}
    (h : ¬ s.Enters decrypt message now) (fate : PersistFate) :
    (s.decryptAndEmit decrypt message now fate).2 =
      { s with recentlyDecrypted := s.recentlyDecrypted.prune now } := by
  unfold Inbox.decryptAndEmit
  dsimp only
  split
  case isTrue => rfl
  case isFalse hnew =>
  split
  case isTrue => rfl
  case isFalse hlive =>
    cases hdecrypt : decrypt message with
    | error error => rfl
    | ok envelope => exact absurd ⟨hnew, hlive, envelope, hdecrypt⟩ h

theorem decryptAndEmit_of_enters {s : Inbox}
    (h : s.Enters decrypt message now) (fate : PersistFate) :
    ∃ envelope, (s.decryptAndEmit decrypt message now fate).2 =
      (({ s with recentlyDecrypted := s.recentlyDecrypted.prune now }.file message envelope
        now).persist fate).2 := by
  obtain ⟨hnew, hlive, envelope, hdecrypt⟩ := h
  refine ⟨envelope, ?_⟩
  simp only [Inbox.decryptAndEmit, hdecrypt]
  rw [if_neg hnew, if_neg hlive]

/-- Saving keeps both lists in order, if what is live is. -/
theorem persist_filed (inbox : Inbox) {entered read deleted : List Id32}
    (hlive : Filed entered read deleted inbox.inboxMessages)
    (hsaved : Filed entered read deleted inbox.saved.inboxMessages) (fate : PersistFate) :
    Filed entered read deleted (inbox.persist fate).2.inboxMessages ∧
      Filed entered read deleted (inbox.persist fate).2.saved.inboxMessages := by
  cases fate with
  | written => exact ⟨hlive, hlive⟩
  | refused => exact ⟨hlive, hsaved⟩
  | partlyWritten => exact ⟨hlive, hlive⟩

theorem Kept.observe (h : s.Kept) {fate : PersistFate}
    (hremembered : s.Remembered decrypt (.observe message now fate)) :
    (s.next decrypt (.observe message now fate)).Kept := by
  by_cases henters : s.inbox.Enters decrypt message now
  · have hfresh : message.messageId ∉ s.entered := fun hold => hremembered hold henters
    obtain ⟨envelope, hnext⟩ := decryptAndEmit_of_enters henters fate
    simp only [InboxRun.next, if_pos henters, hnext]
    -- The message is filed as unread; its identifier has neither been read nor deleted.
    have hfiled := (Filed.enter h.live message.messageId).upsert
      { messageId := message.messageId
        senderMainDht := message.senderMainDht
        recipientMainDht := message.recipientMainDht
        applicationId := envelope.applicationId
        postedAt := message.postedAt
        receivedAt := now
        expiresAt := message.expiresAt
        conversationId := message.conversationId
        plaintext := envelope.payload
        read := false } List.mem_cons_self (fun hread => absurd (h.read hread) hfresh)
      fun hdeleted => hfresh (h.deleted hdeleted)
    obtain ⟨hlive, hsaved⟩ := persist_filed
      ({ s.inbox with recentlyDecrypted := s.inbox.recentlyDecrypted.prune now }.file
        message envelope now)
      (Filed.pruneWithin hfiled _) (Filed.enter h.saved message.messageId) fate
    exact ⟨List.nodup_cons.mpr ⟨hfresh, h.entered⟩,
      fun id hid => List.mem_cons_of_mem _ (h.read hid),
      fun id hid => List.mem_cons_of_mem _ (h.deleted hid), hlive, hsaved⟩
  · simp only [InboxRun.next, if_neg henters, decryptAndEmit_of_not_enters henters]
    exact ⟨h.entered, h.read, h.deleted, h.live, h.saved⟩

theorem Kept.readMessage (h : s.Kept) (messageId : Id32) (fate : PersistFate) :
    (s.next decrypt (.read messageId fate)).Kept := by
  simp only [InboxRun.next, Inbox.readInboxMessage]
  split
  case h_1 => exact ⟨h.entered, h.read, h.deleted, h.live, h.saved⟩
  case h_2 stored hfound =>
  obtain ⟨hstored, rfl⟩ := (KeyedList.lookup_eq_some_iff h.live.strict).mp hfound
  have hmarked := Filed.mark h.live hstored
  cases fate with
  | written =>
    have hread : stored.messageId :: s.read ⊆ s.entered :=
      List.cons_subset.mpr ⟨h.live.entered stored hstored, h.read⟩
    exact ⟨h.entered, hread, h.deleted, hmarked, hmarked⟩
  | refused =>
    exact ⟨h.entered, h.read, h.deleted, Filed.unmark hmarked, h.saved⟩
  | partlyWritten =>
    have hlive := Filed.unmark hmarked
    exact ⟨h.entered, h.read, h.deleted, hlive, hlive⟩

theorem Kept.deleteMessage (h : s.Kept) (messageId : Id32) (fate : PersistFate) :
    (s.next decrypt (.delete messageId fate)).Kept := by
  simp only [InboxRun.next, Inbox.deleteInboxMessage]
  split
  case h_1 => exact ⟨h.entered, h.read, h.deleted, h.live, h.saved⟩
  case h_2 stored hfound =>
  obtain ⟨hstored, rfl⟩ := (KeyedList.lookup_eq_some_iff h.live.strict).mp hfound
  have hremoved := Filed.remove h.live stored.messageId
  cases fate with
  | written =>
    have hgone := Filed.delete h.live stored.messageId
    have hdeleted : stored.messageId :: s.deleted ⊆ s.entered :=
      List.cons_subset.mpr ⟨h.live.entered stored hstored, h.deleted⟩
    exact ⟨h.entered, h.read, hdeleted, hgone, hgone⟩
  | refused => exact ⟨h.entered, h.read, h.deleted, hremoved, h.saved⟩
  | partlyWritten => exact ⟨h.entered, h.read, h.deleted, hremoved, hremoved⟩

theorem kept_invariant : ((inboxSystem decrypt).restrict (Remembered decrypt)).Invariant Kept where
  initially s hinit := by
    obtain rfl : s = { inbox := .created, entered := [], read := [], deleted := [] } := hinit
    have hempty : Filed [] [] [] [] := ⟨.nil, nofun, nofun, nofun⟩
    exact ⟨.nil, List.nil_subset _, List.nil_subset _, hempty, hempty⟩
  preserved s event t h hstep := by
    obtain ⟨hremembered, rfl⟩ := hstep
    cases event with
    | observe message now fate => exact h.observe hremembered
    | read messageId fate => exact h.readMessage messageId fate
    | delete messageId fate => exact h.deleteMessage messageId fate
    | revoke epoch fate =>
      obtain ⟨hlive, hsaved⟩ := persist_filed
        { s.inbox with revokedReceiveEpochs := epoch :: s.inbox.revokedReceiveEpochs }
        h.live h.saved fate
      exact ⟨h.entered, h.read, h.deleted, hlive, hsaved⟩
    | persist fate =>
      obtain ⟨hlive, hsaved⟩ := persist_filed s.inbox h.live h.saved fate
      exact ⟨h.entered, h.read, h.deleted, hlive, hsaved⟩
    | restart => exact ⟨h.entered, h.read, h.deleted, h.saved, h.saved⟩

end InboxRun

/-! ## A message that comes back -/

section ComesBack

/-- The text of a message is its ciphertext. -/
def plainDecrypt (message : OutgoingMessage) : Except MailboxError EncryptedApplicationEnvelope :=
  .ok {
    version := mailboxProtocolVersion
    applicationId := []
    sentAt := message.postedAt
    payload := message.ciphertext }

def emptyInbox : InboxRun where
  inbox := .created
  entered := []
  read := []
  deleted := []

/-- The message is observed and deleted; the process restarts and observes it again. -/
def observedAfterRestart : InboxRun :=
  [InboxEvent.observe letter 20 .written, .delete letterId .written, .restart,
    .observe letter 30 .written].foldl (InboxRun.next plainDecrypt) emptyInbox

end ComesBack

end VeilKnit.Mailbox
