import VeilKnit.Mailbox.Outbox
import VeilKnit.Mailbox.PageReload

/-!
# Withdrawn messages over whole runs

A withdrawn message stays away as long as three things hold. New messages have
identifiers of their own. When a message is withdrawn, the withdrawal is filed in the
page that holds the message. And when the store is loaded again, the generation that its
record holds no longer lists a withdrawn message: a commit that carries the withdrawal
has landed.

The last of these is not ensured by the code. A withdrawal is complete once the catalogue
is saved, and a restart before the next commit of the outbox merges the message back into
the catalogue.
-/

namespace VeilKnit.Mailbox

open Library Fallible

variable {D : Type} [DigestScheme D] [DecidableEq D]

/-! ## Edits of stores that need not be routed -/

section Edits

variable {T : Type} [PageEntry T] {store : CowPagedStore D T}

omit [DigestScheme D] [DecidableEq D] [PageEntry T] in
/-- Where an entry of an edited list of pages comes from. -/
theorem mem_modify_pages {pages : List (LocalPage D T)} {i : Nat}
    {f : LocalPage D T → LocalPage D T} {e : T}
    (h : e ∈ (pages.modify i f).flatMap LocalPage.entries) :
    ∃ j page, pages[j]? = some page ∧ e ∈ if j = i then (f page).entries else page.entries := by
  obtain ⟨j, page, hpage, he⟩ := mem_entries_iff.mp h
  rw [List.getElem?_modify] at hpage
  cases hold : pages[j]? with
  | none => simp [hold] at hpage
  | some old =>
    refine ⟨j, old, hold, ?_⟩
    by_cases hij : i = j
    · obtain rfl : f old = page := by simpa [hold, hij] using hpage
      rwa [if_pos hij.symm]
    · obtain rfl : old = page := by simpa [hold, hij] using hpage
      rwa [if_neg (Ne.symm hij)]

section

omit [DecidableEq D]

/-- An entry after an insertion is the new one or an old one; in the page that the lookup
visits, it has another key. -/
theorem mem_of_mem_upsert (hsound : PagesSound store.pages) {entry e : T}
    (h : e ∈ (store.upsert entry).allEntries) :
    e = entry ∨ ∃ (i : Nat) (page : LocalPage D T), store.pages[i]? = some page ∧ e ∈ page.entries ∧
        (i = findPageIndex store.pages (pageKey entry) → pageKey e ≠ pageKey entry) := by
  obtain ⟨i, page, hpage, he⟩ := mem_modify_pages h
  by_cases hvisited : i = findPageIndex store.pages (pageKey entry)
  · rw [if_pos hvisited] at he
    have hstrict := hsound.strict page (List.mem_of_getElem? hpage)
    rcases (KeyedList.mem_upsert hstrict).mp he with hnew | ⟨hold, hkey⟩
    · exact .inl hnew
    · exact .inr ⟨i, page, hpage, hold, fun _ => hkey⟩
  · rw [if_neg hvisited] at he
    exact .inr ⟨i, page, hpage, he, fun h => absurd h hvisited⟩

theorem mem_of_mem_remove (hsound : PagesSound store.pages) {k : Key} {e : T}
    (h : e ∈ (store.remove k).2.allEntries) : e ∈ store.allEntries := by
  unfold CowPagedStore.remove at h
  split at h
  · exact h
  obtain ⟨i, page, hpage, he⟩ := mem_modify_pages h
  apply mem_entries_iff.mpr
  refine ⟨i, page, hpage, ?_⟩
  split at he
  · have hstrict := hsound.strict page (List.mem_of_getElem? hpage)
    exact ((KeyedList.mem_remove hstrict).mp he).1
  · exact he

end

/-- A commit changes nothing in the entries, under any fates. -/
theorem commitInner_entries {σ : Type} (dht : DhtOps σ) (free : CollisionFree D)
    (hsound : PagesSound store.pages) (config : MailboxConfig) (clock : CommitClock)
    (transactions : List PendingCowTransaction) (world : σ) :
    let store' := (commitInner dht store config clock transactions world).store
    PagesSound store'.pages ∧ ∀ e, e ∈ store'.allEntries ↔ e ∈ store.allEntries := by
  have hcommitted := commitInner_committed dht free config store clock transactions world
  generalize (commitInner dht store config clock transactions world).store = store' at hcommitted
  cases hcommitted with
  | unchanged => exact ⟨hsound, fun _ => Iff.rfl⟩
  | failed => exact ⟨pagesSound_rebalance hsound, fun _ => mem_rebalance⟩
  | switched hplan hloaded =>
    refine ⟨hloaded.sound, fun e => ?_⟩
    obtain ⟨newPages, writes, hpages, hindex⟩ := mem_planIndex_pages hplan
    have hverified := mem_verified free (pagesSound_rebalance hsound)
      (planPages_ok hpages).1 hindex hloaded (e := e)
    exact hverified.trans mem_rebalance

end Edits

/-! ## What keeps a message away -/

/-- None of the messages has one of these identifiers. -/
def Absent (ids : List Id32) (messages : List OutgoingMessage) : Prop :=
  ∀ m ∈ messages, m.messageId ∉ ids

theorem Absent.of_cons {ids : List Id32} {messages : List OutgoingMessage} {id : Id32}
    (h : Absent (id :: ids) messages) : Absent ids messages :=
  fun m hm hid => h m hm (List.mem_cons_of_mem id hid)

/-- None of the records is a message with one of these identifiers. -/
def Unpublished (ids : List Id32) (records : List OutgoingRecord) : Prop :=
  ∀ m, .message m ∈ records → m.messageId ∉ ids

/-- Only the page that the lookup of an identifier visits has a message under it. -/
def MessageRouted (store : CowPagedStore D OutgoingRecord) (id : Id32) : Prop :=
  ∀ (i : Nat) (page : LocalPage D OutgoingRecord), store.pages[i]? = some page →
    ∀ m, .message m ∈ page.entries → m.messageId = id → findPageIndex store.pages id.val = i

/-- What a load can find lists none of these messages: the newest complete generation of
the record where every read is served, and any complete one where some are not. -/
def LoadsUnpublished (ids : List Id32) (m : Memory) (fates : List Fate) : Prop :=
  ∀ slot (index : CowIndex D) (pages : List (LocalPage D OutgoingRecord)),
    HoldsGeneration m slot index pages →
    (fates = [] → ∀ slot' (index' : CowIndex D) (pages' : List (LocalPage D OutgoingRecord)),
      HoldsGeneration m slot' index' pages' → index'.generation ≤ index.generation) →
    Unpublished ids (pages.flatMap LocalPage.entries)

namespace OutboxRun

/-- Withdrawn messages are neither live nor published. -/
structure StaysWithdrawn (s : OutboxRun D) : Prop where
  outgoing : Absent s.withdrawn s.outbox.outgoingMessages
  published : Unpublished s.withdrawn s.outbox.outboxStore.allEntries

/-- The condition on one step. -/
def Settled (s : OutboxRun D) : OutboxEvent → Prop
  | .submit message => message.messageId ∉ s.withdrawn
  | .withdraw id _ _ _ => MessageRouted s.outbox.outboxStore id
  | .restart fates => LoadsUnpublished (D := D) s.withdrawn s.outbox.memory fates
  | .repair fates => LoadsUnpublished (D := D) s.withdrawn s.outbox.memory fates
  | _ => True

end OutboxRun

namespace Outbox

/-- The messages with these identifiers are gone, on disk as well. -/
structure Clear (ids : List Id32) (s : Outbox D) : Prop where
  strict : KeyedList.Strict OutgoingMessage.messageId s.outgoingMessages
  strictSaved : KeyedList.Strict OutgoingMessage.messageId s.saved
  sound : PagesSound s.outboxStore.pages
  outgoing : Absent ids s.outgoingMessages
  saved : Absent ids s.saved
  published : Unpublished ids s.outboxStore.allEntries

section Steps

variable {ids : List Id32} {s : Outbox D}

section

omit [DecidableEq D]

theorem Clear.persist (h : Clear ids s) (fate : PersistFate) : Clear ids (s.persist fate).2 := by
  cases fate with
  | written => exact ⟨h.strict, h.strict, h.sound, h.outgoing, h.outgoing, h.published⟩
  | refused => exact h
  | partlyWritten => exact ⟨h.strict, h.strict, h.sound, h.outgoing, h.outgoing, h.published⟩

/-- Any record that is no such message can be filed in the store. -/
theorem Clear.file (h : Clear ids s) (record : OutgoingRecord)
    (hrecord : ∀ m, record = .message m → m.messageId ∉ ids) :
    Clear ids { s with outboxStore := s.outboxStore.upsert record } := by
  refine ⟨h.strict, h.strictSaved, pagesSound_upsert h.sound record, h.outgoing, h.saved, ?_⟩
  intro m hm
  rcases mem_of_mem_upsert h.sound hm with hnew | ⟨i, page, hpage, hmem, _⟩
  · exact hrecord m hnew.symm
  · exact h.published m (mem_entries_iff.mpr ⟨i, page, hpage, hmem⟩)

end

section

omit [DigestScheme D] [DecidableEq D]

variable {messages : List OutgoingMessage} {message : OutgoingMessage}

theorem absent_upsert
    (hstrict : KeyedList.Strict OutgoingMessage.messageId messages) (h : Absent ids messages)
    (hfresh : message.messageId ∉ ids) :
    Absent ids (KeyedList.upsert OutgoingMessage.messageId message messages) := by
  intro m hm
  rcases (KeyedList.mem_upsert hstrict).mp hm with rfl | ⟨hold, _⟩
  · exact hfresh
  · exact h m hold

theorem orInsert_keeps
    (hstrict : KeyedList.Strict OutgoingMessage.messageId messages) (h : Absent ids messages)
    (hfresh : message.messageId ∉ ids) :
    KeyedList.Strict OutgoingMessage.messageId (orInsert messages message) ∧
      Absent ids (orInsert messages message) := by
  unfold orInsert
  split
  · exact ⟨hstrict, h⟩
  · exact ⟨hstrict.upsert message, absent_upsert hstrict h hfresh⟩

/-- Removing a message makes its identifier absent as well. -/
theorem absent_remove (id : Id32)
    (hstrict : KeyedList.Strict OutgoingMessage.messageId messages) (h : Absent ids messages) :
    Absent (id :: ids) (KeyedList.remove OutgoingMessage.messageId id messages) := by
  intro m hm
  obtain ⟨hold, hother⟩ := (KeyedList.mem_remove hstrict).mp hm
  rw [List.mem_cons, not_or]
  exact ⟨hother, h m hold⟩

end

section

omit [DecidableEq D]

theorem Clear.submit (h : Clear ids s) {message : OutgoingMessage}
    (hfresh : message.messageId ∉ ids) : Clear ids (s.submit message) := by
  have hfiled := h.file (.message message) fun m hm => by
    cases hm
    exact hfresh
  exact ⟨h.strict.upsert message, h.strictSaved, hfiled.sound,
    absent_upsert h.strict h.outgoing hfresh, h.saved, hfiled.published⟩

theorem Clear.publishServiceRequest (h : Clear ids s) (request : ServiceRequest) :
    Clear ids (s.publishServiceRequest request) := by
  have hfiled := h.file (.serviceRequest request) fun m hm => nomatch hm
  exact ⟨h.strict, h.strictSaved, hfiled.sound, h.outgoing, h.saved, hfiled.published⟩

theorem Clear.bump (h : Clear ids s) (config : MailboxConfig) (id : Id32) (now : UInt64)
    (signed : Except MailboxError (List Signature)) (fate : PersistFate) :
    Clear ids (s.bumpMessage config id now signed fate).2 := by
  unfold bumpMessage
  split
  case h_1 => exact h
  case h_2 message hfound =>
  split
  case isTrue => exact h
  case isFalse =>
  split
  case h_1 => exact h
  case h_2 bumpSignature =>
    -- The bumped message is a live one, which is not withdrawn.
    have hlive := (KeyedList.lookup_eq_some_iff h.strict).mp hfound
    apply Clear.persist
    exact h.submit (h.outgoing message hlive.1)

/-- Filing a withdrawal where the message is takes the message out of the store. -/
theorem Clear.unpublished_withdrawal (h : Clear ids s) (withdrawal : OutgoingWithdrawal)
    (hrouted : MessageRouted s.outboxStore withdrawal.messageId) :
    Unpublished (withdrawal.messageId :: ids)
      (s.outboxStore.upsert (.withdrawal withdrawal)).allEntries := by
  intro m hm
  rcases mem_of_mem_upsert h.sound hm with hnew | ⟨i, page, hpage, hmem, hkey⟩
  · cases hnew
  · rw [List.mem_cons, not_or]
    refine ⟨fun hid => ?_, h.published m (mem_entries_iff.mpr ⟨i, page, hpage, hmem⟩)⟩
    exact hkey (hrouted i page hpage m hmem hid).symm (congrArg Subtype.val hid)

/-- A withdrawal that returns `Ok` makes its message stay away with the others; one that
fails leaves the others away. -/
theorem Clear.withdraw (h : Clear ids s) (ownMainDht : RecordKey) {id : Id32}
    (hrouted : MessageRouted s.outboxStore id) (withdrawnAt : UInt64)
    (signed : Except MailboxError (List Signature)) (fate : PersistFate) :
    Clear (noteWithdrawal ids id (s.withdrawMessage ownMainDht id withdrawnAt signed fate).1)
      (s.withdrawMessage ownMainDht id withdrawnAt signed fate).2 := by
  have habsent := absent_remove id h.strict h.outgoing
  have hremoved : Clear ids { s with
      outgoingMessages := KeyedList.remove OutgoingMessage.messageId id s.outgoingMessages
      outgoingServiceRequests :=
        KeyedList.remove ServiceRequest.requestId id s.outgoingServiceRequests } :=
    ⟨h.strict.remove id, h.strictSaved, h.sound, habsent.of_cons, h.saved, h.published⟩
  unfold withdrawMessage
  dsimp only
  split
  case isTrue => exact hremoved
  case isFalse =>
  split
  case h_1 error => exact hremoved
  case h_2 signature =>
  let withdrawal : OutgoingWithdrawal :=
    { version := mailboxProtocolVersion, messageId := id, senderMainDht := ownMainDht,
      withdrawnAt, signature }
  have hfiled := hremoved.file (.withdrawal withdrawal) fun m hm => nomatch hm
  cases fate with
  | refused => exact hfiled
  | partlyWritten => exact hfiled.persist .partlyWritten
  | written =>
    -- Only here has the withdrawal returned `Ok`: the catalogue lacks the message.
    have hpublished := h.unpublished_withdrawal withdrawal hrouted
    exact ⟨hfiled.strict, hfiled.strict, hfiled.sound, habsent, habsent, hpublished⟩

end

theorem Clear.commit (free : CollisionFree D) (h : Clear ids s) (config : MailboxConfig)
    (clock : CommitClock) (transactions : List PendingCowTransaction) (fates : List Fate) :
    Clear ids (s.commit config clock transactions fates) := by
  obtain ⟨hsound, hentries⟩ := commitInner_entries recordOps free h.sound config clock
    transactions { totalSubkeys := s.outboxStore.totalSubkeys, memory := s.memory, fates }
  exact ⟨h.strict, h.strictSaved, hsound, h.outgoing, h.saved,
    fun m hm => h.published m ((hentries _).mp hm)⟩

end Steps

/-! ### Restarts -/

section Restarts

variable {ids : List Id32} {s : Outbox D} {fates : List Fate}

/-- A load finds no withdrawn message when no generation that it may find lists one. -/
theorem load_unpublished {store : CowPagedStore D OutgoingRecord}
    (h : s.load fates = .ok store) (hloads : LoadsUnpublished (D := D) ids s.memory fates) :
    PagesSound store.pages ∧ Unpublished ids store.allEntries := by
  obtain ⟨w', hrun⟩ : ∃ w', loadOwned recordOps s.outboxStore.name s.outboxStore.packageIndex
      { totalSubkeys := s.outboxStore.totalSubkeys, memory := s.memory, fates } =
        (.ok store, w') := ⟨_, Prod.ext h rfl⟩
  refine ⟨(loadOwned_routed recordOps hrun).2, ?_⟩
  have hempty : store.pages = [emptyPage] → Unpublished ids store.allEntries := by
    intro hpages m hm
    rw [CowPagedStore.allEntries, hpages] at hm
    cases hm
  by_cases hserved : fates = []
  · -- Every read is served, so the load settles on the newest complete generation.
    subst hserved
    obtain ⟨loaded, hquiet, _, _, _, _, hnewest⟩ := loadOwned_quiet (D := D) (T := OutgoingRecord)
      (n := s.outboxStore.totalSubkeys) (m := s.memory) s.outboxStore.name
      s.outboxStore.packageIndex
    obtain rfl : loaded = store := Except.ok.inj (Prod.mk.inj (hquiet.symm.trans hrun)).1
    cases hnewest with
    | nothing _ _ hpages _ => exact hempty hpages
    | generation hslot _ hholds hopened hnewest =>
      apply hloads _ _ _ ⟨hslot, hholds, hopened⟩
      intro _ slot' index' pages' hgeneration
      exact hnewest slot' index' hgeneration.isSlot hgeneration.held hgeneration.opened.complete
  · rcases loadOwned_record hrun with hpages | ⟨slot, index, hgeneration⟩
    · exact hempty hpages
    · exact hloads slot index store.pages hgeneration fun h => absurd h hserved

section

omit [DecidableEq D]

theorem Clear.recoverRecord (h : Clear ids s) {record : OutgoingRecord}
    (hrecord : ∀ m, record = .message m → m.messageId ∉ ids) :
    Clear ids (s.recoverRecord record) := by
  cases record with
  | message message =>
    obtain ⟨hstrict, habsent⟩ := orInsert_keeps h.strict h.outgoing (hrecord message rfl)
    exact ⟨hstrict, h.strictSaved, h.sound, habsent, h.saved, h.published⟩
  | serviceRequest request =>
    exact ⟨h.strict, h.strictSaved, pagesSound_remove h.sound _, h.outgoing, h.saved,
      fun m hm => h.published m (mem_of_mem_remove h.sound hm)⟩
  | withdrawal withdrawal =>
    exact ⟨h.strict.remove _, h.strictSaved, h.sound,
      (absent_remove _ h.strict h.outgoing).of_cons, h.saved, h.published⟩

theorem Clear.republish (h : Clear ids s) {message : OutgoingMessage}
    (hmessage : message.messageId ∉ ids) : Clear ids (s.republish message) := by
  unfold Outbox.republish
  split
  · exact h
  · refine h.file (.message message) fun m hm => ?_
    cases hm
    exact hmessage

/-- The merge brings back only what the catalogue or the loaded store has. -/
theorem Clear.reconcile (h : Clear ids s) : Clear ids s.reconcile := by
  have hrecovered : Clear ids (s.outboxStore.allEntries.foldl Outbox.recoverRecord s) := by
    refine List.foldlRecOn _ _ h fun u hu record hrecord => hu.recoverRecord fun m hm => ?_
    exact h.published m (hm ▸ hrecord)
  exact List.foldlRecOn _ _ hrecovered fun u hu message hmessage =>
    hu.republish (hrecovered.outgoing message hmessage)

end

theorem Clear.restart (h : Clear ids s)
    (hloads : LoadsUnpublished (D := D) ids s.memory fates) : Clear ids (s.restart fates) := by
  unfold Outbox.restart
  split
  case h_1 => exact h
  case h_2 store hload =>
    obtain ⟨hsound, hunpublished⟩ := load_unpublished hload hloads
    apply Clear.reconcile
    exact ⟨h.strictSaved, h.strictSaved, hsound, h.saved, h.saved, hunpublished⟩

theorem Clear.repair (h : Clear ids s)
    (hloads : LoadsUnpublished (D := D) ids s.memory fates) : Clear ids (s.repairStores fates) := by
  unfold Outbox.repairStores
  split
  case h_1 => exact h
  case h_2 store hload =>
    obtain ⟨hsound, hunpublished⟩ := load_unpublished hload hloads
    exact ⟨h.strict, h.strictSaved, hsound, h.outgoing, h.saved, hunpublished⟩

end Restarts

end Outbox

/-! ## Every run -/

section Runs

variable {ownMainDht : RecordKey} {config : MailboxConfig}

/-- Steps that meet the condition keep withdrawn messages away, on disk as well. -/
theorem clear_invariant (free : CollisionFree D) :
    ((outboxSystem (D := D) ownMainDht config).restrict OutboxRun.Settled).Invariant
      fun s => s.outbox.Clear s.withdrawn where
  initially s hinit := by
    obtain ⟨packageIndex, totalSubkeys, rfl⟩ : ∃ packageIndex totalSubkeys,
      s = { outbox := .created packageIndex totalSubkeys, withdrawn := [] } := hinit
    exact ⟨.nil, .nil, emptyPage_sound, nofun, nofun, nofun⟩
  preserved s event t h hstep := by
    obtain ⟨hsettled, rfl⟩ := hstep
    cases event with
    | submit message => exact h.submit hsettled
    | publishServiceRequest request => exact h.publishServiceRequest request
    | bump id now signed fate => exact h.bump config id now signed fate
    | withdraw id withdrawnAt signed fate =>
      exact h.withdraw ownMainDht hsettled withdrawnAt signed fate
    | commit clock transactions fates => exact h.commit free config clock transactions fates
    | persist fate => exact h.persist fate
    | restart fates => exact h.restart hsettled
    | repair fates => exact h.repair hsettled

/-- In every run whose steps meet the condition, a message whose withdrawal has returned
`Ok` is never live or published again. -/
theorem withdrawn_stays_withdrawn (free : CollisionFree D) {s : OutboxRun D}
    (reached : ((outboxSystem ownMainDht config).restrict OutboxRun.Settled).Reachable s) :
    s.StaysWithdrawn := by
  have hclear := (clear_invariant free).holds reached
  exact ⟨hclear.outgoing, hclear.published⟩

end Runs

/-! ## A withdrawal that a restart undoes -/

section Undone

def ownKey : RecordKey := ⟨ascii "VLD0:own"⟩

def letterId : Id32 := ⟨List.replicate 32 1, rfl⟩

/-- A message to be sent and withdrawn. -/
def letter : OutgoingMessage where
  version := mailboxProtocolVersion
  messageId := letterId
  senderMainDht := ownKey
  recipientMainDht := ⟨ascii "VLD0:friend"⟩
  receiveKeyEpoch := 1
  senderEphemeralPublicKey := []
  messageNonce := ⟨List.replicate 32 2, rfl⟩
  ciphertext := [3]
  postedAt := 10
  bumpedAt := 10
  expiresAt := 100
  conversationId := none
  proposedConversationDht := none
  signature := []
  bumpSignature := []

def emptyOutbox : OutboxRun PlainDigest where
  outbox := .created 0 pagedDhtTotalSubkeys
  withdrawn := []

def afterEvents (events : List OutboxEvent) : OutboxRun PlainDigest :=
  events.foldl (OutboxRun.next ownKey {}) emptyOutbox

theorem afterEvents_reachable (events : List OutboxEvent) :
    (outboxSystem ownKey {}).Reachable (afterEvents events) := by
  have hstart : (outboxSystem (D := PlainDigest) ownKey {}).Reachable emptyOutbox :=
    .start ⟨0, pagedDhtTotalSubkeys, rfl⟩
  exact List.foldlRecOn events _ hstart fun s hs event _ => .next event hs rfl

/-- The message is sent and withdrawn, and nothing has been committed when the restart
comes: it stays away. -/
def withdrawnUncommitted : OutboxRun PlainDigest :=
  afterEvents [.submit letter, .withdraw letterId 20 (.ok []) .written, .restart []]

theorem withdrawn_stays_withdrawn_uncommitted :
    letterId ∈ withdrawnUncommitted.withdrawn ∧ withdrawnUncommitted.StaysWithdrawn := by
  have hstart : ((outboxSystem ownKey {}).restrict OutboxRun.Settled).Reachable emptyOutbox :=
    .start ⟨0, pagedDhtTotalSubkeys, rfl⟩
  have hfresh : emptyOutbox.Settled (.submit letter) := List.not_mem_nil
  have hsubmitted := hstart.next (OutboxEvent.submit letter) ⟨hfresh, rfl⟩
  have hwithdrawn := hsubmitted.next (OutboxEvent.withdraw letterId 20 (.ok []) .written) ⟨?_, rfl⟩
  · refine ⟨by decide +kernel, withdrawn_stays_withdrawn plainDigest_collisionFree
      (hwithdrawn.next (OutboxEvent.restart []) ⟨?_, rfl⟩)⟩
    -- Nothing has landed, so the record holds no generation.
    rintro slot index pages ⟨_, ⟨bytes, hbytes, _⟩, _⟩
    cases hbytes
  · -- The store has one page.
    rintro (_ | i) page hpage m hm hid
    · rfl
    · cases hpage

/-- The message is sent and committed; then it is withdrawn, and the process restarts
before the next commit. -/
def withdrawnThenRestarted : OutboxRun PlainDigest :=
  afterEvents [.submit letter, .commit ⟨0, 0⟩ [] [], .persist .written,
    .withdraw letterId 20 (.ok []) .written, .restart []]

theorem withdrawal_undone_by_restart :
    ¬ ∀ s : OutboxRun PlainDigest, (outboxSystem ownKey {}).Reachable s → s.StaysWithdrawn := by
  intro hclaim
  have hwithdrawn : letterId ∈ withdrawnThenRestarted.withdrawn := by decide +kernel
  have hlive : letter ∈ withdrawnThenRestarted.outbox.outgoingMessages := by decide +kernel
  exact (hclaim _ (afterEvents_reachable _)).outgoing letter hlive hwithdrawn

end Undone

end VeilKnit.Mailbox
