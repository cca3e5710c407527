import VeilKnit.Mailbox.CustodianStores
import VeilKnit.Mailbox.QuotaRecount

/-!
# The ledger of a custodian

The ledger lists the sender and the recipient of every pointer that the mailbox entries
stand for, and the overflow record of every pointer that lies in one. A recount of the
stores counts the ledger, as long as no pointer is listed twice and no two recipients
share an overflow record.

Rewriting one entry of the mailbox changes the part of the ledger that the entry stands
for, and nothing else.
-/

namespace VeilKnit.Mailbox

open Library

variable {D : Type}

/-- What pointers of a recipient add to the ledger. -/
def ledgerOf (recipient : RecordKey) (sources : List MailSourcePointer) :
    Multiset (RecordKey × RecordKey) :=
  (sources.map fun pointer => (pointer.senderMainDht, recipient) : List (RecordKey × RecordKey))

@[simp] theorem ledgerOf_nil (recipient : RecordKey) : ledgerOf recipient [] = 0 := rfl

@[simp] theorem ledgerOf_cons (recipient : RecordKey) (pointer : MailSourcePointer)
    (sources : List MailSourcePointer) :
    ledgerOf recipient (pointer :: sources) =
      (pointer.senderMainDht, recipient) ::ₘ ledgerOf recipient sources := rfl

@[simp] theorem ledgerOf_append (recipient : RecordKey) (sources sources' : List MailSourcePointer) :
    ledgerOf recipient (sources ++ sources') =
      ledgerOf recipient sources + ledgerOf recipient sources' := by
  simp [ledgerOf]

/-- The order of the pointers does not matter. -/
theorem ledgerOf_perm (recipient : RecordKey) {sources sources' : List MailSourcePointer}
    (h : sources.Perm sources') : ledgerOf recipient sources = ledgerOf recipient sources' :=
  Multiset.coe_eq_coe.mpr (h.map _)

namespace Custodian

/-- The entries of the mailbox, if there is one. -/
def entries (c : Custodian D) : List (MailboxRecipientEntry D) :=
  match c.mailboxStore with
  | some store => store.allEntries
  | none => []

/-- The part of the ledger that an entry stands for. -/
def ledgerEntry (c : Custodian D) (entry : MailboxRecipientEntry D) :
    Multiset (RecordKey × RecordKey) :=
  ledgerOf entry.recipientMainDht (c.sourcesOf entry)

/-- The overflow record of an entry, once for each of its pointers. -/
def overflowEntry (c : Custodian D) (entry : MailboxRecipientEntry D) : Multiset RecordKey :=
  match entry.storage with
  | .inline _ => 0
  | .overflow recordKey .. => Multiset.replicate (c.sourcesOf entry).length recordKey

/-- The sender and the recipient of every pointer. -/
def filed (c : Custodian D) : Multiset (RecordKey × RecordKey) :=
  (c.entries : Multiset (MailboxRecipientEntry D)).bind c.ledgerEntry

/-- The overflow record of every pointer that lies in one. -/
def overflowed (c : Custodian D) : Multiset RecordKey :=
  (c.entries : Multiset (MailboxRecipientEntry D)).bind c.overflowEntry

end Custodian

/-! ## The recount -/

namespace MailboxQuotaState

/-- Counters can count this ledger without getting full. -/
structure Fits (filed : Multiset (RecordKey × RecordKey)) : Prop where
  senders : ∀ s, (filed.map Prod.fst).count s < 2 ^ 32
  pairs : ∀ p, filed.count p < 2 ^ 32
  recipients : ∀ r, (filed.map Prod.snd).count r < 2 ^ 32

variable {state : MailboxQuotaState} {filed filed' : Multiset (RecordKey × RecordKey)}
  {overflowed : Multiset RecordKey} {recipient : RecordKey} {pointer : MailSourcePointer}

theorem Counts.fits (h : state.Counts filed overflowed) : Fits filed where
  senders s := h.senders s ▸ UInt32.toNat_lt _
  pairs p := h.pairs p ▸ UInt32.toNat_lt _
  recipients r := h.recipients r ▸ UInt32.toNat_lt _

theorem Fits.mono (h : Fits filed) (hle : filed' ≤ filed) : Fits filed' where
  senders s := (Multiset.count_le_of_le s (Multiset.map_le_map hle)).trans_lt (h.senders s)
  pairs p := (Multiset.count_le_of_le p hle).trans_lt (h.pairs p)
  recipients r := (Multiset.count_le_of_le r (Multiset.map_le_map hle)).trans_lt (h.recipients r)

theorem Counts.hasRoom (h : state.Counts filed overflowed)
    (hfits : Fits ((pointer.senderMainDht, recipient) ::ₘ filed)) :
    state.HasRoom recipient pointer where
  sender := by
    have := hfits.senders pointer.senderMainDht
    rwa [Multiset.map_cons, Multiset.count_cons_self, ← h.senders] at this
  pair := by
    have := hfits.pairs (pointer.senderMainDht, recipient)
    rwa [Multiset.count_cons_self, ← h.pairs] at this
  recipient := by
    have := hfits.recipients recipient
    rwa [Multiset.map_cons, Multiset.count_cons_self, ← h.recipients] at this

/-- Going through pointers that have not been seen counts all of them. -/
theorem foldl_recountPointer (count : UInt32) (sources : List MailSourcePointer)
    (hids : (sources.map MailSourcePointer.messageId).Nodup) {r : Recount}
    (hcounts : r.state.Counts filed overflowed)
    (hseen : ∀ p ∈ sources, (recipient, p.messageId) ∉ r.seen)
    (hfits : Fits (ledgerOf recipient sources + filed))
    (hcount : count.toNat + sources.length < 2 ^ 32) :
    let result := sources.foldl (recountPointer recipient) (r, count)
    result.1.state.Counts (ledgerOf recipient sources + filed) overflowed ∧
      result.2.toNat = count.toNat + sources.length ∧
      ∀ x ∈ result.1.seen, x ∈ r.seen ∨ x.1 = recipient := by
  induction sources generalizing r count filed with
  | nil =>
    rw [ledgerOf_nil, zero_add]
    exact ⟨hcounts, rfl, fun x hx => .inl hx⟩
  | cons pointer sources ih =>
    obtain ⟨hfirst, hrest⟩ := List.nodup_cons.mp hids
    have hnew := hseen pointer List.mem_cons_self
    rw [ledgerOf_cons, Multiset.cons_add] at hfits
    have hroom : r.state.HasRoom recipient pointer := by
      apply hcounts.hasRoom
      apply hfits.mono
      exact Multiset.cons_le_cons _ (Multiset.le_add_left _ _)
    rw [List.length_cons] at hcount
    have hincremented : (incremented count).toNat = count.toNat + 1 := incremented_toNat (by omega)
    rw [ledgerOf_cons, Multiset.cons_add, ← Multiset.add_cons] at *
    have hseen_rest : ∀ p ∈ sources, (recipient, p.messageId) ∉
        (recipient, pointer.messageId) :: r.seen := by
      intro p hp
      rw [List.mem_cons, not_or]
      refine ⟨fun heq => hfirst ?_, hseen p (List.mem_cons_of_mem _ hp)⟩
      exact (Prod.mk.inj heq).2 ▸ List.mem_map_of_mem hp
    have hcounts_rest := hcounts.addPointerCounts hroom
    obtain ⟨hcounts', hlength, hseen'⟩ := ih (incremented count) hrest
      (r := { seen := (recipient, pointer.messageId) :: r.seen
              state := r.state.addPointerCounts recipient pointer })
      hcounts_rest hseen_rest hfits (by omega)
    rw [List.foldl_cons, recountPointer, if_neg hnew]
    refine ⟨hcounts', ?_, fun x hx => ?_⟩
    · rw [hlength, List.length_cons]
      omega
    · rcases hseen' x hx with hx | hx
      · rcases List.mem_cons.mp hx with rfl | hx
        · exact .inr rfl
        · exact .inl hx
      · exact .inr hx

theorem map_snd_ledgerOf (sources : List MailSourcePointer) :
    (ledgerOf recipient sources).map Prod.snd = Multiset.replicate sources.length recipient := by
  induction sources with
  | nil => rfl
  | cons pointer sources ih => rw [ledgerOf_cons, Multiset.map_cons, ih]; rfl

/-- A ledger that fits has few pointers of each recipient. -/
theorem Fits.length_lt {sources : List MailSourcePointer}
    (h : Fits (ledgerOf recipient sources + filed)) : sources.length < 2 ^ 32 := by
  have hcount := h.recipients recipient
  rw [Multiset.map_add, Multiset.count_add, map_snd_ledgerOf,
    Multiset.count_replicate_self] at hcount
  omega

variable {c : Custodian D} {entry : MailboxRecipientEntry D} {r : Recount}

/-- Recounting one entry counts its part of the ledger. -/
theorem recountEntry_spec (hcounts : r.state.Counts filed overflowed)
    (hids : ((c.sourcesOf entry).map MailSourcePointer.messageId).Nodup)
    (hseen : ∀ x ∈ r.seen, x.1 ≠ entry.recipientMainDht)
    (hrecord : ∀ k ∈ c.overflowEntry entry, k ∉ overflowed)
    (hfits : Fits (c.ledgerEntry entry + filed)) :
    (recountEntry c.overflowStores r entry).state.Counts (c.ledgerEntry entry + filed)
        (c.overflowEntry entry + overflowed) ∧
      ∀ x ∈ (recountEntry c.overflowStores r entry).seen,
        x ∈ r.seen ∨ x.1 = entry.recipientMainDht := by
  have hlength := hfits.length_lt
  have hcounted := foldl_recountPointer 0 (c.sourcesOf entry) hids hcounts
    (fun p _ hp => hseen _ hp rfl) hfits (by simpa using hlength)
  obtain ⟨hcounts', hcount, hseen'⟩ := hcounted
  unfold recountEntry Custodian.overflowEntry
  unfold Custodian.overflowEntry at hrecord
  cases hstorage : entry.storage with
  | inline sources =>
    have hsources : c.sourcesOf entry = sources := by simp [Custodian.sourcesOf, hstorage]
    rw [hsources] at hcounts' hseen'
    rw [Custodian.ledgerEntry, hsources, zero_add]
    exact ⟨hcounts', hseen'⟩
  | overflow recordKey overflowEpoch entryCount serializedSize digest since =>
    rw [hstorage] at hrecord
    dsimp only at hrecord ⊢
    have hsources : ((c.overflowStores.lookup entry.recipientMainDht).map
        CowPagedStore.allEntries).getD [] = c.sourcesOf entry := by
      cases hlookup : c.overflowStores.lookup entry.recipientMainDht <;>
        simp [Custodian.sourcesOf, hstorage, hlookup]
    rw [hsources]
    generalize (c.sourcesOf entry).foldl (recountPointer entry.recipientMainDht) (r, 0) = result
      at hcounts' hcount hseen'
    rw [UInt32.toNat_zero, Nat.zero_add] at hcount
    split
    · -- Without pointers the overflow record is not listed.
      rename_i hzero
      rw [hzero, UInt32.toNat_zero] at hcount
      rw [← hcount, Multiset.replicate_zero, zero_add]
      exact ⟨hcounts', hseen'⟩
    rename_i hne
    refine ⟨⟨hcounts'.senders, hcounts'.pairs, hcounts'.recipients, ?_⟩, hseen'⟩
    apply hcounts'.overflow.replicate _ hcount
    apply hrecord
    apply Multiset.mem_replicate.mpr ⟨fun hnil => hne ?_, rfl⟩
    rw [hnil] at hcount
    exact UInt32.toNat.inj hcount

/-- Recounting entries of different recipients and different overflow records counts
their parts of the ledger. -/
theorem foldl_recountEntry (entries : List (MailboxRecipientEntry D))
    (hcounts : r.state.Counts filed overflowed)
    (hids : ∀ e ∈ entries, ((c.sourcesOf e).map MailSourcePointer.messageId).Nodup)
    (hrecipients : (entries.map MailboxRecipientEntry.recipientMainDht).Nodup)
    (hseen : ∀ x ∈ r.seen, ∀ e ∈ entries, x.1 ≠ e.recipientMainDht)
    (hrecords : ∀ e ∈ entries, ∀ k ∈ c.overflowEntry e, k ∉ overflowed)
    (hshared : entries.Pairwise fun e e' => ∀ k ∈ c.overflowEntry e, k ∉ c.overflowEntry e')
    (hfits : Fits ((entries : Multiset _).bind c.ledgerEntry + filed)) :
    (entries.foldl (recountEntry c.overflowStores) r).state.Counts
      ((entries : Multiset _).bind c.ledgerEntry + filed)
      ((entries : Multiset _).bind c.overflowEntry + overflowed) := by
  induction entries generalizing r filed overflowed with
  | nil => simpa using hcounts
  | cons entry entries ih =>
    obtain ⟨hfirst, hrest⟩ := List.nodup_cons.mp hrecipients
    obtain ⟨hdistinct, hshared⟩ := List.pairwise_cons.mp hshared
    rw [← Multiset.cons_coe, Multiset.cons_bind, add_assoc, add_left_comm] at hfits
    have hentry := recountEntry_spec hcounts (hids entry List.mem_cons_self)
      (fun x hx => hseen x hx entry List.mem_cons_self) (hrecords entry List.mem_cons_self)
      (hfits.mono (Multiset.le_add_left _ _))
    rw [← Multiset.cons_coe, Multiset.cons_bind, Multiset.cons_bind, add_assoc, add_left_comm,
      add_assoc, add_left_comm (c.overflowEntry entry)]
    rw [List.foldl_cons]
    apply ih hentry.1 (fun e he => hids e (List.mem_cons_of_mem _ he)) hrest _ _ hshared hfits
    · intro x hx e he heq
      rcases hentry.2 x hx with hold | hnew
      · exact hseen x hold e (List.mem_cons_of_mem _ he) heq
      · exact hfirst (hnew ▸ heq ▸ List.mem_map_of_mem he)
    · intro e he k hk hmem
      rcases Multiset.mem_add.mp hmem with hmem | hmem
      · exact hdistinct e he k hmem hk
      · exact hrecords e (List.mem_cons_of_mem _ he) k hk hmem

end MailboxQuotaState

namespace Custodian

variable {c : Custodian D}

/-- What the recount relies on. -/
structure Recountable (c : Custodian D) : Prop where
  recipients : (c.entries.map MailboxRecipientEntry.recipientMainDht).Nodup
  ids : ∀ e ∈ c.entries, ((c.sourcesOf e).map MailSourcePointer.messageId).Nodup
  records : ∀ e ∈ c.entries, ∀ e' ∈ c.entries, ∀ k ∈ c.overflowEntry e, k ∈ c.overflowEntry e' →
    e = e'

/-- A recount of the stores counts the ledger. -/
theorem Recountable.rebuild_counts (h : c.Recountable) (hfits : MailboxQuotaState.Fits c.filed) :
    (MailboxQuotaState.rebuild c.mailboxStore c.overflowStores).Counts c.filed c.overflowed := by
  have hstart := MailboxQuotaState.counts_empty 1
  have hnodup : c.entries.Nodup := h.recipients.of_map _
  have hshared : c.entries.Pairwise fun e e' =>
      ∀ k ∈ c.overflowEntry e, k ∉ c.overflowEntry e' := by
    apply hnodup.imp_of_mem
    intro e e' he he' hne k hk hk'
    exact hne (h.records e he e' he' k hk hk')
  have hcounts := MailboxQuotaState.foldl_recountEntry
    (r := { seen := [], state := { MailboxQuotaState.empty with generation := 1 } }) c.entries hstart
    h.ids h.recipients (by simp) (by simp) hshared (by simpa [filed] using hfits)
  rw [add_zero, add_zero] at hcounts
  unfold MailboxQuotaState.rebuild filed overflowed
  unfold entries at hcounts ⊢
  cases hstore : c.mailboxStore with
  | none =>
    rw [hstore] at hcounts
    exact hcounts
  | some store =>
    rw [hstore] at hcounts
    exact hcounts

end Custodian

end VeilKnit.Mailbox
