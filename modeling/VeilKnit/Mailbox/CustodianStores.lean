import VeilKnit.Mailbox.Observation
import VeilKnit.Mailbox.PageMap

/-!
# The pointers that a custodian holds

The custodian holds the pointers that its mailbox entries stand for. This module says
what a rewritten entry does to them: the pointers of other recipients stay as they are.
Removing an identifier and expiring entries are sequences of such rewrites, one for
each entry of the mailbox.

The stores stay routed under every operation, unless a commit fails over pages that
dividing disturbs.
-/

namespace VeilKnit.Mailbox

open Library Fallible

variable {D σ : Type} [DigestScheme D] [DecidableEq D]

namespace Custodian

/-- The recipient has this pointer in the mailbox. -/
def Holds (c : Custodian D) (recipient : RecordKey) (pointer : MailSourcePointer) : Prop :=
  ∃ store entry, c.mailboxStore = some store ∧ entry ∈ store.allEntries ∧
    entry.recipientMainDht = recipient ∧ pointer ∈ c.sourcesOf entry

/-- Every store finds its entries, and the cache is in order. -/
structure Sound (c : Custodian D) : Prop where
  mailbox : ∀ store, c.mailboxStore = some store → Routed store.pages
  overflow : ∀ recipient store, c.overflowStores.lookup recipient = some store → Routed store.pages
  cached : KeyedList.Strict requestKey c.recentServiceRequests

/-- What rewriting an entry keeps: the entries of other recipients, and of the pointers
those that `keep` wants. No pointer is new. -/
structure Rewritten (keep : MailSourcePointer → Prop) (entry : MailboxRecipientEntry D)
    (c c' : Custodian D) : Prop where
  sound : c'.Sound
  others : ∀ store, c.mailboxStore = some store → ∃ store', c'.mailboxStore = some store' ∧
    ∀ e ∈ store.allEntries, pageKey e ≠ pageKey entry → e ∈ store'.allEntries
  shrinks : ∀ recipient pointer, c'.Holds recipient pointer → c.Holds recipient pointer
  keeps : ∀ recipient pointer, c.Holds recipient pointer → keep pointer → c'.Holds recipient pointer
  cache : c'.recentServiceRequests = c.recentServiceRequests

section Rewriting

variable {keep : MailSourcePointer → Prop} {c c' : Custodian D}
  {store : CowPagedStore D (MailboxRecipientEntry D)} {entry : MailboxRecipientEntry D}

omit [DecidableEq D] in
theorem Rewritten.refl (h : c.Sound) : Rewritten keep entry c c where
  sound := h
  others store hstore := ⟨store, hstore, fun _ he _ => he⟩
  shrinks _ _ hholds := hholds
  keeps _ _ hholds _ := hholds
  cache := rfl

section

omit [DecidableEq D] [DigestScheme D]

/-- Entries with different page keys belong to different recipients. -/
theorem recipient_ne_of_pageKey_ne [DigestScheme D] {e e' : MailboxRecipientEntry D}
    (h : pageKey e ≠ pageKey e') : e.recipientMainDht ≠ e'.recipientMainDht := by
  intro heq
  apply h
  change fullRecordKeyBytes e.recipientMainDht = fullRecordKeyBytes e'.recipientMainDht
  rw [heq]

/-- The pointers of an entry depend on the overflow record of its recipient only. -/
theorem sourcesOf_congr
    (h : c'.overflowStores.lookup entry.recipientMainDht =
      c.overflowStores.lookup entry.recipientMainDht) : c'.sourcesOf entry = c.sourcesOf entry := by
  unfold sourcesOf
  rw [h]

end

section

omit [DecidableEq D]

/-- Put back an entry of the mailbox whose pointers have become fewer, after a change of
its recipient's overflow record. -/
theorem rewritten_upsertEntry (h : c.Sound) (hstore : c.mailboxStore = some store)
    (hentry : entry ∈ store.allEntries) {c₁ : Custodian D}
    (hmailbox : c₁.mailboxStore = c.mailboxStore)
    (hcache : c₁.recentServiceRequests = c.recentServiceRequests)
    (hother : ∀ r ≠ entry.recipientMainDht, c₁.overflowStores.lookup r = c.overflowStores.lookup r)
    (hown : ∀ overflow, c₁.overflowStores.lookup entry.recipientMainDht = some overflow →
      Mailbox.Routed overflow.pages)
    {entry' : MailboxRecipientEntry D}
    (hrecipient : entry'.recipientMainDht = entry.recipientMainDht)
    (hsub : ∀ p ∈ c₁.sourcesOf entry', p ∈ c.sourcesOf entry)
    (hkeep : ∀ p ∈ c.sourcesOf entry, keep p → p ∈ c₁.sourcesOf entry') :
    Rewritten keep entry c (c₁.upsertEntry entry') := by
  have hrouted := h.mailbox store hstore
  have hkey : pageKey entry' = pageKey entry := by
    change fullRecordKeyBytes _ = fullRecordKeyBytes _
    rw [hrecipient]
  have hstore' : (c₁.upsertEntry entry').mailboxStore = some (store.upsert entry') := by
    simp [upsertEntry, hmailbox, hstore]
  -- The other entries stand for the same pointers as before.
  have hsame : ∀ e, pageKey e ≠ pageKey entry →
      (c₁.upsertEntry entry').sourcesOf e = c.sourcesOf e := by
    intro e hne
    exact sourcesOf_congr (hother _ (recipient_ne_of_pageKey_ne hne))
  have hmem : ∀ e, e ∈ (store.upsert entry').allEntries ↔
      e = entry' ∨ (e ∈ store.allEntries ∧ pageKey e ≠ pageKey entry) := by
    intro e
    rw [mem_upsert hrouted, hkey]
  constructor
  case sound =>
    refine ⟨fun s hs => ?_, fun r overflow hlookup => ?_, ?_⟩
    · cases hstore'.symm.trans hs
      exact routed_upsert hrouted entry'
    · by_cases hr : r = entry.recipientMainDht
      · subst hr
        exact hown overflow hlookup
      · exact h.overflow r overflow ((hother r hr).symm.trans hlookup)
    · change KeyedList.Strict requestKey c₁.recentServiceRequests
      rw [hcache]
      exact h.cached
  case others =>
    intro s hs
    cases hstore.symm.trans hs
    exact ⟨_, hstore', fun e he hne => (hmem e).mpr (.inr ⟨he, hne⟩)⟩
  case shrinks =>
    rintro r p ⟨s, e, hs, he, rfl, hp⟩
    cases hstore'.symm.trans hs
    rcases (hmem e).mp he with rfl | ⟨he, hne⟩
    · exact ⟨store, entry, hstore, hentry, hrecipient.symm, hsub p hp⟩
    · rw [hsame e hne] at hp
      exact ⟨store, e, hstore, he, rfl, hp⟩
  case keeps =>
    rintro r p ⟨s, e, hs, he, rfl, hp⟩ hkept
    cases hstore.symm.trans hs
    by_cases hne : pageKey e = pageKey entry
    · -- A page key has one entry.
      obtain rfl := hrouted.strict_entries.inj he hentry hne
      exact ⟨_, entry', hstore', (hmem _).mpr (.inl rfl), hrecipient, hkeep p hp hkept⟩
    · rw [← hsame e hne] at hp
      exact ⟨_, e, hstore', (hmem e).mpr (.inr ⟨he, hne⟩), rfl, hp⟩
  case cache => exact hcache

/-- Rewriting entries one after the other. Each is still in the mailbox when its turn
comes, because the ones before it have other keys. -/
theorem foldl_rewritten {rewrite : Custodian D → MailboxRecipientEntry D → Custodian D}
    (hrewrite : ∀ c store entry, Sound c → c.mailboxStore = some store →
      entry ∈ store.allEntries → Rewritten keep entry c (rewrite c entry))
    (entries : List (MailboxRecipientEntry D)) (hentries : KeyedList.Strict pageKey entries)
    (h : c.Sound) (hstore : c.mailboxStore = some store)
    (hmem : ∀ e ∈ entries, e ∈ store.allEntries) :
    (entries.foldl rewrite c).Sound ∧ (∀ r p, (entries.foldl rewrite c).Holds r p → c.Holds r p) ∧
      (∀ r p, c.Holds r p → keep p → (entries.foldl rewrite c).Holds r p) ∧
      (entries.foldl rewrite c).recentServiceRequests = c.recentServiceRequests := by
  induction entries generalizing c store with
  | nil => exact ⟨h, fun _ _ hp => hp, fun _ _ hp _ => hp, rfl⟩
  | cons entry entries ih =>
    obtain ⟨hfirst, hrest⟩ := List.pairwise_cons.mp hentries
    have hstep := hrewrite c store entry h hstore (hmem entry List.mem_cons_self)
    obtain ⟨store', hstore', hothers⟩ := hstep.others store hstore
    obtain ⟨hsound, hshrinks, hkeeps, hcache⟩ := ih hrest hstep.sound hstore' fun e he =>
      hothers e (hmem e (List.mem_cons_of_mem _ he)) (hfirst e he).ne'
    refine ⟨hsound, fun r p hp => hstep.shrinks r p (hshrinks r p hp), fun r p hp hk => ?_, ?_⟩
    · exact hkeeps r p (hstep.keeps r p hp hk) hk
    · exact hcache.trans hstep.cache

end

end Rewriting

/-! ## Removing an identifier -/

section Removing

variable {c : Custodian D}

section

omit [DecidableEq D]

theorem removePointerFrom_rewritten {store : CowPagedStore D (MailboxRecipientEntry D)}
    {entry : MailboxRecipientEntry D} (messageId : Id32) (h : c.Sound)
    (hstore : c.mailboxStore = some store) (hentry : entry ∈ store.allEntries) :
    Rewritten (fun p => p.messageId ≠ messageId) entry c (removePointerFrom messageId c entry) := by
  unfold removePointerFrom
  cases hstorage : entry.storage with
  | inline sources =>
    dsimp only
    split
    · exact .refl h
    have hsources : c.sourcesOf entry = sources := by simp [sourcesOf, hstorage]
    apply rewritten_upsertEntry h hstore hentry
    case hmailbox => rfl
    case hcache => rfl
    case hother => exact fun _ _ => rfl
    case hown => exact h.overflow _
    case hrecipient => rfl
    case hsub =>
      intro p hp
      rw [hsources]
      exact List.mem_of_mem_eraseP hp
    case hkeep =>
    intro p hp hne
    rw [hsources] at hp
    change p ∈ sources.eraseP _
    rw [List.mem_eraseP_of_neg]
    · exact hp
    · simpa using hne
  | overflow recordKey overflowEpoch entryCount serializedSize digest since =>
    dsimp only
    cases hlookup : c.overflowStores.lookup entry.recipientMainDht with
    | none => exact .refl h
    | some overflow =>
      dsimp only
      have hrouted := h.overflow _ _ hlookup
      have hsources : c.sourcesOf entry = overflow.allEntries := by
        simp [sourcesOf, hstorage, hlookup]
      have hremoved := routed_remove hrouted messageId.val
      have hmem := mem_remove hrouted messageId.val
      split
      · exact .refl h
      rename_i pointer overflow' hremove
      rw [hremove] at hremoved hmem
      apply rewritten_upsertEntry h hstore hentry
      case hmailbox => rfl
      case hcache => rfl
      case hother => exact fun r hr => AList.lookup_insert_ne hr
      case hown =>
        intro s hs
        rw [AList.lookup_insert] at hs
        cases hs
        exact hremoved
      case hrecipient => rfl
      case hsub =>
        intro p hp
        rw [hsources]
        simp only [sourcesOf, describeOverflow, AList.lookup_insert] at hp
        exact ((hmem p).mp hp).1
      case hkeep =>
        intro p hp hne
        rw [hsources] at hp
        simp only [sourcesOf, describeOverflow, AList.lookup_insert]
        exact (hmem p).mpr ⟨hp, fun hkey => hne (Subtype.ext hkey)⟩

/-- Removing an identifier everywhere takes away no pointer with another identifier. -/
theorem removePointerEverywhere_spec (h : c.Sound) (messageId : Id32) :
    (c.removePointerEverywhere messageId).Sound ∧
      (∀ r p, (c.removePointerEverywhere messageId).Holds r p → c.Holds r p) ∧
      (∀ r p, c.Holds r p → p.messageId ≠ messageId →
        (c.removePointerEverywhere messageId).Holds r p) ∧
      (c.removePointerEverywhere messageId).recentServiceRequests = c.recentServiceRequests := by
  unfold removePointerEverywhere
  cases hstore : c.mailboxStore with
  | none => exact ⟨h, fun _ _ hp => hp, fun _ _ hp _ => hp, rfl⟩
  | some store =>
    exact foldl_rewritten
      (fun c store entry hc hs he => removePointerFrom_rewritten messageId hc hs he) _
      (h.mailbox store hstore).strict_entries h hstore fun _ he => he

end

end Removing

/-! ## Expiring entries -/

section Expiring

variable {c : Custodian D} {config : MailboxConfig} {now : UInt64}

omit [DecidableEq D] [DigestScheme D] in
/-- Removing a list of identifiers leaves the pointers with other identifiers. -/
theorem removeAll_spec (messageIds : List Id32) (removed : List MailSourcePointer)
    {overflow : CowPagedStore D MailSourcePointer} (h : Mailbox.Routed overflow.pages) :
    Mailbox.Routed (removeAll messageIds (removed, overflow)).2.pages ∧
      ∀ p, p ∈ (removeAll messageIds (removed, overflow)).2.allEntries ↔
        p ∈ overflow.allEntries ∧ p.messageId ∉ messageIds := by
  induction messageIds generalizing removed overflow with
  | nil => exact ⟨h, fun p => by simp [removeAll]⟩
  | cons messageId messageIds ih =>
    have hrouted := routed_remove h messageId.val
    have hmem := mem_remove h messageId.val
    obtain ⟨removed', hstep⟩ : ∃ removed', removeAll (messageId :: messageIds) (removed, overflow)
        = removeAll messageIds (removed', (overflow.remove messageId.val).2) := by
      rcases hremove : overflow.remove messageId.val with ⟨_ | pointer, overflow'⟩
      · exact ⟨removed, by simp [removeAll, hremove]⟩
      · exact ⟨removed ++ [pointer], by simp [removeAll, hremove]⟩
    obtain ⟨hrouted', hmem'⟩ := ih removed' hrouted
    rw [hstep]
    refine ⟨hrouted', fun p => ?_⟩
    rw [hmem', hmem, List.mem_cons, not_or, and_assoc]
    have hkey : pageKey p ≠ messageId.val ↔ p.messageId ≠ messageId :=
      not_congr Subtype.ext_iff.symm
    rw [hkey]

section

omit [DecidableEq D]

theorem expireEntry_rewritten {store : CowPagedStore D (MailboxRecipientEntry D)}
    {entry : MailboxRecipientEntry D} (h : c.Sound)
    (hstore : c.mailboxStore = some store) (hentry : entry ∈ store.allEntries) :
    Rewritten (fun p => expired config now p = false) entry c (expireEntry config now c entry) := by
  unfold expireEntry
  cases hstorage : entry.storage with
  | inline sources =>
    dsimp only
    have hsources : c.sourcesOf entry = sources := by simp [sourcesOf, hstorage]
    split
    · exact .refl h
    apply rewritten_upsertEntry h hstore hentry
    case hmailbox => rfl
    case hcache => rfl
    case hother => exact fun _ _ => rfl
    case hown => exact h.overflow _
    case hrecipient => rfl
    case hsub =>
      intro p hp
      rw [hsources]
      exact List.mem_of_mem_filter hp
    case hkeep =>
      intro p hp hlive
      rw [hsources] at hp
      exact List.mem_filter.mpr ⟨hp, by simp [hlive]⟩
  | overflow recordKey overflowEpoch entryCount serializedSize digest since =>
    dsimp only
    cases hlookup : c.overflowStores.lookup entry.recipientMainDht with
    | none => exact .refl h
    | some overflow =>
      dsimp only
      have hrouted := h.overflow _ _ hlookup
      have hsources : c.sourcesOf entry = overflow.allEntries := by
        simp [sourcesOf, hstorage, hlookup]
      obtain ⟨hrouted', hmem⟩ := removeAll_spec
        ((overflow.allEntries.filter (expired config now)).map MailSourcePointer.messageId)
        [] hrouted
      generalize removeAll
        ((overflow.allEntries.filter (expired config now)).map MailSourcePointer.messageId)
        ([], overflow) = result at hrouted' hmem
      split
      · exact .refl h
      apply rewritten_upsertEntry h hstore hentry
      case hmailbox => rfl
      case hcache => rfl
      case hother => exact fun r hr => AList.lookup_insert_ne hr
      case hown =>
        intro s hs
        simp only [noteRemovedAll, AList.lookup_insert] at hs
        cases hs
        exact hrouted'
      case hrecipient => rfl
      case hsub =>
        intro p hp
        rw [hsources]
        simp only [sourcesOf, describeOverflow, noteRemovedAll, AList.lookup_insert] at hp
        exact ((hmem p).mp hp).1
      case hkeep =>
      intro p hp hlive
      rw [hsources] at hp
      simp only [sourcesOf, describeOverflow, noteRemovedAll, AList.lookup_insert]
      refine (hmem p).mpr ⟨hp, fun hid => ?_⟩
      -- An identifier has one pointer, so this one would be an expired one.
      obtain ⟨q, hq, hqp⟩ := List.mem_map.mp hid
      obtain ⟨hq, hexpired⟩ := List.mem_filter.mp hq
      obtain rfl := hrouted.strict_entries.inj hq hp (congrArg Subtype.val hqp)
      rw [hlive] at hexpired
      cases hexpired

/-- Expiry takes away expired pointers only. -/
theorem expireCustodianEntries_spec (h : c.Sound) : (c.expireCustodianEntries config now).Sound ∧
      (∀ r p, (c.expireCustodianEntries config now).Holds r p → c.Holds r p) ∧
      (∀ r p, c.Holds r p → expired config now p = false →
        (c.expireCustodianEntries config now).Holds r p) := by
  unfold expireCustodianEntries
  cases hstore : c.mailboxStore with
  | none => exact ⟨h, fun _ _ hp => hp, fun _ _ hp _ => hp⟩
  | some store =>
    obtain ⟨hsound, hshrinks, hkeeps, _⟩ := foldl_rewritten
      (fun c store entry hc hs he => expireEntry_rewritten hc hs he) _
      (h.mailbox store hstore).strict_entries h hstore fun _ he => he
    exact ⟨hsound, hshrinks, hkeeps⟩

end

end Expiring

end Custodian

end VeilKnit.Mailbox
