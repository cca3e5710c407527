import VeilKnit.Mailbox.ForeignRuns

/-!
# A read that overlaps at most one commit

The generation that is current when the commit begins outlives the read, so the read
returns it or a newer one, provided that the reader accepts as many pages as it has.
-/

namespace VeilKnit.Mailbox

open Library

variable {D T : Type} [DigestScheme D] [DecidableEq D] [PageEntry T]

/-! ## Reads come to an end -/

namespace ForeignRead

variable {reader : ForeignRead D T}

/-- How many steps a reader has left at most. -/
def rank (reader : ForeignRead D T) : Nat :=
  match reader.stage with
  | .indexes reads =>
    reader.missing.length + 1 + (reads.length + reader.missing.length) * (reader.maximumPages + 1)
  | .pages _ _ later => reader.missing.length + 1 + later.length * (reader.maximumPages + 1)
  | .done _ => 0

def IsDone (reader : ForeignRead D T) : Prop := ∃ result, reader.stage = .done result

section

omit [DigestScheme D] [DecidableEq D] [PageEntry T]

/-- A read that returns is missing no longer. -/
theorem missing_read {subkey : Subkey} (bytes : Option Bytes) (h : subkey ∈ reader.missing) :
    (reader.read subkey bytes).missing.length < reader.missing.length := by
  have hlocations : (reader.read subkey bytes).locations = reader.locations := by
    unfold locations ForeignRead.read
    cases reader.stage <;> rfl
  have hmissing : (reader.read subkey bytes).missing =
      reader.missing.filter fun k => k ≠ subkey := by
    unfold missing
    rw [hlocations, List.filter_filter]
    refine List.filter_congr fun k hk => ?_
    have hlookup : (reader.read subkey bytes).reads.lookup k =
        (reader.reads.lookup k).or (if k = subkey then some bytes else none) := by
      unfold ForeignRead.reads ForeignRead.read
      unfold locations at hk
      cases hstage : reader.stage with
      | indexes reads => exact lookup_append_read reads subkey bytes k
      | pages index reads later => exact lookup_append_read reads subkey bytes k
      | done result => simp [hstage] at hk
    rw [hlookup]
    by_cases hsame : k = subkey <;> simp [hsame]
  rw [hmissing]
  exact List.length_filter_lt_length_iff_exists.mpr ⟨subkey, h, by simp⟩

theorem rank_tryNext (recordKey : String) (maximumPages : Nat) (later : List (CowIndex D)) :
    ({ recordKey, maximumPages, stage := tryNext recordKey maximumPages later } :
      ForeignRead D T).rank ≤ later.length * (maximumPages + 1) := by
  induction later with
  | nil => exact Nat.zero_le _
  | cons index later ih =>
    rw [tryNext, List.length_cons, Nat.add_mul, Nat.one_mul]
    split
    case isTrue => exact ih.trans (Nat.le_add_right _ _)
    case isFalse hsmall =>
    have hmissing : ({ recordKey, maximumPages, stage := .pages index [] later } :
        ForeignRead D T).missing.length ≤ index.pages.length := by
      refine (List.length_filter_le _ _).trans_eq ?_
      exact List.length_map _
    unfold rank
    dsimp only
    omega

end

omit [PageEntry T] in
theorem length_foreignIndexes (reads : ForeignReads) :
    (foreignIndexes (D := D) reads).length ≤ reads.length := by
  rw [foreignIndexes, List.length_insertionSort]
  exact List.length_filterMap_le _ _

omit [DecidableEq D] [PageEntry T] [DigestScheme D] in
theorem rank_read {subkey : Subkey} (bytes : Option Bytes) (h : subkey ∈ reader.missing) :
    (reader.read subkey bytes).rank < reader.rank := by
  have hmissing := missing_read bytes h
  unfold rank
  cases hstage : reader.stage with
  | indexes reads =>
    have hread : (reader.read subkey bytes).stage = .indexes (reads ++ [(subkey, bytes)]) := by
      simp only [ForeignRead.read, hstage]
    rw [hread]
    -- One read more, and at least one missing less.
    have hcount : (reads ++ [(subkey, bytes)]).length +
        (reader.read subkey bytes).missing.length ≤ reads.length + reader.missing.length := by
      rw [List.length_append, List.length_singleton]
      omega
    have hproduct := Nat.mul_le_mul_right (reader.maximumPages + 1) hcount
    exact Nat.add_lt_add_of_lt_of_le (Nat.add_lt_add_right hmissing 1) hproduct
  | pages index reads later =>
    have hread : (reader.read subkey bytes).stage =
        .pages index (reads ++ [(subkey, bytes)]) later := by
      simp only [ForeignRead.read, hstage]
    rw [hread]
    exact Nat.add_lt_add_right (Nat.add_lt_add_right hmissing 1) _
  | done result =>
    have hnone : reader.missing = [] := by simp [missing, locations, hstage]
    rw [hnone] at h
    cases h

theorem rank_advance (hmissing : reader.missing = []) (hdone : ¬ reader.IsDone) :
    reader.advance.rank < reader.rank := by
  cases hstage : reader.stage with
  | indexes reads =>
    have hadvance : reader.advance = { reader with
        stage := tryNext reader.recordKey reader.maximumPages (foreignIndexes reads) } := by
      simp only [advance, hstage]
    have hnext := rank_tryNext (T := T) reader.recordKey reader.maximumPages
      (foreignIndexes (D := D) reads)
    have hlength := Nat.mul_le_mul_right (reader.maximumPages + 1)
      (length_foreignIndexes (D := D) reads)
    have hrank : reader.rank = 1 + reads.length * (reader.maximumPages + 1) := by
      simp [rank, hstage, hmissing]
    rw [hadvance, hrank]
    omega
  | pages index reads later =>
    have hrank : reader.rank = 1 + later.length * (reader.maximumPages + 1) := by
      simp [rank, hstage, hmissing]
    rw [hrank]
    cases hopen : openForeign (T := T) reads index.pages with
    | some entries =>
      have hadvance : reader.advance.rank = 0 := by
        simp only [rank, advance, hstage, hopen]
      rw [hadvance]
      omega
    | none =>
      have hadvance : reader.advance = { reader with
          stage := tryNext reader.recordKey reader.maximumPages later } := by
        simp only [advance, hstage, hopen]
      have hnext := rank_tryNext (T := T) reader.recordKey reader.maximumPages later
      rw [hadvance]
      omega
  | done result => exact absurd ⟨result, hstage⟩ hdone

end ForeignRead

namespace ForeignWorld

variable {config : MailboxConfig} {w w' : ForeignWorld D T}

/-- A reader that is not done has a step to take, and every step it takes brings it
closer to its end. -/
theorem reader_progress {reader : ForeignRead D T} (hreader : w.reader = some reader)
    (hdone : ¬ reader.IsDone) :
    ∃ event w' reader', (foreignSystem config).step w event w' ∧ w'.reader = some reader' ∧
      reader'.rank < reader.rank := by
  by_cases hmissing : reader.missing = []
  · refine ⟨.advance, { w with reader := some reader.advance }, reader.advance, ⟨trivial, ?_⟩, rfl,
      ForeignRead.rank_advance hmissing hdone⟩
    simp only [next, hreader, hmissing, if_true]
  · obtain ⟨subkey, hsubkey⟩ := List.exists_mem_of_ne_nil _ hmissing
    refine ⟨.read subkey, { w with reader := some (reader.read subkey (w.visible subkey)) },
      reader.read subkey (w.visible subkey), ⟨trivial, ?_⟩, rfl,
      ForeignRead.rank_read _ hsubkey⟩
    simp only [next, hreader, hsubkey, if_true]

/-! ## A generation that outlives the read -/

/-- The owner has a generation of no more pages than the reader accepts, when the read
begins and after a restart during it. -/
def WithinPages (config : MailboxConfig) (w : ForeignWorld D T) : ForeignEvent T → Prop
  | .startRead _ maximumPages =>
    ∃ index, w.owner.store.currentIndex = some index ∧ index.pages.length ≤ maximumPages
  | .edit .reload => ∀ reader, w.reader = some reader → ∀ index,
      (w.owner.next config .reload).store.currentIndex = some index →
        index.pages.length ≤ reader.maximumPages
  | _ => True

/-- The record holds a generation that the reader accepts and has in sight. -/
structure Lasting (reader : ForeignRead D T) (m : Memory) (slot : Subkey) (index : CowIndex D) :
    Prop where
  isSlot : IsIndexSlot slot
  held : HoldsIndex m slot index
  complete : Complete T m index
  small : index.pages.length ≤ reader.maximumPages
  sees : reader.Sees slot index

/-- Before a commit overlaps the read, every generation that is there and acceptable is
in sight; with one commit, the one that was current when it began is. -/
structure Live (w : ForeignWorld D T) (reader : ForeignRead D T) : Prop where
  untouched : w.overlapping = 0 → w.inFlight = none ∧
    (∃ index, w.owner.store.currentIndex = some index ∧ index.pages.length ≤ reader.maximumPages) ∧
    ∀ slot index, IsIndexSlot slot → HoldsIndex w.visible slot index →
      Complete T w.visible index → index.pages.length ≤ reader.maximumPages → reader.Sees slot index
  touched : w.overlapping = 1 → ∃ slot index, Lasting reader w.visible slot index ∧
    (w.inFlight ≠ none →
      slot = w.owner.store.activeIndexSlot ∧ w.owner.store.currentIndex = some index)

/-- The owner's generation stays in its slot as long as no second commit begins. -/
theorem OwnerRuns.current_held (hruns : w.OwnerRuns config) {index : CowIndex D}
    (hindex : w.owner.store.currentIndex = some index) :
    HoldsIndex w.visible w.owner.store.activeIndexSlot index ∧ Complete T w.visible index := by
  have hkept := kept_invariant.holds hruns.owner
  cases hinFlight : w.inFlight with
  | none =>
    rw [hruns.idle hinFlight]
    exact hkept.anchored.complete hindex
  | some after =>
    obtain ⟨clock, transactions, fates, _, rfl⟩ := hruns.inFlight after hinFlight
    exact hkept.during_commit clock transactions fates (hruns.between _ hinFlight) hindex

/-- A restart finds a current generation where there was one. -/
theorem OwnerRuns.reload_current (hruns : w.OwnerRuns config)
    (hindex : w.owner.store.currentIndex ≠ none) :
    ∃ index, (w.owner.next config .reload).store.currentIndex = some index := by
  have hkept := kept_invariant.holds hruns.owner
  obtain ⟨loaded, hload, _, _, _, _, hloads⟩ := w.owner.load_ok
  simp only [RecordedStore.next, hload]
  rcases hkept.loaded hloads with ⟨_, hcurrent⟩ | ⟨_, a, _, hcurrent⟩
  · rw [hcurrent]
    exact Option.ne_none_iff_exists'.mp hindex
  · exact ⟨a.index, hcurrent⟩

/-- The read that a step takes keeps what is in sight in sight. -/
theorem Live.of_reader {reader reader' : ForeignRead D T} (h : w.Live reader)
    (hmaximum : reader'.maximumPages = reader.maximumPages)
    (hsees : ∀ slot index, IsIndexSlot slot → HoldsIndex w.visible slot index →
      Complete T w.visible index → index.pages.length ≤ reader.maximumPages →
        reader.Sees slot index → reader'.Sees slot index) :
    Live { w with reader := some reader' } reader' := by
  refine ⟨fun hzero => ?_, fun hone => ?_⟩
  · obtain ⟨hidle, hcurrent, hall⟩ := h.untouched hzero
    rw [hmaximum]
    exact ⟨hidle, hcurrent, fun slot index hslot hheld hcomplete hsmall =>
      hsees slot index hslot hheld hcomplete hsmall (hall slot index hslot hheld hcomplete hsmall)⟩
  · obtain ⟨slot, index, hlasting, hcommit⟩ := h.touched hone
    exact ⟨slot, index, ⟨hlasting.isSlot, hlasting.held, hlasting.complete,
      hmaximum ▸ hlasting.small, hsees slot index hlasting.isSlot hlasting.held hlasting.complete
        hlasting.small hlasting.sees⟩, hcommit⟩

theorem live_preserved {event : ForeignEvent T} (hruns : w.OwnerRuns config)
    (hruns' : w'.OwnerRuns config) (h : ∀ reader, w.reader = some reader → w.Live reader)
    (hpages : w.WithinPages config event) (hmoves : Moves config w event w') :
    ∀ reader, w'.reader = some reader → w'.Live reader := by
  intro reader hreader
  cases hmoves with
  | @edit event hidle _ _ hedit =>
    have hlive := h reader hreader
    refine ⟨fun hzero => ?_, fun hone => ?_⟩
    · obtain ⟨_, ⟨index, hindex, hsmall⟩, hall⟩ := hlive.untouched hzero
      refine ⟨hidle, ?_, hall⟩
      rcases hedit with rfl | hsame
      · obtain ⟨index', hindex'⟩ := hruns.reload_current (by rw [hindex]; exact nofun)
        exact ⟨index', hindex', hpages reader hreader index' hindex'⟩
      · exact ⟨index, hsame.trans hindex, hsmall⟩
    · obtain ⟨slot, index, hlasting, _⟩ := hlive.touched hone
      exact ⟨slot, index, hlasting, fun hcommit => absurd hidle hcommit⟩
  | startCommit clock transactions fates hidle _ =>
    refine ⟨fun hzero => absurd hzero (Nat.succ_ne_zero _), fun hone => ?_⟩
    -- From here on it is the current generation that lasts.
    obtain ⟨_, ⟨index, hindex, hsmall⟩, hall⟩ := (h reader hreader).untouched (Nat.succ.inj hone)
    obtain ⟨hheld, hcomplete⟩ := hruns.current_held hindex
    have hslot := (kept_invariant.holds hruns.owner).anchored.slot
    exact ⟨_, index, ⟨hslot, hheld, hcomplete, hsmall,
      hall _ index hslot hheld hcomplete hsmall⟩, fun _ => ⟨rfl, hindex⟩⟩
  | land subkey hinFlight =>
    refine ⟨fun hzero => ?_, fun hone => ?_⟩
    · obtain ⟨hidle, _⟩ := (h reader hreader).untouched hzero
      rw [hidle] at hinFlight
      cases hinFlight
    · obtain ⟨slot, index, hlasting, hcommit⟩ := (h reader hreader).touched hone
      obtain ⟨rfl, hindex⟩ := hcommit (by rw [hinFlight]; exact nofun)
      obtain ⟨hheld, hcomplete⟩ := hruns'.current_held hindex
      exact ⟨_, index, ⟨hlasting.isSlot, hheld, hcomplete, hlasting.small, hlasting.sees⟩, hcommit⟩
  | finishCommit hinFlight committed =>
    refine ⟨fun hzero => ?_, fun hone => ?_⟩
    · obtain ⟨hidle, _⟩ := (h reader hreader).untouched hzero
      rw [hidle] at hinFlight
      cases hinFlight
    obtain ⟨slot, index, hlasting, hcommit⟩ := (h reader hreader).touched hone
    obtain ⟨rfl, hindex⟩ := hcommit (by rw [hinFlight]; exact nofun)
    obtain ⟨clock, transactions, fates, _, rfl⟩ := hruns.inFlight _ hinFlight
    obtain ⟨hheld, hcomplete⟩ := (kept_invariant.holds hruns.owner).during_commit clock
      transactions fates (fun k => .inr rfl) hindex
    exact ⟨_, index, ⟨hlasting.isSlot, hheld, hcomplete, hlasting.small, hlasting.sees⟩,
      fun hcommit => absurd rfl hcommit⟩
  | startRead recordKey maximumPages =>
    cases hreader
    obtain ⟨index, hindex, hsmall⟩ := hpages
    refine ⟨fun hzero => ⟨?_, ⟨index, hindex, hsmall⟩, ?_⟩, fun _ => ?_⟩
    · cases hinFlight : w.inFlight with
      | none => rfl
      | some after => simp [hinFlight] at hzero
    · exact fun _ _ _ _ _ _ read hread => by cases hread
    · obtain ⟨hheld, hcomplete⟩ := hruns.current_held hindex
      exact ⟨_, index, ⟨(kept_invariant.holds hruns.owner).anchored.slot, hheld, hcomplete,
        hsmall, fun read hread => by cases hread⟩, fun _ => ⟨rfl, hindex⟩⟩
  | @read subkey reader₀ hreader₀ _ =>
    cases hreader
    exact (h reader₀ hreader₀).of_reader rfl fun slot index _ hheld hcomplete _ hsees =>
      hsees.read hheld hcomplete subkey
  | @advance reader₀ hreader₀ hmissing =>
    cases hreader
    exact (h reader₀ hreader₀).of_reader rfl fun slot index hslot _ _ hsmall hsees =>
      hsees.advance hslot hsmall hmissing

theorem live_of_reachable
    (reached : ((foreignSystem config).restrict (WithinPages config)).Reachable w) :
    ∀ reader, w.reader = some reader → w.Live reader := by
  refine (ownerRuns_invariant.of_restrict _).holds_of_relative
    (P := fun w => ∀ reader, w.reader = some reader → w.Live reader)
    (fun w hinit => ?_) (fun w event w' hruns h hstep => ?_) reached
  · obtain ⟨owner, _, rfl⟩ := hinit
    exact nofun
  · exact live_preserved hruns (ownerRuns_invariant.preserved w event w' hruns hstep.2) h
      hstep.1 (moves_of_step hstep.2)

end ForeignWorld

/-! ## Reads that fail, and reads of what was never committed -/

section Runs

instance (w : ForeignWorld D T) (event : ForeignEvent T) : Decidable (w.Counted event) := by
  cases event <;> unfold ForeignWorld.Counted <;> infer_instance

/-- The world before anything has happened. -/
def freshWorld : ForeignWorld PlainDigest PlainEntry where
  owner := freshRecord
  visible _ := none
  inFlight := none
  reader := none
  overlapping := 0
  planned := []
  committed := []

def foreignRun (config : MailboxConfig) (events : List (ForeignEvent PlainEntry)) :
    Option (ForeignWorld PlainDigest PlainEntry) :=
  LabelledSystem.runWithin (ForeignWorld.next config) ForeignWorld.Counted freshWorld events

theorem foreignRun_reachable {config : MailboxConfig} {events : List (ForeignEvent PlainEntry)}
    {w : ForeignWorld PlainDigest PlainEntry} (h : foreignRun config events = some w) :
    (foreignSystem config).Reachable w := by
  have hstart : (foreignSystem config).Reachable freshWorld :=
    .start ⟨freshRecord, ⟨"mail", 0, pagedDhtTotalSubkeys, rfl⟩, rfl⟩
  have hstep : ∀ (w : ForeignWorld PlainDigest PlainEntry) event w', w.Counted event →
      w.next config event = some w' →
      (foreignSystem config).step w event w' := fun _ _ _ hcounted hnext => ⟨hcounted, hnext⟩
  exact hstart.of_runWithin hstep h

/-- The entries that a reader has returned, or `none` where it has failed. -/
def ForeignRead.result (reader : ForeignRead PlainDigest PlainEntry) :
    Option (Option (List PlainEntry)) :=
  match reader.stage with
  | .done (.ok (_, entries)) => some (some entries)
  | .done (.error _) => some none
  | _ => none

variable {reader : ForeignRead PlainDigest PlainEntry}

theorem ForeignRead.result_eq_some_iff {entries : List PlainEntry} :
    reader.result = some (some entries) ↔ ∃ index, reader.stage = .done (.ok (index, entries)) := by
  unfold ForeignRead.result
  split <;> simp_all

theorem ForeignRead.result_eq_none_iff :
    reader.result = some none ↔ ∃ error, reader.stage = .done (.error error) := by
  unfold ForeignRead.result
  split <;> simp_all

/-- A commit that cannot confirm its index, and a read after it. -/
def unconfirmedThenRead : List (ForeignEvent PlainEntry) :=
  [.edit (.upsert ⟨[1]⟩),
    .startCommit ⟨0, 0⟩ [] [.served, .served, .served, .served, .refused], .finishCommit,
    .startRead "mail" 24, .read 0, .read 1, .advance, .read 2, .advance]

/-- Two pages are committed, and a reader that accepts one page reads. -/
def twoPagesThenRead : List (ForeignEvent PlainEntry) :=
  [.edit (.upsert (longEntry 1)), .edit (.upsert (longEntry 2)), .startCommit ⟨0, 0⟩ [] [],
    .finishCommit, .startRead "mail" 1, .read 0, .read 1, .advance]

/-- One commit, then a read during which a second one lands its index. -/
def readDuringCommit : List (ForeignEvent PlainEntry) :=
  [.edit (.upsert ⟨[1]⟩), .startCommit ⟨0, 0⟩ [] [], .finishCommit,
    .startRead "mail" 24, .read 1, .edit (.upsert ⟨[2]⟩), .startCommit ⟨0, 0⟩ [] [],
    .land 3, .land 0, .read 0, .advance, .read 3, .advance]

end Runs

end VeilKnit.Mailbox
