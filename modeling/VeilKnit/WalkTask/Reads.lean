import VeilKnit.WalkTask.Plans

/-!
# What reads of a record table give

A manifest that is accepted is valid and lies in one of the two slots, and its pages are accepted
when each one is there and is as its descriptor says. What a reader makes of another node's record
comes from one manifest, whatever the network has answered.
-/

namespace VeilKnit.WalkTask

open Library Types

section Reads

variable {Key : Type} (fmt : TableFormat Key)

theorem isOk_iff {E A : Type} {result : Except E A} : result.isOk ↔ ∃ a, result = .ok a := by
  cases result with
  | ok a => exact ⟨fun _ => ⟨a, rfl⟩, fun _ => rfl⟩
  | error e => exact ⟨fun h => (by cases h), fun ⟨_, h⟩ => (by cases h)⟩

/-! ## Pages -/

/-- The page of a descriptor, as it is read and accepted. -/
structure PageRead (values : Values) (descriptor : RecordTablePageDescriptor)
    (page : RecordTablePage Key) : Prop where
  read : ∃ bytes, values descriptor.subkey = some bytes ∧
    bytes.length = descriptor.serializedSize.toNat ∧ decodePage fmt bytes = .ok page
  valid : validateRecordTablePage fmt page descriptor = .ok ()

variable {values : Values}

theorem pageRead_of_describes {descriptor : RecordTablePageDescriptor}
    {page : RecordTablePage Key} (h : Describes fmt page descriptor)
    (hsize : descriptor.serializedSize.toNat ≤ recordTableMaxPageBytes)
    (hvalue : values descriptor.subkey = some (page.serialize fmt)) :
    PageRead fmt values descriptor page :=
  ⟨⟨_, hvalue, h.size, decodePage_serialize fmt (h.size.trans_le hsize)⟩, h.valid⟩

variable {descriptors : List RecordTablePageDescriptor}

/-- All the pages that are asked for are there. -/
theorem checkLoadedPages_ok_iff {count loaded : Nat} :
    checkLoadedPages fmt values true descriptors count = .ok loaded ↔
      (∀ descriptor ∈ descriptors, ∃ page, PageRead fmt values descriptor page) ∧
        loaded = count + descriptors.length := by
  induction descriptors generalizing count with
  | nil =>
    simp only [checkLoadedPages, Except.ok.injEq, List.not_mem_nil, false_implies, implies_true,
      true_and, List.length_nil, Nat.add_zero]
    exact eq_comm
  | cons descriptor descriptors ih =>
    rw [List.forall_mem_cons, List.length_cons, ← Nat.add_assoc, Nat.add_right_comm, and_assoc,
      ← ih, checkLoadedPages]
    constructor
    · intro h
      split at h
      case h_1 => cases h
      case h_2 bytes hvalue =>
      split at h
      case isTrue => cases h
      case isFalse hlength =>
      cases hdecode : decodePage fmt bytes with
      | error e =>
        rw [hdecode] at h
        cases h
      | ok page =>
        rw [hdecode] at h
        cases hvalid : validateRecordTablePage fmt page descriptor with
        | error e =>
          simp only [bind, Except.bind, hvalid] at h
          cases h
        | ok u =>
          simp only [bind, Except.bind, hvalid] at h
          exact ⟨⟨page, ⟨bytes, hvalue, not_not.mp hlength, hdecode⟩, hvalid⟩, h⟩
    rintro ⟨⟨page, ⟨bytes, hvalue, hlength, hdecode⟩, hvalid⟩, h⟩
    rw [hvalue]
    dsimp only
    rw [if_neg (not_not_intro hlength), hdecode]
    simp only [bind, Except.bind, hvalid]
    exact h

theorem validateLoadedRecordTablePages_ok_iff :
    validateLoadedRecordTablePages fmt values descriptors true = .ok () ↔
      ∀ descriptor ∈ descriptors, ∃ page, PageRead fmt values descriptor page := by
  unfold validateLoadedRecordTablePages
  cases hchecked : checkLoadedPages fmt values true descriptors 0 with
  | error e =>
    refine ⟨fun h => (by cases h), fun h => ?_⟩
    have hok : checkLoadedPages fmt values true descriptors 0 = .ok (0 + descriptors.length) :=
      (checkLoadedPages_ok_iff fmt).mpr ⟨h, rfl⟩
    rw [hchecked] at hok
    cases hok
  | ok loaded =>
    obtain ⟨hall, hloaded⟩ := (checkLoadedPages_ok_iff fmt).mp hchecked
    refine ⟨fun _ => hall, fun _ => ?_⟩
    simp only [bind, Except.bind]
    rw [if_neg]
    · rfl
    · rintro ⟨hsome, hnone⟩
      rw [hnone, Nat.zero_add] at hloaded
      exact hsome (List.isEmpty_iff_length_eq_zero.mpr hloaded.symm)

/-! ## Manifests -/

/-- The valid manifest of a slot. -/
def slotManifest (values : Values) (slot : Subkey) : Option RecordTableManifest :=
  (values slot).bind fun bytes => (decodeManifest bytes).toOption.filter fun manifest =>
    (validateRecordTableManifest fmt manifest).isOk

variable {slot subkey : Subkey} {manifest : RecordTableManifest}

theorem slotManifest_eq_some : slotManifest fmt values slot = some manifest ↔
      ∃ bytes, values slot = some bytes ∧ decodeManifest bytes = .ok manifest ∧
        ManifestValid fmt manifest := by
  unfold slotManifest
  rw [Option.bind_eq_some_iff]
  refine exists_congr fun bytes => and_congr_right fun _ => ?_
  rw [Option.filter_eq_some_iff, ← validateRecordTableManifest_ok_iff]
  refine and_congr ?_ ?_
  · cases decodeManifest bytes with
    | error e => exact ⟨fun h => (by cases h), fun h => (by cases h)⟩
    | ok m => simp [Except.toOption]
  · rw [isOk_iff]
    exact ⟨fun ⟨_, h⟩ => h, fun h => ⟨(), h⟩⟩

theorem validRecordTableManifests_eq (values : Values) : validRecordTableManifests fmt values =
      ([recordTableManifestSlotA, recordTableManifestSlotB].filterMap fun slot =>
        (slotManifest fmt values slot).map fun manifest => (slot, manifest)).insertionSort
          fun left right => right.2.generation ≤ left.2.generation := by
  refine congrArg _ (List.filterMap_congr fun slot _ => ?_)
  unfold slotManifest
  cases hvalue : values slot with
  | none => simp
  | some bytes =>
    cases hdecode : decodeManifest bytes with
    | error e => simp [hdecode, Except.toOption]
    | ok manifest =>
      simp only [Option.bind_eq_bind, Option.bind_some, hdecode, Except.toOption,
        Option.filter_some]
      split <;> rfl

theorem mem_validRecordTableManifests : (slot, manifest) ∈ validRecordTableManifests fmt values ↔
      (slot = recordTableManifestSlotA ∨ slot = recordTableManifestSlotB) ∧
        slotManifest fmt values slot = some manifest := by
  rw [validRecordTableManifests_eq, List.mem_insertionSort, List.mem_filterMap]
  constructor
  · rintro ⟨k, hk, hsome⟩
    obtain ⟨m, hm, heq⟩ := Option.map_eq_some_iff.mp hsome
    cases heq
    exact ⟨by simpa using hk, hm⟩
  · rintro ⟨hslot, hm⟩
    exact ⟨slot, by simpa using hslot, by rw [hm, Option.map_some]⟩

/-! ## The table of another node -/

variable {entry : RecordTableEntry Key}

theorem foldl_mem {entries added : List (RecordTableEntry Key)}
    (h : entry ∈ added.foldl (fun entries entry =>
      if (entries.map fun e => fmt.keys.text e.theirAddress).contains
          (fmt.keys.text entry.theirAddress) then entries
      else entries ++ [entry]) entries) : entry ∈ entries ∨ entry ∈ added := by
  induction added generalizing entries with
  | nil => exact .inl h
  | cons first added ih =>
    rcases ih h with h | h
    · dsimp only at h
      split at h
      case isTrue => exact .inl h
      case isFalse =>
        rcases List.mem_append.mp h with h | h
        · exact .inl h
        · exact .inr (List.mem_singleton.mp h ▸ List.mem_cons_self)
    · exact .inr (List.mem_cons_of_mem _ h)

/-- What is collected comes from pages that have been read. -/
theorem mem_collectPages {entries entries' : List (RecordTableEntry Key)} {loaded loaded' : Nat}
    (h : collectPages fmt values descriptors entries loaded = some (entries', loaded'))
    (hentry : entry ∈ entries') :
    entry ∈ entries ∨ ∃ descriptor ∈ descriptors, ∃ page, PageRead fmt values descriptor page ∧
      entry ∈ page.entries := by
  induction descriptors generalizing entries loaded with
  | nil =>
    obtain ⟨rfl, -⟩ := Prod.mk.inj (Option.some.inj h)
    exact .inl hentry
  | cons descriptor descriptors ih =>
    rw [collectPages] at h
    split at h
    case h_1 =>
      exact (ih h).imp_right fun ⟨d, hd, hpage⟩ => ⟨d, List.mem_cons_of_mem _ hd, hpage⟩
    case h_2 bytes hvalue =>
    split at h
    case isTrue => cases h
    case isFalse hlength =>
    split at h
    case h_1 => cases h
    case h_2 page hdecode =>
    obtain ⟨hvalid, h⟩ := Option.ite_none_right_eq_some.mp h
    rcases ih h with hold | ⟨d, hd, hpage⟩
    · refine (foldl_mem fmt hold).imp_right fun hnew => ?_
      obtain ⟨⟨⟩, hvalid⟩ := isOk_iff.mp hvalid
      exact ⟨descriptor, List.mem_cons_self, page,
        ⟨⟨bytes, hvalue, not_not.mp hlength, hdecode⟩, hvalid⟩, hnew⟩
    · exact .inr ⟨d, List.mem_cons_of_mem _ hd, hpage⟩

variable {manifests : List (Subkey × RecordTableManifest)}

/-- The table of a snapshot is empty or that of one manifest. -/
theorem decodeManifests_spec : decodeManifests fmt values manifests = [] ∨
      ∃ candidate ∈ manifests, ∀ entry ∈ decodeManifests fmt values manifests,
        ∃ descriptor ∈ candidate.2.pages, ∃ page, PageRead fmt values descriptor page ∧
          entry ∈ page.entries := by
  induction manifests with
  | nil => exact .inl rfl
  | cons first manifests ih =>
    obtain ⟨slot, manifest⟩ := first
    have hlater := ih.imp_right fun ⟨candidate, hcandidate, hall⟩ =>
      (⟨candidate, List.mem_cons_of_mem _ hcandidate, hall⟩ :
        ∃ candidate ∈ (slot, manifest) :: manifests, ∀ entry ∈ decodeManifests fmt values manifests,
          ∃ descriptor ∈ candidate.2.pages, ∃ page, PageRead fmt values descriptor page ∧
            entry ∈ page.entries)
    rw [decodeManifests]
    split
    case h_1 entries loaded hcollect =>
      split
      case isFalse => exact hlater
      case isTrue =>
        refine .inr ⟨_, List.mem_cons_self, fun entry hentry => ?_⟩
        exact (mem_collectPages fmt hcollect hentry).resolve_left List.not_mem_nil
    case h_2 => exact hlater

/-! ## The values of a read -/

/-- A value is one of the answers of the network, and not blank. -/
structure Answered (answers : ForeignAnswers) (subkey : Subkey) (bytes : Bytes) : Prop where
  answer : (∃ results, answers.base = .ok results ∧ results subkey = .value bytes) ∨
    ∃ slot results, answers.pages slot = .ok results ∧ results subkey = .value bytes
  written : isBlank bytes = false

variable {snapshot : DhtSnapshot} {bytes : Bytes}

theorem mergeSnapshotResults_values {locations : List Subkey} {results : Subkey → ReadResult}
    (h : (mergeSnapshotResults snapshot locations results).values subkey = some bytes) :
    snapshot.values subkey = some bytes ∨
      (subkey ∈ locations ∧ results subkey = .value bytes ∧ isBlank bytes = false) := by
  induction locations generalizing snapshot with
  | nil => exact .inl h
  | cons location locations ih =>
    rcases ih h with h | ⟨hmem, h⟩
    · dsimp only [mergeResult] at h
      by_cases hsame : subkey = location
      · subst hsame
        cases hresult : results subkey with
        | value bytes' =>
          rw [hresult] at h
          simp only [Function.update_self] at h
          split at h
          case isTrue => cases h
          case isFalse hblank =>
            cases h
            exact .inr ⟨List.mem_cons_self, rfl, by simpa using hblank⟩
        | notFound =>
          rw [hresult] at h
          simp only [Function.update_self] at h
          cases h
        | failed error =>
          rw [hresult] at h
          exact .inl h
      · refine .inl ?_
        split at h
        case h_1 => exact (Function.update_of_ne hsame ..).symm.trans h
        case h_2 => exact (Function.update_of_ne hsame ..).symm.trans h
        case h_3 => exact h
    · exact .inr ⟨List.mem_cons_of_mem _ hmem, h⟩

theorem retainSelectedManifest_values
    (h : (retainSelectedManifest snapshot slot).values subkey = some bytes) :
    snapshot.values subkey = some bytes := by
  unfold retainSelectedManifest at h
  dsimp only at h
  split at h
  case isTrue => cases h
  case isFalse => exact h

variable {answers : ForeignAnswers}

theorem tryManifests_values {r : Reader Key}
    (h : (tryManifests fmt r answers snapshot manifests).values subkey = some bytes) :
    snapshot.values subkey = some bytes ∨ Answered answers subkey bytes := by
  induction manifests generalizing snapshot with
  | nil => exact .inl h
  | cons first manifests ih =>
    obtain ⟨slot, manifest⟩ := first
    rw [tryManifests] at h
    split at h
    case isTrue => exact .inl (retainSelectedManifest_values h)
    case isFalse =>
    dsimp only at h
    split at h
    case isTrue => exact .inl (retainSelectedManifest_values h)
    case isFalse =>
    split at h
    case h_1 =>
      have hlater := ih h
      exact hlater
    case h_2 results hresults =>
    split at h
    case h_1 =>
      refine (mergeSnapshotResults_values (retainSelectedManifest_values h)).imp_right ?_
      rintro ⟨-, hvalue, hblank⟩
      exact ⟨.inr ⟨slot, results, hresults, hvalue⟩, hblank⟩
    case h_2 =>
      have hlater := ih h
      exact hlater

theorem readForeign_values {r : Reader Key}
    (h : (readForeign fmt r answers).values subkey = some bytes) :
    Answered answers subkey bytes := by
  unfold readForeign at h
  split at h
  case h_1 => cases h
  case h_2 results hresults =>
    rcases tryManifests_values fmt h with h | h
    · rcases mergeSnapshotResults_values h with h | ⟨-, hvalue, hblank⟩
      · cases h
      · exact ⟨.inl ⟨results, hresults, hvalue⟩, hblank⟩
    · exact h

/-! ## Selected pages -/

/-- A fold that only adds pages of a list ends with pages of it. -/
theorem foldl_subset {α β : Type} {bs : List β} {g : List β → α → List β}
    (hg : ∀ selected a, selected ⊆ bs → g selected a ⊆ bs) (as : List α) {selected : List β}
    (hselected : selected ⊆ bs) : as.foldl g selected ⊆ bs := by
  induction as generalizing selected with
  | nil => exact hselected
  | cons a as ih => exact ih (hg selected a hselected)

theorem pickQuarters_subset (byBucket : List RecordTablePageDescriptor) (epoch : UInt64) :
    pickQuarters byBucket epoch ⊆ byBucket := by
  refine foldl_subset (fun selected quarter hselected => ?_) _ (List.nil_subset _)
  dsimp only
  split
  case h_1 => exact hselected
  case h_2 page hpage =>
    split
    case isTrue => exact hselected
    case isFalse =>
      exact List.append_subset.mpr ⟨hselected,
        List.cons_subset.mpr ⟨List.mem_of_getElem? hpage, List.nil_subset _⟩⟩

theorem fillRanked_subset {pages selected ranked : List RecordTablePageDescriptor}
    (hselected : selected ⊆ pages) (hranked : ranked ⊆ pages) :
    fillRanked selected ranked ⊆ pages := by
  induction ranked generalizing selected with
  | nil => exact hselected
  | cons page ranked ih =>
    obtain ⟨hpage, hranked⟩ := List.cons_subset.mp hranked
    rw [fillRanked]
    split
    case isTrue => exact hselected
    case isFalse =>
      split
      case isTrue => exact ih hselected hranked
      case isFalse =>
        have hpage : [page] ⊆ pages := List.cons_subset.mpr ⟨hpage, List.nil_subset _⟩
        exact ih (List.append_subset.mpr ⟨hselected, hpage⟩) hranked

/-- A reader selects pages of the manifest. -/
theorem selectRecordTablePages_subset (reader publisher : Key) (manifest : RecordTableManifest)
    (appFingerprint : Option UInt64) (now : UInt64) :
    selectRecordTablePages fmt reader publisher manifest appFingerprint now ⊆ manifest.pages := by
  unfold selectRecordTablePages
  dsimp only
  have heligible (p : RecordTablePageDescriptor → Bool) :
      manifest.pages.filter p ⊆ manifest.pages := List.filter_subset_self _
  split_ifs
  case pos => exact heligible _
  case neg =>
    refine List.Subset.trans (List.perm_insertionSort _ _).subset (fillRanked_subset ?_ ?_)
    · exact List.Subset.trans (pickQuarters_subset _ _)
        (List.Subset.trans (List.perm_insertionSort _ _).subset (heligible _))
    · exact List.Subset.trans (List.perm_insertionSort _ _).subset (heligible _)

end Reads

end VeilKnit.WalkTask
