import VeilKnit.App.Directory

/-!
# Operations on the application directory

An operation is a request that leaves a call behind: its first section changes the stored roots,
its second the published manifest. Both sections are read once and for all here: what a call
stores, which manifest it publishes in place of another, and how it can end.
-/

namespace VeilKnit.App

open Library Types

/-! ## Operations in two sections -/

inductive Request (Key : Type)
  | sync (active : List String)
  | set (appId : String) (rootDht : Key)
  | clear (appId : String)

/-- An operation that has left the first lock and waits for the second. -/
inductive Call (Key : Type)
  | sync (active : List String) (snapshot : Roots) (now : UInt64)
  | set (appId : String) (rootDht : Key) (now : UInt64)
  | clear (appId : String) (now : UInt64)

inductive Reply (Key : Type)
  | synced (changed : Bool)
  | updated (update : OwnAppRootUpdate Key)

section Calls

variable {Key : Type} (keys : RecordKeys Key)

def Request.begin (request : Request Key) (now : UInt64) (saved : Option String) :
    Fallible String (AppDirectoryManager Key) (Call Key) :=
  match request with
  | .sync active => fun d => (.ok (.sync active d.roots now), d)
  | .set appId rootDht => do
    storeAppRoot appId (keys.text rootDht) saved
    pure (.set appId rootDht now)
  | .clear appId => do
    forgetAppRoot appId saved
    pure (.clear appId now)

namespace Call

def finish (call : Call Key) (writes : Writes) :
    Fallible String (AppDirectoryManager Key) (Reply Key) :=
  match call with
  | .sync active snapshot now => do
    let changed ← syncPublicApps keys snapshot active now writes
    pure (.synced changed)
  | .set appId rootDht now => do
    let update ← setOwnAppRoot keys appId rootDht now writes
    pure (.updated update)
  | .clear appId now => do
    let update ← clearOwnAppRoot keys appId now writes
    pure (.updated update)

def now : Call Key → UInt64
  | .sync _ _ now | .set _ _ now | .clear _ now => now

/-- The application whose root is set or cleared. -/
def app? : Call Key → Option String
  | .sync .. => none
  | .set appId .. | .clear appId _ => some appId

/-- The applications in use, if the call says which. -/
def active? : Call Key → Option (List String)
  | .sync active .. => some active
  | _ => none

/-- The applications whose roots the call decides by its own data. -/
def Concerns (appId : String) : Call Key → Prop
  | .sync active .. => appId ∈ active
  | .set appId' .. | .clear appId' _ => appId = appId'

/-- The root that the call has for an application that it concerns. -/
def root? (appId : String) : Call Key → Option String
  | .sync _ snapshot _ => snapshot.lookup appId
  | .set _ rootDht _ => some (keys.text rootDht)
  | .clear .. => none

/-- The published root of an application after the call, from the one before it. -/
def rootAfter (call : Call Key) (before : Option String) (appId : String) : Option String :=
  match call with
  | .sync active snapshot _ => if appId ∈ active then snapshot.lookup appId else none
  | .set appId' rootDht _ => if appId = appId' then some (keys.text rootDht) else before
  | .clear appId' _ => if appId = appId' then none else before

/-- The call finds that the published manifest is not as it wants it. -/
def Changes (manifest : AppDirectoryManifest) : Call Key → Prop
  | .sync active snapshot now => desiredEntries snapshot active manifest now ≠ manifest.entries
  | .set appId rootDht _ => manifest.rootOf appId ≠ some (keys.text rootDht)
  | .clear appId _ => manifest.rootOf appId ≠ none

instance (manifest : AppDirectoryManifest) (call : Call Key) :
    Decidable (call.Changes keys manifest) :=
  match call with
  | .sync active snapshot now =>
    inferInstanceAs (Decidable (desiredEntries snapshot active manifest now ≠ manifest.entries))
  | .set appId rootDht _ =>
    inferInstanceAs (Decidable (manifest.rootOf appId ≠ some (keys.text rootDht)))
  | .clear appId _ => inferInstanceAs (Decidable (manifest.rootOf appId ≠ none))

variable {call : Call Key} {appId : String}

theorem rootAfter_of_concerns (h : call.Concerns appId)
    (before : Option String) : call.rootAfter keys before appId = call.root? keys appId := by
  cases call with
  | sync active snapshot now => exact if_pos h
  | set appId' rootDht now => exact if_pos h
  | clear appId' now => exact if_pos h

theorem concerns_of_app? (h : call.app? = some appId) :
    call.Concerns appId := by
  cases call with
  | sync active snapshot now => cases h
  | set appId' rootDht now => exact (Option.some.inj h).symm
  | clear appId' now => exact (Option.some.inj h).symm

end Call

/-! ## Entries -/

/-- Entries that a reader accepts, up to their number. -/
structure EntriesValid (entries : List AppDirectoryEntry) : Prop where
  canonical : ∀ entry ∈ entries, isCanonicalApplicationId entry.appId
  parsed : ∀ entry ∈ entries, (keys.parse entry.rootDht).isSome
  distinct : (entries.map (·.appId)).Nodup

/-- Roots as `set_own_app_root` stores them. -/
def RootsValid (roots : Roots) : Prop :=
  ∀ appId root, roots.lookup appId = some root →
    isCanonicalApplicationId appId ∧ (keys.parse root).isSome

def Call.Valid : Call Key → Prop
  | .sync _ snapshot _ => RootsValid keys snapshot
  | .set appId .. => isCanonicalApplicationId appId
  | .clear .. => True

theorem sortEntries_perm (entries : List AppDirectoryEntry) : (sortEntries entries).Perm entries :=
  List.perm_insertionSort _ _

theorem EntriesValid.of_perm {entries entries' : List AppDirectoryEntry}
    (h : EntriesValid keys entries) (hperm : entries'.Perm entries) :
    EntriesValid keys entries' where
  canonical entry hentry := h.canonical entry (hperm.mem_iff.mp hentry)
  parsed entry hentry := h.parsed entry (hperm.mem_iff.mp hentry)
  distinct := (hperm.map _).nodup_iff.mpr h.distinct

/-- The entries that a snapshot of the roots gives, before they are sorted. -/
private theorem desiredEntries_spec (snapshot : Roots) (active : List String)
    (manifest : AppDirectoryManifest) (now : UInt64) : ∃ f : (Σ _ : String, String) → UInt64,
    (desiredEntries snapshot active manifest now).Perm
      ((snapshot.retain (· ∈ active)).entries.map fun root =>
        ({ appId := root.1, rootDht := root.2, updatedAt := f root } : AppDirectoryEntry)) :=
  ⟨_, sortEntries_perm _⟩

theorem distinct_desiredEntries (snapshot : Roots) (active : List String)
    (manifest : AppDirectoryManifest) (now : UInt64) :
    ((desiredEntries snapshot active manifest now).map (·.appId)).Nodup := by
  obtain ⟨f, hperm⟩ := desiredEntries_spec snapshot active manifest now
  rw [(hperm.map _).nodup_iff, List.map_map]
  exact (snapshot.retain (· ∈ active)).nodupKeys

variable {manifest next : AppDirectoryManifest} {appId root text : String} {snapshot roots : Roots}
  {active : List String}

theorem mem_desiredEntries {now : UInt64} :
    (∃ entry ∈ desiredEntries snapshot active manifest now,
      entry.appId = appId ∧ entry.rootDht = root) ↔
      appId ∈ active ∧ snapshot.lookup appId = some root := by
  obtain ⟨f, hperm⟩ := desiredEntries_spec snapshot active manifest now
  rw [← AList.lookup_retain_eq_some, ← Option.mem_def, AList.mem_lookup_iff]
  constructor
  · rintro ⟨entry, hentry, rfl, rfl⟩
    obtain ⟨⟨id, text⟩, hroot, rfl⟩ := List.mem_map.mp (hperm.mem_iff.mp hentry)
    exact hroot
  · intro hroot
    exact ⟨_, hperm.mem_iff.mpr (List.mem_map_of_mem hroot), rfl, rfl⟩

theorem rootOf_eq_some (distinct : (manifest.entries.map (·.appId)).Nodup) :
    manifest.rootOf appId = some root ↔
      ∃ entry ∈ manifest.entries, entry.appId = appId ∧ entry.rootDht = root := by
  rw [AppDirectoryManifest.rootOf, Option.map_eq_some_iff]
  constructor
  · rintro ⟨entry, hfound, rfl⟩
    obtain ⟨hentry, hid⟩ := (find?_key_eq_some distinct).mp hfound
    exact ⟨entry, hentry, hid, rfl⟩
  · rintro ⟨entry, hentry, hid, rfl⟩
    exact ⟨entry, (find?_key_eq_some distinct).mpr ⟨hentry, hid⟩, rfl⟩

/-! ## What a call publishes -/

/-- The manifest that a call publishes in place of another. -/
structure Call.Next (call : Call Key) (manifest next : AppDirectoryManifest) : Prop where
  advanced : next = advance manifest next.entries call.now
  different : next.entries ≠ manifest.entries
  roots : (manifest.entries.map (·.appId)).Nodup →
    ∀ appId, next.rootOf appId = call.rootAfter keys (manifest.rootOf appId) appId
  valid : EntriesValid keys manifest.entries → call.Valid keys → EntriesValid keys next.entries

/-- A manifest that can be written. -/
structure Fits (next : AppDirectoryManifest) : Prop where
  bounded : next.entries.length ≤ 128
  short : (AppDirectoryManifest.codec.encode (normalized next)).length ≤ maxNetworkDhtValueBytes

/-- Both writes have succeeded. -/
def published (next : AppDirectoryManifest) (clock : UInt64) (d : AppDirectoryManager Key) :
    AppDirectoryManager Key :=
  { d with
    manifest := next
    directoryValue := AppDirectoryManifest.codec.encode (normalized next)
    pointerValue := AppDirectoryInfo.codec.encode
      (.new (keys.text d.directoryDht) next.generation clock) }

/-- A publication has broken off, before or after its manifest has landed. -/
structure BrokenOff (next : AppDirectoryManifest) (d d' : AppDirectoryManager Key) : Prop where
  directoryDht : d'.directoryDht = d.directoryDht
  roots : d'.roots = d.roots
  manifest : d'.manifest = d.manifest
  value : d' = d ∨ d'.directoryValue = AppDirectoryManifest.codec.encode (normalized next)

theorem BrokenOff.refl (next : AppDirectoryManifest) (d : AppDirectoryManager Key) :
    BrokenOff next d d :=
  ⟨rfl, rfl, rfl, .inl rfl⟩

variable {d d' : AppDirectoryManager Key} {result : Except String Unit}

theorem writeManifest_cases {outcome : WriteOutcome}
    (h : writeManifest next outcome d = (result, d')) :
    (result = .ok () ∧ Fits next ∧
      d' = { d with directoryValue := AppDirectoryManifest.codec.encode (normalized next) }) ∨
    ((∃ e, result = .error e) ∧ BrokenOff next d d') := by
  unfold writeManifest at h
  dsimp only at h
  split at h
  · cases h
    exact .inr ⟨⟨_, rfl⟩, .refl _ _⟩
  split at h
  · cases h
    exact .inr ⟨⟨_, rfl⟩, .refl _ _⟩
  rename_i hbounded hshort
  cases h
  cases outcome with
  | stored => exact .inl ⟨rfl, ⟨Nat.le_of_not_lt hbounded, Nat.le_of_not_lt hshort⟩, rfl⟩
  | failed error landed =>
    refine .inr ⟨⟨_, rfl⟩, ?_⟩
    cases landed with
    | true => exact ⟨rfl, rfl, rfl, .inr rfl⟩
    | false => exact .refl _ _

variable {writes : Writes}

theorem publish_cases (h : publish keys next writes d = (result, d')) :
    (result = .ok () ∧ Fits next ∧ d' = published keys next writes.clock d) ∨
    ((∃ e, result = .error e) ∧ BrokenOff next d d') := by
  unfold publish at h
  obtain ⟨written, middle, hwrite⟩ : ∃ written middle,
      writeManifest next writes.manifest d = (written, middle) := ⟨_, _, rfl⟩
  rcases writeManifest_cases hwrite with ⟨rfl, hfits, rfl⟩ | ⟨⟨e, rfl⟩, hbroken⟩
  · rw [Fallible.bind_ok hwrite] at h
    cases hpointer : writes.pointer with
    | stored =>
      have hinfo : publishAppDirectoryInfo keys next.generation WriteOutcome.stored writes.clock
          { d with directoryValue := AppDirectoryManifest.codec.encode (normalized next) } =
          (.ok (), { published keys next writes.clock d with manifest := d.manifest }) := rfl
      rw [hpointer, Fallible.bind_ok hinfo] at h
      cases h
      exact .inl ⟨rfl, hfits, rfl⟩
    | failed error landed =>
      -- The manifest has landed, whether or not the pointer has.
      obtain ⟨d'', hinfo, hbroken⟩ : ∃ d'', publishAppDirectoryInfo keys next.generation
          (.failed error landed) writes.clock
          { d with directoryValue := AppDirectoryManifest.codec.encode (normalized next) } =
            (.error ("" ++ error), d'') ∧ BrokenOff next d d'' := by
        cases landed with
        | true => exact ⟨_, rfl, rfl, rfl, rfl, .inr rfl⟩
        | false => exact ⟨_, rfl, rfl, rfl, rfl, .inr rfl⟩
      rw [hpointer, Fallible.bind_error hinfo] at h
      cases h
      exact .inr ⟨⟨_, rfl⟩, hbroken⟩
  · rw [Fallible.bind_error hwrite] at h
    cases h
    exact .inr ⟨⟨e, rfl⟩, hbroken⟩

/-! ## What a call does -/

/-- How the second section of a call ends. -/
inductive Call.Ends (call : Call Key) (clock : UInt64) (d : AppDirectoryManager Key) {α : Type} :
    Except String α → AppDirectoryManager Key → Prop
  | settled {reply : α} : ¬ call.Changes keys d.manifest → Ends call clock d (.ok reply) d
  | complete {reply : α} {next : AppDirectoryManifest} : call.Changes keys d.manifest →
      call.Next keys d.manifest next → Fits next →
      Ends call clock d (.ok reply) (published keys next clock d)
  | broken {e : String} {next : AppDirectoryManifest} {d' : AppDirectoryManager Key} :
      call.Next keys d.manifest next → BrokenOff next d d' → Ends call clock d (.error e) d'
  | rejected {e : String} : Ends call clock d (.error e) d

variable {call : Call Key}

theorem Call.Ends.of_publish
    {α : Type} {reply : α} (changes : call.Changes keys d.manifest)
    (hnext : call.Next keys d.manifest next) :
    call.Ends keys writes.clock d ((do publish keys next writes; pure reply :
      Fallible String (AppDirectoryManager Key) α) d).1
      ((do publish keys next writes; pure reply :
        Fallible String (AppDirectoryManager Key) α) d).2 := by
  obtain ⟨result, d', hpublish⟩ : ∃ result d', publish keys next writes d = (result, d') :=
    ⟨_, _, rfl⟩
  rcases publish_cases keys hpublish with ⟨rfl, hfits, rfl⟩ | ⟨⟨e, rfl⟩, hbroken⟩
  · rw [Fallible.bind_ok hpublish]
    exact .complete changes hnext hfits
  · rw [Fallible.bind_error hpublish]
    exact .broken hnext hbroken

theorem advance_next {entries : List AppDirectoryEntry} (different : entries ≠ manifest.entries)
    (roots : (manifest.entries.map (·.appId)).Nodup → ∀ appId,
      (advance manifest entries call.now).rootOf appId =
        call.rootAfter keys (manifest.rootOf appId) appId)
    (valid : EntriesValid keys manifest.entries → call.Valid keys → EntriesValid keys entries) :
    call.Next keys manifest (advance manifest entries call.now) :=
  ⟨rfl, different, roots, valid⟩

theorem rootOf_desiredEntries {now : UInt64}
    (h : next.entries = desiredEntries snapshot active manifest now) (appId : String) :
    next.rootOf appId = if appId ∈ active then snapshot.lookup appId else none := by
  ext root
  rw [rootOf_eq_some (by rw [h]; exact distinct_desiredEntries snapshot active manifest now), h,
    mem_desiredEntries]
  by_cases happ : appId ∈ active
  · simp [happ]
  · simp [happ]

theorem syncPublicApps_ends (snapshot : Roots) (active : List String) (now : UInt64)
    (writes : Writes) (d : AppDirectoryManager Key) :
    (Call.sync active snapshot now).Ends keys writes.clock d
      (syncPublicApps keys snapshot active now writes d).1
      (syncPublicApps keys snapshot active now writes d).2 := by
  unfold syncPublicApps
  dsimp only
  split
  case isTrue hsame => exact .settled (not_not_intro hsame)
  case isFalse hchanges =>
  refine .of_publish keys hchanges (advance_next keys hchanges ?_ ?_)
  · intro _ appId
    exact rootOf_desiredEntries rfl appId
  intro _ hvalid
  refine ⟨?_, ?_, distinct_desiredEntries snapshot active d.manifest now⟩
  · intro entry hentry
    have hroot := (mem_desiredEntries.mp ⟨entry, hentry, rfl, rfl⟩).2
    exact (hvalid _ _ hroot).1
  · intro entry hentry
    have hroot := (mem_desiredEntries.mp ⟨entry, hentry, rfl, rfl⟩).2
    exact (hvalid _ _ hroot).2

theorem rootOf_eq_none : manifest.rootOf appId = none ↔ appId ∉ manifest.entries.map (·.appId) := by
  rw [AppDirectoryManifest.rootOf, Option.map_eq_none_iff]
  exact find?_key_eq_none

/-- The entries with one root replaced. -/
private theorem rootOf_replaced (next : AppDirectoryManifest)
    {now : UInt64} {entry : AppDirectoryEntry}
    (found : manifest.entries.find? (fun entry => entry.appId = appId) = some entry)
    (h : next.entries = updateFirst (fun entry => entry.appId = appId)
      (fun entry => { entry with rootDht := text, updatedAt := now }) manifest.entries)
    (appId' : String) :
    next.rootOf appId' = if appId' = appId then some text else manifest.rootOf appId' := by
  have hkey (entry : AppDirectoryEntry) :
      ({ entry with rootDht := text, updatedAt := now } : AppDirectoryEntry).appId = entry.appId :=
    rfl
  rw [AppDirectoryManifest.rootOf, h, find?_key_updateFirst hkey, found]
  split
  case isTrue => rfl
  case isFalse => rfl

/-- The entries with a new one. -/
private theorem rootOf_added (entry : AppDirectoryEntry)
    (distinct : (manifest.entries.map (·.appId)).Nodup)
    (new : manifest.entries.find? (fun e => e.appId = entry.appId) = none)
    (h : next.entries = sortEntries (manifest.entries ++ [entry])) (appId : String) :
    next.rootOf appId =
      if appId = entry.appId then some entry.rootDht else manifest.rootOf appId := by
  have hnodup : ((manifest.entries ++ [entry]).map (·.appId)).Nodup := by
    rw [List.map_append, List.map_singleton, ← List.concat_eq_append]
    exact distinct.concat (find?_key_eq_none.mp new)
  have hperm := sortEntries_perm (manifest.entries ++ [entry])
  rw [AppDirectoryManifest.rootOf, h,
    find?_key_of_perm hperm ((hperm.map _).nodup_iff.mpr hnodup), List.find?_append]
  by_cases happ : appId = entry.appId
  · subst happ
    rw [new]
    simp
  · rw [if_neg happ, List.find?_cons_of_neg (by simpa using fun hsame => happ hsame.symm)]
    simp [AppDirectoryManifest.rootOf]

theorem setOwnAppRoot_ends (appId : String) (rootDht : Key) (now : UInt64) (writes : Writes)
    (d : AppDirectoryManager Key) :
    (Call.set appId rootDht now).Ends keys writes.clock d
      (setOwnAppRoot keys appId rootDht now writes d).1
      (setOwnAppRoot keys appId rootDht now writes d).2 := by
  have hparsed : (keys.parse (keys.text rootDht)).isSome := by rw [keys.parse_text]; rfl
  unfold setOwnAppRoot
  split
  case h_1 entry hfound =>
    have hroot : d.manifest.rootOf appId = some entry.rootDht := by
      rw [AppDirectoryManifest.rootOf, hfound, Option.map_some]
    split
    case isTrue hsame =>
      exact .settled (not_not_intro (by rw [hroot, hsame]))
    case isFalse hother =>
    have hchanges : (Call.set appId rootDht now).Changes keys d.manifest := by
      rw [Call.Changes, hroot]
      exact fun h => hother (Option.some.inj h)
    refine .of_publish keys hchanges (advance_next keys ?_ ?_ ?_)
    · intro hentries
      have hreplaced := rootOf_replaced d.manifest hfound hentries.symm appId
      rw [if_pos rfl, hroot] at hreplaced
      exact hother (Option.some.inj hreplaced)
    · intro _ appId'
      exact rootOf_replaced _ hfound rfl appId'
    intro hvalid _
    refine ⟨?_, ?_, ?_⟩
    · intro e he
      rcases mem_updateFirst he with he | ⟨b, hb, -, rfl⟩
      · exact hvalid.canonical e he
      · exact hvalid.canonical b hb
    · intro e he
      rcases mem_updateFirst he with he | ⟨b, hb, -, rfl⟩
      · exact hvalid.parsed e he
      · exact hparsed
    · refine Eq.mpr (congrArg List.Nodup ?_) hvalid.distinct
      exact map_updateFirst fun _ => rfl
  case h_2 hnew =>
  have hnone : d.manifest.rootOf appId = none := by
    rw [AppDirectoryManifest.rootOf, hnew, Option.map_none]
  split
  case isTrue => exact .rejected
  case isFalse =>
  have hchanges : (Call.set appId rootDht now).Changes keys d.manifest := by
    rw [Call.Changes, hnone]
    exact fun h => nomatch h
  refine .of_publish keys hchanges (advance_next keys ?_ ?_ ?_)
  · intro hentries
    have hlength := congrArg List.length hentries
    rw [(sortEntries_perm _).length_eq, List.length_append] at hlength
    simp at hlength
  · intro hdistinct appId'
    exact rootOf_added ⟨appId, keys.text rootDht, now⟩ hdistinct hnew rfl appId'
  intro hvalid hid
  refine EntriesValid.of_perm keys ⟨?_, ?_, ?_⟩ (sortEntries_perm _)
  · intro e he
    rcases List.mem_append.mp he with he | he
    · exact hvalid.canonical e he
    · obtain rfl := List.mem_singleton.mp he
      exact hid
  · intro e he
    rcases List.mem_append.mp he with he | he
    · exact hvalid.parsed e he
    · obtain rfl := List.mem_singleton.mp he
      exact hparsed
  · rw [List.map_append, List.map_singleton, ← List.concat_eq_append]
    exact hvalid.distinct.concat (find?_key_eq_none.mp hnew)

theorem clearOwnAppRoot_ends (appId : String) (now : UInt64) (writes : Writes)
    (d : AppDirectoryManager Key) :
    (Call.clear appId now : Call Key).Ends keys writes.clock d
      (clearOwnAppRoot keys appId now writes d).1
      (clearOwnAppRoot keys appId now writes d).2 := by
  have hany : (d.manifest.entries.any fun entry => entry.appId = appId) = true ↔
      appId ∈ d.manifest.entries.map (·.appId) := by
    rw [List.any_eq_true, List.mem_map]
    simp only [decide_eq_true_eq]
  unfold clearOwnAppRoot
  split
  case isTrue habsent =>
    have hnone : d.manifest.rootOf appId = none := by
      rw [rootOf_eq_none, ← hany]
      simpa using habsent
    exact .settled (not_not_intro hnone)
  case isFalse hpresent =>
  have hmem : appId ∈ d.manifest.entries.map (·.appId) := by
    rw [← hany]
    simpa using hpresent
  have hchanges : (Call.clear appId now : Call Key).Changes keys d.manifest :=
    fun hnone => rootOf_eq_none.mp hnone hmem
  refine .of_publish keys hchanges (advance_next keys ?_ ?_ ?_)
  · intro hentries
    obtain ⟨entry, hentry, hid⟩ := List.mem_map.mp hmem
    rw [← hentries] at hentry
    exact of_decide_eq_true (List.mem_filter.mp hentry).2 hid
  · intro _ appId'
    rw [AppDirectoryManifest.rootOf, advance]
    rw [find?_key_filter_ne, Call.rootAfter]
    split
    case isTrue => rfl
    case isFalse => rfl
  · intro hvalid _
    refine ⟨fun e he => hvalid.canonical e (List.mem_of_mem_filter he),
      fun e he => hvalid.parsed e (List.mem_of_mem_filter he), ?_⟩
    exact hvalid.distinct.sublist (List.filter_sublist.map _)

theorem Call.Ends.bind_pure {clock : UInt64}
    {α β : Type} {x : Fallible String (AppDirectoryManager Key) α} {f : α → β}
    (h : call.Ends keys clock d (x d).1 (x d).2) :
    call.Ends keys clock d ((do let a ← x; pure (f a)) d).1 ((do let a ← x; pure (f a)) d).2 := by
  obtain ⟨result, d', hx⟩ : ∃ result d', x d = (result, d') := ⟨_, _, rfl⟩
  rw [hx] at h
  cases result with
  | ok a =>
    rw [Fallible.bind_ok hx]
    cases h with
    | settled hsettled => exact .settled hsettled
    | complete hchanges hnext hfits => exact .complete hchanges hnext hfits
  | error e =>
    rw [Fallible.bind_error hx]
    cases h with
    | broken hnext hbroken => exact .broken hnext hbroken
    | rejected => exact .rejected

theorem Call.finish_ends (call : Call Key) (writes : Writes) (d : AppDirectoryManager Key) :
    call.Ends keys writes.clock d (call.finish keys writes d).1 (call.finish keys writes d).2 := by
  cases call with
  | sync active snapshot now => exact (syncPublicApps_ends keys snapshot active now writes d).bind_pure
  | set appId rootDht now => exact (setOwnAppRoot_ends keys appId rootDht now writes d).bind_pure
  | clear appId now => exact (clearOwnAppRoot_ends keys appId now writes d).bind_pure

/-! ## What a request stores -/

/-- How the first section of a request ends. -/
structure Begins (d : AppDirectoryManager Key) (result : Except String (Call Key))
    (roots : Roots) : Prop where
  valid : RootsValid keys d.roots → RootsValid keys roots
  call : ∀ call, result = .ok call → RootsValid keys d.roots → call.Valid keys
  lookup : ∀ call, result = .ok call → ∀ appId, roots.lookup appId =
    if call.app? = some appId then call.root? keys appId else d.roots.lookup appId

theorem RootsValid.insert (h : RootsValid keys roots)
    (hid : isCanonicalApplicationId appId) (htext : (keys.parse text).isSome) :
    RootsValid keys (roots.insert appId text) := by
  exact AList.forall_lookup_insert ⟨hid, htext⟩ h

theorem RootsValid.erase (h : RootsValid keys roots) (appId : String) :
    RootsValid keys (roots.erase appId) := by
  exact fun appId' root hlookup => h appId' root (AList.of_lookup_erase hlookup).2

variable {saved : Option String}

theorem storeAppRoot_cases (h : storeAppRoot appId text saved d = (result, d')) :
    (∃ e, result = .error e ∧ d' = d) ∨
    (isCanonicalApplicationId appId ∧ d' = { d with roots := d.roots.insert appId text }) := by
  unfold storeAppRoot at h
  split at h
  case isTrue =>
    cases h
    exact .inl ⟨_, rfl, rfl⟩
  case isFalse hid =>
  split at h
  case isTrue =>
    cases h
    exact .inl ⟨_, rfl, rfl⟩
  case isFalse =>
    obtain ⟨-, rfl⟩ := Prod.mk.inj h
    exact .inr ⟨by simpa using hid, rfl⟩

theorem forgetAppRoot_cases (h : forgetAppRoot appId saved d = (result, d')) :
    (∃ e, result = .error e ∧ d' = d) ∨
    (d' = { d with roots := d.roots.erase appId }) ∨ (d' = d ∧ d.roots.lookup appId = none) := by
  unfold forgetAppRoot at h
  split at h
  case isTrue =>
    cases h
    exact .inl ⟨_, rfl, rfl⟩
  case isFalse =>
  split at h
  case isTrue =>
    obtain ⟨-, rfl⟩ := Prod.mk.inj h
    exact .inr (.inl rfl)
  case isFalse habsent =>
    obtain ⟨-, rfl⟩ := Prod.mk.inj h
    exact .inr (.inr ⟨rfl, by simpa using habsent⟩)

/-- A request that is refused has no call to speak of. -/
private theorem Begins.refused {e : String}
    (valid : RootsValid keys d.roots → RootsValid keys roots) : Begins keys d (.error e) roots :=
  ⟨valid, fun _ h => (by cases h), fun _ h => (by cases h)⟩

variable {result : Except String (Call Key)}

theorem begin_set {rootDht : Key} {now : UInt64}
    (h : (Request.set appId rootDht).begin keys now saved d = (result, d')) :
    ∃ roots, d' = { d with roots := roots } ∧ Begins keys d result roots := by
  obtain ⟨stored, d₁, hstore⟩ : ∃ stored d₁,
      storeAppRoot appId (keys.text rootDht) saved d = (stored, d₁) := ⟨_, _, rfl⟩
  rcases storeAppRoot_cases hstore with ⟨e, rfl, rfl⟩ | ⟨hcanonical, rfl⟩
  · rw [Request.begin, Fallible.bind_error hstore] at h
    cases h
    exact ⟨_, rfl, .refused keys id⟩
  have hvalid (hroots : RootsValid keys d.roots) := hroots.insert keys hcanonical
      (Option.isSome_iff_exists.mpr ⟨rootDht, keys.parse_text rootDht⟩)
  cases stored with
  | error e =>
    rw [Request.begin, Fallible.bind_error hstore] at h
    cases h
    exact ⟨_, rfl, .refused keys hvalid⟩
  | ok =>
    rw [Request.begin, Fallible.bind_ok hstore] at h
    cases h
    refine ⟨_, rfl, hvalid, ?_, ?_⟩
    · rintro call hcall -
      cases hcall
      exact hcanonical
    rintro call hcall appId'
    cases hcall
    by_cases happ : appId = appId'
    · subst happ
      exact (AList.lookup_insert d.roots).trans (if_pos rfl).symm
    · rw [AList.lookup_insert_ne fun h => happ h.symm]
      exact (if_neg fun h => happ (Option.some.inj h)).symm

/-- What a clear leaves, however it has come about. -/
private theorem Begins.cleared {now : UInt64}
    (valid : RootsValid keys d.roots → RootsValid keys roots) (gone : roots.lookup appId = none)
    (others : ∀ appId' ≠ appId, roots.lookup appId' = d.roots.lookup appId') :
    Begins keys d (.ok (.clear appId now)) roots := by
  refine ⟨valid, ?_, ?_⟩
  · rintro call hcall -
    cases hcall
    trivial
  rintro call hcall appId'
  cases hcall
  by_cases happ : appId = appId'
  · subst happ
    exact gone.trans (if_pos rfl).symm
  · rw [others appId' fun h => happ h.symm]
    exact (if_neg fun h => happ (Option.some.inj h)).symm

theorem begin_clear {now : UInt64}
    (h : (Request.clear appId).begin keys now saved d = (result, d')) :
    ∃ roots, d' = { d with roots := roots } ∧ Begins keys d result roots := by
  obtain ⟨forgotten, d₁, hforget⟩ : ∃ forgotten d₁,
      forgetAppRoot appId saved d = (forgotten, d₁) := ⟨_, _, rfl⟩
  have herased (hroots : RootsValid keys d.roots) := hroots.erase keys appId
  cases forgotten with
  | error e =>
    rw [Request.begin, Fallible.bind_error hforget] at h
    cases h
    rcases forgetAppRoot_cases hforget with ⟨-, -, rfl⟩ | rfl | ⟨rfl, -⟩
    · exact ⟨_, rfl, .refused keys id⟩
    · exact ⟨_, rfl, .refused keys herased⟩
    · exact ⟨_, rfl, .refused keys id⟩
  | ok =>
    rw [Request.begin, Fallible.bind_ok hforget] at h
    cases h
    rcases forgetAppRoot_cases hforget with ⟨e, herror, -⟩ | rfl | ⟨rfl, habsent⟩
    · cases herror
    · exact ⟨_, rfl, .cleared keys herased (AList.lookup_erase appId d.roots)
        fun _ hne => AList.lookup_erase_ne hne⟩
    · exact ⟨_, rfl, .cleared keys id habsent fun _ _ => rfl⟩

theorem Request.begin_spec {request : Request Key} {now : UInt64}
    (h : request.begin keys now saved d = (result, d')) :
    ∃ roots, d' = { d with roots := roots } ∧ Begins keys d result roots := by
  cases request with
  | sync active =>
    cases h
    refine ⟨_, rfl, id, ?_, ?_⟩
    · rintro call hcall hvalid
      cases hcall
      exact hvalid
    · rintro call hcall appId
      cases hcall
      exact (if_neg fun h => by cases h).symm
  | set appId rootDht => exact begin_set keys h
  | clear appId => exact begin_clear keys h

end Calls

end VeilKnit.App
