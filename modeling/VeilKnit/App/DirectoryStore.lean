import VeilKnit.App.DirectoryRuns

/-!
# The stored roots

The roots of the applications are kept in the user's encrypted store, apart from the manifest that
is published. A root is taken over into the memory and the store before its manifest is known to be
short enough and before the network has taken it, and an error afterwards takes nothing back. The
root then waits for a synchronization, which can only succeed by publishing it.
-/

namespace VeilKnit.App

open Library Types

/-- The manager, with the roots in the user's store. -/
structure StoredDirectory (Key : Type) where
  manager : AppDirectoryManager Key
  stored : Roots

section Store

variable {Key : Type} (keys : RecordKeys Key)

namespace StoredDirectory

/-- Both sections of `set_own_app_root`. `saved` is the error of the write to the user's store,
which then is as it was. -/
def setOwnAppRoot (appId : String) (rootDht : Key) (saved : Option String) (now : UInt64)
    (writes : Writes) : Fallible String (StoredDirectory Key) (OwnAppRootUpdate Key) := fun s =>
  match storeAppRoot appId (keys.text rootDht) saved s.manager with
  | (.error e, manager) => (.error e, { s with manager := manager })
  | (.ok (), manager) =>
    let (result, published) := App.setOwnAppRoot keys appId rootDht now writes manager
    (result, { manager := published, stored := manager.roots })

end StoredDirectory

/-- Two maps hold the same roots. -/
def SameRoots (left right : Roots) : Prop := ∀ appId, left.lookup appId = right.lookup appId

theorem SameRoots.refl (roots : Roots) : SameRoots roots roots := fun _ => rfl

theorem sameRoots_insert_iff {roots : Roots} {appId text : String} :
    SameRoots (roots.insert appId text) roots ↔ roots.lookup appId = some text := by
  constructor
  · intro h
    rw [← h appId, AList.lookup_insert]
  · intro h other
    by_cases happ : other = appId
    · subst happ
      rw [AList.lookup_insert, h]
    · exact AList.lookup_insert_ne happ

/-! ## When a root can be set -/

/-- The request is refused before anything is stored. -/
def Refused (d : AppDirectoryManager Key) (appId : String) : Prop :=
  isCanonicalApplicationId appId = false ∨
    appDirectoryMaxEntries ≤ d.roots.entries.length ∧ d.roots.lookup appId = none

/-- The root is stored already, and the store is as the memory or cannot be written. -/
def AlreadyStored (s : StoredDirectory Key) (appId text : String) (saved : Option String) : Prop :=
  s.manager.roots.lookup appId = some text ∧ (saved = none → SameRoots s.stored s.manager.roots)

/-- Entries with the root of an application. -/
def entriesWith (entries : List AppDirectoryEntry) (appId text : String) (now : UInt64) :
    List AppDirectoryEntry :=
  if (entries.find? fun entry => entry.appId = appId).isSome then
    updateFirst (fun entry => entry.appId = appId)
      (fun entry => { entry with rootDht := text, updatedAt := now }) entries
  else sortEntries (entries ++ [⟨appId, text, now⟩])

/-- The number of bytes of a manifest with these entries. -/
def manifestSize (entries : List AppDirectoryEntry) : Nat :=
  18 + (AppDirectoryEntry.codec.list.encode entries).length

/-- The root is published already, or its manifest is short enough and both writes succeed. -/
def Publishable (manifest : AppDirectoryManifest) (appId text : String) (now : UInt64)
    (writes : Writes) : Prop :=
  manifest.rootOf appId = some text ∨
    (entriesWith manifest.entries appId text now).length ≤ appDirectoryMaxEntries ∧
      manifestSize (entriesWith manifest.entries appId text now) ≤ maxNetworkDhtValueBytes ∧
      writes.manifest = .stored ∧ writes.pointer = .stored

theorem encode_length (manifest : AppDirectoryManifest) :
    (AppDirectoryManifest.codec.encode manifest).length = manifestSize manifest.entries := by
  have hversion (n : UInt16) : (Codec.u16.encode n).length = 2 := Codec.u16_hasLength n
  have htime (n : UInt64) : (Codec.u64.encode n).length = 8 := Codec.u64_hasLength n
  simp only [AppDirectoryManifest.codec, Codec.imap, Codec.pair, List.length_append, hversion,
    htime, manifestSize]
  omega

variable {next : AppDirectoryManifest} {d : AppDirectoryManager Key}

theorem writeManifest_ok_iff {outcome : WriteOutcome} : (writeManifest next outcome d).1 = .ok () ↔
      next.entries.length ≤ appDirectoryMaxEntries ∧
        manifestSize next.entries ≤ maxNetworkDhtValueBytes ∧ outcome = .stored := by
  unfold writeManifest
  dsimp only
  rw [encode_length]
  by_cases hmany : next.entries.length > appDirectoryMaxEntries
  · rw [if_pos hmany]
    exact ⟨fun h => (by cases h), fun h => absurd h.1 (not_le.mpr hmany)⟩
  by_cases hlong : manifestSize next.entries > maxNetworkDhtValueBytes
  · rw [if_neg hmany, if_pos (by exact hlong)]
    exact ⟨fun h => (by cases h), fun h => absurd h.2.1 (not_le.mpr hlong)⟩
  rw [if_neg hmany, if_neg (by exact hlong)]
  cases outcome with
  | stored => exact ⟨fun _ => ⟨not_lt.mp hmany, not_lt.mp hlong, rfl⟩, fun _ => rfl⟩
  | failed error landed => exact ⟨fun h => (by cases h), fun h => (by cases h.2.2)⟩

variable {writes : Writes}

theorem publish_ok_iff : (publish keys next writes d).1 = .ok () ↔
      next.entries.length ≤ appDirectoryMaxEntries ∧
        manifestSize next.entries ≤ maxNetworkDhtValueBytes ∧ writes.manifest = .stored ∧
        writes.pointer = .stored := by
  unfold publish
  obtain ⟨written, middle, hwrite⟩ : ∃ written middle,
      writeManifest next writes.manifest d = (written, middle) := ⟨_, _, rfl⟩
  have hok := @writeManifest_ok_iff _ next d writes.manifest
  rw [hwrite] at hok
  cases written with
  | error e =>
    rw [Fallible.bind_error hwrite]
    constructor
    · intro h
      cases h
    · intro h
      cases hok.mpr ⟨h.1, h.2.1, h.2.2.1⟩
  | ok done =>
    obtain ⟨hfew, hshort, hstored⟩ := hok.mp rfl
    rw [Fallible.bind_ok hwrite]
    cases hpointer : writes.pointer with
    | stored => exact ⟨fun _ => ⟨hfew, hshort, hstored, rfl⟩, fun _ => rfl⟩
    | failed error landed =>
      constructor
      · intro h
        cases h
      · intro h
        cases h.2.2.2

variable {now : UInt64}

/-- What the second section answers. -/
theorem setOwnAppRoot_error_iff {appId : String} {rootDht : Key} :
    (∃ e, (setOwnAppRoot keys appId rootDht now writes d).1 = .error e) ↔
      ¬ Publishable d.manifest appId (keys.text rootDht) now writes := by
  have hpublish : ∀ (next : AppDirectoryManifest) (update : OwnAppRootUpdate Key),
      (∃ e, (((do publish keys next writes; pure update) :
        Fallible String (AppDirectoryManager Key) (OwnAppRootUpdate Key)) d).1 = .error e) ↔
      ¬ (next.entries.length ≤ appDirectoryMaxEntries ∧
        manifestSize next.entries ≤ maxNetworkDhtValueBytes ∧ writes.manifest = .stored ∧
        writes.pointer = .stored) := by
    intro next update
    rw [← publish_ok_iff keys (d := d)]
    obtain ⟨result, d', hresult⟩ : ∃ result d', publish keys next writes d = (result, d') :=
      ⟨_, _, rfl⟩
    rw [hresult]
    cases result with
    | ok done =>
      rw [Fallible.bind_ok hresult]
      exact ⟨fun ⟨_, h⟩ => (by cases h), fun h => absurd rfl h⟩
    | error e =>
      rw [Fallible.bind_error hresult]
      exact ⟨fun _ h => (by cases h), fun _ => ⟨e, rfl⟩⟩
  unfold setOwnAppRoot Publishable AppDirectoryManifest.rootOf entriesWith
  split
  case h_1 entry hfound =>
    rw [hfound, if_pos Option.isSome_some, Option.map_some, Option.some_inj]
    split_ifs with hsame
    · exact ⟨fun ⟨_, h⟩ => (by cases h), fun h => absurd (.inl hsame) h⟩
    · rw [hpublish]
      simp only [hsame, false_or, advance]
  case h_2 hnew =>
  rw [hnew, Option.map_none]
  simp only [Option.isSome_none, Bool.false_eq_true, if_false]
  have hlength : (sortEntries (d.manifest.entries ++ [⟨appId, keys.text rootDht, now⟩])).length =
      d.manifest.entries.length + 1 := by
    rw [(sortEntries_perm _).length_eq, List.length_append, List.length_singleton]
  split_ifs with hfull
  · have hmany : ¬ d.manifest.entries.length + 1 ≤ appDirectoryMaxEntries := by omega
    simp [hlength, hmany]
  · rw [hpublish]
    simp only [false_or, advance]

theorem roots_setOwnAppRoot (appId : String) (rootDht : Key) (now : UInt64) (writes : Writes)
    (d : AppDirectoryManager Key) :
    (setOwnAppRoot keys appId rootDht now writes d).2.roots = d.roots := by
  have hends := setOwnAppRoot_ends keys appId rootDht now writes d
  generalize (setOwnAppRoot keys appId rootDht now writes d).1 = result at hends
  generalize (setOwnAppRoot keys appId rootDht now writes d).2 = d' at hends
  cases hends with
  | settled => rfl
  | complete => rfl
  | broken _ hbroken => exact hbroken.roots
  | rejected => rfl

/-- A synchronization that succeeds has published the roots of its snapshot. -/
theorem rootOf_syncPublicApps {snapshot : Roots} {active : List String} {changed : Bool}
    (h : (syncPublicApps keys snapshot active now writes d).1 = .ok changed) (appId : String) :
    (syncPublicApps keys snapshot active now writes d).2.manifest.rootOf appId =
      if appId ∈ active then snapshot.lookup appId else none := by
  unfold syncPublicApps at h ⊢
  dsimp only at h ⊢
  by_cases hsame : desiredEntries snapshot active d.manifest now = d.manifest.entries
  · rw [if_pos hsame]
    exact rootOf_desiredEntries hsame.symm appId
  rw [if_neg hsame] at h ⊢
  obtain ⟨result, d', hresult⟩ : ∃ result d', publish keys (advance d.manifest
      (desiredEntries snapshot active d.manifest now) now) writes d = (result, d') := ⟨_, _, rfl⟩
  rcases publish_cases keys hresult with ⟨rfl, -, rfl⟩ | ⟨⟨e, rfl⟩, -⟩
  · rw [Fallible.bind_ok hresult]
    exact rootOf_desiredEntries rfl appId
  · rw [Fallible.bind_error hresult] at h
    cases h

/-! ## What an error leaves behind -/

namespace StoredDirectory

variable {keys} {s : StoredDirectory Key} {appId : String} {rootDht : Key} {saved : Option String}
  {now : UInt64} {writes : Writes}

/-- How a root is set: refused, taken over into the memory only, or into the store as well. -/
theorem setOwnAppRoot_cases :
    (Refused s.manager appId ∧ ∃ e, s.setOwnAppRoot keys appId rootDht saved now writes =
      (.error e, s)) ∨
    ¬ Refused s.manager appId ∧
      (s.setOwnAppRoot keys appId rootDht saved now writes).2.manager.roots =
        s.manager.roots.insert appId (keys.text rootDht) ∧
      ((∃ e, saved = some e ∧ (s.setOwnAppRoot keys appId rootDht saved now writes).1 = .error e ∧
        (s.setOwnAppRoot keys appId rootDht saved now writes).2.stored = s.stored) ∨
      saved = none ∧ (s.setOwnAppRoot keys appId rootDht saved now writes).2.stored =
          s.manager.roots.insert appId (keys.text rootDht) ∧
        ((∃ e, (s.setOwnAppRoot keys appId rootDht saved now writes).1 = .error e) ↔
          ¬ Publishable s.manager.manifest appId (keys.text rootDht) now writes)) := by
  have hrefused : Refused s.manager appId ↔ (! isCanonicalApplicationId appId) = true ∨
      (s.manager.roots.entries.length ≥ appDirectoryMaxEntries ∧
        (s.manager.roots.lookup appId).isNone) := by
    simp [Refused]
  unfold setOwnAppRoot storeAppRoot
  rw [hrefused]
  by_cases hcanonical : (! isCanonicalApplicationId appId) = true
  · rw [if_pos hcanonical]
    exact .inl ⟨.inl hcanonical, _, rfl⟩
  by_cases hfull : s.manager.roots.entries.length ≥ appDirectoryMaxEntries ∧
      (s.manager.roots.lookup appId).isNone
  · rw [if_neg hcanonical, if_pos hfull]
    exact .inl ⟨.inr hfull, _, rfl⟩
  rw [if_neg hcanonical, if_neg hfull]
  refine .inr ⟨not_or.mpr ⟨hcanonical, hfull⟩, ?_⟩
  cases saved with
  | some error => exact ⟨rfl, .inl ⟨error, rfl, rfl, rfl⟩⟩
  | none =>
    exact ⟨roots_setOwnAppRoot keys .., .inr ⟨rfl, rfl, setOwnAppRoot_error_iff keys⟩⟩

end StoredDirectory

/-- An error leaves the roots as they were, in the memory and in the store, exactly if the request
is refused first, or the root is stored already, or there is no error. Otherwise the root stays, and
a synchronization of its application can only succeed by publishing it. -/
theorem error_keeps_roots_iff (s : StoredDirectory Key) (appId : String) (rootDht : Key)
    (saved : Option String) (now : UInt64) (writes : Writes) :
    (((∃ e, (s.setOwnAppRoot keys appId rootDht saved now writes).1 = .error e) →
        SameRoots (s.setOwnAppRoot keys appId rootDht saved now writes).2.manager.roots
          s.manager.roots ∧
        SameRoots (s.setOwnAppRoot keys appId rootDht saved now writes).2.stored s.stored) ↔
      Refused s.manager appId ∨ AlreadyStored s appId (keys.text rootDht) saved ∨
        saved = none ∧ Publishable s.manager.manifest appId (keys.text rootDht) now writes) ∧
    (¬ Refused s.manager appId → ∀ active, appId ∈ active → ∀ later outcomes changed,
      (syncPublicApps keys (s.setOwnAppRoot keys appId rootDht saved now writes).2.manager.roots
        active later outcomes
        (s.setOwnAppRoot keys appId rootDht saved now writes).2.manager).1 = .ok changed →
      (syncPublicApps keys (s.setOwnAppRoot keys appId rootDht saved now writes).2.manager.roots
        active later outcomes
        (s.setOwnAppRoot keys appId rootDht saved now writes).2.manager).2.manifest.rootOf appId =
        some (keys.text rootDht)) := by
  have hcases := @StoredDirectory.setOwnAppRoot_cases _ keys s appId rootDht saved now writes
  generalize s.setOwnAppRoot keys appId rootDht saved now writes = outcome at hcases
  obtain ⟨result, s'⟩ := outcome
  rcases hcases with ⟨hrefused, e, heq⟩ | ⟨haccepted, hroots, hstore⟩
  · cases heq
    exact ⟨⟨fun _ => .inl hrefused, fun _ _ => ⟨.refl _, .refl _⟩⟩, fun h => absurd hrefused h⟩
  constructor
  · dsimp only at hroots hstore ⊢
    rw [hroots, sameRoots_insert_iff, or_iff_right haccepted, AlreadyStored]
    rcases hstore with ⟨e, rfl, rfl, hstored⟩ | ⟨rfl, hstored, herror⟩
    · -- the store has not been written, so that only the memory can have changed
      rw [hstored]
      simp [SameRoots.refl]
    rw [hstored, herror]
    have hsame : s.manager.roots.lookup appId = some (keys.text rootDht) →
        (SameRoots (s.manager.roots.insert appId (keys.text rootDht)) s.stored ↔
          SameRoots s.stored s.manager.roots) := by
      intro hlookup
      have hinsert := sameRoots_insert_iff.mpr hlookup
      exact ⟨fun h other => (h other).symm.trans (hinsert other),
        fun h other => (hinsert other).trans (h other).symm⟩
    by_cases hlookup : s.manager.roots.lookup appId = some (keys.text rootDht)
    · simp only [hlookup, hsame hlookup, true_and, true_implies]
      tauto
    · simp only [hlookup, false_and, false_or, true_and, imp_false, not_not]
  · intro _ active hactive later outcomes changed hok
    rw [rootOf_syncPublicApps keys hok, if_pos hactive]
    dsimp only at hroots
    rw [hroots, AList.lookup_insert]

end Store

/-! ### Samples -/

namespace Sample

def newcomer : StoredDirectory Key := ⟨loaded.manager, loaded.manager.roots⟩

/-- The network does not take the manifest, or the store cannot be written. -/
theorem error_keeps_new_root :
    ((newcomer.setOwnAppRoot keys app .first none 2 ⟨.failed "TryAgain" false, .stored, 5⟩).1 =
        .error "could not write app directory: TryAgain" ∧
      (newcomer.setOwnAppRoot keys app .first none 2
        ⟨.failed "TryAgain" false, .stored, 5⟩).2.stored.lookup app = some Key.first.text ∧
      newcomer.stored.lookup app = none) ∧
    ((newcomer.setOwnAppRoot keys app .first (some "disk full") 2 fine).1 = .error "disk full" ∧
      (newcomer.setOwnAppRoot keys app .first (some "disk full") 2 fine).2.manager.roots.lookup
        app = some Key.first.text ∧
      newcomer.manager.roots.lookup app = none) := by
  decide +kernel

end Sample

end VeilKnit.App
