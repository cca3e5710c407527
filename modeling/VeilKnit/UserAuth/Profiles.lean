import VeilKnit.Library.ReadModifyWrite
import VeilKnit.Library.Text

/-!
# Network profiles

The catalogue of an account's network profiles is one encrypted file. Each operation reads the
file, edits what it has read and replaces the file, and no lock spans the two. Every catalogue that
is written names a usable profile as the active one. A profile that has been created stays, and
one that has been retired stays retired, as long as no other operation has replaced the file
between an operation's read and its write.
-/

namespace VeilKnit.UserAuth

open Library

def networkProfileCatalogVersion : UInt32 := 1
def defaultNetworkProfileId : String := "default"
def maxNetworkProfileNameBytes : Nat := 128

structure NetworkProfile where
  profileId : String
  displayName : String
  createdAt : UInt64
  retiredAt : Option UInt64
  deriving DecidableEq

def NetworkProfile.isRetired (profile : NetworkProfile) : Bool := profile.retiredAt.isSome

structure NetworkProfileCatalog where
  version : UInt32
  activeProfileId : String
  profiles : List NetworkProfile
  deriving DecidableEq

inductive AuthError
  | invalidProfileName
  | profileNotFound
  | profileRetired
  | cannotRetireActiveProfile
  | cannotRetireLastProfile
  deriving DecidableEq

/-- The profile of an account from before there were profiles. -/
def defaultProfile (now : UInt64) : NetworkProfile where
  profileId := defaultNetworkProfileId
  displayName := "Default"
  createdAt := now
  retiredAt := none

namespace NetworkProfileCatalog

def legacyDefault (now : UInt64) : NetworkProfileCatalog where
  version := networkProfileCatalogVersion
  activeProfileId := defaultNetworkProfileId
  profiles := [defaultProfile now]

/-- The first profile with an id. -/
def profile? (catalog : NetworkProfileCatalog) (profileId : String) : Option NetworkProfile :=
  catalog.profiles.find? fun profile => profile.profileId = profileId

/-- The profile named active, or else the first one that is not retired. -/
def activeProfile (catalog : NetworkProfileCatalog) : Option NetworkProfile :=
  (catalog.profiles.find? fun profile =>
    profile.profileId = catalog.activeProfileId ∧ ¬ profile.isRetired).or
    (catalog.profiles.find? fun profile => ¬ profile.isRetired)

end NetworkProfileCatalog

def validateProfileName (value : String) : Except AuthError String :=
  let trimmed := Text.trim value
  if trimmed = "" ∨ trimmed.utf8ByteSize > maxNetworkProfileNameBytes ∨
      trimmed.toList.any Text.isControl then
    .error .invalidProfileName
  else .ok trimmed

/-! ## Operations on what has been read -/

/-- The file's catalogue, or that of an account without one. -/
def loadedOr (loaded : Option NetworkProfileCatalog) (now : UInt64) : NetworkProfileCatalog :=
  loaded.getD (.legacyDefault now)

def createNetworkProfile (displayName profileId : String) (now : UInt64)
    (loaded : Option NetworkProfileCatalog) :
    Except AuthError (NetworkProfile × NetworkProfileCatalog) :=
  match validateProfileName displayName with
  | .error error => .error error
  | .ok displayName =>
    let catalog := loadedOr loaded now
    let profile : NetworkProfile :=
      { profileId := profileId, displayName := displayName, createdAt := now, retiredAt := none }
    .ok (profile, { catalog with profiles := catalog.profiles ++ [profile] })

def selectNetworkProfile (profileId : String) (now : UInt64)
    (loaded : Option NetworkProfileCatalog) :
    Except AuthError (NetworkProfile × NetworkProfileCatalog) :=
  let catalog := loadedOr loaded now
  match catalog.profile? profileId with
  | none => .error .profileNotFound
  | some profile =>
    if profile.isRetired then .error .profileRetired
    else .ok (profile, { catalog with activeProfileId := profile.profileId })

/-- Retire the first profile with the id. -/
def retireFirst (profileId : String) (now : UInt64) : List NetworkProfile → List NetworkProfile
  | [] => []
  | profile :: profiles =>
    if profile.profileId = profileId then { profile with retiredAt := some now } :: profiles
    else profile :: retireFirst profileId now profiles

def retireNetworkProfile (profileId : String) (now : UInt64)
    (loaded : Option NetworkProfileCatalog) :
    Except AuthError (NetworkProfile × NetworkProfileCatalog) :=
  let catalog := loadedOr loaded now
  if catalog.activeProfileId = profileId then .error .cannotRetireActiveProfile
  else if (catalog.profiles.countP fun profile => ¬ profile.isRetired) ≤ 1 then
    .error .cannotRetireLastProfile
  else
    match catalog.profile? profileId with
    | none => .error .profileNotFound
    | some profile =>
      .ok ({ profile with retiredAt := some now },
        { catalog with profiles := retireFirst profileId now catalog.profiles })

/-- The catalogue that a login works with, and whether it is to be written. -/
def repairCatalog (now : UInt64) (loaded : Option NetworkProfileCatalog) :
    NetworkProfile × NetworkProfileCatalog × Bool :=
  let changed := loaded.isNone
  let catalog := loadedOr loaded now
  let (catalog, changed) :=
    if catalog.version ≠ networkProfileCatalogVersion then
      (NetworkProfileCatalog.legacyDefault now, true)
    else (catalog, changed)
  let (active, changed) :=
    match catalog.activeProfile with
    | some active => (active, changed)
    | none => (defaultProfile now, true)
  let (catalog, changed) :=
    if catalog.activeProfileId ≠ active.profileId then
      ({ catalog with activeProfileId := active.profileId }, true)
    else (catalog, changed)
  let (catalog, changed) :=
    if catalog.profiles.any fun profile => profile.profileId = active.profileId then
      (catalog, changed)
    else ({ catalog with profiles := catalog.profiles ++ [active] }, true)
  (active, catalog, changed)

/-! ## Calls -/

/-- A call, with the id that it draws and the time that it reads. -/
inductive Call
  | create (displayName profileId : String) (now : UInt64)
  | select (profileId : String) (now : UInt64)
  | retire (profileId : String) (now : UInt64)
  | login (now : UInt64)
  deriving DecidableEq

/-- The file that a call writes, if it writes one. -/
def Call.edit : Call → Option NetworkProfileCatalog → Option (Option NetworkProfileCatalog)
  | .create displayName profileId now, loaded =>
    (createNetworkProfile displayName profileId now loaded).toOption.map fun p => some p.2
  | .select profileId now, loaded =>
    (selectNetworkProfile profileId now loaded).toOption.map fun p => some p.2
  | .retire profileId now, loaded =>
    (retireNetworkProfile profileId now loaded).toOption.map fun p => some p.2
  | .login now, loaded =>
    let (_, catalog, changed) := repairCatalog now loaded
    if changed then some (some catalog) else none

/-- The file of an account and the calls of any number of callers. -/
abbrev ProfileStore := SharedContent Nat Call (Option NetworkProfileCatalog)

namespace NetworkProfileCatalog

/-- The active profile is there and not retired. -/
def ActiveUsable (catalog : NetworkProfileCatalog) : Prop :=
  ∃ profile, catalog.profile? catalog.activeProfileId = some profile ∧ profile.isRetired = false

/-- A catalogue of the supported version whose active profile is usable. -/
structure Valid (catalog : NetworkProfileCatalog) : Prop where
  version : catalog.version = networkProfileCatalogVersion
  active : catalog.ActiveUsable

end NetworkProfileCatalog

/-- An account without a catalogue gets the default one. -/
def FileValid (file : Option NetworkProfileCatalog) : Prop :=
  ∀ catalog ∈ file, catalog.Valid

/-- What a call has achieved once it has written. -/
def Call.Achieved : Call → Option NetworkProfileCatalog → Prop
  | .create _ profileId _, file =>
    ∃ catalog ∈ file, (catalog.profile? profileId).isSome
  | .retire profileId _, file =>
    ∃ catalog ∈ file, ∃ profile, catalog.profile? profileId = some profile ∧ profile.isRetired
  | _, _ => True

def profileSystem : LabelledSystem ProfileStore (SharedContent.Action Nat Call) :=
  SharedContent.system Call.edit FileValid

/-! ## One call -/

namespace NetworkProfileCatalog

variable {catalog : NetworkProfileCatalog} {profile : NetworkProfile} {profileId other : String}
  {now : UInt64}

theorem profile?_append_of_some (h : catalog.profile? profileId = some profile)
    (added : NetworkProfile) :
    ({ catalog with profiles := catalog.profiles ++ [added] } :
      NetworkProfileCatalog).profile? profileId = some profile := by
  rw [profile?, List.find?_append, ← profile?, h]
  rfl

theorem profile?_append_self (catalog : NetworkProfileCatalog) (added : NetworkProfile) :
    (({ catalog with profiles := catalog.profiles ++ [added] } :
      NetworkProfileCatalog).profile? added.profileId).isSome := by
  rw [profile?, List.find?_isSome]
  exact ⟨added, by simp, by simp⟩

theorem find?_retireFirst (profiles : List NetworkProfile) (profileId other : String)
    (now : UInt64) :
    (retireFirst profileId now profiles).find? (fun profile => profile.profileId = other) =
      (profiles.find? fun profile => profile.profileId = other).map fun profile =>
        if profile.profileId = profileId then { profile with retiredAt := some now }
        else profile := by
  induction profiles with
  | nil => rfl
  | cons head profiles ih =>
    rw [retireFirst]
    by_cases hhead : head.profileId = profileId
    · rw [if_pos hhead]
      by_cases hother : head.profileId = other
      · rw [List.find?_cons_of_pos (by simpa using hother),
          List.find?_cons_of_pos (by simpa using hother), Option.map_some, if_pos hhead]
      rw [List.find?_cons_of_neg (by simpa using hother),
        List.find?_cons_of_neg (by simpa using hother)]
      cases hfound : profiles.find? fun profile => profile.profileId = other with
      | none => rfl
      | some found =>
        have hid : found.profileId = other := by simpa using List.find?_some hfound
        have hne : found.profileId ≠ profileId := by
          rw [hid, ← hhead]
          exact Ne.symm hother
        rw [Option.map_some, if_neg hne]
    rw [if_neg hhead]
    by_cases hother : head.profileId = other
    · rw [List.find?_cons_of_pos (by simpa using hother),
        List.find?_cons_of_pos (by simpa using hother), Option.map_some, if_neg hhead]
    · rw [List.find?_cons_of_neg (by simpa using hother),
        List.find?_cons_of_neg (by simpa using hother), ih]

theorem profile?_id (h : catalog.profile? profileId = some profile) :
    profile.profileId = profileId := by
  simpa using List.find?_some h

theorem legacyDefault_valid (now : UInt64) : (legacyDefault now).Valid where
  version := rfl
  active := ⟨defaultProfile now, rfl, rfl⟩

/-- A usable active profile is what a login finds. -/
theorem activeProfile_of_valid (valid : catalog.Valid) :
    ∃ profile ∈ catalog.profiles, catalog.activeProfile = some profile ∧
      profile.profileId = catalog.activeProfileId := by
  obtain ⟨profile, hprofile, husable⟩ := valid.active
  have hsome : (catalog.profiles.find? fun profile =>
      profile.profileId = catalog.activeProfileId ∧ ¬ profile.isRetired).isSome := by
    rw [List.find?_isSome]
    exact ⟨profile, List.mem_of_find?_eq_some hprofile, by simp [profile?_id hprofile, husable]⟩
  obtain ⟨found, hfound⟩ := Option.isSome_iff_exists.mp hsome
  have hmatches := List.find?_some hfound
  refine ⟨found, List.mem_of_find?_eq_some hfound, ?_, (of_decide_eq_true hmatches).1⟩
  rw [activeProfile, hfound, Option.some_or]

end NetworkProfileCatalog

section Calls

variable {catalog : NetworkProfileCatalog} {file file' : Option NetworkProfileCatalog} {call : Call}

theorem loadedOr_valid (valid : FileValid file) (now : UInt64) : (loadedOr file now).Valid := by
  cases file with
  | none => exact NetworkProfileCatalog.legacyDefault_valid now
  | some catalog => exact valid catalog rfl

/-- A login leaves a valid catalogue alone. -/
theorem repairCatalog_of_valid (valid : catalog.Valid) (now : UInt64) :
    ∃ active, repairCatalog now (some catalog) = (active, catalog, false) := by
  obtain ⟨active, hmem, hactive, hid⟩ := NetworkProfileCatalog.activeProfile_of_valid valid
  have hany : (catalog.profiles.any fun profile => profile.profileId = active.profileId) = true :=
    List.any_eq_true.mpr ⟨active, hmem, by simp⟩
  refine ⟨active, ?_⟩
  simp [repairCatalog, loadedOr, valid.version, hactive, hid, hid ▸ hany]

theorem edit_login_of_some (valid : catalog.Valid) (now : UInt64) :
    Call.edit (.login now) (some catalog) = none := by
  obtain ⟨active, hrepair⟩ := repairCatalog_of_valid valid now
  simp only [Call.edit, hrepair]
  rfl

theorem edit_login_of_none (now : UInt64) :
    Call.edit (.login now) none = some (some (.legacyDefault now)) := rfl

theorem toOption_map_eq_some {α : Type} {result : Except AuthError (α × NetworkProfileCatalog)}
    (h : (result.toOption.map fun p => some p.2) = some file') :
    ∃ value catalog, result = .ok (value, catalog) ∧ file' = some catalog := by
  cases result with
  | error error => cases h
  | ok p => exact ⟨p.1, p.2, rfl, (Option.some.inj h).symm⟩

/-- What a call of each kind writes. -/
theorem edit_cases (h : call.edit file = some file') (valid : FileValid file) :
    ∃ catalog', file' = some catalog' ∧
      match call with
      | .create _ profileId now => ∃ profile : NetworkProfile, profile.profileId = profileId ∧
          catalog' = { loadedOr file now with
            profiles := (loadedOr file now).profiles ++ [profile] }
      | .select profileId now => ∃ profile,
          (loadedOr file now).profile? profileId = some profile ∧ profile.isRetired = false ∧
          catalog' = { loadedOr file now with activeProfileId := profile.profileId }
      | .retire profileId now => (loadedOr file now).activeProfileId ≠ profileId ∧
          ((loadedOr file now).profile? profileId).isSome ∧
          catalog' = { loadedOr file now with
            profiles := retireFirst profileId now (loadedOr file now).profiles }
      | .login now => file = none ∧ catalog' = .legacyDefault now := by
  cases call with
  | create displayName profileId now =>
    obtain ⟨profile, catalog', hcreate, rfl⟩ := toOption_map_eq_some h
    refine ⟨catalog', rfl, ?_⟩
    simp only [createNetworkProfile] at hcreate
    split at hcreate
    case h_1 => cases hcreate
    case h_2 name _ =>
      cases hcreate
      exact ⟨_, rfl, rfl⟩
  | select profileId now =>
    obtain ⟨profile, catalog', hselect, rfl⟩ := toOption_map_eq_some h
    refine ⟨catalog', rfl, ?_⟩
    simp only [selectNetworkProfile] at hselect
    split at hselect
    case h_1 => cases hselect
    case h_2 found hfound =>
      split at hselect
      case isTrue => cases hselect
      case isFalse hretired =>
        cases hselect
        exact ⟨_, hfound, by simpa using hretired, rfl⟩
  | retire profileId now =>
    obtain ⟨profile, catalog', hretire, rfl⟩ := toOption_map_eq_some h
    refine ⟨catalog', rfl, ?_⟩
    simp only [retireNetworkProfile] at hretire
    split at hretire
    case isTrue => cases hretire
    case isFalse hactive =>
    split at hretire
    case isTrue => cases hretire
    case isFalse =>
      split at hretire
      case h_1 => cases hretire
      case h_2 found hfound =>
        cases hretire
        exact ⟨hactive, Option.isSome_of_eq_some hfound, rfl⟩
  | login now =>
    cases file with
    | none =>
      rw [edit_login_of_none] at h
      exact ⟨_, (Option.some.inj h).symm, rfl, rfl⟩
    | some catalog =>
      rw [edit_login_of_some (valid catalog rfl)] at h
      cases h

theorem edit_valid (h : call.edit file = some file') (valid : FileValid file) :
    FileValid file' := by
  obtain ⟨catalog', rfl, hcall⟩ := edit_cases h valid
  rintro catalog hcatalog
  cases hcatalog
  cases call with
  | create displayName profileId now =>
    obtain ⟨profile, -, rfl⟩ := hcall
    have hloaded := loadedOr_valid valid now
    obtain ⟨active, hactive, husable⟩ := hloaded.active
    exact
      { version := hloaded.version
        active := ⟨active, NetworkProfileCatalog.profile?_append_of_some hactive profile, husable⟩ }
  | select profileId now =>
    obtain ⟨profile, hprofile, husable, rfl⟩ := hcall
    have hid := NetworkProfileCatalog.profile?_id hprofile
    exact
      { version := (loadedOr_valid valid now).version
        active := ⟨profile, by rw [← hid] at hprofile; exact hprofile, husable⟩ }
  | retire profileId now =>
    obtain ⟨hne, -, rfl⟩ := hcall
    have hloaded := loadedOr_valid valid now
    obtain ⟨active, hactive, husable⟩ := hloaded.active
    have hid : active.profileId ≠ profileId := by
      rwa [NetworkProfileCatalog.profile?_id hactive]
    refine { version := hloaded.version, active := ⟨active, ?_, husable⟩ }
    rw [NetworkProfileCatalog.profile?, NetworkProfileCatalog.find?_retireFirst,
      ← NetworkProfileCatalog.profile?, hactive, Option.map_some, if_neg hid]
  | login now =>
    obtain ⟨-, rfl⟩ := hcall
    exact NetworkProfileCatalog.legacyDefault_valid now

/-- No call takes a profile away or un-retires one. -/
theorem edit_keeps (h : call.edit (some catalog) = some file') (valid : catalog.Valid)
    {profileId : String} {profile : NetworkProfile}
    (hprofile : catalog.profile? profileId = some profile) :
    ∃ catalog' ∈ file', ∃ profile', catalog'.profile? profileId = some profile' ∧
      (profile.isRetired → profile'.isRetired) := by
  have hfile : FileValid (some catalog) := by
    rintro loaded hloaded
    rwa [← Option.some.inj hloaded]
  obtain ⟨catalog', rfl, hcall⟩ := edit_cases h hfile
  refine ⟨catalog', rfl, ?_⟩
  cases call with
  | create displayName added now =>
    obtain ⟨new, -, rfl⟩ := hcall
    exact ⟨profile, NetworkProfileCatalog.profile?_append_of_some hprofile new, id⟩
  | select selected now =>
    obtain ⟨found, -, -, rfl⟩ := hcall
    exact ⟨profile, hprofile, id⟩
  | retire retired now =>
    obtain ⟨-, -, rfl⟩ := hcall
    refine ⟨if profile.profileId = retired then { profile with retiredAt := some now }
      else profile, ?_, ?_⟩
    · rw [NetworkProfileCatalog.profile?, NetworkProfileCatalog.find?_retireFirst]
      exact congrArg (Option.map _) hprofile
    · intro hretired
      split
      case isTrue => rfl
      case isFalse => exact hretired
  | login now => cases hcall.1

theorem edit_achieves (h : call.edit file = some file') (valid : FileValid file) :
    call.Achieved file' := by
  obtain ⟨catalog', rfl, hcall⟩ := edit_cases h valid
  cases call with
  | create displayName profileId now =>
    obtain ⟨profile, rfl, rfl⟩ := hcall
    exact ⟨_, rfl, NetworkProfileCatalog.profile?_append_self _ profile⟩
  | select profileId now => trivial
  | retire profileId now =>
    obtain ⟨-, hsome, rfl⟩ := hcall
    obtain ⟨profile, hprofile⟩ := Option.isSome_iff_exists.mp hsome
    refine ⟨_, rfl, { profile with retiredAt := some now }, ?_, rfl⟩
    rw [NetworkProfileCatalog.profile?, NetworkProfileCatalog.find?_retireFirst,
      ← NetworkProfileCatalog.profile?, hprofile, Option.map_some,
      if_pos (NetworkProfileCatalog.profile?_id hprofile)]
  | login now => trivial

theorem edit_keeps_achieved {other : Call} (h : other.edit file = some file')
    (valid : FileValid file) (hachieved : call.Achieved file) : call.Achieved file' := by
  cases call with
  | create displayName profileId now =>
    obtain ⟨catalog, hcatalog, hsome⟩ := hachieved
    obtain ⟨profile, hprofile⟩ := Option.isSome_iff_exists.mp hsome
    obtain rfl : file = some catalog := hcatalog
    obtain ⟨catalog', hfile', profile', hkept, -⟩ := edit_keeps h (valid catalog rfl) hprofile
    exact ⟨catalog', hfile', Option.isSome_of_eq_some hkept⟩
  | select profileId now => trivial
  | retire profileId now =>
    obtain ⟨catalog, hcatalog, profile, hprofile, hretired⟩ := hachieved
    obtain rfl : file = some catalog := hcatalog
    obtain ⟨catalog', hfile', profile', hkept, hstays⟩ :=
      edit_keeps h (valid catalog rfl) hprofile
    exact ⟨catalog', hfile', profile', hkept, hstays hretired⟩
  | login now => trivial

end Calls

/-! ## Runs -/

/-- In every run the active profile is usable. In a run where the file at each write is the one
that its caller has read, created profiles stay and retired ones stay retired. -/
theorem profiles_kept_while_undisturbed (s : ProfileStore) :
    (profileSystem.Reachable s → ∀ catalog ∈ s.content, catalog.ActiveUsable) ∧
      ((profileSystem.restrict SharedContent.Undisturbed).Reachable s →
        ∀ call ∈ s.done, call.Achieved s.content) := by
  have hedit : ∀ (call : Call) file file', FileValid file → call.edit file = some file' →
      FileValid file' := fun call file file' valid h => edit_valid h valid
  constructor
  · intro reached catalog hcatalog
    have hvalid := (SharedContent.preserved_invariant (fun _ h => h) hedit).holds reached
    exact (hvalid.1 catalog hcatalog).active
  · intro reached
    exact SharedContent.established_of_undisturbed (fun _ h => h) hedit
      (fun _ _ _ valid h => edit_achieves h valid)
      (fun _ _ _ _ valid hachieved h => edit_keeps_achieved h valid hachieved) reached

/-! ## Two callers -/

namespace ProfileSample

def start : ProfileStore where
  content := some (.legacyDefault 0)
  pending := fun _ => none
  done := []

/-- Both callers read before either writes. -/
def overlapping (first second : Call) : List (SharedContent.Action Nat Call) :=
  [.read 0 first, .read 1 second, .write 0 true, .write 1 true]

def actions : List (SharedContent.Action Nat Call) :=
  overlapping (.create "First" "a" 1) (.create "Second" "b" 2) ++
    overlapping (.retire "b" 3) (.create "Third" "c" 4)

def final : ProfileStore :=
  (LabelledSystem.run (SharedContent.next Call.edit) start actions).get (by decide +kernel)

theorem start_initial : profileSystem.initial start := by
  refine ⟨?_, fun _ => rfl, rfl⟩
  rintro catalog hcatalog
  cases hcatalog
  exact NetworkProfileCatalog.legacyDefault_valid 0

/-- A profile whose creation has returned is missing, and one that has been retired is not. -/
theorem overlapping_calls_lose_profiles : profileSystem.Reachable final ∧
      (.create "First" "a" 1 ∈ final.done ∧ ¬ Call.Achieved (.create "First" "a" 1) final.content) ∧
      (.retire "b" 3 ∈ final.done ∧ ¬ Call.Achieved (.retire "b" 3) final.content) := by
  have hcreated : (final.content.bind fun catalog => catalog.profile? "a") = none := by
    decide +kernel
  have hretired : ((final.content.bind fun catalog => catalog.profile? "b").map
      NetworkProfile.isRetired) = some false := by
    decide +kernel
  refine ⟨?_, ⟨by decide +kernel, ?_⟩, by decide +kernel, ?_⟩
  · exact LabelledSystem.Reachable.of_run (fun _ _ _ hnext => hnext) (.start start_initial)
      (Option.some_get _).symm
  · rintro ⟨catalog, hcatalog, hsome⟩
    rw [Option.mem_def.mp hcatalog, Option.bind_some] at hcreated
    rw [hcreated] at hsome
    cases hsome
  · rintro ⟨catalog, hcatalog, profile, hprofile, hisRetired⟩
    rw [Option.mem_def.mp hcatalog, Option.bind_some, hprofile, Option.map_some] at hretired
    rw [Option.some.inj hretired] at hisRetired
    cases hisRetired

/-- A caller has read the file. -/
def reading : ProfileStore :=
  (start.next Call.edit (.read 0 (.create "First" "a" 1))).get (by decide +kernel)

/-- It has written its profile. -/
def created : ProfileStore :=
  (reading.next Call.edit (.write 0 true)).get (by decide +kernel)

theorem created_profile_stays :
    created.done ≠ [] ∧ ∀ call ∈ created.done, call.Achieved created.content := by
  refine ⟨by decide +kernel, (profiles_kept_while_undisturbed created).2
    (.next (.write 0 true) (.next (.read 0 (.create "First" "a" 1)) (.start start_initial)
      ⟨trivial, (Option.some_get _).symm⟩) ⟨?_, (Option.some_get _).symm⟩)⟩
  rintro op seen hpending
  exact (congrArg Prod.snd (Option.some.inj hpending)).symm

end ProfileSample

end VeilKnit.UserAuth
