import VeilKnit.PrivateStorage.Execution

/-!
# What is read under a key

The file of a value and the manifest are written one after the other, and the file keeps its name
from one value to the next. When the second write does not happen the old entry stands beside the
new bytes: bytes of another length read as corrupt, and bytes of the same length are passed off as
the old value. A value is read back as it was or as it was put just when that does not come about,
and when pruning leaves the new value alone.
-/

namespace VeilKnit.PrivateStorage

open Library Types

variable {c : Circumstances} {m m' : PrivateAppManifest} {v v' : Vault} {key : String}
  {actions : List Action} {op : Op} {reply : Reply} {removed : Removed}

/-! ## Entries along a list of actions -/

/-- The actions leave the entry of the key, up to a relation, or take it away. They leave its file
as long as the manifest has the key. -/
def Respects (R : PrivateValueEntry → PrivateValueEntry → Prop) (key : String) :
    PrivateAppManifest → List Action → Prop
  | _, [] => True
  | m, .write (.manifest m') :: rest =>
    m'.version = m.version ∧
      (∀ e', m'.values.lookup key = some e' → ∃ e, m.values.lookup key = some e ∧ R e e') ∧
      Respects R key m' rest
  | m, .write (.chunk ..) :: rest => Respects R key m rest
  | m, .write (.value other _) :: rest => other ≠ key ∧ Respects R key m rest
  | m, .discard values _ :: rest =>
    (values key = true → m.values.lookup key = none) ∧ Respects R key m rest

section Respects

variable {R : PrivateValueEntry → PrivateValueEntry → Prop}

/-- However many of the writes happen, what the manifest has under the key comes from what it had,
with the same file. -/
theorem Respects.perform (removed : Removed) (refl : ∀ e, R e e)
    (trans : ∀ a b c, R a b → R b c → R a c)
    (loads : Loads v m) (h : Respects R key m actions) (budget : Nat) :
    ∃ m', Loads (Vault.perform removed v actions budget).1 m' ∧
      ∀ e', m'.values.lookup key = some e' → ∃ e, m.values.lookup key = some e ∧ R e e' ∧
        (Vault.perform removed v actions budget).1.valueFiles key = v.valueFiles key := by
  induction actions generalizing v m budget with
  | nil => exact ⟨m, loads, fun e' he' => ⟨e', he', refl e', rfl⟩⟩
  | cons action rest ih =>
    cases action with
    | discard values blobs =>
      obtain ⟨hdiscard, hrest⟩ := h
      have hloads : Loads (v.discard removed values blobs) m := loads.congr rfl
      obtain ⟨m', hm', hkept⟩ := ih hloads hrest budget
      refine ⟨m', hm', fun e' he' => ?_⟩
      obtain ⟨e, he, hR, hfile⟩ := hkept e' he'
      refine ⟨e, he, hR, hfile.trans ?_⟩
      have hnot : ¬ (values key = true ∧ removed.values key = true) := by
        rintro ⟨hcovered, -⟩
        rw [hdiscard hcovered] at he
        cases he
      exact if_neg hnot
    | write file =>
      cases budget with
      | zero => exact ⟨m, loads, fun e' he' => ⟨e', he', refl e', rfl⟩⟩
      | succ budget =>
        cases file with
        | value other bytes =>
          obtain ⟨hne, hrest⟩ := h
          have hloads : Loads (v.write (.value other bytes)) m := loads.congr rfl
          obtain ⟨m', hm', hkept⟩ := ih hloads hrest budget
          refine ⟨m', hm', fun e' he' => ?_⟩
          obtain ⟨e, he, hR, hfile⟩ := hkept e' he'
          exact ⟨e, he, hR, hfile.trans (Function.update_of_ne hne.symm _ _)⟩
        | chunk blobId index bytes =>
          have hloads : Loads (v.write (.chunk blobId index bytes)) m := loads.congr rfl
          exact ih hloads h budget
        | manifest new =>
          obtain ⟨hversion, hentry, hrest⟩ := h
          obtain ⟨m', hm', hkept⟩ := ih (loads.write_manifest hversion) hrest budget
          refine ⟨m', hm', fun e' he' => ?_⟩
          obtain ⟨e, he, hR, hfile⟩ := hkept e' he'
          obtain ⟨e₀, he₀, hR₀⟩ := hentry e he
          exact ⟨e₀, he₀, trans _ _ _ hR₀ hR, hfile⟩

theorem respects_pruneCache (refl : ∀ e, R e e) (m : PrivateAppManifest) (limit : Nat)
    (order : Order) (now : UInt64) (key : String) :
    Respects R key m (m.pruneCache limit order now).2 := by
  obtain ⟨-, heq⟩ | ⟨dead, kept, -, -, heq⟩ := m.pruneCache_cases limit order now
  · rw [heq]
    trivial
  rw [heq]
  refine ⟨m.removeAll_version dead, fun e' he' => ?_, fun hdead => ?_, trivial⟩
  · have hkept := (m.removeAll_values_lookup dead key).symm.trans he'
    split at hkept
    case isTrue => cases hkept
    case isFalse => exact ⟨e', hkept, refl e'⟩
  · exact (m.removeAll_values_lookup dead key).trans (if_pos hdead)

theorem respects_saveAndPrune (refl : ∀ e, R e e) (hversion : m'.version = m.version)
    (hentry : ∀ e', m'.values.lookup key = some e' → ∃ e, m.values.lookup key = some e ∧ R e e') :
    Respects R key m (saveAndPrune c m') :=
  ⟨hversion, hentry, respects_pruneCache refl m' c.limit c.order c.now key⟩

end Respects

/-! ## Entries along an operation -/

/-- The operation puts a value under the key. -/
def Op.Puts (key : String) : Op → Prop
  | .putValue other _ _ _ => other = key
  | _ => False

/-- The operation may change what is read under the key to anything but an absence. -/
def Op.Concerns (key : String) : Op → Prop
  | .putValue other _ _ _ => other = key
  | .getValue other => other = key
  | .renewValue other _ _ => other = key
  | _ => False

/-- Both entries go with the same file. -/
def SameFile (e e' : PrivateValueEntry) : Prop := e'.key = e.key ∧ e'.bytes = e.bytes

theorem Planned.respects {R : PrivateValueEntry → PrivateValueEntry → Prop}
    (h : Planned c m op actions reply) (refl : ∀ e, R e e) (hputs : ¬ op.Puts key)
    (hchanges : op.Concerns key → ∀ e e', SameFile e e' → R e e') :
    Respects R key m actions := by
  have hkeep : ∀ e', m.values.lookup key = some e' → ∃ e, m.values.lookup key = some e ∧ R e e' :=
    fun e' he' => ⟨e', he', refl e'⟩
  -- An entry that is replaced is one of the key concerned, or of another key.
  have hreplace : ∀ other entry entry', m.values.lookup other = some entry →
      (other = key → R entry entry') →
      ∀ e', (m.values.insert other entry').lookup key = some e' →
        ∃ e, m.values.lookup key = some e ∧ R e e' := by
    intro other entry entry' hfound hR e' he'
    obtain ⟨rfl, rfl⟩ | ⟨-, hother⟩ := AList.of_lookup_insert he'
    · exact ⟨entry, hfound, hR rfl⟩
    · exact hkeep e' hother
  cases h with
  | nothing => trivial
  | putValue other value retention ttlSeconds expiresAt expiry =>
    have hne : other ≠ key := hputs
    refine ⟨hne, respects_saveAndPrune refl rfl fun e' he' => ?_⟩
    exact hkeep e' ((AList.lookup_insert_ne hne.symm).symm.trans he')
  | accessValue other entry reply found =>
    refine ⟨rfl, hreplace other entry _ found fun hother => ?_, trivial⟩
    exact hchanges hother _ _ ⟨rfl, rfl⟩
  | deleteValue other =>
    refine ⟨rfl, fun e' he' => ?_, fun hdiscard => ?_, trivial⟩
    · exact hkeep e' (AList.of_lookup_erase he').2
    · rw [of_decide_eq_true hdiscard]
      exact AList.lookup_erase _ _
  | renewValue other retention ttlSeconds expiresAt entry expiry found =>
    refine ⟨rfl, hreplace other entry _ found fun hother => ?_, trivial⟩
    exact hchanges hother _ _ ⟨rfl, rfl⟩
  | beginBlob => exact ⟨rfl, hkeep, trivial⟩
  | appendBlob => exact ⟨rfl, hkeep, trivial⟩
  | finishBlob => exact respects_saveAndPrune refl rfl hkeep
  | abortBlob => exact ⟨rfl, hkeep, fun hdiscard => absurd hdiscard Bool.false_ne_true, trivial⟩
  | accessBlob => exact ⟨rfl, hkeep, trivial⟩
  | renewBlob => exact ⟨rfl, hkeep, trivial⟩
  | prepareShutdown =>
    refine ⟨rfl, fun e' he' => ?_, trivial⟩
    exact hkeep e' (AList.lookup_filterEntries_eq_some.mp he').2
  | cleanup =>
    have hswept : ∀ e', (m.swept c.now).values.lookup key = some e' →
        m.values.lookup key = some e' :=
      fun e' he' => (AList.lookup_filterEntries_eq_some.mp he').2
    obtain ⟨-, heq⟩ | ⟨dead, kept, -, -, heq⟩ :=
      (m.swept c.now).pruneCache_cases c.limit c.order c.now
    · rw [heq]
      refine ⟨rfl, fun e' he' => hkeep e' (hswept e' he'), fun hdiscard => ?_, trivial⟩
      exact Option.isNone_iff_eq_none.mp hdiscard
    have hpruned : ∀ e', (m.swept c.now |>.removeAll dead).values.lookup key = some e' →
        m.values.lookup key = some e' := by
      intro e' he'
      rw [PrivateAppManifest.removeAll_values_lookup] at he'
      split at he'
      case isTrue => cases he'
      case isFalse => exact hswept e' he'
    rw [heq]
    refine ⟨(PrivateAppManifest.removeAll_version _ _).trans rfl,
      fun e' he' => hkeep e' (hpruned e' he'), fun hdiscard => ?_, rfl,
      fun e' he' => ⟨e', he', refl e'⟩, fun hdiscard => ?_, trivial⟩
    · exact (PrivateAppManifest.removeAll_values_lookup _ _ _).trans (if_pos hdiscard)
    · exact Option.isNone_iff_eq_none.mp hdiscard

/-! ## Reading back -/

/-- What reading a value returns. -/
def readBack (c : Circumstances) (v : Vault) (key : String) : Except PrivateStorageError Reply :=
  (getValue c v key).map Plan.reply

theorem readBack_eq (hload : v.loadManifest c.now = .ok m) (hkey : validateValueKey key = .ok ()) :
    readBack c v key =
      match m.values.lookup key with
      | none => .ok (.found none)
      | some entry =>
        if isExpired entry.expiresAt c.now then .ok (.found none)
        else (readValue v key entry).map fun bytes =>
          .found (some (entry.accessed c.now, bytes)) := by
  simp only [readBack, getValue, hkey, hload]
  cases m.values.lookup key with
  | none => rfl
  | some entry =>
    dsimp only
    split
    case isTrue => rfl
    case isFalse =>
      cases readValue v key entry with
      | error error => rfl
      | ok bytes => rfl

theorem readBack_invalid {error : PrivateStorageError} (hkey : validateValueKey key = .error error) :
    readBack c v key = .error error := by
  rw [readBack, getValue, hkey]
  rfl

variable {entry : PrivateValueEntry} {bytes value : Bytes}

theorem readBack_found (hm : Loads v m)
    (hkey : validateValueKey key = .ok ()) (hentry : m.values.lookup key = some entry)
    (hfile : v.valueFiles key = some bytes) (hlength : bytes.length = entry.bytes)
    (hlive : isExpired entry.expiresAt c.now = false) :
    readBack c v key = .ok (.found (some (entry.accessed c.now, bytes))) := by
  obtain ⟨found, hfound, hvalues, -⟩ := hm.at c.now
  rw [readBack_eq hfound hkey, hvalues, hentry]
  dsimp only
  rw [hlive, if_neg Bool.false_ne_true, readValue, hfile]
  dsimp only
  rw [if_neg (not_not.mpr hlength)]
  rfl

/-- The same entry beside the same file reads the same. -/
theorem readBack_congr (hm : Loads v m) (hm' : Loads v' m')
    (hlookup : m'.values.lookup key = m.values.lookup key)
    (hfile : ∀ e, m.values.lookup key = some e → v'.valueFiles key = v.valueFiles key) :
    readBack c v' key = readBack c v key := by
  cases hkey : validateValueKey key with
  | error error => rw [readBack_invalid hkey, readBack_invalid hkey]
  | ok =>
    obtain ⟨found, hfound, hvalues, -⟩ := hm.at c.now
    obtain ⟨found', hfound', hvalues', -⟩ := hm'.at c.now
    rw [readBack_eq hfound hkey, readBack_eq hfound' hkey, hvalues, hvalues', hlookup]
    cases hentry : m.values.lookup key with
    | none => rfl
    | some e =>
      dsimp only
      rw [readValue, hfile e hentry, readValue]

theorem readBack_absent (hm : Loads v m) (hkey : validateValueKey key = .ok ())
    (hlookup : m.values.lookup key = none) : readBack c v key = .ok (.found none) := by
  obtain ⟨found, hfound, hvalues, -⟩ := hm.at c.now
  rw [readBack_eq hfound hkey, hvalues, hlookup]

/-! ## One operation -/

/-- Every entry stands beside a file of its length. -/
def ValuesIntact (v : Vault) : Prop :=
  ∃ m, Loads v m ∧ ∀ key e, m.values.lookup key = some e →
    ∃ bytes, v.valueFiles key = some bytes ∧ bytes.length = e.bytes

/-- A value that is intact is read. -/
theorem ValuesIntact.readBack (h : ValuesIntact v) (hkey : validateValueKey key = .ok ()) :
    ∃ reply, readBack c v key = .ok reply := by
  obtain ⟨m, hm, hintact⟩ := h
  obtain ⟨found, hfound, hvalues, -⟩ := hm.at c.now
  rw [readBack_eq hfound hkey, hvalues]
  cases hentry : m.values.lookup key with
  | none => exact ⟨_, rfl⟩
  | some e =>
    dsimp only
    split
    case isTrue => exact ⟨_, rfl⟩
    case isFalse =>
      obtain ⟨bytes, hfile, hlength⟩ := hintact key e hentry
      rw [readValue, hfile]
      dsimp only
      rw [if_neg (not_not.mpr hlength)]
      exact ⟨_, rfl⟩

/-- The vault once the file and the manifest of a new value are written. -/
def putVault (v : Vault) (m : PrivateAppManifest) (key : String) (value : Bytes)
    (entry : PrivateValueEntry) (now : UInt64) : Vault :=
  (v.write (.value key value)).write (.manifest (m.putEntry entry now))

/-- When the manifest's write does not happen after the file's, the key has no entry, or its file
has the new bytes already, or its entry is the new one. And pruning leaves the new entry. -/
def Call.Whole (call : Call) (v : Vault) : Prop :=
  ∀ key value retention ttlSeconds, call.op = .putValue key value retention ttlSeconds →
    ∀ m expiresAt, v.loadManifest call.now = .ok m →
      expiryFor retention ttlSeconds call.now = .ok expiresAt →
        let entry := newEntry m key value retention expiresAt call.now
        (call.budget = 1 → ∀ old ∈ m.values.lookup key,
          v.valueFiles key = some value ∨ old = entry) ∧
        (3 ≤ call.budget →
          (((m.putEntry entry call.now).pruneCache call.limit call.order call.now).1.values.lookup
            key).isSome)

variable {call : Call}

/-- An operation that does not concern a key leaves what is read under it, or takes it away. -/
theorem exec_unconcerned (hkey : ¬ call.op.Concerns key) :
    readBack c (call.exec v).1 key = readBack c v key ∨
      readBack c (call.exec v).1 key = .ok (.found none) := by
  obtain ⟨error, hexec⟩ | ⟨found, actions, reply, hload, hplanned, hexec, -⟩ := call.exec_cases v
  · rw [hexec]
    exact .inl rfl
  have hputs : ¬ call.op.Puts key := by
    intro hputs
    cases hop : call.op with
    | putValue other value retention ttlSeconds =>
      rw [hop] at hputs hkey
      exact hkey hputs
    | _ =>
      rw [hop] at hputs
      exact hputs
  have hrespects : Respects Eq key found actions :=
    hplanned.respects (fun _ => rfl) hputs fun hconcerns => absurd hconcerns hkey
  obtain ⟨m', hm', hkept⟩ := hrespects.perform call.removed (fun _ => rfl)
    (fun _ _ _ => Eq.trans) ⟨_, hload⟩ call.budget
  rw [hexec]
  cases hentry : m'.values.lookup key with
  | none =>
    cases hvalid : validateValueKey key with
    | error error => exact .inl ((readBack_invalid hvalid).trans (readBack_invalid hvalid).symm)
    | ok => exact .inr (readBack_absent hm' hvalid hentry)
  | some e' =>
    obtain ⟨e, he, rfl, hfile⟩ := hkept e' hentry
    exact .inl (readBack_congr ⟨_, hload⟩ hm' (hentry.trans he.symm) fun _ _ => hfile)

theorem newEntry_lookup (m : PrivateAppManifest) (key : String) (value : Bytes)
    (retention : PrivateRetention) (expiresAt : Option UInt64) (now : UInt64) :
    (m.putEntry (newEntry m key value retention expiresAt now) now).values.lookup key =
      some (newEntry m key value retention expiresAt now) :=
  AList.lookup_insert m.values

/-- After a new entry is in the manifest, pruning leaves it or takes it away. -/
theorem perform_prune_new (hm : Loads v m) (limit : Nat) (order : Order) (now : UInt64)
    (removed : Removed) (budget : Nat) :
    ∃ m', Loads (Vault.perform removed v (m.pruneCache limit order now).2 budget).1 m' ∧
      (∀ e', m'.values.lookup key = some e' → m.values.lookup key = some e' ∧
        (Vault.perform removed v (m.pruneCache limit order now).2 budget).1.valueFiles key =
          v.valueFiles key) ∧
      (budget = 0 ∨ ((m.pruneCache limit order now).1.values.lookup key).isSome →
        m'.values.lookup key = m.values.lookup key) := by
  obtain ⟨-, heq⟩ | ⟨dead, kept, -, -, heq⟩ := m.pruneCache_cases limit order now
  · rw [heq]
    exact ⟨m, hm, fun e' he' => ⟨he', rfl⟩, fun _ => rfl⟩
  rw [heq]
  cases budget with
  | zero => exact ⟨m, hm, fun e' he' => ⟨he', rfl⟩, fun _ => rfl⟩
  | succ budget =>
    have hlookup := m.removeAll_values_lookup dead key
    have hwritten : Loads (v.write (.manifest { m.removeAll dead with updatedAt := now }))
        { m.removeAll dead with updatedAt := now } :=
      hm.write_manifest (m.removeAll_version dead)
    refine ⟨{ m.removeAll dead with updatedAt := now }, hwritten.congr rfl, fun e' he' => ?_, ?_⟩
    · have hkept := hlookup.symm.trans he'
      split at hkept
      case isTrue => cases hkept
      case isFalse hdead =>
        have hnot : ¬ (dead.any (Candidate.isValue key) = true ∧ removed.values key = true) :=
          fun hboth => hdead hboth.1
        exact ⟨hkept, if_neg hnot⟩
    rintro (hzero | hsome)
    · cases hzero
    refine hlookup.trans ?_
    split
    case isTrue hdead =>
      rw [hlookup, if_pos hdead] at hsome
      cases hsome
    case isFalse => rfl

variable {retention : PrivateRetention} {ttlSeconds : Option UInt64}

/-- Putting a value, as far as it goes, leaves the old entry with its file or the new entry with
the new file. -/
theorem exec_put_cases (hop : call.op = .putValue key value retention ttlSeconds)
    (hwhole : call.Whole v) (hload : v.loadManifest call.now = .ok m) :
    ∃ m', Loads (call.exec v).1 m' ∧
      ((m'.values.lookup key = m.values.lookup key ∧
          ∀ e, m.values.lookup key = some e → (call.exec v).1.valueFiles key = v.valueFiles key) ∨
        ∃ expiresAt, expiryFor retention ttlSeconds call.now = .ok expiresAt ∧
          m'.values.lookup key = some (newEntry m key value retention expiresAt call.now) ∧
          (call.exec v).1.valueFiles key = some value) := by
  have hm : Loads v m := ⟨_, hload⟩
  obtain ⟨error, hexec⟩ | ⟨found, actions, reply, hfound, hplanned, hexec, -⟩ := call.exec_cases v
  · rw [hexec]
    exact ⟨m, hm, .inl ⟨rfl, fun _ _ => rfl⟩⟩
  obtain rfl := Except.ok.inj (hfound.symm.trans hload)
  rw [hop] at hplanned
  cases hplanned with
  | nothing _ _ passes => cases passes
  | putValue key value retention ttlSeconds expiresAt expiry =>
    obtain ⟨htorn, hpruned⟩ := hwhole key value retention ttlSeconds hop found expiresAt hload expiry
    have hwritten : (v.write (.value key value)).valueFiles key = some value :=
      Function.update_self _ _ _
    have hfile : Loads (v.write (.value key value)) found := hm.congr rfl
    rw [hexec]
    cases hbudget : call.budget with
    | zero => exact ⟨found, hm, .inl ⟨rfl, fun _ _ => rfl⟩⟩
    | succ budget =>
      cases budget with
      | zero =>
        -- Only the file has been written.
        refine ⟨found, hfile, ?_⟩
        cases hentry : found.values.lookup key with
        | none =>
          refine .inl ⟨rfl, fun e he => ?_⟩
          cases he
        | some old =>
          obtain hsame | hnew := htorn hbudget old hentry
          · exact .inl ⟨rfl, fun e he => hwritten.trans hsame.symm⟩
          · exact .inr ⟨expiresAt, expiry, by rw [hnew], hwritten⟩
      | succ budget =>
        have hput : Loads (putVault v found key value
            (newEntry found key value retention expiresAt call.now) call.now)
            (found.putEntry (newEntry found key value retention expiresAt call.now) call.now) :=
          hfile.write_manifest rfl
        have hnew := newEntry_lookup found key value retention expiresAt call.now
        obtain ⟨m', hm', hkept, hsame⟩ :=
          perform_prune_new hput call.limit call.order call.now call.removed budget
        have hlookup := (hsame ?_).trans hnew
        · exact ⟨m', hm', .inr ⟨expiresAt, expiry, hlookup, (hkept _ hlookup).2.trans hwritten⟩⟩
        · cases budget with
          | zero => exact .inl rfl
          | succ budget => exact .inr (hpruned (by omega))

/-- Putting a value, as far as it goes, leaves what was read under the key or the new value. -/
theorem exec_put (hop : call.op = .putValue key value retention ttlSeconds)
    (hwhole : call.Whole v) (hload : v.loadManifest call.now = .ok m) :
    (∀ c, readBack c (call.exec v).1 key = readBack c v key) ∨
      ∃ expiresAt, expiryFor retention ttlSeconds call.now = .ok expiresAt ∧
        ∀ c, readBack c (call.exec v).1 key = readBack c (putVault v m key value
          (newEntry m key value retention expiresAt call.now) call.now) key := by
  have hm : Loads v m := ⟨_, hload⟩
  obtain ⟨m', hm', ⟨hlookup, hfile⟩ | ⟨expiresAt, expiry, hlookup, hfile⟩⟩ :=
    exec_put_cases hop hwhole hload
  · exact .inl fun c => readBack_congr hm hm' hlookup hfile
  refine .inr ⟨expiresAt, expiry, fun c => ?_⟩
  have hwritten : Loads (v.write (.value key value)) m := hm.congr rfl
  refine readBack_congr (hwritten.write_manifest rfl) hm' ?_ fun _ _ => ?_
  · exact hlookup.trans (newEntry_lookup m key value retention expiresAt call.now).symm
  · refine hfile.trans ?_
    exact (Function.update_self key (some value) v.valueFiles).symm

/-! ## Runs -/

theorem exec_intact (intact : ValuesIntact v) (hwhole : call.Whole v) :
    ValuesIntact (call.exec v).1 := by
  obtain ⟨m, hm, hvalues⟩ := intact
  obtain ⟨found, hfound, hsame, -⟩ := hm.at call.now
  rw [← hsame] at hvalues
  have hloads : Loads v found := ⟨_, hfound⟩
  -- For each key there is a manifest that is found afterwards; they all have the same values.
  have hkeys : ∀ key, ∃ m', Loads (call.exec v).1 m' ∧ ∀ e, m'.values.lookup key = some e →
      ∃ bytes, (call.exec v).1.valueFiles key = some bytes ∧ bytes.length = e.bytes := by
    intro key
    by_cases hputs : call.op.Puts key
    · cases hop : call.op with
      | putValue other value retention ttlSeconds =>
        rw [hop] at hputs
        obtain rfl : other = key := hputs
        obtain ⟨m', hm', ⟨hlookup, hfile⟩ | ⟨expiresAt, -, hlookup, hfile⟩⟩ :=
          exec_put_cases hop hwhole hfound
        · refine ⟨m', hm', fun e he => ?_⟩
          rw [hlookup] at he
          rw [hfile e he]
          exact hvalues other e he
        · refine ⟨m', hm', fun e he => ⟨value, hfile, ?_⟩⟩
          cases hlookup.symm.trans he
          rfl
      | _ =>
        rw [hop] at hputs
        exact absurd hputs not_false
    obtain ⟨error, hexec⟩ | ⟨loaded, actions, reply, hload, hplanned, hexec, -⟩ :=
      call.exec_cases v
    · rw [hexec]
      exact ⟨found, hloads, hvalues key⟩
    obtain rfl := Except.ok.inj (hload.symm.trans hfound)
    have hrespects : Respects SameFile key loaded actions :=
      hplanned.respects (fun _ => ⟨rfl, rfl⟩) hputs fun _ _ _ hsame => hsame
    obtain ⟨m', hm', hkept⟩ := hrespects.perform call.removed (fun _ => ⟨rfl, rfl⟩)
      (fun _ _ _ h h' => ⟨h'.1.trans h.1, h'.2.trans h.2⟩) hloads call.budget
    rw [hexec]
    refine ⟨m', hm', fun e he => ?_⟩
    obtain ⟨old, hold, hfields, hfile⟩ := hkept e he
    rw [hfile, hfields.2]
    exact hvalues key old hold
  obtain ⟨after, hafter, -⟩ := hkeys ""
  refine ⟨after, hafter, fun key e he => ?_⟩
  obtain ⟨m', hm', hkey⟩ := hkeys key
  rw [← (hm'.unique hafter).1] at hkey
  exact hkey e he

def Vault.empty : Vault where
  manifest := .absent
  valueFiles := fun _ => none
  chunkFiles := fun _ _ => none

/-- The vault of an application, from before its first operation. A process that dies and starts
again finds the vault as it is. -/
def vaultSystem : LabelledSystem Vault Call where
  initial v := v = .empty
  step v call v' := v' = (call.exec v).1

theorem intact_within {v : Vault}
    (reached : (vaultSystem.restrict fun v call => call.Whole v).Reachable v) : ValuesIntact v := by
  induction reached with
  | start hinit =>
    rw [show _ = Vault.empty from hinit]
    exact ⟨.default 0, ⟨0, rfl⟩, fun key e he => by cases he⟩
  | next call _ hstep ih =>
    obtain ⟨hwhole, rfl⟩ := hstep
    exact exec_intact ih hwhole

/-- What reads is an entry of the manifest and its file. -/
theorem readBack_eq_found (hm : Loads v m)
    (h : readBack c v key = .ok (.found (some (entry, bytes)))) :
    ∃ e, m.values.lookup key = some e ∧ entry = e.accessed c.now ∧
      v.valueFiles key = some bytes := by
  cases hkey : validateValueKey key with
  | error error =>
    rw [readBack_invalid hkey] at h
    cases h
  | ok =>
    obtain ⟨found, hfound, hvalues, -⟩ := hm.at c.now
    rw [readBack_eq hfound hkey, hvalues] at h
    cases hentry : m.values.lookup key with
    | none =>
      rw [hentry] at h
      cases h
    | some e =>
      rw [hentry] at h
      dsimp only at h
      split at h
      case isTrue => cases h
      case isFalse =>
      simp only [readValue] at h
      cases hfile : v.valueFiles key with
      | none =>
        rw [hfile] at h
        cases h
      | some plain =>
        rw [hfile] at h
        dsimp only at h
        split at h
        case isTrue => cases h
        case isFalse =>
          have hpair := Option.some.inj (Reply.found.inj (Except.ok.inj h))
          cases hpair
          exact ⟨e, rfl, rfl, rfl⟩

/-- The bytes that are read under a key are changed by nothing but a put. -/
theorem exec_keeps_bytes (hm : Loads v m) (hputs : ¬ call.op.Puts key)
    (h : readBack c (call.exec v).1 key = .ok (.found (some (entry, bytes)))) :
    v.valueFiles key = some bytes ∧
      ∃ old, m.values.lookup key = some old ∧ old.bytes = entry.bytes := by
  have haccessed : ∀ e : PrivateValueEntry, (e.accessed c.now).bytes = e.bytes := by
    intro e
    rw [PrivateValueEntry.accessed]
    split
    case isTrue => rfl
    case isFalse => rfl
  obtain ⟨error, hexec⟩ | ⟨found, actions, reply, hload, hplanned, hexec, -⟩ := call.exec_cases v
  · rw [hexec] at h
    obtain ⟨e, he, rfl, hfile⟩ := readBack_eq_found hm h
    exact ⟨hfile, e, he, (haccessed e).symm⟩
  have hrespects : Respects SameFile key found actions :=
    hplanned.respects (fun _ => ⟨rfl, rfl⟩) hputs fun _ _ _ hsame => hsame
  obtain ⟨m', hm', hkept⟩ := hrespects.perform call.removed (fun _ => ⟨rfl, rfl⟩)
    (fun _ _ _ h h' => ⟨h'.1.trans h.1, h'.2.trans h.2⟩) ⟨_, hload⟩ call.budget
  rw [hexec] at h
  obtain ⟨e, he, rfl, hfile⟩ := readBack_eq_found hm' h
  obtain ⟨old, hold, hfields, hsame⟩ := hkept e he
  rw [← hsame, ← (hm.unique ⟨_, hload⟩).1]
  exact ⟨hfile, old, hold, ((haccessed e).trans hfields.2).symm⟩

/-- In a run whose puts all meet the condition every key reads without an error. What a put leaves
under its key is the old value or the new one, and what another operation leaves is what was there,
or nothing; the bytes are changed by nothing but a put. -/
theorem values_read_old_or_new {v : Vault}
    (reached : (vaultSystem.restrict fun v call => call.Whole v).Reachable v) :
    (∀ c key, validateValueKey key = .ok () → ∃ reply, readBack c v key = .ok reply) ∧
      ∀ call : Call, call.Whole v →
        (∀ key value retention ttlSeconds, call.op = .putValue key value retention ttlSeconds →
          (∀ c, readBack c (call.exec v).1 key = readBack c v key) ∨
            ∃ m expiresAt, v.loadManifest call.now = .ok m ∧
              expiryFor retention ttlSeconds call.now = .ok expiresAt ∧
              ∀ c, readBack c (call.exec v).1 key = readBack c (putVault v m key value
                (newEntry m key value retention expiresAt call.now) call.now) key) ∧
        (∀ key, ¬ call.op.Concerns key → ∀ c, readBack c (call.exec v).1 key = readBack c v key ∨
            readBack c (call.exec v).1 key = .ok (.found none)) ∧
        ∀ key, ¬ call.op.Puts key → ∀ c entry bytes,
          readBack c (call.exec v).1 key = .ok (.found (some (entry, bytes))) →
            v.valueFiles key = some bytes := by
  have hintact := intact_within reached
  refine ⟨fun c key hkey => hintact.readBack hkey, fun call hwhole => ⟨?_, ?_, ?_⟩⟩
  · intro key value retention ttlSeconds hop
    obtain ⟨m, hm, -⟩ := hintact
    obtain ⟨found, hfound, -⟩ := hm.at call.now
    obtain hold | ⟨expiresAt, expiry, hnew⟩ := exec_put hop hwhole hfound
    · exact .inl hold
    · exact .inr ⟨found, expiresAt, hfound, expiry, hnew⟩
  · intro key hkey c
    exact exec_unconcerned hkey
  · intro key hputs c entry bytes h
    obtain ⟨m, hm, -⟩ := hintact
    exact (exec_keeps_bytes hm hputs h).1

/-! ## A put that is cut off -/

namespace TornSample

def circumstances (now : UInt64) : Circumstances where
  now := now
  limit := defaultPrivateCacheLimitBytes
  order := ⟨id, fun _ => .refl _⟩

/-- Put a value under "k". -/
def put (value : Bytes) (now : UInt64) (budget : Nat) : Call where
  toCircumstances := circumstances now
  op := .putValue "k" value .persistent none
  budget := budget
  removed := { values := fun _ => false, chunks := fun _ _ => false }

/-- The first value is there. -/
def stored : Vault := ((put [1, 2] 100 2).exec .empty).1

/-- The next put gets as far as the file. -/
def torn (value : Bytes) : Vault := ((put value 200 1).exec stored).1

def firstEntry : PrivateValueEntry where
  key := "k"
  bytes := 2
  retention := .persistent
  expiresAt := none
  createdAt := 100
  updatedAt := 100
  lastAccessedAt := 100

/-- A value of another length reads as corrupt, and one of the same length under the old entry. -/
theorem torn_put_reads_neither : vaultSystem.Reachable (torn [3]) ∧
      readBack (circumstances 210) (torn [3]) "k" =
        .error (.corrupt "value 'k' length did not match its manifest") ∧
      readBack (circumstances 150) (torn [3, 4]) "k" = .ok (.found (some (firstEntry, [3, 4]))) ∧
      readBack (circumstances 150) stored "k" = .ok (.found (some (firstEntry, [1, 2]))) := by
  refine ⟨?_, by decide +kernel, by decide +kernel, by decide +kernel⟩
  exact .next (put [3] 200 1) (.next (put [1, 2] 100 2) (.start rfl) rfl) rfl

/-- A put that goes through meets the condition. -/
theorem stored_reads : ∃ reply, readBack (circumstances 150) stored "k" = .ok reply := by
  have hwhole : (put [1, 2] 100 2).Whole .empty := by
    rintro key value retention ttlSeconds - m expiresAt - -
    exact ⟨fun hbudget => absurd hbudget (by decide), fun hbudget => absurd hbudget (by decide)⟩
  exact (values_read_old_or_new (.next (put [1, 2] 100 2) (.start rfl) ⟨hwhole, rfl⟩)).1
    (circumstances 150) "k" (by decide +kernel)

end TornSample

end VeilKnit.PrivateStorage
