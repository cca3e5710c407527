import VeilKnit.Library.Fallible
import VeilKnit.Library.Text
import VeilKnit.Types.UserInfo

/-!
# Application records

A user's main record announces the applications used of late and points to a directory of their
roots. A reader takes a record only if it has the expected version, a bounded number of canonical
names, and keys that parse.
-/

namespace VeilKnit.Types

open Library Library.Text

def appInfoRecordVersion : UInt16 := 1
def appDirectoryRecordVersion : UInt16 := 1
def publicMetadataMaxFutureSkewSecs : UInt64 := 120
def appDiscoveryActivityTtlSecs : UInt64 := 15552000

/-- Addition that stays at the largest value. -/
def saturatingAdd (a b : UInt64) : UInt64 :=
  UInt64.ofNat (min (a.toNat + b.toNat) 18446744073709551615)

theorem saturatingAdd_toNat (a b : UInt64) :
    (saturatingAdd a b).toNat = min (a.toNat + b.toNat) 18446744073709551615 := by
  rw [saturatingAdd, UInt64.toNat_ofNat_of_lt']
  exact lt_of_le_of_lt (min_le_right _ _) (by decide)

theorem le_max_left' (a b : UInt64) : a ≤ max a b := by
  change a ≤ if a ≤ b then b else a
  split
  case isTrue hle => exact hle
  case isFalse => exact UInt64.le_refl a

theorem le_max_right' (a b : UInt64) : b ≤ max a b := by
  change b ≤ if a ≤ b then b else a
  split
  case isTrue => exact UInt64.le_refl b
  case isFalse hle => exact UInt64.le_of_lt (UInt64.not_le.mp hle)

theorem min_le_left' (a b : UInt64) : min a b ≤ a := by
  change (if a ≤ b then a else b) ≤ a
  split
  case isTrue => exact UInt64.le_refl a
  case isFalse hle => exact UInt64.le_of_lt (UInt64.not_le.mp hle)

theorem min_eq_left' {a b : UInt64} (h : a ≤ b) : min a b = a := if_pos h

theorem max_one_ne_zero (generation : UInt64) : max generation 1 ≠ 0 := by
  change (if generation ≤ 1 then 1 else generation) ≠ 0
  split
  case isTrue => decide
  case isFalse hlarge =>
    rintro rfl
    exact hlarge (by decide)

/-- The latest time a record may carry. -/
def latestPlausible (now : UInt64) : UInt64 := saturatingAdd now publicMetadataMaxFutureSkewSecs

/-- Keys of records, and their texts. -/
structure RecordKeys (Key : Type) where
  text : Key → String
  parse : String → Option Key
  parse_text : ∀ key, parse (text key) = some key
  text_short : ∀ key, (text key).utf8ByteSize ≤ 256

inductive AppRecordError
  | network (e : NetworkDecodeError)
  | invalid (text : String)
  deriving DecidableEq

def isCanonicalApplicationId (id : String) : Bool :=
  id ≠ "" && decide (id.utf8ByteSize ≤ 256) && trim id = id &&
    id.toList = id.toList.map Char.toLower && ! id.toList.any isControl &&
    ! id.toList.any fun c => Utf8.isWhitespace c.toNat

/-- A short value is read back. -/
theorem decodeBincodeLimited_encode {α : Type} {codec : Codec α} {a : α}
    (nonempty : codec.encode a ≠ []) (short : (codec.encode a).length ≤ maxNetworkDhtValueBytes) :
    decodeBincodeLimited codec (codec.encode a) maxNetworkDhtValueBytes = .ok a := by
  have hsize : validateEnvelopeSize (codec.encode a) maxNetworkDhtValueBytes = .ok () := by
    unfold validateEnvelopeSize
    rw [if_neg (by simpa using nonempty), if_neg (not_lt.mpr short)]
  unfold decodeBincodeLimited
  rw [hsize]
  simp

def decodeLimited {α : Type} (codec : Codec α) (bytes : Bytes) : Except AppRecordError α :=
  (decodeBincodeLimited codec bytes maxNetworkDhtValueBytes).mapError .network

theorem decodeLimited_encode {α : Type} {codec : Codec α} {a : α} (nonempty : codec.encode a ≠ [])
    (short : (codec.encode a).length ≤ maxNetworkDhtValueBytes) :
    decodeLimited codec (codec.encode a) = .ok a := by
  rw [decodeLimited, decodeBincodeLimited_encode nonempty short]
  rfl

/-! ## Applications in use -/

structure AppInfo where
  flags : UInt64
  recordVersion : UInt16
  applicationIds : List String
  updatedAt : UInt64
  deriving DecidableEq

namespace AppInfo

def codec : Codec AppInfo :=
  (Codec.u64.pair <| Codec.u16.pair <| Codec.text.list.pair Codec.u64).imap
    (fun (flags, recordVersion, applicationIds, updatedAt) =>
      ⟨flags, recordVersion, applicationIds, updatedAt⟩)
    (fun info => (info.flags, info.recordVersion, info.applicationIds, info.updatedAt))
    (fun _ => rfl)

def timestampIsPlausibleAt (info : AppInfo) (now : UInt64) : Bool :=
  info.updatedAt ≤ latestPlausible now

end AppInfo

def decodeAppInfo (bytes : Bytes) : Except AppRecordError AppInfo := do
  let value ← decodeLimited AppInfo.codec bytes
  if value.recordVersion ≠ appInfoRecordVersion then
    throw <| .invalid <| "unsupported AppInfo record version " ++ toString value.recordVersion
  if value.applicationIds.length > 128 ||
      value.applicationIds.any fun id => ! isCanonicalApplicationId id then
    throw <| .invalid "AppInfo contains invalid or excessive application identifiers"
  pure value

/-! ## The pointer to the directory -/

structure AppDirectoryInfo where
  recordVersion : UInt16
  directoryDht : String
  generation : UInt64
  updatedAt : UInt64
  deriving DecidableEq

namespace AppDirectoryInfo

def codec : Codec AppDirectoryInfo :=
  (Codec.u16.pair <| Codec.text.pair <| Codec.u64.pair Codec.u64).imap
    (fun (recordVersion, directoryDht, generation, updatedAt) =>
      ⟨recordVersion, directoryDht, generation, updatedAt⟩)
    (fun info => (info.recordVersion, info.directoryDht, info.generation, info.updatedAt))
    (fun _ => rfl)

def new (directoryDht : String) (generation now : UInt64) : AppDirectoryInfo where
  recordVersion := appDirectoryRecordVersion
  directoryDht := directoryDht
  generation := max generation 1
  updatedAt := now

def timestampIsPlausibleAt (info : AppDirectoryInfo) (now : UInt64) : Bool :=
  info.updatedAt ≤ latestPlausible now

end AppDirectoryInfo

/-! ## The directory -/

structure AppDirectoryEntry where
  appId : String
  rootDht : String
  updatedAt : UInt64
  deriving DecidableEq

structure AppDirectoryManifest where
  recordVersion : UInt16
  generation : UInt64
  entries : List AppDirectoryEntry
  updatedAt : UInt64
  deriving DecidableEq

def AppDirectoryEntry.codec : Codec AppDirectoryEntry :=
  (Codec.text.pair <| Codec.text.pair Codec.u64).imap
    (fun (appId, rootDht, updatedAt) => ⟨appId, rootDht, updatedAt⟩)
    (fun entry => (entry.appId, entry.rootDht, entry.updatedAt)) (fun _ => rfl)

namespace AppDirectoryManifest

def codec : Codec AppDirectoryManifest :=
  (Codec.u16.pair <| Codec.u64.pair <| AppDirectoryEntry.codec.list.pair Codec.u64).imap
    (fun (recordVersion, generation, entries, updatedAt) =>
      ⟨recordVersion, generation, entries, updatedAt⟩)
    (fun manifest =>
      (manifest.recordVersion, manifest.generation, manifest.entries, manifest.updatedAt))
    (fun _ => rfl)

def empty (now : UInt64) : AppDirectoryManifest where
  recordVersion := appDirectoryRecordVersion
  generation := 1
  entries := []
  updatedAt := now

/-- The root that the first entry of an application gives. -/
def rootOf (manifest : AppDirectoryManifest) (appId : String) : Option String :=
  (manifest.entries.find? fun entry => entry.appId = appId).map (·.rootDht)

end AppDirectoryManifest

section Decoders

variable {Key : Type} (keys : RecordKeys Key)

def decodeAppDirectoryInfo (bytes : Bytes) : Except AppRecordError AppDirectoryInfo := do
  let value ← decodeLimited AppDirectoryInfo.codec bytes
  if value.recordVersion ≠ appDirectoryRecordVersion then
    throw <| .invalid <|
      "unsupported AppDirectoryInfo record version " ++ toString value.recordVersion
  if value.generation = 0 || (keys.parse value.directoryDht).isNone then
    throw <| .invalid "AppDirectoryInfo contains an invalid directory pointer"
  pure value

/-- Every entry is canonical, has a key that parses, and names an application not `seen`. -/
def entriesAreValid : List AppDirectoryEntry → List String → Bool
  | [], _ => true
  | entry :: entries, seen =>
    if ! isCanonicalApplicationId entry.appId || (keys.parse entry.rootDht).isNone ||
        seen.contains entry.appId then
      false
    else entriesAreValid entries (entry.appId :: seen)

def decodeAppDirectoryManifest (bytes : Bytes) : Except AppRecordError AppDirectoryManifest := do
  let value ← decodeLimited AppDirectoryManifest.codec bytes
  if value.recordVersion ≠ appDirectoryRecordVersion then
    throw <| .invalid <|
      "unsupported AppDirectoryManifest record version " ++ toString value.recordVersion
  if value.generation = 0 || decide (value.entries.length > 128) then
    throw <| .invalid "AppDirectoryManifest has an invalid generation or too many entries"
  if ! entriesAreValid keys value.entries [] then
    throw <| .invalid "AppDirectoryManifest contains an invalid or duplicate entry"
  pure value

/-! ## What the decoders accept -/

theorem entriesAreValid_iff {entries : List AppDirectoryEntry} {seen : List String} :
    entriesAreValid keys entries seen ↔
      (∀ entry ∈ entries, isCanonicalApplicationId entry.appId ∧
        (keys.parse entry.rootDht).isSome ∧ entry.appId ∉ seen) ∧
      (entries.map (·.appId)).Nodup := by
  induction entries generalizing seen with
  | nil => simp [entriesAreValid]
  | cons entry entries ih =>
    rw [entriesAreValid]
    split
    case isTrue hbad =>
      simp only [Bool.false_eq_true, false_iff, not_and]
      intro hall
      obtain ⟨hid, hroot, hnew⟩ := hall entry List.mem_cons_self
      simp [hid, hnew, Option.isSome_iff_ne_none.mp hroot] at hbad
    case isFalse hgood =>
    simp only [Bool.or_eq_true, Bool.not_eq_true', Option.isNone_iff_eq_none,
      List.contains_iff_mem, not_or, Bool.not_eq_false] at hgood
    obtain ⟨⟨hid, hroot⟩, hnew⟩ := hgood
    rw [ih, List.map_cons, List.nodup_cons, List.forall_mem_cons]
    simp only [List.mem_cons, not_or, List.mem_map]
    constructor
    · rintro ⟨hall, hnodup⟩
      refine ⟨⟨⟨hid, Option.isSome_iff_ne_none.mpr hroot, hnew⟩, fun e he => ?_⟩, ?_, hnodup⟩
      · exact ⟨(hall e he).1, (hall e he).2.1, (hall e he).2.2.2⟩
      · rintro ⟨e, he, hsame⟩
        exact (hall e he).2.2.1 hsame
    · rintro ⟨⟨-, hall⟩, hfirst, hnodup⟩
      refine ⟨fun e he => ?_, hnodup⟩
      obtain ⟨heid, heroot, henew⟩ := hall e he
      exact ⟨heid, heroot, fun hsame => hfirst ⟨e, he, hsame⟩, henew⟩

/-- A manifest as its reader wants it. -/
structure AppDirectoryManifest.Valid (manifest : AppDirectoryManifest) : Prop where
  version : manifest.recordVersion = appDirectoryRecordVersion
  generation : manifest.generation ≠ 0
  bounded : manifest.entries.length ≤ 128
  canonical : ∀ entry ∈ manifest.entries, isCanonicalApplicationId entry.appId
  parsed : ∀ entry ∈ manifest.entries, (keys.parse entry.rootDht).isSome
  distinct : (manifest.entries.map (·.appId)).Nodup

variable {manifest : AppDirectoryManifest}

theorem AppDirectoryManifest.Valid.entries_valid
    (h : manifest.Valid keys) : entriesAreValid keys manifest.entries [] := by
  rw [entriesAreValid_iff]
  exact ⟨fun entry hentry => ⟨h.canonical entry hentry, h.parsed entry hentry,
    List.not_mem_nil⟩, h.distinct⟩

theorem decodeAppDirectoryManifest_ok {bytes : Bytes}
    (h : decodeAppDirectoryManifest keys bytes = .ok manifest) : manifest.Valid keys := by
  obtain ⟨value, -, h⟩ := except_bind_eq_ok.mp h
  obtain ⟨hversion, h⟩ := except_passed_of_ok h
  obtain ⟨hhead, h⟩ := except_passed_of_ok h
  obtain ⟨hentries, h⟩ := except_passed_of_ok h
  obtain rfl : value = manifest := Except.ok.inj h
  have hvalid : entriesAreValid keys value.entries [] := by simpa using hentries
  obtain ⟨hall, hdistinct⟩ := (entriesAreValid_iff keys).mp hvalid
  have hgeneration : value.generation ≠ 0 ∧ value.entries.length ≤ 128 := by simpa using hhead
  exact ⟨not_ne_iff.mp hversion, hgeneration.1, hgeneration.2, fun e he => (hall e he).1,
    fun e he => (hall e he).2.1, hdistinct⟩

theorem AppDirectoryManifest.encode_ne_nil (manifest : AppDirectoryManifest) :
    codec.encode manifest ≠ [] := by
  intro hnil
  have hlength := congrArg List.length hnil
  have hversion : (Codec.u16.encode manifest.recordVersion).length = 2 := Codec.leBytes_length _ _
  simp [codec, Codec.imap, Codec.pair, hversion] at hlength

/-- What is written is read back. -/
theorem decodeAppDirectoryManifest_encode (h : manifest.Valid keys)
    (short : (AppDirectoryManifest.codec.encode manifest).length ≤ maxNetworkDhtValueBytes) :
    decodeAppDirectoryManifest keys (AppDirectoryManifest.codec.encode manifest) =
      .ok manifest := by
  unfold decodeAppDirectoryManifest
  rw [decodeLimited_encode manifest.encode_ne_nil short]
  have hhead : ¬ (decide (manifest.generation = 0) ||
      decide (manifest.entries.length > 128)) = true := by
    simpa using ⟨h.generation, h.bounded⟩
  simp [bind, Except.bind, h.version, hhead, h.entries_valid, pure, Except.pure]

theorem AppDirectoryInfo.encode_length (info : AppDirectoryInfo)
    (short : info.directoryDht.utf8ByteSize ≤ 256) :
    (codec.encode info).length = 26 + info.directoryDht.utf8ByteSize := by
  have hversion : (Codec.u16.encode info.recordVersion).length = 2 := Codec.leBytes_length _ _
  have hgeneration : (Codec.u64.encode info.generation).length = 8 := Codec.leBytes_length _ _
  have hupdated : (Codec.u64.encode info.updatedAt).length = 8 := Codec.leBytes_length _ _
  have htext : (Codec.text.encode info.directoryDht).length = 8 + info.directoryDht.utf8ByteSize :=
    Codec.text_encode_length (lt_of_le_of_lt short (by decide))
  simp only [codec, Codec.imap, Codec.pair, List.length_append, hversion, hgeneration, hupdated,
    htext]
  omega

/-- A fresh pointer is read back. -/
theorem decodeAppDirectoryInfo_encode (directory : Key) (generation now : UInt64) :
    decodeAppDirectoryInfo keys
        (AppDirectoryInfo.codec.encode (.new (keys.text directory) generation now)) =
      .ok (.new (keys.text directory) generation now) := by
  have hlength := AppDirectoryInfo.encode_length
    (.new (keys.text directory) generation now) (keys.text_short directory)
  have htext : (AppDirectoryInfo.new (keys.text directory) generation now).directoryDht =
      keys.text directory := rfl
  have hshort := keys.text_short directory
  have hnonempty : AppDirectoryInfo.codec.encode (.new (keys.text directory) generation now) ≠
      [] := by
    intro hnil
    rw [hnil, List.length_nil] at hlength
    omega
  unfold decodeAppDirectoryInfo
  rw [decodeLimited_encode hnonempty (by
    rw [hlength, htext]
    exact le_trans (Nat.add_le_add_left hshort 26) (by decide))]
  simp [bind, Except.bind, AppDirectoryInfo.new, max_one_ne_zero, keys.parse_text, pure,
    Except.pure]

end Decoders

end VeilKnit.Types
