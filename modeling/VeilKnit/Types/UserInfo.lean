import VeilKnit.Library.Codec

/-!
# Presence records

The record of a user's presence has had three layouts, none of which says which one it is. A
reader tries them from the newest to the oldest and takes the first one that gives a plausible
record.
-/

namespace VeilKnit.Types

open Library

/-! ## Bounded decoding -/

inductive NetworkDecodeError
  | emptyEnvelope
  | envelopeTooLarge (actual maximum : Nat)
  | decode
  deriving DecidableEq

def maxNetworkDhtValueBytes : Nat := 65536

def validateEnvelopeSize (bytes : Bytes) (maximum : Nat) : Except NetworkDecodeError Unit :=
  if bytes.isEmpty then .error .emptyEnvelope
  else if bytes.length > maximum then .error (.envelopeTooLarge bytes.length maximum)
  else .ok ()

def decodeBincodeLimited {α : Type} (codec : Codec α) (bytes : Bytes) (maximum : Nat) :
    Except NetworkDecodeError α :=
  match validateEnvelopeSize bytes maximum with
  | .error e => .error e
  | .ok () =>
    match codec.decodeAll bytes with
    | some value => .ok value
    | none => .error .decode

/-! ## The three layouts -/

def userInfoRecordVersion : UInt16 := 3

structure UserInfo where
  userStatus : Bool
  version : UInt8
  lastOnline : UInt64
  accountCreatedAt : UInt64
  recordVersion : UInt16
  lastLogin : UInt64
  onlineSince : Option UInt64
  lastLogout : Option UInt64
  statusUpdatedAt : UInt64
  deriving DecidableEq

structure LegacyUserInfoV2 where
  userStatus : Bool
  version : UInt8
  lastOnline : UInt64
  recordVersion : UInt16
  lastLogin : UInt64
  onlineSince : Option UInt64
  lastLogout : Option UInt64
  statusUpdatedAt : UInt64
  deriving DecidableEq

structure LegacyUserInfoV1 where
  userStatus : Bool
  version : UInt8
  lastOnline : UInt64
  deriving DecidableEq

namespace UserInfo

def codec : Codec UserInfo :=
  (Codec.bool.pair <| Codec.u8.pair <| Codec.u64.pair <| Codec.u64.pair <| Codec.u16.pair <|
    Codec.u64.pair <| Codec.u64.option.pair <| Codec.u64.option.pair Codec.u64).imap
    (fun (userStatus, version, lastOnline, accountCreatedAt, recordVersion, lastLogin, onlineSince,
        lastLogout, statusUpdatedAt) =>
      ⟨userStatus, version, lastOnline, accountCreatedAt, recordVersion, lastLogin, onlineSince,
        lastLogout, statusUpdatedAt⟩)
    (fun info => (info.userStatus, info.version, info.lastOnline, info.accountCreatedAt,
      info.recordVersion, info.lastLogin, info.onlineSince, info.lastLogout, info.statusUpdatedAt))
    (fun _ => rfl)

def serialize (info : UserInfo) : Bytes := codec.encode info

end UserInfo

namespace LegacyUserInfoV2

def codec : Codec LegacyUserInfoV2 :=
  (Codec.bool.pair <| Codec.u8.pair <| Codec.u64.pair <| Codec.u16.pair <| Codec.u64.pair <|
    Codec.u64.option.pair <| Codec.u64.option.pair Codec.u64).imap
    (fun (userStatus, version, lastOnline, recordVersion, lastLogin, onlineSince, lastLogout,
        statusUpdatedAt) =>
      ⟨userStatus, version, lastOnline, recordVersion, lastLogin, onlineSince, lastLogout,
        statusUpdatedAt⟩)
    (fun info => (info.userStatus, info.version, info.lastOnline, info.recordVersion,
      info.lastLogin, info.onlineSince, info.lastLogout, info.statusUpdatedAt))
    (fun _ => rfl)

def serialize (info : LegacyUserInfoV2) : Bytes := codec.encode info

/-- What a record of the second layout is read as. -/
def toUserInfo (legacy : LegacyUserInfoV2) : UserInfo where
  userStatus := legacy.userStatus
  version := legacy.version
  lastOnline := legacy.lastOnline
  accountCreatedAt := 0
  recordVersion := legacy.recordVersion
  lastLogin := legacy.lastLogin
  onlineSince := legacy.onlineSince
  lastLogout := legacy.lastLogout
  statusUpdatedAt := legacy.statusUpdatedAt

end LegacyUserInfoV2

namespace LegacyUserInfoV1

def codec : Codec LegacyUserInfoV1 :=
  (Codec.bool.pair <| Codec.u8.pair Codec.u64).imap
    (fun (userStatus, version, lastOnline) => ⟨userStatus, version, lastOnline⟩)
    (fun info => (info.userStatus, info.version, info.lastOnline)) (fun _ => rfl)

def serialize (info : LegacyUserInfoV1) : Bytes := codec.encode info

/-- What a record of the first layout is read as. -/
def toUserInfo (legacy : LegacyUserInfoV1) : UserInfo where
  userStatus := legacy.userStatus
  version := legacy.version
  lastOnline := legacy.lastOnline
  accountCreatedAt := 0
  recordVersion := 1
  lastLogin := legacy.lastOnline
  onlineSince := if legacy.userStatus then some legacy.lastOnline else none
  lastLogout := if legacy.userStatus then none else some legacy.lastOnline
  statusUpdatedAt := legacy.lastOnline

end LegacyUserInfoV1

def userInfoV3IsStructurallyValid (value : UserInfo) : Bool :=
  decide (value.recordVersion = userInfoRecordVersion) &&
    decide (0 < value.accountCreatedAt) &&
    decide (value.accountCreatedAt ≤ value.lastLogin) &&
    decide (value.lastLogin ≤ value.statusUpdatedAt) &&
    decide (value.lastOnline ≤ value.statusUpdatedAt) &&
    value.onlineSince.all (fun timestamp => decide (timestamp ≤ value.statusUpdatedAt)) &&
    value.lastLogout.all (fun timestamp => decide (timestamp ≤ value.statusUpdatedAt))

def userInfoV2IsStructurallyValid (value : LegacyUserInfoV2) : Bool :=
  decide (value.recordVersion = 2) &&
    decide (value.lastLogin ≤ value.statusUpdatedAt) &&
    decide (value.lastOnline ≤ value.statusUpdatedAt) &&
    value.onlineSince.all (fun timestamp => decide (timestamp ≤ value.statusUpdatedAt)) &&
    value.lastLogout.all (fun timestamp => decide (timestamp ≤ value.statusUpdatedAt))

def decodeUserInfo (bytes : Bytes) : Except NetworkDecodeError UserInfo :=
  let current := (decodeBincodeLimited UserInfo.codec bytes maxNetworkDhtValueBytes).toOption.filter
    userInfoV3IsStructurallyValid
  let legacyV2 := (decodeBincodeLimited LegacyUserInfoV2.codec bytes
    maxNetworkDhtValueBytes).toOption.filter userInfoV2IsStructurallyValid
  match current, legacyV2 with
  | some value, _ => .ok value
  | none, some legacy => .ok legacy.toUserInfo
  | none, none =>
    (decodeBincodeLimited LegacyUserInfoV1.codec bytes maxNetworkDhtValueBytes).map
      LegacyUserInfoV1.toUserInfo

/-! ## Reading one layout as another -/

section Layouts

variable {α : Type} {codec : Codec α} {bytes rest : Bytes} {value : α}

theorem decodeAll_eq_some : codec.decodeAll bytes = some value ↔
    codec.decode bytes = some (value, []) := by
  unfold Codec.decodeAll
  cases codec.decode bytes with
  | none => simp
  | some read =>
    obtain ⟨a, rest⟩ := read
    cases rest with
    | nil => simp
    | cons byte rest => simp

/-- A short byte string is decoded as its layout says. -/
theorem decodeBincodeLimited_toOption (nonempty : bytes ≠ [])
    (short : bytes.length ≤ maxNetworkDhtValueBytes) :
    (decodeBincodeLimited codec bytes maxNetworkDhtValueBytes).toOption = codec.decodeAll bytes := by
  have hsize : validateEnvelopeSize bytes maxNetworkDhtValueBytes = .ok () := by
    unfold validateEnvelopeSize
    rw [if_neg (by simpa using nonempty), if_neg (not_lt.mpr short)]
  unfold decodeBincodeLimited
  rw [hsize]
  cases codec.decodeAll bytes <;> rfl

theorem decodeBincodeLimited_ok
    (h : decodeBincodeLimited codec bytes maxNetworkDhtValueBytes = .ok value) :
    codec.decode bytes = some (value, []) := by
  unfold decodeBincodeLimited at h
  split at h
  · cases h
  · split at h
    case h_1 read hread =>
      cases h
      exact decodeAll_eq_some.mp hread
    case h_2 => cases h

end Layouts

/-- The first three fields, which all layouts share. -/
def header (userStatus : Bool) (version : UInt8) (lastOnline : UInt64) : Bytes :=
  Codec.bool.encode userStatus ++ (Codec.u8.encode version ++ Codec.u64.encode lastOnline)

theorem header_length (userStatus : Bool) (version : UInt8) (lastOnline : UInt64) :
    (header userStatus version lastOnline).length = 10 := by
  have hu8 : (Codec.u8.encode version).length = 1 := Codec.leBytes_length _ _
  have hu64 : (Codec.u64.encode lastOnline).length = 8 := Codec.leBytes_length _ _
  simp [header, Codec.bool, hu8, hu64]

variable {userStatus : Bool} {version : UInt8} {lastOnline : UInt64} {tail rest : Bytes}

/-- A reader of the shared fields and something else reads them off a header. -/
theorem decode_header {β : Type} {codec : Codec β} {value : Bool × UInt8 × UInt64 × β}
    (h : (Codec.bool.pair (Codec.u8.pair (Codec.u64.pair codec))).decode
      (header userStatus version lastOnline ++ tail) = some (value, rest)) :
    codec.decode tail = some (value.2.2.2, rest) := by
  obtain ⟨after, hbool, h⟩ := Codec.pair_decode_eq_some.mp h
  obtain ⟨after', hu8, h⟩ := Codec.pair_decode_eq_some.mp h
  obtain ⟨after'', hu64, h⟩ := Codec.pair_decode_eq_some.mp h
  rw [header, List.append_assoc, Codec.decode_encode] at hbool
  obtain ⟨-, rfl⟩ := Prod.mk.inj (Option.some.inj hbool)
  rw [List.append_assoc, Codec.decode_encode] at hu8
  obtain ⟨-, rfl⟩ := Prod.mk.inj (Option.some.inj hu8)
  rw [Codec.decode_encode] at hu64
  obtain ⟨-, rfl⟩ := Prod.mk.inj (Option.some.inj hu64)
  exact h

theorem serialize_v1 (info : LegacyUserInfoV1) :
    info.serialize = header info.userStatus info.version info.lastOnline ++ [] := by
  rw [List.append_nil]
  rfl

/-- What follows the login time in the layouts that have one. -/
def times (onlineSince lastLogout : Option UInt64) (statusUpdatedAt : UInt64) : Bytes :=
  (Codec.u64.option.pair (Codec.u64.option.pair Codec.u64)).encode
    (onlineSince, lastLogout, statusUpdatedAt)

theorem times_length_le (onlineSince lastLogout : Option UInt64) (statusUpdatedAt : UInt64) :
    (times onlineSince lastLogout statusUpdatedAt).length ≤ 26 := by
  have hu64 : ∀ time : UInt64, (Codec.u64.encode time).length = 8 := Codec.u64_hasLength
  have honline := Codec.option_encode_length_le Codec.u64 8 onlineSince fun time _ => (hu64 time).le
  have hlogout := Codec.option_encode_length_le Codec.u64 8 lastLogout fun time _ => (hu64 time).le
  simp only [times, Codec.pair, List.length_append, hu64]
  omega

theorem serialize_v2 (info : LegacyUserInfoV2) :
    info.serialize = header info.userStatus info.version info.lastOnline ++
      (Codec.u16.encode info.recordVersion ++ (Codec.u64.encode info.lastLogin ++
        times info.onlineSince info.lastLogout info.statusUpdatedAt)) := by
  simp only [header, List.append_assoc]
  rfl

theorem serialize_v3 (info : UserInfo) :
    info.serialize = header info.userStatus info.version info.lastOnline ++
      (Codec.u64.encode info.accountCreatedAt ++ (Codec.u16.encode info.recordVersion ++
        (Codec.u64.encode info.lastLogin ++
          times info.onlineSince info.lastLogout info.statusUpdatedAt))) := by
  simp only [header, List.append_assoc]
  rfl

theorem u64_decode_append {front : Bytes} (h : front.length = 8) :
    Codec.u64.decode (front ++ rest) = some (UInt64.ofNat (Codec.leValue front), rest) := by
  have hlength : ¬ (front ++ rest).length < 8 := by
    rw [List.length_append, h]
    omega
  change (if _ then none else some _) = _
  rw [if_neg hlength, List.take_left' h, List.drop_left' h]

/-- Where the login time of a record of the second layout is small, the newest layout finds the
record version 0 in its upper bytes. -/
theorem decode_v3_of_v2 {info : LegacyUserInfoV2} (small : info.lastLogin.toNat < 2 ^ 48)
    {value : UserInfo} (h : UserInfo.codec.decode info.serialize = some (value, [])) :
    value.recordVersion = 0 := by
  obtain ⟨⟨fields, rest⟩, hdecode, hvalue⟩ := Option.map_eq_some_iff.mp h
  cases hvalue
  rw [serialize_v2] at hdecode
  have hafter := decode_header hdecode
  obtain ⟨after, hcreated, hafter⟩ := Codec.pair_decode_eq_some.mp hafter
  obtain ⟨after', hversion, -⟩ := Codec.pair_decode_eq_some.mp hafter
  have hlogin : Codec.u64.encode info.lastLogin =
      Codec.leBytes 6 info.lastLogin.toNat ++ Codec.u16.encode 0 := by
    have hsplit := Codec.leBytes_add 6 2 info.lastLogin.toNat
    rw [Nat.div_eq_of_lt (by simpa using small)] at hsplit
    exact hsplit
  have hbytes : Codec.u16.encode info.recordVersion ++ (Codec.u64.encode info.lastLogin ++
      times info.onlineSince info.lastLogout info.statusUpdatedAt) =
        (Codec.u16.encode info.recordVersion ++ Codec.leBytes 6 info.lastLogin.toNat) ++
          (Codec.u16.encode 0 ++ times info.onlineSince info.lastLogout info.statusUpdatedAt) := by
    rw [hlogin]
    simp only [List.append_assoc]
  rw [hbytes, u64_decode_append] at hcreated
  · obtain ⟨-, rfl⟩ := Prod.mk.inj (Option.some.inj hcreated)
    rw [Codec.decode_encode] at hversion
    exact (Prod.mk.inj (Option.some.inj hversion)).1.symm
  · rw [List.length_append, Codec.u16_hasLength, Codec.leBytes_length]

/-- A record of the first layout is too short for the others. -/
theorem decode_v3_of_v1 (info : LegacyUserInfoV1) : UserInfo.codec.decode info.serialize = none := by
  rw [Option.eq_none_iff_forall_ne_some]
  rintro ⟨value, rest⟩ h
  obtain ⟨⟨fields, rest'⟩, hdecode, -⟩ := Option.map_eq_some_iff.mp h
  rw [serialize_v1] at hdecode
  obtain ⟨after, hcreated, -⟩ := Codec.pair_decode_eq_some.mp (decode_header hdecode)
  cases hcreated

theorem decode_v2_of_v1 (info : LegacyUserInfoV1) :
    LegacyUserInfoV2.codec.decode info.serialize = none := by
  rw [Option.eq_none_iff_forall_ne_some]
  rintro ⟨value, rest⟩ h
  obtain ⟨⟨fields, rest'⟩, hdecode, -⟩ := Option.map_eq_some_iff.mp h
  rw [serialize_v1] at hdecode
  obtain ⟨after, hversion, -⟩ := Codec.pair_decode_eq_some.mp (decode_header hdecode)
  cases hversion

/-- Whatever is longer than a record of the first layout is not read as one. -/
theorem decode_v1_of_longer (longer : tail ≠ []) {value : LegacyUserInfoV1} :
    LegacyUserInfoV1.codec.decode (header userStatus version lastOnline ++ tail) ≠
      some (value, []) := by
  intro h
  obtain ⟨⟨fields, rest⟩, hdecode, hvalue⟩ := Option.map_eq_some_iff.mp h
  obtain ⟨-, rfl⟩ := Prod.mk.inj hvalue
  obtain ⟨after, hbool, hdecode⟩ := Codec.pair_decode_eq_some.mp hdecode
  obtain ⟨after', hu8, hu64⟩ := Codec.pair_decode_eq_some.mp hdecode
  rw [header, List.append_assoc, Codec.decode_encode] at hbool
  obtain ⟨-, rfl⟩ := Prod.mk.inj (Option.some.inj hbool)
  rw [List.append_assoc, Codec.decode_encode] at hu8
  obtain ⟨-, rfl⟩ := Prod.mk.inj (Option.some.inj hu8)
  rw [Codec.decode_encode] at hu64
  exact longer (Prod.mk.inj (Option.some.inj hu64)).2

/-! ## Reading the layouts -/

section Reading

variable {bytes : Bytes} {info : UserInfo}

/-- Every record fits a value of the network. -/
theorem header_append_fits {userStatus : Bool} {version : UInt8} {lastOnline : UInt64}
    {tail : Bytes} (h : tail.length ≤ 100) :
    header userStatus version lastOnline ++ tail ≠ [] ∧
      (header userStatus version lastOnline ++ tail).length ≤ maxNetworkDhtValueBytes := by
  have hlength : (header userStatus version lastOnline ++ tail).length = 10 + tail.length := by
    rw [List.length_append, header_length]
  refine ⟨fun hnil => ?_, ?_⟩
  · rw [hnil, List.length_nil] at hlength
    omega
  · rw [hlength, maxNetworkDhtValueBytes]
    omega

theorem serialize_v2_fits (legacy : LegacyUserInfoV2) :
    legacy.serialize ≠ [] ∧ legacy.serialize.length ≤ maxNetworkDhtValueBytes := by
  have htimes := times_length_le legacy.onlineSince legacy.lastLogout legacy.statusUpdatedAt
  rw [serialize_v2]
  refine header_append_fits ?_
  rw [List.length_append, List.length_append, Codec.u16_hasLength, Codec.u64_hasLength]
  omega

theorem serialize_v3_fits (info : UserInfo) :
    info.serialize ≠ [] ∧ info.serialize.length ≤ maxNetworkDhtValueBytes := by
  have htimes := times_length_le info.onlineSince info.lastLogout info.statusUpdatedAt
  rw [serialize_v3]
  refine header_append_fits ?_
  rw [List.length_append, List.length_append, List.length_append, Codec.u16_hasLength,
    Codec.u64_hasLength, Codec.u64_hasLength]
  omega

/-- A plausible record of the newest layout is read as it was written. -/
theorem decodeUserInfo_v3 (valid : userInfoV3IsStructurallyValid info = true) :
    decodeUserInfo info.serialize = .ok info := by
  obtain ⟨hnonempty, hshort⟩ := serialize_v3_fits info
  have hread : UserInfo.codec.decodeAll info.serialize = some info := Codec.decodeAll_encode _ _
  unfold decodeUserInfo
  rw [decodeBincodeLimited_toOption hnonempty hshort, hread, Option.filter_some_pos valid]

/-- A record of the second layout that the newest one gives another record version is read as
the second layout says, if it is plausible, and not at all otherwise. -/
theorem decodeUserInfo_v2 {legacy : LegacyUserInfoV2} (small : legacy.lastLogin.toNat < 2 ^ 48) :
    decodeUserInfo legacy.serialize =
      if userInfoV2IsStructurallyValid legacy then .ok legacy.toUserInfo else .error .decode := by
  obtain ⟨hnonempty, hshort⟩ := serialize_v2_fits legacy
  have hread : LegacyUserInfoV2.codec.decodeAll legacy.serialize = some legacy :=
    Codec.decodeAll_encode _ _
  have hnewest : (UserInfo.codec.decodeAll legacy.serialize).filter
      userInfoV3IsStructurallyValid = none := by
    cases hvalue : UserInfo.codec.decodeAll legacy.serialize with
    | none => rfl
    | some value =>
      have hversion := decode_v3_of_v2 small (decodeAll_eq_some.mp hvalue)
      refine Option.filter_some_neg ?_
      simp [userInfoV3IsStructurallyValid, hversion, userInfoRecordVersion]
  have holdest : LegacyUserInfoV1.codec.decodeAll legacy.serialize = none := by
    rw [Option.eq_none_iff_forall_ne_some]
    intro value h
    refine decode_v1_of_longer ?_ (by rw [← serialize_v2]; exact decodeAll_eq_some.mp h)
    intro hnil
    have hlength := congrArg List.length hnil
    rw [List.length_append, Codec.u16_hasLength] at hlength
    simp at hlength
  unfold decodeUserInfo
  rw [decodeBincodeLimited_toOption hnonempty hshort,
    decodeBincodeLimited_toOption hnonempty hshort, hread, hnewest]
  by_cases hvalid : userInfoV2IsStructurallyValid legacy
  case pos => rw [Option.filter_some_pos hvalid, if_pos hvalid]
  case neg =>
  have hfails : decodeBincodeLimited LegacyUserInfoV1.codec legacy.serialize
      maxNetworkDhtValueBytes = .error .decode := by
    unfold decodeBincodeLimited validateEnvelopeSize
    rw [if_neg (by simpa using hnonempty), if_neg (not_lt.mpr hshort)]
    rw [holdest]
  rw [Option.filter_some_neg (Bool.eq_false_iff.mpr hvalid), if_neg hvalid, hfails]
  rfl

theorem decodeUserInfo_v1 (legacy : LegacyUserInfoV1) :
    decodeUserInfo legacy.serialize = .ok legacy.toUserInfo := by
  have hfits : legacy.serialize ≠ [] ∧ legacy.serialize.length ≤ maxNetworkDhtValueBytes := by
    rw [serialize_v1]
    exact header_append_fits (by simp)
  obtain ⟨hnonempty, hshort⟩ := hfits
  have hnewest : UserInfo.codec.decodeAll legacy.serialize = none := by
    unfold Codec.decodeAll
    rw [decode_v3_of_v1]
  have hsecond : LegacyUserInfoV2.codec.decodeAll legacy.serialize = none := by
    unfold Codec.decodeAll
    rw [decode_v2_of_v1]
  have hread : decodeBincodeLimited LegacyUserInfoV1.codec legacy.serialize
      maxNetworkDhtValueBytes = .ok legacy := by
    unfold decodeBincodeLimited validateEnvelopeSize
    rw [if_neg (by simpa using hnonempty), if_neg (not_lt.mpr hshort)]
    rw [LegacyUserInfoV1.serialize, Codec.decodeAll_encode]
  unfold decodeUserInfo
  rw [decodeBincodeLimited_toOption hnonempty hshort,
    decodeBincodeLimited_toOption hnonempty hshort, hnewest, hsecond, hread]
  rfl

/-- A record of the newest layout, plausible or not, is never read as one of the first. -/
theorem recordVersion_of_v3 {read : UserInfo} (h : decodeUserInfo info.serialize = .ok read) :
    read.recordVersion = 3 ∨ read.recordVersion = 2 := by
  unfold decodeUserInfo at h
  dsimp only at h
  split at h
  case h_1 value _ hvalue =>
    cases h
    have hvalid := (Option.filter_eq_some_iff.mp hvalue).2
    simp only [userInfoV3IsStructurallyValid, Bool.and_eq_true, decide_eq_true_eq] at hvalid
    exact .inl hvalid.1.1.1.1.1.1
  case h_2 legacy _ hlegacy =>
    cases h
    have hvalid := (Option.filter_eq_some_iff.mp hlegacy).2
    simp only [userInfoV2IsStructurallyValid, Bool.and_eq_true, decide_eq_true_eq] at hvalid
    exact .inr hvalid.1.1.1.1
  case h_3 =>
  exfalso
  cases hread : decodeBincodeLimited LegacyUserInfoV1.codec info.serialize
      maxNetworkDhtValueBytes with
  | error e => simp [hread, Except.map] at h
  | ok value =>
    refine decode_v1_of_longer ?_ (by rw [← serialize_v3]; exact decodeBincodeLimited_ok hread)
    intro hnil
    have hlength := congrArg List.length hnil
    rw [List.length_append, Codec.u64_hasLength] at hlength
    simp at hlength

end Reading

/-- Plausible records of every layout are read as what they say, and no record is read as one of
another layout: of the newest one if it is plausible, of the second one if its login time is
below 2^48. -/
theorem decode_user_info_serialized :
    (∀ info : UserInfo, userInfoV3IsStructurallyValid info = true →
      decodeUserInfo info.serialize = .ok info) ∧
    (∀ legacy : LegacyUserInfoV2, legacy.lastLogin.toNat < 2 ^ 48 →
      userInfoV2IsStructurallyValid legacy = true →
        decodeUserInfo legacy.serialize = .ok legacy.toUserInfo) ∧
    (∀ legacy : LegacyUserInfoV1, decodeUserInfo legacy.serialize = .ok legacy.toUserInfo) ∧
    (∀ info read : UserInfo, decodeUserInfo info.serialize = .ok read → read.recordVersion ≠ 1 ∧
        (userInfoV3IsStructurallyValid info = true → read.recordVersion = 3)) ∧
    (∀ (legacy : LegacyUserInfoV2) (read : UserInfo), legacy.lastLogin.toNat < 2 ^ 48 →
      decodeUserInfo legacy.serialize = .ok read → read.recordVersion = 2) ∧
    (∀ (legacy : LegacyUserInfoV1) (read : UserInfo),
      decodeUserInfo legacy.serialize = .ok read → read.recordVersion = 1) := by
  refine ⟨fun info valid => decodeUserInfo_v3 valid, fun legacy small valid => ?_,
    decodeUserInfo_v1, fun info read hread => ⟨?_, fun valid => ?_⟩, fun legacy read small hread => ?_,
    fun legacy read hread => ?_⟩
  · rw [decodeUserInfo_v2 small, if_pos valid]
  · rcases recordVersion_of_v3 hread with h | h <;> rw [h] <;> decide
  · rw [decodeUserInfo_v3 valid] at hread
    cases hread
    simp only [userInfoV3IsStructurallyValid, Bool.and_eq_true, decide_eq_true_eq] at valid
    exact valid.1.1.1.1.1.1
  · rw [decodeUserInfo_v2 small] at hread
    split at hread
    case isTrue valid =>
      cases hread
      simp only [userInfoV2IsStructurallyValid, Bool.and_eq_true, decide_eq_true_eq] at valid
      exact valid.1.1.1.1
    case isFalse => cases hread
  · rw [decodeUserInfo_v1] at hread
    cases hread
    rfl

namespace Sample

def legacyV2 : LegacyUserInfoV2 where
  userStatus := true
  version := 1
  lastOnline := 100
  recordVersion := 2
  lastLogin := 90
  onlineSince := some 90
  lastLogout := none
  statusUpdatedAt := 100

theorem legacyV2_read : decodeUserInfo legacyV2.serialize = .ok legacyV2.toUserInfo :=
  decode_user_info_serialized.2.1 legacyV2 (by decide) (by decide)

end Sample

end VeilKnit.Types
