import Mathlib.Data.Finset.Insert
import VeilKnit.Library.AssociationList
import VeilKnit.Library.LabelledSystem
import VeilKnit.Types.AppRecords

/-!
# Identities of local applications

The host keeps a registration and a secret for each local application, in memory and in an
encrypted file. An application proves that it has the secret by answering a challenge, and gets a
session with the capabilities it has asked for.

Every operation holds one lock from its first look at the state to its last, so the calls of a run
come one after the other. An operation reads the clock before it takes the lock: the clock values
of a run come in any order. `begin_app_auth` reads the granted capabilities in a critical section
of its own and then asks for them, so in a run it is `begin` with some capabilities.

The message authentication code is a parameter, and its values are compared as a whole.
-/

namespace VeilKnit.Identity

open Library Types

abbrev AppId := String

def identityStoreVersion : UInt32 := 1
def challengeTtlSecs : UInt64 := 30
def sessionTtlSecs : UInt64 := 43200
def maxPendingChallenges : Nat := 4096
def maxActiveSessions : Nat := 4096
def proofDomain : Bytes := "veilknit/app-auth/v2".toUTF8.data.toList

abbrev AppSecret := { bytes : Bytes // bytes.length = 32 }
abbrev Nonce := { bytes : Bytes // bytes.length = 32 }
abbrev AppSessionToken := { bytes : Bytes // bytes.length = 32 }
abbrev AppSessionId := { bytes : Bytes // bytes.length = 16 }

/-! ## Capabilities -/

inductive AppCapability
  | sendMessages | receiveMessages | manageOwnStorage | readOwnStorage | readPublicProfiles
  | subscribeNetworkStatus | submitReputation | requestAppScopedRestriction
  | inspectOwnReputationSubmissions | signAppData | inspectNodes | inspectReputation | modifyBans
  | retractAppReputation | inspectDht | controlWalker | manageApplications
  deriving DecidableEq

namespace AppCapability

/-- The name that debug formatting prints. -/
def name : AppCapability → String
  | sendMessages => "SendMessages"
  | receiveMessages => "ReceiveMessages"
  | manageOwnStorage => "ManageOwnStorage"
  | readOwnStorage => "ReadOwnStorage"
  | readPublicProfiles => "ReadPublicProfiles"
  | subscribeNetworkStatus => "SubscribeNetworkStatus"
  | submitReputation => "SubmitReputation"
  | requestAppScopedRestriction => "RequestAppScopedRestriction"
  | inspectOwnReputationSubmissions => "InspectOwnReputationSubmissions"
  | signAppData => "SignAppData"
  | inspectNodes => "InspectNodes"
  | inspectReputation => "InspectReputation"
  | modifyBans => "ModifyBans"
  | retractAppReputation => "RetractAppReputation"
  | inspectDht => "InspectDht"
  | controlWalker => "ControlWalker"
  | manageApplications => "ManageApplications"

/-- The capabilities in their order. -/
def all : List AppCapability :=
  [sendMessages, receiveMessages, manageOwnStorage, readOwnStorage, readPublicProfiles,
    subscribeNetworkStatus, submitReputation, requestAppScopedRestriction,
    inspectOwnReputationSubmissions, signAppData, inspectNodes, inspectReputation, modifyBans,
    retractAppReputation, inspectDht, controlWalker, manageApplications]

theorem mem_all (c : AppCapability) : c ∈ all := by
  cases c <;> decide

theorem all_nodup : all.Nodup := by decide

end AppCapability

abbrev AppCapabilitySet := Finset AppCapability

namespace AppCapabilitySet

/-- The members in their order. -/
def iter (set : AppCapabilitySet) : List AppCapability :=
  AppCapability.all.filter fun c => c ∈ set

theorem mem_iter {set : AppCapabilitySet} {c : AppCapability} : c ∈ iter set ↔ c ∈ set := by
  simp [iter, AppCapability.mem_all]

theorem iter_sublist (set : AppCapabilitySet) : (iter set).Sublist AppCapability.all :=
  List.filter_sublist

theorem toFinset_iter (set : AppCapabilitySet) : (iter set).toFinset = set := by
  ext c
  rw [List.mem_toFinset, mem_iter]

/-- The first requested capability that is not granted. -/
def firstDenied (requested granted : AppCapabilitySet) : AppCapability :=
  ((iter requested).find? fun c => c ∉ granted).getD .subscribeNetworkStatus

end AppCapabilitySet

/-! ## Records -/

structure AppRegistration where
  appId : AppId
  displayName : String
  createdAt : UInt64
  lastUsedAt : UInt64
  enabled : Bool
  credentialGeneration : UInt64
  grantedCapabilities : AppCapabilitySet
  deriving DecidableEq

structure AppCredential where
  appId : AppId
  secret : AppSecret
  credentialGeneration : UInt64
  deriving DecidableEq

structure AppAuthChallenge where
  appId : AppId
  challengeId : UInt64
  nonce : Nonce
  issuedAt : UInt64
  expiresAt : UInt64
  credentialGeneration : UInt64
  requestedCapabilities : AppCapabilitySet
  deriving DecidableEq

structure AppAuthResponse (Proof : Type) where
  appId : AppId
  challengeId : UInt64
  proof : Proof
  deriving DecidableEq

structure ActiveAppSession where
  appId : AppId
  sessionId : AppSessionId
  authenticatedAt : UInt64
  expiresAt : UInt64
  credentialGeneration : UInt64
  capabilities : AppCapabilitySet
  deriving DecidableEq

/-- What a caller gets: a session and its token. -/
structure AuthenticatedAppSession extends ActiveAppSession where
  sessionToken : AppSessionToken
  deriving DecidableEq

inductive IdentityError
  | appAlreadyRegistered
  | appNotRegistered
  | appDisabled
  | invalidDisplayName
  | tooManyPendingChallenges
  | tooManyActiveSessions
  | challengeNotFound
  | challengeExpired
  | challengeAppMismatch
  | credentialDoesNotMatchChallenge
  | credentialGenerationMismatch
  | invalidProof
  | sessionNotFound
  | sessionExpired
  | capabilityDenied (capability : AppCapability)
  | storeVersionUnsupported (version : UInt32)
  | persistence (message : String)
  deriving DecidableEq

structure StoredAppIdentity where
  registration : AppRegistration
  secret : AppSecret
  deriving DecidableEq

namespace StoredAppIdentity

/-- A first registration. Approval alone is not activity. -/
def new (appId : AppId) (displayName : String) (granted : AppCapabilitySet) (secret : AppSecret)
    (now : UInt64) : StoredAppIdentity where
  registration :=
    { appId := appId
      displayName := displayName
      createdAt := now
      lastUsedAt := 0
      enabled := true
      credentialGeneration := 1
      grantedCapabilities := granted }
  secret := secret

/-- A new secret in a new generation. -/
def rotated (stored : StoredAppIdentity) (secret : AppSecret) : StoredAppIdentity where
  registration :=
    { stored.registration with
      credentialGeneration := max (saturatingAdd stored.registration.credentialGeneration 1) 1 }
  secret := secret

def setEnabled (stored : StoredAppIdentity) (enabled : Bool) : StoredAppIdentity :=
  { stored with registration.enabled := enabled }

def setCapabilities (stored : StoredAppIdentity) (granted : AppCapabilitySet) :
    StoredAppIdentity :=
  { stored with registration.grantedCapabilities := granted }

def used (stored : StoredAppIdentity) (now : UInt64) : StoredAppIdentity :=
  { stored with registration.lastUsedAt := now }

end StoredAppIdentity

abbrev Apps := AList fun _ : AppId => StoredAppIdentity

structure IdentityStore where
  version : UInt32
  nextChallengeId : UInt64
  apps : Apps

def IdentityStore.default : IdentityStore where
  version := identityStoreVersion
  nextChallengeId := 1
  apps := ∅

/-- What the lock protects. -/
structure Inner where
  store : IdentityStore
  pendingChallenges : AList fun _ : UInt64 => AppAuthChallenge
  activeSessions : AList fun _ : AppSessionToken => ActiveAppSession

/-- The manager, and the store in the encrypted file. -/
structure IdentityManager where
  inner : Inner
  disk : Option IdentityStore

/-! ## Proofs -/

/-- The bytes of a challenge that a proof authenticates. -/
def proofInput (challenge : AppAuthChallenge) : Bytes :=
  let id := challenge.appId.toUTF8.data.toList
  let capabilities := AppCapabilitySet.iter challenge.requestedCapabilities
  proofDomain ++ Codec.u32.encode (UInt32.ofNat id.length) ++ id ++
    Codec.u64.encode challenge.challengeId ++ challenge.nonce.val ++
    Codec.u64.encode challenge.issuedAt ++ Codec.u64.encode challenge.expiresAt ++
    Codec.u64.encode challenge.credentialGeneration ++
    Codec.u32.encode (UInt32.ofNat capabilities.length) ++
    capabilities.flatMap fun c => c.name.toUTF8.data.toList ++ [0]

section Manager

variable {Proof : Type} [DecidableEq Proof] (hmac : AppSecret → Bytes → Proof)

def computeAppProof (secret : AppSecret) (challenge : AppAuthChallenge) : Proof :=
  hmac secret (proofInput challenge)

/-- The response of an application that holds the credential. -/
def AppCredential.answer (credential : AppCredential) (challenge : AppAuthChallenge) :
    Except IdentityError (AppAuthResponse Proof) :=
  if credential.appId ≠ challenge.appId then .error .credentialDoesNotMatchChallenge
  else if credential.credentialGeneration ≠ challenge.credentialGeneration then
    .error .credentialGenerationMismatch
  else
    .ok { appId := credential.appId
          challengeId := challenge.challengeId
          proof := computeAppProof hmac credential.secret challenge }

def validateDisplayName (value : String) : Except IdentityError Unit :=
  let trimmed := Text.trim value
  if trimmed = "" ∨ trimmed.utf8ByteSize > 256 then .error .invalidDisplayName else .ok ()

namespace IdentityManager

/-! ## Parts of the operations -/

/-- A new process reads the store; pending challenges and sessions are not in it. -/
def load (disk : Option IdentityStore) : Except IdentityError IdentityManager :=
  let store := disk.getD .default
  if store.version ≠ identityStoreVersion then .error (.storeVersionUnsupported store.version)
  else .ok { inner := { store := store, pendingChallenges := ∅, activeSessions := ∅ }, disk := disk }

def app? (m : IdentityManager) (appId : AppId) : Option StoredAppIdentity :=
  m.inner.store.apps.lookup appId

def putApp (m : IdentityManager) (appId : AppId) (stored : StoredAppIdentity) : IdentityManager :=
  { m with inner.store.apps := m.inner.store.apps.insert appId stored }

/-- Forget the pending challenges and the sessions of an application. -/
def dropApp (m : IdentityManager) (appId : AppId) : IdentityManager :=
  { m with
    inner.pendingChallenges := m.inner.pendingChallenges.filterEntries fun _ c => c.appId ≠ appId
    inner.activeSessions := m.inner.activeSessions.filterEntries fun _ s => s.appId ≠ appId }

def cleanupExpired (m : IdentityManager) (now : UInt64) : IdentityManager :=
  { m with
    inner.pendingChallenges := m.inner.pendingChallenges.filterEntries fun _ c => now < c.expiresAt
    inner.activeSessions := m.inner.activeSessions.filterEntries fun _ s => now < s.expiresAt }

def addChallenge (m : IdentityManager) (challenge : AppAuthChallenge) : IdentityManager :=
  { m with
    inner.store.nextChallengeId := max (saturatingAdd m.inner.store.nextChallengeId 1) 1
    inner.pendingChallenges := m.inner.pendingChallenges.insert challenge.challengeId challenge }

def removeChallenge (m : IdentityManager) (id : UInt64) : IdentityManager :=
  { m with inner.pendingChallenges := m.inner.pendingChallenges.erase id }

def putSession (m : IdentityManager) (token : AppSessionToken) (session : ActiveAppSession) :
    IdentityManager :=
  { m with inner.activeSessions := m.inner.activeSessions.insert token session }

/-- Write the store, and return a value if that succeeds. A write that fails leaves the file as it
was, and the memory too. -/
def persistLocked {α : Type} (m : IdentityManager) (fault : Option String) (value : α) :
    IdentityManager × Except IdentityError α :=
  match fault with
  | none => ({ m with disk := some m.inner.store }, .ok value)
  | some message => (m, .error (.persistence message))

/-! ## Administration -/

def registerAppWithCapabilities (m : IdentityManager) (appId : AppId) (displayName : String)
    (granted : AppCapabilitySet) (secret : AppSecret) (now : UInt64) (fault : Option String) :
    IdentityManager × Except IdentityError AppCredential :=
  match validateDisplayName displayName with
  | .error error => (m, .error error)
  | .ok () =>
    if (m.app? appId).isSome then (m, .error .appAlreadyRegistered)
    else
      (m.putApp appId (.new appId displayName granted secret now)).persistLocked fault
        ⟨appId, secret, 1⟩

/-- Replace an application's secret. Its challenges and sessions end. -/
def rotateAppCredential (m : IdentityManager) (appId : AppId) (secret : AppSecret)
    (fault : Option String) : IdentityManager × Except IdentityError AppCredential :=
  match m.app? appId with
  | none => (m, .error .appNotRegistered)
  | some stored =>
    let stored := stored.rotated secret
    let credential := ⟨appId, secret, stored.registration.credentialGeneration⟩
    ((m.putApp appId stored).dropApp appId).persistLocked fault credential

def setAppEnabled (m : IdentityManager) (appId : AppId) (enabled : Bool) (fault : Option String) :
    IdentityManager × Except IdentityError Unit :=
  match m.app? appId with
  | none => (m, .error .appNotRegistered)
  | some stored =>
    let m := m.putApp appId (stored.setEnabled enabled)
    (if enabled then m else m.dropApp appId).persistLocked fault ()

def setAppCapabilities (m : IdentityManager) (appId : AppId) (granted : AppCapabilitySet)
    (fault : Option String) : IdentityManager × Except IdentityError Unit :=
  match m.app? appId with
  | none => (m, .error .appNotRegistered)
  | some stored =>
    ((m.putApp appId (stored.setCapabilities granted)).dropApp appId).persistLocked fault ()

/-! ## Authentication -/

/-- Whether an application may ask for some capabilities, and the generation of its credential. -/
def checkRequest (m : IdentityManager) (appId : AppId) (requested : AppCapabilitySet) :
    Except IdentityError UInt64 :=
  match m.app? appId with
  | none => .error .appNotRegistered
  | some stored =>
    if ¬ stored.registration.enabled then .error .appDisabled
    else if ¬ requested ⊆ stored.registration.grantedCapabilities then
      .error (.capabilityDenied
        (AppCapabilitySet.firstDenied requested stored.registration.grantedCapabilities))
    else .ok stored.registration.credentialGeneration

def beginAppAuthWithCapabilities (m : IdentityManager) (appId : AppId)
    (requested : AppCapabilitySet) (now : UInt64) (nonce : Nonce) (fault : Option String) :
    IdentityManager × Except IdentityError AppAuthChallenge :=
  let m := m.cleanupExpired now
  if m.inner.pendingChallenges.entries.length ≥ maxPendingChallenges then
    (m, .error .tooManyPendingChallenges)
  else
    match m.checkRequest appId requested with
    | .error error => (m, .error error)
    | .ok generation =>
      let challenge : AppAuthChallenge :=
        { appId := appId
          challengeId := m.inner.store.nextChallengeId
          nonce := nonce
          issuedAt := now
          expiresAt := saturatingAdd now challengeTtlSecs
          credentialGeneration := generation
          requestedCapabilities := requested }
      (m.addChallenge challenge).persistLocked fault challenge

/-- Whether a response answers the challenge it names. -/
def checkResponse (m : IdentityManager) (challenge : AppAuthChallenge)
    (response : AppAuthResponse Proof) (now : UInt64) : Except IdentityError StoredAppIdentity :=
  if challenge.expiresAt ≤ now then .error .challengeExpired
  else if challenge.appId ≠ response.appId then .error .challengeAppMismatch
  else
    match m.app? response.appId with
    | none => .error .appNotRegistered
    | some stored =>
      if ¬ stored.registration.enabled then .error .appDisabled
      else if stored.registration.credentialGeneration ≠ challenge.credentialGeneration then
        .error .credentialGenerationMismatch
      else if computeAppProof hmac stored.secret challenge ≠ response.proof then
        .error .invalidProof
      else .ok stored

/-- Draw tokens until one is not in use. -/
def drawToken (m : IdentityManager) (draws : List AppSessionToken) : Option AppSessionToken :=
  draws.find? fun token => (m.inner.activeSessions.lookup token).isNone

/-- Open a session for an answered challenge. There is none while the draws run out. -/
def openSession (m : IdentityManager) (appId : AppId) (challenge : AppAuthChallenge) (now : UInt64)
    (draws : List AppSessionToken) (sessionId : AppSessionId) :
    Option (IdentityManager × Except IdentityError AuthenticatedAppSession) :=
  if m.inner.activeSessions.entries.length ≥ maxActiveSessions then
    some (m, .error .tooManyActiveSessions)
  else
    (m.drawToken draws).map fun token =>
      let session : ActiveAppSession :=
        { appId := appId
          sessionId := sessionId
          authenticatedAt := now
          expiresAt := saturatingAdd now sessionTtlSecs
          credentialGeneration := challenge.credentialGeneration
          capabilities := challenge.requestedCapabilities }
      (m.putSession token session, .ok { session with sessionToken := token })

/-- The challenge goes before it is looked at: a wrong answer uses it up as well. -/
def finishAppAuth (m : IdentityManager) (response : AppAuthResponse Proof) (now : UInt64)
    (draws : List AppSessionToken) (sessionId : AppSessionId) (fault : Option String) :
    Option (IdentityManager × Except IdentityError AuthenticatedAppSession) :=
  let m := m.cleanupExpired now
  match m.inner.pendingChallenges.lookup response.challengeId with
  | none => some (m, .error .challengeNotFound)
  | some challenge =>
    let m := m.removeChallenge response.challengeId
    match m.checkResponse hmac challenge response now with
    | .error error => some (m, .error error)
    | .ok stored =>
      match (m.putApp response.appId (stored.used now)).persistLocked fault () with
      | (m, .error error) => some (m, .error error)
      | (m, .ok ()) => m.openSession response.appId challenge now draws sessionId

def authenticateSession (m : IdentityManager) (token : AppSessionToken) (now : UInt64) :
    IdentityManager × Except IdentityError AuthenticatedAppSession :=
  let m := m.cleanupExpired now
  match m.inner.activeSessions.lookup token with
  | none => (m, .error .sessionNotFound)
  | some session =>
    if session.expiresAt ≤ now then (m, .error .sessionExpired)
    else (m, .ok { session with sessionToken := token })

def revokeSession (m : IdentityManager) (token : AppSessionToken) : IdentityManager × Bool :=
  ({ m with inner.activeSessions := m.inner.activeSessions.erase token },
    (m.inner.activeSessions.lookup token).isSome)

def revokeAllAppSessions (m : IdentityManager) (appId : AppId) : IdentityManager × Nat :=
  ({ m with inner.activeSessions := m.inner.activeSessions.filterEntries fun _ s => s.appId ≠ appId },
    m.inner.activeSessions.entries.countP fun e => e.2.appId = appId)

end IdentityManager

end Manager

end VeilKnit.Identity
