import VeilKnit.Library.Text

/-!
# Gossip records

A record is a hint about an object of an application: a generation, a claimed origin, a
lifetime, a pointer to durable state and some bounded previews. Publish requests and records
are checked in the order of the source; the first check that fails names the error.

Times and generations are 64-bit counters; additions to them saturate.
-/

namespace VeilKnit.Gossip

open Library Library.Text

abbrev Bytes := List UInt8

def gossipEngineVersion : Nat := 2
def gossipDefaultTtlSecs : Nat := 30 * 60
def gossipMaxTtlSecs : Nat := 24 * 60 * 60
def gossipMaxNamespaceBytes : Nat := 64
def gossipMaxObjectIdBytes : Nat := 256
def gossipMaxPointerBytes : Nat := 512
def gossipMaxCustomPayloadBytes : Nat := 1024
def gossipMaxFingerprints : Nat := 8
def gossipMaxFingerprintChannelBytes : Nat := 48
def gossipMaxFingerprintAlgorithmBytes : Nat := 48
def gossipMaxFingerprintBytes : Nat := 256
def gossipMaxQueryProbes : Nat := 8
def gossipMaxIndexTokens : Nat := 32
def gossipMaxIndexProbes : Nat := 8
def gossipMaxIndexTokensPerProbe : Nat := 16
def gossipMaxQueryResults : Nat := 32
def gossipMaxEntriesPerApp : Nat := 2048
def gossipMaxEntriesGlobal : Nat := 8192
def gossipMaxClaimedSources : Nat := 32
def gossipMaxQueryResponseRecords : Nat := 3
def gossipMaxRelayHops : Nat := 3
def gossipQueryResponseCooldownSecs : Nat := 10
def gossipMaxFutureSkewSecs : Nat := 10 * 60
def gossipWireMaxBytes : Nat := 12 * 1024

def u64Max : Nat := 2 ^ 64 - 1

/-- `u64::saturating_add`. -/
def saturatingAdd (a b : Nat) : Nat := min (a + b) u64Max

structure GossipFingerprint where
  channel : String
  algorithm : String
  version : UInt16
  bytes : Bytes
  deriving DecidableEq

structure GossipIndexToken where
  digest : Bytes
  deriving DecidableEq

structure GossipRecord where
  «namespace» : String
  objectId : String
  generation : Nat
  originMainDht : String
  publishedAt : Nat
  expiresAt : Nat
  authoritativePointer : Option String
  fingerprints : List GossipFingerprint
  indexTokens : List GossipIndexToken
  customPayload : Bytes
  flags : UInt32
  withdrawn : Bool
  deriving DecidableEq

structure GossipPublishRequest where
  «namespace» : String
  objectId : String
  generation : Nat
  authoritativePointer : Option String
  fingerprints : List GossipFingerprint
  indexTokens : List GossipIndexToken
  customPayload : Bytes
  flags : UInt32
  ttlSeconds : Nat

inductive GossipError
  | invalidApplicationId
  | invalidNamespace
  | reservedNamespace
  | invalidObjectId
  | invalidPointer
  | tooManyFingerprints
  | invalidFingerprint (reason : String)
  | tooManyIndexTokens
  | customPayloadTooLarge
  | invalidTtl
  | invalidQuery (reason : String)
  | objectNotFound
  | generationMismatch
  | notLocallyPublished
  | wire (reason : String)
  deriving DecidableEq

/-! ## Checks -/

def validateApplicationId (applicationId : String) : Except GossipError Unit :=
  let trimmed := trim applicationId
  if trimmed = "" ∨ trimmed.utf8ByteSize > 256 ∨ ¬ isAscii trimmed then
    .error .invalidApplicationId
  else .ok ()

def validateNamespace («namespace» : String) (allowReserved : Bool) : Except GossipError Unit :=
  if ¬ isAsciiName «namespace» gossipMaxNamespaceBytes then .error .invalidNamespace
  else if ¬ allowReserved ∧ "_veilknit.".toList.isPrefixOf «namespace».toList then
    .error .reservedNamespace
  else .ok ()

def validateObjectId (objectId : String) : Except GossipError Unit :=
  if objectId = "" ∨ objectId.utf8ByteSize > gossipMaxObjectIdBytes ∨
      objectId.toList.any isControl then
    .error .invalidObjectId
  else .ok ()

def validateFingerprintParts (channel algorithm : String) (bytes : Bytes) :
    Except GossipError Unit :=
  if ¬ isAsciiName channel gossipMaxFingerprintChannelBytes then
    .error (.invalidFingerprint "channel is invalid")
  else if ¬ isAsciiName algorithm gossipMaxFingerprintAlgorithmBytes then
    .error (.invalidFingerprint "algorithm is invalid")
  else if bytes = [] ∨ bytes.length > gossipMaxFingerprintBytes then
    .error (.invalidFingerprint s!"fingerprint bytes must be 1..={gossipMaxFingerprintBytes}")
  else if eqIgnoreAsciiCase algorithm "minhash16" ∧ bytes.length % 2 ≠ 0 then
    .error (.invalidFingerprint "minhash16 fingerprints must contain whole 16-bit positions")
  else .ok ()

def validateFingerprint (fingerprint : GossipFingerprint) : Except GossipError Unit := do
  validateFingerprintParts fingerprint.channel fingerprint.algorithm fingerprint.bytes
  if eqIgnoreAsciiCase fingerprint.algorithm "minhash16" ∧ fingerprint.bytes.length % 2 ≠ 0 then
    throw (.invalidFingerprint "minhash16 byte length must be even")

def validatePointer (pointer : String) : Except GossipError Unit :=
  if pointer = "" ∨ pointer.utf8ByteSize > gossipMaxPointerBytes ∨ pointer.toList.any isControl then
    .error .invalidPointer
  else .ok ()

def validateIndexTokens (tokens : List GossipIndexToken) : Except GossipError Unit :=
  if tokens.length > gossipMaxIndexTokens then .error .tooManyIndexTokens else .ok ()

/-- What a request and a record carry for the object. -/
def validateContents (authoritativePointer : Option String)
    (fingerprints : List GossipFingerprint) (indexTokens : List GossipIndexToken)
    (customPayload : Bytes) : Except GossipError Unit := do
  authoritativePointer.forM validatePointer
  if fingerprints.length > gossipMaxFingerprints then
    throw .tooManyFingerprints
  fingerprints.forM validateFingerprint
  validateIndexTokens indexTokens
  if customPayload.length > gossipMaxCustomPayloadBytes then
    throw .customPayloadTooLarge

def validatePublishRequest (request : GossipPublishRequest) : Except GossipError Unit := do
  validateObjectId request.objectId
  validateContents request.authoritativePointer request.fingerprints request.indexTokens
    request.customPayload
  if request.ttlSeconds = 0 ∨ request.ttlSeconds > gossipMaxTtlSecs then
    throw .invalidTtl

/-- The record key parser decides which origins are shaped like record keys. -/
def validateRecord (isRecordKey : String → Bool) (now : Nat) (record : GossipRecord)
    (allowReserved : Bool) : Except GossipError Unit := do
  validateNamespace record.namespace allowReserved
  validateObjectId record.objectId
  if record.originMainDht.utf8ByteSize > gossipMaxPointerBytes ∨
      record.originMainDht.toList.any isControl then
    throw .invalidPointer
  if ¬ isRecordKey record.originMainDht then
    throw .invalidPointer
  validateContents record.authoritativePointer record.fingerprints record.indexTokens
    record.customPayload
  if record.expiresAt ≤ record.publishedAt ∨
      record.expiresAt - record.publishedAt > gossipMaxTtlSecs then
    throw .invalidTtl
  if record.publishedAt > saturatingAdd now gossipMaxFutureSkewSecs then
    throw (.wire "record publication time is too far in the future")
  if record.withdrawn ∧ (record.fingerprints ≠ [] ∨ record.indexTokens ≠ [] ∨
      record.customPayload ≠ []) then
    throw (.wire "withdrawn records cannot carry fingerprints/index tokens/custom payload")

/-! ## Queries -/

inductive GossipTokenPolarity
  | required
  | preferred
  | exclude
  deriving DecidableEq

inductive GossipTokenMatchMode
  | all
  | any
  deriving DecidableEq

structure GossipTokenProbe where
  tokens : List GossipIndexToken
  polarity : GossipTokenPolarity
  matchMode : GossipTokenMatchMode
  weight : UInt16
  deriving DecidableEq

inductive GossipProbePolarity
  | similar
  | avoid
  deriving DecidableEq

structure GossipFingerprintProbe where
  channel : String
  algorithm : String
  version : UInt16
  bytes : Bytes
  weight : UInt16
  polarity : GossipProbePolarity
  deriving DecidableEq

structure GossipSearchQuery where
  «namespace» : String
  probes : List GossipFingerprintProbe
  tokenProbes : List GossipTokenProbe
  limit : Nat
  minScoreMilli : Option UInt16
  includeWithdrawn : Bool
  deriving DecidableEq

def validateProbe (probe : GossipFingerprintProbe) : Except GossipError Unit := do
  validateFingerprintParts probe.channel probe.algorithm probe.bytes
  if probe.weight = 0 ∨ probe.weight > 1000 then
    throw (.invalidQuery "fingerprint probe weight must be 1..=1000")
  if eqIgnoreAsciiCase probe.algorithm "minhash16" ∧ probe.bytes.length % 2 ≠ 0 then
    throw (.invalidQuery "minhash16 probe byte length must be even")

def validateTokenProbe (probe : GossipTokenProbe) : Except GossipError Unit :=
  if probe.tokens = [] ∨ probe.tokens.length > gossipMaxIndexTokensPerProbe then
    .error (.invalidQuery
      s!"each token probe must contain 1..={gossipMaxIndexTokensPerProbe} tokens")
  else if probe.weight = 0 ∨ probe.weight > 1000 then
    .error (.invalidQuery "token probe weight must be 1..=1000")
  else .ok ()

def validateQuery (query : GossipSearchQuery) : Except GossipError Unit := do
  validateNamespace query.namespace true
  if query.probes.length > gossipMaxQueryProbes then
    throw (.invalidQuery s!"at most {gossipMaxQueryProbes} fingerprint probes are allowed")
  if query.limit = 0 ∨ query.limit > gossipMaxQueryResults then
    throw (.invalidQuery s!"result limit must be 1..={gossipMaxQueryResults}")
  if query.minScoreMilli.any (· > 1000) then
    throw (.invalidQuery "minimum score must be 0..=1000")
  query.probes.forM validateProbe
  if query.tokenProbes.length > gossipMaxIndexProbes then
    throw (.invalidQuery s!"at most {gossipMaxIndexProbes} token probe groups are allowed")
  query.tokenProbes.forM validateTokenProbe
  if (query.tokenProbes.map fun probe => probe.tokens.length).sum > gossipMaxIndexTokens then
    throw (.invalidQuery s!"a query may reference at most {gossipMaxIndexTokens} index tokens")

end VeilKnit.Gossip
