import Mathlib.Data.Finset.Card
import Mathlib.Data.List.MinMax
import Mathlib.Data.Prod.Lex
import VeilKnit.Library.AssociationList
import VeilKnit.Gossip.Records

/-!
# The gossip cache

For each active application the manager keeps a bounded cache with one entry for each object.
Local publications and records from peers go through one function, `ingestRecord`, which holds
the lock from the pruning of expired entries to the enforcement of the limits. What an operation
shows, sends and announces is a list of effects. A part of an operation that runs under the lock
is one step; what an operation still has to do after it has given the lock up is in flight.

The digest of a record and the scores of a search are parameters, and so is the order in which a
hash map is visited. The token index is what it is rebuilt to after every change.
-/

namespace VeilKnit.Gossip

open Library

/-! ## State -/

inductive GossipVerificationState
  | unverified
  | multiSourceHint
  | pointerConfirmed
  | authoritativeVerified
  | localPublished
  | conflicting
  deriving DecidableEq

inductive GossipConfirmationLevel
  | pointerConfirmed
  | authoritativeVerified
  deriving DecidableEq

structure GossipObjectKey where
  «namespace» : String
  objectId : String
  deriving DecidableEq

def GossipRecord.key (record : GossipRecord) : GossipObjectKey :=
  ⟨record.namespace, record.objectId⟩

structure GossipCacheEntry (Digest : Type) where
  record : GossipRecord
  digest : Digest
  firstSeenAt : Nat
  lastSeenAt : Nat
  lastVerifiedAt : Option Nat
  lastVerifiedGeneration : Option Nat
  verification : GossipVerificationState
  supportingClaimedSources : Finset String
  conflictingDigests : Finset Digest
  locallyPublished : Bool

/-- The objects of one application. -/
abbrev AppGossipState (Digest : Type) := AList fun _ : GossipObjectKey => GossipCacheEntry Digest

structure GossipState (Digest : Type) where
  apps : AList fun _ : String => AppGossipState Digest
  queryResponseLast : String × String → Option Nat

def GossipState.empty (Digest : Type) : GossipState Digest := ⟨∅, fun _ => none⟩

structure GossipSearchHit (Score : Type) where
  record : GossipRecord
  score : Score
  matchedIndexTokens : Nat
  verification : GossipVerificationState
  claimedSourceCount : Nat
  conflictingClaimCount : Nat
  firstSeenAt : Nat
  lastSeenAt : Nat
  lastVerifiedAt : Option Nat
  lastVerifiedGeneration : Option Nat

inductive GossipEvent
  | objectUpdated (applicationId : String) (key : GossipObjectKey) (generation : Nat)
      (verification : GossipVerificationState)
  | objectWithdrawn (applicationId : String) (key : GossipObjectKey) (generation : Nat)
  | conflictObserved (applicationId : String) (key : GossipObjectKey) (generation : Nat)
  | queryMerged (applicationId : String) (queryId : Bytes) (acceptedRecords : Nat)

inductive GossipWireMessage
  | record (record : GossipRecord) (hopsRemaining : Nat)
  | query (queryId : Bytes) (query : GossipSearchQuery)
  | queryResponse (queryId : Bytes) (records : List GossipRecord)

structure GossipWireEnvelope where
  version : Nat
  message : GossipWireMessage

inductive Effect (Score : Type)
  | event (event : GossipEvent)
  /-- What an application is shown. -/
  | shown (applicationId : String) (hit : GossipSearchHit Score)
  /-- A record is offered to peers, except to the one it came from. -/
  | fanoutRecord (applicationId : String) (record : GossipRecord) (excludePeer : Option String)
      (hopsRemaining : Nat)
  | queryResponse (applicationId peer : String) (records : List GossipRecord)

/-- Visiting the entries of a hash map in some order. -/
structure Arrangement (α : Type) where
  arrange : List α → List α
  perm : ∀ items, (arrange items).Perm items

/-- An entry of the cache with its application and its object. -/
abbrev CacheItem (Digest : Type) := String × GossipObjectKey × GossipCacheEntry Digest

abbrev Visit (Digest : Type) := Arrangement (CacheItem Digest)

/-- What comes from outside this module. -/
structure Primitives (Digest Score : Type) where
  isRecordKey : String → Bool
  recordDigest : GossipRecord → Digest
  deserialize : Bytes → Except String GossipWireEnvelope
  /-- A query response with these records fits a frame. -/
  responseFits : Bytes → List GossipRecord → Bool
  scoreEntry : GossipCacheEntry Digest → List GossipFingerprintProbe → List GossipTokenProbe →
    Nat → Score
  belowMinimum : Score → UInt16 → Bool
  compareHits : Arrangement (GossipSearchHit Score)
  fullScore : Score
  noScore : Score

/-- What the surroundings answer in one step. -/
structure Answers (Digest : Type) where
  /-- `current_timestamp`, by the number of the reading. -/
  clock : Nat → Nat
  /-- The entries of all applications, and those of one. -/
  visit : Visit Digest
  isKnownAppPeer : String → String → Bool

variable {Digest Score : Type} [DecidableEq Digest]

namespace GossipState

omit [DecidableEq Digest] in
/-- `entry(application_id).or_default()`. -/
def app (state : GossipState Digest) (applicationId : String) : AppGossipState Digest :=
  (state.apps.lookup applicationId).getD ∅

def setApp (state : GossipState Digest) (applicationId : String) (app : AppGossipState Digest) :
    GossipState Digest :=
  { state with apps := state.apps.insert applicationId app }

def entry (state : GossipState Digest) (applicationId : String) (key : GossipObjectKey) :
    Option (GossipCacheEntry Digest) :=
  (state.app applicationId).lookup key

def isApplicationActive (state : GossipState Digest) (applicationId : String) : Bool :=
  (state.apps.lookup applicationId).isSome

/-- All entries with their applications. -/
def items (state : GossipState Digest) :
    List (CacheItem Digest) :=
  state.apps.entries.flatMap fun app => app.2.entries.map fun e => (app.1, e.1, e.2)

end GossipState

/-! ## Expiry and limits -/

def pruneState (now : Nat) (state : GossipState Digest) : GossipState Digest where
  apps := state.apps.mapEntries fun _ app =>
    app.filterEntries fun _ entry => decide (now < entry.record.expiresAt)
  queryResponseLast key :=
    (state.queryResponseLast key).filter fun last => decide (now - last < gossipMaxTtlSecs)

/-- What the eviction candidates are compared by: local publications come last, then the
entry that was seen the longest time ago comes first. -/
def evictionRank (item : CacheItem Digest) : Nat ×ₗ Nat :=
  toLex (item.2.2.locallyPublished.toNat, item.2.2.lastSeenAt)

/-- The first of the lowest entries in the order of the visit. -/
def minByRank (visit : Visit Digest) (items : List (CacheItem Digest)) :
    Option (CacheItem Digest) :=
  (visit.arrange items).argmin evictionRank

def evictionCandidate (visit : Visit Digest) (applicationId : String)
    (app : AppGossipState Digest) : Option GossipObjectKey :=
  (minByRank visit (app.entries.map fun e => (applicationId, e.1, e.2))).map fun item => item.2.1

/-- The loop that brings one application within its limit. It removes one entry a round, so it
makes no more rounds than there are entries. -/
def enforceAppCapacity (visit : Visit Digest) (applicationId : String) :
    Nat → AppGossipState Digest → AppGossipState Digest
  | 0, app => app
  | rounds + 1, app =>
    if app.entries.length > gossipMaxEntriesPerApp then
      match evictionCandidate visit applicationId app with
      | some key => enforceAppCapacity visit applicationId rounds (app.erase key)
      | none => app
    else app

def globalCandidate (visit : Visit Digest) (state : GossipState Digest) :
    Option (String × GossipObjectKey) :=
  (minByRank visit state.items).map fun item => (item.1, item.2.1)

/-- The loop that brings all applications together within the global limit. -/
def enforceGlobalCapacity (visit : Visit Digest) :
    Nat → GossipState Digest → GossipState Digest
  | 0, state => state
  | rounds + 1, state =>
    if state.items.length > gossipMaxEntriesGlobal then
      match globalCandidate visit state with
      | some (applicationId, key) =>
        enforceGlobalCapacity visit rounds
          (state.setApp applicationId ((state.app applicationId).erase key))
      | none => state
    else state

def enforceApps (visit : Visit Digest) (state : GossipState Digest) : GossipState Digest :=
  { state with apps := state.apps.mapEntries fun applicationId app =>
      enforceAppCapacity visit applicationId app.entries.length app }

def enforceCapacity (visit : Visit Digest) (state : GossipState Digest) : GossipState Digest :=
  enforceGlobalCapacity visit state.items.length (enforceApps visit state)

/-! ## Ingestion -/

/-- What the arrival of a record makes of the entry of its object. -/
structure Ingested (Digest : Type) where
  entry : GossipCacheEntry Digest
  forwardable : Bool
  event : Option GossipEvent

/-- The event of a record that becomes the entry of its object. -/
def storedEvent (applicationId : String) (record : GossipRecord)
    (verification : GossipVerificationState) : GossipEvent :=
  if record.withdrawn then .objectWithdrawn applicationId record.key record.generation
  else .objectUpdated applicationId record.key record.generation verification

def claimedSources (claimedSource : String) : Finset String :=
  if claimedSource = "" then ∅ else {claimedSource}

def ingestEntry (now : Nat) (applicationId : String) (record : GossipRecord) (digest : Digest)
    (claimedSource : String) (localPublish : Bool) :
    Option (GossipCacheEntry Digest) → Ingested Digest
  | none =>
    let verification : GossipVerificationState :=
      if localPublish then .localPublished else .unverified
    { entry :=
        { record
          digest
          firstSeenAt := now
          lastSeenAt := now
          lastVerifiedAt := if localPublish then some now else none
          lastVerifiedGeneration := if localPublish then some record.generation else none
          verification
          supportingClaimedSources := claimedSources claimedSource
          conflictingDigests := ∅
          locallyPublished := localPublish }
      forwardable := true
      event := some (storedEvent applicationId record verification) }
  | some entry =>
    let conflict := GossipEvent.conflictObserved applicationId record.key record.generation
    if entry.locallyPublished ∧ ¬ localPublish then
      -- A peer does not replace what this node has published.
      if digest ≠ entry.digest ∨ record.generation ≠ entry.record.generation then
        { entry := { entry with
            lastSeenAt := now
            conflictingDigests := insert digest entry.conflictingDigests }
          forwardable := false
          event := some conflict }
      else { entry := { entry with lastSeenAt := now }, forwardable := false, event := none }
    else if entry.record.generation < record.generation then
      let verification : GossipVerificationState :=
        if localPublish then .localPublished else .unverified
      { entry :=
          { record
            digest
            firstSeenAt := entry.firstSeenAt
            lastSeenAt := now
            lastVerifiedAt := if localPublish then some now else entry.lastVerifiedAt
            lastVerifiedGeneration :=
              if localPublish then some record.generation else entry.lastVerifiedGeneration
            verification
            supportingClaimedSources := claimedSources claimedSource
            conflictingDigests := ∅
            locallyPublished := localPublish }
        forwardable := true
        event := some (storedEvent applicationId record verification) }
    else if record.generation < entry.record.generation then
      { entry := { entry with lastSeenAt := now }, forwardable := false, event := none }
    else if digest = entry.digest then
      let sources :=
        if entry.supportingClaimedSources.card < gossipMaxClaimedSources ∧ claimedSource ≠ ""
        then insert claimedSource entry.supportingClaimedSources
        else entry.supportingClaimedSources
      let seen := { entry with lastSeenAt := now, supportingClaimedSources := sources }
      { entry :=
          if localPublish then
            { seen with
              locallyPublished := true
              lastVerifiedAt := some now
              lastVerifiedGeneration := some record.generation
              verification := .localPublished }
          else if entry.verification = .unverified ∧ 2 ≤ sources.card then
            { seen with verification := .multiSourceHint }
          else seen
        forwardable := false
        event := none }
    else
      { entry := { entry with
          lastSeenAt := now
          conflictingDigests := insert digest entry.conflictingDigests
          verification := .conflicting }
        forwardable := false
        event := some conflict }

/-- The result of an operation, the state after it and its effects. -/
structure Outcome (Digest Score α : Type) where
  result : Except GossipError α
  state : GossipState Digest
  effects : List (Effect Score)

structure IngestResult (Score : Type) where
  hit : GossipSearchHit Score
  forwardable : Bool

section Operations

variable (prim : Primitives Digest Score) (mainDht : String) (ans : Answers Digest)

def hitFromEntry (entry : GossipCacheEntry Digest) (score : Score) (matchedIndexTokens : Nat) :
    GossipSearchHit Score where
  record := entry.record
  score := score
  matchedIndexTokens := matchedIndexTokens
  verification := entry.verification
  claimedSourceCount := entry.supportingClaimedSources.card
  conflictingClaimCount := entry.conflictingDigests.card
  firstSeenAt := entry.firstSeenAt
  lastSeenAt := entry.lastSeenAt
  lastVerifiedAt := entry.lastVerifiedAt
  lastVerifiedGeneration := entry.lastVerifiedGeneration

/-- The record is checked at one reading of the clock and enters the cache at the next. -/
def ingestRecord (applicationId : String) (record : GossipRecord) (claimedSource : String)
    (localPublish : Bool) (reading : Nat) (state : GossipState Digest) :
    Outcome Digest Score (IngestResult Score) :=
  match validateRecord prim.isRecordKey (ans.clock reading) record true with
  | .error e => ⟨.error e, state, []⟩
  | .ok () =>
    let now := ans.clock (reading + 1)
    if record.expiresAt ≤ now then ⟨.error (.wire "record already expired"), state, []⟩
    else
      let pruned := pruneState now state
      let ingested := ingestEntry now applicationId record (prim.recordDigest record)
        claimedSource localPublish (pruned.entry applicationId record.key)
      let enforced := enforceCapacity ans.visit
        (pruned.setApp applicationId ((pruned.app applicationId).insert record.key ingested.entry))
      match enforced.entry applicationId record.key with
      | none => ⟨.error .objectNotFound, enforced, []⟩
      | some entry =>
        ⟨.ok ⟨hitFromEntry entry prim.fullScore 0, ingested.forwardable⟩, enforced,
          ingested.event.toList.map .event⟩

/-! ## Publishing -/

def publishRecordInternal (applicationId : String) (record : GossipRecord)
    (allowReserved : Bool) (reading : Nat) (state : GossipState Digest) :
    Outcome Digest Score (GossipSearchHit Score) :=
  match validateRecord prim.isRecordKey (ans.clock reading) record allowReserved with
  | .error e => ⟨.error e, state, []⟩
  | .ok () =>
    let ingest := ingestRecord prim ans applicationId record mainDht true (reading + 1) state
    match ingest.result with
    | .error e => ⟨.error e, ingest.state, ingest.effects⟩
    | .ok result =>
      let offered := if result.forwardable then
        [.fanoutRecord applicationId record none gossipMaxRelayHops] else []
      ⟨.ok result.hit, ingest.state, ingest.effects ++ offered ++ [.shown applicationId result.hit]⟩

/-- The record that a request is published as. -/
def publishedRecord (now : Nat) (request : GossipPublishRequest) : GossipRecord where
  «namespace» := request.namespace
  objectId := request.objectId
  generation := request.generation
  originMainDht := mainDht
  publishedAt := now
  expiresAt := saturatingAdd now request.ttlSeconds
  authoritativePointer := request.authoritativePointer
  fingerprints := request.fingerprints
  indexTokens := request.indexTokens
  customPayload := request.customPayload
  flags := request.flags
  withdrawn := false

/-- The checks of a request, before anything is done about it. -/
def validateRequest (applicationId : String) (request : GossipPublishRequest) :
    Except GossipError Unit := do
  validateApplicationId applicationId
  validateNamespace request.namespace false
  validatePublishRequest request

def publish (applicationId : String) (request : GossipPublishRequest)
    (state : GossipState Digest) : Outcome Digest Score (GossipSearchHit Score) :=
  match validateRequest applicationId request with
  | .error e => ⟨.error e, state, []⟩
  | .ok () =>
    publishRecordInternal prim mainDht ans applicationId
      (publishedRecord mainDht (ans.clock 0) request) false 1 state

def publishSystemRecord (applicationId : String) (record : GossipRecord)
    (state : GossipState Digest) : Outcome Digest Score (GossipSearchHit Score) :=
  match (do
    validateApplicationId applicationId
    validateRecord prim.isRecordKey (ans.clock 0) record true : Except GossipError Unit) with
  | .error e => ⟨.error e, state, []⟩
  | .ok () =>
    let now := ans.clock 1
    publishRecordInternal prim mainDht ans applicationId
      { record with
        originMainDht := mainDht
        publishedAt := now
        expiresAt := max record.expiresAt (saturatingAdd now 1) }
      true 2 state

/-- The first half of a withdrawal reads the entry and makes the tombstone. -/
def withdrawnRecord (applicationId : String) (key : GossipObjectKey)
    (requestedGeneration : Option Nat) (allowReserved : Bool) (state : GossipState Digest) :
    Except GossipError GossipRecord := do
  validateApplicationId applicationId
  validateNamespace key.namespace allowReserved
  validateObjectId key.objectId
  match state.entry applicationId key with
  | none => throw .objectNotFound
  | some entry =>
    if ¬ entry.locallyPublished then
      throw .notLocallyPublished
    let next := saturatingAdd entry.record.generation 1
    pure {
      «namespace» := key.namespace
      objectId := key.objectId
      generation := max (requestedGeneration.getD next) next
      originMainDht := mainDht
      publishedAt := ans.clock 0
      expiresAt := saturatingAdd (ans.clock 0) gossipDefaultTtlSecs
      authoritativePointer := entry.record.authoritativePointer
      fingerprints := []
      indexTokens := []
      customPayload := []
      flags := entry.record.flags
      withdrawn := true }

/-- An entry after the application has compared it with the authoritative object. -/
def confirmedEntry (now generation : Nat) (level : GossipConfirmationLevel)
    (matchesAuthoritative : Bool) (entry : GossipCacheEntry Digest) : GossipCacheEntry Digest :=
  if matchesAuthoritative then
    { entry with
      lastVerifiedAt := some now
      lastVerifiedGeneration := some generation
      verification :=
        if entry.locallyPublished then entry.verification
        else match level with
          | .pointerConfirmed => .pointerConfirmed
          | .authoritativeVerified => .authoritativeVerified }
  else { entry with verification := .conflicting }

def confirm (applicationId : String) (key : GossipObjectKey) (generation : Nat)
    (level : GossipConfirmationLevel) (matchesAuthoritative : Bool) (state : GossipState Digest) :
    Outcome Digest Score (GossipSearchHit Score) :=
  match (do
    validateApplicationId applicationId
    validateNamespace key.namespace true
    validateObjectId key.objectId : Except GossipError Unit) with
  | .error e => ⟨.error e, state, []⟩
  | .ok () =>
    match state.entry applicationId key with
    | none => ⟨.error .objectNotFound, state, []⟩
    | some entry =>
      if entry.record.generation ≠ generation then ⟨.error .generationMismatch, state, []⟩
      else
        let confirmed := confirmedEntry (ans.clock 0) generation level matchesAuthoritative entry
        let event :=
          if matchesAuthoritative then
            GossipEvent.objectUpdated applicationId key generation confirmed.verification
          else .conflictObserved applicationId key generation
        let hit := hitFromEntry confirmed prim.fullScore 0
        ⟨.ok hit, state.setApp applicationId ((state.app applicationId).insert key confirmed),
          [.event event, .shown applicationId hit]⟩

/-! ## Searching -/

/-- The keys that the token index holds for a token. -/
def tokenIndex (app : AppGossipState Digest) (token : GossipIndexToken) :
    Finset GossipObjectKey :=
  (app.entries.filterMap fun e =>
    if e.2.record.withdrawn = false ∧ token ∈ e.2.record.indexTokens then some e.1
    else none).toFinset

/-- The keys that one required probe leaves. -/
def probeCandidates (app : AppGossipState Digest) (probe : GossipTokenProbe) :
    Finset GossipObjectKey :=
  match probe.tokens.map (tokenIndex app) with
  | [] => ∅
  | first :: rest =>
    match probe.matchMode with
    | .any => rest.foldl (· ∪ ·) first
    | .all => rest.foldl (· ∩ ·) first

/-- The keys that the required probes leave; without required probes, no restriction. -/
def tokenIndexCandidates (app : AppGossipState Digest) (probes : List GossipTokenProbe) :
    Option (Finset GossipObjectKey) :=
  match (probes.filter (·.polarity = .required)).map (probeCandidates app) with
  | [] => none
  | first :: rest => some (rest.foldl (· ∩ ·) first)

def tokenProbeMatchCount (entry : GossipCacheEntry Digest) (probe : GossipTokenProbe) : Nat :=
  (probe.tokens.filter (· ∈ entry.record.indexTokens)).length

def tokenProbeGroupMatches (entry : GossipCacheEntry Digest) (probe : GossipTokenProbe) : Bool :=
  match probe.matchMode with
  | .all => tokenProbeMatchCount entry probe = probe.tokens.length
  | .any => 0 < tokenProbeMatchCount entry probe

/-- Whether an entry passes the probes, and the tokens that it matched until it failed. -/
def tokenFiltersMatch (entry : GossipCacheEntry Digest) :
    List GossipTokenProbe → Finset GossipIndexToken → Bool × Nat
  | [], matched => (true, matched.card)
  | probe :: probes, matched =>
    let matched := matched ∪ (probe.tokens.filter (· ∈ entry.record.indexTokens)).toFinset
    match probe.polarity, tokenProbeGroupMatches entry probe with
    | .required, false => (false, matched.card)
    | .exclude, true => (false, matched.card)
    | _, _ => tokenFiltersMatch entry probes matched

def searchAppState (app : AppGossipState Digest) (query : GossipSearchQuery) (now : Nat) :
    List (GossipSearchHit Score) :=
  let candidates := match tokenIndexCandidates app query.tokenProbes with
    | none => app.entries
    | some keys => app.entries.filter fun e => e.1 ∈ keys
  let eligible := candidates.filter fun e => now < e.2.record.expiresAt ∧
    e.2.record.namespace = query.namespace ∧ (query.includeWithdrawn ∨ ¬ e.2.record.withdrawn)
  let hits := eligible.filterMap fun e =>
    let (passes, matched) := tokenFiltersMatch e.2 query.tokenProbes ∅
    if ¬ passes then none
    else
      let score := prim.scoreEntry e.2 query.probes query.tokenProbes now
      if query.minScoreMilli.any (prim.belowMinimum score) then none
      else some (hitFromEntry e.2 score matched)
  (prim.compareHits.arrange hits).take query.limit

def searchLocal (applicationId : String) (query : GossipSearchQuery) (reading : Nat)
    (state : GossipState Digest) : Outcome Digest Score (List (GossipSearchHit Score)) :=
  match (do
    validateApplicationId applicationId
    validateQuery query : Except GossipError Unit) with
  | .error e => ⟨.error e, state, []⟩
  | .ok () =>
    let hits := searchAppState prim (state.app applicationId) query (ans.clock reading)
    ⟨.ok hits, state.setApp applicationId (state.app applicationId),
      hits.map (.shown applicationId)⟩

def listRecent (applicationId : String) («namespace» : Option String) (limit : Nat)
    (state : GossipState Digest) : Outcome Digest Score (List (GossipSearchHit Score)) :=
  match (do
    validateApplicationId applicationId
    «namespace».forM (validateNamespace · true) : Except GossipError Unit) with
  | .error e => ⟨.error e, state, []⟩
  | .ok () =>
    let items := (state.app applicationId).entries.map fun e => (applicationId, e.1, e.2)
    let eligible := (ans.visit.arrange items).filter fun item =>
      ans.clock 0 < item.2.2.record.expiresAt ∧ «namespace».all (item.2.2.record.namespace = ·)
    let newestFirst := (eligible.map fun item =>
      hitFromEntry item.2.2 prim.noScore 0).mergeSort fun left right =>
        decide (right.record.publishedAt < left.record.publishedAt ∨
          right.record.publishedAt = left.record.publishedAt ∧ right.lastSeenAt ≤ left.lastSeenAt)
    let hits := newestFirst.take (max 1 (min limit gossipMaxQueryResults))
    ⟨.ok hits, state.setApp applicationId (state.app applicationId),
      hits.map (.shown applicationId)⟩

/-! ## Frames from peers -/

def gossipWirePrefix : Bytes := [0] ++ "veilknit-gossip-engine-v1".toUTF8.data.toList ++ [0]

def isEngineFrame (payload : Bytes) : Bool := gossipWirePrefix.isPrefixOf payload

def decodeWire (payload : Bytes) : Except GossipError GossipWireMessage :=
  if ¬ isEngineFrame payload then .error (.wire "missing gossip-engine prefix")
  else if payload.length > gossipWireMaxBytes then
    .error (.wire "frame exceeds gossip-engine limit")
  else
    match prim.deserialize (payload.drop gossipWirePrefix.length) with
    | .error reason => .error (.wire reason)
    | .ok envelope =>
      if envelope.version ≠ gossipEngineVersion then
        .error (.wire s!"unsupported gossip-engine version {envelope.version}")
      else .ok envelope.message

/-- The cooldown of the answers to one peer of one application. -/
def allowQueryResponse (applicationId claimedPeer : String) (now : Nat)
    (state : GossipState Digest) : Bool × GossipState Digest :=
  let key := (applicationId, claimedPeer)
  if (state.queryResponseLast key).any fun last =>
      decide (now - last < gossipQueryResponseCooldownSecs) then (false, state)
  else (true, { state with
    queryResponseLast := Function.update state.queryResponseLast key (some now) })

/-- The longest beginning of the records that fits a response. -/
def fittingRecords (queryId : Bytes) : List GossipRecord → List GossipRecord → List GossipRecord
  | records, [] => records
  | records, record :: rest =>
    if prim.responseFits queryId (records ++ [record]) then
      fittingRecords queryId (records ++ [record]) rest
    else records

def processRecord (applicationId sender : String) (record : GossipRecord) (hopsRemaining : Nat)
    (state : GossipState Digest) : Outcome Digest Score Unit :=
  match validateRecord prim.isRecordKey (ans.clock 0) record true with
  | .error e => ⟨.error e, state, []⟩
  | .ok () =>
    let ingest := ingestRecord prim ans applicationId record sender false 1 state
    match ingest.result with
    | .error e => ⟨.error e, ingest.state, ingest.effects⟩
    | .ok result =>
      let relayed := if result.forwardable ∧ 0 < hopsRemaining then
        [.fanoutRecord applicationId record (some sender)
          (min (hopsRemaining - 1) gossipMaxRelayHops)] else []
      ⟨.ok (), ingest.state, ingest.effects ++ relayed⟩

def processQuery (applicationId sender : String) (queryId : Bytes) (query : GossipSearchQuery)
    (state : GossipState Digest) : Outcome Digest Score Unit :=
  match validateQuery query with
  | .error e => ⟨.error e, state, []⟩
  | .ok () =>
    if ¬ ans.isKnownAppPeer applicationId sender then ⟨.ok (), state, []⟩
    else
      match allowQueryResponse applicationId sender (ans.clock 0) state with
      | (false, state) => ⟨.ok (), state, []⟩
      | (true, state) =>
        let search := searchLocal prim ans applicationId query 1 state
        match search.result with
        | .error e => ⟨.error e, search.state, []⟩
        | .ok hits =>
          let records := fittingRecords prim queryId []
            ((hits.take gossipMaxQueryResponseRecords).map (·.record))
          ⟨.ok (), search.state, [.queryResponse applicationId sender records]⟩

end Operations

end VeilKnit.Gossip
