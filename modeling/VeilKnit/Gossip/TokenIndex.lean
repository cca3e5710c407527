import VeilKnit.Gossip.Steps
import VeilKnit.Library.Fallible

/-!
# The inverted token index

Each application keeps, beside its entries, an index that leads from a token to the objects that
carry it. The index is built anew whenever the cache is pruned or brought within its limits, so
after every operation it is the one of the entries that are there.
-/

namespace VeilKnit.Gossip

open Library

/-! ## The index -/

abbrev TokenIndex := GossipIndexToken → Finset GossipObjectKey

/-- The index of every application. -/
abbrev TokenIndexes := String → TokenIndex

section Index

variable {Digest : Type}

/-- An object is entered under each of its tokens. -/
def TokenIndex.enter (key : GossipObjectKey) (tokens : List GossipIndexToken)
    (index : TokenIndex) : TokenIndex :=
  tokens.foldl (fun index token => Function.update index token (insert key (index token))) index

def rebuildTokenIndex (app : AppGossipState Digest) : TokenIndex :=
  app.entries.foldl (fun index e =>
    if e.2.record.withdrawn then index else index.enter e.1 e.2.record.indexTokens) fun _ => ∅

def rebuildTokenIndexes (state : GossipState Digest) : TokenIndexes :=
  fun applicationId => rebuildTokenIndex (state.app applicationId)

variable {token : GossipIndexToken}

theorem TokenIndex.mem_enter {key other : GossipObjectKey} {tokens : List GossipIndexToken}
    {index : TokenIndex} :
    other ∈ index.enter key tokens token ↔ other ∈ index token ∨ other = key ∧ token ∈ tokens := by
  unfold enter
  induction tokens generalizing index with
  | nil => simp
  | cons first tokens ih =>
    rw [List.foldl_cons, ih, List.mem_cons]
    by_cases h : token = first
    case pos =>
      subst h
      rw [Function.update_self, Finset.mem_insert]
      tauto
    case neg =>
      rw [Function.update_of_ne h]
      tauto

/-- The index leads from a token to the entries that carry it and are not withdrawn. -/
theorem mem_rebuildTokenIndex {app : AppGossipState Digest}
    {key : GossipObjectKey} : key ∈ rebuildTokenIndex app token ↔
      ∃ e, app.lookup key = some e ∧ e.record.withdrawn = false ∧ token ∈ e.record.indexTokens := by
  have hfold : ∀ (entries : List (Σ _ : GossipObjectKey, GossipCacheEntry Digest))
      (index : TokenIndex), key ∈ entries.foldl (fun index e =>
          if e.2.record.withdrawn then index else index.enter e.1 e.2.record.indexTokens) index
            token ↔
        key ∈ index token ∨ ∃ e, (⟨key, e⟩ : Σ _ : GossipObjectKey, GossipCacheEntry Digest) ∈
          entries ∧ e.record.withdrawn = false ∧ token ∈ e.record.indexTokens := by
    intro entries
    induction entries with
    | nil => simp
    | cons first entries ih =>
      intro index
      rw [List.foldl_cons, ih]
      cases hwithdrawn : first.2.record.withdrawn with
      | true =>
        rw [if_pos rfl]
        refine or_congr_right ⟨?_, ?_⟩
        · rintro ⟨e, hmem, hrest⟩
          exact ⟨e, List.mem_cons_of_mem _ hmem, hrest⟩
        · rintro ⟨e, hmem, hlive, htoken⟩
          rcases List.mem_cons.mp hmem with heq | hmem
          · rw [← heq, hlive] at hwithdrawn
            cases hwithdrawn
          · exact ⟨e, hmem, hlive, htoken⟩
      | false =>
        rw [if_neg Bool.false_ne_true, TokenIndex.mem_enter, or_assoc]
        refine or_congr_right ⟨?_, ?_⟩
        · rintro (⟨rfl, htoken⟩ | ⟨e, hmem, hrest⟩)
          · exact ⟨first.2, List.mem_cons_self, hwithdrawn, htoken⟩
          · exact ⟨e, List.mem_cons_of_mem _ hmem, hrest⟩
        · rintro ⟨e, hmem, hlive, htoken⟩
          rcases List.mem_cons.mp hmem with heq | hmem
          · rw [← heq]
            exact .inl ⟨rfl, htoken⟩
          · exact .inr ⟨e, hmem, hlive, htoken⟩
  unfold rebuildTokenIndex
  rw [hfold]
  simp only [Finset.notMem_empty, false_or]
  exact exists_congr fun e => and_congr_left' AList.mem_lookup_iff.symm

end Index

/-! ## The index after an operation -/

section Operations

variable {Digest Score : Type} [DecidableEq Digest] (prim : Primitives Digest Score)
  (mainDht : String) (ans : Answers Digest)

/-- Taking a record in prunes the cache, enters the record and enforces the limits, and the
indexes are built anew at the end. -/
def ingestIndexes (record : GossipRecord) (reading : Nat) (after : GossipState Digest)
    (indexes : TokenIndexes) : TokenIndexes :=
  match validateRecord prim.isRecordKey (ans.clock reading) record true with
  | .error _ => indexes
  | .ok () =>
    if record.expiresAt ≤ ans.clock (reading + 1) then indexes else rebuildTokenIndexes after

def validatedIndexes (record : GossipRecord) (allowReserved : Bool) (reading : Nat)
    (after : GossipState Digest) (indexes : TokenIndexes) : TokenIndexes :=
  match validateRecord prim.isRecordKey (ans.clock reading) record allowReserved with
  | .error _ => indexes
  | .ok () => ingestIndexes prim ans record (reading + 1) after indexes

def incomingIndexes (applicationId : String) (payload : Bytes) (node : Node Digest Score)
    (after : GossipState Digest) (indexes : TokenIndexes) : TokenIndexes :=
  match validateApplicationId applicationId with
  | .error _ => indexes
  | .ok () =>
    if ¬ node.state.isApplicationActive applicationId then indexes
    else
      match decodeWire prim payload with
      | .ok (.record record _) => validatedIndexes prim ans record true 0 after indexes
      | _ => indexes

/-- The indexes after an operation that leaves the cache in a state. -/
def operationIndexes (node : Node Digest Score) (after : GossipState Digest)
    (indexes : TokenIndexes) : Operation → TokenIndexes
  | .publish applicationId request =>
    match validateRequest applicationId request with
    | .error _ => indexes
    | .ok () =>
      validatedIndexes prim ans (publishedRecord mainDht (ans.clock 0) request) false 1 after
        indexes
  | .publishSystemRecord applicationId record =>
    match (do
      validateApplicationId applicationId
      validateRecord prim.isRecordKey (ans.clock 0) record true : Except GossipError Unit) with
    | .error _ => indexes
    | .ok () =>
      validatedIndexes prim ans
        { record with
          originMainDht := mainDht
          publishedAt := ans.clock 1
          expiresAt := max record.expiresAt (saturatingAdd (ans.clock 1) 1) }
        true 2 after indexes
  | .incoming applicationId _ payload =>
    incomingIndexes prim ans applicationId payload node after indexes
  | .proceed index =>
    match node.inFlight[index]? with
    | some (.withdrawal _ record allowReserved) =>
      validatedIndexes prim ans record allowReserved 0 after indexes
    | some (.response _ _ _ (record :: _) _) =>
      validatedIndexes prim ans record true 0 after indexes
    | _ => indexes
  | .pruneExpired => rebuildTokenIndexes after
  | _ => indexes

end Operations

/-- A node with the indexes of its applications. -/
structure IndexedNode (Digest Score : Type) where
  node : Node Digest Score
  indexes : TokenIndexes

section System

variable {Digest Score : Type} [DecidableEq Digest]

def IndexedNode.perform (prim : Primitives Digest Score) (mainDht : String)
    (ans : Answers Digest) (indexed : IndexedNode Digest Score) (op : Operation) :
    IndexedNode Digest Score :=
  let node := Gossip.perform prim mainDht ans indexed.node op
  ⟨node, operationIndexes prim mainDht ans indexed.node node.state indexed.indexes op⟩

/-- The runs of a manager with its indexes. -/
def indexedGossipSystem (prim : Primitives Digest Score) (mainDht : String) :
    LabelledSystem (IndexedNode Digest Score) (Operation × Answers Digest) where
  initial indexed := indexed = ⟨.new Digest Score, fun _ _ => ∅⟩
  step indexed label indexed' := indexed' = indexed.perform prim mainDht label.2 label.1

end System

/-! ## The index is the one of the entries -/

section Exact

variable {Digest Score : Type} [DecidableEq Digest] {prim : Primitives Digest Score}
  {mainDht : String} {ans : Answers Digest} {s t : GossipState Digest} {allowReserved : Bool}

/-- A record that is withdrawn carries no tokens. -/
theorem indexTokens_of_withdrawn {isRecordKey : String → Bool} {now : Nat} {record : GossipRecord}
    (valid : validateRecord isRecordKey now record allowReserved = .ok ())
    (withdrawn : record.withdrawn = true) : record.indexTokens = [] := by
  obtain ⟨-, -, valid⟩ := except_bind_eq_ok.mp valid
  obtain ⟨-, -, valid⟩ := except_bind_eq_ok.mp valid
  have hshaped := (except_passed_of_ok (except_passed_of_ok valid).2).2
  obtain ⟨-, -, valid⟩ := except_bind_eq_ok.mp hshaped
  have hlast := (except_passed_of_ok (except_passed_of_ok valid).2).2
  by_contra hne
  rw [if_pos ⟨withdrawn, .inr (.inl hne)⟩] at hlast
  cases hlast

/-- No entry that is withdrawn carries tokens. -/
def Tombstones (state : GossipState Digest) : Prop :=
  ∀ applicationId key e, state.entry applicationId key = some e →
    e.record.withdrawn = true → e.record.indexTokens = []

theorem Change.tombstones {arrival : Option Arrival} (h : Change prim ans arrival s t)
    (tombstones : Tombstones s) : Tombstones t := by
  intro applicationId key e he
  cases h with
  | kept apps _ =>
    rw [GossipState.entry, apps] at he
    exact tombstones applicationId key e he
  | pruned now => exact tombstones _ _ e ((entry_pruneState _ _ _ e).mp he).2
  | @arrived a _ hvalid _ =>
    rcases Arrival.entry_after he with ⟨rfl, rfl, rfl⟩ | hfound
    · rcases a.ingested_cases prim ans s with hstores | ⟨old, hold, hkeeps⟩
      · rw [hstores.stored]
        exact indexTokens_of_withdrawn hvalid
      · rw [hkeeps.kept]
        exact tombstones _ _ old ((entry_pruneState _ _ _ old).mp hold).2
    · exact tombstones _ _ e ((entry_pruneState _ _ _ e).mp hfound).2
  | @confirmed other key' old new hold record _ _ _ =>
    rcases entry_insert he with ⟨rfl, rfl, rfl⟩ | hother
    · rw [record]
      exact tombstones _ _ old hold
    · exact tombstones _ _ e hother

omit [DecidableEq Digest] in
/-- Applications whose entries carry the same records have the same indexes. -/
theorem rebuildTokenIndexes_congr (h : ∀ applicationId key,
    (t.entry applicationId key).map GossipCacheEntry.record =
      (s.entry applicationId key).map GossipCacheEntry.record) :
    rebuildTokenIndexes t = rebuildTokenIndexes s := by
  have hone : ∀ {s t : GossipState Digest}, (∀ applicationId key,
      (t.entry applicationId key).map GossipCacheEntry.record =
        (s.entry applicationId key).map GossipCacheEntry.record) →
      ∀ applicationId token, rebuildTokenIndexes t applicationId token ⊆
        rebuildTokenIndexes s applicationId token := by
    intro s t hsame applicationId token key hkey
    obtain ⟨e, he, hlive, htoken⟩ := mem_rebuildTokenIndex.mp hkey
    have hentry : t.entry applicationId key = some e := he
    have hrecord := hsame applicationId key
    rw [hentry, Option.map_some] at hrecord
    obtain ⟨e', he', hsame'⟩ := Option.map_eq_some_iff.mp hrecord.symm
    rw [← hsame'] at hlive htoken
    exact mem_rebuildTokenIndex.mpr ⟨e', he', hlive, htoken⟩
  funext applicationId token
  exact Finset.Subset.antisymm (hone h applicationId token)
    (hone (fun applicationId key => (h applicationId key).symm) applicationId token)

variable {a : Arrival} {after : GossipState Digest}

theorem ingestIndexes_eq
    (hafter : after = (ingestRecord prim ans a.applicationId a.record a.claimedSource
      a.localPublish a.reading s).state) :
    ingestIndexes prim ans a.record a.reading after (rebuildTokenIndexes s) =
      rebuildTokenIndexes after := by
  unfold ingestIndexes
  unfold ingestRecord at hafter
  cases hvalid : validateRecord prim.isRecordKey (ans.clock a.reading) a.record true with
  | error _ =>
    rw [hvalid] at hafter
    rw [hafter]
  | ok _ =>
    rw [hvalid] at hafter
    dsimp only at hafter ⊢
    by_cases hexpired : a.record.expiresAt ≤ ans.clock (a.reading + 1)
    case pos =>
      rw [if_pos hexpired] at hafter
      rw [if_pos hexpired, hafter]
    case neg => rw [if_neg hexpired]

/-- Publishing a record and taking one in from a peer. -/
theorem validatedIndexes_eq {reading : Nat} (hreading : a.reading = reading + 1)
    (hrejected : ∀ e, validateRecord prim.isRecordKey (ans.clock reading) a.record allowReserved =
      .error e → after = s)
    (hafter : validateRecord prim.isRecordKey (ans.clock reading) a.record allowReserved = .ok () →
      after = (ingestRecord prim ans a.applicationId a.record a.claimedSource a.localPublish
        a.reading s).state) :
    validatedIndexes prim ans a.record allowReserved reading after (rebuildTokenIndexes s) =
      rebuildTokenIndexes after := by
  unfold validatedIndexes
  cases hvalid : validateRecord prim.isRecordKey (ans.clock reading) a.record allowReserved with
  | error e => rw [hrejected e hvalid]
  | ok _ =>
    rw [← hreading]
    exact ingestIndexes_eq (hafter hvalid)

theorem publishRecordInternal_indexes (applicationId : String) (record : GossipRecord)
    (allowReserved : Bool) (reading : Nat) (s : GossipState Digest) :
    validatedIndexes prim ans record allowReserved reading
        (publishRecordInternal prim mainDht ans applicationId record allowReserved reading s).state
        (rebuildTokenIndexes s) =
      rebuildTokenIndexes (publishRecordInternal prim mainDht ans applicationId record
        allowReserved reading s).state := by
  refine validatedIndexes_eq (a := ⟨applicationId, record, mainDht, true, reading + 1⟩) rfl
    (fun e hinvalid => ?_) (fun hvalid => ?_)
  · have hinvalid : validateRecord prim.isRecordKey (ans.clock reading) record allowReserved =
        .error e := hinvalid
    rw [publishRecordInternal, hinvalid]
  · have hvalid : validateRecord prim.isRecordKey (ans.clock reading) record allowReserved =
        .ok () := hvalid
    rw [publishRecordInternal, hvalid]
    dsimp only
    split <;> rfl

theorem processRecord_indexes (applicationId sender : String) (record : GossipRecord)
    (hopsRemaining : Nat) (s : GossipState Digest) :
    validatedIndexes prim ans record true 0
        (processRecord prim ans applicationId sender record hopsRemaining s).state
        (rebuildTokenIndexes s) =
      rebuildTokenIndexes
        (processRecord prim ans applicationId sender record hopsRemaining s).state := by
  refine validatedIndexes_eq (a := ⟨applicationId, record, sender, false, 1⟩) rfl
    (fun e hinvalid => ?_) (fun hvalid => ?_)
  · have hinvalid : validateRecord prim.isRecordKey (ans.clock 0) record true = .error e :=
      hinvalid
    rw [processRecord, hinvalid]
  · exact state_processRecord prim ans hvalid hopsRemaining s

theorem proceed_response_indexes (applicationId sender : String) (queryId : Bytes)
    (record : GossipRecord) (records : List GossipRecord) (accepted : Nat) (rest : List Flight)
    (node : Node Digest Score) :
    validatedIndexes prim ans record true 0
        (proceed prim mainDht ans (.response applicationId sender queryId (record :: records)
          accepted) rest node).state (rebuildTokenIndexes node.state) =
      rebuildTokenIndexes (proceed prim mainDht ans (.response applicationId sender queryId
        (record :: records) accepted) rest node).state := by
  refine validatedIndexes_eq (a := ⟨applicationId, record, sender, false, 1⟩) rfl
    (fun e hinvalid => ?_) (fun hvalid => ?_)
  · have hinvalid : validateRecord prim.isRecordKey (ans.clock 0) record true = .error e :=
      hinvalid
    rw [proceed, hinvalid]
  · have hvalid : validateRecord prim.isRecordKey (ans.clock 0) record true = .ok () := hvalid
    rw [proceed, hvalid]
    rfl

section

omit [DecidableEq Digest]

theorem rebuildTokenIndexes_confirmed {applicationId : String} {key : GossipObjectKey}
    {e e' : GossipCacheEntry Digest} (old : s.entry applicationId key = some e)
    (record : e'.record = e.record) :
    rebuildTokenIndexes (s.setApp applicationId ((s.app applicationId).insert key e')) =
      rebuildTokenIndexes s := by
  refine rebuildTokenIndexes_congr fun other key' => ?_
  rw [entry_setApp]
  split
  case isFalse => rfl
  case isTrue happ =>
    subst happ
    by_cases hkey : key' = key
    · rw [hkey, AList.lookup_insert, old, Option.map_some, Option.map_some, record]
    · rw [AList.lookup_insert_ne hkey]
      rfl

theorem rebuildTokenIndexes_kept
    (apps : ∀ applicationId, t.app applicationId = s.app applicationId) :
    rebuildTokenIndexes t = rebuildTokenIndexes s :=
  rebuildTokenIndexes_congr fun applicationId key => by
    rw [GossipState.entry, apps, GossipState.entry]

theorem rebuildTokenIndexes_searchLocal (prim : Primitives Digest Score) (ans : Answers Digest)
    (applicationId : String) (query : GossipSearchQuery) (reading : Nat) (s : GossipState Digest) :
    rebuildTokenIndexes (searchLocal prim ans applicationId query reading s).state =
      rebuildTokenIndexes s := by
  rcases searchLocal_state prim ans applicationId query reading s with h | h
  · rw [h]
  · rw [h]
    exact rebuildTokenIndexes_kept (app_activated s applicationId)

theorem rebuildTokenIndexes_processQuery (applicationId sender : String) (queryId : Bytes)
    (query : GossipSearchQuery) (s : GossipState Digest) :
    rebuildTokenIndexes (processQuery prim ans applicationId sender queryId query s).state =
      rebuildTokenIndexes s := by
  unfold processQuery
  split
  · rfl
  split
  · rfl
  have hkept := allowQueryResponse_kept applicationId sender (ans.clock 0) s
  rcases hallowed : allowQueryResponse applicationId sender (ans.clock 0) s with ⟨allowed, cooled⟩
  rw [hallowed] at hkept
  have hcooled : rebuildTokenIndexes cooled = rebuildTokenIndexes s :=
    rebuildTokenIndexes_kept fun other =>
      congrArg (fun apps => (AList.lookup other apps).getD ∅) hkept
  cases allowed with
  | false => exact hcooled
  | true =>
    have hsearch := (rebuildTokenIndexes_searchLocal prim ans applicationId query 1
      cooled).trans hcooled
    dsimp only
    split
    · exact hsearch
    · exact hsearch

theorem rebuildTokenIndexes_confirm (applicationId : String) (key : GossipObjectKey)
    (generation : Nat) (level : GossipConfirmationLevel) (matchesAuthoritative : Bool)
    (s : GossipState Digest) :
    rebuildTokenIndexes (confirm prim ans applicationId key generation level
      matchesAuthoritative s).state = rebuildTokenIndexes s := by
  unfold confirm
  split
  · rfl
  cases hentry : s.entry applicationId key with
  | none => rfl
  | some e =>
    dsimp only
    split
    · rfl
    · refine rebuildTokenIndexes_confirmed hentry ?_
      unfold confirmedEntry
      split <;> rfl

end

/-- The indexes that an operation leaves are those of the entries that it leaves. -/
theorem operationIndexes_eq (prim : Primitives Digest Score) (mainDht : String)
    (ans : Answers Digest) (node : Node Digest Score) (op : Operation) :
    operationIndexes prim mainDht ans node (perform prim mainDht ans node op).state
        (rebuildTokenIndexes node.state) op =
      rebuildTokenIndexes (perform prim mainDht ans node op).state := by
  cases op with
  | activateApplication applicationId =>
    unfold perform operationIndexes
    dsimp only
    split
    · rfl
    · exact (rebuildTokenIndexes_kept (app_activated node.state applicationId)).symm
  | publish applicationId request =>
    unfold perform operationIndexes Node.after publish
    dsimp only
    cases validateRequest applicationId request with
    | error _ => rfl
    | ok _ => exact publishRecordInternal_indexes _ _ _ _ _
  | publishSystemRecord applicationId record =>
    unfold perform operationIndexes Node.after publishSystemRecord
    dsimp only
    cases (validateApplicationId applicationId >>= fun _ =>
        validateRecord prim.isRecordKey (ans.clock 0) record true) with
    | error _ => rfl
    | ok _ => exact publishRecordInternal_indexes _ _ _ _ _
  | withdraw applicationId key requestedGeneration allowReserved =>
    unfold perform operationIndexes
    dsimp only
    split <;> rfl
  | confirm applicationId key generation level matchesAuthoritative =>
    exact (rebuildTokenIndexes_confirm _ _ _ _ _ _).symm
  | searchLocal applicationId query =>
    exact (rebuildTokenIndexes_searchLocal prim ans applicationId query 0 node.state).symm
  | listRecent applicationId «namespace» limit =>
    unfold perform operationIndexes Node.after listRecent
    dsimp only
    split
    · rfl
    · exact (rebuildTokenIndexes_kept (app_activated node.state applicationId)).symm
  | incoming applicationId sender payload =>
    unfold perform operationIndexes incomingIndexes processIncoming
    dsimp only
    cases validateApplicationId applicationId with
    | error _ => rfl
    | ok _ =>
      dsimp only
      by_cases hactive : ¬ node.state.isApplicationActive applicationId
      case pos => rw [if_pos hactive, if_pos hactive]
      case neg =>
      rw [if_neg hactive, if_neg hactive]
      cases decodeWire prim payload with
      | error _ => rfl
      | ok message =>
        cases message with
        | record record hopsRemaining =>
          exact processRecord_indexes _ _ _ _ _
        | query queryId query =>
          exact (rebuildTokenIndexes_processQuery _ _ _ _ _).symm
        | queryResponse queryId records => rfl
  | proceed index =>
    unfold perform operationIndexes
    dsimp only
    cases node.inFlight[index]? with
    | none => rfl
    | some flight =>
      cases flight with
      | withdrawal applicationId record allowReserved =>
        exact publishRecordInternal_indexes _ _ _ _ _
      | response applicationId sender queryId records accepted =>
        cases records with
        | nil => rfl
        | cons record records => exact proceed_response_indexes _ _ _ _ _ _ _ _
  | pruneExpired => rfl

omit [DecidableEq Digest] in
theorem tombstones_new : Tombstones (Node.new Digest Score).state := by
  intro applicationId key e he
  cases he

/-- In every run the index of every application is the one of its entries, and what is withdrawn
carries no tokens. -/
theorem indexes_exact {indexed : IndexedNode Digest Score}
    (reachable : (indexedGossipSystem prim mainDht).Reachable indexed) :
    indexed.indexes = rebuildTokenIndexes indexed.node.state ∧ Tombstones indexed.node.state := by
  induction reachable with
  | start h =>
    obtain rfl := h
    exact ⟨rfl, tombstones_new⟩
  | @next indexed indexed' label _ hstep ih =>
    obtain rfl := hstep
    obtain ⟨hindexes, htombstones⟩ := ih
    obtain ⟨new, -, hstepped⟩ := perform_stepped prim mainDht label.2 indexed.node label.1
    refine ⟨?_, hstepped.change.tombstones htombstones⟩
    unfold IndexedNode.perform
    rw [hindexes]
    exact operationIndexes_eq prim mainDht label.2 indexed.node label.1

end Exact

end VeilKnit.Gossip
