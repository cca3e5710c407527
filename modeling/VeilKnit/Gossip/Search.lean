import VeilKnit.Gossip.TokenIndex

/-!
# Searching by the index

A search that requires tokens narrows the objects by the index and then goes through what is
left; any other search goes through all entries. Both filter and rank what they go through in
the same way, so the index changes nothing about what a search finds.
-/

namespace VeilKnit.Gossip

open Library

/-- Going through a hash set in some order. -/
structure Iteration (α : Type) where
  toList : Finset α → List α
  nodup : ∀ set, (toList set).Nodup
  mem : ∀ set a, a ∈ toList set ↔ a ∈ set

variable {Digest Score : Type}

/-! ## The search -/

/-- The objects that one required probe leaves. -/
def TokenIndex.probeGroup (index : TokenIndex) (probe : GossipTokenProbe) :
    Finset GossipObjectKey :=
  (probe.tokens.foldl (fun group token =>
    some (match group, probe.matchMode with
      | none, _ => index token
      | some existing, .any => existing ∪ index token
      | some existing, .all => existing ∩ index token)) none).getD ∅

/-- The loop over the required probes ends early when no object is left. -/
def TokenIndex.narrow (index : TokenIndex) :
    Option (Finset GossipObjectKey) → List GossipTokenProbe → Option (Finset GossipObjectKey)
  | candidates, [] => candidates
  | candidates, probe :: probes =>
    let group := index.probeGroup probe
    let left := match candidates with
      | none => group
      | some existing => existing ∩ group
    if left = ∅ then some left else index.narrow (some left) probes

def TokenIndex.candidates (index : TokenIndex) (probes : List GossipTokenProbe) :
    Option (Finset GossipObjectKey) :=
  let required := probes.filter fun probe => decide (probe.polarity = .required)
  if required = [] then none else index.narrow none required

def verificationRank : GossipVerificationState → Nat
  | .conflicting => 0
  | .unverified => 1
  | .multiSourceHint => 2
  | .pointerConfirmed => 3
  | .authoritativeVerified => 4
  | .localPublished => 5

/-- What hits are compared by: the score, then how far they are verified, then the generation,
then when they were last seen. -/
def hitRank (hit : GossipSearchHit Score) : Score ×ₗ Nat ×ₗ Nat ×ₗ Nat :=
  toLex (hit.score, toLex (verificationRank hit.verification,
    toLex (hit.record.generation, hit.lastSeenAt)))

variable [LinearOrder Score] (prim : Primitives Digest Score)

/-- Hits of a higher rank come first. -/
def compareHits (left right : GossipSearchHit Score) : Bool :=
  decide (hitRank right ≤ hitRank left)

/-- What a search makes of one candidate. -/
def candidateHit (app : AppGossipState Digest) (query : GossipSearchQuery) (now : Nat)
    (key : GossipObjectKey) : Option (GossipSearchHit Score) :=
  match app.lookup key with
  | none => none
  | some entry =>
    if now < entry.record.expiresAt ∧ entry.record.namespace = query.namespace ∧
        (query.includeWithdrawn ∨ ¬ entry.record.withdrawn) then
      let (passes, matched) := tokenFiltersMatch entry query.tokenProbes ∅
      if ¬ passes then none
      else
        let score := prim.scoreEntry entry query.probes query.tokenProbes now
        if query.minScoreMilli.any (prim.belowMinimum score) then none
        else some (hitFromEntry entry score matched)
    else none

/-- The best hits among the candidates. -/
def bestHits (app : AppGossipState Digest) (query : GossipSearchQuery) (now : Nat)
    (keys : List GossipObjectKey) : List (GossipSearchHit Score) :=
  ((keys.filterMap (candidateHit prim app query now)).mergeSort compareHits).take query.limit

/-- The search starts from the candidates of the index, or from all entries where no tokens are
required. -/
def TokenIndex.searchAppState (index : TokenIndex) (iteration : Iteration GossipObjectKey)
    (app : AppGossipState Digest) (query : GossipSearchQuery) (now : Nat) :
    List (GossipSearchHit Score) :=
  let candidateKeys := (index.candidates query.tokenProbes).getD app.keys.toFinset
  bestHits prim app query now (iteration.toList candidateKeys)


/-! ## What a search is to find -/

/-- A record meets the tokens of a group. -/
def GossipTokenProbe.Meets (probe : GossipTokenProbe) (record : GossipRecord) : Prop :=
  match probe.matchMode with
  | .all => ∀ token ∈ probe.tokens, token ∈ record.indexTokens
  | .any => ∃ token ∈ probe.tokens, token ∈ record.indexTokens

/-- An entry may be shown to who asks. -/
structure Eligible (query : GossipSearchQuery) (now : Nat)
    (entry : GossipCacheEntry Digest) : Prop where
  live : now < entry.record.expiresAt
  «namespace» : entry.record.namespace = query.namespace
  withdrawn : query.includeWithdrawn = true ∨ entry.record.withdrawn = false
  required : ∀ probe ∈ query.tokenProbes, probe.polarity = .required → probe.Meets entry.record
  excluded : ∀ probe ∈ query.tokenProbes, probe.polarity = .exclude → ¬ probe.Meets entry.record
  score : query.minScoreMilli.any (prim.belowMinimum
    (prim.scoreEntry entry query.probes query.tokenProbes now)) = false

/-- How an entry is shown. -/
def entryHit (query : GossipSearchQuery) (now : Nat) (entry : GossipCacheEntry Digest) :
    GossipSearchHit Score :=
  hitFromEntry entry (prim.scoreEntry entry query.probes query.tokenProbes now)
    (tokenFiltersMatch entry query.tokenProbes ∅).2

section Filters

variable {prim : Primitives Digest Score} {entry : GossipCacheEntry Digest}
  {query : GossipSearchQuery} {now : Nat}

theorem tokenProbeGroupMatches_iff (entry : GossipCacheEntry Digest) (probe : GossipTokenProbe) :
    tokenProbeGroupMatches entry probe = true ↔ probe.Meets entry.record := by
  unfold tokenProbeGroupMatches tokenProbeMatchCount GossipTokenProbe.Meets
  cases probe.matchMode with
  | all =>
    rw [decide_eq_true_iff, List.length_filter_eq_length_iff]
    simp
  | any =>
    rw [decide_eq_true_iff, List.length_pos_iff_exists_mem]
    simp

/-- The filter of a search passes what meets all groups that are required and none that is
excluded. -/
theorem tokenFiltersMatch_iff (probes : List GossipTokenProbe) (matched : Finset GossipIndexToken) :
    (tokenFiltersMatch entry probes matched).1 = true ↔
      (∀ probe ∈ probes, probe.polarity = .required → probe.Meets entry.record) ∧
        ∀ probe ∈ probes, probe.polarity = .exclude → ¬ probe.Meets entry.record := by
  induction probes generalizing matched with
  | nil => simp [tokenFiltersMatch]
  | cons probe probes ih =>
    have hmeets := tokenProbeGroupMatches_iff entry probe
    rw [tokenFiltersMatch, List.forall_mem_cons, List.forall_mem_cons]
    cases hpolarity : probe.polarity <;> cases hgroup : tokenProbeGroupMatches entry probe
    all_goals
      rw [hgroup] at hmeets
      simp_all

omit [LinearOrder Score] in
theorem candidateHit_of_lookup {app : AppGossipState Digest} {key : GossipObjectKey}
    (h : app.lookup key = some entry) (hit : GossipSearchHit Score) :
    candidateHit prim app query now key = some hit ↔
      Eligible prim query now entry ∧ hit = entryHit prim query now entry := by
  unfold candidateHit
  rw [h]
  dsimp only
  constructor
  · intro hhit
    obtain ⟨hshown, hhit⟩ := Option.ite_none_right_eq_some.mp hhit
    split at hhit
    case isTrue => cases hhit
    case isFalse hpasses =>
    split at hhit
    case isTrue => cases hhit
    case isFalse hscore =>
      obtain ⟨hrequired, hexcluded⟩ :=
        (tokenFiltersMatch_iff query.tokenProbes ∅).mp (not_not.mp hpasses)
      refine ⟨⟨hshown.1, hshown.2.1, ?_, hrequired, hexcluded, by simpa using hscore⟩, ?_⟩
      · simpa using hshown.2.2
      · exact (Option.some.inj hhit).symm
  rintro ⟨heligible, rfl⟩
  have hpasses := (tokenFiltersMatch_iff query.tokenProbes ∅).mpr
    ⟨heligible.required, heligible.excluded⟩
  rw [if_pos ⟨heligible.live, heligible.namespace, by simpa using heligible.withdrawn⟩,
    if_neg (not_not.mpr hpasses), if_neg (by simpa using heligible.score)]
  rfl

end Filters

/-! ## What the index leaves -/

section Candidates

variable {index : TokenIndex} {key : GossipObjectKey} {probe : GossipTokenProbe}

/-- An object is in the group of a probe by its postings. -/
theorem TokenIndex.mem_probeGroup (tokens : probe.tokens ≠ []) : key ∈ index.probeGroup probe ↔
      match probe.matchMode with
      | .all => ∀ token ∈ probe.tokens, key ∈ index token
      | .any => ∃ token ∈ probe.tokens, key ∈ index token := by
  obtain ⟨first, rest, htokens⟩ := List.exists_cons_of_ne_nil tokens
  unfold probeGroup
  rw [htokens, List.foldl_cons]
  cases probe.matchMode with
  | all =>
    have hfold : ∀ (rest : List GossipIndexToken) (existing : Finset GossipObjectKey),
        key ∈ (rest.foldl (fun group token => some (match group with
          | none => index token
          | some existing => existing ∩ index token)) (some existing)).getD ∅ ↔
            key ∈ existing ∧ ∀ token ∈ rest, key ∈ index token := by
      intro rest
      induction rest with
      | nil => simp
      | cons token rest ih =>
        intro existing
        rw [List.foldl_cons, ih, Finset.mem_inter, List.forall_mem_cons, and_assoc]
    rw [List.forall_mem_cons, ← hfold]
    exact iff_of_eq (congrArg (fun group : Option (Finset GossipObjectKey) =>
      key ∈ group.getD ∅) (List.foldl_ext _ _ _ fun group token _ => by cases group <;> rfl))
  | any =>
    have hfold : ∀ (rest : List GossipIndexToken) (existing : Finset GossipObjectKey),
        key ∈ (rest.foldl (fun group token => some (match group with
          | none => index token
          | some existing => existing ∪ index token)) (some existing)).getD ∅ ↔
            key ∈ existing ∨ ∃ token ∈ rest, key ∈ index token := by
      intro rest
      induction rest with
      | nil => simp
      | cons token rest ih =>
        intro existing
        rw [List.foldl_cons, ih, Finset.mem_union, or_assoc]
        simp
    rw [List.exists_mem_cons_iff, ← hfold]
    exact iff_of_eq (congrArg (fun group : Option (Finset GossipObjectKey) =>
      key ∈ group.getD ∅) (List.foldl_ext _ _ _ fun group token _ => by cases group <;> rfl))

/-- Ending the loop early leaves nothing, as going on would. -/
theorem TokenIndex.narrow_some (index : TokenIndex) (probes : List GossipTokenProbe)
    (candidates : Finset GossipObjectKey) :
    ∃ left, index.narrow (some candidates) probes = some left ∧
      ∀ key, key ∈ left ↔ key ∈ candidates ∧ ∀ probe ∈ probes, key ∈ index.probeGroup probe := by
  induction probes generalizing candidates with
  | nil => exact ⟨candidates, rfl, fun key => by simp⟩
  | cons probe probes ih =>
    rw [narrow]
    split
    case isTrue hempty =>
      refine ⟨_, rfl, fun key => ?_⟩
      have hnone : key ∉ candidates ∩ index.probeGroup probe := by simp [hempty]
      rw [Finset.mem_inter] at hnone ⊢
      rw [List.forall_mem_cons]
      tauto
    case isFalse =>
      obtain ⟨left, hleft, hmem⟩ := ih (candidates ∩ index.probeGroup probe)
      refine ⟨left, hleft, fun key => ?_⟩
      rw [hmem, Finset.mem_inter, List.forall_mem_cons, and_assoc]

theorem TokenIndex.narrow_none (index : TokenIndex) (first : GossipTokenProbe)
    (probes : List GossipTokenProbe) :
    ∃ left, index.narrow none (first :: probes) = some left ∧
      ∀ key, key ∈ left ↔ ∀ probe ∈ first :: probes, key ∈ index.probeGroup probe := by
  rw [narrow]
  split
  case isTrue hempty =>
    refine ⟨_, rfl, fun key => ?_⟩
    have hnone : key ∉ index.probeGroup first := by simp [hempty]
    rw [List.forall_mem_cons]
    tauto
  case isFalse =>
    obtain ⟨left, hleft, hmem⟩ := narrow_some index probes (index.probeGroup first)
    exact ⟨left, hleft, fun key => by rw [hmem, List.forall_mem_cons]⟩

/-- The candidates are the objects in the groups of all required probes, or there are none
required. -/
theorem TokenIndex.candidates_cases (index : TokenIndex) (probes : List GossipTokenProbe) :
    index.candidates probes = none ∨ (∃ probe ∈ probes, probe.polarity = .required) ∧
        ∃ left, index.candidates probes = some left ∧ ∀ key, key ∈ left ↔
          ∀ probe ∈ probes, probe.polarity = .required → key ∈ index.probeGroup probe := by
  unfold candidates
  dsimp only
  split
  case isTrue => exact .inl rfl
  case isFalse hsome =>
  obtain ⟨first, rest, hrequired⟩ := List.exists_cons_of_ne_nil hsome
  obtain ⟨left, hleft, hmem⟩ := narrow_none index first rest
  have hfirst : first ∈ probes.filter fun probe => decide (probe.polarity = .required) := by
    rw [hrequired]
    exact List.mem_cons_self
  rw [List.mem_filter, decide_eq_true_iff] at hfirst
  refine .inr ⟨⟨first, hfirst⟩, left, by rw [hrequired, hleft], fun key => ?_⟩
  rw [hmem, ← hrequired]
  simp

end Candidates

/-! ## The search finds what a scan finds -/

section Scan

variable [DecidableEq Digest] {prim : Primitives Digest Score} {mainDht : String}
  {app : AppGossipState Digest} {query : GossipSearchQuery} {now : Nat}
  {entry : GossipCacheEntry Digest} {key : GossipObjectKey}

theorem forM_eq_ok {ε α : Type} {f : α → Except ε Unit} {items : List α}
    (h : items.forM f = .ok ()) : ∀ item ∈ items, f item = .ok () := by
  induction items with
  | nil => nofun
  | cons first items ih =>
    obtain ⟨_, hfirst, hrest⟩ := except_bind_eq_ok.mp h
    intro item hitem
    rcases List.mem_cons.mp hitem with rfl | hitem
    · exact hfirst
    · exact ih hrest item hitem

/-- A query that passes its check names tokens in each of its groups. -/
theorem tokens_of_validateQuery (valid : validateQuery query = .ok ()) :
    ∀ probe ∈ query.tokenProbes, probe.tokens ≠ [] := by
  obtain ⟨-, -, valid⟩ := except_bind_eq_ok.mp valid
  have hshaped := (except_passed_of_ok (except_passed_of_ok (except_passed_of_ok valid).2).2).2
  obtain ⟨-, -, valid⟩ := except_bind_eq_ok.mp hshaped
  obtain ⟨_, hprobes, -⟩ := except_bind_eq_ok.mp (except_passed_of_ok valid).2
  intro probe hprobe hnone
  have hvalid := forM_eq_ok hprobes probe hprobe
  rw [validateTokenProbe, if_pos (.inl hnone)] at hvalid
  cases hvalid

omit [DecidableEq Digest] in
/-- An entry that meets a group is in the group of the index, unless it is withdrawn. -/
theorem mem_probeGroup_of_meets {probe : GossipTokenProbe} (h : app.lookup key = some entry)
    (tombstone : entry.record.withdrawn = true → entry.record.indexTokens = [])
    (tokens : probe.tokens ≠ []) :
    key ∈ (rebuildTokenIndex app).probeGroup probe ↔ probe.Meets entry.record := by
  have hposted : ∀ token, key ∈ rebuildTokenIndex app token ↔ token ∈ entry.record.indexTokens := by
    intro token
    rw [mem_rebuildTokenIndex]
    constructor
    · rintro ⟨e, he, -, htoken⟩
      cases h.symm.trans he
      exact htoken
    · intro htoken
      refine ⟨entry, h, Bool.not_eq_true _ ▸ fun hwithdrawn => ?_, htoken⟩
      rw [tombstone hwithdrawn] at htoken
      cases htoken
  rw [TokenIndex.mem_probeGroup tokens, GossipTokenProbe.Meets]
  cases probe.matchMode <;> simp [hposted]

omit [DecidableEq Digest] [LinearOrder Score] in
/-- What the index leaves are objects with entries, and all that a search may show. -/
theorem candidates_sound (prim : Primitives Digest Score) (now : Nat)
    (tombstones : ∀ key e, app.lookup key = some e →
      e.record.withdrawn = true → e.record.indexTokens = [])
    (valid : validateQuery query = .ok ()) {left : Finset GossipObjectKey}
    (h : (rebuildTokenIndex app).candidates query.tokenProbes = some left) :
    (∀ key ∈ left, key ∈ app.keys) ∧
      ∀ key e, app.lookup key = some e → Eligible prim query now e → key ∈ left := by
  have htokens := tokens_of_validateQuery valid
  rcases (rebuildTokenIndex app).candidates_cases query.tokenProbes with
    hnone | ⟨⟨probe, hprobe, hpolarity⟩, left', hleft, hmem⟩
  · cases hnone.symm.trans h
  cases hleft.symm.trans h
  refine ⟨fun key hkey => ?_, fun key e he heligible => ?_⟩
  · have hgroup := (hmem key).mp hkey probe hprobe hpolarity
    rw [TokenIndex.mem_probeGroup (htokens probe hprobe)] at hgroup
    have hposted : ∃ token, key ∈ rebuildTokenIndex app token := by
      obtain ⟨first, rest, hcons⟩ := List.exists_cons_of_ne_nil (htokens probe hprobe)
      cases hmode : probe.matchMode with
      | all =>
        rw [hmode, hcons] at hgroup
        exact ⟨first, hgroup first List.mem_cons_self⟩
      | any =>
        rw [hmode] at hgroup
        obtain ⟨token, -, htoken⟩ := hgroup
        exact ⟨token, htoken⟩
    obtain ⟨token, htoken⟩ := hposted
    obtain ⟨e, he, -⟩ := mem_rebuildTokenIndex.mp htoken
    exact AList.lookup_isSome.mp (Option.isSome_of_eq_some he)
  · rw [hmem]
    intro probe' hprobe' hpolarity'
    rw [mem_probeGroup_of_meets he (tombstones key e he) (htokens probe' hprobe')]
    exact heligible.required probe' hprobe' hpolarity'

omit [DecidableEq Digest] in
/-- Starting from the index or from all entries, a search goes through all that it may show. -/
theorem searchAppState_eq_bestHits (prim : Primitives Digest Score) (now : Nat)
    (tombstones : ∀ key e, app.lookup key = some e →
      e.record.withdrawn = true → e.record.indexTokens = [])
    (valid : validateQuery query = .ok ()) (iteration : Iteration GossipObjectKey) :
    ∃ keys, keys.Perm app.keys ∧
      (rebuildTokenIndex app).searchAppState prim iteration app query now =
        bestHits prim app query now keys := by
  unfold TokenIndex.searchAppState
  cases hcandidates : (rebuildTokenIndex app).candidates query.tokenProbes with
  | none =>
    refine ⟨_, ?_, rfl⟩
    rw [List.perm_ext_iff_of_nodup (iteration.nodup _) app.keys_nodup]
    intro key
    rw [iteration.mem, Option.getD_none, List.mem_toFinset]
  | some left =>
    obtain ⟨hkeys, hcomplete⟩ :=
      candidates_sound prim now tombstones valid hcandidates
    obtain ⟨others, hothers⟩ : ∃ others, others = app.keys.filter fun key => key ∉ left :=
      ⟨_, rfl⟩
    refine ⟨iteration.toList left ++ others, ?_, ?_⟩
    · have hnodup : (iteration.toList left ++ others).Nodup := by
        rw [List.nodup_append', hothers]
        refine ⟨iteration.nodup left, app.keys_nodup.filter _, fun key hleft hother => ?_⟩
        rw [iteration.mem] at hleft
        simp [hleft] at hother
      rw [List.perm_ext_iff_of_nodup hnodup app.keys_nodup]
      intro key
      rw [List.mem_append, iteration.mem, hothers, List.mem_filter]
      by_cases hleft : key ∈ left
      · simpa [hleft] using hkeys key hleft
      · simp [hleft, AList.keys]
    have hnothing : others.filterMap (candidateHit prim app query now) = [] := by
      rw [List.filterMap_eq_nil_iff]
      intro key hkey
      rw [hothers, List.mem_filter] at hkey
      obtain ⟨e, he⟩ := Option.isSome_iff_exists.mp (AList.lookup_isSome.mpr hkey.1)
      by_contra hhit
      obtain ⟨hit, hhit⟩ := Option.ne_none_iff_exists'.mp hhit
      have hleft := hcomplete key e he ((candidateHit_of_lookup he hit).mp hhit).1
      simp [hleft] at hkey
    rw [bestHits, bestHits, List.filterMap_append, hnothing, List.append_nil, Option.getD_some]

/-- Sorted hits, at most as many as asked for, of entries that may be shown, and no entry of a
higher rank that may be shown is left out. -/
structure Finds (prim : Primitives Digest Score) (app : AppGossipState Digest)
    (query : GossipSearchQuery) (now : Nat) (hits : List (GossipSearchHit Score)) : Prop where
  sorted : hits.Pairwise fun left right => hitRank right ≤ hitRank left
  bounded : hits.length ≤ query.limit
  sound : ∀ hit ∈ hits, ∃ key e, app.lookup key = some e ∧ Eligible prim query now e ∧
    hit = entryHit prim query now e
  complete : ∀ key e, app.lookup key = some e → Eligible prim query now e →
    entryHit prim query now e ∈ hits ∨
      ∀ hit ∈ hits, hitRank (entryHit prim query now e) ≤ hitRank hit

omit [DecidableEq Digest] in
theorem bestHits_finds {keys : List GossipObjectKey} (perm : keys.Perm app.keys) :
    Finds prim app query now (bestHits prim app query now keys) := by
  obtain ⟨all, hall⟩ : ∃ all, all = keys.filterMap (candidateHit prim app query now) := ⟨_, rfl⟩
  have hsorted : (all.mergeSort compareHits).Pairwise fun left right =>
      hitRank right ≤ hitRank left := by
    have hle : ∀ a b : GossipSearchHit Score, compareHits a b = true ↔ hitRank b ≤ hitRank a :=
      fun a b => decide_eq_true_iff
    refine (List.pairwise_mergeSort (fun a b c hab hbc => ?_) (fun a b => ?_) all).imp
      fun h => (hle _ _).mp h
    · exact (hle a c).mpr (((hle b c).mp hbc).trans ((hle a b).mp hab))
    · rw [Bool.or_eq_true]
      exact (le_total (hitRank b) (hitRank a)).imp (hle a b).mpr (hle b a).mpr
  have hmem : ∀ hit, hit ∈ all.mergeSort compareHits ↔ ∃ key e, app.lookup key = some e ∧
      Eligible prim query now e ∧ hit = entryHit prim query now e := by
    intro hit
    rw [List.mem_mergeSort, hall, List.mem_filterMap]
    constructor
    · rintro ⟨key, hkey, hhit⟩
      have hkey' : key ∈ app.keys := perm.mem_iff.mp hkey
      obtain ⟨e, he⟩ := Option.isSome_iff_exists.mp (AList.lookup_isSome.mpr hkey')
      exact ⟨key, e, he, (candidateHit_of_lookup he hit).mp hhit⟩
    · rintro ⟨key, e, he, hhit⟩
      have hkey : key ∈ app.keys := AList.lookup_isSome.mp (Option.isSome_of_eq_some he)
      exact ⟨key, perm.mem_iff.mpr hkey, (candidateHit_of_lookup he hit).mpr hhit⟩
  unfold bestHits
  rw [← hall]
  constructor
  · exact hsorted.sublist (List.take_sublist _ _)
  · exact List.length_take_le _ _
  · exact fun hit hhit => (hmem hit).mp (List.mem_of_mem_take hhit)
  intro key e he heligible
  have hhit := (hmem _).mpr ⟨key, e, he, heligible, rfl⟩
  rw [← List.take_append_drop query.limit (all.mergeSort compareHits)] at hhit hsorted
  rcases List.mem_append.mp hhit with htaken | hdropped
  · exact .inl htaken
  · exact .inr fun hit htaken => (List.pairwise_append.mp hsorted).2.2 hit htaken _ hdropped

end Scan

namespace Sample

def token : GossipIndexToken := ⟨[1]⟩

/-- A query that requires the token. -/
def tokenQuery : GossipSearchQuery where
  «namespace» := "n"
  probes := []
  tokenProbes := [⟨[token, token], .required, .all, 1⟩]
  limit := 1
  minScoreMilli := none
  includeWithdrawn := true

/-- The node after it has published an object with the token. -/
def tokenNode : IndexedNode GossipRecord Unit :=
  IndexedNode.perform primitives "me" (answers 0) ⟨.new GossipRecord Unit, fun _ _ => ∅⟩
    (.publish "app" { request 0 86400 with indexTokens := [token] })

noncomputable def iteration : Iteration GossipObjectKey :=
  ⟨Finset.toList, Finset.nodup_toList, fun _ _ => Finset.mem_toList⟩

end Sample

end VeilKnit.Gossip
