import Mathlib.Data.List.AList
import Mathlib.Data.List.Dedup
import Mathlib.Data.List.Rotate
import VeilKnit.Lexical.Tokenize
import VeilKnit.Library.MinHash

/-!
# The fingerprints of an observed text

Each object is given two MinHash signatures over the words seen in it. The one for its topic takes
all words. The one for its language takes those that are common in the layer or were mentioned
more than once; where there is none, it falls back on the eight words mentioned most. That
fallback ranks the entries of a hash map by their counts alone, so that the order in which the map
is walked decides between words that tie across the eighth place.

Hash maps and sets are walked in an order of their own. A map of counts is a list of entries
without a repeated key, and two lists that are permutations of each other are the same map walked
in two orders.

## Main results

* `topicMinhash_congr` — the topic depends on the set of words only
* `fingerprints_depend_on_contents_iff` — when the two fingerprints depend on the contents only
-/

namespace VeilKnit.Lexical

open Library (Bytes)
open Library.Blake3 (Digest)
open Library.MinHash Library.TopRanked

def contextMinhashComponents : Nat := 32
def languageMinhashComponents : Nat := 32

/-- The order in which a hash set that was collected from a list is walked. -/
structure HashOrder where
  walk : List WordId → List WordId
  nodup_walk : ∀ ids, (walk ids).Nodup
  mem_walk : ∀ ids id, id ∈ walk ids ↔ id ∈ ids

/-- The order of the list itself, without repetitions. -/
def listOrder : HashOrder where
  walk := List.dedup
  nodup_walk := List.nodup_dedup
  mem_walk _ _ := List.mem_dedup

/-- A hash map of counts, with the order in which it is walked. -/
abbrev MentionCounts := AList fun _ : WordId => Nat

section Fingerprints

variable (blake3 : Bytes → Digest)

/-- The value of a word under the hash function of one slot, a number of 16 bits. -/
def minhashValue (index : Nat) (word : WordId) : Nat :=
  Library.Codec.leValue
    ((blake3 (domain "VK-LEX-MINHASH-V1" ++ Library.Codec.leBytes 2 index ++ word.1)).1.take 2)

/-- The signature over a set of words, of at least one and at most 128 components. -/
def minhashWordIds (order : HashOrder) (ids : List WordId) (components : Nat) : List Nat :=
  signature (minhashValue blake3) (2 ^ 16 - 1) (max 1 (min components 128)) (order.walk ids)

def topicMinhash (order : HashOrder) (ids : List WordId) : List Nat :=
  minhashWordIds blake3 order ids contextMinhashComponents

/-- Whether a word counts for the language: it is common, or was mentioned more than once. -/
def CountsForLanguage (counts : MentionCounts) (common : WordId → Bool) (id : WordId) : Prop :=
  common id ∨ 1 < (counts.lookup id).getD 0

instance (counts : MentionCounts) (common : WordId → Bool) :
    DecidablePred (CountsForLanguage counts common) := fun id =>
  inferInstanceAs (Decidable (common id ∨ 1 < (counts.lookup id).getD 0))

def mentions (entry : (_ : WordId) × Nat) : Nat := entry.2

/-- The words over which the language signature is taken. -/
def languageCandidates (ids : List WordId) (counts : MentionCounts) (common : WordId → Bool) :
    List WordId :=
  let candidates := ids.filter fun id => CountsForLanguage counts common id
  if candidates = [] then (leaders mentions 8 counts.entries).map Sigma.fst else candidates

def languageMinhash (order : HashOrder) (ids : List WordId) (counts : MentionCounts)
    (common : WordId → Bool) : List Nat :=
  minhashWordIds blake3 order (languageCandidates ids counts common) languageMinhashComponents

/-- The value of an entry's word in one slot. -/
def entryValue (slot : Nat) (entry : (_ : WordId) × Nat) : Nat :=
  minhashValue blake3 slot entry.1

end Fingerprints

variable {blake3 : Bytes → Digest}

theorem minhashValue_le (slot : Nat) (word : WordId) :
    minhashValue blake3 slot word ≤ 2 ^ 16 - 1 := by
  have hlt := Library.Codec.leValue_lt
    ((blake3 (domain "VK-LEX-MINHASH-V1" ++ Library.Codec.leBytes 2 slot ++ word.1)).1.take 2)
  have hle : 256 ^ ((blake3 (domain "VK-LEX-MINHASH-V1" ++
      Library.Codec.leBytes 2 slot ++ word.1)).1.take 2).length ≤ 256 ^ 2 :=
    Nat.pow_le_pow_right (by decide) (List.length_take_le _ _)
  rw [minhashValue]
  omega

variable {ids ids' : List WordId} {order order' : HashOrder}

/-- A signature over a set depends on its members only. -/
theorem minhashWordIds_eq_iff (components : Nat) :
    minhashWordIds blake3 order ids components = minhashWordIds blake3 order' ids' components ↔
      ∀ slot < max 1 (min components 128), least (minhashValue blake3) (2 ^ 16 - 1) slot ids =
          least (minhashValue blake3) (2 ^ 16 - 1) slot ids' := by
  rw [minhashWordIds, minhashWordIds, signature_eq_iff]
  refine forall₂_congr fun slot _ => ?_
  rw [least_congr (order.mem_walk ids), least_congr (order'.mem_walk ids')]

theorem topicMinhash_congr (h : ∀ id, id ∈ ids' ↔ id ∈ ids) :
    topicMinhash blake3 order ids = topicMinhash blake3 order' ids' :=
  (minhashWordIds_eq_iff _).mpr fun _ _ => least_congr fun id => (h id).symm

variable {counts : MentionCounts} {common : WordId → Bool}

/-- The same map counts every word alike, in whatever order it is walked. -/
theorem countsForLanguage_congr {counts' : MentionCounts}
    (h : counts'.entries.Perm counts.entries) (id : WordId) :
    CountsForLanguage counts' common id ↔ CountsForLanguage counts common id := by
  rw [CountsForLanguage, CountsForLanguage, AList.perm_lookup h]

theorem filter_eq_nil_iff : (ids.filter fun id => CountsForLanguage counts common id) = [] ↔
      ¬ ∃ id ∈ ids, CountsForLanguage counts common id := by
  rw [List.filter_eq_nil_iff]
  simp only [decide_eq_true_eq, not_exists, not_and]

/-- Without a word that counts, one slot of the fallback agrees for all orders of the map if and
only if it is settled. -/
theorem least_fallback_iff (slot : Nat) :
    (∀ counts' : MentionCounts, counts'.entries.Perm counts.entries →
      least (minhashValue blake3) (2 ^ 16 - 1) slot
          ((leaders mentions 8 counts'.entries).map Sigma.fst) =
        least (minhashValue blake3) (2 ^ 16 - 1) slot
          ((leaders mentions 8 counts.entries).map Sigma.fst)) ↔
      Settled (entryValue blake3) mentions 8 counts.entries slot := by
  rw [← least_leaders_iff (2 ^ 16 - 1) (by decide) fun entry => minhashValue_le slot entry.1]
  constructor
  · intro hall entries hperm
    have hsame := hall ⟨entries, (List.perm_nodupKeys hperm).mpr counts.nodupKeys⟩ hperm
    rwa [least_map, least_map] at hsame
  · intro hall counts' hperm
    rw [least_map, least_map]
    exact hall counts'.entries hperm

/-- Both fingerprints depend on the set of words, the counts and the common words only, and not
on the order of the list or of the maps, if and only if some word counts for the language, or in
each component the least value among the entries that can come among the first eight is settled:
it belongs to an entry that is certain to be among them, or to more entries than the cut leaves
out. -/
theorem fingerprints_depend_on_contents_iff (ids : List WordId) (counts : MentionCounts)
    (common : WordId → Bool) :
    (∀ (order order' : HashOrder) (ids' : List WordId) (counts' : MentionCounts),
      (∀ id, id ∈ ids' ↔ id ∈ ids) → counts'.entries.Perm counts.entries →
        topicMinhash blake3 order' ids' = topicMinhash blake3 order ids ∧
          languageMinhash blake3 order' ids' counts' common =
            languageMinhash blake3 order ids counts common) ↔
      (∃ id ∈ ids, CountsForLanguage counts common id) ∨ ∀ slot < languageMinhashComponents,
          Settled (entryValue blake3) mentions 8 counts.entries slot := by
  have hcandidates : ∀ {ids' : List WordId} {counts' : MentionCounts},
      (∀ id, id ∈ ids' ↔ id ∈ ids) → counts'.entries.Perm counts.entries →
        ((∃ id ∈ ids', CountsForLanguage counts' common id) ↔
          ∃ id ∈ ids, CountsForLanguage counts common id) := by
    intro ids' counts' hids hcounts
    refine exists_congr fun id => ?_
    rw [hids, countsForLanguage_congr hcounts]
  by_cases hsome : ∃ id ∈ ids, CountsForLanguage counts common id
  · refine iff_of_true ?_ (Or.inl hsome)
    intro order order' ids' counts' hids hcounts
    refine ⟨topicMinhash_congr fun id => (hids id).symm, ?_⟩
    have hsome' := (hcandidates hids hcounts).mpr hsome
    -- The words that count are chosen by membership alone.
    refine (minhashWordIds_eq_iff _).mpr fun slot _ => least_congr fun id => ?_
    rw [languageCandidates, languageCandidates, if_neg (mt filter_eq_nil_iff.mp (not_not.mpr hsome)),
      if_neg (mt filter_eq_nil_iff.mp (not_not.mpr hsome')), List.mem_filter, List.mem_filter, hids,
      decide_eq_true_eq, decide_eq_true_eq, countsForLanguage_congr hcounts]
  rw [or_iff_right hsome]
  have hfallback : ∀ {ids' : List WordId} {counts' : MentionCounts},
      (∀ id, id ∈ ids' ↔ id ∈ ids) → counts'.entries.Perm counts.entries →
        languageCandidates ids' counts' common =
          (leaders mentions 8 counts'.entries).map Sigma.fst := fun hids hcounts =>
    if_pos (filter_eq_nil_iff.mpr (mt (hcandidates hids hcounts).mp hsome))
  have hown := hfallback (fun _ => Iff.rfl) (List.Perm.refl counts.entries)
  constructor
  · intro hall slot hslot
    refine (least_fallback_iff slot).mp fun counts' hcounts => ?_
    have hsame := (hall listOrder listOrder ids counts' (fun _ => Iff.rfl) hcounts).2
    rw [languageMinhash, languageMinhash, minhashWordIds_eq_iff, hown,
      hfallback (fun _ => Iff.rfl) hcounts] at hsame
    exact hsame slot hslot
  · intro hall order order' ids' counts' hids hcounts
    refine ⟨topicMinhash_congr fun id => (hids id).symm, ?_⟩
    rw [languageMinhash, languageMinhash, minhashWordIds_eq_iff, hown, hfallback hids hcounts]
    exact fun slot hslot => (least_fallback_iff slot).mpr (hall slot hslot) counts' hcounts

/-! ## A sample -/

namespace FingerprintSample

open Library.Blake3 (hash)

/-- The words of a text of nine letters. -/
def words : List WordId :=
  ['a', 'b', 'c', 'd', 'e', 'f', 'g', 'h', 'i'].map fun c => deriveWordId hash [c]

/-- The first byte of each word's identifier, and its value in the fourth slot. -/
theorem values_words : words.map (fun id => (id.1.take 1, minhashValue hash 3 id)) =
      [([208], 21070), ([3], 35666), ([195], 62984), ([59], 46424), ([62], 49664), ([249], 30398),
        ([234], 49265), ([31], 1705), ([15], 1373)] := by
  decide +kernel

theorem map_value_words : words.map (minhashValue hash 3) =
      [21070, 35666, 62984, 46424, 49664, 30398, 49265, 1705, 1373] := by
  have hsecond := congrArg (List.map Prod.snd) values_words
  rw [List.map_map] at hsecond
  exact hsecond

theorem nodup_words : words.Nodup := by
  have hfirst := congrArg (List.map Prod.fst) values_words
  rw [List.map_map] at hfirst
  refine List.Nodup.of_map (fun id : WordId => id.1.take 1) ?_
  rw [show words.map (fun id => id.1.take 1) = _ from hfirst]
  decide

/-- Every word mentioned once, in some order of the map. -/
def once (order : List WordId) (h : order.Nodup) : MentionCounts where
  entries := order.map fun id => ⟨id, 1⟩
  nodupKeys := by
    rw [List.NodupKeys, List.keys, List.map_map]
    exact (List.map_id order).symm ▸ h

/-- The map walked in the order of the text, and with the last word first. -/
def forward : MentionCounts := once words nodup_words

def rotated : MentionCounts := once (words.rotate 8) (List.nodup_rotate.mpr nodup_words)

theorem perm_rotated : rotated.entries.Perm forward.entries :=
  (List.rotate_perm words 8).map fun id => (⟨id, 1⟩ : (_ : WordId) × Nat)

/-- Entries that all tie stay in their order. -/
theorem leaders_once (order : List WordId) (h : order.Nodup) :
    (leaders mentions 8 (once order h).entries).map Sigma.fst = order.take 8 := by
  have hsorted : (once order h).entries.Pairwise fun a b => mentions b ≤ mentions a := by
    refine List.pairwise_map.mpr (List.pairwise_of_forall fun _ _ => le_rfl)
  rw [leaders, hsorted.insertionSort_eq, once, ← List.map_take, List.map_map]
  exact List.map_id _

theorem candidates_once (order : List WordId) (h : order.Nodup) :
    languageCandidates words (once order h) (fun _ => false) = order.take 8 := by
  rw [languageCandidates, if_pos, leaders_once]
  refine filter_eq_nil_iff.mpr ?_
  rintro ⟨id, -, hcommon | hcount⟩
  · cases hcommon
  cases hlookup : (once order h).lookup id with
  | none =>
    rw [hlookup] at hcount
    exact absurd hcount (by decide)
  | some count =>
    have hentry := AList.mem_lookup_iff.mp hlookup
    obtain ⟨_, -, heq⟩ := List.mem_map.mp hentry
    cases heq
    rw [hlookup] at hcount
    exact absurd hcount (by decide)

/-- One text of nine words, each mentioned once: in one order of the map the last word is left
out, in the other it lowers the fourth component. -/
theorem tied_words_differ :
    ¬ ∀ (order order' : HashOrder) (ids ids' : List WordId) (counts counts' : MentionCounts)
        (common : WordId → Bool),
      (∀ id, id ∈ ids' ↔ id ∈ ids) → counts'.entries.Perm counts.entries →
        languageMinhash hash order' ids' counts' common =
          languageMinhash hash order ids counts common := by
  intro hall
  have hsame := hall listOrder listOrder words words forward rotated (fun _ => false)
    (fun _ => Iff.rfl) perm_rotated
  rw [languageMinhash, languageMinhash, minhashWordIds_eq_iff] at hsame
  have hslot := hsame 3 (by decide)
  rw [rotated, forward, candidates_once, candidates_once, least_eq_foldl, least_eq_foldl,
    List.map_take, List.map_take, List.map_rotate, map_value_words] at hslot
  exact absurd hslot (by decide)

end FingerprintSample

end VeilKnit.Lexical
