import VeilKnit.Lexical.Tokenize

/-!
# The identifiers of observed and of searched words

Observing a text brings each piece into canonical form twice, searching for it once. Both arrive
at one identifier as long as the canonical form is a fixed point. It is one, but for a single
character: normalisation turns the Greek question mark into a semicolon, which the second pass
strips from the ends of the word.

## Main definitions

* `Unicode.Specified` — what the code relies on of lower-casing and of normalisation
* `KeepsEnds` — no end of a piece is the Greek question mark

## Main results

* `canonicalizeWordV1_idempotent_iff` — the canonical form is a fixed point just then
* `observed_as_searched_iff` — a word is filed under the identifier a search derives just then
-/

namespace VeilKnit.Lexical

open Library (Bytes)
open Library.Blake3 (Digest)
open Library.Text (trimMatches)

/-- The character `U+037E`, which no list of punctuation names. -/
def greekQuestionMark : Char := '\u037e'

/-- A character that stays apart from the punctuation. -/
def Ordinary (c : Char) : Prop := isEdgePunctuation c = false ∧ c ≠ greekQuestionMark

inductive Side
  | front | back

/-- The character at one end of a text. -/
def Side.endOf : Side → List Char → Option Char
  | .front, text => text.head?
  | .back, text => text.getLast?

theorem Side.mem_of_endOf {side : Side} {text : List Char} {c : Char}
    (h : side.endOf text = some c) : c ∈ text := by
  cases side with
  | front => exact List.mem_of_mem_head? h
  | back => exact List.mem_of_getLast? h

theorem Side.exists_endOf (side : Side) {text : List Char} (h : text ≠ []) :
    ∃ c, side.endOf text = some c := by
  cases side with
  | front => exact ⟨_, List.head?_eq_some_head h⟩
  | back => exact ⟨_, List.getLast?_eq_some_getLast h⟩

/-- No end of the text is the Greek question mark. -/
def KeepsEnds (text : List Char) : Prop := ∀ side : Side, side.endOf text ≠ some greekQuestionMark

/-- What Unicode says of lower-casing and of the normalisation form C: the form is a fixed point,
and lower case stays lower case in it. An ordinary character lowers to ordinary ones, and an
ordinary end of a text leaves an end that is no punctuation. The Greek question mark has no other
case; it is canonically the semicolon, so that it never occurs in a normalised text. -/
structure Unicode.Specified (unicode : Unicode) : Prop where
  nfc_nfc : ∀ text, unicode.nfc (unicode.nfc text) = unicode.nfc text
  lower_nfc_lower :
    ∀ text, unicode.lower (unicode.nfc (unicode.lower text)) = unicode.nfc (unicode.lower text)
  lower_ordinary :
    ∀ c, Ordinary c → unicode.toLowercase c ≠ [] ∧ ∀ d ∈ unicode.toLowercase c, Ordinary d
  lower_question : unicode.toLowercase greekQuestionMark = [greekQuestionMark]
  nfc_ordinary :
    ∀ (side : Side) (text : List Char) (c : Char), side.endOf text = some c → Ordinary c →
      ∃ d, side.endOf (unicode.nfc text) = some d ∧ isEdgePunctuation d = false
  nfc_question : ∀ (side : Side) (text : List Char), side.endOf text = some greekQuestionMark →
      side.endOf (unicode.nfc text) = some ';'
  question_notMem_nfc : ∀ text, greekQuestionMark ∉ unicode.nfc text

section Ends

variable {unicode : Unicode} {c : Char}

/-- The end of a text in lower case is the end of what the text's end becomes. -/
theorem endOf_lower (side : Side) {text : List Char} (hend : side.endOf text = some c)
    (hsome : unicode.toLowercase c ≠ []) :
    side.endOf (unicode.lower text) = side.endOf (unicode.toLowercase c) := by
  cases side with
  | front =>
    obtain ⟨rest, rfl⟩ := List.head?_eq_some_iff.mp hend
    exact List.head?_append_of_ne_nil _ hsome
  | back =>
    obtain ⟨rest, rfl⟩ := List.getLast?_eq_some_iff.mp hend
    rw [Unicode.lower, List.flatMap_append, List.flatMap_singleton]
    exact List.getLast?_append_of_ne_nil _ hsome

/-- A text stripped of punctuation has ends that are none. -/
theorem endOf_trimMatches {side : Side} {text : List Char}
    (h : side.endOf (trimMatches isEdgePunctuation text) = some c) :
    isEdgePunctuation c = false := by
  cases side with
  | front => exact Library.Text.head?_trimMatches isEdgePunctuation h
  | back => exact Library.Text.getLast?_trimMatches isEdgePunctuation h

theorem trimMatches_eq_self {p : Char → Bool} {text : List Char}
    (h : ∀ (side : Side) (c : Char), side.endOf text = some c → p c = false) :
    trimMatches p text = text :=
  Library.Text.trimMatches_eq_self p (fun c hc => h .front c hc) fun c hc => h .back c hc

theorem isWhitespace_of_not_edge (h : isEdgePunctuation c = false) : isWhitespace c = false :=
  (Bool.or_eq_false_iff.mp h).1

/-- The word in lower case and normalised. -/
def folded (unicode : Unicode) (word : List Char) : List Char := unicode.nfc (unicode.lower word)

namespace Unicode.Specified

variable (hunicode : unicode.Specified)
include hunicode

theorem folded_folded (word : List Char) :
    folded unicode (folded unicode word) = folded unicode word := by
  rw [folded, folded, hunicode.lower_nfc_lower, hunicode.nfc_nfc]

variable {word raw canonical : List Char} {side : Side}

theorem endOf_folded_of_ordinary {c : Char} (hend : side.endOf word = some c) (hc : Ordinary c) :
    ∃ d, side.endOf (folded unicode word) = some d ∧ isEdgePunctuation d = false := by
  obtain ⟨hsome, hall⟩ := hunicode.lower_ordinary c hc
  obtain ⟨d, hd⟩ := side.exists_endOf hsome
  have hlower := (endOf_lower side hend hsome).trans hd
  exact hunicode.nfc_ordinary side _ d hlower (hall d (Side.mem_of_endOf hd))

theorem endOf_folded_of_question (hend : side.endOf word = some greekQuestionMark) :
    side.endOf (folded unicode word) = some ';' := by
  have hsome : unicode.toLowercase greekQuestionMark ≠ [] := by
    rw [hunicode.lower_question]
    exact List.cons_ne_nil _ _
  refine hunicode.nfc_question side _ ((endOf_lower side hend hsome).trans ?_)
  rw [hunicode.lower_question]
  cases side <;> rfl

/-- Folding a stripped word leaves no white space at its ends. -/
theorem endOf_folded {d : Char}
    (hd : side.endOf (folded unicode (trimMatches isEdgePunctuation raw)) = some d)
    (hne : trimMatches isEdgePunctuation raw ≠ []) : isWhitespace d = false := by
  obtain ⟨c, hc⟩ := side.exists_endOf hne
  by_cases hquestion : c = greekQuestionMark
  · rw [hquestion] at hc
    rw [hunicode.endOf_folded_of_question hc] at hd
    cases hd
    rfl
  · obtain ⟨e, he, hedge⟩ :=
      hunicode.endOf_folded_of_ordinary hc ⟨endOf_trimMatches hc, hquestion⟩
    cases hd.symm.trans he
    exact isWhitespace_of_not_edge hedge

theorem folded_ne_nil (hne : trimMatches isEdgePunctuation raw ≠ []) :
    folded unicode (trimMatches isEdgePunctuation raw) ≠ [] := by
  obtain ⟨c, hc⟩ := Side.front.exists_endOf hne
  have hend : ∃ d, Side.front.endOf (folded unicode (trimMatches isEdgePunctuation raw)) =
      some d := by
    by_cases hquestion : c = greekQuestionMark
    · rw [hquestion] at hc
      exact ⟨_, hunicode.endOf_folded_of_question hc⟩
    · obtain ⟨d, hd, -⟩ :=
        hunicode.endOf_folded_of_ordinary hc ⟨endOf_trimMatches hc, hquestion⟩
      exact ⟨d, hd⟩
  obtain ⟨d, hd⟩ := hend
  exact List.ne_nil_of_mem (Side.mem_of_endOf hd)

/-- The canonical form is the folded word, where there is one that is not too long. -/
theorem canonicalizeWordV1_eq_some_iff : canonicalizeWordV1 unicode raw = some canonical ↔
      trimMatches isEdgePunctuation raw ≠ [] ∧ (asBytes canonical).length ≤ maxTermBytes ∧
        canonical = folded unicode (trimMatches isEdgePunctuation raw) := by
  rw [canonicalizeWordV1]
  by_cases hempty : trimMatches isEdgePunctuation raw = []
  · rw [if_pos hempty]
    exact ⟨nofun, fun h => absurd hempty h.1⟩
  have hstrip : trimMatches isWhitespace (folded unicode (trimMatches isEdgePunctuation raw)) =
      folded unicode (trimMatches isEdgePunctuation raw) :=
    trimMatches_eq_self fun side d hd => hunicode.endOf_folded hd hempty
  have hsome := hunicode.folded_ne_nil hempty
  rw [folded] at hstrip hsome
  rw [if_neg hempty, hstrip]
  simp only [hsome, false_or]
  constructor
  · intro h
    split at h
    · cases h
    · rename_i hshort
      cases h
      exact ⟨hempty, Nat.not_lt.mp hshort, rfl⟩
  · rintro ⟨-, hshort, rfl⟩
    exact if_neg (Nat.not_lt.mpr hshort)

/-- The canonical form of a normalised text neither begins nor ends with punctuation. -/
theorem endOf_canonical {text : List Char} {d : Char}
    (h : canonicalizeWordV1 unicode (unicode.nfc text) = some canonical)
    (hd : side.endOf canonical = some d) : isEdgePunctuation d = false := by
  obtain ⟨hne, -, rfl⟩ := hunicode.canonicalizeWordV1_eq_some_iff.mp h
  obtain ⟨c, hc⟩ := side.exists_endOf hne
  have hquestion : c ≠ greekQuestionMark := by
    intro heq
    refine hunicode.question_notMem_nfc text ?_
    rw [← heq]
    have htrimmed := Side.mem_of_endOf hc
    exact (List.dropWhile_sublist _).mem ((List.rdropWhile_prefix _ _).mem htrimmed)
  obtain ⟨e, he, hedge⟩ :=
    hunicode.endOf_folded_of_ordinary hc ⟨endOf_trimMatches hc, hquestion⟩
  cases hd.symm.trans he
  exact hedge

/-- The canonical form of a piece is a fixed point if and only if no end of the stripped piece is
the Greek question mark. -/
theorem canonicalizeWordV1_idempotent_iff (h : canonicalizeWordV1 unicode raw = some canonical) :
    canonicalizeWordV1 unicode canonical = some canonical ↔
      KeepsEnds (trimMatches isEdgePunctuation raw) := by
  obtain ⟨hne, hshort, rfl⟩ := hunicode.canonicalizeWordV1_eq_some_iff.mp h
  constructor
  · intro hagain side hend
    have hedge := hunicode.endOf_canonical hagain (hunicode.endOf_folded_of_question hend)
    exact absurd hedge (by decide)
  intro hkeeps
  have hstays : trimMatches isEdgePunctuation (folded unicode (trimMatches isEdgePunctuation raw)) =
        folded unicode (trimMatches isEdgePunctuation raw) := by
    refine trimMatches_eq_self fun side d hd => ?_
    obtain ⟨c, hc⟩ := side.exists_endOf hne
    have hquestion : c ≠ greekQuestionMark := fun heq => hkeeps side (heq ▸ hc)
    obtain ⟨e, he, hedge⟩ :=
      hunicode.endOf_folded_of_ordinary hc ⟨endOf_trimMatches hc, hquestion⟩
    cases hd.symm.trans he
    exact hedge
  refine hunicode.canonicalizeWordV1_eq_some_iff.mpr ⟨?_, hshort, ?_⟩
  · rw [hstays]
    exact hunicode.folded_ne_nil hne
  · rw [hstays, hunicode.folded_folded]

end Unicode.Specified

end Ends

/-! ## Observed and searched -/

section Identifiers

variable {unicode : Unicode} {blake3 : Bytes → Digest} {raw segment : List Char}

theorem lexeme_eq_some_iff {word : Lexeme} : lexeme unicode blake3 raw = some word ↔
      ∃ canonical, canonicalizeWordV1 unicode raw = some canonical ∧
        word = ⟨canonical, deriveWordId blake3 canonical, scriptProfile unicode canonical,
          comparisonKeys unicode blake3 canonical⟩ := by
  rw [lexeme]
  cases canonicalizeWordV1 unicode raw with
  | none => simp
  | some canonical =>
    simp only [Option.bind_eq_bind, Option.bind_some, Option.some.injEq, exists_eq_left']
    exact eq_comm

theorem ordinaryWord_eq_some {word : Lexeme} (h : ordinaryWord unicode blake3 raw = some word) :
    ∃ canonical, canonicalizeWordV1 unicode raw = some canonical ∧
      lexeme unicode blake3 canonical = some word := by
  rw [ordinaryWord] at h
  obtain ⟨canonical, hcanonical, h⟩ := Option.bind_eq_some_iff.mp h
  split at h
  · cases h
  · exact ⟨canonical, hcanonical, h⟩

theorem searchWordIds_of_canonicalize {canonical : List Char}
    (h : canonicalizeWordV1 unicode segment = some canonical) :
    searchWordIds unicode blake3 [segment] = [deriveWordId blake3 canonical] := by
  have hlexeme : lexeme unicode blake3 segment = some ⟨canonical, deriveWordId blake3 canonical,
      scriptProfile unicode canonical, comparisonKeys unicode blake3 canonical⟩ :=
    lexeme_eq_some_iff.mpr ⟨canonical, h, rfl⟩
  rw [searchWordIds, List.filterMap_cons_some hlexeme]
  rfl

/-- The pieces between delimiters have no punctuation to strip. -/
theorem trimMatches_segment {text : List Char} (h : segment ∈ text.splitOnP isSimpleDelimiter) :
    trimMatches isEdgePunctuation segment = segment := by
  refine trimMatches_eq_self fun side c hc => ?_
  rw [← isSimpleDelimiter_eq]
  exact Library.Text.not_mem_splitOnP isSimpleDelimiter h (Side.mem_of_endOf hc)

/-- A segment is filed under the identifier that a search for it derives if and only if the
terms were given apart or no end of the segment is the Greek question mark; and the canonical
form is a fixed point if and only if no end of the stripped text is. The hash is taken to keep
apart the two canonical forms of the segment, where they differ. -/
theorem observed_as_searched_iff (hunicode : unicode.Specified) :
    (∀ raw canonical, canonicalizeWordV1 unicode raw = some canonical →
      (canonicalizeWordV1 unicode canonical = some canonical ↔
        KeepsEnds (trimMatches isEdgePunctuation raw))) ∧
    ∀ text pretokenized segment word, segment ∈ segments text pretokenized →
      segmentWord unicode blake3 pretokenized segment = some word →
      (∀ canonical, canonicalizeWordV1 unicode segment = some canonical →
        deriveWordId blake3 canonical = deriveWordId blake3 word.canonical →
          canonical = word.canonical) →
      (searchWordIds unicode blake3 [segment] = [word.wordId] ↔
        pretokenized ≠ [] ∨ KeepsEnds segment) := by
  refine ⟨fun raw canonical h => hunicode.canonicalizeWordV1_idempotent_iff h, ?_⟩
  intro text pretokenized segment word hsegment hword hapart
  by_cases hterms : pretokenized = []
  · -- A piece of the text is brought into canonical form twice.
    subst hterms
    obtain ⟨canonical, hcanonical, hlexeme⟩ := ordinaryWord_eq_some hword
    obtain ⟨again, hagain, rfl⟩ := lexeme_eq_some_iff.mp hlexeme
    have hfixed := hunicode.canonicalizeWordV1_idempotent_iff hcanonical
    rw [trimMatches_segment hsegment] at hfixed
    rw [searchWordIds_of_canonicalize hcanonical, List.singleton_inj, or_iff_right (by simp),
      ← hfixed]
    constructor
    · intro hsame
      rw [hapart canonical hcanonical hsame] at hagain ⊢
      exact hagain
    · intro hsame
      rw [hsame] at hagain
      rw [Option.some.inj hagain]
  · -- A term is brought into canonical form once, as the search does.
    rw [segmentWord, if_pos hterms] at hword
    rw [searchWordIds, List.filterMap_cons_some hword]
    exact iff_of_true rfl (Or.inl hterms)

end Identifiers

/-! ## A sample -/

namespace WordSample

open Library.Blake3 (hash)

/-- The canonical form of a character of a text in ASCII with Greek question marks. -/
def normalize (c : Char) : Char := if c = greekQuestionMark then ';' else c

/-- Unicode on ASCII texts with Greek question marks. -/
def plain : Unicode where
  toLowercase c := [c.toLower]
  isAlphanumeric := Char.isAlphanum
  nfc := List.map normalize
  nfd := List.map normalize
  graphemes text := text.map fun c => [c]
  deunicode := id

theorem normalize_normalize (c : Char) : normalize (normalize c) = normalize c := by
  by_cases hc : c = greekQuestionMark
  · rw [hc]
    rfl
  · rw [show normalize c = c from if_neg hc]
    exact if_neg hc

theorem toLower_normalize_toLower (c : Char) :
    (normalize c.toLower).toLower = normalize c.toLower := by
  rw [normalize]
  split
  · rfl
  · exact Library.Text.toLower_toLower c

theorem normalize_ne (c : Char) : normalize c ≠ greekQuestionMark := by
  rw [normalize]
  split
  · decide
  · assumption

theorem ordinary_toLower {c : Char} (hc : Ordinary c) : Ordinary c.toLower := by
  rcases Library.Text.toLower_cases c with hsame | ⟨hlow, hhigh, hlower⟩
  · rw [hsame]
    exact hc
  · rw [hlower]
    generalize c.toNat = n at hlow hhigh
    interval_cases n <;> exact ⟨by decide, by decide⟩

theorem lower_plain (text : List Char) : plain.lower text = text.map Char.toLower :=
  List.map_eq_flatMap.symm

theorem endOf_map (side : Side) (f : Char → Char) (text : List Char) :
    side.endOf (text.map f) = (side.endOf text).map f := by
  cases side with
  | front => exact List.head?_map
  | back => exact List.getLast?_map

theorem plain_specified : plain.Specified where
  nfc_nfc text := by
    refine List.map_map.trans (List.map_congr_left fun c _ => ?_)
    exact normalize_normalize c
  lower_nfc_lower text := by
    rw [lower_plain, lower_plain]
    refine List.map_map.trans (List.map_map.trans (.trans ?_ List.map_map.symm))
    exact List.map_congr_left fun c _ => toLower_normalize_toLower c
  lower_ordinary c hc := by
    refine ⟨List.cons_ne_nil _ _, fun d hd => ?_⟩
    rw [List.mem_singleton.mp hd]
    exact ordinary_toLower hc
  lower_question := rfl
  nfc_ordinary side text c hend hc := by
    refine ⟨c, (endOf_map side normalize text).trans ?_, hc.1⟩
    rw [hend, Option.map_some, normalize, if_neg hc.2]
  nfc_question side text hend := by
    refine (endOf_map side normalize text).trans ?_
    rw [hend, Option.map_some, normalize, if_pos rfl]
  question_notMem_nfc text hmem := by
    obtain ⟨c, -, hc⟩ := List.mem_map.mp hmem
    exact normalize_ne c hc

/-- A word with a Greek question mark behind it, and a word without. -/
def text : List Char := ['A', greekQuestionMark, ' ', 'B']

/-- What is filed for a word. -/
def filed (canonical : List Char) : Lexeme :=
  ⟨canonical, deriveWordId hash canonical, scriptProfile plain canonical,
    comparisonKeys plain hash canonical⟩

theorem canonical_marked :
    canonicalizeWordV1 plain ['A', greekQuestionMark] = some ['a', ';'] := by decide

theorem canonical_unmarked : canonicalizeWordV1 plain ['B'] = some ['b'] := by decide

theorem segmentWord_marked :
    segmentWord plain hash [] ['A', greekQuestionMark] = some (filed ['a']) := by
  have hlexeme : lexeme plain hash ['a', ';'] = some (filed ['a']) :=
    lexeme_eq_some_iff.mpr ⟨['a'], by decide, rfl⟩
  rw [segmentWord, if_neg (by decide), ordinaryWord, canonical_marked, ← hlexeme]
  rfl

theorem segmentWord_unmarked : segmentWord plain hash [] ['B'] = some (filed ['b']) := by
  have hlexeme : lexeme plain hash ['b'] = some (filed ['b']) :=
    lexeme_eq_some_iff.mpr ⟨['b'], by decide, rfl⟩
  rw [segmentWord, if_neg (by decide), ordinaryWord, canonical_unmarked, ← hlexeme]
  rfl

theorem marked_apart : deriveWordId hash ['a', ';'] ≠ deriveWordId hash ['a'] := by decide +kernel

/-- The word without the mark is found where it was filed, the marked one is not. -/
theorem observed_as_searched_iff_text :
    searchWordIds plain hash [['B']] = [deriveWordId hash ['b']] ∧
      ¬ searchWordIds plain hash [['A', greekQuestionMark]] = [deriveWordId hash ['a']] := by
  constructor
  · refine ((observed_as_searched_iff plain_specified).2 text [] ['B'] (filed ['b'])
      (by decide) segmentWord_unmarked ?_).mpr (Or.inr ?_)
    · intro canonical hcanonical _
      exact (Option.some.inj (canonical_unmarked.symm.trans hcanonical)).symm
    · rintro (_ | _) <;> decide
  intro hsame
  have hkeeps := ((observed_as_searched_iff plain_specified).2 text [] ['A', greekQuestionMark]
    (filed ['a']) (by decide) segmentWord_marked ?_).mp hsame
  · rcases hkeeps with hterms | hkeeps
    · exact hterms rfl
    · exact hkeeps .back rfl
  · intro canonical hcanonical hid
    rw [← Option.some.inj (canonical_marked.symm.trans hcanonical)] at hid
    exact absurd hid marked_apart

/-- A search for the marked word looks elsewhere than the word was filed. -/
theorem marked_word_is_not_found :
    ¬ ∀ pretokenized segment word, segment ∈ segments text pretokenized →
      segmentWord plain hash pretokenized segment = some word →
        searchWordIds plain hash [segment] = [word.wordId] := by
  intro hall
  have hsame := hall [] ['A', greekQuestionMark] (filed ['a']) (by decide) segmentWord_marked
  rw [searchWordIds_of_canonicalize canonical_marked, List.singleton_inj] at hsame
  exact marked_apart hsame

end WordSample

end VeilKnit.Lexical
