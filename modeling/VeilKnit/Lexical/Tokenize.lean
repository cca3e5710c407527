import VeilKnit.Library.Blake3
import VeilKnit.Library.Text

/-!
# Words of a text

The language-agnostic preparation of texts. A text is cut at simple delimiters, each piece is
brought into a canonical form, and the canonical form is hashed into the identifier under which
the library files the word. A long run without delimiters is cut into grapheme pairs and triples.

The Unicode algorithms are parameters; the classes of characters that the code lists itself, its
thresholds and the layout of what is hashed are its own. Texts are lists of characters.
-/

namespace VeilKnit.Lexical

open Library (Bytes)
open Library.Blake3 (Digest)

/-- The Unicode tables and algorithms that the code takes from elsewhere. -/
structure Unicode where
  toLowercase : Char → List Char
  isAlphanumeric : Char → Bool
  nfc : List Char → List Char
  nfd : List Char → List Char
  graphemes : List Char → List (List Char)
  deunicode : List Char → List Char

/-- Every character in lower case, on its own. -/
def Unicode.lower (unicode : Unicode) (text : List Char) : List Char :=
  text.flatMap unicode.toLowercase

abbrev WordId := Digest

def longRunGraphemes : Nat := 24
def absoluteLongRunGraphemes : Nat := 64
def maxTermBytes : Nat := 256
def wordIdVersion : Nat := 1

/-- The bytes of a text in UTF-8. -/
def asBytes (text : List Char) : Bytes := text.flatMap String.utf8EncodeChar

/-- A text that keeps apart what is hashed for one purpose, with the zero byte that ends it. -/
def domain (text : String) : Bytes := asBytes text.toList ++ [0]

/-! ## Classes of characters -/

def isWhitespace (c : Char) : Bool := Library.Utf8.isWhitespace c.toNat

/-- The punctuation that both lists of the code begin with. -/
def punctuation : List Char :=
  [',', ';', ':', '!', '?', '(', ')', '[', ']', '\x7b', '\x7d', '<', '>', '/', '\\', '|', '"', '“',
    '”', '‘', '’']

def isEdgePunctuation (c : Char) : Bool := isWhitespace c || c ∈ punctuation ++ ['.']

def isSimpleDelimiter (c : Char) : Bool :=
  isWhitespace c || c ∈ punctuation ++ ['\n', '\r', '\t'] || c = '.'

inductive ScriptClass
  | latin | cyrillic | greek | arabic | hebrew | devanagari | han | hiragana | katakana | hangul
  | thai | other
deriving DecidableEq

/-- The blocks of each script, in the order in which they are tried. -/
def scriptBlocks : List (Nat × Nat × ScriptClass) :=
  [(0x0041, 0x024F, .latin), (0x1E00, 0x1EFF, .latin),
    (0x0370, 0x03FF, .greek), (0x1F00, 0x1FFF, .greek),
    (0x0400, 0x052F, .cyrillic), (0x2DE0, 0x2DFF, .cyrillic), (0xA640, 0xA69F, .cyrillic),
    (0x0590, 0x05FF, .hebrew),
    (0x0600, 0x06FF, .arabic), (0x0750, 0x077F, .arabic), (0x08A0, 0x08FF, .arabic),
    (0x0900, 0x097F, .devanagari), (0x3040, 0x309F, .hiragana),
    (0x30A0, 0x30FF, .katakana), (0x31F0, 0x31FF, .katakana),
    (0x3400, 0x4DBF, .han), (0x4E00, 0x9FFF, .han), (0xF900, 0xFAFF, .han),
    (0xAC00, 0xD7AF, .hangul), (0x1100, 0x11FF, .hangul), (0x3130, 0x318F, .hangul),
    (0x0E00, 0x0E7F, .thai)]

def classifyScript (c : Char) : ScriptClass :=
  match scriptBlocks.find? fun block => block.1 ≤ c.toNat && c.toNat ≤ block.2.1 with
  | some block => block.2.2
  | none => .other

def isCombiningMark (c : Char) : Bool :=
  [(0x0300, 0x036F), (0x1AB0, 0x1AFF), (0x1DC0, 0x1DFF), (0x20D0, 0x20FF), (0xFE20, 0xFE2F)].any
    fun block => block.1 ≤ c.toNat && c.toNat ≤ block.2

/-! ## Profiles and comparison keys -/

structure ScriptProfile where
  counts : ScriptClass → Nat
  alphabeticOrNumeric : Nat
  diacriticCharacters : Nat
  totalCharacters : Nat

/-- One more, in 32 bits, where the largest number stays. -/
def saturatingSucc (n : Nat) : Nat := min (n + 1) (2 ^ 32 - 1)

section Profiles

variable (unicode : Unicode)

def ScriptProfile.count (profile : ScriptProfile) (c : Char) : ScriptProfile where
  counts :=
    if unicode.isAlphanumeric c then
      Function.update profile.counts (classifyScript c) (profile.counts (classifyScript c) + 1)
    else profile.counts
  alphabeticOrNumeric :=
    if unicode.isAlphanumeric c then saturatingSucc profile.alphabeticOrNumeric
    else profile.alphabeticOrNumeric
  diacriticCharacters :=
    if 1 < (unicode.nfd [c]).length ∨ isCombiningMark c then
      saturatingSucc profile.diacriticCharacters
    else profile.diacriticCharacters
  totalCharacters := saturatingSucc profile.totalCharacters

def scriptProfile (text : List Char) : ScriptProfile :=
  text.foldl (fun profile c => profile.count unicode c) ⟨fun _ => 0, 0, 0, 0⟩

def accentFold (text : List Char) : List Char :=
  unicode.nfc ((unicode.nfd text).filter fun c => ¬ isCombiningMark c)

/-- The transliteration is ASCII, so that its characters lower one by one. -/
def transliterationFold (text : List Char) : List Char := unicode.lower (unicode.deunicode text)

/-- Digits that look like letters become letters, and separators within a name go. -/
def visualFold (text : List Char) : List Char :=
  (accentFold unicode text).flatMap fun c =>
    match c with
    | '-' | '_' | ' ' | '.' => []
    | '0' => ['o']
    | '1' => ['i']
    | '3' => ['e']
    | '4' => ['a']
    | '5' => ['s']
    | '7' => ['t']
    | c => [c]

variable (blake3 : Bytes → Digest)

def digest16 (purpose : String) (bytes : Bytes) : Bytes :=
  (blake3 (domain purpose ++ bytes)).1.take 16

structure WordComparisonKeys where
  accentFoldHash : Bytes
  transliterationHash : Bytes
  visualFoldHash : Bytes

def comparisonKeys (canonical : List Char) : WordComparisonKeys where
  accentFoldHash := digest16 blake3 "VK-LEX-ACCENT-V1" (asBytes (accentFold unicode canonical))
  transliterationHash :=
    digest16 blake3 "VK-LEX-TRANSLIT-V1" (asBytes (transliterationFold unicode canonical))
  visualFoldHash := digest16 blake3 "VK-LEX-VISUAL-V1" (asBytes (visualFold unicode canonical))

end Profiles

/-! ## Words and texts -/

structure Lexeme where
  canonical : List Char
  wordId : WordId
  script : ScriptProfile
  comparison : WordComparisonKeys

structure TokenizedText where
  words : List Lexeme
  subwords : List Lexeme

section Words

variable (unicode : Unicode) (blake3 : Bytes → Digest)

/-- The canonical form of a piece of text, if it has one of at most 256 bytes. -/
def canonicalizeWordV1 (raw : List Char) : Option (List Char) :=
  let trimmed := Library.Text.trimMatches isEdgePunctuation raw
  if trimmed = [] then none
  else
    let normalized :=
      Library.Text.trimMatches isWhitespace (unicode.nfc (unicode.lower trimmed))
    if normalized = [] ∨ maxTermBytes < (asBytes normalized).length then none
    else some normalized

def deriveWordId (canonical : List Char) : WordId :=
  blake3 (domain "VK-LEX-WORD-ID-V1" ++ Library.Codec.leBytes 2 wordIdVersion ++ asBytes canonical)

def deriveSubwordId (piece : List Char) (width : Nat) : WordId :=
  blake3 (domain "VK-LEX-SUBWORD-V1" ++ Library.Codec.leBytes 2 width ++ asBytes piece)

def lexeme (raw : List Char) : Option Lexeme := do
  let canonical ← canonicalizeWordV1 unicode raw
  some
    { canonical
      wordId := deriveWordId blake3 canonical
      script := scriptProfile unicode canonical
      comparison := comparisonKeys unicode blake3 canonical }

/-- Whether a run is too long for a word, or long and mostly in scripts without spaces. -/
def shouldUseSubwordFallback (graphemes : Nat) (profile : ScriptProfile) : Bool :=
  if absoluteLongRunGraphemes < graphemes then true
  else if graphemes ≤ longRunGraphemes then false
  else
    let nonSegmenting :=
      ([ScriptClass.han, .hiragana, .katakana, .thai].map profile.counts).sum
    -- The quotient of the two as floating-point numbers is at least a half.
    0 < profile.alphabeticOrNumeric && profile.alphabeticOrNumeric ≤ 2 * nonSegmenting

/-- The runs of `n` graphemes next to each other. -/
def windows (n : Nat) (graphemes : List (List Char)) : List (List Char) :=
  if graphemes.length < n then []
  else (List.range (graphemes.length - n + 1)).map fun start =>
    ((graphemes.drop start).take n).flatten

def subword (n : Nat) (piece : List Char) : Lexeme where
  canonical := piece
  wordId := deriveSubwordId blake3 piece n
  script := scriptProfile unicode piece
  comparison := comparisonKeys unicode blake3 piece

/-- One turn of the loop over the pieces of a text. -/
def TokenizedText.push (output : TokenizedText) (raw : List Char) : TokenizedText :=
  match canonicalizeWordV1 unicode raw with
  | none => output
  | some canonical =>
    let graphemes := unicode.graphemes canonical
    if shouldUseSubwordFallback graphemes.length (scriptProfile unicode canonical) then
      { output with
        subwords := output.subwords ++ [2, 3].flatMap fun n =>
          (windows n graphemes).map (subword unicode blake3 n) }
    else
      -- The word is brought into canonical form a second time.
      match lexeme unicode blake3 canonical with
      | some item => { output with words := output.words ++ [item] }
      | none => output

def tokenizeText (text : List Char) (pretokenized : List (List Char)) : TokenizedText :=
  if pretokenized ≠ [] then ⟨pretokenized.filterMap (lexeme unicode blake3), []⟩
  else
    (text.splitOnP isSimpleDelimiter).foldl (fun output raw => output.push unicode blake3 raw)
      ⟨[], []⟩

/-- The identifiers that a search looks up. -/
def searchWordIds (terms : List (List Char)) : List WordId :=
  (terms.filterMap (lexeme unicode blake3)).map Lexeme.wordId

/-- The pieces of a text, or the terms that stand for it. -/
def segments (text : List Char) (pretokenized : List (List Char)) : List (List Char) :=
  if pretokenized ≠ [] then pretokenized else text.splitOnP isSimpleDelimiter

/-- The one word that a piece of a text becomes, unless it is dropped or cut up. -/
def ordinaryWord (raw : List Char) : Option Lexeme := do
  let canonical ← canonicalizeWordV1 unicode raw
  if shouldUseSubwordFallback (unicode.graphemes canonical).length
      (scriptProfile unicode canonical) then none
  else lexeme unicode blake3 canonical

/-- The word that a segment becomes. -/
def segmentWord (pretokenized : List (List Char)) (segment : List Char) : Option Lexeme :=
  if pretokenized ≠ [] then lexeme unicode blake3 segment else ordinaryWord unicode blake3 segment

end Words

variable {unicode : Unicode} {blake3 : Bytes → Digest}

/-! ## What a text becomes -/

theorem words_push (output : TokenizedText) (raw : List Char) :
    (output.push unicode blake3 raw).words =
      output.words ++ (ordinaryWord unicode blake3 raw).toList := by
  rw [TokenizedText.push, ordinaryWord]
  cases canonicalizeWordV1 unicode raw with
  | none => exact (List.append_nil _).symm
  | some canonical =>
    simp only [Option.bind_eq_bind, Option.bind_some]
    split
    · exact (List.append_nil _).symm
    · cases lexeme unicode blake3 canonical with
      | none => exact (List.append_nil _).symm
      | some item => rfl

theorem words_foldl_push (output : TokenizedText) (pieces : List (List Char)) :
    (pieces.foldl (fun output raw => output.push unicode blake3 raw) output).words =
      output.words ++ pieces.filterMap (ordinaryWord unicode blake3) := by
  induction pieces generalizing output with
  | nil => exact (List.append_nil _).symm
  | cons raw pieces ih =>
    rw [List.foldl_cons, ih, words_push, List.append_assoc, List.filterMap_cons]
    cases ordinaryWord unicode blake3 raw <;> rfl

/-- The words of a text are those of its segments, in order. -/
theorem words_tokenizeText (text : List Char) (pretokenized : List (List Char)) :
    (tokenizeText unicode blake3 text pretokenized).words =
      (segments text pretokenized).filterMap (segmentWord unicode blake3 pretokenized) := by
  by_cases hterms : pretokenized = []
  · subst hterms
    exact words_foldl_push ⟨[], []⟩ (text.splitOnP isSimpleDelimiter)
  · rw [tokenizeText, segments, if_pos hterms, if_pos hterms]
    refine List.filterMap_congr fun segment _ => ?_
    rw [segmentWord, if_pos hterms]

/-- The two lists of punctuation are the same: what is stripped is what texts are cut at. -/
theorem isSimpleDelimiter_eq (c : Char) : isSimpleDelimiter c = isEdgePunctuation c := by
  -- The delimiters name three characters that are white space anyway.
  have hblank : c = '\n' ∨ c = '\r' ∨ c = '\t' → isWhitespace c = true := by
    rintro (rfl | rfl | rfl) <;> rfl
  rw [Bool.eq_iff_iff]
  simp only [isSimpleDelimiter, isEdgePunctuation, Bool.or_eq_true, decide_eq_true_eq,
    List.mem_append, List.mem_cons, List.not_mem_nil, or_false]
  tauto

end VeilKnit.Lexical
