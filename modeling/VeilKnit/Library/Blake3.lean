import VeilKnit.Library.Codec

/-!
# The hash BLAKE3 on short inputs

The BLAKE3 hash of a byte string of at most one chunk, which is 1024 bytes: the blocks of the
chunk are compressed one after the other, and the last of them is the root of the tree. Words are
natural numbers below `2 ^ 32`.
-/

namespace VeilKnit.Library.Blake3

/-- The first eight words of the state: the constants of SHA-256. -/
def initialWords : List Nat :=
  [0x6A09E667, 0xBB67AE85, 0x3C6EF372, 0xA54FF53A, 0x510E527F, 0x9B05688C, 0x1F83D9AB, 0x5BE0CD19]

def permutation : List Nat := [2, 6, 3, 10, 7, 0, 4, 13, 1, 11, 12, 5, 9, 14, 15, 8]

def add (x y : Nat) : Nat := (x + y) % 2 ^ 32

def rotateRight (x count : Nat) : Nat := x >>> count ||| x <<< (32 - count) % 2 ^ 32

/-- The quarter round: two words of the message are mixed into four words of the state. -/
def mix (state : List Nat) (a b c d : Nat) (x y : Nat) : List Nat :=
  let va := state.getD a 0
  let vb := state.getD b 0
  let vc := state.getD c 0
  let vd := state.getD d 0
  let va := add (add va vb) x
  let vd := rotateRight (vd ^^^ va) 16
  let vc := add vc vd
  let vb := rotateRight (vb ^^^ vc) 12
  let va := add (add va vb) y
  let vd := rotateRight (vd ^^^ va) 8
  let vc := add vc vd
  let vb := rotateRight (vb ^^^ vc) 7
  (((state.set a va).set b vb).set c vc).set d vd

/-- One round: the four columns of the state, then its four diagonals. -/
def round (state message : List Nat) : List Nat :=
  let word := fun i => message.getD i 0
  let state := mix state 0 4 8 12 (word 0) (word 1)
  let state := mix state 1 5 9 13 (word 2) (word 3)
  let state := mix state 2 6 10 14 (word 4) (word 5)
  let state := mix state 3 7 11 15 (word 6) (word 7)
  let state := mix state 0 5 10 15 (word 8) (word 9)
  let state := mix state 1 6 11 12 (word 10) (word 11)
  let state := mix state 2 7 8 13 (word 12) (word 13)
  mix state 3 4 9 14 (word 14) (word 15)

/-- Some rounds, with the message permuted between two of them. -/
def rounds : Nat → List Nat → List Nat → List Nat
  | 0, state, _ => state
  | n + 1, state, message =>
    rounds n (round state message) (permutation.map fun i => message.getD i 0)

/-- The sixteen words of a block, filled up with zeros. -/
def wordsOf (block : Bytes) : List Nat :=
  (List.range 16).map fun i => Codec.leValue ((block.drop (4 * i)).take 4)

/-- Compresses one block of the first chunk into the eight words carried along. -/
def compress (chaining : List Nat) (block : Bytes) (flags : Nat) : List Nat :=
  let state := rounds 7 (chaining ++ initialWords.take 4 ++ [0, 0, block.length, flags])
    (wordsOf block)
  (List.range 8).map fun i => state.getD i 0 ^^^ state.getD (i + 8) 0

/-- The flag of the first block of a chunk. -/
def chunkStart : Nat := 1

/-- The flags of the last block of the only chunk: the end of a chunk, and the root. -/
def lastBlock : Nat := 2 + 8

/-- Compresses the blocks of a chunk. The fuel bounds the number of blocks. -/
def compressBlocks : Nat → List Nat → Nat → Bytes → List Nat
  | 0, chaining, _, _ => chaining
  | fuel + 1, chaining, flags, data =>
    if data.length ≤ 64 then compress chaining data (flags + lastBlock)
    else compressBlocks fuel (compress chaining (data.take 64) flags) 0 (data.drop 64)

/-- The words carried along stay eight. -/
theorem length_compressBlocks (fuel : Nat) {chaining : List Nat} (flags : Nat) (data : Bytes)
    (hchaining : chaining.length = 8) : (compressBlocks fuel chaining flags data).length = 8 := by
  induction fuel generalizing chaining flags data with
  | zero => exact hchaining
  | succ fuel ih =>
    rw [compressBlocks]
    split
    · simp [compress]
    · exact ih 0 (data.drop 64) (by simp [compress])

abbrev Digest := { bytes : Bytes // bytes.length = 32 }

/-- The hash of an input of at most one chunk. -/
def hash (data : Bytes) : Digest where
  val := (compressBlocks 16 initialWords chunkStart data).flatMap (Codec.leBytes 4)
  property := by
    rw [List.length_flatMap]
    have hlength := length_compressBlocks 16 chunkStart data (show initialWords.length = 8 from rfl)
    simp [hlength]

-- The published value for the empty input.
example : (hash []).1.take 8 = [0xaf, 0x13, 0x49, 0xb9, 0xf5, 0xf9, 0xa1, 0xa6] := by
  decide +kernel

end VeilKnit.Library.Blake3
