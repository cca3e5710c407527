import VeilKnit.Library.Codec

/-!
# Cutting into chunks

A byte string is cut at equal distances. The chunks are as long as possible: all but the last
have the full width, and none is empty.
-/

namespace VeilKnit.Library

/-- The chunks of a byte string, in order. -/
def chunks (width : Nat) (data : Bytes) : List Bytes :=
  (List.range ((data.length + (width - 1)) / width)).map fun i =>
    (data.drop (i * width)).take width

/-- Cutting at equal distances keeps the bytes up to the last cut. -/
theorem flatten_cuts (data : Bytes) (width n : Nat) :
    ((List.range n).map fun i => (data.drop (i * width)).take width).flatten =
      data.take (n * width) := by
  induction n with
  | zero => simp
  | succ n ih =>
    rw [List.range_succ, List.map_append, List.flatten_append, ih, Nat.succ_mul, List.take_add]
    simp

@[simp]
theorem length_chunks (width : Nat) (data : Bytes) :
    (chunks width data).length = (data.length + (width - 1)) / width := by
  simp [chunks]

theorem flatten_chunks {width : Nat} (hwidth : 0 < width) (data : Bytes) :
    (chunks width data).flatten = data := by
  rw [chunks, flatten_cuts]
  refine List.take_of_length_le ?_
  -- The number of chunks is rounded up.
  have hround := Nat.div_add_mod (data.length + (width - 1)) width
  have hrest := Nat.mod_lt (data.length + (width - 1)) hwidth
  rw [Nat.mul_comm]
  omega

theorem chunk_small {width : Nat} {data chunk : Bytes} (hwidth : 0 < width)
    (h : chunk ∈ chunks width data) : chunk ≠ [] ∧ chunk.length ≤ width := by
  obtain ⟨i, hi, rfl⟩ := List.mem_map.mp h
  have hi := List.mem_range.mp hi
  refine ⟨fun hnil => ?_, List.length_take_le _ _⟩
  have hlength := congrArg List.length hnil
  rw [List.length_take, List.length_drop, List.length_nil] at hlength
  have hstart := (Nat.le_div_iff_mul_le hwidth).mp (Nat.succ_le_of_lt hi)
  rw [Nat.succ_mul] at hstart
  omega

end VeilKnit.Library
