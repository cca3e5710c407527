import VeilKnit.BlobStore.Upload
import VeilKnit.Library.Chunks

/-!
# Appends

The pieces of an upload. A piece is refused when it is empty or too long; the other pieces go
through as long as all chunks fit. What is stored then are the chunks of all pieces, in order.
-/

namespace VeilKnit.BlobStore

open Library

/-! ## The chunks of a piece -/

theorem chunksOf_flatten (data : Bytes) : (chunksOf data).flatten = data :=
  flatten_chunks (by decide) data

variable {data piece : Bytes}

theorem chunksOf_small {chunk : Bytes} (h : chunk ∈ chunksOf data) :
    chunk ≠ [] ∧ chunk.length ≤ blobChunkBytes :=
  chunk_small (by decide) h

variable {keys : RecordKeys} {app : Bytes} {others : Nat} {uploadId : UuidText}

/-! ## A piece -/

theorem triple_appendChunks {chunks : List Bytes}
    (hsmall : ∀ chunk ∈ chunks, chunk ≠ [] ∧ chunk.length ≤ blobChunkBytes)
    (state : UploadState) (contents : List (List Bytes)) :
    Fallible.Triple (fun s => UploadHolds keys app others s state contents)
      (appendChunks keys state chunks)
      (fun state' s' => ∃ contents', contents'.flatten = contents.flatten ++ chunks ∧
        UploadHolds keys app others s' state' contents')
      (fun _ _ => capacity others < contents.flatten.length + chunks.length) := by
  induction chunks generalizing state contents with
  | nil => exact Fallible.triple_pure fun s h => ⟨contents, (List.append_nil _).symm, h⟩
  | cons chunk chunks ih =>
    obtain ⟨hne, hshort⟩ := hsmall chunk List.mem_cons_self
    have hrest : ∀ chunk ∈ chunks, chunk ≠ [] ∧ chunk.length ≤ blobChunkBytes :=
      fun chunk hchunk => hsmall chunk (List.mem_cons_of_mem _ hchunk)
    refine Fallible.triple_bind ((triple_appendChunk hne hshort).weaken (fun _ hs => hs)
      (fun _ _ hs => hs) fun _ _ hfull => ?_) fun state' => ?_
    · rw [List.length_cons]
      omega
    rintro s ⟨contents', hcontents, hholds⟩
    refine (ih hrest state' contents').weaken (fun _ hs => hs) (fun state'' s'' hs => ?_)
      (fun _ _ hfull => ?_) s hholds
    · obtain ⟨contents'', hcontents', hholds'⟩ := hs
      exact ⟨contents'', by simp [hcontents', hcontents], hholds'⟩
    · simp only [hcontents, List.length_append, List.length_cons, List.length_nil] at hfull ⊢
      omega

/-- An upload is going on, and the storage holds what has been uploaded. -/
def Uploading (keys : RecordKeys) (app : Bytes) (others : Nat) (uploadId : UuidText)
    (contents : List (List Bytes)) (s : BlobStoreManager) : Prop :=
  ∃ state, s.uploads.lookup uploadId = some state ∧ UploadHolds keys app others s state contents

variable {contents : List (List Bytes)} {s : BlobStoreManager} {state : UploadState}

theorem UploadHolds.with_uploads (h : UploadHolds keys app others s state contents)
    (uploads : AList fun _ : UuidText => UploadState) :
    UploadHolds keys app others { s with uploads } state contents :=
  ⟨h.owner, h.unfinished, h.segments, h.distinct, h.nonempty, h.allFull, h.few, h.stores, h.room,
    h.committed, h.small, h.blobId, h.contentType⟩

theorem UploadHolds.findUpload (h : UploadHolds keys app others s state contents)
    (hlookup : s.uploads.lookup uploadId = some state) :
    findUpload app uploadId s = .ok state := by
  rw [BlobStore.findUpload, hlookup]
  simp [h.owner, h.unfinished]

/-- A piece of an admissible length. -/
def PieceLength (piece : Bytes) : Prop := piece ≠ [] ∧ piece.length ≤ blobMaxAppendBytes

instance (piece : Bytes) : Decidable (PieceLength piece) := inferInstanceAs (Decidable (_ ∧ _))

/-- More bytes than a blob may have do not fit in its segments. -/
theorem UploadHolds.lt_of_too_large (h : UploadHolds keys app others s state contents)
    (hlarge : blobMaxBytes < state.committedBytes.toNat + data.length) :
    capacity others < contents.flatten.length + (chunksOf data).length := by
  have hstored := length_flatten_chunks h.small
  have hpiece := length_flatten_chunks fun chunk (hchunk : chunk ∈ chunksOf data) =>
    chunksOf_small hchunk
  have hcapacity : capacity others ≤ 63 * 256 := Nat.mul_le_mul_left _ (Nat.min_le_left _ _)
  have hmax : blobMaxBytes = 12288 * (63 * 256) := rfl
  have hbytes : blobChunkBytes = 12288 := rfl
  rw [chunksOf_flatten] at hpiece
  rw [h.committed, hmax] at hlarge
  rw [hbytes] at hstored hpiece
  omega

theorem triple_append (hpiece : PieceLength piece) (contents : List (List Bytes)) :
    Fallible.Triple (Uploading keys app others uploadId contents) (append keys app uploadId piece)
      (fun _ s => ∃ contents', contents'.flatten = contents.flatten ++ chunksOf piece ∧
        Uploading keys app others uploadId contents' s)
      (fun _ _ => capacity others < contents.flatten.length + (chunksOf piece).length) := by
  rintro s ⟨state, hlookup, hholds⟩
  have hread : readStore (findUpload app uploadId) s = (.ok state, s) := by
    rw [readStore, hholds.findUpload hlookup]
  rw [append, if_neg hpiece.1, if_neg (Nat.not_lt.mpr hpiece.2), Fallible.bind_ok hread]
  by_cases hlarge : blobMaxBytes < state.committedBytes.toNat + piece.length
  · rw [if_pos hlarge]
    exact hholds.lt_of_too_large hlarge
  · rw [if_neg hlarge]
    refine Fallible.triple_bind (triple_appendChunks (fun chunk => chunksOf_small) state contents)
      (fun state' => ?_) s hholds
    rintro s' ⟨contents', hcontents, hholds'⟩
    exact ⟨contents', hcontents, state', AList.lookup_insert _, hholds'.with_uploads _⟩

theorem append_refused (keys : RecordKeys) (app : Bytes) (uploadId : UuidText)
    (hpiece : ¬ PieceLength piece) (s : BlobStoreManager) :
    ∃ error, append keys app uploadId piece s = (.error error, s) := by
  unfold append
  by_cases hempty : piece = []
  · exact ⟨.emptyAppend, by rw [if_pos hempty]; rfl⟩
  · have hlong : blobMaxAppendBytes < piece.length :=
      Nat.lt_of_not_le fun hle => hpiece ⟨hempty, hle⟩
    exact ⟨.appendTooLarge piece.length, by rw [if_neg hempty, if_pos hlong]; rfl⟩

/-! ## All pieces -/

/-- Append pieces, one after the other, until one fails. -/
def appendPieces (keys : RecordKeys) (app : Bytes) (uploadId : UuidText) : List Bytes → BlobOp Unit
  | [] => pure ()
  | piece :: pieces => do
    append keys app uploadId piece
    appendPieces keys app uploadId pieces

/-- Pieces that go through beside other records, after a number of chunks. -/
structure Fits (others stored : Nat) (pieces : List Bytes) : Prop where
  lengths : ∀ piece ∈ pieces, PieceLength piece
  room : stored + (pieces.flatMap chunksOf).length ≤ capacity others

/-- The pieces all go through exactly when they fit. -/
theorem triple_appendPieces (pieces : List Bytes) (contents : List (List Bytes)) :
    Fallible.Triple (Uploading keys app others uploadId contents)
      (appendPieces keys app uploadId pieces)
      (fun _ s => Fits others contents.flatten.length pieces ∧
        ∃ contents', contents'.flatten = contents.flatten ++ pieces.flatMap chunksOf ∧
          Uploading keys app others uploadId contents' s)
      (fun _ _ => ¬ Fits others contents.flatten.length pieces) := by
  induction pieces generalizing contents with
  | nil =>
    refine Fallible.triple_pure fun s hs => ⟨⟨by simp, ?_⟩, contents, by simp, hs⟩
    obtain ⟨state, _, hholds⟩ := hs
    simpa using hholds.le_capacity
  | cons piece pieces ih =>
    by_cases hpiece : PieceLength piece
    · refine Fallible.triple_bind ((triple_append hpiece contents).weaken (fun _ hs => hs)
        (fun _ _ hs => hs) fun _ _ hfull hfits => ?_) fun _ => ?_
      · have hroom := hfits.room
        rw [List.flatMap_cons, List.length_append] at hroom
        omega
      rintro s ⟨contents', hcontents, hs⟩
      have hlength : contents'.flatten.length =
          contents.flatten.length + (chunksOf piece).length := by
        rw [hcontents, List.length_append]
      refine (ih contents').weaken (fun _ hs => hs) (fun _ s' hs' => ?_)
        (fun _ _ hfull hfits => hfull ?_) s hs
      · obtain ⟨hfits, contents'', hcontents', hs'⟩ := hs'
        refine ⟨⟨?_, ?_⟩, contents'', by simp [hcontents', hcontents], hs'⟩
        · intro other hother
          rcases List.mem_cons.mp hother with rfl | hother
          · exact hpiece
          · exact hfits.lengths other hother
        · have hroom := hfits.room
          rw [List.flatMap_cons, List.length_append]
          omega
      · refine ⟨fun other hother => hfits.lengths other (List.mem_cons_of_mem _ hother), ?_⟩
        have hroom := hfits.room
        rw [List.flatMap_cons, List.length_append] at hroom
        omega
    · intro s _
      obtain ⟨error, hrun⟩ := append_refused keys app uploadId hpiece s
      rw [appendPieces, Fallible.bind_error hrun]
      exact fun hfits => hpiece (hfits.lengths piece List.mem_cons_self)

/-! ## The first segment -/

/-- A new upload has one segment, without chunks. -/
theorem beginUpload_holds {blobId : UuidText} {contentType : Bytes} {now : UInt64}
    {s' : BlobStoreManager}
    (hbegin : beginUpload keys app uploadId blobId contentType now s = (.ok (), s')) :
    Uploading keys app s.storage.stores.length uploadId [[]] s' := by
  unfold beginUpload at hbegin
  by_cases htype : contentType = [] ∨ blobMaxContentTypeBytes < contentType.length
  · rw [if_pos htype] at hbegin
    cases hbegin
  rw [if_neg htype] at hbegin
  have hlength : contentType.length ≤ blobMaxContentTypeBytes :=
    Nat.le_of_not_lt fun hlong => htype (Or.inr hlong)
  by_cases hroom : maxInternalAppStoresPerApp ≤ s.storage.stores.length
  · rw [Fallible.bind_error (createSegment_full _ _ hroom)] at hbegin
    cases hbegin
  have hroom := Nat.lt_of_not_le hroom
  obtain ⟨value, hcreate⟩ := createSegment_run 0 now hroom blobId.property hlength
  rw [Fallible.bind_ok hcreate] at hbegin
  obtain rfl := (Prod.mk.inj hbegin).2
  refine ⟨_, AList.lookup_insert _, ?_⟩
  constructor
  · rfl
  · rfl
  · refine .cons (SegmentHolds.put_header ?_ _ _) .nil
    refine ⟨rfl, rfl, Nat.zero_le _, fun _ => none, ?_, fun i chunk hchunk => ?_⟩
    · simp
    · simp at hchunk
  · exact List.nodup_singleton _
  · exact List.cons_ne_nil _ _
  · simp
  · exact Nat.succ_le_of_lt (by decide : 0 < blobMaxSegments)
  · exact (AppStorage.length_put _ _ _ _).trans (by simp)
  · refine (AppStorage.length_put _ _ _ _).le.trans ?_
    rw [List.length_append, List.length_singleton]
    exact hroom
  · rfl
  · simp
  · exact blobId.property
  · exact hlength

end VeilKnit.BlobStore
