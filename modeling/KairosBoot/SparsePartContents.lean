import KairosBoot.SparsePart

/-! # The contents of a sparse flash part

`PartHolds inputBytes part bytes` says that the pieces of a part stand for `bytes` when the
input holds `inputBytes`.  Every append step that succeeds extends the contents by the bytes it
is meant to write (`appendPiece_holds`, `appendLiteral_holds`, `appendSource_holds`), so a built
part stands for the sparse file of its fragments' records (`create_holds`), and its `read_at`
serves these bytes (`PartHolds.holds`, `part_gap_free`). -/

namespace KairosBoot

open ByteLib Guards Pieces List

namespace SparsePartSource

/-- The bytes a piece stands for. -/
def pieceData (inputBytes literals : Bytes) (piece : SourcePiece) : Bytes :=
  match piece.kind with
  | .literal => slice literals piece.backingOffset piece.size
  | .source => slice inputBytes piece.backingOffset piece.size
  | .zero => List.replicate piece.size 0

/-- The window a piece refers to exists. -/
def PieceBacked (inputBytes literals : Bytes) (piece : SourcePiece) : Prop :=
  match piece.kind with
  | .literal => piece.backingOffset + piece.size ≤ literals.length
  | .source => piece.backingOffset + piece.size ≤ inputBytes.length
  | .zero => True

variable {literals : Bytes}

theorem PieceBacked.length_pieceData {inputBytes : Bytes} {piece : SourcePiece}
    (h : PieceBacked inputBytes literals piece) :
    (pieceData inputBytes literals piece).length = piece.size := by
  unfold PieceBacked at h
  unfold pieceData
  cases hk : piece.kind <;> simp only [hk] at h ⊢
  · exact length_slice h
  · exact length_slice h
  · exact length_replicate

/-- More literals change neither a piece's data nor its backing. -/
theorem PieceBacked.append_literals {inputBytes : Bytes} {piece : SourcePiece}
    (h : PieceBacked inputBytes literals piece) (more : Bytes) :
    PieceBacked inputBytes (literals ++ more) piece ∧
      pieceData inputBytes (literals ++ more) piece = pieceData inputBytes literals piece := by
  unfold PieceBacked pieceData at *
  cases hk : piece.kind <;> simp only [hk] at h ⊢
  · exact ⟨by rw [length_append]; omega, slice_append_left h⟩
  · exact ⟨h, trivial⟩
  · exact ⟨trivial, trivial⟩

/-- The part stands for `bytes` over an input that holds `inputBytes`. -/
structure PartHolds (inputBytes : Bytes) (part : SparsePartSource) (bytes : Bytes) : Prop where
  input_holds : part.input.Holds inputBytes
  tiles : Tiles SourcePiece.logicalOffset (pieceData inputBytes part.literals) 0 part.pieces bytes
  size_eq : part.size = bytes.length
  backed : ∀ piece ∈ part.pieces, PieceBacked inputBytes part.literals piece

variable {inputBytes bytes : Bytes} {part part' : SparsePartSource}

theorem empty_holds {input : ImageSource} (h : input.Holds inputBytes) :
    PartHolds inputBytes (empty input) [] := ⟨h, rfl, rfl, by simp [empty]⟩

/-! ### Appending -/

/-- The piece that `append_piece` adds. -/
def newPiece (part : SparsePartSource) (kind : SourcePieceKind) (backingOffset bytes : ℕ) :
    SourcePiece := ⟨part.size, backingOffset, bytes, kind⟩

/-- A grown piece stands for its old data and the new piece's. -/
theorem pieceData_grow {previous : SourcePiece} {kind : SourcePieceKind} {backingOffset n : ℕ}
    (hkind : previous.kind = kind)
    (hback : kind = .zero ∨ checkedAdd previous.backingOffset previous.size = some backingOffset)
    (logicalOffset : ℕ)
    (hnew : PieceBacked inputBytes literals ⟨logicalOffset, backingOffset, n, kind⟩) :
    pieceData inputBytes literals { previous with size := previous.size + n }
        = pieceData inputBytes literals previous ++
          pieceData inputBytes literals ⟨logicalOffset, backingOffset, n, kind⟩ ∧
      PieceBacked inputBytes literals { previous with size := previous.size + n } := by
  unfold PieceBacked pieceData at *
  subst hkind
  cases hk : previous.kind <;> simp only [hk] at hnew hback ⊢
  · have hoff := checkedAdd_eq_some (hback.resolve_left (by simp))
    rw [slice_add, hoff]
    exact ⟨rfl, by omega⟩
  · have hoff := checkedAdd_eq_some (hback.resolve_left (by simp))
    rw [slice_add, hoff]
    exact ⟨rfl, by omega⟩
  · exact ⟨replicate_append_replicate.symm, trivial⟩

section

variable (h : PartHolds inputBytes part bytes)
include h

theorem PartHolds.append_literals (more : Bytes) :
    PartHolds inputBytes { part with literals := part.literals ++ more } bytes := by
  refine ⟨h.input_holds, h.tiles.congr fun piece hm => ?_, h.size_eq, fun piece hm => ?_⟩
  · exact ((h.backed piece hm).append_literals more).2
  · exact ((h.backed piece hm).append_literals more).1

theorem appendPiece_holds {kind : SourcePieceKind} {backingOffset n : ℕ}
    (hnew : PieceBacked inputBytes part.literals (newPiece part kind backingOffset n))
    (hok : part.appendPiece kind backingOffset n = .ok part') :
    PartHolds inputBytes part'
      (bytes ++ pieceData inputBytes part.literals (newPiece part kind backingOffset n)) := by
  have hlen := hnew.length_pieceData
  unfold appendPiece at hok
  split at hok
  · next hzero =>
    cases hok
    have hnil : pieceData inputBytes part.literals (newPiece part kind backingOffset n) = [] :=
      eq_nil_of_length_eq_zero (by rw [hlen]; exact hzero)
    rwa [hnil, append_nil]
  · next hpos =>
    split at hok
    · cases hok
    · cases hok
      have hpos' : 0 < (pieceData inputBytes part.literals
          (newPiece part kind backingOffset n)).length := by
        rw [hlen]; exact Nat.pos_of_ne_zero hpos
      have hsize : part.size + n = (bytes ++ pieceData inputBytes part.literals
          (newPiece part kind backingOffset n)).length := by
        rw [length_append, hlen, h.size_eq]; rfl
      have hpush : Tiles SourcePiece.logicalOffset (pieceData inputBytes part.literals) 0
          (part.pieces ++ [newPiece part kind backingOffset n])
          (bytes ++ pieceData inputBytes part.literals (newPiece part kind backingOffset n)) :=
        h.tiles.snoc (by rw [zero_add]; exact h.size_eq) hpos'
      have hpushBacked : ∀ piece ∈ part.pieces ++ [newPiece part kind backingOffset n],
          PieceBacked inputBytes part.literals piece :=
        forall_mem_append.mpr ⟨h.backed, forall_mem_singleton.mpr hnew⟩
      unfold extendPieces
      split
      · next previous hlast =>
        split
        · next hcond =>
          obtain ⟨hkind, hback, -⟩ := hcond
          obtain ⟨earlier, hpcs⟩ := getLast?_eq_some_iff.mp hlast
          obtain ⟨hdata, hgrown⟩ := pieceData_grow hkind hback part.size hnew
          have htiles := h.tiles
          rw [hpcs] at htiles
          obtain ⟨before, hbytes, hbef, hoff, hprev⟩ := tiles_snoc_iff.mp htiles
          have hdrop : part.pieces.dropLast = earlier := by rw [hpcs, dropLast_concat]
          refine ⟨h.input_holds, ?_, hsize, fun piece hm => ?_⟩
          · have hgrow := hbef.snoc (p := { previous with size := previous.size + n }) hoff
              (by rw [hdata, length_append]; omega)
            rw [hdata, ← append_assoc, ← hbytes] at hgrow
            simp only [hdrop]
            exact hgrow
          · simp only [hdrop] at hm
            rcases mem_append.mp hm with hm | hm
            · exact h.backed piece (by rw [hpcs]; simp [hm])
            · rw [mem_singleton.mp hm]; exact hgrown
        · exact ⟨h.input_holds, hpush, hsize, hpushBacked⟩
      · exact ⟨h.input_holds, hpush, hsize, hpushBacked⟩

theorem appendLiteral_holds {new : Bytes} (hok : part.appendLiteral new = .ok part') :
    PartHolds inputBytes part' (bytes ++ new) := by
  rw [appendLiteral, bind_eq_ok] at hok
  obtain ⟨-, -, hok⟩ := hok
  have hdata : slice (part.literals ++ new) part.literals.length new.length = new := by
    have := slice_append_right part.literals new 0 new.length
    rwa [add_zero, slice_all] at this
  have hhold := appendPiece_holds (h.append_literals new) (by
    simp [PieceBacked, newPiece]) hok
  simpa only [pieceData, newPiece, hdata] using hhold

theorem appendSource_holds {sourceOffset n : ℕ}
    (hok : part.appendSource sourceOffset n = .ok part') :
    PartHolds inputBytes part' (bytes ++ slice inputBytes sourceOffset n) ∧
      sourceOffset + n ≤ inputBytes.length := by
  rw [appendSource, failIf_bind_eq_ok] at hok
  obtain ⟨hin, hok⟩ := hok
  have hle : sourceOffset + n ≤ inputBytes.length := by
    rw [h.input_holds.size_eq] at hin
    omega
  have hnew : PieceBacked inputBytes part.literals (newPiece part .source sourceOffset n) := hle
  exact ⟨appendPiece_holds h hnew hok, hle⟩

theorem appendChunkHeader_holds {chunkType blockCount payloadBytes : ℕ}
    (hok : part.appendChunkHeader chunkType blockCount payloadBytes = .ok part') :
    PartHolds inputBytes part'
        (bytes ++ encodeChunkHeader chunkType blockCount (kChunkHeaderSize + payloadBytes)) ∧
      kChunkHeaderSize + payloadBytes < 2 ^ 32 := by
  rw [appendChunkHeader, failIf_bind_eq_ok] at hok
  obtain ⟨hle, hok⟩ := hok
  refine ⟨appendLiteral_holds h hok, ?_⟩
  unfold uint32Max kChunkHeaderSize at *
  omega

end

/-! ### Reading -/

/-- An input that never answers a request inside it with a short read. -/
def AnswersInFull (input : ImageSource) (inputBytes : Bytes) : Prop :=
  ∀ offset length, offset + length ≤ inputBytes.length →
    input.readAt offset length = .ok (slice inputBytes offset length)

/-- A read of `requested` bytes may return `n`: it makes progress, and is short only where a read
of the input was. -/
structure Delivered (input : ImageSource) (inputBytes : Bytes) (n requested : ℕ) : Prop where
  le : n ≤ requested
  pos : 0 < requested → 0 < n
  full : AnswersInFull input inputBytes → n = requested

/-- The copy loop goes through the pieces, and stops where a read of the input was short. -/
theorem readPieces_copies {input : ImageSource} (hinput : input.Holds inputBytes)
    {pieces : List SourcePiece} (hb : ∀ piece ∈ pieces, PieceBacked inputBytes literals piece)
    (offset requested : ℕ) :
    CopyLoop SourcePiece.logicalOffset (pieceData inputBytes literals) pieces offset requested
      (Delivered input inputBytes) (readPieces input literals offset requested) where
  full _ := ⟨le_rfl, id, fun _ => rfl⟩
  add _ _ _ hpos h := ⟨Nat.add_le_add_left h.le _, by omega, fun hfull => by rw [h.full hfull]⟩
  stop ps done hdone := by cases ps <;> rw [readPieces, if_neg hdone.not_lt]
  step piece hm rest done within amount hlt hpos hin hamt := by
    have hback := hb piece hm
    rw [hback.length_pieceData] at hin hamt ⊢
    have hle : within + amount ≤ piece.size := by omega
    rw [readPieces, if_pos hlt]
    simp only [hpos, Nat.add_sub_cancel_left, ← hamt]
    rw [if_neg (by omega)]
    unfold PieceBacked at hback
    unfold pieceData
    cases hk : piece.kind with
    | literal =>
        right
        simp only [slice_slice _ hle]
    | zero =>
        right
        simp only
        rw [slice_replicate 0 hle]
    | source =>
        simp only [hk] at hback ⊢
        obtain ⟨n, hn, hna, hread⟩ := hinput.serves (piece.backingOffset + within) amount
          (by omega) (by omega)
        have hgot : (slice inputBytes (piece.backingOffset + within) n).length = n :=
          length_slice (by omega)
        simp only [hread, hgot]
        rw [if_neg (by omega)]
        split
        · left
          refine ⟨n, hna, ⟨by omega, fun _ => hn, fun hfull => ?_⟩, by rw [slice_slice _ (by omega)]⟩
          have hlens := congrArg length (Except.ok.inj (hread.symm.trans
            (hfull _ amount (by omega))))
          rw [hgot, length_slice (by omega)] at hlens
          omega
        · right
          obtain rfl : n = amount := by omega
          rw [slice_slice _ hle]

/-- A read that does not start past the end of a part. -/
theorem PartHolds.readAt_eq (h : PartHolds inputBytes part bytes) {offset : ℕ}
    (hoff : offset ≤ part.size) (length : ℕ) :
    ∃ n, Delivered part.input inputBytes n (min length (part.size - offset)) ∧
      part.readAt offset length = .ok (slice bytes offset n) := by
  obtain ⟨requested, hreq⟩ : ∃ r, r = min length (part.size - offset) := ⟨_, rfl⟩
  have hsize := h.size_eq
  unfold readAt
  simp only [← hreq]
  rw [if_neg (by omega)]
  split
  · exact ⟨0, ⟨by omega, by omega, by omega⟩, by simp⟩
  obtain ⟨front, piece, rest, hall, hstart, hlo, hhi⟩ :=
    h.tiles.startAt (Nat.zero_le offset) (by omega)
  simp only [hstart]
  exact (readPieces_copies h.input_holds h.backed offset requested).copy hall h.tiles hlo hhi
    (by omega)

theorem PartHolds.holds (h : PartHolds inputBytes part bytes) : part.toImageSource.Holds bytes := by
  refine ⟨h.size_eq, ?_⟩
  intro offset length hpos hle
  rw [← h.size_eq] at hle
  obtain ⟨n, hn, heq⟩ := h.readAt_eq (by omega : offset ≤ part.size) length
  rw [min_eq_left (by omega)] at hn
  exact ⟨n, hn.pos hpos, hn.le, heq⟩

/-! ### Built parts -/

end SparsePartSource

def fragmentRecord (inputBytes : Bytes) (blockSize : ℕ) (fragment : Fragment) : ChunkRecord :=
  if fragment.kind = .raw then
    ⟨.raw, fragment.blockCount,
      slice inputBytes fragment.sourceOffset (fragment.blockCount * blockSize)⟩
  else ⟨.fill, fragment.blockCount, fillPattern fragment.fillValue⟩

/-- The gap record between the cursor and a block position. -/
def gapRecord (cursor block : ℕ) : List ChunkRecord :=
  if cursor < block then [⟨.dontCare, block - cursor, []⟩] else []

def partRecords (inputBytes : Bytes) (blockSize totalBlocks : ℕ) :
    ℕ → List Fragment → List ChunkRecord
  | cursor, [] => gapRecord cursor totalBlocks
  | cursor, fragment :: rest => gapRecord cursor fragment.startBlock ++
      fragmentRecord inputBytes blockSize fragment ::
        partRecords inputBytes blockSize totalBlocks fragment.endBlock rest

/-- What the writing loop has checked about a fragment. -/
structure FragmentFits (inputBytes : Bytes) (blockSize : ℕ) (fragment : Fragment) : Prop where
  size_lt : kChunkHeaderSize + (fragmentRecord inputBytes blockSize fragment).payload.length < 2 ^ 32
  inside : fragment.kind = .raw →
    fragment.sourceOffset + fragment.blockCount * blockSize ≤ inputBytes.length

namespace SparsePartSource

variable {inputBytes bytes : Bytes} {part part' : SparsePartSource} {blockSize : ℕ}

theorem length_partRecords (inputBytes : Bytes) (blockSize totalBlocks cursor : ℕ)
    (fragments : List Fragment) :
    (partRecords inputBytes blockSize totalBlocks cursor fragments).length
      = chunkCount totalBlocks cursor fragments := by
  have hgap : ∀ c b, (gapRecord c b).length = if c < b then 1 else 0 := by
    intro c b
    unfold gapRecord
    split <;> rfl
  induction fragments generalizing cursor with
  | nil => exact hgap _ _
  | cons f fs ih =>
      rw [partRecords, chunkCount, length_append, length_cons, hgap, ih]
      omega

section

variable (h : PartHolds inputBytes part bytes)
include h

theorem appendGap_holds {cursor block : ℕ} (hok : part.appendGap cursor block = .ok part') :
    PartHolds inputBytes part' (bytes ++ (gapRecord cursor block).flatMap encodeRecord) := by
  unfold appendGap at hok
  unfold gapRecord
  split at hok
  · next hlt =>
    rw [if_pos hlt]
    have := (appendChunkHeader_holds h hok).1
    simpa [encodeRecord, kindCode] using this
  · next hlt =>
    rw [if_neg hlt]
    cases hok
    simpa using h

theorem appendFragment_holds {fragment : Fragment}
    (hok : part.appendFragment blockSize fragment = .ok part') :
    PartHolds inputBytes part'
        (bytes ++ encodeRecord (fragmentRecord inputBytes blockSize fragment)) ∧
      FragmentFits inputBytes blockSize fragment := by
  rw [appendFragment, bind_eq_ok] at hok
  obtain ⟨dataBytes, hdata, hok⟩ := hok
  obtain ⟨rfl, -⟩ := checkedMultiply_eq_some (orFail_eq_ok.mp hdata)
  split at hok
  · next hk =>
    simp only [bind_eq_ok, failIf_eq_ok, exists_const, lt_irrefl, if_false,
      Except.ok.injEq] at hok
    obtain ⟨-, part₁, h₁, part₂, h₂, rfl⟩ := hok
    obtain ⟨hhdr, hlt⟩ := appendChunkHeader_holds h h₁
    obtain ⟨hsrc, hin⟩ := appendSource_holds hhdr h₂
    have hlen : (slice inputBytes fragment.sourceOffset
        (fragment.blockCount * blockSize)).length = fragment.blockCount * blockSize :=
      length_slice hin
    refine ⟨?_, ?_, fun _ => hin⟩
    · rw [fragmentRecord, if_pos hk, encodeRecord, ← append_assoc]
      simpa only [hlen, kindCode] using hsrc
    · rw [fragmentRecord, if_pos hk]
      simpa only [hlen] using hlt
  · next hk =>
    rw [bind_eq_ok] at hok
    obtain ⟨part₁, h₁, h₂⟩ := hok
    obtain ⟨hhdr, hlt⟩ := appendChunkHeader_holds h h₁
    have hfill := appendLiteral_holds hhdr h₂
    have hlen : (fillPattern fragment.fillValue).length = 4 := length_leBytes 4 _
    refine ⟨?_, ?_, fun hraw => absurd hraw hk⟩
    · rw [fragmentRecord, if_neg hk, encodeRecord, ← append_assoc]
      simpa only [hlen, kindCode] using hfill
    · rw [fragmentRecord, if_neg hk]
      simpa only [hlen] using hlt

theorem appendFragments_holds {totalBlocks cursor : ℕ} {fragments : List Fragment}
    (hok : appendFragments blockSize totalBlocks cursor fragments part = .ok part') :
    PartHolds inputBytes part' (bytes ++
        (partRecords inputBytes blockSize totalBlocks cursor fragments).flatMap encodeRecord) ∧
      ∀ fragment ∈ fragments, FragmentFits inputBytes blockSize fragment := by
  induction fragments generalizing cursor part bytes with
  | nil => exact ⟨appendGap_holds h hok, by simp⟩
  | cons f fs ih =>
      simp only [appendFragments, bind_eq_ok] at hok
      obtain ⟨part₁, h₁, part₂, h₂, h₃⟩ := hok
      obtain ⟨hfragment, hfits⟩ := appendFragment_holds (appendGap_holds h h₁) h₂
      obtain ⟨hrest, hall⟩ := ih hfragment h₃
      refine ⟨?_, fun f' hm => ?_⟩
      · simpa only [partRecords, flatMap_append, flatMap_cons, append_assoc] using hrest
      · rcases mem_cons.mp hm with rfl | hm
        · exact hfits
        · exact hall f' hm

end

/-- **A built part stands for the sparse file of its records.** -/
theorem create_holds {input : ImageSource} {totalBlocks : ℕ} {fragments : List Fragment}
    (h : input.Holds inputBytes) (hok : create input blockSize totalBlocks fragments = .ok part') :
    PartHolds inputBytes part' (encodeFile blockSize totalBlocks
        (partRecords inputBytes blockSize totalBlocks 0 fragments)) ∧
      ∀ fragment ∈ fragments, FragmentFits inputBytes blockSize fragment := by
  simp only [create, build, bind_eq_ok, failIf_eq_ok, exists_const, orFail_eq_ok] at hok
  obtain ⟨-, -, -, -, -, -, part₁, h₁, h₂⟩ := hok
  have hhdr := appendLiteral_holds (empty_holds h) h₁
  rw [encodeFile, length_partRecords]
  exact appendFragments_holds hhdr h₂

/-- **The piece table of a built part has no gap.**  Its pieces cover every position below its
size exactly once, every read that starts inside it returns bytes of the encoded part from that
offset on, and a read that starts past its end has its own error. -/
theorem part_gap_free {input : ImageSource} {totalBlocks : ℕ} {fragments : List Fragment}
    (h : input.Holds inputBytes) (hok : create input blockSize totalBlocks fragments = .ok part) :
    let bytes := encodeFile blockSize totalBlocks
      (partRecords inputBytes blockSize totalBlocks 0 fragments)
    part.size = bytes.length ∧
    part.pieces.Pairwise (fun p q => p.logicalOffset + p.size ≤ q.logicalOffset) ∧
    (∀ position, (∃ p ∈ part.pieces, p.logicalOffset ≤ position ∧
      position < p.logicalOffset + p.size) ↔ position < part.size) ∧
    ∀ offset length, if part.size < offset then
      part.readAt offset length = .error ⟨"sparse flash part read starts beyond its end"⟩
    else ∃ n, Delivered part.input inputBytes n (min length (part.size - offset)) ∧
      part.readAt offset length = .ok (slice bytes offset n) := by
  intro bytes
  have hpart := (create_holds h hok).1
  have hlen := fun p hp => (hpart.backed p hp).length_pieceData
  refine ⟨hpart.size_eq, ?_, ?_, ?_⟩
  · refine hpart.tiles.apart.imp_of_mem fun {p q} hp _ hle => ?_
    rwa [hlen p hp] at hle
  · intro position
    have hcovered := hpart.tiles.covered_iff (Nat.zero_le position)
    rw [zero_add, ← hpart.size_eq] at hcovered
    rw [← hcovered]
    refine exists_congr fun p => and_congr_right fun hp => ?_
    rw [hlen p hp]
  · intro offset length
    split
    next hpast => rw [readAt, if_pos hpast]
    next hinside => exact hpart.readAt_eq (by omega) length

/-- A part of one raw block and a gap: the block stands behind the two headers. -/
theorem part_gap_free_block : ∃ part, create (ImageSource.ofBytes [1, 2, 3, 4] (by decide)) 4 2
      [⟨.raw, 0, 1, 0, 0⟩] = .ok part ∧ part.size = 56 ∧
    part.readAt 38 5 = .ok [0, 0, 1, 2, 3] := by
  obtain ⟨part, hok, hsize, hinput⟩ : ∃ part, create (ImageSource.ofBytes [1, 2, 3, 4] (by decide))
      4 2 [⟨.raw, 0, 1, 0, 0⟩] = .ok part ∧ part.size = 56 ∧
        part.input.readAt = fun offset length => .ok (slice [1, 2, 3, 4] offset length) :=
    ⟨_, rfl, rfl, rfl⟩
  have hread := (part_gap_free (ImageSource.holds_ofBytes _ _) hok).2.2.2 38 5
  rw [hsize, if_neg (by decide)] at hread
  obtain ⟨n, hn, heq⟩ := hread
  have hall : n = 5 := hn.full (fun _ _ _ => by rw [hinput])
  exact ⟨part, hok, hsize, by rw [heq, hall]; decide⟩

/-- A block that is read one byte at a time. -/
def slowSource : ImageSource where
  size := 4
  size_le := Nat.le_of_ble_eq_true rfl
  readAt offset length := .ok (slice [1, 2, 3, 4] offset (min length 1))

/-- A read that starts past the end of a part returns no bytes, and a short read of the input
shortens the answer. -/
theorem part_read_past_end :
    (∃ part, create (ImageSource.ofBytes [] (by decide)) 4 0 [] = .ok part ∧ part.size = 28 ∧
      part.readAt 29 1 ≠ .ok (slice (encodeFile 4 0 (partRecords [] 4 0 0 [])) 29 1)) ∧
    slowSource.Holds [1, 2, 3, 4] ∧
    ∃ part, create slowSource 4 1 [⟨.raw, 0, 1, 0, 0⟩] = .ok part ∧ part.readAt 40 4 = .ok [1] ∧
      slice (encodeFile 4 1 (partRecords [1, 2, 3, 4] 4 1 0 [⟨.raw, 0, 1, 0, 0⟩])) 40 4
        = [1, 2, 3, 4] :=
  ⟨⟨_, rfl, rfl, by decide⟩, ⟨rfl, fun _ _ hpos _ => ⟨_, by omega, min_le_left _ _, rfl⟩⟩, _, rfl,
    rfl, rfl⟩

end SparsePartSource

end KairosBoot
