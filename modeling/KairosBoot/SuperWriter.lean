import KairosBoot.RegionCanvas
import KairosBoot.SuperSource

/-! # The sparse encoding of the regions

The encoding loop of `build_sparse_source` writes, for regions that are laid out on the block
device, the sparse file whose expansion is the canvas with these regions, and whose raw chunks
cover exactly the regions' blocks.

`Wrote w records` is the invariant of the loop: the pieces so far are the encoding of `records`.
`appendRegion_wrote` is its step and `encodeRegions_wrote` the run. -/

namespace KairosBoot.SuperOptimizer

open ByteLib Guards Pieces List

variable {imageBytes : Bytes} {blockSize : ℕ}

/-! ### Reading the pieces -/

/-- The bytes a piece stands for, when the image source holds `imageBytes`. -/
def pieceData (imageBytes : Bytes) (piece : MemoryPiece) : Bytes :=
  match piece.content with
  | .bytes data bytesOffset => slice data bytesOffset piece.size
  | .source _ sourceOffset => slice imageBytes sourceOffset piece.size
  | .zero => List.replicate piece.size 0

/-- The bytes of a piece are where it says. -/
def PieceBacked (imageBytes : Bytes) (piece : MemoryPiece) : Prop :=
  match piece.content with
  | .bytes data bytesOffset => bytesOffset + piece.size ≤ data.length
  | .source source sourceOffset =>
      source.Holds imageBytes ∧ sourceOffset + piece.size ≤ imageBytes.length
  | .zero => True

theorem PieceBacked.length_pieceData {piece : MemoryPiece} (h : PieceBacked imageBytes piece) :
    (pieceData imageBytes piece).length = piece.size := by
  unfold PieceBacked at h
  unfold pieceData
  split at h
  · exact length_slice h
  · exact length_slice h.2
  · simp

/-- The loop returns the requested window of the bytes the pieces stand for. -/
theorem readPieceLoop_eq {pieces : List MemoryPiece} {bytes : Bytes}
    (htiles : Tiles MemoryPiece.outputOffset (pieceData imageBytes) 0 pieces bytes)
    (hb : ∀ p ∈ pieces, PieceBacked imageBytes p) {offset length : ℕ}
    (hle : offset + length ≤ bytes.length) :
    readPieceLoop pieces offset length length [] = .ok (slice bytes offset length) := by
  refine fill_eq hle (fun fuel done hlen => ?_) fun fuel done hlt => ?_
  · cases fuel with
    | zero => rfl
    | succ fuel => rw [readPieceLoop, if_neg hlen.not_lt]
  · obtain ⟨front, piece, rest, hall, hfind, hlo, hhi⟩ :=
      htiles.startAt (Nat.zero_le (offset + done.length)) (by omega)
    have hp : piece ∈ pieces := by simp [hall]
    have hbacked := hb piece hp
    obtain ⟨inPiece, hin⟩ : ∃ i, offset + done.length = piece.outputOffset + i :=
      ⟨offset + done.length - piece.outputOffset, by omega⟩
    have hwin : ∀ n, inPiece + n ≤ piece.size → slice bytes (piece.outputOffset + inPiece) n
        = slice (pieceData imageBytes piece) inPiece n := fun n hn =>
      htiles.slice_within hp (by rw [hbacked.length_pieceData]; exact hn)
    rw [hbacked.length_pieceData] at hhi
    rw [readPieceLoop, if_pos hlt]
    simp only [hfind]
    rw [if_neg (by omega), hin, Nat.add_sub_cancel_left]
    generalize hamt : min (length - done.length) (piece.size - inPiece) = amount
    unfold PieceBacked at hbacked
    unfold pieceData at hwin
    split at hbacked
    next data bytesOffset hcont =>
      simp only [hcont] at hwin ⊢
      refine ⟨amount, by omega, by omega, ?_⟩
      rw [hwin _ (by omega), slice_slice _ (by omega)]
    next source sourceOffset hcont =>
      simp only [hcont] at hwin ⊢
      obtain ⟨hsrc, hinside⟩ := hbacked
      obtain ⟨n, hpos, hn, hread⟩ := hsrc.serves (sourceOffset + inPiece) amount
        (by omega) (by omega)
      have hgot : (slice imageBytes (sourceOffset + inPiece) n).length = n :=
        length_slice (by omega)
      refine ⟨n, hpos, by omega, ?_⟩
      simp only [hread, hgot]
      rw [if_neg (by omega), hwin n (by omega), slice_slice _ (by omega)]
    next hcont =>
      simp only [hcont] at hwin ⊢
      refine ⟨amount, by omega, by omega, ?_⟩
      rw [hwin _ (by omega), slice_replicate _ (by omega)]

theorem OptimizedSuperSource.holds {source : OptimizedSuperSource} {bytes : Bytes}
    (h : source.size ≤ uint64Max) (hsize : source.size = bytes.length)
    (htiles : Tiles MemoryPiece.outputOffset (pieceData imageBytes) 0 source.pieces bytes)
    (hb : ∀ p ∈ source.pieces, PieceBacked imageBytes p) :
    (source.toImageSource h).Holds bytes where
  size_eq := hsize
  serves := fun off len hpos hle => by
    refine ⟨len, hpos, le_rfl, ?_⟩
    simp only [OptimizedSuperSource.toImageSource, OptimizedSuperSource.readAt]
    rw [if_neg (by omega), readPieceLoop_eq htiles hb hle]

/-! ### The encoding loop -/

/-- The pieces written so far are the encoding of the records. -/
structure Wrote (imageBytes : Bytes) (blockSize : ℕ) (w : SparseWriter)
    (records : List ChunkRecord) : Prop where
  tiles : Tiles MemoryPiece.outputOffset (pieceData imageBytes) kSparseHeaderSize w.pieces
    (records.flatMap encodeRecord)
  backed : ∀ p ∈ w.pieces, PieceBacked imageBytes p
  encoded : w.encodedOffset = kSparseHeaderSize + (records.flatMap encodeRecord).length
  chunks : w.chunks = records.length
  cursor : w.outputCursor = totalRecordBlocks records * blockSize
  writable : ∀ r ∈ records, Writable blockSize r

theorem wrote_start : Wrote imageBytes blockSize ⟨[], 28, 0, 0⟩ [] where
  tiles := rfl
  backed := by simp
  encoded := rfl
  chunks := rfl
  cursor := by simp
  writable := by simp

variable {records : List ChunkRecord} {region : OutputRegion} {w : SparseWriter}
  {selected : List SelectedImage} {regions : List OutputRegion} {metadata : Metadata}

/-- Append the chunk header and the pieces of one record. -/
theorem Wrote.append (h : Wrote imageBytes blockSize w records) {r : ChunkRecord}
    (hr : Writable blockSize r) (pieces : List MemoryPiece) (output : ℕ)
    (htiles : Tiles MemoryPiece.outputOffset (pieceData imageBytes) (w.encodedOffset + 12) pieces
      r.payload) (hb : ∀ p ∈ pieces, PieceBacked imageBytes p)
    (houtp : output = w.outputCursor + r.blocks * blockSize) :
    Wrote imageBytes blockSize
      { pieces := w.pieces ++ [⟨w.encodedOffset, .bytes (encodeChunkHeader (kindCode r.kind) r.blocks
          (12 + r.payload.length)) 0, 12⟩] ++ pieces
        encodedOffset := w.encodedOffset + 12 + r.payload.length
        outputCursor := output
        chunks := w.chunks + 1 } (records ++ [r]) := by
  have hhdr : pieceData imageBytes ⟨w.encodedOffset, .bytes (encodeChunkHeader (kindCode r.kind)
      r.blocks (12 + r.payload.length)) 0, 12⟩ = encodeChunkHeader (kindCode r.kind) r.blocks
      (12 + r.payload.length) := by
    simp [pieceData, slice_eq_take, take_of_length_le, kChunkHeaderSize]
  have hlen : (encodeChunkHeader (kindCode r.kind) r.blocks (12 + r.payload.length)).length = 12 :=
    length_encodeChunkHeader _ _ _
  constructor
  case tiles =>
    rw [flatMap_append, tiles_append_iff]
    refine ⟨records.flatMap encodeRecord ++ encodeChunkHeader (kindCode r.kind) r.blocks
      (12 + r.payload.length), r.payload, by simp [encodeRecord, kChunkHeaderSize], ?_, ?_⟩
    · have := h.tiles.snoc (p := ⟨w.encodedOffset, .bytes (encodeChunkHeader (kindCode r.kind)
        r.blocks (12 + r.payload.length)) 0, 12⟩) h.encoded (by rw [hhdr, hlen]; decide)
      rwa [hhdr] at this
    · rw [length_append, hlen, ← add_assoc, ← h.encoded]
      exact htiles
  case backed =>
    refine forall_mem_append.mpr ⟨forall_mem_append.mpr ⟨h.backed, ?_⟩, hb⟩
    exact forall_mem_singleton.mpr (by simp [PieceBacked, kChunkHeaderSize])
  case encoded =>
    simp only [flatMap_append, flatMap_cons, flatMap_nil, append_nil,
      length_append, length_encodeRecord, h.encoded, kChunkHeaderSize]
    omega
  case chunks => simp [h.chunks]
  case cursor =>
    rw [totalRecordBlocks_append, totalRecordBlocks_cons, totalRecordBlocks_nil, add_zero,
      add_mul, ← h.cursor]
    exact houtp
  case writable =>
    exact forall_mem_append.mpr ⟨h.writable, forall_mem_singleton.mpr hr⟩

/-! ### Gaps -/

theorem Wrote.appendGap (h : Wrote imageBytes blockSize w records) (hbs : 0 < blockSize)
    {target : ℕ} (hle : w.outputCursor ≤ target) (hmod : target % blockSize = 0)
    (hlt : target / blockSize < 2 ^ 32) :
    ∃ gap, Wrote imageBytes blockSize (w.appendGap blockSize target) (records ++ gap) ∧
      expandRecords blockSize gap = replicate (target - w.outputCursor) 0 ∧
      (∀ r ∈ gap, r.kind = .dontCare) ∧
      (w.appendGap blockSize target).outputCursor = target := by
  unfold SparseWriter.appendGap
  by_cases hgap : w.outputCursor < target
  · obtain ⟨n, rfl⟩ := Nat.dvd_of_mod_eq_zero hmod
    have hcurs := h.cursor
    rw [mul_comm] at hcurs
    have hblks : (blockSize * n - w.outputCursor) / blockSize = n - totalRecordBlocks records := by
      rw [hcurs, ← Nat.mul_sub, Nat.mul_div_cancel_left _ hbs]
    have hn : totalRecordBlocks records < n := by
      rw [hcurs] at hgap
      exact Nat.lt_of_mul_lt_mul_left hgap
    rw [Nat.mul_div_cancel_left _ hbs] at hlt
    have hr : Writable blockSize ⟨.dontCare, n - totalRecordBlocks records, []⟩ :=
      ⟨⟨by simp only; omega, rfl⟩, by simp, by simp only; omega, by simp [kChunkHeaderSize]⟩
    have houtp : blockSize * n = w.outputCursor + (n - totalRecordBlocks records) * blockSize := by
      rw [hcurs, mul_comm (n - _), ← mul_add]
      congr 1
      omega
    refine ⟨[⟨.dontCare, n - totalRecordBlocks records, []⟩], ?_, ?_, by simp, by simp [hgap]⟩
    · rw [if_pos hgap, hblks]
      have := h.append hr [] _ rfl (by simp) houtp
      rw [append_nil] at this
      exact this
    · rw [expandRecords_cons, expandRecords_nil, append_nil, houtp, Nat.add_sub_cancel_left]
      rfl
  · refine ⟨[], ?_, ?_, by simp, ?_⟩
    · rw [if_neg hgap, append_nil]
      exact h
    · have : target - w.outputCursor = 0 := by omega
      simp [this]
    · rw [if_neg hgap]
      omega

/-! ### Regions -/

/-- The bytes of a region: what it holds, or the image padded with zeros. -/
def regionData (imageBytes : Bytes) (region : OutputRegion) : Bytes :=
  match region.content with
  | .bytes data => data
  | .image _ _ => imageBytes ++ List.replicate (region.size - imageBytes.length) 0

/-- The contents of a region fill it. -/
def RegionBacked (imageBytes : Bytes) (region : OutputRegion) : Prop :=
  match region.content with
  | .bytes data => data.length = region.size
  | .image source sourceSize => source.Holds imageBytes ∧ sourceSize = imageBytes.length ∧
      imageBytes.length ≤ region.size

theorem RegionBacked.length_regionData (h : RegionBacked imageBytes region) :
    (regionData imageBytes region).length = region.size := by
  unfold RegionBacked at h
  unfold regionData
  split at h
  · exact h
  · simp only [length_append, length_replicate]
    omega

/-- The pieces of a window of a region stand for that window. -/
theorem contentPieces_tiles (h : RegionBacked imageBytes region) (encodedOffset : ℕ)
    {regionCursor amount : ℕ} (hpos : 0 < amount) (hle : regionCursor + amount ≤ region.size) :
    Tiles MemoryPiece.outputOffset (pieceData imageBytes) encodedOffset
        (contentPieces region.content encodedOffset regionCursor amount)
        (slice (regionData imageBytes region) regionCursor amount) ∧
      ∀ p ∈ contentPieces region.content encodedOffset regionCursor amount,
        PieceBacked imageBytes p := by
  unfold RegionBacked at h
  unfold regionData contentPieces
  cases hcont : region.content with
  | bytes data =>
    rw [hcont] at h
    have hlen : (slice data regionCursor amount).length = amount := length_slice (by omega)
    simp only [mem_singleton, forall_eq]
    exact ⟨⟨rfl, by simp [pieceData, hlen, hpos], [], by simp [pieceData], rfl⟩,
      by simp only [PieceBacked]; omega⟩
  | image source sourceSize =>
    rw [hcont] at h
    obtain ⟨hhold, rfl, hfits⟩ := h
    simp only
    rw [slice_append_replicate _ _ (by omega)]
    have hrem : (if regionCursor < imageBytes.length then imageBytes.length - regionCursor
        else 0) = imageBytes.length - regionCursor := by split <;> omega
    rw [hrem]
    generalize hsrc : min amount (imageBytes.length - regionCursor) = sourceAmount
    have hdata : (slice imageBytes regionCursor sourceAmount).length = sourceAmount := by
      by_cases h0 : sourceAmount = 0
      · simp [h0]
      · exact length_slice (by omega)
    by_cases h0 : sourceAmount = 0
    · subst h0
      have hlt : 0 < amount := hpos
      simp only [ne_eq, not_true, if_false, if_pos hlt, nil_append, slice_zero_len,
        add_zero, Nat.sub_zero, mem_singleton, forall_eq]
      exact ⟨⟨rfl, by simp [pieceData, hpos], [], by simp [pieceData], rfl⟩, trivial⟩
    · have hsrcPiece : PieceBacked imageBytes
          ⟨encodedOffset, .source source regionCursor, sourceAmount⟩ :=
        ⟨hhold, by simp only; omega⟩
      by_cases hall : sourceAmount < amount
      · simp only [ne_eq, h0, not_false_eq_true, if_true, if_pos hall, mem_append,
          mem_singleton, forall_eq_or_imp, forall_eq]
        refine ⟨⟨rfl, by simp only [pieceData, hdata]; omega, _, rfl, ?_⟩, ?_⟩
        · refine ⟨?_, ?_, [], by simp [pieceData], rfl⟩
          · simp [pieceData, hdata]
          · simp only [pieceData, length_replicate]
            omega
        · exact ⟨hsrcPiece, trivial⟩
      · obtain rfl : sourceAmount = amount := by omega
        simp only [ne_eq, h0, not_false_eq_true, if_true, lt_irrefl, if_false, append_nil,
          Nat.sub_self, replicate_zero, mem_singleton, forall_eq]
        exact ⟨⟨rfl, by simp only [pieceData, hdata]; omega, [], by simp [pieceData], rfl⟩,
          hsrcPiece⟩

/-- Sizes for which every raw chunk fits its fields. -/
structure BlockSizeOk (blockSize : ℕ) : Prop where
  pos : 0 < blockSize
  le : blockSize ≤ 2 ^ 32 - 13

theorem BlockSizeOk.maximumRaw_pos (h : BlockSizeOk blockSize) : 0 < maximumRaw blockSize := by
  have := h.le
  exact Nat.mul_pos (Nat.div_pos (by omega) h.pos) h.pos

theorem maximumRaw_le (blockSize : ℕ) : maximumRaw blockSize ≤ 2 ^ 32 - 13 :=
  Nat.div_mul_le_self _ _

theorem maximumRaw_mod (blockSize : ℕ) : maximumRaw blockSize % blockSize = 0 :=
  Nat.mul_mod_left _ _

/-- The raw chunks of a region hold its bytes from the cursor on. -/
theorem Wrote.appendRaw (hbs : BlockSizeOk blockSize) (hbacked : RegionBacked imageBytes region)
    (hmod : region.size % blockSize = 0) {fuel regionCursor : ℕ}
    (h : Wrote imageBytes blockSize w records) (hcurs : regionCursor % blockSize = 0)
    (hle : regionCursor ≤ region.size) (hfuel : region.size - regionCursor ≤ fuel) :
    ∃ raws, Wrote imageBytes blockSize
        (SparseWriter.appendRaw blockSize region fuel regionCursor w) (records ++ raws) ∧
      expandRecords blockSize raws
        = slice (regionData imageBytes region) regionCursor (region.size - regionCursor) ∧
      (∀ r ∈ raws, r.kind = .raw) ∧
      (SparseWriter.appendRaw blockSize region fuel regionCursor w).outputCursor
        = w.outputCursor + (region.size - regionCursor) := by
  induction fuel generalizing regionCursor w records with
  | zero =>
      have hzero : region.size - regionCursor = 0 := by omega
      exact ⟨[], by rw [append_nil]; exact h, by simp [hzero], by simp, by rw [hzero]; rfl⟩
  | succ fuel ih =>
      rw [SparseWriter.appendRaw]
      by_cases hlt : regionCursor < region.size
      · rw [if_pos hlt]
        simp only
        generalize hamt : min (region.size - regionCursor) (maximumRaw blockSize) = amount
        have hmax := hbs.maximumRaw_pos
        have hbnd := maximumRaw_le blockSize
        have hdvd : amount % blockSize = 0 := by
          rcases Nat.le_total (region.size - regionCursor) (maximumRaw blockSize) with hc | hc
          · rw [Nat.min_eq_left hc] at hamt
            rw [← hamt]
            exact Nat.sub_mod_eq_zero_of_mod_eq (by rw [hmod, hcurs])
          · rw [Nat.min_eq_right hc] at hamt
            rw [← hamt]
            exact maximumRaw_mod blockSize
        have hblks : amount / blockSize * blockSize = amount :=
          Nat.div_mul_cancel (Nat.dvd_of_mod_eq_zero hdvd)
        have hpay : (slice (regionData imageBytes region) regionCursor amount).length
            = amount := length_slice (by rw [hbacked.length_regionData]; omega)
        have hr : Writable blockSize
            ⟨.raw, amount / blockSize, slice (regionData imageBytes region) regionCursor amount⟩ := by
          refine ⟨⟨?_, ?_⟩, by simp, ?_, ?_⟩
          · exact Nat.div_pos (Nat.le_of_dvd (by omega) (Nat.dvd_of_mod_eq_zero hdvd)) hbs.pos
          · rw [hblks]
            exact hpay
          · exact lt_of_le_of_lt (Nat.div_le_self _ _) (by omega)
          · simp only [hpay, kChunkHeaderSize]
            omega
        have hin : regionCursor + amount ≤ region.size := by omega
        obtain ⟨htiles, hpcs⟩ := contentPieces_tiles hbacked (w.encodedOffset + 12) (by omega) hin
        have hstep := h.append hr _ (w.outputCursor + amount) htiles hpcs (by simp only [hblks])
        simp only [hpay] at hstep
        have hnext : (regionCursor + amount) % blockSize = 0 := by
          rw [Nat.add_mod, hcurs, hdvd, add_zero, Nat.zero_mod]
        obtain ⟨raws, hwrote, hexpd, hraw, hout⟩ := ih hstep hnext hin (by omega)
        refine ⟨⟨.raw, amount / blockSize,
          slice (regionData imageBytes region) regionCursor amount⟩ :: raws, ?_, ?_, ?_, ?_⟩
        · rw [append_cons]
          exact hwrote
        · rw [expandRecords_cons, hexpd]
          have hsplit : region.size - regionCursor
              = amount + (region.size - (regionCursor + amount)) := by omega
          rw [hsplit, slice_add]
          rfl
        · exact forall_mem_cons.mpr ⟨rfl, hraw⟩
        · refine hout.trans ?_
          simp only
          omega
      · rw [if_neg hlt]
        have hzero : region.size - regionCursor = 0 := by omega
        exact ⟨[], by rw [append_nil]; exact h, by simp [hzero], by simp, by omega⟩

/-! ### The run over all regions -/

theorem not_backsFrom_dontCare {start block : ℕ} {gap : List ChunkRecord}
    (h : ∀ r ∈ gap, r.kind = .dontCare) : ¬ BacksFrom start gap block := by
  induction gap generalizing start with
  | nil => exact id
  | cons r rs ih =>
      obtain ⟨hr, hrs⟩ := forall_mem_cons.mp h
      simp [BacksFrom, hr, ih hrs]

theorem backsFrom_raw {start block : ℕ} {raws : List ChunkRecord} (h : ∀ r ∈ raws, r.kind = .raw) :
    BacksFrom start raws block ↔ start ≤ block ∧ block < start + totalRecordBlocks raws := by
  induction raws generalizing start with
  | nil =>
      simp only [BacksFrom, totalRecordBlocks_nil, false_iff]
      omega
  | cons r rs ih =>
      obtain ⟨hr, hrs⟩ := forall_mem_cons.mp h
      simp only [BacksFrom, hr, true_or, true_and, ih hrs, totalRecordBlocks_cons]
      omega

/-- The block starts inside the region. -/
def Covers (blockSize : ℕ) (region : OutputRegion) (block : ℕ) : Prop :=
  region.offset ≤ block * blockSize ∧ block * blockSize < region.offset + region.size

theorem covers_iff (hbs : 0 < blockSize) {first count block : ℕ}
    (hoff : region.offset = first * blockSize) (hsize : region.size = count * blockSize) :
    Covers blockSize region block ↔ first ≤ block ∧ block < first + count := by
  unfold Covers
  rw [hoff, hsize, ← add_mul, Nat.mul_le_mul_right_iff hbs, Nat.mul_lt_mul_right hbs]

theorem Wrote.appendRegion (h : Wrote imageBytes blockSize w records)
    (hbs : BlockSizeOk blockSize) (hbacked : RegionBacked imageBytes region)
    (hoff : region.offset % blockSize = 0) (hsize : region.size % blockSize = 0)
    (hle : w.outputCursor ≤ region.offset) (hlt : region.offset / blockSize < 2 ^ 32) :
    ∃ added, Wrote imageBytes blockSize (w.appendRegion blockSize region) (records ++ added) ∧
      expandRecords blockSize added
        = replicate (region.offset - w.outputCursor) 0 ++ regionData imageBytes region ∧
      (w.appendRegion blockSize region).outputCursor = region.offset + region.size ∧
      ∀ block, BacksFrom (totalRecordBlocks records) added block ↔
        Covers blockSize region block := by
  obtain ⟨gap, hgap, hzeros, hkind, hcurs⟩ := h.appendGap hbs.pos hle hoff hlt
  obtain ⟨raws, hraws, hdata, hraw, hout⟩ :=
    hgap.appendRaw hbs hbacked hsize (Nat.zero_mod _) (Nat.zero_le _) (le_refl (region.size - 0))
  rw [Nat.sub_zero] at hraws hdata hout
  rw [hcurs] at hout
  refine ⟨gap ++ raws, by rw [← append_assoc]; exact hraws, ?_, hout, fun block => ?_⟩
  · rw [expandRecords_append, hzeros, hdata, ← hbacked.length_regionData, slice_all]
  · -- in blocks: the gap ends where the region starts, and the raw chunks fill the region
    have hstart := hgap.cursor
    have hend := hraws.cursor
    rw [hcurs] at hstart
    rw [totalRecordBlocks_append, add_mul, ← hstart] at hend
    have hfill : region.size = totalRecordBlocks raws * blockSize := by
      have := hout.symm.trans hend
      omega
    rw [covers_iff hbs.pos hstart hfill, backsFrom_append, backsFrom_raw hraw,
      totalRecordBlocks_append]
    exact or_iff_right (not_backsFrom_dontCare hkind)

/-- What the check of the regions establishes for each of them. -/
structure RegionOk (imageBytes : Bytes) (blockSize : ℕ) (region : OutputRegion) : Prop where
  backed : RegionBacked imageBytes region
  offset_mod : region.offset % blockSize = 0
  size_mod : region.size % blockSize = 0

theorem Wrote.foldRegions {finish : ℕ} (hbs : BlockSizeOk blockSize)
    (hfin : finish / blockSize < 2 ^ 32)
    (hok : ∀ region ∈ regions, RegionOk imageBytes blockSize region)
    (h : Wrote imageBytes blockSize w records)
    (hlaid : Regions.Laid OutputRegion.offset (regionData imageBytes) w.outputCursor regions
      finish) :
    ∃ added, Wrote imageBytes blockSize
        (regions.foldl (SparseWriter.appendRegion blockSize) w) (records ++ added) ∧
      (regions.foldl (SparseWriter.appendRegion blockSize) w).outputCursor ≤ finish ∧
      expandRecords blockSize added ++ replicate (finish -
          (regions.foldl (SparseWriter.appendRegion blockSize) w).outputCursor) 0
        = Regions.paint OutputRegion.offset (regionData imageBytes) w.outputCursor regions finish ∧
      ∀ block, BacksFrom (totalRecordBlocks records) added block ↔
        ∃ region ∈ regions, Covers blockSize region block := by
  induction regions generalizing w records with
  | nil => exact ⟨[], by rw [append_nil]; exact h, hlaid, by simp [Regions.paint],
      by simp [BacksFrom]⟩
  | cons region rest ih =>
      obtain ⟨hreg, hrest⟩ := forall_mem_cons.mp hok
      have hbnd := (hlaid.bounds mem_cons_self).2
      have hlt : region.offset / blockSize < 2 ^ 32 :=
        lt_of_le_of_lt (Nat.div_le_div_right (by omega)) hfin
      obtain ⟨added, hadded, hexpd, hcurs, hcov⟩ := h.appendRegion hbs hreg.backed
        hreg.offset_mod hreg.size_mod hlaid.1 hlt
      have hnext := hlaid.2
      rw [hreg.backed.length_regionData, ← hcurs] at hnext
      obtain ⟨more, hmore, hle, hpaint, hcov'⟩ := ih hrest hadded hnext
      refine ⟨added ++ more, by rw [← append_assoc]; exact hmore, hle, ?_, fun block => ?_⟩
      · rw [foldl_cons, expandRecords_append, append_assoc, hpaint, hexpd,
          Regions.paint, hcurs, hreg.backed.length_regionData, append_assoc]
      · have hsnd := hcov' block
        rw [totalRecordBlocks_append] at hsnd
        rw [backsFrom_append, hcov, hsnd]
        simp

/-- The encoding of laid-out regions: its expansion is the canvas and its raw chunks cover the
regions. -/
theorem encodeRegions_wrote {finish : ℕ} (hbs : BlockSizeOk blockSize)
    (hfin : finish / blockSize < 2 ^ 32) (hmod : finish % blockSize = 0)
    (hok : ∀ region ∈ regions, RegionOk imageBytes blockSize region)
    (hlaid : Regions.Laid OutputRegion.offset (regionData imageBytes) 0 regions finish) :
    ∃ records, Wrote imageBytes blockSize (encodeRegions blockSize finish regions) records ∧
      (encodeRegions blockSize finish regions).outputCursor = finish ∧
      expandRecords blockSize records
        = Regions.paint OutputRegion.offset (regionData imageBytes) 0 regions finish ∧
      ∀ block, Backs records block ↔ ∃ region ∈ regions, Covers blockSize region block := by
  obtain ⟨records, hwrote, hle, hpaint, hcov⟩ := Wrote.foldRegions hbs hfin hok wrote_start hlaid
  rw [nil_append] at hwrote
  simp only [totalRecordBlocks_nil] at hcov
  obtain ⟨gap, hgap, hzeros, hkind, hcurs⟩ := hwrote.appendGap hbs.pos hle hmod hfin
  refine ⟨records ++ gap, hgap, hcurs, ?_, fun block => ?_⟩
  · rw [expandRecords_append, hzeros, hpaint]
  · rw [Backs, backsFrom_append, hcov]
    exact or_iff_left (not_backsFrom_dontCare hkind)

/-! ### The generated source -/

theorem Wrote.holds (h : Wrote imageBytes blockSize w records) {totalBlocks : ℕ}
    (hsize : (w.toSource blockSize totalBlocks).size ≤ uint64Max) :
    ((w.toSource blockSize totalBlocks).toImageSource hsize).Holds
      (encodeFile blockSize totalBlocks records) := by
  have hhdr : pieceData imageBytes
      ⟨0, .bytes (encodeHeader blockSize totalBlocks w.chunks) 0, 28⟩
      = encodeHeader blockSize totalBlocks records.length := by
    simp [pieceData, slice_eq_take, take_of_length_le, kSparseHeaderSize, h.chunks]
  have htiles : Tiles MemoryPiece.outputOffset (pieceData imageBytes) 0
      (⟨0, .bytes (encodeHeader blockSize totalBlocks w.chunks) 0, 28⟩ :: w.pieces)
      (encodeFile blockSize totalBlocks records) := by
    refine ⟨rfl, ?_, records.flatMap encodeRecord, ?_, ?_⟩
    · rw [hhdr, length_encodeHeader]
      decide
    · rw [hhdr]
      rfl
    · rw [hhdr, length_encodeHeader, zero_add]
      exact h.tiles
  -- the pieces are already in order, so sorting them changes nothing
  have hsorted : (w.toSource blockSize totalBlocks).pieces
      = ⟨0, .bytes (encodeHeader blockSize totalBlocks w.chunks) 0, 28⟩ :: w.pieces :=
    htiles.pairwise.1.insertionSort_eq
  rw [← hsorted] at htiles
  refine OptimizedSuperSource.holds hsize ?_ htiles ?_
  · rw [encodeFile, length_append, length_encodeHeader]
    exact h.encoded
  · rw [hsorted]
    exact forall_mem_cons.mpr ⟨by simp [PieceBacked, kSparseHeaderSize], h.backed⟩

theorem checkRegions_laid {start finish : ℕ}
    (hok : checkRegions blockSize start regions = .ok finish)
    (hbacked : ∀ region ∈ regions, RegionBacked imageBytes region) :
    Regions.Laid OutputRegion.offset (regionData imageBytes) start regions finish ∧
      ∀ region ∈ regions, RegionOk imageBytes blockSize region := by
  induction regions generalizing start with
  | nil =>
      cases hok
      exact ⟨le_rfl, by simp⟩
  | cons region rest ih =>
      obtain ⟨hreg, hrest⟩ := forall_mem_cons.mp hbacked
      rw [checkRegions, failIf_bind_eq_ok] at hok
      obtain ⟨hchks, hok⟩ := hok
      push Not at hchks
      obtain ⟨hlaid, hoks⟩ := ih hok hrest
      refine ⟨⟨hchks.1, by rwa [hreg.length_regionData]⟩, forall_mem_cons.mpr ⟨?_, hoks⟩⟩
      exact ⟨hreg, hchks.2.1, hchks.2.2.1⟩

/-- What the generated source holds: a sparse file whose expansion is the canvas with the
populated regions. -/
structure GeneratedFile (imageBytes : Bytes) (metadata : Metadata) (selected : List SelectedImage)
    (source : ImageSource) (records : List ChunkRecord) : Prop where
  holds : source.Holds (encodeFile metadata.geometry.logicalBlockSize
    (metadata.blockDevice.size / metadata.geometry.logicalBlockSize) records)
  writable : ∀ r ∈ records, Writable metadata.geometry.logicalBlockSize r
  blocks_eq : totalRecordBlocks records * metadata.geometry.logicalBlockSize
    = metadata.blockDevice.size
  blocks_lt : totalRecordBlocks records < 2 ^ 32
  aligned : ∀ region ∈ sortedRegions metadata selected,
    RegionOk imageBytes metadata.geometry.logicalBlockSize region
  laid : Regions.Laid OutputRegion.offset (regionData imageBytes) 0
    (sortedRegions metadata selected) metadata.blockDevice.size
  expands : expandRecords metadata.geometry.logicalBlockSize records
    = Regions.paint OutputRegion.offset (regionData imageBytes) 0
        (sortedRegions metadata selected) metadata.blockDevice.size
  backs : ∀ block, Backs records block ↔ ∃ region ∈ sortedRegions metadata selected,
    Covers metadata.geometry.logicalBlockSize region block

theorem mem_sortedRegions :
    region ∈ sortedRegions metadata selected ↔ region ∈ outputRegions metadata selected
      (metadataBlock metadata (serializeMetadata metadata selected)) :=
  (perm_insertionSort _ _).mem_iff

theorem buildSparseSource_serialized {source : ImageSource}
    (hok : buildSparseSource metadata selected = .ok source) :
    (serializeMetadata metadata selected).length ≤ metadata.geometry.metadataMaxSize := by
  simp only [buildSparseSource, bind_eq_ok, failIf_eq_ok, exists_const] at hok
  exact Nat.le_of_not_lt hok.1

theorem buildSparseSource_generated {source : ImageSource}
    (hok : buildSparseSource metadata selected = .ok source)
    (hbs : BlockSizeOk metadata.geometry.logicalBlockSize)
    (hbacked : ∀ region ∈ outputRegions metadata selected
      (metadataBlock metadata (serializeMetadata metadata selected)),
      RegionBacked imageBytes region) :
    ∃ records, GeneratedFile imageBytes metadata selected source records := by
  simp only [buildSparseSource, bind_eq_ok, failIf_eq_ok, exists_const] at hok
  obtain ⟨-, -, populatedEnd, hregs, hlims, hcover, hok⟩ := hok
  push Not at hlims
  obtain ⟨hend, -, hmod, hblks⟩ := hlims
  obtain ⟨hlaid, hoks⟩ := checkRegions_laid hregs
    (fun region hm => hbacked region (mem_sortedRegions.mp hm))
  have hlaid := hlaid.mono hend
  have hfin : metadata.blockDevice.size / metadata.geometry.logicalBlockSize < 2 ^ 32 := by
    omega
  obtain ⟨records, hwrote, hcurs, hexpd, hbacks⟩ := encodeRegions_wrote hbs hfin hmod hoks hlaid
  have hblocks_eq : totalRecordBlocks records * metadata.geometry.logicalBlockSize
      = metadata.blockDevice.size := by rw [← hwrote.cursor, hcurs]
  refine ⟨records, ?_, hwrote.writable, hblocks_eq, ?_, hoks, hlaid, hexpd, hbacks⟩
  · split at hok
    next hsize =>
      cases hok
      exact hwrote.holds hsize
    next => cases hok
  · rw [← Nat.mul_div_cancel (totalRecordBlocks records) hbs.pos, hblocks_eq]
    exact hfin

end KairosBoot.SuperOptimizer
