import KairosBoot.PieceTable
import KairosBoot.SparseAccept

/-! # Reading an accepted image

The output chunks of an accepted image are a piece table of its expansion
(`tiles_dataChunks`), and `SparseImage::read_at` returns the requested window of the expansion,
cut at its end (`readAt_imageOf`).  The copy loop is followed chunk by chunk in
`readAtLoop_copies`. -/

namespace KairosBoot

open ByteLib Guards Pieces FlashArtifact List

/-- The data a table entry stands for, read from the file. -/
def chunkData (bytes : Bytes) (chunk : SparseChunk) : Bytes :=
  match chunk.kind with
  | .raw => slice bytes chunk.inputOffset chunk.outputSize
  | .fill => cyclic 0 (fillPattern (chunk.fillValue.getD 0#32)) chunk.outputSize
  | .dontCare => List.replicate chunk.outputSize 0
  | .crc32 => []

/-- A data-producing entry whose payload lies inside the file. -/
structure ChunkReadable (bytes : Bytes) (chunk : SparseChunk) : Prop where
  kind_ne : chunk.kind ≠ .crc32
  inside : chunk.kind = .raw → chunk.inputOffset + chunk.outputSize ≤ bytes.length

theorem ChunkReadable.length_chunkData {bytes : Bytes} {chunk : SparseChunk}
    (h : ChunkReadable bytes chunk) : (chunkData bytes chunk).length = chunk.outputSize := by
  unfold chunkData
  cases hk : chunk.kind with
  | raw => exact length_slice (h.inside hk)
  | fill => exact length_cyclic _ _ _
  | dontCare => exact length_replicate
  | crc32 => exact absurd hk h.kind_ne

variable {source : ImageSource} {bytes : Bytes} {header : SparseHeader}

/-! ### The copy loop -/

theorem readFromChunk_eq (h : source.Holds bytes) {chunk : SparseChunk}
    (hc : ChunkReadable bytes chunk) (currentOffset : ℕ) {withinChunk amount : ℕ}
    (hle : withinChunk + amount ≤ chunk.outputSize) :
    readFromChunk source currentOffset chunk withinChunk amount
      = .ok (slice (chunkData bytes chunk) withinChunk amount) := by
  have hmax := h.length_le
  unfold readFromChunk chunkData
  cases hk : chunk.kind with
  | raw =>
      have hin := hc.inside hk
      simp only
      rw [checkedAdd_of_le (by omega), orFail_some_bind, readExact_of_le h (by omega),
        slice_slice _ hle]
  | fill => exact congrArg Except.ok (slice_cyclic 0 _ hle).symm
  | dontCare => exact congrArg Except.ok (slice_replicate 0 hle).symm
  | crc32 => exact absurd hk hc.kind_ne

theorem readAtLoop_copies (h : source.Holds bytes) {chunks : List SparseChunk}
    (hc : ∀ chunk ∈ chunks, ChunkReadable bytes chunk) (requestedOffset targetSize : ℕ) :
    CopyLoop SparseChunk.outputOffset (chunkData bytes) chunks requestedOffset targetSize (· = ·)
      (readAtLoop source requestedOffset targetSize) where
  full _ := rfl
  add a _ _ _ h := congrArg (a + ·) h
  stop ps done hdone := by cases ps <;> rw [readAtLoop, if_neg hdone.not_lt]
  step chunk hm rest done within amount hlt hpos hin hamt := by
    have hread := hc chunk hm
    rw [hread.length_chunkData] at hin hamt ⊢
    right
    rw [readAtLoop, if_pos hlt]
    simp only [hpos, Nat.add_sub_cancel_left, ← hamt]
    rw [failIf_bind_of_not (by omega), readFromChunk_eq h hread _ (by omega), ok_bind]

/-- Reading through a piece table of output chunks returns the window, cut at the end. -/
theorem readAt_of_tiles {image : SparseImage} (h : image.source.Holds bytes) {data : Bytes}
    (ht : Tiles SparseChunk.outputOffset (chunkData bytes) 0 image.outputChunks data)
    (hc : ∀ chunk ∈ image.outputChunks, ChunkReadable bytes chunk)
    (hsize : image.outputSize = data.length) {requestedOffset length : ℕ}
    (hoff : requestedOffset ≤ image.outputSize) (hmax : requestedOffset + length ≤ uint64Max) :
    image.readAt requestedOffset length = .ok (slice data requestedOffset length) := by
  obtain ⟨targetSize, htarget⟩ : ∃ t, t = min (image.outputSize - requestedOffset) length :=
    ⟨_, rfl⟩
  have hcut : slice data requestedOffset length = slice data requestedOffset targetSize := by
    simp only [slice, take_eq_take_iff, length_drop]
    omega
  rw [SparseImage.readAt, failIf_bind_of_not (by omega), checkedAdd_of_le hmax, orFail_some_bind,
    hcut]
  simp only [← htarget]
  split
  · next hzero => rw [hzero, slice_zero_len]
  · next hpos =>
    obtain ⟨front, chunk, rest, hall, hdrop, hle, hlt⟩ :=
      ht.dropWhile (fun c hm => (hc c hm).length_chunkData.symm)
        (Nat.zero_le requestedOffset) (by omega)
    obtain ⟨n, rfl, hcopy⟩ :=
      (readAtLoop_copies h hc requestedOffset targetSize).copy hall ht hle hlt (by omega)
    rw [hdrop, hcopy]

/-! ### The output chunks -/

variable {records : List ChunkRecord} {artifact : FlashArtifact} {offset : ℕ}

/-- The table entry of a record stands for the record's expansion. -/
theorem chunkData_toChunk {r : ChunkRecord} (hat : ChunkAt bytes header offset r) (output : ℕ) :
    chunkData bytes (r.toChunk header offset output) = r.expand header.blockSize := by
  have hwf := hat.wellFormed
  unfold chunkData ChunkRecord.expand
  cases hk : r.kind <;> simp only [ChunkRecord.WellFormed, hk] at hwf <;>
    simp only [ChunkRecord.toChunk, hk]
  · rw [← hwf.2]
    exact hat.payload_eq.symm
  · simp [fillPattern_word hwf.2]

theorem chunkReadable_toChunk {r : ChunkRecord} (hat : ChunkAt bytes header offset r)
    (hk : r.kind ≠ .crc32) (output : ℕ) : ChunkReadable bytes (r.toChunk header offset output) := by
  refine ⟨hk, fun hraw => ?_⟩
  have hwf := hat.wellFormed
  have hraw' : r.kind = .raw := hraw
  simp only [ChunkRecord.WellFormed, hraw'] at hwf
  have := hat.inside
  simp only [ChunkRecord.toChunk]
  omega

theorem dataChunks_cons (chunk : SparseChunk) (rest : List SparseChunk) :
    dataChunks (chunk :: rest)
      = if chunk.kind = .crc32 then dataChunks rest else chunk :: dataChunks rest := by
  by_cases hk : chunk.kind = .crc32 <;> simp [dataChunks, hk]

/-- The data chunks of a file are a piece table of its expansion. -/
theorem ChunksBetween.tiles_dataChunks (hb : HeaderBounds header) {finish : ℕ}
    (hat : ChunksBetween bytes header offset records finish) (output : ℕ) :
    Tiles SparseChunk.outputOffset (chunkData bytes) output
        (dataChunks (layout header offset output records))
        (expandRecords header.blockSize records) ∧
      ∀ chunk ∈ dataChunks (layout header offset output records), ChunkReadable bytes chunk := by
  induction records generalizing offset output with
  | nil => exact ⟨rfl, by simp [layout, dataChunks]⟩
  | cons r rs ih =>
      have hlen := hat.1.wellFormed.length_expand
      obtain ⟨htiles, hread⟩ := ih hat.2 (output + r.blocks * header.blockSize)
      rw [layout, dataChunks_cons]
      by_cases hk : r.kind = .crc32
      · have hexp : r.expand header.blockSize = [] := by simp [ChunkRecord.expand, hk]
        have hzero : r.blocks * header.blockSize = 0 := by rw [← hlen, hexp]; rfl
        rw [if_pos (by exact hk), expandRecords_cons, hexp, nil_append]
        rw [hzero, add_zero] at htiles hread ⊢
        exact ⟨htiles, hread⟩
      · have hdata := chunkData_toChunk hat.1 output
        have hpos : 0 < r.blocks * header.blockSize :=
          Nat.mul_pos (hat.1.wellFormed.blocks_pos hk) hb.block_pos
        rw [if_neg (by exact hk)]
        refine ⟨⟨rfl, by rw [hdata, hlen]; exact hpos, _, by rw [hdata]; rfl, ?_⟩, ?_⟩
        · rw [hdata, hlen]
          exact htiles
        · intro chunk hmem
          rcases mem_cons.mp hmem with rfl | hmem
          · exact chunkReadable_toChunk hat.1 hk output
          · exact hread chunk hmem

theorem filterMap_dataIndices (records : List ChunkRecord) (before : List SparseChunk)
    (offset output : ℕ) :
    (dataIndices before.length records).filterMap
        (fun index => (before ++ layout header offset output records)[index]?)
      = dataChunks (layout header offset output records) := by
  induction records generalizing before offset output with
  | nil => rfl
  | cons r rs ih =>
      have hrest := ih (before ++ [r.toChunk header offset output])
        (offset + header.chunkHeaderSize + r.payload.length)
        (output + r.blocks * header.blockSize)
      rw [length_append, length_singleton, append_assoc] at hrest
      rw [layout, dataIndices, dataChunks_cons]
      by_cases hk : r.kind = .crc32
      · rw [if_pos hk, if_pos (by exact hk)]
        exact hrest
      · rw [if_neg hk, if_neg (by exact hk), filterMap_cons]
        simp only [getElem?_append_right (le_refl _), Nat.sub_self, getElem?_cons_zero]
        exact congrArg _ hrest

theorem outputChunks_imageOf (source : ImageSource) (header : SparseHeader)
    (records : List ChunkRecord) :
    (imageOf source header records).outputChunks
      = dataChunks (layout header header.fileHeaderSize 0 records) :=
  filterMap_dataIndices records [] header.fileHeaderSize 0

theorem ChunksBetween.wellFormed {finish : ℕ}
    (hat : ChunksBetween bytes header offset records finish) :
    ∀ r ∈ records, r.WellFormed header.blockSize := by
  induction records generalizing offset with
  | nil => simp
  | cons r rs ih => exact forall_mem_cons.mpr ⟨hat.1.wellFormed, ih hat.2⟩

theorem length_expandRecords {blockSize : ℕ} (hwf : ∀ r ∈ records, r.WellFormed blockSize) :
    (expandRecords blockSize records).length = totalRecordBlocks records * blockSize := by
  induction records with
  | nil => simp
  | cons r rs ih =>
      obtain ⟨hr, hrs⟩ := forall_mem_cons.mp hwf
      rw [expandRecords_cons, length_append, hr.length_expand, ih hrs,
        totalRecordBlocks_cons, add_mul]

/-- The expansion of a file that follows the grammar has the declared size. -/
theorem SparseGrammar.length_expandRecords (g : SparseGrammar bytes records) :
    (expandRecords (parseHeader bytes).blockSize records).length
      = (parseHeader bytes).totalBlocks * (parseHeader bytes).blockSize := by
  rw [KairosBoot.length_expandRecords (chunksBetween_length_iff.mpr g.chunks).wellFormed, g.blocks]

/-- **Reading an accepted image** returns the requested window of its expansion. -/
theorem readAt_imageOf (h : source.Holds bytes) (g : SparseGrammar bytes records)
    (requestedOffset length : ℕ)
    (hoff : requestedOffset ≤ (parseHeader bytes).totalBlocks * (parseHeader bytes).blockSize)
    (hmax : requestedOffset + length ≤ uint64Max) :
    (imageOf source (parseHeader bytes) records).readAt requestedOffset length
      = .ok (slice (expandRecords (parseHeader bytes).blockSize records) requestedOffset length) := by
  obtain ⟨htiles, hread⟩ :=
    (chunksBetween_length_iff.mpr g.chunks).tiles_dataChunks g.headerBounds 0
  rw [← outputChunks_imageOf source] at htiles hread
  exact readAt_of_tiles h htiles hread g.length_expandRecords.symm hoff hmax

/-- The failures of `read_at` that say that the output index is broken. -/
def outputIndexFailures : List String :=
  ["validated sparse chunk index has an output gap",
    "validated sparse chunk index is inconsistent",
    "CRC32 chunk unexpectedly appeared in the output index"]

/-- What reading returns for an image with the given expansion: a range inside 64-bit offsets is
answered with its window, and nothing but a range that is refused beforehand fails. -/
structure ReadsExpansion (image : SparseImage) (expansion : Bytes) : Prop where
  outputSize_eq : image.outputSize = expansion.length
  window : ∀ offset length, offset ≤ image.outputSize → offset + length < 2 ^ 64 →
    ∃ filled, image.readAt offset length = .ok filled ∧
      filled.length = min length (image.outputSize - offset) ∧
      filled = slice expansion offset length
  failures : ∀ offset length e, image.readAt offset length = .error e →
    e.kind = .invalidArgument ∧ e.message ∉ outputIndexFailures

/-- Reading an image that `SparseImage::open` accepted returns its expansion. -/
theorem readAt_returns_expansion {source : ImageSource} {bytes : Bytes} {image : SparseImage}
    (h : source.Holds bytes) (hopen : openSparseImage source = .ok image) :
    ∃ records, SparseGrammar bytes records ∧
      ReadsExpansion image (expandRecords (parseHeader bytes).blockSize records) := by
  obtain ⟨records, g, rfl⟩ := (openSparseImage_eq_ok_iff h).mp hopen
  have hsize : (imageOf source (parseHeader bytes) records).outputSize
      = (expandRecords (parseHeader bytes).blockSize records).length := g.length_expandRecords.symm
  have hwindow : ∀ offset length, offset ≤ (imageOf source (parseHeader bytes) records).outputSize →
      offset + length ≤ uint64Max →
        (imageOf source (parseHeader bytes) records).readAt offset length
          = .ok (slice (expandRecords (parseHeader bytes).blockSize records) offset length) :=
    fun offset length hoff hmax => readAt_imageOf h g offset length hoff hmax
  refine ⟨records, g, hsize, fun offset length hoff hmax => ?_, fun offset length e he => ?_⟩
  · refine ⟨_, hwindow offset length hoff (Nat.le_sub_one_of_lt hmax), ?_, rfl⟩
    rw [slice, List.length_take, List.length_drop, hsize]
  · by_cases hoff : offset ≤ (imageOf source (parseHeader bytes) records).outputSize
    · by_cases hmax : offset + length ≤ uint64Max
      · rw [hwindow offset length hoff hmax] at he
        cases he
      · have hlimit : offset ≤ uint64Max := hoff.trans (g.headerBounds.mul_le g.headerBounds.total_lt)
        rw [SparseImage.readAt, failIf_bind_of_not (by omega),
          checkedAdd_of_gt hlimit (by omega)] at he
        cases he
        exact ⟨rfl, by simp [outputIndexFailures]⟩
    · rw [SparseImage.readAt, failIf_bind_of (by omega)] at he
      cases he
      exact ⟨rfl, by simp [outputIndexFailures]⟩

theorem sampleSparseFile_reads : ∃ image records,
    openSparseImage (.ofBytes sampleSparseFile (by decide +kernel)) = .ok image ∧
      SparseGrammar sampleSparseFile records ∧
      ReadsExpansion image (expandRecords (parseHeader sampleSparseFile).blockSize records) := by
  have hholds := ImageSource.holds_ofBytes sampleSparseFile (by decide +kernel)
  have hok : (openSparseImage (.ofBytes sampleSparseFile (by decide +kernel))).isOk = true := by
    decide +kernel
  cases h : openSparseImage (.ofBytes sampleSparseFile (by decide +kernel)) with
  | error e => rw [h] at hok; cases hok
  | ok image =>
      obtain ⟨records, hgrammar, hreads⟩ := readAt_returns_expansion hholds h
      exact ⟨image, records, rfl, hgrammar, hreads⟩

/-- A file of one unbacked chunk with the largest possible output. -/
def widestSparseFile : Bytes :=
  leBytes 4 kAndroidSparseMagic ++ leBytes 2 1 ++ leBytes 2 0 ++ leBytes 2 28 ++ leBytes 2 12 ++
    leBytes 4 0xfffffffc ++ leBytes 4 0xffffffff ++ leBytes 4 1 ++ leBytes 4 0 ++
    (leBytes 2 kSparseChunkDontCare ++ leBytes 2 0 ++ leBytes 4 0xffffffff ++ leBytes 4 12)

/-- A request from the end of the image is refused when its range leaves the 64-bit offsets,
although nothing is left to read. -/
theorem widestSparseFile_refused :
    (openSparseImage (.ofBytes widestSparseFile (by decide +kernel))).toOption.map (fun image =>
        (image.outputSize, (image.readAt image.outputSize (5 * 2 ^ 32)).isOk))
      = some (2 ^ 64 - 5 * 2 ^ 32 + 4, false) := by
  decide +kernel

/-! ### Covered blocks -/

/-- A block is covered by a raw or filled record, for a record list whose first block is
`start`. -/
def BacksFrom : ℕ → List ChunkRecord → ℕ → Prop
  | _, [], _ => False
  | start, r :: rs, block =>
      ((r.kind = .raw ∨ r.kind = .fill) ∧ start ≤ block ∧ block < start + r.blocks) ∨
        BacksFrom (start + r.blocks) rs block

/-- A block is covered by a raw or filled record of a file. -/
def Backs (records : List ChunkRecord) (block : ℕ) : Prop := BacksFrom 0 records block

theorem backsFrom_append {start : ℕ} {a b : List ChunkRecord} {block : ℕ} :
    BacksFrom start (a ++ b) block ↔
      BacksFrom start a block ∨ BacksFrom (start + totalRecordBlocks a) b block := by
  induction a generalizing start with
  | nil => simp [BacksFrom]
  | cons r rs ih =>
      rw [cons_append, BacksFrom, BacksFrom, ih, totalRecordBlocks_cons, or_assoc, add_assoc]

/-! ### Artifacts -/

theorem inspect_cases {source : ImageSource} (hok : inspect source = .ok artifact) :
    artifact = ofRaw source ∨
      ∃ image, openSparseImage source = .ok image ∧ artifact = ofSparse source image := by
  unfold inspect at hok
  split at hok
  · exact Or.inl (Except.ok.inj hok).symm
  · obtain ⟨magicBytes, -, hok⟩ := bind_eq_ok.mp hok
    split at hok
    · exact Or.inl (Except.ok.inj hok).symm
    · obtain ⟨image, hopen, hok⟩ := bind_eq_ok.mp hok
      exact Or.inr ⟨image, hopen, (Except.ok.inj hok).symm⟩

theorem inspect_transferSource {source : ImageSource}
    (hok : inspect source = .ok artifact) : artifact.transferSource = source := by
  rcases inspect_cases hok with rfl | ⟨parsed, -, rfl⟩ <;> rfl

variable (h : source.Holds bytes)
include h

/-- A source with the sparse magic is inspected by opening it. -/
theorem inspect_of_magic (hlen : 4 ≤ bytes.length)
    (hmagic : readU32 bytes 0 = kAndroidSparseMagic) :
    inspect source = (openSparseImage source).bind fun image => .ok (ofSparse source image) := by
  have hread : readU32 (slice bytes 0 4) 0 = kAndroidSparseMagic := by
    rw [readU32, getLE_slice bytes (by decide)]
    exact hmagic
  rw [inspect, if_neg (by rw [h.size_eq]; omega), readExact_of_le h (by omega),
    ok_bind, if_neg (not_not_intro hread)]
  rfl

/-- The expanded bytes of an artifact read from a source that holds `bytes`. -/
inductive ExpandsTo (source : ImageSource) (bytes : Bytes) :
    FlashArtifact → Bytes → Prop
  | raw : ExpandsTo source bytes (FlashArtifact.ofRaw source) bytes
  | sparse {records : List ChunkRecord} (g : SparseGrammar bytes records) :
      ExpandsTo source bytes
        (FlashArtifact.ofSparse source (imageOf source (parseHeader bytes) records))
        (expandRecords (parseHeader bytes).blockSize records)

theorem inspect_expandsTo (hok : inspect source = .ok artifact) :
    ∃ expanded, ExpandsTo source bytes artifact expanded := by
  rcases inspect_cases hok with rfl | ⟨image, hopen, rfl⟩
  · exact ⟨bytes, .raw⟩
  · obtain ⟨records, g, rfl⟩ := (openSparseImage_eq_ok_iff h).mp hopen
    exact ⟨_, .sparse g⟩

theorem ExpandsTo.length_eq {expanded : Bytes} (he : ExpandsTo source bytes artifact expanded) :
    artifact.metadata.expandedSize = expanded.length := by
  cases he with
  | raw => exact h.size_eq
  | sparse g => exact g.length_expandRecords.symm

theorem ExpandsTo.length_le {expanded : Bytes}
    (he : ExpandsTo source bytes artifact expanded) : expanded.length ≤ uint64Max := by
  cases he with
  | raw => exact h.length_le
  | sparse g =>
      obtain ⟨hblk, htot⟩ := parseHeader_bounds bytes
      rw [g.length_expandRecords]
      calc (parseHeader bytes).totalBlocks * (parseHeader bytes).blockSize
          ≤ (2 ^ 32 - 1) * (2 ^ 32 - 1) := Nat.mul_le_mul (by omega) (by omega)
        _ ≤ uint64Max := by decide

end KairosBoot
