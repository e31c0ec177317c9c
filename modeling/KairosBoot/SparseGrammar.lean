import KairosBoot.SparseImage

/-! # The sparse file grammar

What a sparse file is, said without the reader: a header, then as many chunk records as the
header declares, one after the other up to the end of the file, and checksums over the data the
records expand to.

* `ChunkRecord` is one chunk with the payload it stands with in the file; `ChunkAt` and
  `ChunksAt` place records in the bytes.
* `SparseGrammar bytes records` is the whole grammar.
* `imageOf` is the parsed image of a file that follows it.

`SparseAccept.lean` proves that the reader accepts exactly these files and returns exactly that
image. -/

namespace KairosBoot

open ByteLib Guards

/-! ### Records -/

/-- A chunk as it stands in the file, without its header. -/
structure ChunkRecord where
  kind : SparseChunkKind
  blocks : ℕ
  payload : Bytes
  deriving DecidableEq, Repr

/-- The chunk type number of a kind. -/
def kindCode : SparseChunkKind → ℕ
  | .raw => kSparseChunkRaw
  | .fill => kSparseChunkFill
  | .dontCare => kSparseChunkDontCare
  | .crc32 => kSparseChunkCrc32

theorem chunkKind_eq_some_iff {chunkType : ℕ} {kind : SparseChunkKind} :
    chunkKind chunkType = some kind ↔ chunkType = kindCode kind := by
  constructor
  · intro h
    unfold chunkKind at h
    split_ifs at h <;> cases h <;> assumption
  · rintro rfl
    cases kind <;> decide

namespace ChunkRecord

/-- The payload and block count each kind of chunk must have. -/
def WellFormed (blockSize : ℕ) (r : ChunkRecord) : Prop :=
  match r.kind with
  | .raw => 1 ≤ r.blocks ∧ r.payload.length = r.blocks * blockSize
  | .fill => 1 ≤ r.blocks ∧ r.payload.length = 4
  | .dontCare => 1 ≤ r.blocks ∧ r.payload.length = 0
  | .crc32 => r.blocks = 0 ∧ r.payload.length = 4

/-- The data a chunk stands for; unbacked blocks are zeros. -/
def expand (blockSize : ℕ) (r : ChunkRecord) : Bytes :=
  match r.kind with
  | .raw => r.payload
  | .fill => cyclic 0 r.payload (r.blocks * blockSize)
  | .dontCare => List.replicate (r.blocks * blockSize) 0
  | .crc32 => []

/-- The word in the payload of a fill or checksum chunk. -/
def word (r : ChunkRecord) : BitVec 32 := BitVec.ofNat 32 (leNat r.payload)

/-- The table entry of a chunk at the given positions in the file and in the expansion. -/
def toChunk (header : SparseHeader) (offset outputOffset : ℕ) (r : ChunkRecord) : SparseChunk where
  kind := r.kind
  blockCount := r.blocks
  inputOffset := offset + header.chunkHeaderSize
  outputOffset := outputOffset
  outputSize := r.blocks * header.blockSize
  fillValue := if r.kind = .fill then some r.word else none
  checksum := if r.kind = .crc32 then some r.word else none

theorem WellFormed.length_expand {blockSize : ℕ} {r : ChunkRecord} (h : r.WellFormed blockSize) :
    (r.expand blockSize).length = r.blocks * blockSize := by
  unfold WellFormed at h
  unfold expand
  cases hk : r.kind <;> simp only [hk] at h ⊢
  · exact h.2
  · simp
  · simp
  · simp [h.1]

theorem WellFormed.blocks_pos {blockSize : ℕ} {r : ChunkRecord} (h : r.WellFormed blockSize)
    (hk : r.kind ≠ .crc32) : 1 ≤ r.blocks := by
  unfold WellFormed at h
  cases hr : r.kind <;> simp only [hr] at h
  · exact h.1
  · exact h.1
  · exact h.1
  · exact absurd hr hk

end ChunkRecord

/-- The data of a record list. -/
def expandRecords (blockSize : ℕ) (records : List ChunkRecord) : Bytes :=
  records.flatMap (·.expand blockSize)

/-- The number of blocks a record list produces. -/
def totalRecordBlocks (records : List ChunkRecord) : ℕ := (records.map (·.blocks)).sum

@[simp] theorem totalRecordBlocks_nil : totalRecordBlocks [] = 0 := rfl

@[simp] theorem totalRecordBlocks_cons (r : ChunkRecord) (rs : List ChunkRecord) :
    totalRecordBlocks (r :: rs) = r.blocks + totalRecordBlocks rs := rfl

theorem totalRecordBlocks_append (a b : List ChunkRecord) :
    totalRecordBlocks (a ++ b) = totalRecordBlocks a + totalRecordBlocks b := by
  simp [totalRecordBlocks]

@[simp] theorem expandRecords_nil (blockSize : ℕ) : expandRecords blockSize [] = [] := rfl

@[simp] theorem expandRecords_cons (blockSize : ℕ) (r : ChunkRecord) (rs : List ChunkRecord) :
    expandRecords blockSize (r :: rs) = r.expand blockSize ++ expandRecords blockSize rs := rfl

theorem expandRecords_append (blockSize : ℕ) (a b : List ChunkRecord) :
    expandRecords blockSize (a ++ b) = expandRecords blockSize a ++ expandRecords blockSize b :=
  List.flatMap_append

/-! ### Records in a file -/

/-- The record `r` stands at `offset`: its header fields, its payload and its extent. -/
structure ChunkAt (bytes : Bytes) (header : SparseHeader) (offset : ℕ) (r : ChunkRecord) :
    Prop where
  type_eq : readU16 bytes offset = kindCode r.kind
  blocks_eq : readU32 bytes (offset + 4) = r.blocks
  size_eq : readU32 bytes (offset + 8) = header.chunkHeaderSize + r.payload.length
  inside : offset + header.chunkHeaderSize + r.payload.length ≤ bytes.length
  payload_eq : r.payload = slice bytes (offset + header.chunkHeaderSize) r.payload.length
  wellFormed : r.WellFormed header.blockSize

/-- The records stand one after the other from `offset` to the end of the file. -/
def ChunksAt (bytes : Bytes) (header : SparseHeader) : ℕ → List ChunkRecord → Prop
  | offset, [] => offset = bytes.length
  | offset, r :: rs => ChunkAt bytes header offset r ∧
      ChunksAt bytes header (offset + header.chunkHeaderSize + r.payload.length) rs

/-- Every checksum chunk holds the CRC-32 of the data before it. -/
def ChecksumsHold (blockSize : ℕ) (records : List ChunkRecord) : Prop :=
  ∀ before r after, records = before ++ r :: after → r.kind = .crc32 →
    r.word = crc32 (expandRecords blockSize before)

/-- The Android sparse v1 grammar. -/
structure SparseGrammar (bytes : Bytes) (records : List ChunkRecord) : Prop where
  header_inside : kSparseHeaderSize ≤ bytes.length
  magic : readU32 bytes 0 = kAndroidSparseMagic
  major : (parseHeader bytes).majorVersion = kAndroidSparseMajorVersion
  file_header : kSparseHeaderSize ≤ (parseHeader bytes).fileHeaderSize
  chunk_header : kChunkHeaderSize ≤ (parseHeader bytes).chunkHeaderSize
  block_ne_zero : (parseHeader bytes).blockSize ≠ 0
  block_mod_four : (parseHeader bytes).blockSize % 4 = 0
  chunk_limit : (parseHeader bytes).totalChunks ≤ kMaxSparseChunks
  count : records.length = (parseHeader bytes).totalChunks
  chunks : ChunksAt bytes (parseHeader bytes) (parseHeader bytes).fileHeaderSize records
  blocks : totalRecordBlocks records = (parseHeader bytes).totalBlocks
  checksums : ChecksumsHold (parseHeader bytes).blockSize records
  image_checksum : (parseHeader bytes).imageChecksum ≠ 0#32 →
    (parseHeader bytes).imageChecksum = crc32 (expandRecords (parseHeader bytes).blockSize records)

/-! ### The parsed image -/

/-- The chunk table of a record list that starts at `offset` in the file and at `output` in the
expansion. -/
def layout (header : SparseHeader) : ℕ → ℕ → List ChunkRecord → List SparseChunk
  | _, _, [] => []
  | offset, output, r :: rs => r.toChunk header offset output ::
      layout header (offset + header.chunkHeaderSize + r.payload.length)
        (output + r.blocks * header.blockSize) rs

/-- The positions of the data-producing records, counted from `index`. -/
def dataIndices : ℕ → List ChunkRecord → List ℕ
  | _, [] => []
  | index, r :: rs =>
      if r.kind = .crc32 then dataIndices (index + 1) rs else index :: dataIndices (index + 1) rs

/-- The image parsed from a file that consists of the given records. -/
def imageOf (source : ImageSource) (header : SparseHeader) (records : List ChunkRecord) :
    SparseImage where
  source := source
  header := header
  outputSize := header.totalBlocks * header.blockSize
  chunks := layout header header.fileHeaderSize 0 records
  outputChunkIndices := dataIndices 0 records

/-- The chunk loop's state after one more record. -/
def ChunkTable.push (header : SparseHeader) (table : ChunkTable) (r : ChunkRecord) :
    ChunkTable where
  inputOffset := table.inputOffset + header.chunkHeaderSize + r.payload.length
  outputOffset := table.outputOffset + r.blocks * header.blockSize
  producedBlocks := table.producedBlocks + r.blocks
  chunks := table.chunks ++ [r.toChunk header table.inputOffset table.outputOffset]
  outputChunkIndices := table.outputChunkIndices ++
    (if r.kind = .crc32 then [] else [table.chunks.length])

/-- The chunk loop's state after a run over a record list. -/
theorem foldl_push (header : SparseHeader) (records : List ChunkRecord) (table : ChunkTable) :
    (records.foldl (ChunkTable.push header) table).chunks
        = table.chunks ++ layout header table.inputOffset table.outputOffset records ∧
      (records.foldl (ChunkTable.push header) table).outputChunkIndices
        = table.outputChunkIndices ++ dataIndices table.chunks.length records ∧
      (records.foldl (ChunkTable.push header) table).producedBlocks
        = table.producedBlocks + totalRecordBlocks records ∧
      (records.foldl (ChunkTable.push header) table).outputOffset
        = table.outputOffset + totalRecordBlocks records * header.blockSize := by
  induction records generalizing table with
  | nil => simp [layout, dataIndices]
  | cons r rs ih =>
      obtain ⟨hc, hi, hp, ho⟩ := ih (table.push header r)
      refine ⟨?_, ?_, ?_, ?_⟩
      · rw [List.foldl_cons, hc]
        simp [ChunkTable.push, layout]
      · rw [List.foldl_cons, hi]
        by_cases hk : r.kind = .crc32 <;> simp [ChunkTable.push, dataIndices, hk]
      · rw [List.foldl_cons, hp, totalRecordBlocks_cons]
        exact add_assoc _ _ _
      · rw [List.foldl_cons, ho, totalRecordBlocks_cons]
        simp only [ChunkTable.push]
        ring

end KairosBoot
