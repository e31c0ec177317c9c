import KairosBoot.SparseExpansion

/-! # Writing sparse files

Every writer of the repository emits the same version 1 layout: a 28-byte header without an
image checksum and chunks with 12-byte headers.  `encodeFile blockSize totalBlocks records` is
that file; `grammar_encodeFile` says that it follows the grammar whenever its records are well
formed and their numbers fit their fields, so that the reader accepts it with exactly these
records (`openSparseImage_encodeFile`). -/

namespace KairosBoot

open ByteLib

/-- The 28-byte file header. -/
def encodeHeader (blockSize totalBlocks totalChunks : ℕ) : Bytes :=
  leBytes 4 kAndroidSparseMagic ++ (leBytes 2 kAndroidSparseMajorVersion ++ (leBytes 2 0 ++
    (leBytes 2 kSparseHeaderSize ++ (leBytes 2 kChunkHeaderSize ++ (leBytes 4 blockSize ++
      (leBytes 4 totalBlocks ++ (leBytes 4 totalChunks ++ leBytes 4 0)))))))

def encodeChunkHeader (chunkType blocks totalSize : ℕ) : Bytes :=
  leBytes 2 chunkType ++ (leBytes 2 0 ++ (leBytes 4 blocks ++ leBytes 4 totalSize))

def encodeRecord (r : ChunkRecord) : Bytes :=
  encodeChunkHeader (kindCode r.kind) r.blocks (kChunkHeaderSize + r.payload.length) ++ r.payload

def encodeFile (blockSize totalBlocks : ℕ) (records : List ChunkRecord) : Bytes :=
  encodeHeader blockSize totalBlocks records.length ++ records.flatMap encodeRecord

@[simp] theorem length_encodeHeader (blockSize totalBlocks totalChunks : ℕ) :
    (encodeHeader blockSize totalBlocks totalChunks).length = kSparseHeaderSize := by
  simp [encodeHeader, kSparseHeaderSize]

@[simp] theorem length_encodeChunkHeader (chunkType blocks totalSize : ℕ) :
    (encodeChunkHeader chunkType blocks totalSize).length = kChunkHeaderSize := by
  simp [encodeChunkHeader, kChunkHeaderSize]

@[simp] theorem length_encodeRecord (r : ChunkRecord) :
    (encodeRecord r).length = kChunkHeaderSize + r.payload.length := by
  simp [encodeRecord]

/-! ### Reading the fields back -/

def writtenHeader (blockSize totalBlocks totalChunks : ℕ) : SparseHeader where
  majorVersion := kAndroidSparseMajorVersion
  minorVersion := 0
  fileHeaderSize := kSparseHeaderSize
  chunkHeaderSize := kChunkHeaderSize
  blockSize := blockSize
  totalBlocks := totalBlocks
  totalChunks := totalChunks
  imageChecksum := 0#32

variable {records : List ChunkRecord} {totalBlocks : ℕ}

theorem parseHeader_encodeHeader {blockSize totalChunks : ℕ} (hbs : blockSize < 2 ^ 32)
    (htb : totalBlocks < 2 ^ 32) (htc : totalChunks < 2 ^ 32) (rest : Bytes) :
    readU32 (encodeHeader blockSize totalBlocks totalChunks ++ rest) 0 = kAndroidSparseMagic ∧
      parseHeader (encodeHeader blockSize totalBlocks totalChunks ++ rest)
        = writtenHeader blockSize totalBlocks totalChunks := by
  have h32 : (256 : ℕ) ^ 4 = 2 ^ 32 := by norm_num
  have hmagic : kAndroidSparseMagic < 256 ^ 4 := by decide
  have hmajor : kAndroidSparseMajorVersion < 256 ^ 2 := by decide
  have hfile : kSparseHeaderSize < 256 ^ 2 := by decide
  have hchunk : kChunkHeaderSize < 256 ^ 2 := by decide
  simp only [parseHeader, writtenHeader, readU16, readU32, encodeHeader, List.append_assoc]
  simp (disch := first | omega | norm_num) only [getLE_leBytes_skip, getLE_leBytes_head,
    Nat.reduceSub, Nat.sub_self, and_self]

theorem chunkHeader_encodeRecord {r : ChunkRecord} (hblks : r.blocks < 2 ^ 32)
    (hsize : kChunkHeaderSize + r.payload.length < 2 ^ 32) (rest : Bytes) :
    readU16 (encodeRecord r ++ rest) 0 = kindCode r.kind ∧
      readU32 (encodeRecord r ++ rest) 4 = r.blocks ∧
      readU32 (encodeRecord r ++ rest) 8 = kChunkHeaderSize + r.payload.length := by
  have h32 : (256 : ℕ) ^ 4 = 2 ^ 32 := by norm_num
  have hkind : kindCode r.kind < 256 ^ 2 := by cases r.kind <;> decide
  simp only [readU16, readU32, encodeRecord, encodeChunkHeader, List.append_assoc]
  simp (disch := first | omega | norm_num) only [getLE_leBytes_skip, getLE_leBytes_head,
    Nat.reduceSub, Nat.sub_self, and_self]

/-! ### Written files follow the grammar -/

/-- A well-formed data record whose numbers fit the chunk header. -/
structure Writable (blockSize : ℕ) (r : ChunkRecord) : Prop where
  wellFormed : r.WellFormed blockSize
  kind_ne : r.kind ≠ .crc32
  blocks_lt : r.blocks < 2 ^ 32
  size_lt : kChunkHeaderSize + r.payload.length < 2 ^ 32

theorem chunkAt_encodeRecord {header : SparseHeader}
    (hhdr : header.chunkHeaderSize = kChunkHeaderSize) {r : ChunkRecord}
    (hr : Writable header.blockSize r) (before rest : Bytes) :
    ChunkAt (before ++ (encodeRecord r ++ rest)) header before.length r := by
  obtain ⟨htype, hblks, hsize⟩ := chunkHeader_encodeRecord hr.blocks_lt hr.size_lt rest
  have hmiddle : before ++ (encodeRecord r ++ rest)
      = (before ++ encodeChunkHeader (kindCode r.kind) r.blocks
          (kChunkHeaderSize + r.payload.length)) ++ (r.payload ++ rest) := by
    simp [encodeRecord]
  refine ⟨?_, ?_, ?_, ?_, ?_, hr.wellFormed⟩
  · exact (getLE_append_right rfl 0 2).trans htype
  · exact (getLE_append_right rfl 4 4).trans hblks
  · rw [hhdr]
    exact (getLE_append_right rfl 8 4).trans hsize
  · rw [hhdr]
    simp only [List.length_append, length_encodeRecord]
    omega
  · rw [hhdr, hmiddle]
    exact (slice_middle (by simp) rfl).symm

theorem chunksAt_encodeRecords {header : SparseHeader}
    (hhdr : header.chunkHeaderSize = kChunkHeaderSize)
    (hr : ∀ r ∈ records, Writable header.blockSize r) (before : Bytes) :
    ChunksAt (before ++ records.flatMap encodeRecord) header before.length records := by
  induction records generalizing before with
  | nil => simp [ChunksAt]
  | cons r rs ih =>
      refine ⟨chunkAt_encodeRecord hhdr (hr r (by simp)) before _, ?_⟩
      have hrest := ih (fun r' hm => hr r' (by simp [hm])) (before ++ encodeRecord r)
      rw [List.append_assoc, List.length_append, length_encodeRecord, ← add_assoc] at hrest
      rw [hhdr]
      exact hrest

theorem grammar_encodeFile {blockSize : ℕ} (hbs : blockSize ≠ 0) (hmod : blockSize % 4 = 0)
    (hlt : blockSize < 2 ^ 32) (htot : totalBlocks < 2 ^ 32)
    (hcnt : records.length ≤ kMaxSparseChunks) (hr : ∀ r ∈ records, Writable blockSize r)
    (hsum : totalRecordBlocks records = totalBlocks) :
    SparseGrammar (encodeFile blockSize totalBlocks records) records ∧
      parseHeader (encodeFile blockSize totalBlocks records)
        = writtenHeader blockSize totalBlocks records.length := by
  have hchks : records.length < 2 ^ 32 := lt_of_le_of_lt hcnt (by decide)
  obtain ⟨hmagic, hhdr⟩ := parseHeader_encodeHeader hlt htot hchks (records.flatMap encodeRecord)
  have hchunksAt : ChunksAt (encodeFile blockSize totalBlocks records)
      (writtenHeader blockSize totalBlocks records.length) kSparseHeaderSize records := by
    have hrecs : ∀ r ∈ records,
        Writable (writtenHeader blockSize totalBlocks records.length).blockSize r := hr
    have := chunksAt_encodeRecords rfl hrecs (encodeHeader blockSize totalBlocks records.length)
    rwa [length_encodeHeader] at this
  have hparse : parseHeader (encodeFile blockSize totalBlocks records)
      = writtenHeader blockSize totalBlocks records.length := hhdr
  refine ⟨?_, hparse⟩
  constructor
  case header_inside => simp [encodeFile]
  case magic => exact hmagic
  all_goals rw [hparse]
  case major => rfl
  case file_header => exact le_rfl
  case chunk_header => exact le_rfl
  case block_ne_zero => exact hbs
  case block_mod_four => exact hmod
  case chunk_limit => exact hcnt
  case count => rfl
  case chunks => exact hchunksAt
  case blocks => exact hsum
  case checksums =>
    intro before r after hsplit hk
    exact absurd hk (hr r (by rw [hsplit]; simp)).kind_ne
  case image_checksum => exact fun hne => absurd rfl hne

/-- The reader accepts a written file and finds its records. -/
theorem openSparseImage_encodeFile {source : ImageSource} {blockSize : ℕ}
    (h : source.Holds (encodeFile blockSize totalBlocks records)) (hbs : blockSize ≠ 0)
    (hmod : blockSize % 4 = 0) (hlt : blockSize < 2 ^ 32) (htot : totalBlocks < 2 ^ 32)
    (hcnt : records.length ≤ kMaxSparseChunks) (hr : ∀ r ∈ records, Writable blockSize r)
    (hsum : totalRecordBlocks records = totalBlocks) :
    openSparseImage source
      = .ok (imageOf source (writtenHeader blockSize totalBlocks records.length) records) := by
  obtain ⟨g, hparse⟩ := grammar_encodeFile hbs hmod hlt htot hcnt hr hsum
  exact (openSparseImage_eq_ok_iff h).mpr ⟨records, g, by rw [hparse]⟩

end KairosBoot
