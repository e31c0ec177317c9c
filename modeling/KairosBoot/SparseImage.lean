import KairosBoot.Crc32

/-! # The sparse image reader

`SparseImage::open`, `SparseImage::read_at` and `FlashArtifact::inspect` of `sparse_image.cpp`.
`openSparseImage` reads the 28-byte file header, walks the chunk table with one `readChunk` per
declared chunk and then verifies the declared checksums; every rejection carries the kind, the
offset and the text of the source.  The checks `max_size` of the chunk vector can fail are
subsumed by `kMaxSparseChunks` and left out, as is the null source. -/

namespace KairosBoot

open ByteLib Guards

/-! ### Constants and data -/

def kAndroidSparseMagic : ℕ := 0xED26FF3A
def kAndroidSparseMajorVersion : ℕ := 1
def kSparseChunkRaw : ℕ := 0xCAC1
def kSparseChunkFill : ℕ := 0xCAC2
def kSparseChunkDontCare : ℕ := 0xCAC3
def kSparseChunkCrc32 : ℕ := 0xCAC4
def kMaxSparseChunks : ℕ := 1000000
def kSparseHeaderSize : ℕ := 28
def kChunkHeaderSize : ℕ := 12

inductive SparseChunkKind where
  | raw | fill | dontCare | crc32
  deriving DecidableEq, Repr

structure SparseChunk where
  kind : SparseChunkKind
  blockCount : ℕ
  inputOffset : ℕ
  outputOffset : ℕ
  outputSize : ℕ
  fillValue : Option (BitVec 32)
  checksum : Option (BitVec 32)
  deriving DecidableEq, Repr

structure SparseHeader where
  majorVersion : ℕ
  minorVersion : ℕ
  fileHeaderSize : ℕ
  chunkHeaderSize : ℕ
  blockSize : ℕ
  totalBlocks : ℕ
  totalChunks : ℕ
  imageChecksum : BitVec 32
  deriving DecidableEq, Repr

structure SparseImage where
  source : ImageSource
  header : SparseHeader
  outputSize : ℕ
  chunks : List SparseChunk
  outputChunkIndices : List ℕ

/-! ### Checksums -/

/-- `fill_pattern`. -/
def fillPattern (value : BitVec 32) : Bytes := leBytes 4 value.toNat

/-- One round of the checksum loop: the running checksum after `chunk`. -/
def verifyChunk (source : ImageSource) (sourceSize : ℕ) (crc : BitVec 32) (chunk : SparseChunk) :
    Except SparseError (BitVec 32) :=
  match chunk.kind with
  | .raw =>
      updateCrcFromSource source sourceSize chunk.outputSize chunk.inputOffset chunk.outputSize crc
  | .fill =>
      .ok (updateCrcRepeated crc (fillPattern (chunk.fillValue.getD 0#32)) chunk.outputSize)
  | .dontCare => .ok (updateCrcRepeated crc (List.replicate 4 0) chunk.outputSize)
  | .crc32 => do
      failIf (chunk.checksum ≠ some crc)
        ⟨.malformed, chunk.inputOffset, "CRC32 chunk does not match the expanded data preceding it"⟩
      .ok crc

/-- `verify_checksums`. -/
def verifyChecksums (source : ImageSource) (sourceSize : ℕ) (header : SparseHeader)
    (chunks : List SparseChunk) : Except SparseError Unit :=
  if (∀ chunk ∈ chunks, chunk.kind ≠ .crc32) ∧ header.imageChecksum = 0#32 then .ok ()
  else do
    let crc ← chunks.foldlM (verifyChunk source sourceSize) 0#32
    failIf (header.imageChecksum ≠ 0#32 ∧ header.imageChecksum ≠ crc)
      ⟨.malformed, 24, "sparse header checksum does not match the expanded image"⟩

/-! ### The file header -/

def parseHeader (raw : Bytes) : SparseHeader where
  majorVersion := readU16 raw 4
  minorVersion := readU16 raw 6
  fileHeaderSize := readU16 raw 8
  chunkHeaderSize := readU16 raw 10
  blockSize := readU32 raw 12
  totalBlocks := readU32 raw 16
  totalChunks := readU32 raw 20
  imageChecksum := BitVec.ofNat 32 (readU32 raw 24)

/-- The checks between the header read and the chunk loop; the result is the declared output
size. -/
def validateHeader (sourceSize : ℕ) (header : SparseHeader) : Except SparseError ℕ := do
  failIf (header.majorVersion ≠ kAndroidSparseMajorVersion)
    ⟨.unsupported, 4, "unsupported Android sparse major version"⟩
  failIf (header.fileHeaderSize < kSparseHeaderSize ∨ header.chunkHeaderSize < kChunkHeaderSize)
    ⟨.malformed, 8, "sparse file or chunk header is smaller than the version 1 header"⟩
  failIf (header.blockSize = 0 ∨ header.blockSize % 4 ≠ 0)
    ⟨.malformed, 12, "sparse block size must be a non-zero multiple of four"⟩
  failIf (sourceSize < header.fileHeaderSize)
    ⟨.truncated, kSparseHeaderSize, "sparse file header extension is truncated"⟩
  failIf (kMaxSparseChunks < header.totalChunks)
    ⟨.unsupported, 20, "declared sparse chunk count exceeds the metadata safety limit"⟩
  let declaredOutputSize ← orFail (checkedMultiply header.totalBlocks header.blockSize)
    ⟨.malformed, 16, "declared sparse output size overflows 64 bits"⟩
  let minimumChunkBytes ← orFail (checkedMultiply header.totalChunks header.chunkHeaderSize)
    ⟨.malformed, 20, "minimum sparse chunk table size overflows 64 bits"⟩
  failIf (sourceSize - header.fileHeaderSize < minimumChunkBytes)
    ⟨.truncated, header.fileHeaderSize,
      "sparse input cannot contain the declared number of chunk headers"⟩
  .ok declaredOutputSize

/-! ### The chunk table -/

/-- The local variables of the chunk loop. -/
structure ChunkTable where
  inputOffset : ℕ
  outputOffset : ℕ
  producedBlocks : ℕ
  chunks : List SparseChunk
  outputChunkIndices : List ℕ
  deriving DecidableEq, Repr

/-- The switch on the chunk type; `none` is its default branch. -/
def chunkKind (chunkType : ℕ) : Option SparseChunkKind :=
  if chunkType = kSparseChunkRaw then some .raw
  else if chunkType = kSparseChunkFill then some .fill
  else if chunkType = kSparseChunkDontCare then some .dontCare
  else if chunkType = kSparseChunkCrc32 then some .crc32
  else none

/-- The payload check of a data-producing chunk; the result is its fill value. -/
def readPayload (source : ImageSource) (sourceSize inputOffset : ℕ) (kind : SparseChunkKind)
    (payloadOffset payloadSize chunkOutputSize : ℕ) : Except SparseError (Option (BitVec 32)) :=
  match kind with
  | .raw => do
      failIf (payloadSize ≠ chunkOutputSize) ⟨.malformed, inputOffset + 8,
        "RAW chunk payload size does not match its output blocks"⟩
      .ok none
  | .fill => do
      failIf (payloadSize ≠ 4) ⟨.malformed, inputOffset + 8,
        "FILL chunk must contain exactly four payload bytes"⟩
      let fillBytes ← readExact source sourceSize payloadOffset 4
      .ok (some (BitVec.ofNat 32 (readU32 fillBytes 0)))
  | .dontCare => do
      failIf (payloadSize ≠ 0) ⟨.malformed, inputOffset + 8,
        "DONT_CARE chunk cannot contain a payload"⟩
      .ok none
  | .crc32 => .ok none

/-- The branch of the chunk loop for a CRC32 chunk. -/
def pushChecksumChunk (source : ImageSource) (sourceSize chunkEnd payloadOffset payloadSize
    chunkBlocks chunkOutputSize : ℕ) (table : ChunkTable) : Except SparseError ChunkTable := do
  failIf (chunkBlocks ≠ 0 ∨ payloadSize ≠ 4) ⟨.malformed, table.inputOffset,
    "CRC32 chunk must contain zero output blocks and four payload bytes"⟩
  let crcBytes ← readExact source sourceSize payloadOffset 4
  .ok { table with
    inputOffset := chunkEnd
    chunks := table.chunks ++ [{
      kind := .crc32
      blockCount := chunkBlocks
      inputOffset := payloadOffset
      outputOffset := table.outputOffset - chunkOutputSize
      outputSize := chunkOutputSize
      fillValue := none
      checksum := some (BitVec.ofNat 32 (readU32 crcBytes 0)) }] }

/-- The branch of the chunk loop for a data-producing chunk. -/
def pushDataChunk (source : ImageSource) (sourceSize : ℕ) (header : SparseHeader)
    (declaredOutputSize : ℕ) (kind : SparseChunkKind) (chunkEnd payloadOffset payloadSize
    chunkBlocks chunkOutputSize : ℕ) (table : ChunkTable) : Except SparseError ChunkTable := do
  failIf (chunkBlocks = 0) ⟨.malformed, table.inputOffset + 4,
    "data-producing sparse chunk contains zero output blocks"⟩
  let outputEnd ← orFail (checkedAdd table.outputOffset chunkOutputSize)
    ⟨.malformed, table.inputOffset + 4, "aggregate sparse output size overflows 64 bits"⟩
  let nextProducedBlocks ← orFail (checkedAdd table.producedBlocks chunkBlocks)
    ⟨.malformed, table.inputOffset + 4, "sparse chunks produce more blocks than declared"⟩
  failIf (header.totalBlocks < nextProducedBlocks ∨ declaredOutputSize < outputEnd)
    ⟨.malformed, table.inputOffset + 4, "sparse chunks produce more blocks than declared"⟩
  let fillValue ← readPayload source sourceSize table.inputOffset kind payloadOffset payloadSize
    chunkOutputSize
  .ok {
    inputOffset := chunkEnd
    outputOffset := outputEnd
    producedBlocks := nextProducedBlocks
    chunks := table.chunks ++ [{
      kind := kind
      blockCount := chunkBlocks
      inputOffset := payloadOffset
      outputOffset := outputEnd - chunkOutputSize
      outputSize := chunkOutputSize
      fillValue := fillValue
      checksum := none }]
    outputChunkIndices := table.outputChunkIndices ++ [table.chunks.length] }

/-- One round of the chunk loop. -/
def readChunk (source : ImageSource) (sourceSize : ℕ) (header : SparseHeader)
    (declaredOutputSize : ℕ) (table : ChunkTable) : Except SparseError ChunkTable := do
  let rawChunkHeader ← readExact source sourceSize table.inputOffset kChunkHeaderSize
  let chunkType := readU16 rawChunkHeader 0
  let chunkBlocks := readU32 rawChunkHeader 4
  let chunkTotalSize := readU32 rawChunkHeader 8
  failIf (chunkTotalSize < header.chunkHeaderSize) ⟨.malformed, table.inputOffset + 8,
    "sparse chunk total size is smaller than its chunk header"⟩
  let chunkEnd ← orFail (checkedAdd table.inputOffset chunkTotalSize)
    ⟨.malformed, table.inputOffset, "sparse chunk end offset overflows"⟩
  failIf (sourceSize < chunkEnd)
    ⟨.truncated, table.inputOffset, "sparse chunk payload is truncated"⟩
  let payloadOffset ← orFail (checkedAdd table.inputOffset header.chunkHeaderSize)
    ⟨.malformed, table.inputOffset, "sparse chunk payload offset overflows"⟩
  let payloadSize := chunkTotalSize - header.chunkHeaderSize
  let kind ← orFail (chunkKind chunkType)
    ⟨.unsupported, table.inputOffset, "unsupported Android sparse chunk type"⟩
  let chunkOutputSize ← orFail (checkedMultiply chunkBlocks header.blockSize)
    ⟨.malformed, table.inputOffset + 4, "sparse chunk output size overflows 64 bits"⟩
  if kind = .crc32 then
    pushChecksumChunk source sourceSize chunkEnd payloadOffset payloadSize chunkBlocks
      chunkOutputSize table
  else
    pushDataChunk source sourceSize header declaredOutputSize kind chunkEnd payloadOffset
      payloadSize chunkBlocks chunkOutputSize table

/-- The chunk loop, for the given number of remaining chunks. -/
def readChunks (source : ImageSource) (sourceSize : ℕ) (header : SparseHeader)
    (declaredOutputSize : ℕ) : ℕ → ChunkTable → Except SparseError ChunkTable
  | 0, table => .ok table
  | remaining + 1, table => do
      let table ← readChunk source sourceSize header declaredOutputSize table
      readChunks source sourceSize header declaredOutputSize remaining table

/-- The state in which the chunk loop starts. -/
def ChunkTable.start (header : SparseHeader) : ChunkTable where
  inputOffset := header.fileHeaderSize
  outputOffset := 0
  producedBlocks := 0
  chunks := []
  outputChunkIndices := []

/-- `SparseImage::open`. -/
def openSparseImage (source : ImageSource) : Except SparseError SparseImage := do
  let rawHeader ← readExact source source.size 0 kSparseHeaderSize
  failIf (readU32 rawHeader 0 ≠ kAndroidSparseMagic)
    ⟨.malformed, 0, "input does not have the Android sparse magic"⟩
  let header := parseHeader rawHeader
  let declaredOutputSize ← validateHeader source.size header
  let table ← readChunks source source.size header declaredOutputSize header.totalChunks
    (ChunkTable.start header)
  failIf (table.inputOffset ≠ source.size) ⟨.malformed, table.inputOffset,
    "sparse input contains trailing bytes after the declared chunks"⟩
  failIf (table.producedBlocks ≠ header.totalBlocks ∨ table.outputOffset ≠ declaredOutputSize)
    ⟨.malformed, table.inputOffset, "sparse chunks do not produce the declared total block count"⟩
  verifyChecksums source source.size header table.chunks
  .ok ⟨source, header, declaredOutputSize, table.chunks, table.outputChunkIndices⟩

/-! ### Reading the expanded image -/

/-- The bytes one round of the copy loop of `read_at` produces from `chunk`. -/
def readFromChunk (source : ImageSource) (currentOffset : ℕ) (chunk : SparseChunk)
    (withinChunk amount : ℕ) : Except SparseError Bytes :=
  match chunk.kind with
  | .raw => do
      let sourceOffset ← orFail (checkedAdd chunk.inputOffset withinChunk)
        ⟨.malformed, chunk.inputOffset, "RAW chunk read offset overflows 64-bit space"⟩
      readExact source source.size sourceOffset amount
  | .fill =>
      let pattern := fillPattern (chunk.fillValue.getD 0#32)
      .ok ((List.range amount).map fun index =>
        pattern.getD ((withinChunk + index) % pattern.length) 0)
  | .dontCare => .ok (List.replicate amount 0)
  | .crc32 =>
      .error ⟨.malformed, currentOffset, "CRC32 chunk unexpectedly appeared in the output index"⟩

/-- The copy loop of `read_at`.  The chunk position only moves forward, by one for each chunk
that is read to its end, so the recursion is on the output chunks from the position on; `done`
holds the bytes written. -/
def readAtLoop (source : ImageSource) (requestedOffset targetSize : ℕ) :
    List SparseChunk → Bytes → Except SparseError Bytes
  | [], done =>
      if done.length < targetSize then
        .error ⟨.malformed, requestedOffset + done.length,
          "validated sparse chunk index has an output gap"⟩
      else .ok done
  | chunk :: rest, done =>
      if done.length < targetSize then do
        let currentOffset := requestedOffset + done.length
        failIf (currentOffset < chunk.outputOffset ∨
            chunk.outputOffset + chunk.outputSize ≤ currentOffset)
          ⟨.malformed, currentOffset, "validated sparse chunk index is inconsistent"⟩
        let withinChunk := currentOffset - chunk.outputOffset
        let chunkAvailable := chunk.outputSize - withinChunk
        let amount := min chunkAvailable (targetSize - done.length)
        let output ← readFromChunk source currentOffset chunk withinChunk amount
        if withinChunk + amount = chunk.outputSize then
          readAtLoop source requestedOffset targetSize rest (done ++ output)
        else .ok (done ++ output)
      else .ok done

/-- The chunks the output index lists. -/
def SparseImage.outputChunks (image : SparseImage) : List SparseChunk :=
  image.outputChunkIndices.filterMap fun index => image.chunks[index]?

/-- `SparseImage::read_at` for a destination of `length` bytes.  `std::lower_bound` finds the
first output chunk that ends after the requested offset. -/
def SparseImage.readAt (image : SparseImage) (requestedOffset length : ℕ) :
    Except SparseError Bytes := do
  failIf (image.outputSize < requestedOffset)
    ⟨.invalidArgument, requestedOffset, "sparse output read starts beyond end of image"⟩
  let _ ← orFail (checkedAdd requestedOffset length)
    ⟨.invalidArgument, requestedOffset, "sparse output read range overflows 64-bit offset space"⟩
  let targetSize := min (image.outputSize - requestedOffset) length
  if targetSize = 0 then .ok []
  else
    readAtLoop image.source requestedOffset targetSize
      (image.outputChunks.dropWhile fun chunk =>
        decide (chunk.outputOffset + chunk.outputSize ≤ requestedOffset)) []

/-! ### Flash artifacts -/

inductive FlashArtifactKind where
  | raw | androidSparse
  deriving DecidableEq, Repr

structure FlashArtifactMetadata where
  kind : FlashArtifactKind
  transferSize : ℕ
  expandedSize : ℕ
  sparseHeader : Option SparseHeader
  deriving DecidableEq, Repr

structure FlashArtifact where
  transferSource : ImageSource
  metadata : FlashArtifactMetadata
  sparseImage : Option SparseImage

/-- The artifact of a source that is sent to the device as it is. -/
def FlashArtifact.ofRaw (source : ImageSource) : FlashArtifact where
  transferSource := source
  metadata := ⟨.raw, source.size, source.size, none⟩
  sparseImage := none

def FlashArtifact.ofSparse (source : ImageSource) (image : SparseImage) : FlashArtifact where
  transferSource := source
  metadata := ⟨.androidSparse, source.size, image.outputSize, some image.header⟩
  sparseImage := some image

/-- `FlashArtifact::inspect`. -/
def FlashArtifact.inspect (source : ImageSource) : Except SparseError FlashArtifact :=
  if source.size < 4 then .ok (FlashArtifact.ofRaw source)
  else do
    let magicBytes ← readExact source source.size 0 4
    if readU32 magicBytes 0 ≠ kAndroidSparseMagic then .ok (FlashArtifact.ofRaw source)
    else do
      let image ← openSparseImage source
      .ok (FlashArtifact.ofSparse source image)

end KairosBoot
