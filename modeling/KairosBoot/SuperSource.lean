import KairosBoot.SuperEmpty
import KairosBoot.SparseEncoding
import Mathlib.Data.List.Sort

/-! # The generated super image

The writing half of `super_optimizer.cpp`: the LP metadata with the allocated extents
(`serializeMetadata`), the sparse encoding of the populated regions (`buildSparseSource`) and
the piece table that serves it (`OptimizedSuperSource`).

The serializer fills a zeroed buffer field by field; every byte of a record is covered by one
field, so a record is the concatenation of its fields.  Regions and pieces are sorted by their
offset; no two of them start at the same offset, so any sort gives the same list. -/

namespace KairosBoot.SuperOptimizer

open ByteLib Guards

/-! ### Serialization -/

structure SelectedImage where
  taskIndex : ℕ
  partitionIndex : ℕ
  partitionName : String
  source : ImageSource
  size : ℕ
  allocatedSize : ℕ := 0
  physicalOffset : ℕ := 0

/-- `write_name`. -/
def writeName (name : String) : Bytes :=
  let text := name.toList.map fun character => UInt8.ofNat character.toNat
  text ++ List.replicate (36 - text.length) 0

def encodePartition (partition : Partition) : Bytes :=
  writeName partition.name ++ leBytes 4 partition.attributes ++ leBytes 4 partition.firstExtent ++
    leBytes 4 partition.extentCount ++ leBytes 4 partition.groupIndex

/-- A linear extent on the only block device. -/
def encodeExtent (image : SelectedImage) : Bytes :=
  leBytes 8 (image.allocatedSize / kSectorSize) ++ leBytes 4 0 ++
    leBytes 8 (image.physicalOffset / kSectorSize) ++ leBytes 4 0

def encodeGroup (group : Group) : Bytes :=
  writeName group.name ++ leBytes 4 group.flags ++ leBytes 8 group.maximumSize

def encodeBlockDevice (device : BlockDevice) : Bytes :=
  leBytes 8 device.firstLogicalSector ++ leBytes 4 device.alignment ++
    leBytes 4 device.alignmentOffset ++ leBytes 8 device.size ++ writeName device.name ++
    leBytes 4 device.flags

def encodeTables (metadata : Metadata) (selected : List SelectedImage) : Bytes :=
  metadata.partitions.flatMap encodePartition ++ selected.flatMap encodeExtent ++
    metadata.groups.flatMap encodeGroup ++ encodeBlockDevice metadata.blockDevice

/-- `tables_size`. -/
def tablesSize (metadata : Metadata) (selected : List SelectedImage) : ℕ :=
  metadata.partitions.length * kPartitionEntrySize + selected.length * kExtentEntrySize +
    metadata.groups.length * kGroupEntrySize + kBlockDeviceEntrySize

def encodeDescriptor (offset count entrySize : ℕ) : Bytes :=
  leBytes 4 offset ++ leBytes 4 count ++ leBytes 4 entrySize

/-- The four table descriptors, each table after the one before it. -/
def encodeDescriptors (partitions extents groups : ℕ) : Bytes :=
  let extentOffset := partitions * kPartitionEntrySize
  let groupOffset := extentOffset + extents * kExtentEntrySize
  let deviceOffset := groupOffset + groups * kGroupEntrySize
  encodeDescriptor 0 partitions kPartitionEntrySize ++
    encodeDescriptor extentOffset extents kExtentEntrySize ++
    encodeDescriptor groupOffset groups kGroupEntrySize ++
    encodeDescriptor deviceOffset 1 kBlockDeviceEntrySize

/-- The header with given digests. -/
def encodeLpHeader (metadata : Metadata) (selected : List SelectedImage)
    (headerDigest tableDigest : Bytes) : Bytes :=
  leBytes 4 kHeaderMagic ++ leBytes 2 10 ++ leBytes 2 metadata.minorVersion ++
    leBytes 4 metadata.headerSize ++ headerDigest ++
    leBytes 4 (tablesSize metadata selected) ++ tableDigest ++
    encodeDescriptors metadata.partitions.length selected.length metadata.groups.length ++
    (if metadata.headerSize = kHeaderV12Size then leBytes 4 metadata.flags ++ List.replicate 124 0
      else [])

/-- `serialize_metadata`. -/
def serializeMetadata (metadata : Metadata) (selected : List SelectedImage) : Bytes :=
  let tables := encodeTables metadata selected
  let headerForHash := encodeLpHeader metadata selected (List.replicate 32 0) (sha256 tables)
  encodeLpHeader metadata selected (sha256 headerForHash) (sha256 tables) ++ tables

/-! ### The piece table -/

/-- What a piece holds: bytes in memory, a part of an image source, or zeros. -/
inductive PieceContent where
  | bytes (data : Bytes) (bytesOffset : ℕ)
  | source (source : ImageSource) (sourceOffset : ℕ)
  | zero

structure MemoryPiece where
  outputOffset : ℕ
  content : PieceContent
  size : ℕ

structure OptimizedSuperSource where
  size : ℕ
  pieces : List MemoryPiece

/-- The copy loop of `OptimizedSuperSource::read_at`; the piece is looked up in every round. -/
def readPieceLoop (pieces : List MemoryPiece) (offset length : ℕ) :
    ℕ → Bytes → Except ImageSourceError Bytes
  | 0, done => .ok done
  | fuel + 1, done =>
      if done.length < length then
        let cursor := offset + done.length
        match Pieces.startAt MemoryPiece.outputOffset cursor pieces with
        | none => .error ⟨"optimized super piece table has a leading gap"⟩
        | some [] => .error ⟨"optimized super piece table has a gap"⟩
        | some (piece :: _) =>
            if cursor < piece.outputOffset ∨ piece.size ≤ cursor - piece.outputOffset then
              .error ⟨"optimized super piece table has a gap"⟩
            else
              let inPiece := cursor - piece.outputOffset
              let amount := min (length - done.length) (piece.size - inPiece)
              match piece.content with
              | .bytes data bytesOffset =>
                  readPieceLoop pieces offset length fuel
                    (done ++ slice data (bytesOffset + inPiece) amount)
              | .source source sourceOffset =>
                  match source.readAt (sourceOffset + inPiece) amount with
                  | .error e => .error e
                  | .ok got =>
                      if got.length = 0 ∨ amount < got.length then
                        .error ⟨"optimized super partition source was truncated"⟩
                      else readPieceLoop pieces offset length fuel (done ++ got)
              | .zero =>
                  readPieceLoop pieces offset length fuel (done ++ List.replicate amount 0)
      else .ok done

/-- `OptimizedSuperSource::read_at`. -/
def OptimizedSuperSource.readAt (source : OptimizedSuperSource) (offset length : ℕ) :
    Except ImageSourceError Bytes :=
  if source.size < offset ∨ source.size - offset < length then
    .error ⟨"optimized super source read exceeds encoded image"⟩
  else readPieceLoop source.pieces offset length length []

/-- The source as the image reader sees it; its size is a 64-bit number. -/
def OptimizedSuperSource.toImageSource (source : OptimizedSuperSource)
    (h : source.size ≤ uint64Max) : ImageSource where
  size := source.size
  size_le := h
  readAt := source.readAt

/-! ### Regions -/

/-- What a populated region holds: bytes, or an image followed by zeros. -/
inductive RegionContent where
  | bytes (data : Bytes)
  | image (source : ImageSource) (sourceSize : ℕ)

structure OutputRegion where
  offset : ℕ
  size : ℕ
  content : RegionContent

/-- The regions in the order in which they are collected. -/
def outputRegions (metadata : Metadata) (selected : List SelectedImage)
    (metadataBlock : Bytes) : List OutputRegion :=
  [⟨kPrimaryGeometryOffset, kGeometryRegionSize, .bytes metadata.geometry.serialized⟩,
   ⟨kBackupGeometryOffset, kGeometryRegionSize, .bytes metadata.geometry.serialized⟩] ++
  metadata.geometry.slotOffsets.map
    (fun offset => ⟨offset, metadata.geometry.metadataMaxSize, .bytes metadataBlock⟩) ++
  selected.map
    (fun image => ⟨image.physicalOffset, image.allocatedSize, .image image.source image.size⟩)

/-- The check that the sorted regions are aligned and do not overlap; it returns their end. -/
def checkRegions (blockSize : ℕ) :
    ℕ → List OutputRegion → OptimizerM ℕ
  | populatedEnd, [] => .ok populatedEnd
  | populatedEnd, region :: rest => do
      failIf (region.offset < populatedEnd ∨ region.offset % blockSize ≠ 0 ∨
          region.size % blockSize ≠ 0 ∨ uint64Max - region.offset < region.size)
        ⟨.invalidMetadata, "optimized super regions overlap or are not block aligned"⟩
      checkRegions blockSize (region.offset + region.size) rest

/-! ### The sparse encoding -/

/-- The variables of the encoding loop. -/
structure SparseWriter where
  pieces : List MemoryPiece
  encodedOffset : ℕ
  outputCursor : ℕ
  chunks : ℕ

/-- The lambda `append_chunk_header`. -/
def SparseWriter.appendChunkHeader (w : SparseWriter) (kind blocks bytes : ℕ) : SparseWriter :=
  { w with
    pieces := w.pieces ++ [⟨w.encodedOffset, .bytes (encodeChunkHeader kind blocks bytes) 0, 12⟩]
    encodedOffset := w.encodedOffset + 12
    chunks := w.chunks + 1 }

/-- Cover the output up to `target` with a chunk that carries nothing. -/
def SparseWriter.appendGap (w : SparseWriter) (blockSize target : ℕ) : SparseWriter :=
  if w.outputCursor < target then
    { w.appendChunkHeader kSparseChunkDontCare ((target - w.outputCursor) / blockSize) 12 with
      outputCursor := target }
  else w

/-- The pieces of `amount` bytes of a region from `regionCursor`. -/
def contentPieces (content : RegionContent) (encodedOffset regionCursor amount : ℕ) :
    List MemoryPiece :=
  match content with
  | .bytes data => [⟨encodedOffset, .bytes data regionCursor, amount⟩]
  | .image source sourceSize =>
      let sourceRemaining := if regionCursor < sourceSize then sourceSize - regionCursor else 0
      let sourceAmount := min amount sourceRemaining
      (if sourceAmount ≠ 0 then [⟨encodedOffset, .source source regionCursor, sourceAmount⟩]
        else []) ++
      (if sourceAmount < amount then
        [⟨encodedOffset + sourceAmount, .zero, amount - sourceAmount⟩] else [])

/-- `maximum_raw`: the largest aligned payload of a raw chunk. -/
def maximumRaw (blockSize : ℕ) : ℕ := (2 ^ 32 - 1 - 12) / blockSize * blockSize

/-- The loop over the raw chunks of a region; every round advances, so `fuel` is its size. -/
def SparseWriter.appendRaw (blockSize : ℕ) (region : OutputRegion) :
    ℕ → ℕ → SparseWriter → SparseWriter
  | 0, _, w => w
  | fuel + 1, regionCursor, w =>
      if regionCursor < region.size then
        let amount := min (region.size - regionCursor) (maximumRaw blockSize)
        let w := w.appendChunkHeader kSparseChunkRaw (amount / blockSize) (12 + amount)
        appendRaw blockSize region fuel (regionCursor + amount)
          { w with
            pieces := w.pieces ++ contentPieces region.content w.encodedOffset regionCursor amount
            encodedOffset := w.encodedOffset + amount
            outputCursor := w.outputCursor + amount }
      else w

/-- One round of the loop over the regions. -/
def SparseWriter.appendRegion (blockSize : ℕ) (w : SparseWriter) (region : OutputRegion) :
    SparseWriter :=
  (w.appendGap blockSize region.offset).appendRaw blockSize region region.size 0

/-- The part of `build_sparse_source` after the checks, up to the piece table. -/
def encodeRegions (blockSize finalOffset : ℕ) (regions : List OutputRegion) : SparseWriter :=
  (regions.foldl (SparseWriter.appendRegion blockSize) ⟨[], 28, 0, 0⟩).appendGap blockSize
    finalOffset

/-- The piece table of what was written, with the file header and its chunk count in front. -/
def SparseWriter.toSource (w : SparseWriter) (blockSize totalBlocks : ℕ) :
    OptimizedSuperSource where
  size := w.encodedOffset
  pieces := (⟨0, .bytes (encodeHeader blockSize totalBlocks w.chunks) 0, 28⟩ :: w.pieces).insertionSort
    (fun a b => a.outputOffset ≤ b.outputOffset)

/-- The metadata slot: the serialized metadata padded with zeros. -/
def metadataBlock (metadata : Metadata) (serialized : Bytes) : Bytes :=
  serialized ++ List.replicate (metadata.geometry.metadataMaxSize - serialized.length) 0

def sortedRegions (metadata : Metadata) (selected : List SelectedImage) : List OutputRegion :=
  (outputRegions metadata selected
    (metadataBlock metadata (serializeMetadata metadata selected))).insertionSort
      (fun a b => a.offset ≤ b.offset)

/-- `build_sparse_source`.  The encoded size is a 64-bit number; a larger one could not be
represented. -/
def buildSparseSource (metadata : Metadata) (selected : List SelectedImage) :
    OptimizerM ImageSource := do
  let blockSize := metadata.geometry.logicalBlockSize
  failIf (metadata.geometry.metadataMaxSize < (serializeMetadata metadata selected).length)
    ⟨.noSpace, "optimized LP metadata exceeds metadata_max_size"⟩
  failIf (metadata.geometry.metadataMaxSize % blockSize ≠ 0)
    ⟨.incompatibleLayout, "LP metadata slots are not sparse-block aligned"⟩
  let populatedEnd ← checkRegions blockSize 0 (sortedRegions metadata selected)
  let finalOffset := metadata.blockDevice.size
  failIf (finalOffset < populatedEnd ∨ finalOffset = 0 ∨ finalOffset % blockSize ≠ 0 ∨
      2 ^ 32 - 1 < finalOffset / blockSize)
    ⟨.noSpace, "optimized super sparse output exceeds format limits"⟩
  let w := encodeRegions blockSize finalOffset (sortedRegions metadata selected)
  failIf (w.outputCursor ≠ finalOffset)
    ⟨.invalidMetadata, "optimized super sparse layout does not cover the block device"⟩
  if h : (w.toSource blockSize (finalOffset / blockSize)).size ≤ uint64Max then
    .ok ((w.toSource blockSize (finalOffset / blockSize)).toImageSource h)
  else .error ⟨.noSpace, "optimized super sparse output exceeds format limits"⟩

end KairosBoot.SuperOptimizer
