import KairosBoot.Sha256
import KairosBoot.RecordTables
import KairosBoot.UpdatePackage

/-! # Reading super_empty.img

The parsing half of `super_optimizer.cpp`: the expanded view of `super_empty.img`, the LP
geometry, and the LP metadata of an empty single-device layout whose slots all agree.

A record of a table is decoded by a function of its own (`decodePartition`, `decodeGroup`,
`decodeBlockDevice`); what the parser then demands of the decoded record is in the loops
(`parsePartition`, `parseGroup`, `parseMetadata`). -/

namespace KairosBoot

open ByteLib Guards

inductive SuperOptimizationErrorKind where
  | invalidMetadata | incompatibleLayout | sizeMismatch | slotMismatch | noSpace | source | cancelled
  deriving DecidableEq, Repr

structure SuperOptimizationError where
  kind : SuperOptimizationErrorKind
  message : String
  deriving DecidableEq, Repr

abbrev OptimizerM := Except SuperOptimizationError

namespace SuperOptimizer

def kGeometryMagic : ℕ := 0x616c4467
def kHeaderMagic : ℕ := 0x414c5030
def kSectorSize : ℕ := 512
def kReservedBytes : ℕ := 4096
def kGeometryRegionSize : ℕ := 4096
def kPrimaryGeometryOffset : ℕ := kReservedBytes
def kBackupGeometryOffset : ℕ := kPrimaryGeometryOffset + kGeometryRegionSize
def kGeometryStructSize : ℕ := 52
def kHeaderV10Size : ℕ := 128
def kHeaderV12Size : ℕ := 256
def kMaximumMetadataSize : ℕ := 16 * 1024 * 1024
def kPartitionEntrySize : ℕ := 52
def kExtentEntrySize : ℕ := 24
def kGroupEntrySize : ℕ := 48
def kBlockDeviceEntrySize : ℕ := 64
def kPartitionReadOnly : ℕ := 1

/-- `u64`; `u16` and `u32` are `readU16` and `readU32`. -/
def readU64 (bytes : Bytes) (offset : ℕ) : ℕ := getLE bytes offset 8

/-- `align_up` with an alignment offset. -/
def alignUp (value alignment alignmentOffset : ℕ) : Option ℕ :=
  if alignment = 0 ∨ alignment ≤ alignmentOffset then none
  else
    let remainder := value % alignment
    let desired := alignmentOffset % alignment
    let increment :=
      if remainder ≤ desired then desired - remainder else alignment - remainder + desired
    checkedAdd value increment

/-! ### The expanded view -/

/-- The error of `read_exact`. -/
def inputFaultError : ReadFault ImageSourceError → SuperOptimizationError
  | .failed _ e => ⟨.source, "unable to read super optimization input: " ++ e.message⟩
  | .excess _ => ⟨.source, "super optimization input was truncated"⟩
  | .stalled _ => ⟨.source, "super optimization input was truncated"⟩

/-- The error of the expanding loop of `ExpandedSuperReader::read`. -/
def expandFaultError : ReadFault SparseError → SuperOptimizationError
  | .failed _ e => ⟨.source, "unable to expand super_empty.img: " ++ e.message⟩
  | .excess _ => ⟨.source, "expanded super_empty.img was truncated"⟩
  | .stalled _ => ⟨.source, "expanded super_empty.img was truncated"⟩

/-- `ExpandedSuperReader::read`. -/
def readExpanded (artifact : FlashArtifact) (offset length : ℕ) : OptimizerM Bytes :=
  let size := artifact.metadata.expandedSize
  if size < offset ∨ size - offset < length then
    .error ⟨.invalidMetadata, "LP metadata range exceeds super_empty.img"⟩
  else
    match artifact.sparseImage with
    | none =>
        (readLoop artifact.transferSource.readAt offset length length []).mapError inputFaultError
    | some image => (readLoop image.readAt offset length length []).mapError expandFaultError

/-! ### Records -/

structure Geometry where
  metadataMaxSize : ℕ
  metadataSlotCount : ℕ
  logicalBlockSize : ℕ
  serialized : Bytes
  deriving DecidableEq, Repr

structure Descriptor where
  offset : ℕ
  count : ℕ
  entrySize : ℕ
  deriving DecidableEq, Repr

structure Partition where
  name : String
  attributes : ℕ
  firstExtent : ℕ
  extentCount : ℕ
  groupIndex : ℕ
  deriving DecidableEq, Repr, Inhabited

structure Group where
  name : String
  flags : ℕ
  maximumSize : ℕ
  deriving DecidableEq, Repr, Inhabited

structure BlockDevice where
  firstLogicalSector : ℕ
  alignment : ℕ
  alignmentOffset : ℕ
  size : ℕ
  name : String
  flags : ℕ
  deriving DecidableEq, Repr

structure Metadata where
  geometry : Geometry
  minorVersion : ℕ
  headerSize : ℕ
  flags : ℕ
  partitions : List Partition
  groups : List Group
  blockDevice : BlockDevice
  deriving DecidableEq, Repr

/-- The character a byte of a name stands for. -/
def byteChar (byte : UInt8) : Char := Char.ofNat byte.toNat

/-- `valid_name_character`. -/
def validNameCharacter (value : Char) : Bool :=
  ('a' ≤ value ∧ value ≤ 'z') ∨ ('A' ≤ value ∧ value ≤ 'Z') ∨ ('0' ≤ value ∧ value ≤ '9') ∨
    value = '_'

/-- `read_name`: the bytes up to the first zero, which must exist and have only zeros after it. -/
def readName (field : Bytes) (kind : String) : OptimizerM String := do
  let text := field.takeWhile (· ≠ 0)
  failIf (¬ (text.map byteChar).all validNameCharacter)
    ⟨.invalidMetadata, "LP " ++ kind ++ " name contains an invalid character"⟩
  failIf (text.length = 0 ∨ text.length = field.length)
    ⟨.invalidMetadata, "LP " ++ kind ++ " name is empty or unterminated"⟩
  failIf (¬ (field.drop text.length).all (· = 0))
    ⟨.invalidMetadata, "LP " ++ kind ++ " name padding is not zero"⟩
  .ok (String.ofList (text.map byteChar))

def decodePartition (record : Bytes) : OptimizerM Partition := do
  let name ← readName (slice record 0 36) "partition"
  .ok ⟨name, readU32 record 36, readU32 record 40, readU32 record 44, readU32 record 48⟩

def decodeGroup (record : Bytes) : OptimizerM Group := do
  let name ← readName (slice record 0 36) "group"
  .ok ⟨name, readU32 record 36, readU64 record 40⟩

def decodeBlockDevice (record : Bytes) : OptimizerM BlockDevice := do
  let name ← readName (slice record 24 36) "block device"
  .ok ⟨readU64 record 0, readU32 record 8, readU32 record 12, readU64 record 16, name,
    readU32 record 60⟩

/-- `descriptor`. -/
def descriptor (header : Bytes) (offset : ℕ) : Descriptor :=
  ⟨readU32 header offset, readU32 header (offset + 4), readU32 header (offset + 8)⟩

def tableRecords (tables : Bytes) (d : Descriptor) : List Bytes :=
  records tables d.offset d.count d.entrySize

/-- `descriptor_end`. -/
def descriptorEnd (value : Descriptor) (tablesSize expectedEntrySize : ℕ) (name : String) :
    OptimizerM ℕ := do
  failIf (value.entrySize ≠ expectedEntrySize)
    ⟨.incompatibleLayout, "LP " ++ name ++ " table entry size is unsupported"⟩
  let finish := value.offset + value.count * value.entrySize
  failIf (tablesSize < finish)
    ⟨.invalidMetadata, "LP " ++ name ++ " table exceeds the table block"⟩
  .ok finish

/-! ### Geometry -/

/-- `all_zero`. -/
def allZero (bytes : Bytes) : Bool := bytes.all (· = 0)

/-- The digest of a structure that stores its own digest at `offset`. -/
def selfDigest (bytes : Bytes) (offset : ℕ) : Bytes :=
  sha256 (overwrite bytes offset (List.replicate kSha256DigestSize 0))

/-- `parse_geometry`. -/
def parseGeometry (artifact : FlashArtifact) : OptimizerM Geometry := do
  failIf (artifact.metadata.expandedSize < kBackupGeometryOffset + kGeometryRegionSize)
    ⟨.invalidMetadata, "super_empty.img is too small for primary and backup LP geometry"⟩
  let primary ← readExpanded artifact kPrimaryGeometryOffset kGeometryRegionSize
  let backup ← readExpanded artifact kBackupGeometryOffset kGeometryRegionSize
  failIf (primary ≠ backup ∨ readU32 primary 0 ≠ kGeometryMagic ∨
      readU32 primary 4 ≠ kGeometryStructSize)
    ⟨.invalidMetadata, "LP geometry copies, magic or structure size are inconsistent"⟩
  failIf (slice primary 8 32 ≠ selfDigest (primary.take kGeometryStructSize) 8)
    ⟨.invalidMetadata, "LP geometry checksum mismatch"⟩
  failIf (¬ allZero (primary.drop kGeometryStructSize))
    ⟨.invalidMetadata, "LP geometry reserved bytes are not zero"⟩
  let result : Geometry := ⟨readU32 primary 40, readU32 primary 44, readU32 primary 48, primary⟩
  failIf (result.metadataMaxSize < kHeaderV10Size ∨ kMaximumMetadataSize < result.metadataMaxSize ∨
      result.metadataMaxSize % kSectorSize ≠ 0 ∨ result.metadataSlotCount = 0 ∨
      32 < result.metadataSlotCount ∨ result.logicalBlockSize < kSectorSize ∨
      result.logicalBlockSize % kSectorSize ≠ 0 ∨
      result.logicalBlockSize &&& (result.logicalBlockSize - 1) ≠ 0)
    ⟨.invalidMetadata, "LP geometry contains unsupported metadata or block sizing"⟩
  .ok result

/-! ### Metadata -/

def primaryStart : ℕ := kBackupGeometryOffset + kGeometryRegionSize

/-- `primary_bytes`. -/
def Geometry.slotBytes (geometry : Geometry) : ℕ :=
  geometry.metadataMaxSize * geometry.metadataSlotCount

/-- The offsets of every metadata copy, primary and backup of each slot in turn. -/
def Geometry.slotOffsets (geometry : Geometry) : List ℕ :=
  (List.range geometry.metadataSlotCount).flatMap fun slot =>
    [primaryStart + slot * geometry.metadataMaxSize,
     primaryStart + geometry.slotBytes + slot * geometry.metadataMaxSize]

/-- `read_metadata_copy`. -/
def readMetadataCopy (artifact : FlashArtifact) (geometry : Geometry) (offset : ℕ) :
    OptimizerM Bytes := do
  failIf (artifact.metadata.expandedSize < offset ∨
      artifact.metadata.expandedSize - offset < geometry.metadataMaxSize)
    ⟨.invalidMetadata, "LP metadata copy exceeds super_empty.img"⟩
  readExpanded artifact offset geometry.metadataMaxSize

/-- One round of the loop that compares the metadata copies. -/
def checkCopy (artifact : FlashArtifact) (geometry : Geometry) (first : Bytes) (offset : ℕ) :
    OptimizerM Unit := do
  let copy ← readMetadataCopy artifact geometry offset
  failIf (copy ≠ first)
    ⟨.slotMismatch, "LP primary/backup metadata slots are not identical"⟩

/-- One round of the partition loop. -/
def parsePartition (groupCount : ℕ) (parsed : List Partition) (record : Bytes) :
    OptimizerM (List Partition) := do
  let partition ← decodePartition record
  failIf (partition.name ∈ parsed.map (·.name))
    ⟨.invalidMetadata, "LP partition names are duplicated"⟩
  failIf (partition.attributes ≠ kPartitionReadOnly ∨ partition.firstExtent ≠ 0 ∨
      partition.extentCount ≠ 0 ∨ groupCount ≤ partition.groupIndex)
    ⟨.incompatibleLayout, "LP partition attributes, extents or group index are not optimizable"⟩
  .ok (parsed ++ [partition])

/-- One round of the group loop. -/
def parseGroup (parsed : List Group) (record : Bytes) : OptimizerM (List Group) := do
  let group ← decodeGroup record
  failIf (group.name ∈ parsed.map (·.name) ∨ group.flags ≠ 0)
    ⟨.incompatibleLayout, "LP groups are duplicated or use unsupported flags"⟩
  .ok (parsed ++ [group])

/-- The header part of `parse_metadata`: version, sizes, the two checksums and the padding. -/
def checkSlot (geometry : Geometry) (first : Bytes) : OptimizerM Unit := do
  failIf (readU32 first 0 ≠ kHeaderMagic ∨ readU16 first 4 ≠ 10)
    ⟨.invalidMetadata, "LP metadata header magic or major version is unsupported"⟩
  let minor := readU16 first 6
  let headerSize := readU32 first 8
  failIf (2 < minor ∨ ¬ ((minor < 2 ∧ headerSize = kHeaderV10Size) ∨
      (minor = 2 ∧ headerSize = kHeaderV12Size)) ∨ geometry.metadataMaxSize < headerSize)
    ⟨.incompatibleLayout, "LP metadata header version or size is unsupported"⟩
  failIf (slice first 12 32 ≠ selfDigest (first.take headerSize) 12)
    ⟨.invalidMetadata, "LP metadata header checksum mismatch"⟩
  let tablesSize := readU32 first 44
  failIf (geometry.metadataMaxSize - headerSize < tablesSize)
    ⟨.invalidMetadata, "LP metadata tables exceed the reserved slot"⟩
  failIf (slice first 48 32 ≠ sha256 (slice first headerSize tablesSize))
    ⟨.invalidMetadata, "LP metadata table checksum mismatch"⟩
  failIf (¬ allZero (first.drop (headerSize + tablesSize)))
    ⟨.invalidMetadata, "LP metadata slot padding is not zero"⟩

/-- The descriptor part of `parse_metadata`: one canonical empty single-device layout. -/
def checkDescriptors (first : Bytes) : OptimizerM Unit := do
  let tablesSize := readU32 first 44
  let partitions := descriptor first 80
  let extents := descriptor first 92
  let groups := descriptor first 104
  let devices := descriptor first 116
  let partitionEnd ← descriptorEnd partitions tablesSize kPartitionEntrySize "partition"
  let extentEnd ← descriptorEnd extents tablesSize kExtentEntrySize "extent"
  let groupEnd ← descriptorEnd groups tablesSize kGroupEntrySize "group"
  let deviceEnd ← descriptorEnd devices tablesSize kBlockDeviceEntrySize "block device"
  failIf (partitions.offset ≠ 0 ∨ partitionEnd ≠ extents.offset ∨ extentEnd ≠ groups.offset ∨
      groupEnd ≠ devices.offset ∨ deviceEnd ≠ tablesSize ∨ extents.count ≠ 0 ∨
      devices.count ≠ 1 ∨ groups.count = 0 ∨ partitions.count = 0)
    ⟨.incompatibleLayout, "LP tables are not one canonical empty single-device super layout"⟩
  failIf (readU32 first 8 = kHeaderV12Size ∧ ¬ allZero (slice first 132 124))
    ⟨.incompatibleLayout, "LP expanded header reserved bytes are not zero"⟩

/-- The last check of `parse_metadata`. -/
def checkBlockDevice (geometry : Geometry) (expandedSize : ℕ) (device : BlockDevice) :
    OptimizerM Unit :=
  failIf (device.flags ≠ 0 ∨ device.size ≠ expandedSize ∨
      device.size / kSectorSize < device.firstLogicalSector ∨
      device.firstLogicalSector * kSectorSize < primaryStart + 2 * geometry.slotBytes ∨
      device.alignment % kSectorSize ≠ 0 ∨
      (device.alignment ≠ 0 ∧ (device.alignment < geometry.logicalBlockSize ∨
        device.alignment % geometry.logicalBlockSize ≠ 0 ∨
        device.alignmentOffset % geometry.logicalBlockSize ≠ 0)) ∨
      max device.alignment 1 ≤ device.alignmentOffset)
    ⟨.incompatibleLayout, "LP block-device geometry is inconsistent with super_empty.img"⟩

/-- `parse_metadata`. -/
def parseMetadata (artifact : FlashArtifact) (geometry : Geometry) : OptimizerM Metadata := do
  let first ← readMetadataCopy artifact geometry primaryStart
  failIf (uint64Max - primaryStart < geometry.slotBytes)
    ⟨.invalidMetadata, "LP metadata slot offsets overflow"⟩
  geometry.slotOffsets.forM (checkCopy artifact geometry first)
  checkSlot geometry first
  checkDescriptors first
  let headerSize := readU32 first 8
  let tables := slice first headerSize (readU32 first 44)
  let partitions ← (tableRecords tables (descriptor first 80)).foldlM
    (parsePartition (descriptor first 104).count) []
  let groups ← (tableRecords tables (descriptor first 104)).foldlM parseGroup []
  let blockDevice ← decodeBlockDevice
    (slice tables (descriptor first 116).offset (descriptor first 116).entrySize)
  checkBlockDevice geometry artifact.metadata.expandedSize blockDevice
  .ok {
    geometry := geometry
    minorVersion := readU16 first 6
    headerSize := headerSize
    flags := if headerSize = kHeaderV12Size then readU32 first 128 else 0
    partitions := partitions
    groups := groups
    blockDevice := blockDevice }

end SuperOptimizer

end KairosBoot
