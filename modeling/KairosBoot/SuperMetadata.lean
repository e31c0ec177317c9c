import KairosBoot.RecordTables
import KairosBoot.Sha256
import KairosBoot.SparseEncoding
import Mathlib.Data.List.Sort

/-! # Fetched super metadata

`super_metadata.cpp`: the leading bytes of a physical super partition are parsed (`parseGeometry`,
`parseMetadataAt`).

Numbers are 64-bit or 32-bit unsigned in the source; an operation that can wrap around is written
with its `%`.  A reference into a vector is an index, and the flags of `owned` are the list of the
indices that are set.  A read at an index of a vector is in range wherever the source makes one;
the model reads a default there. -/

namespace KairosBoot

open ByteLib Guards

inductive SuperMetadataErrorKind where
  | malformed | unsupported | partitionNotFound | noSpace | overflow
  deriving DecidableEq, Repr

structure SuperMetadataError where
  kind : SuperMetadataErrorKind
  message : String
  deriving DecidableEq, Repr

namespace SuperMetadata

def kGeometryMagic : ℕ := 0x616c4467
def kHeaderMagic : ℕ := 0x414c5030
def kMetadataMajorVersion : ℕ := 10
def kMaximumMetadataMinorVersion : ℕ := 2
def kSectorSize : ℕ := 512
def kReservedBytes : ℕ := 4096
def kGeometrySize : ℕ := 4096
def kPrimaryGeometryOffset : ℕ := kReservedBytes
def kBackupGeometryOffset : ℕ := kReservedBytes + kGeometrySize
def kPrimaryMetadataOffset : ℕ := kReservedBytes + 2 * kGeometrySize
def kGeometryStructSize : ℕ := 52
def kHeaderV10Size : ℕ := 128
def kHeaderV12Size : ℕ := 256
def kPartitionEntrySize : ℕ := 52
def kExtentEntrySize : ℕ := 24
def kGroupEntrySize : ℕ := 48
def kBlockDeviceEntrySize : ℕ := 64
def kLinearExtent : ℕ := 0
def kZeroExtent : ℕ := 1
def kMaximumMetadataBytes : ℕ := 1024 * 1024

structure Geometry where
  metadataMaxSize : ℕ
  metadataSlotCount : ℕ
  logicalBlockSize : ℕ
  deriving DecidableEq, Repr

structure Descriptor where
  offset : ℕ
  count : ℕ
  entrySize : ℕ
  deriving DecidableEq, Repr

structure Partition where
  raw : Bytes
  name : Bytes
  attributes : ℕ
  groupIndex : ℕ
  extentIndices : List ℕ
  deriving DecidableEq, Repr

structure Extent where
  raw : Bytes
  sectors : ℕ
  type : ℕ
  targetData : ℕ
  targetSource : ℕ
  deriving DecidableEq, Repr, Inhabited

structure Group where
  raw : Bytes
  maximumSize : ℕ
  deriving DecidableEq, Repr, Inhabited

structure BlockDevice where
  raw : Bytes
  firstSector : ℕ
  alignment : ℕ
  alignmentOffset : ℕ
  size : ℕ
  deriving DecidableEq, Repr, Inhabited

structure Metadata where
  geometry : Geometry
  slot : ℕ
  header : Bytes
  minorVersion : ℕ
  partitionDescriptor : Descriptor
  extentDescriptor : Descriptor
  groupDescriptor : Descriptor
  blockDeviceDescriptor : Descriptor
  partitions : List Partition
  extents : List Extent
  groups : List Group
  blockDevices : List BlockDevice
  deriving DecidableEq, Repr

/-! ### Reading fields -/

/-- `read_le` of an integer of `width` bytes. -/
def readLe (bytes : Bytes) (offset width : ℕ) : Option ℕ :=
  if bytes.length < offset ∨ bytes.length - offset < width then none
  else some (getLE bytes offset width)

/-- `checksum_matches`: the digest is taken with its own field cleared. -/
def checksumMatches (bytes : Bytes) (checksumOffset : ℕ) : Bool :=
  if bytes.length < checksumOffset ∨ bytes.length - checksumOffset < kSha256DigestSize then false
  else decide (sha256 (overwrite bytes checksumOffset (List.replicate kSha256DigestSize 0))
    = slice bytes checksumOffset kSha256DigestSize)

/-- `parse_geometry_at`. -/
def parseGeometryAt (bytes : Bytes) (offset : ℕ) : Option Geometry :=
  if bytes.length < offset ∨ bytes.length - offset < kGeometryStructSize then none
  else do
    let geometryBytes := slice bytes offset kGeometryStructSize
    let magic ← readLe geometryBytes 0 4
    let structureSize ← readLe geometryBytes 4 4
    let maximum ← readLe geometryBytes 40 4
    let slots ← readLe geometryBytes 44 4
    let logicalBlock ← readLe geometryBytes 48 4
    if magic ≠ kGeometryMagic ∨ structureSize ≠ kGeometryStructSize ∨
        checksumMatches geometryBytes 8 = false ∨ maximum = 0 ∨ kMaximumMetadataBytes < maximum ∨
        maximum % kSectorSize ≠ 0 ∨ slots = 0 ∨ 32 < slots ∨ logicalBlock < kSectorSize ∨
        logicalBlock % kSectorSize ≠ 0 then none
    else some ⟨maximum, slots, logicalBlock⟩

/-- `parse_geometry`. -/
def parseGeometry (bytes : Bytes) : Except SuperMetadataError Geometry :=
  match parseGeometryAt bytes kPrimaryGeometryOffset with
  | some primary => .ok primary
  | none =>
      match parseGeometryAt bytes kBackupGeometryOffset with
      | some backup => .ok backup
      | none => .error ⟨.malformed, "fetched super image has no valid primary or backup geometry"⟩

/-- `checked_table_bytes`. -/
def checkedTableBytes (descriptor : Descriptor) (tablesSize : ℕ) : Option ℕ :=
  if descriptor.entrySize = 0 ∨ uint64Max / descriptor.entrySize < descriptor.count then none
  else
    let result := descriptor.count * descriptor.entrySize
    if descriptor.offset ≤ tablesSize ∧ result ≤ tablesSize - descriptor.offset then some result
    else none

/-- `read_descriptor`. -/
def readDescriptor (header : Bytes) (offset : ℕ) : Option Descriptor := do
  let tableOffset ← readLe header offset 4
  let count ← readLe header (offset + 4) 4
  let entrySize ← readLe header (offset + 8) 4
  some ⟨tableOffset, count, entrySize⟩

/-- A letter, a digit or an underscore. -/
def nameCharacter (character : UInt8) : Bool :=
  (0x30 ≤ character && character ≤ 0x39) || (0x41 ≤ character && character ≤ 0x5a) ||
    (0x61 ≤ character && character ≤ 0x7a) || character = 0x5f

/-- `parse_name`. -/
def parseName (bytes : Bytes) : Option Bytes :=
  let value := bytes.takeWhile (· ≠ 0)
  if value = [] ∨ value.all nameCharacter = false then none else some value

/-! ### Parsing the metadata -/

/-- The fields of an area that are checked before its tables are read. -/
structure AreaHeader where
  minorVersion : ℕ
  header : Bytes
  tables : Bytes
  deriving DecidableEq, Repr

/-- The header of a metadata area and its tables, with both checksums. -/
def parseArea (area : Bytes) : Except SuperMetadataError AreaHeader := do
  let invalid : SuperMetadataError := ⟨.malformed, "logical partition metadata header is invalid"⟩
  let magic ← orFail (readLe area 0 4) invalid
  let major ← orFail (readLe area 4 2) invalid
  let minor ← orFail (readLe area 6 2) invalid
  let headerSize ← orFail (readLe area 8 4) invalid
  let tablesSize ← orFail (readLe area 44 4) invalid
  failIf (magic ≠ kHeaderMagic ∨ major ≠ kMetadataMajorVersion ∨
    kMaximumMetadataMinorVersion < minor ∨
    (headerSize ≠ kHeaderV10Size ∧ headerSize ≠ kHeaderV12Size) ∨ area.length < headerSize ∨
    area.length - headerSize < tablesSize) invalid
  let header := area.take headerSize
  let tables := slice area headerSize tablesSize
  failIf (checksumMatches header 12 = false ∨ sha256 tables ≠ slice area 48 kSha256DigestSize)
    ⟨.malformed, "logical partition metadata checksum is invalid"⟩
  .ok ⟨minor, header, tables⟩

structure Descriptors where
  partition : Descriptor
  extent : Descriptor
  group : Descriptor
  device : Descriptor
  deriving DecidableEq, Repr

def parseDescriptors (header : Bytes) : Except SuperMetadataError Descriptors := do
  let unsupported : SuperMetadataError :=
    ⟨.unsupported, "logical partition table layout is unsupported"⟩
  let partition ← orFail (readDescriptor header 80) unsupported
  let extent ← orFail (readDescriptor header 92) unsupported
  let group ← orFail (readDescriptor header 104) unsupported
  let device ← orFail (readDescriptor header 116) unsupported
  failIf (partition.entrySize < kPartitionEntrySize ∨ extent.entrySize < kExtentEntrySize ∨
    group.entrySize < kGroupEntrySize ∨ device.entrySize < kBlockDeviceEntrySize) unsupported
  .ok ⟨partition, extent, group, device⟩

def tableRange (tablesSize : ℕ) (descriptor : Descriptor) : Except SuperMetadataError (ℕ × ℕ) := do
  let bytes ← orFail (checkedTableBytes descriptor tablesSize)
    ⟨.malformed, "logical partition table exceeds metadata bounds"⟩
  .ok (descriptor.offset, descriptor.offset + bytes)

/-- The order of `std::pair`. -/
def rangeLe (left right : ℕ × ℕ) : Prop :=
  left.1 < right.1 ∨ (left.1 = right.1 ∧ left.2 ≤ right.2)

instance : DecidableRel rangeLe := fun left right =>
  inferInstanceAs (Decidable (left.1 < right.1 ∨ (left.1 = right.1 ∧ left.2 ≤ right.2)))

/-- Whether two neighbours of sorted ranges overlap. -/
def rangesOverlap : List (ℕ × ℕ) → Bool
  | first :: second :: rest => decide (second.1 < first.2) || rangesOverlap (second :: rest)
  | _ => false

/-- The tables lie inside the metadata and apart from each other. -/
def checkTables (tablesSize : ℕ) (descriptors : Descriptors) : Except SuperMetadataError Unit := do
  let partition ← tableRange tablesSize descriptors.partition
  let extent ← tableRange tablesSize descriptors.extent
  let group ← tableRange tablesSize descriptors.group
  let device ← tableRange tablesSize descriptors.device
  failIf (rangesOverlap ([partition, extent, group, device].insertionSort rangeLe) = true)
    ⟨.malformed, "logical partition tables overlap"⟩

def tableRecords (tables : Bytes) (descriptor : Descriptor) : List Bytes :=
  records tables descriptor.offset descriptor.count descriptor.entrySize

def decodeExtent (entry : Bytes) : Except SuperMetadataError Extent := do
  let invalid : SuperMetadataError := ⟨.malformed, "logical partition extent is invalid"⟩
  let sectors ← orFail (readLe entry 0 8) invalid
  let type ← orFail (readLe entry 8 4) invalid
  let targetData ← orFail (readLe entry 12 8) invalid
  let targetSource ← orFail (readLe entry 20 4) invalid
  failIf (type ≠ kLinearExtent ∧ type ≠ kZeroExtent) invalid
  .ok ⟨entry, sectors, type, targetData, targetSource⟩

def decodeGroup (entry : Bytes) : Except SuperMetadataError Group := do
  let maximum ← orFail (readLe entry 40 8) ⟨.malformed, "logical partition group is invalid"⟩
  .ok ⟨entry, maximum⟩

def decodeBlockDevice (entry : Bytes) : Except SuperMetadataError BlockDevice := do
  let invalid : SuperMetadataError := ⟨.malformed, "logical partition block device is invalid"⟩
  let first ← orFail (readLe entry 0 8) invalid
  let alignment ← orFail (readLe entry 8 4) invalid
  let alignmentOffset ← orFail (readLe entry 12 4) invalid
  let size ← orFail (readLe entry 16 8) invalid
  failIf (size = 0 ∨ size % kSectorSize ≠ 0 ∨ size / kSectorSize ≤ first ∨
    (alignment ≠ 0 ∧ alignment % kSectorSize ≠ 0)) invalid
  .ok ⟨entry, first, alignment, alignmentOffset, size⟩

/-- The check of one extent against its device; the subtraction wraps around. -/
def extentExceedsDevice (blockDevices : List BlockDevice) (extent : Extent) : Bool :=
  decide (extent.type = kLinearExtent) &&
    match blockDevices[extent.targetSource]? with
    | none => true
    | some device =>
        decide (extent.targetData < device.firstSector ∨
          (device.size / kSectorSize + 2 ^ 64 - extent.targetData) % 2 ^ 64 < extent.sectors)

/-- The loop that claims the extents of a partition, from number `extent` on. -/
def claimExtents (first : ℕ) :
    ℕ → ℕ → List ℕ → List ℕ → Except SuperMetadataError (List ℕ × List ℕ)
  | 0, _, indices, owned => .ok (indices, owned)
  | remaining + 1, extent, indices, owned => do
      let extentIndex := (first + extent) % 2 ^ 32
      failIf (extentIndex ∈ owned)
        ⟨.malformed, "logical partition extents have multiple owners"⟩
      claimExtents first remaining (extent + 1) (indices ++ [extentIndex]) (owned ++ [extentIndex])

/-- The partitions read so far and the extents they own. -/
structure PartitionTable where
  partitions : List Partition
  owned : List ℕ
  deriving DecidableEq, Repr

/-- One round of the loop over the partition table. -/
def parsePartition (extentCount groupCount : ℕ) (table : PartitionTable) (entry : Bytes) :
    Except SuperMetadataError PartitionTable := do
  let invalid : SuperMetadataError := ⟨.malformed, "logical partition entry is invalid"⟩
  let name ← orFail (parseName (entry.take 36)) invalid
  let attributes ← orFail (readLe entry 36 4) invalid
  let first ← orFail (readLe entry 40 4) invalid
  let count ← orFail (readLe entry 44 4) invalid
  let group ← orFail (readLe entry 48 4) invalid
  failIf (table.partitions.any (fun known => decide (known.name = name)) = true ∨
    groupCount ≤ group ∨ extentCount < first ∨ extentCount - first < count) invalid
  let claimed ← claimExtents first count 0 [] table.owned
  .ok ⟨table.partitions ++ [⟨entry, name, attributes, group, claimed.1⟩], claimed.2⟩

/-- `parse_metadata_at`. -/
def parseMetadataAt (fetched : Bytes) (geometry : Geometry) (slot offset : ℕ) :
    Except SuperMetadataError Metadata := do
  failIf (fetched.length < offset ∨ fetched.length - offset < geometry.metadataMaxSize)
    ⟨.malformed, "fetched super image does not contain the selected metadata slot"⟩
  let area := slice fetched offset geometry.metadataMaxSize
  let parsed ← parseArea area
  let descriptors ← parseDescriptors parsed.header
  checkTables parsed.tables.length descriptors
  let extents ← (tableRecords parsed.tables descriptors.extent).mapM decodeExtent
  let groups ← (tableRecords parsed.tables descriptors.group).mapM decodeGroup
  let blockDevices ← (tableRecords parsed.tables descriptors.device).mapM decodeBlockDevice
  failIf (blockDevices = [] ∨ groups = [])
    ⟨.malformed, "logical partition metadata has no group or block device"⟩
  failIf (extents.any (extentExceedsDevice blockDevices) = true)
    ⟨.malformed, "logical partition extent exceeds its block device"⟩
  let table ← (tableRecords parsed.tables descriptors.partition).foldlM
    (parsePartition extents.length groups.length) ⟨[], []⟩
  failIf ((List.range extents.length).any (fun index => decide (index ∉ table.owned)) = true)
    ⟨.malformed, "logical partition metadata has orphan extents"⟩
  .ok {
    geometry := geometry
    slot := slot
    header := parsed.header
    minorVersion := parsed.minorVersion
    partitionDescriptor := descriptors.partition
    extentDescriptor := descriptors.extent
    groupDescriptor := descriptors.group
    blockDeviceDescriptor := descriptors.device
    partitions := table.partitions
    extents := extents
    groups := groups
    blockDevices := blockDevices }

end SuperMetadata

end KairosBoot
