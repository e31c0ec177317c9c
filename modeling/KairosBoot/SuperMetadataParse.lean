import KairosBoot.SuperMetadata

/-! # What accepted super metadata looks like

`parseMetadataAt` accepts a metadata area exactly when each of its checks does
(`parseMetadataAt_eq_ok_iff`), and the numbers it returns fit the fields they were read from.  The
check of an extent against its block device subtracts the start of the extent from the size of the
device.  The subtraction wraps around for an extent that starts behind the end of its device, and
then any length passes: the extents of accepted metadata lie on their devices exactly when all of
them start there (`extents_inRange_iff`). -/

namespace KairosBoot.SuperMetadata

open ByteLib Guards List

/-! ### Acceptance -/

/-- Every check of `parseMetadataAt` passes, and the metadata is what it returns. -/
structure ParsedAt (fetched : Bytes) (geometry : Geometry) (slot offset : ℕ) (parsed : AreaHeader)
    (descriptors : Descriptors) (owned : List ℕ) (metadata : Metadata) : Prop where
  offset_le : offset ≤ fetched.length
  available : geometry.metadataMaxSize ≤ fetched.length - offset
  area_eq : parseArea (slice fetched offset geometry.metadataMaxSize) = .ok parsed
  descriptors_eq : parseDescriptors parsed.header = .ok descriptors
  tables_ok : checkTables parsed.tables.length descriptors = .ok ()
  extents_eq : (tableRecords parsed.tables descriptors.extent).mapM decodeExtent
    = .ok metadata.extents
  groups_eq : (tableRecords parsed.tables descriptors.group).mapM decodeGroup
    = .ok metadata.groups
  blockDevices_eq : (tableRecords parsed.tables descriptors.device).mapM decodeBlockDevice
    = .ok metadata.blockDevices
  blockDevices_ne_nil : metadata.blockDevices ≠ []
  groups_ne_nil : metadata.groups ≠ []
  extents_ok : metadata.extents.any (extentExceedsDevice metadata.blockDevices) = false
  partitions_eq : (tableRecords parsed.tables descriptors.partition).foldlM
    (parsePartition metadata.extents.length metadata.groups.length) ⟨[], []⟩
      = .ok ⟨metadata.partitions, owned⟩
  owned_all : ∀ index < metadata.extents.length, index ∈ owned
  geometry_eq : metadata.geometry = geometry
  slot_eq : metadata.slot = slot
  header_eq : metadata.header = parsed.header
  minorVersion_eq : metadata.minorVersion = parsed.minorVersion
  partitionDescriptor_eq : metadata.partitionDescriptor = descriptors.partition
  extentDescriptor_eq : metadata.extentDescriptor = descriptors.extent
  groupDescriptor_eq : metadata.groupDescriptor = descriptors.group
  blockDeviceDescriptor_eq : metadata.blockDeviceDescriptor = descriptors.device

theorem orphans_eq_false_iff {count : ℕ} {owned : List ℕ} :
    ¬ (range count).any (fun index => decide (index ∉ owned)) = true ↔
      ∀ index < count, index ∈ owned := by
  simp [any_eq_true]

variable {offset : ℕ} {blockDevices : List BlockDevice} {extent : Extent}

theorem parseMetadataAt_eq_ok_iff {fetched : Bytes} {geometry : Geometry} {slot : ℕ}
    {metadata : Metadata} :
    parseMetadataAt fetched geometry slot offset = .ok metadata ↔
      ∃ parsed descriptors owned,
        ParsedAt fetched geometry slot offset parsed descriptors owned metadata := by
  constructor
  · intro h
    unfold parseMetadataAt at h
    obtain ⟨hrange, h⟩ := failIf_bind_eq_ok.mp h
    obtain ⟨parsed, harea, h⟩ := bind_eq_ok.mp h
    obtain ⟨descriptors, hdescs, h⟩ := bind_eq_ok.mp h
    obtain ⟨_, htables, h⟩ := bind_eq_ok.mp h
    obtain ⟨extents, hextents, h⟩ := bind_eq_ok.mp h
    obtain ⟨groups, hgroups, h⟩ := bind_eq_ok.mp h
    obtain ⟨blockDevices, hdevs, h⟩ := bind_eq_ok.mp h
    obtain ⟨hemp, h⟩ := failIf_bind_eq_ok.mp h
    obtain ⟨hbds, h⟩ := failIf_bind_eq_ok.mp h
    obtain ⟨table, htab, h⟩ := bind_eq_ok.mp h
    obtain ⟨horphans, h⟩ := failIf_bind_eq_ok.mp h
    cases h
    exact ⟨parsed, descriptors, table.owned, by omega, by omega, harea, hdescs, htables,
      hextents, hgroups, hdevs, fun hnil => hemp (.inl hnil), fun hnil => hemp (.inr hnil),
      eq_false_of_ne_true hbds, htab, orphans_eq_false_iff.mp horphans, rfl, rfl, rfl, rfl,
      rfl, rfl, rfl, rfl⟩
  · rintro ⟨parsed, descriptors, owned, h⟩
    have hoff := h.offset_le
    have havail := h.available
    unfold parseMetadataAt
    rw [failIf_bind_of_not (by omega)]
    simp only [h.area_eq, ok_bind, h.descriptors_eq, h.tables_ok, h.extents_eq, h.groups_eq,
      h.blockDevices_eq]
    rw [failIf_bind_of_not (by simp [h.blockDevices_ne_nil, h.groups_ne_nil]),
      failIf_bind_of_not (by simp [h.extents_ok]), h.partitions_eq, ok_bind,
      failIf_bind_of_not (orphans_eq_false_iff.mpr h.owned_all), ← h.header_eq,
      ← h.minorVersion_eq, ← h.partitionDescriptor_eq, ← h.extentDescriptor_eq,
      ← h.groupDescriptor_eq, ← h.blockDeviceDescriptor_eq, ← h.geometry_eq, ← h.slot_eq]

/-! ### Fields -/

theorem readLe_eq_some_iff {bytes : Bytes} {width value : ℕ} :
    readLe bytes offset width = some value ↔
      offset + width ≤ bytes.length ∧ getLE bytes offset width = value := by
  unfold readLe
  split
  · next h =>
    refine ⟨fun hnone => absurd hnone (by simp), fun hsome => ?_⟩
    omega
  · next h =>
    rw [Option.some.injEq]
    exact ⟨fun hval => ⟨by omega, hval⟩, fun hval => hval.2⟩

theorem readLe_lt {bytes : Bytes} {width value : ℕ}
    (h : readLe bytes offset width = some value) : value < 256 ^ width := by
  rw [← (readLe_eq_some_iff.mp h).2]
  exact getLE_lt bytes offset width

/-- A block device the parser accepts. -/
structure BlockDevice.Valid (device : BlockDevice) : Prop where
  size_lt : device.size < 2 ^ 64
  size_mod : device.size % kSectorSize = 0
  firstSector_lt : device.firstSector < device.size / kSectorSize
  alignment_lt : device.alignment < 2 ^ 32
  alignment_mod : device.alignment % kSectorSize = 0
  alignmentOffset_lt : device.alignmentOffset < 2 ^ 32

theorem decodeBlockDevice_valid {entry : Bytes} {device : BlockDevice}
    (h : decodeBlockDevice entry = .ok device) : device.Valid := by
  unfold decodeBlockDevice at h
  obtain ⟨first, -, h⟩ := bind_eq_ok.mp h
  obtain ⟨alignment, halignment, h⟩ := bind_eq_ok.mp h
  obtain ⟨alignmentOffset, hoff, h⟩ := bind_eq_ok.mp h
  obtain ⟨size, hsize, h⟩ := bind_eq_ok.mp h
  obtain ⟨hvld, h⟩ := failIf_bind_eq_ok.mp h
  cases h
  rw [not_or, not_or, not_or, not_and_or, not_not, not_not, not_not] at hvld
  obtain ⟨-, hmod, hfst, halign⟩ := hvld
  refine ⟨readLe_lt (orFail_eq_ok.mp hsize), hmod, Nat.lt_of_not_le hfst,
    readLe_lt (orFail_eq_ok.mp halignment), ?_, readLe_lt (orFail_eq_ok.mp hoff)⟩
  rcases halign with hzero | halign
  · simp only [hzero, Nat.zero_mod]
  · exact halign

section Accepted

variable {fetched : Bytes} {geometry : Geometry} {slot offset : ℕ} {parsed : AreaHeader}
  {descriptors : Descriptors} {owned : List ℕ} {metadata : Metadata}

theorem ParsedAt.blockDevice_valid
    (h : ParsedAt fetched geometry slot offset parsed descriptors owned metadata) :
    ∀ device ∈ metadata.blockDevices, device.Valid :=
  (mapM_ok_forall h.blockDevices_eq fun _ _ _ hdecode => decodeBlockDevice_valid hdecode).2

end Accepted

/-! ### The extent bound -/

/-- An extent that lies on its block device. -/
def InRange (blockDevices : List BlockDevice) (extent : Extent) : Prop :=
  ∃ device, blockDevices[extent.targetSource]? = some device ∧
    device.firstSector ≤ extent.targetData ∧
    extent.targetData + extent.sectors ≤ device.size / kSectorSize

/-- An extent that starts no later than its block device ends. -/
def StartsInRange (blockDevices : List BlockDevice) (extent : Extent) : Prop :=
  ∃ device, blockDevices[extent.targetSource]? = some device ∧
    extent.targetData ≤ device.size / kSectorSize

theorem InRange.starts (h : InRange blockDevices extent) : StartsInRange blockDevices extent := by
  obtain ⟨device, hdev, -, hend⟩ := h
  exact ⟨device, hdev, by omega⟩

theorem extentExceedsDevice_eq_false (h : extentExceedsDevice blockDevices extent = false)
    (hlinear : extent.type = kLinearExtent) :
    ∃ device, blockDevices[extent.targetSource]? = some device ∧
      device.firstSector ≤ extent.targetData ∧
      extent.sectors ≤ (device.size / kSectorSize + 2 ^ 64 - extent.targetData) % 2 ^ 64 := by
  unfold extentExceedsDevice at h
  rw [decide_eq_true hlinear, Bool.true_and] at h
  cases hdev : blockDevices[extent.targetSource]? with
  | none =>
      rw [hdev] at h
      cases h
  | some device =>
      rw [hdev] at h
      have hbnd := of_decide_eq_false h
      exact ⟨device, rfl, by omega, by omega⟩

/-- The check is exact for an extent that starts on its device. -/
theorem inRange_of_starts (hvld : ∀ device ∈ blockDevices, device.Valid)
    (h : extentExceedsDevice blockDevices extent = false) (hlinear : extent.type = kLinearExtent)
    (hstart : StartsInRange blockDevices extent) : InRange blockDevices extent := by
  obtain ⟨device, hdev, hfst, hsectors⟩ := extentExceedsDevice_eq_false h hlinear
  obtain ⟨device', hdev', hdata⟩ := hstart
  cases (hdev.symm.trans hdev')
  have hsize := (hvld device (mem_of_getElem? hdev)).size_lt
  have hlt : device.size / kSectorSize < 2 ^ 64 := lt_of_le_of_lt (Nat.div_le_self _ _) hsize
  have hsub : (device.size / kSectorSize + 2 ^ 64 - extent.targetData) % 2 ^ 64
      = device.size / kSectorSize - extent.targetData := by
    rw [show device.size / kSectorSize + 2 ^ 64 - extent.targetData
        = device.size / kSectorSize - extent.targetData + 2 ^ 64 by omega, Nat.add_mod_right,
      Nat.mod_eq_of_lt (by omega)]
  exact ⟨device, hdev, hfst, by omega⟩

/-- The linear extents of accepted metadata lie on their block devices exactly when all of them
start there. -/
theorem extents_inRange_iff {fetched : Bytes} {geometry : Geometry} {slot offset : ℕ}
    {metadata : Metadata} (h : parseMetadataAt fetched geometry slot offset = .ok metadata) :
    (∀ extent ∈ metadata.extents, extent.type = kLinearExtent →
        InRange metadata.blockDevices extent) ↔
      ∀ extent ∈ metadata.extents, extent.type = kLinearExtent →
        StartsInRange metadata.blockDevices extent := by
  obtain ⟨parsed, descriptors, owned, hparsed⟩ := parseMetadataAt_eq_ok_iff.mp h
  constructor
  · intro hrange extent hmem hlinear
    exact (hrange extent hmem hlinear).starts
  · intro hstarts extent hmem hlinear
    have hok := hparsed.extents_ok
    rw [List.any_eq_false] at hok
    exact inRange_of_starts hparsed.blockDevice_valid (eq_false_of_ne_true (hok extent hmem))
      hlinear (hstarts extent hmem hlinear)

/-! ### Fetched images put together from their parts -/

theorem parseGeometryAt_window {front window back : Bytes} (hfront : front.length = offset)
    (hwin : window.length = kGeometryStructSize) :
    parseGeometryAt (front ++ (window ++ back)) offset = parseGeometryAt window 0 := by
  have hslice : slice (front ++ (window ++ back)) offset kGeometryStructSize
      = slice window 0 kGeometryStructSize := by
    rw [slice_middle hfront hwin, ← hwin, slice_all]
  unfold parseGeometryAt
  rw [if_neg (by simp only [length_append]; omega), if_neg (by omega), hslice]

/-- A metadata area is read from the window it stands in. -/
theorem parseMetadataAt_window {front area : Bytes} {geometry : Geometry}
    (hfront : front.length = offset) (harea : area.length = geometry.metadataMaxSize) (slot : ℕ) :
    parseMetadataAt (front ++ area) geometry slot offset = parseMetadataAt area geometry slot 0 := by
  have hslice : slice (front ++ area) offset geometry.metadataMaxSize
      = slice area 0 geometry.metadataMaxSize := by
    rw [slice_append_exact hfront, slice_eq_take]
  unfold parseMetadataAt
  rw [failIf_bind_of_not (by simp only [length_append]; omega),
    failIf_bind_of_not (by omega), hslice]

def sampleGeometry : Geometry := ⟨4096, 1, 4096⟩

def sampleGeometryBytes : Bytes :=
  let cleared := leBytes 4 kGeometryMagic ++ (leBytes 4 kGeometryStructSize ++
    (List.replicate kSha256DigestSize 0 ++ (leBytes 4 4096 ++ (leBytes 4 1 ++ leBytes 4 4096))))
  overwrite cleared 8 (sha256 cleared)

/-- A linear extent on the first device. -/
def sampleExtent (sectors targetData : ℕ) : Extent where
  raw := leBytes 8 sectors ++ (leBytes 4 kLinearExtent ++ (leBytes 8 targetData ++ leBytes 4 0))
  sectors := sectors
  type := kLinearExtent
  targetData := targetData
  targetSource := 0

/-- A device of 1024 sectors, the first 16 of them reserved. -/
def sampleDevice : BlockDevice where
  raw := leBytes 8 16 ++ (leBytes 4 0 ++ (leBytes 4 0 ++ (leBytes 8 524288 ++ List.replicate 40 0)))
  firstSector := 16
  alignment := 0
  alignmentOffset := 0
  size := 524288

/-- The partition `a` with the extent, a group without a limit and the device. -/
def sampleTables (extent : Extent) : Bytes :=
  0x61 :: List.replicate 43 0 ++ (leBytes 4 1 ++ (leBytes 4 0 ++ (extent.raw ++
    (List.replicate kGroupEntrySize 0 ++ sampleDevice.raw))))

/-- A metadata area of version 1.0 with its checksums. -/
def sampleArea (extent : Extent) : Bytes :=
  let tables := sampleTables extent
  let header := leBytes 4 kHeaderMagic ++ (leBytes 2 kMetadataMajorVersion ++ (leBytes 2 0 ++
    (leBytes 4 kHeaderV10Size ++ (List.replicate kSha256DigestSize 0 ++
      (leBytes 4 tables.length ++ (sha256 tables ++
        [0, 1, kPartitionEntrySize, 52, 1, kExtentEntrySize, 76, 1, kGroupEntrySize,
          124, 1, kBlockDeviceEntrySize].flatMap (leBytes 4)))))))
  overwrite (List.replicate 4096 0) 0 (overwrite header 12 (sha256 header) ++ tables)

/-- The leading bytes of a super partition: the reserved block, the geometry and one slot. -/
def sampleSuper (extent : Extent) : Bytes :=
  List.replicate kReservedBytes 0 ++ (sampleGeometryBytes ++
    (List.replicate (2 * kGeometrySize - kGeometryStructSize) 0 ++ sampleArea extent))

theorem length_sampleGeometryBytes : sampleGeometryBytes.length = kGeometryStructSize := by
  decide +kernel

theorem parseGeometry_sampleSuper (extent : Extent) :
    parseGeometry (sampleSuper extent) = .ok sampleGeometry := by
  have hread : parseGeometryAt sampleGeometryBytes 0 = some sampleGeometry := by decide +kernel
  have hfront : (replicate kReservedBytes (0 : UInt8)).length = kPrimaryGeometryOffset :=
    length_replicate
  rw [parseGeometry, sampleSuper, parseGeometryAt_window hfront length_sampleGeometryBytes, hread]

/-- The tables of the sample are parsed from the area alone. -/
theorem parseMetadataAt_sampleSuper {extent : Extent}
    (harea : (sampleArea extent).length = sampleGeometry.metadataMaxSize)
    (hrun : (parseMetadataAt (sampleArea extent) sampleGeometry 0 0).toOption.map
      (fun metadata => (metadata.extents, metadata.blockDevices)) = some ([extent], [sampleDevice])) :
    ∃ metadata, parseMetadataAt (sampleSuper extent) sampleGeometry 0 kPrimaryMetadataOffset
        = .ok metadata ∧
      metadata.extents = [extent] ∧ metadata.blockDevices = [sampleDevice] := by
  obtain ⟨metadata, hmetadata, hfields⟩ := Option.map_eq_some_iff.mp hrun
  obtain ⟨hextents, hdevices⟩ := Prod.mk.inj hfields
  refine ⟨metadata, ?_, hextents, hdevices⟩
  rw [sampleSuper, ← append_assoc, ← append_assoc, parseMetadataAt_window ?_ harea]
  · exact toOption_eq_some_iff.mp hmetadata
  · simp only [length_append, length_replicate, length_sampleGeometryBytes]
    decide

/-- The fetched image is accepted, its geometry included, and its only extent is the sector 2000
of a device of 1024 sectors. -/
theorem strayExtents_accepted :
    parseGeometry (sampleSuper (sampleExtent 1 2000)) = .ok sampleGeometry ∧
      ∃ metadata, parseMetadataAt (sampleSuper (sampleExtent 1 2000)) sampleGeometry 0
          kPrimaryMetadataOffset = .ok metadata ∧
        ¬ ∀ extent ∈ metadata.extents, extent.type = kLinearExtent →
            InRange metadata.blockDevices extent := by
  refine ⟨parseGeometry_sampleSuper _, ?_⟩
  obtain ⟨metadata, hmetadata, hextents, hdevices⟩ := parseMetadataAt_sampleSuper
    (show (sampleArea (sampleExtent 1 2000)).length = _ by decide +kernel) (by decide +kernel)
  refine ⟨metadata, hmetadata, fun hall => ?_⟩
  rw [hextents, hdevices] at hall
  obtain ⟨device, hdevice, -, hend⟩ := hall _ (mem_singleton_self _) rfl
  cases hdevice
  exact absurd hend (by decide)

/-- A partition of eight sectors on its device: both sides hold. -/
theorem settledExtents_inRange :
    ∃ metadata, parseMetadataAt (sampleSuper (sampleExtent 8 16)) sampleGeometry 0
        kPrimaryMetadataOffset = .ok metadata ∧
      metadata.extents = [sampleExtent 8 16] ∧
      (∀ extent ∈ metadata.extents, extent.type = kLinearExtent →
        InRange metadata.blockDevices extent) ∧
      ∀ extent ∈ metadata.extents, extent.type = kLinearExtent →
        StartsInRange metadata.blockDevices extent := by
  obtain ⟨metadata, hmetadata, hextents, hdevices⟩ := parseMetadataAt_sampleSuper
    (show (sampleArea (sampleExtent 8 16)).length = _ by decide +kernel) (by decide +kernel)
  have hstarts : ∀ extent ∈ metadata.extents, extent.type = kLinearExtent →
      StartsInRange metadata.blockDevices extent := by
    rw [hextents, hdevices]
    intro extent hmem _
    cases mem_singleton.mp hmem
    exact ⟨sampleDevice, rfl, by decide⟩
  exact ⟨metadata, hmetadata, hextents, (extents_inRange_iff hmetadata).mpr hstarts, hstarts⟩

end KairosBoot.SuperMetadata
