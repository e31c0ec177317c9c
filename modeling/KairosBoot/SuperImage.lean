import KairosBoot.SuperParsing
import KairosBoot.SuperWriter

/-! # The generated super image is correct

The image the optimizer generates is a sparse file of the size of the block device.  It carries
the geometry of `super_empty.img` twice and the same metadata in every slot; the metadata decodes
to that of `super_empty.img` with one linear extent for the absorbed partition, and at this extent
the expansion has the absorbed image padded with zeros (`optimized_super_correct`).

The bytes of the regions come from the writer (`buildSparseSource_generated`), the decoding of a
slot from the round trip (`slotDecodes_serialize`), and the bounds of the extent from the
allocation (`allocateImages_single`). -/

namespace KairosBoot.SuperOptimizer

open ByteLib Guards List

variable {prepared prepared' : PreparedUpdatePackage} {device : SuperOptimizationDeviceInfo}
  {report : SuperOptimizationReport}

/-! ### Allocation -/

theorem alignUp_le {value alignment alignmentOffset result : ℕ}
    (h : alignUp value alignment alignmentOffset = some result) : value ≤ result := by
  unfold alignUp at h
  split at h
  · cases h
  · have := checkedAdd_eq_some h
    omega

theorem alignUp_zero {value alignment result : ℕ} (h : alignUp value alignment 0 = some result) :
    result % alignment = 0 ∧ value ≤ result ∧ result < value + alignment := by
  unfold alignUp at h
  split at h
  · cases h
  next hpos =>
    have hsum := checkedAdd_eq_some h
    simp only [Nat.zero_mod, Nat.le_zero] at hsum
    have hdiv := Nat.div_add_mod value alignment
    have hmod := Nat.mod_lt value (show 0 < alignment by omega)
    split at hsum
    next hzero =>
      simp only [Nat.sub_self, add_zero, hzero] at hsum
      exact ⟨by rw [hsum, hzero], by omega, by omega⟩
    next hne =>
      have hnext : result = alignment * (value / alignment + 1) := by
        rw [Nat.mul_succ]
        omega
      exact ⟨by rw [hnext]; exact Nat.mul_mod_right _ _, by omega, by omega⟩

/-- The absorbed partition with its one extent. -/
def Partition.withExtent (partition : Partition) : Partition :=
  { partition with firstExtent := 0, extentCount := 1 }

/-- What the allocation of one image says. -/
structure AllocatedImage (metadata : Metadata) (image : SelectedImage) (partition : Partition)
    (placed : SelectedImage) (allocated : Allocation) : Prop where
  images_eq : allocated.images = [placed]
  partitions_eq : allocated.partitions
    = metadata.partitions.set image.partitionIndex partition.withExtent
  source_eq : placed.source = image.source
  imageSize_eq : placed.size = image.size
  size_mod : placed.allocatedSize % metadata.geometry.logicalBlockSize = 0
  size_ge : image.size ≤ placed.allocatedSize
  size_lt : placed.allocatedSize < image.size + metadata.geometry.logicalBlockSize
  first_le : metadata.blockDevice.firstLogicalSector * kSectorSize ≤ placed.physicalOffset
  inside : placed.physicalOffset + placed.allocatedSize ≤ metadata.blockDevice.size
  group_limit : ∀ group, metadata.groups[partition.groupIndex]? = some group →
    group.maximumSize ≠ 0 → placed.allocatedSize ≤ group.maximumSize

variable {metadata : Metadata}

theorem allocateImages_single {image : SelectedImage} {allocated : Allocation}
    (hok : allocateImages metadata [image] = .ok allocated) {partition : Partition}
    (hpart : metadata.partitions[image.partitionIndex]? = some partition) :
    ∃ placed, AllocatedImage metadata image partition placed allocated := by
  have hget : metadata.partitions.getD image.partitionIndex default = partition := by
    rw [getD_eq_getElem?_getD, hpart]
    rfl
  simp only [allocateImages, foldlM_cons, foldlM_nil, allocateImage, bind_eq_ok,
    orFail_eq_ok, failIf_eq_ok, exists_const, hget, Except.ok.injEq] at hok
  obtain ⟨start, hstart, _, ⟨size, hsize, finish, hfin, hfits, groupSize, hgroup, hlim, next,
    -, rfl⟩, hpure⟩ := hok
  cases hpure
  obtain rfl := checkedAdd_eq_some hfin
  have hgroup := checkedAdd_eq_some hgroup
  obtain ⟨hmod, hge, hlt⟩ := alignUp_zero hsize
  refine ⟨_, ⟨rfl, rfl, rfl, rfl, hmod, hge, hlt, alignUp_le hstart, by simpa using hfits, ?_⟩⟩
  intro group hg hne
  rw [getD_eq_getElem?_getD, hg] at hlim
  simp only [Option.getD_some, not_and, not_lt] at hlim
  have := hlim hne
  simp only
  omega

/-! ### The generated file is accepted -/

theorem length_le_totalRecordBlocks {blockSize : ℕ} {records : List ChunkRecord}
    (hw : ∀ r ∈ records, Writable blockSize r) : records.length ≤ totalRecordBlocks records := by
  induction records with
  | nil => simp
  | cons r rs ih =>
      obtain ⟨hr, hrs⟩ := forall_mem_cons.mp hw
      have hpos := hr.wellFormed.blocks_pos hr.kind_ne
      have := ih hrs
      rw [length_cons, totalRecordBlocks_cons]
      omega

theorem Geometry.Bounded.blockSizeOk {geometry : Geometry} (h : geometry.Bounded) :
    BlockSizeOk geometry.logicalBlockSize := by
  have hge := h.block_ge
  have hlt := h.block_lt
  have hmod := h.block_mod
  unfold kSectorSize at hge hmod
  exact ⟨by omega, by omega⟩

section

variable {imageBytes : Bytes} {metadata : Metadata} {selected : List SelectedImage}
  {source : ImageSource} {records : List ChunkRecord}

def superHeader (metadata : Metadata) (records : List ChunkRecord) : SparseHeader :=
  writtenHeader metadata.geometry.logicalBlockSize
    (metadata.blockDevice.size / metadata.geometry.logicalBlockSize) records.length

section

variable (h : GeneratedFile imageBytes metadata selected source records)
  (hbnd : metadata.geometry.Bounded)
include h hbnd

theorem GeneratedFile.blocks_div :
    metadata.blockDevice.size / metadata.geometry.logicalBlockSize = totalRecordBlocks records := by
  rw [← h.blocks_eq, Nat.mul_div_cancel _ hbnd.blockSizeOk.pos]

/-- The optimizer has inspected the file as a sparse image, so it is within the reader's limit on
the number of chunks. -/
theorem GeneratedFile.grammar {artifact : FlashArtifact}
    (hinsp : FlashArtifact.inspect source = .ok artifact) :
    SparseGrammar (encodeFile metadata.geometry.logicalBlockSize
        (metadata.blockDevice.size / metadata.geometry.logicalBlockSize) records) records ∧
      parseHeader (encodeFile metadata.geometry.logicalBlockSize
        (metadata.blockDevice.size / metadata.geometry.logicalBlockSize) records)
        = superHeader metadata records := by
  have hpos := hbnd.blockSizeOk.pos
  have hlt := hbnd.block_lt
  have hmod := hbnd.block_mod
  unfold kSectorSize at hmod
  have hblks := h.blocks_div hbnd
  have htot := h.blocks_lt
  have hcnt := length_le_totalRecordBlocks h.writable
  obtain ⟨hmagic, hhdr⟩ := parseHeader_encodeHeader hlt (hblks ▸ htot)
    (lt_of_le_of_lt hcnt htot) (records.flatMap encodeRecord)
  rw [inspect_of_magic h.holds (by simp [encodeFile, kSparseHeaderSize]; omega) hmagic] at hinsp
  obtain ⟨image, hopen, -⟩ := bind_eq_ok.mp hinsp
  obtain ⟨_, g, -⟩ := (openSparseImage_eq_ok_iff h.holds).mp hopen
  have hlim : records.length ≤ kMaxSparseChunks := by
    have := g.chunk_limit
    rw [encodeFile, hhdr] at this
    exact this
  exact grammar_encodeFile (by omega) (by omega) hlt (hblks ▸ htot) hlim h.writable hblks.symm

theorem GeneratedFile.inspected
    (hlim : metadata.blockDevice.size / metadata.geometry.logicalBlockSize ≤ kMaxSparseChunks) :
    ∃ artifact, FlashArtifact.inspect source = .ok artifact := by
  have hpos := hbnd.blockSizeOk.pos
  have hlt := hbnd.block_lt
  have hmod := hbnd.block_mod
  unfold kSectorSize at hmod
  have hblks := h.blocks_div hbnd
  have htot := h.blocks_lt
  have hcnt := length_le_totalRecordBlocks h.writable
  obtain ⟨hmagic, -⟩ := parseHeader_encodeHeader hlt (hblks ▸ htot)
    (lt_of_le_of_lt hcnt htot) (records.flatMap encodeRecord)
  rw [inspect_of_magic h.holds (by simp [encodeFile, kSparseHeaderSize]; omega) hmagic,
    openSparseImage_encodeFile h.holds (by omega) (by omega) hlt (hblks ▸ htot)
      (hcnt.trans (hblks ▸ hlim)) h.writable hblks.symm]
  exact ⟨_, rfl⟩

/-- The reader accepts the file, and reading it returns windows of its expansion. -/
theorem GeneratedFile.accepted {artifact : FlashArtifact}
    (hinsp : FlashArtifact.inspect source = .ok artifact) :
    ∃ image, openSparseImage source = .ok image ∧
      image.outputSize = metadata.blockDevice.size ∧
      image = imageOf source image.header records ∧
      ∀ offset length, offset + length ≤ metadata.blockDevice.size →
        image.readAt offset length
          = .ok (slice (expandRecords metadata.geometry.logicalBlockSize records) offset length) := by
  obtain ⟨g, hhdr⟩ := h.grammar hbnd hinsp
  have hsize : metadata.blockDevice.size / metadata.geometry.logicalBlockSize *
      metadata.geometry.logicalBlockSize = metadata.blockDevice.size := by
    rw [h.blocks_div hbnd, h.blocks_eq]
  have hmax := (ExpandsTo.sparse g : ExpandsTo source _ _ _).length_le h.holds
  rw [g.length_expandRecords, hhdr] at hmax
  have hread := readAt_imageOf h.holds g
  rw [hhdr] at hread
  refine ⟨imageOf source (superHeader metadata records) records, ?_, hsize, rfl, ?_⟩
  · exact (openSparseImage_eq_ok_iff h.holds).mpr ⟨records, g, by rw [hhdr]⟩
  · intro offset length hle
    have hmax : metadata.blockDevice.size ≤ uint64Max := hsize ▸ hmax
    refine hread offset length ?_ (by omega)
    exact le_trans (Nat.le_of_add_right_le hle) hsize.ge

end

/-- The extent of a placed image is a whole number of sectors. -/
theorem GeneratedFile.extent_aligned {placed : SelectedImage}
    (h : GeneratedFile imageBytes metadata [placed] source records)
    (hbnd : metadata.geometry.Bounded) :
    placed.extent.targetData * kSectorSize = placed.physicalOffset ∧
      placed.extent.sectors * kSectorSize = placed.allocatedSize := by
  have hm : (⟨placed.physicalOffset, placed.allocatedSize, .image placed.source placed.size⟩ :
      OutputRegion) ∈ sortedRegions metadata [placed] := by
    rw [mem_sortedRegions]
    simp [outputRegions]
  have hdvd : kSectorSize ∣ metadata.geometry.logicalBlockSize :=
    Nat.dvd_of_mod_eq_zero hbnd.block_mod
  have hoff := Nat.dvd_of_mod_eq_zero (h.aligned _ hm).offset_mod
  have hsize := Nat.dvd_of_mod_eq_zero (h.aligned _ hm).size_mod
  exact ⟨Nat.div_mul_cancel (hdvd.trans hoff), Nat.div_mul_cancel (hdvd.trans hsize)⟩

/-- A region's bytes stand at its offset in the expansion. -/
theorem GeneratedFile.slice_expand (h : GeneratedFile imageBytes metadata selected source records)
    (region : OutputRegion) (hm : region ∈ outputRegions metadata selected
      (metadataBlock metadata (serializeMetadata metadata selected))) :
    slice (expandRecords metadata.geometry.logicalBlockSize records) region.offset region.size
      = regionData imageBytes region := by
  have hm := mem_sortedRegions.mpr hm
  have hslice := h.laid.slice_paint hm
  rw [Nat.sub_zero, ← h.expands, (h.aligned region hm).backed.length_regionData] at hslice
  exact hslice

end

/-! ### The statement -/

/-- The populated regions: the two copies of the geometry, the metadata slots and the extent. -/
def populated (geometry : Geometry) (extent : Extent) : List (ℕ × ℕ) :=
  [(kPrimaryGeometryOffset, kGeometryRegionSize), (kBackupGeometryOffset, kGeometryRegionSize)] ++
    geometry.slotOffsets.map (fun offset => (offset, geometry.metadataMaxSize)) ++
    [(extent.targetData * kSectorSize, extent.sectors * kSectorSize)]

/-- What is decoded from `super_empty.img` and from the generated file. -/
structure SuperFile where
  geometry : Geometry
  partitions : List Partition
  groups : List Group
  device : BlockDevice
  slot : Bytes
  index : ℕ
  partition : Partition
  group : Group
  extent : Extent
  records : List ChunkRecord

/-- The expanded bytes of the generated file. -/
def SuperFile.expanded (file : SuperFile) : Bytes :=
  expandRecords file.geometry.logicalBlockSize file.records

/-- The generated file carries the image of a partition of `super_empty.img`. -/
structure CorrectSuper (emptySuper imageBytes : Bytes) (partitionName : String)
    (source : ImageSource) (file : SuperFile) : Prop where
  geometry_eq : file.geometry
    = decodeGeometry (slice emptySuper kPrimaryGeometryOffset kGeometryRegionSize)
  empty_decodes : SlotDecodes file.geometry
    (slice emptySuper primaryStart file.geometry.metadataMaxSize) file.partitions [] file.groups
    file.device
  accepted : ∃ image, openSparseImage source = .ok image ∧
    image.outputSize = file.device.size ∧
    image = imageOf source image.header file.records ∧
    ∀ offset length, offset + length ≤ file.device.size →
      image.readAt offset length = .ok (slice file.expanded offset length)
  primary_geometry : slice file.expanded kPrimaryGeometryOffset kGeometryRegionSize
    = slice emptySuper kPrimaryGeometryOffset kGeometryRegionSize
  backup_geometry : slice file.expanded kBackupGeometryOffset kGeometryRegionSize
    = slice emptySuper kBackupGeometryOffset kGeometryRegionSize
  slots_eq : ∀ offset ∈ file.geometry.slotOffsets,
    slice file.expanded offset file.geometry.metadataMaxSize = file.slot
  slot_decodes : SlotDecodes file.geometry file.slot
    (file.partitions.set file.index file.partition.withExtent) [file.extent] file.groups
    file.device
  partition_eq : file.partitions[file.index]? = some file.partition
  name_eq : file.partition.name = partitionName
  linear : file.extent.targetType = 0 ∧ file.extent.targetSource = 0
  contents : ∃ padding < file.geometry.logicalBlockSize,
    slice file.expanded (file.extent.targetData * kSectorSize) (file.extent.sectors * kSectorSize)
      = imageBytes ++ List.replicate padding 0 ∧
    file.extent.sectors * kSectorSize = imageBytes.length + padding ∧
    (imageBytes.length + padding) % file.geometry.logicalBlockSize = 0
  first_le : file.device.firstLogicalSector ≤ file.extent.targetData
  inside : file.extent.targetData * kSectorSize + file.extent.sectors * kSectorSize
    ≤ file.device.size
  group_eq : file.groups[file.partition.groupIndex]? = some file.group
  group_limit : file.group.maximumSize ≠ 0 →
    file.extent.sectors * kSectorSize ≤ file.group.maximumSize
  disjoint : (populated file.geometry file.extent).Pairwise fun a b =>
    a.1 + a.2 ≤ b.1 ∨ b.1 + b.2 ≤ a.1
  backs_iff : ∀ block, Backs file.records block ↔
    ∃ region ∈ populated file.geometry file.extent,
      region.1 ≤ block * file.geometry.logicalBlockSize ∧
        block * file.geometry.logicalBlockSize < region.1 + region.2

/-- The sources of a package are immutable; their reads succeed, possibly short, and the
artifact of `super_empty.img` was inspected from such a source. -/
structure SourcesHold (prepared : PreparedUpdatePackage) : Prop where
  superEmpty : ∀ super ∈ prepared.preparedSuperArtifact, ∀ artifact ∈ super.artifact,
    ∃ source bytes, source.Holds bytes ∧
      FlashArtifact.inspect source = .ok artifact.object.artifact
  images : ∀ artifact ∈ prepared.artifacts, ∀ resolved ∈ artifact.resolved,
    ∀ source ∈ resolved.object.source, ∃ bytes, source.object.Holds bytes

/-- The task at the place of the window flashes an artifact with the given source. -/
def FlashesSource (prepared : PreparedUpdatePackage) (window : ℕ) (source : ImageSource) : Prop :=
  ∃ task artifact resolved address, prepared.plan.tasks[window]? = some task ∧
    task.kind = .flash ∧ artifact ∈ prepared.artifacts ∧ artifact.name = task.artifact ∧
    artifact.resolved = some resolved ∧ resolved.object.source = some ⟨address, source⟩

/-! ### The absorbed image -/

theorem findPartition_eq {name : String} {index : ℕ}
    (h : findPartition metadata name = some index) :
    ∃ partition, metadata.partitions[index]? = some partition ∧ partition.name = name := by
  obtain ⟨hlt, hname, -⟩ := findIdx?_eq_some_iff_getElem.mp h
  exact ⟨_, getElem?_eq_getElem hlt, by simpa using hname⟩

theorem Metadata.Fits.set (h : metadata.Fits) (index : ℕ) {partition : Partition}
    (hpart : partition ∈ metadata.partitions) :
    Metadata.Fits { metadata with
      partitions := metadata.partitions.set index partition.withExtent } where
  version_ok := h.version_ok
  partitions_fit p hp := by
    rcases mem_or_eq_of_mem_set hp with hm | rfl
    · exact h.partitions_fit p hm
    · have hfits := h.partitions_fit partition hpart
      exact ⟨hfits.name_ok, hfits.attributes_lt, Nat.two_pow_pos 32, Nat.one_lt_two_pow (by decide),
        hfits.groupIndex_lt⟩
  groups_fit := h.groups_fit
  device_fits := h.device_fits

theorem map_outputRegions {placed : SelectedImage} (block : Bytes)
    (hoff : placed.extent.targetData * kSectorSize = placed.physicalOffset)
    (hsize : placed.extent.sectors * kSectorSize = placed.allocatedSize) :
    (outputRegions metadata [placed] block).map (fun region => (region.offset, region.size))
      = populated metadata.geometry placed.extent := by
  simp [outputRegions, populated, hoff, hsize]

section

variable {imageBytes : Bytes} {metadata : Metadata} {placed : SelectedImage}
  {source : ImageSource} {records : List ChunkRecord}

section

variable (h : GeneratedFile imageBytes metadata [placed] source records)
include h

theorem GeneratedFile.slice_geometry :
    let expanded := expandRecords metadata.geometry.logicalBlockSize records
    slice expanded kPrimaryGeometryOffset kGeometryRegionSize = metadata.geometry.serialized ∧
    slice expanded kBackupGeometryOffset kGeometryRegionSize = metadata.geometry.serialized ∧
    ∀ offset ∈ metadata.geometry.slotOffsets,
      slice expanded offset metadata.geometry.metadataMaxSize
        = metadataBlock metadata (serializeMetadata metadata [placed]) := by
  refine ⟨?_, ?_, fun offset hm => ?_⟩
  · exact h.slice_expand ⟨kPrimaryGeometryOffset, kGeometryRegionSize, .bytes metadata.geometry.serialized⟩
      (by simp [outputRegions])
  · exact h.slice_expand ⟨kBackupGeometryOffset, kGeometryRegionSize, .bytes metadata.geometry.serialized⟩
      (by simp [outputRegions])
  · exact h.slice_expand ⟨offset, metadata.geometry.metadataMaxSize,
      .bytes (metadataBlock metadata (serializeMetadata metadata [placed]))⟩
      (by simp [outputRegions, hm])

variable (hbnd : metadata.geometry.Bounded)
include hbnd

theorem GeneratedFile.slice_image :
    slice (expandRecords metadata.geometry.logicalBlockSize records)
        (placed.extent.targetData * kSectorSize) (placed.extent.sectors * kSectorSize)
      = imageBytes ++ replicate (placed.allocatedSize - imageBytes.length) 0 := by
  obtain ⟨hoff, hsize⟩ := h.extent_aligned hbnd
  have hslice := h.slice_expand ⟨placed.physicalOffset, placed.allocatedSize,
    .image placed.source placed.size⟩ (by simp [outputRegions])
  rw [hoff, hsize]
  exact hslice

theorem GeneratedFile.disjoint : (populated metadata.geometry placed.extent).Pairwise fun a b =>
      a.1 + a.2 ≤ b.1 ∨ b.1 + b.2 ≤ a.1 := by
  obtain ⟨hoff, hsize⟩ := h.extent_aligned hbnd
  rw [← map_outputRegions (metadataBlock metadata (serializeMetadata metadata [placed])) hoff
    hsize, pairwise_map]
  have hsorted : (sortedRegions metadata [placed]).Pairwise fun a b =>
      a.offset + a.size ≤ b.offset ∨ b.offset + b.size ≤ a.offset :=
    h.laid.pairwise.imp_of_mem fun hm _ hle => by
      rw [(h.aligned _ hm).backed.length_regionData] at hle
      exact Or.inl hle
  exact ((perm_insertionSort _ _).pairwise_iff fun hab => hab.symm).mp hsorted

/-- A block is carried by the file exactly when it lies in a populated region. -/
theorem GeneratedFile.backs_populated (block : ℕ) :
    Backs records block ↔ ∃ region ∈ populated metadata.geometry placed.extent,
      region.1 ≤ block * metadata.geometry.logicalBlockSize ∧
        block * metadata.geometry.logicalBlockSize < region.1 + region.2 := by
  obtain ⟨hoff, hsize⟩ := h.extent_aligned hbnd
  rw [h.backs, ← map_outputRegions (metadataBlock metadata (serializeMetadata metadata [placed]))
    hoff hsize]
  simp only [mem_sortedRegions, Covers, mem_map, exists_exists_and_eq_and]

end

end

section

variable {emptySuper imageBytes : Bytes} {metadata : Metadata} {window : ℕ}
  {currentSlot : String} {absorbed : List String} {source : ImageSource} {artifact : FlashArtifact}

theorem regions_backed (hpars : ParsedSuper emptySuper metadata) {image placed : SelectedImage}
    {partition : Partition} {allocated : Allocation}
    (hplc : AllocatedImage metadata image partition placed allocated)
    (hsize : image.size = image.source.size) (hhold : image.source.Holds imageBytes)
    (metadata' : Metadata) (hgeo : metadata'.geometry = metadata.geometry)
    (hser : (serializeMetadata metadata' [placed]).length ≤ metadata'.geometry.metadataMaxSize) :
    ∀ region ∈ outputRegions metadata' [placed]
      (metadataBlock metadata' (serializeMetadata metadata' [placed])),
      RegionBacked imageBytes region := by
  have hlen := hpars.geometry.length_serialized
  rw [← hgeo] at hlen
  have hblk : (metadataBlock metadata' (serializeMetadata metadata' [placed])).length
      = metadata'.geometry.metadataMaxSize := by
    simp only [metadataBlock, length_append, length_replicate]
    omega
  intro region hm
  simp only [outputRegions, mem_append, mem_cons, not_mem_nil, or_false, mem_map] at hm
  rcases hm with ((rfl | rfl) | ⟨offset, -, rfl⟩) | ⟨_, rfl, rfl⟩
  · exact hlen
  · exact hlen
  · exact hblk
  · have hsrc := hplc.source_eq
    have himage := hplc.imageSize_eq
    have hge := hplc.size_ge
    have hbytes := hhold.size_eq
    exact ⟨hsrc ▸ hhold, by omega, by simp only; omega⟩

/-- The metadata with the extent of the absorbed partition. -/
def absorbedMetadata (metadata : Metadata) (index : ℕ) (partition : Partition) : Metadata :=
  { metadata with partitions := metadata.partitions.set index partition.withExtent }

theorem correctSuper_of_absorbed (hpars : ParsedSuper emptySuper metadata)
    (a : Absorbed prepared metadata window currentSlot absorbed source)
    (hhold : a.image.source.Holds imageBytes)
    (hinsp : FlashArtifact.inspect source = .ok artifact) :
    ∃ file, CorrectSuper emptySuper imageBytes a.image.partitionName source file := by
  obtain ⟨partition, hpart, hname⟩ := findPartition_eq a.partition_eq
  have hmem := mem_of_getElem? hpart
  have hidx := hpars.groupIndex_lt partition hmem
  obtain ⟨placed, hplc⟩ := allocateImages_single a.allocated_eq hpart
  have hblt : buildSparseSource (absorbedMetadata metadata a.image.partitionIndex partition)
      [placed] = .ok source := by
    have := a.built
    rwa [hplc.images_eq, hplc.partitions_eq] at this
  have hfits : (absorbedMetadata metadata a.image.partitionIndex partition).Fits :=
    hpars.fits.set _ hmem
  have hbnd := hpars.geometry.bounded
  have hser := buildSparseSource_serialized hblt
  have hbacked := regions_backed hpars hplc a.size_eq hhold
    (absorbedMetadata metadata a.image.partitionIndex partition) rfl hser
  obtain ⟨records, hfile⟩ := buildSparseSource_generated hblt hbnd.blockSizeOk hbacked
  obtain ⟨hoff, hsize⟩ := hfile.extent_aligned hbnd
  obtain ⟨hprim, hbkup, hslots⟩ := hfile.slice_geometry
  have hserGeo : metadata.geometry.serialized
      = slice emptySuper kPrimaryGeometryOffset kGeometryRegionSize := by
    rw [hpars.geometry.geometry_eq]
    rfl
  have himages : ∀ image ∈ [placed],
      image.allocatedSize < 2 ^ 64 ∧ image.physicalOffset < 2 ^ 64 := by
    intro image hm
    obtain rfl := mem_singleton.mp hm
    have := hpars.fits.device_fits.size_lt
    have := hplc.inside
    omega
  have hdecodes := slotDecodes_serialize hfits himages hser (lt_of_le_of_lt hbnd.max_le (by decide))
  refine ⟨{
    geometry := metadata.geometry, partitions := metadata.partitions, groups := metadata.groups
    device := metadata.blockDevice
    slot := metadataBlock (absorbedMetadata metadata a.image.partitionIndex partition)
      (serializeMetadata (absorbedMetadata metadata a.image.partitionIndex partition) [placed])
    index := a.image.partitionIndex, partition := partition
    group := metadata.groups.get ⟨partition.groupIndex, hidx⟩
    extent := placed.extent, records := records }, ?_⟩
  constructor
  case geometry_eq => exact hpars.geometry.geometry_eq
  case empty_decodes => exact hpars.decodes
  case accepted => exact hfile.accepted hbnd hinsp
  case primary_geometry => rw [← hserGeo]; exact hprim
  case backup_geometry =>
    rw [hpars.geometry.backup_eq, ← hserGeo]
    exact hbkup
  case slots_eq => exact hslots
  case slot_decodes =>
    exact hdecodes
  case partition_eq => exact hpart
  case name_eq => exact hname
  case linear => exact ⟨rfl, rfl⟩
  case contents =>
    have hge := hplc.size_ge
    have hlt := hplc.size_lt
    have hmod := hplc.size_mod
    rw [a.size_eq, hhold.size_eq] at hge hlt
    refine ⟨placed.allocatedSize - imageBytes.length, by simp only; omega,
      hfile.slice_image hbnd, by simp only; omega, ?_⟩
    rw [Nat.add_sub_cancel' hge]
    exact hmod
  case first_le =>
    have hfst := hplc.first_le
    rw [← hoff] at hfst
    exact Nat.le_of_mul_le_mul_right hfst (by decide)
  case inside =>
    simp only [hoff, hsize]
    exact hplc.inside
  case group_eq => exact getElem?_eq_getElem hidx
  case group_limit =>
    simp only [hsize]
    exact hplc.group_limit _ (getElem?_eq_getElem hidx)
  case disjoint => exact hfile.disjoint hbnd
  case backs_iff => exact hfile.backs_populated hbnd

end

/-! ### The package -/

/-- The expanded bytes of the `super_empty.img` of a package. -/
def HasEmptySuper (prepared : PreparedUpdatePackage) (device : SuperOptimizationDeviceInfo)
    (emptySuper : Bytes) : Prop :=
  ∃ artifact source bytes, superArtifact prepared device = .ok artifact ∧ source.Holds bytes ∧
    ExpandsTo source bytes artifact emptySuper

/-- The flash right after the window's reboot and update-super has the given image. -/
def FlashesImage (prepared : PreparedUpdatePackage) (window : ℕ) (imageBytes : Bytes) : Prop :=
  ∃ task image, prepared.plan.tasks[window + 2]? = some task ∧
    (findArtifact prepared task.artifact).bind rawSource = some image ∧ image.Holds imageBytes

theorem SourcesHold.hasEmptySuper (h : SourcesHold prepared) {artifact : FlashArtifact}
    (hartifact : superArtifact prepared device = .ok artifact) :
    ∃ source bytes emptySuper, source.Holds bytes ∧ ExpandsTo source bytes artifact emptySuper := by
  unfold superArtifact at hartifact
  split at hartifact
  next shared hshared =>
    split at hartifact
    · cases hartifact
    · cases hartifact
      obtain ⟨super, hsuper, hart⟩ := Option.bind_eq_some_iff.mp hshared
      obtain ⟨source, bytes, hhold, hinsp⟩ := h.superEmpty super hsuper shared hart
      obtain ⟨emptySuper, hexpd⟩ := inspect_expandsTo hhold hinsp
      exact ⟨source, bytes, emptySuper, hhold, hexpd⟩
  · cases hartifact

theorem SourcesHold.rawSource_holds (h : SourcesHold prepared) {name : String}
    {image : ImageSource} (himage : (findArtifact prepared name).bind rawSource = some image) :
    ∃ bytes, image.Holds bytes := by
  obtain ⟨artifact, hfound, hraw⟩ := Option.bind_eq_some_iff.mp himage
  unfold rawSource at hraw
  split at hraw
  next flash source _ hsrc =>
    split at hraw
    · cases hraw
      obtain ⟨resolved, hresol, hsrc⟩ := Option.bind_eq_some_iff.mp hsrc
      exact h.images artifact (mem_of_find?_eq_some hfound) resolved hresol source hsrc
    · cases hraw
  · cases hraw

/-- The rewritten package flashes the generated source at the place of the window. -/
theorem rewritePackage_flashes {window : ℕ} (hlen : window ≤ prepared.plan.tasks.length)
    (superPartition : String) (source : ImageSource) (digest : Bytes) (artifact : FlashArtifact) :
    FlashesSource (rewritePackage prepared window superPartition source digest artifact) window
      source :=
  ⟨superFlashTask prepared.plan.tasks window superPartition (uniqueOptimizedName prepared), _, _, _,
    rewriteTasks_window hlen, rfl, mem_append_right _ mem_cons_self, rfl, rfl, rfl⟩

/-- **The generated super image is correct.**  When the optimizer reports success, the task at
the place of its window flashes a sparse image that carries the image of the absorbed flash. -/
theorem optimized_super_correct (hsources : SourcesHold prepared)
    (hok : optimizePreparedSuper prepared device = .ok (report, prepared'))
    (hopt : report.optimized = true) :
    ∃ window emptySuper imageBytes partitionName source file,
      findOptimizationWindow prepared = some window ∧
      HasEmptySuper prepared device emptySuper ∧
      FlashesImage prepared window imageBytes ∧
      report.absorbedPartitions = [partitionName] ∧
      FlashesSource prepared' window source ∧
      CorrectSuper emptySuper imageBytes partitionName source file := by
  obtain ⟨o⟩ := optimizePreparedSuper_optimized hok hopt
  obtain ⟨a⟩ := generateSuper_absorbed o.generated
  obtain ⟨superSource, superBytes, emptySuper, hholds, hexpands⟩ :=
    hsources.hasEmptySuper o.superEmpty_eq
  obtain ⟨imageBytes, himage⟩ := hsources.rawSource_holds a.source_eq
  have hparsed := superMetadata_parsed hholds hexpands o.metadata_eq
  obtain ⟨file, hfile⟩ := correctSuper_of_absorbed hparsed a himage o.inspected
  have hwindow := o.window_lt
  have hflashes := rewritePackage_flashes (show o.window ≤ prepared.plan.tasks.length by omega)
    device.superPartition o.source o.digest o.artifact
  exact ⟨o.window, emptySuper, imageBytes, a.image.partitionName, o.source, file, o.window_eq,
    ⟨_, _, _, o.superEmpty_eq, hholds, hexpands⟩, ⟨_, _, a.task_eq, a.source_eq, himage⟩,
    a.absorbed_eq, (congrArg (FlashesSource · o.window o.source) o.package_eq).mpr hflashes, hfile⟩

/-! ### A package with two logical flashes -/

/-- An LP layout of one 512-byte slot with two empty partitions of slot a, and room for two
blocks after the metadata. -/
def sampleMetadata : Metadata where
  geometry := ⟨512, 1, 512, geometryRegion ⟨512, 1, 512, []⟩⟩
  minorVersion := 0
  headerSize := 128
  flags := 0
  partitions := [⟨"system_a", 1, 0, 0, 0⟩, ⟨"vendor_a", 1, 0, 0, 0⟩]
  groups := [⟨"default", 0, 0⟩]
  blockDevice := ⟨26, 0, 0, 14336, "super", 0⟩

def sampleSlot : Bytes := metadataBlock sampleMetadata (serializeMetadata sampleMetadata [])

def sampleSuperEmpty : Bytes :=
  List.replicate 4096 0 ++ (sampleMetadata.geometry.serialized ++
    (sampleMetadata.geometry.serialized ++ (sampleSlot ++ (sampleSlot ++ List.replicate 1024 0))))

instance (name : String) : Decidable (NameOk name) :=
  decidable_of_iff (name.toList ≠ [] ∧ name.toList.length < 36 ∧
    name.toList.all validNameCharacter = true)
    ⟨fun h => ⟨h.1, h.2.1, List.all_eq_true.mp h.2.2⟩,
      fun h => ⟨h.ne_nil, h.length_lt, List.all_eq_true.mpr h.valid⟩⟩

theorem sampleMetadata_fits : sampleMetadata.Fits where
  version_ok := Or.inl ⟨by decide, rfl⟩
  partitions_fit := by
    intro p hp
    simp only [sampleMetadata, mem_cons, not_mem_nil, or_false] at hp
    rcases hp with rfl | rfl
    · exact ⟨by decide, by decide, by decide, by decide, by decide⟩
    · exact ⟨by decide, by decide, by decide, by decide, by decide⟩
  groups_fit := by
    intro g hg
    obtain rfl := mem_singleton.mp hg
    exact ⟨by decide, by decide, by decide⟩
  device_fits := ⟨by decide, by decide, by decide, by decide, by decide, by decide⟩

theorem sampleMetadata_bounded : sampleMetadata.geometry.Bounded :=
  ⟨by decide, by decide, by decide, by decide, by decide, by decide⟩

theorem length_sampleRegion : sampleMetadata.geometry.serialized.length = 4096 := by decide +kernel

theorem length_sampleSlot : sampleSlot.length = 512 := by decide +kernel

theorem length_sampleSuperEmpty : sampleSuperEmpty.length = 14336 := by
  simp only [sampleSuperEmpty, length_append, length_replicate, length_sampleRegion,
    length_sampleSlot]

def sampleSuperSource : ImageSource :=
  ImageSource.ofBytes sampleSuperEmpty (by rw [length_sampleSuperEmpty]; decide)

theorem readExpanded_sample {offset length : ℕ} (h : offset + length ≤ 14336) :
    readExpanded (FlashArtifact.ofRaw sampleSuperSource) offset length
      = .ok (slice sampleSuperEmpty offset length) :=
  readExpanded_of_le (ImageSource.holds_ofBytes _ _) .raw (by rwa [length_sampleSuperEmpty])

theorem expandedSize_sample :
    (FlashArtifact.ofRaw sampleSuperSource).metadata.expandedSize = 14336 :=
  length_sampleSuperEmpty

theorem parseGeometry_sample :
    parseGeometry (FlashArtifact.ofRaw sampleSuperSource) = .ok sampleMetadata.geometry := by
  have hprimary : slice sampleSuperEmpty kPrimaryGeometryOffset kGeometryRegionSize
      = sampleMetadata.geometry.serialized :=
    slice_middle (by rw [length_replicate]; rfl) length_sampleRegion
  have hbackup : slice sampleSuperEmpty kBackupGeometryOffset kGeometryRegionSize
      = sampleMetadata.geometry.serialized := by
    rw [sampleSuperEmpty, ← append_assoc]
    exact slice_middle (by rw [length_append, length_replicate, length_sampleRegion]; rfl)
      length_sampleRegion
  rw [parseGeometry, expandedSize_sample, failIf_bind_of_not (by decide),
    readExpanded_sample (by decide), ok_bind, readExpanded_sample (by decide), ok_bind, hprimary,
    hbackup, failIf_bind_of_not, failIf_bind_of_not (by decide +kernel),
    failIf_bind_of_not (by decide +kernel)]
  · simp only
    rw [failIf_bind_of_not (by decide +kernel)]
    rfl
  · rw [not_or]
    exact ⟨not_not_intro rfl, by decide +kernel⟩

theorem readMetadataCopy_sample {offset : ℕ} (h : offset ∈ sampleMetadata.geometry.slotOffsets) :
    readMetadataCopy (FlashArtifact.ofRaw sampleSuperSource) sampleMetadata.geometry offset
      = .ok sampleSlot := by
  have hoff : offset = 12288 ∨ offset = 12800 := by
    simpa [Geometry.slotOffsets, Geometry.slotBytes, sampleMetadata, primaryStart,
      kBackupGeometryOffset, kPrimaryGeometryOffset, kReservedBytes, kGeometryRegionSize,
      range_succ] using h
  have hsize : sampleMetadata.geometry.metadataMaxSize = 512 := rfl
  rw [readMetadataCopy, expandedSize_sample, hsize]
  rcases hoff with rfl | rfl
  · rw [failIf_bind_of_not (by decide), readExpanded_sample (by decide), sampleSuperEmpty,
      ← append_assoc, ← append_assoc, slice_middle _ length_sampleSlot]
    simp only [length_append, length_replicate, length_sampleRegion]
  · rw [failIf_bind_of_not (by decide), readExpanded_sample (by decide), sampleSuperEmpty,
      ← append_assoc, ← append_assoc, ← append_assoc, slice_middle _ length_sampleSlot]
    simp only [length_append, length_replicate, length_sampleRegion, length_sampleSlot]

theorem superMetadata_sample :
    superMetadata (FlashArtifact.ofRaw sampleSuperSource) = .ok (some sampleMetadata) := by
  have hcopies : sampleMetadata.geometry.slotOffsets.forM (checkCopy
      (FlashArtifact.ofRaw sampleSuperSource) sampleMetadata.geometry sampleSlot) = .ok () := by
    refine forM_eq_ok_iff.mpr fun offset hm => ?_
    rw [checkCopy, readMetadataCopy_sample hm, ok_bind]
    exact failIf_eq_ok.mpr (not_not_intro rfl)
  -- every table of the slot, by evaluation
  have hslot : checkSlot sampleMetadata.geometry sampleSlot = .ok () :=
    toOption_eq_some_iff.mp (by decide +kernel)
  have hdescriptors : checkDescriptors sampleSlot = .ok () :=
    toOption_eq_some_iff.mp (by decide +kernel)
  generalize htables : slice sampleSlot (readU32 sampleSlot 8) (readU32 sampleSlot 44) = tables
  have hparts : (tableRecords tables (descriptor sampleSlot 80)).foldlM
      (parsePartition (descriptor sampleSlot 104).count) [] = .ok sampleMetadata.partitions :=
    toOption_eq_some_iff.mp (by rw [← htables]; decide +kernel)
  have hgroups : (tableRecords tables (descriptor sampleSlot 104)).foldlM parseGroup []
      = .ok sampleMetadata.groups := toOption_eq_some_iff.mp (by rw [← htables]; decide +kernel)
  have hdevice : decodeBlockDevice (slice tables (descriptor sampleSlot 116).offset
      (descriptor sampleSlot 116).entrySize) = .ok sampleMetadata.blockDevice :=
    toOption_eq_some_iff.mp (by rw [← htables]; decide +kernel)
  have hheader : readU32 sampleSlot 8 = 128 ∧ readU16 sampleSlot 6 = 0 := by decide +kernel
  rw [superMetadata, parseGeometry_sample, ok_bind, parseMetadata,
    readMetadataCopy_sample (by decide +kernel), ok_bind, failIf_bind_of_not (by decide), hcopies,
    ok_bind, hslot, ok_bind, hdescriptors, ok_bind]
  dsimp only
  rw [htables, hparts, ok_bind, hgroups, ok_bind, hdevice, ok_bind, expandedSize_sample, hheader.1,
    hheader.2]
  rfl

def sampleImage : ImageSource := ImageSource.ofBytes [1, 2, 3] (by decide)

def sampleArtifact (name : String) (address : ℕ) : PreparedUpdateArtifact where
  name := name
  resolved := some ⟨address, ⟨some ⟨address + 1, sampleImage⟩, [], .directFile, name⟩⟩
  artifact := some ⟨address + 2, ⟨address + 1, FlashArtifact.ofRaw sampleImage⟩⟩

/-- A reboot to fastboot, update-super and the flashes of two logical partitions. -/
def samplePackage : PreparedUpdatePackage where
  plan := { tasks := [
    { kind := .reboot, rebootTarget := .fastboot },
    { kind := .updateSuper },
    { partition := "system", artifact := "system.img" },
    { partition := "vendor", artifact := "vendor.img" }] }
  artifacts := [sampleArtifact "system.img" 10, sampleArtifact "vendor.img" 20]
  updateSuperState := .prepared
  preparedSuperArtifact := some {
    resolved := none
    artifact := some ⟨1, ⟨0, FlashArtifact.ofRaw sampleSuperSource⟩⟩ }
  requiresDeviceValidation := false

def sampleDevice : SuperOptimizationDeviceInfo := ⟨"super", "a", 14336⟩

theorem samplePackage_sources : SourcesHold samplePackage where
  superEmpty super hsuper artifact hart := by
    cases hsuper
    cases hart
    have hhold : sampleSuperSource.Holds sampleSuperEmpty := ImageSource.holds_ofBytes _ _
    have hmagic : slice sampleSuperEmpty 0 4 = replicate 4 0 := by
      rw [sampleSuperEmpty, slice_append_left (by rw [length_replicate]; decide),
        slice_replicate 0 (by decide)]
    refine ⟨sampleSuperSource, sampleSuperEmpty, hhold, ?_⟩
    rw [FlashArtifact.inspect, if_neg (by rw [hhold.size_eq, length_sampleSuperEmpty]; decide),
      readExact_of_le hhold (by rw [length_sampleSuperEmpty]; decide), ok_bind, hmagic,
      if_pos (by decide)]
  images artifact hm resolved hresol source hsrc := by
    simp only [samplePackage, mem_cons, not_mem_nil, or_false] at hm
    rcases hm with rfl | rfl
    · cases hresol
      cases hsrc
      exact ⟨_, ImageSource.holds_ofBytes _ _⟩
    · cases hresol
      cases hsrc
      exact ⟨_, ImageSource.holds_ofBytes _ _⟩

def sampleSelected : SelectedImage where
  taskIndex := 2
  partitionIndex := 0
  partitionName := "system_a"
  source := sampleImage
  size := 3

def samplePlaced : SelectedImage :=
  { sampleSelected with allocatedSize := 512, physicalOffset := 13312 }

def sampleAllocation : Allocation where
  allocation := 13824
  groupSizes := [512]
  partitions := [⟨"system_a", 1, 0, 1, 0⟩, ⟨"vendor_a", 1, 0, 0, 0⟩]
  images := [samplePlaced]

def sampleAbsorbed : Metadata := { sampleMetadata with partitions := sampleAllocation.partitions }

def sampleWriter : SparseWriter :=
  encodeRegions 512 14336 (sortedRegions sampleAbsorbed [samplePlaced])

def sampleSource : ImageSource :=
  (sampleWriter.toSource 512 28).toImageSource (by decide +kernel)

theorem sampleAbsorbed_fits : sampleAbsorbed.Fits :=
  sampleMetadata_fits.set 0 (by decide : (⟨"system_a", 1, 0, 0, 0⟩ : Partition) ∈ _)

theorem buildSparseSource_sample :
    buildSparseSource sampleAbsorbed [samplePlaced] = .ok sampleSource := by
  have hser : (serializeMetadata sampleAbsorbed [samplePlaced]).length = 368 := by
    rw [length_serializeMetadata sampleAbsorbed_fits]
    rfl
  rw [buildSparseSource]
  simp only [hser]
  rw [failIf_bind_of_not (by decide), failIf_bind_of_not (by decide)]
  have hregs : checkRegions sampleAbsorbed.geometry.logicalBlockSize 0
      (sortedRegions sampleAbsorbed [samplePlaced]) = .ok 13824 := rfl
  rw [hregs, ok_bind, failIf_bind_of_not (by decide), failIf_bind_of_not]
  · exact dif_pos _
  · exact not_not_intro rfl

theorem generateSuper_sample : generateSuper samplePackage sampleMetadata 0 "a"
    = .ok (some (["system_a"], sampleSource)) := by
  have hsel : selectImages samplePackage sampleMetadata "a" [0 + 2] []
      = .ok (some [sampleSelected]) := rfl
  have halloc : allocateImages sampleMetadata [sampleSelected] = .ok sampleAllocation := rfl
  have hbuild : buildSparseSource { sampleMetadata with partitions := sampleAllocation.partitions }
      sampleAllocation.images = .ok sampleSource := buildSparseSource_sample
  rw [generateSuper, hsel, ok_bind]
  simp only [halloc, ok_bind]
  rw [hbuild, ok_bind]
  rfl

theorem sampleSource_generated :
    ∃ records, GeneratedFile [1, 2, 3] sampleAbsorbed [samplePlaced] sampleSource records := by
  have halloc : allocateImages sampleMetadata [sampleSelected] = .ok sampleAllocation := rfl
  have hpart : sampleMetadata.partitions[sampleSelected.partitionIndex]?
      = some ⟨"system_a", 1, 0, 0, 0⟩ := rfl
  have hpars := superMetadata_parsed (ImageSource.holds_ofBytes _ _) .raw superMetadata_sample
  obtain ⟨placed, hplc⟩ := allocateImages_single halloc hpart
  obtain rfl : samplePlaced = placed := singleton_inj.mp hplc.images_eq
  exact buildSparseSource_generated buildSparseSource_sample sampleMetadata_bounded.blockSizeOk
    (regions_backed hpars hplc rfl (ImageSource.holds_ofBytes [1, 2, 3] (by decide))
      sampleAbsorbed rfl (buildSparseSource_serialized buildSparseSource_sample))

theorem sampleSource_size : sampleSource.size ≤ kSha256MaxInputSize := by decide +kernel

/-- The optimizer absorbs the first flash of the package. -/
theorem samplePackage_optimized :
    ∃ prepared', optimizePreparedSuper samplePackage sampleDevice
      = .ok (⟨true, ["system_a"]⟩, prepared') := by
  obtain ⟨records, hfile⟩ := sampleSource_generated
  obtain ⟨artifact, hinsp⟩ := hfile.inspected sampleMetadata_bounded (by decide)
  obtain ⟨chunks, -, hdig⟩ := computeSha256_eq hfile.holds (hfile.holds.size_eq ▸ sampleSource_size)
  exact ⟨_, optimizePreparedSuper_of_steps (by decide : _ = some 0) rfl superMetadata_sample rfl rfl
    (by decide) generateSuper_sample hinsp hdig⟩

/-- The generated image of the sample package. -/
theorem samplePackage_super_correct : SourcesHold samplePackage ∧
    ∃ prepared', optimizePreparedSuper samplePackage sampleDevice
        = .ok (⟨true, ["system_a"]⟩, prepared') ∧
      ∃ window emptySuper imageBytes partitionName source file,
        findOptimizationWindow samplePackage = some window ∧
        HasEmptySuper samplePackage sampleDevice emptySuper ∧
        FlashesImage samplePackage window imageBytes ∧
        ["system_a"] = [partitionName] ∧
        FlashesSource prepared' window source ∧
        CorrectSuper emptySuper imageBytes partitionName source file := by
  obtain ⟨prepared', hok⟩ := samplePackage_optimized
  exact ⟨samplePackage_sources, prepared', hok,
    optimized_super_correct samplePackage_sources hok rfl⟩

end KairosBoot.SuperOptimizer
