import KairosBoot.SuperSlot
import KairosBoot.SuperRuns

/-! # What the parser has read from super_empty.img

`ParsedSuper expanded metadata` collects what a successful parse says about the expanded bytes of
`super_empty.img` (`superMetadata_parsed`): where the geometry and the metadata slots are, that
the slots agree, and that the tables of a slot decode to the metadata. -/

namespace KairosBoot.SuperOptimizer

open ByteLib Guards List

variable {source : ImageSource} {bytes expanded : Bytes} {artifact : FlashArtifact}

/-! ### The expanded view -/

theorem serves_imageOf (h : source.Holds bytes) {records : List ChunkRecord}
    (g : SparseGrammar bytes records) :
    Serves (imageOf source (parseHeader bytes) records).readAt
      (expandRecords (parseHeader bytes).blockSize records) := by
  intro off len hlen hle
  have hmax := (ExpandsTo.sparse g : ExpandsTo source bytes _ _).length_le h
  refine ⟨len, hlen, le_rfl, readAt_imageOf h g off len ?_ (by omega)⟩
  rw [← g.length_expandRecords]
  omega

/-! ### The geometry -/

/-- The fields of a geometry region. -/
def decodeGeometry (region : Bytes) : Geometry :=
  ⟨readU32 region 40, readU32 region 44, readU32 region 48, region⟩

/-- The bounds the parser puts on a geometry. -/
structure Geometry.Bounded (geometry : Geometry) : Prop where
  max_ge : kHeaderV10Size ≤ geometry.metadataMaxSize
  max_le : geometry.metadataMaxSize ≤ kMaximumMetadataSize
  slots_pos : 0 < geometry.metadataSlotCount
  block_ge : kSectorSize ≤ geometry.logicalBlockSize
  block_lt : geometry.logicalBlockSize < 2 ^ 32
  block_mod : geometry.logicalBlockSize % kSectorSize = 0

/-- What a successful parse of the geometry says. -/
structure ParsedGeometry (expanded : Bytes) (geometry : Geometry) : Prop where
  inside : kBackupGeometryOffset + kGeometryRegionSize ≤ expanded.length
  geometry_eq : geometry
    = decodeGeometry (slice expanded kPrimaryGeometryOffset kGeometryRegionSize)
  backup_eq : slice expanded kBackupGeometryOffset kGeometryRegionSize
    = slice expanded kPrimaryGeometryOffset kGeometryRegionSize
  bounded : geometry.Bounded

variable {geometry : Geometry} {metadata : Metadata}

theorem ParsedGeometry.length_serialized (h : ParsedGeometry expanded geometry) :
    geometry.serialized.length = kGeometryRegionSize := by
  rw [h.geometry_eq]
  refine length_slice ?_
  have := h.inside
  unfold kBackupGeometryOffset at this
  omega

/-! ### The tables -/

theorem decodePartition_fits {record : Bytes} (hlen : record.length = kPartitionEntrySize)
    {p : Partition} (hok : decodePartition record = .ok p) : p.Fits := by
  simp only [decodePartition, bind_eq_ok, Except.ok.injEq] at hok
  obtain ⟨name, hname, rfl⟩ := hok
  exact ⟨readName_ok (length_slice (by rw [hlen]; decide)) hname, readU32_lt _ _, readU32_lt _ _,
    readU32_lt _ _, readU32_lt _ _⟩

theorem decodeGroup_fits {record : Bytes} (hlen : record.length = kGroupEntrySize)
    {g : Group} (hok : decodeGroup record = .ok g) : g.Fits := by
  simp only [decodeGroup, bind_eq_ok, Except.ok.injEq] at hok
  obtain ⟨name, hname, rfl⟩ := hok
  exact ⟨readName_ok (length_slice (by rw [hlen]; decide)) hname, readU32_lt _ _, readU64_lt _ _⟩

theorem decodeBlockDevice_fits {record : Bytes} (hlen : record.length = kBlockDeviceEntrySize)
    {d : BlockDevice} (hok : decodeBlockDevice record = .ok d) : d.Fits := by
  simp only [decodeBlockDevice, bind_eq_ok, Except.ok.injEq] at hok
  obtain ⟨name, hname, rfl⟩ := hok
  exact ⟨readU64_lt _ _, readU32_lt _ _, readU32_lt _ _, readU64_lt _ _,
    readName_ok (length_slice (by rw [hlen]; decide)) hname, readU32_lt _ _⟩

/-- The partition loop decodes the records and checks the group indices. -/
theorem foldlM_parsePartition {groupCount : ℕ} {table : List Bytes} {parsed result : List Partition}
    (hok : table.foldlM (parsePartition groupCount) parsed = .ok result) :
    ∃ decoded, table.mapM decodePartition = .ok decoded ∧ result = parsed ++ decoded ∧
      ∀ p ∈ decoded, p.groupIndex < groupCount := by
  refine foldlM_decoded (fun hstep => ?_) hok
  simp only [parsePartition, bind_eq_ok, failIf_eq_ok, exists_const, Except.ok.injEq] at hstep
  obtain ⟨p, hp, -, hchks, rfl⟩ := hstep
  push Not at hchks
  exact ⟨p, hp, rfl, hchks.2.2.2⟩

theorem foldlM_parseGroup {table : List Bytes} {parsed result : List Group}
    (hok : table.foldlM parseGroup parsed = .ok result) :
    ∃ decoded, table.mapM decodeGroup = .ok decoded ∧ result = parsed ++ decoded := by
  obtain ⟨decoded, hdec, hres, -⟩ := foldlM_decoded (P := fun _ => True) (by
    intro parsed record next hstep
    simp only [parseGroup, bind_eq_ok, failIf_eq_ok, exists_const, Except.ok.injEq] at hstep
    obtain ⟨g, hg, -, rfl⟩ := hstep
    exact ⟨g, hg, rfl, trivial⟩) hok
  exact ⟨decoded, hdec, hres⟩

/-! ### The metadata -/

/-- What a successful parse says about the expanded bytes. -/
structure ParsedSuper (expanded : Bytes) (metadata : Metadata) : Prop where
  geometry : ParsedGeometry expanded metadata.geometry
  slots_eq : ∀ offset ∈ metadata.geometry.slotOffsets,
    slice expanded offset metadata.geometry.metadataMaxSize
      = slice expanded primaryStart metadata.geometry.metadataMaxSize
  decodes : SlotDecodes metadata.geometry
    (slice expanded primaryStart metadata.geometry.metadataMaxSize) metadata.partitions []
    metadata.groups metadata.blockDevice
  fits : metadata.Fits
  groupIndex_lt : ∀ p ∈ metadata.partitions, p.groupIndex < metadata.groups.length
  size_eq : metadata.blockDevice.size = expanded.length

theorem checkSlot_version {slot : Bytes} (hok : checkSlot geometry slot = .ok ()) :
    ((readU16 slot 6 < 2 ∧ readU32 slot 8 = kHeaderV10Size) ∨
      (readU16 slot 6 = 2 ∧ readU32 slot 8 = kHeaderV12Size)) ∧
      readU32 slot 8 + readU32 slot 44 ≤ geometry.metadataMaxSize := by
  simp only [checkSlot, bind_eq_ok, failIf_eq_ok, exists_const] at hok
  obtain ⟨-, hver, -, htables, -⟩ := hok
  omega

theorem descriptorEnd_eq {value : Descriptor} {tablesSize entrySize finish : ℕ} {name : String}
    (hok : descriptorEnd value tablesSize entrySize name = .ok finish) :
    value.entrySize = entrySize ∧ finish = value.offset + value.count * value.entrySize ∧
      finish ≤ tablesSize := by
  simp only [descriptorEnd, bind_eq_ok, failIf_eq_ok, exists_const, Except.ok.injEq] at hok
  omega

theorem checkDescriptors_eq {slot : Bytes} (hok : checkDescriptors slot = .ok ()) :
    let inside := fun d size => d.entrySize = size ∧
      d.offset + d.count * d.entrySize ≤ readU32 slot 44
    inside (descriptor slot 80) kPartitionEntrySize ∧ (descriptor slot 92).count = 0 ∧
      inside (descriptor slot 104) kGroupEntrySize ∧
      inside (descriptor slot 116) kBlockDeviceEntrySize ∧ (descriptor slot 116).count = 1 := by
  simp only [checkDescriptors, bind_eq_ok, failIf_eq_ok, exists_const] at hok
  obtain ⟨e0, h0, e1, h1, e2, h2, e3, h3, hlay, -⟩ := hok
  have h0 := descriptorEnd_eq h0
  have h2 := descriptorEnd_eq h2
  have h3 := descriptorEnd_eq h3
  refine ⟨⟨h0.1, by omega⟩, by omega, ⟨h2.1, by omega⟩, ⟨h3.1, by omega⟩, by omega⟩

/-! ### Written geometry -/

/-- The geometry structure with a given digest. -/
def geometryStruct (geometry : Geometry) (digest : Bytes) : Bytes :=
  (leBytes 4 kGeometryMagic ++ leBytes 4 kGeometryStructSize) ++ (digest ++
    (leBytes 4 geometry.metadataMaxSize ++ (leBytes 4 geometry.metadataSlotCount ++
      leBytes 4 geometry.logicalBlockSize)))

/-- The geometry region: the structure with its digest, padded with zeros. -/
def geometryRegion (geometry : Geometry) : Bytes :=
  geometryStruct geometry (sha256 (geometryStruct geometry (List.replicate 32 0))) ++
    List.replicate (kGeometryRegionSize - kGeometryStructSize) 0

/-! ### The parser -/

variable (h : source.Holds bytes) (he : ExpandsTo source bytes artifact expanded)
include h he

theorem readExpanded_of_le {offset length : ℕ} (hle : offset + length ≤ expanded.length) :
    readExpanded artifact offset length = .ok (slice expanded offset length) := by
  have hsize := he.length_eq h
  rw [readExpanded, if_neg (by omega)]
  cases he with
  | raw =>
      simp only [FlashArtifact.ofRaw, readLoop_eq h.serves hle]
      rfl
  | sparse g =>
      simp only [FlashArtifact.ofSparse, readLoop_eq (serves_imageOf h g) hle]
      rfl

theorem readExpanded_eq_ok_iff {offset length : ℕ} {out : Bytes} :
    readExpanded artifact offset length = .ok out ↔
      offset + length ≤ expanded.length ∧ out = slice expanded offset length := by
  by_cases hle : offset + length ≤ expanded.length
  · rw [readExpanded_of_le h he hle]
    simp [hle, eq_comm]
  · have hsize := he.length_eq h
    rw [readExpanded, if_pos (by omega)]
    simp [hle]

theorem parseGeometry_parsed (hok : parseGeometry artifact = .ok geometry) :
    ParsedGeometry expanded geometry := by
  simp only [parseGeometry, bind_eq_ok, failIf_eq_ok, exists_const,
    readExpanded_eq_ok_iff h he, Except.ok.injEq] at hok
  obtain ⟨-, primary, ⟨-, rfl⟩, backup, ⟨hin, rfl⟩, hsame, -, -, hbds, rfl⟩ := hok
  push Not at hsame hbds
  obtain ⟨hmin, hmax, -, hslots, -, hblk, hmod, -⟩ := hbds
  exact ⟨hin, rfl, hsame.1.symm,
    ⟨hmin, hmax, Nat.pos_of_ne_zero hslots, hblk, readU32_lt _ _, hmod⟩⟩

theorem checkCopy_eq_ok_iff {first : Bytes} {offset : ℕ} :
    checkCopy artifact geometry first offset = .ok () ↔
      offset + geometry.metadataMaxSize ≤ expanded.length ∧
        slice expanded offset geometry.metadataMaxSize = first := by
  simp only [checkCopy, readMetadataCopy, bind_eq_ok, failIf_eq_ok, exists_const,
    readExpanded_eq_ok_iff h he, he.length_eq h]
  constructor
  · rintro ⟨copy, ⟨-, hle, rfl⟩, hsame⟩
    exact ⟨hle, not_not.mp hsame⟩
  · rintro ⟨hle, hsame⟩
    exact ⟨_, ⟨by omega, hle, rfl⟩, not_not_intro hsame⟩

theorem parseMetadata_parsed (hgeo : ParsedGeometry expanded geometry)
    (hok : parseMetadata artifact geometry = .ok metadata) : ParsedSuper expanded metadata := by
  simp only [parseMetadata, readMetadataCopy, bind_eq_ok, failIf_eq_ok, exists_const,
    readExpanded_eq_ok_iff h he, Except.ok.injEq] at hok
  obtain ⟨first, ⟨-, hin, hfst⟩, -, _, hcopies, _, hslot, _, hdescs, partitions,
    hparts, groups, hgroups, device, hdev, _, hcheck, rfl⟩ := hok
  have hlen : first.length = geometry.metadataMaxSize := by
    rw [hfst]
    exact length_slice hin
  obtain ⟨hver, htables⟩ := checkSlot_version hslot
  obtain ⟨hd0, hd1, hd2, hd3, hone⟩ := checkDescriptors_eq hdescs
  have htab : (slotTables first).length = readU32 first 44 := length_slice (by omega)
  rw [← slotTables] at hparts hgroups hdev
  obtain ⟨decoded, hdec, rfl, hidx⟩ := foldlM_parsePartition hparts
  obtain ⟨decodedGroups, hdecGrps, rfl⟩ := foldlM_parseGroup hgroups
  have hdevs : tableRecords (slotTables first) (descriptor first 116)
      = [slice (slotTables first) (descriptor first 116).offset
          (descriptor first 116).entrySize] := by
    rw [tableRecords, hone, records_succ]
    rfl
  obtain ⟨-, hpfits⟩ := mapM_ok_forall hdec fun record hm p hp =>
    decodePartition_fits ((length_of_mem_records (by rw [htab]; exact hd0.2) hm).trans hd0.1) hp
  obtain ⟨hcnt, hgfits⟩ := mapM_ok_forall hdecGrps fun record hm g hg =>
    decodeGroup_fits ((length_of_mem_records (by rw [htab]; exact hd2.2) hm).trans hd2.1) hg
  rw [tableRecords, length_records] at hcnt
  have hdfits : device.Fits := by
    refine decodeBlockDevice_fits ?_ hdev
    rw [hone, one_mul] at hd3
    exact (length_slice (by rw [htab]; exact hd3.2)).trans hd3.1
  refine {
    geometry := hgeo
    slots_eq := fun offset hm => by
      rw [← hfst]
      exact ((checkCopy_eq_ok_iff h he).mp (forM_eq_ok_iff.mp hcopies offset hm)).2
    decodes := by
      rw [← hfst]
      refine ⟨hslot, hdec, ?_, hdecGrps, ?_⟩
      · rw [tableRecords, hd1]
        rfl
      · rw [hdevs, mapM_cons, hdev]
        rfl
    fits := ⟨hver, hpfits, hgfits, hdfits⟩
    groupIndex_lt := by rw [hcnt]; exact hidx
    size_eq := ?_ }
  have := failIf_eq_ok.mp hcheck
  push Not at this
  rw [← he.length_eq h]
  exact this.2.1

/-- A successful parse of `super_empty.img`. -/
theorem superMetadata_parsed (hok : superMetadata artifact = .ok (some metadata)) :
    ParsedSuper expanded metadata := by
  unfold superMetadata at hok
  obtain ⟨geometry, hgeo, hok⟩ := bind_eq_ok.mp hok
  split at hok
  next parsed hpars =>
    cases (Except.ok.inj hok)
    exact parseMetadata_parsed h he (parseGeometry_parsed h he hgeo) hpars
  next e _ =>
    split at hok
    · cases hok
    · cases hok

end KairosBoot.SuperOptimizer
