import KairosBoot.SuperSource

/-! # Decoding a metadata slot

A slot written by `serializeMetadata` decodes to the metadata it was written from: its two
checksums verify, and the records of its tables are the partitions, the extents, the groups and
the block device (`slotDecodes_serialize`).  Names and numbers have to fit their fields
(`Metadata.Fits`), which everything the parser has read does. -/

namespace KairosBoot.SuperOptimizer

open ByteLib Guards List

/-! ### Names -/

/-- A name the parser accepts. -/
structure NameOk (name : String) : Prop where
  ne_nil : name.toList ≠ []
  length_lt : name.toList.length < 36
  valid : ∀ c ∈ name.toList, validNameCharacter c = true

theorem validNameCharacter_lt {c : Char} (h : validNameCharacter c = true) :
    0 < c.toNat ∧ c.toNat < 128 := by
  simp only [validNameCharacter, decide_eq_true_eq, Char.le_def] at h
  have hle : ∀ {a b : Char}, a.val ≤ b.val ↔ a.toNat ≤ b.toNat := Iff.rfl
  simp only [hle] at h
  rcases h with h | h | h | rfl
  · have h1 : 'a'.toNat = 97 := rfl
    have h2 : 'z'.toNat = 122 := rfl
    omega
  · have h1 : 'A'.toNat = 65 := rfl
    have h2 : 'Z'.toNat = 90 := rfl
    omega
  · have h1 : '0'.toNat = 48 := rfl
    have h2 : '9'.toNat = 57 := rfl
    omega
  · decide

theorem byteChar_ofNat {c : Char} (h : c.toNat < 128) : byteChar (UInt8.ofNat c.toNat) = c := by
  have hmod : (UInt8.ofNat c.toNat).toNat = c.toNat := by
    rw [UInt8.toNat_ofNat']
    omega
  rw [byteChar, hmod]
  exact Char.ofNat_toNat c

def nameBytes (name : String) : Bytes :=
  name.toList.map fun character => UInt8.ofNat character.toNat

variable {name : String}

theorem NameOk.map_byteChar (h : NameOk name) : (nameBytes name).map byteChar = name.toList := by
  unfold nameBytes
  rw [map_map]
  conv_rhs => rw [← map_id name.toList]
  refine map_congr_left fun c hc => ?_
  exact byteChar_ofNat (validNameCharacter_lt (h.valid c hc)).2

theorem NameOk.bytes_ne_zero (h : NameOk name) : ∀ b ∈ nameBytes name, b ≠ 0 := by
  intro b hb hzero
  obtain ⟨c, hc, rfl⟩ := mem_map.mp hb
  have hlt := validNameCharacter_lt (h.valid c hc)
  have : (UInt8.ofNat c.toNat).toNat = 0 := by rw [hzero]; rfl
  rw [UInt8.toNat_ofNat'] at this
  omega

@[simp] theorem length_nameBytes (name : String) :
    (nameBytes name).length = name.toList.length := by
  simp [nameBytes]

theorem NameOk.length_writeName (h : NameOk name) : (writeName name).length = 36 := by
  have := h.length_lt
  simp only [writeName, length_append, length_map, length_replicate]
  omega

theorem readName_writeName (h : NameOk name) (kind : String) :
    readName (writeName name) kind = .ok name := by
  have hlt := h.length_lt
  have hpos : 0 < name.toList.length := length_pos_of_ne_nil h.ne_nil
  have hwr : writeName name = nameBytes name ++ replicate (36 - name.toList.length) 0 := by
    simp [writeName, nameBytes]
  obtain ⟨k, hk⟩ : ∃ k, 36 - name.toList.length = k + 1 := ⟨35 - name.toList.length, by omega⟩
  have htext : (writeName name).takeWhile (· ≠ 0) = nameBytes name := by
    rw [hwr, takeWhile_append_of_pos (by simpa using h.bytes_ne_zero), hk,
      replicate_succ, takeWhile_cons_of_neg (by simp), append_nil]
  have hvld : ((nameBytes name).map byteChar).all validNameCharacter = true := by
    rw [h.map_byteChar]
    exact all_eq_true.mpr h.valid
  have hpad : ((writeName name).drop (nameBytes name).length).all (· = 0) = true := by
    rw [hwr, drop_left]
    simp
  unfold readName
  simp only [htext]
  rw [failIf_bind_of_not (not_not_intro hvld), failIf_bind_of_not (by
    rw [h.length_writeName, length_nameBytes]; omega), failIf_bind_of_not (not_not_intro hpad),
    h.map_byteChar, String.ofList_toList]

/-- What the reader returns is a name of the right shape. -/
theorem readName_ok {field : Bytes} {kind : String} (hlen : field.length = 36)
    (hok : readName field kind = .ok name) : NameOk name := by
  simp only [readName, bind_eq_ok, failIf_eq_ok, exists_const, Except.ok.injEq] at hok
  obtain ⟨hvld, hlength, -, rfl⟩ := hok
  have hle : (field.takeWhile (· ≠ 0)).length ≤ field.length := ( takeWhile_prefix _).length_le
  constructor
  case ne_nil =>
    rw [String.toList_ofList]
    intro hnil
    rw [map_eq_nil_iff] at hnil
    exact hlength (Or.inl (by rw [hnil]; rfl))
  case length_lt =>
    rw [String.toList_ofList, length_map]
    omega
  case valid =>
    rw [String.toList_ofList]
    simpa using hvld

/-! ### Records -/

theorem readU64_lt (bytes : Bytes) (offset : ℕ) : readU64 bytes offset < 2 ^ 64 :=
  lt_of_lt_of_eq (getLE_lt bytes offset 8) (by norm_num)

structure Partition.Fits (p : Partition) : Prop where
  name_ok : NameOk p.name
  attributes_lt : p.attributes < 2 ^ 32
  firstExtent_lt : p.firstExtent < 2 ^ 32
  extentCount_lt : p.extentCount < 2 ^ 32
  groupIndex_lt : p.groupIndex < 2 ^ 32

structure Group.Fits (g : Group) : Prop where
  name_ok : NameOk g.name
  flags_lt : g.flags < 2 ^ 32
  maximumSize_lt : g.maximumSize < 2 ^ 64

structure BlockDevice.Fits (d : BlockDevice) : Prop where
  firstLogicalSector_lt : d.firstLogicalSector < 2 ^ 64
  alignment_lt : d.alignment < 2 ^ 32
  alignmentOffset_lt : d.alignmentOffset < 2 ^ 32
  size_lt : d.size < 2 ^ 64
  name_ok : NameOk d.name
  flags_lt : d.flags < 2 ^ 32

structure Extent where
  sectors : ℕ
  targetType : ℕ
  targetData : ℕ
  targetSource : ℕ
  deriving DecidableEq, Repr

def decodeExtent (record : Bytes) : Extent :=
  ⟨readU64 record 0, readU32 record 8, readU64 record 12, readU32 record 20⟩

/-- The linear extent of an allocated image, on the only block device. -/
def SelectedImage.extent (image : SelectedImage) : Extent :=
  ⟨image.allocatedSize / kSectorSize, 0, image.physicalOffset / kSectorSize, 0⟩

theorem length_encodePartition {p : Partition} (h : p.Fits) :
    (encodePartition p).length = kPartitionEntrySize := by
  simp [encodePartition, h.name_ok.length_writeName, kPartitionEntrySize]

theorem length_encodeExtent (image : SelectedImage) :
    (encodeExtent image).length = kExtentEntrySize := by
  simp [encodeExtent, kExtentEntrySize]

theorem length_encodeGroup {g : Group} (h : g.Fits) : (encodeGroup g).length = kGroupEntrySize := by
  simp [encodeGroup, h.name_ok.length_writeName, kGroupEntrySize]

theorem length_encodeBlockDevice {d : BlockDevice} (h : d.Fits) :
    (encodeBlockDevice d).length = kBlockDeviceEntrySize := by
  simp [encodeBlockDevice, h.name_ok.length_writeName, kBlockDeviceEntrySize]

theorem decodePartition_encode {p : Partition} (h : p.Fits) :
    decodePartition (encodePartition p) = .ok p := by
  obtain ⟨hok, _, _, _, _⟩ := h
  have hlen := hok.length_writeName
  have hname : slice (encodePartition p) 0 36 = writeName p.name := by
    simp only [encodePartition, append_assoc]
    rw [slice_append_left (by omega), slice_eq_take, take_of_length_le (by omega)]
  rw [decodePartition, hname, readName_writeName hok, ok_bind]
  simp (disch := omega) only [encodePartition, append_assoc, readU32, getLE_skip, hlen,
    Nat.reduceSub, getLE_leBytes_skip, getLE_leBytes_head, getLE_leBytes]

theorem decodeGroup_encode {g : Group} (h : g.Fits) : decodeGroup (encodeGroup g) = .ok g := by
  obtain ⟨hok, _, _⟩ := h
  have hlen := hok.length_writeName
  have hname : slice (encodeGroup g) 0 36 = writeName g.name := by
    simp only [encodeGroup, append_assoc]
    rw [slice_append_left (by omega), slice_eq_take, take_of_length_le (by omega)]
  rw [decodeGroup, hname, readName_writeName hok, ok_bind]
  simp (disch := omega) only [encodeGroup, append_assoc, readU32, readU64, getLE_skip, hlen,
    Nat.reduceSub, getLE_leBytes_skip, getLE_leBytes_head, getLE_leBytes]

theorem decodeBlockDevice_encode {d : BlockDevice} (h : d.Fits) :
    decodeBlockDevice (encodeBlockDevice d) = .ok d := by
  obtain ⟨_, _, _, _, hok, _⟩ := h
  have hlen := hok.length_writeName
  have hname : slice (encodeBlockDevice d) 24 36 = writeName d.name := by
    simp only [encodeBlockDevice]
    rw [append_assoc]
    exact slice_middle (by simp) hlen
  rw [decodeBlockDevice, hname, readName_writeName hok, ok_bind]
  simp (disch := omega) only [encodeBlockDevice, append_assoc, readU32, readU64, getLE_skip, hlen,
    Nat.reduceSub, getLE_leBytes_skip, getLE_leBytes_head, getLE_leBytes]

theorem decodeExtent_encode {image : SelectedImage} (hsize : image.allocatedSize < 2 ^ 64)
    (hoff : image.physicalOffset < 2 ^ 64) : decodeExtent (encodeExtent image) = image.extent := by
  have hsize' : image.allocatedSize / kSectorSize < 256 ^ 8 :=
    lt_of_le_of_lt (Nat.div_le_self _ _) hsize
  have hoff' : image.physicalOffset / kSectorSize < 256 ^ 8 :=
    lt_of_le_of_lt (Nat.div_le_self _ _) hoff
  simp (disch := omega) only [decodeExtent, encodeExtent, append_assoc, readU64, readU32,
    SelectedImage.extent, Nat.reduceSub, getLE_leBytes_skip, getLE_leBytes_head, getLE_leBytes]

/-! ### The header -/

section Header

variable {metadata : Metadata} {selected : List SelectedImage} {rest : Bytes}

/-- The bytes of the header before its own digest. -/
def headerStart (metadata : Metadata) : Bytes :=
  leBytes 4 kHeaderMagic ++ leBytes 2 10 ++ leBytes 2 metadata.minorVersion ++
    leBytes 4 metadata.headerSize

/-- The bytes of the header after its own digest. -/
def headerFinish (metadata : Metadata) (selected : List SelectedImage)
    (tableDigest : Bytes) : Bytes :=
  leBytes 4 (tablesSize metadata selected) ++ (tableDigest ++
    (encodeDescriptors metadata.partitions.length selected.length metadata.groups.length ++
    (if metadata.headerSize = kHeaderV12Size then leBytes 4 metadata.flags ++ List.replicate 124 0
      else [])))

theorem encodeLpHeader_eq {headerDigest tableDigest : Bytes} :
    encodeLpHeader metadata selected headerDigest tableDigest
      = headerStart metadata ++ (headerDigest ++ headerFinish metadata selected tableDigest) := by
  simp only [encodeLpHeader, headerStart, headerFinish, append_assoc]

theorem length_headerStart : (headerStart metadata).length = 12 := by simp [headerStart]

theorem length_encodeDescriptors (partitions extents groups : ℕ) :
    (encodeDescriptors partitions extents groups).length = 48 := by
  simp [encodeDescriptors, encodeDescriptor]

/-- What the version of the metadata says about the size of its header. -/
def VersionOk (metadata : Metadata) : Prop :=
  (metadata.minorVersion < 2 ∧ metadata.headerSize = kHeaderV10Size) ∨
    (metadata.minorVersion = 2 ∧ metadata.headerSize = kHeaderV12Size)

/-- The header that is hashed: its own digest is still zero. -/
def headerForHash (metadata : Metadata) (selected : List SelectedImage) : Bytes :=
  encodeLpHeader metadata selected (List.replicate 32 0) (sha256 (encodeTables metadata selected))

def slotHeader (metadata : Metadata) (selected : List SelectedImage) : Bytes :=
  encodeLpHeader metadata selected (sha256 (headerForHash metadata selected))
    (sha256 (encodeTables metadata selected))

theorem slotHeader_append : slotHeader metadata selected ++ rest
    = headerStart metadata ++ (sha256 (headerForHash metadata selected) ++
      (headerFinish metadata selected (sha256 (encodeTables metadata selected)) ++ rest)) := by
  rw [slotHeader, encodeLpHeader_eq, append_assoc, append_assoc]

theorem length_slotHeader (hver : VersionOk metadata) :
    (slotHeader metadata selected).length = metadata.headerSize := by
  rw [slotHeader, encodeLpHeader_eq]
  simp only [headerFinish, length_append, length_headerStart, length_sha256, length_leBytes,
    length_encodeDescriptors]
  rcases hver with ⟨-, h⟩ | ⟨-, h⟩
  · simp [h, kHeaderV10Size, kHeaderV12Size]
  · simp [h, kHeaderV12Size]

theorem readU32_slotHeader_magic :
    readU32 (slotHeader metadata selected ++ rest) 0 = kHeaderMagic := by
  simp only [slotHeader_append, headerStart, append_assoc, readU32]
  exact getLE_leBytes_head (by decide)

theorem readU16_slotHeader_major : readU16 (slotHeader metadata selected ++ rest) 4 = 10 := by
  simp only [slotHeader_append, headerStart, append_assoc, readU16]
  rw [getLE_leBytes_skip (by omega), getLE_leBytes_head (by decide)]

theorem readU16_slotHeader_minor (hver : VersionOk metadata) :
    readU16 (slotHeader metadata selected ++ rest) 6 = metadata.minorVersion := by
  simp only [slotHeader_append, headerStart, append_assoc, readU16]
  simp (disch := omega) only [getLE_leBytes_skip]
  apply getLE_leBytes_head
  rcases hver with ⟨h, -⟩ | ⟨h, -⟩ <;> omega

theorem readU32_slotHeader_size (hver : VersionOk metadata) :
    readU32 (slotHeader metadata selected ++ rest) 8 = metadata.headerSize := by
  simp only [slotHeader_append, headerStart, append_assoc, readU32]
  simp (disch := omega) only [getLE_leBytes_skip]
  apply getLE_leBytes_head
  rcases hver with ⟨-, h⟩ | ⟨-, h⟩ <;> rw [h] <;> decide

theorem slice_slotHeader_digest : slice (slotHeader metadata selected ++ rest) 12 32
    = sha256 (headerForHash metadata selected) := by
  rw [slotHeader_append]
  exact slice_middle length_headerStart (length_sha256 _)

/-- With zeros in place of its digest the header is the one that is hashed. -/
theorem overwrite_slotHeader :
    overwrite (slotHeader metadata selected) 12 (replicate kSha256DigestSize 0)
      = headerForHash metadata selected := by
  rw [slotHeader, headerForHash, encodeLpHeader_eq, encodeLpHeader_eq]
  exact overwrite_middle length_headerStart (by simp [length_sha256, kSha256DigestSize])

theorem readU32_slotHeader_tablesSize (hsize : tablesSize metadata selected < 2 ^ 32) :
    readU32 (slotHeader metadata selected ++ rest) 44 = tablesSize metadata selected := by
  rw [slotHeader_append, ← append_assoc, headerFinish, append_assoc _ _ rest]
  exact (getLE_append_right (by simp [length_headerStart, length_sha256]) 0 4).trans
    (getLE_leBytes_head hsize)

/-- The part of the header after the digest of the tables. -/
theorem slotHeader_split : ∃ before after : Bytes, before.length = 48 ∧
    slotHeader metadata selected ++ rest
      = before ++ (sha256 (encodeTables metadata selected) ++ (encodeDescriptors
        metadata.partitions.length selected.length metadata.groups.length ++ after)) ∧
    (metadata.headerSize = kHeaderV12Size →
      after = leBytes 4 metadata.flags ++ (replicate 124 0 ++ rest)) := by
  refine ⟨headerStart metadata ++ (sha256 (headerForHash metadata selected) ++
    leBytes 4 (tablesSize metadata selected)), (if metadata.headerSize = kHeaderV12Size then
    leBytes 4 metadata.flags ++ replicate 124 0 else []) ++ rest, ?_, ?_, ?_⟩
  · simp [length_headerStart, length_sha256]
  · simp only [slotHeader_append, headerFinish, append_assoc]
  · intro h
    rw [if_pos h, append_assoc]

theorem slice_slotHeader_tableDigest : slice (slotHeader metadata selected ++ rest) 48 32
    = sha256 (encodeTables metadata selected) := by
  obtain ⟨before, after, hlen, hsplit, -⟩ := slotHeader_split
  rw [hsplit]
  exact slice_middle hlen (length_sha256 _)

/-! ### The descriptors -/

theorem descriptor_skip {l r : Bytes} {offset : ℕ} (h : l.length ≤ offset) :
    descriptor (l ++ r) offset = descriptor r (offset - l.length) := by
  obtain ⟨d, rfl⟩ : ∃ d, offset = l.length + d := ⟨offset - l.length, by omega⟩
  simp only [descriptor, readU32, add_assoc, getLE_append_right rfl, Nat.add_sub_cancel_left]

theorem descriptor_encode {offset count entrySize : ℕ} (ho : offset < 2 ^ 32)
    (hc : count < 2 ^ 32) (he : entrySize < 2 ^ 32) :
    descriptor (encodeDescriptor offset count entrySize ++ rest) 0 = ⟨offset, count, entrySize⟩ := by
  simp (disch := omega) only [descriptor, encodeDescriptor, append_assoc, readU32, Nat.reduceAdd,
    Nat.reduceSub, getLE_leBytes_skip, getLE_leBytes_head]

theorem length_encodeDescriptor (offset count entrySize : ℕ) :
    (encodeDescriptor offset count entrySize).length = 12 := by
  simp [encodeDescriptor]

theorem descriptor_slotHeader (metadata : Metadata) (selected : List SelectedImage)
    (rest : Bytes) : ∃ rest', ∀ offset,
      descriptor (slotHeader metadata selected ++ rest) (80 + offset)
        = descriptor (encodeDescriptors metadata.partitions.length selected.length
          metadata.groups.length ++ rest') offset := by
  obtain ⟨before, after, hlen, hsplit, -⟩ := slotHeader_split
  refine ⟨after, fun offset => ?_⟩
  have hlen' : (before ++ sha256 (encodeTables metadata selected)).length = 80 := by
    simp [hlen, length_sha256]
  rw [hsplit, ← append_assoc, descriptor_skip (by omega), hlen', Nat.add_sub_cancel_left]

end Header

theorem descriptors_encode (partitions extents groups : ℕ) (rest : Bytes)
    (h : partitions * kPartitionEntrySize + extents * kExtentEntrySize +
      groups * kGroupEntrySize < 2 ^ 32) :
    let bytes := encodeDescriptors partitions extents groups ++ rest
    descriptor bytes 0 = ⟨0, partitions, kPartitionEntrySize⟩ ∧
    descriptor bytes 12 = ⟨partitions * kPartitionEntrySize, extents, kExtentEntrySize⟩ ∧
    descriptor bytes 24 = ⟨partitions * kPartitionEntrySize + extents * kExtentEntrySize, groups,
      kGroupEntrySize⟩ ∧
    descriptor bytes 36 = ⟨partitions * kPartitionEntrySize + extents * kExtentEntrySize +
      groups * kGroupEntrySize, 1, kBlockDeviceEntrySize⟩ := by
  simp only [kPartitionEntrySize, kExtentEntrySize, kGroupEntrySize] at h
  simp only [encodeDescriptors, append_assoc, kPartitionEntrySize, kExtentEntrySize,
    kGroupEntrySize, kBlockDeviceEntrySize]
  refine ⟨?_, ?_, ?_, ?_⟩
  · exact descriptor_encode (by omega) (by omega) (by omega)
  · rw [descriptor_skip (by rw [length_encodeDescriptor]), length_encodeDescriptor]
    exact descriptor_encode (by omega) (by omega) (by omega)
  · rw [descriptor_skip (by rw [length_encodeDescriptor]; omega), length_encodeDescriptor,
      descriptor_skip (by rw [length_encodeDescriptor]), length_encodeDescriptor]
    exact descriptor_encode (by omega) (by omega) (by omega)
  · rw [descriptor_skip (by rw [length_encodeDescriptor]; omega), length_encodeDescriptor,
      descriptor_skip (by rw [length_encodeDescriptor]; omega), length_encodeDescriptor,
      descriptor_skip (by rw [length_encodeDescriptor]), length_encodeDescriptor]
    exact descriptor_encode (by omega) (by omega) (by omega)

/-! ### Decoding a slot -/

def slotTables (slot : Bytes) : Bytes := slice slot (readU32 slot 8) (readU32 slot 44)

/-- A slot passes the parser's header checks, the two checksums among them, and its tables
decode to the given records. -/
structure SlotDecodes (geometry : Geometry) (slot : Bytes) (partitions : List Partition)
    (extents : List Extent) (groups : List Group) (device : BlockDevice) : Prop where
  checked : checkSlot geometry slot = .ok ()
  partitions_eq : (tableRecords (slotTables slot) (descriptor slot 80)).mapM decodePartition
    = .ok partitions
  extents_eq : (tableRecords (slotTables slot) (descriptor slot 92)).map decodeExtent = extents
  groups_eq : (tableRecords (slotTables slot) (descriptor slot 104)).mapM decodeGroup = .ok groups
  device_eq : (tableRecords (slotTables slot) (descriptor slot 116)).mapM decodeBlockDevice
    = .ok [device]

/-- Everything in the metadata fits its field. -/
structure Metadata.Fits (metadata : Metadata) : Prop where
  version_ok : VersionOk metadata
  partitions_fit : ∀ p ∈ metadata.partitions, p.Fits
  groups_fit : ∀ g ∈ metadata.groups, g.Fits
  device_fits : metadata.blockDevice.Fits

section Serialize

variable {metadata : Metadata} {selected : List SelectedImage}

theorem length_encodeTables (h : metadata.Fits) (selected : List SelectedImage) :
    (encodeTables metadata selected).length = tablesSize metadata selected := by
  simp only [encodeTables, tablesSize, length_append,
    length_flatMap_const fun p hp => length_encodePartition (h.partitions_fit p hp),
    length_flatMap_const fun image (_ : image ∈ selected) => length_encodeExtent image,
    length_flatMap_const fun g hg => length_encodeGroup (h.groups_fit g hg),
    length_encodeBlockDevice h.device_fits]

theorem length_serializeMetadata (h : metadata.Fits) (selected : List SelectedImage) :
    (serializeMetadata metadata selected).length
      = metadata.headerSize + tablesSize metadata selected := by
  rw [← length_encodeTables h selected, ← length_slotHeader h.version_ok]
  exact length_append

theorem tableRecords_encodeTables (h : metadata.Fits) (selected : List SelectedImage) :
    tableRecords (encodeTables metadata selected)
        ⟨0, metadata.partitions.length, kPartitionEntrySize⟩
      = metadata.partitions.map encodePartition ∧
    tableRecords (encodeTables metadata selected)
        ⟨metadata.partitions.length * kPartitionEntrySize, selected.length, kExtentEntrySize⟩
      = selected.map encodeExtent ∧
    tableRecords (encodeTables metadata selected)
        ⟨metadata.partitions.length * kPartitionEntrySize + selected.length * kExtentEntrySize,
          metadata.groups.length, kGroupEntrySize⟩
      = metadata.groups.map encodeGroup ∧
    tableRecords (encodeTables metadata selected)
        ⟨metadata.partitions.length * kPartitionEntrySize + selected.length * kExtentEntrySize +
          metadata.groups.length * kGroupEntrySize, 1, kBlockDeviceEntrySize⟩
      = [encodeBlockDevice metadata.blockDevice] := by
  have hp := fun p hp => length_encodePartition (h.partitions_fit p hp)
  have he := fun image (_ : image ∈ selected) => length_encodeExtent image
  have hg := fun g hg => length_encodeGroup (h.groups_fit g hg)
  have hpl := length_flatMap_const hp
  have hel := length_flatMap_const he
  have hgl := length_flatMap_const hg
  unfold tableRecords encodeTables
  refine ⟨?_, ?_, ?_, ?_⟩
  · have := records_flatMap hp [] (selected.flatMap encodeExtent ++
      (metadata.groups.flatMap encodeGroup ++ encodeBlockDevice metadata.blockDevice))
      (length_nil : ([] : Bytes).length = 0)
    simpa only [nil_append, append_assoc] using this
  · have := records_flatMap he (metadata.partitions.flatMap encodePartition)
      (metadata.groups.flatMap encodeGroup ++ encodeBlockDevice metadata.blockDevice) hpl
    simpa only [append_assoc] using this
  · have := records_flatMap hg (metadata.partitions.flatMap encodePartition ++
      selected.flatMap encodeExtent) (encodeBlockDevice metadata.blockDevice)
      (by rw [length_append, hpl, hel])
    simpa only [append_assoc] using this
  · have hd : ∀ d ∈ [metadata.blockDevice],
        (encodeBlockDevice d).length = kBlockDeviceEntrySize := by
      intro d hd
      rw [mem_singleton.mp hd]
      exact length_encodeBlockDevice h.device_fits
    have := records_flatMap hd
      (metadata.partitions.flatMap encodePartition ++ selected.flatMap encodeExtent ++
        metadata.groups.flatMap encodeGroup) [] (by
          rw [length_append, length_append, hpl, hel, hgl])
    simpa using this

theorem metadataBlock_serialize (metadata : Metadata) (selected : List SelectedImage) :
    ∃ n, metadataBlock metadata (serializeMetadata metadata selected)
      = slotHeader metadata selected ++ (encodeTables metadata selected ++ replicate n 0) :=
  ⟨_, by rw [metadataBlock, serializeMetadata, append_assoc]; rfl⟩

theorem slotTables_slotHeader (h : metadata.Fits) (hsize : tablesSize metadata selected < 2 ^ 32)
    (n : ℕ) :
    slotTables (slotHeader metadata selected ++
      (encodeTables metadata selected ++ replicate n 0)) = encodeTables metadata selected := by
  rw [slotTables, readU32_slotHeader_size h.version_ok, readU32_slotHeader_tablesSize hsize]
  exact slice_middle (length_slotHeader h.version_ok) (length_encodeTables h selected)

theorem descriptors_slotHeader (hsize : tablesSize metadata selected < 2 ^ 32) (rest : Bytes) :
    descriptor (slotHeader metadata selected ++ rest) 80
      = ⟨0, metadata.partitions.length, kPartitionEntrySize⟩ ∧
    descriptor (slotHeader metadata selected ++ rest) 92
      = ⟨metadata.partitions.length * kPartitionEntrySize, selected.length, kExtentEntrySize⟩ ∧
    descriptor (slotHeader metadata selected ++ rest) 104
      = ⟨metadata.partitions.length * kPartitionEntrySize + selected.length * kExtentEntrySize,
        metadata.groups.length, kGroupEntrySize⟩ ∧
    descriptor (slotHeader metadata selected ++ rest) 116
      = ⟨metadata.partitions.length * kPartitionEntrySize + selected.length * kExtentEntrySize +
        metadata.groups.length * kGroupEntrySize, 1, kBlockDeviceEntrySize⟩ := by
  obtain ⟨rest', hread⟩ := descriptor_slotHeader metadata selected rest
  have hall := descriptors_encode metadata.partitions.length selected.length
    metadata.groups.length rest' (by unfold tablesSize at hsize; omega)
  exact ⟨(hread 0).trans hall.1, (hread 12).trans hall.2.1, (hread 24).trans hall.2.2.1,
    (hread 36).trans hall.2.2.2⟩

theorem checkSlot_serialize (h : metadata.Fits)
    (hmax : (serializeMetadata metadata selected).length ≤ metadata.geometry.metadataMaxSize)
    (hlt : metadata.geometry.metadataMaxSize < 2 ^ 32) :
    checkSlot metadata.geometry (metadataBlock metadata (serializeMetadata metadata selected))
      = .ok () := by
  have hlen := length_serializeMetadata h selected
  have htables := length_encodeTables h selected
  have hhdr : (slotHeader metadata selected).length = metadata.headerSize :=
    length_slotHeader h.version_ok
  have hsize : tablesSize metadata selected < 2 ^ 32 := by omega
  obtain ⟨n, hblk⟩ := metadataBlock_serialize metadata selected
  have hzero : allZero ((slotHeader metadata selected ++
      (encodeTables metadata selected ++ replicate n 0)).drop
        (metadata.headerSize + tablesSize metadata selected)) = true := by
    rw [← append_assoc, drop_left' (by rw [length_append, hhdr, htables])]
    simp [allZero]
  have hdig : selfDigest (slotHeader metadata selected) 12
      = sha256 (headerForHash metadata selected) := by
    rw [selfDigest, overwrite_slotHeader]
  have hver := h.version_ok
  unfold VersionOk at hver
  rw [hblk]
  simp only [checkSlot, readU32_slotHeader_size h.version_ok, readU32_slotHeader_tablesSize hsize,
    take_left' hhdr, hdig, slice_middle hhdr htables]
  rw [readU32_slotHeader_magic, readU16_slotHeader_major, readU16_slotHeader_minor h.version_ok,
    slice_slotHeader_digest, slice_slotHeader_tableDigest,
    failIf_bind_of_not (by simp), failIf_bind_of_not (by omega), failIf_bind_of_not (by simp),
    failIf_bind_of_not (by omega), failIf_bind_of_not (by simp),
    failIf_of_not (not_not_intro hzero)]

/-- A written slot decodes to what it was written from. -/
theorem slotDecodes_serialize (h : metadata.Fits)
    (himages : ∀ image ∈ selected, image.allocatedSize < 2 ^ 64 ∧ image.physicalOffset < 2 ^ 64)
    (hmax : (serializeMetadata metadata selected).length ≤ metadata.geometry.metadataMaxSize)
    (hlt : metadata.geometry.metadataMaxSize < 2 ^ 32) :
    SlotDecodes metadata.geometry (metadataBlock metadata (serializeMetadata metadata selected))
      metadata.partitions (selected.map SelectedImage.extent) metadata.groups
      metadata.blockDevice := by
  have hlen := length_serializeMetadata h selected
  have hsize : tablesSize metadata selected < 2 ^ 32 := by omega
  have hchk := checkSlot_serialize h hmax hlt
  obtain ⟨n, hblk⟩ := metadataBlock_serialize metadata selected
  rw [hblk] at hchk ⊢
  have htables := slotTables_slotHeader h hsize n
  obtain ⟨hd0, hd1, hd2, hd3⟩ := descriptors_slotHeader hsize
    (encodeTables metadata selected ++ replicate n 0)
  obtain ⟨ht0, ht1, ht2, ht3⟩ := tableRecords_encodeTables h selected
  refine ⟨hchk, ?_, ?_, ?_, ?_⟩
  · rw [htables, hd0, ht0]
    exact mapM_map_eq_ok fun p hp => decodePartition_encode (h.partitions_fit p hp)
  · rw [htables, hd1, ht1, map_map]
    exact map_congr_left fun image hi =>
      decodeExtent_encode (himages image hi).1 (himages image hi).2
  · rw [htables, hd2, ht2]
    exact mapM_map_eq_ok fun g hg => decodeGroup_encode (h.groups_fit g hg)
  · rw [htables, hd3, ht3]
    simp only [mapM_cons, mapM_nil, decodeBlockDevice_encode h.device_fits]
    rfl

end Serialize

end KairosBoot.SuperOptimizer
