import KairosBoot.VendorBootSections

/-! # Repacking replaces sections

The main results about `repack_vendor_boot`.  `Replaced` says what a repacked image is in terms of
the old one: which bytes are new, which are kept and which are zero.  Every successful repack
produces such an image, its own readers accept it, every request to it is answered in full, and
the two internal failures of the repacker are unreachable (`repack_replaces_sections`). -/

namespace KairosBoot.VendorBoot

open ByteLib Guards Pieces List

variable {vendorBoot newRamdisk : ImageSource} {newDtb : Option ImageSource}
  {old ramdisk : Bytes} {dtb : Option Bytes} {maximum : ℕ} {header : ParsedHeader}
  {entries : List TableEntry} {replaced : Option ℕ} {layout : NewLayout}

/-! ### The header page -/

/-- The fields of the header page that are rewritten. -/
def dimensionFields (version : ℕ) (layout : NewLayout) : List (ℕ × ℕ) :=
  [(kRamdiskSizeOffset, layout.ramdiskSize), (kDtbSizeOffset, layout.dtbSize)] ++
    (if version = 4 then
      [(kTableSizeOffset, layout.tableSize), (kTableEntryCountOffset, layout.tableEntries),
        (kTableEntrySizeOffset, layout.tableEntrySize)]
    else [])

theorem updateHeader_eq (version : ℕ) (layout : NewLayout) (page : Bytes) :
    updateHeader version layout page = putFields 4 (dimensionFields version layout) page := by
  unfold updateHeader dimensionFields
  split <;> rfl

/-- The byte at `offset` belongs to a dimension field. -/
def Dimension (version offset : ℕ) : Prop :=
  (24 ≤ offset ∧ offset < 28) ∨ (2100 ≤ offset ∧ offset < 2104) ∨
    (version = 4 ∧ 2112 ≤ offset ∧ offset < 2124)

theorem dimensionFields_apart (version : ℕ) (layout : NewLayout) :
    (dimensionFields version layout).Pairwise fun a b => a.1 + 4 ≤ b.1 ∨ b.1 + 4 ≤ a.1 := by
  unfold dimensionFields
  split <;> simp [kRamdiskSizeOffset, kDtbSizeOffset, kTableSizeOffset, kTableEntryCountOffset,
    kTableEntrySizeOffset]

theorem dimensionFields_inside {version length : ℕ} (layout : NewLayout)
    (hlen : expectedHeaderSize version ≤ length) (hv : version = 3 ∨ version = 4) :
    ∀ field ∈ dimensionFields version layout, field.1 + 4 ≤ length := by
  unfold expectedHeaderSize kHeaderV3Size kHeaderV4Size at hlen
  intro field hm
  unfold dimensionFields kRamdiskSizeOffset kDtbSizeOffset kTableSizeOffset kTableEntryCountOffset
    kTableEntrySizeOffset at hm
  rcases hv with rfl | rfl
  · simp at hm hlen
    rcases hm with rfl | rfl <;> simp <;> omega
  · simp at hm hlen
    rcases hm with rfl | rfl | rfl | rfl | rfl <;> simp <;> omega

theorem not_dimension {version offset : ℕ} (layout : NewLayout) (h : ¬ Dimension version offset) :
    ∀ field ∈ dimensionFields version layout, offset < field.1 ∨ field.1 + 4 ≤ offset := by
  unfold Dimension at h
  intro field hm
  unfold dimensionFields kRamdiskSizeOffset kDtbSizeOffset kTableSizeOffset kTableEntryCountOffset
    kTableEntrySizeOffset at hm
  by_cases hv : version = 4
  · simp only [hv, true_and] at h
    simp [hv] at hm
    rcases hm with rfl | rfl | rfl | rfl | rfl <;> simp <;> omega
  · simp [hv] at hm
    rcases hm with rfl | rfl <;> simp <;> omega

/-- The image a plan stands for. -/
abbrev Planned.image (_ : Planned old ramdisk dtb maximum header entries replaced layout) :
    Bytes := repackedImage old ramdisk dtb header entries replaced layout

namespace Planned

section

variable (h : Planned old ramdisk dtb maximum header entries replaced layout)
include h

theorem headerSize_le : expectedHeaderSize header.version ≤ header.headerEnd := by
  rw [← h.header_of.fields.headerSize]
  exact h.header_of.headerSize_le

theorem headerEnd_le : header.headerEnd ≤ old.length := by
  have hsecs := h.old_sections
  omega

theorem length_page : (slice old 0 header.headerEnd).length = header.headerEnd :=
  length_slice (by rw [zero_add]; exact h.headerEnd_le)

theorem fields_inside :
    ∀ field ∈ dimensionFields header.version layout,
      field.1 + 4 ≤ (slice old 0 header.headerEnd).length := by
  rw [h.length_page]
  exact dimensionFields_inside layout h.headerSize_le h.header_of.fields.version

theorem length_headerPage :
    (updateHeader header.version layout (slice old 0 header.headerEnd)).length
      = header.headerEnd := by
  rw [updateHeader_eq, length_putFields h.fields_inside, h.length_page]

/-! ### The whole image -/

theorem length_sections :
    (padded (ramdiskSection old ramdisk header entries replaced) layout.ramdiskSpan).length
        = layout.ramdiskSpan ∧
      (padded (dtbSection old dtb header) layout.dtbSpan).length = layout.dtbSpan ∧
      (padded (tableSection old ramdisk header entries replaced) layout.tableSpan).length
        = layout.tableSpan ∧
      (padded (bootconfigSection old header) layout.bootconfigSpan).length
        = layout.bootconfigSpan := by
  obtain ⟨hram, hdtb, htab, hboot⟩ := h.new_sections
  exact ⟨length_padded (h.length_ramdiskSection.trans_le hram),
    length_padded (h.length_dtbSection.trans_le hdtb),
    length_padded (h.length_tableSection.trans_le htab),
    length_padded (h.length_bootconfigSection.trans_le hboot)⟩

theorem presents_collectPieces (hold : vendorBoot.Holds old) (hnew : newRamdisk.Holds ramdisk)
    (hdtb : Option.Rel ImageSource.Holds newDtb dtb) :
    Presents 0 (collectPieces vendorBoot newRamdisk newDtb header entries replaced layout
        (updateHeader header.version layout (slice old 0 header.headerEnd)))
      h.image := by
  have hpage := h.length_headerPage
  obtain ⟨hramLen, hdtbLen, htabLen, hbootLen⟩ := h.length_sections
  have hin := h.layout_of.inside
  have hsecs := h.old_sections
  unfold collectPieces image repackedImage
  rw [append_assoc, append_assoc]
  refine (presents_addBytes 0 _).append (by rw [hpage, zero_add])
    ((h.presents_ramdisk hold hnew).append (by rw [hramLen])
      ((h.presents_dtb hold hdtb).append (by rw [hdtbLen]) ?_))
  split
  · next hv =>
    rw [append_assoc]
    refine (h.presents_table hold hv hnew).append (by rw [htabLen])
      ((h.presents_bootconfig hold).append ?_ (presents_tail hold (by omega)))
    rw [hbootLen, h.layout_of.knownEnd]
  · next hv =>
    obtain ⟨htabSpan, hbootSpan, htabSec, hbootSec⟩ := h.spans_of_v3 hv
    have hend : layout.knownEnd = header.headerEnd + layout.ramdiskSpan + layout.dtbSpan := by
      rw [h.layout_of.knownEnd, htabSpan, hbootSpan, Nat.add_zero]
    rw [htabSec, hbootSec, htabSpan, hbootSpan, ← hend]
    exact presents_tail hold (by omega)

theorem length_repackedImage : h.image.length = old.length := by
  have hpage := h.length_headerPage
  obtain ⟨hramLen, hdtbLen, htabLen, hbootLen⟩ := h.length_sections
  have hin := h.layout_of.inside
  have hsecs := h.old_sections
  have hend := h.layout_of.knownEnd
  have htail : (tailSection old header layout.knownEnd).length = old.length - layout.knownEnd := by
    rw [tailSection, length_append, length_replicate, length_drop]
    omega
  unfold image repackedImage
  rw [length_append, length_append, length_append, length_append,
    length_append, hpage, hramLen, hdtbLen, htabLen, hbootLen, htail]
  omega

end

end Planned

/-! ### Reading the sections back -/

/-- The bytes from `start` up to `finish` are zero. -/
def ZeroOn (bytes : Bytes) (start finish : ℕ) : Prop :=
  ∀ i, start ≤ i → i < finish → bytes[i]? = some 0

theorem zeroOn_of_drop {image rest : Bytes} {offset n : ℕ}
    (h : image.drop offset = replicate n 0 ++ rest) : ZeroOn image offset (offset + n) := by
  intro i hlo hhi
  obtain ⟨k, rfl⟩ : ∃ k, i = offset + k := ⟨i - offset, by omega⟩
  rw [← getElem?_drop, h, getElem?_append_left (by rw [length_replicate]; omega),
    getElem?_replicate, if_pos (by omega)]

/-- A padded section: its bytes, its padding and what follows it. -/
theorem section_of_drop {image bytes rest : Bytes} {offset span : ℕ}
    (hle : bytes.length ≤ span) (h : image.drop offset = padded bytes span ++ rest) :
    slice image offset bytes.length = bytes ∧
      ZeroOn image (offset + bytes.length) (offset + span) ∧ image.drop (offset + span) = rest := by
  have hafter : image.drop (offset + bytes.length) = replicate (span - bytes.length) 0 ++ rest := by
    rw [← drop_drop, h, padded, append_assoc, drop_left]
  refine ⟨?_, ?_, ?_⟩
  · rw [slice, h, padded, append_assoc, take_left]
  · have hzero := zeroOn_of_drop hafter
    rwa [add_assoc, Nat.add_sub_cancel' hle] at hzero
  · rw [← drop_drop, h, drop_left' (length_padded hle)]

def newHeader (header : ParsedHeader) (layout : NewLayout) : ParsedHeader :=
  { header with
    ramdiskSize := layout.ramdiskSize
    dtbSize := layout.dtbSize
    tableSize := layout.tableSize
    tableEntries := layout.tableEntries
    tableEntrySize := layout.tableEntrySize
    ramdiskEnd := header.headerEnd + layout.ramdiskSpan
    dtbEnd := header.headerEnd + layout.ramdiskSpan + layout.dtbSpan
    tableEnd := header.headerEnd + layout.ramdiskSpan + layout.dtbSpan + layout.tableSpan
    bootconfigEnd := layout.knownEnd }

/-- The header of the image a plan stands for. -/
abbrev Planned.revised (_ : Planned old ramdisk dtb maximum header entries replaced layout) :
    ParsedHeader := newHeader header layout

def repackedEntries (ramdisk : Bytes) (header : ParsedHeader) (entries : List TableEntry)
    (replaced : Option ℕ) : List TableEntry :=
  if header.version = 4 then
    match replaced with
    | none => [⟨ramdisk.length, 0, []⟩]
    | some index => newEntries ramdisk.length index entries
  else []

/-- The sections of the repacked image, its padding and its tail. -/
structure SectionsAt (image old ramdisk : Bytes) (dtb : Option Bytes)
    (header new : ParsedHeader) (entries : List TableEntry) (replaced : Option ℕ) : Prop where
  ramdisk_eq : slice image new.headerEnd new.ramdiskSize
    = ramdiskSection old ramdisk header entries replaced
  dtb_eq : slice image new.ramdiskEnd new.dtbSize = dtbSection old dtb header
  table_eq : slice image new.dtbEnd new.tableSize = tableSection old ramdisk header entries replaced
  bootconfig_eq : slice image new.tableEnd new.bootconfigSize = bootconfigSection old header
  ramdisk_padding : ZeroOn image (new.headerEnd + new.ramdiskSize) new.ramdiskEnd
  dtb_padding : ZeroOn image (new.ramdiskEnd + new.dtbSize) new.dtbEnd
  table_padding : ZeroOn image (new.dtbEnd + new.tableSize) new.tableEnd
  bootconfig_padding : ZeroOn image (new.tableEnd + new.bootconfigSize) new.bootconfigEnd
  vacated : ZeroOn image new.bootconfigEnd header.bootconfigEnd
  tail : image.drop (max new.bootconfigEnd header.bootconfigEnd)
    = old.drop (max new.bootconfigEnd header.bootconfigEnd)

theorem Planned.sectionsAt (h : Planned old ramdisk dtb maximum header entries replaced layout) :
    SectionsAt h.image old ramdisk dtb header h.revised entries replaced := by
  obtain ⟨hram, hdtb, htab, hboot⟩ := h.new_sections
  rw [← h.length_ramdiskSection] at hram
  rw [← h.length_dtbSection] at hdtb
  rw [← h.length_tableSection] at htab
  rw [← h.length_bootconfigSection] at hboot
  have hdrop : h.image.drop header.headerEnd
      = padded (ramdiskSection old ramdisk header entries replaced) layout.ramdiskSpan ++
        (padded (dtbSection old dtb header) layout.dtbSpan ++
          (padded (tableSection old ramdisk header entries replaced) layout.tableSpan ++
            (padded (bootconfigSection old header) layout.bootconfigSpan ++
              tailSection old header layout.knownEnd))) := drop_left' h.length_headerPage
  obtain ⟨hram, hramZero, hdrop⟩ := section_of_drop hram hdrop
  obtain ⟨hdtb, hdtbZero, hdrop⟩ := section_of_drop hdtb hdrop
  obtain ⟨htab, htabZero, hdrop⟩ := section_of_drop htab hdrop
  obtain ⟨hboot, hbootZero, hdrop⟩ := section_of_drop hboot hdrop
  rw [h.length_ramdiskSection] at hram hramZero
  rw [h.length_dtbSection] at hdtb hdtbZero
  rw [h.length_tableSection] at htab htabZero
  rw [h.length_bootconfigSection] at hboot hbootZero
  rw [← h.layout_of.knownEnd] at hbootZero hdrop
  refine ⟨hram, hdtb, htab, hboot, hramZero, hdtbZero, htabZero, hbootZero, ?_, ?_⟩
  · intro i hlo hhi
    exact zeroOn_of_drop hdrop i hlo (by simp only [newHeader] at hlo; omega)
  · simp only [newHeader]
    conv_lhs => rw [show max layout.knownEnd header.bootconfigEnd
      = layout.knownEnd + (max layout.knownEnd header.bootconfigEnd - layout.knownEnd) by omega]
    rw [← drop_drop, hdrop, tailSection, drop_left' length_replicate]

/-! ### The header of the repacked image -/

namespace Planned

section

variable (h : Planned old ramdisk dtb maximum header entries replaced layout)
include h

/-- Header bytes outside the dimension fields are kept. -/
theorem getElem?_header {offset : ℕ} (hoff : offset < header.headerEnd)
    (hkept : ¬ Dimension header.version offset) : h.image[offset]? = old[offset]? := by
  rw [image, repackedImage, getElem?_append_left (by rwa [h.length_headerPage]), updateHeader_eq,
    getElem?_putFields h.fields_inside (not_dimension layout hkept), getElem?_slice,
    if_pos hoff, zero_add]

theorem slice_header {offset length : ℕ} (hin : offset + length ≤ header.headerEnd)
    (hkept : ∀ i, offset ≤ i → i < offset + length → ¬ Dimension header.version i) :
    slice h.image offset length = slice old offset length :=
  slice_congr fun i hlo hhi => h.getElem?_header (by omega) (hkept i hlo hhi)

theorem readU32_dimension (offset value : ℕ)
    (hm : (offset, value) ∈ dimensionFields header.version layout) (hval : value < 2 ^ 32) :
    readU32 h.image offset = value := by
  have hin := h.fields_inside
  have hfield := hin _ hm
  rw [h.length_page] at hfield
  rw [readU32, image, repackedImage, getLE_append_left (by rwa [h.length_headerPage]), updateHeader_eq]
  exact getLE_putFields hin (dimensionFields_apart _ _) hm (lt_of_lt_of_eq hval (by norm_num))

theorem dimensions_lt :
    layout.ramdiskSize < 2 ^ 32 ∧ layout.dtbSize < 2 ^ 32 ∧ layout.tableSize < 2 ^ 32 ∧
      layout.tableEntries < 2 ^ 32 ∧ layout.tableEntrySize < 2 ^ 32 := by
  have hflds := h.header_of.fields
  have hram := h.layout_of.ramdiskSize_le
  unfold uint32Max at hram
  have hdim : ∀ {offset fresh kept : ℕ}, fresh < 2 ^ 32 →
      (header.version = 4 → kept = readU32 old offset) →
        newDimension header replaced fresh kept < 2 ^ 32 := by
    intro offset fresh kept hfresh hkept
    unfold newDimension
    split
    · next hv =>
      have := readU32_lt old offset
      split
      · exact hfresh
      · rw [hkept hv]
        exact this
    · omega
  refine ⟨by omega, ?_, ?_, ?_, ?_⟩
  · rw [h.layout_of.dtbSize]
    cases hdtb : dtb with
    | none => exact hflds.dtbSize_eq ▸ readU32_lt old kDtbSizeOffset
    | some bytes =>
        have := (h.dtb_size bytes (by rw [hdtb]; rfl)).2
        unfold uint32Max at this
        simp only [Option.map_some, Option.getD_some]
        omega
  · rw [h.layout_of.tableSize]
    exact hdim (by decide) fun hv => (hflds.v4_eq hv).1
  · rw [h.layout_of.tableEntries]
    exact hdim (by decide) fun hv => (hflds.v4_eq hv).2.1
  · rw [h.layout_of.tableEntrySize]
    exact hdim (by decide) fun hv => (hflds.v4_eq hv).2.2.1

theorem newDtb_ne_zero : layout.dtbSize ≠ 0 := by
  rw [h.layout_of.dtbSize]
  cases hdtb : dtb with
  | none => exact h.header_of.fields.nonempty.2
  | some bytes => exact (h.dtb_size bytes (by rw [hdtb]; rfl)).1

theorem newRamdisk_ne_zero : layout.ramdiskSize ≠ 0 := by
  have := h.ramdisk_size.1
  rw [h.layout_of.ramdiskSize]
  unfold newRamdiskBytes
  split <;> omega

/-- The fields of the header that are not dimensions. -/
theorem fields_kept :
    slice h.image 0 8 = slice old 0 8 ∧
      readU32 h.image kHeaderVersionOffset = readU32 old kHeaderVersionOffset ∧
      readU32 h.image kPageSizeOffset = readU32 old kPageSizeOffset ∧
      readU32 h.image kHeaderSizeOffset = readU32 old kHeaderSizeOffset ∧
      (header.version = 4 →
        readU32 h.image kBootconfigSizeOffset = readU32 old kBootconfigSizeOffset) := by
  have hsize : 2112 ≤ header.headerEnd ∧ (header.version = 4 → 2128 ≤ header.headerEnd) := by
    have := h.headerSize_le
    unfold expectedHeaderSize kHeaderV3Size kHeaderV4Size at this
    split at this <;> omega
  have hslice := @h.slice_header
  unfold Dimension at hslice
  have hkept : ∀ {offset}, offset + 4 ≤ header.headerEnd →
      (∀ i, offset ≤ i → i < offset + 4 → ¬ Dimension header.version i) →
      readU32 h.image offset = readU32 old offset := by
    intro offset hin hkept
    rw [readU32, getLE, hslice hin hkept, ← getLE, ← readU32]
  unfold kHeaderVersionOffset kPageSizeOffset kHeaderSizeOffset kBootconfigSizeOffset
  unfold Dimension at hkept
  refine ⟨hslice ?_ fun i _ _ => ?_, hkept ?_ fun i _ _ => ?_, hkept ?_ fun i _ _ => ?_,
    hkept ?_ fun i _ _ => ?_, fun hv => hkept ?_ fun i _ _ => ?_⟩ <;> omega

theorem table_dimensions (hv : header.version = 4) :
    readU32 h.image kTableSizeOffset = layout.tableSize ∧
      readU32 h.image kTableEntryCountOffset = layout.tableEntries ∧
      readU32 h.image kTableEntrySizeOffset = layout.tableEntrySize := by
  obtain ⟨-, -, htable, hcount, hentry⟩ := h.dimensions_lt
  refine ⟨h.readU32_dimension _ _ ?_ htable, h.readU32_dimension _ _ ?_ hcount,
    h.readU32_dimension _ _ ?_ hentry⟩ <;> simp [dimensionFields, hv]

theorem fieldsOf_new : FieldsOf h.image h.revised := by
  obtain ⟨hram, hdtb, -⟩ := h.dimensions_lt
  obtain ⟨hmagic, hversion, hpage, hheader, hboot⟩ := h.fields_kept
  have hflds := h.header_of.fields
  have hlay := h.layout_of
  constructor
  case magic => exact hmagic.trans hflds.magic
  case version_eq => exact hflds.version_eq.trans hversion.symm
  case version => exact hflds.version
  case headerSize_eq => exact hflds.headerSize_eq.trans hheader.symm
  case headerSize => exact hflds.headerSize
  case pageSize_eq => exact hflds.pageSize_eq.trans hpage.symm
  case pageSize => exact hflds.pageSize
  case ramdiskSize_eq => exact (h.readU32_dimension _ _ (.head _) hram).symm
  case dtbSize_eq => exact (h.readU32_dimension _ _ (.tail _ (.head _)) hdtb).symm
  case nonempty => exact ⟨h.newRamdisk_ne_zero, h.newDtb_ne_zero⟩
  case v4_eq =>
    intro hv
    obtain ⟨htable, hcount, hentry⟩ := h.table_dimensions hv
    exact ⟨htable.symm, hcount.symm, hentry.symm, (hflds.v4_eq hv).2.2.2.trans (hboot hv).symm⟩
  case v4 =>
    intro (hv : header.version = 4)
    simp only [newHeader, hlay.tableSize, hlay.tableEntries, hlay.tableEntrySize, newDimension,
      if_pos hv]
    split
    · decide
    · exact hflds.v4 hv
  case v3 =>
    intro (hv : header.version ≠ 4)
    simp only [newHeader, hlay.tableSize, hlay.tableEntries, hlay.tableEntrySize, newDimension,
      if_neg hv]
    exact ⟨trivial, trivial, trivial, (hflds.v3 hv).2.2.2⟩

theorem headerOf_new : HeaderOf h.image maximum h.revised where
  fields := h.fieldsOf_new
  sections := by
    have hlay := h.layout_of
    refine ⟨h.header_of.sections.headerEnd, ?_, ?_, ?_, ?_⟩
    · simp only [newHeader, hlay.ramdiskSpan]
    · simp only [newHeader, hlay.dtbSpan]
    · simp only [newHeader, hlay.tableSpan]
    · simp only [newHeader, hlay.knownEnd, hlay.bootconfigSpan]
  le_maximum := h.length_repackedImage.trans_le h.header_of.le_maximum
  le_uint32Max := h.length_repackedImage.trans_le h.header_of.le_uint32Max
  inside := h.layout_of.inside.trans_eq h.length_repackedImage.symm

end

/-! ### The table of the repacked image -/

theorem readEntry_recordBytes {p : TableEntry × ℕ} (hsize : p.1.size < 2 ^ 32)
    (hoff : p.1.offset < 2 ^ 32) (hent : 44 ≤ header.tableEntrySize) :
    readEntry (recordBytes old header p) = ⟨p.1.size, p.1.offset,
      (readEntry (slice old (header.dtbEnd + p.2 * header.tableEntrySize)
        header.tableEntrySize)).name⟩ := by
  have h1 : readU32 (recordBytes old header p) 0 = p.1.size :=
    getLE_leBytes_head (lt_of_lt_of_eq hsize (by norm_num))
  have h2 : readU32 (recordBytes old header p) 4 = p.1.offset := by
    rw [readU32, recordBytes, getLE_leBytes_skip (by omega)]
    exact getLE_leBytes_head (lt_of_lt_of_eq hoff (by norm_num))
  have h3 : slice (recordBytes old header p) 12 32
      = slice (slice old (header.dtbEnd + p.2 * header.tableEntrySize) header.tableEntrySize)
          12 32 := by
    have hskip : slice (recordBytes old header p) (8 + 4) 32
        = slice (slice old (header.dtbEnd + p.2 * header.tableEntrySize + 8)
            (header.tableEntrySize - 8)) 4 32 := by
      rw [recordBytes, ← append_assoc]
      exact slice_append_right' (by simp) _ _
    rw [hskip, slice_slice _ (by omega), slice_slice _ (by omega), add_assoc]
  rw [readEntry, h1, h2, h3]
  rfl

variable {index : ℕ}

section

variable (h : Planned old ramdisk dtb maximum header entries (some index) layout)
include h

/-- The records of the new table, before they are decoded. -/
theorem records_new :
    records h.image h.revised.dtbEnd header.tableEntries header.tableEntrySize
      = (newEntries ramdisk.length index entries).zipIdx.map (recordBytes old header) := by
  obtain ⟨hv, -⟩ := h.replaced_of index rfl
  have hents := h.length_entries hv
  have hcnt : ((newEntries ramdisk.length index entries).zipIdx).length = header.tableEntries := by
    rw [length_zipIdx, length_newEntries, hents]
  have htab := h.sectionsAt.table_eq
  simp only [tableSection, if_pos hv, recordSection] at htab
  have hoff : h.revised.dtbEnd ≤ h.image.length := by
    have hend := h.layout_of.knownEnd
    have hin := h.layout_of.inside
    rw [h.length_repackedImage]
    simp only [newHeader]
    omega
  have hlen : ∀ p ∈ (newEntries ramdisk.length index entries).zipIdx,
      (recordBytes old header p).length = header.tableEntrySize := by
    intro p hp
    have hlast := snd_lt_of_mem_zipIdx hp
    rw [length_newEntries] at hlast
    exact h.length_recordBytes hv (by omega)
  rw [← hcnt]
  exact records_of_slice hlen hoff htab

theorem contiguous_new :
    Contiguous 0 (newEntries ramdisk.length index entries) layout.ramdiskSize := by
  rw [← h.sum_sizes, ← map_newEntries_size, newEntries, map_renumber _ fun _ _ => rfl,
    ← zero_add (sum _)]
  refine contiguous_renumber 0 fun entry hm => ?_
  obtain ⟨p, hp, rfl⟩ := mem_map.mp hm
  simp only
  split
  · exact h.ramdisk_size.1
  · exact (h.entry_inside (fst_mem_of_mem_zipIdx hp)).1

theorem entriesOf_new : entriesOf h.image h.revised = newEntries ramdisk.length index entries := by
  obtain ⟨hv, -⟩ := h.replaced_of index rfl
  have hold := h.table_of
  rw [if_pos hv] at hold
  obtain ⟨-, -, hsize, -⟩ := h.header_of.fields.v4 hv
  have hcnt : h.revised.tableEntries = header.tableEntries :=
    h.layout_of.tableEntries.trans (if_pos hv)
  have hrec : h.revised.tableEntrySize = header.tableEntrySize :=
    h.layout_of.tableEntrySize.trans (if_pos hv)
  rw [entriesOf, hcnt, hrec, h.records_new, map_map]
  conv_rhs => rw [← zipIdx_map_fst 0 (newEntries ramdisk.length index entries)]
  refine map_congr_left fun p hp => ?_
  have hin := (h.contiguous_new.inside (fst_mem_of_mem_zipIdx hp)).2
  have hmax := h.dimensions_lt.1
  -- the name stands behind the rewritten part of its record
  have hname : p.1.name = (readEntry (slice old (header.dtbEnd + p.2 * header.tableEntrySize)
      header.tableEntrySize)).name := by
    have hnew := mk_mem_zipIdx_iff_getElem?.mp hp
    have hlast := snd_lt_of_mem_zipIdx hp
    rw [length_newEntries, h.length_entries hv] at hlast
    have hnames := congrArg (fun l => l[p.2]?) (map_newEntries_name ramdisk.length index entries)
    have hent : entries[p.2]? = some (readEntry (slice old
        (header.dtbEnd + p.2 * header.tableEntrySize) header.tableEntrySize)) := by
      have hidx : p.2 < header.tableEntries := hlast
      rw [hold.entries_eq, entriesOf, getElem?_map, getElem?_records old hidx]
      rfl
    simpa [hnew, hent] using hnames
  unfold kEntryV4Size at hsize
  rw [Function.comp_apply, readEntry_recordBytes (by omega) (by omega) (by omega), ← hname]

end

theorem entriesOf_default (h : Planned old ramdisk dtb maximum header entries none layout)
    (hv : header.version = 4) : entriesOf h.image h.revised = [⟨ramdisk.length, 0, []⟩] := by
  have hcnt : h.revised.tableEntries = 1 := h.layout_of.tableEntries.trans (if_pos hv)
  have hrec : h.revised.tableEntrySize = kEntryV4Size :=
    h.layout_of.tableEntrySize.trans (if_pos hv)
  have htab := h.sectionsAt.table_eq
  rw [show h.revised.tableSize = kEntryV4Size from
    h.layout_of.tableSize.trans (if_pos hv), tableSection, if_pos hv] at htab
  have hmax := h.ramdisk_size.2
  unfold uint32Max at hmax
  have hsize : readU32 (defaultRecord ramdisk.length) 0 = ramdisk.length :=
    getLE_leBytes_head (lt_of_le_of_lt hmax (by norm_num))
  rw [entriesOf, hcnt, hrec, records_succ, htab]
  simp only [records, range_zero, map_nil, map_cons, readEntry, hsize]
  rfl

theorem tableOf_new (h : Planned old ramdisk dtb maximum header entries replaced layout) :
    if h.revised.version = 4 then
      TableOf h.image h.revised (repackedEntries ramdisk header entries replaced)
    else repackedEntries ramdisk header entries replaced = [] := by
  by_cases hv : header.version = 4
  · rw [if_pos (show h.revised.version = 4 from hv)]
    unfold repackedEntries
    rw [if_pos hv]
    cases replaced with
    | none =>
        have hram : h.revised.ramdiskSize = ramdisk.length := h.layout_of.ramdiskSize
        exact {
          entries_eq := (h.entriesOf_default hv).symm
          named := fun entry hm => .inl (by rw [mem_singleton.mp hm])
          nodup := nodup_singleton _
          contiguous := ⟨rfl, h.ramdisk_size.1, by simp [hram, Contiguous]⟩ }
    | some index =>
        have hold := h.table_of
        rw [if_pos hv] at hold
        have hnames := map_newEntries_name ramdisk.length index entries
        refine {
          entries_eq := h.entriesOf_new.symm
          named := fun entry hm => ?_
          nodup := hnames ▸ hold.nodup
          contiguous := h.contiguous_new }
        obtain ⟨kept, hkept, hname⟩ := mem_map.mp (hnames ▸ mem_map_of_mem hm)
        have hnamed := hold.named kept hkept
        unfold TableEntry.Named at hnamed ⊢
        rwa [hname] at hnamed
  · rw [if_neg (show h.revised.version ≠ 4 from hv)]
    unfold repackedEntries
    rw [if_neg hv]

/-- Table bytes outside the sizes and the offsets of the entries are kept. -/
theorem getElem?_table (h : Planned old ramdisk dtb maximum header entries (some index) layout)
    {offset : ℕ} (hoff : offset < header.tableSize)
    (hkept : header.tableEntries * header.tableEntrySize ≤ offset ∨
      8 ≤ offset % header.tableEntrySize) :
    h.image[h.revised.dtbEnd + offset]? = old[header.dtbEnd + offset]? := by
  obtain ⟨hv, -⟩ := h.replaced_of index rfl
  obtain ⟨hsize, hfit, -⟩ := h.table_kept hv
  by_cases hused : offset < header.tableEntries * header.tableEntrySize
  · have hnumber : offset / header.tableEntrySize < header.tableEntries :=
      Nat.div_lt_of_lt_mul (by rwa [mul_comm] at hused)
    have hplace := Nat.div_add_mod' offset header.tableEntrySize
    have hmod := Nat.mod_lt offset (show 0 < header.tableEntrySize by omega)
    have hrecs := congrArg (fun l => l[offset / header.tableEntrySize]?) h.records_new
    have hcnt := h.length_entries hv
    rw [← length_newEntries ramdisk.length index entries] at hcnt
    simp only [getElem?_records _ hnumber, getElem?_map, getElem?_zipIdx,
      getElem?_eq_getElem (hcnt ▸ hnumber), Option.map_some, Option.some.injEq,
      zero_add] at hrecs
    have hbyte := congrArg (fun l => l[offset % header.tableEntrySize]?) hrecs
    simp only [getElem?_slice, if_pos hmod, recordBytes] at hbyte
    rw [getElem?_append_right (by rw [length_leBytes]; omega),
      getElem?_append_right (by rw [length_leBytes, length_leBytes]; omega), length_leBytes,
      length_leBytes, getElem?_slice, if_pos (by omega)] at hbyte
    have hleft : h.revised.dtbEnd + offset / header.tableEntrySize *
        header.tableEntrySize + offset % header.tableEntrySize
          = h.revised.dtbEnd + offset := by omega
    rw [hleft] at hbyte
    rw [hbyte]
    congr 1
    omega
  · have htab := h.sectionsAt.table_eq
    have hdim : h.revised.tableSize = header.tableSize := h.layout_of.tableSize.trans (if_pos hv)
    rw [hdim] at htab
    have hbyte := congrArg (fun l => l[offset]?) htab
    simp only [tableSection, if_pos hv, recordSection, getElem?_slice, if_pos hoff] at hbyte
    rw [getElem?_append_right (by rw [h.length_records hv]; omega), h.length_records hv,
      getElem?_slice, if_pos (by omega)] at hbyte
    rw [hbyte]
    congr 1
    omega

end Planned

/-! ### Section replacement -/

/-- The bytes of an entry in the ramdisk section of an image. -/
def TableEntry.bytesIn (image : Bytes) (header : ParsedHeader) (entry : TableEntry) : Bytes :=
  slice image (header.headerEnd + entry.offset) entry.size

/-- The complete ramdisk was replaced. -/
structure RamdiskReplaced (image ramdisk : Bytes) (header' : ParsedHeader)
    (entries' : List TableEntry) : Prop where
  ramdisk_eq : slice image header'.headerEnd header'.ramdiskSize = ramdisk
  table_eq : header'.version = 4 → entries' = [⟨ramdisk.length, 0, []⟩]

/-- The entry called `name` was replaced: the entries keep their order and their names, they
follow one another, and of the table only their sizes and offsets change. -/
structure EntryReplaced (image old ramdisk name : Bytes) (header header' : ParsedHeader)
    (entries entries' : List TableEntry) (index : ℕ) : Prop where
  version_eq : header.version = 4
  name_eq : (entries.map TableEntry.name)[index]? = some name
  ramdisk_eq : slice image header'.headerEnd header'.ramdiskSize
    = ((entries.map (TableEntry.bytesIn old header)).set index ramdisk).flatten
  names_eq : entries'.map TableEntry.name = entries.map TableEntry.name
  sizes_eq : entries'.map TableEntry.size = (entries.map TableEntry.size).set index ramdisk.length
  contiguous : Contiguous 0 entries' header'.ramdiskSize
  dimensions_eq : header'.tableSize = header.tableSize ∧
    header'.tableEntries = header.tableEntries ∧ header'.tableEntrySize = header.tableEntrySize
  table_kept : ∀ offset < header.tableSize,
    header.tableEntries * header.tableEntrySize ≤ offset ∨ 8 ≤ offset % header.tableEntrySize →
      image[header'.dtbEnd + offset]? = old[header.dtbEnd + offset]?

/-- What the repacked image is in terms of the old one. -/
structure Replaced (image old ramdisk : Bytes) (dtb : Option Bytes) (name : Bytes)
    (header header' : ParsedHeader) (entries entries' : List TableEntry) : Prop where
  length_eq : image.length = old.length
  headerEnd_eq : header'.headerEnd = header.headerEnd
  header_kept : ∀ offset < header.headerEnd, ¬ Dimension header.version offset →
    image[offset]? = old[offset]?
  ramdisk_default : name = defaultRamdiskName → RamdiskReplaced image ramdisk header' entries'
  ramdisk_named : name ≠ defaultRamdiskName →
    ∃ index, EntryReplaced image old ramdisk name header header' entries entries' index
  dtb_eq : slice image header'.ramdiskEnd header'.dtbSize
    = dtb.getD (slice old header.ramdiskEnd header.dtbSize)
  bootconfigSize_eq : header'.bootconfigSize = header.bootconfigSize
  bootconfig_eq : slice image header'.tableEnd header.bootconfigSize
    = slice old header.tableEnd header.bootconfigSize
  ramdisk_padding : ZeroOn image (header'.headerEnd + header'.ramdiskSize) header'.ramdiskEnd
  dtb_padding : ZeroOn image (header'.ramdiskEnd + header'.dtbSize) header'.dtbEnd
  table_padding : ZeroOn image (header'.dtbEnd + header'.tableSize) header'.tableEnd
  bootconfig_padding :
    ZeroOn image (header'.tableEnd + header'.bootconfigSize) header'.bootconfigEnd
  vacated : ZeroOn image header'.bootconfigEnd header.bootconfigEnd
  tail : ∀ offset, header'.bootconfigEnd ≤ offset → header.bootconfigEnd ≤ offset →
    image[offset]? = old[offset]?

theorem entrySections_eq_set (old ramdisk : Bytes) (header : ParsedHeader) (index : ℕ)
    (entries : List TableEntry) : entrySections old ramdisk header index 0 entries
      = (entries.map (TableEntry.bytesIn old header)).set index ramdisk :=
  map_zipIdx_replace entries (TableEntry.bytesIn old header) ramdisk index

/-- The entry that `findReplaced` chose, by its name. -/
def Chosen (name : Bytes) (entries : List TableEntry) : Option ℕ → Prop
  | none => name = defaultRamdiskName
  | some index => name ≠ defaultRamdiskName ∧ (entries.map TableEntry.name)[index]? = some name

theorem Planned.replaces (h : Planned old ramdisk dtb maximum header entries replaced layout)
    {name : Bytes} (hchose : Chosen name entries replaced) :
    Replaced h.image old ramdisk dtb name
      header h.revised entries (repackedEntries ramdisk header entries replaced) := by
  have hsecs := h.sectionsAt
  refine {
    length_eq := h.length_repackedImage
    headerEnd_eq := rfl
    header_kept := fun offset hoff hkept => h.getElem?_header hoff hkept
    ramdisk_default := fun hname => ?_
    ramdisk_named := fun hname => ?_
    dtb_eq := hsecs.dtb_eq
    bootconfigSize_eq := rfl
    bootconfig_eq := hsecs.bootconfig_eq
    ramdisk_padding := hsecs.ramdisk_padding
    dtb_padding := hsecs.dtb_padding
    table_padding := hsecs.table_padding
    bootconfig_padding := hsecs.bootconfig_padding
    vacated := hsecs.vacated
    tail := fun offset hnew hold => ?_ }
  · cases replaced with
    | none => exact ⟨hsecs.ramdisk_eq, fun hv => if_pos hv⟩
    | some index => exact absurd hname hchose.1
  · cases replaced with
    | none => exact absurd hchose hname
    | some index =>
        obtain ⟨hv, -⟩ := h.replaced_of index rfl
        have hents : repackedEntries ramdisk header entries (some index)
            = newEntries ramdisk.length index entries := if_pos hv
        rw [hents]
        refine ⟨index, ?_⟩
        exact {
          version_eq := hv
          name_eq := hchose.2
          ramdisk_eq := hsecs.ramdisk_eq.trans
            (congrArg flatten (entrySections_eq_set old ramdisk header index entries))
          names_eq := map_newEntries_name _ _ _
          sizes_eq := map_newEntries_size _ _ _
          contiguous := h.contiguous_new
          dimensions_eq := ⟨h.layout_of.tableSize.trans (if_pos hv),
            h.layout_of.tableEntries.trans (if_pos hv),
            h.layout_of.tableEntrySize.trans (if_pos hv)⟩
          table_kept := fun offset hoff hkept => h.getElem?_table hoff hkept }
  · have hlast : max h.revised.bootconfigEnd header.bootconfigEnd ≤ offset := max_le hnew hold
    have hbyte := congrArg (fun l => l[offset - max h.revised.bootconfigEnd
      header.bootconfigEnd]?) hsecs.tail
    simpa only [getElem?_drop, Nat.add_sub_cancel' hlast] using hbyte

/-! ### The internal failures -/

/-- The two failures of the check of the piece table. -/
def Internal (e : VendorBootRepackError) : Prop := e = piecesNotContiguous ∨ e = piecesWrongSize

instance (e : VendorBootRepackError) : Decidable (Internal e) := by
  unfold Internal
  infer_instance

/-- A computation that never ends in one of them. -/
abbrev External {α : Type} (x : Except VendorBootRepackError α) : Prop :=
  ErrorsIn (fun e => ¬ Internal e) x

theorem readExact_errors (source : ImageSource) (offset length : ℕ) :
    External (readExact source offset length) := by
  refine (errorsIn_failIf (by decide)).bind fun _ _ => errorsIn_mapError fun e => ?_
  cases e with
  | failed n e => simp [readFaultError, Internal, piecesNotContiguous, piecesWrongSize]
  | excess n => exact show ¬ Internal ⟨.malformed, "vendor_boot source was truncated"⟩ by decide
  | stalled n => exact show ¬ Internal ⟨.malformed, "vendor_boot source was truncated"⟩ by decide

theorem alignUp_errors (value alignment : ℕ) : External (alignUp value alignment) :=
  (errorsIn_orFail (by decide)).bind fun _ _ => errorsIn_ok _

theorem parseFields_errors (bytes : Bytes) : External (parseFields bytes) := by
  iterate 5 refine errorsIn_failIf_bind (by decide) ?_
  unfold parseV4Fields
  split
  · refine errorsIn_failIf_bind (by decide) ?_
    exact errorsIn_failIf_bind (by decide) (errorsIn_ok _)
  · exact errorsIn_ok _

theorem layoutSections_errors (header : ParsedHeader) : External (layoutSections header) := by
  iterate 3 refine (alignUp_errors _ _).bind fun _ _ => ?_
  refine (errorsIn_orFail (by decide)).bind fun _ _ => ?_
  refine (errorsIn_orFail (by decide)).bind fun _ _ => ?_
  unfold layoutV4
  split
  · refine (errorsIn_mapError fun _ => by decide).bind fun _ _ => ?_
    refine (errorsIn_mapError fun _ => by decide).bind fun _ _ => ?_
    refine (errorsIn_orFail (by decide)).bind fun _ _ => ?_
    exact (errorsIn_orFail (by decide)).bind fun _ _ => errorsIn_ok _
  · exact errorsIn_ok _

theorem parseHeader_errors (source : Option ImageSource) (maximum : ℕ) :
    External (parseHeader source maximum) := by
  refine (errorsIn_orFail (by decide)).bind fun _ _ => ?_
  refine errorsIn_failIf_bind (by decide) ?_
  refine ((errorsIn_failIf (by decide)).bind fun _ _ => errorsIn_failIf (by decide)).bind
    fun _ _ => ?_
  refine (readExact_errors _ _ _).bind fun _ _ => ?_
  refine (parseFields_errors _).bind fun _ _ => ?_
  refine (layoutSections_errors _).bind fun _ _ => ?_
  exact errorsIn_failIf_bind (by decide) (errorsIn_ok _)

theorem parseEntries_errors (source : ImageSource) (header : ParsedHeader)
    (remaining index : ℕ) (names : List Bytes) (expected : ℕ) :
    External (parseEntries source header remaining index names expected) := by
  induction remaining generalizing index names expected with
  | zero => exact errorsIn_ok _
  | succ remaining ih =>
      refine (readExact_errors _ _ _).bind fun _ _ => ?_
      iterate 3 refine errorsIn_failIf_bind (by decide) ?_
      refine (errorsIn_orFail (by decide)).bind fun _ _ => ?_
      refine errorsIn_failIf_bind (by decide) ?_
      exact (ih _ _ _).bind fun _ _ => errorsIn_ok _

theorem parseTable_errors (source : ImageSource) (header : ParsedHeader) :
    External (parseTable source header) := by
  unfold parseTable
  split
  · exact errorsIn_ok _
  · refine (parseEntries_errors _ _ _ _ _ _).bind fun _ _ => ?_
    exact errorsIn_failIf_bind (by decide) (errorsIn_ok _)

theorem findReplaced_errors (options : VendorBootRepackOptions) (header : ParsedHeader)
    (entries : List TableEntry) : External (findReplaced options header entries) := by
  unfold findReplaced
  split
  · exact errorsIn_ok _
  · refine errorsIn_failIf_bind (by decide) ?_
    exact (errorsIn_orFail (by decide)).bind fun _ _ => errorsIn_ok _

theorem planLayout_errors (size : ℕ) (header : ParsedHeader) (entries : List TableEntry)
    (replaced : Option ℕ) (newRamdiskSize : ℕ) (newDtbSize : Option ℕ) :
    External (planLayout size header entries replaced newRamdiskSize newDtbSize) := by
  refine errorsIn_failIf_bind (by decide) ?_
  iterate 4 refine (errorsIn_mapError fun _ => by decide).bind fun _ _ => ?_
  iterate 4 refine (errorsIn_orFail (by decide)).bind fun _ _ => ?_
  exact errorsIn_failIf_bind (by decide) (errorsIn_ok _)

/-! ### The repacker -/

variable {options : VendorBootRepackOptions}

theorem findReplaced_eq_ok (h : findReplaced options header entries = .ok replaced) :
    Chosen options.ramdiskName entries replaced ∧
      ∀ index, replaced = some index → header.version = 4 ∧ index < entries.length := by
  unfold findReplaced at h
  split at h
  · next hname =>
    obtain rfl := pure_eq_ok_iff.mp h
    exact ⟨hname, fun index hidx => by cases hidx⟩
  · next hname =>
    obtain ⟨hv, h⟩ := failIf_bind_eq_ok.mp h
    obtain ⟨index, hidx, h⟩ := bind_eq_ok.mp h
    obtain rfl := pure_eq_ok_iff.mp h
    obtain ⟨hlast, hfound, -⟩ := findIdx?_eq_some_iff_getElem.mp (orFail_eq_ok.mp hidx)
    refine ⟨⟨hname, ?_⟩, ?_⟩
    · rw [getElem?_map, getElem?_eq_getElem hlast]
      simpa using hfound
    · rintro _ ⟨⟩
      exact ⟨not_not.mp hv, hlast⟩

theorem Planned.readExact_header
    (h : Planned old ramdisk dtb maximum header entries replaced layout)
    (hold : vendorBoot.Holds old) :
    readExact vendorBoot 0 header.headerEnd = .ok (slice old 0 header.headerEnd) :=
  readExact_eq hold (by rw [zero_add]; exact h.headerEnd_le)

section

variable (hold : vendorBoot.Holds old) (hnew : newRamdisk.Holds ramdisk)
  (hdtb : Option.Rel ImageSource.Holds newDtb dtb)
include hold hnew hdtb

/-- The checks before the pieces are collected establish the plan. -/
theorem planned_of_checks
    (hramSize : ¬ (newRamdisk.size = 0 ∨ uint32Max < newRamdisk.size))
    (hdtbSize : ¬ newDtb.any fun newDtb => newDtb.size = 0 ∨ uint32Max < newDtb.size)
    (hhdr : parseHeader (some vendorBoot) options.maximumImageBytes = .ok header)
    (htab : parseTable vendorBoot header = .ok entries)
    (hrepl : findReplaced options header entries = .ok replaced)
    (hlay : planLayout vendorBoot.size header entries replaced newRamdisk.size
      (newDtb.map ImageSource.size) = .ok layout) :
    Planned old ramdisk dtb options.maximumImageBytes header entries replaced layout := by
  have hhdr := (parseHeader_eq_ok_iff hold).mp hhdr
  have hsizes : newDtb.map ImageSource.size = dtb.map length := by
    cases hdtb with
    | none => rfl
    | some hsrc => exact congrArg some hsrc.size_eq
  rw [hnew.size_eq] at hramSize hlay
  rw [hold.size_eq, hsizes] at hlay
  exact {
    header_of := hhdr
    table_of := (parseTable_eq_ok_iff hold hhdr).mp htab
    ramdisk_size := by omega
    dtb_size := by
      cases hdtb with
      | none => exact fun bytes hm => by cases hm
      | some hsrc =>
          rintro bytes ⟨⟩
          rw [← hsrc.size_eq]
          simpa using hdtbSize
    replaced_of := (findReplaced_eq_ok hrepl).2
    layout_of := planLayout_eq_ok hlay }

/-- The collected pieces are in order and cover the image. -/
theorem Planned.checkPieces_eq
    (h : Planned old ramdisk dtb maximum header entries replaced layout) :
    checkPieces 0 ((collectPieces vendorBoot newRamdisk newDtb header entries replaced layout
      (updateHeader header.version layout (slice old 0 header.headerEnd))).insertionSort
        fun a b => a.outputOffset ≤ b.outputOffset) = .ok vendorBoot.size := by
  have hpcs := h.presents_collectPieces hold hnew hdtb
  have hlen := h.length_repackedImage
  have hmax := vendorBoot.size_le
  rw [hold.size_eq] at hmax
  rw [hpcs.insertionSort_eq, hpcs.checkPieces (by omega), hlen, zero_add, hold.size_eq]

/-- A repack that succeeds went through the plan, and its pieces are the collected ones. -/
theorem repackVendorBoot_eq_ok {image : VendorBootImageSource}
    (h : repackVendorBoot (some vendorBoot) (some newRamdisk) newDtb options = .ok image) :
    ∃ header entries replaced layout,
      Planned old ramdisk dtb options.maximumImageBytes header entries replaced layout ∧
        Chosen options.ramdiskName entries replaced ∧
        Presents 0 image.pieces (repackedImage old ramdisk dtb header entries replaced layout) ∧
        image.size = old.length ∧ image.metadata = ⟨header.version, header.pageSize,
          layout.ramdiskSize, layout.dtbSize, layout.tableEntries⟩ := by
  unfold repackVendorBoot at h
  rw [orFail_some_bind] at h
  obtain ⟨hramSize, h⟩ := failIf_bind_eq_ok.mp h
  obtain ⟨hdtbSize, h⟩ := failIf_bind_eq_ok.mp h
  obtain ⟨-, h⟩ := failIf_bind_eq_ok.mp h
  obtain ⟨header, hhdr, h⟩ := bind_eq_ok.mp h
  rw [orFail_some_bind] at h
  obtain ⟨entries, htab, h⟩ := bind_eq_ok.mp h
  obtain ⟨replaced, hrepl, h⟩ := bind_eq_ok.mp h
  obtain ⟨layout, hlay, h⟩ := bind_eq_ok.mp h
  have hplan := planned_of_checks hold hnew hdtb hramSize hdtbSize hhdr htab hrepl hlay
  have hpcs := hplan.presents_collectPieces hold hnew hdtb
  simp only [hplan.readExact_header hold, ok_bind, hplan.checkPieces_eq hold hnew hdtb] at h
  rw [failIf_bind_of_not (not_not.mpr rfl)] at h
  obtain rfl := pure_eq_ok_iff.mp h
  refine ⟨header, entries, replaced, layout, hplan, (findReplaced_eq_ok hrepl).1, ?_,
    hold.size_eq, rfl⟩
  rwa [hpcs.insertionSort_eq]

theorem repackVendorBoot_errors :
    External (repackVendorBoot (some vendorBoot) (some newRamdisk) newDtb options) := by
  unfold repackVendorBoot
  rw [orFail_some_bind]
  refine (errorsIn_failIf (by decide)).bind fun _ hramSize => ?_
  refine (errorsIn_failIf (by decide)).bind fun _ hdtbSize => ?_
  refine errorsIn_failIf_bind (by decide) ?_
  refine (parseHeader_errors _ _).bind fun header hhdr => ?_
  rw [orFail_some_bind]
  refine (parseTable_errors _ _).bind fun entries htab => ?_
  refine (findReplaced_errors _ _ _).bind fun replaced hrepl => ?_
  refine (planLayout_errors _ _ _ _ _ _).bind fun layout hlay => ?_
  have hplan := planned_of_checks hold hnew hdtb (failIf_eq_ok.mp hramSize)
    (failIf_eq_ok.mp hdtbSize) hhdr htab hrepl hlay
  simp only [hplan.readExact_header hold, ok_bind, hplan.checkPieces_eq hold hnew hdtb]
  rw [failIf_bind_of_not (not_not.mpr rfl)]
  exact errorsIn_ok _

end

/-! ### The main result -/

/-- `repack_vendor_boot` is a section replacement: for sources that hold their bytes, a repack
never fails in the check of its piece table, and the image of one that succeeds answers every
request, is accepted by its own readers and replaces the sections that were asked for. -/
theorem repack_replaces_sections {vendorBoot newRamdisk : ImageSource}
    {newDtb : Option ImageSource} {old ramdisk : Bytes} {dtb : Option Bytes}
    (options : VendorBootRepackOptions) (hold : vendorBoot.Holds old)
    (hnew : newRamdisk.Holds ramdisk) (hdtb : Option.Rel ImageSource.Holds newDtb dtb) :
    (∀ image,
      repackVendorBoot (some vendorBoot) (some newRamdisk) newDtb options = .ok image →
        ∃ bytes header header' entries entries',
          (∀ offset length, image.readAt offset length = .ok (slice bytes offset length)) ∧
            image.size = bytes.length ∧
            parseHeader (some vendorBoot) options.maximumImageBytes = .ok header ∧
            parseTable vendorBoot header = .ok entries ∧
            parseHeader (some image.toImageSource) options.maximumImageBytes = .ok header' ∧
            parseTable image.toImageSource header' = .ok entries' ∧
            image.metadata = ⟨header'.version, header'.pageSize, header'.ramdiskSize,
              header'.dtbSize, header'.tableEntries⟩ ∧
            Replaced bytes old ramdisk dtb options.ramdiskName header header' entries entries') ∧
      ∀ e, repackVendorBoot (some vendorBoot) (some newRamdisk) newDtb options = .error e →
        e ≠ piecesNotContiguous ∧ e ≠ piecesWrongSize := by
  refine ⟨fun image himage => ?_, fun e he => ?_⟩
  · obtain ⟨header, entries, replaced, layout, hplan, hchosen, hpieces, hsize, hmetadata⟩ :=
      repackVendorBoot_eq_ok hold hnew hdtb himage
    have hsize := hsize.trans hplan.length_repackedImage.symm
    have hholds := VendorBootImageSource.holds hpieces hsize
    exact ⟨_, header, newHeader header layout, entries, _,
      VendorBootImageSource.readAt_eq hpieces hsize, hsize,
      (parseHeader_eq_ok_iff hold).mpr hplan.header_of,
      (parseTable_eq_ok_iff hold hplan.header_of).mpr hplan.table_of,
      (parseHeader_eq_ok_iff hholds).mpr hplan.headerOf_new,
      (parseTable_eq_ok_iff hholds hplan.headerOf_new).mpr hplan.tableOf_new, hmetadata,
      hplan.replaces hchosen⟩
  · exact not_or.mp (repackVendorBoot_errors hold hnew hdtb e he)

/-- A version 4 image with pages of 512 bytes and two table entries. -/
def sampleVendorBoot : Bytes :=
  let fields := putFields 4 [(8, 4), (12, 512), (24, 5), (2096, 2128), (2100, 3), (2112, 216),
    (2116, 2), (2120, 108), (2124, 1)] (kVendorBootMagic ++ List.replicate 2552 0)
  let first := leBytes 4 2 ++ leBytes 4 0 ++ leBytes 4 1 ++ [0x61] ++ List.replicate 95 0
  let second := leBytes 4 3 ++ leBytes 4 2 ++ leBytes 4 2 ++ [0x62] ++ List.replicate 95 0
  fields ++ padded [1, 2, 3, 4, 5] 512 ++ padded [6, 7, 8] 512 ++ padded (first ++ second) 512 ++
    padded [9] 512 ++ List.replicate 512 10

theorem sample_replaces_sections :
    ∃ image bytes header header' entries entries',
      repackVendorBoot (some (.ofBytes sampleVendorBoot (by decide +kernel)))
          (some (.ofBytes (List.replicate 600 11) (by decide +kernel))) none
          { ramdiskName := [0x61] } = .ok image ∧
        image.size = bytes.length ∧
        Replaced bytes sampleVendorBoot (List.replicate 600 11) none [0x61] header header' entries
          entries' := by
  have hold := ImageSource.holds_ofBytes sampleVendorBoot (by decide +kernel)
  have hnew := ImageSource.holds_ofBytes (List.replicate 600 11) (by decide +kernel)
  have hok : (repackVendorBoot (some (.ofBytes sampleVendorBoot (by decide +kernel)))
      (some (.ofBytes (List.replicate 600 11) (by decide +kernel))) none
      { ramdiskName := [0x61] }).isOk = true := by decide +kernel
  cases h : repackVendorBoot (some (.ofBytes sampleVendorBoot (by decide +kernel)))
      (some (.ofBytes (List.replicate 600 11) (by decide +kernel))) none
      { ramdiskName := [0x61] } with
  | error e => rw [h] at hok; cases hok
  | ok image =>
      obtain ⟨bytes, header, header', entries, entries', -, hsize, -, -, -, -, -, hreplaced⟩ :=
        (repack_replaces_sections { ramdiskName := [0x61] } hold hnew .none).1 image h
      exact ⟨image, bytes, header, header', entries, entries', rfl, hsize, hreplaced⟩

end KairosBoot.VendorBoot
