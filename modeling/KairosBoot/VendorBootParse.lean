import KairosBoot.RecordTables
import KairosBoot.VendorBoot

/-! # What the vendor_boot readers accept

`HeaderOf bytes maximum header` collects what `parse_header` reads and checks, and
`TableOf bytes header entries` what `parse_table` does: the entries are the records of the table,
their names are unique and their offsets describe the ramdisk section without a gap.  For a
source that holds `bytes` the two readers succeed exactly then (`parseHeader_eq_ok_iff`,
`parseTable_eq_ok_iff`), however short its reads are. -/

namespace KairosBoot.VendorBoot

open ByteLib Guards List

/-! ### Alignment -/

/-- The next multiple of `alignment`. -/
def roundUp (value alignment : ℕ) : ℕ := (value + (alignment - 1)) / alignment * alignment

theorem le_roundUp (value : ℕ) {alignment : ℕ} (h : 0 < alignment) :
    value ≤ roundUp value alignment := by
  have hmod := Nat.mod_add_div (value + (alignment - 1)) alignment
  have hlt := Nat.mod_lt (value + (alignment - 1)) h
  rw [roundUp, mul_comm]
  omega

theorem roundUp_le (value alignment : ℕ) : roundUp value alignment ≤ value + (alignment - 1) :=
  Nat.div_mul_le_self _ _

@[simp] theorem roundUp_zero {alignment : ℕ} (h : 0 < alignment) : roundUp 0 alignment = 0 := by
  rw [roundUp, Nat.div_eq_of_lt (by omega), zero_mul]

theorem alignUp_of_le {value alignment : ℕ} (h : value + (alignment - 1) ≤ uint64Max) :
    alignUp value alignment = .ok (roundUp value alignment) := by
  rw [alignUp, checkedAdd_of_le h]
  rfl

/-! ### Reading a held source -/

variable {source : ImageSource} {bytes : Bytes}

theorem readExact_eq (h : source.Holds bytes) {offset length : ℕ}
    (hle : offset + length ≤ bytes.length) :
    readExact source offset length = .ok (slice bytes offset length) := by
  have hsize := h.size_eq
  rw [readExact, failIf_bind_of_not (by omega), readLoop_eq h.serves hle]
  rfl

/-- Zeros after a byte string do not change its value. -/
theorem leNat_append_zeros (l : Bytes) (n : ℕ) : leNat (l ++ replicate n 0) = leNat l := by
  induction l with
  | nil =>
      induction n with
      | zero => rfl
      | succ n ih => simpa [replicate_succ, leNat] using ih
  | cons b bs ih => rw [cons_append, leNat, leNat, ih]

/-- The fields of the header array are those of the image, also when the image is shorter than
the array. -/
theorem readU32_headerArray (bytes : Bytes) {offset : ℕ} (h : offset + 4 ≤ kHeaderV4Size) :
    readU32 (slice bytes 0 (min kHeaderV4Size bytes.length) ++
        replicate (kHeaderV4Size - (slice bytes 0 (min kHeaderV4Size bytes.length)).length) 0)
      offset = readU32 bytes offset := by
  have hlen : (slice bytes 0 (min kHeaderV4Size bytes.length)).length
      = min kHeaderV4Size bytes.length := length_slice (by omega)
  unfold readU32 getLE
  rw [slice_append_replicate _ _ (by omega), leNat_append_zeros, hlen]
  congr 1
  by_cases hoff : offset ≤ bytes.length
  · rw [slice_slice _ (by omega), zero_add]
    unfold slice
    rcases Nat.le_total 4 (bytes.length - offset) with hfull | hshort
    · rw [show min 4 (min kHeaderV4Size bytes.length - offset) = 4 by omega]
    · rw [take_of_length_le (i := 4) (by simpa using hshort),
        take_of_length_le (by rw [length_drop]; omega)]
  · rw [show min 4 (min kHeaderV4Size bytes.length - offset) = 0 by omega, slice_zero_len, slice,
      drop_eq_nil_of_le (by omega), take_nil]

/-! ### The header -/

/-- The fields that `parse_header` reads from an image and checks. -/
structure FieldsOf (bytes : Bytes) (header : ParsedHeader) : Prop where
  magic : slice bytes 0 8 = kVendorBootMagic
  version_eq : header.version = readU32 bytes kHeaderVersionOffset
  version : header.version = 3 ∨ header.version = 4
  headerSize_eq : header.headerSize = readU32 bytes kHeaderSizeOffset
  headerSize : header.headerSize = expectedHeaderSize header.version
  pageSize_eq : header.pageSize = readU32 bytes kPageSizeOffset
  pageSize : 512 ≤ header.pageSize ∧ header.pageSize ≤ kMaximumPageSize ∧
    header.pageSize &&& (header.pageSize - 1) = 0
  ramdiskSize_eq : header.ramdiskSize = readU32 bytes kRamdiskSizeOffset
  dtbSize_eq : header.dtbSize = readU32 bytes kDtbSizeOffset
  nonempty : header.ramdiskSize ≠ 0 ∧ header.dtbSize ≠ 0
  v4_eq : header.version = 4 → header.tableSize = readU32 bytes kTableSizeOffset ∧
    header.tableEntries = readU32 bytes kTableEntryCountOffset ∧
    header.tableEntrySize = readU32 bytes kTableEntrySizeOffset ∧
    header.bootconfigSize = readU32 bytes kBootconfigSizeOffset
  v4 : header.version = 4 → header.tableEntries ≠ 0 ∧ header.tableEntries ≤ kMaximumTableEntries ∧
    kEntryV4Size ≤ header.tableEntrySize ∧
    header.tableEntries * header.tableEntrySize ≤ header.tableSize
  v3 : header.version ≠ 4 → header.tableSize = 0 ∧ header.tableEntries = 0 ∧
    header.tableEntrySize = 0 ∧ header.bootconfigSize = 0

/-- The sections follow the header, each from a page boundary to the next one. -/
structure SectionsOf (header : ParsedHeader) : Prop where
  headerEnd : header.headerEnd = roundUp header.headerSize header.pageSize
  ramdiskEnd : header.ramdiskEnd = header.headerEnd + roundUp header.ramdiskSize header.pageSize
  dtbEnd : header.dtbEnd = header.ramdiskEnd + roundUp header.dtbSize header.pageSize
  tableEnd : header.tableEnd = header.dtbEnd + roundUp header.tableSize header.pageSize
  bootconfigEnd : header.bootconfigEnd
    = header.tableEnd + roundUp header.bootconfigSize header.pageSize

/-- What `parse_header` accepts. -/
structure HeaderOf (bytes : Bytes) (maximum : ℕ) (header : ParsedHeader) : Prop where
  fields : FieldsOf bytes header
  sections : SectionsOf header
  le_maximum : bytes.length ≤ maximum
  le_uint32Max : bytes.length ≤ uint32Max
  inside : header.bootconfigEnd ≤ bytes.length

/-- A header whose section ends are not computed yet. -/
def ParsedHeader.withoutEnds (header : ParsedHeader) : ParsedHeader :=
  { header with headerEnd := 0, ramdiskEnd := 0, dtbEnd := 0, tableEnd := 0, bootconfigEnd := 0 }

def ParsedHeader.withEnds (header : ParsedHeader) : ParsedHeader :=
  let headerEnd := roundUp header.headerSize header.pageSize
  let ramdiskEnd := headerEnd + roundUp header.ramdiskSize header.pageSize
  let dtbEnd := ramdiskEnd + roundUp header.dtbSize header.pageSize
  let tableEnd := dtbEnd + roundUp header.tableSize header.pageSize
  let bootconfigEnd := tableEnd + roundUp header.bootconfigSize header.pageSize
  { header with
    headerEnd := headerEnd
    ramdiskEnd := ramdiskEnd
    dtbEnd := dtbEnd
    tableEnd := tableEnd
    bootconfigEnd := bootconfigEnd }

variable {header : ParsedHeader} {entries : List TableEntry}

theorem sectionsOf_iff : SectionsOf header ↔ header = header.withoutEnds.withEnds := by
  constructor
  · rintro ⟨h1, h2, h3, h4, h5⟩
    cases header
    simp only at h1 h2 h3 h4 h5
    subst h5 h4 h3 h2 h1
    rfl
  · intro h
    rw [h]
    exact ⟨rfl, rfl, rfl, rfl, rfl⟩

theorem fieldsOf_withoutEnds : FieldsOf bytes header.withoutEnds ↔ FieldsOf bytes header :=
  ⟨fun h => ⟨h.1, h.2, h.3, h.4, h.5, h.6, h.7, h.8, h.9, h.10, h.11, h.12, h.13⟩,
    fun h => ⟨h.1, h.2, h.3, h.4, h.5, h.6, h.7, h.8, h.9, h.10, h.11, h.12, h.13⟩⟩

/-- Two byte strings with the same header fields have the same header. -/
theorem FieldsOf.congr {other : Bytes} (h : FieldsOf bytes header)
    (hmagic : slice other 0 8 = slice bytes 0 8)
    (hfield : ∀ offset, offset + 4 ≤ kHeaderV4Size → readU32 other offset = readU32 bytes offset) :
    FieldsOf other header where
  magic := hmagic.trans h.magic
  version_eq := h.version_eq.trans (hfield _ (by decide)).symm
  version := h.version
  headerSize_eq := h.headerSize_eq.trans (hfield _ (by decide)).symm
  headerSize := h.headerSize
  pageSize_eq := h.pageSize_eq.trans (hfield _ (by decide)).symm
  pageSize := h.pageSize
  ramdiskSize_eq := h.ramdiskSize_eq.trans (hfield _ (by decide)).symm
  dtbSize_eq := h.dtbSize_eq.trans (hfield _ (by decide)).symm
  nonempty := h.nonempty
  v4_eq := fun hv => by
    rw [hfield kTableSizeOffset (by decide), hfield kTableEntryCountOffset (by decide),
      hfield kTableEntrySizeOffset (by decide), hfield kBootconfigSizeOffset (by decide)]
    exact h.v4_eq hv
  v4 := h.v4
  v3 := h.v3

theorem parseFields_eq_ok_iff {fields : ParsedHeader} :
    parseFields bytes = .ok fields ↔ FieldsOf bytes fields ∧ fields = fields.withoutEnds := by
  constructor
  · intro h
    simp only [parseFields, failIf_bind_eq_ok, not_not] at h
    obtain ⟨hmagic, hver, hsize, hpage, hnemp, h⟩ := h
    push Not at hpage hnemp
    have hver : readU32 bytes kHeaderVersionOffset = 3 ∨
        readU32 bytes kHeaderVersionOffset = 4 := by omega
    unfold parseV4Fields at h
    split at h
    · next hv =>
      simp only [failIf_bind_eq_ok, pure_eq_ok_iff] at h
      obtain ⟨hdims, hfit, rfl⟩ := h
      push Not at hdims
      exact ⟨⟨hmagic, rfl, hver, rfl, hsize, rfl, hpage, rfl, rfl, hnemp,
        fun _ => ⟨rfl, rfl, rfl, rfl⟩,
        fun _ => ⟨hdims.1, hdims.2.1, hdims.2.2, Nat.le_of_not_lt hfit⟩,
        fun hne => absurd hv hne⟩, rfl⟩
    · next hv =>
      obtain rfl := pure_eq_ok_iff.mp h
      exact ⟨⟨hmagic, rfl, hver, rfl, hsize, rfl, hpage, rfl, rfl, hnemp,
        fun hv' => absurd hv' hv, fun hv' => absurd hv' hv, fun _ => ⟨rfl, rfl, rfl, rfl⟩⟩, rfl⟩
  · rintro ⟨h, hends⟩
    have hver := h.version
    have hversion_eq := h.version_eq
    simp only [parseFields, failIf_bind_eq_ok, not_not, ← h.version_eq, ← h.headerSize_eq,
      ← h.pageSize_eq, ← h.ramdiskSize_eq, ← h.dtbSize_eq]
    refine ⟨h.magic, by omega, h.headerSize, ?_, ?_, ?_⟩
    · push Not
      exact h.pageSize
    · push Not
      exact h.nonempty
    · unfold parseV4Fields
      split
      · next hv =>
        obtain ⟨h1, h2, h3, h4⟩ := h.v4_eq hv
        obtain ⟨g1, g2, g3, g4⟩ := h.v4 hv
        simp only [failIf_bind_eq_ok, pure_eq_ok_iff, ← h1, ← h2, ← h3, ← h4]
        refine ⟨?_, by omega, ?_⟩
        · push Not
          exact ⟨g1, g2, g3⟩
        · rw [hends]
          rfl
      · next hv =>
        obtain ⟨h1, h2, h3, h4⟩ := h.v3 hv
        rw [pure_eq_ok_iff, hends]
        simp only [ParsedHeader.withoutEnds, h1, h2, h3, h4]

theorem layoutSections_eq {fields : ParsedHeader} (h : FieldsOf bytes fields) :
    layoutSections fields = .ok fields.withEnds := by
  have hpage := h.pageSize
  have hram := h.ramdiskSize_eq ▸ readU32_lt bytes kRamdiskSizeOffset
  have hdtb := h.dtbSize_eq ▸ readU32_lt bytes kDtbSizeOffset
  have hhdr := h.headerSize_eq ▸ readU32_lt bytes kHeaderSizeOffset
  unfold kMaximumPageSize at hpage
  have hspan : ∀ value < 2 ^ 32, value + (fields.pageSize - 1) ≤ uint64Max := by
    intro value hval
    unfold uint64Max
    omega
  have hbnd : ∀ value < 2 ^ 32, roundUp value fields.pageSize ≤ 2 ^ 33 := by
    intro value hval
    have := roundUp_le value fields.pageSize
    omega
  have h1 := hbnd _ hhdr
  have h2 := hbnd _ hram
  have h3 := hbnd _ hdtb
  have hadd : ∀ a b, a ≤ 2 ^ 36 → b ≤ 2 ^ 36 → checkedAdd a b = some (a + b) := by
    intro a b ha hb
    refine checkedAdd_of_le ?_
    unfold uint64Max
    omega
  rw [layoutSections, ← h.headerSize, alignUp_of_le (hspan _ hhdr),
    alignUp_of_le (hspan _ hram), alignUp_of_le (hspan _ hdtb)]
  simp only [ok_bind]
  rw [hadd _ _ (by omega) (by omega), orFail_some_bind, hadd _ _ (by omega) (by omega),
    orFail_some_bind]
  unfold layoutV4
  split
  · next hv =>
    obtain ⟨htab, -, -, hboot⟩ := h.v4_eq hv
    have htab := htab ▸ readU32_lt bytes kTableSizeOffset
    have hboot := hboot ▸ readU32_lt bytes kBootconfigSizeOffset
    have h4 := hbnd _ htab
    have h5 := hbnd _ hboot
    simp only [alignUp_of_le (hspan _ htab), alignUp_of_le (hspan _ hboot), Except.mapError,
      ok_bind]
    rw [hadd _ _ (by omega) (by omega), orFail_some_bind, hadd _ _ (by omega) (by omega),
      orFail_some_bind]
    rfl
  · next hv =>
    obtain ⟨htab, -, -, hboot⟩ := h.v3 hv
    simp only [ParsedHeader.withEnds, htab, hboot,
      roundUp_zero (show 0 < fields.pageSize by omega), add_zero]
    rfl

theorem HeaderOf.headerSize_le {maximum : ℕ} (h : HeaderOf bytes maximum header) :
    header.headerSize ≤ header.headerEnd := by
  rw [h.sections.headerEnd]
  exact le_roundUp _ (by have := h.fields.pageSize; omega)

/-- The array into which `parse_header` reads the beginning of an image. -/
def headerArray (bytes : Bytes) : Bytes :=
  slice bytes 0 (min kHeaderV4Size bytes.length) ++
    List.replicate (kHeaderV4Size - (slice bytes 0 (min kHeaderV4Size bytes.length)).length) 0

theorem fieldsOf_headerArray (hlen : kHeaderV3Size ≤ bytes.length) :
    FieldsOf (headerArray bytes) header ↔ FieldsOf bytes header := by
  have hmagic : slice (headerArray bytes) 0 8 = slice bytes 0 8 := by
    unfold kHeaderV3Size at hlen
    have h8 : 8 ≤ min kHeaderV4Size bytes.length := by
      unfold kHeaderV4Size
      omega
    rw [headerArray, slice_append_left (by rw [length_slice (by omega)]; omega),
      slice_slice _ (by omega)]
  exact ⟨fun h => h.congr hmagic.symm fun _ hoff => (readU32_headerArray bytes hoff).symm,
    fun h => h.congr hmagic fun _ hoff => readU32_headerArray bytes hoff⟩

/-- `parse_header` accepts exactly the images with a well-formed header. -/
theorem parseHeader_eq_ok_iff (hs : source.Holds bytes) {maximum : ℕ} :
    parseHeader (some source) maximum = .ok header ↔ HeaderOf bytes maximum header := by
  have hfound : readExact source 0 (min kHeaderV4Size bytes.length)
      = .ok (slice bytes 0 (min kHeaderV4Size bytes.length)) := readExact_eq hs (by omega)
  simp only [parseHeader, orFail_some_bind, checkSource, bind_assoc, failIf_bind_eq_ok, hs.size_eq,
    hfound, ok_bind]
  constructor
  · rintro ⟨-, hmaximum, hlen, h⟩
    obtain ⟨fields, hflds, h⟩ := bind_eq_ok.mp h
    obtain ⟨result, hres, h⟩ := bind_eq_ok.mp h
    obtain ⟨hin, h⟩ := failIf_bind_eq_ok.mp h
    obtain rfl := pure_eq_ok_iff.mp h
    obtain ⟨hflds, hends⟩ := parseFields_eq_ok_iff.mp hflds
    have hflds := (fieldsOf_headerArray (Nat.le_of_not_lt hlen)).mp hflds
    cases ((layoutSections_eq hflds).symm.trans hres)
    exact ⟨fieldsOf_withoutEnds.mp (hends ▸ hflds), sectionsOf_iff.mpr (by rw [hends]; rfl),
      by omega, by omega, by omega⟩
  · intro h
    have hhdr := h.headerSize_le
    have hsecs := h.sections
    have hmaximum := h.le_maximum
    have hmax := h.le_uint32Max
    have hin := h.inside
    have hsize : kHeaderV3Size ≤ header.headerSize := by
      rw [h.fields.headerSize, expectedHeaderSize]
      split <;> decide
    have hends : header.headerEnd ≤ header.bootconfigEnd := by
      rw [hsecs.bootconfigEnd, hsecs.tableEnd, hsecs.dtbEnd, hsecs.ramdiskEnd]
      omega
    have hlen : kHeaderV3Size ≤ bytes.length := by omega
    have hflds : FieldsOf bytes header.withoutEnds := fieldsOf_withoutEnds.mpr h.fields
    have hpars : parseFields (headerArray bytes) = .ok header.withoutEnds :=
      parseFields_eq_ok_iff.mpr ⟨(fieldsOf_headerArray hlen).mpr hflds, rfl⟩
    have hlay : layoutSections header.withoutEnds = .ok header := by
      rw [layoutSections_eq hflds, ← sectionsOf_iff.mp hsecs]
    refine ⟨by unfold kHeaderV3Size at hlen; omega, by omega, by omega, ?_⟩
    rw [← headerArray, hpars, ok_bind, hlay, ok_bind, failIf_bind_of_not (by omega)]
    rfl

/-! ### The table -/

/-- The entries describe the bytes from `expected` to `finish` without a gap. -/
def Contiguous : ℕ → List TableEntry → ℕ → Prop
  | expected, [], finish => finish = expected
  | expected, entry :: rest, finish =>
      entry.offset = expected ∧ entry.size ≠ 0 ∧ Contiguous (expected + entry.size) rest finish

theorem Contiguous.le {expected finish : ℕ} (h : Contiguous expected entries finish) :
    expected ≤ finish := by
  induction entries generalizing expected with
  | nil => exact Nat.le_of_eq (Eq.symm h)
  | cons entry rest ih =>
      have := ih h.2.2
      omega

theorem Contiguous.finish_eq {expected finish : ℕ} (h : Contiguous expected entries finish) :
    finish = expected + (entries.map TableEntry.size).sum := by
  induction entries generalizing expected with
  | nil => exact h
  | cons entry rest ih =>
      rw [ih h.2.2, map_cons, sum_cons, add_assoc]

/-- The entry's name is empty or a valid ramdisk name. -/
def TableEntry.Named (entry : TableEntry) : Prop :=
  entry.name = [] ∨ validRamdiskName entry.name = true

/-- The records of the table, decoded. -/
def entriesOf (bytes : Bytes) (header : ParsedHeader) : List TableEntry :=
  (records bytes header.dtbEnd header.tableEntries header.tableEntrySize).map readEntry

/-- The entries that `parse_table` returns for an image of version 4. -/
structure TableOf (bytes : Bytes) (header : ParsedHeader) (entries : List TableEntry) : Prop where
  entries_eq : entries = entriesOf bytes header
  named : ∀ entry ∈ entries, entry.Named
  nodup : (entries.map TableEntry.name).Nodup
  contiguous : Contiguous 0 entries header.ramdiskSize

theorem parseEntries_eq_ok_iff (hs : source.Holds bytes) (hram : header.ramdiskSize ≤ uint64Max)
    {remaining index expected finish : ℕ} {names : List Bytes}
    (hin : header.dtbEnd + (index + remaining) * header.tableEntrySize ≤ bytes.length)
    (hexp : expected ≤ header.ramdiskSize) :
    parseEntries source header remaining index names expected = .ok (entries, finish) ↔
      entries = (records bytes (header.dtbEnd + index * header.tableEntrySize) remaining
          header.tableEntrySize).map readEntry ∧
        (∀ entry ∈ entries, entry.Named) ∧ (entries.map TableEntry.name).Nodup ∧
        (∀ entry ∈ entries, entry.name ∉ names) ∧ Contiguous expected entries finish ∧
        finish ≤ header.ramdiskSize := by
  induction remaining generalizing index names expected entries finish with
  | zero =>
      simp only [parseEntries, records, range_zero, map_nil, Except.ok.injEq, Prod.mk.injEq]
      constructor
      · rintro ⟨rfl, rfl⟩
        simp [Contiguous, hexp]
      · rintro ⟨rfl, -, -, -, rfl, -⟩
        exact ⟨rfl, rfl⟩
  | succ remaining ih =>
      have hread : readExact source (header.dtbEnd + index * header.tableEntrySize)
          header.tableEntrySize
            = .ok (slice bytes (header.dtbEnd + index * header.tableEntrySize)
                header.tableEntrySize) := by
        refine readExact_eq hs (le_trans ?_ hin)
        rw [add_mul, Nat.succ_mul]
        omega
      rw [parseEntries, hread]
      simp only [ok_bind, failIf_bind_eq_ok]
      rw [records_succ, map_cons]
      generalize readEntry (slice bytes (header.dtbEnd + index * header.tableEntrySize)
        header.tableEntrySize) = entry
      have hnext : header.dtbEnd + (index + 1 + remaining) * header.tableEntrySize
          ≤ bytes.length := by
        rwa [add_assoc, add_comm 1 remaining]
      have hplace : header.dtbEnd + index * header.tableEntrySize + header.tableEntrySize
          = header.dtbEnd + (index + 1) * header.tableEntrySize := by
        rw [Nat.succ_mul, add_assoc]
      rw [hplace]
      constructor
      · rintro ⟨hname, hnew, hplc, h⟩
        obtain ⟨next, hadd, h⟩ := bind_eq_ok.mp h
        obtain rfl := checkedAdd_eq_some (orFail_eq_ok.mp hadd)
        obtain ⟨hlim, h⟩ := failIf_bind_eq_ok.mp h
        obtain ⟨⟨rest, finish'⟩, hrest, h⟩ := bind_eq_ok.mp h
        obtain ⟨rfl, rfl⟩ := Prod.mk.inj (pure_eq_ok_iff.mp h)
        obtain ⟨hrest, hnamed, hnodup, hfresh, hcontig, hfin⟩ := (ih hnext (by omega)).mp hrest
        refine ⟨by rw [hrest], forall_mem_cons.mpr ⟨?_, hnamed⟩, ?_,
          forall_mem_cons.mpr ⟨hnew, fun other hoth => ?_⟩,
          ⟨by omega, by omega, hcontig⟩, hfin⟩
        · by_cases hemp : entry.name = []
          · exact Or.inl hemp
          · exact Or.inr (by simpa [hemp] using hname)
        · rw [map_cons, nodup_cons]
          refine ⟨fun hmem => ?_, hnodup⟩
          obtain ⟨other, hoth, hsame⟩ := mem_map.mp hmem
          exact hfresh other hoth (by simp [hsame])
        · exact fun hmem => hfresh other hoth (mem_cons_of_mem _ hmem)
      · rintro ⟨rfl, hnamed, hnodup, hfresh, ⟨hoff, hsize, hcontig⟩, hfin⟩
        obtain ⟨hent, hnamed⟩ := forall_mem_cons.mp hnamed
        obtain ⟨hnew, hfresh⟩ := forall_mem_cons.mp hfresh
        rw [map_cons, nodup_cons] at hnodup
        have hle := hcontig.le
        refine ⟨?_, hnew, by omega, ?_⟩
        · rintro ⟨hne, hinval⟩
          exact hent.elim hne hinval
        · rw [checkedAdd_of_le (by omega), orFail_some_bind, failIf_bind_of_not (by omega)]
          rw [(ih hnext (by omega)).mpr ⟨rfl, hnamed, hnodup.2, fun other hoth hmem => ?_,
            hcontig, hfin⟩]
          · rfl
          · rcases mem_cons.mp hmem with hsame | hmem
            · exact hnodup.1 (mem_map.mpr ⟨other, hoth, hsame⟩)
            · exact hfresh other hoth hmem

/-- `parse_table` accepts exactly the tables that describe the ramdisk section. -/
theorem parseTable_eq_ok_iff (hs : source.Holds bytes) {maximum : ℕ}
    (hhdr : HeaderOf bytes maximum header) :
    parseTable source header = .ok entries ↔
      if header.version = 4 then TableOf bytes header entries else entries = [] := by
  unfold parseTable
  by_cases hv : header.version = 4
  · rw [if_neg (not_not.mpr hv), if_pos hv]
    have hram : header.ramdiskSize ≤ uint64Max := by
      have := hhdr.fields.ramdiskSize_eq ▸ readU32_lt bytes kRamdiskSizeOffset
      unfold uint64Max
      omega
    have hin : header.dtbEnd + (0 + header.tableEntries) * header.tableEntrySize
        ≤ bytes.length := by
      have hspan := le_roundUp header.tableSize
        (show 0 < header.pageSize by have := hhdr.fields.pageSize; omega)
      have hfit := (hhdr.fields.v4 hv).2.2.2
      have htab := hhdr.sections.tableEnd
      have hboot := hhdr.sections.bootconfigEnd
      have hend := hhdr.inside
      rw [zero_add]
      omega
    have hloop : ∀ finish, parseEntries source header header.tableEntries 0 [] 0
        = .ok (entries, finish) ↔ _ := fun finish =>
      parseEntries_eq_ok_iff hs hram hin (Nat.zero_le _)
    constructor
    · intro h
      obtain ⟨⟨parsed, finish⟩, hpars, h⟩ := bind_eq_ok.mp h
      obtain ⟨hfin, h⟩ := failIf_bind_eq_ok.mp h
      obtain rfl : parsed = entries := pure_eq_ok_iff.mp h
      obtain ⟨hents, hnamed, hnodup, -, hcontig, -⟩ := (hloop finish).mp hpars
      obtain rfl : finish = header.ramdiskSize := not_not.mp hfin
      rw [zero_mul, add_zero] at hents
      exact ⟨hents, hnamed, hnodup, hcontig⟩
    · intro h
      rw [(hloop header.ramdiskSize).mpr ⟨?_, h.named, h.nodup, by simp, h.contiguous, le_rfl⟩]
      · rw [ok_bind, failIf_bind_of_not (by simp)]
        rfl
      · rw [zero_mul, add_zero]
        exact h.entries_eq
  · rw [if_pos hv, if_neg hv, pure_eq_ok_iff]
    exact eq_comm

end KairosBoot.VendorBoot
