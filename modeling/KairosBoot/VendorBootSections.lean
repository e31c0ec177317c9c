import KairosBoot.VendorBootPieces
import Mathlib.Algebra.Order.BigOperators.Group.List

/-! # The sections of a repacked image

The bytes that the collected pieces stand for: the header page with its new dimensions, the four
sections with their padding, the vacated pages and the rest of the old image
(`repackedImage`).  `presents_collectPieces` follows the pieces section by section; the loops over
the table entries are followed entry by entry (`presents_addEntries`, `presents_addRecords`). -/

namespace KairosBoot.VendorBoot

open ByteLib Guards Pieces List

/-! ### The new layout -/

theorem alignUp_eq_ok {value alignment result : ℕ} (h : alignUp value alignment = .ok result) :
    result = roundUp value alignment := by
  obtain ⟨adjusted, hadd, h⟩ := bind_eq_ok.mp h
  rw [← pure_eq_ok_iff.mp h, checkedAdd_eq_some (orFail_eq_ok.mp hadd)]
  rfl

/-- What `planLayout` computes. -/
structure LayoutOf (size : ℕ) (header : ParsedHeader) (entries : List TableEntry)
    (replaced : Option ℕ) (newRamdiskSize : ℕ) (newDtbSize : Option ℕ) (layout : NewLayout) :
    Prop where
  ramdiskSize : layout.ramdiskSize = newRamdiskBytes header entries replaced newRamdiskSize
  ramdiskSize_le : layout.ramdiskSize ≤ uint32Max
  dtbSize : layout.dtbSize = newDtbSize.getD header.dtbSize
  tableSize : layout.tableSize = newDimension header replaced kEntryV4Size header.tableSize
  tableEntries : layout.tableEntries = newDimension header replaced 1 header.tableEntries
  tableEntrySize : layout.tableEntrySize
    = newDimension header replaced kEntryV4Size header.tableEntrySize
  ramdiskSpan : layout.ramdiskSpan = roundUp layout.ramdiskSize header.pageSize
  dtbSpan : layout.dtbSpan = roundUp layout.dtbSize header.pageSize
  tableSpan : layout.tableSpan = roundUp layout.tableSize header.pageSize
  bootconfigSpan : layout.bootconfigSpan = roundUp header.bootconfigSize header.pageSize
  knownEnd : layout.knownEnd = header.headerEnd + layout.ramdiskSpan + layout.dtbSpan +
    layout.tableSpan + layout.bootconfigSpan
  inside : layout.knownEnd ≤ size

theorem planLayout_eq_ok {size newRamdiskSize : ℕ} {header : ParsedHeader}
    {entries : List TableEntry} {replaced newDtbSize : Option ℕ} {layout : NewLayout}
    (h : planLayout size header entries replaced newRamdiskSize newDtbSize = .ok layout) :
    LayoutOf size header entries replaced newRamdiskSize newDtbSize layout := by
  obtain ⟨hmax, h⟩ := failIf_bind_eq_ok.mp h
  obtain ⟨ramdiskSpan, hram, h⟩ := bind_eq_ok.mp h
  obtain ⟨dtbSpan, hdtb, h⟩ := bind_eq_ok.mp h
  obtain ⟨tableSpan, htab, h⟩ := bind_eq_ok.mp h
  obtain ⟨bootconfigSpan, hboot, h⟩ := bind_eq_ok.mp h
  obtain ⟨_, hadd1, h⟩ := bind_eq_ok.mp h
  obtain ⟨_, hadd2, h⟩ := bind_eq_ok.mp h
  obtain ⟨_, hadd3, h⟩ := bind_eq_ok.mp h
  obtain ⟨_, hadd4, h⟩ := bind_eq_ok.mp h
  obtain ⟨hin, h⟩ := failIf_bind_eq_ok.mp h
  obtain rfl := pure_eq_ok_iff.mp h
  rw [mapError_eq_ok_iff] at hram hdtb htab hboot
  obtain rfl := checkedAdd_eq_some (orFail_eq_ok.mp hadd1)
  obtain rfl := checkedAdd_eq_some (orFail_eq_ok.mp hadd2)
  obtain rfl := checkedAdd_eq_some (orFail_eq_ok.mp hadd3)
  obtain rfl := checkedAdd_eq_some (orFail_eq_ok.mp hadd4)
  exact ⟨rfl, Nat.le_of_not_lt hmax, rfl, rfl, rfl, rfl, alignUp_eq_ok hram,
    alignUp_eq_ok hdtb, alignUp_eq_ok htab, alignUp_eq_ok hboot, rfl,
    Nat.le_of_not_lt hin⟩

/-! ### The loops over the table entries -/

variable {vendorBoot newRamdisk : ImageSource} {old ramdisk : Bytes} {header : ParsedHeader}

/-- The bytes of the entries from number `first` on, with those of the replaced one exchanged. -/
def entrySections (old ramdisk : Bytes) (header : ParsedHeader) (replacedIndex first : ℕ)
    (entries : List TableEntry) : List Bytes :=
  (entries.zipIdx first).map fun p =>
    if p.2 = replacedIndex then ramdisk
    else slice old (header.headerEnd + p.1.offset) p.1.size

theorem presents_addEntries (hold : vendorBoot.Holds old) (hnew : newRamdisk.Holds ramdisk)
    (replacedIndex : ℕ) {entries : List TableEntry}
    (hin : ∀ entry ∈ entries, header.headerEnd + entry.offset + entry.size ≤ old.length)
    (output first : ℕ) :
    Presents output (addEntries vendorBoot newRamdisk header replacedIndex output first entries).1
        (entrySections old ramdisk header replacedIndex first entries).flatten ∧
      (addEntries vendorBoot newRamdisk header replacedIndex output first entries).2
        = output + (entrySections old ramdisk header replacedIndex first entries).flatten.length := by
  induction entries generalizing output first with
  | nil => exact ⟨presents_nil output, rfl⟩
  | cons entry rest ih =>
      obtain ⟨hent, hrest⟩ := forall_mem_cons.mp hin
      have hsecs : entrySections old ramdisk header replacedIndex first (entry :: rest)
          = (if first = replacedIndex then ramdisk
              else slice old (header.headerEnd + entry.offset) entry.size) ::
            entrySections old ramdisk header replacedIndex (first + 1) rest := by
        simp [entrySections]
      rw [hsecs, flatten_cons, length_append, addEntries]
      split
      · obtain ⟨hpcs, hend⟩ := ih hrest (output + newRamdisk.size) (first + 1)
        refine ⟨(presents_addSource_all hnew output).append ?_ hpcs, ?_⟩
        · rw [hnew.size_eq]
        · rw [hend, hnew.size_eq, add_assoc]
      · obtain ⟨hpcs, hend⟩ := ih hrest (output + entry.size) (first + 1)
        refine ⟨(presents_addSource hold output hent).append ?_ hpcs, ?_⟩
        · rw [length_slice hent]
        · rw [hend, length_slice hent, add_assoc]

/-- The entries from number `first` on, with the new size of the replaced one. -/
def resizeEntries (replacedIndex newSize first : ℕ) (entries : List TableEntry) : List TableEntry :=
  (entries.zipIdx first).map fun p =>
    { p.1 with size := if p.2 = replacedIndex then newSize else p.1.size }

/-- The entries one after the other from `offset` on. -/
def renumber : ℕ → List TableEntry → List TableEntry
  | _, [] => []
  | offset, entry :: rest => { entry with offset := offset } :: renumber (offset + entry.size) rest

/-- A record of the new table: everything after the size and the offset is kept. -/
def recordBytes (old : Bytes) (header : ParsedHeader) (p : TableEntry × ℕ) : Bytes :=
  leBytes 4 p.1.size ++ (leBytes 4 p.1.offset ++
    slice old (header.dtbEnd + p.2 * header.tableEntrySize + 8) (header.tableEntrySize - 8))

theorem entryPrefix_eq (size ramdiskOffset : ℕ) :
    entryPrefix size ramdiskOffset = leBytes 4 size ++ leBytes 4 ramdiskOffset := by
  have hfst : overwrite (replicate 8 (0 : UInt8)) 0 (leBytes 4 size)
      = leBytes 4 size ++ replicate 4 0 :=
    overwrite_middle (a := []) (b := replicate 4 0) (c := replicate 4 0) rfl (by simp)
  have hsnd : overwrite (leBytes 4 size ++ replicate 4 0) 4 (leBytes 4 ramdiskOffset)
      = leBytes 4 size ++ leBytes 4 ramdiskOffset := by
    have := overwrite_middle (a := leBytes 4 size) (b := replicate 4 0) (c := [])
      (length_leBytes 4 size) ((length_leBytes 4 ramdiskOffset).trans length_replicate.symm)
    rwa [append_nil, append_nil] at this
  unfold entryPrefix writeU32 putLE
  rw [hfst, hsnd]

theorem presents_addRecords (hold : vendorBoot.Holds old) {replacedIndex : ℕ}
    (hsize : 8 ≤ header.tableEntrySize) {entries : List TableEntry} (output : ℕ) {first offset : ℕ}
    (hin : header.dtbEnd + (first + entries.length) * header.tableEntrySize ≤ old.length)
    (hsum : offset + ((resizeEntries replacedIndex newRamdisk.size first entries).map
      TableEntry.size).sum < 2 ^ 32) :
    Presents output
        (addRecords vendorBoot newRamdisk header replacedIndex output first offset entries).1
        (((renumber offset (resizeEntries replacedIndex newRamdisk.size first entries)).zipIdx
          first).flatMap (recordBytes old header)) ∧
      (addRecords vendorBoot newRamdisk header replacedIndex output first offset entries).2
        = output + entries.length * header.tableEntrySize := by
  induction entries generalizing output first offset with
  | nil => exact ⟨presents_nil output, by simp [addRecords]⟩
  | cons entry rest ih =>
      have hresize : resizeEntries replacedIndex newRamdisk.size first (entry :: rest)
          = { entry with size := if first = replacedIndex then newRamdisk.size else entry.size } ::
            resizeEntries replacedIndex newRamdisk.size (first + 1) rest := by
        simp [resizeEntries]
      rw [hresize, map_cons, sum_cons] at hsum
      simp only at hsum
      rw [hresize, renumber, zipIdx_cons, flatMap_cons, addRecords]
      simp only
      generalize (if first = replacedIndex then newRamdisk.size else entry.size) = size at hsum ⊢
      have hmod : (offset + size) % 2 ^ 32 = offset + size := Nat.mod_eq_of_lt (by omega)
      rw [length_cons, ← add_assoc, add_right_comm] at hin
      have hwin : header.dtbEnd + first * header.tableEntrySize + 8 + (header.tableEntrySize - 8)
          ≤ old.length := by
        have : (first + 1) * header.tableEntrySize
            ≤ (first + 1 + rest.length) * header.tableEntrySize :=
          Nat.mul_le_mul_right _ (by omega)
        rw [Nat.succ_mul] at this
        omega
      rw [hmod]
      have hsum' : offset + size + ((resizeEntries replacedIndex newRamdisk.size (first + 1)
          rest).map TableEntry.size).sum < 2 ^ 32 := by omega
      obtain ⟨hpcs, hend⟩ := ih (output + header.tableEntrySize) hin hsum'
      refine ⟨?_, ?_⟩
      · refine Presents.append ?_ ?_ hpcs
        · rw [recordBytes, ← append_assoc, ← entryPrefix_eq]
          refine (presents_addBytes output _).append ?_ (presents_addSource hold _ hwin)
          rw [entryPrefix_eq]
          simp
        · rw [recordBytes, length_append, length_append, length_slice hwin,
            length_leBytes, length_leBytes]
          omega
      · rw [hend, length_cons, Nat.succ_mul]
        omega

/-! ### The new entries -/

theorem map_resizeEntries_size (replacedIndex newSize first : ℕ) (entries : List TableEntry) :
    (resizeEntries replacedIndex newSize first entries).map TableEntry.size
      = (entries.zipIdx first).map fun p => if p.2 = replacedIndex then newSize else p.1.size := by
  simp [resizeEntries, Function.comp_def]

theorem map_zipIdx_replace {α β : Type} (l : List α) (f : α → β) (b : β) (index : ℕ) :
    (l.zipIdx.map fun p => if p.2 = index then b else f p.1) = (l.map f).set index b := by
  apply ext_getElem
  · simp
  · intro i h1 h2
    rw [getElem_set]
    by_cases hi : index = i
    · simp [hi]
    · simp [hi, Ne.symm hi]

theorem length_renumber (offset : ℕ) (entries : List TableEntry) :
    (renumber offset entries).length = entries.length := by
  induction entries generalizing offset with
  | nil => rfl
  | cons entry rest ih => rw [renumber, length_cons, ih, length_cons]

theorem map_renumber {β : Type} (f : TableEntry → β)
    (hf : ∀ entry offset, f { entry with offset := offset } = f entry) (offset : ℕ)
    (entries : List TableEntry) : (renumber offset entries).map f = entries.map f := by
  induction entries generalizing offset with
  | nil => rfl
  | cons entry rest ih => rw [renumber, map_cons, ih, hf, map_cons]

theorem contiguous_renumber (offset : ℕ) {entries : List TableEntry}
    (hsize : ∀ entry ∈ entries, entry.size ≠ 0) :
    Contiguous offset (renumber offset entries) (offset + (entries.map TableEntry.size).sum) := by
  induction entries generalizing offset with
  | nil => rfl
  | cons entry rest ih =>
      obtain ⟨hent, hrest⟩ := forall_mem_cons.mp hsize
      refine ⟨rfl, hent, ?_⟩
      rw [map_cons, sum_cons, ← add_assoc]
      exact ih (offset + entry.size) hrest

def newEntries (newSize index : ℕ) (entries : List TableEntry) : List TableEntry :=
  renumber 0 (resizeEntries index newSize 0 entries)

theorem map_newEntries_name (newSize index : ℕ) (entries : List TableEntry) :
    (newEntries newSize index entries).map TableEntry.name = entries.map TableEntry.name := by
  rw [newEntries, map_renumber _ fun _ _ => rfl]
  rw [resizeEntries, map_map]
  conv_rhs => rw [← zipIdx_map_fst 0 entries, map_map]
  rfl

theorem map_newEntries_size (newSize index : ℕ) (entries : List TableEntry) :
    (newEntries newSize index entries).map TableEntry.size
      = (entries.map TableEntry.size).set index newSize := by
  rw [newEntries, map_renumber _ fun _ _ => rfl, map_resizeEntries_size, map_zipIdx_replace]

theorem length_newEntries (newSize index : ℕ) (entries : List TableEntry) :
    (newEntries newSize index entries).length = entries.length := by
  rw [newEntries, length_renumber]
  simp [resizeEntries]

theorem sum_set {l : List ℕ} {index : ℕ} (h : index < l.length) (n : ℕ) :
    (l.set index n).sum = l.sum - l[index] + n := by
  induction l generalizing index with
  | nil => simp at h
  | cons a l ih =>
      cases index with
      | zero => simp [add_comm]
      | succ index =>
          have hidx : index < l.length := by simpa using h
          have hle : l[index] ≤ l.sum := le_sum_of_mem (getElem_mem hidx)
          simp only [set_cons_succ, sum_cons, getElem_cons_succ]
          rw [ih hidx]
          omega

theorem Contiguous.inside {expected finish : ℕ} {entries : List TableEntry}
    (h : Contiguous expected entries finish) {entry : TableEntry} (hm : entry ∈ entries) :
    entry.size ≠ 0 ∧ entry.offset + entry.size ≤ finish := by
  induction entries generalizing expected with
  | nil => cases hm
  | cons first rest ih =>
      obtain ⟨hoff, hsize, hrest⟩ := h
      rcases mem_cons.mp hm with rfl | hm
      · have := hrest.le
        exact ⟨hsize, by omega⟩
      · exact ih hrest hm

/-! ### The sections -/

/-- A section filled up with zeros. -/
def padded (bytes : Bytes) (span : ℕ) : Bytes :=
  bytes ++ List.replicate (span - bytes.length) 0

theorem length_padded {bytes : Bytes} {span : ℕ} (h : bytes.length ≤ span) :
    (padded bytes span).length = span := by
  rw [padded, length_append, length_replicate]
  omega

def ramdiskSection (old ramdisk : Bytes) (header : ParsedHeader) (entries : List TableEntry)
    (replaced : Option ℕ) : Bytes :=
  match replaced with
  | none => ramdisk
  | some index => (entrySections old ramdisk header index 0 entries).flatten

def dtbSection (old : Bytes) (dtb : Option Bytes) (header : ParsedHeader) : Bytes :=
  dtb.getD (slice old header.ramdiskEnd header.dtbSize)

/-- The records of the new table and what stands after the last one. -/
def recordSection (old : Bytes) (newSize : ℕ) (header : ParsedHeader)
    (entries : List TableEntry) (index : ℕ) : Bytes :=
  (newEntries newSize index entries).zipIdx.flatMap (recordBytes old header) ++
    slice old (header.dtbEnd + header.tableEntries * header.tableEntrySize)
      (header.tableSize - header.tableEntries * header.tableEntrySize)

/-- The only record of a table for the complete ramdisk. -/
def defaultRecord (newSize : ℕ) : Bytes :=
  leBytes 4 newSize ++ List.replicate (kEntryV4Size - 4) 0

def tableSection (old ramdisk : Bytes) (header : ParsedHeader) (entries : List TableEntry)
    (replaced : Option ℕ) : Bytes :=
  if header.version = 4 then
    match replaced with
    | none => defaultRecord ramdisk.length
    | some index => recordSection old ramdisk.length header entries index
  else []

def bootconfigSection (old : Bytes) (header : ParsedHeader) : Bytes :=
  slice old header.tableEnd header.bootconfigSize

/-- The vacated pages and the bytes after both layouts. -/
def tailSection (old : Bytes) (header : ParsedHeader) (output : ℕ) : Bytes :=
  List.replicate (max output header.bootconfigEnd - output) 0 ++
    old.drop (max output header.bootconfigEnd)

def repackedImage (old ramdisk : Bytes) (dtb : Option Bytes) (header : ParsedHeader)
    (entries : List TableEntry) (replaced : Option ℕ) (layout : NewLayout) : Bytes :=
  updateHeader header.version layout (slice old 0 header.headerEnd) ++
    (padded (ramdiskSection old ramdisk header entries replaced) layout.ramdiskSpan ++
      (padded (dtbSection old dtb header) layout.dtbSpan ++
        (padded (tableSection old ramdisk header entries replaced) layout.tableSpan ++
          (padded (bootconfigSection old header) layout.bootconfigSpan ++
            tailSection old header layout.knownEnd))))

/-- What `repack_vendor_boot` has established when it starts to collect the pieces. -/
structure Planned (old ramdisk : Bytes) (dtb : Option Bytes) (maximum : ℕ) (header : ParsedHeader)
    (entries : List TableEntry) (replaced : Option ℕ) (layout : NewLayout) : Prop where
  header_of : HeaderOf old maximum header
  table_of : if header.version = 4 then TableOf old header entries else entries = []
  ramdisk_size : ramdisk.length ≠ 0 ∧ ramdisk.length ≤ uint32Max
  dtb_size : ∀ bytes ∈ dtb, bytes.length ≠ 0 ∧ bytes.length ≤ uint32Max
  replaced_of : ∀ index, replaced = some index → header.version = 4 ∧ index < entries.length
  layout_of : LayoutOf old.length header entries replaced ramdisk.length (dtb.map List.length) layout

variable {dtb : Option Bytes} {maximum : ℕ} {entries : List TableEntry}
  {replaced : Option ℕ} {layout : NewLayout}

namespace Planned

/-- The sizes of the new entries sum up to the new ramdisk. -/
theorem sum_sizes {index : ℕ}
    (h : Planned old ramdisk dtb maximum header entries (some index) layout) :
    ((entries.map TableEntry.size).set index ramdisk.length).sum = layout.ramdiskSize := by
  obtain ⟨hv, hidx⟩ := h.replaced_of index rfl
  have htab := h.table_of
  rw [if_pos hv] at htab
  rw [h.layout_of.ramdiskSize, newRamdiskBytes, sum_set (by simpa using hidx),
    htab.contiguous.finish_eq, zero_add]
  simp [getElem?_eq_getElem hidx]

theorem presents_padded {start output span : ℕ} {pieces : List Piece} {bytes : Bytes}
    (hpcs : Presents start pieces bytes) (houtp : output = start + bytes.length) :
    Presents start (pieces ++ addZero output (span - bytes.length)) (padded bytes span) :=
  hpcs.append houtp (presents_addZero _ _)

theorem writeU32_replicate (size : ℕ) :
    writeU32 (replicate kEntryV4Size 0) 0 size = defaultRecord size :=
  overwrite_middle (a := []) (b := replicate 4 0)
    (c := replicate (kEntryV4Size - 4) (0 : UInt8)) rfl (by simp)

variable {newDtb : Option ImageSource}

section

variable (h : Planned old ramdisk dtb maximum header entries replaced layout)
include h

theorem page_pos : 0 < header.pageSize := by
  have := h.header_of.fields.pageSize
  omega

theorem old_sections :
    header.headerEnd + header.ramdiskSize ≤ header.ramdiskEnd ∧
      header.ramdiskEnd + header.dtbSize ≤ header.dtbEnd ∧
      header.dtbEnd + header.tableSize ≤ header.tableEnd ∧
      header.tableEnd + header.bootconfigSize ≤ header.bootconfigEnd ∧
      header.bootconfigEnd ≤ old.length := by
  have hram := le_roundUp header.ramdiskSize h.page_pos
  have hdtb := le_roundUp header.dtbSize h.page_pos
  have htab := le_roundUp header.tableSize h.page_pos
  have hboot := le_roundUp header.bootconfigSize h.page_pos
  have hsecs := h.header_of.sections
  rw [hsecs.ramdiskEnd, hsecs.dtbEnd, hsecs.tableEnd, hsecs.bootconfigEnd,
    hsecs.tableEnd, hsecs.dtbEnd, hsecs.ramdiskEnd]
  have hin := h.header_of.inside
  rw [hsecs.bootconfigEnd, hsecs.tableEnd, hsecs.dtbEnd, hsecs.ramdiskEnd] at hin
  omega

theorem entry_inside {entry : TableEntry} (hm : entry ∈ entries) :
    entry.size ≠ 0 ∧ header.headerEnd + entry.offset + entry.size ≤ old.length := by
  have htab := h.table_of
  split at htab
  · have hent := htab.contiguous.inside hm
    have hsecs := h.old_sections
    exact ⟨hent.1, by omega⟩
  · rw [htab] at hm
    cases hm

theorem length_entries (hv : header.version = 4) : entries.length = header.tableEntries := by
  have htab := h.table_of
  rw [if_pos hv] at htab
  rw [htab.entries_eq, entriesOf, length_map, length_records]

theorem length_ramdiskSection :
    (ramdiskSection old ramdisk header entries replaced).length = layout.ramdiskSize := by
  cases replaced with
  | none => rw [h.layout_of.ramdiskSize]; rfl
  | some index =>
      have hlens : (entrySections old ramdisk header index 0 entries).map length
          = (entries.map TableEntry.size).set index ramdisk.length := by
        rw [← map_zipIdx_replace, entrySections, map_map]
        refine map_congr_left fun p hp => ?_
        have hp := (h.entry_inside (fst_mem_of_mem_zipIdx hp)).2
        simp only [Function.comp_apply]
        split
        · rfl
        · exact length_slice hp
      rw [ramdiskSection, length_flatten, hlens, h.sum_sizes]

theorem length_dtbSection : (dtbSection old dtb header).length = layout.dtbSize := by
  rw [h.layout_of.dtbSize, dtbSection]
  cases dtb with
  | none =>
      have hsecs := h.old_sections
      exact length_slice (by omega)
  | some bytes => rfl

/-- A kept table: its entries fit, and each is a whole record. -/
theorem table_kept (hv : header.version = 4) :
    8 ≤ header.tableEntrySize ∧
      header.tableEntries * header.tableEntrySize ≤ header.tableSize ∧
      header.dtbEnd + header.tableEntries * header.tableEntrySize ≤ old.length := by
  obtain ⟨-, -, hsize, hfit⟩ := h.header_of.fields.v4 hv
  have hsecs := h.old_sections
  unfold kEntryV4Size at hsize
  exact ⟨by omega, hfit, by omega⟩

theorem length_recordBytes (hv : header.version = 4) {p : TableEntry × ℕ}
    (hp : p.2 < header.tableEntries) :
    (recordBytes old header p).length = header.tableEntrySize := by
  obtain ⟨hsize, -, hin⟩ := h.table_kept hv
  have hlast : (p.2 + 1) * header.tableEntrySize
      ≤ header.tableEntries * header.tableEntrySize := Nat.mul_le_mul_right _ hp
  rw [Nat.succ_mul] at hlast
  rw [recordBytes, length_append, length_append, length_leBytes, length_leBytes,
    length_slice (by omega)]
  omega

theorem length_records (hv : header.version = 4) (newSize index : ℕ) :
    ((newEntries newSize index entries).zipIdx.flatMap (recordBytes old header)).length
      = header.tableEntries * header.tableEntrySize := by
  have hents := h.length_entries hv
  rw [length_flatMap_const fun p hp => h.length_recordBytes hv ?_]
  · rw [length_zipIdx, length_newEntries, hents]
  · have := snd_lt_of_mem_zipIdx hp
    rw [length_newEntries] at this
    omega

theorem length_tableSection :
    (tableSection old ramdisk header entries replaced).length = layout.tableSize := by
  rw [h.layout_of.tableSize]
  unfold tableSection newDimension
  by_cases hv : header.version = 4
  · rw [if_pos hv, if_pos hv]
    obtain ⟨-, hfit, -⟩ := h.table_kept hv
    have hsecs := h.old_sections
    cases replaced with
    | none => rfl
    | some index =>
        simp only [reduceCtorEq, if_false]
        rw [recordSection, length_append, h.length_records hv, length_slice (by omega)]
        omega
  · rw [if_neg hv, if_neg hv]
    rfl

theorem length_bootconfigSection :
    (bootconfigSection old header).length = header.bootconfigSize := by
  have hsecs := h.old_sections
  exact length_slice (by omega)

theorem new_sections :
    layout.ramdiskSize ≤ layout.ramdiskSpan ∧ layout.dtbSize ≤ layout.dtbSpan ∧
      layout.tableSize ≤ layout.tableSpan ∧ header.bootconfigSize ≤ layout.bootconfigSpan := by
  rw [h.layout_of.ramdiskSpan, h.layout_of.dtbSpan, h.layout_of.tableSpan,
    h.layout_of.bootconfigSpan]
  exact ⟨le_roundUp _ h.page_pos, le_roundUp _ h.page_pos, le_roundUp _ h.page_pos,
    le_roundUp _ h.page_pos⟩

/-- An image of version 3 has no table and no bootconfig section. -/
theorem spans_of_v3 (hv : header.version ≠ 4) : layout.tableSpan = 0 ∧ layout.bootconfigSpan = 0 ∧
      tableSection old ramdisk header entries replaced = [] ∧ bootconfigSection old header = [] := by
  obtain ⟨-, -, -, hboot⟩ := h.header_of.fields.v3 hv
  rw [h.layout_of.tableSpan, h.layout_of.bootconfigSpan, h.layout_of.tableSize, hboot]
  refine ⟨?_, roundUp_zero h.page_pos, if_neg hv, ?_⟩
  · rw [newDimension, if_neg hv, roundUp_zero h.page_pos]
  · rw [bootconfigSection, hboot, slice_zero_len]

/-! ### The pieces of each section -/

variable (hold : vendorBoot.Holds old)
include hold

theorem presents_ramdisk (hnew : newRamdisk.Holds ramdisk) :
    Presents header.headerEnd
      (ramdiskPieces vendorBoot newRamdisk header entries replaced layout)
      (padded (ramdiskSection old ramdisk header entries replaced) layout.ramdiskSpan) := by
  unfold ramdiskPieces
  rw [← h.length_ramdiskSection]
  cases replaced with
  | none =>
      refine presents_padded (presents_addSource_all hnew _) ?_
      rw [hnew.size_eq]
      rfl
  | some index =>
      obtain ⟨hpcs, hend⟩ := presents_addEntries hold hnew index
        (fun entry hm => (h.entry_inside hm).2) header.headerEnd 0
      exact presents_padded hpcs hend

theorem presents_dtb (hdtb : Option.Rel ImageSource.Holds newDtb dtb) :
    Presents (header.headerEnd + layout.ramdiskSpan) (dtbPieces vendorBoot newDtb header layout)
      (padded (dtbSection old dtb header) layout.dtbSpan) := by
  have hlen := h.length_dtbSection
  unfold dtbPieces
  rw [← hlen]
  cases hdtb with
  | none =>
      have hsecs := h.old_sections
      exact presents_padded (presents_addSource hold _ (by omega)) rfl
  | some hsrc => exact presents_padded (presents_addSource_all hsrc _) rfl

theorem presents_table (hv : header.version = 4) (hnew : newRamdisk.Holds ramdisk) :
    Presents (header.headerEnd + layout.ramdiskSpan + layout.dtbSpan)
      (tablePieces vendorBoot newRamdisk header entries replaced layout)
      (padded (tableSection old ramdisk header entries replaced) layout.tableSpan) := by
  have hlen := h.length_tableSection
  unfold tablePieces
  rw [← hlen]
  cases replaced with
  | none =>
      have hsection : tableSection old ramdisk header entries none
          = writeU32 (replicate kEntryV4Size 0) 0 layout.ramdiskSize := by
        rw [tableSection, if_pos hv, writeU32_replicate, h.layout_of.ramdiskSize]
        rfl
      rw [hsection]
      simp only
      refine presents_padded (presents_addBytes _ _) ?_
      rw [writeU32_replicate]
      rfl
  | some index =>
      obtain ⟨hsize, hfit, hin⟩ := h.table_kept hv
      have hsecs := h.old_sections
      have hents := h.length_entries hv
      have hplace : header.dtbEnd + (0 + entries.length) * header.tableEntrySize ≤ old.length := by
        rwa [zero_add, hents]
      have hsum : 0 + ((resizeEntries index newRamdisk.size 0 entries).map TableEntry.size).sum
          < 2 ^ 32 := by
        have hmax := h.layout_of.ramdiskSize_le
        unfold uint32Max at hmax
        rw [map_resizeEntries_size, map_zipIdx_replace, hnew.size_eq, h.sum_sizes]
        omega
      obtain ⟨hpcs, hend⟩ := presents_addRecords hold hsize
        (header.headerEnd + layout.ramdiskSpan + layout.dtbSpan) hplace hsum
      rw [hnew.size_eq, ← newEntries] at hpcs
      have hrecs := h.length_records hv ramdisk.length index
      have hrest : header.dtbEnd + header.tableEntries * header.tableEntrySize +
          (header.tableSize - header.tableEntries * header.tableEntrySize) ≤ old.length := by omega
      rw [tableSection, if_pos hv]
      refine presents_padded (hpcs.append ?_ (presents_addSource hold _ hrest)) ?_
      · rw [hend, hents, hrecs]
      · simp only
        rw [hend, hents, recordSection, length_append, hrecs, length_slice hrest, add_assoc]

theorem presents_bootconfig :
    Presents (header.headerEnd + layout.ramdiskSpan + layout.dtbSpan + layout.tableSpan)
      (bootconfigPieces vendorBoot header layout)
      (padded (bootconfigSection old header) layout.bootconfigSpan) := by
  have hlen := h.length_bootconfigSection
  have hsecs := h.old_sections
  have hpad : layout.bootconfigSpan - header.bootconfigSize
      = layout.bootconfigSpan - (bootconfigSection old header).length := by rw [hlen]
  unfold bootconfigPieces
  rw [hpad]
  exact presents_padded (presents_addSource hold _ (by omega)) (by rw [hlen])

end

theorem presents_tail (hold : vendorBoot.Holds old) {output : ℕ}
    (hin : max output header.bootconfigEnd ≤ old.length) :
    Presents output (tailPieces vendorBoot header output) (tailSection old header output) := by
  unfold tailPieces tailSection
  refine (presents_addZero output _).append (show max output header.bootconfigEnd = _ from ?_) ?_
  · rw [length_replicate]
    omega
  · rw [hold.size_eq]
    split
    · have htail := presents_addSource hold (max output header.bootconfigEnd)
        (show max output header.bootconfigEnd + (old.length - max output header.bootconfigEnd)
          ≤ old.length by omega)
      rwa [slice, take_of_length_le (by rw [length_drop])] at htail
    · rw [drop_eq_nil_of_le (by omega)]
      exact presents_nil _

end Planned

end KairosBoot.VendorBoot
