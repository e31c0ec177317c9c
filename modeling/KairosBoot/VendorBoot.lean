import KairosBoot.Guards
import KairosBoot.ImageSource
import Mathlib.Data.List.Sort

/-! # Repacking a vendor_boot image

`vendor_boot_repacker.cpp`: the header and the ramdisk table of a `vendor_boot` image of version
3 or 4 are read (`parseHeader`, `parseTable`), and `repackVendorBoot` replaces the vendor ramdisk,
or one entry of the table, and the device tree.  The result is not written out: it is a source
that serves a table of pieces, which are windows of the three inputs, bytes in memory and zeros
(`VendorBootImageSource.readAt`).

A null pointer is `none`.  Names are byte strings.  The cancellation token is never stopped and
every allocation succeeds.  The pieces are collected in the order of the source and then sorted by
their offset; no two of them start at the same offset, so any sort gives the same table. -/

namespace KairosBoot.VendorBoot

open ByteLib Guards

inductive VendorBootRepackErrorKind where
  | invalidArgument | malformed | unsupported | source | sizeOverflow | cancelled | allocation
  deriving DecidableEq, Repr

structure VendorBootRepackError where
  kind : VendorBootRepackErrorKind
  message : String
  deriving DecidableEq, Repr

/-- The name that stands for the complete vendor ramdisk. -/
def defaultRamdiskName : Bytes := [0x64, 0x65, 0x66, 0x61, 0x75, 0x6c, 0x74]

structure VendorBootRepackOptions where
  ramdiskName : Bytes := defaultRamdiskName
  maximumImageBytes : ℕ := 0xffffffff

structure VendorBootRepackMetadata where
  headerVersion : ℕ
  pageSize : ℕ
  vendorRamdiskSize : ℕ
  dtbSize : ℕ
  tableEntryCount : ℕ
  deriving DecidableEq, Repr

/-- `VNDRBOOT`. -/
def kVendorBootMagic : Bytes := [0x56, 0x4e, 0x44, 0x52, 0x42, 0x4f, 0x4f, 0x54]

def kHeaderV3Size : ℕ := 2112
def kHeaderV4Size : ℕ := 2128
def kEntryV4Size : ℕ := 108
def kMaximumPageSize : ℕ := 64 * 1024
def kMaximumTableEntries : ℕ := 65536

def kHeaderVersionOffset : ℕ := 8
def kPageSizeOffset : ℕ := 12
def kRamdiskSizeOffset : ℕ := 24
def kHeaderSizeOffset : ℕ := 2096
def kDtbSizeOffset : ℕ := 2100
def kTableSizeOffset : ℕ := 2112
def kTableEntryCountOffset : ℕ := 2116
def kTableEntrySizeOffset : ℕ := 2120
def kBootconfigSizeOffset : ℕ := 2124

/-- `write_u32`. -/
def writeU32 (bytes : Bytes) (offset value : ℕ) : Bytes := putLE bytes offset 4 value

/-- `align_up`. -/
def alignUp (value alignment : ℕ) : Except VendorBootRepackError ℕ := do
  let adjusted ← orFail (checkedAdd value (alignment - 1))
    ⟨.sizeOverflow, "vendor_boot section alignment overflows 64-bit size"⟩
  pure (adjusted / alignment * alignment)

/-- The error `read_exact` reports for a request its source did not complete. -/
def readFaultError : ReadFault ImageSourceError → VendorBootRepackError
  | .failed _ e => ⟨.source, "vendor_boot read failed: " ++ e.message⟩
  | .excess _ => ⟨.malformed, "vendor_boot source was truncated"⟩
  | .stalled _ => ⟨.malformed, "vendor_boot source was truncated"⟩

/-- `read_exact` for a destination of `length` bytes. -/
def readExact (source : ImageSource) (offset length : ℕ) : Except VendorBootRepackError Bytes := do
  failIf (source.size < offset ∨ source.size - offset < length)
    ⟨.malformed, "vendor_boot section lies outside the fetched image"⟩
  (readLoop source.readAt offset length length []).mapError readFaultError

/-- `valid_ramdisk_name`: printable characters other than the colon. -/
def validRamdiskName (value : Bytes) : Bool :=
  value ≠ [] && decide (value.length ≤ 32) &&
    value.all fun character => 0x21 ≤ character && character ≤ 0x7e && character ≠ 0x3a

/-! ### The header -/

structure ParsedHeader where
  version : ℕ
  headerSize : ℕ
  pageSize : ℕ
  ramdiskSize : ℕ
  dtbSize : ℕ
  tableSize : ℕ := 0
  tableEntries : ℕ := 0
  tableEntrySize : ℕ := 0
  bootconfigSize : ℕ := 0
  headerEnd : ℕ := 0
  ramdiskEnd : ℕ := 0
  dtbEnd : ℕ := 0
  tableEnd : ℕ := 0
  bootconfigEnd : ℕ := 0
  deriving DecidableEq, Repr

def expectedHeaderSize (version : ℕ) : ℕ := if version = 3 then kHeaderV3Size else kHeaderV4Size

/-- The checks of the source before its header is read. -/
def checkSource (size maximumImageBytes : ℕ) : Except VendorBootRepackError Unit := do
  failIf (maximumImageBytes < size ∨ uint32Max < size)
    ⟨.sizeOverflow, "vendor_boot image exceeds the configured 32-bit limit"⟩
  failIf (size < kHeaderV3Size) ⟨.malformed, "vendor_boot image is smaller than a v3 header"⟩

/-- The dimensions of the ramdisk table and of the bootconfig section, which version 4 added. -/
def parseV4Fields (bytes : Bytes) (result : ParsedHeader) :
    Except VendorBootRepackError ParsedHeader :=
  if result.version = 4 then do
    let result := { result with
      tableSize := readU32 bytes kTableSizeOffset
      tableEntries := readU32 bytes kTableEntryCountOffset
      tableEntrySize := readU32 bytes kTableEntrySizeOffset
      bootconfigSize := readU32 bytes kBootconfigSizeOffset }
    failIf (result.tableEntries = 0 ∨ kMaximumTableEntries < result.tableEntries ∨
        result.tableEntrySize < kEntryV4Size)
      ⟨.malformed, "vendor_boot v4 table dimensions are invalid"⟩
    failIf (result.tableSize < result.tableEntries * result.tableEntrySize)
      ⟨.malformed, "vendor_boot v4 table entries exceed table_size"⟩
    pure result
  else pure result

/-- The fields of a header that was read into an array of `kHeaderV4Size` bytes. -/
def parseFields (bytes : Bytes) : Except VendorBootRepackError ParsedHeader := do
  failIf (slice bytes 0 8 ≠ kVendorBootMagic) ⟨.malformed, "vendor_boot magic is not VNDRBOOT"⟩
  let version := readU32 bytes kHeaderVersionOffset
  failIf (version ≠ 3 ∧ version ≠ 4)
    ⟨.unsupported, "vendor_boot header version must be 3 or 4"⟩
  let headerSize := readU32 bytes kHeaderSizeOffset
  failIf (headerSize ≠ expectedHeaderSize version)
    ⟨.malformed, "vendor_boot header_size does not match its version"⟩
  let pageSize := readU32 bytes kPageSizeOffset
  failIf (pageSize < 512 ∨ kMaximumPageSize < pageSize ∨ pageSize &&& (pageSize - 1) ≠ 0)
    ⟨.malformed, "vendor_boot page_size must be a power of two from 512 to 65536"⟩
  let ramdiskSize := readU32 bytes kRamdiskSizeOffset
  let dtbSize := readU32 bytes kDtbSizeOffset
  failIf (ramdiskSize = 0 ∨ dtbSize = 0)
    ⟨.malformed, "vendor_boot ramdisk and DTB sections must be non-empty"⟩
  parseV4Fields bytes
    { version := version, headerSize := headerSize, pageSize := pageSize,
      ramdiskSize := ramdiskSize, dtbSize := dtbSize }

/-- The ends of the two sections of version 4. -/
def layoutV4 (result : ParsedHeader) : Except VendorBootRepackError ParsedHeader :=
  let overflow : VendorBootRepackError :=
    ⟨.sizeOverflow, "vendor_boot v4 layout overflows 64-bit size"⟩
  if result.version = 4 then do
    let tableSpan ← (alignUp result.tableSize result.pageSize).mapError fun _ => overflow
    let bootconfigSpan ← (alignUp result.bootconfigSize result.pageSize).mapError fun _ => overflow
    let tableEnd ← orFail (checkedAdd result.dtbEnd tableSpan) overflow
    let bootconfigEnd ← orFail (checkedAdd tableEnd bootconfigSpan) overflow
    pure { result with tableEnd := tableEnd, bootconfigEnd := bootconfigEnd }
  else pure { result with tableEnd := result.dtbEnd, bootconfigEnd := result.dtbEnd }

/-- The end of every section: each starts on the page after the one before it. -/
def layoutSections (result : ParsedHeader) : Except VendorBootRepackError ParsedHeader := do
  let headerEnd ← alignUp (expectedHeaderSize result.version) result.pageSize
  let ramdiskSpan ← alignUp result.ramdiskSize result.pageSize
  let dtbSpan ← alignUp result.dtbSize result.pageSize
  let overflow : VendorBootRepackError :=
    ⟨.sizeOverflow, "vendor_boot base layout overflows 64-bit size"⟩
  let ramdiskEnd ← orFail (checkedAdd headerEnd ramdiskSpan) overflow
  let dtbEnd ← orFail (checkedAdd ramdiskEnd dtbSpan) overflow
  layoutV4 { result with headerEnd := headerEnd, ramdiskEnd := ramdiskEnd, dtbEnd := dtbEnd }

/-- `parse_header`. -/
def parseHeader (source : Option ImageSource) (maximumImageBytes : ℕ) :
    Except VendorBootRepackError ParsedHeader := do
  let missing : VendorBootRepackError :=
    ⟨.invalidArgument, "vendor_boot source must not be empty"⟩
  let source ← orFail source missing
  failIf (source.size = 0) missing
  checkSource source.size maximumImageBytes
  let found ← readExact source 0 (min kHeaderV4Size source.size)
  let fields ← parseFields (found ++ List.replicate (kHeaderV4Size - found.length) 0)
  let result ← layoutSections fields
  failIf (source.size < result.bootconfigEnd)
    ⟨.malformed, "vendor_boot declared sections exceed the fetched image"⟩
  pure result

/-! ### The ramdisk table -/

structure TableEntry where
  size : ℕ
  offset : ℕ
  name : Bytes
  deriving DecidableEq, Repr

/-- The fields of one record; the name ends at its first zero byte. -/
def readEntry (bytes : Bytes) : TableEntry where
  size := readU32 bytes 0
  offset := readU32 bytes 4
  name := (slice bytes 12 32).takeWhile (· ≠ 0)

/-- The loop of `parse_table` over the `remaining` records from `index` on. -/
def parseEntries (source : ImageSource) (header : ParsedHeader) :
    ℕ → ℕ → List Bytes → ℕ → Except VendorBootRepackError (List TableEntry × ℕ)
  | 0, _, _, expectedOffset => .ok ([], expectedOffset)
  | remaining + 1, index, names, expectedOffset => do
      let bytes ← readExact source (header.dtbEnd + index * header.tableEntrySize)
        header.tableEntrySize
      let entry := readEntry bytes
      failIf (entry.name ≠ [] ∧ ¬ validRamdiskName entry.name)
        ⟨.malformed, "vendor_boot v4 table contains an invalid ramdisk name"⟩
      failIf (entry.name ∈ names) ⟨.malformed, "vendor_boot v4 ramdisk names are not unique"⟩
      let scattered : VendorBootRepackError :=
        ⟨.malformed, "vendor_boot v4 ramdisk entries are not one contiguous section"⟩
      failIf (entry.offset ≠ expectedOffset ∨ entry.size = 0) scattered
      let expectedOffset ← orFail (checkedAdd expectedOffset entry.size) scattered
      failIf (header.ramdiskSize < expectedOffset) scattered
      let rest ← parseEntries source header remaining (index + 1) (entry.name :: names)
        expectedOffset
      pure (entry :: rest.1, rest.2)

/-- `parse_table`. -/
def parseTable (source : ImageSource) (header : ParsedHeader) :
    Except VendorBootRepackError (List TableEntry) :=
  if header.version ≠ 4 then pure []
  else do
    let parsed ← parseEntries source header header.tableEntries 0 [] 0
    failIf (parsed.2 ≠ header.ramdiskSize)
      ⟨.malformed, "vendor_boot v4 table does not describe the complete ramdisk"⟩
    pure parsed.1

/-! ### The repacked image as a source -/

/-- What a piece holds: a window of a source, bytes in memory, or zeros. -/
inductive PieceContent where
  | source (source : ImageSource) (sourceOffset : ℕ)
  | bytes (data : Bytes)
  | zero

structure Piece where
  outputOffset : ℕ
  size : ℕ
  content : PieceContent

structure VendorBootImageSource where
  size : ℕ
  size_le : size ≤ uint64Max
  metadata : VendorBootRepackMetadata
  pieces : List Piece

/-- The copy loop of `VendorBootImageSource::read_at`; every round copies at least one byte, so
`fuel` is the number of bytes that are still missing. -/
def readPieces (pieces : List Piece) (offset requested : ℕ) :
    ℕ → Bytes → Except ImageSourceError Bytes
  | 0, done => .ok done
  | fuel + 1, done =>
      if done.length < requested then
        let current := offset + done.length
        match pieces.find? fun piece =>
            decide (piece.outputOffset ≤ current ∧ current - piece.outputOffset < piece.size) with
        | none => .error ⟨"vendor_boot repack piece table has a gap"⟩
        | some found =>
            let within := current - found.outputOffset
            let amount := min (requested - done.length) (found.size - within)
            match found.content with
            | .zero => readPieces pieces offset requested fuel (done ++ List.replicate amount 0)
            | .bytes data =>
                readPieces pieces offset requested fuel (done ++ slice data within amount)
            | .source source sourceOffset =>
                match source.readAt (sourceOffset + within) amount with
                | .error e => .error e
                | .ok got =>
                    if got.length = 0 ∨ amount < got.length then
                      .error ⟨"vendor_boot repack payload violated its declared size"⟩
                    else readPieces pieces offset requested fuel (done ++ got)
      else .ok done

/-- `VendorBootImageSource::read_at`. -/
def VendorBootImageSource.readAt (image : VendorBootImageSource) (offset length : ℕ) :
    Except ImageSourceError Bytes :=
  if length = 0 ∨ image.size ≤ offset then .ok []
  else
    let requested := min length (image.size - offset)
    readPieces image.pieces offset requested requested []

/-- The repacked image as the other readers see it. -/
def VendorBootImageSource.toImageSource (image : VendorBootImageSource) : ImageSource where
  size := image.size
  size_le := image.size_le
  readAt := image.readAt

/-! ### Collecting the pieces -/

/-- `add_source`. -/
def addSource (output size : ℕ) (source : ImageSource) (sourceOffset : ℕ) : List Piece :=
  if size ≠ 0 then [⟨output, size, .source source sourceOffset⟩] else []

/-- `add_bytes`. -/
def addBytes (output : ℕ) (bytes : Bytes) : List Piece :=
  if bytes ≠ [] then [⟨output, bytes.length, .bytes bytes⟩] else []

/-- `add_zero`. -/
def addZero (output size : ℕ) : List Piece :=
  if size ≠ 0 then [⟨output, size, .zero⟩] else []

/-- The loop over the entries that writes the ramdisk section; it returns the pieces and the
offset after them. -/
def addEntries (vendorBoot newRamdisk : ImageSource) (header : ParsedHeader)
    (replacedIndex : ℕ) : ℕ → ℕ → List TableEntry → List Piece × ℕ
  | output, _, [] => ([], output)
  | output, index, entry :: rest =>
      if index = replacedIndex then
        let next := addEntries vendorBoot newRamdisk header replacedIndex
          (output + newRamdisk.size) (index + 1) rest
        (addSource output newRamdisk.size newRamdisk 0 ++ next.1, next.2)
      else
        let next := addEntries vendorBoot newRamdisk header replacedIndex (output + entry.size)
          (index + 1) rest
        (addSource output entry.size vendorBoot (header.headerEnd + entry.offset) ++ next.1,
          next.2)

/-- The first eight bytes of a record: the size and the offset of the entry. -/
def entryPrefix (size ramdiskOffset : ℕ) : Bytes :=
  writeU32 (writeU32 (List.replicate 8 0) 0 size) 4 ramdiskOffset

/-- The loop over the entries that writes the table; `ramdiskOffset` is a 32-bit number. -/
def addRecords (vendorBoot newRamdisk : ImageSource) (header : ParsedHeader)
    (replacedIndex : ℕ) : ℕ → ℕ → ℕ → List TableEntry → List Piece × ℕ
  | output, _, _, [] => ([], output)
  | output, index, ramdiskOffset, entry :: rest =>
      let size := if index = replacedIndex then newRamdisk.size else entry.size
      let next := addRecords vendorBoot newRamdisk header replacedIndex
        (output + header.tableEntrySize) (index + 1) ((ramdiskOffset + size) % 2 ^ 32) rest
      (addBytes output (entryPrefix size ramdiskOffset) ++
        addSource (output + 8) (header.tableEntrySize - 8) vendorBoot
          (header.dtbEnd + index * header.tableEntrySize + 8) ++ next.1, next.2)

/-! ### Repacking -/

/-- The entry to replace: `none` is the complete ramdisk. -/
def findReplaced (options : VendorBootRepackOptions) (header : ParsedHeader)
    (entries : List TableEntry) : Except VendorBootRepackError (Option ℕ) :=
  if options.ramdiskName = defaultRamdiskName then pure none
  else do
    failIf (header.version ≠ 4)
      ⟨.unsupported, "named vendor ramdisk replacement requires header v4"⟩
    let index ← orFail (entries.findIdx? fun entry => entry.name = options.ramdiskName)
      ⟨.invalidArgument, "named vendor ramdisk was not found in the v4 table"⟩
    pure (some index)

structure NewLayout where
  ramdiskSize : ℕ
  dtbSize : ℕ
  tableSize : ℕ
  tableEntries : ℕ
  tableEntrySize : ℕ
  ramdiskSpan : ℕ
  dtbSpan : ℕ
  tableSpan : ℕ
  bootconfigSpan : ℕ
  knownEnd : ℕ
  deriving DecidableEq, Repr

/-- A table dimension of the new image: a version 3 image has no table, and replacing the complete
ramdisk makes a new one. -/
def newDimension (header : ParsedHeader) (replaced : Option ℕ) (fresh kept : ℕ) : ℕ :=
  if header.version = 4 then (if replaced = none then fresh else kept) else 0

def newRamdiskBytes (header : ParsedHeader) (entries : List TableEntry) (replaced : Option ℕ)
    (newRamdiskSize : ℕ) : ℕ :=
  match replaced with
  | none => newRamdiskSize
  | some index =>
      header.ramdiskSize - (entries[index]?.map TableEntry.size).getD 0 + newRamdiskSize

/-- The sizes, the spans and the check that everything fits. -/
def planLayout (vendorBootSize : ℕ) (header : ParsedHeader) (entries : List TableEntry)
    (replaced : Option ℕ) (newRamdiskSize : ℕ) (newDtbSize : Option ℕ) :
    Except VendorBootRepackError NewLayout := do
  let ramdiskSize := newRamdiskBytes header entries replaced newRamdiskSize
  failIf (uint32Max < ramdiskSize) ⟨.sizeOverflow, "repacked vendor ramdisk exceeds UINT32_MAX"⟩
  let dtbSize := newDtbSize.getD header.dtbSize
  let tableSize := newDimension header replaced kEntryV4Size header.tableSize
  let misaligned : VendorBootRepackError :=
    ⟨.sizeOverflow, "repacked vendor_boot layout cannot be aligned"⟩
  let ramdiskSpan ← (alignUp ramdiskSize header.pageSize).mapError fun _ => misaligned
  let dtbSpan ← (alignUp dtbSize header.pageSize).mapError fun _ => misaligned
  let tableSpan ← (alignUp tableSize header.pageSize).mapError fun _ => misaligned
  let bootconfigSpan ← (alignUp header.bootconfigSize header.pageSize).mapError fun _ => misaligned
  let tooLarge : VendorBootRepackError :=
    ⟨.sizeOverflow, "repacked vendor_boot sections do not fit the fetched partition image"⟩
  let knownEnd ← orFail (checkedAdd header.headerEnd ramdiskSpan) tooLarge
  let knownEnd ← orFail (checkedAdd knownEnd dtbSpan) tooLarge
  let knownEnd ← orFail (checkedAdd knownEnd tableSpan) tooLarge
  let knownEnd ← orFail (checkedAdd knownEnd bootconfigSpan) tooLarge
  failIf (vendorBootSize < knownEnd) tooLarge
  pure {
    ramdiskSize := ramdiskSize
    dtbSize := dtbSize
    tableSize := tableSize
    tableEntries := newDimension header replaced 1 header.tableEntries
    tableEntrySize := newDimension header replaced kEntryV4Size header.tableEntrySize
    ramdiskSpan := ramdiskSpan
    dtbSpan := dtbSpan
    tableSpan := tableSpan
    bootconfigSpan := bootconfigSpan
    knownEnd := knownEnd }

def updateHeader (version : ℕ) (layout : NewLayout) (page : Bytes) : Bytes :=
  let page := writeU32 page kRamdiskSizeOffset layout.ramdiskSize
  let page := writeU32 page kDtbSizeOffset layout.dtbSize
  if version = 4 then
    let page := writeU32 page kTableSizeOffset layout.tableSize
    let page := writeU32 page kTableEntryCountOffset layout.tableEntries
    writeU32 page kTableEntrySizeOffset layout.tableEntrySize
  else page

def ramdiskPieces (vendorBoot newRamdisk : ImageSource) (header : ParsedHeader)
    (entries : List TableEntry) (replaced : Option ℕ) (layout : NewLayout) : List Piece :=
  let output := header.headerEnd
  let ramdisk :=
    match replaced with
    | none => (addSource output newRamdisk.size newRamdisk 0, output + newRamdisk.size)
    | some index => addEntries vendorBoot newRamdisk header index output 0 entries
  ramdisk.1 ++ addZero ramdisk.2 (layout.ramdiskSpan - layout.ramdiskSize)

def dtbPieces (vendorBoot : ImageSource) (newDtb : Option ImageSource) (header : ParsedHeader)
    (layout : NewLayout) : List Piece :=
  let output := header.headerEnd + layout.ramdiskSpan
  (match newDtb with
    | some newDtb => addSource output newDtb.size newDtb 0
    | none => addSource output header.dtbSize vendorBoot header.ramdiskEnd) ++
  addZero (output + layout.dtbSize) (layout.dtbSpan - layout.dtbSize)

def tablePieces (vendorBoot newRamdisk : ImageSource) (header : ParsedHeader)
    (entries : List TableEntry) (replaced : Option ℕ) (layout : NewLayout) : List Piece :=
  let output := header.headerEnd + layout.ramdiskSpan + layout.dtbSpan
  let table :=
    match replaced with
    | none =>
        (addBytes output (writeU32 (List.replicate kEntryV4Size 0) 0 layout.ramdiskSize),
          output + kEntryV4Size)
    | some index =>
        let used := header.tableEntries * header.tableEntrySize
        let written := addRecords vendorBoot newRamdisk header index output 0 0 entries
        (written.1 ++ addSource written.2 (header.tableSize - used) vendorBoot
          (header.dtbEnd + used), written.2 + (header.tableSize - used))
  table.1 ++ addZero table.2 (layout.tableSpan - layout.tableSize)

/-- The bootconfig section, with its padding. -/
def bootconfigPieces (vendorBoot : ImageSource) (header : ParsedHeader) (layout : NewLayout) :
    List Piece :=
  let output := header.headerEnd + layout.ramdiskSpan + layout.dtbSpan + layout.tableSpan
  addSource output header.bootconfigSize vendorBoot header.tableEnd ++
    addZero (output + header.bootconfigSize) (layout.bootconfigSpan - header.bootconfigSize)

/-- The vacated pages and the bytes after both layouts. -/
def tailPieces (vendorBoot : ImageSource) (header : ParsedHeader) (output : ℕ) : List Piece :=
  let preservedTail := max output header.bootconfigEnd
  addZero output (preservedTail - output) ++
    (if preservedTail < vendorBoot.size then
      addSource preservedTail (vendorBoot.size - preservedTail) vendorBoot preservedTail
    else [])

/-- All pieces in the order in which they are collected. -/
def collectPieces (vendorBoot newRamdisk : ImageSource) (newDtb : Option ImageSource)
    (header : ParsedHeader) (entries : List TableEntry) (replaced : Option ℕ)
    (layout : NewLayout) (headerPage : Bytes) : List Piece :=
  addBytes 0 headerPage ++
    ramdiskPieces vendorBoot newRamdisk header entries replaced layout ++
    dtbPieces vendorBoot newDtb header layout ++
    (if header.version = 4 then
      tablePieces vendorBoot newRamdisk header entries replaced layout ++
        bootconfigPieces vendorBoot header layout ++ tailPieces vendorBoot header layout.knownEnd
    else
      tailPieces vendorBoot header (header.headerEnd + layout.ramdiskSpan + layout.dtbSpan))

def piecesNotContiguous : VendorBootRepackError :=
  ⟨.malformed, "internal vendor_boot piece table is not contiguous"⟩

def piecesWrongSize : VendorBootRepackError :=
  ⟨.malformed, "internal vendor_boot piece table has the wrong size"⟩

/-- The check that the pieces follow one another; it returns their end. -/
def checkPieces : ℕ → List Piece → Except VendorBootRepackError ℕ
  | expected, [] => .ok expected
  | expected, piece :: rest => do
      failIf (piece.outputOffset ≠ expected) piecesNotContiguous
      let expected ← orFail (checkedAdd expected piece.size) piecesNotContiguous
      checkPieces expected rest

/-- `repack_vendor_boot`. -/
def repackVendorBoot (vendorBoot newRamdisk newDtb : Option ImageSource)
    (options : VendorBootRepackOptions) : Except VendorBootRepackError VendorBootImageSource := do
  let noRamdisk : VendorBootRepackError :=
    ⟨.invalidArgument, "new vendor ramdisk must contain 1..UINT32_MAX bytes"⟩
  let newRamdisk ← orFail newRamdisk noRamdisk
  failIf (newRamdisk.size = 0 ∨ uint32Max < newRamdisk.size) noRamdisk
  failIf (newDtb.any fun newDtb => newDtb.size = 0 ∨ uint32Max < newDtb.size)
    ⟨.invalidArgument, "replacement DTB must contain 1..UINT32_MAX bytes"⟩
  failIf (¬ validRamdiskName options.ramdiskName) ⟨.invalidArgument,
    "vendor ramdisk name must be 1..32 printable ASCII bytes without ':'"⟩
  let header ← parseHeader vendorBoot options.maximumImageBytes
  -- not null: the header was read from it
  let vendorBoot ← orFail vendorBoot
    ⟨.invalidArgument, "vendor_boot source must not be empty"⟩
  let entries ← parseTable vendorBoot header
  let replaced ← findReplaced options header entries
  let layout ← planLayout vendorBoot.size header entries replaced newRamdisk.size
    (newDtb.map ImageSource.size)
  let headerPage ← readExact vendorBoot 0 header.headerEnd
  let pieces := (collectPieces vendorBoot newRamdisk newDtb header entries replaced layout
    (updateHeader header.version layout headerPage)).insertionSort
      fun a b => a.outputOffset ≤ b.outputOffset
  let expected ← checkPieces 0 pieces
  failIf (expected ≠ vendorBoot.size) piecesWrongSize
  pure {
    size := vendorBoot.size
    size_le := vendorBoot.size_le
    metadata := {
      headerVersion := header.version
      pageSize := header.pageSize
      vendorRamdiskSize := layout.ramdiskSize
      dtbSize := layout.dtbSize
      tableEntryCount := layout.tableEntries }
    pieces := pieces }

end KairosBoot.VendorBoot
