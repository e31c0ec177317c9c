import KairosBoot.SparseEncoding

/-! # Sparse flash parts

`SparsePartSource` of `sparse_flash_plan.cpp`: a random-access source that presents one sparse
file without holding its data.  The file is a table of pieces, which are runs of literal bytes
(the headers and fill words), windows of the input source or zeros; `append_piece` extends the
last piece when the new one continues it.  `build` writes the header, and for each fragment a
gap chunk where the fragment does not start at the cursor and the fragment's own chunk. -/

namespace KairosBoot

open ByteLib Guards Pieces

inductive SparseFlashPlanErrorKind where
  | invalidArgument | unsupported | source | arithmeticOverflow | cancelled
  deriving DecidableEq, Repr

structure SparseFlashPlanError where
  kind : SparseFlashPlanErrorKind
  outputOffset : ℕ
  message : String
  deriving DecidableEq, Repr

abbrev PlanM := Except SparseFlashPlanError

def kFillPayloadBytes : ℕ := 4

/-! ### Fragments -/

/-- A run of backed blocks: a window of the input, or a repeated fill word. -/
structure Fragment where
  kind : SparseChunkKind
  startBlock : ℕ
  blockCount : ℕ
  sourceOffset : ℕ
  fillValue : BitVec 32
  deriving DecidableEq, Repr

/-- `fragment_end_block`. -/
def Fragment.endBlock (fragment : Fragment) : ℕ := fragment.startBlock + fragment.blockCount

/-- `fragment_output_offset`. -/
def Fragment.outputOffset (fragment : Fragment) (blockSize : ℕ) : ℕ :=
  fragment.startBlock * blockSize

/-- `fragment_data_bytes`. -/
def fragmentDataBytes (fragment : Fragment) (blockSize : ℕ) : PlanM ℕ :=
  orFail (checkedMultiply fragment.blockCount blockSize)
    ⟨.arithmeticOverflow, fragment.outputOffset blockSize, "sparse backed-block length overflows"⟩

/-- `fragment_encoded_bytes`. -/
def fragmentEncodedBytes (fragment : Fragment) (blockSize : ℕ) : PlanM ℕ :=
  if fragment.kind = .fill then .ok (kChunkHeaderSize + kFillPayloadBytes)
  else do
    let dataBytes ← fragmentDataBytes fragment blockSize
    orFail (checkedAdd kChunkHeaderSize dataBytes)
      ⟨.arithmeticOverflow, fragment.outputOffset blockSize, "sparse RAW encoded length overflows"⟩

/-! ### The piece table -/

inductive SourcePieceKind where
  | literal | source | zero
  deriving DecidableEq, Repr

structure SourcePiece where
  logicalOffset : ℕ
  backingOffset : ℕ
  size : ℕ
  kind : SourcePieceKind
  deriving DecidableEq, Repr

/-- The members of `SparsePartSource`. -/
structure SparsePartSource where
  input : ImageSource
  pieces : List SourcePiece
  literals : Bytes
  size : ℕ
  size_le : size ≤ uint64Max

namespace SparsePartSource

def empty (input : ImageSource) : SparsePartSource := ⟨input, [], [], 0, Nat.zero_le _⟩

/-- The pieces after `append_piece`: the last piece grows when the new bytes continue it. -/
def extendPieces (pieces : List SourcePiece) (kind : SourcePieceKind)
    (backingOffset bytes size : ℕ) : List SourcePiece :=
  match pieces.getLast? with
  | some previous =>
      if previous.kind = kind ∧
          (kind = .zero ∨ checkedAdd previous.backingOffset previous.size = some backingOffset) ∧
          previous.logicalOffset + previous.size = size then
        pieces.dropLast ++ [{ previous with size := previous.size + bytes }]
      else pieces ++ [⟨size, backingOffset, bytes, kind⟩]
  | none => pieces ++ [⟨size, backingOffset, bytes, kind⟩]

/-- `append_piece`. -/
def appendPiece (part : SparsePartSource) (kind : SourcePieceKind) (backingOffset bytes : ℕ) :
    PlanM SparsePartSource :=
  if bytes = 0 then .ok part
  else if h : uint64Max - part.size < bytes then
    .error ⟨.arithmeticOverflow, part.size, "sparse part size overflows"⟩
  else
    .ok { part with
      pieces := extendPieces part.pieces kind backingOffset bytes part.size
      size := part.size + bytes
      size_le := by have := part.size_le; omega }

/-- `append_literal`. -/
def appendLiteral (part : SparsePartSource) (bytes : Bytes) : PlanM SparsePartSource := do
  let _ ← orFail (checkedAdd part.size bytes.length)
    ⟨.arithmeticOverflow, part.size, "sparse literal interval overflows"⟩
  appendPiece { part with literals := part.literals ++ bytes } .literal part.literals.length
    bytes.length

/-- `append_source`. -/
def appendSource (part : SparsePartSource) (sourceOffset bytes : ℕ) : PlanM SparsePartSource := do
  failIf (part.input.size < sourceOffset ∨ part.input.size - sourceOffset < bytes)
    ⟨.source, sourceOffset, "sparse RAW backing interval exceeds its source"⟩
  appendPiece part .source sourceOffset bytes

/-- `append_zero`. -/
def appendZero (part : SparsePartSource) (bytes : ℕ) : PlanM SparsePartSource :=
  appendPiece part .zero 0 bytes

/-- `append_chunk_header`. -/
def appendChunkHeader (part : SparsePartSource) (chunkType blockCount payloadBytes : ℕ) :
    PlanM SparsePartSource := do
  failIf (uint32Max - kChunkHeaderSize < payloadBytes)
    ⟨.arithmeticOverflow, part.size, "sparse chunk total size exceeds 32 bits"⟩
  appendLiteral part (encodeChunkHeader chunkType blockCount (kChunkHeaderSize + payloadBytes))

/-! ### Building a part -/

/-- The gap chunk before a block position, if the cursor has not reached it. -/
def appendGap (part : SparsePartSource) (cursor block : ℕ) : PlanM SparsePartSource :=
  if cursor < block then appendChunkHeader part kSparseChunkDontCare (block - cursor) 0
  else .ok part

/-- The chunk of one fragment. -/
def appendFragment (part : SparsePartSource) (blockSize : ℕ) (fragment : Fragment) :
    PlanM SparsePartSource := do
  let dataBytes ← fragmentDataBytes fragment blockSize
  if fragment.kind = .raw then do
    failIf (uint32Max < dataBytes) ⟨.arithmeticOverflow, fragment.outputOffset blockSize,
      "sparse RAW payload exceeds 32 bits"⟩
    let part ← appendChunkHeader part kSparseChunkRaw fragment.blockCount dataBytes
    let part ← appendSource part fragment.sourceOffset dataBytes
    let roundedBytes := fragment.blockCount * blockSize
    if dataBytes < roundedBytes then appendZero part (roundedBytes - dataBytes) else .ok part
  else do
    let part ← appendChunkHeader part kSparseChunkFill fragment.blockCount 4
    appendLiteral part (fillPattern fragment.fillValue)

/-- The writing loop of `build` and the final gap. -/
def appendFragments (blockSize totalBlocks : ℕ) :
    ℕ → List Fragment → SparsePartSource → PlanM SparsePartSource
  | cursor, [], part => appendGap part cursor totalBlocks
  | cursor, fragment :: rest, part => do
      let part ← appendGap part cursor fragment.startBlock
      let part ← appendFragment part blockSize fragment
      appendFragments blockSize totalBlocks fragment.endBlock rest part

/-- The counting loop of `build`. -/
def chunkCount (totalBlocks : ℕ) : ℕ → List Fragment → ℕ
  | cursor, [] => if cursor < totalBlocks then 1 else 0
  | cursor, fragment :: rest =>
      (if cursor < fragment.startBlock then 1 else 0) + 1 +
        chunkCount totalBlocks fragment.endBlock rest

/-- The bytes reserved for headers, the first half of the literal reserve. -/
def headerReserve (fragmentCount : ℕ) : Option ℕ := do
  let doubled ← checkedMultiply fragmentCount 2
  let headers ← checkedAdd doubled 1
  let bytes ← checkedMultiply headers kChunkHeaderSize
  checkedAdd kSparseHeaderSize bytes

/-- The literal reserve: headers and fill words. -/
def literalReserve (reserve fragmentCount : ℕ) : Option ℕ := do
  let fill ← checkedMultiply fragmentCount kFillPayloadBytes
  checkedAdd reserve fill

/-- `build`. -/
def build (part : SparsePartSource) (blockSize totalBlocks : ℕ) (fragments : List Fragment) :
    PlanM SparsePartSource := do
  failIf ((uint64Max - 3) / 2 < fragments.length)
    ⟨.arithmeticOverflow, 0, "sparse part descriptor count overflows"⟩
  let count := chunkCount totalBlocks 0 fragments
  failIf (uint32Max < count)
    ⟨.arithmeticOverflow, 0, "sparse output chunk count exceeds 32 bits"⟩
  let reserve ← orFail (headerReserve fragments.length)
    ⟨.arithmeticOverflow, 0, "sparse literal metadata size overflows"⟩
  let _ ← orFail (literalReserve reserve fragments.length)
    ⟨.arithmeticOverflow, 0, "sparse literal metadata is not addressable"⟩
  let part ← appendLiteral part (encodeHeader blockSize totalBlocks count)
  appendFragments blockSize totalBlocks 0 fragments part

/-- `SparsePartSource::create`. -/
def create (input : ImageSource) (blockSize totalBlocks : ℕ) (fragments : List Fragment) :
    PlanM SparsePartSource :=
  build (empty input) blockSize totalBlocks fragments

/-! ### Reading a part -/

/-- The copy loop of `read_at` over the pieces from the one that contains the offset on; `done`
holds the bytes written.  The loop visits a piece at most once, and returns early when the
input answered with a short read. -/
def readPieces (input : ImageSource) (literals : Bytes) (offset requested : ℕ) :
    List SourcePiece → Bytes → Except ImageSourceError Bytes
  | [], done =>
      if done.length < requested then
        .error ⟨"sparse flash part metadata ended before the read"⟩
      else .ok done
  | piece :: rest, done =>
      if done.length < requested then
        let position := offset + done.length
        if position < piece.logicalOffset ∨ piece.size ≤ position - piece.logicalOffset then
          readPieces input literals offset requested rest done
        else
          let within := position - piece.logicalOffset
          let amount := min (piece.size - within) (requested - done.length)
          let resume := fun output =>
            if within + amount = piece.size then
              readPieces input literals offset requested rest (done ++ output)
            else .ok (done ++ output)
          match piece.kind with
          | .literal => resume (slice literals (piece.backingOffset + within) amount)
          | .zero => resume (List.replicate amount 0)
          | .source =>
              match input.readAt (piece.backingOffset + within) amount with
              | .error e => .error e
              | .ok output =>
                  if output.length = 0 ∨ amount < output.length then
                    .error ⟨"sparse flash part backing source returned an invalid short read"⟩
                  else if output.length < amount then .ok (done ++ output)
                  else resume output
      else .ok done

/-- `SparsePartSource::read_at`. -/
def readAt (part : SparsePartSource) (offset length : ℕ) : Except ImageSourceError Bytes :=
  if part.size < offset then .error ⟨"sparse flash part read starts beyond its end"⟩
  else
    let requested := min length (part.size - offset)
    if requested = 0 then .ok []
    else
      match startAt SourcePiece.logicalOffset offset part.pieces with
      | none => .error ⟨"sparse flash part metadata has an uncovered read"⟩
      | some pieces => readPieces part.input part.literals offset requested pieces []

def toImageSource (part : SparsePartSource) : ImageSource := ⟨part.size, part.size_le, part.readAt⟩

end SparsePartSource

end KairosBoot
