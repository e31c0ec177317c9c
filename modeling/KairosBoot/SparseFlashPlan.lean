import KairosBoot.SparsePartContents

/-! # Planning a resparse

`SparseFlashPlan::create` of `sparse_flash_plan.cpp`.  An input whose encoded length exceeds the
target's limit is turned into fragments of backed blocks (`artifactFragments`), which are split
in a counting pass (`segmentLikeAospFirstPass`) and then, already split, once more while the
parts are written (`serializeParts`).

Both passes fill one part after the other with the same inner loop, `fillPart`; the counting
pass additionally bounds the number of fragments it keeps.  Fragments are taken from the front
of a list, where a split leaves the remainder of the fragment in its place. -/

namespace KairosBoot

open ByteLib Guards

def kDefaultResparseLimitBytes : ℕ := 1024 * 1024 * 1024
def kAospResparseReservedOverhead : ℕ := 56
def kRawResparseBlockSize : ℕ := 4096
def kMaxPlannerFragments : ℕ := kMaxSparseChunks

/-! ### Importing the artifact -/

/-- Whether `fragment` continues `previous` in the output and in its backing. -/
def continuesFragment (previous fragment : Fragment) (blockSize : ℕ) : PlanM Bool :=
  if previous.endBlock = fragment.startBlock ∧ previous.kind = fragment.kind then
    if fragment.kind = .fill then .ok (decide (previous.fillValue = fragment.fillValue))
    else do
      let previousBytes ← fragmentDataBytes previous blockSize
      let expectedSourceOffset ← orFail (checkedAdd previous.sourceOffset previousBytes)
        ⟨.arithmeticOverflow, previous.outputOffset blockSize, "sparse source interval overflows"⟩
      .ok (decide (expectedSourceOffset = fragment.sourceOffset))
  else .ok false

/-- The end of `append_merged_fragment`: a fragment of its own. -/
def pushFragment (fragments : List Fragment) (fragment : Fragment) (blockSize : ℕ) :
    PlanM (List Fragment) := do
  failIf (kMaxPlannerFragments ≤ fragments.length)
    ⟨.unsupported, fragment.outputOffset blockSize,
      "sparse planning metadata exceeds its bounded fragment limit"⟩
  .ok (fragments ++ [fragment])

/-- `append_merged_fragment`. -/
def appendMergedFragment (fragments : List Fragment) (fragment : Fragment) (blockSize : ℕ) :
    PlanM (List Fragment) := do
  failIf (fragment.blockCount = 0) ⟨.invalidArgument, fragment.outputOffset blockSize,
    "zero-length sparse backed block is invalid"⟩
  match fragments.getLast? with
  | none => pushFragment fragments fragment blockSize
  | some previous => do
      let merge ← continuesFragment previous fragment blockSize
      if merge then do
        let mergedBlocks := previous.blockCount + fragment.blockCount
        failIf (uint32Max < mergedBlocks) ⟨.arithmeticOverflow, previous.outputOffset blockSize,
          "merged sparse block count exceeds 32 bits"⟩
        .ok (fragments.dropLast ++ [{ previous with blockCount := mergedBlocks }])
      else pushFragment fragments fragment blockSize

/-- The error `read_source_exact` reports. -/
def scanFaultError : ReadFault ImageSourceError → SparseFlashPlanError
  | .failed offset e => ⟨.source, offset, "unable to scan raw image: " ++ e.message⟩
  | .excess offset => ⟨.source, offset, "raw image source returned an invalid short read"⟩
  | .stalled offset => ⟨.source, offset, "raw image source returned an invalid short read"⟩

/-- `read_source_exact`. -/
def readSourceExact (source : ImageSource) (sourceOffset length : ℕ) : PlanM Bytes :=
  (readLoop source.readAt sourceOffset length length []).mapError scanFaultError

/-- `block_is_fill`: every word of the block equals the first one. -/
def blockIsFill (block : Bytes) : Bool :=
  (List.range (block.length / 4)).all fun k =>
    decide (readU32 block (4 * k) = readU32 block 0)

/-- The fragment of one block of a raw image. -/
def rawFragment (index sourceOffset : ℕ) (block : Bytes) : Fragment where
  kind := if blockIsFill block then .fill else .raw
  startBlock := index
  blockCount := 1
  sourceOffset := sourceOffset
  fillValue := BitVec.ofNat 32 (readU32 block 0)

/-- The scanning loop of `artifact_fragments` for a raw image. -/
def scanRawBlocks (source : ImageSource) (blockSize : ℕ) :
    ℕ → ℕ → List Fragment → PlanM (List Fragment)
  | 0, _, result => .ok result
  | remaining + 1, index, result => do
      let sourceOffset := index * blockSize
      let block ← readSourceExact source sourceOffset blockSize
      let result ← appendMergedFragment result (rawFragment index sourceOffset block) blockSize
      scanRawBlocks source blockSize remaining (index + 1) result

/-- One round of the importing loop of `artifact_fragments` for a sparse image. -/
def importChunk (blockSize : ℕ) (result : List Fragment) (chunk : SparseChunk) :
    PlanM (List Fragment) :=
  if chunk.kind ≠ .raw ∧ chunk.kind ≠ .fill then .ok result
  else do
    failIf (chunk.outputOffset % blockSize ≠ 0)
      ⟨.invalidArgument, chunk.outputOffset, "sparse backed block is not block aligned"⟩
    failIf (chunk.kind = .fill ∧ chunk.fillValue = none)
      ⟨.invalidArgument, chunk.outputOffset, "sparse FILL chunk is missing its fill value"⟩
    appendMergedFragment result
      { kind := chunk.kind
        startBlock := chunk.outputOffset / blockSize
        blockCount := chunk.blockCount
        sourceOffset := chunk.inputOffset
        fillValue := chunk.fillValue.getD 0#32 } blockSize

/-- The result of `artifact_fragments` with its two output parameters. -/
structure ArtifactFragments where
  blockSize : ℕ
  totalBlocks : ℕ
  fragments : List Fragment
  deriving DecidableEq, Repr

/-- `artifact_fragments`. -/
def artifactFragments (artifact : FlashArtifact) : PlanM ArtifactFragments :=
  if artifact.metadata.kind = .raw then do
    let blockSize := kRawResparseBlockSize
    failIf (artifact.metadata.expandedSize % blockSize ≠ 0)
      ⟨.unsupported, artifact.metadata.expandedSize,
        "AOSP Fastboot 37.0.1 rejects oversized raw images that are not 4096-byte aligned"⟩
    let blocks := artifact.metadata.expandedSize / blockSize
    failIf (uint32Max < blocks) ⟨.unsupported, artifact.metadata.expandedSize,
      "raw image is too large for Android sparse block counts"⟩
    let fragments ← scanRawBlocks artifact.transferSource blockSize blocks 0 []
    .ok ⟨blockSize, blocks, fragments⟩
  else
    match artifact.sparseImage with
    | none => .error ⟨.invalidArgument, 0, "validated sparse artifact is missing its parsed image"⟩
    | some image => do
        let fragments ← image.chunks.foldlM (importChunk image.header.blockSize) []
        .ok ⟨image.header.blockSize, image.header.totalBlocks, fragments⟩

/-! ### Filling one part -/

/-- `counter_bytes_for_fragment`. -/
def counterBytesForFragment (fragment : Fragment) (lastBlock blockSize : ℕ) : PlanM ℕ := do
  let count ← fragmentEncodedBytes fragment blockSize
  if lastBlock < fragment.startBlock then
    orFail (checkedAdd count kChunkHeaderSize)
      ⟨.arithmeticOverflow, fragment.outputOffset blockSize, "sparse gap metadata size overflows"⟩
  else .ok count

/-- `take_prefix`: the prefix and what is left, with no block when nothing is left. -/
def takePrefix (remainder : Fragment) (availableBytes blockSize : ℕ) :
    PlanM (Fragment × Fragment) := do
  let prefixBlocks := min (availableBytes / blockSize) remainder.blockCount
  failIf (prefixBlocks = 0) ⟨.unsupported, remainder.outputOffset blockSize,
    "device maximum download size cannot hold one AOSP sparse backed block"⟩
  let taken := { remainder with blockCount := prefixBlocks }
  if prefixBlocks = remainder.blockCount then .ok (taken, { remainder with blockCount := 0 })
  else do
    let left := { remainder with
      startBlock := remainder.startBlock + prefixBlocks
      blockCount := remainder.blockCount - prefixBlocks }
    if left.kind = .raw then do
      let sourceOffset ← orFail (checkedAdd remainder.sourceOffset (prefixBlocks * blockSize))
        ⟨.arithmeticOverflow, taken.outputOffset blockSize,
          "split sparse RAW source offset overflows"⟩
      .ok (taken, { left with sourceOffset := sourceOffset })
    else .ok (taken, left)

/-- What the inner loop does with the next fragment. -/
inductive PartStep where
  | fits (candidateSize : ℕ)
  | split (taken left : Fragment)
  | stop
  deriving DecidableEq, Repr

/-- The decision of the inner loop: the whole fragment fits, a prefix of it is taken, or the
part ends before it. -/
def partStep (payloadBudget blockSize : ℕ) (hasLast : Bool) (fileLen lastBlock : ℕ)
    (fragment : Fragment) : PlanM PartStep := do
  let count ← counterBytesForFragment fragment lastBlock blockSize
  let candidateSize ← orFail (checkedAdd fileLen count)
    ⟨.arithmeticOverflow, fragment.outputOffset blockSize, "AOSP sparse counter size overflows"⟩
  if candidateSize ≤ payloadBudget then .ok (.fits candidateSize)
  else do
    let splitAccounting ← orFail (checkedAdd fileLen kChunkHeaderSize)
      ⟨.arithmeticOverflow, fragment.outputOffset blockSize,
        "AOSP sparse split accounting overflows"⟩
    let remaining := if splitAccounting ≤ payloadBudget then payloadBudget - splitAccounting else 0
    if hasLast = false ∨ (splitAccounting ≤ payloadBudget ∧ payloadBudget / 8 < remaining) then do
      failIf (payloadBudget < splitAccounting) ⟨.unsupported, fragment.outputOffset blockSize,
        "device maximum download size is too small for AOSP resparse overhead"⟩
      let (taken, left) ← takePrefix fragment remaining blockSize
      .ok (.split taken left)
    else .ok .stop

/-- The outcome of filling one part: its fragments, the fragments left over, whether the part
was ended by a fragment that did not fit (at the given output offset), and whether that fragment
was the last one and was taken whole. -/
structure PartCut where
  part : List Fragment
  rest : List Fragment
  closed : Bool
  trailingEmptyPart : Bool
  cutOffset : ℕ
  deriving DecidableEq, Repr

/-- The inner loop of both passes; `permit` is the pass's own check before a fragment is kept. -/
def fillPart (permit : ℕ → Fragment → PlanM Unit)
    (payloadBudget blockSize : ℕ) :
    List Fragment → List Fragment → ℕ → ℕ → PlanM PartCut
  | [], part, _, _ => .ok ⟨part, [], false, false, 0⟩
  | fragment :: rest, part, fileLen, lastBlock => do
      let step ← partStep payloadBudget blockSize (!part.isEmpty) fileLen lastBlock fragment
      match step with
      | .fits candidateSize => do
          permit part.length fragment
          fillPart permit payloadBudget blockSize rest (part ++ [fragment]) candidateSize
            fragment.endBlock
      | .split taken left => do
          permit part.length taken
          .ok ⟨part ++ [taken], if left.blockCount = 0 then rest else left :: rest, true,
            decide (left.blockCount = 0) && rest.isEmpty, fragment.outputOffset blockSize⟩
      | .stop => do
          failIf (part = []) ⟨.unsupported, fragment.outputOffset blockSize,
            "AOSP resparse pass made no forward progress"⟩
          .ok ⟨part, fragment :: rest, true, false, fragment.outputOffset blockSize⟩

/-! ### The counting pass -/

structure Segmentation where
  fragments : List Fragment
  partCount : ℕ
  deriving DecidableEq, Repr

/-- The counting pass's bound on the fragments it keeps. -/
def permitSegment (blockSize kept : ℕ) (count : ℕ) (fragment : Fragment) : PlanM Unit :=
  failIf (kMaxPlannerFragments ≤ kept + count) ⟨.unsupported, fragment.outputOffset blockSize,
    "AOSP resparse segmentation exceeds its bounded metadata limit"⟩

def countPart (partCount offset : ℕ) : PlanM ℕ := do
  failIf (kMaxPlannerFragments ≤ partCount)
    ⟨.unsupported, offset, "AOSP resparse part count exceeds its bounded limit"⟩
  .ok (partCount + 1)

/-- The empty part after a last fragment that was split off whole. -/
def countTrailing (trailingEmptyPart : Bool) (partCount : ℕ) : PlanM ℕ :=
  if trailingEmptyPart then countPart partCount 0 else .ok partCount

/-- The outer loop of the counting pass; every round uses up at least one block, so `fuel` is
the number of blocks. -/
def segmentParts (payloadBudget blockSize : ℕ) :
    ℕ → List Fragment → Segmentation → PlanM Segmentation
  | 0, _, result => .ok result
  | _ + 1, [], result => .ok result
  | fuel + 1, fragment :: rest, result => do
      let cut ← fillPart (permitSegment blockSize result.fragments.length) payloadBudget blockSize
        (fragment :: rest) [] 0 0
      let partCount ← countPart result.partCount (if cut.closed then cut.cutOffset else 0)
      let partCount ← countTrailing cut.trailingEmptyPart partCount
      segmentParts payloadBudget blockSize fuel cut.rest
        ⟨result.fragments ++ cut.part, partCount⟩

def fragmentBlocks (fragments : List Fragment) : ℕ := (fragments.map (·.blockCount)).sum

/-- `segment_like_aosp_first_pass`. -/
def segmentLikeAospFirstPass (input : List Fragment) (payloadBudget blockSize : ℕ) :
    PlanM Segmentation :=
  if input = [] then .ok ⟨[], 1⟩
  else segmentParts payloadBudget blockSize (fragmentBlocks input) input ⟨[], 0⟩

/-! ### The writing pass -/

structure SparseFlashPart where
  source : ImageSource
  firstDataOffset : ℕ
  dataEndOffset : ℕ

/-- `build_part`. -/
def buildPart (input : ImageSource) (fragments : List Fragment) (blockSize totalBlocks : ℕ) :
    PlanM SparseFlashPart := do
  let part ← SparsePartSource.create input blockSize totalBlocks fragments
  .ok {
    source := part.toImageSource
    firstDataOffset := (fragments.head?.map (·.outputOffset blockSize)).getD 0
    dataEndOffset := (fragments.getLast?.map (·.endBlock * blockSize)).getD 0 }

/-- The parts written so far and their aggregate size. -/
structure WrittenParts where
  parts : List SparseFlashPart
  totalTransferSize : ℕ

/-- Build a part, check its size and append it. -/
def writePart (input : ImageSource) (blockSize totalBlocks effectiveLimit : ℕ)
    (fragments : List Fragment) (tooLarge : String) (written : WrittenParts) :
    PlanM WrittenParts := do
  let part ← buildPart input fragments blockSize totalBlocks
  failIf (effectiveLimit < part.source.size) ⟨.unsupported, part.firstDataOffset, tooLarge⟩
  let total ← orFail (checkedAdd written.totalTransferSize part.source.size)
    ⟨.arithmeticOverflow, part.firstDataOffset, "aggregate sparse transfer size overflows"⟩
  .ok ⟨written.parts ++ [part], total⟩

/-- The lambda `flush`. -/
def flushPart (input : ImageSource) (blockSize totalBlocks effectiveLimit : ℕ)
    (current : List Fragment) (written : WrittenParts) : PlanM WrittenParts :=
  if current = [] then .ok written
  else writePart input blockSize totalBlocks effectiveLimit current
    "AOSP sparse part exceeds the effective download limit" written

def writeEmptyPart (input : ImageSource) (blockSize totalBlocks effectiveLimit : ℕ)
    (written : WrittenParts) : PlanM WrittenParts :=
  writePart input blockSize totalBlocks effectiveLimit []
    "device maximum download size cannot hold sparse metadata" written

/-- The empty part after a last fragment that was split off whole. -/
def writeTrailing (input : ImageSource) (blockSize totalBlocks effectiveLimit : ℕ)
    (trailingEmptyPart : Bool) (written : WrittenParts) : PlanM WrittenParts :=
  if trailingEmptyPart then writeEmptyPart input blockSize totalBlocks effectiveLimit written
  else .ok written

/-- The writing loop; `fuel` as in `segmentParts`. -/
def serializeParts (input : ImageSource) (payloadBudget blockSize totalBlocks effectiveLimit : ℕ) :
    ℕ → List Fragment → WrittenParts → PlanM WrittenParts
  | 0, _, written => .ok written
  | _ + 1, [], written => .ok written
  | fuel + 1, fragment :: rest, written => do
      let cut ← fillPart (fun _ _ => .ok ()) payloadBudget blockSize (fragment :: rest) [] 0 0
      let written ← flushPart input blockSize totalBlocks effectiveLimit cut.part written
      let written ← writeTrailing input blockSize totalBlocks effectiveLimit cut.trailingEmptyPart
        written
      serializeParts input payloadBudget blockSize totalBlocks effectiveLimit fuel cut.rest written

/-! ### The plan -/

structure SparseFlashPlan where
  parts : List SparseFlashPart
  reparsed : Bool
  expandedSize : ℕ
  transferSize : ℕ

/-- The writing pass over a segmented list. -/
def writeSegments (input : ImageSource) (payloadBudget blockSize totalBlocks effectiveLimit : ℕ)
    (fragments : List Fragment) : PlanM WrittenParts :=
  if fragments = [] then writeEmptyPart input blockSize totalBlocks effectiveLimit ⟨[], 0⟩
  else serializeParts input payloadBudget blockSize totalBlocks effectiveLimit
    (fragmentBlocks fragments) fragments ⟨[], 0⟩

/-- The part of `create_impl` after the limits have been settled. -/
def resparse (artifact : FlashArtifact) (effectiveLimit : ℕ) : PlanM SparseFlashPlan := do
  let payloadBudget := effectiveLimit - kAospResparseReservedOverhead
  let initial ← artifactFragments artifact
  let segmentation ←
    segmentLikeAospFirstPass initial.fragments payloadBudget initial.blockSize
  let written ← writeSegments artifact.transferSource payloadBudget initial.blockSize
    initial.totalBlocks effectiveLimit segmentation.fragments
  failIf (written.parts.length ≠ segmentation.partCount)
    ⟨.unsupported, 0, "AOSP resparse counting and serialization passes disagree"⟩
  .ok ⟨written.parts, true, artifact.metadata.expandedSize, written.totalTransferSize⟩

/-- `SparseFlashPlan::create`. -/
def SparseFlashPlan.create (artifact : FlashArtifact) (targetMaxDownloadSize : ℕ)
    (hostResparseLimit : ℕ) : PlanM SparseFlashPlan :=
  let protocolLimit := uint32Max
  let targetLimit :=
    if targetMaxDownloadSize = 0 then protocolLimit else min targetMaxDownloadSize protocolLimit
  if artifact.metadata.transferSize ≤ targetLimit then
    .ok ⟨[⟨artifact.transferSource, 0, artifact.metadata.expandedSize⟩], false,
      artifact.metadata.expandedSize, artifact.metadata.transferSize⟩
  else do
    failIf (hostResparseLimit = 0)
      ⟨.invalidArgument, 0, "host sparse split limit must not be zero"⟩
    let effectiveLimit := min targetLimit hostResparseLimit
    failIf (effectiveLimit ≤ kAospResparseReservedOverhead)
      ⟨.unsupported, 0, "device maximum download size cannot hold AOSP sparse resparse overhead"⟩
    resparse artifact effectiveLimit

end KairosBoot
