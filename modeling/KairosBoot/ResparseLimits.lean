import KairosBoot.ResparseBudget

/-! # The limits of a resparse

Every part of a resparsed plan keeps to the effective limit, and three failures of
`SparseFlashPlan::create` are unreachable: a part that is too large, a pass without progress and
two passes that disagree (`resparse_keeps_limits`). -/

namespace KairosBoot

open ByteLib Guards

variable {payloadBudget blockSize : ℕ}

/-! ### The size of a part -/

namespace SparsePartSource

variable {part part' : SparsePartSource}

theorem appendPiece_size {kind : SourcePieceKind} {backingOffset bytes : ℕ}
    (h : part.appendPiece kind backingOffset bytes = .ok part') :
    part'.size = part.size + bytes := by
  unfold appendPiece at h
  split at h
  · next hzero =>
    cases h
    omega
  · split at h
    · cases h
    · cases h
      rfl

theorem appendLiteral_size {bytes : Bytes} (h : part.appendLiteral bytes = .ok part') :
    part'.size = part.size + bytes.length := by
  obtain ⟨_, -, h⟩ := bind_eq_ok.mp h
  have hsize := appendPiece_size h
  exact hsize

theorem appendChunkHeader_size {chunkType blockCount payloadBytes : ℕ}
    (h : part.appendChunkHeader chunkType blockCount payloadBytes = .ok part') :
    part'.size = part.size + kChunkHeaderSize := by
  obtain ⟨-, h⟩ := failIf_bind_eq_ok.mp h
  rw [appendLiteral_size h, length_encodeChunkHeader]

theorem appendGap_size {cursor block : ℕ} (h : part.appendGap cursor block = .ok part') :
    part'.size = part.size + (if cursor < block then kChunkHeaderSize else 0) := by
  unfold appendGap at h
  split at h
  · next hgap => rw [appendChunkHeader_size h, if_pos hgap]
  · next hgap =>
    cases h
    rw [if_neg hgap, add_zero]

theorem appendFragment_size {fragment : Fragment} (hv : fragment.Valid)
    (h : part.appendFragment blockSize fragment = .ok part') :
    part'.size = part.size + kChunkHeaderSize + fragment.payloadBytes blockSize := by
  obtain ⟨data, hdata, h⟩ := bind_eq_ok.mp h
  obtain ⟨rfl, -⟩ := checkedMultiply_eq_some (orFail_eq_ok.mp hdata)
  unfold Fragment.payloadBytes
  split at h
  · next hraw =>
    obtain ⟨-, h⟩ := failIf_bind_eq_ok.mp h
    obtain ⟨header, hhdr, h⟩ := bind_eq_ok.mp h
    obtain ⟨source, hsrc, h⟩ := bind_eq_ok.mp h
    simp only [lt_irrefl, if_false] at h
    cases h
    obtain ⟨-, hsrc⟩ := failIf_bind_eq_ok.mp hsrc
    rw [appendPiece_size hsrc, appendChunkHeader_size hhdr, if_neg (by rw [hraw]; decide)]
  · next hraw =>
    obtain ⟨header, hhdr, h⟩ := bind_eq_ok.mp h
    rw [appendLiteral_size h, appendChunkHeader_size hhdr, if_pos (hv.kind_eq.resolve_left hraw)]
    rfl

theorem appendFragments_size {totalBlocks cursor : ℕ} {fragments : List Fragment}
    (hvs : ∀ f ∈ fragments, f.Valid)
    (h : appendFragments blockSize totalBlocks cursor fragments part = .ok part') :
    part'.size ≤ part.size + partBytes blockSize cursor fragments + kChunkHeaderSize := by
  induction fragments generalizing cursor part with
  | nil =>
      have hgap := appendGap_size h
      rw [hgap, partBytes]
      split <;> omega
  | cons fragment rest ih =>
      obtain ⟨hv, hrest⟩ := List.forall_mem_cons.mp hvs
      obtain ⟨gap, hgap, h⟩ := bind_eq_ok.mp h
      obtain ⟨next, hnext, h⟩ := bind_eq_ok.mp h
      have hle := ih hrest h
      rw [appendFragment_size hv hnext, appendGap_size hgap] at hle
      rw [partBytes, chunkBytes]
      omega

end SparsePartSource

variable {fragments : List Fragment} {effectiveLimit totalBlocks : ℕ} {input : ImageSource}
  {permit : ℕ → Fragment → PlanM Unit} {written : WrittenParts}
  {messages : List String}

theorem buildPart_size {part : SparseFlashPart} (hvs : ∀ f ∈ fragments, f.Valid)
    (h : buildPart input fragments blockSize totalBlocks = .ok part) :
    part.source.size ≤ kSparseHeaderSize + partBytes blockSize 0 fragments + kChunkHeaderSize := by
  obtain ⟨built, hblt, h⟩ := bind_eq_ok.mp h
  cases h
  obtain ⟨-, hblt⟩ := failIf_bind_eq_ok.mp hblt
  obtain ⟨-, hblt⟩ := failIf_bind_eq_ok.mp hblt
  obtain ⟨_, -, hblt⟩ := bind_eq_ok.mp hblt
  obtain ⟨_, -, hblt⟩ := bind_eq_ok.mp hblt
  obtain ⟨header, hhdr, hblt⟩ := bind_eq_ok.mp hblt
  have hle := SparsePartSource.appendFragments_size hvs hblt
  rw [SparsePartSource.appendLiteral_size hhdr, length_encodeHeader] at hle
  have hemp : (SparsePartSource.empty input).size = 0 := rfl
  rw [hemp, zero_add] at hle
  exact hle

/-- A part that the writing pass fills keeps to the effective limit. -/
theorem fillPart_size {cut : PartCut} {part : SparseFlashPart} (hvs : ∀ f ∈ fragments, f.Valid)
    (hne : fragments ≠ [])
    (hcut : fillPart permit payloadBudget blockSize fragments [] 0 0 = .ok cut)
    (hpart : buildPart input cut.part blockSize totalBlocks = .ok part) :
    part.source.size ≤ payloadBudget + kAospResparseReservedOverhead := by
  obtain ⟨-, hvld, -, -⟩ := fillPart_blocks [] hvs (by simp) (.inr hne) hcut
  have hbytes := fillPart_bytes (Nat.zero_le _) hcut
  have hsize := buildPart_size hvld hpart
  unfold kSparseHeaderSize at hsize
  unfold kChunkHeaderSize at hsize hbytes
  unfold kFillPayloadBytes at hbytes
  unfold kAospResparseReservedOverhead
  omega

/-! ### The fragments of an artifact -/

theorem scanRawBlocks_valid {source : ImageSource} {remaining index : ℕ} {result : List Fragment}
    (hvs : ∀ f ∈ fragments, f.Valid)
    (hok : scanRawBlocks source blockSize remaining index fragments = .ok result) :
    ∀ f ∈ result, f.Valid := by
  induction remaining generalizing index fragments with
  | zero =>
      cases hok
      exact hvs
  | succ remaining ih =>
      obtain ⟨block, -, hok⟩ := bind_eq_ok.mp hok
      obtain ⟨next, hnext, hok⟩ := bind_eq_ok.mp hok
      refine ih (appendMergedFragment_blocks [] ⟨?_, Nat.one_pos⟩ hvs hnext).2 hok
      simp only [rawFragment]
      split
      · exact .inr rfl
      · exact .inl rfl

theorem importChunk_valid {chunk : SparseChunk} {result : List Fragment}
    (hvs : ∀ f ∈ fragments, f.Valid) (hok : importChunk blockSize fragments chunk = .ok result) :
    ∀ f ∈ result, f.Valid := by
  unfold importChunk at hok
  split at hok
  · cases hok
    exact hvs
  · next hkind =>
    obtain ⟨-, hok⟩ := failIf_bind_eq_ok.mp hok
    obtain ⟨-, hok⟩ := failIf_bind_eq_ok.mp hok
    obtain ⟨hcnt, -⟩ := failIf_bind_eq_ok.mp hok
    exact (appendMergedFragment_blocks [] ⟨by tauto, Nat.pos_of_ne_zero hcnt⟩ hvs hok).2

/-- The fragments of every artifact have blocks, and are data or filled. -/
theorem artifactFragments_valid {artifact : FlashArtifact} {initial : ArtifactFragments}
    (hok : artifactFragments artifact = .ok initial) : ∀ f ∈ initial.fragments, f.Valid := by
  unfold artifactFragments at hok
  split at hok
  · obtain ⟨-, hok⟩ := failIf_bind_eq_ok.mp hok
    obtain ⟨-, hok⟩ := failIf_bind_eq_ok.mp hok
    obtain ⟨fragments, hscan, hok⟩ := bind_eq_ok.mp hok
    cases hok
    exact scanRawBlocks_valid (by simp) hscan
  · cases himage : artifact.sparseImage with
    | none =>
        rw [himage] at hok
        cases hok
    | some image =>
        rw [himage] at hok
        obtain ⟨fragments, hfold, hok⟩ := bind_eq_ok.mp hok
        cases hok
        have hfoldValid : ∀ (chunks : List SparseChunk) (start : List Fragment),
            (∀ f ∈ start, f.Valid) → chunks.foldlM (importChunk image.header.blockSize) start
              = .ok fragments → ∀ f ∈ fragments, f.Valid := by
          intro chunks
          induction chunks with
          | nil =>
              intro start hvs hok
              obtain rfl := pure_eq_ok_iff.mp hok
              exact hvs
          | cons chunk rest ih =>
              intro start hvs hok
              rw [List.foldlM_cons] at hok
              obtain ⟨next, hnext, hok⟩ := bind_eq_ok.mp hok
              exact ih next (importChunk_valid hvs hnext) hok
        exact hfoldValid image.chunks [] (by simp) hfold

/-! ### Unreachable failures -/

/-- The refusal of a budget that cannot hold a block. -/
def cannotHoldBlock : String :=
  "device maximum download size cannot hold one AOSP sparse backed block"

/-- The other refusals of the planner. -/
def refusalMessages : List String :=
  ["sparse planning metadata exceeds its bounded fragment limit",
    "AOSP Fastboot 37.0.1 rejects oversized raw images that are not 4096-byte aligned",
    "raw image is too large for Android sparse block counts",
    "device maximum download size is too small for AOSP resparse overhead",
    "AOSP resparse segmentation exceeds its bounded metadata limit",
    "AOSP resparse part count exceeds its bounded limit",
    "device maximum download size cannot hold sparse metadata",
    "device maximum download size cannot hold AOSP sparse resparse overhead"]

/-- The refusals of the inner loop. -/
abbrev loopMessages : List String := cannotHoldBlock :: refusalMessages

/-- The failures that say that the planner contradicts itself. -/
def resparseDefects : List String :=
  ["AOSP sparse part exceeds the effective download limit",
    "AOSP resparse counting and serialization passes disagree",
    "AOSP resparse pass made no forward progress"]

def Defect (e : SparseFlashPlanError) : Prop :=
  e.kind = .unsupported ∧ e.message ∈ resparseDefects

/-- An operation whose refusals all have one of the given messages. -/
def Reports {α : Type} (messages : List String) (x : PlanM α) : Prop :=
  ErrorsIn (fun e => e.kind = .unsupported → e.message ∈ messages) x

theorem Reports.mono {α : Type} {messages' : List String} {x : PlanM α}
    (h : Reports messages x) (hsub : messages ⊆ messages') :
    Reports messages' x := fun e he hkind => hsub (h e he hkind)

theorem Reports.loop {α : Type} {x : PlanM α}
    (h : Reports refusalMessages x) : Reports loopMessages x :=
  h.mono (List.subset_cons_self _ _)

theorem reports_failIf {bad : Prop} [Decidable bad] {kind : SparseFlashPlanErrorKind} {offset : ℕ}
    {message : String} (h : kind = .unsupported → message ∈ messages) :
    Reports messages (failIf bad ⟨kind, offset, message⟩) := errorsIn_failIf h

theorem reports_orFail {α : Type} {o : Option α} {kind : SparseFlashPlanErrorKind} {offset : ℕ}
    {message : String} (h : kind = .unsupported → message ∈ messages) :
    Reports messages (orFail o ⟨kind, offset, message⟩) := errorsIn_orFail h

variable {part : SparsePartSource} {fragment : Fragment} {lastBlock fuel : ℕ}

theorem reports_appendPiece {kind : SourcePieceKind} {offset bytes : ℕ} :
    Reports refusalMessages (part.appendPiece kind offset bytes) := by
  unfold SparsePartSource.appendPiece
  split
  · exact errorsIn_ok _
  · split
    · intro e he
      cases he
      intro hkind
      cases hkind
    · exact errorsIn_ok _

theorem reports_appendLiteral {bytes : Bytes} : Reports refusalMessages (part.appendLiteral bytes) :=
  (reports_orFail (by decide)).bind fun _ _ => reports_appendPiece

theorem reports_appendChunkHeader {chunkType blockCount payload : ℕ} :
    Reports refusalMessages (part.appendChunkHeader chunkType blockCount payload) :=
  (reports_failIf (by decide)).bind fun _ _ => reports_appendLiteral

theorem reports_appendGap {cursor block : ℕ} :
    Reports refusalMessages (part.appendGap cursor block) := by
  unfold SparsePartSource.appendGap
  split
  · exact reports_appendChunkHeader
  · exact errorsIn_ok _

theorem reports_appendFragment :
    Reports refusalMessages (part.appendFragment blockSize fragment) := by
  refine ErrorsIn.bind (reports_orFail (by decide)) fun _ _ => ?_
  split
  · refine ErrorsIn.bind (reports_failIf (by decide)) fun _ _ => ?_
    refine reports_appendChunkHeader.bind fun _ _ => ?_
    refine ErrorsIn.bind ((reports_failIf (by decide)).bind fun _ _ => reports_appendPiece)
      fun _ _ => ?_
    simp only
    split
    · exact reports_appendPiece
    · exact errorsIn_ok _
  · exact reports_appendChunkHeader.bind fun _ _ => reports_appendLiteral

theorem reports_appendFragments {cursor : ℕ} : Reports refusalMessages
    (SparsePartSource.appendFragments blockSize totalBlocks cursor fragments part) := by
  induction fragments generalizing cursor part with
  | nil => exact reports_appendGap
  | cons fragment rest ih =>
      refine reports_appendGap.bind fun _ _ => ?_
      exact reports_appendFragment.bind fun _ _ => ih

theorem reports_buildPart :
    Reports refusalMessages (buildPart input fragments blockSize totalBlocks) := by
  refine ErrorsIn.bind ?_ fun _ _ => errorsIn_ok _
  refine (reports_failIf (by decide)).bind fun _ _ => ?_
  refine (reports_failIf (by decide)).bind fun _ _ => ?_
  refine (reports_orFail (by decide)).bind fun _ _ => ?_
  refine (reports_orFail (by decide)).bind fun _ _ => ?_
  exact reports_appendLiteral.bind fun _ _ => reports_appendFragments

theorem reports_counterBytesForFragment :
    Reports refusalMessages (counterBytesForFragment fragment lastBlock blockSize) := by
  refine ErrorsIn.bind ?_ fun _ _ => ?_
  · unfold fragmentEncodedBytes
    split
    · exact errorsIn_ok _
    · exact ErrorsIn.bind (reports_orFail (by decide)) fun _ _ => reports_orFail (by decide)
  · split
    · exact reports_orFail (by decide)
    · exact errorsIn_ok _

theorem reports_partStep {hasLast : Bool} {fileLen : ℕ} :
    Reports loopMessages (partStep payloadBudget blockSize hasLast fileLen lastBlock fragment) := by
  have htake : ∀ available, Reports loopMessages (takePrefix fragment available blockSize) := by
    intro available
    refine (reports_failIf (by decide)).bind fun _ _ => ?_
    split
    · exact errorsIn_ok _
    · simp only
      split
      · exact (reports_orFail (by decide)).bind fun _ _ => errorsIn_ok _
      · exact errorsIn_ok _
  refine reports_counterBytesForFragment.loop.bind fun _ _ => ?_
  refine (reports_orFail (by decide)).bind fun _ _ => ?_
  split
  · exact errorsIn_ok _
  · refine (reports_orFail (by decide)).bind fun _ _ => ?_
    simp only
    generalize (if _ ≤ payloadBudget then _ else 0) = remaining
    split
    · refine (reports_failIf (by decide)).bind fun _ _ => ?_
      exact (htake _).bind fun _ _ => errorsIn_ok _
    · exact errorsIn_ok _

/-- The inner loop always makes progress. -/
theorem reports_fillFrom
    (hpmt : ∀ count fragment, Reports loopMessages (permit count fragment)) {part : List Fragment} :
    Reports loopMessages (fillFrom permit payloadBudget blockSize fragments part) := by
  induction fragments generalizing part with
  | nil => exact errorsIn_ok _
  | cons fragment rest ih =>
      refine reports_partStep.bind fun step hstep => ?_
      cases partStep_eq_ok hstep with
      | fits =>
          refine (hpmt _ _).bind fun _ _ => ?_
          have hrest := @ih (part ++ [fragment])
          rwa [fillFrom, endOf_concat] at hrest
      | split => exact (hpmt _ _).bind fun _ _ => errorsIn_ok _
      | stop _ hsplits =>
          simp only [failIf_bind_of_not (not_or.mp hsplits).1]
          exact errorsIn_ok _

theorem reports_segmentParts {result : Segmentation} :
    Reports loopMessages (segmentParts payloadBudget blockSize fuel fragments result) := by
  have hcntPart : ∀ partCount offset, Reports loopMessages (countPart partCount offset) := fun _ _ =>
    (reports_failIf (by decide)).bind fun _ _ => errorsIn_ok _
  induction fuel generalizing fragments result with
  | zero => exact errorsIn_ok _
  | succ fuel ih =>
      cases fragments with
      | nil => exact errorsIn_ok _
      | cons fragment rest =>
          refine (reports_fillFrom (fun _ _ => reports_failIf (by decide))).bind fun cut _ => ?_
          refine (hcntPart _ _).bind fun _ _ => ?_
          refine ErrorsIn.bind ?_ fun _ _ => ih
          unfold countTrailing
          split
          · exact hcntPart _ _
          · exact errorsIn_ok _

theorem reports_writeEmptyPart :
    Reports refusalMessages (writeEmptyPart input blockSize totalBlocks effectiveLimit written) := by
  refine reports_buildPart.bind fun _ _ => ?_
  refine (reports_failIf (by decide)).bind fun _ _ => ?_
  exact (reports_orFail (by decide)).bind fun _ _ => errorsIn_ok _

theorem reports_writeTrailing {trailingEmptyPart : Bool} : Reports refusalMessages
      (writeTrailing input blockSize totalBlocks effectiveLimit trailingEmptyPart written) := by
  unfold writeTrailing
  split
  · exact reports_writeEmptyPart
  · exact errorsIn_ok _

/-- Writing a part that was filled to the budget never finds it too large. -/
theorem reports_flushPart {cut : PartCut}
    (hlim : payloadBudget + kAospResparseReservedOverhead ≤ effectiveLimit)
    (hvs : ∀ f ∈ fragments, f.Valid) (hne : fragments ≠ [])
    (hcut : fillPart permit payloadBudget blockSize fragments [] 0 0 = .ok cut) :
    Reports refusalMessages
      (flushPart input blockSize totalBlocks effectiveLimit cut.part written) := by
  unfold flushPart
  split
  · exact errorsIn_ok _
  · refine reports_buildPart.bind fun part hpart => ?_
    have hsize := fillPart_size hvs hne hcut hpart
    rw [failIf_bind_of_not (by omega)]
    exact (reports_orFail (by decide)).bind fun _ _ => errorsIn_ok _

theorem reports_serializeParts
    (hlim : payloadBudget + kAospResparseReservedOverhead ≤ effectiveLimit)
    (hvs : ∀ f ∈ fragments, f.Valid) :
    Reports loopMessages
      (serializeParts input payloadBudget blockSize totalBlocks effectiveLimit fuel fragments
        written) := by
  induction fuel generalizing fragments written with
  | zero => exact errorsIn_ok _
  | succ fuel ih =>
      cases fragments with
      | nil => exact errorsIn_ok _
      | cons fragment rest =>
          refine (reports_fillFrom (fun _ _ => errorsIn_ok _)).bind fun cut hcut => ?_
          obtain ⟨-, -, hrest, -⟩ := fillPart_blocks [] hvs (by simp) (.inr (by simp)) hcut
          refine (reports_flushPart hlim hvs (by simp) hcut).loop.bind fun _ _ => ?_
          exact reports_writeTrailing.loop.bind fun _ _ => ih hrest

theorem reports_pushFragment :
    Reports refusalMessages (pushFragment fragments fragment blockSize) :=
  (reports_failIf (by decide)).bind fun _ _ => errorsIn_ok _

theorem reports_appendMergedFragment :
    Reports refusalMessages (appendMergedFragment fragments fragment blockSize) := by
  refine (reports_failIf (by decide)).bind fun _ _ => ?_
  cases fragments.getLast? with
  | none => exact reports_pushFragment
  | some previous =>
      refine ErrorsIn.bind ?_ fun merge _ => ?_
      · unfold continuesFragment
        split
        · split
          · exact errorsIn_ok _
          · refine ErrorsIn.bind (reports_orFail (by decide)) fun _ _ => ?_
            exact (reports_orFail (by decide)).bind fun _ _ => errorsIn_ok _
        · exact errorsIn_ok _
      · split
        · exact (reports_failIf (by decide)).bind fun _ _ => errorsIn_ok _
        · exact reports_pushFragment

theorem reports_scanRawBlocks {source : ImageSource} {remaining index : ℕ} :
    Reports refusalMessages (scanRawBlocks source blockSize remaining index fragments) := by
  induction remaining generalizing index fragments with
  | zero => exact errorsIn_ok _
  | succ remaining ih =>
      refine ErrorsIn.bind (errorsIn_mapError fun fault => ?_) fun _ _ =>
        reports_appendMergedFragment.bind fun _ _ => ih
      intro hkind
      cases fault <;> cases hkind

theorem reports_importChunks {chunks : List SparseChunk} :
    Reports refusalMessages (chunks.foldlM (importChunk blockSize) fragments) := by
  induction chunks generalizing fragments with
  | nil => exact errorsIn_ok _
  | cons chunk rest ih =>
      rw [List.foldlM_cons]
      refine ErrorsIn.bind ?_ fun _ _ => ih
      unfold importChunk
      split
      · exact errorsIn_ok _
      · refine (reports_failIf (by decide)).bind fun _ _ => ?_
        exact (reports_failIf (by decide)).bind fun _ _ => reports_appendMergedFragment

theorem reports_artifactFragments (artifact : FlashArtifact) :
    Reports refusalMessages (artifactFragments artifact) := by
  unfold artifactFragments
  split
  · refine (reports_failIf (by decide)).bind fun _ _ => ?_
    refine (reports_failIf (by decide)).bind fun _ _ => ?_
    exact reports_scanRawBlocks.bind fun _ _ => errorsIn_ok _
  · cases artifact.sparseImage with
    | none =>
        intro e he
        cases he
        intro hkind
        cases hkind
    | some image => exact reports_importChunks.bind fun _ _ => errorsIn_ok _

/-! ### The plan -/

/-- The parts written so far keep to the limit, and their sizes are counted. -/
structure WrittenParts.Counted (effectiveLimit : ℕ) (written : WrittenParts) : Prop where
  size_le : ∀ part ∈ written.parts, part.source.size ≤ effectiveLimit
  total_eq : written.totalTransferSize = (written.parts.map (·.source.size)).sum

theorem writePart_counted {tooLarge : String} {written' : WrittenParts}
    (h : written.Counted effectiveLimit)
    (hok : writePart input blockSize totalBlocks effectiveLimit fragments tooLarge written
      = .ok written') : written'.Counted effectiveLimit := by
  obtain ⟨part, -, hok⟩ := bind_eq_ok.mp hok
  obtain ⟨hsize, hok⟩ := failIf_bind_eq_ok.mp hok
  obtain ⟨total, htot, hok⟩ := bind_eq_ok.mp hok
  cases hok
  refine ⟨List.forall_mem_append.mpr ⟨h.size_le, List.forall_mem_singleton.mpr ?_⟩, ?_⟩
  · omega
  · rw [checkedAdd_eq_some (orFail_eq_ok.mp htot), h.total_eq]
    simp

theorem serializeParts_counted {payloadBudget blockSize fuel : ℕ} {written' : WrittenParts}
    (h : written.Counted effectiveLimit)
    (hok : serializeParts input payloadBudget blockSize totalBlocks effectiveLimit fuel fragments
      written = .ok written') : written'.Counted effectiveLimit := by
  induction fuel generalizing fragments written with
  | zero =>
      cases hok
      exact h
  | succ fuel ih =>
      cases fragments with
      | nil =>
          cases hok
          exact h
      | cons fragment rest =>
          obtain ⟨cut, -, hok⟩ := bind_eq_ok.mp hok
          obtain ⟨mid, hmid, hok⟩ := bind_eq_ok.mp hok
          obtain ⟨next, hnext, hok⟩ := bind_eq_ok.mp hok
          have hmid : mid.Counted effectiveLimit := by
            unfold flushPart at hmid
            split at hmid
            · cases hmid
              exact h
            · exact writePart_counted h hmid
          have hnext : next.Counted effectiveLimit := by
            unfold writeTrailing at hnext
            split at hnext
            · exact writePart_counted hmid hnext
            · cases hnext
              exact hmid
          exact ih hnext hok

theorem writeSegments_counted {payloadBudget blockSize : ℕ}
    (hok : writeSegments input payloadBudget blockSize totalBlocks effectiveLimit fragments
      = .ok written) : written.Counted effectiveLimit := by
  have hstart : (⟨[], 0⟩ : WrittenParts).Counted effectiveLimit := ⟨by simp, rfl⟩
  unfold writeSegments at hok
  split at hok
  · exact writePart_counted hstart hok
  · exact serializeParts_counted hstart hok

/-- Both passes make the same number of parts, and none is closed that has room. -/
theorem passes_agree {payloadBudget blockSize : ℕ} {segmentation : Segmentation}
    (hvs : ∀ f ∈ fragments, f.Valid)
    (hseg : segmentLikeAospFirstPass fragments payloadBudget blockSize = .ok segmentation)
    (hwr : writeSegments input payloadBudget blockSize totalBlocks effectiveLimit
      segmentation.fragments = .ok written) :
    written.parts.length = segmentation.partCount ∧ Filled payloadBudget blockSize [] fragments := by
  unfold segmentLikeAospFirstPass at hseg
  split at hseg
  · next hnil =>
    cases hseg
    rw [writeSegments, if_pos rfl] at hwr
    subst hnil
    exact ⟨writePart_length hwr, .done⟩
  · next hne =>
    obtain ⟨pieces, count, hpcs, hcnt, hsegs⟩ := segmentParts_segments hvs le_rfl hseg
    rw [List.nil_append] at hpcs
    rw [hpcs, writeSegments, if_neg (mt (hsegs.fronts hvs).nil_iff.mp hne)] at hwr
    rw [hcnt]
    exact hsegs.filled hvs le_rfl hwr

theorem reports_resparse (artifact : FlashArtifact)
    (hlim : kAospResparseReservedOverhead ≤ effectiveLimit) :
    Reports loopMessages (resparse artifact effectiveLimit) := by
  refine (reports_artifactFragments artifact).loop.bind fun initial hinit => ?_
  have hvs := artifactFragments_valid hinit
  refine ErrorsIn.bind ?_ fun segmentation hseg => ErrorsIn.bind ?_ fun written hwr => ?_
  · unfold segmentLikeAospFirstPass
    split
    · exact errorsIn_ok _
    · exact reports_segmentParts
  · unfold writeSegments
    split
    · exact reports_writeEmptyPart.loop
    · exact reports_serializeParts (by omega) (segmentLikeAospFirstPass_blocks [] hvs hseg).2
  · rw [failIf_bind_of_not (not_not.mpr (passes_agree hvs hseg hwr).1)]
    exact errorsIn_ok _

theorem reports_create (artifact : FlashArtifact) (target host : ℕ) :
    Reports loopMessages (SparseFlashPlan.create artifact target host) := by
  rw [create_eq]
  split
  · exact errorsIn_ok _
  · refine (reports_failIf (by decide)).bind fun _ _ => ?_
    refine (reports_failIf (by decide)).bind fun _ hlim => ?_
    have hlim := failIf_eq_ok.mp hlim
    exact reports_resparse artifact (by omega)

/-- Every part of a resparsed plan keeps to the limit, its transfer size is the sum over the parts,
and no artifact makes the planner fail with a part that is too large, a pass without progress or
passes that disagree. -/
theorem resparse_keeps_limits (artifact : FlashArtifact)
    (targetMaxDownloadSize hostResparseLimit : ℕ) :
    (∀ e, SparseFlashPlan.create artifact targetMaxDownloadSize hostResparseLimit = .error e →
      ¬ Defect e) ∧
    ∀ plan, SparseFlashPlan.create artifact targetMaxDownloadSize hostResparseLimit = .ok plan →
      plan.reparsed = true →
        (∀ part ∈ plan.parts,
          part.source.size ≤ effectiveLimitOf targetMaxDownloadSize hostResparseLimit) ∧
        plan.transferSize = (plan.parts.map (·.source.size)).sum := by
  refine ⟨fun e he hdefect => ?_, fun plan hok hreparsed => ?_⟩
  · have hmessage := reports_create artifact targetMaxDownloadSize hostResparseLimit e he hdefect.1
    have hapart : ∀ message ∈ cannotHoldBlock :: refusalMessages, message ∉ resparseDefects := by
      decide
    exact hapart e.message hmessage hdefect.2
  have hok := create_reparsed hok hreparsed
  simp only [resparse, bind_eq_ok, failIf_eq_ok, exists_const, Except.ok.injEq] at hok
  obtain ⟨_, -, _, -, written, hwrite, -, rfl⟩ := hok
  have hcounted := writeSegments_counted hwrite
  exact ⟨hcounted.size_le, hcounted.total_eq⟩

/-- A sparse image of three raw blocks of 32 bytes. -/
def threeBlockFile : Bytes :=
  encodeFile 32 3 [⟨.raw, 3, (List.range 96).map UInt8.ofNat⟩]

theorem threeBlockFile_size_le : threeBlockFile.length ≤ uint64Max := by decide +kernel

def threeBlockSource : ImageSource := .ofBytes threeBlockFile threeBlockFile_size_le

/-- A target that takes 132 bytes at a time gets the three blocks in two parts. -/
theorem threeBlockFile_keeps_limits :
    ∃ artifact plan, FlashArtifact.inspect threeBlockSource = .ok artifact ∧
      SparseFlashPlan.create artifact 132 kDefaultResparseLimitBytes = .ok plan ∧
      plan.parts.length = 2 ∧ (∀ part ∈ plan.parts, part.source.size ≤ 132) ∧
      plan.transferSize = (plan.parts.map (·.source.size)).sum := by
  have hrun : ((FlashArtifact.inspect threeBlockSource).toOption.bind fun artifact =>
      (SparseFlashPlan.create artifact 132 kDefaultResparseLimitBytes).toOption.map fun plan =>
        (plan.reparsed, plan.parts.length)) = some (true, 2) := by decide +kernel
  simp only [Option.bind_eq_some_iff, Option.map_eq_some_iff, Prod.mk.injEq] at hrun
  obtain ⟨artifact, hinspect, plan, hplan, hreparsed, hcount⟩ := hrun
  have hplan := toOption_eq_some_iff.mp hplan
  exact ⟨artifact, plan, toOption_eq_some_iff.mp hinspect, hplan, hcount,
    (resparse_keeps_limits artifact 132 _).2 plan hplan hreparsed⟩

end KairosBoot
