import KairosBoot.ResparseBlocks
import Mathlib.Data.List.Forall2

/-! # The resparse passes keep the blocks

Splitting a fragment keeps its blocks (`takePrefix_blocks`), one round of a pass moves the
blocks it consumes into its part (`fillPart_blocks`), and whole passes keep the list of numbered
blocks as it is: the counting pass in its segmented list (`segmentParts_blocks`) and the writing
pass in the parts it builds (`serializeParts_parts`).  Every round consumes at least one block,
which is why the number of blocks bounds the rounds. -/

namespace KairosBoot

open ByteLib Guards List

variable {inputBytes : Bytes} {blockSize : ℕ}

/-! ### Splitting a fragment -/

variable {fragments : List Fragment} {payloadBudget effectiveLimit totalBlocks : ℕ}
  {written' written : WrittenParts} {fragment : Fragment}

theorem takePrefix_blocks (inputBytes : Bytes) {taken left : Fragment} {availableBytes : ℕ}
    (hv : fragment.Valid) (hok : takePrefix fragment availableBytes blockSize = .ok (taken, left)) :
    taken.blockList inputBytes blockSize ++ left.blockList inputBytes blockSize
        = fragment.blockList inputBytes blockSize ∧
      taken.Valid ∧ (left.blockCount ≠ 0 → left.Valid) := by
  rw [takePrefix, failIf_bind_eq_ok] at hok
  obtain ⟨hpos, hok⟩ := hok
  obtain ⟨n, hn⟩ : ∃ n, n = min (availableBytes / blockSize) fragment.blockCount := ⟨_, rfl⟩
  simp only [← hn] at hpos hok
  have hle : n ≤ fragment.blockCount := by omega
  split at hok
  · next hall =>
    cases hok
    refine ⟨?_, ⟨hv.kind_eq, Nat.pos_of_ne_zero hpos⟩, fun h => absurd rfl h⟩
    simp [Fragment.blockList, Fragment.blockBytes, hall]
  · next hne =>
    have hcnt : fragment.blockCount = n + (fragment.blockCount - n) := by omega
    split at hok
    · next hraw =>
      have hraw' : fragment.kind = .raw := hraw
      simp only [bind_eq_ok, orFail_eq_ok, Except.ok.injEq, Prod.mk.injEq] at hok
      obtain ⟨sourceOffset, hsrc, rfl, rfl⟩ := hok
      refine ⟨?_, ⟨hv.kind_eq, Nat.pos_of_ne_zero hpos⟩,
        fun h => ⟨hv.kind_eq, Nat.pos_of_ne_zero h⟩⟩
      symm
      apply blockList_split fragment
      · exact ⟨rfl, rfl⟩
      · exact ⟨rfl, rfl⟩
      · exact hcnt
      · exact fun _ => ⟨rfl, checkedAdd_eq_some hsrc⟩
      · exact fun h => absurd hraw' h
    · next hraw =>
      cases hok
      refine ⟨?_, ⟨hv.kind_eq, Nat.pos_of_ne_zero hpos⟩,
        fun h => ⟨hv.kind_eq, Nat.pos_of_ne_zero h⟩⟩
      symm
      apply blockList_split fragment
      · exact ⟨rfl, rfl⟩
      · exact ⟨rfl, rfl⟩
      · exact hcnt
      · exact fun h => absurd h hraw
      · exact fun _ => ⟨rfl, rfl⟩

theorem blockList_of_count_zero (h : fragment.blockCount = 0) :
    fragment.blockList inputBytes blockSize = [] := by
  simp [Fragment.blockList, h]

/-- What the inner loop can do with the next fragment: take it whole, split it, or end a part
that already has a fragment. -/
theorem partStep_cases {fileLen lastBlock : ℕ} {hasLast : Bool} {step : PartStep}
    (hok : partStep payloadBudget blockSize hasLast fileLen lastBlock fragment = .ok step) :
    (∃ candidateSize, step = .fits candidateSize) ∨
      (∃ available taken left, step = .split taken left ∧
        takePrefix fragment available blockSize = .ok (taken, left)) ∨
      (step = .stop ∧ hasLast = true) := by
  simp only [partStep, bind_eq_ok] at hok
  obtain ⟨count, -, candidate, -, hok⟩ := hok
  split at hok
  · exact Or.inl ⟨candidate, (Except.ok.inj hok).symm⟩
  · obtain ⟨accounting, -, hok⟩ := bind_eq_ok.mp hok
    generalize (if accounting ≤ payloadBudget then payloadBudget - accounting else 0)
      = remaining at hok
    split at hok
    · rw [failIf_bind_eq_ok, bind_eq_ok] at hok
      obtain ⟨-, ⟨taken, left⟩, htake, hok⟩ := hok
      exact Or.inr (Or.inl ⟨remaining, taken, left, (Except.ok.inj hok).symm, htake⟩)
    · next hcond =>
      rw [not_or] at hcond
      exact Or.inr (Or.inr ⟨(Except.ok.inj hok).symm, by simpa using hcond.1⟩)

/-! ### Filling a part -/

/-- Filling a part moves blocks from the fragments left to the part, at least one if there is
any. -/
theorem fillPart_blocks (inputBytes : Bytes) {permit : ℕ → Fragment → PlanM Unit}
    {part : List Fragment} {fileLen lastBlock : ℕ} {cut : PartCut} (hvs : ∀ f ∈ fragments, f.Valid)
    (hvp : ∀ f ∈ part, f.Valid) (hne : part ≠ [] ∨ fragments ≠ [])
    (hok : fillPart permit payloadBudget blockSize fragments part fileLen lastBlock = .ok cut) :
    blocksOf inputBytes blockSize cut.part ++ blocksOf inputBytes blockSize cut.rest
        = blocksOf inputBytes blockSize part ++ blocksOf inputBytes blockSize fragments ∧
      (∀ f ∈ cut.part, f.Valid) ∧ (∀ f ∈ cut.rest, f.Valid) ∧ cut.part ≠ [] := by
  induction fragments generalizing part fileLen lastBlock with
  | nil =>
      cases hok
      exact ⟨rfl, hvp, by simp, hne.resolve_right (by simp)⟩
  | cons f fs ih =>
      have hvf := hvs f (by simp)
      have hvfs : ∀ g ∈ fs, g.Valid := fun g hm => hvs g (by simp [hm])
      have hpush : ∀ {g : Fragment}, g.Valid → ∀ f' ∈ part ++ [g], f'.Valid := fun hg =>
        forall_mem_append.mpr ⟨hvp, forall_mem_singleton.mpr hg⟩
      rw [fillPart, bind_eq_ok] at hok
      obtain ⟨step, hstep, hok⟩ := hok
      obtain ⟨candidateSize, rfl⟩ | ⟨available, taken, left, rfl, htake⟩ | ⟨rfl, hlast⟩ :=
        partStep_cases hstep
      · -- the whole fragment joins the part and the loop goes on
        simp only [bind_eq_ok] at hok
        obtain ⟨-, -, hok⟩ := hok
        obtain ⟨hblks, hp, hr, hne'⟩ := ih hvfs (hpush hvf) (Or.inl (by simp)) hok
        refine ⟨?_, hp, hr, hne'⟩
        rw [hblks]
        simp
      · -- a prefix joins the part and the rest of the fragment, if any, stays in front
        simp only [bind_eq_ok, Except.ok.injEq] at hok
        obtain ⟨-, -, rfl⟩ := hok
        obtain ⟨hblks, htaken, hleft⟩ := takePrefix_blocks inputBytes hvf htake
        refine ⟨?_, hpush htaken, ?_, by simp⟩
        · simp only [blocksOf_append, blocksOf_cons, blocksOf_nil, append_nil, append_assoc]
          rw [← hblks, append_assoc]
          split
          · next hzero => rw [blockList_of_count_zero hzero, nil_append]
          · rw [blocksOf_cons]
        · intro g hm
          split at hm
          · exact hvfs g hm
          · next hzero =>
            rcases mem_cons.mp hm with rfl | hm
            · exact hleft hzero
            · exact hvfs g hm
      · obtain ⟨hpart, hok⟩ := failIf_bind_eq_ok.mp hok
        cases hok
        exact ⟨rfl, hvp, hvs, hpart⟩

theorem fragmentBlocks_pos (hvs : ∀ f ∈ fragments, f.Valid) (hne : fragments ≠ []) :
    0 < fragmentBlocks fragments := by
  cases fragments with
  | nil => exact absurd rfl hne
  | cons f fs =>
      have := (hvs f (by simp)).count_pos
      simp only [fragmentBlocks, map_cons, sum_cons]
      omega

theorem fragmentBlocks_eq_zero (hvs : ∀ f ∈ fragments, f.Valid)
    (hzero : fragmentBlocks fragments = 0) : fragments = [] := by
  by_contra hne
  have := fragmentBlocks_pos hvs hne
  omega

/-- A round of a pass leaves fewer blocks than it found. -/
theorem fillPart_rest_lt {permit : ℕ → Fragment → PlanM Unit}
    {cut : PartCut} (hvs : ∀ f ∈ fragments, f.Valid) (hne : fragments ≠ [])
    (hok : fillPart permit payloadBudget blockSize fragments [] 0 0 = .ok cut) :
    fragmentBlocks cut.rest < fragmentBlocks fragments := by
  obtain ⟨hblks, hp, -, hpne⟩ := fillPart_blocks [] hvs (by simp) (Or.inr hne) hok
  have hlen := congrArg length hblks
  simp only [length_append, length_blocksOf, blocksOf_nil, length_nil, zero_add] at hlen
  have := fragmentBlocks_pos hp hpne
  omega

/-! ### The two passes -/

theorem segmentParts_blocks (inputBytes : Bytes) {fuel : ℕ} {result result' : Segmentation}
    (hvs : ∀ f ∈ fragments, f.Valid) (hvr : ∀ f ∈ result.fragments, f.Valid)
    (hfuel : fragmentBlocks fragments ≤ fuel)
    (hok : segmentParts payloadBudget blockSize fuel fragments result = .ok result') :
    blocksOf inputBytes blockSize result'.fragments
        = blocksOf inputBytes blockSize result.fragments ++
          blocksOf inputBytes blockSize fragments ∧
      ∀ f ∈ result'.fragments, f.Valid := by
  induction fuel generalizing fragments result with
  | zero =>
      obtain rfl := fragmentBlocks_eq_zero hvs (by omega)
      cases hok
      exact ⟨by simp, hvr⟩
  | succ fuel ih =>
      cases fragments with
      | nil =>
          cases hok
          exact ⟨by simp, hvr⟩
      | cons f fs =>
          simp only [segmentParts, bind_eq_ok] at hok
          obtain ⟨cut, hcut, count, -, count', -, hok⟩ := hok
          obtain ⟨hblks, hp, hr, -⟩ :=
            fillPart_blocks inputBytes hvs (by simp) (Or.inr (by simp)) hcut
          have hlt := fillPart_rest_lt hvs (by simp) hcut
          obtain ⟨hrest, hvld⟩ := ih hr (forall_mem_append.mpr ⟨hvr, hp⟩) (by omega) hok
          refine ⟨?_, hvld⟩
          rw [hrest, blocksOf_append, append_assoc, hblks, blocksOf_nil, nil_append]

theorem segmentLikeAospFirstPass_blocks (inputBytes : Bytes) {input : List Fragment}
    {result : Segmentation} (hvs : ∀ f ∈ input, f.Valid)
    (hok : segmentLikeAospFirstPass input payloadBudget blockSize = .ok result) :
    blocksOf inputBytes blockSize result.fragments = blocksOf inputBytes blockSize input ∧
      ∀ f ∈ result.fragments, f.Valid := by
  unfold segmentLikeAospFirstPass at hok
  split at hok
  · next hnil =>
    cases hok
    exact ⟨by simp [hnil], by simp⟩
  · have := segmentParts_blocks inputBytes hvs (by simp) le_rfl hok
    simpa using this

/-- The fragments a written part was built from. -/
def BuiltFrom (input : ImageSource) (blockSize totalBlocks : ℕ) (part : SparseFlashPart)
    (fragments : List Fragment) : Prop :=
  buildPart input fragments blockSize totalBlocks = .ok part

theorem writePart_parts {input : ImageSource} {tooLarge : String}
    (hok : writePart input blockSize totalBlocks effectiveLimit fragments tooLarge written
      = .ok written') :
    ∃ part, BuiltFrom input blockSize totalBlocks part fragments ∧
      written'.parts = written.parts ++ [part] := by
  simp only [writePart, bind_eq_ok, failIf_eq_ok, exists_const, Except.ok.injEq] at hok
  obtain ⟨part, hbuild, -, total, -, rfl⟩ := hok
  exact ⟨part, hbuild, rfl⟩

/-- One round of the writing pass: a part with the blocks of the cut, and perhaps an empty one. -/
theorem writeCut_parts {input : ImageSource} {cut : PartCut} (hne : cut.part ≠ [])
    {mid : WrittenParts}
    (hflush : flushPart input blockSize totalBlocks effectiveLimit cut.part written = .ok mid)
    (hemp : writeTrailing input blockSize totalBlocks effectiveLimit cut.trailingEmptyPart mid
      = .ok written') :
    ∃ parts lists, written'.parts = written.parts ++ parts ∧
      List.Forall₂ (BuiltFrom input blockSize totalBlocks) parts lists ∧
      (∀ fragments ∈ lists, fragments = cut.part ∨ fragments = []) ∧
      lists.flatten = cut.part := by
  rw [flushPart, if_neg hne] at hflush
  obtain ⟨part, hpart, hmid⟩ := writePart_parts hflush
  unfold writeTrailing at hemp
  split at hemp
  · obtain ⟨tail, htail, hwrit⟩ := writePart_parts hemp
    refine ⟨[part, tail], [cut.part, []], ?_, .cons hpart (.cons htail .nil), ?_, by simp⟩
    · rw [hwrit, hmid, append_assoc]
      rfl
    · intro fragments hm
      rcases mem_cons.mp hm with rfl | hm
      · exact Or.inl rfl
      · exact Or.inr (mem_singleton.mp hm)
  · cases hemp
    exact ⟨[part], [cut.part], hmid, .cons hpart .nil, by simp, by simp⟩

/-- The writing pass builds parts whose fragments together have the blocks it was given. -/
theorem serializeParts_parts (inputBytes : Bytes) {input : ImageSource} {fuel : ℕ}
    (hvs : ∀ f ∈ fragments, f.Valid) (hfuel : fragmentBlocks fragments ≤ fuel)
    (hok : serializeParts input payloadBudget blockSize totalBlocks effectiveLimit fuel fragments
      written = .ok written') :
    ∃ parts lists, written'.parts = written.parts ++ parts ∧
      List.Forall₂ (BuiltFrom input blockSize totalBlocks) parts lists ∧
      (∀ fs ∈ lists, ∀ f ∈ fs, f.Valid) ∧
      blocksOf inputBytes blockSize lists.flatten = blocksOf inputBytes blockSize fragments := by
  induction fuel generalizing fragments written with
  | zero =>
      obtain rfl := fragmentBlocks_eq_zero hvs (by omega)
      cases hok
      exact ⟨[], [], by simp, .nil, by simp, rfl⟩
  | succ fuel ih =>
      cases fragments with
      | nil =>
          cases hok
          exact ⟨[], [], by simp, .nil, by simp, rfl⟩
      | cons f fs =>
          simp only [serializeParts, bind_eq_ok] at hok
          obtain ⟨cut, hcut, mid, hmid, next, hnext, hok⟩ := hok
          obtain ⟨hblks, hp, hr, hne⟩ :=
            fillPart_blocks inputBytes hvs (by simp) (Or.inr (by simp)) hcut
          have hlt := fillPart_rest_lt hvs (by simp) hcut
          obtain ⟨parts, lists, hparts, hblt, hlists, hflat⟩ := writeCut_parts hne hmid hnext
          obtain ⟨parts', lists', hparts', hblt', hvld', hblks'⟩ := ih hr (by omega) hok
          refine ⟨parts ++ parts', lists ++ lists', ?_, rel_append hblt hblt', ?_, ?_⟩
          · rw [hparts', hparts, append_assoc]
          · intro gs hm
            rcases mem_append.mp hm with hm | hm
            · rcases hlists gs hm with rfl | rfl
              · exact hp
              · simp
            · exact hvld' gs hm
          · rw [flatten_append, blocksOf_append, hflat, hblks', hblks]
            simp

/-! ### The planner -/

/-- The limit of the target; zero is no limit of its own. -/
def targetLimitOf (targetMaxDownloadSize : ℕ) : ℕ :=
  if targetMaxDownloadSize = 0 then uint32Max else min targetMaxDownloadSize uint32Max

/-- The limit that a resparsed plan keeps to. -/
def effectiveLimitOf (targetMaxDownloadSize hostResparseLimit : ℕ) : ℕ :=
  min (targetLimitOf targetMaxDownloadSize) hostResparseLimit

theorem create_eq (artifact : FlashArtifact) (target host : ℕ) :
    SparseFlashPlan.create artifact target host =
      if artifact.metadata.transferSize ≤ targetLimitOf target then
        .ok ⟨[⟨artifact.transferSource, 0, artifact.metadata.expandedSize⟩], false,
          artifact.metadata.expandedSize, artifact.metadata.transferSize⟩
      else (do
        failIf (host = 0) ⟨.invalidArgument, 0, "host sparse split limit must not be zero"⟩
        failIf (effectiveLimitOf target host ≤ kAospResparseReservedOverhead)
          ⟨.unsupported, 0, "device maximum download size cannot hold AOSP sparse resparse overhead"⟩
        resparse artifact (effectiveLimitOf target host)) := rfl

theorem create_reparsed {artifact : FlashArtifact} {target host : ℕ} {plan : SparseFlashPlan}
    (hok : SparseFlashPlan.create artifact target host = .ok plan)
    (hreparsed : plan.reparsed = true) :
    resparse artifact (effectiveLimitOf target host) = .ok plan := by
  rw [create_eq] at hok
  split at hok
  · cases hok
    cases hreparsed
  · obtain ⟨-, hok⟩ := failIf_bind_eq_ok.mp hok
    exact (failIf_bind_eq_ok.mp hok).2

end KairosBoot
