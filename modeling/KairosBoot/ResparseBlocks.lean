import KairosBoot.SparseFlashPlan

/-! # Blocks of an imported artifact

A fragment list stands for the list of its blocks, each with its number and its bytes
(`blocksOf`).  Adding a fragment, merged with the last one or not, adds its blocks
(`appendMergedFragment_blocks`), so importing an artifact yields its backed blocks in order:
every block of a raw image (`scanRawBlocks_blocks`), and the raw and filled blocks of a sparse
one (`foldlM_importChunk_blocks`).  `ResparsePasses.lean` follows the same list through the two
splitting passes. -/

namespace KairosBoot

open ByteLib Guards List

/-! ### Blocks of fragments and of records -/

/-- A non-empty run of raw or filled blocks. -/
structure Fragment.Valid (fragment : Fragment) : Prop where
  kind_eq : fragment.kind = .raw ∨ fragment.kind = .fill
  count_pos : 0 < fragment.blockCount

/-- The bytes of the `k`th block of a fragment. -/
def Fragment.blockBytes (inputBytes : Bytes) (blockSize : ℕ) (fragment : Fragment) (k : ℕ) :
    Bytes :=
  if fragment.kind = .raw then slice inputBytes (fragment.sourceOffset + k * blockSize) blockSize
  else cyclic 0 (fillPattern fragment.fillValue) blockSize

/-- The numbered blocks of a fragment. -/
def Fragment.blockList (inputBytes : Bytes) (blockSize : ℕ) (fragment : Fragment) :
    List (ℕ × Bytes) :=
  (List.range fragment.blockCount).map fun k =>
    (fragment.startBlock + k, fragment.blockBytes inputBytes blockSize k)

/-- The numbered blocks of a fragment list. -/
def blocksOf (inputBytes : Bytes) (blockSize : ℕ) (fragments : List Fragment) : List (ℕ × Bytes) :=
  fragments.flatMap (Fragment.blockList inputBytes blockSize)

variable {inputBytes : Bytes} {blockSize : ℕ}

@[simp] theorem blocksOf_nil : blocksOf inputBytes blockSize [] = [] := rfl

@[simp] theorem blocksOf_cons (f : Fragment) (fs : List Fragment) :
    blocksOf inputBytes blockSize (f :: fs)
      = f.blockList inputBytes blockSize ++ blocksOf inputBytes blockSize fs := rfl

@[simp] theorem blocksOf_append (a b : List Fragment) :
    blocksOf inputBytes blockSize (a ++ b)
      = blocksOf inputBytes blockSize a ++ blocksOf inputBytes blockSize b := flatMap_append

@[simp] theorem length_blockList (f : Fragment) :
    (f.blockList inputBytes blockSize).length = f.blockCount := by
  simp [Fragment.blockList]

theorem length_blocksOf (fragments : List Fragment) :
    (blocksOf inputBytes blockSize fragments).length = fragmentBlocks fragments := by
  induction fragments with
  | nil => rfl
  | cons f fs ih =>
      rw [blocksOf_cons, length_append, length_blockList, ih]
      rfl

/-- The blocks of a fragment are those of its beginning and those of its continuation. -/
theorem blockList_split (whole first second : Fragment)
    (hfst : first.startBlock = whole.startBlock ∧ first.kind = whole.kind)
    (hsnd : second.startBlock = whole.startBlock + first.blockCount ∧ second.kind = whole.kind)
    (hcnt : whole.blockCount = first.blockCount + second.blockCount)
    (hraw : whole.kind = .raw → first.sourceOffset = whole.sourceOffset ∧
      second.sourceOffset = whole.sourceOffset + first.blockCount * blockSize)
    (hfill : whole.kind ≠ .raw → first.fillValue = whole.fillValue ∧
      second.fillValue = whole.fillValue) :
    whole.blockList inputBytes blockSize
      = first.blockList inputBytes blockSize ++ second.blockList inputBytes blockSize := by
  unfold Fragment.blockList
  rw [hcnt, range_add, map_append, map_map]
  congr 1
  · refine map_congr_left fun k _ => ?_
    rw [hfst.1]
    unfold Fragment.blockBytes
    rw [hfst.2]
    split
    · next hk => rw [(hraw hk).1]
    · next hk => rw [(hfill hk).1]
  · refine map_congr_left fun k _ => ?_
    simp only [Function.comp_apply, hsnd.1, add_assoc]
    unfold Fragment.blockBytes
    rw [hsnd.2]
    split
    · next hk => rw [(hraw hk).2, add_mul, add_assoc]
    · next hk => rw [(hfill hk).2]

/-! ### Merging -/

variable {fragments result : List Fragment} {fragment : Fragment}

theorem continuesFragment_eq {previous : Fragment}
    (hok : continuesFragment previous fragment blockSize = .ok true) :
    fragment.startBlock = previous.startBlock + previous.blockCount ∧
      fragment.kind = previous.kind ∧
      (fragment.kind = .fill → fragment.fillValue = previous.fillValue) ∧
      (fragment.kind ≠ .fill →
        fragment.sourceOffset = previous.sourceOffset + previous.blockCount * blockSize) := by
  unfold continuesFragment at hok
  split at hok
  · next hmeet =>
    obtain ⟨hstart, hkind⟩ := hmeet
    split at hok
    · next hfill =>
      have hval : previous.fillValue = fragment.fillValue := by simpa using hok
      exact ⟨hstart.symm, hkind.symm, fun _ => hval.symm, fun hne => absurd hfill hne⟩
    · next hfill =>
      simp only [bind_eq_ok, fragmentDataBytes, orFail_eq_ok, Except.ok.injEq,
        decide_eq_true_eq] at hok
      obtain ⟨bytes, hbytes, expected, hexp, hsrc⟩ := hok
      obtain ⟨rfl, -⟩ := checkedMultiply_eq_some hbytes
      refine ⟨hstart.symm, hkind.symm, fun h => absurd h hfill, fun _ => ?_⟩
      rw [← hsrc, checkedAdd_eq_some hexp]
  · simp at hok

theorem pushFragment_eq (hok : pushFragment fragments fragment blockSize = .ok result) :
    result = fragments ++ [fragment] := by
  rw [pushFragment, failIf_bind_eq_ok] at hok
  exact (Except.ok.inj hok.2).symm

/-- Adding a fragment, merged or not, adds its blocks. -/
theorem appendMergedFragment_blocks (inputBytes : Bytes) (hv : fragment.Valid)
    (hvs : ∀ f ∈ fragments, f.Valid)
    (hok : appendMergedFragment fragments fragment blockSize = .ok result) :
    blocksOf inputBytes blockSize result
        = blocksOf inputBytes blockSize fragments ++ fragment.blockList inputBytes blockSize ∧
      ∀ f ∈ result, f.Valid := by
  have hpush : ∀ {r : List Fragment}, r = fragments ++ [fragment] →
      blocksOf inputBytes blockSize r
          = blocksOf inputBytes blockSize fragments ++ fragment.blockList inputBytes blockSize ∧
        ∀ f ∈ r, f.Valid := by
    rintro r rfl
    exact ⟨by simp, forall_mem_append.mpr ⟨hvs, forall_mem_singleton.mpr hv⟩⟩
  rw [appendMergedFragment, failIf_bind_eq_ok] at hok
  obtain ⟨-, hok⟩ := hok
  cases hlast : fragments.getLast? with
  | none =>
      rw [hlast] at hok
      exact hpush (pushFragment_eq hok)
  | some previous =>
      rw [hlast] at hok
      obtain ⟨merge, hmerge, hok⟩ := bind_eq_ok.mp hok
      cases merge with
      | false => exact hpush (pushFragment_eq (by simpa using hok))
      | true =>
          simp only [if_true, failIf_bind_eq_ok, Except.ok.injEq] at hok
          obtain ⟨-, rfl⟩ := hok
          obtain ⟨earlier, rfl⟩ := getLast?_eq_some_iff.mp hlast
          obtain ⟨hstart, hkind, hfill, hsrc⟩ := continuesFragment_eq hmerge
          have hprev := hvs previous (by simp)
          have hjoin : Fragment.blockList inputBytes blockSize
              { previous with blockCount := previous.blockCount + fragment.blockCount }
              = previous.blockList inputBytes blockSize ++
                fragment.blockList inputBytes blockSize := by
            refine blockList_split _ previous fragment ⟨rfl, rfl⟩ ⟨hstart, hkind⟩ rfl
              (fun hk => ⟨rfl, hsrc ?_⟩) (fun hk => ⟨rfl, hfill ?_⟩)
            · have hraw : previous.kind = .raw := hk
              rw [hkind, hraw]
              decide
            · rw [hkind]
              exact hprev.kind_eq.resolve_left hk
          refine ⟨?_, fun f hm => ?_⟩
          · rw [dropLast_concat, blocksOf_append, blocksOf_append, blocksOf_cons,
              blocksOf_cons, hjoin]
            simp
          · rw [dropLast_concat] at hm
            rcases mem_append.mp hm with hm | hm
            · exact hvs f (by simp [hm])
            · rw [mem_singleton.mp hm]
              exact ⟨hprev.kind_eq, by have := hprev.count_pos; simp; omega⟩

/-! ### Importing a raw image -/

/-- A block whose words all equal its first one is that word repeated. -/
theorem blockIsFill_eq {block : Bytes} (h4 : block.length % 4 = 0) (h : blockIsFill block = true) :
    block = cyclic 0 (fillPattern (BitVec.ofNat 32 (readU32 block 0))) block.length := by
  have hwords : ∀ k, k < block.length / 4 → readU32 block (4 * k) = readU32 block 0 := by
    intro k hk
    have := all_eq_true.mp h k (mem_range.mpr hk)
    simpa using this
  have hpattern : fillPattern (BitVec.ofNat 32 (readU32 block 0)) = leBytes 4 (readU32 block 0) := by
    rw [fillPattern, BitVec.toNat_ofNat, Nat.mod_eq_of_lt (readU32_lt block 0)]
  have hword : ∀ k, k < block.length / 4 → slice block (4 * k) 4 = leBytes 4 (readU32 block 0) := by
    intro k hk
    have hlen : (slice block (4 * k) 4).length = 4 := length_slice (by omega)
    rw [← hwords k hk, readU32, getLE]
    have := leBytes_leNat (slice block (4 * k) 4)
    rwa [hlen, eq_comm] at this
  have hprefix : ∀ n, n ≤ block.length / 4 →
      slice block 0 (4 * n) = cyclic 0 (leBytes 4 (readU32 block 0)) (4 * n) := by
    intro n
    induction n with
    | zero => intro _; simp [cyclic]
    | succ n ih =>
        intro hn
        have hone : cyclic 0 (leBytes 4 (readU32 block 0)) 4 = leBytes 4 (readU32 block 0) := by
          rw [cyclic_eq_take 0 (by simp), take_of_length_le (by simp)]
        rw [Nat.mul_succ, slice_add, zero_add, ih (by omega), hword n (by omega),
          cyclic_add 0 (by simp), hone]
  have hall := hprefix (block.length / 4) le_rfl
  have hlen : 4 * (block.length / 4) = block.length := by omega
  rw [hlen, slice_all] at hall
  rw [hpattern]
  exact hall

theorem readSourceExact_eq {source : ImageSource} {bytes : Bytes} (h : source.Holds bytes)
    {sourceOffset length : ℕ} (hle : sourceOffset + length ≤ bytes.length) :
    readSourceExact source sourceOffset length = .ok (slice bytes sourceOffset length) := by
  rw [readSourceExact, readLoop_eq h.serves hle]
  rfl

theorem rawFragment_blocks {index : ℕ} (hmod : blockSize % 4 = 0)
    (hle : index * blockSize + blockSize ≤ inputBytes.length) :
    (rawFragment index (index * blockSize)
        (slice inputBytes (index * blockSize) blockSize)).blockList inputBytes blockSize
      = [(index, slice inputBytes (index * blockSize) blockSize)] := by
  have hlen : (slice inputBytes (index * blockSize) blockSize).length = blockSize :=
    length_slice hle
  unfold Fragment.blockList Fragment.blockBytes rawFragment
  by_cases hfill : blockIsFill (slice inputBytes (index * blockSize) blockSize)
  · have heq := blockIsFill_eq (by rw [hlen]; exact hmod) hfill
    rw [hlen] at heq
    simpa [hfill] using heq.symm
  · simp [hfill]

theorem scanRawBlocks_blocks {source : ImageSource} (h : source.Holds inputBytes)
    (hmod : blockSize % 4 = 0) {remaining index : ℕ}
    (hle : (index + remaining) * blockSize ≤ inputBytes.length) (hvs : ∀ f ∈ fragments, f.Valid)
    (hok : scanRawBlocks source blockSize remaining index fragments = .ok result) :
    blocksOf inputBytes blockSize result = blocksOf inputBytes blockSize fragments ++
        (range remaining).map (fun k =>
          (index + k, slice inputBytes ((index + k) * blockSize) blockSize)) ∧
      ∀ f ∈ result, f.Valid := by
  induction remaining generalizing index fragments with
  | zero =>
      cases hok
      exact ⟨by simp, hvs⟩
  | succ remaining ih =>
      have hblk : index * blockSize + blockSize ≤ inputBytes.length := by
        have : (index + 1) * blockSize ≤ (index + (remaining + 1)) * blockSize :=
          Nat.mul_le_mul_right _ (by omega)
        rw [add_mul, one_mul] at this
        omega
      simp only [scanRawBlocks, readSourceExact_eq h hblk, ok_bind, bind_eq_ok] at hok
      obtain ⟨next, hnext, hok⟩ := hok
      have hvld : (rawFragment index (index * blockSize)
          (slice inputBytes (index * blockSize) blockSize)).Valid := by
        refine ⟨?_, Nat.one_pos⟩
        unfold rawFragment
        split
        · exact Or.inr rfl
        · exact Or.inl rfl
      obtain ⟨hblks, hvs'⟩ := appendMergedFragment_blocks inputBytes hvld hvs hnext
      obtain ⟨hrest, hvalids⟩ := ih (by rw [add_assoc, add_comm 1]; exact hle) hvs' hok
      refine ⟨?_, hvalids⟩
      rw [hrest, hblks, rawFragment_blocks hmod hblk, append_assoc]
      congr 1
      rw [range_succ_eq_map, map_cons, map_map]
      simp [Function.comp_def, add_assoc, add_comm 1]

/-! ### Importing a sparse image -/

/-- The numbered raw and filled blocks of a record list whose first block is `start`. -/
def recordBlocks (blockSize : ℕ) : ℕ → List ChunkRecord → List (ℕ × Bytes)
  | _, [] => []
  | start, r :: rs =>
      (if r.kind = .raw ∨ r.kind = .fill then
        (List.range r.blocks).map fun k =>
          (start + k, slice (r.expand blockSize) (k * blockSize) blockSize)
      else []) ++ recordBlocks blockSize (start + r.blocks) rs

/-- A window of whole words of a repeated word is that word repeated. -/
theorem slice_cyclic_aligned (p : Bytes) {n off len : ℕ} (h : off + len ≤ n)
    (hoff : p.length ∣ off) : slice (cyclic 0 p n) off len = cyclic 0 p len := by
  obtain ⟨k, rfl⟩ := hoff
  rw [slice_cyclic 0 p h, cyclic]
  simp

/-- The fragment of a sparse chunk has the chunk's blocks. -/
theorem chunkFragment_blocks {header : SparseHeader} {offset start : ℕ} {r : ChunkRecord}
    (hat : ChunkAt inputBytes header offset r) (hk : r.kind = .raw ∨ r.kind = .fill)
    (hmod : header.blockSize % 4 = 0) :
    Fragment.blockList inputBytes header.blockSize
        { kind := r.kind
          startBlock := start
          blockCount := r.blocks
          sourceOffset := offset + header.chunkHeaderSize
          fillValue := (if r.kind = .fill then some r.word else none).getD 0#32 }
      = (range r.blocks).map fun k =>
          (start + k, slice (r.expand header.blockSize) (k * header.blockSize)
            header.blockSize) := by
  have hwf := hat.wellFormed
  refine map_congr_left fun k hmem => ?_
  have hlt := mem_range.mp hmem
  have hle : k * header.blockSize + header.blockSize ≤ r.blocks * header.blockSize := by
    have := Nat.mul_le_mul_right header.blockSize (Nat.succ_le_of_lt hlt)
    rwa [Nat.succ_mul] at this
  unfold Fragment.blockBytes ChunkRecord.expand
  rcases hk with hk | hk
  · simp only [ChunkRecord.WellFormed, hk] at hwf
    simp only [hk, if_true]
    rw [hat.payload_eq, hwf.2, slice_slice _ hle]
  · simp only [ChunkRecord.WellFormed, hk] at hwf
    have hdvd : r.payload.length ∣ k * header.blockSize := by
      rw [hwf.2]
      exact Dvd.dvd.mul_left (Nat.dvd_of_mod_eq_zero hmod) k
    simp only [hk, if_true, Option.getD_some, fillPattern_word hwf.2]
    rw [slice_cyclic_aligned _ hle hdvd]
    rfl

/-- Importing a sparse image yields its raw and filled blocks in order. -/
theorem foldlM_importChunk_blocks (start : ℕ) {header : SparseHeader} {offset finish : ℕ}
    {records : List ChunkRecord} (hb : HeaderBounds header) (hmod : header.blockSize % 4 = 0)
    (hat : ChunksBetween inputBytes header offset records finish) (hvs : ∀ f ∈ fragments, f.Valid)
    (hok : (layout header offset (start * header.blockSize) records).foldlM
      (importChunk header.blockSize) fragments = .ok result) :
    blocksOf inputBytes header.blockSize result
        = blocksOf inputBytes header.blockSize fragments ++
          recordBlocks header.blockSize start records ∧
      ∀ f ∈ result, f.Valid := by
  induction records generalizing offset start fragments with
  | nil =>
      simp only [layout, foldlM_nil, pure_eq_ok_iff] at hok
      subst hok
      exact ⟨by simp [recordBlocks], hvs⟩
  | cons r rs ih =>
      rw [layout, foldlM_cons, bind_eq_ok, ← add_mul] at hok
      obtain ⟨next, hnext, hok⟩ := hok
      rw [recordBlocks, ← append_assoc]
      by_cases hk : r.kind = .raw ∨ r.kind = .fill
      · have hstart : start * header.blockSize / header.blockSize = start :=
          Nat.mul_div_cancel _ hb.block_pos
        have hne : r.kind ≠ .crc32 := by rcases hk with hk | hk <;> rw [hk] <;> decide
        have hskip : ¬ (r.kind ≠ .raw ∧ r.kind ≠ .fill) := by tauto
        rw [importChunk, if_neg (by exact hskip)] at hnext
        simp only [bind_eq_ok, failIf_eq_ok, exists_const] at hnext
        obtain ⟨-, -, hnext⟩ := hnext
        simp only [ChunkRecord.toChunk, hstart] at hnext
        have hblks := appendMergedFragment_blocks inputBytes
          (Fragment.Valid.mk (by exact hk) (by exact hat.1.wellFormed.blocks_pos hne)) hvs hnext
        obtain ⟨hrest, hvalids⟩ := ih _ hat.2 hblks.2 hok
        rw [if_pos hk]
        refine ⟨?_, hvalids⟩
        rw [hrest, hblks.1, chunkFragment_blocks hat.1 hk hmod]
      · have hskip : r.kind ≠ .raw ∧ r.kind ≠ .fill := by tauto
        have hsame : importChunk header.blockSize fragments
            (r.toChunk header offset (start * header.blockSize)) = .ok fragments := by
          unfold importChunk
          exact if_pos hskip
        rw [hsame] at hnext
        cases hnext
        rw [if_neg hk, append_nil]
        exact ih _ hat.2 hvs hok

end KairosBoot
