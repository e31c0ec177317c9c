import KairosBoot.ResparsePasses

/-! # A resparse preserves the image

The parts of a resparsed plan are sparse files of the artifact's block size and block count.
Their raw and filled blocks, part after part, are exactly the backed blocks of the artifact in
increasing order, each with the bytes the artifact's expansion has there.

The passes keep the list of numbered blocks (`ResparsePasses.lean`), and that list is sorted, so
the fragments of a part are in order; then the records written for them have exactly the
fragments' blocks (`recordBlocks_partRecords`), and the reader accepts them. -/

namespace KairosBoot

open ByteLib Guards SparsePartSource List

/-! ### Blocks covered by raw and filled records -/

variable {inputBytes : Bytes} {blockSize : ℕ}

variable {fragments : List Fragment} {totalBlocks cursor block : ℕ} {blocks : List (ℕ × Bytes)}
  {initial : ArtifactFragments} {records : List ChunkRecord} {source : ImageSource}

theorem backsFrom_iff {start : ℕ} :
    BacksFrom start records block ↔ ∃ d, (block, d) ∈ recordBlocks blockSize start records := by
  induction records generalizing start with
  | nil => simp [BacksFrom, recordBlocks]
  | cons r rs ih =>
      rw [BacksFrom, recordBlocks, ih]
      simp only [mem_append, exists_or]
      refine or_congr ?_ Iff.rfl
      by_cases hk : r.kind = .raw ∨ r.kind = .fill
      · simp only [hk, true_and, if_true, mem_map, mem_range, Prod.mk.injEq]
        constructor
        · rintro ⟨hlo, hhi⟩
          exact ⟨_, block - start, by omega, by omega, rfl⟩
        · rintro ⟨_, k, hlt, rfl, _⟩
          omega
      · simp [hk]

theorem recordBlocks_bounds {start : ℕ} {p : ℕ × Bytes}
    (hmem : p ∈ recordBlocks blockSize start records) :
    start ≤ p.1 ∧ p.1 < start + totalRecordBlocks records := by
  induction records generalizing start with
  | nil => simp [recordBlocks] at hmem
  | cons r rs ih =>
      rw [totalRecordBlocks_cons]
      rw [recordBlocks] at hmem
      rcases mem_append.mp hmem with hmem | hmem
      · split at hmem
        · obtain ⟨k, hlt, rfl⟩ := mem_map.mp hmem
          have := mem_range.mp hlt
          simp only
          omega
        · simp at hmem
      · have := ih hmem
        omega

/-- Numbered blocks in increasing order. -/
def Increasing (blocks : List (ℕ × Bytes)) : Prop := blocks.Pairwise fun a b => a.1 < b.1

theorem increasing_range_map (start n : ℕ) (f : ℕ → Bytes) :
    Increasing ((range n).map fun k => (start + k, f k)) := by
  rw [Increasing, pairwise_map]
  exact pairwise_lt_range.imp fun h => by simpa using h

theorem recordBlocks_increasing (start : ℕ) (records : List ChunkRecord) :
    Increasing (recordBlocks blockSize start records) := by
  induction records generalizing start with
  | nil => exact List.Pairwise.nil
  | cons r rs ih =>
      rw [recordBlocks, Increasing, pairwise_append]
      refine ⟨?_, ih _, ?_⟩
      · split
        · exact increasing_range_map _ _ _
        · exact List.Pairwise.nil
      · intro p hp q hq
        have hq' := recordBlocks_bounds hq
        split at hp
        · obtain ⟨k, hlt, rfl⟩ := mem_map.mp hp
          have := mem_range.mp hlt
          simp only
          omega
        · simp at hp

/-- A covered block is listed with its bytes in the expansion. -/
theorem recordBlocks_expand {start : ℕ} (hwf : ∀ r ∈ records, r.WellFormed blockSize)
    {d : Bytes} (hmem : (block, d) ∈ recordBlocks blockSize start records) :
    d = slice (expandRecords blockSize records) ((block - start) * blockSize) blockSize := by
  induction records generalizing start with
  | nil => simp [recordBlocks] at hmem
  | cons r rs ih =>
      have hlen := (hwf r (by simp)).length_expand
      rw [recordBlocks] at hmem
      rw [expandRecords_cons]
      rcases mem_append.mp hmem with hmem | hmem
      · split at hmem
        · obtain ⟨k, hlt, heq⟩ := mem_map.mp hmem
          cases heq
          have hk : (k + 1) * blockSize ≤ r.blocks * blockSize :=
            Nat.mul_le_mul_right _ (mem_range.mp hlt)
          rw [Nat.add_sub_cancel_left, slice_append_left (by rw [hlen]; rw [add_mul] at hk; omega)]
        · simp at hmem
      · obtain ⟨hlo, -⟩ := recordBlocks_bounds hmem
        have hsplit : (block - start) * blockSize
            = (r.expand blockSize).length + (block - (start + r.blocks)) * blockSize := by
          rw [hlen, ← add_mul]
          congr 1
          simp only at hlo
          omega
        rw [hsplit, slice_append_right]
        exact ih (fun r' hm => hwf r' (by simp [hm])) hmem

/-! ### The records of a part -/

/-- The fragments lie one after the other between `cursor` and `totalBlocks`. -/
def Ordered (totalBlocks : ℕ) : ℕ → List Fragment → Prop
  | cursor, [] => cursor ≤ totalBlocks
  | cursor, f :: fs => cursor ≤ f.startBlock ∧ Ordered totalBlocks f.endBlock fs

theorem Ordered.le (h : Ordered totalBlocks cursor fragments) : cursor ≤ totalBlocks := by
  induction fragments generalizing cursor with
  | nil => exact h
  | cons f fs ih =>
      have := ih h.2
      have := h.1
      unfold Fragment.endBlock at *
      omega

/-- Fragments with increasing block numbers are in order. -/
theorem ordered_of_increasing (hvs : ∀ f ∈ fragments, f.Valid)
    (hinc : Increasing (blocksOf inputBytes blockSize fragments))
    (hbds : ∀ p ∈ blocksOf inputBytes blockSize fragments, cursor ≤ p.1 ∧ p.1 < totalBlocks)
    (hle : cursor ≤ totalBlocks) : Ordered totalBlocks cursor fragments := by
  induction fragments generalizing cursor with
  | nil => exact hle
  | cons f fs ih =>
      have hpos := (hvs f (by simp)).count_pos
      have hmem : ∀ k, k < f.blockCount → (f.startBlock + k, f.blockBytes inputBytes blockSize k) ∈
          f.blockList inputBytes blockSize :=
        fun k hk => mem_map.mpr ⟨k, mem_range.mpr hk, rfl⟩
      rw [blocksOf_cons] at hbds
      rw [blocksOf_cons, Increasing, pairwise_append] at hinc
      obtain ⟨-, hinc, hcross⟩ := hinc
      have hfst := hbds _ (mem_append_left _ (hmem 0 hpos))
      have hlast := hbds _ (mem_append_left _ (hmem (f.blockCount - 1) (by omega)))
      simp only at hfst hlast
      refine ⟨by omega, ih (fun g hm => hvs g (by simp [hm])) hinc ?_ ?_⟩
      · intro p hp
        have h1 := hcross _ (hmem (f.blockCount - 1) (by omega)) p hp
        have h2 := hbds p (mem_append_right _ hp)
        simp only at h1
        unfold Fragment.endBlock
        omega
      · unfold Fragment.endBlock
        omega

theorem totalRecordBlocks_gap (h : cursor ≤ block) :
    totalRecordBlocks (gapRecord cursor block) = block - cursor := by
  unfold gapRecord
  split
  · simp
  · simp; omega

theorem recordBlocks_append (start : ℕ) (a b : List ChunkRecord) :
    recordBlocks blockSize start (a ++ b)
      = recordBlocks blockSize start a ++
        recordBlocks blockSize (start + totalRecordBlocks a) b := by
  induction a generalizing start with
  | nil => rfl
  | cons r rs ih =>
      rw [cons_append, recordBlocks, recordBlocks, ih, totalRecordBlocks_cons,
        append_assoc, add_assoc]

theorem recordBlocks_gap (start cursor block : ℕ) :
    recordBlocks blockSize start (gapRecord cursor block) = [] := by
  unfold gapRecord
  split <;> simp [recordBlocks]

theorem blocks_fragmentRecord (fragment : Fragment) :
    (fragmentRecord inputBytes blockSize fragment).blocks = fragment.blockCount := by
  unfold fragmentRecord
  split <;> rfl

/-- The record of a fragment has the fragment's blocks. -/
theorem recordBlocks_fragmentRecord {fragment : Fragment} (hmod : blockSize % 4 = 0) :
    recordBlocks blockSize fragment.startBlock [fragmentRecord inputBytes blockSize fragment]
      = fragment.blockList inputBytes blockSize := by
  have hdata : (fragmentRecord inputBytes blockSize fragment).kind = .raw ∨
      (fragmentRecord inputBytes blockSize fragment).kind = .fill := by
    unfold fragmentRecord
    split
    · exact Or.inl rfl
    · exact Or.inr rfl
  rw [recordBlocks, if_pos hdata, recordBlocks, append_nil, blocks_fragmentRecord]
  refine map_congr_left fun k hmem => ?_
  have hle : k * blockSize + blockSize ≤ fragment.blockCount * blockSize := by
    have := Nat.mul_le_mul_right blockSize (Nat.succ_le_of_lt (mem_range.mp hmem))
    rwa [Nat.succ_mul] at this
  unfold fragmentRecord Fragment.blockBytes ChunkRecord.expand
  by_cases hraw : fragment.kind = .raw
  · simp only [hraw, if_true]
    rw [slice_slice _ hle]
  · simp only [hraw, if_false]
    have hdvd : (fillPattern fragment.fillValue).length ∣ k * blockSize := by
      rw [fillPattern, length_leBytes]
      exact Dvd.dvd.mul_left (Nat.dvd_of_mod_eq_zero hmod) k
    rw [slice_cyclic_aligned _ hle hdvd]

/-- The records of a part with ordered fragments have exactly the fragments' blocks, and cover
the whole partition. -/
theorem recordBlocks_partRecords (inputBytes : Bytes) (hmod : blockSize % 4 = 0)
    (hord : Ordered totalBlocks cursor fragments) :
    recordBlocks blockSize cursor (partRecords inputBytes blockSize totalBlocks cursor fragments)
        = blocksOf inputBytes blockSize fragments ∧
      cursor + totalRecordBlocks (partRecords inputBytes blockSize totalBlocks cursor fragments)
        = totalBlocks := by
  induction fragments generalizing cursor with
  | nil =>
      have hle : cursor ≤ totalBlocks := hord
      rw [partRecords, recordBlocks_gap, totalRecordBlocks_gap hle]
      exact ⟨rfl, by omega⟩
  | cons f fs ih =>
      obtain ⟨hle, hrest⟩ := hord
      obtain ⟨hblks, htot⟩ := ih hrest
      have hcons : ∀ (r : ChunkRecord) (rs : List ChunkRecord), r :: rs = [r] ++ rs := fun _ _ => rfl
      have hstart : cursor + totalRecordBlocks (gapRecord cursor f.startBlock) = f.startBlock := by
        rw [totalRecordBlocks_gap hle]
        omega
      have hend : f.startBlock + totalRecordBlocks [fragmentRecord inputBytes blockSize f]
          = f.endBlock := by
        rw [totalRecordBlocks_cons, totalRecordBlocks_nil, blocks_fragmentRecord]
        rfl
      constructor
      · rw [partRecords, recordBlocks_append, recordBlocks_gap, hstart, hcons,
          recordBlocks_append, recordBlocks_fragmentRecord hmod, hend, hblks]
        rfl
      · rw [partRecords, totalRecordBlocks_append, hcons, totalRecordBlocks_append,
          ← add_assoc, hstart, ← add_assoc, hend, htot]

theorem writable_fragmentRecord {fragment : Fragment} (hv : fragment.Valid)
    (hfits : FragmentFits inputBytes blockSize fragment) (hlt : fragment.blockCount < 2 ^ 32) :
    Writable blockSize (fragmentRecord inputBytes blockSize fragment) := by
  refine ⟨?_, ?_, by rwa [blocks_fragmentRecord], hfits.size_lt⟩
  · unfold fragmentRecord
    split
    next hraw => exact ⟨hv.count_pos, length_slice (hfits.inside hraw)⟩
    next => exact ⟨hv.count_pos, by rw [fillPattern, length_leBytes]⟩
  · unfold fragmentRecord
    split <;> simp

/-- The records of a part with ordered fragments can be written. -/
theorem writable_partRecords (htot : totalBlocks < 2 ^ 32)
    (hord : Ordered totalBlocks cursor fragments) (hvs : ∀ f ∈ fragments, f.Valid)
    (hfits : ∀ f ∈ fragments, FragmentFits inputBytes blockSize f) :
    ∀ r ∈ partRecords inputBytes blockSize totalBlocks cursor fragments, Writable blockSize r := by
  have hgap : ∀ {cursor block : ℕ}, block ≤ totalBlocks →
      ∀ r ∈ gapRecord cursor block, Writable blockSize r := by
    intro cursor block hle r hm
    unfold gapRecord at hm
    split at hm
    · obtain rfl := mem_singleton.mp hm
      refine ⟨⟨?_, rfl⟩, by simp, ?_, by simp [kChunkHeaderSize]⟩
      · simp only
        omega
      · simp only
        omega
    · simp at hm
  induction fragments generalizing cursor with
  | nil => exact hgap le_rfl
  | cons f fs ih =>
      have hend : f.endBlock ≤ totalBlocks := hord.2.le
      have hstart : f.startBlock + f.blockCount ≤ totalBlocks := hend
      intro r hm
      rw [partRecords, mem_append, mem_cons] at hm
      rcases hm with hm | rfl | hm
      · exact hgap (by omega) r hm
      · exact writable_fragmentRecord (hvs f (by simp)) (hfits f (by simp)) (by omega)
      · exact ih hord.2 (fun g hg => hvs g (by simp [hg])) (fun g hg => hfits g (by simp [hg])) r hm

/-! ### The artifact's image -/

/-- What an artifact stands for: the blocks it backs and its expanded bytes. -/
structure ExpandedImage where
  blockSize : ℕ
  totalBlocks : ℕ
  backed : ℕ → Prop
  bytes : Bytes

/-- The image of an artifact read from `bytes`: a raw artifact backs every block, a sparse one
those of its raw and filled chunks. -/
inductive Describes (bytes : Bytes) : FlashArtifact → ExpandedImage → Prop
  | raw {artifact : FlashArtifact} (hkind : artifact.metadata.kind = .raw) :
      Describes bytes artifact
        ⟨kRawResparseBlockSize, bytes.length / kRawResparseBlockSize,
          fun block => block < bytes.length / kRawResparseBlockSize, bytes⟩
  | sparse {artifact : FlashArtifact} {records : List ChunkRecord}
      (hkind : artifact.metadata.kind = .androidSparse) (g : SparseGrammar bytes records) :
      Describes bytes artifact
        ⟨(parseHeader bytes).blockSize, (parseHeader bytes).totalBlocks, Backs records,
          expandRecords (parseHeader bytes).blockSize records⟩

/-- The numbered blocks of an image, in order. -/
structure ExpandedImage.Lists (image : ExpandedImage) (blocks : List (ℕ × Bytes)) : Prop where
  size_ne_zero : image.blockSize ≠ 0
  size_mod_four : image.blockSize % 4 = 0
  size_lt : image.blockSize < 2 ^ 32
  total_lt : image.totalBlocks < 2 ^ 32
  increasing : Increasing blocks
  inside : ∀ p ∈ blocks, p.1 < image.totalBlocks
  data : ∀ p ∈ blocks, p.2 = slice image.bytes (p.1 * image.blockSize) image.blockSize
  backed_iff : ∀ block, image.backed block ↔ ∃ d, (block, d) ∈ blocks

theorem ExpandedImage.Lists.block_end_le {image : ExpandedImage} (hlists : image.Lists blocks)
    (hlt : block < image.totalBlocks) : block * image.blockSize + image.blockSize ≤ uint64Max := by
  have htot := hlists.total_lt
  calc block * image.blockSize + image.blockSize = (block + 1) * image.blockSize := by
        rw [Nat.succ_mul]
    _ ≤ (2 ^ 32 - 1) * (2 ^ 32 - 1) :=
        Nat.mul_le_mul (by omega) (Nat.le_sub_one_of_lt hlists.size_lt)
    _ ≤ uint64Max := by decide

theorem artifactFragments_raw (h : source.Holds inputBytes)
    (hok : artifactFragments (FlashArtifact.ofRaw source) = .ok initial) :
    ∃ image, Describes inputBytes (FlashArtifact.ofRaw source) image ∧
      initial.blockSize = image.blockSize ∧ initial.totalBlocks = image.totalBlocks ∧
      image.Lists (blocksOf inputBytes image.blockSize initial.fragments) ∧
      ∀ f ∈ initial.fragments, f.Valid := by
  have hexpanded : (FlashArtifact.ofRaw source).metadata.expandedSize = inputBytes.length :=
    h.size_eq
  rw [artifactFragments, if_pos (by rfl), hexpanded] at hok
  simp only [bind_eq_ok, failIf_eq_ok, exists_const, Except.ok.injEq] at hok
  obtain ⟨-, hmax, fragments, hscan, rfl⟩ := hok
  obtain ⟨hblks, hvld⟩ := scanRawBlocks_blocks h (by decide)
    (by rw [zero_add]; exact Nat.div_mul_le_self _ _) (by simp) hscan
  simp only [blocksOf_nil, nil_append, zero_add] at hblks
  refine ⟨_, .raw rfl, rfl, rfl, ?_, hvld⟩
  rw [hblks]
  have hmem : ∀ {p : ℕ × Bytes}, p ∈ (range (inputBytes.length / kRawResparseBlockSize)).map
        (fun k => (k, slice inputBytes (k * kRawResparseBlockSize) kRawResparseBlockSize)) ↔
      p.1 < inputBytes.length / kRawResparseBlockSize ∧
        p.2 = slice inputBytes (p.1 * kRawResparseBlockSize) kRawResparseBlockSize := by
    rintro ⟨i, d⟩
    simp only [mem_map, mem_range, Prod.mk.injEq]
    constructor
    · rintro ⟨k, hk, rfl, rfl⟩
      exact ⟨hk, rfl⟩
    · rintro ⟨hi, rfl⟩
      exact ⟨i, hi, rfl, rfl⟩
  constructor
  case size_ne_zero => exact (by decide : kRawResparseBlockSize ≠ 0)
  case size_mod_four => exact (by decide : kRawResparseBlockSize % 4 = 0)
  case size_lt => exact (by decide : kRawResparseBlockSize < 2 ^ 32)
  case total_lt =>
    unfold uint32Max at hmax
    simp only
    omega
  case increasing => simpa using increasing_range_map 0 _ _
  case inside => exact fun p hp => (hmem.mp hp).1
  case data => exact fun p hp => (hmem.mp hp).2
  case backed_iff =>
    intro block
    constructor
    · exact fun hlt => ⟨slice inputBytes (block * kRawResparseBlockSize) kRawResparseBlockSize,
        hmem.mpr ⟨hlt, rfl⟩⟩
    · rintro ⟨d, hd⟩
      exact (hmem.mp hd).1

theorem artifactFragments_sparse (h : source.Holds inputBytes) {parsed : SparseImage}
    (hopen : openSparseImage source = .ok parsed)
    (hok : artifactFragments (FlashArtifact.ofSparse source parsed) = .ok initial) :
    ∃ image, Describes inputBytes (FlashArtifact.ofSparse source parsed) image ∧
      initial.blockSize = image.blockSize ∧ initial.totalBlocks = image.totalBlocks ∧
      image.Lists (blocksOf inputBytes image.blockSize initial.fragments) ∧
      ∀ f ∈ initial.fragments, f.Valid := by
  obtain ⟨records, g, rfl⟩ := (openSparseImage_eq_ok_iff h).mp hopen
  rw [artifactFragments, FlashArtifact.ofSparse, if_neg (by exact nofun)] at hok
  simp only [bind_eq_ok, Except.ok.injEq] at hok
  obtain ⟨fragments, hfold, rfl⟩ := hok
  have hlay := chunksBetween_length_iff.mpr g.chunks
  rw [imageOf, ← zero_mul (parseHeader inputBytes).blockSize] at hfold
  obtain ⟨hblks, hvld⟩ :=
    foldlM_importChunk_blocks 0 g.headerBounds g.block_mod_four hlay (by simp) hfold
  rw [blocksOf_nil, nil_append] at hblks
  refine ⟨_, .sparse rfl g, rfl, rfl, ?_, hvld⟩
  have hb := g.headerBounds
  constructor
  case size_ne_zero => exact g.block_ne_zero
  case size_mod_four => exact g.block_mod_four
  case size_lt => exact hb.block_lt
  case total_lt => exact hb.total_lt
  all_goals rw [hblks]
  case increasing => exact recordBlocks_increasing 0 records
  case inside =>
    intro p hp
    have := (recordBlocks_bounds hp).2
    rwa [g.blocks, zero_add] at this
  case data =>
    intro p hp
    exact recordBlocks_expand hlay.wellFormed hp
  case backed_iff => exact fun block => backsFrom_iff

theorem artifactFragments_lists (h : source.Holds inputBytes) {artifact : FlashArtifact}
    (hinsp : FlashArtifact.inspect source = .ok artifact)
    (hok : artifactFragments artifact = .ok initial) :
    ∃ image, Describes inputBytes artifact image ∧
      initial.blockSize = image.blockSize ∧ initial.totalBlocks = image.totalBlocks ∧
      image.Lists (blocksOf inputBytes image.blockSize initial.fragments) ∧
      ∀ f ∈ initial.fragments, f.Valid := by
  rcases inspect_cases hinsp with rfl | ⟨parsed, hopen, rfl⟩
  · exact artifactFragments_raw h hok
  · exact artifactFragments_sparse h hopen hok

/-! ### The parts of a plan -/

/-- A part carries some blocks of the image: it is a sparse file whose backed blocks have the
image's bytes, and unless it has too many chunks the reader accepts it and reads them so. -/
structure PartCarries (image : ExpandedImage) (part : SparseFlashPart)
    (records : List ChunkRecord) : Prop where
  holds : part.source.Holds (encodeFile image.blockSize image.totalBlocks records)
  accepted : records.length ≤ kMaxSparseChunks →
    openSparseImage part.source = .ok (imageOf part.source
      (writtenHeader image.blockSize image.totalBlocks records.length) records)
  expands : ∀ block, Backs records block →
    slice (expandRecords image.blockSize records) (block * image.blockSize) image.blockSize
      = slice image.bytes (block * image.blockSize) image.blockSize
  reads : records.length ≤ kMaxSparseChunks → ∀ block, Backs records block →
    (imageOf part.source (writtenHeader image.blockSize image.totalBlocks records.length)
        records).readAt (block * image.blockSize) image.blockSize
      = .ok (slice image.bytes (block * image.blockSize) image.blockSize)

/-- Fragments whose blocks are some of the image's, in order, lie in order in the image. -/
theorem ExpandedImage.Lists.ordered {image : ExpandedImage} (hlists : image.Lists blocks)
    (hvs : ∀ f ∈ fragments, f.Valid)
    (hinc : Increasing (blocksOf inputBytes image.blockSize fragments))
    (hsub : blocksOf inputBytes image.blockSize fragments ⊆ blocks) :
    Ordered image.totalBlocks 0 fragments :=
  ordered_of_increasing hvs hinc (fun p hp => ⟨Nat.zero_le _, hlists.inside p (hsub hp)⟩)
    (Nat.zero_le _)

/-- A part built from such fragments carries their blocks. -/
theorem BuiltFrom.carries {input : ImageSource} (h : input.Holds inputBytes)
    {image : ExpandedImage} (hlists : image.Lists blocks) {part : SparseFlashPart}
    (hblt : BuiltFrom input image.blockSize image.totalBlocks part fragments)
    (hvs : ∀ f ∈ fragments, f.Valid) (hord : Ordered image.totalBlocks 0 fragments)
    (hsub : blocksOf inputBytes image.blockSize fragments ⊆ blocks) :
    PartCarries image part
      (partRecords inputBytes image.blockSize image.totalBlocks 0 fragments) := by
  simp only [BuiltFrom, buildPart, bind_eq_ok, Except.ok.injEq] at hblt
  obtain ⟨written, hcreate, rfl⟩ := hblt
  obtain ⟨hpart, hfits⟩ := create_holds h hcreate
  obtain ⟨hrecs, htot⟩ := recordBlocks_partRecords inputBytes hlists.size_mod_four hord
  rw [zero_add] at htot
  have hwr := writable_partRecords hlists.total_lt hord hvs hfits
  have hexpd : ∀ block,
      Backs (partRecords inputBytes image.blockSize image.totalBlocks 0 fragments) block →
      block < image.totalBlocks ∧
      slice (expandRecords image.blockSize
          (partRecords inputBytes image.blockSize image.totalBlocks 0 fragments))
        (block * image.blockSize) image.blockSize
        = slice image.bytes (block * image.blockSize) image.blockSize := by
    intro block hback
    obtain ⟨d, hmem⟩ := backsFrom_iff.mp hback
    have hd := recordBlocks_expand (fun r hr => (hwr r hr).wellFormed) hmem
    rw [hrecs] at hmem
    rw [Nat.sub_zero] at hd
    rw [← hd]
    exact ⟨hlists.inside _ (hsub hmem), hlists.data _ (hsub hmem)⟩
  refine ⟨hpart.holds, fun hcnt => ?_, fun block hback => (hexpd block hback).2,
    fun hcnt block hback => ?_⟩
  · exact openSparseImage_encodeFile hpart.holds hlists.size_ne_zero hlists.size_mod_four
      hlists.size_lt hlists.total_lt hcnt hwr htot
  · obtain ⟨g, hparse⟩ := grammar_encodeFile hlists.size_ne_zero hlists.size_mod_four
      hlists.size_lt hlists.total_lt hcnt hwr htot
    obtain ⟨hlt, hslice⟩ := hexpd block hback
    have hread := readAt_imageOf hpart.holds g (block * image.blockSize) image.blockSize
    rw [hparse] at hread
    rw [← hslice]
    exact hread (Nat.mul_le_mul_right _ hlt.le) (hlists.block_end_le hlt)

theorem blocksOf_flatten (lists : List (List Fragment)) :
    blocksOf inputBytes blockSize lists.flatten
      = lists.flatMap (blocksOf inputBytes blockSize) := by
  induction lists with
  | nil => rfl
  | cons fs lists ih => rw [flatten_cons, blocksOf_append, ih, flatMap_cons]

theorem writeSegments_parts (inputBytes : Bytes) {input : ImageSource}
    {payloadBudget effectiveLimit : ℕ} {written : WrittenParts} (hvs : ∀ f ∈ fragments, f.Valid)
    (hok : writeSegments input payloadBudget blockSize totalBlocks effectiveLimit fragments
      = .ok written) :
    ∃ lists, List.Forall₂ (BuiltFrom input blockSize totalBlocks) written.parts lists ∧
      (∀ fs ∈ lists, ∀ f ∈ fs, f.Valid) ∧
      lists.flatMap (blocksOf inputBytes blockSize) = blocksOf inputBytes blockSize fragments := by
  unfold writeSegments at hok
  split at hok
  next hnil =>
    obtain ⟨part, hpart, hwrit⟩ := writePart_parts hok
    rw [hnil, hwrit]
    exact ⟨[[]], .cons hpart .nil, by simp, by simp⟩
  next =>
    obtain ⟨parts, lists, hparts, hblt, hvld, hblks⟩ :=
      serializeParts_parts inputBytes hvs le_rfl hok
    rw [hparts, nil_append, ← hblks, blocksOf_flatten]
    exact ⟨lists, hblt, hvld, rfl⟩

/-- **A resparse preserves the image.**  Each part of a resparsed plan is a sparse file of the
artifact's block size and block count, accepted by the reader; the blocks covered by the parts'
raw and filled chunks increase from part to part, are together those the artifact backs, and
expand to the artifact's bytes. -/
theorem resparse_preserves_image {source : ImageSource} {bytes : Bytes} (h : source.Holds bytes)
    {artifact : FlashArtifact} (hinspect : FlashArtifact.inspect source = .ok artifact)
    {targetMaxDownloadSize hostResparseLimit : ℕ} {plan : SparseFlashPlan}
    (hplan : SparseFlashPlan.create artifact targetMaxDownloadSize hostResparseLimit = .ok plan)
    (hreparsed : plan.reparsed = true) :
    ∃ image, Describes bytes artifact image ∧
      ∃ recordLists, List.Forall₂ (PartCarries image) plan.parts recordLists ∧
        recordLists.Pairwise (fun a b => ∀ x y, Backs a x → Backs b y → x < y) ∧
        ∀ block, image.backed block ↔ ∃ records ∈ recordLists, Backs records block := by
  have hplan := create_reparsed hplan hreparsed
  simp only [resparse, bind_eq_ok, failIf_eq_ok, exists_const, Except.ok.injEq] at hplan
  obtain ⟨initial, hinitial, segmentation, hsegment, written, hwrite, -, rfl⟩ := hplan
  obtain ⟨image, hdescribes, hsize, htotal, hlists, hvalid⟩ :=
    artifactFragments_lists h hinspect hinitial
  rw [hsize] at hsegment hwrite
  rw [htotal, inspect_transferSource hinspect] at hwrite
  obtain ⟨hsegmented, hvalid⟩ := segmentLikeAospFirstPass_blocks bytes hvalid hsegment
  obtain ⟨lists, hbuilt, hvalids, hblocks⟩ := writeSegments_parts bytes hvalid hwrite
  rw [← hsegmented, ← hblocks] at hlists
  obtain ⟨hincs, hcross⟩ := List.pairwise_flatMap.mp hlists.increasing
  have hsub : ∀ fs ∈ lists, blocksOf bytes image.blockSize fs ⊆
      lists.flatMap (blocksOf bytes image.blockSize) :=
    fun fs hm p hp => List.mem_flatMap.mpr ⟨fs, hm, hp⟩
  have hord : ∀ fs ∈ lists, Ordered image.totalBlocks 0 fs := fun fs hm =>
    hlists.ordered (hvalids fs hm) (hincs fs hm) (hsub fs hm)
  have hbacks : ∀ fs ∈ lists, ∀ block,
      Backs (partRecords bytes image.blockSize image.totalBlocks 0 fs) block ↔
        ∃ d, (block, d) ∈ blocksOf bytes image.blockSize fs := fun fs hm block => by
    rw [← (recordBlocks_partRecords bytes hlists.size_mod_four (hord fs hm)).1]
    exact backsFrom_iff
  refine ⟨image, hdescribes,
    lists.map (partRecords bytes image.blockSize image.totalBlocks 0), ?_, ?_, ?_⟩
  · rw [List.forall₂_map_right_iff]
    refine List.forall₂_iff_zip.mpr ⟨hbuilt.length_eq, fun {part fs} hmem => ?_⟩
    have hm := (List.of_mem_zip hmem).2
    exact ((List.forall₂_iff_zip.mp hbuilt).2 hmem).carries h hlists (hvalids fs hm)
      (hord fs hm) (hsub fs hm)
  · rw [List.pairwise_map]
    refine hcross.imp_of_mem fun {a b} ha hb hlt x y hx hy => ?_
    obtain ⟨dx, hx⟩ := (hbacks a ha x).mp hx
    obtain ⟨dy, hy⟩ := (hbacks b hb y).mp hy
    exact hlt _ hx _ hy
  · intro block
    rw [hlists.backed_iff]
    simp only [List.mem_flatMap, List.mem_map, exists_exists_and_eq_and]
    constructor
    · rintro ⟨d, fs, hm, hd⟩
      exact ⟨fs, hm, (hbacks fs hm block).mpr ⟨d, hd⟩⟩
    · rintro ⟨fs, hm, hback⟩
      obtain ⟨d, hd⟩ := (hbacks fs hm block).mp hback
      exact ⟨d, fs, hm, hd⟩

section

/-- A sparse image of ten raw blocks of four bytes, and the same source as an artifact. -/
def tenBlockFile : Bytes :=
  encodeFile 4 10 [⟨.raw, 10, (List.range 40).map UInt8.ofNat⟩]

theorem tenBlockFile_size_le : tenBlockFile.length ≤ uint64Max := by decide

def tenBlockSource : ImageSource := ImageSource.ofBytes tenBlockFile tenBlockFile_size_le

/-- A target that takes 72 bytes at a time gets the ten blocks in ten parts and an empty one. -/
theorem tenBlockFile_preserved :
    ∃ artifact plan, FlashArtifact.inspect tenBlockSource = .ok artifact ∧
      SparseFlashPlan.create artifact 72 kDefaultResparseLimitBytes = .ok plan ∧
      plan.parts.length = 11 ∧
      ∃ image, Describes tenBlockFile artifact image ∧
        ∃ recordLists, List.Forall₂ (PartCarries image) plan.parts recordLists ∧
          recordLists.Pairwise (fun a b => ∀ x y, Backs a x → Backs b y → x < y) ∧
          ∀ block, image.backed block ↔ ∃ records ∈ recordLists, Backs records block := by
  have hrun : ((FlashArtifact.inspect tenBlockSource).toOption.bind fun artifact =>
      (SparseFlashPlan.create artifact 72 kDefaultResparseLimitBytes).toOption.map fun plan =>
        (plan.reparsed, plan.parts.length)) = some (true, 11) := by decide +kernel
  simp only [Option.bind_eq_some_iff, Option.map_eq_some_iff, Prod.mk.injEq] at hrun
  obtain ⟨artifact, hinspect, plan, hplan, hreparsed, hcount⟩ := hrun
  have hinspect := toOption_eq_some_iff.mp hinspect
  have hplan := toOption_eq_some_iff.mp hplan
  exact ⟨artifact, plan, hinspect, hplan, hcount, resparse_preserves_image
    (ImageSource.holds_ofBytes tenBlockFile tenBlockFile_size_le) hinspect hplan hreparsed⟩

end

end KairosBoot
