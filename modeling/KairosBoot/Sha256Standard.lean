import Mathlib.Data.List.Induction
import Mathlib.Data.Nat.NthRoot.Defs
import KairosBoot.Sha256

/-! # The digest of the standard

SHA-256 as FIPS 180-4 defines it, for messages of whole bytes: the constants are the first 32 bits
of the fractional parts of roots of primes (4.2.2, 5.3.3), the padded message is parsed into blocks
(5.1.1, 5.2.1), and every block changes the hash value (6.2.2).  The accumulator has the hash value
of the whole blocks of what it was given and the bytes after them (`Absorbed`), however these were
split, and its last one or two blocks are the padding. -/

namespace ByteLib

variable {α : Type}

/-- The blocks of `n` elements of a list whose length is a multiple of `n`. -/
def blocksOf (n : ℕ) (l : List α) : List (List α) :=
  (List.range (l.length / n)).map fun i => slice l (n * i) n

theorem blocksOf_flatten {n : ℕ} (hn : 0 < n) {blocks : List (List α)}
    (h : ∀ block ∈ blocks, block.length = n) : blocksOf n blocks.flatten = blocks := by
  induction blocks with
  | nil => simp [blocksOf]
  | cons block blocks ih =>
      obtain ⟨hblk, hblks⟩ := List.forall_mem_cons.mp h
      have hsucc : (block ++ blocks.flatten).length / n = blocks.flatten.length / n + 1 := by
        rw [List.length_append, hblk, Nat.add_div_left _ hn]
      rw [List.flatten_cons, blocksOf, hsucc, List.range_succ_eq_map, List.map_cons, List.map_map,
        mul_zero, slice_append_left (by omega), ← hblk, slice_all, hblk]
      refine congrArg (block :: ·) (Eq.trans ?_ (ih hblks))
      refine List.map_congr_left fun i _ => ?_
      show slice (block ++ blocks.flatten) (n * (i + 1)) n = _
      rw [Nat.mul_succ, add_comm, slice_append_right' hblk]

theorem length_flatten_of_blocks {n : ℕ} {blocks : List (List α)}
    (h : ∀ block ∈ blocks, block.length = n) : blocks.flatten.length = n * blocks.length := by
  rw [List.length_flatten, List.map_eq_replicate_iff.mpr h, List.sum_replicate_nat, mul_comm]

end ByteLib

namespace KairosBoot

open ByteLib List

/-! ### The standard -/

namespace Fips180

/-- The first 64 primes: their only divisor below them is 1. -/
def primes : List ℕ :=
  (List.range 312).filter fun p => ((List.range p).filter fun d => p % d = 0) = [1]

/-- The first 32 bits of the fractional part of the `k`-th root of `p`. -/
def rootBits (k p : ℕ) : BitVec 32 := BitVec.ofNat 32 (Nat.nthRoot k (p * 2 ^ (32 * k)))

def roundConstants : List (BitVec 32) := primes.map (rootBits 3)

def initialHash : HashWords :=
  let root := fun t => rootBits 2 (primes.getD t 0)
  ⟨root 0, root 1, root 2, root 3, root 4, root 5, root 6, root 7⟩

def ch (x y z : BitVec 32) : BitVec 32 := (x &&& y) ^^^ (~~~x &&& z)

def maj (x y z : BitVec 32) : BitVec 32 := (x &&& y) ^^^ (x &&& z) ^^^ (y &&& z)

def bigSigma0 (x : BitVec 32) : BitVec 32 :=
  x.rotateRight 2 ^^^ x.rotateRight 13 ^^^ x.rotateRight 22

def bigSigma1 (x : BitVec 32) : BitVec 32 :=
  x.rotateRight 6 ^^^ x.rotateRight 11 ^^^ x.rotateRight 25

def smallSigma0 (x : BitVec 32) : BitVec 32 := x.rotateRight 7 ^^^ x.rotateRight 18 ^^^ x >>> 3

def smallSigma1 (x : BitVec 32) : BitVec 32 := x.rotateRight 17 ^^^ x.rotateRight 19 ^^^ x >>> 10

/-- The word `t` of the message schedule of a block. -/
def scheduleWord (block : Bytes) (t : ℕ) : BitVec 32 :=
  if t < 16 then loadBigEndianU32 (slice block (4 * t) 4)
  else smallSigma1 (scheduleWord block (t - 2)) + scheduleWord block (t - 7) +
    smallSigma0 (scheduleWord block (t - 15)) + scheduleWord block (t - 16)

/-- The working variables after the round with the constant `k` and the schedule word `m`. -/
def round (w : HashWords) : BitVec 32 × BitVec 32 → HashWords := fun (k, m) =>
  let t1 := w.h + bigSigma1 w.e + ch w.e w.f w.g + k + m
  let t2 := bigSigma0 w.a + maj w.a w.b w.c
  ⟨t1 + t2, w.a, w.b, w.c, w.d + t1, w.e, w.f, w.g⟩

/-- The hash value after a block. -/
def compress (hash : HashWords) (block : Bytes) : HashWords :=
  let w := (roundConstants.zip ((List.range 64).map (scheduleWord block))).foldl round hash
  ⟨w.a + hash.a, w.b + hash.b, w.c + hash.c, w.d + hash.d,
   w.e + hash.e, w.f + hash.f, w.g + hash.g, w.h + hash.h⟩

/-- A one bit, as few zeros as complete 56 bytes of a block, and the length in bits. -/
def padding (length : ℕ) : Bytes :=
  0x80 :: List.replicate ((119 - length % 64) % 64) 0 ++ bigEndianBytes 8 (8 * length)

/-- SHA-256 of a message of bytes. -/
def sha256 (message : Bytes) : Bytes :=
  ((blocksOf 64 (message ++ padding message.length)).foldl compress initialHash).toBytes

end Fips180

/-! ### The compression function -/

theorem kRoundConstants_eq : kRoundConstants = Fips180.roundConstants := by
  decide +kernel

theorem initialWords_eq : initialWords = Fips180.initialHash := by
  decide +kernel

theorem nextScheduleWord_eq (block : Bytes) {k : ℕ} (hk : 16 ≤ k) :
    nextScheduleWord ((range k).map (Fips180.scheduleWord block)).reverse
      = Fips180.scheduleWord block k := by
  have hback : ∀ j, 1 ≤ j → j ≤ 16 →
      (((range k).map (Fips180.scheduleWord block)).reverse).getD (j - 1) 0
        = Fips180.scheduleWord block (k - j) := by
    intro j hpos hle
    rw [getD_eq_getElem?_getD, getElem?_reverse (by simp; omega)]
    simp only [length_map, length_range, getElem?_map]
    rw [getElem?_range (by omega)]
    show Fips180.scheduleWord block (k - 1 - (j - 1)) = _
    congr 1
    omega
  rw [nextScheduleWord]
  simp only [hback 15 (by omega) (by omega), hback 2 (by omega) (by omega),
    hback 16 (by omega) (by omega), hback 7 (by omega) (by omega)]
  rw [Fips180.scheduleWord.eq_def block k, if_neg (by omega)]
  simp only [Fips180.smallSigma0, Fips180.smallSigma1]
  ac_rfl

theorem extendSchedule_eq (block : Bytes) (n : ℕ) {k : ℕ} (hk : 16 ≤ k) :
    extendSchedule n ((range k).map (Fips180.scheduleWord block)).reverse
      = ((range (k + n)).map (Fips180.scheduleWord block)).reverse := by
  induction n generalizing k with
  | zero => rfl
  | succ n ih =>
      have hnext : Fips180.scheduleWord block k ::
          ((range k).map (Fips180.scheduleWord block)).reverse
          = ((range (k + 1)).map (Fips180.scheduleWord block)).reverse := by
        simp [range_succ]
      rw [extendSchedule, nextScheduleWord_eq block hk, hnext, ih (by omega)]
      congr 3
      omega

theorem messageSchedule_eq (block : Bytes) :
    messageSchedule block = (range 64).map (Fips180.scheduleWord block) := by
  have hwords : (range 16).map (fun index => loadBigEndianU32 (slice block (4 * index) 4))
      = (range 16).map (Fips180.scheduleWord block) := by
    refine map_congr_left fun t ht => ?_
    rw [Fips180.scheduleWord, if_pos (mem_range.mp ht)]
  rw [messageSchedule, hwords]
  exact (congrArg reverse (extendSchedule_eq block 48 (le_refl 16))).trans (reverse_reverse _)

theorem sha256Transform_eq : sha256Transform = Fips180.compress := by
  have hround : hashRound = Fips180.round := rfl
  funext state block
  simp only [sha256Transform, kRoundConstants_eq, messageSchedule_eq, hround, Fips180.compress,
    BitVec.add_comm]

/-! ### The accumulator -/

/-- The hash value of the whole blocks, and the bytes after them. -/
structure Absorbed (s : Sha256State) (bytes : Bytes) : Prop where
  length_lt : s.buffer.length < 64
  total_eq : s.totalBytes = bytes.length % 2 ^ 64
  blocks : ∃ blocks : List Bytes, (∀ block ∈ blocks, block.length = 64) ∧
    bytes = blocks.flatten ++ s.buffer ∧ s.state = blocks.foldl sha256Transform initialWords

theorem transformBlocks_eq {fuel : ℕ} {l : Bytes} (hfuel : l.length ≤ fuel)
    (state : HashWords) : ∃ blocks : List Bytes, (∀ block ∈ blocks, block.length = 64) ∧
      l = blocks.flatten ++ (transformBlocks fuel state l).2 ∧
      (transformBlocks fuel state l).2.length < 64 ∧
      (transformBlocks fuel state l).1 = blocks.foldl sha256Transform state := by
  induction fuel generalizing l state with
  | zero => exact ⟨[], by simp, rfl, by show l.length < 64; omega, rfl⟩
  | succ fuel ih =>
      rw [transformBlocks]
      split_ifs with hfull
      · have hblk : (l.take 64).length = 64 := length_take_of_le hfull
        obtain ⟨blocks, hblks, hrest, hlt, hst⟩ := ih (l := l.drop kSha256BlockSize)
          (by rw [length_drop, kSha256BlockSize]; omega)
          (sha256Transform state (l.take kSha256BlockSize))
        refine ⟨l.take 64 :: blocks, forall_mem_cons.mpr ⟨hblk, hblks⟩, ?_, hlt, hst⟩
        rw [flatten_cons, append_assoc, ← hrest]
        exact (take_append_drop 64 l).symm
      · exact ⟨[], by simp, rfl, Nat.lt_of_not_le hfull, rfl⟩

/-- Whole blocks that were hashed, and the blocks of the bytes after them. -/
theorem absorbed_transformBlocks {blocks : List Bytes} {bytes rest : Bytes}
    (hblks : ∀ block ∈ blocks, block.length = 64) (hbytes : bytes = blocks.flatten ++ rest) :
    let hashed := transformBlocks rest.length (blocks.foldl sha256Transform initialWords) rest
    Absorbed ⟨hashed.1, hashed.2, bytes.length % 2 ^ 64⟩ bytes := by
  obtain ⟨blocks', hblks', hrest, hlt, hst⟩ := transformBlocks_eq (le_refl rest.length)
    (blocks.foldl sha256Transform initialWords)
  refine ⟨hlt, rfl, blocks ++ blocks', forall_mem_append.mpr ⟨hblks, hblks'⟩, ?_, ?_⟩
  · rw [flatten_append, append_assoc, ← hrest]
    exact hbytes
  · rw [foldl_append]
    exact hst

theorem Absorbed.update {s : Sha256State} {bytes : Bytes} (h : Absorbed s bytes)
    (more : Bytes) : Absorbed (s.update more) (bytes ++ more) := by
  obtain ⟨hlt, htot, blocks, hblks, hbytes, hst⟩ := h
  have hsum : (s.totalBytes + more.length) % 2 ^ 64 = (bytes ++ more).length % 2 ^ 64 := by
    rw [htot, Nat.mod_add_mod, length_append]
  simp only [Sha256State.update, hsum, kSha256BlockSize]
  by_cases hnil : s.buffer = []
  · rw [hnil, append_nil] at hbytes
    have habs := absorbed_transformBlocks hblks (congrArg (· ++ more) hbytes)
    simpa [hnil, hst] using habs
  · have hpos := length_pos_iff.mpr hnil
    by_cases hshort : s.buffer.length + more.length < 64
    · -- the started block stays incomplete
      have hamt : min (64 - s.buffer.length) more.length = more.length := by omega
      simp only [if_neg hnil, hamt, take_length]
      rw [if_pos ⟨by simp [hnil], by simpa⟩]
      refine ⟨by simpa, rfl, blocks, hblks, ?_, hst⟩
      rw [hbytes, append_assoc]
    · have htake : (more.take (64 - s.buffer.length)).length = 64 - s.buffer.length :=
        length_take_of_le (by omega)
      have hblk : (s.buffer ++ more.take (64 - s.buffer.length)).length = 64 := by
        rw [length_append, htake]
        omega
      have hblks' := forall_mem_append.mpr ⟨hblks, forall_mem_singleton.mpr hblk⟩
      have hsplit : bytes ++ more = (blocks ++ [s.buffer ++ more.take (64 - s.buffer.length)]).flatten
          ++ more.drop (64 - s.buffer.length) := by simp [hbytes]
      have habs := absorbed_transformBlocks hblks' hsplit
      have hamt : min (64 - s.buffer.length) more.length = 64 - s.buffer.length := by omega
      simp only [if_neg hnil, hamt]
      rw [if_neg (by omega), if_neg (by simp [hnil])]
      simpa [hst] using habs

theorem absorbed_initial : Absorbed Sha256State.initial [] :=
  ⟨by decide, rfl, [], by simp, rfl, rfl⟩

theorem absorbed_updates (chunks : List Bytes) :
    Absorbed (chunks.foldl Sha256State.update Sha256State.initial) chunks.flatten := by
  induction chunks using reverseRecOn with
  | nil => exact absorbed_initial
  | append_singleton chunks chunk ih =>
      rw [foldl_append, flatten_append, flatten_singleton]
      exact ih.update chunk

/-- The last blocks are the bytes after the whole blocks with the padding. -/
theorem Absorbed.finish_eq {s : Sha256State} {bytes : Bytes} (h : Absorbed s bytes)
    (hsize : bytes.length ≤ kSha256MaxInputSize) : s.finish = Fips180.sha256 bytes := by
  obtain ⟨hlt, htot, blocks, hblks, hbytes, hst⟩ := h
  have hbits : s.totalBytes * 8 = 8 * bytes.length := by
    rw [htot, Nat.mod_eq_of_lt (lt_of_le_of_lt hsize (by decide)), mul_comm]
  have hmod : bytes.length % 64 = s.buffer.length := by
    rw [hbytes, length_append, length_flatten_of_blocks hblks, Nat.mul_add_mod,
      Nat.mod_eq_of_lt hlt]
  -- the padding completes one block, or this one and the next one
  obtain ⟨last, hlast, hpadded, hpad⟩ : ∃ last : List Bytes,
      (∀ block ∈ last, block.length = 64) ∧
      last.flatten = s.buffer ++ Fips180.padding bytes.length ∧
      s.pad = last.foldl sha256Transform s.state := by
    simp only [Sha256State.pad, hbits, Fips180.padding, hmod, kSha256BlockSize]
    rw [length_append, length_singleton]
    split_ifs with hlong
    · refine ⟨[_, _], ?_, ?_, rfl⟩
      · simp
        omega
      · have hzeros : (119 - s.buffer.length) % 64 = 64 - (s.buffer.length + 1) + 56 := by omega
        rw [hzeros, ← replicate_append_replicate]
        simp
    · refine ⟨[_], ?_, ?_, rfl⟩
      · simp
        omega
      · have hzeros : (119 - s.buffer.length) % 64 = 56 - (s.buffer.length + 1) := by omega
        rw [hzeros]
        simp
  have hall : bytes ++ Fips180.padding bytes.length = (blocks ++ last).flatten := by
    rw [flatten_append, hpadded, ← append_assoc, ← hbytes]
  rw [Sha256State.finish, hpad, hst, Fips180.sha256, hall, blocksOf_flatten (by decide)
    (forall_mem_append.mpr ⟨hblks, hlast⟩), foldl_append, sha256Transform_eq,
    initialWords_eq]

/-! ### Messages in parts, and sources -/

theorem sha256_is_standard {bytes : Bytes} (hsize : bytes.length ≤ kSha256MaxInputSize) :
    (∀ chunks : List Bytes, chunks.flatten = bytes →
      (chunks.foldl Sha256State.update Sha256State.initial).finish = Fips180.sha256 bytes) ∧
    ∀ source : ImageSource, source.Holds bytes →
      computeSha256 source = .ok (Fips180.sha256 bytes) := by
  have hparts : ∀ chunks : List Bytes, chunks.flatten = bytes →
      (chunks.foldl Sha256State.update Sha256State.initial).finish = Fips180.sha256 bytes := by
    rintro chunks rfl
    exact (absorbed_updates chunks).finish_eq hsize
  refine ⟨hparts, fun source hsource => ?_⟩
  obtain ⟨chunks, hchunks, hcompute⟩ := computeSha256_eq hsource hsize
  rw [hcompute, hparts chunks hchunks]

/-- The example of one block that comes with the standard: the message "abc". -/
theorem sha256_is_standard_abc : Fips180.sha256 [0x61, 0x62, 0x63] =
    [0xba, 0x78, 0x16, 0xbf, 0x8f, 0x01, 0xcf, 0xea, 0x41, 0x41, 0x40, 0xde, 0x5d, 0xae, 0x22, 0x23,
     0xb0, 0x03, 0x61, 0xa3, 0x96, 0x17, 0x7a, 0x9c, 0xb4, 0x10, 0xff, 0x61, 0xf2, 0x00, 0x15, 0xad]
    := by
  have habc := (@sha256_is_standard [0x61, 0x62, 0x63] (by decide)).1 [[0x61], [0x62, 0x63]] rfl
  rw [← habc]
  decide +kernel

end KairosBoot
