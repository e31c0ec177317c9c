import KairosBoot.Guards
import KairosBoot.ImageSource
import KairosBoot.LinearOperator

/-! # CRC-32

The checksum routines of `sparse_image.cpp`.  `crc32` is the standard checksum as a shift
register fed one message bit at a time; the code runs it three ways:

* `updateCrc32` consumes whole bytes and can be resumed, so that windows of a source can be
  folded in one after the other (`updateCrc32_append`, `updateCrcFromSource_eq`);
* `updateCrcRepeated` advances over a repeated four-byte pattern without walking it: appending
  the pattern is an affine map of the checksum, which is iterated by squaring
  (`updateCrcRepeated_eq`).

All of them compute `crc32` of the bytes they stand for (`updateCrc32_crc32`). -/

namespace KairosBoot

open ByteLib Gf2 Guards

/-! ### The checksum as a shift register -/

/-- The reflected CRC-32 polynomial. -/
def crcPolynomial : BitVec 32 := 0xEDB88320#32

/-- Feed one message bit into the register. -/
def registerBit (register : BitVec 32) (bit : Bool) : BitVec 32 :=
  if (register.getLsbD 0 ^^ bit) then (register >>> 1) ^^^ crcPolynomial else register >>> 1

/-- The low `k` bits of a word, lowest first. -/
def lowBits (x : BitVec 32) (k : ℕ) : List Bool := (List.range k).map x.getLsbD

def byteWord (byte : UInt8) : BitVec 32 := byte.toBitVec.setWidth 32

def crc32 (message : Bytes) : BitVec 32 :=
  ~~~ ((message.flatMap fun byte => lowBits (byteWord byte) 8).foldl registerBit (~~~ 0#32))

/-! ### Bytewise update -/

/-- One round of the inner loop of `update_crc32`. -/
def crcBit (crc : BitVec 32) : BitVec 32 :=
  let mask := -(crc &&& 1#32)
  (crc >>> 1) ^^^ (crcPolynomial &&& mask)

/-- One round of the outer loop of `update_crc32`. -/
def crcByte (crc : BitVec 32) (byte : UInt8) : BitVec 32 := crcBit^[8] (crc ^^^ byteWord byte)

/-- `update_crc32`. -/
def updateCrc32 (crc : BitVec 32) (bytes : Bytes) : BitVec 32 :=
  ~~~ (bytes.foldl crcByte (~~~ crc))

theorem crcBit_eq (crc : BitVec 32) :
    crcBit crc = (crc >>> 1) ^^^ (if crc.getLsbD 0 then crcPolynomial else 0#32) := by
  unfold crcBit
  by_cases h : crc.getLsbD 0
  · have hone : crc &&& 1#32 = 1#32 := by
      ext i hi
      by_cases hi0 : i = 0
      · subst hi0; simpa [← BitVec.getLsbD_eq_getElem] using h
      · simp [BitVec.getElem_one, hi0]
    have hmask : crcPolynomial &&& -1#32 = crcPolynomial := by decide
    simp only [hone, hmask, h, if_true]
  · have hzero : crc &&& 1#32 = 0#32 := by rw [and_one_eq_zero_iff]; simpa using h
    rw [if_neg h]
    simp [hzero]

theorem crcBit_linear : XorLinear crcBit := by
  intro a b
  simp only [crcBit_eq, BitVec.getLsbD_xor, BitVec.ushiftRight_xor_distrib]
  cases a.getLsbD 0 <;> cases b.getLsbD 0 <;> simp [BitVec.xor_comm, xor_left_comm, xor_cancel_left]

theorem registerBit_eq (register : BitVec 32) (x : BitVec 32) :
    registerBit register (x.getLsbD 0) = crcBit (register ^^^ x) ^^^ (x >>> 1) := by
  rw [crcBit_eq, registerBit, BitVec.getLsbD_xor, BitVec.ushiftRight_xor_distrib]
  cases (register.getLsbD 0 ^^ x.getLsbD 0) <;> simp [BitVec.xor_comm, xor_left_comm]

theorem lowBits_succ (x : BitVec 32) (k : ℕ) :
    lowBits x (k + 1) = x.getLsbD 0 :: lowBits (x >>> 1) k := by
  simp [lowBits, List.range_succ_eq_map, add_comm 1]

/-- Feeding the bits of a word one by one is adding the word and then shifting. -/
theorem foldl_registerBit {x : BitVec 32} {k : ℕ} (hx : x >>> k = 0#32) (register : BitVec 32) :
    (lowBits x k).foldl registerBit register = crcBit^[k] (register ^^^ x) := by
  induction k generalizing x register with
  | zero =>
      have : x = 0#32 := by simpa using hx
      simp [lowBits, this]
  | succ k ih =>
      have hshift : x >>> 1 >>> k = 0#32 := by
        rw [← BitVec.shiftRight_add, add_comm]; exact hx
      rw [lowBits_succ, List.foldl_cons, ih hshift, registerBit_eq, Function.iterate_succ_apply,
        BitVec.xor_assoc, BitVec.xor_self, BitVec.xor_zero]

theorem byteWord_shift (byte : UInt8) : byteWord byte >>> 8 = 0#32 := by
  ext i hi
  simp [byteWord]

theorem crc32_eq_updateCrc32 (message : Bytes) : crc32 message = updateCrc32 0#32 message := by
  unfold crc32 updateCrc32
  congr 1
  generalize ~~~ 0#32 = register
  induction message generalizing register with
  | nil => rfl
  | cons byte message ih =>
      rw [List.flatMap_cons, List.foldl_append, List.foldl_cons, ih,
        foldl_registerBit (byteWord_shift byte)]
      rfl

theorem updateCrc32_append (crc : BitVec 32) (a b : Bytes) :
    updateCrc32 crc (a ++ b) = updateCrc32 (updateCrc32 crc a) b := by
  simp [updateCrc32, List.foldl_append]

/-- The checksum of a message is resumed by `updateCrc32`. -/
theorem updateCrc32_crc32 (a b : Bytes) : updateCrc32 (crc32 a) b = crc32 (a ++ b) := by
  rw [crc32_eq_updateCrc32, crc32_eq_updateCrc32, updateCrc32_append]

example : crc32 [0x31, 0x32, 0x33, 0x34, 0x35, 0x36, 0x37, 0x38, 0x39] = 0xCBF43926#32 := by
  decide +kernel

/-! ### Repeated patterns -/

/-- `square_crc_operator`. -/
def squareCrcOperator (operation : List (BitVec 32)) : List (BitVec 32) := squareColumns operation

/-- `zero_byte_crc_operator`: one round of the register, squared three times. -/
def zeroByteCrcOperator : List (BitVec 32) :=
  let operation := (List.range 32).map fun bit =>
    let basis : BitVec 32 := 1#32 <<< bit
    (basis >>> 1) ^^^ (if basis &&& 1#32 ≠ 0#32 then crcPolynomial else 0#32)
  squareCrcOperator (squareCrcOperator (squareCrcOperator operation))

/-- `update_crc_repeated`; the loop over the 64-bit repetition count runs at most 64 times. -/
def updateCrcRepeated (prefixCrc : BitVec 32) (pattern : Bytes) (byteCount : ℕ) : BitVec 32 :=
  let powerOperator := squareCrcOperator (squareCrcOperator zeroByteCrcOperator)
  let crc := repeatAffine 64 (byteCount / 4) powerOperator (updateCrc32 0#32 pattern) prefixCrc
  if byteCount % 4 ≠ 0 then updateCrc32 crc (pattern.take (byteCount % 4)) else crc

theorem columns_zeroByte : Columns crcBit^[8] zeroByteCrcOperator := by
  have h1 : Columns crcBit ((List.range 32).map fun bit =>
      let basis : BitVec 32 := 1#32 <<< bit
      (basis >>> 1) ^^^ (if basis &&& 1#32 ≠ 0#32 then crcPolynomial else 0#32)) := by
    have h := columns_ofFn crcBit
    simp only [crcBit_eq] at h
    have hbit : ∀ v : BitVec 32, (if v &&& 1#32 ≠ 0#32 then crcPolynomial else 0#32)
        = if v.getLsbD 0 then crcPolynomial else 0#32 := by
      intro v
      simp only [ne_eq, and_one_eq_zero_iff, Bool.not_eq_false]
    simpa only [hbit] using h
  have h2 := h1.square crcBit_linear
  have h4 := h2.square (crcBit_linear.comp crcBit_linear)
  exact h4.square ((crcBit_linear.comp crcBit_linear).comp (crcBit_linear.comp crcBit_linear))

theorem columns_fourBytes :
    Columns crcBit^[32] (squareCrcOperator (squareCrcOperator zeroByteCrcOperator)) := by
  have h2 := columns_zeroByte.square (crcBit_linear.iterate 8)
  exact h2.square ((crcBit_linear.iterate 8).comp (crcBit_linear.iterate 8))

/-- A change of the register moves through a message without meeting it. -/
theorem foldl_crcByte_xor (s t : BitVec 32) (bytes : Bytes) :
    bytes.foldl crcByte (s ^^^ t) = crcBit^[8 * bytes.length] s ^^^ bytes.foldl crcByte t := by
  induction bytes generalizing s t with
  | nil => rfl
  | cons byte bytes ih =>
      have hstep : crcByte (s ^^^ t) byte = crcBit^[8] s ^^^ crcByte t byte := by
        rw [crcByte, crcByte, BitVec.xor_assoc, crcBit_linear.iterate 8]
      rw [List.foldl_cons, List.foldl_cons, hstep, ih, ← Function.iterate_add_apply]
      rfl

/-- Appending a message is an affine map of the checksum. -/
theorem updateCrc32_affine (crc : BitVec 32) (bytes : Bytes) :
    updateCrc32 crc bytes = affine crcBit^[8 * bytes.length] (updateCrc32 0#32 bytes) crc := by
  have hnot : ~~~ crc = crc ^^^ ~~~ 0#32 := by
    rw [BitVec.not_zero, BitVec.xor_allOnes]
  unfold updateCrc32 affine
  rw [hnot, foldl_crcByte_xor, BitVec.not_xor_right]

theorem iterate_affine_pattern {pattern : Bytes} (hp : pattern.length = 4) (n : ℕ)
    (crc : BitVec 32) : (affine crcBit^[32] (updateCrc32 0#32 pattern))^[n] crc
      = updateCrc32 crc (cyclic 0 pattern (4 * n)) := by
  induction n generalizing crc with
  | zero => simp [cyclic, updateCrc32]
  | succ n ih =>
      have hone : affine crcBit^[32] (updateCrc32 0#32 pattern) crc = updateCrc32 crc pattern := by
        rw [updateCrc32_affine crc pattern, hp]
      have hsplit : cyclic 0 pattern (4 * (n + 1)) = pattern ++ cyclic 0 pattern (4 * n) := by
        rw [Nat.mul_succ, add_comm, cyclic_add 0 (Dvd.intro 1 (by rw [hp, mul_one])),
          cyclic_eq_take 0 (by rw [hp]), List.take_of_length_le (by rw [hp])]
      rw [Function.iterate_succ_apply, hone, ih, hsplit, updateCrc32_append]

/-- The logarithmic update agrees with walking the repeated pattern byte by byte. -/
theorem updateCrcRepeated_eq (crc : BitVec 32) {pattern : Bytes} (hp : pattern.length = 4)
    {byteCount : ℕ} (hn : byteCount ≤ uint64Max) :
    updateCrcRepeated crc pattern byteCount = updateCrc32 crc (cyclic 0 pattern byteCount) := by
  have hlt : byteCount / 4 < 2 ^ 64 := by
    have : uint64Max < 2 ^ 64 := by decide
    omega
  have hrem : cyclic 0 pattern (byteCount % 4) = pattern.take (byteCount % 4) :=
    cyclic_eq_take 0 (by omega)
  have hsplit : cyclic 0 pattern byteCount
      = cyclic 0 pattern (4 * (byteCount / 4)) ++ pattern.take (byteCount % 4) := by
    rw [← hrem, ← cyclic_add 0 (Dvd.intro _ (by rw [hp])), Nat.div_add_mod]
  rw [updateCrcRepeated, repeatAffine_eq (crcBit_linear.iterate 32) columns_fourBytes hlt,
    iterate_affine_pattern hp, hsplit, updateCrc32_append]
  split
  · rfl
  · next h0 => rw [not_not] at h0; simp [h0, updateCrc32]

/-- `update_crc_repeated` is the byte-wise update over the first `byteCount` bytes of the pattern
repeated without end, for every 64-bit count. -/
theorem updateCrcRepeated_bytewise (prefixCrc : BitVec 32) (pattern : Vector UInt8 4)
    (byteCount : UInt64) :
    updateCrcRepeated prefixCrc pattern.toList byteCount.toNat
      = updateCrc32 prefixCrc
          ((List.range byteCount.toNat).map fun i => pattern.get (Fin.ofNat 4 i)) := by
  have hcount : byteCount.toNat ≤ uint64Max := Nat.le_sub_one_of_lt byteCount.toNat_lt
  rw [updateCrcRepeated_eq prefixCrc (by simp) hcount, cyclic]
  congr 1
  refine List.map_congr_left fun i _ => ?_
  have hi : i % 4 < pattern.toList.length := by rw [Vector.length_toList]; omega
  rw [Vector.length_toList, List.getD_eq_getElem?_getD, List.getElem?_eq_getElem hi]
  rfl

/-! ### Checksum of a window of a source -/

/-- `kChecksumWindowSize`. -/
def kChecksumWindowSize : ℕ := 64 * 1024

/-- `kChecksumCancellationGranularity`. -/
def kChecksumCancellationGranularity : ℕ := 4 * 1024

/-- `update_crc32_cancellable`: the buffer is consumed in steps between which the token would
be polled.  `fuel` is at least the length of the buffer. -/
def updateCrc32Cancellable : ℕ → BitVec 32 → Bytes → BitVec 32
  | 0, crc, _ => crc
  | fuel + 1, crc, bytes =>
      if bytes.length = 0 then crc
      else updateCrc32Cancellable fuel (updateCrc32 crc (bytes.take kChecksumCancellationGranularity))
        (bytes.drop kChecksumCancellationGranularity)

/-- `update_crc_from_source`; `fuel` is at least `byteCount`. -/
def updateCrcFromSource (source : ImageSource) (sourceSize : ℕ) :
    ℕ → ℕ → ℕ → BitVec 32 → Except SparseError (BitVec 32)
  | 0, _, _, crc => .ok crc
  | fuel + 1, inputOffset, byteCount, crc =>
      if byteCount = 0 then .ok crc
      else do
        let amount := min byteCount kChecksumWindowSize
        let buffer ← readExact source sourceSize inputOffset amount
        let crc := updateCrc32Cancellable amount crc buffer
        let next ← orFail (checkedAdd inputOffset amount)
          ⟨.malformed, inputOffset, "CRC input cursor overflows 64-bit offset space"⟩
        updateCrcFromSource source sourceSize fuel next (byteCount - amount) crc

theorem updateCrc32Cancellable_eq {fuel : ℕ} (crc : BitVec 32) {bytes : Bytes}
    (h : bytes.length ≤ fuel) : updateCrc32Cancellable fuel crc bytes = updateCrc32 crc bytes := by
  induction fuel generalizing crc bytes with
  | zero =>
      have : bytes = [] := List.eq_nil_of_length_eq_zero (by omega)
      simp [updateCrc32Cancellable, this, updateCrc32]
  | succ fuel ih =>
      rw [updateCrc32Cancellable]
      split
      · next h0 => simp [List.eq_nil_of_length_eq_zero h0, updateCrc32]
      · have hg : 0 < kChecksumCancellationGranularity := by decide
        rw [ih _ (by simp only [List.length_drop]; omega), ← updateCrc32_append,
          List.take_append_drop]

theorem updateCrcFromSource_eq {source : ImageSource} {bytes : Bytes}
    (h : source.Holds bytes) {fuel inputOffset byteCount : ℕ} (crc : BitVec 32)
    (hfuel : byteCount ≤ fuel) (hle : inputOffset + byteCount ≤ bytes.length) :
    updateCrcFromSource source source.size fuel inputOffset byteCount crc
      = .ok (updateCrc32 crc (slice bytes inputOffset byteCount)) := by
  induction fuel generalizing inputOffset byteCount crc with
  | zero =>
      have : byteCount = 0 := by omega
      simp [updateCrcFromSource, this, updateCrc32]
  | succ fuel ih =>
      rw [updateCrcFromSource]
      split
      · next h0 => simp [h0, updateCrc32]
      · have hw : 0 < kChecksumWindowSize := by decide
        obtain ⟨amount, hamt⟩ : ∃ a, a = min byteCount kChecksumWindowSize := ⟨_, rfl⟩
        have hmax := h.length_le
        have hsplit : byteCount = amount + (byteCount - amount) := by omega
        simp only [← hamt]
        rw [readExact_of_le h (by omega), checkedAdd_of_le (by omega)]
        simp only [ok_bind, orFail_some_bind]
        rw [ih _ (by omega) (by omega), updateCrc32Cancellable_eq _ (length_slice_le _ _ _),
          ← updateCrc32_append, ← slice_add, ← hsplit]

end KairosBoot
