import KairosBoot.LittleEndian
import KairosBoot.ShortReads

/-! # Image sources

The random-access source seam `IImageSource` of `sparse_image.hpp` and the helpers every image
reader of `sparse_image.cpp` is built from: the overflow-checked 64-bit operations, the
little-endian fields and `read_exact`.

A source is an immutable object, so `read_at` is a function of the offset and of the length of
the destination; the returned list holds the bytes written, and a list longer than the request
stands for a source that reports more bytes than it was asked for.  Cancellation tokens are not
modelled: every run here is one whose token is never stopped.

`ImageSource.Holds src bytes` is the honest source of the given contents: reads inside the
source succeed but may be short.  For such a source `readExact` is a slice
(`readExact_eq_ok_iff`). -/

namespace KairosBoot

open ByteLib

/-! ### Checked arithmetic -/

/-- `std::numeric_limits<std::uint32_t>::max()`. -/
def uint32Max : ℕ := 2 ^ 32 - 1

/-- `std::numeric_limits<std::uint64_t>::max()`. -/
def uint64Max : ℕ := 2 ^ 64 - 1

/-- `checked_add`. -/
def checkedAdd (left right : ℕ) : Option ℕ :=
  if uint64Max - left < right then none else some (left + right)

/-- `checked_multiply`. -/
def checkedMultiply (left right : ℕ) : Option ℕ :=
  if left ≠ 0 ∧ uint64Max / left < right then none else some (left * right)

variable {right left : ℕ}

theorem checkedAdd_of_le (h : left + right ≤ uint64Max) :
    checkedAdd left right = some (left + right) := by
  rw [checkedAdd, if_neg (by omega)]

theorem checkedAdd_eq_some {sum : ℕ} (h : checkedAdd left right = some sum) :
    sum = left + right := by
  rw [checkedAdd] at h
  split at h
  · cases h
  · exact (Option.some.inj h).symm

theorem checkedAdd_of_gt (hl : left ≤ uint64Max) (h : uint64Max < left + right) :
    checkedAdd left right = none := by
  rw [checkedAdd, if_pos (by omega)]

theorem checkedMultiply_of_le (h : left * right ≤ uint64Max) :
    checkedMultiply left right = some (left * right) := by
  rw [checkedMultiply, if_neg]
  rintro ⟨h0, hlt⟩
  have := (Nat.div_lt_iff_lt_mul (Nat.pos_of_ne_zero h0)).mp hlt
  rw [mul_comm] at this
  omega

theorem checkedMultiply_eq_some {product : ℕ} (h : checkedMultiply left right = some product) :
    product = left * right ∧ left * right ≤ uint64Max := by
  rw [checkedMultiply] at h
  split at h
  · cases h
  · next hn =>
    refine ⟨(Option.some.inj h).symm, ?_⟩
    by_cases h0 : left = 0
    · simp [h0]
    · have hle : right ≤ uint64Max / left := by
        by_contra hc
        exact hn ⟨h0, by omega⟩
      rw [mul_comm]
      exact (Nat.le_div_iff_mul_le (Nat.pos_of_ne_zero h0)).mp hle

/-! ### Little-endian fields -/

/-- `read_u16`. -/
def readU16 (bytes : Bytes) (offset : ℕ) : ℕ := getLE bytes offset 2

/-- `read_u32`. -/
def readU32 (bytes : Bytes) (offset : ℕ) : ℕ := getLE bytes offset 4

theorem readU32_lt (bytes : Bytes) (offset : ℕ) : readU32 bytes offset < 2 ^ 32 :=
  lt_of_lt_of_eq (getLE_lt bytes offset 4) (by norm_num)

/-! ### Sources -/

inductive SparseErrorKind where
  | malformed | truncated | unsupported | source | invalidArgument | cancelled
  deriving DecidableEq, Repr

structure SparseError where
  kind : SparseErrorKind
  inputOffset : ℕ
  message : String
  deriving DecidableEq, Repr

structure ImageSourceError where
  message : String
  deriving DecidableEq, Repr

/-- `IImageSource`: the size is a 64-bit number. -/
structure ImageSource where
  size : ℕ
  size_le : size ≤ uint64Max
  readAt : ℕ → ℕ → Except ImageSourceError Bytes

/-- An immutable source with the given contents whose reads succeed, possibly short. -/
structure ImageSource.Holds (source : ImageSource) (bytes : Bytes) : Prop where
  size_eq : source.size = bytes.length
  serves : Serves source.readAt bytes

theorem ImageSource.Holds.length_le {source : ImageSource} {bytes : Bytes}
    (h : source.Holds bytes) : bytes.length ≤ uint64Max := h.size_eq ▸ source.size_le

/-- The source that answers every request in full from memory. -/
def ImageSource.ofBytes (bytes : Bytes) (h : bytes.length ≤ uint64Max) : ImageSource where
  size := bytes.length
  size_le := h
  readAt offset length := .ok (slice bytes offset length)

theorem ImageSource.holds_ofBytes (bytes : Bytes) (h : bytes.length ≤ uint64Max) :
    (ImageSource.ofBytes bytes h).Holds bytes := ⟨rfl, serves_slice bytes⟩

/-- All the bytes of a source, as a sequence of reads returns them. -/
def ImageSource.contents (source : ImageSource) : Bytes :=
  match readLoop source.readAt 0 source.size source.size [] with
  | .ok bytes => bytes
  | .error _ => []

theorem ImageSource.Holds.contents_eq {source : ImageSource} {bytes : Bytes}
    (h : source.Holds bytes) : source.contents = bytes := by
  have hread := readLoop_eq h.serves (zero_add bytes.length).le
  rw [slice_all, ← h.size_eq] at hread
  rw [contents, hread]

/-! ### `read_exact` -/

/-- The error `read_exact` reports for a request its source did not complete. -/
def readFaultError : ReadFault ImageSourceError → SparseError
  | .failed offset e => ⟨.source, offset, e.message⟩
  | .excess offset => ⟨.source, offset, "image source reported reading more bytes than requested"⟩
  | .stalled offset =>
      ⟨.truncated, offset, "image source made no progress before the declared end"⟩

/-- `read_exact` for a destination of `length` bytes.  The loop's own `checked_add` of the
cursor is implied by the range check before the loop. -/
def readExact (source : ImageSource) (sourceSize offset length : ℕ) : Except SparseError Bytes :=
  match checkedAdd offset length with
  | none => .error ⟨.malformed, offset, "input read range overflows 64-bit offset space"⟩
  | some finish =>
      if sourceSize < finish then
        .error ⟨.truncated, offset, "sparse input ends before the declared data"⟩
      else (readLoop source.readAt offset length length []).mapError readFaultError

variable {source : ImageSource} {bytes : Bytes}

theorem readExact_of_le (h : source.Holds bytes) {offset length : ℕ}
    (hle : offset + length ≤ bytes.length) :
    readExact source source.size offset length = .ok (slice bytes offset length) := by
  have hmax := h.length_le
  rw [readExact, checkedAdd_of_le (by omega)]
  simp only [h.size_eq]
  rw [if_neg (by omega), readLoop_eq h.serves hle]
  rfl

theorem readExact_of_gt (h : source.Holds bytes) {offset length : ℕ}
    (hgt : bytes.length < offset + length) :
    ∃ e, readExact source source.size offset length = .error e := by
  rw [readExact]
  cases hadd : checkedAdd offset length with
  | none => exact ⟨_, rfl⟩
  | some finish =>
      have := checkedAdd_eq_some hadd
      simp only [h.size_eq]
      rw [if_pos (by omega)]
      exact ⟨_, rfl⟩

theorem readExact_eq_ok_iff (h : source.Holds bytes) {offset length : ℕ} {out : Bytes} :
    readExact source source.size offset length = .ok out ↔
      offset + length ≤ bytes.length ∧ out = slice bytes offset length := by
  by_cases hle : offset + length ≤ bytes.length
  · rw [readExact_of_le h hle]
    simp [hle, eq_comm]
  · obtain ⟨e, he⟩ := readExact_of_gt h (Nat.lt_of_not_le hle)
    simp [he, hle]

end KairosBoot
