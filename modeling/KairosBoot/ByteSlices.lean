import Mathlib.Tactic.Ring

/-! # Slices of byte sequences

Random-access data is handled everywhere as a list together with windows into it.

* `slice l off len` is the window of at most `len` elements that starts at `off`; it is cut
  short by the end of the list, so its length is exact only under `off + len ≤ l.length`
  (`length_slice`).
* `overwrite l off new` replaces the window of `new.length` elements that starts at `off`.

The lemmas say how windows split (`slice_add`), nest (`slice_slice`), pass through
concatenations (`slice_append_left`, `slice_append_right`) and survive an overwrite
elsewhere (`slice_overwrite_of_le`, `slice_overwrite_of_ge`). -/

/-- A string of bytes. -/
abbrev Bytes := List UInt8

namespace ByteLib

open List

variable {α : Type}

/-- The window of at most `len` elements of `l` that starts at `off`. -/
def slice (l : List α) (off len : ℕ) : List α := (l.drop off).take len

@[simp] theorem slice_zero_len (l : List α) (off : ℕ) : slice l off 0 = [] := by simp [slice]

@[simp] theorem slice_nil (off len : ℕ) : slice ([] : List α) off len = [] := by simp [slice]

theorem length_slice_le (l : List α) (off len : ℕ) : (slice l off len).length ≤ len := by
  simp only [slice, length_take]
  exact Nat.min_le_left _ _

variable {off len n : ℕ} {l new : List α}

theorem length_slice (h : off + len ≤ l.length) : (slice l off len).length = len := by
  simp only [slice, length_take, length_drop]
  omega

theorem slice_eq_take (l : List α) (len : ℕ) : slice l 0 len = l.take len := by simp [slice]

@[simp] theorem slice_all (l : List α) : slice l 0 l.length = l := by simp [slice]

theorem slice_add (l : List α) (off a b : ℕ) :
    slice l off (a + b) = slice l off a ++ slice l (off + a) b := by
  simp only [slice, take_add, drop_drop]

/-- A window inside a window is a window. -/
theorem slice_slice (l : List α) {off' len' : ℕ} (h : off' + len' ≤ len) :
    slice (slice l off len) off' len' = slice l (off + off') len' := by
  simp only [slice, drop_take, take_take, drop_drop]
  congr 1
  omega

theorem take_slice (l : List α) (h : n ≤ len) : (slice l off len).take n = slice l off n := by
  simp only [slice, take_take]
  congr 1
  omega

theorem drop_slice (l : List α) (off len n : ℕ) :
    (slice l off len).drop n = slice l (off + n) (len - n) := by
  simp only [slice, drop_take, drop_drop]

theorem slice_append_left {r : List α} (h : off + len ≤ l.length) :
    slice (l ++ r) off len = slice l off len := by
  simp only [slice]
  rw [drop_append_of_le_length (by omega), take_append_of_le_length]
  rw [length_drop]
  omega

theorem slice_append_right (l r : List α) (off len : ℕ) :
    slice (l ++ r) (l.length + off) len = slice r off len := by
  have h : l.drop (l.length + off) = [] := drop_eq_nil_of_le (by omega)
  simp [slice, drop_append, h]

theorem slice_append_right' {r : List α} (h : l.length = n) (off len : ℕ) :
    slice (l ++ r) (n + off) len = slice r off len := by
  subst h
  exact slice_append_right l r off len

theorem slice_append_exact {r : List α} (h : l.length = n) (len : ℕ) :
    slice (l ++ r) n len = r.take len := by
  have := slice_append_right' h (r := r) 0 len
  simpa [slice] using this

/-- The window of the middle part of a three-part list. -/
theorem slice_middle {a b c : List α} (ha : a.length = off) (hb : b.length = len) :
    slice (a ++ (b ++ c)) off len = b := by
  rw [slice_append_exact ha, ← hb]
  simp

theorem getElem?_slice (l : List α) (off len i : ℕ) :
    (slice l off len)[i]? = if i < len then l[off + i]? else none := by
  simp only [slice, getElem?_take, getElem?_drop]

/-- Lists that agree on a window have the same window. -/
theorem slice_congr {l' : List α} (h : ∀ i, off ≤ i → i < off + len → l[i]? = l'[i]?) :
    slice l off len = slice l' off len := by
  apply ext_getElem?
  intro i
  rw [getElem?_slice, getElem?_slice]
  split
  · exact h _ (by omega) (by omega)
  · rfl

theorem slice_replicate (a : α) (h : off + len ≤ n) :
    slice (replicate n a) off len = replicate len a := by
  simp only [slice, drop_replicate, take_replicate]
  congr 1
  omega

theorem slice_append_replicate (l : List α) (a : α) {m : ℕ} (h : off + len ≤ l.length + m) :
    slice (l ++ replicate m a) off len
      = slice l off (min len (l.length - off)) ++ replicate (len - min len (l.length - off)) a := by
  rcases Nat.lt_or_ge off l.length with hlt | hge
  · have hsplit : len = min len (l.length - off) + (len - min len (l.length - off)) := by omega
    have hleft : slice (l ++ replicate m a) off (min len (l.length - off))
        = slice l off (min len (l.length - off)) := slice_append_left (by omega)
    conv_lhs => rw [hsplit, slice_add, hleft]
    rcases Nat.lt_or_ge (l.length - off) len with hlong | hshort
    · congr 1
      obtain ⟨d, hd⟩ : ∃ d, off + min len (l.length - off) = l.length + d := ⟨0, by omega⟩
      rw [hd, slice_append_right, slice_replicate _ (by omega)]
    · rw [Nat.min_eq_left hshort, Nat.sub_self]
      simp
  · obtain ⟨d, rfl⟩ : ∃ d, off = l.length + d := ⟨off - l.length, by omega⟩
    rw [slice_append_right, slice_replicate _ (by omega)]
    have hzero : l.length - (l.length + d) = 0 := by omega
    simp [hzero]

/-! ### Repeating a pattern -/

/-- The first `n` elements of `p` repeated without end (`d` where `p` is empty). -/
def cyclic (d : α) (p : List α) (n : ℕ) : List α :=
  (List.range n).map fun i => p.getD (i % p.length) d

@[simp] theorem length_cyclic (d : α) (p : List α) (n : ℕ) : (cyclic d p n).length = n := by
  simp [cyclic]

theorem slice_cyclic (d : α) (p : List α) (h : off + len ≤ n) :
    slice (cyclic d p n) off len = (range len).map fun i => p.getD ((off + i) % p.length) d := by
  apply ext_getElem
  · rw [length_slice (by simpa using h)]
    simp
  · intro i h1 h2
    simp [slice, cyclic]

theorem cyclic_eq_take (d : α) {p : List α} (h : n ≤ p.length) : cyclic d p n = p.take n := by
  apply ext_getElem
  · simp [h]
  · intro i h1 h2
    have hi : i < p.length := by simp at h1; omega
    simp [cyclic, Nat.mod_eq_of_lt hi, hi]

/-- A whole number of repetitions can be split off at the front. -/
theorem cyclic_add (d : α) {p : List α} {a : ℕ} (h : p.length ∣ a) (b : ℕ) :
    cyclic d p (a + b) = cyclic d p a ++ cyclic d p b := by
  obtain ⟨k, rfl⟩ := h
  simp only [cyclic, range_add, map_append, map_map]
  congr 1
  apply map_congr_left
  intro i _
  simp

theorem cyclic_replicate (d a : α) {k : ℕ} (hk : 0 < k) (n : ℕ) :
    cyclic d (replicate k a) n = replicate n a := by
  apply ext_getElem
  · simp
  · intro i h1 h2
    simp [cyclic, Nat.mod_lt _ hk]

/-! ### Overwriting a window -/

/-- Replace the window of `new.length` elements of `l` that starts at `off` by `new`. -/
def overwrite (l : List α) (off : ℕ) (new : List α) : List α :=
  l.take off ++ (new ++ l.drop (off + new.length))

theorem length_overwrite (h : off + new.length ≤ l.length) :
    (overwrite l off new).length = l.length := by
  simp only [overwrite, length_append, length_take, length_drop]
  omega

/-- What stands in front of an overwritten window, and the first elements of it. -/
theorem take_overwrite (hoff : off ≤ l.length) (hn : n ≤ new.length) :
    (overwrite l off new).take (off + n) = l.take off ++ new.take n := by
  have hlen : (l.take off).length = off := by rw [length_take, Nat.min_eq_left hoff]
  have htake : (l.take off ++ (new ++ l.drop (off + new.length))).take ((l.take off).length + n)
      = l.take off ++ (new ++ l.drop (off + new.length)).take n :=
    take_length_add_append n
  rw [hlen] at htake
  rw [overwrite, htake, take_append_of_le_length hn]

theorem slice_overwrite_same (h : off ≤ l.length) (hlen : new.length = len) :
    slice (overwrite l off new) off len = new :=
  slice_middle (by simp [h]) hlen

/-- A window that ends before the overwritten one is unchanged. -/
theorem slice_overwrite_of_le {off' : ℕ} (h : off' + len ≤ off) (hoff : off ≤ l.length) :
    slice (overwrite l off new) off' len = slice l off' len := by
  unfold overwrite
  rw [slice_append_left (by simp; omega), slice, slice, drop_take, take_take]
  congr 1
  omega

/-- A window that starts after the overwritten one is unchanged. -/
theorem slice_overwrite_of_ge {off' : ℕ} (h : off + new.length ≤ off')
    (hoff : off + new.length ≤ l.length) :
    slice (overwrite l off new) off' len = slice l off' len := by
  obtain ⟨d, rfl⟩ : ∃ d, off' = off + new.length + d := ⟨off' - (off + new.length), by omega⟩
  unfold overwrite
  rw [← append_assoc, slice_append_right' (by simp; omega)]
  simp only [slice, drop_drop]

/-- Elements outside the overwritten window are unchanged. -/
theorem getElem?_overwrite {i : ℕ} (hoff : off + new.length ≤ l.length)
    (h : i < off ∨ off + new.length ≤ i) : (overwrite l off new)[i]? = l[i]? := by
  have hone : ∀ l' : List α, l'[i]? = (slice l' i 1)[0]? := fun l' => by simp [getElem?_slice]
  rw [hone, hone l]
  rcases h with h | h
  · rw [slice_overwrite_of_le (by omega) (by omega)]
  · rw [slice_overwrite_of_ge h hoff]

end ByteLib
