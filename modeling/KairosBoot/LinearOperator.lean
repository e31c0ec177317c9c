import Mathlib.Tactic.Ring

/-! # Linear operators on machine words

A word `BitVec w` is a vector over the two-element field with `^^^` as addition.  An operator
is stored as the list of its columns, the images of the basis words `1 <<< i`;
`applyColumns` is the product of such a matrix with a word, and `squareColumns` the product of
a matrix with itself.

* `applyColumns_eq`: the columns of a linear function compute it.
* `Columns.square`: squaring the columns composes the function with itself.
* `repeatAffine_eq`: repeated squaring of `v ↦ f v ^^^ b` computes `n` applications of it in
  as many rounds as `n` has binary digits. -/

namespace Gf2

variable {w : ℕ}

theorem xor_left_comm (a b c : BitVec w) : a ^^^ (b ^^^ c) = b ^^^ (a ^^^ c) := by
  rw [← BitVec.xor_assoc, BitVec.xor_comm a b, BitVec.xor_assoc]

theorem xor_cancel_left (a b : BitVec w) : a ^^^ (a ^^^ b) = b := by
  rw [← BitVec.xor_assoc, BitVec.xor_self, BitVec.zero_xor]

/-- Additivity over exclusive or. -/
def XorLinear (f : BitVec w → BitVec w) : Prop := ∀ a b, f (a ^^^ b) = f a ^^^ f b

variable {f : BitVec w → BitVec w} {cols : List (BitVec w)}

theorem XorLinear.zero (hf : XorLinear f) : f 0#w = 0#w := by
  have h := hf 0#w 0#w
  rwa [BitVec.xor_self, BitVec.xor_self] at h

theorem XorLinear.comp {g : BitVec w → BitVec w} (hf : XorLinear f) (hg : XorLinear g) :
    XorLinear (f ∘ g) := by
  intro a b
  simp only [Function.comp_apply, hg a b, hf (g a) (g b)]

theorem XorLinear.iterate (hf : XorLinear f) (n : ℕ) : XorLinear f^[n] := by
  induction n with
  | zero => exact fun _ _ => rfl
  | succ n ih => rw [Function.iterate_succ]; exact ih.comp hf

/-! ### Columns -/

/-- Product of the matrix with the given columns and a word, added to `acc`; bits are taken
from the low end and the loop stops when no bit is left. -/
def applyColumns : List (BitVec w) → BitVec w → BitVec w → BitVec w
  | [], _, acc => acc
  | c :: cs, v, acc =>
      if v = 0#w then acc
      else applyColumns cs (v >>> 1) (if v &&& 1#w ≠ 0#w then acc ^^^ c else acc)

/-- The columns of the square of a matrix. -/
def squareColumns (cols : List (BitVec w)) : List (BitVec w) :=
  cols.map fun c => applyColumns cols c 0#w

/-- `cols` are the images of `1 <<< k`, `1 <<< (k + 1)`, … under `f`. -/
def ColumnsFrom (f : BitVec w → BitVec w) : ℕ → List (BitVec w) → Prop
  | k, [] => k = w
  | k, c :: cs => k < w ∧ c = f (1#w <<< k) ∧ ColumnsFrom f (k + 1) cs

/-- `cols` are the columns of `f`. -/
def Columns (f : BitVec w → BitVec w) (cols : List (BitVec w)) : Prop := ColumnsFrom f 0 cols

theorem and_one_eq_zero_iff (v : BitVec w) : v &&& 1#w = 0#w ↔ v.getLsbD 0 = false := by
  constructor
  · intro h
    have := congrArg (fun x => x.getLsbD 0) h
    cases w with
    | zero => simp
    | succ n => simpa using this
  · intro h
    ext i hi
    by_cases hi0 : i = 0
    · subst hi0
      simp [h, ← BitVec.getLsbD_eq_getElem]
    · simp [BitVec.getElem_one, hi0]

/-- A word moved up by `k` places splits off its lowest bit. -/
theorem shiftLeft_split (v : BitVec w) (k : ℕ) :
    v <<< k = (if v.getLsbD 0 then 1#w <<< k else 0#w) ^^^ ((v >>> 1) <<< (k + 1)) := by
  ext i hi
  by_cases hk : i < k
  · by_cases hv : v.getLsbD 0 <;> simp [hv, hk, Nat.lt_succ_of_lt hk]
  · by_cases hik : i = k
    · subst hik
      have h0 : 0 < w := by omega
      by_cases hv : v.getLsbD 0 <;> simp [hv, h0, ← BitVec.getLsbD_eq_getElem]
    · have h1 : ¬ i < k + 1 := by omega
      have h2 : i - k ≠ 0 := by omega
      have h3 : 1 + (i - (k + 1)) = i - k := by omega
      by_cases hv : v.getLsbD 0 <;> simp [hv, hk, h1, h2, h3, ← BitVec.getLsbD_eq_getElem]

theorem applyColumns_from (hf : XorLinear f) {k : ℕ} (hc : ColumnsFrom f k cols)
    (v acc : BitVec w) : applyColumns cols v acc = acc ^^^ f (v <<< k) := by
  induction cols generalizing k v acc with
  | nil =>
      have hk : k = w := hc
      have hz : v <<< k = 0#w := by ext i hi; simp; omega
      simp [applyColumns, hz, hf.zero]
  | cons c cs ih =>
      obtain ⟨hk, hck, hcs⟩ := hc
      rw [applyColumns]
      split
      · next hv => subst hv; simp [hf.zero]
      · rw [ih hcs, shiftLeft_split v k, hf]
        by_cases hb : v.getLsbD 0
        · have : v &&& 1#w ≠ 0#w := by rw [Ne, and_one_eq_zero_iff]; simp [hb]
          simp [this, hb, hck, BitVec.xor_assoc]
        · have : v &&& 1#w = 0#w := by rw [and_one_eq_zero_iff]; simpa using hb
          simp [this, hb, hf.zero]

theorem applyColumns_eq (hf : XorLinear f) (hc : Columns f cols) (v : BitVec w) :
    applyColumns cols v 0#w = f v := by
  rw [applyColumns_from hf hc]
  simp

theorem ColumnsFrom.map {g h : BitVec w → BitVec w} (hgh : ∀ v, h (f v) = g v) {k : ℕ}
    (hc : ColumnsFrom f k cols) : ColumnsFrom g k (cols.map h) := by
  induction cols generalizing k with
  | nil => exact hc
  | cons c cs ih =>
      obtain ⟨hk, hck, hcs⟩ := hc
      exact ⟨hk, by rw [hck, hgh], ih hcs⟩

theorem Columns.square (hf : XorLinear f) (hc : Columns f cols) :
    Columns (f ∘ f) (squareColumns cols) :=
  ColumnsFrom.map (fun v => applyColumns_eq hf hc (f v)) hc

/-- The matrix built column by column from a function holds its columns. -/
theorem columns_ofFn (f : BitVec w → BitVec w) :
    Columns f ((List.range w).map fun i => f (1#w <<< i)) := by
  have h : ∀ n k, k + n = w → ColumnsFrom f k ((List.range' k n).map fun i => f (1#w <<< i)) := by
    intro n
    induction n with
    | zero => intro k hk; simpa [ColumnsFrom] using hk
    | succ n ih =>
        intro k hk
        exact ⟨by omega, rfl, ih (k + 1) (by omega)⟩
  have := h w 0 (zero_add w)
  rwa [← List.range_eq_range'] at this

/-! ### Iterating an affine map by squaring -/

/-- One application of the affine map with linear part `f` and constant part `b`. -/
def affine (f : BitVec w → BitVec w) (b v : BitVec w) : BitVec w := f v ^^^ b

theorem affine_affine (hf : XorLinear f) (b v : BitVec w) :
    affine f b (affine f b v) = affine (f ∘ f) (f b ^^^ b) v := by
  simp [affine, hf _ b, BitVec.xor_assoc]

/-- Apply the affine map `n` times to `v` by repeated squaring; `fuel` bounds the number of
binary digits of `n`. -/
def repeatAffine : ℕ → ℕ → List (BitVec w) → BitVec w → BitVec w → BitVec w
  | 0, _, _, _, v => v
  | fuel + 1, n, cols, b, v =>
      if n = 0 then v
      else
        let v' := if n % 2 ≠ 0 then applyColumns cols v 0#w ^^^ b else v
        if n / 2 ≠ 0 then
          repeatAffine fuel (n / 2) (squareColumns cols) (applyColumns cols b 0#w ^^^ b) v'
        else v'

theorem iterate_affine_square (hf : XorLinear f) (b : BitVec w) (n : ℕ) (v : BitVec w) :
    (affine (f ∘ f) (f b ^^^ b))^[n] v = (affine f b)^[2 * n] v := by
  have h : affine (f ∘ f) (f b ^^^ b) = (affine f b)^[2] := by
    funext u
    exact (affine_affine hf b u).symm
  rw [h, ← Function.iterate_mul]

theorem repeatAffine_eq (hf : XorLinear f) (hc : Columns f cols) {fuel n : ℕ} (hn : n < 2 ^ fuel)
    (b v : BitVec w) : repeatAffine fuel n cols b v = (affine f b)^[n] v := by
  induction fuel generalizing n f cols b v with
  | zero =>
      have : n = 0 := by simpa using hn
      subst this
      rfl
  | succ fuel ih =>
      rw [repeatAffine]
      split
      · next h0 => subst h0; rfl
      · next h0 =>
        have hstep : (if n % 2 ≠ 0 then applyColumns cols v 0#w ^^^ b else v)
            = (affine f b)^[n % 2] v := by
          rcases Nat.mod_two_eq_zero_or_one n with h | h <;> simp [h, affine, applyColumns_eq hf hc]
        have hrest : ∀ u, (if n / 2 ≠ 0 then
            repeatAffine fuel (n / 2) (squareColumns cols) (applyColumns cols b 0#w ^^^ b) u
            else u) = (affine f b)^[2 * (n / 2)] u := by
          intro u
          split
          · rw [applyColumns_eq hf hc, ih (hf.comp hf) (hc.square hf) (by omega),
              iterate_affine_square hf]
          · next hz => rw [not_not] at hz; rw [hz]; rfl
        simp only [hstep, hrest]
        rw [← Function.iterate_add_apply, Nat.div_add_mod]

end Gf2
