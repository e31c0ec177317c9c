import KairosBoot.ByteSlices

/-! # Piece tables

A piece table presents a byte string as a sequence of pieces, each with the offset at which it
starts and the bytes it stands for.  `Tiles offset data start ps bytes` says that the pieces
`ps` are non-empty and follow one another without a gap from `start`, and that together they
stand for `bytes`.

* `startAt pos ps` is the table from the piece that contains `pos` on, found as the last piece
  that does not start after `pos`; `Tiles.startAt` says it is the right one.
* `Tiles.dropWhile` and `Tiles.find?` are the same for a search that skips the pieces that end
  before `pos`, and for one that tests every piece.
* `CopyLoop` describes a loop that copies a window out of a table; `CopyLoop.copy` is its result. -/

namespace Pieces

open ByteLib List

variable {π : Type} {offset : π → ℕ} {data data' : π → Bytes}

/-- The pieces stand for `bytes`, one after the other from `start`. -/
def Tiles (offset : π → ℕ) (data : π → Bytes) : ℕ → List π → Bytes → Prop
  | _, [], bytes => bytes = []
  | start, p :: ps, bytes => offset p = start ∧ 0 < (data p).length ∧
      ∃ rest, bytes = data p ++ rest ∧ Tiles offset data (start + (data p).length) ps rest

variable {bytes : Bytes} {ps : List π} {start pos : ℕ} {p : π}

theorem Tiles.congr (h : Tiles offset data start ps bytes) (hd : ∀ p ∈ ps, data' p = data p) :
    Tiles offset data' start ps bytes := by
  induction ps generalizing start bytes with
  | nil => exact h
  | cons p ps ih =>
      obtain ⟨ho, hpos, rest, hbytes, hrest⟩ := h
      have hp : data' p = data p := hd p (by simp)
      refine ⟨ho, by rwa [hp], rest, by rwa [hp], ?_⟩
      rw [hp]
      exact ih hrest fun q hq => hd q (by simp [hq])

theorem tiles_append_iff {qs : List π} :
    Tiles offset data start (ps ++ qs) bytes ↔
      ∃ a b, bytes = a ++ b ∧ Tiles offset data start ps a ∧
        Tiles offset data (start + a.length) qs b := by
  induction ps generalizing start bytes with
  | nil =>
      constructor
      · exact fun h => ⟨[], bytes, rfl, rfl, h⟩
      · rintro ⟨a, b, rfl, rfl, h⟩
        exact h
  | cons p ps ih =>
      constructor
      · rintro ⟨ho, hpos, rest, rfl, hrest⟩
        obtain ⟨a, b, rfl, ha, hb⟩ := ih.mp hrest
        refine ⟨data p ++ a, b, by rw [append_assoc], ⟨ho, hpos, a, rfl, ha⟩, ?_⟩
        rwa [length_append, ← add_assoc]
      · rintro ⟨_, b, rfl, ⟨ho, hpos, a, rfl, ha⟩, hb⟩
        refine ⟨ho, hpos, a ++ b, append_assoc _ _ _, ih.mpr ⟨a, b, rfl, ha, ?_⟩⟩
        rwa [length_append, ← add_assoc] at hb

theorem tiles_snoc_iff :
    Tiles offset data start (ps ++ [p]) bytes ↔
      ∃ a, bytes = a ++ data p ∧ Tiles offset data start ps a ∧ offset p = start + a.length ∧
        0 < (data p).length := by
  rw [tiles_append_iff]
  constructor
  · rintro ⟨a, b, rfl, ha, ho, hpos, rest, rfl, hrest⟩
    have : rest = [] := hrest
    subst this
    exact ⟨a, by simp, ha, ho, hpos⟩
  · rintro ⟨a, rfl, ha, ho, hpos⟩
    exact ⟨a, data p, rfl, ha, ho, hpos, [], by simp, rfl⟩

theorem Tiles.snoc (h : Tiles offset data start ps bytes) (ho : offset p = start + bytes.length)
    (hpos : 0 < (data p).length) : Tiles offset data start (ps ++ [p]) (bytes ++ data p) :=
  tiles_snoc_iff.mpr ⟨bytes, rfl, h, ho, hpos⟩

theorem Tiles.append {qs : List π} {a b : Bytes} (ha : Tiles offset data start ps a)
    (hb : Tiles offset data (start + a.length) qs b) :
    Tiles offset data start (ps ++ qs) (a ++ b) := tiles_append_iff.mpr ⟨a, b, rfl, ha, hb⟩

theorem Tiles.length_le (h : Tiles offset data start (p :: ps) bytes) :
    (data p).length ≤ bytes.length := by
  obtain ⟨-, -, rest, rfl, -⟩ := h
  simp

theorem Tiles.eq_nil (h : Tiles offset data start [] bytes) : bytes = [] := h

/-- A window inside the first piece is a window of its data. -/
theorem Tiles.slice_head (h : Tiles offset data start (p :: ps) bytes) {off len : ℕ}
    (hle : off + len ≤ (data p).length) : slice bytes off len = slice (data p) off len := by
  obtain ⟨-, -, rest, rfl, -⟩ := h
  exact slice_append_left hle

/-- A window after the first piece is a window of the other pieces. -/
theorem Tiles.tail (h : Tiles offset data start (p :: ps) bytes) :
    Tiles offset data (start + (data p).length) ps (bytes.drop (data p).length) := by
  obtain ⟨-, -, rest, rfl, hrest⟩ := h
  simpa using hrest

section

variable (h : Tiles offset data start ps bytes)
include h

/-- The pieces of a table are in the order of their offsets. -/
theorem Tiles.pairwise :
    ps.Pairwise (fun a b => offset a ≤ offset b) ∧ ∀ p ∈ ps, start ≤ offset p := by
  induction ps generalizing start bytes with
  | nil => simp
  | cons p ps ih =>
      obtain ⟨ho, -, rest, -, hrest⟩ := h
      obtain ⟨hsorted, hlow⟩ := ih hrest
      refine ⟨hsorted.cons fun q hq => ?_, forall_mem_cons.mpr ⟨ho.ge, fun q hq => ?_⟩⟩
      · have := hlow q hq
        omega
      · have := hlow q hq
        omega

theorem Tiles.length_pos (hp : p ∈ ps) : 0 < (data p).length := by
  induction ps generalizing start bytes with
  | nil => cases hp
  | cons q ps ih =>
      obtain ⟨-, hpos, rest, -, hrest⟩ := h
      rcases mem_cons.mp hp with rfl | hp
      · exact hpos
      · exact ih hrest hp

/-- The pieces of a table do not overlap. -/
theorem Tiles.apart : ps.Pairwise fun a b => offset a + (data a).length ≤ offset b := by
  induction ps generalizing start bytes with
  | nil => exact .nil
  | cons p ps ih =>
      obtain ⟨ho, -, rest, -, hrest⟩ := h
      refine (ih hrest).cons fun q hq => ?_
      rw [ho]
      exact hrest.pairwise.2 q hq

/-- The pieces of a table cover it, and nothing else. -/
theorem Tiles.covered_iff {place : ℕ} (hplace : start ≤ place) :
    (∃ p ∈ ps, offset p ≤ place ∧ place < offset p + (data p).length)
      ↔ place < start + bytes.length := by
  induction ps generalizing start bytes with
  | nil =>
      rw [Tiles.eq_nil h]
      simp [not_lt.mpr hplace]
  | cons p ps ih =>
      obtain ⟨ho, -, rest, rfl, hrest⟩ := h
      rw [length_append]
      by_cases hfst : place < start + (data p).length
      · exact iff_of_true ⟨p, mem_cons_self, by omega, by omega⟩ (by omega)
      · rw [← add_assoc, ← ih hrest (by omega)]
        constructor
        · rintro ⟨q, hq, hcov⟩
          rcases mem_cons.mp hq with rfl | hq
          · omega
          · exact ⟨q, hq, hcov⟩
        · rintro ⟨q, hq, hcov⟩
          exact ⟨q, mem_cons_of_mem _ hq, hcov⟩

/-- Every piece of a table holds the bytes at its place. -/
theorem Tiles.slice_of_mem (hp : p ∈ ps) :
    slice bytes (offset p - start) (data p).length = data p := by
  induction ps generalizing start bytes with
  | nil => cases hp
  | cons q ps ih =>
      have hlow := h.pairwise.2 p hp
      obtain ⟨ho, -, rest, rfl, hrest⟩ := h
      rcases mem_cons.mp hp with rfl | hp
      · rw [ho, Nat.sub_self, slice_append_left (by omega), slice_all]
      · have hpast := hrest.pairwise.2 p hp
        rw [show offset p - start = (data q).length + (offset p - (start + (data q).length)) by omega,
          slice_append_right]
        exact ih hrest hp

end

theorem Tiles.slice_within (h : Tiles offset data 0 ps bytes) (hp : p ∈ ps) {within n : ℕ}
    (hle : within + n ≤ (data p).length) :
    slice bytes (offset p + within) n = slice (data p) within n := by
  conv_rhs => rw [← h.slice_of_mem hp, slice_slice _ hle, Nat.sub_zero]

/-! ### Finding a piece -/

/-- The table from the last piece on that does not start after `pos`. -/
def startAt (offset : π → ℕ) (pos : ℕ) (ps : List π) : Option (List π) :=
  match (ps.takeWhile fun p => decide (offset p ≤ pos)).length with
  | 0 => none
  | k + 1 => some (ps.drop k)

/-- A place inside a table divides it into the pieces that end before the place, the piece that
contains it and the later ones. -/
theorem Tiles.split (h : Tiles offset data start ps bytes) (hlo : start ≤ pos)
    (hhi : pos < start + bytes.length) :
    ∃ front p rest, ps = front ++ p :: rest ∧ (∀ q ∈ front, offset q + (data q).length ≤ pos) ∧
      (∀ q ∈ rest, pos < offset q) ∧ offset p ≤ pos ∧ pos < offset p + (data p).length := by
  obtain ⟨p, hp, hle, hlt⟩ := (h.covered_iff hlo).mpr hhi
  obtain ⟨front, rest, rfl⟩ := append_of_mem hp
  obtain ⟨-, hrest, hfront⟩ := pairwise_append.mp h.apart
  refine ⟨front, p, rest, rfl, fun q hq => ?_, fun q hq => ?_, hle, hlt⟩
  · exact (hfront q hq p mem_cons_self).trans hle
  · exact hlt.trans_le ((pairwise_cons.mp hrest).1 q hq)

/-- The search finds the piece that contains `pos`. -/
theorem Tiles.startAt (h : Tiles offset data start ps bytes) (hlo : start ≤ pos)
    (hhi : pos < start + bytes.length) :
    ∃ front p rest, ps = front ++ p :: rest ∧ Pieces.startAt offset pos ps = some (p :: rest) ∧
      offset p ≤ pos ∧ pos < offset p + (data p).length := by
  obtain ⟨front, p, rest, rfl, hfront, hrest, hle, hlt⟩ := h.split hlo hhi
  have hskip : ∀ q ∈ front, decide (offset q ≤ pos) = true := by
    intro q hq
    have := hfront q hq
    exact decide_eq_true (by omega)
  have hstop : rest.takeWhile (fun q => decide (offset q ≤ pos)) = [] := by
    cases rest with
    | nil => rfl
    | cons q rest => simp [hrest q mem_cons_self]
  refine ⟨front, p, rest, rfl, ?_, hle, hlt⟩
  unfold Pieces.startAt
  rw [takeWhile_append_of_pos hskip, takeWhile_cons_of_pos (by simp [hle]), hstop, length_append]
  exact congrArg some drop_left

section

variable (h : Tiles offset data start ps bytes) {size : π → ℕ}
  (hsize : ∀ p ∈ ps, size p = (data p).length) (hlo : start ≤ pos)
  (hhi : pos < start + bytes.length)
include h hsize hlo hhi

/-- Skipping the pieces that end before `pos` finds the piece that contains it. -/
theorem Tiles.dropWhile : ∃ front p rest, ps = front ++ p :: rest ∧
    (ps.dropWhile fun p => decide (offset p + size p ≤ pos)) = p :: rest ∧
      offset p ≤ pos ∧ pos < offset p + (data p).length := by
  obtain ⟨front, p, rest, rfl, hfront, -, hle, hlt⟩ := h.split hlo hhi
  refine ⟨front, p, rest, rfl, ?_, hle, hlt⟩
  rw [dropWhile_append_of_pos, dropWhile_cons_of_neg]
  · simp only [hsize p (by simp), decide_eq_true_eq]
    omega
  · intro q hq
    rw [hsize q (by simp [hq])]
    exact decide_eq_true (hfront q hq)

/-- A search through the pieces finds one that contains `pos`. -/
theorem Tiles.find? : ∃ p ∈ ps,
    (ps.find? fun p => decide (offset p ≤ pos ∧ pos - offset p < size p)) = some p ∧
      offset p ≤ pos ∧ pos < offset p + (data p).length := by
  obtain ⟨q, hq, hcov⟩ := (h.covered_iff hlo).mpr hhi
  cases hfind : ps.find? fun p => decide (offset p ≤ pos ∧ pos - offset p < size p) with
  | none =>
      have hnone := find?_eq_none.mp hfind q hq
      have := hsize q hq
      simp only [decide_eq_true_eq] at hnone
      omega
  | some p =>
      have hp := mem_of_find?_eq_some hfind
      have hsome := find?_some hfind
      have := hsize p hp
      simp only [decide_eq_true_eq] at hsome
      exact ⟨p, hp, rfl, hsome.1, by omega⟩

end

/-! ### Copying from a table -/

/-- A loop that copies `total` bytes from `pos` on out of the pieces of `all`.  A round appends
the part of its piece that is asked for, and goes on behind the piece; or it stops after a part.
`D n r` says that a request of `r` bytes may be answered with `n`. -/
structure CopyLoop {ε : Type} (offset : π → ℕ) (data : π → Bytes) (all : List π) (pos total : ℕ)
    (D : ℕ → ℕ → Prop) (loop : List π → Bytes → Except ε Bytes) : Prop where
  full : ∀ n, D n n
  add : ∀ a n r, 0 < a → D n r → D (a + n) (a + r)
  stop : ∀ ps done, done.length = total → loop ps done = .ok done
  step : ∀ p ∈ all, ∀ rest done within amount, done.length < total →
    pos + done.length = offset p + within → within < (data p).length →
    amount = min ((data p).length - within) (total - done.length) →
    (∃ n ≤ amount, D n (total - done.length) ∧
      loop (p :: rest) done = .ok (done ++ slice (data p) within n)) ∨
    loop (p :: rest) done = if within + amount = (data p).length
      then loop rest (done ++ slice (data p) within amount)
      else .ok (done ++ slice (data p) within amount)

section

variable {ε : Type} {all : List π} {total : ℕ} {D : ℕ → ℕ → Prop}
  {loop : List π → Bytes → Except ε Bytes}
  (hloop : CopyLoop offset data all pos total D loop)
include hloop

theorem CopyLoop.copy_from (done : Bytes) (h : Tiles offset data start ps bytes)
    (hmem : ∀ p ∈ ps, p ∈ all) (hdone : done.length ≤ total) (hlo : start ≤ pos + done.length)
    (hend : pos + total ≤ start + bytes.length)
    (hhead : ∀ p ∈ ps.head?, pos + done.length < start + (data p).length) :
    ∃ n, D n (total - done.length) ∧
      loop ps done = .ok (done ++ slice bytes (pos + done.length - start) n) := by
  induction ps generalizing start bytes done with
  | nil =>
      rw [h.eq_nil, length_nil] at hend
      refine ⟨0, ?_, by rw [hloop.stop [] done (by omega)]; simp⟩
      rw [show total - done.length = 0 by omega]
      exact hloop.full 0
  | cons p rest ih =>
      by_cases hlt : done.length < total
      · obtain ⟨within, hwith⟩ : ∃ w, pos + done.length = start + w :=
          ⟨pos + done.length - start, by omega⟩
        obtain ⟨amount, hamt⟩ :
            ∃ a, a = min ((data p).length - within) (total - done.length) := ⟨_, rfl⟩
        have hin := hhead p rfl
        have hle := h.length_le
        rw [hwith, Nat.add_sub_cancel_left]
        rcases hloop.step p (hmem p mem_cons_self) rest done within amount hlt
          (by rw [hwith, h.1]) (by omega) hamt with ⟨n, hn, hD, heq⟩ | heq
        · exact ⟨n, hD, by rw [heq, h.slice_head (by omega)]⟩
        rw [heq, ← h.slice_head (by omega)]
        have hlen : (done ++ slice bytes within amount).length = done.length + amount := by
          rw [length_append, length_slice (by omega)]
        split
        next hfull =>
          obtain ⟨n, hD, hrest⟩ := ih (done ++ slice bytes within amount) h.tail
            (fun q hq => hmem q (mem_cons_of_mem _ hq)) (by omega) (by omega)
            (by rw [length_drop]; omega) (by
              intro q hq
              have := h.tail.length_pos (mem_of_mem_head? hq)
              omega)
          refine ⟨amount + n, ?_, ?_⟩
          · have := hloop.add amount n _ (by omega) hD
            rwa [show amount + (total - (done ++ slice bytes within amount).length)
              = total - done.length by omega] at this
          · rw [hrest, slice_add, append_assoc, hlen,
              show pos + (done.length + amount) - (start + (data p).length) = 0 by omega, hfull]
            simp only [slice, drop_zero]
        next hfull =>
          refine ⟨amount, ?_, rfl⟩
          rw [show total - done.length = amount by omega]
          exact hloop.full amount
      · refine ⟨0, ?_, by rw [hloop.stop _ done (by omega)]; simp⟩
        rw [show total - done.length = 0 by omega]
        exact hloop.full 0

/-- A copy that starts with the piece that contains `pos`. -/
theorem CopyLoop.copy {front rest : List π} (hall : all = front ++ p :: rest)
    (h : Tiles offset data 0 all bytes) (hlo : offset p ≤ pos)
    (hhi : pos < offset p + (data p).length) (hend : pos + total ≤ bytes.length) :
    ∃ n, D n total ∧ loop (p :: rest) [] = .ok (slice bytes pos n) := by
  rw [hall] at h
  obtain ⟨before, after, rfl, -, hafter⟩ := tiles_append_iff.mp h
  have hstart : offset p = 0 + before.length := hafter.1
  rw [length_append] at hend
  obtain ⟨n, hD, heq⟩ := hloop.copy_from [] hafter (fun q hq => by simp_all)
    (Nat.zero_le _) (by simp only [length_nil]; omega) (by omega) (by
      rintro _ ⟨⟩
      simp only [length_nil]
      omega)
  refine ⟨n, hD, ?_⟩
  obtain ⟨d, rfl⟩ : ∃ d, pos = before.length + d := ⟨pos - before.length, by omega⟩
  rw [heq, slice_append_right]
  simp

end

end Pieces
