import Mathlib.Order.Bounds.Basic

/-! # The covered prefix of a line

Intervals of a line are done one by one and in any order, and a mark stands at the end of the
longest prefix that they cover.  An interval is a start with a size.  `Tracks done mark pending`
says that the mark is right for the intervals in `done`, and that `pending` are those of them that
lie past the mark.

* `insertOrAssign` and `advance` are a map from starts to sizes and the loop that moves the mark
  over it; `Tracks.insert` says that together they keep track of one more interval.
* `Tracks.isGreatest`: the mark is the length of the longest covered prefix. -/

namespace PrefixTracking

open List

/-- The interval with this start, in place of any other. -/
def insertOrAssign (start size : ℕ) (segments : List (ℕ × ℕ)) : List (ℕ × ℕ) :=
  segments.filter (·.1 ≠ start) ++ [(start, size)]

/-- Move a mark over the intervals that start at it, as often as `fuel` says. -/
def advance : ℕ → ℕ → List (ℕ × ℕ) → ℕ × List (ℕ × ℕ)
  | 0, mark, segments => (mark, segments)
  | fuel + 1, mark, segments =>
      match segments.lookup mark with
      | none => (mark, segments)
      | some size => advance fuel (mark + size) (segments.filter (·.1 ≠ mark))

theorem lookup_of_mem {α β : Type} [BEq α] [LawfulBEq α] {entries : List (α × β)}
    (hnodup : (entries.map Prod.fst).Nodup) {key : α} {value : β}
    (hmem : (key, value) ∈ entries) : entries.lookup key = some value := by
  obtain ⟨front, rest, rfl⟩ := append_of_mem hmem
  refine lookup_eq_some_iff.mpr ⟨front, rest, rfl, fun other hoth => ?_⟩
  rw [map_append, map_cons] at hnodup
  have hne := (nodup_append.mp hnodup).2.2 other.1 (mem_map_of_mem hoth) key mem_cons_self
  simpa using hne.symm

/-- A place lies in an interval. -/
def Covers (segment : ℕ × ℕ) (place : ℕ) : Prop :=
  segment.1 ≤ place ∧ place < segment.1 + segment.2

/-- `pending` are the intervals of `done` that start at the mark or after it; the others end at the
mark or before it and cover everything there. -/
structure Follows (done : List (ℕ × ℕ)) (mark : ℕ) (pending : List (ℕ × ℕ)) : Prop where
  size_pos : ∀ segment ∈ done, 0 < segment.2
  apart : ∀ a ∈ done, ∀ b ∈ done, a.1 < b.1 → a.1 + a.2 ≤ b.1
  covered : ∀ place < mark, ∃ segment ∈ done, Covers segment place
  ends : ∀ segment ∈ done, segment.1 < mark → segment.1 + segment.2 ≤ mark
  mem_pending : ∀ segment, segment ∈ pending ↔ segment ∈ done ∧ mark ≤ segment.1
  starts : ∀ a ∈ pending, ∀ b ∈ pending, a.1 = b.1 → a = b

/-- The mark is where it belongs. -/
structure Tracks (done : List (ℕ × ℕ)) (mark : ℕ) (pending : List (ℕ × ℕ)) : Prop
    extends Follows done mark pending where
  stopped : ∀ segment ∈ pending, segment.1 ≠ mark

variable {done pending : List (ℕ × ℕ)} {mark : ℕ}

theorem tracks_nil : Tracks [] 0 [] where
  size_pos := by simp
  apart := by simp
  covered := by simp
  ends := by simp
  mem_pending := by simp
  starts := by simp
  stopped := by simp

theorem Tracks.congr {done' : List (ℕ × ℕ)} (h : Tracks done mark pending)
    (hdone : ∀ segment, segment ∈ done' ↔ segment ∈ done) : Tracks done' mark pending where
  size_pos segment hseg := h.size_pos segment ((hdone segment).mp hseg)
  apart a ha b hb := h.apart a ((hdone a).mp ha) b ((hdone b).mp hb)
  covered place hplace := by
    obtain ⟨segment, hseg, hcov⟩ := h.covered place hplace
    exact ⟨segment, (hdone segment).mpr hseg, hcov⟩
  ends segment hseg := h.ends segment ((hdone segment).mp hseg)
  mem_pending segment := by rw [h.mem_pending, hdone]
  starts := h.starts
  stopped := h.stopped

/-- The mark is the length of the longest covered prefix. -/
theorem Tracks.isGreatest (h : Tracks done mark pending) :
    IsGreatest {n | ∀ place < n, ∃ segment ∈ done, Covers segment place} mark := by
  refine ⟨h.covered, fun n hn => ?_⟩
  by_contra hlt
  obtain ⟨segment, hmem, hstart, hend⟩ := hn mark (Nat.lt_of_not_le hlt)
  rcases Nat.lt_or_eq_of_le hstart with hlow | heq
  · exact absurd (h.ends segment hmem hlow) (not_le.mpr hend)
  · exact h.stopped segment ((h.mem_pending segment).mpr ⟨hmem, heq.ge⟩) heq

/-- Moving the mark over the interval that starts at it. -/
theorem Follows.move (h : Follows done mark pending) {size : ℕ} (hmem : (mark, size) ∈ pending) :
    Follows done (mark + size) (pending.filter (·.1 ≠ mark)) := by
  obtain ⟨hdone, -⟩ := (h.mem_pending _).mp hmem
  have hpos : 0 < size := h.size_pos _ hdone
  have hapart : ∀ segment ∈ done, mark < segment.1 → mark + size ≤ segment.1 :=
    fun segment hseg hlt => h.apart (mark, size) hdone segment hseg hlt
  refine ⟨h.size_pos, h.apart, ?_, ?_, ?_, ?_⟩
  · intro place hplace
    by_cases hlow : place < mark
    · exact h.covered place hlow
    · exact ⟨(mark, size), hdone, Nat.le_of_not_lt hlow, hplace⟩
  · intro segment hseg hlt
    rcases Nat.lt_trichotomy segment.1 mark with hlow | heq | hhigh
    · exact le_trans (h.ends segment hseg hlow) (Nat.le_add_right _ _)
    · have hpend := (h.mem_pending segment).mpr ⟨hseg, heq.ge⟩
      rw [h.starts segment hpend _ hmem heq]
    · exact absurd (hapart segment hseg hhigh) (not_le.mpr hlt)
  · intro segment
    rw [mem_filter, h.mem_pending, decide_eq_true_iff]
    constructor
    · rintro ⟨⟨hseg, hle⟩, hne⟩
      exact ⟨hseg, hapart segment hseg (Nat.lt_of_le_of_ne hle (Ne.symm hne))⟩
    · rintro ⟨hseg, hle⟩
      exact ⟨⟨hseg, by omega⟩, by omega⟩
  · intro a ha b hb
    exact h.starts a (mem_filter.mp ha).1 b (mem_filter.mp hb).1

theorem Follows.advance (h : Follows done mark pending) {fuel : ℕ} (hfuel : pending.length ≤ fuel) :
    Tracks done (PrefixTracking.advance fuel mark pending).1
      (PrefixTracking.advance fuel mark pending).2 := by
  induction fuel generalizing mark pending with
  | zero =>
      obtain rfl : pending = [] := eq_nil_of_length_eq_zero (Nat.le_zero.mp hfuel)
      exact ⟨h, fun segment hseg => by cases hseg⟩
  | succ fuel ih =>
      rw [PrefixTracking.advance]
      cases hlookup : pending.lookup mark with
      | none =>
          refine ⟨h, fun segment hseg heq => ?_⟩
          have hne := lookup_eq_none_iff.mp hlookup segment hseg
          simp [heq] at hne
      | some size =>
          obtain ⟨front, rest, hsplit, -⟩ := lookup_eq_some_iff.mp hlookup
          have hmem : (mark, size) ∈ pending := by
            rw [hsplit]
            exact mem_append_right _ mem_cons_self
          refine ih (h.move hmem) ?_
          have hshorter : (pending.filter (·.1 ≠ mark)).length < pending.length :=
            length_filter_lt_length_iff_exists.mpr ⟨_, hmem, by simp⟩
          omega

theorem Tracks.insert (h : Tracks done mark pending) {start size : ℕ} (hpos : 0 < size)
    (hapart : ∀ segment ∈ done, segment.1 + segment.2 ≤ start ∨ start + size ≤ segment.1) :
    Tracks (done ++ [(start, size)])
      (PrefixTracking.advance (insertOrAssign start size pending).length mark
        (insertOrAssign start size pending)).1
      (PrefixTracking.advance (insertOrAssign start size pending).length mark
        (insertOrAssign start size pending)).2 := by
  have hmark : mark ≤ start := by
    by_contra hlt
    obtain ⟨segment, hseg, hle, hlt'⟩ := h.covered start (Nat.lt_of_not_le hlt)
    rcases hapart segment hseg with hbef | hafter
    · omega
    · omega
  have hnew : ∀ segment ∈ pending, segment.1 ≠ start := by
    intro segment hseg heq
    obtain ⟨hdone, -⟩ := (h.mem_pending segment).mp hseg
    have hsize := h.size_pos segment hdone
    rcases hapart segment hdone with hbef | hafter
    · omega
    · omega
  have hkept : insertOrAssign start size pending = pending ++ [(start, size)] := by
    rw [insertOrAssign, filter_eq_self.mpr fun segment hseg => ?_]
    exact decide_eq_true (hnew segment hseg)
  refine Follows.advance ?_ (le_refl _)
  rw [hkept]
  refine ⟨?_, ?_, ?_, ?_, ?_, ?_⟩
  · exact forall_mem_append.mpr ⟨h.size_pos, forall_mem_singleton.mpr hpos⟩
  · intro a ha b hb hlt
    rcases mem_append.mp ha with ha | ha <;> rcases mem_append.mp hb with hb | hb
    · exact h.apart a ha b hb hlt
    · rw [mem_singleton.mp hb] at hlt ⊢
      have hsize := h.size_pos a ha
      rcases hapart a ha with hbef | hafter
      · exact hbef
      · dsimp only at hlt
        omega
    · rw [mem_singleton.mp ha] at hlt ⊢
      have hsize := h.size_pos b hb
      rcases hapart b hb with hbef | hafter
      · dsimp only at hlt
        omega
      · exact hafter
    · rw [mem_singleton.mp ha, mem_singleton.mp hb] at hlt
      exact absurd hlt (lt_irrefl _)
  · intro place hplace
    obtain ⟨segment, hseg, hcov⟩ := h.covered place hplace
    exact ⟨segment, mem_append_left _ hseg, hcov⟩
  · intro segment hseg hlt
    rcases mem_append.mp hseg with hold | hlast
    · exact h.ends segment hold hlt
    · rw [mem_singleton.mp hlast] at hlt
      exact absurd hmark (not_le.mpr hlt)
  · intro segment
    rw [mem_append, mem_append, h.mem_pending, mem_singleton]
    constructor
    · rintro (⟨hold, hle⟩ | rfl)
      · exact ⟨.inl hold, hle⟩
      · exact ⟨.inr rfl, hmark⟩
    · rintro ⟨hold | rfl, hle⟩
      · exact .inl ⟨hold, hle⟩
      · exact .inr rfl
  · intro a ha b hb heq
    rcases mem_append.mp ha with ha | ha <;> rcases mem_append.mp hb with hb | hb
    · exact h.starts a ha b hb heq
    · rw [mem_singleton.mp hb] at heq
      exact absurd heq (hnew a ha)
    · rw [mem_singleton.mp ha] at heq
      exact absurd heq.symm (hnew b hb)
    · rw [mem_singleton.mp ha, mem_singleton.mp hb]

end PrefixTracking
