import KairosBoot.ByteSlices

/-! # Regions on an empty canvas

Regions with an offset and contents are laid out on a canvas of zeros.  `Laid cursor rs finish`
says that the regions follow one another from `cursor` without overlap and end before `finish`;
`paint cursor rs finish` is the canvas between the two positions.  The contents of every region
can be read back from the canvas (`Laid.slice_paint`). -/

namespace Regions

open ByteLib

variable {π : Type} {offset : π → ℕ} {data : π → Bytes}

/-- The regions follow one another between the two positions. -/
def Laid (offset : π → ℕ) (data : π → Bytes) : ℕ → List π → ℕ → Prop
  | cursor, [], finish => cursor ≤ finish
  | cursor, r :: rs, finish =>
      cursor ≤ offset r ∧ Laid offset data (offset r + (data r).length) rs finish

/-- The canvas between the two positions. -/
def paint (offset : π → ℕ) (data : π → Bytes) : ℕ → List π → ℕ → Bytes
  | cursor, [], finish => List.replicate (finish - cursor) 0
  | cursor, r :: rs, finish =>
      List.replicate (offset r - cursor) 0 ++
        (data r ++ paint offset data (offset r + (data r).length) rs finish)

variable {cursor finish : ℕ} {rs : List π}

section

variable (h : Laid offset data cursor rs finish)
include h

theorem Laid.le : cursor ≤ finish := by
  induction rs generalizing cursor with
  | nil => exact h
  | cons r rs ih =>
      have := ih h.2
      have := h.1
      omega

theorem Laid.mono {finish' : ℕ} (hle : finish ≤ finish') : Laid offset data cursor rs finish' := by
  induction rs generalizing cursor with
  | nil => exact le_trans h hle
  | cons r rs ih => exact ⟨h.1, ih h.2⟩

theorem Laid.bounds {r : π} (hm : r ∈ rs) :
    cursor ≤ offset r ∧ offset r + (data r).length ≤ finish := by
  induction rs generalizing cursor with
  | nil => simp at hm
  | cons q rs ih =>
      rcases List.mem_cons.mp hm with rfl | hm
      · exact ⟨h.1, h.2.le⟩
      · have := ih h.2 hm
        have := h.1
        omega

theorem Laid.slice_paint {r : π} (hm : r ∈ rs) :
    slice (paint offset data cursor rs finish) (offset r - cursor) (data r).length = data r := by
  induction rs generalizing cursor with
  | nil => simp at hm
  | cons q rs ih =>
      rcases List.mem_cons.mp hm with rfl | hm
      · exact slice_middle (by simp) rfl
      · have hb := h.2.bounds hm
        have hq := h.1
        have hsplit : offset r - cursor
            = (List.replicate (offset q - cursor) (0 : UInt8) ++ data q).length
              + (offset r - (offset q + (data q).length)) := by
          simp only [List.length_append, List.length_replicate]
          omega
        rw [paint, ← List.append_assoc, hsplit, slice_append_right]
        exact ih h.2 hm

theorem Laid.pairwise : rs.Pairwise fun a b => offset a + (data a).length ≤ offset b := by
  induction rs generalizing cursor with
  | nil => exact List.Pairwise.nil
  | cons r rs ih =>
      exact List.Pairwise.cons (fun q hq => (h.2.bounds hq).1) (ih h.2)

end

end Regions
