import KairosBoot.ByteSlices
import KairosBoot.Guards

/-! # Tables of fixed-size records

`records bytes off count size` cuts `count` records of `size` bytes out of a byte string.  A table
that was written record by record is read back as the list of its records
(`records_flatMap`), and decoding the records one by one gives back what was encoded
(`mapM_map_eq_ok`).  What holds of every record that decodes holds of the decoded list
(`mapM_ok_forall`).  `foldlM_decoded` is the same for a loop that appends the records it has
decoded. -/

namespace ByteLib

open Guards List

variable {α β ε : Type}

/-- `count` records of `size` bytes from `off` on. -/
def records (bytes : List β) (off count size : ℕ) : List (List β) :=
  (List.range count).map fun index => slice bytes (off + index * size) size

theorem records_succ (bytes : List β) (off count size : ℕ) :
    records bytes off (count + 1) size
      = slice bytes off size :: records bytes (off + size) count size := by
  unfold records
  rw [range_succ_eq_map, map_cons, map_map]
  congr 1
  · simp
  · refine map_congr_left fun index _ => ?_
    simp only [Function.comp_apply, Nat.succ_mul]
    congr 1
    omega

variable {size off : ℕ}

theorem length_flatMap_const {f : α → List β} {l : List α} (hlen : ∀ x ∈ l, (f x).length = size) :
    (l.flatMap f).length = l.length * size := by
  induction l with
  | nil => simp
  | cons x xs ih =>
      obtain ⟨hx, hxs⟩ := forall_mem_cons.mp hlen
      rw [flatMap_cons, length_append, hx, ih hxs, length_cons, Nat.succ_mul, add_comm]

theorem records_flatMap {f : α → List β} {l : List α} (hlen : ∀ x ∈ l, (f x).length = size)
    (before after : List β) (hoff : before.length = off) :
    records (before ++ (l.flatMap f ++ after)) off l.length size = l.map f := by
  induction l generalizing before off with
  | nil => rfl
  | cons x xs ih =>
      obtain ⟨hx, hxs⟩ := forall_mem_cons.mp hlen
      rw [length_cons, records_succ, map_cons, flatMap_cons, append_assoc]
      congr 1
      · exact slice_middle hoff hx
      · have hnext := ih hxs (before ++ f x)
          (by simp [hoff, hx] : (before ++ f x).length = off + size)
        rwa [append_assoc] at hnext

theorem records_of_slice {f : α → List β} {l : List α} (hlen : ∀ x ∈ l, (f x).length = size)
    {bytes after : List β} {len : ℕ} (hoff : off ≤ bytes.length)
    (h : slice bytes off len = l.flatMap f ++ after) :
    records bytes off l.length size = l.map f := by
  have hbytes : bytes = bytes.take off ++ (l.flatMap f ++ (after ++ bytes.drop (off + len))) := by
    rw [← append_assoc (l.flatMap f), ← h, slice, ← drop_drop, take_append_drop, take_append_drop]
  have hrecs := records_flatMap hlen (bytes.take off) (after ++ bytes.drop (off + len))
    (length_take_of_le hoff)
  rwa [← hbytes] at hrecs

theorem getElem?_records (bytes : List β) {count index : ℕ} (h : index < count) :
    (records bytes off count size)[index]? = some (slice bytes (off + index * size) size) := by
  rw [records, getElem?_map, getElem?_range h]
  rfl

theorem mapM_map_eq_ok {f : α → β} {g : β → Except ε α} {l : List α}
    (h : ∀ x ∈ l, g (f x) = .ok x) : (l.map f).mapM g = .ok l := by
  induction l with
  | nil => rfl
  | cons x xs ih =>
      obtain ⟨hx, hxs⟩ := forall_mem_cons.mp h
      rw [map_cons, mapM_cons, hx, ih hxs]
      rfl

theorem length_records (bytes : List β) (off count size : ℕ) :
    (records bytes off count size).length = count := by
  simp [records]

theorem length_of_mem_records {bytes record : List β} {count : ℕ}
    (hin : off + count * size ≤ bytes.length) (hm : record ∈ records bytes off count size) :
    record.length = size := by
  obtain ⟨index, hlt, rfl⟩ := mem_map.mp hm
  have hlast : (index + 1) * size ≤ count * size := Nat.mul_le_mul_right _ (mem_range.mp hlt)
  rw [Nat.succ_mul] at hlast
  exact length_slice (by omega)

theorem mapM_ok_forall {g : β → Except ε α} {l : List β} {out : List α} (h : l.mapM g = .ok out)
    {P : α → Prop} (hp : ∀ b ∈ l, ∀ a, g b = .ok a → P a) :
    out.length = l.length ∧ ∀ a ∈ out, P a := by
  induction l generalizing out with
  | nil =>
      cases h
      simp
  | cons b bs ih =>
      obtain ⟨hb, hbs⟩ := forall_mem_cons.mp hp
      rw [mapM_cons] at h
      obtain ⟨a, hgb, h⟩ := bind_eq_ok.mp h
      obtain ⟨rest, hrest, h⟩ := bind_eq_ok.mp h
      cases h
      obtain ⟨hlen, hall⟩ := ih hrest hbs
      exact ⟨by simp [hlen], forall_mem_cons.mpr ⟨hb a hgb, hall⟩⟩

section

variable {step : List α → β → Except ε (List α)}

/-- A loop that appends what it has decoded in every round. -/
theorem foldlM_decoded {g : β → Except ε α} {P : α → Prop}
    (hstep : ∀ {parsed b next}, step parsed b = .ok next →
      ∃ a, g b = .ok a ∧ next = parsed ++ [a] ∧ P a)
    {l : List β} {parsed result : List α} (h : l.foldlM step parsed = .ok result) :
    ∃ decoded, l.mapM g = .ok decoded ∧ result = parsed ++ decoded ∧ ∀ a ∈ decoded, P a := by
  induction l generalizing parsed with
  | nil =>
      cases h
      exact ⟨[], rfl, by simp, by simp⟩
  | cons b bs ih =>
      rw [foldlM_cons] at h
      obtain ⟨next, hnext, hrest⟩ := bind_eq_ok.mp h
      obtain ⟨a, ha, rfl, hp⟩ := hstep hnext
      obtain ⟨decoded, hdec, rfl, hall⟩ := ih hrest
      refine ⟨a :: decoded, ?_, by simp, forall_mem_cons.mpr ⟨hp, hall⟩⟩
      rw [mapM_cons, ha, hdec]
      rfl

end

theorem overwrite_middle {a b b' c : List α} (ha : a.length = off) (hb : b'.length = b.length) :
    overwrite (a ++ (b ++ c)) off b' = a ++ (b' ++ c) := by
  subst ha
  unfold overwrite
  rw [take_left, ← drop_drop, drop_left, hb, drop_left]

end ByteLib
