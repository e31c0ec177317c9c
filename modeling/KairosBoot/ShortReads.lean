import KairosBoot.ByteSlices

/-! # Completing short reads

A reader answers a request `(offset, length)` with an error or with some bytes, possibly fewer
than asked.  `readLoop` asks again for the missing tail until the request is complete; it stops
at an error, at an answer that is too long and at an empty one.

`Serves read bytes` says that every request for a non-empty window inside `bytes` is answered
by a non-empty part of the window's beginning; nothing is said about other requests.  Against
such a reader the loop returns exactly the window (`readLoop_eq`). -/

namespace ByteLib

/-- Why a request could not be completed, with the offset of the failing call. -/
inductive ReadFault (ε : Type) where
  | failed (offset : ℕ) (error : ε)
  | excess (offset : ℕ)
  | stalled (offset : ℕ)
  deriving DecidableEq, Repr

variable {ε : Type}

/-- Repeat `read` until `total` bytes from `offset` are there; `done` holds the bytes read so
far and `fuel` is at least the number of bytes still missing. -/
def readLoop (read : ℕ → ℕ → Except ε Bytes) (offset total : ℕ) :
    ℕ → Bytes → Except (ReadFault ε) Bytes
  | 0, done => .ok done
  | fuel + 1, done =>
      if done.length < total then
        match read (offset + done.length) (total - done.length) with
        | .error e => .error (.failed (offset + done.length) e)
        | .ok got =>
            if total - done.length < got.length then .error (.excess (offset + done.length))
            else if got.length = 0 then .error (.stalled (offset + done.length))
            else readLoop read offset total fuel (done ++ got)
      else .ok done

/-- Every window inside `bytes` can be read, a non-empty part at a time. -/
def Serves (read : ℕ → ℕ → Except ε Bytes) (bytes : Bytes) : Prop :=
  ∀ off len, 0 < len → off + len ≤ bytes.length →
    ∃ n, 0 < n ∧ n ≤ len ∧ read off len = .ok (slice bytes off n)

theorem serves_slice (bytes : Bytes) :
    Serves (fun off len => (.ok (slice bytes off len) : Except ε Bytes)) bytes :=
  fun _ len h _ => ⟨len, h, le_rfl, rfl⟩

/-- A loop that appends a part of what is missing in every round completes the request. -/
theorem fill_eq {loop : ℕ → Bytes → Except ε Bytes} {bytes : Bytes}
    {offset total : ℕ} (hle : offset + total ≤ bytes.length)
    (hstop : ∀ fuel done, done.length = total → loop fuel done = .ok done)
    (hstep : ∀ fuel done, done.length < total → ∃ n, 0 < n ∧ n ≤ total - done.length ∧
      loop (fuel + 1) done = loop fuel (done ++ slice bytes (offset + done.length) n)) :
    loop total [] = .ok (slice bytes offset total) := by
  have hfill : ∀ fuel k, k ≤ total → total - k ≤ fuel →
      loop fuel (slice bytes offset k) = .ok (slice bytes offset total) := by
    intro fuel
    induction fuel with
    | zero =>
        intro k hk hfuel
        obtain rfl : k = total := by omega
        exact hstop 0 _ (length_slice hle)
    | succ fuel ih =>
        intro k hk hfuel
        have hlen : (slice bytes offset k).length = k := length_slice (by omega)
        rcases hk.lt_or_eq with hlt | rfl
        · obtain ⟨n, hpos, hn, heq⟩ := hstep fuel (slice bytes offset k) (by omega)
          rw [hlen] at hn heq
          rw [heq, ← slice_add]
          exact ih _ (by omega) (by omega)
        · exact hstop _ _ hlen
  have hall := hfill total 0 (Nat.zero_le _) (Nat.sub_le _ _)
  rwa [slice_zero_len] at hall

/-- A served request is completed with the requested window. -/
theorem readLoop_eq {read : ℕ → ℕ → Except ε Bytes} {bytes : Bytes}
    (h : Serves read bytes) {offset total : ℕ} (hle : offset + total ≤ bytes.length) :
    readLoop read offset total total [] = .ok (slice bytes offset total) := by
  refine fill_eq hle (fun fuel done hlen => ?_) fun fuel done hlt => ?_
  · cases fuel with
    | zero => rfl
    | succ fuel => rw [readLoop, if_neg hlen.not_lt]
  · obtain ⟨n, hn, hnk, hread⟩ := h (offset + done.length) (total - done.length) (by omega) (by omega)
    have hgot : (slice bytes (offset + done.length) n).length = n := length_slice (by omega)
    refine ⟨n, hn, hnk, ?_⟩
    rw [readLoop, if_pos hlt, hread]
    simp only [hgot]
    rw [if_neg (by omega), if_neg (by omega)]

end ByteLib
