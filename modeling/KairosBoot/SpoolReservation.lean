import Mathlib.Algebra.Order.BigOperators.Group.Finset
import KairosBoot.ImageSource

/-! # Reservations of spool space

`SpoolReservation` of `artifact_source.cpp`: a resolver counts the bytes that its calls have
reserved on the temporary disk, those of them whose spools are complete, and the smallest capacity
that it has observed.  The free space is queried without the lock, so an answer may be old when
`acquire` adds the completed bytes of a later time to it.

The calls of a resolver run in any order of their locked steps, queries and writes (`SpoolSystem`).
Nothing is complete when the first answer is used, and the observed capacity only decreases, so it
is never more than the capacity of the disk (`spool_never_overcommits`). -/

namespace KairosBoot

/-! ### Reservations -/

inductive ArtifactSourceErrorKind where
  | invalidArgument | notFound | unsafePath | invalidArchive | unsupportedFeature | limitExceeded
  | integrity | io | cancelled | timedOut | invalidImage
  deriving DecidableEq, Repr

structure ArtifactSourceError where
  kind : ArtifactSourceErrorKind
  message : String
  nativeCode : ℤ := 0
  deriving DecidableEq, Repr

/-- The limits that a reservation reads. -/
structure SpoolLimits where
  maxSpoolBytes : ℕ
  minimumFreeSpaceBytes : ℕ := 0
  deriving DecidableEq, Repr

/-- The counters of a resolver, which `cache_mutex_` protects. -/
structure SpoolCounters where
  reservedBytes : ℕ := 0
  completedBytes : ℕ := 0
  observedCapacity : Option ℕ := none
  deriving DecidableEq, Repr

namespace SpoolReservation

/-- The check of `acquire` before the query. -/
def checkSize (limits : SpoolLimits) (expectedSize : ℕ) : Except ArtifactSourceError Unit :=
  if limits.maxSpoolBytes < expectedSize then
    .error ⟨.limitExceeded, "artifact exceeds the configured spool byte budget", 0⟩
  else .ok ()

/-- The locked part of `acquire`, with the answer to the query before it. -/
def acquireLocked (limits : SpoolLimits) (expectedSize available : ℕ) (c : SpoolCounters) :
    Except ArtifactSourceError Unit × SpoolCounters :=
  if uint64Max - c.completedBytes < available then
    (.error ⟨.limitExceeded, "artifact disk-space capacity overflows uint64", 0⟩, c)
  else
    let current := available + c.completedBytes
    let observed := c.observedCapacity.elim current fun o => if current < o then current else o
    let c := { c with observedCapacity := some observed }
    if uint64Max - c.reservedBytes < expectedSize ∨
        limits.maxSpoolBytes < c.reservedBytes + expectedSize ∨
        uint64Max - c.reservedBytes - expectedSize < limits.minimumFreeSpaceBytes then
      (.error ⟨.limitExceeded, "artifact batch spool reservation exceeds its configured limit", 0⟩,
        c)
    else if observed < c.reservedBytes + expectedSize + limits.minimumFreeSpaceBytes then
      (.error ⟨.limitExceeded,
        "temporary disk has insufficient batch space for the artifact spool", 0⟩, c)
    else (.ok (), { c with reservedBytes := c.reservedBytes + expectedSize })

/-- `complete_locked` of a held reservation. -/
def completeLocked (size : ℕ) (c : SpoolCounters) : SpoolCounters :=
  { c with completedBytes := (c.completedBytes + size) % 2 ^ 64 }

/-- `release_locked` of a held reservation. -/
def releaseLocked (size : ℕ) (c : SpoolCounters) : SpoolCounters :=
  { c with reservedBytes := if size ≤ c.reservedBytes then c.reservedBytes - size else 0 }

end SpoolReservation

/-! ### The calls of a resolver -/

/-- Where a call is: what it wants and was told about the disk, or its reservation and what its
spool has on the disk. -/
inductive SpoolPhase where
  | idle
  | queried (size available : ℕ)
  | held (size written : ℕ)
  | discarded (size : ℕ)
  | completed (size written : ℕ)
  deriving DecidableEq, Repr

namespace SpoolPhase

def written : SpoolPhase → ℕ
  | .held _ written | .completed _ written => written
  | _ => 0

def heldBytes : SpoolPhase → ℕ
  | .held size _ | .discarded size => size
  | _ => 0

def completedBytes : SpoolPhase → ℕ
  | .completed size _ => size
  | _ => 0

def reservedBytes : SpoolPhase → ℕ
  | .held size _ | .discarded size | .completed size _ => size
  | _ => 0

theorem reservedBytes_eq (p : SpoolPhase) : p.reservedBytes = p.heldBytes + p.completedBytes := by
  cases p <;> simp [reservedBytes, heldBytes, completedBytes]

end SpoolPhase

structure SpoolSystem (ι : Type) where
  counters : SpoolCounters := {}
  phase : ι → SpoolPhase := fun _ => .idle

inductive SpoolStep (ι : Type) where
  | query (call : ι) (size : ℕ)
  | acquire (call : ι)
  | write (call : ι) (count : ℕ)
  | complete (call : ι)
  | discard (call : ι)
  | release (call : ι)

namespace SpoolSystem

open SpoolReservation

variable {ι : Type} [Fintype ι] [DecidableEq ι] {limits : SpoolLimits} {capacity : ℕ}
  {s : SpoolSystem ι}

/-- The bytes that all spools have on the disk. -/
def written (s : SpoolSystem ι) : ℕ := ∑ i, (s.phase i).written

def set (s : SpoolSystem ι) (call : ι) (phase : SpoolPhase) (counters : SpoolCounters) :
    SpoolSystem ι :=
  ⟨counters, Function.update s.phase call phase⟩

/-- A step of a call; one that the call cannot take leaves everything as it is.  A spool is written
within its reservation, and it is deleted before the reservation of a failed call is released. -/
def step (limits : SpoolLimits) (capacity : ℕ) (s : SpoolSystem ι) : SpoolStep ι → SpoolSystem ι
  | .query call size => match s.phase call with
      | .idle => if checkSize limits size = .ok () then
            s.set call (.queried size (capacity - s.written)) s.counters
          else s
      | _ => s
  | .acquire call => match s.phase call with
      | .queried size available =>
          let acquired := acquireLocked limits size available s.counters
          s.set call (if acquired.1 = .ok () then .held size 0 else .idle) acquired.2
      | _ => s
  | .write call count => match s.phase call with
      | .held size written => if size < written + count then s
          else s.set call (.held size (written + count)) s.counters
      | _ => s
  | .complete call => match s.phase call with
      | .held size written =>
          s.set call (.completed size written) (completeLocked size s.counters)
      | _ => s
  | .discard call => match s.phase call with
      | .held size _ => s.set call (.discarded size) s.counters
      | _ => s
  | .release call => match s.phase call with
      | .discarded size => s.set call .idle (releaseLocked size s.counters)
      | _ => s

/-- A resolver after steps of its calls. -/
def run (limits : SpoolLimits) (capacity : ℕ) (steps : List (SpoolStep ι)) : SpoolSystem ι :=
  steps.foldl (step limits capacity) {}

/-! ### What every step keeps -/

/-- The counters are within the limits and the capacity of the disk. -/
structure Within (limits : SpoolLimits) (capacity : ℕ) (c : SpoolCounters) : Prop where
  reserved_le : c.reservedBytes ≤ limits.maxSpoolBytes
  reserved_fits : c.reservedBytes ≤ uint64Max
  observed_le : ∀ observed, c.observedCapacity = some observed → observed ≤ capacity
  unobserved : c.observedCapacity = none → c.reservedBytes = 0
  free : c.reservedBytes ≠ 0 → c.reservedBytes + limits.minimumFreeSpaceBytes ≤ capacity

/-- The counters are those of the calls, and no spool is larger than its reservation. -/
structure Sound (limits : SpoolLimits) (capacity : ℕ) (s : SpoolSystem ι) : Prop where
  within : Within limits capacity s.counters
  reserved_eq : s.counters.reservedBytes = ∑ i, (s.phase i).reservedBytes
  completed_eq : s.counters.completedBytes = ∑ i, (s.phase i).completedBytes
  written_le : ∀ i, (s.phase i).written ≤ (s.phase i).reservedBytes
  available_le : ∀ i size available, s.phase i = .queried size available → available ≤ capacity

theorem sum_update (f : SpoolPhase → ℕ) (phase : ι → SpoolPhase) (i : ι) (p : SpoolPhase) :
    ∑ j, f (Function.update phase i p j) + f (phase i) = ∑ j, f (phase j) + f p := by
  have hrest : ∑ j ∈ Finset.univ.erase i, f (Function.update phase i p j)
      = ∑ j ∈ Finset.univ.erase i, f (phase j) := by
    refine Finset.sum_congr rfl fun j hj => ?_
    rw [Function.update_of_ne (Finset.ne_of_mem_erase hj)]
  rw [← Finset.add_sum_erase _ _ (Finset.mem_univ i), hrest, Function.update_self,
    ← Finset.add_sum_erase _ (fun j => f (phase j)) (Finset.mem_univ i)]
  omega

omit [DecidableEq ι] in
theorem Sound.split (h : Sound limits capacity s) : s.counters.reservedBytes
    = ∑ i, (s.phase i).heldBytes + s.counters.completedBytes := by
  rw [h.reserved_eq, h.completed_eq, ← Finset.sum_add_distrib]
  exact Finset.sum_congr rfl fun i _ => (s.phase i).reservedBytes_eq

omit [DecidableEq ι] in
theorem Sound.held_le (h : Sound limits capacity s) {i : ι} {p : SpoolPhase} (hph : s.phase i = p) :
    p.heldBytes + s.counters.completedBytes ≤ s.counters.reservedBytes := by
  have hle := Finset.single_le_sum (f := fun i => (s.phase i).heldBytes) (fun _ _ => Nat.zero_le _)
    (Finset.mem_univ i)
  rw [h.split, ← hph]
  exact Nat.add_le_add_right hle _

theorem Sound.set (h : Sound limits capacity s) {i : ι} {q p : SpoolPhase}
    (hph : s.phase i = q) {c : SpoolCounters} (hwith : Within limits capacity c)
    (hresv : c.reservedBytes + q.reservedBytes = s.counters.reservedBytes + p.reservedBytes)
    (hcomp : c.completedBytes + q.completedBytes = s.counters.completedBytes + p.completedBytes)
    (hwrit : p.written ≤ p.reservedBytes)
    (havail : ∀ size available, p = .queried size available → available ≤ capacity) :
    Sound limits capacity (s.set i p c) where
  within := hwith
  reserved_eq := by
    have hsum := sum_update SpoolPhase.reservedBytes s.phase i p
    rw [← h.reserved_eq, hph] at hsum
    show c.reservedBytes = ∑ j, (Function.update s.phase i p j).reservedBytes
    omega
  completed_eq := by
    have hsum := sum_update SpoolPhase.completedBytes s.phase i p
    rw [← h.completed_eq, hph] at hsum
    show c.completedBytes = ∑ j, (Function.update s.phase i p j).completedBytes
    omega
  written_le := (Function.forall_update_iff s.phase fun _ q => q.written ≤ q.reservedBytes).mpr
    ⟨hwrit, fun j _ => h.written_le j⟩
  available_le := (Function.forall_update_iff s.phase fun _ q => ∀ size available,
      q = .queried size available → available ≤ capacity).mpr
    ⟨havail, fun j _ => h.available_le j⟩

/-- What `acquire` does to the counters; a grant leaves the minimum of free space. -/
structure Acquired (limits : SpoolLimits) (capacity size : ℕ) (c : SpoolCounters)
    (r : Except ArtifactSourceError Unit) (c' : SpoolCounters) : Prop where
  within : Within limits capacity c'
  completed_eq : c'.completedBytes = c.completedBytes
  granted : r = .ok () → c'.reservedBytes = c.reservedBytes + size ∧
    c'.reservedBytes + limits.minimumFreeSpaceBytes ≤ capacity
  refused : r ≠ .ok () → c'.reservedBytes = c.reservedBytes

theorem acquireLocked_acquired {c : SpoolCounters} (h : Within limits capacity c)
    (hcomp : c.completedBytes ≤ c.reservedBytes) {size available : ℕ}
    (havail : available ≤ capacity) : Acquired limits capacity size c
      (acquireLocked limits size available c).1 (acquireLocked limits size available c).2 := by
  obtain ⟨hlim, hfits, hobs, hunobs, hfree⟩ := h
  -- before the first observation nothing is reserved, so nothing is complete
  have hcap : c.observedCapacity.elim (available + c.completedBytes) (fun o =>
      if available + c.completedBytes < o then available + c.completedBytes else o) ≤ capacity := by
    cases hc : c.observedCapacity with
    | none =>
        have hzero := hunobs hc
        show available + c.completedBytes ≤ capacity
        omega
    | some o =>
        have ho := hobs o hc
        rw [Option.elim_some]
        split_ifs <;> omega
  unfold acquireLocked
  split_ifs with hoverflow
  · exact ⟨⟨hlim, hfits, hobs, hunobs, hfree⟩, rfl, nofun, fun _ => rfl⟩
  dsimp only
  generalize c.observedCapacity.elim _ _ = observed at hcap ⊢
  have hsame : Within limits capacity { c with observedCapacity := some observed } :=
    ⟨hlim, hfits, fun o ho => Option.some.inj ho ▸ hcap, nofun, hfree⟩
  split_ifs with hconf hspace
  · exact ⟨hsame, rfl, nofun, fun _ => rfl⟩
  · exact ⟨hsame, rfl, nofun, fun _ => rfl⟩
  · push Not at hconf hspace
    have hleft : c.reservedBytes + size + limits.minimumFreeSpaceBytes ≤ capacity := by omega
    refine ⟨⟨hconf.2.1, ?_, hsame.observed_le, nofun, fun _ => hleft⟩, rfl,
      fun _ => ⟨rfl, hleft⟩, fun hne => absurd rfl hne⟩
    show c.reservedBytes + size ≤ uint64Max
    omega

theorem Sound.step (h : Sound limits capacity s) (move : SpoolStep ι) :
    Sound limits capacity (s.step limits capacity move) := by
  have hfits := h.within.reserved_fits
  have hfree := h.within.free
  cases move with
  | query call size =>
      cases hph : s.phase call <;> simp only [SpoolSystem.step, hph] <;> try exact h
      split_ifs
      · refine h.set hph h.within rfl rfl (le_refl 0) ?_
        rintro size available ⟨rfl, rfl⟩
        exact Nat.sub_le _ _
      · exact h
  | acquire call =>
      cases hph : s.phase call <;> simp only [SpoolSystem.step, hph] <;> try exact h
      rename_i size available
      obtain ⟨hwith, hsame, hgr, href⟩ := @acquireLocked_acquired limits capacity
        s.counters h.within (h.split ▸ Nat.le_add_left _ _) size available
        (h.available_le call size available hph)
      split_ifs with hok
      · exact h.set hph hwith (hgr hok).1 hsame (Nat.zero_le _) nofun
      · exact h.set hph hwith (href hok) hsame (Nat.zero_le _) nofun
  | write call count =>
      cases hph : s.phase call <;> simp only [SpoolSystem.step, hph] <;> try exact h
      split_ifs with hlong
      · exact h
      · exact h.set hph h.within rfl rfl (Nat.le_of_not_lt hlong) nofun
  | complete call =>
      cases hph : s.phase call <;> simp only [SpoolSystem.step, hph] <;> try exact h
      rename_i size written
      have hheld : size + s.counters.completedBytes ≤ s.counters.reservedBytes := h.held_le hph
      have hwrit := h.written_le call
      rw [hph] at hwrit
      refine h.set hph ⟨h.within.1, h.within.2, h.within.3, h.within.4, h.within.5⟩
        rfl ?_ hwrit nofun
      exact Nat.mod_eq_of_lt (lt_of_le_of_lt (by omega) (show uint64Max < 2 ^ 64 by decide))
  | discard call =>
      cases hph : s.phase call <;> simp only [SpoolSystem.step, hph] <;> try exact h
      exact h.set hph h.within rfl rfl (Nat.zero_le _) nofun
  | release call =>
      cases hph : s.phase call <;> simp only [SpoolSystem.step, hph] <;> try exact h
      rename_i size
      have hheld : size + s.counters.completedBytes ≤ s.counters.reservedBytes := h.held_le hph
      have hlim := h.within.reserved_le
      rw [releaseLocked, if_pos (by omega)]
      refine h.set hph ⟨(Nat.sub_le _ _).trans hlim, (Nat.sub_le _ _).trans hfits, h.within.3,
        fun hnone => ?_, fun hne => ?_⟩ (Nat.sub_add_cancel (by omega)) rfl (Nat.zero_le _) nofun
      · exact (congrArg (· - size) (h.within.unobserved hnone)).trans (Nat.zero_sub _)
      · have hleft := hfree fun hzero => hne ((congrArg (· - size) hzero).trans (Nat.zero_sub _))
        show s.counters.reservedBytes - size + _ ≤ _
        omega

theorem sound_run (limits : SpoolLimits) (capacity : ℕ) (steps : List (SpoolStep ι)) :
    Sound limits capacity (run limits capacity steps) := by
  have hinit : Sound limits capacity ({} : SpoolSystem ι) :=
    ⟨⟨Nat.zero_le _, Nat.zero_le _, nofun, fun _ => rfl, fun h => absurd rfl h⟩,
      Finset.sum_const_zero.symm, Finset.sum_const_zero.symm, fun _ => Nat.zero_le _, nofun⟩
  exact List.foldlRecOn steps _ hinit fun s h move _ => Sound.step h move

/-- In every interleaving of the calls of a resolver that has the temporary disk to itself. -/
theorem spool_never_overcommits (limits : SpoolLimits) (capacity : ℕ) (steps : List (SpoolStep ι)) :
    let s := run limits capacity steps
    s.counters.reservedBytes = ∑ i, (s.phase i).heldBytes + ∑ i, (s.phase i).completedBytes ∧
    (∀ i, (s.phase i).heldBytes ≤ s.counters.reservedBytes) ∧
    s.counters.completedBytes ≤ s.counters.reservedBytes ∧
    s.counters.reservedBytes ≤ limits.maxSpoolBytes ∧
    (∀ observed, s.counters.observedCapacity = some observed → observed ≤ capacity) ∧
    (∀ i size available, s.phase i = .queried size available →
      (acquireLocked limits size available s.counters).1 = .ok () →
      (acquireLocked limits size available s.counters).2.reservedBytes
        + limits.minimumFreeSpaceBytes ≤ capacity) ∧
    s.written ≤ capacity - limits.minimumFreeSpaceBytes := by
  intro s
  have h : Sound limits capacity s := sound_run limits capacity steps
  have hcompleted : s.counters.completedBytes ≤ s.counters.reservedBytes :=
    h.split ▸ Nat.le_add_left _ _
  refine ⟨by rw [h.split, h.completed_eq], fun i => ?_, hcompleted, h.within.reserved_le,
    h.within.observed_le, fun i size available hphase hok => ?_, ?_⟩
  · exact (Nat.le_add_right _ _).trans (h.held_le rfl)
  · exact ((acquireLocked_acquired h.within hcompleted (h.available_le i size available hphase)).granted
      hok).2
  · have hwritten : s.written ≤ s.counters.reservedBytes := by
      rw [h.reserved_eq]
      exact Finset.sum_le_sum fun i _ => h.written_le i
    by_cases hzero : s.counters.reservedBytes = 0
    · omega
    · have hfree := h.within.free hzero
      omega

end SpoolSystem

end KairosBoot
