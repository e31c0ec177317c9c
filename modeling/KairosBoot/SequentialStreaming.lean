import Mathlib.Algebra.Order.BigOperators.Group.List
import KairosBoot.DownloadStream

/-! # Streaming over a transport that can only write

`SequentialStreamingTransport` gives a transport without streaming a `write_source`: it reads the
source in windows of at most a MiB and resumes the writes of a window until all of it is accepted.
`writeSource` is this function with its two loops and all its early returns; a run keeps the writes
it has made together with their results.

Every part of a run advances through the source (`Advances`), and an early return says how far it
has come (`Reported`).  From the spec of the two loops follow the account of a whole run
(`streaming_honest_iff`), where the certainty of an early return is computed from the number of
accepted bytes and not from what the write itself has said, and that a session over the wrapped
transport still counts truthfully (`streamed_truthful`). -/

namespace KairosBoot

open ByteLib Outcomes List

variable {τ α β ρ : Type}

namespace SequentialStreaming

/-! ### The transport -/

/-- The wrapped transport and the rest of the outside, whether `read_exact` of a window of the
source succeeds, and whether there is an observer. -/
structure Setup (τ : Type) where
  env : Environment τ
  readExact : ℕ → ℕ → τ → Bool × τ
  observer : Bool := true

/-- A write to the wrapped transport: what was offered and its result. -/
abbrev Write := Bytes × TransferResult

/-- The outside and the writes that were made. -/
structure State (τ : Type) where
  world : τ
  writes : List Write := []

/-- An early return of `write_source` is a failure of the program. -/
abbrev StreamM (τ : Type) := Prog (State τ) TransferResult

def chunkBytes : ℕ := 1024 * 1024

/-- Call a function of the outside. -/
def call (f : τ → ρ × τ) : StreamM τ ρ :=
  step fun s => ((f s.world).1, { s with world := (f s.world).2 })

variable (setup : Setup τ)

/-- `transport_->write`. -/
def write (offered : Bytes) : StreamM τ TransferResult :=
  step fun s => ((setup.env.write offered s.world).1,
    { world := (setup.env.write offered s.world).2
      writes := s.writes ++ [(offered, (setup.env.write offered s.world).1)] })

/-- `transport_->request_cancel`. -/
def requestCancel : StreamM τ Unit := call fun world => ((), setup.env.requestCancel world)

/-- The closure `cancelled`: an observer that throws cancels too. -/
def cancelled (size completed : ℕ) : StreamM τ Bool :=
  if setup.observer then do
    let outcome ← call (setup.env.observe completed size)
    pure (decide (outcome ≠ .continueTransfer))
  else pure false

/-- The result that is returned for a write that has failed. -/
def failedWrite (size transferred : ℕ) (result : TransferResult) : TransferResult :=
  { result with
    transferred := transferred
    certainty :=
      if transferred ≠ size then
        if transferred = 0 then .notTransferred else .partialOrUnknown
      else result.certainty }

/-- Whether a write ends the transfer. -/
def writeFailed (result : TransferResult) : Bool :=
  decide (result.status ≠ .ok ∨ result.certainty ≠ .fullyTransferred ∨ result.transferred = 0) ||
    result.truncated

/-- The inner loop; every round accepts at least a byte, so the size of the chunk is enough
fuel. -/
def writeChunk (size completed : ℕ) (chunk : Bytes) : ℕ → ℕ → StreamM τ Unit
  | 0, _ => pure ()
  | fuel + 1, chunkOffset =>
      if chunkOffset < chunk.length then do
        let result ← write setup (chunk.drop chunkOffset)
        if chunk.length - chunkOffset < result.transferred then
          throw {
            status := .ioError
            transferred := completed + chunkOffset
            certainty := .partialOrUnknown
            detail := "transport over-reported a streamed write" }
        else if writeFailed result then
          throw (failedWrite size (completed + (chunkOffset + result.transferred)) result)
        else writeChunk size completed chunk fuel (chunkOffset + result.transferred)
      else pure ()

/-- The outer loop over a source of `bytes` with a buffer of `buffer` bytes. -/
def streamLoop (bytes : Bytes) (buffer : ℕ) : ℕ → ℕ → StreamM τ ℕ
  | 0, completed => pure completed
  | fuel + 1, completed =>
      if completed < bytes.length then do
        let requested := min buffer (bytes.length - completed)
        let read ← call (setup.readExact completed requested)
        if ¬ read then
          throw {
            status := .ioError
            transferred := completed
            certainty := if completed = 0 then .notTransferred else .partialOrUnknown
            detail := "streaming source read failed" }
        else do
          writeChunk setup bytes.length completed (slice bytes completed requested) requested 0
          let stop ← cancelled setup bytes.length (completed + requested)
          if stop then do
            requestCancel setup
            throw {
              status := .cancelled
              transferred := completed + requested
              certainty :=
                if completed + requested = bytes.length then .fullyTransferred
                else .partialOrUnknown
              detail := "streaming source cancelled" }
          else streamLoop bytes buffer fuel (completed + requested)
      else pure completed

/-- `write_source`; `none` is a null source. -/
def writeSource (source : Option Bytes) : StreamM τ TransferResult :=
  match source with
  | none =>
      throw {
        status := .ioError
        certainty := .notTransferred
        detail := "streaming source is null" }
  | some bytes => do
      let allocated ← call (setup.env.allocate (min bytes.length chunkBytes))
      if ¬ allocated then
        throw {
          status := .ioError
          certainty := .notTransferred
          detail := "streaming buffer allocation failed" }
      else do
        let stop ← cancelled setup bytes.length 0
        if stop then do
          requestCancel setup
          throw {
            status := .cancelled
            certainty := .notTransferred
            detail := "streaming source cancelled before transfer" }
        else do
          let completed ← streamLoop setup bytes (min bytes.length chunkBytes) bytes.length 0
          pure { transferred := completed }

/-- What `write_source` returns, early or not. -/
def returned : Except TransferResult TransferResult → TransferResult
  | .ok result => result
  | .error result => result

/-- The wrapped transport with its `write_source`. -/
def streamed : Environment τ :=
  { setup.env with
    writeSource := some fun source world =>
      let run := exec (writeSource setup (some source)) { world := world }
      (returned run.1, run.2.world) }

variable {setup}

/-! ### Accepted bytes -/

/-- The bytes that some writes have accepted. -/
def acceptedBytes (writes : List Write) : Bytes :=
  writes.flatMap fun w => w.1.take w.2.transferred

/-- The sum of the counts of some writes. -/
def acceptedCount (writes : List Write) : ℕ := (writes.map fun w => w.2.transferred).sum

section Accepted

variable {writes writes' : List Write}

@[simp] theorem acceptedBytes_append :
    acceptedBytes (writes ++ writes') = acceptedBytes writes ++ acceptedBytes writes' :=
  flatMap_append

@[simp] theorem acceptedCount_append :
    acceptedCount (writes ++ writes') = acceptedCount writes + acceptedCount writes' := by
  simp [acceptedCount]

theorem transferred_of_acceptedCount (h : acceptedCount writes = 0) :
    ∀ w ∈ writes, w.2.transferred = 0 := by
  intro w hw
  have hle : w.2.transferred ≤ acceptedCount writes :=
    single_le_sum (fun _ _ => Nat.zero_le _) _ (mem_map_of_mem hw)
  omega

end Accepted

/-- The writes of the wrapped transport are truthful: they accept no more than they are offered,
and nothing if they say so. -/
structure TruthfulWrites (env : Environment τ) : Prop where
  transferred_le : ∀ offered world,
    (env.write offered world).1.transferred ≤ offered.length
  notTransferred : ∀ offered world,
    (env.write offered world).1.certainty = .notTransferred →
      (env.write offered world).1.transferred = 0

/-- What the transport has accepted is extended by the writes only. -/
structure Wire (setup : Setup τ) (accepted : τ → Bytes) : Prop where
  write : ∀ offered world, accepted (setup.env.write offered world).2
    = accepted world ++ offered.take (setup.env.write offered world).1.transferred
  requestCancel : ∀ world, accepted (setup.env.requestCancel world) = accepted world
  observe : ∀ completed size world,
    accepted (setup.env.observe completed size world).2 = accepted world
  allocate : ∀ size world, accepted (setup.env.allocate size world).2 = accepted world
  readExact : ∀ offset size world, accepted (setup.readExact offset size world).2 = accepted world

/-- A run reaches a state with some writes, which is what every truthful observer of the wire sees
too. -/
def Writes (setup : Setup τ) (s : State τ) (writes : List Write) (s' : State τ) : Prop :=
  s'.writes = s.writes ++ writes ∧
    ∀ accepted, Wire setup accepted → accepted s'.world = accepted s.world ++ acceptedBytes writes

instance writes_tracing : Tracing (Writes setup) where
  refl s := ⟨(List.append_nil _).symm, fun _ _ => (List.append_nil _).symm⟩
  trans h h' := by
    refine ⟨by rw [h'.1, h.1, List.append_assoc], fun accepted hwire => ?_⟩
    rw [h'.2 accepted hwire, h.2 accepted hwire, acceptedBytes_append, List.append_assoc]

section Rules

variable {s : State τ} {Q : Except TransferResult β → State τ → List Write → Prop}

theorem emits_call_bind {f : τ → ρ × τ} {g : ρ → StreamM τ β}
    (hwire : ∀ accepted, Wire setup accepted → ∀ world, accepted (f world).2 = accepted world)
    (h : ∀ value s', Emits (Writes setup) (g value) s' Q) :
    Emits (Writes setup) (call f >>= g) s Q := by
  refine emits_step_bind ⟨(append_nil _).symm, ?_⟩ (h _ _)
  intro accepted hw
  exact (hwire accepted hw s.world).trans (append_nil _).symm

theorem emits_write_bind {offered : Bytes} {g : TransferResult → StreamM τ β}
    (htruthful : TruthfulWrites setup.env)
    (h : ∀ result s', result.transferred ≤ offered.length →
      (result.certainty = .notTransferred → result.transferred = 0) →
      Emits (Writes setup) (g result) s' fun r s'' writes => Q r s'' ((offered, result) :: writes)) :
    Emits (Writes setup) (write setup offered >>= g) s Q := by
  refine emits_step_bind ⟨rfl, fun accepted hwire => ?_⟩
    (h _ _ (htruthful.transferred_le offered s.world) (htruthful.notTransferred offered s.world))
  exact (hwire.write offered s.world).trans (by simp [acceptedBytes])

end Rules

/-! ### The two loops -/

/-- Some writes accept the next bytes of the source. -/
structure Advances (bytes : Bytes) (base : ℕ) (writes : List Write) : Prop where
  accepted : acceptedBytes writes = slice bytes base (acceptedCount writes)
  le : base + acceptedCount writes ≤ bytes.length

/-- Every write but the last one has accepted something. -/
def Progressed (writes : List Write) : Prop := ∀ w ∈ writes.dropLast, 0 < w.2.transferred

/-- An early return of a transfer of `size` bytes of which `total` were accepted. -/
structure Reported (size total : ℕ) (result : TransferResult) : Prop where
  transferred : result.transferred = total
  fully : result.certainty = .fullyTransferred → total = size
  none : result.certainty = .notTransferred ↔ total = 0

/-- What a part of a transfer that begins after `base` bytes leaves. -/
inductive PartOutcome (bytes : Bytes) (base : ℕ) (Done : α → ℕ → Prop) :
    Except TransferResult α → List Write → Prop
  | done {value : α} {writes : List Write} (advances : Advances bytes base writes)
      (positive : ∀ w ∈ writes, 0 < w.2.transferred) (done : Done value (acceptedCount writes)) :
      PartOutcome bytes base Done (.ok value) writes
  | failed {result : TransferResult} {writes : List Write}
      (advances : Advances bytes base writes) (progressed : Progressed writes)
      (reported : Reported bytes.length (base + acceptedCount writes) result) :
      PartOutcome bytes base Done (.error result) writes

section Parts

variable {bytes : Bytes} {base : ℕ} {writes writes' : List Write}

theorem advances_nil (h : base ≤ bytes.length) : Advances bytes base [] :=
  ⟨by simp [acceptedBytes, acceptedCount], h⟩

theorem Advances.append (h : Advances bytes base writes)
    (h' : Advances bytes (base + acceptedCount writes) writes') :
    Advances bytes base (writes ++ writes') where
  accepted := by
    rw [acceptedBytes_append, acceptedCount_append, slice_add, h.accepted, h'.accepted]
  le := by
    rw [acceptedCount_append, ← add_assoc]
    exact h'.le

theorem advances_write {len : ℕ} {result : TransferResult} (hbase : base + len ≤ bytes.length)
    (hle : result.transferred ≤ len) : Advances bytes base [(slice bytes base len, result)] := by
  refine ⟨?_, ?_⟩
  · simp [acceptedBytes, acceptedCount, take_slice bytes hle]
  · simp [acceptedCount]
    omega

theorem progressed_append (h : ∀ w ∈ writes, 0 < w.2.transferred) (h' : Progressed writes') :
    Progressed (writes ++ writes') := by
  intro w hw
  cases writes' with
  | nil =>
      rw [append_nil] at hw
      exact h w (dropLast_subset _ hw)
  | cons w' writes' =>
      rw [dropLast_append_of_ne_nil (by simp)] at hw
      exact forall_mem_append.mpr ⟨h, h'⟩ w hw

/-- A part that is done may be followed by another one. -/
theorem PartOutcome.after {Done Done' : α → ℕ → Prop} {r : Except TransferResult α}
    (hadv : Advances bytes base writes) (hpos : ∀ w ∈ writes, 0 < w.2.transferred)
    (hdone : ∀ value n, Done value n → Done' value (acceptedCount writes + n))
    (h : PartOutcome bytes (base + acceptedCount writes) Done r writes') :
    PartOutcome bytes base Done' r (writes ++ writes') := by
  cases h with
  | done advances positive done =>
      refine .done (hadv.append advances) (forall_mem_append.mpr ⟨hpos, positive⟩) ?_
      rw [acceptedCount_append]
      exact hdone _ _ done
  | failed advances progressed reported =>
      refine .failed (hadv.append advances) (progressed_append hpos progressed) ?_
      rwa [acceptedCount_append, ← add_assoc]

end Parts

variable {result : TransferResult}

theorem writeFailed_eq_false (h : writeFailed result = false) : 0 < result.transferred := by
  simp only [writeFailed, Bool.or_eq_false_iff, decide_eq_false_iff_not, not_or] at h
  omega

/-- A failed write is reported with what was accepted in all. -/
theorem failedWrite_reported {size total : ℕ} (hsize : 0 < size)
    (hnone : total = size → result.certainty ≠ .notTransferred) :
    Reported size total (failedWrite size total result) := by
  refine ⟨rfl, ?_, ?_⟩
  · intro h
    by_contra hne
    simp only [failedWrite, if_pos hne] at h
    split_ifs at h
  · simp only [failedWrite]
    split_ifs with hne hzero
    · exact ⟨fun _ => hzero, fun _ => rfl⟩
    · exact ⟨fun h => (by cases h), fun h => absurd h hzero⟩
    · have htot := not_not.mp hne
      exact ⟨fun h => absurd h (hnone htot), fun h => by omega⟩

/-- An early return after some bytes that is certain only at the end of the source. -/
theorem reported_of_pos {size total : ℕ} (htran : result.transferred = total) (hpos : 0 < total)
    (hcert : result.certainty = if total = size then .fullyTransferred else .partialOrUnknown) :
    Reported size total result := by
  refine ⟨htran, fun h => ?_, fun h => ?_, fun h => by omega⟩
  · by_contra hne
    rw [hcert, if_neg hne] at h
    cases h
  · rw [hcert] at h
    split_ifs at h

theorem reported_of_none {size : ℕ} (htran : result.transferred = 0)
    (hcert : result.certainty = .notTransferred) : Reported size 0 result :=
  ⟨htran, fun h => (by cases hcert.symm.trans h), fun _ => rfl, fun _ => hcert⟩

variable (htruthful : TruthfulWrites setup.env)

include htruthful

theorem writeChunk_emits {bytes : Bytes} {completed requested : ℕ}
    (hwin : completed + requested ≤ bytes.length) (fuel chunkOffset : ℕ)
    (hfuel : requested ≤ chunkOffset + fuel) (hoff : chunkOffset ≤ requested) (s : State τ) :
    Emits (Writes setup)
      (writeChunk setup bytes.length completed (slice bytes completed requested) fuel chunkOffset) s
      fun r _ writes => PartOutcome bytes (completed + chunkOffset)
        (fun _ n => n = requested - chunkOffset) r writes := by
  have hlen : (slice bytes completed requested).length = requested := length_slice hwin
  induction fuel generalizing chunkOffset s with
  | zero =>
      refine emits_pure (.done (advances_nil (by omega)) (by simp) ?_)
      simp only [acceptedCount, map_nil, sum_nil]
      omega
  | succ fuel ih =>
      unfold writeChunk
      rw [hlen]
      split_ifs with hlt
      · rw [drop_slice]
        refine emits_write_bind htruthful fun result s₁ hle hnone => ?_
        rw [length_slice (by omega)] at hle
        have hadv : Advances bytes (completed + chunkOffset)
            [(slice bytes (completed + chunkOffset) (requested - chunkOffset), result)] :=
          advances_write (by omega) hle
        have hcnt : acceptedCount
            [(slice bytes (completed + chunkOffset) (requested - chunkOffset), result)]
              = result.transferred := by simp [acceptedCount]
        rw [if_neg (not_lt.mpr hle)]
        cases hfail : writeFailed result with
        | true =>
            rw [if_pos rfl]
            refine emits_throw (.failed hadv (by simp [Progressed]) ?_)
            rw [hcnt, add_assoc]
            refine failedWrite_reported (by omega) fun htot hcert => ?_
            have := hnone hcert
            omega
        | false =>
            have hpos := writeFailed_eq_false hfail
            rw [if_neg (by simp)]
            refine (ih (chunkOffset + result.transferred) (by omega) (by omega) s₁).mono ?_
            intro r _ writes h
            rw [← add_assoc, ← hcnt] at h
            refine PartOutcome.after hadv (by simpa using hpos) (fun _ n hn => ?_) h
            rw [hcnt] at hn ⊢
            omega
      · refine emits_pure (.done (advances_nil (by omega)) (by simp) ?_)
        simp only [acceptedCount, map_nil, sum_nil]
        omega

omit htruthful in
theorem emits_cancelled_bind {size completed : ℕ} {g : Bool → StreamM τ β} {s : State τ}
    {Q : Except TransferResult β → State τ → List Write → Prop}
    (h : ∀ stop s', Emits (Writes setup) (g stop) s' Q) :
    Emits (Writes setup) (cancelled setup size completed >>= g) s Q := by
  unfold cancelled
  split_ifs
  · exact emits_call_bind (fun _ hwire => hwire.observe _ _) fun outcome s' => h _ s'
  · exact h false s

omit htruthful in
theorem emits_requestCancel_bind {g : Unit → StreamM τ β} {s : State τ}
    {Q : Except TransferResult β → State τ → List Write → Prop}
    (h : ∀ s', Emits (Writes setup) (g ()) s' Q) :
    Emits (Writes setup) (requestCancel setup >>= g) s Q :=
  emits_call_bind (fun _ hwire => hwire.requestCancel) fun _ s' => h s'

theorem streamLoop_emits {bytes : Bytes} {buffer : ℕ} (hbuf : bytes ≠ [] → 0 < buffer)
    (fuel completed : ℕ) (hfuel : bytes.length ≤ completed + fuel)
    (hcomp : completed ≤ bytes.length) (s : State τ) :
    Emits (Writes setup) (streamLoop setup bytes buffer fuel completed) s
      fun r _ writes => PartOutcome bytes completed
        (fun value n => value = bytes.length ∧ completed + n = bytes.length) r writes := by
  induction fuel generalizing completed s with
  | zero =>
      refine emits_pure (.done (advances_nil hcomp) (by simp) ?_)
      simp only [acceptedCount, map_nil, sum_nil]
      omega
  | succ fuel ih =>
      unfold streamLoop
      by_cases hlt : completed < bytes.length
      · rw [if_pos hlt]
        have hpos : 0 < buffer := hbuf (length_pos_iff.mp (by omega))
        generalize hreq : min buffer (bytes.length - completed) = requested
        refine emits_call_bind (fun _ hwire => hwire.readExact _ _) fun read s₁ => ?_
        cases read with
        | false =>
            rw [if_pos (by simp)]
            refine emits_throw (.failed (advances_nil hcomp)
              (by simp [Progressed]) ⟨rfl, fun h => ?_, ?_⟩)
            · simp only at h
              split_ifs at h
            · by_cases hzero : completed = 0 <;> simp [hzero, acceptedCount]
        | true =>
            rw [if_neg (by simp)]
            refine (writeChunk_emits htruthful (by omega) requested 0 (by omega) (by omega) s₁).bind ?_ ?_
            · intro _ s₂ writes h
              cases h with
              | done advances positive hcnt =>
                  refine emits_cancelled_bind fun stop s₃ => ?_
                  cases stop with
                  | true =>
                      refine emits_requestCancel_bind fun s₄ => emits_throw ?_
                      rw [append_nil]
                      refine .failed advances (fun w hw => positive w (dropLast_subset _ hw)) ?_
                      rw [hcnt, Nat.sub_zero]
                      exact reported_of_pos rfl (by omega) rfl
                  | false =>
                      refine (ih (completed + requested) (by omega) (by omega) s₃).mono ?_
                      intro r _ writes' h
                      rw [Nat.sub_zero] at hcnt
                      rw [← hcnt] at h
                      exact PartOutcome.after advances positive
                        (fun value n hn => ⟨hn.1, by rw [← add_assoc]; exact hn.2⟩) h
            · intro result s₂ writes h
              cases h with
              | failed advances progressed reported => exact .failed advances progressed reported
      · rw [if_neg hlt]
        refine emits_pure (.done (advances_nil hcomp) (by simp) ?_)
        simp only [acceptedCount, map_nil, sum_nil]
        omega

/-! ### Whole runs -/

/-- The result of a transfer that does not return early. -/
structure Completed (size : ℕ) (result : TransferResult) (n : ℕ) : Prop where
  transferred : result.transferred = n
  whole : n = size
  certainty : result.certainty = .fullyTransferred

/-- A transfer returns after the whole source is accepted, or early. -/
theorem writeSource_emits (bytes : Bytes) (s : State τ) :
    Emits (Writes setup) (writeSource setup (some bytes)) s
      fun r _ writes => PartOutcome bytes 0 (Completed bytes.length) r writes := by
  have hearly : ∀ {result : TransferResult}, result.transferred = 0 →
      result.certainty = .notTransferred →
      PartOutcome bytes 0 (Completed bytes.length) (.error result) [] :=
    fun htran hcert => .failed (advances_nil (Nat.zero_le _)) (by simp [Progressed])
      (reported_of_none htran hcert)
  have hbuf : bytes ≠ [] → 0 < min bytes.length chunkBytes := fun h =>
    lt_min (length_pos_iff.mpr h) (by decide)
  refine emits_call_bind (fun _ hwire => hwire.allocate _) fun allocated s₁ => ?_
  cases allocated with
  | false => exact emits_throw (hearly rfl rfl)
  | true =>
      refine emits_cancelled_bind fun stop s₂ => ?_
      cases stop with
      | true =>
          exact emits_requestCancel_bind fun s₃ => emits_throw (hearly rfl rfl)
      | false =>
          refine (streamLoop_emits htruthful hbuf bytes.length 0 (by omega) (Nat.zero_le _)
            s₂).bind ?_ ?_
          · intro completed s₃ writes h
            cases h with
            | done advances positive hdone =>
                obtain ⟨rfl, hall⟩ := hdone
                rw [zero_add] at hall
                refine emits_pure ?_
                rw [append_nil]
                exact .done advances positive ⟨hall.symm, hall, rfl⟩
          · intro result s₃ writes h
            cases h with
            | failed advances progressed reported => exact .failed advances progressed reported

omit htruthful in
/-- A write that has accepted nothing is the only one. -/
theorem Progressed.eq_singleton {w : Write} {writes : List Write}
    (h : Progressed (w :: writes)) (hnone : w.2.transferred = 0) : writes = [] := by
  cases writes with
  | nil => rfl
  | cons w' writes =>
      have := h w (by simp)
      omega

omit htruthful in
/-- What a part that begins with the source has accepted, and how an early or normal return counts
it. -/
theorem PartOutcome.counted {bytes : Bytes} {r : Except TransferResult TransferResult}
    {writes : List Write} (h : PartOutcome bytes 0 (Completed bytes.length) r writes) :
    (returned r).transferred = acceptedCount writes ∧
      acceptedBytes writes = bytes.take (acceptedCount writes) := by
  cases h with
  | done advances positive done =>
      exact ⟨done.transferred, by rw [advances.accepted, slice_eq_take]⟩
  | failed advances progressed reported =>
      rw [zero_add] at reported
      exact ⟨reported.transferred, by rw [advances.accepted, slice_eq_take]⟩

/-- A session over the wrapped transport counts truthfully if it does so over the transport. -/
theorem streamed_truthful {accepted : τ → Bytes} (hcounts : TruthfulCounts setup.env accepted)
    (hwire : Wire setup accepted) : TruthfulCounts (streamed setup) accepted where
  __ := hcounts
  writeSource stream hstr source world := by
    obtain ⟨writes, ⟨-, hwritten⟩, hout⟩ := writeSource_emits htruthful source { world := world }
    obtain ⟨htran, htaken⟩ := hout.counted
    obtain rfl := Option.mem_some_iff.mp hstr
    rw [htran, ← htaken]
    exact hwritten accepted hwire

end SequentialStreaming

open SequentialStreaming

/-- Over a truthful transport, `write_source` reports the sum of what its writes have accepted, which
is a prefix of the source, and the whole source if it returns normally or claims certainty.  That it
claims to have transferred nothing says that no write may have transferred anything, exactly if the
first write does not fail with an unknown outcome and a count of zero. -/
theorem streaming_honest_iff (setup : Setup τ) (htruthful : TruthfulWrites setup.env)
    (source : Option Bytes) (s : State τ) :
    let run := exec (writeSource setup source) s
    ∃ writes, run.2.writes = s.writes ++ writes ∧
      (returned run.1).transferred = acceptedCount writes ∧
      acceptedBytes writes <+: source.getD [] ∧
      (∀ result, run.1 = .ok result → source = some (acceptedBytes writes)) ∧
      ((returned run.1).certainty = .fullyTransferred → source = some (acceptedBytes writes)) ∧
      (((returned run.1).certainty = .notTransferred →
          ∀ w ∈ writes, w.2.transferred = 0 ∧ w.2.certainty ≠ .partialOrUnknown) ↔
        ∀ w ∈ writes.head?, w.2.certainty = .partialOrUnknown → w.2.transferred ≠ 0) := by
  cases source with
  | none =>
      refine ⟨[], (List.append_nil _).symm, rfl, List.nil_prefix, fun _ h => (by cases h),
        fun h => (by cases h), iff_of_true (fun _ w hw => by simp at hw) fun w hw => by simp at hw⟩
  | some bytes =>
      obtain ⟨writes, ⟨hwrites, -⟩, houtcome⟩ := writeSource_emits htruthful bytes s
      refine ⟨writes, hwrites, ?_⟩
      generalize (exec (writeSource setup (some bytes)) s).1 = r at houtcome ⊢
      obtain ⟨htransferred, htaken⟩ := houtcome.counted
      have hwhole : acceptedCount writes = bytes.length →
          some bytes = some (acceptedBytes writes) := by
        intro hcount
        rw [htaken, hcount, List.take_length]
      refine ⟨htransferred, htaken ▸ List.take_prefix _ _, ?_⟩
      cases houtcome with
      | done advances positive done =>
          refine ⟨fun _ _ => hwhole done.whole, fun _ => hwhole done.whole, ?_⟩
          refine iff_of_true (fun h => by cases done.certainty.symm.trans h) fun w hw _ => ?_
          have := positive w (List.mem_of_mem_head? hw)
          omega
      | failed advances progressed reported =>
          rw [zero_add] at reported
          refine ⟨fun _ h => (by cases h), fun h => hwhole (reported.fully h),
            fun h w hw hpartial hzero => ?_, fun h hnone w hw => ?_⟩
          · cases writes with
            | nil => simp at hw
            | cons first rest =>
                obtain rfl : first = w := by simpa using hw
                obtain rfl := progressed.eq_singleton hzero
                have hcount : acceptedCount [first] = 0 := by simpa [acceptedCount] using hzero
                exact (h (reported.none.mpr hcount) first (by simp)).2 hpartial
          · have hzero := transferred_of_acceptedCount (reported.none.mp hnone)
            refine ⟨hzero w hw, fun hpartial => ?_⟩
            cases writes with
            | nil => simp at hw
            | cons first rest =>
                obtain rfl := progressed.eq_singleton (hzero first (by simp))
                obtain rfl : w = first := by simpa using hw
                exact h w (by simp) hpartial (hzero w hw)

/-! ### A first write with an unknown outcome -/

/-- A transport that accepts at most five bytes a call, behind a source that can always be read. -/
def shortWrites : Setup (Bytes × List Bytes) where
  env := FastbootSession.scriptedEnvironment
  readExact _ _ world := (true, world)

theorem shortWrites_truthful : TruthfulWrites shortWrites.env where
  transferred_le _ _ := min_le_right _ _
  notTransferred _ _ h := by cases h

/-- Eight bytes are accepted in two writes. -/
theorem shortWrites_honest :
    let run := exec (writeSource shortWrites (some [1, 2, 3, 4, 5, 6, 7, 8])) { world := ([], []) }
    run.2.writes.length = 2 ∧ ∃ writes, run.2.writes = [] ++ writes ∧
      (returned run.1).transferred = acceptedCount writes ∧
      acceptedBytes writes <+: [1, 2, 3, 4, 5, 6, 7, 8] ∧
      (∀ result, run.1 = .ok result → some [1, 2, 3, 4, 5, 6, 7, 8] = some (acceptedBytes writes)) ∧
      ((returned run.1).certainty = .fullyTransferred →
        some [1, 2, 3, 4, 5, 6, 7, 8] = some (acceptedBytes writes)) ∧
      (((returned run.1).certainty = .notTransferred →
          ∀ w ∈ writes, w.2.transferred = 0 ∧ w.2.certainty ≠ .partialOrUnknown) ↔
        ∀ w ∈ writes.head?, w.2.certainty = .partialOrUnknown → w.2.transferred ≠ 0) :=
  ⟨by decide +kernel, streaming_honest_iff shortWrites shortWrites_truthful _ _⟩

open FastbootSession in
/-- The bytes that a transport without streaming accepts while a session downloads a source through
its wrapper are a beginning of the command and the source, and all of that if the device answers
OKAY, whatever the short writes and the early returns. -/
theorem streamed_download (setup : Setup τ) (htruthful : TruthfulWrites setup.env)
    {accepted : τ → Bytes} (hcounts : TruthfulCounts setup.env accepted)
    (hwire : Wire setup accepted) (requested : SessionOptions) (s : Session τ) (cancelled : Bool)
    (source : Bytes) (hsize : source.length ≤ 2 ^ 32 - 1) :
    let run := exec (downloadCall ⟨streamed setup, requested, true⟩ cancelled true source) s
    ∃ sent, accepted run.2.world = accepted s.world ++ sent ∧ sent <+: downloadStream source ∧
      ∀ result, run.1 = .ok result → result.terminal.kind = .okay →
        sent = downloadStream source := by
  have hrun := downloadLocked_streams ⟨streamed setup, requested, true⟩ cancelled source true s
  rw [← downloadCall_eq _ cancelled true hsize] at hrun
  obtain ⟨es, htrc, hstr⟩ := hrun
  exact ⟨acceptedIn es, (streamed_truthful htruthful hcounts hwire).traced htrc, hstr.accepted,
    hstr.complete⟩

open FastbootSession in
theorem shortWrites_download :
    let run := exec (downloadCall ⟨streamed shortWrites, {}, true⟩ false true [1, 2, 3])
      scriptedSession
    run.2.world.1 = downloadStream [1, 2, 3] ∧ ∃ sent, run.2.world.1 = [] ++ sent ∧
      sent <+: downloadStream [1, 2, 3] ∧ ∀ result, run.1 = .ok result →
        result.terminal.kind = .okay → sent = downloadStream [1, 2, 3] :=
  have h := scriptedEnvironment_truthful
  ⟨by decide +kernel, streamed_download shortWrites shortWrites_truthful h
    ⟨h.write, h.requestCancel, h.observe, h.allocate, fun _ _ _ => rfl⟩ {} scriptedSession false _
    (by decide)⟩

/-- A transport that times out without knowing what has reached the wire. -/
def lostWrites : Setup (Bytes × List Bytes) where
  env := { FastbootSession.scriptedEnvironment with
    write := fun _ world => ({ status := .timeout, certainty := .partialOrUnknown }, world) }
  readExact _ _ world := (true, world)

/-- Nothing is said to have been transferred after a write whose outcome is unknown. -/
theorem lostWrites_claims_nothing :
    TruthfulWrites lostWrites.env ∧
    let run := exec (writeSource lostWrites (some [1, 2, 3])) { world := ([], []) }
    (returned run.1).certainty = .notTransferred ∧
      run.2.writes = [([1, 2, 3], { status := .timeout, certainty := .partialOrUnknown })] :=
  ⟨⟨fun _ _ => Nat.zero_le _, fun _ _ h => by cases h⟩, by decide +kernel, by decide +kernel⟩

end KairosBoot
