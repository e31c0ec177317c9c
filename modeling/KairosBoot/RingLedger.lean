import Mathlib.Data.List.Nodup
import Mathlib.Data.List.Pairwise
import KairosBoot.PieceTable
import KairosBoot.TransferRing

/-! # The books of a transfer ring

What the log of a ring says about its permits and submissions, and the part of the ring's state
that keeps account of them.

* `sent`: the submissions that the backend accepted, or whose `submit` threw.
* `live`: those of them that have not completed; `successes`: those that completed with all their
  bytes.
* `RingAccount` is the accounting part of the state, and `Books` says that it agrees with the log.
  Every way in which the ring changes its account keeps the books: a permit that comes to nothing
  (`Books.waste`), a chunk that is sent (`Books.launch`), and a completion (`Books.finish`). -/

namespace KairosBoot

open ByteLib Pieces PrefixTracking List

namespace TransferRing

variable {τ : Type}

/-! ### Reading the log -/

/-- The submission of an event, if the backend may have it. -/
def sentOf : RingEvent → Option TransferSubmission
  | .submitted submission (.returned .accepted) => some submission
  | .submitted submission .threw => some submission
  | _ => none

def completedOf : RingEvent → Option ℕ
  | .completed completion => some completion.id
  | _ => none

def acquiredOf : RingEvent → Option ℕ
  | .acquired permit _ => some permit
  | _ => none

def settledOf : RingEvent → Option ℕ
  | .settled permit _ _ => some permit
  | _ => none

/-- The submissions that were accepted or threw, in order. -/
def sent (log : List RingEvent) : List TransferSubmission := log.filterMap sentOf

def completedIds (log : List RingEvent) : List ℕ := log.filterMap completedOf

def acquiredPermits (log : List RingEvent) : List ℕ := log.filterMap acquiredOf

def settledPermits (log : List RingEvent) : List ℕ := log.filterMap settledOf

/-- The submissions that are in flight. -/
def live (log : List RingEvent) : List TransferSubmission :=
  (sent log).filter fun submission => submission.id ∉ completedIds log

/-- A submission has completed with all its bytes. -/
def Succeeded (log : List RingEvent) (submission : TransferSubmission) : Prop :=
  .completed ⟨submission.id, .success, submission.payload.length⟩ ∈ log

instance (log : List RingEvent) : DecidablePred (Succeeded log) :=
  fun _ => inferInstanceAs (Decidable (_ ∈ log))

def successes (log : List RingEvent) : List TransferSubmission :=
  (sent log).filter fun submission => Succeeded log submission

variable {log : List RingEvent} {submission : TransferSubmission}

theorem mem_successes :
    submission ∈ successes log ↔ submission ∈ sent log ∧ Succeeded log submission := by
  simp [successes]

theorem mem_live :
    submission ∈ live log ↔ submission ∈ sent log ∧ submission.id ∉ completedIds log := by
  simp [live]

def interval (submission : TransferSubmission) : ℕ × ℕ :=
  (submission.offset, submission.payload.length)

theorem Succeeded.mem_completedIds (h : Succeeded log submission) :
    submission.id ∈ completedIds log :=
  mem_filterMap.mpr ⟨_, h, rfl⟩

/-! ### The account -/

structure RingAccount where
  log : List RingEvent
  inFlight : List (ℕ × InFlight)
  nextOffset : ℕ
  nextId : ℕ
  nextPermit : ℕ
  completedBytes : ℕ
  completionWatermark : ℕ
  successfulSegments : List (ℕ × ℕ)

def account (r : TransferRing τ) : RingAccount where
  log := r.log
  inFlight := r.inFlight
  nextOffset := r.nextOffset
  nextId := r.nextId
  nextPermit := r.nextPermit
  completedBytes := r.completedBytes
  completionWatermark := r.completionWatermark
  successfulSegments := r.successfulSegments

/-- What an entry in flight knows about its submission. -/
def entryKey (entry : ℕ × InFlight) : ℕ × ℕ × ℕ × ℕ :=
  (entry.1, entry.2.offset, entry.2.requestedBytes, entry.2.permit.serial)

def submissionKey (submission : TransferSubmission) : ℕ × ℕ × ℕ × ℕ :=
  (submission.id, submission.offset, submission.payload.length, submission.payloadLifetime)

/-- The account agrees with the log, for a source with this content. -/
structure Books (content : Bytes) (a : RingAccount) : Prop where
  /-- The submissions follow one another, and together they are the first part of the source. -/
  tiles : Tiles TransferSubmission.offset TransferSubmission.payload 0 (sent a.log)
    (content.take a.nextOffset)
  nextOffset_le : a.nextOffset ≤ content.length
  id_lt : ∀ submission ∈ sent a.log, submission.id < a.nextId
  id_nodup : ((sent a.log).map TransferSubmission.id).Nodup
  completed_sent : ∀ id ∈ completedIds a.log, id ∈ (sent a.log).map TransferSubmission.id
  inFlight_eq : a.inFlight.map entryKey = (live a.log).map submissionKey
  armed : ∀ entry ∈ a.inFlight,
    entry.2.permit.buffer = some entry.2.requestedBytes ∧ entry.2.permit.accepted = true
  completedBytes_eq : a.completedBytes = ((successes a.log).map fun s => s.payload.length).sum
  tracks : Tracks ((successes a.log).map interval) a.completionWatermark a.successfulSegments
  acquired_lt : ∀ permit ∈ acquiredPermits a.log, permit < a.nextPermit
  lifetime_acquired : ∀ submission ∈ sent a.log,
    .acquired submission.payloadLifetime submission.payload.length ∈ a.log
  lifetime_nodup : ((sent a.log).map TransferSubmission.payloadLifetime).Nodup
  settled_acquired : ∀ permit size result, .settled permit size result ∈ a.log →
    .acquired permit size ∈ a.log
  settled_nodup : (settledPermits a.log).Nodup
  settled_iff : ∀ permit ∈ acquiredPermits a.log,
    permit ∈ settledPermits a.log ↔ permit ∉ (live a.log).map TransferSubmission.payloadLifetime

/-! ### Logs that grow -/

@[simp] theorem sent_append (log es : List RingEvent) : sent (log ++ es) = sent log ++ sent es :=
  filterMap_append

@[simp] theorem completedIds_append (log es : List RingEvent) :
    completedIds (log ++ es) = completedIds log ++ completedIds es := filterMap_append

@[simp] theorem acquiredPermits_append (log es : List RingEvent) :
    acquiredPermits (log ++ es) = acquiredPermits log ++ acquiredPermits es :=
  filterMap_append

@[simp] theorem settledPermits_append (log es : List RingEvent) :
    settledPermits (log ++ es) = settledPermits log ++ settledPermits es := filterMap_append

/-- Events that neither send a submission nor complete one. -/
structure Quiet (es : List RingEvent) : Prop where
  sent : sent es = []
  completed : completedIds es = []

section Quiet

variable {log es : List RingEvent}

theorem Quiet.sent_append (h : Quiet es) : TransferRing.sent (log ++ es) = TransferRing.sent log := by
  rw [TransferRing.sent_append, h.sent, append_nil]

theorem Quiet.completedIds_append (h : Quiet es) : completedIds (log ++ es) = completedIds log := by
  rw [TransferRing.completedIds_append, h.completed, append_nil]

theorem Quiet.live_append (h : Quiet es) : live (log ++ es) = live log := by
  rw [live, live, h.sent_append, h.completedIds_append]

theorem Quiet.succeeded_append (h : Quiet es) {submission : TransferSubmission} :
    Succeeded (log ++ es) submission ↔ Succeeded log submission := by
  rw [Succeeded, Succeeded, mem_append]
  refine or_iff_left fun hmem => ?_
  have hid : submission.id ∈ completedIds es := mem_filterMap.mpr ⟨_, hmem, rfl⟩
  rw [h.completed] at hid
  cases hid

theorem Quiet.successes_append (h : Quiet es) : successes (log ++ es) = successes log := by
  rw [successes, successes, h.sent_append]
  exact filter_congr fun submission _ => decide_eq_decide.mpr h.succeeded_append

end Quiet

theorem mem_acquiredPermits {permit : ℕ} :
    permit ∈ acquiredPermits log ↔ ∃ size, .acquired permit size ∈ log := by
  rw [acquiredPermits, mem_filterMap]
  constructor
  · rintro ⟨event, hev, hpmt⟩
    cases event <;> cases hpmt
    exact ⟨_, hev⟩
  · rintro ⟨size, hmem⟩
    exact ⟨_, hmem, rfl⟩

theorem mem_settledPermits {permit : ℕ} :
    permit ∈ settledPermits log ↔ ∃ size result, .settled permit size result ∈ log := by
  rw [settledPermits, mem_filterMap]
  constructor
  · rintro ⟨event, hev, hpmt⟩
    cases event <;> cases hpmt
    exact ⟨_, _, hev⟩
  · rintro ⟨size, result, hmem⟩
    exact ⟨_, hmem, rfl⟩

/-! ### Keeping the books -/

section Books

variable {content : Bytes} {a : RingAccount}

theorem books_nil (content : Bytes) (nextId nextPermit : ℕ) : Books content
    ⟨[], [], 0, nextId, nextPermit, 0, 0, []⟩ where
  tiles := by simp [sent, Tiles]
  nextOffset_le := Nat.zero_le _
  id_lt := by simp [sent]
  id_nodup := by simp [sent]
  completed_sent := by simp [completedIds]
  inFlight_eq := rfl
  armed := by simp
  completedBytes_eq := rfl
  tracks := tracks_nil
  acquired_lt := by simp [acquiredPermits]
  lifetime_acquired := by simp [sent]
  lifetime_nodup := by simp [sent]
  settled_acquired := by simp
  settled_nodup := by simp [settledPermits]
  settled_iff := by simp [acquiredPermits]

section

variable (h : Books content a)
include h

theorem Books.settled_lt : ∀ permit ∈ settledPermits a.log, permit < a.nextPermit := by
  intro permit hpmt
  obtain ⟨size, result, hmem⟩ := mem_settledPermits.mp hpmt
  exact h.acquired_lt permit (mem_acquiredPermits.mpr ⟨size, h.settled_acquired _ _ _ hmem⟩)

theorem Books.lifetime_lt : ∀ submission ∈ sent a.log,
    submission.payloadLifetime < a.nextPermit := fun submission hsub =>
  h.acquired_lt _ (mem_acquiredPermits.mpr ⟨_, h.lifetime_acquired submission hsub⟩)

theorem Books.sent_nodup : (sent a.log).Nodup := List.Nodup.of_map TransferSubmission.id h.id_nodup

/-- A permit without a buffer, or a change of the next identifier. -/
theorem Books.skip {nextId nextPermit : ℕ} (hid : a.nextId ≤ nextId)
    (hpmt : a.nextPermit ≤ nextPermit) :
    Books content { a with nextId := nextId, nextPermit := nextPermit } :=
  { h with
    id_lt := fun submission hsub => lt_of_lt_of_le (h.id_lt submission hsub) hid
    acquired_lt := fun permit hmem => lt_of_lt_of_le (h.acquired_lt permit hmem) hpmt }

/-- A permit that comes to nothing: it is acquired and settled, and nothing is sent. -/
theorem Books.waste {es : List RingEvent} {nextId : ℕ} (hquiet : Quiet es) (hid : a.nextId ≤ nextId)
    (hacq : acquiredPermits es = [a.nextPermit]) (hset : settledPermits es = [a.nextPermit])
    (hmatch : ∀ permit size result, .settled permit size result ∈ es → .acquired permit size ∈ es) :
    Books content { a with
      log := a.log ++ es, nextId := nextId, nextPermit := a.nextPermit + 1 } where
  tiles := by rw [hquiet.sent_append]; exact h.tiles
  nextOffset_le := h.nextOffset_le
  id_lt := by
    rw [hquiet.sent_append]
    exact fun submission hsub => lt_of_lt_of_le (h.id_lt submission hsub) hid
  id_nodup := by rw [hquiet.sent_append]; exact h.id_nodup
  completed_sent := by
    rw [hquiet.sent_append, hquiet.completedIds_append]
    exact h.completed_sent
  inFlight_eq := by rw [hquiet.live_append]; exact h.inFlight_eq
  armed := h.armed
  completedBytes_eq := by rw [hquiet.successes_append]; exact h.completedBytes_eq
  tracks := by rw [hquiet.successes_append]; exact h.tracks
  acquired_lt := by
    rw [acquiredPermits_append, hacq, forall_mem_append, forall_mem_singleton]
    exact ⟨fun permit hold => Nat.lt_succ_of_lt (h.acquired_lt permit hold), Nat.lt_succ_self _⟩
  lifetime_acquired := by
    rw [hquiet.sent_append]
    exact fun submission hsub =>
      mem_append_left _ (h.lifetime_acquired submission hsub)
  lifetime_nodup := by rw [hquiet.sent_append]; exact h.lifetime_nodup
  settled_acquired := by
    intro permit size result hmem
    rcases mem_append.mp hmem with hold | hnew
    · exact mem_append_left _ (h.settled_acquired permit size result hold)
    · exact mem_append_right _ (hmatch permit size result hnew)
  settled_nodup := by
    rw [settledPermits_append, hset, nodup_append]
    refine ⟨h.settled_nodup, by simp, fun permit hpmt other hoth heq => ?_⟩
    rw [mem_singleton.mp hoth] at heq
    exact absurd (h.settled_lt permit hpmt) (by omega)
  settled_iff := by
    rw [acquiredPermits_append, hacq, settledPermits_append, hset, hquiet.live_append,
      forall_mem_append, forall_mem_singleton]
    simp only [mem_append, mem_singleton]
    refine ⟨fun permit hold => ?_, iff_of_true (.inr trivial) fun hlive => ?_⟩
    · rw [or_iff_left (Nat.ne_of_lt (h.acquired_lt permit hold))]
      exact h.settled_iff permit hold
    · obtain ⟨submission, hsub, heq⟩ := mem_map.mp hlive
      exact absurd (h.lifetime_lt submission (mem_live.mp hsub).1) (by omega)

theorem Books.completed_lt : ∀ id ∈ completedIds a.log, id < a.nextId := by
  intro id hid
  obtain ⟨submission, hsub, rfl⟩ := mem_map.mp (h.completed_sent id hid)
  exact h.id_lt submission hsub

end

section Launch

theorem nodup_map_snoc {α : Type} {f : α → ℕ} {l : List α} {last : α} (h : (l.map f).Nodup)
    (hlt : ∀ x ∈ l, f x < f last) : ((l ++ [last]).map f).Nodup := by
  rw [map_append, nodup_append]
  refine ⟨h, nodup_singleton _, fun _ hold _ hnew heq => ?_⟩
  obtain ⟨x, hx, rfl⟩ := mem_map.mp hold
  exact absurd (hlt x hx) (by rw [heq, mem_singleton.mp hnew]; exact lt_irrefl _)

variable {submission : TransferSubmission} {outcome : SubmitOutcome} {size : ℕ}

/-- The events of a chunk that is sent with the next permit. -/
def launchEvents (a : RingAccount) (submission : TransferSubmission) (outcome : SubmitOutcome)
    (size : ℕ) : List RingEvent :=
  [.acquired a.nextPermit size, .submitted submission outcome]

theorem sent_launchEvents (hsent : sentOf (.submitted submission outcome) = some submission) :
    sent (launchEvents a submission outcome size) = [submission] := by
  change (sentOf (.acquired a.nextPermit size) :: [sentOf (.submitted submission outcome)]).filterMap
    id = [submission]
  rw [hsent]
  rfl

theorem completedIds_launchEvents : completedIds (launchEvents a submission outcome size) = [] := rfl

theorem Books.live_launch (h : Books content a)
    (hsent : sentOf (.submitted submission outcome) = some submission)
    (hid : submission.id = a.nextId) :
    live (a.log ++ launchEvents a submission outcome size) = live a.log ++ [submission] := by
  have hfresh : submission.id ∉ completedIds a.log := by
    intro hmem
    exact absurd (h.completed_lt _ hmem) (by omega)
  rw [live, live, sent_append, completedIds_append, sent_launchEvents hsent,
    completedIds_launchEvents, append_nil, filter_append]
  simp [hfresh]

theorem succeeded_launch {other : TransferSubmission} :
    Succeeded (a.log ++ launchEvents a submission outcome size) other ↔ Succeeded a.log other := by
  rw [Succeeded, Succeeded, mem_append]
  exact or_iff_left (by simp [launchEvents])

theorem Books.successes_launch (h : Books content a)
    (hsent : sentOf (.submitted submission outcome) = some submission)
    (hid : submission.id = a.nextId) :
    successes (a.log ++ launchEvents a submission outcome size) = successes a.log := by
  have hfresh : ¬ Succeeded a.log submission := by
    intro hsucc
    exact absurd (h.completed_lt _ hsucc.mem_completedIds) (by omega)
  rw [successes, successes, sent_append, sent_launchEvents hsent, filter_append]
  simp [succeeded_launch, hfresh]

theorem Books.launch (h : Books content a) {entry : InFlight}
    (hsent : sentOf (.submitted submission outcome) = some submission)
    (hid : submission.id = a.nextId) (hoff : submission.offset = a.nextOffset)
    (hpay : submission.payload = slice content a.nextOffset size)
    (hlife : submission.payloadLifetime = a.nextPermit) (hpos : 0 < size)
    (hle : a.nextOffset + size ≤ content.length)
    (hkey : entryKey (submission.id, entry) = submissionKey submission)
    (harmed : entry.permit.buffer = some entry.requestedBytes ∧ entry.permit.accepted = true) :
    Books content { a with
      log := a.log ++ launchEvents a submission outcome size
      inFlight := a.inFlight ++ [(submission.id, entry)]
      nextOffset := a.nextOffset + size
      nextId := a.nextId + 1
      nextPermit := a.nextPermit + 1 } := by
  have hlen : submission.payload.length = size := by rw [hpay, length_slice hle]
  have hlog : sent (a.log ++ launchEvents a submission outcome size) = sent a.log ++ [submission] := by
    rw [sent_append, sent_launchEvents hsent]
  have hlive : live (a.log ++ launchEvents a submission outcome size) = live a.log ++ [submission] :=
    h.live_launch hsent hid
  have hcomp : completedIds (a.log ++ launchEvents a submission outcome size)
      = completedIds a.log := by
    rw [completedIds_append, completedIds_launchEvents, append_nil]
  have hsuccs : successes (a.log ++ launchEvents a submission outcome size) = successes a.log :=
    h.successes_launch hsent hid
  have hacq : acquiredPermits (a.log ++ launchEvents a submission outcome size)
      = acquiredPermits a.log ++ [a.nextPermit] := acquiredPermits_append _ _
  have hset : settledPermits (a.log ++ launchEvents a submission outcome size)
      = settledPermits a.log := by
    rw [settledPermits_append]
    exact append_nil _
  exact {
    tiles := by
      rw [hlog, take_add]
      change Tiles _ _ 0 _ (content.take a.nextOffset ++ slice content a.nextOffset size)
      rw [← hpay]
      refine h.tiles.snoc ?_ (by rw [hlen]; exact hpos)
      rw [hoff, length_take, Nat.min_eq_left h.nextOffset_le, zero_add]
    nextOffset_le := hle
    id_lt := by
      rw [hlog, forall_mem_append, forall_mem_singleton, hid]
      exact ⟨fun other hoth => Nat.lt_succ_of_lt (h.id_lt other hoth), Nat.lt_succ_self _⟩
    id_nodup := by
      rw [hlog]
      exact nodup_map_snoc h.id_nodup fun s hs => hid ▸ h.id_lt s hs
    completed_sent := by
      rw [hcomp, hlog, map_append]
      exact fun id hmem => mem_append_left _ (h.completed_sent id hmem)
    inFlight_eq := by
      rw [hlive, map_append, map_append, h.inFlight_eq]
      simp [hkey]
    armed := forall_mem_append.mpr ⟨h.armed, forall_mem_singleton.mpr harmed⟩
    completedBytes_eq := by rw [hsuccs]; exact h.completedBytes_eq
    tracks := by rw [hsuccs]; exact h.tracks
    acquired_lt := by
      rw [hacq, forall_mem_append, forall_mem_singleton]
      exact ⟨fun permit hold => Nat.lt_succ_of_lt (h.acquired_lt permit hold), Nat.lt_succ_self _⟩
    lifetime_acquired := by
      rw [hlog, forall_mem_append, forall_mem_singleton, hlife, hlen]
      exact ⟨fun other hoth => mem_append_left _ (h.lifetime_acquired other hoth),
        mem_append_right _ mem_cons_self⟩
    lifetime_nodup := by
      rw [hlog]
      exact nodup_map_snoc h.lifetime_nodup fun s hs => hlife ▸ h.lifetime_lt s hs
    settled_acquired := by
      intro permit size' result hmem
      rcases mem_append.mp hmem with hold | hnew
      · exact mem_append_left _ (h.settled_acquired permit size' result hold)
      · simp [launchEvents] at hnew
    settled_nodup := by rw [hset]; exact h.settled_nodup
    settled_iff := by
      rw [hacq, hset, hlive, map_append, forall_mem_append, forall_mem_singleton]
      simp only [mem_append, not_or, map_singleton, mem_singleton, hlife]
      refine ⟨fun permit hold => ?_, iff_of_false (fun hmem => ?_) fun hmem => hmem.2 trivial⟩
      · rw [and_iff_left (Nat.ne_of_lt (h.acquired_lt permit hold))]
        exact h.settled_iff permit hold
      · exact absurd (h.settled_lt _ hmem) (lt_irrefl _) }

end Launch

section Finish

variable {completion : TransferCompletion} {entry : InFlight} {result : TransferPermitSettlement}

def finishEvents (completion : TransferCompletion) (entry : InFlight)
    (result : TransferPermitSettlement) : List RingEvent :=
  [.completed completion, .settled entry.permit.serial entry.requestedBytes result]

theorem sent_finish (log : List RingEvent) :
    sent (log ++ finishEvents completion entry result) = sent log := by
  rw [sent_append]
  exact append_nil _

theorem completedIds_finish (log : List RingEvent) :
    completedIds (log ++ finishEvents completion entry result)
      = completedIds log ++ [completion.id] := completedIds_append _ _

theorem live_finish (log : List RingEvent) :
    live (log ++ finishEvents completion entry result)
      = (live log).filter fun submission => submission.id ≠ completion.id := by
  rw [live, live, sent_finish, completedIds_finish, filter_filter]
  refine filter_congr fun submission _ => ?_
  simp only [mem_append, mem_singleton, not_or, ne_eq, Bool.decide_and]
  rw [Bool.and_comm]

theorem succeeded_finish {log : List RingEvent} {submission : TransferSubmission} :
    Succeeded (log ++ finishEvents completion entry result) submission ↔
      Succeeded log submission ∨
        completion = ⟨submission.id, .success, submission.payload.length⟩ := by
  rw [Succeeded, Succeeded, mem_append]
  refine or_congr_right ?_
  simp only [finishEvents, mem_cons, RingEvent.completed.injEq, reduceCtorEq, not_mem_nil, or_false]
  exact eq_comm

section

variable (h : Books content a)
include h

theorem Books.exists_live (hent : (completion.id, entry) ∈ a.inFlight) :
    ∃ submission ∈ live a.log, submission.id = completion.id ∧ submission.offset = entry.offset ∧
      submission.payload.length = entry.requestedBytes ∧
      submission.payloadLifetime = entry.permit.serial := by
  have hmem : entryKey (completion.id, entry) ∈ (live a.log).map submissionKey := by
    rw [← h.inFlight_eq]
    exact mem_map_of_mem hent
  obtain ⟨submission, hsub, hkey⟩ := mem_map.mp hmem
  simp only [submissionKey, entryKey, Prod.mk.injEq] at hkey
  exact ⟨submission, hsub, hkey⟩

theorem Books.eq_of_id_eq {s s' : TransferSubmission} (hs : s ∈ sent a.log)
    (hs' : s' ∈ sent a.log) (hid : s.id = s'.id) : s = s' :=
  inj_on_of_nodup_map h.id_nodup hs hs' hid

theorem Books.eq_of_lifetime_eq {s s' : TransferSubmission} (hs : s ∈ sent a.log)
    (hs' : s' ∈ sent a.log) (hlife : s.payloadLifetime = s'.payloadLifetime) : s = s' :=
  inj_on_of_nodup_map h.lifetime_nodup hs hs' hlife

/-- A completion that is not a full success leaves the successes alone. -/
theorem Books.successes_failed (hent : (completion.id, entry) ∈ a.inFlight)
    (hfail : ¬ (completion.code = .success ∧ completion.transferredBytes = entry.requestedBytes)) :
    successes (a.log ++ finishEvents completion entry result) = successes a.log := by
  obtain ⟨submission, hlive, hid, -, hlen, -⟩ := h.exists_live hent
  rw [successes, successes, sent_finish]
  refine filter_congr fun other hoth => decide_eq_decide.mpr ?_
  rw [succeeded_finish]
  refine or_iff_left fun heq => hfail ?_
  have hoth' : other = submission := by
    refine h.eq_of_id_eq hoth (mem_live.mp hlive).1 ?_
    rw [hid, heq]
  rw [heq, ← hlen, hoth']
  exact ⟨rfl, rfl⟩

theorem Books.mem_successes_succeeded {submission : TransferSubmission}
    (hsub : submission ∈ sent a.log)
    (hcompl : completion = ⟨submission.id, .success, submission.payload.length⟩)
    (other : TransferSubmission) :
    other ∈ successes (a.log ++ finishEvents completion entry result) ↔
      other ∈ successes a.log ∨ other = submission := by
  rw [mem_successes, mem_successes, sent_finish, succeeded_finish, and_or_left]
  refine or_congr_right ⟨?_, ?_⟩
  · rintro ⟨hoth, heq⟩
    rw [hcompl] at heq
    exact h.eq_of_id_eq hoth hsub (congrArg TransferCompletion.id heq).symm
  · rintro rfl
    exact ⟨hsub, hcompl⟩

/-- The permit of an entry in flight was acquired and has not been settled. -/
theorem Books.serial_unsettled (hent : (completion.id, entry) ∈ a.inFlight) :
    .acquired entry.permit.serial entry.requestedBytes ∈ a.log ∧
      entry.permit.serial ∉ settledPermits a.log := by
  obtain ⟨submission, hsub, -, -, hlen, hlife⟩ := h.exists_live hent
  have hacq := h.lifetime_acquired submission (mem_live.mp hsub).1
  rw [hlife, hlen] at hacq
  refine ⟨hacq, ?_⟩
  rw [h.settled_iff _ (mem_acquiredPermits.mpr ⟨_, hacq⟩), not_not, ← hlife]
  exact mem_map_of_mem hsub

/-- After a completion the permits of the other entries are in flight. -/
theorem Books.lifetime_finish (hent : (completion.id, entry) ∈ a.inFlight) (permit : ℕ) :
    permit ∈ (live (a.log ++ finishEvents completion entry result)).map
        TransferSubmission.payloadLifetime ↔
      permit ∈ (live a.log).map TransferSubmission.payloadLifetime ∧
        permit ≠ entry.permit.serial := by
  obtain ⟨submission, hsub, hid, -, -, hlife⟩ := h.exists_live hent
  have hsent := (mem_live.mp hsub).1
  rw [live_finish, mem_map, mem_map]
  constructor
  · rintro ⟨other, hoth, rfl⟩
    obtain ⟨hlive, hne⟩ := mem_filter.mp hoth
    refine ⟨⟨other, hlive, rfl⟩, fun heq => of_decide_eq_true hne ?_⟩
    rw [h.eq_of_lifetime_eq (mem_live.mp hlive).1 hsent (heq.trans hlife.symm), hid]
  · rintro ⟨⟨other, hlive, rfl⟩, hne⟩
    refine ⟨other, mem_filter.mpr ⟨hlive, decide_eq_true fun hsame => hne ?_⟩, rfl⟩
    rw [h.eq_of_id_eq (mem_live.mp hlive).1 hsent (hsame.trans hid.symm), hlife]

/-- A completion, with the sum and the mark of the successes after it. -/
theorem Books.finish (hent : (completion.id, entry) ∈ a.inFlight) {bytes mark : ℕ}
    {segments : List (ℕ × ℕ)}
    (hbytes : bytes = ((successes (a.log ++ finishEvents completion entry result)).map
      fun s => s.payload.length).sum)
    (htracks : Tracks ((successes (a.log ++ finishEvents completion entry result)).map interval)
      mark segments) :
    Books content { a with
      log := a.log ++ finishEvents completion entry result
      inFlight := a.inFlight.filter (·.1 ≠ completion.id)
      completedBytes := bytes
      completionWatermark := mark
      successfulSegments := segments } := by
  obtain ⟨hentry, hser⟩ := h.serial_unsettled hent
  have hacq : acquiredPermits (a.log ++ finishEvents completion entry result)
      = acquiredPermits a.log := by
    rw [acquiredPermits_append]
    exact append_nil _
  have hset : settledPermits (a.log ++ finishEvents completion entry result)
      = settledPermits a.log ++ [entry.permit.serial] := settledPermits_append _ _
  exact {
    tiles := by rw [sent_finish]; exact h.tiles
    nextOffset_le := h.nextOffset_le
    id_lt := by rw [sent_finish]; exact h.id_lt
    id_nodup := by rw [sent_finish]; exact h.id_nodup
    completed_sent := by
      obtain ⟨submission, hsub, hid, -⟩ := h.exists_live hent
      rw [sent_finish, completedIds_finish, forall_mem_append, forall_mem_singleton, ← hid]
      exact ⟨h.completed_sent, mem_map_of_mem (mem_live.mp hsub).1⟩
    inFlight_eq := by
      rw [live_finish]
      have hfilter := congrArg (filter (fun key => decide (key.1 ≠ completion.id))) h.inFlight_eq
      rw [filter_map, filter_map] at hfilter
      exact hfilter
    armed := fun other hoth => h.armed other (mem_filter.mp hoth).1
    completedBytes_eq := hbytes
    tracks := htracks
    acquired_lt := by rw [hacq]; exact h.acquired_lt
    lifetime_acquired := by
      rw [sent_finish]
      exact fun other hoth => mem_append_left _ (h.lifetime_acquired other hoth)
    lifetime_nodup := by rw [sent_finish]; exact h.lifetime_nodup
    settled_acquired := by
      intro permit size result' hmem
      refine mem_append_left _ ?_
      rcases mem_append.mp hmem with hold | hnew
      · exact h.settled_acquired permit size result' hold
      · simp only [finishEvents, mem_cons, reduceCtorEq, RingEvent.settled.injEq,
          not_mem_nil, or_false, false_or] at hnew
        obtain ⟨rfl, rfl, -⟩ := hnew
        exact hentry
    settled_nodup := by
      rw [hset]
      exact h.settled_nodup.append (nodup_singleton _) (disjoint_singleton.mpr hser)
    settled_iff := by
      rw [hacq, hset]
      intro permit hpmt
      rw [mem_append, mem_singleton, h.lifetime_finish hent, h.settled_iff permit hpmt,
        not_and_or, not_not] }

theorem Books.fail (hent : (completion.id, entry) ∈ a.inFlight)
    (hfail : ¬ (completion.code = .success ∧ completion.transferredBytes = entry.requestedBytes)) :
    Books content { a with
      log := a.log ++ finishEvents completion entry result
      inFlight := a.inFlight.filter (·.1 ≠ completion.id) } := by
  refine h.finish hent ?_ ?_
  · rw [h.successes_failed hent hfail]
    exact h.completedBytes_eq
  · rw [h.successes_failed hent hfail]
    exact h.tracks

theorem Books.apart {s s' : TransferSubmission} (hs : s ∈ sent a.log) (hs' : s' ∈ sent a.log)
    (hne : s ≠ s') :
    s.offset + s.payload.length ≤ s'.offset ∨ s'.offset + s'.payload.length ≤ s.offset := by
  have hpairwise : (sent a.log).Pairwise fun s s' =>
      s.offset + s.payload.length ≤ s'.offset ∨ s'.offset + s'.payload.length ≤ s.offset :=
    h.tiles.apart.imp .inl
  have hsymm : Std.Symm fun s s' : TransferSubmission =>
      s.offset + s.payload.length ≤ s'.offset ∨ s'.offset + s'.payload.length ≤ s.offset :=
    ⟨fun _ _ => Or.symm⟩
  exact hpairwise.forall hs hs' hne

theorem Books.succeed (hent : (completion.id, entry) ∈ a.inFlight)
    (hcode : completion.code = .success)
    (htran : completion.transferredBytes = entry.requestedBytes) :
    Books content { a with
      log := a.log ++ finishEvents completion entry result
      inFlight := a.inFlight.filter (·.1 ≠ completion.id)
      completedBytes := a.completedBytes + entry.requestedBytes
      completionWatermark := (advance
        (insertOrAssign entry.offset entry.requestedBytes a.successfulSegments).length
        a.completionWatermark
        (insertOrAssign entry.offset entry.requestedBytes a.successfulSegments)).1
      successfulSegments := (advance
        (insertOrAssign entry.offset entry.requestedBytes a.successfulSegments).length
        a.completionWatermark
        (insertOrAssign entry.offset entry.requestedBytes a.successfulSegments)).2 } := by
  obtain ⟨submission, hsub, hid, hoff, hlen, -⟩ := h.exists_live hent
  obtain ⟨hsent, hpend⟩ := mem_live.mp hsub
  have hcompl : completion = ⟨submission.id, .success, submission.payload.length⟩ := by
    cases completion
    simp_all
  have hnew : submission ∉ successes a.log := fun hmem =>
    hpend (mem_successes.mp hmem).2.mem_completedIds
  have hmem : ∀ other, other ∈ successes (a.log ++ finishEvents completion entry result) ↔
      other ∈ successes a.log ∨ other = submission :=
    h.mem_successes_succeeded hsent hcompl
  have hperm : (successes (a.log ++ finishEvents completion entry result)).Perm
      (submission :: successes a.log) := by
    refine (perm_ext_iff_of_nodup ?_ ?_).mpr fun other => ?_
    · rw [successes, sent_finish]
      exact h.sent_nodup.filter _
    · exact nodup_cons.mpr ⟨hnew, h.sent_nodup.filter _⟩
    · rw [hmem, mem_cons, or_comm]
  refine h.finish hent ?_ ?_
  · rw [(hperm.map fun s => s.payload.length).sum_nat, map_cons, sum_cons, hlen,
      ← h.completedBytes_eq, add_comm]
  · have hpos : 0 < entry.requestedBytes := hlen ▸ h.tiles.length_pos hsent
    have hapart : ∀ segment ∈ (successes a.log).map interval,
        segment.1 + segment.2 ≤ entry.offset ∨ entry.offset + entry.requestedBytes ≤ segment.1 := by
      intro segment hseg
      obtain ⟨other, hoth, rfl⟩ := mem_map.mp hseg
      have hne : other ≠ submission := fun heq => hnew (heq ▸ hoth)
      rw [← hoff, ← hlen]
      exact h.apart (mem_successes.mp hoth).1 hsent hne
    refine (h.tracks.insert hpos hapart).congr fun segment => ?_
    rw [mem_append, mem_singleton, mem_map, mem_map]
    constructor
    · rintro ⟨other, hoth, rfl⟩
      rcases (hmem other).mp hoth with hold | rfl
      · exact .inl ⟨other, hold, rfl⟩
      · exact .inr (by rw [interval, hoff, hlen])
    · rintro (⟨other, hoth, rfl⟩ | rfl)
      · exact ⟨other, (hmem other).mpr (.inl hoth), rfl⟩
      · exact ⟨submission, (hmem submission).mpr (.inr rfl), by rw [interval, hoff, hlen]⟩

end

end Finish

end Books

end TransferRing

end KairosBoot
