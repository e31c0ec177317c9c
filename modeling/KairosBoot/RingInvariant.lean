import KairosBoot.Outcomes
import KairosBoot.RingLedger

/-! # The invariant of the transfer ring

`RingInvariant` holds of a new ring and is kept by every call, whatever the source, the permits
and the backend do; `ring_laws` reads the properties of the ring off it, for every sequence of
calls. -/

namespace KairosBoot

open ByteLib Outcomes Pieces PrefixTracking List

namespace TransferRing

variable {τ : Type}

/-! ### Settlements -/

/-- What a log says about a permit that has been settled. -/
structure Justified (log : List RingEvent) : Prop where
  /-- Fully transferred: its submission has completed before, with all its bytes. -/
  fully : ∀ front rest permit size,
    log = front ++ .settled permit size .fullyTransferred :: rest →
    ∃ submission ∈ sent front, submission.payloadLifetime = permit ∧
      submission.payload.length = size ∧ .completed ⟨submission.id, .success, size⟩ ∈ front
  /-- Not submitted: no submission of it was accepted or threw. -/
  notSubmitted : ∀ permit size, .settled permit size .notSubmitted ∈ log →
    permit ∉ (sent log).map TransferSubmission.payloadLifetime
  /-- Partial or unknown: its submission has completed, but not with all its bytes. -/
  unknown : ∀ permit size, .settled permit size .partialOrUnknown ∈ log →
    ∃ submission ∈ sent log, submission.payloadLifetime = permit ∧
      submission.id ∈ completedIds log ∧ ¬ Succeeded log submission

theorem justified_nil : Justified [] where
  fully := by simp
  notSubmitted := by simp
  unknown := by simp

section Settlements

variable {content : Bytes} {a : RingAccount}

/-- Nothing is sent or completed, and nothing is settled but as not submitted. -/
theorem Justified.waste (h : Justified a.log) (hbooks : Books content a) {es : List RingEvent}
    (hquiet : Quiet es)
    (hset : ∀ permit size result, .settled permit size result ∈ es →
      permit = a.nextPermit ∧ result = .notSubmitted) : Justified (a.log ++ es) where
  fully := by
    intro front rest permit size heq
    rcases append_eq_append_cons heq with ⟨middle, hlog⟩ | ⟨middle, -, hes⟩
    · exact h.fully front middle permit size hlog
    · have hmem : .settled permit size .fullyTransferred ∈ es := by simp [hes]
      cases (hset permit size _ hmem).2
  notSubmitted := by
    intro permit size hmem
    rw [hquiet.sent_append]
    rcases mem_append.mp hmem with hold | hnew
    · exact h.notSubmitted permit size hold
    · rw [(hset permit size _ hnew).1]
      intro hlife
      obtain ⟨submission, hsub, heq⟩ := mem_map.mp hlife
      exact absurd (hbooks.lifetime_lt submission hsub) (by omega)
  unknown := by
    intro permit size hmem
    rw [hquiet.sent_append, hquiet.completedIds_append]
    rcases mem_append.mp hmem with hold | hnew
    · obtain ⟨submission, hsub, hlife, hid, hfail⟩ := h.unknown permit size hold
      exact ⟨submission, hsub, hlife, hid, fun hs => hfail (hquiet.succeeded_append.mp hs)⟩
    · cases (hset permit size _ hnew).2

theorem Justified.launch (h : Justified a.log) (hbooks : Books content a)
    {submission : TransferSubmission} {outcome : SubmitOutcome} {size : ℕ}
    (hsent : sentOf (.submitted submission outcome) = some submission)
    (hlife : submission.payloadLifetime = a.nextPermit) :
    Justified (a.log ++ launchEvents a submission outcome size) where
  fully := by
    intro front rest permit size' heq
    rcases append_eq_append_cons heq with ⟨middle, hlog⟩ | ⟨middle, -, hes⟩
    · exact h.fully front middle permit size' hlog
    · have hmem : .settled permit size' .fullyTransferred
          ∈ launchEvents a submission outcome size := by simp [hes]
      simp [launchEvents] at hmem
  notSubmitted := by
    intro permit size' hmem
    rcases mem_append.mp hmem with hold | hnew
    · rw [sent_append, sent_launchEvents hsent, map_append, mem_append, not_or]
      refine ⟨h.notSubmitted permit size' hold, fun heq => ?_⟩
      have hpmt := hbooks.settled_lt permit (mem_settledPermits.mpr ⟨_, _, hold⟩)
      rw [map_singleton, mem_singleton, hlife] at heq
      omega
    · simp [launchEvents] at hnew
  unknown := by
    intro permit size' hmem
    rcases mem_append.mp hmem with hold | hnew
    · obtain ⟨other, hoth, hoth', hid, hfail⟩ := h.unknown permit size' hold
      refine ⟨other, ?_, hoth', ?_, fun hs => hfail (succeeded_launch.mp hs)⟩
      · rw [sent_append]
        exact mem_append_left _ hoth
      · rw [completedIds_append]
        exact mem_append_left _ hid
    · simp [launchEvents] at hnew

/-- A completion settles its permit as its code and its bytes say. -/
theorem Justified.finish (h : Justified a.log) (hbooks : Books content a)
    {completion : TransferCompletion} {entry : InFlight} {result : TransferPermitSettlement}
    (hent : (completion.id, entry) ∈ a.inFlight)
    (hres : result = if completion.code = .success ∧
      completion.transferredBytes = entry.requestedBytes then .fullyTransferred
        else .partialOrUnknown) :
    Justified (a.log ++ finishEvents completion entry result) := by
  obtain ⟨submission, hlive, hid, -, hlen, hlife⟩ := hbooks.exists_live hent
  obtain ⟨hsent, hpend⟩ := mem_live.mp hlive
  refine ⟨?_, ?_, ?_⟩
  · intro front rest permit size heq
    rcases append_eq_append_cons heq with ⟨middle, hlog⟩ | ⟨middle, hfront, hes⟩
    · exact h.fully front middle permit size hlog
    · rcases middle with _ | ⟨event, _ | ⟨event', middle⟩⟩
      · simp [finishEvents] at hes
      · simp only [finishEvents, cons_append, nil_append, cons.injEq,
          RingEvent.settled.injEq] at hes
        obtain ⟨rfl, ⟨rfl, rfl, rfl⟩, -⟩ := hes
        have hfull : completion.code = .success ∧
            completion.transferredBytes = entry.requestedBytes := by
          by_contra hnot
          rw [if_neg hnot] at hres
          cases hres
        refine ⟨submission, ?_, hlife, hlen, ?_⟩
        · rw [hfront, sent_append]
          exact mem_append_left _ hsent
        · rw [hfront, hid, ← hfull.1, ← hfull.2]
          simp
      · simp [finishEvents] at hes
  · intro permit size hmem
    rw [sent_finish]
    rcases mem_append.mp hmem with hold | hnew
    · exact h.notSubmitted permit size hold
    · simp only [finishEvents, mem_cons, reduceCtorEq, RingEvent.settled.injEq,
        not_mem_nil, or_false, false_or] at hnew
      obtain ⟨-, -, hnot⟩ := hnew
      rw [← hnot] at hres
      split_ifs at hres
  · intro permit size hmem
    rw [sent_finish, completedIds_finish]
    rcases mem_append.mp hmem with hold | hnew
    · obtain ⟨other, hoth, hoth', hdone, hfail⟩ := h.unknown permit size hold
      refine ⟨other, hoth, hoth', mem_append_left _ hdone, fun hs => ?_⟩
      rcases succeeded_finish.mp hs with hs | heq
      · exact hfail hs
      · -- The completed submission is not the one that is in flight.
        rw [heq] at hid
        exact hpend (hid ▸ hdone)
    · simp only [finishEvents, mem_cons, reduceCtorEq, RingEvent.settled.injEq,
        not_mem_nil, or_false, false_or] at hnew
      obtain ⟨rfl, -, rfl⟩ := hnew
      refine ⟨submission, hsent, hlife, ?_, fun hs => ?_⟩
      · rw [hid]
        simp
      · rcases succeeded_finish.mp hs with hs | heq
        · exact hpend hs.mem_completedIds
        · rw [if_pos ⟨by rw [heq], by rw [heq]; exact hlen⟩] at hres
          cases hres

end Settlements

/-! ### Phases -/

/-- The bytes of the source; a ring without a source has none. -/
def content (r : TransferRing τ) : Bytes := (r.source.map TransferSource.content).getD []

/-- No submission has failed. -/
def Progressing (r : TransferRing τ) : Prop :=
  ∀ submission ∈ sent r.log, submission ∈ live r.log ∨ Succeeded r.log submission

/-- The ring is being drained, or it has ended with the certainty of now. -/
inductive Stopped (r : TransferRing τ) : Prop
  | draining : r.state = .cancelling ∨ r.state = .drainingFailure → r.error.isSome → Stopped r
  | ended (error : TransferError) : r.state = .cancelled ∨ r.state = .failed → r.inFlight = [] →
      r.error = some error → error.certainty = r.currentCertainty → Stopped r

theorem Stopped.state_ne {r : TransferRing τ} (h : Stopped r) :
    r.state ≠ .idle ∧ r.state ≠ .running ∧ r.state ≠ .completed := by
  cases h with
  | draining hstate => rcases hstate with hstate | hstate <;> simp [hstate]
  | ended error hstate => rcases hstate with hstate | hstate <;> simp [hstate]

/-- What the state of a ring stands for. -/
inductive Phase (r : TransferRing τ) : Prop
  | idle : r.state = .idle → r.account = ⟨[], [], 0, 1, 0, 0, 0, []⟩ → r.totalBytes = 0 → Phase r
  | running : r.state = .running → Progressing r → Phase r
  | stopped : Stopped r → Phase r
  | completed : r.state = .completed → r.inFlight = [] → r.nextOffset = r.totalBytes →
      Progressing r → Phase r

/-- What a ring keeps besides its phase. -/
structure Accounts (config : TransferRingConfig) (r : TransferRing τ) : Prop where
  books : Books r.content r.account
  justified : Justified r.log
  inFlight_le : r.inFlight.length ≤ config.depth
  totalBytes_eq : r.totalBytes = r.content.length

structure RingInvariant (config : TransferRingConfig) (r : TransferRing τ) : Prop
    extends accounts : Accounts config r where
  phase : Phase r

variable {env : RingEnvironment τ} {config : TransferRingConfig} {r : TransferRing τ}

/-- A step of the control: accounts and source are as before. -/
structure SameAccount (r r' : TransferRing τ) : Prop where
  account : r'.account = r.account
  source : r'.source = r.source
  totalBytes : r'.totalBytes = r.totalBytes

variable {r' : TransferRing τ} {source : TransferSource τ} {a : RingAccount}

section

variable (h : SameAccount r r')
include h

theorem SameAccount.trans {r'' : TransferRing τ} (h' : SameAccount r' r'') : SameAccount r r'' :=
  ⟨h'.account.trans h.account, h'.source.trans h.source, h'.totalBytes.trans h.totalBytes⟩

theorem SameAccount.log : r'.log = r.log := congrArg RingAccount.log h.account

end

section

variable (h : Accounts config r)
include h

theorem Accounts.invariant (hph : Phase r) : RingInvariant config r := ⟨h, hph⟩

theorem Accounts.update (hacc : r'.account = a) (hsrc : r'.source = r.source)
    (htot : r'.totalBytes = r.totalBytes) (hbooks : Books r.content a) (hjustified : Justified a.log)
    (hdepth : a.inFlight.length ≤ config.depth) : Accounts config r' := by
  have hcont : r'.content = r.content := by rw [content, content, hsrc]
  subst hacc
  exact ⟨hcont ▸ hbooks, hjustified, hdepth, htot.trans (hcont ▸ h.totalBytes_eq)⟩

theorem Accounts.same (hsame : SameAccount r r') : Accounts config r' :=
  h.update hsame.account hsame.source hsame.totalBytes h.books h.justified h.inFlight_le

theorem Accounts.stop (hsame : SameAccount r r') (hstop : Stopped r') : RingInvariant config r' :=
  (h.same hsame).invariant (.stopped hstop)

end

theorem settleTerminalState_sameAccount (r : TransferRing τ) :
    SameAccount r (settleTerminalState r) := by
  unfold settleTerminalState updateCertainty
  split_ifs <;> exact ⟨rfl, rfl, rfl⟩

/-- A state that is drained ends with the certainty of now. -/
theorem settleTerminalState_draining (hstate : r.state = .cancelling ∨ r.state = .drainingFailure)
    (herr : r.error.isSome) : Stopped (settleTerminalState r) := by
  obtain ⟨error, herr'⟩ := Option.isSome_iff_exists.mp herr
  have hupdated : ∀ state, (updateCertainty { r with state := state }).error
      = some { error with certainty := r.currentCertainty } := by
    intro state
    simp only [updateCertainty, herr', Option.map_some]
    rfl
  unfold settleTerminalState
  rcases hstate with hstate | hstate
  · rw [hstate]
    simp only [reduceCtorEq, false_and, if_false, true_and]
    split_ifs with hemp
    · exact .ended _ (.inl rfl) hemp (hupdated _) rfl
    · exact .draining (.inl hstate) herr
  · rw [hstate]
    simp only [reduceCtorEq, false_and, if_false, true_and]
    split_ifs with hemp
    · exact .ended _ (.inr rfl) hemp (hupdated _) rfl
    · exact .draining (.inr hstate) herr

theorem settleTerminalState_of_ne (hrunning : r.state ≠ .running) (hcancelling : r.state ≠ .cancelling)
    (hdrain : r.state ≠ .drainingFailure) : settleTerminalState r = r := by
  simp [settleTerminalState, hrunning, hcancelling, hdrain]

theorem settleTerminalState_stopped (h : Stopped r) : Stopped (settleTerminalState r) := by
  cases h with
  | draining hstate herr => exact settleTerminalState_draining hstate herr
  | ended error hstate hemp herr hcert =>
      rw [settleTerminalState_of_ne (by rcases hstate with h | h <;> simp [h])
        (by rcases hstate with h | h <;> simp [h]) (by rcases hstate with h | h <;> simp [h])]
      exact .ended error hstate hemp herr hcert

theorem settleTerminalState_phase (h : Phase r) : Phase (settleTerminalState r) := by
  cases h with
  | idle hstate hacc htot =>
      rw [settleTerminalState_of_ne (by simp [hstate]) (by simp [hstate]) (by simp [hstate])]
      exact .idle hstate hacc htot
  | running hstate hprog =>
      unfold settleTerminalState
      rw [hstate]
      simp only [reduceCtorEq, false_and, if_false, true_and]
      split_ifs with hdone
      · exact .completed rfl hdone.2 hdone.1 hprog
      · exact .running hstate hprog
  | stopped hstop => exact .stopped (settleTerminalState_stopped hstop)
  | completed hstate hemp hoff hprog =>
      rw [settleTerminalState_of_ne (by simp [hstate]) (by simp [hstate]) (by simp [hstate])]
      exact .completed hstate hemp hoff hprog

theorem RingInvariant.settleTerminalState (h : RingInvariant config r) :
    RingInvariant config (settleTerminalState r) :=
  (h.same (settleTerminalState_sameAccount r)).invariant (settleTerminalState_phase h.phase)

/-- A state that a failure ends: it is running, or it is drained already. -/
def Active (r : TransferRing τ) : Prop :=
  r.state = .running ∨ (r.state = .cancelling ∨ r.state = .drainingFailure) ∧ r.error.isSome

theorem recordError_spec (kind : TransferErrorKind) (r : TransferRing τ) :
    SameAccount r (recordError kind r) ∧ (recordError kind r).error.isSome ∧
      (recordError kind r).state = r.state := by
  unfold recordError
  cases herr : r.error with
  | some error => exact ⟨⟨rfl, rfl, rfl⟩, by simp [herr], rfl⟩
  | none => exact ⟨⟨rfl, rfl, rfl⟩, rfl, rfl⟩

theorem beginFailure_sameAccount (env : RingEnvironment τ) (config : TransferRingConfig)
    (kind : TransferErrorKind) (r : TransferRing τ) :
    SameAccount r (beginFailure env config kind r) := by
  have hsame := (recordError_spec kind r).1
  unfold beginFailure
  split_ifs with hrunning
  · have hleave : SameAccount (recordError kind r)
        (leaveRunning env config .drainingFailure (recordError kind r)) := ⟨rfl, rfl, rfl⟩
    exact (hsame.trans hleave).trans (settleTerminalState_sameAccount _)
  · exact hsame.trans (settleTerminalState_sameAccount _)

/-- `begin_failure` only touches the control, and it stops the ring. -/
theorem beginFailure_spec (env : RingEnvironment τ) (config : TransferRingConfig)
    (kind : TransferErrorKind) (hactive : Active r) :
    SameAccount r (beginFailure env config kind r) ∧ Stopped (beginFailure env config kind r) := by
  obtain ⟨-, herr, hstate⟩ := recordError_spec kind r
  refine ⟨beginFailure_sameAccount env config kind r, ?_⟩
  unfold beginFailure
  split_ifs with hrunning
  · exact settleTerminalState_draining (.inr rfl) herr
  · rw [hstate] at hrunning
    exact settleTerminalState_draining (hstate ▸ (hactive.resolve_left hrunning).1) herr

/-! ### The log grows -/

section Log

variable {front : List RingEvent} {permit : TransferPermit}

theorem settle_log {result : TransferPermitSettlement} (h : front <+: r.log) :
    front <+: (settle env permit result r).log := by
  unfold settle
  split
  · exact h
  · exact h.trans (prefix_append _ _)

theorem beginFailure_log {kind : TransferErrorKind} (h : front <+: r.log) :
    front <+: (beginFailure env config kind r).log := by
  rwa [(beginFailure_sameAccount env config kind r).log]

theorem submitChunk_log {payload : Bytes} (h : front <+: r.log) :
    front <+: (submitChunk env config permit payload r).2.log := by
  have hsub : ∀ event, front <+: r.log ++ [event] := fun event => h.trans (prefix_append _ _)
  unfold submitChunk
  dsimp only
  split_ifs with hused
  · exact beginFailure_log (settle_log h)
  · split
    · exact beginFailure_log (hsub _)
    · exact hsub _
    · exact beginFailure_log (settle_log (hsub _))

theorem pumpPermit_log {maximumChunk : ℕ} (h : front <+: r.log) :
    front <+: (pumpPermit env config source maximumChunk permit r).2.log := by
  unfold pumpPermit
  dsimp only
  split_ifs with hbad hread
  · exact beginFailure_log (settle_log h)
  · exact submitChunk_log h
  · exact settle_log (beginFailure_log h)

theorem pumpRound_log (h : front <+: r.log) : front <+: (pumpRound env config source r).2.log := by
  unfold pumpRound
  dsimp only
  split
  · exact h
  · exact h
  · exact pumpPermit_log (h.trans (prefix_append _ _))

theorem pumpLoop_log {fuel : ℕ} {submitted : Bool} (h : front <+: r.log) :
    front <+: (pumpLoop env config source fuel submitted r).2.log := by
  induction fuel generalizing submitted r with
  | zero => exact h
  | succ fuel ih =>
      rw [pumpLoop]
      split_ifs with hmore
      · have hround : front <+: (pumpRound env config source r).2.log := pumpRound_log h
        dsimp only
        split
        · exact ih hround
        · exact hround
        · exact hround
      · exact h

theorem pump_log (h : front <+: r.log) : front <+: (pump env config r).2.log := by
  unfold pump
  cases r.source with
  | none => exact h
  | some source =>
      dsimp only
      split_ifs with hstate
      · exact h
      · split
        · exact pumpLoop_log h
        · rw [(settleTerminalState_sameAccount _).log]
          exact pumpLoop_log h

end Log

/-! ### Pumping -/

theorem settle_account (env : RingEnvironment τ) (permit : TransferPermit)
    (result : TransferPermitSettlement) (r : TransferRing τ) :
    (settle env permit result r).account = { r.account with
      log := r.log ++ (permit.buffer.map fun size =>
        RingEvent.settled permit.serial size result).toList } := by
  unfold settle
  cases permit.buffer with
  | none => simp [account]
  | some size => rfl

theorem settle_source (env : RingEnvironment τ) (permit : TransferPermit)
    (result : TransferPermitSettlement) (r : TransferRing τ) :
    (settle env permit result r).source = r.source ∧
      (settle env permit result r).totalBytes = r.totalBytes ∧
      (settle env permit result r).state = r.state ∧
      (settle env permit result r).error = r.error := by
  unfold settle
  cases permit.buffer with
  | none => exact ⟨rfl, rfl, rfl, rfl⟩
  | some size => exact ⟨rfl, rfl, rfl, rfl⟩

/-- Settling a permit does not change what has stopped. -/
theorem Stopped.settle (h : Stopped r) (permit : TransferPermit)
    (result : TransferPermitSettlement) : Stopped (settle env permit result r) := by
  unfold TransferRing.settle
  cases permit.buffer with
  | none => exact h
  | some size =>
      cases h with
      | draining hstate herr => exact .draining hstate herr
      | ended error hstate hemp herr hcert =>
          exact .ended error hstate hemp herr hcert

theorem Stopped.dropPermit (h : Stopped r) (permit : TransferPermit) :
    Stopped (dropPermit env permit r) := h.settle permit _

/-- The ring with the next permit. -/
def grant (buffer : Option ℕ) (world : τ) (r : TransferRing τ) : TransferRing τ :=
  { r with
    world := world
    nextPermit := r.nextPermit + 1
    log := r.log ++ (buffer.map (RingEvent.acquired r.nextPermit)).toList }

/-- A permit that comes to nothing, with the events between its acquisition and its settlement. -/
theorem RingInvariant.waste (h : RingInvariant config r) (size : ℕ) {nextId : ℕ}
    (between : List RingEvent) (hquiet : Quiet between) (hacq : acquiredPermits between = [])
    (hset : settledPermits between = []) (hid : r.nextId ≤ nextId)
    (hacc : r'.account = { r.account with
      log := r.log ++ (.acquired r.nextPermit size :: between ++
        [.settled r.nextPermit size .notSubmitted])
      nextId := nextId
      nextPermit := r.nextPermit + 1 }) (hsrc : r'.source = r.source)
    (htot : r'.totalBytes = r.totalBytes) : Accounts config r' := by
  have hevs : Quiet (.acquired r.nextPermit size :: between ++
      [.settled r.nextPermit size .notSubmitted]) := by
    refine ⟨?_, ?_⟩
    · rw [sent_append]
      change sent between ++ [] = []
      rw [hquiet.sent, append_nil]
    · rw [completedIds_append]
      change completedIds between ++ [] = []
      rw [hquiet.completed, append_nil]
  have hnew : ∀ permit size' result, .settled permit size' result ∈
      (.acquired r.nextPermit size :: between ++ [.settled r.nextPermit size .notSubmitted]) →
      permit = r.nextPermit ∧ size' = size ∧ result = .notSubmitted := by
    intro permit size' result hmem
    rcases mem_append.mp hmem with hmem | hmem
    · rcases mem_cons.mp hmem with heq | hmem
      · cases heq
      · have hpmt : permit ∈ settledPermits between := mem_settledPermits.mpr ⟨_, _, hmem⟩
        rw [hset] at hpmt
        cases hpmt
    · cases mem_singleton.mp hmem
      exact ⟨rfl, rfl, rfl⟩
  refine h.update hacc hsrc htot ?_ ?_ h.inFlight_le
  · refine h.books.waste hevs hid ?_ ?_ ?_
    · rw [acquiredPermits_append]
      change r.nextPermit :: acquiredPermits between ++ [] = _
      rw [hacq]
      rfl
    · rw [settledPermits_append]
      change settledPermits between ++ [r.nextPermit] = _
      rw [hset]
      rfl
    · intro permit size' result hmem
      obtain ⟨rfl, rfl, -⟩ := hnew permit size' result hmem
      exact mem_append_left _ mem_cons_self
  · refine h.justified.waste h.books hevs fun permit size' result hmem => ?_
    obtain ⟨hpmt, -, hres⟩ := hnew permit size' result hmem
    exact ⟨hpmt, hres⟩

/-- How a round of `pump` leaves the ring. -/
structure RoundSpec (config : TransferRingConfig) (r : TransferRing τ)
    (round : Round × TransferRing τ) : Prop where
  invariant : RingInvariant config round.2
  source : round.2.source = r.source
  running : round.1 = .accepted → round.2.state = .running

theorem Accounts.fail (h : Accounts config r) {before : TransferRing τ} {kind : TransferErrorKind}
    (hsrc : r.source = before.source) (hstate : r.state = .running) :
    RoundSpec config before (.stopped, beginFailure env config kind r) := by
  obtain ⟨hsame, hstop⟩ := beginFailure_spec env config kind (.inl hstate)
  exact ⟨h.stop hsame hstop, hsame.source.trans hsrc, by simp⟩

def roundPermit (token size : ℕ) (r : TransferRing τ) : TransferPermit where
  serial := r.nextPermit
  token := token
  buffer := some size

def roundSubmission (token size : ℕ) (r : TransferRing τ) : TransferSubmission :=
  nextSubmission (roundPermit token size r) (slice r.content r.nextOffset size) r

section

variable (h : RingInvariant config r)
include h

theorem RingInvariant.launch (hdepth : r.inFlight.length < config.depth) (token : ℕ) {size : ℕ}
    (world : τ) (hpos : 0 < size) (hle : r.nextOffset + size ≤ r.content.length)
    (outcome : SubmitOutcome)
    (hsent : sentOf (.submitted (roundSubmission token size r) outcome)
      = some (roundSubmission token size r)) :
    Accounts config (putInFlight (roundPermit token size r) { r with
      world := world
      nextPermit := r.nextPermit + 1
      log := r.log ++ launchEvents r.account (roundSubmission token size r) outcome size }) ∧
    (Progressing r → Progressing (putInFlight (roundPermit token size r) { r with
      world := world
      nextPermit := r.nextPermit + 1
      log := r.log ++ launchEvents r.account (roundSubmission token size r) outcome size })) := by
  have hlen : (slice r.content r.nextOffset size).length = size := length_slice hle
  have hlive : live (r.log ++ launchEvents r.account (roundSubmission token size r) outcome size)
      = live r.log ++ [roundSubmission token size r] := h.books.live_launch hsent rfl
  refine ⟨⟨?_, ?_, ?_, h.totalBytes_eq⟩, fun hprog other hoth => ?_⟩
  · refine h.books.launch hsent rfl rfl rfl rfl hpos hle ?_ ⟨rfl, rfl⟩
    simp [entryKey, submissionKey, roundSubmission, nextSubmission, nextEntry, roundPermit,
      TransferPermit.size, hlen]
  · exact h.justified.launch h.books hsent rfl
  · change (r.inFlight ++ [_]).length ≤ _
    rw [length_append, length_singleton]
    exact hdepth
  · change other ∈ sent (r.log ++ _) at hoth
    change other ∈ live (r.log ++ _) ∨ Succeeded (r.account.log ++ _) other
    rw [sent_append, sent_launchEvents hsent] at hoth
    rw [hlive, succeeded_launch]
    rcases mem_append.mp hoth with hold | hnew
    · exact (hprog other hold).imp_left (mem_append_left _)
    · exact .inl (mem_append_right _ hnew)

variable (hstate : r.state = .running)
include hstate

theorem RingInvariant.reject (token size : ℕ) (world : τ)
    {result : SubmitResult} (hres : result ≠ .accepted) :
    RoundSpec config r (.stopped, beginFailure env config (submitErrorKind result)
      (settle env (nextEntry (roundPermit token size r) r).permit .notSubmitted { r with
        world := world
        nextPermit := r.nextPermit + 1
        nextId := r.nextId + 1
        log := r.log ++ [.acquired r.nextPermit size,
          .submitted (roundSubmission token size r) (.returned result)] })) := by
  have hquiet : Quiet [.submitted (roundSubmission token size r) (.returned result)] := by
    refine ⟨?_, rfl⟩
    cases result with
    | accepted => exact absurd rfl hres
    | noDevice => rfl
    | resourceExhausted => rfl
    | ioError => rfl
  refine Accounts.fail ?_ rfl hstate
  refine h.waste size _ hquiet rfl rfl (Nat.le_succ _) ?_ rfl rfl
  rw [settle_account]
  simp [account, nextEntry, roundPermit]

/-- A round from the call of `submit` on. -/
theorem submitChunk_spec (hprog : Progressing r)
    (hdepth : r.inFlight.length < config.depth) (token : ℕ) {size : ℕ} (world : τ)
    (hpos : 0 < size) (hle : r.nextOffset + size ≤ r.content.length) :
    RoundSpec config r (submitChunk env config (roundPermit token size r)
      (slice r.content r.nextOffset size) (grant (some size) world r)) := by
  rcases hsubmit : env.submit (nextSubmission (roundPermit token size r)
    (slice r.content r.nextOffset size) (grant (some size) world r))
    (grant (some size) world r).world with ⟨outcome, world'⟩
  -- The log grows in two steps.
  have hlog : ∀ event, (r.log ++ [.acquired r.nextPermit size]) ++ [event]
      = r.log ++ [.acquired r.nextPermit size, event] := fun event => by simp
  unfold submitChunk
  simp only [hsubmit]
  split_ifs with hany
  · -- The identifier is in use; this does not happen, but the permit would be settled.
    refine Accounts.fail ?_ rfl hstate
    refine h.waste size [] ⟨rfl, rfl⟩ rfl rfl (Nat.le_succ _) ?_ rfl rfl
    simp [dropPermit, settle, grant, account, roundPermit]
  · dsimp only [grant, Option.map_some, Option.toList]
    rw [hlog]
    cases outcome with
    | threw =>
        obtain ⟨haccs, -⟩ := h.launch hdepth token world' hpos hle .threw rfl
        have hsrc : r.source = r.source := rfl
        exact haccs.fail hsrc hstate
    | returned result =>
        cases result with
        | accepted =>
            obtain ⟨haccs, hprog'⟩ :=
              h.launch hdepth token world' hpos hle (.returned .accepted) rfl
            exact ⟨haccs.invariant (.running hstate (hprog' hprog)), rfl, fun _ => hstate⟩
        | noDevice => exact h.reject hstate token size world' (by simp)
        | resourceExhausted => exact h.reject hstate token size world' (by simp)
        | ioError => exact h.reject hstate token size world' (by simp)

/-- A read that fails; the permit is dropped after the failure has been recorded. -/
theorem RingInvariant.readFailed (token size : ℕ) (world : τ) :
    RoundSpec config r (.stopped, dropPermit env (roundPermit token size r)
      (beginFailure env config .sourceRead (grant (some size) world r))) := by
  have hactive : Active (grant (some size) world r) := .inl hstate
  obtain ⟨hsame, hstop⟩ := beginFailure_spec env config .sourceRead hactive
  obtain ⟨hsrc, htot, -⟩ := settle_source env (roundPermit token size r) .notSubmitted
    (beginFailure env config .sourceRead (grant (some size) world r))
  have hdrop : Stopped (dropPermit env (roundPermit token size r)
      (beginFailure env config .sourceRead (grant (some size) world r))) :=
    hstop.dropPermit _
  refine ⟨Accounts.invariant (h.waste size [] ⟨rfl, rfl⟩ rfl rfl (le_refl _) ?_
    (hsrc.trans hsame.source) (htot.trans hsame.totalBytes)) (.stopped hdrop),
    hsrc.trans hsame.source, by simp⟩
  rw [dropPermit, settle_account, hsame.account, hsame.log]
  simp [grant, account, roundPermit]

theorem pumpPermit_spec (hprog : Progressing r)
    (hdepth : r.inFlight.length < config.depth) (hsrc : r.source = some source)
    {maximumChunk : ℕ} (hmax : maximumChunk ≤ r.totalBytes - r.nextOffset) (token : ℕ)
    (buffer : Option ℕ) (world : τ) :
    RoundSpec config r (pumpPermit env config source maximumChunk
      { serial := r.nextPermit, token := token, buffer := buffer } (grant buffer world r)) := by
  have hcont : r.content = source.content := by rw [content, hsrc]; rfl
  unfold pumpPermit
  dsimp only
  cases buffer with
  | none =>
      rw [if_pos (.inl rfl)]
      refine Accounts.fail ?_ rfl hstate
      refine h.update ?_ rfl rfl (h.books.skip (le_refl _) (Nat.le_succ _)) h.justified
        h.inFlight_le
      simp [settle, grant, account]
  | some size =>
      split_ifs with hsize hread
      · refine Accounts.fail ?_ rfl hstate
        refine h.waste size [] ⟨rfl, rfl⟩ rfl rfl (le_refl _) ?_ rfl rfl
        simp [settle, grant, account]
      · change RoundSpec config r (submitChunk env config (roundPermit token size r)
          (slice source.content r.nextOffset size) (grant (some size) _ r))
        rw [← hcont]
        have hbds : 0 < size ∧ size ≤ maximumChunk := by
          change ¬ (size = 0 ∨ maximumChunk < size) at hsize
          omega
        refine submitChunk_spec h hstate hprog hdepth token _ hbds.1 ?_
        have htot := h.totalBytes_eq
        have hoff := h.books.nextOffset_le
        change r.nextOffset ≤ _ at hoff
        omega
      · exact h.readFailed hstate token size _

theorem RingInvariant.progressing : Progressing r := by
  cases h.phase with
  | idle hidle => simp [hstate] at hidle
  | running _ hprog => exact hprog
  | stopped hstop => exact absurd hstate hstop.state_ne.2.1
  | completed hcomp => simp [hstate] at hcomp

/-- A round of `pump`. -/
theorem pumpRound_spec (hdepth : r.inFlight.length < config.depth) (hsrc : r.source = some source) :
    RoundSpec config r (pumpRound env config source r) := by
  have hprog := h.progressing hstate
  unfold pumpRound
  dsimp only
  split
  · exact ⟨Accounts.invariant (h.same ⟨rfl, rfl, rfl⟩) (.running hstate hprog), rfl, by simp⟩
  · exact ⟨Accounts.invariant (h.same ⟨rfl, rfl, rfl⟩) (.running hstate hprog), rfl, by simp⟩
  · exact pumpPermit_spec h hstate hprog hdepth hsrc (Nat.min_le_left _ _) _ _ _

end

theorem pumpLoop_invariant (fuel : ℕ) (submitted : Bool) (h : RingInvariant config r)
    (hsrc : r.source = some source) :
    RingInvariant config (pumpLoop env config source fuel submitted r).2 := by
  induction fuel generalizing submitted r with
  | zero => exact h
  | succ fuel ih =>
      rw [pumpLoop]
      split_ifs with hmore
      · obtain ⟨hstate, hdepth, -⟩ := hmore
        have hround : RoundSpec config r (pumpRound env config source r) :=
          pumpRound_spec h hstate hdepth hsrc
        dsimp only
        split
        · exact ih true hround.invariant (hround.source.trans hsrc)
        · exact hround.invariant
        · exact hround.invariant
      · exact h

section

variable (h : RingInvariant config r)
include h

theorem pump_invariant : RingInvariant config (pump env config r).2 := by
  unfold pump
  cases hsrc : r.source with
  | none => exact h
  | some source =>
      dsimp only
      split_ifs with hstate
      · exact h
      · have hloop : RingInvariant config (pumpLoop env config source
            (r.totalBytes - r.nextOffset) false r).2 := pumpLoop_invariant _ false h hsrc
        split
        · exact hloop
        · exact hloop.settleTerminalState

/-! ### Completions -/

/-- A ring with submissions in flight is running or being drained. -/
theorem RingInvariant.active (hfly : r.inFlight ≠ []) : Active r := by
  cases h.phase with
  | idle _ hacc => exact absurd (congrArg RingAccount.inFlight hacc) hfly
  | running hstate => exact .inl hstate
  | stopped hstop =>
      cases hstop with
      | draining hstate herr => exact .inr ⟨hstate, herr⟩
      | ended error _ hemp => exact absurd hemp hfly
  | completed _ hemp => exact absurd hemp hfly

section Completion

variable {completion : TransferCompletion} {entry : InFlight}

/-- The ring without an entry whose completion has arrived. -/
def takeEntry (completion : TransferCompletion) (r : TransferRing τ) : TransferRing τ :=
  { r with
    inFlight := r.inFlight.filter (·.1 ≠ completion.id)
    log := r.log ++ [.completed completion] }

/-- The account after the permit of an entry has been settled. -/
theorem RingInvariant.settle_takeEntry (hent : (completion.id, entry) ∈ r.inFlight)
    (result : TransferPermitSettlement) :
    (settle env entry.permit result (takeEntry completion r)).account = { r.account with
      log := r.log ++ finishEvents completion entry result
      inFlight := r.inFlight.filter (·.1 ≠ completion.id) } := by
  rw [settle_account, (h.books.armed _ hent).1]
  simp [takeEntry, account, finishEvents]

/-- The accounts after a completion that is not a full success. -/
theorem RingInvariant.fail_entry (hent : (completion.id, entry) ∈ r.inFlight)
    (hfail : ¬ (completion.code = .success ∧ completion.transferredBytes = entry.requestedBytes)) :
    Accounts config (settle env entry.permit .partialOrUnknown (takeEntry completion r)) := by
  obtain ⟨hsrc, htot, -⟩ := settle_source env entry.permit .partialOrUnknown
    (takeEntry completion r)
  exact h.update (h.settle_takeEntry hent .partialOrUnknown) hsrc htot
    (h.books.fail hent hfail) (h.justified.finish h.books hent (if_neg hfail).symm)
    (le_trans (length_filter_le _ _) h.inFlight_le)

theorem RingInvariant.succeed_entry (env : RingEnvironment τ)
    (hent : (completion.id, entry) ∈ r.inFlight) (hcode : completion.code = .success)
    (htran : completion.transferredBytes = entry.requestedBytes) :
    Accounts config (recordSuccess entry.offset entry.requestedBytes
      (settle env entry.permit .fullyTransferred (takeEntry completion r))) ∧
    (Progressing r → Progressing (recordSuccess entry.offset entry.requestedBytes
      (settle env entry.permit .fullyTransferred (takeEntry completion r)))) := by
  generalize hr' : settle env entry.permit .fullyTransferred (takeEntry completion r) = r'
  have hacc : r'.account = _ := hr' ▸ h.settle_takeEntry hent .fullyTransferred
  obtain ⟨hsrc, htot, -⟩ := settle_source env entry.permit .fullyTransferred
    (takeEntry completion r)
  rw [hr'] at hsrc htot
  have hlog : r'.log = r.log ++ finishEvents completion entry .fullyTransferred :=
    congrArg RingAccount.log hacc
  have hsegments : r'.successfulSegments = r.successfulSegments :=
    congrArg RingAccount.successfulSegments hacc
  have hmark : r'.completionWatermark = r.completionWatermark :=
    congrArg RingAccount.completionWatermark hacc
  have hrec : (recordSuccess entry.offset entry.requestedBytes r').account = { r'.account with
      completedBytes := r.completedBytes + entry.requestedBytes
      completionWatermark := (advance
        (insertOrAssign entry.offset entry.requestedBytes r.successfulSegments).length
        r.completionWatermark
        (insertOrAssign entry.offset entry.requestedBytes r.successfulSegments)).1
      successfulSegments := (advance
        (insertOrAssign entry.offset entry.requestedBytes r.successfulSegments).length
        r.completionWatermark
        (insertOrAssign entry.offset entry.requestedBytes r.successfulSegments)).2 } := by
    have hbytes : r'.completedBytes = r.completedBytes := congrArg RingAccount.completedBytes hacc
    rw [← hsegments, ← hmark, ← hbytes]
    rfl
  rw [hacc] at hrec
  refine ⟨h.update hrec hsrc htot (h.books.succeed hent hcode htran)
    (h.justified.finish h.books hent (if_pos ⟨hcode, htran⟩).symm)
    (le_trans (length_filter_le _ _) h.inFlight_le), fun hprog submission hsub => ?_⟩
  · change submission ∈ sent r'.log at hsub
    change submission ∈ live r'.log ∨ Succeeded r'.log submission
    rw [hlog, sent_finish] at hsub
    rw [hlog, live_finish, succeeded_finish]
    rcases hprog submission hsub with hlive | hsucc
    · by_cases hid : submission.id = completion.id
      · obtain ⟨other, hoth, hoth', -, hlen, -⟩ := h.books.exists_live hent
        have hsame := h.books.eq_of_id_eq hsub (mem_live.mp hoth).1 (hid.trans hoth'.symm)
        refine .inr (.inr ?_)
        rw [hsame, hlen, hoth', ← hcode, ← htran]
      · exact .inl (mem_filter.mpr ⟨hlive, decide_eq_true hid⟩)
    · exact .inr (.inl hsucc)

theorem completeEntry_invariant (hent : (completion.id, entry) ∈ r.inFlight) :
    RingInvariant config (completeEntry env config completion entry (takeEntry completion r)) := by
  have hactive := h.active (ne_nil_of_mem hent)
  have hset : ∀ result, Active (settle env entry.permit result (takeEntry completion r)) := by
    intro result
    obtain ⟨-, -, hstate, herr⟩ := settle_source env entry.permit result (takeEntry completion r)
    unfold Active
    rw [hstate, herr]
    exact hactive
  have hfail : ∀ kind, ¬ (completion.code = .success ∧
      completion.transferredBytes = entry.requestedBytes) → RingInvariant config
        (beginFailure env config kind (settle env entry.permit .partialOrUnknown
          (takeEntry completion r))) := by
    intro kind hfailed
    obtain ⟨hsame, hstop⟩ := beginFailure_spec env config kind (hset .partialOrUnknown)
    exact (h.fail_entry hent hfailed).stop hsame hstop
  unfold completeEntry
  split_ifs with hexcess hsucc hpartial hcanc
  · exact hfail _ fun hfull => by omega
  · obtain ⟨haccs, hprog⟩ := h.succeed_entry env hent hsucc.1 hsucc.2
    obtain ⟨-, -, hstate, herr⟩ := settle_source env entry.permit .fullyTransferred
      (takeEntry completion r)
    refine haccs.invariant ?_
    rcases hactive with hrunning | ⟨hdrain, hsome⟩
    · exact .running (hstate.trans hrunning) (hprog (h.progressing hrunning))
    · exact .stopped (.draining (hdrain.imp hstate.trans hstate.trans) (herr ▸ hsome))
  · exact hfail _ fun hfull => hsucc hfull
  · have haccs : Accounts config (settle env entry.permit .partialOrUnknown
        (takeEntry completion r)) := h.fail_entry hent hsucc
    obtain ⟨-, -, hstate, herr⟩ := settle_source env entry.permit .partialOrUnknown
      (takeEntry completion r)
    refine haccs.invariant ?_
    refine .stopped (.draining (hcanc.2.imp hstate.trans hstate.trans) ?_)
    rcases hactive with hrunning | ⟨-, hsome⟩
    · have hnot : (takeEntry completion r).state = .running := hrunning
      rw [hnot] at hcanc
      simp at hcanc
    · exact herr ▸ hsome
  · exact hfail _ fun hfull => hpartial hfull.1

/-- How the permit of an entry is settled by a completion. -/
def completionSettlement (completion : TransferCompletion) (entry : InFlight) :
    TransferPermitSettlement :=
  if completion.code = .success ∧ completion.transferredBytes = entry.requestedBytes then
    .fullyTransferred
  else .partialOrUnknown

theorem completeEntry_log (hent : (completion.id, entry) ∈ r.inFlight) :
    (completeEntry env config completion entry (takeEntry completion r)).log
      = r.log ++ finishEvents completion entry (completionSettlement completion entry) := by
  have hset : ∀ result, (settle env entry.permit result (takeEntry completion r)).log
      = r.log ++ finishEvents completion entry result := fun result =>
    congrArg RingAccount.log (h.settle_takeEntry hent result)
  have hfail : ∀ kind, (beginFailure env config kind (settle env entry.permit
      .partialOrUnknown (takeEntry completion r))).log
      = r.log ++ finishEvents completion entry .partialOrUnknown := by
    intro kind
    rw [(beginFailure_sameAccount env config kind _).log, hset]
  unfold completeEntry completionSettlement
  split_ifs with hexcess hsucc hfull hcode hcanc <;> try omega
  · exact hfail _
  · exact hset _
  · exact hfail _
  · exact hset _
  · exact hfail _

variable (env config) in
omit h in
/-- How `handle_completion` goes on once the entry is dealt with. -/
theorem handleCompletion_cases (hlookup : r.inFlight.lookup completion.id = some entry) :
    let done := completeEntry env config completion entry (takeEntry completion r)
    handleCompletion env config completion r = (none, (pump env config done).2) ∨
      ∃ r', (r' = done ∨ r' = (pump env config done).2) ∧
        handleCompletion env config completion r = (some true, settleTerminalState r') := by
  intro done
  generalize hout : handleCompletion env config completion r = out
  unfold handleCompletion at hout
  rw [hlookup] at hout
  change (if done.state = .running then _ else _) = out at hout
  split_ifs at hout with hrunning
  · dsimp only at hout
    split at hout
    · exact .inl hout.symm
    · exact .inr ⟨_, .inr rfl, hout.symm⟩
  · exact .inr ⟨_, .inl rfl, hout.symm⟩

theorem handleCompletion_some (hlookup : r.inFlight.lookup completion.id = some entry) :
    (handleCompletion env config completion r).1 ≠ some false ∧
      RingInvariant config (handleCompletion env config completion r).2 ∧
      r.log ++ finishEvents completion entry (completionSettlement completion entry)
        <+: (handleCompletion env config completion r).2.log := by
  obtain ⟨front, rest, hsplit, -⟩ := lookup_eq_some_iff.mp hlookup
  have hent : (completion.id, entry) ∈ r.inFlight := by
    rw [hsplit]
    exact mem_append_right _ mem_cons_self
  have hcomp : RingInvariant config (completeEntry env config completion entry
      (takeEntry completion r)) := completeEntry_invariant h hent
  have hlog : r.log ++ finishEvents completion entry (completionSettlement completion entry)
      <+: (completeEntry env config completion entry (takeEntry completion r)).log :=
    ⟨[], by rw [completeEntry_log h hent, append_nil]⟩
  obtain heq | ⟨r', hr', heq⟩ := handleCompletion_cases env config hlookup
  · rw [heq]
    exact ⟨nofun, pump_invariant hcomp, pump_log hlog⟩
  · have hnext : RingInvariant config r' ∧ r.log ++ finishEvents completion entry
        (completionSettlement completion entry) <+: r'.log := by
      rcases hr' with rfl | rfl
      · exact ⟨hcomp, hlog⟩
      · exact ⟨pump_invariant hcomp, pump_log hlog⟩
    rw [heq, (settleTerminalState_sameAccount r').log]
    exact ⟨nofun, hnext.1.settleTerminalState, hnext.2⟩

omit h in
theorem handleCompletion_none (hlookup : r.inFlight.lookup completion.id = none) :
    handleCompletion env config completion r = (some false, r) := by
  unfold handleCompletion
  rw [hlookup]

/-- `handle_completion`. -/
theorem handleCompletion_invariant (completion : TransferCompletion) :
    RingInvariant config (handleCompletion env config completion r).2 := by
  cases hlookup : r.inFlight.lookup completion.id with
  | none => rwa [handleCompletion_none hlookup]
  | some entry => exact (handleCompletion_some h hlookup).2.1

end Completion

/-! ### The other calls -/

theorem cancel_invariant : RingInvariant config (cancel env config r) := by
  unfold cancel
  split_ifs with hstate
  · exact h
  · generalize hr' : leaveRunning env config .cancelling _ = r'
    have hsame : SameAccount r r' := by
      rw [← hr']
      exact ⟨rfl, rfl, rfl⟩
    have hstop : Stopped (settleTerminalState r') := by
      refine settleTerminalState_draining (.inl ?_) ?_
      · rw [← hr']
        rfl
      · rw [← hr']
        rfl
    exact h.stop (hsame.trans (settleTerminalState_sameAccount r')) hstop

theorem waitForPermitUntil_invariant :
    RingInvariant config (waitForPermitUntil env config r).2 := by
  unfold waitForPermitUntil
  split_ifs with hnot
  · exact h
  · have hstate : r.state = .running := by
      by_contra hstate
      exact hnot (.inl hstate)
    have hworld : ∀ world, RingInvariant config { r with world := world } := fun world =>
      Accounts.invariant (h.same ⟨rfl, rfl, rfl⟩) (.running hstate (h.progressing hstate))
    dsimp only
    split_ifs with hrdy
    · exact pump_invariant (hworld _)
    · exact hworld _

theorem RingInvariant.idle (hstate : r.state = .idle) :
    r.account = ⟨[], [], 0, 1, 0, 0, 0, []⟩ ∧ r.totalBytes = 0 := by
  cases h.phase with
  | idle _ hacc htot => exact ⟨hacc, htot⟩
  | running hrunning => simp [hstate] at hrunning
  | stopped hstop => exact absurd hstate hstop.state_ne.1
  | completed hcomp => simp [hstate] at hcomp

omit h in
/-- A ring with empty books keeps the invariant in any phase that allows them. -/
theorem ringInvariant_of_empty {r : TransferRing τ} (hacc : r.account = ⟨[], [], 0, 1, 0, 0, 0, []⟩)
    (htot : r.totalBytes = r.content.length) (hph : Phase r) : RingInvariant config r := by
  have hlog : r.log = [] := congrArg RingAccount.log hacc
  have hfly : r.inFlight = [] := congrArg RingAccount.inFlight hacc
  refine ⟨⟨?_, ?_, ?_, htot⟩, hph⟩
  · rw [hacc]
    exact books_nil _ _ _
  · rw [hlog]
    exact justified_nil
  · rw [hfly]
    exact Nat.zero_le _

theorem start_invariant (source : Option (TransferSource τ)) (logicalMessageEnd : Bool) :
    RingInvariant config (start env config source logicalMessageEnd r).2 := by
  unfold start
  split
  next source href =>
    have hidle : r.state = .idle := by
      by_contra hidle
      simp [startRefused, hidle] at href
    obtain ⟨hacc, -⟩ := h.idle hidle
    have hlog : r.log = [] := congrArg RingAccount.log hacc
    have hprog : Progressing { r with
        source := some source
        totalBytes := source.content.length
        logicalMessageEnd := logicalMessageEnd
        state := .running } := by
      intro submission hsub
      change submission ∈ sent r.log at hsub
      rw [hlog] at hsub
      cases hsub
    dsimp only
    split_ifs with hemp
    · refine ringInvariant_of_empty hacc rfl (.completed rfl ?_ ?_ hprog)
      · exact congrArg RingAccount.inFlight hacc
      · exact (congrArg RingAccount.nextOffset hacc).trans hemp.symm
    · exact pump_invariant (ringInvariant_of_empty hacc rfl (.running rfl hprog))
  next =>
    split_ifs with hidle
    · obtain ⟨hacc, htot⟩ := h.idle hidle
      refine ringInvariant_of_empty hacc h.totalBytes_eq (.stopped (.ended _ (.inr rfl) ?_ rfl ?_))
      · exact congrArg RingAccount.inFlight hacc
      · have hoff : r.nextOffset = 0 := congrArg RingAccount.nextOffset hacc
        simp [currentCertainty, htot, hoff]
    · exact h

/-! ### Runs -/

/-- Every call keeps the invariant. -/
theorem Call.run_invariant (call : Call τ) : RingInvariant config (call.run env config r) := by
  cases call with
  | start source logicalMessageEnd => exact start_invariant h source logicalMessageEnd
  | pump => exact pump_invariant h
  | waitForPermitUntil => exact waitForPermitUntil_invariant h
  | handleCompletion completion => exact handleCompletion_invariant h completion
  | cancel => exact cancel_invariant h

end

theorem after_invariant (env : RingEnvironment τ) (config : TransferRingConfig)
    (calls : List (Call τ)) (world : τ) : RingInvariant config (after env config calls world) := by
  have hnew : RingInvariant config ({ world } : TransferRing τ) :=
    ringInvariant_of_empty rfl rfl (.idle rfl rfl rfl)
  unfold after
  generalize ({ world } : TransferRing τ) = r at hnew
  induction calls generalizing r with
  | nil => exact hnew
  | cons call calls ih => exact ih _ (Call.run_invariant hnew call)

/-! ### What the invariant says -/

theorem Books.sent_eq_nil {content : Bytes} (h : Books content a)
    (hoff : a.nextOffset = 0) : sent a.log = [] := by
  have htiles := h.tiles
  rw [hoff, take_zero] at htiles
  cases hsent : sent a.log with
  | nil => rfl
  | cons submission rest =>
      rw [hsent] at htiles
      have hlen := htiles.length_le
      have hpos := htiles.length_pos mem_cons_self
      rw [length_nil] at hlen
      omega

/-- A place of the source is in a submission if and only if it has been sent. -/
theorem Books.covered_iff {content : Bytes} (h : Books content a) (place : ℕ) :
    (∃ submission ∈ sent a.log, submission.offset ≤ place ∧
      place < submission.offset + submission.payload.length) ↔ place < a.nextOffset := by
  rw [h.tiles.covered_iff (Nat.zero_le place), length_take, zero_add,
    Nat.min_eq_left h.nextOffset_le]

/-- The watermark is the length of the longest prefix that the fully successful submissions
cover. -/
theorem Books.watermark {content : Bytes} (h : Books content a) :
    IsGreatest {n | ∀ place < n, ∃ submission ∈ successes a.log, submission.offset ≤ place ∧
      place < submission.offset + submission.payload.length} a.completionWatermark := by
  have hgreatest := h.tracks.isGreatest
  simpa [Covers, interval] using hgreatest

/-- A ring that has completed is through with all bytes of its source. -/
theorem RingInvariant.watermark_of_completed (h : RingInvariant config r)
    (hstate : r.state = .completed) : r.completionWatermark = r.content.length := by
  obtain ⟨hemp, hoff, hprog⟩ : r.inFlight = [] ∧ r.nextOffset = r.totalBytes ∧ Progressing r := by
    cases h.phase with
    | idle hidle => simp [hstate] at hidle
    | running hrunning => simp [hstate] at hrunning
    | stopped hstop => exact absurd hstate hstop.state_ne.2.2
    | completed _ hemp hoff hprog => exact ⟨hemp, hoff, hprog⟩
  have hlive : live r.log = [] := by
    have hkeys : r.inFlight.map entryKey = (live r.log).map submissionKey := h.books.inFlight_eq
    rw [hemp] at hkeys
    exact map_eq_nil_iff.mp hkeys.symm
  have hall : ∀ submission, submission ∈ successes r.log ↔ submission ∈ sent r.log := by
    intro submission
    rw [mem_successes]
    refine and_iff_left_of_imp fun hsent => ?_
    have hdone := hprog submission hsent
    rw [hlive] at hdone
    simpa using hdone
  have hcovered : ∀ place, (∃ submission ∈ successes r.log, submission.offset ≤ place ∧
      place < submission.offset + submission.payload.length) ↔ place < r.content.length := by
    intro place
    have hsent := h.books.covered_iff place
    simp only [hall, ← h.totalBytes_eq, ← hoff]
    exact hsent
  have hwm := h.books.watermark
  simp only [account, hcovered] at hwm
  exact le_antisymm (Nat.le_of_not_lt fun hlt => lt_irrefl _ (hwm.1 _ hlt))
    (hwm.2 fun place hplace => hplace)

/-- The error of a ring that has ended has the certainty of now. -/
theorem RingInvariant.certainty_of_ended (h : RingInvariant config r)
    (hstate : r.state = .cancelled ∨ r.state = .failed) {error : TransferError}
    (herr : r.error = some error) : error.certainty = r.currentCertainty := by
  cases h.phase with
  | idle hidle => simp [hidle] at hstate
  | running hrunning => simp [hrunning] at hstate
  | stopped hstop =>
      cases hstop with
      | draining hdrain =>
          rcases hdrain with hdrain | hdrain
          · simp [hdrain] at hstate
          · simp [hdrain] at hstate
      | ended ended _ _ hended hcert =>
          rw [hended] at herr
          cases herr
          exact hcert
  | completed hcomp => simp [hcomp] at hstate

/-! ### The end of a ring -/

theorem dropRing_log (hbooks : Books r.content r.account) :
    (dropRing env r).log = r.log ++ r.inFlight.map fun entry =>
      .settled entry.2.permit.serial entry.2.requestedBytes .partialOrUnknown := by
  have hfold : ∀ (entries : List (ℕ × InFlight)) (r' : TransferRing τ),
      (∀ entry ∈ entries, entry.2.permit.buffer = some entry.2.requestedBytes ∧
        entry.2.permit.accepted = true) →
      (entries.foldl (fun r entry => dropPermit env entry.2.permit r) r').log
        = r'.log ++ entries.map fun entry =>
          .settled entry.2.permit.serial entry.2.requestedBytes .partialOrUnknown := by
    intro entries
    induction entries with
    | nil => simp
    | cons entry entries ih =>
        intro r' harmed
        obtain ⟨hbuf, hacpt⟩ := harmed entry mem_cons_self
        rw [foldl_cons, ih _ fun other hoth => harmed other (mem_cons_of_mem _ hoth)]
        simp [dropPermit, settle, hbuf, hacpt]
  exact hfold r.inFlight _ hbooks.armed

/-- The destructor settles the permits that are in flight. -/
theorem settledPermits_dropRing (hbooks : Books r.content r.account) :
    settledPermits (dropRing env r).log
      = settledPermits r.log ++ (live r.log).map TransferSubmission.payloadLifetime := by
  have hkeys : r.inFlight.map entryKey = (live r.log).map submissionKey := hbooks.inFlight_eq
  have hserials := congrArg (map fun key => key.2.2.2) hkeys
  rw [map_map, map_map] at hserials
  rw [dropRing_log hbooks, settledPermits_append]
  refine congrArg (settledPermits r.log ++ ·) (Eq.trans ?_ hserials)
  rw [settledPermits, filterMap_map, ← filterMap_eq_map]
  rfl

/-- The permits of the submissions in flight are different, and none of them has been settled. -/
theorem Books.permits_nodup {content : Bytes} (h : Books content a) :
    (settledPermits a.log ++ (live a.log).map TransferSubmission.payloadLifetime).Nodup := by
  refine nodup_append.mpr ⟨h.settled_nodup, ?_, ?_⟩
  · exact h.lifetime_nodup.sublist (filter_sublist.map _)
  · rintro permit hset _ hlive rfl
    obtain ⟨size, result, hmem⟩ := mem_settledPermits.mp hset
    have hacq := mem_acquiredPermits.mpr ⟨size, h.settled_acquired permit size result hmem⟩
    exact (h.settled_iff permit hacq).mp hset hlive

/-- No two entries in flight have the same identifier. -/
theorem Books.inFlight_nodup {content : Bytes} (h : Books content a) :
    (a.inFlight.map Prod.fst).Nodup := by
  have hids := congrArg (map fun key => key.1) h.inFlight_eq
  rw [map_map, map_map] at hids
  change a.inFlight.map Prod.fst = (live a.log).map TransferSubmission.id at hids
  rw [hids]
  exact h.id_nodup.sublist (filter_sublist.map _)

theorem RingInvariant.not_completed (h : RingInvariant config r) {id : ℕ}
    (hid : id ∈ r.inFlight.map Prod.fst) : id ∉ completedIds r.log := by
  obtain ⟨entry, hent, rfl⟩ := mem_map.mp hid
  have hkeyed : ((⟨entry.1, .success, 0⟩ : TransferCompletion).id, entry.2) ∈ r.account.inFlight :=
    hent
  obtain ⟨submission, hlive, hsame, -⟩ := h.books.exists_live hkeyed
  intro hmem
  refine (mem_live.mp hlive).2 ?_
  rw [hsame]
  exact hmem

/-- What holds of a ring after every sequence of calls. -/
structure RingLaws (env : RingEnvironment τ) (config : TransferRingConfig)
    (r : TransferRing τ) : Prop where
  /-- The submissions that were accepted or threw follow one another up to the next offset. -/
  tiles : Tiles TransferSubmission.offset TransferSubmission.payload 0 (sent r.log)
    (r.content.take r.nextOffset)
  nextOffset_le : r.nextOffset ≤ r.content.length
  payload_eq : ∀ submission ∈ sent r.log,
    submission.payload = slice r.content submission.offset submission.payload.length
  inFlight_eq : r.inFlight.map entryKey = (live r.log).map submissionKey
  inFlight_le : r.inFlight.length ≤ config.depth
  completedBytes_eq : r.completedBytes = ((successes r.log).map fun s => s.payload.length).sum
  watermark : IsGreatest {n | ∀ place < n, ∃ submission ∈ successes r.log,
    submission.offset ≤ place ∧ place < submission.offset + submission.payload.length}
    r.completionWatermark
  completed : r.state = .completed → r.completionWatermark = r.content.length
  notSent : r.state = .cancelled ∨ r.state = .failed → ∀ error, r.error = some error →
    error.certainty = .notSent → sent r.log = []
  fullyTransferred : r.state = .cancelled ∨ r.state = .failed → ∀ error, r.error = some error →
    error.certainty = .fullyTransferred → r.completionWatermark = r.content.length
  /-- A permit is settled at most once, and it is held until then by what is in flight. -/
  settled_nodup : (settledPermits r.log).Nodup
  settled_iff : ∀ permit ∈ acquiredPermits r.log, permit ∈ settledPermits r.log ↔
    permit ∉ r.inFlight.map fun entry => entry.2.permit.serial
  justified : Justified r.log
  /-- A completion of what is in flight is logged, settles the permit and leaves nothing in flight
  under its identifier, and any other completion is ignored. -/
  delivered : ∀ completion entry, (completion.id, entry) ∈ r.inFlight →
    (handleCompletion env config completion r).1 ≠ some false ∧
      r.log ++ finishEvents completion entry (completionSettlement completion entry)
        <+: (handleCompletion env config completion r).2.log ∧
      completion.id ∉ (handleCompletion env config completion r).2.inFlight.map Prod.fst
  ignored : ∀ completion, completion.id ∉ r.inFlight.map Prod.fst →
    handleCompletion env config completion r = (some false, r)
  /-- After the destructor every permit has been settled once. -/
  dropped : ∀ permit ∈ acquiredPermits r.log,
    (settledPermits (dropRing env r).log).count permit = 1

/-- Whatever the source, the permits and the backend do, and in whatever order a ring is started,
pumped, told about completions and cancelled. -/
theorem ring_laws (env : RingEnvironment τ) (config : TransferRingConfig) (calls : List (Call τ))
    (world : τ) : RingLaws env config (after env config calls world) := by
  have h := after_invariant env config calls world
  generalize after env config calls world = r at h
  have hbooks := h.books
  have hkeys : r.inFlight.map entryKey = (live r.log).map submissionKey := hbooks.inFlight_eq
  have hserials : (r.inFlight.map fun entry => entry.2.permit.serial)
      = (live r.log).map TransferSubmission.payloadLifetime := by
    have hmapped := congrArg (List.map fun key => key.2.2.2) hkeys
    rwa [List.map_map, List.map_map] at hmapped
  refine ⟨hbooks.tiles, hbooks.nextOffset_le, ?_, hkeys, h.inFlight_le, hbooks.completedBytes_eq,
    hbooks.watermark, h.watermark_of_completed, ?_, ?_, hbooks.settled_nodup, ?_, h.justified, ?_, ?_,
    ?_⟩
  · intro submission hsubmission
    have hpos := hbooks.tiles.length_pos hsubmission
    -- The last byte of the submission has been sent.
    have hlast := (hbooks.covered_iff (submission.offset + submission.payload.length - 1)).mp
      ⟨submission, hsubmission, by omega, by omega⟩
    have hslice := hbooks.tiles.slice_of_mem hsubmission
    rw [Nat.sub_zero, ← slice_eq_take, slice_slice _ (by omega), zero_add] at hslice
    exact hslice.symm
  · intro hstate error herror hnot
    rw [h.certainty_of_ended hstate herror, currentCertainty] at hnot
    split_ifs at hnot with hall hnone
    exact hbooks.sent_eq_nil hnone
  · intro hstate error herror hfull
    rw [h.certainty_of_ended hstate herror, currentCertainty] at hfull
    split_ifs at hfull with hall
    exact hall.2.trans h.totalBytes_eq
  · intro permit hpermit
    rw [hserials]
    exact hbooks.settled_iff permit hpermit
  · intro completion entry hent
    have hlookup : r.inFlight.lookup completion.id = some entry :=
      lookup_of_mem hbooks.inFlight_nodup hent
    obtain ⟨hresult, hnext, hlog⟩ : _ ∧ RingInvariant config
      (handleCompletion env config completion r).2 ∧ _ := handleCompletion_some h hlookup
    refine ⟨hresult, hlog, fun hfly => hnext.not_completed hfly ?_⟩
    refine (hlog.filterMap completedOf).subset ?_
    change completion.id ∈ completedIds _
    rw [completedIds_finish]
    exact mem_append_right _ mem_cons_self
  · intro completion hid
    refine handleCompletion_none (lookup_eq_none_iff.mpr fun entry hent => ?_)
    have hne : entry.1 ≠ completion.id := fun heq => hid (heq ▸ mem_map_of_mem hent)
    simpa using hne.symm
  · intro permit hpermit
    rw [settledPermits_dropRing hbooks]
    refine List.count_eq_one_of_mem hbooks.permits_nodup (List.mem_append.mpr ?_)
    by_cases hlive : permit ∈ (live r.log).map TransferSubmission.payloadLifetime
    · exact .inr hlive
    · exact .inl ((hbooks.settled_iff permit hpermit).mpr hlive)

/-- A provider that grants two bytes at a time and a backend that accepts everything; the state is
the settlements that were reported. -/
def obligingEnvironment : RingEnvironment (List (ℕ × ℕ × TransferPermitSettlement)) where
  readinessGeneration _ := 0
  tryAcquire size world := (.granted 5 (some (min size 2)), world)
  waitForReady _ world := (true, world)
  cancelWait world := world
  settle token size result world := world ++ [(token, size, result)]
  submit _ world := (.returned .accepted, world)
  cancel _ world := world

/-- A source of five bytes that is sent in three chunks; they complete out of order, and one of the
completions arrives twice. -/
def threeChunks : TransferRing (List (ℕ × ℕ × TransferPermitSettlement)) :=
  after obligingEnvironment { chunkSize := 4, depth := 2, permitProvider := true }
    [.start (some ⟨[1, 2, 3, 4, 5], fun _ _ world => (true, world)⟩) true,
      .handleCompletion ⟨2, .success, 2⟩, .handleCompletion ⟨2, .success, 2⟩,
      .handleCompletion ⟨1, .success, 2⟩, .handleCompletion ⟨3, .success, 1⟩] []

/-- The ring completes with all bytes, and with every permit settled once. -/
theorem threeChunks_completed :
    threeChunks.state = .completed ∧ threeChunks.completionWatermark = threeChunks.content.length ∧
      (sent threeChunks.log).map TransferSubmission.payload = [[1, 2], [3, 4], [5]] ∧
      threeChunks.world
        = [(5, 2, .fullyTransferred), (5, 2, .fullyTransferred), (5, 1, .fullyTransferred)] ∧
      ∀ permit ∈ acquiredPermits threeChunks.log,
        (settledPermits (dropRing obligingEnvironment threeChunks).log).count permit = 1 := by
  have hlaws : RingLaws obligingEnvironment
      { chunkSize := 4, depth := 2, permitProvider := true } threeChunks := ring_laws _ _ _ _
  have hstate : threeChunks.state = .completed := by decide +kernel
  exact ⟨hstate, hlaws.completed hstate, by decide +kernel, by decide +kernel, hlaws.dropped⟩

end TransferRing

end KairosBoot
