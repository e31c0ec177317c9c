import KairosBoot.FastbootSession
import Mathlib.Data.List.Basic

/-! # What the steps of a session exchange with the device

For each step of a session, the calls it makes to the outside, in the order in which it makes
them, and the state it leaves.  The calls of a segment are summarized by the bytes of a phase that
the transport has taken (`takenIn`), the responses that were received (`responsesIn`) and the
number of data bytes that were read (`receivedIn`).

* `Wrote` is what writing the bytes of a phase leaves;
* `Answers` is a segment of reads that ends with a response that is not informational;
  `TerminalOutcome` and `InitialOutcome` are what the response loops leave;
* `DataOutcome` is what the data phase of a receive leaves. -/

namespace KairosBoot

open ByteLib Outcomes SessionEvent List

/-! ### Calls -/

namespace SessionEvent

/-- A call that offers bytes of a phase to the transport. -/
def isWrite (phase : ProtocolPhase) : SessionEvent → Bool
  | .write p _ _ => p = phase
  | .writeSource _ _ => phase = .dataWrite
  | _ => false

/-- A call that reads a response. -/
def isRead : SessionEvent → Bool
  | .read _ _ => true
  | _ => false

/-- A call that neither writes nor reads a response. -/
def isInbound : SessionEvent → Bool
  | .write _ _ _ | .writeSource _ _ | .read _ _ => false
  | _ => true

/-- A call of `write`, `write_source`, `read` or `read_data`. -/
def isTransfer : SessionEvent → Bool
  | .write _ _ _ | .writeSource _ _ | .read _ _ | .readData _ _ => true
  | _ => false

/-- The bytes of a phase that the transport has taken, by its own count. -/
def taken (phase : ProtocolPhase) : SessionEvent → Bytes
  | .write p offered result => if p = phase then offered.take result.transferred else []
  | .writeSource offered result =>
      if phase = .dataWrite then offered.take result.transferred else []
  | _ => []

/-- The response a read has received, if it has succeeded. -/
def response (limit : ℕ) : SessionEvent → Option Response
  | .read result packet =>
      if result.status = .ok ∧ result.certainty = .fullyTransferred ∧ result.truncated = false ∧
          result.transferred ≤ limit then
        (parseResponse packet limit).toOption
      else none
  | _ => none

/-- The data bytes a call has read. -/
def received : SessionEvent → ℕ
  | .readData _ result => result.transferred
  | _ => 0

end SessionEvent

/-- The bytes of a phase that the transport has taken in a segment of calls. -/
def takenIn (phase : ProtocolPhase) (es : SessionLog) : Bytes :=
  es.flatMap (SessionEvent.taken phase)

/-- The responses received in a segment of calls. -/
def responsesIn (limit : ℕ) (es : SessionLog) : List Response :=
  es.filterMap (SessionEvent.response limit)

/-- The number of data bytes read in a segment of calls. -/
def receivedIn (es : SessionLog) : ℕ := (es.map SessionEvent.received).sum

section Segments

variable {phase phase' : ProtocolPhase} {limit : ℕ} {es es' : SessionLog}

@[simp] theorem takenIn_nil : takenIn phase [] = [] := rfl

@[simp] theorem takenIn_cons (e : SessionEvent) :
    takenIn phase (e :: es) = e.taken phase ++ takenIn phase es := rfl

@[simp] theorem takenIn_append : takenIn phase (es ++ es') = takenIn phase es ++ takenIn phase es' :=
  flatMap_append

@[simp] theorem responsesIn_append :
    responsesIn limit (es ++ es') = responsesIn limit es ++ responsesIn limit es' :=
  filterMap_append

@[simp] theorem receivedIn_nil : receivedIn [] = 0 := rfl

@[simp] theorem receivedIn_cons (e : SessionEvent) :
    receivedIn (e :: es) = e.received + receivedIn es := rfl

@[simp] theorem receivedIn_append : receivedIn (es ++ es') = receivedIn es + receivedIn es' := by
  simp [receivedIn]

/-! A segment of one kind of calls leaves the other summaries empty. -/

theorem takenIn_eq_nil (h : ∀ e ∈ es, e.taken phase = []) : takenIn phase es = [] :=
  flatMap_eq_nil_iff.mpr h

theorem responsesIn_eq_nil (h : ∀ e ∈ es, e.response limit = none) : responsesIn limit es = [] :=
  filterMap_eq_nil_iff.mpr h

theorem receivedIn_eq_zero (h : ∀ e ∈ es, e.received = 0) : receivedIn es = 0 := by
  induction es with
  | nil => rfl
  | cons e es ih =>
      rw [receivedIn_cons, h e (by simp), ih fun e' he' => h e' (by simp [he'])]

end Segments

section Kinds

variable {phase phase' : ProtocolPhase} {limit : ℕ} {e : SessionEvent}

theorem SessionEvent.response_of_isWrite (h : e.isWrite phase) : e.response limit = none := by
  cases e <;> first | rfl | cases h

theorem SessionEvent.received_of_isWrite (h : e.isWrite phase) : e.received = 0 := by
  cases e <;> first | rfl | cases h

theorem SessionEvent.taken_of_isWrite (h : e.isWrite phase) (hne : phase' ≠ phase) :
    e.taken phase' = [] := by
  cases e with
  | write p offered result =>
      have hp : p = phase := of_decide_eq_true h
      exact if_neg (hp ▸ hne.symm)
  | writeSource offered result =>
      have hp : phase = .dataWrite := of_decide_eq_true h
      exact if_neg (hp ▸ hne)
  | _ => cases h

theorem SessionEvent.taken_of_isRead (h : e.isRead) : e.taken phase = [] := by
  cases e <;> first | rfl | cases h

theorem SessionEvent.received_of_isRead (h : e.isRead) : e.received = 0 := by
  cases e <;> first | rfl | cases h

theorem SessionEvent.taken_of_isInbound (h : e.isInbound) : e.taken phase = [] := by
  cases e <;> first | rfl | cases h

theorem SessionEvent.response_of_isInbound (h : e.isInbound) : e.response limit = none := by
  cases e <;> first | rfl | cases h

end Kinds

/-! ### Traces -/

section Trace

variable {τ ρ α β : Type} {env : Environment τ}

/-- The call moves the outside from one state to another. -/
def SessionEvent.Moves (env : Environment τ) (world : τ) (e : SessionEvent) (world' : τ) : Prop :=
  match e with
  | .write _ offered result => env.write offered world = (result, world')
  | .writeSource offered result =>
      ∃ stream ∈ env.writeSource, stream offered world = (result, world')
  | .read _ _ => ∃ size, (env.read size world).2 = world'
  | .readData requested _ => (env.readData requested world).2 = world'
  | .sinkWrite offset payload result =>
      env.sinkWrite offset payload world = (result, world')
  | .observe committed total outcome => env.observe committed total world = (outcome, world')
  | .allocate size succeeded => env.allocate size world = (succeeded, world')
  | .requestCancel => env.requestCancel world = world'
  | .close => env.close world = world'

/-- A session reaches another one with the given calls: the log grows by them, and they move the
outside. -/
def Traced (env : Environment τ) (s : Session τ) (es : SessionLog) (s' : Session τ) : Prop :=
  s'.log = s.log ++ es ∧ Path (SessionEvent.Moves env) s.world es s'.world

instance traced_tracing : Tracing (Traced env) where
  refl s := ⟨by simp, .nil _⟩
  trans h h' := ⟨by rw [h'.1, h.1, List.append_assoc], h.2.append h'.2⟩

/-- The run of a program makes calls with which its outcome and its final state satisfy `Q`. -/
abbrev Calls (setup : SessionSetup τ) {α : Type} (x : SessionM τ α) (s : Session τ)
    (Q : Except ProtocolError α → Session τ → SessionLog → Prop) : Prop :=
  Emits (Traced setup.env) x s Q

namespace FastbootSession

variable {s : Session τ} {Q : Except ProtocolError β → Session τ → SessionLog → Prop}

/-- A call leaves one event and does not change the state of the session. -/
theorem emits_perform_bind {call : τ → ρ × τ} {event : ρ → SessionEvent} {f : ρ → SessionM τ β}
    (hmov : ∀ world, (event (call world).1).Moves env world (call world).2)
    (h : ∀ value s', s'.state = s.state →
      Emits (Traced env) (f value) s' fun r s'' es => Q r s'' (event value :: es)) :
    Emits (Traced env) (perform call event >>= f) s Q := by
  obtain ⟨es, hes, hq⟩ := h (call s.world).1
    { s with world := (call s.world).2, log := s.log ++ [event (call s.world).1] } rfl
  refine ⟨event (call s.world).1 :: es, ⟨?_, .cons (hmov s.world) hes.2⟩, hq⟩
  exact hes.1.trans (by simp)

theorem emits_get_bind {f : Session τ → SessionM τ β} (h : Emits (Traced env) (f s) s Q) :
    Emits (Traced env) (get >>= f) s Q := h

variable {informational : List Response} {phase : ProtocolPhase} {state : SessionState}
  {announced : ℕ} {certainty : TransferCertainty}

theorem emits_setState_bind {f : Unit → SessionM τ β}
    (h : ∀ s', s'.state = state → Emits (Traced env) (f ()) s' Q) :
    Emits (Traced env) (setState state >>= f) s Q :=
  h { s with state := state } rfl

theorem emits_setState {Q : Except ProtocolError Unit → Session τ → SessionLog → Prop}
    (h : ∀ s' : Session τ, s'.state = state → Q (.ok ()) s' []) :
    Emits (Traced env) (setState state) s Q :=
  ⟨[], ⟨(append_nil s.log).symm, .nil _⟩, h { s with state := state } rfl⟩

theorem emits_poisonLocked {error : ProtocolError}
    (h : ∀ s' : Session τ, s'.state = .poisoned → Q (.error error) s' []) :
    Emits (Traced env) (poisonLocked error) s Q :=
  ⟨[], ⟨(append_nil s.log).symm, .nil _⟩, h _ rfl⟩

/-! ### Writing -/

/-- Writing the bytes of a phase: the transport has taken them all, or a beginning of them and the
session is poisoned. -/
inductive Wrote (phase : ProtocolPhase) (bytes : Bytes) (state : SessionState) :
    Except ProtocolError Unit → Session τ → SessionLog → Prop
  | complete {s' : Session τ} {es : SessionLog} (writes : ∀ e ∈ es, e.isWrite phase)
      (taken : takenIn phase es = bytes) (state_eq : s'.state = state) :
      Wrote phase bytes state (.ok ()) s' es
  | failed {s' : Session τ} {es : SessionLog} {error : ProtocolError}
      (writes : ∀ e ∈ es, e.isWrite phase) (taken : takenIn phase es <+: bytes)
      (state_eq : s'.state = .poisoned) : Wrote phase bytes state (.error error) s' es

variable {setup : SessionSetup τ}

theorem writeFault_eq_none {offset remaining : ℕ} {result : TransferResult}
    (h : writeFault phase offset remaining result = none) :
    result.transferred ≤ remaining ∧ 0 < result.transferred := by
  simp only [writeFault] at h
  split_ifs at h
  omega

theorem writeExactLoop_emits (bytes : Bytes) (phase : ProtocolPhase) (fuel offset : ℕ)
    (hfuel : bytes.length ≤ offset + fuel) (s : Session τ) :
    Calls setup (writeExactLoop setup bytes phase fuel offset) s
      (Wrote phase (bytes.drop offset) s.state) := by
  induction fuel generalizing offset s with
  | zero =>
      refine emits_pure (.complete (by simp) ?_ rfl)
      rw [takenIn_nil, drop_eq_nil_of_le (by omega)]
  | succ fuel ih =>
      unfold writeExactLoop
      split_ifs with hlt
      · refine emits_perform_bind (fun _ => rfl) fun result s' hs' => ?_
        have htaken : (write phase (bytes.drop offset) result).taken phase
            = (bytes.drop offset).take result.transferred := by simp [taken]
        have hwr : (write phase (bytes.drop offset) result).isWrite phase := by
          simp [isWrite]
        cases hflt : writeFault phase offset (bytes.drop offset).length result with
        | some error =>
            refine emits_poisonLocked fun s'' hs'' => .failed (by simpa using hwr) ?_ hs''
            simpa [htaken] using take_prefix _ _
        | none =>
            obtain ⟨-, hpos⟩ := writeFault_eq_none hflt
            have hsplit : bytes.drop offset = (bytes.drop offset).take result.transferred
                ++ bytes.drop (offset + result.transferred) := by
              rw [← drop_drop, take_append_drop]
            refine (ih (offset + result.transferred) (by omega) s').mono ?_
            rintro r s'' es (⟨hw, ht, hs⟩ | ⟨hw, ht, hs⟩)
            · refine .complete (forall_mem_cons.mpr ⟨hwr, hw⟩) ?_ (hs.trans hs')
              rw [takenIn_cons, htaken, ht, ← hsplit]
            · refine .failed (forall_mem_cons.mpr ⟨hwr, hw⟩) ?_ hs
              rw [takenIn_cons, htaken]
              exact ((prefix_append_right_inj _).mpr ht).trans ⟨[], by rw [append_nil, ← hsplit]⟩
      · refine emits_pure (.complete (by simp) ?_ rfl)
        rw [takenIn_nil, drop_eq_nil_of_le (by omega)]

theorem writeExactLocked_emits (bytes : Bytes) (phase : ProtocolPhase) (s : Session τ) :
    Calls setup (writeExactLocked setup bytes phase) s (Wrote phase bytes s.state) :=
  writeExactLoop_emits bytes phase bytes.length 0 (by simp) s

theorem writeSourceFault_eq_none {expected : ℕ} {result : TransferResult}
    (h : writeSourceFault expected result = none) : result.transferred = expected := by
  simp only [writeSourceFault] at h
  split_ifs at h
  omega

theorem writeSourceLocked_emits {stream : Bytes → τ → TransferResult × τ}
    (hstr : setup.env.writeSource = some stream) (source : Bytes) (s : Session τ) :
    Calls setup (writeSourceLocked stream source) s (Wrote .dataWrite source s.state) := by
  refine emits_perform_bind (fun _ => ⟨stream, hstr, rfl⟩) fun result s' hs' => ?_
  have htaken : (writeSource source result).taken .dataWrite = source.take result.transferred := rfl
  cases hflt : writeSourceFault source.length result with
  | some error =>
      refine emits_poisonLocked fun s'' hs'' => .failed (by simp [isWrite]) ?_ hs''
      simpa [htaken] using take_prefix _ _
  | none =>
      refine emits_pure (.complete (by simp [isWrite]) ?_ hs')
      simp [htaken, writeSourceFault_eq_none hflt]

/-! ### Reading responses -/

/-- A segment of reads that has received some informational responses and then another one. -/
structure Answers (limit : ℕ) (es : SessionLog) (infos : List Response)
    (final : Response) : Prop where
  reads : ∀ e ∈ es, e.isRead
  responses : responsesIn limit es = infos ++ [final]
  informational : ∀ r ∈ infos, r.isInformational
  length_eq : es.length = infos.length + 1

theorem Answers.single {limit : ℕ} {e : SessionEvent} {final : Response} (hread : e.isRead)
    (hresp : e.response limit = some final) : Answers limit [e] [] final where
  reads := by simpa using hread
  responses := by simp [responsesIn, hresp]
  informational := by simp
  length_eq := rfl

theorem Answers.cons {limit : ℕ} {e : SessionEvent} {es : SessionLog} {r final : Response}
    {infos : List Response} (h : Answers limit es infos final) (hread : e.isRead)
    (hresp : e.response limit = some r) (hr : r.isInformational) :
    Answers limit (e :: es) (r :: infos) final where
  reads := forall_mem_cons.mpr ⟨hread, h.reads⟩
  responses := by
    have := h.responses
    simp only [responsesIn] at this ⊢
    rw [filterMap_cons_some hresp, this, cons_append]
  informational := forall_mem_cons.mpr ⟨hr, h.informational⟩
  length_eq := by rw [length_cons, h.length_eq, length_cons]

/-- What reading a response leaves. -/
inductive Responded (limit : ℕ) (state : SessionState) :
    Except ProtocolError Response → Session τ → SessionLog → Prop
  | received {s' : Session τ} {e : SessionEvent} {response : Response} (read : e.isRead)
      (response_eq : e.response limit = some response) (state_eq : s'.state = state) :
      Responded limit state (.ok response) s' [e]
  | failed {s' : Session τ} {e : SessionEvent} {error : ProtocolError} (read : e.isRead)
      (state_eq : s'.state = .poisoned) : Responded limit state (.error error) s' [e]

theorem response_of_readOutcome {read : TransferResult × Bytes} {response : Response}
    (h : readOutcome setup phase certainty informational read = .ok response) :
    (SessionEvent.read read.1 (packetOf setup.options.maxResponseBytes read)).response
      setup.options.maxResponseBytes = some response := by
  simp only [readOutcome] at h
  split_ifs at h with hstat hcert hlong
  simp only [not_not] at hstat hcert
  simp only [not_or, Bool.not_eq_true, not_lt] at hlong
  unfold SessionEvent.response
  simp only [hstat, hcert, hlong, and_self, if_true]
  cases hparse : parseResponse (packetOf setup.options.maxResponseBytes read)
      setup.options.maxResponseBytes with
  | error e => simp [hparse, Except.mapError] at h
  | ok value =>
      simp only [hparse, Except.mapError, Except.ok.injEq] at h
      simp [Except.toOption, h]

theorem readResponseLocked_emits (phase : ProtocolPhase) (certainty : TransferCertainty)
    (informational : List Response) (s : Session τ) :
    Calls setup (readResponseLocked setup phase certainty informational) s
      (Responded setup.options.maxResponseBytes s.state) := by
  refine emits_perform_bind (fun _ => ⟨_, rfl⟩) fun read s' hs' => ?_
  cases hout : readOutcome setup phase certainty informational read with
  | error error => exact emits_poisonLocked fun s'' hs'' => .failed rfl hs''
  | ok response =>
      exact emits_pure (.received rfl (response_of_readOutcome hout) hs')

theorem responseRound_emits {finish : List Response → Response → SessionM τ β}
    {again : List Response → SessionM τ β} (informational : List Response) (s : Session τ)
    (hfin : ∀ final es s', Answers setup.options.maxResponseBytes es [] final →
      s'.state = s.state → Calls setup (finish informational final) s'
        fun r s'' es' => Q r s'' (es ++ es'))
    (hagain : ∀ response e s', e.isRead → e.response setup.options.maxResponseBytes = some response →
      response.isInformational → s'.state = s.state →
      Calls setup (again (informational ++ [response])) s' fun r s'' es' => Q r s'' (e :: es'))
    (hfail : ∀ error e s', e.isRead → s'.state = .poisoned → Q (.error error) s' [e]) :
    Calls setup (responseRound setup phase certainty finish again informational) s Q := by
  refine (readResponseLocked_emits phase certainty informational s).bind ?_ ?_
  · rintro response s' es ⟨hread, hresp, hs'⟩
    split_ifs with hinfo hlim
    · exact emits_poisonLocked fun s'' hs'' => hfail _ _ _ hread hs''
    · exact hagain response _ s' hread hresp hinfo hs'
    · exact hfin response _ s' (.single hread hresp) hs'
  · rintro error s' es (_ | ⟨hread, hs'⟩)
    exact hfail error _ s' hread hs'

/-- The response loop: it has handed a response to `finish` after at most `fuel` informational
ones, or it has failed after at most `fuel + 1` reads. -/
theorem responseLoop_emits {finish : List Response → Response → SessionM τ β} (fuel : ℕ)
    (informational : List Response) (s : Session τ)
    (hfin : ∀ infos final es s', Answers setup.options.maxResponseBytes es infos final →
      infos.length ≤ fuel → s'.state = s.state →
      Calls setup (finish (informational ++ infos) final) s' fun r s'' es' => Q r s'' (es ++ es'))
    (hfail : ∀ error es s', (∀ e ∈ es, e.isRead) → es.length ≤ fuel + 1 →
      s'.state = .poisoned → Q (.error error) s' es) :
    Calls setup (responseLoop setup phase certainty finish fuel informational) s Q := by
  induction fuel generalizing informational s Q with
  | zero =>
      refine responseRound_emits informational s ?_ ?_ ?_
      · intro final es s' hans hs'
        simpa using hfin [] final es s' hans (by simp) hs'
      · intro response e s' hread _ _ _
        exact emits_poisonLocked fun s'' hs'' =>
          hfail _ [e] s'' (by simpa using hread) (by simp) hs''
      · intro error e s' hread hs'
        exact hfail error [e] s' (by simpa using hread) (by simp) hs'
  | succ fuel ih =>
      refine responseRound_emits informational s ?_ ?_ ?_
      · intro final es s' hans hs'
        simpa using hfin [] final es s' hans (by simp) hs'
      · intro response e s' hread hresp hinfo hs'
        refine ih (informational ++ [response]) s' ?_ ?_
        · intro infos final es' s'' hans hlen hs''
          have := hfin (response :: infos) final _ s''
            (hans.cons hread hresp hinfo) (by simpa using hlen) (hs''.trans hs')
          simpa using this
        · intro error es' s'' hrds hlen hs''
          exact hfail error (e :: es') s'' (forall_mem_cons.mpr ⟨hread, hrds⟩)
            (by simpa using hlen) hs''
      · intro error e s' hread hs'
        exact hfail error [e] s' (by simpa using hread) (by simp) hs'

/-- What `read_terminal_locked` leaves: it has read a terminal response after at most `fuel`
informational ones, or the session is poisoned. -/
inductive TerminalOutcome (limit fuel : ℕ) :
    Except ProtocolError CommandResult → Session τ → SessionLog → Prop
  | answered {s' : Session τ} {es : SessionLog} {infos : List Response}
      {result : CommandResult} (answers : Answers limit es infos result.terminal)
      (terminal : result.terminal.isTerminal) (length_le : infos.length ≤ fuel)
      (state_eq : s'.state = .ready) : TerminalOutcome limit fuel (.ok result) s' es
  | failed {s' : Session τ} {es : SessionLog} {error : ProtocolError}
      (reads : ∀ e ∈ es, e.isRead) (length_le : es.length ≤ fuel + 1)
      (state_eq : s'.state = .poisoned) : TerminalOutcome limit fuel (.error error) s' es

theorem readTerminalLocked_emits (informational : List Response) (phase : ProtocolPhase)
    (certainty : TransferCertainty) (s : Session τ) :
    Calls setup (readTerminalLocked setup informational phase certainty) s
      (TerminalOutcome setup.options.maxResponseBytes
        (setup.options.maxInformationalResponses - informational.length)) := by
  refine responseLoop_emits _ informational s ?_ fun error es s' => .failed
  intro infos final es s' hans hlen _
  unfold finishTerminal
  split_ifs with hterm
  · refine emits_setState_bind fun s'' hs'' => emits_pure ?_
    rw [append_nil]
    exact .answered hans hterm hlen hs''
  · refine emits_poisonLocked fun s'' hs'' => ?_
    rw [append_nil]
    exact .failed hans.reads (by rw [hans.length_eq]; omega) hs''

/-- What the loop over the initial responses of a data phase leaves.  The device has refused, or it
has announced a size, or it has completed the command without a data phase, or the session is
poisoned. -/
inductive InitialOutcome (limit fuel : ℕ) (Announces : ℕ → Prop) (state : SessionState) :
    Except ProtocolError InitialResponse → Session τ → SessionLog → Prop
  | refused {s' : Session τ} {es : SessionLog} {infos : List Response}
      {result : CommandResult} (answers : Answers limit es infos result.terminal)
      (fail : result.terminal.kind = .fail) (length_le : infos.length ≤ fuel)
      (state_eq : s'.state = .ready) :
      InitialOutcome limit fuel Announces state (.ok (.refused result)) s' es
  | announced {s' : Session τ} {es : SessionLog} {infos : List Response}
      {final : Response} {size : ℕ} (answers : Answers limit es infos final)
      (size_eq : final.announcedSize = some size) (announces : Announces size)
      (length_le : infos.length ≤ fuel) (state_eq : s'.state = state) :
      InitialOutcome limit fuel Announces state (.ok (.announced infos size)) s' es
  | completed {s' : Session τ} {es : SessionLog} {infos : List Response}
      {final : Response} {error : ProtocolError} (answers : Answers limit es infos final)
      (okay : final.kind = .okay) (length_le : infos.length ≤ fuel)
      (state_eq : s'.state = .ready) :
      InitialOutcome limit fuel Announces state (.error error) s' es
  | failed {s' : Session τ} {es es' : SessionLog} {error : ProtocolError}
      (reads : ∀ e ∈ es, e.isRead) (length_le : es.length ≤ fuel + 1)
      (inbound : ∀ e ∈ es', e.isInbound) (state_eq : s'.state = .poisoned) :
      InitialOutcome limit fuel Announces state (.error error) s' (es ++ es')

theorem InitialOutcome.failed_reads {limit fuel : ℕ} {Announces : ℕ → Prop} {s' : Session τ}
    {es : SessionLog} {error : ProtocolError} (reads : ∀ e ∈ es, e.isRead)
    (length_le : es.length ≤ fuel + 1) (state_eq : s'.state = .poisoned) :
    InitialOutcome limit fuel Announces state (.error error) s' es := by
  rw [← append_nil es]
  exact .failed reads length_le (by simp) state_eq

/-- The initial responses of a download announce its size. -/
theorem initialResponses_download_emits (size : ℕ) (s : Session τ) :
    Calls setup (initialResponses setup (finishDownload size)) s
      (InitialOutcome setup.options.maxResponseBytes setup.options.maxInformationalResponses
        (· = size) s.state) := by
  refine responseLoop_emits _ [] s ?_ fun error es s' => .failed_reads
  intro infos final es s' hans hlen hs'
  have hfailed : ∀ {error : ProtocolError} {s'' : Session τ}, s''.state = .poisoned →
      InitialOutcome setup.options.maxResponseBytes setup.options.maxInformationalResponses
        (· = size) s.state (.error error) s'' (es ++ []) := fun hs'' =>
    .failed hans.reads (by rw [hans.length_eq]; omega) (by simp) hs''
  unfold finishDownload
  split_ifs with hfail hdata hsize
  · refine emits_setState_bind fun s'' hs'' => emits_pure ?_
    rw [append_nil]
    exact .refused hans hfail hlen hs''
  · exact emits_poisonLocked fun s'' hs'' => hfailed hs''
  · exact emits_poisonLocked fun s'' hs'' => hfailed hs''
  · refine emits_pure ?_
    rw [append_nil]
    refine .announced hans ?_ rfl hlen hs'
    rw [Response.announcedSize, if_pos (not_not.mp hdata), not_not.mp hsize]

/-- The initial responses of a receive announce a size within the caller's limit. -/
theorem initialResponses_receive_emits (maximumBytes : ℕ) (s : Session τ) :
    Calls setup (initialResponses setup (finishReceive setup maximumBytes)) s
      (InitialOutcome setup.options.maxResponseBytes setup.options.maxInformationalResponses
        (fun size => 0 < size ∧ size ≤ maximumBytes) s.state) := by
  refine responseLoop_emits _ [] s ?_ fun error es s' => .failed_reads
  intro infos final es s' hans hlen hs'
  have hlength : es.length ≤ setup.options.maxInformationalResponses + 1 := by
    rw [hans.length_eq]; omega
  unfold finishReceive
  split_ifs with hfail hokay
  · refine emits_setState_bind fun s'' hs'' => emits_pure ?_
    rw [append_nil]
    exact .refused hans hfail hlen hs''
  · refine emits_setState_bind fun s'' hs'' => emits_throw ?_
    rw [append_nil]
    exact .completed hans hokay hlen hs''
  · cases hsize : final.announcedSize with
    | none =>
        exact emits_poisonLocked fun s'' hs'' => .failed hans.reads hlength (by simp) hs''
    | some size =>
        by_cases hbad : size = 0 ∨ maximumBytes < size
        · simp only [if_pos hbad]
          refine emits_perform_bind (fun _ => rfl) fun _ s₁ _ =>
            emits_perform_bind (fun _ => rfl) fun _ s₂ _ =>
              emits_poisonLocked fun s'' hs'' => ?_
          exact .failed hans.reads hlength (by simp [isInbound]) hs''
        · simp only [if_neg hbad]
          refine emits_pure ?_
          rw [append_nil]
          exact .announced hans hsize (by omega) hlen hs'

/-! ### Receiving data -/

/-- What a part of the data phase of a receive leaves: a value and a number of bytes read that are
related by `Done`, or a poisoned session. -/
inductive DataOutcome (Done : ρ → ℕ → Prop) (state : SessionState) :
    Except ProtocolError ρ → Session τ → SessionLog → Prop
  | done {s' : Session τ} {es : SessionLog} {value : ρ} (inbound : ∀ e ∈ es, e.isInbound)
      (done : Done value (receivedIn es)) (state_eq : s'.state = state) :
      DataOutcome Done state (.ok value) s' es
  | failed {s' : Session τ} {es : SessionLog} {error : ProtocolError}
      (inbound : ∀ e ∈ es, e.isInbound) (state_eq : s'.state = .poisoned) :
      DataOutcome Done state (.error error) s' es

theorem receiveFailure_emits {fault : ReceiveFault} {Done : ρ → ℕ → Prop} {es : SessionLog}
    (hes : ∀ e ∈ es, e.isInbound) (s : Session τ) :
    Calls setup (receiveFailure setup announced informational fault) s
      fun r s' es' => DataOutcome Done state r s' (es ++ es') := by
  refine emits_perform_bind (fun _ => rfl) fun _ s₁ _ =>
    emits_perform_bind (fun _ => rfl) fun _ s₂ _ => emits_poisonLocked fun s' hs' => ?_
  refine .failed (forall_mem_append.mpr ⟨hes, ?_⟩) hs'
  simp [isInbound]

theorem observeProgress_emits {observer : Bool} {committed : ℕ} (s : Session τ) :
    Calls setup
      (observeProgress setup observer announced informational committed) s
      (DataOutcome (fun _ n => n = 0) s.state) := by
  unfold observeProgress
  split_ifs with hobserver
  · refine emits_perform_bind (fun _ => rfl) fun outcome s' hs' => ?_
    have hinb : ∀ e ∈ [observe committed announced outcome], e.isInbound := by
      simp [isInbound]
    cases hflt : observerFault announced committed outcome with
    | some fault => exact receiveFailure_emits hinb s'
    | none => exact emits_pure (.done hinb rfl hs')
  · exact emits_pure (.done (by simp) rfl rfl)

theorem readDataFault_eq_none {requested committed : ℕ} {transfer : TransferResult}
    (h : readDataFault requested committed transfer = none) :
    transfer.transferred ≤ requested ∧ 0 < transfer.transferred := by
  simp only [readDataFault] at h
  split_ifs at h
  omega

/-- A round of the data loop reads at least a byte and no more than are outstanding. -/
theorem receiveChunk_emits {observer : Bool} {buffer : Bytes} {committed : ℕ} (s : Session τ) :
    Calls setup
      (receiveChunk setup observer announced informational buffer committed) s
      (DataOutcome (fun value n => n = value.2 ∧ 0 < n ∧ n ≤ announced - committed) s.state) := by
  refine emits_perform_bind (fun _ => rfl) fun transfer s₁ hs₁ => ?_
  have hread : ∀ e ∈ [readData (min buffer.length (announced - committed)) transfer.1],
      e.isInbound := by simp [isInbound]
  cases hflt : readDataFault (min buffer.length (announced - committed)) committed transfer.1 with
  | some fault => exact receiveFailure_emits hread s₁
  | none =>
      obtain ⟨hle, hpos⟩ := readDataFault_eq_none hflt
      refine emits_perform_bind (fun _ => rfl) fun stored s₂ hs₂ => ?_
      generalize (overwrite buffer 0 (take (min buffer.length (announced - committed))
        transfer.2)).take transfer.1.transferred = payload
      have hstor : ∀ e ∈ [readData (min buffer.length (announced - committed))
          transfer.1, sinkWrite committed payload stored], e.isInbound := by
        simp [isInbound]
      cases hsink : sinkFault payload.length committed stored with
      | some fault => exact receiveFailure_emits hstor s₂
      | none =>
          refine (observeProgress_emits s₂).bind ?_ ?_
          · rintro _ s₃ es ⟨hinb, hzero, hs₃⟩
            refine emits_pure (.done ?_ ?_ (hs₃.trans (hs₂.trans hs₁)))
            · rw [append_nil]
              exact forall_mem_append.mpr ⟨hstor, hinb⟩
            · simp only [append_nil, receivedIn_cons, received, hzero]
              omega
          · rintro error s₃ es (_ | ⟨hinb, hs₃⟩)
            exact .failed (forall_mem_append.mpr ⟨hstor, hinb⟩) hs₃

/-- The data loop reads exactly the bytes that are outstanding. -/
theorem receiveLoop_emits {observer : Bool} (fuel : ℕ) (buffer : Bytes) (committed : ℕ)
    (hfuel : announced ≤ committed + fuel) (s : Session τ) :
    Calls setup
      (receiveLoop setup observer announced informational fuel buffer committed) s
      (DataOutcome (fun _ n => n = announced - committed) s.state) := by
  induction fuel generalizing buffer committed s with
  | zero => exact emits_pure (.done (by simp) (by simp; omega) rfl)
  | succ fuel ih =>
      unfold receiveLoop
      split_ifs with hlt
      · refine (receiveChunk_emits s).bind ?_ ?_
        · rintro ⟨buffer', transferred⟩ s₁ es ⟨hinb, ⟨hn, hpos, hle⟩, hs₁⟩
          refine (ih buffer' (committed + transferred) (by omega) s₁).mono ?_
          rintro r s₂ es' (⟨hinb', hn', hs₂⟩ | ⟨hinb', hs₂⟩)
          · refine .done (forall_mem_append.mpr ⟨hinb, hinb'⟩) ?_ (hs₂.trans hs₁)
            rw [receivedIn_append]
            omega
          · exact .failed (forall_mem_append.mpr ⟨hinb, hinb'⟩) hs₂
        · rintro error s₁ es (_ | ⟨hinb, hs₁⟩)
          exact .failed hinb hs₁
      · exact emits_pure (.done (by simp) (by simp; omega) rfl)

end FastbootSession

end Trace

end KairosBoot
