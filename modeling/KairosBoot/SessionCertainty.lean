import KairosBoot.SessionFaults

/-! # What a failed operation says about its bytes

The outbound certainty of a failed operation is put together from the results of the writes of one
unit: the command, or the payload of a download.  A result that is not uncertain reports how many
bytes its call has accepted (`TransferResult.reported`), and the writes of a unit report a number
together if each of them does (`reportedIn`).  The certainty of an error agrees with that number
(`Operation.run_tells`).

A transport is truthful with respect to the number of bytes it has accepted, which is an
observation of its state (`TruthfulResults`).  Each call is then labelled with the number of bytes
that it has accepted (`Metered`), and what the writes of a unit report is what they have accepted
(`session_certainty_truthful`). -/

namespace KairosBoot

open ByteLib Outcomes

variable {τ α β ρ : Type}

/-! ### Reports -/

/-- The number of bytes that a call has accepted, if its result says so. -/
def TransferResult.reported (result : TransferResult) : Option ℕ :=
  match result.certainty with
  | .notTransferred => some 0
  | .fullyTransferred => some result.transferred
  | .partialOrUnknown => none

/-- The number of bytes of a phase that a call reports. -/
def SessionEvent.reported (phase : ProtocolPhase) : SessionEvent → Option ℕ
  | .write p _ result => if p = phase then result.reported else some 0
  | .writeSource _ result => if phase = .dataWrite then result.reported else some 0
  | _ => some 0

/-- The number of bytes of a phase that the calls of a segment report together. -/
def reportedIn (phase : ProtocolPhase) : SessionLog → Option ℕ
  | [] => some 0
  | e :: es => (e.reported phase).bind fun n => (reportedIn phase es).map (n + ·)

/-- A call that offers nothing to the transport. -/
def SessionEvent.isSilent : SessionEvent → Bool
  | .write _ _ _ | .writeSource _ _ => false
  | _ => true

section Segments

variable {phase phase' : ProtocolPhase} {es es' : SessionLog}

theorem reportedIn_cons {e : SessionEvent} {m n : ℕ} (h : e.reported phase = some m)
    (h' : reportedIn phase es = some n) : reportedIn phase (e :: es) = some (m + n) := by
  rw [reportedIn, h, h']
  rfl

theorem reportedIn_singleton (e : SessionEvent) : reportedIn phase [e] = e.reported phase := by
  cases h : e.reported phase with
  | none => rw [reportedIn, h, Option.bind_none]
  | some n => exact reportedIn_cons h (show reportedIn phase [] = some 0 from rfl)

theorem reportedIn_append {m n : ℕ} (h : reportedIn phase es = some m)
    (h' : reportedIn phase es' = some n) : reportedIn phase (es ++ es') = some (m + n) := by
  induction es generalizing m with
  | nil =>
      cases h
      rw [List.nil_append, h', zero_add]
  | cons e es ih =>
      obtain ⟨a, ha, h⟩ := Option.bind_eq_some_iff.mp h
      obtain ⟨b, hb, rfl⟩ := Option.map_eq_some_iff.mp h
      rw [List.cons_append, reportedIn_cons ha (ih hb), add_assoc]

theorem reportedIn_eq_zero (h : ∀ e ∈ es, e.reported phase = some 0) :
    reportedIn phase es = some 0 := by
  induction es with
  | nil => rfl
  | cons e es ih =>
      obtain ⟨he, hes⟩ := List.forall_mem_cons.mp h
      exact reportedIn_cons he (ih hes)

theorem reportedIn_of_isSilent (h : ∀ e ∈ es, e.isSilent) : reportedIn phase es = some 0 := by
  refine reportedIn_eq_zero fun e he => ?_
  have hsil := h e he
  cases e <;> first | rfl | cases hsil

/-- Writes of one phase report nothing of another one. -/
theorem reportedIn_of_isWrite (h : ∀ e ∈ es, e.isWrite phase) (hne : phase' ≠ phase) :
    reportedIn phase' es = some 0 := by
  refine reportedIn_eq_zero fun e he => ?_
  have hwr := h e he
  cases e with
  | write p offered result =>
      have hp : p = phase := of_decide_eq_true hwr
      exact if_neg (hp ▸ hne.symm)
  | writeSource offered result =>
      have hp : phase = .dataWrite := of_decide_eq_true hwr
      exact if_neg (hp ▸ hne)
  | _ => cases hwr

end Segments

namespace FastbootSession

variable {setup : SessionSetup τ}

/-! ### Programs that offer nothing -/

/-- The program offers nothing to the transport, and an error of one of these phases says that
everything had been sent before. -/
def Quietly (setup : SessionSetup τ) (phases : ProtocolPhase → Prop) (x : SessionM τ α) : Prop :=
  Confined setup (fun e => e.isSilent = true)
    (fun error => error.outboundCertainty = .fullyTransferred ∧ phases error.phase) x

variable {phase : ProtocolPhase} {result : TransferResult} {phases : ProtocolPhase → Prop}
  {streaming : Option (Bytes → τ → TransferResult × τ)} {remaining offset : ℕ}
  {es : SessionLog}

theorem Quietly.bind {x : SessionM τ α} {f : α → SessionM τ β} (hx : Quietly setup phases x)
    (hf : ∀ a, Quietly setup phases (f a)) : Quietly setup phases (x >>= f) :=
  Confined.bind hx hf

theorem PlainError.quiet (hph : phases phase) (error : ProtocolError) (h : PlainError phase error) :
    error.outboundCertainty = .fullyTransferred ∧ phases error.phase :=
  ⟨h.outboundCertainty_eq, h.phase_eq ▸ hph⟩

theorem readTerminalLocked_quietly (hph : phases phase) (informational : List Response) :
    Quietly setup phases (readTerminalLocked setup informational phase .fullyTransferred) :=
  readTerminalLocked_confined (fun _ _ => rfl) (PlainError.quiet hph) informational

theorem initialResponses_receive_quietly (hph : phases .initialResponse) (maximumBytes : ℕ) :
    Quietly setup phases (initialResponses setup (finishReceive setup maximumBytes)) :=
  initialResponses_receive_confined (K := fun e => e.isSilent = true) (fun _ _ => rfl)
    (PlainError.quiet hph) rfl rfl maximumBytes

/-! ### The data of a receive -/

section Receive

variable {phases : ProtocolPhase → Prop}

variable {informational : List Response} {fault : ReceiveFault} {announced committed : ℕ}

theorem receiveFailure_quietly (hph : phases .dataRead)
    (hflt : fault.error.outboundCertainty = .fullyTransferred ∧ fault.error.phase = .dataRead) :
    Quietly setup phases (receiveFailure setup announced informational fault : SessionM τ α) := by
  refine confined_perform_bind (fun _ => rfl) (fun _ => rfl) fun _ => ?_
  refine confined_perform_bind (fun _ => rfl) (fun _ => rfl) fun _ => ?_
  exact confined_poisonLocked ⟨hflt.1, by rw [hflt.2]; exact hph⟩

theorem readDataFault_certain {requested : ℕ} {transfer : TransferResult}
    (h : readDataFault requested committed transfer = some fault) :
    fault.error.outboundCertainty = .fullyTransferred ∧ fault.error.phase = .dataRead := by
  unfold readDataFault at h
  split_ifs at h <;>
  · cases h
    exact ⟨rfl, rfl⟩

theorem sinkFault_certain {size : ℕ} {stored : TransferResult}
    (h : sinkFault size committed stored = some fault) :
    fault.error.outboundCertainty = .fullyTransferred ∧ fault.error.phase = .dataRead := by
  unfold sinkFault at h
  split_ifs at h <;>
  · cases h
    exact ⟨rfl, rfl⟩

theorem observerFault_certain {outcome : ProgressOutcome}
    (h : observerFault announced committed outcome = some fault) :
    fault.error.outboundCertainty = .fullyTransferred ∧ fault.error.phase = .dataRead := by
  cases outcome <;> cases h <;> exact ⟨rfl, rfl⟩

theorem observeProgress_quietly (hph : phases .dataRead) {observer : Bool} :
    Quietly setup phases (observeProgress setup observer announced informational committed) := by
  refine Confined.ite ?_ confined_pure
  refine confined_perform_bind (fun _ => rfl) (fun _ => rfl) fun outcome => ?_
  cases hflt : observerFault announced committed outcome with
  | some fault => exact receiveFailure_quietly hph (observerFault_certain hflt)
  | none => exact confined_pure

theorem receiveLoop_quietly (hph : phases .dataRead) {observer : Bool} (fuel : ℕ)
    (buffer : Bytes) (committed : ℕ) :
    Quietly setup phases
      (receiveLoop setup observer announced informational fuel buffer committed) := by
  induction fuel generalizing buffer committed with
  | zero => exact confined_pure
  | succ fuel ih =>
      refine Confined.ite (Quietly.bind ?_ fun chunk => ih chunk.1 _) confined_pure
      refine confined_perform_bind (fun _ => rfl) (fun _ => rfl) fun transfer => ?_
      cases hread : readDataFault (min buffer.length (announced - committed)) committed
          transfer.1 with
      | some fault => exact receiveFailure_quietly hph (readDataFault_certain hread)
      | none =>
          refine confined_perform_bind (fun _ => rfl) (fun _ => rfl) fun stored => ?_
          cases hsink : sinkFault _ committed stored with
          | some fault => exact receiveFailure_quietly hph (sinkFault_certain hsink)
          | none => exact (observeProgress_quietly hph).bind fun _ => confined_pure

theorem receiveData_quietly (hdata : phases .dataRead) (hfin : phases .finalResponse)
    (observer : Bool) (announced : ℕ) (informational : List Response) :
    Quietly setup phases (receiveData setup observer announced informational) := by
  refine confined_perform_bind (fun _ => rfl) (fun _ => rfl) fun allocated => Confined.ite ?_ ?_
  · refine confined_perform_bind (fun _ => rfl) (fun _ => rfl) fun _ => ?_
    refine confined_perform_bind (fun _ => rfl) (fun _ => rfl) fun _ => ?_
    exact confined_poisonLocked ⟨rfl, hdata⟩
  · refine confined_setState_bind ((receiveLoop_quietly hdata announced _ 0).bind fun committed => ?_)
    refine confined_setState_bind (Quietly.bind ?_ fun _ => confined_pure)
    exact Confined.tryCatch_throw (readTerminalLocked_quietly hfin informational) fun _ h => h

end Receive

/-! ### Writing a unit -/

/-- The writes of the last `remaining` bytes of a unit, of which `offset` were written before: an
error knows how many of them were accepted, or says that it does not. -/
structure Tells (phase : ProtocolPhase) (offset remaining : ℕ) (r : Except ProtocolError Unit)
    (es : SessionLog) : Prop where
  writes : ∀ e ∈ es, e.isWrite phase
  complete : r = .ok () → reportedIn phase es = some remaining
  phase_eq : ∀ error, r = .error error → error.phase = phase
  notTransferred : ∀ error, r = .error error → error.outboundCertainty = .notTransferred →
    offset = 0 ∧ reportedIn phase es = some 0
  fullyTransferred : ∀ error, r = .error error → error.outboundCertainty = .fullyTransferred →
    reportedIn phase es = some remaining

theorem aggregateWriteCertainty_notTransferred {completed requested : ℕ}
    (h : aggregateWriteCertainty completed requested result = .notTransferred) :
    completed = 0 ∧ result.reported = some 0 := by
  unfold aggregateWriteCertainty at h
  split_ifs at h with hfull hnone
  exact ⟨hnone.1, by rw [TransferResult.reported, hnone.2.2]⟩

theorem aggregateWriteCertainty_fullyTransferred {completed requested : ℕ}
    (h : aggregateWriteCertainty completed requested result = .fullyTransferred) :
    result.reported = some requested := by
  unfold aggregateWriteCertainty at h
  split_ifs at h with hfull
  rw [TransferResult.reported, hfull.1, hfull.2]

/-- A fault knows the result it comes from. -/
structure FaultTells (phase : ProtocolPhase) (offset remaining : ℕ) (result : TransferResult)
    (error : ProtocolError) : Prop where
  phase_eq : error.phase = phase
  notTransferred : error.outboundCertainty = .notTransferred →
    offset = 0 ∧ result.reported = some 0
  fullyTransferred : error.outboundCertainty = .fullyTransferred →
    result.reported = some remaining

theorem faultTells_aggregate {error : ProtocolError} (hph : error.phase = phase)
    (hcert : error.outboundCertainty = aggregateWriteCertainty offset remaining result) :
    FaultTells phase offset remaining result error where
  phase_eq := hph
  notTransferred h := aggregateWriteCertainty_notTransferred (hcert.symm.trans h)
  fullyTransferred h := aggregateWriteCertainty_fullyTransferred (hcert.symm.trans h)

theorem writeFault_tells {error : ProtocolError}
    (h : writeFault phase offset remaining result = some error) :
    FaultTells phase offset remaining result error := by
  simp only [writeFault] at h
  split_ifs at h with hmore hstat hcert htrunc hzero hoff
  · cases h
    exact faultTells_aggregate rfl rfl
  · cases h
    exact faultTells_aggregate rfl rfl
  · cases h
    exact faultTells_aggregate rfl rfl
  · cases h
    exact faultTells_aggregate rfl rfl
  · -- no progress in the first round: the result is certain, and its count is zero
    cases h
    refine ⟨rfl, fun _ => ⟨hoff, ?_⟩, fun hfull => by cases hfull⟩
    rw [TransferResult.reported, not_not.mp hcert, hzero]
  · cases h
    exact ⟨rfl, fun hnone => (by cases hnone), fun hfull => (by cases hfull)⟩

theorem writeFault_reported (h : writeFault phase offset remaining result = none) :
    result.reported = some result.transferred := by
  simp only [writeFault] at h
  split_ifs at h with hmore hstat hcert htrunc hzero
  rw [TransferResult.reported, not_not.mp hcert]

theorem writeSourceFault_tells {expected : ℕ} {error : ProtocolError}
    (h : writeSourceFault expected result = some error) :
    FaultTells .dataWrite 0 expected result error := by
  simp only [writeSourceFault] at h
  split_ifs at h <;>
  · cases h
    exact faultTells_aggregate rfl rfl

theorem writeSourceFault_reported {expected : ℕ} (h : writeSourceFault expected result = none) :
    result.reported = some expected := by
  have htran := writeSourceFault_eq_none h
  simp only [writeSourceFault] at h
  split_ifs at h with hmore hstat hcert htrunc hshort
  rw [TransferResult.reported, not_not.mp hcert, htran]

theorem tells_fault {error : ProtocolError} {e : SessionEvent}
    (h : FaultTells phase offset remaining result error) (hwr : e.isWrite phase)
    (hrep : e.reported phase = result.reported) :
    Tells phase offset remaining (.error error) [e] where
  writes := by simpa using hwr
  complete heq := by cases heq
  phase_eq _ heq := by
    cases heq
    exact h.phase_eq
  notTransferred _ heq hcert := by
    cases heq
    obtain ⟨hoff, hnone⟩ := h.notTransferred hcert
    exact ⟨hoff, (reportedIn_singleton e).trans (hrep.trans hnone)⟩
  fullyTransferred _ heq hcert := by
    cases heq
    exact (reportedIn_singleton e).trans (hrep.trans (h.fullyTransferred hcert))

theorem Tells.cons {count : ℕ} {r : Except ProtocolError Unit} {e : SessionEvent}
    (h : Tells phase (offset + count) remaining r es) (hcnt : 0 < count)
    (hwr : e.isWrite phase) (hrep : e.reported phase = some count) :
    Tells phase offset (count + remaining) r (e :: es) where
  writes := List.forall_mem_cons.mpr ⟨hwr, h.writes⟩
  complete hr := reportedIn_cons hrep (h.complete hr)
  phase_eq := h.phase_eq
  notTransferred error hr hcert := by
    have := (h.notTransferred error hr hcert).1
    omega
  fullyTransferred error hr hcert := reportedIn_cons hrep (h.fullyTransferred error hr hcert)

theorem tells_nothing : Tells phase offset 0 (.ok ()) [] where
  writes := by simp
  complete _ := rfl
  phase_eq _ h := by cases h
  notTransferred _ h := by cases h
  fullyTransferred _ h := by cases h

theorem writeExactLoop_tells (bytes : Bytes) (phase : ProtocolPhase) (fuel offset : ℕ)
    (hfuel : bytes.length ≤ offset + fuel) (s : Session τ) :
    Calls setup (writeExactLoop setup bytes phase fuel offset) s
      fun r _ es => Tells phase offset (bytes.length - offset) r es := by
  induction fuel generalizing offset s with
  | zero =>
      rw [show bytes.length - offset = 0 by omega]
      exact emits_pure tells_nothing
  | succ fuel ih =>
      unfold writeExactLoop
      split_ifs with hlt
      · refine emits_perform_bind (fun _ => rfl) fun result s' _ => ?_
        have hwr : (SessionEvent.write phase (bytes.drop offset) result).isWrite phase := by
          simp [SessionEvent.isWrite]
        have hrep : (SessionEvent.write phase (bytes.drop offset) result).reported phase
            = result.reported := if_pos rfl
        cases hflt : writeFault phase offset (bytes.drop offset).length result with
        | some error =>
            have htells := writeFault_tells hflt
            rw [List.length_drop] at htells
            exact emits_poisonLocked fun _ _ => tells_fault htells hwr hrep
        | none =>
            obtain ⟨hle, hpos⟩ := writeFault_eq_none hflt
            rw [List.length_drop] at hle
            refine (ih (offset + result.transferred) (by omega) s').mono fun r _ es h => ?_
            have hcons := h.cons hpos hwr (hrep.trans (writeFault_reported hflt))
            rwa [show result.transferred + (bytes.length - (offset + result.transferred))
              = bytes.length - offset by omega] at hcons
      · rw [show bytes.length - offset = 0 by omega]
        exact emits_pure tells_nothing

theorem sendCommand_tells (commandText : String) (s : Session τ) :
    Calls setup (sendCommand setup commandText) s
      fun r _ es => Tells .commandWrite 0 (stringBytes commandText).length r es := by
  refine emits_setState_bind fun s₁ _ => ?_
  refine (writeExactLoop_tells _ _ _ 0 (by simp) s₁).bind ?_ fun _ _ _ h => h
  intro _ s₂ es h
  exact emits_setState fun s₃ _ => by rwa [List.append_nil]

/-! ### Operations -/

/-- An error says nothing wrong about the unit that is written in its phase; `unit` gives the phase
in which the unit is written, and its length. -/
def TellsUnit (unit : ProtocolPhase → ProtocolPhase × ℕ) (r : Except ProtocolError α)
    (es : SessionLog) : Prop :=
  ∀ error, r = .error error →
    (error.outboundCertainty = .notTransferred → reportedIn (unit error.phase).1 es = some 0) ∧
    (error.outboundCertainty = .fullyTransferred →
      reportedIn (unit error.phase).1 es = some (unit error.phase).2)

variable {unit : ProtocolPhase → ProtocolPhase × ℕ}

theorem tellsUnit_ok {a : α} :
    TellsUnit unit (.ok a : Except ProtocolError α) es := fun _ h => by cases h

theorem TellsUnit.error {error : ProtocolError}
    (h : TellsUnit unit (.error error : Except ProtocolError α) es) :
    TellsUnit unit (.error error : Except ProtocolError β) es := fun _ heq =>
  h _ (by cases heq; rfl)

theorem tellsUnit_refused {error : ProtocolError} (h : error.outboundCertainty = .notTransferred) :
    TellsUnit unit (.error error : Except ProtocolError α) [] := by
  intro _ heq
  cases heq
  exact ⟨fun _ => rfl, fun hfull => by cases h.symm.trans hfull⟩

/-- A unit that fails, after calls that report nothing of it. -/
theorem Tells.tellsUnit {size : ℕ} {error : ProtocolError} {es' : SessionLog}
    (h : Tells phase 0 size (.error error) es') (hbef : reportedIn phase es = some 0)
    (hunit : unit phase = (phase, size)) :
    TellsUnit unit (.error error : Except ProtocolError α) (es ++ es') := by
  intro _ heq
  cases heq
  rw [h.phase_eq error rfl, hunit]
  refine ⟨fun hcert => ?_, fun hcert => ?_⟩
  · exact reportedIn_append hbef (h.notTransferred error rfl hcert).2
  · have := reportedIn_append hbef (h.fullyTransferred error rfl hcert)
    rwa [zero_add] at this

/-- A silent part after a unit that was written completely. -/
theorem tellsUnit_silent {size : ℕ} {r : Except ProtocolError α} {es' : SessionLog}
    (hsil : ∀ e ∈ es', e.isSilent)
    (hcrt : ∀ error, r = .error error →
      error.outboundCertainty = .fullyTransferred ∧ phases error.phase)
    (hbef : reportedIn phase es = some size) (hunit : ∀ p, phases p → unit p = (phase, size)) :
    TellsUnit unit r (es ++ es') := by
  intro error hr
  obtain ⟨hcrt, hph⟩ := hcrt error hr
  rw [hunit _ hph]
  refine ⟨fun hnone => (by cases hcrt.symm.trans hnone), fun _ => ?_⟩
  exact reportedIn_append hbef (reportedIn_of_isSilent hsil)

/-- In a ready session, an operation that `begin_locked` rejects has sent nothing. -/
theorem beginLocked_bind_tells {cancelled : Bool} {commandText : String}
    {body : Unit → SessionM τ α} {s : Session τ} (hrdy : s.state = .ready)
    (hbody : ∀ s' : Session τ, Calls setup (body ()) s' fun r _ es => TellsUnit unit r es) :
    Calls setup (beginLocked setup cancelled commandText >>= body) s
      fun r _ es => TellsUnit unit r es := by
  have hbegin : Calls setup (beginLocked setup cancelled commandText) s
      fun r _ es => es = [] ∧
        ∀ error, r = .error error → error.outboundCertainty = .notTransferred := by
    refine emits_get_bind ?_
    rw [if_neg (not_not_intro hrdy)]
    split_ifs
    · exact emits_poisonLocked fun _ _ => ⟨rfl, fun _ h => by cases h; rfl⟩
    · exact emits_throw ⟨rfl, fun _ h => by cases h; rfl⟩
    · exact emits_throw ⟨rfl, fun _ h => by cases h; rfl⟩
    · exact emits_pure ⟨rfl, fun _ h => by cases h⟩
    · exact emits_throw ⟨rfl, fun _ h => by cases h; rfl⟩
  refine hbegin.bind ?_ ?_
  · rintro _ s' es ⟨rfl, -⟩
    exact hbody s'
  · rintro error s' es ⟨rfl, herr⟩
    exact tellsUnit_refused (herr error rfl)

theorem sendCommand_bind_tells {commandText : String} {body : Unit → SessionM τ α}
    {P : ProtocolPhase → Prop} (hbody : Quietly setup P (body ()))
    (hwr : unit .commandWrite = (.commandWrite, (stringBytes commandText).length))
    (hphases : ∀ p, P p → unit p = (.commandWrite, (stringBytes commandText).length))
    (s : Session τ) :
    Calls setup (sendCommand setup commandText >>= body) s fun r _ es => TellsUnit unit r es := by
  refine (sendCommand_tells commandText s).bind ?_ ?_
  · intro _ s' es h
    exact (hbody s').mono fun r _ es' h' => tellsUnit_silent h'.1 h'.2 (h.complete rfl) hphases
  · intro error s' es h
    have hnoth : reportedIn .commandWrite [] = some 0 := rfl
    exact h.tellsUnit hnoth hwr

section

variable (payload : Bytes)
  (hstrm : ∀ stream ∈ streaming, setup.env.writeSource = some stream)
include hstrm

theorem writePayload_tells (s : Session τ) :
    Calls setup (writePayload setup payload streaming) s
      fun r _ es => Tells .dataWrite 0 payload.length r es := by
  cases streaming with
  | none => exact writeExactLoop_tells payload .dataWrite payload.length 0 (by simp) s
  | some stream =>
      refine emits_perform_bind (fun _ => ⟨stream, hstrm stream rfl, rfl⟩) fun result s' _ => ?_
      have hrep : (SessionEvent.writeSource payload result).reported .dataWrite
          = result.reported := rfl
      cases hflt : writeSourceFault payload.length result with
      | some error =>
          exact emits_poisonLocked fun _ _ => tells_fault (writeSourceFault_tells hflt) rfl rfl
      | none =>
          refine emits_pure ⟨by simp [SessionEvent.isWrite], fun _ => ?_, ?_, ?_, ?_⟩
          · exact (reportedIn_singleton _).trans (hrep.trans (writeSourceFault_reported hflt))
          · exact fun _ h => by cases h
          · exact fun _ h => by cases h
          · exact fun _ h => by cases h

theorem downloadPayload_tells (informational : List Response) (s : Session τ) :
    Calls setup (downloadPayload setup payload streaming informational) s
      fun r _ es => Tells .dataWrite 0 payload.length r es := by
  refine (writePayload_tells payload hstrm s).tryCatch (fun _ _ _ h => h) ?_
  intro error s₁ es h
  refine emits_poisonLocked fun _ _ => ?_
  rw [List.append_nil]
  exact {
    writes := h.writes
    complete := fun heq => by cases heq
    phase_eq := fun _ heq => by cases heq; exact h.phase_eq error rfl
    notTransferred := fun _ heq => by cases heq; exact h.notTransferred error rfl
    fullyTransferred := fun _ heq => by cases heq; exact h.fullyTransferred error rfl }

theorem downloadBegun_tells
    (hcmd : ∀ p, p = .commandWrite ∨ p = .initialResponse →
      unit p = (.commandWrite, (stringBytes (downloadCommand payload.length)).length))
    (hdata : ∀ p, p = .dataWrite ∨ p = .finalResponse → unit p = (.dataWrite, payload.length))
    (s : Session τ) :
    Calls setup (downloadBegun setup payload streaming) s fun r _ es => TellsUnit unit r es := by
  refine (sendCommand_tells _ s).bind ?_ ?_
  · intro _ s₁ es₁ hsent
    have hresponses : Quietly setup (Eq .initialResponse)
        (initialResponses setup (finishDownload payload.length)) :=
      initialResponses_download_confined (fun _ _ => rfl) (PlainError.quiet rfl) payload.length
    refine (hresponses s₁).bind ?_ ?_
    · intro initial s₂ es₂ hinit
      have hbef : reportedIn .dataWrite (es₁ ++ es₂) = some 0 :=
        reportedIn_append (reportedIn_of_isWrite hsent.writes (by decide))
          (reportedIn_of_isSilent hinit.1)
      cases initial with
      | refused result => exact emits_pure tellsUnit_ok
      | announced infos size =>
          refine emits_setState_bind fun s₂' _ => ?_
          refine (downloadPayload_tells payload hstrm infos s₂').bind ?_ ?_
          · intro _ s₃ es₃ hwrit
            refine emits_setState_bind fun s₃' _ => ?_
            have hlast : Quietly setup (Eq .finalResponse)
                (readTerminalLocked setup infos .finalResponse .fullyTransferred) :=
              readTerminalLocked_quietly rfl infos
            refine (hlast s₃').mono fun r _ es₄ hterm => ?_
            rw [← List.append_assoc, ← List.append_assoc]
            have hcompl := reportedIn_append hbef (hwrit.complete rfl)
            rw [zero_add] at hcompl
            exact tellsUnit_silent hterm.1 hterm.2 hcompl fun p hp => hdata p (.inr hp.symm)
          · intro error s₃ es₃ hfail
            rw [← List.append_assoc]
            exact hfail.tellsUnit hbef (hdata _ (.inl rfl))
    · intro error s₂ es₂ hinit
      exact (tellsUnit_silent hinit.1 hinit.2 (hsent.complete rfl) fun p hp =>
        hcmd p (.inr hp.symm)).error
  · intro error s₁ es₁ hsent
    have hnoth : reportedIn .commandWrite [] = some 0 := rfl
    exact hsent.tellsUnit hnoth (hcmd _ (.inl rfl))

end

end FastbootSession

open FastbootSession

def Operation.payload : Operation → Option Bytes
  | .download _ bytes => some bytes
  | .downloadSource _ source => source
  | _ => none

/-- What an operation writes last before a failure in the given phase: the phase in which that is
written, and its bytes. -/
def Operation.unit (op : Operation) (phase : ProtocolPhase) : ProtocolPhase × Bytes :=
  match op.payload with
  | some payload =>
      if phase = .dataWrite ∨ phase = .finalResponse then (.dataWrite, payload)
      else (.commandWrite, op.commandBytes)
  | none => (.commandWrite, op.commandBytes)

/-- The phase of a unit, and its length. -/
def Operation.unitSize (op : Operation) (phase : ProtocolPhase) : ProtocolPhase × ℕ :=
  ((op.unit phase).1, (op.unit phase).2.length)

theorem Operation.run_tells (setup : SessionSetup τ) (op : Operation) {s : Session τ}
    (hrdy : s.state = .ready) :
    Calls setup (op.run setup) s fun r _ es => TellsUnit op.unitSize r es := by
  have hsome : ∀ x : SessionM τ CommandResult,
      Calls setup x s (fun r _ es => TellsUnit op.unitSize r es) →
      Calls setup (do pure (some (← x))) s fun r _ es => TellsUnit op.unitSize r es := fun x h =>
    h.bind (fun _ _ _ _ => emits_pure tellsUnit_ok) fun _ _ _ h => h.error
  have hdl : ∀ payload cancelled fromSource, op.payload = some payload →
      op.commandBytes = stringBytes (downloadCommand payload.length) →
      Calls setup (downloadLocked setup cancelled payload fromSource) s
        fun r _ es => TellsUnit op.unitSize r es := by
    intro payload cancelled fromSource hpay hbytes
    have hunit : ∀ p, op.unitSize p = if p = .dataWrite ∨ p = .finalResponse then
        (.dataWrite, payload.length)
        else (.commandWrite, (stringBytes (downloadCommand payload.length)).length) := by
      intro p
      unfold Operation.unitSize Operation.unit
      rw [hpay, hbytes]
      split_ifs <;> rfl
    have hbegun : ∀ streaming : Option (Bytes → τ → TransferResult × τ),
        (∀ stream ∈ streaming, setup.env.writeSource = some stream) → ∀ s' : Session τ,
        Calls setup (downloadBegun setup payload streaming) s'
          fun r _ es => TellsUnit op.unitSize r es := by
      intro streaming hstrm s'
      refine downloadBegun_tells payload hstrm (fun p hp => ?_) (fun p hp => ?_) s'
      · rw [hunit, if_neg]
        rcases hp with rfl | rfl <;> decide
      · rw [hunit, if_pos hp]
    refine beginLocked_bind_tells hrdy fun s' => ?_
    split_ifs
    · cases hstr : setup.env.writeSource with
      | none => exact emits_throw (tellsUnit_refused rfl)
      | some stream => exact hbegun (some stream) (by simpa using hstr) s'
    · exact hbegun none (by simp) s'
  cases op with
  | command cancelled commandText =>
      refine hsome _ (beginLocked_bind_tells hrdy fun s' => ?_)
      exact sendCommand_bind_tells (P := fun _ => True) (readTerminalLocked_quietly trivial []) rfl
        (fun _ _ => rfl) s'
  | download cancelled bytes =>
      refine hsome _ ?_
      unfold FastbootSession.download
      split_ifs
      · exact emits_throw (tellsUnit_refused rfl)
      · exact hdl bytes cancelled false rfl rfl
  | downloadSource cancelled source =>
      refine hsome _ ?_
      unfold FastbootSession.downloadSource
      cases source with
      | none => exact emits_throw (tellsUnit_refused rfl)
      | some bytes =>
          simp only
          split_ifs
          · exact emits_throw (tellsUnit_refused rfl)
          · exact hdl bytes cancelled true rfl rfl
  | receiveToSink cancelled commandText sink maximumBytes observer =>
      refine hsome _ ?_
      unfold FastbootSession.receiveToSink
      split_ifs
      · exact emits_throw (tellsUnit_refused rfl)
      · refine beginLocked_bind_tells hrdy fun s' => ?_
        refine sendCommand_bind_tells (P := fun _ => True) ?_ rfl (fun _ _ => rfl) s'
        refine Quietly.bind (initialResponses_receive_quietly trivial maximumBytes) fun initial => ?_
        cases initial with
        | refused result => exact confined_pure
        | announced informational announced =>
            exact receiveData_quietly trivial trivial observer announced informational
      · exact emits_throw (tellsUnit_refused rfl)
  | close =>
      refine (close_emits s).bind (fun _ _ _ _ => ?_) fun _ _ _ h => (by cases h.1)
      exact emits_pure tellsUnit_ok

/-! ### Truthful transports -/

/-- A result is truthful about a call that has accepted `count` of the offered bytes. -/
structure Truthful (offered count : ℕ) (result : TransferResult) : Prop where
  count_le : count ≤ offered
  transferred_eq : result.certainty ≠ .partialOrUnknown → result.transferred = count
  notTransferred : result.certainty = .notTransferred → count = 0

/-- The results of a transport are truthful about the number of bytes it has accepted, and only
writes are accepted. -/
structure TruthfulResults (env : Environment τ) (accepted : τ → ℕ) : Prop where
  write : ∀ offered world, ∃ count, accepted (env.write offered world).2
    = accepted world + count ∧ Truthful offered.length count (env.write offered world).1
  writeSource : ∀ stream ∈ env.writeSource, ∀ source world, ∃ count,
    accepted (stream source world).2 = accepted world + count ∧
      Truthful source.length count (stream source world).1
  read : ∀ size world, accepted (env.read size world).2 = accepted world
  readData : ∀ size world, accepted (env.readData size world).2 = accepted world
  requestCancel : ∀ world, accepted (env.requestCancel world) = accepted world
  close : ∀ world, accepted (env.close world) = accepted world
  sinkWrite : ∀ offset payload world,
    accepted (env.sinkWrite offset payload world).2 = accepted world
  observe : ∀ committed total world,
    accepted (env.observe committed total world).2 = accepted world
  allocate : ∀ size world, accepted (env.allocate size world).2 = accepted world

/-- A call together with the number of bytes that the transport has accepted in it. -/
def Metered (env : Environment τ) (accepted : τ → ℕ) (world : τ)
    (call : SessionEvent × ℕ) (world' : τ) : Prop :=
  call.1.Moves env world world' ∧ accepted world' = accepted world + call.2

/-- The number of bytes of a phase that the transport has accepted in metered calls. -/
def acceptedOf (phase : ProtocolPhase) (calls : List (SessionEvent × ℕ)) : ℕ :=
  ((calls.filter fun call => call.1.isWrite phase).map Prod.snd).sum

theorem Truthful.reported {offered count n : ℕ} {result : TransferResult}
    (h : Truthful offered count result) (hrep : result.reported = some n) : count = n := by
  unfold TransferResult.reported at hrep
  cases hcert : result.certainty with
  | notTransferred =>
      rw [hcert] at hrep
      cases hrep
      exact h.notTransferred hcert
  | fullyTransferred =>
      rw [hcert] at hrep
      cases hrep
      exact (h.transferred_eq (by rw [hcert]; decide)).symm
  | partialOrUnknown =>
      rw [hcert] at hrep
      cases hrep

/-- The count of a call that is looked at under a condition. -/
theorem Truthful.counted {offered count n : ℕ} {result : TransferResult} {c : Prop} [Decidable c]
    (h : Truthful offered count result) (hrep : (if c then result.reported else some 0) = some n) :
    (if decide c = true then count else 0) = n := by
  by_cases hc : c
  · rw [if_pos hc] at hrep
    rw [if_pos (decide_eq_true hc)]
    exact h.reported hrep
  · rw [if_neg hc] at hrep
    rw [if_neg (by simpa using hc)]
    exact Option.some.inj hrep

theorem TruthfulResults.moves {env : Environment τ} {accepted : τ → ℕ}
    (h : TruthfulResults env accepted) {world world' : τ} {e : SessionEvent}
    (hmov : e.Moves env world world') :
    ∃ count, accepted world' = accepted world + count ∧ ∀ phase n, e.reported phase = some n →
      (if e.isWrite phase then count else 0) = n := by
  have hsil : ∀ e : SessionEvent, e.isSilent → accepted world' = accepted world →
      ∃ count, accepted world' = accepted world + count ∧ ∀ phase n, e.reported phase = some n →
        (if e.isWrite phase then count else 0) = n := by
    intro e hsil hacpt
    refine ⟨0, hacpt, fun phase n hn => ?_⟩
    rw [ite_self]
    cases e <;> first | exact Option.some.inj hn | cases hsil
  cases e with
  | write p offered result =>
      obtain ⟨count, hacpt, htr⟩ := h.write offered world
      rw [hmov] at hacpt htr
      exact ⟨count, hacpt, fun phase n hn => htr.counted hn⟩
  | writeSource offered result =>
      obtain ⟨stream, hstr, hmov⟩ := hmov
      obtain ⟨count, hacpt, htr⟩ := h.writeSource stream hstr offered world
      rw [hmov] at hacpt htr
      exact ⟨count, hacpt, fun phase n hn => htr.counted hn⟩
  | read result packet =>
      obtain ⟨size, rfl⟩ := hmov
      exact hsil _ rfl (h.read size world)
  | readData requested result =>
      cases hmov
      exact hsil _ rfl (h.readData requested world)
  | sinkWrite offset payload result =>
      have hacpt := h.sinkWrite offset payload world
      rw [hmov] at hacpt
      exact hsil _ rfl hacpt
  | observe committed total outcome =>
      have hacpt := h.observe committed total world
      rw [hmov] at hacpt
      exact hsil _ rfl hacpt
  | allocate size succeeded =>
      have hacpt := h.allocate size world
      rw [hmov] at hacpt
      exact hsil _ rfl hacpt
  | requestCancel =>
      cases hmov
      exact hsil _ rfl (h.requestCancel world)
  | close =>
      cases hmov
      exact hsil _ rfl (h.close world)

/-- The calls between two states of the outside can be metered, and the writes of a phase accept
what they report together. -/
theorem TruthfulResults.metered {env : Environment τ} {accepted : τ → ℕ}
    (h : TruthfulResults env accepted) {world world' : τ} {es : SessionLog}
    (hpath : Path (SessionEvent.Moves env) world es world') :
    ∃ calls : List (SessionEvent × ℕ), calls.map Prod.fst = es ∧
      Path (Metered env accepted) world calls world' ∧
      ∀ phase n, reportedIn phase es = some n → acceptedOf phase calls = n := by
  induction hpath with
  | nil world => exact ⟨[], rfl, .nil world, fun _ _ hn => Option.some.inj hn⟩
  | @cons world₁ world₂ world₃ e es hmov hpath ih =>
      obtain ⟨calls, rfl, hcalls, hrest⟩ := ih
      obtain ⟨count, hacpt, hfst⟩ := h.moves hmov
      refine ⟨(e, count) :: calls, rfl, .cons ⟨hmov, hacpt⟩ hcalls, fun phase n hn => ?_⟩
      obtain ⟨a, ha, hn⟩ := Option.bind_eq_some_iff.mp hn
      obtain ⟨b, hb, rfl⟩ := Option.map_eq_some_iff.mp hn
      rw [← hfst phase a ha, ← hrest phase b hb, acceptedOf, acceptedOf, List.filter_cons]
      split_ifs <;> simp

/-- With a truthful transport, the certainty of a failed operation on a ready session is truthful
about the unit that was written in the phase of the failure: if it says that nothing was
transferred, the transport has accepted none of its bytes, and if it says that everything was, the
transport has accepted them all. -/
theorem session_certainty_truthful {setup : SessionSetup τ} {accepted : τ → ℕ}
    (htruthful : TruthfulResults setup.env accepted) (op : Operation) {s : Session τ}
    (hready : s.state = .ready) {error : ProtocolError}
    (hfailed : (exec (op.run setup) s).1 = .error error) :
    ∃ calls : List (SessionEvent × ℕ),
      (exec (op.run setup) s).2.log = s.log ++ calls.map Prod.fst ∧
      Path (Metered setup.env accepted) s.world calls (exec (op.run setup) s).2.world ∧
      (error.outboundCertainty = .notTransferred → acceptedOf (op.unit error.phase).1 calls = 0) ∧
      (error.outboundCertainty = .fullyTransferred →
        acceptedOf (op.unit error.phase).1 calls = (op.unit error.phase).2.length) := by
  obtain ⟨es, hlog, htells⟩ := op.run_tells setup hready
  obtain ⟨hnone, hfull⟩ := htells error hfailed
  obtain ⟨calls, rfl, hpath, haccepted⟩ := htruthful.metered hlog.2
  refine ⟨calls, hlog.1, hpath, fun hcertainty => ?_, fun hcertainty => ?_⟩
  · exact haccepted _ 0 (hnone hcertainty)
  · exact haccepted _ _ (hfull hcertainty)

/-! ### A transport that breaks off -/

/-- A transport that accepts three bytes of its first write and then disconnects; its state is the
number of bytes it has accepted. -/
def breakingEnvironment : Environment ℕ where
  write offered accepted :=
    if accepted = 0 then ({ transferred := min 3 offered.length }, min 3 offered.length)
    else ({ status := .disconnected, certainty := .notTransferred }, accepted)
  writeSource := none
  read _ accepted := (({ status := .disconnected, certainty := .notTransferred }, []), accepted)
  readData _ accepted := (({ status := .disconnected, certainty := .notTransferred }, []), accepted)
  requestCancel accepted := accepted
  close accepted := accepted
  sinkWrite _ _ accepted := ({}, accepted)
  observe _ _ accepted := (.continueTransfer, accepted)
  allocate _ accepted := (true, accepted)

theorem breakingEnvironment_truthful : TruthfulResults breakingEnvironment id where
  write offered accepted := by
    unfold breakingEnvironment
    by_cases hfst : accepted = 0
    · refine ⟨min 3 offered.length, ?_, ?_⟩
      · simp [hfst]
      · simp only [if_pos hfst]
        exact ⟨min_le_right _ _, fun _ => rfl, fun h => by cases h⟩
    · refine ⟨0, ?_, ?_⟩
      · simp [hfst]
      · simp only [if_neg hfst]
        exact ⟨Nat.zero_le _, fun _ => rfl, fun _ => rfl⟩
  writeSource _ h := by cases h
  read _ _ := rfl
  readData _ _ := rfl
  requestCancel _ := rfl
  close _ := rfl
  sinkWrite _ _ _ := rfl
  observe _ _ _ := rfl
  allocate _ _ := rfl

/-- Once it is disconnected, a command fails and nothing of it was accepted. -/
theorem breakingEnvironment_certainty :
    ∃ error, (exec ((Operation.command false "reboot").run ⟨breakingEnvironment, {}, true⟩)
        { world := 3 }).1 = .error error ∧ error.outboundCertainty = .notTransferred ∧
      ∃ calls : List (SessionEvent × ℕ),
        (exec ((Operation.command false "reboot").run ⟨breakingEnvironment, {}, true⟩)
          { world := 3 }).2.log = calls.map Prod.fst ∧ acceptedOf .commandWrite calls = 0 := by
  obtain ⟨error, hfailed, hcertainty⟩ : ∃ error,
      (exec ((Operation.command false "reboot").run ⟨breakingEnvironment, {}, true⟩)
        { world := 3 }).1 = .error error ∧ error.outboundCertainty = .notTransferred :=
    ⟨_, rfl, rfl⟩
  obtain ⟨calls, hlog, -, hnone, -⟩ := session_certainty_truthful breakingEnvironment_truthful
    (.command false "reboot") rfl hfailed
  exact ⟨error, hfailed, hcertainty, calls, hlog, hnone hcertainty⟩

end KairosBoot
