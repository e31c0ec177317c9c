import KairosBoot.SessionBoundary

/-! # What a step may call and how it may fail

A step of a session is confined to calls of a kind and to errors of a kind (`Confined`).  The
response loops are confined to reads and to errors that say nothing about received data
(`PlainError`), whatever is done with the response they end with. -/

namespace KairosBoot

open ByteLib Outcomes

/-- The error that a poisoned session keeps. -/
def Session.storedError {τ : Type} (s : Session τ) : ProtocolError :=
  s.poisonError.getD { code := .poisoned, message := "Fastboot session is poisoned" }

namespace FastbootSession

variable {τ α β ρ : Type} {setup : SessionSetup τ}

/-- Wherever the program starts, it makes calls of the kind `K` only, and an error satisfies
`E`. -/
def Confined (setup : SessionSetup τ) (K : SessionEvent → Prop) (E : ProtocolError → Prop)
    (x : SessionM τ α) : Prop :=
  ∀ s, Calls setup x s fun r _ es =>
    (∀ e ∈ es, K e) ∧ ∀ error, r = .error error → E error

section Rules

variable {K : SessionEvent → Prop} {E : ProtocolError → Prop} {x : SessionM τ α}
  {f : α → SessionM τ β}

theorem confined_pure {a : α} : Confined setup K E (pure a) := fun _ =>
  emits_pure ⟨by simp, fun _ h => by cases h⟩

theorem confined_throw {error : ProtocolError} (h : E error) :
    Confined setup K E (throw error : SessionM τ α) := fun _ =>
  emits_throw ⟨by simp, fun _ heq => by cases heq; exact h⟩

theorem confined_poisonLocked {error : ProtocolError} (h : E error) :
    Confined setup K E (poisonLocked error : SessionM τ α) := fun _ =>
  emits_poisonLocked fun _ _ => ⟨by simp, fun _ heq => by cases heq; exact h⟩

theorem Confined.bind (hx : Confined setup K E x) (hf : ∀ a, Confined setup K E (f a)) :
    Confined setup K E (x >>= f) := by
  intro s
  refine (hx s).bind ?_ ?_
  · rintro a s' es ⟨hes, -⟩
    refine (hf a s').mono fun r s'' es' h => ⟨?_, h.2⟩
    exact List.forall_mem_append.mpr ⟨hes, h.1⟩
  · rintro error s' es ⟨hes, herr⟩
    exact ⟨hes, fun _ heq => by cases heq; exact herr error rfl⟩

theorem confined_perform_bind {call : τ → ρ × τ} {event : ρ → SessionEvent} {f : ρ → SessionM τ β}
    (hmov : ∀ world, (event (call world).1).Moves setup.env world (call world).2)
    (hK : ∀ value, K (event value)) (hf : ∀ value, Confined setup K E (f value)) :
    Confined setup K E (perform call event >>= f) := fun _ =>
  emits_perform_bind hmov fun value s' _ => (hf value s').mono fun _ _ _ h =>
    ⟨List.forall_mem_cons.mpr ⟨hK value, h.1⟩, h.2⟩

theorem confined_setState_bind {state : SessionState} {f : Unit → SessionM τ β}
    (hf : Confined setup K E (f ())) : Confined setup K E (setState state >>= f) := fun _ =>
  emits_setState_bind fun s' _ => hf s'

theorem Confined.ite {y : SessionM τ α} {c : Prop} [Decidable c] (hx : Confined setup K E x)
    (hy : Confined setup K E y) : Confined setup K E (if c then x else y) := by
  split_ifs
  · exact hx
  · exact hy

theorem Confined.tryCatch_throw {g : ProtocolError → ProtocolError} (hx : Confined setup K E x)
    (hg : ∀ error, E error → E (g error)) :
    Confined setup K E (tryCatch x fun error => throw (g error)) := by
  intro s
  refine (hx s).tryCatch (fun _ _ _ h => h) ?_
  rintro error s' es ⟨hes, herr⟩
  refine emits_throw ⟨by simpa using hes, fun _ heq => ?_⟩
  cases heq
  exact hg error (herr error rfl)

end Rules

theorem emits_both {s : Session τ} {x : SessionM τ α}
    {P Q : Except ProtocolError α → Session τ → SessionLog → Prop} (hP : Calls setup x s P)
    (hQ : Calls setup x s Q) : Calls setup x s fun r s' es => P r s' es ∧ Q r s' es := by
  obtain ⟨es, htrc, hp⟩ := hP
  obtain ⟨es', htrc', hq⟩ := hQ
  obtain rfl : es = es' := List.append_cancel_left (htrc.1.symm.trans htrc'.1)
  exact ⟨es, htrc, hp, hq⟩

theorem unavailableErrorLocked_poisoned {s : Session τ} (hpois : s.state = .poisoned) :
    unavailableErrorLocked s = { s.storedError with
      code := .poisoned
      message := "Fastboot session is poisoned: " ++ s.storedError.message } := by
  unfold unavailableErrorLocked
  rw [hpois]
  rfl

/-! ### Writing -/

theorem writeExactLoop_confined {K : SessionEvent → Prop} {E : ProtocolError → Prop}
    {phase : ProtocolPhase} (hwr : ∀ offered result, K (.write phase offered result))
    (hflt : ∀ offset remaining result error,
      writeFault phase offset remaining result = some error → E error)
    (bytes : Bytes) (fuel offset : ℕ) :
    Confined setup K E (writeExactLoop setup bytes phase fuel offset) := by
  induction fuel generalizing offset with
  | zero => exact confined_pure
  | succ fuel ih =>
      refine Confined.ite ?_ confined_pure
      refine confined_perform_bind (fun _ => rfl) (fun _ => hwr _ _) fun result => ?_
      cases h : writeFault phase offset (bytes.drop offset).length result with
      | some error => exact confined_poisonLocked (hflt _ _ _ error h)
      | none => exact ih _

theorem sendCommand_confined {K : SessionEvent → Prop} {E : ProtocolError → Prop}
    (hwr : ∀ offered result, K (.write .commandWrite offered result))
    (hflt : ∀ offset remaining result error,
      writeFault .commandWrite offset remaining result = some error → E error)
    (commandText : String) : Confined setup K E (sendCommand setup commandText) := by
  have hlast : Confined setup K E (setState .awaitingResponse : SessionM τ Unit) := fun _ =>
    emits_setState fun _ _ => ⟨by simp, fun _ h => by cases h⟩
  exact confined_setState_bind ((writeExactLoop_confined hwr hflt _ _ _).bind fun _ => hlast)

/-! ### Responses -/

/-- An error of a phase after everything was sent and before anything was received. -/
structure PlainError (phase : ProtocolPhase) (error : ProtocolError) : Prop where
  phase_eq : error.phase = phase
  outboundCertainty_eq : error.outboundCertainty = .fullyTransferred
  inboundTransferred_eq : error.inboundTransferred = 0
  inboundCertainty_ne : error.inboundCertainty ≠ .fullyTransferred

section Responses

variable {phase : ProtocolPhase} {K : SessionEvent → Prop} {E : ProtocolError → Prop}

theorem readOutcome_plain {informational : List Response} {read : TransferResult × Bytes}
    {error : ProtocolError}
    (h : readOutcome setup phase .fullyTransferred informational read = .error error) :
    PlainError phase error := by
  simp only [readOutcome] at h
  split_ifs at h
  · cases h
    exact ⟨rfl, rfl, rfl, fun h => by cases h⟩
  · cases h
    exact ⟨rfl, rfl, rfl, fun h => by cases h⟩
  · cases h
    exact ⟨rfl, rfl, rfl, fun h => by cases h⟩
  · cases hparse : parseResponse (packetOf setup.options.maxResponseBytes read)
        setup.options.maxResponseBytes with
    | ok response =>
        rw [hparse] at h
        cases h
    | error e =>
        rw [hparse] at h
        cases h
        exact ⟨rfl, rfl, rfl, fun h => by cases h⟩

variable (hread : ∀ result packet, K (.read result packet))
  (hplain : ∀ error, PlainError phase error → E error)

include hread hplain

theorem readResponseLocked_confined (informational : List Response) :
    Confined setup K E (readResponseLocked setup phase .fullyTransferred informational) := by
  refine confined_perform_bind (fun _ => ⟨_, rfl⟩) (fun _ => hread _ _) fun read => ?_
  cases hout : readOutcome setup phase .fullyTransferred informational read with
  | error error => exact confined_poisonLocked (hplain error (readOutcome_plain hout))
  | ok response => exact confined_pure

theorem responseLoop_confined {finish : List Response → Response → SessionM τ β}
    (hfin : ∀ informational response, Confined setup K E (finish informational response))
    (fuel : ℕ) (informational : List Response) :
    Confined setup K E (responseLoop setup phase .fullyTransferred finish fuel informational) := by
  have hlim : ∀ informational : List Response, Confined setup K E
      (poisonLocked (informationalLimitError informational phase .fullyTransferred) :
        SessionM τ β) := fun informational =>
    confined_poisonLocked (hplain _ ⟨rfl, rfl, rfl, fun h => by cases h⟩)
  have hround : ∀ (again : List Response → SessionM τ β) (informational : List Response),
      (∀ informational, Confined setup K E (again informational)) →
      Confined setup K E
        (responseRound setup phase .fullyTransferred finish again informational) := by
    intro again informational hagain
    refine (readResponseLocked_confined hread hplain informational).bind fun response => ?_
    exact ((hlim informational).ite (hagain _)).ite (hfin informational response)
  induction fuel generalizing informational with
  | zero => exact hround _ informational hlim
  | succ fuel ih => exact hround _ informational ih

theorem readTerminalLocked_confined (informational : List Response) :
    Confined setup K E (readTerminalLocked setup informational phase .fullyTransferred) := by
  refine responseLoop_confined hread hplain (fun informational response => ?_) _ informational
  refine Confined.ite (confined_setState_bind confined_pure) (confined_poisonLocked ?_)
  exact hplain _ ⟨rfl, rfl, rfl, fun h => by cases h⟩

end Responses

section Initial

variable {K : SessionEvent → Prop} {E : ProtocolError → Prop}
  (hread : ∀ result packet, K (.read result packet))
  (hplain : ∀ error, PlainError .initialResponse error → E error)

include hread hplain

theorem initialResponses_download_confined (size : ℕ) :
    Confined setup K E (initialResponses setup (finishDownload size)) := by
  refine responseLoop_confined hread hplain (fun informational response => ?_) _ []
  refine Confined.ite (confined_setState_bind confined_pure) (Confined.ite ?_ (Confined.ite ?_ ?_))
  · exact confined_poisonLocked (hplain _ ⟨rfl, rfl, rfl, fun h => by cases h⟩)
  · exact confined_poisonLocked (hplain _ ⟨rfl, rfl, rfl, fun h => by cases h⟩)
  · exact confined_pure

theorem initialResponses_receive_confined (hcancel : K .requestCancel) (hclose : K .close)
    (maximumBytes : ℕ) :
    Confined setup K E (initialResponses setup (finishReceive setup maximumBytes)) := by
  refine responseLoop_confined hread hplain (fun informational response => ?_) _ []
  refine Confined.ite (confined_setState_bind confined_pure) (Confined.ite ?_ ?_)
  · exact confined_setState_bind (confined_throw (hplain _ ⟨rfl, rfl, rfl, fun h => by cases h⟩))
  · cases response.announcedSize with
    | none => exact confined_poisonLocked (hplain _ ⟨rfl, rfl, rfl, fun h => by cases h⟩)
    | some size =>
        refine Confined.ite ?_ confined_pure
        refine confined_perform_bind (fun _ => rfl) (fun _ => hcancel) fun _ => ?_
        refine confined_perform_bind (fun _ => rfl) (fun _ => hclose) fun _ => ?_
        refine confined_poisonLocked (hplain _ ⟨rfl, rfl, rfl, ?_⟩)
        change (if size = 0 then TransferCertainty.notTransferred else .partialOrUnknown)
          ≠ .fullyTransferred
        split_ifs <;> decide

end Initial

end FastbootSession

end KairosBoot
