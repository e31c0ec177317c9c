import KairosBoot.SessionExchange

/-! # What the operations of a session exchange with the device

The calls of a whole operation, phase by phase.  The constructors of `CommandOutcome`,
`DownloadOutcome` and `ReceiveOutcome` follow the exits of `command`, `download_locked` and
`receive_locked`; what holds of an operation is read off them. -/

namespace KairosBoot

open ByteLib Outcomes

namespace FastbootSession

variable {τ : Type} {setup : SessionSetup τ}

/-! ### Beginning -/

/-- What `begin_locked` leaves: it makes no call, and it only succeeds in a ready session. -/
inductive BeginOutcome (commandText : String) (state : SessionState) :
    Except ProtocolError Unit → Session τ → SessionLog → Prop
  | begun {s' : Session τ} (ready : state = .ready) (nonempty : stringBytes commandText ≠ [])
      (state_eq : s'.state = .ready) : BeginOutcome commandText state (.ok ()) s' []
  | rejected {s' : Session τ} {error : ProtocolError} (state_eq : s'.state = state) :
      BeginOutcome commandText state (.error error) s' []
  | cancelled {s' : Session τ} {error : ProtocolError} (ready : state = .ready)
      (state_eq : s'.state = .poisoned) : BeginOutcome commandText state (.error error) s' []

theorem beginLocked_emits (cancelled : Bool) (commandText : String) (s : Session τ) :
    Calls setup (beginLocked setup cancelled commandText) s (BeginOutcome commandText s.state) := by
  refine emits_get_bind ?_
  split_ifs with hst hcanc htrsp hlen hforbidden
  · exact emits_throw (.rejected rfl)
  · exact emits_poisonLocked fun s' hs' => .cancelled (not_not.mp hst) hs'
  · exact emits_throw (.rejected rfl)
  · exact emits_throw (.rejected rfl)
  · have hrdy := not_not.mp hst
    refine emits_pure (.begun hrdy (fun h => hlen (.inl ?_)) hrdy)
    rw [List.length_eq_zero_iff]
    exact List.map_eq_nil_iff.mp h
  · exact emits_throw (.rejected rfl)

theorem sendCommand_emits (commandText : String) (s : Session τ) :
    Calls setup (sendCommand setup commandText) s
      (Wrote .commandWrite (stringBytes commandText) .awaitingResponse) := by
  refine emits_setState_bind fun s₁ hs₁ => ?_
  refine (writeExactLocked_emits _ _ s₁).bind ?_ ?_
  · rintro _ s₂ es ⟨hwrs, htaken, -⟩
    refine emits_setState fun s₃ hs₃ => ?_
    rw [List.append_nil]
    exact .complete hwrs htaken hs₃
  · rintro error s₂ es (_ | ⟨hwrs, htaken, hs₂⟩)
    exact .failed hwrs htaken hs₂

/-! ### Downloads -/

section

variable {streaming : Option (Bytes → τ → TransferResult × τ)} (payload : Bytes)
  (hstrm : ∀ stream ∈ streaming, setup.env.writeSource = some stream)
include hstrm

theorem writePayload_emits (s : Session τ) :
    Calls setup (writePayload setup payload streaming) s (Wrote .dataWrite payload s.state) := by
  cases streaming with
  | none => exact writeExactLocked_emits payload .dataWrite s
  | some stream => exact writeSourceLocked_emits (hstrm stream rfl) payload s

theorem downloadPayload_emits (informational : List Response) (s : Session τ) :
    Calls setup (downloadPayload setup payload streaming informational) s
      (Wrote .dataWrite payload s.state) := by
  refine (writePayload_emits payload hstrm s).tryCatch (fun _ _ _ h => h) ?_
  rintro error s₁ es (_ | ⟨hwrs, htaken, -⟩)
  refine emits_poisonLocked fun s₂ hs₂ => ?_
  rw [List.append_nil]
  exact .failed hwrs htaken hs₂

/-- What `download_locked` leaves once it has begun, with the calls of its phases in their order:
the command, the initial responses, the payload and the final responses. -/
inductive DownloadOutcome (limit infoLimit : ℕ) (payload : Bytes) :
    Except ProtocolError CommandResult → Session τ → SessionLog → Prop
  | commandFailed {s' : Session τ} {es : SessionLog} {error : ProtocolError}
      (command : Wrote .commandWrite (stringBytes (downloadCommand payload.length))
        .awaitingResponse (.error error) s' es) :
      DownloadOutcome limit infoLimit payload (.error error) s' es
  | initialFailed {s₁ s' : Session τ} {es₁ es₂ : SessionLog} {error : ProtocolError}
      (command : Wrote .commandWrite (stringBytes (downloadCommand payload.length))
        .awaitingResponse (.ok ()) s₁ es₁)
      (initial : InitialOutcome limit infoLimit (· = payload.length) .awaitingResponse
        (.error error) s' es₂) :
      DownloadOutcome limit infoLimit payload (.error error) s' (es₁ ++ es₂)
  | refused {s₁ s' : Session τ} {es₁ es₂ : SessionLog} {result : CommandResult}
      (command : Wrote .commandWrite (stringBytes (downloadCommand payload.length))
        .awaitingResponse (.ok ()) s₁ es₁)
      (initial : InitialOutcome limit infoLimit (· = payload.length) .awaitingResponse
        (.ok (.refused result)) s' es₂) :
      DownloadOutcome limit infoLimit payload (.ok result) s' (es₁ ++ es₂)
  | payloadFailed {s₁ s₂ s' : Session τ} {es₁ es₂ es₃ : SessionLog}
      {infos : List Response} {size : ℕ} {error : ProtocolError}
      (command : Wrote .commandWrite (stringBytes (downloadCommand payload.length))
        .awaitingResponse (.ok ()) s₁ es₁)
      (initial : InitialOutcome limit infoLimit (· = payload.length) .awaitingResponse
        (.ok (.announced infos size)) s₂ es₂)
      (data : Wrote .dataWrite payload .downloading (.error error) s' es₃) :
      DownloadOutcome limit infoLimit payload (.error error) s' (es₁ ++ (es₂ ++ es₃))
  | ended {s₁ s₂ s₃ s' : Session τ} {es₁ es₂ es₃ es₄ : SessionLog}
      {infos : List Response} {size : ℕ} {r : Except ProtocolError CommandResult}
      (command : Wrote .commandWrite (stringBytes (downloadCommand payload.length))
        .awaitingResponse (.ok ()) s₁ es₁)
      (initial : InitialOutcome limit infoLimit (· = payload.length) .awaitingResponse
        (.ok (.announced infos size)) s₂ es₂)
      (data : Wrote .dataWrite payload .downloading (.ok ()) s₃ es₃)
      (terminal : TerminalOutcome limit (infoLimit - infos.length) r s' es₄) :
      DownloadOutcome limit infoLimit payload r s' (es₁ ++ (es₂ ++ (es₃ ++ es₄)))

theorem downloadBegun_emits (s : Session τ) :
    Calls setup (downloadBegun setup payload streaming) s
      (DownloadOutcome setup.options.maxResponseBytes setup.options.maxInformationalResponses
        payload) := by
  refine (sendCommand_emits _ s).bind ?_ fun _ _ _ => .commandFailed
  intro _ s₁ es₁ hcmd
  have hs₁ : s₁.state = .awaitingResponse := by cases hcmd; assumption
  refine (initialResponses_download_emits payload.length s₁).bind ?_ ?_
  · rw [hs₁]
    intro initial s₂ es₂ hinit
    cases initial with
    | refused result =>
        refine emits_pure ?_
        rw [List.append_nil]
        exact .refused hcmd hinit
    | announced infos size =>
        refine emits_setState_bind fun s₂' hs₂' => ?_
        refine (downloadPayload_emits payload hstrm infos s₂').bind ?_ ?_
        · intro _ s₃ es₃ hdata
          rw [hs₂'] at hdata
          refine emits_setState_bind fun s₃' _ => ?_
          exact (readTerminalLocked_emits infos _ _ s₃').mono fun r s₄ es₄ hterm =>
            .ended hcmd hinit hdata hterm
        · intro error s₃ es₃ hdata
          rw [hs₂'] at hdata
          exact .payloadFailed hcmd hinit hdata
  · rw [hs₁]
    intro error s₂ es₂ hinit
    exact .initialFailed hcmd hinit

end

/-! ### Commands and receives -/

/-- What `command` leaves once it has begun. -/
inductive CommandOutcome (limit infoLimit : ℕ) (commandText : String) :
    Except ProtocolError CommandResult → Session τ → SessionLog → Prop
  | commandFailed {s' : Session τ} {es : SessionLog} {error : ProtocolError}
      (command : Wrote .commandWrite (stringBytes commandText) .awaitingResponse (.error error)
        s' es) :
      CommandOutcome limit infoLimit commandText (.error error) s' es
  | ended {s₁ s' : Session τ} {es₁ es₂ : SessionLog}
      {r : Except ProtocolError CommandResult}
      (command : Wrote .commandWrite (stringBytes commandText) .awaitingResponse (.ok ()) s₁ es₁)
      (terminal : TerminalOutcome limit infoLimit r s' es₂) :
      CommandOutcome limit infoLimit commandText r s' (es₁ ++ es₂)

theorem commandBegun_emits (commandText : String) (s : Session τ) :
    Calls setup (commandBegun setup commandText) s
      (CommandOutcome setup.options.maxResponseBytes setup.options.maxInformationalResponses
        commandText) := by
  refine (sendCommand_emits _ s).bind ?_ fun _ _ _ => .commandFailed
  intro _ s₁ es₁ hcmd
  exact (readTerminalLocked_emits [] _ _ s₁).mono fun r s' es₂ => .ended hcmd

/-- What `receive_locked` leaves once it has begun, with the calls of its phases in their order:
the command, the initial responses, the data and the final responses. -/
inductive ReceiveOutcome (limit infoLimit : ℕ) (commandText : String) (maximumBytes : ℕ) :
    Except ProtocolError CommandResult → Session τ → SessionLog → Prop
  | commandFailed {s' : Session τ} {es : SessionLog} {error : ProtocolError}
      (command : Wrote .commandWrite (stringBytes commandText) .awaitingResponse (.error error)
        s' es) :
      ReceiveOutcome limit infoLimit commandText maximumBytes (.error error) s' es
  | initialFailed {s₁ s' : Session τ} {es₁ es₂ : SessionLog} {error : ProtocolError}
      (command : Wrote .commandWrite (stringBytes commandText) .awaitingResponse (.ok ()) s₁ es₁)
      (initial : InitialOutcome limit infoLimit (fun size => 0 < size ∧ size ≤ maximumBytes)
        .awaitingResponse (.error error) s' es₂) :
      ReceiveOutcome limit infoLimit commandText maximumBytes (.error error) s' (es₁ ++ es₂)
  | refused {s₁ s' : Session τ} {es₁ es₂ : SessionLog} {result : CommandResult}
      (command : Wrote .commandWrite (stringBytes commandText) .awaitingResponse (.ok ()) s₁ es₁)
      (initial : InitialOutcome limit infoLimit (fun size => 0 < size ∧ size ≤ maximumBytes)
        .awaitingResponse (.ok (.refused result)) s' es₂) :
      ReceiveOutcome limit infoLimit commandText maximumBytes (.ok result) s' (es₁ ++ es₂)
  | dataFailed {s₁ s₂ s' : Session τ} {es₁ es₂ es₃ : SessionLog} {infos : List Response}
      {size : ℕ} {error : ProtocolError}
      (command : Wrote .commandWrite (stringBytes commandText) .awaitingResponse (.ok ()) s₁ es₁)
      (initial : InitialOutcome limit infoLimit (fun size => 0 < size ∧ size ≤ maximumBytes)
        .awaitingResponse (.ok (.announced infos size)) s₂ es₂)
      (state_eq : s'.state = .poisoned) :
      ReceiveOutcome limit infoLimit commandText maximumBytes (.error error) s'
        (es₁ ++ (es₂ ++ es₃))
  | ended {s₁ s₂ s' : Session τ} {es₁ es₂ es₃ es₄ : SessionLog}
      {infos : List Response} {size committed : ℕ} {r : Except ProtocolError CommandResult}
      (command : Wrote .commandWrite (stringBytes commandText) .awaitingResponse (.ok ()) s₁ es₁)
      (initial : InitialOutcome limit infoLimit (fun size => 0 < size ∧ size ≤ maximumBytes)
        .awaitingResponse (.ok (.announced infos size)) s₂ es₂)
      (inbound : ∀ e ∈ es₃, e.isInbound) (received : receivedIn es₃ = size)
      (terminal : TerminalOutcome limit (infoLimit - infos.length) r s' es₄) :
      ReceiveOutcome limit infoLimit commandText maximumBytes
        ((r.map (receivedResult size committed)).mapError (receivedError size committed)) s'
        (es₁ ++ (es₂ ++ (es₃ ++ es₄)))

/-- What the part of `receive_locked` after the DATA response leaves. -/
inductive ReceiveDataOutcome (limit fuel size : ℕ) :
    Except ProtocolError CommandResult → Session τ → SessionLog → Prop
  | failed {s' : Session τ} {es : SessionLog} {error : ProtocolError}
      (state_eq : s'.state = .poisoned) : ReceiveDataOutcome limit fuel size (.error error) s' es
  | ended {s' : Session τ} {es es' : SessionLog} {committed : ℕ}
      {r : Except ProtocolError CommandResult}
      (inbound : ∀ e ∈ es, e.isInbound) (received : receivedIn es = size)
      (terminal : TerminalOutcome limit fuel r s' es') :
      ReceiveDataOutcome limit fuel size
        ((r.map (receivedResult size committed)).mapError (receivedError size committed)) s'
        (es ++ es')

theorem receiveData_emits (observer : Bool) (announced : ℕ) (informational : List Response)
    (s : Session τ) :
    Calls setup (receiveData setup observer announced informational) s
      (ReceiveDataOutcome setup.options.maxResponseBytes
        (setup.options.maxInformationalResponses - informational.length) announced) := by
  refine emits_perform_bind (fun _ => rfl) fun allocated s₁ _ => ?_
  generalize hev : SessionEvent.allocate _ allocated = event
  have hinb : event.isInbound := by rw [← hev]; rfl
  have hrecv : event.received = 0 := by rw [← hev]; rfl
  split_ifs with halloc
  · refine emits_setState_bind fun s₂ _ => ?_
    refine (receiveLoop_emits announced _ 0 (by simp) s₂).bind ?_ ?_
    · rintro committed s₃ es ⟨hes, hn, -⟩
      refine emits_setState_bind fun s₄ _ => ?_
      have hterm : Calls setup
          (tryCatch (readTerminalLocked setup informational .finalResponse .fullyTransferred)
            fun error => throw (receivedError announced committed error)) s₄
          fun r s' es => ∃ r' : Except ProtocolError CommandResult,
            r = r'.mapError (receivedError announced committed) ∧
              TerminalOutcome setup.options.maxResponseBytes
                (setup.options.maxInformationalResponses - informational.length) r' s' es := by
        refine (readTerminalLocked_emits informational _ _ s₄).tryCatch ?_ ?_
        · exact fun result s' es h => ⟨.ok result, rfl, h⟩
        · intro error s' es h
          refine emits_throw ⟨.error error, rfl, ?_⟩
          rwa [List.append_nil]
      have hsum : receivedIn (event :: es) = announced := by
        rw [receivedIn_cons, hrecv, hn]
        omega
      have hall : ∀ e ∈ event :: es, e.isInbound := List.forall_mem_cons.mpr ⟨hinb, hes⟩
      refine hterm.bind ?_ ?_
      · rintro result s' es' ⟨_ | result', heq, h⟩
        · cases heq
        · cases heq
          refine emits_pure ?_
          rw [List.append_nil]
          exact .ended hall hsum h
      · rintro error s' es' ⟨error' | _, heq, h⟩
        · cases heq
          exact .ended hall hsum h
        · cases heq
    · rintro error s₃ es (_ | ⟨-, hs₃⟩)
      exact .failed hs₃
  · refine emits_perform_bind (fun _ => rfl) fun _ s₂ _ =>
      emits_perform_bind (fun _ => rfl) fun _ s₃ _ => emits_poisonLocked fun s' hs' => ?_
    exact .failed hs'

theorem receiveBegun_emits (commandText : String) (maximumBytes : ℕ) (observer : Bool)
    (s : Session τ) :
    Calls setup (receiveBegun setup commandText maximumBytes observer) s
      (ReceiveOutcome setup.options.maxResponseBytes setup.options.maxInformationalResponses
        commandText maximumBytes) := by
  refine (sendCommand_emits _ s).bind ?_ fun _ _ _ => .commandFailed
  intro _ s₁ es₁ hcmd
  have hs₁ : s₁.state = .awaitingResponse := by cases hcmd; assumption
  refine (initialResponses_receive_emits maximumBytes s₁).bind ?_ ?_
  · rw [hs₁]
    intro initial s₂ es₂ hinit
    cases initial with
    | refused result =>
        refine emits_pure ?_
        rw [List.append_nil]
        exact .refused hcmd hinit
    | announced infos size =>
        refine (receiveData_emits observer size infos s₂).mono ?_
        rintro r s' es (⟨hs'⟩ | ⟨hinb, hrecv, hterm⟩)
        · exact .dataFailed hcmd hinit hs'
        · exact .ended hcmd hinit hinb hrecv hterm
  · rw [hs₁]
    intro error s₂ es₂ hinit
    exact .initialFailed hcmd hinit

/-- `close` closes the session and transfers nothing. -/
theorem close_emits (s : Session τ) :
    Calls setup (close setup) s
      fun r s' es => r = .ok () ∧ s'.state = .closed ∧ ∀ e ∈ es, ¬ e.isTransfer := by
  refine emits_get_bind ?_
  split_ifs with hclos htrsp
  · exact emits_pure ⟨rfl, hclos, by simp⟩
  · refine emits_perform_bind (fun _ => rfl) fun _ s₁ _ => emits_setState fun s' hs' => ?_
    exact ⟨rfl, hs', by simp [SessionEvent.isTransfer]⟩
  · exact emits_setState fun s' hs' => ⟨rfl, hs', by simp⟩

end FastbootSession

end KairosBoot
