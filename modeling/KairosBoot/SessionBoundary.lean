import KairosBoot.SessionOperations

/-! # A session stays at a message boundary or is dead

Between two operations a session is ready, poisoned or closed.  An operation that finds the session
ready and leaves it ready has made no call at all, or it is a complete exchange: its command was
written, one terminal response was read, and the data that the device has announced was sent or
received to the last byte.  In a session that is not ready no operation transfers anything.

`Exchanged` summarizes a segment of calls; `BoundaryOutcome` is what an operation leaves, and
`session_at_message_boundary` follows it through every sequence of operations. -/

namespace KairosBoot

open Outcomes FastbootSession SessionEvent

variable {τ ρ : Type}

/-- The number of terminal responses received in a segment of calls. -/
def terminalsIn (limit : ℕ) (es : SessionLog) : ℕ :=
  (responsesIn limit es).countP Response.isTerminal

/-- The number of data bytes that the DATA responses received in a segment of calls announce. -/
def announcedIn (limit : ℕ) (es : SessionLog) : ℕ :=
  ((responsesIn limit es).filterMap Response.announcedSize).sum

/-! ### Summaries of segments -/

/-- A segment of calls in which the transport has taken the given bytes of a command and of a
payload, and in which the given numbers of terminal responses and of announced and received bytes
came in. -/
structure Exchanged (limit : ℕ) (es : SessionLog) (command payload : Bytes)
    (terminals announced received : ℕ) : Prop where
  command_eq : takenIn .commandWrite es = command
  payload_eq : takenIn .dataWrite es = payload
  terminals_eq : terminalsIn limit es = terminals
  announced_eq : announcedIn limit es = announced
  received_eq : receivedIn es = received

section Summaries

variable {limit : ℕ} {es es' : SessionLog}

theorem Exchanged.append {command command' payload payload' : Bytes}
    {terminals terminals' announced announced' received received' : ℕ}
    (h : Exchanged limit es command payload terminals announced received)
    (h' : Exchanged limit es' command' payload' terminals' announced' received') :
    Exchanged limit (es ++ es') (command ++ command') (payload ++ payload')
      (terminals + terminals') (announced + announced') (received + received') where
  command_eq := by rw [takenIn_append, h.command_eq, h'.command_eq]
  payload_eq := by rw [takenIn_append, h.payload_eq, h'.payload_eq]
  terminals_eq := by
    rw [← h.terminals_eq, ← h'.terminals_eq]
    simp [terminalsIn]
  announced_eq := by
    rw [← h.announced_eq, ← h'.announced_eq]
    simp [announcedIn]
  received_eq := by rw [receivedIn_append, h.received_eq, h'.received_eq]

theorem exchanged_of_isWrite {phase : ProtocolPhase} (h : ∀ e ∈ es, e.isWrite phase) :
    Exchanged limit es (takenIn .commandWrite es) (takenIn .dataWrite es) 0 0 0 where
  command_eq := rfl
  payload_eq := rfl
  terminals_eq := by
    rw [terminalsIn, responsesIn_eq_nil fun e he => response_of_isWrite (h e he)]
    rfl
  announced_eq := by
    rw [announcedIn, responsesIn_eq_nil fun e he => response_of_isWrite (h e he)]
    rfl
  received_eq := receivedIn_eq_zero fun e he => received_of_isWrite (h e he)

theorem exchanged_command {bytes : Bytes} {state : SessionState} {s : Session τ}
    (hwrote : Wrote .commandWrite bytes state (.ok ()) s es) : Exchanged limit es bytes [] 0 0 0 := by
  obtain ⟨h, htaken, -⟩ := hwrote
  have hdata : takenIn .dataWrite es = [] :=
    takenIn_eq_nil fun e he => taken_of_isWrite (h e he) (by decide)
  have : Exchanged limit es _ _ 0 0 0 := exchanged_of_isWrite h
  rwa [htaken, hdata] at this

theorem exchanged_payload {bytes : Bytes} {state : SessionState} {s : Session τ}
    (hwrote : Wrote .dataWrite bytes state (.ok ()) s es) : Exchanged limit es [] bytes 0 0 0 := by
  obtain ⟨h, htaken, -⟩ := hwrote
  have hcmd : takenIn .commandWrite es = [] :=
    takenIn_eq_nil fun e he => taken_of_isWrite (h e he) (by decide)
  have : Exchanged limit es _ _ 0 0 0 := exchanged_of_isWrite h
  rwa [htaken, hcmd] at this

theorem exchanged_inbound (h : ∀ e ∈ es, e.isInbound) :
    Exchanged limit es [] [] 0 0 (receivedIn es) where
  command_eq := takenIn_eq_nil fun e he => taken_of_isInbound (h e he)
  payload_eq := takenIn_eq_nil fun e he => taken_of_isInbound (h e he)
  terminals_eq := by
    rw [terminalsIn, responsesIn_eq_nil fun e he => response_of_isInbound (h e he)]
    rfl
  announced_eq := by
    rw [announcedIn, responsesIn_eq_nil fun e he => response_of_isInbound (h e he)]
    rfl
  received_eq := rfl

variable {r : Response}

theorem Response.not_isTerminal_of_isInformational (h : r.isInformational) : ¬ r.isTerminal := by
  have h : r.kind = .info ∨ r.kind = .text := of_decide_eq_true h
  rcases h with h | h <;> simp [Response.isTerminal, h]

theorem Response.announcedSize_of_isInformational (h : r.isInformational) :
    r.announcedSize = none := by
  have h : r.kind = .info ∨ r.kind = .text := of_decide_eq_true h
  rcases h with h | h <;> simp [Response.announcedSize, h]

theorem Response.announcedSize_of_isTerminal (h : r.isTerminal) : r.announcedSize = none := by
  have h : r.kind = .okay ∨ r.kind = .fail := of_decide_eq_true h
  rcases h with h | h <;> simp [Response.announcedSize, h]

theorem Response.not_isTerminal_of_announcedSize {size : ℕ} (h : r.announcedSize = some size) :
    ¬ r.isTerminal := fun hterm => by
  rw [announcedSize_of_isTerminal hterm] at h
  cases h

theorem Response.isTerminal_of_fail (h : r.kind = .fail) :
    r.isTerminal := by simp [Response.isTerminal, h]

theorem Response.isTerminal_of_okay (h : r.kind = .okay) :
    r.isTerminal := by simp [Response.isTerminal, h]

/-- A segment of reads is summarized by its last response. -/
theorem exchanged_of_answers {infos : List Response} {final : Response}
    (h : Answers limit es infos final) :
    Exchanged limit es [] [] (if final.isTerminal then 1 else 0) (final.announcedSize.getD 0) 0 where
  command_eq := takenIn_eq_nil fun e he => taken_of_isRead (h.reads e he)
  payload_eq := takenIn_eq_nil fun e he => taken_of_isRead (h.reads e he)
  terminals_eq := by
    have hinfos : infos.countP Response.isTerminal = 0 := List.countP_eq_zero.mpr fun r hr =>
      Response.not_isTerminal_of_isInformational (h.informational r hr)
    rw [terminalsIn, h.responses, List.countP_append, hinfos, List.countP_singleton, zero_add]
  announced_eq := by
    have hinfos : infos.filterMap Response.announcedSize = [] :=
      List.filterMap_eq_nil_iff.mpr fun r hr =>
        Response.announcedSize_of_isInformational (h.informational r hr)
    rw [announcedIn, h.responses, List.filterMap_append, hinfos]
    cases hfin : final.announcedSize <;> simp [hfin]
  received_eq := receivedIn_eq_zero fun e he => received_of_isRead (h.reads e he)

theorem exchanged_terminal {infos : List Response} {final : Response}
    (h : Answers limit es infos final) (hterm : final.isTerminal) :
    Exchanged limit es [] [] 1 0 0 := by
  have := exchanged_of_answers h
  rwa [if_pos hterm, Response.announcedSize_of_isTerminal hterm] at this

theorem exchanged_announced {infos : List Response} {final : Response} {size : ℕ}
    (h : Answers limit es infos final) (hsize : final.announcedSize = some size) :
    Exchanged limit es [] [] 0 size 0 := by
  have := exchanged_of_answers h
  rwa [if_neg (Response.not_isTerminal_of_announcedSize hsize), hsize] at this

end Summaries

/-! ### What an operation leaves -/

/-- The direction of the data phase of an operation, if it has one. -/
inductive DataDirection where
  | outbound | inbound
  deriving DecidableEq, Repr

/-- No announced byte is outstanding: in the direction of the data phase all of them have been
transferred, and none in the other one. -/
def DataSettled (limit : ℕ) (direction : Option DataDirection) (es : SessionLog) : Prop :=
  match direction with
  | none => announcedIn limit es = 0 ∧ takenIn .dataWrite es = [] ∧ receivedIn es = 0
  | some .outbound => (takenIn .dataWrite es).length = announcedIn limit es ∧ receivedIn es = 0
  | some .inbound => receivedIn es = announcedIn limit es ∧ takenIn .dataWrite es = []

/-- The calls of a complete exchange. -/
structure CompleteExchange (limit : ℕ) (command : Bytes) (direction : Option DataDirection)
    (es : SessionLog) : Prop where
  command_nonempty : command ≠ []
  command_taken : takenIn .commandWrite es = command
  one_terminal : terminalsIn limit es = 1
  settled : DataSettled limit direction es

/-- What an operation leaves: it was rejected without a call, or it has poisoned the session, or it
was a complete exchange, or it has closed the session. -/
inductive BoundaryOutcome (limit : ℕ) (command : Bytes) (direction : Option DataDirection)
    (state : SessionState) : Except ProtocolError ρ → Session τ → SessionLog → Prop
  | untouched {s' : Session τ} {error : ProtocolError} (state_eq : s'.state = state) :
      BoundaryOutcome limit command direction state (.error error) s' []
  | poisoned {s' : Session τ} {es : SessionLog} {error : ProtocolError}
      (ready : state = .ready) (state_eq : s'.state = .poisoned) :
      BoundaryOutcome limit command direction state (.error error) s' es
  | completed {s' : Session τ} {es : SessionLog} {r : Except ProtocolError ρ}
      (ready : state = .ready) (exchange : CompleteExchange limit command direction es)
      (state_eq : s'.state = .ready) : BoundaryOutcome limit command direction state r s' es

variable {r : Except ProtocolError (Option CommandResult)} {es : SessionLog} {limit : ℕ}
  {op : Operation}

theorem dataSettled_of_nothing (direction : Option DataDirection)
    (hann : announcedIn limit es = 0) (hpay : takenIn .dataWrite es = [])
    (hrecv : receivedIn es = 0) : DataSettled limit direction es := by
  match direction with
  | none => exact ⟨hann, hpay, hrecv⟩
  | some .outbound => exact ⟨by rw [hpay, hann, List.length_nil], hrecv⟩
  | some .inbound => exact ⟨by rw [hrecv, hann], hpay⟩

namespace FastbootSession

section Outcomes

variable {limit infoLimit : ℕ} {state awaiting : SessionState} {command : Bytes}
  {direction : Option DataDirection} {r : Except ProtocolError CommandResult} {s' : Session τ}
  {es es' : SessionLog}

/-- A command that is answered by a terminal response is a complete exchange without data. -/
theorem completeExchange_of_terminal (hnemp : command ≠ [])
    {s : Session τ} (hcmd : Wrote .commandWrite command awaiting (.ok ()) s es)
    {infos : List Response} {final : Response} (hans : Answers limit es' infos final) (hterm : final.isTerminal) :
    CompleteExchange limit command direction (es ++ es') := by
  have hx := (exchanged_command hcmd).append (exchanged_terminal hans hterm)
  refine ⟨hnemp, ?_, hx.terminals_eq, ?_⟩
  · simpa using hx.command_eq
  · exact dataSettled_of_nothing direction hx.announced_eq hx.payload_eq hx.received_eq

variable (hst : state = .ready)
include hst

theorem CommandOutcome.boundary {commandText : String} (hnemp : stringBytes commandText ≠ [])
    (h : CommandOutcome limit infoLimit commandText r s' es) :
    BoundaryOutcome limit (stringBytes commandText) none state r s' es := by
  rcases h with ⟨⟨⟩ | ⟨-, -, hs'⟩⟩ | ⟨hcmd, ⟨hans, hterm, -, hs'⟩ | ⟨-, -, hs'⟩⟩
  · exact .poisoned hst hs'
  · exact .completed hst (completeExchange_of_terminal hnemp hcmd hans hterm) hs'
  · exact .poisoned hst hs'

theorem InitialOutcome.boundary_error {Announces : ℕ → Prop} {error : ProtocolError}
    (hnemp : command ≠ []) {s : Session τ}
    (hcmd : Wrote .commandWrite command awaiting (.ok ()) s es)
    (h : InitialOutcome limit infoLimit Announces awaiting (.error error) s' es') :
    BoundaryOutcome limit command direction state (.error error : Except _ ρ) s' (es ++ es') := by
  rcases h with _ | _ | ⟨hans, hokay, -, hs'⟩ | ⟨-, -, -, hs'⟩
  · exact .completed hst (completeExchange_of_terminal hnemp hcmd hans
      (Response.isTerminal_of_okay hokay)) hs'
  · exact .poisoned hst hs'

theorem InitialOutcome.boundary_refused {Announces : ℕ → Prop} {result : CommandResult}
    (hnemp : command ≠ []) {s : Session τ}
    (hcmd : Wrote .commandWrite command awaiting (.ok ()) s es)
    (h : InitialOutcome limit infoLimit Announces awaiting (.ok (.refused result)) s' es') :
    BoundaryOutcome limit command direction state (.ok result) s' (es ++ es') := by
  rcases h with ⟨hans, hfail, -, hs'⟩
  exact .completed hst (completeExchange_of_terminal hnemp hcmd hans
    (Response.isTerminal_of_fail hfail)) hs'

theorem DownloadOutcome.boundary {payload : Bytes}
    (hnemp : stringBytes (downloadCommand payload.length) ≠ [])
    (h : DownloadOutcome limit infoLimit payload r s' es) :
    BoundaryOutcome limit (stringBytes (downloadCommand payload.length)) (some .outbound) state
      r s' es := by
  cases h with
  | commandFailed hcmd =>
      cases hcmd
      exact .poisoned hst ‹_›
  | initialFailed hcmd hinit =>
      exact hinit.boundary_error hst hnemp hcmd
  | refused hcmd hinit =>
      exact hinit.boundary_refused hst hnemp hcmd
  | payloadFailed _ _ hdata =>
      cases hdata
      exact .poisoned hst ‹_›
  | ended hcmd hinit hdata hterm =>
      obtain _ | ⟨hans, hsize, hn, -, -⟩ := hinit
      rcases hterm with ⟨hfin, hterm, -, hs'⟩ | ⟨-, -, hs'⟩
      · have hx := (exchanged_command hcmd).append ((exchanged_announced hans hsize).append
          ((exchanged_payload hdata).append (exchanged_terminal hfin hterm)))
        refine .completed hst ⟨hnemp, ?_, hx.terminals_eq, ?_, hx.received_eq⟩ hs'
        · simpa using hx.command_eq
        · rw [hx.payload_eq, hx.announced_eq, hn]
          simp
      · exact .poisoned hst hs'

theorem ReceiveOutcome.boundary {commandText : String} {maximumBytes : ℕ}
    (hnemp : stringBytes commandText ≠ [])
    (h : ReceiveOutcome limit infoLimit commandText maximumBytes r s' es) :
    BoundaryOutcome limit (stringBytes commandText) (some .inbound) state r s' es := by
  cases h with
  | commandFailed hcmd =>
      cases hcmd
      exact .poisoned hst ‹_›
  | initialFailed hcmd hinit =>
      exact hinit.boundary_error hst hnemp hcmd
  | refused hcmd hinit =>
      exact hinit.boundary_refused hst hnemp hcmd
  | dataFailed _ _ hs' => exact .poisoned hst hs'
  | ended hcmd hinit hinb hrecv hterm =>
      obtain _ | ⟨hans, hsize, -, -, -⟩ := hinit
      rcases hterm with ⟨hfin, hterm, -, hs'⟩ | ⟨-, -, hs'⟩
      · have hx := (exchanged_command hcmd).append ((exchanged_announced hans hsize).append
          ((exchanged_inbound hinb).append (exchanged_terminal hfin hterm)))
        refine .completed hst ⟨hnemp, ?_, hx.terminals_eq, ?_, hx.payload_eq⟩ hs'
        · simpa using hx.command_eq
        · rw [hx.received_eq, hx.announced_eq, hrecv]
          omega
      · exact .poisoned hst hs'

end Outcomes

/-- An operation leaves what its body leaves once `begin_locked` has let it start. -/
theorem beginLocked_bind_emits {setup : SessionSetup τ} {cancelled : Bool} {commandText : String}
    {direction : Option DataDirection} {body : Unit → SessionM τ ρ} (s : Session τ)
    (hbody : ∀ s' : Session τ, s'.state = .ready → stringBytes commandText ≠ [] →
      Calls setup (body ()) s'
        (BoundaryOutcome setup.options.maxResponseBytes (stringBytes commandText) direction
          .ready)) :
    Calls setup (beginLocked setup cancelled commandText >>= body) s
      (BoundaryOutcome setup.options.maxResponseBytes (stringBytes commandText) direction
        s.state) := by
  refine (beginLocked_emits cancelled commandText s).bind ?_ ?_
  · rintro _ s' es ⟨hrdy, hnemp, hs'⟩
    rw [hrdy]
    exact hbody s' hs' hnemp
  · rintro error s' es (_ | ⟨hs'⟩ | ⟨hrdy, hs'⟩)
    · exact .untouched hs'
    · exact .poisoned hrdy hs'

section Operations

variable (setup : SessionSetup τ)

theorem command_emits (cancelled : Bool) (commandText : String) (s : Session τ) :
    Calls setup (command setup cancelled commandText) s
      (BoundaryOutcome setup.options.maxResponseBytes (stringBytes commandText) none s.state) :=
  beginLocked_bind_emits s fun s' _ hnemp =>
    (commandBegun_emits commandText s').mono fun _ _ _ => CommandOutcome.boundary rfl hnemp

theorem downloadLocked_emits (cancelled : Bool) (payload : Bytes) (fromSource : Bool)
    (s : Session τ) :
    Calls setup (downloadLocked setup cancelled payload fromSource) s
      (BoundaryOutcome setup.options.maxResponseBytes
        (stringBytes (downloadCommand payload.length)) (some .outbound) s.state) := by
  refine beginLocked_bind_emits s fun s' hs' hnemp => ?_
  split_ifs with hsrc
  · cases hstr : setup.env.writeSource with
    | none => exact emits_throw (.untouched hs')
    | some stream =>
        refine (downloadBegun_emits payload ?_ s').mono fun _ _ _ =>
          DownloadOutcome.boundary rfl hnemp
        simpa using hstr
  · exact (downloadBegun_emits payload (by simp) s').mono fun _ _ _ =>
      DownloadOutcome.boundary rfl hnemp

theorem receiveToSink_emits (cancelled : Bool) (commandText : String) (sink : Bool)
    (maximumBytes : ℕ) (observer : Bool) (s : Session τ) :
    Calls setup
      (receiveToSink setup cancelled commandText sink maximumBytes observer) s
      (BoundaryOutcome setup.options.maxResponseBytes (stringBytes commandText) (some .inbound)
        s.state) := by
  unfold receiveToSink
  split_ifs
  · exact emits_throw (.untouched rfl)
  · exact beginLocked_bind_emits s fun s' _ hnemp =>
      (receiveBegun_emits commandText maximumBytes observer s').mono fun _ _ _ =>
        ReceiveOutcome.boundary rfl hnemp
  · exact emits_throw (.untouched rfl)

end Operations

end FastbootSession

/-! ### Sequences of operations -/

/-- The bytes of the command an operation sends. -/
def Operation.commandBytes : Operation → Bytes
  | .command _ commandText => stringBytes commandText
  | .download _ bytes => stringBytes (downloadCommand bytes.length)
  | .downloadSource _ source => (source.map fun bytes =>
      stringBytes (downloadCommand bytes.length)).getD []
  | .receiveToSink _ commandText _ _ _ => stringBytes commandText
  | .close => []

/-- The direction in which an operation transfers data. -/
def Operation.direction : Operation → Option DataDirection
  | .download _ _ | .downloadSource _ _ => some .outbound
  | .receiveToSink _ _ _ _ _ => some .inbound
  | _ => none

/-- What an operation of the public interface leaves. -/
inductive OperationOutcome (limit : ℕ) (op : Operation) (state : SessionState) :
    Except ProtocolError (Option CommandResult) → Session τ → SessionLog → Prop
  | exchange {r : Except ProtocolError (Option CommandResult)} {s' : Session τ}
      {es : SessionLog}
      (boundary : BoundaryOutcome limit op.commandBytes op.direction state r s' es) :
      OperationOutcome limit op state r s' es
  | closed {s' : Session τ} {es : SessionLog} (quiet : ∀ e ∈ es, ¬ e.isTransfer)
      (state_eq : s'.state = .closed) : OperationOutcome limit op state (.ok none) s' es

theorem emits_some {setup : SessionSetup τ} {x : SessionM τ CommandResult} {s : Session τ}
    (h : Calls setup x s
      (BoundaryOutcome setup.options.maxResponseBytes op.commandBytes op.direction s.state)) :
    Calls setup (do pure (some (← x))) s
      (OperationOutcome setup.options.maxResponseBytes op s.state) := by
  refine h.bind ?_ ?_
  · rintro result s' es (_ | _ | ⟨hrdy, hexch, hs'⟩)
    refine emits_pure (.exchange (.completed hrdy ?_ hs'))
    rwa [List.append_nil]
  · rintro error s' es (⟨hs'⟩ | ⟨hrdy, hs'⟩ | ⟨hrdy, hexch, hs'⟩)
    · exact .exchange (.untouched hs')
    · exact .exchange (.poisoned hrdy hs')
    · exact .exchange (.completed hrdy hexch hs')

theorem Operation.run_emits (setup : SessionSetup τ) (op : Operation) (s : Session τ) :
    Calls setup (op.run setup) s (OperationOutcome setup.options.maxResponseBytes op s.state) := by
  cases op with
  | command cancelled commandText => exact emits_some (command_emits setup _ _ s)
  | download cancelled bytes =>
      refine emits_some ?_
      unfold FastbootSession.download
      split_ifs
      · exact emits_throw (.untouched rfl)
      · exact downloadLocked_emits setup _ _ _ s
  | downloadSource cancelled source =>
      refine emits_some ?_
      unfold FastbootSession.downloadSource
      cases source with
      | none => exact emits_throw (.untouched rfl)
      | some bytes =>
          simp only
          split_ifs
          · exact emits_throw (.untouched rfl)
          · exact downloadLocked_emits setup _ _ _ s
  | receiveToSink cancelled commandText sink maximumBytes observer =>
      exact emits_some (receiveToSink_emits setup _ _ _ _ _ s)
  | close =>
      refine (close_emits s).bind ?_ fun _ _ _ h => by cases h.1
      rintro _ s' es ⟨-, hs', hquiet⟩
      refine emits_pure (.closed ?_ hs')
      rwa [List.append_nil]

/-- The states between operations. -/
def SessionState.Settled (state : SessionState) : Prop :=
  state = .ready ∨ state = .poisoned ∨ state = .closed

theorem OperationOutcome.settled {state : SessionState} {s' : Session τ}
    (h : OperationOutcome limit op state r s' es) (hst : state.Settled) : s'.state.Settled := by
  rcases h with (⟨hs'⟩ | ⟨-, hs'⟩ | ⟨-, -, hs'⟩) | ⟨-, hs'⟩
  · rwa [hs']
  · exact .inr (.inl hs')
  · exact .inl hs'
  · exact .inr (.inr hs')

/-- An operation that finds the session dead transfers nothing and leaves it dead. -/
theorem OperationOutcome.dead {state : SessionState} {s' : Session τ}
    (h : OperationOutcome limit op state r s' es) (hst : state ≠ .ready) :
    s'.state ≠ .ready ∧ ∀ e ∈ es, ¬ e.isTransfer := by
  rcases h with (⟨hs'⟩ | ⟨hrdy, -⟩ | ⟨hrdy, -, -⟩) | ⟨hquiet, hs'⟩
  · exact ⟨hs' ▸ hst, by simp⟩
  · exact absurd hrdy hst
  · exact absurd hrdy hst
  · exact ⟨by rw [hs']; decide, hquiet⟩

/-- An operation that leaves the session ready has made no call, or it was a complete exchange. -/
theorem OperationOutcome.ready {state : SessionState} {s' : Session τ}
    (h : OperationOutcome limit op state r s' es) (hrdy : s'.state = .ready) :
    es = [] ∨ CompleteExchange limit op.commandBytes op.direction es := by
  rcases h with (⟨-⟩ | ⟨-, hs'⟩ | ⟨-, hexch, -⟩) | ⟨-, hs'⟩
  · exact .inl rfl
  · cases hs'.symm.trans hrdy
  · exact .inr hexch
  · cases hs'.symm.trans hrdy

/-- The session before an operation, after the operations of a list. -/
def sessionAfter (setup : SessionSetup τ) (ops : List Operation) (s : Session τ) : Session τ :=
  after (ops.map (Operation.run setup)) s

theorem sessionAfter_settled (setup : SessionSetup τ) (ops : List Operation) {s : Session τ}
    (hs : s.state.Settled) : (sessionAfter setup ops s).state.Settled := by
  refine after_invariant (fun s : Session τ => s.state.Settled) ?_ hs
  intro x hx s hs
  obtain ⟨op, -, rfl⟩ := List.mem_map.mp hx
  obtain ⟨es, -, h⟩ := op.run_emits setup s
  exact h.settled hs

theorem sessionAfter_dead (setup : SessionSetup τ) (ops : List Operation) {s : Session τ}
    (hs : s.state ≠ .ready) :
    ∃ es, (sessionAfter setup ops s).log = s.log ++ es ∧ ∀ e ∈ es, ¬ e.isTransfer := by
  have hall : ∀ x ∈ ops.map (Operation.run setup), ∀ s : Session τ, s.state ≠ .ready →
      Calls setup x s fun _ s' es => s'.state ≠ .ready ∧ ∀ e ∈ es, ¬ e.isTransfer := by
    intro x hx s hs
    obtain ⟨op, -, rfl⟩ := List.mem_map.mp hx
    exact (op.run_emits setup s).mono fun r s' es h => h.dead hs
  obtain ⟨es, htrc, hquiet⟩ := after_emits (fun s : Session τ => s.state ≠ .ready)
    (fun e : SessionEvent => ¬ e.isTransfer) hall hs
  exact ⟨es, htrc.1, hquiet⟩

/-- In every sequence of operations, with every behaviour of the transport, the sink, the observer
and the allocator: an operation leaves the session ready, poisoned or closed; after a session is
poisoned or closed nothing is transferred; an operation that leaves the session ready has made no
call or has written its complete command, read exactly one terminal response and left no announced
byte outstanding; and an operation that returns a result leaves the session ready. -/
theorem session_at_message_boundary (setup : SessionSetup τ) (world : τ)
    (earlier : List Operation) (op : Operation) (later : List Operation) :
    let s := sessionAfter setup earlier { world := world }
    let outcome := (exec (op.run setup) s).1
    let s' := (exec (op.run setup) s).2
    (s'.state = .ready ∨ s'.state = .poisoned ∨ s'.state = .closed) ∧
      (s'.state ≠ .ready → ∃ es, (sessionAfter setup later s').log = s'.log ++ es ∧
        ∀ e ∈ es, ¬ e.isTransfer) ∧
      (∃ es, s'.log = s.log ++ es ∧ (s'.state = .ready →
        es = [] ∨ CompleteExchange setup.options.maxResponseBytes op.commandBytes op.direction es)) ∧
      (∀ result, outcome = .ok (some result) → s'.state = .ready) := by
  intro s outcome s'
  obtain ⟨es, htraced, h⟩ := op.run_emits setup s
  have hs : s.state.Settled := sessionAfter_settled setup earlier (.inl rfl)
  refine ⟨h.settled hs, sessionAfter_dead setup later, ⟨es, htraced.1, h.ready⟩, ?_⟩
  intro result hresult
  have h : OperationOutcome setup.options.maxResponseBytes op s.state outcome s' es := h
  rw [hresult] at h
  rcases h with (_ | _ | ⟨-, -, hready⟩) | _
  exact hready

end KairosBoot
