import KairosBoot.TcpFastboot

/-! # The byte stream under a TCP transport

What the calls of `TcpFastbootTransport` do with the socket.

* A call that succeeds has only made socket operations that succeeded.  A call that fails has
  closed the transport, or it has done nothing.
* `DeliversStream` is what a socket may do with an inbound stream, and `Filled` what the receive
  loop makes of it. -/

namespace KairosBoot

open ByteLib Outcomes List

/-- A socket operation that went well and made progress. -/
def TcpEvent.Succeeds : TcpEvent → Prop
  | .sent offered result =>
      result.status = .ok ∧ 0 < result.transferred ∧ result.transferred ≤ offered.length
  | .received requested result _ =>
      result.status = .ok ∧ 0 < result.transferred ∧ result.transferred ≤ requested
  | .closed => True

/-- The bytes that an operation has put on the wire. -/
def TcpEvent.wire : TcpEvent → Bytes
  | .sent offered result => offered.take result.transferred
  | .received _ _ _ => []
  | .closed => []

/-- The bytes that a log has put on the wire. -/
def sentBytes (log : List TcpEvent) : Bytes := log.flatMap TcpEvent.wire

@[simp] theorem sentBytes_nil : sentBytes [] = [] := rfl

@[simp] theorem sentBytes_append (es es' : List TcpEvent) :
    sentBytes (es ++ es') = sentBytes es ++ sentBytes es' := flatMap_append

namespace TcpFastbootTransport

variable {τ α : Type}

/-- The events are those by which the log has grown. -/
def LogGrows (s : TcpState τ) (es : List TcpEvent) (s' : TcpState τ) : Prop := s'.log = s.log ++ es

instance logGrows : Tracing (@LogGrows τ) where
  refl s := by simp [LogGrows]
  trans h h' := by rw [LogGrows, h', h, List.append_assoc]

/-- What a socket may do with an inbound stream: `pending` is what it has still to deliver, a
receive that succeeds delivers the next bytes of it, and `ending`, if any, is how a receive fails
at its end. -/
structure DeliversStream (env : TcpEnvironment τ) (pending : τ → Bytes)
    (ending : Option SocketIoResult) : Prop where
  now : ∀ w, pending (env.now w).2 = pending w
  send : ∀ bytes timeout w, pending (env.sendSome bytes timeout w).2 = pending w
  close : ∀ w, pending (env.close w) = pending w
  receive : ∀ size timeout w result data w',
    env.receiveSome size timeout w = ((result, data), w') →
    result.status = .ok → 0 < result.transferred → result.transferred ≤ size →
    result.transferred ≤ (pending w).length ∧
    data.take result.transferred = (pending w).take result.transferred ∧
    pending w' = (pending w).drop result.transferred
  finish : ∀ size timeout w result data w',
    env.receiveSome size timeout w = ((result, data), w') → some result = ending →
    pending w = [] ∧ pending w' = []
  ending_failure : ∀ result, some result = ending → result.status ≠ .ok ∧ result.transferred = 0

/-- An operation that went well, or the end of the stream. -/
def Delivered (ending : Option SocketIoResult) : TcpEvent → Prop
  | .received requested result data =>
      (TcpEvent.received requested result data).Succeeds ∨ some result = ending
  | event => event.Succeeds

variable {Q : Except TransferResult α → TcpState τ → List TcpEvent → Prop} {s : TcpState τ}
  {completed : ℕ} {ending : Option SocketIoResult} {result : SocketIoResult}

theorem Delivered.of_succeeds {event : TcpEvent} (h : event.Succeeds) : Delivered ending event := by
  cases event with
  | sent offered result => exact h
  | received requested result data => exact .inl h
  | closed => exact h

/-! ### The socket operations -/

/-- The parts of the state that the loops do not touch. -/
structure Kept (s s' : TcpState τ) : Prop where
  isOpen : s'.isOpen = s.isOpen
  left : s'.inboundDataFrameBytesLeft = s.inboundDataFrameBytesLeft

theorem Kept.refl (s : TcpState τ) : Kept s s := ⟨rfl, rfl⟩

theorem Kept.trans {s' s'' : TcpState τ} (h : Kept s s') (h' : Kept s' s'') : Kept s s'' :=
  ⟨h'.isOpen.trans h.isOpen, h'.left.trans h.left⟩

theorem exactFault_eq_none_iff {requested : ℕ} {excess stalled : String} :
    exactFault completed requested result excess stalled = none ↔
      result.status = .ok ∧ 0 < result.transferred ∧ result.transferred ≤ requested := by
  unfold exactFault
  split_ifs with h1 h2 h3
  · simp; omega
  · simp [h2]
  · simp; omega
  · simp only [not_not] at h2
    simp only [h2, true_and, true_iff]
    omega

theorem status_of_exactFault {requested : ℕ} {excess stalled : String} {failure : ExactIoResult}
    (h : exactFault completed requested result excess stalled = some failure) :
    failure.status ≠ .ok := by
  unfold exactFault at h
  split_ifs at h with h1 h2 h3 <;> cases h
  · simp
  · exact h2
  · simp

/-- How a transfer ends at the end of the stream. -/
def endedResult (ending : Option SocketIoResult) (completed : ℕ) : ExactIoResult where
  status := (ending.getD { status := .error }).status
  transferred := completed
  anyWireBytes := completed ≠ 0
  nativeError := (ending.getD {}).nativeError
  detail := (ending.getD {}).detail

theorem exactFault_ending {requested : ℕ} {excess stalled : String} (hsome : some result = ending)
    (hstat : result.status ≠ .ok) (htran : result.transferred = 0) :
    exactFault completed requested result excess stalled = some (endedResult ending completed) := by
  subst hsome
  simp [exactFault, hstat, htran, endedResult]

/-- The stream is where it was. -/
def StreamKept (env : TcpEnvironment τ) (s s' : TcpState τ) : Prop :=
  ∀ pending ending, DeliversStream env pending ending → pending s'.world = pending s.world

theorem StreamKept.refl (env : TcpEnvironment τ) (s : TcpState τ) :
    StreamKept env s s := fun _ _ _ => rfl

theorem StreamKept.trans {env : TcpEnvironment τ} {s' s'' : TcpState τ} (h : StreamKept env s s')
    (h' : StreamKept env s' s'') : StreamKept env s s'' :=
  fun pending ending hd => (h' pending ending hd).trans (h pending ending hd)

variable (env : TcpEnvironment τ)

variable {env} in
theorem emits_now_bind {f : ℤ → TcpM τ α}
    (h : ∀ time s', Kept s s' → StreamKept env s s' → Emits LogGrows (f time) s' Q) :
    Emits LogGrows (now env >>= f) s Q :=
  emits_step_bind (append_nil _).symm (h _ _ ⟨rfl, rfl⟩ fun _ _ hd => hd.now s.world)

variable {env} in
theorem emits_sendSome_bind {bytes : Bytes} {timeout : ℤ} {f : SocketIoResult → TcpM τ α}
    (h : ∀ result s', Kept s s' → StreamKept env s s' →
      Emits LogGrows (f result) s' fun r s'' es => Q r s'' (.sent bytes result :: es)) :
    Emits LogGrows (sendSome env bytes timeout >>= f) s Q :=
  emits_step_bind rfl (h _ _ ⟨rfl, rfl⟩ fun _ _ hd => hd.send bytes timeout s.world)

/-- Every round of `send_exact` sends the next bytes. -/
theorem sendLoop_emits (bytes : Bytes) (deadline : ℤ) (fuel completed : ℕ) (s : TcpState τ)
    (hfuel : bytes.length - completed ≤ fuel) :
    Emits LogGrows (sendLoop env bytes deadline fuel completed) s fun r s' es =>
      ∃ result, r = .ok result ∧ Kept s s' ∧ StreamKept env s s' ∧
        (result.status = .ok → (∀ e ∈ es, e.Succeeds) ∧ sentBytes es = bytes.drop completed) := by
  induction fuel generalizing completed s with
  | zero =>
      refine emits_pure ⟨_, rfl, .refl s, .refl _ s, fun _ => ⟨by simp, ?_⟩⟩
      rw [drop_eq_nil_of_le (by omega), sentBytes_nil]
  | succ fuel ih =>
      rw [sendLoop]
      split_ifs with hmore
      · refine emits_now_bind fun time s1 hkept1 hstr1 => ?_
        refine emits_sendSome_bind fun result s2 hkept2 hstr2 => ?_
        have hkept := hkept1.trans hkept2
        have hstr := hstr1.trans hstr2
        cases hflt : exactFault completed (bytes.length - completed) result
            "socket reported sending more bytes than requested"
            "socket made no progress while sending a TCP frame" with
        | some failure =>
            refine emits_pure ⟨_, rfl, hkept, hstr, fun hok => ?_⟩
            exact absurd hok (status_of_exactFault hflt)
        | none =>
            obtain ⟨hok, hpos, hle⟩ := exactFault_eq_none_iff.mp hflt
            refine (ih (completed + result.transferred) s2 (by omega)).mono ?_
            rintro r s3 es3 ⟨final, rfl, hkept3, hstr3, hsent⟩
            refine ⟨final, rfl, hkept.trans hkept3, hstr.trans hstr3, fun hfin => ?_⟩
            obtain ⟨hall, hbytes⟩ := hsent hfin
            refine ⟨forall_mem_cons.mpr ⟨⟨hok, hpos, ?_⟩, hall⟩, ?_⟩
            · rw [length_drop]
              exact hle
            · change (bytes.drop completed).take result.transferred ++ sentBytes es3 = _
              rw [hbytes, ← drop_drop, take_append_drop]
      · refine emits_pure ⟨_, rfl, .refl s, .refl _ s, fun _ => ⟨by simp, ?_⟩⟩
        rw [drop_eq_nil_of_le (by omega), sentBytes_nil]

/-- How a stream fills what is wanted after the bytes in front. -/
def Filled (ending : Option SocketIoResult) (stream front : Bytes) (wanted : ℕ)
    (result : ExactIoResult) (stored rest : Bytes) : Prop :=
  if wanted ≤ stream.length then
    result = exactDone (front.length + wanted) ∧ stored = front ++ stream.take wanted ∧
      rest = stream.drop wanted
  else result = endedResult ending (front.length + stream.length) ∧ rest = []

theorem Filled.step {stream front stored rest : Bytes} {wanted count : ℕ}
    {result : ExactIoResult} (hwanted : count ≤ wanted) (hcnt : count ≤ stream.length)
    (h : Filled ending (stream.drop count) (front ++ stream.take count) (wanted - count) result
      stored rest) : Filled ending stream front wanted result stored rest := by
  have hfront : (front ++ stream.take count).length = front.length + count := by
    rw [length_append, length_take, Nat.min_eq_left hcnt]
  have hstr : wanted = count + (wanted - count) := by omega
  unfold Filled at h ⊢
  rw [length_drop, hfront] at h
  split_ifs at h ⊢ with h1 h2 h2
  · obtain ⟨hres, hstor, hrest⟩ := h
    refine ⟨by rw [hres, add_assoc, ← hstr], ?_, ?_⟩
    · rw [hstor, append_assoc, ← take_add, ← hstr]
    · rw [hrest, drop_drop, ← hstr]
  · omega
  · omega
  · refine ⟨?_, h.2⟩
    rw [h.1, add_assoc, Nat.add_sub_cancel' hcnt]

theorem filled_full (ending : Option SocketIoResult) (stream buffer : Bytes)
    (h : completed = buffer.length) : Filled ending stream (buffer.take completed)
      (buffer.length - completed) (exactDone completed) buffer stream := by
  subst h
  simp [Filled]

variable {env} in
theorem emits_receiveSome_bind {size : ℕ} {timeout : ℤ}
    {f : SocketIoResult × Bytes → TcpM τ α}
    (h : ∀ result data s', Kept s s' →
      env.receiveSome size timeout s.world = ((result, data), s'.world) →
      Emits LogGrows (f (result, data)) s' fun r s'' es =>
        Q r s'' (.received size result data :: es)) :
    Emits LogGrows (receiveSome env size timeout >>= f) s Q :=
  emits_step_bind rfl (h _ _ _ ⟨rfl, rfl⟩ rfl)

/-- Every round of `receive_exact` stores the next bytes of the stream. -/
theorem receiveLoop_emits (deadline : ℤ) (fuel : ℕ) (buffer : Bytes) (completed : ℕ)
    (s : TcpState τ) (hfuel : buffer.length - completed ≤ fuel) (hle : completed ≤ buffer.length) :
    Emits LogGrows (receiveLoop env deadline fuel buffer completed) s fun r s' es =>
      ∃ result stored, r = .ok (result, stored) ∧ Kept s s' ∧ sentBytes es = [] ∧
        (result.status = .ok → ∀ e ∈ es, e.Succeeds) ∧
        ∀ pending ending, DeliversStream env pending ending →
          (∀ e ∈ es, Delivered ending e) →
          Filled ending (pending s.world) (buffer.take completed) (buffer.length - completed)
            result stored (pending s'.world) := by
  induction fuel generalizing buffer completed s with
  | zero =>
      exact emits_pure ⟨_, _, rfl, .refl s, rfl, by simp,
        fun pending ending _ _ => filled_full ending _ buffer (by omega)⟩
  | succ fuel ih =>
      rw [receiveLoop]
      split_ifs with hmore
      · refine emits_now_bind fun time s1 hkept1 hstr1 => ?_
        refine emits_receiveSome_bind fun result data s2 hkept2 hrcv => ?_
        dsimp only
        have hkept := hkept1.trans hkept2
        cases hflt : exactFault completed (buffer.length - completed) result
            "socket reported receiving more bytes than requested"
            "socket made no progress while receiving a TCP frame" with
        | some failure =>
            refine emits_pure ⟨_, _, rfl, hkept, rfl, fun hok => ?_, ?_⟩
            · exact absurd hok (status_of_exactFault hflt)
            · intro pending ending hd hall
              -- A receive that does not succeed is the end of the stream.
              have hend : some result = ending := by
                rcases hall _ (mem_singleton.mpr rfl) with hsucceeds | hend
                · rw [exactFault_eq_none_iff.mpr hsucceeds] at hflt
                  cases hflt
                · exact hend
              obtain ⟨hstat, htran⟩ := hd.ending_failure result hend
              rw [exactFault_ending hend hstat htran] at hflt
              cases hflt
              obtain ⟨hemp, hrest⟩ := hd.finish _ _ _ _ _ _ hrcv hend
              rw [hstr1 pending ending hd] at hemp
              rw [hemp, hrest, Filled, if_neg (by rw [length_nil]; omega)]
              rw [length_take, Nat.min_eq_left hle, length_nil, add_zero]
              exact ⟨rfl, rfl⟩
        | none =>
            obtain ⟨hok, hpos, hle'⟩ := exactFault_eq_none_iff.mp hflt
            have hdata : (data.take (buffer.length - completed)).length
                ≤ buffer.length - completed := by
              rw [length_take]
              exact Nat.min_le_left _ _
            have hlen : (overwrite buffer completed
                (data.take (buffer.length - completed))).length = buffer.length :=
              length_overwrite (by omega)
            refine (ih _ (completed + result.transferred) s2 (by omega) (by omega)).mono ?_
            rintro r s3 es3 ⟨final, stored, rfl, hkept3, hsent, hsucc, hfilled⟩
            refine ⟨final, stored, rfl, hkept.trans hkept3, hsent, fun hfin => ?_, ?_⟩
            · exact forall_mem_cons.mpr ⟨⟨hok, hpos, hle'⟩, hsucc hfin⟩
            · intro pending ending hd hall
              have hstep := hfilled pending ending hd (forall_mem_cons.mp hall).2
              obtain ⟨hcnt, hbytes, hrest⟩ := hd.receive _ _ _ _ _ _ hrcv hok hpos hle'
              rw [hstr1 pending ending hd] at hcnt hbytes hrest
              have htake : (overwrite buffer completed
                    (data.take (buffer.length - completed))).take (completed + result.transferred)
                  = buffer.take completed ++ (pending s.world).take result.transferred := by
                have hrecv := congrArg length hbytes
                rw [length_take, length_take] at hrecv
                rw [take_overwrite hle (by rw [length_take]; omega), take_take,
                  Nat.min_eq_left hle', hbytes]
              rw [hlen, htake, hrest, ← Nat.sub_sub] at hstep
              exact hstep.step hle' hcnt
      · exact emits_pure ⟨_, _, rfl, .refl s, rfl, by simp,
          fun pending ending _ _ => filled_full ending _ buffer (by omega)⟩

/-! ### Calls and the transport -/

/-- A part of a call that has ended: if it has succeeded, then so did its socket operations, and
the transport is as open as before; if it has failed, the transport is closed. -/
def Settled (s : TcpState τ) (r : Except TransferResult α) (s' : TcpState τ)
    (es : List TcpEvent) : Prop :=
  (∀ value, r = .ok value → s'.isOpen = s.isOpen ∧ ∀ e ∈ es, e.Succeeds) ∧
    ∀ failure, r = .error failure → s'.isOpen = false

theorem settled_ok {s' : TcpState τ} {value : α} {es : List TcpEvent}
    (hopen : s'.isOpen = s.isOpen) (hall : ∀ e ∈ es, e.Succeeds) : Settled s (.ok value) s' es :=
  ⟨fun _ _ => ⟨hopen, hall⟩, fun _ h => by cases h⟩

/-- A part of a reading call that has ended: it puts nothing on the wire. -/
def ReadSettled (s : TcpState τ) (r : Except TransferResult α) (s' : TcpState τ)
    (es : List TcpEvent) : Prop :=
  Settled s r s' es ∧ sentBytes es = []

theorem ReadSettled.bind {β : Type} {x : TcpM τ α} {f : α → TcpM τ β}
    (hx : Emits LogGrows x s (ReadSettled s))
    (hf : ∀ value s', Emits LogGrows (f value) s' (ReadSettled s')) :
    Emits LogGrows (x >>= f) s (ReadSettled s) := by
  refine Emits.bind hx ?_ ?_
  · rintro value s' es ⟨hval, hsent⟩
    obtain ⟨hopen, hall⟩ := hval.1 value rfl
    refine (hf value s').mono ?_
    rintro r s'' es' ⟨hr, hsent'⟩
    refine ⟨⟨fun final hfin => ?_, hr.2⟩, by rw [sentBytes_append, hsent, hsent', nil_append]⟩
    obtain ⟨hopen', hall'⟩ := hr.1 final hfin
    exact ⟨hopen'.trans hopen, forall_mem_append.mpr ⟨hall, hall'⟩⟩
  · rintro failure s' es ⟨hfail, hsent⟩
    exact ⟨⟨fun _ h => (by cases h), fun _ _ => hfail.2 failure rfl⟩, hsent⟩

theorem readSettled_pure {value : α} : Emits LogGrows (pure value : TcpM τ α) s (ReadSettled s) :=
  emits_pure ⟨settled_ok rfl (by simp), rfl⟩

theorem isOpen_closed (s : TcpState τ) : (closed env s).isOpen = false := by
  unfold closed
  cases h : s.isOpen with
  | true => rfl
  | false => exact h

theorem closeAndFail_emits (failure : TransferResult) (s : TcpState τ)
    (h : ∀ es, sentBytes es = [] → Q (.error failure) (closed env s) es) :
    Emits LogGrows (closeAndFail env failure : TcpM τ α) s Q := by
  cases hopen : s.isOpen with
  | true =>
      refine ⟨[.closed], ?_, h _ rfl⟩
      change (closed env s).log = _
      rw [closed, if_pos hopen]
  | false =>
      refine ⟨[], ?_, h _ rfl⟩
      change (closed env s).log = _
      rw [closed, if_neg (by rw [hopen]; exact Bool.false_ne_true), append_nil]

theorem settled_closed (s₀ s : TcpState τ) (failure : TransferResult) (es : List TcpEvent) :
    Settled s₀ (.error failure : Except TransferResult α) (closed env s) es :=
  ⟨fun _ h => (by cases h), fun _ _ => isOpen_closed env s⟩

theorem closeAndFail_settled (failure : TransferResult) (s : TcpState τ) :
    Emits LogGrows (closeAndFail env failure : TcpM τ α) s (ReadSettled s) :=
  closeAndFail_emits env failure s fun es hes => ⟨settled_closed env s s failure es, hes⟩

/-- Sending puts all bytes on the wire, or it closes the transport. -/
theorem sendOrClose_emits (bytes : Bytes) (deadline : ℤ)
    (failure : ExactIoResult → TransferResult) (s : TcpState τ) :
    Emits LogGrows (sendOrClose env bytes deadline failure) s fun r s' es =>
      Settled s r s' es ∧
        (r = .ok () → Kept s s' ∧ StreamKept env s s' ∧ sentBytes es = bytes) := by
  refine Emits.bind (sendLoop_emits env bytes deadline bytes.length 0 s (by omega)) ?_ ?_
  · rintro sent s1 es ⟨result, hres, hkept, hstr, hsent⟩
    cases hres
    split_ifs with hstat
    · exact closeAndFail_emits env _ s1 fun es' _ =>
        ⟨settled_closed env s s1 _ _, fun h => (by cases h)⟩
    · obtain ⟨hall, hbytes⟩ := hsent (not_not.mp hstat)
      refine emits_pure ⟨settled_ok hkept.isOpen ?_, fun _ => ⟨hkept, hstr, ?_⟩⟩
      · rwa [append_nil]
      · rw [append_nil, hbytes, drop_zero]
  · rintro failure' s1 es ⟨result, hres, -⟩
    cases hres

theorem receiveOrClose_settled (destination : Bytes) (deadline : ℤ)
    (failure : ExactIoResult → TransferResult) (s : TcpState τ) :
    Emits LogGrows (receiveOrClose env destination deadline failure) s (ReadSettled s) := by
  refine Emits.bind (receiveLoop_emits env deadline destination.length destination
    0 s (by omega) (by omega)) ?_ ?_
  · rintro received s1 es ⟨result, stored, hres, hkept, hsent, hsucc, -⟩
    cases hres
    split_ifs with hstat
    · exact closeAndFail_emits env _ s1 fun es' hes' =>
        ⟨settled_closed env s s1 _ _, by rw [sentBytes_append, hsent, hes', nil_append]⟩
    · refine emits_pure ?_
      rw [append_nil]
      exact ⟨settled_ok hkept.isOpen (hsucc (not_not.mp hstat)), hsent⟩
  · rintro failure' s1 es ⟨result, stored, hres, -⟩
    cases hres

theorem setLeft_settled (left : ℕ) (s : TcpState τ) :
    Emits LogGrows (setLeft left : TcpM τ Unit) s (ReadSettled s) :=
  ⟨[], (append_nil _).symm, settled_ok rfl (by simp), rfl⟩

theorem deadlineAfter_emits (timeout : ℤ) (s : TcpState τ) :
    Emits LogGrows (deadlineAfter env timeout) s fun r s' es =>
      ∃ deadline, r = .ok deadline ∧ Kept s s' ∧ StreamKept env s s' ∧ es = [] := by
  refine emits_now_bind fun time s1 hkept hstr => ?_
  exact emits_pure ⟨_, rfl, hkept, hstr, rfl⟩

theorem deadlineAfter_settled (timeout : ℤ) (s : TcpState τ) :
    Emits LogGrows (deadlineAfter env timeout) s (ReadSettled s) := by
  refine (deadlineAfter_emits env timeout s).mono ?_
  rintro r s' es ⟨deadline, rfl, hkept, -, rfl⟩
  exact ⟨settled_ok hkept.isOpen (by simp), rfl⟩

variable (options : TcpTransportOptions)

theorem startDataFrame_settled (deadline : ℤ) (s : TcpState τ) :
    Emits LogGrows (startDataFrame env options deadline) s (ReadSettled s) := by
  refine ReadSettled.bind (receiveOrClose_settled env _ _ _ s) fun header s1 => ?_
  refine ReadSettled.bind (setLeft_settled _ s1) fun _ s2 => ?_
  split_ifs with hlim
  · exact closeAndFail_settled env _ s2
  · exact readSettled_pure

theorem continueDataFrame_settled (destination : Bytes) (deadline : ℤ)
    (consumedFrameHeader : Bool) (s : TcpState τ) :
    Emits LogGrows (continueDataFrame env destination deadline consumedFrameHeader) s
      (ReadSettled s) := by
  refine emits_get_bind (ReadSettled.bind (receiveOrClose_settled env _ _ _ s) ?_)
  intro payload s1
  exact ReadSettled.bind (setLeft_settled _ s1) fun _ s2 => readSettled_pure

/-- A call that is refused before it does anything. -/
def Rejected (options : TcpTransportOptions) : TcpCall → Prop
  | .read _ _ => False
  | .readData destination _ => destination = []
  | .write bytes _ => options.maxFrameBytes.toNat < bytes.length

theorem exec_requireOpen (s : TcpState τ) :
    exec requireOpen s = if s.isOpen then (.ok (), s) else (.error closedFailure, s) := by
  change exec (if s.isOpen then pure () else throw closedFailure) s = _
  split_ifs <;> rfl

theorem exec_requireOpen_bind (f : Unit → TcpM τ α) (s : TcpState τ) :
    exec (requireOpen >>= f) s = if s.isOpen then exec (f ()) s else (.error closedFailure, s) := by
  rw [exec_bind, exec_requireOpen]
  split_ifs <;> rfl

theorem emits_requireOpen_bind {f : Unit → TcpM τ α} (hopen : s.isOpen = true)
    (h : Emits LogGrows (f ()) s Q) : Emits LogGrows (requireOpen >>= f) s Q := by
  unfold Emits Ends at h ⊢
  rwa [exec_requireOpen_bind, if_pos hopen]

theorem read_settled (destination : Bytes) (timeout : ℤ) (hopen : s.isOpen = true) :
    Emits LogGrows (read env options destination timeout) s (ReadSettled s) := by
  refine emits_requireOpen_bind hopen (emits_get_bind ?_)
  split_ifs with hleft
  · exact closeAndFail_settled env _ s
  · refine ReadSettled.bind (deadlineAfter_settled env timeout s) fun deadline s1 => ?_
    refine ReadSettled.bind (receiveOrClose_settled env _ _ _ s1) fun header s2 => ?_
    dsimp only
    split_ifs with hlim
    · exact closeAndFail_settled env _ s2
    · exact receiveOrClose_settled env _ _ _ s2

theorem readData_settled {destination : Bytes} (timeout : ℤ) (hopen : s.isOpen = true)
    (hdestination : destination ≠ []) :
    Emits LogGrows (readData env options destination timeout) s (ReadSettled s) := by
  refine emits_requireOpen_bind hopen ?_
  rw [if_neg (by rwa [length_eq_zero_iff])]
  refine ReadSettled.bind (deadlineAfter_settled env timeout s) fun deadline s1 => ?_
  refine emits_get_bind ?_
  split_ifs with hleft
  · refine ReadSettled.bind (startDataFrame_settled env options deadline s1) ?_
    intro nonempty s2
    split_ifs with hnemp
    · exact continueDataFrame_settled env destination deadline true s2
    · exact readSettled_pure
  · exact continueDataFrame_settled env destination deadline false s1

def frame (payload : Bytes) : Bytes := encodeTcpFrameLength payload.length ++ payload

/-- A write puts the frame of its buffer on the wire, or it closes the transport. -/
theorem write_emits {bytes : Bytes} (timeout : ℤ) (hopen : s.isOpen = true)
    (hlim : bytes.length ≤ options.maxFrameBytes.toNat) :
    Emits LogGrows (write env options bytes timeout) s fun r s' es =>
      Settled s r s' es ∧
        (r = .ok () → Kept s s' ∧ StreamKept env s s' ∧ sentBytes es = frame bytes) := by
  refine emits_requireOpen_bind hopen ?_
  rw [if_neg (by omega)]
  refine Emits.bind (deadlineAfter_emits env timeout s) ?_ ?_
  · rintro deadline s1 es1 ⟨deadline', -, hkept1, hstr1, rfl⟩
    refine Emits.bind (sendOrClose_emits env _ _ _ s1) ?_ ?_
    · rintro ⟨⟩ s2 es2 ⟨hset2, hsent2⟩
      obtain ⟨hkept2, hstr2, hhdr⟩ := hsent2 rfl
      obtain ⟨hopen2, hall2⟩ := hset2.1 () rfl
      refine (sendOrClose_emits env _ _ _ s2).mono ?_
      rintro r s3 es3 ⟨hset3, hsent3⟩
      refine ⟨⟨fun value hval => ?_, hset3.2⟩, fun hr => ?_⟩
      · obtain ⟨hopen3, hall3⟩ := hset3.1 value hval
        refine ⟨hopen3.trans (hopen2.trans hkept1.isOpen), ?_⟩
        rw [nil_append]
        exact forall_mem_append.mpr ⟨hall2, hall3⟩
      · obtain ⟨hkept3, hstr3, hpay⟩ := hsent3 hr
        refine ⟨(hkept1.trans hkept2).trans hkept3, (hstr1.trans hstr2).trans hstr3, ?_⟩
        rw [nil_append, sentBytes_append, hhdr, hpay, frame]
    · rintro failure s2 es2 ⟨hset2, -⟩
      refine ⟨⟨fun _ h => (by cases h), fun _ _ => hset2.2 failure rfl⟩, fun h => ?_⟩
      cases h
  · rintro failure s1 es1 ⟨deadline', h, -⟩
    cases h

/-- What a successful call puts on the wire. -/
def TcpCall.wire : TcpCall → Bytes
  | .read _ _ => []
  | .readData _ _ => []
  | .write bytes _ => frame bytes

/-- A reading call. -/
def TcpCall.Reads : TcpCall → Prop
  | .read _ _ => True
  | .readData _ _ => True
  | .write _ _ => False

theorem run_emits {call : TcpCall} (hopen : s.isOpen = true) (hrej : ¬ Rejected options call) :
    Emits LogGrows (call.run env options) s fun r s' es =>
      Settled s r s' es ∧ ((call.Reads ∨ ∃ value, r = .ok value) → sentBytes es = call.wire) ∧
        (¬ call.Reads → ∀ value, r = .ok value → Kept s s' ∧ StreamKept env s s') := by
  cases call with
  | read destination timeout =>
      refine (read_settled env options destination timeout hopen).mono ?_
      exact fun r s' es h => ⟨h.1, fun _ => h.2, fun hrds => absurd trivial hrds⟩
  | readData destination timeout =>
      refine (readData_settled env options timeout hopen hrej).mono ?_
      exact fun r s' es h => ⟨h.1, fun _ => h.2, fun hrds => absurd trivial hrds⟩
  | write bytes timeout =>
      refine Emits.bind
        (write_emits env options timeout hopen (Nat.le_of_not_lt hrej)) ?_ ?_
      · rintro ⟨⟩ s' es ⟨hset, hsent⟩
        obtain ⟨hopen', hall⟩ := hset.1 () rfl
        obtain ⟨hkept, hstr, hwire⟩ := hsent rfl
        refine emits_pure ?_
        rw [append_nil]
        exact ⟨settled_ok hopen' hall, fun _ => hwire, fun _ _ _ => ⟨hkept, hstr⟩⟩
      · rintro failure s' es ⟨hset, -⟩
        refine ⟨⟨fun _ h => (by cases h), fun _ _ => hset.2 failure rfl⟩, ?_, ?_⟩
        · rintro (hrds | ⟨value, hval⟩)
          · exact absurd hrds id
          · cases hval
        · intro _ value hval
          cases hval

theorem exec_run_rejected {call : TcpCall} (hopen : s.isOpen = true)
    (hrej : Rejected options call) :
    ∃ detail, exec (call.run env options) s = (.error (refusedFailure detail), s) := by
  cases call with
  | read destination timeout => exact absurd hrej id
  | readData destination timeout =>
      refine ⟨"Fastboot TCP DATA destination is empty", (exec_requireOpen_bind _ s).trans ?_⟩
      rw [if_pos hopen, if_pos (by rw [hrej]; rfl)]
      rfl
  | write bytes timeout =>
      refine ⟨"outbound Fastboot TCP frame exceeds the configured limit", ?_⟩
      have hlim : options.maxFrameBytes.toNat < bytes.length := hrej
      change exec (write env options bytes timeout >>= fun _ => pure []) s = _
      rw [exec_bind, write, exec_requireOpen_bind, if_pos hopen, if_pos hlim]
      rfl

theorem exec_run_closed (call : TcpCall) (hclos : s.isOpen = false) :
    exec (call.run env options) s = (.error closedFailure, s) := by
  have hneg : ¬ s.isOpen = true := by rw [hclos]; exact Bool.false_ne_true
  cases call with
  | read destination timeout => exact (exec_requireOpen_bind _ s).trans (if_neg hneg)
  | readData destination timeout => exact (exec_requireOpen_bind _ s).trans (if_neg hneg)
  | write bytes timeout =>
      change exec (write env options bytes timeout >>= fun _ => pure []) s = _
      rw [exec_bind, write, exec_requireOpen_bind, if_neg hneg]

end TcpFastbootTransport

end KairosBoot
