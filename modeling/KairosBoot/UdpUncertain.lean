import KairosBoot.UdpReliable

/-! # Exchanges whose outcome is unknown

Once a datagram of an exchange has reached the wire, the target may have consumed the sequence number
of the exchange even if the host never learns it.  A failed exchange therefore closes the transport,
so that nothing is sent again under that number.  Every failure exit of `exchange_message` decides by
itself whether it does: `Exit` says what is true at all of them, part by part and loop by loop.  One
exit keeps the transport open although datagrams have reached the wire, the send that the socket
refuses as a whole (`refusedSend`), and `udp_uncertain_closes_iff` says that this is the only one. -/

namespace KairosBoot

open ByteLib Outcomes

variable {τ : Type}

/-- A part of the datagram may be on the wire. -/
def UdpEvent.reachedWire : UdpEvent → Bool
  | .sent _ _ result => decide (result.transferred ≠ 0)
  | _ => false

/-- A send that the socket has refused as a whole, other than by a cancellation or a truncation. -/
def UdpEvent.refusedSend : UdpEvent → Bool
  | .sent _ _ result => decide (result.transferred = 0 ∧ result.status ≠ .cancelled ∧
      result.status ≠ .truncated)
  | _ => false

/-- A datagram was handed to the socket or taken from it. -/
def UdpEvent.isAnswer : UdpEvent → Bool
  | .closed => false
  | _ => true

/-- The last answer of the socket to a send or a receive is a refused send. -/
def LastRefused (es : List UdpEvent) : Prop :=
  ∃ e, (es.filter UdpEvent.isAnswer).getLast? = some e ∧ e.refusedSend

instance (es : List UdpEvent) : Decidable (LastRefused es) :=
  decidable_of_iff ((es.filter UdpEvent.isAnswer).getLast?.any UdpEvent.refusedSend = true)
    (Option.any_eq_true _ _)

theorem lastRefused_nil : ¬ LastRefused [] := fun ⟨_, he, _⟩ => by cases he

theorem LastRefused.append {es es' : List UdpEvent} (h : LastRefused (es ++ es')) :
    LastRefused es ∨ LastRefused es' := by
  obtain ⟨e, he, hrefused⟩ := h
  rw [List.filter_append, List.getLast?_append] at he
  rcases Option.or_eq_some_iff.mp he with he | ⟨-, he⟩
  · exact .inr ⟨e, he, hrefused⟩
  · exact .inl ⟨e, he, hrefused⟩

theorem LastRefused.append_left {es' : List UdpEvent} (h : LastRefused es')
    (es : List UdpEvent) : LastRefused (es ++ es') := by
  obtain ⟨e, he, hrefused⟩ := h
  exact ⟨e, by rw [List.filter_append, List.getLast?_append, he]; rfl, hrefused⟩

theorem lastRefused_closed {es : List UdpEvent} (h : LastRefused (es ++ [.closed])) :
    LastRefused es := h.append.resolve_right fun ⟨_, he, _⟩ => by cases he

/-- Whether a failure closes the transport. -/
def ExchangeStop.poison : ExchangeStop → Bool
  | .failed _ _ poison _ _ => poison
  | .outOfRounds => true

namespace UdpFastbootTransport

variable {env : UdpEnvironment τ} {ρ α β : Type} {s s' : UdpState τ}

/-- A run reaches another state with the given calls. -/
def Logged (s : UdpState τ) (es : List UdpEvent) (s' : UdpState τ) : Prop := s'.log = s.log ++ es

instance logged_tracing : Tracing (Logged (τ := τ)) where
  refl s := (List.append_nil s.log).symm
  trans h h' := by
    unfold Logged
    rw [h', h, List.append_assoc]

/-- What a part of an exchange leaves: it does not close the transport, it remembers that a datagram
has reached the wire, a failure closes the transport, comes before that, or follows a refused send,
and a refused send ends the part with a failure that does not close the transport. -/
structure Exit (s : UdpState τ) (r : Except ExchangeStop α) (s' : UdpState τ) (es : List UdpEvent) :
    Prop where
  isOpen_eq : s'.transport.isOpen = s.transport.isOpen
  wire : ∀ e ∈ es, e.reachedWire → s'.locals.anyWireDatagram
  kept : s.locals.anyWireDatagram → s'.locals.anyWireDatagram
  guarded : ∀ stop, r = .error stop → stop.poison ∨ ¬ s'.locals.anyWireDatagram ∨ LastRefused es
  refused : LastRefused es → ∃ stop, r = .error stop ∧ ¬ stop.poison

/-- The exits of a program. -/
def Exits (x : UdpM τ α) : Prop := ∀ s, Emits Logged x s (Exit s)

/-! ### Rules -/

section Rules

variable {x y : UdpM τ α} {f : α → UdpM τ β}

theorem exit_ok {a : α} {es : List UdpEvent} (hopen : s'.transport.isOpen = s.transport.isOpen)
    (hwire : ∀ e ∈ es, e.reachedWire → s'.locals.anyWireDatagram)
    (hkept : s.locals.anyWireDatagram → s'.locals.anyWireDatagram) (hlast : ¬ LastRefused es) :
    Exit s (.ok a : Except ExchangeStop α) s' es :=
  ⟨hopen, hwire, hkept, fun _ h => (by cases h), fun h => absurd h hlast⟩

/-- A part that has succeeded did not end with a refused send. -/
theorem Exit.not_refused {a : α} {es : List UdpEvent}
    (h : Exit s (.ok a : Except ExchangeStop α) s' es) : ¬ LastRefused es := by
  intro hlast
  obtain ⟨stop, hstop, -⟩ := h.refused hlast
  cases hstop

/-- A failure is the same one whatever the part would have returned. -/
theorem Exit.failed {stop : ExchangeStop} {es : List UdpEvent}
    (h : Exit s (.error stop : Except ExchangeStop α) s' es) :
    Exit s (.error stop : Except ExchangeStop β) s' es where
  isOpen_eq := h.isOpen_eq
  wire := h.wire
  kept := h.kept
  guarded := by
    rintro _ ⟨⟩
    exact h.guarded stop rfl
  refused hlast := by
    obtain ⟨_, ⟨⟩, hpoison⟩ := h.refused hlast
    exact ⟨stop, rfl, hpoison⟩

/-- A failure that closes the transport and makes no call. -/
theorem exit_poison {stop : ExchangeStop} (h : stop.poison)
    (hopen : s'.transport.isOpen = s.transport.isOpen)
    (hkept : s.locals.anyWireDatagram → s'.locals.anyWireDatagram) :
    Exit s (.error stop : Except ExchangeStop α) s' [] :=
  ⟨hopen, by simp, hkept, fun _ heq => by cases heq; exact .inl h, fun h => absurd h lastRefused_nil⟩

theorem exit_silent {a : α} (hopen : s'.transport.isOpen = s.transport.isOpen)
    (hkept : s.locals.anyWireDatagram → s'.locals.anyWireDatagram) :
    Exit s (.ok a : Except ExchangeStop α) s' [] :=
  exit_ok hopen (by simp) hkept lastRefused_nil

theorem Exit.trans {r : Except ExchangeStop β} {a : α} {s'' : UdpState τ} {es es' : List UdpEvent}
    (h : Exit s (.ok a : Except ExchangeStop α) s' es) (h' : Exit s' r s'' es') :
    Exit s r s'' (es ++ es') where
  isOpen_eq := h'.isOpen_eq.trans h.isOpen_eq
  wire e he hreach := by
    rcases List.mem_append.mp he with he | he
    · exact h'.kept (h.wire e he hreach)
    · exact h'.wire e he hreach
  kept hany := h'.kept (h.kept hany)
  guarded stop hstop := (h'.guarded stop hstop).imp_right (Or.imp_right fun h => h.append_left es)
  refused hlast := h'.refused (hlast.append.resolve_left h.not_refused)

theorem exits_pure {a : α} : Exits (pure a : UdpM τ α) := fun _ =>
  emits_pure (exit_silent rfl id)

theorem exits_throw {stop : ExchangeStop} (h : stop.poison) : Exits (throw stop : UdpM τ α) :=
  fun _ => emits_throw (exit_poison h rfl id)

theorem exits_fail {status : TransportStatus} {detail : String} {truncated : Bool}
    {nativeError : ℤ} : Exits (fail status detail true truncated nativeError : UdpM τ α) :=
  exits_throw rfl

theorem Exits.bind (hx : Exits x) (hf : ∀ a, Exits (f a)) : Exits (x >>= f) := by
  intro s
  refine (hx s).bind ?_ ?_
  · intro a s' es h
    exact (hf a s').mono fun r s'' es' h' => h.trans h'
  · intro stop s' es h
    exact h.failed

theorem exits_get_bind {f : UdpState τ → UdpM τ β} (hf : ∀ s, Exits (f s)) :
    Exits (get >>= f) := fun s => hf s s

theorem Exits.ite {c : Prop} [Decidable c] (hx : Exits x) (hy : Exits y) :
    Exits (if c then x else y) := by
  split_ifs
  · exact hx
  · exact hy

theorem exits_ask (call : τ → ρ × τ) : Exits (ask call) := fun s =>
  ⟨[], (List.append_nil s.log).symm, exit_silent rfl id⟩

theorem exits_updateLocals {g : ExchangeLocals → ExchangeLocals}
    (h : ∀ l, l.anyWireDatagram → (g l).anyWireDatagram) : Exits (updateLocals g : UdpM τ Unit) :=
  fun s => ⟨[], (List.append_nil s.log).symm, exit_silent rfl (h _)⟩

end Rules

/-! ### The parts of an exchange -/

theorem expired_exits (deadline : ℤ) : Exits (expired env deadline) :=
  (exits_ask _).bind fun _ => exits_pure

theorem exits_fail_bind {status : TransportStatus} {detail : String} {truncated : Bool}
    {nativeError : ℤ} {f : α → UdpM τ β} :
    Exits (fail status detail true truncated nativeError >>= f) := fun _ =>
  emits_throw (exit_poison rfl rfl id)

/-- The expiry of the deadline closes the transport if a datagram has reached the wire. -/
theorem exits_failExpired_bind {detail : String} {f : α → UdpM τ β} :
    Exits (do let s ← get; fail .timeout detail s.locals.anyWireDatagram >>= f) := by
  intro s
  refine emits_throw ⟨rfl, by simp, id, fun _ heq => ?_, fun h => absurd h lastRefused_nil⟩
  cases heq
  by_cases hany : s.locals.anyWireDatagram
  · exact .inl hany
  · exact .inr (.inl hany)

variable {Q : Except ExchangeStop β → UdpState τ → List UdpEvent → Prop} {outcome : ExchangeOutcome}

theorem emits_send_bind {datagram : Bytes} {timeout : ℤ} {f : DatagramSendResult → UdpM τ β}
    (h : ∀ sent s', s'.transport.isOpen = s.transport.isOpen → s'.locals = s.locals →
      Emits Logged (f sent) s'
        fun r s'' es => Q r s'' (.sent datagram s.transport.peer sent :: es)) :
    Emits Logged (sendDatagram env datagram timeout >>= f) s Q :=
  emits_step_bind rfl (h _ _ rfl rfl)

theorem emits_updateLocals_bind {g : ExchangeLocals → ExchangeLocals} {f : Unit → UdpM τ β}
    (hg : ∀ l, (g l).anyWireDatagram = l.anyWireDatagram)
    (h : ∀ s', s'.transport.isOpen = s.transport.isOpen →
      s'.locals.anyWireDatagram = s.locals.anyWireDatagram → Emits Logged (f ()) s' Q) :
    Emits Logged (updateLocals g >>= f) s Q := by
  obtain ⟨es, hes, hq⟩ := h { s with locals := g s.locals } rfl (hg _)
  exact ⟨es, hes, hq⟩

theorem emits_ite {c : Prop} [Decidable c] {x y : UdpM τ β} (hpos : c → Emits Logged x s Q)
    (hneg : ¬ c → Emits Logged y s Q) : Emits Logged (if c then x else y) s Q := by
  split_ifs with hc
  · exact hpos hc
  · exact hneg hc

/-- A datagram that may have reached the wire is marked as such. -/
theorem markWire_emits {e : UdpEvent} (hopen : s'.transport.isOpen = s.transport.isOpen)
    (hsent : ¬ LastRefused [e]) :
    Emits Logged (markWire : UdpM τ Unit) s' fun r s'' es => Exit s r s'' (e :: es) :=
  ⟨[], (List.append_nil s'.log).symm, exit_ok hopen (fun _ _ _ => rfl) (fun _ => rfl) hsent⟩

theorem markWire_fail_emits {e : UdpEvent} {status : TransportStatus} {detail : String}
    {poison truncated : Bool} {nativeError : ℤ} {f : α → UdpM τ β}
    (hopen : s'.transport.isOpen = s.transport.isOpen) (hpois : poison = true)
    (hsent : ¬ LastRefused [e]) :
    Emits Logged
      (markWire >>= fun _ => fail status detail poison truncated nativeError >>= f) s'
      fun r s'' es => Exit s r s'' (e :: es) :=
  ⟨[], (List.append_nil s'.log).symm, hopen, fun _ _ _ => rfl, fun _ => rfl,
    fun _ heq => by cases heq; exact .inl hpois, fun h => absurd h hsent⟩

/-- A send of which something was transferred was not refused. -/
theorem not_lastRefused_sent {datagram : Bytes} {peer : UdpPeer} {sent : DatagramSendResult}
    (h : sent.transferred ≠ 0) : ¬ LastRefused [.sent datagram peer sent] := by
  rintro ⟨e, he, hrefused⟩
  cases he
  exact h (of_decide_eq_true hrefused).1

/-- A datagram is on the wire, or the send was refused. -/
theorem transmit_exits {outbound : Bytes} (hne : outbound ≠ []) (deadline : ℤ) :
    Exits (transmit env outbound deadline) := by
  unfold transmit
  refine (exits_ask _).bind fun cancelled => Exits.ite ?_ ?_
  · refine Exits.bind (exits_updateLocals ?_) fun _ => exits_fail_bind
    exact fun _ h => h
  refine (expired_exits deadline).bind fun isExpired => Exits.ite exits_failExpired_bind ?_
  refine (exits_ask _).bind fun time s => emits_send_bind fun sent s₁ hopen hlocs => ?_
  have hpos := List.length_pos_iff.mpr hne
  refine emits_ite (fun hmore => ?_) fun _ => emits_ite (fun _ => ?_) fun hfull => ?_
  · exact markWire_fail_emits hopen rfl (not_lastRefused_sent (by omega))
  · refine emits_updateLocals_bind (fun _ => rfl) fun s₂ hopen₂ hany₂ => ?_
    refine emits_ite (fun hsome => ?_) fun hnone => ?_
    · exact markWire_fail_emits (hopen₂.trans hopen) (decide_eq_true (.inl hsome))
        (not_lastRefused_sent hsome)
    have hzero : sent.transferred = 0 := not_not.mp hnone
    -- nothing of this datagram is on the wire, but earlier ones may be
    refine emits_throw ⟨hopen₂.trans hopen, ?_, fun hany => ?_, fun _ heq => ?_, fun hlast => ?_⟩
    · simp [UdpEvent.reachedWire, hzero]
    · rwa [hany₂, hlocs]
    · cases heq
      by_cases hstop : sent.status = .cancelled ∨ sent.status = .truncated
      · exact .inl (decide_eq_true (.inr hstop))
      · refine .inr (.inr ⟨_, rfl, ?_⟩)
        simpa [UdpEvent.refusedSend, hzero, not_or] using hstop
    · obtain ⟨e, he, hrefused⟩ := hlast
      cases he
      obtain ⟨-, hcanc, htrunc⟩ := of_decide_eq_true hrefused
      refine ⟨_, rfl, ?_⟩
      simp [ExchangeStop.poison, hzero, hcanc, htrunc]
  · refine markWire_emits hopen (not_lastRefused_sent ?_)
    rw [not_or, not_not, not_not] at hfull
    omega

theorem receiveDatagram_exits (wait : ℤ) : Exits (receiveDatagram env wait) := fun s =>
  ⟨[_], rfl, exit_ok rfl (by simp [UdpEvent.reachedWire]) id fun ⟨_, he, hrefused⟩ => by
    cases he
    cases hrefused⟩

theorem ignoreDatagram_exits (detail : String) : Exits (ignoreDatagram detail : UdpM τ Unit) := by
  refine Exits.bind (exits_updateLocals ?_) fun _ => exits_get_bind fun s => ?_
  · exact fun _ h => h
  · exact exits_fail.ite exits_pure

theorem receiveLoop_exits (sequence : UInt16) (id : UdpPacketId)
    (operationDeadline responseDeadline : ℤ) (fuel : ℕ) :
    Exits (receiveLoop env sequence id operationDeadline responseDeadline fuel) := by
  induction fuel with
  | zero => exact exits_pure
  | succ fuel ih =>
      refine (exits_ask _).bind fun responseNow => (exits_ask _).bind fun operationNow => ?_
      refine exits_pure.ite ((receiveDatagram_exits _).bind fun received => exits_get_bind fun s => ?_)
      cases classify s.transport sequence id received.1 received.2 with
      | silence => exact exits_pure
      | unrelated detail => exact (ignoreDatagram_exits detail).bind fun _ => ih
      | failure cancelled status detail truncated nativeError =>
          refine Exits.ite (Exits.bind (exits_updateLocals ?_) fun _ => exits_fail) exits_fail
          exact fun _ h => h
      | response header payload => exact exits_pure

theorem attemptLoop_exits {outbound : Bytes} (hne : outbound ≠ []) (sequence : UInt16) (id : UdpPacketId)
    (operationDeadline : ℤ) (attempts : ℕ) :
    Exits (attemptLoop env outbound sequence id operationDeadline attempts) := by
  induction attempts with
  | zero => exact exits_fail
  | succ attempts ih =>
      refine (transmit_exits hne operationDeadline).bind fun _ => exits_get_bind fun s => ?_
      refine (exits_ask _).bind fun operationNow => (exits_ask _).bind fun started => ?_
      refine (receiveLoop_exits sequence id operationDeadline _ _).bind fun answer => ?_
      cases answer with
      | some answer => exact exits_pure
      | none =>
          exact (expired_exits operationDeadline).bind fun _ => exits_fail.ite (exits_fail.ite ih)

theorem acknowledge_exits (fragmentSize : ℕ) (accounted : Bool) :
    Exits (acknowledge fragmentSize accounted : UdpM τ Unit) := by
  have hmodify : Exits (modify fun s => { s with
      locals := { s.locals with unacknowledgedWireDatagram := false }
      transport := { s.transport with nextSequence := s.transport.nextSequence + 1 } } :
      UdpM τ Unit) := fun s => ⟨[], (List.append_nil s.log).symm, exit_silent rfl id⟩
  refine hmodify.bind fun _ => Exits.ite (exits_get_bind fun s => ?_) exits_pure
  refine Exits.ite exits_fail_bind (exits_updateLocals ?_)
  exact fun _ h => h

theorem storeResponse_exits (id : UdpPacketId) (payload : Bytes) (limit : ℕ) :
    Exits (storeResponse id payload limit : UdpM τ Unit) := by
  refine exits_get_bind fun s => Exits.ite ?_ ?_
  · refine Exits.ite exits_fail_bind (exits_updateLocals ?_)
    exact fun _ h => h
  · refine Exits.ite exits_fail_bind (exits_updateLocals ?_)
    exact fun _ h => h

theorem failTargetError_exits : Exits (failTargetError : UdpM τ α) := by
  refine Exits.bind (exits_updateLocals ?_) fun _ => exits_get_bind fun s => exits_fail
  exact fun _ h => h

theorem fragmentLoop_exits (exchange : ExchangeRequest) (operationDeadline : ℤ)
    (fragmentSize fuel : ℕ) (id : UdpPacketId) (flags : UInt8) (payload : Bytes)
    (accounted : Bool) :
    Exits (fragmentLoop env exchange operationDeadline fragmentSize fuel id flags payload
      accounted) := by
  induction fuel generalizing id flags payload accounted with
  | zero => exact exits_throw rfl
  | succ fuel ih =>
      refine exits_get_bind fun s => Exits.ite exits_fail_bind ?_
      have hheader : ∀ header, encodeUdpHeader header ++ payload ≠ [] := nofun
      refine (attemptLoop_exits (hheader _) _ id operationDeadline _).bind fun response => ?_
      refine (acknowledge_exits fragmentSize accounted).bind fun _ => ?_
      refine (storeResponse_exits _ _ _).bind fun _ => ?_
      exact (ih _ _ _ _).ite (failTargetError_exits.ite exits_pure)

theorem requestLoop_exits (exchange : ExchangeRequest) (operationDeadline : ℤ)
    (rounds fuel offset : ℕ) :
    Exits (requestLoop env exchange operationDeadline rounds fuel offset) := by
  induction fuel generalizing offset with
  | zero => exact exits_pure
  | succ fuel ih =>
      refine exits_get_bind fun s => ?_
      exact (fragmentLoop_exits exchange operationDeadline _ rounds _ _ _ _).bind fun _ =>
        (ih _).ite exits_pure

/-! ### The exchange -/

/-- What an exchange leaves: the transport is as open as before, and if a datagram has reached the
wire and the outcome is not certain, the outcome closes the transport or the last answer was a
refused send, and after a refused send it does not. -/
structure Exchanged (s : UdpState τ) (outcome : ExchangeOutcome) (s' : UdpState τ)
    (es : List UdpEvent) : Prop where
  isOpen_eq : s'.transport.isOpen = s.transport.isOpen
  success : outcome.success → outcome.certainty = .fullyTransferred
  poison : ¬ outcome.success → (∃ e ∈ es, e.reachedWire) → outcome.poison ∨ LastRefused es
  refused : LastRefused es → ¬ outcome.success ∧ ¬ outcome.poison

theorem exchanged_early (hopen : s'.transport.isOpen = s.transport.isOpen)
    (hfail : outcome.success = false) : Exchanged s outcome s' [] where
  isOpen_eq := hopen
  success h := by cases hfail.symm.trans h
  poison _ := by
    rintro ⟨e, he, -⟩
    cases he
  refused h := absurd h lastRefused_nil

theorem emits_ask_bind {call : τ → ρ × τ} {f : ρ → UdpM τ β}
    (h : ∀ value s', s'.transport.isOpen = s.transport.isOpen → Emits Logged (f value) s' Q) :
    Emits Logged (ask call >>= f) s Q :=
  emits_step_bind (List.append_nil s.log).symm (h _ _ rfl)

theorem emits_expired_bind {deadline : ℤ} {f : Bool → UdpM τ β}
    (h : ∀ value s', s'.transport.isOpen = s.transport.isOpen → Emits Logged (f value) s' Q) :
    Emits Logged (expired env deadline >>= f) s Q := by
  have hexpi : Emits Logged (expired env deadline) s fun r s' es =>
      es = [] ∧ s'.transport.isOpen = s.transport.isOpen ∧ ∃ value, r = .ok value :=
    ⟨[], (List.append_nil s.log).symm, rfl, rfl, _, rfl⟩
  refine hexpi.bind ?_ ?_
  · rintro value s' es ⟨rfl, hopen, -⟩
    exact h value s' hopen
  · rintro stop s' es ⟨-, -, value, hval⟩
    cases hval

theorem exchangeLoops_emits (exchange : ExchangeRequest) (operationDeadline : ℤ) (rounds : ℕ)
    (s : UdpState τ) :
    Emits Logged (exchangeLoops env exchange operationDeadline rounds) s
      fun r s' es => Exit s r s' es ∧ ∀ outcome, r = .ok outcome →
        outcome.success ∧ outcome.certainty = .fullyTransferred := by
  refine (requestLoop_exits exchange operationDeadline rounds _ 0 s).bind ?_ ?_
  · intro _ s' es h
    refine emits_get_bind (emits_pure ?_)
    refine ⟨?_, fun outcome hout => ?_⟩
    · rw [List.append_nil]
      exact exit_ok h.isOpen_eq h.wire h.kept h.not_refused
    · cases hout
      exact ⟨rfl, rfl⟩
  · intro stop s' es h
    exact ⟨h.failed, fun _ h => (by cases h)⟩

theorem exchangeMessage_exchanged (exchange : ExchangeRequest) (responseSize : ℕ) (timeout : ℤ)
    (rounds : ℕ) (s : UdpState τ) :
    Emits Logged (exchangeMessage env exchange responseSize timeout rounds) s
      fun r s' es => ∀ outcome, r = .ok outcome → Exchanged s outcome s' es := by
  have hearly : ∀ {s₁ : UdpState τ} {outcome : ExchangeOutcome},
      s₁.transport.isOpen = s.transport.isOpen → outcome.success = false →
      Emits Logged (pure outcome : UdpM τ ExchangeOutcome) s₁
        fun r s' es => ∀ outcome, r = .ok outcome → Exchanged s outcome s' es := by
    intro s₁ outcome hopen hfail
    refine emits_pure fun outcome' heq => ?_
    cases heq
    exact exchanged_early hopen hfail
  have hreset : Emits Logged (updateLocals fun _ => {} : UdpM τ Unit) s
      fun _ s' es => es = [] ∧ s'.transport.isOpen = s.transport.isOpen :=
    ⟨[], (List.append_nil s.log).symm, rfl, rfl⟩
  refine hreset.bind ?_ fun _ _ _ _ _ h => (by cases h)
  rintro _ s₁ es ⟨rfl, h₁⟩
  refine emits_get_bind (emits_ite (fun _ => hearly h₁ rfl) fun _ =>
    emits_ite (fun _ => hearly h₁ rfl) fun _ => ?_)
  refine emits_ask_bind fun stopped s₂ h₂ => ?_
  rw [← h₂] at h₁
  refine emits_ite (fun _ => hearly h₁ rfl) fun _ => emits_ask_bind fun started s₃ h₃ => ?_
  rw [← h₃] at h₁
  refine emits_expired_bind fun isExpired s₄ h₄ => emits_ite (fun _ => ?_) fun _ => ?_
  · exact hearly (h₄.trans h₁) rfl
  refine emits_ask_bind fun allocated s₅ h₅ => emits_ite (fun _ => ?_) fun _ => ?_
  · exact hearly (h₅.trans (h₄.trans h₁)) rfl
  have hopen : s₅.transport.isOpen = s.transport.isOpen := h₅.trans (h₄.trans h₁)
  refine (exchangeLoops_emits exchange _ rounds s₅).tryCatch ?_ ?_
  · rintro outcome s' es ⟨hexit, hok⟩ outcome' heq
    cases heq
    obtain ⟨hsucc, hcert⟩ := hok outcome rfl
    exact ⟨hexit.isOpen_eq.trans hopen, fun _ => hcert, fun h => absurd hsucc h,
      fun h => absurd h hexit.not_refused⟩
  · rintro stop s' es ⟨hexit, -⟩
    refine emits_get_bind ?_
    cases stop with
    | outOfRounds => exact emits_throw fun _ h => (by cases h)
    | failed status detail poison truncated nativeError =>
        refine emits_pure fun outcome heq => ?_
        cases heq
        rw [List.append_nil]
        refine ⟨hexit.isOpen_eq.trans hopen, fun h => (by cases h), ?_, fun hlast => ?_⟩
        · rintro - ⟨e, he, hreach⟩
          have hany := hexit.wire e he hreach
          exact (hexit.guarded _ rfl).imp_right fun h => h.resolve_left (not_not.mpr hany)
        · obtain ⟨_, ⟨⟩, hpoison⟩ := hexit.refused hlast
          exact ⟨nofun, hpoison⟩

/-! ### The transport -/

/-- What closing the transport after an exchange leaves. -/
inductive Settled (s : UdpState τ) : Bool → UdpState τ → List UdpEvent → Prop
  | closed {s' : UdpState τ} (closed : s'.transport.isOpen = false) : Settled s true s' [.closed]
  | kept : Settled s false s []

/-- `poison_locked` after an exchange that asks for it. -/
theorem settle_emits {value : α} (hopen : s.transport.isOpen = true) :
    Emits Logged (do
      if ¬ outcome.success ∧ outcome.poison then poisonLocked env
      pure value : UdpM τ α) s
      fun r s' es => r = .ok value ∧
        Settled s (decide (¬ outcome.success ∧ outcome.poison)) s' es := by
  refine emits_ite (fun h => ?_) fun h => ?_
  · rw [decide_eq_true h]
    have hpois : Emits Logged (poisonLocked env) s fun r s' es =>
        (∃ value, r = .ok value) ∧ es = [.closed] ∧ s'.transport.isOpen = false := by
      unfold poisonLocked closeLocked
      refine emits_step_bind (g := fun s : UdpState τ => ((), { s with
        transport := { s.transport with poisoned := true } })) (List.append_nil s.log).symm ?_
      refine emits_get_bind (emits_ite (fun _ => ?_) fun hclos => absurd hopen hclos)
      exact ⟨[.closed], rfl, ⟨_, rfl⟩, rfl, rfl⟩
    refine hpois.bind ?_ ?_
    · rintro _ s' es ⟨-, rfl, hclos⟩
      exact emits_pure ⟨rfl, .closed hclos⟩
    · rintro stop s' es ⟨⟨value, hval⟩, -⟩
      cases hval
  · rw [decide_eq_false h]
    exact emits_pure ⟨rfl, .kept⟩

theorem Exchanged.emptyResponse {es : List UdpEvent} (h : Exchanged s outcome s' es) :
    Exchanged s (emptyResponseFailure outcome) s' es := by
  unfold emptyResponseFailure
  split_ifs with hempty
  · exact ⟨h.isOpen_eq, fun h => (by cases h), fun _ _ => .inl rfl,
      fun hlast => absurd hempty.1 (h.refused hlast).1⟩
  · exact h

/-- What a call leaves: it has closed the transport, and its last answer was not a refused send; or
it has kept it open, and either the outcome is certain or the last answer was a refused send; or
nothing has reached the wire. -/
inductive CallLeft (certainty : TransferCertainty) (s' : UdpState τ) (es : List UdpEvent) : Prop
  | closed (closed : s'.transport.isOpen = false) (last : ¬ LastRefused es) :
      CallLeft certainty s' es
  | kept (kept : s'.transport.isOpen = true) (refused : (∃ e ∈ es, e.reachedWire) →
      certainty = .partialOrUnknown → LastRefused es) : CallLeft certainty s' es
  | silent (silent : ¬ ∃ e ∈ es, e.reachedWire) : CallLeft certainty s' es

theorem Exchanged.settled {s'' : UdpState τ} {es es' : List UdpEvent}
    (h : Exchanged s outcome s' es) (hopen : s.transport.isOpen = true)
    (hset : Settled s' (decide (¬ outcome.success ∧ outcome.poison)) s'' es') :
    CallLeft outcome.certainty s'' (es ++ es') := by
  generalize hpois : decide (¬ outcome.success ∧ outcome.poison) = poison at hset
  cases hset with
  | closed hclos =>
      refine .closed hclos fun hlast => ?_
      exact (h.refused (lastRefused_closed hlast)).2 (of_decide_eq_true hpois).2
  | kept =>
      rw [List.append_nil]
      refine .kept (h.isOpen_eq.trans hopen) fun hwire hcert => ?_
      have hkept := of_decide_eq_false hpois
      by_cases hsucc : outcome.success
      · cases (h.success hsucc).symm.trans hcert
      · exact (h.poison hsucc hwire).resolve_left fun hp => hkept ⟨hsucc, hp⟩

theorem callLeft_disconnected : CallLeft closedResult.certainty s ([] : List UdpEvent) :=
  .silent fun ⟨_, he, _⟩ => by cases he

theorem write_emits (bytes : Bytes) (timeout : ℤ) (rounds : ℕ) (s : UdpState τ) :
    Emits Logged (write env bytes timeout rounds) s
      fun r s' es => ∀ result, r = .ok result → CallLeft result.certainty s' es := by
  refine emits_get_bind (emits_ite (fun _ => ?_) fun hopen => ?_)
  · refine emits_pure fun result heq => ?_
    cases heq
    exact callLeft_disconnected
  · refine (exchangeMessage_exchanged _ _ timeout rounds s).bind ?_ fun _ _ _ _ _ h => (by cases h)
    intro outcome s₁ es h
    have hexch := h outcome rfl
    have hopen₁ := hexch.isOpen_eq.trans (not_not.mp hopen)
    refine (settle_emits hopen₁).mono ?_
    rintro r s' es' ⟨rfl, hset⟩ result heq
    cases heq
    exact hexch.settled (not_not.mp hopen) hset

theorem read_emits (size : ℕ) (timeout : ℤ) (rounds : ℕ) (s : UdpState τ) :
    Emits Logged (read env size timeout rounds) s
      fun r s' es => ∀ result, r = .ok result → CallLeft result.1.certainty s' es := by
  refine emits_get_bind (emits_ite (fun _ => ?_) fun hopen => ?_)
  · refine emits_pure fun result heq => ?_
    cases heq
    exact callLeft_disconnected
  · refine (exchangeMessage_exchanged _ _ timeout rounds s).bind ?_ fun _ _ _ _ _ h => (by cases h)
    intro outcome s₁ es h
    have hexch := (h outcome rfl).emptyResponse
    have hopen₁ := hexch.isOpen_eq.trans (not_not.mp hopen)
    refine (settle_emits hopen₁).mono ?_
    rintro r s' es' ⟨rfl, hset⟩ result heq
    cases heq
    exact hexch.settled (not_not.mp hopen) hset

end UdpFastbootTransport

open UdpFastbootTransport

/-- A call of the session to the transport. -/
inductive UdpCall where
  | write (bytes : Bytes) (timeout : ℤ)
  | read (size : ℕ) (timeout : ℤ)

def UdpCall.run (env : UdpEnvironment τ) (rounds : ℕ) : UdpCall → UdpM τ TransferResult
  | .write bytes timeout => UdpFastbootTransport.write env bytes timeout rounds
  | .read size timeout => do
      let result ← UdpFastbootTransport.read env size timeout rounds
      pure result.1

/-- The transport is closed, and no call hands another datagram to the socket. -/
def UdpDead (env : UdpEnvironment τ) (s : UdpState τ) : Prop :=
  s.transport.isOpen = false ∧
    ∀ (call : UdpCall) (rounds : ℕ), (exec (call.run env rounds) s).2.log = s.log

theorem udpDead_of_closed {env : UdpEnvironment τ} {s : UdpState τ}
    (h : s.transport.isOpen = false) : UdpDead env s := by
  refine ⟨h, fun call rounds => ?_⟩
  have hclos : ¬ s.transport.isOpen = true := by
    rw [h]
    decide
  cases call with
  | write bytes timeout =>
      unfold UdpCall.run UdpFastbootTransport.write
      rw [exec_get_bind, if_pos hclos]
      rfl
  | read size timeout =>
      unfold UdpCall.run UdpFastbootTransport.read
      rw [exec_bind, exec_get_bind, if_pos hclos]
      rfl

theorem UdpCall.run_emits (env : UdpEnvironment τ) (call : UdpCall) (rounds : ℕ) (s : UdpState τ) :
    Emits Logged (call.run env rounds) s fun r s' es =>
      ∀ result, r = .ok result → CallLeft result.certainty s' es := by
  cases call with
  | write bytes timeout => exact write_emits bytes timeout rounds s
  | read size timeout =>
      refine (read_emits size timeout rounds s).bind ?_ fun _ _ _ _ _ h => (by cases h)
      intro result s' es h
      refine emits_pure fun result' heq => ?_
      cases heq
      rw [List.append_nil]
      exact h result rfl

/-- Whatever the socket does, a call that fails with an unknown outcome after a datagram of its
exchange has reached the wire leaves the transport dead, exactly if the last answer of the socket
was not the refusal of a whole datagram. -/
theorem udp_uncertain_closes_iff (env : UdpEnvironment τ) (call : UdpCall) (rounds : ℕ)
    (s s' : UdpState τ) (result : TransferResult)
    (hrun : exec (call.run env rounds) s = (.ok result, s')) :
    ∃ es, s'.log = s.log ++ es ∧
      ((∃ e ∈ es, e.reachedWire) → result.certainty = .partialOrUnknown →
        (UdpDead env s' ↔ ¬ LastRefused es)) := by
  obtain ⟨es, hlog, hleft⟩ := UdpCall.run_emits env call rounds s
  rw [hrun] at hlog hleft
  refine ⟨es, hlog, fun hwire hpartial => ?_⟩
  cases hleft result rfl with
  | closed hclosed hlast => exact iff_of_true (udpDead_of_closed hclosed) hlast
  | kept hkept hrefused =>
      refine iff_of_false (fun hdead => ?_) (not_not.mpr (hrefused hwire hpartial))
      cases hdead.1.symm.trans hkept
  | silent hsilent => exact absurd hwire hsilent

/-! ### A refused retransmission -/

/-- A transport with the given number of attempts a datagram. -/
def attemptingState (world : τ) (attempts : ℕ) : UdpState τ where
  world := world
  transport := {
    peer := scriptedPeer
    options := { transmissionAttempts := attempts }
    receivePacket := List.replicate 16 0
    nextSequence := 7
    minimum_le := le_refl _ }

/-- A write of one byte. -/
def attemptWrite (env : UdpEnvironment τ) (world : τ) (attempts : ℕ) :=
  exec ((UdpCall.write [103] 1000).run env 10) (attemptingState world attempts)

/-- A datagram that is never answered closes the transport. -/
theorem silentPeer_closes :
    let run := attemptWrite scriptedNetwork [] 1
    ∃ result, run.1 = .ok result ∧ result.certainty = .partialOrUnknown ∧
      run.2.log.any UdpEvent.reachedWire = true ∧
      UdpDead scriptedNetwork run.2 := by
  intro run
  have hrun : run.1 = .ok {
      status := .timeout
      certainty := .partialOrUnknown
      detail := "Fastboot UDP peer did not respond within the retransmission limit" } := by
    decide +kernel
  have hcalls : run.2.log.any UdpEvent.reachedWire = true ∧ ¬ LastRefused run.2.log := by
    decide +kernel
  obtain ⟨es, hlog, hdead⟩ := udp_uncertain_closes_iff _ _ _ _ _ _ (Prod.ext hrun rfl)
  obtain rfl : _ = es := hlog
  exact ⟨_, hrun, rfl, hcalls.1, (hdead (List.any_eq_true.mp hcalls.1) rfl).mpr hcalls.2⟩

/-- A network that takes one datagram, refuses the next ones and never answers. -/
def refusingNetwork : UdpEnvironment ℕ where
  now world := (0, world)
  stopRequested world := (false, world)
  allocate world := (true, world)
  sendDatagram datagram _ _ world :=
    (if world = 0 then { transferred := datagram.length } else { status := .error }, world + 1)
  receiveDatagram _ _ world := (({ status := .timeout }, []), world)
  close world := world

/-- The datagram is sent, its retransmission is refused, and the transport stays open with the
sequence number of the datagram. -/
theorem refusedRetransmission_stays_open :
    let run := attemptWrite refusingNetwork 0 2
    (run.1.toOption.map TransferResult.certainty) = some .partialOrUnknown ∧
      run.2.log.any UdpEvent.reachedWire = true ∧ LastRefused run.2.log ∧
      run.2.transport.isOpen = true ∧ run.2.transport.nextSequence = 7 := by
  decide +kernel

end KairosBoot
