import KairosBoot.UdpFastboot

/-! # Exchanges over UDP are reliable

A successful run of `exchange_message` is a sequence of acknowledged steps.  A step has one
sequence number: its datagram is sent and, as long as no answer arrives, sent again unchanged, and
the step ends with the first answer, a datagram of the peer with the sequence number and the packet
id of the step.  Whatever the network does, the payloads of the steps are the request and the
payloads of their answers are the response.

* `ExchangeStep` is such a step and `Acknowledged` says what it sends and receives;
* `attemptLoop_yields`, `fragmentLoop_yields` and `requestLoop_yields` follow the three loops;
* `udp_exchange_reliable` is the statement about `exchange_message`. -/

namespace KairosBoot

open ByteLib Outcomes List

variable {τ : Type}

/-! ### Answers and steps -/

/-- A received datagram is an answer in a step: it comes from the peer, fits the negotiated size,
carries the sequence number of the step, and its id is that of the step or an error. -/
structure IsAnswer (peer : UdpPeer) (packetBytes : ℕ) (id : UdpPacketId) (sequence : UInt16)
    (result : DatagramReceiveResult) (packet : Bytes) : Prop where
  status_ok : result.status = .ok
  peer_eq : result.peer = peer
  length_eq : packet.length = result.transferred
  header_le : kFastbootUdpHeaderBytes ≤ packet.length
  length_le : packet.length ≤ packetBytes
  sequence_eq : (decodeUdpHeader packet).sequence = sequence
  id_eq : (decodeUdpHeader packet).id = id ∨ (decodeUdpHeader packet).id = .error

/-- A call is not an answer. -/
def UdpEvent.Unanswered (peer : UdpPeer) (packetBytes : ℕ) (id : UdpPacketId) (sequence : UInt16)
    (event : UdpEvent) : Prop :=
  ∀ result packet, event = .received result packet →
    ¬ IsAnswer peer packetBytes id sequence result packet

/-- The calls of one sequence number: what was offered, what came back and the calls themselves. -/
structure ExchangeStep where
  flags : UInt8
  sequence : UInt16
  payload : Bytes
  response : Bytes
  events : List UdpEvent

def ExchangeStep.datagram (id : UdpPacketId) (step : ExchangeStep) : Bytes :=
  encodeUdpHeader ⟨id, step.flags, step.sequence⟩ ++ step.payload

/-- A step that was acknowledged: it has sent its datagram, and nothing else, until the first
answer came in, whose payload is the response of the step. -/
structure Acknowledged (peer : UdpPeer) (packetBytes : ℕ) (id : UdpPacketId)
    (step : ExchangeStep) : Prop where
  length_le : (step.datagram id).length ≤ packetBytes
  transmitted : ∃ result, .sent (step.datagram id) peer result ∈ step.events
  retransmitted : ∀ datagram target result, .sent datagram target result ∈ step.events →
    datagram = step.datagram id ∧ target = peer
  answered : ∃ before result packet, step.events = before ++ [.received result packet] ∧
    (∀ e ∈ before, e.Unanswered peer packetBytes id step.sequence) ∧
    IsAnswer peer packetBytes id step.sequence result packet ∧
    (decodeUdpHeader packet).id = id ∧ packet.drop kFastbootUdpHeaderBytes = step.response

/-- The sequence number goes from one step to the next. -/
def Advances (peer : UdpPeer) (packetBytes : ℕ) (id : UdpPacketId) (sequence : UInt16)
    (step : ExchangeStep) (next : UInt16) : Prop :=
  Acknowledged peer packetBytes id step ∧ step.sequence = sequence ∧ next = sequence + 1

/-- Every step with a part of the request carries the continuation flag if more of the request
follows, and no other step carries it. -/
def FlagsFollowRequest : List ExchangeStep → Prop
  | [] => True
  | step :: rest =>
      step.flags = (if step.payload ≠ [] ∧ rest.flatMap ExchangeStep.payload ≠ [] then
        UdpPacketFlag.continuation else UdpPacketFlag.none) ∧ FlagsFollowRequest rest

/-! ### What the parts of an exchange leave -/

/-- A run reaches another state with the given calls; the peer and the packet size stay. -/
structure UdpTraced (s : UdpState τ) (es : List UdpEvent) (s' : UdpState τ) : Prop where
  log_eq : s'.log = s.log ++ es
  peer_eq : s'.transport.peer = s.transport.peer
  packetBytes_eq : s'.transport.packetBytes = s.transport.packetBytes

theorem UdpTraced.trans {s s' s'' : UdpState τ} {es es' : List UdpEvent} (h : UdpTraced s es s')
    (h' : UdpTraced s' es' s'') : UdpTraced s (es ++ es') s'' :=
  ⟨by rw [h'.log_eq, h.log_eq, append_assoc], h'.peer_eq.trans h.peer_eq,
    h'.packetBytes_eq.trans h.packetBytes_eq⟩

instance udpTraced_tracing : Tracing (UdpTraced (τ := τ)) where
  refl s := ⟨(List.append_nil s.log).symm, rfl, rfl⟩
  trans := .trans

/-- The sequence number and what has been exchanged so far are unchanged. -/
structure Kept (s s' : UdpState τ) : Prop where
  nextSequence_eq : s'.transport.nextSequence = s.transport.nextSequence
  response_eq : s'.locals.response = s.locals.response
  acknowledged_eq : s'.locals.acknowledgedRequestBytes = s.locals.acknowledgedRequestBytes

theorem Kept.refl (s : UdpState τ) : Kept s s := ⟨rfl, rfl, rfl⟩

theorem Kept.trans {s s' s'' : UdpState τ} (h : Kept s s') (h' : Kept s' s'') : Kept s s'' :=
  ⟨h'.1.trans h.1, h'.2.trans h.2, h'.3.trans h.3⟩

namespace UdpFastbootTransport

variable {env : UdpEnvironment τ} {ρ α β : Type} {s : UdpState τ}
  {Q : β → UdpState τ → List UdpEvent → Prop}

theorem yields_ask_bind {call : τ → ρ × τ} {f : ρ → UdpM τ β}
    (h : ∀ value s', UdpTraced s [] s' → Kept s s' → Yields UdpTraced (f value) s' Q) :
    Yields UdpTraced (ask call >>= f) s Q := by
  have hask : Yields UdpTraced (ask call) s fun _ s' es => es = [] ∧ Kept s s' :=
    ⟨[], ⟨(append_nil s.log).symm, rfl, rfl⟩, fun _ _ => ⟨rfl, rfl, rfl, rfl⟩⟩
  refine hask.bind ?_
  rintro value s' es htrc ⟨rfl, hkept⟩
  exact h value s' htrc hkept

theorem yields_get_bind {f : UdpState τ → UdpM τ β} (h : Yields UdpTraced (f s) s Q) :
    Yields UdpTraced (get >>= f) s Q := h

/-- A change of the local variables that keeps what has been exchanged. -/
theorem yields_updateLocals_bind {g : ExchangeLocals → ExchangeLocals} {f : Unit → UdpM τ β}
    (hresp : ∀ l, (g l).response = l.response)
    (hack : ∀ l, (g l).acknowledgedRequestBytes = l.acknowledgedRequestBytes)
    (h : ∀ s', UdpTraced s [] s' → Kept s s' → Yields UdpTraced (f ()) s' Q) :
    Yields UdpTraced (updateLocals g >>= f) s Q := by
  have hupd : Yields UdpTraced (updateLocals g) s fun _ s' es => es = [] ∧ Kept s s' :=
    ⟨[], ⟨(append_nil s.log).symm, rfl, rfl⟩, fun _ _ => ⟨rfl, rfl, hresp _, hack _⟩⟩
  refine hupd.bind ?_
  rintro _ s' es htrc ⟨rfl, hkept⟩
  exact h s' htrc hkept

theorem yields_fail {status : TransportStatus} {detail : String} {poison truncated : Bool}
    {nativeError : ℤ} : Yields UdpTraced (fail status detail poison truncated nativeError) s Q :=
  yields_throw

theorem yields_fail_bind {status : TransportStatus} {detail : String} {poison truncated : Bool}
    {nativeError : ℤ} {f : α → UdpM τ β} :
    Yields UdpTraced (fail status detail poison truncated nativeError >>= f) s Q :=
  (yields_fail (Q := fun _ _ _ => False)).bind fun _ _ _ _ h => h.elim

theorem yields_ite {c : Prop} [Decidable c] {x y : UdpM τ β} (hpos : c → Yields UdpTraced x s Q)
    (hneg : ¬ c → Yields UdpTraced y s Q) : Yields UdpTraced (if c then x else y) s Q := by
  split_ifs with hc
  · exact hpos hc
  · exact hneg hc

theorem expired_yields (deadline : ℤ) (s : UdpState τ) :
    Yields UdpTraced (expired env deadline) s fun _ s' es => es = [] ∧ Kept s s' :=
  yields_ask_bind fun _ _ _ hkept => yields_pure ⟨rfl, hkept⟩

theorem sendDatagram_yields (datagram : Bytes) (timeout : ℤ) (s : UdpState τ) :
    Yields UdpTraced (sendDatagram env datagram timeout) s
      fun sent s' es => es = [.sent datagram s.transport.peer sent] ∧ Kept s s' := by
  refine ⟨[_], ⟨rfl, rfl, rfl⟩, fun sent hsent => ?_⟩
  cases hsent
  exact ⟨rfl, rfl, rfl, rfl⟩

theorem markWire_yields (s : UdpState τ) :
    Yields UdpTraced (markWire : UdpM τ Unit) s fun _ s' es => es = [] ∧ Kept s s' :=
  ⟨[], ⟨(append_nil s.log).symm, rfl, rfl⟩, fun _ _ => ⟨rfl, rfl, rfl, rfl⟩⟩

theorem transmit_yields (outbound : Bytes) (deadline : ℤ) (s : UdpState τ) :
    Yields UdpTraced (transmit env outbound deadline) s
      fun _ s' es => Kept s s' ∧ ∃ result, es = [.sent outbound s.transport.peer result] := by
  unfold transmit
  refine yields_ask_bind fun cancelled s₁ ht₁ hk₁ => yields_ite (fun _ => ?_) fun _ => ?_
  · exact yields_updateLocals_bind (fun _ => rfl) (fun _ => rfl) fun _ _ _ => yields_fail_bind
  refine (expired_yields deadline s₁).bind ?_
  rintro isExpired s₂ es ht₂ ⟨rfl, hk₂⟩
  refine yields_ite (fun _ => ?_) fun _ => yields_ask_bind fun time s₃ ht₃ hk₃ => ?_
  · exact yields_get_bind yields_fail_bind
  refine (sendDatagram_yields outbound _ s₃).bind ?_
  rintro sent s₄ es - ⟨rfl, hk₄⟩
  refine yields_ite (fun _ => ?_) fun _ => yields_ite (fun _ => ?_) fun _ => ?_
  · exact (markWire_yields s₄).bind fun _ _ _ _ _ => yields_fail_bind
  · refine yields_updateLocals_bind (fun _ => rfl) (fun _ => rfl) fun s₅ _ _ => ?_
    refine yields_ite (fun _ => ?_) fun _ => yields_fail_bind
    exact (markWire_yields s₅).bind fun _ _ _ _ _ => yields_fail_bind
  · refine (markWire_yields s₄).mono ?_
    rintro _ s₅ es ⟨rfl, hk₅⟩
    refine ⟨hk₁.trans (hk₂.trans (hk₃.trans (hk₄.trans hk₅))), sent, ?_⟩
    rw [(ht₁.trans (ht₂.trans ht₃)).peer_eq]
    rfl

/-! ### Receiving -/

theorem receiveDatagram_yields (wait : ℤ) (s : UdpState τ) :
    Yields UdpTraced (receiveDatagram env wait) s fun received s' es =>
      es = [.received received.1 received.2] ∧ Kept s s' ∧
        received.2.length = min received.1.transferred s'.transport.receivePacket.length := by
  refine ⟨[_], ⟨rfl, rfl, rfl⟩, fun received hrecv => ?_⟩
  cases hrecv
  exact ⟨rfl, ⟨rfl, rfl, rfl⟩, length_take⟩

section Classify

variable {transport : UdpTransport} {sequence : UInt16} {id : UdpPacketId}
  {result : DatagramReceiveResult} {packet : Bytes}

theorem classify_eq_response {header : UdpPacketHeader} {payload : Bytes}
    (h : classify transport sequence id result packet = .response header payload) :
    result.status = .ok ∧ result.peer = transport.peer ∧
      classifyPacket transport sequence id result.transferred packet = .response header payload := by
  unfold classify at h
  split_ifs at h with htimeout hio hpeer hok
  · cases h
  · cases h
  · exact ⟨not_not.mp hok, not_not.mp hpeer, h⟩

/-- A datagram that the receive loop takes for a response is an answer. -/
theorem isAnswer_of_classify {header : UdpPacketHeader} {payload : Bytes}
    (hlen : packet.length = min result.transferred transport.receivePacket.length)
    (h : classify transport sequence id result packet = .response header payload) :
    IsAnswer transport.peer transport.packetBytes id sequence result packet ∧
      decodeUdpHeader packet = header ∧ packet.drop kFastbootUdpHeaderBytes = payload := by
  obtain ⟨hok, hpeer, h⟩ := classify_eq_response h
  dsimp only [classifyPacket] at h
  split_ifs at h with hlong hshort hlarge hhdr hflags
  obtain ⟨rfl, rfl⟩ := Reception.response.inj h
  simp only [not_or, not_and, not_not] at hhdr
  refine ⟨{
    status_ok := hok
    peer_eq := hpeer
    length_eq := by omega
    header_le := by omega
    length_le := by omega
    sequence_eq := hhdr.1
    id_eq := ?_ }, rfl, rfl⟩
  by_cases hid : (decodeUdpHeader packet).id = id
  · exact .inl hid
  · exact .inr (hhdr.2 hid)

theorem classify_of_isAnswer
    (hlen : packet.length = min result.transferred transport.receivePacket.length)
    (h : IsAnswer transport.peer transport.packetBytes id sequence result packet) :
    classify transport sequence id result packet ≠ .silence ∧
      ∀ detail, classify transport sequence id result packet ≠ .unrelated detail := by
  have hlen' := h.length_eq
  have hhdr := h.header_le
  have hpacket := h.length_le
  have hid : ¬ ((decodeUdpHeader packet).sequence ≠ sequence ∨
      ((decodeUdpHeader packet).id ≠ id ∧ (decodeUdpHeader packet).id ≠ .error)) := by
    rintro (hne | ⟨hne, hne'⟩)
    · exact hne h.sequence_eq
    · exact h.id_eq.elim hne hne'
  have hclass : classify transport sequence id result packet
      = classifyPacket transport sequence id result.transferred packet := by
    rw [classify, h.status_ok, if_neg (by decide), if_neg (by decide), if_neg (not_not.mpr h.peer_eq),
      if_neg (by decide)]
  rw [hclass, classifyPacket, if_neg (by omega), if_neg (by omega), if_neg (by omega), if_neg hid]
  split_ifs
  · exact ⟨nofun, nofun⟩
  · exact ⟨nofun, nofun⟩

end Classify

/-- What the receive loop leaves: nothing but datagrams that are no answers, and then an answer if
it returns one. -/
inductive Awaited (peer : UdpPeer) (packetBytes : ℕ) (id : UdpPacketId) (sequence : UInt16) :
    Option (UdpPacketHeader × Bytes) → List UdpEvent → Prop
  | silent {es : List UdpEvent} (received : ∀ datagram target result,
      .sent datagram target result ∉ es)
      (unanswered : ∀ e ∈ es, e.Unanswered peer packetBytes id sequence) :
      Awaited peer packetBytes id sequence none es
  | answered {before : List UdpEvent} {result : DatagramReceiveResult} {packet : Bytes}
      (received : ∀ datagram target result, .sent datagram target result ∉ before)
      (unanswered : ∀ e ∈ before, e.Unanswered peer packetBytes id sequence)
      (answer : IsAnswer peer packetBytes id sequence result packet) :
      Awaited peer packetBytes id sequence
        (some (decodeUdpHeader packet, packet.drop kFastbootUdpHeaderBytes))
        (before ++ [.received result packet])

variable {packetBytes : ℕ} {id : UdpPacketId} {peer : UdpPeer} {polls steps : List ExchangeStep}
  {es : List UdpEvent} {sequence : UInt16} {result : DatagramSendResult}

theorem Awaited.cons {answer : Option (UdpPacketHeader × Bytes)} {result : DatagramReceiveResult}
    {packet : Bytes} (h : Awaited peer packetBytes id sequence answer es)
    (hpass : ¬ IsAnswer peer packetBytes id sequence result packet) :
    Awaited peer packetBytes id sequence answer (.received result packet :: es) := by
  have hunans : (UdpEvent.received result packet).Unanswered peer packetBytes id sequence := by
    rintro _ _ ⟨⟩
    exact hpass
  cases h with
  | silent hrecv hes =>
      exact .silent (by simpa using hrecv) (forall_mem_cons.mpr ⟨hunans, hes⟩)
  | answered hrecv hes hans =>
      rw [← cons_append]
      exact .answered (by simpa using hrecv) (forall_mem_cons.mpr ⟨hunans, hes⟩) hans

theorem ignoreDatagram_yields (detail : String) (s : UdpState τ) :
    Yields UdpTraced (ignoreDatagram detail) s fun _ s' es => es = [] ∧ Kept s s' := by
  refine yields_updateLocals_bind (fun _ => rfl) (fun _ => rfl) fun s₁ _ hk₁ => ?_
  exact yields_get_bind (yields_ite (fun _ => yields_fail) fun _ =>
    yields_pure ⟨rfl, hk₁⟩)

theorem receiveLoop_yields (sequence : UInt16) (id : UdpPacketId) (operationDeadline : ℤ)
    (responseDeadline : ℤ) (fuel : ℕ) (s : UdpState τ) :
    Yields UdpTraced
      (receiveLoop env sequence id operationDeadline responseDeadline fuel) s
      fun answer s' es => Kept s s' ∧
        Awaited s.transport.peer s.transport.packetBytes id sequence answer es := by
  induction fuel generalizing s with
  | zero => exact yields_pure ⟨.refl s, .silent (by simp) (by simp)⟩
  | succ fuel ih =>
      unfold receiveLoop
      refine yields_ask_bind fun responseNow s₁ ht₁ hk₁ => ?_
      refine yields_ask_bind fun operationNow s₂ ht₂ hk₂ => yields_ite (fun _ => ?_) fun _ => ?_
      · exact yields_pure ⟨hk₁.trans hk₂, .silent (by simp) (by simp)⟩
      refine (receiveDatagram_yields _ s₂).bind ?_
      rintro ⟨result, packet⟩ s₃ es ht₃ ⟨rfl, hk₃, hlen⟩
      have hkept : Kept s s₃ := hk₁.trans (hk₂.trans hk₃)
      have ht := ht₁.trans (ht₂.trans ht₃)
      rw [← ht.peer_eq, ← ht.packetBytes_eq]
      refine yields_get_bind ?_
      cases hclass : classify s₃.transport sequence id result packet with
      | silence =>
          have hpass := fun h => (classify_of_isAnswer hlen h).1 hclass
          exact yields_pure ⟨hkept, Awaited.cons (.silent (by simp) (by simp)) hpass⟩
      | unrelated detail =>
          have hpass := fun h => (classify_of_isAnswer hlen h).2 detail hclass
          refine (ignoreDatagram_yields detail s₃).bind ?_
          rintro _ s₄ es ht₄ ⟨rfl, hk₄⟩
          refine (ih s₄).mono ?_
          rintro answer s₅ es ⟨hk₅, hawait⟩
          rw [ht₄.peer_eq, ht₄.packetBytes_eq] at hawait
          exact ⟨hkept.trans (hk₄.trans hk₅), hawait.cons hpass⟩
      | failure cancelled status detail truncated nativeError =>
          refine yields_ite (fun _ => ?_) fun _ => yields_fail
          exact yields_updateLocals_bind (fun _ => rfl) (fun _ => rfl) fun _ _ _ => yields_fail
      | response header payload =>
          obtain ⟨hans, rfl, rfl⟩ := isAnswer_of_classify hlen hclass
          exact yields_pure ⟨hkept, @Awaited.answered _ _ _ _ [] _ _ (by simp) (by simp) hans⟩

/-! ### Steps -/

/-- The calls of a step: its datagram, any number of times, and the first answer. -/
structure StepCalls (peer : UdpPeer) (packetBytes : ℕ) (id : UdpPacketId) (sequence : UInt16)
    (outbound : Bytes) (answer : UdpPacketHeader × Bytes) (es : List UdpEvent) : Prop where
  transmitted : ∃ result, .sent outbound peer result ∈ es
  retransmitted : ∀ datagram target result, .sent datagram target result ∈ es →
    datagram = outbound ∧ target = peer
  answered : ∃ before result packet, es = before ++ [.received result packet] ∧
    (∀ e ∈ before, e.Unanswered peer packetBytes id sequence) ∧
    IsAnswer peer packetBytes id sequence result packet ∧
    answer = (decodeUdpHeader packet, packet.drop kFastbootUdpHeaderBytes)

theorem unanswered_sent {datagram : Bytes} {target : UdpPeer} :
    (UdpEvent.sent datagram target result).Unanswered peer packetBytes id sequence := nofun

theorem StepCalls.of_awaited {outbound : Bytes} {answer : UdpPacketHeader × Bytes}
    (h : Awaited peer packetBytes id sequence (some answer) es) :
    StepCalls peer packetBytes id sequence outbound answer (.sent outbound peer result :: es) := by
  obtain _ | ⟨hrecv, hunans, hans⟩ := h
  refine ⟨⟨result, by simp⟩, ?_, ?_⟩
  · intro datagram target result' hmem
    rcases mem_cons.mp hmem with heq | hmem
    · cases heq
      exact ⟨rfl, rfl⟩
    · simp [hrecv] at hmem
  · refine ⟨.sent outbound peer result :: _, _, _, rfl, ?_, hans, rfl⟩
    exact forall_mem_cons.mpr ⟨unanswered_sent, hunans⟩

theorem StepCalls.retry {outbound : Bytes} {answer : UdpPacketHeader × Bytes}
    {es' : List UdpEvent} (h : StepCalls peer packetBytes id sequence outbound answer es')
    (hawait : Awaited peer packetBytes id sequence none es) :
    StepCalls peer packetBytes id sequence outbound answer
      (.sent outbound peer result :: (es ++ es')) := by
  obtain ⟨hrecv, hunans⟩ := hawait
  obtain ⟨before, result', packet, rfl, hbef, hans, heq⟩ := h.answered
  refine ⟨⟨result, by simp⟩, ?_, ?_⟩
  · intro datagram target result'' hmem
    rcases mem_cons.mp hmem with heq | hmem
    · cases heq
      exact ⟨rfl, rfl⟩
    · rcases mem_append.mp hmem with hmem | hmem
      · exact absurd hmem (hrecv _ _ _)
      · exact h.retransmitted _ _ _ hmem
  · refine ⟨.sent outbound peer result :: (es ++ before), result', packet, by simp, ?_, hans, heq⟩
    exact forall_mem_cons.mpr ⟨unanswered_sent, forall_mem_append.mpr ⟨hunans, hbef⟩⟩

theorem attemptLoop_yields (outbound : Bytes) (sequence : UInt16) (id : UdpPacketId)
    (operationDeadline : ℤ) (attempts : ℕ) (s : UdpState τ) :
    Yields UdpTraced (attemptLoop env outbound sequence id operationDeadline attempts) s
      fun answer s' es => Kept s s' ∧
        StepCalls s.transport.peer s.transport.packetBytes id sequence outbound answer es := by
  induction attempts generalizing s with
  | zero => exact yields_fail
  | succ attempts ih =>
      unfold attemptLoop
      refine (transmit_yields outbound operationDeadline s).bind ?_
      rintro _ s₁ es ht₁ ⟨hk₁, result, rfl⟩
      refine yields_get_bind (yields_ask_bind fun operationNow s₂ ht₂ hk₂ => ?_)
      refine yields_ask_bind fun started s₃ ht₃ hk₃ => ?_
      refine (receiveLoop_yields sequence id operationDeadline _ _ s₃).bind ?_
      rintro answer s₄ es ht₄ ⟨hk₄, hawait⟩
      have hkept : Kept s s₄ := hk₁.trans (hk₂.trans (hk₃.trans hk₄))
      have ht := ht₁.trans (ht₂.trans ht₃)
      rw [ht.peer_eq, ht.packetBytes_eq] at hawait
      cases answer with
      | some answer =>
          refine yields_pure ⟨hkept, ?_⟩
          rw [append_nil]
          exact .of_awaited hawait
      | none =>
          refine (expired_yields operationDeadline s₄).bind ?_
          rintro isExpired s₅ es' ht₅ ⟨rfl, hk₅⟩
          refine yields_ite (fun _ => yields_fail) fun _ => yields_ite (fun _ => yields_fail)
            fun _ => (ih s₅).mono ?_
          rintro answer s₆ es' ⟨hk₆, hcalls⟩
          have ht' := ht.trans (ht₄.trans ht₅)
          rw [ht'.peer_eq, ht'.packetBytes_eq] at hcalls
          exact ⟨hkept.trans (hk₅.trans hk₆), hcalls.retry hawait⟩

theorem acknowledge_yields (fragmentSize : ℕ) (accounted : Bool) (s : UdpState τ) :
    Yields UdpTraced (acknowledge fragmentSize accounted) s fun _ s' es => es = [] ∧
      s'.transport.nextSequence = s.transport.nextSequence + 1 ∧
      s'.locals.response = s.locals.response ∧
      s'.locals.acknowledgedRequestBytes
        = s.locals.acknowledgedRequestBytes + (if accounted then 0 else fragmentSize) := by
  have hmodify : Yields UdpTraced (modify fun s => { s with
        locals := { s.locals with unacknowledgedWireDatagram := false }
        transport := { s.transport with nextSequence := s.transport.nextSequence + 1 } } :
        UdpM τ Unit) s fun _ s' es => es = [] ∧
      s'.transport.nextSequence = s.transport.nextSequence + 1 ∧
      s'.locals.response = s.locals.response ∧
      s'.locals.acknowledgedRequestBytes = s.locals.acknowledgedRequestBytes :=
    ⟨[], ⟨(append_nil s.log).symm, rfl, rfl⟩, fun _ _ => ⟨rfl, rfl, rfl, rfl⟩⟩
  refine hmodify.bind ?_
  rintro _ s₁ es - ⟨rfl, hseq, hresp, hack⟩
  refine yields_ite (fun hnot => yields_get_bind (yields_ite (fun _ => ?_) fun _ => ?_)) fun h => ?_
  · exact yields_fail_bind
  · refine ⟨[], ⟨(append_nil s₁.log).symm, rfl, rfl⟩, fun _ _ => ⟨rfl, hseq, hresp, ?_⟩⟩
    rw [if_neg hnot, ← hack]
    rfl
  · refine yields_pure ⟨rfl, hseq, hresp, ?_⟩
    rw [if_pos (not_not.mp h), hack, add_zero]

theorem storeResponse_yields (id : UdpPacketId) (payload : Bytes) (limit : ℕ) (s : UdpState τ) :
    Yields UdpTraced (storeResponse id payload limit) s fun _ s' es => es = [] ∧
      s'.transport.nextSequence = s.transport.nextSequence ∧
      s'.locals.acknowledgedRequestBytes = s.locals.acknowledgedRequestBytes ∧
      (id ≠ .error → s'.locals.response = s.locals.response ++ payload ∧
        s'.locals.response.length ≤ limit) := by
  refine yields_get_bind (yields_ite (fun hid => ?_) fun hid => ?_)
  · refine yields_ite (fun _ => yields_fail_bind) fun _ => ?_
    exact ⟨[], ⟨(append_nil s.log).symm, rfl, rfl⟩,
      fun _ _ => ⟨rfl, rfl, rfl, fun hne => absurd hid hne⟩⟩
  · refine yields_ite (fun _ => yields_fail_bind) fun hsize => ?_
    refine ⟨[], ⟨(append_nil s.log).symm, rfl, rfl⟩, fun _ _ => ⟨rfl, rfl, rfl, fun _ => ?_⟩⟩
    refine ⟨rfl, ?_⟩
    change (s.locals.response ++ payload).length ≤ limit
    rw [length_append]
    omega

/-- The steps of a fragment: the first one carries the fragment, the others are empty. -/
structure FragmentSteps (limit : ℕ) (id : UdpPacketId) (flags : UInt8) (payload : Bytes)
    (acknowledged : ℕ) (s s' : UdpState τ) (es : List UdpEvent) (first : ExchangeStep)
    (polls : List ExchangeStep) : Prop where
  events_eq : es = (first :: polls).flatMap ExchangeStep.events
  path : Path (Advances s.transport.peer s.transport.packetBytes id) s.transport.nextSequence
    (first :: polls) s'.transport.nextSequence
  flags_eq : first.flags = flags
  payload_eq : first.payload = payload
  polls_empty : ∀ poll ∈ polls, poll.flags = UdpPacketFlag.none ∧ poll.payload = []
  response_eq : s'.locals.response
    = s.locals.response ++ (first :: polls).flatMap ExchangeStep.response
  response_le : s'.locals.response.length ≤ limit
  acknowledged_eq : s'.locals.acknowledgedRequestBytes
    = s.locals.acknowledgedRequestBytes + acknowledged

/-- The loop over the datagrams of a fragment never succeeds after an error packet, so that the
answers of all its steps carry the id of the exchange. -/
theorem fragmentLoop_yields (exchange : ExchangeRequest) (operationDeadline : ℤ)
    (fragmentSize fuel : ℕ) (id : UdpPacketId) (flags : UInt8) (payload : Bytes)
    (accounted : Bool) (s : UdpState τ) :
    Yields UdpTraced (fragmentLoop env exchange operationDeadline fragmentSize fuel id
      flags payload accounted) s fun _ s' es => id ≠ .error ∧ ∃ first polls,
        FragmentSteps exchange.responseLimit id flags payload
          (if accounted then 0 else fragmentSize) s s' es first polls := by
  induction fuel generalizing id flags payload accounted s with
  | zero => exact yields_throw
  | succ fuel ih =>
      unfold fragmentLoop
      refine yields_get_bind (yields_ite (fun _ => yields_fail_bind) fun hsize => ?_)
      refine (attemptLoop_yields _ s.transport.nextSequence id operationDeadline _ s).bind ?_
      rintro ⟨header, response⟩ s₁ es ht₁ ⟨hk₁, hcalls⟩
      refine (acknowledge_yields fragmentSize accounted s₁).bind ?_
      rintro _ s₂ _ ht₂ ⟨rfl, hseq₂, hresp₂, hack₂⟩
      refine (storeResponse_yields header.id response _ s₂).bind ?_
      rintro _ s₃ _ ht₃ ⟨rfl, hseq₃, hack₃, hstor⟩
      obtain ⟨before, result, packet, hes, hbef, hans, heq⟩ := hcalls.answered
      obtain ⟨rfl, rfl⟩ := Prod.mk.inj heq
      -- the step that has just been acknowledged, if its answer is not an error
      let step : ExchangeStep := ⟨flags, s.transport.nextSequence, payload,
        packet.drop kFastbootUdpHeaderBytes, es⟩
      have hstep : (decodeUdpHeader packet).id = id →
          Acknowledged s.transport.peer s.transport.packetBytes id step := fun hid =>
        ⟨not_lt.mp hsize, hcalls.transmitted, hcalls.retransmitted, before, result, packet,
          hes, hbef, hans, hid, rfl⟩
      have hnext : s₃.transport.nextSequence = s.transport.nextSequence + 1 := by
        rw [hseq₃, hseq₂, hk₁.nextSequence_eq]
      have hack : s₃.locals.acknowledgedRequestBytes
          = s.locals.acknowledgedRequestBytes + (if accounted then 0 else fragmentSize) := by
        rw [hack₃, hack₂, hk₁.acknowledged_eq]
      refine yields_ite (fun _ => ?_) fun _ => yields_ite (fun herr => ?_) fun hne => ?_
      · refine (ih (decodeUdpHeader packet).id UdpPacketFlag.none [] true s₃).mono ?_
        rintro _ s₄ es' ⟨hne, first, polls, h⟩
        obtain ⟨hresp₃, -⟩ := hstor hne
        have hid : (decodeUdpHeader packet).id = id := hans.id_eq.resolve_right hne
        rw [hid] at h hne
        refine ⟨hne, step, first :: polls, ?_⟩
        have hpath := h.path
        have ht := ht₁.trans (ht₂.trans ht₃)
        rw [hnext, ht.peer_eq, ht.packetBytes_eq] at hpath
        exact {
          events_eq := by
            rw [flatMap_cons, ← h.events_eq]
            rfl
          path := .cons ⟨hstep hid, rfl, rfl⟩ hpath
          flags_eq := rfl
          payload_eq := rfl
          polls_empty := forall_mem_cons.mpr ⟨⟨h.flags_eq, h.payload_eq⟩, h.polls_empty⟩
          response_eq := by
            rw [h.response_eq, hresp₃, hresp₂, hk₁.response_eq, append_assoc]
            rfl
          response_le := h.response_le
          acknowledged_eq := by rw [h.acknowledged_eq, hack, if_pos rfl, add_zero] }
      · refine yields_updateLocals_bind (fun _ => rfl) (fun _ => rfl) fun _ _ _ => ?_
        exact yields_get_bind yields_fail
      · obtain ⟨hresp₃, hle⟩ := hstor hne
        have hid : (decodeUdpHeader packet).id = id := hans.id_eq.resolve_right hne
        refine yields_pure ⟨hid ▸ hne, step, [], ?_⟩
        exact {
          events_eq := by simp [step]
          path := .cons ⟨hstep hid, rfl, rfl⟩ (hnext ▸ .nil _)
          flags_eq := rfl
          payload_eq := rfl
          polls_empty := by simp
          response_eq := by
            rw [hresp₃, hresp₂, hk₁.response_eq]
            simp [step]
          response_le := hle
          acknowledged_eq := hack }

/-! ### Requests -/

/-- The steps that carry the bytes of a request. -/
structure RequestSteps (limit : ℕ) (id : UdpPacketId) (request : Bytes) (s s' : UdpState τ)
    (es : List UdpEvent) (steps : List ExchangeStep) : Prop where
  events_eq : es = steps.flatMap ExchangeStep.events
  path : Path (Advances s.transport.peer s.transport.packetBytes id) s.transport.nextSequence
    steps s'.transport.nextSequence
  payload_eq : steps.flatMap ExchangeStep.payload = request
  flags : FlagsFollowRequest steps
  response_eq : s'.locals.response = s.locals.response ++ steps.flatMap ExchangeStep.response
  response_le : s'.locals.response.length ≤ limit
  acknowledged_eq : s'.locals.acknowledgedRequestBytes
    = s.locals.acknowledgedRequestBytes + request.length

theorem payload_polls (h : ∀ poll ∈ polls, poll.flags = UdpPacketFlag.none ∧ poll.payload = []) :
    polls.flatMap ExchangeStep.payload = [] :=
  flatMap_eq_nil_iff.mpr fun poll hpoll => (h poll hpoll).2

theorem flagsFollowRequest_polls {rest : List ExchangeStep}
    (h : ∀ poll ∈ polls, poll.flags = UdpPacketFlag.none ∧ poll.payload = [])
    (hrest : FlagsFollowRequest rest) : FlagsFollowRequest (polls ++ rest) := by
  induction polls with
  | nil => exact hrest
  | cons poll polls ih =>
      obtain ⟨⟨hflags, hpay⟩, hpolls⟩ := forall_mem_cons.mp h
      exact ⟨by rw [hflags, hpay]; rfl, ih hpolls⟩

/-- A fragment of a request, followed by the steps of the rest of the request. -/
theorem FragmentSteps.append {limit acknowledged : ℕ} {flags : UInt8}
    {payload request : Bytes} {s s₁ s' : UdpState τ} {es' : List UdpEvent}
    {first : ExchangeStep} {rest : List ExchangeStep}
    (h : FragmentSteps limit id flags payload acknowledged s s₁ es first polls)
    (htrc : UdpTraced s es s₁) (hrest : RequestSteps limit id request s₁ s' es' rest)
    (hflags : flags = if payload ≠ [] ∧ request ≠ [] then UdpPacketFlag.continuation
      else UdpPacketFlag.none) (hack : acknowledged = payload.length) :
    RequestSteps limit id (payload ++ request) s s' (es ++ es') (first :: polls ++ rest) where
  events_eq := by rw [h.events_eq, hrest.events_eq, flatMap_append]
  path := by
    have hpath := hrest.path
    rw [htrc.peer_eq, htrc.packetBytes_eq] at hpath
    exact h.path.append hpath
  payload_eq := by
    rw [flatMap_append, flatMap_cons, payload_polls h.polls_empty, hrest.payload_eq,
      h.payload_eq, append_nil]
  flags := by
    refine ⟨?_, flagsFollowRequest_polls h.polls_empty hrest.flags⟩
    change first.flags = if first.payload ≠ [] ∧ (polls ++ rest).flatMap ExchangeStep.payload ≠ []
      then UdpPacketFlag.continuation else UdpPacketFlag.none
    rw [flatMap_append, payload_polls h.polls_empty, nil_append, hrest.payload_eq,
      h.payload_eq, h.flags_eq, hflags]
  response_eq := by
    rw [hrest.response_eq, h.response_eq, append_assoc, flatMap_append]
  response_le := hrest.response_le
  acknowledged_eq := by
    rw [hrest.acknowledged_eq, h.acknowledged_eq, hack, length_append, add_assoc]

theorem FragmentSteps.request {limit acknowledged : ℕ} {flags : UInt8} {payload : Bytes}
    {s s' : UdpState τ} {first : ExchangeStep}
    (h : FragmentSteps limit id flags payload acknowledged s s' es first polls)
    (htrc : UdpTraced s es s') (hflags : flags = UdpPacketFlag.none)
    (hack : acknowledged = payload.length) :
    RequestSteps limit id payload s s' es (first :: polls) := by
  have hend : RequestSteps limit id [] s' s' [] [] :=
    ⟨rfl, .nil _, rfl, trivial, (append_nil _).symm, h.response_le, rfl⟩
  have hall := h.append htrc hend (by simpa using hflags) hack
  rwa [append_nil, append_nil, append_nil] at hall

/-- The request loop sends the bytes from `offset` on. -/
theorem requestLoop_yields (exchange : ExchangeRequest) (operationDeadline : ℤ)
    (rounds fuel offset : ℕ) (hfuel : exchange.request.length < offset + fuel)
    (hoff : offset < exchange.request.length ∨ offset = 0 ∧ exchange.request.length = 0)
    (s : UdpState τ) :
    Yields UdpTraced
      (requestLoop env exchange operationDeadline rounds fuel offset) s
      fun _ s' es => ∃ steps, RequestSteps exchange.responseLimit exchange.id
        (exchange.request.drop offset) s s' es steps := by
  induction fuel generalizing offset s with
  | zero => omega
  | succ fuel ih =>
      unfold requestLoop
      refine yields_get_bind ?_
      have hminimum : 4 < s.transport.packetBytes := lt_of_lt_of_le (by decide) s.transport.minimum_le
      have hhdr : kFastbootUdpHeaderBytes = 4 := rfl
      dsimp only
      generalize hsize : min (exchange.request.length - offset)
        (s.transport.packetBytes - kFastbootUdpHeaderBytes) = fragmentSize
      have hpay : (slice exchange.request offset fragmentSize).length = fragmentSize :=
        length_slice (by omega)
      have hsplit : exchange.request.drop offset = slice exchange.request offset fragmentSize
          ++ exchange.request.drop (offset + fragmentSize) := by
        rw [slice, ← drop_drop, take_append_drop]
      refine (fragmentLoop_yields exchange operationDeadline fragmentSize rounds exchange.id _ _
        false s).bind ?_
      rintro _ s₁ es ht₁ ⟨-, first, polls, h⟩
      refine yields_ite (fun hmore => ?_) fun hlast => ?_
      · refine (ih (offset + fragmentSize) (by omega) (.inl hmore) s₁).mono ?_
        rintro _ s' es' ⟨steps, hsteps⟩
        refine ⟨_, hsplit ▸ h.append ht₁ hsteps ?_ hpay.symm⟩
        -- more of the request follows, so the fragment is not empty
        have hne : slice exchange.request offset fragmentSize ≠ [] :=
          ne_nil_of_length_pos (by omega)
        have hrest : exchange.request.drop (offset + fragmentSize) ≠ [] :=
          ne_nil_of_length_pos (by rw [length_drop]; omega)
        rw [if_pos ⟨hne, hrest⟩, fragmentFlags, if_pos (by omega)]
      · refine yields_pure ⟨first :: polls, ?_⟩
        have hrest : exchange.request.drop (offset + fragmentSize) = [] :=
          drop_eq_nil_of_le (by omega)
        rw [hsplit, hrest, append_nil, append_nil]
        refine h.request ht₁ ?_ hpay.symm
        rw [fragmentFlags, if_neg (by omega)]

/-! ### The exchange -/

/-- Everything that a successful exchange has sent and received. -/
structure ReliableExchange (exchange : ExchangeRequest) (s s' : UdpState τ)
    (outcome : ExchangeOutcome) (steps : List ExchangeStep) : Prop where
  log_eq : s'.log = s.log ++ steps.flatMap ExchangeStep.events
  acknowledged : ∀ step ∈ steps,
    Acknowledged s.transport.peer s.transport.packetBytes exchange.id step
  request_eq : steps.flatMap ExchangeStep.payload = exchange.request
  flags : FlagsFollowRequest steps
  sequence_eq : ∀ i step, steps[i]? = some step →
    step.sequence = s.transport.nextSequence + UInt16.ofNat i
  nextSequence_eq : s'.transport.nextSequence
    = s.transport.nextSequence + UInt16.ofNat steps.length
  response_eq : outcome.response = steps.flatMap ExchangeStep.response
  response_le : outcome.responseBytes ≤ exchange.responseLimit
  request_acknowledged : outcome.acknowledgedRequestBytes = exchange.request.length

theorem Path.acknowledged {start next : UInt16}
    (h : Path (Advances peer packetBytes id) start steps next) :
    ∀ step ∈ steps, Acknowledged peer packetBytes id step := by
  induction h with
  | nil => simp
  | cons hstep _ ih => exact forall_mem_cons.mpr ⟨hstep.1, ih⟩

theorem UInt16.add_one_add_ofNat (a : UInt16) (n : ℕ) :
    a + 1 + UInt16.ofNat n = a + UInt16.ofNat (n + 1) := by
  rw [UInt16.ofNat_add, UInt16.add_assoc, UInt16.add_comm 1]
  rfl

theorem Path.next_eq {start next : UInt16}
    (h : Path (Advances peer packetBytes id) start steps next) :
    next = start + UInt16.ofNat steps.length := by
  induction h with
  | nil start => simp
  | cons hstep _ ih => rw [ih, hstep.2.2, UInt16.add_one_add_ofNat, length_cons]

theorem Path.sequence_eq {start next : UInt16}
    (h : Path (Advances peer packetBytes id) start steps next) (i : ℕ) (step : ExchangeStep)
    (hi : steps[i]? = some step) : step.sequence = start + UInt16.ofNat i := by
  induction h generalizing i with
  | nil start => simp at hi
  | cons hstep _ ih =>
      cases i with
      | zero =>
          obtain rfl : _ = step := Option.some.inj hi
          rw [hstep.2.1]
          simp
      | succ i =>
          rw [ih i hi, hstep.2.2, UInt16.add_one_add_ofNat]

theorem exchangeLoops_yields (exchange : ExchangeRequest) (operationDeadline : ℤ) (rounds : ℕ)
    (s : UdpState τ) :
    Yields UdpTraced (exchangeLoops env exchange operationDeadline rounds) s
      fun outcome s' es => outcome.response = s'.locals.response ∧
        outcome.acknowledgedRequestBytes = s'.locals.acknowledgedRequestBytes ∧
        ∃ steps, RequestSteps exchange.responseLimit exchange.id exchange.request s s' es steps := by
  refine (requestLoop_yields exchange operationDeadline rounds (exchange.request.length + 1) 0
    (by omega) (by omega) s).bind ?_
  rintro _ s' es - ⟨steps, hsteps⟩
  refine yields_get_bind (yields_pure ⟨rfl, rfl, steps, ?_⟩)
  rwa [append_nil]

theorem failedOutcome_yields (requestSize : ℕ) (stop : ExchangeStop) (s : UdpState τ) :
    Yields UdpTraced (failedOutcome requestSize stop) s fun outcome _ _ =>
      outcome.success = false := by
  refine yields_get_bind ?_
  cases stop with
  | outOfRounds => exact yields_throw
  | failed status detail poison truncated nativeError => exact yields_pure rfl

theorem exchangeMessage_yields (exchange : ExchangeRequest) (responseSize : ℕ) (timeout : ℤ)
    (rounds : ℕ) (s : UdpState τ) :
    Yields UdpTraced (exchangeMessage env exchange responseSize timeout rounds) s
      fun outcome s' es => UdpTraced s es s' → outcome.success = true →
        ∃ steps, ReliableExchange exchange s s' outcome steps := by
  have hreset : Yields UdpTraced (updateLocals fun _ => {} : UdpM τ Unit) s fun _ s' es =>
      es = [] ∧ s'.transport = s.transport ∧ s'.locals = {} :=
    ⟨[], ⟨(append_nil s.log).symm, rfl, rfl⟩, fun _ _ => ⟨rfl, rfl, rfl⟩⟩
  refine hreset.bind ?_
  rintro _ s₁ es - ⟨rfl, htrsp, hlocs⟩
  refine yields_get_bind (yields_ite (fun _ => ?_) fun _ => yields_ite (fun _ => ?_) fun _ => ?_)
  · exact yields_pure (by simp)
  · exact yields_pure (by simp)
  refine yields_ask_bind fun cancelled s₂ ht₂ hk₂ => yields_ite (fun _ => ?_) fun _ => ?_
  · exact yields_pure (by simp)
  refine yields_ask_bind fun started s₃ ht₃ hk₃ => ?_
  refine (expired_yields _ s₃).bind ?_
  rintro isExpired s₄ es ht₄ ⟨rfl, hk₄⟩
  refine yields_ite (fun _ => ?_) fun _ => yields_ask_bind fun allocated s₅ ht₅ hk₅ => ?_
  · exact yields_pure (by simp)
  refine yields_ite (fun _ => ?_) fun _ => ?_
  · exact yields_pure (by simp)
  refine (exchangeLoops_yields exchange _ rounds s₅).tryCatch ?_ ?_
  · intro outcome s' es h a ha htrc _
    cases ha
    obtain ⟨hresp, hack, steps, hsteps⟩ := h _ rfl
    have hkept : Kept s₁ s₅ := hk₂.trans (hk₃.trans (hk₄.trans hk₅))
    have ht := ht₂.trans (ht₃.trans (ht₄.trans ht₅))
    have hpath := hsteps.path
    rw [ht.peer_eq, ht.packetBytes_eq, hkept.nextSequence_eq, htrsp] at hpath
    refine ⟨steps, {
      log_eq := hsteps.events_eq ▸ htrc.log_eq
      acknowledged := Path.acknowledged hpath
      request_eq := hsteps.payload_eq
      flags := hsteps.flags
      sequence_eq := Path.sequence_eq hpath
      nextSequence_eq := Path.next_eq hpath
      response_eq := ?_
      response_le := ?_
      request_acknowledged := ?_ }⟩
    · rw [hresp, hsteps.response_eq, hkept.response_eq, hlocs, nil_append]
    · rw [ExchangeOutcome.responseBytes, hresp]
      exact hsteps.response_le
    · rw [hack, hsteps.acknowledged_eq, hkept.acknowledged_eq, hlocs, zero_add]
  · intro stop s' es _
    refine (failedOutcome_yields exchange.request.length stop s').mono ?_
    intro outcome _ _ hfail _ hsucc
    cases hfail.symm.trans hsucc

/-- Whatever the network does, a successful exchange consists of acknowledged steps with consecutive
sequence numbers, whose payloads are the request and whose answers are the response. -/
theorem udp_exchange_reliable (env : UdpEnvironment τ) (exchange : ExchangeRequest)
    (responseSize : ℕ) (timeout : ℤ) (rounds : ℕ) (s : UdpState τ) (outcome : ExchangeOutcome)
    (hrun : (exec (exchangeMessage env exchange responseSize timeout rounds) s).1
      = .ok outcome) (hsuccess : outcome.success = true) :
    ∃ steps, ReliableExchange exchange s
      (exec (exchangeMessage env exchange responseSize timeout rounds) s).2 outcome
      steps := by
  have hyields : Yields UdpTraced (exchangeMessage env exchange responseSize timeout rounds)
      s _ := exchangeMessage_yields exchange responseSize timeout rounds s
  obtain ⟨es, htraced, h⟩ := hyields
  exact h outcome hrun htraced hsuccess

/-- A network that delivers the given datagrams, one a receive, and then nothing. -/
def scriptedNetwork : UdpEnvironment (List (DatagramReceiveResult × Bytes)) where
  now world := (0, world)
  stopRequested world := (false, world)
  allocate world := (true, world)
  sendDatagram datagram _ _ world := ({ transferred := datagram.length }, world)
  receiveDatagram _ _ world := (world.headD ({ status := .timeout }, []), world.tail)
  close world := world

def scriptedPeer : UdpPeer where
  port := 5554

/-- A datagram of the peer with the given header and payload. -/
def scriptedDatagram (header : UdpPacketHeader) (payload : Bytes) : DatagramReceiveResult × Bytes :=
  ({ transferred := (encodeUdpHeader header ++ payload).length, peer := scriptedPeer },
    encodeUdpHeader header ++ payload)

/-- A datagram of a stranger, a loss, a datagram with a stale sequence number, and then a response
in two datagrams. -/
def scriptedExchange : UdpState (List (DatagramReceiveResult × Bytes)) where
  world := [({ transferred := 4 }, [3, 0, 0, 7]), ({ status := .timeout }, []),
    scriptedDatagram ⟨.fastboot, UdpPacketFlag.none, 6⟩ [1],
    scriptedDatagram ⟨.fastboot, UdpPacketFlag.continuation, 7⟩ [79, 75],
    scriptedDatagram ⟨.fastboot, UdpPacketFlag.none, 8⟩ [65, 89]]
  transport := {
    peer := scriptedPeer
    options := {}
    receivePacket := List.replicate 16 0
    nextSequence := 7
    minimum_le := le_refl _ }

theorem scriptedExchange_reliable :
    let program := exchangeMessage scriptedNetwork ⟨.fastboot, [103, 101, 116], 16, 3⟩ 16 1000 10
    let outcome : ExchangeOutcome := {
      acknowledgedRequestBytes := 3, response := [79, 75, 65, 89], success := true }
    (exec program scriptedExchange).1 = .ok outcome ∧
      ∃ steps, ReliableExchange ⟨.fastboot, [103, 101, 116], 16, 3⟩ scriptedExchange
        (exec program scriptedExchange).2 outcome steps := by
  intro program outcome
  have hrun : (exec program scriptedExchange).1 = .ok outcome := by decide +kernel
  exact ⟨hrun, udp_exchange_reliable _ _ _ _ _ _ _ hrun rfl⟩

end UdpFastbootTransport

end KairosBoot
