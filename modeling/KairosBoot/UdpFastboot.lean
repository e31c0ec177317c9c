import KairosBoot.ByteSlices
import KairosBoot.Deadlines
import KairosBoot.FastbootResponse
import KairosBoot.Outcomes

/-! # Fastboot over UDP

`UdpFastbootTransport` of `udp_fastboot.cpp`.  The socket, the clock, the stop tokens and the
allocator are a `UdpEnvironment` over a state of its own type; a theorem about every environment is
one about every network.  The state of a run holds the members of the transport, the local
variables of `exchange_message` and a log of the datagrams sent and received, which the theorems
speak about.

Loops that the source bounds are structural: the receive loop by the number of datagrams that may
be ignored, the transmission loop by the number of attempts, the request loop by the length of the
request.  The loop that polls for the rest of a response is bounded by the deadline only; its runs
take a number of rounds as `fuel`, and a run that needs more ends with `outOfRounds`. -/

namespace KairosBoot

open ByteLib Outcomes

def kMaximumIgnoredDatagrams : ℕ := 64
def kMaximumErrorTextBytes : ℕ := 1024
def kFastbootUdpMinimumPacketBytes : ℕ := 512
def kFastbootUdpHostMaximumPacketBytes : ℕ := 8192
def kFastbootUdpHeaderBytes : ℕ := 4

/-! ### Packets -/

/-- `UdpPacketId`, an enumeration over a byte: a received packet may hold any value of it. -/
structure UdpPacketId where
  code : UInt8
  deriving DecidableEq, Repr

namespace UdpPacketId

def error : UdpPacketId := ⟨0x00⟩
def fastboot : UdpPacketId := ⟨0x03⟩

end UdpPacketId

namespace UdpPacketFlag

def none : UInt8 := 0x00
def continuation : UInt8 := 0x01

end UdpPacketFlag

structure UdpPacketHeader where
  id : UdpPacketId := .error
  flags : UInt8 := 0
  sequence : UInt16 := 0
  deriving DecidableEq, Repr

/-- `encode_udp_header`. -/
def encodeUdpHeader (header : UdpPacketHeader) : Bytes :=
  [header.id.code, header.flags, UInt8.ofNat (header.sequence.toNat / 256),
    UInt8.ofNat (header.sequence.toNat % 256)]

/-- `decode_udp_header`, of the first four bytes of a packet. -/
def decodeUdpHeader (bytes : Bytes) : UdpPacketHeader where
  id := ⟨bytes.getD 0 0⟩
  flags := bytes.getD 1 0
  sequence := UInt16.ofNat ((bytes.getD 2 0).toNat * 256 + (bytes.getD 3 0).toNat)

/-! ### The outside of a transport -/

inductive UdpAddressFamily where
  | ipv4 | ipv6
  deriving DecidableEq, Repr

structure UdpPeer where
  family : UdpAddressFamily := .ipv4
  address : Bytes := List.replicate 16 0
  port : UInt16 := 0
  scopeId : UInt32 := 0
  deriving DecidableEq, Repr

inductive DatagramIoStatus where
  | ok | timeout | cancelled | truncated | error
  deriving DecidableEq, Repr

structure DatagramSendResult where
  status : DatagramIoStatus := .ok
  transferred : ℕ := 0
  nativeError : ℤ := 0
  detail : String := ""
  deriving DecidableEq, Repr

structure DatagramReceiveResult where
  status : DatagramIoStatus := .ok
  transferred : ℕ := 0
  peer : UdpPeer := {}
  nativeError : ℤ := 0
  detail : String := ""
  deriving DecidableEq, Repr

/-- The socket, the clock (`now`), the stop tokens (`stopRequested`) and the allocator.  A receive
returns its result and the bytes it has stored in the buffer. -/
structure UdpEnvironment (τ : Type) where
  now : τ → ℤ × τ
  stopRequested : τ → Bool × τ
  allocate : τ → Bool × τ
  sendDatagram : Bytes → UdpPeer → ℤ → τ → DatagramSendResult × τ
  receiveDatagram : ℕ → ℤ → τ → (DatagramReceiveResult × Bytes) × τ
  close : τ → τ

/-- A datagram that was handed to the socket, or taken from it; `packet` is what the receive buffer
holds up to the reported length. -/
inductive UdpEvent where
  | sent (datagram : Bytes) (peer : UdpPeer) (result : DatagramSendResult)
  | received (result : DatagramReceiveResult) (packet : Bytes)
  | closed
  deriving DecidableEq, Repr

structure UdpTransportOptions where
  connectTimeout : ℤ := 5000
  queryTimeout : ℤ := 2000
  initializationTimeout : ℤ := 60000
  retransmitInterval : ℤ := 500
  hostMaxPacketBytes : ℕ := kFastbootUdpHostMaximumPacketBytes
  queryAttempts : ℕ := 4
  transmissionAttempts : ℕ := 120
  deriving DecidableEq, Repr

/-- The members of a transport.  The negotiated packet size is never below the protocol's minimum,
so that a packet always has room for a payload. -/
structure UdpTransport where
  peer : UdpPeer
  options : UdpTransportOptions
  receivePacket : Bytes
  nextSequence : UInt16 := 0
  packetBytes : ℕ := kFastbootUdpMinimumPacketBytes
  isOpen : Bool := true
  poisoned : Bool := false
  minimum_le : kFastbootUdpMinimumPacketBytes ≤ packetBytes := by decide

/-- The local variables of `exchange_message` that its failures look at. -/
structure ExchangeLocals where
  anyWireDatagram : Bool := false
  unacknowledgedWireDatagram : Bool := false
  ignoredDatagrams : ℕ := 0
  targetErrorText : Bytes := []
  acknowledgedRequestBytes : ℕ := 0
  response : Bytes := []
  cancelled : Bool := false
  targetError : Bool := false

structure UdpState (τ : Type) where
  world : τ
  transport : UdpTransport
  locals : ExchangeLocals := {}
  log : List UdpEvent := []

structure ExchangeOutcome where
  status : TransportStatus := .ok
  certainty : TransferCertainty := .fullyTransferred
  acknowledgedRequestBytes : ℕ := 0
  response : Bytes := []
  success : Bool := false
  truncated : Bool := false
  targetError : Bool := false
  cancelled : Bool := false
  poison : Bool := false
  nativeError : ℤ := 0
  detail : String := ""
  deriving DecidableEq, Repr

/-- The number of bytes in the response buffer. -/
def ExchangeOutcome.responseBytes (outcome : ExchangeOutcome) : ℕ := outcome.response.length

/-- The arguments of `fail`, or the end of the rounds of a run. -/
inductive ExchangeStop where
  | failed (status : TransportStatus) (detail : String) (poison truncated : Bool) (nativeError : ℤ)
  | outOfRounds
  deriving DecidableEq, Repr

abbrev UdpM (τ : Type) := Prog (UdpState τ) ExchangeStop

namespace UdpFastbootTransport

variable {τ ρ α : Type} (env : UdpEnvironment τ)

/-- Ask the clock, a stop token or the allocator. -/
def ask (call : τ → ρ × τ) : UdpM τ ρ :=
  step fun s => ((call s.world).1, { s with world := (call s.world).2 })

def now : UdpM τ ℤ := ask env.now

def updateLocals (f : ExchangeLocals → ExchangeLocals) : UdpM τ Unit :=
  modify fun s => { s with locals := f s.locals }

/-- `fail`. -/
def fail (status : TransportStatus) (detail : String) (poison : Bool) (truncated : Bool := false)
    (nativeError : ℤ := 0) : UdpM τ α :=
  throw (.failed status detail poison truncated nativeError)

/-- `transport_status`. -/
def transportStatus : DatagramIoStatus → TransportStatus
  | .timeout => .timeout
  | .cancelled => .cancelled
  | .truncated | .error | .ok => .ioError

/-- `datagram_failure_detail`. -/
def datagramFailureDetail (status : DatagramIoStatus) (operation nativeDetail : String) : String :=
  operation ++
    (match status with
      | .timeout => " timed out"
      | .cancelled => " was cancelled"
      | .truncated => " was truncated"
      | .error => " failed"
      | .ok => "") ++
    (if nativeDetail = "" then "" else ": " ++ nativeDetail)

/-- `operation_deadline.expired()`. -/
def expired (deadline : ℤ) : UdpM τ Bool := do
  return deadlineExpiredAt deadline (← now env)

/-! ### Sending -/

/-- Hand a datagram to the socket. -/
def sendDatagram (datagram : Bytes) (timeout : ℤ) : UdpM τ DatagramSendResult :=
  step fun s =>
    let sent := env.sendDatagram datagram s.transport.peer timeout s.world
    (sent.1, { s with world := sent.2, log := s.log ++ [.sent datagram s.transport.peer sent.1] })

/-- A datagram may have reached the wire. -/
def markWire : UdpM τ Unit :=
  updateLocals fun l => { l with anyWireDatagram := true, unacknowledgedWireDatagram := true }

/-- The part of an attempt that sends the datagram. -/
def transmit (outbound : Bytes) (operationDeadline : ℤ) : UdpM τ Unit := do
  if (← ask env.stopRequested) then do
    updateLocals fun l => { l with cancelled := true }
    fail .cancelled "Fastboot UDP exchange was cancelled" true
  if (← expired env operationDeadline) then do
    let s ← get
    fail .timeout "Fastboot UDP operation deadline expired" s.locals.anyWireDatagram
  let time ← now env
  let sent ← sendDatagram env outbound (deadlineRemaining operationDeadline time)
  if outbound.length < sent.transferred then do
    markWire
    fail .ioError "UDP socket reported sending more bytes than requested" true
  if sent.status ≠ .ok ∨ sent.transferred ≠ outbound.length then do
    updateLocals fun l => { l with cancelled := sent.status = .cancelled }
    if sent.transferred ≠ 0 then markWire
    fail (transportStatus sent.status)
      (datagramFailureDetail sent.status "sending Fastboot UDP datagram" sent.detail)
      (sent.transferred ≠ 0 ∨ sent.status = .cancelled ∨ sent.status = .truncated)
      false sent.nativeError
  markWire

/-! ### Receiving -/

/-- Take a datagram from the socket into the receive buffer.  The value is the result and the part
of the buffer up to the reported length. -/
def receiveDatagram (wait : ℤ) : UdpM τ (DatagramReceiveResult × Bytes) :=
  step fun s =>
    let size := s.transport.receivePacket.length
    let received := env.receiveDatagram size wait s.world
    let buffer := overwrite s.transport.receivePacket 0 (received.1.2.take size)
    let packet := buffer.take received.1.1.transferred
    ((received.1.1, packet),
      { s with
        world := received.2
        transport := { s.transport with receivePacket := buffer }
        log := s.log ++ [.received received.1.1 packet] })

/-- Ignore a datagram, unless too many have been ignored. -/
def ignoreDatagram (detail : String) : UdpM τ Unit := do
  updateLocals fun l => { l with ignoredDatagrams := l.ignoredDatagrams + 1 }
  let s ← get
  if kMaximumIgnoredDatagrams < s.locals.ignoredDatagrams then fail .ioError detail true

/-- What the receive loop makes of a datagram. -/
inductive Reception where
  /-- nothing has arrived in time -/
  | silence
  /-- a datagram that is none of the exchange's business -/
  | unrelated (detail : String)
  /-- the exchange fails -/
  | failure (cancelled : Bool) (status : TransportStatus) (detail : String) (truncated : Bool)
      (nativeError : ℤ)
  /-- a response, with its payload -/
  | response (header : UdpPacketHeader) (payload : Bytes)
  deriving DecidableEq, Repr

/-- The checks of the receive loop on a datagram of the peer, in their order. -/
def classifyPacket (transport : UdpTransport) (sequence : UInt16) (packetId : UdpPacketId)
    (transferred : ℕ) (packet : Bytes) : Reception :=
  let header := decodeUdpHeader packet
  if transport.receivePacket.length < transferred then
    .failure false .ioError "UDP socket reported receiving more bytes than requested" true 0
  else if transferred < kFastbootUdpHeaderBytes then
    .failure false .ioError "Fastboot UDP datagram has a truncated header" true 0
  else if transport.packetBytes < transferred then
    .failure false .ioError "Fastboot UDP datagram exceeds the negotiated packet size" true 0
  else if header.sequence ≠ sequence ∨ (header.id ≠ packetId ∧ header.id ≠ .error) then
    .unrelated "too many out-of-order or unrelated Fastboot UDP datagrams"
  else if header.flags &&& ~~~UdpPacketFlag.continuation ≠ 0 then
    .failure false .ioError "Fastboot UDP response contains unknown flag bits" false 0
  else .response header (packet.drop kFastbootUdpHeaderBytes)

def receiveFailure (received : DatagramReceiveResult) (truncated : Bool) : Reception :=
  .failure (received.status = .cancelled) (transportStatus received.status)
    (datagramFailureDetail received.status "receiving Fastboot UDP datagram" received.detail)
    truncated received.nativeError

/-- The checks of the receive loop on the result of a receive, in their order. -/
def classify (transport : UdpTransport) (sequence : UInt16) (packetId : UdpPacketId)
    (received : DatagramReceiveResult) (packet : Bytes) : Reception :=
  if received.status = .timeout then .silence
  else if received.status = .cancelled ∨ received.status = .error then
    receiveFailure received false
  else if received.peer ≠ transport.peer then
    .unrelated "too many UDP datagrams arrived from an unexpected peer"
  else if received.status ≠ .ok then receiveFailure received (received.status = .truncated)
  else classifyPacket transport sequence packetId received.transferred packet

/-- The receive loop of an attempt.  A round that does not end the loop ignores a datagram, so
`fuel` is the number of datagrams that may still be ignored. -/
def receiveLoop (sequence : UInt16) (packetId : UdpPacketId)
    (operationDeadline responseDeadline : ℤ) : ℕ → UdpM τ (Option (UdpPacketHeader × Bytes))
  | 0 => pure none
  | fuel + 1 => do
      let responseNow ← now env
      let operationNow ← now env
      let wait := boundedWait operationDeadline (deadlineRemaining responseDeadline responseNow)
        operationNow
      if wait ≤ 0 then pure none
      else do
        let received ← receiveDatagram env wait
        let s ← get
        match classify s.transport sequence packetId received.1 received.2 with
        | .silence => pure none
        | .unrelated detail => do
            ignoreDatagram detail
            receiveLoop sequence packetId operationDeadline responseDeadline fuel
        | .failure cancelled status detail truncated nativeError => do
            if received.1.status = .cancelled ∨ received.1.status = .error then
              updateLocals fun l => { l with cancelled := cancelled }
            fail status detail true truncated nativeError
        | .response header payload => pure (some (header, payload))

/-- The transmission loop: the number of attempts left, at least one. -/
def attemptLoop (outbound : Bytes) (sequence : UInt16) (packetId : UdpPacketId)
    (operationDeadline : ℤ) : ℕ → UdpM τ (UdpPacketHeader × Bytes)
  | 0 => fail .timeout "Fastboot UDP peer did not provide a matching response" true
  | attempts + 1 => do
      transmit env outbound operationDeadline
      let s ← get
      let operationNow ← now env
      let started ← now env
      let responseDeadline := deadlineFrom started
        (boundedWait operationDeadline s.transport.options.retransmitInterval operationNow)
      match ← receiveLoop env sequence packetId operationDeadline responseDeadline
          (kMaximumIgnoredDatagrams + 1) with
      | some response => pure response
      | none => do
          if (← expired env operationDeadline) then
            fail .timeout "Fastboot UDP operation deadline expired awaiting a response" true
          else if attempts = 0 then
            fail .timeout "Fastboot UDP peer did not respond within the retransmission limit" true
          else attemptLoop outbound sequence packetId operationDeadline attempts

/-! ### Exchanges -/

/-- Account for an acknowledged datagram: the sequence number advances, and the fragment counts as
acknowledged with its first datagram. -/
def acknowledge (fragmentSize : ℕ) (accounted : Bool) : UdpM τ Unit := do
  modify fun s => { s with
    locals := { s.locals with unacknowledgedWireDatagram := false }
    transport := { s.transport with nextSequence := s.transport.nextSequence + 1 } }
  if ¬ accounted then do
    let s ← get
    if 2 ^ 64 ≤ s.locals.acknowledgedRequestBytes + fragmentSize then
      fail .ioError "Fastboot UDP acknowledged-byte count overflowed" true
    updateLocals fun l =>
      { l with acknowledgedRequestBytes := l.acknowledgedRequestBytes + fragmentSize }

/-- Store the payload of a response, or the text of an error. -/
def storeResponse (id : UdpPacketId) (payload : Bytes) (responseLimit : ℕ) : UdpM τ Unit := do
  let s ← get
  if id = .error then do
    if kMaximumErrorTextBytes - s.locals.targetErrorText.length < payload.length then
      fail .ioError "Fastboot UDP target error text exceeds the bounded limit" true true
    updateLocals fun l => { l with targetErrorText := l.targetErrorText ++ payload }
  else do
    if 2 ^ 64 ≤ s.locals.response.length + payload.length ∨
        responseLimit < s.locals.response.length + payload.length then
      fail .ioError "Fastboot UDP response exceeds the allowed logical size" true true
    updateLocals fun l => { l with response := l.response ++ payload }

def failTargetError : UdpM τ α := do
  updateLocals fun l => { l with targetError := true }
  let s ← get
  fail .ioError ("Fastboot UDP target reported an error" ++
    (if s.locals.targetErrorText = [] then ""
      else ": " ++ bytesToString s.locals.targetErrorText)) true

/-- What an exchange is asked for. -/
structure ExchangeRequest where
  id : UdpPacketId
  request : Bytes
  responseLimit : ℕ
  maxAttempts : ℕ

/-- The loop over the datagrams of a fragment: the fragment itself, and empty datagrams as long as
the target announces more of its response. -/
def fragmentLoop (exchange : ExchangeRequest) (operationDeadline : ℤ) (fragmentSize : ℕ) :
    ℕ → UdpPacketId → UInt8 → Bytes → Bool → UdpM τ Unit
  | 0, _, _, _, _ => throw .outOfRounds
  | fuel + 1, packetId, packetFlags, packetPayload, accounted => do
      let s ← get
      let sequence := s.transport.nextSequence
      let outbound := encodeUdpHeader ⟨packetId, packetFlags, sequence⟩ ++ packetPayload
      if s.transport.packetBytes < outbound.length then
        fail .ioError "outbound Fastboot UDP datagram exceeds the negotiated packet size" true
      let response ← attemptLoop env outbound sequence packetId operationDeadline
        exchange.maxAttempts
      acknowledge fragmentSize accounted
      storeResponse response.1.id response.2 exchange.responseLimit
      if response.1.flags &&& UdpPacketFlag.continuation ≠ 0 then
        fragmentLoop exchange operationDeadline fragmentSize fuel response.1.id UdpPacketFlag.none
          [] true
      else if response.1.id = .error then failTargetError
      else pure ()

/-- The flags of a fragment after which a number of request bytes remain. -/
def fragmentFlags (bytesAfter : ℕ) : UInt8 :=
  if 0 < bytesAfter then UdpPacketFlag.continuation else UdpPacketFlag.none

/-- The loop over the fragments of the request, which runs once for an empty request.  Every
fragment but that of an empty request takes a byte, so `fuel` is one more than the bytes left. -/
def requestLoop (exchange : ExchangeRequest) (operationDeadline : ℤ) (rounds : ℕ) :
    ℕ → ℕ → UdpM τ Unit
  | 0, _ => pure ()
  | fuel + 1, offset => do
      let s ← get
      let maximumPayload := s.transport.packetBytes - kFastbootUdpHeaderBytes
      let remaining := exchange.request.length - offset
      let fragmentSize := min remaining maximumPayload
      fragmentLoop env exchange operationDeadline fragmentSize rounds exchange.id
        (fragmentFlags (remaining - fragmentSize)) (slice exchange.request offset fragmentSize)
        false
      if offset + fragmentSize < exchange.request.length then
        requestLoop exchange operationDeadline rounds fuel (offset + fragmentSize)
      else pure ()

/-- `set_certainty`. -/
def exchangeCertainty (locals : ExchangeLocals) (requestSize : ℕ) : TransferCertainty :=
  if ¬ locals.anyWireDatagram then .notTransferred
  else if ¬ locals.unacknowledgedWireDatagram ∧ locals.acknowledgedRequestBytes = requestSize then
    .fullyTransferred
  else .partialOrUnknown

def failedOutcome (requestSize : ℕ) (stop : ExchangeStop) : UdpM τ ExchangeOutcome := do
  let s ← get
  match stop with
  | .outOfRounds => throw .outOfRounds
  | .failed status detail poison truncated nativeError =>
      pure {
        status := status
        certainty := exchangeCertainty s.locals requestSize
        acknowledgedRequestBytes := s.locals.acknowledgedRequestBytes
        response := s.locals.response
        truncated := truncated
        targetError := s.locals.targetError
        cancelled := s.locals.cancelled
        poison := poison
        nativeError := nativeError
        detail := detail }

/-- The loops of `exchange_message` and the outcome of a successful exchange. -/
def exchangeLoops (exchange : ExchangeRequest) (operationDeadline : ℤ) (rounds : ℕ) :
    UdpM τ ExchangeOutcome := do
  requestLoop env exchange operationDeadline rounds (exchange.request.length + 1) 0
  let s ← get
  pure {
    acknowledgedRequestBytes := s.locals.acknowledgedRequestBytes
    response := s.locals.response
    success := true
    targetError := s.locals.targetError
    cancelled := s.locals.cancelled }

/-- `exchange_message`; `responseSize` is the size of the response buffer. -/
def exchangeMessage (exchange : ExchangeRequest) (responseSize : ℕ) (timeout : ℤ) (rounds : ℕ) :
    UdpM τ ExchangeOutcome := do
  updateLocals fun _ => {}
  let s ← get
  if ¬ s.transport.isOpen then
    pure {
      status := .disconnected
      certainty := .notTransferred
      detail := "Fastboot UDP transport is closed" }
  else if responseSize < exchange.responseLimit ∨ exchange.maxAttempts = 0 then
    pure {
      status := .ioError
      certainty := .notTransferred
      poison := true
      detail := "invalid internal Fastboot UDP exchange bounds" }
  else if (← ask env.stopRequested) then
    pure {
      status := .cancelled
      certainty := .notTransferred
      cancelled := true
      poison := true
      detail := "Fastboot UDP exchange was cancelled before transmission" }
  else do
    let operationDeadline := deadlineFrom (← now env) timeout
    if (← expired env operationDeadline) then
      pure {
        status := .timeout
        certainty := .notTransferred
        detail := "Fastboot UDP operation deadline expired before transmission" }
    else if ¬ (← ask env.allocate) then
      pure {
        status := .ioError
        certainty := .notTransferred
        detail := "allocating a Fastboot UDP packet failed" }
    else
      tryCatch (exchangeLoops env exchange operationDeadline rounds)
        (failedOutcome exchange.request.length)

/-! ### The transport -/

/-- `close_locked`. -/
def closeLocked : UdpM τ Unit := do
  let s ← get
  if s.transport.isOpen then
    modify fun s => { s with
      transport := { s.transport with isOpen := false }
      world := env.close s.world
      log := s.log ++ [.closed] }

/-- `poison_locked`. -/
def poisonLocked : UdpM τ Unit := do
  modify fun s => { s with transport := { s.transport with poisoned := true } }
  closeLocked env

/-- What `write` and `read` do with a closed transport. -/
def closedResult : TransferResult where
  status := .disconnected
  certainty := .notTransferred
  detail := "Fastboot UDP transport is closed"

def transferResult (outcome : ExchangeOutcome) (transferred : ℕ) : TransferResult where
  status := outcome.status
  transferred := transferred
  certainty := outcome.certainty
  truncated := outcome.truncated
  detail := outcome.detail
  nativeCode := outcome.nativeError

/-- `write`. -/
def write (bytes : Bytes) (timeout : ℤ) (rounds : ℕ) : UdpM τ TransferResult := do
  let s ← get
  if ¬ s.transport.isOpen then pure closedResult
  else do
    let outcome ← exchangeMessage env
      ⟨.fastboot, bytes, 0, s.transport.options.transmissionAttempts⟩ 0 timeout rounds
    if ¬ outcome.success ∧ outcome.poison then poisonLocked env
    pure (transferResult outcome outcome.acknowledgedRequestBytes)

/-- A successful exchange with an empty response is a failure of `read`. -/
def emptyResponseFailure (outcome : ExchangeOutcome) : ExchangeOutcome :=
  if outcome.success ∧ outcome.responseBytes = 0 then
    { outcome with
      success := false
      status := .ioError
      certainty := .partialOrUnknown
      poison := true
      detail := "Fastboot UDP returned an empty logical response" }
  else outcome

/-- `read`, and `read_data`; the value is the result and the bytes in the destination. -/
def read (size : ℕ) (timeout : ℤ) (rounds : ℕ) : UdpM τ (TransferResult × Bytes) := do
  let s ← get
  if ¬ s.transport.isOpen then pure (closedResult, [])
  else do
    let exchanged ← exchangeMessage env
      ⟨.fastboot, [], size, s.transport.options.transmissionAttempts⟩ size timeout rounds
    let outcome := emptyResponseFailure exchanged
    if ¬ outcome.success ∧ outcome.poison then poisonLocked env
    pure (transferResult outcome outcome.responseBytes, outcome.response)

end UdpFastbootTransport

end KairosBoot
