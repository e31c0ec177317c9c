import KairosBoot.ByteSlices
import KairosBoot.Deadlines
import KairosBoot.FastbootResponse
import KairosBoot.Outcomes

/-! # Fastboot over TCP

`TcpFastbootTransport` of `tcp_fastboot.cpp`: frames of a length in eight bytes, the high byte
first, and a payload.  The socket and the clock are a `TcpEnvironment` over a state of its own
type.  A call either fails with the result that the source returns, or succeeds with the bytes it
has transferred: a successful call of the source returns `Ok`, the number of these bytes and
`FullyTransferred`.  The state of a run keeps a log of the socket operations. -/

namespace KairosBoot

open ByteLib Outcomes

/-! ### Frames -/

/-- `encode_tcp_frame_length`. -/
def encodeTcpFrameLength (length : ℕ) : Bytes :=
  (List.range 8).map fun index => UInt8.ofNat (length / 2 ^ ((7 - index) * 8) % 256)

/-- `decode_tcp_frame_length`; eight bytes do not overflow the 64 bits of the result. -/
def decodeTcpFrameLength (bytes : Bytes) : ℕ :=
  bytes.foldl (fun decoded byte => decoded * 256 + byte.toNat) 0

theorem length_encodeTcpFrameLength (length : ℕ) : (encodeTcpFrameLength length).length = 8 := by
  simp [encodeTcpFrameLength]

theorem decode_encodeTcpFrameLength {length : ℕ} (h : length < 2 ^ 64) :
    decodeTcpFrameLength (encodeTcpFrameLength length) = length := by
  have hrange : List.range 8 = [0, 1, 2, 3, 4, 5, 6, 7] := by decide
  have hbyte : ∀ n : ℕ, (UInt8.ofNat (n % 256)).toNat = n % 256 := fun n => by simp
  simp only [decodeTcpFrameLength, encodeTcpFrameLength, hrange, List.map_cons, List.map_nil,
    List.foldl_cons, List.foldl_nil, hbyte]
  omega

/-! ### The outside of a transport -/

inductive SocketIoStatus where
  | ok | timeout | cancelled | endOfStream | error
  deriving DecidableEq, Repr

structure SocketIoResult where
  status : SocketIoStatus := .ok
  transferred : ℕ := 0
  nativeError : ℤ := 0
  detail : String := ""
  deriving DecidableEq, Repr

/-- The socket and the clock.  A receive returns its result and the bytes it has stored in the
buffer it was given. -/
structure TcpEnvironment (τ : Type) where
  now : τ → ℤ × τ
  sendSome : Bytes → ℤ → τ → SocketIoResult × τ
  receiveSome : ℕ → ℤ → τ → (SocketIoResult × Bytes) × τ
  close : τ → τ

/-- An operation on the socket. -/
inductive TcpEvent where
  | sent (offered : Bytes) (result : SocketIoResult)
  | received (requested : ℕ) (result : SocketIoResult) (data : Bytes)
  | closed
  deriving DecidableEq, Repr

def kDefaultMaxTcpFrameBytes : UInt64 := 0xFFFFFFFF

structure TcpTransportOptions where
  handshakeTimeout : ℤ := 2000
  maxFrameBytes : UInt64 := kDefaultMaxTcpFrameBytes

structure TcpState (τ : Type) where
  world : τ
  isOpen : Bool := true
  inboundDataFrameBytesLeft : ℕ := 0
  log : List TcpEvent := []

/-- A call fails with a result, or it succeeds. -/
abbrev TcpM (τ : Type) := Prog (TcpState τ) TransferResult

namespace TcpFastbootTransport

variable {τ α : Type} (env : TcpEnvironment τ)

def now : TcpM τ ℤ :=
  step fun s => ((env.now s.world).1, { s with world := (env.now s.world).2 })

/-- `Deadline(timeout)`. -/
def deadlineAfter (timeout : ℤ) : TcpM τ ℤ := do
  return deadlineFrom (← now env) timeout

def sendSome (bytes : Bytes) (timeout : ℤ) : TcpM τ SocketIoResult :=
  step fun s =>
    let sent := env.sendSome bytes timeout s.world
    (sent.1, { s with world := sent.2, log := s.log ++ [.sent bytes sent.1] })

def receiveSome (size : ℕ) (timeout : ℤ) : TcpM τ (SocketIoResult × Bytes) :=
  step fun s =>
    let received := env.receiveSome size timeout s.world
    (received.1, { s with
      world := received.2
      log := s.log ++ [.received size received.1.1 received.1.2] })

/-- `close_locked` on the state. -/
def closed (s : TcpState τ) : TcpState τ :=
  if s.isOpen then
    { s with
      isOpen := false
      inboundDataFrameBytesLeft := 0
      world := env.close s.world
      log := s.log ++ [.closed] }
  else s

/-- `close_locked`. -/
def closeLocked : TcpM τ Unit := step fun s => ((), closed env s)

/-! ### Exact transfers -/

structure ExactIoResult where
  status : SocketIoStatus := .ok
  transferred : ℕ := 0
  anyWireBytes : Bool := false
  nativeError : ℤ := 0
  detail : String := ""
  deriving DecidableEq, Repr

/-- The checks of `send_exact` and `receive_exact` after an operation that was asked for the given
number of bytes: the result if the loop ends here. -/
def exactFault (completed requested : ℕ) (result : SocketIoResult) (excess stalled : String) :
    Option ExactIoResult :=
  if requested < result.transferred then
    some {
      status := .error
      transferred := completed
      anyWireBytes := completed ≠ 0 ∨ result.transferred ≠ 0
      detail := excess }
  else if result.status ≠ .ok then
    some {
      status := result.status
      transferred := completed + result.transferred
      anyWireBytes := completed + result.transferred ≠ 0
      nativeError := result.nativeError
      detail := result.detail }
  else if result.transferred = 0 then
    some {
      status := .error
      transferred := completed
      anyWireBytes := completed ≠ 0
      detail := stalled }
  else none

/-- The result of a complete transfer. -/
def exactDone (completed : ℕ) : ExactIoResult where
  transferred := completed
  anyWireBytes := completed ≠ 0

/-- The loop of `send_exact`; every round that goes on sends a byte, so `fuel` is the number of
bytes. -/
def sendLoop (bytes : Bytes) (deadline : ℤ) : ℕ → ℕ → TcpM τ ExactIoResult
  | 0, completed => pure (exactDone completed)
  | fuel + 1, completed =>
      if completed < bytes.length then do
        let time ← now env
        let result ← sendSome env (bytes.drop completed) (deadlineRemaining deadline time)
        match exactFault completed (bytes.length - completed) result
            "socket reported sending more bytes than requested"
            "socket made no progress while sending a TCP frame" with
        | some failure => pure failure
        | none => sendLoop bytes deadline fuel (completed + result.transferred)
      else pure (exactDone completed)

/-- `send_exact`. -/
def sendExact (bytes : Bytes) (deadline : ℤ) : TcpM τ ExactIoResult :=
  sendLoop env bytes deadline bytes.length 0

/-- The loop of `receive_exact` into a buffer. -/
def receiveLoop (deadline : ℤ) : ℕ → Bytes → ℕ → TcpM τ (ExactIoResult × Bytes)
  | 0, buffer, completed => pure (exactDone completed, buffer)
  | fuel + 1, buffer, completed =>
      if completed < buffer.length then do
        let time ← now env
        let requested := buffer.length - completed
        let received ← receiveSome env requested (deadlineRemaining deadline time)
        let stored := overwrite buffer completed (received.2.take requested)
        match exactFault completed requested received.1
            "socket reported receiving more bytes than requested"
            "socket made no progress while receiving a TCP frame" with
        | some failure => pure (failure, stored)
        | none => receiveLoop deadline fuel stored (completed + received.1.transferred)
      else pure (exactDone completed, buffer)

/-- `receive_exact`. -/
def receiveExact (destination : Bytes) (deadline : ℤ) : TcpM τ (ExactIoResult × Bytes) :=
  receiveLoop env deadline destination.length destination 0

/-! ### Failures -/

/-- `transport_status`. -/
def transportStatus : SocketIoStatus → TransportStatus
  | .timeout => .timeout
  | .endOfStream => .disconnected
  | .cancelled => .cancelled
  | .error | .ok => .ioError

/-- `io_failure_detail`. -/
def ioFailureDetail (result : ExactIoResult) (operation : String) : String :=
  operation ++
    (match result.status with
      | .timeout => " timed out"
      | .cancelled => " was cancelled"
      | .endOfStream => " reached end of stream"
      | .error => " failed"
      | .ok => "") ++
    (if result.detail = "" then "" else ": " ++ result.detail)

/-- `transfer_failure`. -/
def transferFailure (result : ExactIoResult) (logicalBytes : ℕ) (anyWireBytes : Bool)
    (operation : String) : TransferResult where
  status := transportStatus result.status
  transferred := logicalBytes
  certainty := if anyWireBytes then .partialOrUnknown else .notTransferred
  detail := ioFailureDetail result operation
  nativeCode := result.nativeError

def closeAndFail (failure : TransferResult) : TcpM τ α := do
  closeLocked env
  throw failure

/-- A frame that breaks a limit. -/
def truncatedFailure (detail : String) : TransferResult where
  status := .ioError
  certainty := .partialOrUnknown
  truncated := true
  detail := detail

/-- The result of a call on a closed transport. -/
def closedFailure : TransferResult where
  status := .disconnected
  certainty := .notTransferred
  detail := "Fastboot TCP transport is closed"

def requireOpen : TcpM τ Unit := do
  let s ← get
  if s.isOpen then pure () else throw closedFailure

/-- Send all bytes, or close the transport and fail. -/
def sendOrClose (bytes : Bytes) (deadline : ℤ) (failure : ExactIoResult → TransferResult) :
    TcpM τ Unit := do
  let sent ← sendExact env bytes deadline
  if sent.status ≠ .ok then closeAndFail env (failure sent)
  else pure ()

/-- Fill the destination, or close the transport and fail. -/
def receiveOrClose (destination : Bytes) (deadline : ℤ)
    (failure : ExactIoResult → TransferResult) : TcpM τ Bytes := do
  let received ← receiveExact env destination deadline
  if received.1.status ≠ .ok then closeAndFail env (failure received.1)
  else pure received.2

/-! ### Calls -/

/-- The frame that `write` sends. -/
def sendFrame (bytes : Bytes) (timeout : ℤ) : TcpM τ Unit := do
  let deadline ← deadlineAfter env timeout
  sendOrClose env (encodeTcpFrameLength bytes.length) deadline fun header =>
    transferFailure header 0 header.anyWireBytes "sending Fastboot TCP frame header"
  sendOrClose env bytes deadline fun payload =>
    transferFailure payload payload.transferred true "sending Fastboot TCP frame payload"

variable (options : TcpTransportOptions)

/-- A call that is refused before it does anything. -/
def refusedFailure (detail : String) : TransferResult where
  status := .ioError
  certainty := .notTransferred
  detail := detail

/-- `write`. -/
def write (bytes : Bytes) (timeout : ℤ) : TcpM τ Unit := do
  requireOpen
  if options.maxFrameBytes.toNat < bytes.length then
    throw (refusedFailure "outbound Fastboot TCP frame exceeds the configured limit")
  else sendFrame env bytes timeout

/-- `read` into a destination; the value is the bytes that are stored there. -/
def read (destination : Bytes) (timeout : ℤ) : TcpM τ Bytes := do
  requireOpen
  let s ← get
  if s.inboundDataFrameBytesLeft ≠ 0 then
    closeAndFail env
      (truncatedFailure "Fastboot TCP DATA frame exceeded the announced payload size")
  else do
    let deadline ← deadlineAfter env timeout
    let header ← receiveOrClose env (List.replicate 8 0) deadline fun header =>
      transferFailure header 0 header.anyWireBytes "receiving Fastboot TCP frame header"
    let frameSize := decodeTcpFrameLength header
    if options.maxFrameBytes.toNat < frameSize ∨ 2 ^ 64 - 1 < frameSize ∨
        destination.length < frameSize then
      closeAndFail env (truncatedFailure
        "inbound Fastboot TCP frame exceeds its configured or destination limit")
    else
      receiveOrClose env (destination.take frameSize) deadline fun payload =>
        transferFailure payload payload.transferred true "receiving Fastboot TCP frame payload"

def setLeft (left : ℕ) : TcpM τ Unit :=
  step fun s => ((), { s with inboundDataFrameBytesLeft := left })

/-- The header part of `read_data`, at the start of a frame: `false` if the frame is empty. -/
def startDataFrame (deadline : ℤ) : TcpM τ Bool := do
  let header ← receiveOrClose env (List.replicate 8 0) deadline fun header =>
    transferFailure header 0 header.anyWireBytes "receiving Fastboot TCP DATA frame header"
  let frameSize := decodeTcpFrameLength header
  setLeft frameSize
  if options.maxFrameBytes.toNat < frameSize ∨ 2 ^ 64 - 1 < frameSize then
    closeAndFail env (truncatedFailure
      "inbound Fastboot TCP DATA frame exceeds its configured limit")
  else pure (frameSize ≠ 0)

/-- The payload part of `read_data`. -/
def continueDataFrame (destination : Bytes) (deadline : ℤ) (consumedFrameHeader : Bool) :
    TcpM τ Bytes := do
  let s ← get
  let size := min destination.length s.inboundDataFrameBytesLeft
  let payload ← receiveOrClose env (destination.take size) deadline fun payload =>
    transferFailure payload payload.transferred (consumedFrameHeader ∨ payload.anyWireBytes)
      "receiving Fastboot TCP DATA frame payload"
  setLeft (s.inboundDataFrameBytesLeft - size)
  pure payload

/-- `read_data`. -/
def readData (destination : Bytes) (timeout : ℤ) : TcpM τ Bytes := do
  requireOpen
  if destination.length = 0 then throw (refusedFailure "Fastboot TCP DATA destination is empty")
  else do
    let deadline ← deadlineAfter env timeout
    let s ← get
    if s.inboundDataFrameBytesLeft = 0 then do
      let nonempty ← startDataFrame env options deadline
      if nonempty then continueDataFrame env destination deadline true
      else pure []
    else continueDataFrame env destination deadline false

inductive TcpCall where
  | read (destination : Bytes) (timeout : ℤ)
  | readData (destination : Bytes) (timeout : ℤ)
  | write (bytes : Bytes) (timeout : ℤ)
  deriving DecidableEq, Repr

/-- A call; the value of a write is empty. -/
def TcpCall.run : TcpCall → TcpM τ Bytes
  | .read destination timeout => TcpFastbootTransport.read env options destination timeout
  | .readData destination timeout => TcpFastbootTransport.readData env options destination timeout
  | .write bytes timeout => do
      TcpFastbootTransport.write env options bytes timeout
      pure []

/-! ### Handshake -/

inductive TcpErrorKind where
  | invalidEndpoint | resolveFailed | connectFailed | handshakeFailed | timeout | cancelled
  | disconnected | io
  deriving DecidableEq, Repr

structure TcpError where
  kind : TcpErrorKind := .io
  nativeError : ℤ := 0
  message : String
  deriving DecidableEq, Repr

/-- `tcp_error_kind`. -/
def tcpErrorKind : SocketIoStatus → TcpErrorKind
  | .timeout => .timeout
  | .cancelled => .cancelled
  | .endOfStream => .disconnected
  | .error | .ok => .io

/-- The error of a handshake transfer. -/
def handshakeError (result : ExactIoResult) (operation : String) : TcpError where
  kind := tcpErrorKind result.status
  nativeError := result.nativeError
  message := ioFailureDetail result operation

/-- What `initialize` makes of the peer's handshake. -/
def checkHandshake (peer : Bytes) : Except TcpError Unit :=
  let digit (index : ℕ) : ℕ := (peer.getD index 0).toNat
  if peer.getD 0 0 ≠ 70 ∨ peer.getD 1 0 ≠ 66 ∨ digit 2 < 48 ∨ 57 < digit 2 ∨ digit 3 < 48 ∨
      57 < digit 3 then
    .error {
      kind := .handshakeFailed
      message := "peer returned a malformed Fastboot TCP handshake" }
  else if (digit 2 - 48) * 10 + (digit 3 - 48) < 1 then
    .error {
      kind := .handshakeFailed
      message := "peer Fastboot TCP version is lower than host version 01" }
  else .ok ()

/-- `initialize`. -/
def initializeTransport : TcpM τ (Except TcpError Unit) := do
  let deadline ← deadlineAfter env options.handshakeTimeout
  let sent ← sendExact env (stringBytes "FB01") deadline
  if sent.status ≠ .ok then pure (.error (handshakeError sent "sending FB01 handshake"))
  else do
    let received ← receiveExact env (List.replicate 4 0) deadline
    if received.1.status ≠ .ok then
      pure (.error (handshakeError received.1 "receiving Fastboot TCP handshake"))
    else pure (checkHandshake received.2)

/-- `create` of a transport over a socket: a failed handshake closes the socket. -/
def create : TcpM τ (Except TcpError Unit) := do
  let initialized ← initializeTransport env options
  match initialized with
  | .ok _ => pure (.ok ())
  | .error error => do
      closeLocked env
      pure (.error error)

end TcpFastbootTransport

end KairosBoot
