import KairosBoot.FastbootResponse
import KairosBoot.ByteSlices
import KairosBoot.Outcomes

/-! # Fastboot sessions

`FastbootSession` of `fastboot_protocol.cpp`.  Everything outside the session (the transport, the
sink and the progress observer of a receive, and the allocator) is an `Environment` over a state
of its own type, so that a theorem about every environment is one about every behaviour of the
outside.  A session keeps a log of the calls it has made; the log is not part of the program, the
theorems speak about it.

Calls are serialized, so no operation ever finds the session locked by another one.  The value of
the cancellation flag at the start of an operation is an argument of the operation.  Timeouts are
constants handed to the transport and are left out. -/

namespace KairosBoot

open ByteLib Outcomes

def kDefaultMaxCommandBytes : ℕ := 4096
def kDefaultMaxResponseBytes : ℕ := 256
def kDefaultMaxInformationalResponses : ℕ := 1024
def kDefaultReceiveChunkBytes : ℕ := 1024 * 1024
def kMaximumReceiveChunkBytes : ℕ := 4 * 1024 * 1024

structure SessionOptions where
  maxCommandBytes : ℕ := kDefaultMaxCommandBytes
  maxResponseBytes : ℕ := kDefaultMaxResponseBytes
  maxInformationalResponses : ℕ := kDefaultMaxInformationalResponses
  receiveChunkBytes : ℕ := kDefaultReceiveChunkBytes
  deriving DecidableEq, Repr

/-- The adjustments of the constructor. -/
def SessionOptions.normalize (options : SessionOptions) : SessionOptions where
  maxCommandBytes :=
    if options.maxCommandBytes = 0 then kDefaultMaxCommandBytes else options.maxCommandBytes
  maxResponseBytes := max options.maxResponseBytes 4
  maxInformationalResponses := max options.maxInformationalResponses 1
  receiveChunkBytes := max 1 (min options.receiveChunkBytes kMaximumReceiveChunkBytes)

inductive SessionState where
  | ready | writingCommand | awaitingResponse | downloading | receivingData | poisoned | closed
  deriving DecidableEq, Repr

inductive ProtocolErrorCode where
  | invalidArgument | streamingUnsupported | busy | closed | poisoned | transportTimeout
  | transportCancelled | transportDisconnected | transportIo | transportContractViolation
  | zeroProgress | malformedResponse | unexpectedResponse | dataLengthMismatch
  | tooManyInformationalResponses
  deriving DecidableEq, Repr

inductive ProtocolPhase where
  | validation | commandWrite | initialResponse | dataWrite | dataRead | finalResponse
  deriving DecidableEq, Repr

structure ProtocolError where
  code : ProtocolErrorCode
  message : String
  informational : List Response := []
  transportStatus : TransportStatus := .ok
  transferCertainty : TransferCertainty := .fullyTransferred
  phase : ProtocolPhase := .validation
  outboundCertainty : TransferCertainty := .notTransferred
  inboundExpected : Option ℕ := none
  inboundTransferred : ℕ := 0
  inboundCertainty : TransferCertainty := .notTransferred
  nativeCode : ℤ := 0
  deriving DecidableEq, Repr

structure CommandResult where
  terminal : Response
  informational : List Response
  phase : ProtocolPhase := .finalResponse
  outboundCertainty : TransferCertainty := .fullyTransferred
  inboundExpected : Option ℕ := none
  inboundTransferred : ℕ := 0
  inboundCertainty : TransferCertainty := .notTransferred
  deriving DecidableEq, Repr

/-! ### The outside of a session -/

/-- What a progress observer does. -/
inductive ProgressOutcome where
  | continueTransfer | cancel | threw
  deriving DecidableEq, Repr

/-- The transport (`write`, `writeSource` if it can stream, `read`, `readData`, `requestCancel`,
`close`), the sink and the observer of a receive, and whether a buffer can be allocated.  A read
returns its result and the bytes it has stored in the buffer. -/
structure Environment (τ : Type) where
  write : Bytes → τ → TransferResult × τ
  writeSource : Option (Bytes → τ → TransferResult × τ)
  read : ℕ → τ → (TransferResult × Bytes) × τ
  readData : ℕ → τ → (TransferResult × Bytes) × τ
  requestCancel : τ → τ
  close : τ → τ
  sinkWrite : ℕ → Bytes → τ → TransferResult × τ
  observe : ℕ → ℕ → τ → ProgressOutcome × τ
  allocate : ℕ → τ → Bool × τ

/-- A call of the session to its outside. -/
inductive SessionEvent where
  | write (phase : ProtocolPhase) (offered : Bytes) (result : TransferResult)
  | writeSource (offered : Bytes) (result : TransferResult)
  | read (result : TransferResult) (packet : Bytes)
  | readData (requested : ℕ) (result : TransferResult)
  | sinkWrite (offset : ℕ) (payload : Bytes) (result : TransferResult)
  | observe (committed total : ℕ) (outcome : ProgressOutcome)
  | allocate (size : ℕ) (succeeded : Bool)
  | requestCancel
  | close
  deriving DecidableEq, Repr

abbrev SessionLog := List SessionEvent

/-- What a session object is made with. -/
structure SessionSetup (τ : Type) where
  env : Environment τ
  requested : SessionOptions := {}
  hasTransport : Bool := true

/-- The options the session works with. -/
def SessionSetup.options {τ : Type} (setup : SessionSetup τ) : SessionOptions :=
  setup.requested.normalize

/-- The variable part of a session. -/
structure Session (τ : Type) where
  state : SessionState := .ready
  poisonError : Option ProtocolError := none
  world : τ
  log : SessionLog := []

abbrev SessionM (τ : Type) := Prog (Session τ) ProtocolError

namespace FastbootSession

variable {τ ρ α : Type}

/-- Call the outside and log the call. -/
def perform (call : τ → ρ × τ) (event : ρ → SessionEvent) : SessionM τ ρ :=
  step fun s => ((call s.world).1,
    { s with world := (call s.world).2, log := s.log ++ [event (call s.world).1] })

/-- Call a function of the outside that returns nothing. -/
def notify (call : τ → τ) (event : SessionEvent) : SessionM τ Unit :=
  perform (fun world => ((), call world)) fun _ => event

def setState (state : SessionState) : SessionM τ Unit := modify fun s => { s with state := state }

/-- `poison_locked`. -/
def poisonLocked (error : ProtocolError) : SessionM τ α := do
  modify fun s => { s with state := .poisoned, poisonError := some error }
  throw error

/-! ### Errors -/

/-- `unavailable_error_locked`. -/
def unavailableErrorLocked (s : Session τ) : ProtocolError :=
  match s.state with
  | .closed => { code := .closed, message := "Fastboot session is closed" }
  | .poisoned =>
      let error := s.poisonError.getD
        { code := .poisoned, message := "Fastboot session is poisoned" }
      { error with
        code := .poisoned
        message := "Fastboot session is poisoned: " ++ error.message }
  | _ => { code := .busy, message := "Fastboot session is busy" }

/-- `aggregate_write_certainty`. -/
def aggregateWriteCertainty (completed requested : ℕ) (result : TransferResult) :
    TransferCertainty :=
  if result.certainty = .fullyTransferred ∧ result.transferred = requested then .fullyTransferred
  else if completed = 0 ∧ result.transferred = 0 ∧ result.certainty = .notTransferred then
    .notTransferred
  else .partialOrUnknown

/-- `with_informational`. -/
def withInformational (error : ProtocolError) (informational : List Response) : ProtocolError :=
  { error with informational := informational }

/-- `transport_error_locked`. -/
def transportErrorLocked (result : TransferResult) (operation : String) (phase : ProtocolPhase)
    (outboundCertainty : TransferCertainty) : ProtocolError where
  code := match result.status with
    | .timeout => .transportTimeout
    | .cancelled => .transportCancelled
    | .disconnected => .transportDisconnected
    | .ioError => .transportIo
    | .ok => .transportIo
  message := "Fastboot transport " ++ operation ++ " failed" ++
    (if result.certainty = .partialOrUnknown then " with a partial or unknown transfer outcome"
      else "") ++
    (if result.detail = "" then "" else ": " ++ result.detail)
  transportStatus := result.status
  transferCertainty := result.certainty
  phase := phase
  outboundCertainty := outboundCertainty
  nativeCode := result.nativeCode

/-- `malformed_response_error`. -/
def malformedResponseError (error : ResponseParseError) (phase : ProtocolPhase)
    (outboundCertainty : TransferCertainty) : ProtocolError where
  code := .malformedResponse
  message := error.message
  phase := phase
  outboundCertainty := outboundCertainty

/-- An error that carries the result of the failed call. -/
def resultError (code : ProtocolErrorCode) (message : String) (result : TransferResult)
    (phase : ProtocolPhase) (outboundCertainty : TransferCertainty) : ProtocolError where
  code := code
  message := message
  transportStatus := result.status
  transferCertainty := result.certainty
  phase := phase
  outboundCertainty := outboundCertainty
  nativeCode := result.nativeCode

/-- The error of a device that sends too many INFO and TEXT responses. -/
def informationalLimitError (informational : List Response) (phase : ProtocolPhase)
    (outboundCertainty : TransferCertainty) : ProtocolError where
  code := .tooManyInformationalResponses
  message := "Fastboot device exceeded the informational response limit"
  informational := informational
  phase := phase
  outboundCertainty := outboundCertainty

/-- An error after a response that has no place at this point. -/
def responseError (code : ProtocolErrorCode) (message : String) (informational : List Response)
    (phase : ProtocolPhase) (outboundCertainty : TransferCertainty) : ProtocolError where
  code := code
  message := message
  informational := informational
  phase := phase
  outboundCertainty := outboundCertainty

section Steps

variable (setup : SessionSetup τ)

/-! ### Starting and writing -/

/-- A character no command may contain. -/
def forbiddenCharacter (value : Char) : Bool :=
  value = Char.ofNat 0 ∨ value = '\r' ∨ value = '\n'

/-- `begin_locked`; `cancelled` is the cancellation flag. -/
def beginLocked (cancelled : Bool) (commandText : String) : SessionM τ Unit := do
  let s ← get
  if s.state ≠ .ready then throw (unavailableErrorLocked s)
  else if cancelled then
    poisonLocked {
      code := .transportCancelled
      message := "Fastboot operation was cancelled"
      transportStatus := .cancelled
      transferCertainty := .notTransferred
      phase := .validation
      outboundCertainty := .notTransferred }
  else if ¬ setup.hasTransport then
    throw { code := .invalidArgument, message := "Fastboot session has no transport" }
  else if commandText.toList.length = 0 ∨
      setup.options.maxCommandBytes < commandText.toList.length then
    throw {
      code := .invalidArgument
      message := "Fastboot command is empty or exceeds the configured command limit" }
  else if commandText.toList.any forbiddenCharacter then
    throw {
      code := .invalidArgument
      message := "Fastboot command contains a forbidden control character" }
  else pure ()

/-- What `write_exact_locked` checks after a call: the error if the call did not succeed. -/
def writeFault (phase : ProtocolPhase) (offset remaining : ℕ) (result : TransferResult) :
    Option ProtocolError :=
  let certainty := aggregateWriteCertainty offset remaining result
  if remaining < result.transferred then
    some (resultError .transportContractViolation
      "transport reported writing more bytes than requested" result phase certainty)
  else if result.status ≠ .ok then
    some (transportErrorLocked result "write" phase certainty)
  else if result.certainty ≠ .fullyTransferred then
    some (resultError .transportContractViolation
      "successful transport write has an uncertain transfer outcome" result phase certainty)
  else if result.truncated then
    some (resultError .transportContractViolation
      "transport marked a write result as truncated" result phase certainty)
  else if result.transferred = 0 then
    some (resultError .zeroProgress "transport made no progress during a Fastboot write" result
      phase (if offset = 0 then .notTransferred else .partialOrUnknown))
  else none

/-- The loop of `write_exact_locked`; every round advances, so `fuel` is the number of bytes. -/
def writeExactLoop (bytes : Bytes) (phase : ProtocolPhase) : ℕ → ℕ → SessionM τ Unit
  | 0, _ => pure ()
  | fuel + 1, offset =>
      if offset < bytes.length then do
        let remaining := bytes.drop offset
        let result ← perform (setup.env.write remaining) (.write phase remaining)
        match writeFault phase offset remaining.length result with
        | some error => poisonLocked error
        | none => writeExactLoop bytes phase fuel (offset + result.transferred)
      else pure ()

/-- `write_exact_locked`. -/
def writeExactLocked (bytes : Bytes) (phase : ProtocolPhase) : SessionM τ Unit :=
  writeExactLoop setup bytes phase bytes.length 0

/-- What `write_source_locked` checks after its call. -/
def writeSourceFault (expected : ℕ) (result : TransferResult) : Option ProtocolError :=
  let certainty := aggregateWriteCertainty 0 expected result
  if expected < result.transferred then
    some (resultError .transportContractViolation
      "streaming transport reported writing more bytes than requested" result .dataWrite certainty)
  else if result.status ≠ .ok then
    some (transportErrorLocked result "source write" .dataWrite certainty)
  else if result.certainty ≠ .fullyTransferred then
    some (resultError .transportContractViolation
      "successful source write has an uncertain transfer outcome" result .dataWrite certainty)
  else if result.truncated then
    some (resultError .transportContractViolation
      "streaming transport marked a source write as truncated" result .dataWrite certainty)
  else if result.transferred ≠ expected then
    some (resultError
      (if result.transferred = 0 then .zeroProgress else .transportContractViolation)
      "streaming transport did not write the complete source" result .dataWrite certainty)
  else none

/-- `write_source_locked`. -/
def writeSourceLocked (streaming : Bytes → τ → TransferResult × τ) (source : Bytes) :
    SessionM τ Unit := do
  let result ← perform (streaming source) (.writeSource source)
  match writeSourceFault source.length result with
  | some error => poisonLocked error
  | none => pure ()

/-! ### Reading responses -/

/-- The first bytes of a zeroed buffer after a read has stored `data` in it. -/
def packetOf (size : ℕ) (read : TransferResult × Bytes) : Bytes :=
  (overwrite (List.replicate size 0) 0 (read.2.take size)).take read.1.transferred

/-- What `read_response_locked` makes of a read. -/
def readOutcome (phase : ProtocolPhase) (outboundCertainty : TransferCertainty)
    (informational : List Response) (read : TransferResult × Bytes) :
    Except ProtocolError Response :=
  let result := read.1
  if result.status ≠ .ok then
    .error (withInformational (transportErrorLocked result "read" phase outboundCertainty)
      informational)
  else if result.certainty ≠ .fullyTransferred then
    .error (withInformational (resultError .transportContractViolation
      "successful transport read has an uncertain transfer outcome" result phase
      outboundCertainty) informational)
  else if result.truncated ∨ setup.options.maxResponseBytes < result.transferred then
    .error (withInformational (resultError .malformedResponse
      "Fastboot response exceeded the configured response limit" result phase
      outboundCertainty) informational)
  else
    (parseResponse (packetOf setup.options.maxResponseBytes read)
      setup.options.maxResponseBytes).mapError fun e =>
        withInformational (malformedResponseError e phase outboundCertainty) informational

/-- `read_response_locked`. -/
def readResponseLocked (phase : ProtocolPhase) (outboundCertainty : TransferCertainty)
    (informational : List Response) : SessionM τ Response := do
  let read ← perform (setup.env.read setup.options.maxResponseBytes) fun read =>
    .read read.1 (packetOf setup.options.maxResponseBytes read)
  match readOutcome setup phase outboundCertainty informational read with
  | .error error => poisonLocked error
  | .ok response => pure response

/-- A round of the loop over the responses to a command: an INFO or TEXT response is kept and the
loop goes on with `again`, any other one is handed to `finish`. -/
def responseRound (phase : ProtocolPhase) (outboundCertainty : TransferCertainty)
    (finish : List Response → Response → SessionM τ α) (again : List Response → SessionM τ α)
    (informational : List Response) : SessionM τ α := do
  let response ← readResponseLocked setup phase outboundCertainty informational
  if response.isInformational then
    if setup.options.maxInformationalResponses ≤ informational.length then
      poisonLocked (informationalLimitError informational phase outboundCertainty)
    else again (informational ++ [response])
  else finish informational response

/-- The loop over the responses to a command.  A response is kept only below the limit, so `fuel`,
the number of responses that may still be kept, does not run out. -/
def responseLoop (phase : ProtocolPhase) (outboundCertainty : TransferCertainty)
    (finish : List Response → Response → SessionM τ α) : ℕ → List Response → SessionM τ α
  | 0 => responseRound setup phase outboundCertainty finish fun informational =>
      poisonLocked (informationalLimitError informational phase outboundCertainty)
  | fuel + 1 => responseRound setup phase outboundCertainty finish
      (responseLoop phase outboundCertainty finish fuel)

/-- The end of `read_terminal_locked`. -/
def finishTerminal (phase : ProtocolPhase) (outboundCertainty : TransferCertainty)
    (informational : List Response) (response : Response) : SessionM τ CommandResult :=
  if response.isTerminal then do
    setState .ready
    pure {
      terminal := response
      informational := informational
      phase := phase
      outboundCertainty := outboundCertainty }
  else
    poisonLocked (responseError .unexpectedResponse
      "Fastboot DATA response is not valid in this session state" informational phase
      outboundCertainty)

/-- `read_terminal_locked`. -/
def readTerminalLocked (informational : List Response) (phase : ProtocolPhase)
    (outboundCertainty : TransferCertainty) : SessionM τ CommandResult :=
  responseLoop setup phase outboundCertainty (finishTerminal phase outboundCertainty)
    (setup.options.maxInformationalResponses - informational.length) informational

/-! ### Commands -/

/-- Write a command and wait for its response. -/
def sendCommand (commandText : String) : SessionM τ Unit := do
  setState .writingCommand
  writeExactLocked setup (stringBytes commandText) .commandWrite
  setState .awaitingResponse

/-- The part of `command` after the checks. -/
def commandBegun (commandText : String) : SessionM τ CommandResult := do
  sendCommand setup commandText
  readTerminalLocked setup [] .finalResponse .fullyTransferred

/-- `command`. -/
def command (cancelled : Bool) (commandText : String) : SessionM τ CommandResult := do
  beginLocked setup cancelled commandText
  commandBegun setup commandText

/-! ### Downloads -/

/-- How the loop over the initial responses ends: the device has refused, or it has announced a
data phase of the given size. -/
inductive InitialResponse where
  | refused (result : CommandResult)
  | announced (informational : List Response) (size : ℕ)

/-- The result of a command whose data phase the device has refused. -/
def refusedResult (response : Response) (informational : List Response) : CommandResult where
  terminal := response
  informational := informational
  phase := .initialResponse
  outboundCertainty := .fullyTransferred

/-- The end of the loop of `download_locked` over the initial responses. -/
def finishDownload (size : ℕ) (informational : List Response) (response : Response) :
    SessionM τ InitialResponse :=
  if response.kind = .fail then do
    setState .ready
    pure (.refused (refusedResult response informational))
  else if response.kind ≠ .data then
    poisonLocked (responseError .unexpectedResponse
      "Fastboot download expected DATA or FAIL before sending payload" informational
      .initialResponse .fullyTransferred)
  else if response.dataSize ≠ some size then
    poisonLocked (responseError .dataLengthMismatch
      "Fastboot device accepted a different download length" informational
      .initialResponse .fullyTransferred)
  else pure (.announced informational size)

def initialResponses (finish : List Response → Response → SessionM τ InitialResponse) :
    SessionM τ InitialResponse :=
  responseLoop setup .initialResponse .fullyTransferred finish
    setup.options.maxInformationalResponses []

def downloadCommand (size : ℕ) : String := "download:" ++ hexDigits size

/-- Write the payload, with `write_source_locked` if it comes from a source. -/
def writePayload (payload : Bytes)
    (streaming : Option (Bytes → τ → TransferResult × τ)) : SessionM τ Unit :=
  match streaming with
  | some stream => writeSourceLocked stream payload
  | none => writeExactLocked setup payload .dataWrite

/-- The payload phase of `download_locked`: a failed write poisons the session once more, with the
informational responses received so far. -/
def downloadPayload (payload : Bytes) (streaming : Option (Bytes → τ → TransferResult × τ))
    (informational : List Response) : SessionM τ Unit :=
  tryCatch (writePayload setup payload streaming) fun error =>
    poisonLocked (withInformational error informational)

/-- The part of `download_locked` after the checks. -/
def downloadBegun (payload : Bytes)
    (streaming : Option (Bytes → τ → TransferResult × τ)) : SessionM τ CommandResult := do
  sendCommand setup (downloadCommand payload.length)
  match ← initialResponses setup (finishDownload payload.length) with
  | .refused result => pure result
  | .announced informational _ => do
      setState .downloading
      downloadPayload setup payload streaming informational
      setState .awaitingResponse
      readTerminalLocked setup informational .finalResponse .fullyTransferred

/-- `download_locked`; the payload is the bytes of a span, or those of a source that the transport
has to stream. -/
def downloadLocked (cancelled : Bool) (payload : Bytes) (fromSource : Bool) :
    SessionM τ CommandResult := do
  beginLocked setup cancelled (downloadCommand payload.length)
  if fromSource then
    match setup.env.writeSource with
    | none =>
        throw {
          code := .streamingUnsupported
          message := "Fastboot transport does not support source streaming" }
    | some stream => downloadBegun setup payload (some stream)
  else downloadBegun setup payload none

/-- `std::numeric_limits<std::uint32_t>::max()`. -/
def maxDownloadSize : ℕ := 2 ^ 32 - 1

def oversizedDownload : ProtocolError where
  code := .invalidArgument
  message := "Fastboot download size exceeds the protocol's 32-bit limit"

/-- `download`. -/
def download (cancelled : Bool) (bytes : Bytes) : SessionM τ CommandResult :=
  if maxDownloadSize < bytes.length then throw oversizedDownload
  else downloadLocked setup cancelled bytes false

/-- `download_source`; `none` is a null source. -/
def downloadSource (cancelled : Bool) (source : Option Bytes) : SessionM τ CommandResult :=
  match source with
  | none => throw { code := .invalidArgument, message := "Fastboot download source is null" }
  | some bytes =>
      if maxDownloadSize < bytes.length then throw oversizedDownload
      else downloadLocked setup cancelled bytes true

/-! ### Receives -/

/-- The end of the loop of `receive_locked` over the initial responses. -/
def finishReceive (maximumBytes : ℕ) (informational : List Response) (response : Response) :
    SessionM τ InitialResponse :=
  if response.kind = .fail then do
    setState .ready
    pure (.refused (refusedResult response informational))
  else if response.kind = .okay then do
    setState .ready
    throw (responseError .unexpectedResponse
      "Fastboot receive command completed without a DATA response" informational
      .initialResponse .fullyTransferred)
  else
    match response.announcedSize with
    | none =>
        poisonLocked (responseError .unexpectedResponse
          "Fastboot receive expected DATA or FAIL before the payload" informational
          .initialResponse .fullyTransferred)
    | some size =>
        if size = 0 ∨ maximumBytes < size then do
          notify setup.env.requestCancel .requestCancel
          notify setup.env.close .close
          poisonLocked {
            code := if size = 0 then .unexpectedResponse else .dataLengthMismatch
            message := if size = 0 then "Fastboot receive DATA size must not be zero"
              else "Fastboot receive DATA size exceeds the caller's limit"
            informational := informational
            phase := .initialResponse
            outboundCertainty := .fullyTransferred
            inboundExpected := some size
            inboundCertainty := if size = 0 then .notTransferred else .partialOrUnknown }
        else pure (.announced informational size)

/-- A failure of the data phase: the arguments of `receive_failure`. -/
structure ReceiveFault where
  error : ProtocolError
  committed : ℕ
  partialOrUnknown : Bool

/-- `phase_failure`. -/
def phaseFailure (code : ProtocolErrorCode) (message : String) (io : TransferResult)
    (committed : ℕ) (partialOrUnknown : Bool) : ReceiveFault where
  error := resultError code message io .dataRead .fullyTransferred
  committed := committed
  partialOrUnknown := partialOrUnknown

/-- `receive_failure`. -/
def receiveFailure (announced : ℕ) (informational : List Response) (fault : ReceiveFault) :
    SessionM τ α := do
  notify setup.env.requestCancel .requestCancel
  notify setup.env.close .close
  poisonLocked { fault.error with
    informational := informational
    inboundExpected := some announced
    inboundTransferred := fault.committed
    inboundCertainty :=
      if fault.committed = announced ∧ ¬ fault.partialOrUnknown then .fullyTransferred
      else if fault.committed = 0 ∧ ¬ fault.partialOrUnknown then .notTransferred
      else .partialOrUnknown }

/-- The checks after a call of `read_data`. -/
def readDataFault (requested committed : ℕ) (transfer : TransferResult) : Option ReceiveFault :=
  if requested < transfer.transferred then
    some (phaseFailure .transportContractViolation
      "transport reported receiving more Fastboot data than requested" transfer committed true)
  else if transfer.status ≠ .ok then
    some {
      error := transportErrorLocked transfer "data read" .dataRead .fullyTransferred
      committed := committed
      partialOrUnknown := transfer.transferred ≠ 0 ∨ transfer.certainty = .partialOrUnknown }
  else if transfer.certainty ≠ .fullyTransferred ∨ transfer.truncated then
    some (phaseFailure .transportContractViolation
      (if transfer.truncated then "Fastboot inbound data exceeded the receive chunk"
        else "successful Fastboot data read has uncertain transfer outcome")
      transfer committed true)
  else if transfer.transferred = 0 then
    some (phaseFailure .zeroProgress "transport made no progress while receiving Fastboot data"
      transfer committed false)
  else none

/-- The checks after a call of the sink. -/
def sinkFault (size committed : ℕ) (stored : TransferResult) : Option ReceiveFault :=
  if size < stored.transferred then
    some (phaseFailure .transportContractViolation
      "Fastboot receive sink reported storing more bytes than provided" stored committed true)
  else if stored.status ≠ .ok then
    some {
      error := transportErrorLocked stored "receive sink write" .dataRead .fullyTransferred
      committed := committed + stored.transferred
      partialOrUnknown := stored.transferred ≠ size ∨ stored.certainty ≠ .fullyTransferred }
  else if stored.certainty ≠ .fullyTransferred ∨ stored.truncated ∨ stored.transferred ≠ size then
    some (phaseFailure .transportContractViolation
      "Fastboot receive sink did not commit the complete data chunk" stored
      (committed + stored.transferred) true)
  else none

/-- The checks after a call of the progress observer. -/
def observerFault (announced committed : ℕ) : ProgressOutcome → Option ReceiveFault
  | .continueTransfer => none
  | .threw =>
      some (phaseFailure .transportIo "Fastboot receive progress observer failed"
        { status := .ioError, certainty := .notTransferred } committed (committed ≠ announced))
  | .cancel =>
      some (phaseFailure .transportCancelled "Fastboot receive was cancelled by progress observer"
        { status := .cancelled, certainty := .notTransferred } committed (committed ≠ announced))

/-- Report the progress to the observer, if there is one. -/
def observeProgress (observer : Bool) (announced : ℕ) (informational : List Response)
    (committed : ℕ) : SessionM τ Unit :=
  if observer then do
    let outcome ← perform (setup.env.observe committed announced)
      (.observe committed announced)
    match observerFault announced committed outcome with
    | some fault => receiveFailure setup announced informational fault
    | none => pure ()
  else pure ()

/-- One round of the data loop of `receive_locked`: read into the buffer, hand what was read to the
sink and report it.  The result is the buffer and the number of bytes read. -/
def receiveChunk (observer : Bool) (announced : ℕ) (informational : List Response)
    (buffer : Bytes) (committed : ℕ) : SessionM τ (Bytes × ℕ) := do
  let requested := min buffer.length (announced - committed)
  let transfer ← perform (setup.env.readData requested) fun transfer =>
    .readData requested transfer.1
  match readDataFault requested committed transfer.1 with
  | some fault => receiveFailure setup announced informational fault
  | none => do
      let buffer := overwrite buffer 0 (transfer.2.take requested)
      let payload := buffer.take transfer.1.transferred
      let stored ← perform (setup.env.sinkWrite committed payload)
        (.sinkWrite committed payload)
      match sinkFault payload.length committed stored with
      | some fault => receiveFailure setup announced informational fault
      | none => do
          observeProgress setup observer announced informational
            (committed + transfer.1.transferred)
          pure (buffer, transfer.1.transferred)

/-- The data loop of `receive_locked`, which ends with the number of bytes committed; every round
commits at least a byte, so `fuel` is the announced size. -/
def receiveLoop (observer : Bool) (announced : ℕ) (informational : List Response) :
    ℕ → Bytes → ℕ → SessionM τ ℕ
  | 0, _, committed => pure committed
  | fuel + 1, buffer, committed =>
      if committed < announced then do
        let (buffer, transferred) ←
          receiveChunk setup observer announced informational buffer committed
        receiveLoop observer announced informational fuel buffer (committed + transferred)
      else pure committed

/-- The result of a receive whose data has arrived. -/
def receivedResult (announced committed : ℕ) (result : CommandResult) : CommandResult :=
  { result with
    inboundExpected := some announced
    inboundTransferred := committed
    inboundCertainty := .fullyTransferred }

/-- An error after the data of a receive has arrived. -/
def receivedError (announced committed : ℕ) (error : ProtocolError) : ProtocolError :=
  { error with
    inboundExpected := some announced
    inboundTransferred := committed
    inboundCertainty := .fullyTransferred }

/-- The part of `receive_locked` after the DATA response. -/
def receiveData (observer : Bool) (announced : ℕ) (informational : List Response) :
    SessionM τ CommandResult := do
  let size := min setup.options.receiveChunkBytes announced
  let allocated ← perform (setup.env.allocate size) (.allocate size)
  if ¬ allocated then do
    notify setup.env.requestCancel .requestCancel
    notify setup.env.close .close
    poisonLocked {
      code := .transportIo
      message := "allocating the bounded Fastboot receive buffer failed"
      informational := informational
      transportStatus := .ioError
      phase := .dataRead
      outboundCertainty := .fullyTransferred
      inboundExpected := some announced
      inboundCertainty := .partialOrUnknown }
  else do
    setState .receivingData
    let committed ← receiveLoop setup observer announced informational announced
      (List.replicate size 0) 0
    setState .awaitingResponse
    let terminal ← tryCatch
      (readTerminalLocked setup informational .finalResponse .fullyTransferred)
      fun error => throw (receivedError announced committed error)
    pure (receivedResult announced committed terminal)

/-- The part of `receive_locked` after the checks. -/
def receiveBegun (commandText : String) (maximumBytes : ℕ) (observer : Bool) :
    SessionM τ CommandResult := do
  sendCommand setup commandText
  match ← initialResponses setup (finishReceive setup maximumBytes) with
  | .refused result => pure result
  | .announced informational announced => receiveData setup observer announced informational

/-- `receive_locked`. -/
def receiveLocked (cancelled : Bool) (commandText : String) (maximumBytes : ℕ)
    (observer : Bool) : SessionM τ CommandResult := do
  beginLocked setup cancelled commandText
  receiveBegun setup commandText maximumBytes observer

/-- `receive_to_sink`; `sink` and `observer` say whether there is one. -/
def receiveToSink (cancelled : Bool) (commandText : String) (sink : Bool) (maximumBytes : ℕ)
    (observer : Bool) : SessionM τ CommandResult :=
  if ¬ sink then
    throw { code := .invalidArgument, message := "Fastboot receive sink is null" }
  else if maximumBytes = 0 then
    throw { code := .invalidArgument, message := "Fastboot receive maximum must not be zero" }
  else receiveLocked setup cancelled commandText maximumBytes observer

/-! ### Operations -/

/-- `close`. -/
def close : SessionM τ Unit := do
  let s ← get
  if s.state = .closed then pure ()
  else do
    if setup.hasTransport then notify setup.env.close .close
    setState .closed

end Steps

end FastbootSession

open FastbootSession

/-- A call of the public interface, with the cancellation flag it finds. -/
inductive Operation where
  | command (cancelled : Bool) (commandText : String)
  | download (cancelled : Bool) (bytes : Bytes)
  | downloadSource (cancelled : Bool) (source : Option Bytes)
  | receiveToSink (cancelled : Bool) (commandText : String) (sink : Bool) (maximumBytes : ℕ)
      (observer : Bool)
  | close

/-- The run of an operation; `close` returns nothing. -/
def Operation.run {τ : Type} (setup : SessionSetup τ) :
    Operation → SessionM τ (Option CommandResult)
  | .command cancelled commandText => do
      pure (some (← FastbootSession.command setup cancelled commandText))
  | .download cancelled bytes => do
      pure (some (← FastbootSession.download setup cancelled bytes))
  | .downloadSource cancelled source => do
      pure (some (← FastbootSession.downloadSource setup cancelled source))
  | .receiveToSink cancelled commandText sink maximumBytes observer => do
      pure (some (← FastbootSession.receiveToSink setup cancelled commandText sink maximumBytes
        observer))
  | .close => do
      FastbootSession.close setup
      pure none

end KairosBoot
