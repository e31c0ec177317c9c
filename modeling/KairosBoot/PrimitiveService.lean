import KairosBoot.FastbootSession

/-! # The primitives of a device

`PrimitiveService` of `primitive_service.cpp`: one method per Fastboot command, over a session.
The session is a `SessionPort`, the calls that the service makes, so that a result about every
port is one about every behaviour of a session; `FastbootSession.port` is the session of
`fastboot_protocol.cpp`.

A transfer source is the list of its bytes, and `none` is a null source.  The progress observer
that is handed to a transfer is called by the transport and belongs to the port.  Methods that no
modelled caller uses are left out. -/

namespace KairosBoot

open Outcomes

inductive PrimitiveOperation where
  | getVar | download | signature | stage | boot | upload | fetch | flash | erase | setActive
  | reboot | continueBoot | oem | rawCommand | flashing | gsi | snapshotUpdate
  | createLogicalPartition | deleteLogicalPartition | resizeLogicalPartition
  deriving DecidableEq, Repr

inductive PrimitiveErrorCode where
  | invalidArgument | unsupported | busy | closed | poisoned | cancelled | timeout | disconnected
  | transportIo | protocolViolation | deviceFail
  deriving DecidableEq, Repr

structure PrimitiveReply where
  terminal : Response
  informational : List Response
  phase : ProtocolPhase := .finalResponse
  outboundCertainty : TransferCertainty := .fullyTransferred
  inboundExpected : Option ℕ := none
  inboundTransferred : ℕ := 0
  inboundCertainty : TransferCertainty := .notTransferred
  deriving DecidableEq, Repr

structure PrimitiveError where
  code : PrimitiveErrorCode
  operation : PrimitiveOperation
  phase : ProtocolPhase := .validation
  message : String
  deviceMessage : String := ""
  informational : List Response := []
  transportStatus : TransportStatus := .ok
  transportCertainty : TransferCertainty := .notTransferred
  outboundCertainty : TransferCertainty := .notTransferred
  inboundExpected : Option ℕ := none
  inboundTransferred : ℕ := 0
  inboundCertainty : TransferCertainty := .notTransferred
  nativeCode : ℤ := 0
  sessionPoisoned : Bool := false
  deriving DecidableEq, Repr

structure DownloadAndFlashResult where
  download : PrimitiveReply
  flash : PrimitiveReply
  deriving DecidableEq, Repr

structure FetchRange where
  offset : Option ℕ := none
  size : Option ℕ := none
  deriving DecidableEq, Repr

/-- The calls of a session that `PrimitiveService` makes. -/
structure SessionPort (σ : Type) where
  command : String → Prog σ ProtocolError CommandResult
  downloadSource : Option Bytes → Prog σ ProtocolError CommandResult
  receiveToSink : String → ℕ → Prog σ ProtocolError CommandResult
  state : σ → SessionState
  requestCancel : σ → σ
  close : σ → σ

/-- The port of a session; `cancelled` reads its cancellation flag, which may change at any
time. -/
def FastbootSession.port {τ : Type} (setup : SessionSetup τ) (cancelled : τ → Bool × τ) :
    SessionPort (Session τ) where
  command text := do
    let flag ← step fun s => ((cancelled s.world).1, { s with world := (cancelled s.world).2 })
    FastbootSession.command setup flag text
  downloadSource source := do
    let flag ← step fun s => ((cancelled s.world).1, { s with world := (cancelled s.world).2 })
    FastbootSession.downloadSource setup flag source
  receiveToSink text maximumBytes := do
    let flag ← step fun s => ((cancelled s.world).1, { s with world := (cancelled s.world).2 })
    FastbootSession.receiveToSink setup flag text true maximumBytes true
  state s := s.state
  requestCancel s :=
    (exec (FastbootSession.notify setup.env.requestCancel .requestCancel :
      SessionM τ Unit) s).2
  close s := (exec (FastbootSession.close setup) s).2

namespace PrimitiveService

/-! ### Checks -/

def invalidArgument (operation : PrimitiveOperation) (message : String) : PrimitiveError where
  code := .invalidArgument
  operation := operation
  message := message

def isPrintableAscii (value : String) : Bool :=
  value.toList.all fun character => decide (0x20 ≤ character.toNat ∧ character.toNat ≤ 0x7E)

def isPartitionNameCharacter (character : Char) : Bool :=
  ('a' ≤ character && character ≤ 'z') || ('A' ≤ character && character ≤ 'Z') ||
    ('0' ≤ character && character ≤ '9') || character = '_' || character = '-' || character = '.'

/-- `validated_parameter_command`. -/
def validatedParameterCommand (operation : PrimitiveOperation) (verb parameter : String) :
    Except PrimitiveError String :=
  if parameter.toList.length = 0 then
    .error (invalidArgument operation "Fastboot command parameter must not be empty")
  else if isPrintableAscii parameter = false then
    .error (invalidArgument operation
      "Fastboot command parameter must contain printable ASCII only")
  else if kDefaultMaxCommandBytes < verb.toList.length ∨
      kDefaultMaxCommandBytes - verb.toList.length < parameter.toList.length then
    .error (invalidArgument operation "Fastboot command exceeds the 4096-byte protocol limit")
  else .ok (verb ++ parameter)

theorem validatedParameterCommand_ok {operation : PrimitiveOperation} {verb parameter text : String}
    (h : validatedParameterCommand operation verb parameter = .ok text) :
    text = verb ++ parameter := by
  unfold validatedParameterCommand at h
  split_ifs at h
  exact (Except.ok.inj h).symm

/-- `is_valid_partition_name`. -/
def isValidPartitionName (partition : String) : Bool :=
  decide (partition.toList.length ≠ 0 ∧
    partition.toList.length ≤ kDefaultMaxCommandBytes - 16) &&
  partition.toList.all isPartitionNameCharacter

/-- `validate_download_size`. -/
def validateDownloadSize (size : ℕ) : Except PrimitiveError Unit :=
  if size = 0 then
    .error (invalidArgument .download "Fastboot download payload must not be empty")
  else if 2 ^ 32 - 1 < size then
    .error (invalidArgument .download
      "Fastboot download payload exceeds the protocol's 32-bit size limit")
  else .ok ()

/-- `validate_download_source`. -/
def validateDownloadSource (source : Option Bytes) : Except PrimitiveError Unit :=
  match source with
  | none => .error (invalidArgument .download "Fastboot download source must not be null")
  | some bytes => validateDownloadSize bytes.length

/-- The digits of `append_fetch_hex`: at least eight. -/
def fetchHex (value : ℕ) : String :=
  let digits := Nat.toDigits 16 value
  String.ofList (":0x".toList ++ (List.replicate (8 - digits.length) '0' ++ digits))

/-- `fetch_command`. -/
def fetchCommand (partition : String) (range : FetchRange) : Except PrimitiveError String :=
  if isValidPartitionName partition = false then
    .error (invalidArgument .fetch "Fastboot fetch partition name is invalid")
  else if range.size.isSome ∧ range.offset.isNone then
    .error (invalidArgument .fetch "Fastboot fetch size requires an explicit offset")
  else if range.offset.any (fun offset => decide (2 ^ 63 - 1 < offset)) = true ∨
      range.size.any (fun size => decide (2 ^ 63 - 1 < size)) = true then
    .error (invalidArgument .fetch "Fastboot fetch offset and size must fit signed 64-bit values")
  else
    let command := "fetch:" ++ partition ++ (range.offset.map fetchHex).getD "" ++
      (range.size.map fetchHex).getD ""
    if kDefaultMaxCommandBytes < command.toList.length then
      .error (invalidArgument .fetch "Fastboot fetch command exceeds the 4096-byte protocol limit")
    else .ok command

/-! ### Errors -/

/-- `download_certainty`. -/
def downloadCertainty (phase : ProtocolPhase) (phaseCertainty : TransferCertainty) :
    TransferCertainty :=
  match phase with
  | .validation | .commandWrite | .initialResponse => .notTransferred
  | .dataWrite | .dataRead => phaseCertainty
  | .finalResponse => .fullyTransferred

/-- `primitive_error_code`. -/
def primitiveErrorCode : ProtocolErrorCode → PrimitiveErrorCode
  | .invalidArgument => .invalidArgument
  | .streamingUnsupported => .unsupported
  | .busy => .busy
  | .closed => .closed
  | .poisoned => .poisoned
  | .transportCancelled => .cancelled
  | .transportTimeout => .timeout
  | .transportDisconnected => .disconnected
  | .transportIo => .transportIo
  | .transportContractViolation | .zeroProgress | .malformedResponse | .unexpectedResponse
  | .dataLengthMismatch | .tooManyInformationalResponses => .protocolViolation

/-- `protocol_error`; `poisoned` says whether the session is poisoned. -/
def protocolError (operation : PrimitiveOperation) (error : ProtocolError)
    (downloadSemantics poisoned : Bool) : PrimitiveError where
  code := primitiveErrorCode error.code
  operation := operation
  phase := error.phase
  message := error.message
  informational := error.informational
  transportStatus := error.transportStatus
  transportCertainty := error.transferCertainty
  outboundCertainty := if downloadSemantics then downloadCertainty error.phase error.outboundCertainty
    else error.outboundCertainty
  inboundExpected := error.inboundExpected
  inboundTransferred := error.inboundTransferred
  inboundCertainty := error.inboundCertainty
  nativeCode := error.nativeCode
  sessionPoisoned := poisoned

/-- `device_fail`. -/
def deviceFail (operation : PrimitiveOperation) (result : CommandResult)
    (downloadSemantics : Bool) : PrimitiveError where
  code := .deviceFail
  operation := operation
  phase := result.phase
  message := "Fastboot device rejected the command"
  deviceMessage := result.terminal.payload
  informational := result.informational
  transportStatus := .ok
  transportCertainty := .fullyTransferred
  outboundCertainty := if downloadSemantics then
      downloadCertainty result.phase result.outboundCertainty
    else result.outboundCertainty
  inboundExpected := result.inboundExpected
  inboundTransferred := result.inboundTransferred
  inboundCertainty := result.inboundCertainty

/-! ### Commands -/

section Methods

variable {σ : Type} (port : SessionPort σ)

/-- The reply of a command that has succeeded. -/
def replyOf (result : CommandResult) : PrimitiveReply where
  terminal := result.terminal
  informational := result.informational
  phase := result.phase
  outboundCertainty := result.outboundCertainty
  inboundExpected := result.inboundExpected
  inboundTransferred := result.inboundTransferred
  inboundCertainty := result.inboundCertainty

/-- The error of a raw command that was answered by DATA. -/
def rawCommandError (operation : PrimitiveOperation) (code : ProtocolErrorCode)
    (error : PrimitiveError) : PrimitiveError :=
  if operation = .rawCommand ∧ code = .unexpectedResponse then
    { error with
      code := .unsupported
      message := "Fastboot raw command returned DATA; raw DATA exchanges are not supported" }
  else error

/-- `command`. -/
def command (operation : PrimitiveOperation) (commandText : String)
    (retireOnSuccess : Bool := false) : Prog σ PrimitiveError PrimitiveReply := do
  match ← attempt (port.command commandText) with
  | .error error => do
      let s ← get
      throw (rawCommandError operation error.code
        (protocolError operation error false (port.state s = .poisoned)))
  | .ok result =>
      if result.terminal.kind ≠ .okay then throw (deviceFail operation result false)
      else do
        if retireOnSuccess then modify port.close
        pure (replyOf result)

/-- A command with a parameter. -/
def parameterCommand (operation : PrimitiveOperation) (verb parameter : String) :
    Prog σ PrimitiveError PrimitiveReply := do
  let commandText ← ofOutcome (validatedParameterCommand operation verb parameter)
  command port operation commandText

def getvar (key : String) : Prog σ PrimitiveError PrimitiveReply :=
  parameterCommand port .getVar "getvar:" key

/-- `finish_download` of the download of a source. -/
def finishDownload (operation : PrimitiveOperation) (source : Option Bytes) :
    Prog σ PrimitiveError PrimitiveReply := do
  match ← attempt (port.downloadSource source) with
  | .error error => do
      let s ← get
      throw (protocolError operation error true (port.state s = .poisoned))
  | .ok result =>
      if result.terminal.kind ≠ .okay then throw (deviceFail operation result true)
      else pure {
        terminal := result.terminal
        informational := result.informational
        phase := result.phase
        outboundCertainty := .fullyTransferred }

/-- `download_source`. -/
def downloadSource (source : Option Bytes) : Prog σ PrimitiveError PrimitiveReply := do
  ofOutcome (validateDownloadSource source)
  finishDownload port .download source

/-- `download_and_flash_source`. -/
def downloadAndFlashSource (partition : String) (source : Option Bytes) :
    Prog σ PrimitiveError DownloadAndFlashResult := do
  let flashCommand ← ofOutcome (validatedParameterCommand .flash "flash:" partition)
  ofOutcome (validateDownloadSource source)
  let downloaded ← downloadSource port source
  let flashed ← command port .flash flashCommand
  pure ⟨downloaded, flashed⟩

/-- `set_active`. -/
def setActive (slot : String) : Prog σ PrimitiveError PrimitiveReply :=
  parameterCommand port .setActive "set_active:" slot

/-- `fetch_to_sink`, into a sink and with an observer. -/
def fetchToSink (partition : String) (range : FetchRange) (maximumBytes : ℕ) :
    Prog σ PrimitiveError PrimitiveReply := do
  let commandText ← ofOutcome (fetchCommand partition range)
  match ← attempt (port.receiveToSink commandText maximumBytes) with
  | .error error => do
      let s ← get
      throw (protocolError .fetch error false (port.state s = .poisoned))
  | .ok result =>
      if result.terminal.kind ≠ .okay then throw (deviceFail .fetch result false)
      else pure (replyOf result)

end Methods

end PrimitiveService

end KairosBoot
