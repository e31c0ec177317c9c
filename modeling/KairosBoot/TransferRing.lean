import KairosBoot.ByteSlices
import KairosBoot.PrefixTracking

/-! # The transfer ring

`TransferRing` of `transfer_ring.cpp`: a source is cut into chunks, each chunk gets a permit and is
submitted to a backend, at most `depth` chunks are in flight, and completions arrive in any order.

Everything outside the ring is a `RingEnvironment` over a state of its own type: the permit
provider or the budget, the backend, and the settlements the ring reports.  Whether a source read
succeeds is up to the environment; a read that succeeds stores the bytes of the source.  The ring
keeps a log of what happens to permits and submissions.  Telemetry is left out: it is written by
these functions and never read by them. -/

namespace KairosBoot

open ByteLib PrefixTracking

inductive SubmitResult where
  | accepted | noDevice | resourceExhausted | ioError
  deriving DecidableEq, Repr

inductive CompletionCode where
  | success | cancelled | noDevice | timeout | stall | ioError
  deriving DecidableEq, Repr

inductive TransferErrorKind where
  | invalidConfiguration | sourceRead | submitNoDevice | submitResourceExhausted | submitIo
  | partialTransfer | completionNoDevice | completionTimeout | completionStall | completionIo
  | unexpectedCancellation | invalidCompletion | userCancelled
  deriving DecidableEq, Repr

inductive DeliveryCertainty where
  | notSent | partialOrUnknown | fullyTransferred
  deriving DecidableEq, Repr

inductive TransferRingState where
  | idle | running | cancelling | drainingFailure | completed | cancelled | failed
  deriving DecidableEq, Repr

inductive TransferPermitSettlement where
  | fullyTransferred | notSubmitted | partialOrUnknown
  deriving DecidableEq, Repr

structure TransferCompletion where
  id : ℕ
  code : CompletionCode := .ioError
  transferredBytes : ℕ := 0
  deriving DecidableEq, Repr

structure TransferError where
  kind : TransferErrorKind := .completionIo
  certainty : DeliveryCertainty := .partialOrUnknown
  deriving DecidableEq, Repr

/-- A configuration, and what the ring was built with: a permit provider, or a budget with its
limit. -/
structure TransferRingConfig where
  chunkSize : ℕ := 1048576
  depth : ℕ := 8
  permitProvider : Bool := false
  budgetLimit : Option ℕ := none
  deriving DecidableEq, Repr

/-- `submit_error_kind`. -/
def submitErrorKind : SubmitResult → TransferErrorKind
  | .noDevice => .submitNoDevice
  | .resourceExhausted => .submitResourceExhausted
  | .ioError | .accepted => .submitIo

/-- `completion_error_kind`. -/
def completionErrorKind : CompletionCode → TransferErrorKind
  | .noDevice => .completionNoDevice
  | .timeout => .completionTimeout
  | .stall => .completionStall
  | .ioError | .success => .completionIo
  | .cancelled => .unexpectedCancellation

/-- A submission.  `payloadLifetime` is the serial number of the permit that holds the payload. -/
structure TransferSubmission where
  id : ℕ
  offset : ℕ
  payload : Bytes
  payloadLifetime : ℕ
  logicalMessageEnd : Bool := false
  deriving DecidableEq, Repr

/-- A permit, numbered in the order of acquisition.  It has no buffer when it was granted without
one, has been settled or moved from. -/
structure TransferPermit where
  serial : ℕ
  token : ℕ
  buffer : Option ℕ
  accepted : Bool := false
  deriving DecidableEq, Repr

/-- `TransferPermit::size`. -/
def TransferPermit.size (permit : TransferPermit) : ℕ := permit.buffer.getD 0

/-- What `try_acquire` does: it may also throw. -/
inductive AcquireOutcome where
  | granted (token : ℕ) (buffer : Option ℕ)
  | denied
  | threw
  deriving DecidableEq, Repr

/-- What `submit` does. -/
inductive SubmitOutcome where
  | returned (result : SubmitResult)
  | threw
  deriving DecidableEq, Repr

/-- A source: its bytes, and reads that may fail. -/
structure TransferSource (τ : Type) where
  content : Bytes
  readExact : ℕ → ℕ → τ → Bool × τ

structure RingEnvironment (τ : Type) where
  readinessGeneration : τ → ℕ
  tryAcquire : ℕ → τ → AcquireOutcome × τ
  waitForReady : ℕ → τ → Bool × τ
  cancelWait : τ → τ
  settle : ℕ → ℕ → TransferPermitSettlement → τ → τ
  submit : TransferSubmission → τ → SubmitOutcome × τ
  cancel : ℕ → τ → τ

/-- What happens to permits and submissions.  A permit is only acquired with a buffer. -/
inductive RingEvent where
  | acquired (permit size : ℕ)
  | submitted (submission : TransferSubmission) (outcome : SubmitOutcome)
  | completed (completion : TransferCompletion)
  | settled (permit size : ℕ) (result : TransferPermitSettlement)
  deriving DecidableEq, Repr

structure InFlight where
  offset : ℕ
  requestedBytes : ℕ
  permit : TransferPermit
  deriving DecidableEq, Repr

structure TransferRing (τ : Type) where
  world : τ
  source : Option (TransferSource τ) := none
  state : TransferRingState := .idle
  error : Option TransferError := none
  inFlight : List (ℕ × InFlight) := []
  successfulSegments : List (ℕ × ℕ) := []
  nextId : ℕ := 1
  totalBytes : ℕ := 0
  nextOffset : ℕ := 0
  completedBytes : ℕ := 0
  completionWatermark : ℕ := 0
  logicalMessageEnd : Bool := false
  permitWaitGeneration : ℕ := 0
  nextPermit : ℕ := 0
  log : List RingEvent := []

namespace TransferRing

variable {τ : Type} (env : RingEnvironment τ) (config : TransferRingConfig)

/-! ### Permits -/

/-- `TransferPermit::settle`: nothing without a buffer. -/
def settle (permit : TransferPermit) (result : TransferPermitSettlement) (r : TransferRing τ) :
    TransferRing τ :=
  match permit.buffer with
  | none => r
  | some size => { r with
      world := env.settle permit.token size result r.world
      log := r.log ++ [.settled permit.serial size result] }

/-- `~TransferPermit`. -/
def dropPermit (permit : TransferPermit) (r : TransferRing τ) : TransferRing τ :=
  settle env permit (if permit.accepted then .partialOrUnknown else .notSubmitted) r

/-! ### States -/

/-- `current_certainty`. -/
def currentCertainty (r : TransferRing τ) : DeliveryCertainty :=
  if r.totalBytes ≠ 0 ∧ r.completionWatermark = r.totalBytes then .fullyTransferred
  else if r.nextOffset = 0 then .notSent
  else .partialOrUnknown

/-- Give the error, if there is one, the certainty of now. -/
def updateCertainty (r : TransferRing τ) : TransferRing τ :=
  { r with error := r.error.map fun error => { error with certainty := r.currentCertainty } }

/-- `settle_terminal_state`. -/
def settleTerminalState (r : TransferRing τ) : TransferRing τ :=
  if r.state = .running ∧ r.nextOffset = r.totalBytes ∧ r.inFlight = [] then
    { r with state := .completed }
  else if r.state = .cancelling ∧ r.inFlight = [] then
    updateCertainty { r with state := .cancelled }
  else if r.state = .drainingFailure ∧ r.inFlight = [] then
    updateCertainty { r with state := .failed }
  else r

/-- `cancel_outstanding`. -/
def cancelOutstanding (r : TransferRing τ) : TransferRing τ :=
  { r with world := r.inFlight.foldl (fun world entry => env.cancel entry.1 world) r.world }

/-- Leave the running state: no more permits, and the backend is asked to cancel. -/
def leaveRunning (state : TransferRingState) (r : TransferRing τ) : TransferRing τ :=
  cancelOutstanding env { r with
    state := state
    world := if config.permitProvider then env.cancelWait r.world else r.world }

/-- The first error stays. -/
def recordError (kind : TransferErrorKind) (r : TransferRing τ) : TransferRing τ :=
  match r.error with
  | some _ => r
  | none => { r with error := some { kind := kind, certainty := r.currentCertainty } }

/-- `begin_failure`. -/
def beginFailure (kind : TransferErrorKind) (r : TransferRing τ) : TransferRing τ :=
  settleTerminalState
    (if (recordError kind r).state = .running then
      leaveRunning env config .drainingFailure (recordError kind r)
    else recordError kind r)

/-- `record_success`. -/
def recordSuccess (offset bytes : ℕ) (r : TransferRing τ) : TransferRing τ :=
  let segments := insertOrAssign offset bytes r.successfulSegments
  let advanced := advance segments.length r.completionWatermark segments
  { r with
    completedBytes := r.completedBytes + bytes
    completionWatermark := advanced.1
    successfulSegments := advanced.2 }

/-! ### Pumping -/

/-- How a round of `pump` ends: an exception leaves the call. -/
inductive Round where
  | accepted | stopped | threw
  deriving DecidableEq, Repr

def nextSubmission (permit : TransferPermit) (payload : Bytes) (r : TransferRing τ) :
    TransferSubmission where
  id := r.nextId
  offset := r.nextOffset
  payload := payload
  payloadLifetime := permit.serial
  logicalMessageEnd := r.logicalMessageEnd ∧ r.nextOffset + permit.size = r.totalBytes

/-- The entry of the next chunk; its permit is marked before `submit` is called. -/
def nextEntry (permit : TransferPermit) (r : TransferRing τ) : InFlight where
  offset := r.nextOffset
  requestedBytes := permit.size
  permit := { permit with accepted := true }

/-- The chunk may be with the backend. -/
def putInFlight (permit : TransferPermit) (r : TransferRing τ) : TransferRing τ :=
  { r with
    inFlight := r.inFlight ++ [(r.nextId, nextEntry permit r)]
    nextOffset := r.nextOffset + permit.size
    nextId := r.nextId + 1 }

/-- A round of `pump` from the call of `submit` on. -/
def submitChunk (permit : TransferPermit) (payload : Bytes) (r : TransferRing τ) :
    Round × TransferRing τ :=
  let submission := nextSubmission permit payload r
  if r.inFlight.any (·.1 = r.nextId) then
    -- The map has refused the entry, and the permit went with it.
    (.stopped, beginFailure env config .submitIo
      (dropPermit env permit { r with nextId := r.nextId + 1 }))
  else
    let submitted := env.submit submission r.world
    let r := { r with world := submitted.2, log := r.log ++ [.submitted submission submitted.1] }
    match submitted.1 with
    | .threw =>
        (.stopped, beginFailure env config .submitIo (putInFlight permit r))
    | .returned .accepted => (.accepted, putInFlight permit r)
    | .returned result =>
        (.stopped, beginFailure env config (submitErrorKind result)
          (settle env (nextEntry permit r).permit .notSubmitted
            { r with nextId := r.nextId + 1 }))

/-- A round of `pump` with a permit. -/
def pumpPermit (source : TransferSource τ) (maximumChunk : ℕ) (permit : TransferPermit)
    (r : TransferRing τ) : Round × TransferRing τ :=
  let chunk := permit.size
  if chunk = 0 ∨ maximumChunk < chunk then
    (.stopped, beginFailure env config .invalidConfiguration
      (settle env permit .notSubmitted r))
  else
    let read := source.readExact r.nextOffset chunk r.world
    let r := { r with world := read.2 }
    if read.1 then
      submitChunk env config permit (slice source.content r.nextOffset chunk) r
    else (.stopped, dropPermit env permit (beginFailure env config .sourceRead r))

/-- A round of `pump`. -/
def pumpRound (source : TransferSource τ) (r : TransferRing τ) : Round × TransferRing τ :=
  let maximumChunk := min (r.totalBytes - r.nextOffset) config.chunkSize
  let generation := if config.permitProvider then env.readinessGeneration r.world else 0
  let acquired := env.tryAcquire maximumChunk r.world
  let r := { r with world := acquired.2 }
  match acquired.1 with
  | .threw => (.threw, r)
  | .denied => (.stopped, { r with permitWaitGeneration := generation })
  | .granted token buffer =>
      pumpPermit env config source maximumChunk
        { serial := r.nextPermit, token := token, buffer := buffer }
        { r with
          nextPermit := r.nextPermit + 1
          log := r.log ++ (buffer.map (RingEvent.acquired r.nextPermit)).toList }

/-- The loop of `pump`.  A round that goes on submits a byte, so `fuel` is the number of bytes. -/
def pumpLoop (source : TransferSource τ) : ℕ → Bool → TransferRing τ → Option Bool × TransferRing τ
  | 0, submitted, r => (some submitted, r)
  | fuel + 1, submitted, r =>
      if r.state = .running ∧ r.inFlight.length < config.depth ∧ r.nextOffset < r.totalBytes then
        let round := pumpRound env config source r
        match round.1 with
        | .accepted => pumpLoop source fuel true round.2
        | .stopped => (some submitted, round.2)
        | .threw => (none, round.2)
      else (some submitted, r)

/-- `pump`; no result if an exception leaves it. -/
def pump (r : TransferRing τ) : Option Bool × TransferRing τ :=
  match r.source with
  | none => (some false, r)
  | some source =>
      if r.state ≠ .running then (some false, r)
      else
        let pumped := pumpLoop env config source (r.totalBytes - r.nextOffset) false r
        match pumped.1 with
        | none => (none, pumped.2)
        | some submitted => (some submitted, settleTerminalState pumped.2)

/-! ### Calls -/

/-- The checks of `start`. -/
def startRefused (source : Option (TransferSource τ)) (r : TransferRing τ) : Bool :=
  r.state ≠ .idle ∨ source.isNone ∨ (config.budgetLimit = none ∧ config.permitProvider = false) ∨
    config.chunkSize = 0 ∨ config.depth = 0 ∨
    (config.permitProvider = false ∧ config.budgetLimit.getD 0 < config.chunkSize)

/-- `start`. -/
def start (source : Option (TransferSource τ)) (logicalMessageEnd : Bool) (r : TransferRing τ) :
    Option Bool × TransferRing τ :=
  match source, startRefused config source r with
  | some source, false =>
      let r := { r with
        source := some source
        totalBytes := source.content.length
        logicalMessageEnd := logicalMessageEnd
        state := .running }
      if source.content.length = 0 then (some true, { r with state := .completed })
      else
        let pumped := pump env config r
        (pumped.1.map fun _ => pumped.2.state = .running ∨ pumped.2.state = .completed, pumped.2)
  | _, _ =>
      if r.state = .idle then
        (some false, { r with
          error := some { kind := .invalidConfiguration, certainty := .notSent }
          state := .failed })
      else (some false, r)

/-- `wait_for_permit_until`; whether the wait ends with the provider ready is up to the
environment. -/
def waitForPermitUntil (r : TransferRing τ) : Option Bool × TransferRing τ :=
  if r.state ≠ .running ∨ config.permitProvider = false ∨ r.inFlight ≠ [] then (some false, r)
  else
    let waited := env.waitForReady r.permitWaitGeneration r.world
    if waited.1 then pump env config { r with world := waited.2 }
    else (some false, { r with world := waited.2 })

/-- The part of `handle_completion` that deals with one entry. -/
def completeEntry (completion : TransferCompletion) (entry : InFlight) (r : TransferRing τ) :
    TransferRing τ :=
  if entry.requestedBytes < completion.transferredBytes then
    beginFailure env config .invalidCompletion
      (settle env entry.permit .partialOrUnknown r)
  else if completion.code = .success ∧ completion.transferredBytes = entry.requestedBytes then
    recordSuccess entry.offset entry.requestedBytes
      (settle env entry.permit .fullyTransferred r)
  else if completion.code = .success then
    beginFailure env config .partialTransfer
      (settle env entry.permit .partialOrUnknown r)
  else if completion.code = .cancelled ∧
      (r.state = .cancelling ∨ r.state = .drainingFailure) then
    settle env entry.permit .partialOrUnknown r
  else
    beginFailure env config (completionErrorKind completion.code)
      (settle env entry.permit .partialOrUnknown r)

/-- `handle_completion`. -/
def handleCompletion (completion : TransferCompletion) (r : TransferRing τ) :
    Option Bool × TransferRing τ :=
  match r.inFlight.lookup completion.id with
  | none => (some false, r)
  | some entry =>
      let r := completeEntry env config completion entry { r with
        inFlight := r.inFlight.filter (·.1 ≠ completion.id)
        log := r.log ++ [.completed completion] }
      if r.state = .running then
        let pumped := pump env config r
        match pumped.1 with
        | none => (none, pumped.2)
        | some _ => (some true, settleTerminalState pumped.2)
      else (some true, settleTerminalState r)

/-- `cancel`. -/
def cancel (r : TransferRing τ) : TransferRing τ :=
  if r.state ≠ .running then r
  else
    settleTerminalState (leaveRunning env config .cancelling { r with
      error := some { kind := .userCancelled, certainty := r.currentCertainty } })

/-- `~TransferRing`: the permits that are in flight are dropped. -/
def dropRing (r : TransferRing τ) : TransferRing τ :=
  r.inFlight.foldl (fun r entry => dropPermit env entry.2.permit r) { r with inFlight := [] }

inductive Call (τ : Type) where
  | start (source : Option (TransferSource τ)) (logicalMessageEnd : Bool)
  | pump
  | waitForPermitUntil
  | handleCompletion (completion : TransferCompletion)
  | cancel

def Call.run : Call τ → TransferRing τ → TransferRing τ
  | .start source logicalMessageEnd, r =>
      (TransferRing.start env config source logicalMessageEnd r).2
  | .pump, r => (TransferRing.pump env config r).2
  | .waitForPermitUntil, r => (TransferRing.waitForPermitUntil env config r).2
  | .handleCompletion completion, r =>
      (TransferRing.handleCompletion env config completion r).2
  | .cancel, r => TransferRing.cancel env config r

def after (calls : List (Call τ)) (world : τ) : TransferRing τ :=
  calls.foldl (fun r call => call.run env config r) { world }

end TransferRing

end KairosBoot
