import KairosBoot.Deadlines
import KairosBoot.FastbootSession

/-! # Reconnecting to a device

The model of `reconnect_coordinator.cpp`: after a device has left the bus, find it at its physical
port, open it, and hand out a session only if the device is the one that was expected.

* An enumeration value that comes from outside may be none of the enumerators; such a value is
  `none`.
* `ReconnectEnvironment` is the discovery, the opener, the waiter with its clock, and the
  cancellation, each with any behaviour.
* `ReconnectRun` is the state of a call: the outside world, the attempts so far, the last time and
  the backoff.  Its `log` has everything that was asked of the environment, with the answers; the
  coordinator does not read it.
* `reconnectRound` is one turn of the loop of `reconnect`.  The loop has as many turns as there may
  be discoveries, and one more.

The capability that a candidate carries for the opener is left out. -/

namespace KairosBoot

open Outcomes

/-! ### Identities -/

structure UsbPhysicalPortPath where
  busNumber : UInt8
  ports : Bytes
  deriving DecidableEq, Repr

inductive FastbootUsbMode where
  | bootloader | fastbootd
  deriving DecidableEq, Repr

structure ReconnectUsbFingerprint where
  vendorId : UInt16
  productId : UInt16
  interfaceNumber : UInt8
  interfaceClass : UInt8
  interfaceSubclass : UInt8
  interfaceProtocol : UInt8
  deriving DecidableEq, Repr

structure ReconnectCandidate where
  physicalPort : UsbPhysicalPortPath
  serial : Option Bytes
  usbFingerprint : ReconnectUsbFingerprint
  deriving DecidableEq, Repr

structure ReconnectDeviceIdentity where
  physicalPort : UsbPhysicalPortPath
  serial : Option Bytes
  usbFingerprint : ReconnectUsbFingerprint
  product : Bytes
  mode : Option FastbootUsbMode
  deriving DecidableEq, Repr

inductive ReconnectUsbFingerprintPolicy where
  | exact | allowChangeWithLiveIdentity
  deriving DecidableEq, Repr

structure ReconnectTarget where
  physicalPort : UsbPhysicalPortPath
  serial : Option Bytes
  usbFingerprint : ReconnectUsbFingerprint
  product : Bytes
  previousMode : Option FastbootUsbMode := some .bootloader
  requiredMode : Option FastbootUsbMode := some .fastbootd
  usbFingerprintPolicy : Option ReconnectUsbFingerprintPolicy := some .exact
  precedingOperationCertainty : Option TransferCertainty := some .fullyTransferred
  deriving DecidableEq, Repr

/-- `valid_physical_port`. -/
def validPhysicalPort (port : UsbPhysicalPortPath) : Bool :=
  port.ports ≠ [] ∧ port.ports.length ≤ 7 ∧ port.ports.all (· ≠ 0)

/-- `valid_identity_text`. -/
def validIdentityText (text : Bytes) : Bool :=
  text ≠ [] ∧ ¬ text.any fun value => value < 0x20 ∨ value = 0x7F

/-- `valid_optional_identity_text`. -/
def validOptionalIdentityText (text : Option Bytes) : Bool :=
  text.all validIdentityText

/-- `valid_usb_fingerprint`. -/
def validUsbFingerprint (fingerprint : ReconnectUsbFingerprint) : Bool :=
  fingerprint.vendorId ≠ 0 ∧ fingerprint.interfaceClass = 0xFF ∧
    fingerprint.interfaceSubclass = 0x42 ∧ fingerprint.interfaceProtocol = 0x03

/-- `reconnect_usb_fingerprint_allowed`; no mode has been verified yet if there is none. -/
def reconnectUsbFingerprintAllowed (target : ReconnectTarget) (observed : ReconnectUsbFingerprint)
    (verifiedMode : Option (Option FastbootUsbMode)) : Bool :=
  if target.usbFingerprintPolicy = some .exact then observed = target.usbFingerprint
  else if target.usbFingerprintPolicy ≠ some .allowChangeWithLiveIdentity ∨
      target.previousMode = target.requiredMode ∨
      target.precedingOperationCertainty ≠ some .fullyTransferred then false
  else
    match verifiedMode with
    | none => true
    | some mode =>
        if mode = target.previousMode then observed = target.usbFingerprint
        else mode = target.requiredMode

/-- `reconnect_identity_matches_target`. -/
def reconnectIdentityMatchesTarget (target : ReconnectTarget) (identity : ReconnectDeviceIdentity) :
    Bool :=
  identity.physicalPort = target.physicalPort ∧
    (target.serial = none ∨ identity.serial = target.serial) ∧
    identity.product = target.product ∧
    (identity.mode = target.previousMode ∨ identity.mode = target.requiredMode) ∧
    reconnectUsbFingerprintAllowed target identity.usbFingerprint (some identity.mode)

/-! ### Errors -/

structure ReconnectDiscoveryError where
  message : String
  nativeCode : ℤ
  retryable : Bool
  deriving DecidableEq, Repr

structure ReconnectOpenError where
  message : String
  nativeCode : ℤ
  retryable : Bool
  outboundCertainty : Option TransferCertainty := some .partialOrUnknown
  deriving DecidableEq, Repr

/-- What `open` returns.  The session is null, or it is in some state. -/
structure OpenedReconnectSession where
  verifiedIdentity : ReconnectDeviceIdentity
  session : Option SessionState
  outboundCertainty : Option TransferCertainty := some .partialOrUnknown
  deriving DecidableEq, Repr

inductive ReconnectWaitStatus where
  | elapsed | cancelled | failed
  deriving DecidableEq, Repr

structure ReconnectWaitResult where
  status : Option ReconnectWaitStatus := some .elapsed
  message : String := ""
  nativeCode : ℤ := 0
  deriving DecidableEq, Repr

/-- Backoffs are in milliseconds. -/
structure ReconnectOptions where
  initialBackoff : ℤ := 50
  maximumBackoff : ℤ := 1000
  maximumDiscoveredDevices : ℕ := 4096
  maximumDiscoveryAttempts : ℕ := 18446744073709551615
  maximumOpenAttempts : ℕ := 18446744073709551615
  deriving DecidableEq, Repr

inductive ReconnectErrorCode where
  | invalidArgument | unsafePreviousOutcome | cancelled | deadlineExceeded | discoveryFailed
  | discoveryContractViolation | ambiguousPhysicalPort | portOccupiedByDifferentDevice
  | usbFingerprintMismatch | productMismatch | openFailed | openOutcomeUncertain
  | openContractViolation | deviceChangedDuringOpen | waitFailed | clockContractViolation
  | attemptLimitExceeded
  deriving DecidableEq, Repr

inductive ReconnectStage where
  | validation | discovery | selection | backoff | opening | verification
  deriving DecidableEq, Repr

inductive ReconnectObservation where
  | none | discoveryUnavailable | deviceAbsent | candidatePresent | previousModePresent
  | requiredModePresent
  deriving DecidableEq, Repr

structure AttemptState where
  discoveryAttempts : ℕ := 0
  openAttempts : ℕ := 0
  lastObservation : ReconnectObservation := .none
  observedCandidate : Option ReconnectCandidate := none
  observedIdentity : Option ReconnectDeviceIdentity := none
  discoveryError : Option ReconnectDiscoveryError := none
  openError : Option ReconnectOpenError := none
  deriving DecidableEq, Repr

structure ReconnectError extends AttemptState where
  code : ReconnectErrorCode
  stage : ReconnectStage
  message : String
  nativeCode : ℤ := 0
  precedingOperationCertainty : Option TransferCertainty
  reconnectOutboundCertainty : Option TransferCertainty := some .notTransferred
  deriving DecidableEq, Repr

structure ReconnectedSession where
  identity : ReconnectDeviceIdentity
  session : Option SessionState
  outboundCertainty : Option TransferCertainty
  discoveryAttempts : ℕ
  openAttempts : ℕ
  deriving DecidableEq, Repr

/-- `make_error`. -/
def makeError (code : ReconnectErrorCode) (stage : ReconnectStage) (message : String)
    (target : ReconnectTarget) (state : AttemptState) (nativeCode : ℤ)
    (certainty : Option TransferCertainty) : ReconnectError :=
  { state with
    code := code
    stage := stage
    message := message
    nativeCode := nativeCode
    precedingOperationCertainty := target.precedingOperationCertainty
    reconnectOutboundCertainty := certainty }

/-- `clear_dependency_failures`. -/
def clearDependencyFailures (state : AttemptState) : AttemptState :=
  { state with discoveryError := none, openError := none }

/-- At a limit the failures are cleared. -/
def clearIf (condition : Prop) [Decidable condition] (state : AttemptState) : AttemptState :=
  if condition then clearDependencyFailures state else state

/-- `deadline_message`. -/
def deadlineMessage : ReconnectObservation → String
  | .none => "Fastboot reconnect deadline expired before a usable discovery result"
  | .discoveryUnavailable =>
      "Fastboot reconnect deadline expired while passive USB discovery was unavailable"
  | .deviceAbsent => "Fastboot reconnect deadline expired while the physical port was absent"
  | .candidatePresent =>
      "Fastboot reconnect deadline expired while opening the passive USB candidate"
  | .previousModePresent => "Fastboot reconnect deadline expired before the device changed mode"
  | .requiredModePresent =>
      "Fastboot reconnect deadline expired while opening the verified device"

/-- `remaining_time`. -/
def remainingTime (now deadline : ℤ) : ℤ := deadlineRemaining deadline now

/-- `next_backoff`. -/
def nextBackoff (current maximum : ℤ) : ℤ :=
  if maximum ≤ current then maximum
  else if maximum - current < current then maximum
  else min maximum (current + current)

/-- `validate_reconnect_request`. -/
def validateReconnectRequest (target : ReconnectTarget) (options : ReconnectOptions) :
    Except ReconnectError Unit :=
  let refuse (code : ReconnectErrorCode) (message : String) : Except ReconnectError Unit :=
    .error (makeError code .validation message target {} 0 (some .notTransferred))
  if ¬ validPhysicalPort target.physicalPort then
    refuse .invalidArgument "Fastboot reconnect requires a non-empty physical USB port path"
  else if ¬ validOptionalIdentityText target.serial ∨ ¬ validIdentityText target.product ∨
      ¬ validUsbFingerprint target.usbFingerprint then
    refuse .invalidArgument
      "Fastboot reconnect requires a valid optional serial, USB fingerprint, and product identity"
  else if target.previousMode = none ∨ target.requiredMode = none ∨
      target.usbFingerprintPolicy = none ∨ target.precedingOperationCertainty = none then
    refuse .invalidArgument "Fastboot reconnect target contains an invalid enum value"
  else if options.initialBackoff ≤ 0 ∨ options.maximumBackoff < options.initialBackoff ∨
      options.maximumDiscoveredDevices = 0 ∨ options.maximumDiscoveryAttempts = 0 ∨
      options.maximumOpenAttempts = 0 then
    refuse .invalidArgument "Fastboot reconnect backoff and discovery limits are invalid"
  else if target.precedingOperationCertainty = some .partialOrUnknown then
    refuse .unsafePreviousOutcome
      "Fastboot reconnect refused an uncertain preceding operation; no offset or protocol state will be guessed"
  else if target.usbFingerprintPolicy = some .allowChangeWithLiveIdentity ∧
      (target.previousMode = target.requiredMode ∨
        target.precedingOperationCertainty ≠ some .fullyTransferred) then
    refuse .invalidArgument
      "Fastboot reconnect may change USB fingerprint only for a fully transferred mode transition"
  else .ok ()

/-! ### The environment -/

abbrev DiscoveryResult := Except ReconnectDiscoveryError (List ReconnectCandidate)

abbrev OpenResult := Except ReconnectOpenError OpenedReconnectSession

structure ReconnectEnvironment (τ : Type) where
  now : τ → ℤ × τ
  stopRequested : τ → Bool × τ
  discover : τ → DiscoveryResult × τ
  openCandidate : ReconnectCandidate → τ → OpenResult × τ
  waitFor : ℤ → τ → ReconnectWaitResult × τ

inductive ReconnectEvent where
  | clock (now : ℤ)
  | stopAsked (requested : Bool)
  | discovered (result : DiscoveryResult)
  | opened (candidate : ReconnectCandidate) (result : OpenResult)
  | waited (duration : ℤ) (result : ReconnectWaitResult)

structure ReconnectRun (τ : Type) where
  world : τ
  attempt : AttemptState := {}
  lastTime : ℤ := 0
  backoff : ℤ := 0
  log : List ReconnectEvent := []

namespace ReconnectCoordinator

variable {τ : Type} (env : ReconnectEnvironment τ) (target : ReconnectTarget)
  (deadline : ℤ) (options : ReconnectOptions)

abbrev ReconnectM (τ : Type) := Prog (ReconnectRun τ) ReconnectError

/-- Ask the environment for something. -/
def ask {α : Type} (f : τ → α × τ) (event : α → ReconnectEvent) : ReconnectM τ α :=
  step fun s => ((f s.world).1,
    { s with world := (f s.world).2, log := s.log ++ [event (f s.world).1] })

/-- `waiter_.now()`. -/
def readClock : ReconnectM τ ℤ := ask env.now .clock

/-- `cancellation.stop_requested()`. -/
def stopRequested : ReconnectM τ Bool := ask env.stopRequested .stopAsked

/-- Change the attempts. -/
def note (f : AttemptState → AttemptState) : ReconnectM τ Unit :=
  modify fun s => { s with attempt := f s.attempt }

/-- Return an error under a condition. -/
def refuseIf (condition : Prop) [Decidable condition] (code : ReconnectErrorCode)
    (stage : ReconnectStage) (message : String) (nativeCode : ℤ := 0)
    (certainty : Option TransferCertainty := some .notTransferred) : ReconnectM τ Unit :=
  get >>= fun s =>
    if condition then throw (makeError code stage message target s.attempt nativeCode certainty)
    else pure ()

/-- The clock must not go back. -/
def observeClock (stage : ReconnectStage) (movedBack : String) (nativeCode : ℤ := 0)
    (certainty : Option TransferCertainty := some .notTransferred) : ReconnectM τ ℤ := do
  let now ← readClock env
  let s ← get
  refuseIf target (now < s.lastTime) .clockContractViolation stage movedBack nativeCode certainty
  modify fun s => { s with lastTime := now }
  return now

/-- The checks around discoveries, opens and the publication. -/
def checkpoint (stage : ReconnectStage) (movedBack cancelled expired : String) (nativeCode : ℤ := 0)
    (certainty : Option TransferCertainty := some .notTransferred) : ReconnectM τ Unit := do
  let now ← observeClock env target stage movedBack nativeCode certainty
  let requested ← stopRequested env
  refuseIf target (requested = true) .cancelled stage cancelled nativeCode certainty
  refuseIf target (deadline ≤ now) .deadlineExceeded stage expired nativeCode certainty

/-! ### Discovery -/

/-- The native code and the certainty of the deadline error before a discovery. -/
def lastFailure (state : AttemptState) : ℤ × Option TransferCertainty :=
  match state.openError, state.discoveryError with
  | some error, _ => (error.nativeCode, error.outboundCertainty)
  | none, some error => (error.nativeCode, some .notTransferred)
  | none, none => (0, some .notTransferred)

/-- The attempts at the start of a discovery. -/
def beginDiscovery (state : AttemptState) : AttemptState :=
  { clearDependencyFailures state with
    discoveryAttempts := state.discoveryAttempts + 1
    lastObservation := .none
    observedCandidate := none
    observedIdentity := none }

/-- The start of a turn, up to the discovery. -/
def beginRound : ReconnectM τ Unit := do
  let requested ← stopRequested env
  refuseIf target (requested = true) .cancelled .discovery
    "Fastboot reconnect was cancelled before discovery"
  let now ← observeClock env target .backoff "Fastboot reconnect clock moved backwards"
  let s ← get
  refuseIf target (deadline ≤ now) .deadlineExceeded .backoff
    (deadlineMessage s.attempt.lastObservation) (lastFailure s.attempt).1 (lastFailure s.attempt).2
  note (clearIf (options.maximumDiscoveryAttempts ≤ s.attempt.discoveryAttempts))
  refuseIf target (options.maximumDiscoveryAttempts ≤ s.attempt.discoveryAttempts)
    .attemptLimitExceeded .discovery "Fastboot reconnect reached its discovery attempt limit"
  note beginDiscovery

/-- What a discovery that failed leaves behind. -/
def noteDiscovery (result : DiscoveryResult) (state : AttemptState) : AttemptState :=
  match result with
  | .ok _ => state
  | .error error => { state with
      discoveryError := some error
      lastObservation := .discoveryUnavailable
      observedCandidate := none
      observedIdentity := none }

/-- `discovery_.discover` and the checks after it. -/
def discover : ReconnectM τ DiscoveryResult := do
  let result ← ask env.discover .discovered
  note (noteDiscovery result)
  let s ← get
  checkpoint env target deadline .discovery
    "Fastboot reconnect clock moved backwards during discovery"
    "Fastboot reconnect was cancelled during discovery"
    "Fastboot reconnect deadline expired during discovery"
    ((s.attempt.discoveryError.map ReconnectDiscoveryError.nativeCode).getD 0)
  return result

/-- The search for the device at the physical port; a second one is an error. -/
def findCandidate : Option ReconnectCandidate → List ReconnectCandidate →
    Except ReconnectCandidate (Option ReconnectCandidate)
  | found, [] => .ok found
  | found, device :: devices =>
      if device.physicalPort ≠ target.physicalPort then findCandidate found devices
      else
        match found with
        | some _ => .error device
        | none => findCandidate (some device) devices

/-- The device at the physical port, if there is one. -/
def selectCandidate (devices : List ReconnectCandidate) :
    ReconnectM τ (Option ReconnectCandidate) := do
  refuseIf target (options.maximumDiscoveredDevices < devices.length) .discoveryContractViolation
    .discovery "Fastboot reconnect discovery exceeded its configured device limit"
  match findCandidate target none devices with
  | .error device => do
      note fun state => { state with observedCandidate := some device }
      let s ← get
      throw (makeError .ambiguousPhysicalPort .selection
        "Fastboot reconnect discovery returned multiple devices at the same physical port" target
        s.attempt 0 (some .notTransferred))
  | .ok none => do
      note fun state => { state with
        lastObservation := .deviceAbsent
        observedCandidate := none
        observedIdentity := none }
      return none
  | .ok (some candidate) => do
      note fun state => { state with
        lastObservation := .candidatePresent
        observedCandidate := some candidate
        observedIdentity := none }
      refuseIf target (¬ validPhysicalPort candidate.physicalPort ∨
          ¬ validOptionalIdentityText candidate.serial ∨
          ¬ validUsbFingerprint candidate.usbFingerprint) .discoveryContractViolation .discovery
        "Fastboot reconnect discovery returned an invalid passive USB candidate"
      refuseIf target (¬ reconnectUsbFingerprintAllowed target candidate.usbFingerprint none)
        .usbFingerprintMismatch .selection
        "Fastboot reconnect physical port has a different USB fingerprint"
      refuseIf target (target.serial ≠ none ∧ candidate.serial ≠ none ∧
          candidate.serial ≠ target.serial) .portOccupiedByDifferentDevice .selection
        "Fastboot reconnect physical port is occupied by a different serial"
      return some candidate

/-! ### Opening -/

def openCertainty : OpenResult → Option TransferCertainty
  | .ok opened => opened.outboundCertainty
  | .error error => error.outboundCertainty

def openNativeCode : OpenResult → ℤ
  | .ok _ => 0
  | .error error => error.nativeCode

/-- What an open leaves behind. -/
def noteOpen (result : OpenResult) (state : AttemptState) : AttemptState :=
  { state with
    discoveryError := none
    openError := match result with
      | .ok _ => none
      | .error error => some error }

/-- `opener_.open` and the checks around it. -/
def openSession (candidate : ReconnectCandidate) : ReconnectM τ OpenResult := do
  let s ← get
  note (clearIf (options.maximumOpenAttempts ≤ s.attempt.openAttempts))
  refuseIf target (options.maximumOpenAttempts ≤ s.attempt.openAttempts) .attemptLimitExceeded
    .opening "Fastboot reconnect reached its open attempt limit"
  checkpoint env target deadline .opening
    "Fastboot reconnect clock moved backwards before open"
    "Fastboot reconnect was cancelled before open"
    "Fastboot reconnect deadline expired before open"
  note fun state => { state with openAttempts := state.openAttempts + 1 }
  let result ← ask (env.openCandidate candidate) (.opened candidate)
  note (noteOpen result)
  refuseIf target (openCertainty result = none) .openContractViolation .opening
    "Fastboot reconnect opener returned an invalid aggregate transfer certainty"
    (openNativeCode result)
  checkpoint env target deadline .opening
    "Fastboot reconnect clock moved backwards during open"
    "Fastboot reconnect was cancelled while opening the replacement session"
    "Fastboot reconnect deadline expired during open"
    (openNativeCode result) (openCertainty result)
  return result

/-- The checks of an open that failed: it may only be tried again if nothing was sent. -/
def retryOpen (error : ReconnectOpenError) : ReconnectM τ Unit := do
  refuseIf target (error.outboundCertainty ≠ some .notTransferred) .openOutcomeUncertain .opening
    "Fastboot reconnect opener emitted protocol bytes; the result will not be retried or resumed"
    error.nativeCode error.outboundCertainty
  refuseIf target (¬ error.retryable) .openFailed .opening
    ("Fastboot reconnect could not open the replacement session: " ++ error.message)
    error.nativeCode

/-- The checks of a session, up to its mode. -/
def verifyIdentity (candidate : ReconnectCandidate) (opened : OpenedReconnectSession) :
    ReconnectM τ Unit := do
  let verified := opened.verifiedIdentity
  let certainty := opened.outboundCertainty
  refuseIf target (certainty = some .partialOrUnknown) .openOutcomeUncertain .opening
    "Fastboot reconnect opener reported a successful session with an uncertain aggregate transfer outcome"
    0 certainty
  note fun state => { state with observedIdentity := some verified }
  refuseIf target (opened.session = none) .openContractViolation .opening
    "Fastboot reconnect opener returned a null session" 0 certainty
  refuseIf target (¬ validPhysicalPort verified.physicalPort ∨
      ¬ validOptionalIdentityText verified.serial ∨ ¬ validUsbFingerprint verified.usbFingerprint ∨
      ¬ validIdentityText verified.product ∨ verified.mode = none) .openContractViolation
    .verification "Fastboot reconnect opener returned an invalid verified identity" 0 certainty
  refuseIf target (verified.physicalPort ≠ target.physicalPort ∨
      verified.usbFingerprint ≠ candidate.usbFingerprint ∨
      (target.serial ≠ none ∧ verified.serial ≠ target.serial) ∨
      (candidate.serial ≠ none ∧ verified.serial ≠ candidate.serial)) .deviceChangedDuringOpen
    .verification "Fastboot device identity changed between discovery and exclusive open" 0 certainty
  refuseIf target (verified.product ≠ target.product) .productMismatch .verification
    "Fastboot reconnect product does not match the original device" 0 certainty
  refuseIf target
    (¬ reconnectUsbFingerprintAllowed target verified.usbFingerprint (some verified.mode))
    .usbFingerprintMismatch .verification
    "Fastboot reconnect live mode does not authorize the changed USB fingerprint" 0 certainty

/-- Publish a session in the required mode.  Nothing is published while the device is still in the
mode before. -/
def publish (opened : OpenedReconnectSession) : ReconnectM τ (Option ReconnectedSession) := do
  let verified := opened.verifiedIdentity
  let certainty := opened.outboundCertainty
  if verified.mode = target.previousMode ∧ target.previousMode ≠ target.requiredMode then do
    note fun state => { state with lastObservation := .previousModePresent }
    return none
  else do
    refuseIf target (verified.mode ≠ target.requiredMode) .openContractViolation .verification
      "Fastboot reconnect opener returned an unexpected verified mode" 0 certainty
    refuseIf target (¬ reconnectIdentityMatchesTarget target verified) .openContractViolation
      .verification "Fastboot reconnect verified identity does not match the reconnect target" 0
      certainty
    refuseIf target (opened.session ≠ some .ready) .openContractViolation .verification
      "Fastboot reconnect opener returned a session that is not ready" 0 certainty
    note fun state => { state with lastObservation := .requiredModePresent }
    checkpoint env target deadline .verification
      "Fastboot reconnect clock moved backwards before publishing the session"
      "Fastboot reconnect was cancelled before publishing the session"
      "Fastboot reconnect deadline expired before publishing the session" 0 certainty
    let s ← get
    return some {
      identity := verified
      session := opened.session
      outboundCertainty := certainty
      discoveryAttempts := s.attempt.discoveryAttempts
      openAttempts := s.attempt.openAttempts }

/-! ### The loop -/

/-- The wait before the next turn. -/
def backOff (certainty : Option TransferCertainty) : ReconnectM τ Unit := do
  let requested ← stopRequested env
  refuseIf target (requested = true) .cancelled .backoff
    "Fastboot reconnect was cancelled before backoff" 0 certainty
  let beforeWait ← observeClock env target .backoff
    "Fastboot reconnect clock moved backwards before backoff" 0 certainty
  let s ← get
  let remaining := remainingTime beforeWait deadline
  refuseIf target (remaining ≤ 0) .deadlineExceeded .backoff
    (deadlineMessage s.attempt.lastObservation) 0 certainty
  let delay := min s.backoff remaining
  let result ← ask (env.waitFor delay) (.waited delay)
  refuseIf target (result.status = some .cancelled) .cancelled .backoff
    (if result.message = "" then "Fastboot reconnect backoff was cancelled" else result.message)
    result.nativeCode certainty
  let requested ← stopRequested env
  refuseIf target (requested = true) .cancelled .backoff
    (if result.message = "" then "Fastboot reconnect backoff was cancelled" else result.message)
    result.nativeCode certainty
  refuseIf target (result.status = some .failed) .waitFailed .backoff
    (if result.message = "" then "Fastboot reconnect backoff wait failed" else result.message)
    result.nativeCode certainty
  refuseIf target (result.status ≠ some .elapsed) .waitFailed .backoff
    "Fastboot reconnect waiter returned an invalid status" result.nativeCode certainty
  let afterWait ← readClock env
  refuseIf target (afterWait ≤ beforeWait) .clockContractViolation .backoff
    "Fastboot reconnect waiter elapsed without advancing its clock" 0 certainty
  modify fun s => { s with lastTime := afterWait }
  refuseIf target (deadline ≤ afterWait) .deadlineExceeded .backoff
    (deadlineMessage s.attempt.lastObservation) 0 certainty
  modify fun s => { s with backoff := nextBackoff s.backoff options.maximumBackoff }

/-- What is done with the device at the port: a session, or the certainty for the next wait. -/
def tryCandidate (candidate : ReconnectCandidate) :
    ReconnectM τ (Option ReconnectedSession × Option TransferCertainty) := do
  let result ← openSession env target deadline options candidate
  match result with
  | .error error => do
      retryOpen target error
      return (none, error.outboundCertainty)
  | .ok opened => do
      verifyIdentity target candidate opened
      let published ← publish env target deadline opened
      return (published, opened.outboundCertainty)

/-- A turn up to the wait. -/
def attemptRound : ReconnectM τ (Option ReconnectedSession × Option TransferCertainty) := do
  beginRound env target deadline options
  let discovered ← discover env target deadline
  match discovered with
  | .error error => do
      refuseIf target (¬ error.retryable) .discoveryFailed .discovery
        ("Fastboot reconnect discovery failed: " ++ error.message) error.nativeCode
      return (none, some .notTransferred)
  | .ok devices => do
      let candidate ← selectCandidate target options devices
      match candidate with
      | none => return (none, some .notTransferred)
      | some candidate => tryCandidate env target deadline options candidate

/-- A turn of the loop. -/
def reconnectRound : ReconnectM τ (Option ReconnectedSession) := do
  let attempted ← attemptRound env target deadline options
  match attempted.1 with
  | some session => return some session
  | none => do
      backOff env target deadline options attempted.2
      return none

/-- The loop; there is no result if it runs out of turns. -/
def reconnectLoop : ℕ → ReconnectM τ (Option ReconnectedSession)
  | 0 => pure none
  | turns + 1 => do
      let session ← reconnectRound env target deadline options
      match session with
      | some session => return some session
      | none => reconnectLoop turns

/-- `reconnect`. -/
def reconnect : ReconnectM τ (Option ReconnectedSession) := do
  match validateReconnectRequest target options with
  | .error error => throw error
  | .ok () => do
      let now ← readClock env
      modify fun s => { s with lastTime := now, backoff := options.initialBackoff }
      reconnectLoop env target deadline options (options.maximumDiscoveryAttempts + 1)

end ReconnectCoordinator

end KairosBoot
