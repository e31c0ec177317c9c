import KairosBoot.SlotPlanner
import KairosBoot.UpdatePackage

/-! # The device of an update

The parts of `primitive_update_device.cpp` that all of its tasks share: errors, interruptions and
calls that a cancellation is forwarded to; and the partition names of `PrimitiveUpdateDevice`, with
the caches that belong to the generation of its session. -/

namespace KairosBoot

open Outcomes

inductive UpdateDeviceErrorKind where
  | failed | cancelled | timedOut | unsupported
  deriving DecidableEq, Repr

structure UpdateDeviceError where
  kind : UpdateDeviceErrorKind
  phase : ProtocolPhase := .validation
  message : String
  deviceMessage : String := ""
  informational : List Response := []
  transportStatus : TransportStatus := .ok
  transportCertainty : TransferCertainty := .notTransferred
  outboundCertainty : TransferCertainty := .notTransferred
  inboundExpected : Option ℕ := none
  inboundTransferred : ℕ := 0
  inboundCertainty : TransferCertainty := .notTransferred
  sessionPoisoned : Bool := false
  sessionClosed : Bool := false
  nativeCode : ℤ := 0
  taskCertainty : TransferCertainty := .notTransferred
  completedActions : ℕ := 0
  totalActions : ℕ := 0
  deriving DecidableEq, Repr

/-- `local_error`. -/
def localError (kind : UpdateDeviceErrorKind) (message : String)
    (phase : ProtocolPhase := .validation) (outbound : TransferCertainty := .notTransferred)
    (sessionClosed : Bool := false) : UpdateDeviceError where
  kind := kind
  phase := phase
  message := message
  transportCertainty := outbound
  outboundCertainty := outbound
  sessionClosed := sessionClosed

/-- What an error takes over from the reply that it follows. -/
def UpdateDeviceError.withReply (error : UpdateDeviceError) (reply : PrimitiveReply) :
    UpdateDeviceError :=
  { error with
    informational := reply.informational
    inboundExpected := reply.inboundExpected
    inboundTransferred := reply.inboundTransferred
    inboundCertainty := reply.inboundCertainty }

/-- `retain_quarantine_if_forwarded`. -/
def retainQuarantineIfForwarded (forwarded : Bool) (error : UpdateDeviceError) :
    UpdateDeviceError :=
  if forwarded then { error with sessionPoisoned := true } else error

/-- The fields of an error of a primitive, with the kind that the context decides. -/
def updateErrorOf (error : PrimitiveError) (kind : UpdateDeviceErrorKind) : UpdateDeviceError where
  kind := kind
  phase := error.phase
  message := error.message
  deviceMessage := error.deviceMessage
  informational := error.informational
  transportStatus := error.transportStatus
  transportCertainty := error.transportCertainty
  outboundCertainty := error.outboundCertainty
  inboundExpected := error.inboundExpected
  inboundTransferred := error.inboundTransferred
  inboundCertainty := error.inboundCertainty
  sessionPoisoned := error.sessionPoisoned || decide (error.code = .poisoned)
  sessionClosed := decide (error.code = .closed)
  nativeCode := error.nativeCode

/-- The kind of an error by its code alone. -/
def primitiveKind : PrimitiveErrorCode → UpdateDeviceErrorKind
  | .cancelled => .cancelled
  | .timeout => .timedOut
  | .unsupported => .unsupported
  | _ => .failed

section Context

variable {σ ε α : Type} (context : OperationContext σ)

/-- The kind of interruption that the context reports. -/
def interruptionKind : Prog σ ε (Option UpdateDeviceErrorKind) := do
  if ← step context.stopRequested then pure (some .cancelled)
  else if ← step context.deadlineReached then pure (some .timedOut)
  else pure none

/-- `interruption`. -/
def interruption (message : String) (phase : ProtocolPhase := .validation)
    (outbound : TransferCertainty := .notTransferred) (sessionClosed : Bool := false) :
    Prog σ ε (Option UpdateDeviceError) := do
  let kind ← interruptionKind context
  pure (kind.map fun kind => localError kind message phase outbound sessionClosed)

/-- `interruption_after_reply`. -/
def interruptionAfterReply (message : String) (reply : PrimitiveReply)
    (sessionClosed : Bool := false) : Prog σ ε (Option UpdateDeviceError) := do
  let stopped ← interruption context message reply.phase reply.outboundCertainty sessionClosed
  pure (stopped.map (·.withReply reply))

/-- `map_primitive_update_error`. -/
def mapPrimitiveUpdateError (error : PrimitiveError) : Prog σ ε UpdateDeviceError := do
  let kind ← interruptionKind context
  pure (updateErrorOf error (kind.getD (primitiveKind error.code)))

/-- `invoke_with_cancellation`: the outcome of a call and whether a stop was forwarded to it. -/
def invokeWithCancellation (call : Prog σ PrimitiveError α) :
    Prog σ ε (Except PrimitiveError α × Bool) := do
  let outcome ← attempt call
  let forwarded ← step context.cancellationForwarded
  pure (outcome, forwarded)

/-- Fail with an error if there is one. -/
def refuseWith (error : Option ε) : Prog σ ε Unit :=
  match error with
  | some error => throw error
  | none => pure ()

end Context

/-- `printable_parameter`; `verbSize` is the length of the command before the parameter. -/
def printableParameter (value : String) (verbSize : ℕ) : Bool :=
  decide (value.toList.length ≠ 0 ∧ verbSize ≤ kDefaultMaxCommandBytes ∧
    value.toList.length ≤ kDefaultMaxCommandBytes - verbSize) &&
  PrimitiveService.isPrintableAscii value

/-- `PrimitiveUpdateDevice`: the outside, the generation of its session, and what it has learned
about the device in a generation. -/
structure PrimitiveUpdateDevice (σ : Type) where
  outside : σ
  generation : ℕ := 0
  cacheGeneration : ℕ := 0
  maximumDownloadSize : Option ℕ := none
  currentSlot : Option Char := none
  slotTopology : Option (List Char) := none
  hasSlot : List (String × Bool) := []

namespace PrimitiveUpdateDevice

/-- `parse_legacy_slot_topology`. -/
def parseLegacySlotTopology (payload : String) : Except UpdateDeviceError (List Char) :=
  match (payload.toList.splitOn ',').mapM slotLetter with
  | none => .error (localError .failed "Fastboot slot-suffixes contains an invalid slot name"
      .finalResponse .fullyTransferred)
  | some slots =>
      if slots.length < 2 ∨ 26 < slots.length then
        .error (localError .failed "Fastboot slot-suffixes must contain between 2 and 26 slots"
          .finalResponse .fullyTransferred)
      else
        let sorted := slots.insertionSort (· ≤ ·)
        if adjacentEqual sorted then
          .error (localError .failed "Fastboot slot-suffixes contains duplicate slot names"
            .finalResponse .fullyTransferred)
        else .ok sorted

/-- The slots that a reply to `slot-count` describes. -/
def parseSlotCount (payload : String) : Except UpdateDeviceError (List Char) :=
  match fromCharsComplete payload with
  | none => .error (localError .failed
      "Fastboot slot-count must be a complete decimal integer from 2 to 26" .finalResponse
      .fullyTransferred)
  | some count =>
      if count < 2 ∨ 26 < count then
        .error (localError .failed
          "Fastboot slot-count must be a complete decimal integer from 2 to 26" .finalResponse
          .fullyTransferred)
      else .ok (firstSlots count)

section Methods

variable {σ ε α : Type} (port : SessionPort σ) (context : OperationContext σ)

/-- A program that concerns the outside only. -/
def outward (x : Prog σ ε α) : Prog (PrimitiveUpdateDevice σ) ε α :=
  ExceptT.mk fun device =>
    ((exec x device.outside).1, { device with outside := (exec x device.outside).2 })

/-- `getvar`. -/
def getvar (name : String) : Prog σ UpdateDeviceError String := do
  refuseWith (← interruption context "getvar was interrupted before sending a command")
  let (outcome, forwarded) ← invokeWithCancellation context (PrimitiveService.getvar port name)
  match outcome with
  | .error error => do
      let mapped ← mapPrimitiveUpdateError context error
      throw (retainQuarantineIfForwarded forwarded mapped)
  | .ok reply =>
      if reply.terminal.kind ≠ .okay then
        throw (retainQuarantineIfForwarded forwarded
          { localError .failed "getvar returned a non-OKAY terminal response" reply.phase
              reply.outboundCertainty with informational := reply.informational })
      else if Char.ofNat 0 ∈ reply.terminal.payload.toList then
        throw (retainQuarantineIfForwarded forwarded
          { localError .failed "getvar OKAY payload contains an embedded NUL" reply.phase
              reply.outboundCertainty with informational := reply.informational })
      else do
        let stopped ← interruptionAfterReply context "getvar was interrupted after the command"
          reply
        refuseWith (stopped.map (retainQuarantineIfForwarded forwarded))
        pure reply.terminal.payload

/-- `synchronize_session_cache_generation`. -/
def synchronizeSessionCacheGeneration (device : PrimitiveUpdateDevice σ) :
    PrimitiveUpdateDevice σ :=
  if device.cacheGeneration = device.generation then device
  else
    { device with
      cacheGeneration := device.generation
      maximumDownloadSize := none
      currentSlot := none
      slotTopology := none
      hasSlot := [] }

/-- `current_slot`. -/
def resolveCurrentSlot (topology : List Char) :
    Prog (PrimitiveUpdateDevice σ) UpdateDeviceError Char := do
  outward do
    refuseWith (← interruption context "slot resolution was interrupted before current-slot")
  modify synchronizeSessionCacheGeneration
  match (← get).currentSlot with
  | some slot => pure slot
  | none => do
      let value ← outward (getvar port context "current-slot")
      match slotLetter value.toList with
      | none => throw (localError .failed
          "Fastboot current-slot must be one lowercase a-z slot name" .finalResponse
          .fullyTransferred)
      | some slot =>
          if slot ∈ topology then do
            modify fun device => { device with currentSlot := some slot }
            pure slot
          else throw (localError .failed
            "Fastboot current-slot is absent from the discovered slot topology" .finalResponse
            .fullyTransferred)

/-- The device has rejected the query for `slot-count`, and nothing has interrupted it. -/
def rejectedUninterrupted (error : PrimitiveError) (forwarded : Bool) : Prog σ ε Bool := do
  let interrupted ← interruptionKind context
  pure (decide (error.code = .deviceFail ∧ interrupted = none) && !forwarded)

/-- The query half of `slot_topology`. -/
def queryTopology : Prog σ UpdateDeviceError (List Char) := do
  let (outcome, forwarded) ← invokeWithCancellation context
    (PrimitiveService.getvar port "slot-count")
  match outcome with
  | .error error =>
      if ← rejectedUninterrupted context error forwarded then do
        let suffixes ← getvar port context "slot-suffixes"
        ofOutcome (parseLegacySlotTopology suffixes)
      else do
        let mapped ← mapPrimitiveUpdateError context error
        throw (retainQuarantineIfForwarded forwarded mapped)
  | .ok reply => do
      let stopped ← interruptionAfterReply context
        "slot resolution was interrupted after slot-count" reply
      refuseWith (stopped.map (retainQuarantineIfForwarded forwarded))
      ofOutcome (parseSlotCount reply.terminal.payload)

/-- `slot_topology`. -/
def resolveTopology : Prog (PrimitiveUpdateDevice σ) UpdateDeviceError (List Char) := do
  outward do
    refuseWith (← interruption context "slot resolution was interrupted before topology query")
  modify synchronizeSessionCacheGeneration
  match (← get).slotTopology with
  | some topology => pure topology
  | none => do
      let topology ← outward (queryTopology port context)
      modify fun device => { device with slotTopology := some topology }
      pure topology

/-- `partition_has_slot`. -/
def partitionHasSlot (partition : String) :
    Prog (PrimitiveUpdateDevice σ) UpdateDeviceError Bool := do
  outward do
    refuseWith (← interruption context "slot resolution was interrupted before has-slot")
  modify synchronizeSessionCacheGeneration
  match (← get).hasSlot.lookup partition with
  | some result => pure result
  | none => do
      let value ← outward (getvar port context ("has-slot:" ++ partition))
      if value = "yes" ∨ value = "no" then do
        modify fun device => { device with hasSlot := (partition, value = "yes") :: device.hasSlot }
        pure (value = "yes")
      else throw (localError .failed "Fastboot has-slot value must be exactly 'yes' or 'no'"
        .finalResponse .fullyTransferred)

/-- The part of `resolve_partition` for the other slot. -/
def resolveOther (partition : String) :
    Prog (PrimitiveUpdateDevice σ) UpdateDeviceError String := do
  if (baseName partition).toList.length = 0 then
    throw (localError .failed "slot-other partition has an empty base name")
  else do
    let hasSlot ← partitionHasSlot port context (baseName partition)
    if hasSlot = false then
      throw (localError .failed "slot-other cannot target a non-slotted partition" .finalResponse
        .fullyTransferred)
    else do
      let topology ← resolveTopology port context
      if topology.length ≠ 2 then
        throw (localError .failed
          "Fastboot slot 'other' is unambiguous only on a two-slot device" .finalResponse
          .fullyTransferred)
      else do
        let current ← resolveCurrentSlot port context topology
        let resolved := SlotPlanner.slottedName (baseName partition)
          (SlotPlanner.otherSlot topology current) ++ nameSuffix partition
        if printableParameter resolved "flash:".toList.length = false then
          throw (localError .failed
            "resolved slot-other partition exceeds Fastboot command limits")
        else pure resolved

/-- `resolve_partition`. -/
def resolvePartition (partition : String) (slot : PlannedSlot) :
    Prog (PrimitiveUpdateDevice σ) UpdateDeviceError String := do
  outward do
    refuseWith (← interruption context "flash partition resolution was interrupted")
  match slot with
  | .default => pure partition
  | .other => resolveOther port context partition

end Methods

end PrimitiveUpdateDevice

end KairosBoot
