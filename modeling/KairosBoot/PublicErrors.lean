import KairosBoot.SlotPlanner
import KairosBoot.SparseFlashPlan
import KairosBoot.VendorBoot

/-! # The errors of public operations

What a public operation reports when it ends in failure or cancellation: the payload of
`operation_state.hpp` and the functions of `error_mapping.cpp` and `kairosboot.cpp` that make one
from the errors of the layers below.  `transferState` is the part that tells a caller whether data
has reached the device; `accumulateFlashTransferState` is where a flash of several parts
computes it. -/

namespace KairosBoot

/-- `kb_status_t`. -/
inductive Status where
  | ok | invalidArgument | outOfMemory | notSupported | noDevice | ambiguousDevice | busy | timeout
  | cancelled | io | internal | protocol | deviceFail
  deriving DecidableEq, Repr

/-- `kb_transfer_state_t`. -/
inductive TransferState where
  | notSent | partialOrUnknown | fullyTransferred
  deriving DecidableEq, Repr

inductive CommandMessageKind where
  | info | text
  deriving DecidableEq, Repr

structure CommandMessagePayload where
  kind : CommandMessageKind
  text : String
  deriving DecidableEq, Repr

structure OperationErrorPayload where
  status : Status := .internal
  message : String
  nativeCode : ℤ := 0
  transferState : TransferState := .notSent
  deviceIdentifier : String := ""
  deviceMessage : String := ""
  commandMessages : List CommandMessagePayload := []
  inboundExpected : Option ℕ := none
  inboundTransferred : ℕ := 0
  inboundTransferState : TransferState := .notSent
  sessionPoisoned : Bool := false
  deriving DecidableEq, Repr

/-! ### Primitives -/

/-- `primitive_status`. -/
def primitiveStatus : PrimitiveErrorCode → Status
  | .invalidArgument => .invalidArgument
  | .unsupported => .notSupported
  | .busy => .busy
  | .cancelled => .cancelled
  | .timeout => .timeout
  | .disconnected => .noDevice
  | .closed | .poisoned | .transportIo => .io
  | .protocolViolation => .protocol
  | .deviceFail => .deviceFail

/-- `transfer_state`. -/
def transferState : TransferCertainty → TransferState
  | .notTransferred => .notSent
  | .partialOrUnknown => .partialOrUnknown
  | .fullyTransferred => .fullyTransferred

/-- `command_messages`. -/
def commandMessages (responses : List Response) : List CommandMessagePayload :=
  responses.filterMap fun response =>
    match response.kind with
    | .info => some ⟨.info, response.payload⟩
    | .text => some ⟨.text, response.payload⟩
    | _ => none

def PrimitiveError.normalizePublicError (error : PrimitiveError) (deviceIdentifier : String) :
    OperationErrorPayload where
  status := primitiveStatus error.code
  message := error.message
  nativeCode := error.nativeCode
  transferState := transferState error.outboundCertainty
  deviceIdentifier := deviceIdentifier
  deviceMessage := error.deviceMessage
  commandMessages := commandMessages error.informational
  inboundExpected := error.inboundExpected
  inboundTransferred := error.inboundTransferred
  inboundTransferState := transferState error.inboundCertainty
  sessionPoisoned := error.sessionPoisoned

/-- `accumulate_flash_transfer_state`. -/
def accumulateFlashTransferState (payload : OperationErrorPayload)
    (failedOperation : PrimitiveOperation) (completedBeforePart currentPartSize totalSize : ℕ) :
    OperationErrorPayload :=
  if payload.transferState = .partialOrUnknown ∨ totalSize < completedBeforePart ∨
      totalSize - completedBeforePart < currentPartSize then
    { payload with transferState := .partialOrUnknown }
  else
    let knownCompleted :=
      if failedOperation = .flash ∨ payload.transferState = .fullyTransferred then
        completedBeforePart + currentPartSize
      else completedBeforePart
    { payload with
      transferState :=
        if knownCompleted = 0 then .notSent
        else if knownCompleted = totalSize then .fullyTransferred
        else .partialOrUnknown }

/-! ### The host -/

/-- `local_flash_error`, which is also `update_error` with its default state. -/
def localFlashError (status : Status) (message deviceIdentifier : String) :
    OperationErrorPayload where
  status := status
  message := message
  deviceIdentifier := deviceIdentifier

/-- The error of `cancelled_operation`. -/
def cancelledOperation (deviceIdentifier : String) (transferState : TransferState)
    (message : String := "operation cancelled") : OperationErrorPayload where
  status := .cancelled
  message := message
  transferState := transferState
  deviceIdentifier := deviceIdentifier

def ImageSourceError.normalizePublicError (error : ImageSourceError) (deviceIdentifier : String) :
    OperationErrorPayload :=
  localFlashError .io error.message deviceIdentifier

/-- The kinds that the mapping tells apart. -/
inductive FileSourceErrorKind where
  | invalidArgument | other
  deriving DecidableEq, Repr

structure FileSourceError where
  kind : FileSourceErrorKind
  nativeCode : ℤ
  message : String
  deriving DecidableEq, Repr

def FileSourceError.normalizePublicError (error : FileSourceError) (deviceIdentifier : String) :
    OperationErrorPayload :=
  { localFlashError (if error.kind = .invalidArgument then .invalidArgument else .io) error.message
      deviceIdentifier with nativeCode := error.nativeCode }

def sparseStatus : SparseErrorKind → Status
  | .invalidArgument => .invalidArgument
  | .unsupported => .notSupported
  | .cancelled => .cancelled
  | .malformed | .truncated | .source => .io

def SparseError.normalizePublicError (error : SparseError) (deviceIdentifier : String) :
    OperationErrorPayload :=
  localFlashError (sparseStatus error.kind)
    (error.message ++ " (input offset " ++ toString error.inputOffset ++ ")") deviceIdentifier

def sparseFlashPlanStatus : SparseFlashPlanErrorKind → Status
  | .invalidArgument => .invalidArgument
  | .unsupported => .notSupported
  | .source | .arithmeticOverflow => .io
  | .cancelled => .cancelled

def SparseFlashPlanError.normalizePublicError (error : SparseFlashPlanError)
    (deviceIdentifier : String) : OperationErrorPayload :=
  localFlashError (sparseFlashPlanStatus error.kind)
    (error.message ++ " (output offset " ++ toString error.outputOffset ++ ")") deviceIdentifier

inductive VbmetaFlagErrorKind where
  | malformed | source | cancelled
  deriving DecidableEq, Repr

structure VbmetaFlagError where
  kind : VbmetaFlagErrorKind
  inputOffset : ℕ
  message : String
  deriving DecidableEq, Repr

/-- `vbmeta_error`. -/
def vbmetaError (error : VbmetaFlagError) (deviceIdentifier : String) : OperationErrorPayload :=
  localFlashError
    (match error.kind with
      | .malformed => .invalidArgument
      | .source => .io
      | .cancelled => .cancelled)
    (error.message ++ " (input offset " ++ toString error.inputOffset ++ ")") deviceIdentifier

/-- `vendor_boot_repack_error`. -/
def vendorBootRepackError (error : VendorBoot.VendorBootRepackError) (deviceIdentifier : String) :
    OperationErrorPayload :=
  localFlashError
    (match error.kind with
      | .invalidArgument | .malformed | .sizeOverflow => .invalidArgument
      | .unsupported => .notSupported
      | .cancelled => .cancelled
      | .allocation => .outOfMemory
      | .source => .io)
    error.message deviceIdentifier

structure FileTransferSinkError where
  nativeCode : ℤ
  message : String
  deriving DecidableEq, Repr

/-- `file_sink_error`. -/
def fileSinkError (error : FileTransferSinkError) (deviceIdentifier : String) :
    OperationErrorPayload :=
  { localFlashError .io error.message deviceIdentifier with nativeCode := error.nativeCode }

/-! ### Slots -/

def slotStatus : SlotErrorCode → Status
  | .unsupported => .notSupported
  | .cancelled => .cancelled
  | .timedOut => .timeout
  | .invalidDeviceResponse | .queryFailed => .protocol
  | .invalidArgument | .ambiguous => .invalidArgument

/-- `slot_error`. -/
def slotError (error : SlotError) (deviceIdentifier : String) : OperationErrorPayload :=
  match error.queryError with
  | some query =>
      let result := query.normalizePublicError deviceIdentifier
      { result with
        message := error.message
        status := if query.code = .deviceFail then .notSupported else result.status }
  | none => localFlashError (slotStatus error.code) error.message deviceIdentifier

end KairosBoot
