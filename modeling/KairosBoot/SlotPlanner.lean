import KairosBoot.PrimitiveService
import Mathlib.Data.List.DropRight
import Mathlib.Data.List.Sort

/-! # Planning the slots of a partition

`SlotPlanner` of `primitive_service.cpp`: it asks the device for its slots and says which partition
names a request means.  `planPartitionSlots` is the variant of `kairosboot.cpp` for a partition
with a suffix after a colon.

A slot is named by one letter, so slot names are characters.  `OperationContext` is the
cancellation and the deadline of an operation: each answer may differ from the one before. -/

namespace KairosBoot

open Outcomes

/-- What an operation can find out about its own end: whether a stop was requested, whether its
deadline has been reached, and whether the stop was forwarded to the session during the last
call. -/
structure OperationContext (σ : Type) where
  stopRequested : σ → Bool × σ
  deadlineReached : σ → Bool × σ
  cancellationForwarded : σ → Bool × σ

inductive SlotErrorCode where
  | invalidArgument | unsupported | ambiguous | invalidDeviceResponse | queryFailed | cancelled
  | timedOut
  deriving DecidableEq, Repr

structure SlotError where
  code : SlotErrorCode
  message : String
  queryError : Option PrimitiveError := none
  deriving DecidableEq, Repr

inductive SlotTopologySource where
  | slotCount | legacySlotSuffixes
  deriving DecidableEq, Repr

structure SlotTopology where
  slots : List Char
  source : SlotTopologySource
  deriving DecidableEq, Repr

/-- A request for a slot; an explicit one has a name. -/
inductive SlotSelection where
  | current | explicit (name : Char) | other | all
  deriving DecidableEq, Repr

structure PartitionSlotPlan where
  slotted : Bool
  partitionNames : List String
  slots : List Char
  deriving DecidableEq, Repr

/-! ### Reading replies -/

def decimalValue (digits : List Char) : ℕ :=
  digits.foldl (fun value digit => 10 * value + (digit.toNat - '0'.toNat)) 0

/-- `std::from_chars` into an `unsigned int`, when it has to consume the whole text. -/
def fromCharsComplete (text : String) : Option ℕ :=
  if text.toList.length = 0 ∨ text.toList.all Char.isDigit = false ∨
      2 ^ 32 - 1 < decimalValue text.toList then none
  else some (decimalValue text.toList)

/-- The value of a digit in a base up to sixteen. -/
def digitValue (base : ℕ) (digit : Char) : Option ℕ :=
  let value :=
    if '0' ≤ digit ∧ digit ≤ '9' then digit.toNat - '0'.toNat
    else if 'a' ≤ digit ∧ digit ≤ 'f' then digit.toNat - 'a'.toNat + 10
    else if 'A' ≤ digit ∧ digit ≤ 'F' then digit.toNat - 'A'.toNat + 10
    else base
  if value < base then some value else none

/-- The characters that `parse_unsigned_variable` trims. -/
def isTrimmed (character : Char) : Bool :=
  character = ' ' || (decide ('\t' ≤ character) && decide (character ≤ '\r'))

/-- The base of a number and its digits. -/
def numberBase : List Char → ℕ × List Char
  | '0' :: mark :: digit :: rest =>
      if mark = 'x' ∨ mark = 'X' then (16, digit :: rest) else (10, '0' :: mark :: digit :: rest)
  | digits => (10, digits)

/-- `parse_unsigned_variable`. -/
def parseUnsignedVariable (text : String) : Option ℕ :=
  let (base, digits) := numberBase ((text.toList.dropWhile isTrimmed).rdropWhile isTrimmed)
  if digits.length = 0 then none
  else (digits.mapM (digitValue base)).bind fun values =>
    let value := values.foldl (fun value digit => base * value + digit) 0
    if 2 ^ 64 - 1 < value then none else some value

/-- The letter of a slot name that may start with an underscore. -/
def slotLetter (value : List Char) : Option Char :=
  match if value.head? = some '_' then value.tail else value with
  | [letter] => if 'a' ≤ letter ∧ letter ≤ 'z' then some letter else none
  | _ => none

/-- The slots `a`, `b`, … -/
def firstSlots (count : ℕ) : List Char :=
  (List.range count).map fun index => Char.ofNat ('a'.toNat + index)

/-- `std::adjacent_find` finds something. -/
def adjacentEqual : List Char → Bool
  | first :: second :: rest => decide (first = second) || adjacentEqual (second :: rest)
  | _ => false

namespace SlotPlanner

def slotError (code : SlotErrorCode) (message : String) : SlotError := { code, message }

/-- `slot_query_error`. -/
def slotQueryError (context : String) (error : PrimitiveError) : SlotError where
  code := if error.code = .deviceFail then .unsupported else .queryFailed
  message := if error.deviceMessage = "" then context else context ++ ": " ++ error.deviceMessage
  queryError := some error

/-- The query behind the error was rejected by the device. -/
def rejectedByDevice (error : SlotError) : Bool :=
  error.queryError.any fun query => decide (query.code = .deviceFail)

/-- `normalize_slot_name`. -/
def normalizeSlotName (value : List Char) (code : SlotErrorCode) (context : String) :
    Except SlotError Char :=
  match slotLetter value with
  | some letter => .ok letter
  | none => .error (slotError code
      (context ++ " must be one lowercase ASCII letter, optionally prefixed by '_'"))

/-- `parse_legacy_slot_suffixes`. -/
def parseLegacySlotSuffixes (payload : String) : Except SlotError (List Char) := do
  let slots ← (payload.toList.splitOn ',').mapM fun token =>
    normalizeSlotName token .invalidDeviceResponse "Fastboot slot-suffixes entry"
  if slots.length < 2 then
    throw (slotError .unsupported "Fastboot slot-suffixes does not describe an A/B device")
  else if 26 < slots.length then
    throw (slotError .invalidDeviceResponse "Fastboot slot-suffixes contains more than 26 slots")
  else
    let sorted := slots.insertionSort (· ≤ ·)
    if adjacentEqual sorted then
      throw (slotError .ambiguous "Fastboot slot-suffixes contains duplicate slot names")
    else pure sorted

/-- The slots that a reply to `slot-count` describes. -/
def parseSlotCount (payload : String) : Except SlotError (List Char) :=
  match fromCharsComplete payload with
  | none => .error (slotError .invalidDeviceResponse "Fastboot slot-count is not a decimal integer")
  | some count =>
      if count < 2 then
        .error (slotError .unsupported "Fastboot slot-count does not describe an A/B device")
      else if 26 < count then
        .error (slotError .invalidDeviceResponse
          "Fastboot slot-count exceeds the supported a-z namespace")
      else .ok (firstSlots count)

/-- `parse_slot_selection`. -/
def parseSlotSelection (value : String) : Except SlotError SlotSelection :=
  if value = "" then .ok .current
  else if value = "other" then .ok .other
  else if value = "all" then .ok .all
  else (normalizeSlotName value.toList .invalidArgument "Requested Fastboot slot").map .explicit

section Queries

variable {σ : Type} (port : SessionPort σ) (context : OperationContext σ)

/-- `slot_interruption`. -/
def slotInterruption (position : String) : Prog σ SlotError Unit := do
  if ← step context.stopRequested then
    throw (slotError .cancelled ("Fastboot slot query was cancelled " ++ position))
  else if ← step context.deadlineReached then
    throw (slotError .timedOut ("Fastboot slot query deadline expired " ++ position))
  else pure ()

/-- `query_variable`. -/
def queryVariable (name : String) : Prog σ SlotError PrimitiveReply := do
  slotInterruption context "before getvar"
  let reply ← attempt (PrimitiveService.getvar port name)
  slotInterruption context "after getvar"
  match reply with
  | .error error => throw (slotQueryError ("Failed to query Fastboot " ++ name) error)
  | .ok reply => pure reply

/-- A query whose rejection by the device has a message of its own. -/
def queryOr (name rejected : String) : Prog σ SlotError PrimitiveReply := do
  match ← attempt (queryVariable port context name) with
  | .error error =>
      throw (if rejectedByDevice error then { error with message := rejected } else error)
  | .ok reply => pure reply

/-- `query_topology`. -/
def queryTopology : Prog σ SlotError SlotTopology := do
  match ← attempt (queryVariable port context "slot-count") with
  | .ok reply => do
      let slots ← ofOutcome (parseSlotCount reply.terminal.payload)
      pure ⟨slots, .slotCount⟩
  | .error error =>
      if rejectedByDevice error then do
        let reply ← queryOr port context "slot-suffixes"
          "Device does not expose Fastboot slot-count or slot-suffixes"
        let slots ← ofOutcome (parseLegacySlotSuffixes reply.terminal.payload)
        pure ⟨slots, .legacySlotSuffixes⟩
      else throw error

/-- `query_has_slot`. -/
def queryHasSlot (partition : String) : Prog σ SlotError Bool := do
  let key := "has-slot:" ++ partition
  let reply ← queryOr port context key ("Device does not expose Fastboot " ++ key)
  if reply.terminal.payload = "yes" then pure true
  else if reply.terminal.payload = "no" then pure false
  else throw (slotError .invalidDeviceResponse
    ("Fastboot " ++ key ++ " must return exactly 'yes' or 'no'"))

/-- `query_current_slot`. -/
def queryCurrentSlot (topology : SlotTopology) : Prog σ SlotError Char := do
  let reply ← queryOr port context "current-slot" "Device does not expose Fastboot current-slot"
  let current ← ofOutcome (normalizeSlotName reply.terminal.payload.toList
    .invalidDeviceResponse "Fastboot current-slot")
  if current ∈ topology.slots then pure current
  else throw (slotError .invalidDeviceResponse
    "Fastboot current-slot is absent from the discovered slot topology")

/-- The slot that is not the current one; the list has two. -/
def otherSlot (slots : List Char) (current : Char) : Char :=
  if slots.headD 'a' = current then slots.getLastD 'a' else slots.headD 'a'

/-- `resolve_slots`. -/
def resolveSlots (topology : SlotTopology) (selection : SlotSelection) (allowAll : Bool) :
    Prog σ SlotError (List Char) :=
  match selection with
  | .explicit name =>
      if name ∈ topology.slots then pure [name]
      else throw (slotError .invalidArgument "Requested Fastboot slot does not exist on the device")
  | .all =>
      if allowAll then pure topology.slots
      else throw (slotError .invalidArgument
        "Fastboot slot 'all' is not valid for a single-slot operation")
  | .current => do
      let current ← queryCurrentSlot port context topology
      pure [current]
  | .other =>
      if topology.slots.length ≠ 2 then
        throw (slotError .ambiguous
          "Fastboot slot 'other' is unambiguous only on a two-slot device")
      else do
        let current ← queryCurrentSlot port context topology
        pure [otherSlot topology.slots current]

/-- `resolve_active_slot`. -/
def resolveActiveSlot (requestedSlot : String) : Prog σ SlotError Char := do
  let selection ← ofOutcome (parseSlotSelection requestedSlot)
  if selection = .all then
    throw (slotError .invalidArgument "Fastboot set_active cannot target every slot")
  else do
    let topology ← queryTopology port context
    let slots ← resolveSlots port context topology selection false
    pure (slots.headD 'a')

def slottedName (partition : String) (slot : Char) : String := (partition.push '_').push slot

/-- `plan_partition`. -/
def planPartition (partition requestedSlot : String) : Prog σ SlotError PartitionSlotPlan := do
  if PrimitiveService.isValidPartitionName partition = false then
    throw (slotError .invalidArgument
      "Fastboot partition name must use ASCII letters, digits, '.', '-' or '_'")
  else do
    let selection ← ofOutcome (parseSlotSelection requestedSlot)
    let hasSlot ← queryHasSlot port context partition
    if hasSlot = false then
      if selection ≠ .current then
        throw (slotError .unsupported
          "An explicit Fastboot slot was requested for a non-slotted partition")
      else pure ⟨false, [partition], []⟩
    else do
      let topology ← queryTopology port context
      let slots ← resolveSlots port context topology selection true
      pure ⟨true, slots.map (slottedName partition), slots⟩

end Queries

end SlotPlanner

/-- The part of a partition argument before its first colon. -/
def baseName (partition : String) : String :=
  String.ofList (partition.toList.takeWhile (· ≠ ':'))

/-- The part from the first colon on. -/
def nameSuffix (partition : String) : String :=
  String.ofList (partition.toList.dropWhile (· ≠ ':'))

/-- `plan_partition_slots`. -/
def planPartitionSlots {σ : Type} (port : SessionPort σ) (context : OperationContext σ)
    (partition requestedSlot : String) : Prog σ SlotError PartitionSlotPlan := do
  let plan ← SlotPlanner.planPartition port context (baseName partition) requestedSlot
  pure { plan with partitionNames := plan.partitionNames.map (· ++ nameSuffix partition) }

end KairosBoot
