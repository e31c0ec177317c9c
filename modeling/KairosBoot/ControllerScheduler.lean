import KairosBoot.TransferRing

/-! # The weighted controller scheduler

The model of `controller_scheduler.cpp` with the budget of `buffer_budget.cpp`.  Every call takes
the scheduler's lock, so a call is one step.

* `BufferBudget` counts the bytes of the leases that are alive.  A lease is its size, and a lease
  without storage is `none`.
* `WeightedControllerScheduler` is the state under the lock.  Its `log` has the flows that were
  added, the grants, the settlements and the retirements in order; no call reads it.
* `Fleet` is a scheduler with everything that its users hold: dispatches, permits, providers, and
  the leases that others have of the same budget.  `Fleet.step` is a step of one of the users, and
  `Fleet.after` a run.

The generation counter only wakes up those who wait, so it is left out; whether a wait was notified
is an argument of `waitEnds`. -/

namespace KairosBoot

/-! ### The budget -/

structure BufferBudget where
  limit : UInt64
  used : UInt64 := 0
  deriving DecidableEq, Repr

namespace BufferBudget

def available (budget : BufferBudget) : UInt64 :=
  if budget.limit ≤ budget.used then 0 else budget.limit - budget.used

/-- `try_acquire`: the budget with the charge of a lease of this size. -/
def tryAcquire (bytes : UInt64) (budget : BufferBudget) : Option BufferBudget :=
  if bytes = 0 then some budget
  else if budget.limit < budget.used ∨ budget.limit - budget.used < bytes then none
  else some { budget with used := budget.used + bytes }

/-- `release_charge`. -/
def releaseCharge (bytes : UInt64) (budget : BufferBudget) : BufferBudget :=
  { budget with used := budget.used - bytes }

end BufferBudget

/-- `std::min`. -/
def smaller (left right : UInt64) : UInt64 := if right < left then right else left

def maximumWord : UInt64 := 18446744073709551615

/-- `saturating_add`. -/
def saturatingAdd (left right : UInt64) : UInt64 :=
  if maximumWord - left < right then maximumWord else left + right

/-- `saturating_multiply`. -/
def saturatingMultiply (quantum : UInt64) (weight : UInt32) : UInt64 :=
  if weight ≠ 0 ∧ maximumWord / weight.toUInt64 < quantum then maximumWord
  else quantum * weight.toUInt64

/-! ### The state -/

structure DeviceFlowSpec where
  deviceId : String
  controllerId : String
  weight : UInt32 := 1
  bytesRemaining : UInt64 := 0
  maxOutstanding : UInt64 := 1
  deriving DecidableEq, Repr

inductive FleetDispatchSettlement where
  | fullyTransferred | notSubmitted | partialOrUnknown
  deriving DecidableEq, Repr

/-- `permit_settlement`. -/
def permitSettlement : FleetDispatchSettlement → TransferPermitSettlement
  | .fullyTransferred => .fullyTransferred
  | .notSubmitted => .notSubmitted
  | .partialOrUnknown => .partialOrUnknown

structure Flow where
  deviceId : String
  controllerId : String
  weight : UInt32 := 1
  remaining : UInt64 := 0
  deficit : UInt64 := 0
  outstandingCount : UInt64 := 0
  maxOutstanding : UInt64 := 1
  requested : Bool := false
  retired : Bool := false
  providerAttached : Bool := false
  deriving DecidableEq, Repr

structure Controller where
  id : String
  flows : List String := []
  cursor : ℕ := 0
  deriving DecidableEq, Repr

structure Outstanding where
  deviceId : String
  bytes : UInt64
  deriving DecidableEq, Repr

structure Grant where
  token : UInt64
  deviceId : String
  controllerId : String
  bytes : UInt64
  memory : Option UInt64
  deriving DecidableEq, Repr

inductive SchedulerEvent where
  | added (deviceId : String) (bytes : UInt64)
  | granted (token : UInt64) (deviceId : String) (bytes : UInt64)
  | settled (token : UInt64) (deviceId : String) (bytes : UInt64) (result : TransferPermitSettlement)
  | retired (deviceId : String)
  deriving DecidableEq, Repr

/-- The maps from names to flows and to controllers are lists without repetitions. -/
structure WeightedControllerScheduler where
  hasBudget : Bool := true
  quantum : UInt64
  budget : BufferBudget
  flows : List Flow := []
  controllers : List Controller := []
  controllerOrder : List String := []
  controllerCursor : ℕ := 0
  outstanding : List (UInt64 × Outstanding) := []
  nextToken : UInt64 := 1
  log : List SchedulerEvent := []
  deriving Repr

namespace WeightedControllerScheduler

def findFlow (deviceId : String) (s : WeightedControllerScheduler) : Option Flow :=
  s.flows.find? (·.deviceId = deviceId)

def updateFlow (deviceId : String) (f : Flow → Flow) (s : WeightedControllerScheduler) :
    WeightedControllerScheduler :=
  { s with flows := s.flows.map fun flow => if flow.deviceId = deviceId then f flow else flow }

def findController (id : String) (s : WeightedControllerScheduler) : Option Controller :=
  s.controllers.find? (·.id = id)

def setController (controller : Controller) (s : WeightedControllerScheduler) :
    WeightedControllerScheduler :=
  { s with
    controllers := s.controllers.map fun other =>
      if other.id = controller.id then controller else other }

/-! ### Grants -/

/-- `allocate_token`, with the next token afterwards.  `fuel` tries are enough while fewer than that
tokens are taken. -/
def allocateToken (outstanding : List (UInt64 × Outstanding)) : ℕ → UInt64 → Option (UInt64 × UInt64)
  | 0, _ => none
  | fuel + 1, token =>
      if token = 0 ∨ outstanding.any (·.1 = token) then allocateToken outstanding fuel (token + 1)
      else some (token, token + 1)

/-- What comes of looking at one flow. -/
inductive Attempt where
  | skipped
  | refused
  | granted (grant : Grant) (turnOver : Bool)
  deriving DecidableEq, Repr

/-- The flow after a grant. -/
def chargeFlow (bytes : UInt64) (flow : Flow) : Flow :=
  { flow with
    outstandingCount := flow.outstandingCount + 1
    requested := flow.requested && !flow.providerAttached
    deficit := flow.deficit - bytes
    remaining := flow.remaining - bytes }

def commitGrant (grant : Grant) (budget : BufferBudget) (nextToken : UInt64)
    (s : WeightedControllerScheduler) : WeightedControllerScheduler :=
  { s.updateFlow grant.deviceId (chargeFlow grant.bytes) with
    budget := budget
    nextToken := nextToken
    outstanding := s.outstanding ++ [(grant.token, ⟨grant.deviceId, grant.bytes⟩)]
    log := s.log ++ [.granted grant.token grant.deviceId grant.bytes] }

/-- A flow that may not have a grant now. -/
def blocked (flow : Flow) : Bool :=
  flow.remaining = 0 ∨ flow.retired ∨ (flow.providerAttached ∧ ¬ flow.requested) ∨
    flow.maxOutstanding ≤ flow.outstandingCount

/-- The deficit for the turn of a flow. -/
def turnDeficit (quantum : UInt64) (flow : Flow) : UInt64 :=
  if flow.deficit = 0 then saturatingAdd flow.deficit (saturatingMultiply quantum flow.weight)
  else flow.deficit

/-- The body of the loop of `next_for_controller`; no device is required if the name is empty. -/
def attempt (maximumBytes : UInt64) (requiredDevice : String) (flow : Flow)
    (s : WeightedControllerScheduler) : Attempt × WeightedControllerScheduler :=
  if blocked flow then (.skipped, s)
  else if requiredDevice ≠ "" ∧ flow.deviceId ≠ requiredDevice then (.refused, s)
  else
    let desired := smaller (smaller maximumBytes s.budget.available) flow.remaining
    if desired = 0 then (.refused, s)
    else
      let deficit := turnDeficit s.quantum flow
      let s := s.updateFlow flow.deviceId fun flow => { flow with deficit := deficit }
      let bytes := smaller deficit desired
      if bytes = 0 then (.skipped, s)
      else
        match s.budget.tryAcquire bytes,
            allocateToken s.outstanding (s.outstanding.length + 2) s.nextToken with
        | some budget, some (token, nextToken) =>
            let grant := {
              token := token
              deviceId := flow.deviceId
              controllerId := flow.controllerId
              bytes := bytes
              memory := some bytes }
            (.granted grant (flow.remaining - bytes = 0 ∨ deficit - bytes = 0),
              s.commitGrant grant budget nextToken)
        | _, _ => (.refused, s)

/-- Go on to the next flow. -/
def turn (controller : Controller) : Controller :=
  { controller with cursor := (controller.cursor + 1) % controller.flows.length }

/-- The loop of `next_for_controller`. -/
def attempts (maximumBytes : UInt64) (requiredDevice : String) :
    ℕ → Controller → WeightedControllerScheduler →
      Option Grant × Controller × WeightedControllerScheduler
  | 0, controller, s => (none, controller, s)
  | count + 1, controller, s =>
      let controller :=
        if controller.flows.length ≤ controller.cursor then { controller with cursor := 0 }
        else controller
      match (controller.flows[controller.cursor]?).bind (findFlow · s) with
      | none => (none, controller, s)
      | some flow =>
          let attempted := attempt maximumBytes requiredDevice flow s
          match attempted.1 with
          | .skipped =>
              attempts maximumBytes requiredDevice count (turn controller) attempted.2
          | .refused => (none, controller, attempted.2)
          | .granted grant turnOver =>
              (some grant, if turnOver then turn controller else controller,
                attempted.2)

/-- `next_for_controller`. -/
def nextForController (controller : Controller) (maximumBytes : UInt64) (requiredDevice : String)
    (s : WeightedControllerScheduler) : Option Grant × WeightedControllerScheduler :=
  if controller.flows = [] ∨ s.budget.available = 0 then (none, s)
  else
    let attempted := attempts maximumBytes requiredDevice controller.flows.length controller s
    (attempted.1, attempted.2.2.setController attempted.2.1)

/-- The loop of `next`. -/
def nextLoop (maximumBytes : UInt64) :
    ℕ → WeightedControllerScheduler → Option Grant × WeightedControllerScheduler
  | 0, s => (none, s)
  | count + 1, s =>
      let cursor := if s.controllerOrder.length ≤ s.controllerCursor then 0 else s.controllerCursor
      let s := { s with controllerCursor := (cursor + 1) % s.controllerOrder.length }
      match (s.controllerOrder[cursor]?).bind (findController · s) with
      | none => (none, s)
      | some controller =>
          let dispatched := nextForController controller maximumBytes "" s
          match dispatched.1 with
          | some grant => (some grant, dispatched.2)
          | none => nextLoop maximumBytes count dispatched.2

/-- `next`. -/
def next (maximumBytes : UInt64) (s : WeightedControllerScheduler) :
    Option Grant × WeightedControllerScheduler :=
  if s.hasBudget = false ∨ maximumBytes = 0 ∨ s.controllerOrder = [] then (none, s)
  else nextLoop maximumBytes s.controllerOrder.length s

/-- `acquire_for`. -/
def acquireFor (deviceId : String) (maximumBytes : UInt64) (s : WeightedControllerScheduler) :
    Option Grant × WeightedControllerScheduler :=
  if s.hasBudget = false ∨ maximumBytes = 0 then (none, s)
  else
    match s.findFlow deviceId with
    | none => (none, s)
    | some flow =>
        if ¬ flow.providerAttached ∨ flow.retired ∨ flow.remaining = 0 then (none, s)
        else
          let s := s.updateFlow deviceId fun flow => { flow with requested := true }
          if flow.maxOutstanding ≤ flow.outstandingCount then (none, s)
          else
            match s.findController flow.controllerId with
            | none => (none, s)
            | some controller => nextForController controller maximumBytes deviceId s

/-! ### Settlements and flows -/

def settleFlow (bytes : UInt64) (result : TransferPermitSettlement) (flow : Flow) : Flow :=
  { flow with
    remaining :=
      if result = .notSubmitted then saturatingAdd flow.remaining bytes else flow.remaining
    outstandingCount := flow.outstandingCount - 1
    retired := flow.retired || result = .partialOrUnknown
    requested := flow.requested && result ≠ .partialOrUnknown }

def settleEvents (token : UInt64) (deviceId : String) (bytes : UInt64)
    (result : TransferPermitSettlement) : List SchedulerEvent :=
  .settled token deviceId bytes result ::
    if result = .partialOrUnknown then [.retired deviceId] else []

def commitSettlement (token : UInt64) (entry : Outstanding) (result : TransferPermitSettlement)
    (s : WeightedControllerScheduler) : WeightedControllerScheduler :=
  { s.updateFlow entry.deviceId (settleFlow entry.bytes result) with
    outstanding := s.outstanding.erase (token, entry)
    log := s.log ++ settleEvents token entry.deviceId entry.bytes result }

/-- `settle`; every device is expected if the name is empty. -/
def settle (token : UInt64) (expectedDevice : String) (bytes : UInt64)
    (result : TransferPermitSettlement) (s : WeightedControllerScheduler) :
    Bool × WeightedControllerScheduler :=
  match s.outstanding.lookup token with
  | none => (false, s)
  | some entry =>
      if entry.bytes ≠ bytes ∨ (expectedDevice ≠ "" ∧ entry.deviceId ≠ expectedDevice) then
        (false, s)
      else
        match s.findFlow entry.deviceId with
        | none => (false, s)
        | some flow =>
            if flow.outstandingCount = 0 then (false, s)
            else (true, s.commitSettlement token entry result)

/-- `retire`. -/
def retire (deviceId : String) (s : WeightedControllerScheduler) :
    Bool × WeightedControllerScheduler :=
  match s.findFlow deviceId with
  | none => (false, s)
  | some _ =>
      (true, { s.updateFlow deviceId fun flow => { flow with retired := true, requested := false }
        with log := s.log ++ [.retired deviceId] })

inductive TransferPermitWaitResult where
  | ready | timeout | cancelled
  deriving DecidableEq, Repr

/-- The end of `wait_for_ready`: a wait that was not notified gives up the request. -/
def waitEnds (deviceId : String) (notified : Bool) (s : WeightedControllerScheduler) :
    TransferPermitWaitResult × WeightedControllerScheduler :=
  if notified then
    match s.findFlow deviceId with
    | none => (.cancelled, s)
    | some flow => (if flow.retired then .cancelled else .ready, s)
  else (.timeout, s.updateFlow deviceId fun flow => { flow with requested := false })

def newFlow (spec : DeviceFlowSpec) : Flow where
  deviceId := spec.deviceId
  controllerId := spec.controllerId
  weight := spec.weight
  remaining := spec.bytesRemaining
  maxOutstanding := spec.maxOutstanding

/-- `add_flow`. -/
def addFlow (spec : DeviceFlowSpec) (s : WeightedControllerScheduler) :
    Bool × WeightedControllerScheduler :=
  if s.hasBudget = false ∨ s.quantum = 0 ∨ spec.deviceId = "" ∨ spec.controllerId = "" ∨
      spec.weight = 0 ∨ spec.maxOutstanding = 0 ∨ (s.findFlow spec.deviceId).isSome then (false, s)
  else
    let known := (s.findController spec.controllerId).isSome
    let controllers :=
      if known then s.controllers else s.controllers ++ [{ id := spec.controllerId }]
    (true, { s with
      controllerOrder :=
        if known then s.controllerOrder else s.controllerOrder ++ [spec.controllerId]
      controllers := controllers.map fun controller =>
        if controller.id = spec.controllerId then
          { controller with flows := controller.flows ++ [spec.deviceId] }
        else controller
      flows := s.flows ++ [newFlow spec]
      log := s.log ++ [.added spec.deviceId spec.bytesRemaining] })

def attachFlow (maxOutstanding : UInt64) (flow : Flow) : Flow :=
  { flow with
    providerAttached := true
    maxOutstanding := if maxOutstanding ≠ 0 then maxOutstanding else flow.maxOutstanding }

/-- `make_permit_provider`, up to the provider. -/
def makePermitProvider (deviceId : String) (maxOutstanding : UInt64)
    (s : WeightedControllerScheduler) : Bool × WeightedControllerScheduler :=
  match s.findFlow deviceId with
  | none => (false, s)
  | some flow =>
      if flow.providerAttached ∨ flow.outstandingCount ≠ 0 ∨ flow.retired then (false, s)
      else (true, s.updateFlow deviceId (attachFlow maxOutstanding))

/-- A lease ends with its storage. -/
def releaseLease (lease : Option UInt64) (s : WeightedControllerScheduler) :
    WeightedControllerScheduler :=
  match lease with
  | none => s
  | some bytes => { s with budget := s.budget.releaseCharge bytes }

end WeightedControllerScheduler

/-! ### The users of a scheduler -/

structure FleetDispatch where
  token : UInt64
  deviceId : String
  controllerId : String
  bytes : UInt64
  memory : Option UInt64
  deriving DecidableEq, Repr

structure FleetPermit where
  token : UInt64
  buffer : Option UInt64
  accepted : Bool := false
  deriving DecidableEq, Repr

structure PermitProvider where
  deviceId : String
  cancelled : Bool := false
  deriving DecidableEq, Repr

/-- A scheduler and what its users hold.  A dispatch or a permit that has been destroyed stays in
its list without a lease. -/
structure Fleet where
  scheduler : WeightedControllerScheduler
  dispatches : List FleetDispatch := []
  permits : List FleetPermit := []
  providers : List PermitProvider := []
  leases : List (Option UInt64) := []
  deriving Repr

namespace Fleet

open WeightedControllerScheduler

/-- `finish` with a settlement: a dispatch that is not settled stays as it is. -/
def finish (dispatch : FleetDispatch) (result : FleetDispatchSettlement)
    (s : WeightedControllerScheduler) : FleetDispatch × WeightedControllerScheduler :=
  if dispatch.token = 0 then (dispatch, s)
  else
    let settled := s.settle dispatch.token dispatch.deviceId dispatch.bytes (permitSettlement result)
    if settled.1 then
      ({ dispatch with token := 0, bytes := 0, memory := none },
        settled.2.releaseLease dispatch.memory)
    else (dispatch, settled.2)

/-- `finish` with the number of bytes that were not sent. -/
def finishBytes (dispatch : FleetDispatch) (bytesNotSent : UInt64)
    (s : WeightedControllerScheduler) : FleetDispatch × WeightedControllerScheduler :=
  if dispatch.token = 0 ∨ dispatch.bytes < bytesNotSent ∨
      (bytesNotSent ≠ 0 ∧ bytesNotSent ≠ dispatch.bytes) then (dispatch, s)
  else finish dispatch (if bytesNotSent = dispatch.bytes then .notSubmitted else .fullyTransferred) s

/-- `TransferPermit::settle` with a permit of a provider. -/
def settlePermit (permit : FleetPermit) (result : TransferPermitSettlement)
    (s : WeightedControllerScheduler) : FleetPermit × WeightedControllerScheduler :=
  match permit.buffer with
  | none => ({ token := 0, buffer := none }, s)
  | some bytes =>
      ({ token := 0, buffer := none },
        (s.settle permit.token "" bytes result).2.releaseLease (some bytes))

/-- `~TransferPermit`. -/
def dropPermit (permit : FleetPermit) (s : WeightedControllerScheduler) :
    FleetPermit × WeightedControllerScheduler :=
  settlePermit permit (if permit.accepted then .partialOrUnknown else .notSubmitted) s

/-- `cancel_wait`, which is also the destructor of a provider. -/
def cancelWait (provider : PermitProvider) (s : WeightedControllerScheduler) :
    PermitProvider × WeightedControllerScheduler :=
  if provider.cancelled then (provider, s)
  else ({ provider with cancelled := true }, (s.retire provider.deviceId).2)

/-- A step; what a user holds is named by its place in the list. -/
inductive Step where
  | addFlow (spec : DeviceFlowSpec)
  | next (maximumBytes : UInt64)
  | finish (dispatch : ℕ) (result : FleetDispatchSettlement)
  | finishBytes (dispatch : ℕ) (bytesNotSent : UInt64)
  | dropDispatch (dispatch : ℕ)
  | makePermitProvider (deviceId : String) (maxOutstanding : UInt64)
  | tryAcquire (provider : ℕ) (maximumBytes : UInt64)
  | markSubmissionAttempted (permit : ℕ)
  | settle (permit : ℕ) (result : TransferPermitSettlement)
  | dropPermit (permit : ℕ)
  | waitEnds (provider : ℕ) (notified : Bool)
  | cancelWait (provider : ℕ)
  | retireFlow (deviceId : String)
  | acquireLease (bytes : UInt64)
  | releaseLease (lease : ℕ)
  deriving DecidableEq, Repr

def withDispatch (index : ℕ)
    (f : FleetDispatch → WeightedControllerScheduler → FleetDispatch × WeightedControllerScheduler)
    (fleet : Fleet) : Fleet :=
  match fleet.dispatches[index]? with
  | none => fleet
  | some dispatch =>
      let done := f dispatch fleet.scheduler
      { fleet with scheduler := done.2, dispatches := fleet.dispatches.set index done.1 }

def withPermit (index : ℕ)
    (f : FleetPermit → WeightedControllerScheduler → FleetPermit × WeightedControllerScheduler)
    (fleet : Fleet) : Fleet :=
  match fleet.permits[index]? with
  | none => fleet
  | some permit =>
      let done := f permit fleet.scheduler
      { fleet with scheduler := done.2, permits := fleet.permits.set index done.1 }

def step (fleet : Fleet) : Step → Fleet
  | .addFlow spec => { fleet with scheduler := (fleet.scheduler.addFlow spec).2 }
  | .next maximumBytes =>
      let granted := fleet.scheduler.next maximumBytes
      { fleet with
        scheduler := granted.2
        dispatches := fleet.dispatches ++ (granted.1.map fun grant =>
          { token := grant.token, deviceId := grant.deviceId, controllerId := grant.controllerId,
            bytes := grant.bytes, memory := grant.memory }).toList }
  | .finish index result => fleet.withDispatch index fun dispatch s => finish dispatch result s
  | .finishBytes index bytesNotSent =>
      fleet.withDispatch index fun dispatch s => finishBytes dispatch bytesNotSent s
  | .dropDispatch index => fleet.withDispatch index fun dispatch s =>
      ({ dispatch with token := 0, bytes := 0, memory := none }, s.releaseLease dispatch.memory)
  | .makePermitProvider deviceId maxOutstanding =>
      let made := fleet.scheduler.makePermitProvider deviceId maxOutstanding
      { fleet with
        scheduler := made.2
        providers := if made.1 then fleet.providers ++ [{ deviceId }] else fleet.providers }
  | .tryAcquire index maximumBytes =>
      match fleet.providers[index]? with
      | none => fleet
      | some provider =>
          if provider.cancelled then fleet
          else
            let granted := fleet.scheduler.acquireFor provider.deviceId maximumBytes
            { fleet with
              scheduler := granted.2
              permits := fleet.permits ++ (granted.1.map fun grant =>
                { token := grant.token, buffer := grant.memory }).toList }
  | .markSubmissionAttempted index => fleet.withPermit index fun permit s =>
      ({ permit with accepted := true }, s)
  | .settle index result => fleet.withPermit index fun permit s => settlePermit permit result s
  | .dropPermit index => fleet.withPermit index dropPermit
  | .waitEnds index notified =>
      match fleet.providers[index]? with
      | none => fleet
      | some provider =>
          { fleet with scheduler := (fleet.scheduler.waitEnds provider.deviceId notified).2 }
  | .cancelWait index =>
      match fleet.providers[index]? with
      | none => fleet
      | some provider =>
          let cancelled := cancelWait provider fleet.scheduler
          { fleet with
            scheduler := cancelled.2
            providers := fleet.providers.set index cancelled.1 }
  | .retireFlow deviceId => { fleet with scheduler := (fleet.scheduler.retire deviceId).2 }
  | .acquireLease bytes =>
      match fleet.scheduler.budget.tryAcquire bytes with
      | none => fleet
      | some budget =>
          { fleet with
            scheduler := { fleet.scheduler with budget := budget }
            leases := fleet.leases ++ [some bytes] }
  | .releaseLease index =>
      match fleet.leases[index]? with
      | none => fleet
      | some lease =>
          { fleet with
            scheduler := fleet.scheduler.releaseLease lease
            leases := fleet.leases.set index none }

/-- A scheduler without flows, over a budget that nobody has used. -/
def new (hasBudget : Bool) (quantum limit : UInt64) : Fleet where
  scheduler := { hasBudget, quantum, budget := { limit } }

def after (hasBudget : Bool) (quantum limit : UInt64) (steps : List Step) : Fleet :=
  steps.foldl step (new hasBudget quantum limit)

end Fleet

end KairosBoot
