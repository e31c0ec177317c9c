import KairosBoot.PublicErrors

/-! # The public flash operations

The tasks of `start_flash_source_async` and `start_vendor_boot_ramdisk_async` of `kairosboot.cpp`.
The first resolves the slots of a partition and flashes the parts of an image to each of the
resulting names.  The second fetches each name, replaces the ramdisk in what it has fetched, and
flashes the result back.

The session is a `SessionPort`, and everything else that an operation calls is a `FlashHost`: the
cancellation flag, the progress callback, files, and the stop token of computations on images,
which may end any of them.  An operation fails with the payload that it reports; the phase
`Cancelled` is the one of a payload with the status `cancelled`. -/

namespace KairosBoot

open Outcomes

/-- What an operation calls besides its session. -/
structure FlashHost (σ : Type) where
  cancelRequested : σ → Bool × σ
  reportProgress : ℕ → ℕ → String → σ → Bool × σ
  applyVbmetaFlags : ImageSource → σ → Except VbmetaFlagError ImageSource × σ
  inspectStopped : σ → Option SparseError × σ
  planStopped : σ → Option SparseFlashPlanError × σ
  repackStopped : σ → Option VendorBoot.VendorBootRepackError × σ
  transferSourceFailed : σ → Option ImageSourceError × σ
  openTarget : σ → Option OperationErrorPayload × σ
  temporaryPath : σ → Option OperationErrorPayload × σ
  createSink : σ → Option FileTransferSinkError × σ
  sealSink : ℕ → σ → Option FileTransferSinkError × σ
  openFetched : σ → Except FileSourceError ImageSource × σ

structure FlashOptions where
  force : Bool := false
  sparseLimitBytes : ℕ := 0
  disableVerity : Bool := false
  disableVerification : Bool := false
  deriving DecidableEq, Repr

structure SlotPolicy where
  slot : Option String := none
  setActive : Bool := false
  activeSlot : Option String := none
  deriving DecidableEq, Repr

/-- `is_vbmeta_partition`. -/
def isVbmetaPartition (partition : String) : Bool :=
  ["vbmeta", "vbmeta_a", "vbmeta_b"].any fun ending =>
    ending.toList.isSuffixOf partition.toList

/-- The operation changes the flags of a vbmeta image. -/
def FlashOptions.mutatesVbmeta (options : FlashOptions) (partition : String) : Bool :=
  (options.disableVerity || options.disableVerification) && isVbmetaPartition partition

/-- `effective_sparse_download_limit`. -/
def effectiveSparseDownloadLimit (targetMaxDownloadSize explicitHostLimit : ℕ) : ℕ :=
  if explicitHostLimit = 0 then targetMaxDownloadSize
  else
    let hostLimit := min explicitHostLimit kDefaultResparseLimitBytes
    if targetMaxDownloadSize = 0 then hostLimit else min targetMaxDownloadSize hostLimit

/-- The bytes that a transfer source hands to the transport.  The transport reports a read that
fails as a failure of its own, so then only their number matters. -/
def transferBytes (source : ImageSource) : Bytes :=
  ((ByteLib.readLoop source.readAt 0 source.size source.size []).toOption.getD [] ++
    List.replicate source.size 0).take source.size

/-- The names of a flash, the slot that is set active after it, and the reply to
`is-userspace`. -/
structure FlashTargets where
  partitions : List String
  activeAfterFlash : Option Char
  isUserspace : Option String
  deriving DecidableEq, Repr

/-- What an operation does; it fails with the payload that it reports. -/
abbrev FlashM (σ : Type) := Prog σ OperationErrorPayload

namespace PublicFlash

section Steps

variable {σ ε α : Type}

/-- Fail with the payload of an error. -/
def reporting (report : ε → OperationErrorPayload) (x : Prog σ ε α) : FlashM σ α := do
  match ← attempt x with
  | .ok value => pure value
  | .error error => throw (report error)

/-- A computation that the host may stop. -/
def stoppable (stop : σ → Option ε × σ) (work : Except ε α) : Prog σ ε α := do
  match ← step stop with
  | some error => throw error
  | none => ofOutcome work

variable (port : SessionPort σ) (context : OperationContext σ) (host : FlashHost σ)
  (identifier : String)

/-- Stop if a cancellation was requested. -/
def checkCancelled (payload : OperationErrorPayload) : FlashM σ Unit := do
  if ← step host.cancelRequested then throw payload else pure ()

/-- Report progress, and stop if the callback asks for it. -/
def checkProgress (completed total : ℕ) (stage : String) (payload : OperationErrorPayload) :
    FlashM σ Unit := do
  if ← step (host.reportProgress completed total stage) then pure () else throw payload

def getvar (key : String) : FlashM σ PrimitiveReply :=
  reporting (·.normalizePublicError identifier) (PrimitiveService.getvar port key)

/-- `query_optional`: the value of a variable, if the device has one. -/
def queryOptional (key : String) : FlashM σ (Option String) := do
  match ← attempt (PrimitiveService.getvar port key) with
  | .ok reply => pure (some reply.terminal.payload)
  | .error error =>
      if error.code ≠ .deviceFail then throw (error.normalizePublicError identifier) else pure none

/-! ### Slots -/

def requestedSlots : Option String → FlashM σ (List Char)
  | none => pure []
  | some slot =>
      if slot = "all" then do
        let topology ← reporting (slotError · identifier) (SlotPlanner.queryTopology port context)
        pure topology.slots
      else do
        let resolved ← reporting (slotError · identifier)
          (SlotPlanner.resolveActiveSlot port context slot)
        pure [resolved]

/-- The slot that the policy makes the active one. -/
def activeSlot (policy : SlotPolicy) : FlashM σ Char := do
  let requestedActive := (policy.activeSlot.or policy.slot).getD ""
  if requestedActive = "all" then do
    let topology ← reporting (slotError · identifier) (SlotPlanner.queryTopology port context)
    pure (topology.slots.headD 'a')
  else reporting (slotError · identifier) (SlotPlanner.resolveActiveSlot port context requestedActive)

/-- The slot that a flash makes active in the end, if the policy asks for it. -/
def activeAfterFlash (policy : SlotPolicy) : FlashM σ (Option Char) :=
  if policy.setActive then some <$> activeSlot port context identifier policy else pure none

/-- The reply to `is-userspace`, which the raw profile does not ask for. -/
def userspaceReply (aospRawProfile : Bool) : FlashM σ (Option String) :=
  if aospRawProfile then pure none else queryOptional port identifier "is-userspace"

def resolvedPartitions (partition : String) (aospRawProfile : Bool) (slots : List Char)
    (hasSlot : Option String) : FlashM σ (List String) :=
  if slots ≠ [] then
    if hasSlot ≠ some "yes" then
      throw (localFlashError .notSupported
        "an explicit Fastboot slot was requested for a non-slotted partition" identifier)
    else pure (slots.map fun slot =>
      SlotPlanner.slottedName (baseName partition) slot ++ nameSuffix partition)
  else if aospRawProfile = true ∧ hasSlot = some "yes" then do
    let reply ← getvar port identifier "current-slot"
    let payload := reply.terminal.payload.toList
    let slot := if payload.head? = some '_' then payload.tail else payload
    if slot.length = 0 then
      throw (localFlashError .protocol
        "device returned an empty current-slot for a slotted partition" identifier)
    else pure [partition ++ "_" ++ String.ofList slot]
  else pure [partition]

/-- The slot resolution of `start_flash_source_async`. -/
def resolveTargets (partition : String) (policy : SlotPolicy) (aospRawProfile : Bool) :
    FlashM σ FlashTargets := do
  let slots ← requestedSlots port context identifier policy.slot
  let active ← activeAfterFlash port context identifier policy
  let isUserspace ← userspaceReply port identifier aospRawProfile
  let hasSlot ← queryOptional port identifier ("has-slot:" ++ partition)
  let partitions ← resolvedPartitions port identifier partition aospRawProfile slots hasSlot
  pure ⟨partitions, active, isUserspace⟩

/-- A logical partition is not overwritten from the bootloader. -/
def guardLogical (partition : String) (isUserspace : Option String) (force : Bool) :
    FlashM σ Unit := do
  let isLogical ← queryOptional port identifier ("is-logical:" ++ partition)
  if isLogical = some "yes" ∧ isUserspace ≠ some "yes" ∧ force = false then
    throw (localFlashError .notSupported
      ("logical partition must be flashed through fastbootd; set force only " ++
        "when intentionally overwriting a fixed bootloader partition") identifier)
  else pure ()

/-! ### Images and parts -/

def inspectImage (source : ImageSource) : FlashM σ FlashArtifact :=
  reporting (·.normalizePublicError identifier)
    (stoppable host.inspectStopped (FlashArtifact.inspect source))

def createPlan (artifact : FlashArtifact) (targetMaxDownloadSize sparseLimitBytes : ℕ) :
    FlashM σ SparseFlashPlan :=
  reporting (·.normalizePublicError identifier)
    (stoppable host.planStopped (SparseFlashPlan.create artifact
      (effectiveSparseDownloadLimit targetMaxDownloadSize sparseLimitBytes)
      kDefaultResparseLimitBytes))

/-- `ImageTransferSource::create`. -/
def createTransferSource (source : ImageSource) : FlashM σ Bytes :=
  reporting (·.normalizePublicError identifier)
    (stoppable host.transferSourceFailed (.ok (transferBytes source)))

/-- The reply to `max-download-size`; zero is no limit. -/
def targetMaxDownloadSize : FlashM σ ℕ := do
  let value ← queryOptional port identifier "max-download-size"
  pure ((value.bind parseUnsignedVariable).getD 0)

def flashPart (partition : String) (source : Bytes) (completedBefore total : ℕ) :
    FlashM σ Unit := do
  match ← attempt (PrimitiveService.downloadAndFlashSource port partition (some source)) with
  | .ok _ => pure ()
  | .error error =>
      throw (accumulateFlashTransferState (error.normalizePublicError identifier) error.operation
        completedBefore source.length total)

/-- The loop over the parts for one partition, with the bytes completed before; `prepare` makes the
source of a part. -/
def flashParts {β : Type} (prepare : β → FlashM σ Bytes)
    (partition : String) (total : ℕ) : List β → ℕ → FlashM σ ℕ
  | [], completed => pure completed
  | part :: rest, completed => do
      let source ← prepare part
      flashPart port identifier partition source completed total
      flashParts prepare partition total rest ((completed + source.length) % 2 ^ 64)

/-! ### `start_flash_source_async` -/

/-- A call of the host that returns an outcome. -/
def calling (call : σ → Except ε α × σ) : Prog σ ε α := do
  let outcome ← step call
  ofOutcome outcome

/-- The source of a flash, with changed vbmeta flags if the options ask for it. -/
def mutatedSource (source : ImageSource) (partition : String) (options : FlashOptions) :
    FlashM σ ImageSource :=
  if options.mutatesVbmeta partition then
    reporting (vbmetaError · identifier) (calling (host.applyVbmetaFlags source))
  else pure source

def prepareArtifact (source : ImageSource) (partition : String) (options : FlashOptions) :
    FlashM σ FlashArtifact := do
  let source ← mutatedSource host identifier source partition options
  let artifact ← inspectImage host identifier source
  if artifact.metadata.transferSize = 0 then
    throw ((PrimitiveService.invalidArgument .download
      "Fastboot download payload must not be empty").normalizePublicError identifier)
  else pure artifact

/-- The queries that only the sparse limit and changed vbmeta flags ask for. -/
def probePartitionSize (partition front : String) (options : FlashOptions) : FlashM σ Unit :=
  if options.sparseLimitBytes ≠ 0 ∨ options.mutatesVbmeta partition = true then do
    let _ ← queryOptional port identifier ("is-logical:" ++ front)
    let _ ← queryOptional port identifier ("partition-size:" ++ front)
  else pure ()

/-- The guard of a flash, which the raw profile does without. -/
def guardFlash (front : String) (isUserspace : Option String) (force aospRawProfile : Bool) :
    FlashM σ Unit :=
  if aospRawProfile then pure () else guardLogical port identifier front isUserspace force

/-- The download limit of a flash that has none of its own. -/
def flashMaxDownloadSize (options : FlashOptions) (aospRawProfile : Bool) : FlashM σ ℕ :=
  if aospRawProfile = false ∧ options.sparseLimitBytes = 0 then
    targetMaxDownloadSize port identifier
  else pure 0

def transferSources : List SparseFlashPart → FlashM σ (List Bytes)
  | [] => pure []
  | part :: rest => do
      let source ← createTransferSource host identifier part.source
      reporting (·.normalizePublicError identifier)
        (ofOutcome (PrimitiveService.validateDownloadSize source.length))
      let sources ← transferSources rest
      pure (source :: sources)

def flashPartitions (sources : List Bytes) (total : ℕ) :
    List String → ℕ → FlashM σ Unit
  | [], _ => pure ()
  | partition :: rest, completed => do
      let completed ← flashParts port identifier pure partition total sources completed
      flashPartitions sources total rest completed

/-- The parts of a flash and the number of bytes that it sends. -/
def planFlash (artifact : FlashArtifact) (partition : String) (targets : FlashTargets)
    (options : FlashOptions) (aospRawProfile : Bool) : FlashM σ (List Bytes × ℕ) := do
  let front := targets.partitions.headD partition
  guardFlash port identifier front targets.isUserspace options.force aospRawProfile
  probePartitionSize port identifier partition front options
  let maximum ← flashMaxDownloadSize port identifier options aospRawProfile
  let plan ← createPlan host identifier artifact maximum options.sparseLimitBytes
  let sources ← transferSources host identifier plan.parts
  if 1 < targets.partitions.length ∧
      (2 ^ 64 - 1) / targets.partitions.length < plan.transferSize then
    throw (localFlashError .invalidArgument "slot-expanded flash transfer size overflows uint64"
      identifier)
  else pure (sources, plan.transferSize * targets.partitions.length)

/-- What `start_flash_source_async` does before its first part: the targets, the parts and the
number of bytes. -/
def prepareFlash (source : ImageSource) (partition : String) (options : FlashOptions)
    (policy : SlotPolicy) (aospRawProfile : Bool) : FlashM σ (FlashTargets × List Bytes × ℕ) := do
  checkCancelled host (cancelledOperation identifier .notSent)
  let artifact ← prepareArtifact host identifier source partition options
  reporting id (stoppable host.openTarget (.ok ()))
  let targets ← resolveTargets port context identifier partition policy aospRawProfile
  let (sources, total) ←
    planFlash port host identifier artifact partition targets options aospRawProfile
  checkCancelled host (cancelledOperation identifier .notSent)
  checkProgress host 0 total "download" (cancelledOperation identifier .notSent)
  pure (targets, sources, total)

/-- The flash up to the slot that is set active after it, with the number of bytes. -/
def flashImage (source : ImageSource) (partition : String) (options : FlashOptions)
    (policy : SlotPolicy) (aospRawProfile : Bool) : FlashM σ (Option Char × ℕ) := do
  let (targets, sources, total) ←
    prepareFlash port context host identifier source partition options policy aospRawProfile
  flashPartitions port identifier sources total targets.partitions 0
  checkCancelled host (cancelledOperation identifier .fullyTransferred
    "operation cancelled after the flash completed")
  pure (targets.activeAfterFlash, total)

def setActive (slot : Char) : FlashM σ PrimitiveReply :=
  reporting (·.normalizePublicError identifier)
    (PrimitiveService.setActive port (String.ofList [slot]))

/-- The last command of a flash, if there is a slot to set active. -/
def activate : Option Char → FlashM σ Unit
  | none => pure ()
  | some slot => do
      let _ ← setActive port identifier slot

/-- The task of `start_flash_source_async`. -/
def flashSource (source : ImageSource) (partition : String) (options : FlashOptions)
    (policy : SlotPolicy) (aospRawProfile : Bool) : FlashM σ Unit := do
  let (activeAfterFlash, total) ←
    flashImage port context host identifier source partition options policy aospRawProfile
  activate port identifier activeAfterFlash
  let completed := cancelledOperation identifier .fullyTransferred
    "operation cancelled after the flash completed"
  checkCancelled host completed
  checkProgress host total total "complete" completed

/-! ### `start_vendor_boot_ramdisk_async` -/

/-- A size that the device reports, if it can be read. -/
def querySize (key : String) (valid : ℕ → Bool) (invalid : String) : FlashM σ ℕ := do
  let reply ← getvar port identifier key
  match parseUnsignedVariable reply.terminal.payload with
  | none => throw (localFlashError .protocol invalid identifier)
  | some size =>
      if valid size then pure size else throw (localFlashError .protocol invalid identifier)

def exactChunk (reply : PrimitiveReply) (chunkSize : ℕ) : Bool :=
  decide (reply.terminal.kind = .okay ∧ reply.inboundExpected = some chunkSize ∧
    reply.inboundTransferred = chunkSize ∧ reply.inboundCertainty = .fullyTransferred)

/-- The error of a chunk that is not the requested one. -/
def inexactChunk (reply : PrimitiveReply) (chunkSize : ℕ) : OperationErrorPayload :=
  { localFlashError .protocol
      "Fastboot fetch did not return the exact requested vendor_boot chunk" identifier with
    inboundExpected := some chunkSize
    inboundTransferred := reply.inboundTransferred
    inboundTransferState := .partialOrUnknown }

/-- The loop that fetches a partition; every round fetches at least a byte, so `fuel` is the size of
the partition. -/
def fetchLoop (partition : String) (maxFetch partitionSize : ℕ) :
    ℕ → ℕ → FlashM σ Unit
  | 0, _ => pure ()
  | fuel + 1, fetched =>
      if fetched < partitionSize then do
        checkCancelled host (cancelledOperation identifier .notSent)
        let chunkSize := min maxFetch (partitionSize - fetched)
        let received ← reporting (·.normalizePublicError identifier)
          (PrimitiveService.fetchToSink port partition ⟨some fetched, some chunkSize⟩ chunkSize)
        if exactChunk received chunkSize then
          fetchLoop partition maxFetch partitionSize fuel (fetched + chunkSize)
        else throw (inexactChunk identifier received chunkSize)
      else pure ()

def fetchPartition (partition : String) (maxFetch : ℕ) : FlashM σ (ImageSource × ℕ) := do
  let partitionSize ← querySize port identifier ("partition-size:" ++ partition)
    (fun size => decide (size ≠ 0 ∧ size ≤ 2 ^ 32 - 1))
    "Fastboot vendor_boot partition-size must be in 1..UINT32_MAX"
  reporting id (stoppable host.temporaryPath (.ok ()))
  reporting (fileSinkError · identifier) (stoppable host.createSink (.ok ()))
  checkProgress host 0 partitionSize "fetch" (cancelledOperation identifier .notSent)
  fetchLoop port host identifier partition maxFetch partitionSize partitionSize 0
  reporting (fileSinkError · identifier) (stoppable (host.sealSink partitionSize) (.ok ()))
  let fetched ← reporting (·.normalizePublicError identifier) (calling host.openFetched)
  pure (fetched, partitionSize)

def repackImage (fetched newRamdisk : ImageSource) (newDtb : Option ImageSource)
    (ramdiskName : Bytes) : FlashM σ ImageSource := do
  let repacked ← reporting (vendorBootRepackError · identifier) (stoppable host.repackStopped
    (VendorBoot.repackVendorBoot (some fetched) (some newRamdisk) newDtb
      { ramdiskName, maximumImageBytes := 2 ^ 32 - 1 }))
  pure repacked.toImageSource

/-- What happens to one partition before its first part: the plan of the repacked image. -/
def prepareVendorBoot (partition : String) (maxFetch : ℕ) (newRamdisk : ImageSource)
    (newDtb : Option ImageSource) (ramdiskName : Bytes) (options : FlashOptions) :
    FlashM σ SparseFlashPlan := do
  let (fetched, partitionSize) ← fetchPartition port host identifier partition maxFetch
  checkCancelled host (cancelledOperation identifier .notSent)
  checkProgress host partitionSize partitionSize "repack" (cancelledOperation identifier .notSent)
  let repacked ← repackImage host identifier fetched newRamdisk newDtb ramdiskName
  let maximum ← targetMaxDownloadSize port identifier
  let artifact ← inspectImage host identifier repacked
  let plan ← createPlan host identifier artifact maximum options.sparseLimitBytes
  checkCancelled host (cancelledOperation identifier .notSent)
  checkProgress host 0 plan.transferSize "download" (cancelledOperation identifier .notSent)
  pure plan

/-- The body of the loop over the partitions. -/
def repackPartition (partition : String) (maxFetch : ℕ) (newRamdisk : ImageSource)
    (newDtb : Option ImageSource) (ramdiskName : Bytes) (options : FlashOptions) :
    FlashM σ Unit := do
  let plan ← prepareVendorBoot port host identifier partition maxFetch newRamdisk newDtb ramdiskName
    options
  let _ ← flashParts port identifier
    (fun part : SparseFlashPart => createTransferSource host identifier part.source) partition
    plan.transferSize plan.parts 0

def repackPartitions (maxFetch : ℕ) (newRamdisk : ImageSource) (newDtb : Option ImageSource)
    (ramdiskName : Bytes) (options : FlashOptions) :
    List String → FlashM σ Unit
  | [] => pure ()
  | partition :: rest => do
      repackPartition port host identifier partition maxFetch newRamdisk newDtb ramdiskName options
      repackPartitions maxFetch newRamdisk newDtb ramdiskName options rest

/-- The names of the partitions that are repacked. -/
def repackedPartitions (partition : String) :
    Option String → FlashM σ (List String)
  | none => pure [partition]
  | some slot => do
      let plan ← reporting (slotError · identifier) (planPartitionSlots port context partition slot)
      pure plan.partitionNames

/-- Set a slot active before anything is flashed, if the policy asks for it. -/
def activateFirst (policy : SlotPolicy) : FlashM σ Unit :=
  if policy.setActive then do
    let slot ← activeSlot port context identifier policy
    let _ ← setActive port identifier slot
  else pure ()

/-- What `start_vendor_boot_ramdisk_async` does before its first partition: the names and the
largest fetch. -/
def prepareRepack (partition : String) (options : FlashOptions) (policy : SlotPolicy) :
    FlashM σ (List String × ℕ) := do
  checkCancelled host (cancelledOperation identifier .notSent)
  reporting id (stoppable host.openTarget (.ok ()))
  let isUserspace ← queryOptional port identifier "is-userspace"
  let _ ← queryOptional port identifier ("has-slot:" ++ partition)
  guardLogical port identifier partition isUserspace options.force
  let partitions ← repackedPartitions port context identifier partition policy.slot
  activateFirst port context identifier policy
  let maxFetch ← querySize port identifier "max-fetch-size" (fun size => decide (size ≠ 0))
    "Fastboot max-fetch-size must be a positive integer"
  pure (partitions, min maxFetch (2 ^ 32 - 1))

/-- The task of `start_vendor_boot_ramdisk_async`. -/
def vendorBootRamdisk (partition : String) (ramdiskName : Bytes) (newRamdisk : ImageSource)
    (newDtb : Option ImageSource) (options : FlashOptions) (policy : SlotPolicy) :
    FlashM σ Unit := do
  let (partitions, maxFetch) ← prepareRepack port context host identifier partition options policy
  repackPartitions port host identifier maxFetch newRamdisk newDtb ramdiskName options partitions
  let completed := cancelledOperation identifier .fullyTransferred
    "operation cancelled after the vendor_boot flash completed"
  checkCancelled host completed
  checkProgress host partitions.length partitions.length "complete" completed

end Steps

end PublicFlash

end KairosBoot
