import KairosBoot.SuperSource

/-! # Optimizing the super partition

`optimize_prepared_super` of `super_optimizer.cpp`: the task window reboot-to-fastboot,
update-super, flash is replaced by one flash of a generated super image.

The function changes the package only when it has succeeded, so the model returns the new
package next to the report; an error leaves the package as it was.  A super artifact without an
object is never handed to the function (the source dereferences it), and the model rejects it
with the metadata error. -/

namespace KairosBoot

open Guards

structure SuperOptimizationDeviceInfo where
  superPartition : String := "super"
  currentSlot : String := ""
  superPartitionSize : ℕ := 0
  deriving DecidableEq, Repr

structure SuperOptimizationReport where
  optimized : Bool := false
  absorbedPartitions : List String := []
  deriving DecidableEq, Repr

namespace SuperOptimizer

def kOptimizedName : String := "kairosboot-optimized-super.img"

/-! ### The window -/

def rebootsToFastboot (task : PlannedUpdateTask) : Bool :=
  task.kind = .reboot ∧ task.rebootTarget = .fastboot

/-- Whether a window starts at `index`. -/
def windowAt (tasks : List PlannedUpdateTask) (index : ℕ) : Bool :=
  match tasks[index]?, tasks[index + 1]?, tasks[index + 2]? with
  | some reboot, some update, some flash =>
      rebootsToFastboot reboot ∧ update.kind = .updateSuper ∧ flash.kind = .flash
  | _, _, _ => false

/-- `find_optimization_window`. -/
def findOptimizationWindow (prepared : PreparedUpdatePackage) : Option ℕ :=
  (List.range (prepared.plan.tasks.length - 2)).find? (windowAt prepared.plan.tasks)

/-! ### Selecting the images -/

/-- `find_partition`. -/
def findPartition (metadata : Metadata) (name : String) : Option ℕ :=
  metadata.partitions.findIdx? (·.name = name)

/-- The device's slot without its leading underscore. -/
def bareSlot (currentSlot : String) : String :=
  match currentSlot.toList with
  | '_' :: rest => String.ofList rest
  | _ => currentSlot

def resolvedSlot (task : PlannedUpdateTask) (slot : String) : OptimizerM String :=
  if task.slot = .other then
    if slot = "a" then .ok "b"
    else if slot = "b" then .ok "a"
    else .error ⟨.slotMismatch, "secondary LP slot requires exactly the a/b topology"⟩
  else .ok slot

/-- `resolve_partition_name`. -/
def resolvePartitionName (metadata : Metadata) (task : PlannedUpdateTask) (currentSlot : String) :
    OptimizerM String :=
  if (findPartition metadata task.partition).isSome then .ok task.partition
  else do
    failIf (currentSlot = "")
      ⟨.slotMismatch, "A/B current-slot is required to resolve dynamic partitions"⟩
    failIf (bareSlot currentSlot = "" ∨ ¬ (bareSlot currentSlot).toList.all validNameCharacter)
      ⟨.slotMismatch, "device current-slot is not one valid LP suffix"⟩
    let slot ← resolvedSlot task (bareSlot currentSlot)
    let candidate := task.partition ++ "_" ++ slot
    failIf (findPartition metadata candidate = none)
      ⟨.slotMismatch, "LP metadata does not contain resolved partition " ++ candidate⟩
    .ok candidate

/-- `find_artifact`. -/
def findArtifact (prepared : PreparedUpdatePackage) (name : String) :
    Option PreparedUpdateArtifact :=
  prepared.artifacts.find? (·.name = name)

/-- The source of an artifact whose image is raw and is transferred as it is. -/
def rawSource (artifact : PreparedUpdateArtifact) : Option ImageSource :=
  match artifact.artifact, artifact.resolved.bind (·.object.source) with
  | some flash, some source =>
      if flash.object.artifact.metadata.kind = .raw ∧
          flash.object.artifact.metadata.expandedSize = source.object.size then
        some source.object
      else none
  | _, _ => none

/-- Whether a partition, exactly or with some suffix, is in the metadata. -/
def isLogicalCandidate (metadata : Metadata) (partition : String) : Bool :=
  (findPartition metadata partition).isSome ∨
    metadata.partitions.any fun p => (partition ++ "_").toList.isPrefixOf p.name.toList

/-- One round of the selecting loop; `none` leaves the plan as it is. -/
def selectImage (prepared : PreparedUpdatePackage) (metadata : Metadata) (currentSlot : String)
    (selected : List SelectedImage) (index : ℕ) (task : PlannedUpdateTask) :
    OptimizerM (Option (List SelectedImage)) :=
  if ¬ isLogicalCandidate metadata task.partition then .ok none
  else do
    let name ← resolvePartitionName metadata task currentSlot
    failIf (name ∈ selected.map (·.partitionName))
      ⟨.slotMismatch, "multiple flash tasks resolve to LP partition " ++ name⟩
    match (findArtifact prepared task.artifact).bind rawSource with
    | none => .ok none
    | some source =>
        .ok (some (selected ++ [{
          taskIndex := index
          partitionIndex := (findPartition metadata name).getD 0
          partitionName := name
          source := source
          size := source.size }]))

/-- The selecting loop over the task indices. -/
def selectImages (prepared : PreparedUpdatePackage) (metadata : Metadata) (currentSlot : String) :
    List ℕ → List SelectedImage → OptimizerM (Option (List SelectedImage))
  | [], selected => .ok (some selected)
  | index :: rest, selected =>
      match prepared.plan.tasks[index]? with
      | none => .ok none
      | some task => do
          match ← selectImage prepared metadata currentSlot selected index task with
          | none => .ok none
          | some selected => selectImages prepared metadata currentSlot rest selected

/-! ### Allocation -/

/-- `align_up` as it is used for the start of an extent. -/
def alignAllocation (metadata : Metadata) (offset : ℕ) : Option ℕ :=
  alignUp offset (max metadata.blockDevice.alignment metadata.geometry.logicalBlockSize)
    (if metadata.blockDevice.alignment = 0 then 0 else metadata.blockDevice.alignmentOffset)

/-- The variables of the allocating loop. -/
structure Allocation where
  allocation : ℕ
  groupSizes : List ℕ
  partitions : List Partition
  images : List SelectedImage

/-- One round of the allocating loop. -/
def allocateImage (metadata : Metadata) (state : Allocation) (image : SelectedImage) :
    OptimizerM Allocation := do
  let size ← orFail (alignUp image.size metadata.geometry.logicalBlockSize 0)
    ⟨.noSpace, "logical partition images do not fit in super"⟩
  let finish ← orFail (checkedAdd state.allocation size)
    ⟨.noSpace, "logical partition images do not fit in super"⟩
  failIf (metadata.blockDevice.size < finish)
    ⟨.noSpace, "logical partition images do not fit in super"⟩
  let partition := state.partitions.getD image.partitionIndex default
  let groupSize ← orFail (checkedAdd (state.groupSizes.getD partition.groupIndex 0) size)
    ⟨.noSpace, "LP partition group size overflows"⟩
  let limit := (metadata.groups.getD partition.groupIndex default).maximumSize
  failIf (limit ≠ 0 ∧ limit < groupSize)
    ⟨.noSpace, "logical partition images exceed their LP group limit"⟩
  let next ← orFail (alignAllocation metadata finish)
    ⟨.noSpace, "LP allocation offset overflows"⟩
  .ok {
    allocation := next
    groupSizes := state.groupSizes.set partition.groupIndex groupSize
    partitions := state.partitions.set image.partitionIndex
      { partition with firstExtent := state.images.length, extentCount := 1 }
    images := state.images ++
      [{ image with allocatedSize := size, physicalOffset := state.allocation }] }

def allocateImages (metadata : Metadata) (selected : List SelectedImage) :
    OptimizerM Allocation := do
  let start ← orFail
    (alignAllocation metadata (metadata.blockDevice.firstLogicalSector * kSectorSize))
    ⟨.incompatibleLayout, "LP allocation alignment is invalid"⟩
  selected.foldlM (allocateImage metadata)
    ⟨start, List.replicate metadata.groups.length 0, metadata.partitions, []⟩

/-! ### The rewritten package -/

/-- Whether a name is taken by an artifact or a task. -/
def nameUsed (prepared : PreparedUpdatePackage) (candidate : String) : Bool :=
  prepared.artifacts.any (·.name = candidate) ∨ prepared.plan.tasks.any (·.artifact = candidate)

/-- `unique_optimized_name`; there are more candidates than names in use. -/
def uniqueOptimizedName (prepared : PreparedUpdatePackage) : String :=
  let attempts := prepared.artifacts.length + prepared.plan.tasks.length
  let candidates := kOptimizedName :: (List.range attempts).map fun suffix =>
    "kairosboot-optimized-super-" ++ toString (suffix + 1) ++ ".img"
  (candidates.find? fun candidate => !nameUsed prepared candidate).getD kOptimizedName

/-- The flash of the generated image, at the place of the window's reboot. -/
def superFlashTask (tasks : List PlannedUpdateTask) (window : ℕ) (superPartition : String)
    (optimizedName : String) : PlannedUpdateTask where
  kind := .flash
  location := (tasks[window]?.map (·.location)).getD {}
  partition := superPartition
  artifact := optimizedName
  slot := .default

def rewriteTasks (tasks : List PlannedUpdateTask) (window : ℕ) (superPartition : String)
    (optimizedName : String) : List PlannedUpdateTask :=
  tasks.take window ++ [superFlashTask tasks window superPartition optimizedName] ++
    tasks.drop (window + 3)

def rewritePackage (prepared : PreparedUpdatePackage) (window : ℕ) (superPartition : String)
    (source : ImageSource) (digest : Bytes) (artifact : FlashArtifact) : PreparedUpdatePackage :=
  let address := prepared.freshAddress
  let optimizedName := uniqueOptimizedName prepared
  let absorbedArtifact := (prepared.plan.tasks[window + 2]?.map (·.artifact)).getD ""
  let tasks := rewriteTasks prepared.plan.tasks window superPartition optimizedName
  let artifacts := prepared.artifacts.filter fun value =>
    !(value.name = absorbedArtifact ∧ tasks.all fun task => task.artifact ≠ value.name)
  let remaining := tasks.any fun task => task.kind = .updateSuper
  { prepared with
    plan := { prepared.plan with tasks := tasks }
    artifacts := artifacts ++ [{
      name := optimizedName
      resolved := some ⟨address,
        { source := some ⟨address + 1, source⟩
          sha256 := digest
          origin := .directFile
          logicalName := optimizedName }⟩
      artifact := some ⟨address + 2, ⟨address + 1, artifact⟩⟩ }]
    updateSuperState := if remaining then prepared.updateSuperState else .notRequired
    preparedSuperArtifact := if remaining then prepared.preparedSuperArtifact else none }

/-! ### The optimizer -/

/-- The artifact of `super_empty.img`, if the package is one for the optimizer. -/
def superArtifact (prepared : PreparedUpdatePackage) (device : SuperOptimizationDeviceInfo) :
    OptimizerM FlashArtifact :=
  match prepared.preparedSuperArtifact.bind (·.artifact) with
  | some artifact =>
      if prepared.updateSuperState ≠ .prepared ∨ device.superPartition = "" then
        .error ⟨.invalidMetadata,
          "super optimization candidate lacks immutable super/device metadata"⟩
      else .ok artifact.object.artifact
  | none => .error ⟨.invalidMetadata,
      "super optimization candidate lacks immutable super/device metadata"⟩

/-- The metadata of `super_empty.img`; `none` if its layout is not one for the optimizer. -/
def superMetadata (artifact : FlashArtifact) : OptimizerM (Option Metadata) := do
  let geometry ← parseGeometry artifact
  match parseMetadata artifact geometry with
  | .ok metadata => .ok (some metadata)
  | .error e => if e.kind = .incompatibleLayout then .ok none else .error e

/-- The generated source and artifact, and what was absorbed; `none` leaves the plan as it is. -/
def generateSuper (prepared : PreparedUpdatePackage) (metadata : Metadata) (window : ℕ)
    (currentSlot : String) : OptimizerM (Option (List String × ImageSource)) := do
  match ← selectImages prepared metadata currentSlot [window + 2] [] with
  | none => .ok none
  | some selected => do
      let allocated ← allocateImages metadata selected
      let source ← buildSparseSource { metadata with partitions := allocated.partitions }
        allocated.images
      .ok (some (selected.map (·.partitionName), source))

/-- Validate and hash the generated source, and rewrite the package. -/
def publishSuper (prepared : PreparedUpdatePackage) (window : ℕ) (superPartition : String)
    (absorbed : List String) (source : ImageSource) :
    OptimizerM (SuperOptimizationReport × PreparedUpdatePackage) := do
  let artifact ← (FlashArtifact.inspect source).mapError fun e =>
    ⟨.source, "generated optimized super sparse image failed validation: " ++ e.message⟩
  let digest ← (computeSha256 source).mapError fun e =>
    ⟨if e.kind = .cancelled then .cancelled else .source,
      "unable to hash optimized super image: " ++ e.message⟩
  .ok (⟨true, absorbed⟩, rewritePackage prepared window superPartition source digest artifact)

/-- The part of `optimize_prepared_super` after the metadata has been read. -/
def optimizeWindow (prepared : PreparedUpdatePackage) (device : SuperOptimizationDeviceInfo)
    (window : ℕ) (metadata : Metadata) :
    OptimizerM (SuperOptimizationReport × PreparedUpdatePackage) := do
  failIf (device.superPartitionSize ≠ 0 ∧ metadata.blockDevice.size ≠ device.superPartitionSize)
    ⟨.sizeMismatch, "device super size does not match super_empty.img LP metadata"⟩
  failIf (metadata.blockDevice.name ≠ device.superPartition)
    ⟨.sizeMismatch, "device super name does not match super_empty.img LP metadata"⟩
  if device.superPartitionSize = 0 ∨ device.currentSlot = "" then .ok ({}, prepared)
  else do
    match ← generateSuper prepared metadata window device.currentSlot with
    | none => .ok ({}, prepared)
    | some (absorbed, source) =>
        publishSuper prepared window device.superPartition absorbed source

/-- `optimize_prepared_super`. -/
def optimizePreparedSuper (prepared : PreparedUpdatePackage)
    (device : SuperOptimizationDeviceInfo) :
    OptimizerM (SuperOptimizationReport × PreparedUpdatePackage) :=
  match findOptimizationWindow prepared with
  | none => .ok ({}, prepared)
  | some window => do
      let artifact ← superArtifact prepared device
      match ← superMetadata artifact with
      | none => .ok ({}, prepared)
      | some metadata => optimizeWindow prepared device window metadata

end SuperOptimizer

end KairosBoot
