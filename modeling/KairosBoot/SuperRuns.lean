import KairosBoot.SuperOptimizer

/-! # Successful optimizations

What the optimizer has computed when it reports success: `Optimized` collects the results of its
steps, and `Absorbed` those for the one flash task it absorbs.  All results about optimized
packages start from these two inversion lemmas (`optimizePreparedSuper_optimized`,
`generateSuper_absorbed`). -/

namespace KairosBoot.SuperOptimizer

open Guards

variable {prepared prepared' : PreparedUpdatePackage} {device : SuperOptimizationDeviceInfo}
  {report : SuperOptimizationReport}

/-! ### The steps of the optimizer -/

/-- What a successful optimization has computed. -/
structure Optimized (prepared : PreparedUpdatePackage) (device : SuperOptimizationDeviceInfo)
    (report : SuperOptimizationReport) (prepared' : PreparedUpdatePackage) where
  window : ℕ
  superEmpty : FlashArtifact
  metadata : Metadata
  source : ImageSource
  digest : Bytes
  artifact : FlashArtifact
  window_eq : findOptimizationWindow prepared = some window
  superEmpty_eq : superArtifact prepared device = .ok superEmpty
  metadata_eq : superMetadata superEmpty = .ok (some metadata)
  size_eq : metadata.blockDevice.size = device.superPartitionSize
  generated : generateSuper prepared metadata window device.currentSlot
    = .ok (some (report.absorbedPartitions, source))
  inspected : FlashArtifact.inspect source = .ok artifact
  hashed : computeSha256 source = .ok digest
  package_eq : prepared'
    = rewritePackage prepared window device.superPartition source digest artifact

variable {metadata : Metadata} {window : ℕ} {currentSlot : String} {absorbed : List String}
  {source : ImageSource}

theorem publishSuper_eq {superPartition : String}
    (hok : publishSuper prepared window superPartition absorbed source = .ok (report, prepared')) :
    report = ⟨true, absorbed⟩ ∧ ∃ artifact digest, FlashArtifact.inspect source = .ok artifact ∧
      computeSha256 source = .ok digest ∧
      prepared' = rewritePackage prepared window superPartition source digest artifact := by
  simp only [publishSuper, bind_eq_ok, mapError_eq_ok_iff, Except.ok.injEq,
    Prod.mk.injEq] at hok
  obtain ⟨artifact, hinsp, digest, hdig, hreport, hpkg⟩ := hok
  exact ⟨hreport.symm, artifact, digest, hinsp, hdig, hpkg.symm⟩

theorem optimizePreparedSuper_optimized
    (hok : optimizePreparedSuper prepared device = .ok (report, prepared'))
    (hopt : report.optimized = true) : Nonempty (Optimized prepared device report prepared') := by
  unfold optimizePreparedSuper at hok
  split at hok
  · cases hok
    cases hopt
  next window hwin =>
    obtain ⟨superEmpty, hsuper, hok⟩ := bind_eq_ok.mp hok
    obtain ⟨found, hmeta, hok⟩ := bind_eq_ok.mp hok
    cases found with
    | none =>
        cases hok
        cases hopt
    | some metadata =>
        simp only [optimizeWindow, bind_eq_ok, failIf_eq_ok, exists_const] at hok
        obtain ⟨hsize, -, hok⟩ := hok
        split at hok
        · cases hok
          cases hopt
        next hknown =>
          obtain ⟨generated, hgen, hok⟩ := bind_eq_ok.mp hok
          cases generated with
          | none =>
              cases hok
              cases hopt
          | some result =>
              obtain ⟨rfl, artifact, digest, hinsp, hdig, hpkg⟩ := publishSuper_eq hok
              exact ⟨{
                window := window, superEmpty := superEmpty, metadata := metadata
                source := result.2, digest := digest, artifact := artifact
                window_eq := hwin, superEmpty_eq := hsuper, metadata_eq := hmeta
                size_eq := by tauto
                generated := hgen, inspected := hinsp, hashed := hdig
                package_eq := hpkg }⟩

/-- The steps of the optimizer, when all of them succeed. -/
theorem optimizePreparedSuper_of_steps {superEmpty artifact : FlashArtifact} {digest : Bytes}
    (hwin : findOptimizationWindow prepared = some window)
    (hsuper : superArtifact prepared device = .ok superEmpty)
    (hmeta : superMetadata superEmpty = .ok (some metadata))
    (hsize : metadata.blockDevice.size = device.superPartitionSize)
    (hname : metadata.blockDevice.name = device.superPartition)
    (hknown : ¬ (device.superPartitionSize = 0 ∨ device.currentSlot = ""))
    (hgen : generateSuper prepared metadata window device.currentSlot
      = .ok (some (absorbed, source))) (hinsp : FlashArtifact.inspect source = .ok artifact)
    (hdig : computeSha256 source = .ok digest) :
    optimizePreparedSuper prepared device = .ok (⟨true, absorbed⟩,
      rewritePackage prepared window device.superPartition source digest artifact) := by
  simp only [optimizePreparedSuper, hwin, hsuper, ok_bind, hmeta]
  rw [optimizeWindow, failIf_bind_of_not (by simp [hsize]),
    failIf_bind_of_not (not_not_intro hname), if_neg hknown, hgen, ok_bind]
  simp only [publishSuper, hinsp, hdig, Except.mapError, ok_bind]

/-! ### The window -/

theorem findOptimizationWindow_spec (h : findOptimizationWindow prepared = some window) :
    ∃ reboot update flash, prepared.plan.tasks[window]? = some reboot ∧
      prepared.plan.tasks[window + 1]? = some update ∧
      prepared.plan.tasks[window + 2]? = some flash ∧
      rebootsToFastboot reboot = true ∧ update.kind = .updateSuper ∧ flash.kind = .flash := by
  have hwin := List.find?_some h
  unfold windowAt at hwin
  split at hwin
  next reboot update flash h0 h1 h2 =>
    simp only [decide_eq_true_eq] at hwin
    exact ⟨reboot, update, flash, h0, h1, h2, hwin⟩
  next => cases hwin

theorem Optimized.window_lt (o : Optimized prepared device report prepared') :
    o.window + 2 < prepared.plan.tasks.length := by
  obtain ⟨-, -, flash, -, -, hflash, -⟩ := findOptimizationWindow_spec o.window_eq
  exact (List.getElem?_eq_some_iff.mp hflash).1

theorem rewriteTasks_window {tasks : List PlannedUpdateTask}
    {superPartition optimizedName : String} (hlen : window ≤ tasks.length) :
    (rewriteTasks tasks window superPartition optimizedName)[window]?
      = some (superFlashTask tasks window superPartition optimizedName) := by
  unfold rewriteTasks
  rw [List.append_assoc, List.getElem?_append_right (by simp)]
  simp [hlen]

/-! ### The absorbed flash -/

theorem resolvePartitionName_found {task : PlannedUpdateTask} {name : String}
    (hok : resolvePartitionName metadata task currentSlot = .ok name) :
    ∃ index, findPartition metadata name = some index := by
  unfold resolvePartitionName at hok
  split at hok
  next hexact =>
    cases hok
    exact Option.isSome_iff_exists.mp hexact
  next =>
    simp only [bind_eq_ok, failIf_eq_ok, exists_const, Except.ok.injEq] at hok
    obtain ⟨-, -, slot, -, hfound, rfl⟩ := hok
    exact Option.ne_none_iff_exists'.mp hfound

/-- What the optimizer has computed for the one flash it absorbs. -/
structure Absorbed (prepared : PreparedUpdatePackage) (metadata : Metadata) (window : ℕ)
    (currentSlot : String) (absorbed : List String) (source : ImageSource) where
  task : PlannedUpdateTask
  image : SelectedImage
  allocated : Allocation
  task_eq : prepared.plan.tasks[window + 2]? = some task
  name_eq : resolvePartitionName metadata task currentSlot = .ok image.partitionName
  absorbed_eq : absorbed = [image.partitionName]
  partition_eq : findPartition metadata image.partitionName = some image.partitionIndex
  source_eq : (findArtifact prepared task.artifact).bind rawSource = some image.source
  size_eq : image.size = image.source.size
  allocated_eq : allocateImages metadata [image] = .ok allocated
  built : buildSparseSource { metadata with partitions := allocated.partitions } allocated.images
    = .ok source

theorem selectImage_first {index : ℕ} {task : PlannedUpdateTask} {selected : List SelectedImage}
    (hok : selectImage prepared metadata currentSlot [] index task = .ok (some selected)) :
    ∃ image, selected = [image] ∧
      resolvePartitionName metadata task currentSlot = .ok image.partitionName ∧
      findPartition metadata image.partitionName = some image.partitionIndex ∧
      (findArtifact prepared task.artifact).bind rawSource = some image.source ∧
      image.size = image.source.size := by
  unfold selectImage at hok
  split at hok
  · cases hok
  · simp only [bind_eq_ok, failIf_eq_ok, exists_const] at hok
    obtain ⟨name, hname, -, hok⟩ := hok
    obtain ⟨partitionIndex, hpart⟩ := resolvePartitionName_found hname
    split at hok
    · cases hok
    next source hsrc =>
      cases (Except.ok.inj hok)
      exact ⟨_, rfl, hname, by simp [hpart], hsrc, rfl⟩

theorem generateSuper_absorbed
    (hok : generateSuper prepared metadata window currentSlot = .ok (some (absorbed, source))) :
    Nonempty (Absorbed prepared metadata window currentSlot absorbed source) := by
  unfold generateSuper at hok
  obtain ⟨found, hsel, hok⟩ := bind_eq_ok.mp hok
  cases found with
  | none => cases hok
  | some selected =>
      simp only [bind_eq_ok, Except.ok.injEq, Option.some.injEq, Prod.mk.injEq] at hok
      obtain ⟨allocated, halloc, built, hblt, rfl, rfl⟩ := hok
      unfold selectImages at hsel
      split at hsel
      · cases hsel
      next task htask =>
        obtain ⟨found, hfst, hsel⟩ := bind_eq_ok.mp hsel
        cases found with
        | none => cases hsel
        | some first =>
            obtain rfl : first = selected := Option.some.inj (Except.ok.inj hsel)
            obtain ⟨image, rfl, hname, hpart, hsrc, hsize⟩ := selectImage_first hfst
            exact ⟨{
              task := task, image := image, allocated := allocated
              task_eq := htask, name_eq := hname, absorbed_eq := rfl
              partition_eq := hpart, source_eq := hsrc, size_eq := hsize
              allocated_eq := halloc, built := hblt }⟩

end KairosBoot.SuperOptimizer
