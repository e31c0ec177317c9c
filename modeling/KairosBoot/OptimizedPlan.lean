import KairosBoot.SuperImage

/-! # The optimized plan

What the optimizer does to the task list.  The window's reboot and update-super are removed and
only the flash right after them is absorbed; later flashes of logical partitions stay in the
list.  They still find the device in fastbootd exactly when some other reboot-to-fastboot task
comes before them, with no reboot out of fastbootd after it
(`logical_flashes_keep_fastbootd_iff`). -/

namespace KairosBoot.SuperOptimizer

open Guards

variable {prepared prepared' : PreparedUpdatePackage} {device : SuperOptimizationDeviceInfo}
  {report : SuperOptimizationReport}

/-! ### The rewritten task list -/

/-- A reboot out of fastbootd. -/
def LeavesFastbootd (task : PlannedUpdateTask) : Prop :=
  task.kind = .reboot ∧ task.rebootTarget ≠ .fastboot

/-- No task between two positions leaves fastbootd. -/
def StaysInFastbootd (tasks : List PlannedUpdateTask) (first last : ℕ) : Prop :=
  ∀ k other, first < k → k < last → tasks[k]? = some other → ¬ LeavesFastbootd other

/-- The task at a position brings the device to fastbootd, where it still is at a later one. -/
def EntersFastbootd (tasks : List PlannedUpdateTask) (first last : ℕ) : Prop :=
  first < last ∧ (∃ reboot, tasks[first]? = some reboot ∧ rebootsToFastboot reboot = true) ∧
    StaysInFastbootd tasks first last

section

variable {tasks : List PlannedUpdateTask} {window : ℕ} {superPartition optimizedName : String}

theorem rewriteTasks_before (hlen : window ≤ tasks.length) {index : ℕ} (h : index < window) :
    (rewriteTasks tasks window superPartition optimizedName)[index]? = tasks[index]? := by
  unfold rewriteTasks
  rw [List.append_assoc, List.getElem?_append_left (by simp; omega), List.getElem?_take, if_pos h]

theorem rewriteTasks_after (hlen : window ≤ tasks.length) {index : ℕ} (h : window < index) :
    (rewriteTasks tasks window superPartition optimizedName)[index]? = tasks[index + 2]? := by
  unfold rewriteTasks
  have htake : (tasks.take window).length = window := by simp [hlen]
  rw [List.getElem?_append_right (by simp; omega), List.getElem?_drop]
  congr 1
  simp only [List.length_append, htake, List.length_cons, List.length_nil]
  omega

/-- The original position of a task that was kept. -/
def originalIndex (window index : ℕ) : ℕ := if index < window then index else index + 2

theorem rewriteTasks_kept (hlen : window ≤ tasks.length) {index : ℕ} (h : index ≠ window) :
    (rewriteTasks tasks window superPartition optimizedName)[index]?
      = tasks[originalIndex window index]? := by
  unfold originalIndex
  split_ifs with hlt
  · exact rewriteTasks_before hlen hlt
  · exact rewriteTasks_after hlen (by omega)

theorem originalIndex_lt_iff {i k : ℕ} :
    originalIndex window i < originalIndex window k ↔ i < k := by
  unfold originalIndex
  split_ifs <;> omega

theorem originalIndex_of_lt {index : ℕ} (h : window < index) :
    originalIndex window index = index + 2 := if_neg (by omega)

/-- The positions outside the window are those of kept tasks. -/
theorem exists_originalIndex {k : ℕ} (h : k < window ∨ window + 2 < k) :
    ∃ i ≠ window, originalIndex window i = k := by
  rcases h with h | h
  · exact ⟨k, by omega, if_pos h⟩
  · exact ⟨k - 2, by omega, (originalIndex_of_lt (by omega)).trans (by omega)⟩

/-- At a later position of the rewritten list the device is in fastbootd because of a task exactly
when it is there in the original list because of one that is not the window's.  The window's own
tasks do not leave fastbootd. -/
theorem rewriteTasks_entersFastbootd_iff (hlen : window + 2 < tasks.length)
    (hreboot : ∀ k task, window < k → k ≤ window + 2 → tasks[k]? = some task →
      rebootsToFastboot task = false)
    (hstays : ∀ k task, window ≤ k → k ≤ window + 2 → tasks[k]? = some task →
      ¬ LeavesFastbootd task) {index : ℕ} (h : window < index) :
    (∃ i, EntersFastbootd (rewriteTasks tasks window superPartition optimizedName) i index) ↔
      ∃ i ≠ window, EntersFastbootd tasks i (index + 2) := by
  have hwin : (rewriteTasks tasks window superPartition optimizedName)[window]?
      = some (superFlashTask tasks window superPartition optimizedName) :=
    rewriteTasks_window (by omega)
  rw [← originalIndex_of_lt h]
  constructor
  · rintro ⟨i, hi, ⟨task, htask, htrue⟩, hstay⟩
    have hne : i ≠ window := by
      rintro rfl
      cases hwin.symm.trans htask
      cases htrue
    rw [rewriteTasks_kept (by omega) hne] at htask
    refine ⟨originalIndex window i, ?_, originalIndex_lt_iff.mpr hi, ⟨task, htask, htrue⟩, ?_⟩
    · unfold originalIndex
      split_ifs <;> omega
    · intro k other hik hk hoth
      by_cases hout : k < window ∨ window + 2 < k
      · obtain ⟨m, hm, rfl⟩ := exists_originalIndex hout
        rw [← rewriteTasks_kept (by omega) hm] at hoth
        exact hstay m other (originalIndex_lt_iff.mp hik) (originalIndex_lt_iff.mp hk) hoth
      · exact hstays k other (by omega) (by omega) hoth
  · rintro ⟨k, hne, hk, ⟨task, htask, htrue⟩, hstay⟩
    have hout : k < window ∨ window + 2 < k := by
      by_contra hin
      rw [hreboot k task (by omega) (by omega) htask] at htrue
      cases htrue
    obtain ⟨i, hi, rfl⟩ := exists_originalIndex hout
    rw [← rewriteTasks_kept (by omega) hi] at htask
    refine ⟨i, originalIndex_lt_iff.mp hk, ⟨task, htask, htrue⟩, fun m other him hm hoth => ?_⟩
    by_cases hmw : m = window
    · subst hmw
      cases hwin.symm.trans hoth
      rintro ⟨hkind, -⟩
      cases hkind
    · rw [rewriteTasks_kept (by omega) hmw] at hoth
      exact hstay _ other (originalIndex_lt_iff.mpr him) (originalIndex_lt_iff.mpr hm) hoth

end

/-! ### Logical flashes in fastbootd -/

/-- The window of a package and the metadata of its `super_empty.img`. -/
def IsWindow (prepared : PreparedUpdatePackage) (device : SuperOptimizationDeviceInfo)
    (window : ℕ) (metadata : Metadata) : Prop :=
  findOptimizationWindow prepared = some window ∧ ∃ superEmpty,
    superArtifact prepared device = .ok superEmpty ∧ superMetadata superEmpty = .ok (some metadata)

/-- A flash of a logical partition, named exactly or with the resolved slot suffix, that follows
the window's reboot with no reboot out of fastbootd between them. -/
structure LogicalFlash (tasks : List PlannedUpdateTask) (metadata : Metadata)
    (currentSlot : String) (window index : ℕ) (task : PlannedUpdateTask) : Prop where
  task_eq : tasks[index]? = some task
  after : window < index
  is_flash : task.kind = .flash
  is_logical : ∃ name, resolvePartitionName metadata task currentSlot = .ok name
  in_fastbootd : StaysInFastbootd tasks window index

/-- Every logical flash that ran in fastbootd is absorbed, or is still in the task list, where a
reboot-to-fastboot task comes before it and no reboot out of fastbootd between the two. -/
def KeepsLogicalFlashes (prepared : PreparedUpdatePackage) (device : SuperOptimizationDeviceInfo)
    (report : SuperOptimizationReport) (prepared' : PreparedUpdatePackage) : Prop :=
  ∀ window metadata index task, IsWindow prepared device window metadata →
    LogicalFlash prepared.plan.tasks metadata device.currentSlot window index task →
    (index = window + 2 ∧ ∃ name ∈ report.absorbedPartitions,
        resolvePartitionName metadata task device.currentSlot = .ok name) ∨
      ∃ position, position + 2 = index ∧ prepared'.plan.tasks[position]? = some task ∧
        ∃ i, EntersFastbootd prepared'.plan.tasks i position

/-- Every logical flash after the window's own has a reboot-to-fastboot task other than the
window's before it, and no reboot out of fastbootd between the two. -/
def LaterFlashesRebooted (prepared : PreparedUpdatePackage)
    (device : SuperOptimizationDeviceInfo) : Prop :=
  ∀ window metadata index task, IsWindow prepared device window metadata →
    LogicalFlash prepared.plan.tasks metadata device.currentSlot window index task →
    index ≠ window + 2 → ∃ i ≠ window, EntersFastbootd prepared.plan.tasks i index

section

variable (o : Optimized prepared device report prepared')
include o

theorem Optimized.isWindow_iff {window : ℕ} {metadata : Metadata} :
    IsWindow prepared device window metadata ↔ window = o.window ∧ metadata = o.metadata := by
  unfold IsWindow
  rw [o.window_eq, o.superEmpty_eq]
  constructor
  · rintro ⟨hwin, superEmpty, hsuper, hmeta⟩
    cases hsuper
    rw [o.metadata_eq] at hmeta
    exact ⟨(Option.some.inj hwin).symm, (Option.some.inj (Except.ok.inj hmeta)).symm⟩
  · rintro ⟨rfl, rfl⟩
    exact ⟨rfl, o.superEmpty, rfl, o.metadata_eq⟩

theorem Optimized.tasks_eq :
    prepared'.plan.tasks = rewriteTasks prepared.plan.tasks o.window device.superPartition
      (uniqueOptimizedName prepared) :=
  congrArg (·.plan.tasks) o.package_eq

theorem Optimized.entersFastbootd_iff {index : ℕ} (h : o.window < index) :
    (∃ i, EntersFastbootd prepared'.plan.tasks i index) ↔
      ∃ i ≠ o.window, EntersFastbootd prepared.plan.tasks i (index + 2) := by
  obtain ⟨reboot, update, flash, hreb, hupd, hflash, hr, hu, hf⟩ :=
    findOptimizationWindow_spec o.window_eq
  rw [o.tasks_eq]
  refine rewriteTasks_entersFastbootd_iff o.window_lt (fun k task hlo hhi htask => ?_)
    (fun k task hlo hhi htask => ?_) h
  · obtain rfl | rfl : k = o.window + 1 ∨ k = o.window + 2 := by omega
    · cases (hupd.symm.trans htask)
      simp [rebootsToFastboot, hu]
    · cases (hflash.symm.trans htask)
      simp [rebootsToFastboot, hf]
  · rintro ⟨hkind, htarget⟩
    obtain rfl | rfl | rfl : k = o.window ∨ k = o.window + 1 ∨ k = o.window + 2 := by omega
    · cases (hreb.symm.trans htask)
      simp [rebootsToFastboot, hkind, htarget] at hr
    · cases (hupd.symm.trans htask)
      cases hkind.symm.trans hu
    · cases (hflash.symm.trans htask)
      cases hkind.symm.trans hf

/-- A logical flash after the window is the absorbed one or a later one. -/
theorem Optimized.logicalFlash_cases {metadata : Metadata} {currentSlot : String} {index : ℕ}
    {task : PlannedUpdateTask}
    (h : LogicalFlash prepared.plan.tasks metadata currentSlot o.window index task) :
    index = o.window + 2 ∨ ∃ position, position + 2 = index ∧ o.window < position ∧
      prepared'.plan.tasks[position]? = some task := by
  obtain ⟨-, update, -, -, hupd, -, -, hu, -⟩ := findOptimizationWindow_spec o.window_eq
  have hne : index ≠ o.window + 1 := by
    rintro rfl
    cases (hupd.symm.trans h.task_eq)
    rw [h.is_flash] at hu
    cases hu
  have hafter := h.after
  by_cases heq : index = o.window + 2
  · exact Or.inl heq
  · obtain ⟨position, rfl⟩ : ∃ position, index = position + 2 := ⟨index - 2, by omega⟩
    refine Or.inr ⟨position, rfl, by omega, ?_⟩
    have hlen := o.window_lt
    rw [o.tasks_eq, rewriteTasks_after (by omega) (by omega)]
    exact h.task_eq

end

/-- **Logical flashes after an optimization** still run in fastbootd exactly when each of them,
other than the absorbed one, runs there because of a reboot to fastboot of its own. -/
theorem logical_flashes_keep_fastbootd_iff
    (hok : optimizePreparedSuper prepared device = .ok (report, prepared'))
    (hopt : report.optimized = true) :
    KeepsLogicalFlashes prepared device report prepared' ↔
      LaterFlashesRebooted prepared device := by
  obtain ⟨o⟩ := optimizePreparedSuper_optimized hok hopt
  obtain ⟨a⟩ := generateSuper_absorbed o.generated
  constructor
  · intro hkeeps window metadata index task hwindow hlogical hne
    obtain ⟨rfl, rfl⟩ := o.isWindow_iff.mp hwindow
    rcases hkeeps _ _ _ _ hwindow hlogical with ⟨heq, -⟩ | ⟨position, rfl, -, hreboot⟩
    · exact absurd heq hne
    · have hafter := hlogical.after
      rcases o.logicalFlash_cases hlogical with heq | ⟨position', heq, hlt, -⟩
      · exact absurd heq hne
      · exact (o.entersFastbootd_iff (by omega)).mp hreboot
  · intro hlater window metadata index task hwindow hlogical
    obtain ⟨rfl, rfl⟩ := o.isWindow_iff.mp hwindow
    rcases o.logicalFlash_cases hlogical with rfl | ⟨position, rfl, hlt, htask⟩
    · cases (a.task_eq.symm.trans hlogical.task_eq)
      exact Or.inl ⟨rfl, a.image.partitionName, by simp [a.absorbed_eq], a.name_eq⟩
    · refine Or.inr ⟨position, rfl, htask, (o.entersFastbootd_iff hlt).mpr ?_⟩
      exact hlater _ _ _ _ hwindow hlogical (by omega)

/-- The theorem at the sample package. -/
theorem samplePackage_keeps_iff :
    ∃ prepared', optimizePreparedSuper samplePackage sampleDevice
        = .ok (⟨true, ["system_a"]⟩, prepared') ∧
      (KeepsLogicalFlashes samplePackage sampleDevice ⟨true, ["system_a"]⟩ prepared' ↔
        LaterFlashesRebooted samplePackage sampleDevice) := by
  obtain ⟨prepared', hok⟩ := samplePackage_optimized
  exact ⟨prepared', hok, logical_flashes_keep_fastbootd_iff hok rfl⟩

theorem samplePackage_logicalFlash :
    LogicalFlash samplePackage.plan.tasks sampleMetadata "a" 0 3
      { partition := "vendor", artifact := "vendor.img" } where
  task_eq := rfl
  after := by decide
  is_flash := rfl
  is_logical := ⟨"vendor_a", rfl⟩
  in_fastbootd k other hlo hhi hoth := by
    rintro ⟨hkind, -⟩
    obtain rfl | rfl : k = 1 ∨ k = 2 := by omega
    · cases hoth
      cases hkind
    · cases hoth
      cases hkind

/-- In the optimized sample package the flash of vendor is left without a reboot to fastboot:
the window's reboot is gone and vendor is not absorbed. -/
theorem samplePackage_loses_fastbootd :
    ∃ prepared', optimizePreparedSuper samplePackage sampleDevice
        = .ok (⟨true, ["system_a"]⟩, prepared') ∧
      ¬ KeepsLogicalFlashes samplePackage sampleDevice ⟨true, ["system_a"]⟩ prepared' := by
  obtain ⟨prepared', hok⟩ := samplePackage_optimized
  refine ⟨prepared', hok, fun hkeeps => ?_⟩
  obtain ⟨o⟩ := optimizePreparedSuper_optimized hok rfl
  have hwindow : o.window = 0 := by
    have hfind : findOptimizationWindow samplePackage = some 0 := by decide
    exact Option.some.inj (o.window_eq.symm.trans hfind)
  have hfirst : prepared'.plan.tasks[0]?
      = some (superFlashTask samplePackage.plan.tasks 0 "super"
          (uniqueOptimizedName samplePackage)) := by
    rw [o.tasks_eq, hwindow]
    exact rewriteTasks_window (Nat.zero_le _)
  have hmetadata : IsWindow samplePackage sampleDevice 0 sampleMetadata :=
    ⟨by decide, FlashArtifact.ofRaw sampleSuperSource, rfl, superMetadata_sample⟩
  rcases hkeeps _ _ _ _ hmetadata samplePackage_logicalFlash with
    ⟨hindex, -⟩ | ⟨position, hposition, -, i, hlt, ⟨reboot, hreboot, hkind⟩, -⟩
  · cases hindex
  · obtain rfl : i = 0 := by omega
    cases (hfirst.symm.trans hreboot)
    cases hkind

end KairosBoot.SuperOptimizer
