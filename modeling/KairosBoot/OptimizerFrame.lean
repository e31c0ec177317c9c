import KairosBoot.OptimizedPlan
import KairosBoot.Outcomes
import Mathlib.Data.List.Perm.Subperm
import Std.Data.String.ToNat

/-! # What the optimizer touches

`optimize_prepared_super` works on the package in place.  `optimizeInPlace` is that program: it
reads, parses and generates first, polling its stop token on the way, and then edits the tasks,
the artifacts and the update-super state one after the other.  It leaves the package alone unless
it reports an optimization (`optimizeInPlace_settles`), and an optimization replaces the window by one
flash of a new artifact and keeps the rest (`optimizer_touches_only_window`). -/

namespace KairosBoot.SuperOptimizer

open Guards Outcomes List

variable {prepared prepared' : PreparedUpdatePackage} {device : SuperOptimizationDeviceInfo}
  {report : SuperOptimizationReport}

/-! ### The program in place -/

/-- The steps in which the optimizer polls its stop token. -/
inductive PolledStep where
  | entry | metadata | source | inspection | digest
  deriving DecidableEq, Repr

/-- For each step the error it returns if it finds the stop requested. -/
abbrev StopRequests := PolledStep → Option SuperOptimizationError

/-- A step that reads the package and polls the stop token. -/
def polled {α : Type} (stop : Option SuperOptimizationError) (result : OptimizerM α) :
    Prog PreparedUpdatePackage SuperOptimizationError α :=
  match stop with
  | some e => throw e
  | none => ofOutcome result

def setTasks (tasks : List PlannedUpdateTask) (prepared : PreparedUpdatePackage) :
    PreparedUpdatePackage :=
  { prepared with plan := { prepared.plan with tasks := tasks } }

/-- Erase the absorbed artifact, unless a task of the package refers to it. -/
def eraseAbsorbed (absorbedArtifact : String) (prepared : PreparedUpdatePackage) :
    PreparedUpdatePackage :=
  { prepared with
    artifacts := prepared.artifacts.filter fun value =>
      !(value.name = absorbedArtifact ∧
        prepared.plan.tasks.all fun task => task.artifact ≠ value.name) }

def pushArtifact (artifact : PreparedUpdateArtifact) (prepared : PreparedUpdatePackage) :
    PreparedUpdatePackage :=
  { prepared with artifacts := prepared.artifacts ++ [artifact] }

def hasUpdateSuper (prepared : PreparedUpdatePackage) : Bool :=
  prepared.plan.tasks.any fun task => task.kind = .updateSuper

/-- Drop the prepared super artifact once no update-super task is left. -/
def settleUpdateSuper (prepared : PreparedUpdatePackage) : PreparedUpdatePackage :=
  if hasUpdateSuper prepared then prepared
  else { prepared with updateSuperState := .notRequired, preparedSuperArtifact := none }

/-- The generated artifact, made of objects new to the package. -/
def optimizedArtifact (prepared : PreparedUpdatePackage) (source : ImageSource)
    (digest : Bytes) (artifact : FlashArtifact) : PreparedUpdateArtifact :=
  let address := prepared.freshAddress
  { name := uniqueOptimizedName prepared
    resolved := some ⟨address,
      { source := some ⟨address + 1, source⟩
        sha256 := digest
        origin := .directFile
        logicalName := uniqueOptimizedName prepared }⟩
    artifact := some ⟨address + 2, ⟨address + 1, artifact⟩⟩ }

/-- Validate and hash the generated source, and edit the package. -/
def publishInPlace (stop : StopRequests) (prepared : PreparedUpdatePackage) (window : ℕ)
    (superPartition : String) (absorbed : List String) (source : ImageSource) :
    Prog PreparedUpdatePackage SuperOptimizationError SuperOptimizationReport := do
  let artifact ← polled (stop .inspection) ((FlashArtifact.inspect source).mapError fun e =>
    ⟨.source, "generated optimized super sparse image failed validation: " ++ e.message⟩)
  let digest ← polled (stop .digest) ((computeSha256 source).mapError fun e =>
    ⟨if e.kind = .cancelled then .cancelled else .source,
      "unable to hash optimized super image: " ++ e.message⟩)
  let optimized := optimizedArtifact prepared source digest artifact
  let absorbedArtifact := (prepared.plan.tasks[window + 2]?.map (·.artifact)).getD ""
  modify (setTasks (rewriteTasks prepared.plan.tasks window superPartition optimized.name))
  modify (eraseAbsorbed absorbedArtifact)
  modify (pushArtifact optimized)
  modify settleUpdateSuper
  pure ⟨true, absorbed⟩

/-- `optimize_prepared_super` on a package it holds by reference. -/
def optimizeInPlace (device : SuperOptimizationDeviceInfo) (stop : StopRequests) :
    Prog PreparedUpdatePackage SuperOptimizationError SuperOptimizationReport := do
  let prepared ← get
  match findOptimizationWindow prepared with
  | none => pure {}
  | some window => do
      let superEmpty ← polled (stop .entry) (superArtifact prepared device)
      match ← polled (stop .metadata) (superMetadata superEmpty) with
      | none => pure {}
      | some metadata => do
          ofOutcome (failIf (device.superPartitionSize ≠ 0 ∧
              metadata.blockDevice.size ≠ device.superPartitionSize)
            ⟨.sizeMismatch, "device super size does not match super_empty.img LP metadata"⟩)
          ofOutcome (failIf (metadata.blockDevice.name ≠ device.superPartition)
            ⟨.sizeMismatch, "device super name does not match super_empty.img LP metadata"⟩)
          if device.superPartitionSize = 0 ∨ device.currentSlot = "" then pure {}
          else do
            match ← polled (stop .source)
                (generateSuper prepared metadata window device.currentSlot) with
            | none => pure {}
            | some (absorbed, source) =>
                publishInPlace stop prepared window device.superPartition absorbed source

theorem edits_eq {window : ℕ} {superPartition : String} {source : ImageSource}
    {digest : Bytes} {artifact : FlashArtifact} :
    settleUpdateSuper (pushArtifact (optimizedArtifact prepared source digest artifact)
      (eraseAbsorbed ((prepared.plan.tasks[window + 2]?.map (·.artifact)).getD "")
        (setTasks (rewriteTasks prepared.plan.tasks window superPartition
          (uniqueOptimizedName prepared)) prepared)))
      = rewritePackage prepared window superPartition source digest artifact := by
  by_cases h : (rewriteTasks prepared.plan.tasks window superPartition
      (uniqueOptimizedName prepared)).any (fun task => task.kind = .updateSuper) = true
  · rw [settleUpdateSuper, if_pos (by exact h)]
    simp only [rewritePackage, if_pos h]
    rfl
  · rw [settleUpdateSuper, if_neg (by exact h)]
    simp only [rewritePackage, if_neg h]
    rfl

/-- A run ends with the given outcome or an error, and only a reported optimization changes the
package. -/
def Settles (prepared : PreparedUpdatePackage)
    (outcome : OptimizerM (SuperOptimizationReport × PreparedUpdatePackage))
    (x : Prog PreparedUpdatePackage SuperOptimizationError SuperOptimizationReport) : Prop :=
  EndsWith x prepared
    (fun report after => outcome = .ok (report, after) ∧
      (report.optimized = false → after = prepared))
    (fun _ after => after = prepared)

theorem Settles.polled {α : Type} {result : OptimizerM α}
    {f : α → OptimizerM (SuperOptimizationReport × PreparedUpdatePackage)}
    {g : α → Prog PreparedUpdatePackage SuperOptimizationError SuperOptimizationReport}
    (stop : Option SuperOptimizationError) (h : ∀ a, Settles prepared (f a) (g a)) :
    Settles prepared (result >>= f) (polled stop result >>= g) := by
  cases stop with
  | some e => exact rfl
  | none =>
      cases result with
      | ok a => exact h a
      | error e => exact rfl

theorem Settles.unchanged : Settles prepared (.ok ({}, prepared)) (pure {}) := ⟨rfl, fun _ => rfl⟩

theorem publishInPlace_settles {stop : StopRequests} {window : ℕ} {superPartition : String}
    {absorbed : List String} {source : ImageSource} :
    Settles prepared (publishSuper prepared window superPartition absorbed source)
      (publishInPlace stop prepared window superPartition absorbed source) := by
  refine Settles.polled _ fun artifact => Settles.polled _ fun digest => ⟨?_, fun h => ?_⟩
  · rw [← edits_eq]
    rfl
  · cases h

/-- A run in place fails or reports nothing and leaves the package alone, or ends as the optimizer
on values does. -/
theorem optimizeInPlace_settles (prepared : PreparedUpdatePackage)
    (device : SuperOptimizationDeviceInfo) (stop : StopRequests) :
    Settles prepared (optimizePreparedSuper prepared device) (optimizeInPlace device stop) := by
  unfold Settles EndsWith Ends optimizeInPlace optimizePreparedSuper
  rw [exec_get_bind]
  change Settles prepared _ _
  cases findOptimizationWindow prepared with
  | none => exact Settles.unchanged
  | some window =>
      refine Settles.polled _ fun superEmpty => Settles.polled _ fun found => ?_
      cases found with
      | none => exact Settles.unchanged
      | some metadata =>
          refine Settles.polled none fun _ => Settles.polled none fun _ => ?_
          split_ifs
          · exact Settles.unchanged
          · refine Settles.polled _ fun generated => ?_
            cases generated with
            | none => exact Settles.unchanged
            | some result => exact publishInPlace_settles

/-! ### The fresh name -/

/-- More distinct candidates than names in use leave one that is free. -/
theorem exists_find_of_length_lt {α : Type} {p : α → Bool} {used candidates : List α}
    (hused : ∀ a, p a = false → a ∈ used) (hnodup : candidates.Nodup)
    (hlen : used.length < candidates.length) : ∃ a, candidates.find? p = some a := by
  rw [← Option.isSome_iff_exists, find?_isSome]
  by_contra hnone
  have hsub : candidates ⊆ used := fun a ha =>
    hused a (Bool.not_eq_true _ ▸ fun hfree => hnone ⟨a, ha, hfree⟩)
  exact absurd (hnodup.subperm hsub).length_le (by omega)

def namesUsed (prepared : PreparedUpdatePackage) : List String :=
  prepared.artifacts.map (·.name) ++ prepared.plan.tasks.map (·.artifact)

theorem nameUsed_iff {candidate : String} :
    nameUsed prepared candidate = true ↔ candidate ∈ namesUsed prepared := by
  simp [nameUsed, namesUsed]

def nameCandidates (attempts : ℕ) : List String :=
  kOptimizedName :: (List.range attempts).map fun suffix =>
    "kairosboot-optimized-super-" ++ toString (suffix + 1) ++ ".img"

theorem nameCandidates_nodup (attempts : ℕ) : (nameCandidates attempts).Nodup := by
  refine nodup_cons.mpr ⟨fun h => ?_, nodup_range.map fun i j h => ?_⟩
  · -- the numbered names have one more hyphen, hence more characters
    obtain ⟨suffix, -, h⟩ := mem_map.mp h
    have hlen := congrArg String.length h
    have hhead : "kairosboot-optimized-super-".length = 27 := rfl
    have htail : ".img".length = 4 := rfl
    have hname : kOptimizedName.length = 30 := rfl
    simp only [String.length_append] at hlen
    omega
  · have hinner := (String.append_right_inj _).mp ((String.append_left_inj _).mp h)
    exact Nat.succ_injective (Nat.repr_injective hinner)

/-- The name of the generated artifact is in use nowhere in the package. -/
theorem uniqueOptimizedName_fresh : uniqueOptimizedName prepared ∉ namesUsed prepared := by
  obtain ⟨name, hname⟩ := exists_find_of_length_lt
    (p := fun candidate => !nameUsed prepared candidate)
    (fun candidate h => nameUsed_iff.mp (by simpa using h))
    (nameCandidates_nodup (prepared.artifacts.length + prepared.plan.tasks.length))
    (by simp [namesUsed, nameCandidates])
  have hunique : uniqueOptimizedName prepared = name :=
    congrArg (Option.getD · kOptimizedName) hname
  have hfree := find?_some hname
  rw [hunique, ← nameUsed_iff]
  simpa using hfree

/-! ### The frame -/

/-- An optimized package: the three tasks of the window are replaced by a default-slot flash of
the super partition with a new artifact, and nothing else changes but what only the window
used. -/
structure WindowReplaced (prepared : PreparedUpdatePackage) (device : SuperOptimizationDeviceInfo)
    (after : PreparedUpdatePackage) (before rest : List PlannedUpdateTask)
    (reboot update flash task : PlannedUpdateTask) (kept : List PreparedUpdateArtifact)
    (added : PreparedUpdateArtifact) : Prop where
  tasks_before : prepared.plan.tasks = before ++ reboot :: update :: flash :: rest
  is_window : rebootsToFastboot reboot = true ∧ update.kind = .updateSuper ∧ flash.kind = .flash
  plan_after : after.plan = { prepared.plan with tasks := before ++ task :: rest }
  flashes_super : task.kind = .flash ∧ task.partition = device.superPartition ∧
    task.slot = .default ∧ task.artifact = added.name
  artifacts_after : after.artifacts = kept ++ [added]
  fresh_artifact : ∀ artifact ∈ prepared.artifacts, artifact.name ≠ added.name
  fresh_reference : ∀ other ∈ prepared.plan.tasks, other.artifact ≠ added.name
  kept_sublist : kept.Sublist prepared.artifacts
  keeps_referenced : ∀ artifact ∈ prepared.artifacts, ∀ other ∈ before ++ rest,
    other.artifact = artifact.name → artifact ∈ kept
  drops_absorbed : ∀ artifact ∈ prepared.artifacts, artifact ∉ kept →
    artifact.name = flash.artifact
  super_dropped : (∀ other ∈ after.plan.tasks, other.kind ≠ .updateSuper) ↔
    after.preparedSuperArtifact = none
  super_kept : (∃ other ∈ after.plan.tasks, other.kind = .updateSuper) →
    after.preparedSuperArtifact = prepared.preparedSuperArtifact ∧
      after.updateSuperState = prepared.updateSuperState
  validation_kept : after.requiresDeviceValidation = prepared.requiresDeviceValidation

/-- The package after a call of the optimizer: replaced at its window if an optimization is
reported, and otherwise the same. -/
def TouchesOnlyWindow (prepared : PreparedUpdatePackage) (device : SuperOptimizationDeviceInfo)
    (result : OptimizerM SuperOptimizationReport) (after : PreparedUpdatePackage) : Prop :=
  match result with
  | .error _ => after = prepared
  | .ok report =>
      (report.optimized = false → after = prepared) ∧
      (report.optimized = true → ∃ before rest reboot update flash task kept added,
        WindowReplaced prepared device after before rest reboot update flash task kept added)

theorem eq_append_window {α : Type} {l : List α} {window : ℕ} {a b c : α}
    (ha : l[window]? = some a) (hb : l[window + 1]? = some b) (hc : l[window + 2]? = some c) :
    l = l.take window ++ a :: b :: c :: l.drop (window + 3) := by
  have step : ∀ {i : ℕ} {x : α}, l[i]? = some x → l.drop i = x :: l.drop (i + 1) := by
    intro i x h
    obtain ⟨hlt, rfl⟩ := List.getElem?_eq_some_iff.mp h
    exact drop_eq_getElem_cons hlt
  rw [← step hc, ← step hb, ← step ha, take_append_drop]

theorem superArtifact_prepared {artifact : FlashArtifact}
    (h : superArtifact prepared device = .ok artifact) : prepared.preparedSuperArtifact ≠ none := by
  intro hnone
  simp [superArtifact, hnone] at h

theorem mem_eraseAbsorbed {name : String} {artifact : PreparedUpdateArtifact} :
    artifact ∈ (eraseAbsorbed name prepared).artifacts ↔ artifact ∈ prepared.artifacts ∧
      (artifact.name = name → ∃ task ∈ prepared.plan.tasks, task.artifact = artifact.name) := by
  simp only [eraseAbsorbed, mem_filter]
  refine and_congr_right fun _ => ?_
  simp [imp_iff_not_or]

theorem settleUpdateSuper_frame (prepared : PreparedUpdatePackage) :
    (settleUpdateSuper prepared).plan = prepared.plan ∧
    (settleUpdateSuper prepared).artifacts = prepared.artifacts ∧
    (settleUpdateSuper prepared).requiresDeviceValidation = prepared.requiresDeviceValidation := by
  unfold settleUpdateSuper
  split <;> exact ⟨rfl, rfl, rfl⟩

/-- The update-super state is dropped exactly when no task is left that needs it. -/
theorem settleUpdateSuper_super (prepared : PreparedUpdatePackage)
    (hsuper : prepared.preparedSuperArtifact ≠ none) :
    ((∀ other ∈ prepared.plan.tasks, other.kind ≠ .updateSuper) ↔
      (settleUpdateSuper prepared).preparedSuperArtifact = none) ∧
    ((∃ other ∈ prepared.plan.tasks, other.kind = .updateSuper) →
      settleUpdateSuper prepared = prepared) := by
  by_cases h : hasUpdateSuper prepared = true
  · have hsome : ∃ other ∈ prepared.plan.tasks, other.kind = .updateSuper := by
      simpa [hasUpdateSuper] using h
    have hsettle : settleUpdateSuper prepared = prepared := if_pos h
    refine ⟨⟨fun hnone => ?_, fun hnone => ?_⟩, fun _ => hsettle⟩
    · obtain ⟨other, hmem, hkind⟩ := hsome
      exact absurd hkind (hnone other hmem)
    · exact absurd (hsettle ▸ hnone) hsuper
  · have hnone : ∀ other ∈ prepared.plan.tasks, other.kind ≠ .updateSuper := by
      simpa [hasUpdateSuper] using h
    refine ⟨⟨fun _ => ?_, fun _ => hnone⟩, fun ⟨other, hmem, hkind⟩ => ?_⟩
    · rw [settleUpdateSuper, if_neg h]
    · exact absurd hkind (hnone other hmem)

theorem Optimized.windowReplaced (o : Optimized prepared device report prepared') :
    ∃ before rest reboot update flash task kept added,
      WindowReplaced prepared device prepared' before rest reboot update flash task kept added := by
  obtain ⟨reboot, update, flash, h0, h1, h2, hwin⟩ := findOptimizationWindow_spec o.window_eq
  have hfresh : ∀ name ∈ namesUsed prepared, name ≠ uniqueOptimizedName prepared :=
    fun name hname heq => uniqueOptimizedName_fresh (heq ▸ hname)
  -- the package after the edits, before the update-super state is settled
  let added := optimizedArtifact prepared o.source o.digest o.artifact
  let task := superFlashTask prepared.plan.tasks o.window device.superPartition added.name
  let erased := eraseAbsorbed flash.artifact (setTasks (rewriteTasks prepared.plan.tasks
    o.window device.superPartition added.name) prepared)
  have hpkg : prepared' = settleUpdateSuper (pushArtifact added erased) := by
    rw [o.package_eq, ← edits_eq, h2]
    rfl
  have htasks : erased.plan.tasks = prepared.plan.tasks.take o.window ++
      task :: prepared.plan.tasks.drop (o.window + 3) := append_assoc ..
  obtain ⟨hplan, harts, hvld⟩ := settleUpdateSuper_frame (pushArtifact added erased)
  have hset := settleUpdateSuper_super (pushArtifact added erased)
    (superArtifact_prepared o.superEmpty_eq)
  rw [← hpkg] at hplan harts hvld hset
  refine ⟨prepared.plan.tasks.take o.window, prepared.plan.tasks.drop (o.window + 3), reboot,
    update, flash, task, erased.artifacts, added, ?_⟩
  exact {
    tasks_before := eq_append_window h0 h1 h2
    is_window := hwin
    plan_after := by rw [hplan, ← htasks]; rfl
    flashes_super := ⟨rfl, rfl, rfl, rfl⟩
    artifacts_after := harts
    fresh_artifact := fun artifact hmem =>
      hfresh _ (mem_append_left _ (mem_map_of_mem hmem))
    fresh_reference := fun other hmem =>
      hfresh _ (mem_append_right _ (mem_map_of_mem hmem))
    kept_sublist := filter_sublist
    keeps_referenced := fun artifact hmem other hoth heq => by
      refine mem_eraseAbsorbed.mpr ⟨hmem, fun _ => ⟨other, ?_, heq⟩⟩
      change other ∈ erased.plan.tasks
      rw [htasks]
      exact (mem_append.mp hoth).elim (mem_append_left _)
        fun hrest => mem_append_right _ (mem_cons_of_mem _ hrest)
    drops_absorbed := fun artifact hmem hdropped => by
      by_contra hne
      exact hdropped (mem_eraseAbsorbed.mpr ⟨hmem, fun heq => absurd heq hne⟩)
    super_dropped := by rw [hplan]; exact hset.1
    super_kept := by
      rw [hplan]
      intro hsome
      rw [hset.2 hsome]
      exact ⟨rfl, rfl⟩
    validation_kept := hvld }

/-- **The optimizer touches only its window**, wherever it finds its stop requested. -/
theorem optimizer_touches_only_window (prepared : PreparedUpdatePackage)
    (device : SuperOptimizationDeviceInfo) (stop : StopRequests) :
    TouchesOnlyWindow prepared device (exec (optimizeInPlace device stop) prepared).1
      (exec (optimizeInPlace device stop) prepared).2 := by
  have h := optimizeInPlace_settles prepared device stop
  unfold Settles EndsWith Ends at h
  unfold TouchesOnlyWindow
  cases hr : (exec (optimizeInPlace device stop) prepared).1 with
  | error e =>
      rw [hr] at h
      exact h
  | ok report =>
      rw [hr] at h
      refine ⟨h.2, fun hopt => ?_⟩
      obtain ⟨o⟩ := optimizePreparedSuper_optimized h.1 hopt
      exact o.windowReplaced

end KairosBoot.SuperOptimizer
