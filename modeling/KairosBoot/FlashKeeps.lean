import KairosBoot.PublicFlash

/-! # What the steps of a flash leave alone

Only `flashPart` sends data and flash commands.  Everything else that a public flash operation does
consists of other commands, fetches and calls of the host.  So an operation keeps every property of
the outside that these keep, and that data and flash commands for its names keep (`Spares`):
`prepareFlash_keeps` and `flashPartitions_keeps` say so of the two halves of a flash,
`prepareRepack_keeps` and `repackPartitions_keeps` of those of a repack. -/

namespace KairosBoot

open Outcomes

def IsFlashCommand (text : String) : Prop := text.toList.take 6 = "flash:".toList

/-- Data and flash commands for the partitions in `P` keep `J`, and so do all other commands,
fetches and the calls of the context and of the host. -/
structure Spares {σ : Type} (P : String → Prop) (J : σ → Prop) (port : SessionPort σ)
    (context : OperationContext σ) (host : FlashHost σ) : Prop where
  downloadAndFlashSource : ∀ partition, P partition → ∀ source,
    Keeps J (PrimitiveService.downloadAndFlashSource port partition source)
  command : ∀ text, ¬ IsFlashCommand text → Keeps J (port.command text)
  receiveToSink : ∀ text maximumBytes, Keeps J (port.receiveToSink text maximumBytes)
  stopRequested : ∀ s, J s → J (context.stopRequested s).2
  deadlineReached : ∀ s, J s → J (context.deadlineReached s).2
  cancelRequested : ∀ s, J s → J (host.cancelRequested s).2
  reportProgress : ∀ completed total stage s, J s → J (host.reportProgress completed total stage s).2
  applyVbmetaFlags : ∀ source s, J s → J (host.applyVbmetaFlags source s).2
  inspectStopped : ∀ s, J s → J (host.inspectStopped s).2
  planStopped : ∀ s, J s → J (host.planStopped s).2
  repackStopped : ∀ s, J s → J (host.repackStopped s).2
  transferSourceFailed : ∀ s, J s → J (host.transferSourceFailed s).2
  openTarget : ∀ s, J s → J (host.openTarget s).2
  temporaryPath : ∀ s, J s → J (host.temporaryPath s).2
  createSink : ∀ s, J s → J (host.createSink s).2
  sealSink : ∀ size s, J s → J (host.sealSink size s).2
  openFetched : ∀ s, J s → J (host.openFetched s).2

section Commands

variable {σ ε α : Type} {P : String → Prop} {J : σ → Prop} {port : SessionPort σ}
  {context : OperationContext σ} {host : FlashHost σ}

theorem command_keeps {text : String} (h : Keeps J (port.command text))
    (operation : PrimitiveOperation) : Keeps J (PrimitiveService.command port operation text) := by
  refine h.attempt_bind fun outcome => ?_
  cases outcome with
  | error error => exact keeps_get_bind fun s => keeps_throw
  | ok result => exact keeps_throw.ite keeps_pure

theorem parameterCommand_keeps (h : Spares P J port context host)
    (operation : PrimitiveOperation) {verb : String}
    (hverb : ∀ parameter, ¬ IsFlashCommand (verb ++ parameter)) (parameter : String) :
    Keeps J (PrimitiveService.parameterCommand port operation verb parameter) := by
  unfold PrimitiveService.parameterCommand
  cases hvld : PrimitiveService.validatedParameterCommand operation verb parameter with
  | error error => exact keeps_throw
  | ok text =>
      rw [PrimitiveService.validatedParameterCommand_ok hvld]
      exact command_keeps (h.command _ (hverb parameter)) operation

theorem getvar_not_flash (parameter : String) : ¬ IsFlashCommand ("getvar:" ++ parameter) := by
  rw [IsFlashCommand, String.toList_append]
  exact fun h => by cases h

theorem setActive_not_flash (slot : String) : ¬ IsFlashCommand ("set_active:" ++ slot) := by
  rw [IsFlashCommand, String.toList_append]
  exact fun h => by cases h

/-! ### The planner -/

namespace SlotPlanner

section

variable (h : Spares P J port context host)
include h

theorem slotInterruption_keeps (position : String) : Keeps J (slotInterruption context position) :=
  (keeps_step h.stopRequested).bind fun _ => keeps_throw.ite
    ((keeps_step h.deadlineReached).bind fun _ => keeps_throw.ite keeps_pure)

theorem queryVariable_keeps (name : String) : Keeps J (queryVariable port context name) := by
  refine (slotInterruption_keeps h _).bind fun _ => ?_
  refine (parameterCommand_keeps h _ getvar_not_flash _).attempt_bind fun reply => ?_
  refine (slotInterruption_keeps h _).bind fun _ => ?_
  cases reply with
  | error error => exact keeps_throw
  | ok reply => exact keeps_pure

theorem queryOr_keeps (name rejected : String) : Keeps J (queryOr port context name rejected) := by
  refine (queryVariable_keeps h name).attempt_bind fun outcome => ?_
  cases outcome with
  | error error => exact keeps_throw
  | ok reply => exact keeps_pure

theorem queryTopology_keeps : Keeps J (queryTopology port context) := by
  refine (queryVariable_keeps h "slot-count").attempt_bind fun outcome => ?_
  cases outcome with
  | ok reply => exact (keeps_ofOutcome _).bind fun slots => keeps_pure
  | error error =>
      refine Keeps.ite ?_ keeps_throw
      exact (queryOr_keeps h _ _).bind fun reply => (keeps_ofOutcome _).bind fun slots => keeps_pure

theorem queryHasSlot_keeps (partition : String) : Keeps J (queryHasSlot port context partition) :=
  (queryOr_keeps h _ _).bind fun _ => keeps_pure.ite (keeps_pure.ite keeps_throw)

theorem queryCurrentSlot_keeps (topology : SlotTopology) :
    Keeps J (queryCurrentSlot port context topology) :=
  (queryOr_keeps h _ _).bind fun _ => (keeps_ofOutcome _).bind fun _ => keeps_pure.ite keeps_throw

theorem resolveSlots_keeps (topology : SlotTopology) (selection : SlotSelection) (allowAll : Bool) :
    Keeps J (resolveSlots port context topology selection allowAll) := by
  have hcur := queryCurrentSlot_keeps h topology
  cases selection with
  | explicit name => exact keeps_pure.ite keeps_throw
  | all => exact keeps_pure.ite keeps_throw
  | current => exact hcur.bind fun current => keeps_pure
  | other => exact keeps_throw.ite (hcur.bind fun current => keeps_pure)

theorem resolveActiveSlot_keeps (requestedSlot : String) :
    Keeps J (resolveActiveSlot port context requestedSlot) := by
  refine (keeps_ofOutcome _).bind fun selection => keeps_throw.ite ?_
  exact (queryTopology_keeps h).bind fun topology =>
    (resolveSlots_keeps h topology selection false).bind fun slots => keeps_pure

theorem planPartition_keeps (partition requestedSlot : String) :
    Keeps J (planPartition port context partition requestedSlot) := by
  refine keeps_throw.ite ((keeps_ofOutcome _).bind fun selection => ?_)
  refine (queryHasSlot_keeps h partition).bind fun hasSlot => ?_
  refine (keeps_throw.ite keeps_pure).ite ?_
  exact (queryTopology_keeps h).bind fun topology =>
    (resolveSlots_keeps h topology selection true).bind fun slots => keeps_pure

end

end SlotPlanner

end Commands

/-! ### The steps of an operation -/

namespace PublicFlash

variable {σ ε α : Type} {P : String → Prop} {J : σ → Prop} {port : SessionPort σ}
  {context : OperationContext σ} {host : FlashHost σ} {identifier : String}

theorem reporting_keeps {report : ε → OperationErrorPayload} {x : Prog σ ε α} (h : Keeps J x) :
    Keeps J (reporting report x) := by
  refine h.attempt_bind fun outcome => ?_
  cases outcome with
  | ok value => exact keeps_pure
  | error error => exact keeps_throw

theorem stoppable_keeps {stop : σ → Option ε × σ} (h : ∀ s, J s → J (stop s).2)
    (work : Except ε α) : Keeps J (stoppable stop work) := by
  refine (keeps_step h).bind fun stopped => ?_
  cases stopped with
  | none => exact keeps_ofOutcome work
  | some error => exact keeps_throw

theorem calling_keeps {call : σ → Except ε α × σ} (h : ∀ s, J s → J (call s).2) :
    Keeps J (calling call) :=
  (keeps_step h).bind fun outcome => keeps_ofOutcome outcome

section

variable (h : Spares P J port context host)
include h

theorem checkCancelled_keeps (payload : OperationErrorPayload) :
    Keeps J (checkCancelled host payload) :=
  (keeps_step h.cancelRequested).bind fun _ => keeps_throw.ite keeps_pure

theorem checkProgress_keeps (completed total : ℕ) (stage : String)
    (payload : OperationErrorPayload) :
    Keeps J (checkProgress host completed total stage payload) :=
  (keeps_step (h.reportProgress completed total stage)).bind fun _ =>
    keeps_pure.ite keeps_throw

theorem getvar_keeps (key : String) : Keeps J (getvar port identifier key) :=
  reporting_keeps (parameterCommand_keeps h _ getvar_not_flash _)

theorem setActive_keeps (slot : Char) : Keeps J (setActive port identifier slot) :=
  reporting_keeps (parameterCommand_keeps h _ setActive_not_flash _)

theorem queryOptional_keeps (key : String) : Keeps J (queryOptional port identifier key) := by
  refine (parameterCommand_keeps h _ getvar_not_flash _).attempt_bind fun outcome => ?_
  cases outcome with
  | ok reply => exact keeps_pure
  | error error => exact keeps_throw.ite keeps_pure

theorem requestedSlots_keeps (slot : Option String) :
    Keeps J (requestedSlots port context identifier slot) := by
  cases slot with
  | none => exact keeps_pure
  | some slot =>
      refine Keeps.ite ?_ ?_
      · exact (reporting_keeps (SlotPlanner.queryTopology_keeps h)).bind fun _ => keeps_pure
      · exact (reporting_keeps (SlotPlanner.resolveActiveSlot_keeps h slot)).bind fun _ => keeps_pure

theorem activeSlot_keeps (policy : SlotPolicy) :
    Keeps J (activeSlot port context identifier policy) := by
  refine Keeps.ite ?_ (reporting_keeps (SlotPlanner.resolveActiveSlot_keeps h _))
  exact (reporting_keeps (SlotPlanner.queryTopology_keeps h)).bind fun _ => keeps_pure

theorem activeAfterFlash_keeps (policy : SlotPolicy) :
    Keeps J (activeAfterFlash port context identifier policy) := by
  unfold activeAfterFlash
  simp only [map_eq_pure_bind]
  exact ((activeSlot_keeps h policy).bind fun _ => keeps_pure).ite keeps_pure

theorem userspaceReply_keeps (aospRawProfile : Bool) :
    Keeps J (userspaceReply port identifier aospRawProfile) :=
  keeps_pure.ite (queryOptional_keeps h _)

variable (source : ImageSource) (partition : String) (options : FlashOptions)

theorem resolvedPartitions_keeps (aospRawProfile : Bool) (slots : List Char)
    (hasSlot : Option String) :
    Keeps J (resolvedPartitions port identifier partition aospRawProfile slots hasSlot) := by
  refine (keeps_throw.ite keeps_pure).ite (Keeps.ite ?_ keeps_pure)
  exact (getvar_keeps h _).bind fun reply => keeps_throw.ite keeps_pure

theorem resolveTargets_keeps (policy : SlotPolicy) (aospRawProfile : Bool) :
    Keeps J (resolveTargets port context identifier partition policy aospRawProfile) := by
  refine (requestedSlots_keeps h _).bind fun slots => ?_
  refine (activeAfterFlash_keeps h policy).bind fun active => ?_
  refine (userspaceReply_keeps h aospRawProfile).bind fun isUserspace => ?_
  refine (queryOptional_keeps h _).bind fun hasSlot => ?_
  exact (resolvedPartitions_keeps h partition aospRawProfile slots hasSlot).bind fun _ => keeps_pure

theorem guardLogical_keeps (isUserspace : Option String) (force : Bool) :
    Keeps J (guardLogical port identifier partition isUserspace force) :=
  (queryOptional_keeps h _).bind fun _ => keeps_throw.ite keeps_pure

theorem inspectImage_keeps : Keeps J (inspectImage host identifier source) :=
  reporting_keeps (stoppable_keeps h.inspectStopped _)

theorem createPlan_keeps (artifact : FlashArtifact) (maximum limit : ℕ) :
    Keeps J (createPlan host identifier artifact maximum limit) :=
  reporting_keeps (stoppable_keeps h.planStopped _)

theorem createTransferSource_keeps : Keeps J (createTransferSource host identifier source) :=
  reporting_keeps (stoppable_keeps h.transferSourceFailed _)

theorem targetMaxDownloadSize_keeps : Keeps J (targetMaxDownloadSize port identifier) :=
  (queryOptional_keeps h _).bind fun _ => keeps_pure

/-! ### Flashing -/

theorem prepareArtifact_keeps :
    Keeps J (prepareArtifact host identifier source partition options) := by
  have hmutated : Keeps J (mutatedSource host identifier source partition
      options) := (reporting_keeps (calling_keeps (h.applyVbmetaFlags source))).ite keeps_pure
  exact hmutated.bind fun source => (inspectImage_keeps h source).bind fun artifact =>
    keeps_throw.ite keeps_pure

theorem transferSources_keeps (parts : List SparseFlashPart) :
    Keeps J (transferSources host identifier parts) := by
  induction parts with
  | nil => exact keeps_pure
  | cons part rest ih =>
      refine (createTransferSource_keeps h part.source).bind fun source => ?_
      refine (reporting_keeps (keeps_ofOutcome _)).bind fun _ => ?_
      exact ih.bind fun _ => keeps_pure

theorem planFlash_keeps (artifact : FlashArtifact) (targets : FlashTargets)
    (aospRawProfile : Bool) :
    Keeps J (planFlash port host identifier artifact partition targets options aospRawProfile) := by
  have hguard : Keeps J (guardFlash port identifier
      (targets.partitions.headD partition) targets.isUserspace options.force aospRawProfile) :=
    keeps_pure.ite (guardLogical_keeps h _ _ _)
  have hprobe : Keeps J (probePartitionSize port identifier partition
      (targets.partitions.headD partition) options) := by
    refine Keeps.ite ?_ keeps_pure
    exact (queryOptional_keeps h _).bind fun _ => (queryOptional_keeps h _).bind fun _ => keeps_pure
  have hmax : Keeps J (flashMaxDownloadSize port identifier options aospRawProfile) :=
    (targetMaxDownloadSize_keeps h).ite keeps_pure
  refine hguard.bind fun _ => hprobe.bind fun _ => hmax.bind fun maximum => ?_
  refine (createPlan_keeps h artifact maximum _).bind fun plan => ?_
  exact (transferSources_keeps h plan.parts).bind fun sources => keeps_throw.ite keeps_pure

theorem prepareFlash_keeps (policy : SlotPolicy) (aospRawProfile : Bool) :
    Keeps J (prepareFlash port context host identifier source partition options
      policy aospRawProfile) := by
  refine (checkCancelled_keeps h _).bind fun _ => ?_
  refine (prepareArtifact_keeps h source partition options).bind fun artifact => ?_
  refine (reporting_keeps (stoppable_keeps h.openTarget _)).bind fun _ => ?_
  refine (resolveTargets_keeps h partition policy aospRawProfile).bind fun targets => ?_
  refine (planFlash_keeps h partition options artifact targets aospRawProfile).bind fun plan => ?_
  refine (checkCancelled_keeps h _).bind fun _ => ?_
  exact (checkProgress_keeps h _ _ _ _).bind fun _ => keeps_pure

theorem flashParts_keeps {β : Type} {prepare : β → FlashM σ Bytes}
    (hprepare : ∀ part, Keeps J (prepare part)) (hpart : P partition) (total : ℕ) (parts : List β)
    (completed : ℕ) :
    Keeps J (flashParts port identifier prepare partition total parts completed) := by
  induction parts generalizing completed with
  | nil => exact keeps_pure
  | cons part rest ih =>
      refine (hprepare part).bind fun source => Keeps.bind ?_ fun _ => ih _
      refine (h.downloadAndFlashSource partition hpart _).attempt_bind fun outcome => ?_
      cases outcome with
      | ok result => exact keeps_pure
      | error error => exact keeps_throw

theorem flashPartitions_keeps (sources : List Bytes) (total : ℕ) {partitions : List String}
    (hparts : ∀ name ∈ partitions, P name) (completed : ℕ) :
    Keeps J (flashPartitions port identifier sources total partitions completed) := by
  induction partitions generalizing completed with
  | nil => exact keeps_pure
  | cons partition rest ih =>
      obtain ⟨hpart, hrest⟩ := List.forall_mem_cons.mp hparts
      exact (flashParts_keeps h partition (fun _ => keeps_pure) hpart total sources _).bind
        fun completed => ih hrest completed

theorem activate_keeps (active : Option Char) : Keeps J (activate port identifier active) := by
  cases active with
  | none => exact keeps_pure
  | some slot => exact (setActive_keeps h slot).bind fun _ => keeps_pure

/-! ### Repacking -/

theorem querySize_keeps (key : String) (valid : ℕ → Bool) (invalid : String) :
    Keeps J (querySize port identifier key valid invalid) := by
  refine (getvar_keeps h key).bind fun reply => ?_
  cases parseUnsignedVariable reply.terminal.payload with
  | none => exact keeps_throw
  | some size => exact keeps_pure.ite keeps_throw

theorem prepareRepack_keeps (policy : SlotPolicy) :
    Keeps J (prepareRepack port context host identifier partition options policy) := by
  refine (checkCancelled_keeps h _).bind fun _ => ?_
  refine (reporting_keeps (stoppable_keeps h.openTarget _)).bind fun _ => ?_
  refine (queryOptional_keeps h _).bind fun isUserspace => (queryOptional_keeps h _).bind fun _ => ?_
  refine (guardLogical_keeps h partition isUserspace _).bind fun _ => ?_
  have hnames : Keeps J (repackedPartitions port context identifier partition policy.slot) := by
    cases policy.slot with
    | none => exact keeps_pure
    | some slot =>
        refine (reporting_keeps ?_).bind fun plan => keeps_pure
        exact (SlotPlanner.planPartition_keeps h _ slot).bind fun _ => keeps_pure
  have hactivate : Keeps J (activateFirst port context identifier policy) := by
    refine Keeps.ite ?_ keeps_pure
    exact (activeSlot_keeps h policy).bind fun slot => (setActive_keeps h slot).bind fun _ =>
      keeps_pure
  refine hnames.bind fun names => hactivate.bind fun _ => ?_
  exact (querySize_keeps h _ _ _).bind fun _ => keeps_pure

theorem fetchPartition_keeps (maxFetch : ℕ) :
    Keeps J (fetchPartition port host identifier partition maxFetch) := by
  have hloop : ∀ size fuel fetched,
      Keeps J (fetchLoop port host identifier partition maxFetch size fuel fetched) := by
    intro size fuel
    induction fuel with
    | zero => exact fun _ => keeps_pure
    | succ fuel ih =>
        refine fun fetched => Keeps.ite ((checkCancelled_keeps h _).bind fun _ => ?_) keeps_pure
        refine (reporting_keeps ((keeps_ofOutcome _).bind fun text => ?_)).bind fun received =>
          (ih _).ite keeps_throw
        refine (h.receiveToSink text _).attempt_bind fun outcome => ?_
        cases outcome with
        | error error => exact keeps_get_bind fun s => keeps_throw
        | ok result => exact keeps_throw.ite keeps_pure
  refine (querySize_keeps h _ _ _).bind fun size => ?_
  refine (reporting_keeps (stoppable_keeps h.temporaryPath _)).bind fun _ => ?_
  refine (reporting_keeps (stoppable_keeps h.createSink _)).bind fun _ => ?_
  refine (checkProgress_keeps h _ _ _ _).bind fun _ => (hloop _ _ _).bind fun _ => ?_
  refine (reporting_keeps (stoppable_keeps (h.sealSink size) _)).bind fun _ => ?_
  exact (reporting_keeps (calling_keeps h.openFetched)).bind fun _ => keeps_pure

theorem prepareVendorBoot_keeps (maxFetch : ℕ) (newRamdisk : ImageSource)
    (newDtb : Option ImageSource) (ramdiskName : Bytes) :
    Keeps J (prepareVendorBoot port host identifier partition maxFetch newRamdisk newDtb
      ramdiskName options) := by
  refine (fetchPartition_keeps h partition maxFetch).bind fun (_, _) => ?_
  refine (checkCancelled_keeps h _).bind fun _ => (checkProgress_keeps h _ _ _ _).bind fun _ => ?_
  refine Keeps.bind ?_ fun repacked => (targetMaxDownloadSize_keeps h).bind fun maximum => ?_
  · exact (reporting_keeps (stoppable_keeps h.repackStopped _)).bind fun _ => keeps_pure
  refine (inspectImage_keeps h repacked).bind fun artifact => ?_
  refine (createPlan_keeps h artifact maximum _).bind fun plan => ?_
  refine (checkCancelled_keeps h _).bind fun _ => ?_
  exact (checkProgress_keeps h _ _ _ _).bind fun _ => keeps_pure

theorem repackPartitions_keeps (maxFetch : ℕ) (newRamdisk : ImageSource)
    (newDtb : Option ImageSource) (ramdiskName : Bytes) {partitions : List String}
    (hparts : ∀ name ∈ partitions, P name) :
    Keeps J (repackPartitions port host identifier maxFetch newRamdisk newDtb ramdiskName options
      partitions) := by
  induction partitions with
  | nil => exact keeps_pure
  | cons partition rest ih =>
      obtain ⟨hpart, hrest⟩ := List.forall_mem_cons.mp hparts
      have hsource : ∀ part : SparseFlashPart, Keeps J (createTransferSource host identifier
          part.source) := fun part => createTransferSource_keeps h part.source
      have hpartition : Keeps J (repackPartition port host identifier partition maxFetch newRamdisk
          newDtb ramdiskName options) :=
        (prepareVendorBoot_keeps h partition options maxFetch newRamdisk newDtb ramdiskName).bind
          fun plan => (flashParts_keeps h partition hsource hpart _ plan.parts 0).bind
            fun _ => keeps_pure
      exact hpartition.bind fun _ => ih hrest

end

end PublicFlash

end KairosBoot
