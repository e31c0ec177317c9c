import KairosBoot.PublicFlash
import KairosBoot.SlotAgreement

/-! # The slots of a flash and the slots of a plan

`start_flash_source_async` resolves slots on its own, next to `plan_partition_slots`, which the
other operations use.  On a device that answers by a fixed table both are decided by the table
(`resolveTargets_decides`, `planPartitionSlots_decides`).  The flash asks `has-slot` for the whole
partition argument and the plan for the part before the colon, so they agree exactly if the table
says the same about the two (`flash_names_eq_planned_iff`). -/

namespace KairosBoot

open Outcomes SlotPlanner

/-- The slots that a request means on the device. -/
def ReplyTable.slotsRequested (table : ReplyTable) (request : String) : Option (List Char) :=
  (SlotPlanner.parseSlotSelection request).toOption.bind fun selection =>
    table.slotsReported.bind fun slots => table.slotsSelected slots true selection

def slottedNames (partition : String) (slots : List Char) : List String :=
  slots.map fun slot => SlotPlanner.slottedName (baseName partition) slot ++ nameSuffix partition

section Requests

variable {table : ReplyTable} {request : String}

variable {selection : SlotSelection} {slots : List Char}

theorem parseSlotSelection_all (h : parseSlotSelection request = .ok selection) :
    selection = .all ↔ request = "all" := by
  unfold parseSlotSelection at h
  split_ifs at h with hemp hoth hall
  · cases h
    simp [hemp]
  · cases h
    simp [hoth]
  · cases h
    simp [hall]
  · cases hlet : normalizeSlotName request.toList .invalidArgument "Requested Fastboot slot" with
    | error error =>
        rw [hlet] at h
        cases h
    | ok letter =>
        rw [hlet] at h
        cases h
        simp [hall]

theorem parseSlotSelection_ne_current (hreq : request ≠ "")
    (h : parseSlotSelection request = .ok selection) : selection ≠ .current := by
  unfold parseSlotSelection at h
  rw [if_neg hreq] at h
  split_ifs at h
  · cases h
    decide
  · cases h
    decide
  · cases hlet : normalizeSlotName request.toList .invalidArgument "Requested Fastboot slot" with
    | error error =>
        rw [hlet] at h
        cases h
    | ok letter =>
        rw [hlet] at h
        cases h
        intro hcur
        cases hcur

/-- A request that is not for all slots means one of them. -/
theorem slotsSelected_single {selected : List Char} {allowAll : Bool} (hall : selection ≠ .all)
    (h : table.slotsSelected slots allowAll selection = some selected) :
    ∃ slot, selected = [slot] := by
  cases selection with
  | all => exact absurd rfl hall
  | explicit name =>
      simp only [ReplyTable.slotsSelected] at h
      split_ifs at h
      exact ⟨name, (Option.some.inj h).symm⟩
  | current =>
      obtain ⟨current, -, rfl⟩ := Option.map_eq_some_iff.mp h
      exact ⟨current, rfl⟩
  | other =>
      simp only [ReplyTable.slotsSelected] at h
      split_ifs at h
      obtain ⟨current, -, rfl⟩ := Option.map_eq_some_iff.mp h
      exact ⟨_, rfl⟩

theorem slotsSelected_allowAll (hall : selection ≠ .all) :
    table.slotsSelected slots false selection = table.slotsSelected slots true selection := by
  cases selection with
  | all => exact absurd rfl hall
  | explicit name => rfl
  | current => rfl
  | other => rfl

theorem slotsRequested_length (h : table.slotsRequested request = some slots) :
    0 < slots.length ∧ slots.length ≤ 26 := by
  obtain ⟨selection, -, h⟩ := Option.bind_eq_some_iff.mp h
  obtain ⟨reported, hrep, h⟩ := Option.bind_eq_some_iff.mp h
  by_cases hall : selection = .all
  · subst hall
    obtain rfl : reported = slots := Option.some.inj h
    exact (slotsReported_spec hrep).2.2
  · obtain ⟨slot, rfl⟩ := slotsSelected_single hall h
    simp

theorem slotsRequested_single (hall : request ≠ "all") :
    ((parseSlotSelection request).toOption.bind fun selection =>
      if selection = .all then none
      else table.slotsReported.bind fun slots =>
        (table.slotsSelected slots false selection).map fun selected => selected.headD 'a').map
      (fun slot => [slot]) = table.slotsRequested request := by
  unfold ReplyTable.slotsRequested
  cases hparse : parseSlotSelection request with
  | error error => rfl
  | ok selection =>
      have hne : selection ≠ .all := fun h => hall ((parseSlotSelection_all hparse).mp h)
      simp only [Except.toOption, Option.bind_some, if_neg hne]
      cases table.slotsReported with
      | none => rfl
      | some slots =>
          rw [Option.bind_some, Option.bind_some, slotsSelected_allowAll hne]
          cases hsel : table.slotsSelected slots true selection with
          | none => rfl
          | some selected =>
              obtain ⟨slot, rfl⟩ := slotsSelected_single hne hsel
              rfl

theorem hasSlotReported_eq_true {partition : String} :
    table.hasSlotReported partition = some true ↔
      table.value ("has-slot:" ++ partition) = some "yes" := by
  unfold ReplyTable.hasSlotReported
  cases table.value ("has-slot:" ++ partition) with
  | none => simp
  | some payload =>
      simp only [Option.bind_some, Option.some.injEq]
      split_ifs with hyes hno
      · simp [hyes]
      · simp [hno]
      · simp [hyes]

end Requests

/-! ### What a flash resolves to -/

namespace ReplyTable

/-- The value of an optional variable, if the query can be sent. -/
def optional (table : ReplyTable) (key : String) : Option (Option String) :=
  (table.ask key).map fun _ => table.value key

def policySlots (table : ReplyTable) : Option String → Option (List Char)
  | none => some []
  | some request => table.slotsRequested request

/-- The slot that a flash makes active in the end. -/
def activeReported (table : ReplyTable) (policy : SlotPolicy) : Option (Option Char) :=
  if policy.setActive then
    (table.slotsRequested ((policy.activeSlot.or policy.slot).getD "")).map fun slots =>
      some (slots.headD 'a')
  else some none

/-- The names of a partition, of which the reply to `has-slot` is known. -/
def namesReported (table : ReplyTable) (partition : String) (aospRawProfile : Bool)
    (slots : List Char) (hasSlot : Option String) : Option (List String) :=
  if slots ≠ [] then if hasSlot ≠ some "yes" then none else some (slottedNames partition slots)
  else if aospRawProfile = true ∧ hasSlot = some "yes" then
    (table.value "current-slot").bind fun payload =>
      let slot := if payload.toList.head? = some '_' then payload.toList.tail else payload.toList
      if slot.length = 0 then none else some [partition ++ "_" ++ String.ofList slot]
  else some [partition]

def targetsReported (table : ReplyTable) (partition : String) (policy : SlotPolicy)
    (aospRawProfile : Bool) : Option FlashTargets :=
  (table.policySlots policy.slot).bind fun slots => (table.activeReported policy).bind fun active =>
    (if aospRawProfile then some none else table.optional "is-userspace").bind fun isUserspace =>
      (table.optional ("has-slot:" ++ partition)).bind fun hasSlot =>
        (table.namesReported partition aospRawProfile slots hasSlot).map fun names =>
          ⟨names, active, isUserspace⟩

def repackNames (table : ReplyTable) (partition : String) : Option String → Option (List String)
  | none => some [partition]
  | some request => (SlotPlanner.planReported table (baseName partition) request).map fun plan =>
      plan.partitionNames.map (· ++ nameSuffix partition)

theorem optional_eq_some {table : ReplyTable} {key : String} {value : Option String}
    (h : table.optional key = some value) : value = table.value key ∧
      (table.ask key).isSome := by
  obtain ⟨reply, hask, rfl⟩ := Option.map_eq_some_iff.mp h
  exact ⟨rfl, by rw [hask]; rfl⟩

end ReplyTable

section Agreement

variable {σ ε α : Type} {port : SessionPort σ} {context : OperationContext σ} {table : ReplyTable}
  {partition request : String} {c : Prop}

theorem targetsReported_length {policy : SlotPolicy} {aospRawProfile : Bool}
    {targets : FlashTargets}
    (h : table.targetsReported partition policy aospRawProfile = some targets) :
    targets.partitions.length ≤ 26 := by
  simp only [ReplyTable.targetsReported, Option.bind_eq_some_iff, Option.map_eq_some_iff] at h
  obtain ⟨slots, hslots, _, -, _, -, hasSlot, -, names, hnames, rfl⟩ := h
  unfold ReplyTable.namesReported at hnames
  split_ifs at hnames with hne hyes hraw
  · cases hnames
    rw [slottedNames, List.length_map]
    cases hslot : policy.slot with
    | none =>
        rw [hslot] at hslots
        exact absurd (Option.some.inj hslots).symm hne
    | some request =>
        rw [hslot] at hslots
        exact (slotsRequested_length hslots).2
  · obtain ⟨payload, -, hnames⟩ := Option.bind_eq_some_iff.mp hnames
    simp only at hnames
    split_ifs at hnames <;>
    · cases hnames
      simp
  · cases hnames
    simp

namespace PublicFlash

theorem reporting_decides {report : ε → OperationErrorPayload} {x : Prog σ ε α} {v : Option α}
    (h : Fixed c x v) : Fixed c (reporting report x) v := by
  intro s _
  obtain ⟨hval, hok⟩ := h s trivial
  unfold reporting
  rw [exec_attempt_bind]
  rcases hout : (exec x s).1 with error | value
  · rw [hout] at hval
    exact ⟨hval, fun _ herr => by cases herr⟩
  · rw [hout] at hval
    refine ⟨hval, fun _ hret => ?_⟩
    cases hret
    exact ⟨(hok _ hout).1, trivial⟩

variable (h : Replies c port context table) (identifier : String)
include h

/-- A query for an optional variable fails only if it is not answered. -/
theorem queryOptional_decides (key : String) :
    Fixed c (queryOptional port identifier key) (table.optional key) := by
  refine Decides.attempt_bind (J := fun _ => True)
    (R := fun r => Reported (table.ask key) r ∨ ¬ c ∧ Reported none r)
    (fun s _ => ⟨getvar_reported h key s, trivial⟩) fun outcome hout => ?_
  rcases hout with hout | ⟨hc, error, rfl, hcode⟩
  · unfold ReplyTable.optional ReplyTable.value
    rcases hask : table.ask key with _ | payload | message <;> rw [hask] at hout
    · obtain ⟨error, rfl, hcode⟩ := hout
      simp only [ne_eq, hcode, not_false_eq_true, if_true]
      exact decides_throw
    · obtain ⟨reply, rfl, -, rfl⟩ := hout
      exact decides_pure
    · obtain ⟨error, rfl, hcode⟩ := hout
      simp only [ne_eq, hcode, not_true_eq_false, if_false]
      exact decides_pure
  · simp only [ne_eq, hcode, not_false_eq_true, if_true]
    exact decides_fail hc

theorem getvar_bind_decides {f : PrimitiveReply → FlashM σ α} {v : String → Option α} (key : String)
    (hf : ∀ reply, Fixed c (f reply) (v reply.terminal.payload)) :
    Fixed c (getvar port identifier key >>= f) ((table.value key).bind v) := by
  refine valueReported_bind_decides (fun s => ?_) hf
  unfold getvar reporting ReplyTable.value
  rw [exec_attempt_bind]
  rcases getvar_reported h key s with hrep | ⟨hc, error, herr, -⟩
  · left
    rcases hask : table.ask key with _ | payload | message <;> rw [hask] at hrep
    · obtain ⟨error, herr, -⟩ := hrep
      rw [herr]
      exact ⟨_, rfl⟩
    · obtain ⟨reply, hrpl, -, hpay⟩ := hrep
      rw [hrpl]
      exact ⟨reply, rfl, hpay⟩
    · obtain ⟨error, herr, -⟩ := hrep
      rw [herr]
      exact ⟨_, rfl⟩
  · rw [herr]
    exact .inr ⟨hc, _, rfl⟩

theorem requestedSlots_decides (slot : Option String) :
    Fixed c (requestedSlots port context identifier slot) (table.policySlots slot) := by
  cases slot with
  | none => exact decides_pure
  | some request =>
      simp only [requestedSlots, ReplyTable.policySlots]
      split_ifs with hall
      · have hrep : table.slotsRequested request =
            (topologyReported table).bind fun topology => some topology.slots := by
          have hslots : table.slotsRequested "all" = table.slotsReported := Option.bind_fun_some _
          rw [hall, hslots, ← topologyReported_slots]
          exact Option.map_eq_bind
        rw [hrep]
        exact (reporting_decides (queryTopology_decides h)).bind fun topology _ => decides_pure
      · rw [← slotsRequested_single hall, Option.map_eq_bind]
        exact (reporting_decides (resolveActiveSlot_decides h request)).bind
          fun slot _ => decides_pure

/-- The slot that is set active is the first one that a policy for it asks for. -/
theorem activeSlot_decides (policy : SlotPolicy) :
    Fixed c (activeSlot port context identifier policy)
      ((table.slotsRequested ((policy.activeSlot.or policy.slot).getD "")).bind fun slots =>
        some (slots.headD 'a')) := by
  simp only [activeSlot]
  generalize (policy.activeSlot.or policy.slot).getD "" = requested
  have hslots := (requestedSlots_decides h identifier (some requested)).bind
    fun slots _ => decides_pure (a := slots.headD 'a')
  simp only [requestedSlots, ReplyTable.policySlots] at hslots
  by_cases hall : requested = "all"
  · rw [if_pos hall] at hslots ⊢
    simpa only [bind_assoc, pure_bind] using hslots
  · rw [if_neg hall] at hslots ⊢
    simpa only [bind_assoc, pure_bind, List.headD_cons, bind_pure] using hslots

theorem activeAfterFlash_decides (policy : SlotPolicy) :
    Fixed c (activeAfterFlash port context identifier policy) (table.activeReported policy) := by
  unfold activeAfterFlash ReplyTable.activeReported
  split_ifs
  · have hactive := (activeSlot_decides h identifier policy).bind
      fun slot _ => decides_pure (a := some slot)
    simpa only [map_eq_pure_bind, Option.bind_assoc, Option.bind_some, Option.map_eq_bind,
      Function.comp_def] using hactive
  · exact decides_pure

theorem resolvedPartitions_decides (partition : String) (aospRawProfile : Bool)
    (slots : List Char) (hasSlot : Option String) :
    Fixed c (resolvedPartitions port identifier partition aospRawProfile slots hasSlot)
      (table.namesReported partition aospRawProfile slots hasSlot) := by
  unfold resolvedPartitions ReplyTable.namesReported
  split_ifs
  · exact decides_throw
  · exact decides_pure
  · refine getvar_bind_decides h identifier "current-slot" fun reply => ?_
    simp only
    generalize (if reply.terminal.payload.toList.head? = some '_' then _ else _) = slot
    split_ifs
    · exact decides_throw
    · exact decides_pure
  · exact decides_pure

theorem resolveTargets_decides (partition : String) (policy : SlotPolicy) (aospRawProfile : Bool) :
    Fixed c (resolveTargets port context identifier partition policy aospRawProfile)
      (table.targetsReported partition policy aospRawProfile) := by
  refine (requestedSlots_decides h identifier policy.slot).bind fun slots _ => ?_
  refine (activeAfterFlash_decides h identifier policy).bind fun active _ => ?_
  have huserspace : Fixed c (userspaceReply port identifier aospRawProfile)
      (if aospRawProfile then some none else table.optional "is-userspace") := by
    unfold userspaceReply
    split_ifs
    · exact decides_pure
    · exact queryOptional_decides h identifier _
  refine huserspace.bind fun isUserspace _ => ?_
  refine (queryOptional_decides h identifier _).bind fun hasSlot _ => ?_
  rw [Option.map_eq_bind]
  exact (resolvedPartitions_decides h identifier partition aospRawProfile slots hasSlot).bind
    fun names _ => decides_pure

theorem repackedPartitions_decides (partition : String) (slot : Option String) :
    Fixed c (repackedPartitions port context identifier partition slot)
      (table.repackNames partition slot) := by
  cases slot with
  | none => exact decides_pure
  | some request =>
      have hplan : Fixed c (planPartitionSlots port context partition request) _ :=
        (planPartition_decides h (baseName partition) request).bind fun plan _ => decides_pure
      have hnames : Fixed c (repackedPartitions port context identifier partition (some request)) _ :=
        (reporting_decides hplan).bind fun plan _ => decides_pure
      rw [ReplyTable.repackNames, Option.map_eq_bind]
      rwa [Option.bind_assoc] at hnames

end PublicFlash

/-- The names of a flash for an explicit slot request. -/
theorem targetsReported_explicit :
    (table.targetsReported partition { slot := some request } false).map FlashTargets.partitions
      = (table.slotsRequested request).bind fun slots =>
          if table.value ("has-slot:" ++ partition) = some "yes" then
            some (slottedNames partition slots)
          else none := by
  change ((table.slotsRequested request).bind fun slots => _).map _ = _
  cases hslots : table.slotsRequested request with
  | none => rfl
  | some slots =>
      have hne : slots ≠ [] := List.ne_nil_of_length_pos (slotsRequested_length hslots).1
      have huserspace : table.optional "is-userspace" = some (table.value "is-userspace") := rfl
      simp only [Option.bind_some, ReplyTable.activeReported, huserspace, Bool.false_eq_true,
        if_false]
      cases hask : table.ask ("has-slot:" ++ partition) with
      | none => simp [ReplyTable.optional, ReplyTable.value, hask]
      | some reply =>
          simp only [ReplyTable.optional, hask, Option.map_some, Option.bind_some,
            ReplyTable.namesReported, if_pos hne, ne_eq, ite_not]
          split_ifs <;> rfl

theorem planPartitionSlots_decides (hport : AnswersFrom port table) (hctx : Undisturbed context)
    (hbase : PrimitiveService.isValidPartitionName (baseName partition) = true)
    (hreq : request ≠ "") (s : σ) :
    (exec (planPartitionSlots port context partition request) s).1.toOption.map
        PartitionSlotPlan.partitionNames
      = if table.value ("has-slot:" ++ baseName partition) = some "yes" then
          (table.slotsRequested request).map (slottedNames partition)
        else none := by
  have hdec := (planPartition_decides (hport.replies hctx) (baseName partition)
    request).bind fun plan _ => decides_pure (I := fun _ => True)
      (a := { plan with partitionNames := plan.partitionNames.map (· ++ nameSuffix partition) })
  have hplanned : (exec (planPartitionSlots port context partition request) s).1.toOption
      = _ := (hdec s trivial).1 trivial
  rw [hplanned]
  unfold planReported ReplyTable.slotsRequested
  rw [if_neg (by rw [hbase]; decide)]
  cases hparse : parseSlotSelection request with
  | error error =>
      simp [Except.toOption]
  | ok selection =>
      have hcur := parseSlotSelection_ne_current hreq hparse
      simp only [Except.toOption, Option.bind_some]
      by_cases hyes : table.value ("has-slot:" ++ baseName partition) = some "yes"
      · rw [if_pos hyes, hasSlotReported_eq_true.mpr hyes, Option.bind_some, if_neg (by decide)]
        cases table.slotsReported with
        | none => rfl
        | some slots =>
            simp only [Option.bind_some]
            cases table.slotsSelected slots true selection with
            | none => rfl
            | some selected => simp [slottedPlan, slottedNames]
      · rw [if_neg hyes]
        have hrep : table.hasSlotReported (baseName partition) ≠ some true :=
          mt hasSlotReported_eq_true.mp hyes
        cases hhas : table.hasSlotReported (baseName partition) with
        | none => rfl
        | some hasSlot =>
            rw [hhas] at hrep
            obtain rfl : hasSlot = false := by simpa using hrep
            rw [Option.bind_some, if_pos rfl, if_pos hcur]
            rfl

/-- On a device that answers by a table, a flash and a plan for the same explicit slot request
resolve to the same names, or are both refused, exactly if the request means some slots of the
device only when the table says the same about `has-slot` of the whole argument and of its part
before the colon. -/
theorem flash_names_eq_planned_iff (hport : AnswersFrom port table) (hcontext : Undisturbed context)
    (hbase : PrimitiveService.isValidPartitionName (baseName partition) = true)
    (hrequest : request ≠ "") (identifier : String) (run s : σ) :
    (exec (PublicFlash.resolveTargets port context identifier partition { slot := some request }
        false) run).1.toOption.map FlashTargets.partitions
      = (exec (planPartitionSlots port context partition request) s).1.toOption.map
          PartitionSlotPlan.partitionNames
    ↔ ((table.slotsRequested request).isSome →
        (table.value ("has-slot:" ++ partition) = some "yes" ↔
          table.value ("has-slot:" ++ baseName partition) = some "yes")) := by
  have hflash := (PublicFlash.resolveTargets_decides (hport.replies hcontext) identifier partition
    { slot := some request } false run trivial).1 trivial
  rw [hflash, targetsReported_explicit, planPartitionSlots_decides hport hcontext hbase hrequest s]
  cases table.slotsRequested request with
  | none => simp
  | some slots =>
      rw [Option.bind_some, Option.map_some]
      split_ifs with hfull hwhole hwhole <;> simp [hfull, hwhole]

end Agreement

/-! ### A partition with a suffix -/

/-- A device that knows the slots of `boot` but no variable of `boot:part`. -/
def suffixTable : ReplyTable := fun key =>
  if key = "has-slot:boot" then .okay "yes"
  else if key = "slot-count" then .okay "2"
  else .fail "unknown variable"

/-- The plan of `boot:part` for slot `b` is `boot_b:part`, and the flash refuses it. -/
theorem suffixTable_flash_refused :
    (exec (PublicFlash.resolveTargets (tablePort suffixTable) (quietContext Unit) "device"
        "boot:part" { slot := some "b" } false) ()).1.toOption = none ∧
      (exec (planPartitionSlots (tablePort suffixTable) (quietContext Unit) "boot:part" "b")
        ()).1.toOption.map PartitionSlotPlan.partitionNames = some ["boot_b:part"] := by
  decide +kernel

/-- Without a suffix the two agree. -/
theorem suffixTable_flash_agrees :
    (exec (PublicFlash.resolveTargets (tablePort suffixTable) (quietContext Unit) "device"
        "boot" { slot := some "b" } false) ()).1.toOption.map FlashTargets.partitions
      = (exec (planPartitionSlots (tablePort suffixTable) (quietContext Unit) "boot" "b")
        ()).1.toOption.map PartitionSlotPlan.partitionNames :=
  (flash_names_eq_planned_iff (tablePort_answers suffixTable) (quietContext_undisturbed Unit)
    (by decide +kernel) (by decide) "device" () ()).mpr fun _ => Iff.rfl

end KairosBoot
