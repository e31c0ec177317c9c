import Mathlib.Tactic.Linarith
import Mathlib.Data.List.Infix
import KairosBoot.SchedulerAccounts

/-! # Weighted fairness

Flows without providers on one controller, every grant of which is finished before the next call.
As long as all of them have bytes remaining, a call looks at one flow only, the one at the cursor
(`Ring.call`).  A turn of a flow gives it its share, the quantum times its weight, in as many grants
as the budget and the callers allow, so every flow has been served a number of full turns, the
same for all of them up to the turn that the cursor is in (`Fair`).  Served bytes by weight are
therefore apart by at most the quantum (`weighted_fairness`). -/

namespace KairosBoot.WeightedControllerScheduler

open List

variable {s : WeightedControllerScheduler} {flow : Flow} {cursor : ℕ}

/-! ### Runs -/

/-- A call of `next` with the budget that it finds; its grant is finished as fully transferred. -/
def serve (s : WeightedControllerScheduler) (call : BufferBudget × UInt64) :
    Option Grant × WeightedControllerScheduler :=
  let granted := { s with budget := call.1 }.next call.2
  match granted.1 with
  | none => (none, granted.2)
  | some grant =>
      let dispatch : FleetDispatch :=
        { token := grant.token, deviceId := grant.deviceId, controllerId := grant.controllerId,
          bytes := grant.bytes, memory := grant.memory }
      (some grant, (Fleet.finish dispatch .fullyTransferred granted.2).2)

/-- The grants of a sequence of calls, and the scheduler after them. -/
def serveAll (s : WeightedControllerScheduler) (calls : List (BufferBudget × UInt64)) :
    List Grant × WeightedControllerScheduler :=
  calls.foldl (fun run call =>
    (run.1 ++ (serve run.2 call).1.toList, (serve run.2 call).2)) ([], s)

def served (deviceId : String) (grants : List Grant) : ℕ :=
  (grants.map fun grant => if grant.deviceId = deviceId then grant.bytes.toNat else 0).sum

/-- A scheduler to which these flows have been added. -/
def withFlows (hasBudget : Bool) (quantum limit : UInt64) (specs : List DeviceFlowSpec) :
    WeightedControllerScheduler :=
  specs.foldl (fun s spec => (s.addFlow spec).2) (Fleet.new hasBudget quantum limit).scheduler

/-! ### Rings -/

/-- A flow without a provider or a grant, whose share is a 64-bit number. -/
structure Plain (quantum : UInt64) (flow : Flow) : Prop where
  unretired : flow.retired = false
  unattached : flow.providerAttached = false
  idle : flow.outstandingCount = 0
  allowed : flow.maxOutstanding ≠ 0
  weight_ne : flow.weight ≠ 0
  share_lt : quantum.toNat * flow.weight.toNat < 2 ^ 64

/-- A scheduler with one controller, whose ring has all flows, and without grants. -/
structure Ring (s : WeightedControllerScheduler) (cursor : ℕ) : Prop where
  controllers : ∃ id, s.controllerOrder = [id] ∧
    s.controllers = [⟨id, s.flows.map Flow.deviceId, cursor⟩]
  hasBudget : s.hasBudget = true
  quantum_ne : s.quantum ≠ 0
  cursor_lt : cursor < s.flows.length
  nodup : (s.flows.map Flow.deviceId).Nodup
  outstanding : s.outstanding = []
  plain : ∀ flow ∈ s.flows, Plain s.quantum flow

/-- What a turn gives to a flow. -/
def share (quantum : UInt64) (flow : Flow) : ℕ := quantum.toNat * flow.weight.toNat

variable {quantum maximumBytes : UInt64} {controller : Controller}

theorem toNat_saturatingMultiply {weight : UInt32} (h : quantum.toNat * weight.toNat < 2 ^ 64) :
    (saturatingMultiply quantum weight).toNat = quantum.toNat * weight.toNat := by
  unfold saturatingMultiply
  rw [if_neg, UInt64.toNat_mul, UInt32.toNat_toUInt64, Nat.mod_eq_of_lt h]
  rintro ⟨hwt, hlt⟩
  have hpos : 0 < weight.toNat := Nat.pos_of_ne_zero fun hzero => hwt (UInt32.toNat_inj.mp hzero)
  rw [UInt64.lt_iff_toNat_lt, UInt64.toNat_div, Nat.div_lt_iff_lt_mul
    (by rwa [UInt32.toNat_toUInt64]), UInt32.toNat_toUInt64] at hlt
  have hmax : maximumWord.toNat = 18446744073709551615 := rfl
  omega

/-- The deficit for a turn is the share, or what is left of it. -/
theorem toNat_turnDeficit (h : Plain quantum flow) :
    (turnDeficit quantum flow).toNat
      = if flow.deficit = 0 then share quantum flow else flow.deficit.toNat := by
  unfold turnDeficit
  split_ifs with hzero
  · have hshare := toNat_saturatingMultiply h.share_lt
    have hlt := h.share_lt
    rw [hzero, toNat_saturatingAdd (by rw [hshare]; exact (zero_add _).trans_lt hlt), hshare]
    exact zero_add _
  · rfl

theorem turnDeficit_ne_zero (h : Plain quantum flow) (hquantum : quantum ≠ 0) :
    turnDeficit quantum flow ≠ 0 := by
  intro hzero
  have hnat := toNat_turnDeficit h
  rw [hzero] at hnat
  split_ifs at hnat with hdef
  · rcases Nat.mul_eq_zero.mp hnat.symm with hq | hw
    · exact hquantum (UInt64.toNat_inj.mp hq)
    · exact h.weight_ne (UInt32.toNat_inj.mp hw)
  · exact hdef (UInt64.toNat_inj.mp hnat.symm)

theorem updateFlow_updateFlow {deviceId : String} {f g : Flow → Flow}
    (hid : ∀ flow, (f flow).deviceId = flow.deviceId) :
    (s.updateFlow deviceId f).updateFlow deviceId g = s.updateFlow deviceId (g ∘ f) := by
  simp only [updateFlow, map_map]
  congr 1
  refine map_congr_left fun flow _ => ?_
  by_cases heq : flow.deviceId = deviceId
  · simp [heq, hid]
  · simp [heq]

theorem findFlow_updateFlow {deviceId : String} {f : Flow → Flow}
    (hid : ∀ flow, (f flow).deviceId = flow.deviceId) (hfind : s.findFlow deviceId = some flow) :
    (s.updateFlow deviceId f).findFlow deviceId = some (f flow) := by
  have hsame : (fun flow : Flow => decide (flow.deviceId = deviceId)) ∘
      (fun flow => if flow.deviceId = deviceId then f flow else flow)
      = fun flow : Flow => decide (flow.deviceId = deviceId) := by
    funext flow
    by_cases heq : flow.deviceId = deviceId
    · simp [heq, hid]
    · simp [heq]
  have hmem := (findFlow_eq_some hfind).2
  unfold findFlow at hfind
  rw [findFlow, updateFlow, find?_map, hsame, hfind, Option.map_some, if_pos hmem]

/-- A property of the elements that the new one shares with the old one. -/
theorem map_set_of_eq {α β : Type} {l : List α} {i : ℕ} {a b : α} {f : α → β}
    (hget : l[i]? = some a) (heq : f b = f a) : (l.set i b).map f = l.map f := by
  obtain ⟨hlt, rfl⟩ := List.getElem?_eq_some_iff.mp hget
  have hmap : f (l.get ⟨i, hlt⟩) = (l.map f).get ⟨i, by rwa [length_map]⟩ := by simp
  rw [map_set, heq]
  refine (congrArg _ hmap).trans (set_getElem_self _)

/-! ### One call -/

def setDeficit (deficit : UInt64) (flow : Flow) : Flow := { flow with deficit := deficit }

theorem smaller_ne_zero {left right : UInt64} (hleft : left ≠ 0) (hright : right ≠ 0) :
    smaller left right ≠ 0 := by
  unfold smaller
  split_ifs
  · exact hright
  · exact hleft

/-- The scheduler after a grant out of the deficit for the turn of its flow. -/
def charged (s : WeightedControllerScheduler) (flow : Flow) (grant : Grant) (budget : BufferBudget)
    (nextToken : UInt64) : WeightedControllerScheduler :=
  (s.updateFlow flow.deviceId (setDeficit (turnDeficit s.quantum flow))).commitGrant grant budget
    nextToken

theorem attempt_plain (hplain : Plain s.quantum flow) (hq : s.quantum ≠ 0)
    (hrem : flow.remaining ≠ 0) :
    (∃ f, attempt maximumBytes "" flow s = (.refused, s.updateFlow flow.deviceId f) ∧
      (f = id ∨ f = setDeficit (turnDeficit s.quantum flow))) ∨
    ∃ grant budget nextToken, attempt maximumBytes "" flow s
        = (.granted grant (flow.remaining - grant.bytes = 0 ∨
            turnDeficit s.quantum flow - grant.bytes = 0),
          charged s flow grant budget nextToken) ∧
      grant.token ≠ 0 ∧ grant.deviceId = flow.deviceId ∧
      grant.bytes ≤ turnDeficit s.quantum flow := by
  have hblkd : blocked flow = false := by
    have hcnt : ¬ flow.maxOutstanding ≤ 0 := fun h => hplain.allowed (UInt64.le_zero_iff.mp h)
    simp [blocked, hrem, hplain.unretired, hplain.unattached, hplain.idle, hcnt]
  have hid : s.updateFlow flow.deviceId id = s := by
    simp [updateFlow]
  unfold attempt
  rw [if_neg (by simp [hblkd]), if_neg (by simp)]
  simp only []
  split_ifs with hdes hbytes
  · exact .inl ⟨id, by rw [hid], .inl rfl⟩
  · exact absurd hbytes (smaller_ne_zero (turnDeficit_ne_zero hplain hq) hdes)
  · split
    next budget token nextToken hbud htok =>
      refine .inr ⟨_, budget, nextToken, rfl, ?_, rfl, ?_⟩
      · exact (allocateToken_spec htok).1
      · exact UInt64.le_iff_toNat_le.mpr (smaller_le_left _ _)
    next => exact .inl ⟨_, rfl, .inr rfl⟩

theorem next_eq (hbud : s.hasBudget = true) (hmax : maximumBytes ≠ 0)
    (horder : s.controllerOrder = [controller.id]) (hctrls : s.controllers = [controller])
    {outcome : Option Grant} {s' : WeightedControllerScheduler}
    (h : nextForController controller maximumBytes "" { s with controllerCursor := 0 }
      = (outcome, s')) : s.next maximumBytes = (outcome, s') := by
  have hcurs : (if s.controllerOrder.length ≤ s.controllerCursor then 0
      else s.controllerCursor) = 0 := by
    rw [horder, length_singleton]
    split_ifs <;> omega
  have hfind : (s.controllerOrder[0]?).bind (findController · { s with controllerCursor := 0 })
      = some controller := by
    rw [horder]
    simp [findController, hctrls]
  have hone : (0 + 1) % s.controllerOrder.length = 0 := by rw [horder, length_singleton]
  rw [next, if_neg (by simp [hbud, hmax, horder]), horder, length_singleton, nextLoop]
  simp only [hcurs, hone, hfind, h]
  cases outcome <;> rfl

/-- The loop ends with the first flow that is not skipped. -/
theorem attempts_first {count : ℕ} (hcurs : controller.cursor < controller.flows.length)
    (hfind : (controller.flows[controller.cursor]?).bind (findFlow · s) = some flow)
    {s' : WeightedControllerScheduler} :
    (attempt maximumBytes "" flow s = (.refused, s') →
      attempts maximumBytes "" (count + 1) controller s = (none, controller, s')) ∧
    ∀ grant turnOver, attempt maximumBytes "" flow s = (.granted grant turnOver, s') →
      attempts maximumBytes "" (count + 1) controller s
        = (some grant, if turnOver then turn controller else controller, s') := by
  refine ⟨fun hatt => ?_, fun grant turnOver hatt => ?_⟩ <;>
  · rw [attempts]
    simp only [if_neg (not_le.mpr hcurs), hfind, hatt]

theorem finish_settles (dispatch : FleetDispatch) (htok : dispatch.token ≠ 0)
    (hout : s.outstanding = [(dispatch.token, ⟨dispatch.deviceId, dispatch.bytes⟩)])
    (hfind : s.findFlow dispatch.deviceId = some flow) (hcnt : flow.outstandingCount ≠ 0) :
    ∃ budget, (Fleet.finish dispatch .fullyTransferred s).2
      = { s.commitSettlement dispatch.token ⟨dispatch.deviceId, dispatch.bytes⟩ .fullyTransferred
          with budget := budget } := by
  have hsettle : s.settle dispatch.token dispatch.deviceId dispatch.bytes .fullyTransferred
      = (true, s.commitSettlement dispatch.token ⟨dispatch.deviceId, dispatch.bytes⟩
          .fullyTransferred) := by
    rw [settle, hout]
    simp [hfind, hcnt]
  unfold Fleet.finish
  rw [if_neg htok]
  simp only [permitSettlement, hsettle, if_true]
  cases dispatch.memory with
  | none => exact ⟨s.budget, rfl⟩
  | some bytes => exact ⟨s.budget.releaseCharge bytes, rfl⟩

/-- The flow after a grant of its turn that has been finished. -/
def spend (quantum bytes : UInt64) (flow : Flow) : Flow :=
  settleFlow bytes .fullyTransferred
    (chargeFlow bytes (setDeficit (turnDeficit quantum flow) flow))

theorem Plain.spent (h : Plain quantum flow) (bytes : UInt64) :
    Plain quantum (spend quantum bytes flow) where
  unretired := by simp [spend, settleFlow, chargeFlow, setDeficit, h.unretired]
  unattached := h.unattached
  idle := by
    change flow.outstandingCount + 1 - 1 = 0
    rw [h.idle]
    rfl
  allowed := h.allowed
  weight_ne := h.weight_ne
  share_lt := h.share_lt

/-- A call while the flow at the cursor has bytes remaining: there is no grant, or the flow has one
out of the deficit for its turn, and the cursor goes on when nothing is left of that. -/
structure Served (s : WeightedControllerScheduler) (cursor : ℕ) (flow : Flow) (grant : Option Grant)
    (s' : WeightedControllerScheduler) (flow' : Flow) (cursor' : ℕ) : Prop where
  ring : Ring s' cursor'
  quantum_eq : s'.quantum = s.quantum
  flows_eq : s'.flows = s.flows.set cursor flow'
  key_eq : flow'.deviceId = flow.deviceId ∧ flow'.weight = flow.weight
  refused : grant = none → cursor' = cursor ∧
    turnDeficit s.quantum flow' = turnDeficit s.quantum flow
  granted : ∀ g, grant = some g → g.deviceId = flow.deviceId ∧
    g.bytes ≤ turnDeficit s.quantum flow ∧
    flow'.deficit = turnDeficit s.quantum flow - g.bytes ∧
    (flow'.remaining ≠ 0 →
      cursor' = if flow'.deficit = 0 then (cursor + 1) % s.flows.length else cursor)

section

variable (h : Ring s cursor) (hflow : s.flows[cursor]? = some flow)
include h hflow

/-- No other flow has the name of the one at the cursor. -/
theorem Ring.index_eq {i : ℕ} {other : Flow} (hoth : s.flows[i]? = some other)
    (heq : other.deviceId = flow.deviceId) : cursor = i := by
  refine (getElem?_inj (by rw [length_map]; exact h.cursor_lt) h.nodup).mp ?_
  rw [getElem?_map, getElem?_map, hflow, hoth, Option.map_some, Option.map_some, heq]

theorem Ring.flows_updateFlow (f : Flow → Flow) :
    (s.updateFlow flow.deviceId f).flows = s.flows.set cursor (f flow) := by
  refine ext_getElem? fun i => ?_
  rw [updateFlow, getElem?_map, getElem?_set]
  by_cases hi : cursor = i
  · subst hi
    rw [if_pos rfl, if_pos h.cursor_lt, hflow, Option.map_some, if_pos rfl]
  · rw [if_neg hi]
    cases hoth : s.flows[i]? with
    | none => rfl
    | some other =>
        rw [Option.map_some, if_neg fun heq => hi (h.index_eq hflow hoth heq)]

theorem Ring.findFlow_eq : s.findFlow flow.deviceId = some flow := by
  cases hfind : s.findFlow flow.deviceId with
  | none =>
      have hnone := find?_eq_none.mp hfind flow (mem_of_getElem? hflow)
      simp at hnone
  | some other =>
      obtain ⟨hmem, hid⟩ := findFlow_eq_some hfind
      rw [inj_on_of_nodup_map h.nodup hmem (mem_of_getElem? hflow) hid]

/-- A ring in which the flow at the cursor has changed. -/
theorem Ring.replace {s' : WeightedControllerScheduler} {flow' : Flow} {cursor' : ℕ}
    (hid : flow'.deviceId = flow.deviceId) (hplain : Plain s.quantum flow')
    (hcurs : cursor' < s.flows.length) (hflows : s'.flows = s.flows.set cursor flow')
    (horder : s'.controllerOrder = s.controllerOrder)
    (hctrls : s'.controllers = s.controllers.map fun c => { c with cursor := cursor' })
    (hbud : s'.hasBudget = s.hasBudget) (hq : s'.quantum = s.quantum)
    (hout : s'.outstanding = []) : Ring s' cursor' := by
  have hnames : s'.flows.map Flow.deviceId = s.flows.map Flow.deviceId := by
    rw [hflows]
    exact map_set_of_eq hflow hid
  obtain ⟨id, hid', hctrl⟩ := h.controllers
  constructor
  · refine ⟨id, horder.trans hid', ?_⟩
    rw [hctrls, hctrl, hnames]
    rfl
  · exact hbud.trans h.hasBudget
  · exact hq ▸ h.quantum_ne
  · rwa [hflows, length_set]
  · rw [hnames]
    exact h.nodup
  · exact hout
  · rw [hq, hflows]
    intro other hoth
    rcases mem_or_eq_of_mem_set hoth with hmem | rfl
    · exact h.plain other hmem
    · exact hplain

/-- A call without a grant gives the flow at most the deficit for its turn. -/
theorem Ring.refuse {s' : WeightedControllerScheduler} {f : Flow → Flow}
    (hf : f = id ∨ f = setDeficit (turnDeficit s.quantum flow))
    (hflows : s'.flows = (s.updateFlow flow.deviceId f).flows)
    (hsame : s'.controllerOrder = s.controllerOrder ∧ s'.controllers = s.controllers ∧
      s'.hasBudget = s.hasBudget ∧ s'.quantum = s.quantum ∧ s'.outstanding = s.outstanding) :
    Served s cursor flow none s' (f flow) cursor := by
  have hplain := h.plain flow (mem_of_getElem? hflow)
  have hflow' : Plain s.quantum (f flow) ∧
      ((f flow).deviceId = flow.deviceId ∧ (f flow).weight = flow.weight) ∧
      turnDeficit s.quantum (f flow) = turnDeficit s.quantum flow := by
    rcases hf with rfl | rfl
    · exact ⟨hplain, ⟨rfl, rfl⟩, rfl⟩
    · exact ⟨⟨hplain.unretired, hplain.unattached, hplain.idle, hplain.allowed, hplain.weight_ne,
        hplain.share_lt⟩, ⟨rfl, rfl⟩, if_neg (turnDeficit_ne_zero hplain h.quantum_ne)⟩
  obtain ⟨hplain', hkey, hdef⟩ := hflow'
  obtain ⟨horder, hctrls, hbud, hq, hout⟩ := hsame
  rw [h.flows_updateFlow hflow] at hflows
  refine ⟨h.replace hflow hkey.1 hplain' h.cursor_lt hflows horder ?_ hbud hq
    (hout.trans h.outstanding), hq, hflows, hkey, fun _ => ⟨rfl, hdef⟩,
    fun g hg => by cases hg⟩
  obtain ⟨id, -, hctrl⟩ := h.controllers
  rw [hctrls, hctrl]
  rfl

/-- A round of the ring looks at the flow at the cursor only. -/
theorem Ring.round (hrem : flow.remaining ≠ 0) (maximumBytes : UInt64)
    (hctrl : s.controllers = [controller]) :
    (∃ s', nextForController controller maximumBytes "" s = (none, s') ∧
      ∃ flow', Served s cursor flow none s' flow' cursor) ∨
    ∃ grant budget nextToken cursor', nextForController controller maximumBytes "" s
        = (some grant, (charged s flow grant budget nextToken).setController
          { controller with cursor := cursor' }) ∧
      cursor' < s.flows.length ∧
      (flow.remaining - grant.bytes ≠ 0 → cursor' = if turnDeficit s.quantum flow - grant.bytes = 0
        then (cursor + 1) % s.flows.length else cursor) ∧
      grant.token ≠ 0 ∧ grant.deviceId = flow.deviceId ∧
      grant.bytes ≤ turnDeficit s.quantum flow := by
  obtain ⟨name, -, hctrls⟩ := h.controllers
  obtain rfl : controller = ⟨name, s.flows.map Flow.deviceId, cursor⟩ := by
    rw [hctrl] at hctrls
    exact (cons.inj hctrls).1
  have hid : s.flows = (s.updateFlow flow.deviceId id).flows := by simp [updateFlow]
  have hlt : cursor < (s.flows.map Flow.deviceId).length := by
    rw [length_map]
    exact h.cursor_lt
  obtain ⟨count, hcnt⟩ : ∃ count, (s.flows.map Flow.deviceId).length = count + 1 :=
    ⟨_, (Nat.sub_add_cancel (Nat.one_le_of_lt hlt)).symm⟩
  have hfind : ((s.flows.map Flow.deviceId)[cursor]?).bind (findFlow · s) = some flow := by
    rw [getElem?_map, hflow]
    exact h.findFlow_eq hflow
  unfold nextForController
  split_ifs with hnone
  · exact .inl ⟨s, rfl, flow, h.refuse hflow (.inl rfl) hid ⟨rfl, rfl, rfl, rfl, rfl⟩⟩
  rcases attempt_plain (h.plain flow (mem_of_getElem? hflow)) h.quantum_ne hrem with
    ⟨f, hatt, hf⟩ | ⟨grant, budget, nextToken, hatt, hgrant⟩
  · refine .inl ⟨(s.updateFlow flow.deviceId f).setController
      ⟨name, s.flows.map Flow.deviceId, cursor⟩, ?_, f flow,
      h.refuse hflow hf rfl ⟨rfl, ?_, rfl, rfl, rfl⟩⟩
    · rw [hcnt, (attempts_first hlt hfind).1 hatt]
    · simp [setController, updateFlow, hctrl]
  · refine .inr ⟨grant, budget, nextToken, if flow.remaining - grant.bytes = 0 ∨
      turnDeficit s.quantum flow - grant.bytes = 0 then (cursor + 1) % s.flows.length else cursor,
      ?_, ?_, fun hleft => by simp only [hleft, false_or], hgrant⟩
    · rw [hcnt, (attempts_first hlt hfind).2 _ _ hatt]
      simp only [decide_eq_true_eq]
      split_ifs
      · rw [turn, length_map]
      · rfl
    · split_ifs
      · exact Nat.mod_lt _ (Nat.zero_lt_of_lt h.cursor_lt)
      · exact h.cursor_lt

/-- The flow at the cursor has a grant that is finished. -/
theorem Ring.grant (hctrl : s.controllers = [controller]) {grant : Grant}
    (budget : BufferBudget) (nextToken : UInt64) {cursor' : ℕ} (hlt : cursor' < s.flows.length)
    (hcurs : flow.remaining - grant.bytes ≠ 0 → cursor' =
      if turnDeficit s.quantum flow - grant.bytes = 0 then (cursor + 1) % s.flows.length else cursor)
    (htok : grant.token ≠ 0) (hdev : grant.deviceId = flow.deviceId)
    (hbytes : grant.bytes ≤ turnDeficit s.quantum flow) :
    Served s cursor flow (some grant)
      (Fleet.finish ⟨grant.token, grant.deviceId, grant.controllerId, grant.bytes, grant.memory⟩
        .fullyTransferred ((charged s flow grant budget nextToken).setController
          { controller with cursor := cursor' })).2
      (spend s.quantum grant.bytes flow) cursor' := by
  have hplain := h.plain flow (mem_of_getElem? hflow)
  have hfind : ((s.updateFlow flow.deviceId (setDeficit (turnDeficit s.quantum flow))).updateFlow
        grant.deviceId (chargeFlow grant.bytes)).findFlow grant.deviceId
      = some (chargeFlow grant.bytes (setDeficit (turnDeficit s.quantum flow) flow)) := by
    rw [hdev]
    exact findFlow_updateFlow (fun _ => rfl)
      (findFlow_updateFlow (fun _ => rfl) (h.findFlow_eq hflow))
  have hcnt : flow.outstandingCount + 1 ≠ 0 := by
    rw [hplain.idle]
    decide
  have hout : s.outstanding ++ [(grant.token, (⟨grant.deviceId, grant.bytes⟩ : Outstanding))]
      = [(grant.token, ⟨grant.deviceId, grant.bytes⟩)] := by
    rw [h.outstanding, nil_append]
  obtain ⟨finished, hfin⟩ := finish_settles
    (s := (charged s flow grant budget nextToken).setController { controller with cursor := cursor' })
    ⟨grant.token, grant.deviceId, grant.controllerId, grant.bytes, grant.memory⟩ htok hout
    hfind hcnt
  rw [hfin]
  have hflows : ((s.updateFlow flow.deviceId (setDeficit (turnDeficit s.quantum flow))).updateFlow
      grant.deviceId (chargeFlow grant.bytes)).updateFlow grant.deviceId
        (settleFlow grant.bytes .fullyTransferred)
      = s.updateFlow flow.deviceId (settleFlow grant.bytes .fullyTransferred ∘
        chargeFlow grant.bytes ∘ setDeficit (turnDeficit s.quantum flow)) := by
    rw [hdev, updateFlow_updateFlow (f := chargeFlow grant.bytes) fun _ => rfl,
      updateFlow_updateFlow (f := setDeficit _) fun _ => rfl]
    rfl
  have hset := (congrArg (·.flows) hflows).trans (h.flows_updateFlow hflow _)
  have hname : (spend s.quantum grant.bytes flow).deviceId = flow.deviceId := rfl
  refine ⟨h.replace hflow hname (hplain.spent grant.bytes) hlt hset rfl ?_ rfl rfl ?_, rfl, hset,
    ⟨rfl, rfl⟩, fun hnone => (by cases hnone), fun g hg => ?_⟩
  · simp [setController, commitSettlement, charged, commitGrant, updateFlow, hctrl]
  · change (s.outstanding ++ [_]).erase _ = []
    rw [hout]
    simp
  · cases hg
    exact ⟨hdev, hbytes, rfl, hcurs⟩

theorem Ring.call (hrem : flow.remaining ≠ 0) (call : BufferBudget × UInt64) :
    ∃ flow' cursor', Served s cursor flow (serve s call).1 (serve s call).2 flow' cursor' := by
  have hplain := h.plain flow (mem_of_getElem? hflow)
  have hid : s.flows = (s.updateFlow flow.deviceId id).flows := by simp [updateFlow]
  obtain ⟨name, horder, hctrls⟩ := h.controllers
  by_cases hmax : call.2 = 0
  · have hnext : { s with budget := call.1 }.next call.2 = (none, { s with budget := call.1 }) := by
      rw [next, if_pos (.inr (.inl hmax))]
    refine ⟨flow, cursor, ?_⟩
    simp only [serve, hnext]
    exact h.refuse hflow (.inl rfl) hid ⟨rfl, rfl, rfl, rfl, rfl⟩
  -- the scheduler as the call finds it
  let s₀ : WeightedControllerScheduler := { s with budget := call.1, controllerCursor := 0 }
  have hsame : Served s cursor flow none s₀ flow cursor :=
    h.refuse hflow (.inl rfl) hid ⟨rfl, rfl, rfl, rfl, rfl⟩
  have hring := hsame.ring
  have hnext : ∀ {outcome s'}, nextForController
      ⟨name, s.flows.map Flow.deviceId, cursor⟩ call.2 "" s₀ = (outcome, s') →
      { s with budget := call.1 }.next call.2 = (outcome, s') := fun hcall =>
    next_eq (s := { s with budget := call.1 }) h.hasBudget hmax horder hctrls hcall
  rcases hring.round hflow hrem call.2 hctrls with
    ⟨s', hcall, flow', hserv⟩ |
    ⟨grant, budget, nextToken, cursor', hcall, hlt, hcurs, htok, hdev, hbytes⟩
  · refine ⟨flow', cursor, ?_⟩
    simp only [serve, hnext hcall]
    exact ⟨hserv.ring, hserv.quantum_eq, hserv.flows_eq, hserv.key_eq, hserv.refused, hserv.granted⟩
  · refine ⟨spend s.quantum grant.bytes flow, cursor', ?_⟩
    simp only [serve, hnext hcall]
    have hserv := hring.grant hflow hctrls budget nextToken hlt hcurs htok hdev hbytes
    exact ⟨hserv.ring, hserv.quantum_eq, hserv.flows_eq, hserv.key_eq, hserv.refused, hserv.granted⟩

end

/-! ### Turns -/

variable {grants : List Grant} {rounds : ℕ} {grant : Option Grant} {flow' : Flow} {cursor' : ℕ}
  {s' : WeightedControllerScheduler}

theorem served_append (deviceId : String) (grants grants' : List Grant) :
    served deviceId (grants ++ grants') = served deviceId grants + served deviceId grants' := by
  simp [served]

/-- Every flow has been served the same number of full turns, up to the turn that the cursor is
in. -/
structure Fair (s : WeightedControllerScheduler) (cursor : ℕ) (grants : List Grant)
    (rounds : ℕ) : Prop where
  others : ∀ i flow, s.flows[i]? = some flow → i ≠ cursor → flow.deficit = 0 ∧
    served flow.deviceId grants
      = (if i < cursor then rounds + 1 else rounds) * share s.quantum flow
  current : ∀ flow, s.flows[cursor]? = some flow →
    (turnDeficit s.quantum flow).toNat ≤ share s.quantum flow ∧
    served flow.deviceId grants + (turnDeficit s.quantum flow).toNat
      = (rounds + 1) * share s.quantum flow

theorem Ring.fair_of_spent (h : Ring s cursor)
    (hspent : ∀ i flow, s.flows[i]? = some flow → flow.deficit = 0 ∧ served flow.deviceId grants
      = (if i < cursor then rounds + 1 else rounds) * share s.quantum flow) :
    Fair s cursor grants rounds := by
  refine ⟨fun i flow hflow _ => hspent i flow hflow, fun flow hflow => ?_⟩
  obtain ⟨hzero, hserv⟩ := hspent cursor flow hflow
  rw [toNat_turnDeficit (h.plain flow (mem_of_getElem? hflow)), if_pos hzero, hserv,
    if_neg (lt_irrefl _), Nat.succ_mul]
  exact ⟨le_refl _, rfl⟩

theorem Fair.bounds (hfair : Fair s cursor grants rounds) (hflow : flow ∈ s.flows) :
    rounds * share s.quantum flow ≤ served flow.deviceId grants ∧
      served flow.deviceId grants ≤ (rounds + 1) * share s.quantum flow := by
  obtain ⟨i, hget⟩ := mem_iff_getElem?.mp hflow
  have hsucc := Nat.add_one_mul rounds (share s.quantum flow)
  by_cases hi : i = cursor
  · subst hi
    obtain ⟨hle, hsum⟩ := hfair.current flow hget
    omega
  · obtain ⟨-, hserv⟩ := hfair.others i flow hget hi
    rw [hserv]
    split_ifs <;> omega

theorem Ring.served_grant (h : Ring s cursor) (hflow : s.flows[cursor]? = some flow) {grant : Grant}
    (hdev : grant.deviceId = flow.deviceId) (grants : List Grant) {i : ℕ} {other : Flow}
    (hoth : s.flows[i]? = some other) : served other.deviceId (grants ++ [grant])
      = served other.deviceId grants + if i = cursor then grant.bytes.toNat else 0 := by
  have hiff : grant.deviceId = other.deviceId ↔ i = cursor := by
    constructor
    · intro heq
      exact (h.index_eq hflow hoth (heq.symm.trans hdev)).symm
    · rintro rfl
      rw [hdev, Option.some.inj (hflow.symm.trans hoth)]
  rw [served_append]
  simp only [served, map_singleton, sum_singleton, hiff]

/-- A call keeps the turns. -/
theorem Fair.call (hfair : Fair s cursor grants rounds) (h : Ring s cursor)
    (hflow : s.flows[cursor]? = some flow) (hserv : Served s cursor flow grant s' flow' cursor')
    (hrem : flow'.remaining ≠ 0) : ∃ rounds', Fair s' cursor' (grants ++ grant.toList) rounds' := by
  obtain ⟨hid, hwt⟩ := hserv.key_eq
  have hshare : share s'.quantum flow' = share s.quantum flow := by
    rw [share, share, hwt, hserv.quantum_eq]
  have hget : ∀ i other, s'.flows[i]? = some other →
      (i = cursor ∧ other = flow') ∨ (i ≠ cursor ∧ s.flows[i]? = some other) := by
    intro i other hoth
    rw [hserv.flows_eq, getElem?_set] at hoth
    split_ifs at hoth with hi hi'
    · exact .inl ⟨hi.symm, (Option.some.inj hoth).symm⟩
    · exact .inr ⟨Ne.symm hi, hoth⟩
  obtain ⟨hle, hcur⟩ := hfair.current flow hflow
  cases grant with
  | none =>
      obtain ⟨rfl, hdef⟩ := hserv.refused rfl
      refine ⟨rounds, fun i other hoth hi => ?_, fun other hoth => ?_⟩
      · rcases hget i other hoth with ⟨rfl, -⟩ | ⟨-, hoth⟩
        · exact absurd rfl hi
        · rw [Option.toList_none, append_nil, hserv.quantum_eq]
          exact hfair.others i other hoth hi
      · rcases hget _ other hoth with ⟨-, rfl⟩ | ⟨hne, -⟩
        · rw [hshare, hserv.quantum_eq, hdef, Option.toList_none, append_nil, hid]
          exact ⟨hle, hcur⟩
        · exact absurd rfl hne
  | some g =>
      obtain ⟨hdev, hbytes, hdef, hcurs⟩ := hserv.granted g rfl
      have hoth : ∀ i other, i ≠ cursor → s.flows[i]? = some other →
          served other.deviceId (grants ++ [g]) = served other.deviceId grants := by
        intro i other hi hoth
        rw [h.served_grant hflow hdev grants hoth, if_neg hi, add_zero]
      have hown : served flow'.deviceId (grants ++ [g])
          = served flow.deviceId grants + g.bytes.toNat := by
        rw [hid, h.served_grant hflow hdev grants hflow, if_pos rfl]
      have hleft : flow'.deficit.toNat = (turnDeficit s.quantum flow).toNat - g.bytes.toNat := by
        rw [hdef, UInt64.toNat_sub_of_le _ _ hbytes]
      have hnat := UInt64.le_iff_toNat_le.mp hbytes
      have hring := hserv.ring
      rw [hcurs hrem] at hring ⊢
      split_ifs at hring ⊢ with hzero
      · -- the turn is over: nothing is left of any share
        have hspent : ∀ i other, s'.flows[i]? = some other → other.deficit = 0 ∧
            served other.deviceId (grants ++ [g])
              = (if i ≤ cursor then rounds + 1 else rounds) * share s'.quantum other := by
          intro i other hoth'
          rcases hget i other hoth' with ⟨rfl, rfl⟩ | ⟨hi, hsame⟩
          · rw [hzero, UInt64.toNat_zero] at hleft
            refine ⟨hzero, ?_⟩
            rw [hown, if_pos (le_refl _), hshare]
            omega
          · obtain ⟨hdone, hcnt⟩ := hfair.others i other hsame hi
            rw [hoth i other hi hsame, hcnt, hserv.quantum_eq]
            simp only [hdone, Nat.lt_iff_le_and_ne, hi, ne_eq, not_false_eq_true, and_true]
        have hlt := h.cursor_lt
        by_cases hend : cursor + 1 = s.flows.length
        · rw [hend, Nat.mod_self] at hring ⊢
          refine ⟨rounds + 1, hring.fair_of_spent fun i other hoth' => ?_⟩
          have hi := (List.getElem?_eq_some_iff.mp hoth').1
          rw [hserv.flows_eq, length_set] at hi
          have hturns := hspent i other hoth'
          rwa [if_pos (by omega)] at hturns
        · rw [Nat.mod_eq_of_lt (by omega)] at hring ⊢
          refine ⟨rounds, hring.fair_of_spent fun i other hoth' => ?_⟩
          simp only [Nat.lt_succ_iff]
          exact hspent i other hoth'
      · refine ⟨rounds, fun i other hoth' hi => ?_, fun other hoth' => ?_⟩
        · rcases hget i other hoth' with ⟨rfl, -⟩ | ⟨-, hsame⟩
          · exact absurd rfl hi
          · rw [Option.toList_some, hoth i other hi hsame, hserv.quantum_eq]
            exact hfair.others i other hsame hi
        · rcases hget _ other hoth' with ⟨-, rfl⟩ | ⟨hne, -⟩
          · have hturn : turnDeficit s'.quantum other = other.deficit := if_neg hzero
            rw [hturn, hshare, Option.toList_some, hown, hleft]
            omega
          · exact absurd rfl hne

/-- However the call leaves the bytes of its flow, it is not served more than its turn. -/
theorem Fair.bounds_call (hfair : Fair s cursor grants rounds) (h : Ring s cursor)
    (hflow : s.flows[cursor]? = some flow) (hserv : Served s cursor flow grant s' flow' cursor')
    {other : Flow} (hoth : other ∈ s.flows) :
    rounds * share s.quantum other ≤ served other.deviceId (grants ++ grant.toList) ∧
      served other.deviceId (grants ++ grant.toList) ≤ (rounds + 1) * share s.quantum other := by
  have hbds := hfair.bounds hoth
  cases grant with
  | none =>
      rw [Option.toList_none, append_nil]
      exact hbds
  | some g =>
      obtain ⟨hdev, hbytes, -, -⟩ := hserv.granted g rfl
      obtain ⟨i, hget⟩ := mem_iff_getElem?.mp hoth
      rw [Option.toList_some, h.served_grant hflow hdev grants hget]
      split_ifs with hi
      · subst hi
        obtain ⟨-, hsum⟩ := hfair.current other hget
        rw [Option.some.inj (hflow.symm.trans hget)] at hbytes
        have hnat := UInt64.le_iff_toNat_le.mp hbytes
        omega
      · exact hbds

/-! ### Whole runs -/

theorem newFlow_plain {spec : DeviceFlowSpec} (hwt : spec.weight ≠ 0)
    (hallow : spec.maxOutstanding ≠ 0) (h : quantum.toNat * spec.weight.toNat < 2 ^ 64) :
    Plain quantum (newFlow spec) :=
  ⟨rfl, rfl, rfl, hallow, hwt, h⟩

/-- Flows of one controller that have not had a turn. -/
structure Fresh (id : String) (s : WeightedControllerScheduler) : Prop where
  outstanding : s.outstanding = []
  nodup : (s.flows.map Flow.deviceId).Nodup
  plain : ∀ flow ∈ s.flows, Plain s.quantum flow ∧ flow.deficit = 0
  controllers : (s.flows = [] ∧ s.controllerOrder = [] ∧ s.controllers = []) ∨
    s.hasBudget = true ∧ s.quantum ≠ 0 ∧ s.controllerOrder = [id] ∧
      s.controllers = [⟨id, s.flows.map Flow.deviceId, 0⟩]

theorem Fresh.ring {id : String} (h : Fresh id s) (hflow : flow ∈ s.flows) : Ring s 0 := by
  rcases h.controllers with ⟨hflows, -⟩ | ⟨hbud, hq, horder, hctrls⟩
  · rw [hflows] at hflow
    cases hflow
  · exact ⟨⟨id, horder, hctrls⟩, hbud, hq, length_pos_of_mem hflow, h.nodup,
      h.outstanding, fun other hoth => (h.plain other hoth).1⟩

theorem Fresh.addFlow {id : String} (h : Fresh id s) {spec : DeviceFlowSpec}
    (hid : spec.controllerId = id) (hshare : s.quantum.toNat * spec.weight.toNat < 2 ^ 64) :
    Fresh id (s.addFlow spec).2 ∧ (s.addFlow spec).2.quantum = s.quantum := by
  unfold WeightedControllerScheduler.addFlow
  split_ifs with href
  · exact ⟨h, rfl⟩
  push Not at href
  obtain ⟨hbud, hq, -, -, hwt, hallow, hfind⟩ := href
  refine ⟨⟨h.outstanding, ?_, ?_, .inr ⟨by simpa using hbud, hq, ?_, ?_⟩⟩, rfl⟩
  · rw [map_append, nodup_append]
    refine ⟨h.nodup, nodup_singleton _, fun name hname other hoth heq => ?_⟩
    obtain ⟨flow, hflow, rfl⟩ := mem_map.mp hname
    obtain rfl := mem_singleton.mp hoth
    have hsome : (s.findFlow spec.deviceId).isSome :=
      find?_isSome.mpr ⟨flow, hflow, decide_eq_true heq⟩
    exact hfind hsome
  · intro flow hflow
    rcases mem_append.mp hflow with hmem | hmem
    · exact h.plain flow hmem
    · obtain rfl := mem_singleton.mp hmem
      exact ⟨newFlow_plain hwt hallow hshare, rfl⟩
  · rcases h.controllers with ⟨-, horder, hctrls⟩ | ⟨-, -, horder, hctrls⟩
    · simp [findController, hctrls, horder, hid]
    · simp [findController, hctrls, horder, hid]
  · rcases h.controllers with ⟨hflows, horder, hctrls⟩ | ⟨-, -, horder, hctrls⟩
    · simp [findController, hctrls, hflows, hid, newFlow]
    · simp [findController, hctrls, hid, newFlow]

theorem withFlows_fresh (hasBudget : Bool) (limit : UInt64) {id : String}
    {specs : List DeviceFlowSpec} (hid : ∀ spec ∈ specs, spec.controllerId = id)
    (hshare : ∀ spec ∈ specs, quantum.toNat * spec.weight.toNat < 2 ^ 64) :
    Fresh id (withFlows hasBudget quantum limit specs) ∧
      (withFlows hasBudget quantum limit specs).quantum = quantum := by
  induction specs using reverseRecOn with
  | nil => exact ⟨⟨rfl, nodup_nil, by simp [withFlows, Fleet.new], .inl ⟨rfl, rfl, rfl⟩⟩, rfl⟩
  | append_singleton specs spec ih =>
      obtain ⟨hfresh, hq⟩ := ih (fun other hoth => hid other (by simp [hoth]))
        (fun other hoth => hshare other (by simp [hoth]))
      have hstep := hfresh.addFlow (hid spec (by simp)) (by rw [hq]; exact hshare spec (by simp))
      rw [withFlows, foldl_append]
      exact ⟨hstep.1, hstep.2.trans hq⟩

theorem serveAll_append (s : WeightedControllerScheduler) (calls : List (BufferBudget × UInt64))
    (call : BufferBudget × UInt64) : serveAll s (calls ++ [call])
      = ((serveAll s calls).1 ++ (serve (serveAll s calls).2 call).1.toList,
        (serve (serveAll s calls).2 call).2) := by
  rw [serveAll, foldl_append]
  rfl

/-- What tells the flows apart, and what they have to be served. -/
def keys (s : WeightedControllerScheduler) : List (String × UInt32) :=
  s.flows.map fun flow => (flow.deviceId, flow.weight)

theorem Served.keys_eq (hflow : s.flows[cursor]? = some flow)
    (hserv : Served s cursor flow grant s' flow' cursor') : keys s' = keys s := by
  rw [keys, hserv.flows_eq]
  exact map_set_of_eq hflow (Prod.ext hserv.key_eq.1 hserv.key_eq.2)

/-- The turns after calls that leave bytes remaining in all flows. -/
theorem Ring.run (h : Ring s 0) (hdef : ∀ flow ∈ s.flows, flow.deficit = 0)
    {calls : List (BufferBudget × UInt64)} (hrem : ∀ front, front <+: calls →
      ∀ flow ∈ (serveAll s front).2.flows, flow.remaining ≠ 0) :
    ∃ cursor rounds, Ring (serveAll s calls).2 cursor ∧
      Fair (serveAll s calls).2 cursor (serveAll s calls).1 rounds ∧
      (serveAll s calls).2.quantum = s.quantum ∧ keys (serveAll s calls).2 = keys s := by
  induction calls using reverseRecOn with
  | nil =>
      refine ⟨0, 0, h, h.fair_of_spent fun i flow hflow => ?_, rfl, rfl⟩
      exact ⟨hdef flow (mem_of_getElem? hflow), by simp [served, serveAll]⟩
  | append_singleton calls call ih =>
      obtain ⟨cursor, rounds, hring, hfair, hq, hkeys⟩ :=
        ih fun front hfront => hrem front (hfront.trans (prefix_append _ _))
      have hflow := getElem?_eq_getElem hring.cursor_lt
      obtain ⟨flow', cursor', hserv⟩ := hring.call hflow
        (hrem calls (prefix_append _ _) _ (mem_of_getElem? hflow)) call
      have hleft := hrem _ prefix_rfl flow'
      rw [serveAll_append] at hleft ⊢
      obtain ⟨rounds', hfair'⟩ := hfair.call hring hflow hserv <| hleft <| by
        rw [hserv.flows_eq]
        exact mem_set hring.cursor_lt _
      exact ⟨cursor', rounds', hserv.ring, hfair', hserv.quantum_eq.trans hq,
        (hserv.keys_eq hflow).trans hkeys⟩

theorem Ring.served_bounds (h : Ring s 0) (hdef : ∀ flow ∈ s.flows, flow.deficit = 0)
    {calls : List (BufferBudget × UInt64)} (hrem : ∀ front call, front ++ [call] <+: calls →
      ∀ flow ∈ (serveAll s front).2.flows, flow.remaining ≠ 0) :
    ∃ rounds, ∀ key ∈ keys s,
      rounds * (s.quantum.toNat * key.2.toNat) ≤ served key.1 (serveAll s calls).1 ∧
      served key.1 (serveAll s calls).1 ≤ (rounds + 1) * (s.quantum.toNat * key.2.toNat) := by
  rcases eq_nil_or_concat calls with rfl | ⟨front, call, rfl⟩
  · refine ⟨0, fun key _ => ?_⟩
    simp [served, serveAll]
  · rw [concat_eq_append] at hrem ⊢
    -- the bytes that the last call leaves do not matter
    have hfront : ∀ calls, calls <+: front →
        ∀ flow ∈ (serveAll s calls).2.flows, flow.remaining ≠ 0 := by
      rintro calls ⟨rest, rfl⟩
      cases rest with
      | nil => exact hrem calls call (by simp)
      | cons next rest => exact hrem calls next (by simp)
    obtain ⟨cursor, rounds, hring, hfair, hq, hkeys⟩ := h.run hdef hfront
    have hflow := getElem?_eq_getElem hring.cursor_lt
    obtain ⟨flow', cursor', hserv⟩ := hring.call hflow
      (hfront front prefix_rfl _ (mem_of_getElem? hflow)) call
    refine ⟨rounds, fun key hkey => ?_⟩
    rw [← hkeys] at hkey
    obtain ⟨other, hoth, rfl⟩ := mem_map.mp hkey
    rw [serveAll_append, ← hq]
    exact hfair.bounds_call hring hflow hserv hoth

/-- Bytes that are the same number of turns, by weight, are at most a quantum apart. -/
theorem abs_sub_le_of_turns {quantum rounds a b v w : ℕ} (hv : v ≠ 0) (hw : w ≠ 0)
    (ha : rounds * (quantum * v) ≤ a ∧ a ≤ (rounds + 1) * (quantum * v))
    (hb : rounds * (quantum * w) ≤ b ∧ b ≤ (rounds + 1) * (quantum * w)) :
    |(a / v - b / w : ℚ)| ≤ quantum := by
  have hturns : ∀ {c u : ℕ}, u ≠ 0 → rounds * (quantum * u) ≤ c ∧ c ≤ (rounds + 1) * (quantum * u) →
      (rounds * quantum : ℚ) ≤ c / u ∧ (c / u : ℚ) ≤ rounds * quantum + quantum := by
    intro c u hu hc
    have hpos : (0 : ℚ) < u := Nat.cast_pos.mpr (Nat.pos_of_ne_zero hu)
    constructor
    · rw [le_div_iff₀ hpos, mul_assoc]
      exact_mod_cast hc.1
    · rw [div_le_iff₀ hpos, ← add_one_mul, mul_assoc]
      exact_mod_cast hc.2
  obtain ⟨hlow, hhigh⟩ := hturns hv ha
  obtain ⟨hlow', hhigh'⟩ := hturns hw hb
  rw [abs_sub_le_iff]
  constructor <;> linarith

theorem weighted_fairness {hasBudget : Bool} {quantum limit : UInt64} {id : String}
    {specs : List DeviceFlowSpec} (hid : ∀ spec ∈ specs, spec.controllerId = id)
    (hshare : ∀ spec ∈ specs, quantum.toNat * spec.weight.toNat < 2 ^ 64)
    {calls : List (BufferBudget × UInt64)} (hremaining : ∀ front call, front ++ [call] <+: calls →
      ∀ flow ∈ (serveAll (withFlows hasBudget quantum limit specs) front).2.flows,
        flow.remaining ≠ 0) {flow other : Flow}
    (hflow : flow ∈ (withFlows hasBudget quantum limit specs).flows)
    (hother : other ∈ (withFlows hasBudget quantum limit specs).flows) :
    |(served flow.deviceId (serveAll (withFlows hasBudget quantum limit specs) calls).1
        / flow.weight.toNat
      - served other.deviceId (serveAll (withFlows hasBudget quantum limit specs) calls).1
        / other.weight.toNat : ℚ)| ≤ quantum.toNat := by
  obtain ⟨hfresh, hquantum⟩ := withFlows_fresh hasBudget limit hid hshare
  have hweight : ∀ flow ∈ (withFlows hasBudget quantum limit specs).flows, flow.weight.toNat ≠ 0 :=
    fun flow hflow hzero => (hfresh.plain flow hflow).1.weight_ne (UInt32.toNat_inj.mp hzero)
  obtain ⟨rounds, hbounds⟩ := (hfresh.ring hflow).served_bounds
    (fun flow hflow => (hfresh.plain flow hflow).2) hremaining
  rw [hquantum] at hbounds
  exact abs_sub_le_of_turns (hweight flow hflow) (hweight other hother)
    (hbounds _ (List.mem_map_of_mem hflow)) (hbounds _ (List.mem_map_of_mem hother))

/-- A flow and one of twice its weight. -/
def light : DeviceFlowSpec := { deviceId := "light", controllerId := "usb", bytesRemaining := 40 }

def heavy : DeviceFlowSpec :=
  { deviceId := "heavy", controllerId := "usb", weight := 2, bytesRemaining := 40 }

/-- Calls whose grants end with the caller's bytes, the budget, the turn or not at all. -/
def shortCalls : List (BufferBudget × UInt64) :=
  [(⟨8, 0⟩, 3), (⟨8, 8⟩, 8), (⟨8, 0⟩, 8), (⟨8, 5⟩, 8)]

/-- The first flow has had its turn of four bytes, the second one three bytes of its eight. -/
theorem weighted_fairness_shortCalls :
    let grants := (serveAll (withFlows true 4 8 [light, heavy]) shortCalls).1
    (served "light" grants = 4 ∧ served "heavy" grants = 3) ∧
      |(served "light" grants / (1 : ℕ) - served "heavy" grants / (2 : ℕ) : ℚ)| ≤ (4 : ℕ) := by
  refine ⟨by decide +kernel, ?_⟩
  refine @weighted_fairness true 4 8 "usb" [light, heavy] (by decide) (by decide) shortCalls
    (fun front call hfront => ?_) (newFlow light) (newFlow heavy) (by decide) (by decide)
  have hruns : ∀ front ∈ shortCalls.inits, ∀ flow ∈ (serveAll (withFlows true 4 8 [light, heavy])
      front).2.flows, flow.remaining ≠ 0 := by decide +kernel
  exact hruns front ((List.mem_inits _ _).mpr ((List.prefix_append _ _).trans hfront))

end KairosBoot.WeightedControllerScheduler
