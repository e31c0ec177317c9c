import Mathlib.Algebra.BigOperators.Group.List.Basic
import Mathlib.Data.List.Nodup
import KairosBoot.ControllerScheduler

/-! # The accounts of the scheduler

The log of a scheduler and its outstanding grants give a ledger for every device, and `Accounts`
says that every flow agrees with the ledger of its device.  Every call of the scheduler keeps the
accounts, a grant that is given is outstanding (`Grants`), and exactly an outstanding grant can be
settled (`Accounts.settle_eq`). -/

namespace KairosBoot

open List PrefixTracking

/-! ### 64-bit arithmetic -/

theorem toNat_saturatingAdd {left right : UInt64} (h : left.toNat + right.toNat < 2 ^ 64) :
    (saturatingAdd left right).toNat = left.toNat + right.toNat := by
  have hmax : (maximumWord - left).toNat = 18446744073709551615 - left.toNat := by
    rw [UInt64.toNat_sub_of_le]
    · rfl
    · rw [UInt64.le_iff_toNat_le]
      have := left.toNat_lt
      change left.toNat ≤ 18446744073709551615
      omega
  unfold saturatingAdd
  rw [if_neg, UInt64.toNat_add, Nat.mod_eq_of_lt h]
  rw [UInt64.lt_iff_toNat_lt, hmax]
  omega

theorem smaller_le_left (left right : UInt64) : (smaller left right).toNat ≤ left.toNat := by
  unfold smaller
  split_ifs with h
  · exact le_of_lt (UInt64.lt_iff_toNat_lt.mp h)
  · exact le_refl _

theorem smaller_le_right (left right : UInt64) : (smaller left right).toNat ≤ right.toNat := by
  unfold smaller
  split_ifs with h
  · exact le_refl _
  · exact Nat.le_of_not_lt fun hlt => h (UInt64.lt_iff_toNat_lt.mpr hlt)

namespace WeightedControllerScheduler

variable {s s' : WeightedControllerScheduler}

/-! ### Ledgers -/

def eventDevice : SchedulerEvent → String
  | .added deviceId _ => deviceId
  | .granted _ deviceId _ => deviceId
  | .settled _ deviceId _ _ => deviceId
  | .retired deviceId => deviceId

/-- The bytes that an event adds to a device. -/
def addedBytes (deviceId : String) : SchedulerEvent → ℕ
  | .added other bytes => if other = deviceId then bytes.toNat else 0
  | _ => 0

/-- The bytes of a device that an event settles with this result. -/
def settledBytes (deviceId : String) (result : TransferPermitSettlement) : SchedulerEvent → ℕ
  | .settled _ other bytes result' =>
      if other = deviceId ∧ result' = result then bytes.toNat else 0
  | _ => 0

/-- The bytes of a device in an outstanding grant. -/
def entryBytes (deviceId : String) (entry : UInt64 × Outstanding) : ℕ :=
  if entry.2.deviceId = deviceId then entry.2.bytes.toNat else 0

/-- The token, the device and the bytes of an outstanding grant. -/
def entryKey (entry : UInt64 × Outstanding) : UInt64 × String × UInt64 :=
  (entry.1, entry.2.deviceId, entry.2.bytes)

def grantKey : SchedulerEvent → Option (UInt64 × String × UInt64)
  | .granted token deviceId bytes => some (token, deviceId, bytes)
  | _ => none

def settledKey : SchedulerEvent → Option (UInt64 × String × UInt64)
  | .settled token deviceId bytes _ => some (token, deviceId, bytes)
  | _ => none

/-- What the log and the outstanding grants say about a device. -/
structure DeviceLedger where
  initial : ℕ
  outstanding : ℕ
  grants : ℕ
  transferred : ℕ
  unknown : ℕ
  retired : Bool
  deriving DecidableEq, Repr

def ledger (deviceId : String) (s : WeightedControllerScheduler) : DeviceLedger where
  initial := (s.log.map (addedBytes deviceId)).sum
  outstanding := (s.outstanding.map (entryBytes deviceId)).sum
  grants := s.outstanding.countP (·.2.deviceId = deviceId)
  transferred := (s.log.map (settledBytes deviceId .fullyTransferred)).sum
  unknown := (s.log.map (settledBytes deviceId .partialOrUnknown)).sum
  retired := SchedulerEvent.retired deviceId ∈ s.log

/-- A flow agrees with a ledger. -/
structure FlowAccount (flow : Flow) (book : DeviceLedger) : Prop where
  balance : flow.remaining.toNat + book.outstanding + book.transferred + book.unknown = book.initial
  initial_lt : book.initial < 2 ^ 64
  count : flow.outstandingCount.toNat = book.grants
  count_le : flow.outstandingCount ≤ flow.maxOutstanding
  retired : flow.retired = book.retired

/-- The second event is not a grant for a device that the first one retires. -/
def KeepsRetired : SchedulerEvent → SchedulerEvent → Prop
  | .retired deviceId, .granted _ other _ => deviceId ≠ other
  | _, _ => True

structure Accounts (s : WeightedControllerScheduler) : Prop where
  flows : ∀ flow ∈ s.flows, FlowAccount flow (ledger flow.deviceId s)
  flows_nodup : (s.flows.map Flow.deviceId).Nodup
  log_known : ∀ event ∈ s.log, eventDevice event ∈ s.flows.map Flow.deviceId
  tokens_nodup : (s.outstanding.map Prod.fst).Nodup
  grants_perm : (s.log.filterMap grantKey).Perm
    (s.outstanding.map entryKey ++ s.log.filterMap settledKey)
  granted_pos : ∀ token deviceId bytes, .granted token deviceId bytes ∈ s.log → bytes ≠ 0
  retired_last : s.log.Pairwise KeepsRetired
  unknown_retired : ∀ token deviceId bytes, .settled token deviceId bytes .partialOrUnknown ∈ s.log →
    .retired deviceId ∈ s.log

theorem accounts_new (hasBudget : Bool) (quantum : UInt64) (budget : BufferBudget) :
    Accounts { hasBudget, quantum, budget } where
  flows := by simp
  flows_nodup := by simp
  log_known := by simp
  tokens_nodup := by simp
  grants_perm := by simp
  granted_pos := by simp
  retired_last := by simp
  unknown_retired := by simp

/-- The accounts are about the flows, the outstanding grants and the log. -/
theorem Accounts.congr (h : Accounts s) (hflows : s'.flows = s.flows)
    (hout : s'.outstanding = s.outstanding) (hlog : s'.log = s.log) : Accounts s' := by
  have hled : ∀ deviceId, ledger deviceId s' = ledger deviceId s := by
    intro deviceId
    simp only [ledger, hout, hlog]
  refine ⟨?_, ?_, ?_, ?_, ?_, ?_, ?_, ?_⟩
  · intro flow hflow
    rw [hled]
    exact h.flows flow (hflows ▸ hflow)
  · rw [hflows]
    exact h.flows_nodup
  · rw [hflows, hlog]
    exact h.log_known
  · rw [hout]
    exact h.tokens_nodup
  · rw [hout, hlog]
    exact h.grants_perm
  · rw [hlog]
    exact h.granted_pos
  · rw [hlog]
    exact h.retired_last
  · rw [hlog]
    exact h.unknown_retired

/-! ### Flows -/

variable {deviceId : String} {outstanding : List (UInt64 × Outstanding)} {flow : Flow}
  {token : UInt64}

theorem findFlow_eq_some (h : s.findFlow deviceId = some flow) :
    flow ∈ s.flows ∧ flow.deviceId = deviceId := by
  refine ⟨mem_of_find?_eq_some h, ?_⟩
  have hfound := find?_some h
  simpa using hfound

theorem Accounts.flow_unique (h : Accounts s) {other : Flow} (hflow : flow ∈ s.flows)
    (hoth : other ∈ s.flows) (heq : other.deviceId = flow.deviceId) : other = flow :=
  inj_on_of_nodup_map h.flows_nodup hoth hflow heq

theorem map_deviceId_updateFlow {f : Flow → Flow}
    (hid : ∀ flow, (f flow).deviceId = flow.deviceId) :
    (s.updateFlow deviceId f).flows.map Flow.deviceId = s.flows.map Flow.deviceId := by
  simp only [updateFlow, map_map]
  refine map_congr_left fun flow _ => ?_
  simp only [Function.comp_apply]
  split_ifs
  · exact hid flow
  · rfl

theorem addedBytes_other {event : SchedulerEvent} (h : eventDevice event ≠ deviceId) :
    addedBytes deviceId event = 0 := by
  cases event <;> simp_all [addedBytes, eventDevice]

theorem settledBytes_other {event : SchedulerEvent} {result : TransferPermitSettlement}
    (h : eventDevice event ≠ deviceId) : settledBytes deviceId result event = 0 := by
  cases event <;> simp_all [settledBytes, eventDevice]

/-- The ledgers of the other devices stay as they are. -/
theorem ledger_other {other : String} {es : List SchedulerEvent}
    {gone come : List (UInt64 × Outstanding)} (hlog : s'.log = s.log ++ es)
    (hes : ∀ event ∈ es, eventDevice event = deviceId)
    (hout : (s'.outstanding ++ gone).Perm (s.outstanding ++ come))
    (hgone : ∀ entry ∈ gone, entry.2.deviceId = deviceId)
    (hcome : ∀ entry ∈ come, entry.2.deviceId = deviceId) (hoth : other ≠ deviceId) :
    ledger other s' = ledger other s := by
  have hzero : ∀ l : List (UInt64 × Outstanding), (∀ entry ∈ l, entry.2.deviceId = deviceId) →
      (l.map (entryBytes other)).sum = 0 ∧ l.countP (·.2.deviceId = other) = 0 := by
    intro l hl
    refine ⟨sum_eq_zero (forall_mem_map.mpr fun entry hent => ?_),
      countP_eq_zero.mpr fun entry hent => ?_⟩
    · rw [entryBytes, if_neg (by rw [hl entry hent]; exact hoth.symm)]
    · simpa [hl entry hent] using hoth.symm
  have hevs : ∀ f : SchedulerEvent → ℕ, (∀ event, eventDevice event ≠ other → f event = 0) →
      (s'.log.map f).sum = (s.log.map f).sum := by
    intro f hf
    rw [hlog, map_append, sum_append, sum_eq_zero (l := es.map f), add_zero]
    refine forall_mem_map.mpr fun event hev => hf event ?_
    rw [hes event hev]
    exact hoth.symm
  have hadded := hevs (addedBytes other) fun _ => addedBytes_other
  have hset : ∀ result, (s'.log.map (settledBytes other result)).sum
      = (s.log.map (settledBytes other result)).sum := fun result =>
    hevs (settledBytes other result) fun _ => settledBytes_other
  have hsum := (hout.map (entryBytes other)).sum_eq
  have hcnt := hout.countP_eq (fun entry => decide (entry.2.deviceId = other))
  rw [map_append, map_append, sum_append, sum_append, (hzero gone hgone).1,
    (hzero come hcome).1, add_zero, add_zero] at hsum
  rw [countP_append, countP_append, (hzero gone hgone).2, (hzero come hcome).2,
    add_zero, add_zero] at hcnt
  have hret : (SchedulerEvent.retired other ∈ s'.log) ↔ SchedulerEvent.retired other ∈ s.log := by
    rw [hlog, mem_append]
    exact or_iff_left fun hmem => hoth (hes _ hmem)
  simp only [ledger, hadded, hset, hsum, hcnt, hret]

/-- One device: its flow is updated, and what happens in the log and to the grants is about it. -/
structure Update (deviceId : String) (f : Flow → Flow) (es : List SchedulerEvent)
    (gone come : List (UInt64 × Outstanding)) (s s' : WeightedControllerScheduler) : Prop where
  flows : s'.flows = (s.updateFlow deviceId f).flows
  deviceId_eq : ∀ flow, (f flow).deviceId = flow.deviceId
  known : es ≠ [] → deviceId ∈ s.flows.map Flow.deviceId
  log : s'.log = s.log ++ es
  events : ∀ event ∈ es, eventDevice event = deviceId
  outstanding : (s'.outstanding ++ gone).Perm (s.outstanding ++ come)
  gone_device : ∀ entry ∈ gone, entry.2.deviceId = deviceId
  come_device : ∀ entry ∈ come, entry.2.deviceId = deviceId

section Update

variable {deviceId : String} {f : Flow → Flow} {es : List SchedulerEvent}
  {gone come : List (UInt64 × Outstanding)}

section

variable (hu : Update deviceId f es gone come s s')
include hu

theorem Update.names : s'.flows.map Flow.deviceId = s.flows.map Flow.deviceId := by
  rw [hu.flows, map_deviceId_updateFlow hu.deviceId_eq]

/-- The flows agree with their ledgers if the updated one does. -/
theorem Update.flow_account (h : Accounts s)
    (hflow : ∀ flow ∈ s.flows, flow.deviceId = deviceId → FlowAccount flow (ledger deviceId s) →
      FlowAccount (f flow) (ledger deviceId s')) :
    ∀ flow ∈ s'.flows, FlowAccount flow (ledger flow.deviceId s') := by
  intro flow hmem
  rw [hu.flows] at hmem
  obtain ⟨old, hold, rfl⟩ := mem_map.mp hmem
  have hacc := h.flows old hold
  split_ifs with hdev
  · rw [hu.deviceId_eq, hdev]
    rw [hdev] at hacc
    exact hflow old hold hdev hacc
  · rw [ledger_other hu.log hu.events hu.outstanding hu.gone_device hu.come_device hdev]
    exact hacc

theorem Update.log_known (h : Accounts s) :
    ∀ event ∈ s'.log, eventDevice event ∈ s'.flows.map Flow.deviceId := by
  rw [hu.names, hu.log, forall_mem_append]
  refine ⟨h.log_known, fun event hnew => ?_⟩
  rw [hu.events event hnew]
  exact hu.known (ne_nil_of_mem hnew)

end

end Update

theorem Accounts.control (h : Accounts s) {f : Flow → Flow}
    (hflows : s'.flows = (s.updateFlow deviceId f).flows)
    (hout : s'.outstanding = s.outstanding) (hlog : s'.log = s.log)
    (hid : ∀ flow, (f flow).deviceId = flow.deviceId)
    (hflow : ∀ flow ∈ s.flows, flow.deviceId = deviceId → ∀ book, FlowAccount flow book →
      FlowAccount (f flow) book) : Accounts s' := by
  have hu : Update deviceId f [] [] [] s s' :=
    ⟨hflows, hid, by simp, by simp [hlog], by simp, by simp [hout], by simp, by simp⟩
  have hled : ledger deviceId s' = ledger deviceId s := by
    simp only [ledger, hout, hlog]
  refine ⟨hu.flow_account h ?_, hu.names ▸ h.flows_nodup, hu.log_known h,
    hout ▸ h.tokens_nodup, ?_, hlog ▸ h.granted_pos, hlog ▸ h.retired_last,
    hlog ▸ h.unknown_retired⟩
  · intro flow hmem hdev hacc
    rw [hled]
    exact hflow flow hmem hdev _ hacc
  · rw [hlog, hout]
    exact h.grants_perm

/-- What the accounts say about the log alone, when the log grows. -/
theorem Accounts.log_append (h : Accounts s) (es : List SchedulerEvent)
    (hgr : ∀ token deviceId bytes, .granted token deviceId bytes ∈ es →
      bytes ≠ 0 ∧ .retired deviceId ∉ s.log)
    (hkeeps : es.Pairwise KeepsRetired)
    (hunk : ∀ token deviceId bytes, .settled token deviceId bytes .partialOrUnknown ∈ es →
      .retired deviceId ∈ es) :
    (∀ token deviceId bytes, .granted token deviceId bytes ∈ s.log ++ es → bytes ≠ 0) ∧
    (s.log ++ es).Pairwise KeepsRetired ∧
    ∀ token deviceId bytes, .settled token deviceId bytes .partialOrUnknown ∈ s.log ++ es →
      .retired deviceId ∈ s.log ++ es := by
  refine ⟨fun token deviceId bytes hmem => ?_, pairwise_append.mpr ⟨h.retired_last, hkeeps, ?_⟩,
    fun token deviceId bytes hmem => mem_append.mpr ?_⟩
  · exact (mem_append.mp hmem).elim (h.granted_pos token deviceId bytes)
      fun hnew => (hgr token deviceId bytes hnew).1
  · intro event hev event' hnew
    cases event with
    | retired deviceId =>
        cases event' with
        | granted token other bytes =>
            rintro rfl
            exact (hgr token deviceId bytes hnew).2 hev
        | added | settled | retired => trivial
    | added | granted | settled => trivial
  · exact (mem_append.mp hmem).imp (h.unknown_retired token deviceId bytes)
      (hunk token deviceId bytes)

/-! ### Grants -/

theorem allocateToken_spec {fuel : ℕ} {start next : UInt64}
    (h : allocateToken outstanding fuel start = some (token, next)) :
    token ≠ 0 ∧ token ∉ outstanding.map Prod.fst := by
  induction fuel generalizing start with
  | zero => cases h
  | succ fuel ih =>
      rw [allocateToken] at h
      split_ifs at h with htaken
      · exact ih h
      · cases h
        refine ⟨fun hzero => htaken (.inl hzero), fun hmem => ?_⟩
        obtain ⟨entry, hent, rfl⟩ := mem_map.mp hmem
        exact htaken (.inr (any_eq_true.mpr ⟨entry, hent, by simp⟩))

theorem Accounts.grant (h : Accounts s) (hflow : flow ∈ s.flows) {grant : Grant}
    (hdev : grant.deviceId = flow.deviceId) (hret : flow.retired = false)
    (hcnt : flow.outstandingCount < flow.maxOutstanding) (hbytes : grant.bytes ≤ flow.remaining)
    (hpos : grant.bytes ≠ 0) (htok : grant.token ∉ s.outstanding.map Prod.fst)
    (budget : BufferBudget) (nextToken : UInt64) :
    Accounts (s.commitGrant grant budget nextToken) := by
  have hu : Update grant.deviceId (chargeFlow grant.bytes)
      [.granted grant.token grant.deviceId grant.bytes] []
      [(grant.token, ⟨grant.deviceId, grant.bytes⟩)] s (s.commitGrant grant budget nextToken) := by
    refine ⟨rfl, fun _ => rfl, fun _ => ?_, rfl, by simp [eventDevice], by simp [commitGrant],
      by simp, by simp⟩
    rw [hdev]
    exact mem_map_of_mem hflow
  have hopen : SchedulerEvent.retired grant.deviceId ∉ s.log := by
    have hbook := (h.flows flow hflow).retired
    rw [hret, ← hdev] at hbook
    simpa [ledger] using hbook.symm
  obtain ⟨hgr, hkeeps, hunk⟩ := h.log_append
    [.granted grant.token grant.deviceId grant.bytes]
    (by rintro _ _ _ (_ | ⟨_, ⟨⟩⟩); exact ⟨hpos, hopen⟩) (pairwise_singleton _ _) (by simp)
  refine ⟨hu.flow_account h ?_, hu.names ▸ h.flows_nodup, hu.log_known h, ?_, ?_, hgr, hkeeps, hunk⟩
  · intro other hoth heq hacc
    obtain rfl := h.flow_unique hflow hoth (heq.trans hdev)
    have hle := UInt64.le_iff_toNat_le.mp hbytes
    have hlt := UInt64.lt_iff_toNat_lt.mp hcnt
    have hmax := other.maxOutstanding.toNat_lt
    have hincr : (other.outstandingCount + 1).toNat = other.outstandingCount.toNat + 1 := by
      rw [UInt64.toNat_add]
      exact Nat.mod_eq_of_lt (by change _ + 1 < _; omega)
    refine ⟨?_, ?_, ?_, ?_, ?_⟩
    · have hbal := hacc.balance
      simp [ledger, commitGrant, chargeFlow, entryBytes, addedBytes, settledBytes,
        UInt64.toNat_sub_of_le _ _ hbytes] at hbal ⊢
      omega
    · have hinit := hacc.initial_lt
      simpa [ledger, commitGrant, addedBytes] using hinit
    · have hgrs := hacc.count
      simp [ledger, commitGrant, chargeFlow, hincr] at hgrs ⊢
      omega
    · rw [UInt64.le_iff_toNat_le]
      simp only [chargeFlow, hincr]
      omega
    · have hbook := hacc.retired
      simpa [ledger, commitGrant, chargeFlow] using hbook
  · simp only [commitGrant, map_append, map_cons, map_nil]
    exact nodup_append.mpr ⟨h.tokens_nodup, by simp, by
      rintro token hmem _ hnew rfl
      rw [mem_singleton.mp hnew] at hmem
      exact htok hmem⟩
  · have hperm := h.grants_perm
    have hset : [SchedulerEvent.granted grant.token grant.deviceId grant.bytes].filterMap settledKey
        = [] := rfl
    simp only [commitGrant, filterMap_append, map_append, hset, append_nil]
    refine (hperm.append_right _).trans ?_
    rw [append_assoc, append_assoc]
    exact perm_append_comm.append_left _

/-! ### Settlements -/

theorem FlowAccount.settle {entry : Outstanding} {result : TransferPermitSettlement}
    (hacc : FlowAccount flow (ledger entry.deviceId s)) (hmem : (token, entry) ∈ s.outstanding)
    (hout : s'.outstanding = s.outstanding.erase (token, entry))
    (hlog : s'.log = s.log ++ settleEvents token entry.deviceId entry.bytes result) :
    FlowAccount (settleFlow entry.bytes result flow) (ledger entry.deviceId s') := by
  have hperm := perm_cons_erase hmem
  have hsum := (hperm.map (entryBytes entry.deviceId)).sum_eq
  have hcnt := hperm.countP_eq fun other => decide (other.2.deviceId = entry.deviceId)
  have hent : entryBytes entry.deviceId (token, entry) = entry.bytes.toNat := if_pos rfl
  rw [map_cons, sum_cons, hent, ← hout] at hsum
  rw [countP_cons_of_pos (by simp), ← hout] at hcnt
  obtain ⟨hbal, hinit, hgrs, hle, hret⟩ := hacc
  simp only [ledger] at hbal hinit hgrs hret
  rw [UInt64.le_iff_toNat_le] at hle
  have hdecr : (flow.outstandingCount - 1).toNat = flow.outstandingCount.toNat - 1 :=
    UInt64.toNat_sub_of_le _ _ (UInt64.le_iff_toNat_le.mpr (by change 1 ≤ _; omega))
  have hadded : (s'.log.map (addedBytes entry.deviceId)).sum
      = (s.log.map (addedBytes entry.deviceId)).sum := by
    cases result <;> simp [hlog, settleEvents, addedBytes]
  refine ⟨?_, ?_, ?_, ?_, ?_⟩
  · cases result with
    | fullyTransferred =>
        simp [ledger, settleFlow, hlog, settleEvents, settledBytes, addedBytes]
        omega
    | notSubmitted =>
        have hsaturated : (saturatingAdd flow.remaining entry.bytes).toNat
            = flow.remaining.toNat + entry.bytes.toNat := toNat_saturatingAdd (by omega)
        simp [ledger, settleFlow, hlog, settleEvents, settledBytes, addedBytes, hsaturated]
        omega
    | partialOrUnknown =>
        simp [ledger, settleFlow, hlog, settleEvents, settledBytes, addedBytes]
        omega
  · simp only [ledger]
    omega
  · simp only [ledger, settleFlow, hdecr]
    omega
  · rw [UInt64.le_iff_toNat_le]
    simp only [settleFlow, hdecr]
    omega
  · cases result <;> simp [ledger, settleFlow, hlog, settleEvents, hret]

section

variable (h : Accounts s)
include h

theorem Accounts.lookup {entry : Outstanding} (hlookup : s.outstanding.lookup token = some entry) :
    (token, entry) ∈ s.outstanding ∧ .granted token entry.deviceId entry.bytes ∈ s.log := by
  obtain ⟨front, rest, hsplit, -⟩ := lookup_eq_some_iff.mp hlookup
  have hmem : (token, entry) ∈ s.outstanding := by
    rw [hsplit]
    exact mem_append_right _ mem_cons_self
  refine ⟨hmem, ?_⟩
  have hkey : entryKey (token, entry) ∈ s.log.filterMap grantKey :=
    h.grants_perm.mem_iff.mpr (mem_append_left _ (mem_map_of_mem hmem))
  obtain ⟨event, hev, heq⟩ := mem_filterMap.mp hkey
  cases event with
  | granted => cases heq; exact hev
  | added | settled | retired => cases heq

theorem Accounts.commitSettlement {entry : Outstanding}
    (hlookup : s.outstanding.lookup token = some entry) (result : TransferPermitSettlement) :
    Accounts (s.commitSettlement token entry result) := by
  obtain ⟨hmem, hgr⟩ := h.lookup hlookup
  have hperm := perm_cons_erase hmem
  have hu : Update entry.deviceId (settleFlow entry.bytes result)
      (settleEvents token entry.deviceId entry.bytes result) [(token, entry)] [] s
      (s.commitSettlement token entry result) := by
    refine ⟨rfl, fun _ => rfl, fun _ => h.log_known _ hgr, rfl, ?_, ?_, by simp, by simp⟩
    · cases result <;> simp [settleEvents, eventDevice]
    · rw [append_nil]
      exact perm_append_comm.trans hperm.symm
  obtain ⟨hgr', hkeeps, hunk⟩ := h.log_append
    (settleEvents token entry.deviceId entry.bytes result)
    (by cases result <;> simp [settleEvents]) (by cases result <;> simp [settleEvents, KeepsRetired])
    (by cases result <;> simp +contextual [settleEvents])
  refine ⟨hu.flow_account h ?_, hu.names ▸ h.flows_nodup, hu.log_known h, ?_, ?_, hgr', hkeeps,
    hunk⟩
  · intro flow _ _ hacc
    exact hacc.settle hmem rfl rfl
  · exact h.tokens_nodup.sublist (erase_sublist.map _)
  · have hgrs : (settleEvents token entry.deviceId entry.bytes result).filterMap grantKey = [] := by
      cases result <;> rfl
    have hset : (settleEvents token entry.deviceId entry.bytes result).filterMap settledKey
        = [entryKey (token, entry)] := by
      cases result <;> rfl
    have hkeys := (hperm.map entryKey).append_right (s.log.filterMap settledKey)
    simp only [WeightedControllerScheduler.commitSettlement, filterMap_append, hgrs, hset,
      append_nil]
    refine (h.grants_perm.trans hkeys).trans ?_
    rw [map_cons, cons_append, ← append_assoc]
    exact (perm_append_singleton _ _).symm

/-- `settle` keeps the accounts, and it leaves the budget alone. -/
theorem Accounts.settle (token : UInt64) (expectedDevice : String) (bytes : UInt64)
    (result : TransferPermitSettlement) :
    Accounts (s.settle token expectedDevice bytes result).2 ∧
      (s.settle token expectedDevice bytes result).2.budget = s.budget := by
  unfold WeightedControllerScheduler.settle
  cases hlookup : s.outstanding.lookup token with
  | none => exact ⟨h, rfl⟩
  | some entry =>
      dsimp only
      split_ifs
      · exact ⟨h, rfl⟩
      · cases s.findFlow entry.deviceId with
        | none => exact ⟨h, rfl⟩
        | some flow =>
            dsimp only
            split_ifs
            · exact ⟨h, rfl⟩
            · exact ⟨h.commitSettlement hlookup result, rfl⟩

/-- The device of an outstanding grant has a flow that counts it. -/
theorem Accounts.flow_of_lookup {entry : Outstanding}
    (hlookup : s.outstanding.lookup token = some entry) :
    ∃ flow, s.findFlow entry.deviceId = some flow ∧ flow.outstandingCount ≠ 0 := by
  obtain ⟨hmem, hgr⟩ := h.lookup hlookup
  obtain ⟨known, hknown, hid⟩ := mem_map.mp (h.log_known _ hgr)
  have hsome : (s.findFlow entry.deviceId).isSome := by
    rw [WeightedControllerScheduler.findFlow, find?_isSome]
    exact ⟨known, hknown, decide_eq_true hid⟩
  obtain ⟨flow, hfind⟩ := Option.isSome_iff_exists.mp hsome
  refine ⟨flow, hfind, fun hzero => ?_⟩
  obtain ⟨hflow, hdev⟩ := findFlow_eq_some hfind
  have hcnt := (h.flows flow hflow).count
  rw [hzero, hdev] at hcnt
  exact countP_eq_zero.mp hcnt.symm _ hmem (by simp)

/-- `settle` is for a grant that is outstanding with that size, and with that device if one is
expected. -/
theorem Accounts.settle_eq (token : UInt64) (expectedDevice : String) (bytes : UInt64)
    (result : TransferPermitSettlement) :
    (∃ deviceId, (token, ⟨deviceId, bytes⟩) ∈ s.outstanding ∧
        (expectedDevice = "" ∨ deviceId = expectedDevice) ∧
        s.settle token expectedDevice bytes result =
          (true, s.commitSettlement token ⟨deviceId, bytes⟩ result)) ∨
      (∀ deviceId, (token, ⟨deviceId, bytes⟩) ∈ s.outstanding →
        ¬ (expectedDevice = "" ∨ deviceId = expectedDevice)) ∧
        s.settle token expectedDevice bytes result = (false, s) := by
  unfold WeightedControllerScheduler.settle
  cases hlookup : s.outstanding.lookup token with
  | none =>
      refine .inr ⟨fun deviceId hmem => ?_, rfl⟩
      simp [lookup_of_mem h.tokens_nodup hmem] at hlookup
  | some entry =>
      obtain ⟨flow, hfind, hcnt⟩ := h.flow_of_lookup hlookup
      simp only [hfind, if_neg hcnt]
      split_ifs with hother
      · refine .inr ⟨fun deviceId hmem hdev => ?_, rfl⟩
        rw [lookup_of_mem h.tokens_nodup hmem] at hlookup
        cases hlookup
        rcases hother with hbytes | ⟨hexp, hne⟩
        · exact hbytes rfl
        · exact hdev.elim hexp hne
      · rw [not_or, not_not] at hother
        obtain ⟨rfl, hdev⟩ := hother
        exact .inl ⟨entry.deviceId, (h.lookup hlookup).1, by grind, rfl⟩

/-! ### The other calls -/

theorem Accounts.retire (deviceId : String) :
    Accounts (s.retire deviceId).2 ∧ (s.retire deviceId).2.budget = s.budget := by
  unfold WeightedControllerScheduler.retire
  cases hfind : s.findFlow deviceId with
  | none => exact ⟨h, rfl⟩
  | some found =>
      refine ⟨?_, rfl⟩
      obtain ⟨hfound, hid⟩ := findFlow_eq_some hfind
      have hu : Update deviceId (fun flow => { flow with retired := true, requested := false })
          [.retired deviceId] [] [] s
          { s.updateFlow deviceId fun flow => { flow with retired := true, requested := false }
            with log := s.log ++ [.retired deviceId] } := by
        refine ⟨rfl, fun _ => rfl, fun _ => ?_, rfl, by simp [eventDevice], by simp [updateFlow],
          by simp, by simp⟩
        rw [← hid]
        exact mem_map_of_mem hfound
      obtain ⟨hgr, hkeeps, hunk⟩ := h.log_append [.retired deviceId] (by simp)
        (pairwise_singleton _ _) (by simp)
      refine ⟨hu.flow_account h ?_, hu.names ▸ h.flows_nodup, hu.log_known h, h.tokens_nodup, ?_,
        hgr, hkeeps, hunk⟩
      · intro flow _ _ hacc
        obtain ⟨hbal, hinit, hcnt, hle, -⟩ := hacc
        refine ⟨?_, ?_, hcnt, hle, ?_⟩
        · simpa [ledger, updateFlow, addedBytes, settledBytes] using hbal
        · simpa [ledger, updateFlow, addedBytes] using hinit
        · simp [ledger]
      · have hgrs : [SchedulerEvent.retired deviceId].filterMap grantKey = [] := rfl
        have hset : [SchedulerEvent.retired deviceId].filterMap settledKey = [] := rfl
        simp only [filterMap_append, hgrs, hset, append_nil]
        exact h.grants_perm

theorem Accounts.waitEnds (deviceId : String) (notified : Bool) :
    Accounts (s.waitEnds deviceId notified).2 ∧ (s.waitEnds deviceId notified).2.budget = s.budget := by
  unfold WeightedControllerScheduler.waitEnds
  split_ifs
  · cases s.findFlow deviceId with
    | none => exact ⟨h, rfl⟩
    | some flow => exact ⟨h, rfl⟩
  · exact ⟨h.control rfl rfl rfl (fun _ => rfl) fun _ _ _ _ hacc =>
      ⟨hacc.balance, hacc.initial_lt, hacc.count, hacc.count_le, hacc.retired⟩, rfl⟩

theorem Accounts.makePermitProvider (deviceId : String) (maxOutstanding : UInt64) :
    Accounts (s.makePermitProvider deviceId maxOutstanding).2 ∧
      (s.makePermitProvider deviceId maxOutstanding).2.budget = s.budget := by
  unfold WeightedControllerScheduler.makePermitProvider
  cases hfind : s.findFlow deviceId with
  | none => exact ⟨h, rfl⟩
  | some flow =>
      dsimp only
      split_ifs with href
      · exact ⟨h, rfl⟩
      · obtain ⟨hflow, hid⟩ := findFlow_eq_some hfind
        refine ⟨h.control rfl rfl rfl (fun _ => rfl) ?_, rfl⟩
        intro other hoth heq book hacc
        obtain rfl := h.flow_unique hflow hoth (heq.trans hid.symm)
        refine ⟨hacc.balance, hacc.initial_lt, hacc.count, ?_, hacc.retired⟩
        -- No grant of the flow is outstanding, so any bound will do.
        have hzero : other.outstandingCount = 0 := by
          by_contra hne
          exact href (.inr (.inl hne))
        rw [UInt64.le_iff_toNat_le]
        change other.outstandingCount.toNat ≤ _
        rw [hzero]
        exact Nat.zero_le _

theorem Accounts.ledger_unknown (hunk : deviceId ∉ s.flows.map Flow.deviceId) :
    ledger deviceId s = ⟨0, 0, 0, 0, 0, false⟩ := by
  have hlog : ∀ event ∈ s.log, eventDevice event ≠ deviceId := by
    rintro event hev rfl
    exact hunk (h.log_known event hev)
  have hevs : ∀ f : SchedulerEvent → ℕ, (∀ event, eventDevice event ≠ deviceId → f event = 0) →
      (s.log.map f).sum = 0 := by
    intro f hf
    exact sum_eq_zero (forall_mem_map.mpr fun event hev => hf event (hlog event hev))
  have hents : ∀ entry ∈ s.outstanding, entry.2.deviceId ≠ deviceId := by
    rintro entry hent rfl
    have hkey : entryKey entry ∈ s.log.filterMap grantKey :=
      h.grants_perm.mem_iff.mpr (mem_append_left _ (mem_map_of_mem hent))
    obtain ⟨event, hev, heq⟩ := mem_filterMap.mp hkey
    refine hlog event hev ?_
    cases event <;> cases heq
    rfl
  have hret : SchedulerEvent.retired deviceId ∉ s.log := fun hmem => hlog _ hmem rfl
  simp only [ledger, DeviceLedger.mk.injEq, decide_eq_false_iff_not]
  refine ⟨hevs _ fun _ => addedBytes_other, ?_, ?_, hevs _ fun _ => settledBytes_other,
    hevs _ fun _ => settledBytes_other, hret⟩
  · exact sum_eq_zero (forall_mem_map.mpr fun entry hent =>
      if_neg (hents entry hent))
  · exact countP_eq_zero.mpr fun entry hent => by simpa using hents entry hent

theorem Accounts.addFlow_new (flow : Flow) (hunk : flow.deviceId ∉ s.flows.map Flow.deviceId)
    (hflows : s'.flows = s.flows ++ [flow]) (hout : s'.outstanding = s.outstanding)
    (hlog : s'.log = s.log ++ [.added flow.deviceId flow.remaining])
    (hcnt : flow.outstandingCount = 0) (hret : flow.retired = false) : Accounts s' := by
  have hperm : (s'.outstanding ++ []).Perm (s.outstanding ++ []) := by rw [hout]
  have hled : ∀ other, other ≠ flow.deviceId → ledger other s' = ledger other s := fun other =>
    ledger_other hlog (by simp [eventDevice]) hperm (by simp) (by simp)
  have hnew : ledger flow.deviceId s' = ⟨flow.remaining.toNat, 0, 0, 0, 0, false⟩ := by
    have hemp := h.ledger_unknown hunk
    simp only [ledger, DeviceLedger.mk.injEq, decide_eq_false_iff_not] at hemp
    obtain ⟨hinit, hbytes, hgrs, htran, hlost, hopen⟩ := hemp
    simp [ledger, hlog, hout, hinit, hbytes, hgrs, htran, hlost, hopen, addedBytes, settledBytes]
  have hlaws := h.log_append [.added flow.deviceId flow.remaining] (by simp)
    (pairwise_singleton _ _) (by simp)
  rw [← hlog] at hlaws
  refine ⟨?_, ?_, ?_, hout ▸ h.tokens_nodup, ?_, hlaws.1, hlaws.2.1, hlaws.2.2⟩
  · rw [hflows, forall_mem_append, forall_mem_singleton]
    refine ⟨fun other hold => ?_, ?_⟩
    · have hne : other.deviceId ≠ flow.deviceId := by
        intro heq
        exact hunk (heq ▸ mem_map_of_mem hold)
      rw [hled _ hne]
      exact h.flows other hold
    · rw [hnew]
      refine ⟨by simp, flow.remaining.toNat_lt, by simp [hcnt], ?_, hret⟩
      rw [UInt64.le_iff_toNat_le, hcnt]
      exact Nat.zero_le _
  · rw [hflows, map_append]
    exact nodup_append.mpr ⟨h.flows_nodup, by simp, by
      rintro deviceId hmem _ hlast rfl
      rw [mem_singleton.mp hlast] at hmem
      exact hunk hmem⟩
  · rw [hflows, hlog, map_append, forall_mem_append, forall_mem_singleton]
    exact ⟨fun event hold => mem_append_left _ (h.log_known event hold),
      mem_append_right _ (by simp [eventDevice])⟩
  · have hgrs : [SchedulerEvent.added flow.deviceId flow.remaining].filterMap grantKey = [] := rfl
    have hset : [SchedulerEvent.added flow.deviceId flow.remaining].filterMap settledKey = [] := rfl
    rw [hlog, hout, filterMap_append, filterMap_append, hgrs, hset, append_nil, append_nil]
    exact h.grants_perm

theorem Accounts.addFlow (spec : DeviceFlowSpec) :
    Accounts (s.addFlow spec).2 ∧ (s.addFlow spec).2.budget = s.budget := by
  unfold WeightedControllerScheduler.addFlow
  split_ifs with href
  · exact ⟨h, rfl⟩
  · refine ⟨?_, rfl⟩
    have hunk : spec.deviceId ∉ s.flows.map Flow.deviceId := by
      intro hmem
      obtain ⟨flow, hflow, heq⟩ := mem_map.mp hmem
      refine href (.inr (.inr (.inr (.inr (.inr (.inr ?_))))))
      rw [findFlow, find?_isSome]
      exact ⟨flow, hflow, by simpa using heq⟩
    exact h.addFlow_new (newFlow spec) hunk rfl rfl rfl rfl rfl

end

/-! ### Dispatching -/

/-- What `try_acquire` does to the budget for a lease, if there is one. -/
def Charged (lease : Option UInt64) (budget budget' : BufferBudget) : Prop :=
  match lease with
  | none => budget' = budget
  | some bytes => budget.tryAcquire bytes = some budget'

/-- The grant, if there is one, is logged and outstanding. -/
structure Grants (grant : Option Grant) (s s' : WeightedControllerScheduler) : Prop where
  outstanding : s'.outstanding = s.outstanding ++
    (grant.map fun grant => (grant.token, ⟨grant.deviceId, grant.bytes⟩)).toList
  log : s'.log = s.log ++
    (grant.map fun grant => .granted grant.token grant.deviceId grant.bytes).toList

/-- The accounts are kept, and the grant has its lease. -/
structure Dispatched (s : WeightedControllerScheduler) (grant : Option Grant)
    (s' : WeightedControllerScheduler) : Prop where
  accounts : Accounts s'
  charged : Charged (grant.bind Grant.memory) s.budget s'.budget
  grants : Grants grant s s'

theorem Dispatched.refuse (h : Accounts s') (hbud : s'.budget = s.budget)
    (hout : s'.outstanding = s.outstanding) (hlog : s'.log = s.log) : Dispatched s none s' :=
  ⟨h, hbud, by simpa using hout, by simpa using hlog⟩

theorem Dispatched.trans {s'' : WeightedControllerScheduler} {grant : Option Grant}
    (h : Dispatched s' grant s'') (hfirst : Dispatched s none s') : Dispatched s grant s'' := by
  have hbud : s'.budget = s.budget := hfirst.charged
  have hout : s'.outstanding = s.outstanding := by simpa using hfirst.grants.outstanding
  have hlog : s'.log = s.log := by simpa using hfirst.grants.log
  exact ⟨h.accounts, hbud ▸ h.charged, hout ▸ h.grants.outstanding, hlog ▸ h.grants.log⟩

def Attempt.grant : Attempt → Option Grant
  | .granted grant _ => some grant
  | _ => none

section

variable (h : Accounts s)
include h

theorem attempt_dispatched (hflow : flow ∈ s.flows) (maximumBytes : UInt64)
    (requiredDevice : String) :
    Dispatched s (Attempt.grant (attempt maximumBytes requiredDevice flow s).1)
      (attempt maximumBytes requiredDevice flow s).2 := by
  unfold attempt
  split_ifs with hblkd hoth
  · exact .refuse h rfl rfl rfl
  · exact .refuse h rfl rfl rfl
  · generalize hdes : smaller (smaller maximumBytes s.budget.available) flow.remaining = desired
    generalize turnDeficit s.quantum flow = deficit
    have hturn : Accounts (s.updateFlow flow.deviceId fun flow => { flow with deficit := deficit }) :=
      h.control rfl rfl rfl (fun _ => rfl) fun _ _ _ _ hacc => ⟨hacc.balance,
        hacc.initial_lt, hacc.count, hacc.count_le, hacc.retired⟩
    have hflow' : { flow with deficit := deficit } ∈
        (s.updateFlow flow.deviceId fun flow => { flow with deficit := deficit }).flows :=
      mem_map.mpr ⟨flow, hflow, if_pos rfl⟩
    dsimp only
    split_ifs with hnone hzero
    · exact .refuse h rfl rfl rfl
    · exact .refuse hturn rfl rfl rfl
    · split
      next budget token nextToken hacq htok =>
        simp only [blocked, decide_eq_true_eq, not_or] at hblkd
        refine ⟨hturn.grant hflow' rfl ?_ ?_ ?_ hzero (allocateToken_spec htok).2 _ _, ?_,
          rfl, rfl⟩
        · simpa using hblkd.2.1
        · rw [UInt64.lt_iff_toNat_lt]
          have hcnt := hblkd.2.2.2
          rw [UInt64.le_iff_toNat_le] at hcnt
          exact Nat.lt_of_not_le hcnt
        · rw [UInt64.le_iff_toNat_le]
          refine le_trans (smaller_le_right _ _) ?_
          rw [← hdes]
          exact smaller_le_right _ _
        · exact hacq
      · exact .refuse hturn rfl rfl rfl

theorem attempts_dispatched (maximumBytes : UInt64) (requiredDevice : String) (count : ℕ)
    (controller : Controller) :
    Dispatched s (attempts maximumBytes requiredDevice count controller s).1
      (attempts maximumBytes requiredDevice count controller s).2.2 := by
  induction count generalizing s controller with
  | zero => exact .refuse h rfl rfl rfl
  | succ count ih =>
      rw [attempts]
      dsimp only
      split
      · exact .refuse h rfl rfl rfl
      next flow hfound =>
        obtain ⟨deviceId, -, hfind⟩ := Option.bind_eq_some_iff.mp hfound
        have hdisp := attempt_dispatched h (findFlow_eq_some hfind).1 maximumBytes requiredDevice
        split
        next hskip =>
          rw [hskip] at hdisp
          exact (ih hdisp.accounts _).trans hdisp
        next href =>
          rw [href] at hdisp
          exact hdisp
        next grant turnOver hgr =>
          rw [hgr] at hdisp
          exact hdisp

theorem nextForController_dispatched (controller : Controller) (maximumBytes : UInt64)
    (requiredDevice : String) :
    Dispatched s (nextForController controller maximumBytes requiredDevice s).1
      (nextForController controller maximumBytes requiredDevice s).2 := by
  unfold nextForController
  split_ifs
  · exact .refuse h rfl rfl rfl
  · have hdisp := attempts_dispatched h maximumBytes requiredDevice controller.flows.length
      controller
    exact ⟨hdisp.accounts.congr rfl rfl rfl, hdisp.charged, hdisp.grants.outstanding,
      hdisp.grants.log⟩

theorem nextLoop_dispatched (maximumBytes : UInt64) (count : ℕ) :
    Dispatched s (nextLoop maximumBytes count s).1 (nextLoop maximumBytes count s).2 := by
  induction count generalizing s with
  | zero => exact .refuse h rfl rfl rfl
  | succ count ih =>
      rw [nextLoop]
      generalize hcurs : (if s.controllerOrder.length ≤ s.controllerCursor then 0
        else s.controllerCursor) = cursor
      have hmoved : Accounts { s with
          controllerCursor := (cursor + 1) % s.controllerOrder.length } := h.congr rfl rfl rfl
      dsimp only
      split
      · exact .refuse hmoved rfl rfl rfl
      next controller _ =>
        have hdisp := nextForController_dispatched hmoved controller maximumBytes ""
        split
        next grant hgrant =>
          rw [hgrant] at hdisp
          exact hdisp.trans (.refuse hmoved rfl rfl rfl)
        next hnone =>
          rw [hnone] at hdisp
          exact (ih hdisp.accounts).trans (hdisp.trans (.refuse hmoved rfl rfl rfl))

theorem next_dispatched (maximumBytes : UInt64) :
    Dispatched s (s.next maximumBytes).1 (s.next maximumBytes).2 := by
  unfold next
  split_ifs
  · exact .refuse h rfl rfl rfl
  · exact nextLoop_dispatched h maximumBytes _

theorem acquireFor_dispatched (deviceId : String) (maximumBytes : UInt64) :
    Dispatched s (s.acquireFor deviceId maximumBytes).1 (s.acquireFor deviceId maximumBytes).2 := by
  unfold acquireFor
  split_ifs
  · exact .refuse h rfl rfl rfl
  · cases s.findFlow deviceId with
    | none => exact .refuse h rfl rfl rfl
    | some flow =>
        dsimp only
        have hreq : Accounts (s.updateFlow deviceId fun flow =>
            { flow with requested := true }) :=
          h.control rfl rfl rfl (fun _ => rfl) fun _ _ _ _ hacc => ⟨hacc.balance,
            hacc.initial_lt, hacc.count, hacc.count_le, hacc.retired⟩
        split_ifs
        · exact .refuse h rfl rfl rfl
        · exact .refuse hreq rfl rfl rfl
        · split
          · exact .refuse hreq rfl rfl rfl
          next controller _ =>
            exact (nextForController_dispatched hreq controller maximumBytes deviceId).trans
              (.refuse hreq rfl rfl rfl)

end

end WeightedControllerScheduler

end KairosBoot
