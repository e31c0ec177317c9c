import Mathlib.Algebra.Order.BigOperators.Group.List
import KairosBoot.SchedulerAccounts

/-! # Runs of a fleet

Every step of a user of a scheduler keeps the accounts of the scheduler and the balance of the
budget: `fleet_laws` says what this means for every sequence of steps, and what a grant, a
settlement and a retirement do after it. -/

namespace KairosBoot

open List

/-! ### The budget -/

/-- The bytes that a lease is charged for. -/
def charge (lease : Option UInt64) : ℕ := lease.elim 0 UInt64.toNat

/-- The lease is kept, or it has been returned to the budget. -/
inductive Returned (lease lease' : Option UInt64) (budget budget' : BufferBudget) : Prop
  | kept : lease' = lease → budget' = budget → Returned lease lease' budget budget'
  | returned : lease' = none → budget'.used.toNat = budget.used.toNat - charge lease →
      budget'.limit = budget.limit → Returned lease lease' budget budget'

theorem tryAcquire_spec {budget budget' : BufferBudget} {bytes : UInt64}
    (h : budget.tryAcquire bytes = some budget') (hle : budget.used ≤ budget.limit) :
    budget'.used.toNat = budget.used.toNat + bytes.toNat ∧ budget'.used ≤ budget'.limit := by
  unfold BufferBudget.tryAcquire at h
  split_ifs at h with hzero hfull
  · cases h
    exact ⟨by simp [hzero], hle⟩
  · cases h
    rw [not_or, UInt64.lt_iff_toNat_lt, UInt64.lt_iff_toNat_lt,
      UInt64.toNat_sub_of_le _ _ hle] at hfull
    rw [UInt64.le_iff_toNat_le] at hle
    have hlim := budget.limit.toNat_lt
    have hsum : (budget.used + bytes).toNat = budget.used.toNat + bytes.toNat := by
      rw [UInt64.toNat_add]
      exact Nat.mod_eq_of_lt (by omega)
    refine ⟨hsum, ?_⟩
    rw [UInt64.le_iff_toNat_le, hsum]
    change _ ≤ budget.limit.toNat
    omega

theorem releaseLease_returned {s : WeightedControllerScheduler} {lease : Option UInt64}
    (hle : charge lease ≤ s.budget.used.toNat) :
    Returned lease none s.budget (s.releaseLease lease).budget := by
  cases lease with
  | none => exact .kept rfl rfl
  | some bytes =>
      refine .returned rfl ?_ rfl
      exact UInt64.toNat_sub_of_le _ _ (UInt64.le_iff_toNat_le.mpr hle)

namespace Fleet

open WeightedControllerScheduler

/-! ### Leases -/

/-- The sizes of the leases that are alive. -/
def liveLeases (fleet : Fleet) : List UInt64 :=
  fleet.dispatches.filterMap FleetDispatch.memory ++ fleet.permits.filterMap FleetPermit.buffer ++
    fleet.leases.filterMap id

def leasedBytes (fleet : Fleet) : ℕ := (fleet.liveLeases.map UInt64.toNat).sum

theorem sum_filterMap {α : Type} (f : α → Option UInt64) (l : List α) :
    ((l.filterMap f).map UInt64.toNat).sum = (l.map fun a => charge (f a)).sum := by
  induction l with
  | nil => rfl
  | cons a l ih =>
      cases hf : f a with
      | none => simp [hf, ih, charge]
      | some bytes => simp [hf, ih, charge]

theorem leasedBytes_eq (fleet : Fleet) :
    fleet.leasedBytes = (fleet.dispatches.map fun d => charge d.memory).sum +
      (fleet.permits.map fun p => charge p.buffer).sum + (fleet.leases.map charge).sum := by
  simp only [leasedBytes, liveLeases, map_append, sum_append, sum_filterMap, id]

theorem sum_map_set {α : Type} (g : α → ℕ) {l : List α} {index : ℕ} {a : α} (b : α)
    (h : l[index]? = some a) : ((l.set index b).map g).sum + g a = (l.map g).sum + g b := by
  induction l generalizing index with
  | nil => simp at h
  | cons head l ih =>
      cases index with
      | zero =>
          cases h
          simp only [set_cons_zero, map_cons, sum_cons]
          omega
      | succ index =>
          have htail := ih h
          simp only [set_cons_succ, map_cons, sum_cons]
          omega

theorem le_sum_map {α : Type} (g : α → ℕ) {l : List α} {index : ℕ} {a : α}
    (h : l[index]? = some a) : g a ≤ (l.map g).sum :=
  le_sum_of_mem (mem_map_of_mem (mem_of_getElem? h))

/-! ### Steps -/

structure FleetInvariant (fleet : Fleet) : Prop where
  accounts : Accounts fleet.scheduler
  used_eq : fleet.scheduler.budget.used.toNat = fleet.leasedBytes
  used_le : fleet.scheduler.budget.used ≤ fleet.scheduler.budget.limit

variable {fleet fleet' : Fleet}

theorem FleetInvariant.returned (h : FleetInvariant fleet) {lease lease' : Option UInt64}
    (haccs : Accounts fleet'.scheduler)
    (hleased : fleet'.leasedBytes + charge lease = fleet.leasedBytes + charge lease')
    (hle : charge lease ≤ fleet.leasedBytes)
    (hret : Returned lease lease' fleet.scheduler.budget fleet'.scheduler.budget) :
    FleetInvariant fleet' := by
  have hused := h.used_eq
  have hlim := h.used_le
  cases hret with
  | kept hlease hbud =>
      rw [hlease] at hleased
      refine ⟨haccs, ?_, ?_⟩
      · rw [hbud]
        omega
      · rw [hbud]
        exact hlim
  | returned hlease hreleased hsame =>
      rw [hlease] at hleased
      have hnone : charge none = 0 := rfl
      refine ⟨haccs, by omega, ?_⟩
      rw [UInt64.le_iff_toNat_le] at hlim ⊢
      rw [hsame]
      omega

theorem FleetInvariant.charged (h : FleetInvariant fleet) {lease : Option UInt64}
    (haccs : Accounts fleet'.scheduler)
    (hlease : fleet'.leasedBytes = fleet.leasedBytes + charge lease)
    (hchg : Charged lease fleet.scheduler.budget fleet'.scheduler.budget) :
    FleetInvariant fleet' := by
  cases lease with
  | none =>
      have hbud : fleet'.scheduler.budget = fleet.scheduler.budget := hchg
      refine ⟨haccs, ?_, ?_⟩
      · rw [hbud, hlease]
        exact h.used_eq
      · rw [hbud]
        exact h.used_le
  | some bytes =>
      obtain ⟨hused, hle⟩ := tryAcquire_spec hchg h.used_le
      refine ⟨haccs, ?_, hle⟩
      rw [hused, hlease, h.used_eq]
      rfl

theorem FleetInvariant.withDispatch (h : FleetInvariant fleet) (index : ℕ)
    {f : FleetDispatch → WeightedControllerScheduler → FleetDispatch × WeightedControllerScheduler}
    (hf : ∀ dispatch s, Accounts s → charge dispatch.memory ≤ s.budget.used.toNat →
      Accounts (f dispatch s).2 ∧
        Returned dispatch.memory (f dispatch s).1.memory s.budget (f dispatch s).2.budget) :
    FleetInvariant (fleet.withDispatch index f) := by
  unfold Fleet.withDispatch
  cases hdisp : fleet.dispatches[index]? with
  | none => exact h
  | some dispatch =>
      have hle : charge dispatch.memory ≤ fleet.leasedBytes := by
        have := le_sum_map (fun d : FleetDispatch => charge d.memory) hdisp
        rw [leasedBytes_eq]
        omega
      obtain ⟨haccs, hret⟩ := hf dispatch fleet.scheduler h.accounts (h.used_eq ▸ hle)
      refine h.returned haccs ?_ hle hret
      have hset := sum_map_set (fun d : FleetDispatch => charge d.memory)
        (f dispatch fleet.scheduler).1 hdisp
      rw [leasedBytes_eq, leasedBytes_eq]
      dsimp only at hset ⊢
      omega

theorem FleetInvariant.withPermit (h : FleetInvariant fleet) (index : ℕ)
    {f : FleetPermit → WeightedControllerScheduler → FleetPermit × WeightedControllerScheduler}
    (hf : ∀ permit s, Accounts s → charge permit.buffer ≤ s.budget.used.toNat →
      Accounts (f permit s).2 ∧
        Returned permit.buffer (f permit s).1.buffer s.budget (f permit s).2.budget) :
    FleetInvariant (fleet.withPermit index f) := by
  unfold Fleet.withPermit
  cases hpmt : fleet.permits[index]? with
  | none => exact h
  | some permit =>
      have hle : charge permit.buffer ≤ fleet.leasedBytes := by
        have := le_sum_map (fun p : FleetPermit => charge p.buffer) hpmt
        rw [leasedBytes_eq]
        omega
      obtain ⟨haccs, hret⟩ := hf permit fleet.scheduler h.accounts (h.used_eq ▸ hle)
      refine h.returned haccs ?_ hle hret
      have hset := sum_map_set (fun p : FleetPermit => charge p.buffer)
        (f permit fleet.scheduler).1 hpmt
      rw [leasedBytes_eq, leasedBytes_eq]
      dsimp only at hset ⊢
      omega

theorem releaseLease_accounts {s : WeightedControllerScheduler} (h : Accounts s)
    (lease : Option UInt64) : Accounts (s.releaseLease lease) := by
  cases lease with
  | none => exact h
  | some bytes => exact h.congr rfl rfl rfl

section Holders

variable {s : WeightedControllerScheduler}

theorem finish_returned (h : Accounts s) {dispatch : FleetDispatch}
    (hle : charge dispatch.memory ≤ s.budget.used.toNat) (result : FleetDispatchSettlement) :
    Accounts (finish dispatch result s).2 ∧
      Returned dispatch.memory (finish dispatch result s).1.memory s.budget
        (finish dispatch result s).2.budget := by
  unfold finish
  split_ifs with hzero
  · exact ⟨h, .kept rfl rfl⟩
  · obtain ⟨hset, hbud⟩ := h.settle dispatch.token dispatch.deviceId dispatch.bytes
      (permitSettlement result)
    dsimp only
    split_ifs
    · refine ⟨releaseLease_accounts hset _, ?_⟩
      rw [← hbud] at hle ⊢
      exact releaseLease_returned hle
    · exact ⟨hset, .kept rfl hbud⟩

theorem finishBytes_returned (h : Accounts s) {dispatch : FleetDispatch}
    (hle : charge dispatch.memory ≤ s.budget.used.toNat) (bytesNotSent : UInt64) :
    Accounts (finishBytes dispatch bytesNotSent s).2 ∧
      Returned dispatch.memory (finishBytes dispatch bytesNotSent s).1.memory s.budget
        (finishBytes dispatch bytesNotSent s).2.budget := by
  unfold finishBytes
  split_ifs
  · exact ⟨h, .kept rfl rfl⟩
  · exact finish_returned h hle _
  · exact finish_returned h hle _

theorem settlePermit_returned (h : Accounts s) {permit : FleetPermit}
    (hle : charge permit.buffer ≤ s.budget.used.toNat) (result : TransferPermitSettlement) :
    Accounts (settlePermit permit result s).2 ∧
      Returned permit.buffer (settlePermit permit result s).1.buffer s.budget
        (settlePermit permit result s).2.budget := by
  unfold settlePermit
  cases hbuf : permit.buffer with
  | none => exact ⟨h, .kept rfl rfl⟩
  | some bytes =>
      obtain ⟨hset, hbud⟩ := h.settle permit.token "" bytes result
      dsimp only
      refine ⟨releaseLease_accounts hset _, ?_⟩
      rw [hbuf] at hle
      rw [← hbud] at hle ⊢
      exact releaseLease_returned hle

end Holders

/-- A call that leaves the budget and the holders alone. -/
theorem FleetInvariant.call (h : FleetInvariant fleet)
    (hcall : Accounts fleet'.scheduler ∧ fleet'.scheduler.budget = fleet.scheduler.budget)
    (hlease : fleet'.leasedBytes = fleet.leasedBytes) : FleetInvariant fleet' := by
  have hchg : Charged none fleet.scheduler.budget fleet'.scheduler.budget := hcall.2
  have hsame : fleet'.leasedBytes = fleet.leasedBytes + charge none := hlease
  exact h.charged hcall.1 hsame hchg

theorem sum_map_append_grant {α : Type} (g : α → ℕ) (l : List α) (grant : Option Grant)
    {hold : Grant → α} (hg : ∀ grant, g (hold grant) = charge grant.memory) :
    ((l ++ (grant.map hold).toList).map g).sum =
      (l.map g).sum + charge (grant.bind Grant.memory) := by
  cases grant with
  | none => simp [charge]
  | some grant => simp [hg]

theorem FleetInvariant.next (h : FleetInvariant fleet) (maximumBytes : UInt64) :
    FleetInvariant (fleet.step (.next maximumBytes)) := by
  obtain ⟨haccs, hchg, -⟩ := next_dispatched h.accounts maximumBytes
  refine h.charged haccs ?_ hchg
  rw [leasedBytes_eq, leasedBytes_eq]
  simp only [Fleet.step]
  rw [sum_map_append_grant (fun d : FleetDispatch => charge d.memory) _ _ fun _ => rfl]
  omega

theorem FleetInvariant.tryAcquire (h : FleetInvariant fleet) (index : ℕ) (maximumBytes : UInt64) :
    FleetInvariant (fleet.step (.tryAcquire index maximumBytes)) := by
  simp only [Fleet.step]
  cases fleet.providers[index]? with
  | none => exact h
  | some provider =>
      dsimp only
      split_ifs
      · exact h
      · obtain ⟨haccs, hchg, -⟩ := acquireFor_dispatched h.accounts provider.deviceId maximumBytes
        refine h.charged haccs ?_ hchg
        rw [leasedBytes_eq, leasedBytes_eq]
        dsimp only
        rw [sum_map_append_grant (fun p : FleetPermit => charge p.buffer) _ _ fun _ => rfl]
        omega

theorem FleetInvariant.cancelWait (h : FleetInvariant fleet) (index : ℕ) :
    FleetInvariant (fleet.step (.cancelWait index)) := by
  simp only [Fleet.step]
  cases fleet.providers[index]? with
  | none => exact h
  | some provider =>
      refine h.call ?_ rfl
      unfold Fleet.cancelWait
      dsimp only
      split_ifs
      · exact ⟨h.accounts, rfl⟩
      · exact h.accounts.retire provider.deviceId

theorem FleetInvariant.acquireLease (h : FleetInvariant fleet) (bytes : UInt64) :
    FleetInvariant (fleet.step (.acquireLease bytes)) := by
  simp only [Fleet.step]
  cases hacq : fleet.scheduler.budget.tryAcquire bytes with
  | none => exact h
  | some budget =>
      have hchg : Charged (some bytes) fleet.scheduler.budget budget := hacq
      refine h.charged (h.accounts.congr rfl rfl rfl) ?_ hchg
      rw [leasedBytes_eq, leasedBytes_eq]
      simp only [map_append, sum_append, map_cons, map_nil, sum_cons, sum_nil]
      omega

theorem FleetInvariant.releaseLease (h : FleetInvariant fleet) (index : ℕ) :
    FleetInvariant (fleet.step (.releaseLease index)) := by
  simp only [Fleet.step]
  cases hlease : fleet.leases[index]? with
  | none => exact h
  | some lease =>
      have hle : charge lease ≤ fleet.leasedBytes := by
        have := le_sum_map charge hlease
        rw [leasedBytes_eq]
        omega
      refine h.returned (releaseLease_accounts h.accounts lease) ?_ hle
        (releaseLease_returned (h.used_eq ▸ hle))
      have hset := sum_map_set charge none hlease
      rw [leasedBytes_eq, leasedBytes_eq]
      dsimp only
      omega

/-- Every step keeps the invariant. -/
theorem FleetInvariant.step (h : FleetInvariant fleet) (step : Step) :
    FleetInvariant (fleet.step step) := by
  cases step with
  | addFlow spec => exact h.call (h.accounts.addFlow spec) rfl
  | next maximumBytes => exact h.next maximumBytes
  | finish index result =>
      exact h.withDispatch index fun dispatch s haccs hle => finish_returned haccs hle result
  | finishBytes index bytesNotSent =>
      exact h.withDispatch index fun dispatch s haccs hle =>
        finishBytes_returned haccs hle bytesNotSent
  | dropDispatch index =>
      rw [Fleet.step]
      refine h.withDispatch index ?_
      intro dispatch s haccs hle
      exact ⟨releaseLease_accounts haccs _, releaseLease_returned hle⟩
  | makePermitProvider deviceId maxOutstanding =>
      exact h.call (h.accounts.makePermitProvider deviceId maxOutstanding) rfl
  | tryAcquire index maximumBytes => exact h.tryAcquire index maximumBytes
  | markSubmissionAttempted index =>
      exact h.withPermit index fun permit s haccs _ => ⟨haccs, .kept rfl rfl⟩
  | settle index result =>
      exact h.withPermit index fun permit s haccs hle => settlePermit_returned haccs hle result
  | dropPermit index =>
      exact h.withPermit index fun permit s haccs hle => settlePermit_returned haccs hle _
  | waitEnds index notified =>
      simp only [Fleet.step]
      cases fleet.providers[index]? with
      | none => exact h
      | some provider => exact h.call (h.accounts.waitEnds provider.deviceId notified) rfl
  | cancelWait index => exact h.cancelWait index
  | retireFlow deviceId => exact h.call (h.accounts.retire deviceId) rfl
  | acquireLease bytes => exact h.acquireLease bytes
  | releaseLease index => exact h.releaseLease index

theorem after_invariant (hasBudget : Bool) (quantum limit : UInt64) (steps : List Step) :
    FleetInvariant (after hasBudget quantum limit steps) := by
  have hnew : FleetInvariant (new hasBudget quantum limit) := by
    refine ⟨accounts_new hasBudget quantum _, rfl, ?_⟩
    rw [UInt64.le_iff_toNat_le]
    exact Nat.zero_le _
  unfold after
  generalize new hasBudget quantum limit = fleet at hnew
  induction steps generalizing fleet with
  | nil => exact hnew
  | cons step steps ih => exact ih _ (hnew.step step)

/-! ### Settlements and retirements -/

/-- The settlement of a grant is logged, and the grant is no longer outstanding. -/
structure Settles (token : UInt64) (deviceId : String) (bytes : UInt64)
    (result : TransferPermitSettlement) (s s' : WeightedControllerScheduler) : Prop where
  outstanding : s.outstanding.Perm ((token, ⟨deviceId, bytes⟩) :: s'.outstanding)
  log : s'.log = s.log ++ settleEvents token deviceId bytes result

/-- The device has a flow, the flow is retired, and this is logged. -/
structure Retires (deviceId : String) (s s' : WeightedControllerScheduler) : Prop where
  log : s'.log = s.log ++ [.retired deviceId]
  known : ∃ flow ∈ s'.flows, flow.deviceId = deviceId
  retired : ∀ flow ∈ s'.flows, flow.deviceId = deviceId → flow.retired = true

section Calls

variable {s : WeightedControllerScheduler} {token bytes : UInt64} {deviceId : String}

theorem Settles.releaseLease {s' : WeightedControllerScheduler} {result : TransferPermitSettlement}
    (h : Settles token deviceId bytes result s s') (lease : Option UInt64) :
    Settles token deviceId bytes result s (s'.releaseLease lease) := by
  cases lease with
  | none => exact h
  | some charged => exact ⟨h.outstanding, h.log⟩

theorem settle_settles (h : Accounts s) (hmem : (token, ⟨deviceId, bytes⟩) ∈ s.outstanding)
    {expectedDevice : String} (hdev : expectedDevice = "" ∨ deviceId = expectedDevice)
    (result : TransferPermitSettlement) :
    (s.settle token expectedDevice bytes result).1 = true ∧
      Settles token deviceId bytes result s (s.settle token expectedDevice bytes result).2 := by
  rcases h.settle_eq token expectedDevice bytes result with ⟨other, hoth, -, heq⟩ | ⟨hnone, -⟩
  · have hsame := (PrefixTracking.lookup_of_mem h.tokens_nodup hmem).symm.trans
      (PrefixTracking.lookup_of_mem h.tokens_nodup hoth)
    cases hsame
    rw [heq]
    exact ⟨rfl, perm_cons_erase hmem, rfl⟩
  · exact absurd hdev (hnone deviceId hmem)

theorem settle_eq_true (h : Accounts s) {expectedDevice : String}
    {result : TransferPermitSettlement}
    (htrue : (s.settle token expectedDevice bytes result).1 = true) :
    ∃ deviceId, (token, ⟨deviceId, bytes⟩) ∈ s.outstanding ∧
      (expectedDevice = "" ∨ deviceId = expectedDevice) := by
  rcases h.settle_eq token expectedDevice bytes result with ⟨other, hoth, hdev, -⟩ | ⟨-, heq⟩
  · exact ⟨other, hoth, hdev⟩
  · rw [heq] at htrue
    cases htrue

theorem finish_settles (h : Accounts s) {dispatch : FleetDispatch} (htoken : dispatch.token ≠ 0)
    (hmem : (dispatch.token, ⟨dispatch.deviceId, dispatch.bytes⟩) ∈ s.outstanding)
    (result : FleetDispatchSettlement) :
    (finish dispatch result s).1.token = 0 ∧
      Settles dispatch.token dispatch.deviceId dispatch.bytes (permitSettlement result) s
        (finish dispatch result s).2 := by
  obtain ⟨htrue, hset⟩ := settle_settles h hmem (.inr rfl) (permitSettlement result)
  rw [finish, if_neg htoken]
  dsimp only
  rw [if_pos htrue]
  exact ⟨rfl, hset.releaseLease _⟩

theorem settlePermit_settles (h : Accounts s) {permit : FleetPermit}
    (hbuf : permit.buffer = some bytes) (hmem : (permit.token, ⟨deviceId, bytes⟩) ∈ s.outstanding)
    (result : TransferPermitSettlement) :
    Settles permit.token deviceId bytes result s (settlePermit permit result s).2 := by
  unfold settlePermit
  rw [hbuf]
  exact (settle_settles h hmem (.inl rfl) result).2.releaseLease (some bytes)

theorem retire_retires (htrue : (s.retire deviceId).1 = true) :
    Retires deviceId s (s.retire deviceId).2 := by
  unfold retire at htrue ⊢
  cases hfind : s.findFlow deviceId with
  | none =>
      rw [hfind] at htrue
      cases htrue
  | some flow =>
      obtain ⟨hflow, hid⟩ := findFlow_eq_some hfind
      refine ⟨rfl, ⟨_, mem_map_of_mem hflow, ?_⟩, ?_⟩
      · rw [if_pos hid]
        exact hid
      · intro other hother heq
        obtain ⟨before, -, rfl⟩ := mem_map.mp hother
        split_ifs at heq ⊢ with hsame
        · rfl
        · exact absurd heq hsame

theorem retire_iff : (s.retire deviceId).1 = true ↔ ∃ flow ∈ s.flows, flow.deviceId = deviceId := by
  have hfind : (s.findFlow deviceId).isSome ↔ ∃ flow ∈ s.flows, flow.deviceId = deviceId := by
    simp [findFlow]
  rw [← hfind]
  unfold retire
  cases s.findFlow deviceId <;> simp

end Calls

/-! ### What the accounts say -/

/-- What holds of a fleet after every sequence of steps. -/
structure FleetLaws (fleet : Fleet) : Prop where
  /-- Every byte of a flow is waiting, granted, transferred or lost. -/
  balance : ∀ flow ∈ fleet.scheduler.flows, ∀ book, book = ledger flow.deviceId fleet.scheduler →
    flow.remaining.toNat + book.outstanding + book.transferred + book.unknown = book.initial
  outstandingCount : ∀ flow ∈ fleet.scheduler.flows, flow.outstandingCount.toNat
    = fleet.scheduler.outstanding.countP (·.2.deviceId = flow.deviceId)
  outstandingCount_le : ∀ flow ∈ fleet.scheduler.flows, flow.outstandingCount ≤ flow.maxOutstanding
  /-- The outstanding grants are those that have been made and not been settled. -/
  outstanding_perm : (fleet.scheduler.log.filterMap grantKey).Perm
    (fleet.scheduler.outstanding.map entryKey ++ fleet.scheduler.log.filterMap settledKey)
  /-- No grant comes after a retirement. -/
  retired_last : fleet.scheduler.log.Pairwise KeepsRetired
  retired_iff : ∀ flow ∈ fleet.scheduler.flows,
    flow.retired = true ↔ .retired flow.deviceId ∈ fleet.scheduler.log
  unknown_retired : ∀ flow ∈ fleet.scheduler.flows, ∀ token bytes,
    .settled token flow.deviceId bytes .partialOrUnknown ∈ fleet.scheduler.log → flow.retired = true
  tokens_nodup : (fleet.scheduler.outstanding.map Prod.fst).Nodup
  granted_pos : ∀ token deviceId bytes, .granted token deviceId bytes ∈ fleet.scheduler.log →
    0 < bytes
  used_eq : fleet.scheduler.budget.used.toNat = fleet.leasedBytes
  used_le : fleet.scheduler.budget.used ≤ fleet.scheduler.budget.limit
  /-- A grant of `next` or `try_acquire` is logged and outstanding. -/
  granted : ∀ maximumBytes, Grants (fleet.scheduler.next maximumBytes).1 fleet.scheduler
    (fleet.scheduler.next maximumBytes).2
  acquired : ∀ deviceId maximumBytes,
    Grants (fleet.scheduler.acquireFor deviceId maximumBytes).1 fleet.scheduler
      (fleet.scheduler.acquireFor deviceId maximumBytes).2
  /-- `settle` succeeds exactly for an outstanding grant. -/
  settle_iff : ∀ token expectedDevice bytes result,
    (fleet.scheduler.settle token expectedDevice bytes result).1 = true ↔
      ∃ deviceId, (token, ⟨deviceId, bytes⟩) ∈ fleet.scheduler.outstanding ∧
        (expectedDevice = "" ∨ deviceId = expectedDevice)
  settled : ∀ token expectedDevice bytes result,
    (fleet.scheduler.settle token expectedDevice bytes result).1 = true →
      ∃ deviceId, Settles token deviceId bytes result fleet.scheduler
        (fleet.scheduler.settle token expectedDevice bytes result).2
  /-- `finish` settles the grant of its dispatch and clears the dispatch. -/
  finished : ∀ dispatch result, dispatch.token ≠ 0 →
    (dispatch.token, ⟨dispatch.deviceId, dispatch.bytes⟩) ∈ fleet.scheduler.outstanding →
      (finish dispatch result fleet.scheduler).1.token = 0 ∧
        Settles dispatch.token dispatch.deviceId dispatch.bytes (permitSettlement result)
          fleet.scheduler (finish dispatch result fleet.scheduler).2
  permitSettled : ∀ permit bytes deviceId result, permit.buffer = some bytes →
    (permit.token, ⟨deviceId, bytes⟩) ∈ fleet.scheduler.outstanding →
      Settles permit.token deviceId bytes result fleet.scheduler
        (settlePermit permit result fleet.scheduler).2
  retire_iff : ∀ deviceId, (fleet.scheduler.retire deviceId).1 = true ↔
    ∃ flow ∈ fleet.scheduler.flows, flow.deviceId = deviceId
  retires : ∀ deviceId, (fleet.scheduler.retire deviceId).1 = true →
    Retires deviceId fleet.scheduler (fleet.scheduler.retire deviceId).2

/-- Whatever the users of a scheduler do with their flows, dispatches, permits and providers. -/
theorem fleet_laws (hasBudget : Bool) (quantum limit : UInt64) (steps : List Step) :
    FleetLaws (after hasBudget quantum limit steps) := by
  obtain ⟨haccounts, hused, hle⟩ := after_invariant hasBudget quantum limit steps
  have hretired : ∀ flow ∈ (after hasBudget quantum limit steps).scheduler.flows,
      flow.retired = true ↔
        .retired flow.deviceId ∈ (after hasBudget quantum limit steps).scheduler.log := by
    intro flow hflow
    rw [(haccounts.flows flow hflow).retired]
    simp [ledger]
  refine ⟨?_, ?_, ?_, haccounts.grants_perm, haccounts.retired_last, hretired, ?_,
    haccounts.tokens_nodup, ?_, hused, hle, ?_, ?_, ?_, ?_, ?_, ?_, ?_, ?_⟩
  · rintro flow hflow _ rfl
    exact (haccounts.flows flow hflow).balance
  · intro flow hflow
    exact (haccounts.flows flow hflow).count
  · intro flow hflow
    exact (haccounts.flows flow hflow).count_le
  · intro flow hflow token bytes hmem
    exact (hretired flow hflow).mpr (haccounts.unknown_retired _ _ _ hmem)
  · intro token deviceId bytes hmem
    exact UInt64.pos_iff_ne_zero.mpr (haccounts.granted_pos token deviceId bytes hmem)
  · intro maximumBytes
    exact (next_dispatched haccounts maximumBytes).grants
  · intro deviceId maximumBytes
    exact (acquireFor_dispatched haccounts deviceId maximumBytes).grants
  · intro token expectedDevice bytes result
    refine ⟨settle_eq_true haccounts, ?_⟩
    rintro ⟨deviceId, hmem, hdev⟩
    exact (settle_settles haccounts hmem hdev result).1
  · intro token expectedDevice bytes result htrue
    obtain ⟨deviceId, hmem, hdev⟩ := settle_eq_true haccounts htrue
    exact ⟨deviceId, (settle_settles haccounts hmem hdev result).2⟩
  · intro dispatch result htoken hmem
    exact finish_settles haccounts htoken hmem result
  · intro permit bytes deviceId result hbuf hmem
    exact settlePermit_settles haccounts hbuf hmem result
  · exact fun deviceId => retire_iff
  · exact fun deviceId => retire_retires

/-- One grant is transferred, one is lost and retires its flow, and one is still outstanding. -/
def threeGrants : Fleet :=
  after true 4 16 [.addFlow ⟨"device", "controller", 1, 6, 2⟩, .addFlow ⟨"lost", "controller", 1, 4, 2⟩,
    .next 16, .next 16, .next 16, .finish 0 .fullyTransferred, .finish 1 .partialOrUnknown]

theorem threeGrants_settled :
    threeGrants.scheduler.log = [.added "device" 6, .added "lost" 4, .granted 1 "device" 4,
      .granted 2 "lost" 4, .granted 3 "device" 2, .settled 1 "device" 4 .fullyTransferred,
      .settled 2 "lost" 4 .partialOrUnknown, .retired "lost"] ∧
    Settles 3 "device" 2 .notSubmitted threeGrants.scheduler
      (threeGrants.scheduler.settle 3 "" 2 .notSubmitted).2 ∧
    (threeGrants.scheduler.settle 1 "" 4 .fullyTransferred).1 = false ∧
    Retires "device" threeGrants.scheduler (threeGrants.scheduler.retire "device").2 := by
  have hlaws : FleetLaws threeGrants := fleet_laws true 4 16 _
  refine ⟨by decide, ?_, by decide, ?_⟩
  · obtain ⟨deviceId, hset⟩ := hlaws.settled 3 "" 2 .notSubmitted (by decide)
    have hmem : (3, ⟨deviceId, 2⟩) ∈ threeGrants.scheduler.outstanding :=
      hset.outstanding.mem_iff.mpr mem_cons_self
    have hout : threeGrants.scheduler.outstanding = [(3, ⟨"device", 2⟩)] := by decide
    rw [hout, mem_singleton] at hmem
    cases hmem
    exact hset
  · exact hlaws.retires "device" (by decide)

end Fleet

end KairosBoot
