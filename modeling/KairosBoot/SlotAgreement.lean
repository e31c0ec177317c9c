import KairosBoot.SlotReplies

/-! # The two resolvers of the other slot

`PrimitiveUpdateDevice::resolve_partition` and `SlotPlanner::plan_partition` both find the partition
of the slot that is not the current one.  On a device that answers by a fixed table they read the
same variables in the same order, and a payload that only one of them would reject, one with a NUL,
is rejected by the other a step later (`plainValue`).  So they succeed for the same tables and
return the same name (`slot_other_resolvers_agree`). -/

namespace KairosBoot

open Outcomes SlotPlanner PrimitiveService PrimitiveUpdateDevice List

/-! ### Payloads with a NUL -/

/-- A character other than the separator is in one of the parts. -/
theorem exists_mem_splitOnP {α : Type} {p : α → Bool} {a : α} {l : List α} (hmem : a ∈ l)
    (hp : p a = false) : ∃ part ∈ l.splitOnP p, a ∈ part := by
  induction l with
  | nil => cases hmem
  | cons b l ih =>
      rw [splitOnP_cons_eq_if_modifyHead]
      obtain ⟨first, others, hsplit⟩ := exists_cons_of_ne_nil (splitOnP_ne_nil p l)
      rw [hsplit] at ih ⊢
      split_ifs with hb
      · rcases mem_cons.mp hmem with rfl | hmem
        · rw [hp] at hb
          cases hb
        · obtain ⟨part, hpart, ha⟩ := ih hmem
          exact ⟨part, mem_cons_of_mem _ hpart, ha⟩
      · rw [modifyHead_cons]
        rcases mem_cons.mp hmem with rfl | hmem
        · exact ⟨_, mem_cons_self, mem_cons_self⟩
        · obtain ⟨part, hpart, ha⟩ := ih hmem
          rcases mem_cons.mp hpart with rfl | hpart
          · exact ⟨_, mem_cons_self, mem_cons_of_mem _ ha⟩
          · exact ⟨part, mem_cons_of_mem _ hpart, ha⟩

theorem slotLetter_eq_some {value : List Char} {letter : Char}
    (h : slotLetter value = some letter) :
    (value = [letter] ∨ value = ['_', letter]) ∧ 'a' ≤ letter ∧ letter ≤ 'z' := by
  unfold slotLetter at h
  split at h
  · next c heq =>
    split_ifs at h with hc
    cases h
    refine ⟨?_, hc⟩
    split_ifs at heq with hhead
    · cases value with
      | nil => cases hhead
      | cons first rest =>
          obtain rfl : first = '_' := Option.some.inj hhead
          exact .inr (congrArg _ heq)
    · exact .inl heq
  · cases h

theorem slotLetter_of_nul {value : List Char} (h : Char.ofNat 0 ∈ value) :
    slotLetter value = none := by
  cases hlet : slotLetter value with
  | none => rfl
  | some letter =>
      obtain ⟨hval, hlow, -⟩ := slotLetter_eq_some hlet
      have hzero : ¬ 'a' ≤ Char.ofNat 0 := by decide
      rcases hval with rfl | rfl
      · obtain rfl := mem_singleton.mp h
        exact absurd hlow hzero
      · simp only [mem_cons, not_mem_nil, or_false] at h
        rcases h with h | rfl
        · exact absurd h (by decide)
        · exact absurd hlow hzero

theorem mapM_eq_none {α β : Type} {f : α → Option β} {l : List α} {a : α} (hmem : a ∈ l)
    (ha : f a = none) : l.mapM f = none := by
  induction l with
  | nil => cases hmem
  | cons b l ih =>
      rw [mapM_cons]
      rcases mem_cons.mp hmem with rfl | hmem
      · rw [ha]
        rfl
      · rw [ih hmem]
        cases f b with
        | none => rfl
        | some c => rfl

theorem slotsOfSuffixes_of_nul {payload : String} (h : Char.ofNat 0 ∈ payload.toList) :
    slotsOfSuffixes payload = none := by
  obtain ⟨token, htok, hnul⟩ := exists_mem_splitOnP (p := (· == ',')) h (by decide)
  unfold slotsOfSuffixes
  rw [show (payload.toList.splitOn ',').mapM slotLetter = none from
    mapM_eq_none htok (slotLetter_of_nul hnul)]
  rfl

/-- A value that the update device accepts. -/
def plainValue (table : ReplyTable) (key : String) : Option String :=
  (table.value key).bind fun payload => if Char.ofNat 0 ∈ payload.toList then none else some payload

/-- Where a NUL makes the next step fail, it does not matter that it is rejected early. -/
theorem plainValue_bind {α : Type} {f : String → Option α}
    (hf : ∀ payload : String, Char.ofNat 0 ∈ payload.toList → f payload = none) (table : ReplyTable)
    (key : String) : (plainValue table key).bind f = (table.value key).bind f := by
  unfold plainValue
  cases table.value key with
  | none => rfl
  | some payload =>
      simp only [Option.bind_some]
      split_ifs with hnul
      · exact (hf payload hnul).symm
      · rfl

/-! ### The update device -/

namespace PrimitiveUpdateDevice

variable {σ : Type} {port : SessionPort σ} {context : OperationContext σ} {table : ReplyTable}

theorem toOption_parseSlotCount (payload : String) :
    (parseSlotCount payload).toOption = slotsOfCount payload := by
  unfold parseSlotCount slotsOfCount
  cases fromCharsComplete payload with
  | none => rfl
  | some count =>
      simp only [Option.bind_some]
      split_ifs <;> rfl

theorem toOption_parseLegacySlotTopology (payload : String) :
    (parseLegacySlotTopology payload).toOption = slotsOfSuffixes payload := by
  unfold parseLegacySlotTopology slotsOfSuffixes
  cases (payload.toList.splitOn ',').mapM slotLetter with
  | none => rfl
  | some slots =>
      simp only [Option.bind_some]
      split_ifs <;> rfl

/-! ### Caches -/

variable {α : Type} {v : Option α}

/-- Nothing is known about the slots of the device. -/
structure Fresh (device : PrimitiveUpdateDevice σ) : Prop where
  currentSlot : device.currentSlot = none
  slotTopology : device.slotTopology = none
  hasSlot : device.hasSlot = []

/-- The topology and the current slot are not known. -/
structure TopologyUnknown (device : PrimitiveUpdateDevice σ) : Prop where
  currentSlot : device.currentSlot = none
  slotTopology : device.slotTopology = none

/-- A program on the outside decides what it decides there, and leaves the caches alone. -/
theorem outward_decides {I : PrimitiveUpdateDevice σ → Prop} {x : Prog σ UpdateDeviceError α}
    (hI : ∀ device outside, I device → I { device with outside := outside }) (hx : Fixed True x v) :
    Decides True I (outward x) v I :=
  fun device hdev => ⟨(hx device.outside trivial).1, fun a ha =>
    ⟨((hx device.outside trivial).2 a ha).1, hI device _ hdev⟩⟩

theorem synchronize_cases (device : PrimitiveUpdateDevice σ) :
    synchronizeSessionCacheGeneration device = device ∨
      (synchronizeSessionCacheGeneration device).currentSlot = none ∧
      (synchronizeSessionCacheGeneration device).slotTopology = none ∧
      (synchronizeSessionCacheGeneration device).hasSlot = [] := by
  unfold synchronizeSessionCacheGeneration
  split_ifs
  · exact .inl rfl
  · exact .inr ⟨rfl, rfl, rfl⟩

/-! ### Queries -/

variable (hport : AnswersFrom port table) (hcontext : Undisturbed context)

include hcontext

theorem exec_interruptionKind {ε : Type} (s : σ) :
    ∃ s', exec (interruptionKind context : Prog σ ε _) s = (.ok none, s') := by
  unfold interruptionKind
  rw [exec_step_bind, hcontext.stopRequested, if_neg (by decide), exec_step_bind,
    hcontext.deadlineReached, if_neg (by decide)]
  exact ⟨_, rfl⟩

theorem exec_interruption {ε : Type} (message : String) (phase : ProtocolPhase)
    (outbound : TransferCertainty) (sessionClosed : Bool) (s : σ) :
    ∃ s', exec (interruption context message phase outbound sessionClosed : Prog σ ε _) s
      = (.ok none, s') := by
  obtain ⟨s', h⟩ := exec_interruptionKind (ε := ε) hcontext s
  unfold interruption
  rw [exec_bind, h]
  exact ⟨s', rfl⟩

theorem exec_interruptionAfterReply {ε : Type} (message : String) (reply : PrimitiveReply)
    (sessionClosed : Bool) (s : σ) :
    ∃ s', exec (interruptionAfterReply context message reply sessionClosed : Prog σ ε _) s
      = (.ok none, s') := by
  obtain ⟨s', h⟩ := exec_interruption (ε := ε) hcontext message reply.phase
    reply.outboundCertainty sessionClosed s
  unfold interruptionAfterReply
  rw [exec_bind, h]
  exact ⟨s', rfl⟩

/-- A check for an interruption lets the program go on. -/
theorem interruption_bind_decides {f : Unit → Prog σ UpdateDeviceError α} (message : String)
    (hf : Fixed True (f ()) v) :
    Fixed True ((do
      refuseWith (← interruption context message)) >>= f) v := by
  intro s _
  obtain ⟨s', h⟩ := exec_interruption (ε := UpdateDeviceError) hcontext message .validation
    .notTransferred false s
  rw [bind_assoc, exec_bind, h]
  exact hf s' trivial

theorem interruptionAfterReply_bind_decides {f : Unit → Prog σ UpdateDeviceError α}
    {forwarded : Bool} (message : String) (reply : PrimitiveReply) (hf : Fixed True (f ()) v) :
    Fixed True ((do
      let stopped ← interruptionAfterReply context message reply
      refuseWith (stopped.map (retainQuarantineIfForwarded forwarded))) >>= f) v := by
  intro s _
  obtain ⟨s', h⟩ := exec_interruptionAfterReply (ε := UpdateDeviceError) hcontext message reply
    false s
  rw [bind_assoc, exec_bind, h]
  exact hf s' trivial

theorem mapPrimitiveUpdateError_bind_decides {f : UpdateDeviceError → UpdateDeviceError}
    (error : PrimitiveError) :
    Fixed True (do
      let mapped ← mapPrimitiveUpdateError context error
      throw (f mapped) : Prog σ UpdateDeviceError α) none := by
  intro s _
  obtain ⟨s', h⟩ := exec_interruptionKind (ε := UpdateDeviceError) hcontext s
  unfold mapPrimitiveUpdateError
  rw [bind_assoc, exec_bind, h]
  exact ⟨fun _ => rfl, fun _ herr => by cases herr⟩

theorem outward_interruption_decides {I : PrimitiveUpdateDevice σ → Prop} (message : String)
    (hI : ∀ device outside, I device → I { device with outside := outside }) :
    Decides True I (outward do
      refuseWith (← interruption context message)) (some ()) I := by
  refine outward_decides hI ?_
  have := interruption_bind_decides (f := fun _ => pure ()) hcontext message
    (decides_pure (I := fun _ => True))
  rwa [bind_pure] at this

/-- The beginning of a cached query: the caches are brought up to date, and the query is made. -/
theorem cached_decides {I K : PrimitiveUpdateDevice σ → Prop}
    {f : PrimitiveUpdateDevice σ → Prog (PrimitiveUpdateDevice σ) UpdateDeviceError α}
    {query : Prog (PrimitiveUpdateDevice σ) UpdateDeviceError α} (message : String)
    (hI : ∀ device outside, I device → I { device with outside := outside })
    (hsync : ∀ device, I device → I (synchronizeSessionCacheGeneration device))
    (hmiss : ∀ device, I device → f device = query) (hquery : Decides True I query v K) :
    Decides True I (do
      outward do
        refuseWith (← interruption context message)
      modify synchronizeSessionCacheGeneration
      let device ← get
      f device) v K := by
  exact (outward_interruption_decides hcontext message hI).bind fun _ _ =>
    (decides_modify hsync).bind fun _ _ => decides_get_bind hmiss hquery

include hport

/-- Whatever is done with the outcome of a query that is not interrupted. -/
theorem invoke_bind_decides {key : String}
    {f : Except PrimitiveError PrimitiveReply × Bool → Prog σ UpdateDeviceError α}
    (hf : ∀ outcome, Reported (table.ask key) outcome → Fixed True (f (outcome, false)) v) :
    Fixed True (invokeWithCancellation context (PrimitiveService.getvar port key) >>= f) v := by
  intro s _
  unfold invokeWithCancellation
  rw [bind_assoc, exec_attempt_bind, bind_assoc, exec_step_bind, hcontext.cancellationForwarded,
    pure_bind]
  have hrep := (getvar_reported (hport.replies hcontext) key s).resolve_right (·.1 trivial)
  exact hf _ hrep _ trivial

theorem getvar_decides (name : String) :
    Fixed True (getvar port context name) (plainValue table name) := by
  unfold getvar
  rw [← bind_assoc]
  refine interruption_bind_decides hcontext _ ?_
  refine invoke_bind_decides hport hcontext fun outcome hout => ?_
  unfold plainValue ReplyTable.value
  rcases hask : table.ask name with _ | payload | message <;> rw [hask] at hout
  · obtain ⟨error, rfl, -⟩ := hout
    exact mapPrimitiveUpdateError_bind_decides hcontext error
  · obtain ⟨reply, rfl, hkind, rfl⟩ := hout
    simp only [hkind, Option.bind_some, ne_eq, not_true_eq_false, if_false]
    split_ifs
    · exact decides_throw
    · rw [← bind_assoc]
      exact interruptionAfterReply_bind_decides hcontext _ reply decides_pure
  · obtain ⟨error, rfl, -⟩ := hout
    exact mapPrimitiveUpdateError_bind_decides hcontext error

theorem queryTopology_decides : Fixed True (queryTopology port context) table.slotsReported := by
  refine invoke_bind_decides hport hcontext fun outcome hout => ?_
  unfold ReplyTable.slotsReported
  -- a failed query goes to the suffixes only if the device has rejected it
  have hrej : ∀ (error : PrimitiveError) (s : σ),
      ∃ s', exec (rejectedUninterrupted context error false : Prog σ UpdateDeviceError Bool) s
        = (.ok (decide (error.code = .deviceFail)), s') := by
    intro error s
    obtain ⟨s', h⟩ := exec_interruptionKind (ε := UpdateDeviceError) hcontext s
    unfold rejectedUninterrupted
    rw [exec_bind, h]
    refine ⟨s', ?_⟩
    simp only [and_true, Bool.not_false, Bool.and_true]
    rfl
  rcases hask : table.ask "slot-count" with _ | payload | message <;> rw [hask] at hout
  · obtain ⟨error, rfl, hcode⟩ := hout
    intro s _
    obtain ⟨s', h⟩ := hrej error s
    simp only
    rw [exec_bind, h, decide_eq_false hcode]
    exact mapPrimitiveUpdateError_bind_decides hcontext error s' trivial
  · obtain ⟨reply, rfl, -, rfl⟩ := hout
    simp only [Option.bind_some, ← toOption_parseSlotCount]
    rw [← bind_assoc]
    exact interruptionAfterReply_bind_decides hcontext _ reply (decides_ofOutcome _)
  · obtain ⟨error, rfl, hcode⟩ := hout
    intro s _
    obtain ⟨s', h⟩ := hrej error s
    simp only
    rw [exec_bind, h, decide_eq_true hcode, Option.bind_some]
    have hlegacy : Fixed True (do
        let suffixes ← getvar port context "slot-suffixes"
        ofOutcome (parseLegacySlotTopology suffixes))
        ((table.value "slot-suffixes").bind slotsOfSuffixes) := by
      rw [← plainValue_bind fun payload => slotsOfSuffixes_of_nul]
      refine (getvar_decides hport hcontext _).bind fun suffixes _ => ?_
      rw [← toOption_parseLegacySlotTopology]
      exact decides_ofOutcome _
    exact hlegacy s' trivial

theorem partitionHasSlot_decides (partition : String) :
    Decides True Fresh (partitionHasSlot port context partition) (table.hasSlotReported partition)
      (TopologyUnknown (σ := σ)) := by
  refine cached_decides hcontext _ (fun _ _ h => ⟨h.1, h.2, h.3⟩) ?_
    (fun device h => by rw [h.hasSlot]) ?_
  · intro device h
    rcases synchronize_cases device with heq | ⟨hcur, htopo, hslots⟩
    · rwa [heq]
    · exact ⟨hcur, htopo, hslots⟩
  · unfold ReplyTable.hasSlotReported
    rw [← plainValue_bind fun payload hnul => ?_]
    · refine (outward_decides (fun _ _ h => ⟨h.1, h.2, h.3⟩)
        (getvar_decides hport hcontext _)).bind fun value _ => ?_
      by_cases hyes : value = "yes"
      · subst hyes
        exact (decides_modify fun device h => ⟨h.1, h.2⟩).bind fun _ _ => decides_pure
      · by_cases hno : value = "no"
        · subst hno
          exact (decides_modify fun device h => ⟨h.1, h.2⟩).bind fun _ _ => decides_pure
        · rw [if_neg (by simp [hyes, hno]), if_neg hyes, if_neg hno]
          exact decides_throw
    · rw [if_neg (by rintro rfl; exact absurd hnul (by decide)),
        if_neg (by rintro rfl; exact absurd hnul (by decide))]

theorem resolveTopology_decides :
    Decides True TopologyUnknown (resolveTopology port context) table.slotsReported
      fun device : PrimitiveUpdateDevice σ => device.currentSlot = none := by
  refine cached_decides hcontext _ (fun _ _ h => ⟨h.1, h.2⟩) ?_
    (fun device h => by rw [h.slotTopology]) ?_
  · intro device h
    rcases synchronize_cases device with heq | ⟨hcur, htopo, -⟩
    · rwa [heq]
    · exact ⟨hcur, htopo⟩
  · rw [← Option.bind_fun_some table.slotsReported]
    refine (outward_decides (fun _ _ h => ⟨h.1, h.2⟩) (queryTopology_decides hport hcontext)).bind
      fun topology _ => ?_
    have hstore : Decides True (TopologyUnknown (σ := σ)) (modify fun device =>
        { device with slotTopology := some topology } : Prog _ UpdateDeviceError Unit) (some ())
        fun device => device.currentSlot = none := decides_modify fun _ h => h.currentSlot
    exact hstore.bind fun _ _ => decides_pure

theorem resolveCurrentSlot_decides (topology : List Char) :
    Decides True (fun device : PrimitiveUpdateDevice σ => device.currentSlot = none)
      (resolveCurrentSlot port context topology) (table.currentReported topology)
      fun _ => True := by
  refine cached_decides hcontext _ (fun _ _ h => h) ?_ (fun device h => by rw [h]) ?_
  · intro device h
    rcases synchronize_cases device with heq | ⟨hcur, -⟩
    · rwa [heq]
    · exact hcur
  · unfold ReplyTable.currentReported
    rw [← plainValue_bind fun payload hnul => by rw [slotLetter_of_nul hnul]; rfl]
    refine (outward_decides (fun _ _ h => h) (getvar_decides hport hcontext _)).bind
      fun value _ => ?_
    cases slotLetter value.toList with
    | none => exact decides_throw
    | some slot =>
        simp only [Option.bind_some]
        split_ifs
        · exact (decides_modify fun _ _ => trivial).bind fun _ _ => decides_pure
        · exact decides_throw

/-- What `resolveOther` returns. -/
def otherReported (table : ReplyTable) (partition : String) : Option String :=
  if (baseName partition).toList.length = 0 then none
  else (table.hasSlotReported (baseName partition)).bind fun hasSlot =>
    if hasSlot = false then none
    else table.slotsReported.bind fun slots =>
      if slots.length ≠ 2 then none
      else (table.currentReported slots).bind fun current =>
        let resolved := SlotPlanner.slottedName (baseName partition)
          (SlotPlanner.otherSlot slots current) ++ nameSuffix partition
        if printableParameter resolved "flash:".toList.length = false then none else some resolved

theorem resolveOther_decides (partition : String) :
    Decides True Fresh (resolveOther port context partition) (otherReported table partition)
      fun _ : PrimitiveUpdateDevice σ => True := by
  unfold resolveOther otherReported
  split_ifs
  · exact decides_throw
  · refine (partitionHasSlot_decides hport hcontext _).bind fun hasSlot _ => ?_
    split_ifs
    · exact decides_throw
    · refine (resolveTopology_decides hport hcontext).bind fun slots _ => ?_
      split_ifs
      · exact decides_throw
      · refine (resolveCurrentSlot_decides hport hcontext slots).bind fun current _ => ?_
        simp only
        split_ifs
        · exact decides_throw
        · exact decides_pure

theorem resolvePartition_decides (partition : String) :
    Decides True Fresh (resolvePartition port context partition .other)
      (otherReported table partition) fun _ : PrimitiveUpdateDevice σ => True := by
  have hcheck := outward_interruption_decides (I := Fresh) hcontext
    "flash partition resolution was interrupted" fun _ _ h => ⟨h.1, h.2, h.3⟩
  have hresol := hcheck.bind (w := fun _ => otherReported table partition) fun _ _ =>
    resolveOther_decides hport hcontext partition
  rw [Option.bind_some] at hresol
  exact hresol

end PrimitiveUpdateDevice

/-! ### Agreement -/

/-- The device reports these slots: as many as its `slot-count` says, or, if it rejects that
variable, those of its `slot-suffixes`. -/
inductive ReportsTopology (table : ReplyTable) (slots : List Char) : Prop
  | counted {payload : String} {count : ℕ} (reply : table "slot-count" = .okay payload)
      (parsed : fromCharsComplete payload = some count) (slots_eq : slots = firstSlots count)
  | listed {message payload : String} {letters : List Char}
      (rejected : table "slot-count" = .fail message)
      (reply : table "slot-suffixes" = .okay payload)
      (parsed : (payload.toList.splitOn ',').mapM slotLetter = some letters)
      (slots_perm : slots.Perm letters)

/-- The device reports this slot as the current one. -/
def ReportsCurrent (table : ReplyTable) (current : Char) : Prop :=
  ∃ payload, table "current-slot" = .okay payload ∧ slotLetter payload.toList = some current

section Agreement

variable {table : ReplyTable}

theorem ReplyTable.ask_eq_some {key : String} {reply : DeviceReply}
    (h : table.ask key = some reply) : table key = reply := by
  obtain ⟨_, -, hrpl⟩ := Option.map_eq_some_iff.mp h
  exact hrpl

theorem ReplyTable.value_eq_some {key payload : String} (h : table.value key = some payload) :
    table key = .okay payload := by
  obtain ⟨reply, hask, hrpl⟩ := Option.bind_eq_some_iff.mp h
  rw [ReplyTable.ask_eq_some hask]
  cases reply with
  | okay value =>
      cases hrpl
      rfl
  | fail message => cases hrpl

/-- The reported slots are distinct lower-case letters. -/
structure SlotLetters (slots : List Char) : Prop where
  nodup : slots.Nodup
  letters : ∀ slot ∈ slots, 'a' ≤ slot ∧ slot ≤ 'z'

theorem firstSlots_letters {count : ℕ} (h : count ≤ 26) : SlotLetters (firstSlots count) := by
  have hall : ∀ count < 27, (firstSlots count).Nodup ∧
      (firstSlots count).all (fun slot => decide ('a' ≤ slot ∧ slot ≤ 'z')) = true := by decide
  obtain ⟨hnodup, hlets⟩ := hall count (by omega)
  exact ⟨hnodup, fun slot hmem => of_decide_eq_true (all_eq_true.mp hlets slot hmem)⟩

variable {slots : List Char}

theorem nodup_of_not_adjacentEqual (hsorted : slots.Pairwise (· ≤ ·))
    (h : adjacentEqual slots = false) : slots.Nodup := by
  induction slots with
  | nil => exact nodup_nil
  | cons first rest ih =>
      obtain ⟨hfst, hrest⟩ := pairwise_cons.mp hsorted
      cases rest with
      | nil => exact nodup_singleton first
      | cons second rest =>
          rw [adjacentEqual, Bool.or_eq_false_iff, decide_eq_false_iff_not] at h
          refine nodup_cons.mpr ⟨fun hmem => ?_, ih hrest h.2⟩
          -- the list is sorted, so a later copy of `first` would make `second` equal to it
          have hle : second ≤ first := by
            rcases mem_cons.mp hmem with rfl | hmem
            · exact Char.le_refl _
            · exact (pairwise_cons.mp hrest).1 first hmem
          exact h.1 (Char.le_antisymm (hfst second mem_cons_self) hle)

theorem mapM_slotLetter_letters {tokens : List (List Char)} {letters : List Char}
    (h : tokens.mapM slotLetter = some letters) :
    ∀ letter ∈ letters, 'a' ≤ letter ∧ letter ≤ 'z' := by
  induction tokens generalizing letters with
  | nil =>
      cases h
      simp
  | cons token tokens ih =>
      rw [mapM_cons] at h
      obtain ⟨first, hfst, h⟩ := Option.bind_eq_some_iff.mp h
      obtain ⟨rest, hrest, h⟩ := Option.bind_eq_some_iff.mp h
      cases h
      exact forall_mem_cons.mpr ⟨(slotLetter_eq_some hfst).2, ih hrest⟩

theorem slotsReported_spec (h : table.slotsReported = some slots) :
    ReportsTopology table slots ∧ SlotLetters slots ∧ 0 < slots.length ∧ slots.length ≤ 26 := by
  obtain ⟨reply, hask, h⟩ := Option.bind_eq_some_iff.mp h
  have hrpl := ReplyTable.ask_eq_some hask
  cases reply with
  | okay payload =>
      obtain ⟨count, hcnt, h⟩ := Option.bind_eq_some_iff.mp h
      split_ifs at h with hrange
      cases h
      refine ⟨.counted hrpl hcnt rfl, firstSlots_letters (by omega), ?_⟩
      rw [firstSlots, length_map, length_range]
      omega
  | fail message =>
      obtain ⟨payload, hval, h⟩ := Option.bind_eq_some_iff.mp h
      obtain ⟨letters, hlets, h⟩ := Option.bind_eq_some_iff.mp h
      split_ifs at h with hrange hadjacent
      cases h
      have hperm := perm_insertionSort (· ≤ ·) letters
      exact ⟨.listed hrpl (ReplyTable.value_eq_some hval) hlets hperm,
        ⟨nodup_of_not_adjacentEqual (pairwise_insertionSort (· ≤ ·) letters)
          (eq_false_of_ne_true hadjacent),
          fun slot hslot => mapM_slotLetter_letters hlets slot (hperm.mem_iff.mp hslot)⟩,
        by rw [hperm.length_eq]; omega⟩

theorem currentReported_spec {current : Char} (h : table.currentReported slots = some current) :
    ReportsCurrent table current ∧ current ∈ slots := by
  obtain ⟨payload, hval, h⟩ := Option.bind_eq_some_iff.mp h
  obtain ⟨letter, hlet, h⟩ := Option.bind_eq_some_iff.mp h
  split_ifs at h with hmem
  cases h
  exact ⟨⟨payload, ReplyTable.value_eq_some hval, hlet⟩, hmem⟩

theorem otherSlot_spec {current : Char} (hnodup : slots.Nodup) (hlen : slots.length = 2) :
    otherSlot slots current ∈ slots ∧ otherSlot slots current ≠ current := by
  match slots, hlen with
  | [first, second], _ =>
      have hne : first ≠ second := by
        intro heq
        simp [heq] at hnodup
      unfold otherSlot
      simp only [headD_cons, getLastD_cons, getLastD_nil]
      split_ifs with hfst
      · exact ⟨by simp, fun h => hne (hfst.trans h.symm)⟩
      · exact ⟨by simp, hfst⟩

/-! ### Names -/

theorem isPartitionNameCharacter_range {character : Char}
    (h : isPartitionNameCharacter character = true) :
    0x20 ≤ character.toNat ∧ character.toNat ≤ 0x7E ∧ character ≠ ':' := by
  simp only [isPartitionNameCharacter, Bool.or_eq_true, Bool.and_eq_true, decide_eq_true_eq] at h
  have hle : ∀ {a b : Char}, a ≤ b ↔ a.toNat ≤ b.toNat := Iff.rfl
  have hcolon : character = ':' → character.toNat = 58 := fun heq => by rw [heq]; rfl
  simp only [hle, show 'a'.toNat = 97 from rfl, show 'z'.toNat = 122 from rfl,
    show 'A'.toNat = 65 from rfl, show 'Z'.toNat = 90 from rfl, show '0'.toNat = 48 from rfl,
    show '9'.toNat = 57 from rfl] at h
  rcases h with ((((h | h) | h) | rfl) | rfl) | rfl
  · exact ⟨by omega, by omega, fun heq => by have := hcolon heq; omega⟩
  · exact ⟨by omega, by omega, fun heq => by have := hcolon heq; omega⟩
  · exact ⟨by omega, by omega, fun heq => by have := hcolon heq; omega⟩
  · decide
  · decide
  · decide

/-- A name of a partition, as far as its characters are concerned. -/
def NameCharacters (partition : String) : Prop :=
  ∀ character ∈ partition.toList, PrimitiveService.isPartitionNameCharacter character = true

theorem NameCharacters.baseName {partition : String} (h : NameCharacters partition) :
    baseName partition = partition ∧ nameSuffix partition = "" := by
  have hall : ∀ character ∈ partition.toList, decide (character ≠ ':') = true := fun c hc =>
    decide_eq_true (isPartitionNameCharacter_range (h c hc)).2.2
  unfold KairosBoot.baseName nameSuffix
  rw [takeWhile_eq_self_iff.mpr hall, dropWhile_eq_nil_iff.mpr hall, String.ofList_toList]
  exact ⟨rfl, rfl⟩

theorem toList_slottedName (partition : String) (slot : Char) :
    (slottedName partition slot).toList = partition.toList ++ ['_', slot] := by
  simp [slottedName]

/-- A name with a slot can be flashed if the name itself is not too long. -/
theorem printableParameter_slottedName {partition : String} {slot : Char}
    (hname : NameCharacters partition) (hlen : partition.toList.length ≤ 4080)
    (hslot : 'a' ≤ slot ∧ slot ≤ 'z') :
    printableParameter (slottedName partition slot) "flash:".toList.length = true := by
  have hflash : "flash:".toList.length = 6 := rfl
  have hrange : 0x20 ≤ slot.toNat ∧ slot.toNat ≤ 0x7E := by
    have h1 : 97 ≤ slot.toNat := hslot.1
    have h2 : slot.toNat ≤ 122 := hslot.2
    omega
  unfold printableParameter isPrintableAscii
  rw [toList_slottedName, hflash, Bool.and_eq_true, decide_eq_true_iff, length_append,
    all_append, Bool.and_eq_true, all_eq_true]
  refine ⟨⟨by simp, by decide, ?_⟩, fun character hmem => ?_, ?_⟩
  · simp only [length_cons, length_nil, kDefaultMaxCommandBytes]
    omega
  · have := isPartitionNameCharacter_range (hname character hmem)
    exact decide_eq_true ⟨this.1, this.2.1⟩
  · simp only [all_cons, all_nil, Bool.and_true, Bool.and_eq_true, decide_eq_true_eq]
    exact ⟨by decide, hrange⟩

/-- Whether a partition has slots is only found out for a name that is valid. -/
theorem length_of_hasSlotReported {partition : String} {hasSlot : Bool}
    (h : table.hasSlotReported partition = some hasSlot) : partition.toList.length ≤ 4080 := by
  obtain ⟨payload, hval, -⟩ := Option.bind_eq_some_iff.mp h
  obtain ⟨reply, hask, -⟩ := Option.bind_eq_some_iff.mp hval
  obtain ⟨text, htext, -⟩ := Option.map_eq_some_iff.mp hask
  unfold validatedParameterCommand at htext
  split_ifs at htext with hemp hprint hlen
  · cases htext
  · cases htext
  · cases htext
  · have hverb : "getvar:".toList.length = 7 := rfl
    have hkey : ("has-slot:" ++ partition).toList.length = 9 + partition.toList.length := by
      rw [String.toList_append, length_append]
      rfl
    rw [hverb, hkey] at hlen
    simp only [kDefaultMaxCommandBytes] at hlen
    omega

/-- The table leads to this slot: the partition has slots, the device has two, and this is the one
that is not the current one. -/
structure OtherFound (table : ReplyTable) (partition : String) (slot : Char) : Prop where
  hasSlot : table.hasSlotReported partition = some true
  found : ∃ slots current, table.slotsReported = some slots ∧ slots.length = 2 ∧
    table.currentReported slots = some current ∧ slot = SlotPlanner.otherSlot slots current

variable {partition : String}

theorem OtherFound.letter {slot : Char} (h : OtherFound table partition slot) :
    'a' ≤ slot ∧ slot ≤ 'z' := by
  obtain ⟨slots, current, hslots, hlen, -, rfl⟩ := h.found
  have hlets := (slotsReported_spec hslots).2.1
  exact hlets.letters _ (otherSlot_spec hlets.nodup hlen).1

theorem planReported_other {plan : PartitionSlotPlan} (hname : NameCharacters partition) :
    planReported table partition "other" = some plan ↔ partition.toList.length ≠ 0 ∧
      ∃ slot, OtherFound table partition slot ∧ plan = slottedPlan partition [slot] := by
  have hvld : isValidPartitionName partition = false ↔
      ¬ (partition.toList.length ≠ 0 ∧ partition.toList.length ≤ 4080) := by
    unfold isValidPartitionName
    rw [all_eq_true.mpr hname, Bool.and_true, decide_eq_false_iff_not]
    rfl
  unfold planReported
  rw [show (parseSlotSelection "other").toOption = some .other from rfl, Option.bind_some]
  constructor
  · intro h
    by_cases hlen : isValidPartitionName partition = false
    · rw [if_pos hlen] at h
      cases h
    rw [if_neg hlen] at h
    obtain ⟨hasSlot, hhas, h⟩ := Option.bind_eq_some_iff.mp h
    cases hasSlot with
    | false => cases h
    | true =>
        obtain ⟨slots, hslots, h⟩ := Option.bind_eq_some_iff.mp h
        obtain ⟨selected, hsel, rfl⟩ := Option.map_eq_some_iff.mp h
        simp only [ReplyTable.slotsSelected] at hsel
        split_ifs at hsel with htwo
        obtain ⟨current, hcur, rfl⟩ := Option.map_eq_some_iff.mp hsel
        exact ⟨(not_not.mp (mt hvld.mpr hlen)).1, _,
          ⟨hhas, slots, current, hslots, not_not.mp htwo, hcur, rfl⟩, rfl⟩
  · rintro ⟨hnemp, slot, ⟨hhas, slots, current, hslots, htwo, hcur, rfl⟩, rfl⟩
    rw [if_neg (fun hfalse => hvld.mp hfalse ⟨hnemp, length_of_hasSlotReported hhas⟩), hhas,
      Option.bind_some, if_neg (by decide), hslots, Option.bind_some]
    simp only [ReplyTable.slotsSelected]
    rw [if_neg (not_not_intro htwo), hcur]
    rfl

theorem otherReported_eq_some {name : String} (hname : NameCharacters partition) :
    otherReported table partition = some name ↔
      partition.toList.length ≠ 0 ∧
        ∃ slot, OtherFound table partition slot ∧ name = slottedName partition slot := by
  obtain ⟨hbase, hsuffix⟩ := hname.baseName
  unfold otherReported
  rw [hbase, hsuffix]
  constructor
  · intro h
    split_ifs at h with hlen
    obtain ⟨hasSlot, hhas, h⟩ := Option.bind_eq_some_iff.mp h
    cases hasSlot with
    | false => cases h
    | true =>
        obtain ⟨slots, hslots, h⟩ := Option.bind_eq_some_iff.mp h
        split_ifs at h with htwo
        obtain ⟨current, hcur, h⟩ := Option.bind_eq_some_iff.mp h
        simp only [String.append_empty] at h
        split_ifs at h
        cases h
        exact ⟨hlen, _, ⟨hhas, slots, current, hslots, not_not.mp htwo, hcur, rfl⟩, rfl⟩
  · rintro ⟨hnemp, slot, hfound, rfl⟩
    have hprint := printableParameter_slottedName hname
      (length_of_hasSlotReported hfound.hasSlot) hfound.letter
    obtain ⟨hhas, slots, current, hslots, htwo, hcur, rfl⟩ := hfound
    rw [if_neg hnemp, hhas, Option.bind_some, if_neg (by decide), hslots, Option.bind_some,
      if_neg (not_not_intro htwo), hcur, Option.bind_some]
    simp only [String.append_empty]
    rw [hprint, if_neg (by decide)]

/-- The slot is one of two reported ones, and not the reported current one. -/
structure OtherSlotReported (table : ReplyTable) (slot : Char) : Prop where
  reported : ∃ slots current, ReportsTopology table slots ∧ slots.length = 2 ∧
    ReportsCurrent table current ∧ slot ∈ slots ∧ slot ≠ current

theorem OtherFound.reported {slot : Char} (h : OtherFound table partition slot) :
    OtherSlotReported table slot := by
  obtain ⟨slots, current, hslots, htwo, hcur, rfl⟩ := h.found
  obtain ⟨htopo, hlets, -⟩ := slotsReported_spec hslots
  obtain ⟨hmem, hne⟩ : otherSlot slots current ∈ slots ∧
      otherSlot slots current ≠ current := otherSlot_spec hlets.nodup htwo
  exact ⟨slots, current, htopo, htwo, (currentReported_spec hcur).1, hmem, hne⟩

/-- On a device that answers by a table, the update device and the planner find the other slot of a
partition for the same tables, and then they return the same name, the one of a reported slot that
is not the current one. -/
theorem slot_other_resolvers_agree {σ : Type} {port : SessionPort σ}
    {context : OperationContext σ} (hport : AnswersFrom port table)
    (hcontext : Undisturbed context) (hname : NameCharacters partition)
    {device : PrimitiveUpdateDevice σ} (hfresh : device.Fresh) (s : σ) :
    let resolved := (exec (PrimitiveUpdateDevice.resolvePartition port context partition .other)
      device).1
    let planned := (exec (SlotPlanner.planPartition port context partition "other") s).1
    ((∃ name, resolved = .ok name) ↔ ∃ plan, planned = .ok plan) ∧
      ∀ name plan, resolved = .ok name → planned = .ok plan →
        plan.partitionNames = [name] ∧
          ∃ slot, name = SlotPlanner.slottedName partition slot ∧ OtherSlotReported table slot := by
  intro resolved planned
  have hresolved : resolved.toOption = PrimitiveUpdateDevice.otherReported table partition :=
    (PrimitiveUpdateDevice.resolvePartition_decides hport hcontext partition device hfresh).1
      trivial
  have hplanned : planned.toOption = SlotPlanner.planReported table partition "other" :=
    (SlotPlanner.planPartition_decides (hport.replies hcontext) partition "other" s trivial).1
      trivial
  simp only [← Guards.toOption_eq_some_iff, hresolved, hplanned, otherReported_eq_some hname,
    planReported_other hname]
  refine ⟨⟨?_, ?_⟩, ?_⟩
  · rintro ⟨_, hnonempty, slot, hfound, -⟩
    exact ⟨_, hnonempty, slot, hfound, rfl⟩
  · rintro ⟨_, hnonempty, slot, hfound, -⟩
    exact ⟨_, hnonempty, slot, hfound, rfl⟩
  · rintro _ _ ⟨-, slot, hfound, rfl⟩ ⟨-, slot', hfound', rfl⟩
    -- both come from the same table, so they have found the same slot
    obtain ⟨slots, current, hslots, -, hcurrent, hslot⟩ := hfound.found
    obtain ⟨slots', current', hslots', -, hcurrent', hslot'⟩ := hfound'.found
    cases (hslots.symm.trans hslots')
    cases (hcurrent.symm.trans hcurrent')
    rw [hslot'.trans hslot.symm]
    exact ⟨rfl, slot, rfl, hfound.reported⟩

end Agreement

/-! ### A device with two slots -/

/-- The session of a device that answers by a table and knows no other command. -/
def tablePort (table : ReplyTable) : SessionPort Unit where
  command text := pure {
    terminal := (table (String.ofList (text.toList.drop "getvar:".toList.length))).response
    informational := [] }
  downloadSource _ := throw { code := .closed, message := "Fastboot session is closed" }
  receiveToSink _ _ := throw { code := .closed, message := "Fastboot session is closed" }
  state _ := .ready
  requestCancel s := s
  close s := s

theorem tablePort_answers (table : ReplyTable) : AnswersFrom (tablePort table) table := by
  intro key text htext s
  refine ⟨_, rfl, ?_⟩
  unfold validatedParameterCommand at htext
  split_ifs at htext
  cases htext
  change (table (String.ofList (("getvar:" ++ key).toList.drop 7))).response = (table key).response
  rw [String.toList_append]
  exact congrArg (fun name => (table name).response) (String.ofList_toList)

/-- A context without a stop or a deadline. -/
def quietContext (σ : Type) : OperationContext σ where
  stopRequested s := (false, s)
  deadlineReached s := (false, s)
  cancellationForwarded s := (false, s)

theorem quietContext_undisturbed (σ : Type) : Undisturbed (quietContext σ) where
  stopRequested _ := rfl
  deadlineReached _ := rfl
  cancellationForwarded _ := rfl

/-- A device of the legacy kind in slot `b`. -/
def legacyTable : ReplyTable := fun key =>
  if key = "has-slot:boot" then .okay "yes"
  else if key = "slot-suffixes" then .okay "_b,_a"
  else if key = "current-slot" then .okay "_b"
  else .fail "unknown variable"

theorem legacyTable_resolvers_agree :
    ∃ name plan,
      (exec (PrimitiveUpdateDevice.resolvePartition (tablePort legacyTable) (quietContext Unit)
        "boot" .other) { outside := () }).1 = .ok name ∧
      (exec (SlotPlanner.planPartition (tablePort legacyTable) (quietContext Unit) "boot"
        "other") ()).1 = .ok plan ∧
      plan.partitionNames = [name] ∧
        ∃ slot, name = SlotPlanner.slottedName "boot" slot ∧
          OtherSlotReported legacyTable slot := by
  have hname : NameCharacters "boot" := List.all_eq_true.mp (by decide)
  have hfresh : PrimitiveUpdateDevice.Fresh { outside := () } := ⟨rfl, rfl, rfl⟩
  have hagree := slot_other_resolvers_agree (tablePort_answers legacyTable)
    (quietContext_undisturbed Unit) hname hfresh ()
  have hresolved : (exec (PrimitiveUpdateDevice.resolvePartition (tablePort legacyTable)
      (quietContext Unit) "boot" .other) { outside := () }).1.toOption = some "boot_a" := by
    decide +kernel
  have hresolved := Guards.toOption_eq_some_iff.mp hresolved
  obtain ⟨plan, hplan⟩ := hagree.1.mp ⟨_, hresolved⟩
  exact ⟨_, plan, hresolved, hplan, hagree.2 _ plan hresolved hplan⟩

end KairosBoot
