import KairosBoot.UpdateDevice

/-! # Slots and a fixed table of replies

A device that answers its variables by a fixed table decides what the planner returns, if it
returns; it does if the session answers every query and is not interrupted.  `slotsReported`,
`hasSlotReported` and `currentReported` read the table the way both resolvers do;
`planPartition_decides` and `resolveActiveSlot_decides` say that the planner returns what they say,
whatever the state it starts in. -/

namespace KairosBoot

open Outcomes PrimitiveService

inductive DeviceReply where
  | okay (payload : String)
  | fail (message : String)
  deriving DecidableEq, Repr

/-- What a device answers to each variable. -/
abbrev ReplyTable := String → DeviceReply

def DeviceReply.response : DeviceReply → Response
  | .okay payload => { kind := .okay, payload }
  | .fail message => { kind := .fail, payload := message }

/-- A query that the session answers is answered by the table. -/
def RepliesFrom {σ : Type} (port : SessionPort σ) (table : ReplyTable) : Prop :=
  ∀ key text, PrimitiveService.validatedParameterCommand .getVar "getvar:" key = .ok text →
    ∀ s result, (exec (port.command text) s).1 = .ok result →
      result.terminal = (table key).response

/-- The session answers each query that the service sends by the table. -/
def AnswersFrom {σ : Type} (port : SessionPort σ) (table : ReplyTable) : Prop :=
  ∀ key text, PrimitiveService.validatedParameterCommand .getVar "getvar:" key = .ok text →
    ∀ s, ∃ result, (exec (port.command text) s).1 = .ok result ∧
      result.terminal = (table key).response

/-- Nothing interrupts the operation. -/
structure Undisturbed {σ : Type} (context : OperationContext σ) : Prop where
  stopRequested : ∀ s, (context.stopRequested s).1 = false
  deadlineReached : ∀ s, (context.deadlineReached s).1 = false
  cancellationForwarded : ∀ s, (context.cancellationForwarded s).1 = false

/-- What the session answers, it answers by the table; under `c` it answers every query, and
nothing interrupts the operation. -/
structure Replies (c : Prop) {σ : Type} (port : SessionPort σ) (context : OperationContext σ)
    (table : ReplyTable) : Prop where
  replies : RepliesFrom port table
  answers : c → AnswersFrom port table
  undisturbed : c → Undisturbed context

theorem AnswersFrom.replies {σ : Type} {port : SessionPort σ} {context : OperationContext σ}
    {table : ReplyTable} (hport : AnswersFrom port table) (hctx : Undisturbed context) :
    Replies True port context table where
  replies key text htext s result hres := by
    obtain ⟨answer, hans, hterm⟩ := hport key text htext s
    rw [hans] at hres
    cases hres
    exact hterm
  answers _ := hport
  undisturbed _ := hctx

/-! ### Reading a table -/

namespace ReplyTable

/-- The reply to a variable, if the query can be sent. -/
def ask (table : ReplyTable) (key : String) : Option DeviceReply :=
  (PrimitiveService.validatedParameterCommand .getVar "getvar:" key).toOption.map fun _ => table key

def value (table : ReplyTable) (key : String) : Option String :=
  (table.ask key).bind fun
    | .okay payload => some payload
    | .fail _ => none

def hasSlotReported (table : ReplyTable) (partition : String) : Option Bool :=
  (table.value ("has-slot:" ++ partition)).bind fun payload =>
    if payload = "yes" then some true else if payload = "no" then some false else none

end ReplyTable

/-- The slots of a `slot-count`. -/
def slotsOfCount (payload : String) : Option (List Char) :=
  (fromCharsComplete payload).bind fun count =>
    if count < 2 ∨ 26 < count then none else some (firstSlots count)

def slotsOfSuffixes (payload : String) : Option (List Char) :=
  ((payload.toList.splitOn ',').mapM slotLetter).bind fun slots =>
    if slots.length < 2 ∨ 26 < slots.length then none
    else if adjacentEqual (slots.insertionSort (· ≤ ·)) then none
    else some (slots.insertionSort (· ≤ ·))

namespace ReplyTable

def slotsReported (table : ReplyTable) : Option (List Char) :=
  (table.ask "slot-count").bind fun
    | .okay payload => slotsOfCount payload
    | .fail _ => (table.value "slot-suffixes").bind slotsOfSuffixes

/-- The current slot, if it is one of the given ones. -/
def currentReported (table : ReplyTable) (slots : List Char) : Option Char :=
  (table.value "current-slot").bind fun payload => (slotLetter payload.toList).bind fun current =>
    if current ∈ slots then some current else none

def slotsSelected (table : ReplyTable) (slots : List Char) (allowAll : Bool) :
    SlotSelection → Option (List Char)
  | .explicit name => if name ∈ slots then some [name] else none
  | .all => if allowAll then some slots else none
  | .current => (table.currentReported slots).map fun current => [current]
  | .other =>
      if slots.length ≠ 2 then none
      else (table.currentReported slots).map fun current => [SlotPlanner.otherSlot slots current]

end ReplyTable

/-! ### Queries -/

/-- A query has returned what the table says. -/
def Reported (reply : Option DeviceReply) (outcome : Except PrimitiveError PrimitiveReply) : Prop :=
  match reply with
  | some (.okay payload) => ∃ value, outcome = .ok value ∧ value.terminal.kind = .okay ∧
      value.terminal.payload = payload
  | some (.fail _) => ∃ error, outcome = .error error ∧ error.code = .deviceFail
  | none => ∃ error, outcome = .error error ∧ error.code ≠ .deviceFail

section Table

variable {σ : Type} {port : SessionPort σ} {context : OperationContext σ} {table : ReplyTable}
  {c : Prop}

/-- A query returns the value of its variable, or fails. -/
def ValueReported {ε : Type} (value : Option String) (outcome : Except ε PrimitiveReply) : Prop :=
  match value with
  | some payload => ∃ reply, outcome = .ok reply ∧ reply.terminal.payload = payload
  | none => ∃ error, outcome = .error error

theorem valueReported_bind_decides {ε α : Type} {x : Prog σ ε PrimitiveReply}
    {f : PrimitiveReply → Prog σ ε α} {value : Option String} {v : String → Option α}
    (hx : ∀ s, ValueReported value (exec x s).1 ∨ ¬ c ∧ ValueReported none (exec x s).1)
    (hf : ∀ reply, Fixed c (f reply) (v reply.terminal.payload)) :
    Fixed c (x >>= f) (value.bind v) := by
  refine Decides.bind_of (J := fun _ => True)
    (R := fun r => ValueReported value r ∨ ¬ c ∧ ValueReported none r)
    (fun s _ => ⟨hx s, trivial⟩) ?_ ?_
  · rintro reply (hrpl | ⟨-, error, herr⟩)
    · cases value with
      | none =>
          obtain ⟨error, herr⟩ := hrpl
          cases herr
      | some payload =>
          obtain ⟨_, hrpl, rfl⟩ := hrpl
          cases hrpl
          exact hf reply
    · cases herr
  · rintro error (herr | ⟨hc, -⟩) hc'
    · cases value with
      | none => rfl
      | some payload =>
          obtain ⟨_, hrpl, -⟩ := herr
          cases hrpl
    · exact absurd hc' hc

theorem validatedParameterCommand_error {operation : PrimitiveOperation} {verb parameter : String}
    {error : PrimitiveError}
    (h : validatedParameterCommand operation verb parameter = .error error) :
    error.code = .invalidArgument := by
  unfold validatedParameterCommand at h
  split_ifs at h <;>
  · cases h
    rfl

theorem primitiveErrorCode_ne_deviceFail (code : ProtocolErrorCode) :
    primitiveErrorCode code ≠ .deviceFail := by
  cases code <;> decide

/-- A query that is not answered fails as one that cannot be sent. -/
theorem getvar_reported (h : Replies c port context table) (key : String) (s : σ) :
    Reported (table.ask key) (exec (getvar port key) s).1 ∨
      ¬ c ∧ Reported none (exec (getvar port key) s).1 := by
  unfold getvar parameterCommand ReplyTable.ask
  rw [exec_bind, exec_ofOutcome]
  cases hvld : validatedParameterCommand .getVar "getvar:" key with
  | error error =>
      refine .inl ⟨error, rfl, ?_⟩
      rw [validatedParameterCommand_error hvld]
      decide
  | ok text =>
      simp only [command, exec_attempt_bind]
      rcases hres : (exec (port.command text) s).1 with error | result
      · refine .inr ⟨fun hc => ?_, _, rfl, primitiveErrorCode_ne_deviceFail error.code⟩
        obtain ⟨answer, hans, -⟩ := h.answers hc key text hvld s
        rw [hans] at hres
        cases hres
      have hterm := h.replies key text hvld s result hres
      left
      simp only
      show Reported (some (table key)) _
      cases hrpl : table key with
      | okay payload =>
          rw [hrpl] at hterm
          have hkind : result.terminal.kind = .okay := by rw [hterm]; rfl
          rw [if_neg (not_not_intro hkind)]
          exact ⟨replyOf result, rfl, hkind, by
            rw [replyOf, hterm]; rfl⟩
      | fail message =>
          rw [hrpl] at hterm
          have hkind : result.terminal.kind = .fail := by rw [hterm]; rfl
          rw [if_pos (by rw [hkind]; decide)]
          exact ⟨deviceFail .getVar result false, rfl, rfl⟩

namespace SlotPlanner

theorem exec_slotInterruption (hctx : c → Undisturbed context) (position : String) (s : σ) :
    (∃ s', exec (slotInterruption context position) s = (.ok (), s')) ∨ ¬ c ∧ ∃ error s',
      exec (slotInterruption context position) s = (.error error, s') ∧
        rejectedByDevice error = false := by
  unfold slotInterruption
  rw [exec_step_bind]
  cases hstop : (context.stopRequested s).1 with
  | true =>
      refine .inr ⟨fun hc => ?_, _, _, rfl, rfl⟩
      rw [(hctx hc).stopRequested] at hstop
      cases hstop
  | false =>
      rw [if_neg (by decide), exec_step_bind]
      cases hdead : (context.deadlineReached (context.stopRequested s).2).1 with
      | true =>
          refine .inr ⟨fun hc => ?_, _, _, rfl, rfl⟩
          rw [(hctx hc).deadlineReached] at hdead
          cases hdead
      | false => exact .inl ⟨_, rfl⟩

theorem toOption_normalizeSlotName (value : List Char) (code : SlotErrorCode) (text : String) :
    (normalizeSlotName value code text).toOption = slotLetter value := by
  unfold normalizeSlotName
  cases slotLetter value with
  | none => rfl
  | some letter => rfl

theorem toOption_parseSlotCount (payload : String) :
    (parseSlotCount payload).toOption = slotsOfCount payload := by
  unfold parseSlotCount slotsOfCount
  cases fromCharsComplete payload with
  | none => rfl
  | some count =>
      simp only [Option.bind_some]
      split_ifs <;> first | rfl | omega

/-- Reading a list of names stops at the first invalid one. -/
theorem toOption_mapM {α β ε : Type} {f : α → Except ε β} {g : α → Option β}
    (h : ∀ a, (f a).toOption = g a) (l : List α) : (l.mapM f).toOption = l.mapM g := by
  induction l with
  | nil => rfl
  | cons a l ih =>
      rw [List.mapM_cons, List.mapM_cons, ← h a, ← ih]
      cases f a with
      | error e => rfl
      | ok b =>
          cases l.mapM f with
          | error e => rfl
          | ok bs => rfl

theorem toOption_parseLegacySlotSuffixes (payload : String) :
    (parseLegacySlotSuffixes payload).toOption = slotsOfSuffixes payload := by
  unfold parseLegacySlotSuffixes slotsOfSuffixes
  rw [← toOption_mapM fun token => toOption_normalizeSlotName token .invalidDeviceResponse
    "Fastboot slot-suffixes entry"]
  cases (payload.toList.splitOn ',').mapM fun token =>
      normalizeSlotName token .invalidDeviceResponse "Fastboot slot-suffixes entry" with
  | error e => rfl
  | ok slots =>
      change (if slots.length < 2 then throw _ else if 26 < slots.length then throw _
        else if adjacentEqual (slots.insertionSort (· ≤ ·)) then throw _
        else pure (slots.insertionSort (· ≤ ·)) : Except SlotError (List Char)).toOption
          = if _ then _ else _
      by_cases hfew : slots.length < 2
      · rw [if_pos hfew, if_pos (.inl hfew)]
        rfl
      · by_cases hmany : 26 < slots.length
        · rw [if_neg hfew, if_pos hmany, if_pos (.inr hmany)]
          rfl
        · rw [if_neg hfew, if_neg hmany,
            if_neg (show ¬ (slots.length < 2 ∨ 26 < slots.length) by omega)]
          split_ifs <;> rfl

/-- What the planner makes of a reply. -/
def QueryReported (reply : Option DeviceReply) (outcome : Except SlotError PrimitiveReply) : Prop :=
  match reply with
  | some (.okay payload) => ∃ value, outcome = .ok value ∧ value.terminal.payload = payload
  | some (.fail _) => ∃ error, outcome = .error error ∧ rejectedByDevice error = true
  | none => ∃ error, outcome = .error error ∧ rejectedByDevice error = false

variable (h : Replies c port context table)
include h

theorem queryVariable_reported (name : String) (s : σ) :
    QueryReported (table.ask name) (exec (queryVariable port context name) s).1 ∨
      ¬ c ∧ QueryReported none (exec (queryVariable port context name) s).1 := by
  unfold queryVariable
  rw [exec_bind]
  rcases exec_slotInterruption h.undisturbed "before getvar" s with
    ⟨s₁, h₁⟩ | ⟨hc, error, s₁, h₁, hrej⟩
  · rw [h₁]
    simp only [exec_attempt_bind]
    rw [exec_bind]
    rcases exec_slotInterruption h.undisturbed "after getvar" (exec (getvar port name) s₁).2 with
      ⟨s₂, h₂⟩ | ⟨hc, error, s₂, h₂, hrej⟩
    · rw [h₂]
      simp only
      rcases getvar_reported h name s₁ with hrep | ⟨hc, error, herr, hcode⟩
      · left
        rcases hask : table.ask name with _ | payload | message <;> rw [hask] at hrep
        · obtain ⟨error, herr, hcode⟩ := hrep
          rw [herr]
          exact ⟨_, rfl, by simp [rejectedByDevice, slotQueryError, hcode]⟩
        · obtain ⟨value, hval, -, hpay⟩ := hrep
          rw [hval]
          exact ⟨value, rfl, hpay⟩
        · obtain ⟨error, herr, hcode⟩ := hrep
          rw [herr]
          exact ⟨_, rfl, by simp [rejectedByDevice, slotQueryError, hcode]⟩
      · rw [herr]
        exact .inr ⟨hc, _, rfl, by simp [rejectedByDevice, slotQueryError, hcode]⟩
    · rw [h₂]
      exact .inr ⟨hc, error, rfl, hrej⟩
  · rw [h₁]
    exact .inr ⟨hc, error, rfl, hrej⟩

theorem queryOr_reported (name rejected : String) (s : σ) :
    ValueReported (table.value name) (exec (queryOr port context name rejected) s).1 ∨
      ¬ c ∧ ValueReported none (exec (queryOr port context name rejected) s).1 := by
  unfold queryOr ReplyTable.value
  rw [exec_attempt_bind]
  rcases queryVariable_reported h name s with hrep | ⟨hc, error, herr, -⟩
  · left
    rcases hask : table.ask name with _ | payload | message <;> rw [hask] at hrep
    · obtain ⟨error, herr, -⟩ := hrep
      rw [herr]
      exact ⟨_, rfl⟩
    · obtain ⟨reply, hrpl, hpay⟩ := hrep
      rw [hrpl]
      exact ⟨reply, rfl, hpay⟩
    · obtain ⟨error, herr, -⟩ := hrep
      rw [herr]
      exact ⟨_, rfl⟩
  · rw [herr]
    exact .inr ⟨hc, _, rfl⟩

theorem queryOr_bind_decides {α : Type} {f : PrimitiveReply → Prog σ SlotError α}
    {v : String → Option α} (name rejected : String)
    (hf : ∀ reply, Fixed c (f reply) (v reply.terminal.payload)) :
    Fixed c (queryOr port context name rejected >>= f) ((table.value name).bind v) :=
  valueReported_bind_decides (queryOr_reported h name rejected) hf

/-! ### The planner -/

theorem queryHasSlot_decides (partition : String) :
    Fixed c (queryHasSlot port context partition) (table.hasSlotReported partition) := by
  refine queryOr_bind_decides h _ _ fun reply => ?_
  split_ifs
  · exact decides_pure
  · exact decides_pure
  · exact decides_throw

def topologyReported (table : ReplyTable) : Option SlotTopology :=
  (table.ask "slot-count").bind fun
    | .okay payload => (slotsOfCount payload).map fun slots => ⟨slots, .slotCount⟩
    | .fail _ => ((table.value "slot-suffixes").bind slotsOfSuffixes).map fun slots =>
        ⟨slots, .legacySlotSuffixes⟩

omit h in
theorem topologyReported_slots (table : ReplyTable) :
    (topologyReported table).map SlotTopology.slots = table.slotsReported := by
  unfold topologyReported ReplyTable.slotsReported
  rcases table.ask "slot-count" with _ | payload | message
  · rfl
  · simp [Option.map_map, Function.comp_def]
  · simp [Option.map_map, Function.comp_def]

theorem queryTopology_decides : Fixed c (queryTopology port context) (topologyReported table) := by
  have hfin : ∀ (parsed : Except SlotError (List Char)) (source : SlotTopologySource),
      Fixed c (do
        let slots ← ofOutcome parsed
        pure (⟨slots, source⟩ : SlotTopology) : Prog σ SlotError SlotTopology)
        (parsed.toOption.map fun slots => ⟨slots, source⟩) := by
    intro parsed source
    rw [Option.map_eq_bind]
    exact (decides_ofOutcome parsed).bind fun slots _ => decides_pure
  refine Decides.attempt_bind (J := fun _ => True)
    (R := fun r => QueryReported (table.ask "slot-count") r ∨ ¬ c ∧ QueryReported none r)
    (fun s _ => ⟨queryVariable_reported h _ s, trivial⟩) fun outcome hout => ?_
  rcases hout with hout | ⟨hc, error, rfl, hrej⟩
  swap
  · simp only [hrej, if_neg Bool.false_ne_true]
    exact decides_fail hc
  unfold topologyReported
  rcases hask : table.ask "slot-count" with _ | payload | message <;> rw [hask] at hout
  · obtain ⟨error, rfl, hrej⟩ := hout
    simp only [hrej, if_neg Bool.false_ne_true]
    exact decides_throw
  · obtain ⟨reply, rfl, rfl⟩ := hout
    simp only [Option.bind_some, ← toOption_parseSlotCount]
    exact hfin _ _
  · obtain ⟨error, rfl, hrej⟩ := hout
    simp only [hrej, if_true, Option.bind_some]
    rw [Option.map_bind]
    refine queryOr_bind_decides h _ _ fun reply => ?_
    rw [Function.comp_apply, ← toOption_parseLegacySlotSuffixes]
    exact hfin _ _

theorem queryCurrentSlot_decides (topology : SlotTopology) :
    Fixed c (queryCurrentSlot port context topology) (table.currentReported topology.slots) := by
  refine queryOr_bind_decides h _ _ fun reply => ?_
  rw [← toOption_normalizeSlotName _ .invalidDeviceResponse "Fastboot current-slot"]
  refine (decides_ofOutcome _).bind fun current _ => ?_
  split_ifs
  · exact decides_pure
  · exact decides_throw

theorem resolveSlots_decides (topology : SlotTopology) (selection : SlotSelection)
    (allowAll : Bool) :
    Fixed c (resolveSlots port context topology selection allowAll)
      (table.slotsSelected topology.slots allowAll selection) := by
  unfold resolveSlots ReplyTable.slotsSelected
  cases selection with
  | explicit name =>
      simp only
      split_ifs
      · exact decides_pure
      · exact decides_throw
  | all =>
      simp only
      split_ifs
      · exact decides_pure
      · exact decides_throw
  | current =>
      simp only [Option.map_eq_bind]
      exact (queryCurrentSlot_decides h topology).bind fun current _ => decides_pure
  | other =>
      simp only [Option.map_eq_bind]
      split_ifs
      · exact decides_throw
      · exact (queryCurrentSlot_decides h topology).bind fun current _ => decides_pure

/-- The slots of a request, on the slots of the device. -/
theorem queryTopology_bind_decides {α : Type} {f : SlotTopology → Prog σ SlotError α}
    {v : List Char → Option α}
    (hf : ∀ topology : SlotTopology, Fixed c (f topology) (v topology.slots)) :
    Fixed c (queryTopology port context >>= f) (table.slotsReported.bind v) := by
  rw [← topologyReported_slots, Option.bind_map]
  exact (queryTopology_decides h).bind fun topology _ => hf topology

theorem resolveActiveSlot_decides (requestedSlot : String) :
    Fixed c (resolveActiveSlot port context requestedSlot)
      ((parseSlotSelection requestedSlot).toOption.bind fun selection =>
        if selection = .all then none
        else table.slotsReported.bind fun slots =>
          (table.slotsSelected slots false selection).map fun selected => selected.headD 'a') := by
  refine (decides_ofOutcome _).bind fun selection _ => ?_
  split_ifs
  · exact decides_throw
  · refine queryTopology_bind_decides h fun topology => ?_
    rw [Option.map_eq_bind]
    exact (resolveSlots_decides h topology selection false).bind fun selected _ =>
      decides_pure

def slottedPlan (partition : String) (slots : List Char) : PartitionSlotPlan :=
  ⟨true, slots.map (slottedName partition), slots⟩

def planReported (table : ReplyTable) (partition requestedSlot : String) :
    Option PartitionSlotPlan :=
  if PrimitiveService.isValidPartitionName partition = false then none
  else (parseSlotSelection requestedSlot).toOption.bind fun selection =>
    (table.hasSlotReported partition).bind fun hasSlot =>
      if hasSlot = false then
        if selection ≠ .current then none else some ⟨false, [partition], []⟩
      else table.slotsReported.bind fun slots =>
        (table.slotsSelected slots true selection).map (slottedPlan partition)

theorem planPartition_decides (partition requestedSlot : String) :
    Fixed c (planPartition port context partition requestedSlot)
      (planReported table partition requestedSlot) := by
  unfold planPartition planReported
  split_ifs
  · exact decides_throw
  · refine (decides_ofOutcome _).bind fun selection _ => ?_
    refine (queryHasSlot_decides h partition).bind fun hasSlot _ => ?_
    split_ifs
    · exact decides_throw
    · exact decides_pure
    · refine queryTopology_bind_decides h fun topology => ?_
      rw [Option.map_eq_bind]
      exact (resolveSlots_decides h topology selection true).bind fun slots _ =>
        decides_pure

end SlotPlanner

end Table

end KairosBoot
