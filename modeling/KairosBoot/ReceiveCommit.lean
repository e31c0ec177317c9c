import KairosBoot.SessionFaults

/-! # What a receive hands to its sink

The data loop of `receive_locked` reads into a buffer and hands what it has read to the sink.  The
transport and the sink are truthful with respect to two observations of the outside: the bytes that
`read_data` has delivered so far, and the number of bytes that the sink has stored
(`TruthfulReceive`).  The calls of a receive are labelled with the bytes that they deliver
(`Delivers`).

The sink is written contiguously from offset zero, with the delivered bytes in their order and never
past the announced size (`Sunk`), and the count that a result or an error carries is the number of
bytes that the sink has stored.  A poisoned session refuses a receive with the error that it has
kept, and then the count is that of an earlier receive (`receive_commits_prefix_iff`). -/

namespace KairosBoot

open ByteLib Outcomes SessionEvent FastbootSession List

variable {τ α β ρ : Type}

/-! ### The sink -/

namespace SessionEvent

def isSinkWrite : SessionEvent → Bool
  | .sinkWrite _ _ _ => true
  | _ => false

/-- A call that neither delivers data nor stores any. -/
def isIdle : SessionEvent → Bool
  | .readData _ _ | .sinkWrite _ _ _ => false
  | _ => true

/-- The bytes that a call hands to the sink. -/
def sunk : SessionEvent → Bytes
  | .sinkWrite _ payload _ => payload
  | _ => []

/-- The number of bytes that the sink has stored in a call. -/
def stored : SessionEvent → ℕ
  | .sinkWrite _ _ result => result.transferred
  | _ => 0

end SessionEvent

/-- The bytes that a segment of calls hands to the sink. -/
def sunkIn (es : SessionLog) : Bytes := es.flatMap SessionEvent.sunk

/-- The number of bytes that the sink has stored in a segment of calls. -/
def storedIn (es : SessionLog) : ℕ := (es.map SessionEvent.stored).sum

/-- The sizes that the device has announced in a segment of calls. -/
def announcementsIn (limit : ℕ) (es : SessionLog) : List ℕ :=
  (responsesIn limit es).filterMap Response.announcedSize

/-- Every write to the sink begins where the one before has ended, the first one at `offset`. -/
def ContiguousFrom : ℕ → SessionLog → Prop
  | _, [] => True
  | offset, e :: es =>
      (∀ o payload result, e = .sinkWrite o payload result → o = offset) ∧
        ContiguousFrom (offset + e.sunk.length) es

section Segments

variable {limit offset : ℕ} {es es' : SessionLog}

@[simp] theorem sunkIn_append : sunkIn (es ++ es') = sunkIn es ++ sunkIn es' := flatMap_append

@[simp] theorem storedIn_append : storedIn (es ++ es') = storedIn es + storedIn es' := by
  simp [storedIn]

@[simp] theorem announcementsIn_append :
    announcementsIn limit (es ++ es') = announcementsIn limit es ++ announcementsIn limit es' := by
  simp [announcementsIn]

theorem contiguousFrom_append (h : ContiguousFrom offset es)
    (h' : ContiguousFrom (offset + (sunkIn es).length) es') : ContiguousFrom offset (es ++ es') := by
  induction es generalizing offset with
  | nil => exact h'
  | cons e es ih =>
      refine ⟨h.1, ih h.2 ?_⟩
      have hlen : (sunkIn (e :: es)).length = e.sunk.length + (sunkIn es).length := length_append
      rwa [add_assoc, ← hlen]

theorem sunkIn_of_isIdle (h : ∀ e ∈ es, e.isIdle) : sunkIn es = [] :=
  flatMap_eq_nil_iff.mpr fun e he => by
    have hidle := h e he
    cases e <;> first | rfl | cases hidle

theorem SessionEvent.not_isIdle_of_isSinkWrite {e : SessionEvent} (h : e.isSinkWrite) :
    ¬ e.isIdle := by
  cases e <;> simp_all [isSinkWrite, isIdle]

theorem SessionEvent.stored_of_isIdle {e : SessionEvent} (h : e.isIdle) : e.stored = 0 := by
  cases e <;> first | rfl | cases h

theorem storedIn_of_isIdle (h : ∀ e ∈ es, e.isIdle) : storedIn es = 0 := by
  induction es with
  | nil => rfl
  | cons e es ih =>
      obtain ⟨he, hes⟩ := forall_mem_cons.mp h
      change e.stored + storedIn es = 0
      rw [stored_of_isIdle he, ih hes]

theorem contiguousFrom_of_isIdle (h : ∀ e ∈ es, e.isIdle) : ContiguousFrom offset es := by
  induction es generalizing offset with
  | nil => trivial
  | cons e es ih =>
      obtain ⟨he, hes⟩ := forall_mem_cons.mp h
      refine ⟨fun o payload result heq => ?_, ih hes⟩
      rw [heq] at he
      cases he

theorem announcementsIn_of_isInbound (h : ∀ e ∈ es, e.isInbound) :
    announcementsIn limit es = [] := by
  unfold announcementsIn
  rw [responsesIn_eq_nil fun e he => response_of_isInbound (h e he)]
  rfl

end Segments

/-! ### Truthful transports and sinks -/

/-- A read delivers as many bytes as its result says, a sink stores as many of the bytes it is given
as its result says, and no other call does either. -/
structure TruthfulReceive (env : Environment τ) (delivered : τ → Bytes)
    (stored : τ → ℕ) : Prop where
  readData_length : ∀ size world, (env.readData size world).1.2.length
    = (env.readData size world).1.1.transferred
  readData_le : ∀ size world, (env.readData size world).1.1.transferred ≤ size
  readData : ∀ size world, delivered (env.readData size world).2
      = delivered world ++ (env.readData size world).1.2 ∧
    stored (env.readData size world).2 = stored world
  sinkWrite_le : ∀ offset payload world,
    (env.sinkWrite offset payload world).1.transferred ≤ payload.length
  sinkWrite : ∀ offset payload world,
    delivered (env.sinkWrite offset payload world).2 = delivered world ∧
    stored (env.sinkWrite offset payload world).2
      = stored world + (env.sinkWrite offset payload world).1.transferred
  write : ∀ offered world, delivered (env.write offered world).2 = delivered world ∧
    stored (env.write offered world).2 = stored world
  writeSource : ∀ stream ∈ env.writeSource, ∀ source world,
    delivered (stream source world).2 = delivered world ∧
    stored (stream source world).2 = stored world
  read : ∀ size world, delivered (env.read size world).2 = delivered world ∧
    stored (env.read size world).2 = stored world
  requestCancel : ∀ world, delivered (env.requestCancel world) = delivered world ∧
    stored (env.requestCancel world) = stored world
  close : ∀ world, delivered (env.close world) = delivered world ∧
    stored (env.close world) = stored world
  observe : ∀ committed total world,
    delivered (env.observe committed total world).2 = delivered world ∧
    stored (env.observe committed total world).2 = stored world
  allocate : ∀ size world, delivered (env.allocate size world).2 = delivered world ∧
    stored (env.allocate size world).2 = stored world

/-- Calls that deliver nothing. -/
def withNothing (es : SessionLog) : List (SessionEvent × Bytes) :=
  es.map fun e => (e, [])

@[simp] theorem map_fst_withNothing (es : SessionLog) : (withNothing es).map Prod.fst = es := by
  rw [withNothing, map_map]
  exact map_id es

@[simp] theorem flatMap_snd_withNothing (es : SessionLog) :
    (withNothing es).flatMap Prod.snd = [] := by
  simp [withNothing]

theorem withNothing_append (es es' : SessionLog) :
    withNothing (es ++ es') = withNothing es ++ withNothing es' :=
  map_append

/-- A session reaches another one with calls that are labelled with the bytes they deliver. -/
def Delivers (delivered : τ → Bytes) (stored : τ → ℕ) (s : Session τ)
    (calls : List (SessionEvent × Bytes)) (s' : Session τ) : Prop :=
  s'.log = s.log ++ calls.map Prod.fst ∧
    delivered s'.world = delivered s.world ++ calls.flatMap Prod.snd ∧
    stored s'.world = stored s.world + storedIn (calls.map Prod.fst)

section Delivers

variable {delivered : τ → Bytes} {stored : τ → ℕ} {env : Environment τ}

instance delivers_tracing : Tracing (Delivers delivered stored) where
  refl s := ⟨by simp, by simp, rfl⟩
  trans h h' := by
    refine ⟨?_, ?_, ?_⟩
    · rw [h'.1, h.1, List.map_append, List.append_assoc]
    · rw [h'.2.1, h.2.1, List.flatMap_append, List.append_assoc]
    · rw [h'.2.2, h.2.2, List.map_append, storedIn_append, add_assoc]

theorem TruthfulReceive.moves (h : TruthfulReceive env delivered stored) {world world' : τ}
    {e : SessionEvent} (hmov : e.Moves env world world') (hidle : e.isIdle) :
    delivered world' = delivered world ∧ stored world' = stored world := by
  cases e with
  | write phase offered result =>
      have := h.write offered world
      rwa [hmov] at this
  | writeSource offered result =>
      obtain ⟨stream, hstr, hmov⟩ := hmov
      have := h.writeSource stream hstr offered world
      rwa [hmov] at this
  | read result packet =>
      obtain ⟨size, rfl⟩ := hmov
      exact h.read size world
  | readData requested result => cases hidle
  | sinkWrite offset payload result => cases hidle
  | observe committed total outcome =>
      have := h.observe committed total world
      rwa [hmov] at this
  | allocate size succeeded =>
      have := h.allocate size world
      rwa [hmov] at this
  | requestCancel =>
      cases hmov
      exact h.requestCancel world
  | close =>
      cases hmov
      exact h.close world

theorem TruthfulReceive.delivers (h : TruthfulReceive env delivered stored) {s s' : Session τ}
    {es : SessionLog} (htrc : Traced env s es s') (hidle : ∀ e ∈ es, e.isIdle) :
    Delivers delivered stored s (withNothing es) s' := by
  have hpath : ∀ {world world' : τ} {es : SessionLog},
      Path (SessionEvent.Moves env) world es world' → (∀ e ∈ es, e.isIdle) →
      delivered world' = delivered world ∧ stored world' = stored world := by
    intro world world' es hpath hidle
    induction hpath with
    | nil world => exact ⟨rfl, rfl⟩
    | cons hmov _ ih =>
        obtain ⟨hfst, hrest⟩ := forall_mem_cons.mp hidle
        obtain ⟨hd, hs⟩ := ih hrest
        obtain ⟨hd', hs'⟩ := h.moves hmov hfst
        exact ⟨hd.trans hd', hs.trans hs'⟩
  obtain ⟨hd, hs⟩ := hpath htrc.2 hidle
  refine ⟨?_, ?_, ?_⟩
  · rw [map_fst_withNothing, htrc.1]
  · rw [flatMap_snd_withNothing, append_nil, hd]
  · rw [map_fst_withNothing, storedIn_of_isIdle hidle, hs, add_zero]

end Delivers

/-! ### The data loop -/

/-- What some calls hand to the sink after `offset` bytes: the delivered bytes in their order,
contiguously and not past the announced size. -/
structure Sunk (announced offset : ℕ) (calls : List (SessionEvent × Bytes)) : Prop where
  contiguous : ContiguousFrom offset (calls.map Prod.fst)
  delivered : sunkIn (calls.map Prod.fst) <+: calls.flatMap Prod.snd
  length_le : offset + (sunkIn (calls.map Prod.fst)).length ≤ announced

/-- An error carries the number of bytes that the sink has stored. -/
structure InboundTold (announced count : ℕ) (error : ProtocolError) : Prop where
  transferred : error.inboundTransferred = count
  fully : error.inboundCertainty = .fullyTransferred → count = announced
  none : error.inboundCertainty = .notTransferred → count = 0

/-- A part of the data phase that has failed. -/
structure DataFailed (announced offset : ℕ) (r : Except ProtocolError α)
    (calls : List (SessionEvent × Bytes)) : Prop where
  sunk : Sunk announced offset calls
  told : ∃ error, r = .error error ∧
    InboundTold announced (offset + storedIn (calls.map Prod.fst)) error

/-- A part of the data phase that has handed everything it was delivered to the sink. -/
structure DataDone (announced offset count : ℕ) (calls : List (SessionEvent × Bytes)) : Prop where
  sunk : Sunk announced offset calls
  inbound : ∀ e ∈ calls.map Prod.fst, e.isInbound
  all : sunkIn (calls.map Prod.fst) = calls.flatMap Prod.snd
  length_eq : (sunkIn (calls.map Prod.fst)).length = count
  stored_eq : storedIn (calls.map Prod.fst) = count

/-- What a part of the data phase leaves: a value and a number of stored bytes that are related by
`Done`, or an error. -/
inductive DataKept (announced offset : ℕ) (Done : α → ℕ → Prop) :
    Except ProtocolError α → List (SessionEvent × Bytes) → Prop
  | done {value : α} {count : ℕ} {calls : List (SessionEvent × Bytes)}
      (data : DataDone announced offset count calls) (done : Done value count) :
      DataKept announced offset Done (.ok value) calls
  | failed {r : Except ProtocolError α} {calls : List (SessionEvent × Bytes)}
      (failure : DataFailed announced offset r calls) : DataKept announced offset Done r calls

section Data

variable {announced offset : ℕ} {calls calls' : List (SessionEvent × Bytes)}

/-- A part that hands over all it is delivered may be followed by another one. -/
theorem Sunk.append (h : Sunk announced offset calls)
    (hall : sunkIn (calls.map Prod.fst) = calls.flatMap Prod.snd)
    (h' : Sunk announced (offset + (sunkIn (calls.map Prod.fst)).length) calls') :
    Sunk announced offset (calls ++ calls') where
  contiguous := by
    rw [map_append]
    exact contiguousFrom_append h.contiguous h'.contiguous
  delivered := by
    rw [map_append, sunkIn_append, flatMap_append, hall]
    exact (prefix_append_right_inj _).mpr h'.delivered
  length_le := by
    rw [map_append, sunkIn_append, length_append]
    have := h'.length_le
    omega

theorem Sunk.append_idle (h : Sunk announced offset calls) {es : SessionLog}
    (hidle : ∀ e ∈ es, e.isIdle) : Sunk announced offset (calls ++ withNothing es) := by
  refine ⟨?_, ?_, ?_⟩
  · rw [map_append, map_fst_withNothing]
    exact contiguousFrom_append h.contiguous (contiguousFrom_of_isIdle hidle)
  · rw [map_append, map_fst_withNothing, sunkIn_append, sunkIn_of_isIdle hidle,
      append_nil, flatMap_append]
    exact h.delivered.trans (prefix_append _ _)
  · rw [map_append, map_fst_withNothing, sunkIn_append, sunkIn_of_isIdle hidle, append_nil]
    exact h.length_le

theorem dataDone_idle {es : SessionLog} (h : offset ≤ announced) (hidle : ∀ e ∈ es, e.isIdle)
    (hinb : ∀ e ∈ es, e.isInbound) : DataDone announced offset 0 (withNothing es) := by
  have hsunk := sunkIn_of_isIdle hidle
  rw [← map_fst_withNothing es] at hidle hinb hsunk
  refine ⟨⟨contiguousFrom_of_isIdle hidle, ?_, ?_⟩, hinb, ?_, ?_, storedIn_of_isIdle hidle⟩
  · rw [hsunk]
    exact nil_prefix
  · rwa [hsunk]
  · rw [hsunk, flatMap_snd_withNothing]
  · rw [hsunk]
    rfl

theorem DataDone.append {count count' : ℕ} (h : DataDone announced offset count calls)
    (h' : DataDone announced (offset + count) count' calls') :
    DataDone announced offset (count + count') (calls ++ calls') where
  sunk := h.sunk.append h.all (h.length_eq.symm ▸ h'.sunk)
  inbound := by
    rw [map_append]
    exact forall_mem_append.mpr ⟨h.inbound, h'.inbound⟩
  all := by rw [map_append, sunkIn_append, h.all, h'.all, flatMap_append]
  length_eq := by
    rw [map_append, sunkIn_append, length_append, h.length_eq, h'.length_eq]
  stored_eq := by rw [map_append, storedIn_append, h.stored_eq, h'.stored_eq]

theorem DataDone.append_failed {count : ℕ} {r : Except ProtocolError α}
    (h : DataDone announced offset count calls)
    (h' : DataFailed announced (offset + count) r calls') :
    DataFailed announced offset r (calls ++ calls') where
  sunk := h.sunk.append h.all (h.length_eq.symm ▸ h'.sunk)
  told := by
    rw [map_append, storedIn_append, h.stored_eq, ← add_assoc]
    exact h'.told

theorem dataDone_nil (h : offset ≤ announced) : DataDone announced offset 0 [] :=
  dataDone_idle h (forall_mem_nil _) (forall_mem_nil _)

theorem DataDone.append_idle {count : ℕ} (h : DataDone announced offset count calls)
    {es : SessionLog} (hidle : ∀ e ∈ es, e.isIdle) (hinb : ∀ e ∈ es, e.isInbound) :
    DataDone announced offset count (calls ++ withNothing es) := by
  have hle := h.sunk.length_le
  rw [h.length_eq] at hle
  exact h.append (dataDone_idle hle hidle hinb)

variable {Done : α → ℕ → Prop}

theorem DataKept.ok {value : α} (h : DataKept announced offset Done (.ok value) calls) :
    ∃ count, DataDone announced offset count calls ∧ Done value count := by
  cases h with
  | done data done => exact ⟨_, data, done⟩
  | failed failure =>
      obtain ⟨error, herr, -⟩ := failure.told
      cases herr

theorem DataKept.error {error : ProtocolError}
    (h : DataKept announced offset Done (.error error) calls) :
    DataFailed announced offset (.error error : Except ProtocolError β) calls := by
  cases h with
  | failed failure =>
      obtain ⟨error', herr, htold⟩ := failure.told
      cases herr
      exact ⟨failure.sunk, error, rfl, htold⟩

end Data

namespace FastbootSession

variable {setup : SessionSetup τ} {delivered : τ → Bytes} {stored : τ → ℕ}
  {announced offset : ℕ} {informational : List Response}

variable {Q : Except ProtocolError β → Session τ → List (SessionEvent × Bytes) → Prop}
  {s : Session τ}

theorem delivers_perform_bind {call : τ → ρ × τ} {event : ρ → SessionEvent} {L : ρ → Bytes}
    {P : ρ → Prop} {f : ρ → SessionM τ β}
    (hcall : ∀ world, delivered (call world).2 = delivered world ++ L (call world).1 ∧
      stored (call world).2 = stored world + (event (call world).1).stored)
    (hval : ∀ world, P (call world).1)
    (h : ∀ value s', P value → Emits (Delivers delivered stored) (f value) s'
      fun r s'' calls => Q r s'' ((event value, L value) :: calls)) :
    Emits (Delivers delivered stored) (perform call event >>= f) s Q := by
  obtain ⟨calls, hcalls, hq⟩ := h (call s.world).1
    { s with world := (call s.world).2, log := s.log ++ [event (call s.world).1] }
    (hval s.world)
  refine ⟨(event (call s.world).1, L (call s.world).1) :: calls, ⟨?_, ?_, ?_⟩, hq⟩
  · exact hcalls.1.trans (by simp)
  · refine hcalls.2.1.trans ?_
    rw [(hcall s.world).1, append_assoc]
    rfl
  · refine hcalls.2.2.trans ?_
    rw [(hcall s.world).2, add_assoc]
    rfl

theorem delivers_idle_bind {call : τ → ρ × τ} {event : ρ → SessionEvent} {f : ρ → SessionM τ β}
    (hcall : ∀ world, delivered (call world).2 = delivered world ∧
      stored (call world).2 = stored world) (hidle : ∀ value, (event value).isIdle)
    (h : ∀ value s', Emits (Delivers delivered stored) (f value) s'
      fun r s'' calls => Q r s'' ((event value, []) :: calls)) :
    Emits (Delivers delivered stored) (perform call event >>= f) s Q := by
  refine delivers_perform_bind (P := fun _ => True) (fun world => ?_) (fun _ => trivial)
    fun value s' _ => h value s'
  rw [(hcall world).1, (hcall world).2, append_nil, stored_of_isIdle (hidle _), add_zero]
  exact ⟨rfl, rfl⟩

theorem isIdle_of_isRead {e : SessionEvent} (h : e.isRead) : e.isIdle := by
  cases e <;> first | rfl | cases h

theorem delivers_setState_bind {state : SessionState} {f : Unit → SessionM τ β}
    (h : ∀ s', Emits (Delivers delivered stored) (f ()) s' Q) :
    Emits (Delivers delivered stored) (setState state >>= f) s Q :=
  h { s with state := state }

theorem delivers_poisonLocked {error : ProtocolError}
    {Q : Except ProtocolError α → Session τ → List (SessionEvent × Bytes) → Prop}
    (h : ∀ s', Q (.error error) s' []) :
    Emits (Delivers delivered stored) (poisonLocked error) s Q :=
  ⟨[], ⟨(append_nil s.log).symm, (append_nil _).symm, rfl⟩, h _⟩

theorem readDataFault_committed {requested committed : ℕ} {transfer : TransferResult}
    {fault : ReceiveFault} (h : readDataFault requested committed transfer = some fault) :
    fault.committed = committed := by
  unfold readDataFault at h
  split_ifs at h <;>
  · cases h
    rfl

theorem sinkFault_committed {size committed : ℕ} {result : TransferResult} {fault : ReceiveFault}
    (hle : result.transferred ≤ size) (h : sinkFault size committed result = some fault) :
    fault.committed = committed + result.transferred := by
  unfold sinkFault at h
  rw [if_neg (not_lt.mpr hle)] at h
  split_ifs at h <;>
  · cases h
    rfl

theorem sinkFault_eq_none {size committed : ℕ} {result : TransferResult}
    (h : sinkFault size committed result = none) : result.transferred = size := by
  unfold sinkFault at h
  split_ifs at h with hmore hstat hcrt
  simp only [not_or, not_not] at hcrt
  exact hcrt.2.2

/-- What a round reads into the buffer is what it hands to the sink. -/
theorem take_overwrite_take {buffer data : Bytes} {requested : ℕ}
    (hdata : data.length ≤ requested) (hbuf : requested ≤ buffer.length) :
    (overwrite buffer 0 (data.take requested)).take data.length = data ∧
      (overwrite buffer 0 (data.take requested)).length = buffer.length := by
  rw [take_of_length_le hdata]
  refine ⟨?_, length_overwrite (by omega)⟩
  have htake : (overwrite buffer 0 data).take (0 + data.length)
      = buffer.take 0 ++ data.take data.length :=
    take_overwrite (Nat.zero_le _) (le_refl data.length)
  rwa [zero_add, take_zero, nil_append, take_length] at htake

variable (htruthful : TruthfulReceive setup.env delivered stored)

include htruthful

theorem emits_delivers {x : SessionM τ α}
    {P : Except ProtocolError α → Session τ → SessionLog → Prop} (h : Calls setup x s P)
    (hidle : ∀ r s' es, P r s' es → ∀ e ∈ es, e.isIdle) :
    Emits (Delivers delivered stored) x s
      fun r s' calls => ∃ es, calls = withNothing es ∧ P r s' es := by
  obtain ⟨es, htrc, hp⟩ := h
  exact ⟨withNothing es, htruthful.delivers htrc (hidle _ _ es hp), es, rfl, hp⟩

/-- A failure reports the bytes that were stored before it. -/
theorem receiveFailure_kept {fault : ReceiveFault} {calls : List (SessionEvent × Bytes)}
    (hsunk : Sunk announced offset calls)
    (hcnt : fault.committed = offset + storedIn (calls.map Prod.fst)) (s : Session τ) :
    Emits (Delivers delivered stored)
      (receiveFailure setup announced informational fault : SessionM τ α) s
      fun r _ calls' => DataFailed announced offset r (calls ++ calls') := by
  have hidle : ∀ e ∈ [SessionEvent.requestCancel, SessionEvent.close], e.isIdle := by
    simp [isIdle]
  refine delivers_idle_bind htruthful.requestCancel (fun _ => rfl) fun _ s₁ => ?_
  refine delivers_idle_bind htruthful.close (fun _ => rfl) fun _ s₂ => ?_
  refine delivers_poisonLocked fun s' => ⟨?_, _, rfl, ?_⟩
  · exact hsunk.append_idle hidle
  · have hstor : storedIn ((calls ++ [(requestCancel, []), (.close, [])]).map
        Prod.fst) = storedIn (calls.map Prod.fst) := by
      rw [map_append, storedIn_append]
      exact congrArg _ (storedIn_of_isIdle hidle)
    rw [hstor, ← hcnt]
    refine ⟨rfl, fun hfull => ?_, fun hnone => ?_⟩
    · by_contra hne
      simp only [hne, false_and, if_false] at hfull
      split_ifs at hfull
    · by_contra hne
      simp only [hne, false_and, if_false] at hnone
      split_ifs at hnone

/-- The observer lets the transfer go on, or it ends with a failure. -/
theorem observeProgress_kept {observer : Bool} {count : ℕ} {calls : List (SessionEvent × Bytes)}
    (hdone : DataDone announced offset count calls) (s : Session τ) :
    Emits (Delivers delivered stored)
      (observeProgress setup observer announced informational (offset + count)) s
      fun r _ calls' => DataKept announced offset (fun _ n => n = count) r (calls ++ calls') := by
  unfold observeProgress
  split_ifs
  · refine delivers_idle_bind (htruthful.observe _ _) (fun _ => rfl) fun outcome s' => ?_
    have hobs : DataDone announced offset count
        (calls ++ [(.observe (offset + count) announced outcome, [])]) :=
      hdone.append_idle (forall_mem_singleton.mpr rfl) (forall_mem_singleton.mpr rfl)
    cases hflt : observerFault announced (offset + count) outcome with
    | none => exact emits_pure (.done hobs rfl)
    | some fault =>
        have hcommitted : fault.committed = offset + count := by
          cases outcome <;> cases hflt <;> rfl
        refine (receiveFailure_kept htruthful hobs.sunk ?_ s').mono fun r _ calls' h => ?_
        · rw [hobs.stored_eq, hcommitted]
        · rw [append_assoc] at h
          exact .failed h
  · refine emits_pure ?_
    rw [append_nil]
    exact .done hdone rfl

/-- A round of the data loop stores at least a byte and no more than are outstanding. -/
theorem receiveChunk_kept {observer : Bool} {buffer : Bytes} (hoff : offset ≤ announced)
    (s : Session τ) :
    Emits (Delivers delivered stored)
      (receiveChunk setup observer announced informational buffer offset) s
      fun r _ calls => DataKept announced offset (fun value n => n = value.2 ∧ 0 < n ∧
        value.1.length = buffer.length) r calls := by
  unfold receiveChunk
  generalize hreq : min buffer.length (announced - offset) = requested
  refine delivers_perform_bind (P := fun transfer : TransferResult × Bytes =>
    transfer.2.length = transfer.1.transferred ∧ transfer.1.transferred ≤ requested)
    (htruthful.readData requested)
    (fun world => ⟨htruthful.readData_length requested world, htruthful.readData_le requested world⟩)
    fun transfer s₁ htransfer => ?_
  obtain ⟨hlen, hle⟩ := htransfer
  have hread : Sunk announced offset [(.readData requested transfer.1, transfer.2)] :=
    ⟨⟨fun _ _ _ h => (by cases h), trivial⟩, nil_prefix, hoff⟩
  cases hflt : readDataFault requested offset transfer.1 with
  | some fault =>
      exact (receiveFailure_kept htruthful hread (readDataFault_committed hflt) s₁).mono
        fun _ _ _ h => .failed h
  | none =>
      obtain ⟨-, hpos⟩ := readDataFault_eq_none hflt
      have hdata : transfer.2.length ≤ requested := hlen.trans_le hle
      have hbuf : requested ≤ buffer.length := hreq ▸ min_le_left _ _
      obtain ⟨hpay, hkept⟩ := take_overwrite_take hdata hbuf
      rw [hlen] at hpay
      simp only [hpay]
      refine delivers_perform_bind (L := fun _ => []) (P := fun result : TransferResult =>
        result.transferred ≤ transfer.2.length)
        (fun world => ?_) (htruthful.sinkWrite_le offset transfer.2) fun result s₂ hres => ?_
      · rw [append_nil]
        exact htruthful.sinkWrite offset transfer.2 world
      have hsunk : Sunk announced offset [(.readData requested transfer.1, transfer.2),
          (.sinkWrite offset transfer.2 result, [])] := by
        refine ⟨?_, ?_, ?_⟩
        · refine ⟨fun _ _ _ h => (by cases h), fun _ _ _ h => ?_, trivial⟩
          cases h
          rfl
        · simp [sunkIn, SessionEvent.sunk]
        · simp only [sunkIn, SessionEvent.sunk, map_cons, map_nil, flatMap_cons,
            flatMap_nil, nil_append, append_nil]
          omega
      have hstor : storedIn ([(SessionEvent.readData requested transfer.1, transfer.2),
          (.sinkWrite offset transfer.2 result, [])].map Prod.fst) = result.transferred := by
        simp [storedIn, SessionEvent.stored]
      cases hsink : sinkFault transfer.2.length offset result with
      | some fault =>
          refine (receiveFailure_kept htruthful hsunk ?_ s₂).mono fun _ _ _ h => .failed h
          rw [hstor, sinkFault_committed hres hsink]
      | none =>
          have hwhole := sinkFault_eq_none hsink
          have hdone : DataDone announced offset transfer.1.transferred
              [(.readData requested transfer.1, transfer.2),
                (.sinkWrite offset transfer.2 result, [])] := by
            refine ⟨hsunk, by simp [SessionEvent.isInbound], by simp [sunkIn, SessionEvent.sunk],
              ?_, ?_⟩
            · simp [sunkIn, SessionEvent.sunk, hlen]
            · rw [hstor, hwhole, hlen]
          refine (observeProgress_kept htruthful hdone s₂).bind ?_ ?_
          · intro _ s₃ calls h
            obtain ⟨count, data, hcnt⟩ := h.ok
            refine emits_pure ?_
            rw [append_nil]
            exact .done data ⟨hcnt, by omega, hkept⟩
          · intro error s₃ calls h
            exact .failed h.error

/-- The data loop stores exactly the bytes that are outstanding. -/
theorem receiveLoop_kept {observer : Bool} (fuel : ℕ) (buffer : Bytes) (offset : ℕ)
    (hfuel : announced ≤ offset + fuel) (hoff : offset ≤ announced) (s : Session τ) :
    Emits (Delivers delivered stored)
      (receiveLoop setup observer announced informational fuel buffer offset) s
      fun r _ calls => DataKept announced offset
        (fun committed n => committed = announced ∧ n = announced - offset) r calls := by
  have hend := dataDone_nil hoff
  induction fuel generalizing buffer offset s with
  | zero => exact emits_pure (.done hend (by omega))
  | succ fuel ih =>
      unfold receiveLoop
      split_ifs with hlt
      · refine (receiveChunk_kept htruthful hoff s).bind ?_ ?_
        · rintro ⟨buffer', transferred⟩ s₁ calls h
          obtain ⟨count, data, rfl, hpos, -⟩ := h.ok
          have hle := data.sunk.length_le
          rw [data.length_eq] at hle
          refine (ih buffer' (offset + count) (by omega) hle s₁
            (dataDone_nil hle)).mono fun r s₂ calls' h' => ?_
          cases h' with
          | done data' hcnt' =>
              exact .done (data.append data') ⟨hcnt'.1, by omega⟩
          | failed failure => exact .failed (data.append_failed failure)
        · intro error s₁ calls h
          exact .failed h.error
      · exact emits_pure (.done hend (by omega))

/-- What the part of a receive after its DATA response leaves: everything is stored and the device
has answered, or it has failed. -/
inductive ReceiveKept (limit announced : ℕ) :
    Except ProtocolError CommandResult → List (SessionEvent × Bytes) → Prop
  | ended {result : CommandResult} {calls : List (SessionEvent × Bytes)}
      {es : SessionLog} {infos : List Response}
      (data : DataDone announced 0 announced calls)
      (answers : Answers limit es infos result.terminal) (terminal : result.terminal.isTerminal)
      (transferred : result.inboundTransferred = announced)
      (certainty : result.inboundCertainty = .fullyTransferred) :
      ReceiveKept limit announced (.ok result) (calls ++ withNothing es)
  | unanswered {error : ProtocolError} {calls : List (SessionEvent × Bytes)}
      {es : SessionLog} (data : DataDone announced 0 announced calls)
      (reads : ∀ e ∈ es, e.isRead) (transferred : error.inboundTransferred = announced)
      (certainty : error.inboundCertainty = .fullyTransferred) :
      ReceiveKept limit announced (.error error) (calls ++ withNothing es)
  | failed {r : Except ProtocolError CommandResult} {calls : List (SessionEvent × Bytes)}
      (failure : DataFailed announced 0 r calls) : ReceiveKept limit announced r calls

theorem readTerminalLocked_kept (informational : List Response) (s : Session τ) :
    Emits (Delivers delivered stored)
      (readTerminalLocked setup informational .finalResponse .fullyTransferred) s
      fun r s' calls => ∃ es, calls = withNothing es ∧
        TerminalOutcome setup.options.maxResponseBytes
          (setup.options.maxInformationalResponses - informational.length) r s' es := by
  refine emits_delivers htruthful (readTerminalLocked_emits informational _ _ s) ?_
  intro r s' es h e he
  cases h with
  | answered answers _ _ _ => exact isIdle_of_isRead (answers.reads e he)
  | failed reads _ _ => exact isIdle_of_isRead (reads e he)

/-- The data phase of a receive, and the response after it. -/
theorem receiveData_kept (observer : Bool) (announced : ℕ) (informational : List Response)
    (s : Session τ) :
    Emits (Delivers delivered stored) (receiveData setup observer announced informational) s
      fun r _ calls => ReceiveKept setup.options.maxResponseBytes announced r calls := by
  refine delivers_idle_bind (htruthful.allocate _) (fun _ => rfl) fun allocated s₁ => ?_
  generalize hev : allocate _ allocated = event
  have hidle : event.isIdle := by rw [← hev]; rfl
  have hinb : event.isInbound := by rw [← hev]; rfl
  have hbegin : DataDone announced 0 0 (withNothing [event]) :=
    (dataDone_nil (Nat.zero_le _)).append_idle (forall_mem_singleton.mpr hidle)
      (forall_mem_singleton.mpr hinb)
  split_ifs with halloc
  · refine delivers_setState_bind fun s₂ => ?_
    refine (receiveLoop_kept htruthful announced _ 0 (by omega) (Nat.zero_le _) s₂).bind ?_ ?_
    · intro committed s₃ calls h
      obtain ⟨received, data, rfl, rfl⟩ := h.ok
      have hdata : DataDone received 0 received ((event, []) :: calls) := by
        have := hbegin.append data
        rwa [zero_add] at this
      refine delivers_setState_bind fun s₄ => ?_
      have hterm : Emits (Delivers delivered stored)
          (tryCatch (readTerminalLocked setup informational .finalResponse .fullyTransferred)
            fun error => throw (receivedError received received error)) s₄
          fun r s' calls' => (∀ result, r = .ok result → ∃ es infos,
              calls' = withNothing es ∧
              Answers setup.options.maxResponseBytes es infos result.terminal ∧
              result.terminal.isTerminal) ∧
            ∀ error, r = .error error → ∃ es : SessionLog,
              calls' = withNothing es ∧ (∀ e ∈ es, e.isRead) ∧ error.inboundTransferred = received ∧
              error.inboundCertainty = .fullyTransferred := by
        refine (readTerminalLocked_kept htruthful informational s₄).tryCatch ?_ ?_
        · rintro result s' calls' ⟨es, hes, h⟩
          refine ⟨fun result' hres => ?_, fun _ h => (by cases h)⟩
          cases hres
          cases h with
          | answered answers terminal _ _ => exact ⟨es, _, hes, answers, terminal⟩
        · rintro error s' calls' ⟨es, hes, h⟩
          refine emits_throw ⟨fun _ h => (by cases h), fun error' herr => ?_⟩
          cases herr
          rw [append_nil]
          cases h with
          | failed reads _ _ => exact ⟨es, hes, reads, rfl, rfl⟩
      refine hterm.bind ?_ ?_
      · intro result s' calls' h
        obtain ⟨es, infos, rfl, answers, terminal⟩ := h.1 result rfl
        refine emits_pure ?_
        rw [append_nil]
        exact .ended hdata answers terminal rfl rfl
      · intro error s' calls' h
        obtain ⟨es, rfl, reads, htran, hcert⟩ := h.2 error rfl
        exact .unanswered hdata reads htran hcert
    · intro error s₃ calls h
      exact .failed (hbegin.append_failed h.error)
  · refine delivers_idle_bind htruthful.requestCancel (fun _ => rfl) fun _ s₂ => ?_
    refine delivers_idle_bind htruthful.close (fun _ => rfl) fun _ s₃ => ?_
    refine delivers_poisonLocked fun s' => .failed ⟨?_, _, rfl, ?_⟩
    · have hrest : ∀ e ∈ [requestCancel, .close], e.isIdle := by
        simp [isIdle]
      exact hbegin.sunk.append_idle hrest
    · refine ⟨?_, fun h => (by cases h), fun h => (by cases h)⟩
      have hall : ∀ e ∈ [event, .requestCancel, .close], e.isIdle :=
        forall_mem_cons.mpr ⟨hidle, by simp [isIdle]⟩
      exact (congrArg (0 + ·) (storedIn_of_isIdle hall)).symm

/-! ### The operation -/

omit htruthful in
theorem Answers.announcementsIn {limit : ℕ} {es : SessionLog} {infos : List Response}
    {final : Response} (h : Answers limit es infos final) :
    announcementsIn limit es = final.announcedSize.toList := by
  have hinfos : infos.filterMap Response.announcedSize = [] := filterMap_eq_nil_iff.mpr fun r hr =>
      Response.announcedSize_of_isInformational (h.informational r hr)
  unfold KairosBoot.announcementsIn
  rw [h.responses, filterMap_append, hinfos, nil_append]
  cases hfin : final.announcedSize <;> simp [hfin]

end FastbootSession

/-- The number of received bytes that a result or an error carries, and its certainty. -/
def inboundOf : Except ProtocolError CommandResult → ℕ × TransferCertainty
  | .ok result => (result.inboundTransferred, result.inboundCertainty)
  | .error error => (error.inboundTransferred, error.inboundCertainty)

/-- What a receive hands to its sink: the delivered bytes in their order, contiguously from zero and
not past a size that was announced and is within the caller's limit; a result comes after the whole
size. -/
structure CommitsPrefix (limit maximumBytes : ℕ) (r : Except ProtocolError CommandResult)
    (es : SessionLog) (bytes : Bytes) : Prop where
  contiguous : ContiguousFrom 0 es
  delivered : sunkIn es <+: bytes
  bounded : ∀ e ∈ es, e.isSinkWrite → ∃ announced, (announcementsIn limit es).head? = some announced ∧
    0 < announced ∧ announced ≤ maximumBytes ∧ (sunkIn es).length ≤ announced
  whole : ∀ result, r = .ok result → ∀ announced ∈ announcementsIn limit es,
    storedIn es = announced

/-- The report of a receive is about the bytes that its sink has stored. -/
structure ReportsInbound (limit : ℕ) (r : Except ProtocolError CommandResult)
    (es : SessionLog) : Prop where
  transferred : (inboundOf r).1 = storedIn es
  fully : (inboundOf r).2 = .fullyTransferred → (announcementsIn limit es).head? = some (storedIn es)
  none : (inboundOf r).2 = .notTransferred → storedIn es = 0

section Reports

variable {limit maximumBytes announced : ℕ} {r : Except ProtocolError CommandResult}
  {es : SessionLog} {calls : List (SessionEvent × Bytes)}

theorem commitsPrefix_of_isIdle (hidle : ∀ e ∈ es, e.isIdle)
    (hwhole : ∀ result, r = .ok result → announcementsIn limit es = []) :
    CommitsPrefix limit maximumBytes r es [] where
  contiguous := contiguousFrom_of_isIdle hidle
  delivered := (sunkIn_of_isIdle hidle).symm ▸ prefix_rfl
  bounded e he hsink := absurd (hidle e he) (not_isIdle_of_isSinkWrite hsink)
  whole result hres announced hmem := by
    rw [hwhole result hres] at hmem
    cases hmem

theorem reportsInbound_of_isIdle (hidle : ∀ e ∈ es, e.isIdle) (htran : (inboundOf r).1 = 0)
    (hcert : (inboundOf r).2 ≠ .fullyTransferred) : ReportsInbound limit r es where
  transferred := htran.trans (storedIn_of_isIdle hidle).symm
  fully h := absurd h hcert
  none _ := storedIn_of_isIdle hidle

end Reports

namespace FastbootSession

section Kept

variable {limit maximumBytes announced : ℕ} {r : Except ProtocolError CommandResult}
  {es : SessionLog} {calls : List (SessionEvent × Bytes)}

theorem ReceiveKept.sunk (h : ReceiveKept limit announced r calls) : Sunk announced 0 calls := by
  cases h with
  | ended data answers _ _ _ =>
      exact data.sunk.append_idle fun e he => isIdle_of_isRead (answers.reads e he)
  | unanswered data reads _ _ =>
      exact data.sunk.append_idle fun e he => isIdle_of_isRead (reads e he)
  | failed failure => exact failure.sunk

theorem ReceiveKept.told (h : ReceiveKept limit announced r calls) :
    (inboundOf r).1 = storedIn (calls.map Prod.fst) ∧
      ((inboundOf r).2 = .fullyTransferred → storedIn (calls.map Prod.fst) = announced) ∧
      ((inboundOf r).2 = .notTransferred → storedIn (calls.map Prod.fst) = 0) := by
  have hrds : ∀ {calls : List (SessionEvent × Bytes)} {es : SessionLog},
      DataDone announced 0 announced calls → (∀ e ∈ es, e.isRead) →
      storedIn ((calls ++ withNothing es).map Prod.fst) = announced := by
    intro calls es data reads
    rw [map_append, map_fst_withNothing, storedIn_append, data.stored_eq,
      storedIn_of_isIdle fun e he => isIdle_of_isRead (reads e he), add_zero]
  cases h with
  | ended data answers _ transferred certainty =>
      rw [hrds data answers.reads]
      exact ⟨transferred, fun _ => rfl, fun h => by cases certainty.symm.trans h⟩
  | unanswered data reads transferred certainty =>
      rw [hrds data reads]
      exact ⟨transferred, fun _ => rfl, fun h => by cases certainty.symm.trans h⟩
  | failed failure =>
      obtain ⟨error, rfl, htold⟩ := failure.told
      rw [zero_add] at htold
      exact ⟨htold.transferred, htold.fully, htold.none⟩

theorem ReceiveKept.whole {result : CommandResult}
    (h : ReceiveKept limit announced (.ok result) calls) :
    announcementsIn limit (calls.map Prod.fst) = [] ∧
      storedIn (calls.map Prod.fst) = announced := by
  cases h with
  | ended data answers terminal _ _ =>
      rw [map_append, map_fst_withNothing, announcementsIn_append, storedIn_append]
      constructor
      · rw [announcementsIn_of_isInbound data.inbound, answers.announcementsIn,
          Response.announcedSize_of_isTerminal terminal]
        rfl
      · rw [data.stored_eq, storedIn_of_isIdle fun e he => isIdle_of_isRead (answers.reads e he),
          add_zero]
  | failed failure =>
      obtain ⟨error, herr, -⟩ := failure.told
      cases herr

/-- The announcement of a size within the limit, followed by the data phase. -/
theorem ReceiveKept.reports (h : ReceiveKept limit announced r calls) (hidle : ∀ e ∈ es, e.isIdle)
    (hes : announcementsIn limit es = [announced]) (hpos : 0 < announced)
    (hle : announced ≤ maximumBytes) :
    CommitsPrefix limit maximumBytes r (es ++ calls.map Prod.fst) (calls.flatMap Prod.snd) ∧
      ReportsInbound limit r (es ++ calls.map Prod.fst) := by
  have hhead : (announcementsIn limit (es ++ calls.map Prod.fst)).head? = some announced := by
    rw [announcementsIn_append, hes]
    rfl
  have hstor : storedIn (es ++ calls.map Prod.fst) = storedIn (calls.map Prod.fst) := by
    rw [storedIn_append, storedIn_of_isIdle hidle, zero_add]
  have hsunk : sunkIn (es ++ calls.map Prod.fst) = sunkIn (calls.map Prod.fst) := by
    rw [sunkIn_append, sunkIn_of_isIdle hidle, nil_append]
  obtain ⟨hcontig, hdeliv, hlen⟩ := h.sunk
  obtain ⟨htran, hfully, hnone⟩ := h.told
  rw [← hsunk] at hdeliv hlen
  rw [zero_add] at hlen
  refine ⟨⟨?_, hdeliv, ?_, ?_⟩, ?_, ?_, ?_⟩
  · refine contiguousFrom_append (contiguousFrom_of_isIdle hidle) ?_
    rwa [sunkIn_of_isIdle hidle]
  · exact fun e he hsink => ⟨announced, hhead, hpos, hle, hlen⟩
  · rintro result rfl size hsize
    obtain ⟨hnoth, hwhole⟩ := h.whole
    rw [announcementsIn_append, hes, hnoth, append_nil, mem_singleton] at hsize
    rw [hstor, hwhole, hsize]
  · rw [hstor, htran]
  · intro hcert
    rw [hhead, hstor, hfully hcert]
  · intro hcert
    rw [hstor, hnone hcert]

end Kept

section Operation

variable {setup : SessionSetup τ} {delivered : τ → Bytes} {stored : τ → ℕ}

/-- The error says that nothing was received. -/
def Unreceived (error : ProtocolError) : Prop :=
  error.inboundTransferred = 0 ∧ error.inboundCertainty ≠ .fullyTransferred

theorem sendCommand_unreceived (commandText : String) :
    Confined setup (fun e => e.isIdle) Unreceived (sendCommand setup commandText) := by
  refine sendCommand_confined (fun _ _ => rfl) (fun offset remaining result error h => ?_) _
  simp only [writeFault] at h
  split_ifs at h <;>
  · cases h
    exact ⟨rfl, fun h => by cases h⟩

theorem initialResponses_unreceived (maximumBytes : ℕ) :
    Confined setup (fun e => e.isIdle) Unreceived
      (initialResponses setup (finishReceive setup maximumBytes)) :=
  initialResponses_receive_confined (K := fun e => e.isIdle) (fun _ _ => rfl)
    (fun _ h => ⟨h.inboundTransferred_eq, h.inboundCertainty_ne⟩) rfl rfl maximumBytes

theorem initialResponses_refused (maximumBytes : ℕ) (s : Session τ) :
    Calls setup (initialResponses setup (finishReceive setup maximumBytes)) s
      fun r _ _ => ∀ result, r = .ok (.refused result) →
        result.inboundTransferred = 0 ∧ result.inboundCertainty = .notTransferred := by
  refine responseLoop_emits _ [] s ?_ fun error es s' _ _ _ result h => (by cases h)
  intro infos final es s' _ _ _
  unfold finishReceive
  split_ifs
  · refine emits_setState_bind fun s'' _ => emits_pure fun result h => ?_
    cases h
    exact ⟨rfl, rfl⟩
  · exact emits_setState_bind fun s'' _ => emits_throw fun _ h => (by cases h)
  · cases final.announcedSize with
    | none => exact emits_poisonLocked fun _ _ _ h => (by cases h)
    | some size =>
        by_cases hbad : size = 0 ∨ maximumBytes < size
        · simp only [if_pos hbad]
          exact emits_perform_bind (fun _ => rfl) fun _ _ _ =>
            emits_perform_bind (fun _ => rfl) fun _ _ _ =>
              emits_poisonLocked fun _ _ _ h => (by cases h)
        · simp only [if_neg hbad]
          exact emits_pure fun _ h => (by cases h)

/-- A failure after idle calls, of which it says that nothing was received. -/
theorem reports_of_unreceived {limit maximumBytes : ℕ} {es : SessionLog}
    {error : ProtocolError} (hidle : ∀ e ∈ es, e.isIdle) (herr : Unreceived error) :
    CommitsPrefix limit maximumBytes (.error error) ((withNothing es).map Prod.fst)
        ((withNothing es).flatMap Prod.snd) ∧
      ReportsInbound limit (.error error) ((withNothing es).map Prod.fst) := by
  rw [map_fst_withNothing, flatMap_snd_withNothing]
  exact ⟨commitsPrefix_of_isIdle hidle fun _ h => (by cases h),
    reportsInbound_of_isIdle hidle herr.1 herr.2⟩

variable (htruthful : TruthfulReceive setup.env delivered stored)

include htruthful

theorem receiveBegun_reports (commandText : String) (maximumBytes : ℕ) (observer : Bool)
    (s : Session τ) :
    Emits (Delivers delivered stored) (receiveBegun setup commandText maximumBytes observer) s
      fun r _ calls => CommitsPrefix setup.options.maxResponseBytes maximumBytes r
          (calls.map Prod.fst) (calls.flatMap Prod.snd) ∧
        ReportsInbound setup.options.maxResponseBytes r (calls.map Prod.fst) := by
  refine (emits_delivers htruthful (emits_both (sendCommand_unreceived commandText s)
    (sendCommand_emits _ s)) fun _ _ _ h => h.1.1).bind ?_ ?_
  · rintro _ s₁ calls ⟨es, rfl, ⟨hidle, -⟩, hwrote⟩
    have hsil : announcementsIn setup.options.maxResponseBytes es = [] := by
      obtain ⟨hwrs, -, -⟩ := hwrote
      rw [announcementsIn, responsesIn_eq_nil fun e he =>
        response_of_isWrite (hwrs e he)]
      rfl
    refine (emits_delivers htruthful (emits_both (initialResponses_unreceived maximumBytes s₁)
      (emits_both (initialResponses_refused maximumBytes s₁)
        (initialResponses_receive_emits maximumBytes s₁))) fun _ _ _ h => h.1.1).bind ?_ ?_
    · rintro initial s₂ calls' ⟨es', rfl, ⟨hidle', -⟩, href, hout⟩
      have hall : ∀ e ∈ es ++ es', e.isIdle := forall_mem_append.mpr ⟨hidle, hidle'⟩
      cases hout with
      | @refused _ _ _ result answers fail _ _ =>
          refine emits_pure ?_
          have hnone : announcementsIn setup.options.maxResponseBytes (es ++ es') = [] := by
            rw [announcementsIn_append, hsil, answers.announcementsIn,
              Response.announcedSize_of_isTerminal (by simp [Response.isTerminal, fail])]
            rfl
          obtain ⟨htran, hcert⟩ := href result rfl
          rw [append_nil, ← withNothing_append, map_fst_withNothing, flatMap_snd_withNothing]
          exact ⟨commitsPrefix_of_isIdle hall fun _ _ => hnone,
            reportsInbound_of_isIdle hall htran fun h => by cases hcert.symm.trans h⟩
      | @announced _ _ infos final size answers hsize hbds _ _ =>
          refine (receiveData_kept htruthful observer size infos s₂).mono fun r _ calls h => ?_
          have hann : announcementsIn setup.options.maxResponseBytes (es ++ es') = [size] := by
            rw [announcementsIn_append, hsil, answers.announcementsIn, hsize]
            rfl
          have hreports := h.reports hall hann hbds.1 hbds.2
          rw [← append_assoc, ← withNothing_append, map_append, map_fst_withNothing,
            flatMap_append, flatMap_snd_withNothing, nil_append]
          exact hreports
    · rintro error s₂ calls' ⟨es', rfl, ⟨hidle', herr⟩, -, -⟩
      rw [← withNothing_append]
      exact reports_of_unreceived (forall_mem_append.mpr ⟨hidle, hidle'⟩) (herr error rfl)
  · rintro error s₁ calls ⟨es, rfl, ⟨hidle, herr⟩, -⟩
    exact reports_of_unreceived hidle (herr error rfl)

omit htruthful in
/-- A receive begins on a ready session, and a poisoned one refuses it with the error it keeps. -/
theorem beginLocked_unreceived (cancelled : Bool) (commandText : String) (s : Session τ) :
    Calls setup (beginLocked setup cancelled commandText) s
      fun r _ es => es = [] ∧ (∀ value, r = .ok value → s.state = .ready) ∧
        ∀ error, r = .error error →
          (Unreceived error ↔ (s.state = .poisoned → Unreceived s.storedError)) := by
  have href : ∀ {error : ProtocolError}, Unreceived error → s.state ≠ .poisoned →
      ([] : SessionLog) = [] ∧
        (∀ value : Unit, (.error error : Except ProtocolError Unit) = .ok value →
          s.state = .ready) ∧
        ∀ error', (.error error : Except ProtocolError Unit) = .error error' →
          (Unreceived error' ↔ (s.state = .poisoned → Unreceived s.storedError)) := by
    intro error herr hst
    refine ⟨rfl, fun _ h => (by cases h), fun error' h => ?_⟩
    cases h
    exact iff_of_true herr fun h => absurd h hst
  refine emits_get_bind ?_
  split_ifs with hst
  · by_cases hpois : s.state = .poisoned
    · refine emits_throw ⟨rfl, fun _ h => (by cases h), fun error h => ?_⟩
      cases h
      rw [unavailableErrorLocked_poisoned hpois]
      exact ⟨fun h _ => h, fun h => h hpois⟩
    · refine emits_throw (href ?_ hpois)
      unfold unavailableErrorLocked
      cases h : s.state <;> first | exact absurd h hpois | exact ⟨rfl, fun h => by cases h⟩
  all_goals
    have hrdy := not_not.mp hst
    have hsound : s.state ≠ .poisoned := fun h => by cases hrdy.symm.trans h
  · refine emits_poisonLocked fun _ _ => href ?_ hsound
    exact ⟨rfl, fun h => by cases h⟩
  · refine emits_throw (href ?_ hsound)
    exact ⟨rfl, fun h => by cases h⟩
  · refine emits_throw (href ?_ hsound)
    exact ⟨rfl, fun h => by cases h⟩
  · exact emits_pure ⟨rfl, fun _ _ => hrdy, fun _ h => (by cases h)⟩
  · refine emits_throw (href ?_ hsound)
    exact ⟨rfl, fun h => by cases h⟩

omit htruthful in
/-- The report of a call that has been refused without a call to the outside. -/
theorem reportsInbound_nil_iff {limit : ℕ} {error : ProtocolError} :
    ReportsInbound limit (.error error) [] ↔ Unreceived error := by
  refine ⟨fun h => ⟨h.transferred, fun hfull => ?_⟩, fun h => ?_⟩
  · cases h.fully hfull
  · exact reportsInbound_of_isIdle (by simp) h.1 h.2

/-- A receive commits a prefix of what it is delivered, and its report is right unless a poisoned
session has refused it with the report of an earlier receive. -/
theorem receiveToSink_reports (cancelled : Bool) (commandText : String) (sink : Bool)
    (maximumBytes : ℕ) (observer : Bool) (s : Session τ) :
    Emits (Delivers delivered stored)
      (receiveToSink setup cancelled commandText sink maximumBytes observer) s
      fun r _ calls => CommitsPrefix setup.options.maxResponseBytes maximumBytes r
          (calls.map Prod.fst) (calls.flatMap Prod.snd) ∧
        (ReportsInbound setup.options.maxResponseBytes r (calls.map Prod.fst) ↔
          (sink → maximumBytes ≠ 0 → s.state = .poisoned → Unreceived s.storedError)) := by
  have hnone : ∀ {error : ProtocolError}, CommitsPrefix setup.options.maxResponseBytes maximumBytes
      (.error error) [] [] := commitsPrefix_of_isIdle (by simp) fun _ h => (by cases h)
  unfold receiveToSink
  split_ifs with hsink hmax
  · refine emits_throw ⟨hnone, iff_of_true (reportsInbound_nil_iff.mpr ?_) fun _ h => absurd hmax h⟩
    exact ⟨rfl, fun h => by cases h⟩
  · refine (emits_delivers htruthful (beginLocked_unreceived cancelled commandText s)
      fun _ _ _ h => by simp [h.1]).bind ?_ ?_
    · rintro _ s₁ calls ⟨es, rfl, rfl, hrdy, -⟩
      refine (receiveBegun_reports htruthful commandText maximumBytes observer s₁).mono ?_
      intro r _ calls h
      refine ⟨h.1, iff_of_true h.2 fun _ _ hpois => ?_⟩
      cases (hrdy _ rfl).symm.trans hpois
    · rintro error s₁ calls ⟨es, rfl, rfl, -, herr⟩
      refine ⟨hnone, reportsInbound_nil_iff.trans ((herr error rfl).trans ?_)⟩
      exact ⟨fun h _ _ => h, fun h => h hsink hmax⟩
  · refine emits_throw ⟨hnone, iff_of_true (reportsInbound_nil_iff.mpr ?_) fun h => absurd h hsink⟩
    exact ⟨rfl, fun h => by cases h⟩

end Operation

end FastbootSession

/-- Whatever a truthful transport delivers and a truthful sink stores, a receive commits a prefix of
the delivered bytes.  Its report is about the bytes that were stored, exactly if it is not refused by
a session whose stored error is that of a receive with stored bytes. -/
theorem receive_commits_prefix_iff (setup : SessionSetup τ) {delivered : τ → Bytes} {stored : τ → ℕ}
    (htruthful : TruthfulReceive setup.env delivered stored) (s : Session τ) (cancelled : Bool)
    (commandText : String) (sink : Bool) (maximumBytes : ℕ) (observer : Bool) :
    let run := exec (FastbootSession.receiveToSink setup cancelled commandText sink maximumBytes
      observer) s
    ∃ es bytes, run.2.log = s.log ++ es ∧
      delivered run.2.world = delivered s.world ++ bytes ∧
      stored run.2.world = stored s.world + storedIn es ∧
      CommitsPrefix setup.options.maxResponseBytes maximumBytes run.1 es bytes ∧
      (ReportsInbound setup.options.maxResponseBytes run.1 es ↔
        (sink → maximumBytes ≠ 0 → s.state = .poisoned →
          s.storedError.inboundTransferred = 0 ∧
            s.storedError.inboundCertainty ≠ .fullyTransferred)) := by
  obtain ⟨calls, ⟨hlog, hdelivered, hstored⟩, hcommits, hreports⟩ :=
    FastbootSession.receiveToSink_reports htruthful cancelled commandText sink maximumBytes
      observer s
  exact ⟨_, _, hlog, hdelivered, hstored, hcommits, hreports⟩

/-! ### A receive after one that has failed -/

/-- The packets and the data that a device still has to send, and what the host has made of it. -/
structure UploadWorld where
  packets : List Bytes
  data : Bytes
  delivered : Bytes := []
  stored : ℕ := 0

/-- A device that delivers at most two bytes a call, and a sink that stores what it is given. -/
def uploadEnvironment : Environment UploadWorld where
  write offered world := ({ transferred := offered.length }, world)
  writeSource := none
  read _ world := (({ transferred := (world.packets.headD []).length }, world.packets.headD []),
    { world with packets := world.packets.tail })
  readData size world :=
    (({ transferred := (world.data.take (min 2 size)).length }, world.data.take (min 2 size)),
      { world with
        data := world.data.drop (min 2 size)
        delivered := world.delivered ++ world.data.take (min 2 size) })
  requestCancel world := world
  close world := world
  sinkWrite _ payload world := ({ transferred := payload.length },
    { world with stored := world.stored + payload.length })
  observe _ _ world := (.continueTransfer, world)
  allocate _ world := (true, world)

theorem uploadEnvironment_truthful :
    TruthfulReceive uploadEnvironment UploadWorld.delivered UploadWorld.stored where
  readData_length _ _ := rfl
  readData_le size world := by
    change (world.data.take (min 2 size)).length ≤ size
    rw [length_take]
    omega
  readData _ _ := ⟨rfl, rfl⟩
  sinkWrite_le _ _ _ := le_refl _
  sinkWrite _ _ _ := ⟨rfl, rfl⟩
  write _ _ := ⟨rfl, rfl⟩
  writeSource stream hstr := by cases hstr
  read _ _ := ⟨rfl, rfl⟩
  requestCancel _ := ⟨rfl, rfl⟩
  close _ := ⟨rfl, rfl⟩
  observe _ _ _ := ⟨rfl, rfl⟩
  allocate _ _ := ⟨rfl, rfl⟩

/-- A receive of at most eight bytes with an observer. -/
def uploadCall : SessionM UploadWorld CommandResult :=
  FastbootSession.receiveToSink { env := uploadEnvironment } false "upload" true 8 true

/-- A device that uploads three bytes. -/
def uploadSession : Session UploadWorld where
  world := { packets := [stringBytes "DATA00000003", stringBytes "OKAY"], data := [1, 2, 3] }

/-- A device that announces four bytes and delivers three. -/
def shortUpload : Session UploadWorld where
  world := { packets := [stringBytes "DATA00000004"], data := [1, 2, 3] }

/-- The report of an upload that is answered is right. -/
theorem uploadSession_reports :
    let setup : SessionSetup UploadWorld := { env := uploadEnvironment }
    let run := exec (FastbootSession.receiveToSink setup false "upload" true 8 true) uploadSession
    inboundOf run.1 = (3, .fullyTransferred) ∧
      ∃ es bytes, run.2.log = uploadSession.log ++ es ∧
        run.2.world.delivered = uploadSession.world.delivered ++ bytes ∧
        run.2.world.stored = uploadSession.world.stored + storedIn es ∧
        CommitsPrefix setup.options.maxResponseBytes 8 run.1 es bytes ∧
        (ReportsInbound setup.options.maxResponseBytes run.1 es ↔
          (true → 8 ≠ 0 → uploadSession.state = .poisoned →
            uploadSession.storedError.inboundTransferred = 0 ∧
              uploadSession.storedError.inboundCertainty ≠ .fullyTransferred)) :=
  ⟨by decide +kernel, receive_commits_prefix_iff { env := uploadEnvironment }
    uploadEnvironment_truthful uploadSession false "upload" true 8 true⟩

/-- A poisoned session refuses a receive with the counts of the error it keeps. -/
theorem receiveToSink_poisoned {setup : SessionSetup τ} {s : Session τ}
    (hpois : s.state = .poisoned) {maximumBytes : ℕ} (hmax : maximumBytes ≠ 0)
    (cancelled : Bool) (commandText : String) (observer : Bool) :
    let run := exec (receiveToSink setup cancelled commandText true maximumBytes observer) s
    run.2 = s ∧
      inboundOf run.1 = (s.storedError.inboundTransferred, s.storedError.inboundCertainty) := by
  have hrun : exec (receiveToSink setup cancelled commandText true maximumBytes
      observer) s = (.error (unavailableErrorLocked s), s) := by
    unfold receiveToSink
    rw [if_neg (by simp), if_neg hmax]
    unfold receiveLocked beginLocked
    rw [exec_bind, exec_get_bind, if_pos (by rw [hpois]; decide)]
    rfl
  rw [hrun, unavailableErrorLocked_poisoned hpois]
  exact ⟨rfl, rfl⟩

/-- The session after an upload that was too short. -/
def shortAfter : Session UploadWorld := (exec uploadCall shortUpload).2

/-- After an upload that was too short, a second one stores nothing and reports three bytes. -/
theorem shortUpload_reports_stored :
    shortAfter.state = .poisoned ∧
    let run := exec (FastbootSession.receiveToSink { env := uploadEnvironment } false
      "upload" true 8 true) shortAfter
    run.2 = shortAfter ∧ inboundOf run.1 = (3, .partialOrUnknown) := by
  have hpoisoned : shortAfter.state = .poisoned := by decide +kernel
  have hstored : (shortAfter.storedError.inboundTransferred,
      shortAfter.storedError.inboundCertainty) = (3, .partialOrUnknown) := by decide +kernel
  rw [← hstored]
  exact ⟨hpoisoned, receiveToSink_poisoned hpoisoned (by decide) _ _ _⟩

end KairosBoot
