import KairosBoot.TcpStream

/-! # Reading a TCP stream without segments

`StreamReader` is the receiving side of a transport over a stream that has no segments: what is
left of the inbound stream, the bytes left of a DATA frame, and whether the transport is open.  As
long as no receive fails, the reading calls of a transport mirror those of a `StreamReader`,
however the socket splits the stream. -/

namespace KairosBoot

open ByteLib Outcomes TcpFastbootTransport

structure StreamReader where
  stream : Bytes
  left : ℕ := 0
  isOpen : Bool := true
  deriving DecidableEq, Repr

abbrev ReaderM := Prog StreamReader TransferResult

namespace StreamReader

variable {α : Type}

def close (t : StreamReader) : StreamReader :=
  if t.isOpen then { t with left := 0, isOpen := false } else t

def closeAndFail (failure : TransferResult) : ReaderM α := do
  step fun t => ((), t.close)
  throw failure

def requireOpen : ReaderM Unit := do
  let t ← get
  if t.isOpen then pure () else throw closedFailure

/-- Take bytes from the stream, or close at its end. -/
def takeOrClose (ending : Option SocketIoResult) (wanted : ℕ)
    (failure : ExactIoResult → TransferResult) : ReaderM Bytes := do
  let t ← get
  if wanted ≤ t.stream.length then
    step fun t => (t.stream.take wanted, { t with stream := t.stream.drop wanted })
  else do
    step fun t => ((), { t with stream := [] })
    closeAndFail (failure (endedResult ending t.stream.length))

theorem exec_takeOrClose (ending : Option SocketIoResult) (wanted : ℕ)
    (failure : ExactIoResult → TransferResult) (t : StreamReader) :
    exec (takeOrClose ending wanted failure) t
      = if wanted ≤ t.stream.length then
          (.ok (t.stream.take wanted), { t with stream := t.stream.drop wanted })
        else
          (.error (failure (endedResult ending t.stream.length)), close { t with stream := [] }) := by
  change exec (if wanted ≤ t.stream.length then _ else _) t = _
  split_ifs <;> rfl

def setLeft (left : ℕ) : ReaderM Unit := step fun t => ((), { t with left })

variable (options : TcpTransportOptions) (ending : Option SocketIoResult)

def read (destination : Bytes) : ReaderM Bytes := do
  requireOpen
  let t ← get
  if t.left ≠ 0 then
    closeAndFail (truncatedFailure "Fastboot TCP DATA frame exceeded the announced payload size")
  else do
    let header ← takeOrClose ending 8 fun header =>
      transferFailure header 0 header.anyWireBytes "receiving Fastboot TCP frame header"
    let frameSize := decodeTcpFrameLength header
    if options.maxFrameBytes.toNat < frameSize ∨ 2 ^ 64 - 1 < frameSize ∨
        destination.length < frameSize then
      closeAndFail (truncatedFailure
        "inbound Fastboot TCP frame exceeds its configured or destination limit")
    else
      takeOrClose ending frameSize fun payload =>
        transferFailure payload payload.transferred true "receiving Fastboot TCP frame payload"

def startDataFrame : ReaderM Bool := do
  let header ← takeOrClose ending 8 fun header =>
    transferFailure header 0 header.anyWireBytes "receiving Fastboot TCP DATA frame header"
  let frameSize := decodeTcpFrameLength header
  setLeft frameSize
  if options.maxFrameBytes.toNat < frameSize ∨ 2 ^ 64 - 1 < frameSize then
    closeAndFail (truncatedFailure "inbound Fastboot TCP DATA frame exceeds its configured limit")
  else pure (frameSize ≠ 0)

def continueDataFrame (destination : Bytes) (consumedFrameHeader : Bool) : ReaderM Bytes := do
  let t ← get
  let size := min destination.length t.left
  let payload ← takeOrClose ending size fun payload =>
    transferFailure payload payload.transferred (consumedFrameHeader ∨ payload.anyWireBytes)
      "receiving Fastboot TCP DATA frame payload"
  setLeft (t.left - size)
  pure payload

def readData (destination : Bytes) : ReaderM Bytes := do
  requireOpen
  if destination.length = 0 then throw (refusedFailure "Fastboot TCP DATA destination is empty")
  else do
    let t ← get
    if t.left = 0 then do
      let nonempty ← startDataFrame options ending
      if nonempty then continueDataFrame ending destination true
      else pure []
    else continueDataFrame ending destination false

/-- The reading calls; a write does nothing. -/
def run : TcpCall → ReaderM Bytes
  | .read destination _ => read options ending destination
  | .readData destination _ => readData options ending destination
  | .write _ _ => pure []

end StreamReader

namespace TcpFastbootTransport

variable {τ α : Type}

/-- What a reader sees of the state. -/
def view (pending : τ → Bytes) (s : TcpState τ) : StreamReader where
  stream := pending s.world
  left := s.inboundDataFrameBytesLeft
  isOpen := s.isOpen

variable {env : TcpEnvironment τ} {pending : τ → Bytes}
  {ending : Option SocketIoResult}

section

variable (hd : DeliversStream env pending ending)
include hd

theorem view_eq {s s' : TcpState τ} (hkept : Kept s s') (hstr : StreamKept env s s') :
    view pending s' = view pending s := by
  rw [view, view, hstr pending ending hd, hkept.left, hkept.isOpen]

theorem view_closed (s : TcpState τ) : view pending (closed env s) = (view pending s).close := by
  unfold closed StreamReader.close view
  cases hopen : s.isOpen with
  | true => simp [hd.close]
  | false => simp [hopen]

theorem closeAndFail_mirrors (failure : TransferResult) (s : TcpState τ) :
    Mirrors LogGrows (Delivered ending) (view pending)
      (closeAndFail env failure : TcpM τ α) (StreamReader.closeAndFail failure) s := by
  refine closeAndFail_emits env failure s fun es _ _ => ?_
  rw [view_closed hd]
  rfl

end

theorem requireOpen_mirrors (s : TcpState τ) :
    Mirrors LogGrows (Delivered ending) (view pending) requireOpen StreamReader.requireOpen s := by
  refine Mirrors.get_bind ?_
  change Mirrors _ _ _ _ (if s.isOpen then pure () else throw closedFailure) s
  split_ifs
  · exact mirrors_pure ()
  · exact mirrors_throw closedFailure

theorem deadlineAfter_skip (hd : DeliversStream env pending ending) (timeout : ℤ)
    (s : TcpState τ) : Emits LogGrows (deadlineAfter env timeout) s fun r s' _ =>
      ∃ deadline, r = .ok deadline ∧ view pending s' = view pending s := by
  refine (deadlineAfter_emits env timeout s).mono ?_
  rintro r s' es ⟨deadline, hr, hkept, hstr, -⟩
  exact ⟨deadline, hr, view_eq hd hkept hstr⟩

theorem setLeft_mirrors (left : ℕ) (s : TcpState τ) :
    Mirrors LogGrows (Delivered ending) (view pending) (setLeft left) (StreamReader.setLeft left)
      s :=
  ⟨[], (List.append_nil _).symm, fun _ => rfl⟩

theorem status_endedResult (hd : DeliversStream env pending ending) (completed : ℕ) :
    (endedResult ending completed).status ≠ .ok := by
  cases ending with
  | none => simp [endedResult]
  | some result => exact (hd.ending_failure result rfl).1

/-- Receiving takes from the stream, whatever the segments. -/
theorem receiveOrClose_mirrors (hd : DeliversStream env pending ending) (destination : Bytes)
    (deadline : ℤ) (failure : ExactIoResult → TransferResult) (s : TcpState τ) :
    Mirrors LogGrows (Delivered ending) (view pending)
      (receiveOrClose env destination deadline failure)
      (StreamReader.takeOrClose ending destination.length failure) s := by
  refine Emits.bind (receiveLoop_emits env deadline destination.length destination
    0 s (by omega) (by omega)) ?_ ?_
  · rintro received s1 es ⟨result, stored, hres, hkept, -, -, hfilled⟩
    cases hres
    have hcases : (∀ e ∈ es, Delivered ending e) →
        Filled ending (pending s.world) [] destination.length result stored (pending s1.world) :=
      hfilled pending ending hd
    have hview : view pending s1 = { view pending s with stream := pending s1.world } := by
      rw [view, view, hkept.left, hkept.isOpen]
    split_ifs with hstat
    · refine closeAndFail_emits env _ s1 fun es' _ hall => ?_
      have hend := hcases (List.forall_mem_append.mp hall).1
      unfold Filled at hend
      split_ifs at hend with hle
      · exact absurd (by rw [hend.1]; rfl) hstat
      · obtain ⟨hres, hrest⟩ := hend
        refine (StreamReader.exec_takeOrClose _ _ _ _).trans ((if_neg hle).trans ?_)
        rw [view_closed hd, hview, hrest, hres, List.length_nil, zero_add]
        rfl
    · refine emits_pure fun hall => ?_
      rw [List.append_nil] at hall
      have hend := hcases hall
      unfold Filled at hend
      split_ifs at hend with hle
      · obtain ⟨-, hstor, hrest⟩ := hend
        refine (StreamReader.exec_takeOrClose _ _ _ _).trans ((if_pos hle).trans ?_)
        rw [hview, hrest, hstor, List.nil_append]
        rfl
      · exact absurd (hend.1 ▸ not_not.mp hstat) (status_endedResult hd _)
  · rintro failure' s1 es ⟨result, stored, hres, -⟩
    cases hres

variable (options : TcpTransportOptions)

section

variable (hd : DeliversStream env pending ending)
include hd

theorem read_mirrors (destination : Bytes) (timeout : ℤ) (s : TcpState τ) :
    Mirrors LogGrows (Delivered ending) (view pending)
      (read env options destination timeout)
      (StreamReader.read options ending destination) s := by
  refine Mirrors.bind (requireOpen_mirrors s) fun _ s1 => Mirrors.get_bind ?_
  change Mirrors _ _ _ _ (if s1.inboundDataFrameBytesLeft ≠ 0 then _ else _) s1
  split_ifs with hleft
  · exact closeAndFail_mirrors hd _ s1
  · refine Mirrors.skip (deadlineAfter_skip hd timeout s1) fun deadline s2 => ?_
    refine Mirrors.bind (receiveOrClose_mirrors hd _ _ _ s2) fun header s3 => ?_
    dsimp only
    split_ifs with hlim
    · exact closeAndFail_mirrors hd _ s3
    · have htake : (destination.take (decodeTcpFrameLength header)).length
          = decodeTcpFrameLength header := by
        rw [List.length_take]
        omega
      have hmir := receiveOrClose_mirrors hd (destination.take (decodeTcpFrameLength header))
        deadline (fun payload => transferFailure payload payload.transferred true
          "receiving Fastboot TCP frame payload") s3
      rwa [htake] at hmir

theorem startDataFrame_mirrors (deadline : ℤ) (s : TcpState τ) :
    Mirrors LogGrows (Delivered ending) (view pending) (startDataFrame env options deadline)
      (StreamReader.startDataFrame options ending) s := by
  refine Mirrors.bind (receiveOrClose_mirrors hd _ _ _ s) fun header s1 => ?_
  refine Mirrors.bind (setLeft_mirrors _ s1) fun _ s2 => ?_
  split_ifs with hlim
  · exact closeAndFail_mirrors hd _ s2
  · exact mirrors_pure _

theorem continueDataFrame_mirrors (destination : Bytes) (deadline : ℤ)
    (consumedFrameHeader : Bool) (s : TcpState τ) :
    Mirrors LogGrows (Delivered ending) (view pending)
      (continueDataFrame env destination deadline consumedFrameHeader)
      (StreamReader.continueDataFrame ending destination consumedFrameHeader) s := by
  refine Mirrors.get_bind ?_
  have htake : (destination.take (min destination.length s.inboundDataFrameBytesLeft)).length
      = min destination.length s.inboundDataFrameBytesLeft := by
    rw [List.length_take]
    omega
  have hmir := receiveOrClose_mirrors hd
    (destination.take (min destination.length s.inboundDataFrameBytesLeft)) deadline
    (fun payload => transferFailure payload payload.transferred
      (consumedFrameHeader ∨ payload.anyWireBytes) "receiving Fastboot TCP DATA frame payload") s
  rw [htake] at hmir
  refine Mirrors.bind hmir fun payload s1 => ?_
  exact Mirrors.bind (setLeft_mirrors _ s1) fun _ s2 => mirrors_pure payload

theorem readData_mirrors (destination : Bytes) (timeout : ℤ) (s : TcpState τ) :
    Mirrors LogGrows (Delivered ending) (view pending)
      (readData env options destination timeout)
      (StreamReader.readData options ending destination) s := by
  refine Mirrors.bind (requireOpen_mirrors s) fun _ s1 => ?_
  split_ifs with hemp
  · exact mirrors_throw _
  · refine Mirrors.skip (deadlineAfter_skip hd timeout s1) fun deadline s2 => ?_
    refine Mirrors.get_bind ?_
    change Mirrors _ _ _ _ (if s2.inboundDataFrameBytesLeft = 0 then _ else _) s2
    split_ifs with hleft
    · refine Mirrors.bind (startDataFrame_mirrors options hd deadline s2) ?_
      intro nonempty s3
      split_ifs with hnemp
      · exact continueDataFrame_mirrors hd destination deadline true s3
      · exact mirrors_pure []
    · exact continueDataFrame_mirrors hd destination deadline false s2

theorem run_mirrors {call : TcpCall} (hrds : call.Reads) (s : TcpState τ) :
    Mirrors LogGrows (Delivered ending) (view pending) (call.run env options)
      (StreamReader.run options ending call) s := by
  cases call with
  | read destination timeout => exact read_mirrors options hd destination timeout s
  | readData destination timeout => exact readData_mirrors options hd destination timeout s
  | write bytes timeout => exact absurd hrds id

end

/-! ### Handshake -/

variable (env) (s : TcpState τ)

/-- What a handshake has sent, and taken from the stream. -/
structure Handshaken (s' : TcpState τ) (es : List TcpEvent) : Prop where
  kept : Kept s s'
  sent : sentBytes es = stringBytes "FB01"
  received : ∀ pending ending, DeliversStream env pending ending →
    checkHandshake ((pending s.world).take 4) = .ok () ∧
      pending s'.world = (pending s.world).drop 4

theorem initialize_emits : Emits LogGrows (initializeTransport env options) s fun r s' es =>
    ∃ checked, r = .ok checked ∧ (checked = .ok () → Handshaken env s s' es) := by
  refine (deadlineAfter_emits _ _ s).bind ?_ fun _ _ _ ⟨_, h, _⟩ => by cases h
  rintro deadline s1 _ ⟨_, -, hkept1, hstr1, rfl⟩
  refine (sendLoop_emits _ _ _ _ 0 s1 le_rfl).bind ?_ fun _ _ _ ⟨_, h, _⟩ => by cases h
  rintro _ s2 _ ⟨_, h, hkept2, hstr2, hsent⟩
  cases h
  split_ifs with hok2
  · exact emits_pure ⟨_, rfl, fun h => by cases h⟩
  refine (receiveLoop_emits _ deadline 4 (List.replicate 4 0) 0 s2 le_rfl (by simp)).bind ?_
    fun _ _ _ ⟨_, _, h, _⟩ => by cases h
  rintro _ s3 _ ⟨_, _, h, hkept3, hnone, hsucc, hfill⟩
  cases h
  split_ifs with hok3
  · exact emits_pure ⟨_, rfl, fun h => by cases h⟩
  refine emits_pure ⟨_, rfl, fun hcheck => ⟨hkept1.trans (hkept2.trans hkept3), ?_, ?_⟩⟩
  · simpa [hnone] using (hsent (not_not.mp hok2)).2
  · intro pending ending hd
    have hfill := hfill pending ending hd fun e he => .of_succeeds (hsucc (not_not.mp hok3) e he)
    rw [← hstr1.trans hstr2 pending ending hd]
    unfold Filled at hfill
    split_ifs at hfill
    · obtain ⟨-, rfl, hrest⟩ := hfill
      exact ⟨hcheck, hrest⟩
    · exact absurd (hfill.1 ▸ not_not.mp hok3) (status_endedResult hd _)

/-- Over any socket, `create` has sent `FB01`, taken exactly a valid handshake from the stream and
kept the transport open, or it fails and has closed it. -/
theorem create_handshakes : Emits LogGrows (create env options) s fun r s' es =>
    r = .ok (.ok ()) ∧ Handshaken env s s' es ∨
      ∃ error, r = .ok (.error error) ∧ s'.isOpen = false := by
  refine (initialize_emits _ options s).bind ?_ fun _ _ _ ⟨_, h, _⟩ => by cases h
  rintro checked s1 es ⟨_, h, hshake⟩
  cases h
  cases checked with
  | ok _ => exact emits_pure (.inl ⟨rfl, by simpa using hshake rfl⟩)
  | error error =>
      obtain ⟨es', hlog, -⟩ := closeAndFail_settled (α := Unit) env closedFailure s1
      exact ⟨es', hlog, .inr ⟨error, rfl, isOpen_closed _ s1⟩⟩

end TcpFastbootTransport

end KairosBoot
