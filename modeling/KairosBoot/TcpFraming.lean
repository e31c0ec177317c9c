import KairosBoot.TcpReader

/-! # Framing over TCP

* `SegmentationIndependent`: two sockets that deliver one stream give the same results, however
  they split it.
* `DeliversFrames`: what the reading calls return are the payloads of the frames of the stream, in
  order; a response is a whole payload, and a DATA payload is the pieces of consecutive reads.
* `WritesDecode`: what the writes put on the wire decodes to their buffers.
* `FailuresClose`: a failed socket operation closes the transport, and so does every failed call
  that was not refused before it began; a closed transport does nothing any more.
* `LimitsClose`: a frame that breaks a limit of a reading call closes the transport.
* `RefusalsUntouched`: a write over the limit and a `read_data` without room are refused before
  they use the socket. -/

namespace KairosBoot

open ByteLib Outcomes TcpFastbootTransport List

/-! ### Frame lengths -/

theorem eight_bytes {bytes : Bytes} (h : bytes.length = 8) :
    ∃ a b c d e f g i, bytes = [a, b, c, d, e, f, g, i] ∧ ∀ byte ∈ bytes, byte.toNat < 256 := by
  match bytes, h with
  | [a, b, c, d, e, f, g, i], _ =>
      exact ⟨a, b, c, d, e, f, g, i, rfl, fun byte _ => byte.toNat_lt⟩

theorem decodeTcpFrameLength_lt {bytes : Bytes} (h : bytes.length = 8) :
    decodeTcpFrameLength bytes < 2 ^ 64 := by
  obtain ⟨a, b, c, d, e, f, g, i, rfl, hlt⟩ := eight_bytes h
  simp only [forall_mem_cons] at hlt
  simp only [decodeTcpFrameLength, foldl_cons, foldl_nil]
  omega

theorem encode_decodeTcpFrameLength {bytes : Bytes} (h : bytes.length = 8) :
    encodeTcpFrameLength (decodeTcpFrameLength bytes) = bytes := by
  obtain ⟨a, b, c, d, e, f, g, i, rfl, hlt⟩ := eight_bytes h
  simp only [forall_mem_cons] at hlt
  have hrange : range 8 = [0, 1, 2, 3, 4, 5, 6, 7] := by decide
  have hbyte : ∀ (n : ℕ) (byte : UInt8), n % 256 = byte.toNat → UInt8.ofNat (n % 256) = byte := by
    intro n byte hn
    rw [hn, UInt8.ofNat_toNat]
  simp only [decodeTcpFrameLength, encodeTcpFrameLength, hrange, map_cons, map_nil,
    foldl_cons, foldl_nil]
  rw [hbyte _ a (by omega), hbyte _ b (by omega), hbyte _ c (by omega), hbyte _ d (by omega),
    hbyte _ e (by omega), hbyte _ f (by omega), hbyte _ g (by omega), hbyte _ i (by omega)]

/-! ### Calls of a reader that succeed -/

namespace StreamReader

variable {α : Type} {options : TcpTransportOptions} {ending : Option SocketIoResult}
  {t t' : StreamReader}

theorem exec_requireOpen_bind (f : Unit → ReaderM α) (hopen : t.isOpen = true) :
    exec (requireOpen >>= f) t = exec (f ()) t := by
  have hrequire : exec requireOpen t = (.ok (), t) := by
    change exec (if t.isOpen then pure () else throw closedFailure) t = _
    rw [if_pos hopen]
    rfl
  rw [exec_bind, hrequire]

theorem takeOrClose_bind_ok {wanted : ℕ} {failure : ExactIoResult → TransferResult}
    {f : Bytes → ReaderM α} {value : α}
    (h : exec (takeOrClose ending wanted failure >>= f) t = (.ok value, t')) :
    wanted ≤ t.stream.length ∧
      exec (f (t.stream.take wanted)) { t with stream := t.stream.drop wanted } = (.ok value, t') := by
  rw [exec_bind, exec_takeOrClose] at h
  split_ifs at h with hle
  · exact ⟨hle, h⟩
  · cases h

theorem header_append_drop {stream : Bytes} (h : 8 ≤ stream.length) :
    stream = encodeTcpFrameLength (decodeTcpFrameLength (stream.take 8)) ++ stream.drop 8 := by
  rw [encode_decodeTcpFrameLength (by rw [length_take, Nat.min_eq_left h]), take_append_drop]

variable {destination : Bytes}

/-- A successful `read` takes one frame. -/
theorem read_ok {bytes : Bytes} (hopen : t.isOpen = true)
    (h : exec (read options ending destination) t = (.ok bytes, t')) :
    t.left = 0 ∧ t'.left = 0 ∧ bytes.length < 2 ^ 64 ∧ t.stream = frame bytes ++ t'.stream ∧
      bytes.length ≤ options.maxFrameBytes.toNat ∧ bytes.length ≤ destination.length := by
  rw [read, exec_requireOpen_bind _ hopen] at h
  change exec (if t.left ≠ 0 then _ else _) t = _ at h
  split_ifs at h with hleft
  · cases h
  · obtain ⟨hhdr, h⟩ := takeOrClose_bind_ok h
    dsimp only at h
    split_ifs at h with hlim
    · cases h
    · rw [exec_takeOrClose] at h
      split_ifs at h with hpay
      · cases h
        have hlen : ((t.stream.drop 8).take (decodeTcpFrameLength (t.stream.take 8))).length
            = decodeTcpFrameLength (t.stream.take 8) := by
          rw [length_take, Nat.min_eq_left hpay]
        refine ⟨not_not.mp hleft, not_not.mp hleft, ?_, ?_, ?_, ?_⟩
        · rw [hlen]
          exact decodeTcpFrameLength_lt (by rw [length_take, Nat.min_eq_left hhdr])
        · rw [frame, hlen, append_assoc, take_append_drop]
          exact header_append_drop hhdr
        · exact hlen.trans_le (Nat.le_of_not_lt fun hover => hlim (.inl hover))
        · exact hlen.trans_le (Nat.le_of_not_lt fun hover => hlim (.inr (.inr hover)))
      · cases h

theorem continueDataFrame_ok {bytes : Bytes} {consumedFrameHeader : Bool}
    (h : exec (continueDataFrame ending destination consumedFrameHeader) t = (.ok bytes, t')) :
    bytes.length ≤ t.left ∧ t'.left = t.left - bytes.length ∧ t.stream = bytes ++ t'.stream := by
  rw [continueDataFrame, exec_get_bind] at h
  obtain ⟨hle, h⟩ := takeOrClose_bind_ok h
  cases h
  have hlen : (t.stream.take (min destination.length t.left)).length
      = min destination.length t.left := by
    rw [length_take, Nat.min_eq_left hle]
  refine ⟨?_, ?_, (take_append_drop _ _).symm⟩
  · rw [hlen]
    exact Nat.min_le_right _ _
  · rw [hlen]

theorem startDataFrame_ok {nonempty : Bool}
    (h : exec (startDataFrame options ending) t = (.ok nonempty, t')) :
    t.stream = encodeTcpFrameLength t'.left ++ t'.stream ∧ (nonempty = true ↔ t'.left ≠ 0) ∧
      t'.left < 2 ^ 64 ∧ t'.left ≤ options.maxFrameBytes.toNat := by
  obtain ⟨hhdr, h⟩ := takeOrClose_bind_ok h
  change exec (if _ then _ else _) _ = _ at h
  split_ifs at h with hlim
  · cases h
  · cases h
    refine ⟨header_append_drop hhdr, by simp, ?_, Nat.le_of_not_lt fun hover => hlim (.inl hover)⟩
    exact decodeTcpFrameLength_lt (by rw [length_take, Nat.min_eq_left hhdr])

/-- A successful `read_data` takes a piece of the current frame, or starts the next one. -/
theorem readData_ok {bytes : Bytes} (hopen : t.isOpen = true)
    (h : exec (readData options ending destination) t = (.ok bytes, t')) :
    (t.left ≠ 0 ∧ bytes.length ≤ t.left ∧ t'.left = t.left - bytes.length ∧
      t.stream = bytes ++ t'.stream) ∨
    (t.left = 0 ∧ ∃ size, size < 2 ^ 64 ∧ bytes.length ≤ size ∧ t'.left = size - bytes.length ∧
      t.stream = encodeTcpFrameLength size ++ bytes ++ t'.stream ∧
      size ≤ options.maxFrameBytes.toNat) := by
  rw [readData, exec_requireOpen_bind _ hopen] at h
  split_ifs at h with hemp
  · cases h
  · change exec (if t.left = 0 then _ else _) t = _ at h
    split_ifs at h with hleft
    · refine .inr ⟨hleft, ?_⟩
      rw [exec_bind] at h
      rcases hstart : exec (startDataFrame options ending) t with ⟨r, t1⟩
      rw [hstart] at h
      cases r with
      | error failure => cases h
      | ok nonempty =>
          obtain ⟨hstr, hnemp, hsize, hlim⟩ := startDataFrame_ok hstart
          dsimp only at h
          split_ifs at h with hmore
          · obtain ⟨hle, hleft', hrest⟩ := continueDataFrame_ok h
            refine ⟨t1.left, hsize, hle, hleft', ?_, hlim⟩
            rw [hstr, hrest, append_assoc]
          · cases h
            have hzero : t'.left = 0 := not_not.mp fun hne => hmore (hnemp.mpr hne)
            refine ⟨0, by decide, le_refl 0, hzero, ?_, Nat.zero_le _⟩
            rw [hstr, hzero, append_nil]
    · exact .inl ⟨hleft, continueDataFrame_ok h⟩

/-- What comes next breaks a limit of a reading call: bytes of a DATA frame that `read` finds
unread, or a frame that announces more than the configured limit or more than `read` has room
for. -/
def BreaksLimit (options : TcpTransportOptions) (t : StreamReader) : TcpCall → Prop
  | .read destination _ => t.left ≠ 0 ∨ 8 ≤ t.stream.length ∧
      (options.maxFrameBytes.toNat < decodeTcpFrameLength (t.stream.take 8) ∨
        destination.length < decodeTcpFrameLength (t.stream.take 8))
  | .readData destination _ => destination ≠ [] ∧ t.left = 0 ∧ 8 ≤ t.stream.length ∧
      options.maxFrameBytes.toNat < decodeTcpFrameLength (t.stream.take 8)
  | .write _ _ => False

theorem decode_take_header {size : ℕ} {rest : Bytes} (hsize : size < 2 ^ 64)
    (h : t.stream = encodeTcpFrameLength size ++ rest) :
    decodeTcpFrameLength (t.stream.take 8) = size := by
  rw [h, take_left' (length_encodeTcpFrameLength size), decode_encodeTcpFrameLength hsize]

theorem not_breaksLimit {call : TcpCall} {bytes : Bytes} (hopen : t.isOpen = true)
    (h : exec (run options ending call) t = (.ok bytes, t')) : ¬ BreaksLimit options t call := by
  cases call with
  | read destination timeout =>
      obtain ⟨hleft, -, hsize, hstr, hlim, hroom⟩ := read_ok hopen h
      rw [frame, append_assoc] at hstr
      rintro (hne | ⟨-, hover⟩)
      · exact hne hleft
      · rw [decode_take_header hsize hstr] at hover
        omega
  | readData destination timeout =>
      rintro ⟨-, hleft, -, hover⟩
      obtain ⟨hne, -⟩ | ⟨-, size, hsize, -, -, hstr, hlim⟩ := readData_ok hopen h
      · exact hne hleft
      · rw [append_assoc] at hstr
        rw [decode_take_header hsize hstr] at hover
        omega
  | write bytes timeout => exact id

end StreamReader

/-! ### Results -/

/-- What a successful reading call delivers. -/
inductive Delivery where
  | response (bytes : Bytes)
  | data (bytes : Bytes)
  deriving DecidableEq, Repr

/-- The deliveries of a call and its outcome. -/
def delivery : TcpCall × Except TransferResult Bytes → List Delivery
  | (.read _ _, .ok bytes) => [.response bytes]
  | (.readData _ _, .ok bytes) => [.data bytes]
  | _ => []

/-- A frame as it is delivered: a response, or the pieces of a DATA frame of a size. -/
inductive InboundFrame where
  | response (payload : Bytes)
  | data (size : ℕ) (pieces : List Bytes)
  deriving DecidableEq, Repr

namespace InboundFrame

def deliveries : InboundFrame → List Delivery
  | .response payload => [.response payload]
  | .data _ pieces => pieces.map .data

/-- The part of the stream that a frame has taken: its length, and the payload so far. -/
def wire : InboundFrame → Bytes
  | .response payload => frame payload
  | .data size pieces => encodeTcpFrameLength size ++ pieces.flatten

/-- The bytes of the payload that have not been read. -/
def missing : InboundFrame → ℕ
  | .response _ => 0
  | .data size pieces => size - pieces.flatten.length

def Valid : InboundFrame → Prop
  | .response payload => payload.length < 2 ^ 64
  | .data size pieces => size < 2 ^ 64 ∧ pieces.flatten.length ≤ size

/-- Frames in stream order, of which only the last may have bytes missing. -/
structure Consecutive (frames : List InboundFrame) (left : ℕ) : Prop where
  valid : ∀ f ∈ frames, f.Valid
  complete : ∀ f ∈ frames.dropLast, f.missing = 0
  current : (frames.getLast?.map missing).getD 0 = left

variable {frames : List InboundFrame}

theorem Consecutive.complete_of_zero (h : Consecutive frames 0) : ∀ f ∈ frames, f.missing = 0 := by
  rcases eq_nil_or_concat frames with rfl | ⟨front, last, hfrms⟩
  · simp
  · rw [concat_eq_append] at hfrms
    subst hfrms
    have hcompl := h.complete
    have hcur := h.current
    rw [dropLast_concat] at hcompl
    rw [getLast?_concat] at hcur
    intro f hf
    rcases mem_append.mp hf with hf | hf
    · exact hcompl f hf
    · rw [mem_singleton.mp hf]
      exact hcur

theorem Consecutive.concat (h : Consecutive frames 0) {next : InboundFrame} (hvld : next.Valid) :
    Consecutive (frames ++ [next]) next.missing where
  valid := by
    intro f hf
    rcases mem_append.mp hf with hf | hf
    · exact h.valid f hf
    · rw [mem_singleton.mp hf]
      exact hvld
  complete := by
    rw [dropLast_concat]
    exact h.complete_of_zero
  current := by
    rw [getLast?_concat]
    rfl

/-- Where bytes are missing, the last frame is a DATA frame. -/
theorem Consecutive.exists_data {left : ℕ} (h : Consecutive frames left) (hleft : left ≠ 0) :
    ∃ front size pieces, frames = front ++ [.data size pieces] ∧
      left = size - pieces.flatten.length := by
  rcases eq_nil_or_concat frames with rfl | ⟨front, last, hfrms⟩
  · exact absurd h.current.symm hleft
  · rw [concat_eq_append] at hfrms
    subst hfrms
    have hcur := h.current
    rw [getLast?_concat] at hcur
    cases last with
    | response payload => exact absurd hcur.symm hleft
    | data size pieces => exact ⟨front, size, pieces, rfl, hcur.symm⟩

theorem Consecutive.extend {front : List InboundFrame} {size left : ℕ}
    {pieces : List Bytes} {bytes : Bytes}
    (h : Consecutive (front ++ [.data size pieces]) left) (hbytes : bytes.length ≤ left) :
    Consecutive (front ++ [.data size (pieces ++ [bytes])]) (left - bytes.length) := by
  have hcur : size - pieces.flatten.length = left := by
    have hlast := h.current
    rw [getLast?_concat] at hlast
    exact hlast
  have hlen : (pieces ++ [bytes]).flatten.length = pieces.flatten.length + bytes.length := by
    simp
  have hvld : size < 2 ^ 64 ∧ pieces.flatten.length ≤ size := h.valid (.data size pieces) (by simp)
  refine ⟨?_, ?_, ?_⟩
  · intro f hf
    rcases mem_append.mp hf with hf | hf
    · exact h.valid f (mem_append_left _ hf)
    · rw [mem_singleton.mp hf]
      refine ⟨hvld.1, ?_⟩
      rw [hlen]
      omega
  · have hcompl := h.complete
    rw [dropLast_concat] at hcompl ⊢
    exact hcompl
  · rw [getLast?_concat]
    change size - (pieces ++ [bytes]).flatten.length = _
    rw [hlen]
    omega

end InboundFrame

namespace TcpFastbootTransport

variable {τ : Type}

/-- A transport after its handshake; its log starts here. -/
def opened (world : τ) : TcpState τ := { world }

/-- The outcomes of calls on a new transport, and the state after them. -/
def calls (env : TcpEnvironment τ) (options : TcpTransportOptions) (requests : List TcpCall)
    (world : τ) : List (TcpCall × Except TransferResult Bytes) × TcpState τ :=
  transcript (TcpCall.run env options) requests (opened world)

/-! ### Frames -/

section Frames

open InboundFrame

variable {env : TcpEnvironment τ} {pending : τ → Bytes}
  {options : TcpTransportOptions} {s s' : TcpState τ} {bytes : Bytes}
  {ending : Option SocketIoResult}

theorem exec_reader (hd : DeliversStream env pending ending) (call : TcpCall) (hrds : call.Reads)
    {es : List TcpEvent} (hes : LogGrows s es s') (hall : ∀ e ∈ es, e.Succeeds)
    (hrun : exec (call.run env options) s = (.ok bytes, s')) :
    exec (StreamReader.run options ending call) (view pending s) = (.ok bytes, view pending s') := by
  obtain ⟨es', hes', hmir⟩ := run_mirrors options hd hrds s
  rw [hrun] at hes' hmir
  have heq : es' = es := append_cancel_left (hes'.symm.trans hes)
  rw [heq] at hmir
  exact hmir fun e he => .of_succeeds (hall e he)

/-- The frames that the outcomes so far have delivered, and where the stream stands. -/
def Framed (pending : τ → Bytes) (stream : Bytes)
    (done : List (TcpCall × Except TransferResult Bytes)) (s : TcpState τ) : Prop :=
  ∃ frames left, Consecutive frames left ∧
    frames.flatMap deliveries = done.flatMap delivery ∧
    frames.flatMap wire <+: stream ∧
    (s.isOpen = true → left = s.inboundDataFrameBytesLeft ∧
      stream = frames.flatMap wire ++ pending s.world)

variable {done : List (TcpCall × Except TransferResult Bytes)} {stream : Bytes}

theorem Framed.of_closed {done' : List (TcpCall × Except TransferResult Bytes)}
    (h : Framed pending stream done s) (hdone : done'.flatMap delivery = done.flatMap delivery)
    (hclos : s'.isOpen = false) : Framed pending stream done' s' := by
  obtain ⟨frames, left, hcons, hdels, hwire, -⟩ := h
  refine ⟨frames, left, hcons, hdels.trans hdone.symm, hwire, fun hopen => ?_⟩
  rw [hclos] at hopen
  cases hopen

theorem Framed.of_kept {done' : List (TcpCall × Except TransferResult Bytes)}
    (h : Framed pending stream done s) (hdone : done'.flatMap delivery = done.flatMap delivery)
    (hkept : Kept s s') (hpend : pending s'.world = pending s.world) :
    Framed pending stream done' s' := by
  obtain ⟨frames, left, hcons, hdels, hwire, hopen⟩ := h
  refine ⟨frames, left, hcons, hdels.trans hdone.symm, hwire, fun hopen' => ?_⟩
  rw [hkept.left, hpend]
  exact hopen (hkept.isOpen ▸ hopen')

/-- A frame or a piece of one that a call has taken from the stream. -/
theorem Framed.of_taken {frames frames' : List InboundFrame} {left : ℕ}
    {outcome : TcpCall × Except TransferResult Bytes} {taken : Bytes}
    (hdels : frames.flatMap deliveries = done.flatMap delivery)
    (hstr : stream = frames.flatMap wire ++ pending s.world) (hcons : Consecutive frames' left)
    (hnew : frames'.flatMap deliveries = frames.flatMap deliveries ++ delivery outcome)
    (hwire : frames'.flatMap wire = frames.flatMap wire ++ taken)
    (hleft : left = s'.inboundDataFrameBytesLeft)
    (htaken : pending s.world = taken ++ pending s'.world) :
    Framed pending stream (done ++ [outcome]) s' := by
  have hrest : stream = frames'.flatMap wire ++ pending s'.world := by
    rw [hstr, htaken, hwire, append_assoc]
  refine ⟨frames', left, hcons, ?_, ⟨_, hrest.symm⟩, fun _ => ⟨hleft, hrest⟩⟩
  rw [hnew, hdels, flatMap_append, flatMap_singleton]

theorem Framed.read {destination : Bytes} (timeout : ℤ) (h : Framed pending stream done s)
    (hopen : s.isOpen = true)
    (hread : exec (StreamReader.read options none destination) (view pending s)
      = (.ok bytes, view pending s')) :
    Framed pending stream (done ++ [(.read destination timeout, .ok bytes)]) s' := by
  obtain ⟨frames, left, hcons, hdels, -, hst⟩ := h
  obtain ⟨rfl, hstr⟩ := hst hopen
  obtain ⟨hleft, hleft', hlen, htaken, -⟩ := StreamReader.read_ok hopen hread
  change s.inboundDataFrameBytesLeft = 0 at hleft
  rw [hleft] at hcons
  have hnext : Consecutive (frames ++ [.response bytes]) 0 := hcons.concat hlen
  refine Framed.of_taken hdels hstr hnext ?_ ?_ hleft'.symm htaken
  · rw [flatMap_append, flatMap_singleton]
    rfl
  · rw [flatMap_append, flatMap_singleton]
    rfl

theorem Framed.readData {destination : Bytes} (timeout : ℤ)
    (h : Framed pending stream done s) (hopen : s.isOpen = true)
    (hread : exec (StreamReader.readData options none destination) (view pending s)
      = (.ok bytes, view pending s')) :
    Framed pending stream (done ++ [(.readData destination timeout, .ok bytes)]) s' := by
  obtain ⟨frames, left, hcons, hdels, -, hst⟩ := h
  obtain ⟨rfl, hstr⟩ := hst hopen
  rcases StreamReader.readData_ok hopen hread with
    ⟨hleft, hle, hleft', htaken⟩ | ⟨hleft, size, hsize, hle, hleft', htaken, -⟩
  · obtain ⟨front, size, pieces, rfl, -⟩ := hcons.exists_data hleft
    refine Framed.of_taken hdels hstr (hcons.extend hle) ?_ ?_ hleft'.symm htaken
    · simp [deliveries, delivery]
    · simp [wire]
  · change s.inboundDataFrameBytesLeft = 0 at hleft
    rw [hleft] at hcons
    have hnext : Consecutive (frames ++ [.data size [bytes]]) (size - bytes.length) := by
      have hvld : (InboundFrame.data size [bytes]).Valid := ⟨hsize, by simpa using hle⟩
      simpa [missing] using hcons.concat hvld
    refine Framed.of_taken hdels hstr hnext ?_ ?_ hleft'.symm htaken
    · simp [deliveries, delivery]
    · simp [wire]

/-- Every call keeps the frames. -/
theorem framed_step (hd : DeliversStream env pending none) (call : TcpCall)
    (h : Framed pending stream done s) :
    Framed pending stream (done ++ [(call, (exec (call.run env options) s).1)])
      (exec (call.run env options) s).2 := by
  have hfail : ∀ failure : TransferResult,
      (done ++ [(call, Except.error failure)]).flatMap delivery = done.flatMap delivery := by
    intro failure
    cases call <;> simp [delivery]
  cases hopen : s.isOpen with
  | false =>
      rw [exec_run_closed env options call hopen]
      exact h.of_closed (hfail _) hopen
  | true =>
      by_cases hrej : Rejected options call
      · obtain ⟨detail, hrun⟩ := exec_run_rejected env options hopen hrej
        rw [hrun]
        exact h.of_kept (hfail _) (.refl s) rfl
      · obtain ⟨es, hes, hset, -, hwr⟩ := run_emits env options hopen hrej
        rcases hrun : exec (call.run env options) s with ⟨r, s'⟩
        rw [hrun] at hes hset hwr
        cases r with
        | error failure => exact h.of_closed (hfail failure) (hset.2 failure rfl)
        | ok bytes =>
            obtain ⟨-, hall⟩ := hset.1 bytes rfl
            cases call with
            | read destination timeout =>
                exact h.read timeout hopen (exec_reader hd (.read _ _) trivial hes hall hrun)
            | readData destination timeout =>
                exact h.readData timeout hopen (exec_reader hd (.readData _ _) trivial hes hall hrun)
            | write buffer timeout =>
                obtain ⟨hkept, hstr⟩ := hwr id bytes rfl
                exact h.of_kept (by simp [delivery]) hkept (hstr pending none hd)

end Frames

/-! ### Writes -/

/-- Read frames from bytes until they end. -/
def decodeFrames : ℕ → Bytes → Option (List Bytes)
  | 0, bytes => if bytes = [] then some [] else none
  | fuel + 1, bytes =>
      if bytes = [] then some []
      else if (bytes.drop 8).length < decodeTcpFrameLength (bytes.take 8) then none
      else
        (decodeFrames fuel ((bytes.drop 8).drop (decodeTcpFrameLength (bytes.take 8)))).map
          ((bytes.drop 8).take (decodeTcpFrameLength (bytes.take 8)) :: ·)

theorem decodeFrames_frames {buffers : List Bytes} {fuel : ℕ}
    (hsize : ∀ buffer ∈ buffers, buffer.length < 2 ^ 64) (hfuel : buffers.length ≤ fuel) :
    decodeFrames fuel (buffers.flatMap frame) = some buffers := by
  induction buffers generalizing fuel with
  | nil => cases fuel <;> rfl
  | cons buffer rest ih =>
      obtain ⟨hbuf, hrest⟩ := forall_mem_cons.mp hsize
      obtain ⟨fuel, rfl⟩ : ∃ n, fuel = n + 1 := ⟨fuel - 1, by simp at hfuel; omega⟩
      have hhdr := length_encodeTcpFrameLength buffer.length
      have htake : ((buffer :: rest).flatMap frame).take 8 = encodeTcpFrameLength buffer.length := by
        rw [flatMap_cons, frame, append_assoc, take_left' hhdr]
      have hdrop : ((buffer :: rest).flatMap frame).drop 8 = buffer ++ rest.flatMap frame := by
        rw [flatMap_cons, frame, append_assoc, drop_left' hhdr]
      have hnemp : (buffer :: rest).flatMap frame ≠ [] := by
        intro hnil
        rw [hnil] at htake
        rw [← htake] at hhdr
        cases hhdr
      rw [decodeFrames, if_neg hnemp, htake, hdrop, decode_encodeTcpFrameLength hbuf,
        if_neg (by simp), take_left' rfl, drop_left' rfl,
        ih hrest (Nat.le_of_succ_le_succ hfuel)]
      rfl

/-- The buffer of a successful write. -/
def written : TcpCall × Except TransferResult Bytes → List Bytes
  | (.write bytes _, .ok _) => [bytes]
  | _ => []

theorem length_flatMap_written_le (outcomes : List (TcpCall × Except TransferResult Bytes)) :
    (outcomes.flatMap written).length ≤ outcomes.length := by
  induction outcomes with
  | nil => exact le_refl 0
  | cons outcome rest ih =>
      have hone : (written outcome).length ≤ 1 := by
        unfold written
        split <;> simp
      rw [flatMap_cons, length_append, length_cons]
      omega

/-- If all writes so far have succeeded, then the wire holds their frames. -/
def WroteFrames (done : List (TcpCall × Except TransferResult Bytes)) (s : TcpState τ) : Prop :=
  (∀ outcome ∈ done, ¬ outcome.1.Reads → ∃ value, outcome.2 = .ok value) →
    sentBytes s.log = (done.flatMap written).flatMap frame ∧
      ∀ buffer ∈ done.flatMap written, buffer.length < 2 ^ 64

theorem WroteFrames.failed {done : List (TcpCall × Except TransferResult Bytes)}
    {s : TcpState τ} (h : WroteFrames done s) (call : TcpCall) (failure : TransferResult) :
    WroteFrames (done ++ [(call, .error failure)]) s := by
  intro hall
  obtain ⟨hdone, hlast⟩ := forall_mem_append.mp hall
  have hnew : written (call, .error failure) = [] := by
    cases call <;> rfl
  rw [flatMap_append, flatMap_singleton, hnew, append_nil]
  exact h hdone

theorem wroteFrames_step (env : TcpEnvironment τ) (options : TcpTransportOptions)
    {done : List (TcpCall × Except TransferResult Bytes)} {s : TcpState τ} (call : TcpCall)
    (h : WroteFrames done s) :
    WroteFrames (done ++ [(call, (exec (call.run env options) s).1)])
      (exec (call.run env options) s).2 := by
  cases hopen : s.isOpen with
  | false =>
      rw [exec_run_closed env options call hopen]
      exact h.failed call _
  | true =>
      by_cases hrej : Rejected options call
      · obtain ⟨detail, hrun⟩ := exec_run_rejected env options hopen hrej
        rw [hrun]
        exact h.failed call _
      · obtain ⟨es, hes, -, hwire, -⟩ := run_emits env options hopen hrej
        rcases hrun : exec (call.run env options) s with ⟨r, s'⟩
        rw [hrun] at hes hwire
        intro hall
        obtain ⟨hdone, hlast⟩ := forall_mem_append.mp hall
        obtain ⟨hsent, hsize⟩ := h hdone
        have hcall : call.Reads ∨ ∃ value, r = .ok value := by
          by_cases hrds : call.Reads
          · exact .inl hrds
          · exact .inr (hlast _ (mem_singleton.mpr rfl) hrds)
        have hlog : sentBytes s'.log = sentBytes s.log ++ call.wire := by
          rw [hes, sentBytes_append, hwire hcall]
        rw [flatMap_append, flatMap_singleton, flatMap_append, hlog, hsent]
        cases call with
        | read destination timeout => simpa [written, TcpCall.wire] using hsize
        | readData destination timeout => simpa [written, TcpCall.wire] using hsize
        | write bytes timeout =>
            obtain ⟨value, rfl⟩ := hcall.resolve_left id
            refine ⟨by simp [written, TcpCall.wire], forall_mem_append.mpr ⟨hsize, ?_⟩⟩
            have hlim : bytes.length ≤ options.maxFrameBytes.toNat := Nat.le_of_not_lt hrej
            have hbnd := options.maxFrameBytes.toNat_lt
            intro buffer hbuf
            rw [mem_singleton.mp hbuf]
            omega

/-! ### What framing guarantees -/

variable (options : TcpTransportOptions)

/-- Two sockets that deliver one stream, however they split it, give the same results. -/
def SegmentationIndependent : Prop :=
  ∀ (τ τ' : Type) (env : TcpEnvironment τ) (env' : TcpEnvironment τ')
    (pending : τ → Bytes) (pending' : τ' → Bytes) (ending : Option SocketIoResult),
    DeliversStream env pending ending → DeliversStream env' pending' ending →
    ∀ (requests : List TcpCall) (world : τ) (world' : τ'), (∀ call ∈ requests, call.Reads) →
      pending world = pending' world' →
      (∀ event ∈ (calls env options requests world).2.log, Delivered ending event) →
      (∀ event ∈ (calls env' options requests world').2.log, Delivered ending event) →
      (calls env options requests world).1 = (calls env' options requests world').1

/-- The deliveries are the payloads of the frames of the stream, in order; only the last frame, a
DATA frame, may have bytes missing. -/
def DeliversFrames : Prop :=
  ∀ (τ : Type) (env : TcpEnvironment τ) (pending : τ → Bytes),
    DeliversStream env pending none →
    ∀ (requests : List TcpCall) (world : τ), ∃ frames : List InboundFrame,
      frames.flatMap InboundFrame.deliveries
        = (calls env options requests world).1.flatMap delivery ∧
      (∀ f ∈ frames, f.Valid) ∧ (∀ f ∈ frames.dropLast, f.missing = 0) ∧
      frames.flatMap InboundFrame.wire <+: pending world

/-- The bytes of successful writes decode to their buffers. -/
def WritesDecode : Prop :=
  ∀ (τ : Type) (env : TcpEnvironment τ) (requests : List TcpCall) (world : τ),
    (∀ outcome ∈ (calls env options requests world).1, ¬ outcome.1.Reads →
      ∃ value, outcome.2 = .ok value) →
    decodeFrames (calls env options requests world).1.length
        (sentBytes (calls env options requests world).2.log)
      = some ((calls env options requests world).1.flatMap written)

/-- A call on an open transport that makes a socket operation that fails leaves it closed, and so
does a call that fails in any other way, unless it was refused before it did anything; and calls on
a closed transport do nothing. -/
def FailuresClose : Prop :=
  ∀ (τ : Type) (env : TcpEnvironment τ),
    (∀ (call : TcpCall) (s : TcpState τ), s.isOpen = true →
      ∃ events, (exec (call.run env options) s).2.log = s.log ++ events ∧
        ((∃ event ∈ events, ¬ event.Succeeds) →
          (exec (call.run env options) s).2.isOpen = false) ∧
        ∀ failure, (exec (call.run env options) s).1 = .error failure →
          (exec (call.run env options) s).2.isOpen = false ∨
            Rejected options call ∧ (exec (call.run env options) s).2 = s) ∧
    ∀ (requests : List TcpCall) (s : TcpState τ), s.isOpen = false →
      transcript (TcpCall.run env options) requests s
        = (requests.map fun call => (call, .error closedFailure), s)

/-- A reading call on an open transport fails and closes it where the stream breaks a limit. -/
def LimitsClose : Prop :=
  ∀ (τ : Type) (env : TcpEnvironment τ) (pending : τ → Bytes)
    (ending : Option SocketIoResult), DeliversStream env pending ending →
    ∀ (call : TcpCall) (s : TcpState τ), s.isOpen = true →
      StreamReader.BreaksLimit options (view pending s) call →
      (∃ failure, (exec (call.run env options) s).1 = .error failure) ∧
        (exec (call.run env options) s).2.isOpen = false

/-- A write over the limit and a `read_data` into nothing fail with the refusal, and nothing of the
transport or the socket has changed. -/
def RefusalsUntouched : Prop :=
  ∀ (τ : Type) (env : TcpEnvironment τ) (call : TcpCall) (s : TcpState τ),
    s.isOpen = true → Rejected options call →
    ∃ detail, exec (call.run env options) s = (.error (refusedFailure detail), s)

variable {options}

theorem segmentationIndependent : SegmentationIndependent options := by
  intro τ τ' env env' pending pending' ending hd hd' requests world world' hrds hstr hall hall'
  obtain ⟨es, hes, hrun⟩ := transcript_mirrors
    (fun call hcall s => run_mirrors options hd (hrds call hcall) s) (opened world)
  obtain ⟨es', hes', hrun'⟩ := transcript_mirrors
    (fun call hcall s => run_mirrors options hd' (hrds call hcall) s) (opened world')
  have hlog : (calls env options requests world).2.log = es := hes
  have hlog' : (calls env' options requests world').2.log = es' := hes'
  have hview : view pending (opened world) = view pending' (opened world') := by
    rw [view, view]
    exact congrArg (fun stream => StreamReader.mk stream 0 true) hstr
  have heq := (hrun (hlog ▸ hall)).symm.trans (hview ▸ hrun' (hlog' ▸ hall'))
  exact congrArg Prod.fst heq

theorem deliversFrames : DeliversFrames options := by
  intro τ env pending hd requests world
  have hstart : Framed pending (pending world) [] (opened world) :=
    ⟨[], 0, ⟨by simp, by simp, rfl⟩, rfl, nil_prefix, fun _ => ⟨rfl, rfl⟩⟩
  obtain ⟨frames, left, hcons, hdels, hwire, -⟩ :=
    transcript_invariant (Framed pending (pending world))
      (fun _ _ call h => framed_step hd call h) requests hstart
  exact ⟨frames, hdels, hcons.valid, hcons.complete, hwire⟩

theorem writesDecode : WritesDecode options := by
  intro τ env requests world hall
  have hstart : WroteFrames [] (opened world) := fun _ => ⟨rfl, by simp⟩
  obtain ⟨hsent, hsize⟩ := transcript_invariant WroteFrames
    (fun _ _ call h => wroteFrames_step env options call h) requests hstart hall
  rw [calls, hsent]
  exact decodeFrames_frames hsize (length_flatMap_written_le _)

theorem failuresClose : FailuresClose options := by
  intro τ env
  refine ⟨fun call s hopen => ?_, fun requests s hclos => ?_⟩
  · by_cases hrej : Rejected options call
    · obtain ⟨detail, hrun⟩ := exec_run_rejected env options hopen hrej
      rw [hrun]
      exact ⟨[], (append_nil _).symm, by simp, fun _ _ => .inr ⟨hrej, rfl⟩⟩
    · obtain ⟨es, hes, hset, -⟩ := run_emits env options hopen hrej
      refine ⟨es, hes, ?_, fun failure hfail => .inl (hset.2 failure hfail)⟩
      rintro ⟨event, hev, hfails⟩
      cases hr : (exec (call.run env options) s).1 with
      | error failure => exact hset.2 failure hr
      | ok value => exact absurd ((hset.1 value hr).2 event hev) hfails
  · induction requests with
    | nil => rfl
    | cons call rest ih =>
        rw [transcript, exec_run_closed env options call hclos, ih]
        rfl

theorem limitsClose : LimitsClose options := by
  intro τ env pending ending hd call s hopen hbreak
  have hrds : call.Reads := by
    cases call with
    | read destination timeout => trivial
    | readData destination timeout => trivial
    | write bytes timeout => exact hbreak
  have hrej : ¬ Rejected options call := by
    cases call with
    | read destination timeout => exact id
    | readData destination timeout => exact hbreak.1
    | write bytes timeout => exact absurd hbreak id
  obtain ⟨es, hes, hset, -⟩ := run_emits env options hopen hrej
  rcases hrun : exec (call.run env options) s with ⟨r, s'⟩
  rw [hrun] at hes hset
  cases r with
  | error failure => exact ⟨⟨failure, rfl⟩, hset.2 failure rfl⟩
  | ok bytes =>
      have hread := exec_reader hd call hrds hes (hset.1 bytes rfl).2 hrun
      exact absurd hbreak (StreamReader.not_breaksLimit hopen hread)

theorem refusalsUntouched : RefusalsUntouched options := fun _ env _ _ hopen hrej =>
  exec_run_rejected env options hopen hrej

end TcpFastbootTransport

/-- Framing over TCP does not depend on the segments, delivers and sends whole frames, a failure
or a frame over a limit closes the transport, and a refused call leaves it as it was. -/
theorem tcp_framing (options : TcpTransportOptions) :
    SegmentationIndependent options ∧ DeliversFrames options ∧ WritesDecode options ∧
      FailuresClose options ∧ LimitsClose options ∧ RefusalsUntouched options :=
  ⟨segmentationIndependent, deliversFrames, writesDecode, failuresClose, limitsClose,
    refusalsUntouched⟩

/-- A socket that delivers its state, at most `most` bytes at a time. -/
def segmentedEnvironment (most : ℕ) : TcpEnvironment Bytes where
  now w := (0, w)
  sendSome bytes _ w := ({ transferred := bytes.length }, w)
  receiveSome size _ w :=
    if w = [] then (({ status := .endOfStream }, []), [])
    else
      (({ transferred := min (min size most) w.length }, w.take (min (min size most) w.length)),
        w.drop (min (min size most) w.length))
  close w := w

theorem segmentedEnvironment_delivers (most : ℕ) :
    DeliversStream (segmentedEnvironment most) id (some { status := .endOfStream }) where
  now _ := rfl
  send _ _ _ := rfl
  close _ := rfl
  receive := by
    intro size timeout w result data w' hrcv hok _ _
    by_cases hw : w = []
    · simp only [segmentedEnvironment, hw, if_pos] at hrcv
      cases hrcv
      cases hok
    · simp only [segmentedEnvironment, hw, if_false] at hrcv
      cases hrcv
      refine ⟨Nat.min_le_right _ _, ?_, rfl⟩
      rw [take_take, Nat.min_self, id]
  finish := by
    intro size timeout w result data w' hrcv hend
    by_cases hw : w = []
    · simp only [segmentedEnvironment, hw, if_pos] at hrcv
      cases hrcv
      exact ⟨hw, rfl⟩
    · simp only [segmentedEnvironment, hw, if_false] at hrcv
      cases hrcv
      cases hend
  ending_failure := by
    rintro result hres
    cases hres
    exact ⟨by decide, rfl⟩

instance (ending : Option SocketIoResult) : DecidablePred (Delivered ending)
  | .sent _ _ => inferInstanceAs (Decidable (_ ∧ _ ∧ _))
  | .received _ _ _ => inferInstanceAs (Decidable ((_ ∧ _ ∧ _) ∨ _))
  | .closed => inferInstanceAs (Decidable True)

/-- A response, and a DATA frame in two pieces, byte by byte and all at once. -/
theorem segmentedCalls_agree :
    (calls (segmentedEnvironment 1) {}
        [.read [0, 0, 0, 0] 5, .readData [0, 0] 5, .readData [0, 0] 5, .read [0] 5]
        (frame [79, 75, 65, 89] ++ frame [1, 2, 3])).1
      = (calls (segmentedEnvironment 100) {}
        [.read [0, 0, 0, 0] 5, .readData [0, 0] 5, .readData [0, 0] 5, .read [0] 5]
        (frame [79, 75, 65, 89] ++ frame [1, 2, 3])).1 :=
  (tcp_framing {}).1 _ _ _ _ id id _ (segmentedEnvironment_delivers 1)
    (segmentedEnvironment_delivers 100) _ _ _ (by simp [TcpCall.Reads]) rfl (by decide +kernel)
    (by decide +kernel)

/-- A buffer over the limit is refused; the transport stays open, and the next call uses the
socket. -/
theorem oversize_write_leaves_open :
    (exec (TcpFastbootTransport.write (segmentedEnvironment 1) { maxFrameBytes := 0 } [7] 5)
        (opened [])).1
      = .error (refusedFailure "outbound Fastboot TCP frame exceeds the configured limit") ∧
    (exec (TcpFastbootTransport.write (segmentedEnvironment 1) { maxFrameBytes := 0 } [7] 5)
        (opened [])).2.isOpen = true ∧
    (calls (segmentedEnvironment 1) { maxFrameBytes := 0 } [.write [7] 5, .read [] 5] []).2.log
      = [.received 8 { status := .endOfStream } [], .closed] := by
  refine ⟨rfl, rfl, by decide +kernel⟩

end KairosBoot
