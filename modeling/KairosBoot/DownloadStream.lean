import KairosBoot.SessionOperations

/-! # The byte stream of a download

With a transport whose counts are truthful, the bytes that it accepts during a download are a
beginning of one byte string: the command with the size of the payload, and then the payload.  The
payload is only offered after the device has announced exactly its size, and the number of
responses read is bounded by the informational limit.

A transport is truthful with respect to an observation of its state, the bytes accepted so far:
every write appends the bytes that it reports (`TruthfulCounts`).  Since the log of a session
records the calls that have moved the transport, the bytes accepted in an operation can be read
off its segment of the log (`acceptedIn`). -/

namespace KairosBoot

open Outcomes SessionEvent List

variable {τ : Type}

/-! ### Accepted bytes -/

/-- The bytes a transport has accepted are those that its writes report; no other call adds to
them. -/
structure TruthfulCounts (env : Environment τ) (accepted : τ → Bytes) : Prop where
  write : ∀ offered world, accepted (env.write offered world).2
    = accepted world ++ offered.take (env.write offered world).1.transferred
  writeSource : ∀ stream ∈ env.writeSource, ∀ source world,
    accepted (stream source world).2
      = accepted world ++ source.take (stream source world).1.transferred
  read : ∀ size world, accepted (env.read size world).2 = accepted world
  readData : ∀ size world, accepted (env.readData size world).2 = accepted world
  requestCancel : ∀ world, accepted (env.requestCancel world) = accepted world
  close : ∀ world, accepted (env.close world) = accepted world
  sinkWrite : ∀ offset payload world,
    accepted (env.sinkWrite offset payload world).2 = accepted world
  observe : ∀ committed total world,
    accepted (env.observe committed total world).2 = accepted world
  allocate : ∀ size world, accepted (env.allocate size world).2 = accepted world

/-- The bytes the transport has taken in a call, of whatever phase. -/
def SessionEvent.accepted : SessionEvent → Bytes
  | .write _ offered result => offered.take result.transferred
  | .writeSource offered result => offered.take result.transferred
  | _ => []

/-- The bytes the transport has taken in a segment of calls. -/
def acceptedIn (es : SessionLog) : Bytes := es.flatMap SessionEvent.accepted

/-- The number of responses read in a segment of calls. -/
def readsIn (es : SessionLog) : ℕ := es.countP SessionEvent.isRead

theorem TruthfulCounts.moves {env : Environment τ} {accepted : τ → Bytes}
    (h : TruthfulCounts env accepted) (world : τ) (e : SessionEvent) (world' : τ)
    (hmov : e.Moves env world world') : accepted world' = accepted world ++ e.accepted := by
  cases e with
  | write phase offered result =>
      have := h.write offered world
      rwa [hmov] at this
  | writeSource offered result =>
      obtain ⟨stream, hstr, hmov⟩ := hmov
      have := h.writeSource stream hstr offered world
      rwa [hmov] at this
  | read result packet =>
      obtain ⟨size, rfl⟩ := hmov
      simp [h.read, SessionEvent.accepted]
  | readData requested result =>
      cases hmov
      simp [h.readData, SessionEvent.accepted]
  | sinkWrite offset payload result =>
      have := h.sinkWrite offset payload world
      rw [hmov] at this
      simp [this, SessionEvent.accepted]
  | observe committed total outcome =>
      have := h.observe committed total world
      rw [hmov] at this
      simp [this, SessionEvent.accepted]
  | allocate size succeeded =>
      have := h.allocate size world
      rw [hmov] at this
      simp [this, SessionEvent.accepted]
  | requestCancel =>
      cases hmov
      simp [h.requestCancel, SessionEvent.accepted]
  | close =>
      cases hmov
      simp [h.close, SessionEvent.accepted]

/-- What the transport has accepted between two sessions is what the log says. -/
theorem TruthfulCounts.traced {env : Environment τ} {accepted : τ → Bytes}
    (h : TruthfulCounts env accepted) {s s' : Session τ} {es : SessionLog}
    (htrc : Traced env s es s') : accepted s'.world = accepted s.world ++ acceptedIn es :=
  htrc.2.accumulates h.moves

section Segments

variable {phase : ProtocolPhase} {es es' : SessionLog}

@[simp] theorem acceptedIn_append : acceptedIn (es ++ es') = acceptedIn es ++ acceptedIn es' :=
  flatMap_append

@[simp] theorem readsIn_append : readsIn (es ++ es') = readsIn es + readsIn es' := countP_append

theorem SessionEvent.accepted_of_isWrite {e : SessionEvent} (h : e.isWrite phase) :
    e.accepted = e.taken phase := by
  cases e with
  | write p offered result => exact (if_pos (of_decide_eq_true h)).symm
  | writeSource offered result => exact (if_pos (of_decide_eq_true h)).symm
  | _ => cases h

theorem acceptedIn_of_isWrite (h : ∀ e ∈ es, e.isWrite phase) : acceptedIn es = takenIn phase es :=
  flatMap_congr fun e he => accepted_of_isWrite (h e he)

theorem SessionEvent.not_isRead_of_isWrite {e : SessionEvent} (h : e.isWrite phase) :
    ¬ e.isRead := by
  cases e <;> simp_all [isRead, isWrite]

theorem SessionEvent.not_isRead_of_isInbound {e : SessionEvent} (h : e.isInbound) : ¬ e.isRead := by
  cases e <;> simp_all [isRead, isInbound]

theorem readsIn_of_isWrite (h : ∀ e ∈ es, e.isWrite phase) : readsIn es = 0 :=
  countP_eq_zero.mpr fun e he => not_isRead_of_isWrite (h e he)

theorem acceptedIn_of_isRead (h : ∀ e ∈ es, e.isRead) : acceptedIn es = [] :=
  flatMap_eq_nil_iff.mpr fun e he => by cases e <;> first | rfl | cases h _ he

theorem readsIn_of_isRead (h : ∀ e ∈ es, e.isRead) : readsIn es = es.length :=
  countP_eq_length.mpr h

theorem acceptedIn_of_isInbound (h : ∀ e ∈ es, e.isInbound) : acceptedIn es = [] :=
  flatMap_eq_nil_iff.mpr fun e he => by cases e <;> first | rfl | cases h _ he

theorem readsIn_of_isInbound (h : ∀ e ∈ es, e.isInbound) : readsIn es = 0 :=
  countP_eq_zero.mpr fun e he => not_isRead_of_isInbound (h e he)

end Segments

/-! ### The stream -/

/-- The byte string of a download: the command and the payload. -/
def downloadStream (payload : Bytes) : Bytes :=
  stringBytes (FastbootSession.downloadCommand payload.length) ++ payload

/-- In a segment of calls, payload is only offered after the device has announced its size. -/
def AnnouncedFirst (limit size : ℕ) (es : SessionLog) : Prop :=
  ∀ before e rest, es = before ++ e :: rest → e.isWrite .dataWrite →
    ∃ response ∈ responsesIn limit before, response.announcedSize = some size

theorem announcedFirst_of_no_payload {limit size : ℕ} {es : SessionLog}
    (h : ∀ e ∈ es, ¬ e.isWrite .dataWrite) : AnnouncedFirst limit size es := by
  rintro before e rest rfl hwr
  exact absurd hwr (h e (by simp))

/-- A segment without payload that has received the announcement may be followed by anything. -/
theorem announcedFirst_append {limit size : ℕ} {es es' : SessionLog} {response : Response}
    (h : ∀ e ∈ es, ¬ e.isWrite .dataWrite) (hmem : response ∈ responsesIn limit es)
    (hsize : response.announcedSize = some size) : AnnouncedFirst limit size (es ++ es') := by
  intro before e rest heq hwr
  -- the payload call lies behind `es`, so `before` contains `es`
  rcases append_eq_append_iff.mp heq with ⟨middle, rfl, -⟩ | ⟨middle, rfl, hmiddle⟩
  · exact ⟨response, by simp [hmem], hsize⟩
  · cases middle with
    | nil => exact ⟨response, by simpa using hmem, hsize⟩
    | cons e' middle =>
        obtain ⟨rfl, -⟩ := cons_eq_cons.mp hmiddle
        exact absurd hwr (h e (by simp))

/-- The calls of a download, in terms of the stream. -/
structure StreamsDownload (limit infoLimit : ℕ) (payload : Bytes)
    (r : Except ProtocolError CommandResult) (es : SessionLog) : Prop where
  accepted : acceptedIn es <+: downloadStream payload
  complete : ∀ result, r = .ok result → result.terminal.kind = .okay →
    acceptedIn es = downloadStream payload
  announced_first : AnnouncedFirst limit payload.length es
  reads_le : readsIn es ≤ infoLimit + 2

namespace FastbootSession

variable {limit infoLimit : ℕ} {payload : Bytes} {r : Except ProtocolError CommandResult}
  {s' : Session τ} {es : SessionLog}

theorem not_payload_of_isRead {e : SessionEvent} (h : e.isRead) : ¬ e.isWrite .dataWrite := by
  cases e <;> simp_all [isRead, isWrite]

theorem not_payload_of_isInbound {e : SessionEvent} (h : e.isInbound) : ¬ e.isWrite .dataWrite := by
  cases e <;> simp_all [isInbound, isWrite]

theorem not_payload_of_command {e : SessionEvent} (h : e.isWrite .commandWrite) :
    ¬ e.isWrite .dataWrite := by
  cases e <;> simp_all [isWrite]

/-- Once the command is written and the announcement received, payload may be offered. -/
theorem announcedFirst_of_command {size : ℕ} {es₁ es₂ es₃ : SessionLog}
    {infos : List Response} {final : Response} (hwrs : ∀ e ∈ es₁, e.isWrite .commandWrite)
    (hnone : ∀ e ∈ es₂, ¬ e.isWrite .dataWrite) (hans : Answers limit es₂ infos final)
    (hsize : final.announcedSize = some size) :
    AnnouncedFirst limit size (es₁ ++ (es₂ ++ es₃)) := by
  rw [← append_assoc]
  refine announcedFirst_append (forall_mem_append.mpr
    ⟨fun e he => not_payload_of_command (hwrs e he), hnone⟩) ?_ hsize
  rw [responsesIn_append, hans.responses]
  simp

/-! The phases of a download in terms of what they accept and read. -/

theorem Wrote.accepted_complete {phase : ProtocolPhase} {bytes : Bytes}
    {state : SessionState} {value : Unit} (h : Wrote phase bytes state (.ok value) s' es) :
    (∀ e ∈ es, e.isWrite phase) ∧ acceptedIn es = bytes ∧ readsIn es = 0 := by
  obtain ⟨hwrs, htaken, -⟩ := h
  exact ⟨hwrs, (acceptedIn_of_isWrite hwrs).trans htaken, readsIn_of_isWrite hwrs⟩

theorem Wrote.accepted_failed {phase : ProtocolPhase} {bytes : Bytes} {state : SessionState}
    {error : ProtocolError} (h : Wrote phase bytes state (.error error) s' es) :
    (∀ e ∈ es, e.isWrite phase) ∧ acceptedIn es <+: bytes ∧ readsIn es = 0 := by
  obtain _ | ⟨hwrs, htaken, -⟩ := h
  exact ⟨hwrs, (acceptedIn_of_isWrite hwrs).symm ▸ htaken, readsIn_of_isWrite hwrs⟩

theorem Answers.accepted {infos : List Response} {final : Response}
    (h : Answers limit es infos final) : acceptedIn es = [] ∧ readsIn es = infos.length + 1 :=
  ⟨acceptedIn_of_isRead h.reads, (readsIn_of_isRead h.reads).trans h.length_eq⟩

/-- The initial responses accept nothing, offer no payload, and are at most one more than the
informational limit. -/
theorem InitialOutcome.accepted {Announces : ℕ → Prop} {state : SessionState}
    {initial : Except ProtocolError InitialResponse}
    (h : InitialOutcome limit infoLimit Announces state initial s' es) :
    (∀ e ∈ es, ¬ e.isWrite .dataWrite) ∧ acceptedIn es = [] ∧ readsIn es ≤ infoLimit + 1 := by
  have hans : ∀ {infos : List Response} {final : Response}, Answers limit es infos final →
      infos.length ≤ infoLimit →
      (∀ e ∈ es, ¬ e.isWrite .dataWrite) ∧ acceptedIn es = [] ∧ readsIn es ≤ infoLimit + 1 := by
    intro infos final h hlen
    obtain ⟨hacpt, hrds⟩ := h.accepted
    exact ⟨fun e he => not_payload_of_isRead (h.reads e he), hacpt, by omega⟩
  cases h with
  | refused h _ hlen _ => exact hans h hlen
  | announced h _ _ hlen _ => exact hans h hlen
  | completed h _ hlen _ => exact hans h hlen
  | failed hrds hlen hinb _ =>
      refine ⟨forall_mem_append.mpr ⟨fun e he => not_payload_of_isRead (hrds e he),
        fun e he => not_payload_of_isInbound (hinb e he)⟩, ?_, ?_⟩
      · rw [acceptedIn_append, acceptedIn_of_isRead hrds, acceptedIn_of_isInbound hinb, append_nil]
      · rw [readsIn_append, readsIn_of_isRead hrds, readsIn_of_isInbound hinb]
        omega

theorem TerminalOutcome.accepted {fuel : ℕ} (h : TerminalOutcome limit fuel r s' es) :
    acceptedIn es = [] ∧ readsIn es ≤ fuel + 1 := by
  cases h with
  | answered h _ hlen _ =>
      obtain ⟨hacpt, hrds⟩ := h.accepted
      exact ⟨hacpt, by omega⟩
  | failed hrds hlen _ =>
      exact ⟨acceptedIn_of_isRead hrds, (readsIn_of_isRead hrds).trans_le hlen⟩

theorem DownloadOutcome.streams (h : DownloadOutcome limit infoLimit payload r s' es) :
    StreamsDownload limit infoLimit payload r es := by
  cases h with
  | commandFailed hcmd =>
      obtain ⟨hwrs, hacpt, hrds⟩ := hcmd.accepted_failed
      exact {
        accepted := hacpt.trans (prefix_append _ _)
        complete := fun result hr => by cases hr
        announced_first := announcedFirst_of_no_payload fun e he =>
          not_payload_of_command (hwrs e he)
        reads_le := by omega }
  | initialFailed hcmd hinit =>
      obtain ⟨hwrs, hacpt, hrds⟩ := hcmd.accepted_complete
      obtain ⟨hnone, hacpt', hrds'⟩ := hinit.accepted
      exact {
        accepted := by
          rw [acceptedIn_append, hacpt, hacpt', append_nil]
          exact prefix_append _ _
        complete := fun result hr => by cases hr
        announced_first := announcedFirst_of_no_payload (forall_mem_append.mpr
          ⟨fun e he => not_payload_of_command (hwrs e he), hnone⟩)
        reads_le := by rw [readsIn_append]; omega }
  | refused hcmd hinit =>
      obtain ⟨hwrs, hacpt, hrds⟩ := hcmd.accepted_complete
      obtain ⟨hnone, hacpt', hrds'⟩ := hinit.accepted
      obtain ⟨-, hfail, -, -⟩ := hinit
      exact {
        accepted := by
          rw [acceptedIn_append, hacpt, hacpt', append_nil]
          exact prefix_append _ _
        complete := fun result hr hokay => by
          cases hr
          cases hfail.symm.trans hokay
        announced_first := announcedFirst_of_no_payload (forall_mem_append.mpr
          ⟨fun e he => not_payload_of_command (hwrs e he), hnone⟩)
        reads_le := by rw [readsIn_append]; omega }
  | payloadFailed hcmd hinit hdata =>
      obtain ⟨hwrs, hacpt, hrds⟩ := hcmd.accepted_complete
      obtain ⟨hnone, hacpt', hrds'⟩ := hinit.accepted
      obtain ⟨-, hacpt'', hrds''⟩ := hdata.accepted_failed
      obtain _ | ⟨hans, hsize, rfl, -, -⟩ := hinit
      exact {
        accepted := by
          rw [acceptedIn_append, acceptedIn_append, hacpt, hacpt', nil_append]
          exact (prefix_append_right_inj _).mpr hacpt''
        complete := fun result hr => by cases hr
        announced_first := announcedFirst_of_command hwrs hnone hans hsize
        reads_le := by rw [readsIn_append, readsIn_append]; omega }
  | @ended _ _ _ _ es₁ es₂ es₃ es₄ _ _ _ hcmd hinit hdata hterm =>
      obtain ⟨hwrs, hacpt, hrds⟩ := hcmd.accepted_complete
      obtain ⟨hnone, hacpt', -⟩ := hinit.accepted
      obtain ⟨-, hacpt'', hrds''⟩ := hdata.accepted_complete
      obtain ⟨hfin, hreadsFinal⟩ := hterm.accepted
      obtain _ | ⟨hans, hsize, rfl, hlen, -⟩ := hinit
      have hall : acceptedIn (es₁ ++ (es₂ ++ (es₃ ++ es₄))) = downloadStream payload := by
        rw [acceptedIn_append, acceptedIn_append, acceptedIn_append, hacpt, hacpt',
          hacpt'', hfin, nil_append, append_nil]
        rfl
      exact {
        accepted := ⟨[], by rw [hall, append_nil]⟩
        complete := fun _ _ _ => hall
        announced_first := announcedFirst_of_command hwrs hnone hans hsize
        reads_le := by
          have := hans.accepted.2
          rw [readsIn_append, readsIn_append, readsIn_append]
          omega }

theorem streamsDownload_nil {error : ProtocolError} :
    StreamsDownload limit infoLimit payload (.error error) [] where
  accepted := nil_prefix
  complete := fun result hr => by cases hr
  announced_first := announcedFirst_of_no_payload (by simp)
  reads_le := Nat.zero_le _

variable (setup : SessionSetup τ)

theorem downloadLocked_streams (cancelled : Bool) (payload : Bytes) (fromSource : Bool)
    (s : Session τ) :
    Calls setup (downloadLocked setup cancelled payload fromSource) s
      fun r _ es => StreamsDownload setup.options.maxResponseBytes
        setup.options.maxInformationalResponses payload r es := by
  refine (beginLocked_emits cancelled _ s).bind ?_ ?_
  · rintro _ s' es ⟨-, -, -⟩
    split_ifs with hsrc
    · cases hstr : setup.env.writeSource with
      | none => exact emits_throw streamsDownload_nil
      | some stream =>
          refine (downloadBegun_emits payload ?_ s').mono fun _ _ _ => DownloadOutcome.streams
          simpa using hstr
    · exact (downloadBegun_emits payload (by simp) s').mono fun _ _ _ => DownloadOutcome.streams
  · rintro error s' es (_ | ⟨-⟩ | ⟨-, -⟩)
    · exact streamsDownload_nil
    · exact streamsDownload_nil

/-- A call of `download_source` with the given payload, or of `download`. -/
def downloadCall (cancelled fromSource : Bool) (payload : Bytes) : SessionM τ CommandResult :=
  if fromSource then downloadSource setup cancelled (some payload)
  else download setup cancelled payload

theorem downloadCall_eq (cancelled fromSource : Bool) {payload : Bytes}
    (hsize : payload.length ≤ 2 ^ 32 - 1) :
    downloadCall setup cancelled fromSource payload
      = downloadLocked setup cancelled payload fromSource := by
  have hsmall : ¬ maxDownloadSize < payload.length := not_lt.mpr hsize
  cases fromSource with
  | false => simp only [downloadCall, download, if_neg hsmall, Bool.false_eq_true, if_false]
  | true => simp only [downloadCall, downloadSource, if_neg hsmall, if_true]

/-- The bytes that a truthful transport accepts during a download are a beginning of the command,
with the eight digits of the size, and the payload; all of it if the device answers OKAY.  No
payload is offered before a DATA response with exactly its size, and at most two responses more
than the informational limit are read. -/
theorem download_byte_stream {accepted : τ → Bytes}
    (htruthful : TruthfulCounts setup.env accepted) (s : Session τ)
    (cancelled fromSource : Bool) (payload : Bytes) (hsize : payload.length ≤ 2 ^ 32 - 1) :
    let outcome := (exec (downloadCall setup cancelled fromSource payload) s).1
    let s' := (exec (downloadCall setup cancelled fromSource payload) s).2
    ∃ digits sent es, LowerHex digits payload.length ∧
      accepted s'.world = accepted s.world ++ sent ∧
      sent <+: stringBytes "download:" ++ digits ++ payload ∧
      (∀ result, outcome = .ok result → result.terminal.kind = .okay →
        sent = stringBytes "download:" ++ digits ++ payload) ∧
      s'.log = s.log ++ es ∧
      AnnouncedFirst setup.options.maxResponseBytes payload.length es ∧
      readsIn es ≤ setup.options.maxInformationalResponses + 2 := by
  intro outcome s'
  have hrun := downloadLocked_streams setup cancelled payload fromSource s
  rw [← downloadCall_eq setup cancelled fromSource hsize] at hrun
  obtain ⟨es, htraced, hstream⟩ := hrun
  have hcommand : downloadStream payload
      = stringBytes "download:" ++ stringBytes (hexDigits payload.length) ++ payload := by
    rw [downloadStream, downloadCommand, stringBytes_append]
  refine ⟨stringBytes (hexDigits payload.length), acceptedIn es, es,
    lowerHex_hexDigits (by omega), htruthful.traced htraced, ?_, ?_, htraced.1,
    hstream.announced_first, hstream.reads_le⟩
  · rw [← hcommand]
    exact hstream.accepted
  · rw [← hcommand]
    exact hstream.complete

/-- A transport that accepts at most five bytes a call and answers with the packets it is given. -/
def scriptedEnvironment : Environment (Bytes × List Bytes) where
  write offered world :=
    ({ transferred := min 5 offered.length }, (world.1 ++ offered.take 5, world.2))
  writeSource := none
  read _ world :=
    (({ transferred := (world.2.headD []).length }, world.2.headD []), (world.1, world.2.tail))
  readData _ world := (({ status := .ioError }, []), world)
  requestCancel world := world
  close world := world
  sinkWrite _ _ world := ({ status := .ioError }, world)
  observe _ _ world := (.continueTransfer, world)
  allocate _ world := (true, world)

theorem scriptedEnvironment_truthful : TruthfulCounts scriptedEnvironment Prod.fst where
  write offered world := by
    change world.1 ++ offered.take 5 = world.1 ++ offered.take (min 5 offered.length)
    rw [take_eq_take_min]
  writeSource stream hstr := by cases hstr
  read _ _ := rfl
  readData _ _ := rfl
  requestCancel _ := rfl
  close _ := rfl
  sinkWrite _ _ _ := rfl
  observe _ _ _ := rfl
  allocate _ _ := rfl

/-- A session whose device announces three bytes and then answers OKAY. -/
def scriptedSession : Session (Bytes × List Bytes) where
  world := ([], [stringBytes "INFOready", stringBytes "DATA00000003", stringBytes "OKAY"])

theorem scriptedSession_byte_stream :
    let call := downloadCall { env := scriptedEnvironment } false false [1, 2, 3]
    (exec call scriptedSession).2.world.1 = stringBytes "download:00000003" ++ [1, 2, 3] ∧
      ∃ digits sent es, LowerHex digits 3 ∧
        (exec call scriptedSession).2.world.1 = [] ++ sent ∧
        sent <+: stringBytes "download:" ++ digits ++ [1, 2, 3] ∧
        (∀ result, (exec call scriptedSession).1 = .ok result → result.terminal.kind = .okay →
          sent = stringBytes "download:" ++ digits ++ [1, 2, 3]) ∧
        (exec call scriptedSession).2.log = [] ++ es ∧ AnnouncedFirst 256 3 es ∧
        readsIn es ≤ 1024 + 2 :=
  ⟨by decide +kernel, download_byte_stream { env := scriptedEnvironment }
    scriptedEnvironment_truthful scriptedSession false false [1, 2, 3] (by decide)⟩

end FastbootSession

end KairosBoot
