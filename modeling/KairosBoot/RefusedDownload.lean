import KairosBoot.PrimitiveService
import KairosBoot.DownloadStream
import KairosBoot.SessionFaults

/-! # Downloads on a poisoned session

A poisoned session refuses every operation with a copy of the error that has poisoned it, and
`PrimitiveService` derives the certainty of a download from the phase of that copy.  The request
reaches no transport, but what it reports is about the operation that failed before:
`refused_download_certainty_iff` says which earlier failures make the report right. -/

namespace KairosBoot

open Outcomes PrimitiveService FastbootSession

variable {τ : Type}

/-- The port of a session whose payload is a span of bytes, so that it is handed to `download`. -/
def FastbootSession.bufferedPort (setup : SessionSetup τ) (cancelled : τ → Bool × τ) :
    SessionPort (Session τ) :=
  { FastbootSession.port setup cancelled with
    downloadSource := fun payload => do
      let flag ← step fun s => ((cancelled s.world).1, { s with world := (cancelled s.world).2 })
      FastbootSession.download setup flag (payload.getD []) }

/-- The payload of a download: a span of bytes, or a source, which may be null. -/
inductive DownloadPayload where
  | span (bytes : Bytes)
  | source (source : Option Bytes)

/-- A request for a download, with the partition that is flashed after it, if there is one. -/
structure DownloadRequest where
  partition : Option String
  payload : DownloadPayload

namespace DownloadRequest

/-- The bytes of a request; `none` is a null source. -/
def bytes (request : DownloadRequest) : Option Bytes :=
  match request.payload with
  | .span bytes => some bytes
  | .source source => source

/-- The port that serves a request. -/
def port (setup : SessionSetup τ) (cancelled : τ → Bool × τ) (request : DownloadRequest) :
    SessionPort (Session τ) :=
  match request.payload with
  | .span _ => bufferedPort setup cancelled
  | .source _ => FastbootSession.port setup cancelled

/-- The checks of a request that involve no session. -/
def validate (request : DownloadRequest) : Except PrimitiveError Unit :=
  match request.partition with
  | none => validateDownloadSource request.bytes
  | some partition => do
      let _ ← validatedParameterCommand .flash "flash:" partition
      validateDownloadSource request.bytes

/-- `download`, `download_source`, `download_and_flash` and `download_and_flash_source`. -/
def run (setup : SessionSetup τ) (cancelled : τ → Bool × τ) (request : DownloadRequest) :
    Prog (Session τ) PrimitiveError Unit :=
  match request.partition with
  | none => do
      let _ ← PrimitiveService.downloadSource (request.port setup cancelled) request.bytes
  | some partition => do
      let _ ← downloadAndFlashSource (request.port setup cancelled) partition
        request.bytes

end DownloadRequest

/-- The failure came before the data of a download, or in a data phase without sending any. -/
def ProtocolError.SentNoData (error : ProtocolError) : Prop :=
  error.phase = .validation ∨ error.phase = .commandWrite ∨ error.phase = .initialResponse ∨
    ((error.phase = .dataWrite ∨ error.phase = .dataRead) ∧
      error.outboundCertainty = .notTransferred)

theorem ProtocolError.sentNoData_iff (error : ProtocolError) :
    downloadCertainty error.phase error.outboundCertainty = .notTransferred ↔ error.SentNoData := by
  unfold downloadCertainty SentNoData
  cases error.phase <;> simp

section Poisoned

variable {setup : SessionSetup τ} {cancelled : τ → Bool × τ} {s : Session τ}

theorem exec_downloadLocked_poisoned (hpois : s.state = .poisoned) (flag : Bool)
    (payload : Bytes) (fromSource : Bool) :
    exec (downloadLocked setup flag payload fromSource) s
      = (.error (unavailableErrorLocked s), s) := by
  unfold downloadLocked beginLocked
  rw [exec_bind, exec_get_bind, if_pos (by rw [hpois]; decide)]
  rfl

/-- The session after a request has read its cancellation flag. -/
def Session.flagRead (cancelled : τ → Bool × τ) (s : Session τ) : Session τ :=
  { s with world := (cancelled s.world).2 }

theorem validateDownloadSource_ok {source : Option Bytes}
    (h : validateDownloadSource source = .ok ()) :
    ∃ bytes, source = some bytes ∧ bytes.length ≤ maxDownloadSize := by
  cases source with
  | none => cases h
  | some bytes =>
      simp only [validateDownloadSource, validateDownloadSize] at h
      split_ifs at h with hemp hlong
      exact ⟨bytes, rfl, not_lt.mp hlong⟩

namespace DownloadRequest

variable {request : DownloadRequest}

theorem exec_port_poisoned (hpois : s.state = .poisoned)
    (hvld : validateDownloadSource request.bytes = .ok ()) :
    exec ((request.port setup cancelled).downloadSource request.bytes) s
      = (.error (unavailableErrorLocked (s.flagRead cancelled)), s.flagRead cancelled) := by
  obtain ⟨bytes, hbytes, hsize⟩ := validateDownloadSource_ok hvld
  have href : ∀ fromSource, exec (downloadLocked setup
      (cancelled s.world).1 bytes fromSource) (s.flagRead cancelled)
      = (.error (unavailableErrorLocked (s.flagRead cancelled)),
          s.flagRead cancelled) := fun fromSource =>
    exec_downloadLocked_poisoned (s := s.flagRead cancelled) hpois _ _ _
  have hsrc : exec ((FastbootSession.port setup cancelled).downloadSource (some bytes)) s
      = (.error (unavailableErrorLocked (s.flagRead cancelled)), s.flagRead cancelled) := by
    simp only [FastbootSession.port, exec_step_bind, FastbootSession.downloadSource]
    rw [if_neg (not_lt.mpr hsize)]
    exact href true
  have hspan : exec ((bufferedPort setup cancelled).downloadSource (some bytes)) s
      = (.error (unavailableErrorLocked (s.flagRead cancelled)), s.flagRead cancelled) := by
    simp only [bufferedPort, exec_step_bind, FastbootSession.download, Option.getD_some]
    rw [if_neg (not_lt.mpr hsize)]
    exact href false
  rw [hbytes]
  unfold port
  cases request.payload with
  | span _ => exact hspan
  | source _ => exact hsrc

/-- The error of a request that a poisoned session refuses. -/
def refusal (s : Session τ) : PrimitiveError :=
  protocolError .download (unavailableErrorLocked s) true true

variable {error : PrimitiveError}

theorem exec_downloadSource_invalid (hinval : validateDownloadSource request.bytes = .error error) :
    exec (downloadSource (request.port setup cancelled) request.bytes) s = (.error error, s) := by
  unfold PrimitiveService.downloadSource
  rw [exec_bind, exec_ofOutcome, hinval]

theorem exec_downloadSource_poisoned (hpois : s.state = .poisoned)
    (hvld : validateDownloadSource request.bytes = .ok ()) :
    exec (PrimitiveService.downloadSource (request.port setup cancelled) request.bytes) s
      = (.error (refusal (s.flagRead cancelled)), s.flagRead cancelled) := by
  have hst : (request.port setup cancelled).state (s.flagRead cancelled) = .poisoned := by
    unfold port
    cases request.payload <;> exact hpois
  unfold PrimitiveService.downloadSource
  rw [exec_bind, exec_ofOutcome, hvld]
  simp only [PrimitiveService.finishDownload]
  rw [exec_attempt_bind, exec_port_poisoned hpois hvld]
  simp only
  rw [exec_get_bind, hst]
  rfl

theorem exec_run_invalid (hinval : request.validate = .error error) :
    exec (request.run setup cancelled) s = (.error error, s) := by
  unfold validate at hinval
  unfold run
  cases hpart : request.partition with
  | none =>
      rw [hpart] at hinval
      simp only
      rw [exec_bind, exec_downloadSource_invalid hinval]
  | some partition =>
      rw [hpart] at hinval
      simp only at hinval
      simp only [downloadAndFlashSource]
      cases hcmd : validatedParameterCommand .flash "flash:" partition with
      | error e =>
          rw [hcmd] at hinval
          cases hinval
          rfl
      | ok text =>
          rw [hcmd] at hinval
          have hsrc : validateDownloadSource request.bytes = .error error := hinval
          rw [hsrc]
          rfl

theorem exec_run_poisoned (hpois : s.state = .poisoned) (hvld : request.validate = .ok ()) :
    exec (request.run setup cancelled) s
      = (.error (refusal (s.flagRead cancelled)), s.flagRead cancelled) := by
  unfold validate at hvld
  unfold run
  cases hpart : request.partition with
  | none =>
      rw [hpart] at hvld
      simp only
      rw [exec_bind, exec_downloadSource_poisoned hpois hvld]
  | some partition =>
      rw [hpart] at hvld
      simp only at hvld
      simp only [downloadAndFlashSource]
      cases hcmd : validatedParameterCommand .flash "flash:" partition with
      | error e =>
          rw [hcmd] at hvld
          cases hvld
      | ok text =>
          rw [hcmd] at hvld
          have hsrc : validateDownloadSource request.bytes = .ok () := hvld
          rw [hsrc]
          change exec ((downloadSource (request.port setup cancelled)
            request.bytes >>= fun downloaded => _) >>= fun _ => _) s = _
          rw [exec_bind, exec_bind, exec_downloadSource_poisoned hpois hsrc]

theorem validate_error (hinval : request.validate = .error error) :
    error.outboundCertainty = .notTransferred := by
  have hsrc : ∀ source, validateDownloadSource source = .error error →
      error.outboundCertainty = .notTransferred := by
    intro source h
    cases source with
    | none =>
        cases h
        rfl
    | some bytes =>
        simp only [validateDownloadSource, validateDownloadSize] at h
        split_ifs at h <;>
        · cases h
          rfl
  unfold validate at hinval
  cases hpart : request.partition with
  | none =>
      rw [hpart] at hinval
      exact hsrc _ hinval
  | some partition =>
      rw [hpart] at hinval
      simp only at hinval
      cases hcmd : validatedParameterCommand .flash "flash:" partition with
      | error e =>
          rw [hcmd] at hinval
          cases hinval
          unfold validatedParameterCommand at hcmd
          split_ifs at hcmd <;>
          · cases hcmd
            rfl
      | ok text =>
          rw [hcmd] at hinval
          exact hsrc _ hinval

end DownloadRequest

end Poisoned

/-- On a poisoned session, a request for a download fails without a call to the transport.  It
reports that nothing was transferred exactly if it has failed its own checks, or if the failure
that poisoned the session came without data of a download. -/
theorem refused_download_certainty_iff (setup : SessionSetup τ) (cancelled : τ → Bool × τ)
    {s : Session τ} (hpoisoned : s.state = .poisoned) (request : DownloadRequest) :
    ∃ error, (exec (request.run setup cancelled) s).1 = .error error ∧
      (exec (request.run setup cancelled) s).2.log = s.log ∧
      (error.outboundCertainty = .notTransferred ↔
        (∃ invalid, request.validate = .error invalid) ∨ s.storedError.SentNoData) := by
  cases hvalid : request.validate with
  | error invalid =>
      rw [DownloadRequest.exec_run_invalid hvalid]
      refine ⟨invalid, rfl, rfl, fun _ => .inl ⟨invalid, rfl⟩, fun _ => ?_⟩
      exact DownloadRequest.validate_error hvalid
  | ok _ =>
      rw [DownloadRequest.exec_run_poisoned hpoisoned hvalid]
      refine ⟨_, rfl, rfl, ?_⟩
      have hcertainty : (DownloadRequest.refusal (s.flagRead cancelled)).outboundCertainty
          = downloadCertainty s.storedError.phase s.storedError.outboundCertainty := by
        change downloadCertainty _ _ = _
        rw [unavailableErrorLocked_poisoned (s := s.flagRead cancelled) hpoisoned]
        rfl
      rw [hcertainty, ProtocolError.sentNoData_iff]
      refine ⟨.inr, fun h => h.resolve_left ?_⟩
      rintro ⟨invalid, hinvalid⟩
      cases hinvalid

/-! ### A download after one that has failed -/

/-- A device that accepts three bytes of data and then answers with an empty packet. -/
def brokenSession : Session (Bytes × List Bytes) where
  world := ([], [stringBytes "DATA00000003", []])

/-- The session after a download of three bytes. -/
def poisonedSession : Session (Bytes × List Bytes) :=
  (exec (FastbootSession.download { env := scriptedEnvironment } false
    [1, 2, 3]) brokenSession).2

def secondDownload : DownloadRequest := ⟨none, .span [4, 5]⟩

/-- A second download sends nothing and reports that everything was transferred. -/
theorem poisonedSession_reports_transferred :
    poisonedSession.state = .poisoned ∧
      ∃ error, exec (secondDownload.run { env := scriptedEnvironment }
          fun world => (false, world)) poisonedSession = (.error error, poisonedSession) ∧
        error.outboundCertainty = .fullyTransferred :=
  ⟨by decide +kernel, _, by rfl, by decide +kernel⟩

/-- After a download that could not begin, the report of the next one is right. -/
theorem cancelledSession_reports_nothing :
    ∃ error, (exec (secondDownload.run { env := scriptedEnvironment }
        fun world => (false, world)) (exec (FastbootSession.download
          { env := scriptedEnvironment } true [1, 2, 3])
          brokenSession).2).1 = .error error ∧
      error.outboundCertainty = .notTransferred := by
  obtain ⟨error, herror, -, hcertainty⟩ := refused_download_certainty_iff
    { env := scriptedEnvironment } (fun world => (false, world))
    (s := (exec (FastbootSession.download { env := scriptedEnvironment }
      true [1, 2, 3]) brokenSession).2) (by decide +kernel) secondDownload
  exact ⟨error, herror, hcertainty.mpr (.inr (.inl (by decide +kernel)))⟩

end KairosBoot
