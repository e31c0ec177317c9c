import KairosBoot.ReconnectCoordinator

/-! # What a reconnect does

`Lawful` are the laws of the log of a reconnect, and `Calm` says that nothing in the log forbids to
go on.  Every part of `reconnect` keeps the log lawful whatever its outcome, and keeps it calm if
the reconnect goes on after it; `reconnect_safe` puts them together. -/

namespace KairosBoot

open Outcomes List

namespace ReconnectCoordinator

variable {τ : Type} {env : ReconnectEnvironment τ} {target : ReconnectTarget}
  {deadline : ℤ} {options : ReconnectOptions}

/-! ### Laws of the log -/

/-- A call that touches devices. -/
def isDiscovery : ReconnectEvent → Bool
  | .discovered _ => true
  | _ => false

def isOpen : ReconnectEvent → Bool
  | .opened _ _ => true
  | _ => false

/-- After this event no device may be touched. -/
def Final (deadline : ℤ) : ReconnectEvent → Prop
  | .clock now => deadline ≤ now
  | .stopAsked requested => requested = true
  | .opened _ (.error error) => error.outboundCertainty ≠ some .notTransferred
  | .waited _ result => result.status = some .cancelled
  | _ => False

def lastDiscovery (log : List ReconnectEvent) : Option DiscoveryResult :=
  (log.filterMap fun
    | .discovered result => some result
    | _ => none).getLast?

/-- The fingerprint is that of the target, or the device may have changed it with its mode. -/
def FingerprintPermitted (target : ReconnectTarget) (fingerprint : ReconnectUsbFingerprint) : Prop :=
  fingerprint = target.usbFingerprint ∨
    (target.usbFingerprintPolicy = some .allowChangeWithLiveIdentity ∧
      target.previousMode ≠ target.requiredMode ∧
      target.precedingOperationCertainty = some .fullyTransferred)

theorem fingerprintPermitted_of_allowed {fingerprint : ReconnectUsbFingerprint}
    {mode : Option (Option FastbootUsbMode)}
    (h : reconnectUsbFingerprintAllowed target fingerprint mode = true) :
    FingerprintPermitted target fingerprint := by
  unfold reconnectUsbFingerprintAllowed at h
  split_ifs at h with hexact href
  · exact .inl (by simpa using h)
  · simp only [not_or, not_not] at href
    exact .inr href

/-- The only device at the port of the target, with a fingerprint and a serial that are permitted. -/
structure Selected (target : ReconnectTarget) (devices : List ReconnectCandidate)
    (candidate : ReconnectCandidate) : Prop where
  unique : devices.filter (·.physicalPort = target.physicalPort) = [candidate]
  fingerprint : FingerprintPermitted target candidate.usbFingerprint
  serial : ∀ expected observed, target.serial = some expected → candidate.serial = some observed →
    observed = expected

structure Lawful (target : ReconnectTarget) (deadline : ℤ) (options : ReconnectOptions)
    (s : ReconnectRun τ) : Prop where
  /-- Nothing is touched after the end. -/
  final : s.log.Pairwise fun event later =>
    Final deadline event → isDiscovery later = false ∧ isOpen later = false
  /-- What is opened has just been selected. -/
  chosen : ∀ front rest candidate result, s.log = front ++ .opened candidate result :: rest →
    ∃ devices, lastDiscovery front = some (.ok devices) ∧ Selected target devices candidate
  discoveries : s.log.countP isDiscovery ≤ s.attempt.discoveryAttempts
  discoveries_le : s.attempt.discoveryAttempts ≤ options.maximumDiscoveryAttempts
  opens : s.log.countP isOpen ≤ s.attempt.openAttempts
  opens_le : s.attempt.openAttempts ≤ options.maximumOpenAttempts
  waits : ∀ duration result, .waited duration result ∈ s.log →
    0 < duration ∧ duration ≤ options.maximumBackoff

/-- Only the clock may have had its last word, and then the last time is past the deadline. -/
def Calm (deadline : ℤ) (s : ReconnectRun τ) : Prop :=
  ∀ event ∈ s.log, Final deadline event → ∃ now, event = .clock now ∧ now ≤ s.lastTime

/-- Before the deadline a calm log has no last word. -/
theorem Calm.not_final {s : ReconnectRun τ} (h : Calm deadline s) (hlast : s.lastTime < deadline) :
    ∀ event ∈ s.log, ¬ Final deadline event := by
  intro event hev hfin
  obtain ⟨now, rfl, hnow⟩ := h event hev hfin
  have hdeadline : deadline ≤ now := hfin
  omega

@[simp] theorem lastDiscovery_append_discovered (log : List ReconnectEvent)
    (result : DiscoveryResult) : lastDiscovery (log ++ [.discovered result]) = some result := by
  simp [lastDiscovery]

variable {devices : List ReconnectCandidate} {candidate : ReconnectCandidate}
  {E : ReconnectError → ReconnectRun τ → Prop} {event : ReconnectEvent}

theorem lastDiscovery_append_other {log : List ReconnectEvent} (h : isDiscovery event = false) :
    lastDiscovery (log ++ [event]) = lastDiscovery log := by
  cases event <;> simp_all [lastDiscovery, isDiscovery]

variable {s s' s'' : ReconnectRun τ}

/-- An event: a device is touched before any last word, and what is opened has been selected. -/
theorem Lawful.extend (h : Lawful target deadline options s) (hlog : s'.log = s.log ++ [event])
    (hatt : s'.attempt = s.attempt)
    (hfin : isDiscovery event ∨ isOpen event → ∀ earlier ∈ s.log, ¬ Final deadline earlier)
    (hdisc : isDiscovery event → s.log.countP isDiscovery < s.attempt.discoveryAttempts)
    (hopen : isOpen event → s.log.countP isOpen < s.attempt.openAttempts)
    (hchose : ∀ candidate result, event = .opened candidate result →
      ∃ devices, lastDiscovery s.log = some (.ok devices) ∧ Selected target devices candidate)
    (hwait : ∀ duration result, event = .waited duration result →
      0 < duration ∧ duration ≤ options.maximumBackoff) : Lawful target deadline options s' where
  final := by
    rw [hlog]
    refine pairwise_append.mpr ⟨h.final, pairwise_singleton _ _, ?_⟩
    intro earlier hearl later hlater hlast
    rw [mem_singleton.mp hlater, ← Bool.not_eq_true, ← Bool.not_eq_true, ← not_or]
    exact fun htouched => hfin htouched earlier hearl hlast
  chosen := by
    intro front rest candidate result heq
    rw [hlog] at heq
    rcases append_eq_append_cons heq with ⟨middle, hold⟩ | ⟨middle, hfront, hnew⟩
    · exact h.chosen front middle candidate result hold
    · obtain ⟨rfl, hev⟩ : middle = [] ∧ event = .opened candidate result := by
        cases middle <;> simp_all
      rw [hfront, append_nil]
      exact hchose candidate result hev
  discoveries := by
    rw [hlog, hatt, countP_append, countP_singleton]
    split_ifs with hev
    · exact hdisc hev
    · exact h.discoveries
  discoveries_le := hatt ▸ h.discoveries_le
  opens := by
    rw [hlog, hatt, countP_append, countP_singleton]
    split_ifs with hev
    · exact hopen hev
    · exact h.opens
  opens_le := hatt ▸ h.opens_le
  waits := by
    intro duration result hmem
    rw [hlog] at hmem
    rcases mem_append.mp hmem with hold | hnew
    · exact h.waits duration result hold
    · exact hwait duration result (mem_singleton.mp hnew).symm

theorem Lawful.append (h : Lawful target deadline options s) (hlog : s'.log = s.log ++ [event])
    (hatt : s'.attempt = s.attempt) (hdisc : isDiscovery event = false)
    (hopen : isOpen event = false) (hwait : ∀ duration result, event = .waited duration result →
      0 < duration ∧ duration ≤ options.maximumBackoff) : Lawful target deadline options s' := by
  refine h.extend hlog hatt (by simp [hdisc, hopen]) (by simp [hdisc])
    (by simp [hopen]) (fun candidate result hev => ?_) hwait
  rw [hev] at hopen
  cases hopen

/-- A calm log stays calm with an event that may have its last word only as the clock. -/
theorem Calm.append (h : Calm deadline s) (hlog : s'.log = s.log ++ [event])
    (hlast : s.lastTime ≤ s'.lastTime)
    (hfin : Final deadline event → ∃ now, event = .clock now ∧ now ≤ s'.lastTime) :
    Calm deadline s' := by
  unfold Calm
  rw [hlog, forall_mem_append, forall_mem_singleton]
  refine ⟨fun earlier hearl hearl' => ?_, hfin⟩
  obtain ⟨now, rfl, hnow⟩ := h earlier hearl hearl'
  exact ⟨now, rfl, hnow.trans hlast⟩

theorem Lawful.congr (h : Lawful target deadline options s) (hlog : s'.log = s.log)
    (hdiscs : s'.attempt.discoveryAttempts = s.attempt.discoveryAttempts)
    (hopens : s'.attempt.openAttempts = s.attempt.openAttempts) :
    Lawful target deadline options s' where
  final := hlog ▸ h.final
  chosen := hlog ▸ h.chosen
  discoveries := by rw [hlog, hdiscs]; exact h.discoveries
  discoveries_le := by rw [hdiscs]; exact h.discoveries_le
  opens := by rw [hlog, hopens]; exact h.opens
  opens_le := by rw [hopens]; exact h.opens_le
  waits := hlog ▸ h.waits

/-! ### Going on -/

/-- If the reconnect could go on in `s` then it may in `s'`, with the same counters. -/
structure Kept (target : ReconnectTarget) (deadline : ℤ) (options : ReconnectOptions)
    (s s' : ReconnectRun τ) : Prop where
  lawful : Lawful target deadline options s'
  calm : Calm deadline s → Calm deadline s'
  discoveryAttempts : s'.attempt.discoveryAttempts = s.attempt.discoveryAttempts
  openAttempts : s'.attempt.openAttempts = s.attempt.openAttempts
  backoff : s'.backoff = s.backoff
  lastDiscovery : lastDiscovery s'.log = lastDiscovery s.log
  log : ∃ es, s'.log = s.log ++ es

theorem Kept.trans (h : Kept target deadline options s s')
    (h' : Kept target deadline options s' s'') : Kept target deadline options s s'' := by
  obtain ⟨es, hes⟩ := h.log
  obtain ⟨es', hes'⟩ := h'.log
  refine ⟨h'.lawful, h'.calm ∘ h.calm, h'.discoveryAttempts.trans h.discoveryAttempts,
    h'.openAttempts.trans h.openAttempts, h'.backoff.trans h.backoff,
    h'.lastDiscovery.trans h.lastDiscovery, es ++ es', ?_⟩
  rw [hes', hes, append_assoc]

theorem Kept.note (h : Lawful target deadline options s) {f : AttemptState → AttemptState}
    (hdiscs : (f s.attempt).discoveryAttempts = s.attempt.discoveryAttempts)
    (hopens : (f s.attempt).openAttempts = s.attempt.openAttempts) :
    Kept target deadline options s { s with attempt := f s.attempt } :=
  ⟨h.congr rfl hdiscs hopens, id, hdiscs, hopens, rfl, rfl, [], (append_nil _).symm⟩

theorem Kept.append (h : Lawful target deadline options s) {world : τ} {lastTime : ℤ}
    (hlast : s.lastTime ≤ lastTime) (hdisc : isDiscovery event = false)
    (hopen : isOpen event = false)
    (hwait : ∀ duration result, event = .waited duration result →
      0 < duration ∧ duration ≤ options.maximumBackoff)
    (hfin : Final deadline event → ∃ now, event = .clock now ∧ now ≤ lastTime) :
    Kept target deadline options s
      { s with world := world, log := s.log ++ [event], lastTime := lastTime } := by
  exact ⟨h.append rfl rfl hdisc hopen hwait, fun hcalm => hcalm.append rfl hlast hfin, rfl,
    rfl, rfl, lastDiscovery_append_other hdisc, [event], rfl⟩

/-! ### Checks -/

theorem ask_bind {α β : Type} {f : τ → α × τ} {event : α → ReconnectEvent}
    {rest : α → ReconnectM τ β} {Q : β → ReconnectRun τ → Prop}
    (h : ∀ answer world,
      EndsWith (rest answer) { s with world := world, log := s.log ++ [event answer] } Q E) :
    EndsWith (ask f event >>= rest) s Q E :=
  endsWith_step_bind (h _ _)

/-- A change of the attempts that is no attempt, and what follows it. -/
theorem note_bind {α : Type} {f : AttemptState → AttemptState} {rest : Unit → ReconnectM τ α}
    {Q : α → ReconnectRun τ → Prop} (h : Lawful target deadline options s)
    (hdiscs : (f s.attempt).discoveryAttempts = s.attempt.discoveryAttempts)
    (hopens : (f s.attempt).openAttempts = s.attempt.openAttempts)
    (hrest : ∀ s', Kept target deadline options s s' → s'.attempt = f s.attempt →
      s'.lastTime = s.lastTime → s'.log = s.log → EndsWith (rest ()) s' Q E) :
    EndsWith (note f >>= rest) s Q E :=
  endsWith_modify_bind (hrest _ (.note h hdiscs hopens) rfl rfl rfl)

section Checks

variable {P : Unit → ReconnectRun τ → Prop} {α : Type} {Q : α → ReconnectRun τ → Prop}
  {E : ReconnectError → ReconnectRun τ → Prop}

variable {condition : Prop} [Decidable condition] {code : ReconnectErrorCode}
  {stage : ReconnectStage} {message : String} {nativeCode : ℤ}
  {certainty : Option TransferCertainty} {rest : Unit → ReconnectM τ α}

theorem refuseIf_end (herr : ∀ error, E error s) (hrest : ¬ condition → P () s) :
    EndsWith (refuseIf target condition code stage message nativeCode certainty) s P E := by
  unfold refuseIf
  refine endsWith_get_bind ?_
  split_ifs with hcond
  · exact endsWith_throw (herr _)
  · exact endsWith_pure (hrest hcond)

theorem refuseIf_bind (herr : ∀ error, E error s) (hrest : ¬ condition → EndsWith (rest ()) s Q E) :
    EndsWith (refuseIf target condition code stage message nativeCode certainty >>= rest) s Q E := by
  refine (refuseIf_end (P := fun _ s' => s' = s ∧ ¬ condition) herr
    fun hcond => ⟨rfl, hcond⟩).bind ?_
  rintro _ _ ⟨rfl, hcond⟩
  exact hrest hcond

theorem stopRequested_bind (h : Lawful target deadline options s)
    (herr : ∀ error s', Lawful target deadline options s' → E error s')
    (hrest : ∀ s', Kept target deadline options s s' → s'.lastTime = s.lastTime →
      s'.log = s.log ++ [.stopAsked false] → EndsWith (rest ()) s' Q E) :
    EndsWith (stopRequested env >>= fun requested =>
      refuseIf target (requested = true) code stage message nativeCode certainty >>= rest) s Q E := by
  unfold stopRequested ask
  refine endsWith_step_bind (refuseIf_bind ?_ ?_)
  · intro error
    exact herr error _ (h.append rfl rfl rfl rfl (by simp))
  · intro hnot
    have hfalse : (env.stopRequested s.world).1 = false := Bool.eq_false_iff.mpr hnot
    refine hrest _ ?_ rfl (by rw [hfalse])
    refine .append h (le_refl _) rfl rfl (by simp) fun hfin => ?_
    exact absurd hfin hnot

end Checks

@[simp] theorem clearIf_discoveryAttempts (condition : Prop) [Decidable condition]
    (state : AttemptState) : (clearIf condition state).discoveryAttempts = state.discoveryAttempts := by
  unfold clearIf
  split_ifs <;> rfl

@[simp] theorem clearIf_openAttempts (condition : Prop) [Decidable condition]
    (state : AttemptState) : (clearIf condition state).openAttempts = state.openAttempts := by
  unfold clearIf
  split_ifs <;> rfl

variable (env)

section

variable (h : Lawful target deadline options s)
include h

theorem observeClock_spec (stage : ReconnectStage) (movedBack : String) (nativeCode : ℤ)
    (certainty : Option TransferCertainty) :
    EndsWith (observeClock env target stage movedBack nativeCode certainty) s
      (fun now s' => Kept target deadline options s s' ∧ s'.lastTime = now ∧
        s'.log = s.log ++ [.clock now])
      (fun _ => Lawful target deadline options) := by
  unfold observeClock readClock ask
  refine endsWith_step_bind (endsWith_get_bind (refuseIf_bind ?_ ?_))
  · intro _
    exact h.append rfl rfl rfl rfl (by simp)
  · intro hforward
    refine endsWith_modify_bind (endsWith_pure ⟨?_, rfl, rfl⟩)
    exact .append h (not_lt.mp hforward) rfl rfl (by simp) fun _ => ⟨_, rfl, le_refl _⟩

/-- The last thing that was asked: the time, which is before the deadline, and no cancellation. -/
def InTime (deadline : ℤ) (s : ReconnectRun τ) : Prop :=
  ∃ front now, s.log = front ++ [.clock now, .stopAsked false] ∧ now < deadline

/-- After a checkpoint the deadline has not been reached. -/
theorem checkpoint_spec (stage : ReconnectStage) (movedBack cancelled expired : String)
    (nativeCode : ℤ) (certainty : Option TransferCertainty) :
    EndsWith (checkpoint env target deadline stage movedBack cancelled expired nativeCode
        certainty) s
      (fun _ s' => Kept target deadline options s s' ∧ s'.lastTime < deadline ∧ InTime deadline s')
      (fun _ => Lawful target deadline options) := by
  unfold checkpoint
  refine (observeClock_spec env h stage movedBack nativeCode certainty).bind ?_
  rintro now s' ⟨hkept, hlast, hlog⟩
  refine stopRequested_bind hkept.lawful (fun _ _ hlaw => hlaw) ?_
  intro s'' hkept' hlast' hlog'
  refine refuseIf_end (fun _ => hkept'.lawful) fun hbef => ⟨hkept.trans hkept', ?_, s.log, now, ?_⟩
  · rw [hlast', hlast]
    exact not_le.mp hbef
  · refine ⟨?_, not_le.mp hbef⟩
    rw [hlog', hlog, append_assoc]
    rfl

/-! ### Discovery -/

/-- After the start of a turn a discovery may be made. -/
structure Discovering (target : ReconnectTarget) (deadline : ℤ) (options : ReconnectOptions)
    (s s' : ReconnectRun τ) : Prop where
  lawful : Lawful target deadline options s'
  calm : Calm deadline s'
  lastTime_lt : s'.lastTime < deadline
  discoveryAttempts : s'.attempt.discoveryAttempts = s.attempt.discoveryAttempts + 1
  discoveries : s'.log.countP isDiscovery < s'.attempt.discoveryAttempts
  backoff : s'.backoff = s.backoff

theorem beginRound_spec (hcalm : Calm deadline s) :
    EndsWith (beginRound env target deadline options) s
      (fun _ s' => Discovering target deadline options s s')
      (fun _ => Lawful target deadline options) := by
  unfold beginRound
  refine stopRequested_bind h (fun _ _ hlaw => hlaw) ?_
  intro s₁ hkept₁ _ _
  refine (observeClock_spec env hkept₁.lawful _ _ _ _).bind ?_
  rintro now s₂ ⟨hkept₂, hlast, -⟩
  refine endsWith_get_bind (refuseIf_bind (fun _ => hkept₂.lawful) fun hbef => ?_)
  have hkept := hkept₁.trans hkept₂
  refine note_bind hkept₂.lawful (clearIf_discoveryAttempts _ _) (clearIf_openAttempts _ _) ?_
  intro s₃ hclr _ hlast₃ _
  refine refuseIf_bind (fun _ => hclr.lawful) fun hlim => endsWith_modify ?_
  have hlaws := hclr.lawful
  have hall := hkept.trans hclr
  refine ⟨⟨hlaws.final, hlaws.chosen, Nat.le_succ_of_le hlaws.discoveries, ?_, hlaws.opens,
    hlaws.opens_le, hlaws.waits⟩, hall.calm hcalm, ?_, ?_, Nat.lt_succ_of_le hlaws.discoveries,
    hall.backoff⟩
  · change s₃.attempt.discoveryAttempts + 1 ≤ _
    rw [hclr.discoveryAttempts]
    exact Nat.lt_of_not_le hlim
  · change s₃.lastTime < deadline
    rw [hlast₃, hlast]
    exact not_le.mp hbef
  · change s₃.attempt.discoveryAttempts + 1 = _
    rw [hall.discoveryAttempts]

theorem Lawful.discovered (hcalm : Calm deadline s) (hlast : s.lastTime < deadline)
    (hcnt : s.log.countP isDiscovery < s.attempt.discoveryAttempts) {result : DiscoveryResult}
    (hlog : s'.log = s.log ++ [.discovered result]) (hatt : s'.attempt = s.attempt) :
    Lawful target deadline options s' :=
  h.extend hlog hatt (fun _ => hcalm.not_final hlast) (fun _ => hcnt) (by simp [isOpen])
    (by simp) (by simp)

omit h in
theorem discover_spec {start : ReconnectRun τ} (h : Discovering target deadline options start s) :
    EndsWith (discover env target deadline) s
      (fun result s' => Lawful target deadline options s' ∧ Calm deadline s' ∧
        lastDiscovery s'.log = some result ∧
        s'.attempt.discoveryAttempts = s.attempt.discoveryAttempts ∧ s'.backoff = s.backoff)
      (fun _ => Lawful target deadline options) := by
  unfold discover
  refine ask_bind fun result world => ?_
  have hasked : Lawful target deadline options
      { s with world := world, log := s.log ++ [.discovered result] } :=
    h.lawful.discovered h.calm h.lastTime_lt h.discoveries rfl rfl
  have hcalm : Calm deadline { s with world := world, log := s.log ++ [.discovered result] } :=
    h.calm.append rfl (le_refl _) False.elim
  refine note_bind hasked (by cases result <;> rfl) (by cases result <;> rfl) ?_
  intro s₁ hnoted _ _ _
  refine endsWith_get_bind ?_
  refine (checkpoint_spec env hnoted.lawful _ _ _ _ _ _).bind ?_
  rintro _ s' ⟨hkept, -, -⟩
  have hall := hnoted.trans hkept
  refine endsWith_pure ⟨hall.lawful, hall.calm hcalm, ?_, hall.discoveryAttempts, hall.backoff⟩
  rw [hall.lastDiscovery, lastDiscovery_append_discovered]

/-! ### Selection -/

omit h in
theorem findCandidate_eq_ok {found result : Option ReconnectCandidate}
    (h : findCandidate target found devices = .ok result) :
    found.toList ++ devices.filter (·.physicalPort = target.physicalPort) = result.toList := by
  induction devices generalizing found with
  | nil =>
      cases h
      simp
  | cons device devices ih =>
      unfold findCandidate at h
      split_ifs at h with hport
      · rw [filter_cons_of_neg (by simpa using hport)]
        exact ih h
      · cases found with
        | some other => cases h
        | none =>
            rw [filter_cons_of_pos (by simpa using hport)]
            exact ih h

theorem selectCandidate_spec (devices : List ReconnectCandidate) :
    EndsWith (selectCandidate target options devices) s
      (fun found s' => Kept target deadline options s s' ∧
        ∀ candidate, found = some candidate → Selected target devices candidate)
      (fun _ => Lawful target deadline options) := by
  unfold selectCandidate
  refine refuseIf_bind (fun _ => h) fun _ => ?_
  cases hfound : findCandidate target none devices with
  | error device =>
      exact endsWith_modify_bind (endsWith_get_bind (endsWith_throw (h.congr rfl rfl rfl)))
  | ok found =>
      cases found with
      | none =>
          refine note_bind h rfl rfl fun s' hnoted _ _ _ => endsWith_pure ⟨hnoted, ?_⟩
          intro candidate hnone
          cases hnone
      | some candidate =>
          refine note_bind h rfl rfl fun s' hnoted _ _ _ => ?_
          refine refuseIf_bind (fun _ => hnoted.lawful) fun _ => ?_
          refine refuseIf_bind (fun _ => hnoted.lawful) fun hfp => ?_
          refine refuseIf_bind (fun _ => hnoted.lawful) fun hser => ?_
          refine endsWith_pure ⟨hnoted, ?_⟩
          intro other hoth
          cases hoth
          refine ⟨findCandidate_eq_ok hfound, fingerprintPermitted_of_allowed (not_not.mp hfp), ?_⟩
          intro expected observed hexp hobs
          by_contra hne
          refine hser ⟨by simp [hexp], by simp [hobs], ?_⟩
          rw [hexp, hobs]
          simpa using hne

/-! ### Opening -/

theorem Lawful.opened (hcalm : Calm deadline s) (hlast : s.lastTime < deadline)
    (hdevs : lastDiscovery s.log = some (.ok devices)) (hsel : Selected target devices candidate)
    (hcnt : s.log.countP isOpen < s.attempt.openAttempts) {result : OpenResult}
    (hlog : s'.log = s.log ++ [.opened candidate result]) (hatt : s'.attempt = s.attempt) :
    Lawful target deadline options s' := by
  refine h.extend hlog hatt (fun _ => hcalm.not_final hlast) (by simp [isDiscovery])
    (fun _ => hcnt) (fun other opened heq => ?_) (by simp)
  cases heq
  exact ⟨devices, hdevs, hsel⟩

/-- What is known after an open: it is in the log, and the log is calm unless the open failed and
may have sent something. -/
structure AfterOpen (target : ReconnectTarget) (deadline : ℤ) (options : ReconnectOptions)
    (candidate : ReconnectCandidate) (result : OpenResult) (s s' : ReconnectRun τ) : Prop where
  lawful : Lawful target deadline options s'
  calm : (∀ error, result = .error error → error.outboundCertainty = some .notTransferred) →
    Calm deadline s'
  mem_log : .opened candidate result ∈ s'.log
  certain : openCertainty result ≠ none
  discoveryAttempts : s'.attempt.discoveryAttempts = s.attempt.discoveryAttempts
  backoff : s'.backoff = s.backoff

omit h in
theorem AfterOpen.kept {result : OpenResult}
    (h : AfterOpen target deadline options candidate result s s')
    (hkept : Kept target deadline options s' s'') :
    AfterOpen target deadline options candidate result s s'' := by
  obtain ⟨es, hes⟩ := hkept.log
  refine ⟨hkept.lawful, fun hcrt => hkept.calm (h.calm hcrt), ?_, h.certain,
    hkept.discoveryAttempts.trans h.discoveryAttempts, hkept.backoff.trans h.backoff⟩
  rw [hes]
  exact mem_append_left _ h.mem_log

theorem openSession_spec (hcalm : Calm deadline s)
    (hdevs : lastDiscovery s.log = some (.ok devices)) (hsel : Selected target devices candidate) :
    EndsWith (openSession env target deadline options candidate) s
      (fun result s' => AfterOpen target deadline options candidate result s s')
      (fun _ => Lawful target deadline options) := by
  unfold openSession
  refine endsWith_get_bind
    (note_bind h (clearIf_discoveryAttempts _ _) (clearIf_openAttempts _ _) ?_)
  intro s₁ hclr _ _ _
  refine refuseIf_bind (fun _ => hclr.lawful) fun hlim => ?_
  refine (checkpoint_spec env hclr.lawful _ _ _ _ _ _).bind ?_
  rintro _ s₂ ⟨hchk, hlast, -⟩
  have hkept := hclr.trans hchk
  have hlaws := hkept.lawful
  have hopens := hlaws.opens
  have hatts := hkept.openAttempts
  refine endsWith_modify_bind (ask_bind fun result world => ?_)
  generalize hs₃ : ({ s₂ with attempt := { s₂.attempt with
    openAttempts := s₂.attempt.openAttempts + 1 } } : ReconnectRun τ) = s₃
  have hlaws₃ : Lawful target deadline options s₃ := by
    rw [← hs₃]
    refine ⟨hlaws.final, hlaws.chosen, hlaws.discoveries, hlaws.discoveries_le,
      Nat.le_succ_of_le hopens, ?_, hlaws.waits⟩
    change s₂.attempt.openAttempts + 1 ≤ _
    omega
  have hcalm₃ : Calm deadline s₃ := by
    rw [← hs₃]
    exact hkept.calm hcalm
  have hopened : Lawful target deadline options
      { s₃ with world := world, log := s₃.log ++ [.opened candidate result] } := by
    refine hlaws₃.opened hcalm₃ ?_ ?_ hsel ?_ rfl rfl
    · rw [← hs₃]
      exact hlast
    · rw [← hs₃]
      exact hkept.lastDiscovery.trans hdevs
    · rw [← hs₃]
      exact Nat.lt_succ_of_le hopens
  have hafter : openCertainty result ≠ none → AfterOpen target deadline options candidate result s
      { s₃ with world := world, log := s₃.log ++ [.opened candidate result] } := by
    intro hcert
    refine ⟨hopened, ?_, by simp, hcert, ?_, ?_⟩
    · intro hcrt
      refine hcalm₃.append rfl (le_refl _) fun hfin => ?_
      cases result with
      | ok opened => exact hfin.elim
      | error error => exact absurd (hcrt error rfl) hfin
    · rw [← hs₃]
      exact hkept.discoveryAttempts
    · rw [← hs₃]
      exact hkept.backoff
  refine note_bind hopened rfl rfl fun s₄ hnoted _ _ _ => ?_
  refine refuseIf_bind (fun _ => hnoted.lawful) fun hcert => ?_
  refine (checkpoint_spec env hnoted.lawful _ _ _ _ _ _).bind ?_
  rintro _ s₅ ⟨hchk', -, -⟩
  exact endsWith_pure ((hafter hcert).kept (hnoted.trans hchk'))

theorem retryOpen_spec (error : ReconnectOpenError) :
    EndsWith (retryOpen target error) s
      (fun _ s' => s' = s ∧ error.outboundCertainty = some .notTransferred)
      (fun _ => Lawful target deadline options) := by
  unfold retryOpen
  refine refuseIf_bind (fun _ => h) fun hcrt => ?_
  exact refuseIf_end (fun _ => h) fun _ => ⟨rfl, not_not.mp hcrt⟩

theorem verifyIdentity_spec (candidate : ReconnectCandidate) (opened : OpenedReconnectSession) :
    EndsWith (verifyIdentity target candidate opened) s
      (fun _ s' => Kept target deadline options s s' ∧
        opened.outboundCertainty ≠ some .partialOrUnknown)
      (fun _ => Lawful target deadline options) := by
  unfold verifyIdentity
  refine refuseIf_bind (fun _ => h) fun hcrt => ?_
  refine note_bind h rfl rfl fun s' hnoted _ _ _ => ?_
  iterate 4 refine refuseIf_bind (fun _ => hnoted.lawful) fun _ => ?_
  exact refuseIf_end (fun _ => hnoted.lawful) fun _ => ⟨hnoted, hcrt⟩

structure Published (target : ReconnectTarget) (opened : OpenedReconnectSession)
    (session : ReconnectedSession) : Prop where
  identity : session.identity = opened.verifiedIdentity
  certainty : session.outboundCertainty = opened.outboundCertainty
  ready : session.session = some .ready
  mode : session.identity.mode = target.requiredMode
  target_eq : reconnectIdentityMatchesTarget target session.identity = true

theorem publish_spec (opened : OpenedReconnectSession) :
    EndsWith (publish env target deadline opened) s
      (fun published s' => Kept target deadline options s s' ∧ ∀ session, published = some session →
        Published target opened session ∧ s'.lastTime < deadline ∧ InTime deadline s')
      (fun _ => Lawful target deadline options) := by
  unfold publish
  dsimp only
  split_ifs with hprevious
  · refine note_bind h rfl rfl fun s' hnoted _ _ _ => endsWith_pure ⟨hnoted, ?_⟩
    intro session hnone
    cases hnone
  · refine refuseIf_bind (fun _ => h) fun hmode => ?_
    refine refuseIf_bind (fun _ => h) fun hmatch => ?_
    refine refuseIf_bind (fun _ => h) fun hrdy => ?_
    refine note_bind h rfl rfl fun s' hnoted _ _ _ => ?_
    refine (checkpoint_spec env hnoted.lawful _ _ _ _ _ _).bind ?_
    rintro _ s'' ⟨hchk, hlast, hintime⟩
    refine endsWith_get_bind (endsWith_pure ⟨hnoted.trans hchk, ?_⟩)
    intro session hsess
    cases hsess
    exact ⟨⟨rfl, rfl, not_not.mp hrdy, not_not.mp hmode, by simpa using hmatch⟩, hlast, hintime⟩

/-! ### Turns -/

/-- A session has been published, and nothing speaks against it. -/
structure Success (target : ReconnectTarget) (deadline : ℤ) (session : ReconnectedSession)
    (s : ReconnectRun τ) : Prop where
  opened : ∃ candidate opened, .opened candidate (.ok opened) ∈ s.log ∧
    Published target opened session
  valid : session.outboundCertainty ≠ none
  certain : session.outboundCertainty ≠ some .partialOrUnknown
  inTime : InTime deadline s
  not_final : ∀ event ∈ s.log, ¬ Final deadline event

/-- What is known after a turn up to the wait. -/
structure Attempted (target : ReconnectTarget) (deadline : ℤ) (options : ReconnectOptions)
    (session : Option ReconnectedSession) (s s' : ReconnectRun τ) : Prop where
  lawful : Lawful target deadline options s'
  calm : Calm deadline s'
  discoveryAttempts : s'.attempt.discoveryAttempts = s.attempt.discoveryAttempts
  backoff : s'.backoff = s.backoff
  success : ∀ published, session = some published → Success target deadline published s'

theorem tryCandidate_spec (hcalm : Calm deadline s)
    (hdevs : lastDiscovery s.log = some (.ok devices)) (hsel : Selected target devices candidate) :
    EndsWith (tryCandidate env target deadline options candidate) s
      (fun result s' => Attempted target deadline options result.1 s s')
      (fun _ => Lawful target deadline options) := by
  unfold tryCandidate
  refine (openSession_spec env h hcalm hdevs hsel).bind ?_
  intro result s₁ hafter
  cases result with
  | error error =>
      refine (retryOpen_spec hafter.lawful error).bind ?_
      rintro _ _ ⟨rfl, hcrt⟩
      refine endsWith_pure ⟨hafter.lawful, hafter.calm ?_, hafter.discoveryAttempts,
        hafter.backoff, by simp⟩
      intro other hoth
      cases hoth
      exact hcrt
  | ok opened =>
      refine (verifyIdentity_spec hafter.lawful candidate opened).bind ?_
      rintro _ s₂ ⟨hver, hcrt⟩
      refine (publish_spec env hver.lawful opened).bind ?_
      rintro published s₃ ⟨hpublished, hsess⟩
      have hall := hafter.kept (hver.trans hpublished)
      have hcalm' := hall.calm (by simp)
      refine endsWith_pure ⟨hall.lawful, hcalm', hall.discoveryAttempts, hall.backoff, ?_⟩
      intro session heq
      obtain ⟨hpub, hlast, hintime⟩ := hsess session heq
      exact ⟨⟨candidate, opened, hall.mem_log, hpub⟩, hpub.certainty ▸ hall.certain,
        hpub.certainty ▸ hcrt, hintime, hcalm'.not_final hlast⟩

theorem attemptRound_spec (hcalm : Calm deadline s) :
    EndsWith (attemptRound env target deadline options) s
      (fun result s' => Lawful target deadline options s' ∧ Calm deadline s' ∧
        s'.attempt.discoveryAttempts = s.attempt.discoveryAttempts + 1 ∧ s'.backoff = s.backoff ∧
        ∀ session, result.1 = some session → Success target deadline session s')
      (fun _ => Lawful target deadline options) := by
  unfold attemptRound
  refine (beginRound_spec env h hcalm).bind ?_
  intro _ s₁ hdiscg
  refine (discover_spec env hdiscg).bind ?_
  rintro result s₂ ⟨hlaw, hcalm₂, hlast, hatts, hboff⟩
  have hcnt := hatts.trans hdiscg.discoveryAttempts
  have hsame := hboff.trans hdiscg.backoff
  cases result with
  | error error =>
      refine refuseIf_bind (fun _ => hlaw) fun _ => ?_
      exact endsWith_pure ⟨hlaw, hcalm₂, hcnt, hsame, by simp⟩
  | ok devices =>
      refine (selectCandidate_spec hlaw devices).bind ?_
      rintro found s₃ ⟨hkept, hsel⟩
      cases found with
      | none =>
          exact endsWith_pure ⟨hkept.lawful, hkept.calm hcalm₂,
            hkept.discoveryAttempts.trans hcnt, hkept.backoff.trans hsame, by simp⟩
      | some candidate =>
          refine (tryCandidate_spec env hkept.lawful (hkept.calm hcalm₂)
            (hkept.lastDiscovery.trans hlast) (hsel candidate rfl)).mono ?_
          intro result s₄ hatt
          exact ⟨hatt.lawful, hatt.calm,
            hatt.discoveryAttempts.trans (hkept.discoveryAttempts.trans hcnt),
            hatt.backoff.trans (hkept.backoff.trans hsame), hatt.success⟩

/-- The backoff is a wait that may be asked for. -/
def BackoffOk (options : ReconnectOptions) (s : ReconnectRun τ) : Prop :=
  0 < s.backoff ∧ s.backoff ≤ options.maximumBackoff

omit h in
theorem nextBackoff_bounds {current maximum : ℤ} (hpos : 0 < current) (hle : current ≤ maximum) :
    0 < nextBackoff current maximum ∧ nextBackoff current maximum ≤ maximum := by
  unfold nextBackoff
  split_ifs
  · omega
  · omega
  · omega

theorem backOff_spec (hcalm : Calm deadline s) (hboff : BackoffOk options s)
    (certainty : Option TransferCertainty) :
    EndsWith (backOff env target deadline options certainty) s
      (fun _ s' => Lawful target deadline options s' ∧ Calm deadline s' ∧ BackoffOk options s' ∧
        s'.attempt.discoveryAttempts = s.attempt.discoveryAttempts)
      (fun _ => Lawful target deadline options) := by
  unfold backOff
  refine stopRequested_bind h (fun _ _ hlaw => hlaw) ?_
  intro s₁ hkept₁ _ _
  refine (observeClock_spec env hkept₁.lawful _ _ _ _).bind ?_
  rintro beforeWait s₂ ⟨hkept₂, hlast₂, -⟩
  have hkept := hkept₁.trans hkept₂
  refine endsWith_get_bind (refuseIf_bind (fun _ => hkept₂.lawful) fun hrem => ?_)
  have hdelay : 0 < min s₂.backoff (remainingTime beforeWait deadline) ∧
      min s₂.backoff (remainingTime beforeWait deadline) ≤ options.maximumBackoff := by
    rw [hkept.backoff]
    obtain ⟨hpos, hle⟩ := hboff
    omega
  refine ask_bind fun result world => ?_
  have hwaited : ∀ duration waited,
      ReconnectEvent.waited (min s₂.backoff (remainingTime beforeWait deadline)) result
        = .waited duration waited → 0 < duration ∧ duration ≤ options.maximumBackoff := by
    intro duration waited heq
    cases heq
    exact hdelay
  have hlaw₃ : Lawful target deadline options { s₂ with
      world := world
      log := s₂.log ++ [.waited (min s₂.backoff (remainingTime beforeWait deadline)) result] } :=
    hkept₂.lawful.append rfl rfl rfl rfl hwaited
  refine refuseIf_bind (fun _ => hlaw₃) fun hcanc => ?_
  have hkept₃ : Kept target deadline options s₂ { s₂ with
      world := world
      log := s₂.log ++ [.waited (min s₂.backoff (remainingTime beforeWait deadline)) result] } :=
    .append hkept₂.lawful (le_refl _) rfl rfl hwaited fun hfin => absurd hfin hcanc
  refine stopRequested_bind hkept₃.lawful (fun _ _ hlaw => hlaw) ?_
  intro s₄ hkept₄ hlast₄ _
  refine refuseIf_bind (fun _ => hkept₄.lawful) fun _ => ?_
  refine refuseIf_bind (fun _ => hkept₄.lawful) fun _ => ?_
  refine ask_bind fun afterWait world' => ?_
  have hlaw₅ : Lawful target deadline options { s₄ with
      world := world', log := s₄.log ++ [.clock afterWait] } :=
    hkept₄.lawful.append rfl rfl rfl rfl (by simp)
  refine refuseIf_bind (fun _ => hlaw₅) fun hforward => endsWith_modify_bind ?_
  have hkept₅ : Kept target deadline options s₄ { s₄ with
      world := world', log := s₄.log ++ [.clock afterWait], lastTime := afterWait } := by
    refine .append hkept₄.lawful ?_ rfl rfl (by simp) fun _ => ⟨_, rfl, le_refl _⟩
    rw [hlast₄]
    change s₂.lastTime ≤ afterWait
    omega
  have hall := ((hkept.trans hkept₃).trans hkept₄).trans hkept₅
  refine refuseIf_bind (fun _ => hkept₅.lawful) fun _ => endsWith_modify ?_
  refine ⟨hkept₅.lawful.congr rfl rfl rfl, hall.calm hcalm, ?_, hall.discoveryAttempts⟩
  have hsame : s₄.backoff = s.backoff := hall.backoff
  change 0 < nextBackoff s₄.backoff _ ∧ nextBackoff s₄.backoff _ ≤ _
  rw [hsame]
  exact nextBackoff_bounds hboff.1 hboff.2

theorem reconnectRound_spec (hcalm : Calm deadline s) (hboff : BackoffOk options s) :
    EndsWith (reconnectRound env target deadline options) s
      (fun session s' => Lawful target deadline options s' ∧
        s'.attempt.discoveryAttempts = s.attempt.discoveryAttempts + 1 ∧
        (session = none → Calm deadline s' ∧ BackoffOk options s') ∧
        ∀ published, session = some published → Success target deadline published s')
      (fun _ => Lawful target deadline options) := by
  unfold reconnectRound
  refine (attemptRound_spec env h hcalm).bind ?_
  rintro ⟨session, certainty⟩ s₁ ⟨hlaw, hcalm₁, hatts, hsame, hsucc⟩
  cases session with
  | some session =>
      refine endsWith_pure ⟨hlaw, hatts, by simp, ?_⟩
      intro published heq
      exact hsucc published heq
  | none =>
      have hboff₁ : BackoffOk options s₁ := by
        unfold BackoffOk at hboff ⊢
        rw [hsame]
        exact hboff
      refine (backOff_spec env hlaw hcalm₁ hboff₁ certainty).bind ?_
      rintro _ s₂ ⟨hlaw₂, hcalm₂, hboff₂, hatts₂⟩
      exact endsWith_pure ⟨hlaw₂, hatts₂.trans hatts, fun _ => ⟨hcalm₂, hboff₂⟩, by simp⟩

/-- With more turns than discoveries are left, the loop comes to an end. -/
theorem reconnectLoop_spec {turns : ℕ} (hcalm : Calm deadline s) (hboff : BackoffOk options s)
    (hturns : options.maximumDiscoveryAttempts < turns + s.attempt.discoveryAttempts) :
    EndsWith (reconnectLoop env target deadline options turns) s
      (fun session s' => Lawful target deadline options s' ∧
        ∃ published, session = some published ∧ Success target deadline published s')
      (fun _ => Lawful target deadline options) := by
  induction turns generalizing s with
  | zero =>
      have hle := h.discoveries_le
      omega
  | succ turns ih =>
      rw [reconnectLoop]
      refine (reconnectRound_spec env h hcalm hboff).bind ?_
      rintro session s₁ ⟨hlaw, hatts, hnone, hsome⟩
      cases session with
      | some session => exact endsWith_pure ⟨hlaw, session, rfl, hsome session rfl⟩
      | none =>
          obtain ⟨hcalm₁, hboff₁⟩ := hnone rfl
          exact ih hlaw hcalm₁ hboff₁ (by omega)

end

/-! ### Reconnecting -/

/-- The session is one with the device that was expected. -/
structure Adopted (target : ReconnectTarget) (deadline : ℤ) (session : ReconnectedSession)
    (log : List ReconnectEvent) : Prop where
  ready : session.session = some .ready
  physicalPort : session.identity.physicalPort = target.physicalPort
  product : session.identity.product = target.product
  serial : ∀ serial, target.serial = some serial → session.identity.serial = some serial
  mode : session.identity.mode = target.requiredMode
  fingerprint : FingerprintPermitted target session.identity.usbFingerprint
  certainty : session.outboundCertainty = some .notTransferred ∨
    session.outboundCertainty = some .fullyTransferred
  /-- The identity is what the opener has verified. -/
  verified : ∃ candidate opened, .opened candidate (.ok opened) ∈ log ∧
    opened.verifiedIdentity = session.identity
  /-- The last thing before the publication: a time before the deadline, and no cancellation. -/
  inTime : ∃ front now, log = front ++ [.clock now, .stopAsked false] ∧ now < deadline

/-- What holds of the outcome and the log of a reconnect. -/
structure SafeReconnect (target : ReconnectTarget) (deadline : ℤ) (options : ReconnectOptions)
    (outcome : Except ReconnectError (Option ReconnectedSession)) (log : List ReconnectEvent) :
    Prop where
  success : ∀ session, outcome = .ok (some session) → Adopted target deadline session log
  /-- The turns are enough: the loop returns. -/
  returns : outcome ≠ .ok none
  refused : target.precedingOperationCertainty = some .partialOrUnknown → log = []
  opened : ∀ front rest candidate result, log = front ++ .opened candidate result :: rest →
    ∃ devices, lastDiscovery front = some (.ok devices) ∧ Selected target devices candidate
  final : log.Pairwise fun event later =>
    Final deadline event → isDiscovery later = false ∧ isOpen later = false
  discoveries_le : log.countP isDiscovery ≤ options.maximumDiscoveryAttempts
  opens_le : log.countP isOpen ≤ options.maximumOpenAttempts
  waits : ∀ duration result, .waited duration result ∈ log →
    0 < duration ∧ duration ≤ options.maximumBackoff

theorem Success.adopted {session : ReconnectedSession} (h : Success target deadline session s) :
    Adopted target deadline session s.log := by
  obtain ⟨candidate, opened, hmem, hpub⟩ := h.opened
  have hmatch := hpub.target_eq
  simp only [reconnectIdentityMatchesTarget, decide_eq_true_eq] at hmatch
  obtain ⟨hport, hser, hproduct, -, hallow⟩ := hmatch
  refine ⟨hpub.ready, hport, hproduct, ?_, hpub.mode, fingerprintPermitted_of_allowed hallow, ?_,
    ⟨candidate, opened, hmem, hpub.identity.symm⟩, h.inTime⟩
  · intro serial hsome
    rcases hser with hnone | heq
    · rw [hnone] at hsome
      cases hsome
    · exact heq.trans hsome
  · have hvld := h.valid
    have hcrt := h.certain
    revert hvld hcrt
    rcases session.outboundCertainty with _ | _ | _ | _ <;> simp

theorem lawful_new (world : τ) : Lawful target deadline options { world } where
  final := by simp
  chosen := by simp
  discoveries := by simp
  discoveries_le := Nat.zero_le _
  opens := by simp
  opens_le := Nat.zero_le _
  waits := by simp

theorem validateReconnectRequest_ok (h : validateReconnectRequest target options = .ok ()) :
    0 < options.initialBackoff ∧ options.initialBackoff ≤ options.maximumBackoff ∧
      target.precedingOperationCertainty ≠ some .partialOrUnknown := by
  unfold validateReconnectRequest at h
  dsimp only at h
  split_ifs at h with _ _ _ hlims huncertain
  refine ⟨?_, ?_, huncertain⟩
  · exact not_le.mp fun hle => hlims (.inl hle)
  · exact not_lt.mp fun hlt => hlims (.inr (.inl hlt))

/-- A request that is let through runs the loop to its end. -/
theorem reconnect_spec (world : τ) (h : validateReconnectRequest target options = .ok ()) :
    EndsWith (reconnect env target deadline options) { world }
      (fun session s' => Lawful target deadline options s' ∧
        ∃ published, session = some published ∧ Success target deadline published s')
      (fun _ => Lawful target deadline options) := by
  obtain ⟨hpos, hle, -⟩ := validateReconnectRequest_ok h
  unfold reconnect
  rw [h]
  refine ask_bind fun now world' => endsWith_modify_bind ?_
  have hlaw : Lawful target deadline options
      ({ world := world', log := [.clock now], lastTime := now } : ReconnectRun τ) :=
    (lawful_new world).append rfl rfl rfl rfl (by simp)
  refine reconnectLoop_spec env ?_ ?_ ⟨hpos, hle⟩ ?_
  · exact hlaw.congr rfl rfl rfl
  · intro event hev _
    exact ⟨now, mem_singleton.mp hev, le_refl _⟩
  · exact Nat.lt_succ_self _

theorem Lawful.safe {outcome : Except ReconnectError (Option ReconnectedSession)}
    (h : Lawful target deadline options s)
    (hsucc : ∀ session, outcome = .ok (some session) → Adopted target deadline session s.log)
    (hreturns : outcome ≠ .ok none)
    (href : target.precedingOperationCertainty = some .partialOrUnknown → s.log = []) :
    SafeReconnect target deadline options outcome s.log :=
  ⟨hsucc, hreturns, href, h.chosen, h.final, h.discoveries.trans h.discoveries_le,
    h.opens.trans h.opens_le, h.waits⟩

/-- Whatever the discovery, the opener, the clock and the cancellation do. -/
theorem reconnect_safe (env : ReconnectEnvironment τ) (target : ReconnectTarget)
    (deadline : ℤ) (options : ReconnectOptions) (world : τ) :
    SafeReconnect target deadline options
      (exec (reconnect env target deadline options) { world }).1
      (exec (reconnect env target deadline options) { world }).2.log := by
  cases hvalid : validateReconnectRequest target options with
  | error error =>
      have hexec : exec (reconnect env target deadline options) { world }
          = (.error error, { world }) := by
        unfold reconnect
        rw [hvalid]
        rfl
      rw [hexec]
      exact (lawful_new world).safe (by simp) (by simp) fun _ => rfl
  | ok =>
      have hends : EndsWith (reconnect env target deadline options) { world } _ _ :=
        reconnect_spec env world hvalid
      have hcertain := (validateReconnectRequest_ok hvalid).2.2
      unfold EndsWith Ends at hends
      cases houtcome : (exec (reconnect env target deadline options) { world }).1 with
      | error error =>
          rw [houtcome] at hends
          exact hends.safe (by simp) (by simp) fun huncertain => absurd huncertain hcertain
      | ok session =>
          rw [houtcome] at hends
          obtain ⟨hlawful, published, rfl, hsuccess⟩ := hends
          refine hlawful.safe ?_ (by simp) fun huncertain => absurd huncertain hcertain
          intro session hsession
          cases hsession
          exact hsuccess.adopted

end ReconnectCoordinator

end KairosBoot
