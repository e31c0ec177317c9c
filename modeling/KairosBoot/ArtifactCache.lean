import KairosBoot.SpoolReservation

/-! # The artifact cache

The cache loop of `ArtifactSourceResolver::resolve_impl`, for the calls with one cache key.  The
first call that finds no entry in the map inserts one and owns it: it materialises the artifact
without the lock and publishes the outcome.  The others wait for the entry, each no longer than its
own budget allows.  An owner that its budget stopped erases its entry before the publication, so
the calls that wait for that entry try again, while a later call may already own another one.

An entry is an address, `cached` is what the map has for the key, and `CacheSystem.step` is one
step under the lock.  An entry that is published and not retryable is never erased, so there is at
most one (`Coherent.settled`), and all that a call returns comes from it or from the call's own
budget (`cache_single_flight`).  A materialisation polls the budget of its call and no other, which
is what `OwnStops` says of a run.  The allocation failures of a call are left out. -/

namespace KairosBoot

/-! ### Budgets and entries -/

/-- What has happened to the stop token and to the deadline of a call. -/
structure Budget where
  cancelled : Bool := false
  expired : Bool := false
  deriving DecidableEq, Repr

namespace Budget

def check (budget : Budget) : Option ArtifactSourceError :=
  if budget.cancelled then some ⟨.cancelled, "artifact materialization was cancelled", 0⟩
  else if budget.expired then
    some ⟨.timedOut, "artifact materialization exceeded its time budget", 0⟩
  else none

/-- The error says what happened to this budget. -/
def stops (budget : Budget) (error : ArtifactSourceError) : Bool :=
  (error.kind = .cancelled && budget.cancelled) || (error.kind = .timedOut && budget.expired)

theorem stops_of_check {budget : Budget} {error : ArtifactSourceError}
    (h : budget.check = some error) : budget.stops error = true := by
  unfold check at h
  split_ifs at h with hcanc hexpi
  · cases h
    simp [stops, hcanc]
  · cases h
    simp [stops, hexpi]

end Budget

def ArtifactSourceError.retryable (error : ArtifactSourceError) : Bool :=
  error.kind = .cancelled || error.kind = .timedOut

structure CacheEntry (α : Type) where
  done : Bool := false
  retryableFailure : Bool := false
  result : Option α := none
  error : ArtifactSourceError := ⟨.io, "artifact resolution failed before publication", 0⟩

namespace CacheEntry

variable {α : Type}

/-- What a call returns of an entry. -/
def outcome (entry : CacheEntry α) : Except ArtifactSourceError α :=
  match entry.result with
  | some artifact => .ok artifact
  | none => .error entry.error

/-- The publication; nothing is resolved where the materialisation threw. -/
def publish (entry : CacheEntry α) : Option (Except ArtifactSourceError α) → CacheEntry α
  | some (.ok artifact) => { entry with result := some artifact, done := true }
  | some (.error error) =>
      { entry with error := error, retryableFailure := error.retryable, done := true }
  | none => { entry with retryableFailure := entry.error.retryable, done := true }

/-- What the owner of an entry returns; nothing is resolved where the materialisation threw. -/
def published (resolved : Option (Except ArtifactSourceError α)) : Except ArtifactSourceError α :=
  resolved.getD (.error ({} : CacheEntry α).error)

/-- Whether the calls that wait for an outcome try again. -/
def retries : Except ArtifactSourceError α → Bool
  | .ok _ => false
  | .error error => error.retryable

theorem publish_spec (resolved : Option (Except ArtifactSourceError α)) :
    (publish {} resolved).done = true ∧ (publish {} resolved).outcome = published resolved ∧
      (publish {} resolved).retryableFailure = retries (published resolved) := by
  rcases resolved with _ | error | artifact
  · exact ⟨rfl, rfl, rfl⟩
  · exact ⟨rfl, rfl, rfl⟩
  · exact ⟨rfl, rfl, rfl⟩

end CacheEntry

/-! ### The calls with one key -/

inductive CallPhase (α : Type) where
  | entering
  | waiting (entry : ℕ)
  | materialising (entry : ℕ)
  | returned (outcome : Except ArtifactSourceError α)

structure CacheSystem (ι α : Type) where
  entries : ℕ → CacheEntry α := fun _ => {}
  created : ℕ := 0
  cached : Option ℕ := none
  budget : ι → Budget := fun _ => {}
  phase : ι → CallPhase α := fun _ => .entering

inductive CacheStep (ι α : Type) where
  | cancel (call : ι)
  | expire (call : ι)
  | check (call : ι)
  | enter (call : ι)
  | wake (call : ι)
  | publish (call : ι) (resolved : Option (Except ArtifactSourceError α))

namespace CacheSystem

variable {ι α : Type} [DecidableEq ι] {s : CacheSystem ι α}

def set (s : CacheSystem ι α) (call : ι) (phase : CallPhase α) : CacheSystem ι α :=
  { s with phase := Function.update s.phase call phase }

/-- A call inserts an entry and owns it. -/
def insert (s : CacheSystem ι α) (call : ι) : CacheSystem ι α :=
  { s.set call (.materialising s.created) with
    entries := Function.update s.entries s.created {}
    created := s.created + 1
    cached := some s.created }

/-- The owner of an entry publishes it and returns what it says. -/
def publish (s : CacheSystem ι α) (call : ι) (id : ℕ) (entry : CacheEntry α) : CacheSystem ι α :=
  { s.set call (.returned entry.outcome) with
    entries := Function.update s.entries id entry
    cached := if entry.retryableFailure && s.cached = some id then none else s.cached }

/-- A call that does not own the entry: it waits while the entry is not done and its budget lasts,
and begins again after a retryable failure. -/
def await (s : CacheSystem ι α) (call : ι) (id : ℕ) : CallPhase α :=
  if (s.entries id).done then
    if (s.entries id).retryableFailure then .entering else .returned (s.entries id).outcome
  else match (s.budget call).check with
    | some stopped => .returned (.error stopped)
    | none => .waiting id

/-- A step; one that a call cannot take leaves everything as it is.  `check` is a budget check
before the loop. -/
def step (s : CacheSystem ι α) : CacheStep ι α → CacheSystem ι α
  | .cancel call =>
      { s with budget := Function.update s.budget call { s.budget call with cancelled := true } }
  | .expire call =>
      { s with budget := Function.update s.budget call { s.budget call with expired := true } }
  | .check call => match s.phase call, (s.budget call).check with
      | .entering, some stopped => s.set call (.returned (.error stopped))
      | _, _ => s
  | .enter call => match s.phase call, s.cached with
      | .entering, none => s.insert call
      | .entering, some id => s.set call (s.await call id)
      | _, _ => s
  | .wake call => match s.phase call with
      | .waiting id => s.set call (s.await call id)
      | _ => s
  | .publish call resolved => match s.phase call with
      | .materialising id => s.publish call id ((s.entries id).publish resolved)
      | _ => s

/-- The calls and the cache after steps in any order. -/
def run (steps : List (CacheStep ι α)) : CacheSystem ι α := steps.foldl step {}

/-- A materialisation is cancelled or timed out only where the budget of its own call is. -/
def StoppedByOwn (s : CacheSystem ι α) : CacheStep ι α → Prop
  | .publish call resolved => ∀ error, CacheEntry.published resolved = .error error →
      error.retryable = true → (s.budget call).stops error = true
  | _ => True

/-- All materialisations of a run are stopped by their own budgets only. -/
def OwnStops : CacheSystem ι α → List (CacheStep ι α) → Prop
  | _, [] => True
  | s, move :: steps => s.StoppedByOwn move ∧ OwnStops (s.step move) steps

theorem ownStops_append {steps later : List (CacheStep ι α)} (h : s.OwnStops (steps ++ later)) :
    s.OwnStops steps ∧ (steps.foldl step s).OwnStops later := by
  induction steps generalizing s with
  | nil => exact ⟨trivial, h⟩
  | cons move steps ih => exact ⟨⟨h.1, (ih h.2).1⟩, (ih h.2).2⟩

/-! ### What every step keeps -/

/-- The map has an entry whose outcome every later call gets. -/
def Settled (s : CacheSystem ι α) (id : ℕ) : Prop :=
  s.cached = some id ∧ (s.entries id).done = true ∧ (s.entries id).retryableFailure = false

/-- What a call may return: the settled outcome, or what its own budget says. -/
def Earned (s : CacheSystem ι α) (call : ι) (outcome : Except ArtifactSourceError α) : Prop :=
  (∃ id, s.Settled id ∧ outcome = (s.entries id).outcome) ∨
    ∃ error, outcome = .error error ∧ (s.budget call).stops error = true

/-- A call that waits waits for the entry in the map or for one that is done, and a call that
materialises owns the entry in the map. -/
def Fits (s : CacheSystem ι α) (call : ι) : CallPhase α → Prop
  | .entering => True
  | .waiting id => s.cached = some id ∨ (s.entries id).done = true
  | .materialising id => s.cached = some id ∧ (s.entries id).done = false
  | .returned outcome => s.Earned call outcome

/-- An entry that is published for good is the one in the map. -/
def Placed (cached : Option ℕ) (id : ℕ) (entry : CacheEntry α) : Prop :=
  if entry.done then entry.retryableFailure = false →
    cached = some id ∧ CacheEntry.retries entry.outcome = false
  else entry = {}

structure Coherent (s : CacheSystem ι α) : Prop where
  fits : ∀ i, s.Fits i (s.phase i)
  unique : ∀ i a, s.phase i = .materialising a → ∀ j b, s.phase j = .materialising b → i = j
  placed : ∀ id, Placed s.cached id (s.entries id)

omit [DecidableEq ι] in
theorem Coherent.settled (h : s.Coherent) {id : ℕ} (hdone : (s.entries id).done = true)
    (hkept : (s.entries id).retryableFailure = false) :
    s.Settled id ∧ CacheEntry.retries (s.entries id).outcome = false := by
  have hplc := h.placed id
  rw [Placed, if_pos hdone] at hplc
  exact ⟨⟨(hplc hkept).1, hdone, hkept⟩, (hplc hkept).2⟩

theorem Coherent.set (h : s.Coherent) {call : ι} {new : CallPhase α} (hfits : s.Fits call new)
    (hfree : ∀ id, new ≠ .materialising id) : (s.set call new).Coherent := by
  have hown : ∀ i id, (s.set call new).phase i = .materialising id →
      s.phase i = .materialising id :=
    (Function.forall_update_iff s.phase fun i phase =>
      ∀ id, phase = .materialising id → s.phase i = .materialising id).2
      ⟨fun id hnew => absurd hnew (hfree id), fun i _ id hi => hi⟩
  constructor
  · exact (Function.forall_update_iff s.phase s.Fits).2 ⟨hfits, fun i _ => h.fits i⟩
  · intro i a hi j b hj
    exact h.unique i a (hown i a hi) j b (hown j b hj)
  · exact h.placed

theorem Coherent.await (h : s.Coherent) (call : ι) {id : ℕ}
    (hid : s.cached = some id ∨ (s.entries id).done = true) :
    (s.set call (s.await call id)).Coherent := by
  unfold CacheSystem.await
  split_ifs with hdone hretry
  · exact h.set trivial nofun
  · refine h.set ?_ nofun
    exact .inl ⟨id, (h.settled hdone (Bool.eq_false_of_not_eq_true hretry)).1, rfl⟩
  · cases hcheck : (s.budget call).check with
    | some stopped =>
        refine h.set ?_ nofun
        exact .inr ⟨stopped, rfl, Budget.stops_of_check hcheck⟩
    | none =>
        refine h.set ?_ nofun
        exact hid

theorem Coherent.spend (h : s.Coherent) (call : ι) {budget : Budget}
    (hmore : ∀ error, (s.budget call).stops error = true → budget.stops error = true) :
    Coherent { s with budget := Function.update s.budget call budget } := by
  have hstops : ∀ i error, (s.budget i).stops error = true →
      (Function.update s.budget call budget i).stops error = true :=
    (Function.forall_update_iff s.budget fun i b =>
      ∀ error, (s.budget i).stops error = true → b.stops error = true).2
      ⟨hmore, fun i _ error hi => hi⟩
  refine ⟨fun i => ?_, h.unique, h.placed⟩
  have hfits := h.fits i
  show Fits _ i (s.phase i)
  cases hph : s.phase i <;> rw [hph] at hfits <;> try exact hfits
  apply hfits.imp id
  rintro ⟨error, hout, herr⟩
  exact ⟨error, hout, hstops i error herr⟩

/-- The entry of a call changes while nothing is settled and no other call owns an entry. -/
theorem Coherent.change (h : s.Coherent) {call : ι} {id created : ℕ} {new : CallPhase α}
    {entry : CacheEntry α} {cached : Option ℕ}
    (hopen : ∀ other, s.cached = some other → other = id ∧ (s.entries id).done = false)
    (hown : ∀ i other, s.phase i = .materialising other → i = call)
    (hplc : Placed cached id entry) (hid : cached = some id ∨ entry.done = true)
    (hfits : Fits { s with entries := Function.update s.entries id entry, cached := cached }
      call new) :
    Coherent { s.set call new with
      entries := Function.update s.entries id entry, created := created, cached := cached } := by
  have hunset : ∀ other, ¬ s.Settled other := by
    rintro other ⟨hcached, hdone, -⟩
    obtain ⟨rfl, hpend⟩ := hopen other hcached
    simp [hdone] at hpend
  constructor
  · refine (Function.forall_update_iff s.phase
      (Fits { s with entries := Function.update s.entries id entry, cached := cached })).2
      ⟨hfits, fun i hi => ?_⟩
    have hfits := h.fits i
    cases hph : s.phase i with
    | entering => trivial
    | waiting other =>
        rw [hph] at hfits
        by_cases hoth : other = id
        · subst hoth
          simpa [Fits] using hid
        · have hdone := hfits.resolve_left fun hcached => hoth (hopen other hcached).1
          exact .inr (by simpa [hoth] using hdone)
    | materialising other => exact absurd (hown i other hph) hi
    | returned outcome =>
        rw [hph] at hfits
        exact .inr (hfits.resolve_left fun ⟨other, hset, _⟩ => hunset other hset)
  · have hcall : ∀ i a, (s.set call new).phase i = .materialising a → i = call :=
      (Function.forall_update_iff s.phase fun i phase =>
        ∀ a, phase = .materialising a → i = call).2 ⟨fun _ _ => rfl, fun i _ => hown i⟩
    intro i a hi j b hj
    exact (hcall i a hi).trans (hcall j b hj).symm
  · refine (Function.forall_update_iff s.entries (Placed cached)).2 ⟨hplc, fun other _ => ?_⟩
    have hold := h.placed other
    unfold Placed at hold ⊢
    split_ifs at hold ⊢ with hdone
    · intro hkept
      exact absurd ⟨(hold hkept).1, hdone, hkept⟩ (hunset other)
    · exact hold

omit [DecidableEq ι] in
/-- The entry of a call that materialises has not been touched. -/
theorem Coherent.fresh (h : s.Coherent) {call : ι} {id : ℕ}
    (hphase : s.phase call = .materialising id) :
    s.cached = some id ∧ (s.entries id).done = false ∧ s.entries id = {} := by
  have hfits := h.fits call
  rw [hphase] at hfits
  have hplc := h.placed id
  rw [Placed, if_neg (by simp [hfits.2])] at hplc
  exact ⟨hfits.1, hfits.2, hplc⟩

theorem Coherent.step (h : s.Coherent) (move : CacheStep ι α) (hstop : s.StoppedByOwn move) :
    (s.step move).Coherent := by
  cases move with
  | cancel call =>
      apply h.spend
      intro error
      simp only [Budget.stops]
      grind
  | expire call =>
      apply h.spend
      intro error
      simp only [Budget.stops]
      grind
  | check call =>
      cases hph : s.phase call <;> cases hcheck : (s.budget call).check <;>
        simp only [CacheSystem.step, hph, hcheck] <;> try exact h
      refine h.set ?_ nofun
      exact .inr ⟨_, rfl, Budget.stops_of_check hcheck⟩
  | enter call =>
      cases hph : s.phase call <;> cases hcached : s.cached <;>
        simp only [CacheSystem.step, hph, hcached] <;> try exact h
      · have hown : ∀ i id, s.phase i ≠ .materialising id := by
          intro i id hi
          have hfits := h.fits i
          rw [hi] at hfits
          exact absurd hfits.1 (by simp [hcached])
        apply h.change
        · simp [hcached]
        · intro i id hi
          exact absurd hi (hown i id)
        · rfl
        · exact .inl rfl
        · exact ⟨rfl, by simp⟩
      · exact h.await call (.inl hcached)
  | wake call =>
      have hfits := h.fits call
      cases hph : s.phase call <;> simp only [CacheSystem.step, hph] <;> try exact h
      rw [hph] at hfits
      exact h.await call hfits
  | publish call resolved =>
      cases hph : s.phase call <;> simp only [CacheSystem.step, hph] <;> try exact h
      rename_i id
      obtain ⟨hcached, hpend, hfresh⟩ := h.fresh hph
      rw [hfresh]
      obtain ⟨hdone, hout, hretry⟩ := CacheEntry.publish_spec resolved
      apply h.change
      · intro other hoth
        exact ⟨Option.some.inj (hoth.symm.trans hcached), hpend⟩
      · intro i other hi
        exact h.unique i other hi call id hph
      · rw [Placed, if_pos hdone]
        intro hkeep
        rw [hout, ← hretry]
        exact ⟨by simp [hkeep, hcached], hkeep⟩
      · exact .inr hdone
      · cases hkeep : (CacheEntry.publish {} resolved).retryableFailure with
        | true =>
            rw [hretry] at hkeep
            cases hpub : CacheEntry.published resolved with
            | ok artifact => simp [hpub, CacheEntry.retries] at hkeep
            | error error =>
                rw [hpub] at hkeep
                exact .inr ⟨error, hout.trans hpub, hstop error hpub hkeep⟩
        | false =>
            refine .inl ⟨id, ⟨by simp [hcached], ?_, ?_⟩, ?_⟩
            · simpa using hdone
            · simpa using hkeep
            · simp

theorem Coherent.foldl (h : s.Coherent) {steps : List (CacheStep ι α)} (hstops : s.OwnStops steps) :
    (steps.foldl CacheSystem.step s).Coherent := by
  induction steps generalizing s with
  | nil => exact h
  | cons move steps ih => exact ih (h.step move hstops.1) hstops.2

theorem coherent_run {steps : List (CacheStep ι α)} (hstops : OwnStops {} steps) :
    (run steps).Coherent := by
  refine Coherent.foldl ?_ hstops
  exact ⟨fun _ => trivial, nofun, fun _ => rfl⟩

/-- An entry that is published for good stays as it is. -/
theorem Coherent.entries_step (h : s.Coherent) {id : ℕ} (hset : s.Settled id)
    (move : CacheStep ι α) (hstop : s.StoppedByOwn move) :
    (s.step move).Settled id ∧ (s.step move).entries id = s.entries id := by
  obtain ⟨hcached, hdone, hkept⟩ := hset
  have hsame : (s.step move).entries id = s.entries id := by
    cases move with
    | cancel call => rfl
    | expire call => rfl
    | check call =>
        simp only [CacheSystem.step]
        split <;> rfl
    | enter call =>
        simp only [CacheSystem.step, hcached]
        split <;> first | rfl | contradiction
    | wake call =>
        simp only [CacheSystem.step]
        split <;> rfl
    | publish call resolved =>
        cases hph : s.phase call <;> simp only [CacheSystem.step, hph]
        apply Function.update_of_ne
        rintro rfl
        exact absurd (h.fresh hph).2.1 (by simp [hdone])
  refine ⟨((h.step move hstop).settled ?_ ?_).1, hsame⟩
  · rw [hsame, hdone]
  · rw [hsame, hkept]

theorem Coherent.entries_foldl (h : s.Coherent) {id : ℕ} (hset : s.Settled id)
    {steps : List (CacheStep ι α)} (hstops : s.OwnStops steps) :
    (steps.foldl CacheSystem.step s).Settled id ∧
      (steps.foldl CacheSystem.step s).entries id = s.entries id := by
  induction steps generalizing s with
  | nil => exact ⟨hset, rfl⟩
  | cons move steps ih =>
      obtain ⟨hnext, hsame⟩ := h.entries_step hset move hstops.1
      rw [← hsame]
      exact ih (h.step move hstops.1) hnext hstops.2

/-- The owner of an entry returns what its materialisation gave, the entry holds it, and the entry
stays in the map unless the budget of the owner has stopped it. -/
theorem Coherent.publish_step (h : s.Coherent) {call : ι} {id : ℕ}
    (hphase : s.phase call = .materialising id) (resolved : Option (Except ArtifactSourceError α)) :
    let s' := s.step (.publish call resolved)
    let outcome := CacheEntry.published resolved
    s'.phase call = .returned outcome ∧ (s'.entries id).done = true ∧
      (s'.entries id).outcome = outcome ∧
      (s'.entries id).retryableFailure = CacheEntry.retries outcome ∧
      s'.cached = if CacheEntry.retries outcome then none else some id := by
  obtain ⟨hcached, -, hfresh⟩ := h.fresh hphase
  obtain ⟨hdone, hout, hretry⟩ := CacheEntry.publish_spec resolved
  simp only [CacheSystem.step, hphase, hfresh, CacheSystem.publish, CacheSystem.set,
    Function.update_self, hdone, hout, hretry, hcached, decide_true, Bool.and_true, and_self]

/-- In every interleaving at most one call materialises the artifact; it returns what its
materialisation gives, and publishes that for good unless its own budget has stopped it.  A call is
cancelled or times out by its own budget only.  Once an entry is published for good, no call
materialises again, and all that a call returns is the outcome of that entry or what its own budget
says; a call that looks at the cache gets that outcome, at the second look if it waited for an
erased entry. -/
theorem cache_single_flight (steps later : List (CacheStep ι α))
    (hstops : OwnStops {} (steps ++ later)) :
    let s := run steps
    let s' := run (steps ++ later)
    (∀ i a, s.phase i = .materialising a → ∀ j b, s.phase j = .materialising b → i = j) ∧
    (∀ i id, s.phase i = .materialising id → ∀ resolved,
      let published := s.step (.publish i resolved)
      let outcome := CacheEntry.published resolved
      published.phase i = .returned outcome ∧ (published.entries id).done = true ∧
        (published.entries id).outcome = outcome ∧
        (published.entries id).retryableFailure = CacheEntry.retries outcome ∧
        published.cached = if CacheEntry.retries outcome then none else some id) ∧
    (∀ i error, s.phase i = .returned (.error error) → error.retryable = true →
      (s.budget i).stops error = true) ∧
    ∀ id, (s.entries id).done = true → (s.entries id).retryableFailure = false →
      (∀ i a, s'.phase i ≠ .materialising a) ∧
      (∀ i outcome, s'.phase i = .returned outcome → outcome = (s.entries id).outcome ∨
        ∃ error, outcome = .error error ∧ (s'.budget i).stops error = true) ∧
      (∀ i, s'.phase i = .entering →
        (s'.step (.enter i)).phase i = .returned (s.entries id).outcome) ∧
      ∀ i a, s'.phase i = .waiting a → (s'.step (.wake i)).phase i = .entering ∨
        (s'.step (.wake i)).phase i = .returned (s.entries id).outcome := by
  intro s s'
  have h : s.Coherent := coherent_run (ownStops_append hstops).1
  have h' : s'.Coherent := coherent_run hstops
  refine ⟨h.unique, fun i id hi => h.publish_step hi, fun i error hi hretry => ?_,
    fun id hdone hkept => ?_⟩
  · have hfits := h.fits i
    rw [hi] at hfits
    obtain ⟨id, ⟨-, hdone, hkept⟩, houtcome⟩ | ⟨_, ⟨⟩, hstops⟩ := hfits
    · have hnever := (h.settled hdone hkept).2
      rw [← houtcome, CacheEntry.retries, hretry] at hnever
      cases hnever
    · exact hstops
  · obtain ⟨⟨hcached, hdone', hkept'⟩, hsame⟩ : s'.Settled id ∧ s'.entries id = s.entries id := by
      rw [show s' = later.foldl step s from List.foldl_append]
      exact h.entries_foldl (h.settled hdone hkept).1 (ownStops_append hstops).2
    rw [← hsame]
    have honly : ∀ a, s'.cached = some a → a = id := by
      intro a ha
      exact Option.some.inj (ha.symm.trans hcached)
    refine ⟨fun i a hi => ?_, fun i outcome hi => ?_, fun i hi => ?_, fun i a hi => ?_⟩ <;>
      have hfits := h'.fits i <;> rw [hi] at hfits
    · obtain rfl := honly a hfits.1
      exact absurd hfits.2 (by simp [hdone'])
    · obtain ⟨a, ⟨ha, -⟩, houtcome⟩ | hstops := hfits
      · exact .inl (honly a ha ▸ houtcome)
      · exact .inr hstops
    · simp [step, hi, hcached, CacheSystem.set, await, hdone', hkept']
    · have hready : (s'.entries a).done = true := by
        obtain ha | ha := hfits
        · rw [honly a ha, hdone']
        · exact ha
      cases hretry : (s'.entries a).retryableFailure with
      | true => simp [step, hi, CacheSystem.set, await, hready, hretry]
      | false =>
          obtain rfl := honly a (h'.settled hready hretry).1.1
          simp [step, hi, CacheSystem.set, await, hready, hretry]

/-- The first call is stopped by its deadline and erases its entry; the second one, which waited for
it, materialises the artifact, and the third one gets what the second has published. -/
theorem expiredOwner_replaced :
    let steps : List (CacheStep (Fin 3) ℕ) := [.enter 0, .enter 1, .expire 0,
      .publish 0 (some (.error ⟨.timedOut, "artifact materialization exceeded its time budget", 0⟩)),
      .wake 1, .enter 1, .publish 1 (some (.ok 7))]
    let later : List (CacheStep (Fin 3) ℕ) := [.enter 2]
    (run steps).phase 1 = .returned (.ok 7) ∧ (run (steps ++ later)).phase 2 = .returned (.ok 7) ∧
      ∀ i outcome, (run (steps ++ later)).phase i = .returned outcome → outcome = .ok 7 ∨
        ∃ error, outcome = .error error ∧
          ((run (steps ++ later)).budget i).stops error = true := by
  intro steps later
  have hstops : OwnStops {} (steps ++ later) := by
    refine ⟨trivial, trivial, trivial, ?_, trivial, trivial, nofun, trivial, trivial⟩
    rintro error ⟨⟩ -
    rfl
  have hflight := cache_single_flight steps later hstops
  exact ⟨rfl, rfl, (hflight.2.2.2 1 rfl rfl).2.1⟩

end CacheSystem

end KairosBoot
