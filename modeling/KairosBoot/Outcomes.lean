import Mathlib.Logic.Basic

/-! # Programs that may fail and the traces they leave

A program over a state that may fail keeps the state it has reached when it fails.  `Prog σ ε` is
the monad of such programs, and `exec x s` the run of `x` from `s`.

* `Ends x s Q` says that the run ends with an outcome and a state that satisfy `Q`; `EndsWith` has
  one condition for values and one for errors.
* `Keeps I x` says that `x` ends in `I` if it starts there.
* `Decides c I x v J` says that `x` has no value but `v` from any start in `I`, and has it if `c`.
* A relation `R s es s'`, "`s'` is reached from `s` with the events `es`", is a `Tracing` if it
  composes.  `Emits R x s Q` says that the run leaves events with which its outcome and its final
  state satisfy `Q`.
* `Path` is the tracing of a labelled step relation; `Path.accumulates` follows an observation
  that every step extends by what its label says.
* `Mirrors` relates a program to one on a view of its state, as long as all events are of a kind.
* `after` runs a sequence of programs, whatever their outcomes; `transcript` also keeps these. -/

namespace Outcomes

variable {σ σ' ε ε' ι α β ω : Type}

/-- Programs over a state that may fail. -/
abbrev Prog (σ ε : Type) := ExceptT ε (StateM σ)

/-- The run of a program: its outcome and the state it ends in. -/
def exec (x : Prog σ ε α) (s : σ) : Except ε α × σ := x.run.run s

/-- The run of a program ends with an outcome and a state that satisfy `Q`. -/
def Ends (x : Prog σ ε α) (s : σ) (Q : Except ε α → σ → Prop) : Prop :=
  Q (exec x s).1 (exec x s).2

/-- A step that computes its value and the next state and cannot fail. -/
def step (f : σ → α × σ) : Prog σ ε α :=
  ExceptT.mk fun s => (.ok (f s).1, (f s).2)

/-- The outcome of a program as a value. -/
def attempt (x : Prog σ ε α) : Prog σ ε' (Except ε α) := step (exec x)

/-- Go on with the outcome of a pure computation. -/
def ofOutcome (r : Except ε α) : Prog σ ε α :=
  match r with
  | .ok a => pure a
  | .error e => throw e

variable {x : Prog σ ε α} {f : α → Prog σ ε β} {handler : ε → Prog σ ε α} {s : σ}

theorem exec_step_bind {g : σ → α × σ} : exec (step g >>= f) s = exec (f (g s).1) (g s).2 := rfl

theorem exec_attempt_bind {x : Prog σ ε' α} {f : Except ε' α → Prog σ ε β} :
    exec (attempt x >>= f) s = exec (f (exec x s).1) (exec x s).2 := rfl

theorem exec_ofOutcome (r : Except ε α) (s : σ) : exec (ofOutcome r) s = (r, s) := by
  cases r with
  | ok a => rfl
  | error e => rfl

theorem exec_bind : exec (x >>= f) s
    = match exec x s with
      | (.ok a, s') => exec (f a) s'
      | (.error e, s') => (.error e, s') := by
  change (match x.run.run s with | (r, s') => (ExceptT.bindCont f r).run s') = _
  unfold exec
  rcases x.run.run s with ⟨r, s'⟩
  cases r with
  | error e => rfl
  | ok a => rfl

theorem exec_get_bind (f : σ → Prog σ ε β) (s : σ) : exec (get >>= f) s = exec (f s) s := rfl

theorem exec_tryCatch : exec (tryCatch x handler) s
    = match exec x s with
      | (.ok a, s') => (.ok a, s')
      | (.error e, s') => exec (handler e) s' := by
  change ((x.run >>= fun r => match r with
    | Except.ok a => pure (Except.ok a)
    | Except.error e => (handler e).run : StateM σ (Except ε α))).run s = _
  rw [StateT.run_bind]
  unfold exec
  rcases x.run.run s with ⟨r, s'⟩
  cases r with
  | error e => rfl
  | ok a => rfl

/-- A sequence fails where its first part fails, and otherwise ends as its second part does. -/
theorem Ends.bind {R : Except ε α → σ → Prop} {Q : Except ε β → σ → Prop} (hx : Ends x s R)
    (hok : ∀ a s', R (.ok a) s' → Ends (f a) s' Q)
    (herr : ∀ e s', R (.error e) s' → Q (.error e) s') : Ends (x >>= f) s Q := by
  unfold Ends at hx ⊢
  rw [exec_bind]
  rcases hrun : exec x s with ⟨r, s'⟩
  rw [hrun] at hx
  cases r with
  | ok a => exact hok a s' hx
  | error e => exact herr e s' hx

/-- A guarded program ends as its body does, or as its handler does where the body fails. -/
theorem Ends.tryCatch {R Q : Except ε α → σ → Prop} (hx : Ends x s R)
    (hok : ∀ a s', R (.ok a) s' → Q (.ok a) s')
    (herr : ∀ e s', R (.error e) s' → Ends (handler e) s' Q) : Ends (tryCatch x handler) s Q := by
  unfold Ends at hx ⊢
  rw [exec_tryCatch]
  rcases hrun : exec x s with ⟨r, s'⟩
  rw [hrun] at hx
  cases r with
  | ok a => exact hok a s' hx
  | error e => exact herr e s' hx

/-- The run of a program ends with a value and a state in `P`, or with an error and a state in
`E`. -/
def EndsWith (x : Prog σ ε α) (s : σ) (P : α → σ → Prop) (E : ε → σ → Prop) : Prop :=
  Ends x s fun r s' => match r with
    | .ok a => P a s'
    | .error e => E e s'

section EndsWith

variable {P P' : α → σ → Prop} {Q : β → σ → Prop} {E : ε → σ → Prop}

theorem endsWith_pure {a : α} (h : P a s) : EndsWith (pure a) s P E := h

theorem endsWith_throw {e : ε} (h : E e s) : EndsWith (throw e : Prog σ ε α) s P E := h

theorem EndsWith.bind (hx : EndsWith x s P E) (hf : ∀ a s', P a s' → EndsWith (f a) s' Q E) :
    EndsWith (x >>= f) s Q E :=
  Ends.bind hx hf fun _ _ he => he

theorem EndsWith.imp {E' : ε → σ → Prop} (hx : EndsWith x s P E) (hval : ∀ a s', P a s' → P' a s')
    (herr : ∀ e s', E e s' → E' e s') : EndsWith x s P' E' := by
  unfold EndsWith Ends at hx ⊢
  cases hr : (exec x s).1 with
  | ok a =>
      rw [hr] at hx
      exact hval a _ hx
  | error e =>
      rw [hr] at hx
      exact herr e _ hx

theorem EndsWith.mono (hx : EndsWith x s P E) (himp : ∀ a s', P a s' → P' a s') :
    EndsWith x s P' E :=
  hx.imp himp fun _ _ h => h

theorem endsWith_true : EndsWith x s (fun _ _ => True) fun _ _ => True := by
  unfold EndsWith Ends
  cases (exec x s).1 with
  | ok a => trivial
  | error e => trivial

theorem endsWith_step_bind {g : σ → α × σ} (h : EndsWith (f (g s).1) (g s).2 Q E) :
    EndsWith (step g >>= f) s Q E := h

theorem endsWith_get_bind {f : σ → Prog σ ε β} (h : EndsWith (f s) s Q E) :
    EndsWith (get >>= f) s Q E := h

theorem endsWith_modify {P : Unit → σ → Prop} {g : σ → σ} (h : P () (g s)) :
    EndsWith (modify g : Prog σ ε Unit) s P E := h

theorem endsWith_modify_bind {g : σ → σ} {f : Unit → Prog σ ε β}
    (h : EndsWith (f ()) (g s) Q E) : EndsWith (modify g >>= f) s Q E := h

end EndsWith

/-! ### What a program leaves alone -/

/-- The program keeps `I`, however it ends. -/
def Keeps (I : σ → Prop) (x : Prog σ ε α) : Prop := ∀ s, I s → I (exec x s).2

section Keeps

variable {I : σ → Prop}

/-- A property of both ends is one of the last state. -/
theorem endsWith_iff_last : EndsWith x s (fun _ => I) (fun _ => I) ↔ I (exec x s).2 := by
  unfold EndsWith Ends
  cases (exec x s).1 with
  | ok a => exact Iff.rfl
  | error e => exact Iff.rfl

theorem Keeps.endsWith (h : Keeps I x) (hs : I s) : EndsWith x s (fun _ => I) fun _ => I :=
  endsWith_iff_last.mpr (h s hs)

theorem EndsWith.keeping {P : α → σ → Prop} {E : ε → σ → Prop} (hx : EndsWith x s P E)
    (h : Keeps I x) (hs : I s) :
    EndsWith x s (fun a s' => P a s' ∧ I s') fun e s' => E e s' ∧ I s' := by
  have hend := h s hs
  unfold EndsWith Ends at hx ⊢
  cases hr : (exec x s).1 with
  | ok a =>
      rw [hr] at hx
      exact ⟨hx, hend⟩
  | error e =>
      rw [hr] at hx
      exact ⟨hx, hend⟩

theorem keeps_pure {a : α} : Keeps I (pure a : Prog σ ε α) := fun _ hs => hs

theorem keeps_throw {e : ε} : Keeps I (throw e : Prog σ ε α) := fun _ hs => hs

theorem keeps_ofOutcome (r : Except ε α) : Keeps I (ofOutcome r : Prog σ ε α) := by
  intro s hs
  rw [exec_ofOutcome]
  exact hs

theorem keeps_step {g : σ → α × σ} (h : ∀ s, I s → I (g s).2) : Keeps I (step g : Prog σ ε α) := h

theorem Keeps.bind (hx : Keeps I x) (hf : ∀ a, Keeps I (f a)) : Keeps I (x >>= f) := by
  intro s hs
  have hx := hx s hs
  rw [exec_bind]
  rcases hrun : exec x s with ⟨r, s'⟩
  rw [hrun] at hx
  cases r with
  | ok a => exact hf a s' hx
  | error e => exact hx

/-- What is known of the value of the first part helps to keep `I`. -/
theorem Keeps.bind_of {P : α → Prop} (hx : Keeps I x)
    (hval : ∀ s, EndsWith x s (fun a _ => P a) fun _ _ => True)
    (hf : ∀ a, P a → Keeps I (f a)) : Keeps I (x >>= f) := by
  intro s hs
  refine endsWith_iff_last.mp (EndsWith.bind (P := fun a s => P a ∧ I s) ?_
    fun a s h => (hf a h.1).endsWith h.2)
  exact ((hval s).keeping hx hs).imp (fun _ _ h => h) fun _ _ h => h.2

theorem Keeps.attempt_bind {x : Prog σ ε' α} {f : Except ε' α → Prog σ ε β} (hx : Keeps I x)
    (hf : ∀ r, Keeps I (f r)) : Keeps I (attempt x >>= f) :=
  fun s hs => hf _ _ (hx s hs)

theorem Keeps.ite {x y : Prog σ ε α} {c : Prop} [Decidable c] (hx : Keeps I x) (hy : Keeps I y) :
    Keeps I (if c then x else y) := by
  by_cases hc : c
  · rwa [if_pos hc]
  · rwa [if_neg hc]

theorem keeps_get_bind {f : σ → Prog σ ε β} (hf : ∀ s, Keeps I (f s)) : Keeps I (get >>= f) :=
  fun s hs => hf s s hs

end Keeps

/-! ### Decided outcomes -/

/-- From every state in `I` the program returns nothing but the value `v`, and then ends in `J`;
under `c` it does return it, and fails only if there is none. -/
def Decides (c : Prop) (I : σ → Prop) (x : Prog σ ε α) (v : Option α) (J : σ → Prop) : Prop :=
  ∀ s, I s → (c → (exec x s).1.toOption = v) ∧
    ∀ a, (exec x s).1 = .ok a → v = some a ∧ J (exec x s).2

/-- The outcome does not depend on where the program starts. -/
abbrev Fixed (c : Prop) (x : Prog σ ε α) (v : Option α) : Prop :=
  Decides c (fun _ => True) x v fun _ => True

section Decides

variable {c : Prop} {I J K : σ → Prop} {v : Option α} {w : α → Option β} {u : Option β}

theorem decides_pure {a : α} : Decides c I (pure a : Prog σ ε α) (some a) I :=
  fun _ hs => ⟨fun _ => rfl, fun _ h => ⟨congrArg Except.toOption h, hs⟩⟩

theorem decides_throw {e : ε} : Decides c I (throw e : Prog σ ε α) none J :=
  fun _ _ => ⟨fun _ => rfl, fun _ h => by cases h⟩

/-- A program that need not return its value may fail. -/
theorem decides_fail (hc : ¬ c) {e : ε} : Decides c I (throw e : Prog σ ε α) v J :=
  fun _ _ => ⟨fun h => absurd h hc, fun _ h => by cases h⟩

theorem decides_ofOutcome (r : Except ε α) : Decides c I (ofOutcome r) r.toOption I := by
  intro s hs
  rw [exec_ofOutcome]
  exact ⟨fun _ => rfl, fun _ h => ⟨congrArg Except.toOption h, hs⟩⟩

theorem decides_modify {g : σ → σ} (h : ∀ s, I s → J (g s)) :
    Decides c I (modify g : Prog σ ε Unit) (some ()) J :=
  fun s hs => ⟨fun _ => rfl, fun _ _ => ⟨rfl, h s hs⟩⟩

theorem Decides.bind (hx : Decides c I x v J)
    (hf : ∀ a, v = some a → Decides c J (f a) (w a) K) : Decides c I (x >>= f) (v.bind w) K := by
  intro s hs
  obtain ⟨hv, hj⟩ := hx s hs
  rw [exec_bind]
  rcases hrun : exec x s with ⟨r, s'⟩
  rw [hrun] at hv hj
  cases r with
  | ok a =>
      obtain ⟨hval, hlast⟩ := hj a rfl
      rw [hval]
      exact hf a hval s' hlast
  | error e => exact ⟨fun hc => by rw [← hv hc]; rfl, fun _ h => by cases h⟩

/-- The value of the first part need not be decided, as long as the outcome of the whole is. -/
theorem Decides.bind_of {R : Except ε α → Prop} (hx : ∀ s, I s → R (exec x s).1 ∧ J (exec x s).2)
    (hok : ∀ a, R (.ok a) → Decides c J (f a) u K) (herr : ∀ e, R (.error e) → c → u = none) :
    Decides c I (x >>= f) u K := by
  intro s hs
  obtain ⟨hr, hj⟩ := hx s hs
  rw [exec_bind]
  rcases hrun : exec x s with ⟨r, s'⟩
  rw [hrun] at hr hj
  cases r with
  | ok a => exact hok a hr s' hj
  | error e => exact ⟨fun hc => (herr e hr hc).symm, fun _ h => by cases h⟩

theorem Decides.attempt_bind {x : Prog σ ε' α} {f : Except ε' α → Prog σ ε β}
    {R : Except ε' α → Prop} (hx : ∀ s, I s → R (exec x s).1 ∧ J (exec x s).2)
    (hf : ∀ r, R r → Decides c J (f r) u K) : Decides c I (attempt x >>= f) u K := by
  intro s hs
  rw [exec_attempt_bind]
  exact hf _ (hx s hs).1 _ (hx s hs).2

theorem decides_get_bind {f : σ → Prog σ ε β} {y : Prog σ ε β} (hf : ∀ s, I s → f s = y)
    (hy : Decides c I y u K) : Decides c I (get >>= f) u K := by
  intro s hs
  rw [exec_get_bind, hf s hs]
  exact hy s hs

theorem Decides.endsWith (h : Decides c I x v J) (hs : I s) :
    EndsWith x s (fun a _ => v = some a) fun _ _ => True := by
  have hok := (h s hs).2
  unfold EndsWith Ends
  rcases hrun : (exec x s).1 with e | a
  · trivial
  · exact (hok a hrun).1

theorem Decides.returns {E : ε → σ → Prop} {a : α} (h : Decides True I x (some a) J) (hs : I s) :
    EndsWith x s (fun b _ => b = a) E := by
  have hval := (h s hs).1 trivial
  unfold EndsWith Ends
  rcases hrun : (exec x s).1 with e | b
  · rw [hrun] at hval
    cases hval
  · rw [hrun] at hval
    exact Option.some.inj hval

end Decides

/-! ### Traces -/

/-- An event of a log that has grown is an old one or a new one. -/
theorem append_eq_append_cons {log es front rest : List ω} {event : ω}
    (h : log ++ es = front ++ event :: rest) :
    (∃ middle, log = front ++ event :: middle) ∨
      ∃ middle, front = log ++ middle ∧ es = middle ++ event :: rest := by
  rcases List.append_eq_append_iff.mp h with ⟨middle, hfront, hes⟩ | ⟨middle, hlog, hrest⟩
  · exact .inr ⟨middle, hfront, hes⟩
  · cases middle with
    | nil =>
        rw [List.append_nil] at hlog
        exact .inr ⟨[], by rw [hlog, List.append_nil], by simpa using hrest.symm⟩
    | cons head middle =>
        rw [List.cons_append, List.cons.injEq] at hrest
        exact .inl ⟨middle, by rw [hlog, ← hrest.1]⟩

/-- A relation between states and the events between them that composes. -/
structure Tracing (R : σ → List ω → σ → Prop) : Prop where
  refl : ∀ s, R s [] s
  trans : ∀ {s s' s'' : σ} {es es' : List ω}, R s es s' → R s' es' s'' → R s (es ++ es') s''

attribute [class] Tracing

/-- The run of a program leaves events with which its outcome and its final state satisfy `Q`. -/
def Emits (R : σ → List ω → σ → Prop) (x : Prog σ ε α) (s : σ)
    (Q : Except ε α → σ → List ω → Prop) : Prop :=
  Ends x s fun r s' => ∃ es, R s es s' ∧ Q r s' es

section Emits

variable {R : σ → List ω → σ → Prop} {P Q : Except ε α → σ → List ω → Prop}
  {Q' : Except ε β → σ → List ω → Prop}

theorem Emits.mono (h : Emits R x s P) (himp : ∀ r s' es, P r s' es → Q r s' es) :
    Emits R x s Q := by
  obtain ⟨es, hes, hp⟩ := h
  exact ⟨es, hes, himp _ _ _ hp⟩

theorem emits_pure [hR : Tracing R] {a : α} (h : Q (.ok a) s []) : Emits R (pure a) s Q :=
  ⟨[], hR.refl s, h⟩

theorem emits_throw [hR : Tracing R] {e : ε} (h : Q (.error e) s []) : Emits R (throw e) s Q :=
  ⟨[], hR.refl s, h⟩

theorem Emits.bind [hR : Tracing R] (hx : Emits R x s P)
    (hok : ∀ a s' es, P (.ok a) s' es → Emits R (f a) s' fun r s'' es' => Q' r s'' (es ++ es'))
    (herr : ∀ e s' es, P (.error e) s' es → Q' (.error e) s' es) : Emits R (x >>= f) s Q' := by
  refine Ends.bind hx ?_ ?_
  · rintro a s' ⟨es, hes, hp⟩
    obtain ⟨es', hes', hq⟩ := hok a s' es hp
    exact ⟨es ++ es', hR.trans hes hes', hq⟩
  · rintro e s' ⟨es, hes, hp⟩
    exact ⟨es, hes, herr e s' es hp⟩

/-- A step that cannot fail, with its events in front. -/
theorem emits_step_bind [hR : Tracing R] {g : σ → α × σ} {es : List ω} (hes : R s es (g s).2)
    (h : Emits R (f (g s).1) (g s).2 fun r s' es' => Q' r s' (es ++ es')) :
    Emits R (step g >>= f) s Q' := by
  obtain ⟨es', hes', hq⟩ := h
  exact ⟨es ++ es', hR.trans hes hes', hq⟩

theorem emits_get_bind {f : σ → Prog σ ε β} (h : Emits R (f s) s Q') : Emits R (get >>= f) s Q' := h

theorem Emits.tryCatch [hR : Tracing R] (hx : Emits R x s P)
    (hok : ∀ a s' es, P (.ok a) s' es → Q (.ok a) s' es)
    (herr : ∀ e s' es, P (.error e) s' es →
      Emits R (handler e) s' fun r s'' es' => Q r s'' (es ++ es')) :
    Emits R (tryCatch x handler) s Q := by
  refine Ends.tryCatch hx ?_ ?_
  · rintro a s' ⟨es, hes, hp⟩
    exact ⟨es, hes, hok a s' es hp⟩
  · rintro e s' ⟨es, hes, hp⟩
    obtain ⟨es', hes', hq⟩ := herr e s' es hp
    exact ⟨es ++ es', hR.trans hes hes', hq⟩

end Emits

/-- The run of a program fails, or it leaves events with which its value and its final state satisfy
`Q`. -/
def Yields (R : σ → List ω → σ → Prop) (x : Prog σ ε α) (s : σ) (Q : α → σ → List ω → Prop) : Prop :=
  Emits R x s fun r s' es => ∀ a, r = .ok a → Q a s' es

section Yields

variable {R : σ → List ω → σ → Prop} {P Q : α → σ → List ω → Prop} {Q' : β → σ → List ω → Prop}

theorem Yields.mono (h : Yields R x s P) (himp : ∀ a s' es, P a s' es → Q a s' es) :
    Yields R x s Q :=
  Emits.mono h fun _ _ _ hp a ha => himp a _ _ (hp a ha)

theorem yields_pure [hR : Tracing R] {a : α} (h : Q a s []) :
    Yields R (pure a : Prog σ ε α) s Q := by
  refine ⟨[], hR.refl s, fun b hb => ?_⟩
  cases hb
  exact h

theorem yields_throw [hR : Tracing R] {e : ε} : Yields R (throw e : Prog σ ε α) s Q :=
  ⟨[], hR.refl s, fun b hb => by cases hb⟩

theorem Yields.bind [hR : Tracing R] (hx : Yields R x s P)
    (hf : ∀ a s' es, R s es s' → P a s' es →
      Yields R (f a) s' fun b s'' es' => Q' b s'' (es ++ es')) : Yields R (x >>= f) s Q' := by
  have hx' : Emits R x s fun r s' es => R s es s' ∧ ∀ a, r = .ok a → P a s' es := by
    obtain ⟨es, hes, hp⟩ := hx
    exact ⟨es, hes, hes, hp⟩
  refine Emits.bind hx' ?_ ?_
  · exact fun a s' es h => hf a s' es h.1 (h.2 a rfl)
  · exact fun e s' es _ b hb => by cases hb

end Yields

/-! ### Views -/

/-- As long as its events are of one kind, the run of `x` is that of `y` on a view of the state. -/
def Mirrors (R : σ → List ω → σ → Prop) (kind : ω → Prop) (view : σ → σ') (x : Prog σ ε α)
    (y : Prog σ' ε α) (s : σ) : Prop :=
  Emits R x s fun r s' es => (∀ e ∈ es, kind e) → exec y (view s) = (r, view s')

section Mirrors

variable {R : σ → List ω → σ → Prop} {kind : ω → Prop} {view : σ → σ'} {y : Prog σ' ε α}
  {g : α → Prog σ' ε β} {y' : Prog σ' ε β}

theorem Mirrors.bind [hR : Tracing R] (hx : Mirrors R kind view x y s)
    (hf : ∀ a s', Mirrors R kind view (f a) (g a) s') :
    Mirrors R kind view (x >>= f) (y >>= g) s := by
  refine Emits.bind hx ?_ ?_
  · intro a s' es hp
    refine (hf a s').mono fun r s'' es' hq hall => ?_
    obtain ⟨hes, hes'⟩ := List.forall_mem_append.mp hall
    rw [exec_bind, hp hes]
    exact hq hes'
  · intro e s' es hp hall
    rw [exec_bind, hp hall]

theorem Mirrors.skip [hR : Tracing R]
    (hx : Emits R x s fun r s' _ => ∃ a, r = .ok a ∧ view s' = view s)
    (hf : ∀ a s', Mirrors R kind view (f a) y' s') : Mirrors R kind view (x >>= f) y' s := by
  refine Emits.bind hx ?_ ?_
  · rintro a s' es ⟨b, -, hview⟩
    refine (hf a s').mono fun r s'' es' hq hall => ?_
    rw [← hview]
    exact hq (List.forall_mem_append.mp hall).2
  · rintro e s' es ⟨b, hb, -⟩
    cases hb

theorem Mirrors.get_bind {f : σ → Prog σ ε β} {g : σ' → Prog σ' ε β}
    (h : Mirrors R kind view (f s) (g (view s)) s) :
    Mirrors R kind view (get >>= f) (get >>= g) s := h

theorem mirrors_pure [hR : Tracing R] (a : α) :
    Mirrors R kind view (pure a : Prog σ ε α) (pure a) s :=
  emits_pure fun _ => rfl

theorem mirrors_throw [hR : Tracing R] (e : ε) :
    Mirrors R kind view (throw e : Prog σ ε α) (throw e) s :=
  emits_throw fun _ => rfl

end Mirrors

/-! ### Paths -/

/-- A sequence of labelled steps. -/
inductive Path (R : σ → ω → σ → Prop) : σ → List ω → σ → Prop
  | nil (s : σ) : Path R s [] s
  | cons {s s' s'' : σ} {e : ω} {es : List ω} :
      R s e s' → Path R s' es s'' → Path R s (e :: es) s''

theorem Path.append {R : σ → ω → σ → Prop} {s s' s'' : σ} {es es' : List ω}
    (h : Path R s es s') (h' : Path R s' es' s'') : Path R s (es ++ es') s'' := by
  induction h with
  | nil s => exact h'
  | cons hstep _ ih => exact .cons hstep (ih h')

/-- What every step appends to an observation, a path appends label by label. -/
theorem Path.accumulates {R : σ → ω → σ → Prop} {view : σ → List β} {out : ω → List β}
    (hstep : ∀ s e s', R s e s' → view s' = view s ++ out e) {s s' : σ} {es : List ω}
    (h : Path R s es s') : view s' = view s ++ es.flatMap out := by
  induction h with
  | nil s => simp
  | cons hs _ ih => rw [ih, hstep _ _ _ hs, List.flatMap_cons, List.append_assoc]

/-! ### Sequences of programs -/

/-- The state after a sequence of programs, whatever their outcomes. -/
def after (programs : List (Prog σ ε α)) (s : σ) : σ :=
  programs.foldl (fun s x => (exec x s).2) s

/-- An invariant of every program holds after a sequence of them. -/
theorem after_invariant (I : σ → Prop) {programs : List (Prog σ ε α)}
    (hall : ∀ x ∈ programs, ∀ s, I s → I (exec x s).2) {s : σ} (hs : I s) :
    I (after programs s) := by
  induction programs generalizing s with
  | nil => exact hs
  | cons x rest ih =>
      obtain ⟨hx, hrest⟩ := List.forall_mem_cons.mp hall
      exact ih hrest (hx s hs)

/-- While an invariant lasts under which every program only leaves events of one kind, so does a
sequence of them. -/
theorem after_emits {R : σ → List ω → σ → Prop} [hR : Tracing R] (I : σ → Prop) (kind : ω → Prop)
    {programs : List (Prog σ ε α)}
    (hall : ∀ x ∈ programs, ∀ s, I s → Emits R x s fun _ s' es => I s' ∧ ∀ e ∈ es, kind e) {s : σ}
    (hs : I s) : ∃ es, R s es (after programs s) ∧ ∀ e ∈ es, kind e := by
  induction programs generalizing s with
  | nil => exact ⟨[], hR.refl s, by simp⟩
  | cons x rest ih =>
      obtain ⟨hx, hrest⟩ := List.forall_mem_cons.mp hall
      obtain ⟨es, hes, hI, hkind⟩ := hx s hs
      obtain ⟨es', hes', hkind'⟩ := ih hrest hI
      exact ⟨es ++ es', hR.trans hes hes', List.forall_mem_append.mpr ⟨hkind, hkind'⟩⟩

/-- The outcomes of a sequence of calls, and the state after it. -/
def transcript (run : ι → Prog σ ε α) : List ι → σ → List (ι × Except ε α) × σ
  | [], s => ([], s)
  | call :: rest, s =>
      ((call, (exec (run call) s).1) :: (transcript run rest (exec (run call) s).2).1,
        (transcript run rest (exec (run call) s).2).2)

/-- What every call keeps of the outcomes so far and the state, a sequence of calls keeps. -/
theorem transcript_invariant {run : ι → Prog σ ε α} (I : List (ι × Except ε α) → σ → Prop)
    (hstep : ∀ done s call, I done s →
      I (done ++ [(call, (exec (run call) s).1)]) (exec (run call) s).2)
    (calls : List ι) {s : σ} (hs : I [] s) :
    I (transcript run calls s).1 (transcript run calls s).2 := by
  have key : ∀ (calls : List ι) (done : List (ι × Except ε α)) (s : σ), I done s →
      I (done ++ (transcript run calls s).1) (transcript run calls s).2 := by
    intro calls
    induction calls with
    | nil => intro done s h; simpa [transcript] using h
    | cons call rest ih =>
        intro done s h
        simpa [transcript] using ih _ _ (hstep done s call h)
  exact key calls [] s hs

/-- Calls that mirror calls on a view have the outcomes of these. -/
theorem transcript_mirrors {R : σ → List ω → σ → Prop} [hR : Tracing R] {kind : ω → Prop}
    {view : σ → σ'} {run : ι → Prog σ ε α} {run' : ι → Prog σ' ε α} {calls : List ι}
    (hall : ∀ call ∈ calls, ∀ s, Mirrors R kind view (run call) (run' call) s) (s : σ) :
    ∃ es, R s es (transcript run calls s).2 ∧ ((∀ e ∈ es, kind e) →
      transcript run' calls (view s)
        = ((transcript run calls s).1, view (transcript run calls s).2)) := by
  induction calls generalizing s with
  | nil => exact ⟨[], hR.refl s, fun _ => rfl⟩
  | cons call rest ih =>
      obtain ⟨hcall, hrest⟩ := List.forall_mem_cons.mp hall
      obtain ⟨es, hes, hp⟩ := hcall s
      obtain ⟨es', hes', hq⟩ := ih hrest (exec (run call) s).2
      refine ⟨es ++ es', hR.trans hes hes', fun hkind => ?_⟩
      obtain ⟨hfst, hlater⟩ := List.forall_mem_append.mp hkind
      simp only [transcript, hp hfst, hq hlater]

end Outcomes
