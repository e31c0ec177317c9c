import Mathlib.Tactic.Linarith

/-! # Guarded computations

Validators are sequences of checks in `Except`: `failIf bad e` stops with `e` when `bad` holds,
and `orFail o e` stops with `e` when `o` is `none`.  The simp lemmas turn the success of a whole
sequence into the conjunction of its passed checks, one check at a time. -/

namespace Guards

variable {ε ε' α β : Type}

/-- Stop with `e` when `bad` holds. -/
def failIf (bad : Prop) [Decidable bad] (e : ε) : Except ε Unit := if bad then .error e else .ok ()

/-- The value of `o`, or the error `e`. -/
def orFail (o : Option α) (e : ε) : Except ε α :=
  match o with
  | none => .error e
  | some a => .ok a

variable {bad : Prop} {x : Except ε α}

@[simp] theorem failIf_bind_eq_ok [Decidable bad] {e : ε} {f : Unit → Except ε β} {b : β} :
    (failIf bad e >>= f) = .ok b ↔ ¬ bad ∧ f () = .ok b := by
  by_cases h : bad <;> simp [failIf, h, bind, Except.bind]

@[simp] theorem failIf_eq_ok [Decidable bad] {e : ε} {u : Unit} : failIf bad e = .ok u ↔ ¬ bad := by
  by_cases h : bad <;> simp [failIf, h]

theorem failIf_bind_of_not [Decidable bad] (h : ¬ bad) (e : ε) (f : Unit → Except ε β) :
    (failIf bad e >>= f) = f () := by
  simp [failIf, h, bind, Except.bind]

theorem failIf_bind_of [Decidable bad] (h : bad) (e : ε) (f : Unit → Except ε β) :
    (failIf bad e >>= f) = .error e := by
  simp [failIf, h, bind, Except.bind]

theorem failIf_of_not [Decidable bad] (h : ¬ bad) (e : ε) : failIf bad e = .ok () := if_neg h

@[simp] theorem orFail_some_bind (a : α) (e : ε) (f : α → Except ε β) :
    (orFail (some a) e >>= f) = f a := rfl

@[simp] theorem orFail_eq_ok {o : Option α} {e : ε} {a : α} : orFail o e = .ok a ↔ o = some a := by
  cases o <;> simp [orFail]

@[simp] theorem ok_bind (a : α) (f : α → Except ε β) :
    ((Except.ok a : Except ε α) >>= f) = f a := rfl

@[simp] theorem error_bind (e : ε) (f : α → Except ε β) :
    ((Except.error e : Except ε α) >>= f) = .error e := rfl

theorem bind_eq_ok {f : α → Except ε β} {b : β} :
    (x >>= f) = .ok b ↔ ∃ a, x = .ok a ∧ f a = .ok b := by
  cases x <;> simp

theorem pure_eq_ok_iff {a b : α} : (pure a : Except ε α) = .ok b ↔ a = b := by
  simp [pure, Except.pure]

theorem mapError_eq_ok_iff {f : ε → ε'} {a : α} : x.mapError f = .ok a ↔ x = .ok a := by
  cases x <;> simp [Except.mapError]

theorem toOption_eq_some_iff {a : α} : x.toOption = some a ↔ x = .ok a := by
  cases x <;> simp [Except.toOption]

theorem forM_eq_ok_iff {l : List α} {f : α → Except ε Unit} :
    l.forM f = .ok () ↔ ∀ x ∈ l, f x = .ok () := by
  induction l with
  | nil => exact ⟨fun _ => by simp, fun _ => rfl⟩
  | cons x xs ih =>
      rw [List.forall_mem_cons, ← ih]
      exact bind_eq_ok.trans ⟨fun ⟨_, h⟩ => h, fun h => ⟨(), h⟩⟩

/-! ### The errors of a computation -/

/-- Every error of `x` satisfies `P`. -/
def ErrorsIn (P : ε → Prop) (x : Except ε α) : Prop := ∀ e, x = .error e → P e

variable {P : ε → Prop}

theorem errorsIn_ok (a : α) : ErrorsIn P (.ok a : Except ε α) := fun _ h => by cases h

theorem errorsIn_failIf [Decidable bad] {e : ε} (h : P e) : ErrorsIn P (failIf bad e) := by
  intro e' he'
  unfold failIf at he'
  split at he'
  · cases he'
    exact h
  · cases he'

theorem errorsIn_orFail {o : Option α} {e : ε} (h : P e) : ErrorsIn P (orFail o e) := by
  intro e' he'
  cases o with
  | none =>
      cases he'
      exact h
  | some a => cases he'

theorem errorsIn_mapError {x : Except ε' α} {f : ε' → ε} (h : ∀ e, P (f e)) :
    ErrorsIn P (x.mapError f) := by
  intro e' he'
  cases x with
  | error e =>
      cases he'
      exact h e
  | ok a => cases he'

theorem ErrorsIn.bind {f : α → Except ε β} (hx : ErrorsIn P x)
    (hf : ∀ a, x = .ok a → ErrorsIn P (f a)) : ErrorsIn P (x >>= f) := by
  cases x with
  | error e =>
      intro e' he'
      rw [error_bind] at he'
      cases he'
      exact hx e rfl
  | ok a => exact hf a rfl

theorem errorsIn_failIf_bind [Decidable bad] {e : ε} {f : Unit → Except ε β} (h : P e)
    (hf : ErrorsIn P (f ())) : ErrorsIn P (failIf bad e >>= f) :=
  (errorsIn_failIf h).bind fun _ _ => hf

end Guards
