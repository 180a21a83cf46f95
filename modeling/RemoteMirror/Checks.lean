/-
**Checked computations.**

Programs that validate their input are sequences of checks in `Except ε`: each check either stops
with its own error or lets the next one run.  This module has the one primitive such sequences are
built from and the rules that turn "the sequence succeeded" into the list of facts it checked.

Main definitions:

* `Checks.rejectIf` — stop with an error if a condition holds;
* `Checks.okOr` — stop with an error if there is no value;
* `Checks.forEach` — a check made of every element of a list, in order.

Main results:

* `Checks.bind_eq_ok` — a sequence succeeds exactly when each part does;
* `Checks.forEach_eq_ok` — a loop of checks succeeds exactly when each of them does.
-/

import Mathlib

namespace Checks

variable {ε : Type*} {α β : Type}

/-- Fail with `e` when `bad` holds. -/
def rejectIf (bad : Bool) (e : ε) : Except ε Unit := if bad then .error e else .ok ()

@[simp] theorem rejectIf_true (e : ε) : rejectIf true e = .error e := rfl

@[simp] theorem rejectIf_false (e : ε) : rejectIf false e = .ok () := rfl

variable {e : ε}

@[simp] theorem rejectIf_eq_ok {bad : Bool} {u : Unit} : rejectIf bad e = .ok u ↔ bad = false := by
  cases bad <;> simp

@[simp] theorem error_bind (e : ε) (f : α → Except ε β) :
    ((.error e : Except ε α) >>= f) = .error e := rfl

@[simp] theorem ok_bind (a : α) (f : α → Except ε β) : ((.ok a : Except ε α) >>= f) = f a := rfl

@[simp] theorem pure_eq_ok (a : α) : (pure a : Except ε α) = .ok a := rfl

variable {x : Except ε α}

/-- A sequence succeeds exactly when its first part does and then the rest does. -/
theorem bind_eq_ok {f : α → Except ε β} {b : β} : (x >>= f) = .ok b ↔
    ∃ a, x = .ok a ∧ f a = .ok b := by
  cases x with
  | error e => simp
  | ok a => simp

/-- A sequence fails with an error when its first part does or then the rest does. -/
theorem bind_eq_error {f : α → Except ε β} :
    (x >>= f) = .error e ↔ x = .error e ∨ ∃ a, x = .ok a ∧ f a = .error e := by
  cases x with
  | error e' => simp
  | ok a => simp

theorem rejectIf_eq_error {bad : Bool} {e' : ε} : rejectIf bad e = .error e' ↔
    bad = true ∧ e = e' := by
  cases bad <;> simp

/-- A check followed by the rest succeeds exactly when both do. -/
@[simp] theorem unit_bind_eq_ok {x : Except ε Unit} {f : Unit → Except ε β} {b : β} :
    (x >>= f) = .ok b ↔ x = .ok () ∧ f () = .ok b := by
  cases x with
  | error e => simp
  | ok u => simp

/-- Fail with `e` when there is no value. -/
def okOr (o : Option α) (e : ε) : Except ε α :=
  match o with
  | some a => .ok a
  | none => .error e

variable {a : α}

@[simp] theorem okOr_eq_ok {o : Option α} : okOr o e = .ok a ↔ o = some a := by
  cases o <;> simp [okOr]

theorem okOr_eq_error {o : Option α} {e' : ε} : okOr o e = .error e' ↔ o = none ∧ e = e' := by
  cases o <;> simp [okOr]

@[simp] theorem mapError_eq_ok {ε' : Type*} {f : ε → ε'} : x.mapError f = .ok a ↔ x = .ok a := by
  cases x <;> simp [Except.mapError]

@[simp] theorem toOption_eq_some : x.toOption = some a ↔ x = .ok a := by
  cases x <;> simp [Except.toOption]

/-- The loop `for a in as { check(a)?; }`. -/
def forEach (check : α → Except ε Unit) : List α → Except ε Unit
  | [] => .ok ()
  | a :: as => do
      check a
      forEach check as

/-- A loop of checks succeeds exactly when each of them does. -/
theorem forEach_eq_ok {check : α → Except ε Unit} {as : List α} :
    forEach check as = .ok () ↔ ∀ a ∈ as, check a = .ok () := by
  induction as with
  | nil => simp [forEach]
  | cons a as ih => simp [forEach, ih]

end Checks
