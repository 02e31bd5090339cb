/-!
# Outcomes of partial computations

A computation that can fail returns in `Except`.  These are the rules that take
a sequence of steps apart, in the direction of execution: a step that returned
hands its value to the rest, a step that failed is the failure of the whole.
-/

namespace Outcome

variable {ε α β : Type _}

@[simp] theorem ok_bind (a : α) (f : α → Except ε β) : (Except.ok a >>= f) = f a := rfl

@[simp] theorem error_bind (e : ε) (f : α → Except ε β) :
    (Except.error e >>= f) = .error e := rfl

@[simp] theorem pure_eq_ok (a : α) : (pure a : Except ε α) = .ok a := rfl

/-- A sequence returned exactly when each of its steps did. -/
theorem bind_eq_ok {x : Except ε α} {f : α → Except ε β} {b : β} :
    (x >>= f) = .ok b ↔ ∃ a, x = .ok a ∧ f a = .ok b := by
  cases x <;> simp

/-- A condition without which the computation ends. -/
def require (condition : Bool) (e : ε) : Except ε Unit :=
  if condition then .ok () else .error e

/-- A value without which the computation ends. -/
def orThrow (value : Option α) (e : ε) : Except ε α :=
  match value with
  | some a => .ok a
  | none => .error e

theorem map_eq_ok {x : Except ε α} {f : α → β} {b : β} :
    x.map f = .ok b ↔ ∃ a, x = .ok a ∧ f a = b := by
  cases x with
  | error e => simp [Except.map]
  | ok a => simp [Except.map]

theorem require_eq_ok {condition : Bool} {e : ε} {u : Unit} :
    require condition e = .ok u ↔ condition = true := by
  cases condition <;> simp [require]

theorem orThrow_eq_ok {value : Option α} {e : ε} {a : α} :
    orThrow value e = .ok a ↔ value = some a := by
  cases value <;> simp [orThrow]

/-- The failures of a computation that satisfy a predicate, `ok` counting as none. -/
def FailsWith (bad : ε → Prop) : Except ε α → Prop
  | .ok _ => False
  | .error e => bad e

@[simp] theorem failsWith_ok (bad : ε → Prop) (a : α) :
    FailsWith bad (.ok a : Except ε α) ↔ False := Iff.rfl

@[simp] theorem failsWith_error (bad : ε → Prop) (e : ε) :
    FailsWith bad (.error e : Except ε α) ↔ bad e := Iff.rfl

/-- A sequence fails badly where its first step does, or after it returned. -/
theorem failsWith_bind {bad : ε → Prop} {x : Except ε α} {f : α → Except ε β} :
    FailsWith bad (x >>= f) ↔ FailsWith bad x ∨ ∃ a, x = .ok a ∧ FailsWith bad (f a) := by
  cases x <;> simp

end Outcome
