import Mathlib.Data.List.Basic

/-!
# Computations that may raise

A Python function that may raise is a value of `Except`. An exception is the
program's own, one of the built-in classes, or one that code outside the program
raised. The lemmas take a sequence of such computations apart: a sequence
returns exactly when each of its parts does, and an exception of a part is the
exception of the whole.
-/

namespace Python

/-- The built-in exception classes that the modelled programs can meet. -/
inductive BuiltinError
  | typeError
  | valueError
  | jsonDecodeError
  | unicodeEncodeError
  | unicodeDecodeError
  | keyError
  | attributeError
  | overflowError
  | recursionError
  | notImplementedError
  | osError
  | fileNotFoundError
  deriving DecidableEq

/-- Whether `except handler` catches an exception: its class is the handler's or
derived from it. -/
def BuiltinError.caughtBy (e handler : BuiltinError) : Bool :=
  e = handler ||
    match e with
    | jsonDecodeError | unicodeEncodeError | unicodeDecodeError => handler = valueError
    | fileNotFoundError => handler = osError
    | _ => false

/-- An exception of a program whose own exceptions are of type `Own`. -/
inductive Raised (Own : Type)
  | own (e : Own)
  | builtin (e : BuiltinError)
  | foreign
  deriving DecidableEq

/-- A built-in exception, as an exception of a program. -/
def ofBuiltin {Own α : Type} : Except BuiltinError α → Except (Raised Own) α
  | .ok a => .ok a
  | .error e => .error (.builtin e)

variable {ε : Type*} {α β : Type}

/-- Raising as a program changes no result. -/
@[simp] theorem ofBuiltin_eq_ok {Own : Type} {x : Except BuiltinError α} {a : α} :
    (ofBuiltin x : Except (Raised Own) α) = .ok a ↔ x = .ok a := by
  cases x <;> simp [ofBuiltin]

/-- `if not condition: raise e`. -/
def raiseUnless (condition : Bool) (e : ε) : Except ε Unit :=
  if condition then .ok () else .error e

/-- Nothing is raised exactly when the condition holds. -/
@[simp] theorem raiseUnless_eq_ok {condition : Bool} {e : ε} {u : Unit} :
    raiseUnless condition e = .ok u ↔ condition = true := by
  cases condition <;> simp [raiseUnless]

/-- Returning a value raises nothing. -/
@[simp] theorem pure_eq_ok (a : α) : (pure a : Except ε α) = .ok a := rfl

/-- A returned value is passed on. -/
@[simp] theorem ok_bind (a : α) (f : α → Except ε β) : (Except.ok a >>= f) = f a := rfl

/-- An exception skips the rest of the sequence. -/
@[simp] theorem error_bind (e : ε) (f : α → Except ε β) :
    ((Except.error e : Except ε α) >>= f) = .error e := rfl

/-- A sequence returns exactly when its parts return. -/
theorem bind_eq_ok {x : Except ε α} {f : α → Except ε β} {b : β} :
    (x >>= f) = .ok b ↔ ∃ a, x = .ok a ∧ f a = .ok b := by
  cases x <;> simp

/-- A sequence raises what its first raising part raises. -/
theorem bind_eq_error {x : Except ε α} {f : α → Except ε β} {e : ε} :
    (x >>= f) = .error e ↔ x = .error e ∨ ∃ a, x = .ok a ∧ f a = .error e := by
  cases x <;> simp

/-- A computation passes exactly when it returns something. -/
theorem isOk_iff {x : Except ε α} : x.isOk = true ↔ ∃ a, x = .ok a := by
  cases x <;> simp [Except.isOk, Except.toBool]

end Python
