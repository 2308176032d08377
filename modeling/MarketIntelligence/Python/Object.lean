import MarketIntelligence.Python.Text
import MarketIntelligence.Python.Datetime

/-!
# Untyped Python objects

Values that cross a boundary without a type check: the fields of a result that a
transport returns, and the fields of a model that was overwritten without
validation. The constructors for values are exact types. An instance of a subclass of
one of them is known by its value, and an object of another type by the value that it
equals, if there is one. An instance of a model is known by its class and the values of
its fields.
-/

namespace Python

/-- A Python object, as far as type checks and the modelled operations see it. -/
inductive Obj
  | none
  | bool (b : Bool)
  | int (n : ℤ)
  | str (s : Str)
  | datetime (t : Datetime)
  | tuple (xs : List Obj)
  | list (xs : List Obj)
  | dict (ms : List (Str × Obj))
  | model (cls : Str) (fields : List (Str × Obj))
  /-- An instance of a subclass of the type of a value. -/
  | derived (o : Obj)
  /-- An object of another type that equals a value and hashes like it, as `0.0` does `0`. -/
  | equal (o : Obj)
  | other

namespace Obj

/-- `type(value) is str`. -/
def isStr : Obj → Bool
  | str _ => true
  | _ => false

/-- `type(value) is int`. -/
def isInt : Obj → Bool
  | int _ => true
  | _ => false

/-- Equality with a string, for objects of the exact type. -/
def eqStr (s : Str) : Obj → Bool
  | str t => t = s
  | _ => false

/-- Equality with an integer, for objects of the exact type. -/
def eqInt (n : ℤ) : Obj → Bool
  | int m => m = n
  | _ => false

/-- An aware datetime, in whatever time zone. -/
def IsAware (value : Obj) (t : AwareDatetime) : Prop :=
  ∃ zone folds, value = datetime (.aware zone t folds)

/-- An aware datetime is one datetime. -/
@[simp] theorem isAware_aware {zone : ℕ} {s t : AwareDatetime} {folds : Bool} :
    (datetime (.aware zone s folds)).IsAware t ↔ s = t := by
  simp [IsAware]

/-- Identity with a Boolean constant. -/
def isBool (b : Bool) : Obj → Bool
  | bool c => c = b
  | _ => false

/-- Equality with `()`, for objects of the exact type. -/
def isEmptyTuple : Obj → Bool
  | tuple [] => true
  | _ => false

/-- The value of the built-in type of which an object is an instance. -/
def base : Obj → Obj
  | derived o => o.base
  | o => o

/-- An instance of `str` with this text. -/
def IsText (o : Obj) (s : Str) : Prop := o.base = str s

/-- An instance of `tuple` of instances of `str` with these texts. -/
def IsTexts (o : Obj) (texts : List Str) : Prop :=
  ∃ xs, o.base = tuple xs ∧ List.Forall₂ IsText xs texts

/-- Whether an object equals a string. -/
def equalsStr (s : Str) : Obj → Bool
  | str t => t = s
  | derived o | equal o => o.equalsStr s
  | _ => false

/-- Whether an object equals `False`. -/
def equalsFalse : Obj → Bool
  | bool b => !b
  | int n => n = 0
  | derived o | equal o => o.equalsFalse
  | _ => false

mutual

/-- The value inside `model_dump(mode="python")`: instances become dictionaries of their
fields. -/
def dump : Obj → Obj
  | tuple xs => tuple (dumpItems xs)
  | list xs => list (dumpItems xs)
  | dict ms => dict (dumpMembers ms)
  | model _ fields => dict (dumpMembers fields)
  | derived o => derived o.dump
  | o => o

/-- The items of a dumped container. -/
def dumpItems : List Obj → List Obj
  | [] => []
  | x :: xs => x.dump :: dumpItems xs

/-- The members of a dumped dictionary. -/
def dumpMembers : List (Str × Obj) → List (Str × Obj)
  | [] => []
  | (k, x) :: ms => (k, x.dump) :: dumpMembers ms

end

/-- Only a string is dumped as a string. -/
@[simp] theorem dump_eq_str {o : Obj} {s : Str} : o.dump = str s ↔ o = str s := by
  cases o <;> simp [dump]

/-- A string is itself. -/
@[simp] theorem isText_str {s t : Str} : (str t).IsText s ↔ t = s := by
  simp [IsText, base]

/-- A string equals itself. -/
@[simp] theorem equalsStr_str (s t : Str) : (str t).equalsStr s = decide (t = s) := rfl

/-- `False` equals `False`. -/
@[simp] theorem equalsFalse_bool (b : Bool) : (bool b).equalsFalse = !b := rfl

/-- Only an instance of `str` is dumped as one. -/
theorem isText_dump {o : Obj} {s : Str} : o.dump.IsText s ↔ o.IsText s := by
  unfold IsText
  fun_induction base o with
  | case1 o ih => rw [dump, base, ih]
  | case2 o hderived =>
    cases o with
    | derived o => exact absurd rfl (hderived o)
    | _ => simp [dump, base]

/-- Only a string equals a string. -/
@[simp] theorem eqStr_iff {o : Obj} {s : Str} : o.eqStr s = true ↔ o = str s := by
  cases o <;> simp [eqStr]

/-- Among objects of exact types only an integer equals an integer. -/
@[simp] theorem eqInt_iff {o : Obj} {n : ℤ} : o.eqInt n = true ↔ o = int n := by
  cases o <;> simp [eqInt]

/-- Only a Boolean is a Boolean constant. -/
@[simp] theorem isBool_iff {o : Obj} {b : Bool} : o.isBool b = true ↔ o = bool b := by
  cases o <;> simp [isBool]

/-- The empty tuple. -/
@[simp] theorem isEmptyTuple_iff {o : Obj} : o.isEmptyTuple = true ↔ o = tuple [] := by
  cases o with
  | tuple xs => cases xs <;> simp [isEmptyTuple]
  | _ => simp [isEmptyTuple]

end Obj

end Python
