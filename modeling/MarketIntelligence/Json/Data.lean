import MarketIntelligence.Json.Completeness

/-!
# Decoded data

The Python objects that `json.loads` returns, and the hooks it uses when it is
called without any. Floating-point numbers are a type with the two operations
JSON needs, so that nothing depends on their representation; the one law is that
reading a printed float gives it back.
-/

namespace Python

open Json

/-- The floats of the interpreter as JSON sees them. -/
class PyFloat (F : Type) where
  /-- `float(text)`. -/
  ofText : Str → F
  /-- The spelling that `json.dumps` writes. -/
  repr : F → Str
  /-- A printed float is a JSON number or one of the non-finite tokens. -/
  repr_text : ∀ f, FloatText (repr f) ∨ repr f ∈ constants
  /-- The shortest representation of a float reads back as that float. -/
  ofText_repr : ∀ f, ofText (repr f) = f

/-- Floats of which only `nan` is left, for runs that meet no float. -/
instance : PyFloat Unit where
  ofText _ := ()
  repr _ := lit "NaN"
  repr_text _ := Or.inr (by decide)
  ofText_repr _ := rfl

/-- The Python objects that JSON texts decode to. A `dict` lists its members in
insertion order. -/
inductive Data (F : Type)
  | none
  | bool (b : Bool)
  | int (n : ℤ)
  | float (f : F)
  | str (s : Str)
  | list (xs : List (Data F))
  | dict (ms : List (Str × Data F))

/-- The limits of the interpreter that decoding can run into. -/
structure Limits where
  /-- How deeply containers may be nested, from the current stack on, where the C code of the
  interpreter walks through them. -/
  nesting : ℕ
  /-- How deeply containers may be nested where the Python code of `json` prints them, which it
  does with an indentation. -/
  indented : ℕ
  /-- At least one container can be entered. -/
  indented_pos : 0 < indented
  /-- A level of the Python code takes no less of the stack than one of the C code. -/
  indented_le : indented ≤ nesting
  /-- `sys.get_int_max_str_digits()`; `none` where the limit is switched off. -/
  intDigits : Option ℕ

/-- At least one container can be entered by the C code. -/
theorem Limits.nesting_pos (limits : Limits) : 0 < limits.nesting :=
  limits.indented_pos.trans_le limits.indented_le

/-- The limits of the samples: more containers can be decoded than printed with an
indentation. -/
def sampleLimits : Limits where
  nesting := 1000
  indented := 900
  indented_pos := by decide
  indented_le := by decide
  intDigits := some 4300

/-- The number written by decimal digits. -/
def natOfDigits (t : Str) : ℕ := t.foldl (fun n c => 10 * n + (c.ord - 0x30)) 0

/-- The number written by an integer token. -/
def intOfText : Str → ℤ
  | c :: t => if c = ('-' : Char) then -(natOfDigits t : ℤ) else natOfDigits (c :: t)
  | [] => 0

/-- How many digits an integer token has. -/
def digitCount (t : Str) : ℕ := (t.filter Chr.isDigit).length

/-- Whether `int(text)` refuses a token because of its length. -/
def tooManyDigits (limits : Limits) (t : Str) : Bool :=
  match limits.intDigits with
  | some n => n < digitCount t
  | none => false

variable {F : Type}

/-- `d[key] = value`: a new key goes last and an old key keeps its place. -/
def dictInsert (d : List (Str × Data F)) (key : Str) (value : Data F) : List (Str × Data F) :=
  if key ∈ d.map Prod.fst then d.map fun m => if m.1 = key then (key, value) else m
  else d ++ [(key, value)]

/-- `dict(pairs)`. -/
def dictOfPairs (pairs : List (Str × Data F)) : List (Str × Data F) :=
  pairs.foldl (fun d m => dictInsert d m.1 m.2) []

/-- The hooks of a plain `json.loads`. The only exception is the `ValueError` of
an integer with too many digits. -/
def dataHooks [PyFloat F] (limits : Limits) : Hooks Unit (Data F) where
  null := .none
  bool := .bool
  int t := if tooManyDigits limits t then .error () else .ok (.int (intOfText t))
  float t := .ok (.float (PyFloat.ofText t))
  constant t := .ok (.float (PyFloat.ofText t))
  string := .str
  array := .list
  object pairs := .ok (.dict (dictOfPairs pairs))

end Python

namespace Json

open Python

/-! ### Unambiguity -/

/-- Hooks that rebuild the parse tree. -/
def treeHooks : Hooks Empty Tree where
  null := .null
  bool := .bool
  int t := .ok (.int t)
  float t := .ok (.float t)
  constant t := .ok (.constant t)
  string := .string
  array := .array
  object pairs := .ok (.object pairs)

mutual

/-- Rebuilding a tree gives that tree. -/
theorem Tree.fold_treeHooks : ∀ x : Tree, x.fold treeHooks = .ok x
  | .null | .bool _ | .int _ | .float _ | .constant _ | .string _ => rfl
  | .array xs => by rw [Tree.fold, foldItems_treeHooks xs]; rfl
  | .object ms => by rw [Tree.fold, foldMembers_treeHooks ms]; rfl

/-- Rebuilding items gives those items. -/
theorem foldItems_treeHooks : ∀ xs : List Tree, foldItems treeHooks xs = .ok xs
  | [] => rfl
  | x :: xs => by simp [foldItems, x.fold_treeHooks, foldItems_treeHooks xs]

/-- Rebuilding members gives those members. -/
theorem foldMembers_treeHooks : ∀ ms : List (Str × Tree), foldMembers treeHooks ms = .ok ms
  | [] => rfl
  | (k, x) :: ms => by simp [foldMembers, x.fold_treeHooks, foldMembers_treeHooks ms]

end

/-- A text denotes at most one parse tree. -/
theorem text_unique {s : Str} {x y : Tree} (hx : Text s x) (hy : Text s y) : x = y := by
  have hxs := loads_complete treeHooks hx (le_max_left x.depth y.depth)
  have hys := loads_complete treeHooks hy (le_max_right x.depth y.depth)
  rw [Tree.fold_treeHooks] at hxs hys
  simpa [ofHook] using hxs.symm.trans hys

end Json
