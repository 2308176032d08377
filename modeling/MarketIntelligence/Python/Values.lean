import MarketIntelligence.Json.Encoder

/-!
# Operations on decoded data

The built-in operations that the programs apply to values of unknown type: member
lookup, truth, equality, iteration, and conversion to text and to integers. What
depends on the interpreter's tables or on floating point is a parameter.
-/

namespace Python

open Json

/-- What the interpreter contributes to the operations on data. -/
structure Interpreter (F : Type) where
  limits : Limits
  /-- `str.isprintable` of one code point. -/
  isPrintable : Chr → Bool
  /-- The value of a decimal digit of any script. -/
  decimal : Chr → Option ℕ
  /-- `repr` of a float. -/
  floatRepr : F → Str
  /-- Equality of floats. -/
  floatEq : F → F → Bool
  /-- Equality of floats as items of containers, where an object equals itself. -/
  floatEqItem : F → F → Bool
  /-- Equality of a float and an integer. -/
  floatEqInt : F → ℤ → Bool
  /-- `int(x)` of a float. -/
  floatToInt : F → Except BuiltinError ℤ

/-- An interpreter that knows ASCII only and has no float but `nan`. -/
def asciiInterpreter : Interpreter Unit where
  limits := sampleLimits
  isPrintable c := 0x20 ≤ c.ord && c.ord < 0x7F
  decimal c := if c.isDigit then some (c.ord - 0x30) else none
  floatRepr _ := lit "nan"
  floatEq _ _ := false
  floatEqItem _ _ := true
  floatEqInt _ _ := false
  floatToInt _ := .error .valueError

variable {F : Type}

/-- `ms.get(key)`. -/
def get (ms : List (Str × Data F)) (key : Str) : Data F :=
  match ms.find? fun m => m.1 = key with
  | some m => m.2
  | none => .none

/-- Whether a dictionary has a key. -/
def hasKey (ms : List (Str × Data F)) (key : Str) : Bool := key ∈ ms.map Prod.fst

/-- `ms.get(key, default)`. -/
def getD (ms : List (Str × Data F)) (key : Str) (fallback : Data F) : Data F :=
  if hasKey ms key then get ms key else fallback

/-- `ms[key]`. -/
def lookup (ms : List (Str × Data F)) (key : Str) : Except BuiltinError (Data F) :=
  if hasKey ms key then .ok (get ms key) else .error .keyError

/-- How deeply containers may be nested in a value that is printed in a layout: with an
indentation, `json` prints by its Python code. -/
def Limits.levels (limits : Limits) (layout : Layout) : ℕ :=
  if layout.indent.isSome then limits.indented else limits.nesting

@[simp] theorem Limits.levels_compact (limits : Limits) (ensureAscii : Bool) :
    limits.levels (Layout.compact ensureAscii) = limits.nesting := rfl

@[simp] theorem Limits.levels_indented (limits : Limits) :
    limits.levels Layout.indented = limits.indented := rfl

/-- What can be printed in a layout is nested no deeper than what can be decoded. -/
theorem Limits.levels_le (limits : Limits) (layout : Layout) :
    limits.levels layout ≤ limits.nesting := by
  unfold levels
  split
  · exact limits.indented_le
  · exact le_rfl

namespace Data

/-- `value[key]`. -/
def subscript (value : Data F) (key : Str) : Except BuiltinError (Data F) :=
  match value with
  | .dict ms => lookup ms key
  | _ => .error .typeError

/-- Equality with a string. -/
def eqStr (s : Str) : Data F → Bool
  | .str t => t = s
  | _ => false

/-- `value is False`. -/
def isFalse : Data F → Bool
  | .bool false => true
  | _ => false

/-- `value is None`. -/
def isNone : Data F → Bool
  | .none => true
  | _ => false

/-- The truth of a value. -/
def truthy (py : Interpreter F) : Data F → Bool
  | .none => false
  | .bool b => b
  | .int n => n != 0
  | .float f => !py.floatEqInt f 0
  | .str s => !s.isEmpty
  | .list xs => !xs.isEmpty
  | .dict ms => !ms.isEmpty

/-- `value is None or value == "" or value == [] or value == {}`. -/
def isMissing : Data F → Bool
  | .none => true
  | .str s => s.isEmpty
  | .list xs => xs.isEmpty
  | .dict ms => ms.isEmpty
  | _ => false

/-- The items that iteration over a value yields. -/
def iterate : Data F → Except BuiltinError (List (Data F))
  | .list xs => .ok xs
  | .str s => .ok (s.map fun c => .str [c])
  | .dict ms => .ok (ms.map fun m => .str m.1)
  | _ => .error .typeError

/-- An integer as Boolean values count. -/
def ofBool (b : Bool) : ℤ := if b then 1 else 0

/-- Two floats as items of containers; other pairs are compared by `==`. -/
def floatItems (py : Interpreter F) : Data F → Data F → Option Bool
  | .float f, .float g => py.floatEqItem f g
  | _, _ => Option.none

mutual

/-- `value == other`. -/
def eq (py : Interpreter F) : Data F → Data F → Bool
  | .none, .none => true
  | .bool a, .bool b => a = b
  | .bool a, .int n => ofBool a = n
  | .int n, .bool b => n = ofBool b
  | .int m, .int n => m = n
  | .bool a, .float f => py.floatEqInt f (ofBool a)
  | .float f, .bool b => py.floatEqInt f (ofBool b)
  | .int n, .float f => py.floatEqInt f n
  | .float f, .int n => py.floatEqInt f n
  | .float f, .float g => py.floatEq f g
  | .str s, .str t => s = t
  | .list xs, .list ys => eqItems py xs ys
  | .dict ms, .dict ns => ms.length = ns.length && eqMembers py ms ns
  | _, _ => false

/-- Equality of lists, item by item. -/
def eqItems (py : Interpreter F) : List (Data F) → List (Data F) → Bool
  | [], [] => true
  | x :: xs, y :: ys => (floatItems py x y).getD (x.eq py y) && eqItems py xs ys
  | _, _ => false

/-- Every member of a dictionary is in the other one, with an equal value. -/
def eqMembers (py : Interpreter F) : List (Str × Data F) → List (Str × Data F) → Bool
  | [], _ => true
  | (k, x) :: ms, ns => hasKey ns k &&
      (floatItems py x (get ns k)).getD (x.eq py (get ns k)) && eqMembers py ms ns

end

/-! ### Text -/

/-- Two hexadecimal digits. -/
def hex2 (n : ℕ) : Str := [hexDigit (n / 16 % 16), hexDigit (n % 16)]

/-- A character inside the `repr` of a string with a given quote. -/
def reprChr (py : Interpreter F) (quote c : Chr) : Str :=
  if c = quote ∨ c = ('\\' : Char) then [('\\' : Chr), c]
  else if c = chr 0x0A then lit "\\n"
  else if c = chr 0x0D then lit "\\r"
  else if c = chr 0x09 then lit "\\t"
  else if py.isPrintable c then [c]
  else if c.ord < 0x100 then lit "\\x" ++ hex2 c.ord
  else if c.ord < 0x10000 then lit "\\u" ++ (hex2 (c.ord / 0x100) ++ hex2 c.ord)
  else lit "\\U" ++ (hex2 0 ++ (hex2 (c.ord / 0x10000) ++ (hex2 (c.ord / 0x100) ++ hex2 c.ord)))

/-- The quote of the `repr` of a string: double quotes if only single ones occur. -/
def reprQuote (s : Str) : Chr :=
  if chr 0x27 ∈ s ∧ chr 0x22 ∉ s then chr 0x22 else chr 0x27

/-- `repr` of a string. -/
def reprStr (py : Interpreter F) (s : Str) : Str :=
  reprQuote s :: (s.flatMap (reprChr py (reprQuote s)) ++ [reprQuote s])

mutual

/-- `repr` of a value, where no limit stands in the way. -/
def repr (py : Interpreter F) : Data F → Str
  | .none => lit "None"
  | .bool true => lit "True"
  | .bool false => lit "False"
  | .int n => intDigits n
  | .float f => py.floatRepr f
  | .str s => reprStr py s
  | .list xs => ('[' : Chr) :: (joinTexts (lit ", ") (reprItems py xs) ++ lit "]")
  | .dict ms => ('{' : Chr) :: (joinTexts (lit ", ") (reprMembers py ms) ++ lit "\x7d")

/-- `repr` of the items of a list. -/
def reprItems (py : Interpreter F) : List (Data F) → List Str
  | [] => []
  | x :: xs => x.repr py :: reprItems py xs

/-- `repr` of the members of a dictionary. -/
def reprMembers (py : Interpreter F) : List (Str × Data F) → List Str
  | [] => []
  | (k, x) :: ms => (reprStr py k ++ (lit ": " ++ x.repr py)) :: reprMembers py ms

end

/-- Whether the decimal digits of an integer may be written. -/
def intFits (limits : Limits) (n : ℤ) : Bool :=
  match limits.intDigits with
  | .some limit => (natDigits n.natAbs).length ≤ limit
  | .none => true

mutual

/-- Walking through a value meets the recursion limit or an integer with too many
digits. -/
def fits (limits : Limits) : ℕ → Data F → Except BuiltinError Unit
  | _, .int n => if intFits limits n then .ok () else .error .valueError
  | 0, .list _ => .error .recursionError
  | level + 1, .list xs => fitsItems limits level xs
  | 0, .dict _ => .error .recursionError
  | level + 1, .dict ms => fitsMembers limits level ms
  | _, _ => .ok ()

/-- Walking through the items of a list. -/
def fitsItems (limits : Limits) : ℕ → List (Data F) → Except BuiltinError Unit
  | _, [] => .ok ()
  | level, x :: xs => do
      fits limits level x
      fitsItems limits level xs

/-- Walking through the members of a dictionary. -/
def fitsMembers (limits : Limits) : ℕ → List (Str × Data F) → Except BuiltinError Unit
  | _, [] => .ok ()
  | level, (_, x) :: ms => do
      fits limits level x
      fitsMembers limits level ms

end

/-- `str(value)`. -/
def toStr (py : Interpreter F) (value : Data F) : Except BuiltinError Str := do
  match value with
  | .str s => return s
  | value =>
      value.fits py.limits py.limits.nesting
      return value.repr py

/-- `json.dumps(value, sort_keys=True)` in a layout. -/
def dumps [PyFloat F] (py : Interpreter F) (layout : Layout) (value : Data F) :
    Except BuiltinError Str := do
  value.fits py.limits (py.limits.levels layout)
  return encode layout 0 value

/-! ### Integers -/

/-- The digits of an integer literal, with single underscores between them. -/
def parseDigits (py : Interpreter F) : Bool → Str → Option (List ℕ)
  | afterDigit, [] => if afterDigit then .some [] else .none
  | afterDigit, c :: t =>
      if afterDigit ∧ c = ('_' : Char) then parseDigits py false t
      else match py.decimal c with
        | .some d => (parseDigits py true t).map fun ds => d :: ds
        | .none => .none

/-- The whitespace that `int` skips: unlike `str.strip`, not the separators of ASCII. -/
def isIntSpace (c : Chr) : Bool := c.isSpace && !(0x1C ≤ c.ord && c.ord ≤ 0x1F)

/-- `int(text)`. -/
def parseInt (py : Interpreter F) (text : Str) : Except BuiltinError ℤ :=
  let inner := ((text.dropWhile isIntSpace).reverse.dropWhile isIntSpace).reverse
  let (negative, digits) := match inner with
    | c :: t => if c = ('-' : Char) then (true, t) else if c = ('+' : Char) then (false, t)
        else (false, c :: t)
    | [] => (false, [])
  match parseDigits py false digits with
  | .some ds =>
      let n : ℤ := Nat.ofDigits 10 ds.reverse
      if (py.limits.intDigits.map fun limit => decide (limit < ds.length)) = .some true then
        .error .valueError
      else .ok (if negative then -n else n)
  | .none => .error .valueError

/-- `int(value)`. -/
def toInt (py : Interpreter F) : Data F → Except BuiltinError ℤ
  | .bool b => .ok (ofBool b)
  | .int n => .ok n
  | .float f => py.floatToInt f
  | .str s => parseInt py s
  | _ => .error .typeError

/-- A line break around the digits is skipped, and a separator of ASCII is not. -/
example : parseInt asciiInterpreter (lit " 1\n") = .ok 1 ∧
    parseInt asciiInterpreter (lit "\u001c1") = .error .valueError := ⟨rfl, rfl⟩

end Data

/-! ### Lookup -/

/-- A key that is not there yields `None`. -/
theorem get_of_not_hasKey {ms : List (Str × Data F)} {key : Str} (h : hasKey ms key = false) :
    get ms key = .none := by
  have hfind : ms.find? (fun m => m.1 = key) = none := by
    refine List.find?_eq_none.mpr fun m hm heq => ?_
    have hmem : key ∈ ms.map Prod.fst := List.mem_map.mpr ⟨m, hm, by simpa using heq⟩
    simp [hasKey] at h
    obtain ⟨v, hv⟩ : ∃ v, (key, v) ∈ ms := by simpa using hmem
    exact h v hv
  simp [get, hfind]

/-- Lookup in a dictionary with one more member in front. -/
@[simp] theorem get_cons (k key : Str) (x : Data F) (ms : List (Str × Data F)) :
    get ((k, x) :: ms) key = if k = key then x else get ms key := by
  by_cases h : k = key <;> simp [get, h]

/-- Nothing is found in the empty dictionary. -/
@[simp] theorem get_nil (key : Str) : get ([] : List (Str × Data F)) key = .none := rfl

/-- Lookup with a subscript needs the key. -/
theorem lookup_eq_ok {ms : List (Str × Data F)} {key : Str} {x : Data F} :
    lookup ms key = .ok x ↔ hasKey ms key = true ∧ get ms key = x := by
  unfold lookup
  split <;> simp_all

/-- A subscript needs a dictionary with the key. -/
theorem Data.subscript_eq_ok {value x : Data F} {key : Str} :
    value.subscript key = .ok x ↔
      ∃ ms, value = .dict ms ∧ hasKey ms key = true ∧ get ms key = x := by
  cases value <;> simp [Data.subscript, lookup_eq_ok]

/-- A key whose value is not `None` is there. -/
theorem hasKey_of_get {ms : List (Str × Data F)} {key : Str} (h : get ms key ≠ .none) :
    hasKey ms key = true := by
  by_contra hkey
  exact h (get_of_not_hasKey (by simpa using hkey))

/-- The test for `None`. -/
@[simp] theorem Data.isNone_iff {x : Data F} : x.isNone = true ↔ x = .none := by
  cases x <;> simp [Data.isNone]

/-- Values that equal a string are that string. -/
@[simp] theorem Data.eqStr_iff {s : Str} {x : Data F} : x.eqStr s = true ↔ x = .str s := by
  cases x <;> simp [Data.eqStr]

/-- The only value that is `False` is the Boolean. -/
@[simp] theorem Data.isFalse_iff {x : Data F} : x.isFalse = true ↔ x = .bool false := by
  cases x with
  | bool b => cases b <;> simp [Data.isFalse]
  | _ => simp [Data.isFalse]

end Python
