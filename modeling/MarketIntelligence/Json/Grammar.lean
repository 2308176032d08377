import MarketIntelligence.Python.Text

/-!
# The JSON grammar

The grammar of JSON texts as a relation between a text and the parse tree it
denotes. It is stated phrase by phrase, without a notion of remaining input, so
that it can be read next to the syntax diagrams of the format. Two points follow
Python's `json`: the tokens `NaN`, `Infinity` and `-Infinity` are values, and two
adjacent `\u` escapes that form a surrogate pair denote one code point.
-/

namespace Json

open Python

/-- A parse tree. Numbers keep their spelling and objects keep every member in
text order, so that duplicate names remain visible. -/
inductive Tree
  | null
  | bool (b : Bool)
  | int (text : Str)
  | float (text : Str)
  | constant (name : Str)
  | string (s : Str)
  | array (items : List Tree)
  | object (pairs : List (Str × Tree))

mutual

/-- How deeply arrays and objects are nested in a tree. -/
def Tree.depth : Tree → ℕ
  | .array xs => depthItems xs + 1
  | .object ms => depthMembers ms + 1
  | _ => 0

/-- The largest depth among the items of an array. -/
def depthItems : List Tree → ℕ
  | [] => 0
  | x :: xs => max x.depth (depthItems xs)

/-- The largest depth among the values of an object. -/
def depthMembers : List (Str × Tree) → ℕ
  | [] => 0
  | (_, x) :: ms => max x.depth (depthMembers ms)

end

/-! ### Whitespace, numbers and constants -/

/-- The four whitespace characters of JSON. -/
def isWs (c : Chr) : Bool := c.ord == 0x20 || c.ord == 0x09 || c.ord == 0x0A || c.ord == 0x0D

/-- A run of whitespace, possibly empty. -/
def Ws (w : Str) : Prop := ∀ c ∈ w, isWs c = true

/-- The empty run. -/
theorem ws_nil : Ws [] := by simp [Ws]

/-- A nonempty run of ASCII digits. -/
def Digits (t : Str) : Prop := t ≠ [] ∧ ∀ c ∈ t, c.isDigit = true

/-- A natural number in decimal, without a superfluous leading zero. -/
def Natural (t : Str) : Prop := t = lit "0" ∨ Digits t ∧ t.head? ≠ some ('0' : Char)

/-- An integer: a natural number with an optional minus sign. -/
def IntText (t : Str) : Prop := Natural t ∨ ∃ u, t = ('-' : Chr) :: u ∧ Natural u

/-- A fraction: a point and at least one digit. -/
def FracText (t : Str) : Prop := ∃ d, t = ('.' : Chr) :: d ∧ Digits d

/-- An exponent: a mark, an optional sign and at least one digit. -/
def ExpText (t : Str) : Prop :=
  ∃ (e : Chr) (sign d : Str), t = e :: (sign ++ d) ∧ (e = ('e' : Char) ∨ e = ('E' : Char)) ∧
    (sign = [] ∨ sign = lit "+" ∨ sign = lit "-") ∧ Digits d

/-- A number with a fraction or an exponent. -/
def FloatText (t : Str) : Prop :=
  ∃ i f e, t = i ++ (f ++ e) ∧ IntText i ∧ (f = [] ∨ FracText f) ∧ (e = [] ∨ ExpText e) ∧
    f ++ e ≠ []

/-- The characters that numbers are made of. -/
def isNumberChr (c : Chr) : Bool :=
  c.isDigit || c = ('-' : Char) || c = ('+' : Char) || c = ('.' : Char) || c = ('e' : Char) ||
    c = ('E' : Char)

/-- Integers are made of them. -/
theorem IntText.isNumberChr {t : Str} (h : IntText t) : ∀ c ∈ t, isNumberChr c = true := by
  have hnat {n : Str} (hn : Natural n) : ∀ c ∈ n, Json.isNumberChr c = true := by
    intro c hc
    obtain rfl | ⟨hdigits, -⟩ := hn
    · obtain rfl := List.mem_singleton.mp hc
      decide
    · simp [Json.isNumberChr, hdigits.2 c hc]
  obtain h | ⟨u, rfl, h⟩ := h
  · exact hnat h
  · exact List.forall_mem_cons.mpr ⟨by decide, hnat h⟩

/-- Floats are made of them. -/
theorem FloatText.isNumberChr {t : Str} (h : FloatText t) : ∀ c ∈ t, isNumberChr c = true := by
  have hdigits {d : Str} (hd : Digits d) : ∀ c ∈ d, Json.isNumberChr c = true := by
    intro c hc
    simp [Json.isNumberChr, hd.2 c hc]
  obtain ⟨i, f, e, rfl, hi, hf, he, -⟩ := h
  have hfrac : ∀ c ∈ f, Json.isNumberChr c = true := by
    obtain rfl | ⟨d, rfl, hd⟩ := hf
    · simp
    · exact List.forall_mem_cons.mpr ⟨by decide, hdigits hd⟩
  have hexp : ∀ c ∈ e, Json.isNumberChr c = true := by
    obtain rfl | ⟨m, sign, d, rfl, hm, hsign, hd⟩ := he
    · simp
    · have hmark : Json.isNumberChr m = true := by obtain rfl | rfl := hm <;> decide
      have hs : ∀ c ∈ sign, Json.isNumberChr c = true := by
        obtain rfl | rfl | rfl := hsign <;> decide
      exact List.forall_mem_cons.mpr ⟨hmark, List.forall_mem_append.mpr ⟨hs, hdigits hd⟩⟩
  exact List.forall_mem_append.mpr ⟨hi.isNumberChr, List.forall_mem_append.mpr ⟨hfrac, hexp⟩⟩

/-- The non-finite tokens that Python's `json` accepts besides the JSON values. -/
def constants : List Str := [lit "NaN", lit "Infinity", lit "-Infinity"]

/-! ### Strings -/

/-- The value of a hexadecimal digit of either case. -/
def hexVal (c : Chr) : Option ℕ :=
  if 0x30 ≤ c.ord ∧ c.ord ≤ 0x39 then some (c.ord - 0x30)
  else if 0x61 ≤ c.ord ∧ c.ord ≤ 0x66 then some (c.ord - 0x61 + 10)
  else if 0x41 ≤ c.ord ∧ c.ord ≤ 0x46 then some (c.ord - 0x41 + 10)
  else none

/-- The code unit written by four hexadecimal digits. -/
def hex4 (a b c d : Chr) : Option ℕ := do
  let w ← hexVal a
  let x ← hexVal b
  let y ← hexVal c
  let z ← hexVal d
  return ((w * 16 + x) * 16 + y) * 16 + z

/-- The character named by a two-character escape. -/
def simpleEscape (e : Chr) : Option Chr :=
  if e = ('"' : Char) then some ('"' : Char)
  else if e = ('\\' : Char) then some ('\\' : Char)
  else if e = ('/' : Char) then some ('/' : Char)
  else if e = ('b' : Char) then some (chr 0x08)
  else if e = ('f' : Char) then some (chr 0x0C)
  else if e = ('n' : Char) then some (chr 0x0A)
  else if e = ('r' : Char) then some (chr 0x0D)
  else if e = ('t' : Char) then some (chr 0x09)
  else none

/-- One piece of a string: a character written as itself or by a short escape,
or a code unit written by a `\u` escape. -/
inductive Piece
  | char (c : Chr)
  | unit (c : Chr)

/-- The code point of a surrogate pair. -/
def joinSurrogates (h l : Chr) : Chr := chr (0x10000 + (h.ord - 0xD800) * 0x400 + (l.ord - 0xDC00))

/-- The string denoted by its pieces: adjacent escaped surrogates that form a
pair become one code point, and every other piece stands for itself. -/
def joinPieces : List Piece → Str
  | [] => []
  | .char c :: ps => c :: joinPieces ps
  | .unit h :: .unit l :: ps =>
      if h.isHighSurrogate && l.isLowSurrogate then joinSurrogates h l :: joinPieces ps
      else h :: joinPieces (.unit l :: ps)
  | .unit c :: ps => c :: joinPieces ps

/-- The text between the quotes of a string and the pieces it is made of. -/
inductive StringBody : Str → List Piece → Prop
  | nil : StringBody [] []
  | plain {c : Chr} {t : Str} {ps : List Piece} : 0x20 ≤ c.ord → c ≠ ('"' : Char) →
      c ≠ ('\\' : Char) → StringBody t ps → StringBody (c :: t) (.char c :: ps)
  | escape {e c : Chr} {t : Str} {ps : List Piece} : simpleEscape e = some c →
      StringBody t ps → StringBody (('\\' : Chr) :: e :: t) (.char c :: ps)
  | unicode {a b c d : Chr} {n : ℕ} {t : Str} {ps : List Piece} : hex4 a b c d = some n →
      StringBody t ps →
      StringBody (('\\' : Chr) :: ('u' : Chr) :: a :: b :: c :: d :: t) (.unit (chr n) :: ps)

/-- A member name with the whitespace and the colon up to its value. -/
inductive Name : Str → Str → Prop
  | mk {w₁ t w₂ w₃ : Str} {ps : List Piece} : Ws w₁ → StringBody t ps → Ws w₂ → Ws w₃ →
      Name (w₁ ++ ('"' : Chr) :: (t ++ ('"' : Chr) :: (w₂ ++ (':' : Chr) :: w₃))) (joinPieces ps)

/-! ### Values -/

mutual

/-- The texts of values. -/
inductive Value : Str → Tree → Prop
  | nullToken : Value (lit "null") .null
  | trueToken : Value (lit "true") (.bool true)
  | falseToken : Value (lit "false") (.bool false)
  | int {t : Str} : IntText t → Value t (.int t)
  | float {t : Str} : FloatText t → Value t (.float t)
  | constant {t : Str} : t ∈ constants → Value t (.constant t)
  | string {t : Str} {ps : List Piece} : StringBody t ps →
      Value (('"' : Chr) :: (t ++ lit "\"")) (.string (joinPieces ps))
  | emptyArray {w : Str} : Ws w → Value (('[' : Chr) :: (w ++ lit "]")) (.array [])
  | array {t : Str} {xs : List Tree} : Items t xs →
      Value (('[' : Chr) :: (t ++ lit "]")) (.array xs)
  | emptyObject {w : Str} : Ws w → Value (('{' : Chr) :: (w ++ lit "\x7d")) (.object [])
  | object {t : Str} {ms : List (Str × Tree)} : Members t ms →
      Value (('{' : Chr) :: (t ++ lit "\x7d")) (.object ms)

/-- The texts between the brackets of nonempty arrays. -/
inductive Items : Str → List Tree → Prop
  | one {w₁ t w₂ : Str} {x : Tree} : Ws w₁ → Value t x → Ws w₂ → Items (w₁ ++ (t ++ w₂)) [x]
  | cons {w₁ t w₂ u : Str} {x : Tree} {xs : List Tree} : Ws w₁ → Value t x → Ws w₂ →
      Items u xs → Items (w₁ ++ (t ++ (w₂ ++ (',' : Chr) :: u))) (x :: xs)

/-- The texts between the braces of nonempty objects. -/
inductive Members : Str → List (Str × Tree) → Prop
  | one {k t w : Str} {name : Str} {x : Tree} : Name k name → Value t x → Ws w →
      Members (k ++ (t ++ w)) [(name, x)]
  | cons {k t w u : Str} {name : Str} {x : Tree} {ms : List (Str × Tree)} : Name k name →
      Value t x → Ws w → Members u ms →
      Members (k ++ (t ++ (w ++ (',' : Chr) :: u))) ((name, x) :: ms)

end

/-- A JSON text is a value with whitespace around it. -/
def Text (s : Str) (x : Tree) : Prop :=
  ∃ w₁ t w₂, s = w₁ ++ (t ++ w₂) ∧ Ws w₁ ∧ Value t x ∧ Ws w₂

end Json
