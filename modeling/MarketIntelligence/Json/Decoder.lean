import MarketIntelligence.Json.Grammar

/-!
# The JSON decoder

`json.loads` as CPython runs it: one scanner for values, which calls a hook for
every number, constant and object as soon as that phrase is complete. The
scanner works on the text that is left. Containers enter the interpreter's
recursion, which is bounded, and the loops carry a fuel that the text's length
bounds.
-/

namespace Json

open Python

/-- The reasons of a `JSONDecodeError`. -/
inductive DecodeError
  | expectingValue
  | expectingPropertyName
  | expectingColon
  | expectingComma
  | unterminatedString
  | invalidControlCharacter
  | invalidEscape
  | invalidUnicodeEscape
  | unexpectedBom
  | extraData
  deriving DecidableEq

/-- The `msg` attribute of a `JSONDecodeError`. -/
def DecodeError.msg : DecodeError → Str
  | expectingValue => lit "Expecting value"
  | expectingPropertyName => lit "Expecting property name enclosed in double quotes"
  | expectingColon => lit "Expecting ':' delimiter"
  | expectingComma => lit "Expecting ',' delimiter"
  | unterminatedString => lit "Unterminated string starting at"
  | invalidControlCharacter => lit "Invalid control character at"
  | invalidEscape => lit "Invalid \\escape"
  | invalidUnicodeEscape => lit "Invalid \\uXXXX escape"
  | unexpectedBom => lit "Unexpected UTF-8 BOM (decode using utf-8-sig)"
  | extraData => lit "Extra data"

/-- What decoding can raise: a decode error, the interpreter's recursion limit,
or an exception of a hook. -/
inductive Failure (ε : Type)
  | decode (e : DecodeError)
  | recursion
  | hook (e : ε)
  deriving DecidableEq

/-- What the decoder builds for each kind of phrase. -/
structure Hooks (ε V : Type) where
  null : V
  bool : Bool → V
  /-- `parse_int`, called with the digits. -/
  int : Str → Except ε V
  /-- `parse_float`, called with the spelling. -/
  float : Str → Except ε V
  /-- `parse_constant`, called with the token. -/
  constant : Str → Except ε V
  string : Str → V
  array : List V → V
  /-- `object_pairs_hook`, called with the members in text order. -/
  object : List (Str × V) → Except ε V

variable {ε V : Type}

mutual

/-- What the hooks build for a tree: inner values first, members in text order. -/
def Tree.fold (h : Hooks ε V) : Tree → Except ε V
  | .null => .ok h.null
  | .bool b => .ok (h.bool b)
  | .int t => h.int t
  | .float t => h.float t
  | .constant t => h.constant t
  | .string s => .ok (h.string s)
  | .array xs => do return h.array (← foldItems h xs)
  | .object ms => do h.object (← foldMembers h ms)

/-- What the hooks build for the items of an array. -/
def foldItems (h : Hooks ε V) : List Tree → Except ε (List V)
  | [] => .ok []
  | x :: xs => do
      let v ← x.fold h
      let vs ← foldItems h xs
      return v :: vs

/-- What the hooks build for the members of an object. -/
def foldMembers (h : Hooks ε V) : List (Str × Tree) → Except ε (List (Str × V))
  | [] => .ok []
  | (k, x) :: ms => do
      let v ← x.fold h
      let vs ← foldMembers h ms
      return (k, v) :: vs

end

/-! ### Scanning -/

/-- Skip whitespace. -/
def skipWs (s : Str) : Str := s.dropWhile isWs

/-- The text after a prescribed beginning. -/
def dropPrefix? : Str → Str → Option Str
  | [], s => some s
  | _ :: _, [] => none
  | c :: p, d :: s => if c = d then dropPrefix? p s else none

/-- The digits at the front of a text, and the rest. -/
def scanDigits (s : Str) : Str × Str := (s.takeWhile Chr.isDigit, s.dropWhile Chr.isDigit)

/-- The natural number at the front of a text. -/
def scanNatural : Str → Option (Str × Str)
  | [] => none
  | c :: s =>
      if c = ('0' : Char) then some ([c], s)
      else if c.isDigit then some (c :: (scanDigits s).1, (scanDigits s).2)
      else none

/-- The fraction at the front of a text; without a digit after it, the point is
not part of the number. -/
def scanFrac (s : Str) : Str × Str :=
  match s with
  | c :: d :: s => if c = ('.' : Char) ∧ d.isDigit = true
      then (c :: d :: (scanDigits s).1, (scanDigits s).2) else ([], c :: d :: s)
  | s => ([], s)

/-- The sign of an exponent. -/
def scanSign : Str → Str × Str
  | c :: s => if c = ('+' : Char) ∨ c = ('-' : Char) then ([c], s) else ([], c :: s)
  | [] => ([], [])

/-- The exponent at the front of a text; without a digit after it, the mark is
not part of the number. -/
def scanExp (s : Str) : Str × Str :=
  match s with
  | c :: s =>
      if c = ('e' : Char) ∨ c = ('E' : Char) then
        let sign := scanSign s
        let d := scanDigits sign.2
        if d.1 = [] then ([], c :: s) else (c :: (sign.1 ++ d.1), d.2)
      else ([], c :: s)
  | [] => ([], [])

/-- The minus sign of a number. -/
def scanMinus : Str → Str × Str
  | c :: s => if c = ('-' : Char) then ([c], s) else ([], c :: s)
  | [] => ([], [])

/-- The number at the front of a text, and whether it is a float. -/
def matchNumber (s : Str) : Option ((Bool × Str) × Str) :=
  match scanNatural (scanMinus s).2 with
  | none => none
  | some (n, s₁) =>
      let f := scanFrac s₁
      let e := scanExp f.2
      some ((!(f.1 ++ e.1).isEmpty, ((scanMinus s).1 ++ n) ++ (f.1 ++ e.1)), e.2)

/-- The pieces of a string up to its closing quote, and the text after it. -/
def scanString : Str → Except (Failure ε) (List Piece × Str)
  | [] => .error (.decode .unterminatedString)
  | c :: s =>
      if c = ('"' : Char) then .ok ([], s)
      else if c = ('\\' : Char) then
        match s with
        | [] => .error (.decode .unterminatedString)
        | e :: s =>
            if e = ('u' : Char) then
              match s with
              | a :: b :: c :: d :: x :: s =>
                  match hex4 a b c d with
                  | some n => do
                      let (ps, rest) ← scanString (x :: s)
                      return (.unit (chr n) :: ps, rest)
                  | none => .error (.decode .invalidUnicodeEscape)
              | _ => .error (.decode .invalidUnicodeEscape)
            else
              match simpleEscape e with
              | some c => do
                  let (ps, rest) ← scanString s
                  return (.char c :: ps, rest)
              | none => .error (.decode .invalidEscape)
      else if c.ord < 0x20 then .error (.decode .invalidControlCharacter)
      else do
        let (ps, rest) ← scanString s
        return (.char c :: ps, rest)

/-- An exception of a hook, as an exception of the decoder. -/
def ofHook : Except ε V → Except (Failure ε) V
  | .ok v => .ok v
  | .error e => .error (.hook e)

/-- The colon after a member name, with the whitespace around it. -/
def scanColon (s : Str) : Except (Failure ε) Str :=
  match skipWs s with
  | c :: s => if c = (':' : Char) then .ok (skipWs s) else .error (.decode .expectingColon)
  | [] => .error (.decode .expectingColon)

/-- A member name with its quotes and the colon after it. -/
def scanName : Str → Except (Failure ε) (Str × Str)
  | c :: s =>
      if c = ('"' : Char) then do
        let (ps, rest) ← scanString s
        return (joinPieces ps, ← scanColon rest)
      else .error (.decode .expectingPropertyName)
  | [] => .error (.decode .expectingPropertyName)

/-- A number, or the error that no value begins here. -/
def scanNumber (h : Hooks ε V) (s : Str) : Except (Failure ε) (V × Str) :=
  match matchNumber s with
  | some ((isFloat, t), rest) => do
      let v ← ofHook (if isFloat then h.float t else h.int t)
      return (v, rest)
  | none => .error (.decode .expectingValue)

/-- A value that is neither a string nor a container. -/
def scanAtom (h : Hooks ε V) (s : Str) : Except (Failure ε) (V × Str) :=
  match dropPrefix? (lit "null") s with
  | some rest => .ok (h.null, rest)
  | none => match dropPrefix? (lit "true") s with
    | some rest => .ok (h.bool true, rest)
    | none => match dropPrefix? (lit "false") s with
      | some rest => .ok (h.bool false, rest)
      | none => match constants.find? (fun t => (dropPrefix? t s).isSome) with
        | some t => do
            let v ← ofHook (h.constant t)
            return (v, s.drop t.length)
        | none => scanNumber h s

mutual

/-- `scan_once`: the value at the front of a text, and the text after it. -/
def scanOnce (h : Hooks ε V) : ℕ → ℕ → Str → Except (Failure ε) (V × Str)
  | _, _, [] => .error (.decode .expectingValue)
  | 0, _, _ :: _ => .error .recursion
  | fuel + 1, depth, c :: s =>
      if c = ('"' : Char) then do
        let (ps, rest) ← scanString s
        return (h.string (joinPieces ps), rest)
      else if c = ('{' : Char) then
        match depth with
        | 0 => .error .recursion
        | depth + 1 =>
            match skipWs s with
            | d :: rest =>
                if d = ('}' : Char) then do
                  let v ← ofHook (h.object [])
                  return (v, rest)
                else do
                  let (ms, rest) ← scanMembers h fuel depth (d :: rest)
                  let v ← ofHook (h.object ms)
                  return (v, rest)
            | [] => .error (.decode .expectingPropertyName)
      else if c = ('[' : Char) then
        match depth with
        | 0 => .error .recursion
        | depth + 1 =>
            match skipWs s with
            | d :: rest =>
                if d = (']' : Char) then .ok (h.array [], rest)
                else do
                  let (vs, rest) ← scanItems h fuel depth (d :: rest)
                  return (h.array vs, rest)
            | [] => .error (.decode .expectingValue)
      else scanAtom h (c :: s)

/-- The items of an array up to its closing bracket. -/
def scanItems (h : Hooks ε V) : ℕ → ℕ → Str → Except (Failure ε) (List V × Str)
  | 0, _, _ => .error .recursion
  | fuel + 1, depth, s => do
      let (v, s) ← scanOnce h fuel depth s
      match skipWs s with
      | c :: s =>
          if c = (']' : Char) then .ok ([v], s)
          else if c = (',' : Char) then do
            let (vs, rest) ← scanItems h fuel depth (skipWs s)
            return (v :: vs, rest)
          else .error (.decode .expectingComma)
      | [] => .error (.decode .expectingComma)

/-- The members of an object up to its closing brace. -/
def scanMembers (h : Hooks ε V) : ℕ → ℕ → Str → Except (Failure ε) (List (Str × V) × Str)
  | 0, _, _ => .error .recursion
  | fuel + 1, depth, s => do
      let (k, s) ← scanName s
      let (v, s) ← scanOnce h fuel depth s
      match skipWs s with
      | c :: s =>
          if c = ('}' : Char) then .ok ([(k, v)], s)
          else if c = (',' : Char) then do
            let (ms, rest) ← scanMembers h fuel depth (skipWs s)
            return ((k, v) :: ms, rest)
          else .error (.decode .expectingComma)
      | [] => .error (.decode .expectingComma)

end

/-- `JSONDecoder.raw_decode` at the front of a text, under a recursion limit. -/
def rawDecode (h : Hooks ε V) (limit : ℕ) (s : Str) : Except (Failure ε) (V × Str) :=
  scanOnce h (2 * s.length) limit s

/-- `json.loads` of a string, under a recursion limit. -/
def loads (h : Hooks ε V) (limit : ℕ) (s : Str) : Except (Failure ε) V :=
  if s.head? = some (chr 0xFEFF) then .error (.decode .unexpectedBom)
  else do
    let (v, rest) ← rawDecode h limit (skipWs s)
    if skipWs rest = [] then .ok v else .error (.decode .extraData)

end Json
