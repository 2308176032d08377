import MarketIntelligence.Python.Values

/-!
# Reading text and JSON files

`read_text(encoding="utf-8")` decodes strictly and translates line ends. A file
whose text is then given to `json.loads` can fail in three ways that the callers
tell apart.
-/

namespace Python

open Json

/-- The continuation bits of a byte, if it is a continuation byte. -/
def continuation (b : UInt8) : Option ℕ :=
  if 0x80 ≤ b.toNat ∧ b.toNat < 0xC0 then some (b.toNat - 0x80) else none

/-- Strict UTF-8 decoding: overlong forms, surrogates and numbers beyond the last code
point are errors. -/
def decodeUtf8 : List UInt8 → Option Str
  | [] => some []
  | a :: bs =>
      let n := a.toNat
      if n < 0x80 then (decodeUtf8 bs).map fun s => chr n :: s
      else match bs with
        | [] => none
        | b :: cs => do
            let x ← continuation b
            let two := (n - 0xC0) * 0x40 + x
            if n < 0xE0 then
              if 0x80 ≤ two ∧ 0xC0 ≤ n then (decodeUtf8 cs).map fun s => chr two :: s else none
            else match cs with
              | [] => none
              | c :: ds => do
                  let y ← continuation c
                  let three := ((n - 0xE0) * 0x40 + x) * 0x40 + y
                  if n < 0xF0 then
                    if 0x800 ≤ three ∧ (chr three).isSurrogate = false then
                      (decodeUtf8 ds).map fun s => chr three :: s
                    else none
                  else match ds with
                    | [] => none
                    | d :: es => do
                        let z ← continuation d
                        let four := (((n - 0xF0) * 0x40 + x) * 0x40 + y) * 0x40 + z
                        if 0x10000 ≤ four ∧ four < 0x110000 then
                          (decodeUtf8 es).map fun s => chr four :: s
                        else none

/-- Universal newlines: both `\r\n` and a lone `\r` become `\n`. -/
def universalNewlines : Str → Str
  | [] => []
  | [c] => if c = chr 0x0D then [chr 0x0A] else [c]
  | c :: d :: s =>
      if c = chr 0x0D then
        if d = chr 0x0A then universalNewlines (d :: s)
        else chr 0x0A :: universalNewlines (d :: s)
      else c :: universalNewlines (d :: s)

/-- `path.read_text(encoding="utf-8")` on the bytes of a file. -/
def readText (content : List UInt8) : Except BuiltinError Str :=
  match decodeUtf8 content with
  | some s => .ok (universalNewlines s)
  | none => .error .unicodeDecodeError

variable {F : Type} [PyFloat F]

/-- `json.loads(text)`, with the built-in exceptions it raises. -/
def jsonLoads (limits : Limits) (text : Str) : Except BuiltinError (Data F) :=
  match loads (dataHooks limits) limits.nesting text with
  | .ok value => .ok value
  | .error (.decode _) => .error .jsonDecodeError
  | .error .recursion => .error .recursionError
  | .error (.hook ()) => .error .valueError

/-- `json.loads(path.read_text(encoding="utf-8"))` on the bytes of a file. -/
def readJson (limits : Limits) (content : List UInt8) : Except BuiltinError (Data F) := do
  jsonLoads limits (← readText content)

/-- The value of an ASCII text file. -/
def asciiBytes (s : Str) : List UInt8 := s.map fun c => UInt8.ofNat c.ord

/-- The 64 hexadecimal digits of a digest. -/
def digestDigits (digest : ℕ) : List (Fin 16) :=
  (List.range 64).map fun i => Fin.ofNat 16 (digest / 16 ^ (63 - i))

end Python
