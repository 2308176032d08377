import MarketIntelligence.Json.Data
import MarketIntelligence.Python.Object

/-!
# The canonical public-product payload

The response body of a retrieval is untrusted text. `canonicalProductPayload`
decodes it with hooks that refuse duplicate names and non-finite tokens, checks
that exactly three members are there, validates each of them as text, and writes
them back through Core's `canonical_json`.
-/

namespace MarketIntelligence.PublicProduct

open Python Json

/-- The adapter's exception class, a `ValueError` with a message. -/
structure PublicProductSourceAdapterError where
  message : Str
  deriving DecidableEq

/-- What the adapter's functions can raise. -/
abbrev Exc := Raised PublicProductSourceAdapterError

/-- `_fail`. -/
def fail (message : Str) : Exc := .own ⟨message⟩

/-- `MAX_RESPONSE_BODY_CHARS`. -/
def maxResponseBodyChars : ℤ := 16384

/-- `MAX_PRODUCT_NAME_CHARS`. -/
def maxProductNameChars : ℕ := 256

/-- `MAX_PRICE_TEXT_CHARS`. -/
def maxPriceTextChars : ℕ := 64

variable {F : Type}

/-- The loop of `_unique_object` over the pairs that are left. -/
def uniqueObjectLoop : List (Str × Data F) → List (Str × Data F) →
    Except Exc (List (Str × Data F))
  | result, [] => .ok result
  | result, (key, value) :: pairs =>
      if key ∈ result.map Prod.fst then
        .error (fail (lit "duplicate public-product field: " ++ key))
      else uniqueObjectLoop (result ++ [(key, value)]) pairs

/-- `_unique_object`: the object hook that refuses a repeated name. -/
def uniqueObject (pairs : List (Str × Data F)) : Except Exc (Data F) := do
  return .dict (← uniqueObjectLoop [] pairs)

/-- `_reject_constant`: the constant hook that refuses every token. -/
def rejectConstant (value : Str) : Except Exc (Data F) :=
  .error (fail (lit "non-finite JSON token is not allowed: " ++ value))

/-- The hooks of the adapter's `json.loads`. -/
def payloadHooks [PyFloat F] (limits : Limits) : Hooks Exc (Data F) where
  null := .none
  bool := .bool
  int t := if tooManyDigits limits t then .error (.builtin .valueError)
    else .ok (.int (intOfText t))
  float t := .ok (.float (PyFloat.ofText t))
  constant := rejectConstant
  string := .str
  array := .list
  object := uniqueObject

/-- The exception that a failed `json.loads` raises. -/
def decodingError : Failure Exc → Exc
  | .decode _ => .builtin .jsonDecodeError
  | .recursion => .builtin .recursionError
  | .hook e => e

/-- The handlers around `json.loads`: the adapter's own errors pass, and type,
value and recursion errors become one. -/
def handleDecodingError : Exc → Exc
  | .own e => .own e
  | .builtin e =>
      if e.caughtBy .typeError || e.caughtBy .valueError || e.caughtBy .recursionError then
        fail (lit "public-product response body is not unambiguous bounded JSON")
      else .builtin e
  | .foreign => .foreign

/-- The decimal digits of a number in an error message. -/
def natText (n : ℕ) : Str := lit (toString n)

/-- The characters that `_validate_scalar_text` refuses: controls, DEL and lone
surrogates. -/
def isForbiddenCharacter (character : Chr) : Bool :=
  character.ord < 0x20 || character.ord == 0x7F || character.isSurrogate

/-- `_validate_scalar_text`. -/
def validateScalarText (value : Data F) (name : Str) (minimum maximum : ℕ) : Except Exc Str :=
  let lengthError : Exc := fail
    (name ++ lit " must be text with length " ++ natText minimum ++ lit ".." ++ natText maximum)
  match value with
  | .str s =>
      if ¬(minimum ≤ s.length ∧ s.length ≤ maximum) then .error lengthError
      else if s.any isForbiddenCharacter then
        .error (fail (name ++ lit " contains controls, DEL, or a lone surrogate"))
      else .ok s
  | _ => .error lengthError

/-- `_DECIMAL_TEXT.fullmatch(text) is not None`. -/
def decimalTextFullmatch (text : Str) : Bool :=
  match scanNatural text with
  | some (_, rest) => (scanFrac rest).2 == []
  | none => false

/-- `d[key]` on the members of a dictionary. -/
def getItem (ms : List (Str × Data F)) (key : Str) : Except Exc (Data F) :=
  match ms.find? fun m => m.1 = key with
  | some m => .ok m.2
  | none => .error (.builtin .keyError)

/-- `set(payload) == required`. -/
def hasExactly (ms : List (Str × Data F)) (required : List Str) : Bool :=
  ms.all (fun m => m.1 ∈ required) && required.all fun key => key ∈ ms.map Prod.fst

/-- The three canonical member names. -/
def required : List Str := [lit "product_name", lit "listed_price", lit "currency"]

/-- The dictionary that is handed to `canonical_json`. -/
def canonicalFields (productName listedPrice currency : Str) : List (Str × Str) :=
  [(lit "product_name", productName), (lit "listed_price", listedPrice), (lit "currency", currency)]

/-- A dictionary of strings. -/
def strDict (ms : List (Str × Str)) : Data F := .dict (ms.map fun m => (m.1, .str m.2))

/-- The checks on a decoded payload, up to the fields of the canonical record. -/
def validatePayload (payload : Data F) : Except Exc (List (Str × Str)) :=
  match payload with
  | .dict ms =>
      if hasExactly ms required then do
        let productName ← validateScalarText (← getItem ms (lit "product_name"))
          (lit "product_name") 1 maxProductNameChars
        let listedPrice ← validateScalarText (← getItem ms (lit "listed_price"))
          (lit "listed_price") 1 maxPriceTextChars
        if decimalTextFullmatch listedPrice then
          let currency ← validateScalarText (← getItem ms (lit "currency")) (lit "currency") 3 3
          if currency.isAscii && currency.isUpper && currency.isAlpha then
            return canonicalFields productName listedPrice currency
          else .error (fail (lit "currency must be exactly three uppercase ASCII letters"))
        else .error (fail (lit "listed_price must remain faithful bounded decimal text"))
      else .error (fail
        (lit "public-product response must contain exactly the canonical three fields"))
  | _ => .error (fail (lit "public-product response must be one JSON object"))

/-- `_canonical_product_payload`, for Core's `canonical_json` and the limits of
the interpreter. -/
def canonicalProductPayload [PyFloat F] (limits : Limits) (canonicalJson : Data F → Str)
    (responseBody : Obj) (maxChars : ℤ) : Except Exc Str :=
  match responseBody with
  | .str body =>
      if body = [] ∨ maxChars < body.length then
        .error (fail (lit "public-product response body exceeded its exact character bound"))
      else
        match loads (payloadHooks (F := F) limits) limits.nesting body with
        | .ok payload => do return canonicalJson (strDict (← validatePayload payload))
        | .error e => .error (handleDecodingError (decodingError e))
  | _ => .error (fail (lit "public-product response body must be text"))

end MarketIntelligence.PublicProduct
