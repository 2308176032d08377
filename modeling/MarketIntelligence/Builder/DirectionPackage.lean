import MarketIntelligence.Json.Encoder
import MarketIntelligence.Python.Object

/-!
# Direction packages

`MarketDirectionPackageV1Alpha1` and the claims in it. Validation reads the fields of an
untyped input strictly, one after the other, and then the identity is derived from the
JSON form of all other fields. Strict validation takes instances of a type and of its
subclasses, and for a literal whatever equals it. References to artifacts and `canonical_hash`
belong to Core and are parameters.
-/

namespace MarketIntelligence.Direction

open Python

/-! ### What validation rests on -/

/-- JSON data. No float occurs in the data of packages. -/
abbrev JsonData : Type := Data Unit

/-- Why an input is refused: a field is not as it is declared, or a validator raised
`ValueError(message)`. -/
inductive Invalid
  | field (name : String)
  | value (message : Str)

/-- A part of the validation. -/
abbrev Checked (α : Type) : Type := Except (Raised Invalid) α

/-- What Core contributes. `none` stands for an exception. -/
structure Core (Ref : Type) where
  /-- The validation of an `ExactArtifactReferenceV1Alpha1`. -/
  reference : Obj → Option Ref
  /-- Its `model_dump(mode="python")`. -/
  dump : Ref → Obj
  /-- Its `model_dump(mode="json")`. -/
  json : Ref → JsonData
  artifactId : Ref → Str
  artifactDigest : Ref → Str
  artifactContract : Ref → Str
  /-- The JSON form of a datetime. -/
  datetimeJson : AwareDatetime → Str
  /-- The hexadecimal digits of `canonical_hash`. -/
  canonicalHash : JsonData → Option (List (Fin 16))

/-- `raise ValueError(message)`. -/
def valueError {α : Type} (message : Str) : Checked α := .error (.own (.value message))

/-- A field that is not as it is declared. -/
def fieldError {α : Type} (name : String) : Checked α := .error (.own (.field name))

/-! ### Texts -/

/-- Non-empty, trimmed and not too long. -/
def Bounded (value : Str) (maximum : ℕ) : Prop :=
  value ≠ [] ∧ value = Str.strip value ∧ value.length ≤ maximum

instance (value : Str) (maximum : ℕ) : Decidable (Bounded value maximum) :=
  inferInstanceAs (Decidable (_ ∧ _ ∧ _))

/-- The message of `_bounded`. -/
def boundedMessage (name : String) (maximum : ℕ) : Str :=
  lit name ++ lit " must be non-empty, trimmed, and at most " ++ Json.natDigits maximum ++
    lit " characters"

/-- `_bounded`, which returns the value. -/
def bounded (value : Str) (name : String) (maximum : ℕ) :
    Checked {s : Str // s = value ∧ Bounded s maximum} :=
  if h : Bounded value maximum then .ok ⟨value, rfl, h⟩
  else valueError (boundedMessage name maximum)

/-- `_unique`, which returns the values. -/
def unique (values : List Str) (name : String) :
    Checked {xs : List Str // xs = values ∧ (∀ x ∈ xs, Bounded x 4000) ∧ xs.Nodup} :=
  if hbounded : ∀ x ∈ values, Bounded x 4000 then
    if hnodup : values.Nodup then .ok ⟨values, rfl, hbounded, hnodup⟩
    else valueError (lit name ++ lit " must be unique")
  else valueError (boundedMessage name 4000)

/-! ### Declared fields -/

/-- A field without default. -/
def required {α : Type} (read : Obj → Checked α) (fields : List (Str × Obj)) (name : String) :
    Checked α :=
  match fields.lookup (lit name) with
  | some o => read o
  | none => fieldError name

/-- The value of a field with a default. -/
def valueOf (fields : List (Str × Obj)) (name : String) (fallback : Obj) : Obj :=
  (fields.lookup (lit name)).getD fallback

/-- `extra="forbid"`. -/
def forbidExtra (fields : List (Str × Obj)) (declared : List String) : Checked Unit :=
  match fields.find? fun m => !decide (m.1 ∈ declared.map lit) with
  | none => .ok ()
  | some _ => fieldError "extra"

/-- `str`. -/
def readStr (name : String) (o : Obj) : Checked Str :=
  match o.base with
  | .str s => .ok s
  | _ => fieldError name

/-- A text that passed `_bounded`. -/
abbrev BoundedText (maximum : ℕ) : Type := {s : Str // Bounded s maximum}

/-- `str`, with `_bounded` as its validator. -/
def readText (name : String) (maximum : ℕ) (o : Obj) : Checked (BoundedText maximum) := do
  let text ← bounded (← readStr name o) name maximum
  return ⟨text.val, text.property.2⟩

/-- A text that also passed `Field(max_length=4_000)`, which wants valid Unicode. -/
abbrev Prose : Type := {s : Str // s.Encodable ∧ Bounded s 4000}

/-- `str = Field(max_length=4_000)`, with `_bounded` as its validator. -/
def readProse (name : String) (o : Obj) : Checked Prose := do
  let value ← readStr name o
  if h : value.Encodable ∧ value.length ≤ 4000 then do
    let text ← bounded value name 4000
    return ⟨text.val, by rw [text.property.1]; exact h.1, text.property.2⟩
  else fieldError name

/-- The items of a tuple. -/
def readItems {α : Type} (item : Obj → Checked α) : List Obj → Checked (List α)
  | [] => .ok []
  | x :: xs => do return (← item x) :: (← readItems item xs)

/-- A list within the declared bounds of its length. -/
abbrev Within (α : Type) (minimum maximum : ℕ) : Type :=
  {xs : List α // minimum ≤ xs.length ∧ xs.length ≤ maximum}

/-- `tuple[..., ...] = Field(min_length=..., max_length=...)`. -/
def readTuple {α : Type} (item : Obj → Checked α) (name : String) (minimum maximum : ℕ)
    (o : Obj) : Checked (Within α minimum maximum) :=
  match o.base with
  | .tuple xs => do
      let items ← readItems item xs
      if h : minimum ≤ items.length ∧ items.length ≤ maximum then .ok ⟨items, h⟩
      else fieldError name
  | _ => fieldError name

/-- The texts of a section. -/
abbrev Section (minimum maximum : ℕ) : Type :=
  {xs : List Str // (minimum ≤ xs.length ∧ xs.length ≤ maximum) ∧
    (∀ x ∈ xs, Bounded x 4000) ∧ xs.Nodup}

/-- `tuple[str, ...]`, with `_unique` as its validator. -/
def readSection (name : String) (minimum maximum : ℕ) (o : Obj) :
    Checked (Section minimum maximum) := do
  let values ← readTuple (readStr name) name minimum maximum o
  let texts ← unique values.val name
  return ⟨texts.val, by rw [texts.property.1]; exact values.property, texts.property.2⟩

/-- A literal string with itself as its default. -/
def readLiteral (name : String) (value : Str) (o : Obj) : Checked Unit :=
  if o.equalsStr value then .ok () else fieldError name

/-- `Literal[False]`, which takes what equals `False` and stores `False`. -/
def readFalse (name : String) (o : Obj) : Checked Unit :=
  if o.equalsFalse then .ok () else fieldError name

/-- A datetime in UTC. -/
abbrev UtcTime : Type := {t : AwareDatetime // t.offset = 0}

/-- `datetime`, with `normalize_time` as its validator. -/
def readTime (name : String) (o : Obj) : Checked UtcTime :=
  match o.base with
  | .datetime (.aware _ t _) =>
      match h : t.astimezoneUtc with
      | some u => .ok ⟨u, (AwareDatetime.astimezoneUtc_spec h).2⟩
      | none => .error (.builtin .overflowError)
  | .datetime (.raising _ _ e) =>
      -- pydantic reports a `ValueError` of a validator as that of the field
      if e.caughtBy .valueError then fieldError name else .error (.builtin e)
  | .datetime _ => valueError (lit "prepared_at must include a timezone")
  | _ => fieldError name

/-! ### Claims -/

variable {Ref : Type}

/-- What the citations of a claim are compared by. -/
def Core.identity (core : Core Ref) (r : Ref) : Str × Str × Str :=
  (core.artifactId r, core.artifactDigest r, core.artifactContract r)

/-- A field that holds a reference. -/
def readReference (core : Core Ref) (o : Obj) : Checked Ref :=
  match core.reference o with
  | some r => .ok r
  | none => .error .foreign

/-- `ApprovedMarketClaimV1Alpha1`, after its validation. -/
@[ext] structure Claim (core : Core Ref) where
  claimId : BoundedText 240
  statement : Prose
  citations : {cs : List Ref // (1 ≤ cs.length ∧ cs.length ≤ 32) ∧ (cs.map core.identity).Nodup}
  approvalRef : BoundedText 240
  limitations : Section 0 16

/-- The fields that a claim declares. -/
def claimFields : List String :=
  ["claim_id", "statement", "citations", "approval_ref", "limitations", "status"]

/-- `validate_citations`. -/
def validateCitations (core : Core Ref) (citations : Within Ref 1 32) :
    Checked {cs : List Ref // (1 ≤ cs.length ∧ cs.length ≤ 32) ∧
      (cs.map core.identity).Nodup} :=
  if h : (citations.val.map core.identity).Nodup then .ok ⟨citations.val, citations.property, h⟩
  else valueError (lit "claim citations must be unique")

/-- A claim from the values of its fields. -/
def claimOf (core : Core Ref) (fields : List (Str × Obj)) : Checked (Claim core) := do
  forbidExtra fields claimFields
  let claimId ← required (readText "claim_id" 240) fields "claim_id"
  let statement ← required (readProse "statement") fields "statement"
  let citations ← required (readTuple (readReference core) "citations" 1 32) fields "citations"
  let approvalRef ← required (readText "approval_ref" 240) fields "approval_ref"
  let limitations ← readSection "limitations" 0 16 (valueOf fields "limitations" (.tuple []))
  readLiteral "status" (lit "approved") (valueOf fields "status" (.str (lit "approved")))
  let citations ← validateCitations core citations
  return { claimId, statement, citations, approvalRef, limitations }

/-- The fields of a dictionary or of an instance of a model, which is revalidated. -/
def fieldsOf (cls : String) (o : Obj) : Option (List (Str × Obj)) :=
  match o.base with
  | .dict fields => some fields
  | .model c fields => if c = lit cls then some fields else none
  | _ => none

/-- The validation of a claim. -/
def readClaim (core : Core Ref) (o : Obj) : Checked (Claim core) :=
  match fieldsOf "ApprovedMarketClaimV1Alpha1" o with
  | some fields => claimOf core fields
  | none => fieldError "approved_claims"

/-! ### Packages -/

/-- `MARKET_DIRECTION_PACKAGE_VERSION`. -/
def directionPackageVersion : Str := lit "ace.market-intelligence.direction-package/v1alpha1"

/-- The fields of a `MarketDirectionPackageV1Alpha1` other than its identity, after their
validation. Fields with one possible value are left out. -/
@[ext] structure Material (core : Core Ref) where
  productId : BoundedText 240
  sourceBrief : {r : Ref // core.artifactContract r = lit "ace.intelligence.brief/v1alpha1"}
  decision : {r : Ref // core.artifactContract r = lit "ace.core.decision/v1alpha1"}
  objective : Prose
  audience : Section 1 16
  storyArchitecture : Section 1 16
  contentHierarchy : Section 1 32
  approvedClaims : {cs : List (Claim core) // (1 ≤ cs.length ∧ cs.length ≤ 64) ∧
    (cs.map fun c => c.claimId.val).Nodup}
  constraints : Section 1 32
  openQuestions : Section 0 32
  requiredAssets : Section 1 32
  preparedAt : UtcTime

/-- The fields that a package declares. -/
def packageFields : List String :=
  ["contract", "product_id", "source_brief", "decision", "objective", "audience",
    "story_architecture", "content_hierarchy", "approved_claims", "constraints",
    "open_questions", "required_assets", "delivery_authority", "external_effect_occurred",
    "prepared_at", "package_id", "package_digest"]

/-- A reference with the contract that a field wants. -/
def exactContract (core : Core Ref) (r : Ref) (contract message : String) :
    Checked {r : Ref // core.artifactContract r = lit contract} :=
  if h : core.artifactContract r = lit contract then .ok ⟨r, h⟩ else valueError (lit message)

/-- The first checks of `validate_sources_and_identity`. -/
def uniqueClaims (core : Core Ref) (claims : Within (Claim core) 1 64) :
    Checked {cs : List (Claim core) // (1 ≤ cs.length ∧ cs.length ≤ 64) ∧
      (cs.map fun c => c.claimId.val).Nodup} :=
  if h : (claims.val.map fun c => c.claimId.val).Nodup then .ok ⟨claims.val, claims.property, h⟩
  else valueError (lit "approved claim identities must be unique")

/-- The material from the values of the fields. -/
def materialOf (core : Core Ref) (fields : List (Str × Obj)) : Checked (Material core) := do
  readLiteral "contract" directionPackageVersion
    (valueOf fields "contract" (.str directionPackageVersion))
  let productId ← required (readText "product_id" 240) fields "product_id"
  let sourceBrief ← required (readReference core) fields "source_brief"
  let decision ← required (readReference core) fields "decision"
  let objective ← required (readProse "objective") fields "objective"
  let audience ← required (readSection "audience" 1 16) fields "audience"
  let storyArchitecture ←
    required (readSection "story_architecture" 1 16) fields "story_architecture"
  let contentHierarchy ← required (readSection "content_hierarchy" 1 32) fields "content_hierarchy"
  let claims ← required (readTuple (readClaim core) "approved_claims" 1 64) fields "approved_claims"
  let constraints ← required (readSection "constraints" 1 32) fields "constraints"
  let openQuestions ←
    readSection "open_questions" 0 32 (valueOf fields "open_questions" (.tuple []))
  let requiredAssets ← required (readSection "required_assets" 1 32) fields "required_assets"
  readFalse "delivery_authority" (valueOf fields "delivery_authority" (.bool false))
  readFalse "external_effect_occurred" (valueOf fields "external_effect_occurred" (.bool false))
  let preparedAt ← required (readTime "prepared_at") fields "prepared_at"
  let sourceBrief ← exactContract core sourceBrief "ace.intelligence.brief/v1alpha1"
    "direction package requires one exact canonical Brief"
  let decision ← exactContract core decision "ace.core.decision/v1alpha1"
    "direction package requires one exact user Decision"
  let approvedClaims ← uniqueClaims core claims
  return { productId, sourceBrief, decision, objective, audience, storyArchitecture,
           contentHierarchy, approvedClaims, constraints, openQuestions, requiredAssets,
           preparedAt }

/-! ### Identity -/

/-- A JSON list of texts. -/
def textsJson (texts : List Str) : JsonData := .list (texts.map .str)

/-- A claim inside `model_dump(mode="json")`. -/
def Claim.json {core : Core Ref} (c : Claim core) : JsonData :=
  .dict [(lit "claim_id", .str c.claimId.val), (lit "statement", .str c.statement.val),
    (lit "citations", .list (c.citations.val.map core.json)),
    (lit "approval_ref", .str c.approvalRef.val),
    (lit "limitations", textsJson c.limitations.val), (lit "status", .str (lit "approved"))]

/-- `model_dump(mode="json", exclude=...)` without the identity. -/
def Material.json {core : Core Ref} (m : Material core) : JsonData :=
  .dict [(lit "contract", .str directionPackageVersion),
    (lit "product_id", .str m.productId.val), (lit "source_brief", core.json m.sourceBrief.val),
    (lit "decision", core.json m.decision.val), (lit "objective", .str m.objective.val),
    (lit "audience", textsJson m.audience.val),
    (lit "story_architecture", textsJson m.storyArchitecture.val),
    (lit "content_hierarchy", textsJson m.contentHierarchy.val),
    (lit "approved_claims", .list (m.approvedClaims.val.map Claim.json)),
    (lit "constraints", textsJson m.constraints.val),
    (lit "open_questions", textsJson m.openQuestions.val),
    (lit "required_assets", textsJson m.requiredAssets.val),
    (lit "delivery_authority", .bool false), (lit "external_effect_occurred", .bool false),
    (lit "prepared_at", .str (core.datetimeJson m.preparedAt.val))]

/-- Hexadecimal digits as text. -/
def hexText (digits : List (Fin 16)) : Str := digits.map fun d => Json.hexDigit d.val

/-- `expected_id`. -/
def expectedId (digits : List (Fin 16)) : Str :=
  lit "market_direction_package:" ++ hexText (digits.take 32)

/-- `expected_digest`. -/
def expectedDigest (digits : List (Fin 16)) : Str := lit "sha256:" ++ hexText digits

/-- The pattern `^sha256:[a-f0-9]{64}$`. -/
def isDigest (s : Str) : Bool :=
  s.take 7 = lit "sha256:" && (s.drop 7).length = 64 &&
    (s.drop 7).all fun c => c.isDigit || (0x61 ≤ c.ord && c.ord ≤ 0x66)

/-- `str | None = None`, with a check of the text. -/
def readOptional (name : String) (check : Str → Bool) (o : Obj) : Checked (Option Str) :=
  match o.base with
  | .none => .ok none
  | .str s => if check s then .ok (some s) else fieldError name
  | _ => fieldError name

/-- A `MarketDirectionPackageV1Alpha1` after its validation: its identity is the one that
is derived from its material. -/
@[ext] structure Package (core : Core Ref) where
  material : Material core
  packageId : Str
  packageDigest : Str
  identity : ∃ digits, core.canonicalHash material.json = some digits ∧
    packageId = expectedId digits ∧ packageDigest = expectedDigest digits

/-- The last part of `validate_sources_and_identity`. -/
def identified (core : Core Ref) (material : Material core) (givenId givenDigest : Option Str) :
    Checked (Package core) :=
  match h : core.canonicalHash material.json with
  | none => .error .foreign
  | some digits =>
      if givenId ≠ none ∧ givenId ≠ some (expectedId digits) then
        valueError (lit "package_id does not match exact direction material")
      else if givenDigest ≠ none ∧ givenDigest ≠ some (expectedDigest digits) then
        valueError (lit "package_digest does not match exact direction material")
      else .ok ⟨material, expectedId digits, expectedDigest digits, digits, h, rfl, rfl⟩

/-- A package from the values of its fields. -/
def packageOf (core : Core Ref) (fields : List (Str × Obj)) : Checked (Package core) := do
  forbidExtra fields packageFields
  let givenId ← readOptional "package_id" (fun _ => true) (valueOf fields "package_id" .none)
  let givenDigest ← readOptional "package_digest" isDigest (valueOf fields "package_digest" .none)
  let material ← materialOf core fields
  identified core material givenId givenDigest

/-- `MarketDirectionPackageV1Alpha1.model_validate`. -/
def modelValidate (core : Core Ref) (o : Obj) : Checked (Package core) :=
  match fieldsOf "MarketDirectionPackageV1Alpha1" o with
  | some fields => packageOf core fields
  | none => fieldError "package"

/-! ### Dumps -/

/-- A tuple of texts. -/
def textsObj (texts : List Str) : Obj := .tuple (texts.map .str)

/-- A claim inside `model_dump(mode="python")`. -/
def Claim.dump {core : Core Ref} (c : Claim core) : Obj :=
  .dict [(lit "claim_id", .str c.claimId.val), (lit "statement", .str c.statement.val),
    (lit "citations", .tuple (c.citations.val.map core.dump)),
    (lit "approval_ref", .str c.approvalRef.val),
    (lit "limitations", textsObj c.limitations.val), (lit "status", .str (lit "approved"))]

/-- `model_dump(mode="python")` of a validated package. -/
def Package.dump {core : Core Ref} (p : Package core) : List (Str × Obj) :=
  [(lit "contract", .str directionPackageVersion),
    (lit "product_id", .str p.material.productId.val),
    (lit "source_brief", core.dump p.material.sourceBrief.val),
    (lit "decision", core.dump p.material.decision.val),
    (lit "objective", .str p.material.objective.val),
    (lit "audience", textsObj p.material.audience.val),
    (lit "story_architecture", textsObj p.material.storyArchitecture.val),
    (lit "content_hierarchy", textsObj p.material.contentHierarchy.val),
    (lit "approved_claims", .tuple (p.material.approvedClaims.val.map Claim.dump)),
    (lit "constraints", textsObj p.material.constraints.val),
    (lit "open_questions", textsObj p.material.openQuestions.val),
    (lit "required_assets", textsObj p.material.requiredAssets.val),
    (lit "delivery_authority", .bool false), (lit "external_effect_occurred", .bool false),
    (lit "prepared_at", .datetime (.aware Datetime.utcZone p.material.preparedAt.val false)),
    (lit "package_id", .str p.packageId), (lit "package_digest", .str p.packageDigest)]

end MarketIntelligence.Direction
