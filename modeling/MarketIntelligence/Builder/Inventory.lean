import MarketIntelligence.Python.Datetime
import MarketIntelligence.Python.Files

/-!
# The recorded-source inventory and its two readers

The planner proposes source selections and the executor binds source materials, both
from the packaged inventory file. Each has a loader of its own. Core's constructors and
`canonical_hash`, and `datetime.fromisoformat`, are parameters.
-/

namespace MarketIntelligence.Builder

open Python

/-- `MarketIntelligenceBuilderExecutorError`. -/
structure ExecutorError where
  message : Str
  deriving DecidableEq

/-- `MarketIntelligenceBuilderPlannerError`. -/
structure PlannerError where
  message : Str
  deriving DecidableEq

/-- An exception of the executor. -/
def executorError {α : Type} (message : String) : Except (Raised ExecutorError) α :=
  .error (.own ⟨lit message⟩)

/-- An exception of the planner. -/
def plannerError {α : Type} (message : String) : Except (Raised PlannerError) α :=
  .error (.own ⟨lit message⟩)

/-- `SUPPORTED_RECORDED_SOURCE_GROUP_IDS`. -/
def supportedRecordedSourceGroupIds : List Str := [lit "competitor_public_evidence"]

/-- `_SUBJECT_BINDING_ID`. -/
def subjectBindingId : Str := lit "listed_product"

/-- `_ENTITY_TYPE_ID`. -/
def entityTypeId : Str := lit "product"

/-- `_ENTITY_REF`. -/
def entityRef : Str := lit "product:gpt-5-6-terra-input-tokens"

/-- `_INVENTORY_DIGEST`. -/
def inventoryDigest : Str := lit "14e2c03c1dd2d329323d504b062423ec7770263e2fd35cadad8135d59d84d57f"

/-- The arguments of `RecordedSourceMaterialV1Alpha1`. The executor does not pass an
effective time, which then is absent. -/
structure RecordedSourceMaterial (F Subject : Type) where
  sourceGroupId : Data F
  mappingId : Data F
  subjectBinding : Subject
  sourceDefinitionRef : Data F
  sourceTypeRef : Data F
  sourceUri : Data F
  capturedPayloadJson : Data F
  capturedPayloadDigest : Data F
  sourcePublishedAt : AwareDatetime
  eventEffectiveAt : Option AwareDatetime := none
  observedAt : AwareDatetime
  locator : Data F

/-- The arguments of `RecordedSourceSelectionV1Alpha1` that come from the inventory. -/
structure RecordedSourceSelection (F : Type) where
  sourceGroupId : Data F
  mappingId : Data F
  subjectBindingId : Data F
  entityTypeId : Data F
  entityRef : Data F
  sourceDefinitionRef : Data F
  sourceTypeRef : Data F
  sourceUri : Data F
  capturedPayloadDigest : Data F
  sourcePublishedAt : AwareDatetime
  eventEffectiveAt : Option AwareDatetime
  observedAt : AwareDatetime
  locator : Data F

/-- What the two readers call outside this repository. -/
structure Core (F Subject : Type) where
  py : Interpreter F
  fromisoformat : Str → Except BuiltinError ParsedDatetime
  canonicalHash : Data F → Str
  /-- The binding id, entity type and entity of a resolved subject binding. -/
  subjectIds : Subject → Str × Str × Str
  /-- Whether the constructor of recorded materials accepts its arguments. -/
  acceptsMaterial : RecordedSourceMaterial F Subject → Bool
  /-- Whether the constructor of source selections accepts its arguments. -/
  acceptsSelection : RecordedSourceSelection F → Bool

variable {F Subject : Type}

/-- A time of the inventory, converted to UTC. -/
def utcTime {Own : Type} (core : Core F Subject) (noTimezone : Own) (value : Data F) :
    Except (Raised Own) AwareDatetime := do
  match value with
  | .str s =>
      match ← ofBuiltin (core.fromisoformat s) with
      | .aware t =>
          match t.astimezoneUtc with
          | some u => .ok u
          | none => .error (.builtin .overflowError)
      | _ => .error (.own noTimezone)
  | _ => .error (.builtin .typeError)

/-- `_time` of the executor. -/
def executorTime (core : Core F Subject) (value : Data F) :
    Except (Raised ExecutorError) AwareDatetime :=
  utcTime core ⟨lit "recorded source time must include a timezone"⟩ value

/-- `_time` of the planner. -/
def plannerTime (core : Core F Subject) (value : Data F) :
    Except (Raised PlannerError) AwareDatetime :=
  utcTime core ⟨lit "recorded source time must include a timezone"⟩ value

/-- The handlers around reading the inventory. -/
def handleReadError {Own : Type} (unavailable : Own) (e : BuiltinError) : Raised Own :=
  if e.caughtBy .osError || e.caughtBy .typeError || e.caughtBy .valueError then .own unavailable
  else .builtin e

variable [PyFloat F]

/-- The inventory file as a dictionary; any other JSON value has no method `get`. -/
def readInventory {Own : Type} (core : Core F Subject) (unavailable : Own)
    (content : List UInt8) : Except (Raised Own) (List (Str × Data F)) :=
  match readJson core.py.limits content with
  | .error e => .error (handleReadError unavailable e)
  | .ok (.dict material) => .ok material
  | .ok _ => .error (.builtin .attributeError)

/-- The subject that the inventory must name. -/
def inventorySubject : Data F := .dict [(lit "subject_binding_id", .str subjectBindingId),
  (lit "entity_type_id", .str entityTypeId), (lit "entity_ref", .str entityRef)]

/-- The identifiers that the executor compares. -/
def executorHeader (core : Core F Subject) (material : List (Str × Data F)) : Bool :=
  (get material (lit "inventory_id")).eqStr (lit "openai_terra_price_progression") &&
  (get material (lit "source_group_id")).eqStr (lit "competitor_public_evidence") &&
  (get material (lit "mapping_id")).eqStr (lit "product_price_snapshot") &&
  (get material (lit "subject_binding")).eq core.py inventorySubject

/-- The materials of an inventory, if they are a list of two. -/
def materialPair (material : List (Str × Data F)) : Option (List (Data F)) :=
  match get material (lit "materials") with
  | .list xs => if xs.length = 2 then some xs else none
  | _ => none

/-- `_inventory` of the executor, with the list of its materials. -/
def executorInventory (core : Core F Subject) (content : List UInt8) :
    Except (Raised ExecutorError) (List (Str × Data F) × List (Data F)) := do
  let material ← readInventory core ⟨lit "recorded Market source inventory is unavailable"⟩ content
  if executorHeader core material then
    match materialPair material with
    | some items => return (material, items)
    | none => executorError "recorded Market source inventory changed shape"
  else executorError "recorded Market source inventory changed shape"

/-- One material of `load_recorded_market_source_materials`. -/
def recordedMaterial (core : Core F Subject) (inventory : List (Str × Data F)) (subject : Subject)
    (item : Data F) : Except (Raised ExecutorError) (RecordedSourceMaterial F Subject) := do
  let material : RecordedSourceMaterial F Subject := {
    sourceGroupId := ← ofBuiltin (lookup inventory (lit "source_group_id"))
    mappingId := ← ofBuiltin (lookup inventory (lit "mapping_id"))
    subjectBinding := subject
    sourceDefinitionRef := ← ofBuiltin (lookup inventory (lit "source_definition_ref"))
    sourceTypeRef := ← ofBuiltin (lookup inventory (lit "source_type_ref"))
    sourceUri := ← ofBuiltin (item.subscript (lit "source_uri"))
    capturedPayloadJson := ← ofBuiltin (item.subscript (lit "captured_payload_json"))
    capturedPayloadDigest := ← ofBuiltin (item.subscript (lit "captured_payload_digest"))
    sourcePublishedAt := ← executorTime core
      (← ofBuiltin (item.subscript (lit "source_published_at")))
    observedAt := ← executorTime core (← ofBuiltin (item.subscript (lit "observed_at")))
    locator := ← ofBuiltin (item.subscript (lit "locator")) }
  if core.acceptsMaterial material then return material else .error (.builtin .valueError)

/-- The materials in file order. -/
def recordedMaterials (core : Core F Subject) (inventory : List (Str × Data F))
    (subject : Subject) :
    List (Data F) → Except (Raised ExecutorError) (List (RecordedSourceMaterial F Subject))
  | [] => .ok []
  | item :: items => do
      let material ← recordedMaterial core inventory subject item
      return material :: (← recordedMaterials core inventory subject items)

/-- `load_recorded_market_source_materials`, with the host's answer to the binding of
the subject. -/
def loadRecordedMarketSourceMaterials (core : Core F Subject) (content : List UInt8)
    (bindSubject : Str → Str → Str → Except (Raised ExecutorError) Subject) :
    Except (Raised ExecutorError) (List (RecordedSourceMaterial F Subject)) := do
  let (inventory, items) ← executorInventory core content
  let subject ← bindSubject subjectBindingId entityTypeId entityRef
  recordedMaterials core inventory subject items

/-- `_inventory` of the planner, with the list of its materials. -/
def plannerInventory (core : Core F Subject) (content : List UInt8) :
    Except (Raised PlannerError) (List (Str × Data F) × List (Data F)) := do
  let material ← readInventory core ⟨lit "recorded Market source inventory is unavailable"⟩ content
  if (get material (lit "contract")).eqStr
        (lit "ace.market-intelligence.recorded-source-inventory/v1alpha1") &&
      (get material (lit "inventory_id")).eqStr (lit "openai_terra_price_progression") &&
      (get material (lit "inventory_version")).eqStr (lit "0.8.0") &&
      (get material (lit "source_group_id")).eqStr (lit "competitor_public_evidence") &&
      core.canonicalHash (.dict material) = inventoryDigest then
    match materialPair material with
    | some items => return (material, items)
    | none => plannerError "recorded Market inventory must contain exactly two materials"
  else plannerError "recorded Market source inventory identity changed"

/-- One selection of the planner's `prepare`. -/
def recordedSelection (core : Core F Subject) (inventory subject : List (Str × Data F))
    (item : Data F) : Except (Raised PlannerError) (RecordedSourceSelection F) := do
  let selection : RecordedSourceSelection F := {
    sourceGroupId := ← ofBuiltin (lookup inventory (lit "source_group_id"))
    mappingId := ← ofBuiltin (lookup inventory (lit "mapping_id"))
    subjectBindingId := ← ofBuiltin (lookup subject (lit "subject_binding_id"))
    entityTypeId := ← ofBuiltin (lookup subject (lit "entity_type_id"))
    entityRef := ← ofBuiltin (lookup subject (lit "entity_ref"))
    sourceDefinitionRef := ← ofBuiltin (lookup inventory (lit "source_definition_ref"))
    sourceTypeRef := ← ofBuiltin (lookup inventory (lit "source_type_ref"))
    sourceUri := ← ofBuiltin (item.subscript (lit "source_uri"))
    capturedPayloadDigest := ← ofBuiltin (item.subscript (lit "captured_payload_digest"))
    sourcePublishedAt := ← plannerTime core
      (← ofBuiltin (item.subscript (lit "source_published_at")))
    eventEffectiveAt := some (← plannerTime core
      (← ofBuiltin (item.subscript (lit "event_effective_at"))))
    observedAt := ← plannerTime core (← ofBuiltin (item.subscript (lit "observed_at")))
    locator := ← ofBuiltin (item.subscript (lit "locator")) }
  if core.acceptsSelection selection then return selection else .error (.builtin .valueError)

/-- The selections in file order. -/
def recordedSelections (core : Core F Subject) (inventory subject : List (Str × Data F)) :
    List (Data F) → Except (Raised PlannerError) (List (RecordedSourceSelection F))
  | [] => .ok []
  | item :: items => do
      let selection ← recordedSelection core inventory subject item
      return selection :: (← recordedSelections core inventory subject items)

/-- The selections that the planner's `prepare` proposes from the inventory. -/
def plannerSelections (core : Core F Subject) (content : List UInt8) :
    Except (Raised PlannerError) (List (RecordedSourceSelection F)) := do
  let (inventory, items) ← plannerInventory core content
  match get inventory (lit "subject_binding") with
  | .dict subject => recordedSelections core inventory subject items
  | _ => plannerError "recorded Market inventory omitted its exact subject"

end MarketIntelligence.Builder
