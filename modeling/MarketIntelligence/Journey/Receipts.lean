import MarketIntelligence.Python.Dictionaries
import MarketIntelligence.Python.Files

/-!
# The receipts of the GC1 journey

What the journey script computes between its commands: the arguments of the next
command, the gates on the last response, and the state it will write. Responses are
JSON objects with members of any kind. The interpreter and SHA-256 are parameters.
-/

namespace MarketIntelligence.Journey

open Python

/-- `JourneyError`. -/
structure JourneyError where
  message : Str
  deriving DecidableEq

/-- A JSON object. -/
abbrev Object (F : Type) : Type := List (Str × Data F)

/-- A computation of the script. -/
abbrev Checked (α : Type) : Type := Except (Raised JourneyError) α

/-- What the script computes with. -/
structure Script (F : Type) where
  py : Interpreter F
  /-- The hexadecimal digits of the SHA-256 digest. -/
  sha256 : List UInt8 → List (Fin 16)

/-- `raise JourneyError(message)`. -/
def journeyError {α : Type} (message : Str) : Checked α := .error (.own ⟨message⟩)

/-- `CONTRACT_VERSION`. -/
def contractVersion : Str := lit "ace.market.gc1-external-consumer/v1"

variable {F : Type}

/-! ### Required values -/

/-- `_require`. -/
def require (value : Data F) (message : String) : Checked (Data F) :=
  if value.isMissing then journeyError (lit message) else .ok value

/-- `str(value)`. -/
def text (script : Script F) (value : Data F) : Checked Str := ofBuiltin (value.toStr script.py)

/-- `str(_require(value, message))`. -/
def requireText (script : Script F) (value : Data F) (message : String) : Checked Str := do
  text script (← require value message)

/-- `_hash`. -/
def hash [PyFloat F] (script : Script F) (value : Data F) : Checked Str := do
  let encoded ← ofBuiltin (value.dumps script.py (Json.Layout.compact true))
  return (script.sha256 (asciiBytes encoded)).map fun digit : Fin 16 => Json.hexDigit digit.val

/-! ### Teaching and review -/

/-- The stable key of the scenario. -/
def stableKey (script : Script F) (scenario : Object F) : Checked Str :=
  requireText script (get scenario (lit "stable_key")) "scenario stable_key is missing"

/-- The arguments of `teach`. -/
def teachArguments (script : Script F) (scenario : Object F) (sourceTaskId stableKey : Str) :
    Checked (List Str) := do
  return [lit "cognition", lit "teach", sourceTaskId, lit "--stable-key", stableKey, lit "--name",
    ← requireText script (get scenario (lit "name")) "scenario name is missing",
    lit "--description",
    ← requireText script (get scenario (lit "description")) "scenario description is missing",
    lit "--intent",
    ← requireText script (get scenario (lit "intent")) "scenario intent is missing",
    lit "--base-recipe",
    ← requireText script (get scenario (lit "base_recipe")) "scenario base_recipe is missing"]

/-- The proposal of a teaching response with its identity. -/
def taughtProposal (script : Script F) (taught : Object F) : Checked (Object F × Str) := do
  if !(get taught (lit "selectable")).isFalse then
    journeyError (lit "teaching did not return a non-selectable proposal")
  else
    match ← require (get taught (lit "proposal")) "proposal is missing" with
    | .dict proposal =>
        return (proposal, ← requireText script (get proposal (lit "proposal_id"))
          "proposal identity is missing")
    | _ => journeyError (lit "proposal is not an object")

/-- The gates before the review. -/
def checkPending (script : Script F) (inspection semanticDiff : Object F) : Checked Unit :=
  if !(get semanticDiff (lit "changes")).truthy script.py then
    journeyError (lit "proposal semantic diff is empty")
  else if !(get inspection (lit "selectable")).isFalse then
    journeyError (lit "pending proposal became selectable before review")
  else .ok ()

/-- The arguments of the approving review. -/
def reviewArguments (proposalId : Str) : List Str :=
  [lit "cognition", lit "review", proposalId, lit "--review-request-id",
    lit "market-gc1-approve-v1", lit "--disposition", lit "approve", lit "--rationale",
    lit "Reviewed exact semantic change and source provenance.", lit "--expected-generation",
    lit "0"]

/-- The receipt of a review with the identities of its revision and its head. -/
def approvedReceipt (script : Script F) (review : Object F) : Checked (Object F × Str × Str) := do
  match ← require (get review (lit "review_receipt")) "review receipt is missing" with
  | .dict receipt =>
      if !(get receipt (lit "disposition")).eqStr (lit "approve") then
        journeyError (lit "proposal was not approved through the public review boundary")
      else
        return (receipt,
          ← requireText script (get receipt (lit "result_revision_id"))
            "revision identity is missing",
          ← requireText script (get receipt (lit "result_head_id")) "head identity is missing")
  | _ => journeyError (lit "proposal was not approved through the public review boundary")

/-- The gates on the approved revision and its head. -/
def checkActive (revision head : Object F) (revisionId : Str) : Checked Unit :=
  if !(get revision (lit "revision_id")).eqStr revisionId ||
      !(get head (lit "active_revision_id")).eqStr revisionId then
    journeyError (lit "approved revision is not the active head")
  else if !(get head (lit "lifecycle")).eqStr (lit "active") then
    journeyError (lit "approved head is not active")
  else .ok ()

/-- The arguments of `use`, with the prompt that the scenario must have. -/
def useArguments (script : Script F) (stableKey : Str) (prompt : Data F) (message : String) :
    Checked (List Str) := do
  return [lit "cognition", lit "use", stableKey, ← requireText script prompt message]

/-! ### Uses -/

/-- What `_use_attribution` returns. -/
structure Attribution (F : Type) where
  taskId : Data F
  selectionReceiptId : Data F
  useReceiptId : Data F
  selectedRevisionIds : List Str
  materialUseHash : Data F

/-- `str(item) for item in items`. -/
def texts (script : Script F) : List (Data F) → Checked (List Str)
  | [] => .ok []
  | x :: xs => do return (← text script x) :: (← texts script xs)

/-- The items of a receipt's selected revisions. -/
def selectedItems (receipt : Object F) : Checked (List (Data F)) :=
  ofBuiltin (getD receipt (lit "selected_revision_ids") (.list [])).iterate

/-- `_use_attribution`, for the two receipts of a completed task. -/
def attributedUse (script : Script F) (task selection use : Object F) (revisionId : Str) :
    Checked (Attribution F) := do
  let selected ← texts script (← selectedItems selection)
  let used ← texts script (← selectedItems use)
  if selected = [] ∨ selected ≠ used ∨ revisionId ∉ selected then
    journeyError (lit "fresh task did not select and use the exact approved revision")
  else if !(get use (lit "state")).eqStr (lit "used") ||
      !(get use (lit "material_use_hash")).truthy script.py then
    journeyError (lit "fresh task lacks material-use attribution")
  else
    return {
      taskId := ← require (get task (lit "id")) "fresh task identity is missing"
      selectionReceiptId := ← require (get selection (lit "selection_receipt_id"))
        "selection receipt identity is missing"
      useReceiptId := ← require (get use (lit "use_receipt_id")) "use receipt identity is missing"
      selectedRevisionIds := selected
      materialUseHash := get use (lit "material_use_hash") }

/-- `_use_attribution`. -/
def useAttribution (script : Script F) (task : Object F) (revisionId : Str) :
    Checked (Attribution F) := do
  if !(get task (lit "status")).eqStr (lit "completed") then
    let status ← text script (get task (lit "status"))
    journeyError (lit "fresh cognition use did not complete: " ++ status)
  else
    let selection ← require (get task (lit "cognition_selection_receipt"))
      "selection receipt is missing"
    let use ← require (get task (lit "cognition_use_receipt")) "use receipt is missing"
    match selection, use with
    | .dict selection, .dict use => attributedUse script task selection use revisionId
    | _, _ => journeyError (lit "cognition receipt is not an object")

/-- Whether a retrieved receipt has the attributed revisions. -/
def checkSelected (script : Script F) (receipt : Object F) (attribution : Attribution F)
    (message : String) : Checked Unit := do
  let items ← selectedItems receipt
  if Data.eqItems script.py items (attribution.selectedRevisionIds.map .str) then return ()
  else journeyError (lit message)

/-- The gates of `_inspect_use` and the hashes that it returns. -/
def inspectedHashes [PyFloat F] (script : Script F) (attribution : Attribution F)
    (selection use : Object F) : Checked (Str × Str) := do
  checkSelected script selection attribution "retrieved selection receipt changed"
  checkSelected script use attribution "retrieved use receipt changed"
  if !(get use (lit "material_use_hash")).eq script.py attribution.materialUseHash then
    journeyError (lit "retrieved material-use hash changed")
  else return (← hash script (.dict selection), ← hash script (.dict use))

/-- An attribution after its inspection, as it is written. -/
def inspectedUse (attribution : Attribution F) (hashes : Str × Str) : Data F :=
  .dict [(lit "task_id", attribution.taskId),
    (lit "selection_receipt_id", attribution.selectionReceiptId),
    (lit "use_receipt_id", attribution.useReceiptId),
    (lit "selected_revision_ids", .list (attribution.selectedRevisionIds.map .str)),
    (lit "material_use_hash", attribution.materialUseHash),
    (lit "selection_hash", .str hashes.1), (lit "use_hash", .str hashes.2)]

/-! ### The state file -/

/-- The responses that the prepared state records. -/
structure Reviewed (F : Type) where
  proposal : Object F
  proposalId : Str
  inspection : Object F
  semanticDiff : Object F
  reviewReceipt : Object F
  revisionId : Str
  headId : Str
  revision : Object F
  head : Object F

/-- The state that `prepare` writes. -/
def preparedState [PyFloat F] (script : Script F) (scenario : Object F)
    (sourceTaskId stableKey : Str) (reviewed : Reviewed F) (firstUse : Data F) :
    Checked (Object F) := do
  return [(lit "contract_version", .str contractVersion),
    (lit "phase", .str (lit "prepared")),
    (lit "scenario_hash", .str (← hash script (.dict scenario))),
    (lit "source_task_id", .str sourceTaskId),
    (lit "stable_key", .str stableKey),
    (lit "proposal_id", .str reviewed.proposalId),
    (lit "proposal_hash",
      ← require (get reviewed.proposal (lit "proposal_hash")) "proposal hash is missing"),
    (lit "inspection_hash", .str (← hash script (.dict reviewed.inspection))),
    (lit "semantic_diff_hash", .str (← hash script (.dict reviewed.semanticDiff))),
    (lit "review_receipt_id", ← require (get reviewed.reviewReceipt (lit "receipt_id"))
      "review receipt identity is missing"),
    (lit "review_receipt_hash", .str (← hash script (.dict reviewed.reviewReceipt))),
    (lit "revision_id", .str reviewed.revisionId),
    (lit "revision_hash", .str (← hash script (.dict reviewed.revision))),
    (lit "head_id", .str reviewed.headId),
    (lit "head_generation", .int (← ofBuiltin (Data.toInt script.py
      (← require (get reviewed.head (lit "generation")) "head generation is missing")))),
    (lit "head_hash", .str (← hash script (.dict reviewed.head))),
    (lit "first_use", firstUse)]

/-- The text of a receipt file. -/
def receiptText [PyFloat F] (script : Script F) (receipt : Object F) : Checked Str := do
  return (← ofBuiltin (Data.dumps script.py Json.Layout.indented (.dict receipt))) ++ lit "\n"

/-- `_load_object` on what reading the file gave. -/
def loadObject [PyFloat F] (script : Script F) (path : Str)
    (content : Except BuiltinError Str) : Checked (Object F) :=
  match content with
  | .error e =>
      if e.caughtBy .fileNotFoundError then
        journeyError (lit "required JSON does not exist: " ++ path)
      else .error (.builtin e)
  | .ok content =>
      match Json.loads (dataHooks script.py.limits) script.py.limits.nesting content with
      | .error (.decode e) =>
          journeyError (lit "invalid JSON at " ++ path ++ lit ": " ++ e.msg)
      | .error .recursion => .error (.builtin .recursionError)
      | .error (.hook ()) => .error (.builtin .valueError)
      | .ok (.dict value) => .ok value
      | .ok _ => journeyError (lit "required JSON object is not an object: " ++ path)

/-! ### Resuming -/

/-- The gates on the loaded state. -/
def checkState [PyFloat F] (script : Script F) (scenario state : Object F) : Checked Unit := do
  if !(get state (lit "contract_version")).eqStr contractVersion ||
      !(get state (lit "phase")).eqStr (lit "prepared") then
    journeyError (lit "resume requires one prepared GC1 state receipt")
  else
    let scenarioHash ← hash script (.dict scenario)
    if !(get state (lit "scenario_hash")).eqStr scenarioHash then
      journeyError (lit "scenario changed between prepare and resume")
    else return ()

/-- `str(state[key])`. -/
def stateText (script : Script F) (state : Object F) (key : String) : Checked Str := do
  text script (← ofBuiltin (lookup state (lit key)))

/-- The gates on the revision and the head after the restart. -/
def checkUnchanged [PyFloat F] (script : Script F) (state revision head : Object F)
    (revisionId : Str) : Checked Unit := do
  let revisionHash ← hash script (.dict revision)
  if !(get state (lit "revision_hash")).eqStr revisionHash then
    journeyError (lit "revision or head changed across restart")
  else
    let headHash ← hash script (.dict head)
    if !(get state (lit "head_hash")).eqStr headHash then
      journeyError (lit "revision or head changed across restart")
    else if !(get head (lit "active_revision_id")).eqStr revisionId ||
        !(get head (lit "lifecycle")).eqStr (lit "active") then
      journeyError (lit "approved revision did not remain active across restart")
    else return ()

/-- The arguments of the retirement. -/
def retireArguments (script : Script F) (scenario state : Object F) (headId : Str) :
    Checked (List Str) := do
  return [lit "cognition", lit "lifecycle", headId, lit "--review-request-id",
    lit "market-gc1-retire-v1", lit "--action", lit "retire", lit "--rationale",
    ← requireText script (get scenario (lit "retire_rationale")) "retire rationale is missing",
    lit "--expected-generation", ← stateText script state "head_generation"]

/-- The receipt of a retirement. -/
def retiredReceipt (lifecycle : Object F) : Checked (Object F) := do
  match ← require (get lifecycle (lit "lifecycle_receipt")) "lifecycle receipt is missing" with
  | .dict receipt =>
      if !(get receipt (lit "result_lifecycle")).eqStr (lit "retired") then
        journeyError (lit "head was not retired")
      else return receipt
  | _ => journeyError (lit "head was not retired")

/-- The gate on the retired head. -/
def checkRetired (head : Object F) : Checked Unit :=
  if !(get head (lit "lifecycle")).eqStr (lit "retired") then
    journeyError (lit "retired head inspection did not report retirement")
  else .ok ()

/-- `allowed_failure_codes`. -/
def allowedFailureCodes : List Str :=
  [lit "cognition_use_not_completed", lit "cognition_use_attribution_missing",
    lit "cognition_use_attribution_incomplete"]

/-- The gate on the text of the failed use. -/
def checkFailure (failure : Str) : Checked Unit :=
  if allowedFailureCodes.any fun code => decide (code <:+: failure) then .ok ()
  else journeyError (lit "post-retirement failure did not prove cognition ineligibility")

/-- The members that `resume` assigns over those of the prepared state. -/
def completion [PyFloat F] (script : Script F) (restartUse : Data F)
    (lifecycleReceipt retiredHead : Object F) (failure : Str) : Checked (Object F) := do
  return [(lit "phase", .str (lit "complete")),
    (lit "restart_use", restartUse),
    (lit "lifecycle_receipt_id", ← require (get lifecycleReceipt (lit "receipt_id"))
      "lifecycle receipt identity is missing"),
    (lit "lifecycle_receipt_hash", .str (← hash script (.dict lifecycleReceipt))),
    (lit "retired_head_hash", .str (← hash script (.dict retiredHead))),
    (lit "post_retirement_failure", .str failure)]

/-- `{**state, ...}`. -/
def updated (state members : Object F) : Object F :=
  members.foldl (fun d m => dictInsert d m.1 m.2) state

end MarketIntelligence.Journey
