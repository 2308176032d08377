import MarketIntelligence.Interaction.Contract
import MarketIntelligence.Journey.Receipts

/-!
# The GC1 journey

`prepare` and `resume` as programs. Their operations are the commands of the public CLI,
which a runner answers as it likes, and the accesses to the state file and to the
temporary file next to it.
-/

namespace MarketIntelligence.Journey

open Python Interaction

/-- An operation of the journey. -/
inductive Action
  /-- `runner.json`. -/
  | json (arguments : List Str)
  /-- `runner.failure`. -/
  | failure (arguments : List Str)
  /-- `path.exists()`. -/
  | stateExists
  /-- `path.read_text(encoding="utf-8")`. -/
  | readState
  /-- `path.parent.mkdir(parents=True, exist_ok=True)`. -/
  | makeParents
  /-- `path.write_text(content, encoding="utf-8")`. -/
  | writeState (content : Str)
  /-- `temporary.write_text(content, encoding="utf-8")`. -/
  | writeTemporary (content : Str)
  /-- `temporary.replace(path)`. -/
  | replaceState

/-- What an operation returns. Reading may fail in ways that the script handles. -/
abbrev Response (F : Type) : Action → Type
  | .json _ => Object F
  | .failure _ => Str
  | .stateExists => Bool
  | .readState => Except BuiltinError Str
  | .makeParents => Unit
  | .writeState _ => Unit
  | .writeTemporary _ => Unit
  | .replaceState => Unit

/-- A part of the journey. -/
abbrev Phase (F α : Type) : Type := Program Action (Response F) (Raised JourneyError) α

/-- An operation of the journey with its response. -/
abbrev Event (F : Type) : Type := Exchange Action (Response F)

variable {F : Type}

/-- `runner.json`. -/
def json (arguments : List Str) : Phase F (Object F) := .ask (.json arguments) .done

/-- `runner.failure`. -/
def failure (arguments : List Str) : Phase F Str := .ask (.failure arguments) .done

/-- `path.exists()`. -/
def stateExists : Phase F Bool := .ask .stateExists .done

/-- Reading the state file. -/
def readState : Phase F (Except BuiltinError Str) := .ask .readState .done

/-- Creating the directory of the state file. -/
def makeParents : Phase F Unit := .ask .makeParents .done

/-- Writing the state file. -/
def writeState (content : Str) : Phase F Unit := .ask (.writeState content) .done

/-- Writing the temporary file. -/
def writeTemporary (content : Str) : Phase F Unit := .ask (.writeTemporary content) .done

/-- Moving the temporary file over the state file. -/
def replaceState : Phase F Unit := .ask .replaceState .done

/-- The refusal to prepare twice. -/
def refusing {α : Type} (path : Str) : Phase F α :=
  .fail (.own ⟨lit "refusing to replace existing prepare state: " ++ path⟩)

/-- `_inspect_use`. -/
def inspectUse [PyFloat F] (script : Script F) (attribution : Attribution F) :
    Phase F (Str × Str) := do
  let selectionId ← .ofExcept (text script attribution.selectionReceiptId)
  let selection ← json [lit "cognition", lit "selection", selectionId]
  let useId ← .ofExcept (text script attribution.useReceiptId)
  let use ← json [lit "cognition", lit "use-receipt", useId]
  .ofExcept (inspectedHashes script attribution selection use)

/-- A use of a revision by a new task, attributed and inspected. -/
def useAndInspect [PyFloat F] (script : Script F) (stableKey : Str) (prompt : Data F)
    (message : String) (revisionId : Str) : Phase F (Data F) := do
  let arguments ← .ofExcept (useArguments script stableKey prompt message)
  let task ← json arguments
  let attribution ← .ofExcept (useAttribution script task revisionId)
  let hashes ← inspectUse script attribution
  return inspectedUse attribution hashes

/-- `_write_new`. -/
def writeNew [PyFloat F] (script : Script F) (path : Str) (state : Object F) :
    Phase F Unit := do
  if ← stateExists then refusing path
  else do
    makeParents
    let content ← .ofExcept (receiptText script state)
    writeState content

/-- `_replace`. -/
def replaceWith [PyFloat F] (script : Script F) (state : Object F) : Phase F Unit := do
  let content ← .ofExcept (receiptText script state)
  writeTemporary content
  replaceState

/-- The part of `prepare` that teaches a proposal, has it approved, and fetches its
revision and head. -/
def approveProposal (script : Script F) (scenario : Object F) (sourceTaskId stableKey : Str) :
    Phase F (Reviewed F) := do
  let teach ← .ofExcept (teachArguments script scenario sourceTaskId stableKey)
  let taught ← json teach
  let (proposal, proposalId) ← .ofExcept (taughtProposal script taught)
  let inspection ← json [lit "cognition", lit "inspect", proposalId]
  let semanticDiff ← json [lit "cognition", lit "diff", proposalId]
  .ofExcept (checkPending script inspection semanticDiff)
  let review ← json (reviewArguments proposalId)
  let (reviewReceipt, revisionId, headId) ← .ofExcept (approvedReceipt script review)
  let revision ← json [lit "cognition", lit "revision", revisionId]
  let head ← json [lit "cognition", lit "head", headId]
  .ofExcept (checkActive revision head revisionId)
  let reviewed : Reviewed F :=
    { proposal, proposalId, inspection, semanticDiff, reviewReceipt, revisionId, headId, revision,
      head }
  return reviewed

/-- `prepare`. -/
def prepare [PyFloat F] (script : Script F) (scenario : Object F) (sourceTaskId path : Str) :
    Phase F (Object F) := do
  if ← stateExists then refusing path
  else do
    let stableKey ← .ofExcept (stableKey script scenario)
    let reviewed ← approveProposal script scenario sourceTaskId stableKey
    let firstUse ← useAndInspect script stableKey (get scenario (lit "fresh_use_prompt"))
      "fresh use prompt is missing" reviewed.revisionId
    let state ← .ofExcept
      (preparedState script scenario sourceTaskId stableKey reviewed firstUse)
    writeNew script path state
    return state

/-- The part of `resume` that retires the head and has a later use refused: the receipt
of the retirement, the retired head and the text of the refusal. -/
def retireHead (script : Script F) (scenario state : Object F) (headId stableKey : Str) :
    Phase F (Object F × Object F × Str) := do
  let retire ← .ofExcept (retireArguments script scenario state headId)
  let lifecycle ← json retire
  let lifecycleReceipt ← .ofExcept (retiredReceipt lifecycle)
  let retiredHead ← json [lit "cognition", lit "head", headId]
  .ofExcept (checkRetired retiredHead)
  let arguments ← .ofExcept (useArguments script stableKey
    (get scenario (lit "post_retirement_use_prompt")) "post-retirement use prompt is missing")
  let refusal ← failure arguments
  .ofExcept (checkFailure refusal)
  return (lifecycleReceipt, retiredHead, refusal)

/-- `resume`. -/
def resume [PyFloat F] (script : Script F) (scenario : Object F) (path : Str) :
    Phase F (Object F) := do
  let content ← readState
  let state ← .ofExcept (loadObject script path content)
  .ofExcept (checkState script scenario state)
  let revisionId ← .ofExcept (stateText script state "revision_id")
  let headId ← .ofExcept (stateText script state "head_id")
  let stableKey ← .ofExcept (stateText script state "stable_key")
  let revision ← json [lit "cognition", lit "revision", revisionId]
  let head ← json [lit "cognition", lit "head", headId]
  .ofExcept (checkUnchanged script state revision head revisionId)
  let restartUse ← useAndInspect script stableKey (get scenario (lit "restart_use_prompt"))
    "restart use prompt is missing" revisionId
  let (lifecycleReceipt, retiredHead, refusal) ←
    retireHead script scenario state headId stableKey
  let members ← .ofExcept (completion script restartUse lifecycleReceipt retiredHead refusal)
  replaceWith script (updated state members)
  return updated state members

end MarketIntelligence.Journey
