import MarketIntelligence.Journey.Commands
import MarketIntelligence.Journey.Gates

/-!
# The scripts of the journey

The commands of a phase follow a script that the responses determine: every argument is
found in the scenario, in the state or in an earlier response. The gates say what the
earlier responses must report before a command that cannot be taken back.
-/

namespace MarketIntelligence.Journey

open Python Interaction

variable {F : Type}

/-! ### Events -/

/-- Whether an operation is a command. -/
def Action.isCommand : Action → Bool
  | .json _ | .failure _ => true
  | _ => false

/-- The word after `cognition`. -/
def Action.verb : Action → Option Str
  | .json arguments | .failure arguments => arguments[1]?
  | _ => none

/-- Whether an operation changes a file. -/
def Action.writes : Action → Bool
  | .writeState _ | .writeTemporary _ | .replaceState => true
  | _ => false

/-- The commands of a sequence of events. -/
def commands (es : List (Event F)) : List Action := (es.map (·.op)).filter Action.isCommand

/-- The JSON response of an event. -/
def Event.reply : Event F → Option (Object F)
  | ⟨.json _, some response⟩ => some response
  | _ => none

/-- The JSON responses of a sequence of events. -/
def replies (es : List (Event F)) : List (Object F) := es.filterMap Event.reply

/-- The member of nested objects under a path of keys. -/
def memberAt : Data F → List String → Data F
  | value, [] => value
  | .dict ms, key :: path => memberAt (get ms (lit key)) path
  | _, _ :: _ => .none

/-- The text of such a member, as a command argument. -/
def argument (script : Script F) (response : Object F) (path : List String) :
    Except BuiltinError Str := (memberAt (.dict response) path).toStr script.py

/-! ### Preparing -/

/-- A command whose arguments may fail to be texts. -/
abbrev Scripted : Type := Except BuiltinError Action

/-- The JSON responses of `prepare`. -/
structure PrepareReplies (F : Type) where
  taught : Object F := []
  inspection : Object F := []
  semanticDiff : Object F := []
  review : Object F := []
  revision : Object F := []
  head : Object F := []
  task : Object F := []
  selection : Object F := []
  use : Object F := []

/-- The responses in order. -/
def PrepareReplies.toList (r : PrepareReplies F) : List (Object F) :=
  [r.taught, r.inspection, r.semanticDiff, r.review, r.revision, r.head, r.task, r.selection,
    r.use]

/-- The commands of `prepare`. -/
def prepareScript (script : Script F) (scenario : Object F) (sourceTaskId : Str)
    (r : PrepareReplies F) : List Scripted :=
  [do return .json [lit "cognition", lit "teach", sourceTaskId,
      lit "--stable-key", ← argument script scenario ["stable_key"],
      lit "--name", ← argument script scenario ["name"],
      lit "--description", ← argument script scenario ["description"],
      lit "--intent", ← argument script scenario ["intent"],
      lit "--base-recipe", ← argument script scenario ["base_recipe"]],
    do return .json [lit "cognition", lit "inspect",
      ← argument script r.taught ["proposal", "proposal_id"]],
    do return .json [lit "cognition", lit "diff",
      ← argument script r.taught ["proposal", "proposal_id"]],
    do return .json (reviewArguments (← argument script r.taught ["proposal", "proposal_id"])),
    do return .json [lit "cognition", lit "revision",
      ← argument script r.review ["review_receipt", "result_revision_id"]],
    do return .json [lit "cognition", lit "head",
      ← argument script r.review ["review_receipt", "result_head_id"]],
    do return .json [lit "cognition", lit "use", ← argument script scenario ["stable_key"],
      ← argument script scenario ["fresh_use_prompt"]],
    do return .json [lit "cognition", lit "selection",
      ← argument script r.task ["cognition_selection_receipt", "selection_receipt_id"]],
    do return .json [lit "cognition", lit "use-receipt",
      ← argument script r.task ["cognition_use_receipt", "use_receipt_id"]]]

/-- The gate of the review: nothing is selectable yet, and there are changes. -/
structure PendingReview (script : Script F) (r : PrepareReplies F) : Prop where
  taught : get r.taught (lit "selectable") = .bool false
  inspected : get r.inspection (lit "selectable") = .bool false
  changes : (get r.semanticDiff (lit "changes")).truthy script.py = true

/-- The gate of the first use: the review approved a revision, which was fetched and on
which the fetched head is active. -/
structure ActiveRevision (script : Script F) (r : PrepareReplies F) (revisionId : Str) :
    Prop where
  approved : memberAt (.dict r.review) ["review_receipt", "disposition"] = .str (lit "approve")
  identity : argument script r.review ["review_receipt", "result_revision_id"] = .ok revisionId
  fetched : get r.revision (lit "revision_id") = .str revisionId
  head : get r.head (lit "active_revision_id") = .str revisionId
  lifecycle : get r.head (lit "lifecycle") = .str (lit "active")

/-- When a command of `prepare` is issued in order and behind its gates. -/
def PrepareGated (script : Script F) (scenario : Object F) (sourceTaskId : Str)
    (past : List (Event F)) (op : Action) : Prop :=
  ∃ r : PrepareReplies F, replies past = r.toList.take (commands past).length ∧
    (commands past ++ [op]).map .ok <+: prepareScript script scenario sourceTaskId r ∧
    (op.verb = some (lit "review") → PendingReview script r) ∧
    (op.verb = some (lit "use") → ∃ revisionId, ActiveRevision script r revisionId)

/-! ### Resuming -/

/-- The JSON responses of `resume`. -/
structure ResumeReplies (F : Type) where
  revision : Object F := []
  head : Object F := []
  task : Object F := []
  selection : Object F := []
  use : Object F := []
  lifecycle : Object F := []
  retiredHead : Object F := []

/-- The responses in order. -/
def ResumeReplies.toList (r : ResumeReplies F) : List (Object F) :=
  [r.revision, r.head, r.task, r.selection, r.use, r.lifecycle, r.retiredHead]

/-- The commands of `resume`. -/
def resumeScript (script : Script F) (scenario state : Object F) (r : ResumeReplies F) :
    List Scripted :=
  [do return .json [lit "cognition", lit "revision", ← argument script state ["revision_id"]],
    do return .json [lit "cognition", lit "head", ← argument script state ["head_id"]],
    do return .json [lit "cognition", lit "use", ← argument script state ["stable_key"],
      ← argument script scenario ["restart_use_prompt"]],
    do return .json [lit "cognition", lit "selection",
      ← argument script r.task ["cognition_selection_receipt", "selection_receipt_id"]],
    do return .json [lit "cognition", lit "use-receipt",
      ← argument script r.task ["cognition_use_receipt", "use_receipt_id"]],
    do return .json [lit "cognition", lit "lifecycle", ← argument script state ["head_id"],
      lit "--review-request-id", lit "market-gc1-retire-v1", lit "--action", lit "retire",
      lit "--rationale", ← argument script scenario ["retire_rationale"],
      lit "--expected-generation", ← argument script state ["head_generation"]],
    do return .json [lit "cognition", lit "head", ← argument script state ["head_id"]],
    do return .failure [lit "cognition", lit "use", ← argument script state ["stable_key"],
      ← argument script scenario ["post_retirement_use_prompt"]]]

/-- The gate of the retirement: the state is a prepared receipt of the contract and the
scenario, revision and head are the recorded ones, the head is active on the recorded
revision, and a use after the restart was completed, attributed and inspected. -/
structure Retirable [PyFloat F] (script : Script F) (scenario state : Object F)
    (r : ResumeReplies F) : Prop where
  contract : get state (lit "contract_version") = .str contractVersion
  phase : get state (lit "phase") = .str (lit "prepared")
  scenario : ∃ t, hash script (.dict scenario) = .ok t ∧
    get state (lit "scenario_hash") = .str t
  revision : ∃ t, hash script (.dict r.revision) = .ok t ∧
    get state (lit "revision_hash") = .str t
  head : ∃ t, hash script (.dict r.head) = .ok t ∧ get state (lit "head_hash") = .str t
  lifecycle : get r.head (lit "lifecycle") = .str (lit "active")
  use : ∃ revisionId a selection use, argument script state ["revision_id"] = .ok revisionId ∧
    get r.head (lit "active_revision_id") = .str revisionId ∧
    Attributed script r.task revisionId a selection use ∧ Inspected script a r.selection r.use

/-- The state file was read, and this is the object in it. -/
def Loaded [PyFloat F] (script : Script F) (past : List (Event F)) (state : Object F) : Prop :=
  ∃ content, past.head? = some ⟨.readState, some (.ok content)⟩ ∧
    jsonLoads script.py.limits content = .ok (.dict state)

/-- When a command of `resume` is issued in order and behind its gates. -/
def ResumeGated [PyFloat F] (script : Script F) (scenario : Object F)
    (past : List (Event F)) (op : Action) : Prop :=
  ∃ state, Loaded script past state ∧ ∃ r : ResumeReplies F,
    replies past = r.toList.take (commands past).length ∧
    (commands past ++ [op]).map .ok <+: resumeScript script scenario state r ∧
    (op.verb = some (lit "lifecycle") → Retirable script scenario state r)

end MarketIntelligence.Journey
