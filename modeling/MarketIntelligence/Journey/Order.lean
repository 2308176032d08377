import MarketIntelligence.Journey.Walks

/-!
# The order of the commands

Whatever the runner answers, the commands of a phase are a prefix of its script, and
each of them is issued behind its gates.
-/

namespace MarketIntelligence.Journey

open Python Interaction

variable {F : Type}

/-- A sequence has no command, or a last one. -/
theorem exists_last_command (es : List (Event F)) :
    commands es = [] ∨ ∃ past x rest, es = past ++ x :: rest ∧ x.op.isCommand = true ∧
      commands es = commands past ++ [x.op] := by
  induction es using List.reverseRecOn with
  | nil => exact .inl rfl
  | append_singleton es x ih =>
    by_cases hcommand : x.op.isCommand = true
    · exact .inr ⟨es, x, [], rfl, hcommand, by simp [commands, hcommand]⟩
    · have hsame : commands (es ++ [x]) = commands es := by simp [commands, hcommand]
      rw [hsame]
      obtain hnone | ⟨past, y, rest, rfl, hy, hlast⟩ := ih
      · exact .inl hnone
      · exact .inr ⟨past, y, rest ++ [x], by simp, hy, hlast⟩

/-- In every run of a phase with every runner, the commands are a prefix of the script
that the responses determine, and every command is gated. -/
theorem commands_gated [PyFloat F] (script : Script F) (scenario : Object F) (path : Str) :
    (∀ sourceTaskId es o, Trace (prepare script scenario sourceTaskId path) es o →
      (∃ r, (commands es).map .ok <+: prepareScript script scenario sourceTaskId r) ∧
      ∀ past x rest, es = past ++ x :: rest → x.op.isCommand = true →
        PrepareGated script scenario sourceTaskId past x.op) ∧
    ∀ es o, Trace (resume script scenario path) es o →
      (∃ state r, (commands es).map .ok <+: resumeScript script scenario state r) ∧
      ∀ past x rest, es = past ++ x :: rest → x.op.isCommand = true →
        ResumeGated script scenario past x.op := by
  constructor
  · intro sourceTaskId es o ht
    obtain ⟨hallowed, -, -⟩ := ht.meets (prepare_meets script scenario sourceTaskId path)
    have hgated : ∀ past x rest, es = past ++ x :: rest → x.op.isCommand = true →
        PrepareGated script scenario sourceTaskId past x.op :=
      fun past x rest hes => (hallowed past x rest hes).2.1
    refine ⟨?_, hgated⟩
    obtain hnone | ⟨past, x, rest, hes, hcommand, hlast⟩ := exists_last_command es
    · exact ⟨{}, by simp [hnone]⟩
    · obtain ⟨r, -, hprefix, -⟩ := hgated past x rest hes hcommand
      exact ⟨r, hlast ▸ hprefix⟩
  · intro es o ht
    obtain ⟨hallowed, -, -⟩ := ht.meets (resume_meets script scenario path)
    have hgated : ∀ past x rest, es = past ++ x :: rest → x.op.isCommand = true →
        ResumeGated script scenario past x.op := by
      intro past x rest hes hcommand
      obtain ⟨-, hread⟩ | ⟨state, -, -, ⟨-, -, hgated⟩ | ⟨content, -, hwrite⟩⟩ :=
        hallowed past x rest hes
      · rw [hread] at hcommand
        cases hcommand
      · exact hgated
      · obtain ⟨hop, -⟩ | ⟨hop, -⟩ := hwrite
        · rw [hop] at hcommand
          cases hcommand
        · rw [hop] at hcommand
          cases hcommand
    refine ⟨?_, hgated⟩
    obtain hnone | ⟨past, x, rest, hes, hcommand, hlast⟩ := exists_last_command es
    · exact ⟨[], {}, by simp [hnone]⟩
    · obtain ⟨state, -, r, -, hprefix, -⟩ := hgated past x rest hes hcommand
      exact ⟨state, r, hlast ▸ hprefix⟩

/-! ### A journey from beginning to end -/

/-- A JSON object whose members are texts. -/
def textObject (members : List (String × String)) : Object F :=
  members.map fun m => (lit m.1, .str (lit m.2))

/-- A scenario with every field. -/
def sampleScenario : Object Unit := textObject
  [("stable_key", "key"), ("name", "name"), ("description", "text"), ("intent", "aim"),
    ("base_recipe", "recipe"), ("fresh_use_prompt", "ask"), ("restart_use_prompt", "again"),
    ("retire_rationale", "done"), ("post_retirement_use_prompt", "never")]

/-- A proposal that is not selectable. -/
def sampleTaught : Object F :=
  [(lit "selectable", .bool false),
    (lit "proposal", .dict (textObject [("proposal_id", "p"), ("proposal_hash", "h")]))]

/-- The inspection of the proposal. -/
def sampleInspection : Object F := [(lit "selectable", .bool false)]

/-- Its changes. -/
def sampleDiff : Object F := [(lit "changes", .list [.bool true])]

/-- The receipt of its approval. -/
def sampleReceipt : Object F := textObject
  [("disposition", "approve"), ("result_revision_id", "r"), ("result_head_id", "d"),
    ("receipt_id", "a")]

/-- The approved revision. -/
def sampleRevision : Object F := textObject [("revision_id", "r")]

/-- Its head. -/
def sampleHead : Object F :=
  textObject [("active_revision_id", "r"), ("lifecycle", "active"), ("generation", "1")]

/-- The selection receipt of a use. The items of a text are its characters. -/
def sampleSelection : Object F :=
  textObject [("selected_revision_ids", "r"), ("selection_receipt_id", "s")]

/-- The use receipt of a use. -/
def sampleUse : Object F := textObject
  [("selected_revision_ids", "r"), ("state", "used"), ("material_use_hash", "m"),
    ("use_receipt_id", "u")]

/-- A completed task. -/
def sampleTask : Object F :=
  [(lit "status", .str (lit "completed")),
    (lit "cognition_selection_receipt", .dict sampleSelection),
    (lit "cognition_use_receipt", .dict sampleUse), (lit "id", .str (lit "t"))]

/-- The receipt of the retirement. -/
def sampleRetirement : Object F :=
  textObject [("result_lifecycle", "retired"), ("receipt_id", "z")]

/-- The head after its retirement. -/
def sampleRetiredHead : Object F := textObject [("lifecycle", "retired")]

/-- The SHA-256 digests of the sample objects. -/
def sampleDigests : List (Object Unit × ℕ) :=
  [(sampleScenario, 0x03435cd652c1da9149ead2059ba29008f3922be590b196e3f1d25ae5b8aba918),
    (sampleInspection, 0x33f23d671b27e03b7824bb0903792bb7cad02e4ab0a74630a7ca255a92b2e731),
    (sampleDiff, 0xa8d6a918f42059ef83d731bd690c1482d6c4faed39aad8e95a2f9066b72ea8cd),
    (sampleReceipt, 0xbe9034b757baab35a317af4b415e5cac5dc8c82ab235cbfa4dd3b96893bc611a),
    (sampleRevision, 0x3e70b9c871940b47e6d5df001962245692d365f443f95537a348675e54f42900),
    (sampleHead, 0x646baf0f6c34d291f17606aaf569a5124f1eac2cd16c12dc0c4020d2cc6bcb80),
    (sampleSelection, 0x7eefec835aa6138c6f58b7585ac8a421c5309ca8657e6b91d071b819448bc0a1),
    (sampleUse, 0xad69ae864cb875d16d795fc7d8d28821fe5fa25abd4f853103f464229474ea9b),
    (sampleRetirement, 0x402ea7e3d9c8abd0a9f854559128fe47fae3c741fbe870e838fba87a868617b0),
    (sampleRetiredHead, 0xf59544e41a496e4fed9c459c5b831a1914d401e97e9b345afe600497e2a02a73)]

/-- SHA-256 on the sample objects. -/
def sampleSha256 (bytes : List UInt8) : List (Fin 16) :=
  match sampleDigests.find? fun d =>
    asciiBytes (Json.encode (Json.Layout.compact true) 0 (.dict d.1)) = bytes with
  | some d => digestDigits d.2
  | none => []

/-- The script of the sample. -/
def sampleScript : Script Unit := ⟨asciiInterpreter, sampleSha256⟩

/-- The response to a command of the sample. -/
def sampleReply (past : List (Event Unit)) (verb : Option Str) : Object Unit :=
  if verb = some (lit "teach") then sampleTaught
  else if verb = some (lit "inspect") then sampleInspection
  else if verb = some (lit "diff") then sampleDiff
  else if verb = some (lit "review") then [(lit "review_receipt", .dict sampleReceipt)]
  else if verb = some (lit "revision") then sampleRevision
  else if verb = some (lit "use") then sampleTask
  else if verb = some (lit "selection") then sampleSelection
  else if verb = some (lit "use-receipt") then sampleUse
  else if verb = some (lit "lifecycle") then [(lit "lifecycle_receipt", .dict sampleRetirement)]
  else if past.any fun x => x.op.verb = some (lit "lifecycle") then sampleRetiredHead
  else sampleHead

/-- A runner and a file system for the sample, with the content of the state file. -/
def sampleHost (content : Str) (past : List (Event Unit)) :
    (op : Action) → Option (Response Unit op)
  | .json arguments => some (sampleReply past arguments[1]?)
  | .failure _ => some (lit "cognition_use_not_completed")
  | .stateExists => some false
  | .readState => some (.ok content)
  | .makeParents | .writeState _ | .writeTemporary _ | .replaceState => some ()

/-- The events of `prepare` in the sample. -/
def samplePrepared : List (Event Unit) :=
  ((prepare sampleScript sampleScenario (lit "task") (lit "state")).run (sampleHost []) []).1

/-- The text that it writes. -/
def sampleContent : Str :=
  match samplePrepared.getLast? with
  | some ⟨.writeState content, _⟩ => content
  | _ => []

/-- The events of `resume` in the sample. -/
def sampleResumed : List (Event Unit) :=
  ((resume sampleScript sampleScenario (lit "state")).run (sampleHost sampleContent) []).1

/-- An answered command that should fail. -/
def Event.refused : Event F → Bool
  | ⟨.failure _, some _⟩ => true
  | _ => false

/-- Both phases of the sample return, with all their commands. -/
theorem sampleJourney_returns :
    ((commands samplePrepared).length = 9 ∧ (commands sampleResumed).length = 8) ∧
      sampleResumed[8]?.any Event.refused = true ∧
      ((prepare sampleScript sampleScenario (lit "task") (lit "state")).run
        (sampleHost []) []).2.isReturned = true ∧
      ((resume sampleScript sampleScenario (lit "state")).run
        (sampleHost sampleContent) []).2.isReturned = true := by
  decide +kernel

/-- The events of `prepare` in the sample are those of a trace. -/
theorem samplePrepared_trace :
    Trace (prepare sampleScript sampleScenario (lit "task") (lit "state")) samplePrepared
      ((prepare sampleScript sampleScenario (lit "task") (lit "state")).run
        (sampleHost []) []).2 := by
  rw [samplePrepared]
  exact Program.run_trace (sampleHost []) [] _

/-- The events of `resume` in the sample are those of a trace. -/
theorem sampleResumed_trace :
    Trace (resume sampleScript sampleScenario (lit "state")) sampleResumed
      ((resume sampleScript sampleScenario (lit "state")).run
        (sampleHost sampleContent) []).2 := by
  rw [sampleResumed]
  exact Program.run_trace (sampleHost sampleContent) [] _

/-- The sample issues every command of both phases, each behind its gates. -/
theorem sampleJourney_gated :
    ((commands samplePrepared).length = 9 ∧ (commands sampleResumed).length = 8) ∧
    (∀ past x rest, samplePrepared = past ++ x :: rest → x.op.isCommand = true →
      PrepareGated sampleScript sampleScenario (lit "task") past x.op) ∧
    ∀ past x rest, sampleResumed = past ++ x :: rest → x.op.isCommand = true →
      ResumeGated sampleScript sampleScenario past x.op :=
  have hgated := commands_gated sampleScript sampleScenario (lit "state")
  ⟨sampleJourney_returns.1, (hgated.1 (lit "task") samplePrepared _ samplePrepared_trace).2,
    (hgated.2 sampleResumed _ sampleResumed_trace).2⟩

end MarketIntelligence.Journey
