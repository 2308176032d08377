import MarketIntelligence.Interaction.Contract
import MarketIntelligence.Journey.Failures
import MarketIntelligence.Journey.Scripts

/-!
# The contracts of the two phases

A contract says when a phase may issue an operation, what holds when it returns, and
what holds when it raises: commands come in the order of the script and behind their
gates, a file is changed by the last operations only, and a late failure is hardly ever
about a scenario field.
-/

namespace MarketIntelligence.Journey

open Python Interaction

variable {F : Type}

/-! ### Progress -/

/-- No file was changed. -/
def Quiet (past : List (Event F)) : Prop := ∀ x ∈ past, x.op.writes = false

/-- How far a phase has come: its first event, its commands and their JSON responses,
while no file was changed. -/
structure Progress (past : List (Event F)) (first : Event F) (issued : List Action)
    (received : List (Object F)) : Prop where
  first : past.head? = some first
  quiet : Quiet past
  commands : commands past = issued
  replies : replies past = received

/-- Another event that changes no file. -/
theorem quiet_append {past : List (Event F)} {x : Event F} (h : Quiet past)
    (hx : x.op.writes = false) : Quiet (past ++ [x]) := by
  intro y hy
  obtain hy | hy := List.mem_append.mp hy
  · exact h y hy
  · obtain rfl := List.mem_singleton.mp hy
    exact hx

/-- Nothing was changed before the first event. -/
theorem quiet_nil : Quiet ([] : List (Event F)) := by
  intro x hx
  cases hx

/-- The first event of a sequence stays the first. -/
theorem head?_append_event {past : List (Event F)} {first x : Event F}
    (h : past.head? = some first) : (past ++ [x]).head? = some first := by
  rw [List.head?_append, h, Option.some_or]

/-- A phase begins with its access to the state file. -/
theorem Progress.start {x : Event F} (hwrites : x.op.writes = false)
    (hcommand : x.op.isCommand = false) : Progress [x] x [] [] where
  first := rfl
  quiet := quiet_append quiet_nil hwrites
  commands := by simp [Journey.commands, hcommand]
  replies := by
    obtain ⟨op, answer⟩ := x
    cases op with
    | json => cases hcommand
    | failure => cases hcommand
    | _ => rfl

/-- An answered command. -/
theorem Progress.json {past : List (Event F)} {first : Event F} {issued : List Action}
    {received : List (Object F)} (h : Progress past first issued received)
    (arguments : List Str) (response : Object F) :
    Progress (past ++ [⟨.json arguments, some response⟩]) first
      (issued ++ [.json arguments]) (received ++ [response]) where
  first := head?_append_event h.first
  quiet := quiet_append h.quiet rfl
  commands := by
    rw [← h.commands]
    simp [Journey.commands, Action.isCommand]
  replies := by
    rw [← h.replies]
    simp [Journey.replies, Event.reply]

/-- A failed command, as it should be. -/
theorem Progress.failure {past : List (Event F)} {first : Event F} {issued : List Action}
    {received : List (Object F)} (h : Progress past first issued received)
    (arguments : List Str) (refusal : Str) :
    Progress (past ++ [⟨.failure arguments, some refusal⟩]) first
      (issued ++ [.failure arguments]) received where
  first := head?_append_event h.first
  quiet := quiet_append h.quiet rfl
  commands := by
    rw [← h.commands]
    simp [Journey.commands, Action.isCommand]
  replies := by
    rw [← h.replies]
    simp [Journey.replies, Event.reply]

/-- An access to a file that changes none. -/
theorem Progress.access {past : List (Event F)} {first x : Event F} {issued : List Action}
    {received : List (Object F)} (h : Progress past first issued received)
    (hwrites : x.op.writes = false) (hcommand : x.op.isCommand = false) :
    Progress (past ++ [x]) first issued received where
  first := head?_append_event h.first
  quiet := quiet_append h.quiet hwrites
  commands := by
    rw [← h.commands]
    simp [Journey.commands, hcommand]
  replies := by
    have hnone : x.reply = none := by
      obtain ⟨op, answer⟩ := x
      cases op with
      | json => cases hcommand
      | failure => cases hcommand
      | _ => rfl
    rw [← h.replies]
    simp [Journey.replies, hnone]

/-- A command, whatever its response is. -/
theorem meets_json_bind {α : Type} {C : Contract Action (Response F) (Raised JourneyError) α}
    {past : List (Event F)} {first : Event F} {issued : List Action}
    {received : List (Object F)} {arguments : List Str} {f : Object F → Phase F α}
    (h : Progress past first issued received) (hop : C.allows past (.json arguments))
    (hnext : ∀ response past', Progress past' first (issued ++ [.json arguments])
      (received ++ [response]) → (f response).Meets C past') :
    (json arguments >>= f).Meets C past :=
  meets_ask_bind hop fun response => hnext response _ (h.json arguments response)

/-- The command that has to fail, whatever it answers. -/
theorem meets_failure_bind {α : Type} {C : Contract Action (Response F) (Raised JourneyError) α}
    {past : List (Event F)} {first : Event F} {issued : List Action}
    {received : List (Object F)} {arguments : List Str} {f : Str → Phase F α}
    (h : Progress past first issued received) (hop : C.allows past (.failure arguments))
    (hnext : ∀ refusal past', Progress past' first (issued ++ [.failure arguments]) received →
      (f refusal).Meets C past') :
    (failure arguments >>= f).Meets C past :=
  meets_ask_bind hop fun refusal => hnext refusal _ (h.failure arguments refusal)

variable [PyFloat F]

/-! ### Contracts -/

/-- A state that `prepare` writes, with its text. -/
def Prepared (script : Script F) (scenario : Object F) (sourceTaskId : Str) (content : Str) :
    Prop :=
  ∃ key reviewed firstUse state,
    preparedState script scenario sourceTaskId key reviewed firstUse = .ok state ∧
    receiptText script state = .ok content

/-- When `prepare` may issue an operation. -/
def PrepareAllows (script : Script F) (scenario : Object F) (sourceTaskId : Str)
    (past : List (Event F)) (op : Action) : Prop :=
  (past = [] ∧ op = .stateExists ∨ past.head? = some ⟨.stateExists, some false⟩) ∧
  (op.isCommand = true → PrepareGated script scenario sourceTaskId past op) ∧
  Quiet past ∧
  (op.writes = true → ∃ content, op = .writeState content ∧
    Prepared script scenario sourceTaskId content)

/-- A scenario from which a proposal can be taught. -/
def Teachable (script : Script F) (scenario : Object F) : Prop :=
  ∃ key, stableKey script scenario = .ok key ∧
    ∃ arguments, teachArguments script scenario [] key = .ok arguments

/-- When `prepare` may raise: no file was changed, and once the review was issued, a
missing scenario field can only be the prompt of the first use. -/
def PrepareRaises (script : Script F) (scenario : Object F) (past : List (Event F))
    (e : Raised JourneyError) : Prop :=
  Quiet past ∧ (MissingField e → (∃ op ∈ commands past, op.verb = some (lit "review")) →
    Teachable script scenario ∧ (get scenario (lit "fresh_use_prompt")).isMissing = true)

/-- The contract of `prepare`. -/
def prepareContract (script : Script F) (scenario : Object F) (sourceTaskId : Str) :
    Contract Action (Response F) (Raised JourneyError) (Object F) where
  allows := PrepareAllows script scenario sourceTaskId
  returns h _ := ∃ past content, h = past ++ [⟨.writeState content, some ()⟩] ∧ Quiet past ∧
    Prepared script scenario sourceTaskId content
  raises := PrepareRaises script scenario

/-- A prepared receipt of the contract. -/
structure PreparedReceipt (state : Object F) : Prop where
  contract : get state (lit "contract_version") = .str contractVersion
  phase : get state (lit "phase") = .str (lit "prepared")

/-- The text that `resume` writes from a state. -/
def Completed (script : Script F) (state : Object F) (content : Str) : Prop :=
  ∃ restartUse receipt head refusal members,
    completion script restartUse receipt head refusal = .ok members ∧
    receiptText script (updated state members) = .ok content

/-- When `resume` may issue an operation. The file is replaced in two steps. -/
def ResumeAllows (script : Script F) (scenario : Object F) (past : List (Event F))
    (op : Action) : Prop :=
  past = [] ∧ op = .readState ∨
  ∃ state, Loaded script past state ∧ PreparedReceipt state ∧
    ((op.isCommand = true ∧ Quiet past ∧ ResumeGated script scenario past op) ∨
    ∃ content, Completed script state content ∧
      (op = .writeTemporary content ∧ Quiet past ∨
      op = .replaceState ∧ ∃ past', Quiet past' ∧
        past = past' ++ [⟨.writeTemporary content, some ()⟩]))

/-- A scenario with which a head can be retired. -/
def RetirableScenario (script : Script F) (scenario : Object F) : Prop :=
  (∃ t, hash script (.dict scenario) = .ok t) ∧
  (∃ t, requireText script (get scenario (lit "restart_use_prompt"))
    "restart use prompt is missing" = .ok t) ∧
  ∃ t, requireText script (get scenario (lit "retire_rationale"))
    "retire rationale is missing" = .ok t

/-- When `resume` may raise: no file was changed, and once the retirement was issued, a
missing scenario field can only be the prompt of the refused use. -/
def ResumeRaises (script : Script F) (scenario : Object F) (past : List (Event F))
    (e : Raised JourneyError) : Prop :=
  Quiet past ∧ (MissingField e → (∃ op ∈ commands past, op.verb = some (lit "lifecycle")) →
    RetirableScenario script scenario ∧
      (get scenario (lit "post_retirement_use_prompt")).isMissing = true)

/-- The contract of `resume`. -/
def resumeContract (script : Script F) (scenario : Object F) :
    Contract Action (Response F) (Raised JourneyError) (Object F) where
  allows := ResumeAllows script scenario
  returns h _ := ∃ past state content, Loaded script past state ∧ Completed script state content ∧
    Quiet past ∧
    h = past ++ [⟨.writeTemporary content, some ()⟩, ⟨.replaceState, some ()⟩]
  raises := ResumeRaises script scenario

end MarketIntelligence.Journey
