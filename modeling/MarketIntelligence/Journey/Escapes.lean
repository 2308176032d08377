import MarketIntelligence.Journey.Arguments
import MarketIntelligence.Journey.Cli

/-!
# Exceptions that escape from the journey

`prepare` and `resume` raise only `JourneyError` when every process prints a receipt that
the script can take apart, record in the state, and ask further processes for, and the state
file has the members that `resume` subscripts. The script checks the rest. Without a
subscripted member a `KeyError` escapes.
-/

namespace MarketIntelligence.Journey

open Python Interaction

variable {F : Type}

/-! ### What the journey relies on -/

/-- The hash of a proposal can be printed in the state, and its identity can be passed on. -/
def Reviewable (script : Script F) (taught : Object F) : Prop :=
  ∀ proposal, get taught (lit "proposal") = .dict proposal →
    PrintsInside script 1 (get proposal (lit "proposal_hash")) ∧
    Passes script (get proposal (lit "proposal_id"))

/-- The identity of a review can be printed in the state, and those of its results can be
passed on. -/
def Followable (script : Script F) (review : Object F) : Prop :=
  ∀ receipt, get review (lit "review_receipt") = .dict receipt →
    PrintsInside script 1 (get receipt (lit "receipt_id")) ∧
    Passes script (get receipt (lit "result_revision_id")) ∧
    Passes script (get receipt (lit "result_head_id"))

/-- The identity of a retirement can be printed in the state. -/
def Recordable (script : Script F) (lifecycle : Object F) : Prop :=
  ∀ receipt, get lifecycle (lit "lifecycle_receipt") = .dict receipt →
    PrintsInside script 1 (get receipt (lit "receipt_id"))

/-- A response that the script can take apart: the proposal, the review and the retirement have
identities that it can use, the task of a use is attributable, the retrieved receipts have
selected revisions that can be iterated over, and a head is as the phase needs it. -/
structure Consumable (script : Script F) (heads : Object F → Prop) (arguments : List Str)
    (response : Object F) : Prop where
  teach : arguments[1]? = some (lit "teach") → Reviewable script response
  review : arguments[1]? = some (lit "review") → Followable script response
  lifecycle : arguments[1]? = some (lit "lifecycle") → Recordable script response
  use : arguments[1]? = some (lit "use") → Attributable script response
  receipt : arguments[1]? = some (lit "selection") ∨ arguments[1]? = some (lit "use-receipt") →
    IdsIterable response
  head : arguments[1]? = some (lit "head") → heads response

/-- Responses that meet no limit and can be taken apart, and a state file as the phase needs
it. -/
def Answered (script : Script F) (heads : Object F → Prop)
    (contents : Except BuiltinError Str → Prop) : Assumption (Response F)
  | .json arguments, response =>
      FitsInside script 0 (.dict response) ∧ Consumable script heads arguments response
  | .readState, content => contents content
  | _, _ => True

/-- Processes that fail, or print a receipt before the decoder meets any limit, which can
be taken apart; and a state file as the phase needs it. -/
def Processed [PyFloat F] (script : Script F) (heads : Object F → Prop)
    (contents : Except BuiltinError Str → Prop) : Assumption CliResponse
  | .json arguments, completed => completed.returncode = 0 →
      ReceiptFirst F script.py.limits completed.stdout ∧
      ∀ t response, t <:+ completed.stdout → Found script.py.limits t response →
        Consumable script heads arguments response
  | .readState, content => contents content
  | _, _ => True

/-! ### The walks -/

variable [PyFloat F] {script : Script F} {scenario : Object F} {heads : Object F → Prop}
  {contents : Except BuiltinError Str → Prop}

/-- The inspection of a use. -/
theorem under_inspectUse {a : Attribution F} (h : AttributionFits script a)
    (hselectionId : Passes script a.selectionReceiptId) (huseId : Passes script a.useReceiptId) :
    (inspectUse script a).Under (Answered script heads contents) Startable (fun _ => True)
      IsOwn := by
  unfold inspectUse json
  refine under_ofExcept_bind (contained_text (h.selectionReceiptId.fitsInside.mono (by omega)))
    fun selectionId hselectionText => ?_
  have hpassed := hselectionId selectionId (ofBuiltin_eq_ok.mp hselectionText)
  refine under_ask_bind (passable_about "selection" (by simp [commandWords]) hpassed)
    fun selection hselection => ?_
  refine under_ofExcept_bind (contained_text (h.useReceiptId.fitsInside.mono (by omega)))
    fun useId huseText => ?_
  have hpassed := huseId useId (ofBuiltin_eq_ok.mp huseText)
  refine under_ask_bind (passable_about "use-receipt" (by simp [commandWords]) hpassed)
    fun use huse => ?_
  have hcontained := contained_inspectedHashes hselection.1 huse.1
    (hselection.2.receipt (.inl rfl)) (huse.2.receipt (.inr rfl)) a
  exact under_ofExcept hcontained fun _ _ => trivial

/-- A use, attributed and inspected. -/
theorem under_useAndInspect {prompt : Data F} {key : Str} (hprompt : FitsInside script 0 prompt)
    (hpasses : Passes script prompt) (hkey : Passable key)
    (hindented : 3 ≤ script.py.limits.indented) (message : String) (revisionId : Str) :
    (useAndInspect script key prompt message revisionId).Under (Answered script heads contents)
      Startable (PrintsInside script 1) IsOwn := by
  unfold useAndInspect
  refine under_ofExcept_bind (contained_useArguments hprompt key message)
    fun arguments harguments => ?_
  have hstart := passable_useArguments hkey hpasses harguments
  obtain ⟨t, -, rfl⟩ := useArguments_eq_ok.mp harguments
  refine under_ask_bind hstart fun task htask => ?_
  have hattributable := htask.2.use rfl
  refine under_ofExcept_bind (contained_useAttribution htask.1 hattributable revisionId)
    fun a ha => ?_
  obtain ⟨hfits, hselectionId, huseId⟩ := attributionFits_of_ok hattributable ha
  exact (under_inspectUse hfits hselectionId huseId).bind fun hashes _ =>
    printsInside_inspectedUse hfits hindented hashes

omit [PyFloat F] in
/-- Teaching and review, with the responses that the state records. -/
theorem under_approveProposal {sourceTaskId key : Str} (h : Usable script prepareTexts scenario)
    (htask : Passable sourceTaskId) (hkey : Passable key) :
    (approveProposal script scenario sourceTaskId key).Under
      (Answered script (Numbered script) contents) Startable (ReviewedFits script) IsOwn := by
  unfold approveProposal
  refine under_ofExcept_bind (contained_teachArguments h.fits sourceTaskId key)
    fun teach hteach => ?_
  have hstart := passable_teachArguments h htask hkey hteach
  obtain ⟨_, _, _, _, -, -, -, -, rfl⟩ := teachArguments_eq_ok.mp hteach
  refine under_ask_bind hstart fun taught htaught => ?_
  refine under_ofExcept_bind (contained_taughtProposal htaught.1) fun taken htaken => ?_
  obtain ⟨proposal, proposalId⟩ := taken
  obtain ⟨-, ⟨-, hproposal⟩, -, hidText⟩ := taughtProposal_eq_ok.mp htaken
  obtain ⟨hproposalHash, hproposalId⟩ := htaught.2.teach rfl proposal hproposal
  have hid := hproposalId proposalId hidText
  refine under_ask_bind (passable_about "inspect" (by simp [commandWords]) hid)
    fun inspection hinspection => ?_
  refine under_ask_bind (passable_about "diff" (by simp [commandWords]) hid)
    fun semanticDiff hdiff => ?_
  refine under_ofExcept_bind (contained_checkPending inspection semanticDiff) fun _ _ => ?_
  refine under_ask_bind (passable_reviewArguments hid) fun review hreview => ?_
  refine under_ofExcept_bind (contained_approvedReceipt hreview.1) fun approved happroved => ?_
  obtain ⟨receipt, revisionId, headId⟩ := approved
  obtain ⟨⟨-, hreceipt⟩, -, ⟨-, hrevisionText⟩, -, hheadText⟩ :=
    approvedReceipt_eq_ok.mp happroved
  obtain ⟨hreceiptId, hrevisionId, hheadId⟩ := hreview.2.review rfl receipt hreceipt
  refine under_ask_bind (passable_about "revision" (by simp [commandWords])
    (hrevisionId revisionId hrevisionText)) fun revision hrevision => ?_
  refine under_ask_bind (passable_about "head" (by simp [commandWords])
    (hheadId headId hheadText)) fun head hhead => ?_
  refine under_ofExcept_bind (contained_checkActive revision head revisionId) fun _ _ => ?_
  exact {
    proposalHash := hproposalHash
    inspection := hinspection.1
    semanticDiff := hdiff.1
    reviewReceipt := hreceipt ▸ hreview.1.member _
    reviewReceiptId := hreceiptId
    revision := hrevision.1
    head := hhead.1
    numbered := hhead.2.head rfl }

/-- Writing the prepared state. -/
theorem under_writeNew {state : Object F} (h : PrintsInside script 0 (.dict state)) (path : Str) :
    (writeNew script path state).Under (Answered script heads contents) Startable (fun _ => True)
      IsOwn := by
  unfold writeNew
  refine under_ask_bind trivial fun found _ => ?_
  split
  · exact ⟨_, rfl⟩
  · refine under_ask_bind trivial fun _ _ => ?_
    refine under_ofExcept_bind (contained_receiptText h) fun content _ => ?_
    exact ⟨trivial, fun _ _ => trivial⟩

/-- `prepare`. -/
theorem under_prepare {sourceTaskId : Str} (h : Usable script prepareTexts scenario)
    (htask : Passable sourceTaskId) (hindented : 3 ≤ script.py.limits.indented) (path : Str) :
    (prepare script scenario sourceTaskId path).Under
      (Answered script (Numbered script) contents) Startable (fun _ => True) IsOwn := by
  have hpasses (key : String) (hkey : key ∈ prepareTexts) := h.passes key hkey
  unfold prepare
  refine under_ask_bind trivial fun found _ => ?_
  split
  · exact ⟨_, rfl⟩
  · refine under_ofExcept_bind (contained_requireText (h.fits.member _) _) fun key hstable => ?_
    obtain ⟨-, hkeyText⟩ := requireText_eq_ok.mp hstable
    have hkey := hpasses "stable_key" (by simp [prepareTexts]) key hkeyText
    refine (under_approveProposal h htask hkey).bind fun reviewed hreviewed => ?_
    refine (under_useAndInspect (h.fits.member _)
      (hpasses "fresh_use_prompt" (by simp [prepareTexts])) hkey hindented _ _).bind
      fun firstUse huse => ?_
    refine under_ofExcept_bind
      (contained_preparedState h.fits hreviewed sourceTaskId key firstUse) fun state hstate => ?_
    exact (under_writeNew (printsInside_preparedState hreviewed huse hstate) path).bind
      fun _ _ => trivial

omit [PyFloat F] in
/-- Retiring the head. -/
theorem under_retireHead {state : Object F} {headId key : Str}
    (h : Usable script resumeTexts scenario) (hstate : FitsInside script 0 (.dict state))
    (hresumed : Continuable script state) (hid : Passable headId) (hkey : Passable key) :
    (retireHead script scenario state headId key).Under (Answered script heads contents) Startable
      (fun r => FitsInside script 0 (.dict r.1) ∧ FitsInside script 0 (.dict r.2.1) ∧
        PrintsInside script 1 (get r.1 (lit "receipt_id"))) IsOwn := by
  unfold retireHead
  refine under_ofExcept_bind (contained_retireArguments h.fits hstate
    (hresumed.there _ (by simp [subscripts])) headId) fun retire hretire => ?_
  have hstart := passable_retireArguments h hid
    (hresumed.passes "head_generation" (by simp [subscripts])) hretire
  obtain ⟨_, _, -, -, rfl⟩ := retireArguments_eq_ok.mp hretire
  refine under_ask_bind hstart fun lifecycle hlifecycle => ?_
  refine under_ofExcept_bind (contained_retiredReceipt lifecycle) fun receipt hreceipt => ?_
  obtain ⟨⟨-, hreceipt⟩, -⟩ := retiredReceipt_eq_ok.mp hreceipt
  have hrecordable := hlifecycle.2.lifecycle rfl receipt hreceipt
  refine under_ask_bind (passable_about "head" (by simp [commandWords]) hid)
    fun retiredHead hhead => ?_
  refine under_ofExcept_bind (contained_checkRetired retiredHead) fun _ _ => ?_
  refine under_ofExcept_bind (contained_useArguments (h.fits.member _) key _)
    fun arguments harguments => ?_
  have hprompt := h.passes "post_retirement_use_prompt" (by simp [resumeTexts])
  refine under_ask_bind (passable_useArguments hkey hprompt harguments) fun refusal _ => ?_
  refine under_ofExcept_bind (contained_checkFailure refusal) fun _ _ => ?_
  exact ⟨hreceipt ▸ hlifecycle.1.member _, hhead.1, hrecordable⟩

/-- Replacing the state file. -/
theorem under_replaceWith {state : Object F} (h : PrintsInside script 0 (.dict state)) :
    (replaceWith script state).Under (Answered script heads contents) Startable (fun _ => True)
      IsOwn := by
  unfold replaceWith
  refine under_ofExcept_bind (contained_receiptText h) fun content _ => ?_
  exact ⟨trivial, fun _ _ => ⟨trivial, fun _ _ => trivial⟩⟩

/-- `resume`. -/
theorem under_resume (h : Usable script resumeTexts scenario)
    (hindented : 3 ≤ script.py.limits.indented) (path : Str) :
    (resume script scenario path).Under
      (Answered script heads (Resumable script scenario)) Startable (fun _ => True) IsOwn := by
  unfold resume
  refine under_ask_bind trivial fun content hcontent => ?_
  refine under_ofExcept_bind (contained_loadObject hcontent path) fun state hloaded => ?_
  obtain ⟨text, rfl, hloads⟩ := loadObject_eq_ok.mp hloaded
  have hstate := fitsInside_of_loads hloads
  refine under_ofExcept_bind (contained_checkState h.fits state) fun _ hchecked => ?_
  obtain ⟨⟨hcontract, hphase⟩, hscenario⟩ := checkState_eq_ok.mp hchecked
  have hresumed := hcontent.2 state hloads ⟨hcontract, hphase⟩ hscenario
  have hpassed {key : String} (hkey : key ∈ subscripts) {t : Str}
      (ht : stateText script state key = .ok t) : Passable t :=
    hresumed.passes key hkey t (stateText_eq_ok.mp ht).2
  refine under_ofExcept_bind (contained_stateText hstate (hresumed.there _ (by simp [subscripts])))
    fun revisionId hrevisionText => ?_
  refine under_ofExcept_bind (contained_stateText hstate (hresumed.there _ (by simp [subscripts])))
    fun headId hheadText => ?_
  refine under_ofExcept_bind (contained_stateText hstate (hresumed.there _ (by simp [subscripts])))
    fun key hkeyText => ?_
  have hheadId := hpassed (by simp [subscripts]) hheadText
  have hkey := hpassed (by simp [subscripts]) hkeyText
  refine under_ask_bind (passable_about "revision" (by simp [commandWords])
    (hpassed (by simp [subscripts]) hrevisionText)) fun revision hrevision => ?_
  refine under_ask_bind (passable_about "head" (by simp [commandWords]) hheadId)
    fun head hhead => ?_
  refine under_ofExcept_bind (contained_checkUnchanged hrevision.1 hhead.1 state revisionId)
    fun _ _ => ?_
  have hprompt := h.passes "restart_use_prompt" (by simp [resumeTexts])
  refine (under_useAndInspect (h.fits.member _) hprompt hkey hindented _ revisionId).bind
    fun restartUse huse => ?_
  refine (under_retireHead h hstate hresumed hheadId hkey).bind fun retired hretired => ?_
  obtain ⟨receipt, retiredHead, refusal⟩ := retired
  obtain ⟨hreceipt, hretiredHead, hreceiptId⟩ := hretired
  refine under_ofExcept_bind
    (contained_completion hreceipt hretiredHead restartUse refusal) fun members hmembers => ?_
  exact (under_replaceWith (printsInside_updated hresumed.prints huse hreceiptId hmembers)).bind
    fun _ _ => trivial

/-! ### Through the public CLI -/

/-- The response of a process can be taken apart. -/
theorem answered_of_processed {op : Action} {raw : CliResponse op} {a : Response F op}
    (h : Processed script heads contents op raw) (ha : ofProcess script.py.limits op raw = .ok a) :
    Answered script heads contents op a := by
  cases op with
  | json arguments =>
    have hcli : cliJson script.py.limits raw = .ok a := ha
    unfold cliJson at hcli
    split at hcli
    · simp at hcli
    · next hcode =>
      obtain ⟨t, ht, hfound⟩ := found_of_parseJsonOutput hcli
      exact ⟨hfound.fits, (h (by simpa using hcode)).2 t a ht hfound⟩
  | readState =>
    obtain rfl := Except.ok.inj ha
    exact h
  | _ => trivial

/-- A process without a response makes the script fail. -/
theorem own_of_processed {op : Action} {raw : CliResponse op} {e : Raised JourneyError}
    (h : Processed script heads contents op raw)
    (he : (ofProcess script.py.limits op raw : Checked (Response F op)) = .error e) :
    IsOwn e := by
  cases op with
  | json arguments =>
    have hcli : (cliJson script.py.limits raw : Checked (Object F)) = .error e := he
    unfold cliJson at hcli
    split at hcli
    · exact contained_journeyError _ e hcli
    · next hcode => exact contained_parseJsonOutput.mpr (h (by simpa using hcode)).1 e hcli
  | failure arguments => exact contained_ite (contained_journeyError _) (contained_ok _) e he
  | _ => cases he

/-- An execution that is not finished, has returned, or has raised `JourneyError`. -/
def RaisesOwn {α : Type} (o : Outcome (Raised JourneyError) α) : Prop :=
  o = .running ∨ (∃ a, o = .returned a) ∨ ∃ e, o = .raised (.own e)

/-- A phase that relies on its responses relies on the processes. -/
theorem raisesOwn_of_under {α : Type} {phase : Phase F α} {url : Str} {es : List CliEvent}
    {o : Outcome (Raised JourneyError) α} (hurl : Passable url)
    (hphase : phase.Under (Answered script heads contents) Startable (fun _ => True) IsOwn)
    (ht : Trace (overCli script url phase) es o)
    (hes : ∀ x ∈ es, x.As (Processed script heads contents)) : RaisesOwn o := by
  have hchecked := hphase.checked fun _ => startCommand_eq_ok hurl
  have hunder : (overCli script url phase).Under (Processed script heads contents) Startable
      (fun _ => True) IsOwn :=
    hchecked.through (fun _ _ _ => answered_of_processed) fun _ _ _ => own_of_processed
  obtain hrunning | ⟨a, ha, -⟩ | ⟨e, rfl, d, rfl⟩ := ht.under hunder hes
  · exact .inl hrunning
  · exact .inr (.inl ⟨a, ha⟩)
  · exact .inr (.inr ⟨d, rfl⟩)

/-- `prepare` and `resume` raise nothing but `JourneyError` in an execution in which every
process fails or prints a receipt that can be taken apart, `prepare` finds a numbered head
and `resume` a state that it can continue. The scenario has to be printable, and its texts have
to be such that a process can be started with them. -/
theorem journey_raisesOwn (script : Script F) (scenario : Object F) (path : Str) {url : Str}
    (hindented : 3 ≤ script.py.limits.indented) (hurl : Passable url) :
    (Usable script prepareTexts scenario → ∀ sourceTaskId es o, Passable sourceTaskId →
      Trace (overCli script url (prepare script scenario sourceTaskId path)) es o →
      (∀ x ∈ es, x.As (Processed script (Numbered script) fun _ => True)) → RaisesOwn o) ∧
    (Usable script resumeTexts scenario → ∀ es o,
      Trace (overCli script url (resume script scenario path)) es o →
      (∀ x ∈ es, x.As (Processed script (fun _ => True) (Resumable script scenario))) →
        RaisesOwn o) := by
  constructor
  · intro hscenario sourceTaskId es o htask ht hes
    exact raisesOwn_of_under hurl (under_prepare hscenario htask hindented path) ht hes
  · intro hscenario es o ht hes
    exact raisesOwn_of_under hurl (under_resume hscenario hindented path) ht hes

/-! ### Sample runs -/

/-- Processes that print the response to each command, and a state file. -/
def printingHost (replies : Option Str → Object Unit) (content : Str) (_ : List CliEvent) :
    (op : Action) → Option (CliResponse op)
  | .json arguments =>
      some ⟨0, Json.encode (Json.Layout.compact true) 0 (.dict (replies arguments[1]?)), []⟩
  | .failure _ => some ⟨1, [], lit "cognition_use_not_completed"⟩
  | .stateExists => some false
  | .readState => some (.ok content)
  | .makeParents | .writeState _ | .writeTemporary _ | .replaceState => some ()

/-- The sample of `prepare` with printed responses. -/
def printedPrepare (replies : Option Str → Object Unit) :
    List CliEvent × Outcome (Raised JourneyError) (Object Unit) :=
  (overCli sampleScript (lit "http://localhost:8000")
    (prepare sampleScript sampleScenario (lit "task") (lit "state"))).run
    (printingHost replies []) []

/-- The sample of `resume` with a state file, and without any members in its responses. -/
def printedResume (content : Str) : List CliEvent × Outcome (Raised JourneyError) (Object Unit) :=
  (overCli sampleScript (lit "http://localhost:8000")
    (resume sampleScript sampleScenario (lit "state"))).run
    (printingHost (fun _ => []) content) []

/-- A teaching process that prints an empty object, or the access before it. -/
def CliEvent.teachesNothing : CliEvent → Bool
  | ⟨.stateExists, some _⟩ => true
  | ⟨.json arguments, some completed⟩ =>
      arguments[1]? = some (lit "teach") && completed.stdout = lit "\x7b\x7d"
  | _ => false

/-- Nothing else is found in this output. -/
theorem eq_nil_of_found {t : Str} {response : Object Unit} (ht : t <:+ lit "\x7b\x7d")
    (h : Found asciiInterpreter.limits t response) : response = [] := by
  obtain ⟨hhead, rest, hdecode, -⟩ := h
  have htails : (lit "\x7b\x7d").tails = [lit "\x7b\x7d", lit "\x7d", []] := rfl
  have hmem : t ∈ (lit "\x7b\x7d").tails := (List.mem_tails _ _).mpr ht
  simp only [htails, List.mem_cons, List.not_mem_nil, or_false] at hmem
  obtain rfl | rfl | rfl := hmem
  · have hempty : Json.rawDecode (dataHooks asciiInterpreter.limits)
        asciiInterpreter.limits.nesting (lit "\x7b\x7d") = .ok (Data.dict ([] : Object Unit), []) :=
      rfl
    rw [hempty] at hdecode
    exact (Data.dict.inj (Prod.mk.inj (Except.ok.inj hdecode)).1).symm
  · exact absurd hhead (by decide)
  · cases hhead

/-- The empty object is found before any limit, and there is nothing to take apart. -/
theorem processed_of_teachesNothing {x : CliEvent} (h : x.teachesNothing = true) :
    x.As (Processed sampleScript (Numbered sampleScript) fun _ => True) := by
  have hfirst : ReceiptFirst Unit asciiInterpreter.limits (lit "\x7b\x7d") := by
    have hparsed : parseJsonOutput asciiInterpreter.limits (lit "\x7b\x7d") =
        .ok ([] : Object Unit) := rfl
    exact contained_parseJsonOutput.mp (hparsed ▸ contained_ok _)
  obtain ⟨op, answer⟩ := x
  cases answer with
  | none => cases op <;> cases h
  | some answer =>
    cases op with
    | json arguments =>
      obtain ⟨hverb, hstdout⟩ : arguments[1]? = some (lit "teach") ∧
          answer.stdout = lit "\x7b\x7d" := by simpa [CliEvent.teachesNothing] using h
      refine ⟨answer, rfl, fun _ => ⟨hstdout ▸ hfirst, fun t response ht hfound => ?_⟩⟩
      obtain rfl := eq_nil_of_found (hstdout ▸ ht) hfound
      exact {
        teach := fun _ _ hproposal => by cases hproposal
        review := fun _ _ hreceipt => by cases hreceipt
        lifecycle := fun _ _ hreceipt => by cases hreceipt
        use := by simp [hverb]
        receipt := by simp [hverb]
        head := by simp [hverb] }
    | stateExists => exact ⟨answer, rfl, trivial⟩
    | _ => cases h

/-- Where the teaching process prints an empty object, `prepare` raises `JourneyError`. -/
theorem emptyReplies_raisesOwn : (printedPrepare fun _ => []).1.length = 2 ∧
    (printedPrepare fun _ => []).2.isReturned = false ∧
    RaisesOwn (printedPrepare fun _ => []).2 := by
  have hsample : (printedPrepare fun _ => []).1.length = 2 ∧
      (printedPrepare fun _ => []).2.isReturned = false ∧
      ∀ x ∈ (printedPrepare fun _ => []).1, x.teachesNothing = true := by decide +kernel
  have hscenario : Usable sampleScript prepareTexts sampleScenario := by
    refine ⟨by unfold FitsInside; decide +kernel, fun key _ => ?_⟩
    exact passes_textObject (by decide +kernel) _
  refine ⟨hsample.1, hsample.2.1, (journey_raisesOwn sampleScript sampleScenario (lit "state")
    (by decide) (by decide +kernel)).1 hscenario (lit "task") _ _ (by decide +kernel)
    (Program.run_trace _ _ _) fun x hx => ?_⟩
  exact processed_of_teachesNothing (hsample.2.2 x hx)

/-- The built-in exception with which an execution has ended. -/
def escaped {α : Type} : Outcome (Raised JourneyError) α → Option BuiltinError
  | .raised (.builtin e) => some e
  | _ => none

/-- Responses as in the sample, with `null` for the selected revisions of the task. -/
def nullReplies (verb : Option Str) : Object Unit :=
  if verb = some (lit "use") then
    [(lit "status", .str (lit "completed")),
      (lit "cognition_selection_receipt", .dict [(lit "selected_revision_ids", .none)]),
      (lit "cognition_use_receipt", .dict sampleUse), (lit "id", .str (lit "t"))]
  else sampleReply [] verb

/-- A prepared receipt of the sample scenario without its other members. -/
def shortObject : Object Unit := textObject
  [("contract_version", "ace.market.gc1-external-consumer/v1"), ("phase", "prepared"),
    ("scenario_hash", "03435cd652c1da9149ead2059ba29008f3922be590b196e3f1d25ae5b8aba918")]

/-- The text of its file. -/
def shortState : Str := Json.encode Json.Layout.indented 0 (.dict shortObject) ++ lit "\n"

/-- The file holds a JSON object that `resume` takes for a receipt of the scenario, and the
missing revision is a `KeyError`. The `null` of a response is a `TypeError`. -/
theorem shortState_escapes :
    (∃ es o, Trace (overCli sampleScript (lit "http://localhost:8000")
        (resume sampleScript sampleScenario (lit "state"))) es o ∧
      es.head? = some ⟨.readState, some (.ok shortState)⟩ ∧
      (∃ state : Object Unit, jsonLoads sampleScript.py.limits shortState = .ok (.dict state)) ∧
      escaped o = some .keyError ∧ ¬RaisesOwn o) ∧
    ∃ es o, Trace (overCli sampleScript (lit "http://localhost:8000")
        (prepare sampleScript sampleScenario (lit "task") (lit "state"))) es o ∧
      (∀ x ∈ es, x.answer.isSome = true) ∧ escaped o = some .typeError ∧ ¬RaisesOwn o := by
  have hnot {o : Outcome (Raised JourneyError) (Object Unit)} {e : BuiltinError}
      (h : escaped o = some e) : ¬RaisesOwn o := by
    rintro (rfl | ⟨a, rfl⟩ | ⟨d, rfl⟩) <;> cases h
  have hfits : (Data.dict shortObject).fits sampleScript.py.limits
      sampleScript.py.limits.indented = .ok () := by decide +kernel
  have htext : receiptText sampleScript shortObject = .ok shortState :=
    receiptText_eq_ok.mpr ⟨_, bind_eq_ok.mpr ⟨(), hfits, rfl⟩, rfl⟩
  have hkey : escaped (printedResume shortState).2 = some .keyError := by decide +kernel
  have htype : escaped (printedPrepare nullReplies).2 = some .typeError ∧
      ∀ x ∈ (printedPrepare nullReplies).1, x.answer.isSome = true := by decide +kernel
  constructor
  · exact ⟨_, _, Program.run_trace _ [] _, Program.run_ask_head _ [] _ _,
      ⟨_, receiptText_loads htext⟩, hkey, hnot hkey⟩
  · exact ⟨_, _, Program.run_trace _ [] _, htype.2, htype.1, hnot htype.1⟩

end MarketIntelligence.Journey
