import MarketIntelligence.Journey.Order
import MarketIntelligence.Journey.Passages
import MarketIntelligence.Python.SameValue

/-!
# Identities in the responses

An object that is fetched or received by reference should be the one that was asked for.
Which of these links a returning phase has established, and which depend on the runner.
-/

namespace MarketIntelligence.Journey

open Python Interaction

variable {F : Type}

/-! ### Links between responses -/

/-- A value that is there, with this text. -/
def Names (script : Script F) (value : Data F) (id : Str) : Prop :=
  value ≠ .none ∧ value.toStr script.py = .ok id

/-- A value names what a member of another object refers to. -/
def Answers (script : Script F) (asked : Object F) (path : List String) (value : Data F) : Prop :=
  ∃ id, argument script asked path = .ok id ∧ Names script value id

/-- Where an object names a proposal, it is the taught one. -/
def OfTaught (script : Script F) (taught x : Object F) : Prop :=
  ∀ path ∈ [["proposal_id"], ["proposal", "proposal_id"]], memberAt (.dict x) path ≠ .none →
    Answers script taught ["proposal", "proposal_id"] (memberAt (.dict x) path)

/-- The revisions that a receipt lists. -/
def Selects (script : Script F) (receipt : Object F) (ids : List Str) : Prop :=
  ∃ items, selectedItems receipt = .ok items ∧ texts script items = .ok ids

/-- Retrieved receipts are those embedded in a task. -/
structure SameReceipts (script : Script F)
    (embeddedSelection embeddedUse selection use : Object F) : Prop where
  selectionId : Answers script embeddedSelection ["selection_receipt_id"]
    (get selection (lit "selection_receipt_id"))
  useId : Answers script embeddedUse ["use_receipt_id"] (get use (lit "use_receipt_id"))
  selected : ∃ ids, Selects script embeddedSelection ids ∧ Selects script selection ids
  used : ∃ ids, Selects script embeddedUse ids ∧ Selects script use ids
  state : get use (lit "state") = .str (lit "used")
  material : (get use (lit "material_use_hash")).eq script.py
    (get embeddedUse (lit "material_use_hash")) = true

/-- The receipts of a use are retrieved as its task embeds them. -/
def UseLinked (script : Script F) (task selection use : Object F) : Prop :=
  ∃ embeddedSelection embeddedUse,
    get task (lit "cognition_selection_receipt") = .dict embeddedSelection ∧
    get task (lit "cognition_use_receipt") = .dict embeddedUse ∧
    SameReceipts script embeddedSelection embeddedUse selection use

/-- Every response of `prepare` is about what was asked for. -/
structure PrepareLinked (script : Script F) (r : PrepareReplies F) : Prop where
  inspection : OfTaught script r.taught r.inspection
  semanticDiff : OfTaught script r.taught r.semanticDiff
  review : ∀ receipt, get r.review (lit "review_receipt") = .dict receipt →
    OfTaught script r.taught receipt
  revision : Answers script r.review ["review_receipt", "result_revision_id"]
    (get r.revision (lit "revision_id"))
  head : Answers script r.review ["review_receipt", "result_head_id"]
    (get r.head (lit "head_id"))
  use : UseLinked script r.task r.selection r.use

/-- Every response of `resume` is about what was asked for. -/
structure ResumeLinked (script : Script F) (state : Object F) (r : ResumeReplies F) : Prop where
  revision : Answers script state ["revision_id"] (get r.revision (lit "revision_id"))
  head : Answers script state ["head_id"] (get r.head (lit "head_id"))
  retiredHead : Answers script state ["head_id"] (get r.retiredHead (lit "head_id"))
  use : UseLinked script r.task r.selection r.use

/-- The responses of `prepare` in order determine them. -/
theorem PrepareReplies.eq_of_toList {r s : PrepareReplies F} (h : r.toList = s.toList) : r = s := by
  cases r
  cases s
  simpa [PrepareReplies.toList] using h

/-- The responses of `resume` in order determine them. -/
theorem ResumeReplies.eq_of_toList {r s : ResumeReplies F} (h : r.toList = s.toList) : r = s := by
  cases r
  cases s
  simpa [ResumeReplies.toList] using h

/-! ### What the script leaves to the runner -/

/-- The runner retrieves the receipts that it was asked for, and the use is still used. -/
structure ReceiptsUncrossed (script : Script F) (task selection use : Object F) : Prop where
  selectionId : Answers script task ["cognition_selection_receipt", "selection_receipt_id"]
    (get selection (lit "selection_receipt_id"))
  useId : Answers script task ["cognition_use_receipt", "use_receipt_id"]
    (get use (lit "use_receipt_id"))
  state : get use (lit "state") = .str (lit "used")

/-- The runner of `prepare` does not answer about another proposal, head or receipt. -/
structure PrepareUncrossed (script : Script F) (r : PrepareReplies F) : Prop where
  proposals : ∀ x, x = r.inspection ∨ x = r.semanticDiff ∨
    get r.review (lit "review_receipt") = .dict x → OfTaught script r.taught x
  head : Answers script r.review ["review_receipt", "result_head_id"]
    (get r.head (lit "head_id"))
  receipts : ReceiptsUncrossed script r.task r.selection r.use

/-- The runner of `resume` does not answer about another revision, head or receipt. -/
structure ResumeUncrossed (script : Script F) (state : Object F) (r : ResumeReplies F) :
    Prop where
  revision : Answers script state ["revision_id"] (get r.revision (lit "revision_id"))
  heads : ∀ x, x = r.head ∨ x = r.retiredHead →
    Answers script state ["head_id"] (get x (lit "head_id"))
  receipts : ReceiptsUncrossed script r.task r.selection r.use

/-! ### What the gates link -/

/-- Items that equal texts are these texts. -/
theorem eqItems_texts {script : Script F} {items : List (Data F)} {ids : List Str}
    (h : Data.eqItems script.py items (ids.map .str) = true) : items = ids.map .str := by
  induction items generalizing ids with
  | nil =>
    cases ids with
    | nil => rfl
    | cons id ids => simp [Data.eqItems] at h
  | cons x items ih =>
    cases ids with
    | nil => simp [Data.eqItems] at h
    | cons id ids =>
      rw [List.map_cons, Data.eqItems, Bool.and_eq_true] at h
      obtain ⟨hx, hitems⟩ := h
      cases x with
      | str t =>
        obtain rfl : t = id := by simpa [Data.floatItems, Data.eq] using hx
        rw [ih hitems, List.map_cons]
      | _ => simp [Data.floatItems, Data.eq] at hx

/-- The texts of texts. -/
theorem texts_str (script : Script F) (ids : List Str) :
    texts script (ids.map .str) = .ok ids := by
  induction ids with
  | nil => rfl
  | cons id ids ih =>
    have hid : text script (.str id : Data F) = .ok id := text_eq_ok.mpr rfl
    rw [List.map_cons, texts, hid, ih]
    rfl

/-- A retrieved receipt with the attributed revisions selects them. -/
theorem selects_of_eqItems {script : Script F} {receipt : Object F} {ids : List Str}
    (h : ∃ items, selectedItems receipt = .ok items ∧
      Data.eqItems script.py items (ids.map .str) = true) : Selects script receipt ids := by
  obtain ⟨items, hitems, heq⟩ := h
  refine ⟨items, hitems, ?_⟩
  rw [eqItems_texts heq, texts_str]

/-- The argument under a nested key. -/
theorem argument_cons {script : Script F} {x inner : Object F} {key : String}
    {path : List String} (h : get x (lit key) = .dict inner) :
    argument script x (key :: path) = argument script inner path := by
  rw [argument, memberAt, h, argument]

/-- A value under a nested reference. -/
theorem answers_cons {script : Script F} {x inner : Object F} {key : String}
    {path : List String} {value : Data F} (h : get x (lit key) = .dict inner) :
    Answers script x (key :: path) value ↔ Answers script inner path value := by
  rw [Answers, argument_cons h, Answers]

/-- After the inspection of a use, its receipts are linked exactly if the runner has
retrieved the right ones. -/
theorem useLinked_iff {script : Script F} {task s u selection use : Object F} {revisionId : Str}
    {a : Attribution F} (ha : Attributed script task revisionId a s u)
    (hinspected : Inspected script a selection use) :
    UseLinked script task selection use ↔ ReceiptsUncrossed script task selection use := by
  constructor
  · rintro ⟨s', u', hs, hu, hsame⟩
    exact {
      selectionId := (answers_cons hs).mpr hsame.selectionId
      useId := (answers_cons hu).mpr hsame.useId
      state := hsame.state }
  · intro h
    refine ⟨s, u, ha.selectionReceipt, ha.useReceipt, {
      selectionId := (answers_cons ha.selectionReceipt).mp h.selectionId
      useId := (answers_cons ha.useReceipt).mp h.useId
      selected := ⟨a.selectedRevisionIds, ha.selected,
        selects_of_eqItems hinspected.selectedBySelection⟩
      used := ⟨a.selectedRevisionIds, ha.used, selects_of_eqItems hinspected.selectedByUse⟩
      state := h.state
      material := ?_ }⟩
    rw [ha.material]
    exact hinspected.material

/-- The receipts that a use has asked for are those of its task. -/
theorem UseGathered.arguments [PyFloat F] {script : Script F} {key : Str} {prompt : Data F}
    {message : String} {revisionId : Str} {task selection use : Object F} {a : Attribution F}
    {hashes : Str × Str} {es : List (Event F)}
    (h : UseGathered script key prompt message revisionId task selection use a hashes es) :
    ∃ t selectionId useId, prompt.toStr script.py = .ok t ∧
      argument script task ["cognition_selection_receipt", "selection_receipt_id"] =
        .ok selectionId ∧
      argument script task ["cognition_use_receipt", "use_receipt_id"] = .ok useId ∧
      es = [commandEvent [lit "cognition", lit "use", key, t] task,
        commandEvent [lit "cognition", lit "selection", selectionId] selection,
        commandEvent [lit "cognition", lit "use-receipt", useId] use] ∧
      (UseLinked script task selection use ↔ ReceiptsUncrossed script task selection use) := by
  obtain ⟨arguments, selectionId, useId, harguments, hselectionId, huseId, rfl⟩ := h.events
  obtain ⟨s, u, ha⟩ := useAttribution_eq_ok h.attributed
  obtain ⟨t, ⟨-, ht⟩, rfl⟩ := useArguments_eq_ok.mp harguments
  refine ⟨t, selectionId, useId, ht, ?_, ?_, rfl,
    useLinked_iff ha (inspectedHashes_eq_ok h.inspected)⟩
  · rw [argument_cons ha.selectionReceipt, ← text_eq_ok.mp hselectionId, ← ha.selectionReceiptId]
    rfl
  · rw [argument_cons ha.useReceipt, ← text_eq_ok.mp huseId, ← ha.useReceiptId]
    rfl

variable [PyFloat F]

/-- The links of a run of `prepare` that has returned. -/
theorem PrepareReturned.links {script : Script F} {scenario : Object F} {sourceTaskId : Str}
    {es : List (Event F)} {state : Object F} {content : Str} {reviewed : Reviewed F}
    {taught review task selection use : Object F} {a : Attribution F}
    (h : PrepareReturned script scenario sourceTaskId es state content reviewed taught review task
      selection use a) :
    ∃ r : PrepareReplies F, replies es = r.toList ∧
      (commands es).map .ok = prepareScript script scenario sourceTaskId r ∧
      (PrepareLinked script r ↔ PrepareUncrossed script r) := by
  let r : PrepareReplies F :=
    { taught, inspection := reviewed.inspection, semanticDiff := reviewed.semanticDiff, review,
      revision := reviewed.revision, head := reviewed.head, task, selection, use }
  refine ⟨r, h.responses, ?_⟩
  obtain ⟨key, hashes, before, used, hkey, hreviewed, hused, -, rfl⟩ := h.gathered
  obtain ⟨teach, hteach, rfl⟩ := hreviewed.events
  obtain ⟨t, selectionId, useId, ht, hselectionId, huseId, rfl, hreceipts⟩ := hused.arguments
  obtain ⟨name, description, intent, recipe, ⟨-, hname⟩, ⟨-, hdescription⟩, ⟨-, hintent⟩,
    ⟨-, hrecipe⟩, rfl⟩ := teachArguments_eq_ok.mp hteach
  have hkeyText := (requireText_eq_ok.mp hkey).2
  obtain ⟨-, ⟨-, hproposal⟩, -, hproposalId⟩ := taughtProposal_eq_ok.mp hreviewed.proposed
  obtain ⟨⟨-, hreceipt⟩, -, ⟨-, hrevisionId⟩, -, hheadId⟩ :=
    approvedReceipt_eq_ok.mp hreviewed.approved
  obtain ⟨hfetched, -, -⟩ := checkActive_eq_ok.mp hreviewed.active
  have hproposalArgument : argument script taught ["proposal", "proposal_id"] =
      .ok reviewed.proposalId := (argument_cons hproposal).trans hproposalId
  have hrevisionArgument : argument script review ["review_receipt", "result_revision_id"] =
      .ok reviewed.revisionId := (argument_cons hreceipt).trans hrevisionId
  have hheadArgument : argument script review ["review_receipt", "result_head_id"] =
      .ok reviewed.headId := (argument_cons hreceipt).trans hheadId
  have hscenario (field : String) : argument script scenario [field] =
      (get scenario (lit field)).toStr script.py := rfl
  constructor
  · simp [r, prepareScript, hproposalArgument, hrevisionArgument, hheadArgument, hselectionId,
      huseId, hscenario, hkeyText, hname, hdescription, hintent, hrecipe, ht]
    rfl
  · constructor
    · intro hlinked
      refine ⟨?_, hlinked.head, hreceipts.mp hlinked.use⟩
      rintro x (rfl | rfl | hx)
      · exact hlinked.inspection
      · exact hlinked.semanticDiff
      · exact hlinked.review x hx
    · intro huncrossed
      exact {
        inspection := huncrossed.proposals _ (.inl rfl)
        semanticDiff := huncrossed.proposals _ (.inr (.inl rfl))
        review := fun receipt hx => huncrossed.proposals receipt (.inr (.inr hx))
        revision := ⟨reviewed.revisionId, hrevisionArgument,
          by simp [Names, r, hfetched, Data.toStr]⟩
        head := huncrossed.head
        use := hreceipts.mpr huncrossed.receipts }

/-- The links of a run of `resume` that has returned. -/
theorem ResumeReturned.links {script : Script F} {scenario : Object F} {es : List (Event F)}
    {state revision head : Object F} {revisionId headId : Str} {task selection use : Object F}
    {a : Attribution F} {retiredHead : Object F}
    (h : ResumeReturned script scenario es state revision head revisionId headId task selection use
      a retiredHead) :
    Loaded script es state ∧ ∃ r : ResumeReplies F, replies es = r.toList ∧
      (commands es).map .ok = resumeScript script scenario state r ∧
      (ResumeLinked script state r ↔ ResumeUncrossed script state r) := by
  obtain ⟨stableKey, hashes, receipt, before, used, retired, rest, hunchanged, hused, hretired,
    ⟨arguments, refusal, content, harguments, rfl⟩, rfl⟩ := h.gathered
  obtain ⟨loaded, hloads, rfl⟩ := hunchanged.events
  obtain ⟨t, selectionId, useId, ht, hselectionId, huseId, rfl, hreceipts⟩ := hused.arguments
  obtain ⟨retire, lifecycle, hretire, -, rfl⟩ := hretired.events
  obtain ⟨rationale, generation, ⟨-, hrationale⟩, ⟨-, hgeneration⟩, rfl⟩ :=
    retireArguments_eq_ok.mp hretire
  obtain ⟨prompt, ⟨-, hprompt⟩, rfl⟩ := useArguments_eq_ok.mp harguments
  have hrevisionId := (stateText_eq_ok.mp hunchanged.revisionText).2
  have hheadId := (stateText_eq_ok.mp hunchanged.headText).2
  have hkey := (stateText_eq_ok.mp hunchanged.keyText).2
  have hsingle (x : Object F) (field : String) : argument script x [field] =
      (get x (lit field)).toStr script.py := rfl
  refine ⟨⟨loaded, rfl, hloads⟩, { revision, head, task, selection, use, lifecycle, retiredHead },
    rfl, ?_, ?_⟩
  · simp [resumeScript, hselectionId, huseId, hsingle, ht, hrationale, hgeneration, hprompt,
      hrevisionId, hheadId, hkey]
    rfl
  · constructor
    · intro hlinked
      refine ⟨hlinked.revision, ?_, hreceipts.mp hlinked.use⟩
      rintro x (rfl | rfl)
      · exact hlinked.head
      · exact hlinked.retiredHead
    · intro huncrossed
      exact {
        revision := huncrossed.revision
        head := huncrossed.heads _ (.inl rfl)
        retiredHead := huncrossed.heads _ (.inr rfl)
        use := hreceipts.mpr huncrossed.receipts }

/-- In every run that returns, the commands are those of the script, and the responses are
linked exactly if the runner has not crossed those that the script does not compare. -/
theorem identities_iff (script : Script F) (scenario : Object F) (path : Str) :
    (∀ sourceTaskId es state,
      Trace (prepare script scenario sourceTaskId path) es (.returned state) →
      ∃ r, replies es = r.toList ∧
        (commands es).map .ok = prepareScript script scenario sourceTaskId r ∧
        (PrepareLinked script r ↔ PrepareUncrossed script r)) ∧
    ∀ es result, Trace (resume script scenario path) es (.returned result) →
      ∃ state, Loaded script es state ∧ ∃ r, replies es = r.toList ∧
        (commands es).map .ok = resumeScript script scenario state r ∧
        (ResumeLinked script state r ↔ ResumeUncrossed script state r) := by
  constructor
  · intro sourceTaskId es state ht
    obtain ⟨content, reviewed, taught, review, task, selection, use, a, hreturned⟩ :=
      prepare_returned ht
    exact hreturned.links
  · intro es result ht
    obtain ⟨state, revision, head, revisionId, headId, task, selection, use, a, retiredHead,
      hreturned⟩ := resume_returned ht
    exact ⟨state, hreturned.links⟩

/-! ### A runner that answers about other objects -/

/-- The text that a sequence of events writes at its end. -/
def writtenText (es : List (Event Unit)) : Str :=
  match es.getLast? with
  | some ⟨.writeState content, _⟩ => content
  | _ => []

/-- The response to a command, with the identities that it names. -/
def namedReply (proposal head used : String) (past : List (Event Unit)) (verb : Option Str) :
    Object Unit :=
  if verb = some (lit "inspect") then
    sampleInspection ++ [(lit "proposal", .dict (textObject [("proposal_id", proposal)]))]
  else if verb = some (lit "use-receipt") then textObject
    [("selected_revision_ids", "r"), ("state", used), ("material_use_hash", "m"),
      ("use_receipt_id", "u")]
  else if verb = some (lit "head") then sampleReply past verb ++ textObject [("head_id", head)]
  else sampleReply past verb

/-- The SHA-256 digests of such responses. -/
def namedDigests : List (Object Unit × ℕ) :=
  [(namedReply "p" "d" "used" [] (some (lit "inspect")),
      0x9baaec169b90460898cb09ebdbcbf5872b1e06eef8c77fc69cd6bf3153fe50f2),
    (namedReply "q" "e" "revoked" [] (some (lit "inspect")),
      0xeccbb923d94a6c9ba53123784a0413ab1a57c7dad2309403052a65c9446fc225),
    (sampleHead ++ textObject [("head_id", "d")],
      0xffb287f21379eb4ebddc3a936d5333a17698cf0732d5888466e2d34fe685c76b),
    (sampleHead ++ textObject [("head_id", "e")],
      0x7fd772c99539fb15c069e1b6f3c3770005a5e6e5523be5d5f8e5d9c4f66f56e5),
    (sampleRetiredHead ++ textObject [("head_id", "d")],
      0xd9e246cd80b974094f31f32e1b4c9d9b57ce3cb2b1fbcd8f0c9b099b0d91bacb),
    (namedReply "q" "e" "revoked" [] (some (lit "use-receipt")),
      0x9d29000268bc2137497ec32ae5c474ddd4ae6c63f684b64b908d030659062ec7)]

/-- The script with these digests. -/
def namedScript : Script Unit where
  py := asciiInterpreter
  sha256 bytes :=
    match namedDigests.find? fun d =>
      asciiBytes (Json.encode (Json.Layout.compact true) 0 (.dict d.1)) = bytes with
    | some d => digestDigits d.2
    | none => sampleSha256 bytes

/-- The sample with such responses. -/
def namedHost (proposal head used : String) (content : Str) (past : List (Event Unit)) :
    (op : Action) → Option (Response Unit op)
  | .json arguments => some (namedReply proposal head used past arguments[1]?)
  | op => sampleHost content past op

/-- The execution of `prepare` with them. -/
def namedPrepare (proposal head used : String) :
    List (Event Unit) × Outcome (Raised JourneyError) (Object Unit) :=
  (prepare namedScript sampleScenario (lit "task") (lit "state")).run
    (namedHost proposal head used []) []

/-- The execution of `resume` on what it has written. -/
def namedResume : List (Event Unit) × Outcome (Raised JourneyError) (Object Unit) :=
  (resume namedScript sampleScenario (lit "state")).run
    (namedHost "p" "d" "used" (writtenText (namedPrepare "p" "d" "used").1)) []

/-- The responses to `prepare`. -/
def namedReplies (proposal head used : String) : PrepareReplies Unit where
  taught := sampleTaught
  inspection := namedReply proposal head used [] (some (lit "inspect"))
  semanticDiff := sampleDiff
  review := [(lit "review_receipt", .dict sampleReceipt)]
  revision := sampleRevision
  head := sampleHead ++ textObject [("head_id", head)]
  task := sampleTask
  selection := sampleSelection
  use := namedReply proposal head used [] (some (lit "use-receipt"))

/-- The responses to `resume`, where they are the right ones. -/
def namedResumeReplies : ResumeReplies Unit where
  revision := sampleRevision
  head := sampleHead ++ textObject [("head_id", "d")]
  task := sampleTask
  selection := sampleSelection
  use := namedReply "p" "d" "used" [] (some (lit "use-receipt"))
  lifecycle := [(lit "lifecycle_receipt", .dict sampleRetirement)]
  retiredHead := sampleRetiredHead ++ textObject [("head_id", "d")]

/-- The words of a command. -/
def Action.words : Action → List Str
  | .json arguments | .failure arguments => arguments
  | _ => []

/-- Both runs of `prepare` return after these responses. -/
theorem namedPrepare_returns : ∀ names ∈ [("p", "d", "used"), ("q", "e", "revoked")],
    (namedPrepare names.1 names.2.1 names.2.2).2.isReturned = true ∧
    alikeItems ((replies (namedPrepare names.1 names.2.1 names.2.2).1).map .dict)
      ((namedReplies names.1 names.2.1 names.2.2).toList.map .dict) = true := by
  decide +kernel

/-- `resume` returns after its responses, of which it has asked for `r` and `d`. -/
theorem namedResume_returns : namedResume.2.isReturned = true ∧
    alikeItems ((replies namedResume.1).map .dict)
      (namedResumeReplies.toList.map .dict) = true ∧
    ((commands namedResume.1).map Action.words).take 2 =
      [[lit "cognition", lit "revision", lit "r"], [lit "cognition", lit "head", lit "d"]] := by
  decide +kernel

/-- Responses that are written alike. -/
theorem eq_of_alikeReplies {xs ys : List (Object Unit)}
    (h : alikeItems (xs.map .dict) (ys.map .dict) = true) : xs = ys :=
  List.map_injective_iff.mpr (fun _ _ => Data.dict.inj) (eq_of_alikeItems h)

/-- The text under a path that was issued as an argument. -/
theorem argument_of_issued {script : Script Unit} {x : Object Unit} {path : List String}
    {verb id : Str} {op : Action}
    (h : (Except.ok op : Scripted) =
      do return .json [lit "cognition", verb, ← argument script x path])
    (hwords : op.words = [lit "cognition", verb, id]) : argument script x path = .ok id := by
  obtain ⟨t, ht, hop⟩ := bind_eq_ok.mp h.symm
  obtain rfl := Except.ok.inj hop
  obtain rfl : t = id := by simpa [Action.words] using hwords
  exact ht

/-- The right runner of `prepare` has crossed nothing. -/
theorem namedReplies_uncrossed : PrepareUncrossed namedScript (namedReplies "p" "d" "used") := by
  have htaught : argument namedScript (namedReplies "p" "d" "used").taught
      ["proposal", "proposal_id"] = .ok (lit "p") := rfl
  have hproposals : ∀ x ∈ [(namedReplies "p" "d" "used").inspection, sampleDiff, sampleReceipt],
      ∀ path ∈ [["proposal_id"], ["proposal", "proposal_id"]],
        (memberAt (.dict x) path).isNone = true ∨
        (memberAt (.dict x) path).eqStr (lit "p") = true := by decide +kernel
  refine ⟨fun x hx path hpath hthere => ?_, ?_, ?_⟩
  · have hmem : x ∈ [(namedReplies "p" "d" "used").inspection, sampleDiff, sampleReceipt] := by
      obtain rfl | rfl | hreceipt := hx
      · simp
      · simp [namedReplies]
      · have hdict : Data.dict x = .dict sampleReceipt := hreceipt.symm
        simp [Data.dict.inj hdict]
    obtain hnone | hp := hproposals x hmem path hpath
    · exact absurd (Data.isNone_iff.mp hnone) hthere
    · exact ⟨lit "p", htaught, hthere, by rw [Data.eqStr_iff.mp hp]; rfl⟩
  · exact ⟨lit "d", rfl, by simp [namedReplies, sampleHead, textObject], rfl⟩
  · exact ⟨⟨lit "s", rfl, by simp [namedReplies, sampleSelection, textObject], rfl⟩,
      ⟨lit "u", rfl, by simp [namedReplies, namedReply, textObject], rfl⟩, rfl⟩

/-- Where the runner answers about the right objects, the links hold in both phases. -/
theorem namedJourney_linked : PrepareLinked namedScript (namedReplies "p" "d" "used") ∧
    ∃ state, Loaded namedScript namedResume.1 state ∧
      ResumeLinked namedScript state namedResumeReplies := by
  obtain ⟨hprepare, hresume⟩ := identities_iff namedScript sampleScenario (lit "state")
  constructor
  · obtain ⟨hreturned, hreplies⟩ := namedPrepare_returns ("p", "d", "used") (by simp)
    obtain ⟨state, hstate⟩ := Outcome.exists_result hreturned
    have hrun := Program.run_trace (namedHost "p" "d" "used" []) []
      (prepare namedScript sampleScenario (lit "task") (lit "state"))
    obtain ⟨r, hr, -, hiff⟩ := hprepare (lit "task") (namedPrepare "p" "d" "used").1 state
      (hstate ▸ hrun)
    obtain rfl : r = namedReplies "p" "d" "used" :=
      PrepareReplies.eq_of_toList (hr.symm.trans (eq_of_alikeReplies hreplies))
    exact hiff.mpr namedReplies_uncrossed
  · obtain ⟨hreturned, hreplies, hwords⟩ := namedResume_returns
    obtain ⟨result, hresult⟩ := Outcome.exists_result hreturned
    have hrun := Program.run_trace (namedHost "p" "d" "used"
      (writtenText (namedPrepare "p" "d" "used").1)) []
      (resume namedScript sampleScenario (lit "state"))
    obtain ⟨state, hloaded, r, hr, hscript, hiff⟩ := hresume namedResume.1 result
      (hresult ▸ hrun)
    obtain rfl : r = namedResumeReplies :=
      ResumeReplies.eq_of_toList (hr.symm.trans (eq_of_alikeReplies hreplies))
    refine ⟨state, hloaded, hiff.mpr ?_⟩
    obtain ⟨revision, head, others, hissued⟩ : ∃ revision head others,
        commands namedResume.1 = revision :: head :: others := by
      cases hissued : commands namedResume.1 with
      | nil => simp [hissued] at hwords
      | cons revision others =>
        cases others with
        | nil => simp [hissued] at hwords
        | cons head others => exact ⟨revision, head, others, rfl⟩
    rw [hissued] at hscript hwords
    simp only [List.map_cons, List.take_succ_cons, List.take_zero, List.cons.injEq, and_true]
      at hwords
    obtain ⟨hrevisionWords, hheadWords⟩ := hwords
    simp only [List.map_cons, resumeScript, List.cons.injEq] at hscript
    have hrevision := argument_of_issued hscript.1 hrevisionWords
    have hhead := argument_of_issued hscript.2.1 hheadWords
    refine ⟨⟨lit "r", hrevision, by simp [namedResumeReplies, sampleRevision, textObject], rfl⟩,
      ?_, ?_⟩
    · rintro x (rfl | rfl)
      · exact ⟨lit "d", hhead, by simp [namedResumeReplies, sampleHead, textObject], rfl⟩
      · exact ⟨lit "d", hhead, by simp [namedResumeReplies, sampleRetiredHead, textObject], rfl⟩
    · exact ⟨⟨lit "s", rfl, by simp [namedResumeReplies, sampleSelection, textObject], rfl⟩,
        ⟨lit "u", rfl, by simp [namedResumeReplies, namedReply, textObject], rfl⟩, rfl⟩

/-- A runner that answers about another proposal and another head, and with a use receipt
that is revoked, is not rejected. -/
theorem crossedPrepare_returns : ∃ state,
    Trace (prepare namedScript sampleScenario (lit "task") (lit "state"))
      (namedPrepare "q" "e" "revoked").1 (.returned state) ∧
    replies (namedPrepare "q" "e" "revoked").1 = (namedReplies "q" "e" "revoked").toList ∧
    ¬OfTaught namedScript (namedReplies "q" "e" "revoked").taught
      (namedReplies "q" "e" "revoked").inspection ∧
    ¬Answers namedScript (namedReplies "q" "e" "revoked").review
      ["review_receipt", "result_head_id"]
      (get (namedReplies "q" "e" "revoked").head (lit "head_id")) ∧
    ¬UseLinked namedScript (namedReplies "q" "e" "revoked").task
      (namedReplies "q" "e" "revoked").selection (namedReplies "q" "e" "revoked").use ∧
    ¬PrepareLinked namedScript (namedReplies "q" "e" "revoked") := by
  obtain ⟨hreturned, hreplies⟩ := namedPrepare_returns ("q", "e", "revoked") (by simp)
  obtain ⟨state, hstate⟩ := Outcome.exists_result hreturned
  have hrun := Program.run_trace (namedHost "q" "e" "revoked" []) []
    (prepare namedScript sampleScenario (lit "task") (lit "state"))
  have hrevoked : ¬UseLinked namedScript (namedReplies "q" "e" "revoked").task
      (namedReplies "q" "e" "revoked").selection (namedReplies "q" "e" "revoked").use := by
    rintro ⟨s, u, -, -, hsame⟩
    exact absurd (Data.str.inj hsame.state) (by decide)
  refine ⟨state, hstate ▸ hrun, eq_of_alikeReplies hreplies, fun hproposal => ?_,
    fun hhead => ?_, hrevoked, fun hlinked => hrevoked hlinked.use⟩
  · obtain ⟨id, hid, -, htext⟩ := hproposal ["proposal", "proposal_id"] (by simp)
      (by simp [namedReplies, namedReply, memberAt, sampleInspection, textObject])
    obtain rfl : lit "p" = id := Except.ok.inj hid
    exact absurd (Except.ok.inj htext) (by decide)
  · obtain ⟨id, hid, -, htext⟩ := hhead
    obtain rfl : lit "d" = id := Except.ok.inj hid
    exact absurd (Except.ok.inj htext) (by decide)

end MarketIntelligence.Journey
