import MarketIntelligence.Interaction.Embedding
import MarketIntelligence.Journey.Distinct
import MarketIntelligence.Journey.Identities
import MarketIntelligence.Python.Fitting

/-!
# What a completed journey consists of

`prepare` and `resume` return after their commands were answered as the gates want it, and in
no other way. The answers are described here, for each phase and for both phases together,
where the state file has carried the answers of the first into the second.
-/

namespace MarketIntelligence.Journey

open Python Interaction

variable {F : Type}

/-! ### The gates of a use, in both directions -/

/-- A value that is there, with its text. -/
def GivesText (script : Script F) (value : Data F) (t : Str) : Prop :=
  value.isMissing = false ∧ value.toStr script.py = .ok t

/-- An object with a member that is there is no empty object. -/
theorem isMissing_dict_of_get {ms : Object F} {key : Str} (h : (get ms key).isMissing = false) :
    (Data.dict ms).isMissing = false := by
  cases ms with
  | nil => cases h
  | cons m ms => rfl

/-- An attribution with the identities that it is to report. -/
structure AttributedWhole (script : Script F) (task : Object F) (revisionId : Str)
    (a : Attribution F) : Prop where
  receipts : ∃ selection use, Attributed script task revisionId a selection use
  identified : a.taskId.isMissing = false
  selectionIdentified : a.selectionReceiptId.isMissing = false
  useIdentified : a.useReceiptId.isMissing = false

/-- What the receipts of a task attribute, exactly. -/
theorem attributedUse_eq_ok_iff {script : Script F} {task selection use : Object F}
    {revisionId : Str} {a : Attribution F} :
    attributedUse script task selection use revisionId = .ok a ↔
      Selects script selection a.selectedRevisionIds ∧ Selects script use a.selectedRevisionIds ∧
      revisionId ∈ a.selectedRevisionIds ∧
      (get use (lit "state") = .str (lit "used") ∧ a.materialUseHash.truthy script.py = true ∧
        get use (lit "material_use_hash") = a.materialUseHash) ∧
      (a.taskId.isMissing = false ∧ get task (lit "id") = a.taskId) ∧
      (a.selectionReceiptId.isMissing = false ∧
        get selection (lit "selection_receipt_id") = a.selectionReceiptId) ∧
      (a.useReceiptId.isMissing = false ∧ get use (lit "use_receipt_id") = a.useReceiptId) := by
  simp only [attributedUse, bind_eq_ok]
  constructor
  · rintro ⟨items, hitems, selected, hselected, usedItems, husedItems, used, hused, h⟩
    split at h
    · simp at h
    · next hsame =>
      simp only [not_or, not_not] at hsame
      obtain ⟨-, rfl, hrevision⟩ := hsame
      split at h
      · simp at h
      · next hmaterial =>
        simp only [Bool.or_eq_true, Bool.not_eq_true', not_or, Bool.not_eq_false] at hmaterial
        simp only [bind_eq_ok, require_eq_ok, pure_eq_ok, Except.ok.injEq] at h
        obtain ⟨_, ⟨htaskThere, rfl⟩, _, ⟨hselectionThere, rfl⟩, _, ⟨huseThere, rfl⟩, rfl⟩ := h
        exact ⟨⟨items, hitems, hselected⟩, ⟨usedItems, husedItems, hused⟩, hrevision,
          ⟨Data.eqStr_iff.mp hmaterial.1, hmaterial.2, rfl⟩, ⟨htaskThere, rfl⟩,
          ⟨hselectionThere, rfl⟩, huseThere, rfl⟩
  · obtain ⟨taskId, selectionId, useId, ids, material⟩ := a
    rintro ⟨⟨items, hitems, hselected⟩, ⟨usedItems, husedItems, hused⟩, hrevision,
      ⟨hstate, hmaterial, rfl⟩, ⟨htask, rfl⟩, ⟨hselection, rfl⟩, huse, rfl⟩
    refine ⟨items, hitems, ids, hselected, usedItems, husedItems, ids, hused, ?_⟩
    have hne : ids ≠ [] := List.ne_nil_of_mem hrevision
    rw [if_neg (by simp [hne, hrevision]), if_neg (by simp [Data.eqStr_iff.mpr hstate, hmaterial])]
    simp [require, htask, hselection, huse]

/-- A use is attributed exactly if its receipts show it and everything is identified. -/
theorem useAttribution_eq_ok_iff {script : Script F} {task : Object F} {revisionId : Str}
    {a : Attribution F} : useAttribution script task revisionId = .ok a ↔
      AttributedWhole script task revisionId a := by
  constructor
  · intro h
    have hreceipts := useAttribution_eq_ok h
    obtain ⟨selection, use, ha⟩ := hreceipts
    unfold useAttribution at h
    simp only [Data.eqStr_iff.mpr ha.completed, Bool.not_true, Bool.false_eq_true, if_false,
      bind_eq_ok, require_eq_ok, ha.selectionReceipt, ha.useReceipt] at h
    obtain ⟨_, ⟨-, rfl⟩, _, ⟨-, rfl⟩, hattributed⟩ := h
    obtain ⟨-, -, -, -, ⟨htask, -⟩, ⟨hselection, -⟩, huse, -⟩ :=
      attributedUse_eq_ok_iff.mp hattributed
    exact ⟨⟨selection, use, ha⟩, htask, hselection, huse⟩
  · rintro ⟨⟨selection, use, ha⟩, htask, hselection, huse⟩
    have hattributed : attributedUse script task selection use revisionId = .ok a :=
      attributedUse_eq_ok_iff.mpr ⟨ha.selected, ha.used, ha.revision,
        ⟨ha.state, ha.materialUse, ha.material⟩, ⟨htask, ha.taskId⟩,
        ⟨hselection, ha.selectionReceiptId⟩, huse, ha.useReceiptId⟩
    have hselectionThere : (Data.dict selection).isMissing = false :=
      isMissing_dict_of_get (ha.selectionReceiptId ▸ hselection)
    have huseThere : (Data.dict use).isMissing = false :=
      isMissing_dict_of_get (ha.useReceiptId ▸ huse)
    unfold useAttribution
    simp only [Data.eqStr_iff.mpr ha.completed, Bool.not_true, Bool.false_eq_true, if_false,
      bind_eq_ok, require_eq_ok, ha.selectionReceipt, ha.useReceipt]
    exact ⟨_, ⟨hselectionThere, rfl⟩, _, ⟨huseThere, rfl⟩, hattributed⟩

/-- A receipt passes exactly if it has the attributed revisions. -/
theorem checkSelected_eq_ok_iff {script : Script F} {receipt : Object F} {a : Attribution F}
    {message : String} {u : Unit} : checkSelected script receipt a message = .ok u ↔
      ∃ items, selectedItems receipt = .ok items ∧
        Data.eqItems script.py items (a.selectedRevisionIds.map .str) = true := by
  refine ⟨checkSelected_eq_ok, fun ⟨items, hitems, heq⟩ => ?_⟩
  exact bind_eq_ok.mpr ⟨items, hitems, by rw [if_pos heq]; rfl⟩

variable [PyFloat F]

/-- The hashes are exactly those of receipts that agree with the attribution. -/
theorem inspectedHashes_eq_ok_iff {script : Script F} {a : Attribution F}
    {selection use : Object F} {hashes : Str × Str} :
    inspectedHashes script a selection use = .ok hashes ↔ Inspected script a selection use ∧
      hash script (.dict selection) = .ok hashes.1 ∧ hash script (.dict use) = .ok hashes.2 := by
  constructor
  · intro h
    refine ⟨inspectedHashes_eq_ok h, ?_⟩
    obtain ⟨_, -, h⟩ := bind_eq_ok.mp h
    obtain ⟨_, -, h⟩ := bind_eq_ok.mp h
    split at h
    · simp at h
    · simp only [bind_eq_ok, pure_eq_ok, Except.ok.injEq] at h
      obtain ⟨selectionHash, hselection, useHash, huse, rfl⟩ := h
      exact ⟨hselection, huse⟩
  · rintro ⟨hinspected, hselection, huse⟩
    refine bind_eq_ok.mpr ⟨(), checkSelected_eq_ok_iff.mpr hinspected.selectedBySelection,
      bind_eq_ok.mpr ⟨(), checkSelected_eq_ok_iff.mpr hinspected.selectedByUse, ?_⟩⟩
    rw [hinspected.material]
    simp only [Bool.not_true, Bool.false_eq_true, if_false]
    exact bind_eq_ok.mpr ⟨_, hselection, bind_eq_ok.mpr ⟨_, huse, rfl⟩⟩

/-! ### Uses -/

/-- A use with its inspection that the gates accept: the task has used the revision, and the
receipts that are retrieved for it agree with it. -/
structure AcceptedUse (script : Script F) (key : Str) (prompt : Data F) (revisionId : Str)
    (task selection use : Object F) (a : Attribution F) (hashes : Str × Str)
    (es : List (Event F)) : Prop where
  attributed : AttributedWhole script task revisionId a
  inspected : Inspected script a selection use
  hashed : hash script (.dict selection) = .ok hashes.1 ∧ hash script (.dict use) = .ok hashes.2
  events : ∃ t selectionId useId, GivesText script prompt t ∧
    a.selectionReceiptId.toStr script.py = .ok selectionId ∧
    a.useReceiptId.toStr script.py = .ok useId ∧
    es = [commandEvent [lit "cognition", lit "use", key, t] task,
      commandEvent [lit "cognition", lit "selection", selectionId] selection,
      commandEvent [lit "cognition", lit "use-receipt", useId] use]

/-- A use returns exactly if it is accepted. -/
theorem useAndInspect_returns_iff {script : Script F} {key : Str} {prompt : Data F}
    {message : String} {revisionId : Str} {es : List (Event F)} {result : Data F} :
    Trace (useAndInspect script key prompt message revisionId) es (.returned result) ↔
      ∃ task selection use a hashes, result = inspectedUse a hashes ∧
        AcceptedUse script key prompt revisionId task selection use a hashes es := by
  unfold useAndInspect inspectUse json
  simp only [Program.bind_assoc, Trace.ofExcept_bind_returned, Trace.ask_bind_returned,
    useArguments_eq_ok, useAttribution_eq_ok_iff, text_eq_ok, inspectedHashes_eq_ok_iff]
  constructor
  · rintro ⟨_, ⟨t, ht, rfl⟩, task, _, rfl, a, ha, selectionId, hselectionId, selection, _, rfl,
      useId, huseId, use, _, rfl, hashes, ⟨hinspected, hhashes⟩, hend⟩
    cases hend
    exact ⟨task, selection, use, a, hashes, rfl, ha, hinspected, hhashes, t, selectionId, useId,
      ht, hselectionId, huseId, rfl⟩
  · rintro ⟨task, selection, use, a, hashes, rfl, ha, hinspected, hhashes, t, selectionId, useId,
      ht, hselectionId, huseId, rfl⟩
    exact ⟨_, ⟨t, ht, rfl⟩, task, _, rfl, a, ha, selectionId, hselectionId, selection, _, rfl,
      useId, huseId, use, _, rfl, hashes, ⟨hinspected, hhashes⟩, .done _⟩

/-! ### `prepare` -/

/-- The responses of a review that the gates accept: the proposal is not selectable before it is
approved and changes something, and the approved revision is the active one of its head. -/
structure AcceptedReview (script : Script F) (scenario : Object F) (sourceTaskId key : Str)
    (taught review : Object F) (r : Reviewed F) (es : List (Event F)) : Prop where
  unselectable : get taught (lit "selectable") = .bool false
  proposal : get taught (lit "proposal") = .dict r.proposal
  proposalId : GivesText script (get r.proposal (lit "proposal_id")) r.proposalId
  changes : (get r.semanticDiff (lit "changes")).truthy script.py = true
  pending : get r.inspection (lit "selectable") = .bool false
  receipt : get review (lit "review_receipt") = .dict r.reviewReceipt
  approved : get r.reviewReceipt (lit "disposition") = .str (lit "approve")
  revisionId : GivesText script (get r.reviewReceipt (lit "result_revision_id")) r.revisionId
  headId : GivesText script (get r.reviewReceipt (lit "result_head_id")) r.headId
  revision : get r.revision (lit "revision_id") = .str r.revisionId
  activeRevision : get r.head (lit "active_revision_id") = .str r.revisionId
  lifecycle : get r.head (lit "lifecycle") = .str (lit "active")
  events : ∃ name description intent recipe, GivesText script (get scenario (lit "name")) name ∧
    GivesText script (get scenario (lit "description")) description ∧
    GivesText script (get scenario (lit "intent")) intent ∧
    GivesText script (get scenario (lit "base_recipe")) recipe ∧
    es = [commandEvent [lit "cognition", lit "teach", sourceTaskId, lit "--stable-key", key,
        lit "--name", name, lit "--description", description, lit "--intent", intent,
        lit "--base-recipe", recipe] taught,
      commandEvent [lit "cognition", lit "inspect", r.proposalId] r.inspection,
      commandEvent [lit "cognition", lit "diff", r.proposalId] r.semanticDiff,
      commandEvent (reviewArguments r.proposalId) review,
      commandEvent [lit "cognition", lit "revision", r.revisionId] r.revision,
      commandEvent [lit "cognition", lit "head", r.headId] r.head]

omit [PyFloat F] in
/-- A proposal is approved exactly if the review is accepted. -/
theorem approveProposal_returns_iff {script : Script F} {scenario : Object F}
    {sourceTaskId key : Str} {es : List (Event F)} {r : Reviewed F} :
    Trace (approveProposal script scenario sourceTaskId key) es (.returned r) ↔
      ∃ taught review, AcceptedReview script scenario sourceTaskId key taught review r es := by
  unfold approveProposal json
  simp only [Trace.ofExcept_bind_returned, Trace.ask_bind_returned, Prod.exists,
    teachArguments_eq_ok, taughtProposal_eq_ok, checkPending_eq_ok, approvedReceipt_eq_ok,
    checkActive_eq_ok]
  constructor
  · rintro ⟨_, ⟨name, description, intent, recipe, hname, hdescription, hintent, hrecipe, rfl⟩,
      taught, _, rfl, proposal, proposalId, ⟨htaught, ⟨-, hproposal⟩, hproposalId⟩, inspection, _,
      rfl, semanticDiff, _, rfl, _, ⟨hchanges, hpending⟩, review, _, rfl, receipt, revisionId,
      headId, ⟨⟨-, hreceipt⟩, happroved, hrevisionId, hheadId⟩, revision, _, rfl, head, _, rfl, _,
      ⟨hrevision, hactive, hlifecycle⟩, hend⟩
    cases hend
    exact ⟨taught, review, htaught, hproposal, hproposalId, hchanges, hpending, hreceipt,
      happroved, hrevisionId, hheadId, hrevision, hactive, hlifecycle, name, description, intent,
      recipe, hname, hdescription, hintent, hrecipe, rfl⟩
  · rintro ⟨taught, review, htaught, hproposal, hproposalId, hchanges, hpending, hreceipt,
      happroved, hrevisionId, hheadId, hrevision, hactive, hlifecycle, name, description, intent,
      recipe, hname, hdescription, hintent, hrecipe, rfl⟩
    have hproposalThere : (get taught (lit "proposal")).isMissing = false :=
      hproposal ▸ isMissing_dict_of_get hproposalId.1
    have hreceiptThere : (get review (lit "review_receipt")).isMissing = false :=
      hreceipt ▸ isMissing_dict_of_get hrevisionId.1
    exact ⟨_, ⟨name, description, intent, recipe, hname, hdescription, hintent, hrecipe, rfl⟩,
      taught, _, rfl, r.proposal, r.proposalId, ⟨htaught, ⟨hproposalThere, hproposal⟩, hproposalId⟩,
      r.inspection, _, rfl, r.semanticDiff, _, rfl, (), ⟨hchanges, hpending⟩, review, _, rfl,
      r.reviewReceipt, r.revisionId, r.headId,
      ⟨⟨hreceiptThere, hreceipt⟩, happroved, hrevisionId, hheadId⟩, r.revision, _, rfl, r.head, _,
      rfl, (), ⟨hrevision, hactive, hlifecycle⟩, .done _⟩

/-- An accepted run of `prepare`: a review and a first use, between two looks at a state file
that is not there, and the receipt of both that is written to it. -/
structure AcceptedPrepare (script : Script F) (scenario : Object F) (sourceTaskId : Str)
    (es : List (Event F)) (state : Object F) (key content : Str) (r : Reviewed F)
    (taught review task selection use : Object F) (a : Attribution F) (hashes : Str × Str) :
    Prop where
  stableKey : GivesText script (get scenario (lit "stable_key")) key
  receipt : preparedState script scenario sourceTaskId key r (inspectedUse a hashes) = .ok state
  printed : receiptText script state = .ok content
  events : ∃ reviewed used, AcceptedReview script scenario sourceTaskId key taught review r
      reviewed ∧
    AcceptedUse script key (get scenario (lit "fresh_use_prompt")) r.revisionId task selection use a
      hashes used ∧
    es = ⟨.stateExists, some false⟩ :: (reviewed ++ (used ++
      [⟨.stateExists, some false⟩, ⟨.makeParents, some ()⟩, ⟨.writeState content, some ()⟩]))

/-- A receipt is written exactly if the file is not there and the receipt can be printed. -/
theorem writeNew_returns_iff {script : Script F} {path : Str} {state : Object F}
    {es : List (Event F)} : Trace (writeNew script path state) es (.returned ()) ↔
      ∃ content, receiptText script state = .ok content ∧
        es = [⟨.stateExists, some false⟩, ⟨.makeParents, some ()⟩,
          ⟨.writeState content, some ()⟩] := by
  unfold writeNew stateExists refusing makeParents writeState
  simp only [Trace.ask_bind_returned]
  constructor
  · rintro ⟨there, _, rfl, h⟩
    cases there with
    | true => cases h
    | false =>
      simp only [Bool.false_eq_true, if_false, Trace.ask_bind_returned,
        Trace.ofExcept_bind_returned, Trace.ask_returned] at h
      obtain ⟨_, _, rfl, content, hcontent, rfl⟩ := h
      exact ⟨content, hcontent, rfl⟩
  · rintro ⟨content, hcontent, rfl⟩
    refine ⟨false, _, rfl, ?_⟩
    simp only [Bool.false_eq_true, if_false, Trace.ask_bind_returned,
      Trace.ofExcept_bind_returned, Trace.ask_returned]
    exact ⟨(), _, rfl, content, hcontent, rfl⟩

/-- `prepare` returns exactly in the accepted runs. -/
theorem prepare_returns_iff (script : Script F) (scenario : Object F) (sourceTaskId path : Str)
    (es : List (Event F)) (state : Object F) :
    Trace (prepare script scenario sourceTaskId path) es (.returned state) ↔
      ∃ key content r taught review task selection use a hashes, AcceptedPrepare script scenario
        sourceTaskId es state key content r taught review task selection use a hashes := by
  unfold prepare stateExists
  constructor
  · intro ht
    obtain ⟨there, _, rfl, h⟩ := Trace.ask_bind_returned.mp ht
    cases there with
    | true => cases h
    | false =>
      obtain ⟨key, hkey, h⟩ := Trace.ofExcept_bind_returned.mp h
      obtain ⟨r, reviewed, _, rfl, hreview, h⟩ := Trace.bind_returned.mp h
      obtain ⟨_, used, _, rfl, huse, h⟩ := Trace.bind_returned.mp h
      obtain ⟨written, hstate, h⟩ := Trace.ofExcept_bind_returned.mp h
      obtain ⟨_, _, _, rfl, hwritten, hend⟩ := Trace.bind_returned.mp h
      obtain ⟨taught, review, hreviewed⟩ := approveProposal_returns_iff.mp hreview
      obtain ⟨task, selection, use, a, hashes, rfl, hused⟩ := useAndInspect_returns_iff.mp huse
      obtain ⟨content, hcontent, rfl⟩ := writeNew_returns_iff.mp hwritten
      cases hend
      exact ⟨key, content, r, taught, review, task, selection, use, a, hashes,
        requireText_eq_ok.mp hkey, hstate, hcontent, reviewed, used, hreviewed, hused, rfl⟩
  · rintro ⟨key, content, r, taught, review, task, selection, use, a, hashes, hkey, hstate,
      hcontent, reviewed, used, hreviewed, hused, rfl⟩
    have hreview := approveProposal_returns_iff.mpr ⟨taught, review, hreviewed⟩
    refine Trace.ask_bind_returned.mpr ⟨false, _, rfl, ?_⟩
    refine Trace.ofExcept_bind_returned.mpr ⟨key, requireText_eq_ok.mpr hkey, ?_⟩
    refine Trace.bind_returned.mpr ⟨r, reviewed, _, rfl, hreview, ?_⟩
    refine Trace.bind_returned.mpr ⟨_, used, _, rfl, useAndInspect_returns_iff.mpr
      ⟨task, selection, use, a, hashes, rfl, hused⟩, ?_⟩
    refine Trace.ofExcept_bind_returned.mpr ⟨state, hstate, ?_⟩
    exact Trace.bind_returned.mpr ⟨(), _, [], (List.append_nil _).symm,
      writeNew_returns_iff.mpr ⟨content, hcontent, rfl⟩, .done _⟩

/-! ### `resume` -/

/-- What a prepared state file carries over the restart. -/
structure Handover where
  scenarioHash : Str
  revisionHash : Str
  headHash : Str
  revisionId : Str
  headId : Str
  key : Str
  generation : Str

/-- A state that is a prepared receipt and carries this. -/
structure Carries (script : Script F) (state : Object F) (c : Handover) : Prop where
  contract : get state (lit "contract_version") = .str contractVersion
  phase : get state (lit "phase") = .str (lit "prepared")
  scenarioHash : get state (lit "scenario_hash") = .str c.scenarioHash
  revisionHash : get state (lit "revision_hash") = .str c.revisionHash
  headHash : get state (lit "head_hash") = .str c.headHash
  revisionId : stateText script state "revision_id" = .ok c.revisionId
  headId : stateText script state "head_id" = .ok c.headId
  key : stateText script state "stable_key" = .ok c.key
  generation : stateText script state "head_generation" = .ok c.generation

omit [PyFloat F] in
/-- A state carries one thing at most. -/
theorem Carries.unique {script : Script F} {state : Object F} {c d : Handover}
    (hc : Carries script state c) (hd : Carries script state d) : c = d := by
  obtain ⟨_, _, _, _, _, _, _⟩ := c
  obtain ⟨_, _, _, _, _, _, _⟩ := d
  obtain rfl := Data.str.inj (hc.scenarioHash.symm.trans hd.scenarioHash)
  obtain rfl := Data.str.inj (hc.revisionHash.symm.trans hd.revisionHash)
  obtain rfl := Data.str.inj (hc.headHash.symm.trans hd.headHash)
  obtain rfl := Except.ok.inj (hc.revisionId.symm.trans hd.revisionId)
  obtain rfl := Except.ok.inj (hc.headId.symm.trans hd.headId)
  obtain rfl := Except.ok.inj (hc.key.symm.trans hd.key)
  obtain rfl := Except.ok.inj (hc.generation.symm.trans hd.generation)
  rfl

/-- An accepted run of `resume` on a state that carries `c`: the scenario, the revision and the
head have the carried hashes, the revision is used once more, the head is retired at the carried
generation, and a later use is refused for an allowed reason. -/
structure AcceptedResume (script : Script F) (scenario : Object F) (content : Str)
    (state : Object F) (c : Handover) (es : List (Event F)) (r : ResumeReplies F)
    (a : Attribution F) (hashes : Str × Str) (refusal : Str) (result : Object F) : Prop where
  sameScenario : hash script (.dict scenario) = .ok c.scenarioHash
  sameRevision : hash script (.dict r.revision) = .ok c.revisionHash
  sameHead : hash script (.dict r.head) = .ok c.headHash
  activeRevision : get r.head (lit "active_revision_id") = .str c.revisionId
  active : get r.head (lit "lifecycle") = .str (lit "active")
  retired : get r.retiredHead (lit "lifecycle") = .str (lit "retired")
  refused : ∃ code ∈ allowedFailureCodes, code <:+: refusal
  completed : ∃ receipt members, get r.lifecycle (lit "lifecycle_receipt") = .dict receipt ∧
    get receipt (lit "result_lifecycle") = .str (lit "retired") ∧
    completion script (inspectedUse a hashes) receipt r.retiredHead refusal = .ok members ∧
    result = updated state members
  events : ∃ used rationale prompt written,
    AcceptedUse script c.key (get scenario (lit "restart_use_prompt")) c.revisionId r.task
      r.selection r.use a hashes used ∧
    GivesText script (get scenario (lit "retire_rationale")) rationale ∧
    GivesText script (get scenario (lit "post_retirement_use_prompt")) prompt ∧
    receiptText script result = .ok written ∧
    es = readEvent content ::
      commandEvent [lit "cognition", lit "revision", c.revisionId] r.revision ::
      commandEvent [lit "cognition", lit "head", c.headId] r.head :: (used ++
      [commandEvent [lit "cognition", lit "lifecycle", c.headId, lit "--review-request-id",
        lit "market-gc1-retire-v1", lit "--action", lit "retire", lit "--rationale", rationale,
        lit "--expected-generation", c.generation] r.lifecycle,
      commandEvent [lit "cognition", lit "head", c.headId] r.retiredHead,
      ⟨.failure [lit "cognition", lit "use", c.key, prompt], some refusal⟩,
      ⟨.writeTemporary written, some ()⟩, ⟨.replaceState, some ()⟩])

omit [PyFloat F] in
/-- A retired head passes. -/
theorem checkRetired_eq_ok {head : Object F} {u : Unit} :
    checkRetired head = .ok u ↔ get head (lit "lifecycle") = .str (lit "retired") := by
  rw [← Data.eqStr_iff]
  unfold checkRetired
  cases (get head (lit "lifecycle")).eqStr (lit "retired") <;> simp

/-- A refusal passes exactly if it has an allowed code. -/
theorem checkFailure_eq_ok {refusal : Str} {u : Unit} :
    checkFailure refusal = .ok u ↔ ∃ code ∈ allowedFailureCodes, code <:+: refusal := by
  unfold checkFailure
  split
  · next h => simpa using h
  · next h => simpa using h

omit [PyFloat F] in
/-- The head is retired and the later use refused exactly with these answers. -/
theorem retireHead_returns_iff {script : Script F} {scenario state : Object F}
    {headId key : Str} {es : List (Event F)} {receipt retiredHead : Object F} {refusal : Str} :
    Trace (retireHead script scenario state headId key) es
        (.returned (receipt, retiredHead, refusal)) ↔
      ∃ rationale generation prompt lifecycle,
        GivesText script (get scenario (lit "retire_rationale")) rationale ∧
        stateText script state "head_generation" = .ok generation ∧
        GivesText script (get scenario (lit "post_retirement_use_prompt")) prompt ∧
        get lifecycle (lit "lifecycle_receipt") = .dict receipt ∧
        get receipt (lit "result_lifecycle") = .str (lit "retired") ∧
        get retiredHead (lit "lifecycle") = .str (lit "retired") ∧
        (∃ code ∈ allowedFailureCodes, code <:+: refusal) ∧
        es = [commandEvent [lit "cognition", lit "lifecycle", headId, lit "--review-request-id",
            lit "market-gc1-retire-v1", lit "--action", lit "retire", lit "--rationale", rationale,
            lit "--expected-generation", generation] lifecycle,
          commandEvent [lit "cognition", lit "head", headId] retiredHead,
          ⟨.failure [lit "cognition", lit "use", key, prompt], some refusal⟩] := by
  unfold retireHead json failure
  simp only [Trace.ofExcept_bind_returned, Trace.ask_bind_returned, retireArguments_eq_ok,
    retiredReceipt_eq_ok, checkRetired_eq_ok, useArguments_eq_ok, checkFailure_eq_ok,
    stateText_eq_ok]
  constructor
  · rintro ⟨_, ⟨rationale, generation, hrationale, hgeneration, rfl⟩, lifecycle, _, rfl, _,
      ⟨⟨-, hdict⟩, hlifecycle⟩, _, _, rfl, _, hretired, _, ⟨prompt, hprompt, rfl⟩, _, _, rfl, _,
      hrefused, hend⟩
    cases hend
    exact ⟨rationale, generation, prompt, lifecycle, hrationale, hgeneration, hprompt, hdict,
      hlifecycle, hretired, hrefused, rfl⟩
  · rintro ⟨rationale, generation, prompt, lifecycle, hrationale, hgeneration, hprompt, hdict,
      hlifecycle, hretired, hrefused, rfl⟩
    have hresult : (get receipt (lit "result_lifecycle")).isMissing = false := by
      rw [hlifecycle]
      rfl
    have hthere : (get lifecycle (lit "lifecycle_receipt")).isMissing = false :=
      hdict ▸ isMissing_dict_of_get hresult
    exact ⟨_, ⟨rationale, generation, hrationale, hgeneration, rfl⟩, lifecycle, _, rfl, receipt,
      ⟨⟨hthere, hdict⟩, hlifecycle⟩, retiredHead, _, rfl, (), hretired, _, ⟨prompt, hprompt, rfl⟩,
      refusal, _, rfl, (), hrefused, .done _⟩

/-- A receipt is replaced exactly if it can be printed. -/
theorem replaceWith_returns_iff {script : Script F} {state : Object F} {es : List (Event F)} :
    Trace (replaceWith script state) es (.returned ()) ↔ ∃ written,
      receiptText script state = .ok written ∧
      es = [⟨.writeTemporary written, some ()⟩, ⟨.replaceState, some ()⟩] := by
  unfold replaceWith writeTemporary replaceState
  simp only [Trace.ofExcept_bind_returned, Trace.ask_bind_returned, Trace.ask_returned]
  constructor
  · rintro ⟨written, hwritten, _, _, rfl, rfl⟩
    exact ⟨written, hwritten, rfl⟩
  · rintro ⟨written, hwritten, rfl⟩
    exact ⟨written, hwritten, (), _, rfl, rfl⟩

/-- `resume` returns exactly in the accepted runs on a prepared receipt. -/
theorem resume_returns_iff (script : Script F) (scenario : Object F) (path : Str)
    (es : List (Event F)) (result : Object F) :
    Trace (resume script scenario path) es (.returned result) ↔
      ∃ content state c r a hashes refusal,
        jsonLoads script.py.limits content = .ok (.dict state) ∧ Carries script state c ∧
        AcceptedResume script scenario content state c es r a hashes refusal result := by
  unfold resume readState json
  simp only [Trace.ofExcept_bind_returned, Trace.ask_bind_returned, loadObject_eq_ok,
    checkState_eq_ok, checkUnchanged_eq_ok]
  constructor
  · rintro ⟨_, _, rfl, state, ⟨content, rfl, hloads⟩, _, ⟨⟨hcontract, hphase⟩, scenarioHash,
      hscenario, hscenarioHash⟩, revisionId, hrevisionId, headId, hheadId, key, hkey, revision, _,
      rfl, head, _, rfl, _, ⟨⟨revisionHash, hrevision, hrevisionHash⟩, ⟨headHash, hhead,
      hheadHash⟩, hactiveRevision, hactive⟩, hpassed⟩
    obtain ⟨_, used, _, rfl, huse, hused⟩ := Trace.bind_returned.mp hpassed
    obtain ⟨⟨receipt, retiredHead, refusal⟩, retired, _, rfl, hretire, hretired⟩ :=
      Trace.bind_returned.mp hused
    obtain ⟨members, hmembers, hcompleted⟩ := Trace.ofExcept_bind_returned.mp hretired
    obtain ⟨_, _, _, rfl, hreplace, hend⟩ := Trace.bind_returned.mp hcompleted
    obtain ⟨task, selection, use, a, hashes, rfl, huse'⟩ := useAndInspect_returns_iff.mp huse
    obtain ⟨rationale, generation, prompt, lifecycle, hrationale, hgeneration, hprompt, hdict,
      hlifecycle, hretiredHead, hrefused, rfl⟩ := retireHead_returns_iff.mp hretire
    obtain ⟨written, hwritten, rfl⟩ := replaceWith_returns_iff.mp hreplace
    cases hend
    refine ⟨content, state, ⟨scenarioHash, revisionHash, headHash, revisionId, headId, key,
      generation⟩, ⟨revision, head, task, selection, use, lifecycle, retiredHead⟩, a, hashes,
      refusal, hloads, ⟨hcontract, hphase, hscenarioHash, hrevisionHash, hheadHash, hrevisionId,
      hheadId, hkey, hgeneration⟩, hscenario, hrevision, hhead, hactiveRevision, hactive,
      hretiredHead, hrefused, ⟨receipt, members, hdict, hlifecycle, hmembers, rfl⟩, used,
      rationale, prompt, written, huse', hrationale, hprompt, hwritten, ?_⟩
    simp [readEvent, commandEvent]
  · rintro ⟨content, state, c, r, a, hashes, refusal, hloads, hcarries, h⟩
    obtain ⟨receipt, members, hdict, hlifecycle, hmembers, rfl⟩ := h.completed
    obtain ⟨used, rationale, prompt, written, hused, hrationale, hprompt, hwritten, rfl⟩ := h.events
    refine ⟨_, _, rfl, state, ⟨content, rfl, hloads⟩, (), ⟨⟨hcarries.contract, hcarries.phase⟩,
      c.scenarioHash, h.sameScenario, hcarries.scenarioHash⟩, c.revisionId, hcarries.revisionId,
      c.headId, hcarries.headId, c.key, hcarries.key, r.revision, _, rfl, r.head, _, rfl, (),
      ⟨⟨c.revisionHash, h.sameRevision, hcarries.revisionHash⟩, ⟨c.headHash, h.sameHead,
      hcarries.headHash⟩, h.activeRevision, h.active⟩, ?_⟩
    refine Trace.bind_returned.mpr ⟨_, used, _, rfl, useAndInspect_returns_iff.mpr
      ⟨r.task, r.selection, r.use, a, hashes, rfl, hused⟩, ?_⟩
    refine Trace.bind_returned.mpr ⟨(receipt, r.retiredHead, refusal), _,
      [⟨.writeTemporary written, some ()⟩, ⟨.replaceState, some ()⟩], rfl,
      retireHead_returns_iff.mpr ⟨rationale, c.generation, prompt, r.lifecycle, hrationale,
        hcarries.generation, hprompt, hdict, hlifecycle, h.retired, h.refused, rfl⟩, ?_⟩
    refine Trace.ofExcept_bind_returned.mpr ⟨members, hmembers, ?_⟩
    exact Trace.bind_returned.mpr ⟨(), _, [], (List.append_nil _).symm,
      replaceWith_returns_iff.mpr ⟨written, hwritten, rfl⟩, .done _⟩

/-! ### Both phases -/

/-- What the receipt of a review carries: the hashes of its scenario, its revision and its head,
their identities as the file gives them back, and the generation of the head as a number. -/
structure HandedOver (script : Script F) (scenario : Object F) (key : Str) (r : Reviewed F)
    (c : Handover) : Prop where
  scenarioHash : hash script (.dict scenario) = .ok c.scenarioHash
  revisionHash : hash script (.dict r.revision) = .ok c.revisionHash
  headHash : hash script (.dict r.head) = .ok c.headHash
  revisionId : c.revisionId = Json.reread true r.revisionId
  headId : c.headId = Json.reread true r.headId
  key : c.key = Json.reread true key
  generation : ∃ n, Data.toInt script.py (get r.head (lit "generation")) = .ok n ∧
    c.generation = (Data.int n : Data F).repr script.py

/-- One thing at most is carried. -/
theorem HandedOver.unique {script : Script F} {scenario : Object F} {key : Str} {r : Reviewed F}
    {c d : Handover} (hc : HandedOver script scenario key r c)
    (hd : HandedOver script scenario key r d) : c = d := by
  obtain ⟨n, hn, hgeneration⟩ := hc.generation
  obtain ⟨m, hm, hgeneration'⟩ := hd.generation
  obtain rfl := Except.ok.inj (hn.symm.trans hm)
  have hscenario := Except.ok.inj (hc.scenarioHash.symm.trans hd.scenarioHash)
  have hrevision := Except.ok.inj (hc.revisionHash.symm.trans hd.revisionHash)
  have hhead := Except.ok.inj (hc.headHash.symm.trans hd.headHash)
  have hrevisionId := hc.revisionId.trans hd.revisionId.symm
  have hheadId := hc.headId.trans hd.headId.symm
  have hkey := hc.key.trans hd.key.symm
  have hsame := hgeneration.trans hgeneration'.symm
  obtain ⟨_, _, _, _, _, _, _⟩ := c
  obtain ⟨_, _, _, _, _, _, _⟩ := d
  simp_all

/-- The file that `prepare` has written is read back as a state that carries its answers. -/
theorem prepared_carries {script : Script F} {scenario state : Object F} {sourceTaskId : Str}
    {key content : Str} {r : Reviewed F} {firstUse : Data F}
    (hstate : preparedState script scenario sourceTaskId key r firstUse = .ok state)
    (hcontent : receiptText script state = .ok content) :
    jsonLoads script.py.limits content = .ok (.dict (Data.reloadedDict true state)) ∧
      ∃ c, HandedOver script scenario key r c ∧
        Carries script (Data.reloadedDict true state) c := by
  obtain ⟨hloads, hget⟩ := preparedState_loads hstate hcontent
  refine ⟨hloads, ?_⟩
  obtain ⟨printed, hprinted, -⟩ := receiptText_eq_ok.mp hcontent
  obtain ⟨_, hfits, -⟩ := bind_eq_ok.mp hprinted
  have htext {field : String} {t : Str} (hthere : hasKey state (lit field) = true)
      (hfield : get state (lit field) = .str t) :
      stateText script (Data.reloadedDict true state) field = .ok (Json.reread true t) := by
    refine stateText_eq_ok.mpr ⟨(hget _).1.trans hthere, ?_⟩
    rw [(hget _).2, hfield]
    rfl
  have hdigest {field : String} {x : Data F} {t : Str} (hx : hash script x = .ok t)
      (hfield : get state (lit field) = .str t) :
      get (Data.reloadedDict true state) (lit field) = .str t := by
    rw [(hget _).2, hfield, Data.reloaded, Json.reread_of_noSplitPair
      (Json.noSplitPair_of_encodable (hash_encodable hx))]
  simp only [preparedState, bind_eq_ok, pure_eq_ok, Except.ok.injEq, ofBuiltin_eq_ok,
    require_eq_ok] at hstate
  obtain ⟨scenarioHash, hscenario, _, -, _, -, _, -, _, -, _, -, revisionHash, hrevision, _,
    ⟨-, rfl⟩, n, hn, headHash, hhead, rfl⟩ := hstate
  have hgeneration : (Data.int n : Data F).toStr script.py = .ok ((Data.int n).repr script.py) := by
    obtain ⟨level, hlevel⟩ := exists_level_of_fits hfits
    have hint := fits_get (lit "head_generation") (hlevel ▸ hfits)
    have hnumber : (Data.int n : Data F).fits script.py.limits level = .ok () := by
      simpa using hint
    unfold Data.toStr
    refine bind_eq_ok.mpr ⟨(), ?_, rfl⟩
    rw [Data.fits] at hnumber ⊢
    exact hnumber
  refine ⟨⟨scenarioHash, revisionHash, headHash, Json.reread true r.revisionId,
    Json.reread true r.headId, Json.reread true key, (Data.int n : Data F).repr script.py⟩,
    ⟨hscenario, hrevision, hhead, rfl, rfl, rfl, n, hn, rfl⟩, ?_⟩
  exact {
    contract := by rw [(hget _).2]; simp [reloaded_literal]
    phase := by rw [(hget _).2]; simp [reloaded_literal]
    scenarioHash := hdigest hscenario (by simp)
    revisionHash := hdigest hrevision (by simp)
    headHash := hdigest hhead (by simp)
    revisionId := htext (by simp [hasKey]) (by simp)
    headId := htext (by simp [hasKey]) (by simp)
    key := htext (by simp [hasKey]) (by simp)
    generation := by
      refine stateText_eq_ok.mpr ⟨(hget _).1.trans (by simp [hasKey]), ?_⟩
      rw [(hget _).2]
      simpa [Data.reloaded] using hgeneration }

/-- A journey that the gates accept, from its two rows of events: an accepted `prepare`, and an
accepted `resume` on what its receipt carries. -/
structure AcceptedJourney (script : Script F) (scenario scenario' : Object F) (sourceTaskId : Str)
    (es es' : List (Event F)) (result : Object F) : Prop where
  accepted : ∃ state key content r taught review task selection use a hashes c r' a' hashes'
    refusal, AcceptedPrepare script scenario sourceTaskId es state key content r taught review task
      selection use a hashes ∧ HandedOver script scenario key r c ∧
    AcceptedResume script scenario' content (Data.reloadedDict true state) c es' r' a' hashes'
      refusal result

/-- A run of `prepare` and a run of `resume` on the file that it has written both return exactly
if their answers make an accepted journey. What the second run needs to know of the first is what
the receipt carries, and no journey is completed with other answers. -/
theorem journey_returns_iff (script : Script F) (scenario scenario' : Object F)
    (sourceTaskId path path' : Str) (es es' : List (Event F)) (result : Object F) :
    (∃ state content, Trace (prepare script scenario sourceTaskId path) es (.returned state) ∧
      es.getLast? = some ⟨.writeState content, some ()⟩ ∧
      Trace (resume script scenario' path') es' (.returned result) ∧
      es'.head? = some (readEvent content)) ↔
    AcceptedJourney script scenario scenario' sourceTaskId es es' result := by
  constructor
  · rintro ⟨state, content, hprepare, hwritten, hresume, hread⟩
    obtain ⟨key, content', r, taught, review, task, selection, use, a, hashes, hprepared⟩ :=
      (prepare_returns_iff script scenario sourceTaskId path es state).mp hprepare
    obtain ⟨content'', loaded, d, r', a', hashes', refusal, hloads, hcarries, hresumed⟩ :=
      (resume_returns_iff script scenario' path' es' result).mp hresume
    obtain ⟨reviewed, used, -, -, hes⟩ := hprepared.events
    obtain ⟨restarted, rationale, prompt, written, -, -, -, -, hes'⟩ := hresumed.events
    obtain rfl : content' = content := by
      simpa [hes, List.getLast?_cons, List.getLast?_append] using hwritten
    obtain rfl : content'' = content' := by simpa [hes', readEvent] using hread
    obtain ⟨hloads', c, hcarried, hcarries'⟩ :=
      prepared_carries hprepared.receipt hprepared.printed
    obtain rfl : loaded = Data.reloadedDict true state := by simpa [hloads'] using hloads.symm
    obtain rfl := hcarries.unique hcarries'
    exact ⟨state, key, _, r, taught, review, task, selection, use, a, hashes, d, r', a', hashes',
      refusal, hprepared, hcarried, hresumed⟩
  · rintro ⟨state, key, content, r, taught, review, task, selection, use, a, hashes, c, r', a',
      hashes', refusal, hprepared, hcarried, hresumed⟩
    obtain ⟨hloads, d, hcarried', hcarries⟩ := prepared_carries hprepared.receipt hprepared.printed
    obtain rfl := hcarried.unique hcarried'
    refine ⟨state, content, (prepare_returns_iff script scenario sourceTaskId path es state).mpr
      ⟨key, content, r, taught, review, task, selection, use, a, hashes, hprepared⟩, ?_,
      (resume_returns_iff script scenario' path' es' result).mpr ⟨content, _, c, r', a', hashes',
        refusal, hloads, hcarries, hresumed⟩, ?_⟩
    · obtain ⟨reviewed, used, -, -, hes⟩ := hprepared.events
      simp [hes, List.getLast?_cons, List.getLast?_append]
    · obtain ⟨restarted, rationale, prompt, written, -, -, -, -, hes'⟩ := hresumed.events
      simp [hes']

/-- The sample is an accepted journey. -/
theorem sampleJourney_accepted : ∃ result, AcceptedJourney sampleScript sampleScenario
    sampleScenario (lit "task") samplePrepared sampleResumed result := by
  obtain ⟨-, -, hprepared, hresumed⟩ := sampleJourney_returns
  obtain ⟨state, hstate⟩ := Outcome.exists_result hprepared
  obtain ⟨result, hresult⟩ := Outcome.exists_result hresumed
  have hprepare := samplePrepared_trace
  have hresume := sampleResumed_trace
  rw [hstate] at hprepare
  rw [hresult] at hresume
  obtain ⟨content, hlast⟩ := written_of_prepared hprepare
  have hcontent : sampleContent = content := by
    unfold sampleContent
    rw [hlast]
  have hread : sampleResumed.head? = some (readEvent content) := by
    rw [← hcontent, sampleResumed]
    exact read_of_resumed sampleScript sampleScenario (lit "state") sampleContent
  exact ⟨result, (journey_returns_iff sampleScript sampleScenario sampleScenario (lit "task")
    (lit "state") (lit "state") samplePrepared sampleResumed result).mp
    ⟨state, content, hprepare, hlast, hresume, hread⟩⟩

end MarketIntelligence.Journey
