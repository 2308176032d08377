import MarketIntelligence.Journey.Receipts

/-!
# What the gates of the journey establish

One lemma for each computation between two commands: what holds of the responses when
the computation does not raise.
-/

namespace MarketIntelligence.Journey

open Python

variable {F : Type}

/-- An exception is no result. -/
@[simp] theorem journeyError_ne_ok {α : Type} {message : Str} {a : α} :
    journeyError message = .ok a ↔ False := by simp [journeyError]

/-- A required value is there. -/
@[simp] theorem require_eq_ok {value x : Data F} {message : String} :
    require value message = .ok x ↔ value.isMissing = false ∧ value = x := by
  unfold require
  cases value.isMissing <;> simp

/-- The text of a value. -/
@[simp] theorem text_eq_ok {script : Script F} {value : Data F} {t : Str} :
    text script value = .ok t ↔ value.toStr script.py = .ok t := by
  simp [text]

/-- The text of a required value. -/
@[simp] theorem requireText_eq_ok {script : Script F} {value : Data F} {message : String}
    {t : Str} : requireText script value message = .ok t ↔
      value.isMissing = false ∧ value.toStr script.py = .ok t := by
  simp [requireText, bind_eq_ok]

/-! ### Teaching and review -/

/-- The arguments of `teach` come from the scenario. -/
theorem teachArguments_eq_ok {script : Script F} {scenario : Object F}
    {sourceTaskId key : Str} {arguments : List Str} :
    teachArguments script scenario sourceTaskId key = .ok arguments ↔
      ∃ name description intent recipe,
        ((get scenario (lit "name")).isMissing = false ∧
          (get scenario (lit "name")).toStr script.py = .ok name) ∧
        ((get scenario (lit "description")).isMissing = false ∧
          (get scenario (lit "description")).toStr script.py = .ok description) ∧
        ((get scenario (lit "intent")).isMissing = false ∧
          (get scenario (lit "intent")).toStr script.py = .ok intent) ∧
        ((get scenario (lit "base_recipe")).isMissing = false ∧
          (get scenario (lit "base_recipe")).toStr script.py = .ok recipe) ∧
        arguments = [lit "cognition", lit "teach", sourceTaskId, lit "--stable-key", key,
          lit "--name", name, lit "--description", description, lit "--intent", intent,
          lit "--base-recipe", recipe] := by
  simp only [teachArguments, bind_eq_ok, requireText_eq_ok, pure_eq_ok, Except.ok.injEq]
  constructor
  · rintro ⟨name, hname, description, hdescription, intent, hintent, recipe, hrecipe, rfl⟩
    exact ⟨name, description, intent, recipe, hname, hdescription, hintent, hrecipe, rfl⟩
  · rintro ⟨name, description, intent, recipe, hname, hdescription, hintent, hrecipe, rfl⟩
    exact ⟨name, hname, description, hdescription, intent, hintent, recipe, hrecipe, rfl⟩

/-- A proposal is taken from a teaching response that is not selectable. -/
theorem taughtProposal_eq_ok {script : Script F} {taught proposal : Object F} {proposalId : Str} :
    taughtProposal script taught = .ok (proposal, proposalId) ↔
      get taught (lit "selectable") = .bool false ∧
      ((get taught (lit "proposal")).isMissing = false ∧
        get taught (lit "proposal") = .dict proposal) ∧
      (get proposal (lit "proposal_id")).isMissing = false ∧
      (get proposal (lit "proposal_id")).toStr script.py = .ok proposalId := by
  unfold taughtProposal
  by_cases hselectable : get taught (lit "selectable") = .bool false
  · simp only [hselectable, Data.isFalse, Bool.not_true, Bool.false_eq_true, if_false, bind_eq_ok,
      require_eq_ok, true_and]
    constructor
    · rintro ⟨value, ⟨hthere, rfl⟩, hrest⟩
      split at hrest
      · next ms hms =>
        obtain ⟨id, hid, hpair⟩ := bind_eq_ok.mp hrest
        obtain ⟨rfl, rfl⟩ : ms = proposal ∧ id = proposalId := by simpa using hpair
        exact ⟨⟨hthere, hms⟩, requireText_eq_ok.mp hid⟩
      · simp at hrest
    · rintro ⟨⟨hthere, hdict⟩, hid⟩
      refine ⟨_, ⟨hthere, rfl⟩, ?_⟩
      simp only [hdict]
      exact bind_eq_ok.mpr ⟨proposalId, requireText_eq_ok.mpr hid, rfl⟩
  · have hfalse : (get taught (lit "selectable")).isFalse = false :=
      Bool.eq_false_iff.mpr (mt Data.isFalse_iff.mp hselectable)
    simp [hfalse, hselectable]

/-- Nothing is reviewed unless it is pending and has changes. -/
theorem checkPending_eq_ok {script : Script F} {inspection semanticDiff : Object F} {u : Unit} :
    checkPending script inspection semanticDiff = .ok u ↔
      (get semanticDiff (lit "changes")).truthy script.py = true ∧
      get inspection (lit "selectable") = .bool false := by
  rw [← Data.isFalse_iff]
  unfold checkPending
  cases (get semanticDiff (lit "changes")).truthy script.py <;>
    cases (get inspection (lit "selectable")).isFalse <;> simp

/-- An approved review names its revision and its head. -/
theorem approvedReceipt_eq_ok {script : Script F} {review receipt : Object F}
    {revisionId headId : Str} :
    approvedReceipt script review = .ok (receipt, revisionId, headId) ↔
      ((get review (lit "review_receipt")).isMissing = false ∧
        get review (lit "review_receipt") = .dict receipt) ∧
      get receipt (lit "disposition") = .str (lit "approve") ∧
      ((get receipt (lit "result_revision_id")).isMissing = false ∧
        (get receipt (lit "result_revision_id")).toStr script.py = .ok revisionId) ∧
      (get receipt (lit "result_head_id")).isMissing = false ∧
      (get receipt (lit "result_head_id")).toStr script.py = .ok headId := by
  simp only [approvedReceipt, bind_eq_ok, require_eq_ok]
  constructor
  · rintro ⟨value, ⟨hthere, rfl⟩, hrest⟩
    split at hrest
    · next ms hms =>
      by_cases happroved : get ms (lit "disposition") = .str (lit "approve")
      · simp only [Data.eqStr_iff.mpr happroved, Bool.not_true, Bool.false_eq_true, if_false]
          at hrest
        obtain ⟨revision, hrevision, hrest⟩ := bind_eq_ok.mp hrest
        obtain ⟨head, hhead, hpair⟩ := bind_eq_ok.mp hrest
        obtain ⟨rfl, rfl, rfl⟩ : ms = receipt ∧ revision = revisionId ∧ head = headId := by
          simpa using hpair
        exact ⟨⟨hthere, hms⟩, happroved, requireText_eq_ok.mp hrevision,
          requireText_eq_ok.mp hhead⟩
      · have hother : (get ms (lit "disposition")).eqStr (lit "approve") = false :=
          Bool.eq_false_iff.mpr (mt Data.eqStr_iff.mp happroved)
        simp [hother] at hrest
    · simp at hrest
  · rintro ⟨⟨hthere, hdict⟩, happroved, hrevision, hhead⟩
    refine ⟨_, ⟨hthere, rfl⟩, ?_⟩
    simp only [hdict, Data.eqStr_iff.mpr happroved, Bool.not_true, Bool.false_eq_true, if_false]
    exact bind_eq_ok.mpr ⟨revisionId, requireText_eq_ok.mpr hrevision,
      bind_eq_ok.mpr ⟨headId, requireText_eq_ok.mpr hhead, rfl⟩⟩

/-- The approved revision was fetched and its head is active on it. -/
theorem checkActive_eq_ok {revision head : Object F} {revisionId : Str} {u : Unit} :
    checkActive revision head revisionId = .ok u ↔
      get revision (lit "revision_id") = .str revisionId ∧
      get head (lit "active_revision_id") = .str revisionId ∧
      get head (lit "lifecycle") = .str (lit "active") := by
  rw [← Data.eqStr_iff, ← Data.eqStr_iff, ← Data.eqStr_iff]
  unfold checkActive
  cases (get revision (lit "revision_id")).eqStr revisionId <;>
    cases (get head (lit "active_revision_id")).eqStr revisionId <;>
    cases (get head (lit "lifecycle")).eqStr (lit "active") <;> simp

/-- A use needs its prompt. -/
theorem useArguments_eq_ok {script : Script F} {key : Str} {prompt : Data F} {message : String}
    {arguments : List Str} :
    useArguments script key prompt message = .ok arguments ↔
      ∃ t, (prompt.isMissing = false ∧ prompt.toStr script.py = .ok t) ∧
        arguments = [lit "cognition", lit "use", key, t] := by
  simp only [useArguments, bind_eq_ok, requireText_eq_ok, pure_eq_ok, Except.ok.injEq]
  exact exists_congr fun t => and_congr Iff.rfl eq_comm

/-! ### Uses -/

/-- A completed task that selected and used a revision, with material attribution. -/
structure Attributed (script : Script F) (task : Object F) (revisionId : Str)
    (a : Attribution F) (selection use : Object F) : Prop where
  completed : get task (lit "status") = .str (lit "completed")
  selectionReceipt : get task (lit "cognition_selection_receipt") = .dict selection
  useReceipt : get task (lit "cognition_use_receipt") = .dict use
  selected : ∃ items, selectedItems selection = .ok items ∧
    texts script items = .ok a.selectedRevisionIds
  used : ∃ items, selectedItems use = .ok items ∧ texts script items = .ok a.selectedRevisionIds
  revision : revisionId ∈ a.selectedRevisionIds
  state : get use (lit "state") = .str (lit "used")
  material : get use (lit "material_use_hash") = a.materialUseHash
  materialUse : a.materialUseHash.truthy script.py = true
  selectionReceiptId : get selection (lit "selection_receipt_id") = a.selectionReceiptId
  useReceiptId : get use (lit "use_receipt_id") = a.useReceiptId
  taskId : get task (lit "id") = a.taskId

/-- The retrieved receipts agree with the attribution. -/
structure Inspected (script : Script F) (a : Attribution F) (selection use : Object F) :
    Prop where
  selectedBySelection : ∃ items, selectedItems selection = .ok items ∧
    Data.eqItems script.py items (a.selectedRevisionIds.map .str) = true
  selectedByUse : ∃ items, selectedItems use = .ok items ∧
    Data.eqItems script.py items (a.selectedRevisionIds.map .str) = true
  material : (get use (lit "material_use_hash")).eq script.py a.materialUseHash = true

/-- A use is attributed only if its receipts show it. -/
theorem attributedUse_eq_ok {script : Script F} {task selection use : Object F} {revisionId : Str}
    {a : Attribution F} (hcompleted : get task (lit "status") = .str (lit "completed"))
    (hselection : get task (lit "cognition_selection_receipt") = .dict selection)
    (huse : get task (lit "cognition_use_receipt") = .dict use)
    (h : attributedUse script task selection use revisionId = .ok a) :
    Attributed script task revisionId a selection use := by
  simp only [attributedUse, bind_eq_ok] at h
  obtain ⟨selectedOf, hselectedOf, selected, hselected, usedOf, husedOf, used, hused, h⟩ := h
  split at h
  · simp at h
  · next hsame =>
    simp only [not_or, not_not] at hsame
    obtain ⟨-, rfl, hrevision⟩ := hsame
    split at h
    · simp at h
    · next hmaterial =>
      simp only [Bool.or_eq_true, Bool.not_eq_true', not_or, Bool.not_eq_false] at hmaterial
      simp only [bind_eq_ok, require_eq_ok, pure_eq_ok, Except.ok.injEq] at h
      obtain ⟨_, ⟨-, htask⟩, _, ⟨-, hselectionId⟩, _, ⟨-, huseId⟩, rfl⟩ := h
      exact {
        completed := hcompleted
        selectionReceipt := hselection
        useReceipt := huse
        selected := ⟨selectedOf, hselectedOf, hselected⟩
        used := ⟨usedOf, husedOf, hused⟩
        revision := hrevision
        state := Data.eqStr_iff.mp hmaterial.1
        material := rfl
        materialUse := hmaterial.2
        selectionReceiptId := hselectionId
        useReceiptId := huseId
        taskId := htask }

/-- An attribution comes from a completed task. -/
theorem useAttribution_eq_ok {script : Script F} {task : Object F} {revisionId : Str}
    {a : Attribution F} (h : useAttribution script task revisionId = .ok a) :
    ∃ selection use, Attributed script task revisionId a selection use := by
  unfold useAttribution at h
  by_cases hcompleted : get task (lit "status") = .str (lit "completed")
  · simp only [hcompleted, Data.eqStr, decide_true, Bool.not_true, Bool.false_eq_true, if_false,
      bind_eq_ok, require_eq_ok] at h
    obtain ⟨selection, ⟨-, hselection⟩, use, ⟨-, huse⟩, h⟩ := h
    split at h
    · exact ⟨_, _, attributedUse_eq_ok hcompleted hselection huse h⟩
    · simp at h
  · have hother : (get task (lit "status")).eqStr (lit "completed") = false :=
      Bool.eq_false_iff.mpr (mt Data.eqStr_iff.mp hcompleted)
    simp only [hother, Bool.not_false, if_true, bind_eq_ok, journeyError_ne_ok] at h
    obtain ⟨_, -, hfalse⟩ := h
    exact hfalse.elim

/-- A receipt that has the attributed revisions. -/
theorem checkSelected_eq_ok {script : Script F} {receipt : Object F} {a : Attribution F}
    {message : String} {u : Unit} (h : checkSelected script receipt a message = .ok u) :
    ∃ items, selectedItems receipt = .ok items ∧
      Data.eqItems script.py items (a.selectedRevisionIds.map .str) = true := by
  obtain ⟨items, hitems, h⟩ := bind_eq_ok.mp h
  split at h
  · next heq => exact ⟨items, hitems, heq⟩
  · simp at h

/-- The hashes are those of receipts that agree with the attribution. -/
theorem inspectedHashes_eq_ok [PyFloat F] {script : Script F} {a : Attribution F}
    {selection use : Object F} {hashes : Str × Str}
    (h : inspectedHashes script a selection use = .ok hashes) :
    Inspected script a selection use := by
  obtain ⟨_, hselection, h⟩ := bind_eq_ok.mp h
  obtain ⟨_, huse, h⟩ := bind_eq_ok.mp h
  split at h
  · simp at h
  · next hmaterial =>
    exact ⟨checkSelected_eq_ok hselection, checkSelected_eq_ok huse, by simpa using hmaterial⟩

/-! ### Resuming -/

/-- The object in a state file. -/
theorem loadObject_eq_ok [PyFloat F] {script : Script F} {path : Str}
    {answer : Except BuiltinError Str} {state : Object F} :
    loadObject script path answer = .ok state ↔
      ∃ content, answer = .ok content ∧
        jsonLoads script.py.limits content = .ok (.dict state) := by
  cases answer with
  | error e =>
    by_cases hcaught : e.caughtBy .fileNotFoundError = true
    · simp [loadObject, hcaught]
    · simp [loadObject, hcaught]
  | ok content =>
    simp only [Except.ok.injEq, exists_eq_left']
    unfold loadObject jsonLoads
    dsimp only
    cases Json.loads (dataHooks (F := F) script.py.limits) script.py.limits.nesting content with
    | error e => cases e <;> simp
    | ok value => cases value <;> simp

/-- The state is a prepared receipt of the contract and of the scenario. -/
theorem checkState_eq_ok [PyFloat F] {script : Script F} {scenario state : Object F} {u : Unit} :
    checkState script scenario state = .ok u ↔
      (get state (lit "contract_version") = .str contractVersion ∧
        get state (lit "phase") = .str (lit "prepared")) ∧
      ∃ scenarioHash, hash script (.dict scenario) = .ok scenarioHash ∧
        get state (lit "scenario_hash") = .str scenarioHash := by
  rw [← Data.eqStr_iff, ← Data.eqStr_iff]
  unfold checkState
  cases (get state (lit "contract_version")).eqStr contractVersion with
  | false => simp
  | true =>
    cases (get state (lit "phase")).eqStr (lit "prepared") with
    | false => simp
    | true =>
      simp only [Bool.not_true, Bool.or_self, Bool.false_eq_true, if_false, bind_eq_ok,
        and_self, true_and]
      refine exists_congr fun t => and_congr Iff.rfl ?_
      rw [← Data.eqStr_iff]
      cases (get state (lit "scenario_hash")).eqStr t <;> simp

/-- The text of a member of the state. -/
theorem stateText_eq_ok {script : Script F} {state : Object F} {key : String} {t : Str} :
    stateText script state key = .ok t ↔
      hasKey state (lit key) = true ∧ (get state (lit key)).toStr script.py = .ok t := by
  simp only [stateText, bind_eq_ok, ofBuiltin_eq_ok, lookup_eq_ok, text_eq_ok]
  constructor
  · rintro ⟨_, ⟨hkey, rfl⟩, ht⟩
    exact ⟨hkey, ht⟩
  · rintro ⟨hkey, ht⟩
    exact ⟨_, ⟨hkey, rfl⟩, ht⟩

/-- The revision and the head are the recorded ones, and the head is active on the
revision. -/
theorem checkUnchanged_eq_ok [PyFloat F] {script : Script F} {state revision head : Object F}
    {revisionId : Str} {u : Unit} :
    checkUnchanged script state revision head revisionId = .ok u ↔
      (∃ revisionHash, hash script (.dict revision) = .ok revisionHash ∧
        get state (lit "revision_hash") = .str revisionHash) ∧
      (∃ headHash, hash script (.dict head) = .ok headHash ∧
        get state (lit "head_hash") = .str headHash) ∧
      get head (lit "active_revision_id") = .str revisionId ∧
      get head (lit "lifecycle") = .str (lit "active") := by
  simp only [← Data.eqStr_iff, checkUnchanged, bind_eq_ok]
  constructor
  · rintro ⟨revisionHash, hrevision, h⟩
    split at h
    · simp at h
    · next hrecorded =>
      obtain ⟨headHash, hhead, h⟩ := bind_eq_ok.mp h
      split at h
      · simp at h
      · next hheadRecorded =>
        split at h
        · simp at h
        · next hactive =>
          simp only [Bool.or_eq_true, Bool.not_eq_true', not_or, Bool.not_eq_false] at hactive
          exact ⟨⟨revisionHash, hrevision, by simpa using hrecorded⟩,
            ⟨headHash, hhead, by simpa using hheadRecorded⟩, hactive⟩
  · rintro ⟨⟨revisionHash, hrevision, hrecorded⟩, ⟨headHash, hhead, hheadRecorded⟩, hactive⟩
    refine ⟨revisionHash, hrevision, ?_⟩
    simp [hrecorded, hhead, hheadRecorded, hactive]

/-- The arguments of the retirement come from the scenario and from the state. -/
theorem retireArguments_eq_ok {script : Script F} {scenario state : Object F} {headId : Str}
    {arguments : List Str} :
    retireArguments script scenario state headId = .ok arguments ↔
      ∃ rationale generation,
        ((get scenario (lit "retire_rationale")).isMissing = false ∧
          (get scenario (lit "retire_rationale")).toStr script.py = .ok rationale) ∧
        (hasKey state (lit "head_generation") = true ∧
          (get state (lit "head_generation")).toStr script.py = .ok generation) ∧
        arguments = [lit "cognition", lit "lifecycle", headId, lit "--review-request-id",
          lit "market-gc1-retire-v1", lit "--action", lit "retire", lit "--rationale", rationale,
          lit "--expected-generation", generation] := by
  simp only [retireArguments, bind_eq_ok, requireText_eq_ok, stateText_eq_ok, pure_eq_ok,
    Except.ok.injEq]
  constructor
  · rintro ⟨rationale, hrationale, generation, hgeneration, rfl⟩
    exact ⟨rationale, generation, hrationale, hgeneration, rfl⟩
  · rintro ⟨rationale, generation, hrationale, hgeneration, rfl⟩
    exact ⟨rationale, hrationale, generation, hgeneration, rfl⟩

/-- A retirement's receipt reports it. -/
theorem retiredReceipt_eq_ok {lifecycle receipt : Object F} :
    retiredReceipt lifecycle = .ok receipt ↔
      ((get lifecycle (lit "lifecycle_receipt")).isMissing = false ∧
        get lifecycle (lit "lifecycle_receipt") = .dict receipt) ∧
      get receipt (lit "result_lifecycle") = .str (lit "retired") := by
  simp only [retiredReceipt, bind_eq_ok, require_eq_ok]
  constructor
  · rintro ⟨value, ⟨hthere, rfl⟩, h⟩
    split at h
    · next ms hms =>
      split at h
      · simp at h
      · next hretired =>
        obtain rfl : ms = receipt := by simpa using h
        exact ⟨⟨hthere, hms⟩, Data.eqStr_iff.mp (by simpa using hretired)⟩
    · simp at h
  · rintro ⟨⟨hthere, hdict⟩, hretired⟩
    refine ⟨_, ⟨hthere, rfl⟩, ?_⟩
    simp [hdict, hretired, Data.eqStr]

/-- A receipt file holds the printed receipt and a line break. -/
theorem receiptText_eq_ok [PyFloat F] {script : Script F} {receipt : Object F} {content : Str} :
    receiptText script receipt = .ok content ↔
      ∃ printed, Data.dumps script.py Json.Layout.indented (.dict receipt) = .ok printed ∧
        content = printed ++ lit "\n" := by
  simp only [receiptText, bind_eq_ok, ofBuiltin_eq_ok, pure_eq_ok, Except.ok.injEq]
  exact exists_congr fun t => and_congr Iff.rfl eq_comm

end MarketIntelligence.Journey
