import MarketIntelligence.Journey.StateFile
import MarketIntelligence.Python.Contained
import MarketIntelligence.Python.Fitting
import MarketIntelligence.Python.Processes

/-!
# Computations of the journey that raise only `JourneyError`

What the script computes between its commands is contained as long as the values that it
prints meet no limit, and what it writes to the state file meets the lower limit of indented
printing. Three built-in operations may fail besides: iteration over the selected revisions,
the conversion of the head generation, and subscripts of the state.
-/

namespace MarketIntelligence.Journey

open Python

variable {F : Type}

/-! ### Values inside containers -/

/-- A value that meets no limit inside some containers. -/
def FitsInside (script : Script F) (depth : ℕ) (value : Data F) : Prop :=
  value.fits script.py.limits (script.py.limits.nesting - depth) = .ok ()

/-- A value that can be printed with an indentation inside some containers. -/
def PrintsInside (script : Script F) (depth : ℕ) (value : Data F) : Prop :=
  value.fits script.py.limits (script.py.limits.indented - depth) = .ok ()

variable {script : Script F}

/-- What can be printed with an indentation meets no limit. -/
theorem PrintsInside.fitsInside {depth : ℕ} {value : Data F} (h : PrintsInside script depth value) :
    FitsInside script depth value :=
  fits_mono (Nat.sub_le_sub_right script.py.limits.indented_le depth) h

/-- It meets no limit inside fewer containers. -/
theorem FitsInside.mono {depth depth' : ℕ} {value : Data F} (h : FitsInside script depth' value)
    (hle : depth ≤ depth') : FitsInside script depth value := fits_mono (by omega) h

/-- A dictionary is one more container for its values. -/
theorem fitsInside_dict {depth : ℕ} {ms : Object F} (hdepth : depth < script.py.limits.nesting) :
    FitsInside script depth (.dict ms) ↔ ∀ m ∈ ms, FitsInside script (depth + 1) m.2 :=
  fits_dict_inside hdepth

/-- The same for printing with an indentation. -/
theorem printsInside_dict {depth : ℕ} {ms : Object F}
    (hdepth : depth < script.py.limits.indented) :
    PrintsInside script depth (.dict ms) ↔ ∀ m ∈ ms, PrintsInside script (depth + 1) m.2 :=
  fits_dict_inside hdepth

/-- What is looked up in a dictionary is inside it. -/
theorem FitsInside.get {depth : ℕ} {ms : Object F} (h : FitsInside script depth (.dict ms))
    (key : Str) : FitsInside script (depth + 1) (get ms key) := fits_get_inside key h

/-- The same for printing with an indentation. -/
theorem PrintsInside.get {depth : ℕ} {ms : Object F} (h : PrintsInside script depth (.dict ms))
    (key : Str) : PrintsInside script (depth + 1) (get ms key) := fits_get_inside key h

/-- A member of an object that is printed can be printed. -/
theorem FitsInside.member {ms : Object F} (h : FitsInside script 0 (.dict ms)) (key : Str) :
    FitsInside script 0 (Python.get ms key) := (h.get key).mono (by omega)

/-- Text meets no limit. -/
theorem fitsInside_str (script : Script F) (depth : ℕ) (s : Str) :
    FitsInside script depth (.str s) := fits_str _ _ s

/-- Text can be printed inside any containers. -/
theorem printsInside_str (script : Script F) (depth : ℕ) (s : Str) :
    PrintsInside script depth (.str s) := fits_str _ _ s

/-- A value whose text can be passed to a process. -/
def Passes (script : Script F) (value : Data F) : Prop :=
  ∀ t, value.toStr script.py = .ok t → Passable t

/-! ### Rules -/

/-- The exceptions of the script itself. -/
def IsOwn (e : Raised JourneyError) : Prop := ∃ a, e = .own a

/-- A failure of the script. -/
theorem contained_journeyError {α : Type} (message : Str) :
    Contained (journeyError message : Checked α) := contained_own _

/-- Requiring a value. -/
theorem contained_require (value : Data F) (message : String) :
    Contained (require value message) :=
  contained_ite (contained_journeyError _) (contained_ok _)

/-- The text of a value that meets no limit. -/
theorem contained_text {value : Data F} (h : FitsInside script 0 value) :
    Contained (text script value) := by
  refine contained_ofBuiltin.mpr ?_
  cases value with
  | str s => exact ⟨s, rfl⟩
  | _ => exact ⟨_, bind_eq_ok.mpr ⟨(), h, rfl⟩⟩

/-- The text of a required value. -/
theorem contained_requireText {value : Data F} (h : FitsInside script 0 value)
    (message : String) : Contained (requireText script value message) := by
  refine contained_bind.mpr ⟨contained_require value message, fun x hx => ?_⟩
  obtain ⟨-, rfl⟩ := require_eq_ok.mp hx
  exact contained_text h

/-- A value that meets no limit is printed on one line. -/
theorem FitsInside.dumps [PyFloat F] {value : Data F} (h : FitsInside script 0 value) :
    ∃ t, value.dumps script.py (Json.Layout.compact true) = .ok t :=
  ⟨_, bind_eq_ok.mpr ⟨(), h, rfl⟩⟩

/-- It is printed with an indentation if it can be. -/
theorem PrintsInside.dumps [PyFloat F] {value : Data F} (h : PrintsInside script 0 value) :
    ∃ t, value.dumps script.py Json.Layout.indented = .ok t :=
  ⟨_, bind_eq_ok.mpr ⟨(), h, rfl⟩⟩

/-- The hash of a value that meets no limit. -/
theorem contained_hash [PyFloat F] {value : Data F} (h : FitsInside script 0 value) :
    Contained (hash script value) :=
  contained_bind.mpr ⟨contained_ofBuiltin.mpr h.dumps, fun _ _ => contained_ok _⟩

/-! ### Teaching and review -/

variable {scenario : Object F}

/-- The arguments of `teach`. -/
theorem contained_teachArguments (h : FitsInside script 0 (.dict scenario))
    (sourceTaskId key : Str) :
    Contained (teachArguments script scenario sourceTaskId key) := by
  unfold teachArguments
  refine contained_bind.mpr ⟨contained_requireText (h.member _) _, fun name _ => ?_⟩
  refine contained_bind.mpr ⟨contained_requireText (h.member _) _, fun description _ => ?_⟩
  refine contained_bind.mpr ⟨contained_requireText (h.member _) _, fun intent _ => ?_⟩
  exact contained_bind.mpr ⟨contained_requireText (h.member _) _, fun recipe _ => contained_ok _⟩

/-- The proposal of a teaching response. -/
theorem contained_taughtProposal {taught : Object F} (h : FitsInside script 0 (.dict taught)) :
    Contained (taughtProposal script taught) := by
  unfold taughtProposal
  refine contained_ite (contained_journeyError _) ?_
  refine contained_bind.mpr ⟨contained_require _ _, fun value hvalue => ?_⟩
  obtain ⟨-, rfl⟩ := require_eq_ok.mp hvalue
  split
  · next proposal hproposal =>
    have hfits : FitsInside script 0 (.dict proposal) := hproposal ▸ h.member _
    exact contained_bind.mpr ⟨contained_requireText (hfits.member _) _, fun _ _ => contained_ok _⟩
  · exact contained_journeyError _

/-- The gates before the review. -/
theorem contained_checkPending (inspection semanticDiff : Object F) :
    Contained (checkPending script inspection semanticDiff) :=
  contained_ite (contained_journeyError _)
    (contained_ite (contained_journeyError _) (contained_ok _))

/-- The receipt of a review. -/
theorem contained_approvedReceipt {review : Object F} (h : FitsInside script 0 (.dict review)) :
    Contained (approvedReceipt script review) := by
  unfold approvedReceipt
  refine contained_bind.mpr ⟨contained_require _ _, fun value hvalue => ?_⟩
  obtain ⟨-, rfl⟩ := require_eq_ok.mp hvalue
  split
  · next receipt hreceipt =>
    have hfits : FitsInside script 0 (.dict receipt) := hreceipt ▸ h.member _
    refine contained_ite (contained_journeyError _) ?_
    refine contained_bind.mpr ⟨contained_requireText (hfits.member _) _, fun revisionId _ => ?_⟩
    exact contained_bind.mpr ⟨contained_requireText (hfits.member _) _, fun _ _ => contained_ok _⟩
  · exact contained_journeyError _

/-- The gates on the approved revision and its head. -/
theorem contained_checkActive (revision head : Object F) (revisionId : Str) :
    Contained (checkActive revision head revisionId) :=
  contained_ite (contained_journeyError _)
    (contained_ite (contained_journeyError _) (contained_ok _))

/-- The arguments of `use`. -/
theorem contained_useArguments {prompt : Data F} (h : FitsInside script 0 prompt) (key : Str)
    (message : String) : Contained (useArguments script key prompt message) :=
  contained_bind.mpr ⟨contained_requireText h message, fun _ _ => contained_ok _⟩

/-! ### Uses -/

/-- The selected revisions of a receipt can be iterated over, or there are none. -/
def IdsIterable (receipt : Object F) : Prop :=
  ∃ items, (getD receipt (lit "selected_revision_ids") (.list [])).iterate = .ok items

/-- The items of the selected revisions. -/
theorem contained_selectedItems {receipt : Object F} :
    Contained (selectedItems receipt) ↔ IdsIterable receipt := contained_ofBuiltin

/-- The items of a value that meets no limit meet none. -/
theorem FitsInside.items {depth : ℕ} {value : Data F} {items : List (Data F)}
    (h : FitsInside script depth value) (hitems : value.iterate = .ok items) :
    ∀ x ∈ items, FitsInside script 0 x := by
  cases value with
  | list xs =>
    obtain rfl := Except.ok.inj hitems
    unfold FitsInside at h
    generalize hlevel : script.py.limits.nesting - depth = level at h
    cases level with
    | zero => simp [Data.fits] at h
    | succ n => exact fun x hx => fits_mono (by omega) (fits_list.mp h x hx)
  | str s =>
    obtain rfl := Except.ok.inj hitems
    intro x hx
    obtain ⟨c, -, rfl⟩ := List.mem_map.mp hx
    exact fitsInside_str script 0 _
  | dict ms =>
    obtain rfl := Except.ok.inj hitems
    intro x hx
    obtain ⟨m, -, rfl⟩ := List.mem_map.mp hx
    exact fitsInside_str script 0 _
  | _ => cases hitems

/-- The selected revisions of a receipt that meets no limit. -/
theorem fitsInside_selectedItems {receipt : Object F} {items : List (Data F)}
    (h : FitsInside script 0 (.dict receipt)) (hitems : selectedItems receipt = .ok items) :
    ∀ x ∈ items, FitsInside script 0 x := by
  have hiterate := ofBuiltin_eq_ok.mp hitems
  unfold getD at hiterate
  split at hiterate
  · exact (h.get _).items hiterate
  · obtain rfl := Except.ok.inj hiterate
    simp

/-- The texts of values that meet no limit. -/
theorem contained_texts {items : List (Data F)} (h : ∀ x ∈ items, FitsInside script 0 x) :
    Contained (texts script items) := by
  induction items with
  | nil => exact contained_ok _
  | cons x items ih =>
    obtain ⟨hx, hitems⟩ := List.forall_mem_cons.mp h
    refine contained_bind.mpr ⟨contained_text hx, fun t _ => ?_⟩
    exact contained_bind.mpr ⟨ih hitems, fun _ _ => contained_ok _⟩

/-- The attribution of a completed task with its receipts. -/
theorem contained_attributedUse {selection use : Object F}
    (hselection : FitsInside script 0 (.dict selection)) (huse : FitsInside script 0 (.dict use))
    (hselected : IdsIterable selection) (hused : IdsIterable use) (task : Object F)
    (revisionId : Str) : Contained (attributedUse script task selection use revisionId) := by
  unfold attributedUse
  refine contained_bind.mpr ⟨contained_selectedItems.mpr hselected, fun items hitems => ?_⟩
  refine contained_bind.mpr
    ⟨contained_texts (fitsInside_selectedItems hselection hitems), fun selected _ => ?_⟩
  refine contained_bind.mpr ⟨contained_selectedItems.mpr hused, fun items hitems => ?_⟩
  refine contained_bind.mpr
    ⟨contained_texts (fitsInside_selectedItems huse hitems), fun used _ => ?_⟩
  refine contained_ite (contained_journeyError _) (contained_ite (contained_journeyError _) ?_)
  refine contained_bind.mpr ⟨contained_require _ _, fun taskId _ => ?_⟩
  refine contained_bind.mpr ⟨contained_require _ _, fun selectionReceiptId _ => ?_⟩
  exact contained_bind.mpr ⟨contained_require _ _, fun useReceiptId _ => contained_ok _⟩

/-- The values that a use records in the state can be printed inside two containers. -/
structure RecordedFits (script : Script F) (task selection use : Object F) : Prop where
  taskId : PrintsInside script 2 (get task (lit "id"))
  selectionReceiptId : PrintsInside script 2 (get selection (lit "selection_receipt_id"))
  useReceiptId : PrintsInside script 2 (get use (lit "use_receipt_id"))
  materialUseHash : PrintsInside script 2 (get use (lit "material_use_hash"))

/-- The receipts of a completed task have selected revisions that can be iterated over and
identities that processes can be asked for, and what is recorded of it can be printed. -/
def Attributable (script : Script F) (task : Object F) : Prop :=
  get task (lit "status") = .str (lit "completed") → ∀ selection use,
    get task (lit "cognition_selection_receipt") = .dict selection →
    get task (lit "cognition_use_receipt") = .dict use → selection ≠ [] → use ≠ [] →
    IdsIterable selection ∧ IdsIterable use ∧ RecordedFits script task selection use ∧
      Passes script (get selection (lit "selection_receipt_id")) ∧
      Passes script (get use (lit "use_receipt_id"))

/-- A required object has members. -/
theorem ne_nil_of_not_isMissing {ms : Object F} (h : (Data.dict ms).isMissing = false) :
    ms ≠ [] := by
  rintro rfl
  cases h

/-- The attribution of a task. -/
theorem contained_useAttribution {task : Object F} (h : FitsInside script 0 (.dict task))
    (hattributable : Attributable script task) (revisionId : Str) :
    Contained (useAttribution script task revisionId) := by
  unfold useAttribution
  split
  · exact contained_bind.mpr ⟨contained_text (h.member _), fun _ _ => contained_journeyError _⟩
  · next hstatus =>
    have hcompleted : get task (lit "status") = .str (lit "completed") :=
      Data.eqStr_iff.mp (by simpa using hstatus)
    refine contained_bind.mpr ⟨contained_require _ _, fun value hvalue => ?_⟩
    refine contained_bind.mpr ⟨contained_require _ _, fun other hother => ?_⟩
    obtain ⟨hselectionThere, rfl⟩ := require_eq_ok.mp hvalue
    obtain ⟨huseThere, rfl⟩ := require_eq_ok.mp hother
    split
    · next selection use hselection huse =>
      rw [hselection] at hselectionThere
      rw [huse] at huseThere
      obtain ⟨hselected, hused, -, -⟩ := hattributable hcompleted selection use hselection huse
        (ne_nil_of_not_isMissing hselectionThere) (ne_nil_of_not_isMissing huseThere)
      exact contained_attributedUse (hselection ▸ h.member _) (huse ▸ h.member _) hselected hused
        task revisionId
    · exact contained_journeyError _

/-- What an attribution records can be printed inside two containers. -/
structure AttributionFits (script : Script F) (a : Attribution F) : Prop where
  taskId : PrintsInside script 2 a.taskId
  selectionReceiptId : PrintsInside script 2 a.selectionReceiptId
  useReceiptId : PrintsInside script 2 a.useReceiptId
  materialUseHash : PrintsInside script 2 a.materialUseHash

/-- A receipt without members selects nothing. -/
theorem Attributed.selection_ne_nil {task selection use : Object F} {revisionId : Str}
    {a : Attribution F} (h : Attributed script task revisionId a selection use) :
    selection ≠ [] := by
  rintro rfl
  obtain ⟨items, hitems, htexts⟩ := h.selected
  obtain rfl := Except.ok.inj hitems
  have hrevision := h.revision
  rw [← Except.ok.inj htexts] at hrevision
  cases hrevision

/-- The attribution of an attributable task. -/
theorem attributionFits_of_ok {task : Object F} {revisionId : Str} {a : Attribution F}
    (hattributable : Attributable script task)
    (ha : useAttribution script task revisionId = .ok a) : AttributionFits script a ∧
      Passes script a.selectionReceiptId ∧ Passes script a.useReceiptId := by
  obtain ⟨selection, use, hattributed⟩ := useAttribution_eq_ok ha
  have huse : use ≠ [] := by
    rintro rfl
    cases hattributed.state
  obtain ⟨-, -, hrecorded, hselectionId, huseId⟩ := hattributable hattributed.completed selection
    use hattributed.selectionReceipt hattributed.useReceipt hattributed.selection_ne_nil huse
  refine ⟨?_, hattributed.selectionReceiptId ▸ hselectionId, hattributed.useReceiptId ▸ huseId⟩
  exact {
    taskId := hattributed.taskId ▸ hrecorded.taskId
    selectionReceiptId := hattributed.selectionReceiptId ▸ hrecorded.selectionReceiptId
    useReceiptId := hattributed.useReceiptId ▸ hrecorded.useReceiptId
    materialUseHash := hattributed.material ▸ hrecorded.materialUseHash }

/-- The gate on a retrieved receipt. -/
theorem contained_checkSelected {receipt : Object F} (h : IdsIterable receipt)
    (a : Attribution F) (message : String) :
    Contained (checkSelected script receipt a message) :=
  contained_bind.mpr ⟨contained_selectedItems.mpr h,
    fun _ _ => contained_ite (contained_ok ()) (contained_journeyError _)⟩

/-- The inspection of a use. -/
theorem contained_inspectedHashes [PyFloat F] {selection use : Object F}
    (hselection : FitsInside script 0 (.dict selection)) (huse : FitsInside script 0 (.dict use))
    (hselected : IdsIterable selection) (hused : IdsIterable use) (a : Attribution F) :
    Contained (inspectedHashes script a selection use) := by
  unfold inspectedHashes
  refine contained_bind.mpr ⟨contained_checkSelected hselected a _, fun _ _ => ?_⟩
  refine contained_bind.mpr ⟨contained_checkSelected hused a _, fun _ _ => ?_⟩
  refine contained_ite (contained_journeyError _) ?_
  refine contained_bind.mpr ⟨contained_hash hselection, fun _ _ => ?_⟩
  exact contained_bind.mpr ⟨contained_hash huse, fun _ _ => contained_ok _⟩

/-- An inspected use can be printed inside the state. -/
theorem printsInside_inspectedUse {a : Attribution F} (h : AttributionFits script a)
    (hindented : 3 ≤ script.py.limits.indented) (hashes : Str × Str) :
    PrintsInside script 1 (inspectedUse a hashes) := by
  have hids : PrintsInside script 2 (.list (a.selectedRevisionIds.map .str)) := by
    refine (fits_list_inside (by omega)).mpr fun x hx => ?_
    obtain ⟨id, -, rfl⟩ := List.mem_map.mp hx
    exact fits_str _ _ id
  rw [inspectedUse, printsInside_dict (by omega)]
  simp [h.taskId, h.selectionReceiptId, h.useReceiptId, h.materialUseHash, hids, printsInside_str]

/-! ### The prepared state -/

/-- The generation of a head is missing, or `int()` makes a number of it that can be
printed. -/
def Numbered (script : Script F) (head : Object F) : Prop :=
  (get head (lit "generation")).isMissing = true ∨
    ∃ n, (get head (lit "generation")).toInt script.py = .ok n ∧
      Data.intFits script.py.limits n = true

/-- The number of a generation that is there. -/
theorem Numbered.exists_number {head : Object F} (h : Numbered script head)
    (hthere : (get head (lit "generation")).isMissing = false) :
    ∃ n, (get head (lit "generation")).toInt script.py = .ok n ∧
      PrintsInside script 1 (.int n : Data F) := by
  obtain hmissing | ⟨n, hn, hfits⟩ := h
  · rw [hmissing] at hthere
    cases hthere
  · refine ⟨n, hn, ?_⟩
    unfold PrintsInside
    rw [Data.fits, if_pos hfits]

/-- The responses that the prepared state records can be hashed or printed, and the generation
of the head can be converted. -/
structure ReviewedFits (script : Script F) (r : Reviewed F) : Prop where
  proposalHash : PrintsInside script 1 (get r.proposal (lit "proposal_hash"))
  inspection : FitsInside script 0 (.dict r.inspection)
  semanticDiff : FitsInside script 0 (.dict r.semanticDiff)
  reviewReceipt : FitsInside script 0 (.dict r.reviewReceipt)
  reviewReceiptId : PrintsInside script 1 (get r.reviewReceipt (lit "receipt_id"))
  revision : FitsInside script 0 (.dict r.revision)
  head : FitsInside script 0 (.dict r.head)
  numbered : Numbered script r.head

variable [PyFloat F]

/-- The state that `prepare` writes. -/
theorem contained_preparedState {reviewed : Reviewed F} (h : FitsInside script 0 (.dict scenario))
    (hreviewed : ReviewedFits script reviewed) (sourceTaskId key : Str) (firstUse : Data F) :
    Contained (preparedState script scenario sourceTaskId key reviewed firstUse) := by
  unfold preparedState
  refine contained_bind.mpr ⟨contained_hash h, fun scenarioHash _ => ?_⟩
  refine contained_bind.mpr ⟨contained_require _ _, fun proposalHash _ => ?_⟩
  refine contained_bind.mpr ⟨contained_hash hreviewed.inspection, fun inspectionHash _ => ?_⟩
  refine contained_bind.mpr ⟨contained_hash hreviewed.semanticDiff, fun semanticDiffHash _ => ?_⟩
  refine contained_bind.mpr ⟨contained_require _ _, fun receiptId _ => ?_⟩
  refine contained_bind.mpr
    ⟨contained_hash hreviewed.reviewReceipt, fun receiptHash _ => ?_⟩
  refine contained_bind.mpr ⟨contained_hash hreviewed.revision, fun revisionHash _ => ?_⟩
  refine contained_bind.mpr ⟨contained_require _ _, fun generation hgeneration => ?_⟩
  obtain ⟨hthere, rfl⟩ := require_eq_ok.mp hgeneration
  refine contained_bind.mpr ⟨contained_ofBuiltin.mpr ?_, fun number _ => ?_⟩
  · obtain ⟨n, hn, -⟩ := hreviewed.numbered.exists_number hthere
    exact ⟨n, hn⟩
  · exact contained_bind.mpr ⟨contained_hash hreviewed.head, fun headHash _ => contained_ok _⟩

/-- The state that `prepare` writes can be printed. -/
theorem printsInside_preparedState {reviewed : Reviewed F} {sourceTaskId key : Str}
    {firstUse : Data F} {state : Object F} (hreviewed : ReviewedFits script reviewed)
    (huse : PrintsInside script 1 firstUse)
    (h : preparedState script scenario sourceTaskId key reviewed firstUse = .ok state) :
    PrintsInside script 0 (.dict state) := by
  simp only [preparedState, bind_eq_ok, require_eq_ok, ofBuiltin_eq_ok, pure_eq_ok,
    Except.ok.injEq] at h
  obtain ⟨_, -, _, ⟨-, hproposal⟩, _, -, _, -, _, ⟨-, hreceipt⟩, _, -, _, -, _, ⟨hthere, rfl⟩,
    number, hnumber, _, -, rfl⟩ := h
  have hproposalHash := hreviewed.proposalHash
  have hreceiptId := hreviewed.reviewReceiptId
  rw [hproposal] at hproposalHash
  rw [hreceipt] at hreceiptId
  obtain ⟨n, hn, hgeneration⟩ := hreviewed.numbered.exists_number hthere
  obtain rfl := Except.ok.inj (hn.symm.trans hnumber)
  rw [printsInside_dict script.py.limits.indented_pos]
  simp [hproposalHash, hreceiptId, hgeneration, huse, printsInside_str]

/-- The text of a receipt file. -/
theorem contained_receiptText {receipt : Object F} (h : PrintsInside script 0 (.dict receipt)) :
    Contained (receiptText script receipt) :=
  contained_bind.mpr ⟨contained_ofBuiltin.mpr h.dumps, fun _ _ => contained_ok _⟩

/-! ### Resuming -/

/-- The keys of the state that `resume` subscripts. -/
def subscripts : List String := ["revision_id", "head_id", "stable_key", "head_generation"]

/-- What `resume` takes from a state: the subscripts are there and can be passed to a process,
and what is written again can be printed. -/
structure Continuable (script : Script F) (state : Object F) : Prop where
  there : ∀ key ∈ subscripts, hasKey state (lit key) = true
  passes : ∀ key ∈ subscripts, Passes script (get state (lit key))
  prints : ∀ m ∈ state, m.1 ∉ completionFields.map lit → PrintsInside script 1 m.2

/-- The state file is missing, or decoding its text meets no limit; and if it holds a
prepared receipt of the scenario, that carries what `resume` takes from it. -/
def Resumable (script : Script F) (scenario : Object F) : Except BuiltinError Str → Prop
  | .error e => e.caughtBy .fileNotFoundError = true
  | .ok content =>
      (∀ e, (jsonLoads script.py.limits content : Except BuiltinError (Data F)) = .error e →
        e = .jsonDecodeError) ∧
      ∀ state : Object F, jsonLoads script.py.limits content = .ok (.dict state) →
        PreparedReceipt state →
        (∃ scenarioHash, hash script (.dict scenario) = .ok scenarioHash ∧
          get state (lit "scenario_hash") = .str scenarioHash) →
        Continuable script state

/-- Loading the state. -/
theorem contained_loadObject {content : Except BuiltinError Str}
    (h : Resumable script scenario content) (path : Str) :
    Contained (loadObject script path content) := by
  cases content with
  | error e => simp [loadObject, show e.caughtBy .fileNotFoundError = true from h, journeyError]
  | ok content =>
    obtain ⟨hlimits, -⟩ := h
    unfold jsonLoads at hlimits
    unfold loadObject
    dsimp only
    split
    · exact contained_journeyError _
    · next heq =>
      have hlimit := hlimits .recursionError (by simp [heq])
      cases hlimit
    · next heq =>
      have hlimit := hlimits .valueError (by simp [heq])
      cases hlimit
    · exact contained_ok _
    · exact contained_journeyError _

/-- A state that was loaded meets no limit. -/
theorem fitsInside_of_loads {content : Str} {state : Object F}
    (h : jsonLoads script.py.limits content = .ok (.dict state)) :
    FitsInside script 0 (.dict state) := by
  have hloads : Json.loads (dataHooks script.py.limits) script.py.limits.nesting content =
      .ok (.dict state) := by
    unfold jsonLoads at h
    split at h
    · next heq => rw [heq, Except.ok.inj h]
    · cases h
    · cases h
    · cases h
  obtain ⟨x, ⟨_, t, _, _, _, hvalue, _⟩, hdepth, hfold⟩ := (Json.loads_eq_ok_iff _).mp hloads
  exact fits_of_value hvalue hfold hdepth

/-- The gates on the loaded state. -/
theorem contained_checkState (h : FitsInside script 0 (.dict scenario)) (state : Object F) :
    Contained (checkState script scenario state) := by
  unfold checkState
  refine contained_ite (contained_journeyError _) ?_
  exact contained_bind.mpr ⟨contained_hash h,
    fun _ _ => contained_ite (contained_journeyError _) (contained_ok _)⟩

omit [PyFloat F] in
/-- A subscript of the state. -/
theorem contained_stateText {state : Object F} {key : String}
    (h : FitsInside script 0 (.dict state)) (hkey : hasKey state (lit key) = true) :
    Contained (stateText script state key) := by
  have hlookup : lookup state (lit key) = .ok (get state (lit key)) := lookup_eq_ok.mpr ⟨hkey, rfl⟩
  refine contained_bind.mpr ⟨contained_ofBuiltin.mpr ⟨_, hlookup⟩, fun value hvalue => ?_⟩
  obtain rfl := Except.ok.inj (hlookup.symm.trans (ofBuiltin_eq_ok.mp hvalue))
  exact contained_text (h.member _)

/-- The gates on the revision and the head after the restart. -/
theorem contained_checkUnchanged {revision head : Object F}
    (hrevision : FitsInside script 0 (.dict revision)) (hhead : FitsInside script 0 (.dict head))
    (state : Object F) (revisionId : Str) :
    Contained (checkUnchanged script state revision head revisionId) := by
  unfold checkUnchanged
  refine contained_bind.mpr ⟨contained_hash hrevision, fun _ _ => ?_⟩
  refine contained_ite (contained_journeyError _) ?_
  refine contained_bind.mpr ⟨contained_hash hhead, fun _ _ => ?_⟩
  exact contained_ite (contained_journeyError _)
    (contained_ite (contained_journeyError _) (contained_ok _))

omit [PyFloat F] in
/-- The arguments of the retirement. -/
theorem contained_retireArguments {state : Object F} (h : FitsInside script 0 (.dict scenario))
    (hstate : FitsInside script 0 (.dict state))
    (hkey : hasKey state (lit "head_generation") = true) (headId : Str) :
    Contained (retireArguments script scenario state headId) := by
  unfold retireArguments
  refine contained_bind.mpr ⟨contained_requireText (h.member _) _, fun rationale _ => ?_⟩
  exact contained_bind.mpr ⟨contained_stateText hstate hkey, fun _ _ => contained_ok _⟩

omit [PyFloat F] in
/-- The receipt of a retirement. -/
theorem contained_retiredReceipt (lifecycle : Object F) : Contained (retiredReceipt lifecycle) := by
  unfold retiredReceipt
  refine contained_bind.mpr ⟨contained_require _ _, fun value _ => ?_⟩
  split
  · exact contained_ite (contained_journeyError _) (contained_ok _)
  · exact contained_journeyError _

omit [PyFloat F] in
/-- The gate on the retired head. -/
theorem contained_checkRetired (head : Object F) : Contained (checkRetired head) :=
  contained_ite (contained_journeyError _) (contained_ok _)

/-- The gate on the text of the failed use. -/
theorem contained_checkFailure (refusal : Str) : Contained (checkFailure refusal) :=
  contained_ite (contained_ok _) (contained_journeyError _)

/-- The members that `resume` assigns. -/
theorem contained_completion {receipt retiredHead : Object F}
    (hreceipt : FitsInside script 0 (.dict receipt))
    (hhead : FitsInside script 0 (.dict retiredHead)) (restartUse : Data F) (refusal : Str) :
    Contained (completion script restartUse receipt retiredHead refusal) := by
  unfold completion
  refine contained_bind.mpr ⟨contained_require _ _, fun receiptId _ => ?_⟩
  refine contained_bind.mpr ⟨contained_hash hreceipt, fun receiptHash _ => ?_⟩
  exact contained_bind.mpr ⟨contained_hash hhead, fun headHash _ => contained_ok _⟩

/-- The completed state can be printed. -/
theorem printsInside_updated {state receipt retiredHead members : Object F} {restartUse : Data F}
    {refusal : Str}
    (hstate : ∀ m ∈ state, m.1 ∉ completionFields.map lit → PrintsInside script 1 m.2)
    (huse : PrintsInside script 1 restartUse)
    (hreceipt : PrintsInside script 1 (get receipt (lit "receipt_id")))
    (h : completion script restartUse receipt retiredHead refusal = .ok members) :
    PrintsInside script 0 (.dict (updated state members)) := by
  obtain ⟨_, -, hkeys⟩ := completion_fields h
  have hmembers : ∀ m ∈ members, PrintsInside script 1 m.2 := by
    simp only [completion, bind_eq_ok, require_eq_ok, pure_eq_ok, Except.ok.injEq] at h
    obtain ⟨_, ⟨-, rfl⟩, _, -, _, -, rfl⟩ := h
    simp [huse, hreceipt, printsInside_str]
  refine (printsInside_dict script.py.limits.indented_pos).mpr fun m hm => ?_
  obtain ⟨hkept, hother⟩ | hassigned := mem_updated hm
  · exact hstate m hkept (hkeys ▸ hother)
  · exact hmembers m hassigned

end MarketIntelligence.Journey
