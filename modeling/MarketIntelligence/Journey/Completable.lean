import MarketIntelligence.Journey.Completion
import MarketIntelligence.Journey.Containment

/-!
# Which scenarios can be prepared, and which prepared journeys can be completed

Every gate of the journey is met by the answers of some runner, as long as the scenario has
the fields that the phase asks for. `prepare` asks for six fields and never looks at the three
that `resume` needs, so a journey without them is prepared and stays so, whatever is answered.
-/

namespace MarketIntelligence.Journey

open Python Interaction

variable {F : Type}

/-! ### Answers for a revision -/

/-- The selection receipt of a use of one revision. -/
def grantedSelection (revisionId : Str) : Object F :=
  [(lit "selection_receipt_id", .str (lit "selection")),
    (lit "selected_revision_ids", .list [.str revisionId])]

/-- The use receipt of a use of one revision. -/
def grantedUse (revisionId : Str) : Object F :=
  [(lit "use_receipt_id", .str (lit "use")), (lit "state", .str (lit "used")),
    (lit "selected_revision_ids", .list [.str revisionId]),
    (lit "material_use_hash", .str (lit "material"))]

/-- The completed task of this use. -/
def grantedTask (revisionId : Str) : Object F :=
  [(lit "id", .str (lit "task")), (lit "status", .str (lit "completed")),
    (lit "cognition_selection_receipt", .dict (grantedSelection revisionId)),
    (lit "cognition_use_receipt", .dict (grantedUse revisionId))]

/-- What the use is attributed to. -/
def grantedAttribution (revisionId : Str) : Attribution F where
  taskId := .str (lit "task")
  selectionReceiptId := .str (lit "selection")
  useReceiptId := .str (lit "use")
  selectedRevisionIds := [revisionId]
  materialUseHash := .str (lit "material")

/-- The use is attributed. -/
theorem granted_attributed (script : Script F) (revisionId : Str) :
    AttributedWhole script (grantedTask revisionId) revisionId (grantedAttribution revisionId) where
  receipts := ⟨grantedSelection revisionId, grantedUse revisionId, {
    completed := rfl
    selectionReceipt := rfl
    useReceipt := rfl
    selected := ⟨_, rfl, rfl⟩
    used := ⟨_, rfl, rfl⟩
    revision := List.mem_singleton_self _
    state := rfl
    material := rfl
    materialUse := rfl
    selectionReceiptId := rfl
    useReceiptId := rfl
    taskId := rfl }⟩
  identified := rfl
  selectionIdentified := rfl
  useIdentified := rfl

/-- Its receipts agree with the attribution. -/
theorem granted_inspected (script : Script F) (revisionId : Str) :
    Inspected script (grantedAttribution revisionId) (grantedSelection revisionId)
      (grantedUse revisionId) where
  selectedBySelection := ⟨_, rfl, by
    simp [grantedAttribution, Data.eqItems, Data.floatItems, Data.eq]⟩
  selectedByUse := ⟨_, rfl, by
    simp [grantedAttribution, Data.eqItems, Data.floatItems, Data.eq]⟩
  material := by simp [grantedUse, grantedAttribution, Data.eq]

/-- A list is one more container for its items. -/
theorem fitsInside_list {script : Script F} {depth : ℕ} {xs : List (Data F)}
    (hdepth : depth < script.py.limits.nesting) :
    FitsInside script depth (.list xs) ↔ ∀ x ∈ xs, FitsInside script (depth + 1) x :=
  fits_list_inside hdepth

/-- An object of texts can be printed. -/
theorem fitsInside_textObject {script : Script F} {depth : ℕ}
    (hdepth : depth < script.py.limits.nesting) (members : List (String × String)) :
    FitsInside script depth (.dict (textObject members)) := by
  rw [fitsInside_dict hdepth]
  intro m hm
  obtain ⟨n, -, rfl⟩ := List.mem_map.mp hm
  exact fitsInside_str script _ _

/-- Its receipts can be printed. -/
theorem granted_fits {script : Script F} (hnesting : 2 ≤ script.py.limits.nesting)
    (revisionId : Str) : FitsInside script 0 (.dict (grantedSelection revisionId)) ∧
      FitsInside script 0 (.dict (grantedUse revisionId)) := by
  have hids : FitsInside script 1 (.list [.str revisionId]) := by
    rw [fitsInside_list (by omega)]
    simp [fitsInside_str]
  rw [fitsInside_dict (by omega), fitsInside_dict (by omega)]
  simp [grantedSelection, grantedUse, hids, fitsInside_str]

/-- The attribution can be printed inside a receipt. -/
theorem granted_attributionFits (script : Script F) (revisionId : Str) :
    AttributionFits script (grantedAttribution revisionId) where
  taskId := printsInside_str script 2 _
  selectionReceiptId := printsInside_str script 2 _
  useReceiptId := printsInside_str script 2 _
  materialUseHash := printsInside_str script 2 _

variable [PyFloat F]

/-- A value that meets no limit has a hash. -/
theorem FitsInside.exists_hash {script : Script F} {value : Data F}
    (h : FitsInside script 0 value) : ∃ t, hash script value = .ok t := by
  obtain ⟨t, ht⟩ := h.dumps
  exact ⟨_, hash_eq_ok.mpr ⟨t, ht, rfl⟩⟩

/-- A value with a hash meets no limit. -/
theorem fitsInside_of_hash {script : Script F} {value : Data F} {t : Str}
    (h : hash script value = .ok t) : FitsInside script 0 value := by
  obtain ⟨_, ht, -⟩ := hash_eq_ok.mp h
  obtain ⟨_, hfits, -⟩ := bind_eq_ok.mp ht
  exact hfits

omit [PyFloat F] in
/-- A field of a scenario that meets no limit gives a text if it is there. -/
theorem exists_text {script : Script F} {scenario : Object F} {key : Str}
    (h : FitsInside script 0 (.dict scenario)) (hthere : (get scenario key).isMissing = false) :
    ∃ t, GivesText script (get scenario key) t := by
  have hfield := h.member key
  cases hvalue : get scenario key with
  | str s => exact ⟨s, hvalue ▸ hthere, rfl⟩
  | _ =>
    rw [hvalue] at hthere hfield
    exact ⟨_, hthere, bind_eq_ok.mpr ⟨(), hfield, rfl⟩⟩

/-- A use of any revision is accepted with some answers. -/
theorem exists_acceptedUse {script : Script F} (hnesting : 2 ≤ script.py.limits.nesting)
    {prompt : Data F} (hprompt : ∃ t, GivesText script prompt t) (key revisionId : Str) :
    ∃ hashes es, AcceptedUse script key prompt revisionId (grantedTask revisionId)
      (grantedSelection revisionId) (grantedUse revisionId) (grantedAttribution revisionId)
      hashes es := by
  obtain ⟨t, ht⟩ := hprompt
  obtain ⟨hselectionFits, huseFits⟩ := granted_fits hnesting revisionId
  obtain ⟨selectionHash, hselection⟩ := hselectionFits.exists_hash
  obtain ⟨useHash, huse⟩ := huseFits.exists_hash
  exact ⟨(selectionHash, useHash), _, {
    attributed := granted_attributed script revisionId
    inspected := granted_inspected script revisionId
    hashed := ⟨hselection, huse⟩
    events := ⟨t, lit "selection", lit "use", ht, rfl, rfl, rfl⟩ }⟩

/-! ### Preparing -/

/-- A scenario with the fields that `prepare` asks for. -/
def Preparable (scenario : Object F) : Prop :=
  ∀ field ∈ ["stable_key", "name", "description", "intent", "base_recipe", "fresh_use_prompt"],
    (get scenario (lit field)).isMissing = false

instance (scenario : Object F) : Decidable (Preparable scenario) :=
  inferInstanceAs (Decidable (∀ field ∈ _, (get scenario (lit field)).isMissing = false))

/-- The interpreter has room to print a receipt: for a list in a dictionary in a dictionary, and
for a number of one digit. -/
def HasRoom (script : Script F) : Prop :=
  3 ≤ script.py.limits.indented ∧ Data.intFits script.py.limits 1 = true

omit [PyFloat F] in
/-- Then there is room for these containers elsewhere. -/
theorem HasRoom.nesting {script : Script F} (h : HasRoom script) : 3 ≤ script.py.limits.nesting :=
  h.1.trans script.py.limits.indented_le

omit [PyFloat F] in
/-- Where any number can be printed, a number of one digit can be. -/
theorem intFits_one {limits : Limits} {n : ℤ} (h : Data.intFits limits n = true) :
    Data.intFits limits 1 = true := by
  unfold Data.intFits at h ⊢
  cases hlimit : limits.intDigits with
  | none => rfl
  | some limit =>
    simp only [hlimit, decide_eq_true_eq] at h ⊢
    have hne : Json.natDigits n.natAbs ≠ [] := by
      obtain hzero | ⟨⟨hne, -⟩, -⟩ := Json.natural_natDigits n.natAbs
      · simp [hzero]
      · exact hne
    have hpos := List.length_pos_iff.mpr hne
    have hone : (Json.natDigits (1 : ℤ).natAbs).length = 1 := by decide
    omega

/-- A receipt that was printed meets the limit of printing. -/
theorem printsInside_of_receiptText {script : Script F} {receipt : Object F} {content : Str}
    (h : receiptText script receipt = .ok content) : PrintsInside script 0 (.dict receipt) := by
  obtain ⟨_, hprinted, -⟩ := receiptText_eq_ok.mp h
  obtain ⟨_, hfits, -⟩ := bind_eq_ok.mp hprinted
  exact hfits

/-- A receipt that was printed had room, and its scenario met no limit. -/
theorem AcceptedPrepare.room {script : Script F} {scenario : Object F} {sourceTaskId : Str}
    {es : List (Event F)} {state : Object F} {key content : Str} {r : Reviewed F}
    {taught review task selection use : Object F} {a : Attribution F} {hashes : Str × Str}
    (h : AcceptedPrepare script scenario sourceTaskId es state key content r taught review task
      selection use a hashes) :
    FitsInside script 0 (.dict scenario) ∧ HasRoom script := by
  have hfits := printsInside_of_receiptText h.printed
  have hstate := h.receipt
  simp only [preparedState, bind_eq_ok, pure_eq_ok, Except.ok.injEq, ofBuiltin_eq_ok,
    require_eq_ok] at hstate
  obtain ⟨_, hscenario, _, -, _, -, _, -, _, -, _, -, _, -, _, -, n, -, _, -, rfl⟩ := hstate
  have huse : PrintsInside script 1 (inspectedUse a hashes) := by
    simpa using hfits.get (lit "first_use")
  have hids : PrintsInside script 2 (.list (a.selectedRevisionIds.map .str)) := by
    simpa [inspectedUse] using huse.get (lit "selected_revision_ids")
  have hnumber : PrintsInside script 1 (.int n : Data F) := by
    simpa using hfits.get (lit "head_generation")
  refine ⟨fitsInside_of_hash hscenario, ?_, ?_⟩
  · by_contra hsmall
    unfold PrintsInside at hids
    rw [show script.py.limits.indented - 2 = 0 by omega, Data.fits] at hids
    cases hids
  · unfold PrintsInside at hnumber
    rw [Data.fits] at hnumber
    split at hnumber
    · next hone => exact intFits_one hone
    · cases hnumber

/-- The answers to a review that is approved. -/
def grantedReviewed : Reviewed F where
  proposal := textObject [("proposal_id", "p"), ("proposal_hash", "h")]
  proposalId := lit "p"
  inspection := sampleInspection
  semanticDiff := sampleDiff
  reviewReceipt := sampleReceipt
  revisionId := lit "r"
  headId := lit "d"
  revision := sampleRevision
  head := [(lit "active_revision_id", .str (lit "r")), (lit "lifecycle", .str (lit "active")),
    (lit "generation", .int 1)]

omit [PyFloat F] in
/-- They are printed with every receipt that has room. -/
theorem granted_reviewedFits {script : Script F} (hroom : HasRoom script) :
    ReviewedFits script (grantedReviewed : Reviewed F) := by
  have hnesting := hroom.nesting
  have hone := hroom.2
  have hnumber : FitsInside script 1 (.int 1 : Data F) := by
    unfold FitsInside
    rw [Data.fits, if_pos hone]
  have hbool (depth : ℕ) (b : Bool) : FitsInside script depth (.bool b : Data F) := by
    unfold FitsInside
    cases script.py.limits.nesting - depth <;> rfl
  have hchanges : FitsInside script 1 (.list [.bool true] : Data F) := by
    rw [fitsInside_list (by omega)]
    simp [hbool]
  exact {
    proposalHash := printsInside_str script 1 (lit "h")
    inspection := by
      rw [fitsInside_dict (by omega)]
      simp [grantedReviewed, sampleInspection, hbool]
    semanticDiff := by
      rw [fitsInside_dict (by omega)]
      simp [grantedReviewed, sampleDiff, hchanges]
    reviewReceipt := fitsInside_textObject (by omega) _
    reviewReceiptId := printsInside_str script 1 _
    revision := fitsInside_textObject (by omega) _
    head := by
      rw [fitsInside_dict (by omega)]
      simp [grantedReviewed, hnumber, fitsInside_str]
    numbered := .inr ⟨1, rfl, hone⟩ }

omit [PyFloat F] in
/-- The review of a scenario with every field is accepted with them. -/
theorem exists_acceptedReview {script : Script F} {scenario : Object F}
    (hscenario : FitsInside script 0 (.dict scenario)) (h : Preparable scenario)
    (sourceTaskId key : Str) : ∃ es, AcceptedReview script scenario sourceTaskId key sampleTaught
      [(lit "review_receipt", .dict sampleReceipt)] grantedReviewed es := by
  have hfield (field : String) (hmem : field ∈ ["name", "description", "intent", "base_recipe"]) :
      ∃ t, GivesText script (get scenario (lit field)) t :=
    exists_text hscenario (h field (by simp at hmem ⊢; tauto))
  obtain ⟨name, hname⟩ := hfield "name" (by simp)
  obtain ⟨description, hdescription⟩ := hfield "description" (by simp)
  obtain ⟨intent, hintent⟩ := hfield "intent" (by simp)
  obtain ⟨recipe, hrecipe⟩ := hfield "base_recipe" (by simp)
  exact ⟨_, {
    unselectable := rfl
    proposal := rfl
    proposalId := ⟨rfl, rfl⟩
    changes := rfl
    pending := rfl
    receipt := rfl
    approved := rfl
    revisionId := ⟨rfl, rfl⟩
    headId := ⟨rfl, rfl⟩
    revision := rfl
    activeRevision := rfl
    lifecycle := rfl
    events := ⟨name, description, intent, recipe, hname, hdescription, hintent, hrecipe, rfl⟩ }⟩

/-- The state of these answers is a receipt that can be printed. -/
theorem exists_grantedState {script : Script F} {scenario : Object F}
    (hscenario : FitsInside script 0 (.dict scenario)) (hroom : HasRoom script)
    (sourceTaskId key : Str) {firstUse : Data F} (huse : PrintsInside script 1 firstUse) :
    ∃ state content,
      preparedState script scenario sourceTaskId key grantedReviewed firstUse = .ok state ∧
      receiptText script state = .ok content := by
  have hfits := granted_reviewedFits (F := F) hroom
  obtain ⟨_, hscenarioHash⟩ := hscenario.exists_hash
  obtain ⟨_, hinspection⟩ := hfits.inspection.exists_hash
  obtain ⟨_, hdiff⟩ := hfits.semanticDiff.exists_hash
  obtain ⟨_, hreceipt⟩ := hfits.reviewReceipt.exists_hash
  obtain ⟨_, hrevision⟩ := hfits.revision.exists_hash
  obtain ⟨_, hhead⟩ := hfits.head.exists_hash
  have hstate : ∃ state,
      preparedState script scenario sourceTaskId key grantedReviewed firstUse = .ok state := by
    simp only [preparedState, bind_eq_ok, pure_eq_ok, Except.ok.injEq, ofBuiltin_eq_ok,
      require_eq_ok]
    exact ⟨_, _, hscenarioHash, _, ⟨rfl, rfl⟩, _, hinspection, _, hdiff, _, ⟨rfl, rfl⟩, _,
      hreceipt, _, hrevision, _, ⟨rfl, rfl⟩, 1, rfl, _, hhead, rfl⟩
  obtain ⟨state, hstate⟩ := hstate
  obtain ⟨printed, hprinted⟩ := (printsInside_preparedState hfits huse hstate).dumps
  exact ⟨state, _, hstate, receiptText_eq_ok.mpr ⟨printed, hprinted, rfl⟩⟩

/-- A scenario with every field is prepared with these answers. -/
theorem exists_acceptedPrepare {script : Script F} {scenario : Object F}
    (hfields : Preparable scenario) (hscenario : FitsInside script 0 (.dict scenario))
    (hroom : HasRoom script) (sourceTaskId : Str) :
    ∃ es state key content hashes, AcceptedPrepare script scenario sourceTaskId es state key content
      grantedReviewed sampleTaught [(lit "review_receipt", .dict sampleReceipt)]
      (grantedTask (lit "r")) (grantedSelection (lit "r")) (grantedUse (lit "r"))
      (grantedAttribution (lit "r")) hashes := by
  obtain ⟨key, hkey⟩ := exists_text hscenario (hfields "stable_key" (by simp))
  obtain ⟨reviewed, hreviewed⟩ := exists_acceptedReview hscenario hfields sourceTaskId key
  obtain ⟨hashes, used, hused⟩ := exists_acceptedUse (Nat.le_of_succ_le hroom.nesting)
    (exists_text hscenario (hfields "fresh_use_prompt" (by simp))) key (lit "r")
  obtain ⟨state, content, hstate, hcontent⟩ := exists_grantedState hscenario hroom sourceTaskId
    key (printsInside_inspectedUse (granted_attributionFits script (lit "r")) hroom.1 hashes)
  exact ⟨_, state, key, content, hashes,
    ⟨hkey, hstate, hcontent, reviewed, used, hreviewed, hused, rfl⟩⟩

/-- A scenario can be prepared with some answers exactly if it has the six fields of `prepare`
and can be hashed, on an interpreter with room for a receipt. -/
theorem preparable_iff (script : Script F) (scenario : Object F) (sourceTaskId path : Str) :
    (∃ es state, Trace (prepare script scenario sourceTaskId path) es (.returned state)) ↔
      Preparable scenario ∧ FitsInside script 0 (.dict scenario) ∧ HasRoom script := by
  constructor
  · rintro ⟨es, state, ht⟩
    obtain ⟨key, content, r, taught, review, task, selection, use, a, hashes, h⟩ :=
      (prepare_returns_iff script scenario sourceTaskId path es state).mp ht
    obtain ⟨reviewed, used, hreviewed, hused, -⟩ := h.events
    obtain ⟨_, _, _, _, hname, hdescription, hintent, hrecipe, -⟩ := hreviewed.events
    obtain ⟨_, _, _, hprompt, -⟩ := hused.events
    refine ⟨?_, h.room⟩
    simp [Preparable, h.stableKey.1, hname.1, hdescription.1, hintent.1, hrecipe.1, hprompt.1]
  · rintro ⟨hfields, hscenario, hroom⟩
    obtain ⟨es, state, key, content, hashes, h⟩ :=
      exists_acceptedPrepare hfields hscenario hroom sourceTaskId
    exact ⟨es, state, (prepare_returns_iff script scenario sourceTaskId path es state).mpr
      ⟨key, content, _, _, _, _, _, _, _, hashes, h⟩⟩

/-! ### Completing -/

/-- A scenario with the fields that `resume` asks for. -/
def Retires (scenario : Object F) : Prop :=
  ∀ field ∈ ["restart_use_prompt", "retire_rationale", "post_retirement_use_prompt"],
    (get scenario (lit field)).isMissing = false

instance (scenario : Object F) : Decidable (Retires scenario) :=
  inferInstanceAs (Decidable (∀ field ∈ _, (get scenario (lit field)).isMissing = false))

/-- An object whose texts were read back, and nothing else of it. -/
def rereadTexts (ms : Object F) : Object F :=
  ms.map fun m => (m.1, match m.2 with
    | .str s => .str (Json.reread true s)
    | value => value)

omit [PyFloat F] in
/-- A text in it was read back. -/
theorem get_rereadTexts {ms : Object F} {key s : Str} (h : get ms key = .str s) :
    get (rereadTexts ms) key = .str (Json.reread true s) := by
  induction ms with
  | nil => cases h
  | cons m ms ih =>
    obtain ⟨k, value⟩ := m
    by_cases hkey : k = key
    · obtain rfl : value = .str s := by simpa [Python.get, hkey] using h
      simp [rereadTexts, Python.get, hkey]
    · have hrest : get ms key = .str s := by simpa [Python.get, hkey] using h
      have hmap := ih hrest
      simpa [rereadTexts, Python.get, hkey] using hmap

/-- It has the hash of the object. -/
theorem hash_rereadTexts {script : Script F} {ms : Object F} {t : Str}
    (h : hash script (.dict ms) = .ok t) : hash script (.dict (rereadTexts ms)) = .ok t := by
  obtain ⟨text, htext, hdigest⟩ := hash_eq_ok.mp h
  obtain ⟨_, hfits, hencode⟩ := bind_eq_ok.mp htext
  rw [Limits.levels_compact] at hfits
  obtain ⟨n, hn⟩ := exists_level_of_fits hfits
  have hfits' : (Data.dict (rereadTexts ms)).fits script.py.limits script.py.limits.nesting =
      .ok () := by
    rw [hn, fits_dict] at hfits ⊢
    intro m hm
    obtain ⟨⟨k, value⟩, hmem, rfl⟩ := List.mem_map.mp hm
    have hvalue := hfits _ hmem
    cases value with
    | str s => cases n <;> rfl
    | _ => exact hvalue
  have hmembers : Json.encodeMembers (Json.Layout.compact true) 1 (rereadTexts ms) =
      Json.encodeMembers (Json.Layout.compact true) 1 ms := by
    rw [Json.encodeMembers_eq, Json.encodeMembers_eq, rereadTexts, List.map_map]
    refine List.map_congr_left fun m _ => ?_
    obtain ⟨k, value⟩ := m
    cases value with
    | str s => exact congrArg (Prod.mk k) (Json.encodeString_reread s)
    | _ => rfl
  have hsame : Json.encode (Json.Layout.compact true) 0 (.dict (rereadTexts ms)) =
      Json.encode (Json.Layout.compact true) 0 (.dict ms) := by
    refine encode_dict_congr ?_ (by rw [hmembers])
    simp [rereadTexts]
  exact hash_eq_ok.mpr ⟨text, bind_eq_ok.mpr ⟨(), hfits', hsame ▸ hencode⟩, hdigest⟩

/-- The receipt of a retirement. -/
def grantedRetirement : Object F :=
  [(lit "lifecycle_receipt", .dict sampleRetirement)]

/-- The answers of a completed `resume`, to a revision and a head that stayed as they were. -/
def grantedReplies (revision head : Object F) (revisionId : Str) : ResumeReplies F where
  revision := revision
  head := rereadTexts head
  task := grantedTask revisionId
  selection := grantedSelection revisionId
  use := grantedUse revisionId
  lifecycle := grantedRetirement
  retiredHead := sampleRetiredHead

/-- A prepared journey is completed with some answers, if the scenario of the second phase has
the hash of the first one and the fields of `resume`. -/
theorem exists_acceptedResume {script : Script F} {scenario scenario' : Object F}
    {sourceTaskId key content : Str} {es : List (Event F)} {state : Object F} {r : Reviewed F}
    {taught review task selection use : Object F} {a : Attribution F} {hashes : Str × Str}
    {c : Handover} (h : AcceptedPrepare script scenario sourceTaskId es state key content r taught
      review task selection use a hashes)
    (hc : HandedOver script scenario key r c)
    (hscenario : hash script (.dict scenario') = .ok c.scenarioHash) (hfields : Retires scenario') :
    ∃ es' hashes' result, AcceptedResume script scenario' content (Data.reloadedDict true state) c
      es' (grantedReplies r.revision r.head c.revisionId) (grantedAttribution c.revisionId) hashes'
      (lit "cognition_use_not_completed") result := by
  obtain ⟨-, hroom⟩ := h.room
  have hnesting := hroom.nesting
  obtain ⟨reviewed, -, hreviewed, -, -⟩ := h.events
  have hfits := fitsInside_of_hash hscenario
  have htext (field : String)
      (hmem : field ∈ ["restart_use_prompt", "retire_rationale", "post_retirement_use_prompt"]) :
      ∃ t, GivesText script (get scenario' (lit field)) t :=
    exists_text hfits (hfields field hmem)
  obtain ⟨rationale, hrationale⟩ := htext "retire_rationale" (by simp)
  obtain ⟨prompt, hprompt⟩ := htext "post_retirement_use_prompt" (by simp)
  obtain ⟨hashes', used, hused⟩ := exists_acceptedUse (Nat.le_of_succ_le hnesting)
    (htext "restart_use_prompt" (by simp)) c.key c.revisionId
  have hreceiptFits : FitsInside script 0 (.dict (sampleRetirement : Object F)) :=
    fitsInside_textObject (by omega) _
  have hretiredFits : FitsInside script 0 (.dict (sampleRetiredHead : Object F)) :=
    fitsInside_textObject (by omega) _
  obtain ⟨_, hreceiptHash⟩ := hreceiptFits.exists_hash
  obtain ⟨_, hretiredHash⟩ := hretiredFits.exists_hash
  obtain ⟨members, hmembers⟩ : ∃ members,
      completion script (inspectedUse (grantedAttribution c.revisionId) hashes') sampleRetirement
        sampleRetiredHead (lit "cognition_use_not_completed") = .ok members := by
    simp only [completion, bind_eq_ok, require_eq_ok, pure_eq_ok, Except.ok.injEq]
    exact ⟨_, _, ⟨rfl, rfl⟩, _, hreceiptHash, _, hretiredHash, rfl⟩
  have hreloaded : PrintsInside script 0 (.dict (Data.reloadedDict true state)) := by
    rw [← reloaded_dict]
    exact fits_reloaded (printsInside_of_receiptText h.printed)
  have hreceiptId : PrintsInside script 1 (get (sampleRetirement : Object F) (lit "receipt_id")) :=
    printsInside_str script 1 (lit "z")
  obtain ⟨printed, hprinted⟩ := (printsInside_updated
    (fun m hm _ => (printsInside_dict script.py.limits.indented_pos).mp hreloaded m hm)
    (printsInside_inspectedUse (granted_attributionFits script _) hroom.1 hashes')
    hreceiptId hmembers).dumps
  have hactive : get (rereadTexts r.head) (lit "lifecycle") = .str (lit "active") := by
    have hlifecycle : Json.reread true (lit "active") = lit "active" := by decide
    rw [get_rereadTexts hreviewed.lifecycle, hlifecycle]
  exact ⟨_, hashes', updated _ members, {
    sameScenario := hscenario
    sameRevision := hc.revisionHash
    sameHead := hash_rereadTexts hc.headHash
    activeRevision := (get_rereadTexts hreviewed.activeRevision).trans (by rw [hc.revisionId])
    active := hactive
    retired := rfl
    refused := ⟨_, List.mem_cons_self, List.infix_rfl⟩
    completed := ⟨sampleRetirement, members, rfl, rfl, hmembers, rfl⟩
    events := ⟨used, rationale, prompt, _, hused, hrationale, hprompt,
      receiptText_eq_ok.mpr ⟨printed, hprinted, rfl⟩, rfl⟩ }⟩

/-- After a `prepare` that returned, some answers complete the journey with a second scenario
exactly if it has the hash of the first one and the three fields of `resume`. Nothing else that
`prepare` accepts can stand in the way of the second phase. -/
theorem prepared_completable_iff (script : Script F) {scenario : Object F}
    {sourceTaskId path content : Str} {es : List (Event F)} {state : Object F}
    (hprepare : Trace (prepare script scenario sourceTaskId path) es (.returned state))
    (hwritten : es.getLast? = some ⟨.writeState content, some ()⟩) (scenario' : Object F)
    (path' : Str) :
    (∃ es' result, Trace (resume script scenario' path') es' (.returned result) ∧
      es'.head? = some (readEvent content)) ↔
    hash script (.dict scenario') = hash script (.dict scenario) ∧ Retires scenario' := by
  obtain ⟨key, content', r, taught, review, task, selection, use, a, hashes, h⟩ :=
    (prepare_returns_iff script scenario sourceTaskId path es state).mp hprepare
  obtain ⟨reviewed, used, -, -, hes⟩ := h.events
  obtain rfl : content' = content := by
    simpa [hes, List.getLast?_cons, List.getLast?_append] using hwritten
  obtain ⟨hloads, c, hc, hcarries⟩ := prepared_carries h.receipt h.printed
  constructor
  · rintro ⟨es', result, hresume, hread⟩
    obtain ⟨content'', loaded, d, r', a', hashes', refusal, hloads', hcarries', h'⟩ :=
      (resume_returns_iff script scenario' path' es' result).mp hresume
    obtain ⟨_, _, _, _, hused, hrationale, hprompt, -, hes'⟩ := h'.events
    obtain rfl : content'' = content' := by simpa [hes', readEvent] using hread
    obtain rfl : loaded = Data.reloadedDict true state := by simpa [hloads] using hloads'.symm
    obtain rfl := hcarries.unique hcarries'
    obtain ⟨_, _, _, hrestart, -⟩ := hused.events
    refine ⟨h'.sameScenario.trans hc.scenarioHash.symm, ?_⟩
    simp [Retires, hrestart.1, hrationale.1, hprompt.1]
  · rintro ⟨hscenario, hfields⟩
    obtain ⟨es', hashes', result, h'⟩ :=
      exists_acceptedResume h hc (hscenario.trans hc.scenarioHash) hfields
    refine ⟨es', result, (resume_returns_iff script scenario' path' es' result).mpr
      ⟨_, _, c, _, _, hashes', _, hloads, hcarries, h'⟩, ?_⟩
    obtain ⟨_, _, _, _, -, -, -, -, hes'⟩ := h'.events
    simp [hes']

/-- A scenario without a prompt for the use after the retirement. -/
def unretirableScenario : Object Unit := textObject
  [("stable_key", "key"), ("name", "name"), ("description", "text"), ("intent", "aim"),
    ("base_recipe", "recipe"), ("fresh_use_prompt", "ask"), ("restart_use_prompt", "again"),
    ("retire_rationale", "done")]

/-- It can be prepared, and what was prepared cannot be completed with it. -/
theorem unretirableScenario_stuck : ∃ es state content,
    Trace (prepare sampleScript unretirableScenario (lit "task") (lit "state")) es
      (.returned state) ∧
    es.getLast? = some ⟨.writeState content, some ()⟩ ∧
    ¬∃ es' result, Trace (resume sampleScript unretirableScenario (lit "state")) es'
      (.returned result) ∧ es'.head? = some (readEvent content) := by
  have hfields : Preparable unretirableScenario := by decide
  have hfits : FitsInside sampleScript 0 (.dict unretirableScenario) := by
    unfold FitsInside
    rfl
  have hroom : HasRoom sampleScript := ⟨by decide, by decide⟩
  obtain ⟨es, state, key, content, hashes, h⟩ :=
    exists_acceptedPrepare hfields hfits hroom (lit "task")
  have hprepare := (prepare_returns_iff sampleScript unretirableScenario (lit "task") (lit "state")
    es state).mpr ⟨key, content, _, _, _, _, _, _, _, hashes, h⟩
  obtain ⟨reviewed, used, -, -, hes⟩ := h.events
  have hwritten : es.getLast? = some ⟨.writeState content, some ()⟩ := by
    simp [hes, List.getLast?_cons, List.getLast?_append]
  refine ⟨es, state, content, hprepare, hwritten, fun hcompleted => ?_⟩
  obtain ⟨-, hretires⟩ := (prepared_completable_iff sampleScript hprepare hwritten
    unretirableScenario (lit "state")).mp hcompleted
  have hmissing : ¬Retires unretirableScenario := by decide
  exact hmissing hretires

end MarketIntelligence.Journey
