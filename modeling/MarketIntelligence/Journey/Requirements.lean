import MarketIntelligence.Journey.Order
import MarketIntelligence.Python.RoundTrip

/-!
# Scenario fields that are required too late

A run that fails because a scenario field is missing should not have issued the review,
or the retirement. The prompt of the first use is required after the review, and the
prompt of the refused use after the retirement: exactly the scenarios without one of
them, but with all that the earlier commands need, have such a run.
-/

namespace MarketIntelligence.Journey

open Python Interaction

variable {F : Type} [PyFloat F]

/-- No run of `prepare` that fails because of a scenario field has issued the review. -/
def PrepareFailsEarly (script : Script F) (scenario : Object F) : Prop :=
  ∀ sourceTaskId path es e, Trace (prepare script scenario sourceTaskId path) es (.raised e) →
    MissingField e → ∀ op ∈ commands es, op.verb ≠ some (lit "review")

/-- No run of `resume` that fails because of a scenario field has issued the retirement,
whatever the state file holds. -/
def ResumeFailsEarly (script : Script F) (scenario : Object F) : Prop :=
  ∀ path es e, Trace (resume script scenario path) es (.raised e) → MissingField e →
    ∀ op ∈ commands es, op.verb ≠ some (lit "lifecycle")

/-! ### Failures in time -/

/-- With the prompt, or without a field for teaching, `prepare` fails early. -/
theorem prepareFailsEarly_of {script : Script F} {scenario : Object F}
    (h : (get scenario (lit "fresh_use_prompt")).isMissing = false ∨ ¬Teachable script scenario) :
    PrepareFailsEarly script scenario := by
  intro sourceTaskId path es e ht hfield op hop hverb
  obtain ⟨-, -, hraises⟩ := ht.meets (prepare_meets script scenario sourceTaskId path)
  obtain ⟨-, hlate⟩ := hraises e rfl
  obtain ⟨hteachable, hmissing⟩ := hlate hfield ⟨op, hop, hverb⟩
  obtain hthere | hnot := h
  · rw [hthere] at hmissing
    cases hmissing
  · exact hnot hteachable

/-- With the prompt, or without a field for the retirement, `resume` fails early. -/
theorem resumeFailsEarly_of {script : Script F} {scenario : Object F}
    (h : (get scenario (lit "post_retirement_use_prompt")).isMissing = false ∨
      ¬RetirableScenario script scenario) : ResumeFailsEarly script scenario := by
  intro path es e ht hfield op hop hverb
  obtain ⟨-, -, hraises⟩ := ht.meets (resume_meets script scenario path)
  obtain ⟨-, hlate⟩ := hraises e rfl
  obtain ⟨hretirable, hmissing⟩ := hlate hfield ⟨op, hop, hverb⟩
  obtain hthere | hnot := h
  · rw [hthere] at hmissing
    cases hmissing
  · exact hnot hretirable

/-! ### Late failures -/

omit [PyFloat F] in
/-- An answered command, before the rest of a run. -/
theorem trace_json {α : Type} {arguments : List Str} {f : Object F → Phase F α}
    (response : Object F) {es : List (Event F)} {o : Outcome (Raised JourneyError) α}
    (ht : Trace (f response) es o) :
    Trace (json arguments >>= f) (⟨.json arguments, some response⟩ :: es) o :=
  @Trace.step Action (Response F) (Raised JourneyError) α (.json arguments) f response es o ht

omit [PyFloat F] in
/-- A required prompt that is missing. -/
theorem useArguments_of_missing {script : Script F} {key : Str} {prompt : Data F}
    (message : String) (h : prompt.isMissing = true) :
    useArguments script key prompt message = .error (.own ⟨lit message⟩) := by
  simp [useArguments, requireText, require, h, journeyError]

/-- The approval of the sample. -/
def sampleReviewed : Reviewed F :=
  ⟨textObject [("proposal_id", "p"), ("proposal_hash", "h")], lit "p", sampleInspection,
    sampleDiff, sampleReceipt, lit "r", lit "d", sampleRevision, sampleHead⟩

/-- The events of the approval of the sample. -/
def approvalEvents (teach : List Str) : List (Event F) :=
  [⟨.json teach, some sampleTaught⟩,
    ⟨.json [lit "cognition", lit "inspect", lit "p"], some sampleInspection⟩,
    ⟨.json [lit "cognition", lit "diff", lit "p"], some sampleDiff⟩,
    ⟨.json (reviewArguments (lit "p")), some [(lit "review_receipt", .dict sampleReceipt)]⟩,
    ⟨.json [lit "cognition", lit "revision", lit "r"], some sampleRevision⟩,
    ⟨.json [lit "cognition", lit "head", lit "d"], some sampleHead⟩]

omit [PyFloat F] in
/-- The sample runner approves every proposal that can be taught. -/
theorem approveProposal_trace {script : Script F} {scenario : Object F} {sourceTaskId key : Str}
    {teach : List Str} (h : teachArguments script scenario sourceTaskId key = .ok teach) :
    Trace (approveProposal script scenario sourceTaskId key) (approvalEvents teach)
      (.returned sampleReviewed) := by
  have hproposal : taughtProposal script (sampleTaught (F := F)) =
      .ok (textObject [("proposal_id", "p"), ("proposal_hash", "h")], lit "p") :=
    taughtProposal_eq_ok.mpr (by simp [sampleTaught, textObject, Data.isMissing, Data.toStr])
  have hpending : checkPending script (sampleInspection (F := F)) sampleDiff = .ok () :=
    checkPending_eq_ok.mpr (by simp [sampleInspection, sampleDiff, Data.truthy])
  have happroved : approvedReceipt script
      [(lit "review_receipt", Data.dict (sampleReceipt (F := F)))] =
      .ok (sampleReceipt, lit "r", lit "d") :=
    approvedReceipt_eq_ok.mpr (by simp [sampleReceipt, textObject, Data.isMissing, Data.toStr])
  have hactive : checkActive (sampleRevision (F := F)) sampleHead (lit "r") = .ok () :=
    checkActive_eq_ok.mpr (by simp [sampleRevision, sampleHead, textObject])
  unfold approveProposal approvalEvents
  refine .ofExcept_bind h (trace_json sampleTaught (.ofExcept_bind hproposal ?_))
  refine trace_json sampleInspection (trace_json sampleDiff (.ofExcept_bind hpending ?_))
  refine trace_json [(lit "review_receipt", .dict sampleReceipt)] (.ofExcept_bind happroved ?_)
  refine trace_json sampleRevision (trace_json sampleHead (.ofExcept_bind hactive ?_))
  exact .done sampleReviewed

omit [PyFloat F] in
/-- The answer to whether the file exists, before the rest of a run. -/
theorem trace_stateExists {α : Type} {f : Bool → Phase F α} (there : Bool)
    {es : List (Event F)} {o : Outcome (Raised JourneyError) α} (ht : Trace (f there) es o) :
    Trace (stateExists >>= f) (⟨.stateExists, some there⟩ :: es) o :=
  @Trace.step Action (Response F) (Raised JourneyError) α .stateExists f there es o ht

/-- Without the prompt, a scenario that can be taught has a late failure. -/
theorem not_prepareFailsEarly {script : Script F} {scenario : Object F}
    (hteachable : Teachable script scenario)
    (hmissing : (get scenario (lit "fresh_use_prompt")).isMissing = true) :
    ¬PrepareFailsEarly script scenario := by
  intro hearly
  obtain ⟨key, hkey, teach, hteach⟩ := hteachable
  have ht : Trace (prepare script scenario [] [])
      (⟨.stateExists, some false⟩ :: (approvalEvents teach ++ []))
      (.raised (.own ⟨lit "fresh use prompt is missing"⟩)) := by
    unfold prepare
    refine trace_stateExists false (.ofExcept_bind hkey ?_)
    refine .bind (approveProposal_trace hteach) (.bind_raised ?_)
    exact .ofExcept_error (useArguments_of_missing _ hmissing)
  have hreview : Action.json (reviewArguments (lit "p")) ∈
      commands ((⟨.stateExists, some false⟩ : Event F) :: (approvalEvents teach ++ [])) := by
    simp [commands, approvalEvents, Action.isCommand]
  exact hearly [] [] _ _ ht ⟨_, by simp [scenarioMessages], rfl⟩ _ hreview rfl

/-! ### A state file for every scenario -/

/-- A prepared receipt with the recorded hashes. -/
def restartState (scenarioHash revisionHash headHash : Str) : Object F :=
  [(lit "contract_version", .str contractVersion), (lit "head_generation", .str (lit "1")),
    (lit "head_hash", .str headHash), (lit "head_id", .str (lit "d")),
    (lit "phase", .str (lit "prepared")), (lit "revision_hash", .str revisionHash),
    (lit "revision_id", .str (lit "r")), (lit "scenario_hash", .str scenarioHash),
    (lit "stable_key", .str (lit "key"))]

/-- Its keys. -/
def restartKeys : List Str :=
  [lit "contract_version", lit "head_generation", lit "head_hash", lit "head_id", lit "phase",
    lit "revision_hash", lit "revision_id", lit "scenario_hash", lit "stable_key"]

omit [PyFloat F] in
/-- A dictionary of texts is within every limit. -/
theorem fits_texts {limits : Limits} {levels : ℕ} (hlevels : 0 < levels) {ms : Object F}
    (h : ∀ m ∈ ms, ∃ t, m.2 = .str t) : (Data.dict ms).fits limits levels = .ok () := by
  have hmembers (level : ℕ) : Data.fitsMembers limits level ms = .ok () := by
    induction ms with
    | nil => rfl
    | cons m ms ih =>
      obtain ⟨⟨t, ht⟩, hrest⟩ := List.forall_mem_cons.mp h
      obtain ⟨key, value⟩ := m
      obtain rfl : value = .str t := ht
      cases level <;> simpa [Data.fitsMembers, Data.fits] using ih hrest
  obtain ⟨level, hlevel⟩ :=
    Nat.exists_eq_succ_of_ne_zero (Nat.pos_iff_ne_zero.mp hlevels)
  rw [hlevel]
  exact hmembers level

omit [PyFloat F] in
/-- The members of a text object are texts. -/
theorem textObject_texts (members : List (String × String)) :
    ∀ m ∈ (textObject members : Object F), ∃ t, m.2 = .str t := by
  intro m hm
  obtain ⟨n, -, rfl⟩ := List.mem_map.mp hm
  exact ⟨lit n.2, rfl⟩

/-- A hash is ASCII. -/
theorem hash_encodable {script : Script F} {value : Data F} {t : Str}
    (h : hash script value = .ok t) : t.Encodable := by
  obtain ⟨_, -, h⟩ := bind_eq_ok.mp h
  obtain rfl := Except.ok.inj h
  have hdigit : ∀ digit : Fin 16, (Json.hexDigit digit).isSurrogate = false := by decide
  intro c hc
  obtain ⟨digit, -, rfl⟩ := List.mem_map.mp hc
  exact hdigit digit

/-- A dictionary of texts is printed in every layout. -/
theorem exists_dumps_texts (script : Script F) (layout : Json.Layout) {ms : Object F}
    (h : ∀ m ∈ ms, ∃ t, m.2 = .str t) :
    ∃ t, Data.dumps script.py layout (.dict ms) = .ok t := by
  have hlevels : 0 < script.py.limits.levels layout := by
    unfold Limits.levels
    split
    · exact script.py.limits.indented_pos
    · exact script.py.limits.nesting_pos
  exact ⟨_, bind_eq_ok.mpr ⟨(), fits_texts hlevels h, rfl⟩⟩

/-- A dictionary of texts has a hash. -/
theorem exists_hash_texts (script : Script F) {ms : Object F} (h : ∀ m ∈ ms, ∃ t, m.2 = .str t) :
    ∃ t, hash script (.dict ms) = .ok t := by
  obtain ⟨encoded, hencoded⟩ := exists_dumps_texts script (Json.Layout.compact true) h
  exact ⟨_, bind_eq_ok.mpr ⟨encoded, ofBuiltin_eq_ok.mpr hencoded, rfl⟩⟩

omit [PyFloat F] in
/-- Members whose keys and values are texts without surrogates are read back unchanged. -/
theorem get_reloadedDict_texts {ms : Object F} (hnodup : (ms.map Prod.fst).Nodup)
    (hkeys : ∀ m ∈ ms, m.1.Encodable) (hvalues : ∀ m ∈ ms, ∃ t : Str, t.Encodable ∧ m.2 = .str t)
    (key : Str) : hasKey (Data.reloadedDict true ms) key = hasKey ms key ∧
      get (Data.reloadedDict true ms) key = get ms key := by
  have hfixed : ∀ m ∈ ms, Json.reread true m.1 = m.1 := fun m hm =>
    Json.reread_of_noSplitPair (Json.noSplitPair_of_encodable (hkeys m hm))
  obtain ⟨hthere, hget⟩ := get_reloadedDict hnodup hfixed key
  refine ⟨hthere, hget.trans ?_⟩
  by_cases hkey : hasKey ms key = true
  · obtain ⟨m, hm, rfl⟩ := List.mem_map.mp (of_decide_eq_true hkey)
    obtain ⟨t, ht, hvalue⟩ := hvalues m hm
    rw [get_eq_of_mem hnodup (show (m.1, m.2) ∈ ms from hm), hvalue, Data.reloaded,
      Json.reread_of_noSplitPair (Json.noSplitPair_of_encodable ht)]
  · rw [get_of_not_hasKey (by simpa using hkey)]
    rfl

/-- What was written to a receipt file is read back. -/
theorem receiptText_loads {script : Script F} {receipt : Object F} {content : Str}
    (h : receiptText script receipt = .ok content) :
    jsonLoads script.py.limits content = .ok (.dict (Data.reloadedDict true receipt)) := by
  obtain ⟨printed, hprinted, rfl⟩ := receiptText_eq_ok.mp h
  rw [jsonLoads_dumps hprinted (by unfold Json.Ws; decide), ← reloaded_dict]
  rfl

/-- The receipt can be written to a file, and its members are read back. -/
theorem restartState_loads (script : Script F) (path : Str)
    {scenarioHash revisionHash headHash : Str} (hscenario : scenarioHash.Encodable)
    (hrevision : revisionHash.Encodable) (hhead : headHash.Encodable) :
    ∃ content state, loadObject script path (.ok content) = .ok state ∧
      ∀ key, hasKey state key =
          hasKey (restartState scenarioHash revisionHash headHash : Object F) key ∧
        get state key = get (restartState scenarioHash revisionHash headHash) key := by
  have hliteral : ∀ t ∈ [contractVersion, lit "1", lit "d", lit "prepared", lit "r", lit "key"],
      t.Encodable := by decide +kernel
  have hvalues : ∀ m ∈ (restartState scenarioHash revisionHash headHash : Object F),
      ∃ t : Str, t.Encodable ∧ m.2 = .str t := by
    simp only [List.forall_mem_cons] at hliteral
    simp [restartState, hliteral, hscenario, hrevision, hhead]
  obtain ⟨printed, hprinted⟩ : ∃ printed, Data.dumps script.py Json.Layout.indented
      (.dict (restartState scenarioHash revisionHash headHash : Object F)) = .ok printed :=
    exists_dumps_texts script _ fun m hm => (hvalues m hm).imp fun _ h => h.2
  have hkeys : (restartState scenarioHash revisionHash headHash : Object F).map Prod.fst =
      restartKeys := rfl
  refine ⟨_, _, loadObject_eq_ok.mpr ⟨_, rfl,
    receiptText_loads (receiptText_eq_ok.mpr ⟨printed, hprinted, rfl⟩)⟩, fun key => ?_⟩
  refine get_reloadedDict_texts ?_ (fun m hm => ?_) hvalues key
  · rw [hkeys]
    decide +kernel
  · have hencodable : ∀ key ∈ restartKeys, key.Encodable := by decide +kernel
    exact hencodable m.1 (hkeys ▸ List.mem_map_of_mem hm)

/-! ### A late failure of resuming -/

/-- The attribution of the sample task. -/
def sampleAttribution : Attribution F :=
  ⟨.str (lit "t"), .str (lit "s"), .str (lit "u"), [lit "r"], .str (lit "m")⟩

omit [PyFloat F] in
/-- The items of the revision text in the sample receipts. -/
theorem sample_selectedItems : selectedItems (sampleSelection : Object F) = .ok [.str (lit "r")] ∧
    selectedItems (sampleUse : Object F) = .ok [.str (lit "r")] := ⟨rfl, rfl⟩

omit [PyFloat F] in
/-- The sample task is attributed. -/
theorem useAttribution_sampleTask (script : Script F) :
    useAttribution script sampleTask (lit "r") = .ok sampleAttribution := by
  have hattributed : attributedUse script sampleTask sampleSelection sampleUse (lit "r") =
      .ok (sampleAttribution : Attribution F) := by
    obtain ⟨hselection, huse⟩ := sample_selectedItems (F := F)
    simp only [attributedUse, hselection, huse, ok_bind]
    simp [texts, text, ofBuiltin, Data.toStr, sampleUse, textObject, sampleTask, require,
      sampleSelection, Data.isMissing, Data.truthy, Data.eqStr, sampleAttribution]
  simpa [useAttribution, sampleTask, require, Data.isMissing, Data.eqStr, sampleSelection,
    sampleUse, textObject] using hattributed

/-- The retrieved receipts of the sample agree with the attribution. -/
theorem exists_sampleHashes (script : Script F) :
    ∃ hashes, inspectedHashes script sampleAttribution sampleSelection sampleUse = .ok hashes := by
  obtain ⟨hselection, huse⟩ := sample_selectedItems (F := F)
  have hmaterial : (get (sampleUse : Object F) (lit "material_use_hash")).eq script.py
      (.str (lit "m")) = true := by
    simp [sampleUse, textObject, Data.eq]
  obtain ⟨selectionHash, hselectionHash⟩ : ∃ t, hash script (.dict sampleSelection) = .ok t :=
    exists_hash_texts script (textObject_texts _)
  obtain ⟨useHash, huseHash⟩ : ∃ t, hash script (.dict sampleUse) = .ok t :=
    exists_hash_texts script (textObject_texts _)
  refine ⟨(selectionHash, useHash), ?_⟩
  simp [inspectedHashes, checkSelected, hselection, huse, hselectionHash, huseHash,
    sampleAttribution, Data.eqItems, Data.floatItems, Data.eq, hmaterial]

/-- The sample runner completes a use with every prompt. -/
theorem useAndInspect_trace (script : Script F) (key : Str) {message : String} {prompt : Str}
    {value : Data F} (h : requireText script value message = .ok prompt) :
    ∃ x, Trace (useAndInspect script key value message (lit "r"))
      [⟨.json [lit "cognition", lit "use", key, prompt], some sampleTask⟩,
        ⟨.json [lit "cognition", lit "selection", lit "s"], some sampleSelection⟩,
        ⟨.json [lit "cognition", lit "use-receipt", lit "u"], some sampleUse⟩] (.returned x) := by
  have harguments : useArguments script key value message =
      .ok [lit "cognition", lit "use", key, prompt] :=
    useArguments_eq_ok.mpr ⟨prompt, requireText_eq_ok.mp h, rfl⟩
  obtain ⟨hashes, hhashes⟩ := exists_sampleHashes script
  refine ⟨inspectedUse sampleAttribution hashes, ?_⟩
  unfold useAndInspect
  refine .ofExcept_bind harguments (trace_json sampleTask ?_)
  refine .ofExcept_bind (useAttribution_sampleTask script) ?_
  have hinspect : Trace (inspectUse script (sampleAttribution : Attribution F))
      [⟨.json [lit "cognition", lit "selection", lit "s"], some sampleSelection⟩,
        ⟨.json [lit "cognition", lit "use-receipt", lit "u"], some sampleUse⟩]
      (.returned hashes) := by
    unfold inspectUse
    refine .ofExcept_bind (show _ = Except.ok (lit "s") from rfl) (trace_json sampleSelection ?_)
    refine .ofExcept_bind (show _ = Except.ok (lit "u") from rfl) (trace_json sampleUse ?_)
    rw [hhashes]
    exact .done hashes
  exact .bind hinspect (.done _)

/-- The commands of the sample runner up to the retirement. -/
def retirement (rationale : Str) : List Str :=
  [lit "cognition", lit "lifecycle", lit "d", lit "--review-request-id",
    lit "market-gc1-retire-v1", lit "--action", lit "retire", lit "--rationale", rationale,
    lit "--expected-generation", lit "1"]

omit [PyFloat F] in
/-- The retirement is issued and then the prompt of the refused use is missing. -/
theorem retireHead_trace {script : Script F} {scenario state : Object F} {key rationale : Str}
    (harguments : retireArguments script scenario state (lit "d") = .ok (retirement rationale))
    (hmissing : (get scenario (lit "post_retirement_use_prompt")).isMissing = true) :
    Trace (retireHead script scenario state (lit "d") key)
      [⟨.json (retirement rationale), some [(lit "lifecycle_receipt", .dict sampleRetirement)]⟩,
        ⟨.json [lit "cognition", lit "head", lit "d"], some sampleRetiredHead⟩]
      (.raised (.own ⟨lit "post-retirement use prompt is missing"⟩)) := by
  have hreceipt : retiredReceipt
      [(lit "lifecycle_receipt", Data.dict (sampleRetirement (F := F)))] =
      .ok sampleRetirement :=
    retiredReceipt_eq_ok.mpr (by simp [sampleRetirement, textObject, Data.isMissing])
  have hretired : checkRetired (sampleRetiredHead (F := F)) = .ok () := by
    simp [checkRetired, sampleRetiredHead, textObject, Data.eqStr]
  unfold retireHead
  refine .ofExcept_bind harguments ?_
  refine trace_json [(lit "lifecycle_receipt", .dict sampleRetirement)] ?_
  refine .ofExcept_bind hreceipt (trace_json sampleRetiredHead (.ofExcept_bind hretired ?_))
  exact .ofExcept_error (useArguments_of_missing _ hmissing)

omit [PyFloat F] in
/-- The answer of the state file, before the rest of a run. -/
theorem trace_readState {α : Type} {f : Except BuiltinError Str → Phase F α}
    (answer : Except BuiltinError Str) {es : List (Event F)}
    {o : Outcome (Raised JourneyError) α} (ht : Trace (f answer) es o) :
    Trace (readState >>= f) (⟨.readState, some answer⟩ :: es) o :=
  @Trace.step Action (Response F) (Raised JourneyError) α .readState f answer es o ht

/-- The events of resuming with the sample runner up to the refused use. -/
def lateEvents (content prompt rationale : Str) : List (Event F) :=
  [⟨.readState, some (.ok content)⟩,
    ⟨.json [lit "cognition", lit "revision", lit "r"], some sampleRevision⟩,
    ⟨.json [lit "cognition", lit "head", lit "d"], some sampleHead⟩,
    ⟨.json [lit "cognition", lit "use", lit "key", prompt], some sampleTask⟩,
    ⟨.json [lit "cognition", lit "selection", lit "s"], some sampleSelection⟩,
    ⟨.json [lit "cognition", lit "use-receipt", lit "u"], some sampleUse⟩,
    ⟨.json (retirement rationale), some [(lit "lifecycle_receipt", .dict sampleRetirement)]⟩,
    ⟨.json [lit "cognition", lit "head", lit "d"], some sampleRetiredHead⟩]

/-- Without the prompt of the refused use, a scenario for a retirement has a late failure. -/
theorem not_resumeFailsEarly {script : Script F} {scenario : Object F}
    (hretirable : RetirableScenario script scenario)
    (hmissing : (get scenario (lit "post_retirement_use_prompt")).isMissing = true) :
    ¬ResumeFailsEarly script scenario := by
  intro hearly
  obtain ⟨⟨scenarioHash, hscenario⟩, ⟨prompt, hprompt⟩, ⟨rationale, hrationale⟩⟩ := hretirable
  obtain ⟨revisionHash, hrevision⟩ : ∃ t, hash script (.dict sampleRevision) = .ok t :=
    exists_hash_texts script (textObject_texts _)
  obtain ⟨headHash, hhead⟩ : ∃ t, hash script (.dict sampleHead) = .ok t :=
    exists_hash_texts script (textObject_texts _)
  obtain ⟨content, state, hload, hstate⟩ := restartState_loads script [] (hash_encodable hscenario)
    (hash_encodable hrevision) (hash_encodable hhead)
  have hmember (key : String) (hkey : lit key ∈ restartKeys) : hasKey state (lit key) = true := by
    rw [(hstate (lit key)).1]
    exact decide_eq_true hkey
  have hcheck : checkState script scenario state = .ok () :=
    checkState_eq_ok.mpr (by simp [(hstate _).2, restartState, hscenario])
  have hids (key : String) (t : Str) (hkey : lit key ∈ restartKeys)
      (hvalue : get (restartState scenarioHash revisionHash headHash : Object F) (lit key) =
        .str t) : stateText script state key = .ok t :=
    stateText_eq_ok.mpr ⟨hmember key hkey, by rw [(hstate (lit key)).2, hvalue]; rfl⟩
  have hunchanged : checkUnchanged script state sampleRevision sampleHead (lit "r") = .ok () := by
    have hactive : get (sampleHead : Object F) (lit "active_revision_id") = .str (lit "r") ∧
        get (sampleHead : Object F) (lit "lifecycle") = .str (lit "active") := by
      simp [sampleHead, textObject]
    exact checkUnchanged_eq_ok.mpr (by
      simp [(hstate _).2, restartState, hrevision, hhead, hactive])
  have hretire : retireArguments script scenario state (lit "d") = .ok (retirement rationale) :=
    retireArguments_eq_ok.mpr ⟨rationale, lit "1", requireText_eq_ok.mp hrationale,
      ⟨hmember "head_generation" (by simp [restartKeys]),
        by simp [(hstate _).2, restartState, Data.toStr]⟩, rfl⟩
  obtain ⟨use, huse⟩ := useAndInspect_trace script (lit "key") hprompt
  have ht : Trace (resume script scenario []) (lateEvents content prompt rationale)
      (.raised (.own ⟨lit "post-retirement use prompt is missing"⟩)) := by
    unfold resume
    refine trace_readState (.ok content) (.ofExcept_bind hload (.ofExcept_bind hcheck ?_))
    refine .ofExcept_bind (hids "revision_id" (lit "r") ?_ ?_) ?_
    · simp [restartKeys]
    · simp [restartState]
    refine .ofExcept_bind (hids "head_id" (lit "d") ?_ ?_) ?_
    · simp [restartKeys]
    · simp [restartState]
    refine .ofExcept_bind (hids "stable_key" (lit "key") ?_ ?_) ?_
    · simp [restartKeys]
    · simp [restartState]
    refine trace_json sampleRevision (trace_json sampleHead (.ofExcept_bind hunchanged ?_))
    exact .bind huse (.bind_raised (retireHead_trace hretire hmissing))
  have hissued : Action.json (retirement rationale) ∈
      commands (lateEvents (F := F) content prompt rationale) := by
    simp [commands, lateEvents, Action.isCommand]
  exact hearly [] _ _ ht ⟨_, by simp [scenarioMessages], rfl⟩ _ hissued rfl

/-! ### Exactly the scenarios without late failures -/

/-- A field that is there and has a text. -/
def Supplied (script : Script F) (scenario : Object F) (field : String) : Prop :=
  (get scenario (lit field)).isMissing = false ∧
    ∃ t, (get scenario (lit field)).toStr script.py = .ok t

omit [PyFloat F] in
/-- Teaching needs five fields. -/
theorem teachable_iff {script : Script F} {scenario : Object F} :
    Teachable script scenario ↔
      ∀ field ∈ ["stable_key", "name", "description", "intent", "base_recipe"],
        Supplied script scenario field := by
  simp only [Teachable, stableKey, requireText_eq_ok, teachArguments_eq_ok, List.forall_mem_cons,
    Supplied]
  constructor
  · rintro ⟨key, ⟨hkey, hkeyText⟩, _, name, description, intent, recipe, ⟨hname, hnameText⟩,
      ⟨hdescription, hdescriptionText⟩, ⟨hintent, hintentText⟩, ⟨hrecipe, hrecipeText⟩, -⟩
    exact ⟨⟨hkey, key, hkeyText⟩, ⟨hname, name, hnameText⟩,
      ⟨hdescription, description, hdescriptionText⟩, ⟨hintent, intent, hintentText⟩,
      ⟨hrecipe, recipe, hrecipeText⟩, by simp⟩
  · rintro ⟨⟨hkey, key, hkeyText⟩, ⟨hname, name, hnameText⟩,
      ⟨hdescription, description, hdescriptionText⟩, ⟨hintent, intent, hintentText⟩,
      ⟨hrecipe, recipe, hrecipeText⟩, -⟩
    exact ⟨key, ⟨hkey, hkeyText⟩, _, name, description, intent, recipe, ⟨hname, hnameText⟩,
      ⟨hdescription, hdescriptionText⟩, ⟨hintent, hintentText⟩, ⟨hrecipe, hrecipeText⟩, rfl⟩

/-- A retirement needs two fields, and the scenario that the receipt records. -/
theorem retirableScenario_iff {script : Script F} {scenario : Object F} :
    RetirableScenario script scenario ↔
      (∃ t, hash script (.dict scenario) = .ok t) ∧
      ∀ field ∈ ["restart_use_prompt", "retire_rationale"], Supplied script scenario field := by
  simp only [RetirableScenario, requireText_eq_ok, List.forall_mem_cons, Supplied]
  constructor
  · rintro ⟨hhash, ⟨prompt, hprompt, hpromptText⟩, ⟨rationale, hrationale, hrationaleText⟩⟩
    exact ⟨hhash, ⟨hprompt, prompt, hpromptText⟩, ⟨hrationale, rationale, hrationaleText⟩,
      by simp⟩
  · rintro ⟨hhash, ⟨hprompt, prompt, hpromptText⟩, ⟨hrationale, rationale, hrationaleText⟩, -⟩
    exact ⟨hhash, ⟨prompt, hprompt, hpromptText⟩, ⟨rationale, hrationale, hrationaleText⟩⟩

/-- A phase fails early exactly with the scenarios that have its late prompt, or that do
not get that far because they lack a field of an earlier command. -/
theorem failsEarly_iff (script : Script F) (scenario : Object F) :
    (PrepareFailsEarly script scenario ↔
      (get scenario (lit "fresh_use_prompt")).isMissing = false ∨
      ∃ field ∈ ["stable_key", "name", "description", "intent", "base_recipe"],
        ¬Supplied script scenario field) ∧
    (ResumeFailsEarly script scenario ↔
      (get scenario (lit "post_retirement_use_prompt")).isMissing = false ∨
      (¬∃ t, hash script (.dict scenario) = .ok t) ∨
      ∃ field ∈ ["restart_use_prompt", "retire_rationale"],
        ¬Supplied script scenario field) := by
  have hfields (fields : List String) : (¬∀ field ∈ fields, Supplied script scenario field) ↔
      ∃ field ∈ fields, ¬Supplied script scenario field := by
    simp only [not_forall, exists_prop]
  constructor
  · rw [← hfields, ← teachable_iff]
    refine ⟨fun hearly => ?_, prepareFailsEarly_of⟩
    by_contra hlate
    obtain ⟨hmissing, hteachable⟩ := not_or.mp hlate
    exact not_prepareFailsEarly (not_not.mp hteachable) (by simpa using hmissing) hearly
  · rw [← hfields, ← not_and_or, ← retirableScenario_iff]
    refine ⟨fun hearly => ?_, resumeFailsEarly_of⟩
    by_contra hlate
    obtain ⟨hmissing, hretirable⟩ := not_or.mp hlate
    exact not_resumeFailsEarly (not_not.mp hretirable) (by simpa using hmissing) hearly

/-- A scenario without the two late prompts. -/
def lateScenario : Object Unit := textObject
  [("stable_key", "key"), ("name", "name"), ("description", "text"), ("intent", "aim"),
    ("base_recipe", "recipe"), ("restart_use_prompt", "again"), ("retire_rationale", "done")]

/-- It fails after the review, and after the retirement. -/
theorem lateScenario_fails_late :
    ¬PrepareFailsEarly sampleScript lateScenario ∧ ¬ResumeFailsEarly sampleScript lateScenario := by
  constructor
  · apply not_prepareFailsEarly
    · apply teachable_iff.mpr
      simp [Supplied, lateScenario, textObject, Data.isMissing, Data.toStr]
    · simp [lateScenario, textObject, Data.isMissing]
  · apply not_resumeFailsEarly
    · apply retirableScenario_iff.mpr
      refine ⟨exists_hash_texts sampleScript (textObject_texts _), ?_⟩
      simp [Supplied, lateScenario, textObject, Data.isMissing, Data.toStr]
    · simp [lateScenario, textObject, Data.isMissing]

end MarketIntelligence.Journey
