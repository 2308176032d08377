import MarketIntelligence.Journey.Contracts

/-!
# The phases keep their contracts

One walk through each phase, computation by computation. The parts that the phases share
are walked through once, for any contract that allows their commands.
-/

namespace MarketIntelligence.Journey

open Python Interaction

variable {F : Type} [PyFloat F]

/-! ### The walk through a use -/

/-- The commands of a use and of its inspection. -/
def useCommands (script : Script F) (key : Str) (prompt : Data F) (task : Object F) :
    List Scripted :=
  [do return .json [lit "cognition", lit "use", key, ← prompt.toStr script.py],
    do return .json [lit "cognition", lit "selection",
      ← argument script task ["cognition_selection_receipt", "selection_receipt_id"]],
    do return .json [lit "cognition", lit "use-receipt",
      ← argument script task ["cognition_use_receipt", "use_receipt_id"]]]

/-- No retirement among some commands. -/
def NoRetirement (issued : List Action) : Prop :=
  ∀ op ∈ issued, op.verb ≠ some (lit "lifecycle")

/-- There is none among no commands. -/
@[simp] theorem noRetirement_nil : NoRetirement [] := by simp [NoRetirement]

/-- Whether a command retires is decided by its second word. -/
@[simp] theorem noRetirement_cons {word : Str} {verb : String} {rest : List Str}
    {issued : List Action} : NoRetirement (.json (word :: lit verb :: rest) :: issued) ↔
      verb ≠ "lifecycle" ∧ NoRetirement issued := by
  simp [NoRetirement, Action.verb]

/-- A use is attributed and inspected by three commands. The continuation knows the
attribution, and a missing field on the way can only be the prompt. -/
theorem useAndInspect_meets {β : Type} {C : Contract Action (Response F) (Raised JourneyError) β}
    {Q : List (Event F) → Data F → Prop} {script : Script F} {key revisionId : Str}
    {prompt : Data F} {message : String} {past : List (Event F)} {first : Event F}
    {issued : List Action} {received : List (Object F)} (h : Progress past first issued received)
    (hallows : ∀ {past'} later task selection use {arguments},
      Progress past' first (issued ++ later)
        (received ++ [task, selection, use].take later.length) →
      (later ++ [Action.json arguments]).map .ok <+: useCommands script key prompt task →
      NoRetirement [.json arguments] → C.allows past' (.json arguments))
    (hraises : ∀ {past' later received' e}, Progress past' first (issued ++ later) received' →
      NoRetirement later → (MissingField e → prompt.isMissing = true) → C.raises past' e)
    (hnext : ∀ {past' later task selection use a s u x},
      Progress past' first (issued ++ later) (received ++ [task, selection, use]) →
      later.map .ok = useCommands script key prompt task → NoRetirement later →
      (∃ t, requireText script prompt message = .ok t) →
      Attributed script task revisionId a s u → Inspected script a selection use → Q past' x) :
    (useAndInspect script key prompt message revisionId).Meets (C.returning Q) past := by
  have hother {past' later received' e} {α : Type} {x : Checked α}
      (h : Progress past' first (issued ++ later) received') (hlater : NoRetirement later)
      (hx : NeedsNoField x) (he : x = .error e) : C.raises past' e :=
    hraises h hlater fun hfield => absurd hfield (hx e he)
  have hstart : Progress past first (issued ++ []) (received ++ []) := by simpa using h
  unfold useAndInspect
  refine meets_ofExcept_bind ?_ fun e he => hraises hstart noRetirement_nil
    (useArguments_missingField he)
  intro arguments harguments
  obtain ⟨t, ⟨hthere, ht⟩, rfl⟩ := useArguments_eq_ok.mp harguments
  have hprompt : ∃ t, requireText script prompt message = .ok t :=
    ⟨t, requireText_eq_ok.mpr ⟨hthere, ht⟩⟩
  refine meets_json_bind hstart (hallows [] [] [] [] hstart ?_ ?_) fun task _ htask => ?_
  · simp [useCommands, ht]
  · simp
  simp only [List.append_assoc, List.nil_append] at htask
  refine meets_ofExcept_bind ?_ fun e => hother htask (by simp)
    (needsNoField_useAttribution script task revisionId)
  intro a ha
  obtain ⟨s, u, hattributed⟩ := useAttribution_eq_ok ha
  rw [meets_bind]
  unfold inspectUse
  refine meets_ofExcept_bind ?_ fun e => hother htask (by simp)
    needsNoField_text
  intro selectionId hselectionId
  have hselectionArgument : argument script task
      ["cognition_selection_receipt", "selection_receipt_id"] = .ok selectionId := by
    simpa [argument, memberAt, hattributed.selectionReceipt, hattributed.selectionReceiptId]
      using hselectionId
  refine meets_json_bind htask (hallows [_] task [] [] htask ?_ ?_)
    fun selection _ hselection => ?_
  · simp [useCommands, ht, hselectionArgument]
  · simp
  simp only [List.append_assoc, List.nil_append, List.cons_append] at hselection
  refine meets_ofExcept_bind ?_ fun e => hother hselection (by simp)
    needsNoField_text
  intro useId huseId
  have huseArgument : argument script task ["cognition_use_receipt", "use_receipt_id"] =
      .ok useId := by
    simpa [argument, memberAt, hattributed.useReceipt, hattributed.useReceiptId] using huseId
  refine meets_json_bind hselection (hallows [_, _] task selection [] hselection ?_ ?_)
    fun use _ huse => ?_
  · simp [useCommands, ht, hselectionArgument, huseArgument]
  · simp
  simp only [List.append_assoc, List.nil_append, List.cons_append] at huse
  refine meets_ofExcept.mpr ⟨fun hashes hhashes => ?_,
    fun e => hother huse (by simp)
      (needsNoField_inspectedHashes script a selection use)⟩
  refine meets_pure.mpr (hnext huse ?_ ?_ hprompt hattributed (inspectedHashes_eq_ok hhashes))
  · simp [useCommands, ht, hselectionArgument, huseArgument]
  · simp

/-! ### The walk through `prepare` -/

/-- Two parts of a script. -/
theorem prefix_of_take {α : Type} {l a b : List α} (n : ℕ) (ha : a = l.take n)
    (hb : b <+: l.drop n) : a ++ b <+: l := by
  rw [ha]
  exact (List.prefix_append_right_inj _).mpr hb |>.trans (by rw [List.take_append_drop])

/-- A command of `prepare` is allowed when it is the next one of the script, behind its
gates. -/
theorem prepareAllows_json {script : Script F} {scenario : Object F} {sourceTaskId : Str}
    {past : List (Event F)} {issued : List Action} {received : List (Object F)}
    (h : Progress past ⟨.stateExists, some false⟩ issued received) {arguments : List Str}
    (r : PrepareReplies F) (hreplies : received = r.toList.take issued.length)
    (hscript : (issued ++ [Action.json arguments]).map .ok <+:
      prepareScript script scenario sourceTaskId r)
    (hreview : arguments[1]? = some (lit "review") → PendingReview script r)
    (huse : arguments[1]? = some (lit "use") → ∃ revisionId, ActiveRevision script r revisionId) :
    PrepareAllows script scenario sourceTaskId past (.json arguments) :=
  ⟨.inr h.first, fun _ => ⟨r, by rw [h.replies, h.commands, hreplies], h.commands ▸ hscript,
    hreview, huse⟩,
    h.quiet, fun hwrites => by cases hwrites⟩

omit [PyFloat F] in
/-- Before the review, a failure meets the contract. -/
theorem prepareRaises_before {script : Script F} {scenario : Object F}
    {past : List (Event F)} {first : Event F} {issued : List Action} {received : List (Object F)}
    (h : Progress past first issued received)
    (hnot : ∀ op ∈ issued, op.verb ≠ some (lit "review")) (e : Raised JourneyError) :
    PrepareRaises script scenario past e :=
  ⟨h.quiet, fun _ ⟨op, hop, hverb⟩ => absurd hverb (hnot op (h.commands ▸ hop))⟩

omit [PyFloat F] in
/-- A failure that is not about a scenario field meets the contract. -/
theorem prepareRaises_other {script : Script F} {scenario : Object F}
    {past : List (Event F)} {first : Event F} {issued : List Action} {received : List (Object F)}
    (h : Progress past first issued received) {α : Type} {x : Checked α} (hx : NeedsNoField x)
    (e : Raised JourneyError) (he : x = .error e) :
    PrepareRaises script scenario past e :=
  ⟨h.quiet, fun hfield => absurd hfield (hx e he)⟩

/-- What holds when a proposal was approved: the first six commands of the script were
issued, and the approved revision is active. -/
structure Approved (script : Script F) (scenario : Object F) (sourceTaskId : Str)
    (past : List (Event F)) (reviewed : Reviewed F) (issued : List Action)
    (r : PrepareReplies F) : Prop where
  progress : Progress past ⟨.stateExists, some false⟩ issued
    [r.taught, r.inspection, r.semanticDiff, r.review, r.revision, r.head]
  follows : ∀ task selection use, issued.map .ok = (prepareScript script scenario sourceTaskId
    { r with task := task, selection := selection, use := use }).take 6
  teachable : Teachable script scenario
  pending : PendingReview script r
  active : ActiveRevision script r reviewed.revisionId

/-- The walk from teaching to the approved revision. -/
theorem approveProposal_meets {script : Script F} {scenario : Object F} {sourceTaskId key : Str}
    {Q : List (Event F) → Reviewed F → Prop} (hkey : stableKey script scenario = .ok key)
    (hnext : ∀ {past reviewed issued r},
      Approved script scenario sourceTaskId past reviewed issued r → Q past reviewed) :
    (approveProposal script scenario sourceTaskId key).Meets
      ((prepareContract script scenario sourceTaskId).returning Q)
      [⟨.stateExists, some false⟩] := by
  have hstart : Progress (F := F) [⟨.stateExists, some false⟩] _ [] [] := .start rfl rfl
  unfold approveProposal
  refine meets_ofExcept_bind ?_ fun e _ => prepareRaises_before hstart (by simp) e
  intro teach hteach
  have hkeyText := (requireText_eq_ok.mp hkey).2
  obtain ⟨name, description, intent, recipe, hname, hdescription, hintent, hrecipe, rfl⟩ :=
    teachArguments_eq_ok.mp hteach
  have hteachable : Teachable script scenario :=
    ⟨key, hkey, _, teachArguments_eq_ok.mpr
      ⟨name, description, intent, recipe, hname, hdescription, hintent, hrecipe, rfl⟩⟩
  refine meets_json_bind hstart (prepareAllows_json hstart {} ?_ ?_ ?_ ?_)
    fun taught _ htaught => ?_
  · simp
  · simp [prepareScript, argument, memberAt, hkeyText, hname, hdescription, hintent, hrecipe]
  · simp
  · simp
  refine meets_ofExcept_bind ?_ fun e _ => prepareRaises_before htaught (by simp [Action.verb]) e
  rintro ⟨proposal, proposalId⟩ hproposal
  obtain ⟨hselectable, ⟨-, hdict⟩, -, hproposalId⟩ := taughtProposal_eq_ok.mp hproposal
  refine meets_json_bind htaught (prepareAllows_json htaught { taught } ?_ ?_ ?_ ?_)
    fun inspection _ hinspected => ?_
  · simp [PrepareReplies.toList]
  · simp [prepareScript, argument, memberAt, hkeyText, hname, hdescription, hintent, hrecipe,
      hdict, hproposalId]
  · simp
  · simp
  refine meets_json_bind hinspected
    (prepareAllows_json hinspected { taught, inspection } ?_ ?_ ?_ ?_)
    fun semanticDiff _ hdiffed => ?_
  · simp [PrepareReplies.toList]
  · simp [prepareScript, argument, memberAt, hkeyText, hname, hdescription, hintent, hrecipe,
      hdict, hproposalId]
  · simp
  · simp
  refine meets_ofExcept_bind ?_ fun e _ => prepareRaises_before hdiffed (by simp [Action.verb]) e
  intro _ hpending
  obtain ⟨hchanges, hstill⟩ := checkPending_eq_ok.mp hpending
  refine meets_json_bind hdiffed
    (prepareAllows_json hdiffed { taught, inspection, semanticDiff } ?_ ?_ ?_ ?_)
    fun review _ hreviewed => ?_
  · simp [PrepareReplies.toList]
  · simp [prepareScript, argument, memberAt, hkeyText, hname, hdescription, hintent, hrecipe,
      hdict, hproposalId]
  · exact fun _ => ⟨hselectable, hstill, hchanges⟩
  · simp [reviewArguments]
  refine meets_ofExcept_bind ?_
    (prepareRaises_other hreviewed (needsNoField_approvedReceipt script review))
  rintro ⟨receipt, revisionId, headId⟩ happroved
  obtain ⟨⟨-, hreceipt⟩, hdisposition, ⟨-, hrevisionId⟩, -, hheadId⟩ :=
    approvedReceipt_eq_ok.mp happroved
  refine meets_json_bind hreviewed
    (prepareAllows_json hreviewed { taught, inspection, semanticDiff, review } ?_ ?_ ?_ ?_)
    fun revision _ hrevision => ?_
  · simp [PrepareReplies.toList]
  · simp [prepareScript, argument, memberAt, hkeyText, hname, hdescription, hintent, hrecipe,
      hdict, hproposalId, hreceipt, hrevisionId]
  · simp
  · simp
  refine meets_json_bind hrevision
    (prepareAllows_json hrevision { taught, inspection, semanticDiff, review, revision } ?_ ?_ ?_
      ?_) fun head _ hhead => ?_
  · simp [PrepareReplies.toList]
  · simp [prepareScript, argument, memberAt, hkeyText, hname, hdescription, hintent, hrecipe,
      hdict, hproposalId, hreceipt, hrevisionId, hheadId]
  · simp
  · simp
  refine meets_ofExcept_bind ?_
    (prepareRaises_other hhead (needsNoField_checkActive revision head revisionId))
  intro _ hactive
  obtain ⟨hfetched, hactiveOn, hlifecycle⟩ := checkActive_eq_ok.mp hactive
  refine meets_pure.mpr (hnext (r := { taught, inspection, semanticDiff, review, revision, head })
    ⟨hhead, fun task selection use => ?_, hteachable,
      ⟨hselectable, hstill, hchanges⟩, ?_⟩)
  · simp [prepareScript, argument, memberAt, hkeyText, hname, hdescription, hintent, hrecipe,
      hdict, hproposalId, hreceipt, hrevisionId, hheadId]
  · exact {
      approved := by simp [memberAt, hreceipt, hdisposition]
      identity := by simp [argument, memberAt, hreceipt, hrevisionId]
      fetched := hfetched
      head := hactiveOn
      lifecycle := hlifecycle }

/-- An access to a file is allowed to `prepare` after its first one. -/
theorem prepareAllows_access {script : Script F} {scenario : Object F}
    {sourceTaskId : Str} {past : List (Event F)} {issued : List Action}
    {received : List (Object F)} (h : Progress past ⟨.stateExists, some false⟩ issued received)
    {op : Action} (hcommand : op.isCommand = false)
    (hwrites : op.writes = true → ∃ content, op = .writeState content ∧
      Prepared script scenario sourceTaskId content) :
    PrepareAllows script scenario sourceTaskId past op :=
  ⟨.inr h.first, by simp [hcommand], h.quiet, hwrites⟩

/-- The refusal is not about a scenario field. -/
theorem not_missingField_refusing (path : Str) : ¬MissingField
    (.own ⟨lit "refusing to replace existing prepare state: " ++ path⟩) :=
  not_missingField_append (by decide +kernel) path

/-- Writing the prepared state keeps the contract. -/
theorem writeNew_meets {script : Script F} {scenario state : Object F} {sourceTaskId path : Str}
    {past : List (Event F)} {issued : List Action} {received : List (Object F)}
    (h : Progress past ⟨.stateExists, some false⟩ issued received)
    (hstate : ∀ content, receiptText script state = .ok content →
      Prepared script scenario sourceTaskId content) :
    (writeNew script path state).Meets ((prepareContract script scenario sourceTaskId).returning
      fun h _ => (prepareContract script scenario sourceTaskId).returns h state) past := by
  unfold writeNew stateExists makeParents writeState
  refine meets_ask_bind (prepareAllows_access h rfl (by simp [Action.writes])) fun there => ?_
  cases there with
  | true =>
    have hrefused := h.access (x := ⟨.stateExists, some true⟩) rfl rfl
    exact meets_fail.mpr ⟨hrefused.quiet, fun hfield =>
      absurd hfield (not_missingField_refusing path)⟩
  | false =>
    have hchecked := h.access (x := ⟨.stateExists, some false⟩) rfl rfl
    refine meets_ask_bind (prepareAllows_access hchecked rfl (by simp [Action.writes])) fun _ => ?_
    have hmade := hchecked.access (x := ⟨.makeParents, some ()⟩) rfl rfl
    refine meets_ofExcept_bind ?_
      (prepareRaises_other hmade (needsNoField_receiptText script state))
    intro content hcontent
    have hprepared := hstate content hcontent
    exact ⟨prepareAllows_access hmade rfl fun _ => ⟨content, rfl, hprepared⟩,
      fun _ => ⟨_, content, rfl, hmade.quiet, hprepared⟩⟩

/-- `prepare` keeps its contract. -/
theorem prepare_meets (script : Script F) (scenario : Object F) (sourceTaskId path : Str) :
    (prepare script scenario sourceTaskId path).Meets
      (prepareContract script scenario sourceTaskId) [] := by
  unfold prepare stateExists
  have hfirst : PrepareAllows script scenario sourceTaskId ([] : List (Event F)) .stateExists :=
    ⟨.inl ⟨rfl, rfl⟩, by simp [Action.isCommand], quiet_nil, by simp [Action.writes]⟩
  refine meets_ask_bind hfirst fun there => ?_
  cases there with
  | true =>
    have hrefused : Progress (F := F) [⟨.stateExists, some true⟩] _ [] [] := .start rfl rfl
    exact meets_fail.mpr (prepareRaises_before hrefused (by simp) _)
  | false =>
    have hstart : Progress (F := F) [⟨.stateExists, some false⟩] _ [] [] := .start rfl rfl
    refine meets_ofExcept_bind ?_ fun e _ => prepareRaises_before hstart (by simp) e
    intro key hkey
    have hkeyText := (requireText_eq_ok.mp hkey).2
    refine meets_bind.mpr (approveProposal_meets hkey ?_)
    intro past reviewed issued r happroved
    refine meets_bind.mpr (useAndInspect_meets happroved.progress ?_ ?_ ?_)
    · intro past' later task selection use arguments hprogress hcommands _
      refine prepareAllows_json hprogress { r with task, selection, use } ?_ ?_
        (fun _ => ⟨happroved.pending.taught, happroved.pending.inspected,
          happroved.pending.changes⟩)
        (fun _ => ⟨reviewed.revisionId, happroved.active.approved, happroved.active.identity,
          happroved.active.fetched, happroved.active.head, happroved.active.lifecycle⟩)
      · have hissued : issued.length = 6 := by
          simpa [prepareScript] using congrArg List.length (happroved.follows [] [] [])
        simp [PrepareReplies.toList, hissued, Nat.add_comm 6]
      · rw [List.append_assoc, List.map_append]
        refine prefix_of_take 6 (happroved.follows task selection use) ?_
        simpa [prepareScript, useCommands, argument, memberAt, hkeyText] using hcommands
    · intro past' later received' e hprogress _ hmissing
      exact ⟨hprogress.quiet, fun hfield _ => ⟨happroved.teachable, hmissing hfield⟩⟩
    · intro past' later task selection use a s u firstUse hprogress _ _ _ _ _
      refine meets_ofExcept_bind ?_ (prepareRaises_other hprogress
        (needsNoField_preparedState script scenario sourceTaskId key reviewed firstUse))
      intro state hstate
      exact meets_bind.mpr (writeNew_meets hprogress fun content hcontent =>
        ⟨key, reviewed, firstUse, state, hstate, hcontent⟩)

/-! ### The walk through `resume` -/

/-- Where `resume` is when it has loaded a prepared receipt of its scenario. -/
structure Resumed (script : Script F) (scenario state : Object F) (content : Str)
    (revisionId headId key : Str) : Prop where
  loads : jsonLoads script.py.limits content = .ok (.dict state)
  receipt : PreparedReceipt state
  scenario : ∃ t, hash script (.dict scenario) = .ok t ∧
    get state (lit "scenario_hash") = .str t
  revisionId : argument script state ["revision_id"] = .ok revisionId
  headId : argument script state ["head_id"] = .ok headId
  key : argument script state ["stable_key"] = .ok key

/-- A command of `resume` is allowed when it is the next one of the script, behind its
gate. -/
theorem resumeAllows_command {script : Script F} {scenario state : Object F}
    {content revisionId headId key : Str} {past : List (Event F)} {issued : List Action}
    {received : List (Object F)}
    (hresumed : Resumed script scenario state content revisionId headId key)
    (h : Progress past ⟨.readState, some (.ok content)⟩ issued received) {op : Action}
    (hcommand : op.isCommand = true) (r : ResumeReplies F)
    (hreplies : received = r.toList.take issued.length)
    (hscript : (issued ++ [op]).map .ok <+: resumeScript script scenario state r)
    (hretire : op.verb = some (lit "lifecycle") → Retirable script scenario state r) :
    ResumeAllows script scenario past op :=
  have hloaded : Loaded script past state := ⟨content, h.first, hresumed.loads⟩
  .inr ⟨state, hloaded, hresumed.receipt, .inl ⟨hcommand, h.quiet, state, hloaded, r,
    by rw [h.replies, h.commands, hreplies], h.commands ▸ hscript, hretire⟩⟩

/-- Before the retirement, a failure meets the contract. -/
theorem resumeRaises_before {script : Script F} {scenario : Object F}
    {past : List (Event F)} {first : Event F} {issued : List Action} {received : List (Object F)}
    (h : Progress past first issued received) (hnot : NoRetirement issued)
    (e : Raised JourneyError) : ResumeRaises script scenario past e :=
  ⟨h.quiet, fun _ ⟨op, hop, hverb⟩ => absurd hverb (hnot op (h.commands ▸ hop))⟩

/-- A failure that is not about a scenario field meets the contract. -/
theorem resumeRaises_other {script : Script F} {scenario : Object F} {past : List (Event F)}
    {first : Event F} {issued : List Action} {received : List (Object F)}
    (h : Progress past first issued received) {α : Type} {x : Checked α} (hx : NeedsNoField x)
    (e : Raised JourneyError) (he : x = .error e) : ResumeRaises script scenario past e :=
  ⟨h.quiet, fun hfield => absurd hfield (hx e he)⟩

/-- The walk from the retirement to the refused use. -/
theorem retireHead_meets {script : Script F} {scenario state : Object F}
    {content revisionId headId key : Str}
    {Q : List (Event F) → Object F × Object F × Str → Prop} {past : List (Event F)}
    {issued : List Action} {r : ResumeReplies F}
    (hresumed : Resumed script scenario state content revisionId headId key)
    (h : Progress past ⟨.readState, some (.ok content)⟩ issued
      [r.revision, r.head, r.task, r.selection, r.use])
    (hfollows : ∀ lifecycle retiredHead, issued.map .ok = (resumeScript script scenario state
      { r with lifecycle := lifecycle, retiredHead := retiredHead }).take 5)
    (hretirable : Retirable script scenario state r)
    (hprompt : ∃ t, requireText script (get scenario (lit "restart_use_prompt"))
      "restart use prompt is missing" = .ok t)
    (hbefore : NoRetirement issued)
    (hnext : ∀ {past' issued' received'} x,
      Progress past' ⟨.readState, some (.ok content)⟩ issued' received' → Q past' x) :
    (retireHead script scenario state headId key).Meets
      ((resumeContract script scenario).returning Q) past := by
  have hissued : issued.length = 5 := by
    simpa [resumeScript] using congrArg List.length (hfollows [] [])
  unfold retireHead
  refine meets_ofExcept_bind ?_ fun e _ => resumeRaises_before h hbefore e
  intro arguments harguments
  obtain ⟨rationale, generation, hrationale, ⟨-, hgeneration⟩, rfl⟩ :=
    retireArguments_eq_ok.mp harguments
  have hscenario : RetirableScenario script scenario :=
    ⟨hresumed.scenario.imp fun _ ht => ht.1, hprompt, rationale, requireText_eq_ok.mpr hrationale⟩
  have hargument : argument script scenario ["retire_rationale"] = .ok rationale := hrationale.2
  have hgenerationArgument : argument script state ["head_generation"] = .ok generation :=
    hgeneration
  refine meets_json_bind h (resumeAllows_command hresumed h rfl r ?_ ?_ fun _ => hretirable)
    fun lifecycle _ hlifecycle => ?_
  · simp [ResumeReplies.toList, hissued]
  · rw [List.map_append]
    refine prefix_of_take 5 (hfollows r.lifecycle r.retiredHead) ?_
    simp [resumeScript, hresumed.headId, hargument, hgenerationArgument]
  refine meets_ofExcept_bind ?_
    (resumeRaises_other hlifecycle (needsNoField_retiredReceipt lifecycle))
  intro receipt _
  refine meets_json_bind hlifecycle (resumeAllows_command hresumed hlifecycle rfl
    { r with lifecycle } ?_ ?_ ?_) fun retiredHead _ hretired => ?_
  · simp [ResumeReplies.toList, hissued]
  · rw [List.append_assoc, List.map_append]
    refine prefix_of_take 5 (hfollows lifecycle r.retiredHead) ?_
    simp [resumeScript, hresumed.headId, hargument, hgenerationArgument]
  · simp [Action.verb]
  refine meets_ofExcept_bind ?_
    (resumeRaises_other hretired (needsNoField_checkRetired retiredHead))
  intro _ _
  refine meets_ofExcept_bind ?_ fun e he => ⟨hretired.quiet, fun hfield _ =>
    ⟨hscenario, useArguments_missingField he hfield⟩⟩
  intro refused hrefused
  obtain ⟨t, ⟨-, ht⟩, rfl⟩ := useArguments_eq_ok.mp hrefused
  have htArgument : argument script scenario ["post_retirement_use_prompt"] = .ok t := ht
  refine meets_failure_bind hretired (resumeAllows_command hresumed hretired rfl
    { r with lifecycle, retiredHead } ?_ ?_ ?_) fun refusal _ hfailed => ?_
  · simp [ResumeReplies.toList, hissued]
  · rw [List.append_assoc, List.append_assoc, List.map_append]
    refine prefix_of_take 5 (hfollows lifecycle retiredHead) ?_
    simp [resumeScript, hresumed.headId, hresumed.key, hargument, hgenerationArgument, htArgument]
  · simp [Action.verb]
  refine meets_ofExcept_bind ?_ (resumeRaises_other hfailed (needsNoField_checkFailure refusal))
  intro _ _
  exact meets_pure.mpr (hnext _ hfailed)

omit [PyFloat F] in
/-- The use after the restart is in the script after two commands. -/
theorem useCommands_prefix_resumeScript {script : Script F} {scenario state : Object F} {key : Str}
    (hkey : argument script state ["stable_key"] = .ok key) (r : ResumeReplies F) :
    useCommands script key (get scenario (lit "restart_use_prompt")) r.task <+:
      (resumeScript script scenario state r).drop 2 := by
  have hkeyText : (get state (lit "stable_key")).toStr script.py = .ok key := hkey
  refine ⟨(resumeScript script scenario state r).drop 5, ?_⟩
  simp [resumeScript, useCommands, hkeyText, argument, memberAt]

/-- Replacing the state file keeps the contract. -/
theorem replaceWith_meets {script : Script F} {scenario state completed : Object F}
    {content revisionId headId key : Str} {past : List (Event F)} {issued : List Action}
    {received : List (Object F)}
    (hresumed : Resumed script scenario state content revisionId headId key)
    (h : Progress past ⟨.readState, some (.ok content)⟩ issued received)
    (hcompleted : ∀ written, receiptText script completed = .ok written →
      Completed script state written) :
    (replaceWith script completed).Meets ((resumeContract script scenario).returning
      fun h _ => (resumeContract script scenario).returns h completed) past := by
  have hloaded : Loaded script past state := ⟨content, h.first, hresumed.loads⟩
  unfold replaceWith writeTemporary replaceState
  refine meets_ofExcept_bind ?_ (resumeRaises_other h (needsNoField_receiptText script completed))
  intro written hwritten
  have hdone := hcompleted written hwritten
  refine meets_ask_bind (.inr ⟨state, hloaded, hresumed.receipt, .inr ⟨written, hdone,
    .inl ⟨rfl, h.quiet⟩⟩⟩) fun _ => ?_
  refine ⟨.inr ⟨state, ⟨content, head?_append_event h.first, hresumed.loads⟩, hresumed.receipt,
    .inr ⟨written, hdone, .inr ⟨rfl, past, h.quiet, rfl⟩⟩⟩, fun _ => ?_⟩
  exact ⟨past, state, written, hloaded, hdone, h.quiet, by simp⟩

/-- `resume` keeps its contract. -/
theorem resume_meets (script : Script F) (scenario : Object F) (path : Str) :
    (resume script scenario path).Meets (resumeContract script scenario) [] := by
  unfold resume readState
  refine meets_ask_bind (.inl ⟨rfl, rfl⟩) fun answer => ?_
  have hread : Progress (F := F) [⟨.readState, some answer⟩] _ [] [] := .start rfl rfl
  have hnone : NoRetirement [] := noRetirement_nil
  refine meets_ofExcept_bind ?_ fun e _ => resumeRaises_before hread hnone e
  intro state hstate
  obtain ⟨content, rfl, hloads⟩ := loadObject_eq_ok.mp hstate
  refine meets_ofExcept_bind ?_ fun e _ => resumeRaises_before hread hnone e
  intro _ hcheck
  obtain ⟨⟨hcontract, hphase⟩, hscenario⟩ := checkState_eq_ok.mp hcheck
  refine meets_ofExcept_bind ?_ fun e _ => resumeRaises_before hread hnone e
  intro revisionId hrevisionId
  refine meets_ofExcept_bind ?_ fun e _ => resumeRaises_before hread hnone e
  intro headId hheadId
  refine meets_ofExcept_bind ?_ fun e _ => resumeRaises_before hread hnone e
  intro key hkey
  have hresumed : Resumed script scenario state content revisionId headId key := {
    loads := hloads
    receipt := ⟨hcontract, hphase⟩
    scenario := hscenario
    revisionId := (stateText_eq_ok.mp hrevisionId).2
    headId := (stateText_eq_ok.mp hheadId).2
    key := (stateText_eq_ok.mp hkey).2 }
  refine meets_json_bind hread (resumeAllows_command hresumed hread rfl {} ?_ ?_ ?_)
    fun revision _ hrevision => ?_
  · simp
  · simp [resumeScript, hresumed.revisionId]
  · simp [Action.verb]
  refine meets_json_bind hrevision (resumeAllows_command hresumed hrevision rfl { revision }
    ?_ ?_ ?_) fun head _ hhead => ?_
  · simp [ResumeReplies.toList]
  · simp [resumeScript, hresumed.revisionId, hresumed.headId]
  · simp [Action.verb]
  have hfetched : NoRetirement [.json [lit "cognition", lit "revision", revisionId],
      .json [lit "cognition", lit "head", headId]] := by
    simp
  refine meets_ofExcept_bind ?_ fun e _ => resumeRaises_before hhead hfetched e
  intro _ hunchanged
  obtain ⟨hrevisionHash, hheadHash, hactive, hlifecycle⟩ := checkUnchanged_eq_ok.mp hunchanged
  refine meets_bind.mpr (useAndInspect_meets hhead ?_ ?_ ?_)
  · intro past' later task selection use arguments hprogress hcommands hverb
    refine resumeAllows_command hresumed hprogress rfl { revision, head, task, selection, use } ?_
      ?_ fun hretire => absurd hretire (hverb _ (by simp))
    · have hlater : later.length ≤ 3 := by
        have hle := hcommands.length_le
        simp only [List.length_map, List.length_append, useCommands, List.length_cons,
          List.length_nil] at hle
        omega
      have htake : [task, selection, use].take later.length =
          ([task, selection, use] ++ [[], []]).take later.length :=
        (List.take_append_of_le_length hlater).symm
      simpa [ResumeReplies.toList, Nat.add_comm 2] using htake
    · rw [List.append_assoc, List.map_append]
      refine prefix_of_take 2 (by simp [resumeScript, hresumed.revisionId, hresumed.headId]) ?_
      exact hcommands.trans
        (useCommands_prefix_resumeScript hresumed.key { revision, head, task, selection, use })
  · intro past' later received' e hprogress hlater _
    refine resumeRaises_before hprogress (fun op hop => ?_) e
    obtain hop | hop := List.mem_append.mp hop
    · exact hfetched op hop
    · exact hlater op hop
  · intro past' later task selection use a s u restartUse hprogress hcommands hlater hprompt
      hattributed hinspected
    have hretirable : Retirable script scenario state { revision, head, task, selection, use } := {
      contract := hcontract
      phase := hphase
      scenario := hscenario
      revision := hrevisionHash
      head := hheadHash
      lifecycle := hlifecycle
      use := ⟨revisionId, a, s, u, hresumed.revisionId, hactive, hattributed, hinspected⟩ }
    have hbefore : NoRetirement ([.json [lit "cognition", lit "revision", revisionId],
        .json [lit "cognition", lit "head", headId]] ++ later) := fun op hop =>
      (List.mem_append.mp hop).elim (hfetched op) (hlater op)
    refine meets_bind.mpr (retireHead_meets hresumed hprogress (fun lifecycle retiredHead => ?_)
      hretirable hprompt hbefore ?_)
    · have hrevisionText : (get state (lit "revision_id")).toStr script.py = .ok revisionId :=
        hresumed.revisionId
      have hheadText : (get state (lit "head_id")).toStr script.py = .ok headId := hresumed.headId
      have hkeyText : (get state (lit "stable_key")).toStr script.py = .ok key := hresumed.key
      simp [resumeScript, hcommands, useCommands, hrevisionText, hheadText, hkeyText, argument,
        memberAt]
    · rintro past' issued' received' ⟨receipt, retiredHead, refusal⟩ hprogress'
      refine meets_ofExcept_bind ?_ (resumeRaises_other hprogress'
        (needsNoField_completion script restartUse receipt retiredHead refusal))
      intro members hmembers
      exact meets_bind.mpr (replaceWith_meets hresumed hprogress' fun written hwritten =>
        ⟨restartUse, receipt, retiredHead, refusal, members, hmembers, hwritten⟩)

end MarketIntelligence.Journey
