import MarketIntelligence.Interaction.Residual
import MarketIntelligence.Journey.Scripts

/-!
# What a phase has gathered on its way

A phase that has come far enough was answered all its earlier commands, and the
computations between them have succeeded. One passage for each part of the phases: the
events behind it, the results of its computations, and the program that is left.
-/

namespace MarketIntelligence.Journey

open Python Interaction

variable {F : Type}

/-- A command with its response. -/
def commandEvent (arguments : List Str) (response : Object F) : Event F :=
  ⟨.json arguments, some response⟩

/-- Reading the state file. -/
def readEvent (content : Str) : Event F := ⟨.readState, some (.ok content)⟩

/-- Whether an operation reads the state file or is a command that should succeed. -/
def Action.asks : Action → Bool
  | .readState | .json _ => true
  | _ => false

/-- What is left neither failed nor begins with such an operation. -/
structure Beyond {α : Type} (q : Phase F α) : Prop where
  not_failed : ∀ e, q ≠ .fail e
  not_asking : ∀ op next, op.asks = true → q ≠ .ask op next

/-- A result is left. -/
theorem beyond_done {α : Type} (a : α) : Beyond (.done a : Phase F α) :=
  ⟨by simp, by simp⟩

/-- The refused use is next. -/
theorem beyond_failure {α : Type} (arguments : List Str) (next : Str → Phase F α) :
    Beyond (.ask (.failure arguments) next : Phase F α) := by
  refine ⟨by simp, fun op rest hop h => ?_⟩
  obtain ⟨rfl, -⟩ := Program.ask.inj h
  cases hop

variable [PyFloat F]

/-! ### Uses -/

/-- The computations of a use and of its inspection. -/
structure UseGathered (script : Script F) (key : Str) (prompt : Data F) (message : String)
    (revisionId : Str) (task selection use : Object F) (a : Attribution F)
    (hashes : Str × Str) (es : List (Event F)) : Prop where
  attributed : useAttribution script task revisionId = .ok a
  inspected : inspectedHashes script a selection use = .ok hashes
  events : ∃ arguments selectionId useId,
    useArguments script key prompt message = .ok arguments ∧
    text script a.selectionReceiptId = .ok selectionId ∧
    text script a.useReceiptId = .ok useId ∧
    es = [commandEvent arguments task,
      commandEvent [lit "cognition", lit "selection", selectionId] selection,
      commandEvent [lit "cognition", lit "use-receipt", useId] use]

/-- The passage through a use and its inspection. -/
theorem after_useAndInspect {script : Script F} {key : Str} {prompt : Data F}
    {message : String} {revisionId : Str} {f : Data F → Phase F (Object F)}
    {es : List (Event F)} {q : Phase F (Object F)} (hq : Beyond q)
    (h : After (useAndInspect script key prompt message revisionId >>= f) es q) :
    ∃ task selection use a hashes before rest, es = before ++ rest ∧
      UseGathered script key prompt message revisionId task selection use a hashes before ∧
      After (f (inspectedUse a hashes)) rest q := by
  unfold useAndInspect inspectUse json at h
  simp only [Program.bind_assoc, Program.pure_bind] at h
  obtain ⟨arguments, harguments, h⟩ := h.of_ofExcept hq.not_failed
  obtain ⟨task, _, htask, h⟩ := h.of_other fun _ => hq.not_asking _ _ rfl
  obtain ⟨a, ha, h⟩ := h.of_ofExcept hq.not_failed
  obtain ⟨selectionId, hselectionId, h⟩ := h.of_ofExcept hq.not_failed
  obtain ⟨selection, _, hselection, h⟩ := h.of_other fun _ => hq.not_asking _ _ rfl
  obtain ⟨useId, huseId, h⟩ := h.of_ofExcept hq.not_failed
  obtain ⟨use, rest, huse, h⟩ := h.of_other fun _ => hq.not_asking _ _ rfl
  obtain ⟨hashes, hhashes, hleft⟩ := h.of_ofExcept hq.not_failed
  refine ⟨task, selection, use, a, hashes, _, rest, ?_,
    ⟨ha, hhashes, arguments, selectionId, useId, harguments, hselectionId, huseId, rfl⟩, hleft⟩
  rw [htask, hselection, huse]
  rfl

/-! ### The passages of `resume` -/

/-- `resume` after its gates on the state, the revision and the head. -/
def resumeUnchanged (script : Script F) (scenario state : Object F)
    (revisionId headId stableKey : Str) : Phase F (Object F) := do
  let restartUse ← useAndInspect script stableKey (get scenario (lit "restart_use_prompt"))
    "restart use prompt is missing" revisionId
  let (lifecycleReceipt, retiredHead, refusal) ←
    retireHead script scenario state headId stableKey
  let members ← .ofExcept (completion script restartUse lifecycleReceipt retiredHead refusal)
  replaceWith script (updated state members)
  return updated state members

/-- `resume` from the refusal on. -/
def finish (script : Script F) (state : Object F) (restartUse : Data F)
    (lifecycleReceipt retiredHead : Object F) (refusal : Str) : Phase F (Object F) := do
  .ofExcept (checkFailure refusal)
  let members ← .ofExcept (completion script restartUse lifecycleReceipt retiredHead refusal)
  replaceWith script (updated state members)
  return updated state members

/-- The state that was loaded, and the revision and the head that passed its gates. -/
structure Unchanged (script : Script F) (scenario : Object F) (state revision head : Object F)
    (revisionId headId stableKey : Str) (es : List (Event F)) : Prop where
  checked : checkState script scenario state = .ok ()
  revisionText : stateText script state "revision_id" = .ok revisionId
  headText : stateText script state "head_id" = .ok headId
  keyText : stateText script state "stable_key" = .ok stableKey
  unchanged : checkUnchanged script state revision head revisionId = .ok ()
  events : ∃ content, jsonLoads script.py.limits content = .ok (.dict state) ∧
    es = [readEvent content,
      commandEvent [lit "cognition", lit "revision", revisionId] revision,
      commandEvent [lit "cognition", lit "head", headId] head]

/-- The passage through the gates on the state, the revision and the head. -/
theorem after_resume {script : Script F} {scenario : Object F} {path : Str}
    {es : List (Event F)} {q : Phase F (Object F)} (hfail : ∀ e, q ≠ .fail e)
    (hpassed : 3 ≤ es.length ∨ Beyond q) (h : After (resume script scenario path) es q) :
    ∃ state revision head revisionId headId stableKey before rest, es = before ++ rest ∧
      Unchanged script scenario state revision head revisionId headId stableKey before ∧
      After (resumeUnchanged script scenario state revisionId headId stableKey) rest q := by
  have hanswered {op : Action} {f : Response F op → Phase F (Object F)} {es' : List (Event F)}
      (hop : op.asks = true) (hlength : 3 ≤ es.length → 0 < es'.length)
      (h : After (Program.ask op Program.done >>= f) es' q) :
      ∃ a fs, es' = ⟨op, some a⟩ :: fs ∧ After (f a) fs q := by
    obtain ⟨rfl, hnext⟩ | hdone := h.of_ask
    · obtain hlong | hbeyond := hpassed
      · exact absurd (hlength hlong) (by simp)
      · exact absurd hnext (hbeyond.not_asking _ _ hop)
    · exact hdone
  unfold resume readState json at h
  obtain ⟨read, es₁, hread, h⟩ := hanswered rfl (by omega) h
  obtain ⟨state, hstate, h⟩ := h.of_ofExcept hfail
  obtain ⟨content, hcontent, hloads⟩ := loadObject_eq_ok.mp hstate
  obtain ⟨_, hchecked, h⟩ := h.of_ofExcept hfail
  obtain ⟨revisionId, hrevisionId, h⟩ := h.of_ofExcept hfail
  obtain ⟨headId, hheadId, h⟩ := h.of_ofExcept hfail
  obtain ⟨stableKey, hkey, h⟩ := h.of_ofExcept hfail
  obtain ⟨revision, es₂, hrevision, h⟩ := hanswered rfl (by simp [hread]; omega) h
  obtain ⟨head, rest, hhead, h⟩ := hanswered rfl (by simp [hread, hrevision]; omega) h
  obtain ⟨_, hunchanged, hleft⟩ := h.of_ofExcept hfail
  refine ⟨state, revision, head, revisionId, headId, stableKey, _, rest, ?_,
    ⟨hchecked, hrevisionId, hheadId, hkey, hunchanged, content, hloads, rfl⟩, hleft⟩
  rw [hread, hrevision, hhead, hcontent]
  rfl

/-- The receipt of the retirement and the retired head. -/
structure RetirementGathered (script : Script F) (scenario state : Object F) (headId : Str)
    (receipt retiredHead : Object F) (es : List (Event F)) : Prop where
  retired : checkRetired retiredHead = .ok ()
  events : ∃ arguments lifecycle, retireArguments script scenario state headId = .ok arguments ∧
    retiredReceipt lifecycle = .ok receipt ∧
    es = [commandEvent arguments lifecycle,
      commandEvent [lit "cognition", lit "head", headId] retiredHead]

/-- The passage from the gates to the refused use. -/
theorem after_resumeUnchanged {script : Script F} {scenario state : Object F}
    {revisionId headId stableKey : Str} {es : List (Event F)} {q : Phase F (Object F)}
    (hq : Beyond q)
    (h : After (resumeUnchanged script scenario state revisionId headId stableKey) es q) :
    ∃ task selection use a hashes receipt retiredHead arguments used retired rest,
      es = used ++ (retired ++ rest) ∧
      UseGathered script stableKey (get scenario (lit "restart_use_prompt"))
        "restart use prompt is missing" revisionId task selection use a hashes used ∧
      RetirementGathered script scenario state headId receipt retiredHead retired ∧
      useArguments script stableKey (get scenario (lit "post_retirement_use_prompt"))
        "post-retirement use prompt is missing" = .ok arguments ∧
      After (.ask (.failure arguments)
        (finish script state (inspectedUse a hashes) receipt retiredHead)) rest q := by
  unfold resumeUnchanged at h
  obtain ⟨task, selection, use, a, hashes, used, rest, hes, hused, h⟩ := after_useAndInspect hq h
  unfold retireHead json failure at h
  simp only [Program.bind_assoc, Program.pure_bind] at h
  obtain ⟨retire, hretire, h⟩ := h.of_ofExcept hq.not_failed
  obtain ⟨lifecycle, _, hlifecycle, h⟩ := h.of_other fun _ => hq.not_asking _ _ rfl
  obtain ⟨receipt, hreceipt, h⟩ := h.of_ofExcept hq.not_failed
  obtain ⟨retiredHead, left, hretiredHead, h⟩ := h.of_other fun _ => hq.not_asking _ _ rfl
  obtain ⟨_, hretired, h⟩ := h.of_ofExcept hq.not_failed
  obtain ⟨arguments, harguments, hleft⟩ := h.of_ofExcept hq.not_failed
  refine ⟨task, selection, use, a, hashes, receipt, retiredHead, arguments, used, _, left, ?_,
    hused, ⟨hretired, retire, lifecycle, hretire, hreceipt, rfl⟩, harguments, hleft⟩
  rw [hes, hlifecycle, hretiredHead]
  rfl

/-! ### The passages of `prepare` -/

/-- What `prepare` has gathered when the approved revision is active. -/
structure ReviewGathered (script : Script F) (scenario : Object F) (sourceTaskId stableKey : Str)
    (r : Reviewed F) (taught review : Object F) (es : List (Event F)) : Prop where
  proposed : taughtProposal script taught = .ok (r.proposal, r.proposalId)
  pending : checkPending script r.inspection r.semanticDiff = .ok ()
  approved : approvedReceipt script review = .ok (r.reviewReceipt, r.revisionId, r.headId)
  active : checkActive r.revision r.head r.revisionId = .ok ()
  events : ∃ teach, teachArguments script scenario sourceTaskId stableKey = .ok teach ∧
    es = [commandEvent teach taught,
      commandEvent [lit "cognition", lit "inspect", r.proposalId] r.inspection,
      commandEvent [lit "cognition", lit "diff", r.proposalId] r.semanticDiff,
      commandEvent (reviewArguments r.proposalId) review,
      commandEvent [lit "cognition", lit "revision", r.revisionId] r.revision,
      commandEvent [lit "cognition", lit "head", r.headId] r.head]

omit [PyFloat F] in
/-- The passage from teaching to the active revision. -/
theorem after_approveProposal {script : Script F} {scenario : Object F}
    {sourceTaskId stableKey : Str} {f : Reviewed F → Phase F (Object F)} {es : List (Event F)}
    {q : Phase F (Object F)} (hq : Beyond q)
    (h : After (approveProposal script scenario sourceTaskId stableKey >>= f) es q) :
    ∃ r taught review before rest, es = before ++ rest ∧
      ReviewGathered script scenario sourceTaskId stableKey r taught review before ∧
      After (f r) rest q := by
  unfold approveProposal json at h
  simp only [Program.bind_assoc, Program.pure_bind] at h
  obtain ⟨teach, hteach, h⟩ := h.of_ofExcept hq.not_failed
  obtain ⟨taught, _, htaught, h⟩ := h.of_other fun _ => hq.not_asking _ _ rfl
  obtain ⟨⟨proposal, proposalId⟩, hproposed, h⟩ := h.of_ofExcept hq.not_failed
  obtain ⟨inspection, _, hinspection, h⟩ := h.of_other fun _ => hq.not_asking _ _ rfl
  obtain ⟨semanticDiff, _, hdiff, h⟩ := h.of_other fun _ => hq.not_asking _ _ rfl
  obtain ⟨_, hpending, h⟩ := h.of_ofExcept hq.not_failed
  obtain ⟨review, _, hreview, h⟩ := h.of_other fun _ => hq.not_asking _ _ rfl
  obtain ⟨⟨receipt, revisionId, headId⟩, happroved, h⟩ := h.of_ofExcept hq.not_failed
  obtain ⟨revision, _, hrevision, h⟩ := h.of_other fun _ => hq.not_asking _ _ rfl
  obtain ⟨head, rest, hhead, h⟩ := h.of_other fun _ => hq.not_asking _ _ rfl
  obtain ⟨_, hactive, hleft⟩ := h.of_ofExcept hq.not_failed
  refine ⟨⟨proposal, proposalId, inspection, semanticDiff, receipt, revisionId, headId, revision,
    head⟩, taught, review, _, rest, ?_,
    ⟨hproposed, hpending, happroved, hactive, teach, hteach, rfl⟩, hleft⟩
  rw [htaught, hinspection, hdiff, hreview, hrevision, hhead]
  rfl

/-- A run of `prepare` that has returned: its nine commands, the state with its text, and
the last events. -/
structure PrepareReturned (script : Script F) (scenario : Object F) (sourceTaskId : Str)
    (es : List (Event F)) (state : Object F) (content : Str) (r : Reviewed F)
    (taught review task selection use : Object F) (a : Attribution F) : Prop where
  gathered : ∃ key hashes before used, stableKey script scenario = .ok key ∧
    ReviewGathered script scenario sourceTaskId key r taught review before ∧
    UseGathered script key (get scenario (lit "fresh_use_prompt")) "fresh use prompt is missing"
      r.revisionId task selection use a hashes used ∧
    preparedState script scenario sourceTaskId key r (inspectedUse a hashes) = .ok state ∧
    es = ⟨.stateExists, some false⟩ :: (before ++ (used ++
      [⟨.stateExists, some false⟩, ⟨.makeParents, some ()⟩, ⟨.writeState content, some ()⟩]))
  printed : receiptText script state = .ok content

/-- The passage through all of `prepare`. -/
theorem prepare_returned {script : Script F} {scenario : Object F} {sourceTaskId path : Str}
    {es : List (Event F)} {state : Object F}
    (ht : Trace (prepare script scenario sourceTaskId path) es (.returned state)) :
    ∃ content r taught review task selection use a, PrepareReturned script scenario sourceTaskId
      es state content r taught review task selection use a := by
  have hq : Beyond (.done state : Phase F (Object F)) := beyond_done state
  have h := after_done_iff.mpr ht
  unfold prepare stateExists refusing at h
  obtain ⟨there, _, hthere, h⟩ := h.of_other (by simp)
  cases there with
  | true => cases h
  | false =>
    obtain ⟨key, hkey, h⟩ := h.of_ofExcept hq.not_failed
    obtain ⟨r, taught, review, before, _, hbefore, hreviewed, h⟩ := after_approveProposal hq h
    obtain ⟨task, selection, use, a, hashes, used, _, hused, hgathered, h⟩ :=
      after_useAndInspect hq h
    obtain ⟨written, hstate, h⟩ := h.of_ofExcept hq.not_failed
    unfold writeNew stateExists refusing makeParents writeState at h
    simp only [Program.bind_assoc] at h
    obtain ⟨there, _, hstill, h⟩ := h.of_other (by simp)
    cases there with
    | true => cases h
    | false =>
      simp only [Bool.false_eq_true, if_false, Program.bind_assoc] at h
      obtain ⟨_, _, hmade, h⟩ := h.of_other (by simp)
      obtain ⟨content, hcontent, h⟩ := h.of_ofExcept hq.not_failed
      obtain ⟨_, _, hwritten, h⟩ := h.of_other (by simp)
      obtain ⟨hend, hdone⟩ := after_done h
      obtain rfl := Program.done.inj hdone
      refine ⟨content, r, taught, review, task, selection, use, a,
        ⟨key, hashes, before, used, hkey, hreviewed, hgathered, hstate, ?_⟩, hcontent⟩
      rw [hthere, hbefore, hused, hstill, hmade, hwritten, hend]

/-- The responses of a run of `prepare` that has returned, in order. -/
theorem PrepareReturned.responses {script : Script F} {scenario : Object F} {sourceTaskId : Str}
    {es : List (Event F)} {state : Object F} {content : Str} {r : Reviewed F}
    {taught review task selection use : Object F} {a : Attribution F}
    (h : PrepareReturned script scenario sourceTaskId es state content r taught review task
      selection use a) :
    replies es = [taught, r.inspection, r.semanticDiff, review, r.revision, r.head, task, selection,
      use] := by
  obtain ⟨key, hashes, before, used, -, hreviewed, hused, -, rfl⟩ := h.gathered
  obtain ⟨teach, -, rfl⟩ := hreviewed.events
  obtain ⟨arguments, selectionId, useId, -, -, -, rfl⟩ := hused.events
  rfl

/-! ### The end of `resume` -/

/-- A run of `resume` that has returned. -/
structure ResumeReturned (script : Script F) (scenario : Object F) (es : List (Event F))
    (state revision head : Object F) (revisionId headId : Str)
    (task selection use : Object F) (a : Attribution F) (retiredHead : Object F) : Prop where
  gathered : ∃ stableKey hashes receipt before used retired rest,
    Unchanged script scenario state revision head revisionId headId stableKey before ∧
    UseGathered script stableKey (get scenario (lit "restart_use_prompt"))
      "restart use prompt is missing" revisionId task selection use a hashes used ∧
    RetirementGathered script scenario state headId receipt retiredHead retired ∧
    (∃ arguments refusal content, useArguments script stableKey
        (get scenario (lit "post_retirement_use_prompt")) "post-retirement use prompt is missing" =
        .ok arguments ∧
      rest = [⟨.failure arguments, some refusal⟩, ⟨.writeTemporary content, some ()⟩,
        ⟨.replaceState, some ()⟩]) ∧
    es = before ++ (used ++ (retired ++ rest))

/-- The passage through all of `resume`. -/
theorem resume_returned {script : Script F} {scenario : Object F} {path : Str}
    {es : List (Event F)} {result : Object F}
    (ht : Trace (resume script scenario path) es (.returned result)) :
    ∃ state revision head revisionId headId task selection use a retiredHead,
      ResumeReturned script scenario es state revision head revisionId headId task selection use a
        retiredHead := by
  have hq : Beyond (.done result : Phase F (Object F)) := beyond_done result
  have h := after_done_iff.mpr ht
  obtain ⟨state, revision, head, revisionId, headId, stableKey, before, _, hbefore, hunchanged,
    h⟩ := after_resume hq.not_failed (.inr hq) h
  obtain ⟨task, selection, use, a, hashes, receipt, retiredHead, arguments, used, retired, left,
    hrest, hused, hretired, harguments, h⟩ := after_resumeUnchanged hq h
  obtain ⟨-, hnext⟩ | ⟨refusal, _, hrefusal, h⟩ := h.of_ask
  · cases hnext
  · unfold replaceWith writeTemporary replaceState at h
    simp only [Program.bind_assoc] at h
    obtain ⟨_, -, h⟩ := h.of_ofExcept hq.not_failed
    obtain ⟨_, -, h⟩ := h.of_ofExcept hq.not_failed
    obtain ⟨content, -, h⟩ := h.of_ofExcept hq.not_failed
    obtain ⟨_, _, hwritten, h⟩ := h.of_other (by simp)
    obtain ⟨_, _, hreplaced, h⟩ := h.of_other (by simp)
    obtain ⟨hend, -⟩ := after_done h
    refine ⟨state, revision, head, revisionId, headId, task, selection, use, a, retiredHead,
      stableKey, hashes, receipt, before, used, retired, left, hunchanged, hused, hretired,
      ⟨arguments, refusal, content, harguments, ?_⟩, ?_⟩
    · rw [hrefusal, hwritten, hreplaced, hend]
    · rw [hbefore, hrest]

end MarketIntelligence.Journey
