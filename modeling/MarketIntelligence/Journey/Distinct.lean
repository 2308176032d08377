import MarketIntelligence.Journey.Order
import MarketIntelligence.Journey.Restart

/-!
# The request after the retirement

The evidence of the journey ends with a use that is refused after the retirement. The
script takes its prompt from the scenario and never compares it with the prompts of the
uses before, so that it is a distinct request exactly in the scenarios that make it one.
-/

namespace MarketIntelligence.Journey

open Python Interaction

variable {F : Type}

/-- The use commands that should succeed. -/
def uses (es : List (Event F)) : List (List Str) :=
  es.filterMap fun x => match x.op with
    | .json arguments => if arguments[1]? = some (lit "use") then some arguments else none
    | _ => none

/-- The use commands that should be refused. -/
def refusedUses (es : List (Event F)) : List (List Str) :=
  es.filterMap fun x => match x.op with
    | .failure arguments => some arguments
    | _ => none

/-- The prompt after the retirement differs, as a text, from the prompts before it. The
first use may also differ by its key, if writing the key to the state file joins a pair
of surrogates in it. -/
def PromptsDistinct (script : Script F) (scenario scenario' : Object F) : Prop :=
  (text script (get scenario' (lit "post_retirement_use_prompt")) ≠
      text script (get scenario (lit "fresh_use_prompt")) ∨
    ∃ key, text script (get scenario (lit "stable_key")) = .ok key ∧
      Json.reread true key ≠ key) ∧
  text script (get scenario' (lit "post_retirement_use_prompt")) ≠
    text script (get scenario' (lit "restart_use_prompt"))

/-! ### The uses of a phase -/

/-- The uses in a row of events. -/
theorem uses_append (es fs : List (Event F)) : uses (es ++ fs) = uses es ++ uses fs :=
  List.filterMap_append

/-- Other commands are no uses. -/
theorem uses_commandEvent_of_ne {verb : String} {rest : List Str} {response : Object F}
    (h : verb ≠ "use") (es : List (Event F)) :
    uses (commandEvent (lit "cognition" :: lit verb :: rest) response :: es) = uses es := by
  simp [uses, commandEvent, h]

/-- A use. -/
theorem uses_commandEvent_use {rest : List Str} {response : Object F} (es : List (Event F)) :
    uses (commandEvent (lit "cognition" :: lit "use" :: rest) response :: es) =
      (lit "cognition" :: lit "use" :: rest) :: uses es := by
  simp [uses, commandEvent]

variable [PyFloat F]

/-- A use and its inspection contain one use command. -/
theorem UseGathered.uses {script : Script F} {key : Str} {prompt : Data F} {message : String}
    {revisionId : Str} {task selection use : Object F} {a : Attribution F} {hashes : Str × Str}
    {es : List (Event F)}
    (h : UseGathered script key prompt message revisionId task selection use a hashes es) :
    ∃ t, text script prompt = .ok t ∧
      Journey.uses es = [[lit "cognition", lit "use", key, t]] := by
  obtain ⟨arguments, selectionId, useId, harguments, -, -, rfl⟩ := h.events
  obtain ⟨t, ⟨-, ht⟩, rfl⟩ := useArguments_eq_ok.mp harguments
  refine ⟨t, text_eq_ok.mpr ht, ?_⟩
  rw [uses_commandEvent_use, uses_commandEvent_of_ne (by decide),
    uses_commandEvent_of_ne (by decide)]
  rfl

omit [PyFloat F] in
/-- Teaching and review contain none. -/
theorem ReviewGathered.uses {script : Script F} {scenario : Object F} {sourceTaskId key : Str}
    {r : Reviewed F} {taught review : Object F} {es : List (Event F)}
    (h : ReviewGathered script scenario sourceTaskId key r taught review es) :
    Journey.uses es = [] := by
  obtain ⟨teach, hteach, rfl⟩ := h.events
  obtain ⟨_, _, _, _, -, -, -, -, rfl⟩ := teachArguments_eq_ok.mp hteach
  rw [uses_commandEvent_of_ne (by decide), uses_commandEvent_of_ne (by decide),
    uses_commandEvent_of_ne (by decide), reviewArguments, uses_commandEvent_of_ne (by decide),
    uses_commandEvent_of_ne (by decide), uses_commandEvent_of_ne (by decide)]
  rfl

/-- `prepare` has one use, with its own key, which it records. -/
theorem prepare_uses {script : Script F} {scenario : Object F} {sourceTaskId path content : Str}
    {es : List (Event F)} {state : Object F}
    (ht : Trace (prepare script scenario sourceTaskId path) es (.returned state))
    (hwritten : es.getLast? = some ⟨.writeState content, some ()⟩) :
    ∃ key t loaded, text script (get scenario (lit "stable_key")) = .ok key ∧
      text script (get scenario (lit "fresh_use_prompt")) = .ok t ∧
      uses es = [[lit "cognition", lit "use", key, t]] ∧
      jsonLoads script.py.limits content = .ok (.dict loaded) ∧
      stateText script loaded "stable_key" = .ok (Json.reread true key) := by
  obtain ⟨content', r, taught, review, task, selection, use, a, h⟩ := prepare_returned ht
  obtain ⟨key, hashes, before, used, hkey, hreviewed, hused, hstate, rfl⟩ := h.gathered
  obtain rfl : content' = content := by
    simpa [List.getLast?_cons, List.getLast?_append] using hwritten
  obtain ⟨t, ht, huses⟩ := hused.uses
  obtain ⟨hloads, hget⟩ := preparedState_loads hstate h.printed
  have hrecorded : hasKey state (lit "stable_key") = true ∧
      get state (lit "stable_key") = .str key := by
    simp only [preparedState, bind_eq_ok, pure_eq_ok, Except.ok.injEq] at hstate
    obtain ⟨_, -, _, -, _, -, _, -, _, -, _, -, _, -, _, -, _, -, _, -, rfl⟩ := hstate
    exact ⟨by simp [hasKey], by simp⟩
  refine ⟨key, t, _, text_eq_ok.mpr (requireText_eq_ok.mp hkey).2, ht, ?_, hloads,
    stateText_eq_ok.mpr ⟨(hget _).1.trans hrecorded.1, ?_⟩⟩
  · have hends : uses [⟨.stateExists, some false⟩, ⟨.makeParents, some ()⟩,
        (⟨.writeState content', some ()⟩ : Event F)] = [] := rfl
    have hstart : uses (⟨.stateExists, some false⟩ :: (before ++ (used ++
        [⟨.stateExists, some false⟩, ⟨.makeParents, some ()⟩,
          (⟨.writeState content', some ()⟩ : Event F)]))) = uses (before ++ (used ++
        [⟨.stateExists, some false⟩, ⟨.makeParents, some ()⟩,
          (⟨.writeState content', some ()⟩ : Event F)])) := rfl
    rw [hstart, uses_append, uses_append, hreviewed.uses, huses, hends]
    rfl
  · rw [(hget _).2, hrecorded.2]
    rfl

/-- `resume` has one use and one refused use, both with the recorded key. -/
theorem resume_uses {script : Script F} {scenario : Object F} {path content : Str}
    {es : List (Event F)} {result loaded : Object F} {key : Str}
    (ht : Trace (resume script scenario path) es (.returned result))
    (hread : es.head? = some (readEvent content))
    (hloads : jsonLoads script.py.limits content = .ok (.dict loaded))
    (hkey : stateText script loaded "stable_key" = .ok key) :
    ∃ t p, text script (get scenario (lit "restart_use_prompt")) = .ok t ∧
      text script (get scenario (lit "post_retirement_use_prompt")) = .ok p ∧
      uses es = [[lit "cognition", lit "use", key, t]] ∧
      refusedUses es = [[lit "cognition", lit "use", key, p]] := by
  obtain ⟨state, revision, head, revisionId, headId, task, selection, use, a, retiredHead, h⟩ :=
    resume_returned ht
  obtain ⟨stableKey, hashes, receipt, before, used, retired, rest, hunchanged, hused, hretired,
    ⟨arguments, refusal, written, harguments, rfl⟩, rfl⟩ := h.gathered
  obtain ⟨content', hloads', hbefore⟩ := hunchanged.events
  obtain rfl : content' = content := by simpa [hbefore, readEvent] using hread
  obtain rfl : state = loaded := by simpa [hloads] using hloads'.symm
  obtain rfl : stableKey = key := Except.ok.inj (hunchanged.keyText.symm.trans hkey)
  obtain ⟨t, htext, huses⟩ := hused.uses
  obtain ⟨p, ⟨-, hp⟩, rfl⟩ := useArguments_eq_ok.mp harguments
  obtain ⟨retire, lifecycle, hretire, -, rfl⟩ := hretired.events
  obtain ⟨_, _, -, -, rfl⟩ := retireArguments_eq_ok.mp hretire
  obtain ⟨usedArguments, selectionId, useId, -, -, -, husedEvents⟩ := hused.events
  refine ⟨t, p, htext, text_eq_ok.mpr hp, ?_, ?_⟩
  · have hunused : uses before = [] := by
      have hcommands : uses before = uses
          [commandEvent [lit "cognition", lit "revision", revisionId] revision,
            commandEvent [lit "cognition", lit "head", headId] head] := by
        rw [hbefore]
        rfl
      rw [hcommands, uses_commandEvent_of_ne (by decide), uses_commandEvent_of_ne (by decide)]
      rfl
    rw [uses_append, uses_append, uses_append, hunused, huses,
      uses_commandEvent_of_ne (by decide), uses_commandEvent_of_ne (by decide)]
    rfl
  · rw [hbefore, husedEvents]
    rfl

/-- In every run of `prepare` that returns, and every run of `resume` on what it has written
that returns, there is one use each and one refused use, and the refused use is a distinct
request exactly if its prompt is distinct. -/
theorem refused_distinct_iff (script : Script F) {scenario scenario' : Object F}
    {sourceTaskId path path' content : Str} {es es' : List (Event F)} {state state' : Object F}
    (hprepare : Trace (prepare script scenario sourceTaskId path) es (.returned state))
    (hwritten : es.getLast? = some ⟨.writeState content, some ()⟩)
    (hresume : Trace (resume script scenario' path') es' (.returned state'))
    (hread : es'.head? = some (readEvent content)) :
    ∃ refused, refusedUses es' = [refused] ∧ (uses (es ++ es')).length = 2 ∧
      ((∀ use ∈ uses (es ++ es'), refused ≠ use) ↔
        PromptsDistinct script scenario scenario') := by
  obtain ⟨key, fresh, loaded, hkey, hfresh, huses, hloads, hloaded⟩ :=
    prepare_uses hprepare hwritten
  obtain ⟨restart, prompt, hrestart, hprompt, huses', hrefused⟩ :=
    resume_uses hresume hread hloads hloaded
  refine ⟨_, hrefused, by simp [uses_append, huses, huses'], ?_⟩
  simp only [uses_append, huses, huses', List.cons_append, List.nil_append, List.forall_mem_cons,
    List.not_mem_nil, false_imp_iff, implies_true, and_true, PromptsDistinct, hkey, hfresh,
    hrestart, hprompt, ne_eq, List.cons.injEq, true_and, Except.ok.injEq, exists_eq_left',
    not_and_or, or_comm]

/-! ### The sample, and the sample with a replayed prompt -/

/-- The sample with a refused use that has the prompt of the use before. -/
def replayedScenario : Object Unit := textObject
  [("stable_key", "key"), ("name", "name"), ("description", "text"), ("intent", "aim"),
    ("base_recipe", "recipe"), ("fresh_use_prompt", "ask"), ("restart_use_prompt", "again"),
    ("retire_rationale", "done"), ("post_retirement_use_prompt", "again")]

/-- SHA-256 on the objects of the sample and on this scenario. -/
def replayedSha256 (bytes : List UInt8) : List (Fin 16) :=
  if asciiBytes (Json.encode (Json.Layout.compact true) 0 (.dict replayedScenario)) = bytes then
    digestDigits 0x7fc9d56e0279f4ebb375ae876f949d9657e1f9d52525cfe07038d5068ad6a8ea
  else sampleSha256 bytes

/-- The script with this hash function. -/
def replayedScript : Script Unit := ⟨asciiInterpreter, replayedSha256⟩

/-- A run of `prepare` on this scenario. -/
def replayedPrepare : List (Event Unit) × Outcome (Raised JourneyError) (Object Unit) :=
  (prepare replayedScript replayedScenario (lit "task") (lit "state")).run (sampleHost []) []

/-- The text that it writes. -/
def replayedContent : Str :=
  match replayedPrepare.1.getLast? with
  | some ⟨.writeState content, _⟩ => content
  | _ => []

/-- The run of `resume` on this text. -/
def replayedResume : List (Event Unit) × Outcome (Raised JourneyError) (Object Unit) :=
  (resume replayedScript replayedScenario (lit "state")).run (sampleHost replayedContent) []

/-- Both runs return, and the refused use is the use after the restart. -/
theorem replayed_runs : replayedPrepare.2.isReturned = true ∧
    replayedResume.2.isReturned = true ∧
    (refusedUses replayedResume.1).any (fun refused =>
      decide (refused ∈ uses (replayedPrepare.1 ++ replayedResume.1))) = true := by
  decide +kernel

/-- A run of `prepare` that returns ends with writing its state. -/
theorem written_of_prepared {script : Script F} {scenario : Object F} {sourceTaskId path : Str}
    {es : List (Event F)} {state : Object F}
    (ht : Trace (prepare script scenario sourceTaskId path) es (.returned state)) :
    ∃ content, es.getLast? = some ⟨.writeState content, some ()⟩ := by
  obtain ⟨content, r, taught, review, task, selection, use, a, h⟩ := prepare_returned ht
  obtain ⟨key, hashes, before, used, -, -, -, -, rfl⟩ := h.gathered
  exact ⟨content, by simp [List.getLast?_cons, List.getLast?_append]⟩

/-- A run of `resume` begins with reading the state. -/
theorem read_of_resumed (script : Script Unit) (scenario : Object Unit) (path content : Str) :
    ((resume script scenario path).run (sampleHost content) []).1.head? =
      some (readEvent content) := Program.run_ask_head (sampleHost content) [] .readState _

/-- In these runs the use after the restart is accepted once more as the refused one. -/
theorem replayed_accepted : ∃ es es' state state',
    Trace (prepare replayedScript replayedScenario (lit "task") (lit "state")) es
      (.returned state) ∧
    es.getLast? = some ⟨.writeState replayedContent, some ()⟩ ∧
    Trace (resume replayedScript replayedScenario (lit "state")) es' (.returned state') ∧
    es'.head? = some (readEvent replayedContent) ∧
    ∃ refused ∈ refusedUses es', refused ∈ uses (es ++ es') := by
  obtain ⟨hprepared, hresumed, hreplayed⟩ := replayed_runs
  obtain ⟨state, hstate⟩ := Outcome.exists_result hprepared
  obtain ⟨state', hstate'⟩ := Outcome.exists_result hresumed
  have hprepare : Trace (prepare replayedScript replayedScenario (lit "task") (lit "state"))
      replayedPrepare.1 replayedPrepare.2 := Program.run_trace (sampleHost []) [] _
  have hresume : Trace (resume replayedScript replayedScenario (lit "state"))
      replayedResume.1 replayedResume.2 := Program.run_trace (sampleHost replayedContent) [] _
  rw [hstate] at hprepare
  rw [hstate'] at hresume
  have hwritten : replayedPrepare.1.getLast? = some ⟨.writeState replayedContent, some ()⟩ := by
    obtain ⟨content, hlast⟩ := written_of_prepared hprepare
    have hcontent : replayedContent = content := by
      unfold replayedContent
      rw [hlast]
    rw [hcontent]
    exact hlast
  have hread : replayedResume.1.head? = some (readEvent replayedContent) :=
    read_of_resumed replayedScript replayedScenario (lit "state") replayedContent
  obtain ⟨refused, hrefused, huse⟩ := List.any_eq_true.mp hreplayed
  exact ⟨_, _, state, state', hprepare, hwritten, hresume, hread, refused, hrefused,
    of_decide_eq_true huse⟩

/-- The refused use of the sample is a distinct request. -/
theorem sampleJourney_distinct : ∃ refused, refusedUses sampleResumed = [refused] ∧
    ∀ use ∈ uses (samplePrepared ++ sampleResumed), refused ≠ use := by
  obtain ⟨-, -, hprepared, hresumed⟩ := sampleJourney_returns
  obtain ⟨state, hstate⟩ := Outcome.exists_result hprepared
  obtain ⟨state', hstate'⟩ := Outcome.exists_result hresumed
  have hprepare := samplePrepared_trace
  have hresume := sampleResumed_trace
  rw [hstate] at hprepare
  rw [hstate'] at hresume
  have hwritten : samplePrepared.getLast? = some ⟨.writeState sampleContent, some ()⟩ := by
    obtain ⟨content, hlast⟩ := written_of_prepared hprepare
    have hcontent : sampleContent = content := by
      unfold sampleContent
      rw [hlast]
    rw [hcontent]
    exact hlast
  have hread : sampleResumed.head? = some (readEvent sampleContent) := by
    rw [sampleResumed]
    exact read_of_resumed sampleScript sampleScenario (lit "state") sampleContent
  obtain ⟨refused, hrefused, -, hdistinct⟩ :=
    refused_distinct_iff sampleScript hprepare hwritten hresume hread
  refine ⟨refused, hrefused, hdistinct.mpr ?_⟩
  unfold PromptsDistinct
  exact ⟨.inl (by decide), by decide⟩

end MarketIntelligence.Journey
