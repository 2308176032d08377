import MarketIntelligence.Journey.Passages
import MarketIntelligence.Journey.Restart

/-!
# The head is retired once

A `resume` that fails leaves the state file as it was, so that it can be called again. But the
retirement cannot be taken back, and it comes behind the gate that the head is active. Over any
calls on a receipt the head is therefore retired once at most, and a receipt whose head was
retired by a call that did not complete it is never completed.
-/

namespace MarketIntelligence.Journey

open Python Interaction

variable {F : Type}

/-! ### Retirements -/

/-- An answered retirement. -/
def Event.retires (x : Event F) : Bool :=
  decide (x.op.verb = some (lit "lifecycle")) && x.answer.isSome

/-- The answered retirements of some events. -/
def retirements (es : List (Event F)) : List (Event F) := es.filter Event.retires

/-- After an answered retirement of a head, no answer reports that head as active. -/
def StaysRetired (headId : Str) (es : List (Event F)) : Prop :=
  ∀ past x rest head, es = past ++ x :: rest → x.retires = true →
    commandEvent [lit "cognition", lit "head", headId] head ∈ rest →
      get head (lit "lifecycle") ≠ .str (lit "active")

/-- Of more events, it holds of the last ones. -/
theorem StaysRetired.of_append {headId : Str} {es fs : List (Event F)}
    (h : StaysRetired headId (es ++ fs)) : StaysRetired headId fs := by
  rintro past x rest head rfl
  exact h (es ++ past) x rest head (by simp)

/-- Behind a retirement, a head that is reported as active is not this one. -/
theorem StaysRetired.not_active {headId : Str} {es fs : List (Event F)} {head : Object F}
    (h : StaysRetired headId (es ++ fs)) (hretired : retirements es ≠ [])
    (hhead : commandEvent [lit "cognition", lit "head", headId] head ∈ fs) :
    get head (lit "lifecycle") ≠ .str (lit "active") := by
  obtain ⟨x, hx⟩ := List.exists_mem_of_ne_nil _ hretired
  obtain ⟨hmem, hretires⟩ := List.mem_filter.mp hx
  obtain ⟨past, rest, rfl⟩ := List.append_of_mem hmem
  exact h past x (rest ++ fs) head (by simp) hretires (List.mem_append_right rest hhead)

/-- An operation with another verb is not next. -/
theorem ne_ask_of_verb {α : Type} {op op' : Action} {next' : Response F op' → Phase F α}
    {verb : Str} (hop' : op'.verb = some verb) (hop : op.verb ≠ some verb)
    (next : Response F op → Phase F α) : (.ask op' next' : Phase F α) ≠ .ask op next := by
  intro hsame
  obtain ⟨rfl, -⟩ := Program.ask.inj hsame
  exact hop hop'

variable [PyFloat F]

/-- Before a retirement in `resume`, the state was loaded, its head was found active, and no
other retirement was issued. -/
theorem after_retirement {script : Script F} {scenario : Object F} {path : Str}
    {past : List (Event F)} {op : Action} {next : Response F op → Phase F (Object F)}
    (hverb : op.verb = some (lit "lifecycle"))
    (h : After (resume script scenario path) past (.ask op next)) :
    retirements past = [] ∧ ∃ content state head headId, past.head? = some (readEvent content) ∧
      jsonLoads script.py.limits content = .ok (.dict state) ∧
      stateText script state "head_id" = .ok headId ∧
      commandEvent [lit "cognition", lit "head", headId] head ∈ past ∧
      get head (lit "lifecycle") = .str (lit "active") := by
  have hfail : ∀ e, (.ask op next : Phase F (Object F)) ≠ .fail e := by simp
  have hjson {verb : String} {rest : List Str} (hne : lit verb ≠ lit "lifecycle")
      (f : Response F (.json (lit "cognition" :: lit verb :: rest)) → Phase F (Object F)) :
      (.ask op next : Phase F (Object F)) ≠ .ask _ f :=
    ne_ask_of_verb hverb (by simpa [Action.verb] using hne) f
  have hquiet {verb : String} {rest : List Str} {response : Object F}
      (hne : lit verb ≠ lit "lifecycle") :
      (commandEvent (lit "cognition" :: lit verb :: rest) response).retires = false := by
    simpa [Event.retires, commandEvent, Action.verb] using hne
  unfold resume readState json at h
  obtain ⟨read, es₁, hread, h⟩ := h.of_other (ne_ask_of_verb hverb (by simp [Action.verb]))
  obtain ⟨state, hstate, h⟩ := h.of_ofExcept hfail
  obtain ⟨content, hcontent, hloads⟩ := loadObject_eq_ok.mp hstate
  obtain ⟨_, -, h⟩ := h.of_ofExcept hfail
  obtain ⟨revisionId, -, h⟩ := h.of_ofExcept hfail
  obtain ⟨headId, hheadId, h⟩ := h.of_ofExcept hfail
  obtain ⟨stableKey, -, h⟩ := h.of_ofExcept hfail
  obtain ⟨revision, es₂, hrevision, h⟩ := h.of_other (hjson (by decide))
  obtain ⟨head, es₃, hhead, h⟩ := h.of_other (hjson (by decide))
  obtain ⟨_, hunchanged, h⟩ := h.of_ofExcept hfail
  obtain ⟨-, -, -, hactive⟩ := checkUnchanged_eq_ok.mp hunchanged
  unfold useAndInspect inspectUse json at h
  simp only [Program.bind_assoc, Program.pure_bind] at h
  obtain ⟨arguments, harguments, h⟩ := h.of_ofExcept hfail
  obtain ⟨prompt, -, huse'⟩ := useArguments_eq_ok.mp harguments
  obtain ⟨task, es₄, htask, h⟩ := h.of_other
    (ne_ask_of_verb hverb (by simp [Action.verb, huse']))
  obtain ⟨a, -, h⟩ := h.of_ofExcept hfail
  obtain ⟨selectionId, -, h⟩ := h.of_ofExcept hfail
  obtain ⟨selection, es₅, hselection, h⟩ := h.of_other (hjson (by decide))
  obtain ⟨useId, -, h⟩ := h.of_ofExcept hfail
  obtain ⟨use, es₆, huse, h⟩ := h.of_other (hjson (by decide))
  obtain ⟨hashes, -, h⟩ := h.of_ofExcept hfail
  unfold retireHead json failure at h
  simp only [Program.bind_assoc, Program.pure_bind] at h
  obtain ⟨retire, -, h⟩ := h.of_ofExcept hfail
  obtain ⟨rfl, -⟩ | ⟨lifecycle, es₇, -, h⟩ := h.of_ask
  · have hpast : past = readEvent content ::
        commandEvent [lit "cognition", lit "revision", revisionId] revision ::
        commandEvent [lit "cognition", lit "head", headId] head ::
        commandEvent [lit "cognition", lit "use", stableKey, prompt] task ::
        commandEvent [lit "cognition", lit "selection", selectionId] selection ::
        [commandEvent [lit "cognition", lit "use-receipt", useId] use] := by
      rw [hread, hcontent, hrevision, hhead, htask, hselection, huse, huse']
      rfl
    refine ⟨?_, content, state, head, headId, by rw [hpast]; rfl, hloads, hheadId,
      by simp [hpast], hactive⟩
    rw [hpast, retirements, List.filter_eq_nil_iff]
    simp only [List.forall_mem_cons, List.not_mem_nil, false_imp_iff, implies_true, and_true,
      Bool.not_eq_true]
    exact ⟨rfl, hquiet (by decide), hquiet (by decide), hquiet (by decide), hquiet (by decide),
      hquiet (by decide)⟩
  · -- Behind its retirement, `resume` issues no other one.
    obtain ⟨receipt, -, h⟩ := h.of_ofExcept hfail
    obtain ⟨retiredHead, es₈, -, h⟩ := h.of_other (hjson (by decide))
    obtain ⟨_, -, h⟩ := h.of_ofExcept hfail
    obtain ⟨refused, hrefused, h⟩ := h.of_ofExcept hfail
    obtain ⟨_, -, hlater⟩ := useArguments_eq_ok.mp hrefused
    obtain ⟨refusal, es₉, -, h⟩ := h.of_other
      (ne_ask_of_verb hverb (by simp [Action.verb, hlater]))
    obtain ⟨_, -, h⟩ := h.of_ofExcept hfail
    obtain ⟨members, -, h⟩ := h.of_ofExcept hfail
    unfold replaceWith writeTemporary replaceState at h
    simp only [Program.bind_assoc] at h
    obtain ⟨written, -, h⟩ := h.of_ofExcept hfail
    obtain ⟨_, _, -, h⟩ := h.of_other (ne_ask_of_verb hverb (by simp [Action.verb]))
    obtain ⟨_, _, -, h⟩ := h.of_other (ne_ask_of_verb hverb (by simp [Action.verb]))
    obtain ⟨-, hdone⟩ := after_done h
    cases hdone

/-! ### Retirements of one call -/

omit [PyFloat F] in
/-- Where the first of two rows has no retirement, those of both are those of the second. -/
theorem retirements_append (es fs : List (Event F)) :
    retirements (es ++ fs) = retirements es ++ retirements fs := List.filter_append es fs

/-- A retirement in a call of `resume` is its only one, and comes behind an active head of the
state in the file. -/
theorem resume_retirement {script : Script F} {scenario : Object F} {path : Str}
    {past rest : List (Event F)} {x : Event F} {o : Outcome (Raised JourneyError) (Object F)}
    (ht : Trace (resume script scenario path) (past ++ x :: rest) o) (hx : x.retires = true) :
    retirements past = [] ∧ ∃ content state head headId, past.head? = some (readEvent content) ∧
      jsonLoads script.py.limits content = .ok (.dict state) ∧
      stateText script state "head_id" = .ok headId ∧
      commandEvent [lit "cognition", lit "head", headId] head ∈ past ∧
      get head (lit "lifecycle") = .str (lit "active") := by
  obtain ⟨op, answer⟩ := x
  simp only [Event.retires, Bool.and_eq_true, decide_eq_true_eq] at hx
  obtain ⟨hverb, hanswered⟩ := hx
  obtain ⟨a, rfl⟩ := Option.isSome_iff_exists.mp hanswered
  obtain ⟨next, hafter, -⟩ := ht.after
  exact after_retirement hverb hafter

/-- `resume` retires once at most. -/
theorem resume_retires_once {script : Script F} {scenario : Object F} {path : Str}
    {es : List (Event F)} {o : Outcome (Raised JourneyError) (Object F)}
    (ht : Trace (resume script scenario path) es o) : (retirements es).length ≤ 1 := by
  cases hretired : retirements es with
  | nil => simp
  | cons x later =>
    obtain ⟨past, rest, rfl, -, hx, hlater⟩ := List.filter_eq_cons_iff.mp hretired
    cases later with
    | nil => simp
    | cons y later =>
      obtain ⟨between, rest, rfl, -, hy, -⟩ := List.filter_eq_cons_iff.mp hlater
      have ht' : Trace (resume script scenario path) ((past ++ x :: between) ++ y :: rest) o := by
        simpa using ht
      obtain ⟨hnone, -⟩ := resume_retirement ht' hy
      rw [retirements, List.filter_eq_nil_iff] at hnone
      exact absurd hx (hnone x (by simp))

/-- A `resume` that has come to its end has retired the head. -/
theorem retired_of_beyond {script : Script F} {scenario : Object F} {path : Str}
    {es : List (Event F)} {q : Phase F (Object F)} (hq : Beyond q)
    (h : After (resume script scenario path) es q) : retirements es ≠ [] := by
  obtain ⟨state, revision, head, revisionId, headId, stableKey, before, rest, rfl, -, hleft⟩ :=
    after_resume hq.not_failed (.inr hq) h
  obtain ⟨task, selection, use, a, hashes, receipt, retiredHead, arguments, used, retired, left,
    rfl, -, hretired, -, -⟩ := after_resumeUnchanged hq hleft
  obtain ⟨retire, lifecycle, hretire, -, rfl⟩ := hretired.events
  obtain ⟨rationale, generation, -, -, rfl⟩ := retireArguments_eq_ok.mp hretire
  have hmem : (commandEvent [lit "cognition", lit "lifecycle", headId, lit "--review-request-id",
      lit "market-gc1-retire-v1", lit "--action", lit "retire", lit "--rationale", rationale,
      lit "--expected-generation", generation] lifecycle : Event F) ∈ before ++ (used ++
        ([commandEvent [lit "cognition", lit "lifecycle", headId, lit "--review-request-id",
            lit "market-gc1-retire-v1", lit "--action", lit "retire", lit "--rationale", rationale,
            lit "--expected-generation", generation] lifecycle,
          commandEvent [lit "cognition", lit "head", headId] retiredHead] ++ left)) := by simp
  exact List.ne_nil_of_mem (List.mem_filter.mpr ⟨hmem, rfl⟩)

omit [PyFloat F] in
/-- Nothing is left to be asked when the state file is replaced. -/
theorem beyond_replaceState (next : Unit → Phase F (Object F)) :
    Beyond (.ask .replaceState next : Phase F (Object F)) := by
  refine ⟨by simp, fun op rest hop h => ?_⟩
  obtain ⟨rfl, -⟩ := Program.ask.inj h
  cases hop

omit [PyFloat F] in
/-- Only writing or replacing the state file changes it. -/
theorem state_of_after {d d' : Disk} {x : Event F} (hd : d.Proceeds x d')
    (hwrite : ∀ content, x.op ≠ .writeState content)
    (hreplace : x.op = .replaceState → x.answer = none) : d'.state = d.state := by
  obtain ⟨op, answer⟩ := x
  cases op with
  | writeState content => exact absurd rfl (hwrite content)
  | writeTemporary content => exact state_of_writeTemporary hd
  | replaceState =>
    obtain ⟨-, rfl⟩ | ⟨rfl, -⟩ := after_replaceState hd
    · rfl
    · cases hreplace rfl
  | _ => exact congrArg Disk.state (after_of_not_writes rfl hd)

/-- A `resume` that returned, or that has changed the state file, has retired the head. -/
theorem resume_retires {script : Script F} {scenario : Object F} {path : Str}
    {es : List (Event F)} {o : Outcome (Raised JourneyError) (Object F)} {d d' : Disk}
    (ht : Trace (resume script scenario path) es o) (hd : Changes d es d')
    (h : (∃ state, o = .returned state) ∨ d'.state ≠ d.state) : retirements es ≠ [] := by
  obtain ⟨state, rfl⟩ | hchanged := h
  · exact retired_of_beyond (beyond_done state) (after_done_iff.mpr ht)
  · -- Otherwise the state file was not replaced, and nothing else changes it.
    by_contra hnone
    obtain ⟨hallowed, -, -⟩ := ht.meets (resume_meets script scenario path)
    refine hchanged (hd.preserves (P := fun t => t.state = d.state) (fun x hx s t hst hs => ?_) rfl)
    obtain ⟨past, rest, rfl⟩ := List.append_of_mem hx
    refine (state_of_after hst (fun content hop => ?_) fun hop => ?_).trans hs
    · obtain ⟨-, hread⟩ | ⟨-, -, -, ⟨hcommand, -, -⟩ | ⟨_, -, ⟨hother, -⟩ | ⟨hother, -⟩⟩⟩ :=
        hallowed past x rest rfl
      · simp [hop] at hread
      · simp [hop, Action.isCommand] at hcommand
      · simp [hop] at hother
      · simp [hop] at hother
    · obtain ⟨op, answer⟩ := x
      obtain rfl : op = .replaceState := hop
      cases answer with
      | none => rfl
      | some a =>
        obtain ⟨next, hafter, -⟩ := ht.after
        refine absurd ?_ (retired_of_beyond (beyond_replaceState next) hafter)
        rw [retirements_append] at hnone
        exact (List.append_eq_nil_iff.mp hnone).1

/-! ### Many calls -/

/-- A call with its events and its outcome. -/
structure CallRun (F : Type) where
  call : Call F
  events : List (Event F)
  outcome : Outcome (Raised JourneyError) (Object F)

/-- Calls that follow one another, with the files before and after them. -/
inductive Calls (script : Script F) (path : Str) : Disk → List (CallRun F) → Disk → Prop
  | none (d : Disk) : Calls script path d [] d
  | call {d d₁ d₂ : Disk} {c : CallRun F} {cs : List (CallRun F)} :
      Trace (c.call.program script path) c.events c.outcome → Changes d c.events d₁ →
      Calls script path d₁ cs d₂ → Calls script path d (c :: cs) d₂

omit [PyFloat F] in
/-- The events of all calls. -/
def callEvents (cs : List (CallRun F)) : List (Event F) := cs.flatMap CallRun.events

/-- The state file has a receipt with this head. -/
def Holds (script : Script F) (file : Option Str) (headId : Str) : Prop :=
  ∃ content state, file = some content ∧
    jsonLoads script.py.limits content = .ok (.dict state) ∧
    stateText script state "head_id" = .ok headId

/-- The state file has a complete receipt. -/
def Finished (script : Script F) (file : Option Str) : Prop :=
  ∃ content, file = some content ∧
    Receipt script "complete" (preparedFields ++ completionFields) content

omit [PyFloat F] in
/-- Without commands there is no retirement. -/
theorem retirements_of_no_commands {es : List (Event F)} (h : commands es = []) :
    retirements es = [] := by
  refine List.filter_eq_nil_iff.mpr fun x hx hretires => ?_
  have hverb : x.op.verb = some (lit "lifecycle") := by
    simp only [Event.retires, Bool.and_eq_true, decide_eq_true_eq] at hretires
    exact hretires.1
  have hcommand : x.op.isCommand = true := by
    cases hop : x.op with
    | json | failure => rfl
    | _ => simp [hop, Action.verb] at hverb
  have hmem : x.op ∈ commands es := List.mem_filter.mpr ⟨List.mem_map_of_mem hx, hcommand⟩
  simp [h] at hmem

/-- A call on a receipt retires its head once at most, and behind an answer that it is active. -/
theorem call_retirement {script : Script F} {path headId : Str} {c : CallRun F} {d d' : Disk}
    (hholds : Holds script d.state headId)
    (ht : Trace (c.call.program script path) c.events c.outcome) (hd : Changes d c.events d') :
    (retirements c.events).length ≤ 1 ∧ ∀ past x rest, c.events = past ++ x :: rest →
      x.retires = true → ∃ head, commandEvent [lit "cognition", lit "head", headId] head ∈ past ∧
        get head (lit "lifecycle") = .str (lit "active") := by
  obtain ⟨call, es, o⟩ := c
  obtain ⟨content, state, hfile, hloads, hheadId⟩ := hholds
  cases call with
  | prepare scenario sourceTaskId =>
    have hnone : retirements es = [] :=
      retirements_of_no_commands (prepare_refused (by simp [hfile]) ht hd).1
    refine ⟨by simp [hnone], fun past x rest hes hx => ?_⟩
    rw [retirements, List.filter_eq_nil_iff] at hnone
    exact absurd hx (hnone x (by simp [show es = past ++ x :: rest from hes]))
  | resume scenario =>
    refine ⟨resume_retires_once ht, fun past x rest hes hx => ?_⟩
    obtain rfl : es = past ++ x :: rest := hes
    obtain ⟨-, content', state', head, headId', hread, hloads', hheadId', hmem, hactive⟩ :=
      resume_retirement ht hx
    have hhead : (past ++ x :: rest).head? = some (readEvent content') := by
      rw [List.head?_append, hread]
      rfl
    obtain rfl : content = content' := Option.some.inj (hfile.symm.trans (content_of_head hhead hd))
    obtain rfl : state = state' := by simpa [hloads] using hloads'
    obtain rfl : headId = headId' := Except.ok.inj (hheadId.symm.trans hheadId')
    exact ⟨head, hmem, hactive⟩

/-- A call on a receipt that does not retire its head leaves the file as it is, and does not
return. -/
theorem call_without_retirement {script : Script F} {path headId : Str} {c : CallRun F}
    {d d' : Disk} (hholds : Holds script d.state headId)
    (ht : Trace (c.call.program script path) c.events c.outcome) (hd : Changes d c.events d')
    (hnone : retirements c.events = []) :
    d'.state = d.state ∧ ∀ result, c.outcome ≠ .returned result := by
  obtain ⟨call, es, o⟩ := c
  obtain ⟨content, state, hfile, -⟩ := hholds
  cases call with
  | prepare scenario sourceTaskId =>
    have hthere : d.state ≠ none := by simp [hfile]
    refine ⟨?_, (prepare_refused hthere ht hd).2⟩
    obtain hsame | ⟨-, habsent, -⟩ := prepare_changes ht hd
    · exact hsame
    · exact absurd habsent hthere
  | resume scenario =>
    constructor
    · by_contra hchanged
      exact resume_retires ht hd (.inr hchanged) hnone
    · intro result hresult
      exact resume_retires ht hd (.inl ⟨result, hresult⟩) hnone

/-- A call on a complete receipt is refused. -/
theorem call_finished {script : Script F} {path : Str} {c : CallRun F} {d d' : Disk}
    (hfinished : Finished script d.state)
    (ht : Trace (c.call.program script path) c.events c.outcome) (hd : Changes d c.events d') :
    retirements c.events = [] ∧ d'.state = d.state := by
  obtain ⟨call, es, o⟩ := c
  obtain ⟨content, hfile, hcomplete⟩ := hfinished
  cases call with
  | prepare scenario sourceTaskId =>
    have hthere : d.state ≠ none := by simp [hfile]
    refine ⟨retirements_of_no_commands (prepare_refused hthere ht hd).1, ?_⟩
    obtain hsame | ⟨-, habsent, -⟩ := prepare_changes ht hd
    · exact hsame
    · exact absurd habsent hthere
  | resume scenario =>
    have hother : ∀ other (state : Object F), d.state = some other →
        jsonLoads script.py.limits other = .ok (.dict state) → ¬PreparedReceipt state := by
      intro other state hsome hloads
      obtain rfl : content = other := Option.some.inj (hfile.symm.trans hsome)
      exact not_preparedReceipt_of_complete hcomplete hloads
    refine ⟨retirements_of_no_commands (resume_refused hother ht hd).1, ?_⟩
    obtain hsame | ⟨-, other, state, -, -, hsome, hloads, hreceipt, -⟩ := resume_changes ht hd
    · exact hsame
    · exact absurd hreceipt (hother other state hsome hloads)

/-- Calls that follow other calls. -/
theorem Calls.append {script : Script F} {path : Str} {d d₁ d₂ : Disk}
    {first second : List (CallRun F)} (h : Calls script path d first d₁)
    (hsecond : Calls script path d₁ second d₂) :
    Calls script path d (first ++ second) d₂ := by
  induction h with
  | none d => exact hsecond
  | call ht hd _ ih => exact .call ht hd (ih hsecond)

/-- Calls on a complete receipt are refused. -/
theorem calls_finished {script : Script F} {path : Str} {d d' : Disk} {cs : List (CallRun F)}
    (h : Calls script path d cs d') (hfinished : Finished script d.state) :
    retirements (callEvents cs) = [] := by
  induction h with
  | none d => rfl
  | @call d d₁ d₂ c cs ht hd _ ih =>
    obtain ⟨hnone, hsame⟩ := call_finished hfinished ht hd
    rw [callEvents, List.flatMap_cons, retirements_append, hnone, List.nil_append]
    exact ih (hsame ▸ hfinished)

/-- Calls that do not retire the head of a receipt leave the file as it is, and none returns. -/
theorem calls_without_retirement {script : Script F} {path headId : Str} {d d' : Disk}
    {cs : List (CallRun F)} (h : Calls script path d cs d') (hholds : Holds script d.state headId)
    (hnone : retirements (callEvents cs) = []) :
    d'.state = d.state ∧ ∀ c ∈ cs, ∀ result, c.outcome ≠ .returned result := by
  induction h with
  | none d => exact ⟨rfl, by simp⟩
  | @call d d₁ d₂ c cs ht hd _ ih =>
    rw [callEvents, List.flatMap_cons, retirements_append, List.append_eq_nil_iff] at hnone
    obtain ⟨hsame, hreturns⟩ := call_without_retirement hholds ht hd hnone.1
    obtain ⟨hrest, hothers⟩ := ih (hsame ▸ hholds) hnone.2
    exact ⟨hrest.trans hsame, List.forall_mem_cons.mpr ⟨hreturns, hothers⟩⟩

/-- Where the head of a receipt is retired and stays so, no call retires it again. -/
theorem calls_after_retirement {script : Script F} {path headId : Str} {d d' : Disk}
    {cs : List (CallRun F)} (h : Calls script path d cs d') (hholds : Holds script d.state headId)
    {earlier : List (Event F)} (hretired : retirements earlier ≠ [])
    (htruthful : StaysRetired headId (earlier ++ callEvents cs)) :
    retirements (callEvents cs) = [] := by
  induction h generalizing earlier with
  | none d => rfl
  | @call d d₁ d₂ c cs ht hd _ ih =>
    rw [callEvents, List.flatMap_cons] at htruthful ⊢
    have hnone : retirements c.events = [] := by
      refine List.filter_eq_nil_iff.mpr fun x hx hretires => ?_
      obtain ⟨past, rest, hes⟩ := List.append_of_mem hx
      obtain ⟨head, hmem, hactive⟩ := (call_retirement hholds ht hd).2 past x rest hes hretires
      have hlater : commandEvent [lit "cognition", lit "head", headId] head ∈
          c.events ++ cs.flatMap CallRun.events :=
        List.mem_append_left _ (hes ▸ List.mem_append_left _ hmem)
      exact htruthful.not_active hretired hlater hactive
    have hsame := (call_without_retirement hholds ht hd hnone).1
    rw [retirements_append, hnone, List.nil_append]
    have hboth : retirements (earlier ++ c.events) ≠ [] := by
      rw [retirements_append]
      exact List.append_ne_nil_of_left_ne_nil hretired _
    exact ih (hsame ▸ hholds) hboth (by rwa [List.append_assoc])

/-- Over calls on a receipt its head is retired once at most. -/
theorem calls_retire_once {script : Script F} {path headId : Str} {d d' : Disk}
    {cs : List (CallRun F)} (h : Calls script path d cs d') (hwritten : Written script d.state)
    (hholds : Holds script d.state headId) (htruthful : StaysRetired headId (callEvents cs)) :
    (retirements (callEvents cs)).length ≤ 1 := by
  induction h with
  | none d => simp [callEvents, retirements]
  | @call d d₁ d₂ c cs ht hd hrest ih =>
    rw [callEvents, List.flatMap_cons] at htruthful ⊢
    rw [retirements_append, List.length_append]
    obtain ⟨honce, -⟩ := call_retirement hholds ht hd
    obtain ⟨hwritten', hadvances, -⟩ := call_advances hwritten ht hd
    by_cases hnone : retirements c.events = []
    · obtain ⟨hsame, -⟩ := call_without_retirement hholds ht hd hnone
      have hothers := ih hwritten' (hsame ▸ hholds) htruthful.of_append
      simpa [hnone, callEvents] using hothers
    · have hothers : retirements (callEvents cs) = [] := by
        by_cases hsame : d₁.state = d.state
        · exact calls_after_retirement hrest (hsame ▸ hholds) hnone htruthful
        · -- The call has completed the receipt.
          obtain ⟨content, -, hfile, -⟩ := hholds
          rw [hfile] at hadvances hsame
          cases hnew : d₁.state with
          | none =>
            rw [hnew] at hadvances
            cases hadvances
          | some content' =>
            rw [hnew] at hadvances hsame
            cases hadvances with
            | stays => exact absurd rfl hsame
            | completed _ hcomplete _ => exact calls_finished hrest ⟨content', hnew, hcomplete⟩
      rw [callEvents] at hothers
      simpa [hothers] using honce

/-- Over any calls on a receipt, failed or interrupted ones among them, its head is retired once
at most if the CLI does not report it as active again, and the file has changed only if it was
retired. Where it was retired and the receipt was not completed by that call, the file stays as it
is over all further calls, and none of them returns. -/
theorem retired_once (script : Script F) {path headId : Str} {d d₁ d₂ : Disk}
    {first second : List (CallRun F)} (hreached : Reached script path d)
    (hholds : Holds script d.state headId) (hfirst : Calls script path d first d₁)
    (hsecond : Calls script path d₁ second d₂)
    (htruthful : StaysRetired headId (callEvents (first ++ second))) :
    (retirements (callEvents (first ++ second))).length ≤ 1 ∧
    (d₂.state ≠ d.state → (retirements (callEvents (first ++ second))).length = 1) ∧
    (retirements (callEvents first) ≠ [] → d₁.state = d.state →
      d₂.state = d.state ∧ ∀ c ∈ second, ∀ result, c.outcome ≠ .returned result) := by
  have hall : Calls script path d (first ++ second) d₂ := hfirst.append hsecond
  have honce := calls_retire_once hall hreached.written hholds htruthful
  refine ⟨honce, fun hchanged => ?_, fun hretired hsame => ?_⟩
  · have hretired : retirements (callEvents (first ++ second)) ≠ [] := fun hnone =>
      hchanged (calls_without_retirement hall hholds hnone).1
    have hpos := List.length_pos_iff.mpr hretired
    omega
  · rw [callEvents, List.flatMap_append] at htruthful
    have hheld : Holds script d₁.state headId := hsame ▸ hholds
    have hnone := calls_after_retirement hsecond hheld hretired htruthful
    obtain ⟨hstays, hreturns⟩ := calls_without_retirement hsecond hheld hnone
    exact ⟨hstays.trans hsame, hreturns⟩

/-! ### A retirement without its receipt -/

omit [PyFloat F] in
/-- No answer behind the first retirement reports an active head. -/
def noActiveHead (es : List (Event F)) : Bool :=
  (es.dropWhile fun x => !x.retires).all fun x =>
    x.reply.all fun head => !(get head (lit "lifecycle")).eqStr (lit "active")

omit [PyFloat F] in
/-- Then every head stays retired. -/
theorem staysRetired_of_noActiveHead {headId : Str} {es : List (Event F)}
    (h : noActiveHead es = true) : StaysRetired headId es := by
  rintro past x rest head rfl hretires hhead hactive
  have hmem : commandEvent [lit "cognition", lit "head", headId] head ∈
      (past ++ x :: rest).dropWhile fun x => !x.retires := by
    rw [List.dropWhile_append]
    split
    · rw [List.dropWhile_cons_of_neg (by simp [hretires])]
      exact List.mem_cons_of_mem x hhead
    · exact List.mem_append_right _ (List.mem_cons_of_mem x hhead)
  have hall := List.all_eq_true.mp h _ hmem
  simp [commandEvent, Event.reply, hactive, Data.eqStr] at hall

/-- The host of the sample, which is gone after the retirement. -/
def interruptedHost (past : List (Event Unit)) (op : Action) : Option (Response Unit op) :=
  if retirements past = [] then sampleHost sampleContent past op else none

/-- The host of the sample, with its head retired. -/
def retiredHost (past : List (Event Unit)) : (op : Action) → Option (Response Unit op)
  | .json arguments =>
      some (if arguments[1]? = some (lit "head") then sampleRetiredHead
        else sampleReply past arguments[1]?)
  | op => sampleHost sampleContent past op

/-- A call of `resume` in the sample. -/
def resumeRun (host : List (Event Unit) → (op : Action) → Option (Response Unit op)) :
    CallRun Unit where
  call := .resume sampleScenario
  events := ((resume sampleScript sampleScenario (lit "state")).run host []).1
  outcome := ((resume sampleScript sampleScenario (lit "state")).run host []).2

/-- The first run of the sample has retired the head, none reports it as active afterwards, and
the files stay as they are in both. -/
theorem resumeRuns_retire :
    ((retirements (resumeRun interruptedHost).events).isEmpty = false ∧
      noActiveHead (callEvents [resumeRun interruptedHost, resumeRun retiredHost]) = true) ∧
    (resumeRun interruptedHost).events.foldlM Disk.after ⟨some sampleContent, none⟩ =
      some ⟨some sampleContent, none⟩ ∧
    (resumeRun retiredHost).events.foldlM Disk.after ⟨some sampleContent, none⟩ =
      some ⟨some sampleContent, none⟩ := by
  decide +kernel

/-- The sample's receipt has a head. -/
theorem sampleContent_holds : ∃ headId, Holds sampleScript (some sampleContent) headId := by
  obtain ⟨state, hstate⟩ := Outcome.exists_result sampleJourney_returns.2.2.1
  have hprepare := samplePrepared_trace
  rw [hstate] at hprepare
  obtain ⟨content, r, taught, review, task, selection, use, a, hreturned⟩ :=
    prepare_returned hprepare
  obtain ⟨loaded, hloads, hrecorded⟩ := prepare_recorded hreturned
  obtain ⟨headId, hheadId⟩ := hrecorded.headText
  obtain ⟨key, hashes, before, used, -, -, -, -, hes⟩ := hreturned.gathered
  have hcontent : sampleContent = content := by
    unfold sampleContent
    rw [hes]
    simp [List.getLast?_cons, List.getLast?_append]
  exact ⟨headId, content, loaded, by rw [hcontent], hloads, hheadId⟩

/-- The sample is stuck when its process is gone behind the retirement: its head is retired, and
the next `resume` does not return. -/
theorem interruptedRetirement_stuck : ∃ headId,
    Holds sampleScript (some sampleContent) headId ∧
    (retirements (callEvents [resumeRun interruptedHost])).length = 1 ∧
    ∀ result, (resumeRun retiredHost).outcome ≠ .returned result := by
  obtain ⟨headId, hholds⟩ := sampleContent_holds
  obtain ⟨⟨hinterrupted, hactive⟩, hfirst, hsecond⟩ := resumeRuns_retire
  have hretired : retirements (callEvents [resumeRun interruptedHost]) ≠ [] := by
    rw [callEvents, List.flatMap_singleton, ← List.isEmpty_eq_false_iff]
    exact hinterrupted
  have htrace (host : List (Event Unit) → (op : Action) → Option (Response Unit op)) :
      Trace ((resumeRun host).call.program sampleScript (lit "state")) (resumeRun host).events
        (resumeRun host).outcome := Program.run_trace host [] _
  obtain ⟨honce, -, hstuck⟩ := retired_once sampleScript sampleContent_reached hholds
    (.call (htrace interruptedHost) (changes_of_foldlM hfirst) (.none _))
    (.call (htrace retiredHost) (changes_of_foldlM hsecond) (.none _))
    (staysRetired_of_noActiveHead hactive)
  refine ⟨headId, hholds, ?_, (hstuck hretired rfl).2 _ (List.mem_singleton_self _)⟩
  rw [List.singleton_append, callEvents, List.flatMap_cons, retirements_append,
    List.length_append] at honce
  have hpos := List.length_pos_iff.mpr hretired
  rw [callEvents, List.flatMap_singleton] at hpos ⊢
  omega

end MarketIntelligence.Journey
