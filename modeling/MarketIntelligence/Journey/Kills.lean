import MarketIntelligence.Journey.Concurrent
import MarketIntelligence.Journey.Output

/-!
# Killed calls

A process may be killed at every point of a call: between two operations, or in the middle
of one that changes a file. A file that was being written is left with a beginning of its
text, and a file is moved as a whole. Over any history of calls and kills the state file
stays whole exactly if no kill cuts the text that `prepare` writes in place.
-/

namespace MarketIntelligence.Journey

open Python Interaction

variable {F : Type}

/-! ### Kills -/

/-- The files after a kill in an operation, when a write got as far as some characters. -/
def Disk.killed (d : Disk) (cut : ℕ) : Action → Option Disk
  | .writeState content => some { d with state := some (content.take cut) }
  | .writeTemporary content => some { d with temporary := some (content.take cut) }
  | .replaceState => d.temporary.map fun content => ⟨some content, none⟩
  | _ => some d

/-- A step of a history: a call that has ended or was killed between two operations, or a
call that was killed in an operation. -/
inductive Step (F : Type)
  | call (c : Call F)
  | killed (c : Call F) (op : Action) (cut : ℕ)

/-- A kill that leaves a proper beginning of what is written to the state file. The line
break at the end of the text does not matter. -/
def Step.Cuts : Step F → Prop
  | .killed _ (.writeState content) cut => cut + 1 < content.length
  | _ => False

variable [PyFloat F]

/-- The files before and after a step. -/
inductive Stepped (script : Script F) (path : Str) : Disk → Step F → Disk → Prop
  | call {c : Call F} {d d' : Disk} {es : List (Event F)}
      {o : Outcome (Raised JourneyError) (Object F)} : Trace (c.program script path) es o →
      Changes d es d' → Stepped script path d (.call c) d'
  | killed {c : Call F} {d t d' : Disk} {es : List (Event F)} {op : Action}
      {next : Response F op → Phase F (Object F)} {cut : ℕ} :
      After (c.program script path) es (.ask op next) → Changes d es t →
      t.killed cut op = some d' → Stepped script path d (.killed c op cut) d'

/-- The steps of a history, each with the files that it leaves. -/
inductive History (script : Script F) (path : Str) : Disk → List (Step F × Disk) → Prop
  | nil (d : Disk) : History script path d []
  | cons {d d' : Disk} {step : Step F} {rest : List (Step F × Disk)} :
      Stepped script path d step d' → History script path d' rest →
      History script path d ((step, d') :: rest)

/-- The state file is absent, a prepared receipt or a complete one. -/
def Whole (script : Script F) (file : Option Str) : Prop :=
  file = none ∨ ∃ content, file = some content ∧
    (Receipt script "prepared" preparedFields content ∨
      Receipt script "complete" (preparedFields ++ completionFields) content)

/-! ### Beginnings of receipts -/

/-- What is read is a text of the grammar. -/
theorem text_of_jsonLoads {limits : Limits} {s : Str} {x : Data F}
    (h : jsonLoads limits s = .ok x) : ∃ y, Json.Text s y := by
  unfold jsonLoads at h
  split at h
  · next value hvalue =>
    obtain ⟨y, hy, -⟩ := Json.loads_sound hvalue
    exact ⟨y, hy⟩
  all_goals cases h

omit [PyFloat F] in
/-- A receipt is followed by one line break. -/
theorem length_receiptText (printed : Str) :
    (printed ++ lit "\n").length = printed.length + 1 := by
  rw [List.length_append]
  rfl

/-- A printed dictionary begins with a brace. -/
theorem encode_dict_head? (receipt : Object F) :
    (Json.encode Json.Layout.indented 0 (.dict receipt)).head? = some (('{' : Char) : Chr) := by
  rw [Json.encode]
  split <;> rfl

/-- The text of a receipt has its braces and the line break at least. -/
theorem receiptText_length {script : Script F} {receipt : Object F} {content : Str}
    (h : receiptText script receipt = .ok content) : 2 < content.length := by
  obtain ⟨printed, hprinted, rfl⟩ := receiptText_eq_ok.mp h
  obtain ⟨_, -, htext⟩ := bind_eq_ok.mp hprinted
  obtain rfl := Except.ok.inj htext
  obtain ⟨-, body, hbody, -⟩ := (Json.value_encode Json.Layout.indented 0
    (.dict receipt)).body_of_brace (encode_dict_head? receipt)
  have hend : (lit "\x7d").length = 1 := rfl
  rw [length_receiptText, hbody, List.length_cons, List.length_append, hend]
  omega

/-- The text of a receipt without its last character is read like the text. -/
theorem jsonLoads_take {script : Script F} {receipt : Object F} {content : Str} {cut : ℕ}
    (h : receiptText script receipt = .ok content) (hcut : content.length ≤ cut + 1) :
    jsonLoads (F := F) script.py.limits (content.take cut) =
      jsonLoads script.py.limits content := by
  obtain ⟨printed, hprinted, rfl⟩ := receiptText_eq_ok.mp h
  have hlength := length_receiptText printed
  obtain hall | hlast : (printed ++ lit "\n").length ≤ cut ∨ cut = printed.length := by omega
  · rw [List.take_of_length_le hall]
  · have hbreak : Json.Ws (lit "\n") := by
      unfold Json.Ws
      decide
    have hbare := jsonLoads_dumps hprinted Json.ws_nil
    rw [List.append_nil] at hbare
    rw [hlast, List.take_left, jsonLoads_dumps hprinted hbreak, hbare]

/-- Any shorter beginning of the text is not read at all. -/
theorem not_jsonLoads_take {script : Script F} {receipt : Object F} {content : Str} {cut : ℕ}
    (h : receiptText script receipt = .ok content) (hcut : cut + 1 < content.length)
    (x : Data F) : jsonLoads script.py.limits (content.take cut) ≠ .ok x := by
  obtain ⟨printed, hprinted, rfl⟩ := receiptText_eq_ok.mp h
  obtain ⟨_, -, htext⟩ := bind_eq_ok.mp hprinted
  obtain rfl := Except.ok.inj htext
  intro hloads
  obtain ⟨y, hy⟩ := text_of_jsonLoads hloads
  have hlength := length_receiptText (Json.encode Json.Layout.indented 0 (.dict receipt))
  rw [List.take_append_of_le_length (by omega)] at hy
  exact Json.not_text_take (Json.value_encode Json.Layout.indented 0 (.dict receipt))
    (encode_dict_head? receipt) (by omega) hy

/-! ### What stays whole -/

/-- A state file that a call can go on from. -/
inductive Intact (script : Script F) : Option Str → Prop
  | absent : Intact script none
  | prepared {content : Str} {state : Object F} :
      jsonLoads script.py.limits content = .ok (.dict state) → ReadBack state →
      Intact script (some content)
  | complete {content : Str} :
      Receipt script "complete" (preparedFields ++ completionFields) content →
      Intact script (some content)

/-- Such a file is whole. -/
theorem Intact.whole {script : Script F} {file : Option Str} (h : Intact script file) :
    Whole script file := by
  cases h with
  | absent => exact .inl rfl
  | prepared hloads hstate => exact .inr ⟨_, rfl, .inl (hstate.isReceipt hloads)⟩
  | complete h => exact .inr ⟨_, rfl, .inr h⟩

/-- A call keeps it whole, wherever it ends between two operations. -/
theorem Intact.call {script : Script F} {path : Str} {c : Call F} {es : List (Event F)}
    {o : Outcome (Raised JourneyError) (Object F)} {d d' : Disk} (h : Intact script d.state)
    (ht : Trace (c.program script path) es o) (hd : Changes d es d') :
    Intact script d'.state := by
  cases c with
  | prepare scenario sourceTaskId =>
    obtain hsame | ⟨-, -, content, -, hcontent, hprepared⟩ := prepare_changes ht hd
    · rwa [hsame]
    · obtain ⟨state, hloads, hstate⟩ := prepared_loads hprepared
      exact hcontent ▸ .prepared hloads hstate
  | resume scenario =>
    obtain hsame | ⟨-, content, state, content', -, hcontent, hloads, hreceipt, hcontent',
      hcompleted⟩ := resume_changes ht hd
    · rwa [hsame]
    · rw [hcontent] at h
      cases h with
      | complete hcomplete =>
        exact absurd hreceipt (not_preparedReceipt_of_complete hcomplete hloads)
      | prepared hread hback =>
        obtain rfl := Data.dict.inj (Except.ok.inj (hread.symm.trans hloads))
        exact hcontent' ▸ .complete (completed_loads hloads hback hcompleted).1

/-- Only `prepare` writes the state file in place, and it writes a prepared state. -/
theorem prepared_of_write {script : Script F} {path content : Str} {c : Call F}
    {es : List (Event F)} {next : Response F (.writeState content) → Phase F (Object F)}
    (h : After (c.program script path) es (.ask (.writeState content) next)) :
    ∃ scenario sourceTaskId, Prepared script scenario sourceTaskId content := by
  have ht := h.trace (.abort (Action.writeState content) next)
  cases c with
  | prepare scenario sourceTaskId =>
    obtain ⟨hallowed, -, -⟩ := ht.meets (prepare_meets script scenario sourceTaskId path)
    obtain ⟨-, -, -, hwrites⟩ := hallowed es ⟨.writeState content, none⟩ [] rfl
    obtain ⟨content', hop, hprepared⟩ := hwrites rfl
    obtain rfl := Action.writeState.inj hop
    exact ⟨scenario, sourceTaskId, hprepared⟩
  | resume scenario =>
    obtain ⟨hallowed, -, -⟩ := ht.meets (resume_meets script scenario path)
    obtain ⟨-, hop⟩ | ⟨state, -, -, ⟨hcommand, -⟩ | ⟨content', -, ⟨hop, -⟩ | ⟨hop, -⟩⟩⟩ :=
      hallowed es ⟨.writeState content, none⟩ [] rfl
    · cases hop
    · cases hcommand
    · cases hop
    · cases hop

/-- A step that does not cut the text of the state file keeps it whole. -/
theorem Intact.step {script : Script F} {path : Str} {d d' : Disk} {step : Step F}
    (h : Intact script d.state) (hstep : Stepped script path d step d') (hcuts : ¬step.Cuts) :
    Intact script d'.state := by
  cases hstep with
  | call ht hd => exact h.call ht hd
  | @killed c _ t _ es op next cut hafter hd hkilled =>
    have hrunning := hafter.trace (.running (.ask op next))
    rw [List.append_nil] at hrunning
    have hbefore : Intact script t.state := h.call hrunning hd
    cases op with
    | writeState content =>
      obtain rfl := Option.some.inj hkilled
      obtain ⟨scenario, sourceTaskId, hprepared⟩ := prepared_of_write hafter
      obtain ⟨state, hloads, hstate⟩ := prepared_loads hprepared
      obtain ⟨_, _, _, written, -, hprinted⟩ := hprepared
      have hall : content.length ≤ cut + 1 := by
        have hcut : ¬cut + 1 < content.length := hcuts
        omega
      exact .prepared ((jsonLoads_take hprinted hall).trans hloads) hstate
    | writeTemporary content =>
      obtain rfl := Option.some.inj hkilled
      exact hbefore
    | replaceState =>
      -- Moving the file is atomic, so that the kill comes after it.
      have ht := hafter.trace
        (@Trace.step Action (Response F) _ _ .replaceState next () [] _ (.running (next ())))
      exact h.call ht (changes_append_singleton.mpr ⟨t, hd, proceeds_of_after hkilled⟩)
    | _ =>
      obtain rfl := Option.some.inj hkilled
      exact hbefore

/-- A step that cuts the text leaves a file that is not whole. -/
theorem not_whole_of_cuts {script : Script F} {path : Str} {d d' : Disk} {step : Step F}
    (hstep : Stepped script path d step d') (hcuts : step.Cuts) : ¬Whole script d'.state := by
  cases hstep with
  | call => exact hcuts.elim
  | @killed c _ t _ es op next cut hafter hd hkilled =>
    cases op with
    | writeState content =>
      obtain rfl := Option.some.inj hkilled
      obtain ⟨scenario, sourceTaskId, _, _, _, written, -, hprinted⟩ := prepared_of_write hafter
      rintro (hnone | ⟨content', hcontent, ⟨receipt, hloads, -⟩ | ⟨receipt, hloads, -⟩⟩)
      · cases hnone
      · obtain rfl := Option.some.inj hcontent
        exact not_jsonLoads_take hprinted hcuts _ hloads
      · obtain rfl := Option.some.inj hcontent
        exact not_jsonLoads_take hprinted hcuts _ hloads
    | _ => exact hcuts.elim

/-- Over every history from an absent state file on, the state file is whole after each
step exactly if no kill has cut the text that `prepare` writes. -/
theorem history_whole_iff {script : Script F} {path : Str} {d : Disk}
    {h : List (Step F × Disk)} (hd : d.state = none) (hh : History script path d h) :
    (∀ x ∈ h, Whole script x.2.state) ↔ ∀ x ∈ h, ¬x.1.Cuts := by
  have hstart : Intact script d.state := hd ▸ .absent
  clear hd
  constructor
  · intro hwhole
    clear hstart
    induction hh with
    | nil => simp
    | cons hstep _ ih =>
      obtain ⟨hnow, hlater⟩ := List.forall_mem_cons.mp hwhole
      exact List.forall_mem_cons.mpr ⟨fun hcuts => not_whole_of_cuts hstep hcuts hnow, ih hlater⟩
  · intro hcuts
    induction hh with
    | nil => simp
    | cons hstep _ ih =>
      obtain ⟨hnow, hlater⟩ := List.forall_mem_cons.mp hcuts
      have hnext := hstart.step hstep hnow
      exact List.forall_mem_cons.mpr ⟨hnext.whole, ih hnext hlater⟩

/-! ### Kills of the sample -/

/-- A run of `prepare` that returns was about to write a text, after checks that have left
the files alone. -/
theorem prepare_about_to_write {script : Script F} {scenario : Object F}
    {sourceTaskId path : Str} {es : List (Event F)} {state : Object F}
    (ht : Trace (prepare script scenario sourceTaskId path) es (.returned state)) :
    ∃ checked content next, After (prepare script scenario sourceTaskId path) checked
        (.ask (.writeState content) next) ∧
      ∀ d : Disk, d.state = none → Changes d checked d := by
  obtain ⟨checked, content, rfl, hchecked⟩ := prepare_files ht
  obtain ⟨next, hafter, -⟩ := ht.after
  exact ⟨checked, content, next, hafter, hchecked⟩

/-- A kill at the first check, and then one behind the last character of the state file:
the file is whole after both. -/
theorem sampleKills_whole : ∃ content cut, let whole : List (Step Unit × Disk) :=
      [(.killed (.prepare sampleScenario (lit "task")) .stateExists 0, ⟨none, none⟩),
        (.killed (.prepare sampleScenario (lit "task")) (.writeState content) cut,
          ⟨some (content.take cut), none⟩)]
    History sampleScript (lit "state") ⟨none, none⟩ whole ∧
      ∀ x ∈ whole, Whole sampleScript x.2.state := by
  obtain ⟨state, hstate⟩ := pairedRun_returns false
  have hrun := pairedRun_trace false
  rw [hstate] at hrun
  obtain ⟨checked, content, next, hafter, hchecked⟩ := prepare_about_to_write hrun
  have hhistory : History sampleScript (lit "state") ⟨none, none⟩
      [(.killed (.prepare sampleScenario (lit "task")) .stateExists 0, ⟨none, none⟩),
        (.killed (.prepare sampleScenario (lit "task")) (.writeState content) content.length,
          ⟨some (content.take content.length), none⟩)] :=
    .cons (.killed (.refl _) (.nil _) rfl)
      (.cons (.killed hafter (hchecked _ rfl) rfl) (.nil _))
  refine ⟨content, content.length, hhistory, (history_whole_iff rfl hhistory).mpr ?_⟩
  simp [Step.Cuts]

/-- A kill behind the first character leaves a file that is not whole. Every later call is
refused on it. -/
theorem sampleKill_cuts : ∃ content,
    History sampleScript (lit "state") ⟨none, none⟩
      [(.killed (.prepare sampleScenario (lit "task")) (.writeState content) 1,
        ⟨some (content.take 1), none⟩)] ∧
    ¬Whole sampleScript (some (content.take 1)) ∧
    ∀ (c : Call Unit) es o d', Trace (c.program sampleScript (lit "state")) es o →
      Changes ⟨some (content.take 1), none⟩ es d' →
      commands es = [] ∧ ∀ state, o ≠ .returned state := by
  obtain ⟨state, hstate⟩ := pairedRun_returns false
  have hrun := pairedRun_trace false
  rw [hstate] at hrun
  obtain ⟨checked, content, next, hafter, hchecked⟩ := prepare_about_to_write hrun
  obtain ⟨scenario, sourceTaskId, _, _, _, written, -, hprinted⟩ :=
    prepared_of_write (c := .prepare sampleScenario (lit "task")) hafter
  have hlength := receiptText_length hprinted
  have hcuts : (Step.killed (.prepare sampleScenario (lit "task")) (.writeState content) 1 :
      Step Unit).Cuts := hlength
  have hstep : Stepped sampleScript (lit "state") ⟨none, none⟩
      (.killed (.prepare sampleScenario (lit "task")) (.writeState content) 1)
      ⟨some (content.take 1), none⟩ := .killed hafter (hchecked _ rfl) rfl
  refine ⟨content, .cons hstep (.nil _), not_whole_of_cuts hstep hcuts, fun c es o d' ht hd => ?_⟩
  cases c with
  | prepare scenario sourceTaskId => exact prepare_refused (by simp) ht hd
  | resume scenario =>
    refine resume_refused (fun content' state hcontent hloads => ?_) ht hd
    obtain rfl := Option.some.inj hcontent
    exact absurd hloads (not_jsonLoads_take hprinted hlength _)

end MarketIntelligence.Journey
