import MarketIntelligence.Journey.Requirements

/-!
# The state file over many runs

Calls of `prepare` and `resume` follow one another on one path, with any scenarios and
any runners, and each may fail or be interrupted at any operation. The state file is
absent at first, and then only moves on: to a prepared receipt, and to a complete one.
-/

namespace MarketIntelligence.Journey

open Python Interaction

variable {F : Type}

/-! ### Files and calls -/

/-- The state file and the temporary file next to it. -/
structure Disk where
  state : Option Str
  temporary : Option Str
  deriving DecidableEq

/-- The files after an operation that did what it is for, or that has left them alone; nothing
where the operation cannot end like this. -/
def Disk.after (d : Disk) : Event F → Option Disk
  | ⟨.stateExists, some there⟩ => if there = d.state.isSome then some d else none
  | ⟨.readState, some (.ok content)⟩ => if d.state = some content then some d else none
  | ⟨.writeState content, some _⟩ => some { d with state := some content }
  | ⟨.writeState _, none⟩ => none
  | ⟨.writeTemporary content, some _⟩ => some { d with temporary := some content }
  | ⟨.replaceState, some _⟩ => d.temporary.map fun content => ⟨some content, none⟩
  | _ => some d

/-- What becomes of the files in an operation. A write that fails may leave a beginning of its
text, or the file may not have been opened. -/
inductive Disk.Becomes (d : Disk) : Event F → Disk → Prop
  | after {x : Event F} {d' : Disk} : d.after x = some d' → d.Becomes x d'
  | cutTemporary (content : Str) (cut : ℕ) :
      d.Becomes ⟨.writeTemporary content, none⟩ { d with temporary := some (content.take cut) }
  | unopened (content : Str) : d.Becomes ⟨.writeState content, none⟩ d
  | cutState (content : Str) (cut : ℕ) :
      d.Becomes ⟨.writeState content, none⟩ { d with state := some (content.take cut) }

/-- A write of the state file in place that fails. -/
def Event.FailsInPlace : Event F → Prop
  | ⟨.writeState _, none⟩ => True
  | _ => False

/-- What becomes of the files, unless such a write fails. -/
def Disk.Proceeds (d : Disk) (x : Event F) (d' : Disk) : Prop :=
  d.Becomes x d' ∧ ¬x.FailsInPlace

/-- The files before and after some events, among which no write in place fails. -/
def Changes (d : Disk) (es : List (Event F)) (d' : Disk) : Prop :=
  Follows (fun d x d' => d.Proceeds x d') d es d'

/-- A call of the script. -/
inductive Call (F : Type)
  | prepare (scenario : Object F) (sourceTaskId : Str)
  | resume (scenario : Object F)

/-- A call that raised, or that an exception of the runner ended. -/
def Failed {α : Type} (o : Outcome (Raised JourneyError) α) : Prop :=
  o = .aborted ∨ ∃ e, o = .raised e

/-- Such an event is the failure of a write. -/
theorem Event.failsInPlace_iff {x : Event F} :
    x.FailsInPlace ↔ ∃ content, x = ⟨.writeState content, none⟩ := by
  constructor
  · obtain ⟨op, answer⟩ := x
    cases op with
    | writeState content =>
      cases answer with
      | none => exact fun _ => ⟨content, rfl⟩
      | some _ => exact False.elim
    | _ => exact False.elim
  · rintro ⟨content, rfl⟩
    trivial

/-- What an operation is for does not fail. -/
theorem proceeds_of_after {d d' : Disk} {x : Event F} (h : d.after x = some d') :
    d.Proceeds x d' := by
  refine ⟨.after h, fun hfails => ?_⟩
  obtain ⟨content, rfl⟩ := Event.failsInPlace_iff.mp hfails
  cases h

/-- Otherwise the write of the temporary file has failed. -/
theorem Disk.Proceeds.after_or_cut {d d' : Disk} {x : Event F} (h : d.Proceeds x d') :
    d.after x = some d' ∨ ∃ content cut, x = ⟨.writeTemporary content, none⟩ ∧
      d' = { d with temporary := some (content.take cut) } := by
  obtain ⟨hbecomes, hfails⟩ := h
  cases hbecomes with
  | after hafter => exact .inl hafter
  | cutTemporary content cut => exact .inr ⟨content, cut, rfl, rfl⟩
  | unopened content => exact absurd trivial hfails
  | cutState content cut => exact absurd trivial hfails

/-- An operation with an answer did what it is for. -/
theorem Disk.Proceeds.after_of_answered {d d' : Disk} {x : Event F} (h : d.Proceeds x d')
    (hanswer : x.answer ≠ none) : d.after x = some d' := by
  obtain hafter | ⟨content, cut, rfl, -⟩ := h.after_or_cut
  · exact hafter
  · exact absurd rfl hanswer

/-- Files that change as the operations are for. -/
theorem changes_of_foldlM {d d' : Disk} {es : List (Event F)}
    (h : es.foldlM Disk.after d = some d') : Changes d es d' :=
  (follows_of_foldlM h).mono fun _ _ _ _ => proceeds_of_after

/-- An operation that changes no file leaves them as they are. -/
theorem after_of_not_writes {d d' : Disk} {x : Event F} (h : x.op.writes = false)
    (hd : d.Proceeds x d') : d' = d := by
  obtain hd | ⟨content, cut, rfl, -⟩ := hd.after_or_cut
  swap
  · cases h
  obtain ⟨op, answer⟩ := x
  cases op with
  | writeState => cases h
  | writeTemporary => cases h
  | replaceState => cases h
  | json | failure | makeParents => cases answer <;> exact (Option.some.inj hd).symm
  | stateExists =>
    cases answer with
    | none => exact (Option.some.inj hd).symm
    | some there =>
      simp only [Disk.after, Option.ite_none_right_eq_some, Option.some.injEq] at hd
      exact hd.2.symm
  | readState =>
    cases answer with
    | none => exact (Option.some.inj hd).symm
    | some read =>
      cases read with
      | error e => exact (Option.some.inj hd).symm
      | ok content =>
        simp only [Disk.after, Option.ite_none_right_eq_some, Option.some.injEq] at hd
        exact hd.2.symm

/-- Nor do many of them. -/
theorem changes_of_quiet {d d' : Disk} {es : List (Event F)} (h : Quiet es)
    (hd : Changes d es d') : d' = d :=
  hd.preserves (P := fun t => t = d)
    (fun x hx _ _ hafter hs => (after_of_not_writes (h x hx) hafter).trans hs) rfl

/-- Writing the temporary file leaves the state file alone. -/
theorem state_of_writeTemporary {d d' : Disk} {content : Str} {answer : Option Unit}
    (hd : d.Proceeds (⟨.writeTemporary content, answer⟩ : Event F) d') : d'.state = d.state := by
  obtain hafter | ⟨_, _, -, rfl⟩ := hd.after_or_cut
  · have hsame := congrArg (Option.map Disk.state) hafter
    cases answer <;> exact (Option.some.inj hsame).symm
  · rfl

/-- Moving the temporary file fails, or it is the state file afterwards. -/
theorem after_replaceState {d d' : Disk} {answer : Option Unit}
    (hd : d.Proceeds (⟨.replaceState, answer⟩ : Event F) d') :
    answer = none ∧ d' = d ∨
      answer = some () ∧ ∃ content, d.temporary = some content ∧ d' = ⟨some content, none⟩ := by
  obtain hafter | ⟨_, _, hother, -⟩ := hd.after_or_cut
  · cases answer with
    | none => exact .inl ⟨rfl, (Option.some.inj hafter).symm⟩
    | some _ =>
      obtain ⟨content, hcontent, rfl⟩ := Option.map_eq_some_iff.mp hafter
      exact .inr ⟨rfl, content, hcontent, rfl⟩
  · cases hother

/-- The last event, and the files before it. -/
theorem changes_append_singleton {d d' : Disk} {es : List (Event F)} {x : Event F} :
    Changes d (es ++ [x]) d' ↔ ∃ t, Changes d es t ∧ t.Proceeds x d' := by
  unfold Changes
  rw [follows_append]
  refine exists_congr fun t => and_congr Iff.rfl ⟨fun h => ?_, fun h => .cons h (.nil d')⟩
  cases h with
  | cons hx hnil =>
    cases hnil
    exact hx

/-- A file that was found absent was absent at the start. -/
theorem absent_of_head {d d' : Disk} {es : List (Event F)}
    (h : es.head? = some ⟨.stateExists, some false⟩) (hd : Changes d es d') :
    d.state = none := by
  obtain ⟨rest, rfl⟩ := List.head?_eq_some_iff.mp h
  cases hd with
  | cons hx _ =>
    have hafter := hx.after_of_answered (by simp)
    simp only [Disk.after, Option.ite_none_right_eq_some] at hafter
    exact Option.not_isSome_iff_eq_none.mp (by simp [← hafter.1])

/-- A content that was read was in the file at the start. -/
theorem content_of_head {d d' : Disk} {es : List (Event F)} {content : Str}
    (h : es.head? = some ⟨.readState, some (.ok content)⟩) (hd : Changes d es d') :
    d.state = some content := by
  obtain ⟨rest, rfl⟩ := List.head?_eq_some_iff.mp h
  cases hd with
  | cons hx _ =>
    have hafter := hx.after_of_answered (by simp)
    simp only [Disk.after, Option.ite_none_right_eq_some] at hafter
    exact hafter.1

/-! ### What one call does -/

variable [PyFloat F]

/-- A call as a program. -/
def Call.program (script : Script F) (path : Str) : Call F → Phase F (Object F)
  | .prepare scenario sourceTaskId => Journey.prepare script scenario sourceTaskId path
  | .resume scenario => Journey.resume script scenario path

omit [PyFloat F] in
/-- An execution that failed did not end with a change. -/
theorem answer_of_failed {p : Phase F (Object F)} {past : List (Event F)} {x : Event F}
    {o : Outcome (Raised JourneyError) (Object F)} (ht : Trace p (past ++ [x]) o)
    (hfailed : Failed o) (hraised : ∀ e, o = .raised e → Quiet (past ++ [x])) :
    x.answer = none ∨ x.op.writes = false := by
  obtain rfl | ⟨e, rfl⟩ := hfailed
  · obtain ⟨init, op, hlast⟩ := ht.last_of_aborted
    obtain ⟨-, rfl⟩ := List.append_inj' hlast rfl |>.imp id (List.cons.inj · |>.1)
    exact .inl rfl
  · exact .inr (hraised e rfl x (by simp))

omit [PyFloat F] in
/-- Commands change no file. -/
theorem writes_of_isCommand {op : Action} (h : op.isCommand = true) : op.writes = false := by
  cases op with
  | json | failure => rfl
  | _ => cases h

/-- `prepare` leaves the state file alone, or it was absent and has a prepared state. A
call that failed leaves it alone. -/
theorem prepare_changes {script : Script F} {scenario : Object F} {sourceTaskId path : Str}
    {es : List (Event F)} {o : Outcome (Raised JourneyError) (Object F)} {d d' : Disk}
    (ht : Trace (prepare script scenario sourceTaskId path) es o) (hd : Changes d es d') :
    d'.state = d.state ∨ ¬Failed o ∧ d.state = none ∧
      ∃ content, es.getLast? = some ⟨.writeState content, some ()⟩ ∧
        d'.state = some content ∧ Prepared script scenario sourceTaskId content := by
  obtain ⟨hallowed, -, hraises⟩ := ht.meets (prepare_meets script scenario sourceTaskId path)
  obtain rfl | ⟨past, x, rfl⟩ := es.eq_nil_or_concat'
  · exact .inl (congrArg Disk.state (changes_of_quiet quiet_nil hd))
  obtain ⟨hfirst, -, hquiet, hwrites⟩ := hallowed.last
  obtain ⟨t, hpast, hx⟩ := changes_append_singleton.mp hd
  obtain rfl := changes_of_quiet hquiet hpast
  by_cases hwrite : x.op.writes = true
  · obtain ⟨content, hop, hprepared⟩ := hwrites hwrite
    obtain ⟨op, answer⟩ := x
    obtain rfl : op = .writeState content := hop
    cases answer with
    | none => exact absurd trivial hx.2
    | some _ =>
      obtain rfl := Option.some.inj (hx.after_of_answered (by simp))
      have hnot : ¬Failed o := fun hfailed => by
        obtain h | h := answer_of_failed ht hfailed fun e he => (hraises e he).1
        · cases h
        · cases h
      have habsent : t.state = none := by
        obtain ⟨-, hop⟩ | hhead := hfirst
        · cases hop
        · exact absent_of_head hhead hpast
      exact .inr ⟨hnot, habsent, content, by simp, rfl, hprepared⟩
  · exact .inl (congrArg Disk.state (after_of_not_writes (by simpa using hwrite) hx))

/-- `resume` leaves the state file alone, or it had a prepared receipt and has the
completed state. A call that failed leaves it alone. -/
theorem resume_changes {script : Script F} {scenario : Object F} {path : Str}
    {es : List (Event F)} {o : Outcome (Raised JourneyError) (Object F)} {d d' : Disk}
    (ht : Trace (resume script scenario path) es o) (hd : Changes d es d') :
    d'.state = d.state ∨ ¬Failed o ∧ ∃ content state content',
      es.getLast? = some ⟨.replaceState, some ()⟩ ∧ d.state = some content ∧
      jsonLoads script.py.limits content = .ok (.dict state) ∧ PreparedReceipt state ∧
      d'.state = some content' ∧ Completed script state content' := by
  obtain ⟨hallowed, -, hraises⟩ := ht.meets (resume_meets script scenario path)
  obtain rfl | ⟨past, x, rfl⟩ := es.eq_nil_or_concat'
  · exact .inl (congrArg Disk.state (changes_of_quiet quiet_nil hd))
  obtain ⟨t, hpast, hx⟩ := changes_append_singleton.mp hd
  obtain ⟨rfl, hop⟩ | ⟨state, ⟨content, hhead, hloads⟩, hreceipt, hallowed⟩ := hallowed.last
  · obtain rfl := changes_of_quiet quiet_nil hpast
    exact .inl (congrArg Disk.state (after_of_not_writes (by rw [hop]; rfl) hx))
  obtain ⟨hcommand, hquiet, -⟩ | ⟨content', hcompleted, ⟨hop, hquiet⟩ | ⟨hop, init, hquiet, rfl⟩⟩ :=
    hallowed
  · obtain rfl := changes_of_quiet hquiet hpast
    exact .inl (congrArg Disk.state (after_of_not_writes (writes_of_isCommand hcommand) hx))
  · obtain rfl := changes_of_quiet hquiet hpast
    obtain ⟨op, answer⟩ := x
    obtain rfl : op = .writeTemporary content' := hop
    exact .inl (state_of_writeTemporary hx)
  · obtain ⟨u, hinit, hwritten⟩ := changes_append_singleton.mp hpast
    obtain rfl := changes_of_quiet hquiet hinit
    obtain rfl := Option.some.inj (hwritten.after_of_answered (by simp))
    obtain ⟨op, answer⟩ := x
    obtain rfl : op = .replaceState := hop
    obtain ⟨-, rfl⟩ | ⟨rfl, moved, hmoved, rfl⟩ := after_replaceState hx
    · exact .inl rfl
    · obtain rfl := Option.some.inj hmoved
      have hnot : ¬Failed o := fun hfailed => by
        obtain h | h := answer_of_failed ht hfailed fun e he => (hraises e he).1
        · cases h
        · cases h
      exact .inr ⟨hnot, content, state, content', by simp, content_of_head hhead hpast, hloads,
        hreceipt, rfl, hcompleted⟩

/-- `prepare` is refused where the file exists: no command is issued, and nothing is
returned. -/
theorem prepare_refused {script : Script F} {scenario : Object F} {sourceTaskId path : Str}
    {es : List (Event F)} {o : Outcome (Raised JourneyError) (Object F)} {d d' : Disk}
    (hthere : d.state ≠ none)
    (ht : Trace (prepare script scenario sourceTaskId path) es o) (hd : Changes d es d') :
    commands es = [] ∧ ∀ state, o ≠ .returned state := by
  obtain ⟨hallowed, hreturns, -⟩ := ht.meets (prepare_meets script scenario sourceTaskId path)
  have honly : ∀ past x rest, es = past ++ x :: rest → x.op = .stateExists := by
    rintro past x rest rfl
    obtain ⟨⟨-, hop⟩ | hhead, -⟩ := hallowed past x rest rfl
    · exact hop
    · obtain ⟨t, hpast, -⟩ := follows_append.mp hd
      exact absurd (absent_of_head hhead hpast) hthere
  constructor
  · obtain hnone | ⟨past, x, rest, hes, hcommand, -⟩ := exists_last_command es
    · exact hnone
    · rw [honly past x rest hes] at hcommand
      cases hcommand
  · rintro state rfl
    obtain ⟨past, content, hes, -⟩ := hreturns state rfl
    cases honly past _ [] hes

/-- `resume` is refused where the file holds no prepared receipt. -/
theorem resume_refused {script : Script F} {scenario : Object F} {path : Str}
    {es : List (Event F)} {o : Outcome (Raised JourneyError) (Object F)} {d d' : Disk}
    (hother : ∀ content (state : Object F), d.state = some content →
      jsonLoads script.py.limits content = .ok (.dict state) → ¬PreparedReceipt state)
    (ht : Trace (resume script scenario path) es o) (hd : Changes d es d') :
    commands es = [] ∧ ∀ state, o ≠ .returned state := by
  obtain ⟨hallowed, hreturns, -⟩ := ht.meets (resume_meets script scenario path)
  have honly : ∀ past x rest, es = past ++ x :: rest → x.op = .readState := by
    rintro past x rest rfl
    obtain ⟨-, hop⟩ | ⟨state, ⟨content, hhead, hloads⟩, hreceipt, -⟩ := hallowed past x rest rfl
    · exact hop
    · obtain ⟨t, hpast, -⟩ := follows_append.mp hd
      exact absurd hreceipt (hother content state (content_of_head hhead hpast) hloads)
  constructor
  · obtain hnone | ⟨past, x, rest, hes, hcommand, -⟩ := exists_last_command es
    · exact hnone
    · rw [honly past x rest hes] at hcommand
      cases hcommand
  · rintro state rfl
    obtain ⟨past, _, _, -, -, -, hes⟩ := hreturns state rfl
    cases honly past _ _ hes

/-! ### Receipts in the file -/

/-- The fields of a prepared receipt. -/
def preparedFields : List String :=
  ["contract_version", "phase", "scenario_hash", "source_task_id", "stable_key", "proposal_id",
    "proposal_hash", "inspection_hash", "semantic_diff_hash", "review_receipt_id",
    "review_receipt_hash", "revision_id", "revision_hash", "head_id", "head_generation",
    "head_hash", "first_use"]

/-- The fields that are assigned when a receipt is completed. -/
def completionFields : List String :=
  ["phase", "restart_use", "lifecycle_receipt_id", "lifecycle_receipt_hash", "retired_head_hash",
    "post_retirement_failure"]

/-- A text that is read as a receipt of a phase, with all its fields. -/
def Receipt (script : Script F) (phase : String) (fields : List String) (content : Str) : Prop :=
  ∃ receipt : Object F, jsonLoads script.py.limits content = .ok (.dict receipt) ∧
    get receipt (lit "contract_version") = .str contractVersion ∧
    get receipt (lit "phase") = .str (lit phase) ∧
    ∀ field ∈ fields, hasKey receipt (lit field) = true

omit [PyFloat F] in
/-- The literals of the receipts are ASCII. -/
theorem encodable_literals : ∀ t ∈ [contractVersion, lit "prepared", lit "complete"] ++
    (preparedFields ++ completionFields).map lit, t.Encodable := by decide +kernel

omit [PyFloat F] in
/-- Such a literal is read back as it is. -/
theorem reloaded_literal {t : Str} (h : t ∈ [contractVersion, lit "prepared", lit "complete"]) :
    (Data.str t : Data F).reloaded true = .str t := by
  have ht := encodable_literals t (List.mem_append_left _ h)
  rw [Data.reloaded, Json.reread_of_noSplitPair (Json.noSplitPair_of_encodable ht)]

/-- The fields of a prepared state. -/
theorem preparedState_fields {script : Script F} {scenario state : Object F}
    {sourceTaskId key : Str} {reviewed : Reviewed F} {firstUse : Data F}
    (h : preparedState script scenario sourceTaskId key reviewed firstUse = .ok state) :
    state.map Prod.fst = preparedFields.map lit ∧
      get state (lit "contract_version") = .str contractVersion ∧
      get state (lit "phase") = .str (lit "prepared") := by
  simp only [preparedState, bind_eq_ok, pure_eq_ok, Except.ok.injEq] at h
  obtain ⟨_, -, _, -, _, -, _, -, _, -, _, -, _, -, _, -, _, -, _, -, rfl⟩ := h
  exact ⟨rfl, by simp, by simp⟩

/-- The fields of a completion. -/
theorem completion_fields {script : Script F} {restartUse : Data F}
    {receipt retiredHead members : Object F} {refusal : Str}
    (h : completion script restartUse receipt retiredHead refusal = .ok members) :
    ∃ rest, members = (lit "phase", .str (lit "complete")) :: rest ∧
      members.map Prod.fst = completionFields.map lit := by
  simp only [completion, bind_eq_ok, pure_eq_ok, Except.ok.injEq] at h
  obtain ⟨_, -, _, -, _, -, rfl⟩ := h
  exact ⟨_, rfl, rfl⟩

/-- A prepared state as it is read back from a file. -/
structure ReadBack (state : Object F) : Prop where
  receipt : PreparedReceipt state
  nodup : (state.map Prod.fst).Nodup
  fixed : ∀ m ∈ state, Json.reread true m.1 = m.1
  fields : ∀ key, hasKey state key = true ↔ key ∈ preparedFields.map lit
  values : ∀ key, ∃ x : Data F, get state key = x.reloaded true

/-- A prepared state that was written is read back member by member. -/
theorem preparedState_loads {script : Script F} {scenario state : Object F}
    {sourceTaskId key content : Str} {reviewed : Reviewed F} {firstUse : Data F}
    (h : preparedState script scenario sourceTaskId key reviewed firstUse = .ok state)
    (hcontent : receiptText script state = .ok content) :
    jsonLoads script.py.limits content = .ok (.dict (Data.reloadedDict true state)) ∧
      ∀ field, hasKey (Data.reloadedDict true state) field = hasKey state field ∧
        get (Data.reloadedDict true state) field = (get state field).reloaded true := by
  obtain ⟨hkeys, -, -⟩ := preparedState_fields h
  have hnodup : (state.map Prod.fst).Nodup := by
    rw [hkeys]
    decide +kernel
  have hfixed : ∀ m ∈ state, Json.reread true m.1 = m.1 := by
    refine fun m hm => Json.reread_of_noSplitPair (Json.noSplitPair_of_encodable ?_)
    have hliteral : m.1 ∈ preparedFields.map lit := hkeys ▸ List.mem_map_of_mem hm
    exact encodable_literals m.1 (by simp [hliteral])
  exact ⟨receiptText_loads hcontent, get_reloadedDict hnodup hfixed⟩

/-- A file with a prepared state is read back. -/
theorem prepared_loads {script : Script F} {scenario : Object F} {sourceTaskId content : Str}
    (h : Prepared script scenario sourceTaskId content) :
    ∃ state : Object F, jsonLoads script.py.limits content = .ok (.dict state) ∧
      ReadBack state := by
  obtain ⟨_, _, _, written, hwritten, htext⟩ := h
  obtain ⟨hkeys, hcontract, hphase⟩ := preparedState_fields hwritten
  obtain ⟨hloads, hget⟩ := preparedState_loads hwritten htext
  obtain ⟨hdistinct, hreread⟩ := reloadedDict_keys written
  exact ⟨_, hloads, {
    receipt := ⟨by rw [(hget _).2, hcontract, reloaded_literal (by simp)],
      by rw [(hget _).2, hphase, reloaded_literal (by simp)]⟩
    nodup := hdistinct
    fixed := hreread
    fields := fun key => by rw [(hget key).1, hasKey, hkeys, decide_eq_true_iff]
    values := fun key => ⟨_, (hget key).2⟩ }⟩

/-! ### The completed state -/

omit [PyFloat F] in
/-- The keys of an updated state are those of the state and the new ones. -/
theorem hasKey_updated {state members : Object F} {key : Str} :
    hasKey (updated state members) key = true ↔
      hasKey state key = true ∨ hasKey members key = true := by
  induction members generalizing state with
  | nil =>
    have hnone : hasKey ([] : Object F) key = false := rfl
    rw [hnone, show updated state [] = state from rfl]
    simp
  | cons m members ih =>
    have hstep : hasKey (updated state (m :: members)) key =
        hasKey (updated (dictInsert state m.1 m.2) members) key := rfl
    have hcons : hasKey (m :: members) key = true ↔ m.1 = key ∨ hasKey members key = true := by
      simp [hasKey, eq_comm]
    rw [hstep, ih, hasKey_dictInsert, hcons, Bool.or_eq_true, decide_eq_true_iff]
    tauto

omit [PyFloat F] in
/-- What is not assigned is what it was. -/
theorem get_updated (state : Object F) {members : Object F} {key : Str}
    (h : key ∉ members.map Prod.fst) : get (updated state members) key = get state key := by
  induction members generalizing state with
  | nil => rfl
  | cons m members ih =>
    obtain ⟨hm, hmembers⟩ := not_or.mp (mt List.mem_cons.mpr h)
    have hstep : get (updated state (m :: members)) key =
        get (updated (dictInsert state m.1 m.2) members) key := rfl
    rw [hstep, ih _ hmembers, get_dictInsert, if_neg (Ne.symm hm)]

omit [PyFloat F] in
/-- Updating keeps the keys distinct. -/
theorem updated_nodup {state : Object F} (members : Object F) (h : (state.map Prod.fst).Nodup) :
    ((updated state members).map Prod.fst).Nodup := by
  induction members generalizing state with
  | nil => exact h
  | cons m members ih => exact ih (dictInsert_nodup h)

omit [PyFloat F] in
/-- The members of an updated state are members of the state with other keys, or new ones. -/
theorem mem_updated {state members : Object F} {m : Str × Data F}
    (h : m ∈ updated state members) :
    m ∈ state ∧ m.1 ∉ members.map Prod.fst ∨ m ∈ members := by
  induction members generalizing state with
  | nil => exact .inl ⟨h, by simp⟩
  | cons n members ih =>
    obtain ⟨hm, hlater⟩ | hm := ih h
    · obtain rfl | ⟨hstate, hne⟩ := mem_dictInsert hm
      · exact .inr (by simp)
      · exact .inl ⟨hstate, by simpa [hne] using hlater⟩
    · exact .inr (List.mem_cons_of_mem _ hm)

/-- The fields of one receipt are fields of another, with values that are written alike,
but for the phase. -/
def Retains (script : Script F) (content content' : Str) : Prop :=
  ∃ receipt receipt' : Object F, jsonLoads script.py.limits content = .ok (.dict receipt) ∧
    jsonLoads script.py.limits content' = .ok (.dict receipt') ∧
    ∀ key, key ≠ lit "phase" → hasKey receipt key = true → hasKey receipt' key = true ∧
      ∀ l level, Json.encode l level (get receipt' key) = Json.encode l level (get receipt key)

/-- A completed state is read back as a complete receipt that retains the prepared one. -/
theorem completed_loads {script : Script F} {content content' : Str} {state : Object F}
    (hloads : jsonLoads script.py.limits content = .ok (.dict state)) (hstate : ReadBack state)
    (h : Completed script state content') :
    Receipt script "complete" (preparedFields ++ completionFields) content' ∧
      Retains script content content' := by
  obtain ⟨_, _, _, _, members, hmembers, htext⟩ := h
  obtain ⟨rest, hphase, hkeys⟩ := completion_fields hmembers
  have hfixed : ∀ m ∈ updated state members, Json.reread true m.1 = m.1 := by
    intro m hm
    obtain ⟨hold, -⟩ | hnew := mem_updated hm
    · exact hstate.fixed m hold
    · have hliteral : m.1 ∈ completionFields.map lit := hkeys ▸ List.mem_map_of_mem hnew
      exact Json.reread_of_noSplitPair (Json.noSplitPair_of_encodable
        (encodable_literals m.1 (by simp [hliteral])))
  have hget := get_reloadedDict (updated_nodup members hstate.nodup) hfixed
  have hkept (key : Str) (hkey : key ∈ preparedFields.map lit) (hne : key ≠ lit "phase") :
      get (updated state members) key = get state key := by
    refine get_updated state (hkeys ▸ ?_)
    have hdisjoint : ∀ key ∈ preparedFields.map lit, key ≠ lit "phase" →
        key ∉ completionFields.map lit := by decide +kernel
    exact hdisjoint key hkey hne
  have hcomplete : get (updated state members) (lit "phase") = .str (lit "complete") := by
    have hrest : lit "phase" ∉ rest.map Prod.fst := by
      have htail : rest.map Prod.fst = completionFields.tail.map lit := by
        rw [hphase] at hkeys
        exact (List.cons.inj hkeys).2
      rw [htail]
      decide +kernel
    rw [hphase]
    exact (get_updated (dictInsert state _ _) hrest).trans (by simp)
  refine ⟨⟨_, receiptText_loads htext, ?_, ?_, fun field hfield => ?_⟩,
    state, _, hloads, receiptText_loads htext, fun key hne hkey => ⟨?_, fun l level => ?_⟩⟩
  · rw [(hget _).2, hkept _ (by decide +kernel) (by decide +kernel), hstate.receipt.contract,
      reloaded_literal (by simp)]
  · rw [(hget _).2, hcomplete, reloaded_literal (by simp)]
  · rw [(hget _).1, hasKey_updated, hstate.fields]
    obtain hold | hnew := List.mem_append.mp hfield
    · exact .inl (List.mem_map_of_mem hold)
    · exact .inr (decide_eq_true (hkeys ▸ List.mem_map_of_mem hnew))
  · rw [(hget key).1, hasKey_updated]
    exact .inl hkey
  · obtain ⟨x, hx⟩ := hstate.values key
    rw [(hget key).2, hkept key ((hstate.fields key).mp hkey) hne, hx]
    exact encode_reloaded l x level

/-! ### Many calls -/

/-- What a call may do to the content of the state file. -/
inductive Advances (script : Script F) : Option Str → Option Str → Prop
  | stays (file : Option Str) : Advances script file file
  | prepared {content : Str} : Receipt script "prepared" preparedFields content →
      Advances script none (some content)
  | completed {content content' : Str} : Receipt script "prepared" preparedFields content →
      Receipt script "complete" (preparedFields ++ completionFields) content' →
      Retains script content content' → Advances script (some content) (some content')

/-- The files that sequences of calls can leave, from an absent state file on. -/
inductive Reached (script : Script F) (path : Str) : Disk → Prop
  | absent (temporary : Option Str) : Reached script path ⟨none, temporary⟩
  | call {d d' : Disk} {es : List (Event F)} {o : Outcome (Raised JourneyError) (Object F)}
      (c : Call F) : Reached script path d → Trace (c.program script path) es o →
      Changes d es d' → Reached script path d'

/-- The content of the state file after some calls. -/
inductive Written (script : Script F) : Option Str → Prop
  | absent : Written script none
  | prepared {scenario : Object F} {sourceTaskId content : Str} :
      Prepared script scenario sourceTaskId content → Written script (some content)
  | completed {content : Str} :
      Receipt script "complete" (preparedFields ++ completionFields) content →
      Written script (some content)

/-- A file whose text is read back as a prepared state holds a prepared receipt. -/
theorem ReadBack.isReceipt {script : Script F} {content : Str} {state : Object F}
    (h : ReadBack state) (hloads : jsonLoads script.py.limits content = .ok (.dict state)) :
    Receipt script "prepared" preparedFields content :=
  ⟨state, hloads, h.receipt.contract, h.receipt.phase, fun field hfield =>
    (h.fields (lit field)).mpr (List.mem_map_of_mem hfield)⟩

/-- A prepared state is a prepared receipt. -/
theorem Prepared.isReceipt {script : Script F} {scenario : Object F} {sourceTaskId content : Str}
    (h : Prepared script scenario sourceTaskId content) :
    Receipt script "prepared" preparedFields content := by
  obtain ⟨state, hloads, hstate⟩ := prepared_loads h
  exact hstate.isReceipt hloads

/-- A complete receipt is not a prepared one. -/
theorem not_preparedReceipt_of_complete {script : Script F} {content : Str} {state : Object F}
    {fields : List String} (h : Receipt script "complete" fields content)
    (hloads : jsonLoads script.py.limits content = .ok (.dict state)) :
    ¬PreparedReceipt state := by
  obtain ⟨receipt, hreceipt, -, hphase, -⟩ := h
  obtain rfl : receipt = state := by simpa [hloads, eq_comm] using hreceipt
  intro hprepared
  rw [hprepared.phase] at hphase
  simp at hphase

/-- One call keeps the content in order and advances it. -/
theorem call_advances {script : Script F} {path : Str} {c : Call F} {es : List (Event F)}
    {o : Outcome (Raised JourneyError) (Object F)} {d d' : Disk} (hwritten : Written script d.state)
    (ht : Trace (c.program script path) es o) (hd : Changes d es d') :
    Written script d'.state ∧ Advances script d.state d'.state ∧
      (Failed o → d'.state = d.state) := by
  cases c with
  | prepare scenario sourceTaskId =>
    obtain hsame | ⟨hnot, habsent, content, -, hcontent, hprepared⟩ := prepare_changes ht hd
    · rw [hsame]
      exact ⟨hwritten, .stays _, fun _ => rfl⟩
    · rw [habsent, hcontent]
      exact ⟨.prepared hprepared, .prepared hprepared.isReceipt, fun h => absurd h hnot⟩
  | resume scenario =>
    obtain hsame | ⟨hnot, content, state, content', -, hcontent, hloads, hreceipt, hcontent',
      hcompleted⟩ := resume_changes ht hd
    · rw [hsame]
      exact ⟨hwritten, .stays _, fun _ => rfl⟩
    · rw [hcontent] at hwritten ⊢
      rw [hcontent']
      cases hwritten with
      | completed hcomplete =>
        exact absurd hreceipt (not_preparedReceipt_of_complete hcomplete hloads)
      | prepared hprepared =>
        obtain ⟨read, hread, hback⟩ := prepared_loads hprepared
        obtain rfl : read = state := by simpa [hloads, eq_comm] using hread
        obtain ⟨hcomplete, hretains⟩ := completed_loads hloads hback hcompleted
        exact ⟨.completed hcomplete, .completed hprepared.isReceipt hcomplete hretains,
          fun h => absurd h hnot⟩

/-- Sequences of calls keep it in order. -/
theorem Reached.written {script : Script F} {path : Str} {d : Disk}
    (hd : Reached script path d) : Written script d.state := by
  induction hd with
  | absent => exact .absent
  | call c _ ht hchanges ih => exact (call_advances ih ht hchanges).1

/-- The calls that must be refused. -/
def Call.Refused (script : Script F) (file : Option Str) : Call F → Prop
  | .prepare _ _ => file ≠ none
  | .resume _ => ∃ content, file = some content ∧
      Receipt script "complete" (preparedFields ++ completionFields) content

/-- After any calls the state file is absent, a prepared receipt or a complete one. The
next call advances it in this order, or leaves it as it is, which it does if it fails. A
second `prepare`, and `resume` on a complete receipt, issue no command and fail. -/
theorem stateFile_advances (script : Script F) (path : Str) {d : Disk}
    (hd : Reached script path d) :
    (d.state = none ∨ ∃ content, d.state = some content ∧
      (Receipt script "prepared" preparedFields content ∨
        Receipt script "complete" (preparedFields ++ completionFields) content)) ∧
    ∀ (c : Call F) es o d', Trace (c.program script path) es o → Changes d es d' →
      Advances script d.state d'.state ∧ (Failed o → d'.state = d.state) ∧
      (c.Refused script d.state → commands es = [] ∧ ∀ state, o ≠ .returned state) := by
  constructor
  · obtain ⟨file, temporary⟩ := d
    cases hd.written with
    | absent => exact .inl rfl
    | prepared h => exact .inr ⟨_, rfl, .inl h.isReceipt⟩
    | completed h => exact .inr ⟨_, rfl, .inr h⟩
  · intro c es o d' ht hchanges
    obtain ⟨-, hadvances, hfailed⟩ := call_advances hd.written ht hchanges
    refine ⟨hadvances, hfailed, fun hrefused => ?_⟩
    cases c with
    | prepare => exact prepare_refused hrefused ht hchanges
    | resume =>
      obtain ⟨content, hcontent, hcomplete⟩ := hrefused
      refine resume_refused (fun other state hother hloads => ?_) ht hchanges
      obtain rfl : content = other := by simpa [hcontent] using hother
      exact not_preparedReceipt_of_complete hcomplete hloads

/-- The files after resuming the sample. -/
def sampleDisk : Disk :=
  (sampleResumed.foldlM Disk.after ⟨some sampleContent, none⟩).getD ⟨none, none⟩

/-- The two phases of the sample write the file and replace it. -/
theorem sample_files :
    samplePrepared.foldlM Disk.after ⟨none, none⟩ = some ⟨some sampleContent, none⟩ ∧
      sampleResumed.foldlM Disk.after ⟨some sampleContent, none⟩ = some sampleDisk ∧
      sampleDisk.state ≠ some sampleContent := by decide +kernel

/-- The files before and after preparing the sample. -/
theorem samplePrepared_files : Changes ⟨none, none⟩ samplePrepared ⟨some sampleContent, none⟩ :=
  changes_of_foldlM sample_files.1

/-- The files before and after resuming the sample. -/
theorem sampleResumed_files : Changes ⟨some sampleContent, none⟩ sampleResumed sampleDisk :=
  changes_of_foldlM sample_files.2.1

/-- The sample's receipt is in a file that `prepare` left. -/
theorem sampleContent_reached :
    Reached sampleScript (lit "state") ⟨some sampleContent, none⟩ :=
  .call (.prepare sampleScenario (lit "task")) (.absent none) samplePrepared_trace
    samplePrepared_files

/-- The sample journey takes the file through both moves. -/
theorem sampleJourney_advances :
    sampleDisk.state ≠ some sampleContent ∧
    Advances sampleScript none (some sampleContent) ∧
    Advances sampleScript (some sampleContent) sampleDisk.state :=
  ⟨sample_files.2.2,
    ((stateFile_advances sampleScript (lit "state") (.absent none)).2
      (.prepare sampleScenario (lit "task")) samplePrepared _ _ samplePrepared_trace
      samplePrepared_files).1,
    ((stateFile_advances sampleScript (lit "state") sampleContent_reached).2
      (.resume sampleScenario) sampleResumed _ _ sampleResumed_trace sampleResumed_files).1⟩

end MarketIntelligence.Journey
