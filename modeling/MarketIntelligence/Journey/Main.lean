import MarketIntelligence.Interaction.Embedding
import MarketIntelligence.Interaction.Rely
import MarketIntelligence.Journey.Concurrent
import MarketIntelligence.Journey.Runner

/-!
# The command line tool

`main` reads the scenario, runs one phase over the public CLI, and prints the receipt. Its
operations are the processes of the CLI, the accesses to the files, and the print. Any of them
may fail, and a write that fails may leave a part of its text. What `main` prints is what is in
the state file when it prints.
-/

namespace MarketIntelligence.Journey

open Python Interaction

/-! ### The program -/

/-- An exception of `main`. -/
inductive MainError
  | journey (e : JourneyError)
  /-- `SystemExit`. -/
  | systemExit (message : Str)

/-- An exception of a phase, as one of `main`. -/
def ofJourney : Raised JourneyError → Raised MainError
  | .own e => .own (.journey e)
  | .builtin e => .builtin e
  | .foreign => .foreign

/-- A computation of a phase, as one of `main`. -/
def ofChecked {α : Type} : Checked α → Except (Raised MainError) α
  | .ok a => .ok a
  | .error e => .error (ofJourney e)

/-- The choices of the argument `phase`. -/
inductive PhaseName
  | prepare
  | resume

/-- The parsed arguments. -/
structure Arguments where
  phase : PhaseName
  url : Str
  scenario : Str
  stateFile : Str
  sourceTask : Option Str

/-- An operation of `main`. -/
inductive MainAction
  /-- `args.scenario.read_text(encoding="utf-8")`. -/
  | readScenario
  /-- `subprocess.run`, until the process has finished. -/
  | run (command : List Str)
  | stateExists
  | readState
  | makeParents
  | writeState (content : Str)
  | writeTemporary (content : Str)
  | replaceState
  /-- `print(line)`, which writes a line break behind it. -/
  | print (line : Str)

/-- What an operation of `main` returns. -/
abbrev MainResponse : MainAction → Type
  | .readScenario => Except BuiltinError Str
  | .run _ => CompletedProcess
  | .stateExists => Bool
  | .readState => Except BuiltinError Str
  | .makeParents => Unit
  | .writeState _ => Unit
  | .writeTemporary _ => Unit
  | .replaceState => Unit
  | .print _ => Unit

/-- An operation of `main` with its response. -/
abbrev MainEvent : Type := Exchange MainAction MainResponse

/-- An operation of a phase, with `AceCliRunner` as its runner. -/
def mainAction (url : Str) : Action → MainAction
  | .json arguments => .run (commandLine url arguments)
  | .failure arguments => .run (commandLine url arguments)
  | .stateExists => .stateExists
  | .readState => .readState
  | .makeParents => .makeParents
  | .writeState content => .writeState content
  | .writeTemporary content => .writeTemporary content
  | .replaceState => .replaceState

variable {F : Type} [PyFloat F]

/-- What the runner makes of a response. -/
def ofMain (limits : Limits) (url : Str) :
    (op : Action) → MainResponse (mainAction url op) → Checked (Response F op)
  | .json _, completed => cliJson limits completed
  | .failure _, completed => cliFailure completed
  | .stateExists, found => .ok found
  | .readState, content => .ok content
  | .makeParents, done => .ok done
  | .writeState _, done => .ok done
  | .writeTemporary _, done => .ok done
  | .replaceState, done => .ok done

/-- A part of `main`. -/
abbrev MainProgram (α : Type) : Type :=
  Program MainAction MainResponse (Raised MainError) α

/-- A phase as a part of `main`. -/
def runPhase {α : Type} (script : Script F) (url : Str) (phase : Phase F α) : MainProgram α :=
  (phase.checked (startCommand url)).within (mainAction url) (ofMain script.py.limits url) ofJourney

/-- The phase that the arguments choose. -/
def chosenPhase (script : Script F) (a : Arguments) (scenario : Object F) :
    MainProgram (Object F) :=
  match a.phase with
  | .prepare =>
      match a.sourceTask with
      | none | some [] => .fail (.own (.systemExit (lit "--source-task is required for prepare")))
      | some (c :: task) => runPhase script a.url (prepare script scenario (c :: task) a.stateFile)
  | .resume => runPhase script a.url (resume script scenario a.stateFile)

/-- `main`, with the parsed arguments. -/
def main (script : Script F) (a : Arguments) : MainProgram ℕ := do
  let content ← Program.ask .readScenario Program.done
  let scenario ← .ofExcept (ofChecked (loadObject script a.scenario content))
  let result ← chosenPhase script a scenario
  let line ← .ofExcept (ofBuiltin (Data.dumps script.py Json.Layout.indented (.dict result)))
  Program.ask (.print line) Program.done
  return 0

/-! ### The files -/

/-- An event at the files of the journey, as a phase has it. -/
def MainEvent.file : MainEvent → Option (Event Unit)
  | ⟨.stateExists, found⟩ => some ⟨.stateExists, found⟩
  | ⟨.readState, content⟩ => some ⟨.readState, content⟩
  | ⟨.writeState content, done⟩ => some ⟨.writeState content, done⟩
  | ⟨.writeTemporary content, done⟩ => some ⟨.writeTemporary content, done⟩
  | ⟨.replaceState, done⟩ => some ⟨.replaceState, done⟩
  | _ => none

/-- What becomes of the files in an event of `main`. -/
def Disk.MainBecomes (d : Disk) (x : MainEvent) (d' : Disk) : Prop :=
  match x.file with
  | some event => d.Becomes event d'
  | none => d' = d

/-- The files before and after some events of `main`. -/
def MainChanges (d : Disk) (es : List MainEvent) (d' : Disk) : Prop :=
  Follows (fun d x d' => d.MainBecomes x d') d es d'

/-- The files before and after some events of a phase, with any failures. -/
def AllChanges (d : Disk) (es : List (Event F)) (d' : Disk) : Prop :=
  Follows (fun d x d' => d.Becomes x d') d es d'

variable {script : Script F} {limits : Limits} {url : Str}

/-- What becomes of the files in an event of a part of `main` is what becomes of them in the
event of the phase. -/
theorem becomes_of_seen {d d' : Disk} {x : MainEvent} {y : Event F}
    (h : Seen (mainAction url) (ofMain (F := F) limits url) x y) (hd : d.MainBecomes x d') :
    d.Becomes y d' := by
  cases h with
  | @answered op raw a hdecode =>
    cases op with
    | json | failure | makeParents =>
      obtain rfl : d' = d := hd
      exact .after rfl
    | readState =>
      obtain rfl := Except.ok.inj hdecode
      have hfile : d.Becomes (⟨.readState, some raw⟩ : Event Unit) d' := hd
      cases hfile with
      | after hafter => cases raw <;> exact .after hafter
    | stateExists | writeState | writeTemporary | replaceState =>
      obtain rfl := Except.ok.inj hdecode
      have hfile := hd
      unfold Disk.MainBecomes at hfile
      dsimp only [mainAction, MainEvent.file] at hfile
      cases hfile with
      | after hafter => exact .after hafter
  | @undecoded op raw e hdecode =>
    cases op with
    | json | failure =>
      obtain rfl : d' = d := hd
      exact .after rfl
    | _ => cases hdecode
  | unanswered op =>
    cases op with
    | json | failure | makeParents =>
      obtain rfl : d' = d := hd
      exact .after rfl
    | stateExists | readState | replaceState =>
      have hfile := hd
      unfold Disk.MainBecomes at hfile
      dsimp only [mainAction, MainEvent.file] at hfile
      cases hfile with
      | after hafter => exact .after hafter
    | writeState content =>
      have hfile : d.Becomes (⟨.writeState content, none⟩ : Event Unit) d' := hd
      cases hfile with
      | after hafter => cases hafter
      | unopened => exact .unopened content
      | cutState _ cut => exact .cutState content cut
    | writeTemporary content =>
      have hfile : d.Becomes (⟨.writeTemporary content, none⟩ : Event Unit) d' := hd
      cases hfile with
      | after hafter => exact .after hafter
      | cutTemporary _ cut => exact .cutTemporary content cut

/-- So it is for many of them. -/
theorem changes_of_seen {d d' : Disk} {es : List MainEvent} {fs : List (Event F)}
    (h : List.Forall₂ (Seen (mainAction url) (ofMain (F := F) limits url)) es fs)
    (hd : MainChanges d es d') : AllChanges d fs d' := by
  induction h generalizing d with
  | nil =>
    cases hd
    exact .nil _
  | cons hx _ ih =>
    cases hd with
    | cons hbecomes hrest => exact .cons (becomes_of_seen hx hbecomes) (ih hrest)

/-- The last event is the last one of the phase. -/
theorem last_of_seen {es : List MainEvent} {fs : List (Event F)} {y : Event F}
    (h : List.Forall₂ (Seen (mainAction url) (ofMain (F := F) limits url)) es fs)
    (hlast : fs.getLast? = some y) :
    ∃ x, es.getLast? = some x ∧ Seen (mainAction url) (ofMain (F := F) limits url) x y := by
  induction h with
  | nil => cases hlast
  | @cons x z _ _ hx hrest ih =>
    cases hrest with
    | nil =>
      obtain rfl := Option.some.inj hlast
      exact ⟨x, rfl, hx⟩
    | cons => exact ih hlast

/-- A write of the state file is one of the phase. -/
theorem eq_of_seen_writeState {x : MainEvent} {content : Str} {answer : Option Unit}
    (h : Seen (mainAction url) (ofMain (F := F) limits url) x ⟨.writeState content, answer⟩) :
    x = ⟨.writeState content, answer⟩ := by
  cases h with
  | answered => rfl
  | undecoded hdecode => cases hdecode
  | unanswered => rfl

/-- A move of the temporary file is one of the phase. -/
theorem eq_of_seen_replaceState {x : MainEvent} {answer : Option Unit}
    (h : Seen (mainAction url) (ofMain (F := F) limits url) x ⟨.replaceState, answer⟩) :
    x = ⟨.replaceState, answer⟩ := by
  cases h with
  | answered => rfl
  | undecoded hdecode => cases hdecode
  | unanswered => rfl

omit [PyFloat F] in
/-- Where no write in place fails, or in a failing one at the end. -/
theorem changes_or_fails {p : Phase F (Object F)} {es : List (Event F)}
    {o : Outcome (Raised JourneyError) (Object F)} {d d' : Disk} (ht : Trace p es o)
    (hd : AllChanges d es d') :
    Changes d es d' ∨ ∃ past content t, es = past ++ [⟨.writeState content, none⟩] ∧
      o = .aborted ∧ Changes d past t ∧ t.Becomes (⟨.writeState content, none⟩ : Event F) d' := by
  by_cases hfails : ∃ x ∈ es, Event.FailsInPlace x
  · obtain ⟨x, hx, hfails⟩ := hfails
    obtain ⟨content, rfl⟩ := Event.failsInPlace_iff.mp hfails
    obtain ⟨past, rest, rfl⟩ := List.append_of_mem hx
    obtain ⟨rfl, rfl⟩ := ht.unanswered rfl
    obtain ⟨t, hpast, hlast⟩ := follows_append.mp hd
    refine .inr ⟨past, content, t, rfl, rfl, hpast.mono fun y hy _ _ hstep => ⟨hstep, ?_⟩, ?_⟩
    · -- An earlier failure would have ended the execution.
      intro hfails
      obtain ⟨other, rfl⟩ := Event.failsInPlace_iff.mp hfails
      obtain ⟨before, after, rfl⟩ := List.append_of_mem hy
      rw [List.append_assoc] at ht
      have hnothing := (ht.unanswered rfl).1
      simp at hnothing
    · cases hlast with
      | cons hx hnil =>
        cases hnil
        exact hx
  · refine .inl (hd.mono fun x hx _ _ hstep => ⟨hstep, fun h => hfails ⟨x, hx, h⟩⟩)

/-- A part of `main` prints nothing. -/
theorem not_print_of_seen {es : List MainEvent} {fs : List (Event F)}
    (h : List.Forall₂ (Seen (mainAction url) (ofMain (F := F) limits url)) es fs) :
    ∀ x ∈ es, ∀ line, x.op ≠ .print line := by
  induction h with
  | nil => simp
  | cons hx _ ih =>
    refine List.forall_mem_cons.mpr ⟨fun line => ?_, ih⟩
    cases hx with
    | @answered op => cases op <;> simp [mainAction]
    | @undecoded op => cases op <;> simp [mainAction]
    | unanswered op => cases op <;> simp [mainAction]

/-! ### The receipt that is returned -/

omit [PyFloat F] in
/-- Whitespace of JSON is whitespace. -/
theorem isSpace_of_isWs {c : Chr} (h : Json.isWs c = true) : c.isSpace = true := by
  simp only [Json.isWs, Bool.or_eq_true, beq_iff_eq] at h
  simp only [Chr.isSpace, Bool.or_eq_true, Bool.and_eq_true, decide_eq_true_eq, beq_iff_eq]
  omega

/-- A printed receipt begins with a brace. -/
theorem head_of_receiptText {receipt : Object F} {content : Str}
    (h : receiptText script receipt = .ok content) :
    ∃ rest, content = (('{' : Char) : Chr) :: rest := by
  obtain ⟨printed, hprinted, rfl⟩ := receiptText_eq_ok.mp h
  obtain ⟨_, -, hencoded⟩ := bind_eq_ok.mp hprinted
  obtain rfl := Except.ok.inj hencoded
  rw [Json.encode]
  by_cases hempty : receipt.isEmpty = true
  · rw [if_pos hempty]
    exact ⟨_, rfl⟩
  · rw [if_neg hempty]
    exact ⟨_, rfl⟩

/-- The search for a receipt in a printed receipt finds what is loaded from it. -/
theorem parseJsonOutput_receiptText {receipt : Object F} {content : Str}
    (h : receiptText script receipt = .ok content) :
    parseJsonOutput script.py.limits content = .ok (Data.reloadedDict true receipt) := by
  have hloads := receiptText_loads h
  obtain ⟨rest, rfl⟩ := head_of_receiptText h
  have hskip : Json.skipWs ((('{' : Char) : Chr) :: rest) = (('{' : Char) : Chr) :: rest :=
    Json.skipWs_cons (by decide)
  have hbom : ((('{' : Char) : Chr) :: rest).head? ≠ some (chr 0xFEFF) := by
    simp only [List.head?_cons, ne_eq, Option.some.injEq]
    decide
  unfold jsonLoads Json.loads at hloads
  rw [if_neg hbom, hskip] at hloads
  rw [parseJsonOutput, if_neg (by simp)]
  cases hdecode : Json.rawDecode (dataHooks (F := F) script.py.limits) script.py.limits.nesting
      ((('{' : Char) : Chr) :: rest) with
  | error e => cases e <;> simp [hdecode] at hloads
  | ok decoded =>
    obtain ⟨value, behind⟩ := decoded
    by_cases hend : Json.skipWs behind = []
    · have hstrip : Str.strip behind = [] := strip_eq_nil.mpr fun c hc =>
        isSpace_of_isWs (List.dropWhile_eq_nil_iff.mp hend c hc)
      obtain rfl : value = .dict (Data.reloadedDict true receipt) := by
        simpa [hdecode, hend] using hloads
      simp [hstrip]
    · simp [hdecode, hend] at hloads

/-- A receipt that `resume` returns was printed to the temporary file, which was then moved. -/
theorem resume_printed {scenario result : Object F} {path : Str} {es : List (Event F)}
    (ht : Trace (resume script scenario path) es (.returned result)) :
    ∃ past content, es = past ++ [⟨.writeTemporary content, some ()⟩,
      ⟨.replaceState, some ()⟩] ∧
      receiptText script result = .ok content := by
  have hq : Beyond (.done result : Phase F (Object F)) := beyond_done result
  have h := after_done_iff.mpr ht
  obtain ⟨state, revision, head, revisionId, headId, stableKey, before, _, hbefore, -, h⟩ :=
    after_resume hq.not_failed (.inr hq) h
  obtain ⟨task, selection, use, a, hashes, receipt, retiredHead, arguments, used, retired, left,
    hrest, -, -, -, h⟩ := after_resumeUnchanged hq h
  obtain ⟨-, hnext⟩ | ⟨refusal, _, hrefusal, h⟩ := h.of_ask
  · cases hnext
  · unfold replaceWith writeTemporary replaceState at h
    simp only [Program.bind_assoc] at h
    obtain ⟨_, -, h⟩ := h.of_ofExcept hq.not_failed
    obtain ⟨members, -, h⟩ := h.of_ofExcept hq.not_failed
    obtain ⟨content, hcontent, h⟩ := h.of_ofExcept hq.not_failed
    obtain ⟨_, _, hwritten, h⟩ := h.of_other (by simp)
    obtain ⟨_, _, hreplaced, h⟩ := h.of_other (by simp)
    obtain ⟨hend, hdone⟩ := after_done h
    obtain rfl := Program.done.inj hdone
    refine ⟨before ++ (used ++ (retired ++ [⟨.failure arguments, some refusal⟩])), content, ?_,
      hcontent⟩
    rw [hbefore, hrest, hrefusal, hwritten, hreplaced, hend]
    simp

/-- The last event of a call is its write of a receipt: where there was no state file, or in the
place of one. -/
def CallWrote (d : Disk) (es : List (Event F)) (content : Str) : Prop :=
  d.state = none ∧ es.getLast? = some ⟨.writeState content, some ()⟩ ∨
  d.state ≠ none ∧ es.getLast? = some ⟨.replaceState, some ()⟩

/-- A call that has returned leaves its printed receipt in the state file. -/
theorem returned_file {c : Call F} {path : Str} {es : List (Event F)} {result : Object F}
    {d d' : Disk} (ht : Trace (c.program script path) es (.returned result))
    (hd : Changes d es d') :
    ∃ content, receiptText script result = .ok content ∧ d'.state = some content ∧
      CallWrote d es content := by
  cases c with
  | prepare scenario sourceTaskId =>
    obtain ⟨content, r, taught, review, task, selection, use, a, h⟩ := prepare_returned ht
    obtain ⟨key, hashes, before, used, -, -, -, -, hes⟩ := h.gathered
    have hsplit : es = (⟨.stateExists, some false⟩ :: (before ++ (used ++
        [⟨.stateExists, some false⟩, ⟨.makeParents, some ()⟩]))) ++
        [⟨.writeState content, some ()⟩] := by
      rw [hes]
      simp
    have habsent : d.state = none := absent_of_head (by rw [hes]; rfl) hd
    obtain ⟨t, -, hwrite⟩ := changes_append_singleton.mp (hsplit ▸ hd)
    exact ⟨content, h.printed, (after_writeState hwrite).2, .inl ⟨habsent,
      hsplit ▸ List.getLast?_concat⟩⟩
  | resume scenario =>
    obtain ⟨past, content, hes, hprinted⟩ := resume_printed ht
    obtain ⟨-, hreturns, -⟩ := ht.meets (resume_meets script scenario path)
    obtain ⟨loaded, state, _, ⟨there, hhead, -⟩, -, -, hloaded⟩ := hreturns result rfl
    have hthere : d.state = some there :=
      content_of_head (by rw [← List.nil_append es, hloaded]; simp [hhead]) hd
    have hsplit : es = (past ++ [⟨.writeTemporary content, some ()⟩]) ++
        [⟨.replaceState, some ()⟩] := by
      rw [hes]
      simp
    obtain ⟨t, hpast, hmove⟩ := changes_append_singleton.mp (hsplit ▸ hd)
    obtain ⟨u, -, hwrite⟩ := changes_append_singleton.mp hpast
    obtain rfl := Option.some.inj (hwrite.after_of_answered (by simp))
    obtain rfl := Option.some.inj (hmove.after_of_answered (by simp))
    exact ⟨content, hprinted, rfl, .inr ⟨by simp [hthere],
      hsplit ▸ List.getLast?_concat⟩⟩

/-- A call leaves the state file alone, or it has not failed and has just written a receipt. -/
theorem call_file {c : Call F} {path : Str} {es : List (Event F)}
    {o : Outcome (Raised JourneyError) (Object F)} {d d' : Disk}
    (ht : Trace (c.program script path) es o) (hd : Changes d es d') :
    d'.state = d.state ∨ ¬Failed o ∧ ∃ receipt content, receiptText script receipt = .ok content ∧
      d'.state = some content ∧ CallWrote d es content := by
  cases c with
  | prepare scenario sourceTaskId =>
    obtain hsame | ⟨hnot, habsent, content, hlast, hstate, _, _, _, state, -, hprinted⟩ :=
      prepare_changes ht hd
    · exact .inl hsame
    · exact .inr ⟨hnot, state, content, hprinted, hstate, .inl ⟨habsent, hlast⟩⟩
  | resume scenario =>
    obtain hsame | ⟨hnot, there, state, content, hlast, hthere, -, -, hstate, _, _, _, _, members,
      -, hprinted⟩ := resume_changes ht hd
    · exact .inl hsame
    · exact .inr ⟨hnot, _, content, hprinted, hstate, .inr ⟨by simp [hthere], hlast⟩⟩

/-- A call whose write in place has failed had found no state file, and leaves none, or a
beginning of a receipt. -/
theorem failed_in_place {c : Call F} {path : Str} {past : List (Event F)} {content : Str}
    {o : Outcome (Raised JourneyError) (Object F)} {d t d' : Disk}
    (ht : Trace (c.program script path) (past ++ [⟨.writeState content, none⟩]) o)
    (hpast : Changes d past t) (hlast : t.Becomes (⟨.writeState content, none⟩ : Event F) d') :
    d.state = none ∧ ∃ receipt, receiptText script receipt = .ok content ∧
      (d'.state = none ∨ ∃ cut, d'.state = some (content.take cut)) := by
  cases c with
  | prepare scenario sourceTaskId =>
    obtain ⟨hallowed, -, -⟩ := ht.meets (prepare_meets script scenario sourceTaskId path)
    obtain ⟨hfirst, -, hquiet, hwrites⟩ := hallowed.last
    obtain ⟨_, hop, _, _, _, state, -, hprinted⟩ := hwrites rfl
    obtain rfl := Action.writeState.inj hop
    have habsent : d.state = none := by
      obtain ⟨-, hop⟩ | hhead := hfirst
      · cases hop
      · exact absent_of_head hhead hpast
    obtain rfl := changes_of_quiet hquiet hpast
    refine ⟨habsent, state, hprinted, ?_⟩
    cases hlast with
    | after hafter => cases hafter
    | unopened => exact .inl habsent
    | cutState _ cut => exact .inr ⟨cut, rfl⟩
  | resume scenario =>
    obtain ⟨hallowed, -, -⟩ := ht.meets (resume_meets script scenario path)
    obtain ⟨-, hop⟩ | ⟨_, -, -, ⟨hcommand, -⟩ | ⟨_, -, ⟨hop, -⟩ | ⟨hop, -⟩⟩⟩ := hallowed.last
    · cases hop
    · cases hcommand
    · cases hop
    · cases hop

/-! ### A phase in `main` -/

/-- An execution of a phase in `main` is one of the phase. A command that cannot be started, and
one whose output has no receipt, have no answer there. -/
theorem phase_of_runPhase {α : Type} {phase : Phase F α} {es : List MainEvent}
    {o : Outcome (Raised MainError) α} {d d' : Disk}
    (ht : Trace (runPhase script url phase) es o) (hd : MainChanges d es d') :
    ∃ fs o', Trace phase fs o' ∧ SeenEnd ofJourney o o' ∧ AllChanges d fs d' ∧
      (∀ y, fs.getLast? = some y → y.op.isCommand = true ∨ ∃ x, es.getLast? = some x ∧
        Seen (mainAction url) (ofMain (F := F) script.py.limits url) x y) ∧
      ∀ x ∈ es, ∀ line, x.op ≠ .print line := by
  obtain ⟨fs, o', hfs, hseen, hend⟩ := ht.of_within
  have hchanges := changes_of_seen hseen hd
  obtain hplain | ⟨op, e, hcheck, rfl, hstopped⟩ := hfs.of_checked
  · exact ⟨fs, o', hplain, hend, hchanges, fun y hy => .inr (last_of_seen hseen hy),
      not_print_of_seen hseen⟩
  · have hcommand : op.isCommand = true := by
      cases op with
      | json | failure => rfl
      | _ => cases hcheck
    have hunstarted : d'.Becomes (⟨op, none⟩ : Event F) d' := by
      cases op with
      | json | failure => exact .after rfl
      | _ => cases hcommand
    refine ⟨fs ++ [⟨op, none⟩], .aborted, hstopped, ?_, follows_append.mpr
      ⟨d', hchanges, .cons hunstarted (.nil d')⟩, ?_, not_print_of_seen hseen⟩
    · cases hend with
      | raised => exact .undecoded e
    · intro y hy
      obtain rfl : ⟨op, none⟩ = y := by simpa using hy
      exact .inl hcommand

/-- `main` has written a receipt last: where there was no state file, or in the place of one. -/
def Wrote (d : Disk) (es : List MainEvent) (content : Str) : Prop :=
  d.state = none ∧ es.getLast? = some ⟨.writeState content, some ()⟩ ∨
  d.state ≠ none ∧ es.getLast? = some ⟨.replaceState, some ()⟩

/-- What the state file is at a moment when nothing was printed: as it was, or just written, or
cut off by a first write that has failed. -/
inductive Unprinted (script : Script F) {α : Type} (d : Disk) (es : List MainEvent) (d' : Disk) :
    Outcome (Raised MainError) α → Prop
  | unchanged {o : Outcome (Raised MainError) α} : d'.state = d.state →
      Unprinted script d es d' o
  | written (receipt : Object F) (content : Str) : receiptText script receipt = .ok content →
      d'.state = some content → Wrote d es content → Unprinted script d es d' .running
  | cut (receipt : Object F) (content : Str) (length : ℕ) :
      receiptText script receipt = .ok content → d.state = none →
      es.getLast? = some ⟨.writeState content, none⟩ →
      d'.state = some (content.take length) → Unprinted script d es d' .aborted

/-- A phase that ends `main` ends it with the same state file. -/
theorem Unprinted.ofEnd {α β : Type} {d d' : Disk} {es : List MainEvent}
    {o : Outcome (Raised MainError) α} {o' : Outcome (Raised MainError) β}
    (h : Unprinted script d es d' o) (hrunning : o = .running → o' = .running)
    (haborted : o = .aborted → o' = .aborted) : Unprinted script d es d' o' := by
  cases h with
  | unchanged hsame => exact .unchanged hsame
  | written receipt content hprinted hstate hwrote =>
    obtain rfl := hrunning rfl
    exact .written receipt content hprinted hstate hwrote
  | cut receipt content length hprinted habsent hlast hcut =>
    obtain rfl := haborted rfl
    exact .cut receipt content length hprinted habsent hlast hcut

/-- Nor does an event at the beginning change what the last one has written. -/
theorem Unprinted.cons {α : Type} {d d' : Disk} {es : List MainEvent} {x : MainEvent}
    {o : Outcome (Raised MainError) α} (h : Unprinted script d es d' o) :
    Unprinted script d (x :: es) d' o := by
  have hlast {y : MainEvent} (hy : es.getLast? = some y) : (x :: es).getLast? = some y := by
    simp [List.getLast?_cons, hy]
  cases h with
  | unchanged hsame => exact .unchanged hsame
  | written receipt content hprinted hstate hwrote =>
    exact .written receipt content hprinted hstate
      (hwrote.imp (And.imp_right hlast) (And.imp_right hlast))
  | cut receipt content length hprinted habsent hfailed hcut =>
    exact .cut receipt content length hprinted habsent (hlast hfailed) hcut

/-- A call that has written is a phase of `main` that has. -/
theorem wrote_of_callWrote {d : Disk} {es : List MainEvent} {fs : List (Event F)} {content : Str}
    (h : CallWrote d fs content)
    (hlast : ∀ y, fs.getLast? = some y → y.op.isCommand = true ∨ ∃ x, es.getLast? = some x ∧
      Seen (mainAction url) (ofMain (F := F) limits url) x y) : Wrote d es content := by
  obtain ⟨habsent, hwritten⟩ | ⟨hthere, hmoved⟩ := h
  · obtain hcommand | ⟨x, hx, hseen⟩ := hlast _ hwritten
    · cases hcommand
    · exact .inl ⟨habsent, eq_of_seen_writeState hseen ▸ hx⟩
  · obtain hcommand | ⟨x, hx, hseen⟩ := hlast _ hmoved
    · cases hcommand
    · exact .inr ⟨hthere, eq_of_seen_replaceState hseen ▸ hx⟩

/-- How a call in `main` ends: with its receipt just written, or without. -/
theorem runPhase_file {c : Call F} {path : Str} {es : List MainEvent}
    {o : Outcome (Raised MainError) (Object F)} {d d' : Disk}
    (ht : Trace (runPhase script url (c.program script path)) es o) (hd : MainChanges d es d') :
    (∀ result, o = .returned result → ∃ content, receiptText script result = .ok content ∧
      d'.state = some content ∧ Wrote d es content) ∧
    ((∀ result, o ≠ .returned result) → Unprinted script d es d' o) ∧
    ∀ x ∈ es, ∀ line, x.op ≠ .print line := by
  obtain ⟨fs, o', hfs, hend, hchanges, hlast, hsilent⟩ := phase_of_runPhase ht hd
  obtain hproceeds | ⟨past, content, t, rfl, rfl, hpast, hcut⟩ := changes_or_fails hfs hchanges
  · refine ⟨?_, fun hnot => ?_, hsilent⟩
    · rintro result rfl
      cases hend with
      | returned =>
        obtain ⟨content, hprinted, hstate, hwrote⟩ := returned_file hfs hproceeds
        exact ⟨content, hprinted, hstate, wrote_of_callWrote hwrote hlast⟩
    · obtain hsame | ⟨hended, receipt, content, hprinted, hstate, hwrote⟩ :=
        call_file hfs hproceeds
      · exact .unchanged hsame
      · cases hend with
        | returned result => exact absurd rfl (hnot result)
        | raised e => exact absurd (.inr ⟨e, rfl⟩) hended
        | undecoded | undecodedYet | aborted => exact absurd (.inl rfl) hended
        | running =>
          exact .written receipt content hprinted hstate (wrote_of_callWrote hwrote hlast)
  · obtain ⟨habsent, receipt, hprinted, hstate⟩ := failed_in_place hfs hpast hcut
    obtain hcommand | ⟨x, hx, hseen⟩ := hlast ⟨.writeState content, none⟩ (by simp)
    · cases hcommand
    obtain rfl := eq_of_seen_writeState hseen
    obtain ⟨init, rfl⟩ := List.getLast?_eq_some_iff.mp hx
    obtain ⟨-, rfl⟩ := ht.unanswered rfl
    refine ⟨by simp, fun _ => ?_, hsilent⟩
    obtain hnone | ⟨cut, hcut⟩ := hstate
    · exact .unchanged (hnone.trans habsent.symm)
    · exact .cut receipt content cut hprinted habsent hx hcut

/-! ### What is printed -/

/-- The chosen phase is a call, or there is none. -/
theorem chosenPhase_eq (script : Script F) (a : Arguments) (scenario : Object F) :
    (∃ c : Call F, chosenPhase script a scenario =
      runPhase script a.url (c.program script a.stateFile)) ∨
    ∃ e, chosenPhase script a scenario = .fail e := by
  unfold chosenPhase
  cases a.phase with
  | resume => exact .inl ⟨.resume scenario, rfl⟩
  | prepare =>
    cases a.sourceTask with
    | none => exact .inr ⟨_, rfl⟩
    | some task =>
      cases task with
      | nil => exact .inr ⟨_, rfl⟩
      | cons c task => exact .inl ⟨.prepare scenario (c :: task), rfl⟩

/-- How the chosen phase of `main` ends: with its receipt just written, or without. -/
theorem chosenPhase_file {a : Arguments} {scenario : Object F} {es : List MainEvent}
    {o : Outcome (Raised MainError) (Object F)} {d d' : Disk}
    (ht : Trace (chosenPhase script a scenario) es o) (hd : MainChanges d es d') :
    (∀ result, o = .returned result → ∃ content, receiptText script result = .ok content ∧
      d'.state = some content ∧ Wrote d es content) ∧
    ((∀ result, o ≠ .returned result) → Unprinted script d es d' o) ∧
    ∀ x ∈ es, ∀ line, x.op ≠ .print line := by
  obtain ⟨c, hc⟩ | ⟨e, he⟩ := chosenPhase_eq script a scenario
  · exact runPhase_file (hc ▸ ht) hd
  · rw [he] at ht
    cases ht with
    | fail =>
      cases hd
      exact ⟨by simp, fun _ => .unchanged rfl, by simp⟩
    | running =>
      cases hd
      exact ⟨by simp, fun _ => .unchanged rfl, by simp⟩

/-- Nothing was printed. -/
def Silent (es : List MainEvent) : Prop := ∀ x ∈ es, ∀ line, x.op ≠ .print line

/-- What is printed, with the line break behind it, is the text in the state file, and the
same receipt is found in it and loaded from it. -/
def Printed (script : Script F) (line : Str) (d : Disk) : Prop :=
  d.state = some (line ++ lit "\n") ∧ ∃ receipt : Object F,
    parseJsonOutput script.py.limits (line ++ lit "\n") = .ok receipt ∧
    jsonLoads script.py.limits (line ++ lit "\n") = .ok (.dict receipt)

/-- `main` behind its phase. -/
def printReceipt (script : Script F) (result : Object F) : MainProgram ℕ := do
  let line ← .ofExcept (ofBuiltin (Data.dumps script.py Json.Layout.indented (.dict result)))
  Program.ask (.print line) Program.done
  return 0

/-- How far an execution of `main` has come: to its print, which is its last operation, or
not. -/
inductive Reach (script : Script F) (d : Disk) (es : List MainEvent)
    (o : Outcome (Raised MainError) ℕ) (d' : Disk) : Prop
  | silent : Silent es → (∀ code, o ≠ .returned code) → Unprinted script d es d' o →
      Reach script d es o d'
  | printed (past : List MainEvent) (line : Str) (answer : Option Unit) : Silent past →
      es = past ++ [⟨.print line, answer⟩] → Printed script line d' →
      (answer = some () ∧ (o = .returned 0 ∨ o = .running) ∨ answer = none ∧ o = .aborted) →
      Reach script d es o d'

/-- A receipt that is in the state file can be printed, and is then printed as it is there. -/
theorem printReceipt_reach {result : Object F} {content : Str} {es : List MainEvent}
    {o : Outcome (Raised MainError) ℕ} {d d' : Disk}
    (hcontent : receiptText script result = .ok content) (hstate : d.state = some content)
    (ht : Trace (printReceipt script result) es o) (hd : MainChanges d es d') :
    (es = [] ∧ o = .running) ∨ ∃ line answer, es = [⟨.print line, answer⟩] ∧
      Printed script line d' ∧
      (answer = some () ∧ (o = .returned 0 ∨ o = .running) ∨ answer = none ∧ o = .aborted) := by
  have hparsed := parseJsonOutput_receiptText hcontent
  have hloads := receiptText_loads hcontent
  obtain ⟨line, hline, rfl⟩ := receiptText_eq_ok.mp hcontent
  have hprinted (u : Disk) (hu : u.state = d.state) : Printed script line u :=
    ⟨hu.trans hstate, _, hparsed, hloads⟩
  unfold printReceipt at ht
  rw [hline] at ht
  have hask : Trace (.ask (.print line) fun _ => .done 0 : MainProgram ℕ) es o := ht
  cases hask with
  | running => exact .inl ⟨rfl, rfl⟩
  | abort =>
    cases hd with
    | cons hx hnil =>
      cases hnil
      obtain rfl : d' = d := hx
      exact .inr ⟨line, none, rfl, hprinted _ rfl, .inr ⟨rfl, rfl⟩⟩
  | step answer hrest =>
    cases hrest with
    | done =>
      cases hd with
      | cons hx hnil =>
        cases hnil
        obtain rfl : d' = d := hx
        exact .inr ⟨line, some (), rfl, hprinted _ rfl, .inl ⟨rfl, .inl rfl⟩⟩
    | running =>
      cases hd with
      | cons hx hnil =>
        cases hnil
        obtain rfl : d' = d := hx
        exact .inr ⟨line, some (), rfl, hprinted _ rfl, .inl ⟨rfl, .inr rfl⟩⟩

/-- How far an execution has come behind the scenario. -/
theorem reach_behind_scenario {a : Arguments} {content : Except BuiltinError Str}
    {es : List MainEvent} {o : Outcome (Raised MainError) ℕ} {d d' : Disk}
    (ht : Trace (Program.ofExcept (ofChecked (loadObject script a.scenario content)) >>=
      fun scenario => chosenPhase script a scenario >>= printReceipt script) es o)
    (hd : MainChanges d es d') : Reach script d es o d' := by
  cases hscenario : ofChecked (loadObject script a.scenario content) with
  | error e =>
    rw [hscenario] at ht
    have hfail : Trace (.fail e : MainProgram ℕ) es o := ht
    cases hfail with
    | fail =>
      cases hd
      exact .silent (by simp [Silent]) (by simp) (.unchanged rfl)
    | running =>
      cases hd
      exact .silent (by simp [Silent]) (by simp) (.unchanged rfl)
  | ok scenario =>
    rw [hscenario, Program.ofExcept_ok_bind] at ht
    obtain ⟨result, fs, gs, rfl, hfs, hgs⟩ | ⟨e, rfl, hraised⟩ | ⟨rfl, haborted⟩ |
      ⟨rfl, hrunning⟩ := ht.of_bind
    · obtain ⟨t, hearlier, hlater⟩ := follows_append.mp hd
      obtain ⟨hreturned, -, hsilent⟩ := chosenPhase_file hfs hearlier
      obtain ⟨content, hcontent, hstate, hwrote⟩ := hreturned result rfl
      obtain ⟨rfl, rfl⟩ | ⟨line, answer, rfl, hprinted, hend⟩ :=
        printReceipt_reach hcontent hstate hgs hlater
      · cases hlater
        rw [List.append_nil]
        exact .silent hsilent (by simp) (.written result content hcontent hstate hwrote)
      · exact .printed fs line answer hsilent rfl hprinted hend
    · obtain ⟨-, hfile, hsilent⟩ := chosenPhase_file hraised hd
      exact .silent hsilent (by simp) ((hfile (by simp)).ofEnd (by simp) (by simp))
    · obtain ⟨-, hfile, hsilent⟩ := chosenPhase_file haborted hd
      exact .silent hsilent (by simp) ((hfile (by simp)).ofEnd (by simp) (by simp))
    · obtain ⟨-, hfile, hsilent⟩ := chosenPhase_file hrunning hd
      exact .silent hsilent (by simp) ((hfile (by simp)).ofEnd (by simp) (by simp))

/-- How far an execution of `main` has come. -/
theorem main_reach {a : Arguments} {es : List MainEvent} {o : Outcome (Raised MainError) ℕ}
    {d d' : Disk} (ht : Trace (main script a) es o) (hd : MainChanges d es d') :
    Reach script d es o d' := by
  have hask : Trace (.ask .readScenario fun content =>
      Program.ofExcept (ofChecked (loadObject script a.scenario content)) >>=
        fun scenario => chosenPhase script a scenario >>= printReceipt script) es o := ht
  cases hask with
  | running =>
    cases hd
    exact .silent (by simp [Silent]) (by simp) (.unchanged rfl)
  | abort =>
    cases hd with
    | cons hx hnil =>
      cases hnil
      obtain rfl : d' = d := hx
      exact .silent (by simp [Silent]) (by simp) (.unchanged rfl)
  | step content hrest =>
    cases hd with
    | cons hx hlater =>
      obtain rfl := hx
      cases reach_behind_scenario hrest hlater with
      | silent hsilent hnot hfile =>
        exact .silent (List.forall_mem_cons.mpr ⟨by simp, hsilent⟩) hnot hfile.cons
      | printed past line answer hsilent hes hprinted hend =>
        exact .printed (⟨.readScenario, some content⟩ :: past) line answer
          (List.forall_mem_cons.mpr ⟨by simp, hsilent⟩) (by rw [hes]; rfl) hprinted hend

/-- `main` prints at most once, last, and what it prints, with the line break, is then the text
of the state file: a caller finds the same receipt in the output that `resume` loads from the
file. It returns zero, and only behind its print. An exception of its own comes before the print
and leaves the state file as it was. So does an exception of the environment, or an
interruption, that comes before the print, unless the receipt was just written, or its first
write has failed half way. -/
theorem main_prints {a : Arguments} {es : List MainEvent} {o : Outcome (Raised MainError) ℕ}
    {d d' : Disk} (ht : Trace (main script a) es o) (hd : MainChanges d es d') :
    (∀ past line answer rest, es = past ++ ⟨.print line, answer⟩ :: rest →
      rest = [] ∧ Silent past ∧ Printed script line d') ∧
    (∀ code, o = .returned code → code = 0 ∧ ∃ past line, es = past ++ [⟨.print line, some ()⟩]) ∧
    (∀ e, o = .raised e → Silent es ∧ d'.state = d.state) ∧
    (Silent es → Unprinted script d es d' o) := by
  cases main_reach ht hd with
  | silent hsilent hnot hfile =>
    refine ⟨?_, fun code hcode => absurd hcode (hnot code), ?_, fun _ => hfile⟩
    swap
    · rintro e rfl
      cases hfile with
      | unchanged hsame => exact ⟨hsilent, hsame⟩
    · rintro past line answer rest rfl
      exact absurd rfl (hsilent ⟨.print line, answer⟩ (by simp) line)
  | printed first line answer hsilent hes hprinted hend =>
    have hloud : ¬Silent es := fun h => h ⟨.print line, answer⟩ (by simp [hes]) line rfl
    refine ⟨?_, ?_, ?_, fun h => absurd h hloud⟩
    · intro past line' answer' rest hsplit
      obtain rfl | ⟨init, last, rfl⟩ := rest.eq_nil_or_concat'
      · obtain ⟨rfl, hlast⟩ := List.append_inj' (hsplit.symm.trans hes) rfl
        obtain rfl := MainAction.print.inj (Exchange.mk.inj (List.cons.inj hlast).1).1
        exact ⟨rfl, hsilent, hprinted⟩
      · -- A print with an event behind it would be one before the last event.
        have hinner : (past ++ ⟨.print line', answer'⟩ :: init) ++ [last] =
            first ++ [⟨.print line, answer⟩] := by rw [← hes, hsplit]; simp
        obtain ⟨hfirst, -⟩ := List.append_inj' hinner rfl
        exact absurd rfl (hsilent ⟨.print line', answer'⟩ (by simp [← hfirst]) line')
    · rintro code rfl
      obtain ⟨rfl, hcode | hrunning⟩ | ⟨-, haborted⟩ := hend
      · exact ⟨(Outcome.returned.inj hcode), first, line, hes⟩
      · cases hrunning
      · cases haborted
    · rintro e rfl
      obtain ⟨-, hcode | hrunning⟩ | ⟨-, haborted⟩ := hend
      · cases hcode
      · cases hrunning
      · cases haborted

/-! ### The sample on the command line -/

/-- The arguments of `prepare` in the sample. -/
def sampleArguments : Arguments :=
  ⟨.prepare, lit "http://localhost:8000", lit "scenario", lit "state", some (lit "task")⟩

/-- The output of a command of the sample. -/
def sampleOutputOf (reply : Object Unit) : CompletedProcess :=
  ⟨0, lit "waiting\n" ++ Json.encode (Json.Layout.compact true) 0 (.dict reply), []⟩

/-- Processes, files and a terminal for `prepare` in the sample. -/
def mainHost (_ : List MainEvent) : (op : MainAction) → Option (MainResponse op)
  | .readScenario =>
      some (.ok (Json.encode (Json.Layout.compact true) 0 (.dict sampleScenario)))
  | .run command => some (sampleOutputOf (sampleReply [] command[4]?))
  | .stateExists => some false
  | .readState => some (.error .fileNotFoundError)
  | .makeParents | .writeState _ | .writeTemporary _ | .replaceState | .print _ => some ()

/-- The files after an event of `main` in which no write fails. -/
def Disk.afterMain (d : Disk) (x : MainEvent) : Option Disk :=
  match x.file with
  | some event => d.after event
  | none => some d

/-- It is what may become of them. -/
theorem mainBecomes_of_afterMain {d d' : Disk} {x : MainEvent} (h : d.afterMain x = some d') :
    d.MainBecomes x d' := by
  unfold Disk.afterMain at h
  unfold Disk.MainBecomes
  cases hfile : x.file with
  | some event =>
    rw [hfile] at h
    exact .after h
  | none =>
    rw [hfile] at h
    exact (Option.some.inj h).symm

/-- The execution of `prepare` in the sample. -/
def mainRun : List MainEvent × Outcome (Raised MainError) ℕ :=
  (main sampleScript sampleArguments).run mainHost []

/-- It prints the receipt that it has written. -/
theorem mainRun_prints : ∃ past line d, mainRun.1 = past ++ [⟨.print line, some ()⟩] ∧
    MainChanges ⟨none, none⟩ mainRun.1 d ∧ Printed sampleScript line d := by
  have hrun : Trace (main sampleScript sampleArguments) mainRun.1 mainRun.2 :=
    Program.run_trace mainHost [] _
  have hends : mainRun.2.isReturned = true ∧
      (mainRun.1.foldlM Disk.afterMain ⟨none, none⟩).isSome = true := by decide +kernel
  obtain ⟨code, hcode⟩ := Outcome.exists_result hends.1
  obtain ⟨d, hd⟩ := Option.isSome_iff_exists.mp hends.2
  have hfiles : MainChanges ⟨none, none⟩ mainRun.1 d :=
    (follows_of_foldlM hd).mono fun _ _ _ _ => mainBecomes_of_afterMain
  obtain ⟨hprints, hreturns, -⟩ := main_prints hrun hfiles
  obtain ⟨-, past, line, hes⟩ := hreturns code hcode
  exact ⟨past, line, d, hes, hfiles, (hprints past line _ [] hes).2.2⟩

end MarketIntelligence.Journey
