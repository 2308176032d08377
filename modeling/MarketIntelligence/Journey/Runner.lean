import MarketIntelligence.Journey.Order
import MarketIntelligence.Journey.Output
import MarketIntelligence.Journey.Passages
import MarketIntelligence.Python.Fitting
import MarketIntelligence.Python.Processes
import MarketIntelligence.Python.Words

/-!
# The runner of the public CLI

`AceCliRunner` makes the responses of the journey out of finished processes. The last
command of `resume` has to fail, and what the process printed has to prove why. The head
is retired by then, so that evidence which is not recognised is lost.
-/

namespace MarketIntelligence.Journey

open Python Interaction

variable {F : Type} [PyFloat F]

/-- `subprocess.CompletedProcess`, with the decoded output. -/
structure CompletedProcess where
  returncode : ℤ
  stdout : Str
  stderr : Str

/-- `AceCliRunner.json`, on the finished process. -/
def cliJson (limits : Limits) (completed : CompletedProcess) : Checked (Object F) :=
  if completed.returncode ≠ 0 then
    let message := (Str.normalised completed.stderr).take 500
    journeyError (lit "ace command failed (" ++ Json.intDigits completed.returncode ++
      lit "): " ++ message)
  else parseJsonOutput limits completed.stdout

/-- `AceCliRunner.failure`, on the finished process. -/
def cliFailure (completed : CompletedProcess) : Checked Str :=
  if completed.returncode = 0 then
    journeyError (lit "ace command unexpectedly succeeded after cognition retirement")
  else
    let output := if completed.stderr = [] then completed.stdout else completed.stderr
    .ok ((Str.normalised output).take 500)

/-- The command line of `AceCliRunner._run`. -/
def commandLine (url : Str) (arguments : List Str) : List Str :=
  lit "ace" :: lit "--url" :: url :: arguments

/-- `AceCliRunner._run`, until the process starts. -/
def startCommand (url : Str) : Action → Checked Unit
  | .json arguments | .failure arguments => ofBuiltin (passArguments (commandLine url arguments))
  | _ => .ok ()

/-- A command that prints its receipt last, behind any progress, answers with it. -/
theorem cliJson_of_receipt {limits : Limits} {completed : CompletedProcess} {p t w : Str}
    {ms : List (Str × Json.Tree)} (hcode : completed.returncode = 0)
    (hout : completed.stdout = p ++ (t ++ w)) (ht : Json.Value t (.object ms))
    (hw : ∀ c ∈ w, c.isSpace = true) (hlimits : WithinLimits F limits completed.stdout) :
    ∃ value : Object F, (Json.Tree.object ms).fold (dataHooks limits) = .ok (.dict value) ∧
      cliJson limits completed = .ok value := by
  have hreaches := reaches_of_object (p := p) ht hw
  rw [← hout] at hreaches
  obtain ⟨value, hfold, hparsed⟩ := parseJsonOutput_of_reaches hlimits hreaches
  exact ⟨value, hfold, by rw [cliJson, if_neg (by simp [hcode]), hparsed]⟩

/-! ### What is left of `resume` at the refusal -/

/-- The rest of `resume` issues no further command. -/
theorem not_after_finish {script : Script F} {state : Object F} {restartUse : Data F}
    {receipt retiredHead : Object F} {refusal : Str} {es : List (Event F)}
    {arguments : List Str} {next : Str → Phase F (Object F)} :
    ¬After (finish script state restartUse receipt retiredHead refusal) es
      (.ask (.failure arguments) next) := by
  intro h
  obtain ⟨_, -, h⟩ := h.of_ofExcept (by simp)
  obtain ⟨members, -, h⟩ := h.of_ofExcept (by simp)
  unfold replaceWith writeTemporary replaceState at h
  simp only [Program.bind_assoc] at h
  obtain ⟨content, -, h⟩ := h.of_ofExcept (by simp)
  obtain ⟨_, _, -, h⟩ := h.of_other (by simp)
  obtain ⟨_, _, -, h⟩ := h.of_other (by simp)
  cases (after_done h).2

/-- What `resume` has gathered when the refused use is next. -/
structure AtRefusal (script : Script F) (scenario : Object F) (past : List (Event F))
    (state : Object F) (restartUse : Data F) (receipt retiredHead : Object F) : Prop where
  loaded : Loaded script past state
  use : ∃ task selection use a hashes es revisionId stableKey,
    UseGathered script stableKey (get scenario (lit "restart_use_prompt"))
      "restart use prompt is missing" revisionId task selection use a hashes es ∧
    es <:+: past ∧ restartUse = inspectedUse a hashes
  retirement : ∃ headId es, RetirementGathered script scenario state headId receipt retiredHead es ∧
    es <:+ past

/-- Where the refused use is next, the rest of `resume` follows. -/
theorem resume_at_refusal {script : Script F} {scenario : Object F} {path : Str}
    {past : List (Event F)} {arguments : List Str} {next : Str → Phase F (Object F)}
    (h : After (resume script scenario path) past (.ask (.failure arguments) next)) :
    ∃ state restartUse receipt retiredHead,
      AtRefusal script scenario past state restartUse receipt retiredHead ∧
      next = finish script state restartUse receipt retiredHead := by
  have hbeyond := beyond_failure arguments next
  obtain ⟨state, revision, head, revisionId, headId, stableKey, before, rest, hpast, hunchanged,
    h⟩ := after_resume hbeyond.not_failed (.inr hbeyond) h
  obtain ⟨task, selection, use, a, hashes, receipt, retiredHead, arguments', used, retired, left,
    hrest, hused, hretired, -, h⟩ := after_resumeUnchanged hbeyond h
  obtain ⟨hleft, hnext⟩ | ⟨refusal, _, -, h⟩ := h.of_ask
  · obtain ⟨hop, hnext⟩ := Program.ask.inj hnext
    obtain rfl := Action.failure.inj hop
    rw [hrest, hleft, List.append_nil] at hpast
    refine ⟨state, inspectedUse a hashes, receipt, retiredHead, ?_, eq_of_heq hnext⟩
    obtain ⟨content, hloads, hbefore⟩ := hunchanged.events
    exact {
      loaded := ⟨content, by simp [hpast, hbefore, readEvent], hloads⟩
      use := ⟨task, selection, use, a, hashes, used, revisionId, stableKey, hused,
        ⟨before, retired, by simp [hpast]⟩, rfl⟩
      retirement := ⟨headId, retired, hretired, before ++ used, by simp [hpast]⟩ }
  · exact (not_after_finish h).elim

/-! ### Completing -/

/-- A phase that returns after replacing the state file. -/
def Completes (p : Phase F (Object F)) : Prop :=
  ∃ content state, Trace p [⟨.writeTemporary content, some ()⟩, ⟨.replaceState, some ()⟩]
    (.returned state)

/-- The completed receipt can be computed and printed. The text of the refusal, which is
a placeholder here, makes no difference. -/
def Completable (script : Script F) (state : Object F) (restartUse : Data F)
    (receipt retiredHead : Object F) : Prop :=
  ∃ members content, completion script restartUse receipt retiredHead [] = .ok members ∧
    receiptText script (updated state members) = .ok content

/-- The text of the refusal is the last member of a completion, behind others that do not
depend on it. -/
theorem completion_of_ok {script : Script F} {restartUse : Data F}
    {receipt retiredHead members : Object F} {refusal : Str}
    (h : completion script restartUse receipt retiredHead refusal = .ok members) :
    ∃ others, ∀ text, completion script restartUse receipt retiredHead text =
      .ok (others ++ [(lit "post_retirement_failure", .str text)]) := by
  simp only [completion, bind_eq_ok, pure_eq_ok] at h
  obtain ⟨id, hid, receiptHash, hreceipt, headHash, hhead, -⟩ := h
  refine ⟨[(lit "phase", .str (lit "complete")), (lit "restart_use", restartUse),
    (lit "lifecycle_receipt_id", id), (lit "lifecycle_receipt_hash", .str receiptHash),
    (lit "retired_head_hash", .str headHash)], fun text => ?_⟩
  simp only [completion, bind_eq_ok, pure_eq_ok]
  exact ⟨id, hid, receiptHash, hreceipt, headHash, hhead, rfl⟩

omit [PyFloat F] in
/-- Whether a dictionary can be printed does not depend on a string that is assigned in
it. -/
theorem fits_dictInsert (limits : Limits) (level : ℕ) (d : Object F) (key s t : Str) :
    (Data.dict (dictInsert d key (.str s))).fits limits level =
      (Data.dict (dictInsert d key (.str t))).fits limits level := by
  cases level with
  | zero => rfl
  | succ level =>
    have hmap (d : Object F) :
        Data.fitsMembers limits level (d.map fun m => if m.1 = key then (key, .str s) else m) =
          Data.fitsMembers limits level
            (d.map fun m => if m.1 = key then (key, .str t) else m) := by
      induction d with
      | nil => rfl
      | cons m d ih =>
        by_cases hm : m.1 = key
        · simp [Data.fitsMembers, hm, fits_str, ih]
        · simp [Data.fitsMembers, hm, ih]
    have happend (d : Object F) : Data.fitsMembers limits level (d ++ [(key, .str s)]) =
        Data.fitsMembers limits level (d ++ [(key, .str t)]) := by
      induction d with
      | nil => simp [Data.fitsMembers, fits_str]
      | cons m d ih => simp [Data.fitsMembers, ih]
    unfold dictInsert
    by_cases hkey : key ∈ d.map Prod.fst
    · simpa only [if_pos hkey, Data.fits] using hmap d
    · simpa only [if_neg hkey, Data.fits] using happend d

/-- A receipt can be printed if it meets no limit. -/
theorem receiptText_isOk {script : Script F} {receipt : Object F} :
    (∃ content, receiptText script receipt = .ok content) ↔
      (Data.dict receipt).fits script.py.limits script.py.limits.indented = .ok () := by
  constructor
  · rintro ⟨content, hcontent⟩
    obtain ⟨printed, hprinted, -⟩ := receiptText_eq_ok.mp hcontent
    obtain ⟨_, hfits, -⟩ := bind_eq_ok.mp hprinted
    exact hfits
  · intro hfits
    exact ⟨_, receiptText_eq_ok.mpr ⟨_, bind_eq_ok.mpr ⟨(), hfits, rfl⟩, rfl⟩⟩

/-- Whether a completed receipt can be printed does not depend on the text of the refusal. -/
theorem receiptText_refusal {script : Script F} {state others : Object F} (s t : Str) :
    (∃ content, receiptText script
      (updated state (others ++ [(lit "post_retirement_failure", .str s)])) = .ok content) ↔
    ∃ content, receiptText script
      (updated state (others ++ [(lit "post_retirement_failure", .str t)])) = .ok content := by
  simp only [receiptText_isOk, updated, List.foldl_append, List.foldl_cons, List.foldl_nil]
  rw [fits_dictInsert _ _ _ _ s t]

/-- A phase that has returned recognised the refusal and could complete the receipt. -/
theorem completable_of_returned {script : Script F} {state : Object F} {restartUse : Data F}
    {receipt retiredHead result : Object F} {refusal : Str} {es : List (Event F)}
    (ht : Trace (finish script state restartUse receipt retiredHead refusal) es
      (.returned result)) :
    checkFailure refusal = .ok () ∧ Completable script state restartUse receipt retiredHead := by
  have h := after_done_iff.mpr ht
  obtain ⟨_, hrecognised, h⟩ := h.of_ofExcept (by simp)
  obtain ⟨members, hmembers, h⟩ := h.of_ofExcept (by simp)
  unfold replaceWith at h
  simp only [Program.bind_assoc] at h
  obtain ⟨printed, hprinted, -⟩ := h.of_ofExcept (by simp)
  obtain ⟨others, hothers⟩ := completion_of_ok hmembers
  obtain rfl := Except.ok.inj (hmembers.symm.trans (hothers refusal))
  obtain ⟨placeholder, hplaceholder⟩ := (receiptText_refusal refusal []).mp ⟨printed, hprinted⟩
  exact ⟨hrecognised, _, placeholder, hothers [], hplaceholder⟩

/-- With a recognised refusal, and only then, a completable receipt is completed. -/
theorem completes_finish_iff {script : Script F} {state : Object F} {restartUse : Data F}
    {receipt retiredHead : Object F} {refusal : Str} :
    Completes (finish script state restartUse receipt retiredHead refusal) ↔
      checkFailure refusal = .ok () ∧ Completable script state restartUse receipt retiredHead := by
  constructor
  · rintro ⟨content, result, ht⟩
    exact completable_of_returned ht
  · rintro ⟨hrecognised, members, content, hmembers, hcontent⟩
    obtain ⟨others, hothers⟩ := completion_of_ok hmembers
    obtain rfl := Except.ok.inj (hmembers.symm.trans (hothers []))
    obtain ⟨printed, hprinted⟩ := (receiptText_refusal [] refusal).mp ⟨content, hcontent⟩
    refine ⟨printed, updated state (others ++ [(lit "post_retirement_failure", .str refusal)]),
      Trace.ofExcept_bind hrecognised (Trace.ofExcept_bind (hothers refusal) ?_)⟩
    unfold replaceWith writeTemporary replaceState
    simp only [Program.bind_assoc]
    exact Trace.ofExcept_bind hprinted (.ask_bind _ (.ask_bind _ (.done _)))

/-! ### What the output must look like -/

/-- An allowed failure code stands in one of the streams. -/
def Carried (completed : CompletedProcess) : Prop :=
  ∃ code ∈ allowedFailureCodes, code <:+: completed.stdout ∨ code <:+: completed.stderr

/-- An allowed failure code stands in standard error, or in standard output if standard
error is empty, and ends within the first 500 characters when whitespace in front is left
out and every other run of whitespace before it counts as one character. -/
def InView (completed : CompletedProcess) : Prop :=
  ∃ code ∈ allowedFailureCodes, ∃ a b,
    (if completed.stderr = [] then completed.stdout else completed.stderr) = a ++ (code ++ b) ∧
    (Str.squeeze false a).length + code.length ≤ 500

omit [PyFloat F] in
/-- The failure codes are words. -/
theorem allowedFailureCodes_words : ∀ code ∈ allowedFailureCodes,
    code ≠ [] ∧ ∀ c ∈ code, c.isSpace = false := by decide +kernel

/-- The refusal is recognised exactly if a code is in view. -/
theorem recognised_iff {completed : CompletedProcess} (hfailed : completed.returncode ≠ 0) :
    (∃ refusal, cliFailure completed = .ok refusal ∧ checkFailure refusal = .ok ()) ↔
      InView completed := by
  have hcheck (refusal : Str) : checkFailure refusal = .ok () ↔
      ∃ code ∈ allowedFailureCodes, code <:+: refusal := by
    unfold checkFailure
    by_cases hany : ∃ code ∈ allowedFailureCodes, code <:+: refusal
    · simp [hany]
    · simp [hany]
  simp only [cliFailure, if_neg hfailed, Except.ok.injEq, exists_eq_left', hcheck]
  refine exists_congr fun code => and_congr_right fun hcode => ?_
  obtain ⟨hne, hword⟩ := allowedFailureCodes_words code hcode
  exact infix_take_normalised hne hword

/-- Where `resume` waits for the refused use, it completes on a failed process that carries
an allowed code exactly if the code is in view and the receipt can be completed at all. -/
theorem refusal_recognised_iff {script : Script F} {scenario : Object F} {path : Str}
    {past : List (Event F)} {arguments : List Str} {next : Str → Phase F (Object F)}
    (h : After (resume script scenario path) past (.ask (.failure arguments) next)) :
    ∃ state restartUse receipt retiredHead,
      AtRefusal script scenario past state restartUse receipt retiredHead ∧
      ∀ completed : CompletedProcess, completed.returncode ≠ 0 → Carried completed →
        ((∃ refusal, cliFailure completed = .ok refusal ∧ Completes (next refusal)) ↔
          InView completed ∧ Completable script state restartUse receipt retiredHead) := by
  obtain ⟨state, restartUse, receipt, retiredHead, hgathered, rfl⟩ := resume_at_refusal h
  refine ⟨state, restartUse, receipt, retiredHead, hgathered, fun completed hfailed _ => ?_⟩
  rw [← recognised_iff hfailed]
  constructor
  · rintro ⟨refusal, hrefusal, hcompletes⟩
    obtain ⟨hrecognised, hcompletable⟩ := completes_finish_iff.mp hcompletes
    exact ⟨⟨refusal, hrefusal, hrecognised⟩, hcompletable⟩
  · rintro ⟨⟨refusal, hrefusal, hrecognised⟩, hcompletable⟩
    exact ⟨refusal, hrefusal, completes_finish_iff.mpr ⟨hrecognised, hcompletable⟩⟩

/-! ### The sample at its refusal -/

omit [PyFloat F] in
/-- Such an event splits the events around it. -/
theorem exists_refused {es : List (Event F)} {i : ℕ} (h : es[i]?.any Event.refused = true) :
    ∃ arguments refusal rest,
      es = es.take i ++ ⟨.failure arguments, some refusal⟩ :: rest := by
  obtain ⟨x, hx, hrefused⟩ := Option.any_eq_true _ _ |>.mp h
  obtain ⟨hlt, rfl⟩ := List.getElem?_eq_some_iff.mp hx
  have hsplit : es = es.take i ++ es[i] :: es.drop (i + 1) := by
    rw [List.getElem_cons_drop, List.take_append_drop]
  generalize es[i] = x at hrefused hsplit
  obtain ⟨op, answer⟩ := x
  cases op with
  | failure arguments =>
    cases answer with
    | some refusal => exact ⟨arguments, refusal, _, hsplit⟩
    | none => cases hrefused
  | _ => cases hrefused

/-- The sample comes to its refused use, and completes on the recognised refusals. -/
theorem sample_at_refusal : ∃ past arguments next, After
    (resume sampleScript sampleScenario (lit "state")) past (.ask (.failure arguments) next) ∧
    ∀ refusal, Completes (next refusal) ↔ checkFailure refusal = .ok () := by
  have hrun := sampleResumed_trace
  obtain ⟨-, hrefused, -, hreturned⟩ := sampleJourney_returns
  obtain ⟨arguments, answer, rest, hevents⟩ := exists_refused hrefused
  rw [hevents] at hrun
  obtain ⟨next, hafter, hrest⟩ := hrun.after
  obtain ⟨state, restartUse, receipt, retiredHead, -, rfl⟩ := resume_at_refusal hafter
  refine ⟨_, arguments, _, hafter, fun refusal => ?_⟩
  have hcompletable : Completable sampleScript state restartUse receipt retiredHead := by
    obtain ⟨result, hresult⟩ := Outcome.exists_result hreturned
    rw [hresult] at hrest
    exact (completable_of_returned hrest).2
  rw [completes_finish_iff]
  exact and_iff_left hcompletable

/-- A failed use with the code on the second line of standard error. -/
def sampleProcess : CompletedProcess :=
  ⟨1, [], lit "Error: use refused\n  (cognition_use_not_completed)\n"⟩

/-- The sample completes on it. -/
theorem sampleProcess_recognised : ∃ past arguments next, After
    (resume sampleScript sampleScenario (lit "state")) past (.ask (.failure arguments) next) ∧
    (∃ refusal, cliFailure sampleProcess = .ok refusal ∧ Completes (next refusal)) ∧
    ∃ state restartUse receipt retiredHead, InView sampleProcess ∧
      Completable sampleScript state restartUse receipt retiredHead := by
  obtain ⟨past, arguments, next, hafter, hcompletes⟩ := sample_at_refusal
  obtain ⟨state, restartUse, receipt, retiredHead, -, hiff⟩ := refusal_recognised_iff hafter
  have hrecognised : ∃ refusal, cliFailure sampleProcess = .ok refusal ∧
      Completes (next refusal) :=
    ⟨_, rfl, (hcompletes _).mpr (by decide +kernel)⟩
  have hcarried : Carried sampleProcess := by
    unfold Carried
    decide +kernel
  exact ⟨past, arguments, next, hafter, hrecognised, state, restartUse, receipt, retiredHead,
    (hiff sampleProcess (by decide) hcarried).mp hrecognised⟩

/-- A failed use with the code on standard output and a warning on standard error. -/
def hiddenProcess : CompletedProcess :=
  ⟨1, lit "cognition_use_not_completed", lit "warning: TLS verification is disabled"⟩

/-- The sample, which completes on the bare code, does not complete on it. -/
theorem hiddenProcess_rejected : ∃ past arguments next, After
    (resume sampleScript sampleScenario (lit "state")) past (.ask (.failure arguments) next) ∧
    Completes (next (lit "cognition_use_not_completed")) ∧
    (hiddenProcess.returncode ≠ 0 ∧ Carried hiddenProcess) ∧
    ¬∃ refusal, cliFailure hiddenProcess = .ok refusal ∧ Completes (next refusal) := by
  obtain ⟨past, arguments, next, hafter, hcompletes⟩ := sample_at_refusal
  have hcarried : Carried hiddenProcess := by
    unfold Carried
    decide +kernel
  refine ⟨past, arguments, next, hafter, (hcompletes _).mpr (by decide +kernel),
    ⟨by decide, hcarried⟩, ?_⟩
  rintro ⟨refusal, hrefusal, hcompleted⟩
  have hwarning : cliFailure hiddenProcess = .ok (lit "warning: TLS verification is disabled") := by
    decide +kernel
  obtain rfl := Except.ok.inj (hwarning.symm.trans hrefusal)
  have hrejected : checkFailure (lit "warning: TLS verification is disabled") ≠ .ok () := by
    decide +kernel
  exact hrejected ((hcompletes _).mp hcompleted)

end MarketIntelligence.Journey
