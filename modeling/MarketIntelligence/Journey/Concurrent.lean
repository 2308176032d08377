import MarketIntelligence.Interaction.Interleaving
import MarketIntelligence.Journey.Passages
import MarketIntelligence.Journey.StateFile

/-!
# Concurrent runs of `prepare`

Any number of runs of `prepare` on one state path, with their operations interleaved in
any order. The refusal to replace a state file is a check before a separate write, so
that it holds exactly in the schedules that let nothing in between.
-/

namespace MarketIntelligence.Journey

open Python Interaction

variable {F : Type} {ι : Type}

/-! ### Writing -/

/-- Writing the state file succeeds. -/
theorem after_writeState {d d' : Disk} {content : Str} {answer : Option Unit}
    (hd : d.Proceeds (⟨.writeState content, answer⟩ : Event F) d') :
    answer = some () ∧ d'.state = some content := by
  cases answer with
  | none => exact absurd trivial hd.2
  | some _ =>
    obtain rfl := Option.some.inj (hd.after_of_answered (by simp))
    exact ⟨rfl, rfl⟩

/-- A file that exists stays. -/
theorem exists_of_after {d d' : Disk} {x : Event F} (h : d.state ≠ none)
    (hd : d.Proceeds x d') : d'.state ≠ none := by
  by_cases hwrites : x.op.writes = true
  · obtain ⟨op, answer⟩ := x
    cases op with
    | writeState content =>
      obtain ⟨-, hstate⟩ := after_writeState hd
      simp [hstate]
    | writeTemporary content => exact state_of_writeTemporary hd ▸ h
    | replaceState =>
      obtain ⟨-, rfl⟩ | ⟨-, content, -, rfl⟩ := after_replaceState hd
      · exact h
      · simp
    | _ => cases hwrites
  · rw [after_of_not_writes (by simpa using hwrites) hd]
    exact h

/-- A file that exists stays over many operations. -/
theorem exists_of_changes {d d' : Disk} {es : List (Event F)} (h : d.state ≠ none)
    (hd : Changes d es d') : d'.state ≠ none :=
  hd.preserves (P := fun d => d.state ≠ none) (fun _ _ _ _ hx hs => exists_of_after hs hx) h

variable [PyFloat F]

/-- A run of `prepare` that has written its state is at its end, and has checked before. -/
theorem prepare_at_write {script : Script F} {scenario : Object F} {sourceTaskId path : Str}
    {past rest : List (Event F)} {content : Str} {o : Outcome (Raised JourneyError) (Object F)}
    (ht : Trace (prepare script scenario sourceTaskId path)
      (past ++ ⟨.writeState content, some ()⟩ :: rest) o) :
    rest = [] ∧
    (∃ earlier, past = earlier ++ [⟨.stateExists, some false⟩, ⟨.makeParents, some ()⟩]) ∧
    ∃ state, receiptText script state = .ok content ∧
      Trace (prepare script scenario sourceTaskId path) (past ++ [⟨.writeState content, some ()⟩])
        (.returned state) := by
  have hmeets := prepare_meets script scenario sourceTaskId path
  obtain ⟨next, hpast, hrest⟩ := ht.after
  have hafter (es : List (Event F)) (o : Outcome (Raised JourneyError) (Object F))
      (h : Trace (next ()) es o) : Trace (prepare script scenario sourceTaskId path)
        (past ++ ⟨.writeState content, some ()⟩ :: es) o :=
    hpast.trace (@Trace.step Action (Response F) _ _ (.writeState content) next () es o h)
  have hloud (es : List (Event F)) : ¬Quiet (past ++ [⟨.writeState content, some ()⟩] ++ es) :=
    fun h => by cases h ⟨.writeState content, some ()⟩ (by simp)
  -- Another operation or an exception would have to come before every write.
  cases hnext : next () with
  | fail e =>
    obtain ⟨-, -, hraises⟩ := (hafter [] (.raised e) (hnext ▸ .fail e)).meets hmeets
    exact absurd (hraises e rfl).1 (by simpa using hloud [])
  | ask op after =>
    obtain ⟨hallowed, -, -⟩ := (hafter [⟨op, none⟩] .aborted (hnext ▸ .abort op after)).meets hmeets
    obtain ⟨-, -, hquiet, -⟩ := hallowed (past ++ [⟨.writeState content, some ()⟩]) ⟨op, none⟩ []
      (by simp)
    exact absurd hquiet (by simpa using hloud [])
  | done state =>
    have hreturned := hafter [] (.returned state) (hnext ▸ .done state)
    obtain ⟨content', r, taught, review, task, selection, use, a, h⟩ := prepare_returned hreturned
    obtain ⟨key, hashes, before, used, -, -, -, -, hes⟩ := h.gathered
    obtain ⟨hearlier, hwrite⟩ : past = (⟨.stateExists, some false⟩ :: (before ++ used)) ++
        [⟨.stateExists, some false⟩, ⟨.makeParents, some ()⟩] ∧ content = content' := by
      have hsplit : past ++ [⟨.writeState content, some ()⟩] =
          ((⟨.stateExists, some false⟩ :: (before ++ used)) ++
            [⟨.stateExists, some false⟩, ⟨.makeParents, some ()⟩]) ++
            [⟨.writeState content', some ()⟩] := by
        rw [hes]
        simp
      obtain ⟨hpast, hlast⟩ := List.append_inj' hsplit rfl
      exact ⟨hpast, by simpa using hlast⟩
    refine ⟨?_, ⟨_, hearlier⟩, state, hwrite ▸ h.printed, hreturned⟩
    rw [hnext] at hrest
    cases hrest <;> rfl

/-- A run that returns finds no file, and writes one. -/
theorem prepare_files {script : Script F} {scenario : Object F} {sourceTaskId path : Str}
    {es : List (Event F)} {state : Object F}
    (ht : Trace (prepare script scenario sourceTaskId path) es (.returned state)) :
    ∃ checked content, es = checked ++ [⟨.writeState content, some ()⟩] ∧
      ∀ d : Disk, d.state = none → Changes d checked d := by
  obtain ⟨content, r, taught, review, task, selection, use, a, h⟩ := prepare_returned ht
  obtain ⟨key, hashes, before, used, -, hreviewed, hused, -, rfl⟩ := h.gathered
  obtain ⟨teach, -, rfl⟩ := hreviewed.events
  obtain ⟨arguments, selectionId, useId, -, -, -, rfl⟩ := hused.events
  refine ⟨⟨.stateExists, some false⟩ :: ([commandEvent teach taught,
      commandEvent [lit "cognition", lit "inspect", r.proposalId] r.inspection,
      commandEvent [lit "cognition", lit "diff", r.proposalId] r.semanticDiff,
      commandEvent (reviewArguments r.proposalId) review,
      commandEvent [lit "cognition", lit "revision", r.revisionId] r.revision,
      commandEvent [lit "cognition", lit "head", r.headId] r.head] ++
    ([commandEvent arguments task,
      commandEvent [lit "cognition", lit "selection", selectionId] selection,
      commandEvent [lit "cognition", lit "use-receipt", useId] use] ++
    [⟨.stateExists, some false⟩, ⟨.makeParents, some ()⟩])), content, rfl, fun d hd =>
    changes_of_foldlM ?_⟩
  simp [commandEvent, Disk.after, hd]

/-! ### Schedules -/

variable [DecidableEq ι]

/-- Runs of `prepare` on one path, with scenarios and source tasks of their own, whose
operations take place in the order of a schedule. -/
structure Scheduled (script : Script F) (path : Str) (calls : ι → Object F × Str) (d : Disk)
    (s : List (ι × Event F)) (outcome : ι → Outcome (Raised JourneyError) (Object F))
    (d' : Disk) : Prop where
  runs : ∀ i, Trace (prepare script (calls i).1 (calls i).2 path) (eventsOf i s) (outcome i)
  files : Changes d (s.map Prod.snd) d'

/-- No receipt is replaced, one run returns at most, and its receipt stays in the file. -/
structure KeepsReceipt (script : Script F) (d : Disk) (s : List (ι × Event F))
    (outcome : ι → Outcome (Raised JourneyError) (Object F)) (d' : Disk) : Prop where
  absent : ∀ before i content after t, s = before ++ (i, ⟨.writeState content, some ()⟩) :: after →
    Changes d (before.map Prod.snd) t → t.state = none
  once : ∀ i j state state', outcome i = .returned state → outcome j = .returned state' → i = j
  kept : ∀ i state, outcome i = .returned state →
    ∃ content, receiptText script state = .ok content ∧ d'.state = some content

omit [PyFloat F] [DecidableEq ι] in
/-- Nothing is written between the last check of a run and its write. -/
def Undisturbed (s : List (ι × Event F)) : Prop :=
  ∀ before i content after, s = before ++ (i, ⟨.writeState content, some ()⟩) :: after →
    ∃ start between, before = start ++ (i, ⟨.stateExists, some false⟩) :: between ∧
      ∀ x ∈ between, x.2.op.writes = false

/-- The files after the first part of a schedule. -/
theorem Scheduled.exists_files {script : Script F} {path : Str} {calls : ι → Object F × Str}
    {d d' : Disk} {s before rest : List (ι × Event F)}
    {outcome : ι → Outcome (Raised JourneyError) (Object F)}
    (h : Scheduled script path calls d s outcome d') (hs : s = before ++ rest) :
    ∃ t, Changes d (before.map Prod.snd) t ∧ Changes t (rest.map Prod.snd) d' := by
  have hfiles := h.files
  rw [hs, List.map_append] at hfiles
  exact follows_append.mp hfiles

/-- Every change in a schedule is a write of the state file that has succeeded. -/
theorem Scheduled.written {script : Script F} {path : Str} {calls : ι → Object F × Str}
    {d d' : Disk} {s : List (ι × Event F)}
    {outcome : ι → Outcome (Raised JourneyError) (Object F)}
    (h : Scheduled script path calls d s outcome d') {i : ι} {x : Event F} (hx : (i, x) ∈ s)
    (hwrites : x.op.writes = true) : ∃ content, x = ⟨.writeState content, some ()⟩ := by
  obtain ⟨past, rest, hes⟩ := List.append_of_mem (mem_eventsOf.mpr hx)
  have hmeets := prepare_meets script (calls i).1 (calls i).2 path
  obtain ⟨hallowed, -, -⟩ := (h.runs i).meets hmeets
  obtain ⟨-, -, -, hwrite⟩ := hallowed past x rest hes
  obtain ⟨content, hop, -⟩ := hwrite hwrites
  obtain ⟨op, answer⟩ := x
  obtain rfl : op = .writeState content := hop
  obtain ⟨before, after, hs⟩ := List.append_of_mem hx
  obtain ⟨t, -, hrest⟩ := h.exists_files hs
  cases hrest with
  | cons hafter _ =>
    obtain ⟨rfl, -⟩ := after_writeState hafter
    exact ⟨content, rfl⟩

omit [PyFloat F] [DecidableEq ι] in
/-- After a write the file exists. -/
theorem exists_of_write {d t : Disk} {before : List (ι × Event F)} {i : ι} {content : Str}
    (hmem : (i, ⟨.writeState content, some ()⟩) ∈ before)
    (ht : Changes d (before.map Prod.snd) t) : t.state ≠ none := by
  obtain ⟨start, rest, rfl⟩ := List.append_of_mem hmem
  rw [List.map_append] at ht
  obtain ⟨u, -, hrest⟩ := follows_append.mp ht
  cases hrest with
  | cons hx hafter =>
    obtain ⟨-, hstate⟩ := after_writeState hx
    exact exists_of_changes (by simp [hstate]) hafter

/-- Where a file is written that does not exist, nothing was written before. -/
theorem Scheduled.quiet_before {script : Script F} {path : Str} {calls : ι → Object F × Str}
    {d d' t : Disk} {s before rest : List (ι × Event F)}
    {outcome : ι → Outcome (Raised JourneyError) (Object F)}
    (h : Scheduled script path calls d s outcome d') (hs : s = before ++ rest)
    (ht : Changes d (before.map Prod.snd) t) (habsent : t.state = none) :
    ∀ x ∈ before, x.2.op.writes = false := by
  rintro ⟨i, x⟩ hx
  by_contra hwrites
  have hmem : (i, x) ∈ s := by simp [hs, hx]
  obtain ⟨content, rfl⟩ := h.written hmem (by simpa using hwrites)
  exact exists_of_write hx ht habsent

/-- The write of a run that has returned. -/
theorem Scheduled.write_of_returned {script : Script F} {path : Str}
    {calls : ι → Object F × Str} {d d' : Disk} {s : List (ι × Event F)}
    {outcome : ι → Outcome (Raised JourneyError) (Object F)}
    (h : Scheduled script path calls d s outcome d') {i : ι} {state : Object F}
    (hi : outcome i = .returned state) :
    ∃ before content after, s = before ++ (i, ⟨.writeState content, some ()⟩) :: after ∧
      receiptText script state = .ok content := by
  obtain ⟨content, r, taught, review, task, selection, use, a, hreturned⟩ :=
    prepare_returned (hi ▸ h.runs i)
  obtain ⟨key, hashes, start, used, -, -, -, -, hes⟩ := hreturned.gathered
  have hsplit : eventsOf i s = (⟨.stateExists, some false⟩ :: (start ++ (used ++
      [⟨.stateExists, some false⟩, ⟨.makeParents, some ()⟩]))) ++
      ⟨.writeState content, some ()⟩ :: [] := by
    rw [hes]
    simp
  obtain ⟨before, after, hs, -, -⟩ := exists_of_eventsOf_cons hsplit
  exact ⟨before, content, after, hs, hreturned.printed⟩

omit [PyFloat F] [DecidableEq ι] in
/-- An undisturbed write finds no file. -/
theorem Undisturbed.absent {d t : Disk} {s before after : List (ι × Event F)} {i : ι}
    {content : Str} (h : Undisturbed s)
    (hs : s = before ++ (i, ⟨.writeState content, some ()⟩) :: after)
    (ht : Changes d (before.map Prod.snd) t) : t.state = none := by
  obtain ⟨start, between, rfl, hquiet⟩ := h before i content after hs
  rw [List.map_append] at ht
  obtain ⟨u, -, hrest⟩ := follows_append.mp ht
  have hchecked : Quiet (((i, ⟨.stateExists, some false⟩) :: between).map Prod.snd) := by
    intro x hx
    obtain ⟨y, hy, rfl⟩ := List.mem_map.mp hx
    obtain rfl | hy := List.mem_cons.mp hy
    · rfl
    · exact hquiet y hy
  obtain rfl := changes_of_quiet hchecked hrest
  exact absent_of_head rfl hrest

/-- Where no receipt is replaced, nothing is written after a receipt: a second write would
find the file of the first one. -/
theorem Scheduled.no_write_after {script : Script F} {path : Str} {calls : ι → Object F × Str}
    {d d' : Disk} {s : List (ι × Event F)}
    {outcome : ι → Outcome (Raised JourneyError) (Object F)}
    (h : Scheduled script path calls d s outcome d')
    (habsent : ∀ before i content after t,
      s = before ++ (i, ⟨.writeState content, some ()⟩) :: after →
      Changes d (before.map Prod.snd) t → t.state = none)
    {before after : List (ι × Event F)} {i : ι} {content : Str}
    (hs : s = before ++ (i, ⟨.writeState content, some ()⟩) :: after) :
    ∀ x ∈ after, x.2.op.writes = false := by
  rintro ⟨j, x⟩ hx
  by_contra hwrites
  have hmem : (j, x) ∈ s := by simp [hs, hx]
  obtain ⟨content', rfl⟩ := h.written hmem (by simpa using hwrites)
  obtain ⟨between, rest, rfl⟩ := List.append_of_mem hx
  have hsplit : s = (before ++ (i, ⟨.writeState content, some ()⟩) :: between) ++
      (j, ⟨.writeState content', some ()⟩) :: rest := by simp [hs]
  obtain ⟨t, ht, -⟩ := h.exists_files hsplit
  have hwritten : (i, ⟨.writeState content, some ()⟩) ∈
      before ++ (i, ⟨.writeState content, some ()⟩) :: between := by simp
  exact exists_of_write hwritten ht (habsent _ j content' rest t hsplit ht)

/-- Where no receipt is replaced, runs of `prepare` keep the first one. -/
theorem Scheduled.keeps {script : Script F} {path : Str} {calls : ι → Object F × Str}
    {d d' : Disk} {s : List (ι × Event F)}
    {outcome : ι → Outcome (Raised JourneyError) (Object F)}
    (h : Scheduled script path calls d s outcome d')
    (habsent : ∀ before i content after t,
      s = before ++ (i, ⟨.writeState content, some ()⟩) :: after →
      Changes d (before.map Prod.snd) t → t.state = none) :
    KeepsReceipt script d s outcome d' := by
  refine ⟨habsent, fun i j state state' hi hj => ?_, fun i state hi => ?_⟩
  · obtain ⟨before, content, after, hs, -⟩ := h.write_of_returned hi
    obtain ⟨before', content', after', hs', -⟩ := h.write_of_returned hj
    have hmem : (j, ⟨.writeState content', some ()⟩) ∈
        before ++ (i, ⟨.writeState content, some ()⟩) :: after := by simp [← hs, hs']
    obtain hbefore | hmem := List.mem_append.mp hmem
    · obtain ⟨t, ht, -⟩ := h.exists_files hs
      have hquiet := h.quiet_before hs ht (habsent _ i content after t hs ht) _ hbefore
      cases hquiet
    · obtain hsame | hafter := List.mem_cons.mp hmem
      · exact (Prod.mk.inj hsame).1.symm
      · have hquiet := h.no_write_after habsent hs _ hafter
        cases hquiet
  · obtain ⟨before, content, after, hs, hprinted⟩ := h.write_of_returned hi
    refine ⟨content, hprinted, ?_⟩
    obtain ⟨t, -, hrest⟩ := h.exists_files hs
    cases hrest with
    | cons hx hafter =>
      obtain ⟨-, hstate⟩ := after_writeState hx
      have hquiet : Quiet (after.map Prod.snd) := by
        intro x hx
        obtain ⟨y, hy, rfl⟩ := List.mem_map.mp hx
        exact h.no_write_after habsent hs y hy
      rw [changes_of_quiet hquiet hafter, hstate]

/-- Concurrent runs of `prepare` keep a receipt exactly if no write comes between the last
check of a run and its own write. -/
theorem keepsReceipt_iff {script : Script F} {path : Str} {calls : ι → Object F × Str}
    {d d' : Disk} {s : List (ι × Event F)}
    {outcome : ι → Outcome (Raised JourneyError) (Object F)}
    (h : Scheduled script path calls d s outcome d') :
    KeepsReceipt script d s outcome d' ↔ Undisturbed s := by
  constructor
  · intro hkeeps before i content after hs
    have hown : eventsOf i s =
        eventsOf i before ++ ⟨.writeState content, some ()⟩ :: eventsOf i after := by
      rw [hs, eventsOf_append, eventsOf_cons_self]
    obtain ⟨-, ⟨earlier, hearlier⟩, -⟩ := prepare_at_write (hown ▸ h.runs i)
    obtain ⟨start, between, hbefore, -, -⟩ := exists_of_eventsOf_cons hearlier
    obtain ⟨t, ht, -⟩ := h.exists_files hs
    have hquiet := h.quiet_before hs ht (hkeeps.absent before i content after t hs ht)
    exact ⟨start, between, hbefore, fun x hx => hquiet x (by simp [hbefore, hx])⟩
  · intro hundisturbed
    exact h.keeps fun before i content after t hs ht => hundisturbed.absent hs ht

omit [DecidableEq ι] in
/-- A run of `prepare` that is over before the others write is not disturbed. -/
theorem undisturbed_of_first {script : Script F} {scenario : Object F} {sourceTaskId path : Str}
    {es : List (Event F)} {o : Outcome (Raised JourneyError) (Object F)}
    (ht : Trace (prepare script scenario sourceTaskId path) es o) (i : ι)
    {rest : List (ι × Event F)} (hrest : ∀ x ∈ rest, x.2.op.writes = false) :
    Undisturbed ((es.map fun x => (i, x)) ++ rest) := by
  intro before j content after hs
  obtain ⟨late, -, hlate⟩ | ⟨own, hown, hlate⟩ := List.append_eq_append_iff.mp hs
  · have hquiet := hrest (j, ⟨.writeState content, some ()⟩) (by simp [hlate])
    cases hquiet
  · cases own with
    | nil =>
      have hlast : (j, ⟨.writeState content, some ()⟩) :: after = rest := hlate
      have hquiet := hrest (j, ⟨.writeState content, some ()⟩) (by simp [← hlast])
      cases hquiet
    | cons x own =>
      obtain ⟨rfl, rfl⟩ := List.cons.inj hlate
      obtain ⟨past, written, rfl, rfl, hwritten⟩ := List.map_eq_append_iff.mp hown
      obtain ⟨y, later, rfl, hy, -⟩ := List.map_eq_cons_iff.mp hwritten
      obtain ⟨rfl, rfl⟩ := Prod.mk.inj hy
      obtain ⟨-, ⟨earlier, rfl⟩, -⟩ := prepare_at_write ht
      refine ⟨earlier.map fun x => (i, x), [(i, ⟨.makeParents, some ()⟩)],
        List.map_append, ?_⟩
      intro x hx
      rw [List.mem_singleton.mp hx]
      rfl

/-! ### Two runs at once -/

/-- Two runs with the sample scenario on two source tasks. -/
def pairedCalls (second : Bool) : Object Unit × Str :=
  (sampleScenario, if second then lit "other" else lit "task")

/-- The execution of one of them on its own. -/
def pairedRun (second : Bool) : List (Event Unit) × Outcome (Raised JourneyError) (Object Unit) :=
  (prepare sampleScript (pairedCalls second).1 (pairedCalls second).2 (lit "state")).run
    (sampleHost []) []

/-- Such an execution is one of the traces. -/
theorem pairedRun_trace (second : Bool) : Trace (prepare sampleScript (pairedCalls second).1
    (pairedCalls second).2 (lit "state")) (pairedRun second).1 (pairedRun second).2 :=
  Program.run_trace (sampleHost []) [] _

/-- Both return where they are not disturbed. -/
theorem pairedRun_returns (second : Bool) : ∃ state, (pairedRun second).2 = .returned state := by
  have hreturned : ∀ second, (pairedRun second).2.isReturned = true := by decide +kernel
  exact Outcome.exists_result (hreturned second)

/-- One run after the other, which is refused. -/
def orderedSchedule : List (Bool × Event Unit) :=
  ((pairedRun false).1.map fun x => (false, x)) ++ [(true, ⟨.stateExists, some true⟩)]

/-- How the two runs end in this order. -/
def orderedOutcome (second : Bool) : Outcome (Raised JourneyError) (Object Unit) :=
  if second then
    .raised (.own ⟨lit "refusing to replace existing prepare state: " ++ lit "state"⟩)
  else (pairedRun false).2

/-- The second run is refused where the first one has come before it, and the receipt of
the first one stays. -/
theorem orderedSchedule_keeps : ∃ d',
    Scheduled sampleScript (lit "state") pairedCalls ⟨none, none⟩ orderedSchedule orderedOutcome
      d' ∧
    KeepsReceipt sampleScript ⟨none, none⟩ orderedSchedule orderedOutcome d' := by
  obtain ⟨state, hstate⟩ := pairedRun_returns false
  have hrun := pairedRun_trace false
  rw [hstate] at hrun
  obtain ⟨checked, content, hes, hchecked⟩ := prepare_files hrun
  have hscheduled : Scheduled sampleScript (lit "state") pairedCalls ⟨none, none⟩ orderedSchedule
      orderedOutcome ⟨some content, none⟩ := by
    refine ⟨fun second => ?_, ?_⟩
    · cases second with
      | false =>
        have hown : eventsOf false orderedSchedule = (pairedRun false).1 := by
          rw [orderedSchedule, eventsOf_append, eventsOf_map_self]
          exact List.append_nil _
        rw [hown]
        exact pairedRun_trace false
      | true =>
        have hown : eventsOf true orderedSchedule = [⟨.stateExists, some true⟩] := by
          rw [orderedSchedule, eventsOf_append, eventsOf_map_of_ne (by decide)]
          rfl
        rw [hown]
        exact @Trace.step Action (Response Unit) _ _ .stateExists _ true [] _ (.fail _)
    · have hfiles : Changes ⟨none, none⟩ (checked ++ [⟨.writeState content, some ()⟩,
          ⟨.stateExists, some true⟩]) ⟨some content, none⟩ :=
        follows_append.mpr ⟨_, hchecked _ rfl, changes_of_foldlM rfl⟩
      simpa [orderedSchedule, hes, Function.comp_def] using hfiles
  refine ⟨_, hscheduled, (keepsReceipt_iff hscheduled).mpr ?_⟩
  refine undisturbed_of_first (pairedRun_trace false) false fun x hx => ?_
  rw [List.mem_singleton.mp hx]
  rfl

/-- The second run falls between the last check and the write of the first one. -/
def racingSchedule : List (Bool × Event Unit) :=
  ((pairedRun false).1.dropLast.map fun x => (false, x)) ++
    (((pairedRun true).1.map fun x => (true, x)) ++
      (pairedRun false).1.getLast?.toList.map fun x => (false, x))

/-- In the race both runs return, and the receipt of the second one is replaced. -/
theorem racingSchedule_replaces : ∃ d',
    Scheduled sampleScript (lit "state") pairedCalls ⟨none, none⟩ racingSchedule
      (fun second => (pairedRun second).2) d' ∧
    (∀ second, ∃ state, (pairedRun second).2 = .returned state) ∧
    ¬KeepsReceipt sampleScript ⟨none, none⟩ racingSchedule (fun second => (pairedRun second).2)
      d' := by
  obtain ⟨state, hstate⟩ := pairedRun_returns false
  obtain ⟨state', hstate'⟩ := pairedRun_returns true
  have hrun := pairedRun_trace false
  rw [hstate] at hrun
  obtain ⟨checked, content, hes, hchecked⟩ := prepare_files hrun
  have hrun' := pairedRun_trace true
  rw [hstate'] at hrun'
  obtain ⟨checked', content', hes', hchecked'⟩ := prepare_files hrun'
  refine ⟨⟨some content, none⟩, ⟨fun second => ?_, ?_⟩, pairedRun_returns, fun hkeeps => ?_⟩
  · have hown : eventsOf second racingSchedule = (pairedRun second).1 := by
      cases second with
      | false =>
        rw [racingSchedule, eventsOf_append, eventsOf_append, eventsOf_map_self,
          eventsOf_map_of_ne (by decide), eventsOf_map_self, hes]
        simp
      | true =>
        rw [racingSchedule, eventsOf_append, eventsOf_append, eventsOf_map_self,
          eventsOf_map_of_ne (by decide), eventsOf_map_of_ne (by decide), List.nil_append,
          List.append_nil]
    rw [hown]
    exact pairedRun_trace second
  · have hfiles : Changes ⟨none, none⟩ (checked ++ (checked' ++
        [⟨.writeState content', some ()⟩, ⟨.writeState content, some ()⟩]))
        ⟨some content, none⟩ :=
      follows_append.mpr ⟨_, hchecked _ rfl,
        follows_append.mpr ⟨_, hchecked' _ rfl, changes_of_foldlM rfl⟩⟩
    simpa [racingSchedule, hes, hes', Function.comp_def] using hfiles
  · exact absurd (hkeeps.once false true state state' hstate hstate') (by decide)

end MarketIntelligence.Journey
