import MarketIntelligence.Interaction.Schedules
import MarketIntelligence.Journey.FileSystem
import MarketIntelligence.Journey.Passages

/-!
# Overlapping calls of both phases

Any number of calls of `prepare` and `resume` on one state path, with their system calls
interleaved in any order. The contract of a call says what it has done before a system call. The
calls share the temporary file, and where no other one goes on that has opened it, a call finds
there what it has written.
-/

namespace MarketIntelligence.Journey

open Python Interaction

variable {F : Type} {ι : Type} [PyFloat F]

/-! ### Calls and their system calls -/

/-- The contract of a call. -/
def Call.contract (script : Script F) :
    Call F → Contract Action (Response F) (Raised JourneyError) (Object F)
  | .prepare scenario sourceTaskId => prepareContract script scenario sourceTaskId
  | .resume scenario => resumeContract script scenario

/-- A call with its system calls. -/
def Call.systemProgram (script : Script F) (path : Str) (c : Call F) : SystemProgram F (Object F) :=
  (c.program script path).expand systemCalls

/-- When a call may issue a system call. -/
def Call.Allows (script : Script F) (c : Call F) : List (SystemEvent F) → SystemCall → Prop :=
  ((c.contract script).expanded systemCalls).allows

/-- A call meets its contract. -/
theorem Call.meets (script : Script F) (path : Str) (c : Call F) :
    (c.systemProgram script path).Meets ((c.contract script).expanded systemCalls) [] := by
  refine Program.Meets.expand ?_ .nil
  cases c with
  | prepare scenario sourceTaskId => exact prepare_meets script scenario sourceTaskId path
  | resume scenario => exact resume_meets script scenario path

variable {script : Script F} {c : Call F} {past : List (SystemEvent F)}

omit [PyFloat F] in
/-- A call that has found the state file absent has made the system call for it. -/
theorem absent_of_expands {es : List (Event F)} (h : Expands systemCalls es past)
    (hhead : es.head? = some ⟨.stateExists, some false⟩) :
    (⟨.stateExists, some false⟩ : SystemEvent F) ∈ past := by
  obtain ⟨own, hown, hinfix⟩ := h.infix (List.mem_of_head? hhead)
  rw [Trace.ask_returned.mp hown] at hinfix
  exact hinfix.subset (by simp)

/-- A call that has read a state has opened the file and read its text. -/
theorem read_of_expands {es : List (Event F)} {state : Object F}
    (h : Expands systemCalls es past) (hloaded : Loaded script es state) :
    ∃ file read, (⟨.openState, some (.ok file)⟩ : SystemEvent F) ∈ past ∧
      (⟨.readFile file, some (.ok read)⟩ : SystemEvent F) ∈ past ∧
      jsonLoads script.py.limits read = .ok (.dict state) := by
  obtain ⟨read, hhead, hloads⟩ := hloaded
  obtain ⟨own, hown, hinfix⟩ := h.infix (List.mem_of_head? hhead)
  obtain ⟨file, rfl⟩ := trace_readState_calls hown
  exact ⟨file, read, hinfix.subset (by simp), hinfix.subset (by simp), hloads⟩

/-- A system call of a call begins one of its operations, or it reads a file that was opened,
or it goes on with one that was created. -/
theorem Call.Allows.begins_or {x : SystemCall} (h : c.Allows script past x) :
    (∃ es op, Expands systemCalls es past ∧ (c.contract script).allows es op ∧
      x = op.firstCall) ∨
    (∃ file, (⟨.openState, some (.ok file)⟩ : SystemEvent F) ∈ past ∧ x = .readFile file) ∨
    ∃ file base filled, (past = base ++ ⟨.createState, some file⟩ :: putEvents file 0 filled ∨
        past = base ++ ⟨.createTemporary, some file⟩ :: putEvents file 0 filled) ∧
      (x = .close file ∨ ∃ c, x = .put file filled.length c) := by
  obtain ⟨es, op, base, own, next, rfl, hes, hallows, hafter⟩ := h
  obtain ⟨rfl, hop⟩ | ⟨file, -, rfl, hop⟩ | ⟨file, filled, rest, hown, hop⟩ :=
    after_systemCalls hafter
  · exact .inl ⟨es, op, by simpa using hes, hallows, hop⟩
  · exact .inr (.inl ⟨file, by simp, hop⟩)
  · refine .inr (.inr ⟨file, base, filled, ?_, hop.imp And.right ?_⟩)
    · exact hown.imp (fun h => by rw [h.2]) fun h => by rw [h.2]
    · rintro ⟨c, later, -, hput⟩
      exact ⟨c, hput⟩

/-- What begins an operation was issued for such a one. -/
theorem Call.Allows.begins (first : Action) (h : c.Allows script past first.firstCall) :
    ∃ es op, Expands systemCalls es past ∧ (c.contract script).allows es op ∧
      first.firstCall = op.firstCall := by
  obtain hbegins | ⟨file, -, hop⟩ | ⟨file, _, _, -, hop | ⟨_, hop⟩⟩ := h.begins_or
  · exact hbegins
  · cases first <;> cases hop
  · cases first <;> cases hop
  · cases first <;> cases hop

omit [PyFloat F] in
/-- A call whose operations have changed no file has made no system call that does. -/
theorem quiet_of_expands {es : List (Event F)} (h : Expands systemCalls es past) (hes : Quiet es) :
    ∀ x ∈ past, x.op.changes = false := by
  intro x hx
  obtain ⟨op, a, own, hmem, hown, hx⟩ := h.of_mem hx
  exact quiet_systemCalls hown (hes _ hmem) x hx

/-- A call that creates the state file has found it absent, and has changed no file before. -/
theorem Call.Allows.createState (h : c.Allows script past .createState) :
    (⟨.stateExists, some false⟩ : SystemEvent F) ∈ past ∧ ∀ x ∈ past, x.op.changes = false := by
  obtain ⟨es, op, hes, hallows, hop⟩ := Call.Allows.begins (.writeState []) h
  cases op with
  | writeState content =>
    cases c with
    | prepare scenario sourceTaskId =>
      obtain ⟨⟨-, hfirst⟩ | hhead, -, hquiet, -⟩ := hallows
      · cases hfirst
      · exact ⟨absent_of_expands hes hhead, quiet_of_expands hes hquiet⟩
    | resume scenario =>
      obtain ⟨-, hfirst⟩ | ⟨_, -, -, ⟨hcommand, -⟩ | ⟨_, -, ⟨hother, -⟩ | ⟨hother, -⟩⟩⟩ := hallows
      · cases hfirst
      · cases hcommand
      · cases hother
      · cases hother
  | _ => cases hop

/-- A call that opens the temporary file is a `resume` that has opened the state file. -/
theorem Call.Allows.createTemporary (h : c.Allows script past .createTemporary) :
    (∃ scenario, c = .resume scenario) ∧
      ∃ file, (⟨.openState, some (.ok file)⟩ : SystemEvent F) ∈ past := by
  obtain ⟨es, op, hes, hallows, hop⟩ := Call.Allows.begins (.writeTemporary []) h
  cases op with
  | writeTemporary content =>
    cases c with
    | prepare scenario sourceTaskId =>
      obtain ⟨-, -, -, hwrites⟩ := hallows
      obtain ⟨_, hother, -⟩ := hwrites rfl
      cases hother
    | resume scenario =>
      obtain ⟨-, hfirst⟩ | ⟨state, hloaded, -⟩ := hallows
      · cases hfirst
      · obtain ⟨file, read, hopen, -⟩ := read_of_expands hes hloaded
        exact ⟨⟨scenario, rfl⟩, file, hopen⟩
  | _ => cases hop

/-- A call that moves the temporary file has filled and closed it, with the completion of a
prepared receipt that it has read. -/
theorem Call.Allows.replaceState (h : c.Allows script past .replaceState) :
    ∃ base file content, past = base ++ ⟨.createTemporary, some file⟩ ::
        (putEvents file 0 content ++ [⟨.close file, some ()⟩]) ∧
      ∃ opened read state, (⟨.openState, some (.ok opened)⟩ : SystemEvent F) ∈ past ∧
        (⟨.readFile opened, some (.ok read)⟩ : SystemEvent F) ∈ past ∧
        jsonLoads script.py.limits read = .ok (.dict state) ∧ PreparedReceipt state ∧
        Completed script state content := by
  obtain ⟨es, op, hes, hallows, hop⟩ := Call.Allows.begins .replaceState h
  cases op with
  | replaceState =>
    cases c with
    | prepare scenario sourceTaskId =>
      obtain ⟨-, -, -, hwrites⟩ := hallows
      obtain ⟨_, hother, -⟩ := hwrites rfl
      cases hother
    | resume scenario =>
      obtain ⟨-, hfirst⟩ | ⟨state, hloaded, hreceipt, ⟨hcommand, -⟩ | ⟨content, hcompleted,
        ⟨hother, -⟩ | ⟨-, es, -, rfl⟩⟩⟩ := hallows
      · cases hfirst
      · cases hcommand
      · cases hother
      · obtain ⟨opened, read, hopen, hread, hloads⟩ := read_of_expands hes hloaded
        obtain ⟨base, own, rfl, -, hown⟩ := hes.of_snoc
        obtain ⟨file, rfl⟩ := trace_writeTemporary_calls hown
        exact ⟨base, file, content, rfl, opened, read, state, hopen, hread, hloads, hreceipt,
          hcompleted⟩
  | _ => cases hop

/-- A call reads a file that it has opened. -/
theorem Call.Allows.readFile {file : ℕ} (h : c.Allows script past (.readFile file)) :
    (⟨.openState, some (.ok file)⟩ : SystemEvent F) ∈ past := by
  obtain ⟨_, op, -, -, hop⟩ | ⟨_, hopen, hop⟩ | ⟨_, _, _, -, hop | ⟨_, hop⟩⟩ := h.begins_or
  · cases op <;> cases hop
  · cases hop
    exact hopen
  · cases hop
  · cases hop

/-- A call writes to a file that it has created. It has filled a temporary file since then. -/
theorem Call.Allows.put {file position : ℕ} {d : Chr}
    (h : c.Allows script past (.put file position d)) :
    (⟨.createState, some file⟩ : SystemEvent F) ∈ past ∨
      ∃ base filled, past = base ++ ⟨.createTemporary, some file⟩ :: putEvents file 0 filled := by
  obtain ⟨_, op, -, -, hop⟩ | ⟨_, -, hop⟩ | ⟨_, base, filled, hpast, hop | ⟨_, hop⟩⟩ := h.begins_or
  · cases op <;> cases hop
  · cases hop
  · cases hop
  · cases hop
    obtain rfl | rfl := hpast
    · exact .inl (by simp)
    · exact .inr ⟨base, filled, rfl⟩

/-- Before a `prepare` has found the state file absent it does nothing but ask. -/
theorem Call.Allows.stateExists {scenario : Object F} {sourceTaskId : Str} {x : SystemCall}
    (h : (Call.prepare scenario sourceTaskId).Allows script past x)
    (hfound : (⟨.stateExists, some false⟩ : SystemEvent F) ∉ past) : x = .stateExists := by
  obtain ⟨es, op, base, own, next, rfl, hes, hallows, hafter⟩ := h
  obtain ⟨hstart, rfl⟩ | hhead := hallows.1
  · obtain ⟨-, hop⟩ | ⟨_, hop, -⟩ | ⟨_, _, _, ⟨hop, -⟩ | ⟨hop, -⟩, -⟩ := after_systemCalls hafter
    · exact hop
    · cases hop
    · cases hop
    · cases hop
  · exact absurd (List.mem_append_left _ (absent_of_expands hes hhead)) hfound

/-- A `prepare` that has returned has created the state file and written the receipt to it. -/
theorem prepare_system_returned {path : Str} {scenario state : Object F} {sourceTaskId : Str}
    {es : List (SystemEvent F)}
    (ht : Trace ((Call.prepare scenario sourceTaskId).systemProgram script path) es
      (.returned state)) :
    ∃ base file content, es = base ++ ⟨.createState, some file⟩ ::
        (putEvents file 0 content ++ [⟨.close file, some ()⟩]) ∧
      receiptText script state = .ok content ∧ Prepared script scenario sourceTaskId content := by
  obtain ⟨events, hevents, hexpands⟩ := ht.of_expand
  obtain ⟨content, r, taught, review, task, selection, use, a, hreturned⟩ :=
    prepare_returned hevents
  obtain ⟨key, hashes, before, used, -, -, -, hstate, rfl⟩ := hreturned.gathered
  have hlast : (⟨.stateExists, some false⟩ : Event F) :: (before ++ (used ++
      [⟨.stateExists, some false⟩, ⟨.makeParents, some ()⟩, ⟨.writeState content, some ()⟩])) =
      (⟨.stateExists, some false⟩ :: (before ++ (used ++
        [⟨.stateExists, some false⟩, ⟨.makeParents, some ()⟩]))) ++
        [⟨.writeState content, some ()⟩] := by simp
  rw [hlast] at hexpands
  obtain ⟨base, own, hes, -, hown⟩ := hexpands.of_snoc
  obtain ⟨file, rfl⟩ := trace_writeState_calls hown
  exact ⟨base, file, content, hes, hreturned.printed, key, r, _, state, hstate, hreturned.printed⟩

/-- A `resume` that has returned has moved its temporary file. -/
theorem replaceState_of_returned {path : Str} {scenario result : Object F}
    {es : List (SystemEvent F)}
    (ht : Trace ((Call.resume scenario).systemProgram script path) es (.returned result)) :
    (⟨.replaceState, some ()⟩ : SystemEvent F) ∈ es := by
  obtain ⟨-, hreturns, -⟩ := ht.meets (Call.meets script path _)
  obtain ⟨_, hexpands, past, state, content, -, -, -, rfl⟩ := hreturns result rfl
  have hmem : (⟨.replaceState, some ()⟩ : Event F) ∈
      past ++ [⟨.writeTemporary content, some ()⟩, ⟨.replaceState, some ()⟩] := by simp
  obtain ⟨own, hown, hinfix⟩ := hexpands.infix hmem
  rw [Trace.ask_returned.mp hown] at hinfix
  exact hinfix.subset (by simp)

/-! ### Schedules -/

variable [DecidableEq ι]

/-- Calls on one path whose system calls take place in the order of a schedule. -/
structure Overlapping (script : Script F) (path : Str) (calls : ι → Call F) (fs : FileSystem)
    (s : List (ι × SystemEvent F)) (outcome : ι → Outcome (Raised JourneyError) (Object F))
    (fs' : FileSystem) : Prop where
  runs : ∀ i, Trace ((calls i).systemProgram script path) (eventsOf i s) (outcome i)
  files : Follows FileSystem.Becomes fs (s.map Prod.snd) fs'

omit [PyFloat F] in
/-- A call that opens the temporary file finds the others that have opened it at their ends. -/
def Exclusive (s : List (ι × SystemEvent F)) : Prop :=
  ∀ first i file middle j file' last,
    s = first ++ (i, ⟨.createTemporary, some file⟩) ::
      (middle ++ (j, ⟨.createTemporary, some file'⟩) :: last) → i ≠ j → eventsOf i last = []

variable {path : Str} {calls : ι → Call F} {fs fs' t : FileSystem}
variable {s before rest : List (ι × SystemEvent F)}
variable {outcome : ι → Outcome (Raised JourneyError) (Object F)}

/-- The calls issue allowed system calls only. -/
theorem Overlapping.allowed (h : Overlapping script path calls fs s outcome fs') :
    ScheduleAllowed (fun i => (calls i).Allows script) s :=
  fun i => ((h.runs i).meets (Call.meets script path (calls i))).1

/-- A system call of a part of the schedule was allowed after own ones of this part. -/
theorem Overlapping.allowed_of_mem (h : Overlapping script path calls fs s outcome fs')
    {i : ι} {x : SystemEvent F}
    (hs : s = before ++ rest) (hmem : (i, x) ∈ before) :
    ∃ past, (calls i).Allows script past x.op ∧ ∀ y ∈ past, (i, y) ∈ before := by
  obtain ⟨start, later, rfl⟩ := List.append_of_mem hmem
  refine ⟨eventsOf i start, h.allowed.of_split (hs.trans (List.append_assoc ..)), fun y hy => ?_⟩
  exact List.mem_append_left _ (mem_eventsOf.mp hy)

/-- Calls of which one resumes at most never have the temporary file open at once. -/
theorem Overlapping.exclusive (h : Overlapping script path calls fs s outcome fs')
    (hone : ∀ i j scenario scenario', calls i = .resume scenario → calls j = .resume scenario' →
      i = j) : Exclusive s := by
  intro before i file middle j file' after hs hne
  have hresume (k : ι) (g : ℕ) (hmem : (k, ⟨.createTemporary, some g⟩) ∈ s) :
      ∃ scenario, calls k = .resume scenario := by
    obtain ⟨past, hallowed, -⟩ := h.allowed_of_mem (List.append_nil s).symm hmem
    exact (Call.Allows.createTemporary hallowed).1
  obtain ⟨scenario, hi⟩ := hresume i file (by simp [hs])
  obtain ⟨scenario', hj⟩ := hresume j file' (by simp [hs])
  exact absurd (hone i j scenario scenario' hi hj) hne

omit [PyFloat F] in
/-- While a call that has opened the temporary file goes on, the others do not have it open. -/
theorem Exclusive.alone (h : Exclusive s) {i j : ι} {x y : SystemEvent F} {file other : ℕ}
    {first middle later : List (ι × SystemEvent F)}
    (hs : s = first ++ (i, ⟨.createTemporary, some file⟩) ::
      (middle ++ (j, y) :: (later ++ (i, x) :: rest))) (hne : i ≠ j) :
    (j, ⟨.createTemporary, some other⟩) ∉
      first ++ (i, ⟨.createTemporary, some file⟩) :: middle ++ [(j, y)] := by
  intro hopen
  rw [List.append_assoc, List.cons_append] at hopen
  obtain hfirst | hopen := List.mem_append.mp hopen
  · obtain ⟨start, between, rfl⟩ := List.append_of_mem hfirst
    have hnone := h start j other between i file (middle ++ (j, y) :: (later ++ (i, x) :: rest))
      (by simp [hs]) hne.symm
    rw [eventsOf_append, eventsOf_cons_self] at hnone
    simp at hnone
  obtain hsame | hopen := List.mem_cons.mp hopen
  · exact hne (Prod.mk.inj hsame).1.symm
  · obtain ⟨start, between, hsplit⟩ := List.append_of_mem hopen
    have hall : middle ++ (j, y) :: (later ++ (i, x) :: rest) =
        start ++ (j, ⟨.createTemporary, some other⟩) ::
          (between ++ (later ++ (i, x) :: rest)) := by
      have happend := congrArg (· ++ (later ++ (i, x) :: rest)) hsplit
      simpa using happend
    have hnone := h first i file start j other (between ++ (later ++ (i, x) :: rest))
      (by rw [hs, hall]) hne
    rw [eventsOf_append, eventsOf_append, eventsOf_cons_self] at hnone
    simp at hnone

/-- What another call does meanwhile leaves the temporary file alone. -/
theorem Overlapping.foreign (h : Overlapping script path calls fs s outcome fs')
    (hexclusive : Exclusive s) {i j : ι} {x y : SystemEvent F} {file : ℕ} {u v : FileSystem}
    {first middle later : List (ι × SystemEvent F)}
    (hs : s = first ++ (i, ⟨.createTemporary, some file⟩) ::
      (middle ++ (j, y) :: (later ++ (i, x) :: rest))) (hne : i ≠ j) (hu : u.Proper)
    (hcreated : (j, ⟨.createState, some file⟩) ∉
      first ++ (i, ⟨.createTemporary, some file⟩) :: middle)
    (htemporary : u.temporary = some file) (hy : u.Becomes y v) :
    v.temporary = some file ∧ v.files file = u.files file := by
  have hsplit : s = (first ++ (i, ⟨.createTemporary, some file⟩) :: middle) ++
      (j, y) :: (later ++ (i, x) :: rest) := by simp [hs]
  have hallowed := h.allowed.of_split hsplit
  have hopened (g : ℕ) : (⟨.createTemporary, some g⟩ : SystemEvent F) ∉
      eventsOf j (first ++ (i, ⟨.createTemporary, some file⟩) :: middle) := fun hmem =>
    hexclusive.alone hs hne (List.mem_append_left _ (mem_eventsOf.mp hmem))
  cases hy with
  | createState =>
    have hother : file ≠ u.target u.state := fun hsame =>
      hu.temporary_ne_target (hsame ▸ htemporary)
    exact ⟨htemporary, FileSystem.empty_files_of_ne hother⟩
  | createTemporary =>
    exact absurd (List.mem_append_right _ (List.mem_singleton_self _)) (hexclusive.alone hs hne)
  | put other position c =>
    refine ⟨htemporary, FileSystem.put_files_of_ne fun hsame => ?_⟩
    subst hsame
    obtain hstate | ⟨base, filled, hpast⟩ := Call.Allows.put hallowed
    · exact hcreated (mem_eventsOf.mp hstate)
    · exact hopened file (by simp [hpast])
  | replaceState =>
    obtain ⟨base, g, content, hpast, -⟩ := Call.Allows.replaceState hallowed
    exact absurd (by simp [hpast]) (hopened g)
  | _ => exact ⟨htemporary, rfl⟩

omit [PyFloat F] [DecidableEq ι] in
/-- The last event of filling a file, and what it is filled with before. -/
theorem putEvents_snoc {file : ℕ} {text : Str} {own : List (SystemEvent F)} {x : SystemEvent F}
    (h : own ++ [x] = putEvents file 0 text ∨
      own ++ [x] = putEvents file 0 text ++ [⟨.close file, some ()⟩]) :
    (∃ filled c, text = filled ++ [c] ∧ own = putEvents file 0 filled ∧
      x = ⟨.put file filled.length c, some ()⟩) ∨
    own = putEvents file 0 text ∧ x = ⟨.close file, some ()⟩ := by
  obtain hput | hclose := h
  · obtain rfl | ⟨filled, c, rfl⟩ := text.eq_nil_or_concat'
    · simp [putEvents] at hput
    · rw [putEvents_append, Nat.zero_add] at hput
      obtain ⟨rfl, hlast⟩ := List.append_inj' hput rfl
      exact .inl ⟨filled, c, rfl, rfl, (List.cons.inj hlast).1⟩
  · obtain ⟨rfl, hlast⟩ := List.append_inj' hclose rfl
    exact .inr ⟨rfl, (List.cons.inj hlast).1⟩

/-- A call that has opened the temporary file and goes on finds there what it has written. -/
theorem Overlapping.written (h : Overlapping script path calls fs s outcome fs')
    (hexclusive : Exclusive s) (hproper : fs.Proper) {i : ι} {x : SystemEvent F}
    (hs : s = before ++ (i, x) :: rest) (ht : Follows FileSystem.Becomes fs (before.map Prod.snd) t)
    {base own : List (SystemEvent F)} {file : ℕ} {text : Str}
    (hbase : eventsOf i before = base ++ ⟨.createTemporary, some file⟩ :: own)
    (hown : own = putEvents file 0 text ∨ own = putEvents file 0 text ++ [⟨.close file, some ()⟩])
    (hcreated : ∀ j, (j, ⟨.createState, some file⟩) ∉ before) :
    t.temporary = some file ∧ t.files file = text := by
  obtain ⟨first, between, rfl, -, hbetween⟩ := exists_of_eventsOf_cons hbase
  rw [List.map_append] at ht
  obtain ⟨u, hfirst, hopen⟩ := follows_append.mp ht
  have hu := hproper.follows hfirst
  clear ht hbase
  suffices hpart : ∀ middle later v text, between = middle ++ later →
      Follows FileSystem.Becomes u
        (((i, ⟨.createTemporary, some file⟩) :: middle).map Prod.snd) v →
      (eventsOf i middle = putEvents file 0 text ∨
        eventsOf i middle = putEvents file 0 text ++ [⟨.close file, some ()⟩]) →
      v.Proper ∧ v.temporary = some file ∧ v.files file = text by
    rw [← hbetween] at hown
    exact (hpart between [] t text (List.append_nil _).symm hopen hown).2
  intro middle
  induction middle using List.reverseRecOn with
  | nil =>
    rintro later v text - hv hevents
    have hnil : text = [] := by
      cases text with
      | nil => rfl
      | cons c text => simp [eventsOf, putEvents] at hevents
    cases hv with
    | cons hx hnone =>
      cases hnone
      have hv := hu.becomes hx
      cases hx
      exact ⟨hv, rfl, by rw [hnil]; exact u.empty_files _⟩
  | append_singleton middle last ih =>
    obtain ⟨j, y⟩ := last
    rintro later v text rfl hv hevents
    rw [← List.cons_append, List.map_append] at hv
    obtain ⟨w, hw, hlast⟩ := follows_append.mp hv
    cases hlast with
    | cons hy hnone =>
      cases hnone
      rw [eventsOf_append] at hevents
      by_cases hsame : i = j
      · subst hsame
        rw [eventsOf_cons_self] at hevents
        obtain ⟨filled, c, rfl, hfilled, rfl⟩ | ⟨hfilled, rfl⟩ := putEvents_snoc hevents
        · obtain ⟨hproper, htemporary, hfile⟩ :=
            ih _ w filled (List.append_assoc ..) hw (.inl hfilled)
          have hv := hproper.becomes hy
          cases hy
          refine ⟨hv, htemporary, ?_⟩
          rw [← hfile]
          exact w.put_files_length file c
        · obtain ⟨hproper, htemporary, hfile⟩ :=
            ih _ w text (List.append_assoc ..) hw (.inl hfilled)
          have hv := hproper.becomes hy
          cases hy
          exact ⟨hv, htemporary, hfile⟩
      · have hnone : eventsOf i [(j, y)] = [] := by simp [eventsOf, Ne.symm hsame]
        rw [hnone, List.append_nil] at hevents
        obtain ⟨hproper, htemporary, hfile⟩ := ih _ w text (List.append_assoc ..) hw hevents
        have hall : s = first ++ (i, ⟨.createTemporary, some file⟩) ::
            (middle ++ (j, y) :: (later ++ (i, x) :: rest)) := by simp [hs]
        have hother : (j, ⟨.createState, some file⟩) ∉
            first ++ (i, ⟨.createTemporary, some file⟩) :: middle := by
          intro hmem
          have hlater := List.mem_append_left ((j, y) :: later) hmem
          exact hcreated j (by simpa using hlater)
        obtain ⟨hopen, htext⟩ :=
          h.foreign hexclusive hall hsame hproper hother htemporary hy
        exact ⟨hproper.becomes hy, hopen, htext.trans hfile⟩

end MarketIntelligence.Journey
