import MarketIntelligence.Interaction.Implementation
import MarketIntelligence.Journey.StateFile
import Mathlib.Logic.Function.Basic

/-!
# The journey at the file system

Reading and writing a text takes several system calls: a file is opened and read, or it is
created or emptied and then filled. Between two of them other processes may do anything. A path
leads to a file, and a file that is moved stays the same file for those who have opened it.
-/

namespace MarketIntelligence.Journey

open Python Interaction

variable {F : Type}

/-! ### System calls -/

/-- A system call of the journey, or a command, which does not concern the two files. -/
inductive SystemCall
  | json (arguments : List Str)
  | failure (arguments : List Str)
  | stateExists
  /-- The state file is opened for reading. -/
  | openState
  /-- Everything is read from a file that was opened. -/
  | readFile (file : ℕ)
  | makeParents
  /-- The state file is opened for writing: it is created, or emptied. -/
  | createState
  /-- The temporary file is opened for writing. -/
  | createTemporary
  /-- One character is written to a file that was opened, where the last one has ended. -/
  | put (file position : ℕ) (c : Chr)
  | close (file : ℕ)
  /-- The temporary file becomes the state file. -/
  | replaceState

/-- Whether a system call changes a file, or where a path leads. -/
def SystemCall.changes : SystemCall → Bool
  | .createState | .createTemporary | .put .. | .replaceState => true
  | _ => false

/-- What a system call returns. A file that was opened is known by its number. -/
abbrev SystemResponse (F : Type) : SystemCall → Type
  | .json _ => Object F
  | .failure _ => Str
  | .stateExists => Bool
  | .openState => Except BuiltinError ℕ
  | .readFile _ => Except BuiltinError Str
  | .makeParents => Unit
  | .createState => ℕ
  | .createTemporary => ℕ
  | .put .. => Unit
  | .close _ => Unit
  | .replaceState => Unit

/-- A system call with its response; it has failed where there is none. -/
abbrev SystemEvent (F : Type) : Type := Exchange SystemCall (SystemResponse F)

/-- A computation with system calls. -/
abbrev SystemProgram (F α : Type) : Type :=
  Program SystemCall (SystemResponse F) (Raised JourneyError) α

/-- Filling a file from a position on, and closing it. -/
def fill (file : ℕ) : ℕ → Str → SystemProgram F Unit
  | _, [] => .ask (.close file) fun _ => .done ()
  | position, c :: text => .ask (.put file position c) fun _ => fill file (position + 1) text

/-- The system calls for an operation of a phase. -/
def systemCalls : (op : Action) → SystemProgram F (Response F op)
  | .json arguments => .ask (.json arguments) .done
  | .failure arguments => .ask (.failure arguments) .done
  | .stateExists => .ask .stateExists .done
  | .readState => .ask .openState fun opened =>
      match opened with
      | .ok file => .ask (.readFile file) .done
      | .error e => .done (.error e)
  | .makeParents => .ask .makeParents .done
  | .writeState content => .ask .createState fun file => fill file 0 content
  | .writeTemporary content => .ask .createTemporary fun file => fill file 0 content
  | .replaceState => .ask .replaceState .done

/-- The events of filling a file. -/
def putEvents (file : ℕ) : ℕ → Str → List (SystemEvent F)
  | _, [] => []
  | position, c :: text => ⟨.put file position c, some ()⟩ :: putEvents file (position + 1) text

/-- A text with one more character is filled in by one more call. -/
theorem putEvents_append (file position : ℕ) (text : Str) (c : Chr) :
    (putEvents file position (text ++ [c]) : List (SystemEvent F)) =
      putEvents file position text ++ [⟨.put file (position + text.length) c, some ()⟩] := by
  induction text generalizing position with
  | nil => rfl
  | cons d text ih =>
    have hposition : position + 1 + text.length = position + (text.length + 1) := by omega
    rw [List.cons_append, putEvents, ih, putEvents, List.cons_append, List.length_cons, hposition]

/-- The character that was written. -/
def putChar : SystemEvent F → Option Chr
  | ⟨.put _ _ c, some _⟩ => some c
  | _ => none

/-- What was written to fill a file. -/
theorem filterMap_putEvents (file position : ℕ) (text : Str) :
    (putEvents file position text : List (SystemEvent F)).filterMap putChar = text := by
  induction text generalizing position with
  | nil => rfl
  | cons c text ih => exact congrArg (c :: ·) (ih (position + 1))

/-- What was written in a part of filling and closing a file, and what came next. -/
theorem filled_of_split {file position : ℕ} {text : Str} {own rest : List (SystemEvent F)}
    {x : SystemEvent F}
    (h : own ++ x :: rest = putEvents file position text ++ [⟨.close file, some ()⟩]) :
    x = ⟨.close file, some ()⟩ ∧ own.filterMap putChar = text ∨
      ∃ c later, text = own.filterMap putChar ++ c :: later ∧
        x = ⟨.put file (position + (own.filterMap putChar).length) c, some ()⟩ := by
  induction text generalizing own position with
  | nil =>
    cases own with
    | nil => exact .inl ⟨(List.cons.inj h).1, rfl⟩
    | cons y own => simp [putEvents] at h
  | cons c text ih =>
    cases own with
    | nil => exact .inr ⟨c, text, rfl, (List.cons.inj h).1⟩
    | cons y own =>
      obtain ⟨rfl, htail⟩ := List.cons.inj h
      obtain ⟨rfl, hall⟩ | ⟨d, later, hlater, hx⟩ := ih htail
      · exact .inl ⟨rfl, congrArg (c :: ·) hall⟩
      · refine .inr ⟨d, later, congrArg (c :: ·) hlater, ?_⟩
        rw [hx, Nat.add_right_comm]
        rfl

/-- How far a file was filled where another call is next. -/
theorem after_fill {file position : ℕ} {text : Str} {own : List (SystemEvent F)}
    {op : SystemCall} {next : SystemResponse F op → SystemProgram F Unit}
    (h : After (fill file position text) own (.ask op next)) :
    ∃ filled rest, text = filled ++ rest ∧ own = putEvents file position filled ∧
      (rest = [] ∧ op = .close file ∨
        ∃ c later, rest = c :: later ∧ op = .put file (position + filled.length) c) := by
  induction text generalizing position own with
  | nil =>
    have hclose : After (.ask (.close file) fun _ => .done () : SystemProgram F Unit) own
      (.ask op next) := h
    cases hclose with
    | refl => exact ⟨[], [], rfl, rfl, .inl ⟨rfl, rfl⟩⟩
    | step a hrest => cases hrest
  | cons c text ih =>
    have hput : After (.ask (.put file position c) fun _ => fill file (position + 1) text)
      own (.ask op next) := h
    cases hput with
    | refl => exact ⟨[], c :: text, rfl, rfl, .inr ⟨c, text, rfl, rfl⟩⟩
    | step a hrest =>
      obtain ⟨filled, rest, rfl, rfl, hcases⟩ := ih hrest
      refine ⟨c :: filled, rest, rfl, rfl, hcases.imp id ?_⟩
      rintro ⟨d, later, hlater, rfl⟩
      refine ⟨d, later, hlater, ?_⟩
      rw [List.length_cons, Nat.add_right_comm, Nat.add_assoc]

/-- A file that was filled and closed. -/
theorem trace_fill {file position : ℕ} {text : Str} {own : List (SystemEvent F)} {a : Unit}
    (h : Trace (fill file position text) own (.returned a)) :
    own = putEvents file position text ++ [⟨.close file, some ()⟩] := by
  induction text generalizing position own with
  | nil =>
    have hclose : Trace (.ask (.close file) fun _ => .done () : SystemProgram F Unit) own
      (.returned a) := h
    cases hclose with
    | step b hrest =>
      cases hrest
      rfl
  | cons c text ih =>
    have hput : Trace (.ask (.put file position c) fun _ => fill file (position + 1) text)
      own (.returned a) := h
    cases hput with
    | step b hrest =>
      rw [ih hrest]
      rfl

/-- A system call that returns. -/
theorem call_returns (op : SystemCall) (a : SystemResponse F op) :
    Trace (.ask op .done : SystemProgram F (SystemResponse F op)) [⟨op, some a⟩] (.returned a) :=
  Trace.ask_returned.mpr rfl

/-- A system call before the others. -/
theorem call_before {α : Type} (op : SystemCall) (a : SystemResponse F op)
    {next : SystemResponse F op → SystemProgram F α} {es : List (SystemEvent F)}
    {o : Outcome (Raised JourneyError) α} (h : Trace (next a) es o) :
    Trace (.ask op next) (⟨op, some a⟩ :: es) o := .step a h

/-- A file is filled with what is written. -/
theorem fill_returns (file position : ℕ) (text : Str) :
    Trace (fill file position text : SystemProgram F Unit)
      (putEvents file position text ++ [⟨.close file, some ()⟩]) (.returned ()) := by
  induction text generalizing position with
  | nil => exact call_returns (.close file) ()
  | cons c text ih => exact call_before (.put file position c) () (ih (position + 1))

/-- The first system call of an operation. -/
def Action.firstCall : Action → SystemCall
  | .json arguments => .json arguments
  | .failure arguments => .failure arguments
  | .stateExists => .stateExists
  | .readState => .openState
  | .makeParents => .makeParents
  | .writeState _ => .createState
  | .writeTemporary _ => .createTemporary
  | .replaceState => .replaceState

/-- The system calls of an operation before the next one. -/
theorem after_systemCalls {op : Action} {own : List (SystemEvent F)} {x : SystemCall}
    {next : SystemResponse F x → SystemProgram F (Response F op)}
    (h : After (systemCalls op) own (.ask x next)) :
    own = [] ∧ x = op.firstCall ∨
      (∃ file, op = .readState ∧ own = [⟨.openState, some (.ok file)⟩] ∧ x = .readFile file) ∨
      ∃ file filled rest,
        (op = .writeState (filled ++ rest) ∧
            own = ⟨.createState, some file⟩ :: putEvents file 0 filled ∨
          op = .writeTemporary (filled ++ rest) ∧
            own = ⟨.createTemporary, some file⟩ :: putEvents file 0 filled) ∧
        (rest = [] ∧ x = .close file ∨
          ∃ c later, rest = c :: later ∧ x = .put file filled.length c) := by
  cases op with
  | readState =>
    obtain ⟨rfl, hask⟩ | ⟨opened, fs, rfl, hrest⟩ := After.of_ask h
    · cases hask
      exact .inl ⟨rfl, rfl⟩
    · cases opened with
      | error e => cases hrest
      | ok file =>
        obtain ⟨rfl, hask⟩ | ⟨read, fs, rfl, hdone⟩ := After.of_ask hrest
        · cases hask
          exact .inr (.inl ⟨file, rfl, rfl, rfl⟩)
        · cases hdone
  | writeState content =>
    obtain ⟨rfl, hask⟩ | ⟨file, fs, rfl, hrest⟩ := After.of_ask h
    · cases hask
      exact .inl ⟨rfl, rfl⟩
    · obtain ⟨filled, rest, rfl, rfl, hcall⟩ := after_fill hrest
      rw [Nat.zero_add] at hcall
      exact .inr (.inr ⟨file, filled, rest, .inl ⟨rfl, rfl⟩, hcall⟩)
  | writeTemporary content =>
    obtain ⟨rfl, hask⟩ | ⟨file, fs, rfl, hrest⟩ := After.of_ask h
    · cases hask
      exact .inl ⟨rfl, rfl⟩
    · obtain ⟨filled, rest, rfl, rfl, hcall⟩ := after_fill hrest
      rw [Nat.zero_add] at hcall
      exact .inr (.inr ⟨file, filled, rest, .inr ⟨rfl, rfl⟩, hcall⟩)
  | json | failure | stateExists | makeParents | replaceState =>
    obtain ⟨rfl, hask⟩ | ⟨answer, fs, rfl, hdone⟩ := After.of_ask h
    · cases hask
      exact .inl ⟨rfl, rfl⟩
    · cases hdone

/-- An operation that changes no file makes no system call that does. -/
theorem quiet_systemCalls {op : Action} {own : List (SystemEvent F)} {a : Response F op}
    (h : Trace (systemCalls op) own (.returned a)) (hop : op.writes = false) :
    ∀ x ∈ own, x.op.changes = false := by
  cases op with
  | readState =>
    obtain ⟨-, hask⟩ | ⟨opened, fs, rfl, hrest⟩ := After.of_ask (after_done_iff.mpr h)
    · cases hask
    · cases opened with
      | error e =>
        obtain ⟨rfl, -⟩ := after_done hrest
        exact List.forall_mem_singleton.mpr rfl
      | ok file =>
        rw [Trace.ask_returned.mp (after_done_iff.mp hrest)]
        simp [SystemCall.changes]
  | json | failure | stateExists | makeParents =>
    rw [Trace.ask_returned.mp h]
    exact List.forall_mem_singleton.mpr rfl
  | writeState => cases hop
  | writeTemporary => cases hop
  | replaceState => cases hop

/-- A text that was read was read from a file that was opened. -/
theorem trace_readState_calls {own : List (SystemEvent F)} {content : Str}
    (h : Trace (systemCalls .readState) own (.returned (.ok content))) :
    ∃ file, own = [⟨.openState, some (.ok file)⟩, ⟨.readFile file, some (.ok content)⟩] := by
  obtain ⟨-, hask⟩ | ⟨opened, fs, rfl, hrest⟩ := After.of_ask (after_done_iff.mpr h)
  · cases hask
  · cases opened with
    | error e =>
      obtain ⟨-, hdone⟩ := after_done hrest
      cases hdone
    | ok file =>
      exact ⟨file, by rw [Trace.ask_returned.mp (after_done_iff.mp hrest)]⟩

/-- The state file was created, filled and closed. -/
theorem trace_writeState_calls {own : List (SystemEvent F)} {content : Str} {a : Unit}
    (h : Trace (systemCalls (.writeState content)) own (.returned a)) :
    ∃ file, own = ⟨.createState, some file⟩ ::
      (putEvents file 0 content ++ [⟨.close file, some ()⟩]) := by
  obtain ⟨-, hask⟩ | ⟨file, fs, rfl, hrest⟩ := After.of_ask (after_done_iff.mpr h)
  · cases hask
  · exact ⟨file, by rw [trace_fill (after_done_iff.mp hrest)]⟩

/-- So was the temporary file. -/
theorem trace_writeTemporary_calls {own : List (SystemEvent F)} {content : Str} {a : Unit}
    (h : Trace (systemCalls (.writeTemporary content)) own (.returned a)) :
    ∃ file, own = ⟨.createTemporary, some file⟩ ::
      (putEvents file 0 content ++ [⟨.close file, some ()⟩]) := by
  obtain ⟨-, hask⟩ | ⟨file, fs, rfl, hrest⟩ := After.of_ask (after_done_iff.mpr h)
  · cases hask
  · exact ⟨file, by rw [trace_fill (after_done_iff.mp hrest)]⟩

/-! ### Files -/

/-- The files by their numbers, the first number that no file has, and where the two paths
lead. -/
structure FileSystem where
  files : ℕ → Str
  next : ℕ
  state : Option ℕ
  temporary : Option ℕ

/-- A text with a character written at a position; a gap before it is filled with NUL. -/
def overwrite (text : Str) (position : ℕ) (c : Chr) : Str :=
  text.take position ++ (List.replicate (position - text.length) (chr 0) ++
    c :: text.drop (position + 1))

namespace FileSystem

/-- The file that is opened at a path: the one that is there, or a new one. -/
def target (fs : FileSystem) (path : Option ℕ) : ℕ := path.getD fs.next

/-- A file was emptied, and exists. -/
def empty (fs : FileSystem) (file : ℕ) : FileSystem :=
  { fs with files := Function.update fs.files file [], next := max fs.next (file + 1) }

/-- The state file was opened for writing. -/
def createState (fs : FileSystem) : FileSystem :=
  { fs.empty (fs.target fs.state) with state := some (fs.target fs.state) }

/-- The temporary file was opened for writing. -/
def createTemporary (fs : FileSystem) : FileSystem :=
  { fs.empty (fs.target fs.temporary) with temporary := some (fs.target fs.temporary) }

/-- A character was written. -/
def put (fs : FileSystem) (file position : ℕ) (c : Chr) : FileSystem :=
  { fs with files := Function.update fs.files file (overwrite (fs.files file) position c) }

/-- The text of the state file. -/
def text (fs : FileSystem) : Option Str := fs.state.map fs.files

/-- The paths lead to files that exist, and not to the same one. -/
structure Proper (fs : FileSystem) : Prop where
  state : ∀ file, fs.state = some file → file < fs.next
  temporary : ∀ file, fs.temporary = some file → file < fs.next
  apart : ∀ file, fs.state = some file → fs.temporary ≠ some file

/-- What becomes of the files in a system call. A call that fails changes nothing. -/
inductive Becomes (fs : FileSystem) : SystemEvent F → FileSystem → Prop
  | failed (op : SystemCall) : fs.Becomes ⟨op, none⟩ fs
  | json (arguments : List Str) (response : Object F) :
      fs.Becomes ⟨.json arguments, some response⟩ fs
  | failure (arguments : List Str) (refusal : Str) :
      fs.Becomes ⟨.failure arguments, some refusal⟩ fs
  | stateExists : fs.Becomes ⟨.stateExists, some fs.state.isSome⟩ fs
  | openState {file : ℕ} : fs.state = some file → fs.Becomes ⟨.openState, some (.ok file)⟩ fs
  | notOpened (e : BuiltinError) : fs.Becomes ⟨.openState, some (.error e)⟩ fs
  | readFile (file : ℕ) : fs.Becomes ⟨.readFile file, some (.ok (fs.files file))⟩ fs
  | notRead (file : ℕ) (e : BuiltinError) : fs.Becomes ⟨.readFile file, some (.error e)⟩ fs
  | makeParents : fs.Becomes ⟨.makeParents, some ()⟩ fs
  | createState : fs.Becomes ⟨.createState, some (fs.target fs.state)⟩ fs.createState
  | createTemporary :
      fs.Becomes ⟨.createTemporary, some (fs.target fs.temporary)⟩ fs.createTemporary
  | put (file position : ℕ) (c : Chr) :
      fs.Becomes ⟨.put file position c, some ()⟩ (fs.put file position c)
  | close (file : ℕ) : fs.Becomes ⟨.close file, some ()⟩ fs
  | replaceState {file : ℕ} : fs.temporary = some file →
      fs.Becomes ⟨.replaceState, some ()⟩ { fs with state := some file, temporary := none }

variable {fs fs' : FileSystem}

/-- A system call that does not change the files leaves them as they are. -/
theorem Becomes.quiet {x : SystemEvent F} (h : fs.Becomes x fs') (hx : x.op.changes = false) :
    fs' = fs := by
  cases h with
  | createState => cases hx
  | createTemporary => cases hx
  | put => cases hx
  | replaceState => cases hx
  | _ => rfl

/-- Whether the state file exists is what is found. -/
theorem Becomes.isSome_state {there : Bool}
    (h : fs.Becomes (⟨.stateExists, some there⟩ : SystemEvent F) fs') :
    there = fs.state.isSome := by
  cases h with
  | stateExists => rfl

/-- A file that is opened for writing is empty then. -/
@[simp] theorem empty_files (fs : FileSystem) (file : ℕ) : (fs.empty file).files file = [] := by
  simp [empty]

/-- The other files are as before. -/
theorem empty_files_of_ne {file other : ℕ} (h : other ≠ file) :
    (fs.empty file).files other = fs.files other := by
  simp [empty, h]

/-- The other files are as before a character was written. -/
theorem put_files_of_ne {file position other : ℕ} {c : Chr} (h : other ≠ file) :
    (fs.put file position c).files other = fs.files other := by
  simp [put, h]

/-- A character that is written at the end is appended. -/
theorem put_files_length (fs : FileSystem) (file : ℕ) (c : Chr) :
    (fs.put file (fs.files file).length c).files file = fs.files file ++ [c] := by
  simp [put, overwrite]

/-- A file is emptied at the end of a path, or a new one is used. -/
theorem target_eq (fs : FileSystem) (path : Option ℕ) :
    path = some (fs.target path) ∨ path = none ∧ fs.target path = fs.next := by
  cases path with
  | none => exact .inr ⟨rfl, rfl⟩
  | some file => exact .inl rfl

/-- The state file is not opened where the temporary file is. -/
theorem Proper.temporary_ne_target (h : fs.Proper) : fs.temporary ≠ some (fs.target fs.state) := by
  intro htemporary
  obtain hstate | ⟨-, hnew⟩ := fs.target_eq fs.state
  · exact h.apart _ hstate htemporary
  · exact absurd (h.temporary _ htemporary) (hnew ▸ lt_irrefl _)

/-- The temporary file is not opened where the state file is. -/
theorem Proper.state_ne_target (h : fs.Proper) : fs.state ≠ some (fs.target fs.temporary) := by
  intro hstate
  obtain htemporary | ⟨-, hnew⟩ := fs.target_eq fs.temporary
  · exact h.apart _ hstate htemporary
  · exact absurd (h.state _ hstate) (hnew ▸ lt_irrefl _)

/-- The paths stay apart. -/
theorem Proper.becomes {x : SystemEvent F} (h : fs.Proper) (hx : fs.Becomes x fs') :
    fs'.Proper := by
  cases hx with
  | createState =>
    refine ⟨fun file hfile => ?_, fun file hfile => ?_, fun file hfile htemporary => ?_⟩
    · obtain rfl := Option.some.inj hfile
      exact lt_max_of_lt_right (Nat.lt_succ_self _)
    · exact lt_max_of_lt_left (h.temporary file hfile)
    · obtain rfl := Option.some.inj hfile
      exact h.temporary_ne_target htemporary
  | createTemporary =>
    refine ⟨fun file hfile => ?_, fun file hfile => ?_, fun file hfile htemporary => ?_⟩
    · exact lt_max_of_lt_left (h.state file hfile)
    · obtain rfl := Option.some.inj hfile
      exact lt_max_of_lt_right (Nat.lt_succ_self _)
    · obtain rfl := Option.some.inj htemporary
      exact h.state_ne_target hfile
  | put => exact ⟨h.state, h.temporary, h.apart⟩
  | replaceState htemporary =>
    refine ⟨fun file hfile => ?_, fun file hfile => ?_, fun file _ hnone => ?_⟩
    · obtain rfl := Option.some.inj hfile
      exact h.temporary _ htemporary
    · cases hfile
    · cases hnone
  | _ => exact h

/-- Only where the state file is created or replaced, its path leads elsewhere. -/
theorem Becomes.state_eq {x : SystemEvent F} (hx : fs.Becomes x fs')
    (hcreate : ∀ file, x ≠ ⟨.createState, some file⟩) (hreplace : x ≠ ⟨.replaceState, some ()⟩) :
    fs'.state = fs.state := by
  cases hx with
  | createState => exact absurd rfl (hcreate _)
  | replaceState => exact absurd rfl hreplace
  | _ => rfl

/-- The paths stay apart over many system calls. -/
theorem Proper.follows {es : List (SystemEvent F)} (h : fs.Proper)
    (hes : Follows Becomes fs es fs') : fs'.Proper :=
  hes.preserves (P := FileSystem.Proper) (fun _ _ _ _ hx hs => hs.becomes hx) h

/-- A state file that exists stays. -/
theorem Becomes.exists_state {x : SystemEvent F} (hx : fs.Becomes x fs') (h : fs.state ≠ none) :
    fs'.state ≠ none := by
  cases hx with
  | createState => simp [FileSystem.createState]
  | replaceState => simp
  | _ => exact h

/-- It stays over many system calls. -/
theorem exists_state_of_follows {es : List (SystemEvent F)} (hes : Follows Becomes fs es fs')
    (h : fs.state ≠ none) : fs'.state ≠ none :=
  hes.preserves (P := fun fs => fs.state ≠ none) (fun _ _ _ _ hx hs => hx.exists_state hs) h

/-! ### Whole operations -/

/-- The texts that the two paths lead to. -/
def disk (fs : FileSystem) : Disk := ⟨fs.text, fs.temporary.map fs.files⟩

/-- A path that leads to another file than the one that changes. -/
theorem map_update_of_ne {path : Option ℕ} {file : ℕ} (files : ℕ → Str) (text : Str)
    (h : path ≠ some file) : path.map (Function.update files file text) = path.map files := by
  cases path with
  | none => rfl
  | some other =>
    have hne : other ≠ file := fun hsame => h (congrArg some hsame)
    simp [hne]

/-- What becomes of a file that is filled and closed. -/
theorem exists_filled (fs : FileSystem) (file : ℕ) (text : Str) :
    ∃ fs', Follows Becomes fs (putEvents file (fs.files file).length text ++
        [(⟨.close file, some ()⟩ : SystemEvent F)]) fs' ∧
      fs'.files = Function.update fs.files file (fs.files file ++ text) ∧
      fs'.state = fs.state ∧ fs'.temporary = fs.temporary := by
  induction text generalizing fs with
  | nil =>
    refine ⟨fs, .cons (.close file) (.nil fs), ?_, rfl, rfl⟩
    rw [List.append_nil, Function.update_eq_self]
  | cons c text ih =>
    obtain ⟨fs', hfollows, hfiles, hstate, htemporary⟩ := ih (fs.put file (fs.files file).length c)
    rw [put_files_length, List.length_append, List.length_singleton] at hfollows
    refine ⟨fs', .cons (.put file _ c) hfollows, ?_, hstate, htemporary⟩
    rw [hfiles, put_files_length, List.append_assoc, List.singleton_append]
    simp [put]

/-- An operation that did what it is for can take place at the file system. -/
theorem exists_systemCalls {op : Action} {a : Response F op} {d : Disk} (hproper : fs.Proper)
    (hd : fs.disk.after (⟨op, some a⟩ : Event F) = some d) :
    ∃ es fs', Trace (systemCalls op) es (.returned a) ∧ Follows Becomes fs es fs' ∧
      fs'.disk = d := by
  cases op with
  | json arguments =>
    obtain rfl := Option.some.inj hd
    exact ⟨_, fs, call_returns (.json arguments) a, .cons (.json arguments a) (.nil fs), rfl⟩
  | failure arguments =>
    obtain rfl := Option.some.inj hd
    exact ⟨_, fs, call_returns (.failure arguments) a, .cons (.failure arguments a) (.nil fs), rfl⟩
  | makeParents =>
    obtain rfl := Option.some.inj hd
    exact ⟨_, fs, call_returns .makeParents (), .cons .makeParents (.nil fs), rfl⟩
  | stateExists =>
    simp only [Disk.after, disk, text, Option.isSome_map, Option.ite_none_right_eq_some,
      Option.some.injEq] at hd
    obtain ⟨rfl, rfl⟩ := hd
    exact ⟨_, fs, call_returns .stateExists _, .cons .stateExists (.nil fs), rfl⟩
  | readState =>
    cases a with
    | error e =>
      obtain rfl := Option.some.inj hd
      exact ⟨_, fs, call_before .openState (.error e) (.done _), .cons (.notOpened e) (.nil fs),
        rfl⟩
    | ok content =>
      simp only [Disk.after, disk, text, Option.ite_none_right_eq_some, Option.some.injEq,
        Option.map_eq_some_iff] at hd
      obtain ⟨⟨file, hfile, rfl⟩, rfl⟩ := hd
      exact ⟨_, fs, call_before .openState (.ok file) (call_returns (.readFile file) (.ok _)),
        .cons (.openState hfile) (.cons (.readFile file) (.nil fs)), rfl⟩
  | writeState content =>
    obtain rfl := Option.some.inj hd
    obtain ⟨fs', hfollows, hfiles, hstate, htemporary⟩ :=
      exists_filled (F := F) fs.createState (fs.target fs.state) content
    have hempty : fs.createState.files (fs.target fs.state) = [] := fs.empty_files _
    rw [hempty] at hfollows hfiles
    refine ⟨_, fs', call_before .createState _ (fill_returns _ 0 content),
      .cons .createState hfollows, ?_⟩
    rw [disk, FileSystem.text, hfiles, hstate, htemporary]
    simp [disk, createState, empty, map_update_of_ne _ _ hproper.temporary_ne_target]
  | writeTemporary content =>
    obtain rfl := Option.some.inj hd
    obtain ⟨fs', hfollows, hfiles, hstate, htemporary⟩ :=
      exists_filled (F := F) fs.createTemporary (fs.target fs.temporary) content
    have hempty : fs.createTemporary.files (fs.target fs.temporary) = [] := fs.empty_files _
    rw [hempty] at hfollows hfiles
    refine ⟨_, fs', call_before .createTemporary _ (fill_returns _ 0 content),
      .cons .createTemporary hfollows, ?_⟩
    rw [disk, FileSystem.text, hfiles, hstate, htemporary]
    simp [disk, FileSystem.text, createTemporary, empty,
      map_update_of_ne _ _ hproper.state_ne_target]
  | replaceState =>
    obtain ⟨content, hcontent, rfl⟩ := Option.map_eq_some_iff.mp hd
    obtain ⟨file, hfile, rfl⟩ := Option.map_eq_some_iff.mp hcontent
    exact ⟨_, _, call_returns .replaceState (), .cons (.replaceState hfile) (.nil _), rfl⟩

/-- So can a computation whose operations all did what they are for. -/
theorem exists_expanded {α : Type} {p : Phase F α} {es : List (Event F)}
    {o : Outcome (Raised JourneyError) α} {d : Disk} (ht : Trace p es o)
    (hanswered : ∀ x ∈ es, x.answer ≠ none) (hproper : fs.Proper) (hd : Changes fs.disk es d) :
    ∃ calls fs', Trace (p.expand systemCalls) calls o ∧ Follows Becomes fs calls fs' ∧
      fs'.disk = d := by
  induction ht generalizing fs with
  | done a =>
    cases hd
    exact ⟨[], fs, .done a, .nil fs, rfl⟩
  | fail e =>
    cases hd
    exact ⟨[], fs, .fail e, .nil fs, rfl⟩
  | running p =>
    cases hd
    exact ⟨[], fs, .running _, .nil fs, rfl⟩
  | abort op next => exact absurd rfl (hanswered ⟨op, none⟩ (by simp))
  | @step op next a es o hrest ih =>
    cases hd with
    | @cons _ t _ _ _ hx hes =>
      obtain ⟨first, between, hfirst, hbetween, rfl⟩ :=
        exists_systemCalls hproper (hx.after_of_answered (by simp))
      obtain ⟨calls, fs', hcalls, hfs', hd'⟩ :=
        ih (fun x hmem => hanswered x (List.mem_cons_of_mem _ hmem)) (hproper.follows hbetween) hes
      exact ⟨first ++ calls, fs', hfirst.bind hcalls, follows_append.mpr ⟨_, hbetween, hfs'⟩, hd'⟩

end FileSystem

end MarketIntelligence.Journey
