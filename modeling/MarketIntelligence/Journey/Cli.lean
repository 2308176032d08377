import MarketIntelligence.Interaction.Rely
import MarketIntelligence.Journey.Runner
import MarketIntelligence.Python.Contained
import MarketIntelligence.Python.Fitting

/-!
# The journey over the public CLI

With `AceCliRunner` every command of the journey is a process, and the response is what
`_parse_json_output` finds in its output. Before a process starts, its arguments are encoded.
The search raises `JourneyError` where there is no receipt. A limit of the interpreter ends it
with another exception, unless the receipt comes first. A receipt that is found meets no limit
of the decoder afterwards.
-/

namespace MarketIntelligence.Journey

open Python Interaction

variable {F : Type}

/-- What answers an operation of the journey when the commands are processes. -/
abbrev CliResponse : Action → Type
  | .json _ => CompletedProcess
  | .failure _ => CompletedProcess
  | .stateExists => Bool
  | .readState => Except BuiltinError Str
  | .makeParents => Unit
  | .writeState _ => Unit
  | .writeTemporary _ => Unit
  | .replaceState => Unit

/-- An operation of the journey with such an answer. -/
abbrev CliEvent : Type := Exchange Action CliResponse

variable [PyFloat F]

/-- `AceCliRunner.json` and `AceCliRunner.failure`, on the finished processes. -/
def ofProcess (limits : Limits) : (op : Action) → CliResponse op → Checked (Response F op)
  | .json _, completed => cliJson limits completed
  | .failure _, completed => cliFailure completed
  | .stateExists, found => .ok found
  | .readState, content => .ok content
  | .makeParents, done => .ok done
  | .writeState _, done => .ok done
  | .writeTemporary _, done => .ok done
  | .replaceState, done => .ok done

/-- A phase with `AceCliRunner` as its runner. -/
def overCli {α : Type} (script : Script F) (url : Str) (phase : Phase F α) :
    Program Action CliResponse (Raised JourneyError) α :=
  (phase.checked (startCommand url)).through (ofProcess script.py.limits)

/-! ### Where the search for the receipt ends -/

/-- The decoder finds an object at the front of a text, with only whitespace behind it. -/
def Found (limits : Limits) (s : Str) (value : Object F) : Prop :=
  s.head? = some (('{' : Char) : Chr) ∧ ∃ rest,
    Json.rawDecode (dataHooks limits) limits.nesting s = .ok (.dict value, rest) ∧
      Str.strip rest = []

/-- At the brace in front of a text the decoder meets a limit. -/
def MeetsLimit (F : Type) [PyFloat F] (limits : Limits) (s : Str) : Prop :=
  s.head? = some (('{' : Char) : Chr) ∧
    meetsLimit (Json.rawDecode (dataHooks (F := F) limits) limits.nesting s) = true

/-- No brace at which the decoder meets a limit comes before the receipt. -/
def ReceiptFirst (F : Type) [PyFloat F] (limits : Limits) : Str → Prop
  | [] => True
  | c :: s => ¬MeetsLimit F limits (c :: s) ∧
      ((∃ value : Object F, Found limits (c :: s) value) ∨ ReceiptFirst F limits s)

variable {limits : Limits}

/-- The search is contained exactly if the receipt comes before every limit. -/
theorem contained_parseJsonOutput {s : Str} :
    Contained (parseJsonOutput limits s : Checked (Object F)) ↔ ReceiptFirst F limits s := by
  induction s with
  | nil => simp [parseJsonOutput, ReceiptFirst, journeyError]
  | cons c s ih =>
    rw [parseJsonOutput, ReceiptFirst, ← ih]
    by_cases hbrace : c = ('{' : Char)
    · subst hbrace
      rw [if_neg (by simp)]
      unfold MeetsLimit Found
      split
      · next e heq => simp [heq, meetsLimit]
      · next heq => simp [heq, meetsLimit]
      · next heq => simp [heq, meetsLimit]
      · next payload rest heq =>
        by_cases hrest : Str.strip rest = []
        · rw [if_neg (by simpa using hrest)]
          cases payload <;> simp [heq, meetsLimit, hrest]
        · simp [heq, meetsLimit, hrest]
    · simp [MeetsLimit, Found, hbrace]

/-- What the search returns was found in the text. -/
theorem found_of_parseJsonOutput {s : Str} {value : Object F}
    (h : parseJsonOutput limits s = .ok value) : ∃ t, t <:+ s ∧ Found limits t value := by
  induction s with
  | nil => cases h
  | cons c s ih =>
    have hlater (h : parseJsonOutput limits s = .ok value) :
        ∃ t, t <:+ c :: s ∧ Found limits t value := by
      obtain ⟨t, ht, hfound⟩ := ih h
      exact ⟨t, ht.trans (List.suffix_cons c s), hfound⟩
    rw [parseJsonOutput] at h
    split at h
    · exact hlater h
    · next hbrace =>
      split at h
      · exact hlater h
      · cases h
      · cases h
      · next payload rest heq =>
        split at h
        · exact hlater h
        · next hrest =>
          cases payload with
          | dict found =>
            obtain rfl := Except.ok.inj h
            exact ⟨c :: s, List.suffix_rfl, by simpa using hbrace, rest, heq, by simpa using hrest⟩
          | _ => exact hlater h

/-- An object that was found meets no limit. -/
theorem Found.fits {s : Str} {value : Object F} (h : Found limits s value) :
    (Data.dict value).fits limits limits.nesting = .ok () := by
  obtain ⟨-, rest, hdecode, -⟩ := h
  exact fits_of_rawDecode hdecode

end MarketIntelligence.Journey
