import MarketIntelligence.Python.Exceptions
import MarketIntelligence.Python.Text

/-!
# The arguments of a process

`subprocess.run` encodes every argument before it starts the process, for a file system whose
encoding is UTF-8. A surrogate that stands for an undecoded byte is written as that byte; any
other surrogate is a `UnicodeEncodeError`, and a NUL is a `ValueError`.
-/

namespace Python

/-- A surrogate that stands for a byte which could not be decoded (`surrogateescape`). -/
def Chr.isEscapedByte (c : Chr) : Bool := 0xDC80 ≤ c.ord && c.ord ≤ 0xDCFF

/-- A code point that `os.fsencode` can write. -/
def Chr.isFsEncodable (c : Chr) : Bool := !c.isSurrogate || c.isEscapedByte

/-- What happens to one argument. -/
def passArgument (argument : Str) : Except BuiltinError Unit :=
  if !argument.all Chr.isFsEncodable then .error .unicodeEncodeError
  else if chr 0 ∈ argument then .error .valueError
  else .ok ()

/-- What happens to the arguments, one after the other. -/
def passArguments : List Str → Except BuiltinError Unit
  | [] => .ok ()
  | argument :: rest => do
      passArgument argument
      passArguments rest

/-- An argument with which a process can be started. -/
def Passable (argument : Str) : Prop := argument.all Chr.isFsEncodable = true ∧ chr 0 ∉ argument

instance (argument : Str) : Decidable (Passable argument) :=
  inferInstanceAs (Decidable (_ ∧ _))

/-- An argument is passed exactly if a process can be started with it. -/
theorem passArgument_eq_ok {argument : Str} :
    passArgument argument = .ok () ↔ Passable argument := by
  unfold passArgument Passable
  cases argument.all Chr.isFsEncodable <;> simp

/-- A process is started exactly if this is so for all of its arguments. -/
theorem passArguments_eq_ok {arguments : List Str} :
    passArguments arguments = .ok () ↔ ∀ argument ∈ arguments, Passable argument := by
  induction arguments with
  | nil => simp [passArguments]
  | cons argument rest ih =>
    rw [List.forall_mem_cons, ← ih, ← passArgument_eq_ok]
    constructor
    · intro h
      obtain ⟨_, hfirst, hrest⟩ := bind_eq_ok.mp h
      exact ⟨hfirst, hrest⟩
    · rintro ⟨hfirst, hrest⟩
      exact bind_eq_ok.mpr ⟨(), hfirst, hrest⟩

/-- A byte that could not be decoded is passed on, a NUL and the other surrogates are not. -/
example : passArguments [lit "use", [chr 0xDCFF]] = .ok () ∧
    passArguments [lit "use", [chr 0]] = .error .valueError ∧
    passArguments [[chr 0, chr 0xD800]] = .error .unicodeEncodeError := by decide

end Python
