import MarketIntelligence.Interaction.Program

/-!
# Programs inside larger ones

A program is run as a part of one with other operations: its operations are renamed, the raw
answers are decoded, and its exceptions are those of the larger program. Every execution of the
part is one of the program itself, where an answer that cannot be decoded is no answer. The
executions of a sequence that return are those of its parts.
-/

namespace Interaction

variable {Op Op' : Type} {Ans : Op → Type} {Ans' : Op' → Type} {ε ε' α β : Type}

/-- A program as a part of a larger one. -/
def Program.within (name : Op → Op') (decode : (op : Op) → Ans' (name op) → Except ε (Ans op))
    (raise : ε → ε') : Program Op Ans ε α → Program Op' Ans' ε' α
  | .done a => .done a
  | .fail e => .fail (raise e)
  | .ask op next => .ask (name op) fun raw =>
      match decode op raw with
      | .ok a => (next a).within name decode raise
      | .error e => .fail (raise e)

variable {name : Op → Op'} {decode : (op : Op) → Ans' (name op) → Except ε (Ans op)}
variable {raise : ε → ε'}

/-- An exchange of the larger program, as the part has it. -/
inductive Seen (name : Op → Op') (decode : (op : Op) → Ans' (name op) → Except ε (Ans op)) :
    Exchange Op' Ans' → Exchange Op Ans → Prop
  | answered {op : Op} {raw : Ans' (name op)} {a : Ans op} : decode op raw = .ok a →
      Seen name decode ⟨name op, some raw⟩ ⟨op, some a⟩
  | undecoded {op : Op} {raw : Ans' (name op)} {e : ε} : decode op raw = .error e →
      Seen name decode ⟨name op, some raw⟩ ⟨op, none⟩
  | unanswered (op : Op) : Seen name decode ⟨name op, none⟩ ⟨op, none⟩

/-- How a part ends, as the program itself has it. -/
inductive SeenEnd (raise : ε → ε') : Outcome ε' α → Outcome ε α → Prop
  | returned (a : α) : SeenEnd raise (.returned a) (.returned a)
  | raised (e : ε) : SeenEnd raise (.raised (raise e)) (.raised e)
  | undecoded (e : ε) : SeenEnd raise (.raised (raise e)) .aborted
  | undecodedYet : SeenEnd raise .running .aborted
  | aborted : SeenEnd raise .aborted .aborted
  | running : SeenEnd raise .running .running

/-- Every execution of a part is one of the program. -/
theorem Trace.of_within {p : Program Op Ans ε α} {es : List (Exchange Op' Ans')}
    {o : Outcome ε' α} (ht : Trace (p.within name decode raise) es o) :
    ∃ fs o', Trace p fs o' ∧ List.Forall₂ (Seen name decode) es fs ∧ SeenEnd raise o o' := by
  induction p generalizing es with
  | done a =>
    cases ht with
    | done => exact ⟨[], _, .done a, .nil, .returned a⟩
    | running => exact ⟨[], _, .running _, .nil, .running⟩
  | fail e =>
    cases ht with
    | fail => exact ⟨[], _, .fail e, .nil, .raised e⟩
    | running => exact ⟨[], _, .running _, .nil, .running⟩
  | ask op next ih =>
    rw [Program.within] at ht
    cases ht with
    | running => exact ⟨[], _, .running _, .nil, .running⟩
    | abort => exact ⟨[⟨op, none⟩], _, .abort op next, .cons (.unanswered op) .nil, .aborted⟩
    | step raw hrest =>
      cases hdecode : decode op raw with
      | error e =>
        simp only [hdecode] at hrest
        cases hrest with
        | fail =>
          exact ⟨[⟨op, none⟩], _, .abort op next, .cons (.undecoded hdecode) .nil, .undecoded e⟩
        | running =>
          exact ⟨[⟨op, none⟩], _, .abort op next, .cons (.undecoded hdecode) .nil, .undecodedYet⟩
      | ok a =>
        simp only [hdecode] at hrest
        obtain ⟨fs, o', hfs, hseen, hend⟩ := ih a hrest
        exact ⟨⟨op, some a⟩ :: fs, o', .step a hfs, .cons (.answered hdecode) hseen, hend⟩

/-- An execution of a sequence: its first part has returned and its second part was executed,
or the first part was all. -/
theorem Trace.of_bind {p : Program Op Ans ε α} {f : α → Program Op Ans ε β}
    {es : List (Exchange Op Ans)} {o : Outcome ε β} (ht : Trace (p >>= f) es o) :
    (∃ a fs gs, es = fs ++ gs ∧ Trace p fs (.returned a) ∧ Trace (f a) gs o) ∨
      (∃ e, o = .raised e ∧ Trace p es (.raised e)) ∨ (o = .aborted ∧ Trace p es .aborted) ∨
      o = .running ∧ Trace p es .running := by
  induction p generalizing es with
  | done a => exact .inl ⟨a, [], es, rfl, .done a, ht⟩
  | fail e =>
    have hfail : Trace (.fail e) es o := ht
    cases hfail with
    | fail => exact .inr (.inl ⟨e, rfl, .fail e⟩)
    | running => exact .inr (.inr (.inr ⟨rfl, .running _⟩))
  | ask op next ih =>
    have hask : Trace (.ask op fun a => next a >>= f) es o := ht
    cases hask with
    | running => exact .inr (.inr (.inr ⟨rfl, .running _⟩))
    | abort => exact .inr (.inr (.inl ⟨rfl, .abort op next⟩))
    | step a hrest =>
      obtain ⟨b, fs, gs, rfl, hfs, hgs⟩ | ⟨e, rfl, hraised⟩ | ⟨rfl, haborted⟩ | ⟨rfl, hrunning⟩ :=
        ih a hrest
      · exact .inl ⟨b, ⟨op, some a⟩ :: fs, gs, rfl, .step a hfs, hgs⟩
      · exact .inr (.inl ⟨e, rfl, .step a hraised⟩)
      · exact .inr (.inr (.inl ⟨rfl, .step a haborted⟩))
      · exact .inr (.inr (.inr ⟨rfl, .step a hrunning⟩))

/-! ### Executions that return -/

/-- A program returns behind a computation without operations if that returns. -/
theorem Trace.ofExcept_bind_returned {x : Except ε α} {f : α → Program Op Ans ε β}
    {es : List (Exchange Op Ans)} {b : β} :
    Trace (Program.ofExcept x >>= f) es (.returned b) ↔
      ∃ a, x = .ok a ∧ Trace (f a) es (.returned b) := by
  constructor
  · intro ht
    cases x with
    | ok a => exact ⟨a, rfl, ht⟩
    | error e => cases ht
  · rintro ⟨a, rfl, ht⟩
    exact ht

/-- A program returns behind an operation if that is answered. -/
theorem Trace.ask_bind_returned {op : Op} {f : Ans op → Program Op Ans ε β}
    {es : List (Exchange Op Ans)} {b : β} :
    Trace (Program.ask op Program.done >>= f) es (.returned b) ↔
      ∃ a fs, es = ⟨op, some a⟩ :: fs ∧ Trace (f a) fs (.returned b) := by
  constructor
  · intro ht
    have hask : Trace (.ask op f) es (.returned b) := ht
    cases hask with
    | step a hrest => exact ⟨a, _, rfl, hrest⟩
  · rintro ⟨a, fs, rfl, ht⟩
    exact .step a ht

/-- A last operation returns its answer. -/
theorem Trace.ask_returned {op : Op} {es : List (Exchange Op Ans)} {a : Ans op} :
    Trace (Program.ask op Program.done : Program Op Ans ε (Ans op)) es (.returned a) ↔
      es = [⟨op, some a⟩] := by
  constructor
  · intro ht
    cases ht with
    | step b hrest =>
      cases hrest
      rfl
  · rintro rfl
    exact .step a (.done a)

/-- A sequence returns exactly if its first part does and then its second. -/
theorem Trace.bind_returned {p : Program Op Ans ε α} {f : α → Program Op Ans ε β}
    {es : List (Exchange Op Ans)} {b : β} :
    Trace (p >>= f) es (.returned b) ↔
      ∃ a fs gs, es = fs ++ gs ∧ Trace p fs (.returned a) ∧ Trace (f a) gs (.returned b) := by
  constructor
  · intro ht
    obtain hboth | ⟨e, hend, -⟩ | ⟨hend, -⟩ | ⟨hend, -⟩ := ht.of_bind
    · exact hboth
    · cases hend
    · cases hend
    · cases hend
  · rintro ⟨a, fs, gs, rfl, hp, hf⟩
    exact hp.bind hf

/-- An exchange with the operation of a larger program that has the same answers. -/
def Exchange.under {Ans' : Op' → Type} (name : Op → Op')
    (x : Exchange Op fun op => Ans' (name op)) : Exchange Op' Ans' := ⟨name x.op, x.answer⟩

/-- A part whose answers need no decoding returns exactly if the program does. -/
theorem Trace.within_returned {Ans' : Op' → Type} {name : Op → Op'} {raise : ε → ε'}
    {p : Program Op (fun op => Ans' (name op)) ε α} {es : List (Exchange Op' Ans')} {a : α} :
    Trace (p.within name (fun _ raw => .ok raw) raise) es (.returned a) ↔
      ∃ fs, es = fs.map (Exchange.under name) ∧ Trace p fs (.returned a) := by
  induction p generalizing es with
  | done b =>
    constructor
    · intro ht
      cases ht
      exact ⟨[], rfl, .done a⟩
    · rintro ⟨fs, rfl, ht⟩
      cases ht
      exact .done a
  | fail e =>
    constructor
    · intro ht
      cases ht
    · rintro ⟨fs, -, ht⟩
      cases ht
  | ask op next ih =>
    constructor
    · intro ht
      cases ht with
      | step raw hrest =>
        obtain ⟨fs, rfl, hfs⟩ := (ih raw).mp hrest
        refine ⟨⟨op, some raw⟩ :: fs, rfl, ?_⟩
        constructor
        exact hfs
    · rintro ⟨fs, rfl, ht⟩
      cases ht with
      | step raw hrest => exact .step raw ((ih raw).mpr ⟨_, rfl, hrest⟩)

end Interaction
