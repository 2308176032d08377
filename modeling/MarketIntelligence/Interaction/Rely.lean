import MarketIntelligence.Interaction.Program

/-!
# Programs that rely on their environment

A program may keep what it promises only where the answers of its environment are as it
expects. The assumption names the answers to each operation that are, and the judgment
covers the executions in which every answer is one of them. In these executions every
operation that is issued has a property as well. Answers may also be decoded from raw ones;
then a failure to decode is an exception of the program. So is an operation that does not
pass a check before it is issued.
-/

namespace Interaction

variable {Op : Type} {Ans Raw : Op → Type} {ε α β : Type}

/-- An assumption about the answers of an environment. -/
abbrev Assumption (Ans : Op → Type) : Type := (op : Op) → Ans op → Prop

/-- With answers as assumed, the operations, the results and the exceptions have one property
each. -/
def Program.Under (A : Assumption Ans) (W : Op → Prop) (Q : α → Prop) (P : ε → Prop) :
    Program Op Ans ε α → Prop
  | .done a => Q a
  | .fail e => P e
  | .ask op next => W op ∧ ∀ a, A op a → (next a).Under A W Q P

/-- An exchange with an answer as assumed. -/
def Exchange.As (A : Assumption Ans) (x : Exchange Op Ans) : Prop :=
  ∃ a, x.answer = some a ∧ A x.op a

variable {A : Assumption Ans} {W : Op → Prop} {Q : α → Prop} {R : β → Prop} {P : ε → Prop}

/-- A sequence relies on the answers to both of its parts. -/
theorem Program.Under.bind {p : Program Op Ans ε α} {f : α → Program Op Ans ε β}
    (hp : p.Under A W Q P) (hf : ∀ a, Q a → (f a).Under A W R P) : (p >>= f).Under A W R P := by
  induction p with
  | done a => exact hf a hp
  | fail e => exact hp
  | ask op next ih => exact ⟨hp.1, fun a ha => ih a (hp.2 a ha)⟩

/-- A computation without operations. -/
theorem under_ofExcept {x : Except ε α} (herror : ∀ e, x = .error e → P e)
    (hok : ∀ a, x = .ok a → Q a) : (Program.ofExcept x : Program Op Ans ε α).Under A W Q P := by
  cases x with
  | ok a => exact hok a rfl
  | error e => exact herror e rfl

/-- A computation without operations, before the rest of a program. -/
theorem under_ofExcept_bind {x : Except ε α} {f : α → Program Op Ans ε β}
    (herror : ∀ e, x = .error e → P e) (hok : ∀ a, x = .ok a → (f a).Under A W R P) :
    (Program.ofExcept x >>= f).Under A W R P :=
  (under_ofExcept herror fun _ ha => ha).bind hok

/-- An operation, before the rest of a program. -/
theorem under_ask_bind {op : Op} {f : Ans op → Program Op Ans ε β}
    (hop : W op) (hf : ∀ a, A op a → (f a).Under A W R P) :
    (Program.ask op Program.done >>= f).Under A W R P := ⟨hop, hf⟩

/-- An execution in which every operation has an answer as assumed is not finished, or has
ended with a result or an exception that has its property. -/
theorem Trace.under {p : Program Op Ans ε α} {es : List (Exchange Op Ans)} {o : Outcome ε α}
    (ht : Trace p es o) (hp : p.Under A W Q P) (hes : ∀ x ∈ es, x.As A) :
    o = .running ∨ (∃ a, o = .returned a ∧ Q a) ∨ ∃ e, o = .raised e ∧ P e := by
  induction ht with
  | done a => exact .inr (.inl ⟨a, rfl, hp⟩)
  | fail e => exact .inr (.inr ⟨e, rfl, hp⟩)
  | running p => exact .inl rfl
  | abort op next =>
    obtain ⟨a, ha, -⟩ := hes ⟨op, none⟩ (by simp)
    cases ha
  | step a _ ih =>
    obtain ⟨⟨b, hb, hfirst⟩, hrest⟩ := List.forall_mem_cons.mp hes
    obtain rfl := Option.some.inj hb
    exact ih (hp.2 a hfirst) hrest

/-! ### Decoded answers -/

/-- The program whose answers are decoded from raw ones. -/
def Program.through (decode : (op : Op) → Raw op → Except ε (Ans op)) :
    Program Op Ans ε α → Program Op Raw ε α
  | .done a => .done a
  | .fail e => .fail e
  | .ask op next => .ask op fun raw =>
      match decode op raw with
      | .ok a => (next a).through decode
      | .error e => .fail e

/-- Raw answers that are decoded as assumed, or with an exception that has the property,
are all that such a program relies on. -/
theorem Program.Under.through {decode : (op : Op) → Raw op → Except ε (Ans op)}
    {B : Assumption Raw} {p : Program Op Ans ε α} (hp : p.Under A W Q P)
    (hok : ∀ op raw a, B op raw → decode op raw = .ok a → A op a)
    (herror : ∀ op raw e, B op raw → decode op raw = .error e → P e) :
    (p.through decode).Under B W Q P := by
  induction p with
  | done a => exact hp
  | fail e => exact hp
  | ask op next ih =>
    rw [Program.through]
    refine ⟨hp.1, fun raw hraw => ?_⟩
    cases hdecode : decode op raw with
    | error e =>
      simp only [hdecode]
      exact herror op raw e hraw hdecode
    | ok a =>
      simp only [hdecode]
      exact ih a (hp.2 a (hok op raw a hraw hdecode))

/-! ### Checked operations -/

/-- The program whose operations have to pass a check before they are issued. -/
def Program.checked (check : Op → Except ε Unit) : Program Op Ans ε α → Program Op Ans ε α
  | .done a => .done a
  | .fail e => .fail e
  | .ask op next =>
      match check op with
      | .ok () => .ask op fun a => (next a).checked check
      | .error e => .fail e

/-- Operations that all pass may be checked. -/
theorem Program.Under.checked {check : Op → Except ε Unit} {p : Program Op Ans ε α}
    (hp : p.Under A W Q P) (hcheck : ∀ op, W op → check op = .ok ()) :
    (p.checked check).Under A W Q P := by
  induction p with
  | done a => exact hp
  | fail e => exact hp
  | ask op next ih =>
    rw [Program.checked, hcheck op hp.1]
    exact ⟨hp.1, fun a ha => ih a (hp.2 a ha)⟩

/-- An execution of a checked program is one of the program, up to an operation that does not
pass: there the environment has no answer, and the exception is that of the check. -/
theorem Trace.of_checked {check : Op → Except ε Unit} {p : Program Op Ans ε α}
    {es : List (Exchange Op Ans)} {o : Outcome ε α} (ht : Trace (p.checked check) es o) :
    Trace p es o ∨ ∃ op e, check op = .error e ∧ o = .raised e ∧
      Trace p (es ++ [⟨op, none⟩]) .aborted := by
  induction p generalizing es with
  | done a => exact .inl ht
  | fail e => exact .inl ht
  | ask op next ih =>
    rw [Program.checked] at ht
    cases hcheck : check op with
    | error e =>
      simp only [hcheck] at ht
      cases ht with
      | fail => exact .inr ⟨op, e, hcheck, rfl, .abort op next⟩
      | running => exact .inl (.running _)
    | ok _ =>
      simp only [hcheck] at ht
      cases ht with
      | running => exact .inl (.running _)
      | abort => exact .inl (.abort op next)
      | step a hrest =>
        obtain hplain | ⟨last, e, hlast, hend, hrest⟩ := ih a hrest
        · exact .inl (.step a hplain)
        · exact .inr ⟨last, e, hlast, hend, .step a hrest⟩

end Interaction
