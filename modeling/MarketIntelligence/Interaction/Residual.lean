import MarketIntelligence.Interaction.Program

/-!
# Programs in the middle of an execution

What is left of a program after some answered operations. A residual program is found by
going through the program: computations without operations must have succeeded, and
operations other than the next one must have been answered.
-/

namespace Interaction

variable {Op : Type} {Ans : Op → Type} {ε α β γ : Type}

/-- What is left of a program after some exchanges. -/
inductive After : Program Op Ans ε α → List (Exchange Op Ans) → Program Op Ans ε α → Prop
  | refl (p : Program Op Ans ε α) : After p [] p
  | step {op : Op} {next : Ans op → Program Op Ans ε α} (a : Ans op)
      {es : List (Exchange Op Ans)} {q : Program Op Ans ε α} : After (next a) es q →
      After (.ask op next) (⟨op, some a⟩ :: es) q

/-- Sequences associate to the right. -/
theorem Program.bind_assoc (p : Program Op Ans ε α) (f : α → Program Op Ans ε β)
    (g : β → Program Op Ans ε γ) : p >>= f >>= g = p >>= fun a => f a >>= g := by
  induction p with
  | done a => rfl
  | fail e => rfl
  | ask op next ih => exact congrArg (Program.ask op) (funext ih)

/-- A result is passed on. -/
theorem Program.pure_bind (a : α) (f : α → Program Op Ans ε β) :
    (pure a : Program Op Ans ε α) >>= f = f a := rfl

variable {p q : Program Op Ans ε α} {es fs : List (Exchange Op Ans)} {o : Outcome ε α}

/-- An execution of the rest continues the execution. -/
theorem After.trace (h : After p es q) (ht : Trace q fs o) : Trace p (es ++ fs) o := by
  induction h with
  | refl => exact ht
  | step a _ ih => exact .step a (ih ht)

/-- An execution that has returned is one after which the result is left. -/
theorem after_done_iff {a : α} : After p es (.done a) ↔ Trace p es (.returned a) := by
  constructor
  · intro h
    simpa using h.trace (.done a)
  · intro h
    induction p generalizing es with
    | done b =>
      cases h
      exact .refl _
    | fail e => cases h
    | ask op next ih =>
      cases h with
      | step b hrest => exact .step b (ih b hrest)

/-- An execution with an answered operation was about to issue it, and went on with the
answer. -/
theorem Trace.after {op : Op} {a : Ans op} (h : Trace p (es ++ ⟨op, some a⟩ :: fs) o) :
    ∃ next, After p es (.ask op next) ∧ Trace (next a) fs o := by
  generalize hall : es ++ ⟨op, some a⟩ :: fs = all at h
  induction h generalizing es with
  | done => simp at hall
  | fail => simp at hall
  | running => simp at hall
  | abort =>
    cases es with
    | nil => cases hall
    | cons x es => simp at hall
  | step b hrest ih =>
    cases es with
    | nil =>
      cases hall
      exact ⟨_, .refl _, hrest⟩
    | cons x es =>
      obtain ⟨rfl, htail⟩ := List.cons.inj hall
      obtain ⟨next, hafter, htrace⟩ := ih htail
      exact ⟨next, .step b hafter, htrace⟩

/-- A computation that succeeds, before the rest. -/
theorem After.ofExcept_bind {x : Except ε β} {b : β} {f : β → Program Op Ans ε α}
    (hx : x = .ok b) (h : After (f b) es q) : After (Program.ofExcept x >>= f) es q := by
  rw [hx]
  exact h

/-- An answered operation, before the rest. -/
theorem After.ask_bind {op : Op} {f : Ans op → Program Op Ans ε α} (a : Ans op)
    (h : After (f a) es q) :
    After (Program.ask op Program.done >>= f) (⟨op, some a⟩ :: es) q := .step a h

/-- Nothing is left behind a result but the result. -/
theorem after_done {a : α} (h : After (.done a) es q) : es = [] ∧ q = .done a := by
  cases h
  exact ⟨rfl, rfl⟩

/-- A computation without operations has succeeded where anything but an exception is
left. -/
theorem After.of_ofExcept {x : Except ε β} {f : β → Program Op Ans ε α}
    (h : After (Program.ofExcept x >>= f) es q) (hq : ∀ e, q ≠ .fail e) :
    ∃ b, x = .ok b ∧ After (f b) es q := by
  cases x with
  | ok b => exact ⟨b, rfl, h⟩
  | error e =>
    have hfail : After (.fail e) es q := h
    cases hfail
    exact absurd rfl (hq e)

/-- An operation is the next one, or it was answered. -/
theorem After.of_ask {op : Op} {f : Ans op → Program Op Ans ε α}
    (h : After (Program.ask op Program.done >>= f) es q) :
    es = [] ∧ q = .ask op f ∨ ∃ a fs, es = ⟨op, some a⟩ :: fs ∧ After (f a) fs q := by
  have hask : After (.ask op f) es q := h
  cases hask with
  | refl => exact .inl ⟨rfl, rfl⟩
  | step a hrest => exact .inr ⟨a, _, rfl, hrest⟩

/-- An operation that is not the next one was answered. -/
theorem After.of_other {op : Op} {f : Ans op → Program Op Ans ε α}
    (h : After (Program.ask op Program.done >>= f) es q) (hq : ∀ next, q ≠ .ask op next) :
    ∃ a fs, es = ⟨op, some a⟩ :: fs ∧ After (f a) fs q := by
  obtain ⟨-, hnext⟩ | hanswered := h.of_ask
  · exact absurd hnext (hq f)
  · exact hanswered

end Interaction
