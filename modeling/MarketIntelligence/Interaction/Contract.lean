import MarketIntelligence.Interaction.Program

/-!
# Contracts of programs

A contract says three things about a program, in terms of the exchanges so far: which
operations it may issue, what holds of a result, and what holds of an exception. The
rules follow the constructors of programs, so that a contract is proved by walking
through the program once; its theorem then covers all traces, at every moment.
-/

namespace Interaction

variable {Op : Type} {Ans : Op → Type} {ε α β : Type}

/-- What a program may ask, return and raise. -/
structure Contract (Op : Type) (Ans : Op → Type) (ε α : Type) where
  allows : List (Exchange Op Ans) → Op → Prop
  returns : List (Exchange Op Ans) → α → Prop
  raises : List (Exchange Op Ans) → ε → Prop

/-- The same contract with another condition on results. -/
def Contract.returning (C : Contract Op Ans ε α) (Q : List (Exchange Op Ans) → β → Prop) :
    Contract Op Ans ε β := ⟨C.allows, Q, C.raises⟩

/-- A program meets a contract when it is started after some exchanges. -/
def Program.Meets (C : Contract Op Ans ε α) :
    List (Exchange Op Ans) → Program Op Ans ε α → Prop
  | h, .done a => C.returns h a
  | h, .fail e => C.raises h e
  | h, .ask op next => C.allows h op ∧ ∀ a, (next a).Meets C (h ++ [⟨op, some a⟩])

/-- Every operation of a sequence of exchanges was allowed after the ones before it. -/
def Allowed (allows : List (Exchange Op Ans) → Op → Prop) (h es : List (Exchange Op Ans)) :
    Prop :=
  ∀ past x rest, es = past ++ x :: rest → allows (h ++ past) x.op

variable {C : Contract Op Ans ε α} {h : List (Exchange Op Ans)}

/-- A finished program meets the condition on results. -/
@[simp] theorem meets_pure {a : α} :
    (pure a : Program Op Ans ε α).Meets C h ↔ C.returns h a := Iff.rfl

/-- An operation and what follows it. -/
@[simp] theorem meets_ask {op : Op} {next : Ans op → Program Op Ans ε α} :
    (Program.ask op next).Meets C h ↔
      C.allows h op ∧ ∀ a, (next a).Meets C (h ++ [⟨op, some a⟩]) := Iff.rfl

/-- The end of a program. -/
@[simp] theorem meets_done {a : α} :
    (Program.done a : Program Op Ans ε α).Meets C h ↔ C.returns h a := Iff.rfl

/-- An exception. -/
@[simp] theorem meets_fail {e : ε} :
    (Program.fail e : Program Op Ans ε α).Meets C h ↔ C.raises h e := Iff.rfl

/-- A computation without operations. -/
@[simp] theorem meets_ofExcept {x : Except ε α} :
    (Program.ofExcept x : Program Op Ans ε α).Meets C h ↔
      (∀ a, x = .ok a → C.returns h a) ∧ ∀ e, x = .error e → C.raises h e := by
  cases x <;> simp [Program.ofExcept]

/-- A sequence meets a contract if its first part meets it and returns only where the
second part meets it. -/
@[simp] theorem meets_bind {p : Program Op Ans ε α} {f : α → Program Op Ans ε β}
    {C : Contract Op Ans ε β} {h : List (Exchange Op Ans)} :
    (p >>= f).Meets C h ↔ p.Meets (C.returning fun h a => (f a).Meets C h) h := by
  induction p generalizing h with
  | done a => exact Iff.rfl
  | fail e => exact Iff.rfl
  | ask op next ih =>
    exact and_congr Iff.rfl (forall_congr' fun a => ih a)

/-- The parts of a contract with another condition on results. -/
@[simp] theorem returning_allows {Q : List (Exchange Op Ans) → β → Prop} :
    (C.returning Q).allows = C.allows := rfl

/-- The new condition on results. -/
@[simp] theorem returning_returns {Q : List (Exchange Op Ans) → β → Prop} :
    (C.returning Q).returns = Q := rfl

/-- The condition on exceptions is unchanged. -/
@[simp] theorem returning_raises {Q : List (Exchange Op Ans) → β → Prop} :
    (C.returning Q).raises = C.raises := rfl

/-- A computation without operations and what follows it. -/
theorem meets_ofExcept_bind {x : Except ε α} {f : α → Program Op Ans ε β}
    {C : Contract Op Ans ε β} (hok : ∀ a, x = .ok a → (f a).Meets C h)
    (herror : ∀ e, x = .error e → C.raises h e) :
    (Program.ofExcept x >>= f).Meets C h :=
  meets_bind.mpr (meets_ofExcept.mpr ⟨hok, herror⟩)

/-- An operation and what follows it. -/
theorem meets_ask_bind {op : Op} {f : Ans op → Program Op Ans ε β} {C : Contract Op Ans ε β}
    (hop : C.allows h op) (hnext : ∀ a, (f a).Meets C (h ++ [⟨op, some a⟩])) :
    (Program.ask op Program.done >>= f).Meets C h := ⟨hop, hnext⟩

/-- Nothing was issued yet. -/
theorem allowed_nil {allows : List (Exchange Op Ans) → Op → Prop} : Allowed allows h [] := by
  intro past x rest hes
  simp at hes

/-- The first exchange was allowed, and the others after it. -/
theorem allowed_cons {allows : List (Exchange Op Ans) → Op → Prop} {x : Exchange Op Ans}
    {es : List (Exchange Op Ans)} (hx : allows h x.op) (hes : Allowed allows (h ++ [x]) es) :
    Allowed allows h (x :: es) := by
  intro past y rest heq
  cases past with
  | nil =>
    obtain ⟨rfl, -⟩ := List.cons.inj heq
    simpa using hx
  | cons z past =>
    obtain ⟨rfl, htail⟩ := List.cons.inj heq
    simpa using hes past y rest htail

/-- The last exchange of a non-empty sequence was allowed after the others. -/
theorem Allowed.last {allows : List (Exchange Op Ans) → Op → Prop}
    {past : List (Exchange Op Ans)} {x : Exchange Op Ans} (hes : Allowed allows h (past ++ [x])) :
    allows (h ++ past) x.op := hes past x [] rfl

/-- Every trace of a program that meets a contract issues allowed operations only, and
ends with a result or an exception that the contract describes. -/
theorem Trace.meets {p : Program Op Ans ε α} {es : List (Exchange Op Ans)} {o : Outcome ε α}
    (ht : Trace p es o) (hp : p.Meets C h) :
    Allowed C.allows h es ∧ (∀ a, o = .returned a → C.returns (h ++ es) a) ∧
      ∀ e, o = .raised e → C.raises (h ++ es) e := by
  induction ht generalizing h with
  | done a => simpa [allowed_nil] using hp
  | fail e => simpa [allowed_nil] using hp
  | running p => simp [allowed_nil]
  | abort op next => simpa using allowed_cons hp.1 allowed_nil
  | step a _ ih =>
    obtain ⟨hallowed, hreturns, hraises⟩ := ih (hp.2 a)
    exact ⟨allowed_cons hp.1 hallowed, by simpa using hreturns, by simpa using hraises⟩

end Interaction
