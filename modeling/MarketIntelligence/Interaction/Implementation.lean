import MarketIntelligence.Interaction.Contract
import MarketIntelligence.Interaction.Embedding
import MarketIntelligence.Interaction.Residual

/-!
# Implemented operations

Each operation of a program is implemented by a program over finer operations, whose result is
the answer. An execution then consists of executions of the implementations. A contract of the
program says what the finer operations are: each belongs to the implementation of an operation
that is allowed where the earlier operations are carried out.
-/

namespace Interaction

variable {Op Op' : Type} {Ans : Op → Type} {Ans' : Op' → Type} {ε α : Type}

/-- The program with each operation carried out by its implementation. -/
def Program.expand (impl : (op : Op) → Program Op' Ans' ε (Ans op)) :
    Program Op Ans ε α → Program Op' Ans' ε α
  | .done a => .done a
  | .fail e => .fail e
  | .ask op next => impl op >>= fun a => (next a).expand impl

variable {impl : (op : Op) → Program Op' Ans' ε (Ans op)}

/-- Exchanges, and the exchanges of the implementations that carry them out. -/
inductive Expands (impl : (op : Op) → Program Op' Ans' ε (Ans op)) :
    List (Exchange Op Ans) → List (Exchange Op' Ans') → Prop
  | nil : Expands impl [] []
  | snoc {es : List (Exchange Op Ans)} {fs gs : List (Exchange Op' Ans')} {op : Op} {a : Ans op} :
      Expands impl es fs → Trace (impl op) gs (.returned a) →
      Expands impl (es ++ [⟨op, some a⟩]) (fs ++ gs)

/-- An exchange is carried out by consecutive exchanges. -/
theorem Expands.infix {es : List (Exchange Op Ans)} {fs : List (Exchange Op' Ans')}
    (h : Expands impl es fs) {op : Op} {a : Ans op} (hmem : ⟨op, some a⟩ ∈ es) :
    ∃ gs, Trace (impl op) gs (.returned a) ∧ gs <:+: fs := by
  induction h with
  | nil => cases hmem
  | snoc _ hlast ih =>
    obtain hearlier | hlater := List.mem_append.mp hmem
    · obtain ⟨gs, hgs, hinfix⟩ := ih hearlier
      exact ⟨gs, hgs, hinfix.trans (List.prefix_append ..).isInfix⟩
    · obtain ⟨rfl, hsame⟩ := Exchange.mk.inj (List.mem_singleton.mp hlater)
      obtain rfl := Option.some.inj (eq_of_heq hsame)
      exact ⟨_, hlast, (List.suffix_append ..).isInfix⟩

/-- An exchange of an implementation belongs to one that was carried out. -/
theorem Expands.of_mem {es : List (Exchange Op Ans)} {fs : List (Exchange Op' Ans')}
    (h : Expands impl es fs) {x : Exchange Op' Ans'} (hx : x ∈ fs) :
    ∃ (op : Op) (a : Ans op) (gs : _), ⟨op, some a⟩ ∈ es ∧ Trace (impl op) gs (.returned a) ∧
      x ∈ gs := by
  induction h with
  | nil => cases hx
  | snoc _ hlast ih =>
    obtain hearlier | hlater := List.mem_append.mp hx
    · obtain ⟨op, a, gs, hmem, hgs⟩ := ih hearlier
      exact ⟨op, a, gs, List.mem_append_left _ hmem, hgs⟩
    · exact ⟨_, _, _, by simp, hlast, hlater⟩

/-- The last exchange is carried out last. -/
theorem Expands.of_snoc {es : List (Exchange Op Ans)} {fs : List (Exchange Op' Ans')} {op : Op}
    {a : Ans op} (h : Expands impl (es ++ [⟨op, some a⟩]) fs) :
    ∃ base gs, fs = base ++ gs ∧ Expands impl es base ∧ Trace (impl op) gs (.returned a) := by
  generalize hall : es ++ [⟨op, some a⟩] = all at h
  cases h with
  | nil => simp at hall
  | snoc hes hlast =>
    obtain ⟨rfl, hsame⟩ := List.append_inj' hall rfl
    obtain ⟨rfl, hsame⟩ := Exchange.mk.inj (List.cons.inj hsame).1
    obtain rfl := Option.some.inj (eq_of_heq hsame)
    exact ⟨_, _, rfl, hes, hlast⟩

/-- An exchange that is carried out before others. -/
theorem Expands.cons {es : List (Exchange Op Ans)} {fs gs : List (Exchange Op' Ans')} {op : Op}
    {a : Ans op} (hfirst : Trace (impl op) gs (.returned a)) (h : Expands impl es fs) :
    Expands impl (⟨op, some a⟩ :: es) (gs ++ fs) := by
  induction h with
  | nil => simpa using Expands.snoc .nil hfirst
  | snoc _ hlast ih =>
    rw [← List.cons_append, ← List.append_assoc]
    exact ih.snoc hlast

/-- An execution that has returned has an answer to every operation. -/
theorem Trace.answered {p : Program Op Ans ε α} {es : List (Exchange Op Ans)} {a : α}
    (h : Trace p es (.returned a)) : ∀ x ∈ es, x.answer ≠ none := by
  intro x hx hnone
  obtain ⟨past, rest, rfl⟩ := List.append_of_mem hx
  obtain ⟨-, habort⟩ := h.unanswered hnone
  cases habort

/-- An execution with implemented operations that returns carries out one of the program. -/
theorem Trace.of_expand {p : Program Op Ans ε α} {fs : List (Exchange Op' Ans')} {a : α}
    (h : Trace (p.expand impl) fs (.returned a)) :
    ∃ es, Trace p es (.returned a) ∧ Expands impl es fs := by
  induction p generalizing fs with
  | done b =>
    cases h
    exact ⟨[], .done a, .nil⟩
  | fail e => cases h
  | ask op next ih =>
    rw [Program.expand] at h
    obtain ⟨answer, first, rest, rfl, hfirst, hrest⟩ := Trace.bind_returned.mp h
    obtain ⟨es, hes, hexpands⟩ := ih answer hrest
    exact ⟨⟨op, some answer⟩ :: es, .step answer hes, .cons hfirst hexpands⟩

/-- An answer to the operation that is left. -/
theorem After.answer {p : Program Op Ans ε α} {es : List (Exchange Op Ans)} {op : Op}
    {next : Ans op → Program Op Ans ε α} (h : After p es (.ask op next)) (a : Ans op) :
    After p (es ++ [⟨op, some a⟩]) (next a) := by
  induction p generalizing es with
  | done b => cases h
  | fail e => cases h
  | ask first rest ih =>
    cases h with
    | refl => exact .step a (.refl _)
    | step b hrest => exact .step b (ih b hrest)

/-- What is left raises. -/
theorem After.raised {p : Program Op Ans ε α} {es : List (Exchange Op Ans)} {e : ε}
    (h : After p es (.fail e)) : Trace p es (.raised e) := by
  simpa using h.trace (.fail e)

/-- A contract for the finer operations. -/
def Contract.expanded (impl : (op : Op) → Program Op' Ans' ε (Ans op)) (C : Contract Op Ans ε α) :
    Contract Op' Ans' ε α where
  allows past x := ∃ es op base own next, past = base ++ own ∧ Expands impl es base ∧
    C.allows es op ∧ After (impl op) own (.ask x next)
  returns past a := ∃ es, Expands impl es past ∧ C.returns es a
  raises past e := (∃ es, Expands impl es past ∧ C.raises es e) ∨
    ∃ es op base own, past = base ++ own ∧ Expands impl es base ∧ C.allows es op ∧
      Trace (impl op) own (.raised e)

/-- A program that meets a contract meets it with implemented operations. -/
theorem Program.Meets.expand {p : Program Op Ans ε α} {C : Contract Op Ans ε α}
    {es : List (Exchange Op Ans)} {base : List (Exchange Op' Ans')} (hp : p.Meets C es)
    (hes : Expands impl es base) : (p.expand impl).Meets (C.expanded impl) base := by
  induction p generalizing es base with
  | done a => exact ⟨es, hes, hp⟩
  | fail e => exact .inl ⟨es, hes, hp⟩
  | ask op next ih =>
    obtain ⟨hop, hnext⟩ := hp
    rw [Program.expand, meets_bind]
    -- The implementation is walked through from any point on.
    have hwalk (q : Program Op' Ans' ε (Ans op)) : ∀ own, After (impl op) own q →
        q.Meets ((C.expanded impl).returning fun past a =>
          ((next a).expand impl).Meets (C.expanded impl) past) (base ++ own) := by
      induction q with
      | done a =>
        intro own hown
        exact ih a (hnext a) (hes.snoc (after_done_iff.mp hown))
      | fail e => exact fun own hown => .inr ⟨es, op, base, own, rfl, hes, hop, hown.raised⟩
      | ask x after hafter =>
        intro own hown
        refine ⟨⟨es, op, base, own, after, rfl, hes, hop, hown⟩, fun a => ?_⟩
        rw [List.append_assoc]
        exact hafter a _ (hown.answer a)
    simpa using hwalk (impl op) [] (.refl _)

end Interaction
