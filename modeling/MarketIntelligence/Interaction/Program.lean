import Mathlib.Data.List.Basic

/-!
# Programs that ask their environment

A program either ends or issues an operation and continues with the answer. The
environment answers as it likes: it may return any value of the answer type, or
raise, which ends the program. A trace records the exchanges of one execution, and
a program that is observed in the middle of an execution has a trace too.
-/

namespace Interaction

/-- A program over operations `Op`, with results in `α` and exceptions in `ε`. -/
inductive Program (Op : Type) (Ans : Op → Type) (ε α : Type) : Type
  | done (a : α)
  | fail (e : ε)
  | ask (op : Op) (next : Ans op → Program Op Ans ε α)

variable {Op : Type} {Ans : Op → Type} {ε α β : Type}

namespace Program

/-- Continue a program with its result; an exception skips the continuation. -/
def bind : Program Op Ans ε α → (α → Program Op Ans ε β) → Program Op Ans ε β
  | done a, f => f a
  | fail e, _ => fail e
  | ask op next, f => ask op fun a => (next a).bind f

instance : Monad (Program Op Ans ε) where
  pure := done
  bind := bind

/-- Issue one operation. -/
def perform (op : Op) : Program Op Ans ε (Ans op) := ask op done

/-- A computation without operations. -/
def ofExcept : Except ε α → Program Op Ans ε α
  | .ok a => done a
  | .error e => fail e

end Program

/-- An operation with its answer; the environment raised where there is none. -/
structure Exchange (Op : Type) (Ans : Op → Type) where
  op : Op
  answer : Option (Ans op)

/-- How an execution ended: with a result, with an exception of the program, with
one of the environment, or not yet. -/
inductive Outcome (ε α : Type)
  | returned (a : α)
  | raised (e : ε)
  | aborted
  | running

/-- Whether an execution has returned. -/
def Outcome.isReturned : Outcome ε α → Bool
  | returned _ => true
  | _ => false

/-- Such an execution has a result. -/
theorem Outcome.exists_result {o : Outcome ε α} (h : o.isReturned = true) :
    ∃ a, o = returned a := by
  cases o with
  | returned a => exact ⟨a, rfl⟩
  | _ => cases h

/-- The executions of a program, with every possible answer of the environment. -/
inductive Trace : Program Op Ans ε α → List (Exchange Op Ans) → Outcome ε α → Prop
  | done (a : α) : Trace (.done a) [] (.returned a)
  | fail (e : ε) : Trace (.fail e) [] (.raised e)
  | running (p : Program Op Ans ε α) : Trace p [] .running
  | abort (op : Op) (next : Ans op → Program Op Ans ε α) :
      Trace (.ask op next) [⟨op, none⟩] .aborted
  | step {op : Op} {next : Ans op → Program Op Ans ε α} (a : Ans op)
      {es : List (Exchange Op Ans)} {o : Outcome ε α} : Trace (next a) es o →
      Trace (.ask op next) (⟨op, some a⟩ :: es) o

/-- The execution with an environment whose answer depends on the exchanges so far. -/
def Program.run (host : List (Exchange Op Ans) → (op : Op) → Option (Ans op)) :
    List (Exchange Op Ans) → Program Op Ans ε α → List (Exchange Op Ans) × Outcome ε α
  | _, .done a => ([], .returned a)
  | _, .fail e => ([], .raised e)
  | past, .ask op next =>
      match host past op with
      | none => ([⟨op, none⟩], .aborted)
      | some a =>
          let (es, o) := (next a).run host (past ++ [⟨op, some a⟩])
          (⟨op, some a⟩ :: es, o)

/-- Such an execution is one of the traces. -/
theorem Program.run_trace (host : List (Exchange Op Ans) → (op : Op) → Option (Ans op))
    (past : List (Exchange Op Ans)) (p : Program Op Ans ε α) :
    Trace p (p.run host past).1 (p.run host past).2 := by
  induction p generalizing past with
  | done a => exact .done a
  | fail e => exact .fail e
  | ask op next ih =>
    unfold Program.run
    cases host past op with
    | none => exact .abort op next
    | some a => exact .step a (ih a _)

/-- It begins with the first operation and the answer to it. -/
theorem Program.run_ask_head (host : List (Exchange Op Ans) → (op : Op) → Option (Ans op))
    (past : List (Exchange Op Ans)) (op : Op) (next : Ans op → Program Op Ans ε α) :
    ((ask op next).run host past).1.head? = some ⟨op, host past op⟩ := by
  unfold run
  cases host past op <;> rfl

/-- A result without operations is passed on. -/
theorem Program.ofExcept_ok_bind (a : α) (f : α → Program Op Ans ε β) :
    (Program.ofExcept (.ok a) >>= f) = f a := rfl

/-- A computation without operations, before the rest of an execution. -/
theorem Trace.ofExcept_bind {x : Except ε α} {a : α} {f : α → Program Op Ans ε β}
    {es : List (Exchange Op Ans)} {o : Outcome ε β} (hx : x = .ok a) (ht : Trace (f a) es o) :
    Trace (Program.ofExcept x >>= f) es o := by
  rw [hx]
  exact ht

/-- A computation without operations that ends an execution. -/
theorem Trace.ofExcept_error {x : Except ε α} {e : ε} {f : α → Program Op Ans ε β}
    (hx : x = .error e) : Trace (Program.ofExcept x >>= f) [] (.raised e) := by
  rw [hx]
  exact .fail e

/-- An answered operation, before the rest of an execution. -/
theorem Trace.ask_bind {op : Op} {f : Ans op → Program Op Ans ε β} (a : Ans op)
    {es : List (Exchange Op Ans)} {o : Outcome ε β} (ht : Trace (f a) es o) :
    Trace (Program.ask op Program.done >>= f) (⟨op, some a⟩ :: es) o := .step a ht

/-- An execution that has returned, before the rest of an execution. -/
theorem Trace.bind {p : Program Op Ans ε α} {f : α → Program Op Ans ε β} {a : α}
    {es fs : List (Exchange Op Ans)} {o : Outcome ε β} (hp : Trace p es (.returned a))
    (hf : Trace (f a) fs o) : Trace (p >>= f) (es ++ fs) o := by
  induction p generalizing es with
  | done b =>
    cases hp
    exact hf
  | fail e => cases hp
  | ask op next ih =>
    cases hp with
    | step b hrest => exact .step b (ih b hrest)

/-- An execution that has raised ends the sequence. -/
theorem Trace.bind_raised {p : Program Op Ans ε α} {f : α → Program Op Ans ε β} {e : ε}
    {es : List (Exchange Op Ans)} (hp : Trace p es (.raised e)) :
    Trace (p >>= f) es (.raised e) := by
  induction p generalizing es with
  | done b => cases hp
  | fail d =>
    cases hp
    exact .fail e
  | ask op next ih =>
    cases hp with
    | step b hrest => exact .step b (ih b hrest)

/-- An execution that the environment ends has an operation without answer at its end. -/
theorem Trace.last_of_aborted {p : Program Op Ans ε α} {es : List (Exchange Op Ans)}
    (ht : Trace p es .aborted) : ∃ past op, es = past ++ [⟨op, none⟩] := by
  induction p generalizing es with
  | done a => cases ht
  | fail e => cases ht
  | ask op next ih =>
    cases ht with
    | abort => exact ⟨[], op, rfl⟩
    | step a hrest =>
      obtain ⟨past, last, rfl⟩ := ih a hrest
      exact ⟨⟨op, some a⟩ :: past, last, rfl⟩

/-- An operation without answer is the last one, and ends the execution. -/
theorem Trace.unanswered {p : Program Op Ans ε α} {past rest : List (Exchange Op Ans)}
    {x : Exchange Op Ans} {o : Outcome ε α} (ht : Trace p (past ++ x :: rest) o)
    (hx : x.answer = none) : rest = [] ∧ o = .aborted := by
  induction p generalizing past with
  | done a => cases past <;> cases ht
  | fail e => cases past <;> cases ht
  | ask op next ih =>
    cases past with
    | nil =>
      cases ht with
      | abort => exact ⟨rfl, rfl⟩
      | step a => cases hx
    | cons y past =>
      have hcons : Trace (.ask op next) (y :: (past ++ x :: rest)) o := ht
      generalize htail : past ++ x :: rest = tail at hcons
      cases hcons with
      | abort => simp at htail
      | step a hrest => exact ih a (htail ▸ hrest)

/-- The state changes that an environment makes for a sequence of exchanges. -/
inductive Follows {σ : Type} (env : σ → Exchange Op Ans → σ → Prop) :
    σ → List (Exchange Op Ans) → σ → Prop
  | nil (s : σ) : Follows env s [] s
  | cons {s t u : σ} {x : Exchange Op Ans} {es : List (Exchange Op Ans)} :
      env s x t → Follows env t es u → Follows env s (x :: es) u

/-- A property of the state that no exchange destroys holds after all of them. -/
theorem Follows.preserves {σ : Type} {env : σ → Exchange Op Ans → σ → Prop} {P : σ → Prop}
    {es : List (Exchange Op Ans)} {s t : σ} (h : Follows env s es t)
    (hstep : ∀ x ∈ es, ∀ {s t}, env s x t → P s → P t) (hs : P s) : P t := by
  induction h with
  | nil => exact hs
  | cons hx _ ih =>
    exact ih (fun y hy => hstep y (List.mem_cons_of_mem _ hy)) (hstep _ (by simp) hx hs)

/-- Changes that another environment may make as well. -/
theorem Follows.mono {σ : Type} {env env' : σ → Exchange Op Ans → σ → Prop}
    {es : List (Exchange Op Ans)} {s t : σ} (h : Follows env s es t)
    (hstep : ∀ x ∈ es, ∀ s t, env s x t → env' s x t) : Follows env' s es t := by
  induction h with
  | nil => exact .nil _
  | cons hx _ ih =>
    obtain ⟨hfirst, hrest⟩ := List.forall_mem_cons.mp hstep
    exact .cons (hfirst _ _ hx) (ih hrest)

/-- A sequence of exchanges is followed part by part. -/
theorem follows_append {σ : Type} {env : σ → Exchange Op Ans → σ → Prop}
    {es fs : List (Exchange Op Ans)} {s u : σ} :
    Follows env s (es ++ fs) u ↔ ∃ t, Follows env s es t ∧ Follows env t fs u := by
  induction es generalizing s with
  | nil =>
    constructor
    · exact fun h => ⟨s, .nil s, h⟩
    · rintro ⟨t, h, hrest⟩
      cases h
      exact hrest
  | cons x es ih =>
    constructor
    · intro h
      cases h with
      | cons hx htail =>
        obtain ⟨t, hes, hfs⟩ := ih.mp htail
        exact ⟨t, .cons hx hes, hfs⟩
    · rintro ⟨t, h, hrest⟩
      cases h with
      | cons hx htail => exact .cons hx (ih.mpr ⟨t, htail, hrest⟩)

/-- An environment that computes its next state is followed by folding. -/
theorem follows_of_foldlM {σ : Type} {after : σ → Exchange Op Ans → Option σ}
    {es : List (Exchange Op Ans)} {s t : σ} (h : es.foldlM after s = some t) :
    Follows (fun s x t => after s x = some t) s es t := by
  induction es generalizing s with
  | nil =>
    obtain rfl := Option.some.inj h
    exact .nil s
  | cons x es ih =>
    obtain ⟨u, hu, hrest⟩ := Option.bind_eq_some_iff.mp h
    exact .cons hu (ih hrest)

end Interaction
