import MarketIntelligence.Interaction.Interleaving
import Mathlib.Data.List.Induction
import Mathlib.Logic.Function.Basic

/-!
# Cooperative calls on shared state

A call runs without interruption until it awaits an answer, and goes on without
interruption when the answer is there. Any number of calls share a state, and their
segments take place in any order. If segments read no more of the state than a view that
no segment changes, every call does what it does alone.
-/

namespace Interaction

variable {ι S V Q A R : Type}

/-- A call between two segments: finished, or waiting for the answer to a query. The
answer and the shared state determine the state afterwards and how the call goes on. -/
inductive Suspended (S Q A R : Type) : Type
  | finished (r : R)
  | awaiting (q : Q) (update : A → S → S) (next : A → S → Suspended S Q A R)

/-- A call that has not begun, by its first segment. -/
structure Call (S Q A R : Type) where
  update : S → S
  next : S → Suspended S Q A R

namespace Suspended

/-- The queries that a segment has begun when it leaves a call like this. -/
def begun : Suspended S Q A R → List Q
  | finished _ => []
  | awaiting q _ _ => [q]

/-- A suspended call with the rest of its answers and nobody else around. -/
def alone : Suspended S Q A R → S → List A → S × Suspended S Q A R
  | t, s, [] => (s, t)
  | finished r, s, _ => (s, finished r)
  | awaiting _ update next, s, a :: as => (next a s).alone (update a s) as

/-- The queries that it begins, with the one it awaits. -/
def queries : Suspended S Q A R → S → List A → List Q
  | t, _, [] => t.begun
  | finished _, _, _ => []
  | awaiting q update next, s, a :: as => q :: (next a s).queries (update a s) as

end Suspended

/-- A whole call with its answers and nobody else around. -/
def Call.alone (c : Call S Q A R) (s : S) (as : List A) : S × Suspended S Q A R :=
  (c.next s).alone (c.update s) as

/-- The queries of a whole call with its answers and nobody else around. -/
def Call.queries (c : Call S Q A R) (s : S) (as : List A) : List Q :=
  (c.next s).queries (c.update s) as

/-! ### Systems of calls -/

/-- The shared state, the calls that have begun, and the queries that were begun by whom. -/
structure System (ι S Q A R : Type) where
  shared : S
  calls : ι → Option (Suspended S Q A R)
  asked : List (ι × Q)

/-- A call begins, or goes on with an answer. -/
inductive Turn (ι A : Type)
  | start (i : ι)
  | resume (i : ι) (a : A)

/-- The answers of one call, in order. -/
def answersOf [DecidableEq ι] (i : ι) (turns : List (Turn ι A)) : List A :=
  turns.filterMap fun
    | .resume j a => if j = i then some a else none
    | .start _ => none

/-- Nothing has begun. -/
def System.initial (s : S) : System ι S Q A R := ⟨s, fun _ => none, []⟩

variable [DecidableEq ι]

/-- A segment of one call has taken place. -/
def System.advance (sys : System ι S Q A R) (i : ι) (s : S) (t : Suspended S Q A R) :
    System ι S Q A R :=
  ⟨s, Function.update sys.calls i (some t), sys.asked ++ t.begun.map fun q => (i, q)⟩

/-- One turn: a call begins once, and goes on only when it awaits an answer. -/
def System.step (calls : ι → Call S Q A R) (sys : System ι S Q A R) :
    Turn ι A → Option (System ι S Q A R)
  | .start i =>
      match sys.calls i with
      | none => some (sys.advance i ((calls i).update sys.shared) ((calls i).next sys.shared))
      | some _ => none
  | .resume i a =>
      match sys.calls i with
      | some (.awaiting _ update next) =>
          some (sys.advance i (update a sys.shared) (next a sys.shared))
      | _ => none

/-- A sequence of turns. -/
def System.run (calls : ι → Call S Q A R) (sys : System ι S Q A R) (turns : List (Turn ι A)) :
    Option (System ι S Q A R) := turns.foldlM (System.step calls) sys

/-- What a turn can do. -/
theorem System.step_cases {calls : ι → Call S Q A R} {sys sys' : System ι S Q A R}
    {turn : Turn ι A} (h : sys.step calls turn = some sys') :
    (∃ i, turn = .start i ∧ sys.calls i = none ∧
      sys' = sys.advance i ((calls i).update sys.shared) ((calls i).next sys.shared)) ∨
    ∃ i a q update next, turn = .resume i a ∧ sys.calls i = some (.awaiting q update next) ∧
      sys' = sys.advance i (update a sys.shared) (next a sys.shared) := by
  cases turn with
  | start i =>
    simp only [System.step] at h
    split at h
    · next hnone => exact .inl ⟨i, rfl, hnone, (Option.some.inj h).symm⟩
    · cases h
  | resume i a =>
    simp only [System.step] at h
    split at h
    · next q update next hawaiting =>
      exact .inr ⟨i, a, q, update, next, rfl, hawaiting, (Option.some.inj h).symm⟩
    · cases h

/-- What holds at the beginning and is preserved by every turn holds of every system that
some turns lead to. -/
theorem System.run_induction {calls : ι → Call S Q A R} {sys : System ι S Q A R}
    {P : List (Turn ι A) → System ι S Q A R → Prop} (hinitial : P [] sys)
    (hstep : ∀ turns sys sys' turn, P turns sys → sys.step calls turn = some sys' →
      P (turns ++ [turn]) sys')
    {turns : List (Turn ι A)} {sys' : System ι S Q A R}
    (h : sys.run calls turns = some sys') : P turns sys' := by
  induction turns using List.reverseRecOn generalizing sys' with
  | nil =>
    obtain rfl := Option.some.inj h
    exact hinitial
  | append_singleton turns turn ih =>
    rw [System.run, List.foldlM_append] at h
    obtain ⟨mid, hmid, hlast⟩ := Option.bind_eq_some_iff.mp h
    have hstepped : mid.step calls turn = some sys' := by simpa using hlast
    exact hstep turns mid sys' turn (ih hmid) hstepped

/-! ### Calls that do not interfere -/

/-- A suspended call that reads only a view of the state, and never changes it. -/
inductive Suspended.Reads (view : S → V) : Suspended S Q A R → Prop
  | finished (r : R) : Reads view (finished r)
  | awaiting {q : Q} {update : A → S → S} {next : A → S → Suspended S Q A R} :
      (∀ a s, view (update a s) = view s) →
      (∀ a s s', view s = view s' → next a s = next a s') →
      (∀ a s, Reads view (next a s)) → Reads view (awaiting q update next)

/-- A call that reads only a view of the state, and never changes it. -/
structure Call.Reads (view : S → V) (c : Call S Q A R) : Prop where
  update : ∀ s, view (c.update s) = view s
  next : ∀ s s', view s = view s' → c.next s = c.next s'
  rest : ∀ s, (c.next s).Reads view

/-- One more answer alone, when the call awaits it. -/
theorem Suspended.alone_append {t : Suspended S Q A R} {s : S} {as : List A} {q : Q}
    {update : A → S → S} {next : A → S → Suspended S Q A R}
    (h : (t.alone s as).2 = .awaiting q update next) (a : A) :
    t.alone s (as ++ [a]) = (update a (t.alone s as).1, next a (t.alone s as).1) ∧
      t.queries s (as ++ [a]) = t.queries s as ++ (next a (t.alone s as).1).begun := by
  induction as generalizing t s with
  | nil =>
    cases t with
    | finished r => cases h
    | awaiting q' update' next' =>
      obtain ⟨-, rfl, rfl⟩ : q' = q ∧ update' = update ∧ next' = next := by simpa [alone] using h
      simp [alone, queries, begun]
  | cons b as ih =>
    cases t with
    | finished r => cases h
    | awaiting q' update' next' =>
      obtain ⟨halone, hqueries⟩ := ih h
      exact ⟨halone, congrArg (q' :: ·) hqueries⟩

/-- A call alone keeps the view and what it reads. -/
theorem Suspended.Reads.alone {view : S → V} {t : Suspended S Q A R} (h : t.Reads view) (s : S)
    (as : List A) : view (t.alone s as).1 = view s ∧ (t.alone s as).2.Reads view := by
  induction as generalizing t s with
  | nil => exact ⟨by cases t <;> rfl, by cases t <;> exact h⟩
  | cons a as ih =>
    cases h with
    | finished r => exact ⟨rfl, .finished r⟩
    | awaiting hupdate hnext hrest =>
      obtain ⟨hview, hreads⟩ := ih (hrest a s) _
      exact ⟨hview.trans (hupdate a s), hreads⟩

/-- The same for a whole call. -/
theorem Call.Reads.alone {view : S → V} {c : Call S Q A R} (h : c.Reads view) (s : S)
    (as : List A) : view (c.alone s as).1 = view s ∧ (c.alone s as).2.Reads view := by
  obtain ⟨hview, hreads⟩ := (h.rest s).alone (c.update s) as
  exact ⟨hview.trans (h.update s), hreads⟩

/-- The answers of a call, with one more turn. -/
theorem answersOf_append (i : ι) (turns : List (Turn ι A)) (turn : Turn ι A) :
    answersOf i (turns ++ [turn]) = answersOf i turns ++ answersOf i [turn] :=
  List.filterMap_append

/-- What holds of a system of calls that do not interfere, after some turns: the view is
the first one, and every call stands where it stands alone with its answers. -/
structure System.Isolated (view : S → V) (calls : ι → Call S Q A R) (s₀ : S)
    (turns : List (Turn ι A)) (sys : System ι S Q A R) : Prop where
  view_eq : view sys.shared = view s₀
  begun : ∀ i t, sys.calls i = some t → .start i ∈ turns ∧
    t = ((calls i).alone s₀ (answersOf i turns)).2 ∧
    eventsOf i sys.asked = (calls i).queries s₀ (answersOf i turns)
  waiting : ∀ i, sys.calls i = none → .start i ∉ turns ∧ answersOf i turns = [] ∧
    eventsOf i sys.asked = []

/-- Whose turn it is. -/
def Turn.caller : Turn ι A → ι
  | start i => i
  | resume i _ => i

/-- The turn of one call is no turn of another. -/
theorem not_turn_of_ne {j : ι} {turn : Turn ι A} (hj : j ≠ turn.caller)
    (turns : List (Turn ι A)) :
    answersOf j (turns ++ [turn]) = answersOf j turns ∧
      (.start j ∈ turns ++ [turn] ↔ .start j ∈ turns) := by
  rw [answersOf_append]
  cases turn with
  | start i =>
    have hij : j ≠ i := hj
    simp [answersOf, hij]
  | resume i a =>
    have hij : i ≠ j := Ne.symm hj
    simp [answersOf, hij]

/-- The queries of a call, after a segment. -/
theorem System.eventsOf_advance (sys : System ι S Q A R) (i j : ι) (s : S)
    (t : Suspended S Q A R) : eventsOf j (sys.advance i s t).asked =
      eventsOf j sys.asked ++ if j = i then t.begun else [] := by
  rw [System.advance, eventsOf_append]
  split
  · next hji => rw [hji, eventsOf_map_self]
  · next hji => rw [eventsOf_map_of_ne (Ne.symm hji)]

/-- A segment that leaves its own call where it stands alone leaves the others there. -/
theorem System.Isolated.advance {view : S → V} {calls : ι → Call S Q A R} {s₀ s : S}
    {turns : List (Turn ι A)} {sys : System ι S Q A R} {turn : Turn ι A} {i : ι}
    {t : Suspended S Q A R} (h : sys.Isolated view calls s₀ turns) (hi : turn.caller = i)
    (hview : view s = view s₀)
    (hown : .start i ∈ turns ++ [turn] ∧
      t = ((calls i).alone s₀ (answersOf i (turns ++ [turn]))).2 ∧
      eventsOf i sys.asked ++ t.begun =
        (calls i).queries s₀ (answersOf i (turns ++ [turn]))) :
    (sys.advance i s t).Isolated view calls s₀ (turns ++ [turn]) := by
  refine ⟨hview, fun j u hu => ?_, fun j hj => ?_⟩
  · by_cases hji : j = i
    · subst hji
      obtain rfl : t = u := by simpa [System.advance] using hu
      simpa [System.eventsOf_advance] using hown
    · obtain ⟨hanswers, hstart⟩ := not_turn_of_ne (hi ▸ hji) turns
      rw [hanswers, hstart, System.eventsOf_advance, if_neg hji, List.append_nil]
      exact h.begun j u (by simpa [System.advance, hji] using hu)
  · have hji : j ≠ i := by
      rintro rfl
      simp [System.advance] at hj
    obtain ⟨hanswers, hstart⟩ := not_turn_of_ne (hi ▸ hji) turns
    rw [hanswers, hstart, System.eventsOf_advance, if_neg hji, List.append_nil]
    exact h.waiting j (by simpa [System.advance, hji] using hj)

/-- A turn leaves calls that do not interfere where they stand alone. -/
theorem System.Isolated.step {view : S → V} {calls : ι → Call S Q A R} {s₀ : S}
    (hreads : ∀ i, (calls i).Reads view) {turns : List (Turn ι A)}
    {sys sys' : System ι S Q A R} {turn : Turn ι A} (h : sys.Isolated view calls s₀ turns)
    (hstep : sys.step calls turn = some sys') : sys'.Isolated view calls s₀ (turns ++ [turn]) := by
  obtain ⟨i, rfl, hnone, rfl⟩ | ⟨i, a, q, update, next, rfl, hawaiting, rfl⟩ :=
    System.step_cases hstep
  · obtain ⟨-, hanswers, hnothing⟩ := h.waiting i hnone
    have hempty : answersOf i (turns ++ [.start i]) = [] := by
      rw [answersOf_append, hanswers]
      rfl
    refine h.advance rfl (((hreads i).update _).trans h.view_eq) ⟨by simp, ?_⟩
    rw [hempty, (hreads i).next _ s₀ h.view_eq, hnothing, Call.alone, Call.queries]
    simp [Suspended.alone, Suspended.queries]
  · obtain ⟨hstart, hcall, hqueries⟩ := h.begun i _ hawaiting
    obtain ⟨hview, hrest⟩ := (hreads i).alone s₀ (answersOf i turns)
    rw [← hcall] at hrest
    cases hrest with
    | awaiting hupdate hnext _ =>
      have hanswers : answersOf i (turns ++ [.resume i a]) = answersOf i turns ++ [a] := by
        rw [answersOf_append]
        simp [answersOf]
      obtain ⟨halone, hmore⟩ := Suspended.alone_append hcall.symm a
      have hsame := hnext a sys.shared _ (h.view_eq.trans hview.symm)
      refine h.advance rfl ((hupdate _ _).trans h.view_eq) ⟨by simp [hstart], ?_⟩
      rw [hanswers, Call.alone, Call.queries, halone, hmore, hqueries, hsame]
      exact ⟨rfl, rfl⟩

/-- Calls that do not interfere stand where they stand alone, in every order of turns. -/
theorem System.run_isolated {view : S → V} {calls : ι → Call S Q A R} {s₀ : S}
    (hreads : ∀ i, (calls i).Reads view) {turns : List (Turn ι A)} {sys : System ι S Q A R}
    (h : (System.initial s₀).run calls turns = some sys) : sys.Isolated view calls s₀ turns := by
  have hinitial : (System.initial s₀).Isolated view calls s₀ [] :=
    ⟨rfl, fun i t ht => (by cases ht), fun i _ => ⟨by simp, rfl, rfl⟩⟩
  exact System.run_induction hinitial (fun _ _ _ _ hsys hstep => hsys.step hreads hstep) h

/-! ### Counting queries -/

/-- A segment that counts the queries it begins. -/
def Counts (count : S → ℕ) (s s' : S) (t : Suspended S Q A R) : Prop :=
  count s' = count s + t.begun.length

/-- A suspended call whose segments count their queries. -/
inductive Suspended.Counting (count : S → ℕ) : Suspended S Q A R → Prop
  | finished (r : R) : Counting count (finished r)
  | awaiting {q : Q} {update : A → S → S} {next : A → S → Suspended S Q A R} :
      (∀ a s, Counts count s (update a s) (next a s)) →
      (∀ a s, Counting count (next a s)) → Counting count (awaiting q update next)

/-- A call whose segments count their queries. -/
structure Call.Counting (count : S → ℕ) (c : Call S Q A R) : Prop where
  first : ∀ s, Counts count s (c.update s) (c.next s)
  rest : ∀ s, (c.next s).Counting count

/-- In every order of turns the count is the number of queries that were begun. -/
theorem System.run_counts {count : S → ℕ} {calls : ι → Call S Q A R} {s₀ : S}
    (hcounting : ∀ i, (calls i).Counting count) {turns : List (Turn ι A)}
    {sys : System ι S Q A R} (h : (System.initial s₀).run calls turns = some sys) :
    count sys.shared = count s₀ + sys.asked.length := by
  have hinvariant : count sys.shared = count s₀ + sys.asked.length ∧
      ∀ i t, sys.calls i = some t → t.Counting count := by
    refine System.run_induction (P := fun _ sys => count sys.shared = count s₀ + sys.asked.length ∧
      ∀ i t, sys.calls i = some t → t.Counting count) ⟨rfl, fun i t ht => by cases ht⟩ ?_ h
    intro turns sys sys' turn ⟨hcount, hcalls⟩ hstep
    have hadvance {i : ι} {s : S} {t : Suspended S Q A R}
        (hs : Counts count sys.shared s t) (ht : t.Counting count) :
        count (sys.advance i s t).shared = count s₀ + (sys.advance i s t).asked.length ∧
          ∀ j u, (sys.advance i s t).calls j = some u → u.Counting count := by
      constructor
      · simp only [System.advance, List.length_append, List.length_map]
        unfold Counts at hs
        omega
      · intro j u hu
        by_cases hji : j = i
        · subst hji
          obtain rfl : t = u := by simpa [System.advance] using hu
          exact ht
        · exact hcalls j u (by simpa [System.advance, hji] using hu)
    obtain ⟨i, -, -, rfl⟩ | ⟨i, a, q, update, next, -, hawaiting, rfl⟩ := System.step_cases hstep
    · exact hadvance ((hcounting i).first _) ((hcounting i).rest _)
    · cases hcalls i _ hawaiting with
      | awaiting hfirst hrest => exact hadvance (hfirst a _) (hrest a _)
  exact hinvariant.1

end Interaction
