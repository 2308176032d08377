import MarketIntelligence.Interaction.Contract
import MarketIntelligence.Interaction.Interleaving
import Mathlib.Data.List.Induction

/-!
# Invariants of schedules

Several programs share an environment, and their operations take place in the order of a
schedule. What every operation keeps, wherever the contract of its program allows it, holds
after every part of the schedule.
-/

namespace Interaction

variable {Op : Type} {Ans : Op → Type} {ι σ : Type} [DecidableEq ι]
variable {env : σ → Exchange Op Ans → σ → Prop} {allows : ι → List (Exchange Op Ans) → Op → Prop}
variable {s : List (ι × Exchange Op Ans)}

/-- Every program of a schedule issues allowed operations only. -/
def ScheduleAllowed (allows : ι → List (Exchange Op Ans) → Op → Prop)
    (s : List (ι × Exchange Op Ans)) : Prop :=
  ∀ i, Allowed (allows i) [] (eventsOf i s)

/-- An operation of a schedule was allowed to its program after its own earlier ones. -/
theorem ScheduleAllowed.of_split (h : ScheduleAllowed allows s)
    {past rest : List (ι × Exchange Op Ans)} {i : ι} {x : Exchange Op Ans}
    (hs : s = past ++ (i, x) :: rest) : allows i (eventsOf i past) x.op := by
  refine h i (eventsOf i past) x (eventsOf i rest) ?_
  rw [hs, eventsOf_append, eventsOf_cons_self]

/-- The rule for schedules: an invariant of the history and of the shared state that every
allowed operation keeps holds at every moment after one at which it holds. -/
theorem ScheduleAllowed.invariant (h : ScheduleAllowed allows s)
    {P : List (ι × Exchange Op Ans) → σ → Prop} (first : List (ι × Exchange Op Ans)) {start : σ}
    (hstart : P first start)
    (hstep : ∀ past i x rest t u, s = past ++ (i, x) :: rest → allows i (eventsOf i past) x.op →
      env t x u → P past t → P (past ++ [(i, x)]) u)
    {before after : List (ι × Exchange Op Ans)} {t : σ} (hs : s = first ++ before ++ after)
    (ht : Follows env start (before.map Prod.snd) t) : P (first ++ before) t := by
  induction before using List.reverseRecOn generalizing after t with
  | nil =>
    cases ht
    rwa [List.append_nil]
  | append_singleton past last ih =>
    obtain ⟨i, x⟩ := last
    rw [List.map_append] at ht
    obtain ⟨u, hpast, hlast⟩ := follows_append.mp ht
    have hsplit : s = first ++ past ++ (i, x) :: after := by simp [hs]
    cases hlast with
    | cons hx hnil =>
      cases hnil
      rw [← List.append_assoc]
      exact hstep (first ++ past) i x after u t hsplit (h.of_split hsplit) hx (ih hsplit hpast)

end Interaction
