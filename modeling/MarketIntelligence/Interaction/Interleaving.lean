import Mathlib.Data.List.Basic

/-!
# Interleavings

A schedule is a sequence of events that carry the name of the party they belong to. The
events of one party are found by leaving the others out, and where they split, the
schedule splits.
-/

namespace Interaction

variable {ι α : Type} [DecidableEq ι]

/-- The events of one party. -/
def eventsOf (i : ι) (s : List (ι × α)) : List α :=
  s.filterMap fun x => if x.1 = i then some x.2 else none

/-- The events in a part of a schedule and in the next part. -/
theorem eventsOf_append (i : ι) (s t : List (ι × α)) :
    eventsOf i (s ++ t) = eventsOf i s ++ eventsOf i t := List.filterMap_append

/-- An own event at the head of a schedule. -/
theorem eventsOf_cons_self (i : ι) (x : α) (s : List (ι × α)) :
    eventsOf i ((i, x) :: s) = x :: eventsOf i s := by simp [eventsOf]

/-- The events of a part in which one party acts alone. -/
theorem eventsOf_map_self (i : ι) (es : List α) : eventsOf i (es.map fun x => (i, x)) = es := by
  simp [eventsOf, List.filterMap_map]

/-- The others have no events in such a part. -/
theorem eventsOf_map_of_ne {i j : ι} (h : i ≠ j) (es : List α) :
    eventsOf j (es.map fun x => (i, x)) = [] := by
  simp [eventsOf, List.filterMap_map, h]

/-- The events of a party are events of the schedule. -/
theorem mem_eventsOf {i : ι} {x : α} {s : List (ι × α)} : x ∈ eventsOf i s ↔ (i, x) ∈ s := by
  simp only [eventsOf, List.mem_filterMap, Option.ite_none_right_eq_some, Option.some.injEq]
  constructor
  · rintro ⟨⟨j, y⟩, hmem, rfl, rfl⟩
    exact hmem
  · intro h
    exact ⟨(i, x), h, rfl, rfl⟩

/-- Where the events of a party split, the schedule splits. -/
theorem exists_of_eventsOf_append {i : ι} {s : List (ι × α)} {xs ys : List α}
    (h : eventsOf i s = xs ++ ys) :
    ∃ l r, s = l ++ r ∧ eventsOf i l = xs ∧ eventsOf i r = ys :=
  List.filterMap_eq_append_iff.mp h

/-- The event of a party in the schedule, with its own events around it. -/
theorem exists_of_eventsOf_cons {i : ι} {s : List (ι × α)} {x : α} {xs ys : List α}
    (h : eventsOf i s = xs ++ x :: ys) :
    ∃ l r, s = l ++ (i, x) :: r ∧ eventsOf i l = xs ∧ eventsOf i r = ys := by
  obtain ⟨l, r, rfl, hl, hr⟩ := exists_of_eventsOf_append h
  obtain ⟨others, ⟨j, y⟩, rest, rfl, hothers, hx, hrest⟩ := List.filterMap_eq_cons_iff.mp hr
  obtain ⟨rfl, rfl⟩ : j = i ∧ y = x := by simpa using hx
  refine ⟨l ++ others, rest, by simp, ?_, hrest⟩
  rw [eventsOf_append, hl]
  have hnone : eventsOf j others = [] := List.filterMap_eq_nil_iff.mpr hothers
  rw [hnone, List.append_nil]

end Interaction
