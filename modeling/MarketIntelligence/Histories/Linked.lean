import Mathlib.Data.List.Nodup
import Mathlib.Data.List.Induction

/-!
# Linked histories

Entries that name the entry they were made after. A history is linked when every entry
names the one immediately before it, which is what a compare-and-set on the last entry
produces. In a linked history without repeated identities no two entries name the same
predecessor.
-/

namespace Histories

variable {V I : Type*} (id : V → I) (expected : V → Option I)

/-- The identity of the last entry. -/
def lastId (vs : List V) : Option I := vs.getLast?.map id

/-- Every entry was made after the entry immediately before it. -/
def Linked (vs : List V) : Prop :=
  ∀ past v rest, vs = past ++ v :: rest → expected v = lastId id past

variable {id expected}

/-- The empty history is linked. -/
theorem linked_nil : Linked id expected [] := by
  intro past v rest h
  simp at h

/-- A new entry keeps a history linked if it names the last one. -/
theorem Linked.snoc {vs : List V} {v : V} (h : Linked id expected vs)
    (hv : expected v = lastId id vs) : Linked id expected (vs ++ [v]) := by
  intro past w rest heq
  obtain rfl | ⟨init, last, rfl⟩ := rest.eq_nil_or_concat'
  · obtain ⟨rfl, hlast⟩ := List.append_inj' heq rfl
    obtain rfl : v = w := by simpa using hlast
    exact hv
  · have hinit : vs ++ [v] = (past ++ w :: init) ++ [last] := by simpa using heq
    exact h past w init (List.append_inj' hinit rfl).1

/-- The beginning of a linked history is linked. -/
theorem Linked.of_append {vs ws : List V} (h : Linked id expected (vs ++ ws)) :
    Linked id expected vs := by
  intro past v rest heq
  exact h past v (rest ++ ws) (by rw [heq, List.append_assoc, List.cons_append])

/-- The entries of a linked history name nothing, the first entry, the second one, and so
on up to the last but one. -/
theorem Linked.map_expected {vs : List V} (h : Linked id expected vs) :
    vs.map expected = (none :: vs.map fun v => some (id v)).dropLast := by
  induction vs using List.reverseRecOn with
  | nil => rfl
  | append_singleton vs v ih =>
    have hlast : expected v = lastId id vs := h vs v [] rfl
    have hget : lastId id vs = (none :: vs.map fun v => some (id v)).getLast (by simp) := by
      obtain rfl | ⟨init, last, rfl⟩ := vs.eq_nil_or_concat' <;> simp [lastId]
    rw [List.map_append, ih h.of_append, List.map_singleton, hlast, hget,
      List.dropLast_append_getLast, List.map_append, List.map_singleton, ← List.cons_append,
      List.dropLast_concat]

/-- Without repeated identities, no two entries of a linked history name the same
predecessor. -/
theorem Linked.nodup_expected {vs : List V} (h : Linked id expected vs)
    (hids : (vs.map id).Nodup) : (vs.map expected).Nodup := by
  rw [h.map_expected]
  refine List.Nodup.sublist (List.dropLast_sublist _) (List.nodup_cons.mpr ⟨by simp, ?_⟩)
  have hsome := hids.map (f := some) fun _ _ => Option.some.inj
  simpa [Function.comp_def] using hsome

end Histories
