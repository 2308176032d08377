import MarketIntelligence.Python.Exceptions

/-!
# Computations that raise only exceptions of the program

A program that translates every failure into an exception class of its own is
contained: no exception of another class escapes. Containment of a sequence is
containment of its parts, as far as they are reached.
-/

namespace Python

variable {Own α β : Type}

/-- No exception escapes but the program's own. -/
def Contained (x : Except (Raised Own) α) : Prop := ∀ e, x = .error e → ∃ a, e = .own a

/-- A result. -/
@[simp] theorem contained_ok (a : α) : Contained (.ok a : Except (Raised Own) α) := by
  intro e he
  cases he

/-- An exception of the program. -/
@[simp] theorem contained_own (e : Own) : Contained (.error (.own e) : Except (Raised Own) α) := by
  intro d hd
  exact ⟨e, (Except.error.inj hd).symm⟩

/-- A built-in exception escapes. -/
@[simp] theorem not_contained_builtin (e : BuiltinError) :
    ¬Contained (.error (.builtin e) : Except (Raised Own) α) := by
  intro h
  obtain ⟨a, ha⟩ := h _ rfl
  cases ha

/-- A built-in operation is contained exactly if it succeeds. -/
theorem contained_ofBuiltin {x : Except BuiltinError α} :
    Contained (ofBuiltin x : Except (Raised Own) α) ↔ ∃ a, x = .ok a := by
  cases x <;> simp [ofBuiltin]

/-- A sequence is contained exactly if its first part is, and its second part where it is
reached. -/
theorem contained_bind {x : Except (Raised Own) α} {f : α → Except (Raised Own) β} :
    Contained (x >>= f) ↔ Contained x ∧ ∀ a, x = .ok a → Contained (f a) := by
  cases x with
  | ok a => simp
  | error e =>
    constructor
    · intro h
      refine ⟨fun d hd => ?_, by simp⟩
      obtain rfl := Except.error.inj hd
      exact h e rfl
    · rintro ⟨h, -⟩ d hd
      obtain rfl := Except.error.inj hd
      exact h e rfl

/-- Where the first part returns, the second one decides. -/
theorem contained_bind_of_ok {x : Except (Raised Own) α} {f : α → Except (Raised Own) β} {a : α}
    (hx : x = .ok a) : Contained (x >>= f) ↔ Contained (f a) := by
  rw [hx, ok_bind]

/-- Branches. -/
theorem contained_ite {c : Prop} [Decidable c] {x y : Except (Raised Own) α} (hx : Contained x)
    (hy : Contained y) : Contained (if c then x else y) := by
  split
  · exact hx
  · exact hy

/-- A gate that fails with an exception of the program. -/
@[simp] theorem contained_raiseUnless {condition : Bool} (e : Own) :
    Contained (raiseUnless condition (.own e)) := contained_ite (contained_ok ()) (contained_own e)

end Python
