import MarketIntelligence.Python.SameValue

/-!
# Computations with related results

Two computations run alike if they raise the same exception, or return related values. What is
read from two values that are the same up to the order of members runs alike, and sequences of
computations that run alike do.
-/

namespace Python

variable {ε : Type*} {α α' β β' : Type}

/-! ### Running alike -/

/-- Two computations raise the same exception or return related values. -/
inductive RunAlike (R : α → α' → Prop) : Except ε α → Except ε α' → Prop
  | ok {a : α} {a' : α'} : R a a' → RunAlike R (.ok a) (.ok a')
  | error (e : ε) : RunAlike R (.error e) (.error e)

/-- Sequences run alike if their parts do. -/
theorem RunAlike.bind {R : α → α' → Prop} {S : β → β' → Prop} {x : Except ε α}
    {x' : Except ε α'} {f : α → Except ε β} {f' : α' → Except ε β'} (hx : RunAlike R x x')
    (hf : ∀ a a', R a a' → RunAlike S (f a) (f' a')) : RunAlike S (x >>= f) (x' >>= f') := by
  cases hx with
  | ok h => exact hf _ _ h
  | error e => exact .error e

/-- The same computation runs alike with itself. -/
theorem runAlike_refl {R : α → α → Prop} (hR : ∀ a, R a a) (x : Except ε α) : RunAlike R x x := by
  cases x with
  | ok a => exact .ok (hR a)
  | error e => exact .error e

/-- Related values are accepted alike by a check that does not tell them apart. -/
theorem RunAlike.checked {R : α → α → Prop} {accepts : α → Bool} {a a' : α} {e : ε}
    (h : ∀ b b', R b b' → accepts b = accepts b') (ha : R a a') :
    RunAlike R (if accepts a then .ok a else .error e)
      (if accepts a' then .ok a' else .error e : Except ε α) := by
  rw [h a a' ha]
  split
  · exact .ok ha
  · exact .error e

/-- If one of two computations that run alike returns, so does the other. -/
theorem RunAlike.exists_ok {R : α → α' → Prop} {x : Except ε α} {x' : Except ε α'} {a : α}
    (h : RunAlike R x x') (hx : x = .ok a) : ∃ a', x' = .ok a' ∧ R a a' := by
  cases h with
  | ok h =>
    obtain rfl := Except.ok.inj hx
    exact ⟨_, rfl, h⟩
  | error e => cases hx

/-- Exceptions of a program are the same if the built-in ones are. -/
theorem RunAlike.ofBuiltin {Own : Type} {R : α → α' → Prop} {x : Except BuiltinError α}
    {x' : Except BuiltinError α'} (h : RunAlike R x x') :
    RunAlike R (ofBuiltin x : Except (Raised Own) α) (Python.ofBuiltin x') := by
  cases h with
  | ok h => exact .ok h
  | error e => exact .error _

/-! ### Looking up in the same values -/

variable {F : Type}

/-- Same lists have the same length. -/
theorem SameItems.length_eq {xs ys : List (Data F)} (h : SameItems xs ys) :
    xs.length = ys.length := by
  induction xs generalizing ys with
  | nil =>
    cases h
    rfl
  | cons x xs ih =>
    cases h with
    | cons _ hrest => rw [List.length_cons, List.length_cons, ih hrest]

/-- Same dictionaries have the same keys. -/
theorem SameMembers.hasKey_eq {ms ns : List (Str × Data F)} (h : SameMembers ms ns) (key : Str) :
    hasKey ms key = hasKey ns key := by
  have hmem := h.keys.mem_iff (a := key)
  simp only [hasKey, hmem]

/-- Under a key, same dictionaries have the same values. -/
theorem SameMembers.get_same {ms ns : List (Str × Data F)} (h : SameMembers ms ns)
    (hms : (ms.map Prod.fst).Nodup) (key : Str) : SameValue (get ms key) (get ns key) := by
  by_cases hkey : hasKey ms key = true
  · obtain ⟨m, hm, rfl⟩ := List.mem_map.mp (of_decide_eq_true hkey)
    obtain ⟨y, hy, hsame⟩ := h.exists_mem m hm
    rw [get_eq_of_mem hms (show (m.1, m.2) ∈ ms from hm),
      get_eq_of_mem (h.keys.nodup_iff.mp hms) hy]
    exact hsame
  · have hnone : hasKey ms key = false := by simpa using hkey
    rw [get_of_not_hasKey hnone, get_of_not_hasKey ((h.hasKey_eq key).symm.trans hnone)]
    exact .none

/-- Lookups in the same dictionaries run alike. -/
theorem SameMembers.lookup {ms ns : List (Str × Data F)} (h : SameMembers ms ns)
    (hms : (ms.map Prod.fst).Nodup) (key : Str) :
    RunAlike SameValue (lookup ms key) (Python.lookup ns key) := by
  unfold Python.lookup
  rw [h.hasKey_eq key]
  split
  · exact .ok (h.get_same hms key)
  · exact .error _

/-- Subscripts of the same values run alike. -/
theorem SameValue.subscript {x y : Data F} (h : SameValue x y) (hx : x.WellFormed) (key : Str) :
    RunAlike SameValue (x.subscript key) (y.subscript key) := by
  cases h with
  | dict hmembers => exact hmembers.lookup (wellFormed_dict.mp hx).1 key
  | _ => exact .error _

/-- A value of a well-formed dictionary is well formed. -/
theorem wellFormed_get {ms : List (Str × Data F)} (h : (Data.dict ms).WellFormed) (key : Str) :
    (get ms key).WellFormed := by
  by_cases hnone : get ms key = .none
  · rw [hnone]
    trivial
  · exact ((wellFormed_dict.mp h).2 _ (mem_of_get rfl hnone)).2

end Python
