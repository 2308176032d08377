import MarketIntelligence.Json.Soundness

/-!
# What decoding can raise

The scanners raise decode errors and the recursion error themselves; every other
exception comes out of a hook. A property of all exceptions that the hooks raise
is therefore a property of all exceptions of hooks that decoding passes on.
-/

namespace Json

open Python

variable {ε V : Type}

/-- All exceptions of the hooks have a property. -/
structure Hooks.Raises (h : Hooks ε V) (P : ε → Prop) : Prop where
  int : ∀ {t e}, h.int t = .error e → P e
  float : ∀ {t e}, h.float t = .error e → P e
  constant : ∀ {t e}, h.constant t = .error e → P e
  object : ∀ {ms e}, h.object ms = .error e → P e

/-- The exception of a hook is passed on unchanged. -/
theorem ofHook_eq_error {x : Except ε V} {f : Failure ε} (h : ofHook x = .error f) :
    ∃ e, f = .hook e ∧ x = .error e := by
  cases x with
  | ok v => simp [ofHook] at h
  | error e => exact ⟨e, by simpa [ofHook] using h.symm, rfl⟩

/-- No hook is called inside a string. -/
theorem scanString_error {s : Str} {f : Failure ε} (h : scanString s = .error f) :
    ∃ d, f = .decode d := by
  fun_induction scanString s with
  | case2 => simp at h
  | case4 a b c d x s n _ _ ih =>
    rcases bind_eq_error.mp h with h | ⟨_, _, h⟩
    · exact ih h
    · simp at h
  | case7 e s _ c _ _ ih =>
    rcases bind_eq_error.mp h with h | ⟨_, _, h⟩
    · exact ih h
    · simp at h
  | case10 c s _ _ _ ih =>
    rcases bind_eq_error.mp h with h | ⟨_, _, h⟩
    · exact ih h
    · simp at h
  | _ => exact ⟨_, by simpa using h.symm⟩

/-- No hook is called for a member name. -/
theorem scanName_error {s : Str} {f : Failure ε} (h : scanName s = .error f) :
    ∃ d, f = .decode d := by
  unfold scanName at h
  split at h
  · split at h
    · rcases bind_eq_error.mp h with h | ⟨_, _, h⟩
      · exact scanString_error h
      · rcases bind_eq_error.mp h with h | ⟨_, _, h⟩
        · unfold scanColon at h
          split at h
          · split at h
            · simp at h
            · exact ⟨_, by simpa using h.symm⟩
          · exact ⟨_, by simpa using h.symm⟩
        · simp at h
    · exact ⟨_, by simpa using h.symm⟩
  · exact ⟨_, by simpa using h.symm⟩

variable {h : Hooks ε V} {P : ε → Prop}

/-- What an atom raises through a hook has the hooks' property. -/
theorem scanAtom_error (hP : h.Raises P) {s : Str} {e : ε}
    (herr : scanAtom h s = .error (.hook e)) : P e := by
  unfold scanAtom at herr
  split at herr
  · simp at herr
  · split at herr
    · simp at herr
    · split at herr
      · simp at herr
      · split at herr
        · rcases bind_eq_error.mp herr with herr | ⟨_, _, herr⟩
          · obtain ⟨_, heq, herr⟩ := ofHook_eq_error herr
            obtain rfl := Failure.hook.inj heq
            exact hP.constant herr
          · simp at herr
        · unfold scanNumber at herr
          split at herr
          · next isFloat t rest _ =>
            rcases bind_eq_error.mp herr with herr | ⟨_, _, herr⟩
            · obtain ⟨_, heq, herr⟩ := ofHook_eq_error herr
              obtain rfl := Failure.hook.inj heq
              cases isFloat with
              | true => exact hP.float herr
              | false => exact hP.int herr
            · simp at herr
          · simp at herr

/-- What the three scanners raise through hooks at one fuel has a property. -/
structure ScannersRaise (h : Hooks ε V) (P : ε → Prop) (fuel : ℕ) : Prop where
  once : ∀ {depth s e}, scanOnce h fuel depth s = .error (.hook e) → P e
  items : ∀ {depth s e}, scanItems h fuel depth s = .error (.hook e) → P e
  members : ∀ {depth s e}, scanMembers h fuel depth s = .error (.hook e) → P e

/-- One more unit of fuel keeps the property for items. -/
theorem ScannersRaise.items_succ {fuel : ℕ} (ih : ScannersRaise h P fuel) {depth : ℕ} {s : Str}
    {e : ε} (herr : scanItems h (fuel + 1) depth s = .error (.hook e)) : P e := by
  rw [scanItems] at herr
  rcases bind_eq_error.mp herr with herr | ⟨⟨v, s₁⟩, -, herr⟩
  · exact ih.once herr
  · dsimp only at herr
    split at herr
    · split at herr
      · simp at herr
      · split at herr
        · rcases bind_eq_error.mp herr with herr | ⟨_, _, herr⟩
          · exact ih.items herr
          · simp at herr
        · simp at herr
    · simp at herr

/-- One more unit of fuel keeps the property for members. -/
theorem ScannersRaise.members_succ {fuel : ℕ} (ih : ScannersRaise h P fuel) {depth : ℕ} {s : Str}
    {e : ε} (herr : scanMembers h (fuel + 1) depth s = .error (.hook e)) : P e := by
  rw [scanMembers] at herr
  rcases bind_eq_error.mp herr with herr | ⟨⟨k, s₀⟩, -, herr⟩
  · obtain ⟨d, hd⟩ := scanName_error herr
    simp at hd
  rcases bind_eq_error.mp herr with herr | ⟨⟨v, s₁⟩, -, herr⟩
  · exact ih.once herr
  · dsimp only at herr
    split at herr
    · split at herr
      · simp at herr
      · split at herr
        · rcases bind_eq_error.mp herr with herr | ⟨_, _, herr⟩
          · exact ih.members herr
          · simp at herr
        · simp at herr
    · simp at herr

/-- One more unit of fuel keeps the property for values. -/
theorem ScannersRaise.once_succ (hP : h.Raises P) {fuel : ℕ} (ih : ScannersRaise h P fuel)
    {depth : ℕ} {s : Str} {e : ε}
    (herr : scanOnce h (fuel + 1) depth s = .error (.hook e)) : P e := by
  have hobject {ms : List (Str × V)} {rest : Str}
      (herr : (do let v ← ofHook (h.object ms); return (v, rest)) =
        (.error (.hook e) : Except (Failure ε) (V × Str))) : P e := by
    rcases bind_eq_error.mp herr with herr | ⟨_, _, herr⟩
    · obtain ⟨_, heq, herr⟩ := ofHook_eq_error herr
      obtain rfl := Failure.hook.inj heq
      exact hP.object herr
    · simp at herr
  cases s with
  | nil => simp [scanOnce] at herr
  | cons c s =>
    simp only [scanOnce] at herr
    split at herr
    · rcases bind_eq_error.mp herr with herr | ⟨_, _, herr⟩
      · obtain ⟨d, hd⟩ := scanString_error herr
        simp at hd
      · simp at herr
    · split at herr
      · split at herr
        · simp at herr
        · split at herr
          · split at herr
            · exact hobject herr
            · rcases bind_eq_error.mp herr with herr | ⟨_, _, herr⟩
              · exact ih.members herr
              · exact hobject herr
          · simp at herr
      · split at herr
        · split at herr
          · simp at herr
          · split at herr
            · split at herr
              · simp at herr
              · rcases bind_eq_error.mp herr with herr | ⟨_, _, herr⟩
                · exact ih.items herr
                · simp at herr
            · simp at herr
        · exact scanAtom_error hP herr

/-- The property holds of what the scanners raise through hooks at every fuel. -/
theorem scanners_raise (hP : h.Raises P) (fuel : ℕ) : ScannersRaise h P fuel := by
  induction fuel with
  | zero =>
    refine ⟨fun {depth s e} herr => ?_, fun herr => ?_, fun herr => ?_⟩
    · cases s <;> simp [scanOnce] at herr
    · simp [scanItems] at herr
    · simp [scanMembers] at herr
  | succ fuel ih => exact ⟨ih.once_succ hP, ih.items_succ, ih.members_succ⟩

/-- Every exception of a hook that `json.loads` passes on has the hooks'
property. -/
theorem loads_error_hook (hP : h.Raises P) {limit : ℕ} {s : Str} {e : ε}
    (herr : loads h limit s = .error (.hook e)) : P e := by
  unfold loads rawDecode at herr
  split at herr
  · simp at herr
  · rcases bind_eq_error.mp herr with herr | ⟨⟨v, rest⟩, -, herr⟩
    · exact (scanners_raise hP _).once herr
    · dsimp only at herr
      split at herr <;> simp at herr

end Json
