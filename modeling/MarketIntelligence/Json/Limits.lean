import MarketIntelligence.Json.Completeness

/-!
# Decoding with more resources

A scanner that does not run into the recursion limit gives the same answer with more fuel
and a higher limit. So the fuel of `raw_decode` is no limit of its own, and what a value
of the grammar decodes to is known from the completeness of the scanners at any limit
that the decoder did not meet.
-/

namespace Json

open Python

variable {ε V : Type} {h : Hooks ε V}

/-- A sequence whose parts are stable is stable. -/
theorem bind_stable {η α β : Type} {r : η} {x x' : Except η α} {f f' : α → Except η β}
    (hx : x ≠ .error r → x' = x) (hf : ∀ a, f a ≠ .error r → f' a = f a)
    (hne : (x >>= f) ≠ .error r) : (x' >>= f') = (x >>= f) := by
  cases x with
  | error e =>
    have hsame := hx fun heq => hne (by rw [heq]; rfl)
    rw [hsame]
    rfl
  | ok a =>
    rw [hx (by simp)]
    exact hf a hne

/-- The three scanners at one fuel are stable when the fuel or the limit is raised. -/
structure ScannersStable (h : Hooks ε V) (fuel : ℕ) : Prop where
  once : ∀ {depth s fuel' depth'}, fuel ≤ fuel' → depth ≤ depth' →
    scanOnce h fuel depth s ≠ .error .recursion →
    scanOnce h fuel' depth' s = scanOnce h fuel depth s
  items : ∀ {depth s fuel' depth'}, fuel ≤ fuel' → depth ≤ depth' →
    scanItems h fuel depth s ≠ .error .recursion →
    scanItems h fuel' depth' s = scanItems h fuel depth s
  members : ∀ {depth s fuel' depth'}, fuel ≤ fuel' → depth ≤ depth' →
    scanMembers h fuel depth s ≠ .error .recursion →
    scanMembers h fuel' depth' s = scanMembers h fuel depth s

/-- One more unit of fuel keeps items stable. -/
theorem ScannersStable.items_succ {fuel : ℕ} (ih : ScannersStable h fuel) {depth depth' fuel' : ℕ}
    {s : Str} (hfuel : fuel ≤ fuel') (hdepth : depth ≤ depth')
    (hne : scanItems h (fuel + 1) depth s ≠ .error .recursion) :
    scanItems h (fuel' + 1) depth' s = scanItems h (fuel + 1) depth s := by
  rw [scanItems] at hne
  rw [scanItems, scanItems]
  refine bind_stable (ih.once hfuel hdepth) (fun scanned hrest => ?_) hne
  obtain ⟨v, rest⟩ := scanned
  dsimp only at hrest ⊢
  split
  · split
    · rfl
    · split
      · next heq _ hcomma =>
        rw [heq] at hrest
        simp only [hcomma, if_true] at hrest
        exact bind_stable (ih.items hfuel hdepth) (fun _ _ => rfl) hrest
      · rfl
  · rfl

/-- One more unit of fuel keeps members stable. -/
theorem ScannersStable.members_succ {fuel : ℕ} (ih : ScannersStable h fuel)
    {depth depth' fuel' : ℕ} {s : Str} (hfuel : fuel ≤ fuel') (hdepth : depth ≤ depth')
    (hne : scanMembers h (fuel + 1) depth s ≠ .error .recursion) :
    scanMembers h (fuel' + 1) depth' s = scanMembers h (fuel + 1) depth s := by
  rw [scanMembers] at hne
  rw [scanMembers, scanMembers]
  refine bind_stable (fun _ => rfl) (fun named hname => ?_) hne
  obtain ⟨k, rest⟩ := named
  refine bind_stable (ih.once hfuel hdepth) (fun scanned hrest => ?_) hname
  obtain ⟨v, rest⟩ := scanned
  dsimp only at hrest ⊢
  split
  · split
    · rfl
    · split
      · next heq _ hcomma =>
        rw [heq] at hrest
        simp only [hcomma, if_true] at hrest
        exact bind_stable (ih.members hfuel hdepth) (fun _ _ => rfl) hrest
      · rfl
  · rfl

/-- One more unit of fuel keeps values stable. -/
theorem ScannersStable.once_succ {fuel : ℕ} (ih : ScannersStable h fuel)
    {depth depth' fuel' : ℕ} {s : Str} (hfuel : fuel ≤ fuel') (hdepth : depth ≤ depth')
    (hne : scanOnce h (fuel + 1) depth s ≠ .error .recursion) :
    scanOnce h (fuel' + 1) depth' s = scanOnce h (fuel + 1) depth s := by
  cases s with
  | nil => rfl
  | cons c s =>
    simp only [scanOnce] at hne ⊢
    split
    · rfl
    · next hquote =>
      rw [if_neg hquote] at hne
      split
      · next hbrace =>
        rw [if_pos hbrace] at hne
        cases depth with
        | zero => exact absurd rfl hne
        | succ depth =>
          obtain ⟨depth', rfl⟩ :=
            Nat.exists_eq_add_of_le' (Nat.lt_of_lt_of_le depth.succ_pos hdepth)
          dsimp only at hne ⊢
          split
          · split
            · rfl
            · next heq hclose =>
              rw [heq] at hne
              simp only [hclose, if_false] at hne
              exact bind_stable (ih.members hfuel (by omega)) (fun _ _ => rfl) hne
          · rfl
      · next hbrace =>
        rw [if_neg hbrace] at hne
        split
        · next hbracket =>
          rw [if_pos hbracket] at hne
          cases depth with
          | zero => exact absurd rfl hne
          | succ depth =>
            obtain ⟨depth', rfl⟩ :=
              Nat.exists_eq_add_of_le' (Nat.lt_of_lt_of_le depth.succ_pos hdepth)
            dsimp only at hne ⊢
            split
            · split
              · rfl
              · next heq hclose =>
                rw [heq] at hne
                simp only [hclose, if_false] at hne
                exact bind_stable (ih.items hfuel (by omega)) (fun _ _ => rfl) hne
            · rfl
        · rfl

/-- The scanners are stable at every fuel. -/
theorem scanners_stable (h : Hooks ε V) (fuel : ℕ) : ScannersStable h fuel := by
  induction fuel with
  | zero =>
    refine ⟨fun {depth s fuel' depth'} _ _ hne => ?_, fun _ _ hne => ?_, fun _ _ hne => ?_⟩
    · cases s with
      | nil => cases fuel' <;> rfl
      | cons c s => exact absurd rfl hne
    · exact absurd rfl hne
    · exact absurd rfl hne
  | succ fuel ih =>
    refine ⟨fun {depth s fuel' depth'} hfuel hdepth hne => ?_,
      fun {depth s fuel' depth'} hfuel hdepth hne => ?_,
      fun {depth s fuel' depth'} hfuel hdepth hne => ?_⟩
    all_goals
      obtain ⟨n, rfl⟩ := Nat.exists_eq_add_of_le' (Nat.lt_of_lt_of_le fuel.succ_pos hfuel)
    · exact ih.once_succ (by omega) hdepth hne
    · exact ih.items_succ (by omega) hdepth hne
    · exact ih.members_succ (by omega) hdepth hne

/-- A value at the front of a text is decoded to what the hooks build for its tree, where
the decoder does not run into the recursion limit. -/
theorem rawDecode_value {limit : ℕ} {t rest : Str} {x : Tree} (ht : Value t x)
    (hrest : Stops rest) (hne : rawDecode h limit (t ++ rest) ≠ .error .recursion) :
    rawDecode h limit (t ++ rest) = resultWith (x.fold h) rest := by
  have hscan := ht.scanOnce_eq h (2 * (t ++ rest).length) (max limit x.depth) rest
    (by simp only [List.length_append]; omega) (le_max_right _ _) hrest
  rw [← hscan]
  exact ((scanners_stable h _).once le_rfl (le_max_left _ _) hne).symm

end Json
