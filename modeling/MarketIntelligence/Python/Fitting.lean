import MarketIntelligence.Python.SameValue
import Mathlib.Data.Nat.Digits.Lemmas

/-!
# Values that meet no limit

Printing a value and converting it to text walk through it, and meet the limits that
decoding met. What the decoder has returned is within them: it is nested no deeper than
the text, and its integers have no more digits.
-/

namespace Json

open Python

/-- Decimal digits are those of a small number. -/
theorem natOfDigits_lt {t : Str} (h : ∀ c ∈ t, c.isDigit = true) :
    natOfDigits t < 10 ^ t.length := by
  induction t using List.reverseRecOn with
  | nil => simp [natOfDigits]
  | append_singleton t c ih =>
    have hc : c.isDigit = true := h c (by simp)
    have ht := ih fun d hd => h d (by simp [hd])
    simp only [Chr.isDigit, Bool.and_eq_true, decide_eq_true_eq] at hc
    have hstep : natOfDigits (t ++ [c]) = 10 * natOfDigits t + (c.ord - 0x30) := by
      simp [natOfDigits]
    rw [hstep, List.length_append, List.length_singleton, Nat.pow_succ]
    omega

/-- A natural number of the grammar is not printed with more digits. -/
theorem natDigits_length_le {t : Str} (h : Natural t) :
    (natDigits (natOfDigits t)).length ≤ t.length := by
  obtain ⟨hne, hdigits⟩ : t ≠ [] ∧ ∀ c ∈ t, c.isDigit = true := by
    obtain rfl | ⟨h, -⟩ := h
    · exact ⟨by decide, by decide⟩
    · exact h
  have hpos : 0 < t.length := List.length_pos_of_ne_nil hne
  unfold natDigits
  split
  · exact hpos
  · rw [List.length_map, List.length_reverse, Nat.digits_length_le_iff (by decide)]
    exact natOfDigits_lt hdigits

/-- All characters of a natural number are digits. -/
theorem digitCount_natural {t : Str} (h : Natural t) : digitCount t = t.length := by
  have hdigits : ∀ c ∈ t, c.isDigit = true := by
    obtain rfl | ⟨h, -⟩ := h
    · decide
    · exact h.2
  rw [digitCount, List.filter_eq_self.mpr hdigits]

/-- An integer that was read may be written. -/
theorem intFits_intOfText {limits : Limits} {t : Str} (ht : IntText t)
    (h : tooManyDigits limits t = false) : Data.intFits limits (intOfText t) = true := by
  have hlength : (natDigits (intOfText t).natAbs).length ≤ digitCount t := by
    obtain ht | ⟨u, rfl, hu⟩ := ht
    · have hvalue : intOfText t = (natOfDigits t : ℤ) := by
        obtain ⟨c, s, rfl, hc⟩ := intText_head (Or.inl ht)
        have hminus : c ≠ ('-' : Char) := by
          rintro rfl
          obtain heq | ⟨⟨-, hall⟩, -⟩ := ht
          · cases heq
          · have hdigit := hall _ List.mem_cons_self
            revert hdigit
            decide
        rw [intOfText, if_neg hminus]
      rw [hvalue, Int.natAbs_natCast, digitCount_natural ht]
      exact natDigits_length_le ht
    · have hvalue : intOfText (('-' : Chr) :: u) = -(natOfDigits u : ℤ) := by
        rw [intOfText, if_pos rfl]
      have hcount : digitCount (('-' : Chr) :: u) = digitCount u := by
        have hminus : Chr.isDigit ('-' : Char) = false := by decide
        simp [digitCount, hminus]
      rw [hvalue, Int.natAbs_neg, Int.natAbs_natCast, hcount, digitCount_natural hu]
      exact natDigits_length_le hu
  unfold tooManyDigits at h
  unfold Data.intFits
  cases hlimit : limits.intDigits with
  | none => rfl
  | some limit =>
    simp only [hlimit, decide_eq_false_iff_not, Nat.not_lt] at h
    simp only [decide_eq_true_eq]
    omega

end Json

namespace Python

open Json

variable {F : Type} {limits : Limits}

/-! ### Nesting -/

mutual

/-- A value that may be nested may be nested less. -/
theorem fits_succ : ∀ {x : Data F} {level : ℕ}, x.fits limits level = .ok () →
    x.fits limits (level + 1) = .ok ()
  | .none, _, _ | .bool _, _, _ | .float _, _, _ | .str _, _, _ => by simp [Data.fits]
  | .int n, _, h => by
    rw [Data.fits] at h ⊢
    exact h
  | .list xs, 0, h | .dict ms, 0, h => by simp [Data.fits] at h
  | .list xs, level + 1, h => by
    rw [Data.fits] at h ⊢
    exact fitsItems_iff.mpr (fitsItems_succ (fitsItems_iff.mp h))
  | .dict ms, level + 1, h => by
    rw [Data.fits] at h ⊢
    exact fitsMembers_iff.mpr (fitsMembers_succ (fitsMembers_iff.mp h))

/-- The same for the items of a list. -/
theorem fitsItems_succ : ∀ {xs : List (Data F)} {level : ℕ},
    (∀ x ∈ xs, x.fits limits level = .ok ()) → ∀ x ∈ xs, x.fits limits (level + 1) = .ok ()
  | [], _, _ => by simp
  | x :: xs, _, h => by
    obtain ⟨hx, hxs⟩ := List.forall_mem_cons.mp h
    exact List.forall_mem_cons.mpr ⟨fits_succ hx, fitsItems_succ hxs⟩

/-- The same for the values of a dictionary. -/
theorem fitsMembers_succ : ∀ {ms : List (Str × Data F)} {level : ℕ},
    (∀ m ∈ ms, m.2.fits limits level = .ok ()) → ∀ m ∈ ms, m.2.fits limits (level + 1) = .ok ()
  | [], _, _ => by simp
  | (_, x) :: ms, _, h => by
    obtain ⟨hx, hms⟩ := List.forall_mem_cons.mp h
    exact List.forall_mem_cons.mpr ⟨fits_succ hx, fitsMembers_succ hms⟩

end

/-- A value that may be nested may be nested less. -/
theorem fits_mono {x : Data F} {level level' : ℕ} (hle : level ≤ level')
    (h : x.fits limits level = .ok ()) : x.fits limits level' = .ok () := by
  induction hle with
  | refl => exact h
  | step _ ih => exact fits_succ ih

/-- The values of a dictionary are nested one level deeper. -/
theorem fits_dict {ms : List (Str × Data F)} {level : ℕ} :
    (Data.dict ms).fits limits (level + 1) = .ok () ↔
      ∀ m ∈ ms, m.2.fits limits level = .ok () := by
  rw [Data.fits, fitsMembers_iff]

/-- A dictionary is nested at least once. -/
theorem exists_level_of_fits {ms : List (Str × Data F)} {level : ℕ}
    (h : (Data.dict ms).fits limits level = .ok ()) : ∃ n, level = n + 1 := by
  cases level with
  | zero => simp [Data.fits] at h
  | succ n => exact ⟨n, rfl⟩

/-- The items of a list are nested one level deeper. -/
theorem fits_list {xs : List (Data F)} {level : ℕ} :
    (Data.list xs).fits limits (level + 1) = .ok () ↔ ∀ x ∈ xs, x.fits limits level = .ok () := by
  rw [Data.fits, fitsItems_iff]

/-- A string meets no limit. -/
theorem fits_str (limits : Limits) (level : ℕ) (s : Str) :
    (Data.str s : Data F).fits limits level = .ok () := by
  cases level <;> rfl

/-- What is looked up in a dictionary is one of its values. -/
theorem fits_get {ms : List (Str × Data F)} {level : ℕ} (key : Str)
    (h : (Data.dict ms).fits limits (level + 1) = .ok ()) :
    (get ms key).fits limits level = .ok () := by
  by_cases hkey : get ms key = .none
  · rw [hkey]
    cases level <;> rfl
  · exact fits_dict.mp h _ (mem_of_get rfl hkey)

/-! ### Inside containers -/

/-- A dictionary is one more container for its values. -/
theorem fits_dict_inside {ms : List (Str × Data F)} {levels depth : ℕ} (hdepth : depth < levels) :
    (Data.dict ms).fits limits (levels - depth) = .ok () ↔
      ∀ m ∈ ms, m.2.fits limits (levels - (depth + 1)) = .ok () := by
  rw [show levels - depth = levels - (depth + 1) + 1 by omega, fits_dict]

/-- A list is one more container for its items. -/
theorem fits_list_inside {xs : List (Data F)} {levels depth : ℕ} (hdepth : depth < levels) :
    (Data.list xs).fits limits (levels - depth) = .ok () ↔
      ∀ x ∈ xs, x.fits limits (levels - (depth + 1)) = .ok () := by
  rw [show levels - depth = levels - (depth + 1) + 1 by omega, fits_list]

/-- What is looked up in a dictionary is inside it. -/
theorem fits_get_inside {ms : List (Str × Data F)} {levels depth : ℕ} (key : Str)
    (h : (Data.dict ms).fits limits (levels - depth) = .ok ()) :
    (get ms key).fits limits (levels - (depth + 1)) = .ok () := by
  obtain ⟨n, hn⟩ := exists_level_of_fits h
  rw [hn] at h
  rw [show levels - (depth + 1) = n by omega]
  exact fits_get key h

/-! ### Decoded values -/

variable [PyFloat F]

mutual

/-- What is built for a value of the grammar meets no limit. -/
theorem fits_of_value {t : Str} {x : Tree} {level : ℕ} :
    Value t x → ∀ {v : Data F}, x.fold (dataHooks limits) = .ok v → x.depth ≤ level →
      v.fits limits level = .ok ()
  | .nullToken, _, h, _ | .trueToken, _, h, _ | .falseToken, _, h, _ | .float _, _, h, _
  | .constant _, _, h, _ | .string _, _, h, _ => by
    obtain rfl := Except.ok.inj h
    simp [dataHooks, Data.fits]
  | .int ht, v, h, _ => by
    rw [Tree.fold] at h
    unfold dataHooks at h
    dsimp only at h
    split at h
    · cases h
    · next hdigits =>
      obtain rfl := Except.ok.inj h
      rw [Data.fits, if_pos (intFits_intOfText ht (by simpa using hdigits))]
  | .emptyArray _, _, h, hdepth => by
    obtain rfl := Except.ok.inj h
    obtain ⟨n, rfl⟩ : ∃ n, level = n + 1 := ⟨level - 1, by rw [Tree.depth] at hdepth; omega⟩
    rfl
  | .array hitems, _, h, hdepth => by
    obtain ⟨vs, hvs, h⟩ := bind_eq_ok.mp h
    obtain rfl := Except.ok.inj h
    rw [Tree.depth] at hdepth
    obtain ⟨n, rfl⟩ : ∃ n, level = n + 1 := ⟨level - 1, by omega⟩
    simp only [dataHooks, Data.fits]
    exact fitsItems_iff.mpr (fits_of_items hitems hvs (by omega))
  | .emptyObject _, _, h, hdepth => by
    obtain rfl := Except.ok.inj h
    obtain ⟨n, rfl⟩ : ∃ n, level = n + 1 := ⟨level - 1, by rw [Tree.depth] at hdepth; omega⟩
    rfl
  | .object hmembers, _, h, hdepth => by
    obtain ⟨vs, hvs, h⟩ := bind_eq_ok.mp h
    obtain rfl := Except.ok.inj h
    rw [Tree.depth] at hdepth
    obtain ⟨n, rfl⟩ : ∃ n, level = n + 1 := ⟨level - 1, by omega⟩
    have hall := fits_of_members hmembers hvs (by omega : depthMembers _ ≤ n)
    exact fits_dict.mpr fun m hm => hall m (mem_dictOfPairs hm)

/-- The same for the items of an array. -/
theorem fits_of_items {t : Str} {xs : List Tree} {level : ℕ} :
    Items t xs → ∀ {vs : List (Data F)}, foldItems (dataHooks limits) xs = .ok vs →
      depthItems xs ≤ level → ∀ v ∈ vs, v.fits limits level = .ok ()
  | .one _ hx _, _, h, hdepth => by
    obtain ⟨v, hv, h⟩ := bind_eq_ok.mp h
    obtain rfl := Except.ok.inj h
    simp only [depthItems] at hdepth
    have hfits := fits_of_value hx hv (by omega : _ ≤ level)
    simpa using hfits
  | .cons _ hx _ hrest, _, h, hdepth => by
    obtain ⟨v, hv, h⟩ := bind_eq_ok.mp h
    obtain ⟨vs, hvs, h⟩ := bind_eq_ok.mp h
    obtain rfl := Except.ok.inj h
    rw [depthItems] at hdepth
    exact List.forall_mem_cons.mpr
      ⟨fits_of_value hx hv (by omega), fits_of_items hrest hvs (by omega)⟩

/-- The same for the members of an object. -/
theorem fits_of_members {t : Str} {ms : List (Str × Tree)} {level : ℕ} :
    Members t ms → ∀ {vs : List (Str × Data F)}, foldMembers (dataHooks limits) ms = .ok vs →
      depthMembers ms ≤ level → ∀ m ∈ vs, m.2.fits limits level = .ok ()
  | .one _ hx _, _, h, hdepth => by
    obtain ⟨v, hv, h⟩ := bind_eq_ok.mp h
    obtain rfl := Except.ok.inj h
    simp only [depthMembers] at hdepth
    have hfits := fits_of_value hx hv (by omega : _ ≤ level)
    simpa using hfits
  | .cons _ hx _ hrest, _, h, hdepth => by
    obtain ⟨v, hv, h⟩ := bind_eq_ok.mp h
    obtain ⟨vs, hvs, h⟩ := bind_eq_ok.mp h
    obtain rfl := Except.ok.inj h
    rw [depthMembers] at hdepth
    exact List.forall_mem_cons.mpr
      ⟨fits_of_value hx hv (by omega), fits_of_members hrest hvs (by omega)⟩

end

/-- What is read back of a printed value is nested no deeper. -/
theorem fits_reloaded {x : Data F} {level : ℕ} (h : x.fits limits level = .ok ()) :
    (x.reloaded true).fits limits level = .ok () := by
  obtain ⟨hdepth, hfold⟩ := fold_printedTree limits (Layout.compact true) x level h
  exact fits_of_value (value_encode (Layout.compact true) 0 x) hfold hdepth

/-- What the decoder has returned meets no limit. -/
theorem fits_of_rawDecode {s rest : Str} {x : Data F}
    (h : rawDecode (dataHooks limits) limits.nesting s = .ok (x, rest)) :
    x.fits limits limits.nesting = .ok () := by
  obtain ⟨t, tree, -, htree, hfold, hdepth⟩ := (scanners_sound _ _).once h
  exact fits_of_value htree hfold hdepth

end Python
