import MarketIntelligence.Python.RoundTrip

/-!
# Values that are the same up to the order of members

Two values are the same if they differ in the order of dictionary members only, at any
depth; an integer, a float and a Boolean are never the same, whatever `==` says of them.
Printing with sorted keys gives the same text exactly for the same values, provided that
they could have been decoded: their keys are distinct and their strings have no split
surrogate pair.
-/

namespace Python

open Json

variable {F : Type}

mutual

/-- Two values are the same up to the order of members. -/
inductive SameValue : Data F → Data F → Prop
  | none : SameValue .none .none
  | bool (b : Bool) : SameValue (.bool b) (.bool b)
  | int (n : ℤ) : SameValue (.int n) (.int n)
  | float (f : F) : SameValue (.float f) (.float f)
  | str (s : Str) : SameValue (.str s) (.str s)
  | list {xs ys : List (Data F)} : SameItems xs ys → SameValue (.list xs) (.list ys)
  | dict {ms ns : List (Str × Data F)} : SameMembers ms ns → SameValue (.dict ms) (.dict ns)

/-- Two lists have the same items in the same order. -/
inductive SameItems : List (Data F) → List (Data F) → Prop
  | nil : SameItems [] []
  | cons {x y : Data F} {xs ys : List (Data F)} : SameValue x y → SameItems xs ys →
      SameItems (x :: xs) (y :: ys)

/-- Two dictionaries have the same members in any order. -/
inductive SameMembers : List (Str × Data F) → List (Str × Data F) → Prop
  | nil : SameMembers [] []
  | cons {key : Str} {x y : Data F} {ms ns₁ ns₂ : List (Str × Data F)} : SameValue x y →
      SameMembers ms (ns₁ ++ ns₂) → SameMembers ((key, x) :: ms) (ns₁ ++ (key, y) :: ns₂)

end

mutual

/-- The keys of all dictionaries are distinct, and no string has a split surrogate pair. -/
def Data.WellFormed : Data F → Prop
  | .str s => NoSplitPair s
  | .list xs => wellFormedItems xs
  | .dict ms => (ms.map Prod.fst).Nodup ∧ wellFormedMembers ms
  | _ => True

/-- The items of a list are well formed. -/
def wellFormedItems : List (Data F) → Prop
  | [] => True
  | x :: xs => x.WellFormed ∧ wellFormedItems xs

/-- The keys and the values of a dictionary are well formed. -/
def wellFormedMembers : List (Str × Data F) → Prop
  | [] => True
  | (k, x) :: ms => (NoSplitPair k ∧ x.WellFormed) ∧ wellFormedMembers ms

end

/-- Every member of a dictionary is well formed. -/
theorem wellFormedMembers_iff {ms : List (Str × Data F)} :
    wellFormedMembers ms ↔ ∀ m ∈ ms, NoSplitPair m.1 ∧ m.2.WellFormed := by
  induction ms with
  | nil => simp [wellFormedMembers]
  | cons m ms ih => simp [wellFormedMembers, ih]

/-- The members of a well-formed dictionary. -/
theorem wellFormed_dict {ms : List (Str × Data F)} : (Data.dict ms).WellFormed ↔
    (ms.map Prod.fst).Nodup ∧ ∀ m ∈ ms, NoSplitPair m.1 ∧ m.2.WellFormed := by
  rw [Data.WellFormed, wellFormedMembers_iff]

/-! ### Same members -/

/-- Members have the same keys. -/
theorem SameMembers.keys {ms ns : List (Str × Data F)} (h : SameMembers ms ns) :
    (ms.map Prod.fst).Perm (ns.map Prod.fst) := by
  induction ms generalizing ns with
  | nil =>
    cases h
    exact .nil
  | cons m ms ih =>
    cases h with
    | cons _ hrest =>
      have hkeys := ih hrest
      rw [List.map_append] at hkeys
      simp only [List.map_cons, List.map_append]
      exact (hkeys.cons _).trans List.perm_middle.symm

/-- Every member has its counterpart. -/
theorem SameMembers.exists_mem {ms ns : List (Str × Data F)} (h : SameMembers ms ns) :
    ∀ m ∈ ms, ∃ y, (m.1, y) ∈ ns ∧ SameValue m.2 y := by
  induction ms generalizing ns with
  | nil => simp
  | cons m ms ih =>
    cases h with
    | cons hsame hrest =>
      refine List.forall_mem_cons.mpr ⟨⟨_, by simp, hsame⟩, fun n hn => ?_⟩
      obtain ⟨y, hy, hny⟩ := ih hrest n hn
      have hmem : (n.1, y) ∈ _ := hy
      obtain hfirst | hlast := List.mem_append.mp hmem
      · exact ⟨y, by simp [hfirst], hny⟩
      · exact ⟨y, by simp [hlast], hny⟩

/-- What is found in a dictionary is one of its members. -/
theorem mem_of_get {ms : List (Str × Data F)} {key : Str} {x : Data F} (h : get ms key = x)
    (hx : x ≠ .none) : (key, x) ∈ ms := by
  induction ms with
  | nil => exact absurd h.symm hx
  | cons m ms ih =>
    rw [show m = (m.1, m.2) from rfl, get_cons] at h
    by_cases hkey : m.1 = key
    · rw [if_pos hkey] at h
      obtain rfl := hkey
      obtain rfl := h
      exact List.mem_cons_self
    · rw [if_neg hkey] at h
      exact List.mem_cons_of_mem _ (ih h)

/-- Same dictionaries have the same texts under their keys. -/
theorem SameMembers.get_str {ms ns : List (Str × Data F)} (h : SameMembers ms ns)
    (hms : (ms.map Prod.fst).Nodup) {key s : Str} (hget : get ms key = .str s) :
    get ns key = .str s := by
  obtain ⟨y, hy, hsame⟩ := h.exists_mem _ (mem_of_get hget (by simp))
  cases hsame
  exact get_eq_of_mem (h.keys.nodup_iff.mp hms) hy

/-- Dictionaries of one size are the same if every member of the first is found in the
second. -/
theorem sameMembers_of_forall {ms ns : List (Str × Data F)} (hms : (ms.map Prod.fst).Nodup)
    (hlength : ms.length = ns.length)
    (h : ∀ m ∈ ms, ∃ y, (m.1, y) ∈ ns ∧ SameValue m.2 y) : SameMembers ms ns := by
  induction ms generalizing ns with
  | nil =>
    obtain rfl : ns = [] := List.length_eq_zero_iff.mp hlength.symm
    exact .nil
  | cons m ms ih =>
    obtain ⟨hfirst, hrest⟩ := List.forall_mem_cons.mp h
    obtain ⟨y, hy, hsame⟩ := hfirst
    obtain ⟨ns₁, ns₂, rfl⟩ := List.append_of_mem hy
    obtain ⟨hnew, hnodup⟩ := List.nodup_cons.mp hms
    refine .cons hsame (ih hnodup ?_ fun n hn => ?_)
    · simp only [List.length_cons, List.length_append] at hlength ⊢
      omega
    · obtain ⟨z, hz, hsame⟩ := hrest n hn
      have hother : n.1 ≠ m.1 := fun heq => hnew (heq ▸ List.mem_map_of_mem hn)
      exact ⟨z, by simpa [hother] using hz, hsame⟩

/-- Sorting makes members with distinct keys forget their order. -/
theorem sortMembers_eq_of_perm {α : Type} {ms ns : List (Str × α)} (h : ms.Perm ns)
    (hkeys : (ms.map Prod.fst).Nodup) : sortMembers ms = sortMembers ns := by
  have hperm : (sortMembers ms).Perm (sortMembers ns) :=
    (sortMembers_perm ms).trans (h.trans (sortMembers_perm ns).symm)
  refine hperm.eq_of_pairwise (fun m n hm hn hle hge => ?_) (sortMembers_pairwise ms)
    (sortMembers_pairwise ns)
  have hm' : m ∈ ms := (sortMembers_perm ms).mem_iff.mp hm
  have hn' : n ∈ ms := h.mem_iff.mpr ((sortMembers_perm ns).mem_iff.mp hn)
  exact List.inj_on_of_nodup_map hkeys hm' hn' (le_antisymm hle hge)

mutual

/-- Every value is the same as itself. -/
theorem sameValue_refl : ∀ x : Data F, SameValue x x
  | .none => .none
  | .bool b => .bool b
  | .int n => .int n
  | .float f => .float f
  | .str s => .str s
  | .list xs => .list (sameItems_refl xs)
  | .dict ms => .dict (sameMembers_refl ms)

/-- Every list has the same items as itself. -/
theorem sameItems_refl : ∀ xs : List (Data F), SameItems xs xs
  | [] => .nil
  | x :: xs => .cons (sameValue_refl x) (sameItems_refl xs)

/-- Every dictionary has the same members as itself. -/
theorem sameMembers_refl : ∀ ms : List (Str × Data F), SameMembers ms ms
  | [] => .nil
  | (_, x) :: ms =>
    have hrest : SameMembers ms ([] ++ ms) := sameMembers_refl ms
    .cons (sameValue_refl x) hrest

end

/-- Permuted dictionaries have the same members. -/
theorem sameMembers_of_perm {ms ns : List (Str × Data F)} (h : ms.Perm ns)
    (hms : (ms.map Prod.fst).Nodup) : SameMembers ms ns :=
  sameMembers_of_forall hms h.length_eq fun m hm =>
    ⟨m.2, h.mem_iff.mp hm, sameValue_refl m.2⟩

/-! ### Comparing values without floats -/

mutual

/-- Whether two values without floats are written alike. -/
def alike : Data F → Data F → Bool
  | .none, .none => true
  | .bool a, .bool b => a = b
  | .int m, .int n => m = n
  | .str s, .str t => s = t
  | .list xs, .list ys => alikeItems xs ys
  | .dict ms, .dict ns => alikeMembers ms ns
  | _, _ => false

/-- Whether two lists are written alike. -/
def alikeItems : List (Data F) → List (Data F) → Bool
  | [], [] => true
  | x :: xs, y :: ys => alike x y && alikeItems xs ys
  | _, _ => false

/-- Whether two dictionaries are written alike. -/
def alikeMembers : List (Str × Data F) → List (Str × Data F) → Bool
  | [], [] => true
  | (j, x) :: ms, (k, y) :: ns => j = k && (alike x y && alikeMembers ms ns)
  | _, _ => false

end

mutual

/-- Values that are written alike are equal. -/
theorem eq_of_alike : ∀ {x y : Data F}, alike x y = true → x = y
  | .none, .none, _ => rfl
  | .bool a, .bool b, h => by rw [of_decide_eq_true h]
  | .int m, .int n, h => by rw [of_decide_eq_true h]
  | .str s, .str t, h => by rw [of_decide_eq_true h]
  | .list xs, .list ys, h => by rw [eq_of_alikeItems h]
  | .dict ms, .dict ns, h => by rw [eq_of_alikeMembers h]

/-- The same for lists. -/
theorem eq_of_alikeItems : ∀ {xs ys : List (Data F)}, alikeItems xs ys = true → xs = ys
  | [], [], _ => rfl
  | x :: xs, y :: ys, h => by
    obtain ⟨hx, hxs⟩ := Bool.and_eq_true_iff.mp h
    rw [eq_of_alike hx, eq_of_alikeItems hxs]

/-- The same for dictionaries. -/
theorem eq_of_alikeMembers : ∀ {ms ns : List (Str × Data F)},
    alikeMembers ms ns = true → ms = ns
  | [], [], _ => rfl
  | (j, x) :: ms, (k, y) :: ns, h => by
    obtain ⟨hk, h⟩ := Bool.and_eq_true_iff.mp h
    obtain ⟨hx, hms⟩ := Bool.and_eq_true_iff.mp h
    rw [of_decide_eq_true hk, eq_of_alike hx, eq_of_alikeMembers hms]

end

/-! ### Same values meet the same limits -/

/-- Walking through a list meets no limit if no item does. -/
theorem fitsItems_iff {limits : Limits} {level : ℕ} {xs : List (Data F)} :
    Data.fitsItems limits level xs = .ok () ↔ ∀ x ∈ xs, x.fits limits level = .ok () := by
  induction xs with
  | nil => simp [Data.fitsItems]
  | cons x xs ih => simp [Data.fitsItems, bind_eq_ok, ih, Unique.exists_iff]

/-- Walking through a dictionary meets no limit if no value does. -/
theorem fitsMembers_iff {limits : Limits} {level : ℕ} {ms : List (Str × Data F)} :
    Data.fitsMembers limits level ms = .ok () ↔ ∀ m ∈ ms, m.2.fits limits level = .ok () := by
  induction ms with
  | nil => simp [Data.fitsMembers]
  | cons m ms ih => simp [Data.fitsMembers, bind_eq_ok, ih, Unique.exists_iff]

mutual

/-- Same values meet the same limits. -/
theorem fits_same (limits : Limits) : ∀ {x y : Data F} (level : ℕ), SameValue x y →
    x.fits limits level = .ok () → y.fits limits level = .ok ()
  | _, _, _, .none, h => h
  | _, _, _, .bool _, h => h
  | _, _, _, .int _, h => h
  | _, _, _, .float _, h => h
  | _, _, _, .str _, h => h
  | _, _, 0, .list _, h => by simp [Data.fits] at h
  | _, _, level + 1, .list hsame, h => by
    rw [Data.fits] at h ⊢
    exact fitsItems_iff.mpr (fitsItems_same limits level hsame (fitsItems_iff.mp h))
  | _, _, 0, .dict _, h => by simp [Data.fits] at h
  | _, _, level + 1, .dict hsame, h => by
    rw [Data.fits] at h ⊢
    exact fitsMembers_iff.mpr (fitsMembers_same limits level hsame (fitsMembers_iff.mp h))

/-- The same for the items of a list. -/
theorem fitsItems_same (limits : Limits) (level : ℕ) : ∀ {xs ys : List (Data F)},
    SameItems xs ys → (∀ x ∈ xs, x.fits limits level = .ok ()) →
      ∀ y ∈ ys, y.fits limits level = .ok ()
  | _, _, .nil, _ => by simp
  | _, _, .cons hx hxs, hall => by
    obtain ⟨hfirst, hrest⟩ := List.forall_mem_cons.mp hall
    exact List.forall_mem_cons.mpr
      ⟨fits_same limits level hx hfirst, fitsItems_same limits level hxs hrest⟩

/-- The same for the values of a dictionary. -/
theorem fitsMembers_same (limits : Limits) (level : ℕ) : ∀ {ms ns : List (Str × Data F)},
    SameMembers ms ns → (∀ m ∈ ms, m.2.fits limits level = .ok ()) →
      ∀ n ∈ ns, n.2.fits limits level = .ok ()
  | _, _, .nil, _ => by simp
  | _, _, .cons hx hms, hall => by
    obtain ⟨hfirst, hrest⟩ := List.forall_mem_cons.mp hall
    have hothers := fitsMembers_same limits level hms hrest
    simp only [List.mem_append, List.mem_cons] at hothers ⊢
    rintro n (hn | rfl | hn)
    · exact hothers n (.inl hn)
    · exact fits_same limits level hx hfirst
    · exact hothers n (.inr hn)

end

/-! ### Same values are printed alike -/

variable [PyFloat F]

mutual

/-- Same values are printed to the same text. -/
theorem encode_same (l : Layout) : ∀ {x y : Data F} (level : ℕ), SameValue x y → x.WellFormed →
    encode l level x = encode l level y
  | _, _, _, .none, _ => rfl
  | _, _, _, .bool _, _ => rfl
  | _, _, _, .int _, _ => rfl
  | _, _, _, .float _, _ => rfl
  | _, _, _, .str _, _ => rfl
  | .list xs, .list ys, level, .list h, hx => by
    have hitems := encodeItems_same l (level + 1) h hx
    have hempty : xs.isEmpty = ys.isEmpty := by cases h <;> rfl
    rw [encode, encode, hitems, hempty]
  | .dict ms, .dict ns, level, .dict h, hx => by
    obtain ⟨hkeys, hmembers⟩ := hx
    have hprinted := encodeMembers_same l (level + 1) h hmembers
    have hnames : (encodeMembers l (level + 1) ms).map Prod.fst = ms.map Prod.fst := by
      simp [encodeMembers_eq, Function.comp_def]
    have hempty : ms.isEmpty = ns.isEmpty := by simpa using h.keys.isEmpty_eq
    exact encode_dict_congr hempty (sortMembers_eq_of_perm hprinted (hnames ▸ hkeys))

/-- The same for the items of a list. -/
theorem encodeItems_same (l : Layout) (level : ℕ) : ∀ {xs ys : List (Data F)},
    SameItems xs ys → wellFormedItems xs → encodeItems l level xs = encodeItems l level ys
  | _, _, .nil, _ => rfl
  | _, _, .cons hx hxs, hall => by
    rw [encodeItems, encodeItems, encode_same l level hx hall.1,
      encodeItems_same l level hxs hall.2]

/-- Same members are printed alike, up to their order. -/
theorem encodeMembers_same (l : Layout) (level : ℕ) : ∀ {ms ns : List (Str × Data F)},
    SameMembers ms ns → wellFormedMembers ms →
      (encodeMembers l level ms).Perm (encodeMembers l level ns)
  | _, _, .nil, _ => .nil
  | _, _, .cons hx hms, hall => by
    have hrest := encodeMembers_same l level hms hall.2
    rw [encodeMembers, encode_same l level hx hall.1.2]
    simp only [encodeMembers_eq, List.map_append, List.map_cons] at hrest ⊢
    exact (hrest.cons _).trans List.perm_middle.symm

end

/-! ### Values that are printed alike are the same -/

/-- A printed float is a float or a constant, and is read back. -/
theorem printedTree_float_inj {l : Layout} {f g : F}
    (h : printedTree l (.float f) = printedTree l (.float g)) : f = g := by
  have hrepr : PyFloat.repr f = PyFloat.repr g := by
    simp only [printedTree] at h
    split at h
    · split at h
      · exact Tree.constant.inj h
      · cases h
    · split at h
      · cases h
      · exact Tree.float.inj h
  rw [← PyFloat.ofText_repr f, hrepr, PyFloat.ofText_repr]

/-- Only floats are printed as floats and as constants. -/
theorem printedTree_ne_float {l : Layout} {f : F} {x : Data F} (hx : ∀ g, x ≠ .float g) :
    printedTree l (.float f) ≠ printedTree l x := by
  intro h
  rw [printedTree] at h
  cases x with
  | float g => exact hx g rfl
  | _ =>
    split at h
    · simp [printedTree] at h
    · simp [printedTree] at h

/-- Values with the tree of a dictionary are dictionaries whose members have the same
trees. -/
theorem members_of_printedTree {l : Layout} {ms ns : List (Str × Data F)}
    (hms : (Data.dict ms).WellFormed) (hns : (Data.dict ns).WellFormed)
    (h : printedTree l (.dict ms) = printedTree l (.dict ns)) :
    ms.length = ns.length ∧
      ∀ m ∈ ms, ∃ y, (m.1, y) ∈ ns ∧ printedTree l m.2 = printedTree l y := by
  obtain ⟨-, hms⟩ := wellFormed_dict.mp hms
  obtain ⟨-, hns⟩ := wellFormed_dict.mp hns
  have hsorted (ms : List (Str × Data F)) (hms : ∀ m ∈ ms, NoSplitPair m.1 ∧ m.2.WellFormed) :
      ((sortMembers ms).map fun m => (reread l.ensureAscii m.1, printedTree l m.2)) =
        (sortMembers ms).map fun m => (m.1, printedTree l m.2) :=
    List.map_congr_left fun m hm => by
      rw [reread_of_noSplitPair (hms m ((sortMembers_perm ms).mem_iff.mp hm)).1]
  rw [printedTree_dict, printedTree_dict, hsorted ms hms, hsorted ns hns] at h
  have htrees := Tree.object.inj h
  constructor
  · have hlength := congrArg List.length htrees
    simpa [(sortMembers_perm ms).length_eq, (sortMembers_perm ns).length_eq] using hlength
  · intro m hm
    have hmem : (m.1, printedTree l m.2) ∈ (sortMembers ns).map fun m => (m.1, printedTree l m.2) :=
      htrees ▸ List.mem_map_of_mem ((sortMembers_perm ms).mem_iff.mpr hm)
    obtain ⟨n, hn, heq⟩ := List.mem_map.mp hmem
    obtain ⟨hkey, htree⟩ := Prod.mk.inj heq
    exact ⟨n.2, hkey ▸ (sortMembers_perm ns).mem_iff.mp hn, htree.symm⟩

mutual

/-- Values with the same tree are the same. -/
theorem same_of_printedTree (l : Layout) : ∀ {x y : Data F}, x.WellFormed → y.WellFormed →
    printedTree l x = printedTree l y → SameValue x y
  | .none, y, _, _, h => by
    cases y with
    | none => exact .none
    | float g => exact absurd h.symm (printedTree_ne_float (by simp))
    | _ => simp [printedTree] at h
  | .bool b, y, _, _, h => by
    cases y with
    | bool c =>
      obtain rfl := Tree.bool.inj h
      exact .bool b
    | float g => exact absurd h.symm (printedTree_ne_float (by simp))
    | _ => simp [printedTree] at h
  | .int n, y, _, _, h => by
    cases y with
    | int m =>
      have hdigits : intDigits n = intDigits m := Tree.int.inj h
      obtain rfl : n = m := by rw [← intOfText_intDigits n, hdigits, intOfText_intDigits]
      exact .int n
    | float g => exact absurd h.symm (printedTree_ne_float (by simp))
    | _ => simp [printedTree] at h
  | .float f, y, _, _, h => by
    by_cases hy : ∃ g, y = .float g
    · obtain ⟨g, rfl⟩ := hy
      obtain rfl := printedTree_float_inj h
      exact .float f
    · exact absurd h (printedTree_ne_float fun g hg => hy ⟨g, hg⟩)
  | .str s, y, hx, hy, h => by
    cases y with
    | str t =>
      have hreread : reread l.ensureAscii s = reread l.ensureAscii t := Tree.string.inj h
      have hs : reread l.ensureAscii s = s := reread_of_noSplitPair hx
      have ht : reread l.ensureAscii t = t := reread_of_noSplitPair hy
      obtain rfl : s = t := by rw [← hs, hreread, ht]
      exact .str s
    | float g => exact absurd h.symm (printedTree_ne_float (by simp))
    | _ => simp [printedTree] at h
  | .list xs, y, hx, hy, h => by
    cases y with
    | list ys => exact .list (same_of_printedItems l hx hy (Tree.array.inj h))
    | float g => exact absurd h.symm (printedTree_ne_float (by simp))
    | _ => simp [printedTree] at h
  | .dict ms, y, hx, hy, h => by
    cases y with
    | dict ns =>
      obtain ⟨hlength, hmembers⟩ := members_of_printedTree hx hy h
      obtain ⟨hkeys, hms⟩ := wellFormed_dict.mp hx
      obtain ⟨-, hns⟩ := wellFormed_dict.mp hy
      refine .dict (sameMembers_of_forall hkeys hlength fun m hm => ?_)
      obtain ⟨y, hy, htree⟩ := hmembers m hm
      exact ⟨y, hy, same_of_printedMembers l m hm (hms m hm).2 (hns _ hy).2 htree⟩
    | float g => exact absurd h.symm (printedTree_ne_float (by simp))
    | _ => simp [printedTree] at h

/-- The same for the items of a list. -/
theorem same_of_printedItems (l : Layout) : ∀ {xs ys : List (Data F)}, wellFormedItems xs →
    wellFormedItems ys → printedItems l xs = printedItems l ys → SameItems xs ys
  | [], [], _, _, _ => .nil
  | [], _ :: _, _, _, h => by simp [printedItems] at h
  | _ :: _, [], _, _, h => by simp [printedItems] at h
  | x :: xs, y :: ys, hx, hy, h => by
    obtain ⟨hfirst, hrest⟩ := List.cons.inj h
    exact .cons (same_of_printedTree l hx.1 hy.1 hfirst) (same_of_printedItems l hx.2 hy.2 hrest)

/-- The same for the values of a dictionary. -/
theorem same_of_printedMembers (l : Layout) : ∀ {ms : List (Str × Data F)}, ∀ m ∈ ms,
    ∀ {y : Data F}, m.2.WellFormed → y.WellFormed → printedTree l m.2 = printedTree l y →
      SameValue m.2 y
  | [], _, hm, _, _, _, _ => by simp at hm
  | (_, x) :: ms, m, hm, y, hx, hy, h => by
    obtain rfl | hrest := List.mem_cons.mp hm
    · exact same_of_printedTree l hx hy h
    · exact same_of_printedMembers l m hrest hx hy h

end

/-- Well-formed values are printed to the same text exactly if they are the same. -/
theorem encode_eq_iff (l : Layout) {x y : Data F} (hx : x.WellFormed) (hy : y.WellFormed) :
    encode l 0 x = encode l 0 y ↔ SameValue x y := by
  constructor
  · intro h
    refine same_of_printedTree l hx hy (text_unique (text_encode l 0 x) ?_)
    rw [h]
    exact text_encode l 0 y
  · exact fun h => encode_same l 0 h hx

end Python

namespace Json

open Python

/-! ### Strings of texts without surrogates -/

/-- Short escapes stand for ASCII characters. -/
theorem lt_of_simpleEscape {e c : Chr} (h : simpleEscape e = some c) : c.ord < 0x80 := by
  unfold simpleEscape at h
  split_ifs at h <;> obtain rfl := Option.some.inj h <;> decide

/-- Only a `\u` escape writes a surrogate in a text without surrogates. -/
theorem StringBody.noSplitPair {t : Str} {ps : List Piece} (h : StringBody t ps)
    (ht : t.Encodable) : NoSplitPair (joinPieces ps) := by
  refine noSplitPair_joinPieces ?_
  induction h with
  | nil => simp
  | plain _ _ _ _ ih =>
    obtain ⟨hc, hrest⟩ := encodable_cons.mp ht
    intro d hd
    obtain heq | hd := List.mem_cons.mp hd
    · obtain rfl := Piece.char.inj heq
      exact hc
    · exact ih hrest d hd
  | escape hesc _ ih =>
    obtain ⟨-, ht⟩ := encodable_cons.mp ht
    intro d hd
    obtain heq | hd := List.mem_cons.mp hd
    · obtain rfl := Piece.char.inj heq
      exact isSurrogate_of_lt (lt_of_simpleEscape hesc)
    · exact ih (encodable_cons.mp ht).2 d hd
  | unicode _ _ ih =>
    simp only [encodable_cons] at ht
    intro d hd
    obtain heq | hd := List.mem_cons.mp hd
    · cases heq
    · exact ih ht.2.2.2.2.2.2 d hd

/-- A member name of such a text. -/
theorem Name.noSplitPair {t k : Str} (h : Name t k) (ht : t.Encodable) : NoSplitPair k := by
  obtain ⟨_, hbody, _, _⟩ := h
  simp only [encodable_append, encodable_cons] at ht
  exact hbody.noSplitPair ht.2.2.1

mutual

/-- The strings of a value of such a text. -/
theorem Value.noSplitPair {t : Str} {x : Tree} :
    Value t x → t.Encodable → x.AllStrings NoSplitPair
  | .nullToken, _ | .trueToken, _ | .falseToken, _ => trivial
  | .int _, _ | .float _, _ | .constant _, _ => trivial
  | .string h, ht => by
    simp only [encodable_append, encodable_cons] at ht
    exact h.noSplitPair ht.2.1
  | .emptyArray _, _ | .emptyObject _, _ => trivial
  | .array h, ht => by
    simp only [encodable_append, encodable_cons] at ht
    exact Items.noSplitPair h ht.2.1
  | .object h, ht => by
    simp only [encodable_append, encodable_cons] at ht
    exact Members.noSplitPair h ht.2.1

/-- The strings of the items of an array. -/
theorem Items.noSplitPair {t : Str} {xs : List Tree} :
    Items t xs → t.Encodable → allStringsItems NoSplitPair xs
  | .one _ h _, ht => by
    simp only [encodable_append] at ht
    exact ⟨Value.noSplitPair h ht.2.1, trivial⟩
  | .cons _ h _ hrest, ht => by
    simp only [encodable_append, encodable_cons] at ht
    exact ⟨Value.noSplitPair h ht.2.1, Items.noSplitPair hrest ht.2.2.2.2⟩

/-- The names and the strings of the members of an object. -/
theorem Members.noSplitPair {t : Str} {ms : List (Str × Tree)} :
    Members t ms → t.Encodable → allStringsMembers NoSplitPair ms
  | .one hk h _, ht => by
    simp only [encodable_append] at ht
    exact ⟨hk.noSplitPair ht.1, Value.noSplitPair h ht.2.1, trivial⟩
  | .cons hk h _ hrest, ht => by
    simp only [encodable_append, encodable_cons] at ht
    exact ⟨hk.noSplitPair ht.1, Value.noSplitPair h ht.2.1, Members.noSplitPair hrest ht.2.2.2.2⟩

end

end Json

namespace Python

open Json

variable {F : Type} [PyFloat F]

/-! ### Decoded values are well formed -/

mutual

/-- What is built for a tree without split pairs is well formed. -/
theorem fold_wellFormed (limits : Limits) : ∀ {x : Tree} {v : Data F},
    x.AllStrings NoSplitPair → x.fold (dataHooks limits) = .ok v → v.WellFormed
  | .null, _, _, h | .bool _, _, _, h | .float _, _, _, h | .constant _, _, _, h => by
    obtain rfl := Except.ok.inj h
    trivial
  | .int t, v, _, h => by
    rw [Tree.fold] at h
    unfold dataHooks at h
    dsimp only at h
    split at h
    · cases h
    · obtain rfl := Except.ok.inj h
      trivial
  | .string s, _, hs, h => by
    obtain rfl := Except.ok.inj h
    exact hs
  | .array xs, _, hs, h => by
    obtain ⟨vs, hvs, h⟩ := bind_eq_ok.mp h
    obtain rfl := Except.ok.inj h
    exact foldItems_wellFormed limits hs hvs
  | .object ms, _, hs, h => by
    obtain ⟨vs, hvs, h⟩ := bind_eq_ok.mp h
    obtain rfl := Except.ok.inj h
    have hall := wellFormedMembers_iff.mp (foldMembers_wellFormed limits hs hvs)
    exact wellFormed_dict.mpr ⟨dictOfPairs_nodup vs, fun m hm => hall m (mem_dictOfPairs hm)⟩

/-- The same for the items of an array. -/
theorem foldItems_wellFormed (limits : Limits) : ∀ {xs : List Tree} {vs : List (Data F)},
    allStringsItems NoSplitPair xs → foldItems (dataHooks limits) xs = .ok vs →
      wellFormedItems vs
  | [], _, _, h => by
    obtain rfl := Except.ok.inj h
    trivial
  | x :: xs, _, hs, h => by
    obtain ⟨v, hv, h⟩ := bind_eq_ok.mp h
    obtain ⟨vs, hvs, h⟩ := bind_eq_ok.mp h
    obtain rfl := Except.ok.inj h
    exact ⟨fold_wellFormed limits hs.1 hv, foldItems_wellFormed limits hs.2 hvs⟩

/-- The same for the members of an object. -/
theorem foldMembers_wellFormed (limits : Limits) : ∀ {ms : List (Str × Tree)}
    {vs : List (Str × Data F)}, allStringsMembers NoSplitPair ms →
      foldMembers (dataHooks limits) ms = .ok vs → wellFormedMembers vs
  | [], _, _, h => by
    obtain rfl := Except.ok.inj h
    trivial
  | (k, x) :: ms, _, hs, h => by
    obtain ⟨v, hv, h⟩ := bind_eq_ok.mp h
    obtain ⟨vs, hvs, h⟩ := bind_eq_ok.mp h
    obtain rfl := Except.ok.inj h
    exact ⟨⟨hs.1, fold_wellFormed limits hs.2.1 hv⟩, foldMembers_wellFormed limits hs.2.2 hvs⟩

end

/-- A value that the decoder returns at the front of a text without surrogates, such as the
output of a command or the text of a file. -/
def Decoded (limits : Limits) (x : Data F) : Prop :=
  ∃ s rest, Str.Encodable s ∧ rawDecode (dataHooks limits) limits.nesting s = .ok (x, rest)

/-- Decoded values are well formed. -/
theorem Decoded.wellFormed {limits : Limits} {x : Data F} (h : Decoded limits x) :
    x.WellFormed := by
  obtain ⟨s, rest, hs, hdecode⟩ := h
  obtain ⟨t, tree, rfl, htree, hfold, -⟩ := (scanners_sound _ _).once hdecode
  exact fold_wellFormed limits (htree.noSplitPair (encodable_append.mp hs).1) hfold

/-- What `json.loads` returns was decoded. -/
theorem decoded_of_jsonLoads {limits : Limits} {s : Str} {x : Data F} (hs : Str.Encodable s)
    (h : jsonLoads limits s = .ok x) : Decoded limits x := by
  unfold jsonLoads at h
  split at h
  · next value hvalue =>
    obtain rfl := Except.ok.inj h
    unfold loads at hvalue
    split at hvalue
    · cases hvalue
    · obtain ⟨⟨v, rest⟩, hdecode, hend⟩ := bind_eq_ok.mp hvalue
      dsimp only at hend
      split at hend
      · obtain rfl := Except.ok.inj hend
        obtain ⟨w, -, hsplit⟩ := skipWs_split s
        rw [hsplit] at hs
        exact ⟨_, rest, (encodable_append.mp hs).2, hdecode⟩
      · cases hend
  all_goals cases h

end Python
