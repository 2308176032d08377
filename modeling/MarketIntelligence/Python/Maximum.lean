import MarketIntelligence.Python.Exceptions
import Mathlib.Data.List.Perm.Basic
import Mathlib.Order.Lattice

/-!
# The maximum of a list

`max` keeps the largest element so far and replaces it by an element that is greater.
The comparison may raise and need not be transitive, so that the result may depend on
the order. The elements that some order yields are those at the end of a rising chain
that leaves no other element without a member of the chain that it does not exceed.
-/

namespace Python

variable {α : Type} {gt : α → α → Except BuiltinError Bool}

/-- The maximum of some elements, from the largest one so far. -/
def maximumFrom (gt : α → α → Except BuiltinError Bool) (largest : α) :
    List α → Except BuiltinError α
  | [] => .ok largest
  | x :: xs => do if ← gt x largest then maximumFrom gt x xs else maximumFrom gt largest xs

/-- `max`. -/
def maximum (gt : α → α → Except BuiltinError Bool) : List α → Except BuiltinError α
  | [] => .error .valueError
  | x :: xs => maximumFrom gt x xs

/-- An element that is greater becomes the largest one. -/
theorem maximumFrom_cons_true {x largest : α} {xs : List α} (h : gt x largest = .ok true) :
    maximumFrom gt largest (x :: xs) = maximumFrom gt x xs := by
  rw [maximumFrom, h]
  rfl

/-- Elements that are not greater are passed over. -/
theorem maximumFrom_append {largest : α} {xs ys : List α}
    (h : ∀ x ∈ xs, gt x largest = .ok false) :
    maximumFrom gt largest (xs ++ ys) = maximumFrom gt largest ys := by
  induction xs with
  | nil => rfl
  | cons x xs ih =>
    obtain ⟨hx, hxs⟩ := List.forall_mem_cons.mp h
    rw [List.cons_append, maximumFrom, hx]
    exact ih hxs

/-! ### Attainable maxima -/

/-- From an element, a rising chain through some of the others leads to a last element,
and none of the rest exceeds all members of the chain. -/
def AttainableFrom (gt : α → α → Except BuiltinError Bool) (x : α) (xs : List α) (m : α) : Prop :=
  ∃ chain others, (chain ++ others).Perm xs ∧ (x :: chain).IsChain (fun y z => gt z y = .ok true) ∧
    (x :: chain).getLast? = some m ∧ ∀ y ∈ others, ∃ z ∈ x :: chain, gt y z = .ok false

/-- The elements at the end of a rising chain that leaves no other element without a
member of the chain that it does not exceed. -/
def Attainable (gt : α → α → Except BuiltinError Bool) (xs : List α) (m : α) : Prop :=
  ∃ x rest, (x :: rest).Perm xs ∧ AttainableFrom gt x rest m

/-- The elements that are the largest so far form a chain. -/
theorem attainableFrom_of_maximumFrom {x m : α} {xs : List α} (h : maximumFrom gt x xs = .ok m) :
    AttainableFrom gt x xs m := by
  induction xs generalizing x with
  | nil =>
    obtain rfl := Except.ok.inj h
    exact ⟨[], [], .nil, .singleton _, rfl, by simp⟩
  | cons y xs ih =>
    obtain ⟨greater, hgreater, hrest⟩ := bind_eq_ok.mp h
    cases greater with
    | true =>
      obtain ⟨chain, others, hperm, hchain, hlast, hothers⟩ := ih hrest
      refine ⟨y :: chain, others, hperm.cons y, .cons_cons hgreater hchain, ?_, ?_⟩
      · rw [List.getLast?_cons_cons, hlast]
      · intro w hw
        obtain ⟨z, hz, hle⟩ := hothers w hw
        exact ⟨z, List.mem_cons_of_mem _ hz, hle⟩
    | false =>
      obtain ⟨chain, others, hperm, hchain, hlast, hothers⟩ := ih hrest
      refine ⟨chain, y :: others, List.perm_middle.trans (hperm.cons y), hchain, hlast, ?_⟩
      exact List.forall_mem_cons.mpr ⟨⟨x, List.mem_cons_self, hgreater⟩, hothers⟩

/-- An order that follows a chain: each element that is passed over comes after a
member of the chain that it does not exceed. -/
theorem exists_maximumFrom {x m : α} {xs : List α} (h : AttainableFrom gt x xs m) :
    ∃ ys : List α, ys.Perm xs ∧ maximumFrom gt x ys = .ok m := by
  obtain ⟨chain, others, hperm, hchain, hlast, hothers⟩ := h
  induction chain generalizing x others xs with
  | nil =>
    obtain rfl : x = m := by simpa using hlast
    refine ⟨others ++ [], by simpa using hperm, ?_⟩
    rw [maximumFrom_append (by simpa using hothers)]
    rfl
  | cons y chain ih =>
    classical
    obtain ⟨hgreater, hchain⟩ := List.isChain_cons_cons.mp hchain
    -- what does not exceed the first member goes before the second one
    have hsplit := List.filter_append_perm (fun z => decide (gt z x = .ok false)) others
    have hlater : ∀ w ∈ others.filter fun z => !decide (gt z x = .ok false),
        ∃ z ∈ y :: chain, gt w z = .ok false := by
      intro w hw
      obtain ⟨hmem, hnot⟩ := List.mem_filter.mp hw
      obtain ⟨z, hz, hle⟩ := hothers w hmem
      rcases List.mem_cons.mp hz with rfl | hz
      · simp [hle] at hnot
      · exact ⟨z, hz, hle⟩
    obtain ⟨ys, hys, hmax⟩ := ih _ (.refl _) hchain (by simpa using hlast) hlater
    refine ⟨others.filter (fun z => decide (gt z x = .ok false)) ++ y :: ys, ?_, ?_⟩
    · refine (List.perm_middle.trans (List.Perm.cons y ?_)).trans hperm
      exact ((hys.append_left _).trans (List.perm_append_comm_assoc _ _ _)).trans
        (hsplit.append_left _)
    · rw [maximumFrom_append (by simp), maximumFrom_cons_true hgreater, hmax]

/-- The attainable elements are the maxima of the orders of a list. -/
theorem attainable_iff {xs : List α} {m : α} :
    Attainable gt xs m ↔ ∃ ys : List α, ys.Perm xs ∧ maximum gt ys = .ok m := by
  constructor
  · rintro ⟨x, rest, hperm, hfrom⟩
    obtain ⟨ys, hys, hmax⟩ := exists_maximumFrom hfrom
    exact ⟨x :: ys, (hys.cons x).trans hperm, hmax⟩
  · rintro ⟨ys, hperm, hmax⟩
    cases ys with
    | nil => cases hmax
    | cons x ys => exact ⟨x, ys, hperm, attainableFrom_of_maximumFrom hmax⟩

/-! ### Comparable elements -/

/-- Two elements that can be compared. -/
def Comparable (gt : α → α → Except BuiltinError Bool) (x y : α) : Prop := ∃ b, gt x y = .ok b

/-- Comparable elements have a maximum. -/
theorem exists_maximumFrom_of_comparable (hsymm : ∀ x y, Comparable gt x y → Comparable gt y x)
    {x : α} {xs : List α} (h : (x :: xs).Pairwise (Comparable gt)) :
    ∃ m, maximumFrom gt x xs = .ok m := by
  induction xs generalizing x with
  | nil => exact ⟨x, rfl⟩
  | cons y xs ih =>
    obtain ⟨hx, hrest⟩ := List.pairwise_cons.mp h
    obtain ⟨hxy, hxs⟩ := List.forall_mem_cons.mp hx
    obtain ⟨greater, hgreater⟩ := hsymm _ _ hxy
    rw [maximumFrom, hgreater]
    cases greater with
    | true => exact ih hrest
    | false => exact ih (List.pairwise_cons.mpr ⟨hxs, (List.pairwise_cons.mp hrest).2⟩)

/-- Every order of a list has a maximum exactly if any two of its elements are
comparable. -/
theorem forall_exists_maximum_iff (hsymm : ∀ x y, Comparable gt x y → Comparable gt y x)
    {xs : List α} (hne : xs ≠ []) :
    (∀ ys : List α, ys.Perm xs → ∃ m, maximum gt ys = .ok m) ↔ xs.Pairwise (Comparable gt) := by
  constructor
  · intro h
    refine List.pairwise_iff_forall_sublist.mpr fun {x y} hsublist => ?_
    obtain ⟨rest, hperm⟩ := hsublist.exists_perm_append
    obtain ⟨m, hmax⟩ := h _ hperm.symm
    obtain ⟨greater, hgreater, -⟩ := bind_eq_ok.mp hmax
    exact hsymm _ _ ⟨greater, hgreater⟩
  · intro h ys hperm
    have hys : ys.Pairwise (Comparable gt) := hperm.symm.pairwise h (fun {x y} => hsymm x y)
    cases ys with
    | nil => exact absurd hperm.symm.eq_nil hne
    | cons y ys => exact exists_maximumFrom_of_comparable hsymm hys

/-! ### Elements with a coordinate -/

variable {β : Type} [LinearOrder β] {f : α → β}

/-- Where the comparison is that of a coordinate, no element is beyond the maximum. -/
theorem le_of_maximumFrom {x m : α} {xs : List α}
    (hgt : ∀ y ∈ x :: xs, ∀ z ∈ x :: xs, ∃ b, gt y z = .ok b ∧ (b = true ↔ f z < f y))
    (h : maximumFrom gt x xs = .ok m) : m ∈ x :: xs ∧ ∀ y ∈ x :: xs, f y ≤ f m := by
  induction xs generalizing x with
  | nil =>
    obtain rfl := Except.ok.inj h
    simp
  | cons y xs ih =>
    obtain ⟨greater, hgreater, hless⟩ := hgt y (by simp) x (by simp)
    rw [maximumFrom, hgreater] at h
    cases greater with
    | true =>
      obtain ⟨hmem, hall⟩ := ih (fun v hv w hw => hgt v (List.mem_cons_of_mem _ hv) w
        (List.mem_cons_of_mem _ hw)) h
      have hy := hall y List.mem_cons_self
      exact ⟨List.mem_cons_of_mem _ hmem,
        List.forall_mem_cons.mpr ⟨le_trans (le_of_lt (hless.mp rfl)) hy, hall⟩⟩
    | false =>
      have hsub : ∀ v ∈ x :: xs, v ∈ x :: y :: xs := fun v hv => by
        rcases List.mem_cons.mp hv with rfl | hv <;> simp_all
      obtain ⟨hmem, hall⟩ := ih (fun v hv w hw => hgt v (hsub v hv) w (hsub w hw)) h
      have hx := hall x List.mem_cons_self
      have hnot : ¬f x < f y := fun hlt => Bool.false_ne_true (hless.mpr hlt)
      have hy := le_trans (not_lt.mp hnot) hx
      refine ⟨hsub m hmem, List.forall_mem_cons.mpr ⟨hx, List.forall_mem_cons.mpr ⟨hy, ?_⟩⟩⟩
      exact fun v hv => hall v (List.mem_cons_of_mem _ hv)

/-- Where the comparison is that of a coordinate, every attainable maximum has the
greatest one. -/
theorem le_of_attainable {xs : List α} {m : α}
    (hgt : ∀ x ∈ xs, ∀ y ∈ xs, ∃ b, gt x y = .ok b ∧ (b = true ↔ f y < f x))
    (h : Attainable gt xs m) :
    m ∈ xs ∧ ∀ x ∈ xs, f x ≤ f m := by
  obtain ⟨ys, hperm, hmax⟩ := attainable_iff.mp h
  cases ys with
  | nil => cases hmax
  | cons y ys =>
    simp only [← hperm.mem_iff] at hgt ⊢
    exact le_of_maximumFrom hgt hmax

end Python
