import MarketIntelligence.Python.SameValue

/-!
# What survives writing and reading

A value that was written with ASCII escapes and read back is well formed, and it is the value
that was written, up to the order of members, exactly if that one was well formed.
-/

namespace Python

open Json

variable {F : Type}

/-- The items of a list are well formed. -/
theorem wellFormedItems_iff {xs : List (Data F)} :
    wellFormedItems xs ↔ ∀ x ∈ xs, x.WellFormed := by
  induction xs with
  | nil => simp [wellFormedItems]
  | cons x xs ih => simp [wellFormedItems, ih]

mutual

/-- A value that was read back is well formed. -/
theorem wellFormed_reloaded : ∀ x : Data F, (x.reloaded true).WellFormed
  | .none | .bool _ | .int _ | .float _ => trivial
  | .str s => noSplitPair_reread s
  | .list xs => by
    rw [Data.reloaded, Data.WellFormed, reloadedItems_eq, wellFormedItems_iff]
    exact List.forall_mem_map.mpr (wellFormed_reloadedItems xs)
  | .dict ms => by
    rw [reloaded_dict, wellFormed_dict]
    refine ⟨dictOfPairs_nodup _, fun m hm => ?_⟩
    obtain ⟨n, hn, rfl⟩ := List.mem_map.mp (mem_dictOfPairs hm)
    exact ⟨noSplitPair_reread n.1,
      wellFormed_reloadedMembers ms n ((sortMembers_perm ms).mem_iff.mp hn)⟩

/-- The same for the items of a list. -/
theorem wellFormed_reloadedItems : ∀ xs : List (Data F), ∀ x ∈ xs, (x.reloaded true).WellFormed
  | [] => by simp
  | x :: xs => List.forall_mem_cons.mpr ⟨wellFormed_reloaded x, wellFormed_reloadedItems xs⟩

/-- The same for the values of a dictionary. -/
theorem wellFormed_reloadedMembers :
    ∀ ms : List (Str × Data F), ∀ m ∈ ms, (m.2.reloaded true).WellFormed
  | [] => by simp
  | (_, x) :: ms => List.forall_mem_cons.mpr ⟨wellFormed_reloaded x, wellFormed_reloadedMembers ms⟩

end

mutual

/-- A value that is the same as a well-formed one is well formed. -/
theorem wellFormed_of_same : ∀ {x y : Data F}, SameValue x y → y.WellFormed → x.WellFormed
  | _, _, .none, h | _, _, .bool _, h | _, _, .int _, h | _, _, .float _, h | _, _, .str _, h => h
  | _, _, .list hsame, h => by
    rw [Data.WellFormed, wellFormedItems_iff] at h ⊢
    exact wellFormed_of_sameItems hsame h
  | _, _, .dict hsame, h => by
    obtain ⟨hnodup, hmembers⟩ := wellFormed_dict.mp h
    exact wellFormed_dict.mpr
      ⟨hsame.keys.nodup_iff.mpr hnodup, wellFormed_of_sameMembers hsame hmembers⟩

/-- The same for the items of a list. -/
theorem wellFormed_of_sameItems : ∀ {xs ys : List (Data F)}, SameItems xs ys →
    (∀ y ∈ ys, y.WellFormed) → ∀ x ∈ xs, x.WellFormed
  | _, _, .nil, _ => by simp
  | _, _, .cons hx hxs, hall => by
    obtain ⟨hfirst, hrest⟩ := List.forall_mem_cons.mp hall
    exact List.forall_mem_cons.mpr
      ⟨wellFormed_of_same hx hfirst, wellFormed_of_sameItems hxs hrest⟩

/-- The same for the members of a dictionary. -/
theorem wellFormed_of_sameMembers : ∀ {ms ns : List (Str × Data F)}, SameMembers ms ns →
    (∀ n ∈ ns, NoSplitPair n.1 ∧ n.2.WellFormed) → ∀ m ∈ ms, NoSplitPair m.1 ∧ m.2.WellFormed
  | _, _, .nil, _ => by simp
  | _, _, .cons hx hms, hall => by
    obtain ⟨hkey, hfirst⟩ := hall _ (List.mem_append_right _ List.mem_cons_self)
    refine List.forall_mem_cons.mpr
      ⟨⟨hkey, wellFormed_of_same hx hfirst⟩, wellFormed_of_sameMembers hms fun n hn => ?_⟩
    obtain hn | hn := List.mem_append.mp hn
    · exact hall n (List.mem_append_left _ hn)
    · exact hall n (List.mem_append_right _ (List.mem_cons_of_mem _ hn))

end

mutual

/-- A well-formed value is read back as itself, up to the order of members. -/
theorem same_reloaded : ∀ {x : Data F}, x.WellFormed → SameValue x (x.reloaded true)
  | .none, _ => .none
  | .bool b, _ => .bool b
  | .int n, _ => .int n
  | .float f, _ => .float f
  | .str s, h => by
    rw [Data.reloaded, reread_of_noSplitPair h]
    exact .str s
  | .list xs, h => by
    rw [Data.WellFormed] at h
    exact .list (sameItems_reloaded h)
  | .dict ms, h => by
    obtain ⟨hnodup, hmembers⟩ := wellFormed_dict.mp h
    have hfixed : ∀ m ∈ ms, reread true m.1 = m.1 := fun m hm =>
      reread_of_noSplitPair (hmembers m hm).1
    rw [reloaded_dict, reloadedDict_of_fixed hnodup hfixed]
    refine .dict (sameMembers_of_forall hnodup ?_ fun m hm => ?_)
    · rw [List.length_map, (sortMembers_perm ms).length_eq]
    · exact ⟨m.2.reloaded true,
        List.mem_map.mpr ⟨m, (sortMembers_perm ms).mem_iff.mpr hm, rfl⟩,
        same_reloadedMembers (wellFormedMembers_iff.mpr hmembers) m hm⟩

/-- The same for the items of a list. -/
theorem sameItems_reloaded : ∀ {xs : List (Data F)}, wellFormedItems xs →
    SameItems xs (reloadedItems true xs)
  | [], _ => .nil
  | _ :: _, h => by
    rw [wellFormedItems] at h
    exact .cons (same_reloaded h.1) (sameItems_reloaded h.2)

/-- The same for the values of a dictionary. -/
theorem same_reloadedMembers : ∀ {ms : List (Str × Data F)}, wellFormedMembers ms →
    ∀ m ∈ ms, SameValue m.2 (m.2.reloaded true)
  | [], _ => by simp
  | (_, _) :: _, h => by
    rw [wellFormedMembers] at h
    exact List.forall_mem_cons.mpr ⟨same_reloaded h.1.2, same_reloadedMembers h.2⟩

end

/-- What was written is read back as the same value exactly if it is well formed. -/
theorem same_reloaded_iff {x : Data F} : SameValue x (x.reloaded true) ↔ x.WellFormed :=
  ⟨fun h => wellFormed_of_same h (wellFormed_reloaded x), same_reloaded⟩

end Python
