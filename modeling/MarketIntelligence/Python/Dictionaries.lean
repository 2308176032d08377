import MarketIntelligence.Python.Values

/-!
# Dictionaries as lists of members

Assignment and construction of dictionaries, with what lookups yield afterwards. The
keys of a dictionary that was built by assignments are distinct.
-/

namespace Python

variable {F : Type}

/-- The keys after an assignment: an old key keeps its place. -/
theorem dictInsert_keys (d : List (Str × Data F)) (key : Str) (value : Data F) :
    (dictInsert d key value).map Prod.fst =
      if key ∈ d.map Prod.fst then d.map Prod.fst else d.map Prod.fst ++ [key] := by
  unfold dictInsert
  by_cases h : key ∈ d.map Prod.fst
  · rw [if_pos h, if_pos h, List.map_map]
    refine List.map_congr_left fun m _ => ?_
    by_cases hm : m.1 = key
    · simp [hm]
    · simp [hm]
  · rw [if_neg h, if_neg h]
    simp

/-- Assignments keep the keys distinct. -/
theorem dictInsert_nodup {d : List (Str × Data F)} {key : Str} {value : Data F}
    (h : (d.map Prod.fst).Nodup) : ((dictInsert d key value).map Prod.fst).Nodup := by
  rw [dictInsert_keys]
  by_cases hkey : key ∈ d.map Prod.fst
  · rwa [if_pos hkey]
  · rw [if_neg hkey]
    exact List.nodup_append.mpr ⟨h, by simp, by simpa using fun k v hkv heq => hkey (by
      rw [← heq]; exact List.mem_map.mpr ⟨(k, v), hkv, rfl⟩)⟩

/-- Replacing the members of another key changes nothing for a key. -/
theorem get_replace_of_ne {key k : Str} (hne : key ≠ k) (value : Data F)
    (d : List (Str × Data F)) :
    get (d.map fun m => if m.1 = key then (key, value) else m) k = get d k := by
  induction d with
  | nil => rfl
  | cons m d ih =>
    by_cases hm : m.1 = key
    · rw [List.map_cons, if_pos hm, get_cons, if_neg hne, ih]
      rw [show m = (m.1, m.2) from rfl, get_cons, if_neg (by rwa [hm])]
    · rw [List.map_cons, if_neg hm, show m = (m.1, m.2) from rfl, get_cons, get_cons, ih]

/-- A replaced member is found. -/
theorem get_replace_self {key : Str} (value : Data F) {d : List (Str × Data F)}
    (h : key ∈ d.map Prod.fst) :
    get (d.map fun m => if m.1 = key then (key, value) else m) key = value := by
  induction d with
  | nil => simp at h
  | cons m d ih =>
    by_cases hm : m.1 = key
    · rw [List.map_cons, if_pos hm, get_cons, if_pos rfl]
    · have htail : key ∈ d.map Prod.fst := by
        simpa [Ne.symm hm] using h
      rw [List.map_cons, if_neg hm, show m = (m.1, m.2) from rfl, get_cons, if_neg hm, ih htail]

/-- A member behind others is found when no other has its key. -/
theorem get_append_of_not_mem {d : List (Str × Data F)} {key : Str}
    (h : key ∉ d.map Prod.fst) (value : Data F) (k : Str) :
    get (d ++ [(key, value)]) k = if key = k then value else get d k := by
  induction d with
  | nil => simp
  | cons m d ih =>
    have hm : m.1 ≠ key := fun heq => h (by simp [heq])
    have htail : key ∉ d.map Prod.fst := fun hmem => h (by simp_all)
    rw [List.cons_append, show m = (m.1, m.2) from rfl, get_cons, get_cons, ih htail]
    by_cases hmk : m.1 = k
    · rw [if_pos hmk, if_pos hmk, if_neg fun heq => hm (hmk.trans heq.symm)]
    · rw [if_neg hmk, if_neg hmk]

/-- What a dictionary yields after an assignment. -/
@[simp] theorem get_dictInsert (d : List (Str × Data F)) (key : Str) (value : Data F) (k : Str) :
    get (dictInsert d key value) k = if key = k then value else get d k := by
  unfold dictInsert
  by_cases hkey : key ∈ d.map Prod.fst
  · rw [if_pos hkey]
    by_cases hk : key = k
    · rw [if_pos hk, ← hk, get_replace_self value hkey]
    · rw [if_neg hk, get_replace_of_ne hk]
  · rw [if_neg hkey, get_append_of_not_mem hkey]

/-- The keys of a dictionary after an assignment. -/
@[simp] theorem hasKey_dictInsert (d : List (Str × Data F)) (key : Str) (value : Data F)
    (k : Str) : hasKey (dictInsert d key value) k = (decide (key = k) || hasKey d k) := by
  unfold hasKey
  rw [dictInsert_keys]
  by_cases hkey : key ∈ d.map Prod.fst
  · rw [if_pos hkey]
    by_cases hk : key = k
    · simp [← hk, hkey]
    · simp [hk]
  · rw [if_neg hkey]
    by_cases hk : key = k
    · simp [hk]
    · simp [hk, Ne.symm hk]

/-- Distinct keys are assigned one behind the other. -/
theorem foldl_dictInsert {d ps : List (Str × Data F)} (h : ((d ++ ps).map Prod.fst).Nodup) :
    ps.foldl (fun d m => dictInsert d m.1 m.2) d = d ++ ps := by
  induction ps generalizing d with
  | nil => simp
  | cons p ps ih =>
    have hnew : p.1 ∉ d.map Prod.fst := by
      simp only [List.map_append, List.map_cons, List.nodup_append] at h
      exact fun hmem => h.2.2 _ hmem _ (by simp) rfl
    have hinsert : dictInsert d p.1 p.2 = d ++ [p] := by rw [dictInsert, if_neg hnew]
    rw [List.foldl_cons, hinsert, ih (by simpa using h), List.append_assoc, List.singleton_append]

/-- Pairs with distinct keys are the members of their dictionary. -/
theorem dictOfPairs_of_nodup {ps : List (Str × Data F)} (h : (ps.map Prod.fst).Nodup) :
    dictOfPairs ps = ps := by
  simpa [dictOfPairs] using foldl_dictInsert (d := []) (by simpa using h)

/-- The keys of a dictionary are distinct. -/
theorem dictOfPairs_nodup (ps : List (Str × Data F)) : ((dictOfPairs ps).map Prod.fst).Nodup := by
  have hfold (d : List (Str × Data F)) (hd : (d.map Prod.fst).Nodup) :
      ((ps.foldl (fun d m => dictInsert d m.1 m.2) d).map Prod.fst).Nodup := by
    induction ps generalizing d with
    | nil => exact hd
    | cons p ps ih => exact ih _ (dictInsert_nodup hd)
  exact hfold [] List.nodup_nil

/-- An assignment adds no member but the assigned one. -/
theorem mem_dictInsert {d : List (Str × Data F)} {key : Str} {value : Data F}
    {m : Str × Data F} (h : m ∈ dictInsert d key value) :
    m = (key, value) ∨ m ∈ d ∧ m.1 ≠ key := by
  unfold dictInsert at h
  by_cases hkey : key ∈ d.map Prod.fst
  · rw [if_pos hkey] at h
    obtain ⟨n, hn, rfl⟩ := List.mem_map.mp h
    by_cases hm : n.1 = key
    · exact .inl (if_pos hm)
    · rw [if_neg hm]
      exact .inr ⟨hn, hm⟩
  · rw [if_neg hkey] at h
    obtain hd | hnew := List.mem_append.mp h
    · exact .inr ⟨hd, fun heq => hkey (heq ▸ List.mem_map_of_mem hd)⟩
    · exact .inl (List.mem_singleton.mp hnew)

/-- Every member of a dictionary is one of the pairs. -/
theorem mem_dictOfPairs {ps : List (Str × Data F)} {m : Str × Data F}
    (h : m ∈ dictOfPairs ps) : m ∈ ps := by
  have hfold (d : List (Str × Data F))
      (hm : m ∈ ps.foldl (fun d m => dictInsert d m.1 m.2) d) : m ∈ d ∨ m ∈ ps := by
    clear h
    induction ps generalizing d with
    | nil => exact .inl hm
    | cons p ps ih =>
      obtain hmem | hmem := ih _ hm
      · obtain rfl | ⟨hd, -⟩ := mem_dictInsert hmem
        · exact .inr (by simp)
        · exact .inl hd
      · exact .inr (List.mem_cons_of_mem _ hmem)
  simpa using hfold [] h

/-- Members with distinct keys are found under their keys. -/
theorem get_eq_of_mem {d : List (Str × Data F)} (hd : (d.map Prod.fst).Nodup) {key : Str}
    {value : Data F} (h : (key, value) ∈ d) : get d key = value := by
  induction d with
  | nil => simp at h
  | cons m d ih =>
    obtain ⟨hm, htail⟩ := List.nodup_cons.mp hd
    rw [show m = (m.1, m.2) from rfl, get_cons]
    obtain rfl | hmem := List.mem_cons.mp h
    · simp
    · have hne : m.1 ≠ key := fun heq => hm (by
        rw [heq]
        exact List.mem_map.mpr ⟨(key, value), hmem, rfl⟩)
      rw [if_neg hne, ih htail hmem]

end Python
