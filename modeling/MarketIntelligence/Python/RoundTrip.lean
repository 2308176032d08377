import MarketIntelligence.Json.Surrogates
import MarketIntelligence.Python.Dictionaries
import MarketIntelligence.Python.Files

/-!
# Writing data and reading it back

`json.loads` applied to what `json.dumps` wrote returns the value up to three things:
escaped surrogate halves that stand next to each other are joined, members are sorted,
and keys that have become equal are merged. A value that was read back once is printed
to the same text ever after.
-/

namespace Json

open Python

/-! ### Strings that were read back -/

/-- The first character of joined pieces is a low surrogate only if the first piece is
that code unit or that character. -/
theorem head_joinPieces {p : Piece} {ps : List Piece} {d : Chr}
    (h : (joinPieces (p :: ps)).head? = some d) (hlow : d.isLowSurrogate = true) :
    p = .unit d ∨ p = .char d := by
  cases p with
  | char c =>
    obtain rfl : c = d := by simpa [joinPieces] using h
    exact .inr rfl
  | unit c =>
    cases ps with
    | nil =>
      obtain rfl : c = d := by simpa [joinPieces] using h
      exact .inl rfl
    | cons q qs =>
      cases q with
      | char e =>
        obtain rfl : c = d := by simpa [joinPieces] using h
        exact .inl rfl
      | unit e =>
        by_cases hpair : c.isHighSurrogate = true ∧ e.isLowSurrogate = true
        · have hjoin : joinSurrogates c e = d := by simpa [joinPieces, hpair] using h
          have hc : 0xD800 ≤ c.ord ∧ c.ord < 0xDC00 := by simpa [Chr.isHighSurrogate] using hpair.1
          have he : 0xDC00 ≤ e.ord ∧ e.ord < 0xE000 := by simpa [Chr.isLowSurrogate] using hpair.2
          have hd : 0xDC00 ≤ d.ord ∧ d.ord < 0xE000 := by simpa [Chr.isLowSurrogate] using hlow
          rw [← hjoin, joinSurrogates, ord_chr (by omega)] at hd
          omega
        · obtain rfl : c = d := by
            rw [joinPieces, if_neg (by simpa using hpair)] at h
            simpa using h
          exact .inl rfl

/-- The first half of a surrogate pair is no second half, and a joined pair is neither. -/
theorem joinSurrogates_not_high {h l : Chr} (hhigh : h.isHighSurrogate = true)
    (hlow : l.isLowSurrogate = true) : (joinSurrogates h l).isHighSurrogate = false := by
  simp only [Chr.isHighSurrogate, Chr.isLowSurrogate, Bool.and_eq_true, decide_eq_true_eq]
    at hhigh hlow
  have hord : (joinSurrogates h l).ord =
      0x10000 + (h.ord - 0xD800) * 0x400 + (l.ord - 0xDC00) := ord_chr (by omega)
  simp only [Chr.isHighSurrogate, hord, Bool.and_eq_false_iff, decide_eq_false_iff_not]
  omega

/-- Joined pieces have no split pair, when surrogates only occur as code units. -/
theorem noSplitPair_joinPieces {ps : List Piece}
    (h : ∀ c, .char c ∈ ps → c.isSurrogate = false) : NoSplitPair (joinPieces ps) := by
  have hsurrogate {c : Chr} (hlow : c.isLowSurrogate = true) : c.isSurrogate = true := by
    simp only [Chr.isLowSurrogate, Chr.isSurrogate, Bool.and_eq_true, decide_eq_true_eq] at hlow ⊢
    omega
  induction ps using joinPieces.induct with
  | case1 => exact .nil
  | case2 c ps ih =>
    have hc := h c (by simp)
    refine List.isChain_cons.mpr ⟨fun d _ hpair => ?_, ih fun d hd => h d (by simp [hd])⟩
    obtain ⟨hhigh, -⟩ := hpair
    simp only [Chr.isHighSurrogate, Chr.isSurrogate, Bool.and_eq_true, decide_eq_true_eq,
      Bool.and_eq_false_iff, decide_eq_false_iff_not] at hhigh hc
    omega
  | case3 c l ps hpair ih =>
    obtain ⟨hhigh, hlow⟩ := Bool.and_eq_true_iff.mp hpair
    rw [joinPieces, if_pos hpair]
    refine List.isChain_cons.mpr ⟨fun d _ hnext => ?_, ih fun d hd => h d (by simp [hd])⟩
    obtain ⟨hjoin, -⟩ := hnext
    rw [joinSurrogates_not_high hhigh hlow] at hjoin
    exact absurd hjoin (by decide)
  | case4 c l ps hpair ih =>
    rw [joinPieces, if_neg hpair]
    refine List.isChain_cons.mpr ⟨fun d hd hnext => ?_, ih fun d hd => h d (by simp_all)⟩
    obtain ⟨hhigh, hlow⟩ := hnext
    obtain heq | heq := head_joinPieces hd hlow
    · obtain rfl := Piece.unit.inj heq
      exact hpair (by simp [hhigh, hlow])
    · cases heq
  | case5 c ps hnot ih =>
    rw [joinPieces]
    · refine List.isChain_cons.mpr ⟨fun d hd hnext => ?_, ih fun d hd => h d (by simp [hd])⟩
      obtain ⟨-, hlow⟩ := hnext
      cases ps with
      | nil => simp [joinPieces] at hd
      | cons p ps =>
        obtain rfl | rfl := head_joinPieces hd hlow
        · exact hnot _ _ rfl
        · have hd := h d (by simp)
          rw [hsurrogate hlow] at hd
          exact absurd hd (by decide)
    · exact hnot

/-- Characters with a short escape are ASCII. -/
theorem shortEscape_lt {c e : Chr} (h : shortEscape c = some e) : c.ord < 0x80 := by
  unfold shortEscape at h
  split_ifs at h with hquote hslash hnewline hreturn htab hfeed hback
  · rw [hquote]; decide
  · rw [hslash]; decide
  · rw [hnewline]; decide
  · rw [hreturn]; decide
  · rw [htab]; decide
  · rw [hfeed]; decide
  · rw [hback]; decide

/-- A string that was read back from its ASCII form has no split pair. -/
theorem noSplitPair_reread (s : Str) : NoSplitPair (reread true s) := by
  refine noSplitPair_joinPieces fun c hc => ?_
  obtain ⟨d, -, hd⟩ := List.mem_flatMap.mp hc
  unfold encodePieces at hd
  split at hd
  · next hshort =>
    obtain rfl : c = d := by simpa using hd
    exact isSurrogate_of_lt (shortEscape_lt hshort)
  · split at hd
    · split at hd <;> simp at hd
    · next hplain =>
      obtain rfl : c = d := by simpa using hd
      simp only [needsEscape, Bool.true_and, Bool.or_eq_true, decide_eq_true_eq, not_or] at hplain
      exact isSurrogate_of_lt (by omega)

/-- So it is read back unchanged. -/
theorem reread_reread (s : Str) : reread true (reread true s) = reread true s :=
  reread_of_noSplitPair (noSplitPair_reread s)

/-! ### Strings that are written again -/

/-- The text that a piece is written as. -/
def Piece.written : Piece → Str
  | .char c => encodeChr true c
  | .unit c => unicodeEscape c.ord

/-- A character is written as its pieces. -/
theorem encodeChr_eq_pieces (c : Chr) :
    encodeChr true c = (encodePieces true c).flatMap Piece.written := by
  unfold encodePieces
  cases hshort : shortEscape c with
  | some e => simp [Piece.written]
  | none =>
    dsimp only
    split
    · next hescape =>
      split
      · next hsmall => simp [encodeChr, hshort, hescape, hsmall, Piece.written]
      · next hbig => simp [encodeChr, hshort, hescape, hbig, Piece.written]
    · simp [Piece.written]

/-- A piece that its character is written as. -/
def Piece.Plain : Piece → Prop
  | .char c => encodePieces true c = [.char c]
  | .unit c => encodePieces true c = [.unit c]

/-- Characters from the surrogates on have no short escape. -/
theorem encodePieces_of_large {c : Chr} (h : 0x80 ≤ c.ord) : encodePieces true c =
    if c.ord < 0x10000 then [.unit c] else [.unit (highHalf c), .unit (lowHalf c)] := by
  have hshort : shortEscape c = none := by
    cases hshort : shortEscape c with
    | none => rfl
    | some e =>
      have hlt := shortEscape_lt hshort
      omega
  have hescape : needsEscape true c = true := by
    simp only [needsEscape, Bool.true_and, Bool.or_eq_true, decide_eq_true_eq]
    omega
  simp [encodePieces, hshort, hescape]

/-- The pieces of a character are plain. -/
theorem plain_of_mem_encodePieces {p : Piece} {c : Chr} (h : p ∈ encodePieces true c) :
    p.Plain := by
  have hlt := c.ord_lt
  by_cases hbig : 0x10000 ≤ c.ord
  · have hhigh : (highHalf c).ord = 0xD800 + (c.ord - 0x10000) / 0x400 := ord_chr (by omega)
    have hlow : (lowHalf c).ord = 0xDC00 + (c.ord - 0x10000) % 0x400 := ord_chr (by omega)
    rw [encodePieces_of_large (by omega), if_neg (by omega)] at h
    obtain rfl | rfl := by simpa using h
    · rw [Piece.Plain, encodePieces_of_large (by omega), if_pos (by omega)]
    · rw [Piece.Plain, encodePieces_of_large (by omega), if_pos (by omega)]
  · have hsingle : encodePieces true c = [.char c] ∨ encodePieces true c = [.unit c] := by
      have hsmall : c.ord < 0x10000 := by omega
      cases hshort : shortEscape c with
      | some e => simp [encodePieces, hshort]
      | none => cases hescape : needsEscape true c <;> simp [encodePieces, hshort, hescape, hsmall]
    obtain hchar | hunit := hsingle
    · rw [hchar, List.mem_singleton] at h
      rw [h]
      exact hchar
    · rw [hunit, List.mem_singleton] at h
      rw [h]
      exact hunit

/-- A joined pair is written as its halves. -/
theorem encodePieces_joinSurrogates {h l : Chr} (hhigh : h.isHighSurrogate = true)
    (hlow : l.isLowSurrogate = true) :
    encodePieces true (joinSurrogates h l) = [.unit h, .unit l] := by
  simp only [Chr.isHighSurrogate, Chr.isLowSurrogate, Bool.and_eq_true, decide_eq_true_eq]
    at hhigh hlow
  have hord : (joinSurrogates h l).ord =
      0x10000 + (h.ord - 0xD800) * 0x400 + (l.ord - 0xDC00) := ord_chr (by omega)
  have hfirst : highHalf (joinSurrogates h l) = h := by
    ext
    rw [highHalf, ord_chr (by omega), hord]
    omega
  have hsecond : lowHalf (joinSurrogates h l) = l := by
    ext
    rw [lowHalf, ord_chr (by omega), hord]
    omega
  rw [encodePieces_of_large (by omega), if_neg (by omega), hfirst, hsecond]

/-- Plain pieces are what the joined text is written as. -/
theorem encodePieces_joinPieces {ps : List Piece} (h : ∀ p ∈ ps, p.Plain) :
    (joinPieces ps).flatMap (encodePieces true) = ps := by
  induction ps using joinPieces.induct with
  | case1 => rfl
  | case2 c ps ih =>
    obtain ⟨hc, hps⟩ := List.forall_mem_cons.mp h
    rw [joinPieces, List.flatMap_cons, ih hps, hc]
    rfl
  | case3 c l ps hpair ih =>
    obtain ⟨hhigh, hlow⟩ := Bool.and_eq_true_iff.mp hpair
    rw [joinPieces, if_pos hpair, List.flatMap_cons, encodePieces_joinSurrogates hhigh hlow,
      ih fun p hp => h p (by simp [hp])]
    rfl
  | case4 c l ps hpair ih =>
    obtain ⟨hc, hps⟩ := List.forall_mem_cons.mp h
    rw [joinPieces, if_neg hpair, List.flatMap_cons, ih hps, hc]
    rfl
  | case5 c ps hnot ih =>
    obtain ⟨hc, hps⟩ := List.forall_mem_cons.mp h
    rw [joinPieces, List.flatMap_cons, ih hps, hc]
    · rfl
    · exact hnot

/-- A string that was read back is written as before. -/
theorem encodeString_reread (s : Str) :
    encodeString true (reread true s) = encodeString true s := by
  have hwritten (t : Str) : t.flatMap (encodeChr true) =
      (t.flatMap (encodePieces true)).flatMap Piece.written := by
    rw [List.flatMap_assoc]
    exact congrArg (fun f => t.flatMap f) (funext encodeChr_eq_pieces)
  have hpieces : (reread true s).flatMap (encodePieces true) = s.flatMap (encodePieces true) := by
    refine encodePieces_joinPieces fun p hp => ?_
    obtain ⟨c, -, hc⟩ := List.mem_flatMap.mp hp
    exact plain_of_mem_encodePieces hc
  rw [encodeString, encodeString, hwritten, hwritten, hpieces]

/-! ### Sorted members -/

variable {α β : Type}

/-- Sorted members are sorted. -/
theorem sortMembers_pairwise (ms : List (Str × α)) :
    (sortMembers ms).Pairwise fun m n => m.1 ≤ n.1 := by
  have htotal : Std.Total fun m n : Str × α => m.1 ≤ n.1 := ⟨fun m n => le_total m.1 n.1⟩
  have htrans : IsTrans (Str × α) fun m n => m.1 ≤ n.1 := ⟨fun _ _ _ => le_trans⟩
  exact List.pairwise_insertionSort _ ms

/-- Sorting again changes nothing. -/
theorem sortMembers_of_pairwise {ms : List (Str × α)} (h : ms.Pairwise fun m n => m.1 ≤ n.1) :
    sortMembers ms = ms := h.insertionSort_eq

end Json

namespace Python

open Json

variable {F : Type}

/-! ### Values that were read back -/

mutual

/-- The value that is read back from a printed value. -/
def Data.reloaded (ascii : Bool) : Data F → Data F
  | .none => .none
  | .bool b => .bool b
  | .int n => .int n
  | .float f => .float f
  | .str s => .str (reread ascii s)
  | .list xs => .list (reloadedItems ascii xs)
  | .dict ms => .dict (dictOfPairs ((sortMembers (reloadedMembers ascii ms)).map fun m =>
      (reread ascii m.1, m.2)))

/-- The items that are read back. -/
def reloadedItems (ascii : Bool) : List (Data F) → List (Data F)
  | [] => []
  | x :: xs => x.reloaded ascii :: reloadedItems ascii xs

/-- The values that are read back, under the original keys. -/
def reloadedMembers (ascii : Bool) : List (Str × Data F) → List (Str × Data F)
  | [] => []
  | (k, x) :: ms => (k, x.reloaded ascii) :: reloadedMembers ascii ms

end

/-- The items that are read back, as a map. -/
theorem reloadedItems_eq (ascii : Bool) (xs : List (Data F)) :
    reloadedItems ascii xs = xs.map (Data.reloaded ascii) := by
  induction xs with
  | nil => rfl
  | cons x xs ih => rw [reloadedItems, ih, List.map_cons]

/-- The members that are read back, as a map. -/
theorem reloadedMembers_eq (ascii : Bool) (ms : List (Str × Data F)) :
    reloadedMembers ascii ms = ms.map fun m => (m.1, m.2.reloaded ascii) := by
  induction ms with
  | nil => rfl
  | cons m ms ih => rw [reloadedMembers, ih, List.map_cons]

/-- The members of a dictionary that was read back. -/
def Data.reloadedDict (ascii : Bool) (ms : List (Str × Data F)) : List (Str × Data F) :=
  dictOfPairs ((sortMembers ms).map fun m => (reread ascii m.1, m.2.reloaded ascii))

/-- A dictionary is read back as a dictionary. -/
theorem reloaded_dict (ascii : Bool) (ms : List (Str × Data F)) :
    (Data.dict ms).reloaded ascii = .dict (Data.reloadedDict ascii ms) := by
  rw [Data.reloaded, reloadedMembers_eq, sortMembers_map, List.map_map]
  rfl

variable [PyFloat F]

/-- The parse tree of a printed dictionary. -/
theorem printedTree_dict (l : Layout) (ms : List (Str × Data F)) :
    printedTree l (.dict ms) = .object ((sortMembers ms).map fun m =>
      (reread l.ensureAscii m.1, printedTree l m.2)) := by
  rw [printedTree, printedMembers_eq, sortMembers_map, List.map_map]
  rfl

/-- The digits of a printed integer are those of its absolute value. -/
theorem digitCount_intDigits (n : ℤ) : digitCount (intDigits n) = (natDigits n.natAbs).length := by
  have hdigits (m : ℕ) : (natDigits m).filter Chr.isDigit = natDigits m := by
    refine List.filter_eq_self.mpr fun c hc => ?_
    obtain hzero | ⟨⟨-, hall⟩, -⟩ := natural_natDigits m
    · rw [hzero] at hc
      obtain rfl := List.mem_singleton.mp hc
      decide
    · exact hall c hc
  cases n with
  | ofNat m => simp [digitCount, intDigits, hdigits]
  | negSucc m =>
    have hminus : Chr.isDigit ('-' : Char) = false := by decide
    simp [digitCount, intDigits, hdigits, hminus, Int.natAbs]

/-- An integer that may be written may be read. -/
theorem tooManyDigits_intDigits {limits : Limits} {n : ℤ} (h : Data.intFits limits n = true) :
    tooManyDigits limits (intDigits n) = false := by
  unfold Data.intFits at h
  unfold tooManyDigits
  cases hlimit : limits.intDigits with
  | none => rfl
  | some limit =>
    simp only [hlimit, decide_eq_true_eq] at h
    simpa [digitCount_intDigits] using h

/-- What is built for members, one by one. -/
theorem foldMembers_map {ε V α : Type} {h : Hooks ε V} (name : α → Str) {tree : α → Tree}
    {value : α → V} {as : List α} (hall : ∀ a ∈ as, (tree a).fold h = .ok (value a)) :
    foldMembers h (as.map fun a => (name a, tree a)) =
      .ok (as.map fun a => (name a, value a)) := by
  induction as with
  | nil => rfl
  | cons a as ih =>
    obtain ⟨ha, hrest⟩ := List.forall_mem_cons.mp hall
    simp [foldMembers, ha, ih hrest]

/-- What is built for items, one by one. -/
theorem foldItems_map {ε V α : Type} {h : Hooks ε V} {tree : α → Tree} {value : α → V}
    {as : List α} (hall : ∀ a ∈ as, (tree a).fold h = .ok (value a)) :
    foldItems h (as.map tree) = .ok (as.map value) := by
  induction as with
  | nil => rfl
  | cons a as ih =>
    obtain ⟨ha, hrest⟩ := List.forall_mem_cons.mp hall
    simp [foldItems, ha, ih hrest]

/-- Items that are not too deep are not too deep together. -/
theorem depthItems_le {n : ℕ} {xs : List Tree} (h : ∀ x ∈ xs, x.depth ≤ n) :
    depthItems xs ≤ n := by
  induction xs with
  | nil => exact Nat.zero_le n
  | cons x xs ih =>
    obtain ⟨hx, hrest⟩ := List.forall_mem_cons.mp h
    exact max_le hx (ih hrest)

/-- Members that are not too deep are not too deep together. -/
theorem depthMembers_le {n : ℕ} {ms : List (Str × Tree)} (h : ∀ m ∈ ms, m.2.depth ≤ n) :
    depthMembers ms ≤ n := by
  induction ms with
  | nil => exact Nat.zero_le n
  | cons m ms ih =>
    obtain ⟨hm, hrest⟩ := List.forall_mem_cons.mp h
    exact max_le hm (ih hrest)

mutual

/-- Within the limits, the printed tree is not too deep and the hooks build the value
that is read back. -/
theorem fold_printedTree (limits : Limits) (l : Layout) : ∀ (x : Data F) (level : ℕ),
    x.fits limits level = .ok () → (printedTree l x).depth ≤ level ∧
      (printedTree l x).fold (dataHooks limits) = .ok (x.reloaded l.ensureAscii)
  | .none, _, _ | .bool _, _, _ | .str _, _, _ => by
    simp [printedTree, Tree.depth, Tree.fold, dataHooks, Data.reloaded]
  | .int n, level, h => by
    have hfits : Data.intFits limits n = true := by
      by_contra hnot
      cases level <;> simp [Data.fits, hnot] at h
    simp [printedTree, Tree.depth, Tree.fold, dataHooks, Data.reloaded,
      tooManyDigits_intDigits hfits, intOfText_intDigits]
  | .float f, _, _ => by
    rw [printedTree]
    by_cases hconstant : PyFloat.repr f ∈ constants
    · simp [hconstant, Tree.depth, Tree.fold, dataHooks, Data.reloaded, PyFloat.ofText_repr]
    · simp [hconstant, Tree.depth, Tree.fold, dataHooks, Data.reloaded, PyFloat.ofText_repr]
  | .list _, 0, h => by simp [Data.fits] at h
  | .list xs, level + 1, h => by
    have hall := fold_printedItems limits l xs level (by simpa [Data.fits] using h)
    have hdepth : depthItems (xs.map (printedTree l)) ≤ level :=
      depthItems_le fun t ht => by
        obtain ⟨x, hx, rfl⟩ := List.mem_map.mp ht
        exact (hall x hx).1
    have hfold := foldItems_map fun x hx => (hall x hx).2
    rw [printedTree, printedItems_eq, Tree.depth, Tree.fold, hfold, Data.reloaded, reloadedItems_eq]
    exact ⟨by omega, rfl⟩
  | .dict _, 0, h => by simp [Data.fits] at h
  | .dict ms, level + 1, h => by
    have hall := fold_printedMembers limits l ms level (by simpa [Data.fits] using h)
    have hsorted (m) (hm : m ∈ sortMembers ms) := hall m ((sortMembers_perm ms).mem_iff.mp hm)
    have hdepth : depthMembers ((sortMembers ms).map fun m =>
        (reread l.ensureAscii m.1, printedTree l m.2)) ≤ level :=
      depthMembers_le fun t ht => by
        obtain ⟨m, hm, rfl⟩ := List.mem_map.mp ht
        exact (hsorted m hm).1
    have hfold := foldMembers_map (fun m : Str × Data F => reread l.ensureAscii m.1)
      fun m hm => (hsorted m hm).2
    rw [printedTree_dict, Tree.depth, Tree.fold, hfold, reloaded_dict]
    exact ⟨by omega, rfl⟩

/-- The same for the items of a list. -/
theorem fold_printedItems (limits : Limits) (l : Layout) : ∀ (xs : List (Data F)) (level : ℕ),
    Data.fitsItems limits level xs = .ok () → ∀ x ∈ xs, (printedTree l x).depth ≤ level ∧
      (printedTree l x).fold (dataHooks limits) = .ok (x.reloaded l.ensureAscii)
  | [], _, _ => by simp
  | x :: xs, level, h => by
    obtain ⟨_, hx, hxs⟩ := bind_eq_ok.mp h
    exact List.forall_mem_cons.mpr
      ⟨fold_printedTree limits l x level hx, fold_printedItems limits l xs level hxs⟩

/-- The same for the values of a dictionary. -/
theorem fold_printedMembers (limits : Limits) (l : Layout) :
    ∀ (ms : List (Str × Data F)) (level : ℕ), Data.fitsMembers limits level ms = .ok () →
      ∀ m ∈ ms, (printedTree l m.2).depth ≤ level ∧
        (printedTree l m.2).fold (dataHooks limits) = .ok (m.2.reloaded l.ensureAscii)
  | [], _, _ => by simp
  | (k, x) :: ms, level, h => by
    obtain ⟨_, hx, hms⟩ := bind_eq_ok.mp h
    exact List.forall_mem_cons.mpr
      ⟨fold_printedTree limits l x level hx, fold_printedMembers limits l ms level hms⟩

end

/-- What was written, with whitespace after it, is read back. -/
theorem jsonLoads_dumps {py : Interpreter F} {l : Layout} {x : Data F} {text w : Str}
    (h : Data.dumps py l x = .ok text) (hw : Ws w) :
    jsonLoads py.limits (text ++ w) = .ok (x.reloaded l.ensureAscii) := by
  obtain ⟨_, hfits, htext⟩ := bind_eq_ok.mp h
  obtain rfl := Except.ok.inj htext
  have hread : Text (encode l 0 x ++ w) (printedTree l x) :=
    ⟨[], _, w, by simp, ws_nil, value_encode l 0 x, hw⟩
  obtain ⟨hdepth, hfold⟩ := fold_printedTree py.limits l x _ hfits
  rw [jsonLoads, loads_complete _ hread (hdepth.trans (py.limits.levels_le l)), hfold]
  rfl

/-! ### Reading back twice -/

/-- Dictionaries that agree in their printed members are printed alike. -/
theorem encode_dict_congr {l : Layout} {level : ℕ} {ms ns : List (Str × Data F)}
    (hempty : ms.isEmpty = ns.isEmpty)
    (hsort : sortMembers (encodeMembers l (level + 1) ms) =
      sortMembers (encodeMembers l (level + 1) ns)) :
    encode l level (.dict ms) = encode l level (.dict ns) := by
  rw [encode, encode, hempty, hsort]

omit [PyFloat F] in
/-- The keys of a dictionary that was read back are distinct and stay as they are. -/
theorem reloadedDict_keys (ms : List (Str × Data F)) :
    ((Data.reloadedDict true ms).map Prod.fst).Nodup ∧
      ∀ m ∈ Data.reloadedDict true ms, reread true m.1 = m.1 := by
  refine ⟨dictOfPairs_nodup _, fun m hm => ?_⟩
  obtain ⟨n, -, rfl⟩ := List.mem_map.mp (mem_dictOfPairs hm)
  exact reread_reread n.1

omit [PyFloat F] in
/-- A dictionary whose keys are distinct and stay as they are is read back member by
member. -/
theorem reloadedDict_of_fixed {ms : List (Str × Data F)} (hnodup : (ms.map Prod.fst).Nodup)
    (hfixed : ∀ m ∈ ms, reread true m.1 = m.1) :
    Data.reloadedDict true ms = (sortMembers ms).map fun m => (m.1, m.2.reloaded true) := by
  have hmap : ((sortMembers ms).map fun m => (reread true m.1, m.2.reloaded true)) =
      (sortMembers ms).map fun m => (m.1, m.2.reloaded true) :=
    List.map_congr_left fun m hm => by rw [hfixed m ((sortMembers_perm ms).mem_iff.mp hm)]
  rw [Data.reloadedDict, hmap]
  refine dictOfPairs_of_nodup ?_
  have hkeys : ((sortMembers ms).map fun m => (m.1, m.2.reloaded true)).map Prod.fst =
      (sortMembers ms).map Prod.fst := by simp
  rw [hkeys]
  exact (((sortMembers_perm ms).map Prod.fst).nodup_iff).mpr hnodup

omit [PyFloat F] in
/-- Such a dictionary has the same keys as before, with values that were read back. -/
theorem get_reloadedDict {ms : List (Str × Data F)} (hnodup : (ms.map Prod.fst).Nodup)
    (hfixed : ∀ m ∈ ms, reread true m.1 = m.1) (key : Str) :
    hasKey (Data.reloadedDict true ms) key = hasKey ms key ∧
      get (Data.reloadedDict true ms) key = (get ms key).reloaded true := by
  obtain ⟨hdistinct, -⟩ := reloadedDict_keys ms
  rw [reloadedDict_of_fixed hnodup hfixed] at hdistinct ⊢
  have hkeys : hasKey ((sortMembers ms).map fun m => (m.1, m.2.reloaded true)) key =
      hasKey ms key := by
    have hmem := ((sortMembers_perm ms).map Prod.fst).mem_iff (a := key)
    simpa [hasKey, Function.comp_def] using hmem
  refine ⟨hkeys, ?_⟩
  by_cases hkey : hasKey ms key = true
  · obtain ⟨m, hm, rfl⟩ := List.mem_map.mp (of_decide_eq_true hkey)
    rw [get_eq_of_mem hnodup (show (m.1, m.2) ∈ ms from hm)]
    exact get_eq_of_mem hdistinct
      (List.mem_map.mpr ⟨m, (sortMembers_perm ms).mem_iff.mpr hm, rfl⟩)
  · have hnone : hasKey ms key = false := by simpa using hkey
    rw [get_of_not_hasKey hnone, get_of_not_hasKey (hkeys.trans hnone)]
    rfl

mutual

/-- A value that was read back prints as the value that is read back from it. -/
theorem encode_reloaded (l : Layout) : ∀ (x : Data F) (level : ℕ),
    encode l level ((x.reloaded true).reloaded true) = encode l level (x.reloaded true)
  | .none, _ | .bool _, _ | .int _, _ | .float _, _ => rfl
  | .str s, level => by simp only [Data.reloaded, reread_reread]
  | .list xs, level => by
    have hall := encode_reloadedItems l xs
    have hitems : (xs.map fun x => encode l (level + 1) ((x.reloaded true).reloaded true)) =
        xs.map fun x => encode l (level + 1) (x.reloaded true) :=
      List.map_congr_left fun x hx => hall x hx (level + 1)
    simpa [Data.reloaded, reloadedItems_eq, encode, encodeItems_eq, Function.comp_def] using
      by rw [hitems]
  | .dict ms, level => by
    obtain ⟨hnodup, hfixed⟩ := reloadedDict_keys ms
    rw [reloaded_dict, reloaded_dict, reloadedDict_of_fixed hnodup hfixed]
    have hvalues (m) (hm : m ∈ Data.reloadedDict true ms) :
        encode l (level + 1) (m.2.reloaded true) = encode l (level + 1) m.2 := by
      obtain ⟨n, hn, rfl⟩ := List.mem_map.mp (mem_dictOfPairs hm)
      exact encode_reloadedMembers l ms n ((sortMembers_perm ms).mem_iff.mp hn) (level + 1)
    generalize Data.reloadedDict true ms = ns at hvalues
    have hprinted : encodeMembers l (level + 1)
        ((sortMembers ns).map fun m => (m.1, m.2.reloaded true)) =
        sortMembers (encodeMembers l (level + 1) ns) := by
      rw [encodeMembers_eq, encodeMembers_eq, sortMembers_map, List.map_map]
      exact List.map_congr_left fun m hm =>
        congrArg (Prod.mk m.1) (hvalues m ((sortMembers_perm ns).mem_iff.mp hm))
    refine encode_dict_congr ?_ ?_
    · rw [List.isEmpty_map, (sortMembers_perm ns).isEmpty_eq]
    · rw [hprinted, sortMembers_of_pairwise (sortMembers_pairwise _)]

/-- The same for the items of a list. -/
theorem encode_reloadedItems (l : Layout) : ∀ xs : List (Data F), ∀ x ∈ xs, ∀ level,
    encode l level ((x.reloaded true).reloaded true) = encode l level (x.reloaded true)
  | [] => by simp
  | x :: xs => List.forall_mem_cons.mpr ⟨encode_reloaded l x, encode_reloadedItems l xs⟩

/-- The same for the values of a dictionary. -/
theorem encode_reloadedMembers (l : Layout) : ∀ ms : List (Str × Data F), ∀ m ∈ ms, ∀ level,
    encode l level ((m.2.reloaded true).reloaded true) = encode l level (m.2.reloaded true)
  | [] => by simp
  | (_, x) :: ms => List.forall_mem_cons.mpr ⟨encode_reloaded l x, encode_reloadedMembers l ms⟩

end

end Python
