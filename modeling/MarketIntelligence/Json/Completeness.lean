import MarketIntelligence.Json.Soundness

/-!
# The decoder accepts the grammar

On a text of the grammar the decoder computes exactly what the hooks build for
the parse tree, exceptions of the hooks included. A scanner reads as far as it
can, so a number is only found whole when the text after it cannot extend it;
this is the condition `Stops`. Together with soundness this decides acceptance:
`loads` returns exactly on the texts of the grammar that stay within the
recursion limit and whose hooks all return.
-/

namespace Json

open Python

variable {ε V : Type}

/-! ### Whitespace and prefixes -/

/-- Whitespace in front is skipped. -/
theorem skipWs_append {w s : Str} (hw : Ws w) : skipWs (w ++ s) = skipWs s :=
  List.dropWhile_append_of_pos hw

/-- Nothing is skipped before a character that is not whitespace. -/
theorem skipWs_cons {c : Chr} {s : Str} (hc : isWs c = false) : skipWs (c :: s) = c :: s := by
  simp [skipWs, hc]

/-- Whitespace alone is skipped whole. -/
theorem skipWs_eq_nil {w : Str} (hw : Ws w) : skipWs w = [] := by
  simpa [skipWs] using skipWs_append (s := []) hw

/-- A text with another first character does not have a prescribed beginning. -/
theorem dropPrefix?_of_ne {c d : Chr} {p s : Str} (h : c ≠ d) :
    dropPrefix? (c :: p) (d :: s) = none := by simp [dropPrefix?, h]

/-! ### Numbers -/

/-- A text that cannot extend a number: it is empty, or begins with a character
that no number continues with. -/
def Stops (rest : Str) : Prop :=
  ∀ c, rest.head? = some c → c.isDigit = false ∧ c ≠ ('.' : Char) ∧ c ≠ ('e' : Char) ∧
    c ≠ ('E' : Char)

/-- The end of the text stops a number. -/
theorem stops_nil : Stops [] := by simp [Stops]

/-- Whitespace in front keeps a number from being extended. -/
theorem stops_append {w rest : Str} (hw : Ws w) (hrest : Stops rest) : Stops (w ++ rest) := by
  cases w with
  | nil => exact hrest
  | cons e w =>
    intro d hd
    obtain rfl : e = d := by simpa using hd
    have hws := hw e (by simp)
    have hne {c : Chr} (hc : isWs c = false) : e ≠ c := by rintro rfl; simp [hws] at hc
    refine ⟨?_, hne (by decide), hne (by decide), hne (by decide)⟩
    simp only [isWs, Bool.or_eq_true, beq_iff_eq] at hws
    simp only [Chr.isDigit, Bool.and_eq_false_iff, decide_eq_false_iff_not]
    omega

/-- Whitespace and punctuation stop a number. -/
theorem stops_append_cons {w : Str} {c : Chr} (hw : Ws w)
    (hc : c = (',' : Char) ∨ c = (']' : Char) ∨ c = ('}' : Char)) (rest : Str) :
    Stops (w ++ c :: rest) := by
  refine stops_append hw fun d hd => ?_
  obtain rfl : c = d := by simpa using hd
  rcases hc with rfl | rfl | rfl <;> decide

/-- Digits are scanned up to the first character that is not a digit. -/
theorem scanDigits_of_append {d rest : Str} (hd : ∀ c ∈ d, c.isDigit = true)
    (hrest : ∀ c, rest.head? = some c → c.isDigit = false) :
    scanDigits (d ++ rest) = (d, rest) := by
  have hrest' : rest.takeWhile Chr.isDigit = [] ∧ rest.dropWhile Chr.isDigit = rest := by
    cases rest with
    | nil => simp
    | cons c rest => simp [hrest c rfl]
  simp only [scanDigits, List.takeWhile_append_of_pos hd, List.dropWhile_append_of_pos hd, hrest',
    List.append_nil]

/-- A natural number of the grammar is scanned whole. -/
theorem scanNatural_complete {n rest : Str} (hn : Natural n)
    (hrest : ∀ c, rest.head? = some c → c.isDigit = false) :
    scanNatural (n ++ rest) = some (n, rest) := by
  rcases hn with rfl | ⟨⟨hne, hdigits⟩, hzero⟩
  · rfl
  · cases n with
    | nil => exact absurd rfl hne
    | cons c n =>
      have hc : c ≠ ('0' : Char) := by simpa using hzero
      have htail := scanDigits_of_append (fun d hd => hdigits d (List.mem_cons_of_mem _ hd)) hrest
      simp [scanNatural, hc, hdigits c (by simp), htail]

/-- A fraction of the grammar is scanned whole. -/
theorem scanFrac_complete {f rest : Str} (hf : f = [] ∨ FracText f)
    (hrest : ∀ c, rest.head? = some c → c.isDigit = false ∧ c ≠ ('.' : Char)) :
    scanFrac (f ++ rest) = (f, rest) := by
  rcases hf with rfl | ⟨d, rfl, hne, hdigits⟩
  · unfold scanFrac
    rw [List.nil_append]
    split
    · next c d s =>
      rw [if_neg fun h => (hrest c rfl).2 h.1]
    · rfl
  · cases d with
    | nil => exact absurd rfl hne
    | cons c d =>
      have htail := scanDigits_of_append (fun d hd => hdigits d (List.mem_cons_of_mem _ hd))
        fun c hc => (hrest c hc).1
      simp [scanFrac, hdigits c (by simp), htail]

/-- An exponent of the grammar is scanned whole. -/
theorem scanExp_complete {e rest : Str} (he : e = [] ∨ ExpText e) (hrest : Stops rest) :
    scanExp (e ++ rest) = (e, rest) := by
  rcases he with rfl | ⟨mark, sign, d, rfl, hmark, hsign, hne, hdigits⟩
  · unfold scanExp
    rw [List.nil_append]
    split
    · next c s =>
      obtain ⟨-, -, hsmall, hcapital⟩ := hrest c rfl
      rw [if_neg (by simp [hsmall, hcapital])]
    · rfl
  · have hscan := scanDigits_of_append hdigits fun c hc => (hrest c hc).1
    have hsignScan : scanSign (sign ++ (d ++ rest)) = (sign, d ++ rest) := by
      rcases hsign with rfl | rfl | rfl
      · cases d with
        | nil => exact absurd rfl hne
        | cons c d =>
          have hc := hdigits c (by simp)
          have hplus : c ≠ ('+' : Char) := by rintro rfl; exact absurd hc (by decide)
          have hminus : c ≠ ('-' : Char) := by rintro rfl; exact absurd hc (by decide)
          simp [scanSign, hplus, hminus]
      · simp [scanSign, lit]
      · simp [scanSign, lit]
    simp [scanExp, hmark, hsignScan, hscan, hne]

/-- A digit, a mark of an exponent or a point is not a minus. -/
theorem scanMinus_of_natural {n : Str} (hn : Natural n) (rest : Str) :
    scanMinus (n ++ rest) = ([], n ++ rest) := by
  rcases hn with rfl | ⟨⟨hne, hdigits⟩, -⟩
  · rfl
  · cases n with
    | nil => exact absurd rfl hne
    | cons c n =>
      have hdigit := hdigits c (by simp)
      have hc : c ≠ ('-' : Char) := by rintro rfl; exact absurd hdigit (by decide)
      simp [scanMinus, hc]

/-- A number of the grammar is matched whole, with the kind it has. -/
theorem matchNumber_complete {i f e rest : Str} (hi : IntText i) (hf : f = [] ∨ FracText f)
    (he : e = [] ∨ ExpText e) (hrest : Stops rest) :
    matchNumber (i ++ (f ++ (e ++ rest))) = some ((!(f ++ e).isEmpty, i ++ (f ++ e)), rest) := by
  have hafterFrac : ∀ c, (e ++ rest).head? = some c → c.isDigit = false ∧ c ≠ ('.' : Char) := by
    rcases he with rfl | ⟨mark, sign, d, rfl, hmark, -⟩
    · exact fun c hc => ⟨(hrest c hc).1, (hrest c hc).2.1⟩
    · rintro c hc
      obtain rfl : mark = c := by simpa using hc
      rcases hmark with rfl | rfl <;> decide
  have hafterInt : ∀ c, (f ++ (e ++ rest)).head? = some c → c.isDigit = false := by
    rcases hf with rfl | ⟨d, rfl, -⟩
    · exact fun c hc => (hafterFrac c hc).1
    · rintro c hc
      obtain rfl : ('.' : Chr) = c := by simpa using hc
      decide
  have hfrac := scanFrac_complete hf hafterFrac
  have hexp := scanExp_complete he hrest
  rcases hi with hn | ⟨n, rfl, hn⟩
  · have hminus := scanMinus_of_natural hn (f ++ (e ++ rest))
    simp [matchNumber, hminus, scanNatural_complete hn hafterInt, hfrac, hexp]
  · have hminus : scanMinus (('-' : Chr) :: n ++ (f ++ (e ++ rest))) =
        (lit "-", n ++ (f ++ (e ++ rest))) := rfl
    simp only [matchNumber, hminus, scanNatural_complete hn hafterInt, hfrac, hexp]
    rfl

/-! ### Strings and member names -/

/-- A string of the grammar is scanned up to its closing quote. -/
theorem scanString_complete {t : Str} {ps : List Piece} (h : StringBody t ps) (rest : Str) :
    scanString (ε := ε) (t ++ ('"' : Chr) :: rest) = .ok (ps, rest) := by
  have hslashQuote : (('\\' : Char) : Chr) ≠ ('"' : Char) := by decide
  induction h with
  | nil =>
    rw [List.nil_append, scanString.eq_def]
    simp
  | plain hcontrol hquote hslash _ ih =>
    rw [List.cons_append, scanString.eq_def]
    simp [hquote, hslash, Nat.not_lt.mpr hcontrol, ih]
  | @escape e c t ps he _ ih =>
    have hu : e ≠ ('u' : Char) := by
      rintro rfl
      have hnone : simpleEscape ('u' : Char) = none := by decide
      simp [hnone] at he
    rw [List.cons_append, List.cons_append, scanString.eq_def]
    simp [hslashQuote, hu, he, ih]
  | @unicode a b c d n t ps hhex _ ih =>
    obtain ⟨x, s, hxs⟩ : ∃ x s, t ++ ('"' : Chr) :: rest = x :: s := by
      cases t <;> simp
    rw [hxs] at ih
    rw [scanString.eq_def]
    simp [hslashQuote, hxs, hhex, ih]

/-- A member name of the grammar is scanned with its colon and the whitespace
after it. -/
theorem scanName_complete {t k s : Str} (h : Name t k) :
    scanName (ε := ε) (skipWs (t ++ s)) = .ok (k, skipWs s) := by
  obtain ⟨hw₁, hbody, hw₂, hw₃⟩ := h
  next w₁ t w₂ w₃ ps =>
  have hquote : isWs (('"' : Char) : Chr) = false := by decide
  have hcolon : isWs ((':' : Char) : Chr) = false := by decide
  have hstring := scanString_complete (ε := ε) hbody (w₂ ++ (':' : Chr) :: (w₃ ++ s))
  have hafter : scanColon (ε := ε) (w₂ ++ (':' : Chr) :: (w₃ ++ s)) = .ok (skipWs s) := by
    simp [scanColon, skipWs_append hw₂, skipWs_cons hcolon, skipWs_append hw₃]
  simp only [List.append_assoc, List.cons_append, skipWs_append hw₁, skipWs_cons hquote,
    scanName, if_true, hstring, ok_bind, hafter, pure_eq_ok]

/-! ### Atoms -/

/-- A number of the grammar begins with a minus or a digit. -/
theorem intText_head {t : Str} (h : IntText t) :
    ∃ c u, t = c :: u ∧ (c.isDigit = true ∨ c = ('-' : Char) ∧ ∃ d v, u = d :: v ∧
      d.isDigit = true) := by
  have hnatural {n : Str} (hn : Natural n) : ∃ c u, n = c :: u ∧ c.isDigit = true := by
    rcases hn with rfl | ⟨⟨hne, hdigits⟩, -⟩
    · exact ⟨_, _, rfl, by decide⟩
    · cases n with
      | nil => exact absurd rfl hne
      | cons c n => exact ⟨c, n, rfl, hdigits c (by simp)⟩
  rcases h with hn | ⟨n, rfl, hn⟩
  · obtain ⟨c, u, rfl, hc⟩ := hnatural hn
    exact ⟨c, u, rfl, Or.inl hc⟩
  · obtain ⟨c, u, rfl, hc⟩ := hnatural hn
    exact ⟨_, _, rfl, Or.inr ⟨rfl, c, u, rfl, hc⟩⟩

/-- Nothing but a number scanner looks at a text that begins like a number. -/
theorem scanAtom_of_number (h : Hooks ε V) {i s : Str} (hi : IntText i) :
    scanAtom h (i ++ s) = scanNumber h (i ++ s) := by
  obtain ⟨c, u, rfl, hc⟩ := intText_head hi
  have hne {d : Chr} (hd : d.isDigit = false) (hminus : d ≠ ('-' : Char)) : d ≠ c := by
    rintro rfl
    rcases hc with hc | ⟨hc, -⟩
    · simp [hc] at hd
    · exact hminus hc
  have hdrop {d : Chr} {p : Str} (hd : d.isDigit = false) (hminus : d ≠ ('-' : Char)) :
      dropPrefix? (d :: p) (c :: (u ++ s)) = none := dropPrefix?_of_ne (hne hd hminus)
  have hinfinity : dropPrefix? (lit "-Infinity") (c :: (u ++ s)) = none := by
    rcases hc with hdigit | ⟨-, d, v, rfl, hd⟩
    · exact dropPrefix?_of_ne (by rintro rfl; exact absurd hdigit (by decide))
    · have hI : (('I' : Char) : Chr) ≠ d := by rintro rfl; exact absurd hd (by decide)
      by_cases hcm : (('-' : Char) : Chr) = c
      · subst hcm
        have htail := dropPrefix?_of_ne (p := lit "nfinity") (s := v ++ s) hI
        exact htail
      · exact dropPrefix?_of_ne hcm
  have hnull : dropPrefix? (lit "null") (c :: (u ++ s)) = none := hdrop (by decide) (by decide)
  have htrue : dropPrefix? (lit "true") (c :: (u ++ s)) = none := hdrop (by decide) (by decide)
  have hfalse : dropPrefix? (lit "false") (c :: (u ++ s)) = none := hdrop (by decide) (by decide)
  have hnan : dropPrefix? (lit "NaN") (c :: (u ++ s)) = none := hdrop (by decide) (by decide)
  have hinf : dropPrefix? (lit "Infinity") (c :: (u ++ s)) = none := hdrop (by decide) (by decide)
  simp [scanAtom, hnull, htrue, hfalse, constants, hnan, hinf, hinfinity]

/-- A value and the text after it, from what the hooks build for its tree. -/
def resultWith {α : Type} (x : Except ε α) (rest : Str) : Except (Failure ε) (α × Str) :=
  (ofHook x).map fun v => (v, rest)

/-- An integer of the grammar is scanned whole. -/
theorem scanAtom_int (h : Hooks ε V) {t rest : Str} (ht : IntText t) (hrest : Stops rest) :
    scanAtom h (t ++ rest) = resultWith (h.int t) rest := by
  have hmatch := matchNumber_complete (f := []) (e := []) ht (Or.inl rfl) (Or.inl rfl) hrest
  rw [scanAtom_of_number h ht, scanNumber]
  simp only [List.nil_append, List.append_nil] at hmatch
  simp only [hmatch]
  cases h.int t <;> rfl

/-- A float of the grammar is scanned whole. -/
theorem scanAtom_float (h : Hooks ε V) {t rest : Str} (ht : FloatText t) (hrest : Stops rest) :
    scanAtom h (t ++ rest) = resultWith (h.float t) rest := by
  obtain ⟨i, f, e, rfl, hi, hf, he, hne⟩ := ht
  have hmatch := matchNumber_complete hi hf he hrest
  have hempty : (f ++ e).isEmpty = false := by simpa using hne
  rw [List.append_assoc, List.append_assoc, scanAtom_of_number h hi, scanNumber, hmatch]
  simp only [hempty, Bool.not_false, if_true]
  cases h.float (i ++ (f ++ e)) <;> rfl

/-- A non-finite token is scanned whole. -/
theorem scanAtom_constant (h : Hooks ε V) {t : Str} (ht : t ∈ constants) (rest : Str) :
    scanAtom h (t ++ rest) = resultWith (h.constant t) rest := by
  have key : constants.find? (fun u => (dropPrefix? u (t ++ rest)).isSome) = some t ∧
      dropPrefix? (lit "null") (t ++ rest) = none ∧ dropPrefix? (lit "true") (t ++ rest) = none ∧
      dropPrefix? (lit "false") (t ++ rest) = none := by
    simp only [constants, List.mem_cons, List.not_mem_nil, or_false] at ht
    rcases ht with rfl | rfl | rfl <;>
      refine ⟨?_, dropPrefix?_of_ne (by decide), dropPrefix?_of_ne (by decide),
        dropPrefix?_of_ne (by decide)⟩ <;> rfl
  obtain ⟨hfind, hnull, htrue, hfalse⟩ := key
  simp only [scanAtom, hnull, htrue, hfalse, hfind, List.drop_left]
  cases h.constant t <;> rfl

/-! ### Values -/

/-- A hook's exception passes through the decoder. -/
@[simp] theorem resultWith_error {α : Type} (e : ε) (rest : Str) :
    resultWith (.error e : Except ε α) rest = .error (.hook e) := rfl

/-- A hook's value is returned with the text after it. -/
@[simp] theorem resultWith_ok {α : Type} (v : α) (rest : Str) :
    resultWith (.ok v : Except ε α) rest = .ok (v, rest) := rfl

/-- With fuel left, a text that begins neither a string nor a container is left
to the scanner of atoms. -/
theorem scanOnce_atom (h : Hooks ε V) {fuel depth : ℕ} {c : Chr} {s : Str} (hfuel : 0 < fuel)
    (hquote : c ≠ ('"' : Char)) (hbrace : c ≠ ('{' : Char)) (hbracket : c ≠ ('[' : Char)) :
    scanOnce h fuel depth (c :: s) = scanAtom h (c :: s) := by
  obtain ⟨fuel, rfl⟩ : ∃ n, fuel = n + 1 := ⟨fuel - 1, by omega⟩
  simp only [scanOnce, if_neg hquote, if_neg hbrace, if_neg hbracket]

/-- With fuel left, a text that begins like a number is left to the scanner of
atoms. -/
theorem scanOnce_number (h : Hooks ε V) {fuel depth : ℕ} {i s : Str} (hi : IntText i)
    (hfuel : 2 * (i ++ s).length ≤ fuel) (rest : Str) :
    scanOnce h fuel depth (i ++ s ++ rest) = scanAtom h (i ++ s ++ rest) := by
  obtain ⟨c, u, rfl, hc⟩ := intText_head hi
  have hne {d : Chr} (hd : d.isDigit = false) (hminus : d ≠ ('-' : Char)) : c ≠ d := by
    rintro rfl
    rcases hc with hc | ⟨hc, -⟩
    · simp [hc] at hd
    · exact hminus hc
  have hpos : 0 < fuel := lt_of_lt_of_le (by simp) hfuel
  exact scanOnce_atom h hpos (hne (by decide) (by decide)) (hne (by decide) (by decide))
    (hne (by decide) (by decide))

/-- A value begins with an ASCII character that is neither whitespace nor closes
a container. -/
theorem Value.head {t : Str} {x : Tree} (h : Value t x) :
    ∃ c u, t = c :: u ∧ isWs c = false ∧ c ≠ (']' : Char) ∧ c.ord < 0x80 := by
  have hnumber {i : Str} (hi : IntText i) :
      ∃ c u, i = c :: u ∧ isWs c = false ∧ c ≠ (']' : Char) ∧ c.ord < 0x80 := by
    obtain ⟨c, u, rfl, hc⟩ := intText_head hi
    refine ⟨c, u, rfl, ?_⟩
    rcases hc with hc | ⟨rfl, -⟩
    · have hne {d : Chr} (hd : d.isDigit = false) : c ≠ d := by rintro rfl; simp [hc] at hd
      simp only [Chr.isDigit, Bool.and_eq_true, decide_eq_true_eq] at hc
      refine ⟨?_, hne (by decide), by omega⟩
      simp only [isWs, Bool.or_eq_false_iff, beq_eq_false_iff_ne]
      omega
    · decide
  cases h with
  | int hi => exact hnumber hi
  | float hf =>
    obtain ⟨i, f, e, rfl, hi, -⟩ := hf
    obtain ⟨c, u, rfl, hc⟩ := hnumber hi
    exact ⟨c, _, rfl, hc⟩
  | constant hc =>
    simp only [constants, List.mem_cons, List.not_mem_nil, or_false] at hc
    rcases hc with rfl | rfl | rfl <;> exact ⟨_, _, rfl, by decide⟩
  | _ => exact ⟨_, _, rfl, by decide⟩

/-- Whitespace before a value is skipped and nothing else. -/
theorem Value.skipWs_append {t : Str} {x : Tree} (h : Value t x) (s : Str) :
    skipWs (t ++ s) = t ++ s := by
  obtain ⟨c, u, rfl, hws, -⟩ := h.head
  exact skipWs_cons hws

/-- The items of an array begin, after whitespace, with something other than a
closing bracket. -/
theorem Items.head {t : Str} {xs : List Tree} (h : Items t xs) (s : Str) :
    ∃ c u, skipWs (t ++ s) = c :: u ∧ c ≠ (']' : Char) := by
  cases h with
  | one hw hx _ | cons hw hx _ _ =>
    obtain ⟨c, u, rfl, hws, hbracket, -⟩ := hx.head
    exact ⟨c, _, by rw [List.append_assoc, Json.skipWs_append hw]; exact skipWs_cons hws, hbracket⟩

/-- The members of an object begin, after whitespace, with a quote. -/
theorem Members.head {t : Str} {ms : List (Str × Tree)} (h : Members t ms) (s : Str) :
    ∃ u, skipWs (t ++ s) = ('"' : Chr) :: u := by
  have hquote : isWs (('"' : Char) : Chr) = false := by decide
  cases h with
  | one hk _ _ | cons hk _ _ _ =>
    obtain ⟨hw, -, -, -⟩ := hk
    exact ⟨_, by simp only [List.append_assoc, Json.skipWs_append hw, List.cons_append,
      skipWs_cons hquote]; rfl⟩

/-- The item scanner after one item whose scan is known. -/
theorem scanItems_step (h : Hooks ε V) {fuel depth : ℕ} {t s : Str} {x : Tree}
    (hscan : scanOnce h fuel depth (t ++ s) = resultWith (x.fold h) s) :
    scanItems h (fuel + 1) depth (t ++ s) = (do
      let v ← ofHook (x.fold h)
      match skipWs s with
      | c :: s =>
          if c = (']' : Char) then .ok ([v], s)
          else if c = (',' : Char) then do
            let (vs, rest) ← scanItems h fuel depth (skipWs s)
            return (v :: vs, rest)
          else .error (.decode .expectingComma)
      | [] => .error (.decode .expectingComma)) := by
  rw [scanItems, hscan]
  cases x.fold h <;> rfl

/-- The member scanner after one member whose name and value are known. -/
theorem scanMembers_step (h : Hooks ε V) {fuel depth : ℕ} {n t s : Str} {k : Str} {x : Tree}
    (hname : Name n k) (hx : Value t x)
    (hscan : scanOnce h fuel depth (t ++ s) = resultWith (x.fold h) s) :
    scanMembers h (fuel + 1) depth (skipWs (n ++ (t ++ s))) = (do
      let v ← ofHook (x.fold h)
      match skipWs s with
      | c :: s =>
          if c = ('}' : Char) then .ok ([(k, v)], s)
          else if c = (',' : Char) then do
            let (ms, rest) ← scanMembers h fuel depth (skipWs s)
            return ((k, v) :: ms, rest)
          else .error (.decode .expectingComma)
      | [] => .error (.decode .expectingComma)) := by
  rw [scanMembers, scanName_complete hname, hx.skipWs_append, ok_bind]
  dsimp only
  rw [hscan]
  cases x.fold h <;> rfl

/-- A nonempty object whose members' scan is known. -/
theorem scanOnce_object (h : Hooks ε V) {fuel depth : ℕ} {t rest : Str} {ms : List (Str × Tree)}
    (hms : Members t ms) (hscan : scanMembers h fuel depth (skipWs (t ++ ('}' : Chr) :: rest)) =
      resultWith (foldMembers h ms) rest) :
    scanOnce h (fuel + 1) (depth + 1) (('{' : Chr) :: (t ++ ('}' : Chr) :: rest)) =
      resultWith (Tree.fold h (.object ms)) rest := by
  have hbraceQuote : (('{' : Char) : Chr) ≠ ('"' : Char) := by decide
  have hquoteBrace : (('"' : Char) : Chr) ≠ ('}' : Char) := by decide
  obtain ⟨u, hu⟩ := hms.head (('}' : Chr) :: rest)
  rw [hu] at hscan
  simp only [scanOnce, if_neg hbraceQuote, if_true, hu, if_neg hquoteBrace, hscan, Tree.fold]
  cases foldMembers h ms with
  | error e => rfl
  | ok vs => cases hv : h.object vs <;> simp [hv, ofHook]

/-- A nonempty array whose items' scan is known. -/
theorem scanOnce_array (h : Hooks ε V) {fuel depth : ℕ} {t rest : Str} {xs : List Tree}
    (hxs : Items t xs) (hscan : scanItems h fuel depth (skipWs (t ++ (']' : Chr) :: rest)) =
      resultWith (foldItems h xs) rest) :
    scanOnce h (fuel + 1) (depth + 1) (('[' : Chr) :: (t ++ (']' : Chr) :: rest)) =
      resultWith (Tree.fold h (.array xs)) rest := by
  have hbracketQuote : (('[' : Char) : Chr) ≠ ('"' : Char) := by decide
  have hbracketBrace : (('[' : Char) : Chr) ≠ ('{' : Char) := by decide
  obtain ⟨c, u, hu, hc⟩ := hxs.head ((']' : Chr) :: rest)
  rw [hu] at hscan
  simp only [scanOnce, if_neg hbracketQuote, if_neg hbracketBrace, if_true, hu, if_neg hc, hscan,
    Tree.fold]
  cases foldItems h xs <;> rfl

mutual

/-- On a value of the grammar the scanner computes what the hooks build for its
tree. The induction follows the derivation. -/
theorem Value.scanOnce_eq (h : Hooks ε V) {t : Str} {x : Tree} :
    Value t x → ∀ (fuel depth : ℕ) (rest : Str), 2 * t.length ≤ fuel → x.depth ≤ depth →
      Stops rest → scanOnce h fuel depth (t ++ rest) = resultWith (x.fold h) rest
  | .nullToken, fuel, depth, rest, hfuel, _, _ => by
    have hpos : 0 < fuel := lt_of_lt_of_le (by decide) hfuel
    exact (scanOnce_atom h hpos (by decide) (by decide) (by decide)).trans rfl
  | .trueToken, fuel, depth, rest, hfuel, _, _ => by
    have hpos : 0 < fuel := lt_of_lt_of_le (by decide) hfuel
    exact (scanOnce_atom h hpos (by decide) (by decide) (by decide)).trans rfl
  | .falseToken, fuel, depth, rest, hfuel, _, _ => by
    have hpos : 0 < fuel := lt_of_lt_of_le (by decide) hfuel
    exact (scanOnce_atom h hpos (by decide) (by decide) (by decide)).trans rfl
  | @Value.int t ht, fuel, depth, rest, hfuel, _, hrest => by
    have hatom : scanOnce h fuel depth (t ++ [] ++ rest) = scanAtom h (t ++ [] ++ rest) :=
      scanOnce_number h ht (by simpa using hfuel) rest
    rw [List.append_nil] at hatom
    exact hatom.trans (scanAtom_int h ht hrest)
  | .float ht, fuel, depth, rest, hfuel, _, hrest => by
    have hatom := scanAtom_float h ht hrest
    obtain ⟨i, f, e, rfl, hi, -⟩ := ht
    exact (scanOnce_number h hi hfuel rest).trans hatom
  | .constant ht, fuel, depth, rest, hfuel, _, _ => by
    have hatom := scanAtom_constant h ht rest
    simp only [constants, List.mem_cons, List.not_mem_nil, or_false] at ht
    rcases ht with rfl | rfl | rfl <;>
      exact (scanOnce_atom h (lt_of_lt_of_le (by decide) hfuel) (by decide) (by decide)
        (by decide)).trans hatom
  | @Value.string t ps hbody, fuel, depth, rest, hfuel, _, _ => by
    obtain ⟨fuel, rfl⟩ : ∃ n, fuel = n + 1 := ⟨fuel - 1, by simp at hfuel; omega⟩
    have hscan := scanString_complete (ε := ε) hbody rest
    simp [scanOnce, lit, hscan, Tree.fold]
  | @Value.emptyArray w hw, fuel, depth, rest, hfuel, hdepth, _ => by
    obtain ⟨fuel, rfl⟩ : ∃ n, fuel = n + 1 := ⟨fuel - 1, by simp at hfuel; omega⟩
    obtain ⟨depth, rfl⟩ : ∃ n, depth = n + 1 := ⟨depth - 1, by simp [Tree.depth] at hdepth; omega⟩
    have hbracketQuote : (('[' : Char) : Chr) ≠ ('"' : Char) := by decide
    have hbracketBrace : (('[' : Char) : Chr) ≠ ('{' : Char) := by decide
    have hskip : skipWs (w ++ (']' : Chr) :: rest) = (']' : Chr) :: rest :=
      (Json.skipWs_append hw).trans (skipWs_cons (by decide))
    simp [scanOnce, lit, hbracketQuote, hbracketBrace, hskip, Tree.fold, foldItems]
  | @Value.array t xs hxs, fuel, depth, rest, hfuel, hdepth, _ => by
    obtain ⟨fuel, rfl⟩ : ∃ n, fuel = n + 1 := ⟨fuel - 1, by simp at hfuel; omega⟩
    obtain ⟨depth, rfl⟩ : ∃ n, depth = n + 1 := ⟨depth - 1, by simp [Tree.depth] at hdepth; omega⟩
    have hscan := Items.scanItems_eq h hxs fuel depth rest
      (by simp [lit] at hfuel; omega) (by simpa [Tree.depth] using hdepth)
    simpa [lit] using scanOnce_array h hxs hscan
  | @Value.emptyObject w hw, fuel, depth, rest, hfuel, hdepth, _ => by
    obtain ⟨fuel, rfl⟩ : ∃ n, fuel = n + 1 := ⟨fuel - 1, by simp at hfuel; omega⟩
    obtain ⟨depth, rfl⟩ : ∃ n, depth = n + 1 := ⟨depth - 1, by simp [Tree.depth] at hdepth; omega⟩
    have hbraceQuote : (('{' : Char) : Chr) ≠ ('"' : Char) := by decide
    have hskip : skipWs (w ++ ('}' : Chr) :: rest) = ('}' : Chr) :: rest :=
      (Json.skipWs_append hw).trans (skipWs_cons (by decide))
    cases hv : h.object [] <;>
      simp [scanOnce, lit, hbraceQuote, hskip, Tree.fold, foldMembers, hv, ofHook]
  | @Value.object t ms hms, fuel, depth, rest, hfuel, hdepth, _ => by
    obtain ⟨fuel, rfl⟩ : ∃ n, fuel = n + 1 := ⟨fuel - 1, by simp at hfuel; omega⟩
    obtain ⟨depth, rfl⟩ : ∃ n, depth = n + 1 := ⟨depth - 1, by simp [Tree.depth] at hdepth; omega⟩
    have hscan := Members.scanMembers_eq h hms fuel depth rest
      (by simp [lit] at hfuel; omega) (by simpa [Tree.depth] using hdepth)
    simpa [lit] using scanOnce_object h hms hscan

/-- On the items of an array the scanner computes what the hooks build. -/
theorem Items.scanItems_eq (h : Hooks ε V) {t : Str} {xs : List Tree} :
    Items t xs → ∀ (fuel depth : ℕ) (rest : Str), 2 * t.length + 1 ≤ fuel →
      depthItems xs ≤ depth →
      scanItems h fuel depth (skipWs (t ++ (']' : Chr) :: rest)) = resultWith (foldItems h xs) rest
  | @Items.one w₁ t w₂ x hw₁ hx hw₂, fuel, depth, rest, hfuel, hdepth => by
    obtain ⟨fuel, rfl⟩ : ∃ n, fuel = n + 1 := ⟨fuel - 1, by omega⟩
    have hscan := Value.scanOnce_eq h hx fuel depth _
      (by simp at hfuel; omega) (le_trans (le_max_left _ _) hdepth)
      (stops_append_cons hw₂ (Or.inr (Or.inl rfl)) rest)
    have hclose : skipWs (w₂ ++ (']' : Chr) :: rest) = (']' : Chr) :: rest :=
      (Json.skipWs_append hw₂).trans (skipWs_cons (by decide))
    rw [List.append_assoc, List.append_assoc, Json.skipWs_append hw₁, hx.skipWs_append,
      scanItems_step h hscan, hclose]
    cases hv : x.fold h <;> simp [foldItems, hv, ofHook]
  | @Items.cons w₁ t w₂ u x xs hw₁ hx hw₂ hxs, fuel, depth, rest, hfuel, hdepth => by
    obtain ⟨fuel, rfl⟩ : ∃ n, fuel = n + 1 := ⟨fuel - 1, by omega⟩
    have hscan := Value.scanOnce_eq h hx fuel depth _
      (by simp at hfuel; omega) (le_trans (le_max_left _ _) hdepth)
      (stops_append_cons hw₂ (Or.inl rfl) (u ++ (']' : Chr) :: rest))
    have htail := Items.scanItems_eq h hxs fuel depth rest
      (by simp at hfuel; omega) (le_trans (le_max_right _ _) hdepth)
    have hcomma : skipWs (w₂ ++ (',' : Chr) :: (u ++ (']' : Chr) :: rest)) =
        (',' : Chr) :: (u ++ (']' : Chr) :: rest) :=
      (Json.skipWs_append hw₂).trans (skipWs_cons (by decide))
    have hne : ((',' : Char) : Chr) ≠ (']' : Char) := by decide
    simp only [List.append_assoc, List.cons_append]
    rw [Json.skipWs_append hw₁, hx.skipWs_append, scanItems_step h hscan, hcomma]
    simp only [if_neg hne, if_true, htail]
    cases hv : x.fold h <;> cases hvs : foldItems h xs <;> simp [foldItems, hv, hvs, ofHook]

/-- On the members of an object the scanner computes what the hooks build. -/
theorem Members.scanMembers_eq (h : Hooks ε V) {t : Str} {ms : List (Str × Tree)} :
    Members t ms → ∀ (fuel depth : ℕ) (rest : Str), 2 * t.length + 1 ≤ fuel →
      depthMembers ms ≤ depth →
      scanMembers h fuel depth (skipWs (t ++ ('}' : Chr) :: rest)) =
        resultWith (foldMembers h ms) rest
  | @Members.one n t w k x hk hx hw, fuel, depth, rest, hfuel, hdepth => by
    obtain ⟨fuel, rfl⟩ : ∃ n, fuel = n + 1 := ⟨fuel - 1, by omega⟩
    have hscan := Value.scanOnce_eq h hx fuel depth _
      (by simp at hfuel; omega) (le_trans (le_max_left _ _) hdepth)
      (stops_append_cons hw (Or.inr (Or.inr rfl)) rest)
    have hclose : skipWs (w ++ ('}' : Chr) :: rest) = ('}' : Chr) :: rest :=
      (Json.skipWs_append hw).trans (skipWs_cons (by decide))
    rw [List.append_assoc, List.append_assoc, scanMembers_step h hk hx hscan, hclose]
    cases hv : x.fold h <;> simp [foldMembers, hv, ofHook]
  | @Members.cons n t w u k x ms hk hx hw hms, fuel, depth, rest, hfuel, hdepth => by
    obtain ⟨fuel, rfl⟩ : ∃ n, fuel = n + 1 := ⟨fuel - 1, by omega⟩
    have hscan := Value.scanOnce_eq h hx fuel depth _
      (by simp at hfuel; omega) (le_trans (le_max_left _ _) hdepth)
      (stops_append_cons hw (Or.inl rfl) (u ++ ('}' : Chr) :: rest))
    have htail := Members.scanMembers_eq h hms fuel depth rest
      (by simp at hfuel; omega) (le_trans (le_max_right _ _) hdepth)
    have hcomma : skipWs (w ++ (',' : Chr) :: (u ++ ('}' : Chr) :: rest)) =
        (',' : Chr) :: (u ++ ('}' : Chr) :: rest) :=
      (Json.skipWs_append hw).trans (skipWs_cons (by decide))
    have hne : ((',' : Char) : Chr) ≠ ('}' : Char) := by decide
    simp only [List.append_assoc, List.cons_append]
    rw [scanMembers_step h hk hx hscan, hcomma]
    simp only [if_neg hne, if_true, htail]
    cases hv : x.fold h <;> cases hvs : foldMembers h ms <;> simp [foldMembers, hv, hvs, ofHook]

end

/-! ### Decoding a text -/

/-- No text of the grammar begins with a byte order mark. -/
theorem text_head_ne_bom {w t : Str} {x : Tree} (hw : Ws w) (hx : Value t x) (s : Str) :
    (w ++ (t ++ s)).head? ≠ some (chr 0xFEFF) := by
  have hord : (chr 0xFEFF).ord = 0xFEFF := ord_chr (by decide)
  intro hhead
  cases w with
  | nil =>
    obtain ⟨c, u, rfl, -, -, hascii⟩ := hx.head
    obtain rfl : c = chr 0xFEFF := by simpa using hhead
    omega
  | cons c w =>
    obtain rfl : c = chr 0xFEFF := by simpa using hhead
    have hws := hw _ (List.mem_cons_self ..)
    simp [isWs, hord] at hws

/-- On a text of the grammar within the recursion limit, `json.loads` computes
what the hooks build for its parse tree. -/
theorem loads_complete (h : Hooks ε V) {limit : ℕ} {s : Str} {x : Tree} (hs : Text s x)
    (hdepth : x.depth ≤ limit) : loads h limit s = ofHook (x.fold h) := by
  obtain ⟨w₁, t, w₂, rfl, hw₁, hx, hw₂⟩ := hs
  have hbom := text_head_ne_bom hw₁ hx w₂
  have hskip : skipWs (w₁ ++ (t ++ w₂)) = t ++ w₂ :=
    (Json.skipWs_append hw₁).trans (hx.skipWs_append w₂)
  have hstops : Stops w₂ := by simpa using stops_append hw₂ stops_nil
  have hscan := hx.scanOnce_eq h (2 * (t ++ w₂).length) limit w₂
    (by simp only [List.length_append]; omega) hdepth hstops
  rw [loads, if_neg hbom, hskip, rawDecode, hscan]
  cases x.fold h <;> simp [ofHook, skipWs_eq_nil hw₂]

/-- `json.loads` returns exactly on the texts of the grammar that stay within the
recursion limit and whose hooks all return. -/
theorem loads_eq_ok_iff (h : Hooks ε V) {limit : ℕ} {s : Str} {v : V} :
    loads h limit s = .ok v ↔ ∃ x, Text s x ∧ x.depth ≤ limit ∧ x.fold h = .ok v := by
  constructor
  · exact loads_sound
  · rintro ⟨x, hs, hdepth, hv⟩
    rw [loads_complete h hs hdepth, hv]
    rfl

end Json
