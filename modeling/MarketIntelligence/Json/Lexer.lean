import MarketIntelligence.Json.Completeness

/-!
# Lexical states of JSON texts

A lexer that only knows strings and brackets: whether it stands outside of strings, in a
string, or behind a backslash in a string, and how many brackets are open. It refuses a
backslash outside of strings and a bracket that closes nothing. Values of the grammar
bring it back to where it started, and two lexers of which one is inside and one outside
of a string never meet. So no object is the end of another one.
-/

namespace Json

open Python

/-- Where a lexer stands in a text. -/
inductive Mode
  | outside
  | quoted
  | escaped
  deriving DecidableEq

/-- A mode with the number of open brackets. -/
structure LexState where
  mode : Mode
  depth : ℕ
  deriving DecidableEq

/-- A lexer outside of strings reads a character. -/
def lexOutside (d : ℕ) (c : Chr) : Option LexState :=
  if c = ('"' : Char) then some ⟨.quoted, d⟩
  else if c = ('{' : Char) ∨ c = ('[' : Char) then some ⟨.outside, d + 1⟩
  else if c = ('}' : Char) ∨ c = (']' : Char) then
    match d with
    | 0 => none
    | d + 1 => some ⟨.outside, d⟩
  else if c = ('\\' : Char) then none
  else some ⟨.outside, d⟩

/-- A lexer in a string reads a character. -/
def lexQuoted (d : ℕ) (c : Chr) : LexState :=
  if c = ('"' : Char) then ⟨.outside, d⟩
  else if c = ('\\' : Char) then ⟨.escaped, d⟩
  else ⟨.quoted, d⟩

/-- The lexer reads a character. -/
def lexStep : LexState → Chr → Option LexState
  | ⟨.outside, d⟩, c => lexOutside d c
  | ⟨.quoted, d⟩, c => some (lexQuoted d c)
  | ⟨.escaped, d⟩, _ => some ⟨.quoted, d⟩

/-- The lexer reads a text. -/
def lex (s : LexState) (t : Str) : Option LexState := t.foldlM lexStep s

/-- Nothing to read. -/
@[simp] theorem lex_nil (s : LexState) : lex s [] = some s := rfl

/-- One character after another. -/
@[simp] theorem lex_cons (s : LexState) (c : Chr) (t : Str) :
    lex s (c :: t) = (lexStep s c).bind fun s => lex s t := rfl

/-- One text after another. -/
theorem lex_append (s : LexState) (t u : Str) :
    lex s (t ++ u) = (lex s t).bind fun s => lex s u := List.foldlM_append

/-- More brackets may be open. -/
theorem lex_raise {s s' : LexState} {t : Str} (h : lex s t = some s') (k : ℕ) :
    lex ⟨s.mode, s.depth + k⟩ t = some ⟨s'.mode, s'.depth + k⟩ := by
  have hstep {s s' : LexState} {c : Chr} (h : lexStep s c = some s') :
      lexStep ⟨s.mode, s.depth + k⟩ c = some ⟨s'.mode, s'.depth + k⟩ := by
    obtain ⟨mode, d⟩ := s
    cases mode with
    | outside =>
      simp only [lexStep, lexOutside] at h ⊢
      split_ifs at h ⊢ with hquote hopen hclose
      · obtain rfl := Option.some.inj h
        rfl
      · obtain rfl := Option.some.inj h
        simp only [Option.some.injEq, LexState.mk.injEq, true_and]
        omega
      · cases d with
        | zero => cases h
        | succ d =>
          obtain rfl := Option.some.inj h
          rw [show d + 1 + k = d + k + 1 by omega]
      · obtain rfl := Option.some.inj h
        rfl
    | quoted =>
      obtain rfl := Option.some.inj h
      simp only [lexStep, lexQuoted]
      split_ifs <;> rfl
    | escaped =>
      obtain rfl := Option.some.inj h
      rfl
  induction t generalizing s with
  | nil =>
    obtain rfl := Option.some.inj h
    rfl
  | cons c t ih =>
    obtain ⟨u, hu, hrest⟩ := Option.bind_eq_some_iff.mp h
    rw [lex_cons, hstep hu]
    exact ih hrest

/-- A text that the lexer reads outside of strings, back to where it started. -/
def Balanced (t : Str) : Prop := lex ⟨.outside, 0⟩ t = some ⟨.outside, 0⟩

/-- With any number of open brackets. -/
theorem Balanced.lex_eq {t : Str} (h : Balanced t) (d : ℕ) :
    lex ⟨.outside, d⟩ t = some ⟨.outside, d⟩ := by
  have hraised := lex_raise h d
  simpa using hraised

/-- Balanced texts in a row are balanced. -/
theorem Balanced.append {t u : Str} (ht : Balanced t) (hu : Balanced u) : Balanced (t ++ u) := by
  rw [Balanced, lex_append, ht]
  exact hu

/-- A character that the lexer does not notice outside of strings. -/
def Inert (c : Chr) : Prop := lexOutside 0 c = some ⟨.outside, 0⟩

instance (c : Chr) : Decidable (Inert c) := inferInstanceAs (Decidable (_ = _))

/-- Such characters are balanced. -/
theorem balanced_of_inert {t : Str} (h : ∀ c ∈ t, Inert c) : Balanced t := by
  induction t with
  | nil => rfl
  | cons c t ih =>
    obtain ⟨hc, ht⟩ := List.forall_mem_cons.mp h
    have hstep : lexStep ⟨.outside, 0⟩ c = some ⟨.outside, 0⟩ := hc
    rw [Balanced, lex_cons, hstep]
    exact ih ht

/-- Brackets around a balanced text. -/
theorem Balanced.bracket {t : Str} (h : Balanced t) {o c : Chr}
    (ho : lexOutside 0 o = some ⟨.outside, 1⟩) (hc : lexOutside 1 c = some ⟨.outside, 0⟩) :
    Balanced (o :: (t ++ [c])) := by
  have hopen : lexStep ⟨.outside, 0⟩ o = some ⟨.outside, 1⟩ := ho
  have hclose : lexStep ⟨.outside, 1⟩ c = some ⟨.outside, 0⟩ := hc
  rw [Balanced, lex_cons, hopen, Option.bind_some, lex_append, h.lex_eq 1, Option.bind_some,
    lex_cons, hclose]
  rfl

/-- The characters that the lexer notices outside of strings. -/
def structural : List Chr :=
  [('"' : Char), ('{' : Char), ('[' : Char), ('}' : Char), (']' : Char), ('\\' : Char)]

/-- Every other character is inert. -/
theorem inert_of_not_mem {c : Chr} (h : c ∉ structural) : Inert c := by
  simp only [structural, List.mem_cons, List.not_mem_nil, or_false, not_or] at h
  obtain ⟨hquote, hbrace, hbracket, hbrace', hbracket', hbackslash⟩ := h
  simp [Inert, lexOutside, *]

/-- Characters of a kind that has no structural ones are inert. -/
theorem inert_of {P : Chr → Bool} (hP : ∀ d ∈ structural, P d = false) {c : Chr}
    (hc : P c = true) : Inert c :=
  inert_of_not_mem fun hmem => by simp [hP c hmem] at hc

/-- Whitespace is balanced. -/
theorem Ws.balanced {w : Str} (h : Ws w) : Balanced w :=
  balanced_of_inert fun c hc => inert_of (by decide) (h c hc)

/-- Numbers are balanced. -/
theorem balanced_of_isNumberChr {t : Str} (h : ∀ c ∈ t, isNumberChr c = true) : Balanced t :=
  balanced_of_inert fun c hc => inert_of (by decide) (h c hc)

/-- The lexer stays in a string with a character that neither ends it nor escapes. -/
theorem lex_quoted_cons {c : Chr} {t : Str} {d : ℕ} (hquote : c ≠ ('"' : Char))
    (hbackslash : c ≠ ('\\' : Char)) : lex ⟨.quoted, d⟩ (c :: t) = lex ⟨.quoted, d⟩ t := by
  simp [lexStep, lexQuoted, hquote, hbackslash]

/-- Hexadecimal digits are such characters. -/
theorem hexVal_ne {c : Chr} {n : ℕ} (h : hexVal c = some n) :
    c ≠ ('"' : Char) ∧ c ≠ ('\\' : Char) := by
  constructor
  · rintro rfl
    cases h
  · rintro rfl
    cases h

/-- A string body is read in a string, up to its end. -/
theorem StringBody.lex_eq {t : Str} {ps : List Piece} (h : StringBody t ps) (d : ℕ) :
    lex ⟨.quoted, d⟩ t = some ⟨.quoted, d⟩ := by
  have hescape (e : Chr) (t : Str) :
      lex ⟨.quoted, d⟩ (('\\' : Chr) :: e :: t) = lex ⟨.quoted, d⟩ t := rfl
  induction h with
  | nil => rfl
  | plain _ hquote hbackslash _ ih => rw [lex_quoted_cons hquote hbackslash, ih]
  | escape _ _ ih => rw [hescape, ih]
  | unicode hhex _ ih =>
    simp only [hex4, Option.bind_eq_bind, Option.bind_eq_some_iff] at hhex
    obtain ⟨w, hw, x, hx, y, hy, z, hz, -⟩ := hhex
    rw [hescape, lex_quoted_cons (hexVal_ne hw).1 (hexVal_ne hw).2,
      lex_quoted_cons (hexVal_ne hx).1 (hexVal_ne hx).2,
      lex_quoted_cons (hexVal_ne hy).1 (hexVal_ne hy).2,
      lex_quoted_cons (hexVal_ne hz).1 (hexVal_ne hz).2, ih]

/-- A string with its quotes is balanced. -/
theorem StringBody.balanced {t : Str} {ps : List Piece} (h : StringBody t ps) (u : Str)
    (hu : Balanced u) : Balanced (('"' : Chr) :: (t ++ ('"' : Chr) :: u)) := by
  have hopen : lexStep ⟨.outside, 0⟩ ('"' : Char) = some ⟨.quoted, 0⟩ := rfl
  have hclose : lexStep ⟨.quoted, 0⟩ ('"' : Char) = some ⟨.outside, 0⟩ := rfl
  rw [Balanced, lex_cons, hopen, Option.bind_some, lex_append, h.lex_eq, Option.bind_some,
    lex_cons, hclose]
  exact hu

/-- A character that the lexer does not notice, in front of a balanced text. -/
theorem Balanced.cons {c : Chr} {t : Str} (hc : Inert c) (ht : Balanced t) :
    Balanced (c :: t) := by
  have hstep : lexStep ⟨.outside, 0⟩ c = some ⟨.outside, 0⟩ := hc
  rw [Balanced, lex_cons, hstep]
  exact ht

/-- A member name is balanced. -/
theorem Name.balanced {t k : Str} (h : Name t k) : Balanced t := by
  obtain ⟨hw₁, hbody, hw₂, hw₃⟩ := h
  exact hw₁.balanced.append (hbody.balanced _ (hw₂.balanced.append
    (hw₃.balanced.cons (by decide))))

mutual

/-- A value is balanced. -/
theorem Value.balanced {t : Str} {x : Tree} : Value t x → Balanced t
  | .nullToken | .trueToken | .falseToken => rfl
  | .int h => balanced_of_isNumberChr h.isNumberChr
  | .float h => balanced_of_isNumberChr h.isNumberChr
  | .constant h => by
    simp only [constants, List.mem_cons, List.not_mem_nil, or_false] at h
    obtain rfl | rfl | rfl := h <;> rfl
  | .string h => h.balanced [] rfl
  | .emptyArray hw => hw.balanced.bracket rfl rfl
  | .array h => (Items.balanced h).bracket rfl rfl
  | .emptyObject hw => hw.balanced.bracket rfl rfl
  | .object h => (Members.balanced h).bracket rfl rfl

/-- Items are balanced. -/
theorem Items.balanced {t : Str} {xs : List Tree} : Items t xs → Balanced t
  | .one hw₁ h hw₂ => hw₁.balanced.append ((Value.balanced h).append hw₂.balanced)
  | .cons hw₁ h hw₂ hrest => hw₁.balanced.append ((Value.balanced h).append
      (hw₂.balanced.append ((Items.balanced hrest).cons (by decide))))

/-- Members are balanced. -/
theorem Members.balanced {t : Str} {ms : List (Str × Tree)} : Members t ms → Balanced t
  | .one hk h hw => hk.balanced.append ((Value.balanced h).append hw.balanced)
  | .cons hk h hw hrest => hk.balanced.append ((Value.balanced h).append
      (hw.balanced.append ((Members.balanced hrest).cons (by decide))))

end

/-! ### Objects inside of texts -/

/-- A value that begins with a brace is an object, with a balanced text between its
braces. -/
theorem Value.body_of_brace {s : Str} {x : Tree} (h : Value s x)
    (hs : s.head? = some (('{' : Char) : Chr)) : (∃ ms, x = .object ms) ∧
      ∃ body, s = ('{' : Chr) :: (body ++ lit "\x7d") ∧ Balanced body := by
  have hnumber (hall : ∀ c ∈ s, isNumberChr c = true) : False := by
    have hbrace := hall _ (List.mem_of_head? hs)
    exact absurd hbrace (by decide)
  cases h with
  | nullToken | trueToken | falseToken => exact absurd hs (by decide)
  | int h => exact (hnumber h.isNumberChr).elim
  | float h => exact (hnumber h.isNumberChr).elim
  | constant h =>
    simp only [constants, List.mem_cons, List.not_mem_nil, or_false] at h
    obtain rfl | rfl | rfl := h <;> exact absurd hs (by decide)
  | string => exact absurd (Option.some.inj hs) (by decide)
  | emptyArray => exact absurd (Option.some.inj hs) (by decide)
  | array => exact absurd (Option.some.inj hs) (by decide)
  | emptyObject hw => exact ⟨⟨_, rfl⟩, _, rfl, hw.balanced⟩
  | object h => exact ⟨⟨_, rfl⟩, _, rfl, h.balanced⟩

/-- Outside of strings only a quote changes the mode. -/
theorem lexOutside_mode {d : ℕ} {c : Chr} {s : LexState} (h : lexOutside d c = some s)
    (hquote : c ≠ ('"' : Char)) : s.mode = .outside ∧ c ≠ ('\\' : Char) := by
  constructor
  · unfold lexOutside at h
    rw [if_neg hquote] at h
    split_ifs at h
    · obtain rfl := Option.some.inj h
      rfl
    · cases d with
      | zero => cases h
      | succ d =>
        obtain rfl := Option.some.inj h
        rfl
    · obtain rfl := Option.some.inj h
      rfl
  · rintro rfl
    cases h

/-- Two lexers on one text, one outside of a string and one inside, do not both end
outside: a quote exchanges their modes, and the one outside meets no backslash. -/
theorem not_both_outside {t : Str} {d e d' e' : ℕ}
    (h : lex ⟨.outside, d⟩ t = some ⟨.outside, d'⟩)
    (h' : lex ⟨.quoted, e⟩ t = some ⟨.outside, e'⟩) : False := by
  induction t generalizing d e d' e' with
  | nil => cases h'
  | cons c t ih =>
    obtain ⟨⟨mode, k⟩, hstep, hrest⟩ := Option.bind_eq_some_iff.mp h
    by_cases hquote : c = ('"' : Char)
    · subst hquote
      obtain ⟨rfl, rfl⟩ := LexState.mk.inj (Option.some.inj hstep)
      exact ih h' hrest
    · obtain ⟨hmode, hbackslash⟩ := lexOutside_mode hstep hquote
      obtain rfl : mode = .outside := hmode
      rw [lex_quoted_cons hquote hbackslash] at h'
      exact ih hrest h'

/-- No object is the end of a longer value that begins with a brace. -/
theorem not_value_append {u t : Str} {x y : Tree} (hu : u.head? = some (('{' : Char) : Chr))
    (ht : t.head? = some (('{' : Char) : Chr)) (hx : Value (u ++ t) x) (hy : Value t y) :
    False := by
  obtain ⟨u, rfl⟩ := List.head?_eq_some_iff.mp hu
  obtain ⟨t, rfl⟩ := List.head?_eq_some_iff.mp ht
  obtain ⟨-, body, hbody, hbalanced⟩ := hx.body_of_brace rfl
  obtain ⟨rest, rfl⟩ : ∃ rest, body = u ++ rest := by
    obtain ⟨rest, hrest, -⟩ | ⟨rest, -, hend⟩ :=
      List.append_eq_append_iff.mp (List.cons.inj hbody).2
    · exact ⟨rest, hrest⟩
    · cases rest with
      | nil => exact absurd (List.cons.inj hend).1 (by decide)
      | cons c rest => simp [lit] at hend
  obtain ⟨⟨mode, k⟩, hmiddle, -⟩ := Option.bind_eq_some_iff.mp
    ((lex_append _ u rest).symm.trans hbalanced)
  have hraised := lex_raise hmiddle 1
  have hopen : lexStep ⟨.outside, 0⟩ ('{' : Char) = some ⟨.outside, 1⟩ := rfl
  have hend : lex ⟨mode, k + 1⟩ (('{' : Chr) :: t) = some ⟨.outside, 0⟩ := by
    have hall := hx.balanced
    rw [Balanced, List.cons_append, lex_cons, hopen, Option.bind_some, lex_append] at hall
    simpa [hraised] using hall
  cases mode with
  | outside =>
    rw [hy.balanced.lex_eq] at hend
    cases hend
  | quoted => exact not_both_outside hy.balanced hend
  | escaped =>
    have hquoted : lex ⟨.quoted, k + 1⟩ t = some ⟨.outside, 0⟩ := hend
    have houtside : lex ⟨.outside, 1⟩ t = some ⟨.outside, 0⟩ := hy.balanced
    exact not_both_outside houtside hquoted

/-- No proper beginning of an object is a text of its own. -/
theorem not_text_take {s : Str} {x y : Tree} {k : ℕ} (hs : Value s x)
    (hbrace : s.head? = some (('{' : Char) : Chr)) (hk : k < s.length) : ¬Text (s.take k) y := by
  rintro ⟨w₁, t, w₂, htake, hw₁, ht, hw₂⟩
  obtain ⟨-, body, rfl, hbody⟩ := hs.body_of_brace hbrace
  cases k with
  | zero =>
    obtain ⟨c, u, rfl, -⟩ := ht.head
    simp at htake
  | succ k =>
    have hlength : k ≤ body.length := by
      simp only [List.length_cons, List.length_append] at hk
      have hone : (lit "\x7d").length = 1 := rfl
      omega
    have hbalanced : Balanced (('{' : Chr) :: body.take k) := by
      have hall := hw₁.balanced.append (ht.balanced.append hw₂.balanced)
      rwa [← htake, List.take_succ_cons, List.take_append_of_le_length hlength] at hall
    -- Behind the brace one bracket is open until the body ends.
    obtain ⟨⟨mode, d⟩, hmiddle, -⟩ := Option.bind_eq_some_iff.mp
      ((lex_append _ (body.take k) (body.drop k)).symm.trans (by rw [List.take_append_drop, hbody]))
    have hraised := lex_raise hmiddle 1
    have hopen : lexStep ⟨.outside, 0⟩ ('{' : Char) = some ⟨.outside, 1⟩ := rfl
    rw [Balanced, lex_cons, hopen, Option.bind_some] at hbalanced
    cases hraised.symm.trans hbalanced

end Json
