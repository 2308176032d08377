import MarketIntelligence.Json.Encoder

/-!
# Normalised whitespace

`" ".join(text.split())` keeps the words of a text and puts one blank between them. A
word that stands in the text is found in the normalised text, behind what stands before
it with every run of whitespace counted once.
-/

namespace Python

open Json

/-- The words of a text, the first of which has already begun. -/
def Str.splitFrom (word : Str) : Str → List Str
  | [] => if word = [] then [] else [word]
  | c :: s =>
      if c.isSpace then
        if word = [] then splitFrom [] s else word :: splitFrom [] s
      else splitFrom (word ++ [c]) s

/-- `s.split()`. -/
def Str.split (s : Str) : List Str := splitFrom [] s

/-- `" ".join(s.split())`. -/
def Str.normalised (s : Str) : Str := joinTexts (lit " ") (split s)

/-- A text in which every run of whitespace behind a word is one blank, and whitespace in
front is left out. The flag says whether a word precedes. -/
def Str.squeeze (afterWord : Bool) : Str → Str
  | [] => []
  | c :: s =>
      if c.isSpace then
        if afterWord then chr 0x20 :: squeeze false s else squeeze false s
      else c :: squeeze true s

/-- Text behind a blank or behind a word begins a list of texts. -/
theorem joinTexts_cons {t : Str} {ts : List Str} (h : ts ≠ []) :
    joinTexts (lit " ") (t :: ts) = t ++ (chr 0x20 :: joinTexts (lit " ") ts) := by
  cases ts with
  | nil => exact absurd rfl h
  | cons u us => rfl

/-- The words of a text with blanks between them are the squeezed text, up to a blank at
the end. -/
theorem squeeze_eq_join (word s : Str) : ∃ rest : Str,
    (rest = [] ∨ rest = [chr 0x20] ∧ Str.splitFrom word s ≠ []) ∧
      word ++ Str.squeeze (decide (word ≠ [])) s =
        joinTexts (lit " ") (Str.splitFrom word s) ++ rest := by
  induction s generalizing word with
  | nil =>
    refine ⟨[], .inl rfl, ?_⟩
    by_cases hword : word = []
    · simp [hword, Str.squeeze, Str.splitFrom, joinTexts]
    · simp [hword, Str.squeeze, Str.splitFrom, joinTexts]
  | cons c s ih =>
    by_cases hspace : c.isSpace = true
    · obtain ⟨rest, hrest, heq⟩ := ih []
      have hsqueeze : Str.squeeze false s = joinTexts (lit " ") (Str.splitFrom [] s) ++ rest := by
        simpa using heq
      by_cases hword : word = []
      · refine ⟨rest, ?_, ?_⟩
        · simpa [Str.splitFrom, hspace, hword] using hrest
        · simpa [Str.squeeze, Str.splitFrom, hspace, hword] using hsqueeze
      · by_cases hlast : Str.splitFrom [] s = []
        · have hnothing : rest = [] := by simpa [hlast] using hrest
          refine ⟨[chr 0x20], .inr ⟨rfl, by simp [Str.splitFrom, hspace, hword]⟩, ?_⟩
          simp [Str.squeeze, Str.splitFrom, hspace, hword, hsqueeze, hlast, hnothing, joinTexts]
        · refine ⟨rest, ?_, ?_⟩
          · obtain hnothing | ⟨hblank, -⟩ := hrest
            · exact .inl hnothing
            · exact .inr ⟨hblank, by simp [Str.splitFrom, hspace, hword]⟩
          · simp [Str.squeeze, Str.splitFrom, hspace, hword, hsqueeze, joinTexts_cons hlast]
    · obtain ⟨rest, hrest, heq⟩ := ih (word ++ [c])
      refine ⟨rest, ?_, ?_⟩
      · simpa [Str.splitFrom, hspace] using hrest
      · simpa [Str.squeeze, Str.splitFrom, hspace] using heq

/-- The normalised text is the squeezed text, up to a blank at the end. -/
theorem squeeze_eq_normalised (s : Str) : ∃ rest : Str,
    (rest = [] ∨ rest = [chr 0x20]) ∧ Str.squeeze false s = Str.normalised s ++ rest := by
  obtain ⟨rest, hrest, heq⟩ := squeeze_eq_join [] s
  exact ⟨rest, hrest.imp_right And.left, by simpa [Str.normalised, Str.split] using heq⟩

variable {code : Str}

/-- A word without whitespace is squeezed to itself. -/
theorem squeeze_append_word (hne : code ≠ []) (hcode : ∀ c ∈ code, c.isSpace = false)
    (afterWord : Bool) (a b : Str) :
    Str.squeeze afterWord (a ++ (code ++ b)) =
      Str.squeeze afterWord a ++ (code ++ Str.squeeze true b) := by
  induction a generalizing afterWord with
  | nil =>
    induction code generalizing afterWord with
    | nil => exact absurd rfl hne
    | cons c code ih =>
      obtain ⟨hc, hrest⟩ := List.forall_mem_cons.mp hcode
      by_cases hlast : code = []
      · simp [Str.squeeze, hc, hlast]
      · simpa [Str.squeeze, hc] using ih hlast hrest true
  | cons c a ih =>
    by_cases hspace : c.isSpace = true
    · cases afterWord <;> simp [Str.squeeze, hspace, ih]
    · simp [Str.squeeze, hspace, ih]

/-- Letters at the front of a squeezed text behind a word are at the front of the text. -/
theorem prefix_of_squeeze {s v : Str} (hcode : ∀ c ∈ code, c.isSpace = false)
    (h : Str.squeeze true s = code ++ v) : ∃ b, s = code ++ b := by
  induction code generalizing s with
  | nil => exact ⟨s, rfl⟩
  | cons c code ih =>
    obtain ⟨hc, hrest⟩ := List.forall_mem_cons.mp hcode
    cases s with
    | nil => cases h
    | cons d s =>
      by_cases hspace : d.isSpace = true
      · obtain ⟨rfl, -⟩ : chr 0x20 = c ∧ _ := by simpa [Str.squeeze, hspace] using h
        exact absurd hc (by decide)
      · obtain ⟨rfl, htail⟩ : d = c ∧ _ := by simpa [Str.squeeze, hspace] using h
        obtain ⟨b, rfl⟩ := ih hrest htail
        exact ⟨b, rfl⟩

/-- A word of the squeezed text is a word of the text, behind what was squeezed. -/
theorem word_of_squeeze {s u v : Str} {afterWord : Bool} (hne : code ≠ [])
    (hcode : ∀ c ∈ code, c.isSpace = false) (h : Str.squeeze afterWord s = u ++ (code ++ v)) :
    ∃ a b, s = a ++ (code ++ b) ∧ Str.squeeze afterWord a = u := by
  induction s generalizing u afterWord with
  | nil =>
    have hlength := congrArg List.length h
    have hpos := List.length_pos_of_ne_nil hne
    simp only [Str.squeeze, List.length_nil, List.length_append] at hlength
    omega
  | cons c s ih =>
    by_cases hspace : c.isSpace = true
    · cases afterWord with
      | false =>
        obtain ⟨a, b, rfl, ha⟩ := ih (by simpa [Str.squeeze, hspace] using h)
        exact ⟨c :: a, b, rfl, by simpa [Str.squeeze, hspace] using ha⟩
      | true =>
        cases u with
        | nil =>
          -- The blank would be the first letter of the word.
          obtain ⟨d, code, rfl⟩ := List.exists_cons_of_ne_nil hne
          obtain ⟨rfl, -⟩ : chr 0x20 = d ∧ _ := by simpa [Str.squeeze, hspace] using h
          exact absurd (List.forall_mem_cons.mp hcode).1 (by decide)
        | cons d u =>
          obtain ⟨rfl, htail⟩ : chr 0x20 = d ∧ _ := by simpa [Str.squeeze, hspace] using h
          obtain ⟨a, b, rfl, ha⟩ := ih htail
          exact ⟨c :: a, b, rfl, by simp [Str.squeeze, hspace, ha]⟩
    · cases u with
      | nil =>
        obtain ⟨d, code, rfl⟩ := List.exists_cons_of_ne_nil hne
        obtain ⟨rfl, htail⟩ : c = d ∧ _ := by simpa [Str.squeeze, hspace] using h
        obtain ⟨b, rfl⟩ := prefix_of_squeeze (List.forall_mem_cons.mp hcode).2 htail
        exact ⟨[], b, rfl, rfl⟩
      | cons d u =>
        obtain ⟨rfl, htail⟩ : c = d ∧ _ := by simpa [Str.squeeze, hspace] using h
        obtain ⟨a, b, rfl, ha⟩ := ih htail
        exact ⟨c :: a, b, rfl, by simp [Str.squeeze, hspace, ha]⟩

/-- A word stands in the first characters of the normalised text exactly if it stands in
the text behind few enough characters, with runs of whitespace counted once. -/
theorem infix_take_normalised {s : Str} {n : ℕ} (hne : code ≠ [])
    (hcode : ∀ c ∈ code, c.isSpace = false) : code <:+: (Str.normalised s).take n ↔
      ∃ a b, s = a ++ (code ++ b) ∧ (Str.squeeze false a).length + code.length ≤ n := by
  obtain ⟨rest, hrest, hsqueeze⟩ := squeeze_eq_normalised s
  constructor
  · rintro ⟨u, v, huv⟩
    have hlength := congrArg List.length huv
    simp only [List.length_append, List.length_take] at hlength
    have hnormalised : Str.normalised s = u ++ (code ++ (v ++ (Str.normalised s).drop n)) := by
      calc Str.normalised s = (Str.normalised s).take n ++ (Str.normalised s).drop n :=
          (List.take_append_drop n _).symm
        _ = u ++ (code ++ (v ++ (Str.normalised s).drop n)) := by rw [← huv]; simp
    have hfirst : Str.squeeze false s =
        u ++ (code ++ (v ++ (Str.normalised s).drop n ++ rest)) := by
      rw [hsqueeze]
      nth_rewrite 1 [hnormalised]
      simp
    obtain ⟨a, b, hs, rfl⟩ := word_of_squeeze hne hcode hfirst
    exact ⟨a, b, hs, by omega⟩
  · rintro ⟨a, b, rfl, hle⟩
    have hwhole := squeeze_append_word hne hcode false a b
    rw [hwhole, ← List.append_assoc] at hsqueeze
    -- A blank at the end is none of the word's letters.
    have hfront : Str.squeeze false a ++ code <+: Str.normalised (a ++ (code ++ b)) := by
      have hfirst : Str.squeeze false a ++ code <+: Str.normalised (a ++ (code ++ b)) ++ rest :=
        ⟨_, hsqueeze⟩
      obtain rfl | rfl := hrest
      · simpa using hfirst
      · obtain heq | hshort := List.prefix_concat_iff.mp hfirst
        · have hlast : code.getLast hne = chr 0x20 := by
            have hends := congrArg List.getLast? heq
            rw [List.getLast?_append_of_ne_nil _ hne, List.getLast?_append_of_ne_nil _ (by simp),
              List.getLast?_eq_some_getLast hne] at hends
            simpa using hends
          have hspace := hcode _ (List.getLast_mem hne)
          rw [hlast] at hspace
          exact absurd hspace (by decide)
        · exact hshort
    have htake : Str.squeeze false a ++ code <+: (Str.normalised (a ++ (code ++ b))).take n :=
      List.prefix_take_iff.mpr ⟨hfront, by simpa using hle⟩
    exact (List.suffix_append _ code).isInfix.trans htake.isInfix

end Python
