import MarketIntelligence.Journey.Receipts
import MarketIntelligence.Json.Lexer
import MarketIntelligence.Json.Limits

/-!
# The receipt at the end of a command's output

`_parse_json_output` tries to decode an object at every brace of the output and takes the
first one that reaches the end. Whatever is printed before the receipt, no other brace
can win: objects that end together begin together.
-/

namespace MarketIntelligence.Journey

open Python

variable {F : Type}

/-- `_parse_json_output`, on the rest of the output. -/
def parseJsonOutput [PyFloat F] (limits : Limits) : Str → Checked (Object F)
  | [] => journeyError (lit "ace command did not return one JSON object")
  | c :: s =>
      if c ≠ ('{' : Char) then parseJsonOutput limits s
      else match Json.rawDecode (dataHooks limits) limits.nesting (c :: s) with
        | .error (.decode _) => parseJsonOutput limits s
        | .error .recursion => .error (.builtin .recursionError)
        | .error (.hook ()) => .error (.builtin .valueError)
        | .ok (payload, rest) =>
            if Str.strip rest ≠ [] then parseJsonOutput limits s
            else match payload with
              | .dict value => .ok value
              | _ => parseJsonOutput limits s

/-- Whether decoding ran into the recursion limit or an integer with too many digits. -/
def meetsLimit {α : Type} : Except (Json.Failure Unit) α → Bool
  | .error .recursion | .error (.hook ()) => true
  | _ => false

/-- At no brace of a text the decoder meets a limit of the interpreter. -/
def WithinLimits (F : Type) [PyFloat F] (limits : Limits) (s : Str) : Prop :=
  ∀ t ∈ s.tails, t.head? = some (('{' : Char) : Chr) →
    meetsLimit (Json.rawDecode (dataHooks (F := F) limits) limits.nesting t) = false

/-- From an index of a text on, a value that begins with a brace reaches the end, up to
trailing whitespace. -/
structure Reaches (s : Str) (i : ℕ) (t : Str) (x : Json.Tree) : Prop where
  brace : s[i]? = some (('{' : Char) : Chr)
  value : Json.Value t x
  rest : ∃ w, s.drop i = t ++ w ∧ ∀ c ∈ w, c.isSpace = true

/-! ### At most one value -/

/-- Stripping leaves nothing exactly of whitespace. -/
theorem strip_eq_nil {s : Str} : Str.strip s = [] ↔ ∀ c ∈ s, c.isSpace = true := by
  rw [Str.strip, List.reverse_eq_nil_iff, List.dropWhile_eq_nil_iff,
    ← List.dropWhile_eq_nil_iff (l := s)]
  constructor
  · intro h
    by_contra hne
    have hhead := List.head_dropWhile_not Chr.isSpace hne
    rw [h _ (List.mem_reverse.mpr (List.head_mem hne))] at hhead
    cases hhead
  · intro h c hc
    rw [h] at hc
    cases hc

/-- Texts that do not end in whitespace, with whitespace behind them. -/
theorem append_space_inj {s t w v : Str} {c d : Chr} (hc : c.isSpace = false)
    (hd : d.isSpace = false) (hw : ∀ c ∈ w, c.isSpace = true) (hv : ∀ c ∈ v, c.isSpace = true)
    (h : (s ++ [c]) ++ w = (t ++ [d]) ++ v) : s ++ [c] = t ++ [d] := by
  have hdrop {s w : Str} {c : Chr} (hc : c.isSpace = false) (hw : ∀ c ∈ w, c.isSpace = true) :
      ((s ++ [c]) ++ w).reverse.dropWhile Chr.isSpace = (s ++ [c]).reverse := by
    rw [List.reverse_append, List.dropWhile_append_of_pos (by simpa using hw)]
    simp [hc]
  have hsame := congrArg (fun s => s.reverse.dropWhile Chr.isSpace) h
  simp only [hdrop hc hw, hdrop hd hv] at hsame
  exact List.reverse_injective hsame

/-- Two objects that end together are the same text at the same place. -/
theorem object_suffix_unique {p q t u : Str} {x y : Json.Tree} (h : p ++ t = q ++ u)
    (ht : Json.Value t x) (hu : Json.Value u y) (htbrace : t.head? = some (('{' : Char) : Chr))
    (hubrace : u.head? = some (('{' : Char) : Chr)) : p = q ∧ t = u := by
  obtain ⟨v, rfl, rfl⟩ | ⟨v, rfl, rfl⟩ := List.append_eq_append_iff.mp h
  · cases v with
    | nil => simp
    | cons c v =>
      obtain rfl : c = ('{' : Char) := by simpa using htbrace
      exact (Json.not_value_append rfl hubrace ht hu).elim
  · cases v with
    | nil => simp
    | cons c v =>
      obtain rfl : c = ('{' : Char) := by simpa using hubrace
      exact (Json.not_value_append rfl htbrace hu ht).elim

/-- A value that begins with a brace ends with one, which is no whitespace. -/
theorem exists_brace_end {t : Str} {x : Json.Tree} (ht : Json.Value t x)
    (hbrace : t.head? = some (('{' : Char) : Chr)) :
    ∃ body, t = body ++ [(('}' : Char) : Chr)] := by
  obtain ⟨-, body, rfl, -⟩ := ht.body_of_brace hbrace
  exact ⟨('{' : Chr) :: body, rfl⟩

/-- The value that reaches the end begins with a brace. -/
theorem Reaches.head? {s t : Str} {i : ℕ} {x : Json.Tree} (h : Reaches s i t x) :
    t.head? = some (('{' : Char) : Chr) := by
  obtain ⟨w, hdrop, -⟩ := h.rest
  obtain ⟨c, u, rfl, -⟩ := h.value.head
  have hhead : (s.drop i).head? = s[i]? := List.head?_drop
  rw [hdrop, h.brace] at hhead
  simpa using hhead

/-- At most one value reaches the end of a text. -/
theorem reaches_unique {s t u : Str} {i j : ℕ} {x y : Json.Tree} (h : Reaches s i t x)
    (h' : Reaches s j u y) : i = j ∧ t = u ∧ x = y := by
  obtain ⟨w, hdrop, hw⟩ := h.rest
  obtain ⟨v, hdrop', hv⟩ := h'.rest
  obtain ⟨body, rfl⟩ := exists_brace_end h.value h.head?
  obtain ⟨body', rfl⟩ := exists_brace_end h'.value h'.head?
  have hends : (s.take i ++ body) ++ [(('}' : Char) : Chr)] =
      (s.take j ++ body') ++ [(('}' : Char) : Chr)] := by
    refine append_space_inj (by decide) (by decide) hw hv ?_
    calc ((s.take i ++ body) ++ [(('}' : Char) : Chr)]) ++ w
        = s.take i ++ s.drop i := by rw [hdrop]; simp
      _ = s.take j ++ s.drop j := by rw [List.take_append_drop, List.take_append_drop]
      _ = ((s.take j ++ body') ++ [(('}' : Char) : Chr)]) ++ v := by rw [hdrop']; simp
  rw [List.append_assoc, List.append_assoc] at hends
  obtain ⟨htake, htext⟩ := object_suffix_unique hends h.value h'.value h.head? h'.head?
  have hlength (k : ℕ) (hk : s[k]? = some (('{' : Char) : Chr)) : (s.take k).length = k := by
    obtain ⟨hlt, -⟩ := List.getElem?_eq_some_iff.mp hk
    rw [List.length_take]
    omega
  refine ⟨?_, htext, ?_⟩
  · rw [← hlength i h.brace, htake, hlength j h'.brace]
  · refine Json.text_unique (s := body ++ [(('}' : Char) : Chr)]) ?_ ?_
    · exact ⟨[], _, [], by simp, Json.ws_nil, h.value, Json.ws_nil⟩
    · rw [htext]
      exact ⟨[], _, [], by simp, Json.ws_nil, h'.value, Json.ws_nil⟩

/-! ### The search finds it -/

variable [PyFloat F] {limits : Limits}

/-- Whitespace stops a number. -/
theorem stops_of_isSpace {w : Str} (hw : ∀ c ∈ w, c.isSpace = true) : Json.Stops w := by
  intro c hc
  have hspace := hw c (List.mem_of_head? hc)
  refine ⟨?_, ?_, ?_, ?_⟩
  · simp only [Chr.isSpace, Chr.isDigit, Bool.or_eq_true, Bool.and_eq_true, beq_iff_eq,
      decide_eq_true_eq, Bool.and_eq_false_iff, decide_eq_false_iff_not] at hspace ⊢
    omega
  all_goals
    rintro rfl
    revert hspace
    decide

/-- The text behind a character is within the limits if the whole text is. -/
theorem WithinLimits.tail {c : Chr} {s : Str} (h : WithinLimits F limits (c :: s)) :
    WithinLimits F limits s := by
  intro t ht
  exact h t (by simp [List.tails, ht])

/-- An object at the front of a text, with whitespace behind it, is decoded. -/
theorem rawDecode_of_reaches {s t : Str} {x : Json.Tree} (hlimits : WithinLimits F limits s)
    (h : Reaches s 0 t x) : ∃ value : Object F, x.fold (dataHooks limits) = .ok (.dict value) ∧
      ∃ w, Json.rawDecode (dataHooks limits) limits.nesting s = .ok (.dict value, w) ∧
        Str.strip w = [] := by
  obtain ⟨w, hs, hw⟩ := h.rest
  obtain rfl : s = t ++ w := by simpa using hs
  have hbrace := h.head?
  obtain ⟨⟨ms, rfl⟩, -⟩ := h.value.body_of_brace hbrace
  have hmeets := hlimits (t ++ w) (by cases t ++ w <;> simp [List.tails])
    (by rw [List.head?_append, hbrace, Option.some_or])
  have hne : Json.rawDecode (dataHooks (F := F) limits) limits.nesting (t ++ w) ≠
      .error .recursion := by
    intro heq
    rw [heq] at hmeets
    cases hmeets
  have hdecode := Json.rawDecode_value h.value (stops_of_isSpace hw) hne
  rw [hdecode] at hmeets ⊢
  cases hfold : Json.foldMembers (dataHooks (F := F) limits) ms with
  | error e =>
    rw [Json.Tree.fold, hfold] at hmeets
    cases hmeets
  | ok members =>
    refine ⟨dictOfPairs members, by rw [Json.Tree.fold, hfold]; rfl, w, ?_, strip_eq_nil.mpr hw⟩
    rw [Json.Tree.fold, hfold]
    rfl

/-- The search goes on behind a character from which nothing reaches the end. -/
theorem parseJsonOutput_skip {c : Chr} {s : Str} (hlimits : WithinLimits F limits (c :: s))
    (hnone : ∀ t x, ¬Reaches (c :: s) 0 t x) :
    (parseJsonOutput limits (c :: s) : Checked (Object F)) = parseJsonOutput limits s := by
  rw [parseJsonOutput]
  by_cases hbrace : c = ('{' : Char)
  · subst hbrace
    have hmeets := hlimits (('{' : Chr) :: s) (by simp [List.tails]) rfl
    rw [if_neg (by simp)]
    split
    · rfl
    · next heq =>
      rw [heq] at hmeets
      cases hmeets
    · next heq =>
      rw [heq] at hmeets
      cases hmeets
    · next payload rest heq =>
      by_cases hrest : Str.strip rest = []
      · obtain ⟨t, x, hs, hx, -⟩ := (Json.scanners_sound _ _).once heq
        exact (hnone t x ⟨rfl, hx, rest, hs, strip_eq_nil.mp hrest⟩).elim
      · rw [if_pos hrest]
  · rw [if_pos hbrace]

/-- The search behind the first character is for values at later indices. -/
theorem reaches_cons {c : Chr} {s t : Str} {i : ℕ} {x : Json.Tree} :
    Reaches (c :: s) (i + 1) t x ↔ Reaches s i t x :=
  ⟨fun h => ⟨h.brace, h.value, h.rest⟩, fun h => ⟨h.brace, h.value, h.rest⟩⟩

/-- The search returns the object that reaches the end. -/
theorem parseJsonOutput_of_reaches {s t : Str} {i : ℕ} {x : Json.Tree}
    (hlimits : WithinLimits F limits s) (h : Reaches s i t x) :
    ∃ value : Object F, x.fold (dataHooks limits) = .ok (.dict value) ∧
      parseJsonOutput limits s = .ok value := by
  induction s generalizing i with
  | nil => cases h.brace
  | cons c s ih =>
    cases i with
    | zero =>
      obtain rfl : c = ('{' : Char) := Option.some.inj h.brace
      obtain ⟨value, hfold, w, hdecode, hstrip⟩ := rawDecode_of_reaches hlimits h
      refine ⟨value, hfold, ?_⟩
      rw [parseJsonOutput, if_neg (by simp), hdecode]
      simp [hstrip]
    | succ i =>
      rw [parseJsonOutput_skip hlimits fun u y h' => by cases (reaches_unique h h').1]
      exact ih hlimits.tail (reaches_cons.mp h)

/-- The search fails where no object reaches the end. -/
theorem parseJsonOutput_of_none {s : Str} (hlimits : WithinLimits F limits s)
    (hnone : ∀ i t x, ¬Reaches s i t x) : (parseJsonOutput limits s : Checked (Object F)) =
      journeyError (lit "ace command did not return one JSON object") := by
  induction s with
  | nil => rfl
  | cons c s ih =>
    rw [parseJsonOutput_skip hlimits (hnone 0)]
    exact ih hlimits.tail fun i t x h => hnone (i + 1) t x (reaches_cons.mpr h)

/-- A JSON object behind any text reaches the end. -/
theorem reaches_of_object {p t w : Str} {ms : List (Str × Json.Tree)}
    (ht : Json.Value t (.object ms)) (hw : ∀ c ∈ w, c.isSpace = true) :
    Reaches (p ++ (t ++ w)) p.length t (.object ms) := by
  have hbrace : ∃ u, t = ('{' : Chr) :: u := by cases ht <;> exact ⟨_, rfl⟩
  obtain ⟨u, rfl⟩ := hbrace
  exact ⟨by simp, ht, w, by simp, hw⟩

/-- At most one index of an output has a brace from which a JSON value reaches the end, up
to trailing whitespace. The search returns the object of this value, and raises where
there is none. So it returns the object of a JSON text whatever is printed before it. -/
theorem parseJsonOutput_spec (limits : Limits) (s : Str) (hlimits : WithinLimits F limits s) :
    (∀ i j t u x y, Reaches s i t x → Reaches s j u y → i = j ∧ t = u ∧ x = y) ∧
    (∀ i t x, Reaches s i t x → ∃ value : Object F,
      x.fold (dataHooks limits) = .ok (.dict value) ∧ parseJsonOutput limits s = .ok value) ∧
    ((∀ i t x, ¬Reaches s i t x) → (parseJsonOutput limits s : Checked (Object F)) =
      journeyError (lit "ace command did not return one JSON object")) ∧
    ∀ p t w ms, s = p ++ (t ++ w) → Json.Value t (.object ms) → (∀ c ∈ w, c.isSpace = true) →
      ∃ value : Object F, (Json.Tree.object ms).fold (dataHooks limits) = .ok (.dict value) ∧
        parseJsonOutput limits s = .ok value := by
  refine ⟨fun i j t u x y => reaches_unique, fun i t x => parseJsonOutput_of_reaches hlimits,
    parseJsonOutput_of_none hlimits, ?_⟩
  rintro p t w ms rfl ht hw
  exact parseJsonOutput_of_reaches hlimits (reaches_of_object ht hw)

/-- A progress line that opens a string and an object before the receipt. -/
def sampleOutput : Str := lit "say \"\x7b\"a\": [ \x7b\"b\": \"\x7b\"\x7d \n"

/-- The receipt is found behind the stray quote and the stray braces. -/
theorem sampleOutput_parsed : ∃ value : Object Unit,
    parseJsonOutput asciiInterpreter.limits sampleOutput = .ok value ∧
      get value (lit "b") = .str (lit "\x7b") := by
  have hvalue : Json.Value (lit "\x7b\"b\": \"\x7b\"\x7d")
      (.object [(lit "b", .string (lit "\x7b"))]) := by
    have hblank : Json.Ws (lit " ") := by unfold Json.Ws; decide
    have hname := Json.Name.mk Json.ws_nil (.plain (c := ('b' : Char)) (by decide) (by decide)
      (by decide) .nil) Json.ws_nil hblank
    have hstring := Json.Value.string (.plain (c := ('{' : Char)) (by decide) (by decide)
      (by decide) .nil)
    exact .object (.one hname hstring Json.ws_nil)
  obtain ⟨value, hfold, hparsed⟩ := (parseJsonOutput_spec (F := Unit) asciiInterpreter.limits
    sampleOutput (by unfold WithinLimits; decide +kernel)).2.2.2
      (lit "say \"\x7b\"a\": [ ") _ (lit " \n") _ rfl hvalue (by decide)
  refine ⟨value, hparsed, ?_⟩
  obtain rfl : [(lit "b", Data.str (lit "\x7b"))] = value :=
    Data.dict.inj (Except.ok.inj hfold)
  simp

end MarketIntelligence.Journey
