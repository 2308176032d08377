import MarketIntelligence.Json.Grammar

/-!
# Surrogates in JSON texts

A `\u` escape can write a surrogate, so a text that contains none may still denote
strings with surrogates. In the other direction a surrogate of the text always
shows up in a string, so a text that denotes only encodable strings is encodable.
-/

namespace Json

open Python

mutual

/-- A property of all strings and member names of a tree. -/
def Tree.AllStrings (P : Str → Prop) : Tree → Prop
  | .string s => P s
  | .array xs => allStringsItems P xs
  | .object ms => allStringsMembers P ms
  | _ => True

/-- A property of all strings in the items of an array. -/
def allStringsItems (P : Str → Prop) : List Tree → Prop
  | [] => True
  | x :: xs => x.AllStrings P ∧ allStringsItems P xs

/-- A property of all names and strings in the members of an object. -/
def allStringsMembers (P : Str → Prop) : List (Str × Tree) → Prop
  | [] => True
  | (k, x) :: ms => P k ∧ x.AllStrings P ∧ allStringsMembers P ms

end

/-! ### Encodable phrases -/

/-- Encodable texts in a row are encodable. -/
@[simp] theorem encodable_append {s t : Str} :
    Str.Encodable (s ++ t) ↔ Str.Encodable s ∧ Str.Encodable t := by
  simp [Str.Encodable, or_imp, forall_and]

/-- A character in front of a text. -/
@[simp] theorem encodable_cons {c : Chr} {t : Str} :
    Str.Encodable (c :: t) ↔ c.isSurrogate = false ∧ Str.Encodable t := by
  simp [Str.Encodable]

/-- The empty text is encodable. -/
@[simp] theorem encodable_nil : Str.Encodable [] := by simp [Str.Encodable]

/-- ASCII characters are not surrogates. -/
theorem isSurrogate_of_lt {c : Chr} (h : c.ord < 0x80) : c.isSurrogate = false := by
  simp only [Chr.isSurrogate, Bool.and_eq_false_iff, decide_eq_false_iff_not]
  omega

/-- Whitespace is encodable. -/
theorem Ws.encodable {w : Str} (h : Ws w) : w.Encodable := by
  intro c hc
  have hws := h c hc
  simp only [isWs, Bool.or_eq_true, beq_iff_eq] at hws
  exact isSurrogate_of_lt (by omega)

/-- The characters of numbers are encodable. -/
theorem encodable_of_isNumberChr {t : Str} (h : ∀ c ∈ t, isNumberChr c = true) :
    t.Encodable := by
  intro c hc
  have hnumber := h c hc
  simp only [isNumberChr, Chr.isDigit, Bool.or_eq_true, Bool.and_eq_true, decide_eq_true_eq]
    at hnumber
  obtain ((((hdigit | rfl) | rfl) | rfl) | rfl) | rfl := hnumber
  · exact isSurrogate_of_lt (by omega)
  all_goals decide

/-- Hexadecimal digits are ASCII characters. -/
theorem hexVal_lt {c : Chr} {n : ℕ} (h : hexVal c = some n) : c.ord < 0x80 := by
  unfold hexVal at h
  split at h
  · omega
  · split at h
    · omega
    · split at h
      · omega
      · simp at h

/-- The letters of the short escapes are ASCII characters. -/
theorem simpleEscape_lt {e c : Chr} (h : simpleEscape e = some c) : e.ord < 0x80 := by
  unfold simpleEscape at h
  split_ifs at h <;> subst_vars <;> decide

/-- The four digits of a `\u` escape are encodable. -/
theorem hex4_encodable {a b c d : Chr} {n : ℕ} (h : hex4 a b c d = some n) :
    Str.Encodable [a, b, c, d] := by
  simp only [hex4, Option.bind_eq_bind, Option.bind_eq_some_iff] at h
  obtain ⟨w, hw, x, hx, y, hy, z, hz, -⟩ := h
  simp [isSurrogate_of_lt (hexVal_lt hw), isSurrogate_of_lt (hexVal_lt hx),
    isSurrogate_of_lt (hexVal_lt hy), isSurrogate_of_lt (hexVal_lt hz)]

/-- A character that is written as itself occurs in the string. -/
theorem char_mem_joinPieces {c : Chr} {ps : List Piece} (h : .char c ∈ ps) :
    c ∈ joinPieces ps := by
  fun_induction joinPieces ps with
  | case1 => simp at h
  | case2 d ps ih =>
    rcases List.mem_cons.mp h with heq | h
    · simp [Piece.char.inj heq]
    · exact List.mem_cons_of_mem _ (ih h)
  | _ => exact List.mem_cons_of_mem _ (by simp_all)

/-- A string body is encodable if the characters written as themselves are. -/
theorem StringBody.encodable {t : Str} {ps : List Piece} (h : StringBody t ps)
    (hchars : ∀ c, .char c ∈ ps → c.isSurrogate = false) : t.Encodable := by
  induction h with
  | nil => simp
  | plain _ _ _ _ ih =>
    exact encodable_cons.mpr ⟨hchars _ (by simp), ih fun c hc => hchars c (by simp [hc])⟩
  | escape hesc _ ih =>
    have htail := ih fun c hc => hchars c (by simp [hc])
    simp only [encodable_cons]
    exact ⟨by decide, isSurrogate_of_lt (simpleEscape_lt hesc), htail⟩
  | unicode hhex _ ih =>
    have htail := ih fun c hc => hchars c (by simp [hc])
    have hdigits := hex4_encodable hhex
    simp only [encodable_cons] at hdigits ⊢
    exact ⟨by decide, by decide, hdigits.1, hdigits.2.1, hdigits.2.2.1, hdigits.2.2.2.1, htail⟩

/-- The text of an encodable string is encodable. -/
theorem StringBody.encodable_of_join {t : Str} {ps : List Piece} (h : StringBody t ps)
    (hs : (joinPieces ps).Encodable) : t.Encodable :=
  h.encodable fun c hc => hs c (char_mem_joinPieces hc)

/-- The text of an encodable member name is encodable. -/
theorem Name.encodable {t k : Str} (h : Name t k) (hk : k.Encodable) : t.Encodable := by
  obtain ⟨hw₁, hbody, hw₂, hw₃⟩ := h
  have hquote : Chr.isSurrogate ('"' : Char) = false := by decide
  have hcolon : Chr.isSurrogate (':' : Char) = false := by decide
  simp [hw₁.encodable, hw₂.encodable, hw₃.encodable, hbody.encodable_of_join hk, hquote, hcolon]

mutual

/-- The text of a value with encodable strings is encodable. -/
theorem Value.encodable {t : Str} {x : Tree} :
    Value t x → x.AllStrings Str.Encodable → t.Encodable
  | .nullToken, _ | .trueToken, _ | .falseToken, _ => by decide
  | .int h, _ => encodable_of_isNumberChr h.isNumberChr
  | .float h, _ => encodable_of_isNumberChr h.isNumberChr
  | .constant h, _ => by
    simp only [constants, List.mem_cons, List.not_mem_nil, or_false] at h
    rcases h with rfl | rfl | rfl <;> decide
  | .string h, hs => by
    rw [Tree.AllStrings] at hs
    simp only [encodable_cons, encodable_append, h.encodable_of_join hs]
    decide
  | .emptyArray hw, _ => by
    simp only [encodable_cons, encodable_append, hw.encodable]
    decide
  | .array h, hs => by
    rw [Tree.AllStrings] at hs
    simp only [encodable_cons, encodable_append, Items.encodable h hs]
    decide
  | .emptyObject hw, _ => by
    simp only [encodable_cons, encodable_append, hw.encodable]
    decide
  | .object h, hs => by
    rw [Tree.AllStrings] at hs
    simp only [encodable_cons, encodable_append, Members.encodable h hs]
    decide

/-- The text of items with encodable strings is encodable. -/
theorem Items.encodable {t : Str} {xs : List Tree} :
    Items t xs → allStringsItems Str.Encodable xs → t.Encodable
  | .one hw₁ h hw₂, hs => by
    obtain ⟨hx, -⟩ := hs
    simp [hw₁.encodable, hw₂.encodable, Value.encodable h hx]
  | .cons hw₁ h hw₂ hrest, hs => by
    obtain ⟨hx, hxs⟩ := hs
    have hcomma : Chr.isSurrogate (',' : Char) = false := by decide
    simp [hw₁.encodable, hw₂.encodable, Value.encodable h hx, Items.encodable hrest hxs, hcomma]

/-- The text of members with encodable names and strings is encodable. -/
theorem Members.encodable {t : Str} {ms : List (Str × Tree)} :
    Members t ms → allStringsMembers Str.Encodable ms → t.Encodable
  | .one hk h hw, hs => by
    obtain ⟨hname, hx, -⟩ := hs
    simp [hk.encodable hname, hw.encodable, Value.encodable h hx]
  | .cons hk h hw hrest, hs => by
    obtain ⟨hname, hx, hms⟩ := hs
    have hcomma : Chr.isSurrogate (',' : Char) = false := by decide
    simp [hk.encodable hname, hw.encodable, Value.encodable h hx, Members.encodable hrest hms,
      hcomma]

end

/-- A text whose strings are all encodable is encodable. -/
theorem Text.encodable {s : Str} {x : Tree} (h : Text s x) (hx : x.AllStrings Str.Encodable) :
    s.Encodable := by
  obtain ⟨w₁, t, w₂, rfl, hw₁, ht, hw₂⟩ := h
  simp [hw₁.encodable, hw₂.encodable, ht.encodable hx]

end Json
