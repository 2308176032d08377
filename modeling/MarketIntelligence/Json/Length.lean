import MarketIntelligence.Json.Encoder
import MarketIntelligence.Json.Surrogates

/-!
# The length of compact texts

The compact spelling of a parse tree, without whitespace and with escapes only where
the encoder needs them, is the shortest text that denotes it. Every escape that the
grammar allows takes at least as many characters as the encoder spends on the
character it stands for.
-/

namespace Json

open Python

/-- How many characters the encoder spends on a string, without its quotes. -/
def bodyLength (s : Str) : ℕ := (s.flatMap (encodeChr false)).length

mutual

/-- The length of the compact spelling of a tree. -/
def Tree.compactLength : Tree → ℕ
  | .null => 4
  | .bool true => 4
  | .bool false => 5
  | .int t | .float t | .constant t => t.length
  | .string s => bodyLength s + 2
  -- every item is followed by a comma or by the closing bracket
  | .array xs => max 2 (compactItems xs + 1)
  | .object ms => max 2 (compactMembers ms + 1)

/-- The length of compact items, each with the separator or bracket after it. -/
def compactItems : List Tree → ℕ
  | [] => 0
  | x :: xs => x.compactLength + 1 + compactItems xs

/-- The length of compact members, each with the separator or brace after it. -/
def compactMembers : List (Str × Tree) → ℕ
  | [] => 0
  | (k, x) :: ms => bodyLength k + 3 + x.compactLength + 1 + compactMembers ms

end

/-! ### Characters and pieces -/

/-- The empty string takes no characters. -/
@[simp] theorem bodyLength_nil : bodyLength [] = 0 := rfl

/-- The characters of a string are written one after the other. -/
@[simp] theorem bodyLength_cons (c : Chr) (s : Str) :
    bodyLength (c :: s) = (encodeChr false c).length + bodyLength s := by
  simp [bodyLength]

/-- A character that stands for itself is written as itself. -/
theorem encodeChr_plain {c : Chr} (hcontrol : 0x20 ≤ c.ord) (hquote : c ≠ ('"' : Char))
    (hslash : c ≠ ('\\' : Char)) : encodeChr false c = [c] := by
  have hshort : shortEscape c = none := by
    have hne {n : ℕ} (hn : n < 0x20) : c ≠ chr n := by
      rintro rfl
      rw [ord_chr (by omega)] at hcontrol
      omega
    simp [shortEscape, hquote, hslash, hne]
  have hneeds : needsEscape false c = false := by
    simp only [needsEscape, Bool.false_and, Bool.or_false, decide_eq_false_iff_not]
    omega
  simp [encodeChr, hshort, hneeds]

/-- No character takes more than one `\u` escape. -/
theorem encodeChr_length_le (c : Chr) : (encodeChr false c).length ≤ 6 := by
  unfold encodeChr
  split
  · simp
  · split
    · next hneeds =>
      have hcontrol : c.ord < 0x20 := by simpa [needsEscape] using hneeds
      rw [if_pos (by omega)]
      simp [unicodeEscape]
    · simp

/-- A character with a short escape takes at most two characters. -/
theorem encodeChr_length_le_of_simpleEscape {e c : Chr} (h : simpleEscape e = some c) :
    (encodeChr false c).length ≤ 2 := by
  unfold simpleEscape at h
  split_ifs at h <;> obtain rfl := Option.some.inj h <;> decide

/-- The join of a surrogate pair takes one character. -/
theorem encodeChr_joinSurrogates {h l : Chr} (hh : h.isHighSurrogate = true)
    (hl : l.isLowSurrogate = true) : (encodeChr false (joinSurrogates h l)).length ≤ 1 := by
  simp only [Chr.isHighSurrogate, Chr.isLowSurrogate, Bool.and_eq_true, decide_eq_true_eq]
    at hh hl
  have hord : (joinSurrogates h l).ord =
      0x10000 + (h.ord - 0xD800) * 0x400 + (l.ord - 0xDC00) := ord_chr (by omega)
  have hne {d : Char} (hd : (d : Chr).ord < 0x10000) : joinSurrogates h l ≠ d := by
    intro heq
    rw [heq] at hord
    omega
  rw [encodeChr_plain (by omega) (hne (by decide)) (hne (by decide))]
  simp

/-- How many characters the text of a piece has at least. -/
def Piece.length : Piece → ℕ
  | .char c => (encodeChr false c).length
  | .unit _ => 6

/-- Pieces are not shorter than what the encoder writes for their string. -/
theorem bodyLength_joinPieces (ps : List Piece) :
    bodyLength (joinPieces ps) ≤ (ps.map Piece.length).sum := by
  fun_induction joinPieces ps with
  | case1 => simp
  | case2 c ps ih =>
    simp only [bodyLength_cons, List.map_cons, List.sum_cons, Piece.length]
    omega
  | case3 h l ps hpair ih =>
    -- two escapes of six characters for a single character
    obtain ⟨hh, hl⟩ := Bool.and_eq_true_iff.mp hpair
    have hone := encodeChr_joinSurrogates hh hl
    simp only [bodyLength_cons, List.map_cons, List.sum_cons, Piece.length]
    omega
  | case4 h l ps _ ih =>
    have hsix := encodeChr_length_le h
    simp only [List.map_cons, List.sum_cons, Piece.length] at ih
    simp only [bodyLength_cons, List.map_cons, List.sum_cons, Piece.length]
    omega
  | case5 c ps _ ih =>
    have hsix := encodeChr_length_le c
    simp only [bodyLength_cons, List.map_cons, List.sum_cons, Piece.length]
    omega

/-- The text between the quotes is at least as long as its pieces. -/
theorem StringBody.length_le {t : Str} {ps : List Piece} (h : StringBody t ps) :
    (ps.map Piece.length).sum ≤ t.length := by
  induction h with
  | nil => simp
  | plain hcontrol hquote hslash _ ih =>
    simp only [List.map_cons, List.sum_cons, Piece.length, List.length_cons,
      encodeChr_plain hcontrol hquote hslash, List.length_nil]
    omega
  | escape hesc _ ih =>
    have htwo := encodeChr_length_le_of_simpleEscape hesc
    simp only [List.map_cons, List.sum_cons, Piece.length, List.length_cons]
    omega
  | unicode _ _ ih =>
    simp only [List.map_cons, List.sum_cons, Piece.length, List.length_cons]
    omega

/-- A string body is at least as long as what the encoder writes for its string. -/
theorem StringBody.bodyLength_le {t : Str} {ps : List Piece} (h : StringBody t ps) :
    bodyLength (joinPieces ps) ≤ t.length :=
  (bodyLength_joinPieces ps).trans h.length_le

/-! ### Values -/

/-- A member name takes its quotes and a colon besides its characters. -/
theorem Name.length_le {t k : Str} (h : Name t k) : bodyLength k + 3 ≤ t.length := by
  obtain ⟨-, hbody, -, -⟩ := h
  have hle := hbody.bodyLength_le
  simp only [List.length_append, List.length_cons]
  omega

mutual

/-- The text of a value is at least as long as the compact spelling of its tree. -/
theorem Value.compactLength_le {t : Str} {x : Tree} : Value t x → x.compactLength ≤ t.length
  | .nullToken | .trueToken | .falseToken => by decide
  | .int _ | .float _ | .constant _ => by simp [Tree.compactLength]
  | .string h => by
    have hle := h.bodyLength_le
    simp only [Tree.compactLength, List.length_append, List.length_cons, lit]
    simp
    omega
  | .emptyArray _ => by simp [Tree.compactLength, compactItems, lit]
  | .array h => by
    have hle := Items.compactItems_le h
    simp only [Tree.compactLength, List.length_append, List.length_cons, lit]
    simp
    omega
  | .emptyObject _ => by simp [Tree.compactLength, compactMembers, lit]
  | .object h => by
    have hle := Members.compactMembers_le h
    simp only [Tree.compactLength, List.length_append, List.length_cons, lit]
    simp
    omega

/-- The text of the items of an array, with the bracket after it. -/
theorem Items.compactItems_le {t : Str} {xs : List Tree} :
    Items t xs → compactItems xs ≤ t.length + 1
  | .one _ h _ => by
    have hle := Value.compactLength_le h
    simp only [compactItems, List.length_append]
    omega
  | .cons _ h _ hrest => by
    have hle := Value.compactLength_le h
    have htail := Items.compactItems_le hrest
    simp only [compactItems, List.length_append, List.length_cons]
    omega

/-- The text of the members of an object, with the brace after it. -/
theorem Members.compactMembers_le {t : Str} {ms : List (Str × Tree)} :
    Members t ms → compactMembers ms ≤ t.length + 1
  | .one hname h _ => by
    have hkey := hname.length_le
    have hle := Value.compactLength_le h
    simp only [compactMembers, List.length_append]
    omega
  | .cons hname h _ hrest => by
    have hkey := hname.length_le
    have hle := Value.compactLength_le h
    have htail := Members.compactMembers_le hrest
    simp only [compactMembers, List.length_append, List.length_cons]
    omega

end

/-- A text is at least as long as the compact spelling of what it denotes. -/
theorem Text.compactLength_le {s : Str} {x : Tree} (h : Text s x) :
    x.compactLength ≤ s.length := by
  obtain ⟨w₁, t, w₂, rfl, -, ht, -⟩ := h
  have hle := ht.compactLength_le
  simp only [List.length_append]
  omega

/-! ### Printed members -/

/-- The order of the members does not matter for the length. -/
theorem compactMembers_perm {ms ns : List (Str × Tree)} (h : ms.Perm ns) :
    compactMembers ms = compactMembers ns := by
  induction h with
  | nil => rfl
  | cons m _ ih => simp only [compactMembers, ih]
  | swap m n ms =>
    simp only [compactMembers]
    omega
  | trans _ _ ih₁ ih₂ => exact ih₁.trans ih₂

/-- Texts with one character between them, and one more after them. -/
theorem joinTexts_length (c : Chr) {ts : List Str} (hts : ts ≠ []) :
    (joinTexts [c] ts).length + 1 = (ts.map fun t => t.length + 1).sum := by
  induction ts with
  | nil => exact absurd rfl hts
  | cons t ts ih =>
    cases ts with
    | nil => simp [joinTexts]
    | cons u us =>
      have htail := ih (by simp)
      simp only [joinTexts, List.length_append, List.length_cons, List.length_nil, List.map_cons,
        List.sum_cons] at htail ⊢
      omega

/-- A printed string has its quotes besides its characters. -/
theorem encodeString_length (s : Str) : (encodeString false s).length = bodyLength s + 2 := by
  simp [encodeString, bodyLength, lit]

/-- Printed members of strings, each with the separator or brace after it. -/
theorem printedStrings_length (ms : List (Str × Str)) :
    (ms.map fun m =>
        (encodeString false m.1 ++ (lit ":" ++ encodeString false m.2)).length + 1).sum =
      compactMembers (ms.map fun m => (m.1, .string m.2)) := by
  induction ms with
  | nil => rfl
  | cons m ms ih =>
    have hm : (encodeString false m.1 ++ (lit ":" ++ encodeString false m.2)).length + 1 =
        bodyLength m.1 + 3 + (bodyLength m.2 + 2) + 1 := by
      have hcolon : (lit ":").length = 1 := rfl
      simp only [List.length_append, encodeString_length, hcolon]
      omega
    rw [List.map_cons, List.sum_cons, hm, ih, List.map_cons, compactMembers, Tree.compactLength]

/-- A dictionary of strings is printed compactly in its compact length. -/
theorem encode_strings_length {F : Type} [PyFloat F] (level : ℕ) (ms : List (Str × Str)) :
    (encode (F := F) (Layout.compact false) level
        (.dict (ms.map fun m => (m.1, .str m.2)))).length =
      (Tree.object (ms.map fun m => (m.1, .string m.2))).compactLength := by
  cases ms with
  | nil => rfl
  | cons m ms =>
    have hsorted : sortMembers (m :: ms) ≠ [] := fun hnil => by
      have hlen := (sortMembers_perm (m :: ms)).length_eq
      simp [hnil] at hlen
    have hmembers : encodeMembers (F := F) (Layout.compact false) (level + 1)
        ((m :: ms).map fun m => (m.1, .str m.2)) =
          (m :: ms).map fun m => (m.1, encodeString false m.2) := by
      rw [encodeMembers_eq, List.map_map]
      rfl
    have htexts : ((sortMembers (m :: ms)).map fun m =>
        encodeString false m.1 ++ (lit ":" ++ encodeString false m.2)) ≠ [] := by
      simpa using hsorted
    have hjoin := joinTexts_length (',' : Char) htexts
    rw [List.map_map] at hjoin
    have hsum := hjoin.trans (printedStrings_length (sortMembers (m :: ms)))
    rw [compactMembers_perm ((sortMembers_perm (m :: ms)).map fun m : Str × Str =>
      (m.1, Tree.string m.2))] at hsum
    have hpos : 1 ≤ compactMembers ((m :: ms).map fun m => (m.1, Tree.string m.2)) := by
      simp only [List.map_cons, compactMembers]
      omega
    have hbrace : (lit "\x7d").length = 1 := rfl
    rw [encode, if_neg (by simp), hmembers, sortMembers_map, List.map_map]
    simp only [Function.comp_def, Layout.compact, Layout.newline, List.length_cons,
      List.length_append, List.length_nil, Tree.compactLength, hbrace] at hsum ⊢
    omega

end Json
