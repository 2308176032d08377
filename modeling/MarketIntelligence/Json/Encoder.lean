import MarketIntelligence.Json.Data
import Mathlib.Data.Nat.Digits.Lemmas
import Mathlib.Data.List.Sort

/-!
# The JSON encoder

`json.dumps` with sorted keys, for either setting of `ensure_ascii` and either
layout: compact, or indented with one member per line. The main theorem gives the
parse tree that the printed text denotes, so that decoding a printed text is
known from the decoder's completeness.
-/

namespace Json

open Python

/-! ### Numbers -/

/-- The digit character of a number below ten. -/
def digitChr (n : ℕ) : Chr := chr (0x30 + n)

/-- The decimal digits of a natural number. -/
def natDigits (n : ℕ) : Str :=
  if n = 0 then lit "0" else (Nat.digits 10 n).reverse.map digitChr

/-- `int.__repr__`. -/
def intDigits : ℤ → Str
  | .ofNat n => natDigits n
  | .negSucc n => ('-' : Chr) :: natDigits (n + 1)

/-- A digit character is a digit and has the number it was made from. -/
theorem digitChr_spec {n : ℕ} (h : n < 10) :
    (digitChr n).isDigit = true ∧ (digitChr n).ord - 0x30 = n := by
  have hord : (digitChr n).ord = 0x30 + n := ord_chr (by omega)
  simp only [Chr.isDigit, hord, Bool.and_eq_true, decide_eq_true_eq]
  omega

/-- Decimal digits form a natural number of the grammar. -/
theorem natural_natDigits (n : ℕ) : Natural (natDigits n) := by
  unfold natDigits
  split
  · exact Or.inl rfl
  · next hn =>
    have hne : Nat.digits 10 n ≠ [] := Nat.digits_ne_nil_iff_ne_zero.mpr hn
    refine Or.inr ⟨⟨by simpa using hne, ?_⟩, ?_⟩
    · intro c hc
      obtain ⟨d, hd, rfl⟩ := List.mem_map.mp hc
      exact (digitChr_spec (Nat.digits_lt_base (by decide) (List.mem_reverse.mp hd))).1
    · have hlast := Nat.getLast_digit_ne_zero 10 hn
      have hlt := Nat.digits_lt_base (b := 10) (by decide) (List.getLast_mem hne)
      rw [List.head?_map, List.head?_reverse, List.getLast?_eq_some_getLast hne, Option.map_some]
      intro hzero
      have hval := (digitChr_spec hlt).2
      rw [Option.some.inj hzero] at hval
      exact hlast hval.symm

/-- Decimal digits read back as the number. -/
theorem natOfDigits_natDigits (n : ℕ) : natOfDigits (natDigits n) = n := by
  have hfold (ds : List ℕ) (hds : ∀ d ∈ ds, d < 10) :
      natOfDigits (ds.reverse.map digitChr) = Nat.ofDigits 10 ds := by
    induction ds with
    | nil => rfl
    | cons d ds ih =>
      have hd := (digitChr_spec (hds d (by simp))).2
      have htail := ih fun e he => hds e (List.mem_cons_of_mem _ he)
      simp only [natOfDigits, List.reverse_cons, List.map_append, List.map_cons, List.map_nil,
        List.foldl_append, List.foldl_cons, List.foldl_nil, hd, Nat.ofDigits_cons] at htail ⊢
      omega
  unfold natDigits
  split
  · next hn => rw [hn]; rfl
  · rw [hfold _ fun d hd => Nat.digits_lt_base (by decide) hd, Nat.ofDigits_digits]

/-- A printed integer is an integer of the grammar. -/
theorem intText_intDigits (n : ℤ) : IntText (intDigits n) := by
  cases n with
  | ofNat n => exact Or.inl (natural_natDigits n)
  | negSucc n => exact Or.inr ⟨_, rfl, natural_natDigits _⟩

/-- A printed integer reads back. -/
theorem intOfText_intDigits (n : ℤ) : intOfText (intDigits n) = n := by
  cases n with
  | ofNat n =>
    obtain ⟨c, t, ht, hc⟩ := intText_head (Or.inl (natural_natDigits n))
    have hminus : c ≠ ('-' : Char) := by
      rintro rfl
      have hnone := scanMinus_of_natural (natural_natDigits n) []
      simp [ht, scanMinus] at hnone
    rw [intDigits, ht, intOfText, if_neg hminus, ← ht, natOfDigits_natDigits]
    rfl
  | negSucc n =>
    simp only [intDigits, intOfText, if_true, natOfDigits_natDigits]
    omega

/-! ### Strings -/

/-- A hexadecimal digit, in lower case. -/
def hexDigit (n : ℕ) : Chr := if n < 10 then chr (0x30 + n) else chr (0x61 + (n - 10))

/-- A `\u` escape of a code unit. -/
def unicodeEscape (n : ℕ) : Str :=
  [('\\' : Chr), ('u' : Chr), hexDigit (n / 4096 % 16), hexDigit (n / 256 % 16),
    hexDigit (n / 16 % 16), hexDigit (n % 16)]

/-- The letter of the short escape of a character. -/
def shortEscape (c : Chr) : Option Chr :=
  if c = ('"' : Char) then some ('"' : Char)
  else if c = ('\\' : Char) then some ('\\' : Char)
  else if c = chr 0x0A then some ('n' : Char)
  else if c = chr 0x0D then some ('r' : Char)
  else if c = chr 0x09 then some ('t' : Char)
  else if c = chr 0x0C then some ('f' : Char)
  else if c = chr 0x08 then some ('b' : Char)
  else none

/-- The first half of the surrogate pair of an astral code point. -/
def highHalf (c : Chr) : Chr := chr (0xD800 + (c.ord - 0x10000) / 0x400)

/-- The second half of the surrogate pair of an astral code point. -/
def lowHalf (c : Chr) : Chr := chr (0xDC00 + (c.ord - 0x10000) % 0x400)

/-- Whether a character without a short escape is written by `\u` escapes. -/
def needsEscape (ensureAscii : Bool) (c : Chr) : Bool :=
  c.ord < 0x20 || ensureAscii && decide (0x7E < c.ord)

/-- A character as it is written inside a string. -/
def encodeChr (ensureAscii : Bool) (c : Chr) : Str :=
  match shortEscape c with
  | some e => [('\\' : Chr), e]
  | none =>
      if needsEscape ensureAscii c then
        if c.ord < 0x10000 then unicodeEscape c.ord
        else unicodeEscape (highHalf c).ord ++ unicodeEscape (lowHalf c).ord
      else [c]

/-- A string as it is written, with its quotes. -/
def encodeString (ensureAscii : Bool) (s : Str) : Str :=
  ('"' : Chr) :: (s.flatMap (encodeChr ensureAscii) ++ lit "\"")

/-- The pieces that a character is written as. -/
def encodePieces (ensureAscii : Bool) (c : Chr) : List Piece :=
  match shortEscape c with
  | some _ => [.char c]
  | none =>
      if needsEscape ensureAscii c then
        if c.ord < 0x10000 then [.unit c] else [.unit (highHalf c), .unit (lowHalf c)]
      else [.char c]

/-- The string that a decoder reads from the written form of a string. -/
def reread (ensureAscii : Bool) (s : Str) : Str :=
  joinPieces (s.flatMap (encodePieces ensureAscii))

/-- Hexadecimal digits read back. -/
theorem hexVal_hexDigit {n : ℕ} (h : n < 16) : hexVal (hexDigit n) = some n := by
  unfold hexDigit
  split
  · have hord : (chr (0x30 + n)).ord = 0x30 + n := ord_chr (by omega)
    rw [hexVal, if_pos (by omega), hord]
    congr 1
    omega
  · have hord : (chr (0x61 + (n - 10))).ord = 0x61 + (n - 10) := ord_chr (by omega)
    rw [hexVal, if_neg (by omega), if_pos (by omega), hord]
    congr 1
    omega

/-- A `\u` escape is the string body of its code unit. -/
theorem StringBody.unicodeEscape {n : ℕ} {t : Str} {ps : List Piece} (hn : n < 0x10000)
    (h : StringBody t ps) : StringBody (unicodeEscape n ++ t) (.unit (chr n) :: ps) := by
  refine .unicode ?_ h
  have hmod (m : ℕ) : m % 16 < 16 := Nat.mod_lt _ (by decide)
  simp only [hex4, hexVal_hexDigit (hmod _), Option.bind_eq_bind, Option.bind_some,
    Option.pure_def, Option.some.injEq]
  omega

/-- A short escape names the character it was written for. -/
theorem simpleEscape_of_shortEscape {c e : Chr} (h : shortEscape c = some e) :
    simpleEscape e = some c := by
  unfold shortEscape at h
  split at h
  · next hc => obtain rfl := Option.some.inj h; rw [hc]; decide
  split at h
  · next hc => obtain rfl := Option.some.inj h; rw [hc]; decide
  split at h
  · next hc => obtain rfl := Option.some.inj h; rw [hc]; decide
  split at h
  · next hc => obtain rfl := Option.some.inj h; rw [hc]; decide
  split at h
  · next hc => obtain rfl := Option.some.inj h; rw [hc]; decide
  split at h
  · next hc => obtain rfl := Option.some.inj h; rw [hc]; decide
  split at h
  · next hc => obtain rfl := Option.some.inj h; rw [hc]; decide
  · simp at h

/-- The halves of an astral code point are a surrogate pair, and their join is
the code point. -/
theorem join_halves {c : Chr} (h : 0x10000 ≤ c.ord) :
    (highHalf c).isHighSurrogate = true ∧ (lowHalf c).isLowSurrogate = true ∧
      joinSurrogates (highHalf c) (lowHalf c) = c := by
  have hlt := c.ord_lt
  have hhigh : (highHalf c).ord = 0xD800 + (c.ord - 0x10000) / 0x400 := ord_chr (by omega)
  have hlow : (lowHalf c).ord = 0xDC00 + (c.ord - 0x10000) % 0x400 := ord_chr (by omega)
  refine ⟨?_, ?_, ?_⟩
  · simp only [Chr.isHighSurrogate, hhigh, Bool.and_eq_true, decide_eq_true_eq]
    omega
  · simp only [Chr.isLowSurrogate, hlow, Bool.and_eq_true, decide_eq_true_eq]
    omega
  · ext
    rw [joinSurrogates, hhigh, hlow, ord_chr (by omega)]
    omega

/-- A written character is the string body of its pieces. -/
theorem stringBody_encodeChr (ensureAscii : Bool) (c : Chr) {t : Str} {ps : List Piece}
    (h : StringBody t ps) :
    StringBody (encodeChr ensureAscii c ++ t) (encodePieces ensureAscii c ++ ps) := by
  unfold encodeChr encodePieces
  cases hshort : shortEscape c with
  | some e => exact .escape (simpleEscape_of_shortEscape hshort) h
  | none =>
    have hquote : c ≠ ('"' : Char) := by rintro rfl; exact absurd hshort (by decide)
    have hslash : c ≠ ('\\' : Char) := by rintro rfl; exact absurd hshort (by decide)
    dsimp only
    split
    · split
      · next hsmall => simpa using StringBody.unicodeEscape hsmall h
      · next hbig =>
        have hlt := c.ord_lt
        have hhigh : (highHalf c).ord = 0xD800 + (c.ord - 0x10000) / 0x400 := ord_chr (by omega)
        have hlow : (lowHalf c).ord = 0xDC00 + (c.ord - 0x10000) % 0x400 := ord_chr (by omega)
        have htail := StringBody.unicodeEscape (n := (lowHalf c).ord) (by omega) h
        have hpair := StringBody.unicodeEscape (n := (highHalf c).ord) (by omega) htail
        simpa using hpair
    · next hplain =>
      refine .plain ?_ hquote hslash h
      simp only [needsEscape, Bool.or_eq_true, decide_eq_true_eq, not_or] at hplain
      omega

/-- A written string is the string body of its pieces. -/
theorem stringBody_flatMap (ensureAscii : Bool) (s : Str) :
    StringBody (s.flatMap (encodeChr ensureAscii)) (s.flatMap (encodePieces ensureAscii)) := by
  induction s with
  | nil => exact .nil
  | cons c s ih =>
    rw [List.flatMap_cons, List.flatMap_cons]
    exact stringBody_encodeChr ensureAscii c ih

/-- Text in which no lone high surrogate is followed by a lone low one. Python
strings built from decoded text have this property. -/
def NoSplitPair (s : Str) : Prop :=
  s.IsChain fun c d => ¬(c.isHighSurrogate = true ∧ d.isLowSurrogate = true)

/-- Text without surrogates has no split pair. -/
theorem noSplitPair_of_encodable {s : Str} (h : s.Encodable) : NoSplitPair s := by
  induction s with
  | nil => exact .nil
  | cons c s ih =>
    obtain ⟨hc, hs⟩ := List.forall_mem_cons.mp h
    refine List.isChain_cons.mpr ⟨fun d _ ⟨hhigh, _⟩ => ?_, ih hs⟩
    simp only [Chr.isHighSurrogate, Chr.isSurrogate, Bool.and_eq_true, decide_eq_true_eq,
      Bool.and_eq_false_iff, decide_eq_false_iff_not] at hhigh hc
    omega

/-- The first written piece of a string is a low surrogate only if its first
character is one. -/
theorem head_pieces {ensureAscii : Bool} {s : Str} {l : Chr} {ps : List Piece}
    (h : s.flatMap (encodePieces ensureAscii) = .unit l :: ps) (hl : l.isLowSurrogate = true) :
    s.head? = some l := by
  cases s with
  | nil => simp at h
  | cons c s =>
    rw [List.flatMap_cons] at h
    unfold encodePieces at h
    split at h
    · simp at h
    · split at h
      · split at h
        · obtain ⟨rfl, -⟩ := by simpa using h
          rfl
        · next hbig =>
          obtain ⟨rfl, -⟩ := by simpa using h
          have hhigh := (join_halves (Nat.not_lt.mp hbig)).1
          simp only [Chr.isHighSurrogate, Chr.isLowSurrogate, Bool.and_eq_true,
            decide_eq_true_eq] at hhigh hl
          omega
      · simp at h

/-- A code unit that is not the first half of a written pair stands for itself. -/
theorem joinPieces_unit {c : Chr} {ps : List Piece}
    (h : ∀ l ps', ps = .unit l :: ps' → ¬(c.isHighSurrogate = true ∧ l.isLowSurrogate = true)) :
    joinPieces (.unit c :: ps) = c :: joinPieces ps := by
  cases ps with
  | nil => rfl
  | cons p ps =>
    cases p with
    | char d => rfl
    | unit l =>
      have hnot := h l ps rfl
      rw [joinPieces, if_neg (by simpa using hnot)]

/-- A character that does not pair up with the next one is reread as itself. -/
theorem reread_cons {ensureAscii : Bool} {c : Chr} {s : Str}
    (h : ∀ d, s.head? = some d → ¬(c.isHighSurrogate = true ∧ d.isLowSurrogate = true)) :
    reread ensureAscii (c :: s) = c :: reread ensureAscii s := by
  have hunit : joinPieces (.unit c :: s.flatMap (encodePieces ensureAscii)) =
      c :: joinPieces (s.flatMap (encodePieces ensureAscii)) :=
    joinPieces_unit fun l ps' heq ⟨hhigh, hl⟩ => h l (head_pieces heq hl) ⟨hhigh, hl⟩
  unfold reread
  rw [List.flatMap_cons]
  generalize s.flatMap (encodePieces ensureAscii) = ps at hunit ⊢
  unfold encodePieces
  split
  · rfl
  · split
    · split
      · exact hunit
      · next hbig =>
        obtain ⟨hhigh, hlow, hjoin⟩ := join_halves (Nat.not_lt.mp hbig)
        simp [joinPieces, hhigh, hlow, hjoin]
    · rfl

/-- Text without a split pair is reread as itself. -/
theorem reread_of_noSplitPair {ensureAscii : Bool} {s : Str} (h : NoSplitPair s) :
    reread ensureAscii s = s := by
  induction s with
  | nil => rfl
  | cons c s ih =>
    obtain ⟨hhead, htail⟩ := List.isChain_cons.mp h
    rw [reread_cons fun d hd => hhead d hd, ih htail]

/-! ### Values -/

/-- The options of `json.dumps` that the programs use; keys are always sorted. -/
structure Layout where
  ensureAscii : Bool
  /-- Spaces per level; `none` puts everything on one line. -/
  indent : Option ℕ
  keySeparator : Str
  /-- The key separator is a colon with whitespace after it. -/
  keySeparator_eq : ∃ w, keySeparator = (':' : Chr) :: w ∧ Ws w

/-- `separators=(",", ":")`. -/
def Layout.compact (ensureAscii : Bool) : Layout :=
  ⟨ensureAscii, none, lit ":", [], rfl, by simp [Ws]⟩

/-- `indent=2`. -/
def Layout.indented : Layout := ⟨true, some 2, lit ": ", lit " ", rfl, by unfold Ws; decide⟩

/-- The line break and the indentation in front of an item. -/
def Layout.newline (l : Layout) (level : ℕ) : Str :=
  match l.indent with
  | some n => chr 0x0A :: List.replicate (n * level) (chr 0x20)
  | none => []

/-- Members in the order of their names. -/
def sortMembers {α : Type} (ms : List (Str × α)) : List (Str × α) :=
  ms.insertionSort fun m n => m.1 ≤ n.1

/-- Texts with a separator between them. -/
def joinTexts (separator : Str) : List Str → Str
  | [] => []
  | [t] => t
  | t :: ts => t ++ (separator ++ joinTexts separator ts)

variable {F : Type} [PyFloat F]

mutual

/-- `json.dumps(value, sort_keys=True)` at a level of indentation. -/
def encode (l : Layout) (level : ℕ) : Data F → Str
  | .none => lit "null"
  | .bool true => lit "true"
  | .bool false => lit "false"
  | .int n => intDigits n
  | .float f => PyFloat.repr f
  | .str s => encodeString l.ensureAscii s
  | .list xs =>
      if xs.isEmpty then lit "[]"
      else ('[' : Chr) :: (l.newline (level + 1) ++
        (joinTexts ((',' : Chr) :: l.newline (level + 1)) (encodeItems l (level + 1) xs) ++
          (l.newline level ++ lit "]")))
  | .dict ms =>
      if ms.isEmpty then lit "\x7b\x7d"
      else ('{' : Chr) :: (l.newline (level + 1) ++
        (joinTexts ((',' : Chr) :: l.newline (level + 1))
          ((sortMembers (encodeMembers l (level + 1) ms)).map fun m =>
            encodeString l.ensureAscii m.1 ++ (l.keySeparator ++ m.2)) ++
          (l.newline level ++ lit "\x7d")))

/-- The printed items of a list. -/
def encodeItems (l : Layout) (level : ℕ) : List (Data F) → List Str
  | [] => []
  | x :: xs => encode l level x :: encodeItems l level xs

/-- The keys of a dictionary with their printed values. -/
def encodeMembers (l : Layout) (level : ℕ) : List (Str × Data F) → List (Str × Str)
  | [] => []
  | (k, x) :: ms => (k, encode l level x) :: encodeMembers l level ms

end

mutual

/-- The parse tree of a printed value. -/
def printedTree (l : Layout) : Data F → Tree
  | .none => .null
  | .bool b => .bool b
  | .int n => .int (intDigits n)
  | .float f => if PyFloat.repr f ∈ constants then .constant (PyFloat.repr f)
      else .float (PyFloat.repr f)
  | .str s => .string (reread l.ensureAscii s)
  | .list xs => .array (printedItems l xs)
  | .dict ms => .object ((sortMembers (printedMembers l ms)).map fun m =>
      (reread l.ensureAscii m.1, m.2))

/-- The parse trees of the items of a list. -/
def printedItems (l : Layout) : List (Data F) → List Tree
  | [] => []
  | x :: xs => printedTree l x :: printedItems l xs

/-- The parse trees of the members of a dictionary, under the original keys. -/
def printedMembers (l : Layout) : List (Str × Data F) → List (Str × Tree)
  | [] => []
  | (k, x) :: ms => (k, printedTree l x) :: printedMembers l ms

end

/-! ### What a printed value denotes -/

/-- Line breaks are whitespace. -/
theorem ws_newline (l : Layout) (level : ℕ) : Ws (l.newline level) := by
  intro c hc
  unfold Layout.newline at hc
  split at hc
  · rcases List.mem_cons.mp hc with rfl | hc
    · decide
    · obtain rfl := List.eq_of_mem_replicate hc
      decide
  · simp at hc

/-- Sorting by name does not look at the values. -/
theorem sortMembers_map {α β : Type} (f : α → β) (ms : List (Str × α)) :
    sortMembers (ms.map fun m => (m.1, f m.2)) = (sortMembers ms).map fun m => (m.1, f m.2) :=
  (List.map_insertionSort (fun m n : Str × α => m.1 ≤ n.1) (fun m n : Str × β => m.1 ≤ n.1)
    (fun m => (m.1, f m.2)) ms fun _ _ _ _ => Iff.rfl).symm

/-- Sorting keeps the members. -/
theorem sortMembers_perm {α : Type} (ms : List (Str × α)) : (sortMembers ms).Perm ms :=
  List.perm_insertionSort _ _

/-- Printed values with separators between them are the items of an array. -/
theorem items_joinTexts {α : Type} {f : α → Str} {g : α → Tree} {w w' : Str} (hw : Ws w)
    (hw' : Ws w') {xs : List α} (hxs : xs ≠ []) (h : ∀ x ∈ xs, Value (f x) (g x)) :
    Items (w ++ (joinTexts ((',' : Chr) :: w) (xs.map f) ++ w')) (xs.map g) := by
  induction xs with
  | nil => exact absurd rfl hxs
  | cons x xs ih =>
    obtain ⟨hx, hrest⟩ := List.forall_mem_cons.mp h
    cases xs with
    | nil => exact .one hw hx hw'
    | cons y ys =>
      have htail := ih (by simp) hrest
      have hcons := Items.cons hw hx ws_nil htail
      simpa [joinTexts] using hcons

/-- Printed members with separators between them are the members of an object. -/
theorem members_joinTexts {α : Type} {f : α → Str} {g : α → Tree} (name : α → Str)
    (l : Layout) {w w' : Str} (hw : Ws w) (hw' : Ws w') {ms : List α} (hms : ms ≠ [])
    (h : ∀ m ∈ ms, Value (f m) (g m)) :
    Members (w ++ (joinTexts ((',' : Chr) :: w) (ms.map fun m =>
        encodeString l.ensureAscii (name m) ++ (l.keySeparator ++ f m)) ++ w'))
      (ms.map fun m => (reread l.ensureAscii (name m), g m)) := by
  have hname (m : α) : Name (w ++ (encodeString l.ensureAscii (name m) ++ l.keySeparator))
      (reread l.ensureAscii (name m)) := by
    obtain ⟨w₃, hsep, hw₃⟩ := l.keySeparator_eq
    have hk := Name.mk hw (stringBody_flatMap l.ensureAscii (name m)) ws_nil hw₃
    simpa [encodeString, hsep, reread, lit] using hk
  induction ms with
  | nil => exact absurd rfl hms
  | cons m ms ih =>
    obtain ⟨hm, hrest⟩ := List.forall_mem_cons.mp h
    cases ms with
    | nil =>
      have hone := Members.one (hname m) hm hw'
      simpa [joinTexts] using hone
    | cons n ns =>
      have htail := ih (by simp) hrest
      have hcons := Members.cons (hname m) hm ws_nil htail
      simpa [joinTexts] using hcons

/-- Printed items, as a map. -/
theorem encodeItems_eq (l : Layout) (level : ℕ) (xs : List (Data F)) :
    encodeItems l level xs = xs.map (encode l level) := by
  induction xs with
  | nil => rfl
  | cons x xs ih => rw [encodeItems, ih, List.map_cons]

/-- Printed members, as a map. -/
theorem encodeMembers_eq (l : Layout) (level : ℕ) (ms : List (Str × Data F)) :
    encodeMembers l level ms = ms.map fun m => (m.1, encode l level m.2) := by
  induction ms with
  | nil => rfl
  | cons m ms ih => rw [encodeMembers, ih, List.map_cons]

/-- The trees of printed items, as a map. -/
theorem printedItems_eq (l : Layout) (xs : List (Data F)) :
    printedItems l xs = xs.map (printedTree l) := by
  induction xs with
  | nil => rfl
  | cons x xs ih => rw [printedItems, ih, List.map_cons]

/-- The trees of printed members, as a map. -/
theorem printedMembers_eq (l : Layout) (ms : List (Str × Data F)) :
    printedMembers l ms = ms.map fun m => (m.1, printedTree l m.2) := by
  induction ms with
  | nil => rfl
  | cons m ms ih => rw [printedMembers, ih, List.map_cons]

mutual

/-- The printed text of a value is a JSON value and denotes the printed tree. -/
theorem value_encode (l : Layout) (level : ℕ) :
    ∀ x : Data F, Value (encode l level x) (printedTree l x)
  | .none => .nullToken
  | .bool true => .trueToken
  | .bool false => .falseToken
  | .int n => .int (intText_intDigits n)
  | .float f => by
    rw [encode, printedTree]
    split
    · next hconst => exact .constant hconst
    · next hfinite => exact .float ((PyFloat.repr_text f).resolve_right hfinite)
  | .str s => .string (stringBody_flatMap l.ensureAscii s)
  | .list xs => by
    rw [encode, printedTree, encodeItems_eq, printedItems_eq]
    split
    · next hempty =>
      obtain rfl : xs = [] := by simpa using hempty
      exact .emptyArray ws_nil
    · next hne =>
      have hitems := items_joinTexts (ws_newline l (level + 1)) (ws_newline l level)
        (by simpa using hne) (value_encodeItems l (level + 1) xs)
      simpa [lit] using Value.array hitems
  | .dict ms => by
    rw [encode, printedTree, encodeMembers_eq, printedMembers_eq, sortMembers_map,
      sortMembers_map, List.map_map, List.map_map]
    split
    · next hempty =>
      obtain rfl : ms = [] := by simpa using hempty
      exact .emptyObject ws_nil
    · next hne =>
      have hperm := sortMembers_perm ms
      have hsorted : sortMembers ms ≠ [] := fun hnil =>
        hne (by simpa [hnil] using hperm.symm)
      have hvalues (m : Str × Data F) (hm : m ∈ sortMembers ms) :
          Value (encode l (level + 1) m.2) (printedTree l m.2) :=
        value_encodeMembers l (level + 1) ms m (hperm.mem_iff.mp hm)
      have hmembers := members_joinTexts Prod.fst l (ws_newline l (level + 1))
        (ws_newline l level) hsorted hvalues
      simpa [lit, Function.comp_def] using Value.object hmembers

/-- The printed items of a list are JSON values. -/
theorem value_encodeItems (l : Layout) (level : ℕ) :
    ∀ xs : List (Data F), ∀ x ∈ xs, Value (encode l level x) (printedTree l x)
  | [] => by simp
  | x :: xs => List.forall_mem_cons.mpr
      ⟨value_encode l level x, value_encodeItems l level xs⟩

/-- The printed values of a dictionary are JSON values. -/
theorem value_encodeMembers (l : Layout) (level : ℕ) :
    ∀ ms : List (Str × Data F), ∀ m ∈ ms, Value (encode l level m.2) (printedTree l m.2)
  | [] => by simp
  | (_, x) :: ms => List.forall_mem_cons.mpr
      ⟨value_encode l level x, value_encodeMembers l level ms⟩

end

/-- A printed value is a JSON text. -/
theorem text_encode (l : Layout) (level : ℕ) (x : Data F) :
    Text (encode l level x) (printedTree l x) :=
  ⟨[], _, [], by simp, ws_nil, value_encode l level x, ws_nil⟩

end Json
