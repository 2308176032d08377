import MarketIntelligence.Python.RoundTrip

/-!
# Files that were written

With `ensure_ascii`, `json.dumps` writes ASCII characters without a carriage return. Such a text
is read from its bytes as it was written, so a value comes back from its file as from its text.
-/

namespace Json

open Python

/-- An ASCII character that universal newlines keep. -/
def Unchanged (c : Chr) : Prop := c.ord < 0x80 ∧ c.ord ≠ 0x0D

instance (c : Chr) : Decidable (Unchanged c) := inferInstanceAs (Decidable (_ ∧ _))

/-! ### Printed texts -/

/-- Hexadecimal digits are kept. -/
theorem unchanged_hexDigit {n : ℕ} (h : n < 16) : Unchanged (hexDigit n) := by
  unfold Unchanged hexDigit
  split
  · rw [ord_chr (by omega)]
    omega
  · rw [ord_chr (by omega)]
    omega

/-- Escapes are kept. -/
theorem unchanged_unicodeEscape (n : ℕ) : ∀ c ∈ unicodeEscape n, Unchanged c := by
  have hdigit (m : ℕ) : Unchanged (hexDigit (m % 16)) :=
    unchanged_hexDigit (Nat.mod_lt _ (by decide))
  have hslash : Unchanged ('\\' : Char) := by decide
  have hletter : Unchanged ('u' : Char) := by decide
  simp [unicodeEscape, hdigit, hslash, hletter]

/-- The letters of short escapes are kept. -/
theorem unchanged_shortEscape {c e : Chr} (h : shortEscape c = some e) : Unchanged e := by
  unfold shortEscape at h
  split_ifs at h <;> (obtain rfl := Option.some.inj h; decide)

/-- Written characters are kept. -/
theorem unchanged_encodeChr (c : Chr) : ∀ d ∈ encodeChr true c, Unchanged d := by
  unfold encodeChr
  cases hshort : shortEscape c with
  | some e =>
    have hslash : Unchanged ('\\' : Char) := by decide
    simp [hslash, unchanged_shortEscape hshort]
  | none =>
    dsimp only
    split
    · split
      · exact unchanged_unicodeEscape _
      · exact List.forall_mem_append.mpr ⟨unchanged_unicodeEscape _, unchanged_unicodeEscape _⟩
    · next hplain =>
      simp only [needsEscape, Bool.true_and, Bool.or_eq_true, decide_eq_true_eq, not_or] at hplain
      refine List.forall_mem_singleton.mpr ⟨by omega, by omega⟩

/-- Written strings are kept. -/
theorem unchanged_encodeString (s : Str) : ∀ c ∈ encodeString true s, Unchanged c := by
  have hquote : Unchanged ('"' : Char) := by decide
  have hclose : ∀ c ∈ lit "\"", Unchanged c := by decide
  refine List.forall_mem_cons.mpr ⟨hquote, List.forall_mem_append.mpr ⟨fun c hc => ?_, hclose⟩⟩
  obtain ⟨d, -, hd⟩ := List.mem_flatMap.mp hc
  exact unchanged_encodeChr d c hd

/-- Characters of numbers are kept. -/
theorem unchanged_of_isNumberChr {t : Str} (h : ∀ c ∈ t, isNumberChr c = true) :
    ∀ c ∈ t, Unchanged c := by
  intro c hc
  have hnumber := h c hc
  simp only [isNumberChr, Chr.isDigit, Bool.or_eq_true, Bool.and_eq_true, decide_eq_true_eq]
    at hnumber
  obtain ((((hdigit | rfl) | rfl) | rfl) | rfl) | rfl := hnumber
  · exact ⟨by omega, by omega⟩
  all_goals decide

/-- A layout that writes only characters that are kept. -/
structure Layout.Plain (l : Layout) : Prop where
  ensureAscii : l.ensureAscii = true
  keySeparator : ∀ c ∈ l.keySeparator, Unchanged c

/-- The compact layout, with `ensure_ascii`. -/
theorem plain_compact : (Layout.compact true).Plain := ⟨rfl, by decide⟩

/-- Line breaks are kept. -/
theorem unchanged_newline (l : Layout) (level : ℕ) : ∀ c ∈ l.newline level, Unchanged c := by
  unfold Layout.newline
  split
  · refine List.forall_mem_cons.mpr ⟨by decide, fun c hc => ?_⟩
    obtain rfl := List.eq_of_mem_replicate hc
    decide
  · simp

/-- Texts that are joined are kept. -/
theorem unchanged_joinTexts {separator : Str} {ts : List Str}
    (hseparator : ∀ c ∈ separator, Unchanged c) (hts : ∀ t ∈ ts, ∀ c ∈ t, Unchanged c) :
    ∀ c ∈ joinTexts separator ts, Unchanged c := by
  induction ts using joinTexts.induct with
  | case1 => simp [joinTexts]
  | case2 t => simpa [joinTexts] using hts
  | case3 t ts hne ih =>
    obtain ⟨ht, hrest⟩ := List.forall_mem_cons.mp hts
    rw [joinTexts]
    · exact List.forall_mem_append.mpr ⟨ht, List.forall_mem_append.mpr ⟨hseparator, ih hrest⟩⟩
    · exact hne

variable {F : Type} [PyFloat F]

/-- A bracketed text is kept if what is joined in it is. -/
theorem unchanged_bracketed (l : Layout) (level : ℕ) {left : Chr} {right : Str} {ts : List Str}
    (hleft : Unchanged left) (hright : ∀ c ∈ right, Unchanged c)
    (hts : ∀ t ∈ ts, ∀ c ∈ t, Unchanged c) :
    ∀ c ∈ left :: (l.newline (level + 1) ++
      (joinTexts ((',' : Chr) :: l.newline (level + 1)) ts ++ (l.newline level ++ right))),
      Unchanged c := by
  have hcomma : Unchanged (',' : Char) := by decide
  have hseparator := List.forall_mem_cons.mpr ⟨hcomma, unchanged_newline l (level + 1)⟩
  refine List.forall_mem_cons.mpr ⟨hleft, List.forall_mem_append.mpr
    ⟨unchanged_newline l _, List.forall_mem_append.mpr ⟨?_, ?_⟩⟩⟩
  · exact unchanged_joinTexts hseparator hts
  · exact List.forall_mem_append.mpr ⟨unchanged_newline l _, hright⟩

mutual

/-- Printed values are kept. -/
theorem unchanged_encode {l : Layout} (h : l.Plain) : ∀ (x : Data F) (level : ℕ),
    ∀ c ∈ encode l level x, Unchanged c
  | .none, _ | .bool true, _ | .bool false, _ => by
    rw [encode]
    decide
  | .int n, _ => unchanged_of_isNumberChr (intText_intDigits n).isNumberChr
  | .float f, _ => by
    obtain htext | hconstant := PyFloat.repr_text f
    · exact unchanged_of_isNumberChr htext.isNumberChr
    · have hconstants : ∀ t ∈ constants, ∀ c ∈ t, Unchanged c := by decide
      exact hconstants _ hconstant
  | .str s, _ => by
    rw [encode, h.ensureAscii]
    exact unchanged_encodeString s
  | .list xs, level => by
    rw [encode]
    split
    · decide
    · refine unchanged_bracketed l level (by decide) (by decide) fun t ht => ?_
      rw [encodeItems_eq] at ht
      obtain ⟨x, hx, rfl⟩ := List.mem_map.mp ht
      exact unchanged_encodeItems h xs x hx _
  | .dict ms, level => by
    rw [encode]
    split
    · decide
    · refine unchanged_bracketed l level (by decide) (by decide) fun t ht => ?_
      rw [encodeMembers_eq, sortMembers_map, List.map_map] at ht
      obtain ⟨m, hm, rfl⟩ := List.mem_map.mp ht
      have hmem := (sortMembers_perm ms).mem_iff.mp hm
      have hvalue := unchanged_encodeMembers h ms m hmem (level + 1)
      rw [h.ensureAscii]
      exact List.forall_mem_append.mpr ⟨unchanged_encodeString m.1,
        List.forall_mem_append.mpr ⟨h.keySeparator, hvalue⟩⟩

/-- The same for the items of a list. -/
theorem unchanged_encodeItems {l : Layout} (h : l.Plain) : ∀ xs : List (Data F), ∀ x ∈ xs,
    ∀ level, ∀ c ∈ encode l level x, Unchanged c
  | [] => by simp
  | x :: xs => List.forall_mem_cons.mpr ⟨unchanged_encode h x, unchanged_encodeItems h xs⟩

/-- The same for the values of a dictionary. -/
theorem unchanged_encodeMembers {l : Layout} (h : l.Plain) : ∀ ms : List (Str × Data F), ∀ m ∈ ms,
    ∀ level, ∀ c ∈ encode l level m.2, Unchanged c
  | [] => by simp
  | (_, x) :: ms => List.forall_mem_cons.mpr ⟨unchanged_encode h x, unchanged_encodeMembers h ms⟩

end

end Json

namespace Python

open Json

/-! ### Files -/

/-- ASCII characters are decoded from their bytes. -/
theorem decodeUtf8_asciiBytes {s : Str} (h : ∀ c ∈ s, Unchanged c) :
    decodeUtf8 (asciiBytes s) = some s := by
  induction s with
  | nil => rfl
  | cons c s ih =>
    obtain ⟨⟨hascii, -⟩, hs⟩ := List.forall_mem_cons.mp h
    have hbyte : (UInt8.ofNat c.ord).toNat = c.ord := by
      rw [UInt8.toNat_ofNat']
      omega
    have hrest : decodeUtf8 (asciiBytes s) = some s := ih hs
    rw [asciiBytes, List.map_cons, decodeUtf8.eq_def]
    dsimp only
    rw [hbyte, if_pos hascii]
    unfold asciiBytes at hrest
    rw [hrest, Option.map_some, chr_ord]

/-- Without a carriage return, universal newlines change nothing. -/
theorem universalNewlines_unchanged {s : Str} (h : ∀ c ∈ s, Unchanged c) :
    universalNewlines s = s := by
  have hne {c : Chr} (hc : Unchanged c) : c ≠ chr 0x0D := by
    rintro rfl
    exact hc.2 (ord_chr (by decide))
  induction s with
  | nil => rfl
  | cons c s ih =>
    obtain ⟨hc, hs⟩ := List.forall_mem_cons.mp h
    cases s with
    | nil => rw [universalNewlines, if_neg (hne hc)]
    | cons d s => rw [universalNewlines, if_neg (hne hc), ih hs]

variable {F : Type} [PyFloat F]

/-- A value that was written to a file is read back from it. -/
theorem readJson_dumps {py : Interpreter F} {l : Layout} (hl : l.Plain) {x : Data F} {text : Str}
    (h : Data.dumps py l x = .ok text) :
    readJson py.limits (asciiBytes text) = .ok (x.reloaded true) := by
  obtain ⟨_, -, htext⟩ := bind_eq_ok.mp h
  have hkept : ∀ c ∈ text, Unchanged c := by
    rw [← Except.ok.inj htext]
    exact unchanged_encode hl x 0
  have hread : readText (asciiBytes text) = .ok text := by
    rw [readText, decodeUtf8_asciiBytes hkept]
    exact congrArg Except.ok (universalNewlines_unchanged hkept)
  have hloads := jsonLoads_dumps h (w := []) ws_nil
  rw [List.append_nil, hl.ensureAscii] at hloads
  exact bind_eq_ok.mpr ⟨text, hread, hloads⟩

end Python
