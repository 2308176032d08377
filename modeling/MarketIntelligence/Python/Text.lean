import Mathlib.Data.List.TakeWhile
import Mathlib.Order.Lattice
import Mathlib.Data.List.Lex

/-!
# Python text

A Python `str` is a sequence of code points in which surrogates may occur on
their own. Lean's `Char` excludes surrogates, so text is modelled here by code
points below `0x110000`. The operations are the ones of `str` used by the
modelled programs: length is `List.length`, comparison is by code points, and
UTF-8 encoding fails exactly on text that contains a surrogate.
-/

namespace Python

/-- One code point of a Python string, surrogates included. -/
@[ext] structure Chr where
  /-- The code point, as returned by `ord`. -/
  ord : ℕ
  /-- Code points end at U+10FFFF. -/
  ord_lt : ord < 0x110000
  deriving DecidableEq

/-- A Python string. -/
abbrev Str := List Chr

/-- Strings are compared character by character. -/
instance : LawfulBEq Str := List.instLawfulBEq

/-- Code points are ordered by their numbers, and strings lexicographically. -/
instance : LinearOrder Chr := LinearOrder.lift' Chr.ord fun _ _ h => Chr.ext h

/-- Every Lean character is a code point. -/
def Chr.ofChar (c : Char) : Chr := ⟨c.toNat, by
  rcases c.valid with h | h <;> simp only [Char.toNat] at * <;> omega⟩

instance : Coe Char Chr := ⟨Chr.ofChar⟩

/-- A string literal of the source. -/
def lit (s : String) : Str := s.toList.map Chr.ofChar

/-- Different characters have different code points. -/
theorem Chr.ofChar_inj {c d : Char} (h : Chr.ofChar c = Chr.ofChar d) : c = d := by
  have hord : c.toNat = d.toNat := congrArg Chr.ord h
  exact Char.ext (UInt32.toNat_inj.mp hord)

/-- Different literals are different texts. -/
@[simp] theorem lit_inj {s t : String} : lit s = lit t ↔ s = t := by
  constructor
  · intro h
    have hchars := List.map_injective_iff.mpr (fun _ _ => Chr.ofChar_inj) h
    exact String.toList_inj.mp hchars
  · exact congrArg lit

/-- Only the empty literal is the empty text. -/
@[simp] theorem lit_eq_nil {s : String} : lit s = [] ↔ s = "" := by
  rw [show ([] : Str) = lit "" from rfl, lit_inj]

/-- `chr(n)`, for numbers that are code points. -/
def chr (n : ℕ) : Chr := if h : n < 0x110000 then ⟨n, h⟩ else ⟨0, by omega⟩

/-- `ord` undoes `chr` on code points. -/
theorem ord_chr {n : ℕ} (h : n < 0x110000) : (chr n).ord = n := by simp [chr, h]

/-- `chr` undoes `ord`. -/
@[simp] theorem chr_ord (c : Chr) : chr c.ord = c := by simp [chr, c.ord_lt]

namespace Chr

/-- The first half of a surrogate pair. -/
def isHighSurrogate (c : Chr) : Bool := 0xD800 ≤ c.ord && c.ord < 0xDC00

/-- The second half of a surrogate pair. -/
def isLowSurrogate (c : Chr) : Bool := 0xDC00 ≤ c.ord && c.ord < 0xE000

/-- A surrogate of either kind, which stands for no character by itself. -/
def isSurrogate (c : Chr) : Bool := 0xD800 ≤ c.ord && c.ord ≤ 0xDFFF

/-- An ASCII digit. -/
def isDigit (c : Chr) : Bool := 0x30 ≤ c.ord && c.ord ≤ 0x39

/-- An ASCII capital letter. -/
def isAsciiUpper (c : Chr) : Bool := 0x41 ≤ c.ord && c.ord ≤ 0x5A

/-- An ASCII small letter. -/
def isAsciiLower (c : Chr) : Bool := 0x61 ≤ c.ord && c.ord ≤ 0x7A

/-- `str.isspace` on one code point, which is what `str.strip` and `str.split`
remove: the bidirectional classes WS, B and S and the category Zs. -/
def isSpace (c : Chr) : Bool :=
  (0x09 ≤ c.ord && c.ord ≤ 0x0D) || (0x1C ≤ c.ord && c.ord ≤ 0x20) || c.ord == 0x85 ||
    c.ord == 0xA0 || c.ord == 0x1680 || (0x2000 ≤ c.ord && c.ord ≤ 0x200A) ||
    c.ord == 0x2028 || c.ord == 0x2029 || c.ord == 0x202F || c.ord == 0x205F || c.ord == 0x3000

/-- A code point that is no surrogate is a Lean character. -/
theorem isValidChar_of_not_isSurrogate {c : Chr} (h : c.isSurrogate = false) :
    c.ord.isValidChar := by
  have hlt := c.ord_lt
  simp only [isSurrogate, Bool.and_eq_false_iff, decide_eq_false_iff_not] at h
  simp only [Nat.isValidChar]
  omega

/-- The Lean character of a code point that is no surrogate. -/
def toChar? (c : Chr) : Option Char :=
  if c.isSurrogate then none else some (Char.ofNat c.ord)

/-- Reading a code point as a Lean character loses nothing. -/
theorem ofChar_of_toChar? {c : Chr} {d : Char} (h : c.toChar? = some d) : ofChar d = c := by
  unfold toChar? at h
  split at h
  · simp at h
  · next hs =>
    have hv := isValidChar_of_not_isSurrogate (by simpa using hs)
    obtain rfl := Option.some.inj h
    have hchar : Char.ofNat c.ord = Char.ofNatAux c.ord hv := dif_pos hv
    ext
    rw [hchar]
    rfl

end Chr

namespace Str

/-- Text without surrogates, which is the text that UTF-8 can encode. -/
def Encodable (s : Str) : Prop := ∀ c ∈ s, c.isSurrogate = false

instance (s : Str) : Decidable s.Encodable := inferInstanceAs (Decidable (∀ c ∈ s, _))

/-- `s.encode("utf-8")`; `none` is the `UnicodeEncodeError`. -/
def encode (s : Str) : Option (List UInt8) :=
  (s.mapM Chr.toChar?).map fun cs => cs.flatMap String.utf8EncodeChar

/-- `s.strip()`. -/
def strip (s : Str) : Str := ((s.dropWhile Chr.isSpace).reverse.dropWhile Chr.isSpace).reverse

/-- `s.isascii()`. -/
def isAscii (s : Str) : Bool := s.all fun c => c.ord < 0x80

/-- `s.isupper()` for ASCII text: there is a cased letter, and none is small. -/
def isUpper (s : Str) : Bool := s.any Chr.isAsciiUpper && !s.any Chr.isAsciiLower

/-- `s.isalpha()` for ASCII text. -/
def isAlpha (s : Str) : Bool :=
  s != [] && s.all fun c => c.isAsciiUpper || c.isAsciiLower

/-- Encoding succeeds exactly on text without surrogates. -/
theorem encode_isSome {s : Str} : s.encode.isSome ↔ s.Encodable := by
  induction s with
  | nil => simp [encode, Encodable]
  | cons c s ih =>
    simp only [encode, Encodable, Option.isSome_map, List.forall_mem_cons] at ih ⊢
    cases hc : c.isSurrogate <;> cases hs : s.mapM Chr.toChar? <;>
      simp_all [List.mapM_cons, Chr.toChar?]

/-- UTF-8 is injective on lists of characters. -/
theorem flatMap_utf8EncodeChar_injective {l l' : List Char}
    (h : l.flatMap String.utf8EncodeChar = l'.flatMap String.utf8EncodeChar) : l = l' := by
  have hbytes : (String.ofList l).toByteArray = (String.ofList l').toByteArray := by
    simp only [String.toByteArray_ofList, List.utf8Encode, h]
  simpa using congrArg String.toList (String.toByteArray_inj.mp hbytes)

/-- Characters of a string that are all readable determine the string. -/
theorem eq_map_ofChar {s : Str} {cs : List Char} (h : s.mapM Chr.toChar? = some cs) :
    s = cs.map Chr.ofChar := by
  induction s generalizing cs with
  | nil => simp_all
  | cons c s ih =>
    rw [List.mapM_cons] at h
    cases hc : c.toChar? with
    | none => simp [hc] at h
    | some d =>
      cases hs : s.mapM Chr.toChar? with
      | none => simp [hc, hs] at h
      | some ds =>
        have hcs : d :: ds = cs := by simpa [hc, hs] using h
        subst hcs
        rw [List.map_cons, Chr.ofChar_of_toChar? hc, ← ih hs]

/-- Two strings with the same UTF-8 bytes are equal. -/
theorem encode_injective {s t : Str} {bytes : List UInt8} (hs : s.encode = some bytes)
    (ht : t.encode = some bytes) : s = t := by
  simp only [encode, Option.map_eq_some_iff] at hs ht
  obtain ⟨cs, hcs, hcsBytes⟩ := hs
  obtain ⟨ds, hds, hdsBytes⟩ := ht
  have hchars := flatMap_utf8EncodeChar_injective (hcsBytes.trans hdsBytes.symm)
  rw [eq_map_ofChar hcs, eq_map_ofChar hds, hchars]

end Str

end Python
