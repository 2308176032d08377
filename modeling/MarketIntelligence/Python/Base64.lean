import MarketIntelligence.Json.Encoder

/-!
# Base64 for URLs

`base64.urlsafe_b64encode`, and the form without padding in which package records write
their digests. Different bytes have different unpadded texts.
-/

namespace Python

open Json

/-- A digit of the URL-safe alphabet. -/
def digit64 (n : ℕ) : Chr :=
  if n < 26 then chr (0x41 + n)
  else if n < 52 then chr (0x61 + (n - 26))
  else if n < 62 then chr (0x30 + (n - 52))
  else if n = 62 then ('-' : Char) else ('_' : Char)

/-- The last digits of a number, from the highest on. -/
def digits64 (count n : ℕ) : Str :=
  (List.range count).map fun i => digit64 (n / 64 ^ (count - 1 - i) % 64)

/-- `base64.urlsafe_b64encode(bytes).decode()`. -/
def urlsafeB64encode : List UInt8 → Str
  | [] => []
  | [a] => digits64 2 (a.toNat * 16) ++ lit "=="
  | [a, b] => digits64 3 ((a.toNat * 256 + b.toNat) * 4) ++ lit "="
  | a :: b :: c :: bytes =>
      digits64 4 ((a.toNat * 256 + b.toNat) * 256 + c.toNat) ++ urlsafeB64encode bytes

/-- `text.rstrip("=")`. -/
def rstripPadding (s : Str) : Str := (s.reverse.dropWhile fun c : Chr => c = ('=' : Chr)).reverse

/-- The text of some bytes without padding. -/
def unpadded64 (bytes : List UInt8) : Str := rstripPadding (urlsafeB64encode bytes)

/-- The digits alone. -/
def bare64 : List UInt8 → Str
  | [] => []
  | [a] => digits64 2 (a.toNat * 16)
  | [a, b] => digits64 3 ((a.toNat * 256 + b.toNat) * 4)
  | a :: b :: c :: bytes =>
      digits64 4 ((a.toNat * 256 + b.toNat) * 256 + c.toNat) ++ bare64 bytes

/-- Different digits are written differently. -/
theorem digit64_inj {m n : ℕ} (hm : m < 64) (hn : n < 64) (h : digit64 m = digit64 n) : m = n := by
  have hall : ∀ m n : Fin 64, digit64 m = digit64 n → m = n := by decide +kernel
  exact Fin.mk.inj (hall ⟨m, hm⟩ ⟨n, hn⟩ h)

/-- No digit is padding. -/
theorem digit64_ne {n : ℕ} (hn : n < 64) : digit64 n ≠ ('=' : Chr) := by
  have hall : ∀ n : Fin 64, digit64 n ≠ ('=' : Chr) := by decide +kernel
  exact hall ⟨n, hn⟩

/-- The digits of a number that is small enough determine it. -/
theorem digits64_inj {count m n : ℕ} (hm : m < 64 ^ count) (hn : n < 64 ^ count)
    (h : digits64 count m = digits64 count n) : m = n := by
  induction count generalizing m n with
  | zero => omega
  | succ count ih =>
    have hlast (k : ℕ) : digits64 (count + 1) k =
        digits64 count (k / 64) ++ [digit64 (k % 64)] := by
      simp only [digits64, List.range_succ, List.map_append, List.map_singleton]
      refine congrArg₂ _ (List.map_congr_left fun i hi => ?_) (by simp)
      have hlt := List.mem_range.mp hi
      rw [show count + 1 - 1 - i = count - 1 - i + 1 by omega, pow_succ', Nat.div_div_eq_div_mul]
    rw [hlast, hlast] at h
    obtain ⟨hinit, hdigit⟩ := List.append_inj' h rfl
    rw [pow_succ] at hm hn
    have hhigh := ih (Nat.div_lt_of_lt_mul (by omega)) (Nat.div_lt_of_lt_mul (by omega)) hinit
    have hlow := digit64_inj (Nat.mod_lt m (by omega)) (Nat.mod_lt n (by omega))
      (List.cons.inj hdigit).1
    omega

/-- Digits are no padding. -/
theorem digits64_ne {count n : ℕ} : ∀ c ∈ digits64 count n, c ≠ ('=' : Chr) := by
  intro c hc
  obtain ⟨i, -, rfl⟩ := List.mem_map.mp hc
  exact digit64_ne (Nat.mod_lt _ (by omega))

/-- Padding is stripped from text without padding. -/
theorem rstripPadding_append {s t : Str} (hs : ∀ c ∈ s, c ≠ ('=' : Chr))
    (ht : ∀ c ∈ t, c = ('=' : Chr)) : rstripPadding (s ++ t) = s := by
  have hkept : (s.reverse.dropWhile fun c : Chr => c = ('=' : Chr)) = s.reverse := by
    cases h : s.reverse with
    | nil => rfl
    | cons c u =>
      have hc : c ≠ ('=' : Chr) := hs c (List.mem_reverse.mp (by simp [h]))
      simp [hc]
  rw [rstripPadding, List.reverse_append,
    List.dropWhile_append_of_pos fun c hc => by simp [ht c (List.mem_reverse.mp hc)], hkept,
    List.reverse_reverse]

/-- The encoded text is its digits and then padding. -/
theorem urlsafeB64encode_eq : ∀ bytes : List UInt8, ∃ padding : Str,
    urlsafeB64encode bytes = bare64 bytes ++ padding ∧ ∀ c ∈ padding, c = ('=' : Chr)
  | [] => ⟨[], rfl, by simp⟩
  | [a] => ⟨lit "==", rfl, by decide⟩
  | [a, b] => ⟨lit "=", rfl, by decide⟩
  | a :: b :: c :: bytes => by
    obtain ⟨padding, heq, hpadding⟩ := urlsafeB64encode_eq bytes
    exact ⟨padding, by rw [urlsafeB64encode, heq, bare64, List.append_assoc], hpadding⟩

/-- The digits of some bytes are no padding. -/
theorem bare64_ne : ∀ bytes : List UInt8, ∀ c ∈ bare64 bytes, c ≠ ('=' : Chr)
  | [] => by simp [bare64]
  | [a] => digits64_ne
  | [a, b] => digits64_ne
  | a :: b :: c :: bytes => by
    intro d hd
    obtain hd | hd := List.mem_append.mp hd
    · exact digits64_ne d hd
    · exact bare64_ne bytes d hd

/-- The unpadded text is the digits. -/
theorem unpadded64_eq (bytes : List UInt8) : unpadded64 bytes = bare64 bytes := by
  obtain ⟨padding, heq, hpadding⟩ := urlsafeB64encode_eq bytes
  rw [unpadded64, heq, rstripPadding_append (bare64_ne bytes) hpadding]

/-- The number of digits. -/
@[simp] theorem digits64_length (count n : ℕ) : (digits64 count n).length = count := by
  simp [digits64]

/-- The digits determine the bytes. -/
theorem bare64_inj : ∀ {xs ys : List UInt8}, bare64 xs = bare64 ys → xs = ys
  | [], [], _ => rfl
  | [a], [a'], h => by
    have hsame := digits64_inj (by have := a.toNat_lt; omega) (by have := a'.toNat_lt; omega) h
    rw [UInt8.toNat_inj.mp (show a.toNat = a'.toNat by omega)]
  | [a, b], [a', b'], h => by
    have ha := a.toNat_lt
    have hb := b.toNat_lt
    have ha' := a'.toNat_lt
    have hb' := b'.toNat_lt
    have hsame := digits64_inj (by omega) (by omega) h
    rw [UInt8.toNat_inj.mp (show a.toNat = a'.toNat by omega),
      UInt8.toNat_inj.mp (show b.toNat = b'.toNat by omega)]
  | a :: b :: c :: xs, a' :: b' :: c' :: ys, h => by
    have ha := a.toNat_lt
    have hb := b.toNat_lt
    have hc := c.toNat_lt
    have ha' := a'.toNat_lt
    have hb' := b'.toNat_lt
    have hc' := c'.toNat_lt
    obtain ⟨hdigits, hrest⟩ := List.append_inj h (by simp)
    have hsame := digits64_inj (by omega) (by omega) hdigits
    rw [UInt8.toNat_inj.mp (show a.toNat = a'.toNat by omega),
      UInt8.toNat_inj.mp (show b.toNat = b'.toNat by omega),
      UInt8.toNat_inj.mp (show c.toNat = c'.toNat by omega), bare64_inj hrest]
  | [], [_], h | [], [_, _], h | [], _ :: _ :: _ :: _, h | [_], [], h | [_], [_, _], h
  | [_], _ :: _ :: _ :: _, h | [_, _], [], h | [_, _], [_], h | [_, _], _ :: _ :: _ :: _, h
  | _ :: _ :: _ :: _, [], h | _ :: _ :: _ :: _, [_], h | _ :: _ :: _ :: _, [_, _], h => by
    have hlength := congrArg List.length h
    simp only [bare64, List.length_append, digits64_length, List.length_nil] at hlength
    omega

/-- Different bytes have different unpadded texts. -/
theorem unpadded64_injective : Function.Injective unpadded64 := by
  intro xs ys h
  rw [unpadded64_eq, unpadded64_eq] at h
  exact bare64_inj h

end Python
