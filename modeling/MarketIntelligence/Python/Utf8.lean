import MarketIntelligence.Python.SameValue

/-!
# Texts that were read from files

Strict UTF-8 yields no surrogate, and translating line ends adds none, so that what is read
from a file could have been written to one.
-/

namespace Python

open Json

/-- A continuation byte has six bits. -/
theorem continuation_lt {b : UInt8} {n : ℕ} (h : continuation b = some n) : n < 0x40 := by
  simp only [continuation, Option.ite_none_right_eq_some, Option.some.injEq] at h
  omega

/-- Small code points are no surrogates. -/
theorem chr_not_surrogate {n : ℕ} (h : n < 0xD800 ∨ 0xE000 ≤ n) :
    (chr n).isSurrogate = false := by
  unfold chr
  split
  · simp only [Chr.isSurrogate, Bool.and_eq_false_iff, decide_eq_false_iff_not]
    omega
  · rfl

/-- Literals of the source have no surrogates. -/
theorem encodable_lit (s : String) : (lit s).Encodable := by
  intro c hc
  obtain ⟨d, -, rfl⟩ := List.mem_map.mp hc
  have hord : (Chr.ofChar d).ord = d.toNat := rfl
  have hvalid : d.toNat < 0xD800 ∨ 0xDFFF < d.toNat ∧ d.toNat < 0x110000 := d.valid
  simp only [Chr.isSurrogate, hord, Bool.and_eq_false_iff, decide_eq_false_iff_not]
  omega

/-- The first character of a decoded text, and the bytes behind it. -/
theorem decodeUtf8_cons {a : UInt8} {bs : List UInt8} {s : Str}
    (h : decodeUtf8 (a :: bs) = some s) : ∃ c rest t, s = c :: t ∧ c.isSurrogate = false ∧
      rest.length ≤ bs.length ∧ decodeUtf8 rest = some t := by
  have ha := a.toNat_lt
  rw [decodeUtf8.eq_def] at h
  dsimp only at h
  split at h
  · next hascii =>
    obtain ⟨t, ht, rfl⟩ := Option.map_eq_some_iff.mp h
    exact ⟨_, bs, t, rfl, chr_not_surrogate (by omega), le_rfl, ht⟩
  · cases bs with
    | nil => cases h
    | cons b cs =>
      obtain ⟨x, hx, h⟩ := Option.bind_eq_some_iff.mp h
      have hxlt := continuation_lt hx
      split at h
      · split at h
        · obtain ⟨t, ht, rfl⟩ := Option.map_eq_some_iff.mp h
          exact ⟨_, cs, t, rfl, chr_not_surrogate (by omega), by simp, ht⟩
        · cases h
      · cases cs with
        | nil => cases h
        | cons c ds =>
          obtain ⟨y, -, h⟩ := Option.bind_eq_some_iff.mp h
          split at h
          · split at h
            · next hthree =>
              obtain ⟨t, ht, rfl⟩ := Option.map_eq_some_iff.mp h
              exact ⟨_, ds, t, rfl, hthree.2, by simp; omega, ht⟩
            · cases h
          · cases ds with
            | nil => cases h
            | cons d es =>
              obtain ⟨z, -, h⟩ := Option.bind_eq_some_iff.mp h
              split at h
              · obtain ⟨t, ht, rfl⟩ := Option.map_eq_some_iff.mp h
                exact ⟨_, es, t, rfl, chr_not_surrogate (by omega), by simp; omega, ht⟩
              · cases h

/-- A decoded text has no surrogates. -/
theorem encodable_of_decodeUtf8 {bs : List UInt8} {s : Str} (h : decodeUtf8 bs = some s) :
    s.Encodable := by
  induction hn : bs.length using Nat.strong_induction_on generalizing bs s with
  | _ n ih =>
    cases bs with
    | nil =>
      obtain rfl := Option.some.inj h
      exact encodable_nil
    | cons a bs =>
      obtain ⟨c, rest, t, rfl, hc, hlength, ht⟩ := decodeUtf8_cons h
      rw [List.length_cons] at hn
      exact encodable_cons.mpr ⟨hc, ih rest.length (by omega) ht rfl⟩

/-- Translated line ends are no surrogates. -/
theorem encodable_universalNewlines {s : Str} (h : s.Encodable) :
    (universalNewlines s).Encodable := by
  have hnewline : (chr 0x0A).isSurrogate = false := by decide
  induction s with
  | nil => exact h
  | cons c s ih =>
    obtain ⟨hc, hs⟩ := encodable_cons.mp h
    cases s with
    | nil =>
      rw [universalNewlines]
      split
      · exact encodable_cons.mpr ⟨hnewline, encodable_nil⟩
      · exact h
    | cons d s =>
      rw [universalNewlines]
      split
      · split
        · exact ih hs
        · exact encodable_cons.mpr ⟨hnewline, ih hs⟩
      · exact encodable_cons.mpr ⟨hc, ih hs⟩

/-- A text that was read from a file has no surrogates. -/
theorem encodable_of_readText {content : List UInt8} {s : Str} (h : readText content = .ok s) :
    s.Encodable := by
  unfold readText at h
  split at h
  · next t ht =>
    obtain rfl := Except.ok.inj h
    exact encodable_universalNewlines (encodable_of_decodeUtf8 ht)
  · cases h

/-- What is read from a JSON file is well formed. -/
theorem wellFormed_of_readJson {F : Type} [PyFloat F] {limits : Limits} {content : List UInt8}
    {x : Data F} (h : readJson limits content = .ok x) : x.WellFormed := by
  obtain ⟨s, hs, h⟩ := bind_eq_ok.mp h
  exact (decoded_of_jsonLoads (encodable_of_readText hs) h).wellFormed

end Python
