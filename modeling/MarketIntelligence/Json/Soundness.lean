import MarketIntelligence.Python.Exceptions
import MarketIntelligence.Json.Decoder

/-!
# What the decoder accepts

Every value that the scanner returns has a derivation in the grammar: the text
it consumed denotes a parse tree, and the returned value is what the hooks build
for that tree. The leaves come first; the containers follow by induction on the
fuel.
-/

namespace Json

open Python

variable {ε V : Type}

/-! ### Whitespace, prefixes and digits -/

/-- Skipping removes a run of whitespace. -/
theorem skipWs_split (s : Str) : ∃ w, Ws w ∧ s = w ++ skipWs s :=
  ⟨s.takeWhile isWs, fun _ hc => List.mem_takeWhile_imp hc, (List.takeWhile_append_dropWhile).symm⟩

/-- A successful prefix test splits the text. -/
theorem dropPrefix?_eq_some {p s rest : Str} : dropPrefix? p s = some rest ↔ s = p ++ rest := by
  induction p generalizing s with
  | nil => simp [dropPrefix?]
  | cons c p ih =>
    cases s with
    | nil => simp [dropPrefix?]
    | cons d s =>
      by_cases hcd : c = d
      · simp [dropPrefix?, hcd, ih]
      · simp [dropPrefix?, hcd, Ne.symm hcd]

/-- The scanned digits and the rest make up the text. -/
theorem scanDigits_append (s : Str) : (scanDigits s).1 ++ (scanDigits s).2 = s :=
  List.takeWhile_append_dropWhile

/-- Every scanned digit is a digit. -/
theorem scanDigits_isDigit {s : Str} {c : Chr} (h : c ∈ (scanDigits s).1) : c.isDigit = true :=
  List.mem_takeWhile_imp h

/-- A digit and the digits after it are a run of digits. -/
theorem digits_cons_scanDigits {c : Chr} {s : Str} (hc : c.isDigit = true) :
    Digits (c :: (scanDigits s).1) :=
  ⟨by simp, by simpa [hc] using fun d hd => scanDigits_isDigit hd⟩

/-! ### Numbers -/

/-- A scanned natural number is a natural number of the grammar. -/
theorem scanNatural_sound {s n rest : Str} (h : scanNatural s = some (n, rest)) :
    s = n ++ rest ∧ Natural n := by
  cases s with
  | nil => simp [scanNatural] at h
  | cons c s =>
    simp only [scanNatural] at h
    split at h
    · next hc =>
      obtain ⟨rfl, rfl⟩ := by simpa using h
      exact ⟨rfl, Or.inl (by rw [hc]; rfl)⟩
    · next hc =>
      split at h
      · next hd =>
        obtain ⟨rfl, rfl⟩ := by simpa using h
        refine ⟨by simp [scanDigits_append], Or.inr ⟨digits_cons_scanDigits hd, by simpa using hc⟩⟩
      · simp at h

/-- A scanned fraction is absent or a fraction of the grammar. -/
theorem scanFrac_sound (s : Str) :
    s = (scanFrac s).1 ++ (scanFrac s).2 ∧ ((scanFrac s).1 = [] ∨ FracText (scanFrac s).1) := by
  unfold scanFrac
  split
  · next c d s =>
    split
    · next h =>
      obtain ⟨rfl, hd⟩ := h
      refine ⟨by simp [scanDigits_append], Or.inr ⟨_, rfl, digits_cons_scanDigits hd⟩⟩
    · simp
  · simp

/-- A scanned sign is absent, a plus or a minus. -/
theorem scanSign_sound (s : Str) :
    s = (scanSign s).1 ++ (scanSign s).2 ∧
      ((scanSign s).1 = [] ∨ (scanSign s).1 = lit "+" ∨ (scanSign s).1 = lit "-") := by
  unfold scanSign
  split
  · split
    · next h => rcases h with rfl | rfl <;> simp <;> decide
    · simp
  · simp

/-- A scanned exponent is absent or an exponent of the grammar. -/
theorem scanExp_sound (s : Str) :
    s = (scanExp s).1 ++ (scanExp s).2 ∧ ((scanExp s).1 = [] ∨ ExpText (scanExp s).1) := by
  unfold scanExp
  split
  · next c s =>
    split
    · next hc =>
      obtain ⟨hsplit, hsign⟩ := scanSign_sound s
      have hdigits := scanDigits_append (scanSign s).2
      dsimp only
      split
      · simp
      · next hd =>
        refine ⟨?_, Or.inr ⟨c, _, _, rfl, hc, hsign, hd, fun _ => scanDigits_isDigit⟩⟩
        simp [hdigits, ← hsplit]
    · simp
  · simp

/-- A scanned minus sign is absent or a minus. -/
theorem scanMinus_sound (s : Str) :
    s = (scanMinus s).1 ++ (scanMinus s).2 ∧
      ((scanMinus s).1 = [] ∨ (scanMinus s).1 = lit "-") := by
  unfold scanMinus
  split
  · split
    · next h => subst h; simp; decide
    · simp
  · simp

/-- A natural number with or without a minus sign is an integer. -/
theorem intText_append {sign n : Str} (hsign : sign = [] ∨ sign = lit "-") (hn : Natural n) :
    IntText (sign ++ n) := by
  rcases hsign with rfl | rfl
  · exact Or.inl hn
  · exact Or.inr ⟨n, rfl, hn⟩

/-- A scanned number is an integer or a float of the grammar, as reported. -/
theorem matchNumber_sound {s t rest : Str} {isFloat : Bool}
    (h : matchNumber s = some ((isFloat, t), rest)) :
    s = t ++ rest ∧ if isFloat then FloatText t else IntText t := by
  obtain ⟨hminus, hsign⟩ := scanMinus_sound s
  unfold matchNumber at h
  split at h
  · simp at h
  · next n s₁ hn =>
    obtain ⟨hs₁, hnatural⟩ := scanNatural_sound hn
    obtain ⟨hfrac, hf⟩ := scanFrac_sound s₁
    obtain ⟨hexp, he⟩ := scanExp_sound (scanFrac s₁).2
    have hint := intText_append hsign hnatural
    simp only [Option.some.injEq, Prod.mk.injEq] at h
    obtain ⟨⟨rfl, rfl⟩, rfl⟩ := h
    refine ⟨?_, ?_⟩
    · simp only [List.append_assoc]
      rw [← hexp, ← hfrac, ← hs₁, ← hminus]
    · by_cases hempty : (scanFrac s₁).1 ++ (scanExp (scanFrac s₁).2).1 = []
      · simpa [hempty] using hint
      · have hfloat : FloatText (((scanMinus s).1 ++ n) ++
            ((scanFrac s₁).1 ++ (scanExp (scanFrac s₁).2).1)) :=
          ⟨_, _, _, rfl, hint, hf, he, hempty⟩
        simpa [hempty] using hfloat

/-! ### Strings and member names -/

/-- A scanned string is the body of a string of the grammar and its closing
quote. -/
theorem scanString_sound {s rest : Str} {ps : List Piece}
    (h : scanString (ε := ε) s = .ok (ps, rest)) :
    ∃ t, s = t ++ ('"' : Chr) :: rest ∧ StringBody t ps := by
  fun_induction scanString s generalizing ps with
  | case2 s =>
    obtain ⟨rfl, rfl⟩ := by simpa using h
    exact ⟨[], rfl, .nil⟩
  | case4 a b c d x s n hhex _ ih =>
    obtain ⟨⟨ps', rest'⟩, hscan, h⟩ := bind_eq_ok.mp h
    obtain ⟨rfl, rfl⟩ := by simpa using h
    obtain ⟨t, hs, hbody⟩ := ih hscan
    exact ⟨_, by rw [hs]; rfl, .unicode hhex hbody⟩
  | case7 e s _ c he _ ih =>
    obtain ⟨⟨ps', rest'⟩, hscan, h⟩ := bind_eq_ok.mp h
    obtain ⟨rfl, rfl⟩ := by simpa using h
    obtain ⟨t, hs, hbody⟩ := ih hscan
    exact ⟨_, by rw [hs]; rfl, .escape he hbody⟩
  | case10 c s hquote hslash hcontrol ih =>
    obtain ⟨⟨ps', rest'⟩, hscan, h⟩ := bind_eq_ok.mp h
    obtain ⟨rfl, rfl⟩ := by simpa using h
    obtain ⟨t, hs, hbody⟩ := ih hscan
    exact ⟨_, by rw [hs]; rfl, .plain (by omega) hquote hslash hbody⟩
  | _ => simp at h

/-- A scanned colon has only whitespace around it. -/
theorem scanColon_sound {s rest : Str} (h : scanColon (ε := ε) s = .ok rest) :
    ∃ w₂ w₃, Ws w₂ ∧ Ws w₃ ∧ s = w₂ ++ (':' : Chr) :: (w₃ ++ rest) := by
  obtain ⟨w₂, hw₂, hs⟩ := skipWs_split s
  unfold scanColon at h
  split at h
  · next c s' hskip =>
    split at h
    · next hc =>
      obtain ⟨w₃, hw₃, hs'⟩ := skipWs_split s'
      have hrest : skipWs s' = rest := by simpa using h
      exact ⟨w₂, w₃, hw₂, hw₃, by rw [← hrest, ← hs', ← hc, ← hskip, ← hs]⟩
    · simp at h
  · simp at h

/-- A scanned member name is a name of the grammar. -/
theorem scanName_sound {s k rest : Str} (h : scanName (ε := ε) s = .ok (k, rest)) :
    ∃ t, s = t ++ rest ∧ Name t k := by
  unfold scanName at h
  split at h
  · next c s =>
    split at h
    · next hc =>
      obtain ⟨⟨ps, s₁⟩, hstring, h⟩ := bind_eq_ok.mp h
      obtain ⟨s₂, hcolon, h⟩ := bind_eq_ok.mp h
      obtain ⟨rfl, rfl⟩ := by simpa using h
      obtain ⟨t, ht, hbody⟩ := scanString_sound hstring
      obtain ⟨w₂, w₃, hw₂, hw₃, hs₁⟩ := scanColon_sound hcolon
      refine ⟨_, ?_, .mk ws_nil hbody hw₂ hw₃⟩
      simp [hc, ht, hs₁]
    · simp at h
  · simp at h

/-! ### Values -/

/-- An exception of a hook is no result. -/
theorem ofHook_eq_ok {x : Except ε V} {v : V} : ofHook x = .ok v ↔ x = .ok v := by
  cases x <;> simp [ofHook]

/-- A scanned number denotes a number of the grammar. -/
theorem scanNumber_sound {h : Hooks ε V} {s rest : Str} {v : V}
    (hok : scanNumber h s = .ok (v, rest)) :
    ∃ t x, s = t ++ rest ∧ Value t x ∧ x.fold h = .ok v ∧ x.depth = 0 := by
  unfold scanNumber at hok
  split at hok
  · next isFloat t rest' hmatch =>
    obtain ⟨v', hv, hok⟩ := bind_eq_ok.mp hok
    obtain ⟨rfl, rfl⟩ := by simpa using hok
    obtain ⟨hs, htext⟩ := matchNumber_sound hmatch
    rw [ofHook_eq_ok] at hv
    cases isFloat with
    | true => exact ⟨t, .float t, hs, .float htext, hv, rfl⟩
    | false => exact ⟨t, .int t, hs, .int htext, hv, rfl⟩
  · simp at hok

/-- A scanned atom denotes a value of the grammar without nesting. -/
theorem scanAtom_sound {h : Hooks ε V} {s rest : Str} {v : V}
    (hok : scanAtom h s = .ok (v, rest)) :
    ∃ t x, s = t ++ rest ∧ Value t x ∧ x.fold h = .ok v ∧ x.depth = 0 := by
  unfold scanAtom at hok
  split at hok
  · next hp =>
    obtain ⟨rfl, rfl⟩ := by simpa using hok
    exact ⟨_, .null, dropPrefix?_eq_some.mp hp, .nullToken, rfl, rfl⟩
  · split at hok
    · next hp =>
      obtain ⟨rfl, rfl⟩ := by simpa using hok
      exact ⟨_, .bool true, dropPrefix?_eq_some.mp hp, .trueToken, rfl, rfl⟩
    · split at hok
      · next hp =>
        obtain ⟨rfl, rfl⟩ := by simpa using hok
        exact ⟨_, .bool false, dropPrefix?_eq_some.mp hp, .falseToken, rfl, rfl⟩
      · split at hok
        · next t hfind =>
          obtain ⟨v', hv, hok⟩ := bind_eq_ok.mp hok
          obtain ⟨rfl, rfl⟩ := by simpa using hok
          have hprefix := List.find?_some hfind
          obtain ⟨rest, hp⟩ := Option.isSome_iff_exists.mp hprefix
          rw [ofHook_eq_ok] at hv
          refine ⟨t, .constant t, ?_, .constant (List.mem_of_find?_eq_some hfind), hv, rfl⟩
          rw [dropPrefix?_eq_some.mp hp, List.drop_left]
        · exact scanNumber_sound hok

/-- Whitespace may be put before the items of an array. -/
theorem Items.prependWs {w t : Str} {xs : List Tree} (hw : Ws w) (h : Items t xs) :
    Items (w ++ t) xs := by
  have happend {w₁ : Str} (hw₁ : Ws w₁) : Ws (w ++ w₁) := by
    intro c hc
    rcases List.mem_append.mp hc with hc | hc
    · exact hw c hc
    · exact hw₁ c hc
  cases h with
  | one hw₁ hx hw₂ => simpa using Items.one (happend hw₁) hx hw₂
  | cons hw₁ hx hw₂ hxs => simpa using Items.cons (happend hw₁) hx hw₂ hxs

/-- Whitespace may be put before a member name. -/
theorem Name.prependWs {w t k : Str} (hw : Ws w) (h : Name t k) : Name (w ++ t) k := by
  cases h with
  | @mk w₁ t w₂ w₃ ps hw₁ hbody hw₂ hw₃ =>
    have happend : Ws (w ++ w₁) := by
      intro c hc
      rcases List.mem_append.mp hc with hc | hc
      · exact hw c hc
      · exact hw₁ c hc
    simpa using Name.mk happend hbody hw₂ hw₃

/-- Whitespace may be put before the members of an object. -/
theorem Members.prependWs {w t : Str} {ms : List (Str × Tree)} (hw : Ws w) (h : Members t ms) :
    Members (w ++ t) ms := by
  cases h with
  | one hk hx hw₂ => simpa using Members.one (hk.prependWs hw) hx hw₂
  | cons hk hx hw₂ hms => simpa using Members.cons (hk.prependWs hw) hx hw₂ hms

/-- Soundness of the three scanners of values at one fuel. -/
structure ScannersSound (h : Hooks ε V) (fuel : ℕ) : Prop where
  /-- A scanned value is a value of the grammar within the recursion limit. -/
  once : ∀ {depth s v rest}, scanOnce h fuel depth s = .ok (v, rest) →
    ∃ t x, s = t ++ rest ∧ Value t x ∧ x.fold h = .ok v ∧ x.depth ≤ depth
  /-- Scanned items are items of the grammar, up to the closing bracket. -/
  items : ∀ {depth s vs rest}, scanItems h fuel depth s = .ok (vs, rest) →
    ∃ t xs, s = t ++ (']' : Chr) :: rest ∧ Items t xs ∧ foldItems h xs = .ok vs ∧
      depthItems xs ≤ depth
  /-- Scanned members are members of the grammar, up to the closing brace. -/
  members : ∀ {depth s vs rest}, scanMembers h fuel depth s = .ok (vs, rest) →
    ∃ t ms, s = t ++ ('}' : Chr) :: rest ∧ Members t ms ∧ foldMembers h ms = .ok vs ∧
      depthMembers ms ≤ depth

/-- One more unit of fuel keeps the item scanner sound. -/
theorem ScannersSound.items_succ {h : Hooks ε V} {fuel : ℕ} (ih : ScannersSound h fuel)
    {depth : ℕ} {s rest : Str} {vs : List V}
    (hok : scanItems h (fuel + 1) depth s = .ok (vs, rest)) :
    ∃ t xs, s = t ++ (']' : Chr) :: rest ∧ Items t xs ∧ foldItems h xs = .ok vs ∧
      depthItems xs ≤ depth := by
  rw [scanItems] at hok
  obtain ⟨⟨v, s₁⟩, honce, hok⟩ := bind_eq_ok.mp hok
  obtain ⟨t, x, hs, hx, hv, hdepth⟩ := ih.once honce
  obtain ⟨w, hw, hs₁⟩ := skipWs_split s₁
  dsimp only at hok
  split at hok
  · next c s₂ hskip =>
    split at hok
    · next hc =>
      obtain ⟨rfl, rfl⟩ := by simpa using hok
      refine ⟨t ++ w, [x], ?_, .one ws_nil hx hw, ?_, ?_⟩
      · rw [hs, hs₁, hskip, hc, List.append_assoc]
      · simp [foldItems, hv]
      · simpa [depthItems] using hdepth
    · split at hok
      · next hc =>
        obtain ⟨⟨vs', rest'⟩, hitems, hok⟩ := bind_eq_ok.mp hok
        obtain ⟨rfl, rfl⟩ := by simpa using hok
        obtain ⟨u, xs, hu, hxs, hvs, hdepths⟩ := ih.items hitems
        obtain ⟨w', hw', hs₂⟩ := skipWs_split s₂
        refine ⟨t ++ (w ++ (',' : Chr) :: (w' ++ u)), x :: xs, ?_,
          .cons ws_nil hx hw (hxs.prependWs hw'), ?_, ?_⟩
        · rw [hs, hs₁, hskip, hc, hs₂, hu]
          simp
        · simp [foldItems, hv, hvs]
        · exact max_le hdepth hdepths
      · simp at hok
  · simp at hok

/-- One more unit of fuel keeps the member scanner sound. -/
theorem ScannersSound.members_succ {h : Hooks ε V} {fuel : ℕ} (ih : ScannersSound h fuel)
    {depth : ℕ} {s rest : Str} {vs : List (Str × V)}
    (hok : scanMembers h (fuel + 1) depth s = .ok (vs, rest)) :
    ∃ t ms, s = t ++ ('}' : Chr) :: rest ∧ Members t ms ∧ foldMembers h ms = .ok vs ∧
      depthMembers ms ≤ depth := by
  rw [scanMembers] at hok
  obtain ⟨⟨k, s₀⟩, hname, hok⟩ := bind_eq_ok.mp hok
  obtain ⟨⟨v, s₁⟩, honce, hok⟩ := bind_eq_ok.mp hok
  obtain ⟨n, hs₀, hk⟩ := scanName_sound hname
  obtain ⟨t, x, hs, hx, hv, hdepth⟩ := ih.once honce
  obtain ⟨w, hw, hs₁⟩ := skipWs_split s₁
  dsimp only at hok hs
  split at hok
  · next c s₂ hskip =>
    split at hok
    · next hc =>
      obtain ⟨rfl, rfl⟩ := by simpa using hok
      refine ⟨n ++ (t ++ w), [(k, x)], ?_, .one hk hx hw, ?_, ?_⟩
      · rw [hs₀, hs, hs₁, hskip, hc]
        simp
      · simp [foldMembers, hv]
      · simpa [depthMembers] using hdepth
    · split at hok
      · next hc =>
        obtain ⟨⟨vs', rest'⟩, hmembers, hok⟩ := bind_eq_ok.mp hok
        obtain ⟨rfl, rfl⟩ := by simpa using hok
        obtain ⟨u, ms, hu, hms, hvs, hdepths⟩ := ih.members hmembers
        obtain ⟨w', hw', hs₂⟩ := skipWs_split s₂
        refine ⟨n ++ (t ++ (w ++ (',' : Chr) :: (w' ++ u))), (k, x) :: ms, ?_,
          .cons hk hx hw (hms.prependWs hw'), ?_, ?_⟩
        · rw [hs₀, hs, hs₁, hskip, hc, hs₂, hu]
          simp
        · simp [foldMembers, hv, hvs]
        · exact max_le hdepth hdepths
      · simp at hok
  · simp at hok

/-- One more unit of fuel keeps the value scanner sound. -/
theorem ScannersSound.once_succ {h : Hooks ε V} {fuel : ℕ} (ih : ScannersSound h fuel)
    {depth : ℕ} {s rest : Str} {v : V} (hok : scanOnce h (fuel + 1) depth s = .ok (v, rest)) :
    ∃ t x, s = t ++ rest ∧ Value t x ∧ x.fold h = .ok v ∧ x.depth ≤ depth := by
  cases s with
  | nil => simp [scanOnce] at hok
  | cons c s =>
    obtain ⟨w, hw, hs⟩ := skipWs_split s
    simp only [scanOnce] at hok
    split at hok
    · next hc =>
      obtain ⟨⟨ps, s₁⟩, hstring, hok⟩ := bind_eq_ok.mp hok
      obtain ⟨rfl, rfl⟩ := by simpa using hok
      obtain ⟨t, ht, hbody⟩ := scanString_sound hstring
      refine ⟨_, _, ?_, .string hbody, rfl, by simp [Tree.depth]⟩
      simp [hc, ht, lit]
    · split at hok
      · next hc =>
        split at hok
        · simp at hok
        · next depth =>
          split at hok
          · next d s₁ hskip =>
            split at hok
            · next hd =>
              obtain ⟨v', hv, hok⟩ := bind_eq_ok.mp hok
              obtain ⟨rfl, rfl⟩ := by simpa using hok
              rw [ofHook_eq_ok] at hv
              refine ⟨_, _, ?_, .emptyObject hw, ?_, by simp [Tree.depth, depthMembers]⟩
              · rw [hs, hskip, hc, hd]
                simp [lit]
              · simpa [Tree.fold, foldMembers] using hv
            · obtain ⟨⟨vs, s₂⟩, hmembers, hok⟩ := bind_eq_ok.mp hok
              obtain ⟨v', hv, hok⟩ := bind_eq_ok.mp hok
              obtain ⟨rfl, rfl⟩ := by simpa using hok
              rw [ofHook_eq_ok] at hv
              obtain ⟨t, ms, ht, hms, hvs, hdepth⟩ := ih.members hmembers
              refine ⟨_, _, ?_, .object (hms.prependWs hw), ?_, ?_⟩
              · rw [hs, hskip, hc, ht]
                simp [lit]
              · simpa [Tree.fold, hvs] using hv
              · simpa [Tree.depth] using hdepth
          · simp at hok
      · split at hok
        · next hc =>
          split at hok
          · simp at hok
          · next depth =>
            split at hok
            · next d s₁ hskip =>
              split at hok
              · next hd =>
                obtain ⟨rfl, rfl⟩ := by simpa using hok
                refine ⟨_, _, ?_, .emptyArray hw, ?_, by simp [Tree.depth, depthItems]⟩
                · rw [hs, hskip, hc, hd]
                  simp [lit]
                · simp [Tree.fold, foldItems]
              · obtain ⟨⟨vs, s₂⟩, hitems, hok⟩ := bind_eq_ok.mp hok
                obtain ⟨rfl, rfl⟩ := by simpa using hok
                obtain ⟨t, xs, ht, hxs, hvs, hdepth⟩ := ih.items hitems
                refine ⟨_, _, ?_, .array (hxs.prependWs hw), ?_, ?_⟩
                · rw [hs, hskip, hc, ht]
                  simp [lit]
                · simp [Tree.fold, hvs]
                · simpa [Tree.depth] using hdepth
            · simp at hok
        · obtain ⟨t, x, ht, hx, hv, hdepth⟩ := scanAtom_sound hok
          exact ⟨t, x, ht, hx, hv, by omega⟩

/-- The scanners are sound at every fuel. -/
theorem scanners_sound (h : Hooks ε V) (fuel : ℕ) : ScannersSound h fuel := by
  induction fuel with
  | zero =>
    refine ⟨fun {depth s v rest} hok => ?_, fun hok => ?_, fun hok => ?_⟩
    · cases s <;> simp [scanOnce] at hok
    · simp [scanItems] at hok
    · simp [scanMembers] at hok
  | succ fuel ih => exact ⟨ih.once_succ, ih.items_succ, ih.members_succ⟩

/-- A text that `json.loads` decodes is a text of the grammar, nested within the
recursion limit, and the result is what the hooks build for its parse tree. -/
theorem loads_sound {h : Hooks ε V} {limit : ℕ} {s : Str} {v : V}
    (hok : loads h limit s = .ok v) :
    ∃ x, Text s x ∧ x.depth ≤ limit ∧ x.fold h = .ok v := by
  unfold loads rawDecode at hok
  split at hok
  · simp at hok
  · obtain ⟨⟨v', rest⟩, honce, hok⟩ := bind_eq_ok.mp hok
    obtain ⟨t, x, ht, hx, hv, hdepth⟩ := (scanners_sound h _).once honce
    obtain ⟨w₁, hw₁, hs⟩ := skipWs_split s
    obtain ⟨w₂, hw₂, hrest⟩ := skipWs_split rest
    dsimp only at hok
    split at hok
    · next hend =>
      obtain rfl : v' = v := by simpa using hok
      refine ⟨x, ⟨w₁, t, w₂, ?_, hw₁, hx, hw₂⟩, hdepth, hv⟩
      rw [hs, ht]
      congr 2
      rw [hrest, hend, List.append_nil]
    · simp at hok

end Json
