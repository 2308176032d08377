import MarketIntelligence.Json.Encoder
import MarketIntelligence.Json.Errors
import MarketIntelligence.Json.Surrogates
import MarketIntelligence.PublicProduct.Payload
import Mathlib.Data.List.Nodup
import Mathlib.Data.Set.List

/-!
# Which response bodies are accepted

A product is a triple of texts that meets the bounds of the contract. A body
denotes a product if it is a JSON text of one object whose members are, in any
order and spelling, the three fields of that product. The payload function
returns exactly on the bodies that denote a product, and it raises the adapter's
own exception on every other string.
-/

namespace MarketIntelligence.PublicProduct

open Python Json

/-- A decimal number without a sign, an exponent or a superfluous zero. -/
def DecimalText (t : Str) : Prop := ∃ n f, t = n ++ f ∧ Natural n ∧ (f = [] ∨ FracText f)

/-- The content of a public-product payload, within the bounds of its fields. -/
@[ext] structure Product where
  productName : Str
  listedPrice : Str
  currency : Str
  productName_length : 1 ≤ productName.length ∧ productName.length ≤ 256
  productName_allowed : ∀ c ∈ productName,
    0x20 ≤ c.ord ∧ c.ord ≠ 0x7F ∧ c.isSurrogate = false
  listedPrice_length : listedPrice.length ≤ 64
  listedPrice_decimal : DecimalText listedPrice
  currency_length : currency.length = 3
  currency_upper : ∀ c ∈ currency, c.isAsciiUpper = true

/-- The members of a product, in the order of the source. -/
def Product.fields (p : Product) : List (Str × Str) :=
  canonicalFields p.productName p.listedPrice p.currency

/-- The parse tree of an object whose values are all strings. -/
def stringObject (ms : List (Str × Str)) : Tree := .object (ms.map fun m => (m.1, .string m.2))

/-- A body that spells the fields of a product, in some order. -/
def Denotes (body : Str) (p : Product) : Prop :=
  ∃ ms : List (Str × Str), ms.Perm p.fields ∧ Text body (stringObject ms)

/-! ### The checks on single fields -/

/-- The pattern of prices is the grammar of decimal texts. -/
theorem decimalTextFullmatch_iff {t : Str} : decimalTextFullmatch t = true ↔ DecimalText t := by
  unfold decimalTextFullmatch
  constructor
  · intro h
    split at h
    · next n rest hn =>
      obtain ⟨rfl, hnat⟩ := scanNatural_sound hn
      obtain ⟨heq, hfrac⟩ := scanFrac_sound rest
      have hend : (scanFrac rest).2 = [] := by simpa using h
      rw [hend, List.append_nil] at heq
      exact ⟨n, _, congrArg (n ++ ·) heq, hnat, hfrac⟩
    · simp at h
  · rintro ⟨n, f, rfl, hn, hf⟩
    have hhead : ∀ c ∈ f.head?, c.isDigit = false := by
      rcases hf with rfl | ⟨d, rfl, -⟩
      · simp
      · intro c hc
        obtain rfl : (('.' : Char) : Chr) = c := by simpa using hc
        decide
    have hscan : scanFrac (f ++ []) = (f, []) := scanFrac_complete hf (by simp)
    rw [List.append_nil] at hscan
    simp [scanNatural_complete hn hhead, hscan]

/-- The characters that are not refused. -/
theorem isForbiddenCharacter_eq_false {c : Chr} :
    isForbiddenCharacter c = false ↔ 0x20 ≤ c.ord ∧ c.ord ≠ 0x7F ∧ c.isSurrogate = false := by
  simp [isForbiddenCharacter, and_assoc]

variable {F : Type}

/-- Scalar validation returns exactly the strings within the bounds that contain
no refused character. -/
theorem validateScalarText_eq_ok {value : Data F} {name s : Str} {minimum maximum : ℕ} :
    validateScalarText value name minimum maximum = .ok s ↔
      value = .str s ∧ minimum ≤ s.length ∧ s.length ≤ maximum ∧
        ∀ c ∈ s, 0x20 ≤ c.ord ∧ c.ord ≠ 0x7F ∧ c.isSurrogate = false := by
  cases value with
  | str t =>
    simp only [validateScalarText, Data.str.injEq]
    constructor
    · intro h
      split at h
      · simp at h
      · next hlen =>
        split at h
        · simp at h
        · next hchars =>
          obtain rfl : t = s := by simpa using h
          obtain ⟨hmin, hmax⟩ := not_not.mp hlen
          refine ⟨rfl, hmin, hmax, fun c hc => isForbiddenCharacter_eq_false.mp ?_⟩
          simpa using fun hbad => hchars (List.any_eq_true.mpr ⟨c, hc, hbad⟩)
    · rintro ⟨rfl, hmin, hmax, hchars⟩
      have hany : t.any isForbiddenCharacter = false := by
        simpa using fun c hc => isForbiddenCharacter_eq_false.mpr (hchars c hc)
      simp [hmin, hmax, hany]
  | _ => simp [validateScalarText]

/-- Scalar validation raises only the adapter's own exception. -/
theorem validateScalarText_error {value : Data F} {name : Str} {minimum maximum : ℕ} {e : Exc}
    (h : validateScalarText value name minimum maximum = .error e) : ∃ a, e = .own a := by
  cases value with
  | str t =>
    simp only [validateScalarText] at h
    split at h
    · exact ⟨_, by simpa [fail] using h.symm⟩
    · split at h
      · exact ⟨_, by simpa [fail] using h.symm⟩
      · simp at h
  | _ => exact ⟨_, by simpa [fail, validateScalarText] using h.symm⟩

/-- The three methods that check a currency ask for capital ASCII letters. -/
theorem currency_checks {s : Str} (hs : s ≠ []) :
    (Str.isAscii s && Str.isUpper s && Str.isAlpha s) = true ↔
      ∀ c ∈ s, c.isAsciiUpper = true := by
  obtain ⟨c₀, t, rfl⟩ := List.exists_cons_of_ne_nil hs
  simp only [Str.isAscii, Str.isUpper, Str.isAlpha, Bool.and_eq_true, List.all_eq_true,
    decide_eq_true_eq, List.any_eq_true, Bool.not_eq_true', List.any_eq_false,
    Bool.or_eq_true, bne_iff_ne]
  constructor
  · rintro ⟨⟨-, -, hlower⟩, -, halpha⟩ c hc
    exact (halpha c hc).resolve_right (hlower c hc)
  · intro hupper
    have hascii (c : Chr) (hc : c ∈ c₀ :: t) : c.ord < 0x80 ∧ ¬c.isAsciiLower = true := by
      have := hupper c hc
      simp only [Chr.isAsciiUpper, Chr.isAsciiLower, Bool.and_eq_true, decide_eq_true_eq] at this ⊢
      omega
    exact ⟨⟨fun c hc => (hascii c hc).1, ⟨c₀, by simp, hupper c₀ (by simp)⟩,
      fun c hc => (hascii c hc).2⟩, by simp, fun c hc => Or.inl (hupper c hc)⟩

/-- Capital letters are allowed characters. -/
theorem allowed_of_isAsciiUpper {c : Chr} (h : c.isAsciiUpper = true) :
    0x20 ≤ c.ord ∧ c.ord ≠ 0x7F ∧ c.isSurrogate = false := by
  simp only [Chr.isAsciiUpper, Chr.isSurrogate, Bool.and_eq_true, decide_eq_true_eq,
    Bool.and_eq_false_iff, decide_eq_false_iff_not] at h ⊢
  omega

/-- A character of a decimal text is a digit or the point. -/
theorem DecimalText.mem {t : Str} (h : DecimalText t) {c : Chr} (hc : c ∈ t) :
    c.isDigit = true ∨ c = ('.' : Char) := by
  obtain ⟨n, f, rfl, hn, hf⟩ := h
  rcases List.mem_append.mp hc with hc | hc
  · rcases hn with rfl | ⟨⟨-, hdigits⟩, -⟩
    · obtain rfl : c = ('0' : Char) := by simpa [lit] using hc
      exact Or.inl (by decide)
    · exact Or.inl (hdigits c hc)
  · rcases hf with rfl | ⟨d, rfl, -, hdigits⟩
    · simp at hc
    · rcases List.mem_cons.mp hc with rfl | hc
      · exact Or.inr rfl
      · exact Or.inl (hdigits c hc)

/-- Decimal texts consist of allowed characters. -/
theorem DecimalText.allowed {t : Str} (h : DecimalText t) {c : Chr} (hc : c ∈ t) :
    0x20 ≤ c.ord ∧ c.ord ≠ 0x7F ∧ c.isSurrogate = false := by
  rcases h.mem hc with hdigit | rfl
  · simp only [Chr.isDigit, Chr.isSurrogate, Bool.and_eq_true, decide_eq_true_eq,
      Bool.and_eq_false_iff, decide_eq_false_iff_not] at hdigit ⊢
    omega
  · decide

/-- A decimal text is not empty. -/
theorem DecimalText.length_pos {t : Str} (h : DecimalText t) : 1 ≤ t.length := by
  obtain ⟨n, f, rfl, hn, -⟩ := h
  rcases hn with rfl | ⟨⟨hne, -⟩, -⟩
  · simp [lit]
  · have := List.length_pos_iff.mpr hne
    simp only [List.length_append]
    omega

/-! ### The decoded object -/

/-- The object hook returns the members as they stand, unless a name repeats. -/
theorem uniqueObjectLoop_eq_ok {result pairs ms : List (Str × Data F)}
    (hresult : (result.map Prod.fst).Nodup) :
    uniqueObjectLoop result pairs = .ok ms ↔
      ms = result ++ pairs ∧ ((result ++ pairs).map Prod.fst).Nodup := by
  induction pairs generalizing result with
  | nil => simp [uniqueObjectLoop, hresult, eq_comm]
  | cons m pairs ih =>
    simp only [uniqueObjectLoop]
    split
    · next hmem =>
      have hdup : ¬((result ++ m :: pairs).map Prod.fst).Nodup := by
        rw [List.map_append, List.map_cons]
        exact fun hnodup => (List.nodup_append.mp hnodup).2.2 _ hmem _ (by simp) rfl
      simp only [reduceCtorEq, false_iff, not_and]
      exact fun _ => hdup
    · next hmem =>
      have hnext : ((result ++ [(m.1, m.2)]).map Prod.fst).Nodup := by
        simpa [List.nodup_append, hresult] using fun k v hv heq => hmem (by
          simpa [← heq] using ⟨v, hv⟩)
      simpa using ih hnext

/-- The object hook accepts exactly the objects without a repeated name. -/
theorem uniqueObject_eq_ok {pairs : List (Str × Data F)} {v : Data F} :
    uniqueObject pairs = .ok v ↔ v = .dict pairs ∧ (pairs.map Prod.fst).Nodup := by
  simp only [uniqueObject, bind_eq_ok, uniqueObjectLoop_eq_ok (by simp : ([].map Prod.fst).Nodup),
    pure_eq_ok, Except.ok.injEq, List.nil_append]
  constructor
  · rintro ⟨ms, ⟨rfl, hnodup⟩, rfl⟩
    exact ⟨rfl, hnodup⟩
  · rintro ⟨rfl, hnodup⟩
    exact ⟨pairs, ⟨rfl, hnodup⟩, rfl⟩

/-- The object hook raises only the adapter's own exception. -/
theorem uniqueObjectLoop_error {result pairs : List (Str × Data F)} {e : Exc}
    (h : uniqueObjectLoop result pairs = .error e) : ∃ a, e = .own a := by
  induction pairs generalizing result with
  | nil => simp [uniqueObjectLoop] at h
  | cons m pairs ih =>
    simp only [uniqueObjectLoop] at h
    split at h
    · exact ⟨_, by simpa [fail] using h.symm⟩
    · exact ih h

/-- The hooks raise the adapter's own exception, or the `ValueError` of an
integer with too many digits. -/
theorem payloadHooks_raises [PyFloat F] (limits : Limits) :
    (payloadHooks (F := F) limits).Raises
      fun e => (∃ a, e = .own a) ∨ e = .builtin .valueError where
  int {t e} h := by
    simp only [payloadHooks] at h
    split at h
    · exact Or.inr (by simpa using h.symm)
    · simp at h
  float h := by simp [payloadHooks] at h
  constant {t e} h := Or.inl ⟨_, by simpa [payloadHooks, rejectConstant, fail] using h.symm⟩
  object {ms e} h := by
    rcases bind_eq_error.mp h with h | ⟨_, _, h⟩
    · exact Or.inl (uniqueObjectLoop_error h)
    · simp at h

/-- Lookup in a dictionary finds exactly its members. -/
theorem getItem_eq_ok {ms : List (Str × Data F)} (hnodup : (ms.map Prod.fst).Nodup) {key : Str}
    {v : Data F} : getItem ms key = .ok v ↔ (key, v) ∈ ms := by
  induction ms with
  | nil => simp [getItem]
  | cons m ms ih =>
    obtain ⟨hm, hms⟩ := List.nodup_cons.mp (by simpa only [List.map_cons] using hnodup)
    obtain ⟨k, w⟩ := m
    have htail := ih hms
    simp only [getItem, List.find?_cons, List.mem_cons, Prod.mk.injEq] at htail ⊢
    by_cases hk : k = key
    · subst hk
      have hnot : (k, v) ∉ ms := fun hmem => hm (List.mem_map.mpr ⟨_, hmem, rfl⟩)
      simp [hnot, eq_comm]
    · simpa [hk, Ne.symm hk] using htail

/-- Every key of a dictionary can be looked up. -/
theorem getItem_isOk {ms : List (Str × Data F)} {key : Str} (h : key ∈ ms.map Prod.fst) :
    ∃ v, getItem ms key = .ok v := by
  obtain ⟨m, hm, rfl⟩ := List.mem_map.mp h
  have hfind : (ms.find? fun n => n.1 = m.1).isSome :=
    List.find?_isSome.mpr ⟨m, hm, by simp⟩
  obtain ⟨n, hn⟩ := Option.isSome_iff_exists.mp hfind
  exact ⟨n.2, by simp [getItem, hn]⟩

/-- The comparison of key sets, as two inclusions. -/
theorem hasExactly_iff {ms : List (Str × Data F)} {keys : List Str} :
    hasExactly ms keys = true ↔
      (∀ m ∈ ms, m.1 ∈ keys) ∧ ∀ key ∈ keys, key ∈ ms.map Prod.fst := by
  simp [hasExactly]

/-- Members with distinct names are determined up to order by which they are. -/
theorem perm_of_members {α : Type} {ms ns : List (Str × α)} (hms : (ms.map Prod.fst).Nodup)
    (hns : (ns.map Prod.fst).Nodup) (hkeys : ∀ m ∈ ms, m.1 ∈ ns.map Prod.fst)
    (hmem : ∀ n ∈ ns, n ∈ ms) : ms.Perm ns := by
  refine (List.perm_ext_iff_of_nodup (List.Nodup.of_map _ hms) (List.Nodup.of_map _ hns)).mpr
    fun m => ⟨?_, hmem m⟩
  intro hm
  obtain ⟨n, hn, hname⟩ := List.mem_map.mp (hkeys m hm)
  have heq := List.inj_on_of_nodup_map hms hm (hmem n hn) hname.symm
  rwa [heq]

/-- A member of a dictionary of strings. -/
def strMember (m : Str × Str) : Str × Data F := (m.1, .str m.2)

/-- A list with the same members as a dictionary of strings is one itself. -/
theorem exists_strings_of_perm {vs : List (Str × Data F)} {fields : List (Str × Str)}
    (h : vs.Perm (fields.map strMember)) :
    ∃ ss : List (Str × Str), vs = ss.map strMember ∧ ss.Perm fields := by
  have hrange : vs ∈ Set.range (List.map (strMember (F := F))) := by
    rw [Set.range_list_map]
    intro v hv
    obtain ⟨m, -, hm⟩ := List.mem_map.mp (h.mem_iff.mp hv)
    exact ⟨m, hm⟩
  obtain ⟨ss, rfl⟩ := hrange
  have hinj : Function.Injective (strMember (F := F)) := by
    rintro ⟨k, s⟩ ⟨k', s'⟩ heq
    simpa [strMember] using heq
  exact ⟨ss, rfl, (List.map_perm_map_iff hinj).mp h⟩

/-- The names of the fields are the required ones. -/
theorem Product.fields_names (p : Product) : p.fields.map Prod.fst = required := rfl

/-- The required names are distinct. -/
theorem required_nodup : required.Nodup := by decide

/-- The members of a product as a dictionary have the required names. -/
theorem strMember_names (p : Product) :
    (p.fields.map (strMember (F := F))).map Prod.fst = required := rfl

/-- Validation returns exactly on the dictionaries that hold the fields of a
product, and returns these fields. -/
theorem validatePayload_eq_ok {ms : List (Str × Data F)} (hnodup : (ms.map Prod.fst).Nodup)
    {fields : List (Str × Str)} :
    validatePayload (.dict ms) = .ok fields ↔
      ∃ p : Product, fields = p.fields ∧ ms.Perm (p.fields.map strMember) := by
  simp only [validatePayload]
  constructor
  · intro h
    split at h
    · next hkeys =>
      obtain ⟨v₁, hv₁, h⟩ := bind_eq_ok.mp h
      obtain ⟨productName, hname, h⟩ := bind_eq_ok.mp h
      obtain ⟨v₂, hv₂, h⟩ := bind_eq_ok.mp h
      obtain ⟨listedPrice, hprice, h⟩ := bind_eq_ok.mp h
      split at h
      · next hdecimal =>
        obtain ⟨v₃, hv₃, h⟩ := bind_eq_ok.mp h
        obtain ⟨currency, hcurrency, h⟩ := bind_eq_ok.mp h
        split at h
        · next hupper =>
          have hfields : fields = canonicalFields productName listedPrice currency := by
            simpa using h.symm
          obtain ⟨rfl, hmin₁, hmax₁, hchars₁⟩ := validateScalarText_eq_ok.mp hname
          obtain ⟨rfl, -, hmax₂, -⟩ := validateScalarText_eq_ok.mp hprice
          obtain ⟨rfl, hmin₃, hmax₃, -⟩ := validateScalarText_eq_ok.mp hcurrency
          have hne : currency ≠ [] := List.length_pos_iff.mp (by omega)
          let p : Product := ⟨productName, listedPrice, currency, ⟨hmin₁, hmax₁⟩, hchars₁,
            hmax₂, decimalTextFullmatch_iff.mp hdecimal, by omega,
            (currency_checks hne).mp hupper⟩
          refine ⟨p, hfields, perm_of_members hnodup ?_ ?_ ?_⟩
          · rw [strMember_names]; exact required_nodup
          · rw [strMember_names]; exact (hasExactly_iff.mp hkeys).1
          · rw [getItem_eq_ok hnodup] at hv₁ hv₂ hv₃
            simp [p, Product.fields, canonicalFields, strMember, hv₁, hv₂, hv₃]
        · simp at h
      · simp at h
    · simp at h
  · rintro ⟨p, rfl, hperm⟩
    have hkeys : hasExactly ms required = true := by
      have hnames := hperm.map Prod.fst
      rw [strMember_names] at hnames
      exact hasExactly_iff.mpr ⟨fun m hm => hnames.mem_iff.mp (List.mem_map_of_mem hm),
        fun key hkey => hnames.mem_iff.mpr hkey⟩
    have hget (m : Str × Str) (hm : m ∈ p.fields) : getItem ms m.1 = .ok (.str m.2) :=
      (getItem_eq_ok hnodup).mpr (hperm.mem_iff.mpr (List.mem_map_of_mem (f := strMember) hm))
    have hget₁ := hget (lit "product_name", p.productName)
      (by simp [Product.fields, canonicalFields])
    have hget₂ := hget (lit "listed_price", p.listedPrice)
      (by simp [Product.fields, canonicalFields])
    have hget₃ := hget (lit "currency", p.currency) (by simp [Product.fields, canonicalFields])
    have hname := (@validateScalarText_eq_ok F _ (lit "product_name") _ _ _).mpr
      ⟨rfl, p.productName_length.1, p.productName_length.2, p.productName_allowed⟩
    have hprice := (@validateScalarText_eq_ok F _ (lit "listed_price") _ _ _).mpr
      ⟨rfl, p.listedPrice_decimal.length_pos, p.listedPrice_length,
        fun c hc => p.listedPrice_decimal.allowed hc⟩
    have hcurrency := (@validateScalarText_eq_ok F _ (lit "currency") _ _ _).mpr
      ⟨rfl, p.currency_length.ge, p.currency_length.le,
        fun c hc => allowed_of_isAsciiUpper (p.currency_upper c hc)⟩
    have hne : p.currency ≠ [] := List.length_pos_iff.mp (by rw [p.currency_length]; decide)
    simp only [hkeys, hget₁, hget₂, hget₃, ok_bind, maxProductNameChars, maxPriceTextChars,
      hname, hprice, hcurrency, decimalTextFullmatch_iff.mpr p.listedPrice_decimal,
      (currency_checks hne).mpr p.currency_upper, if_true, pure_eq_ok]
    rfl

/-- Validation raises only the adapter's own exception. -/
theorem validatePayload_error {payload : Data F} {e : Exc}
    (h : validatePayload payload = .error e) : ∃ a, e = .own a := by
  cases payload with
  | dict ms =>
    simp only [validatePayload] at h
    split at h
    · next hkeys =>
      have hget (key : Str) (hkey : key ∈ required) : ∃ v, getItem ms key = .ok v :=
        getItem_isOk ((hasExactly_iff.mp hkeys).2 key hkey)
      obtain ⟨v₁, hv₁⟩ := hget (lit "product_name") (by decide)
      obtain ⟨v₂, hv₂⟩ := hget (lit "listed_price") (by decide)
      obtain ⟨v₃, hv₃⟩ := hget (lit "currency") (by decide)
      simp only [hv₁, hv₂, hv₃, ok_bind] at h
      rcases bind_eq_error.mp h with h | ⟨_, -, h⟩
      · exact validateScalarText_error h
      rcases bind_eq_error.mp h with h | ⟨_, -, h⟩
      · exact validateScalarText_error h
      split at h
      · rcases bind_eq_error.mp h with h | ⟨_, -, h⟩
        · exact validateScalarText_error h
        split at h
        · simp at h
        · exact ⟨_, by simpa [fail] using h.symm⟩
      · exact ⟨_, by simpa [fail] using h.symm⟩
    · exact ⟨_, by simpa [fail] using h.symm⟩
  | _ => exact ⟨_, by simpa [fail, validatePayload] using h.symm⟩

/-! ### Canonical texts -/

/-- What the adapter relies on in Core's `canonical_json`: a dictionary of
encodable strings is written as a JSON text that decodes to the same members,
sorted by name. -/
structure CanonicalJson (canonicalJson : Data F → Str) : Prop where
  text : ∀ ms : List (Str × Str), (ms.map Prod.fst).Nodup →
    (∀ m ∈ ms, m.1.Encodable ∧ m.2.Encodable) →
    Text (canonicalJson (strDict ms)) (stringObject (sortMembers ms))

/-- The fields of a product are encodable. -/
theorem Product.encodable (p : Product) : ∀ m ∈ p.fields, m.1.Encodable ∧ m.2.Encodable := by
  have hname : p.productName.Encodable := fun c hc => (p.productName_allowed c hc).2.2
  have hprice : p.listedPrice.Encodable := fun c hc => (p.listedPrice_decimal.allowed hc).2.2
  have hcurrency : p.currency.Encodable := fun c hc =>
    (allowed_of_isAsciiUpper (p.currency_upper c hc)).2.2
  intro m hm
  simp only [Product.fields, canonicalFields, List.mem_cons, List.not_mem_nil, or_false] at hm
  rcases hm with rfl | rfl | rfl
  · exact ⟨(by decide : (lit "product_name").Encodable), hname⟩
  · exact ⟨(by decide : (lit "listed_price").Encodable), hprice⟩
  · exact ⟨(by decide : (lit "currency").Encodable), hcurrency⟩

/-- The canonical text of a product denotes that product. -/
theorem CanonicalJson.denotes {canonicalJson : Data F → Str} (hjson : CanonicalJson canonicalJson)
    (p : Product) : Denotes (canonicalJson (strDict p.fields)) p :=
  ⟨sortMembers p.fields, sortMembers_perm _,
    hjson.text p.fields (by rw [p.fields_names]; exact required_nodup) p.encodable⟩

/-- A body that denotes a product with encodable fields is encodable. -/
theorem Denotes.encodable {body : Str} {p : Product} (h : Denotes body p) : body.Encodable := by
  obtain ⟨ms, hms, htext⟩ := h
  refine htext.encodable ?_
  have hall : ∀ ss : List (Str × Str), (∀ m ∈ ss, m.1.Encodable ∧ m.2.Encodable) →
      allStringsMembers Str.Encodable (ss.map fun m => (m.1, .string m.2)) := by
    intro ss hss
    induction ss with
    | nil => trivial
    | cons m ss ih =>
      obtain ⟨⟨hk, hs⟩, hrest⟩ := List.forall_mem_cons.mp hss
      exact ⟨hk, hs, ih hrest⟩
  exact hall ms fun m hm => p.encodable m (hms.mem_iff.mp hm)

/-! ### Bodies -/

variable [PyFloat F]

/-- Members that are all strings are built as they stand. -/
theorem foldMembers_strings (limits : Limits) (ms : List (Str × Str)) :
    foldMembers (payloadHooks (F := F) limits) (ms.map fun m => (m.1, .string m.2)) =
      .ok (ms.map strMember) := by
  induction ms with
  | nil => rfl
  | cons m ms ih => simp [foldMembers, Tree.fold, payloadHooks, strMember] at ih ⊢; simp [ih]

/-- Only a string is built into a string. -/
theorem fold_eq_str {limits : Limits} {x : Tree} {s : Str}
    (h : x.fold (payloadHooks (F := F) limits) = .ok (.str s)) : x = .string s := by
  cases x with
  | string t => simpa [Tree.fold, payloadHooks] using h
  | int t =>
    simp only [Tree.fold, payloadHooks] at h
    split at h <;> simp at h
  | array xs =>
    obtain ⟨vs, -, h⟩ := bind_eq_ok.mp (by simpa only [Tree.fold] using h)
    simp [payloadHooks] at h
  | object ms =>
    obtain ⟨vs, -, h⟩ := bind_eq_ok.mp (by simpa only [Tree.fold] using h)
    simp [payloadHooks, uniqueObject_eq_ok] at h
  | _ => simp [Tree.fold, payloadHooks, rejectConstant] at h

/-- Only an object without a repeated name is built into a dictionary. -/
theorem fold_eq_dict {limits : Limits} {x : Tree} {vs : List (Str × Data F)}
    (h : x.fold (payloadHooks limits) = .ok (.dict vs)) :
    ∃ ms, x = .object ms ∧ foldMembers (payloadHooks limits) ms = .ok vs ∧
      (vs.map Prod.fst).Nodup := by
  cases x with
  | object ms =>
    obtain ⟨ws, hws, h⟩ := bind_eq_ok.mp (by simpa only [Tree.fold] using h)
    obtain ⟨heq, hnodup⟩ := uniqueObject_eq_ok.mp h
    obtain rfl := Data.dict.inj heq
    exact ⟨ms, rfl, hws, hnodup⟩
  | int t =>
    simp only [Tree.fold, payloadHooks] at h
    split at h <;> simp at h
  | array xs =>
    obtain ⟨ws, -, h⟩ := bind_eq_ok.mp (by simpa only [Tree.fold] using h)
    simp [payloadHooks] at h
  | _ => simp [Tree.fold, payloadHooks, rejectConstant] at h

/-- Members that are built into strings are strings. -/
theorem foldMembers_eq_strings {limits : Limits} {ms : List (Str × Tree)} {ss : List (Str × Str)}
    (h : foldMembers (payloadHooks (F := F) limits) ms = .ok (ss.map strMember)) :
    ms = ss.map fun m => (m.1, .string m.2) := by
  induction ms generalizing ss with
  | nil => simpa [foldMembers] using h
  | cons m ms ih =>
    rw [foldMembers] at h
    obtain ⟨v, hv, h⟩ := bind_eq_ok.mp h
    obtain ⟨vs, hvs, h⟩ := bind_eq_ok.mp h
    cases ss with
    | nil => simp at h
    | cons s ss =>
      obtain ⟨⟨hname, rfl⟩, rfl⟩ := by simpa [strMember] using h
      have hstr := fold_eq_str hv
      rw [List.map_cons, ← ih hvs, ← hname, ← hstr]

/-- Strings do not nest. -/
theorem depth_stringObject (ms : List (Str × Str)) : (stringObject ms).depth = 1 := by
  have hmembers : depthMembers (ms.map fun m => (m.1, Tree.string m.2)) = 0 := by
    induction ms with
    | nil => rfl
    | cons m ms ih => simp [depthMembers, Tree.depth, ih]
  simp [stringObject, Tree.depth, hmembers]

/-- Decoding and validation return exactly on the bodies that denote a product,
and return its fields. -/
theorem loads_validatePayload {limits : Limits} {body : Str} {fields : List (Str × Str)} :
    (∃ payload, loads (payloadHooks (F := F) limits) limits.nesting body = .ok payload ∧
      validatePayload payload = .ok fields) ↔
      ∃ p : Product, Denotes body p ∧ fields = p.fields := by
  simp only [loads_eq_ok_iff]
  constructor
  · rintro ⟨payload, ⟨x, htext, -, hfold⟩, hvalid⟩
    cases payload with
    | dict vs =>
      obtain ⟨ms, rfl, hms, hnodup⟩ := fold_eq_dict hfold
      obtain ⟨p, rfl, hperm⟩ := (validatePayload_eq_ok hnodup).mp hvalid
      obtain ⟨ss, rfl, hss⟩ := exists_strings_of_perm hperm
      obtain rfl := foldMembers_eq_strings hms
      exact ⟨p, ⟨ss, hss, htext⟩, rfl⟩
    | _ => simp [validatePayload] at hvalid
  · rintro ⟨p, ⟨ss, hss, htext⟩, rfl⟩
    have hnodup : ((ss.map (strMember (F := F))).map Prod.fst).Nodup := by
      have hnames := (hss.map (strMember (F := F))).map Prod.fst
      rw [strMember_names] at hnames
      exact hnames.nodup_iff.mpr required_nodup
    refine ⟨.dict (ss.map strMember), ⟨_, htext, ?_, ?_⟩,
      (validatePayload_eq_ok hnodup).mpr ⟨p, rfl, hss.map _⟩⟩
    · rw [depth_stringObject]
      exact limits.nesting_pos
    · rw [stringObject, Tree.fold, foldMembers_strings]
      exact uniqueObject_eq_ok.mpr ⟨rfl, hnodup⟩

/-- The payload function returns exactly on the bodies within the bound that
denote a product, and returns the canonical text of its fields. -/
theorem canonicalProductPayload_eq_ok {limits : Limits} {canonicalJson : Data F → Str}
    {body c : Str} {n : ℤ} :
    canonicalProductPayload limits canonicalJson (.str body) n = .ok c ↔
      1 ≤ body.length ∧ body.length ≤ n ∧
        ∃ p : Product, Denotes body p ∧ c = canonicalJson (strDict p.fields) := by
  have hloads := @loads_validatePayload F _ limits body
  simp only [canonicalProductPayload]
  split
  · next hbound =>
    simp only [reduceCtorEq, false_iff, not_and]
    intro hpos hle
    rcases hbound with rfl | hlt
    · simp at hpos
    · omega
  · next hbound =>
    obtain ⟨hne, hle⟩ := not_or.mp hbound
    have hpos := List.length_pos_iff.mpr hne
    simp only [Nat.succ_le_iff, hpos, not_lt.mp hle, true_and]
    constructor
    · intro h
      split at h
      · next payload hpayload =>
        obtain ⟨fields, hfields, h⟩ := bind_eq_ok.mp h
        obtain ⟨p, hp, rfl⟩ := hloads.mp ⟨payload, hpayload, hfields⟩
        exact ⟨p, hp, by simpa using h.symm⟩
      · simp at h
    · rintro ⟨p, hp, rfl⟩
      obtain ⟨payload, hpayload, hfields⟩ := hloads.mpr ⟨p, hp, rfl⟩
      simp [hpayload, hfields]

/-- The payload function raises only the adapter's own exception. -/
theorem canonicalProductPayload_error {limits : Limits} {canonicalJson : Data F → Str}
    {responseBody : Obj} {n : ℤ} {e : Exc}
    (h : canonicalProductPayload limits canonicalJson responseBody n = .error e) :
    ∃ a, e = .own a := by
  cases responseBody with
  | str body =>
    simp only [canonicalProductPayload] at h
    split at h
    · exact ⟨_, by simpa [fail] using h.symm⟩
    · split at h
      · next payload hpayload =>
        rcases bind_eq_error.mp h with h | ⟨_, -, h⟩
        · exact validatePayload_error h
        · simp at h
      · next f hf =>
        obtain rfl : handleDecodingError (decodingError f) = e := by simpa using h
        cases f with
        | decode d => exact ⟨_, rfl⟩
        | recursion => exact ⟨_, rfl⟩
        | hook a =>
          rcases loads_error_hook (payloadHooks_raises limits) hf with ⟨b, rfl⟩ | rfl
          · exact ⟨b, rfl⟩
          · exact ⟨_, rfl⟩
  | _ => exact ⟨_, by simpa [fail, canonicalProductPayload] using h.symm⟩

/-- The compact encoding with sorted keys is such a function. -/
theorem canonicalJson_encode (ensureAscii : Bool) :
    CanonicalJson (encode (F := F) (Layout.compact ensureAscii) 0) where
  text ms _ hms := by
    have htext := text_encode (Layout.compact ensureAscii) 0 (strDict (F := F) ms)
    have hreread (s : Str) (hs : s.Encodable) : reread ensureAscii s = s :=
      reread_of_noSplitPair (noSplitPair_of_encodable hs)
    have htree : printedTree (Layout.compact ensureAscii) (strDict (F := F) ms) =
        stringObject (sortMembers ms) := by
      rw [strDict, printedTree, printedMembers_eq, List.map_map, stringObject]
      have hsorted := sortMembers_map (fun s => Tree.string (reread ensureAscii s)) ms
      simp only [Function.comp_def, printedTree, Layout.compact] at hsorted ⊢
      rw [hsorted, List.map_map]
      congr 1
      refine List.map_congr_left fun m hm => ?_
      obtain ⟨hk, hs⟩ := hms m ((sortMembers_perm ms).mem_iff.mp hm)
      simp [hreread _ hk, hreread _ hs]
    rwa [htree] at htext

/-- The payload function returns encodable text exactly on the strings within the
bound that denote a product, and raises the adapter's own exception on every
other string. -/
theorem canonicalProductPayload_accepts {canonicalJson : Data F → Str}
    (hjson : CanonicalJson canonicalJson) (limits : Limits) (body : Str) (n : ℤ) :
    ((∃ c, canonicalProductPayload limits canonicalJson (.str body) n = .ok c ∧ c.encode.isSome) ↔
      1 ≤ body.length ∧ body.length ≤ n ∧ ∃ p : Product, Denotes body p) ∧
    (¬(1 ≤ body.length ∧ body.length ≤ n ∧ ∃ p : Product, Denotes body p) →
      ∃ e, canonicalProductPayload limits canonicalJson (.str body) n = .error (.own e)) := by
  have hok {c : Str} := @canonicalProductPayload_eq_ok F _ limits canonicalJson body c n
  constructor
  · constructor
    · rintro ⟨c, hc, -⟩
      obtain ⟨hpos, hle, p, hp, -⟩ := hok.mp hc
      exact ⟨hpos, hle, p, hp⟩
    · rintro ⟨hpos, hle, p, hp⟩
      exact ⟨_, hok.mpr ⟨hpos, hle, p, hp, rfl⟩, Str.encode_isSome.mpr (hjson.denotes p).encodable⟩
  · intro hnot
    cases hresult : canonicalProductPayload limits canonicalJson (.str body) n with
    | ok c =>
      obtain ⟨hpos, hle, p, hp, -⟩ := hok.mp hresult
      exact absurd ⟨hpos, hle, p, hp⟩ hnot
    | error e =>
      obtain ⟨a, rfl⟩ := canonicalProductPayload_error hresult
      exact ⟨a, rfl⟩

/-- A body that denotes a product. -/
def sampleBody : Str := lit
  "\x7b\"product_name\":\"Edge X1\",\"listed_price\":\"1080.00\",\"currency\":\"USD\"\x7d"

/-- The canonical text of the sample product. -/
def sampleCanonical : Str := lit
  "\x7b\"currency\":\"USD\",\"listed_price\":\"1080.00\",\"product_name\":\"Edge X1\"\x7d"

/-- The sample body is accepted, and its members are sorted. -/
theorem sampleBody_accepted :
    canonicalProductPayload (F := Unit) sampleLimits (encode (Layout.compact false) 0)
      (.str sampleBody) 4096 = .ok sampleCanonical := by
  decide +kernel

/-- The sample body denotes a product. -/
theorem sampleBody_denotes :
    1 ≤ sampleBody.length ∧ sampleBody.length ≤ (4096 : ℤ) ∧ ∃ p : Product, Denotes sampleBody p :=
  (canonicalProductPayload_accepts (canonicalJson_encode false) sampleLimits sampleBody 4096).1.mp
    ⟨sampleCanonical, sampleBody_accepted, by decide⟩

end MarketIntelligence.PublicProduct
