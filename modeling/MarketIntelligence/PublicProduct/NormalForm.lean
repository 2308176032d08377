import MarketIntelligence.PublicProduct.Attestation

/-!
# Canonical payloads are a normal form

The canonical text of an accepted body decodes to the same three values, depends on
nothing else, and is its own canonical text. A digest of it therefore identifies the
content of a product.
-/

namespace MarketIntelligence.PublicProduct

open Python Json

/-- A text denotes at most one product. -/
theorem Denotes.unique {body : Str} {p q : Product} (hp : Denotes body p) (hq : Denotes body q) :
    p = q := by
  obtain ⟨ms, hms, htext⟩ := hp
  obtain ⟨ns, hns, htext'⟩ := hq
  have hsame : ms = ns := by
    have hpairs := Tree.object.inj (text_unique htext htext')
    refine (List.map_inj_right ?_).mp hpairs
    rintro ⟨k, s⟩ ⟨k', s'⟩ heq
    simpa using heq
  have hmem (m : Str × Str) : m ∈ p.fields ↔ m ∈ q.fields := by
    rw [← hms.mem_iff, hsame, hns.mem_iff]
  have hname := (hmem (lit "product_name", p.productName)).mp
    (by simp [Product.fields, canonicalFields])
  have hprice := (hmem (lit "listed_price", p.listedPrice)).mp
    (by simp [Product.fields, canonicalFields])
  have hcurrency := (hmem (lit "currency", p.currency)).mp
    (by simp [Product.fields, canonicalFields])
  have hne₁ : lit "product_name" ≠ lit "listed_price" := by decide
  have hne₂ : lit "product_name" ≠ lit "currency" := by decide
  have hne₃ : lit "listed_price" ≠ lit "currency" := by decide
  simp only [Product.fields, canonicalFields, List.mem_cons, Prod.mk.injEq, hne₁, hne₂, hne₃,
    hne₁.symm, hne₂.symm, hne₃.symm, List.not_mem_nil, false_and, or_false, false_or, true_and]
    at hname hprice hcurrency
  ext1 <;> assumption

variable {F Request Artifact : Type}

/-- Two products have the same canonical text exactly if they are equal. -/
theorem CanonicalJson.eq_iff {canonicalJson : Data F → Str} (hjson : CanonicalJson canonicalJson)
    {p q : Product} :
    canonicalJson (strDict p.fields) = canonicalJson (strDict q.fields) ↔ p = q := by
  constructor
  · intro h
    exact (hjson.denotes p).unique (h ▸ hjson.denotes q)
  · rintro rfl
    rfl

/-- Without collisions, digests of encodable texts are equal only for equal texts. -/
theorem payloadDigest_injective {core : Core F Request Artifact}
    (hsha : Function.Injective core.sha256Hexdigest) {s t digest : Str}
    (hs : payloadDigest core s = .ok digest) (ht : payloadDigest core t = .ok digest) : s = t := by
  unfold payloadDigest at hs ht
  split at hs
  · next data hdata =>
    split at ht
    · next data' hdata' =>
      have heq := (Except.ok.inj hs).trans (Except.ok.inj ht).symm
      obtain rfl := hsha (List.append_cancel_left heq)
      exact Str.encode_injective hdata hdata'
    · simp at ht
  · simp at hs

variable [PyFloat F]

/-- Decoding a body with the adapter's hooks gives the three values of a product, in
some order. -/
def DecodesTo (F : Type) [PyFloat F] (limits : Limits) (body : Str) (p : Product) : Prop :=
  ∃ ms : List (Str × Str), ms.Perm p.fields ∧
    loads (payloadHooks (F := F) limits) limits.nesting body = .ok (strDict ms)

/-- Decoding gives the product that the body denotes. -/
theorem decodesTo_iff {limits : Limits} {body : Str} {p : Product} :
    DecodesTo F limits body p ↔ Denotes body p := by
  constructor
  · rintro ⟨ms, hms, hloads⟩
    obtain ⟨x, htext, -, hfold⟩ := (loads_eq_ok_iff _).mp hloads
    obtain ⟨ps, rfl, hps, -⟩ := fold_eq_dict hfold
    have hms' : foldMembers (payloadHooks (F := F) limits) ps = .ok (ms.map strMember) := hps
    obtain rfl := foldMembers_eq_strings hms'
    exact ⟨ms, hms, htext⟩
  · intro hp
    obtain ⟨ms, hms, htext⟩ := hp
    have hnodup : ((ms.map (strMember (F := F))).map Prod.fst).Nodup := by
      have hnames := (hms.map (strMember (F := F))).map Prod.fst
      rw [strMember_names] at hnames
      exact hnames.nodup_iff.mpr required_nodup
    refine ⟨ms, hms, (loads_eq_ok_iff _).mpr ⟨_, htext, ?_, ?_⟩⟩
    · rw [depth_stringObject]
      exact limits.nesting_pos
    · rw [stringObject, Tree.fold, foldMembers_strings]
      exact uniqueObject_eq_ok.mpr ⟨rfl, hnodup⟩

/-- A canonical text is accepted under every bound that it fits in, and is its own
canonical text. -/
theorem canonicalProductPayload_canonical {canonicalJson : Data F → Str}
    (hjson : CanonicalJson canonicalJson) (limits : Limits) (p : Product) {n : ℤ}
    (hn : (canonicalJson (strDict p.fields)).length ≤ n) :
    canonicalProductPayload limits canonicalJson (.str (canonicalJson (strDict p.fields))) n =
      .ok (canonicalJson (strDict p.fields)) := by
  have hdenotes := hjson.denotes p
  refine canonicalProductPayload_eq_ok.mpr ⟨?_, hn, p, hdenotes, rfl⟩
  obtain ⟨ms, -, w₁, t, w₂, heq, -, hvalue, -⟩ := hdenotes
  obtain ⟨c, u, rfl, -⟩ := hvalue.head
  rw [heq]
  simp only [List.length_append, List.length_cons]
  omega

variable [DecidableEq Artifact]

/-- Material that some capture has built from a response body. -/
def CapturedFrom (core : Core F Request Artifact) (body : Str) (m : CapturedSourceMaterial) :
    Prop :=
  ∃ adapter request retrieve validated result,
    PassesRequestGates core adapter request validated ∧
    retrieve (retrievalRequest validated) = .ok (.result result) ∧
    result.responseBody = .str body ∧ (capture core adapter retrieve request).2 = .ok m

/-- The digest of captured material is the digest of the canonical text of the
product that the body denotes. -/
theorem CapturedFrom.digest {core : Core F Request Artifact} (hlaw : core.Lawful) {body : Str}
    {m : CapturedSourceMaterial} (h : CapturedFrom core body m) :
    ∃ p : Product, Denotes body p ∧
      payloadDigest core (core.canonicalJson (strDict p.fields)) =
        .ok m.capturedPayloadDigest := by
  obtain ⟨adapter, request, retrieve, validated, result, hgates, hretrieve, hbody, hm⟩ := h
  have hbegin := captureGates_eq_ok.mpr ⟨hgates, rfl⟩
  obtain ⟨resolved, o, c, sp, ee, payloadJson, digest, -, hresolved, -, ho, hc, hsp, hee, htimes,
      hpayload, hdigest, hmaterial⟩ :=
    captureResult_eq_ok.mp (by simpa only [capture, hbegin, hretrieve, ok_bind] using hm)
  have hwell := materialFields_wellFormed validated hlaw.canonicalJson hgates.uri
    hresolved ho hc hsp hee htimes.2 hpayload hdigest
  have hfields := Except.ok.inj ((hlaw.material _ hwell).symm.trans hmaterial)
  rw [hbody] at hpayload
  obtain ⟨-, -, p, hp, rfl⟩ := canonicalProductPayload_eq_ok.mp hpayload
  exact ⟨p, hp, by rw [hdigest, ← hfields]; rfl⟩

/-- Canonicalisation keeps the three decoded values, forgets everything else about the
spelling of a body, and is idempotent; and without hash collisions the digests of
captured material are equal exactly for equal content. -/
theorem canonicalProductPayload_normalForm {core : Core F Request Artifact} (hlaw : core.Lawful)
    (hsha : Function.Injective core.sha256Hexdigest) :
    (∀ {b b' c c' : Str} {n n' : ℤ},
      canonicalProductPayload core.limits core.canonicalJson (.str b) n = .ok c →
      canonicalProductPayload core.limits core.canonicalJson (.str b') n' = .ok c' →
      ∃ p p' : Product, DecodesTo F core.limits b p ∧ DecodesTo F core.limits b' p' ∧
        DecodesTo F core.limits c p ∧ (c = c' ↔ p = p') ∧
        ∀ m : ℤ, c.length ≤ m →
          canonicalProductPayload core.limits core.canonicalJson (.str c) m = .ok c) ∧
    ∀ {b b' : Str} {m m' : CapturedSourceMaterial},
      CapturedFrom core b m → CapturedFrom core b' m' →
      ∃ p p' : Product, DecodesTo F core.limits b p ∧ DecodesTo F core.limits b' p' ∧
        (m.capturedPayloadDigest = m'.capturedPayloadDigest ↔ p = p') := by
  constructor
  · intro b b' c c' n n' h h'
    obtain ⟨-, -, p, hp, rfl⟩ := canonicalProductPayload_eq_ok.mp h
    obtain ⟨-, -, p', hp', rfl⟩ := canonicalProductPayload_eq_ok.mp h'
    exact ⟨p, p', decodesTo_iff.mpr hp, decodesTo_iff.mpr hp',
      decodesTo_iff.mpr (hlaw.canonicalJson.denotes p), hlaw.canonicalJson.eq_iff,
      fun m hm => canonicalProductPayload_canonical hlaw.canonicalJson _ p hm⟩
  · intro b b' m m' h h'
    obtain ⟨p, hp, hdigest⟩ := h.digest hlaw
    obtain ⟨p', hp', hdigest'⟩ := h'.digest hlaw
    refine ⟨p, p', decodesTo_iff.mpr hp, decodesTo_iff.mpr hp', ?_, ?_⟩
    · intro heq
      rw [heq] at hdigest
      exact hlaw.canonicalJson.eq_iff.mp (payloadDigest_injective hsha hdigest hdigest')
    · rintro rfl
      exact Except.ok.inj (hdigest.symm.trans hdigest')

/-- The sample hash has no collisions. -/
theorem sampleHexdigest_injective : Function.Injective sampleHexdigest := by
  have hmarker (data : List UInt8) :
      lit "b6cec89416e2f0112843583c9bb1cb66104d3b96ee38c35e8383e9552822670b" ≠
        ('-' : Chr) :: data.map fun b => chr b.toNat := by
    intro h
    have hhead : (('b' : Char) : Chr) = ('-' : Char) := (List.cons.inj h).1
    exact absurd hhead (by decide)
  intro data data' h
  unfold sampleHexdigest at h
  split at h
  · next hdata =>
    split at h
    · next hdata' => exact Option.some.inj (hdata.symm.trans hdata')
    · exact absurd h (hmarker data')
  · split at h
    · exact absurd h.symm (hmarker data)
    · refine (List.map_inj_right fun b b' hb => ?_).mp (List.cons.inj h).2
      have hord (u : UInt8) : (chr u.toNat).ord = u.toNat :=
        ord_chr (lt_trans u.toNat_lt (by decide))
      exact UInt8.toNat_inj.mp (by rw [← hord b, ← hord b', hb])

/-- The sample body and its canonical text have the same content. -/
theorem sampleBody_normalForm :
    ∃ p : Product, DecodesTo Unit sampleCore.limits sampleBody p ∧
      DecodesTo Unit sampleCore.limits sampleCanonical p := by
  obtain ⟨p, -, hbody, -, hcanonical, -, -⟩ :=
    (canonicalProductPayload_normalForm sampleCore_lawful sampleHexdigest_injective).1
      sampleBody_accepted sampleBody_accepted
  exact ⟨p, hbody, hcanonical⟩

end MarketIntelligence.PublicProduct
