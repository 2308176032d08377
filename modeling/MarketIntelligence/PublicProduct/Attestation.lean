import MarketIntelligence.PublicProduct.Capture

/-!
# Which retrieval results become material

A retrieval result attests a capture if every field has its exact type and value,
the address lists agree, the times are aware and in order, and the body denotes a
product. The adapter builds material exactly from the attested results whose
times can be written as UTC datetimes.
-/

namespace MarketIntelligence.PublicProduct

open Python Json

variable {F Request Artifact : Type}

/-- A tuple of 1 to 32 address literals, with their normal forms in order and
without duplicates. -/
def Normalised (core : Core F Request Artifact) (name : Str) (values : Obj)
    (addresses : List Str) : Prop :=
  ∃ literals : List Str, values = .tuple (literals.map .str) ∧
    1 ≤ literals.length ∧ literals.length ≤ 32 ∧
    List.Forall₂ (fun l a => core.validatePublicIpLiteral l name = .ok a) literals addresses ∧
    addresses.Nodup

/-- An optional time is absent, or an aware datetime of an accepted kind. -/
def OptionalTime (representable : AwareDatetime → Prop) (value : Obj) : Prop :=
  value = .none ∨ ∃ t, value.IsAware t ∧ representable t

/-- Every condition on a retrieval result. The kind of times that is accepted is a
parameter. -/
structure Attested [PyFloat F] (core : Core F Request Artifact)
    (representable : AwareDatetime → Prop) (validated : CaptureRequest Artifact)
    (result : RetrievalResult) : Prop where
  sourceTypeRef : result.sourceTypeRef = .str validated.sourceTypeRef
  requestedUri : result.requestedUri = .str validated.requestedUri
  effectiveUri : result.effectiveUri = .str validated.requestedUri
  statusCode : result.statusCode = .int 200
  mediaType : result.mediaType = .str (lit "application/json")
  locator : result.locator = .str publicProductLocator
  redirectChain : result.redirectChain = .tuple []
  credentialsUsed : result.credentialsUsed = .bool false
  dnsRebindingProtectionApplied : result.dnsRebindingProtectionApplied = .bool true
  /-- Both tuples normalise to the same set. -/
  addresses : ∃ resolved connected,
    Normalised core (lit "resolved_ip_addresses") result.resolvedIpAddresses resolved ∧
    Normalised core (lit "connected_ip_addresses") result.connectedIpAddresses connected ∧
    ∀ a, a ∈ connected ↔ a ∈ resolved
  /-- The operation started, then observed, then captured. -/
  times : ∃ observed captured,
    result.observedAt.IsAware observed ∧ representable observed ∧
    result.capturedAt.IsAware captured ∧ representable captured ∧
    validated.startedAt.instant ≤ observed.instant ∧ observed.instant ≤ captured.instant
  sourcePublishedAt : OptionalTime representable result.sourcePublishedAt
  eventEffectiveAt : OptionalTime representable result.eventEffectiveAt
  /-- The body is a string that the payload function accepts within the bound. -/
  body : ∃ c, canonicalProductPayload core.limits core.canonicalJson result.responseBody
    (min validated.maxPayloadChars maxResponseBodyChars) = .ok c

/-! ### Addresses -/

/-- Normalising keeps at most as many values as there are. -/
theorem normalizedAddresses_length {core : Core F Request Artifact} {name : Str}
    {values : List Obj} {ns : List Str} (h : normalizedAddresses core name values = .ok ns) :
    ns.length ≤ values.length := by
  fun_induction normalizedAddresses core name values generalizing ns with
  | case1 => simp at h; simp [← h]
  | case2 value values ih =>
    obtain ⟨n, -, h⟩ := bind_eq_ok.mp h
    obtain ⟨ns', hns, h⟩ := bind_eq_ok.mp h
    obtain rfl : n :: ns' = ns := by simpa using h
    simpa using ih hns
  | case3 _ values _ ih =>
    have := ih h
    simp only [List.length_cons]
    omega

/-- No value is left out exactly when all values are strings, and then every one of
them has a normal form. -/
theorem normalizedAddresses_eq_ok {core : Core F Request Artifact} {name : Str}
    {values : List Obj} {ns : List Str} :
    normalizedAddresses core name values = .ok ns ∧ ns.length = values.length ↔
      ∃ literals : List Str, values = literals.map .str ∧
        List.Forall₂ (fun l a => core.validatePublicIpLiteral l name = .ok a) literals ns := by
  constructor
  · rintro ⟨h, hlen⟩
    fun_induction normalizedAddresses core name values generalizing ns with
    | case1 =>
      obtain rfl : [] = ns := by simpa using h
      exact ⟨[], rfl, .nil⟩
    | case2 value values ih =>
      obtain ⟨n, hn, h⟩ := bind_eq_ok.mp h
      obtain ⟨ns', hns, h⟩ := bind_eq_ok.mp h
      obtain rfl : n :: ns' = ns := by simpa using h
      obtain ⟨literals, rfl, hall⟩ := ih hns (by simpa using hlen)
      exact ⟨value :: literals, rfl, .cons hn hall⟩
    | case3 value values _ ih =>
      have hle := normalizedAddresses_length h
      simp only [List.length_cons] at hlen
      omega
  · rintro ⟨literals, rfl, hall⟩
    induction hall with
    | nil => exact ⟨rfl, rfl⟩
    | cons hn _ ih =>
      obtain ⟨hrest, hlen⟩ := ih
      simp [normalizedAddresses, hn, hrest, hlen]

/-- Address validation returns the sorted normal forms, on exactly the tuples that
have them. -/
theorem validatedAddresses_eq_ok {core : Core F Request Artifact} {values : Obj} {name : Str}
    {sorted : List Str} :
    validatedAddresses core values name = .ok sorted ↔
      ∃ ns, Normalised core name values ns ∧ sorted = ns.insertionSort (· ≤ ·) := by
  cases values with
  | tuple values =>
    simp only [validatedAddresses, Normalised, Obj.tuple.injEq]
    constructor
    · intro h
      split at h
      · next hlen =>
        split at h
        · simp at h
        · next ns hns =>
          obtain ⟨_, hcond, h⟩ := bind_eq_ok.mp h
          have hsorted : ns.insertionSort (· ≤ ·) = sorted := by simpa using h
          obtain ⟨hcount, hnodup⟩ := by simpa using hcond
          obtain ⟨literals, rfl, hall⟩ := normalizedAddresses_eq_ok.mp ⟨hns, hcount⟩
          rw [List.length_map] at hlen
          exact ⟨ns, ⟨literals, rfl, hlen.1, hlen.2, hall, hnodup⟩, hsorted.symm⟩
      · simp at h
    · rintro ⟨ns, ⟨literals, rfl, hmin, hmax, hall, hnodup⟩, rfl⟩
      obtain ⟨hns, hcount⟩ := normalizedAddresses_eq_ok.mpr ⟨literals, rfl, hall⟩
      simp [hns, hcount, hnodup, hmin, hmax, raiseUnless]
  | _ => simp [validatedAddresses, Normalised]

/-- Lists without duplicates are equal after sorting exactly when they have the same
elements. -/
theorem insertionSort_eq_iff {ns ms : List Str} (hns : ns.Nodup) (hms : ms.Nodup) :
    ns.insertionSort (· ≤ ·) = ms.insertionSort (· ≤ ·) ↔ ∀ a, a ∈ ns ↔ a ∈ ms := by
  have hperm (l : List Str) := List.perm_insertionSort (· ≤ ·) l
  rw [← List.perm_ext_iff_of_nodup hns hms]
  constructor
  · intro h
    exact (hperm ns).symm.trans (h ▸ hperm ms)
  · intro h
    exact (((hperm ns).trans h).trans (hperm ms).symm).eq_of_pairwise'
      (List.pairwise_insertionSort _ ns) (List.pairwise_insertionSort _ ms)

/-! ### Times -/

/-- A required time is an aware datetime with a UTC form. -/
theorem awareUtc_eq_ok {value : Obj} {name : Str} {u : AwareDatetime} :
    awareUtc value name = .ok u ↔
      ∃ t, value.IsAware t ∧ t.astimezoneUtc = some u := by
  cases value with
  | datetime d =>
    cases d with
    | aware zone t folds =>
      simp only [awareUtc, Obj.isAware_aware, exists_eq_left']
      cases t.astimezoneUtc <;> simp
    | _ => simp [awareUtc, Obj.IsAware]
  | _ => simp [awareUtc, Obj.IsAware]

/-- An optional time is absent or has a UTC form. -/
theorem optionalAwareUtc_eq_ok {value : Obj} {name : Str} {u : Option AwareDatetime} :
    optionalAwareUtc value name = .ok u ↔
      value = .none ∧ u = none ∨
        ∃ t v, value.IsAware t ∧ t.astimezoneUtc = some v ∧ u = some v := by
  unfold optionalAwareUtc
  split
  · simp [eq_comm, Obj.IsAware]
  · next hnone =>
    have hne : value ≠ .none := hnone
    simp only [bind_eq_ok, awareUtc_eq_ok, pure_eq_ok, Except.ok.injEq, hne, false_and, false_or]
    constructor
    · rintro ⟨v, ⟨t, haware, ht⟩, rfl⟩
      exact ⟨t, v, haware, ht, rfl⟩
    · rintro ⟨t, v, haware, ht, rfl⟩
      exact ⟨v, ⟨t, haware, ht⟩, rfl⟩

/-- An optional time is accepted exactly if its UTC form exists. -/
theorem optionalTime_iff {value : Obj} (name : Str) :
    OptionalTime AwareDatetime.InUtcRange value ↔ ∃ u, optionalAwareUtc value name = .ok u := by
  simp only [OptionalTime, optionalAwareUtc_eq_ok, ← AwareDatetime.astimezoneUtc_isSome,
    Option.isSome_iff_exists]
  constructor
  · rintro (rfl | ⟨t, haware, v, hv⟩)
    · exact ⟨none, Or.inl ⟨rfl, rfl⟩⟩
    · exact ⟨some v, Or.inr ⟨t, v, haware, hv, rfl⟩⟩
  · rintro ⟨u, ⟨rfl, -⟩ | ⟨t, v, haware, hv, -⟩⟩
    · exact Or.inl rfl
    · exact Or.inr ⟨t, haware, v, hv⟩

/-! ### Captured material -/

/-- Captured material in the form that Core's contract asks for. -/
structure CapturedSourceMaterial.WellFormed (core : Core F Request Artifact)
    (m : CapturedSourceMaterial) : Prop where
  requestedUri : core.validateExactHttpsUri m.requestedUri (lit "requested_uri") = .ok ()
  effectiveUri : m.effectiveUri = m.requestedUri
  redirectChain : m.redirectChain = []
  addresses_length : 1 ≤ m.resolvedIpAddresses.length ∧ m.resolvedIpAddresses.length ≤ 32
  addresses_nodup : m.resolvedIpAddresses.Nodup
  addresses_public : ∀ a ∈ m.resolvedIpAddresses, ∃ literal,
    core.validatePublicIpLiteral literal (lit "resolved_ip_addresses") = .ok a
  dnsRebindingProtectionApplied : m.dnsRebindingProtectionApplied = true
  payload : ∃ p : Product, Denotes m.capturedPayloadJson p
  digest : payloadDigest core m.capturedPayloadJson = .ok m.capturedPayloadDigest
  locator : m.locator = publicProductLocator
  utc : m.observedAt.offset = 0 ∧ m.capturedAt.offset = 0 ∧
    (∀ t ∈ m.sourcePublishedAt, t.offset = 0) ∧ ∀ t ∈ m.eventEffectiveAt, t.offset = 0
  ordered : m.observedAt.instant ≤ m.capturedAt.instant

/-- What the adapter relies on in Core. -/
structure Core.Lawful (core : Core F Request Artifact) : Prop where
  canonicalJson : CanonicalJson core.canonicalJson
  /-- The material constructor accepts well-formed arguments and keeps them. -/
  material : ∀ m, m.WellFormed core → core.capturedSourceMaterial m = .ok m

/-- A request that passes the adapter's own request gates, revalidated. -/
structure PassesRequestGates (core : Core F Request Artifact) (adapter : Adapter Artifact)
    (request : Request) (validated : CaptureRequest Artifact) : Prop where
  revalidated : core.revalidate request = .ok validated
  artifact : validated.adapterArtifact = adapter.artifactIdentity
  sourceType : validated.sourceTypeRef = publicProductSourceType
  uri : core.validateExactHttpsUri validated.requestedUri (lit "requested_uri") = .ok ()

/-- The request gates let exactly these requests through. -/
theorem captureGates_eq_ok [DecidableEq Artifact] {core : Core F Request Artifact}
    {adapter : Adapter Artifact} {request : Request} {validated : CaptureRequest Artifact}
    {t : RetrievalRequest} :
    captureGates core adapter request = .ok (validated, t) ↔
      PassesRequestGates core adapter request validated ∧ t = retrievalRequest validated := by
  unfold captureGates
  constructor
  · intro h
    split at h
    · simp at h
    · next v hv =>
      obtain ⟨_, hartifact, h⟩ := bind_eq_ok.mp h
      obtain ⟨_, hsource, h⟩ := bind_eq_ok.mp h
      obtain ⟨_, huri, h⟩ := bind_eq_ok.mp h
      obtain ⟨rfl, rfl⟩ : v = validated ∧ retrievalRequest v = t := by simpa using h
      exact ⟨⟨hv, by simpa using hartifact, by simpa using hsource, huri⟩, rfl⟩
  · rintro ⟨hgates, rfl⟩
    simp [hgates.revalidated, hgates.artifact, hgates.sourceType, hgates.uri, raiseUnless]

/-- The type and scope checks ask for these values. -/
theorem checkRetrievalResult_eq_ok {validated : CaptureRequest Artifact}
    {result : RetrievalResult} {body : Str} (hbody : result.responseBody = .str body) :
    checkRetrievalResult validated result = .ok () ↔
      result.sourceTypeRef = .str validated.sourceTypeRef ∧
      result.requestedUri = .str validated.requestedUri ∧
      result.effectiveUri = .str validated.requestedUri ∧
      result.statusCode = .int 200 ∧ result.mediaType = .str (lit "application/json") ∧
      result.locator = .str publicProductLocator ∧ result.redirectChain = .tuple [] ∧
      result.credentialsUsed = .bool false ∧
      result.dnsRebindingProtectionApplied = .bool true := by
  simp only [checkRetrievalResult, bind_eq_ok, raiseUnless_eq_ok, Bool.and_eq_true,
    Obj.isEmptyTuple_iff, Obj.isBool_iff, Obj.eqStr_iff, Obj.eqInt_iff, exists_const]
  constructor
  · rintro ⟨-, -, hchain, hcredentials, hdns, ⟨⟨hsource, huri⟩, heffective⟩, hlocator, hstatus,
      hmedia⟩
    exact ⟨hsource, huri, heffective, hstatus, hmedia, hlocator, hchain, hcredentials, hdns⟩
  · rintro ⟨hsource, huri, heffective, hstatus, hmedia, hlocator, hchain, hcredentials, hdns⟩
    simp [hsource, huri, heffective, hstatus, hmedia, hlocator, hchain, hcredentials, hdns, hbody,
      Obj.isStr, Obj.isInt]

/-- The payload function accepts only strings. -/
theorem exists_body [PyFloat F] {limits : Limits} {canonicalJson : Data F → Str}
    {responseBody : Obj} {n : ℤ} {c : Str}
    (h : canonicalProductPayload limits canonicalJson responseBody n = .ok c) :
    ∃ body, responseBody = .str body := by
  cases responseBody with
  | str body => exact ⟨body, rfl⟩
  | _ => simp [canonicalProductPayload] at h

/-- Sorted normal forms of literals are distinct public addresses, 1 to 32 of them. -/
theorem Normalised.sorted {core : Core F Request Artifact} {name : Str} {values : Obj}
    {ns : List Str} (h : Normalised core name values ns) :
    (1 ≤ (ns.insertionSort (· ≤ ·)).length ∧ (ns.insertionSort (· ≤ ·)).length ≤ 32) ∧
      (ns.insertionSort (· ≤ ·)).Nodup ∧ ∀ a ∈ ns.insertionSort (· ≤ ·), ∃ literal,
        core.validatePublicIpLiteral literal name = .ok a := by
  obtain ⟨literals, -, hmin, hmax, hall, hnodup⟩ := h
  have hperm := List.perm_insertionSort (· ≤ ·) ns
  rw [List.length_insertionSort, ← hall.length_eq]
  refine ⟨⟨hmin, hmax⟩, hperm.nodup_iff.mpr hnodup, fun a ha => ?_⟩
  have hmem := hperm.mem_iff.mp ha
  clear hperm ha hmin hmax hnodup
  induction hall with
  | nil => simp at hmem
  | cons hl _ ih =>
    rcases List.mem_cons.mp hmem with rfl | hmem
    · exact ⟨_, hl⟩
    · exact ih hmem

/-- Encodable payloads have a digest. -/
theorem payloadDigest_isOk (core : Core F Request Artifact) {payloadJson : Str}
    (h : payloadJson.Encodable) :
    ∃ digest, payloadDigest core payloadJson = .ok digest := by
  obtain ⟨data, hdata⟩ := Option.isSome_iff_exists.mp (Str.encode_isSome.mpr h)
  exact ⟨lit "sha256:" ++ core.sha256Hexdigest data, by simp [payloadDigest, hdata]⟩

section Capture

variable [PyFloat F] {core : Core F Request Artifact} {validated : CaptureRequest Artifact}
  {result : RetrievalResult}

/-- The checks of `capture` on a retrieval result, one condition for each step. -/
theorem captureResult_eq_ok {m : CapturedSourceMaterial} :
    captureResult core validated (retrievalRequest validated) (.result result) = .ok m ↔
      ∃ resolved observedAt capturedAt sourcePublishedAt eventEffectiveAt payloadJson digest,
        checkRetrievalResult validated result = .ok () ∧
        validatedAddresses core result.resolvedIpAddresses (lit "resolved_ip_addresses") =
          .ok resolved ∧
        validatedAddresses core result.connectedIpAddresses (lit "connected_ip_addresses") =
          .ok resolved ∧
        awareUtc result.observedAt (lit "observed_at") = .ok observedAt ∧
        awareUtc result.capturedAt (lit "captured_at") = .ok capturedAt ∧
        optionalAwareUtc result.sourcePublishedAt (lit "source_published_at") =
          .ok sourcePublishedAt ∧
        optionalAwareUtc result.eventEffectiveAt (lit "event_effective_at") =
          .ok eventEffectiveAt ∧
        (validated.startedAt.instant ≤ observedAt.instant ∧
          observedAt.instant ≤ capturedAt.instant) ∧
        canonicalProductPayload core.limits core.canonicalJson result.responseBody
          (min validated.maxPayloadChars maxResponseBodyChars) = .ok payloadJson ∧
        payloadDigest core payloadJson = .ok digest ∧
        core.capturedSourceMaterial (materialFields validated resolved payloadJson digest
          sourcePublishedAt eventEffectiveAt observedAt capturedAt) = .ok m := by
  have hordered (o c : AwareDatetime) :
      (!(o.lt validated.startedAt || c.lt o)) = true ↔
        validated.startedAt.instant ≤ o.instant ∧ o.instant ≤ c.instant := by
    simp [AwareDatetime.lt]
  simp only [captureResult, bind_eq_ok, raiseUnless_eq_ok, hordered, decide_eq_true_eq]
  constructor
  · rintro ⟨_, hcheck, resolved, hresolved, connected, hconnected, _, rfl, o, ho, c, hc, sp, hsp,
      ee, hee, _, htimes, payloadJson, hpayload, digest, hdigest, hm⟩
    exact ⟨connected, o, c, sp, ee, payloadJson, digest, hcheck, hresolved, hconnected, ho, hc,
      hsp, hee, htimes, hpayload, hdigest, hm⟩
  · rintro ⟨resolved, o, c, sp, ee, payloadJson, digest, hcheck, hresolved, hconnected, ho, hc,
      hsp, hee, htimes, hpayload, hdigest, hm⟩
    exact ⟨(), hcheck, resolved, hresolved, resolved, hconnected, (), rfl, o, ho, c, hc, sp, hsp,
      ee, hee, (), htimes, payloadJson, hpayload, digest, hdigest, hm⟩

/-- The arguments of the constructor are well formed. -/
theorem materialFields_wellFormed (validated : CaptureRequest Artifact) {resolved : List Str}
    {values observed captured published effective : Obj} {responseBody : Obj} {n : ℤ}
    {name₁ name₂ name₃ name₄ payloadJson digest : Str}
    {observedAt capturedAt : AwareDatetime}
    {sourcePublishedAt eventEffectiveAt : Option AwareDatetime}
    (hlaw : CanonicalJson core.canonicalJson)
    (huri : core.validateExactHttpsUri validated.requestedUri (lit "requested_uri") = .ok ())
    (hresolved : validatedAddresses core values (lit "resolved_ip_addresses") = .ok resolved)
    (ho : awareUtc observed name₁ = .ok observedAt) (hc : awareUtc captured name₂ = .ok capturedAt)
    (hsp : optionalAwareUtc published name₃ = .ok sourcePublishedAt)
    (hee : optionalAwareUtc effective name₄ = .ok eventEffectiveAt)
    (htimes : observedAt.instant ≤ capturedAt.instant)
    (hpayload : canonicalProductPayload core.limits core.canonicalJson responseBody n =
      .ok payloadJson)
    (hdigest : payloadDigest core payloadJson = .ok digest) :
    (materialFields validated resolved payloadJson digest sourcePublishedAt eventEffectiveAt
      observedAt capturedAt).WellFormed core := by
  obtain ⟨ns, hns, rfl⟩ := validatedAddresses_eq_ok.mp hresolved
  obtain ⟨body, rfl⟩ := exists_body hpayload
  obtain ⟨-, -, p, -, rfl⟩ := canonicalProductPayload_eq_ok.mp hpayload
  have hutc {value : Obj} {name : Str} {u : AwareDatetime} (h : awareUtc value name = .ok u) :
      u.offset = 0 := by
    obtain ⟨t, -, ht⟩ := awareUtc_eq_ok.mp h
    exact (AwareDatetime.astimezoneUtc_spec ht).2
  have hoptional {value : Obj} {name : Str} {u : Option AwareDatetime}
      (h : optionalAwareUtc value name = .ok u) : ∀ t ∈ u, t.offset = 0 := by
    rcases optionalAwareUtc_eq_ok.mp h with ⟨-, rfl⟩ | ⟨t, v, -, ht, rfl⟩
    · simp
    · simpa using (AwareDatetime.astimezoneUtc_spec ht).2
  exact {
    requestedUri := huri
    effectiveUri := rfl
    redirectChain := rfl
    addresses_length := hns.sorted.1
    addresses_nodup := hns.sorted.2.1
    addresses_public := hns.sorted.2.2
    dnsRebindingProtectionApplied := rfl
    payload := ⟨p, hlaw.denotes p⟩
    digest := hdigest
    locator := rfl
    utc := ⟨hutc ho, hutc hc, hoptional hsp, hoptional hee⟩
    ordered := htimes }

/-- Material is built from a retrieval result exactly if the result attests the
capture with times that have a UTC form. -/
theorem captureResult_isOk_iff (hlaw : core.Lawful)
    (huri : core.validateExactHttpsUri validated.requestedUri (lit "requested_uri") = .ok ()) :
    (∃ m, captureResult core validated (retrievalRequest validated) (.result result) = .ok m) ↔
      Attested core AwareDatetime.InUtcRange validated result := by
  simp only [captureResult_eq_ok]
  constructor
  · rintro ⟨m, resolved, o, c, sp, ee, payloadJson, digest, hcheck, hresolved, hconnected, ho, hc,
      hsp, hee, htimes, hpayload, -, -⟩
    obtain ⟨body, hbody⟩ := exists_body hpayload
    obtain ⟨hsource, huri, heffective, hstatus, hmedia, hlocator, hchain, hcredentials, hdns⟩ :=
      (checkRetrievalResult_eq_ok hbody).mp hcheck
    obtain ⟨ns, hns, hsorted⟩ := validatedAddresses_eq_ok.mp hresolved
    obtain ⟨ms, hms, hsorted'⟩ := validatedAddresses_eq_ok.mp hconnected
    have hsame := (insertionSort_eq_iff hms.choose_spec.2.2.2.2 hns.choose_spec.2.2.2.2).mp
      (hsorted'.symm.trans hsorted)
    obtain ⟨observed, hobserved, hou⟩ := awareUtc_eq_ok.mp ho
    obtain ⟨captured, hcaptured, hcu⟩ := awareUtc_eq_ok.mp hc
    have hrange {t u : AwareDatetime} (h : t.astimezoneUtc = some u) : t.InUtcRange :=
      AwareDatetime.astimezoneUtc_isSome.mp (by simp [h])
    rw [(AwareDatetime.astimezoneUtc_spec hou).1, (AwareDatetime.astimezoneUtc_spec hcu).1]
      at htimes
    exact ⟨hsource, huri, heffective, hstatus, hmedia, hlocator, hchain, hcredentials, hdns,
      ⟨ns, ms, hns, hms, hsame⟩,
      ⟨observed, captured, hobserved, hrange hou, hcaptured, hrange hcu, htimes⟩,
      (optionalTime_iff _).mpr ⟨sp, hsp⟩, (optionalTime_iff _).mpr ⟨ee, hee⟩, payloadJson, hpayload⟩
  · intro h
    obtain ⟨payloadJson, hpayload⟩ := h.body
    obtain ⟨body, hbody⟩ := exists_body hpayload
    have hcheck := (checkRetrievalResult_eq_ok hbody).mpr ⟨h.sourceTypeRef, h.requestedUri,
      h.effectiveUri, h.statusCode, h.mediaType, h.locator, h.redirectChain, h.credentialsUsed,
      h.dnsRebindingProtectionApplied⟩
    obtain ⟨ns, ms, hns, hms, hsame⟩ := h.addresses
    have hsorted := (insertionSort_eq_iff hms.choose_spec.2.2.2.2 hns.choose_spec.2.2.2.2).mpr hsame
    have hresolved := validatedAddresses_eq_ok.mpr ⟨ns, hns, rfl⟩
    have hconnected := validatedAddresses_eq_ok.mpr ⟨ms, hms, hsorted.symm⟩
    obtain ⟨observed, captured, hobserved, hro, hcaptured, hrc, hstart, hend⟩ := h.times
    obtain ⟨o, ho⟩ := Option.isSome_iff_exists.mp (AwareDatetime.astimezoneUtc_isSome.mpr hro)
    obtain ⟨c, hc⟩ := Option.isSome_iff_exists.mp (AwareDatetime.astimezoneUtc_isSome.mpr hrc)
    have hutcO : awareUtc result.observedAt (lit "observed_at") = .ok o :=
      awareUtc_eq_ok.mpr ⟨observed, hobserved, ho⟩
    have hutcC : awareUtc result.capturedAt (lit "captured_at") = .ok c :=
      awareUtc_eq_ok.mpr ⟨captured, hcaptured, hc⟩
    rw [← (AwareDatetime.astimezoneUtc_spec ho).1] at hstart hend
    rw [← (AwareDatetime.astimezoneUtc_spec hc).1] at hend
    obtain ⟨sp, hsp⟩ := (optionalTime_iff (lit "source_published_at")).mp h.sourcePublishedAt
    obtain ⟨ee, hee⟩ := (optionalTime_iff (lit "event_effective_at")).mp h.eventEffectiveAt
    have hencodable : payloadJson.Encodable := by
      rw [hbody] at hpayload
      obtain ⟨-, -, p, -, rfl⟩ := canonicalProductPayload_eq_ok.mp hpayload
      exact (hlaw.canonicalJson.denotes p).encodable
    obtain ⟨digest, hdigest⟩ := payloadDigest_isOk core hencodable
    have hwell := materialFields_wellFormed validated hlaw.canonicalJson huri
      hresolved hutcO hutcC hsp hee hend hpayload hdigest
    exact ⟨_, _, o, c, sp, ee, payloadJson, digest, hcheck, hresolved, hconnected, hutcO, hutcC,
      hsp, hee, ⟨hstart, hend⟩, hpayload, hdigest, hlaw.material _ hwell⟩

/-- A capture whose request passes the gates and whose transport returns a retrieval
result builds material exactly if the result attests the capture with times that have
a UTC form. -/
theorem capture_isOk_iff [DecidableEq Artifact] (hlaw : core.Lawful) {adapter : Adapter Artifact}
    {request : Request} (hgates : PassesRequestGates core adapter request validated)
    {retrieve : RetrievalRequest → Except Exc Retrieved}
    (hretrieve : retrieve (retrievalRequest validated) = .ok (.result result)) :
    (∃ m, (capture core adapter retrieve request).2 = .ok m) ↔
      Attested core AwareDatetime.InUtcRange validated result := by
  have hbegin := captureGates_eq_ok.mpr ⟨hgates, rfl⟩
  simpa [capture, hbegin, hretrieve] using captureResult_isOk_iff hlaw hgates.uri

end Capture

/-! ### A time without a UTC form -/

/-- A hash without collisions that agrees with SHA-256 on the sample text. -/
def sampleHexdigest (data : List UInt8) : Str :=
  if Str.encode sampleCanonical = some data then
    lit "b6cec89416e2f0112843583c9bb1cb66104d3b96ee38c35e8383e9552822670b"
  else ('-' : Chr) :: data.map fun b => chr b.toNat

/-- A concrete Core, with the functions' values at the samples below. -/
def sampleCore : Core Unit (CaptureRequest Unit) Unit where
  limits := sampleLimits
  revalidate := .ok
  validateExactHttpsUri _ _ := .ok ()
  validatePublicIpLiteral value _ := .ok value
  canonicalJson := encode (Layout.compact false) 0
  sha256Hexdigest := sampleHexdigest
  capturedSourceMaterial := .ok

/-- The sample Core does what the adapter relies on. -/
theorem sampleCore_lawful : sampleCore.Lawful where
  canonicalJson := canonicalJson_encode false
  material _ _ := rfl

/-- A request that starts at 2026-08-06T12:00:00Z. -/
def sampleRequest : CaptureRequest Unit where
  requestId := lit "request"
  requestDigest := lit "digest"
  adapterArtifact := ()
  sourceTypeRef := publicProductSourceType
  requestedUri := lit "https://public.example.test/products/edge-x1"
  maxPayloadChars := 4096
  startedAt := ⟨63921614400000000, 0, by decide, AwareDatetime.offset_zero_range⟩

/-- The sample request passes the gates of an adapter of its artifact. -/
theorem sampleRequest_passes : PassesRequestGates sampleCore ⟨(), 0⟩ sampleRequest sampleRequest :=
  ⟨rfl, rfl, rfl, rfl⟩

/-- A retrieval result that is captured at a given time. -/
def sampleResult (capturedAt : AwareDatetime) : RetrievalResult where
  sourceTypeRef := .str publicProductSourceType
  requestedUri := .str sampleRequest.requestedUri
  effectiveUri := .str sampleRequest.requestedUri
  statusCode := .int 200
  mediaType := .str (lit "application/json")
  responseBody := .str sampleBody
  redirectChain := .tuple []
  resolvedIpAddresses := .tuple [.str (lit "1.1.1.1")]
  connectedIpAddresses := .tuple [.str (lit "1.1.1.1")]
  dnsRebindingProtectionApplied := .bool true
  credentialsUsed := .bool false
  locator := .str publicProductLocator
  observedAt := .datetime (.aware Datetime.utcZone sampleRequest.startedAt false)
  capturedAt := .datetime (.aware 1 capturedAt false)
  sourcePublishedAt := .none
  eventEffectiveAt := .none

/-- The sample attests its capture, for every kind of times that its own belong to. -/
theorem sampleResult_attested {representable : AwareDatetime → Prop} {capturedAt : AwareDatetime}
    (hstart : representable sampleRequest.startedAt) (hend : representable capturedAt)
    (hordered : sampleRequest.startedAt.instant ≤ capturedAt.instant) :
    Attested sampleCore representable sampleRequest (sampleResult capturedAt) where
  sourceTypeRef := rfl
  requestedUri := rfl
  effectiveUri := rfl
  statusCode := rfl
  mediaType := rfl
  locator := rfl
  redirectChain := rfl
  credentialsUsed := rfl
  dnsRebindingProtectionApplied := rfl
  addresses := by
    have hone (name : Str) : Normalised sampleCore name (.tuple [.str (lit "1.1.1.1")])
        [lit "1.1.1.1"] :=
      ⟨[lit "1.1.1.1"], rfl, by decide, by decide, .cons rfl .nil, by simp⟩
    exact ⟨_, _, hone _, hone _, fun _ => Iff.rfl⟩
  times := ⟨_, _, ⟨_, _, rfl⟩, hstart, ⟨_, _, rfl⟩, hend, le_rfl, hordered⟩
  sourcePublishedAt := Or.inl rfl
  eventEffectiveAt := Or.inl rfl
  body := ⟨_, sampleBody_accepted⟩

/-- The last second of the year 9999 in a zone one hour behind UTC. -/
def lastSecond : AwareDatetime := ⟨315537897599000000, -3600000000, by decide, by decide⟩

/-- At a time whose instant lies after the year 9999 no material is built, although
everything else about the result is attested. -/
theorem capture_lastSecond :
    PassesRequestGates sampleCore ⟨(), 0⟩ sampleRequest sampleRequest ∧
      Attested sampleCore (fun _ => True) sampleRequest (sampleResult lastSecond) ∧
      ¬∃ m, (capture sampleCore ⟨(), 0⟩ (fun _ => .ok (.result (sampleResult lastSecond)))
        sampleRequest).2 = .ok m := by
  refine ⟨sampleRequest_passes, sampleResult_attested trivial trivial (by decide),
    fun ⟨m, hm⟩ => ?_⟩
  have hbegin := captureGates_eq_ok.mpr ⟨sampleRequest_passes, rfl⟩
  obtain ⟨_, _, _, _, _, _, _, -, -, -, -, hcaptured, -⟩ :=
    captureResult_eq_ok.mp (by simpa only [capture, hbegin, ok_bind] using hm)
  obtain ⟨t, ht, hutc⟩ := awareUtc_eq_ok.mp hcaptured
  obtain rfl : lastSecond = t := by simpa [sampleResult] using ht
  have hnone : lastSecond.astimezoneUtc = none := by decide
  simp [hnone] at hutc

/-- With a time inside the range the sample request is captured. -/
theorem capture_sample :
    ∃ m, (capture sampleCore ⟨(), 0⟩
      (fun _ => .ok (.result (sampleResult sampleRequest.startedAt))) sampleRequest).2 = .ok m :=
  (capture_isOk_iff sampleCore_lawful sampleRequest_passes rfl).mpr
    (sampleResult_attested (by decide) (by decide) le_rfl)

end MarketIntelligence.PublicProduct
