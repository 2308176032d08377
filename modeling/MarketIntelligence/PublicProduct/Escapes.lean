import MarketIntelligence.Python.Contained
import MarketIntelligence.PublicProduct.Attestation

/-!
# Exceptions that escape from a capture

After the transport has returned, `capture` translates the failures of decoding, of
address validation and of every type check into its own exception. The conversion of
the four times to UTC is the one operation that is left bare: an aware time whose
instant lies outside the years 1 to 9999 makes it raise an `OverflowError`, and a time
zone that raises when it is asked for its offset makes it raise the same.
-/

namespace MarketIntelligence.PublicProduct

open Python Json

variable {F Request Artifact : Type}

/-- Core's IP validator raises `ValueError` and nothing else. -/
def Core.AddressesRaiseValueError (core : Core F Request Artifact) : Prop :=
  ∀ value name e, core.validatePublicIpLiteral value name = .error e →
    ∃ b : BuiltinError, e = .builtin b ∧ b.caughtBy .valueError = true

/-- The type, scope and address checks pass, so that the times are converted. -/
def ReachesTimes (core : Core F Request Artifact) (validated : CaptureRequest Artifact)
    (result : RetrievalResult) : Prop :=
  checkRetrievalResult validated result = .ok () ∧ ∃ resolved connected,
    Normalised core (lit "resolved_ip_addresses") result.resolvedIpAddresses resolved ∧
    Normalised core (lit "connected_ip_addresses") result.connectedIpAddresses connected ∧
    ∀ a, a ∈ connected ↔ a ∈ resolved

/-- A time whose time zone raises, or an aware time that has no UTC form. -/
def Overflows (value : Obj) : Prop :=
  (∃ zone wall e, value = .datetime (.raising zone wall e)) ∨ ∃ t, value.IsAware t ∧ ¬t.InUtcRange

/-- An aware time that has a UTC form. -/
def Converts (value : Obj) : Prop := ∃ t, value.IsAware t ∧ t.InUtcRange

/-- In the order in which the times are converted, the first one that is not converted
has a time zone that raises, or is an aware time. -/
def FirstOverflows (result : RetrievalResult) : Prop :=
  Overflows result.observedAt ∨ Converts result.observedAt ∧
    (Overflows result.capturedAt ∨ Converts result.capturedAt ∧
      (Overflows result.sourcePublishedAt ∨
        OptionalTime AwareDatetime.InUtcRange result.sourcePublishedAt ∧
          Overflows result.eventEffectiveAt))

/-! ### The single steps -/

/-- A message of the adapter. -/
theorem contained_fail {α : Type} (message : Str) :
    Contained (.error (fail message) : Except Exc α) :=
  contained_own _

/-- The type and scope checks. -/
theorem contained_checkRetrievalResult (validated : CaptureRequest Artifact)
    (result : RetrievalResult) : Contained (checkRetrievalResult validated result) := by
  have hgate (condition : Bool) (message : Str) :
      Contained (raiseUnless condition (fail message)) := contained_raiseUnless _
  unfold checkRetrievalResult
  repeat' refine contained_bind.mpr ⟨hgate _ _, fun _ _ => ?_⟩
  exact hgate _ _

/-- Normalising addresses raises what the IP validator raises. -/
theorem normalizedAddresses_error {core : Core F Request Artifact}
    (hip : core.AddressesRaiseValueError) {name : Str} {values : List Obj} {e : Exc}
    (h : normalizedAddresses core name values = .error e) :
    ∃ b : BuiltinError, e = .builtin b ∧ b.caughtBy .valueError = true := by
  fun_induction normalizedAddresses core name values with
  | case1 => cases h
  | case2 value values ih =>
    obtain h | ⟨_, -, h⟩ := bind_eq_error.mp h
    · exact hip _ _ _ h
    · obtain h | ⟨_, -, h⟩ := bind_eq_error.mp h
      · exact ih h
      · cases h
  | case3 _ _ _ ih => exact ih h

/-- Address validation. -/
theorem contained_validatedAddresses {core : Core F Request Artifact}
    (hip : core.AddressesRaiseValueError) (values : Obj) (name : Str) :
    Contained (validatedAddresses core values name) := by
  cases values with
  | tuple values =>
    unfold validatedAddresses
    refine contained_ite ?_ (contained_fail _)
    split
    · next e he =>
      obtain ⟨b, rfl, hb⟩ := normalizedAddresses_error hip he
      simp only [handleAddressError, hb, if_true]
      exact contained_fail _
    · exact contained_bind.mpr ⟨contained_raiseUnless _, fun _ _ => contained_ok _⟩
  | _ => exact contained_fail _

/-- A required time fails with another exception exactly if it overflows. -/
theorem contained_awareUtc {value : Obj} {name : Str} :
    Contained (awareUtc value name) ↔ ¬Overflows value := by
  cases value with
  | datetime d =>
    cases d with
    | aware zone t folds =>
      simp only [awareUtc, Overflows, Obj.datetime.injEq, reduceCtorEq, exists_false, false_or,
        Obj.isAware_aware, exists_eq_left', not_not, ← AwareDatetime.astimezoneUtc_isSome]
      cases t.astimezoneUtc <;> simp
    | raising zone wall e => simp [awareUtc, Overflows]
    | _ => simp [awareUtc, Overflows, Obj.IsAware, contained_fail]
  | _ => simp [awareUtc, Overflows, Obj.IsAware, contained_fail]

/-- So does an optional one. -/
theorem contained_optionalAwareUtc {value : Obj} {name : Str} :
    Contained (optionalAwareUtc value name) ↔ ¬Overflows value := by
  unfold optionalAwareUtc
  split
  · simp [Overflows, Obj.IsAware]
  · simp [contained_bind, contained_awareUtc]

/-- A required time is converted exactly if it is in range. -/
theorem converts_iff {value : Obj} (name : Str) :
    Converts value ↔ ∃ u, awareUtc value name = .ok u := by
  simp only [Converts, awareUtc_eq_ok, ← AwareDatetime.astimezoneUtc_isSome,
    Option.isSome_iff_exists]
  constructor
  · rintro ⟨t, haware, u, hu⟩
    exact ⟨u, t, haware, hu⟩
  · rintro ⟨u, t, haware, hu⟩
    exact ⟨t, haware, u, hu⟩

/-- A conversion that escapes on one condition and returns on another one, before a rest
that escapes on a third one. -/
theorem contained_conversion {α β : Type} {x : Except Exc α} {f : α → Except Exc β}
    {overflows converts later : Prop} (hx : Contained x ↔ ¬overflows)
    (hconverts : converts ↔ ∃ a, x = .ok a) (hf : ∀ a, x = .ok a → (Contained (f a) ↔ ¬later)) :
    Contained (x >>= f) ↔ ¬(overflows ∨ converts ∧ later) := by
  rw [contained_bind, hx, not_or, not_and]
  refine and_congr_right fun _ => ?_
  constructor
  · intro h hconverted
    obtain ⟨a, ha⟩ := hconverts.mp hconverted
    exact (hf a ha).mp (h a ha)
  · intro h a ha
    exact (hf a ha).mpr (h (hconverts.mpr ⟨a, ha⟩))

/-- The conversion of the four times, before a contained rest. -/
theorem contained_times {α : Type} {result : RetrievalResult}
    {rest : AwareDatetime → AwareDatetime → Option AwareDatetime → Option AwareDatetime →
      Except Exc α}
    (hrest : ∀ o c sp ee, awareUtc result.observedAt (lit "observed_at") = .ok o →
      awareUtc result.capturedAt (lit "captured_at") = .ok c →
      optionalAwareUtc result.sourcePublishedAt (lit "source_published_at") = .ok sp →
      optionalAwareUtc result.eventEffectiveAt (lit "event_effective_at") = .ok ee →
      Contained (rest o c sp ee)) :
    Contained (do
      let o ← awareUtc result.observedAt (lit "observed_at")
      let c ← awareUtc result.capturedAt (lit "captured_at")
      let sp ← optionalAwareUtc result.sourcePublishedAt (lit "source_published_at")
      let ee ← optionalAwareUtc result.eventEffectiveAt (lit "event_effective_at")
      rest o c sp ee) ↔ ¬FirstOverflows result := by
  refine contained_conversion contained_awareUtc (converts_iff _) fun o ho => ?_
  refine contained_conversion contained_awareUtc (converts_iff _) fun c hc => ?_
  refine contained_conversion contained_optionalAwareUtc (optionalTime_iff _) fun sp hsp => ?_
  rw [contained_bind, contained_optionalAwareUtc]
  exact and_iff_left fun ee hee => hrest o c sp ee ho hc hsp hee

section Capture

variable [PyFloat F] {core : Core F Request Artifact} {validated : CaptureRequest Artifact}
  {result : RetrievalResult}

/-- After the conversion of the times nothing but the adapter's exception escapes. -/
theorem contained_payload (hlaw : core.Lawful)
    (huri : core.validateExactHttpsUri validated.requestedUri (lit "requested_uri") = .ok ())
    {values observed captured published effective : Obj} {name₁ name₂ name₃ name₄ : Str}
    {resolved : List Str} {o c : AwareDatetime} {sp ee : Option AwareDatetime}
    (hresolved : validatedAddresses core values (lit "resolved_ip_addresses") = .ok resolved)
    (ho : awareUtc observed name₁ = .ok o) (hc : awareUtc captured name₂ = .ok c)
    (hsp : optionalAwareUtc published name₃ = .ok sp)
    (hee : optionalAwareUtc effective name₄ = .ok ee) (n : ℤ) :
    Contained (do
      raiseUnless (!(o.lt validated.startedAt || c.lt o))
        (fail (lit "retrieval observation/capture times fall outside the exact operation"))
      let payloadJson ← canonicalProductPayload core.limits core.canonicalJson
        result.responseBody n
      let digest ← payloadDigest core payloadJson
      core.capturedSourceMaterial (materialFields validated resolved payloadJson digest
        sp ee o c)) := by
  refine contained_bind.mpr ⟨contained_raiseUnless _, fun _ htimes => ?_⟩
  have hordered : o.instant ≤ c.instant := by
    have hboth : validated.startedAt.instant ≤ o.instant ∧ o.instant ≤ c.instant := by
      simpa [AwareDatetime.lt] using htimes
    exact hboth.2
  refine contained_bind.mpr ⟨fun e he => canonicalProductPayload_error he,
    fun payloadJson hpayload => ?_⟩
  have hencodable : payloadJson.Encodable := by
    obtain ⟨body, hbody⟩ := exists_body hpayload
    rw [hbody] at hpayload
    obtain ⟨-, -, p, -, rfl⟩ := canonicalProductPayload_eq_ok.mp hpayload
    exact (hlaw.canonicalJson.denotes p).encodable
  obtain ⟨digest, hdigest⟩ := payloadDigest_isOk core hencodable
  rw [contained_bind_of_ok hdigest, hlaw.material _ (materialFields_wellFormed validated
    hlaw.canonicalJson huri hresolved ho hc hsp hee hordered hpayload hdigest)]
  exact contained_ok _

/-- The checks on a result raise another exception exactly if they reach the times and
the first one that is not converted overflows. -/
theorem contained_captureResult (hlaw : core.Lawful) (hip : core.AddressesRaiseValueError)
    (huri : core.validateExactHttpsUri validated.requestedUri (lit "requested_uri") = .ok ()) :
    Contained (captureResult core validated (retrievalRequest validated) (.result result)) ↔
      ¬(ReachesTimes core validated result ∧ FirstOverflows result) := by
  constructor
  · rintro h ⟨⟨hcheck, ns, ms, hns, hms, hsame⟩, hover⟩
    have hsorted := (insertionSort_eq_iff hms.choose_spec.2.2.2.2 hns.choose_spec.2.2.2.2).mpr hsame
    have hresolved := validatedAddresses_eq_ok.mpr ⟨ns, hns, rfl⟩
    have hconnected := validatedAddresses_eq_ok.mpr ⟨ms, hms, hsorted.symm⟩
    rw [captureResult, contained_bind_of_ok hcheck, contained_bind_of_ok hresolved,
      contained_bind_of_ok hconnected, contained_bind_of_ok (a := ()) (by simp),
      contained_times fun o c sp ee ho hc hsp hee =>
        contained_payload hlaw huri hresolved ho hc hsp hee _] at h
    exact h hover
  · intro hnot
    refine contained_bind.mpr ⟨contained_checkRetrievalResult _ _, fun _ hcheck => ?_⟩
    refine contained_bind.mpr ⟨contained_validatedAddresses hip _ _, fun resolved hresolved => ?_⟩
    refine contained_bind.mpr ⟨contained_validatedAddresses hip _ _, fun connected hconnected => ?_⟩
    refine contained_bind.mpr ⟨contained_raiseUnless _, fun _ heq => ?_⟩
    obtain rfl : connected = resolved := by simpa using heq
    refine (contained_times fun o c sp ee ho hc hsp hee =>
      contained_payload hlaw huri hresolved ho hc hsp hee _).mpr fun hover => hnot ⟨?_, hover⟩
    obtain ⟨ns, hns, hsorted⟩ := validatedAddresses_eq_ok.mp hresolved
    obtain ⟨ms, hms, hsorted'⟩ := validatedAddresses_eq_ok.mp hconnected
    exact ⟨hcheck, ns, ms, hns, hms,
      (insertionSort_eq_iff hms.choose_spec.2.2.2.2 hns.choose_spec.2.2.2.2).mp
        (hsorted'.symm.trans hsorted)⟩

/-- A capture whose request passes the gates and whose transport returns a retrieval
result returns material or raises the adapter's own exception, unless all checks before
the times pass and the first time that is not converted is an aware one, or one whose
time zone raises. -/
theorem capture_contained_iff [DecidableEq Artifact] (hlaw : core.Lawful)
    (hip : core.AddressesRaiseValueError) {adapter : Adapter Artifact} {request : Request}
    (hgates : PassesRequestGates core adapter request validated)
    {retrieve : RetrievalRequest → Except Exc Retrieved}
    (hretrieve : retrieve (retrievalRequest validated) = .ok (.result result)) :
    ((∃ m, (capture core adapter retrieve request).2 = .ok m) ∨
      ∃ a, (capture core adapter retrieve request).2 = .error (.own a)) ↔
      ¬(ReachesTimes core validated result ∧ FirstOverflows result) := by
  have hbegin := captureGates_eq_ok.mpr ⟨hgates, rfl⟩
  have hcapture : (capture core adapter retrieve request).2 =
      captureResult core validated (retrievalRequest validated) (.result result) := by
    simp only [capture, hbegin, hretrieve, ok_bind]
  rw [hcapture, ← contained_captureResult hlaw hip hgates.uri]
  cases captureResult core validated (retrievalRequest validated) (.result result) with
  | ok m => simp
  | error e => simp [Contained]

end Capture

/-- The sample Core raises nothing at all on addresses. -/
theorem sampleCore_addresses : sampleCore.AddressesRaiseValueError := by
  intro value name e he
  cases he

/-- At a time whose instant lies after the year 9999 neither material nor the adapter's
own exception comes out of the capture. -/
theorem capture_lastSecond_escapes :
    ¬((∃ m, (capture sampleCore ⟨(), 0⟩ (fun _ => .ok (.result (sampleResult lastSecond)))
        sampleRequest).2 = .ok m) ∨
      ∃ a, (capture sampleCore ⟨(), 0⟩ (fun _ => .ok (.result (sampleResult lastSecond)))
        sampleRequest).2 = .error (.own a)) := by
  have hoverflow : (capture sampleCore ⟨(), 0⟩
      (fun _ => .ok (.result (sampleResult lastSecond))) sampleRequest).2 =
        .error (.builtin .overflowError) := rfl
  simp [hoverflow]

/-- So does a time zone that raises. -/
example : (capture sampleCore ⟨(), 0⟩ (fun _ => .ok (.result { sampleResult lastSecond with
    capturedAt := .datetime (.raising 1 0 .notImplementedError) })) sampleRequest).2 =
      .error (.builtin .notImplementedError) := rfl

/-- The sample with times in range is captured or refused. -/
theorem capture_sample_contained :
    (∃ m, (capture sampleCore ⟨(), 0⟩
        (fun _ => .ok (.result (sampleResult sampleRequest.startedAt))) sampleRequest).2 = .ok m) ∨
      ∃ a, (capture sampleCore ⟨(), 0⟩
        (fun _ => .ok (.result (sampleResult sampleRequest.startedAt))) sampleRequest).2 =
          .error (.own a) := by
  refine (capture_contained_iff sampleCore_lawful sampleCore_addresses sampleRequest_passes
    rfl).mpr ?_
  rintro ⟨-, hover⟩
  have hin (zone : ℕ) : ¬Overflows (.datetime (.aware zone sampleRequest.startedAt false)) := by
    rintro (⟨_, _, _, hraising⟩ | ⟨t, ht, hout⟩)
    · cases hraising
    · obtain rfl := Obj.isAware_aware.mp ht
      exact hout (by decide)
  have hnone : ¬Overflows .none := by simp [Overflows, Obj.IsAware]
  obtain hover | ⟨-, hover | ⟨-, hover | ⟨-, hover⟩⟩⟩ := hover
  · exact hin _ hover
  · exact hin _ hover
  · exact hnone hover
  · exact hnone hover

end MarketIntelligence.PublicProduct
