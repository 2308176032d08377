import MarketIntelligence.Json.Length
import MarketIntelligence.PublicProduct.NormalForm

/-!
# The bound on captured payloads

The adapter measures the response body only, but the bound of the host is meant for
the captured payload, which is the canonical text of the body. When Core prints
compactly and escapes nothing but quotes, backslashes and controls, the canonical
text is the shortest text of its product, so the bound carries over.
-/

namespace MarketIntelligence.PublicProduct

open Python Json

variable {F Request Artifact : Type} [PyFloat F]

/-- Core's `canonical_json` on dictionaries of strings: compact, with sorted keys, and
with all characters but quotes, backslashes and controls as they are. -/
def PrintsCompactly (canonicalJson : Data F → Str) : Prop :=
  ∀ ms : List (Str × Str),
    canonicalJson (strDict ms) = encode (Layout.compact false) 0 (strDict (F := F) ms)

/-- A compactly printed dictionary of strings has its compact length. -/
theorem PrintsCompactly.length_eq {canonicalJson : Data F → Str}
    (h : PrintsCompactly canonicalJson) (ms : List (Str × Str)) :
    (canonicalJson (strDict ms)).length = (stringObject ms).compactLength := by
  rw [h ms]
  exact encode_strings_length 0 ms

/-- Every spelling of a product is at least as long as its canonical text. -/
theorem Denotes.length_le {canonicalJson : Data F → Str} (h : PrintsCompactly canonicalJson)
    {body : Str} {p : Product} (hp : Denotes body p) :
    (canonicalJson (strDict p.fields)).length ≤ body.length := by
  obtain ⟨ms, hms, htext⟩ := hp
  have horder : (stringObject ms).compactLength = (stringObject p.fields).compactLength := by
    simp only [stringObject, Tree.compactLength]
    rw [compactMembers_perm (hms.map fun m : Str × Str => (m.1, Tree.string m.2))]
  calc (canonicalJson (strDict p.fields)).length
      = (stringObject p.fields).compactLength := h.length_eq p.fields
    _ = (stringObject ms).compactLength := horder.symm
    _ ≤ body.length := htext.compactLength_le

/-- Material that `capture` returns comes from a request that passed the gates and from
a body that the payload function accepts under the bound of the request. -/
theorem exists_payload_of_capture [DecidableEq Artifact] {core : Core F Request Artifact}
    (hlaw : core.Lawful) {adapter : Adapter Artifact} {request : Request}
    {retrieve : RetrievalRequest → Except Exc Retrieved} {m : CapturedSourceMaterial}
    (h : (capture core adapter retrieve request).2 = .ok m) :
    ∃ validated body, PassesRequestGates core adapter request validated ∧
      canonicalProductPayload core.limits core.canonicalJson (.str body)
        (min validated.maxPayloadChars maxResponseBodyChars) = .ok m.capturedPayloadJson := by
  unfold capture at h
  split at h
  · simp at h
  · next validated t hbegin =>
    obtain ⟨hgates, rfl⟩ := captureGates_eq_ok.mp hbegin
    obtain ⟨retrieved, -, hresult⟩ := bind_eq_ok.mp h
    cases retrieved with
    | other => simp [captureResult] at hresult
    | result result =>
      obtain ⟨resolved, o, c, sp, ee, payloadJson, digest, -, hresolved, -, ho, hc, hsp, hee,
          htimes, hpayload, hdigest, hmaterial⟩ := captureResult_eq_ok.mp hresult
      have hwell := materialFields_wellFormed validated hlaw.canonicalJson hgates.uri
        hresolved ho hc hsp hee htimes.2 hpayload hdigest
      have hfields := Except.ok.inj ((hlaw.material _ hwell).symm.trans hmaterial)
      obtain ⟨body, hbody⟩ := exists_body hpayload
      rw [hbody] at hpayload
      exact ⟨validated, body, hgates, by rw [hpayload, ← hfields]; rfl⟩

/-- Material built from the retrieval result of a request that passed the gates is what
the capture returns. -/
theorem capture_eq_ok [DecidableEq Artifact] {core : Core F Request Artifact}
    {adapter : Adapter Artifact} {request : Request} {validated : CaptureRequest Artifact}
    (hgates : PassesRequestGates core adapter request validated)
    {retrieve : RetrievalRequest → Except Exc Retrieved} {result : RetrievalResult}
    (hretrieve : retrieve (retrievalRequest validated) = .ok (.result result))
    {m : CapturedSourceMaterial}
    (h : captureResult core validated (retrievalRequest validated) (.result result) = .ok m) :
    (capture core adapter retrieve request).2 = .ok m := by
  have hbegin := captureGates_eq_ok.mpr ⟨hgates, rfl⟩
  simpa [capture, hbegin, hretrieve] using h

/-- A canonical payload is no longer than the body it was read from, so a captured
payload respects the bound that the host asked for. -/
theorem canonicalProductPayload_bounded [DecidableEq Artifact] {core : Core F Request Artifact}
    (hlaw : core.Lawful) (hprint : PrintsCompactly core.canonicalJson) :
    (∀ (body : Str) (n : ℤ) (c : Str),
      canonicalProductPayload core.limits core.canonicalJson (.str body) n = .ok c →
      c.length ≤ body.length ∧ (c.length : ℤ) ≤ n) ∧
    ∀ (adapter : Adapter Artifact) (request : Request)
      (retrieve : RetrievalRequest → Except Exc Retrieved) (m : CapturedSourceMaterial),
      (capture core adapter retrieve request).2 = .ok m →
      ∃ validated, core.revalidate request = .ok validated ∧
        (m.capturedPayloadJson.length : ℤ) ≤ min validated.maxPayloadChars 16384 := by
  have hbounded (body : Str) (n : ℤ) (c : Str)
      (h : canonicalProductPayload core.limits core.canonicalJson (.str body) n = .ok c) :
      c.length ≤ body.length ∧ (c.length : ℤ) ≤ n := by
    obtain ⟨-, hbody, p, hp, rfl⟩ := canonicalProductPayload_eq_ok.mp h
    have hle := hp.length_le hprint
    refine ⟨hle, ?_⟩
    omega
  refine ⟨hbounded, fun adapter request retrieve m hm => ?_⟩
  obtain ⟨validated, body, hgates, hpayload⟩ := exists_payload_of_capture hlaw hm
  exact ⟨validated, hgates.revalidated, (hbounded body _ _ hpayload).2⟩

/-- The sample Core prints compactly, and captures the sample within the bound. -/
theorem capture_sample_bounded :
    ∃ m, (capture sampleCore ⟨(), 0⟩
      (fun _ => .ok (.result (sampleResult sampleRequest.startedAt))) sampleRequest).2 = .ok m ∧
      m.capturedPayloadJson.length ≤ (4096 : ℤ) := by
  have hattested : Attested sampleCore AwareDatetime.InUtcRange sampleRequest
      (sampleResult sampleRequest.startedAt) :=
    sampleResult_attested (by decide) (by decide) le_rfl
  obtain ⟨m, hresult⟩ :=
    (captureResult_isOk_iff sampleCore_lawful sampleRequest_passes.uri).mpr hattested
  have hm : (capture sampleCore ⟨(), 0⟩
      (fun _ => .ok (.result (sampleResult sampleRequest.startedAt))) sampleRequest).2 = .ok m :=
    capture_eq_ok sampleRequest_passes rfl hresult
  obtain ⟨validated, hvalidated, hle⟩ :=
    (canonicalProductPayload_bounded sampleCore_lawful fun _ => rfl).2 _ _ _ m hm
  obtain rfl : sampleRequest = validated := Except.ok.inj hvalidated
  refine ⟨m, hm, hle.trans ?_⟩
  decide

end MarketIntelligence.PublicProduct
