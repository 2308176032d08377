import MarketIntelligence.PublicProduct.Acceptance

/-!
# Capturing public-product material

`PublicProductSourceAdapter.capture` revalidates a request, hands one bounded
retrieval to the injected transport, and checks the result field by field before
it builds material from it. What the adapter imports from Core is a parameter,
together with SHA-256 and the limits of the interpreter. The main result
characterises the results from which material is built.
-/

namespace MarketIntelligence.PublicProduct

open Python Json

/-- `PUBLIC_PRODUCT_SOURCE_TYPE`. -/
def publicProductSourceType : Str := lit "public_product_page"

/-- `PUBLIC_PRODUCT_LOCATOR`. -/
def publicProductLocator : Str := lit "json-pointer:/listed_price"

/-- The fields of a revalidated `SourceAdapterCaptureRequestV1Alpha1` that the
adapter reads. Core's contract makes the start an aware datetime. -/
structure CaptureRequest (Artifact : Type) where
  requestId : Str
  requestDigest : Str
  adapterArtifact : Artifact
  sourceTypeRef : Str
  requestedUri : Str
  maxPayloadChars : ℤ
  startedAt : AwareDatetime

/-- `PublicProductRetrievalRequest`. -/
structure RetrievalRequest where
  sourceTypeRef : Str
  requestedUri : Str
  maxResponseChars : ℤ
  credentialsAllowed : Bool := false
  redirectsAllowed : Bool := false
  publicNetworkOnly : Bool := true
  dnsRebindingProtectionRequired : Bool := true

/-- The request to the transport for a revalidated capture request. -/
def retrievalRequest {Artifact : Type} (validated : CaptureRequest Artifact) :
    RetrievalRequest where
  sourceTypeRef := validated.sourceTypeRef
  requestedUri := validated.requestedUri
  maxResponseChars := min validated.maxPayloadChars maxResponseBodyChars

/-- `PublicProductRetrievalResult`, with fields of arbitrary types. -/
structure RetrievalResult where
  sourceTypeRef : Obj
  requestedUri : Obj
  effectiveUri : Obj
  statusCode : Obj
  mediaType : Obj
  responseBody : Obj
  redirectChain : Obj
  resolvedIpAddresses : Obj
  connectedIpAddresses : Obj
  dnsRebindingProtectionApplied : Obj
  credentialsUsed : Obj
  locator : Obj
  observedAt : Obj
  capturedAt : Obj
  sourcePublishedAt : Obj
  eventEffectiveAt : Obj

/-- What a transport can return: a retrieval result or any other object. -/
inductive Retrieved
  | result (r : RetrievalResult)
  | other

/-- The arguments of `CapturedSourceMaterialV1Alpha1`. -/
structure CapturedSourceMaterial where
  captureRequestRef : Str
  captureRequestDigest : Str
  sourceTypeRef : Str
  requestedUri : Str
  effectiveUri : Str
  redirectChain : List Str
  resolvedIpAddresses : List Str
  dnsRebindingProtectionApplied : Bool
  capturedPayloadJson : Str
  capturedPayloadDigest : Str
  locator : Str
  sourcePublishedAt : Option AwareDatetime
  eventEffectiveAt : Option AwareDatetime
  observedAt : AwareDatetime
  capturedAt : AwareDatetime

/-- The fields that `capture` hands to the material constructor. -/
def materialFields {Artifact : Type} (validated : CaptureRequest Artifact) (resolved : List Str)
    (payloadJson digest : Str) (sourcePublishedAt eventEffectiveAt : Option AwareDatetime)
    (observedAt capturedAt : AwareDatetime) : CapturedSourceMaterial where
  captureRequestRef := validated.requestId
  captureRequestDigest := validated.requestDigest
  sourceTypeRef := validated.sourceTypeRef
  requestedUri := validated.requestedUri
  -- the scope check has identified the effective URI with the requested one
  effectiveUri := validated.requestedUri
  redirectChain := []
  resolvedIpAddresses := resolved
  dnsRebindingProtectionApplied := true
  capturedPayloadJson := payloadJson
  capturedPayloadDigest := digest
  locator := publicProductLocator
  sourcePublishedAt := sourcePublishedAt
  eventEffectiveAt := eventEffectiveAt
  observedAt := observedAt
  capturedAt := capturedAt

/-- What the adapter calls outside this repository. -/
structure Core (F Request Artifact : Type) where
  limits : Limits
  /-- `SourceAdapterCaptureRequestV1Alpha1.model_validate` on the request's dump. -/
  revalidate : Request → Except Exc (CaptureRequest Artifact)
  validateExactHttpsUri : Str → Str → Except Exc Unit
  validatePublicIpLiteral : Str → Str → Except Exc Str
  canonicalJson : Data F → Str
  /-- `hashlib.sha256(data).hexdigest()`. -/
  sha256Hexdigest : List UInt8 → Str
  /-- The validating constructor of captured material. -/
  capturedSourceMaterial : CapturedSourceMaterial → Except Exc CapturedSourceMaterial

/-- The state of an adapter instance. -/
structure Adapter (Artifact : Type) where
  artifactIdentity : Artifact
  captureCalls : ℕ := 0

/-- `_aware_utc`. -/
def awareUtc (value : Obj) (name : Str) : Except Exc AwareDatetime :=
  match value with
  | .datetime (.aware _ t _) =>
      match t.astimezoneUtc with
      | some u => .ok u
      | none => .error (.builtin .overflowError)
  | .datetime (.raising _ _ e) => .error (.builtin e)
  | _ => .error (fail (name ++ lit " must be a timezone-aware datetime"))

/-- `None if value is None else _aware_utc(value)`. -/
def optionalAwareUtc (value : Obj) (name : Str) : Except Exc (Option AwareDatetime) :=
  match value with
  | .none => .ok none
  | value => do return some (← awareUtc value name)

variable {F Request Artifact : Type}

/-- The normal forms of the strings among some values; other objects are left out. -/
def normalizedAddresses (core : Core F Request Artifact) (name : Str) :
    List Obj → Except Exc (List Str)
  | [] => .ok []
  | .str value :: values => do
      let normalized ← core.validatePublicIpLiteral value name
      return normalized :: (← normalizedAddresses core name values)
  | _ :: values => normalizedAddresses core name values

/-- `except ValueError`, which also catches the adapter's own exception. -/
def handleAddressError (name : Str) : Exc → Exc
  | .builtin e =>
      if e.caughtBy .valueError then
        fail (name ++ lit " must contain only globally routable unicast literals")
      else .builtin e
  | .own _ => fail (name ++ lit " must contain only globally routable unicast literals")
  | .foreign => .foreign

/-- `_validated_addresses`. -/
def validatedAddresses (core : Core F Request Artifact) (values : Obj) (name : Str) :
    Except Exc (List Str) :=
  match values with
  | .tuple values =>
      if 1 ≤ values.length ∧ values.length ≤ 32 then
        match normalizedAddresses core name values with
        | .error e => .error (handleAddressError name e)
        | .ok normalized => do
            raiseUnless (normalized.length = values.length ∧ normalized.Nodup)
              (fail (name ++ lit " must contain unique exact IP literals"))
            return normalized.insertionSort (· ≤ ·)
      else .error (fail (name ++ lit " must attest 1..32 addresses"))
  | _ => .error (fail (name ++ lit " must attest 1..32 addresses"))

/-- The handlers around the request's revalidation. -/
def handleRevalidationError : Exc → Exc
  | .builtin e =>
      if e.caughtBy .attributeError || e.caughtBy .typeError || e.caughtBy .valueError then
        fail (lit "source-adapter request failed exact public-contract revalidation")
      else .builtin e
  | .own _ => fail (lit "source-adapter request failed exact public-contract revalidation")
  | .foreign => .foreign

section Capture

variable [DecidableEq Artifact]

/-- The part of `capture` before the transport is called: the request gates and
the request to the transport. -/
def captureGates (core : Core F Request Artifact) (adapter : Adapter Artifact)
    (request : Request) : Except Exc (CaptureRequest Artifact × RetrievalRequest) :=
  match core.revalidate request with
  | .error e => .error (handleRevalidationError e)
  | .ok validated => do
      raiseUnless (validated.adapterArtifact = adapter.artifactIdentity)
        (fail (lit "source-adapter request names a different installed artifact"))
      raiseUnless (validated.sourceTypeRef = publicProductSourceType)
        (fail (lit "source-adapter request names an unsupported source type"))
      core.validateExactHttpsUri validated.requestedUri (lit "requested_uri")
      return (validated, retrievalRequest validated)

/-- The type and scope checks of `capture` on a retrieval result. -/
def checkRetrievalResult (validated : CaptureRequest Artifact) (result : RetrievalResult) :
    Except Exc Unit := do
  raiseUnless ([result.sourceTypeRef, result.requestedUri, result.effectiveUri, result.mediaType,
      result.responseBody, result.locator].all Obj.isStr)
    (fail (lit "retrieval result scalar text fields must use exact string types"))
  raiseUnless result.statusCode.isInt
    (fail (lit "retrieval result status_code must use the exact integer type"))
  raiseUnless result.redirectChain.isEmptyTuple
    (fail (lit "retrieval result redirect_chain must be exactly an empty tuple"))
  raiseUnless (result.credentialsUsed.isBool false)
    (fail (lit "retrieval result must attest exact false credentials_used"))
  raiseUnless (result.dnsRebindingProtectionApplied.isBool true)
    (fail (lit "retrieval result must attest exact true DNS-rebinding protection"))
  raiseUnless (result.sourceTypeRef.eqStr validated.sourceTypeRef &&
      result.requestedUri.eqStr validated.requestedUri &&
      result.effectiveUri.eqStr validated.requestedUri)
    (fail (lit "retrieval result crossed source type or exact URI scope"))
  raiseUnless (result.locator.eqStr publicProductLocator)
    (fail (lit "retrieval result does not bind the exact extraction locator"))
  raiseUnless (result.statusCode.eqInt 200 && result.mediaType.eqStr (lit "application/json"))
    (fail (lit "retrieval result must be exact HTTP 200 application/json material"))

/-- `payload_json.encode("utf-8")` and its digest. -/
def payloadDigest (core : Core F Request Artifact) (payloadJson : Str) : Except Exc Str :=
  match Str.encode payloadJson with
  | some data => .ok (lit "sha256:" ++ core.sha256Hexdigest data)
  | none => .error (.builtin .unicodeEncodeError)

variable [PyFloat F]

/-- The part of `capture` after the transport has returned. -/
def captureResult (core : Core F Request Artifact) (validated : CaptureRequest Artifact)
    (transportRequest : RetrievalRequest) : Retrieved → Except Exc CapturedSourceMaterial
  | .other => .error (fail (lit "transport returned an unsupported retrieval-result type"))
  | .result result => do
      checkRetrievalResult validated result
      let resolved ← validatedAddresses core result.resolvedIpAddresses
        (lit "resolved_ip_addresses")
      let connected ← validatedAddresses core result.connectedIpAddresses
        (lit "connected_ip_addresses")
      raiseUnless (connected = resolved)
        (fail (lit "every resolved and connected address must remain exactly attested"))
      let observedAt ← awareUtc result.observedAt (lit "observed_at")
      let capturedAt ← awareUtc result.capturedAt (lit "captured_at")
      let sourcePublishedAt ← optionalAwareUtc result.sourcePublishedAt
        (lit "source_published_at")
      let eventEffectiveAt ← optionalAwareUtc result.eventEffectiveAt (lit "event_effective_at")
      raiseUnless (!(observedAt.lt validated.startedAt || capturedAt.lt observedAt))
        (fail (lit "retrieval observation/capture times fall outside the exact operation"))
      let payloadJson ← canonicalProductPayload core.limits core.canonicalJson
        result.responseBody transportRequest.maxResponseChars
      let digest ← payloadDigest core payloadJson
      core.capturedSourceMaterial (materialFields validated resolved payloadJson digest
        sourcePublishedAt eventEffectiveAt observedAt capturedAt)

/-- `PublicProductSourceAdapter.capture` with a transport: the adapter afterwards
and the material or the exception. -/
def capture (core : Core F Request Artifact) (adapter : Adapter Artifact)
    (retrieve : RetrievalRequest → Except Exc Retrieved) (request : Request) :
    Adapter Artifact × Except Exc CapturedSourceMaterial :=
  match captureGates core adapter request with
  | .error e => (adapter, .error e)
  | .ok (validated, transportRequest) =>
      ({ adapter with captureCalls := adapter.captureCalls + 1 }, do
        captureResult core validated transportRequest (← retrieve transportRequest))

end Capture

end MarketIntelligence.PublicProduct
