import MarketIntelligence.Interaction.Cooperative
import MarketIntelligence.PublicProduct.Attestation

/-!
# Concurrent captures on one adapter

`capture` awaits the transport once. Before that it reads the adapter's artifact identity
and counts the call; after that it works on its own revalidated request and its own
result only. Captures on one adapter therefore never disturb each other, in whatever
order the transport answers them.
-/

namespace MarketIntelligence.PublicProduct

open Python Json Interaction

variable {F Request Artifact ι : Type} [DecidableEq Artifact] [PyFloat F]

/-- `PublicProductSourceAdapter.capture`, cut at its `await`. -/
def captureCall (core : Core F Request Artifact) (request : Request) :
    Call (Adapter Artifact) RetrievalRequest (Except Exc Retrieved)
      (Except Exc CapturedSourceMaterial) where
  update adapter :=
    match captureGates core adapter request with
    | .error _ => adapter
    | .ok _ => { adapter with captureCalls := adapter.captureCalls + 1 }
  next adapter :=
    match captureGates core adapter request with
    | .error e => .finished (.error e)
    | .ok (validated, transportRequest) =>
        .awaiting transportRequest (fun _ adapter => adapter) fun answer _ =>
          .finished do captureResult core validated transportRequest (← answer)

section Alone

variable {core : Core F Request Artifact} {adapter : Adapter Artifact} {request : Request}

/-- A call that passes the gates retrieves once, whatever it is answered. -/
theorem captureCall_queries {validated : CaptureRequest Artifact} {t : RetrievalRequest}
    (h : captureGates core adapter request = .ok (validated, t))
    (as : List (Except Exc Retrieved)) : (captureCall core request).queries adapter as = [t] := by
  cases as with
  | nil => simp [Call.queries, captureCall, h, Suspended.queries, Suspended.begun]
  | cons a as =>
    cases as <;> simp [Call.queries, captureCall, h, Suspended.queries, Suspended.begun]

/-- With the answer of the transport it is `capture`. -/
theorem captureCall_alone {validated : CaptureRequest Artifact} {t : RetrievalRequest}
    (h : captureGates core adapter request = .ok (validated, t))
    (retrieve : RetrievalRequest → Except Exc Retrieved) (as : List (Except Exc Retrieved)) :
    (captureCall core request).alone adapter (retrieve t :: as) =
      ((capture core adapter retrieve request).1,
        .finished (capture core adapter retrieve request).2) := by
  cases as <;> simp [Call.alone, captureCall, capture, h, Suspended.alone]

/-- A call that fails the gates is `capture` with any transport, and retrieves nothing. -/
theorem captureCall_refused {e : Exc} (h : captureGates core adapter request = .error e)
    (retrieve : RetrievalRequest → Except Exc Retrieved) (as : List (Except Exc Retrieved)) :
    (captureCall core request).alone adapter as =
        ((capture core adapter retrieve request).1,
          .finished (capture core adapter retrieve request).2) ∧
      (captureCall core request).queries adapter as = [] := by
  cases as <;>
    simp [Call.alone, Call.queries, captureCall, capture, h, Suspended.alone, Suspended.queries,
      Suspended.begun]

/-- A call that is finished alone has the outcome of `capture`, with any transport that
gives its answers. -/
theorem captureCall_finished {as : List (Except Exc Retrieved)}
    {outcome : Except Exc CapturedSourceMaterial}
    (h : .finished outcome = ((captureCall core request).alone adapter as).2)
    {retrieve : RetrievalRequest → Except Exc Retrieved}
    (hretrieve : ∀ a ∈ as, ∀ t, retrieve t = a) :
    outcome = (capture core adapter retrieve request).2 := by
  cases hgates : captureGates core adapter request with
  | error e =>
    rw [(captureCall_refused hgates retrieve as).1] at h
    exact Suspended.finished.inj h
  | ok passed =>
    obtain ⟨validated, t⟩ := passed
    cases as with
    | nil =>
      -- without an answer the call is still waiting
      simp [Call.alone, captureCall, hgates, Suspended.alone] at h
    | cons a as =>
      rw [← hretrieve a (by simp) t, captureCall_alone hgates retrieve as] at h
      exact Suspended.finished.inj h

omit [PyFloat F] in
/-- The gates read nothing of the adapter but its artifact identity. -/
theorem captureGates_congr {adapter' : Adapter Artifact}
    (h : adapter.artifactIdentity = adapter'.artifactIdentity) :
    captureGates core adapter request = captureGates core adapter' request := by
  unfold captureGates
  rw [h]

/-- Nor does any other part of a call, and no part changes it. -/
theorem captureCall_reads (core : Core F Request Artifact) (request : Request) :
    (captureCall core request).Reads Adapter.artifactIdentity where
  update adapter := by
    simp only [captureCall]
    split <;> rfl
  next adapter adapter' h := by
    simp only [captureCall, captureGates_congr h]
  rest adapter := by
    simp only [captureCall]
    split
    · exact .finished _
    · exact .awaiting (fun _ _ => rfl) (fun _ _ _ _ => rfl) fun _ _ => .finished _

/-- A call counts its retrieval where it begins it. -/
theorem captureCall_counting (core : Core F Request Artifact) (request : Request) :
    (captureCall core request).Counting Adapter.captureCalls where
  first adapter := by
    simp only [captureCall]
    split <;> simp_all [Counts, Suspended.begun]
  rest adapter := by
    simp only [captureCall]
    split
    · exact .finished _
    · exact .awaiting (fun _ _ => rfl) fun _ _ => .finished _

end Alone

/-- At every moment of any interleaving of captures on a new adapter, the counter is the
number of retrievals begun, a call that fails the gates has begun none and every other
call its own one, and a finished call has the outcome of a capture alone with a transport
that gives it the same answer. -/
theorem concurrent_captures [DecidableEq ι] {core : Core F Request Artifact}
    {identity : Artifact} {requests : ι → Request} {turns : List (Turn ι (Except Exc Retrieved))}
    {sys : System ι (Adapter Artifact) RetrievalRequest (Except Exc Retrieved)
      (Except Exc CapturedSourceMaterial)}
    (h : (System.initial ⟨identity, 0⟩).run (fun i => captureCall core (requests i)) turns =
      some sys) :
    sys.shared.captureCalls = sys.asked.length ∧
    (∀ i e, captureGates core ⟨identity, 0⟩ (requests i) = .error e →
      eventsOf i sys.asked = [] ∧
      (.start i ∈ turns → sys.calls i = some (.finished (.error e)))) ∧
    (∀ i validated t, captureGates core ⟨identity, 0⟩ (requests i) = .ok (validated, t) →
      (.start i ∉ turns → eventsOf i sys.asked = []) ∧
      (.start i ∈ turns → eventsOf i sys.asked = [t])) ∧
    ∀ i outcome, sys.calls i = some (.finished outcome) →
      ∀ retrieve : RetrievalRequest → Except Exc Retrieved,
        (∀ a ∈ answersOf i turns, ∀ t, retrieve t = a) →
        outcome = (capture core ⟨identity, 0⟩ retrieve (requests i)).2 := by
  have hisolated := System.run_isolated (fun i => captureCall_reads core (requests i)) h
  have hcount := System.run_counts (fun i => captureCall_counting core (requests i)) h
  refine ⟨by simpa using hcount, fun i e he => ?_, fun i validated t ht => ?_,
    fun i outcome hfinished retrieve hretrieve => ?_⟩
  · obtain ⟨halone, hqueries⟩ := captureCall_refused he (fun _ => .error e) (answersOf i turns)
    cases hcall : sys.calls i with
    | none =>
      obtain ⟨hstart, -, hnothing⟩ := hisolated.waiting i hcall
      exact ⟨hnothing, fun hmem => absurd hmem hstart⟩
    | some u =>
      obtain ⟨-, hu, hasked⟩ := hisolated.begun i u hcall
      refine ⟨hasked.trans hqueries, fun _ => ?_⟩
      rw [hu, halone]
      simp [capture, he]
  · cases hcall : sys.calls i with
    | none =>
      obtain ⟨hstart, -, hnothing⟩ := hisolated.waiting i hcall
      exact ⟨fun _ => hnothing, fun hmem => absurd hmem hstart⟩
    | some u =>
      obtain ⟨hstart, -, hasked⟩ := hisolated.begun i u hcall
      exact ⟨fun hmem => absurd hstart hmem, fun _ => hasked.trans (captureCall_queries ht _)⟩
  · obtain ⟨-, halone, -⟩ := hisolated.begun i _ hfinished
    exact captureCall_finished halone hretrieve

/-- Two captures of the sample: the second one is answered first, and the transport raises
in the first one. -/
def sampleTurns : List (Turn ℕ (Except Exc Retrieved)) :=
  [.start 0, .start 1, .resume 1 (.ok (.result (sampleResult sampleRequest.startedAt))),
    .resume 0 (.error .foreign)]

/-- Both have begun a retrieval of their own, and the second one has the outcome of a
capture alone. -/
theorem sample_captures :
    ∃ sys, (System.initial ⟨(), 0⟩).run (fun _ => captureCall sampleCore sampleRequest)
        sampleTurns = some sys ∧
      sys.shared.captureCalls = sys.asked.length ∧
      eventsOf 0 sys.asked = [retrievalRequest sampleRequest] ∧
      sys.calls 1 = some (.finished (capture sampleCore ⟨(), 0⟩
        (fun _ => .ok (.result (sampleResult sampleRequest.startedAt))) sampleRequest).2) := by
  obtain ⟨sys, hsys, outcome, hfinished⟩ :
      ∃ sys, (System.initial ⟨(), 0⟩).run (fun _ => captureCall sampleCore sampleRequest)
        sampleTurns = some sys ∧ ∃ outcome, sys.calls 1 = some (.finished outcome) :=
    ⟨_, rfl, _, rfl⟩
  have hgates := captureGates_eq_ok.mpr ⟨sampleRequest_passes, rfl⟩
  obtain ⟨hcount, -, hasked, halone⟩ := concurrent_captures hsys
  refine ⟨sys, hsys, hcount, (hasked 0 _ _ hgates).2 (by simp [sampleTurns]), ?_⟩
  rw [hfinished, halone 1 outcome hfinished _ fun a ha t => ?_]
  obtain rfl : a = .ok (.result (sampleResult sampleRequest.startedAt)) := by
    simpa [answersOf, sampleTurns] using ha
  rfl

end MarketIntelligence.PublicProduct
