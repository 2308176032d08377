import MarketIntelligence.Builder.Authorization
import MarketIntelligence.Interaction.Embedding

/-!
# What a completed execution consists of

`start` returns a page after five answered calls and in no other way. Here the five calls and
their answers are described together, and the description is exact: every execution that
returns fits it, and everything that fits it is an execution.
-/

namespace MarketIntelligence.Builder

open Python Interaction

variable {F Subject Ref Revision Effect Page : Type}

/-! ### The gates, in both directions -/

/-- A build passes the gates before the first call exactly if it checks out. -/
theorem checkBuild_eq_ok_iff [DecidableEq Effect]
    {core : ExecutorCore F Subject Ref Revision Effect} {build : Build Effect}
    {host : HostServices} : checkBuild core build host = .ok () ↔ ChecksOut core build host := by
  refine ⟨checkBuild_eq_ok, fun h => ?_⟩
  have hgroups : build.sourceGroupIds.insertionSort (· ≤ ·) = supportedRecordedSourceGroupIds := by
    rw [h.sourceGroups]
    rfl
  have hexpired := Datetime.le_eq_ok_false.mpr h.unexpired
  unfold checkBuild
  simp [h.profile, h.effects, hgroups, h.product, h.actor, h.useSubject, h.useDigest, hexpired,
    h.ports, ofBuiltin]

/-- The requests to `derive` are exactly those of the pairs that Core accepts. -/
theorem derivationRequest_eq_ok_iff {core : ExecutorCore F Subject Ref Revision Effect}
    {build : Build Effect} {baseline current : EntitySnapshot Revision}
    {request : DerivationRequest Ref} :
    derivationRequest core build baseline current = .ok request ↔
      (core.resourceReference baseline = .ok request.baselineSnapshot ∧
        core.resourceReference current = .ok request.currentSnapshot ∧
        request.derivationKey = derivationKey build ∧ request.detectorId = detectorId ∧
        request.evaluatedAt = build.evaluatedAt) ∧ core.acceptsDerivation request = true := by
  constructor
  · intro h
    refine ⟨derivationRequest_eq_ok h, ?_⟩
    obtain ⟨baselineRef, -, hrest⟩ := bind_eq_ok.mp h
    obtain ⟨currentRef, -, hrequest⟩ := bind_eq_ok.mp hrest
    dsimp only at hrequest
    split at hrequest
    · next haccept =>
      obtain rfl := Except.ok.inj hrequest
      exact haccept
    · cases hrequest
  · obtain ⟨key, detector, baselineRef, currentRef, evaluatedAt⟩ := request
    rintro ⟨⟨hbaseline, hcurrent, rfl, rfl, rfl⟩, haccept⟩
    exact bind_eq_ok.mpr ⟨_, hbaseline, bind_eq_ok.mpr ⟨_, hcurrent, if_pos haccept⟩⟩

/-- The requests of a first Brief are exactly those of the derivations that Core accepts. -/
theorem firstBriefRequest_eq_ok_iff {core : ExecutorCore F Subject Ref Revision Effect}
    {build : Build Effect} {derivation : Derivation} {requested : DerivationRequest Ref}
    {request : FirstBriefRequest} (hkey : requested.derivationKey = derivationKey build) :
    firstBriefRequest core build derivation = .ok request ↔
      BriefOf build derivation requested request ∧ core.acceptsFirstBrief request = true := by
  constructor
  · intro h
    obtain ⟨hmaterial, hbuildId, hdigest, hbriefKey, hrequestedAt⟩ := firstBriefRequest_eq_ok h
    refine ⟨⟨hmaterial, hbuildId, hdigest, hbriefKey.trans hkey.symm, hrequestedAt⟩, ?_⟩
    rw [hmaterial] at h
    dsimp only [firstBriefRequest] at h
    split at h
    · next haccept => exact Except.ok.inj h ▸ haccept
    · cases h
  · rintro ⟨h, haccept⟩
    obtain ⟨hmaterial, hbuildId, hdigest, hbriefKey, hrequestedAt⟩ := h
    obtain ⟨buildId, digest, key, receiptId, receiptDigest, requestedAt⟩ := request
    dsimp only at hbuildId hdigest hbriefKey hrequestedAt
    obtain rfl := hbuildId
    obtain rfl := hdigest
    obtain rfl := hbriefKey.trans hkey
    obtain rfl := hrequestedAt
    rw [hmaterial]
    exact if_pos haccept

/-! ### Completed executions -/

/-- The five exchanges of a completed execution, with what each takes from the ones before. -/
structure Executed [PyFloat F] [DecidableEq Revision]
    (core : ExecutorCore F Subject Ref Revision Effect) (content : List UInt8)
    (build : Build Effect) (host : HostServices)
    (es : List (Exchange (PortCall F Subject Ref) (Answer Revision Page))) (page : Page) :
    Prop where
  checksOut : ChecksOut core build host
  exchanges : ∃ subject materials items baseline current requested derivation brief,
    es = [subjectBound subject, answered (.admitSources materials) (.entities items),
      answered (.derive requested) derivation, answered (.createFirstBrief brief) (),
      answered (.query (resourceQuery build)) page] ∧
    loadRecordedMarketSourceMaterials core.toCore content (fun _ _ _ => .ok subject) =
      .ok materials ∧
    PairOf core build items baseline current requested ∧
    core.acceptsDerivation requested = true ∧ BriefOf build derivation requested brief ∧
    core.acceptsFirstBrief brief = true

/-- The materials are loaded behind the binding of the subject. -/
theorem loadRecorded_eq_ok [PyFloat F] {core : Core F Subject} {content : List UInt8}
    {subject : Subject} {materials : List (RecordedSourceMaterial F Subject)} :
    loadRecordedMarketSourceMaterials core content (fun _ _ _ => .ok subject) = .ok materials ↔
      ∃ inventory items, executorInventory core content = .ok (inventory, items) ∧
        recordedMaterials core inventory subject items = .ok materials := by
  simp only [loadRecordedMarketSourceMaterials, bind_eq_ok, Prod.exists, Except.ok.injEq,
    exists_eq_left']

/-- The pair of an admission and its request are exactly what `start` takes from it. -/
theorem pairOf_iff [DecidableEq Revision] {core : ExecutorCore F Subject Ref Revision Effect}
    {build : Build Effect} {admission : Admission Revision}
    {baseline current : EntitySnapshot Revision} {request : DerivationRequest Ref} :
    exactPriceEntities admission build.productId = .ok (baseline, current) ∧
      derivationRequest core build baseline current = .ok request ↔
    (∃ items, admission = .entities items ∧ PairOf core build items baseline current request) ∧
      core.acceptsDerivation request = true := by
  rw [derivationRequest_eq_ok_iff]
  constructor
  · rintro ⟨hpair, ⟨hbaseline, hcurrent, hkey, hdetector, hevaluated⟩, haccept⟩
    cases admission with
    | malformed => cases hpair
    | entities items =>
      obtain ⟨hadmitted, hprogression⟩ := exactPriceEntities_eq_ok.mp hpair
      exact ⟨⟨items, rfl, hadmitted, hprogression, hbaseline, hcurrent, hkey, hdetector,
        hevaluated, fun items' hperm =>
          exactPriceEntities_eq_ok.mpr ⟨hperm.trans hadmitted, hprogression⟩⟩, haccept⟩
  · rintro ⟨⟨items, rfl, h⟩, haccept⟩
    exact ⟨h.anyOrder items (.refl _),
      ⟨h.baselineRef, h.currentRef, h.key, h.detector, h.evaluatedAt⟩, haccept⟩

/-- `start` returns a page exactly in the executions that consist of the five exchanges: the
fixed subject is bound, the packaged materials are admitted for it, the derivation is requested
for the admitted pair, the first Brief for the derivation, and the page answers the query. -/
theorem start_returns_iff [PyFloat F] [DecidableEq Revision] [DecidableEq Effect]
    {core : ExecutorCore F Subject Ref Revision Effect} {content : List UInt8}
    {build : Build Effect} {host : HostServices}
    {es : List (Exchange (PortCall F Subject Ref) (Answer Revision Page))} {page : Page} :
    Trace (start core content build host) es (.returned page) ↔
      Executed core content build host es page := by
  unfold start bindSubject admitSources derive createFirstBrief query
  simp only [Trace.ofExcept_bind_returned, Trace.ask_bind_returned, Trace.ask_returned,
    Prod.exists]
  constructor
  · rintro ⟨⟨⟩, hcheck, inventory, records, hinventory, subject, _, rfl, materials, hmaterials,
      admission, _, rfl, baseline, current, hpair, requested, hrequested, derivation, _, rfl,
      brief, hbrief, ⟨⟩, _, rfl, rfl⟩
    obtain ⟨⟨items, rfl, hpairOf⟩, hderivation⟩ := pairOf_iff.mp ⟨hpair, hrequested⟩
    obtain ⟨hbriefOf, hfirst⟩ := (firstBriefRequest_eq_ok_iff hpairOf.key).mp hbrief
    exact ⟨checkBuild_eq_ok_iff.mp hcheck, subject, materials, items, baseline, current,
      requested, derivation, brief, rfl,
      loadRecorded_eq_ok.mpr ⟨inventory, records, hinventory, hmaterials⟩, hpairOf, hderivation,
      hbriefOf, hfirst⟩
  · rintro ⟨hchecks, subject, materials, items, baseline, current, requested, derivation, brief,
      rfl, hload, hpairOf, hderivation, hbriefOf, hfirst⟩
    obtain ⟨inventory, records, hinventory, hmaterials⟩ := loadRecorded_eq_ok.mp hload
    obtain ⟨hpair, hrequested⟩ := pairOf_iff.mpr ⟨⟨items, rfl, hpairOf⟩, hderivation⟩
    have hbrief := (firstBriefRequest_eq_ok_iff hpairOf.key).mpr ⟨hbriefOf, hfirst⟩
    exact ⟨(), checkBuild_eq_ok_iff.mpr hchecks, inventory, records, hinventory, subject, _, rfl,
      materials, hmaterials, .entities items, _, rfl, baseline, current, hpair, requested,
      hrequested, derivation, _, rfl, brief, hbrief, (), _, rfl, rfl⟩

end MarketIntelligence.Builder
