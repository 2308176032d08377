import MarketIntelligence.Builder.Agreement
import MarketIntelligence.Builder.Executor
import MarketIntelligence.Python.Faithful
import MarketIntelligence.Python.Related
import MarketIntelligence.Python.Utf8
import MarketIntelligence.Python.Written

/-!
# The Market Builder planner

`MarketIntelligenceBuilderPlanner.prepare`: the request, the profile and the compiled Pack are
compared with constants, and the plan is made of them and of the packaged inventory. The
inventory is pinned by a digest. So whatever file is installed, the planner refuses it, or
plans as it does from the reviewed inventory.
-/

namespace MarketIntelligence.Builder

open Python

/-! ### The plan -/

/-- `CompiledPackRefV1`. -/
structure PackReference where
  packId : Str
  packVersion : Str
  compiledPackId : Str
  packDigest : Str
  deriving DecidableEq

/-- `MARKET_INTELLIGENCE_PACK`. -/
def marketIntelligencePack : PackReference where
  packId := lit "market_intelligence"
  packVersion := lit "0.8.0"
  compiledPackId := lit "pack_ir:fd15b1617a103311c202201cd6ff1bcb"
  packDigest := lit "sha256:fd15b1617a103311c202201cd6ff1bcb75c73c943048cf8c9a6537dd22255e53"

/-- `MARKET_INTELLIGENCE_PLANNER_VERSION`. -/
def marketIntelligencePlannerVersion : Str := lit "0.1.0"

/-- `IntelligenceBuildPlanRequestV1Alpha2`; `rest` is what the planner only passes on. -/
structure PlanRequest (Rest : Type) where
  productId : Str
  profileId : Str
  sourceGroupIds : List Str
  rest : Rest

/-- `CompiledDomainPackV1`, as far as it is read. -/
structure CompiledPack where
  reference : PackReference
  capabilityRequirementIds : List Str
  authorityRequestIds : List Str

/-- `CapabilityArtifactIdentityV1Alpha1`. -/
structure ArtifactIdentity where
  capability : Str
  contract : Str
  implementationId : Str
  implementationVersion : Str
  artifactDigest : Str
  deriving DecidableEq

/-- `CompiledOverlayV1`. -/
structure Overlay where
  overlayId : Str
  version : Str
  packId : Str
  packVersion : Str
  packDigest : Str
  deriving DecidableEq

/-- `IntelligenceBuildActivationProposalV1Alpha1`. -/
structure ActivationProposal where
  productId : Str
  activationKey : Str
  pack : PackReference
  overlay : Overlay
  capabilityRequirementIds : List Str
  authorityRequestIds : List Str
  deriving DecidableEq

/-- `RecordedSourceSelectionV1Alpha1`, for a product and a Pack. -/
structure PlannedSelection (F : Type) where
  productId : Str
  pack : PackReference
  selection : RecordedSourceSelection F

/-- `IntelligenceBuildPlanV1Alpha3`. -/
structure BuildPlan (F Rest : Type) where
  request : PlanRequest Rest
  plannerArtifact : ArtifactIdentity
  packReference : PackReference
  activationProposal : ActivationProposal
  recordedSourceSelections : List (PlannedSelection F)

/-- What the planner calls outside this repository. -/
structure PlannerCore (F Subject Rest : Type) where
  core : Core F Subject
  /-- `INTELLIGENCE_BUILD_PLANNING_CAPABILITY`. -/
  planningCapability : Str
  /-- `INTELLIGENCE_BUILD_PLANNER_V1ALPHA3_CONTRACT`. -/
  plannerContract : Str
  /-- `model_dump` of a Pack reference. -/
  packDump : PackReference → Data F
  /-- Whether the constructors accept their arguments. -/
  acceptsSelection : PlannedSelection F → Bool
  acceptsProposal : ActivationProposal → Bool
  acceptsPlan : BuildPlan F Rest → Bool

variable {F Subject Rest : Type}

/-- What the readers call, with the selections of one product. -/
def PlannerCore.forProduct (c : PlannerCore F Subject Rest) (productId : Str) : Core F Subject :=
  { c.core with
    acceptsSelection := fun s => c.acceptsSelection ⟨productId, marketIntelligencePack, s⟩ }

/-- `_artifact_identity`. -/
def artifactIdentity (c : PlannerCore F Subject Rest) : ArtifactIdentity where
  capability := c.planningCapability
  contract := c.plannerContract
  implementationId := lit "market_terra_price_planner"
  implementationVersion := marketIntelligencePlannerVersion
  artifactDigest := lit "sha256:" ++ c.core.canonicalHash (.list
    [.str marketIntelligencePlannerVersion, c.packDump marketIntelligencePack,
      .str inventoryDigest])

/-- The gates of `prepare` on the profile, the source groups and the Pack. -/
def checkPlanRequest (request : PlanRequest Rest) (profileId : Str) (pack : CompiledPack) :
    Except (Raised PlannerError) Unit :=
  if profileId ≠ marketIntelligenceProfileId ∨ request.profileId ≠ marketIntelligenceProfileId then
    plannerError "Market planner received a different onboarding profile"
  else if request.sourceGroupIds ≠ [lit "competitor_public_evidence"] then
    plannerError "Market recorded proof requires the exact competitor_public_evidence group"
  else if pack.reference ≠ marketIntelligencePack then
    plannerError "Market planner received a different compiled Pack"
  else .ok ()

/-- The activation that is proposed. -/
def activationProposal (request : PlanRequest Rest) (pack : CompiledPack) : ActivationProposal where
  productId := request.productId
  activationKey := lit "market_intelligence_command_center"
  pack := marketIntelligencePack
  overlay := {
    overlayId := lit "market_intelligence_recorded_sources"
    version := lit "0.8.0"
    packId := marketIntelligencePack.packId
    packVersion := marketIntelligencePack.packVersion
    packDigest := marketIntelligencePack.packDigest }
  capabilityRequirementIds := pack.capabilityRequirementIds
  authorityRequestIds := pack.authorityRequestIds

/-- The plan of a request from its selections. -/
def buildPlan (c : PlannerCore F Subject Rest) (request : PlanRequest Rest) (pack : CompiledPack)
    (selections : List (RecordedSourceSelection F)) : BuildPlan F Rest where
  request := request
  plannerArtifact := artifactIdentity c
  packReference := marketIntelligencePack
  activationProposal := activationProposal request pack
  recordedSourceSelections :=
    selections.map fun s => ⟨request.productId, marketIntelligencePack, s⟩

/-- The rest of `prepare`, behind its selections. -/
def completePlan (c : PlannerCore F Subject Rest) (request : PlanRequest Rest)
    (pack : CompiledPack) (selections : List (RecordedSourceSelection F)) :
    Except (Raised PlannerError) (BuildPlan F Rest) :=
  if c.acceptsProposal (activationProposal request pack) then
    if c.acceptsPlan (buildPlan c request pack selections) then
      .ok (buildPlan c request pack selections)
    else .error (.builtin .valueError)
  else .error (.builtin .valueError)

/-- `MarketIntelligenceBuilderPlanner.prepare`, with the content of the inventory file. -/
def prepare [PyFloat F] (c : PlannerCore F Subject Rest) (content : List UInt8)
    (request : PlanRequest Rest) (profileId : Str) (pack : CompiledPack) :
    Except (Raised PlannerError) (BuildPlan F Rest) := do
  checkPlanRequest request profileId pack
  let selections ← plannerSelections (c.forProduct request.productId) content
  completePlan c request pack selections

/-! ### Same plans -/

/-- Selections that are the same up to the order of members. -/
structure SameSelection (s t : RecordedSourceSelection F) : Prop where
  sourceGroupId : SameValue s.sourceGroupId t.sourceGroupId
  mappingId : SameValue s.mappingId t.mappingId
  subjectBindingId : SameValue s.subjectBindingId t.subjectBindingId
  entityTypeId : SameValue s.entityTypeId t.entityTypeId
  entityRef : SameValue s.entityRef t.entityRef
  sourceDefinitionRef : SameValue s.sourceDefinitionRef t.sourceDefinitionRef
  sourceTypeRef : SameValue s.sourceTypeRef t.sourceTypeRef
  sourceUri : SameValue s.sourceUri t.sourceUri
  capturedPayloadDigest : SameValue s.capturedPayloadDigest t.capturedPayloadDigest
  sourcePublishedAt : s.sourcePublishedAt = t.sourcePublishedAt
  eventEffectiveAt : s.eventEffectiveAt = t.eventEffectiveAt
  observedAt : s.observedAt = t.observedAt
  locator : SameValue s.locator t.locator

/-- Every selection is the same as itself. -/
theorem sameSelection_refl (s : RecordedSourceSelection F) : SameSelection s s :=
  ⟨sameValue_refl _, sameValue_refl _, sameValue_refl _, sameValue_refl _, sameValue_refl _,
    sameValue_refl _, sameValue_refl _, sameValue_refl _, sameValue_refl _, rfl, rfl, rfl,
    sameValue_refl _⟩

/-- Planned selections that are the same up to the order of members. -/
structure SamePlanned (s t : PlannedSelection F) : Prop where
  productId : s.productId = t.productId
  pack : s.pack = t.pack
  selection : SameSelection s.selection t.selection

/-- Plans that are the same up to the order of members. -/
structure SamePlan (p q : BuildPlan F Rest) : Prop where
  request : p.request = q.request
  plannerArtifact : p.plannerArtifact = q.plannerArtifact
  packReference : p.packReference = q.packReference
  activationProposal : p.activationProposal = q.activationProposal
  recordedSourceSelections :
    List.Forall₂ SamePlanned p.recordedSourceSelections q.recordedSourceSelections

/-- The constructors do not see the order of members. -/
structure PlannerCore.OrderFree (c : PlannerCore F Subject Rest) : Prop where
  selection : ∀ s t, SamePlanned s t → c.acceptsSelection s = c.acceptsSelection t
  plan : ∀ p q, SamePlan p q → c.acceptsPlan p = c.acceptsPlan q

/-- The digest of the inventory pins it up to the order of members. -/
def Core.Pinned (core : Core F Subject) : Prop :=
  ∀ m n : List (Str × Data F), (Data.dict m).WellFormed → (Data.dict n).WellFormed →
    core.canonicalHash (.dict m) = inventoryDigest →
      core.canonicalHash (.dict n) = inventoryDigest → SameMembers m n

/-- Times are read alike from the same values. -/
theorem plannerTime_same {core : Core F Subject} {x y : Data F} (h : SameValue x y) :
    RunAlike Eq (plannerTime core x) (plannerTime core y) := by
  cases h with
  | str s => exact runAlike_refl (fun _ => rfl) _
  | _ => exact .error _

/-- Selections are made alike of the same values. -/
theorem recordedSelection_same {core : Core F Subject}
    {inventory inventory' subject subject' : List (Str × Data F)} {item item' : Data F}
    (horder : ∀ s t, SameSelection s t → core.acceptsSelection s = core.acceptsSelection t)
    (hinventory : SameMembers inventory inventory')
    (hkeys : (inventory.map Prod.fst).Nodup) (hsubject : SameMembers subject subject')
    (hsubjectKeys : (subject.map Prod.fst).Nodup) (hitem : SameValue item item')
    (hwf : item.WellFormed) :
    RunAlike SameSelection (recordedSelection core inventory subject item)
      (recordedSelection core inventory' subject' item') := by
  unfold recordedSelection
  refine (hinventory.lookup hkeys _).ofBuiltin.bind fun _ _ hgroup => ?_
  refine (hinventory.lookup hkeys _).ofBuiltin.bind fun _ _ hmapping => ?_
  refine (hsubject.lookup hsubjectKeys _).ofBuiltin.bind fun _ _ hbinding => ?_
  refine (hsubject.lookup hsubjectKeys _).ofBuiltin.bind fun _ _ htype => ?_
  refine (hsubject.lookup hsubjectKeys _).ofBuiltin.bind fun _ _ hentity => ?_
  refine (hinventory.lookup hkeys _).ofBuiltin.bind fun _ _ hdefinition => ?_
  refine (hinventory.lookup hkeys _).ofBuiltin.bind fun _ _ hsourceType => ?_
  refine (hitem.subscript hwf _).ofBuiltin.bind fun _ _ huri => ?_
  refine (hitem.subscript hwf _).ofBuiltin.bind fun _ _ hdigest => ?_
  refine (hitem.subscript hwf _).ofBuiltin.bind fun _ _ hpublished => ?_
  refine (plannerTime_same hpublished).bind fun _ _ hpublishedAt => ?_
  refine (hitem.subscript hwf _).ofBuiltin.bind fun _ _ heffective => ?_
  refine (plannerTime_same heffective).bind fun _ _ heffectiveAt => ?_
  refine (hitem.subscript hwf _).ofBuiltin.bind fun _ _ hobserved => ?_
  refine (plannerTime_same hobserved).bind fun _ _ hobservedAt => ?_
  refine (hitem.subscript hwf _).ofBuiltin.bind fun _ _ hlocator => ?_
  exact .checked horder ⟨hgroup, hmapping, hbinding, htype, hentity, hdefinition, hsourceType,
    huri, hdigest, hpublishedAt, congrArg some heffectiveAt, hobservedAt, hlocator⟩

/-- Lists of selections are made alike of the same items. -/
theorem recordedSelections_same {core : Core F Subject}
    {inventory inventory' subject subject' : List (Str × Data F)} {items items' : List (Data F)}
    (horder : ∀ s t, SameSelection s t → core.acceptsSelection s = core.acceptsSelection t)
    (hinventory : SameMembers inventory inventory')
    (hkeys : (inventory.map Prod.fst).Nodup) (hsubject : SameMembers subject subject')
    (hsubjectKeys : (subject.map Prod.fst).Nodup) (hitems : SameItems items items')
    (hwf : wellFormedItems items) :
    RunAlike (List.Forall₂ SameSelection) (recordedSelections core inventory subject items)
      (recordedSelections core inventory' subject' items') := by
  induction items generalizing items' with
  | nil =>
    cases hitems
    exact .ok .nil
  | cons item items ih =>
    cases hitems with
    | cons hitem hrest =>
      refine (recordedSelection_same horder hinventory hkeys hsubject hsubjectKeys hitem
        hwf.1).bind fun s t hst => ?_
      refine (ih hrest hwf.2).bind fun ss ts hss => ?_
      exact .ok (.cons hst hss)

/-! ### The pin -/

/-- The identifiers of the reviewed inventory. -/
structure ReviewedHeader (ms : List (Str × Data F)) : Prop where
  contract : get ms (lit "contract") =
    .str (lit "ace.market-intelligence.recorded-source-inventory/v1alpha1")
  inventoryId : get ms (lit "inventory_id") = .str (lit "openai_terra_price_progression")
  inventoryVersion : get ms (lit "inventory_version") = .str (lit "0.8.0")
  sourceGroupId : get ms (lit "source_group_id") = .str (lit "competitor_public_evidence")

/-- The order of members does not change the identifiers. -/
theorem ReviewedHeader.same {m n : List (Str × Data F)} (h : ReviewedHeader m)
    (hsame : SameMembers m n) (hkeys : (m.map Prod.fst).Nodup) : ReviewedHeader n :=
  ⟨hsame.get_str hkeys h.contract, hsame.get_str hkeys h.inventoryId,
    hsame.get_str hkeys h.inventoryVersion, hsame.get_str hkeys h.sourceGroupId⟩

/-- The lists of materials of same inventories are the same. -/
theorem materialPair_same {m n : List (Str × Data F)} {items : List (Data F)}
    (h : SameMembers m n) (hkeys : (m.map Prod.fst).Nodup) (hitems : materialPair m = some items) :
    get m (lit "materials") = .list items ∧ items.length = 2 ∧
      ∃ items', materialPair n = some items' ∧ SameItems items items' := by
  have hsame := h.get_same hkeys (lit "materials")
  unfold materialPair at hitems ⊢
  split at hitems
  · next xs hxs =>
    obtain ⟨hlength, hxsItems⟩ := Option.ite_none_right_eq_some.mp hitems
    obtain rfl := Option.some.inj hxsItems
    rw [hxs] at hsame
    refine ⟨hxs, hlength, ?_⟩
    generalize get n (lit "materials") = value at hsame
    cases hsame with
    | list hitems => exact ⟨_, if_pos (hitems.length_eq ▸ hlength), hitems⟩
  · cases hitems

/-- A selection is in the group of its inventory, and its times are in UTC. -/
structure Placed (core : Core F Subject) (group : Data F) (s : RecordedSourceSelection F) :
    Prop where
  sourceGroupId : s.sourceGroupId = group
  sourcePublishedAt : s.sourcePublishedAt.offset = 0
  eventEffectiveAt : ∃ t, s.eventEffectiveAt = some t ∧ t.offset = 0
  observedAt : s.observedAt.offset = 0
  accepted : core.acceptsSelection s = true

/-- Times are planned in UTC. -/
theorem plannerTime_offset {core : Core F Subject} {x : Data F} {t : AwareDatetime}
    (h : plannerTime core x = .ok t) : t.offset = 0 := by
  obtain ⟨s, u, -, -, hu⟩ := utcTime_eq_ok.mp h
  exact (AwareDatetime.astimezoneUtc_spec hu).2

/-- Selections are placed in the group of their inventory. -/
theorem recordedSelection_placed {core : Core F Subject}
    {inventory subject : List (Str × Data F)} {item : Data F} {s : RecordedSourceSelection F}
    (h : recordedSelection core inventory subject item = .ok s) :
    Placed core (get inventory (lit "source_group_id")) s := by
  simp only [recordedSelection, bind_eq_ok, ofBuiltin_eq_ok, lookup_eq_ok] at h
  obtain ⟨_, ⟨-, rfl⟩, _, -, _, -, _, -, _, -, _, -, _, -, _, -, _, -, _, -, published,
    hpublished, _, -, effective, heffective, _, -, observed, hobserved, _, -, h⟩ := h
  split at h
  · next haccept =>
    obtain rfl := Except.ok.inj h
    exact ⟨rfl, plannerTime_offset hpublished, ⟨effective, rfl, plannerTime_offset heffective⟩,
      plannerTime_offset hobserved, haccept⟩
  · cases h

/-- As many selections as items are made, and each is placed. -/
theorem recordedSelections_placed {core : Core F Subject}
    {inventory subject : List (Str × Data F)} {items : List (Data F)}
    {ss : List (RecordedSourceSelection F)}
    (h : recordedSelections core inventory subject items = .ok ss) :
    ss.length = items.length ∧
      ∀ s ∈ ss, Placed core (get inventory (lit "source_group_id")) s := by
  induction items generalizing ss with
  | nil =>
    obtain rfl := Except.ok.inj h
    simp
  | cons item items ih =>
    obtain ⟨s, hs, h⟩ := bind_eq_ok.mp h
    obtain ⟨rest, hrest, h⟩ := bind_eq_ok.mp h
    obtain rfl := Except.ok.inj h
    obtain ⟨hlength, hplaced⟩ := ih hrest
    exact ⟨by simp [hlength], List.forall_mem_cons.mpr ⟨recordedSelection_placed hs, hplaced⟩⟩

/-- The gates on the request are passed. -/
theorem checkPlanRequest_eq_ok {request : PlanRequest Rest} {profileId : Str}
    {pack : CompiledPack} (h : checkPlanRequest request profileId pack = .ok ()) :
    profileId = marketIntelligenceProfileId ∧ request.profileId = marketIntelligenceProfileId ∧
      request.sourceGroupIds = [lit "competitor_public_evidence"] ∧
      pack.reference = marketIntelligencePack := by
  unfold checkPlanRequest plannerError at h
  split_ifs at h with hprofile hgroup hpack
  obtain ⟨hgiven, hrequested⟩ := not_or.mp hprofile
  exact ⟨not_not.mp hgiven, not_not.mp hrequested, not_not.mp hgroup, not_not.mp hpack⟩

/-- A plan of same selections is completed alike. -/
theorem completePlan_same {c : PlannerCore F Subject Rest} (horder : c.OrderFree)
    {request : PlanRequest Rest} {pack : CompiledPack} {plan : BuildPlan F Rest}
    {ss ts : List (RecordedSourceSelection F)} (hsame : List.Forall₂ SameSelection ss ts)
    (h : completePlan c request pack ss = .ok plan) :
    plan = buildPlan c request pack ss ∧
      completePlan c request pack ts = .ok (buildPlan c request pack ts) ∧
      SamePlan plan (buildPlan c request pack ts) := by
  have hplans : SamePlan (buildPlan c request pack ss) (buildPlan c request pack ts) := by
    refine ⟨rfl, rfl, rfl, rfl, ?_⟩
    unfold buildPlan
    rw [List.forall₂_map_left_iff, List.forall₂_map_right_iff]
    exact hsame.imp fun s t hst => ⟨rfl, rfl, hst⟩
  unfold completePlan at h ⊢
  split_ifs at h with hproposal hplan
  obtain rfl := Except.ok.inj h
  refine ⟨rfl, ?_, hplans⟩
  rw [if_pos hproposal, if_pos (horder.plan _ _ hplans ▸ hplan)]

/-- What the planner plans for a request and a Pack. -/
structure PlannedFor (c : PlannerCore F Subject Rest) (request : PlanRequest Rest)
    (pack : CompiledPack) (plan : BuildPlan F Rest) : Prop where
  sameRequest : plan.request = request
  plannerArtifact : plan.plannerArtifact = artifactIdentity c
  packReference : plan.packReference = pack.reference
  reviewedPack : pack.reference = marketIntelligencePack
  activationProposal : plan.activationProposal = activationProposal request pack
  two : plan.recordedSourceSelections.length = 2
  selections : ∀ s ∈ plan.recordedSourceSelections, s.productId = request.productId ∧
    s.pack = pack.reference ∧ Placed (c.forProduct request.productId)
      (.str (lit "competitor_public_evidence")) s.selection

variable [PyFloat F]

/-- A file with an object of the pinned digest. -/
def HoldsReviewed (core : Core F Subject) (content : List UInt8) : Prop :=
  ∃ material, readJson core.py.limits content = .ok (.dict material) ∧
    core.canonicalHash (.dict material) = inventoryDigest

/-- What the planner raises at any other file. It refuses a text that cannot be read and an object
of another digest. A value without members, and a text that is nested too deeply, escape its
handlers. -/
inductive Unreviewed (core : Core F Subject) (content : List UInt8) : Raised PlannerError → Prop
  | unavailable {e : BuiltinError} : readJson (F := F) core.py.limits content = .error e →
      e ≠ .recursionError →
      Unreviewed core content (.own ⟨lit "recorded Market source inventory is unavailable"⟩)
  | changed {material : List (Str × Data F)} :
      readJson core.py.limits content = .ok (.dict material) →
      core.canonicalHash (.dict material) ≠ inventoryDigest →
      Unreviewed core content (.own ⟨lit "recorded Market source inventory identity changed"⟩)
  | withoutMembers {value : Data F} : readJson core.py.limits content = .ok value →
      (∀ members, value ≠ .dict members) → Unreviewed core content (.builtin .attributeError)
  | tooDeep : readJson (F := F) core.py.limits content = .error .recursionError →
      Unreviewed core content (.builtin .recursionError)

/-- An inventory that is not read is unreviewed. -/
theorem readInventory_unreviewed {core : Core F Subject} {content : List UInt8}
    {e : Raised PlannerError}
    (h : readInventory core ⟨lit "recorded Market source inventory is unavailable"⟩ content =
      .error e) : Unreviewed core content e := by
  unfold readInventory at h
  split at h
  · next b hb =>
    obtain rfl := Except.error.inj h
    have hcases : b = .unicodeDecodeError ∨ b = .jsonDecodeError ∨ b = .recursionError ∨
        b = .valueError := by
      have hread := hb
      unfold readJson readText jsonLoads at hread
      split at hread
      · dsimp only [bind, Except.bind] at hread
        split at hread <;> simp_all
      · exact .inl (Except.error.inj hread).symm
    obtain rfl | rfl | rfl | rfl := hcases
    · exact .unavailable hb (by simp)
    · exact .unavailable hb (by simp)
    · exact .tooDeep hb
    · exact .unavailable hb (by simp)
  · cases h
  · next value hother hvalue =>
    obtain rfl := Except.error.inj h
    exact .withoutMembers hvalue hother

/-- The list of materials behind the comparison of the identifiers and the digest. -/
def comparedInventory (material : List (Str × Data F)) :
    Except (Raised PlannerError) (List (Str × Data F) × List (Data F)) :=
  match materialPair material with
  | some items => .ok (material, items)
  | none => plannerError "recorded Market inventory must contain exactly two materials"

/-- What the planner reads from the file of an inventory: an object with the identifiers and the
digest of the reviewed one, or nothing that it accepts. -/
theorem plannerInventory_cases (core : Core F Subject) (content : List UInt8) :
    (∃ e, Unreviewed core content e ∧ plannerInventory core content = .error e) ∨
      ∃ material, readJson core.py.limits content = .ok (.dict material) ∧
        (¬(ReviewedHeader material ∧ core.canonicalHash (.dict material) = inventoryDigest) ∧
          plannerInventory core content =
            plannerError "recorded Market source inventory identity changed" ∨
        (ReviewedHeader material ∧ core.canonicalHash (.dict material) = inventoryDigest) ∧
          plannerInventory core content = comparedInventory material) := by
  unfold plannerInventory
  cases hread : readInventory core
      (PlannerError.mk (lit "recorded Market source inventory is unavailable")) content with
  | error e => exact .inl ⟨e, readInventory_unreviewed hread, rfl⟩
  | ok material =>
    refine .inr ⟨material, readInventory_eq_ok.mp hread, ?_⟩
    dsimp only [bind, Except.bind]
    split
    · next hheader =>
      simp only [Bool.and_eq_true, Data.eqStr_iff, decide_eq_true_eq] at hheader
      obtain ⟨⟨⟨⟨hcontract, hid⟩, hversion⟩, hgroup⟩, hdigest⟩ := hheader
      exact .inr ⟨⟨⟨hcontract, hid, hversion, hgroup⟩, hdigest⟩, rfl⟩
    · next hheader =>
      refine .inl ⟨fun hreviewed => hheader ?_, rfl⟩
      obtain ⟨h, hdigest⟩ := hreviewed
      simp [Data.eqStr_iff, h.contract, h.inventoryId, h.inventoryVersion, h.sourceGroupId,
        hdigest]

/-- What was read where selections are planned. -/
theorem plannerInventory_of_selections {core : Core F Subject} {content : List UInt8}
    {ss : List (RecordedSourceSelection F)} (h : plannerSelections core content = .ok ss) :
    ∃ material items subject, readJson core.py.limits content = .ok (.dict material) ∧
      ReviewedHeader material ∧ core.canonicalHash (.dict material) = inventoryDigest ∧
      materialPair material = some items ∧ get material (lit "subject_binding") = .dict subject ∧
      recordedSelections core material subject items = .ok ss := by
  obtain ⟨⟨inventory, items⟩, hinventory, h⟩ := bind_eq_ok.mp h
  obtain ⟨e, -, hrefused⟩ | ⟨material, hread, ⟨-, hrefused⟩ | ⟨⟨hheader, hdigest⟩, hcompared⟩⟩ :=
    plannerInventory_cases core content
  · cases hrefused.symm.trans hinventory
  · cases hrefused.symm.trans hinventory
  rw [hcompared, comparedInventory] at hinventory
  cases hpair : materialPair material with
  | none =>
    rw [hpair] at hinventory
    cases hinventory
  | some found =>
    rw [hpair] at hinventory
    obtain ⟨rfl, rfl⟩ := Prod.mk.inj (Except.ok.inj hinventory)
    dsimp only at h
    split at h
    · next subject hsubject =>
      exact ⟨material, found, subject, hread, hheader, hdigest, hpair, hsubject, h⟩
    · cases h

/-- Selections are planned alike from any two files with a reviewed inventory. -/
theorem plannerSelections_same {core : Core F Subject}
    (hpinned : core.Pinned)
    (horder : ∀ s t, SameSelection s t → core.acceptsSelection s = core.acceptsSelection t)
    {content : List UInt8} {ss : List (RecordedSourceSelection F)}
    (h : plannerSelections core content = .ok ss) (content' : List UInt8) :
    HoldsReviewed core content' ∧
      (∃ ts, plannerSelections core content' = .ok ts ∧ List.Forall₂ SameSelection ss ts) ∨
      ∃ e, Unreviewed core content' e ∧ plannerSelections core content' = .error e := by
  obtain ⟨material, items, subject, hread, hheader, hdigest, hpair, hsubject, hselections⟩ :=
    plannerInventory_of_selections h
  obtain ⟨e, he, hrefused⟩ | ⟨material', hread', hcases⟩ := plannerInventory_cases core content'
  · exact .inr ⟨e, he, by rw [plannerSelections, hrefused]; rfl⟩
  have hwf := wellFormed_of_readJson hread
  obtain ⟨hkeys, -⟩ := wellFormed_dict.mp hwf
  by_cases hdigest' : core.canonicalHash (.dict material') = inventoryDigest
  · have hsame := hpinned material material' hwf (wellFormed_of_readJson hread') hdigest hdigest'
    obtain ⟨hother, -⟩ | ⟨-, hcompared⟩ := hcases
    · exact absurd ⟨hheader.same hsame hkeys, hdigest'⟩ hother
    obtain ⟨hmaterials, -, items', hpair', hitems⟩ := materialPair_same hsame hkeys hpair
    have hitemsWf : (Data.list items).WellFormed := hmaterials ▸ wellFormed_get hwf _
    have hsubject' := hsame.get_same hkeys (lit "subject_binding")
    have hsubjectWf := wellFormed_get hwf (lit "subject_binding")
    rw [hsubject] at hsubject' hsubjectWf
    refine .inl ⟨⟨material', hread', hdigest'⟩, ?_⟩
    rw [plannerSelections, hcompared, comparedInventory, hpair']
    dsimp only [bind, Except.bind]
    generalize get material' (lit "subject_binding") = found at hsubject' ⊢
    cases hsubject' with
    | dict hmembers =>
      exact (recordedSelections_same horder hsame hkeys hmembers
        (wellFormed_dict.mp hsubjectWf).1 hitems hitemsWf).exists_ok hselections
  · obtain ⟨-, hrefused⟩ | ⟨⟨-, hsame⟩, -⟩ := hcases
    · exact .inr ⟨_, .changed hread' hdigest', by rw [plannerSelections, hrefused]; rfl⟩
    · exact absurd hsame hdigest'

/-- Two selections of the one supported group are planned. -/
theorem plannerSelections_placed {core : Core F Subject} {content : List UInt8}
    {ss : List (RecordedSourceSelection F)} (h : plannerSelections core content = .ok ss) :
    ss.length = 2 ∧ ∀ s ∈ ss, Placed core (.str (lit "competitor_public_evidence")) s := by
  obtain ⟨material, items, subject, hread, hheader, -, hpair, -, hselections⟩ :=
    plannerInventory_of_selections h
  obtain ⟨hlength, hplaced⟩ := recordedSelections_placed hselections
  obtain ⟨-, htwo, -⟩ := materialPair_same (sameMembers_refl material)
    (wellFormed_dict.mp (wellFormed_of_readJson hread)).1 hpair
  exact ⟨hlength.trans htwo, hheader.sourceGroupId ▸ hplaced⟩

/-- An inventory with the identifiers of the reviewed one, two materials and a subject. -/
structure ReviewedShape (ms : List (Str × Data F)) (items : List (Data F))
    (subject : List (Str × Data F)) : Prop where
  header : ReviewedHeader ms
  materials : materialPair ms = some items
  subject : get ms (lit "subject_binding") = .dict subject

/-- If such an inventory is written to the file, its own selections are planned, up to the order
of members. -/
theorem plannerSelections_written {core : Core F Subject}
    (horder : ∀ s t, SameSelection s t → core.acceptsSelection s = core.acceptsSelection t)
    {ms subject : List (Str × Data F)} {items : List (Data F)}
    {ss : List (RecordedSourceSelection F)} {text : Str}
    (htext : Data.dumps core.py (Json.Layout.compact true) (.dict ms) = .ok text)
    (hwf : (Data.dict ms).WellFormed) (hshape : ReviewedShape ms items subject)
    (hhash : ∀ n, SameMembers ms n → core.canonicalHash (.dict n) = inventoryDigest)
    (h : recordedSelections core ms subject items = .ok ss) :
    ∃ ts, plannerSelections core (asciiBytes text) = .ok ts ∧
      List.Forall₂ SameSelection ss ts := by
  obtain ⟨hkeys, -⟩ := wellFormed_dict.mp hwf
  have hread := readJson_dumps Json.plain_compact htext
  have hreloaded := same_reloaded hwf
  rw [reloaded_dict] at hread hreloaded
  generalize Data.reloadedDict true ms = ns at hread hreloaded
  cases hreloaded with
  | dict hsame =>
    obtain ⟨hmaterials, -, items', hpair, hitems⟩ :=
      materialPair_same hsame hkeys hshape.materials
    have hitemsWf : (Data.list items).WellFormed := hmaterials ▸ wellFormed_get hwf _
    have hsubject := hsame.get_same hkeys (lit "subject_binding")
    have hsubjectWf := wellFormed_get hwf (lit "subject_binding")
    rw [hshape.subject] at hsubject hsubjectWf
    have hinventory : plannerInventory core (asciiBytes text) = .ok (ns, items') := by
      refine bind_eq_ok.mpr ⟨ns, readInventory_eq_ok.mpr hread, ?_⟩
      rw [if_pos, hpair]
      · rfl
      · have hheader := hshape.header.same hsame hkeys
        simp [Data.eqStr_iff, hheader.contract, hheader.inventoryId, hheader.inventoryVersion,
          hheader.sourceGroupId, hhash ns hsame]
    rw [plannerSelections, hinventory]
    dsimp only [bind, Except.bind]
    generalize get ns (lit "subject_binding") = subject' at hsubject
    cases hsubject with
    | dict hmembers =>
      exact (recordedSelections_same horder hsame hkeys hmembers
        (wellFormed_dict.mp hsubjectWf).1 hitems hitemsWf).exists_ok h

/-- An item of the reviewed inventory. -/
def reviewedItem (key uri price digest published observed claim : String) : Data Unit :=
  .dict [(lit "material_key", .str (lit key)), (lit "source_uri", .str (lit uri)),
    (lit "captured_payload_json", .str (lit "\x7b\"currency\":\"USD\"," ++
      lit "\"listed_price\":\"" ++ lit price ++ lit "\",\"product_name\":\"" ++
      lit "GPT-5.6 Terra input tokens per 1M" ++ lit "\"\x7d")),
    (lit "captured_payload_digest", .str (lit "sha256:" ++ lit digest)),
    (lit "source_published_at", .str (lit published)),
    (lit "event_effective_at", .str (lit published)), (lit "observed_at", .str (lit observed)),
    (lit "locator", .str (lit "section:availability-and-pricing#terra")),
    (lit "reviewed_claim", .str (lit claim))]

/-- The materials of the reviewed inventory. -/
def reviewedMaterials : List (Data Unit) :=
  [reviewedItem "openai_gpt_5_6_launch_terra_input_price" "https://openai.com/index/gpt-5-6/"
    "2.50" "44caaf4fd6e9483c5dcdc853b8267dbc14f0e64676600354424ad54c1d8ae2c4"
    "2026-07-09T00:00:00Z" "2026-08-13T18:00:00Z"
    ("The GPT-5.6 launch publication states Terra pricing of USD 2.50 input and " ++
      "USD 15 output per 1 million tokens."),
  reviewedItem "openai_gpt_5_6_price_performance_terra_input_price"
    "https://openai.com/index/advancing-the-price-performance-frontier-with-gpt-5-6/"
    "2.00" "40a75b55a2571fac73afc0aebe90545222183c43d81527184f1909210663b892"
    "2026-07-30T00:00:00Z" "2026-08-13T18:01:00Z"
    ("The July 30 price-performance publication states Terra pricing of USD 2 input and " ++
      "USD 12 output per 1 million tokens starting July 30, and describes Terra as " ++
      "20% less expensive.")]

/-- The members of the reviewed inventory. -/
def reviewedMembers : List (Str × Data Unit) :=
  [(lit "contract", .str (lit "ace.market-intelligence.recorded-source-inventory/v1alpha1")),
   (lit "inventory_id", .str (lit "openai_terra_price_progression")),
   (lit "inventory_version", .str (lit "0.8.0")),
   (lit "source_group_id", .str (lit "competitor_public_evidence")),
   (lit "mapping_id", .str (lit "product_price_snapshot")),
   (lit "subject_binding", inventorySubject),
   (lit "source_definition_ref", .str (lit "source_definition:openai-gpt-5-6-terra-pricing")),
   (lit "source_type_ref", .str (lit "public_product_page")),
   (lit "materials", .list reviewedMaterials),
   (lit "limitations", .list [
     .str (lit ("These are reviewed recorded materials for deterministic replay, not proof of " ++
       "a current network response or current pricing.")),
     .str (lit ("The publication dates are normalized day-level semantic coordinates because " ++
       "the pages disclose dates but not exact publication instants.")),
     .str (lit ("The root Domain Pack does not construct runtime activation-bound " ++
       "RecordedSourceMaterial identities or grant source access.")),
     .str (lit ("The separately packaged public-product adapter requires exact " ++
       "application/json and does not capture or extract these official HTML pages without " ++
       "a future reviewed transport/extraction contract."))])]

/-- `openai_terra_price_recorded_sources.json`. -/
def reviewedInventory : Data Unit := .dict reviewedMembers

/-- The canonical text of a value, which is hashed. -/
def canonicalText (x : Data Unit) : Str := Json.encode (Json.Layout.compact true) 0 x

/-- Core with the digest of the reviewed inventory, and constructors that accept it. -/
def reviewedCore : PlannerCore Unit (Str × Str × Str) Unit where
  core := { sampleCore with
    canonicalHash := fun x => if canonicalText x = canonicalText reviewedInventory then
      inventoryDigest else [] }
  planningCapability := lit "intelligence_build_planning"
  plannerContract := lit "ace.application.intelligence-build-planner/v1alpha3"
  packDump _ := .dict []
  acceptsSelection _ := true
  acceptsProposal _ := true
  acceptsPlan _ := true

/-- A request for the reviewed inventory. -/
def reviewedRequest : PlanRequest Unit where
  productId := lit "product"
  profileId := marketIntelligenceProfileId
  sourceGroupIds := [lit "competitor_public_evidence"]
  rest := ()

/-- The digest of the reviewed inventory has no collision. -/
theorem reviewedCore_pinned : reviewedCore.core.Pinned := by
  have htext (m : List (Str × Data Unit))
      (h : reviewedCore.core.canonicalHash (.dict m) = inventoryDigest) :
      canonicalText (.dict m) = canonicalText reviewedInventory := by
    unfold reviewedCore at h
    dsimp only at h
    split at h
    · assumption
    · exact absurd h (by decide)
  intro m n hmWf hnWf hm hn
  have hsame := (encode_eq_iff _ hmWf hnWf).mp ((htext m hm).trans (htext n hn).symm)
  cases hsame with
  | dict hmembers => exact hmembers

/-- The items of the reviewed inventory are well formed. -/
theorem reviewedItem_wellFormed (key uri price digest published observed claim : String) :
    (reviewedItem key uri price digest published observed claim).WellFormed := by
  have htext {s : Str} (hs : s.Encodable) : Json.NoSplitPair s := Json.noSplitPair_of_encodable hs
  refine wellFormed_dict.mpr ⟨by simp, ?_⟩
  simp [htext, encodable_lit, Data.WellFormed]

/-- The reviewed inventory is well formed. -/
theorem reviewedInventory_wellFormed : reviewedInventory.WellFormed := by
  have hkey (s : String) : Json.NoSplitPair (lit s) :=
    Json.noSplitPair_of_encodable (encodable_lit s)
  refine wellFormed_dict.mpr ⟨by simp [reviewedMembers], ?_⟩
  simp [reviewedMembers, reviewedMaterials, hkey, Data.WellFormed, wellFormedItems,
    wellFormedMembers, reviewedItem_wellFormed, inventorySubject, subjectBindingId, entityTypeId,
    entityRef]

/-- Every dictionary that is the reviewed inventory up to the order of members has its digest. -/
theorem reviewedInventory_hash {ns : List (Str × Data Unit)}
    (h : SameMembers reviewedMembers ns) :
    (reviewedCore.forProduct reviewedRequest.productId).canonicalHash (.dict ns) =
      inventoryDigest :=
  if_pos (encode_same (Json.Layout.compact true) 0 (.dict h) reviewedInventory_wellFormed).symm

/-- The selections of the reviewed inventory are made. -/
theorem reviewedInventory_selections : ∃ ss, recordedSelections
    (reviewedCore.forProduct reviewedRequest.productId) reviewedMembers
    [(lit "subject_binding_id", .str subjectBindingId), (lit "entity_type_id", .str entityTypeId),
      (lit "entity_ref", .str entityRef)] reviewedMaterials = .ok ss :=
  isOk_iff.mp (by decide +kernel)

end MarketIntelligence.Builder
