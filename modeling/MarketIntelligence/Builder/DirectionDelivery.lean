import MarketIntelligence.Builder.DirectionIdentity

/-!
# The delivery of direction packages

`prepare_market_direction_delivery` on any object of the class, fields of which may have
been overwritten without validation. It validates the dump of the object again, so that
what it delivers is bound to the current values.
-/

namespace MarketIntelligence.Direction

open Python

variable {Ref Delivery : Type} {core : Core Ref}

/-- The arguments of `PreparedLifecycleDeliveryV1Alpha1`. -/
structure DeliveryRequest (Ref : Type) where
  productId : Str
  sourceManifest : Ref
  artifacts : List Ref
  targetRef : Str
  preparedAt : Datetime

/-- What the application layer of ACE contributes. `none` stands for an exception. -/
structure Application (core : Core Ref) (Delivery : Type) where
  /-- `lifecycle_exact_reference`. -/
  exactReference : Package core → Option Ref
  /-- `PreparedLifecycleDeliveryV1Alpha1`. -/
  delivery : DeliveryRequest Ref → Option Delivery
  productId : Delivery → Str
  artifacts : Delivery → List Ref

/-- A call of Core. -/
def call {α : Type} : Option α → Checked α
  | some a => .ok a
  | none => .error .foreign

/-- `package.model_dump(mode="python")` of an object with any attributes. -/
def modelDump (attributes : List (Str × Obj)) : List (Str × Obj) :=
  packageFields.filterMap fun field =>
    (attributes.lookup (lit field)).map fun o => (lit field, o.dump)

/-- `prepare_market_direction_delivery`, on an object with any attributes. -/
def prepareMarketDirectionDelivery (core : Core Ref) (app : Application core Delivery)
    (package : List (Str × Obj)) (sourceManifest : Ref) (targetRef : Str)
    (preparedAt : Datetime) : Checked Delivery := do
  let exact ← modelValidate core (.dict (modelDump package))
  let artifact ← call (app.exactReference exact)
  let target ← bounded targetRef "target_ref" 240
  call (app.delivery {
    productId := exact.material.productId.val
    sourceManifest := sourceManifest
    artifacts := [artifact]
    targetRef := target.val
    preparedAt := preparedAt })

/-- Documented behaviour: the reference copies id, digest and contract, and a delivery
keeps its arguments. -/
structure Application.Lawful (app : Application core Delivery) : Prop where
  exactReference_copies : ∀ p r, app.exactReference p = some r →
    core.artifactId r = p.packageId ∧ core.artifactDigest r = p.packageDigest ∧
      core.artifactContract r = directionPackageVersion
  delivery_keeps : ∀ request d, app.delivery request = some d →
    app.productId d = request.productId ∧ app.artifacts d = request.artifacts

/-- A call returns what Core returns. -/
theorem call_eq_ok {α : Type} {x : Option α} {a : α} : call x = .ok a ↔ x = some a := by
  cases x <;> simp [call]

/-- A declared field is dumped from the attribute of its name. -/
theorem lookup_modelDump {attributes : List (Str × Obj)} {name : String}
    (h : name ∈ packageFields) :
    (modelDump attributes).lookup (lit name) =
      (attributes.lookup (lit name)).map Obj.dump := by
  have hall (fields : List String) :
      (fields.filterMap fun field => (attributes.lookup (lit field)).map fun o =>
        (lit field, o.dump)).lookup (lit name) =
      if name ∈ fields then (attributes.lookup (lit name)).map Obj.dump else none := by
    induction fields with
    | nil => simp
    | cons field fields ih =>
      rw [List.filterMap_cons]
      by_cases hname : name = field
      · subst hname
        cases hlookup : attributes.lookup (lit name) with
        | none => simp [ih, hlookup]
        | some o => simp
      · cases hlookup : attributes.lookup (lit field) with
        | none => simp [ih, hname]
        | some o => simp [lookup_cons_lit, ih, hname]
  exact (hall packageFields).trans (if_pos h)

/-- A dump has declared fields only. -/
theorem modelDump_declared (attributes : List (Str × Obj)) :
    ∀ m ∈ modelDump attributes, m.1 ∈ packageFields.map lit := by
  intro m hm
  obtain ⟨field, hfield, hvalue⟩ := List.mem_filterMap.mp hm
  obtain ⟨o, -, rfl⟩ := Option.map_eq_some_iff.mp hvalue
  exact List.mem_map_of_mem hfield

/-- A text attribute is dumped as itself. -/
theorem holdsText_modelDump {attributes : List (Str × Obj)} {name : String} {s : Str}
    (h : name ∈ packageFields) :
    HoldsText (modelDump attributes) name s ↔ HoldsText attributes name s := by
  simp only [HoldsText, lookup_modelDump h]
  cases attributes.lookup (lit name) with
  | none => simp
  | some o => simp [Obj.isText_dump]

/-- An identity that is kept is the one that is named. -/
theorem eq_of_givenAs {object : List (Str × Obj)} {name : String} {kept derived : Str}
    (hkept : HoldsText (modelDump object) name kept)
    (h : GivenAs (valueOf (modelDump object) name .none) derived) : kept = derived := by
  obtain ⟨o, ho, htext⟩ := hkept
  have hstr : o.base = .str kept := htext
  rw [valueOf, ho, Option.getD_some, GivenAs, Obj.IsText, hstr] at h
  simpa using h

/-- A delivery is made for the package that the object is validated as. -/
theorem prepareMarketDirectionDelivery_eq_ok (hcore : core.Lawful)
    {app : Application core Delivery} {package : List (Str × Obj)} {sourceManifest : Ref}
    {targetRef : Str} {preparedAt : Datetime} {d : Delivery}
    (h : prepareMarketDirectionDelivery core app package sourceManifest targetRef preparedAt =
      .ok d) :
    ∃ (q : Package core) (artifact : Ref) (request : DeliveryRequest Ref),
      Holds (modelDump package) q.material ∧
      GivenAs (valueOf (modelDump package) "package_id" .none) q.packageId ∧
      GivenAs (valueOf (modelDump package) "package_digest" .none) q.packageDigest ∧
      app.exactReference q = some artifact ∧ app.delivery request = some d ∧
      request.productId = q.material.productId.val ∧ request.artifacts = [artifact] := by
  simp only [prepareMarketDirectionDelivery, bind_eq_ok, call_eq_ok] at h
  obtain ⟨q, hq, artifact, hartifact, target, -, hdelivery⟩ := h
  obtain ⟨-, hholds, hid, hdigest⟩ := (packageOf_eq_ok hcore).mp hq
  exact ⟨q, artifact, _, hholds, hid, hdigest, hartifact, hdelivery, rfl, rfl⟩

/-- The current values of an object determine its material. -/
theorem holds_unique {fields : List (Str × Obj)} {m n : Material core} (hm : Holds fields m)
    (hn : Holds fields n) : m = n :=
  Except.ok.inj ((materialOf_eq_ok.mpr hm).symm.trans (materialOf_eq_ok.mpr hn))

/-- An application that keeps what it is given. -/
def sampleApplication :
    Application (coreWith sampleHash) (DeliveryRequest SampleReference) where
  exactReference p := some ⟨p.packageId, p.packageDigest, directionPackageVersion⟩
  delivery := some
  productId := DeliveryRequest.productId
  artifacts := DeliveryRequest.artifacts

/-- It keeps the laws. -/
theorem sampleApplication_lawful : sampleApplication.Lawful where
  exactReference_copies p r h := by
    obtain rfl := Option.some.inj h
    exact ⟨rfl, rfl, rfl⟩
  delivery_keeps request d h := by
    obtain rfl := Option.some.inj h
    exact ⟨rfl, rfl⟩

/-- The other package, with the id of the first one. -/
def forgedPackage : List (Str × Obj) :=
  (lit "package_id", .str (samplePackage false).packageId) :: (samplePackage true).dump

/-- Dumped texts are dumped as themselves. -/
@[simp] theorem dump_textsObj (texts : List Str) : (textsObj texts).dump = textsObj texts := by
  have hitems : Obj.dumpItems (texts.map .str) = texts.map .str := by
    induction texts with
    | nil => rfl
    | cons t texts ih => simp [Obj.dumpItems, Obj.dump, ih]
  rw [textsObj, Obj.dump, hitems]

/-- So are the values of a sample package. -/
theorem dump_samplePackage (reversed : Bool) :
    ∀ m ∈ (samplePackage reversed).dump, m.2.dump = m.2 := by
  have hclaims : Obj.dumpItems ((samplePackage reversed).material.approvedClaims.val.map
      Claim.dump) = (samplePackage reversed).material.approvedClaims.val.map Claim.dump := rfl
  simp only [Package.dump, List.forall_mem_cons, dump_textsObj, Obj.dump, hclaims]
  simp [coreWith, SampleReference.dump, Obj.dump, Obj.dumpMembers]

/-- An object with the attributes of a sample package is dumped to its fields. -/
theorem lookup_samplePackage (reversed : Bool) {name : String} (h : name ∈ packageFields) :
    (modelDump (samplePackage reversed).dump).lookup (lit name) =
      (samplePackage reversed).dump.lookup (lit name) := by
  rw [lookup_modelDump h]
  cases hlookup : (samplePackage reversed).dump.lookup (lit name) with
  | none => rfl
  | some o =>
    obtain ⟨l, r, hmem, -⟩ := List.lookup_eq_some_iff.mp hlookup
    have hdump := dump_samplePackage reversed (lit name, o) (by rw [hmem]; simp)
    rw [Option.map_some, hdump]

/-- Only the id is forged. -/
theorem holds_forgedPackage : Holds (modelDump forgedPackage) (samplePackage true).material := by
  rw [← materialOf_eq_ok]
  have hsame : materialOf (coreWith sampleHash) (modelDump forgedPackage) =
      materialOf (coreWith sampleHash) (samplePackage true).dump := by
    refine materialOf_congr fun name hname => ?_
    obtain ⟨hfield, hother⟩ := List.mem_filter.mp hname
    have hne : name ≠ "package_id" := by
      simpa using (of_decide_eq_true hother).1
    rw [← lookup_samplePackage true hfield, lookup_modelDump hfield, lookup_modelDump hfield,
      forgedPackage, lookup_cons_lit, if_neg hne]
  rw [hsame]
  exact materialOf_eq_ok.mpr (holds_dump sampleCore_lawful (samplePackage true))

/-- The manifest of the sample delivery. -/
def sampleManifest : SampleReference :=
  ⟨lit "manifest:market-direction", lit "sha256:" ++ List.replicate 64 (Chr.ofChar '4'),
    lit "ace.core.stage-run-manifest/v1alpha1"⟩

/-- The preparation of a sample delivery. -/
def prepareSample (package : List (Str × Obj)) : Checked (DeliveryRequest SampleReference) :=
  prepareMarketDirectionDelivery (coreWith sampleHash) sampleApplication package sampleManifest
    (lit "ac5_delivery_gate:market-direction") (.aware Datetime.utcZone sampleTime false)

/-- A sample package is delivered. -/
theorem exists_prepareSample (reversed : Bool) :
    ∃ d, prepareSample (samplePackage reversed).dump = .ok d := by
  have hlookup {name : String} (h : name ∈ packageFields) := lookup_samplePackage reversed h
  have hholds : Holds (modelDump (samplePackage reversed).dump)
      (samplePackage reversed).material := by
    rw [← materialOf_eq_ok,
      materialOf_congr fun name hname => hlookup (List.mem_of_mem_filter hname)]
    exact materialOf_eq_ok.mpr (holds_dump sampleCore_lawful (samplePackage reversed))
  have hvalidate : modelValidate (coreWith sampleHash)
      (.dict (modelDump (samplePackage reversed).dump)) = .ok (samplePackage reversed) := by
    refine (packageOf_eq_ok sampleCore_lawful).mpr
      ⟨modelDump_declared _, hholds, .inr ?_, .inr ?_⟩
    · rw [valueOf, hlookup (by simp [packageFields])]
      simp [Package.dump, lookup_cons_lit]
    · rw [valueOf, hlookup (by simp [packageFields])]
      simp [Package.dump, lookup_cons_lit]
  have htarget : Bounded (lit "ac5_delivery_gate:market-direction") 240 := by decide +kernel
  refine ⟨⟨(samplePackage reversed).material.productId.val, sampleManifest,
    [⟨(samplePackage reversed).packageId, (samplePackage reversed).packageDigest,
      directionPackageVersion⟩], lit "ac5_delivery_gate:market-direction",
    .aware Datetime.utcZone sampleTime false⟩, ?_⟩
  unfold prepareSample prepareMarketDirectionDelivery
  rw [hvalidate, bounded, dif_pos htarget]
  rfl

end MarketIntelligence.Direction
