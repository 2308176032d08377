import MarketIntelligence.Builder.DirectionDelivery

/-!
# Deliveries of overwritten packages

`model_copy` overwrites fields of a validated package without validation. What is delivered is
bound to the current values; here is which overwrites are delivered at all. A package that was
not overwritten is never refused by its second validation, and one that keeps a part of its
identity is delivered exactly if every overwrite is read as the value that was there.
-/

namespace MarketIntelligence.Direction

open Python

variable {Ref Delivery : Type} {core : Core Ref}

/-- The delivery of a validated package. -/
def Application.deliver (app : Application core Delivery) (exact : Package core)
    (sourceManifest : Ref) (targetRef : Str) (preparedAt : Datetime) : Checked Delivery := do
  let artifact ← call (app.exactReference exact)
  let target ← bounded targetRef "target_ref" 240
  call (app.delivery {
    productId := exact.material.productId.val
    sourceManifest := sourceManifest
    artifacts := [artifact]
    targetRef := target.val
    preparedAt := preparedAt })

/-- The attributes of a validated package: each is dumped as in its dump. -/
def AttributesOf (p : Package core) (attributes : List (Str × Obj)) : Prop :=
  ∀ name ∈ packageFields, (attributes.lookup (lit name)).map Obj.dump = p.dump.lookup (lit name)

/-- `model_copy(update=update)`. -/
def modelCopy (attributes update : List (Str × Obj)) : List (Str × Obj) := update ++ attributes

/-- An object is delivered as the package that its dump is validated as. -/
theorem prepare_eq (core : Core Ref) (app : Application core Delivery)
    (object : List (Str × Obj)) (sourceManifest : Ref) (targetRef : Str) (preparedAt : Datetime) :
    prepareMarketDirectionDelivery core app object sourceManifest targetRef preparedAt =
      (packageOf core (modelDump object) >>= fun exact =>
        app.deliver exact sourceManifest targetRef preparedAt) := rfl

/-- The identity that the current values name. -/
structure Names (object : List (Str × Obj)) (p : Package core) : Prop where
  packageId : GivenAs (valueOf (modelDump object) "package_id" .none) p.packageId
  packageDigest : GivenAs (valueOf (modelDump object) "package_digest" .none) p.packageDigest

/-- What is delivered of an object with any attributes. -/
theorem prepare_eq_ok (hcore : core.Lawful) {app : Application core Delivery}
    {object : List (Str × Obj)} {sourceManifest : Ref} {targetRef : Str} {preparedAt : Datetime}
    {d : Delivery} :
    prepareMarketDirectionDelivery core app object sourceManifest targetRef preparedAt = .ok d ↔
      ∃ q : Package core, Holds (modelDump object) q.material ∧ Names object q ∧
        app.deliver q sourceManifest targetRef preparedAt = .ok d := by
  rw [prepare_eq, bind_eq_ok]
  constructor
  · rintro ⟨q, hq, hdelivered⟩
    obtain ⟨-, hholds, hid, hdigest⟩ := (packageOf_eq_ok hcore).mp hq
    exact ⟨q, hholds, ⟨hid, hdigest⟩, hdelivered⟩
  · rintro ⟨q, hholds, hnames, hdelivered⟩
    exact ⟨q, (packageOf_eq_ok hcore).mpr ⟨modelDump_declared object, hholds, hnames.packageId,
      hnames.packageDigest⟩, hdelivered⟩

/-! ### Fields that are not overwritten -/

/-- A declared field of a validated package is dumped as in its dump. -/
theorem AttributesOf.lookup {p : Package core} {attributes : List (Str × Obj)}
    (h : AttributesOf p attributes) {name : String} (hname : name ∈ packageFields) :
    (modelDump attributes).lookup (lit name) = p.dump.lookup (lit name) := by
  rw [lookup_modelDump hname, h name hname]

/-- A field that is not overwritten is as before. -/
theorem AttributesOf.lookup_copy {p : Package core} {attributes update : List (Str × Obj)}
    (h : AttributesOf p attributes) {name : String} (hname : name ∈ packageFields)
    (hkept : update.lookup (lit name) = none) :
    (modelDump (modelCopy attributes update)).lookup (lit name) = p.dump.lookup (lit name) := by
  rw [lookup_modelDump hname, modelCopy, List.lookup_append, hkept, Option.none_or, h name hname]

/-- Where no field of the material is overwritten, the material is as before. -/
theorem AttributesOf.holds_copy (hcore : core.Lawful) {p : Package core}
    {attributes update : List (Str × Obj)} (h : AttributesOf p attributes)
    (hkept : ∀ name ∈ materialFields, update.lookup (lit name) = none) :
    Holds (modelDump (modelCopy attributes update)) p.material := by
  rw [← materialOf_eq_ok, materialOf_congr fun name hname =>
    h.lookup_copy (List.mem_of_mem_filter hname) (hkept name hname)]
  exact materialOf_eq_ok.mpr (holds_dump hcore p)

/-- A value that is derived names its package. -/
theorem givenAs_of_lookup {object : List (Str × Obj)} {name : String} {derived : Str}
    (h : (modelDump object).lookup (lit name) = some (.str derived)) :
    GivenAs (valueOf (modelDump object) name .none) derived := by
  rw [valueOf, h]
  exact .inr (Obj.isText_str.mpr rfl)

/-- An identity that is not overwritten. -/
theorem AttributesOf.packageId_copy {p : Package core} {attributes update : List (Str × Obj)}
    (h : AttributesOf p attributes) (hkept : update.lookup (lit "package_id") = none) :
    (modelDump (modelCopy attributes update)).lookup (lit "package_id") =
      some (.str p.packageId) := by
  rw [h.lookup_copy (by simp [packageFields]) hkept]
  simp [Package.dump, lookup_cons_lit]

/-- A digest that is not overwritten. -/
theorem AttributesOf.packageDigest_copy {p : Package core} {attributes update : List (Str × Obj)}
    (h : AttributesOf p attributes) (hkept : update.lookup (lit "package_digest") = none) :
    (modelDump (modelCopy attributes update)).lookup (lit "package_digest") =
      some (.str p.packageDigest) := by
  rw [h.lookup_copy (by simp [packageFields]) hkept]
  simp [Package.dump, lookup_cons_lit]

/-! ### Overwrites -/

/-- The fields of a sample package are its attributes. -/
theorem attributesOf_samplePackage (reversed : Bool) :
    AttributesOf (samplePackage reversed) (samplePackage reversed).dump := by
  intro name hname
  rw [← lookup_modelDump hname]
  exact lookup_samplePackage reversed hname

/-- Overwriting the id leaves the material of a sample package. -/
theorem holds_overwrittenId (reversed : Bool) (id : Obj) :
    Holds (modelDump (modelCopy (samplePackage reversed).dump [(lit "package_id", id)]))
      (samplePackage reversed).material := by
  refine (attributesOf_samplePackage reversed).holds_copy sampleCore_lawful fun name hname => ?_
  have hne : name ≠ "package_id" := by
    simpa using (of_decide_eq_true (List.mem_filter.mp hname).2).1
  rw [lookup_cons_lit, if_neg hne]
  rfl

end MarketIntelligence.Direction
