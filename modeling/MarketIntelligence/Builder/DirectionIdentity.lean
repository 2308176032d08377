import MarketIntelligence.Builder.DirectionPackage
import MarketIntelligence.Python.Files

/-!
# The identity of direction packages

What an input must hold to be validated, field by field. From this follow the three laws
of content addressing: packages have the same identity exactly if they agree in all other
fields, an identity is accepted exactly if it is the derived one, and what was validated
is validated again as itself.
-/

namespace MarketIntelligence.Direction

open Python

variable {Ref : Type} {core : Core Ref} {α : Type}

/-! ### Reading -/

/-- An exception is no result. -/
@[simp] theorem valueError_ne_ok {message : Str} {a : α} :
    valueError message = .ok a ↔ False := by simp [valueError]

/-- Nor is another one. -/
@[simp] theorem fieldError_ne_ok {name : String} {a : α} :
    fieldError name = .ok a ↔ False := by simp [fieldError]

/-- A required field is there. -/
theorem required_eq_ok {read : Obj → Checked α} {fields : List (Str × Obj)} {name : String}
    {a : α} : required read fields name = .ok a ↔
      ∃ o, fields.lookup (lit name) = some o ∧ read o = .ok a := by
  unfold required
  cases fields.lookup (lit name) <;> simp

/-- All fields are declared. -/
theorem forbidExtra_eq_ok {fields : List (Str × Obj)} {declared : List String} {u : Unit} :
    forbidExtra fields declared = .ok u ↔ ∀ m ∈ fields, m.1 ∈ declared.map lit := by
  unfold forbidExtra
  cases h : fields.find? fun m => !decide (m.1 ∈ declared.map lit) with
  | none =>
    have hall := List.find?_eq_none.mp h
    simpa using hall
  | some m =>
    have hm := List.find?_some h
    have hmem := List.mem_of_find?_eq_some h
    simp only [fieldError_ne_ok, false_iff]
    intro hall
    simp [hall m hmem] at hm

/-- A declared string is a string. -/
theorem readStr_eq_ok {name : String} {o : Obj} {s : Str} :
    readStr name o = .ok s ↔ o.IsText s := by
  unfold readStr Obj.IsText
  cases o.base <;> simp

/-- `_bounded` returns the value. -/
theorem bounded_eq_ok {value : Str} {name : String} {maximum : ℕ}
    {s : {s : Str // s = value ∧ Bounded s maximum}} :
    bounded value name maximum = .ok s ↔ s.val = value := by
  obtain ⟨s, rfl, hs⟩ := s
  simp [bounded, hs]

/-- `_unique` returns the values. -/
theorem unique_eq_ok {values : List Str} {name : String}
    {xs : {xs : List Str // xs = values ∧ (∀ x ∈ xs, Bounded x 4000) ∧ xs.Nodup}} :
    unique values name = .ok xs ↔ xs.val = values := by
  obtain ⟨xs, rfl, hbounded, hnodup⟩ := xs
  simp only [unique, dif_pos hbounded, dif_pos hnodup]

/-- A text field is the text. -/
theorem readText_eq_ok {name : String} {maximum : ℕ} {o : Obj} {s : BoundedText maximum} :
    readText name maximum o = .ok s ↔ o.IsText s.val := by
  obtain ⟨s, hs⟩ := s
  simp only [readText, bind_eq_ok, readStr_eq_ok, bounded_eq_ok, pure_eq_ok, Except.ok.injEq]
  constructor
  · rintro ⟨value, hvalue, text, htext, heq⟩
    rwa [← show text.val = s from congrArg Subtype.val heq, htext]
  · intro hs'
    exact ⟨s, hs', ⟨s, rfl, hs⟩, rfl, rfl⟩

/-- A prose field is the text. -/
theorem readProse_eq_ok {name : String} {o : Obj} {s : Prose} :
    readProse name o = .ok s ↔ o.IsText s.val := by
  obtain ⟨s, hencodable, hs⟩ := s
  simp only [readProse, bind_eq_ok, readStr_eq_ok]
  constructor
  · rintro ⟨value, hvalue, h⟩
    split at h
    · obtain ⟨text, htext, heq⟩ := bind_eq_ok.mp h
      rwa [← show text.val = s from congrArg Subtype.val (Except.ok.inj heq),
        bounded_eq_ok.mp htext]
    · simp at h
  · intro hs'
    refine ⟨s, hs', ?_⟩
    rw [dif_pos ⟨hencodable, hs.2.2⟩]
    exact bind_eq_ok.mpr ⟨⟨s, rfl, hs⟩, bounded_eq_ok.mpr rfl, rfl⟩

/-- The items of a tuple are read one by one. -/
theorem readItems_eq_ok {item : Obj → Checked α} {xs : List Obj} {ys : List α} :
    readItems item xs = .ok ys ↔ List.Forall₂ (fun x y => item x = .ok y) xs ys := by
  induction xs generalizing ys with
  | nil => cases ys <;> simp [readItems]
  | cons x xs ih =>
    simp only [readItems, bind_eq_ok, pure_eq_ok, Except.ok.injEq, ih]
    constructor
    · rintro ⟨y, hy, zs, hzs, rfl⟩
      exact .cons hy hzs
    · intro h
      cases h with
      | cons hy hzs => exact ⟨_, hy, _, hzs, rfl⟩

/-- A tuple field is a tuple of such items. -/
theorem readTuple_eq_ok {item : Obj → Checked α} {name : String} {minimum maximum : ℕ} {o : Obj}
    {ys : Within α minimum maximum} : readTuple item name minimum maximum o = .ok ys ↔
      ∃ xs, o.base = .tuple xs ∧ List.Forall₂ (fun x y => item x = .ok y) xs ys.val := by
  obtain ⟨ys, hys⟩ := ys
  unfold readTuple
  cases o.base with
  | tuple xs =>
    simp only [bind_eq_ok, readItems_eq_ok, Obj.tuple.injEq, exists_eq_left']
    constructor
    · rintro ⟨zs, hzs, h⟩
      split at h
      · rwa [← show zs = ys from congrArg Subtype.val (Except.ok.inj h)]
      · simp at h
    · intro h
      exact ⟨ys, h, dif_pos hys⟩
  | _ => simp

/-- The texts of a tuple of them. -/
theorem isTexts_textsObj (texts : List Str) : (textsObj texts).IsTexts texts := by
  refine ⟨texts.map .str, rfl, ?_⟩
  exact List.forall₂_map_left_iff.mpr (List.forall₂_same.mpr fun t _ => Obj.isText_str.mpr rfl)

/-- A section is the tuple of its texts. -/
theorem readSection_eq_ok {name : String} {minimum maximum : ℕ} {o : Obj}
    {xs : Section minimum maximum} :
    readSection name minimum maximum o = .ok xs ↔ o.IsTexts xs.val := by
  obtain ⟨xs, hlength, hxs⟩ := xs
  simp only [readSection, bind_eq_ok, readTuple_eq_ok, readStr_eq_ok, unique_eq_ok, pure_eq_ok,
    Except.ok.injEq, Obj.IsTexts]
  constructor
  · rintro ⟨values, hvalues, texts, htexts, heq⟩
    rwa [← show texts.val = xs from congrArg Subtype.val heq, htexts]
  · intro htexts
    exact ⟨⟨xs, hlength⟩, htexts, ⟨xs, rfl, hxs⟩, rfl, rfl⟩

/-- A literal field equals the literal. -/
theorem readLiteral_eq_ok {name : String} {value : Str} {o : Obj} {u : Unit} :
    readLiteral name value o = .ok u ↔ o.equalsStr value = true := by
  unfold readLiteral
  cases o.equalsStr value <;> simp

/-- A field that is always false equals `False`. -/
theorem readFalse_eq_ok {name : String} {o : Obj} {u : Unit} :
    readFalse name o = .ok u ↔ o.equalsFalse = true := by
  unfold readFalse
  cases o.equalsFalse <;> simp

/-- `0` is taken for `False`. -/
example : readFalse "delivery_authority" (.int 0) = .ok () := rfl

/-- A time is an aware datetime that can be written in UTC. -/
theorem readTime_eq_ok {name : String} {o : Obj} {u : UtcTime} :
    readTime name o = .ok u ↔
      ∃ t : AwareDatetime, o.base.IsAware t ∧ t.astimezoneUtc = some u.val := by
  unfold readTime
  cases o.base with
  | datetime t =>
    cases t with
    | aware zone t folds =>
      simp only [Obj.isAware_aware, exists_eq_left']
      split
      · next v hv => simp [hv, Subtype.ext_iff]
      · next hnone => simp [hnone]
    | raising zone wall e => by_cases h : e.caughtBy .valueError <;> simp [h, Obj.IsAware]
    | _ => simp [Obj.IsAware]
  | _ => simp [Obj.IsAware]

/-- A reference field holds a reference. -/
theorem readReference_eq_ok {o : Obj} {r : Ref} :
    readReference core o = .ok r ↔ core.reference o = some r := by
  unfold readReference
  cases core.reference o <;> simp

/-- Citations are kept. -/
theorem validateCitations_eq_ok {citations : Within Ref 1 32}
    {cs : {cs : List Ref // (1 ≤ cs.length ∧ cs.length ≤ 32) ∧ (cs.map core.identity).Nodup}} :
    validateCitations core citations = .ok cs ↔ cs.val = citations.val := by
  obtain ⟨cs, hlength, hcs⟩ := cs
  obtain ⟨citations, hcitations⟩ := citations
  constructor
  · intro h
    unfold validateCitations at h
    split at h
    · exact (congrArg Subtype.val (Except.ok.inj h)).symm
    · simp at h
  · rintro rfl
    exact dif_pos hcs

/-- Claims are kept. -/
theorem uniqueClaims_eq_ok {claims : Within (Claim core) 1 64}
    {cs : {cs : List (Claim core) // (1 ≤ cs.length ∧ cs.length ≤ 64) ∧
      (cs.map fun c => c.claimId.val).Nodup}} :
    uniqueClaims core claims = .ok cs ↔ cs.val = claims.val := by
  obtain ⟨cs, hlength, hcs⟩ := cs
  obtain ⟨claims, hclaims⟩ := claims
  constructor
  · intro h
    unfold uniqueClaims at h
    split at h
    · exact (congrArg Subtype.val (Except.ok.inj h)).symm
    · simp at h
  · rintro rfl
    exact dif_pos hcs

/-- A reference with the wanted contract is kept. -/
theorem exactContract_eq_ok {r : Ref} {contract message : String}
    {s : {r : Ref // core.artifactContract r = lit contract}} :
    exactContract core r contract message = .ok s ↔ s.val = r := by
  obtain ⟨s, hs⟩ := s
  constructor
  · intro h
    unfold exactContract at h
    split at h
    · exact (congrArg Subtype.val (Except.ok.inj h)).symm
    · simp at h
  · rintro rfl
    exact dif_pos hs

/-! ### What inputs hold -/

/-- An object is a tuple of objects from which items are read. -/
def HoldsItems (item : Obj → Checked α) (o : Obj) (ys : List α) : Prop :=
  ∃ xs, o.base = .tuple xs ∧ List.Forall₂ (fun x y => item x = .ok y) xs ys

/-- A field holds a text. -/
def HoldsText (fields : List (Str × Obj)) (name : String) (s : Str) : Prop :=
  ∃ o, fields.lookup (lit name) = some o ∧ o.IsText s

/-- A field holds a tuple of texts. -/
def HoldsTexts (fields : List (Str × Obj)) (name : String) (texts : List Str) : Prop :=
  ∃ o, fields.lookup (lit name) = some o ∧ o.IsTexts texts

/-- The values of the fields of a claim. -/
structure HoldsClaim (fields : List (Str × Obj)) (c : Claim core) : Prop where
  declared : ∀ m ∈ fields, m.1 ∈ claimFields.map lit
  claimId : HoldsText fields "claim_id" c.claimId.val
  statement : HoldsText fields "statement" c.statement.val
  citations : ∃ o, fields.lookup (lit "citations") = some o ∧
    HoldsItems (readReference core) o c.citations.val
  approvalRef : HoldsText fields "approval_ref" c.approvalRef.val
  limitations : (valueOf fields "limitations" (.tuple [])).IsTexts c.limitations.val
  status : (valueOf fields "status" (.str (lit "approved"))).equalsStr (lit "approved") = true

/-- A claim is read from exactly the fields that hold it. -/
theorem claimOf_eq_ok {fields : List (Str × Obj)} {c : Claim core} :
    claimOf core fields = .ok c ↔ HoldsClaim fields c := by
  simp only [claimOf, bind_eq_ok, forbidExtra_eq_ok, required_eq_ok, readText_eq_ok,
    readProse_eq_ok, readTuple_eq_ok, readSection_eq_ok, readLiteral_eq_ok,
    validateCitations_eq_ok, pure_eq_ok, Except.ok.injEq]
  constructor
  · rintro ⟨_, hdeclared, claimId, hclaimId, statement, hstatement, items,
      ⟨o, ho, hitems⟩, approvalRef, happroval, limitations, hlimitations, _, hstatus,
      citations, hcitations, rfl⟩
    exact {
      declared := hdeclared
      claimId := hclaimId
      statement := hstatement
      citations := ⟨o, ho, by rw [hcitations]; exact hitems⟩
      approvalRef := happroval
      limitations := hlimitations
      status := hstatus }
  · intro h
    obtain ⟨o, ho, hitems⟩ := h.citations
    exact ⟨(), h.declared, _, h.claimId, _, h.statement,
      ⟨c.citations.val, c.citations.property.1⟩, ⟨o, ho, hitems⟩, _, h.approvalRef, _,
      h.limitations, (), h.status, _, rfl, rfl⟩

/-- The values of the fields of a package, but for its identity. -/
structure Holds (fields : List (Str × Obj)) (m : Material core) : Prop where
  contract : (valueOf fields "contract" (.str directionPackageVersion)).equalsStr
    directionPackageVersion = true
  productId : HoldsText fields "product_id" m.productId.val
  sourceBrief : ∃ o, fields.lookup (lit "source_brief") = some o ∧
    core.reference o = some m.sourceBrief.val
  decision : ∃ o, fields.lookup (lit "decision") = some o ∧ core.reference o = some m.decision.val
  objective : HoldsText fields "objective" m.objective.val
  audience : HoldsTexts fields "audience" m.audience.val
  storyArchitecture : HoldsTexts fields "story_architecture" m.storyArchitecture.val
  contentHierarchy : HoldsTexts fields "content_hierarchy" m.contentHierarchy.val
  approvedClaims : ∃ o, fields.lookup (lit "approved_claims") = some o ∧
    HoldsItems (readClaim core) o m.approvedClaims.val
  constraints : HoldsTexts fields "constraints" m.constraints.val
  openQuestions : (valueOf fields "open_questions" (.tuple [])).IsTexts m.openQuestions.val
  requiredAssets : HoldsTexts fields "required_assets" m.requiredAssets.val
  deliveryAuthority : (valueOf fields "delivery_authority" (.bool false)).equalsFalse = true
  externalEffectOccurred :
    (valueOf fields "external_effect_occurred" (.bool false)).equalsFalse = true
  preparedAt : ∃ o, fields.lookup (lit "prepared_at") = some o ∧
    ∃ t : AwareDatetime, o.base.IsAware t ∧ t.astimezoneUtc = some m.preparedAt.val

/-- The material is read from exactly the fields that hold it. -/
theorem materialOf_eq_ok {fields : List (Str × Obj)} {m : Material core} :
    materialOf core fields = .ok m ↔ Holds fields m := by
  simp only [materialOf, bind_eq_ok, required_eq_ok, readText_eq_ok, readProse_eq_ok,
    readTuple_eq_ok, readSection_eq_ok, readLiteral_eq_ok, readFalse_eq_ok, readTime_eq_ok,
    readReference_eq_ok, exactContract_eq_ok, uniqueClaims_eq_ok, pure_eq_ok, Except.ok.injEq]
  constructor
  · rintro ⟨_, hcontract, productId, hproductId, brief, hbrief, decision, hdecision,
      objective, hobjective, audience, haudience, story, hstory, hierarchy, hhierarchy, items,
      ⟨o, ho, hitems⟩, constraints, hconstraints, questions, hquestions, assets, hassets, _,
      hauthority, _, heffect, preparedAt, hprepared, exactBrief, hexactBrief, exactDecision,
      hexactDecision, claims, hclaims, rfl⟩
    exact {
      contract := hcontract
      productId := hproductId
      sourceBrief := by rw [hexactBrief]; exact hbrief
      decision := by rw [hexactDecision]; exact hdecision
      objective := hobjective
      audience := haudience
      storyArchitecture := hstory
      contentHierarchy := hhierarchy
      approvedClaims := ⟨o, ho, by rw [hclaims]; exact hitems⟩
      constraints := hconstraints
      openQuestions := hquestions
      requiredAssets := hassets
      deliveryAuthority := hauthority
      externalEffectOccurred := heffect
      preparedAt := hprepared }
  · intro h
    obtain ⟨o, ho, hitems⟩ := h.approvedClaims
    exact ⟨(), h.contract, _, h.productId, _, h.sourceBrief, _, h.decision, _, h.objective, _,
      h.audience, _, h.storyArchitecture, _, h.contentHierarchy,
      ⟨m.approvedClaims.val, m.approvedClaims.property.1⟩, ⟨o, ho, hitems⟩, _, h.constraints, _,
      h.openQuestions, _, h.requiredAssets, (), h.deliveryAuthority, (), h.externalEffectOccurred,
      _, h.preparedAt, _, rfl, _, rfl, _, rfl, rfl⟩

/-! ### Laws of what validation rests on -/

/-- Documented behaviour of Core: references survive dumping and validation, JSON forms
are injective, and a hash has 64 digits. -/
structure Core.Lawful (core : Core Ref) : Prop where
  reference_dump : ∀ r, core.reference (core.dump r) = some r
  json_injective : Function.Injective core.json
  datetimeJson_injective :
    ∀ s t : UtcTime, core.datetimeJson s.val = core.datetimeJson t.val → s = t
  hash_length : ∀ m digits, core.canonicalHash m = some digits → digits.length = 64

/-- No collision among some data, not even on the first 32 digits. -/
def Core.CollisionFree (core : Core Ref) (S : Set JsonData) : Prop :=
  ∀ x ∈ S, ∀ y ∈ S, ∀ dx dy, core.canonicalHash x = some dx → core.canonicalHash y = some dy →
    dx.take 32 = dy.take 32 → x = y

/-! ### Validation -/

/-- A derived digest has the declared pattern. -/
theorem isDigest_expectedDigest {digits : List (Fin 16)} (h : digits.length = 64) :
    isDigest (expectedDigest digits) = true := by
  have hseven : (lit "sha256:").length = 7 := rfl
  have hdigit : ∀ d : Fin 16, ((Json.hexDigit d.val).isDigit ||
      (decide (0x61 ≤ (Json.hexDigit d.val).ord) && decide ((Json.hexDigit d.val).ord ≤ 0x66))) =
      true := by decide
  have hdrop : (expectedDigest digits).drop 7 = hexText digits := by
    rw [expectedDigest, ← hseven, List.drop_left]
  have htake : (expectedDigest digits).take 7 = lit "sha256:" := by
    rw [expectedDigest, ← hseven, List.take_left]
  rw [isDigest, htake, hdrop]
  simp only [decide_true, Bool.true_and, Bool.and_eq_true, decide_eq_true_eq, List.all_eq_true]
  refine ⟨by rw [hexText, List.length_map, h], fun c hc => ?_⟩
  obtain ⟨d, -, rfl⟩ := List.mem_map.mp hc
  exact hdigit d

/-- An optional field is `None` or a text that passes its check. -/
theorem readOptional_eq_ok {name : String} {check : Str → Bool} {o : Obj} {value : Option Str} :
    readOptional name check o = .ok value ↔
      o.base = .none ∧ value = none ∨ ∃ s, o.IsText s ∧ check s = true ∧ value = some s := by
  unfold readOptional Obj.IsText
  cases o.base with
  | none =>
    constructor
    · intro h
      exact .inl ⟨rfl, (Except.ok.inj h).symm⟩
    · rintro (⟨-, rfl⟩ | ⟨s, hs, -⟩)
      · rfl
      · cases hs
  | str s =>
    constructor
    · intro h
      by_cases hcheck : check s = true
      · simp only [hcheck, if_true, Except.ok.injEq] at h
        exact .inr ⟨s, rfl, hcheck, h.symm⟩
      · simp [hcheck] at h
    · rintro (⟨hnone, -⟩ | ⟨t, ht, hcheck, rfl⟩)
      · cases hnone
      · obtain rfl := Obj.str.inj ht
        exact if_pos hcheck
  | _ => simp

/-- The identity is derived, and what was given must be it. -/
theorem identified_eq_ok {material : Material core} {givenId givenDigest : Option Str}
    {p : Package core} : identified core material givenId givenDigest = .ok p ↔
      p.material = material ∧ (givenId = none ∨ givenId = some p.packageId) ∧
        (givenDigest = none ∨ givenDigest = some p.packageDigest) := by
  constructor
  · intro h
    unfold identified at h
    split at h
    · simp at h
    · next digits hdigits =>
      split at h
      · simp at h
      · next hid =>
        split at h
        · simp at h
        · next hdigest =>
          obtain rfl := Except.ok.inj h
          exact ⟨rfl, by tauto, by tauto⟩
  · rintro ⟨rfl, hid, hdigest⟩
    obtain ⟨digits, hdigits, hpackageId, hpackageDigest⟩ := p.identity
    unfold identified
    split
    · next hnone =>
      rw [hdigits] at hnone
      cases hnone
    · next other hother =>
      obtain rfl : digits = other := by simpa [hdigits] using hother
      rw [hpackageId] at hid
      rw [hpackageDigest] at hdigest
      rw [if_neg (by tauto), if_neg (by tauto)]
      exact congrArg Except.ok (Package.ext rfl hpackageId.symm hpackageDigest.symm)

/-- What an identity field may hold. -/
def GivenAs (o : Obj) (derived : Str) : Prop := o.base = .none ∨ o.IsText derived

/-- A package is read from exactly the fields that hold its material, where an identity
is not given or the derived one. -/
theorem packageOf_eq_ok (hcore : core.Lawful) {fields : List (Str × Obj)} {p : Package core} :
    packageOf core fields = .ok p ↔
      (∀ m ∈ fields, m.1 ∈ packageFields.map lit) ∧ Holds fields p.material ∧
        GivenAs (valueOf fields "package_id" .none) p.packageId ∧
        GivenAs (valueOf fields "package_digest" .none) p.packageDigest := by
  simp only [packageOf, bind_eq_ok, forbidExtra_eq_ok, readOptional_eq_ok, materialOf_eq_ok,
    identified_eq_ok, GivenAs]
  constructor
  · rintro ⟨_, hdeclared, givenId, hid, givenDigest, hdigest, material, hholds, rfl, hsameId,
      hsameDigest⟩
    refine ⟨hdeclared, hholds, ?_, ?_⟩
    · obtain ⟨hnone, -⟩ | ⟨s, hs, -, rfl⟩ := hid
      · exact .inl hnone
      · obtain rfl : s = p.packageId := by simpa using hsameId
        exact .inr hs
    · obtain ⟨hnone, -⟩ | ⟨s, hs, -, rfl⟩ := hdigest
      · exact .inl hnone
      · obtain rfl : s = p.packageDigest := by simpa using hsameDigest
        exact .inr hs
  · rintro ⟨hdeclared, hholds, hid, hdigest⟩
    have hpattern : isDigest p.packageDigest = true := by
      obtain ⟨digits, hdigits, -, hpackageDigest⟩ := p.identity
      rw [hpackageDigest]
      exact isDigest_expectedDigest (hcore.hash_length _ _ hdigits)
    obtain hid | hid := hid <;> obtain hdigest | hdigest := hdigest
    · exact ⟨(), hdeclared, none, .inl ⟨hid, rfl⟩, none, .inl ⟨hdigest, rfl⟩, p.material, hholds,
        rfl, .inl rfl, .inl rfl⟩
    · exact ⟨(), hdeclared, none, .inl ⟨hid, rfl⟩, _, .inr ⟨_, hdigest, hpattern, rfl⟩, p.material,
        hholds, rfl, .inl rfl, .inr rfl⟩
    · exact ⟨(), hdeclared, _, .inr ⟨_, hid, trivial, rfl⟩, none, .inl ⟨hdigest, rfl⟩, p.material,
        hholds, rfl, .inr rfl, .inl rfl⟩
    · exact ⟨(), hdeclared, _, .inr ⟨_, hid, trivial, rfl⟩, _, .inr ⟨_, hdigest, hpattern, rfl⟩,
        p.material, hholds, rfl, .inr rfl, .inr rfl⟩

/-! ### Agreement -/

/-- Two materials agree in every field; the times are compared as instants. -/
structure Material.Agrees (m n : Material core) : Prop where
  productId : m.productId = n.productId
  sourceBrief : m.sourceBrief = n.sourceBrief
  decision : m.decision = n.decision
  objective : m.objective = n.objective
  audience : m.audience = n.audience
  storyArchitecture : m.storyArchitecture = n.storyArchitecture
  contentHierarchy : m.contentHierarchy = n.contentHierarchy
  approvedClaims : m.approvedClaims = n.approvedClaims
  constraints : m.constraints = n.constraints
  openQuestions : m.openQuestions = n.openQuestions
  requiredAssets : m.requiredAssets = n.requiredAssets
  preparedAt : m.preparedAt.val.instant = n.preparedAt.val.instant

/-- Times are stored in UTC, so that agreement is equality. -/
theorem agrees_iff {m n : Material core} : m.Agrees n ↔ m = n := by
  constructor
  · intro h
    have htime : m.preparedAt = n.preparedAt := Subtype.ext
      (AwareDatetime.eq_of_instant_eq m.preparedAt.property n.preparedAt.property h.preparedAt)
    exact Material.ext h.productId h.sourceBrief h.decision h.objective h.audience
      h.storyArchitecture h.contentHierarchy h.approvedClaims h.constraints h.openQuestions
      h.requiredAssets htime
  · rintro rfl
    exact ⟨rfl, rfl, rfl, rfl, rfl, rfl, rfl, rfl, rfl, rfl, rfl, rfl⟩

/-- The JSON form of a list of texts is injective. -/
theorem textsJson_inj {xs ys : List Str} : textsJson xs = textsJson ys ↔ xs = ys := by
  constructor
  · intro h
    have hmap : xs.map (Data.str (F := Unit)) = ys.map Data.str := by
      simpa only [textsJson, Data.list.injEq] using h
    exact List.map_injective_iff.mpr (fun _ _ hst => by simpa using hst) hmap
  · rintro rfl
    rfl

/-- The JSON form of a claim is injective. -/
theorem claimJson_inj (hcore : core.Lawful) {c d : Claim core} (h : c.json = d.json) : c = d := by
  simp only [Claim.json, Data.dict.injEq, List.cons.injEq, Prod.mk.injEq, true_and, and_true,
    Data.str.injEq, Data.list.injEq, textsJson_inj] at h
  obtain ⟨hclaimId, hstatement, hcitations, happroval, hlimitations⟩ := h
  have hcited := List.map_injective_iff.mpr hcore.json_injective hcitations
  exact Claim.ext (Subtype.ext hclaimId) (Subtype.ext hstatement) (Subtype.ext hcited)
    (Subtype.ext happroval) (Subtype.ext hlimitations)

/-- The JSON form of a material is injective. -/
theorem materialJson_inj (hcore : core.Lawful) {m n : Material core} (h : m.json = n.json) :
    m = n := by
  simp only [Material.json, Data.dict.injEq, List.cons.injEq, Prod.mk.injEq, true_and, and_true,
    Data.str.injEq, Data.list.injEq, textsJson_inj] at h
  obtain ⟨hproduct, hbrief, hdecision, hobjective, haudience, hstory, hhierarchy, hclaims,
    hconstraints, hquestions, hassets, htime⟩ := h
  have hclaimed := List.map_injective_iff.mpr (fun _ _ h => claimJson_inj hcore h) hclaims
  exact Material.ext (Subtype.ext hproduct) (Subtype.ext (hcore.json_injective hbrief))
    (Subtype.ext (hcore.json_injective hdecision)) (Subtype.ext hobjective)
    (Subtype.ext haudience) (Subtype.ext hstory) (Subtype.ext hhierarchy) (Subtype.ext hclaimed)
    (Subtype.ext hconstraints) (Subtype.ext hquestions) (Subtype.ext hassets)
    (hcore.datetimeJson_injective _ _ htime)

/-- Hexadecimal texts determine their digits. -/
theorem hexText_inj {xs ys : List (Fin 16)} (h : hexText xs = hexText ys) : xs = ys := by
  refine List.map_injective_iff.mpr (fun c d hcd => ?_) h
  have hval := congrArg Json.hexVal hcd
  rw [Json.hexVal_hexDigit c.isLt, Json.hexVal_hexDigit d.isLt] at hval
  exact Fin.ext (Option.some.inj hval)

/-- Without collisions, either part of the identity determines the material. -/
theorem material_of_identity (hcore : core.Lawful) {p q : Package core}
    (hfree : core.CollisionFree {p.material.json, q.material.json})
    (h : p.packageId = q.packageId ∨ p.packageDigest = q.packageDigest) :
    p.material = q.material := by
  obtain ⟨dp, hp, hpId, hpDigest⟩ := p.identity
  obtain ⟨dq, hq, hqId, hqDigest⟩ := q.identity
  have htake : dp.take 32 = dq.take 32 := by
    obtain h | h := h
    · rw [hpId, hqId] at h
      exact hexText_inj (List.append_cancel_left h)
    · rw [hpDigest, hqDigest] at h
      rw [hexText_inj (List.append_cancel_left h)]
  exact materialJson_inj hcore (hfree _ (by simp) _ (by simp) dp dq hp hq htake)

/-- The material determines the identity. -/
theorem package_of_material {p q : Package core} (h : p.material = q.material) : p = q := by
  obtain ⟨dp, hp, hpId, hpDigest⟩ := p.identity
  obtain ⟨dq, hq, hqId, hqDigest⟩ := q.identity
  obtain rfl : dp = dq := by simpa [← h, hp] using hq
  exact Package.ext h (hpId.trans hqId.symm) (hpDigest.trans hqDigest.symm)

/-! ### Dumps -/

/-- Looking up a literal key. -/
theorem lookup_cons_lit (k name : String) (o : Obj) (fields : List (Str × Obj)) :
    ((lit k, o) :: fields).lookup (lit name) =
      if name = k then some o else fields.lookup (lit name) := by
  by_cases h : name = k
  · simp [h]
  · have hne : (lit name == lit k) = false := by simpa using h
    simp [List.lookup_cons, hne, h]

/-- A field with a string holds its text. -/
theorem holdsText_of_lookup {fields : List (Str × Obj)} {name : String} {s : Str}
    (h : fields.lookup (lit name) = some (.str s)) : HoldsText fields name s :=
  ⟨_, h, Obj.isText_str.mpr rfl⟩

/-- A field with a tuple of strings holds its texts. -/
theorem holdsTexts_of_lookup {fields : List (Str × Obj)} {name : String} {texts : List Str}
    (h : fields.lookup (lit name) = some (textsObj texts)) : HoldsTexts fields name texts :=
  ⟨_, h, isTexts_textsObj texts⟩

/-- A dumped claim is validated as itself. -/
theorem readClaim_dump (hcore : core.Lawful) (c : Claim core) : readClaim core c.dump = .ok c := by
  have hitems : HoldsItems (readReference core) (.tuple (c.citations.val.map core.dump))
      c.citations.val :=
    ⟨_, rfl, List.forall₂_map_left_iff.mpr (List.forall₂_same.mpr fun r _ =>
      readReference_eq_ok.mpr (hcore.reference_dump r))⟩
  refine claimOf_eq_ok.mpr {
    declared := ?_
    claimId := holdsText_of_lookup ?_
    statement := holdsText_of_lookup ?_
    citations := ⟨_, ?_, hitems⟩
    approvalRef := holdsText_of_lookup ?_
    limitations := by simpa [lookup_cons_lit, valueOf] using isTexts_textsObj c.limitations.val
    status := ?_ }
  · simp [claimFields]
  all_goals simp [lookup_cons_lit, valueOf]

/-- A dumped package holds its material. -/
theorem holds_dump (hcore : core.Lawful) (p : Package core) : Holds p.dump p.material := by
  have hitems : HoldsItems (readClaim core) (.tuple (p.material.approvedClaims.val.map Claim.dump))
      p.material.approvedClaims.val :=
    ⟨_, rfl, List.forall₂_map_left_iff.mpr (List.forall₂_same.mpr fun c _ =>
      readClaim_dump hcore c)⟩
  have htime : (Obj.datetime (.aware Datetime.utcZone p.material.preparedAt.val false)).base.IsAware
      p.material.preparedAt.val := Obj.isAware_aware.mpr rfl
  refine {
    contract := ?_
    productId := holdsText_of_lookup ?_
    sourceBrief := ⟨_, ?_, hcore.reference_dump _⟩
    decision := ⟨_, ?_, hcore.reference_dump _⟩
    objective := holdsText_of_lookup ?_
    audience := holdsTexts_of_lookup ?_
    storyArchitecture := holdsTexts_of_lookup ?_
    contentHierarchy := holdsTexts_of_lookup ?_
    approvedClaims := ⟨_, ?_, hitems⟩
    constraints := holdsTexts_of_lookup ?_
    openQuestions := by
      simpa [Package.dump, lookup_cons_lit, valueOf] using
        isTexts_textsObj p.material.openQuestions.val
    requiredAssets := holdsTexts_of_lookup ?_
    deliveryAuthority := ?_
    externalEffectOccurred := ?_
    preparedAt := ⟨_, ?_, _, htime,
      AwareDatetime.astimezoneUtc_of_offset_zero p.material.preparedAt.property⟩ }
  all_goals simp [Package.dump, lookup_cons_lit, valueOf]

/-- A dumped package is validated as itself. -/
theorem packageOf_dump (hcore : core.Lawful) (p : Package core) :
    packageOf core p.dump = .ok p := by
  refine (packageOf_eq_ok hcore).mpr ⟨?_, holds_dump hcore p, .inr ?_, .inr ?_⟩
  · simp [Package.dump, packageFields]
  · simp [Package.dump, lookup_cons_lit, valueOf]
  · simp [Package.dump, lookup_cons_lit, valueOf]

/-! ### Given identities and offsets -/

/-- The fields of the material. -/
def materialFields : List String :=
  packageFields.filter fun name => name ≠ "package_id" ∧ name ≠ "package_digest"

/-- The material depends on its own fields only. -/
theorem materialOf_congr {f g : List (Str × Obj)}
    (h : ∀ name ∈ materialFields, f.lookup (lit name) = g.lookup (lit name)) :
    materialOf core f = materialOf core g := by
  have hrequired {β : Type} (read : Obj → Checked β) (name : String)
      (hname : name ∈ materialFields) :
      required read f name = required read g name := by rw [required, required, h name hname]
  have hvalue (name : String) (fallback : Obj) (hname : name ∈ materialFields) :
      valueOf f name fallback = valueOf g name fallback := by rw [valueOf, valueOf, h name hname]
  simp only [materialOf]
  simp [hrequired, hvalue, materialFields, packageFields]

/-- Only the instant of a time matters for its conversion to UTC. -/
theorem astimezoneUtc_congr {s t : AwareDatetime} (h : s.instant = t.instant) :
    s.astimezoneUtc = t.astimezoneUtc := by
  by_cases hs : s.InUtcRange
  · have ht : t.InUtcRange := by rwa [AwareDatetime.InUtcRange, ← h]
    rw [AwareDatetime.astimezoneUtc, AwareDatetime.astimezoneUtc, dif_pos hs, dif_pos ht]
    exact congrArg some (AwareDatetime.ext h rfl)
  · have ht : ¬t.InUtcRange := by rwa [AwareDatetime.InUtcRange, ← h]
    rw [AwareDatetime.astimezoneUtc, AwareDatetime.astimezoneUtc, dif_neg hs, dif_neg ht]

/-- Only the instant of a time matters for its validation. -/
theorem readTime_congr {s t : AwareDatetime} {zone other : ℕ} {folds otherFolds : Bool}
    (name : String) (h : s.instant = t.instant) :
    readTime name (.datetime (.aware zone s folds)) =
      readTime name (.datetime (.aware other t otherFolds)) := by
  have hutc := astimezoneUtc_congr h
  simp only [readTime, Obj.base]
  split
  · next u hu =>
    rw [hutc] at hu
    split
    · next v hv =>
      obtain rfl : u = v := Option.some.inj (hu.symm.trans hv)
      rfl
    · next hnone =>
      rw [hu] at hnone
      cases hnone
  · next hnone =>
    rw [hutc] at hnone
    split
    · next v hv =>
      rw [hnone] at hv
      cases hv
    · rfl

/-- A package is content addressed. Two packages have the same id, or the same digest,
exactly if they agree in all other fields; the offset of the time does not matter; a given
identity is accepted exactly if it is the derived one; and a dump is validated as the
package that was dumped. -/
theorem package_contentAddressed (core : Core Ref) (hcore : core.Lawful) :
    (∀ p q : Package core, core.CollisionFree {p.material.json, q.material.json} →
      (p.packageId = q.packageId ↔ p.material.Agrees q.material) ∧
      (p.packageDigest = q.packageDigest ↔ p.material.Agrees q.material)) ∧
    (∀ (s t : AwareDatetime) fields, s.instant = t.instant →
      ∀ (zone other : ℕ) (folds otherFolds : Bool),
        packageOf core ((lit "prepared_at", .datetime (.aware zone s folds)) :: fields) =
          packageOf core ((lit "prepared_at", .datetime (.aware other t otherFolds)) :: fields)) ∧
    (∀ fields id digest p, fields.lookup (lit "package_id") = none →
      fields.lookup (lit "package_digest") = none →
      (packageOf core ((lit "package_id", id) :: (lit "package_digest", digest) :: fields) =
        .ok p ↔
      packageOf core fields = .ok p ∧ GivenAs id p.packageId ∧ GivenAs digest p.packageDigest)) ∧
    ∀ p : Package core, modelValidate core (.dict p.dump) = .ok p := by
  refine ⟨fun p q hfree => ⟨?_, ?_⟩, fun s t fields hinstant zone other folds otherFolds => ?_,
    fun fields id digest p hid hdigest => ?_, packageOf_dump hcore⟩
  · rw [agrees_iff]
    exact ⟨fun h => material_of_identity hcore hfree (.inl h),
      fun h => by rw [package_of_material h]⟩
  · rw [agrees_iff]
    exact ⟨fun h => material_of_identity hcore hfree (.inr h),
      fun h => by rw [package_of_material h]⟩
  · have hread : readTime "prepared_at" (.datetime (.aware zone s folds)) =
        readTime "prepared_at" (.datetime (.aware other t otherFolds)) :=
      readTime_congr "prepared_at" hinstant
    have hextra (u v : Obj) : forbidExtra ((lit "prepared_at", u) :: fields) packageFields =
        forbidExtra ((lit "prepared_at", v) :: fields) packageFields := by
      simp [forbidExtra, packageFields]
    rw [packageOf, packageOf, hextra _ (.datetime (.aware other t otherFolds))]
    simp [materialOf, required, valueOf, lookup_cons_lit, hread]
  · have hmaterial : materialOf core ((lit "package_id", id) :: (lit "package_digest", digest) ::
        fields) = materialOf core fields := by
      refine materialOf_congr fun name hname => ?_
      have hne : name ≠ "package_id" ∧ name ≠ "package_digest" := by
        simpa using (List.mem_filter.mp hname).2
      rw [lookup_cons_lit, lookup_cons_lit, if_neg hne.1, if_neg hne.2]
    have hholds : Holds ((lit "package_id", id) :: (lit "package_digest", digest) :: fields)
        p.material ↔ Holds fields p.material := by
      rw [← materialOf_eq_ok, ← materialOf_eq_ok, hmaterial]
    have hdeclared : (∀ m ∈ (lit "package_id", id) :: (lit "package_digest", digest) :: fields,
        m.1 ∈ packageFields.map lit) ↔ ∀ m ∈ fields, m.1 ∈ packageFields.map lit := by
      simp [packageFields]
    have hnoId : GivenAs (valueOf fields "package_id" .none) p.packageId :=
      .inl (by rw [valueOf, hid]; rfl)
    have hnoDigest : GivenAs (valueOf fields "package_digest" .none) p.packageDigest :=
      .inl (by rw [valueOf, hdigest]; rfl)
    have hgivenId : valueOf ((lit "package_id", id) :: (lit "package_digest", digest) :: fields)
        "package_id" .none = id := by simp [valueOf]
    have hgivenDigest : valueOf ((lit "package_id", id) :: (lit "package_digest", digest) :: fields)
        "package_digest" .none = digest := by simp [valueOf, lookup_cons_lit]
    rw [packageOf_eq_ok hcore, packageOf_eq_ok hcore, hholds, hdeclared, hgivenId, hgivenDigest]
    tauto

/-! ### Two packages -/

/-- A reference with its three coordinates. -/
structure SampleReference where
  artifactId : Str
  artifactDigest : Str
  artifactContract : Str
  deriving DecidableEq

/-- The fields of a reference. -/
def SampleReference.dump (r : SampleReference) : Obj :=
  .dict [(lit "artifact_id", .str r.artifactId), (lit "artifact_digest", .str r.artifactDigest),
    (lit "artifact_contract", .str r.artifactContract)]

/-- Its JSON form. -/
def SampleReference.json (r : SampleReference) : JsonData :=
  .dict [(lit "artifact_id", .str r.artifactId), (lit "artifact_digest", .str r.artifactDigest),
    (lit "artifact_contract", .str r.artifactContract)]

/-- A reference from a dictionary of its fields. -/
def sampleReference : Obj → Option SampleReference
  | .dict [(_, .str artifactId), (_, .str artifactDigest), (_, .str artifactContract)] =>
      some ⟨artifactId, artifactDigest, artifactContract⟩
  | _ => none

/-- The time of the sample, in UTC. -/
def sampleTime : AwareDatetime := ⟨63922330800000000, 0, by decide, AwareDatetime.offset_zero_range⟩

/-- The JSON form of the sample time; other times are told apart by their microseconds. -/
def sampleDatetimeJson (t : AwareDatetime) : Str :=
  if t = sampleTime then lit "2026-08-14T19:00:00Z" else lit "T" ++ Json.intDigits t.wall

/-- Core with a hash. -/
def coreWith (canonicalHash : JsonData → Option (List (Fin 16))) : Core SampleReference where
  reference := sampleReference
  dump := SampleReference.dump
  json := SampleReference.json
  artifactId := SampleReference.artifactId
  artifactDigest := SampleReference.artifactDigest
  artifactContract := SampleReference.artifactContract
  datetimeJson := sampleDatetimeJson
  canonicalHash := canonicalHash

/-- The material of a package with two steps in its story. -/
def sampleMaterial (canonicalHash : JsonData → Option (List (Fin 16))) (reversed : Bool) :
    Material (coreWith canonicalHash) where
  productId := ⟨lit "product:market-v1", by decide +kernel⟩
  sourceBrief := ⟨⟨lit "brief:terra-price", lit "sha256:" ++ List.replicate 64 (Chr.ofChar '1'),
    lit "ace.intelligence.brief/v1alpha1"⟩, rfl⟩
  decision := ⟨⟨lit "decision:terra-positioning",
    lit "sha256:" ++ List.replicate 64 (Chr.ofChar '2'),
    lit "ace.core.decision/v1alpha1"⟩, rfl⟩
  objective := ⟨lit "Prepare a page-story direction.", by decide +kernel⟩
  audience := ⟨[lit "Evaluation leaders"], by decide +kernel⟩
  storyArchitecture :=
    if reversed then ⟨[lit "Close", lit "Lead"], by decide +kernel⟩
    else ⟨[lit "Lead", lit "Close"], by decide +kernel⟩
  contentHierarchy := ⟨[lit "Hero"], by decide +kernel⟩
  approvedClaims := ⟨[{
    claimId := ⟨lit "claim:terra-price-move", by decide +kernel⟩
    statement := ⟨lit "The price was lowered.", by decide +kernel⟩
    citations := ⟨[⟨lit "observation:terra-price",
      lit "sha256:" ++ List.replicate 64 (Chr.ofChar '3'),
      lit "ace.intelligence.observation/v1alpha1"⟩], by simp⟩
    approvalRef := ⟨lit "approval:claim-terra-price-move", by decide +kernel⟩
    limitations := ⟨[], by simp⟩ }], by simp⟩
  constraints := ⟨[lit "Keep every numeric claim cited"], by decide +kernel⟩
  openQuestions := ⟨[], by simp⟩
  requiredAssets := ⟨[lit "Approved product marks"], by decide +kernel⟩
  preparedAt := ⟨sampleTime, rfl⟩

/-- The digits of their hashes. -/
def sampleDigits (reversed : Bool) : List (Fin 16) :=
  digestDigits (if reversed then
    0xd1d2451d86937771d940f15809b50f788231708dd0e52a133fd881d4a2f49f4f else
    0x6777590fc56b0c2212faea7e895961c275672e67fc1445a687823d9c95fe2bdc)

/-- The hash of the two materials. -/
def sampleHash (x : JsonData) : Option (List (Fin 16)) :=
  ([false, true].find? fun reversed => decide
    (Json.encode (Json.Layout.compact true) 0 (sampleMaterial (fun _ => none) reversed).json =
      Json.encode (Json.Layout.compact true) 0 x)).map sampleDigits

/-- Each material has its hash. -/
theorem sampleHash_eq (reversed : Bool) :
    (coreWith sampleHash).canonicalHash (sampleMaterial sampleHash reversed).json =
      some (sampleDigits reversed) := by
  revert reversed
  decide +kernel

/-- The sample packages. -/
def samplePackage (reversed : Bool) : Package (coreWith sampleHash) where
  material := sampleMaterial sampleHash reversed
  packageId := expectedId (sampleDigits reversed)
  packageDigest := expectedDigest (sampleDigits reversed)
  identity := ⟨sampleDigits reversed, sampleHash_eq reversed, rfl, rfl⟩

/-- It keeps the laws. -/
theorem sampleCore_lawful : (coreWith sampleHash).Lawful where
  reference_dump _ := rfl
  json_injective r s h := by
    obtain ⟨rId, rDigest, rContract⟩ := r
    obtain ⟨sId, sDigest, sContract⟩ := s
    simpa [coreWith, SampleReference.json] using h
  datetimeJson_injective s t h := by
    obtain ⟨s, hs⟩ := s
    obtain ⟨t, ht⟩ := t
    have hother (u : AwareDatetime) :
        lit "2026-08-14T19:00:00Z" ≠ lit "T" ++ Json.intDigits u.wall := by
      intro h
      have hhead := congrArg List.head? h
      rw [List.head?_append_of_ne_nil _ (by simp)] at hhead
      exact absurd hhead (by decide)
    refine Subtype.ext ?_
    by_cases hsample : s = sampleTime
    · by_cases htime : t = sampleTime
      · exact hsample.trans htime.symm
      · exact absurd (by simpa [coreWith, sampleDatetimeJson, hsample, htime] using h) (hother t)
    · by_cases htime : t = sampleTime
      · exact absurd (by simpa [coreWith, sampleDatetimeJson, hsample, htime] using h.symm)
          (hother s)
      · have hdigits : Json.intDigits s.wall = Json.intDigits t.wall := by
          simpa [coreWith, sampleDatetimeJson, hsample, htime] using h
        have hwall := congrArg intOfText hdigits
        rw [Json.intOfText_intDigits, Json.intOfText_intDigits] at hwall
        exact AwareDatetime.ext hwall (hs.trans ht.symm)
  hash_length x digits h := by
    obtain ⟨reversed, -, rfl⟩ := Option.map_eq_some_iff.mp h
    simp [sampleDigits, digestDigits]

/-- The two hashes do not collide. -/
theorem samplePackages_collisionFree : (coreWith sampleHash).CollisionFree
    {(samplePackage false).material.json, (samplePackage true).material.json} := by
  have hdigits : ∀ b c, (sampleDigits b).take 32 = (sampleDigits c).take 32 → b = c := by
    decide +kernel
  have hsample {x : JsonData} (hx : x ∈ ({(samplePackage false).material.json,
      (samplePackage true).material.json} : Set JsonData)) :
      ∃ reversed, x = (samplePackage reversed).material.json := by
    obtain rfl | rfl := hx
    · exact ⟨false, rfl⟩
    · exact ⟨true, rfl⟩
  intro x hx y hy dx dy hdx hdy htake
  obtain ⟨b, rfl⟩ := hsample hx
  obtain ⟨c, rfl⟩ := hsample hy
  obtain rfl := Option.some.inj ((sampleHash_eq b).symm.trans hdx)
  obtain rfl := Option.some.inj ((sampleHash_eq c).symm.trans hdy)
  rw [hdigits b c htake]

/-- The order of the story is part of what is addressed. -/
theorem samplePackages_differ :
    (samplePackage false).packageId ≠ (samplePackage true).packageId ∧
    modelValidate (coreWith sampleHash) (.dict (samplePackage true).dump) =
      .ok (samplePackage true) :=
  have hlaw := package_contentAddressed (coreWith sampleHash) sampleCore_lawful
  ⟨fun h => absurd ((hlaw.1 (samplePackage false) (samplePackage true)
      samplePackages_collisionFree).1.mp h).storyArchitecture (by decide +kernel),
    hlaw.2.2.2 (samplePackage true)⟩

end MarketIntelligence.Direction
