import MarketIntelligence.Builder.Inventory

/-!
# Executing what was planned

The executor would execute exactly what was planned if, for every inventory file that
it binds, the planner accepted the same file and proposed the same sources. It does so
on no file that it can bind: it passes no effective time, which the planner always does.
-/

namespace MarketIntelligence.Builder

open Python

variable {F Subject : Type}

/-- A material and a selection that describe the same source. -/
structure Agrees (core : Core F Subject) (m : RecordedSourceMaterial F Subject)
    (s : RecordedSourceSelection F) : Prop where
  sourceGroupId : m.sourceGroupId = s.sourceGroupId
  mappingId : m.mappingId = s.mappingId
  subject : (Data.str (core.subjectIds m.subjectBinding).1 = s.subjectBindingId ∧
    .str (core.subjectIds m.subjectBinding).2.1 = s.entityTypeId ∧
    .str (core.subjectIds m.subjectBinding).2.2 = s.entityRef)
  sourceDefinitionRef : m.sourceDefinitionRef = s.sourceDefinitionRef
  sourceTypeRef : m.sourceTypeRef = s.sourceTypeRef
  sourceUri : m.sourceUri = s.sourceUri
  capturedPayloadDigest : m.capturedPayloadDigest = s.capturedPayloadDigest
  sourcePublishedAt : m.sourcePublishedAt = s.sourcePublishedAt
  eventEffectiveAt : m.eventEffectiveAt = s.eventEffectiveAt
  observedAt : m.observedAt = s.observedAt
  locator : m.locator = s.locator

/-- A text that is read as an aware time with a UTC form. -/
def UtcTime (core : Core F Subject) (value : Data F) (u : AwareDatetime) : Prop :=
  ∃ s t, value = .str s ∧ core.fromisoformat s = .ok (.aware t) ∧ t.astimezoneUtc = some u

/-- The members that the executor reads from an item. -/
def itemKeys : List Str := [lit "source_uri", lit "captured_payload_json",
  lit "captured_payload_digest", lit "source_published_at", lit "observed_at", lit "locator"]

/-- The material of an item with its times. -/
def itemMaterial (inventory : List (Str × Data F)) (subject : Subject)
    (members : List (Str × Data F)) (published observed : AwareDatetime) :
    RecordedSourceMaterial F Subject where
  sourceGroupId := get inventory (lit "source_group_id")
  mappingId := get inventory (lit "mapping_id")
  subjectBinding := subject
  sourceDefinitionRef := get inventory (lit "source_definition_ref")
  sourceTypeRef := get inventory (lit "source_type_ref")
  sourceUri := get members (lit "source_uri")
  capturedPayloadJson := get members (lit "captured_payload_json")
  capturedPayloadDigest := get members (lit "captured_payload_digest")
  sourcePublishedAt := published
  observedAt := observed
  locator := get members (lit "locator")

/-- An item from which a material can be bound: an object with every member that is
read, times with a UTC form, and values that Core accepts. -/
def BindableItem (core : Core F Subject) (inventory : List (Str × Data F)) (subject : Subject)
    (item : Data F) : Prop :=
  ∃ members published observed, item = .dict members ∧
    (∀ key ∈ itemKeys, hasKey members key = true) ∧
    UtcTime core (get members (lit "source_published_at")) published ∧
    UtcTime core (get members (lit "observed_at")) observed ∧
    core.acceptsMaterial (itemMaterial inventory subject members published observed) = true

/-- The contents of the inventory file from which materials can be bound: a JSON object
with the expected identifiers, both source references and two bindable items. -/
def Bindable [PyFloat F] (core : Core F Subject) (content : List UInt8)
    (bindSubject : Str → Str → Str → Except (Raised ExecutorError) Subject) : Prop :=
  ∃ inventory items subject, readJson core.py.limits content = .ok (.dict inventory) ∧
    executorHeader core inventory = true ∧
    get inventory (lit "materials") = .list items ∧ items.length = 2 ∧
    hasKey inventory (lit "source_definition_ref") = true ∧
    hasKey inventory (lit "source_type_ref") = true ∧
    bindSubject subjectBindingId entityTypeId entityRef = .ok subject ∧
    ∀ item ∈ items, BindableItem core inventory subject item

/-- Whatever the executor binds from a file, the planner proposes from the same file. -/
def BindsAsPlanned [PyFloat F] (core : Core F Subject) (content : List UInt8)
    (bindSubject : Str → Str → Str → Except (Raised ExecutorError) Subject) : Prop :=
  ∀ materials, loadRecordedMarketSourceMaterials core content bindSubject = .ok materials →
    ∃ selections, plannerSelections core content = .ok selections ∧
      List.Forall₂ (Agrees core) materials selections

/-! ### What the loaders need -/

/-- Times are read from texts with a time zone. -/
theorem utcTime_eq_ok {Own : Type} {core : Core F Subject} {noTimezone : Own} {value : Data F}
    {u : AwareDatetime} : utcTime core noTimezone value = .ok u ↔ UtcTime core value u := by
  cases value with
  | str s =>
    simp only [utcTime, UtcTime, bind_eq_ok, ofBuiltin_eq_ok, Data.str.injEq]
    constructor
    · rintro ⟨d, hd, h⟩
      cases d with
      | aware t =>
        dsimp only at h
        split at h
        · next v hv =>
          obtain rfl : v = u := by simpa using h
          exact ⟨s, t, rfl, hd, hv⟩
        · simp at h
      | _ => simp at h
    · rintro ⟨_, t, rfl, hd, hu⟩
      exact ⟨.aware t, hd, by simp [hu]⟩
  | _ => simp [utcTime, UtcTime]

/-- A material is bound exactly from a bindable item. -/
theorem recordedMaterial_eq_ok {core : Core F Subject} {inventory : List (Str × Data F)}
    {subject : Subject} {item : Data F} {m : RecordedSourceMaterial F Subject}
    (hgroup : hasKey inventory (lit "source_group_id") = true)
    (hmapping : hasKey inventory (lit "mapping_id") = true)
    (hdefinition : hasKey inventory (lit "source_definition_ref") = true)
    (htype : hasKey inventory (lit "source_type_ref") = true) :
    recordedMaterial core inventory subject item = .ok m ↔
      ∃ members published observed, item = .dict members ∧
        (∀ key ∈ itemKeys, hasKey members key = true) ∧
        UtcTime core (get members (lit "source_published_at")) published ∧
        UtcTime core (get members (lit "observed_at")) observed ∧
        core.acceptsMaterial (itemMaterial inventory subject members published observed) = true ∧
        m = itemMaterial inventory subject members published observed := by
  cases item with
  | dict members =>
    simp only [recordedMaterial, bind_eq_ok, ofBuiltin_eq_ok, lookup_eq_ok,
      Data.subscript_eq_ok, executorTime, utcTime_eq_ok, hgroup, hmapping, hdefinition, htype,
      Data.dict.injEq]
    constructor
    · rintro ⟨_, ⟨-, rfl⟩, _, ⟨-, rfl⟩, _, ⟨-, rfl⟩, _, ⟨-, rfl⟩, _, ⟨_, rfl, huri, rfl⟩,
        _, ⟨_, rfl, hjson, rfl⟩, _, ⟨_, rfl, hdigest, rfl⟩, _, ⟨_, rfl, hpublished, rfl⟩,
        published, htimeP, _, ⟨_, rfl, hobserved, rfl⟩, observed, htimeO,
        _, ⟨_, rfl, hlocator, rfl⟩, h⟩
      split at h
      · next haccept =>
        refine ⟨_, published, observed, rfl, ?_, htimeP, htimeO, haccept,
          (Except.ok.inj h).symm⟩
        simp [itemKeys, huri, hjson, hdigest, hpublished, hobserved, hlocator]
      · simp at h
    · rintro ⟨_, published, observed, rfl, hkeys, htimeP, htimeO, haccept, rfl⟩
      simp only [itemKeys, List.forall_mem_cons] at hkeys
      obtain ⟨huri, hjson, hdigest, hpublished, hobserved, hlocator, -⟩ := hkeys
      exact ⟨_, ⟨trivial, rfl⟩, _, ⟨trivial, rfl⟩, _, ⟨trivial, rfl⟩, _, ⟨trivial, rfl⟩,
        _, ⟨_, rfl, huri, rfl⟩,
        _, ⟨_, rfl, hjson, rfl⟩, _, ⟨_, rfl, hdigest, rfl⟩, _, ⟨_, rfl, hpublished, rfl⟩,
        published, htimeP, _, ⟨_, rfl, hobserved, rfl⟩, observed, htimeO,
        _, ⟨_, rfl, hlocator, rfl⟩, if_pos haccept⟩
  | _ =>
    simp [recordedMaterial, bind_eq_ok, lookup_eq_ok, Data.subscript_eq_ok]

/-- Materials are bound exactly from a list of bindable items, and none of them has an
effective time. -/
theorem recordedMaterials_isOk_iff {core : Core F Subject} {inventory : List (Str × Data F)}
    {subject : Subject} (hgroup : hasKey inventory (lit "source_group_id") = true)
    (hmapping : hasKey inventory (lit "mapping_id") = true)
    (hdefinition : hasKey inventory (lit "source_definition_ref") = true)
    (htype : hasKey inventory (lit "source_type_ref") = true) (items : List (Data F)) :
    (∃ ms, recordedMaterials core inventory subject items = .ok ms) ↔
      ∀ item ∈ items, BindableItem core inventory subject item := by
  induction items with
  | nil => simp [recordedMaterials]
  | cons item items ih =>
    have hitem (m : RecordedSourceMaterial F Subject) :=
      @recordedMaterial_eq_ok F Subject core inventory subject item m hgroup hmapping
        hdefinition htype
    simp only [recordedMaterials, bind_eq_ok, List.forall_mem_cons, ← ih]
    constructor
    · rintro ⟨ms, m, hm, rest, hrest, -⟩
      obtain ⟨members, published, observed, rfl, hkeys, hp, ho, haccept, -⟩ := (hitem m).mp hm
      exact ⟨⟨members, published, observed, rfl, hkeys, hp, ho, haccept⟩, rest, hrest⟩
    · rintro ⟨⟨members, published, observed, rfl, hkeys, hp, ho, haccept⟩, rest, hrest⟩
      exact ⟨_, _, (hitem _).mpr ⟨members, published, observed, rfl, hkeys, hp, ho, haccept, rfl⟩,
        rest, hrest, rfl⟩

/-- No bound material has an effective time. -/
theorem recordedMaterials_eventEffectiveAt {core : Core F Subject}
    {inventory : List (Str × Data F)} {subject : Subject} {items : List (Data F)}
    {ms : List (RecordedSourceMaterial F Subject)}
    (h : recordedMaterials core inventory subject items = .ok ms) :
    ms.length = items.length ∧ ∀ m ∈ ms, m.eventEffectiveAt = none := by
  induction items generalizing ms with
  | nil =>
    obtain rfl : [] = ms := by simpa [recordedMaterials] using h
    simp
  | cons item items ih =>
    obtain ⟨m, hm, h⟩ := bind_eq_ok.mp h
    obtain ⟨rest, hrest, h⟩ := bind_eq_ok.mp h
    obtain rfl : m :: rest = ms := by simpa using h
    obtain ⟨hlen, hnone⟩ := ih hrest
    refine ⟨by simp [hlen], List.forall_mem_cons.mpr ⟨?_, hnone⟩⟩
    simp only [recordedMaterial, bind_eq_ok] at hm
    obtain ⟨_, -, _, -, _, -, _, -, _, -, _, -, _, -, _, -, _, -, _, -, _, -, _, -, hm⟩ := hm
    split at hm
    · rw [← Except.ok.inj hm]
    · simp at hm

/-- Every selection has an effective time. -/
theorem recordedSelections_eventEffectiveAt {core : Core F Subject}
    {inventory subject : List (Str × Data F)} {items : List (Data F)}
    {ss : List (RecordedSourceSelection F)}
    (h : recordedSelections core inventory subject items = .ok ss) :
    ∀ s ∈ ss, s.eventEffectiveAt ≠ none := by
  induction items generalizing ss with
  | nil =>
    obtain rfl : [] = ss := by simpa [recordedSelections] using h
    simp
  | cons item items ih =>
    obtain ⟨s, hs, h⟩ := bind_eq_ok.mp h
    obtain ⟨rest, hrest, h⟩ := bind_eq_ok.mp h
    obtain rfl : s :: rest = ss := by simpa using h
    refine List.forall_mem_cons.mpr ⟨?_, ih hrest⟩
    simp only [recordedSelection, bind_eq_ok] at hs
    obtain ⟨_, -, _, -, _, -, _, -, _, -, _, -, _, -, _, -, _, -, _, -, _, -, _, -, _, -, _, -, _,
      -, _, -, hs⟩ := hs
    split at hs
    · rw [← Except.ok.inj hs]
      simp
    · simp at hs

/-- The compared identifiers are members of the inventory. -/
theorem executorHeader_keys {core : Core F Subject} {inventory : List (Str × Data F)}
    (h : executorHeader core inventory = true) :
    hasKey inventory (lit "source_group_id") = true ∧
      hasKey inventory (lit "mapping_id") = true := by
  simp only [executorHeader, Bool.and_eq_true, Data.eqStr_iff] at h
  obtain ⟨⟨⟨-, hgroup⟩, hmapping⟩, -⟩ := h
  exact ⟨hasKey_of_get (by simp [hgroup]), hasKey_of_get (by simp [hmapping])⟩

variable [PyFloat F]

/-- The inventory is read exactly from files that hold a JSON object. -/
theorem readInventory_eq_ok {Own : Type} {core : Core F Subject} {unavailable : Own}
    {content : List UInt8} {material : List (Str × Data F)} :
    readInventory core unavailable content = .ok material ↔
      readJson core.py.limits content = .ok (.dict material) := by
  unfold readInventory
  cases readJson (F := F) core.py.limits content with
  | error e => simp
  | ok value => cases value <;> simp

/-- The executor accepts exactly the objects with its identifiers and two materials. -/
theorem executorInventory_eq_ok {core : Core F Subject} {content : List UInt8}
    {inventory : List (Str × Data F)} {items : List (Data F)} :
    executorInventory core content = .ok (inventory, items) ↔
      readJson core.py.limits content = .ok (.dict inventory) ∧
        executorHeader core inventory = true ∧
        get inventory (lit "materials") = .list items ∧ items.length = 2 := by
  have hpair (ms : List (Str × Data F)) (xs : List (Data F)) :
      materialPair ms = some xs ↔ get ms (lit "materials") = .list xs ∧ xs.length = 2 := by
    unfold materialPair
    split
    · next ys hys =>
      rw [hys]
      simp only [Option.ite_none_right_eq_some, Option.some.injEq, Data.list.injEq]
      constructor
      · rintro ⟨hlen, rfl⟩
        exact ⟨rfl, hlen⟩
      · rintro ⟨rfl, hlen⟩
        exact ⟨hlen, rfl⟩
    · next hother =>
      simp only [reduceCtorEq, false_iff, not_and]
      exact fun h => absurd h (hother xs)
  simp only [executorInventory, bind_eq_ok, readInventory_eq_ok]
  constructor
  · rintro ⟨material, hread, h⟩
    split at h
    · next hheader =>
      split at h
      · next xs hxs =>
        obtain ⟨rfl, rfl⟩ : material = inventory ∧ xs = items := by simpa using h
        exact ⟨hread, hheader, (hpair material xs).mp hxs⟩
      · simp [executorError] at h
    · simp [executorError] at h
  · rintro ⟨hread, hheader, hitems⟩
    exact ⟨inventory, hread, by simp [hheader, (hpair inventory items).mpr hitems]⟩

/-- The executor binds materials exactly from the bindable contents. -/
theorem loadRecordedMarketSourceMaterials_isOk_iff {core : Core F Subject} {content : List UInt8}
    {bindSubject : Str → Str → Str → Except (Raised ExecutorError) Subject} :
    (∃ ms, loadRecordedMarketSourceMaterials core content bindSubject = .ok ms) ↔
      Bindable core content bindSubject := by
  simp only [loadRecordedMarketSourceMaterials, bind_eq_ok, Prod.exists, executorInventory_eq_ok]
  constructor
  · rintro ⟨ms, inventory, items, ⟨hread, hheader, hitems, hlen⟩, subject, hsubject, hms⟩
    obtain ⟨hgroup, hmapping⟩ := executorHeader_keys hheader
    obtain ⟨hdefinition, htype⟩ : hasKey inventory (lit "source_definition_ref") = true ∧
        hasKey inventory (lit "source_type_ref") = true := by
      obtain ⟨item, rest, rfl⟩ := List.exists_cons_of_length_pos (by omega : 0 < items.length)
      obtain ⟨m, hm, -⟩ := bind_eq_ok.mp hms
      simp only [recordedMaterial, bind_eq_ok, ofBuiltin_eq_ok, lookup_eq_ok] at hm
      obtain ⟨_, -, _, -, _, ⟨hdefinition, -⟩, _, ⟨htype, -⟩, -⟩ := hm
      exact ⟨hdefinition, htype⟩
    exact ⟨inventory, items, subject, hread, hheader, hitems, hlen, hdefinition, htype, hsubject,
      (recordedMaterials_isOk_iff hgroup hmapping hdefinition htype items).mp ⟨ms, hms⟩⟩
  · rintro ⟨inventory, items, subject, hread, hheader, hitems, hlen, hdefinition, htype, hsubject,
      hall⟩
    obtain ⟨hgroup, hmapping⟩ := executorHeader_keys hheader
    obtain ⟨ms, hms⟩ :=
      (recordedMaterials_isOk_iff hgroup hmapping hdefinition htype items).mpr hall
    exact ⟨ms, inventory, items, ⟨hread, hheader, hitems, hlen⟩, subject, hsubject, hms⟩

/-- The executor binds what was planned exactly on the files from which it binds
nothing. -/
theorem bindsAsPlanned_iff (core : Core F Subject) (content : List UInt8)
    (bindSubject : Str → Str → Str → Except (Raised ExecutorError) Subject) :
    BindsAsPlanned core content bindSubject ↔ ¬Bindable core content bindSubject := by
  rw [← loadRecordedMarketSourceMaterials_isOk_iff]
  constructor
  · rintro hplanned ⟨ms, hms⟩
    obtain ⟨ss, hss, hall⟩ := hplanned ms hms
    obtain ⟨⟨inventory, items⟩, hinventory, hms⟩ := bind_eq_ok.mp hms
    obtain ⟨subject, -, hms⟩ := bind_eq_ok.mp hms
    obtain ⟨hlen, hnone⟩ := recordedMaterials_eventEffectiveAt hms
    have hpos : 0 < ms.length := by
      have htwo := (executorInventory_eq_ok.mp hinventory).2.2.2
      omega
    obtain ⟨m, rest, rfl⟩ := List.exists_cons_of_length_pos hpos
    obtain ⟨s, ss', hagrees, -, rfl⟩ := List.forall₂_cons_left_iff.mp hall
    have hsome : s.eventEffectiveAt ≠ none := by
      obtain ⟨⟨plan, planItems⟩, -, hss⟩ := bind_eq_ok.mp hss
      dsimp only at hss
      split at hss
      · exact recordedSelections_eventEffectiveAt hss s (by simp)
      · simp [plannerError] at hss
    exact hsome (hagrees.eventEffectiveAt ▸ hnone m (by simp))
  · intro hnot ms hms
    exact absurd ⟨ms, hms⟩ hnot

/-! ### A file with another price -/

/-- An item of the reviewed inventory, with a price of its own. -/
def sampleItem (uri price digest published observed : String) : Data Unit :=
  .dict [(lit "source_uri", .str (lit uri)),
    (lit "captured_payload_json", .str (lit "\x7b\"currency\":\"USD\"," ++
      lit "\"listed_price\":\"" ++ lit price ++ lit "\",\"product_name\":\"" ++
      lit "GPT-5.6 Terra input tokens per 1M" ++ lit "\"\x7d")),
    (lit "captured_payload_digest", .str (lit "sha256:" ++ lit digest)),
    (lit "source_published_at", .str (lit published)),
    (lit "event_effective_at", .str (lit published)), (lit "observed_at", .str (lit observed)),
    (lit "locator", .str (lit "section:availability-and-pricing#terra"))]

/-- The reviewed inventory, with 1.00 in place of the second price of 2.00. -/
def sampleInventory : Data Unit :=
  .dict [
    (lit "contract", .str (lit "ace.market-intelligence.recorded-source-inventory/v1alpha1")),
    (lit "inventory_id", .str (lit "openai_terra_price_progression")),
    (lit "inventory_version", .str (lit "0.8.0")),
    (lit "source_group_id", .str (lit "competitor_public_evidence")),
    (lit "mapping_id", .str (lit "product_price_snapshot")),
    (lit "subject_binding", inventorySubject),
    (lit "source_definition_ref", .str (lit "source_definition:openai-gpt-5-6-terra-pricing")),
    (lit "source_type_ref", .str (lit "public_product_page")),
    (lit "materials", .list [
      sampleItem "https://openai.com/index/gpt-5-6/" "2.50"
        "44caaf4fd6e9483c5dcdc853b8267dbc14f0e64676600354424ad54c1d8ae2c4"
        "2026-07-09T00:00:00Z" "2026-08-13T18:00:00Z",
      sampleItem
        "https://openai.com/index/advancing-the-price-performance-frontier-with-gpt-5-6/" "1.00"
        "72f6ef91bceff0db353f84844e0245b1637dfb22150f37bae0a1e786fcceab44"
        "2026-07-30T00:00:00Z" "2026-08-13T18:01:00Z"])]

/-- The sample as a file. -/
def sampleContent : List UInt8 :=
  asciiBytes (Json.encode (Json.Layout.compact true) 0 sampleInventory)

/-- The times of the sample, as `datetime.fromisoformat` reads them. -/
def sampleTime (s : Str) : Except BuiltinError ParsedDatetime :=
  if s = lit "2026-07-09T00:00:00Z" then
    .ok (.aware ⟨63919152000000000, 0, by decide, AwareDatetime.offset_zero_range⟩)
  else if s = lit "2026-07-30T00:00:00Z" then
    .ok (.aware ⟨63920966400000000, 0, by decide, AwareDatetime.offset_zero_range⟩)
  else if s = lit "2026-08-13T18:00:00Z" then
    .ok (.aware ⟨63922240800000000, 0, by decide, AwareDatetime.offset_zero_range⟩)
  else if s = lit "2026-08-13T18:01:00Z" then
    .ok (.aware ⟨63922240860000000, 0, by decide, AwareDatetime.offset_zero_range⟩)
  else .error .valueError

/-- Core with the canonical hash of the sample, and constructors that accept it. -/
def sampleCore : Core Unit (Str × Str × Str) where
  py := asciiInterpreter
  fromisoformat := sampleTime
  canonicalHash _ := lit "bbc9eff36b7f7cea04a698be057da87f2a2d93065c62daf4ebc933a4cbccc5a9"
  subjectIds := id
  acceptsMaterial _ := true
  acceptsSelection _ := true

/-- From the changed file the executor binds materials, and the planner refuses it. -/
theorem sampleContent_not_bindsAsPlanned :
    (∃ ms, loadRecordedMarketSourceMaterials sampleCore sampleContent
      (fun b t e => .ok (b, t, e)) = .ok ms) ∧
      ¬BindsAsPlanned sampleCore sampleContent (fun b t e => .ok (b, t, e)) := by
  have hboth : ((loadRecordedMarketSourceMaterials sampleCore sampleContent
        (fun b t e => .ok (b, t, e))).isOk &&
      !(plannerSelections sampleCore sampleContent).isOk) = true := by decide +kernel
  obtain ⟨hbound, hrefused⟩ := Bool.and_eq_true_iff.mp hboth
  obtain ⟨ms, hms⟩ : ∃ ms, loadRecordedMarketSourceMaterials sampleCore sampleContent
      (fun b t e => .ok (b, t, e)) = .ok ms := by
    cases hload : loadRecordedMarketSourceMaterials sampleCore sampleContent
        (fun b t e => .ok (b, t, e)) with
    | ok ms => exact ⟨ms, rfl⟩
    | error e => simp [hload, Except.isOk, Except.toBool] at hbound
  refine ⟨⟨ms, hms⟩, fun hplanned => ?_⟩
  obtain ⟨ss, hss, -⟩ := hplanned ms hms
  simp [hss, Except.isOk, Except.toBool] at hrefused

end MarketIntelligence.Builder
