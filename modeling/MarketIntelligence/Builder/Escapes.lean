import MarketIntelligence.Builder.Agreement
import MarketIntelligence.Python.Contained

/-!
# Exceptions that escape from binding the inventory

The executor translates failures of reading the inventory file, and it checks a part of
the shape of what it has read. The members that it does not check, and the times that it
parses, are then used as they are. So another exception escapes exactly if a document
with the expected shape lacks one of them at a place that is reached.
-/

namespace MarketIntelligence.Builder

open Python

variable {F Subject : Type}

/-- A text that is read as a time without an offset. -/
def NaiveTime (core : Core F Subject) (value : Data F) : Prop :=
  ∃ s d, value = .str s ∧ core.fromisoformat s = .ok d ∧ ∀ t, d ≠ .aware t

/-- An item that is bound or refused: as far as the members are reached they are there,
and the times are texts that can be read and, with an offset, converted. A time without
an offset is refused and ends the item. -/
def ContainedItem (core : Core F Subject) (inventory : List (Str × Data F)) (subject : Subject)
    (item : Data F) : Prop :=
  ∃ members, item = .dict members ∧
    hasKey members (lit "source_uri") = true ∧
    hasKey members (lit "captured_payload_json") = true ∧
    hasKey members (lit "captured_payload_digest") = true ∧
    hasKey members (lit "source_published_at") = true ∧
    (NaiveTime core (get members (lit "source_published_at")) ∨
      ∃ published, UtcTime core (get members (lit "source_published_at")) published ∧
        hasKey members (lit "observed_at") = true ∧
        (NaiveTime core (get members (lit "observed_at")) ∨
          ∃ observed, UtcTime core (get members (lit "observed_at")) observed ∧
            hasKey members (lit "locator") = true ∧
            core.acceptsMaterial (itemMaterial inventory subject members published observed) =
              true))

/-- Items that are bound or refused one after the other; an item after a refused one is
not reached. -/
def ContainedItems (core : Core F Subject) (inventory : List (Str × Data F))
    (subject : Subject) : List (Data F) → Prop
  | [] => True
  | item :: items => ContainedItem core inventory subject item ∧
      (BindableItem core inventory subject item → ContainedItems core inventory subject items)

/-- The contents of the file from which materials are bound, or which are refused: the
text is not nested too deeply, a JSON value is an object, and one with the expected
identifiers and two materials has both source references and contained items. The host
binds the subject, or refuses it as the executor does. -/
def ContainedContent [PyFloat F] (core : Core F Subject) (content : List UInt8)
    (bindSubject : Str → Str → Str → Except (Raised ExecutorError) Subject) : Prop :=
  readJson (F := F) core.py.limits content ≠ .error .recursionError ∧
    ∀ value, readJson core.py.limits content = .ok value →
      ∃ inventory, value = .dict inventory ∧
        ∀ items, executorHeader core inventory = true →
          get inventory (lit "materials") = .list items → items.length = 2 →
          Contained (bindSubject subjectBindingId entityTypeId entityRef) ∧
          ∀ subject, bindSubject subjectBindingId entityTypeId entityRef = .ok subject →
            hasKey inventory (lit "source_definition_ref") = true ∧
            hasKey inventory (lit "source_type_ref") = true ∧
            ContainedItems core inventory subject items

/-- Two materials in file order, bound to the subject, with times in UTC. -/
structure BoundPair [PyFloat F] (core : Core F Subject) (content : List UInt8)
    (subject : Subject) (materials : List (RecordedSourceMaterial F Subject)) : Prop where
  length_eq : materials.length = 2
  inOrder : ∃ inventory items, readJson core.py.limits content = .ok (.dict inventory) ∧
    get inventory (lit "materials") = .list items ∧
    List.Forall₂ (fun item m => ∃ members published observed, item = .dict members ∧
      UtcTime core (get members (lit "source_published_at")) published ∧
      UtcTime core (get members (lit "observed_at")) observed ∧
      m = itemMaterial inventory subject members published observed) items materials
  subject_eq : ∀ m ∈ materials, m.subjectBinding = subject
  utc : ∀ m ∈ materials, m.sourcePublishedAt.offset = 0 ∧ m.observedAt.offset = 0

/-! ### The single steps -/

/-- A lookup and what follows it. -/
theorem contained_lookup_bind {Own α : Type} {ms : List (Str × Data F)} {key : Str}
    {f : Data F → Except (Raised Own) α} :
    Contained (ofBuiltin (lookup ms key) >>= f) ↔
      hasKey ms key = true ∧ Contained (f (get ms key)) := by
  unfold lookup
  cases hasKey ms key <;> simp [ofBuiltin]

/-- A time and what follows it. -/
theorem contained_time_bind {α : Type} {core : Core F Subject} {value : Data F}
    {f : AwareDatetime → Except (Raised ExecutorError) α} :
    Contained (executorTime core value >>= f) ↔
      NaiveTime core value ∨ ∃ u, UtcTime core value u ∧ Contained (f u) := by
  cases value with
  | str s =>
    simp only [executorTime, utcTime, NaiveTime, UtcTime, Data.str.injEq]
    cases hparsed : core.fromisoformat s with
    | error e => simp [ofBuiltin, hparsed]
    | ok d =>
      cases d with
      | aware t =>
        cases hutc : t.astimezoneUtc <;> simp [ofBuiltin, hparsed, hutc]
      | _ => simp [ofBuiltin, hparsed]
  | _ => simp [executorTime, utcTime, NaiveTime, UtcTime]

/-- One material is bound or refused exactly from a contained item. -/
theorem contained_recordedMaterial {core : Core F Subject} {inventory : List (Str × Data F)}
    {subject : Subject} {item : Data F}
    (hgroup : hasKey inventory (lit "source_group_id") = true)
    (hmapping : hasKey inventory (lit "mapping_id") = true)
    (hdefinition : hasKey inventory (lit "source_definition_ref") = true)
    (htype : hasKey inventory (lit "source_type_ref") = true) :
    Contained (recordedMaterial core inventory subject item) ↔
      ContainedItem core inventory subject item := by
  have haccepts (m : RecordedSourceMaterial F Subject) :
      Contained (if core.acceptsMaterial m = true then (return m) else
        .error (.builtin .valueError) : Except (Raised ExecutorError) _) ↔
        core.acceptsMaterial m = true := by
    cases core.acceptsMaterial m <;> simp
  cases item with
  | dict members =>
    simp only [recordedMaterial, Data.subscript, contained_lookup_bind, contained_time_bind, hgroup,
      hmapping, hdefinition, htype, true_and, haccepts, ContainedItem, Data.dict.injEq,
      exists_eq_left', itemMaterial]
  | _ =>
    have hsubscript (f : Data F → Except (Raised ExecutorError) _) :
        ¬Contained (ofBuiltin (.error .typeError) >>= f :
          Except (Raised ExecutorError) (RecordedSourceMaterial F Subject)) := by
      simp [ofBuiltin]
    simp only [recordedMaterial, Data.subscript, contained_lookup_bind, hgroup, hmapping,
      hdefinition, htype, true_and, ContainedItem, reduceCtorEq, false_and, exists_false, iff_false]
    exact hsubscript _

/-- A material is bound from an item exactly if the item is bindable. -/
theorem recordedMaterial_isOk_iff {core : Core F Subject} {inventory : List (Str × Data F)}
    {subject : Subject} {item : Data F}
    (hgroup : hasKey inventory (lit "source_group_id") = true)
    (hmapping : hasKey inventory (lit "mapping_id") = true)
    (hdefinition : hasKey inventory (lit "source_definition_ref") = true)
    (htype : hasKey inventory (lit "source_type_ref") = true) :
    (∃ m, recordedMaterial core inventory subject item = .ok m) ↔
      BindableItem core inventory subject item := by
  simp only [recordedMaterial_eq_ok hgroup hmapping hdefinition htype]
  constructor
  · rintro ⟨m, members, published, observed, hitem, hkeys, hp, ho, haccept, -⟩
    exact ⟨members, published, observed, hitem, hkeys, hp, ho, haccept⟩
  · rintro ⟨members, published, observed, hitem, hkeys, hp, ho, haccept⟩
    exact ⟨_, members, published, observed, hitem, hkeys, hp, ho, haccept, rfl⟩

/-- The materials are bound or refused exactly from contained items. -/
theorem contained_recordedMaterials {core : Core F Subject} {inventory : List (Str × Data F)}
    {subject : Subject} (hgroup : hasKey inventory (lit "source_group_id") = true)
    (hmapping : hasKey inventory (lit "mapping_id") = true)
    (hdefinition : hasKey inventory (lit "source_definition_ref") = true)
    (htype : hasKey inventory (lit "source_type_ref") = true) (items : List (Data F)) :
    Contained (recordedMaterials core inventory subject items) ↔
      ContainedItems core inventory subject items := by
  induction items with
  | nil => simp [recordedMaterials, ContainedItems]
  | cons item items ih =>
    have hrest (m : RecordedSourceMaterial F Subject) :
        Contained (recordedMaterials core inventory subject items >>= fun ms =>
          (.ok (m :: ms) : Except (Raised ExecutorError) _)) ↔
          ContainedItems core inventory subject items := by
      rw [contained_bind, ih]
      simp
    simp only [recordedMaterials, ContainedItems, contained_bind (x := recordedMaterial ..),
      contained_recordedMaterial hgroup hmapping hdefinition htype, pure_eq_ok, hrest,
      ← recordedMaterial_isOk_iff hgroup hmapping hdefinition htype, forall_exists_index]

/-- The first item looks both source references up, before its own members. -/
theorem references_of_contained {core : Core F Subject} {inventory : List (Str × Data F)}
    {subject : Subject} {items : List (Data F)} (hpos : 0 < items.length)
    (h : Contained (recordedMaterials core inventory subject items)) :
    hasKey inventory (lit "source_definition_ref") = true ∧
      hasKey inventory (lit "source_type_ref") = true := by
  obtain ⟨item, rest, rfl⟩ := List.exists_cons_of_length_pos hpos
  have hfirst := (contained_bind.mp h).1
  simp only [recordedMaterial, contained_lookup_bind] at hfirst
  obtain ⟨-, -, hdefinition, htype, -⟩ := hfirst
  exact ⟨hdefinition, htype⟩

/-- The materials are those of the items, in their order. -/
theorem recordedMaterials_inOrder {core : Core F Subject} {inventory : List (Str × Data F)}
    {subject : Subject} {items : List (Data F)} {ms : List (RecordedSourceMaterial F Subject)}
    (h : recordedMaterials core inventory subject items = .ok ms) :
    List.Forall₂ (fun item m => recordedMaterial core inventory subject item = .ok m) items ms := by
  induction items generalizing ms with
  | nil =>
    obtain rfl : [] = ms := by simpa [recordedMaterials] using h
    exact .nil
  | cons item items ih =>
    obtain ⟨m, hm, h⟩ := bind_eq_ok.mp h
    obtain ⟨rest, hrest, h⟩ := bind_eq_ok.mp h
    obtain rfl : m :: rest = ms := by simpa using h
    exact .cons hm (ih hrest)

/-- Every material is that of an item. -/
theorem recordedMaterials_each {core : Core F Subject} {inventory : List (Str × Data F)}
    {subject : Subject} {items : List (Data F)} {ms : List (RecordedSourceMaterial F Subject)}
    (h : recordedMaterials core inventory subject items = .ok ms) :
    ∀ m ∈ ms, ∃ item, recordedMaterial core inventory subject item = .ok m := by
  have hforall := recordedMaterials_inOrder h
  clear h
  induction hforall with
  | nil => simp
  | cons hm _ ih => exact List.forall_mem_cons.mpr ⟨⟨_, hm⟩, ih⟩

variable [PyFloat F]

/-- What reading the file can raise is translated, except for the recursion error. -/
theorem readJson_error {limits : Limits} {content : List UInt8} {e : BuiltinError}
    (h : readJson (F := F) limits content = .error e) :
    e = .recursionError ∨ e.caughtBy .valueError = true := by
  unfold readJson readText at h
  rcases bind_eq_error.mp h with h | ⟨text, -, h⟩
  · split at h
    · simp at h
    · obtain rfl := Except.error.inj h
      exact .inr rfl
  · unfold jsonLoads at h
    split at h
    · simp at h
    · obtain rfl := Except.error.inj h
      exact .inr rfl
    · exact .inl (Except.error.inj h).symm
    · obtain rfl := Except.error.inj h
      exact .inr rfl

/-- Reading the inventory is contained exactly for an object, and for a text that does
not exceed the recursion limit. -/
theorem contained_readInventory {Own : Type} {core : Core F Subject} {unavailable : Own}
    {content : List UInt8} :
    Contained (readInventory core unavailable content) ↔
      readJson (F := F) core.py.limits content ≠ .error .recursionError ∧
        ∀ value, readJson (F := F) core.py.limits content = .ok value →
          ∃ inventory, value = .dict inventory := by
  unfold readInventory
  cases hread : readJson (F := F) core.py.limits content with
  | error e =>
    rcases readJson_error hread with rfl | hcaught
    · simp [handleReadError, BuiltinError.caughtBy]
    · have hne : e ≠ .recursionError := by
        rintro rfl
        simp [BuiltinError.caughtBy] at hcaught
      simp [handleReadError, hcaught, hne]
  | ok value => cases value <;> simp

/-- After the file is read, the inventory is bound or refused. -/
theorem contained_executorInventory {core : Core F Subject} {content : List UInt8} :
    Contained (executorInventory core content) ↔
      readJson (F := F) core.py.limits content ≠ .error .recursionError ∧
        ∀ value, readJson (F := F) core.py.limits content = .ok value →
          ∃ inventory, value = .dict inventory := by
  rw [executorInventory, contained_bind, contained_readInventory]
  refine and_iff_left fun material _ => ?_
  refine contained_ite ?_ (contained_own _)
  cases materialPair material with
  | none => exact contained_own _
  | some items => exact contained_ok _

/-- Loading is contained exactly for the contained contents. -/
theorem contained_loadRecordedMarketSourceMaterials {core : Core F Subject} {content : List UInt8}
    {bindSubject : Str → Str → Str → Except (Raised ExecutorError) Subject} :
    Contained (loadRecordedMarketSourceMaterials core content bindSubject) ↔
      ContainedContent core content bindSubject := by
  have hitems {inventory : List (Str × Data F)} {items : List (Data F)} {subject : Subject}
      (hheader : executorHeader core inventory = true) (hlen : items.length = 2) :
      Contained (recordedMaterials core inventory subject items) ↔
        hasKey inventory (lit "source_definition_ref") = true ∧
        hasKey inventory (lit "source_type_ref") = true ∧
        ContainedItems core inventory subject items := by
    obtain ⟨hgroup, hmapping⟩ := executorHeader_keys hheader
    constructor
    · intro h
      obtain ⟨hdefinition, htype⟩ := references_of_contained (by omega) h
      exact ⟨hdefinition, htype,
        (contained_recordedMaterials hgroup hmapping hdefinition htype items).mp h⟩
    · rintro ⟨hdefinition, htype, h⟩
      exact (contained_recordedMaterials hgroup hmapping hdefinition htype items).mpr h
  rw [loadRecordedMarketSourceMaterials, contained_bind, contained_executorInventory,
    ContainedContent, and_assoc]
  refine and_congr_right fun _ => ?_
  constructor
  · rintro ⟨hobject, hload⟩ value hvalue
    obtain ⟨inventory, rfl⟩ := hobject value hvalue
    refine ⟨inventory, rfl, fun items hheader hlist hlen => ?_⟩
    have h := hload (inventory, items) (executorInventory_eq_ok.mpr ⟨hvalue, hheader, hlist, hlen⟩)
    obtain ⟨hbind, hmaterials⟩ := contained_bind.mp h
    exact ⟨hbind, fun subject hsubject => (hitems hheader hlen).mp (hmaterials subject hsubject)⟩
  · intro hcontent
    refine ⟨fun value hvalue => ?_, fun read hinventory => ?_⟩
    · obtain ⟨inventory, rfl, -⟩ := hcontent value hvalue
      exact ⟨inventory, rfl⟩
    · obtain ⟨inventory, items⟩ := read
      obtain ⟨hread, hheader, hlist, hlen⟩ := executorInventory_eq_ok.mp hinventory
      obtain ⟨_, heq, h⟩ := hcontent _ hread
      obtain rfl := Data.dict.inj heq
      obtain ⟨hbind, hmaterials⟩ := h items hheader hlist hlen
      exact contained_bind.mpr
        ⟨hbind, fun subject hsubject => (hitems hheader hlen).mpr (hmaterials subject hsubject)⟩

/-- What is bound is a pair in file order, of the subject that the host resolved. -/
theorem boundPair_of_load {core : Core F Subject} {content : List UInt8}
    {bindSubject : Str → Str → Str → Except (Raised ExecutorError) Subject}
    {materials : List (RecordedSourceMaterial F Subject)}
    (h : loadRecordedMarketSourceMaterials core content bindSubject = .ok materials) :
    ∃ subject, bindSubject subjectBindingId entityTypeId entityRef = .ok subject ∧
      BoundPair core content subject materials := by
  obtain ⟨⟨inventory, items⟩, hinventory, h⟩ := bind_eq_ok.mp h
  obtain ⟨subject, hsubject, h⟩ := bind_eq_ok.mp h
  obtain ⟨hread, hheader, hlist, hlen⟩ := executorInventory_eq_ok.mp hinventory
  obtain ⟨hgroup, hmapping⟩ := executorHeader_keys hheader
  obtain ⟨hdefinition, htype⟩ := references_of_contained (by omega) (h ▸ contained_ok materials)
  have hitem (item : Data F) (m : RecordedSourceMaterial F Subject) :=
    @recordedMaterial_eq_ok F Subject core inventory subject item m hgroup hmapping hdefinition
      htype
  have hforall := recordedMaterials_inOrder h
  have hmade := recordedMaterials_each h
  refine ⟨subject, hsubject, ⟨?_, ?_, fun m hm => ?_, fun m hm => ?_⟩⟩
  · rw [← hforall.length_eq, hlen]
  · refine ⟨inventory, items, hread, hlist, hforall.imp fun item m hrec => ?_⟩
    obtain ⟨members, published, observed, hdict, -, hp, ho, -, rfl⟩ := (hitem item m).mp hrec
    exact ⟨members, published, observed, hdict, hp, ho, rfl⟩
  · obtain ⟨item, hrec⟩ := hmade m hm
    obtain ⟨-, -, -, -, -, -, -, -, rfl⟩ := (hitem item m).mp hrec
    rfl
  · obtain ⟨item, hrec⟩ := hmade m hm
    obtain ⟨_, published, observed, -, -, ⟨_, _, -, -, hp⟩, ⟨_, _, -, -, ho⟩, -, rfl⟩ :=
      (hitem item m).mp hrec
    exact ⟨(AwareDatetime.astimezoneUtc_spec hp).2, (AwareDatetime.astimezoneUtc_spec ho).2⟩

/-- The loader returns a bound pair or raises the executor's exception exactly for the
contained contents. -/
theorem bound_or_refused_iff (core : Core F Subject) (content : List UInt8)
    (bindSubject : Str → Str → Str → Except (Raised ExecutorError) Subject) :
    ((∃ materials subject,
        loadRecordedMarketSourceMaterials core content bindSubject = .ok materials ∧
          bindSubject subjectBindingId entityTypeId entityRef = .ok subject ∧
          BoundPair core content subject materials) ∨
      ∃ e, loadRecordedMarketSourceMaterials core content bindSubject = .error (.own e)) ↔
      ContainedContent core content bindSubject := by
  rw [← contained_loadRecordedMarketSourceMaterials]
  cases hload : loadRecordedMarketSourceMaterials core content bindSubject with
  | ok materials =>
    obtain ⟨subject, hsubject, hpair⟩ := boundPair_of_load hload
    exact iff_of_true (.inl ⟨materials, subject, rfl, hsubject, hpair⟩) (contained_ok materials)
  | error e => simp [Contained]

/-- A list in place of the object has no method `get`, and the exception of its absence
escapes. -/
theorem list_not_bound_or_refused :
    ¬((∃ materials subject,
        loadRecordedMarketSourceMaterials sampleCore (asciiBytes (lit "[]"))
          (fun b t e => .ok (b, t, e)) = .ok materials ∧
          (.ok (subjectBindingId, entityTypeId, entityRef) : Except (Raised ExecutorError) _) =
            .ok subject ∧
          BoundPair sampleCore (asciiBytes (lit "[]")) subject materials) ∨
      ∃ e, loadRecordedMarketSourceMaterials sampleCore (asciiBytes (lit "[]"))
        (fun b t e => .ok (b, t, e)) = .error (.own e)) := by
  have hload : loadRecordedMarketSourceMaterials sampleCore (asciiBytes (lit "[]"))
      (fun b t e => .ok (b, t, e)) = .error (.builtin .attributeError) := by rfl
  simp [hload]

end MarketIntelligence.Builder
