import MarketIntelligence.Cases.Assembly

/-!
# The exact closure of a Case

The Case of a Brief is meant to stand on exactly the Shifts and Signals that the Brief
cites. The assembly selects records by key alone, and it compares only their kinds with
what is expected. So the closure is exact if the store resolves every citation, and a
missing citation is noticed if no other one of its kind is found.
-/

namespace MarketIntelligence.Cases

open Python Interaction

variable {Payload Revision Context Binding Head Precondition Receipt : Type}

/-! ### What the assembly selects -/

/-- A record of kind Shift or Signal with one of the keys. -/
def Selected (ids : List Str) (record : ImmutableRecord Payload) : Prop :=
  record.recordKey ∈ ids ∧ (record.recordKind = lit "shift" ∨ record.recordKind = lit "signal")

/-- The payload is what the kind of the record requires. -/
def Validates (core : CaseCore Payload Revision Context Binding Head Precondition Receipt)
    (record : ImmutableRecord Payload) (value : ClosureValue) : Prop :=
  ∃ validate, model core record.recordKind = some validate ∧ validate record.payload = .ok value

/-- The selected record with its value, if it validates. -/
def entry (core : CaseCore Payload Revision Context Binding Head Precondition Receipt)
    (ids : List Str) (record : ImmutableRecord Payload) :
    Option (ImmutableRecord Payload × ClosureValue) :=
  if record.recordKey ∈ ids then
    match model core record.recordKind with
    | none => none
    | some validate =>
        match validate record.payload with
        | .ok value => some (record, value)
        | .error _ => none
  else none

variable {core : CaseCore Payload Revision Context Binding Head Precondition Receipt}

/-- Exactly Shifts and Signals have a model. -/
theorem model_eq_none {recordKind : Str} :
    model core recordKind = none ↔ ¬(recordKind = lit "shift" ∨ recordKind = lit "signal") := by
  unfold model
  split
  · next h => simp [h]
  · split
    · next h => simp [h]
    · next hshift hsignal => simp [hshift, hsignal]

/-- An entry is a selected record that validates. -/
theorem entry_eq_some {ids : List Str} {record : ImmutableRecord Payload}
    {v : ImmutableRecord Payload × ClosureValue} :
    entry core ids record = some v ↔
      v.1 = record ∧ record.recordKey ∈ ids ∧ Validates core record v.2 := by
  obtain ⟨r, value⟩ := v
  unfold entry Validates
  by_cases hkey : record.recordKey ∈ ids
  · rw [if_pos hkey]
    cases hmodel : model core record.recordKind with
    | none => simp
    | some validate =>
      cases hvalue : validate record.payload with
      | error e => simp [hvalue]
      | ok w => simp [hvalue, hkey, eq_comm]
  · simp [hkey]

/-- A record that validates is a Shift or a Signal. -/
theorem Validates.kind {record : ImmutableRecord Payload} {value : ClosureValue}
    (h : Validates core record value) :
    record.recordKind = lit "shift" ∨ record.recordKind = lit "signal" := by
  obtain ⟨validate, hmodel, -⟩ := h
  by_contra hkind
  rw [model_eq_none.mpr hkind] at hmodel
  cases hmodel

/-- The values are the entries of the records in their order, and there are values if
every selected record validates. -/
theorem closureValues_eq_ok {ids : List Str} {records : List (ImmutableRecord Payload)}
    {values : List (ImmutableRecord Payload × ClosureValue)} :
    closureValues core ids records = .ok values ↔
      (∀ record ∈ records, Selected ids record → ∃ value, Validates core record value) ∧
        records.filterMap (entry core ids) = values := by
  induction records generalizing values with
  | nil => simp [closureValues]
  | cons record records ih =>
    simp only [closureValues, List.forall_mem_cons]
    by_cases hkey : record.recordKey ∈ ids
    · rw [if_pos hkey]
      cases hmodel : model core record.recordKind with
      | none =>
        have hkind := model_eq_none.mp hmodel
        have hentry : entry core ids record = none := by simp [entry, hmodel]
        simp [ih, Selected, hkind, hentry]
      | some validate =>
        have hselected : Selected ids record := by
          refine ⟨hkey, ?_⟩
          by_contra hkind
          rw [model_eq_none.mpr hkind] at hmodel
          cases hmodel
        cases hvalue : validate record.payload with
        | error e => simp [Validates, hmodel, hvalue, hselected]
        | ok value =>
          have hentry : entry core ids record = some (record, value) :=
            entry_eq_some.mpr ⟨rfl, hkey, validate, hmodel, hvalue⟩
          have hvalid : ∃ value, Validates core record value := ⟨value, validate, hmodel, hvalue⟩
          simp only [hvalue, ok_bind, bind_eq_ok, ih, pure_eq_ok, Except.ok.injEq,
            List.filterMap_cons, hentry, hselected, hvalid, true_implies, true_and]
          constructor
          · rintro ⟨_, ⟨hall, rfl⟩, rfl⟩
            exact ⟨hall, rfl⟩
          · rintro ⟨hall, rfl⟩
            exact ⟨_, ⟨hall, rfl⟩, rfl⟩
    · have hentry : entry core ids record = none := by simp [entry, hkey]
      simp [hkey, ih, Selected, hentry]

/-- The kinds of entries are both there if there is an entry of each kind. -/
theorem bothKinds_filterMap {ids : List Str} {records : List (ImmutableRecord Payload)} :
    bothKinds (records.filterMap (entry core ids)) = true ↔
      (∃ v ∈ records.filterMap (entry core ids), v.1.recordKind = lit "shift") ∧
        ∃ v ∈ records.filterMap (entry core ids), v.1.recordKind = lit "signal" := by
  have hall : ∀ v ∈ records.filterMap (entry core ids),
      v.1.recordKind = lit "shift" ∨ v.1.recordKind = lit "signal" := by
    intro v hv
    obtain ⟨record, -, hentry⟩ := List.mem_filterMap.mp hv
    obtain ⟨rfl, -, hvalid⟩ := entry_eq_some.mp hentry
    exact hvalid.kind
  have hkinds : (((records.filterMap (entry core ids)).map fun v => v.1.recordKind).all
      fun kind => kind = lit "shift" || kind = lit "signal") = true := by
    rw [List.all_map, List.all_eq_true]
    intro v hv
    simpa using hall v hv
  simp only [bothKinds, hkinds, Bool.true_and, Bool.and_eq_true, decide_eq_true_eq, List.mem_map]

/-! ### How far the assembly gets -/

variable {env : CaseEnvironment Payload Context Binding Head Precondition}
  {brief : Brief Revision}

/-- The records and values of a Brief, in the order of the store. -/
def entries (core : CaseCore Payload Revision Context Binding Head Precondition Receipt)
    (env : CaseEnvironment Payload Context Binding Head Precondition) (brief : Brief Revision) :
    List (ImmutableRecord Payload × ClosureValue) :=
  env.records.filterMap (entry core (directIds brief))

/-- The authorizer is asked: the selected records validate and are of both kinds, and the
request can be made. -/
structure Reaches (core : CaseCore Payload Revision Context Binding Head Precondition Receipt)
    (env : CaseEnvironment Payload Context Binding Head Precondition) (brief : Brief Revision) :
    Prop where
  valid : ∀ record ∈ env.records, Selected (directIds brief) record →
    ∃ value, Validates core record value
  shift : ∃ record ∈ env.records, record.recordKey ∈ directIds brief ∧
    record.recordKind = lit "shift"
  signal : ∃ record ∈ env.records, record.recordKey ∈ directIds brief ∧
    record.recordKind = lit "signal"
  requested : ∃ request, authorizationRequest core env (entries core env brief) = .ok request

/-- A record of a kind is selected exactly if there is an entry of the kind, where all
selected records validate. -/
theorem exists_entry_iff (hvalid : ∀ record ∈ env.records, Selected (directIds brief) record →
      ∃ value, Validates core record value) {kind : Str}
    (hkind : kind = lit "shift" ∨ kind = lit "signal") :
    (∃ v ∈ entries core env brief, v.1.recordKind = kind) ↔
      ∃ record ∈ env.records, record.recordKey ∈ directIds brief ∧ record.recordKind = kind := by
  constructor
  · rintro ⟨v, hv, rfl⟩
    obtain ⟨record, hmem, hentry⟩ := List.mem_filterMap.mp hv
    obtain ⟨rfl, hkey, -⟩ := entry_eq_some.mp hentry
    exact ⟨v.1, hmem, hkey, rfl⟩
  · rintro ⟨record, hmem, hkey, rfl⟩
    obtain ⟨value, hvalue⟩ := hvalid record hmem ⟨hkey, hkind⟩
    exact ⟨(record, value),
      List.mem_filterMap.mpr ⟨record, hmem, entry_eq_some.mpr ⟨rfl, hkey, hvalue⟩⟩, rfl⟩

/-- The gates before the authorizer pass exactly where the assembly reaches it. -/
theorem reaches_iff :
    Reaches core env brief ↔ ∃ values request,
      closureValues core (directIds brief) env.records = .ok values ∧
        checkClosure values = .ok () ∧ authorizationRequest core env values = .ok request := by
  simp only [checkClosure, raiseUnless_eq_ok]
  constructor
  · rintro ⟨hvalid, hshift, hsignal, request, hrequest⟩
    refine ⟨entries core env brief, request, closureValues_eq_ok.mpr ⟨hvalid, rfl⟩, ?_, hrequest⟩
    exact bothKinds_filterMap.mpr ⟨(exists_entry_iff hvalid (.inl rfl)).mpr hshift,
      (exists_entry_iff hvalid (.inr rfl)).mpr hsignal⟩
  · rintro ⟨values, request, hvalues, hkinds, hrequest⟩
    obtain ⟨hvalid, rfl⟩ := closureValues_eq_ok.mp hvalues
    obtain ⟨hshift, hsignal⟩ := bothKinds_filterMap.mp hkinds
    exact ⟨hvalid, (exists_entry_iff hvalid (.inl rfl)).mp hshift,
      (exists_entry_iff hvalid (.inr rfl)).mp hsignal, request, hrequest⟩

/-- The arguments of a Case that come from the entries. -/
theorem caseArguments_parts {values : List (ImmutableRecord Payload × ClosureValue)}
    {authorization : Authorization Precondition} {arguments : CaseArguments Revision}
    (h : caseArguments env brief values authorization = .ok arguments) :
    firstSubjectRefs values = .ok arguments.subjectRefs ∧
      latest (values.map fun v => v.2.resource.asOf) = .ok arguments.asOf ∧
      arguments.lineage = values.map fun v => lineage v.1 v.2 := by
  obtain ⟨subjectRefs, hrefs, h⟩ := bind_eq_ok.mp h
  obtain ⟨asOf, hasOf, h⟩ := bind_eq_ok.mp h
  obtain rfl := Except.ok.inj h
  exact ⟨hrefs, ofBuiltin_eq_ok.mp hasOf, rfl⟩

/-- An assembled Case was made of these arguments. -/
theorem assembledCase_arguments {values : List (ImmutableRecord Payload × ClosureValue)}
    {authorization : Authorization Precondition} {case : Case Revision Payload}
    (h : assembledCase core env brief values authorization = .ok case) :
    caseArguments env brief values authorization = .ok case.toCaseArguments := by
  obtain ⟨arguments, harguments, h⟩ := bind_eq_ok.mp h
  obtain ⟨⟨resourceId, contract, dump⟩, -, h⟩ := bind_eq_ok.mp h
  obtain rfl := Except.ok.inj h
  exact harguments

/-- The parts of an assembled Case that come from the entries. -/
theorem assembledCase_parts {values : List (ImmutableRecord Payload × ClosureValue)}
    {authorization : Authorization Precondition} {case : Case Revision Payload}
    (h : assembledCase core env brief values authorization = .ok case) :
    firstSubjectRefs values = .ok case.subjectRefs ∧
      latest (values.map fun v => v.2.resource.asOf) = .ok case.asOf ∧
      case.lineage = values.map fun v => lineage v.1 v.2 :=
  caseArguments_parts (assembledCase_arguments h)

/-! ### Exact closures -/

/-- A record from which an entry of a lineage comes. -/
def Source (core : CaseCore Payload Revision Context Binding Head Precondition Receipt)
    (ids : List Str) (record : ImmutableRecord Payload) (item : LineageReference) : Prop :=
  record.recordKey ∈ ids ∧ ∃ value, Validates core record value ∧ item = lineage record value

/-- The lineage of a Case is the exact Shift/Signal closure of the Brief. -/
structure ExactClosure (core : CaseCore Payload Revision Context Binding Head Precondition Receipt)
    (env : CaseEnvironment Payload Context Binding Head Precondition) (brief : Brief Revision)
    (case : Case Revision Payload) : Prop where
  ids_eq : ∀ id, id ∈ case.lineage.map LineageReference.resourceId ↔ id ∈ directIds brief
  nodup : (case.lineage.map LineageReference.resourceId).Nodup
  digest : ∀ cite ∈ cited brief, ∀ item ∈ case.lineage, item.resourceId = cite.resourceId →
    item.resourceDigest = cite.resourceDigest
  scope : ∀ item ∈ case.lineage, ∀ record ∈ env.records,
    Source core (directIds brief) record item →
      record.productId = env.productId ∧ record.recordSpace = ResourceMode.prepared.value

/-- A Shift or Signal that the Brief cites has no record of its key and kind. -/
def Missing (env : CaseEnvironment Payload Context Binding Head Precondition)
    (brief : Brief Revision) : Prop :=
  ∃ cite ∈ cited brief, ∀ record ∈ env.records, record.recordKey = cite.resourceId →
    lineageKind record.recordKind ≠ cite.resourceKind

/-- The resource ids that the selected records carry. -/
def carriedIds (core : CaseCore Payload Revision Context Binding Head Precondition Receipt)
    (env : CaseEnvironment Payload Context Binding Head Precondition) (brief : Brief Revision) :
    List Str :=
  (entries core env brief).map fun v => textOf v.2.resource.resourceId

/-- The store resolves every citation of the Brief: one selected record carries it, with
the digest that is cited, and no selected record carries anything else or is of another
product or record space. -/
structure Resolves (core : CaseCore Payload Revision Context Binding Head Precondition Receipt)
    (env : CaseEnvironment Payload Context Binding Head Precondition) (brief : Brief Revision) :
    Prop where
  once : ∀ cite ∈ cited brief, (carriedIds core env brief).count cite.resourceId = 1
  only : ∀ id ∈ carriedIds core env brief, id ∈ directIds brief
  digest : ∀ cite ∈ cited brief, ∀ record ∈ env.records, record.recordKey ∈ directIds brief →
    ∀ value, Validates core record value →
      textOf value.resource.resourceId = cite.resourceId →
        textOf value.resource.resourceDigest = cite.resourceDigest
  scope : ∀ record ∈ env.records, Selected (directIds brief) record →
    record.productId = env.productId ∧ record.recordSpace = ResourceMode.prepared.value

/-- An entry is a record of the store whose key is cited, with its value. -/
theorem mem_entries {v : ImmutableRecord Payload × ClosureValue} :
    v ∈ entries core env brief ↔
      v.1 ∈ env.records ∧ v.1.recordKey ∈ directIds brief ∧ Validates core v.1 v.2 := by
  simp only [entries, List.mem_filterMap, entry_eq_some]
  constructor
  · rintro ⟨record, hmem, rfl, hkey, hvalid⟩
    exact ⟨hmem, hkey, hvalid⟩
  · rintro ⟨hmem, hkey, hvalid⟩
    exact ⟨v.1, hmem, rfl, hkey, hvalid⟩

section Entries

variable {case : Case Revision Payload}

/-- A Case of the entries carries the identities of the entries. -/
theorem carriedIds_of_lineage
    (hlineage : case.lineage = (entries core env brief).map fun v => lineage v.1 v.2) :
    case.lineage.map LineageReference.resourceId = carriedIds core env brief := by
  rw [hlineage, List.map_map]
  rfl

/-- The store resolves every citation if the closure is exact. -/
theorem resolves_of_exactClosure
    (hlineage : case.lineage = (entries core env brief).map fun v => lineage v.1 v.2)
    (hvalid : ∀ record ∈ env.records, Selected (directIds brief) record →
      ∃ value, Validates core record value)
    (h : ExactClosure core env brief case) : Resolves core env brief := by
  have hids := carriedIds_of_lineage hlineage
  have hmem (record : ImmutableRecord Payload) (value : ClosureValue)
      (hrecord : record ∈ env.records) (hkey : record.recordKey ∈ directIds brief)
      (hvalue : Validates core record value) : lineage record value ∈ case.lineage := by
    rw [hlineage]
    exact List.mem_map.mpr ⟨(record, value), mem_entries.mpr ⟨hrecord, hkey, hvalue⟩, rfl⟩
  refine ⟨fun cite hcite => ?_, fun id hid => ?_, ?_, ?_⟩
  · have hmemId : cite.resourceId ∈ carriedIds core env brief := by
      rw [← hids]
      exact (h.ids_eq _).mpr (List.mem_map_of_mem hcite)
    exact List.count_eq_one_of_mem (hids ▸ h.nodup) hmemId
  · exact (h.ids_eq id).mp (hids ▸ hid)
  · intro cite hcite record hrecord hkey value hvalue hid
    exact h.digest cite hcite _ (hmem record value hrecord hkey hvalue) hid
  · intro record hrecord hselected
    obtain ⟨value, hvalue⟩ := hvalid record hrecord hselected
    exact h.scope _ (hmem record value hrecord hselected.1 hvalue) record hrecord
      ⟨hselected.1, value, hvalue, rfl⟩

/-- The closure is exact if the store resolves every citation. -/
theorem exactClosure_of_resolves
    (hlineage : case.lineage = (entries core env brief).map fun v => lineage v.1 v.2)
    (h : Resolves core env brief) : ExactClosure core env brief case := by
  have hids := carriedIds_of_lineage hlineage
  refine ⟨fun id => ⟨fun hid => ?_, fun hid => ?_⟩, ?_, ?_, ?_⟩
  · exact h.only id (hids ▸ hid)
  · obtain ⟨cite, hcite, rfl⟩ := List.mem_map.mp hid
    rw [hids]
    have hone := h.once cite hcite
    exact List.count_pos_iff.mp (by omega)
  · rw [hids, List.nodup_iff_count_eq_one]
    intro id hid
    obtain ⟨cite, hcite, rfl⟩ := List.mem_map.mp (h.only id hid)
    exact h.once cite hcite
  · intro cite hcite item hitem hid
    rw [hlineage] at hitem
    obtain ⟨v, hv, rfl⟩ := List.mem_map.mp hitem
    obtain ⟨hrecord, hkey, hvalue⟩ := mem_entries.mp hv
    exact h.digest cite hcite v.1 hrecord hkey v.2 hvalue hid
  · rintro item - record hrecord ⟨hkey, value, hvalue, -⟩
    exact h.scope record hrecord ⟨hkey, hvalue.kind⟩

/-- A Case of the entries has an exact closure exactly if the store resolves every
citation. -/
theorem exactClosure_iff
    (hlineage : case.lineage = (entries core env brief).map fun v => lineage v.1 v.2)
    (hvalid : ∀ record ∈ env.records, Selected (directIds brief) record →
      ∃ value, Validates core record value) :
    ExactClosure core env brief case ↔ Resolves core env brief :=
  ⟨resolves_of_exactClosure hlineage hvalid, exactClosure_of_resolves hlineage⟩

end Entries

/-! ### Runs -/

variable [DecidableEq Receipt]

/-- Where the assembly reaches the authorizer, its first operation is the request. -/
theorem assembleCase_of_reaches (hbrief : core.validateBrief env.briefPayload = .ok brief)
    (h : Reaches core env brief) :
    ∃ request next, authorizationRequest core env (entries core env brief) = .ok request ∧
      assembleCase core env = .ask (.authorizeAction request) next := by
  obtain ⟨values, request, hvalues, hcheck, hrequest⟩ := reaches_iff.mp h
  obtain ⟨-, rfl⟩ := closureValues_eq_ok.mp hvalues
  rw [assembleCase, hbrief, Program.ofExcept_ok_bind, hvalues, Program.ofExcept_ok_bind, hcheck,
    Program.ofExcept_ok_bind, hrequest, Program.ofExcept_ok_bind]
  exact ⟨request, _, hrequest, rfl⟩

/-- Elsewhere it raises without any operation. -/
theorem assembleCase_of_not_reaches (hbrief : core.validateBrief env.briefPayload = .ok brief)
    (h : ¬Reaches core env brief) : ∃ e, assembleCase core env = .fail e := by
  rw [assembleCase, hbrief, Program.ofExcept_ok_bind]
  cases hvalues : closureValues core (directIds brief) env.records with
  | error e => exact ⟨e, rfl⟩
  | ok values =>
    rw [Program.ofExcept_ok_bind]
    cases hcheck : checkClosure values with
    | error e => exact ⟨e, rfl⟩
    | ok _ =>
      rw [Program.ofExcept_ok_bind]
      cases hrequest : authorizationRequest core env values with
      | error e => exact ⟨e, rfl⟩
      | ok request => exact absurd (reaches_iff.mpr ⟨values, request, hvalues, hcheck, hrequest⟩) h

/-- The authorizer is asked for the request of the entries, and what is returned was
assembled from them. -/
def assemblyContract
    (core : CaseCore Payload Revision Context Binding Head Precondition Receipt)
    (env : CaseEnvironment Payload Context Binding Head Precondition) (brief : Brief Revision) :
    Contract (CaseCall Payload Context Binding Precondition) (Answer Receipt) (Raised CaseError)
      (Case Revision Payload) where
  allows _ op := ∀ request, op = .authorizeAction request →
    authorizationRequest core env (entries core env brief) = .ok request
  returns _ case := ∃ authorization,
    assembledCase core env brief (entries core env brief) authorization = .ok case
  raises _ _ := True

/-- The assembly meets this contract. -/
theorem assembleCase_meets (hbrief : core.validateBrief env.briefPayload = .ok brief) :
    (assembleCase core env).Meets (assemblyContract core env brief) [] := by
  unfold assembleCase
  rw [hbrief, Program.ofExcept_ok_bind]
  refine meets_ofExcept_bind (fun values hvalues => ?_) (fun _ _ => trivial)
  obtain rfl : entries core env brief = values := (closureValues_eq_ok.mp hvalues).2
  refine meets_ofExcept_bind (fun _ _ => ?_) (fun _ _ => trivial)
  refine meets_ofExcept_bind (fun request hrequest => ?_) (fun _ _ => trivial)
  refine ⟨fun other hother => ?_, fun authorization => ?_⟩
  · obtain rfl := CaseCall.authorizeAction.inj hother
    exact hrequest
  · refine meets_ofExcept_bind (fun case hcase => ?_) (fun _ _ => trivial)
    refine meets_ofExcept_bind (fun append _ => ?_) (fun _ _ => trivial)
    refine ⟨fun request happend => (by cases happend), fun receipt => ?_⟩
    exact meets_ofExcept_bind (fun _ _ => ⟨authorization, hcase⟩) (fun _ _ => trivial)

/-- A Case is returned only where the assembly reaches the authorizer, and it was
assembled from the entries. -/
theorem assembled_of_returned (hbrief : core.validateBrief env.briefPayload = .ok brief)
    {es : List (Exchange (CaseCall Payload Context Binding Precondition) (Answer Receipt))}
    {case : Case Revision Payload} (ht : Trace (assembleCase core env) es (.returned case)) :
    Reaches core env brief ∧
      ∃ authorization, assembledCase core env brief (entries core env brief) authorization =
        .ok case := by
  refine ⟨?_, (ht.meets (assembleCase_meets hbrief)).2.1 case rfl⟩
  by_contra h
  obtain ⟨e, hfail⟩ := assembleCase_of_not_reaches hbrief h
  rw [hfail] at ht
  cases ht

/-- A returned Case has an exact closure exactly if the store resolves every citation,
and a missing one is noticed before anything is issued exactly if the assembly does not
reach the authorizer without it. -/
theorem assembleCase_exact_iff
    (core : CaseCore Payload Revision Context Binding Head Precondition Receipt)
    (env : CaseEnvironment Payload Context Binding Head Precondition) (brief : Brief Revision)
    (hbrief : core.validateBrief env.briefPayload = .ok brief) :
    (∀ es case, Trace (assembleCase core env) es (.returned case) →
      (ExactClosure core env brief case ↔ Resolves core env brief)) ∧
    ((Missing env brief → ∀ es o, Trace (assembleCase core env) es o →
        es = [] ∧ o.isReturned = false) ↔
      (Missing env brief → ¬Reaches core env brief)) := by
  constructor
  · intro es case ht
    obtain ⟨hreaches, authorization, hcase⟩ := assembled_of_returned hbrief ht
    exact exactClosure_iff (assembledCase_parts hcase).2.2 hreaches.valid
  · refine imp_congr_right fun _ => ⟨fun hnothing hreaches => ?_, fun hnot es o ht => ?_⟩
    · obtain ⟨request, next, -, hask⟩ := assembleCase_of_reaches hbrief hreaches
      have ht : Trace (assembleCase core env) [⟨.authorizeAction request, none⟩] .aborted := by
        rw [hask]
        exact .abort _ _
      exact absurd (hnothing _ _ ht).1 (by simp)
    · obtain ⟨e, hfail⟩ := assembleCase_of_not_reaches hbrief hnot
      rw [hfail] at ht
      cases ht with
      | fail => exact ⟨rfl, rfl⟩
      | running => exact ⟨rfl, rfl⟩

/-! ### A Brief with two Shifts -/

/-- The payloads of the sample. -/
inductive SamplePayload
  | brief (brief : Brief Unit)
  | value (value : ClosureValue)
  | case (arguments : CaseArguments Unit)

/-- Core with contracts that accept the sample. -/
def sampleCore : CaseCore SamplePayload Unit Unit Unit Unit Unit Unit where
  validateBrief
    | .brief brief => .ok brief
    | _ => .error (.builtin .valueError)
  validateShift
    | .value (.shift resource) => .ok resource
    | _ => .error (.builtin .valueError)
  validateSignal
    | .value (.signal resource subjectRefs) => .ok (resource, subjectRefs)
    | _ => .error (.builtin .valueError)
  canonicalHash texts := texts.flatten
  fromHead _ := .ok ()
  acceptsRequest _ := true
  acceptsRecord _ := true
  acceptsAppend _ := true
  deriveCase arguments :=
    .ok (some (lit "case:price-move"), lit "ace.intelligence.case/v1alpha1", .case arguments)
  receipt _ := .ok ()

/-- A time of the sample. -/
def sampleTime : Datetime := .utc 63921600000000000 (by decide)

/-- A resource of the sample. -/
def sampleResource (id : String) : Resource :=
  ⟨some (lit id), some (lit "sha256:" ++ lit id), sampleTime⟩

/-- A record of the sample. -/
def sampleRecord (kind id : String) (value : ClosureValue) : ImmutableRecord SamplePayload where
  productId := lit "product:northstar"
  recordSpace := lit "prepared"
  recordKind := lit kind
  recordKey := lit id
  payload := .value value
  materialHash := lit "sha256:" ++ lit id
  availableAt := sampleTime

/-- A citation of the sample. -/
def sampleCitation (kind : LineageResourceKind) (id : String) : LineageReference where
  resourceKind := kind
  relation := .derivedFrom
  resourceId := lit id
  resourceDigest := lit "sha256:" ++ lit id
  resourceAsOf := sampleTime
  resourceAvailableAt := sampleTime

/-- A Brief on two Shifts and a Signal. -/
def sampleBrief : Brief Unit where
  lineage := [sampleCitation .shift "shift:1", sampleCitation .shift "shift:2",
    sampleCitation .signal "signal:1"]
  activationRevision := ()

/-- The first Shift. -/
def firstShift : ImmutableRecord SamplePayload :=
  sampleRecord "shift" "shift:1" (.shift (sampleResource "shift:1"))

/-- The second Shift. -/
def secondShift : ImmutableRecord SamplePayload :=
  sampleRecord "shift" "shift:2" (.shift (sampleResource "shift:2"))

/-- The Signal. -/
def onlySignal : ImmutableRecord SamplePayload :=
  sampleRecord "signal" "signal:1" (.signal (sampleResource "signal:1") [lit "product:edge-x1"])

/-- The environment of the Brief, with the records of the store. -/
def sampleEnvironment (brief : Brief Unit) (records : List (ImmutableRecord SamplePayload)) :
    CaseEnvironment SamplePayload Unit Unit Unit Unit where
  records := records
  governedStateHeads _ := some ()
  briefPayload := .brief brief
  stateKind := lit "activation"
  stateId := lit "market"
  auth := ()
  productId := lit "product:northstar"
  appendBinding := ()
  appendPrecondition := ()

/-- A host that authorizes the request and appends the Case. -/
def sampleHost : List (Exchange (CaseCall SamplePayload Unit Unit Unit) (Answer Unit)) →
    (op : CaseCall SamplePayload Unit Unit Unit) → Option (Answer Unit op)
  | _, .authorizeAction request => some ⟨request.requestedAt, request.requiredStatePreconditions⟩
  | _, .append _ => some ()

/-- From the complete store an exact Case is returned. -/
theorem complete_exact :
    ∃ es case, Trace (assembleCase sampleCore
        (sampleEnvironment sampleBrief [firstShift, secondShift, onlySignal])) es
          (.returned case) ∧
      ExactClosure sampleCore
        (sampleEnvironment sampleBrief [firstShift, secondShift, onlySignal]) sampleBrief case := by
  have hreturned : ((assembleCase sampleCore
      (sampleEnvironment sampleBrief [firstShift, secondShift, onlySignal])).run sampleHost
        []).2.isReturned = true := by rfl
  have ht := Program.run_trace sampleHost [] (assembleCase sampleCore
    (sampleEnvironment sampleBrief [firstShift, secondShift, onlySignal]))
  obtain ⟨case, hcase⟩ := Outcome.exists_result hreturned
  rw [hcase] at ht
  refine ⟨_, case, ht, ((assembleCase_exact_iff _ _ _ rfl).1 _ case ht).mpr ?_⟩
  have hdigest : ∀ cite ∈ cited sampleBrief, ∀ v ∈ entries sampleCore
      (sampleEnvironment sampleBrief [firstShift, secondShift, onlySignal]) sampleBrief,
      textOf v.2.resource.resourceId = cite.resourceId →
        textOf v.2.resource.resourceDigest = cite.resourceDigest := by decide
  have hscope : ∀ record ∈ [firstShift, secondShift, onlySignal],
      record.productId = lit "product:northstar" ∧
        record.recordSpace = ResourceMode.prepared.value := by decide
  refine ⟨by decide, by decide, fun cite hcite record hrecord hkey value hvalue => ?_, ?_⟩
  · exact hdigest cite hcite (record, value) (mem_entries.mpr ⟨hrecord, hkey, hvalue⟩)
  · exact fun record hrecord _ => hscope record hrecord

/-- Without the second Shift a Case is authorized, appended and returned. -/
theorem secondShift_missing_returned :
    ∃ es case, Trace (assembleCase sampleCore
        (sampleEnvironment sampleBrief [firstShift, onlySignal])) es (.returned case) ∧
      es.length = 2 ∧
      Missing (sampleEnvironment sampleBrief [firstShift, onlySignal]) sampleBrief ∧
      ¬ExactClosure sampleCore (sampleEnvironment sampleBrief [firstShift, onlySignal]) sampleBrief
        case := by
  have hreturned : ((assembleCase sampleCore
      (sampleEnvironment sampleBrief [firstShift, onlySignal])).run sampleHost
        []).2.isReturned = true := by rfl
  have ht := Program.run_trace sampleHost [] (assembleCase sampleCore
    (sampleEnvironment sampleBrief [firstShift, onlySignal]))
  obtain ⟨case, hcase⟩ := Outcome.exists_result hreturned
  rw [hcase] at ht
  refine ⟨_, case, ht, rfl, by unfold Missing; decide, fun h => ?_⟩
  have hbrief : sampleCore.validateBrief
      (sampleEnvironment sampleBrief [firstShift, onlySignal]).briefPayload = .ok sampleBrief := rfl
  obtain ⟨-, authorization, hassembled⟩ := assembled_of_returned hbrief ht
  have hid := (h.ids_eq (lit "shift:2")).mpr (by decide)
  rw [(assembledCase_parts hassembled).2.2] at hid
  revert hid
  decide

end MarketIntelligence.Cases
