import MarketIntelligence.Cases.Closure

/-!
# Stores in another order

The order in which records were inserted is no part of what a Case stands on. The digest
of the closure is computed from sorted hashes. The effective time is a maximum, which
does not depend on the order of times that are ordered like their instants, and the
subject references are those of the Signal that comes first.
-/

namespace MarketIntelligence.Cases

open Python Interaction

variable {Payload Revision Context Binding Head Precondition Receipt : Type}

/-! ### The latest time -/

/-- The maximum of some times does not depend on their order: any two of them are
ordered, and whatever ends a rising chain beyond all others is one time. -/
structure OneLatest (ts : List Datetime) : Prop where
  ordered : ts.Pairwise (Comparable Datetime.gt)
  same : ∀ m n, Attainable Datetime.gt ts m → Attainable Datetime.gt ts n → m.Same n

/-- Times in a fixed offset have one latest time. -/
theorem oneLatest_of_fixedZone (zone : ℕ) (offset : ℤ) {ts : List Datetime}
    (h : ∀ t ∈ ts, t.OfFixedZone zone offset) : OneLatest ts where
  ordered := by
    refine List.pairwise_iff_forall_sublist.mpr fun {s t} hsublist => ?_
    exact ⟨_, Datetime.gt_of_fixedZone (h s (hsublist.subset (by simp)))
      (h t (hsublist.subset (by simp)))⟩
  same m n hm hn := by
    have hgt : ∀ s ∈ ts, ∀ t ∈ ts, ∃ b, s.gt t = .ok b ∧ (b = true ↔ t.wall < s.wall) :=
      fun s hs t ht => ⟨_, Datetime.gt_of_fixedZone (h s hs) (h t ht), decide_eq_true_iff⟩
    obtain ⟨hmemM, hallM⟩ := le_of_attainable hgt hm
    obtain ⟨hmemN, hallN⟩ := le_of_attainable hgt hn
    exact Datetime.same_of_fixedZone (h m hmemM) (h n hmemN)
      (le_antisymm (hallN m hmemM) (hallM n hmemN))

/-- The same wall clock before and after it is set back: the one that comes first is the
maximum, and the instants differ. -/
example :
    let before : Datetime := .aware 1 ⟨63921600000000000, -14400000000, by decide, by decide⟩ true
    let after : Datetime := .aware 1 ⟨63921600000000000, -18000000000, by decide, by decide⟩ true
    latest [before, after] = .ok before ∧ latest [after, before] = .ok after ∧
      before.instant ≠ after.instant := by decide

/-! ### What does not depend on the order -/

/-- The same environment with other records in the store. -/
def CaseEnvironment.withRecords
    (env : CaseEnvironment Payload Context Binding Head Precondition)
    (records : List (ImmutableRecord Payload)) :
    CaseEnvironment Payload Context Binding Head Precondition := { env with records := records }

variable {core : CaseCore Payload Revision Context Binding Head Precondition Receipt}
  {env : CaseEnvironment Payload Context Binding Head Precondition} {brief : Brief Revision}
  {records : List (ImmutableRecord Payload)}

/-- The digest is that of the closure as a collection. -/
theorem closureDigest_perm {values others : List (ImmutableRecord Payload × ClosureValue)}
    (h : values.Perm others) : closureDigest core values = closureDigest core others := by
  have hsorted (l : List Str) := List.pairwise_insertionSort (· ≤ ·) l
  have hhashes := h.map fun v => v.1.materialHash
  have heq := ((List.perm_insertionSort (· ≤ ·) _).trans
    (hhashes.trans (List.perm_insertionSort (· ≤ ·) _).symm)).eq_of_pairwise' (hsorted _)
      (hsorted _)
  rw [closureDigest, heq, closureDigest]

/-- The entries of a store in another order. -/
theorem entries_perm (h : records.Perm env.records) :
    (entries core (env.withRecords records) brief).Perm (entries core env brief) := h.filterMap _

/-- The request depends on the order of the store no more than the digest. -/
theorem authorizationRequest_perm (h : records.Perm env.records) :
    authorizationRequest core (env.withRecords records)
        (entries core (env.withRecords records) brief) =
      authorizationRequest core env (entries core env brief) := by
  simp only [authorizationRequest, closureDigest_perm (entries_perm h)]
  rfl

/-- Whether the assembly reaches the authorizer does not depend on the order. -/
theorem reaches_perm (h : records.Perm env.records) :
    Reaches core (env.withRecords records) brief ↔ Reaches core env brief := by
  have hmem (record : ImmutableRecord Payload) : record ∈ records ↔ record ∈ env.records :=
    h.mem_iff
  constructor
  · rintro ⟨hvalid, hshift, hsignal, hrequest⟩
    rw [authorizationRequest_perm h] at hrequest
    simp only [CaseEnvironment.withRecords, hmem] at hvalid hshift hsignal
    exact ⟨hvalid, hshift, hsignal, hrequest⟩
  · rintro ⟨hvalid, hshift, hsignal, hrequest⟩
    simp only [← hmem] at hvalid hshift hsignal
    exact ⟨hvalid, hshift, hsignal, (authorizationRequest_perm h).symm ▸ hrequest⟩

/-! ### The first Signal -/

/-- A cited Signal of the store has these subject references. -/
def CitedRefs (core : CaseCore Payload Revision Context Binding Head Precondition Receipt)
    (env : CaseEnvironment Payload Context Binding Head Precondition) (brief : Brief Revision)
    (subjectRefs : List Str) : Prop :=
  ∃ record ∈ env.records, record.recordKey ∈ directIds brief ∧
    ∃ resource, Validates core record (.signal resource subjectRefs)

/-- All cited Signals of the store have the same subject references. -/
def SameSubjectRefs
    (core : CaseCore Payload Revision Context Binding Head Precondition Receipt)
    (env : CaseEnvironment Payload Context Binding Head Precondition) (brief : Brief Revision) :
    Prop :=
  ∀ refs others, CitedRefs core env brief refs → CitedRefs core env brief others → refs = others

/-- The subject references are those of one of the Signals. -/
theorem firstSubjectRefs_mem {values : List (ImmutableRecord Payload × ClosureValue)}
    {subjectRefs : List Str} (h : firstSubjectRefs values = .ok subjectRefs) :
    ∃ v ∈ values, ∃ resource, v.2 = .signal resource subjectRefs := by
  induction values with
  | nil => cases h
  | cons v values ih =>
    obtain ⟨record, value⟩ := v
    cases value with
    | shift resource =>
      obtain ⟨w, hw, hsignal⟩ := ih h
      exact ⟨w, List.mem_cons_of_mem _ hw, hsignal⟩
    | signal resource refs =>
      obtain rfl := Except.ok.inj h
      exact ⟨_, List.mem_cons_self, resource, rfl⟩

/-- The first Signal of a store in any order is a cited one. -/
theorem citedRefs_of_first (hperm : records.Perm env.records) {subjectRefs : List Str}
    (h : firstSubjectRefs (entries core (env.withRecords records) brief) = .ok subjectRefs) :
    CitedRefs core env brief subjectRefs := by
  obtain ⟨v, hv, resource, hvalue⟩ := firstSubjectRefs_mem h
  obtain ⟨hrecord, hkey, hvalid⟩ := mem_entries.mp hv
  exact ⟨v.1, hperm.mem_iff.mp hrecord, hkey, resource, hvalue ▸ hvalid⟩

/-- Every cited Signal comes first in some order of the store. -/
theorem exists_first {subjectRefs : List Str} (h : CitedRefs core env brief subjectRefs) :
    ∃ records : List (ImmutableRecord Payload), records.Perm env.records ∧
      firstSubjectRefs (entries core (env.withRecords records) brief) = .ok subjectRefs := by
  obtain ⟨record, hmem, hkey, resource, hvalid⟩ := h
  obtain ⟨before, after, hrecords⟩ := List.append_of_mem hmem
  refine ⟨record :: (before ++ after), ?_, ?_⟩
  · rw [hrecords]
    exact List.perm_middle.symm
  · have hentry : entry core (directIds brief) record =
        some (record, .signal resource subjectRefs) := entry_eq_some.mpr ⟨rfl, hkey, hvalid⟩
    rw [entries, CaseEnvironment.withRecords, List.filterMap_cons_some hentry]
    rfl

/-- A Signal is validated as one. -/
theorem Validates.signal {record : ImmutableRecord Payload} {value : ClosureValue}
    (h : Validates core record value) (hkind : record.recordKind = lit "signal") :
    ∃ resource subjectRefs, value = .signal resource subjectRefs := by
  obtain ⟨validate, hmodel, hvalue⟩ := h
  have hshift : lit "signal" ≠ lit "shift" := by decide
  rw [model, hkind, if_neg hshift, if_pos rfl] at hmodel
  obtain rfl := Option.some.inj hmodel
  obtain ⟨⟨resource, subjectRefs⟩, -, h⟩ := bind_eq_ok.mp hvalue
  exact ⟨resource, subjectRefs, (Except.ok.inj h).symm⟩

/-- Where there is a Signal, there is a first one. -/
theorem exists_firstSubjectRefs {values : List (ImmutableRecord Payload × ClosureValue)}
    {v : ImmutableRecord Payload × ClosureValue} (hv : v ∈ values) {resource : Resource}
    {subjectRefs : List Str} (hvalue : v.2 = .signal resource subjectRefs) :
    ∃ refs, firstSubjectRefs values = .ok refs := by
  induction values with
  | nil => cases hv
  | cons w values ih =>
    obtain ⟨record, value⟩ := w
    cases value with
    | signal resource refs => exact ⟨refs, rfl⟩
    | shift resource =>
      rcases List.mem_cons.mp hv with rfl | hv
      · cases hvalue
      · exact ih hv

/-- A closure that reaches the authorizer has a first Signal. -/
theorem Reaches.exists_firstSubjectRefs (h : Reaches core env brief) :
    ∃ refs, firstSubjectRefs (entries core env brief) = .ok refs := by
  obtain ⟨v, hv, hkind⟩ := (exists_entry_iff h.valid (.inr rfl)).mpr h.signal
  obtain ⟨-, -, hvalid⟩ := mem_entries.mp hv
  obtain ⟨resource, refs, hvalue⟩ := hvalid.signal hkind
  exact Cases.exists_firstSubjectRefs hv hvalue

/-! ### Orders of the times -/

/-- The times of the closure. -/
def times (core : CaseCore Payload Revision Context Binding Head Precondition Receipt)
    (env : CaseEnvironment Payload Context Binding Head Precondition) (brief : Brief Revision) :
    List Datetime :=
  (entries core env brief).map fun v => v.2.resource.asOf

/-- A closure that reaches the authorizer has times. -/
theorem Reaches.times_ne_nil (h : Reaches core env brief) : times core env brief ≠ [] := by
  obtain ⟨v, hv, -⟩ := (exists_entry_iff h.valid (.inr rfl)).mpr h.signal
  exact List.ne_nil_of_mem (List.mem_map_of_mem hv)

/-- Every order of what some elements yield comes from an order of the elements. -/
theorem exists_perm_filterMap {α β : Type} {f : α → Option β} {l : List α} {ys : List β}
    (h : ys.Perm (l.filterMap f)) : ∃ l' : List α, l'.Perm l ∧ l'.filterMap f = ys := by
  induction ys generalizing l with
  | nil => exact ⟨l, .refl l, h.symm.eq_nil⟩
  | cons y ys ih =>
    obtain ⟨a, ha, hy⟩ := List.mem_filterMap.mp (h.subset List.mem_cons_self)
    obtain ⟨before, after, rfl⟩ := List.append_of_mem ha
    rw [List.filterMap_append, List.filterMap_cons_some hy] at h
    have hrest : ys.Perm ((before ++ after).filterMap f) := by
      rw [List.filterMap_append]
      exact (h.trans List.perm_middle).cons_inv
    obtain ⟨l', hperm, hys⟩ := ih hrest
    exact ⟨a :: l', (hperm.cons a).trans List.perm_middle.symm,
      by rw [List.filterMap_cons_some hy, hys]⟩

/-- Every order of the times is that of a store. -/
theorem exists_order {ts : List Datetime} (h : ts.Perm (times core env brief)) :
    ∃ records : List (ImmutableRecord Payload), records.Perm env.records ∧
      times core (env.withRecords records) brief = ts := by
  simp only [times, entries, List.map_filterMap] at h ⊢
  exact exists_perm_filterMap h

/-- The maximum of the times of an order is attainable. -/
theorem attainable_of_latest (hperm : records.Perm env.records) {m : Datetime}
    (h : latest (times core (env.withRecords records) brief) = .ok m) :
    Attainable Datetime.gt (times core env brief) m :=
  attainable_iff.mpr ⟨_, (entries_perm hperm).map _, h⟩

/-! ### Two runs -/

variable [DecidableEq Receipt]

/-- Some run asks the authorizer for a request. -/
def Requests (core : CaseCore Payload Revision Context Binding Head Precondition Receipt)
    (env : CaseEnvironment Payload Context Binding Head Precondition)
    (request : AuthorizationRequest Context Binding Precondition) : Prop :=
  ∃ es o answer, Trace (assembleCase core env) es o ∧ ⟨.authorizeAction request, answer⟩ ∈ es

/-- Some run is given this authorization and makes a Case of these arguments. -/
def Constructs (core : CaseCore Payload Revision Context Binding Head Precondition Receipt)
    (env : CaseEnvironment Payload Context Binding Head Precondition)
    (authorization : Authorization Precondition) (arguments : CaseArguments Revision) : Prop :=
  ∃ brief values request es o, core.validateBrief env.briefPayload = .ok brief ∧
    closureValues core (directIds brief) env.records = .ok values ∧
    Trace (assembleCase core env) (⟨.authorizeAction request, some authorization⟩ :: es) o ∧
    caseArguments env brief values authorization = .ok arguments

/-- Some run assembles and returns a Case. -/
def Assembles (core : CaseCore Payload Revision Context Binding Head Precondition Receipt)
    (env : CaseEnvironment Payload Context Binding Head Precondition)
    (case : Case Revision Payload) : Prop :=
  ∃ es, Trace (assembleCase core env) es (.returned case)

/-- The parts of two Cases that do not depend on the authorization. -/
structure SameCase (c d : CaseArguments Revision) : Prop where
  asOf : c.asOf.Same d.asOf
  lineage : ∀ item, item ∈ c.lineage ↔ item ∈ d.lineage
  subjectRefs : c.subjectRefs = d.subjectRefs

/-- The order of the store decides neither what is requested, with the digest, nor
whether a Case is made and of which time, lineage and subject. -/
structure OrderFree (core : CaseCore Payload Revision Context Binding Head Precondition Receipt)
    (env : CaseEnvironment Payload Context Binding Head Precondition) : Prop where
  request : ∀ records others : List (ImmutableRecord Payload), records.Perm env.records →
    others.Perm env.records → ∀ request,
      Requests core (env.withRecords records) request ↔
        Requests core (env.withRecords others) request
  arguments : ∀ records others : List (ImmutableRecord Payload), records.Perm env.records →
    others.Perm env.records → ∀ authorization c,
      Constructs core (env.withRecords records) authorization c →
        ∃ d, Constructs core (env.withRecords others) authorization d ∧ SameCase c d
  case : ∀ records others : List (ImmutableRecord Payload), records.Perm env.records →
    others.Perm env.records → ∀ c d, Assembles core (env.withRecords records) c →
      Assembles core (env.withRecords others) d → SameCase c.toCaseArguments d.toCaseArguments

/-- Either no order of the times has a maximum, or all have the same one and the cited
Signals have the same subject references. -/
def OneCase (core : CaseCore Payload Revision Context Binding Head Precondition Receipt)
    (env : CaseEnvironment Payload Context Binding Head Precondition) (brief : Brief Revision) :
    Prop :=
  (∀ m, ¬Attainable Datetime.gt (times core env brief) m) ∨
    OneLatest (times core env brief) ∧ SameSubjectRefs core env brief

/-- Without a Brief nothing is asked. -/
theorem assembleCase_of_no_brief {e : Raised CaseError}
    (h : core.validateBrief env.briefPayload = .error e) : assembleCase core env = .fail e := by
  rw [assembleCase, h]
  rfl

/-- A run that asks anything reaches the authorizer. -/
theorem reaches_of_asks (hbrief : core.validateBrief env.briefPayload = .ok brief)
    {es : List (Exchange (CaseCall Payload Context Binding Precondition) (Answer Receipt))}
    {o : Outcome (Raised CaseError) (Case Revision Payload)}
    (ht : Trace (assembleCase core env) es o) (hne : es ≠ []) : Reaches core env brief := by
  by_contra h
  obtain ⟨e, hfail⟩ := assembleCase_of_not_reaches hbrief h
  rw [hfail] at ht
  cases ht <;> simp at hne

/-- The one request of an assembly that reaches the authorizer. -/
theorem requests_iff (hbrief : core.validateBrief env.briefPayload = .ok brief)
    {request : AuthorizationRequest Context Binding Precondition} :
    Requests core env request ↔ Reaches core env brief ∧
      authorizationRequest core env (entries core env brief) = .ok request := by
  constructor
  · rintro ⟨es, o, answer, ht, hmem⟩
    have hreaches := reaches_of_asks hbrief ht (List.ne_nil_of_mem hmem)
    obtain ⟨past, rest, rfl⟩ := List.append_of_mem hmem
    exact ⟨hreaches, (ht.meets (assembleCase_meets hbrief)).1 past _ rest rfl request rfl⟩
  · rintro ⟨hreaches, hrequest⟩
    obtain ⟨other, next, hother, hask⟩ := assembleCase_of_reaches hbrief hreaches
    obtain rfl : other = request := Except.ok.inj (hother.symm.trans hrequest)
    refine ⟨[⟨.authorizeAction other, none⟩], .aborted, none, ?_, by simp⟩
    rw [hask]
    exact .abort _ _

/-- The requests of two orders are the same. -/
theorem requests_perm (h : records.Perm env.records)
    {request : AuthorizationRequest Context Binding Precondition} :
    Requests core (env.withRecords records) request ↔ Requests core env request := by
  cases hbrief : core.validateBrief env.briefPayload with
  | ok brief =>
    have hother : core.validateBrief (env.withRecords records).briefPayload = .ok brief := hbrief
    rw [requests_iff hother, requests_iff hbrief, reaches_perm h, authorizationRequest_perm h]
  | error e =>
    have hother : core.validateBrief (env.withRecords records).briefPayload = .error e := hbrief
    simp only [Requests, assembleCase_of_no_brief hbrief, assembleCase_of_no_brief hother]

/-- The arguments are those of the entries, where the assembly reaches the authorizer. -/
theorem constructs_iff (hbrief : core.validateBrief env.briefPayload = .ok brief)
    {authorization : Authorization Precondition} {arguments : CaseArguments Revision} :
    Constructs core env authorization arguments ↔ Reaches core env brief ∧
      caseArguments env brief (entries core env brief) authorization = .ok arguments := by
  constructor
  · rintro ⟨other, values, request, es, o, hother, hvalues, ht, harguments⟩
    obtain rfl : brief = other := Except.ok.inj (hbrief.symm.trans hother)
    obtain ⟨-, rfl⟩ := closureValues_eq_ok.mp hvalues
    exact ⟨reaches_of_asks hbrief ht (by simp), harguments⟩
  · rintro ⟨hreaches, harguments⟩
    obtain ⟨request, next, -, hask⟩ := assembleCase_of_reaches hbrief hreaches
    refine ⟨brief, _, request, [], .running, hbrief,
      closureValues_eq_ok.mpr ⟨hreaches.valid, rfl⟩, ?_, harguments⟩
    rw [hask]
    exact .step _ (.running _)

/-- A returned Case was made of its arguments. -/
theorem exists_constructs (hbrief : core.validateBrief env.briefPayload = .ok brief)
    {case : Case Revision Payload} (h : Assembles core env case) :
    ∃ authorization, Constructs core env authorization case.toCaseArguments := by
  obtain ⟨es, ht⟩ := h
  obtain ⟨hreaches, authorization, hassembled⟩ := assembled_of_returned hbrief ht
  exact ⟨authorization,
    (constructs_iff hbrief).mpr ⟨hreaches, assembledCase_arguments hassembled⟩⟩

/-- Without a Brief no Case is made. -/
theorem exists_brief {authorization : Authorization Precondition}
    {arguments : CaseArguments Revision}
    (h : Constructs core (env.withRecords records) authorization arguments) :
    ∃ brief, core.validateBrief env.briefPayload = .ok brief := by
  obtain ⟨brief, -, -, -, -, hbrief, -⟩ := h
  exact ⟨brief, hbrief⟩

/-- The arguments of an order of a store that reaches the authorizer. -/
theorem constructs_withRecords (authorization : Authorization Precondition)
    (hbrief : core.validateBrief env.briefPayload = .ok brief)
    (hreaches : Reaches core env brief) (hperm : records.Perm env.records)
    {m : Datetime} {subjectRefs : List Str}
    (hrefs : firstSubjectRefs (entries core (env.withRecords records) brief) = .ok subjectRefs)
    (hlatest : latest (times core (env.withRecords records) brief) = .ok m) :
    ∃ c, Constructs core (env.withRecords records) authorization c := by
  have hother : core.validateBrief (env.withRecords records).briefPayload = .ok brief := hbrief
  have harguments : ∃ c, caseArguments (env.withRecords records) brief
      (entries core (env.withRecords records) brief) authorization = .ok c := by
    rw [times] at hlatest
    rw [caseArguments, hrefs, ok_bind, hlatest]
    exact ⟨_, rfl⟩
  obtain ⟨c, hc⟩ := harguments
  exact ⟨c, (constructs_iff hother).mpr ⟨(reaches_perm hperm).mpr hreaches, hc⟩⟩

/-- What the arguments of an order consist of. -/
theorem constructs_parts (hbrief : core.validateBrief env.briefPayload = .ok brief)
    (hperm : records.Perm env.records) {authorization : Authorization Precondition}
    {c : CaseArguments Revision}
    (h : Constructs core (env.withRecords records) authorization c) :
    Reaches core env brief ∧
      firstSubjectRefs (entries core (env.withRecords records) brief) = .ok c.subjectRefs ∧
      latest (times core (env.withRecords records) brief) = .ok c.asOf ∧
      c.lineage = (entries core (env.withRecords records) brief).map fun v => lineage v.1 v.2 := by
  have hother : core.validateBrief (env.withRecords records).briefPayload = .ok brief := hbrief
  obtain ⟨hreaches, harguments⟩ := (constructs_iff hother).mp h
  exact ⟨(reaches_perm hperm).mp hreaches, caseArguments_parts harguments⟩

/-- The lineage of two orders is the same set. -/
theorem lineage_perm (hbrief : core.validateBrief env.briefPayload = .ok brief)
    {others : List (ImmutableRecord Payload)} (h : records.Perm env.records)
    (hother : others.Perm env.records) {a b : Authorization Precondition}
    {c d : CaseArguments Revision} (hc : Constructs core (env.withRecords records) a c)
    (hd : Constructs core (env.withRecords others) b d) (item : LineageReference) :
    item ∈ c.lineage ↔ item ∈ d.lineage := by
  obtain ⟨-, -, -, hlineageC⟩ := constructs_parts hbrief h hc
  obtain ⟨-, -, -, hlineageD⟩ := constructs_parts hbrief hother hd
  rw [hlineageC, hlineageD]
  exact (((entries_perm h).trans (entries_perm hother).symm).map _).mem_iff

/-- Two orders whose times have one latest one, of a Brief whose Signals agree, yield
the same Case. -/
theorem sameCase_of_oneCase (hbrief : core.validateBrief env.briefPayload = .ok brief)
    (hone : OneLatest (times core env brief)) (hsame : SameSubjectRefs core env brief)
    {others : List (ImmutableRecord Payload)} (h : records.Perm env.records)
    (hother : others.Perm env.records) {a b : Authorization Precondition}
    {c d : CaseArguments Revision} (hc : Constructs core (env.withRecords records) a c)
    (hd : Constructs core (env.withRecords others) b d) : SameCase c d := by
  obtain ⟨-, hrefsC, hasOfC, -⟩ := constructs_parts hbrief h hc
  obtain ⟨-, hrefsD, hasOfD, -⟩ := constructs_parts hbrief hother hd
  exact ⟨hone.same _ _ (attainable_of_latest h hasOfC) (attainable_of_latest hother hasOfD),
    lineage_perm hbrief h hother hc hd,
    hsame _ _ (citedRefs_of_first h hrefsC) (citedRefs_of_first hother hrefsD)⟩

/-- Under the condition, the Case does not depend on the order. -/
theorem orderFree_of_oneCase
    (h : ∀ brief, core.validateBrief env.briefPayload = .ok brief → Reaches core env brief →
      OneCase core env brief) : OrderFree core env := by
  have hcase {records others : List (ImmutableRecord Payload)} (hrecords : records.Perm env.records)
      (hothers : others.Perm env.records) {a b : Authorization Precondition}
      {c d : CaseArguments Revision} (hc : Constructs core (env.withRecords records) a c)
      (hd : Constructs core (env.withRecords others) b d) : SameCase c d := by
    obtain ⟨brief, hbrief⟩ := exists_brief hc
    obtain ⟨hreaches, -, hasOf, -⟩ := constructs_parts hbrief hrecords hc
    obtain hnone | ⟨hone, hsame⟩ := h brief hbrief hreaches
    · exact absurd (attainable_of_latest hrecords hasOf) (hnone _)
    · exact sameCase_of_oneCase hbrief hone hsame hrecords hothers hc hd
  refine ⟨fun records others hrecords hothers request =>
      (requests_perm hrecords).trans (requests_perm hothers).symm,
    fun records others hrecords hothers authorization c hc => ?_,
    fun records others hrecords hothers c d hc hd => ?_⟩
  · obtain ⟨brief, hbrief⟩ := exists_brief hc
    obtain ⟨hreaches, -, hasOf, -⟩ := constructs_parts hbrief hrecords hc
    obtain hnone | ⟨hone, -⟩ := h brief hbrief hreaches
    · exact absurd (attainable_of_latest hrecords hasOf) (hnone _)
    · obtain ⟨refs, hrefs⟩ := ((reaches_perm hothers).mpr hreaches).exists_firstSubjectRefs
      obtain ⟨m, hm⟩ := (forall_exists_maximum_iff (fun _ _ => Datetime.comparable_comm)
        hreaches.times_ne_nil).mpr hone.ordered _ ((entries_perm hothers).map _)
      obtain ⟨d, hd⟩ := constructs_withRecords authorization hbrief
        hreaches hothers hrefs hm
      exact ⟨d, hd, hcase hrecords hothers hc hd⟩
  · cases hbrief : core.validateBrief env.briefPayload with
    | ok brief =>
      have hwith (rs : List (ImmutableRecord Payload)) :
          core.validateBrief (env.withRecords rs).briefPayload = .ok brief := hbrief
      obtain ⟨_, hc⟩ := exists_constructs (hwith records) hc
      obtain ⟨_, hd⟩ := exists_constructs (hwith others) hd
      exact hcase hrecords hothers hc hd
    | error e =>
      have hwith : core.validateBrief (env.withRecords records).briefPayload = .error e := hbrief
      obtain ⟨es, ht⟩ := hc
      rw [assembleCase_of_no_brief hwith] at ht
      cases ht

/-- Where some order of the times has a maximum, the same Case is made in any two orders
of the store. -/
theorem OrderFree.exists_sameCase (hfree : OrderFree core env)
    (hbrief : core.validateBrief env.briefPayload = .ok brief) (hreaches : Reaches core env brief)
    {m : Datetime} (hm : Attainable Datetime.gt (times core env brief) m)
    {others : List (ImmutableRecord Payload)} (hrecords : records.Perm env.records)
    (hothers : others.Perm env.records) :
    ∃ c d : CaseArguments Revision, SameCase c d ∧
      firstSubjectRefs (entries core (env.withRecords records) brief) = .ok c.subjectRefs ∧
      firstSubjectRefs (entries core (env.withRecords others) brief) = .ok d.subjectRefs ∧
      latest (times core (env.withRecords records) brief) = .ok c.asOf ∧
      latest (times core (env.withRecords others) brief) = .ok d.asOf := by
  obtain ⟨ts, hts, hmax⟩ := attainable_iff.mp hm
  obtain ⟨rs, hrs, rfl⟩ := exists_order hts
  obtain ⟨refs, hrefs⟩ := ((reaches_perm hrs).mpr hreaches).exists_firstSubjectRefs
  obtain ⟨b, hb⟩ := constructs_withRecords ⟨requestedAt, []⟩ hbrief
    hreaches hrs hrefs hmax
  obtain ⟨c, hc, -⟩ := hfree.arguments rs _ hrs hrecords _ b hb
  obtain ⟨d, hd, hcd⟩ := hfree.arguments _ _ hrecords hothers _ c hc
  obtain ⟨-, hrefsC, hasOfC, -⟩ := constructs_parts hbrief hrecords hc
  obtain ⟨-, hrefsD, hasOfD, -⟩ := constructs_parts hbrief hothers hd
  exact ⟨c, d, hcd, hrefsC, hrefsD, hasOfC, hasOfD⟩

/-- Cases that do not depend on the order meet the condition. -/
theorem OrderFree.oneCase (hfree : OrderFree core env)
    (hbrief : core.validateBrief env.briefPayload = .ok brief) (hreaches : Reaches core env brief) :
    OneCase core env brief := by
  by_cases hsome : ∃ m, Attainable Datetime.gt (times core env brief) m
  · obtain ⟨m, hm⟩ := hsome
    have hsame {rs os : List (ImmutableRecord Payload)} (hrs : rs.Perm env.records)
        (hos : os.Perm env.records) := hfree.exists_sameCase hbrief hreaches hm hrs hos
    refine .inr ⟨⟨?_, fun m n hm hn => ?_⟩, fun refs others hrefs hothers => ?_⟩
    · refine (forall_exists_maximum_iff (fun _ _ => Datetime.comparable_comm)
        hreaches.times_ne_nil).mp fun ts hts => ?_
      obtain ⟨rs, hrs, rfl⟩ := exists_order hts
      obtain ⟨c, -, -, -, -, hasOf, -⟩ := hsame hrs hrs
      exact ⟨c.asOf, hasOf⟩
    · obtain ⟨ts, hts, hmaxM⟩ := attainable_iff.mp hm
      obtain ⟨us, hus, hmaxN⟩ := attainable_iff.mp hn
      obtain ⟨rs, hrs, rfl⟩ := exists_order hts
      obtain ⟨os, hos, rfl⟩ := exists_order hus
      obtain ⟨c, d, hcd, -, -, hasOfC, hasOfD⟩ := hsame hrs hos
      obtain rfl := Except.ok.inj (hmaxM.symm.trans hasOfC)
      obtain rfl := Except.ok.inj (hmaxN.symm.trans hasOfD)
      exact hcd.asOf
    · obtain ⟨rs, hrs, hfirst⟩ := exists_first hrefs
      obtain ⟨os, hos, hfirst'⟩ := exists_first hothers
      obtain ⟨c, d, hcd, hrefsC, hrefsD, -, -⟩ := hsame hrs hos
      obtain rfl := Except.ok.inj (hfirst.symm.trans hrefsC)
      obtain rfl := Except.ok.inj (hfirst'.symm.trans hrefsD)
      exact hcd.subjectRefs
  · exact .inl fun m hm => hsome ⟨m, hm⟩

/-- The request and the lineage never depend on the order of the store. The whole Case
does not exactly if, where the assembly reaches the authorizer, no order of the times has
a maximum, or all have the same one and the cited Signals have the same subject
references. -/
theorem assembleCase_orderFree_iff
    (core : CaseCore Payload Revision Context Binding Head Precondition Receipt)
    (env : CaseEnvironment Payload Context Binding Head Precondition) :
    (∀ records others : List (ImmutableRecord Payload), records.Perm env.records →
      others.Perm env.records →
        (∀ request, Requests core (env.withRecords records) request ↔
          Requests core (env.withRecords others) request) ∧
        ∀ a b c d, Constructs core (env.withRecords records) a c →
          Constructs core (env.withRecords others) b d →
            ∀ item, item ∈ c.lineage ↔ item ∈ d.lineage) ∧
    (OrderFree core env ↔ ∀ brief, core.validateBrief env.briefPayload = .ok brief →
      Reaches core env brief → OneCase core env brief) := by
  refine ⟨fun records others hrecords hothers => ⟨fun request => ?_, fun a b c d hc hd => ?_⟩,
    fun hfree brief hbrief hreaches => hfree.oneCase hbrief hreaches, orderFree_of_oneCase⟩
  · exact (requests_perm hrecords).trans (requests_perm hothers).symm
  · obtain ⟨brief, hbrief⟩ := exists_brief hc
    exact lineage_perm hbrief hrecords hothers hc hd

/-! ### Two Signals -/

/-- A second Signal, about another subject. -/
def secondSignal : ImmutableRecord SamplePayload :=
  sampleRecord "signal" "signal:2" (.signal (sampleResource "signal:2") [lit "product:edge-x2"])

/-- A Brief on a Shift and two Signals. -/
def twoSignalsBrief : Brief Unit where
  lineage := [sampleCitation .shift "shift:1", sampleCitation .signal "signal:1",
    sampleCitation .signal "signal:2"]
  activationRevision := ()

/-- A value that is no Signal, or is one with given subject references. -/
def ClosureValue.citesOnly (refs : List Str) : ClosureValue → Bool
  | shift _ => true
  | signal _ subjectRefs => subjectRefs = refs

/-- With one Signal, the Case does not depend on the order. -/
theorem oneSignal_orderFree :
    OrderFree sampleCore (sampleEnvironment sampleBrief [firstShift, secondShift, onlySignal]) := by
  refine (assembleCase_orderFree_iff _ _).2.mpr fun brief hbrief _ => ?_
  obtain rfl : sampleBrief = brief := Except.ok.inj hbrief
  have hvalues : ∀ v ∈ entries sampleCore
      (sampleEnvironment sampleBrief [firstShift, secondShift, onlySignal]) sampleBrief,
      v.2.citesOnly [lit "product:edge-x1"] = true := by decide
  have hrefs : ∀ refs, CitedRefs sampleCore
      (sampleEnvironment sampleBrief [firstShift, secondShift, onlySignal]) sampleBrief refs →
      refs = [lit "product:edge-x1"] := by
    rintro refs ⟨record, hmem, hkey, resource, hvalid⟩
    simpa [ClosureValue.citesOnly] using hvalues (record, _) (mem_entries.mpr ⟨hmem, hkey, hvalid⟩)
  refine .inr ⟨oneLatest_of_fixedZone Datetime.utcZone 0 fun t ht => ?_,
    fun refs others h hother => by rw [hrefs refs h, hrefs others hother]⟩
  have hall : ∀ t ∈ times sampleCore
      (sampleEnvironment sampleBrief [firstShift, secondShift, onlySignal]) sampleBrief,
      t = sampleTime := by decide
  obtain rfl := hall t ht
  exact ⟨_, _, rfl, rfl⟩

/-- With two Signals, the Case of the other order has other subject references. -/
theorem twoSignals_not_orderFree :
    ¬OrderFree sampleCore
      (sampleEnvironment twoSignalsBrief [firstShift, onlySignal, secondSignal]) := by
  intro hfree
  have hrun (records : List (ImmutableRecord SamplePayload)) (refs : List Str)
      (hreturned : ((assembleCase sampleCore (sampleEnvironment twoSignalsBrief records)).run
        sampleHost []).2.isReturned = true)
      (hrefs : firstSubjectRefs (entries sampleCore (sampleEnvironment twoSignalsBrief records)
        twoSignalsBrief) = .ok refs) :
      ∃ case, Assembles sampleCore (sampleEnvironment twoSignalsBrief records) case ∧
        case.subjectRefs = refs := by
    have ht := Program.run_trace sampleHost []
      (assembleCase sampleCore (sampleEnvironment twoSignalsBrief records))
    obtain ⟨case, hcase⟩ := Outcome.exists_result hreturned
    rw [hcase] at ht
    have hbrief : sampleCore.validateBrief
        (sampleEnvironment twoSignalsBrief records).briefPayload = .ok twoSignalsBrief := rfl
    obtain ⟨-, authorization, hassembled⟩ := assembled_of_returned hbrief ht
    exact ⟨case, ⟨_, ht⟩,
      Except.ok.inj ((assembledCase_parts hassembled).1.symm.trans hrefs)⟩
  obtain ⟨c, hc, hcrefs⟩ := hrun [firstShift, onlySignal, secondSignal] [lit "product:edge-x1"]
    rfl rfl
  obtain ⟨d, hd, hdrefs⟩ := hrun [firstShift, secondSignal, onlySignal] [lit "product:edge-x2"]
    rfl rfl
  have hrefs := (hfree.case _ _ (.refl _) (.cons _ (.swap _ _ _)) c d hc hd).subjectRefs
  rw [hcrefs, hdrefs] at hrefs
  revert hrefs
  decide

end MarketIntelligence.Cases
