import MarketIntelligence.Cases.Closure
import MarketIntelligence.Interaction.Embedding
import MarketIntelligence.Python.Values
import Mathlib.Algebra.BigOperators.Group.List.Lemmas

/-!
# The acceptance of the intelligence loop

`run_acceptance` of `v08_intelligence_os_acceptance.py`: the Case is assembled and appended, the
resource plane is queried twice, and a report is made of the first page. The literal facts in
the report are those that its gates have established, and its counts are those of the page.
-/

namespace MarketIntelligence.Cases

open Python Interaction

/-! ### The resource plane -/

/-- `IntelligenceResourceKind`, with the kinds that are not required under their names. -/
inductive IntelligenceResourceKind
  | entity | observation | signal | shift | case | brief | decision | outcome | feedback
  | other (name : Str)
  deriving DecidableEq

/-- `READ_KINDS`. -/
def readKinds : List IntelligenceResourceKind :=
  [.entity, .observation, .signal, .shift, .case, .brief, .decision, .outcome, .feedback]

/-- `READ_GRANT`. -/
def readGrant : Str := lit "authority_grant:market-intelligence-os-read"

/-- The reference of a projected item. -/
structure ItemReference where
  resourceKind : IntelligenceResourceKind
  resourceId : Str
  revision : ℤ
  resourceDigest : Str
  productId : Str

/-- A page of the resource plane, as far as it is read. -/
structure ResourcePage where
  items : List ItemReference
  nextCursor : Option Str
  queryId : Str
  degradedReasonRefs : List Str
  /-- `state.value`. -/
  state : Str
  /-- `authority_use.authority`. -/
  authority : Str

/-- `IntelligenceResourceQueryV1Alpha1`. -/
structure PlaneQuery (Context : Type) where
  authenticatedContext : Context
  productId : Str
  authorityGrantRef : Str
  resourceKinds : List IntelligenceResourceKind
  subjectRefs : List Str
  asOf : Datetime
  availableAt : Datetime
  pageSize : ℕ

/-- What the acceptance calls in Core besides the assembly. -/
structure PlaneCore (Context : Type) where
  py : Interpreter Unit
  /-- `kind.value`. -/
  kindValue : IntelligenceResourceKind → Str
  /-- The members of an enumeration have distinct values. -/
  kindValue_injective : Function.Injective kindValue
  /-- Whether the constructor accepts its arguments. -/
  acceptsQuery : PlaneQuery Context → Bool

/-- The dispositions that the report takes from the earlier journey. -/
structure LoopFacts where
  decisionDisposition : Str
  actionDisposition : Str
  feedbackLiveEffect : Bool

/-- How the acceptance fails. -/
inductive AcceptanceError
  /-- An exception of the assembly. -/
  | assembly (e : CaseError)
  /-- `AssertionError(message)`. -/
  | assertionError (message : Str)
  deriving DecidableEq

/-- The calls of the acceptance. -/
inductive AcceptanceCall (Payload Context Binding Precondition : Type)
  | assembly (call : CaseCall Payload Context Binding Precondition)
  /-- `as_of` and `available_at` of `store.records.values()`. -/
  | records
  | query (query : PlaneQuery Context) (evaluatedAt : Datetime)

variable {Payload Revision Context Binding Head Precondition Receipt : Type}

/-- What these calls return. -/
abbrev AcceptanceAnswer {Payload Context Binding Precondition : Type} (Receipt : Type) :
    AcceptanceCall Payload Context Binding Precondition → Type
  | .assembly call => Answer Receipt call
  | .records => List (Datetime × Datetime)
  | .query .. => ResourcePage

/-- An exception of the assembly, as one of the acceptance. -/
def ofAssembly : Raised CaseError → Raised AcceptanceError
  | .own e => .own (.assembly e)
  | .builtin e => .builtin e
  | .foreign => .foreign

/-- `AssertionError(message)`. -/
def assertionError {α : Type} (message : Str) : Except (Raised AcceptanceError) α :=
  .error (.own (.assertionError message))

/-! ### The report -/

/-- `_identity`. -/
def identity (plane : PlaneCore Context) (item : ItemReference) : Str × Str × ℤ × Str :=
  (plane.kindValue item.resourceKind, item.resourceId, item.revision, item.resourceDigest)

/-- The kinds of the items of a page. -/
def pageKinds (page : ResourcePage) : List IntelligenceResourceKind :=
  (page.items.map ItemReference.resourceKind).dedup

/-- `sorted(kind.value for kind in kinds)`. -/
def sortedValues (plane : PlaneCore Context) (kinds : List IntelligenceResourceKind) : List Str :=
  (kinds.map plane.kindValue).insertionSort (· ≤ ·)

/-- The required kinds that a page lacks. -/
def missingKinds (plane : PlaneCore Context) (page : ResourcePage) : List Str :=
  sortedValues plane (readKinds.filter fun kind => kind ∉ pageKinds page)

/-- `repr` of a list of texts. -/
def listText (py : Interpreter Unit) (texts : List Str) : Str :=
  Data.repr py (.list (texts.map .str))

/-- `repr` of a tuple of texts. -/
def tupleText (py : Interpreter Unit) : List Str → Str
  | [] => lit "()"
  | [t] => lit "(" ++ Data.reprStr py t ++ lit ",)"
  | texts => lit "(" ++ Json.joinTexts (lit ", ") (texts.map (Data.reprStr py)) ++ lit ")"

/-- `counts`: the kinds of a page in the order of their values, each with its items. -/
def kindCounts (plane : PlaneCore Context) (page : ResourcePage) : List (Str × ℕ) :=
  ((pageKinds page).insertionSort fun a b => plane.kindValue a ≤ plane.kindValue b).map
    fun kind => (plane.kindValue kind, page.items.countP fun item => item.resourceKind = kind)

/-- What the report says of its limits. -/
structure Limitations where
  preparedFixture : Bool
  externalAction : Bool
  deliveryAuthority : Bool
  beneficialImpactClaimed : Bool

/-- The report. -/
structure AcceptanceReport where
  contract : Str
  coreCandidateCommit : Str
  domain : Str
  productId : Str
  queryId : Str
  pageState : Str
  resourceCount : ℕ
  resourceCounts : List (Str × ℕ)
  exactRestartReopen : Bool
  singlePage : Bool
  authority : Str
  requiredKinds : List Str
  allPresent : Bool
  caseId : Str
  facts : LoopFacts
  limitations : Limitations

/-! ### The program -/

/-- The query, with the latest times of the records. -/
def planeQuery (plane : PlaneCore Context)
    (env : CaseEnvironment Payload Context Binding Head Precondition)
    (records : List (Datetime × Datetime)) :
    Except (Raised AcceptanceError) (PlaneQuery Context) := do
  let query : PlaneQuery Context := {
    authenticatedContext := env.auth
    productId := env.productId
    authorityGrantRef := readGrant
    resourceKinds := readKinds
    subjectRefs := []
    asOf := ← ofBuiltin (latest (records.map Prod.fst))
    availableAt := ← ofBuiltin (latest (records.map Prod.snd))
    pageSize := 200 }
  if plane.acceptsQuery query then return query else .error (.builtin .valueError)

/-- `_time("2026-08-06T15:40:00Z")`. -/
def evaluatedAt : Datetime := .utc 63921627600000000 (by decide)

/-- One second later. -/
def reopenedAt : Datetime := .utc 63921627601000000 (by decide)

/-- The gates on the two pages. -/
def checkPages (plane : PlaneCore Context) (productId : Str) (first reopened : ResourcePage) :
    Except (Raised AcceptanceError) Unit :=
  if first.nextCursor.isSome || reopened.nextCursor.isSome then
    assertionError (lit "Market 0.8 proof exceeded its bounded single-page acceptance")
  else if first.queryId ≠ reopened.queryId ∨
      first.items.map (identity plane) ≠ reopened.items.map (identity plane) then
    assertionError (lit "Market resource plane did not reopen exact projected identities")
  else if missingKinds plane first ≠ [] then
    assertionError (lit "Market 0.8 loop is missing " ++
      listText plane.py (missingKinds plane first) ++ lit "; present=" ++
      listText plane.py (sortedValues plane (pageKinds first)) ++ lit "; degraded=" ++
      tupleText plane.py first.degradedReasonRefs)
  else if first.degradedReasonRefs ≠ [] then
    assertionError (lit "Market resource page degraded unexpectedly: " ++
      tupleText plane.py first.degradedReasonRefs)
  else if first.items.any fun item => item.productId ≠ productId then
    assertionError (lit "Market resource page crossed product scope")
  else .ok ()

/-- The report on a page. -/
def acceptanceReport (plane : PlaneCore Context) (commit productId : Str)
    (case : Case Revision Payload) (facts : LoopFacts) (page : ResourcePage) :
    AcceptanceReport where
  contract := lit "ace.market-intelligence.intelligence-os-acceptance/v1alpha1"
  coreCandidateCommit := commit
  domain := lit "market_intelligence"
  productId := productId
  queryId := page.queryId
  pageState := page.state
  resourceCount := page.items.length
  resourceCounts := kindCounts plane page
  exactRestartReopen := true
  singlePage := true
  authority := page.authority
  requiredKinds := sortedValues plane readKinds
  allPresent := true
  caseId := textOf case.resourceId
  facts := facts
  limitations := ⟨true, false, false, false⟩

/-- `run_acceptance`, after the earlier journey. -/
def runAcceptance [DecidableEq Receipt]
    (core : CaseCore Payload Revision Context Binding Head Precondition Receipt)
    (plane : PlaneCore Context) (env : CaseEnvironment Payload Context Binding Head Precondition)
    (facts : LoopFacts) (commit : Str) :
    Program (AcceptanceCall Payload Context Binding Precondition) (AcceptanceAnswer Receipt)
      (Raised AcceptanceError) AcceptanceReport := do
  let case ← (assembleCase core env).within .assembly (fun _ answer => .ok answer) ofAssembly
  let records ← Program.ask .records .done
  let query ← .ofExcept (planeQuery plane env records)
  let first ← Program.ask (.query query evaluatedAt) .done
  let reopened ← Program.ask (.query query reopenedAt) .done
  .ofExcept (checkPages plane env.productId first reopened)
  return acceptanceReport plane commit env.productId case facts first

/-! ### What the report stands on -/

/-- Two single pages of one query, with the same identities. -/
structure Reopens (plane : PlaneCore Context) (first reopened : ResourcePage) : Prop where
  single : first.nextCursor = none ∧ reopened.nextCursor = none
  query : first.queryId = reopened.queryId
  identities : first.items.map (identity plane) = reopened.items.map (identity plane)

/-- A page with every required kind, of one product, that is not degraded. -/
structure CompletePage (productId : Str) (page : ResourcePage) : Prop where
  present : ∀ kind ∈ readKinds, ∃ item ∈ page.items, item.resourceKind = kind
  notDegraded : page.degradedReasonRefs = []
  inScope : ∀ item ∈ page.items, item.productId = productId

/-- The counts of a page: its kinds in the strict order of their values, each with the number
of its items. -/
structure CountsOf (plane : PlaneCore Context) (page : ResourcePage) (counts : List (Str × ℕ)) :
    Prop where
  sorted : (counts.map Prod.fst).Pairwise (· < ·)
  exact : ∀ value n, (value, n) ∈ counts ↔ ∃ kind, value = plane.kindValue kind ∧
    n = page.items.countP (fun item => item.resourceKind = kind) ∧ 0 < n
  total : (counts.map Prod.snd).sum = page.items.length

/-- The kinds of a page are those of its items. -/
theorem mem_pageKinds {page : ResourcePage} {kind : IntelligenceResourceKind} :
    kind ∈ pageKinds page ↔ ∃ item ∈ page.items, item.resourceKind = kind := by
  rw [pageKinds, List.mem_dedup, List.mem_map]

/-- No kind is missing exactly if every required kind is there. -/
theorem missingKinds_eq_nil {plane : PlaneCore Context} {page : ResourcePage} :
    missingKinds plane page = [] ↔
      ∀ kind ∈ readKinds, ∃ item ∈ page.items, item.resourceKind = kind := by
  have hnil (l : List Str) : l.insertionSort (· ≤ ·) = [] ↔ l = [] := by
    rw [← List.length_eq_zero_iff, List.length_insertionSort, List.length_eq_zero_iff]
  rw [missingKinds, sortedValues, hnil, List.map_eq_nil_iff, List.filter_eq_nil_iff]
  refine forall_congr' fun kind => imp_congr_right fun _ => ?_
  rw [decide_eq_true_eq, not_not, mem_pageKinds]

/-- The gates on the pages pass exactly if the first is complete and is reopened. -/
theorem checkPages_eq_ok {plane : PlaneCore Context} {productId : Str}
    {first reopened : ResourcePage} : checkPages plane productId first reopened = .ok () ↔
      Reopens plane first reopened ∧ CompletePage productId first := by
  unfold checkPages assertionError
  constructor
  · intro h
    split_ifs at h with hcursor hidentity hmissing hdegraded hscope
    simp only [Bool.or_eq_true, not_or, Bool.not_eq_true, Option.isSome_eq_false_iff,
      Option.isNone_iff_eq_none] at hcursor
    obtain ⟨hquery, hidentities⟩ := not_or.mp hidentity
    refine ⟨⟨hcursor, not_not.mp hquery, not_not.mp hidentities⟩,
      missingKinds_eq_nil.mp (not_not.mp hmissing), not_not.mp hdegraded, fun item hitem => ?_⟩
    simp only [List.any_eq_true, decide_eq_true_eq, not_exists, not_and, not_not] at hscope
    exact hscope item hitem
  · rintro ⟨⟨⟨hfirst, hreopened⟩, hquery, hidentities⟩, hpresent, hdegraded, hscope⟩
    have hany : (first.items.any fun item => item.productId ≠ productId) = false := by
      simpa using hscope
    rw [hfirst, hreopened, if_neg (by simp), if_neg (by simp [hquery, hidentities]),
      missingKinds_eq_nil.mpr hpresent, hdegraded, hany]
    simp

/-- The counts in the report are those of the page. -/
theorem kindCounts_countsOf (plane : PlaneCore Context) (page : ResourcePage) :
    CountsOf plane page (kindCounts plane page) := by
  let order : IntelligenceResourceKind → IntelligenceResourceKind → Prop :=
    fun a b => plane.kindValue a ≤ plane.kindValue b
  have hperm : ((pageKinds page).insertionSort order).Perm (pageKinds page) :=
    List.perm_insertionSort order _
  have hnodup : ((pageKinds page).insertionSort order).Nodup :=
    hperm.nodup_iff.mpr (List.nodup_dedup _)
  have hsorted : ((pageKinds page).insertionSort order).Pairwise order := by
    have htotal : Std.Total order := ⟨fun a b => le_total (plane.kindValue a) (plane.kindValue b)⟩
    have htrans : IsTrans _ order := ⟨fun _ _ _ => le_trans⟩
    exact List.pairwise_insertionSort order _
  constructor
  · -- Distinct kinds have distinct values.
    rw [kindCounts, List.map_map, List.pairwise_map]
    exact (hsorted.and hnodup).imp fun h =>
      lt_of_le_of_ne h.1 fun hsame => h.2 (plane.kindValue_injective hsame)
  · intro value n
    rw [kindCounts, List.mem_map]
    constructor
    · rintro ⟨kind, hkind, hpair⟩
      obtain ⟨rfl, rfl⟩ := Prod.mk.inj hpair
      refine ⟨kind, rfl, rfl, List.countP_pos_iff.mpr ?_⟩
      obtain ⟨item, hitem, hsame⟩ := mem_pageKinds.mp (hperm.mem_iff.mp hkind)
      exact ⟨item, hitem, by simpa using hsame⟩
    · rintro ⟨kind, rfl, rfl, hpos⟩
      obtain ⟨item, hitem, hsame⟩ := List.countP_pos_iff.mp hpos
      exact ⟨kind, hperm.mem_iff.mpr (mem_pageKinds.mpr ⟨item, hitem, by simpa using hsame⟩), rfl⟩
  · have hcount (kind : IntelligenceResourceKind) :
        page.items.countP (fun item => item.resourceKind = kind) =
          (page.items.map ItemReference.resourceKind).count kind := by
      rw [List.count, List.countP_map]
      rfl
    calc ((kindCounts plane page).map Prod.snd).sum
        = (((pageKinds page).insertionSort order).map fun kind =>
            (page.items.map ItemReference.resourceKind).count kind).sum := by
          rw [kindCounts, List.map_map]
          exact congrArg List.sum (List.map_congr_left fun kind _ => hcount kind)
      _ = ((pageKinds page).map fun kind =>
            (page.items.map ItemReference.resourceKind).count kind).sum := (hperm.map _).sum_eq
      _ = page.items.length := by
          rw [pageKinds, List.sum_map_count_dedup_eq_length, List.length_map]

/-- A run of the acceptance that reports: a run of the assembly, a look at the store, and two
pages that pass the gates. -/
structure AcceptedRun [DecidableEq Receipt]
    (core : CaseCore Payload Revision Context Binding Head Precondition Receipt)
    (plane : PlaneCore Context) (env : CaseEnvironment Payload Context Binding Head Precondition)
    (es : List (Exchange (AcceptanceCall Payload Context Binding Precondition)
      (AcceptanceAnswer Receipt))) (case : Case Revision Payload) (first : ResourcePage) :
    Prop where
  exchanges : ∃ assembly records query reopened,
    Trace (assembleCase core env) assembly (.returned case) ∧
    planeQuery plane env records = .ok query ∧
    es = assembly.map (Exchange.under .assembly) ++ [⟨.records, some records⟩,
      ⟨.query query evaluatedAt, some first⟩, ⟨.query query reopenedAt, some reopened⟩] ∧
    Reopens plane first reopened
  complete : CompletePage env.productId first

/-- The acceptance reports exactly on the accepted runs. So the reopening, the single page and
the kinds that it reports are facts, and its counts are those of the first page. -/
theorem runAcceptance_returns_iff [DecidableEq Receipt]
    (core : CaseCore Payload Revision Context Binding Head Precondition Receipt)
    (plane : PlaneCore Context) (env : CaseEnvironment Payload Context Binding Head Precondition)
    (facts : LoopFacts) (commit : Str)
    (es : List (Exchange (AcceptanceCall Payload Context Binding Precondition)
      (AcceptanceAnswer Receipt))) (report : AcceptanceReport) :
    Trace (runAcceptance core plane env facts commit) es (.returned report) ↔
      ∃ case first, AcceptedRun core plane env es case first ∧
        CountsOf plane first report.resourceCounts ∧
        report = acceptanceReport plane commit env.productId case facts first := by
  rw [runAcceptance, Trace.bind_returned]
  constructor
  · rintro ⟨case, _, gs, rfl, hwithin, hrest⟩
    obtain ⟨assembly, rfl, hassembly⟩ := Trace.within_returned.mp hwithin
    obtain ⟨records, _, rfl, hquerying⟩ := Trace.ask_bind_returned.mp hrest
    obtain ⟨query, hquery, hasking⟩ := Trace.ofExcept_bind_returned.mp hquerying
    obtain ⟨first, _, rfl, hreopening⟩ := Trace.ask_bind_returned.mp hasking
    obtain ⟨reopened, _, rfl, hchecking⟩ := Trace.ask_bind_returned.mp hreopening
    obtain ⟨⟨⟩, hcheck, hend⟩ := Trace.ofExcept_bind_returned.mp hchecking
    obtain ⟨hreopens, hcomplete⟩ := checkPages_eq_ok.mp hcheck
    cases hend
    exact ⟨case, first, ⟨⟨assembly, records, query, reopened, hassembly, hquery, rfl, hreopens⟩,
      hcomplete⟩, kindCounts_countsOf plane first, rfl⟩
  · rintro ⟨case, first, ⟨⟨assembly, records, query, reopened, hassembly, hquery, rfl, hreopens⟩,
      hcomplete⟩, -, rfl⟩
    refine ⟨case, _, _, rfl, Trace.within_returned.mpr ⟨assembly, rfl, hassembly⟩, ?_⟩
    refine Trace.ask_bind_returned.mpr ⟨records, _, rfl, ?_⟩
    refine Trace.ofExcept_bind_returned.mpr ⟨query, hquery, ?_⟩
    refine Trace.ask_bind_returned.mpr ⟨first, _, rfl, ?_⟩
    refine Trace.ask_bind_returned.mpr ⟨reopened, _, rfl, ?_⟩
    refine Trace.ofExcept_bind_returned.mpr ⟨(), checkPages_eq_ok.mpr ⟨hreopens, hcomplete⟩, ?_⟩
    exact .done _

/-! ### A complete page -/

/-- The values of the kinds in the sample. -/
def sampleKindValue : IntelligenceResourceKind → Str
  | .entity => lit "entity"
  | .observation => lit "observation"
  | .signal => lit "signal"
  | .shift => lit "shift"
  | .case => lit "case"
  | .brief => lit "brief"
  | .decision => lit "decision"
  | .outcome => lit "outcome"
  | .feedback => lit "feedback"
  | .other name => ('#' : Chr) :: name

/-- The kind of a value. -/
def sampleKind (value : Str) : IntelligenceResourceKind :=
  (readKinds.find? fun kind => sampleKindValue kind = value).getD (.other value.tail)

/-- The values of the sample are distinct. -/
theorem sampleKindValue_injective : Function.Injective sampleKindValue := by
  refine Function.LeftInverse.injective (g := sampleKind) fun kind => ?_
  cases kind with
  | other name =>
    have hnone : readKinds.find? (fun kind => sampleKindValue kind = ('#' : Chr) :: name) =
        none := by
      refine List.find?_eq_none.mpr fun kind hkind => ?_
      have hfirst : ∀ kind ∈ readKinds, (sampleKindValue kind).head? ≠ some ('#' : Chr) := by
        decide
      rw [decide_eq_true_eq]
      exact fun hsame => hfirst kind hkind (congrArg List.head? hsame)
    rw [sampleKind, sampleKindValue, hnone]
    rfl
  | _ => rfl

/-- A plane that accepts every query. -/
def samplePlane : PlaneCore Unit where
  py := asciiInterpreter
  kindValue := sampleKindValue
  kindValue_injective := sampleKindValue_injective
  acceptsQuery _ := true

/-- A page with one item of each required kind. -/
def samplePage : ResourcePage where
  items := readKinds.map fun kind =>
    ⟨kind, sampleKindValue kind, 1, lit "sha256", lit "product:northstar"⟩
  nextCursor := none
  queryId := lit "query"
  degradedReasonRefs := []
  state := lit "complete"
  authority := lit "observe_read"

/-- A host that answers with this page. -/
def samplePlaneHost : List (Exchange (AcceptanceCall SamplePayload Unit Unit Unit)
      (AcceptanceAnswer Unit)) →
    (op : AcceptanceCall SamplePayload Unit Unit Unit) → Option (AcceptanceAnswer Unit op)
  | _, .assembly (.authorizeAction request) =>
      some ⟨request.requestedAt, request.requiredStatePreconditions⟩
  | _, .assembly (.append _) => some ()
  | _, .records => some [(sampleTime, sampleTime)]
  | _, .query .. => some samplePage

/-- The run of the sample. -/
def samplePlaneRun : List (Exchange (AcceptanceCall SamplePayload Unit Unit Unit)
      (AcceptanceAnswer Unit)) × Outcome (Raised AcceptanceError) AcceptanceReport :=
  (runAcceptance sampleCore samplePlane
    (sampleEnvironment sampleBrief [firstShift, secondShift, onlySignal])
    ⟨lit "useful", lit "no_action", false⟩ (lit "working-tree")).run samplePlaneHost []

/-- How many items the report of an outcome counts. -/
def reportedCount : Outcome (Raised AcceptanceError) AcceptanceReport → ℕ
  | .returned report => report.resourceCount
  | _ => 0

/-- The sample is reported, and the report counts nine items of nine kinds. -/
theorem samplePlaneRun_reports : ∃ report, samplePlaneRun.2 = .returned report ∧
    report.resourceCount = 9 ∧ (∃ case first, AcceptedRun sampleCore samplePlane
      (sampleEnvironment sampleBrief [firstShift, secondShift, onlySignal]) samplePlaneRun.1
        case first ∧ CountsOf samplePlane first report.resourceCounts) := by
  have hreturned : samplePlaneRun.2.isReturned = true := by decide +kernel
  obtain ⟨report, hreport⟩ := Outcome.exists_result hreturned
  have hnine : reportedCount samplePlaneRun.2 = 9 := by decide +kernel
  rw [hreport] at hnine
  have ht : Trace (runAcceptance sampleCore samplePlane
      (sampleEnvironment sampleBrief [firstShift, secondShift, onlySignal])
      ⟨lit "useful", lit "no_action", false⟩ (lit "working-tree")) samplePlaneRun.1
      (.returned report) := by
    rw [← hreport]
    exact Program.run_trace samplePlaneHost [] _
  obtain ⟨case, first, hrun, hcounts, -⟩ := (runAcceptance_returns_iff _ _ _ _ _ _ _).mp ht
  exact ⟨report, hreport, hnine, case, first, hrun, hcounts⟩

end MarketIntelligence.Cases
