import MarketIntelligence.Python.Datetime
import MarketIntelligence.Python.Maximum
import MarketIntelligence.Python.Text
import MarketIntelligence.Interaction.Contract
import Mathlib.Data.List.Sort

/-!
# The assembly of the Market Case

`_assemble_case` of the acceptance script, as a program that asks the authorizer and the
record store. It reads the records of the store in their order, which is the order of
insertion. Core's contracts validate or reject what they are given, and keep it.
-/

namespace MarketIntelligence.Cases

open Python Interaction

/-- `LineageResourceKind`, as far as it is compared. -/
inductive LineageResourceKind
  | shift | signal | other
  deriving DecidableEq

/-- `LineageRelation`, as far as it is used. -/
inductive LineageRelation
  | derivedFrom | other
  deriving DecidableEq

/-- `LineageReferenceV1Alpha1`. -/
structure LineageReference where
  resourceKind : LineageResourceKind
  relation : LineageRelation
  resourceId : Str
  resourceDigest : Str
  resourceAsOf : Datetime
  resourceAvailableAt : Datetime
  deriving DecidableEq

/-- `BriefV1Alpha1`, as far as it is read. -/
structure Brief (Revision : Type) where
  lineage : List LineageReference
  activationRevision : Revision

/-- `ImmutableRecordV1` in the store, as far as it is read. -/
structure ImmutableRecord (Payload : Type) where
  productId : Str
  recordSpace : Str
  recordKind : Str
  recordKey : Str
  payload : Payload
  materialHash : Str
  availableAt : Datetime

/-- What `ShiftV1Alpha1` and `SignalV1Alpha1` have in common. -/
structure Resource where
  resourceId : Option Str
  resourceDigest : Option Str
  asOf : Datetime
  deriving DecidableEq

/-- A validated Shift or Signal. -/
inductive ClosureValue
  | shift (resource : Resource)
  | signal (resource : Resource) (subjectRefs : List Str)
  deriving DecidableEq

/-- The resource that is read from both. -/
def ClosureValue.resource : ClosureValue → Resource
  | shift resource => resource
  | signal resource _ => resource

/-- `str` of an identity or digest that may be absent. -/
def textOf (value : Option Str) : Str := value.getD (lit "None")

/-- `GovernedActionAuthorizationRequestV1Alpha1`. -/
structure AuthorizationRequest (Context Binding Precondition : Type) where
  authorizationKey : Str
  productId : Str
  authenticatedContext : Context
  executionBinding : Binding
  operation : Str
  subjectRef : Str
  subjectDigest : Str
  requestedAt : Datetime
  requiredStatePreconditions : List Precondition

/-- What the authorizer returns. -/
structure Authorization (Precondition : Type) where
  authorizedAt : Datetime
  statePreconditions : List Precondition

/-- `IntelligenceResourceMode`. -/
inductive ResourceMode
  | prepared | live
  deriving DecidableEq

/-- `mode.value`. -/
def ResourceMode.value : ResourceMode → Str
  | prepared => lit "prepared"
  | live => lit "live"

/-- The arguments of `CaseV1Alpha1`. -/
structure CaseArguments (Revision : Type) where
  productId : Str
  mode : ResourceMode
  activationRevision : Revision
  asOf : Datetime
  lineage : List LineageReference
  caseTypeRef : Str
  title : Str
  purpose : Str
  subjectRefs : List Str
  assembledAt : Datetime

/-- `CaseV1Alpha1`: its arguments and what it derives from them. -/
structure Case (Revision Payload : Type) extends CaseArguments Revision where
  resourceId : Option Str
  contract : Str
  dump : Payload

/-- The arguments of the record of a Case. -/
structure CaseRecord (Payload : Type) where
  productId : Str
  recordSpace : Str
  recordKind : Str
  recordKey : Str
  payloadContract : Str
  payload : Payload
  asOf : Datetime
  availableAt : Datetime
  processingOrder : ℕ

/-- `AppendOnlyTransactionRequestV1`. -/
structure AppendRequest (Payload Precondition : Type) where
  productId : Str
  recordSpace : Str
  transactionKey : Str
  records : List (CaseRecord Payload)
  submittedAt : Datetime
  governedStatePreconditions : List Precondition

/-- The exceptions that the assembly raises itself. -/
inductive CaseError
  /-- `AssertionError(message)`. -/
  | assertionError (message : Str)
  /-- `next` of an exhausted iterator, inside a coroutine. -/
  | runtimeError
  deriving DecidableEq

/-- What the assembly calls in Core. -/
structure CaseCore (Payload Revision Context Binding Head Precondition Receipt : Type) where
  validateBrief : Payload → Except (Raised CaseError) (Brief Revision)
  validateShift : Payload → Except (Raised CaseError) Resource
  validateSignal : Payload → Except (Raised CaseError) (Resource × List Str)
  /-- `canonical_hash` of a list of texts. -/
  canonicalHash : List Str → Str
  /-- `GovernedStateHeadPreconditionV1Alpha1.from_head`. -/
  fromHead : Head → Except (Raised CaseError) Precondition
  /-- Whether the constructors accept their arguments. -/
  acceptsRequest : AuthorizationRequest Context Binding Precondition → Bool
  acceptsRecord : CaseRecord Payload → Bool
  acceptsAppend : AppendRequest Payload Precondition → Bool
  /-- What `CaseV1Alpha1` derives: its `resource_id`, `contract` and dumped payload. -/
  deriveCase : CaseArguments Revision → Except (Raised CaseError) (Option Str × Str × Payload)
  /-- `append.receipt()`. -/
  receipt : AppendRequest Payload Precondition → Except (Raised CaseError) Receipt

/-- What the assembly reads from the result of the earlier journey. -/
structure CaseEnvironment (Payload Context Binding Head Precondition : Type) where
  /-- `store.records.values()`. -/
  records : List (ImmutableRecord Payload)
  governedStateHeads : Str × Str × Str → Option Head
  briefPayload : Payload
  /-- `rev4.commit_receipt.state_kind` and `state_id`. -/
  stateKind : Str
  stateId : Str
  auth : Context
  /-- `auth.product_id`. -/
  productId : Str
  appendBinding : Binding
  /-- `append_binding.state_head_precondition`. -/
  appendPrecondition : Precondition

variable {Payload Revision Context Binding Head Precondition Receipt : Type}

/-- The calls of the assembly. -/
inductive CaseCall (Payload Context Binding Precondition : Type)
  | authorizeAction (request : AuthorizationRequest Context Binding Precondition)
  | append (transaction : AppendRequest Payload Precondition)

/-- What the calls return. -/
abbrev Answer {Payload Context Binding Precondition : Type} (Receipt : Type) :
    CaseCall Payload Context Binding Precondition → Type
  | .authorizeAction _ => Authorization Precondition
  | .append _ => Receipt

/-! ### The closure -/

/-- The Shift and Signal entries of a Brief. -/
def cited (brief : Brief Revision) : List LineageReference :=
  brief.lineage.filter fun item => item.resourceKind = .shift ∨ item.resourceKind = .signal

/-- `direct_ids`. -/
def directIds (brief : Brief Revision) : List Str := (cited brief).map LineageReference.resourceId

/-- The validation of a record kind, if it has one. -/
def model (core : CaseCore Payload Revision Context Binding Head Precondition Receipt)
    (recordKind : Str) : Option (Payload → Except (Raised CaseError) ClosureValue) :=
  if recordKind = lit "shift" then
    some fun payload => do return .shift (← core.validateShift payload)
  else if recordKind = lit "signal" then
    some fun payload => do
      let (resource, subjectRefs) ← core.validateSignal payload
      return .signal resource subjectRefs
  else none

/-- `values`, from the records whose keys are cited. -/
def closureValues (core : CaseCore Payload Revision Context Binding Head Precondition Receipt)
    (ids : List Str) : List (ImmutableRecord Payload) →
      Except (Raised CaseError) (List (ImmutableRecord Payload × ClosureValue))
  | [] => .ok []
  | record :: records =>
      if record.recordKey ∈ ids then
        match model core record.recordKind with
        | none => closureValues core ids records
        | some validate => do
            let value ← validate record.payload
            return (record, value) :: (← closureValues core ids records)
      else closureValues core ids records

/-- Whether the kinds of the values are exactly Shift and Signal. -/
def bothKinds (values : List (ImmutableRecord Payload × ClosureValue)) : Bool :=
  let kinds := values.map fun v => v.1.recordKind
  kinds.all (fun kind => kind = lit "shift" || kind = lit "signal") &&
    lit "shift" ∈ kinds && lit "signal" ∈ kinds

/-- `closure_digest`. -/
def closureDigest (core : CaseCore Payload Revision Context Binding Head Precondition Receipt)
    (values : List (ImmutableRecord Payload × ClosureValue)) : Str :=
  lit "sha256:" ++
    core.canonicalHash ((values.map fun v => v.1.materialHash).insertionSort (· ≤ ·))

/-- `_time("2026-08-06T15:36:00Z")`. -/
def requestedAt : Datetime := .utc 63921627360000000 (by decide)

/-- The request that is passed to the authorizer. -/
def authorizationRequest
    (core : CaseCore Payload Revision Context Binding Head Precondition Receipt)
    (env : CaseEnvironment Payload Context Binding Head Precondition)
    (values : List (ImmutableRecord Payload × ClosureValue)) :
    Except (Raised CaseError) (AuthorizationRequest Context Binding Precondition) := do
  match env.governedStateHeads (env.stateKind, env.productId, env.stateId) with
  | none => .error (.builtin .keyError)
  | some activationHead =>
      let request : AuthorizationRequest Context Binding Precondition := {
        authorizationKey := lit "case:market-intelligence-os:competitive-price-move"
        productId := env.productId
        authenticatedContext := env.auth
        executionBinding := env.appendBinding
        operation := lit "append_immutable_records"
        subjectRef := lit "case_closure:competitive-price-move"
        subjectDigest := closureDigest core values
        requestedAt := requestedAt
        requiredStatePreconditions :=
          [← core.fromHead activationHead, env.appendPrecondition] }
      if core.acceptsRequest request then return request else .error (.builtin .valueError)

/-! ### The Case -/

/-- `LineageResourceKind(record_kind)`. -/
def lineageKind (recordKind : Str) : LineageResourceKind :=
  if recordKind = lit "shift" then .shift
  else if recordKind = lit "signal" then .signal
  else .other

/-- `_lineage`. -/
def lineage (record : ImmutableRecord Payload) (value : ClosureValue) : LineageReference where
  resourceKind := lineageKind record.recordKind
  relation := .derivedFrom
  resourceId := textOf value.resource.resourceId
  resourceDigest := textOf value.resource.resourceDigest
  resourceAsOf := value.resource.asOf
  resourceAvailableAt := record.availableAt

/-- The subject references of the first Signal. -/
def firstSubjectRefs : List (ImmutableRecord Payload × ClosureValue) →
    Except (Raised CaseError) (List Str)
  | [] => .error (.own .runtimeError)
  | (_, .shift _) :: values => firstSubjectRefs values
  | (_, .signal _ subjectRefs) :: _ => .ok subjectRefs

/-- `max` on datetimes. -/
def latest : List Datetime → Except BuiltinError Datetime := maximum Datetime.gt

/-- The arguments of the Case of a closure. -/
def caseArguments (env : CaseEnvironment Payload Context Binding Head Precondition)
    (brief : Brief Revision) (values : List (ImmutableRecord Payload × ClosureValue))
    (authorization : Authorization Precondition) :
    Except (Raised CaseError) (CaseArguments Revision) := do
  let subjectRefs ← firstSubjectRefs values
  return {
    productId := env.productId
    mode := .prepared
    activationRevision := brief.activationRevision
    asOf := ← ofBuiltin (latest (values.map fun v => v.2.resource.asOf))
    lineage := values.map fun v => lineage v.1 v.2
    caseTypeRef := lit "case_type:competitive_price_move"
    title := lit "Northstar Edge X1 competitive price move"
    purpose := lit "Orient the exact competitive change before analyst disposition and " ++
      lit "measurement."
    subjectRefs := subjectRefs
    assembledAt := authorization.authorizedAt }

/-- The Case of a closure. -/
def assembledCase (core : CaseCore Payload Revision Context Binding Head Precondition Receipt)
    (env : CaseEnvironment Payload Context Binding Head Precondition) (brief : Brief Revision)
    (values : List (ImmutableRecord Payload × ClosureValue))
    (authorization : Authorization Precondition) :
    Except (Raised CaseError) (Case Revision Payload) := do
  let arguments ← caseArguments env brief values authorization
  let (resourceId, contract, dump) ← core.deriveCase arguments
  return { arguments with resourceId := resourceId, contract := contract, dump := dump }

/-- The transaction that appends a Case. -/
def appendRequest (core : CaseCore Payload Revision Context Binding Head Precondition Receipt)
    (env : CaseEnvironment Payload Context Binding Head Precondition)
    (case : Case Revision Payload) (authorization : Authorization Precondition) :
    Except (Raised CaseError) (AppendRequest Payload Precondition) := do
  let record : CaseRecord Payload := {
    productId := env.productId
    recordSpace := case.mode.value
    recordKind := lit "case"
    recordKey := textOf case.resourceId
    payloadContract := case.contract
    payload := case.dump
    asOf := case.asOf
    availableAt := case.assembledAt
    processingOrder := 0 }
  let append : AppendRequest Payload Precondition := {
    productId := env.productId
    recordSpace := case.mode.value
    transactionKey := lit "market-intelligence-os-case:" ++ textOf case.resourceId
    records := [record]
    submittedAt := case.assembledAt
    governedStatePreconditions := authorization.statePreconditions }
  if core.acceptsRecord record && core.acceptsAppend append then return append
  else .error (.builtin .valueError)

/-- The programs that the assembly is made of. -/
abbrev CaseProgram (Payload Context Binding Precondition Receipt α : Type) : Type :=
  Program (CaseCall Payload Context Binding Precondition) (Answer Receipt) (Raised CaseError) α

/-- The gate on the kinds of the closure. -/
def checkClosure (values : List (ImmutableRecord Payload × ClosureValue)) :
    Except (Raised CaseError) Unit :=
  raiseUnless (bothKinds values) (.own (.assertionError
    (lit "Market 0.8 Case lost the exact Shift/Signal closure of its reviewed Brief")))

/-- The gate on the receipt of the transaction. -/
def checkReceipt [DecidableEq Receipt]
    (core : CaseCore Payload Revision Context Binding Head Precondition Receipt)
    (append : AppendRequest Payload Precondition) (receipt : Receipt) :
    Except (Raised CaseError) Unit := do
  raiseUnless (receipt = (← core.receipt append)) (.own (.assertionError
    (lit "Market 0.8 Case append returned divergent receipt material")))

/-- `_assemble_case`. -/
def assembleCase [DecidableEq Receipt]
    (core : CaseCore Payload Revision Context Binding Head Precondition Receipt)
    (env : CaseEnvironment Payload Context Binding Head Precondition) :
    CaseProgram Payload Context Binding Precondition Receipt (Case Revision Payload) := do
  let brief ← .ofExcept (core.validateBrief env.briefPayload)
  let values ← .ofExcept (closureValues core (directIds brief) env.records)
  .ofExcept (checkClosure values)
  let request ← .ofExcept (authorizationRequest core env values)
  let authorization ← Program.perform (CaseCall.authorizeAction request)
  let case ← .ofExcept (assembledCase core env brief values authorization)
  let append ← .ofExcept (appendRequest core env case authorization)
  let receipt ← Program.perform (CaseCall.append append)
  .ofExcept (checkReceipt core append receipt)
  return case

end MarketIntelligence.Cases
