import MarketIntelligence.Builder.Inventory
import MarketIntelligence.Interaction.Contract

/-!
# The Market Builder executor

`MarketIntelligenceBuilderExecutor.start` as a program over the host ports. A port may
answer with any value or raise. Values that a port returns are read attribute by
attribute; an object without the attributes that are read is malformed, and reading it
raises.
-/

namespace MarketIntelligence.Builder

open Python Interaction

/-- Whether a snapshot is of the mode `PREPARED`. -/
inductive ResourceMode
  | prepared
  | other
  deriving DecidableEq

/-- `EntitySnapshotV1Alpha1`, as far as it is read. -/
structure EntitySnapshot (Revision : Type) where
  mode : ResourceMode
  productId : Str
  entityRef : Str
  entityTypeRef : Str
  asOf : Datetime
  resourceId : Option Str
  activationRevision : Revision

/-- An item of `admission.entity_snapshots`. -/
inductive SnapshotObj (Revision : Type)
  | snapshot (s : EntitySnapshot Revision)
  | malformed

/-- What `admitSources` returns. -/
inductive Admission (Revision : Type)
  | entities (items : List (SnapshotObj Revision))
  | malformed

/-- `derivation.admission`: the text of its attention receipt's id and digest, which an
admission may lack. -/
structure DerivationAdmission where
  attentionReceipt : Option (Str × Str)

/-- What `derive` returns. -/
inductive Derivation
  | derivation (materialShift shift signal : Bool) (admission : Option DerivationAdmission)
  | malformed

/-- `PreparedShiftSignalDerivationRequestV1Alpha1`. -/
structure DerivationRequest (Ref : Type) where
  derivationKey : Str
  detectorId : Str
  baselineSnapshot : Ref
  currentSnapshot : Ref
  evaluatedAt : Datetime

/-- `IntelligenceBuildFirstBriefRequestV1Alpha2`. -/
structure FirstBriefRequest where
  buildId : Str
  buildRequestDigest : Str
  derivationKey : Str
  attentionReceiptId : Str
  attentionReceiptDigest : Str
  requestedAt : Datetime

/-- `IntelligenceResourceKind`, as far as it is queried. -/
inductive ResourceKind
  | connection | source | sourceHealth | entity | observation | signal | shift | case | brief
  | monitor | subscription | builderProfile | builderSession
  deriving DecidableEq

/-- `READ_KINDS`. -/
def readKinds : List ResourceKind :=
  [.connection, .source, .sourceHealth, .entity, .observation, .signal, .shift, .case, .brief,
    .monitor, .subscription, .builderProfile, .builderSession]

/-- The arguments of `resources.query`. -/
structure ResourceQuery where
  resourceKinds : List ResourceKind
  subjectRefs : List Str
  asOf : Datetime
  availableAt : Datetime
  evaluatedAt : Datetime
  pageSize : ℕ

/-- A call of a host port. -/
inductive PortCall (F Subject Ref : Type)
  | bindSubject (subjectBindingId entityTypeId entityRef : Str)
  | admitSources (materials : List (RecordedSourceMaterial F Subject))
  | derive (request : DerivationRequest Ref)
  | createFirstBrief (request : FirstBriefRequest)
  | query (query : ResourceQuery)

/-- What the ports return. -/
abbrev Answer {F Subject Ref : Type} (Revision Page : Type) : PortCall F Subject Ref → Type
  | .bindSubject .. => Subject
  | .admitSources _ => Admission Revision
  | .derive _ => Derivation
  | .createFirstBrief _ => Unit
  | .query _ => Page

/-- `AuthorizedIntelligenceBuild` with its request, authority use and authenticated
context. -/
structure Build (Effect : Type) where
  buildId : Str
  requestDigest : Str
  productId : Str
  actorRef : Str
  profileId : Str
  approvedEffects : List Effect
  sourceGroupIds : List Str
  contextProductId : Str
  contextActorRef : Str
  expiresAt : Datetime
  useSubjectRef : Str
  useSubjectDigest : Str
  evaluatedAt : Datetime

/-- Which of the optional host ports are there. -/
structure HostServices where
  recordedSources : Bool
  preparedDerivations : Bool
  firstBrief : Bool

/-- What the executor calls in Core. -/
structure ExecutorCore (F Subject Ref Revision Effect : Type) extends Core F Subject where
  /-- `REQUIRED_INTELLIGENCE_BUILD_EFFECTS`. -/
  requiredEffects : List Effect
  resourceReference : EntitySnapshot Revision → Except (Raised ExecutorError) Ref
  /-- Whether the constructors of the two requests accept their arguments. -/
  acceptsDerivation : DerivationRequest Ref → Bool
  acceptsFirstBrief : FirstBriefRequest → Bool

/-- `MARKET_INTELLIGENCE_PROFILE_ID`. -/
def marketIntelligenceProfileId : Str := lit "onboarding_profile:market-intelligence"

/-- `_DETECTOR_ID`. -/
def detectorId : Str := lit "product_price_move"

variable {F Subject Ref Revision Effect Page : Type}

/-! ### The Entity pair -/

/-- The disjunction that `_exact_price_entities` evaluates for each item. -/
def crossedSubject (productId : Str) (s : EntitySnapshot Revision) : Bool :=
  s.mode ≠ .prepared || s.productId ≠ productId || s.entityRef ≠ entityRef ||
    s.entityTypeRef ≠ entityTypeId

/-- The snapshots of an admission, unless one of them crosses the subject. -/
def preparedSnapshots (productId : Str) : List (SnapshotObj Revision) →
    Except (Raised ExecutorError) (List (EntitySnapshot Revision))
  | [] => .ok []
  | .malformed :: _ => .error (.builtin .attributeError)
  | .snapshot s :: items =>
      if crossedSubject productId s then
        executorError "recorded Market admission crossed its PREPARED product subject"
      else do return s :: (← preparedSnapshots productId items)

/-- `str(item.resource_id)`. -/
def resourceIdText (s : EntitySnapshot Revision) : Str := s.resourceId.getD (lit "None")

/-- `<` on the sort keys `(as_of, str(resource_id))`. -/
def keyLt (s t : EntitySnapshot Revision) : Except BuiltinError Bool := do
  if ← s.asOf.eq t.asOf then return resourceIdText s < resourceIdText t else s.asOf.lt t.asOf

/-- `sorted` on two snapshots. -/
def sortedPair (s t : EntitySnapshot Revision) :
    Except BuiltinError (EntitySnapshot Revision × EntitySnapshot Revision) := do
  if ← keyLt t s then return (t, s) else return (s, t)

/-- `_exact_price_entities`. -/
def exactPriceEntities [DecidableEq Revision] (admission : Admission Revision) (productId : Str) :
    Except (Raised ExecutorError) (EntitySnapshot Revision × EntitySnapshot Revision) :=
  match admission with
  | .malformed => .error (.builtin .attributeError)
  | .entities items =>
      if items.length ≠ 2 then
        executorError "recorded Market admission did not return its exact Entity pair"
      else do
        match ← preparedSnapshots productId items with
        | [s, t] =>
            let (baseline, current) ← ofBuiltin (sortedPair s t)
            if baseline.activationRevision ≠ current.activationRevision then
              executorError "recorded Market Entity pair lost its semantic progression"
            else if ← ofBuiltin (current.asOf.le baseline.asOf) then
              executorError "recorded Market Entity pair lost its semantic progression"
            else if baseline.resourceId = current.resourceId then
              executorError "recorded Market Entity pair lost its semantic progression"
            else return (baseline, current)
        | _ => executorError "recorded Market admission did not return its exact Entity pair"

/-! ### The build -/

/-- The gates of `start` before any port is called. -/
def checkBuild [DecidableEq Effect] (core : ExecutorCore F Subject Ref Revision Effect)
    (build : Build Effect) (host : HostServices) : Except (Raised ExecutorError) Unit := do
  if build.profileId ≠ marketIntelligenceProfileId then
    executorError "Market Builder received an unsupported onboarding profile"
  else if build.approvedEffects ≠ core.requiredEffects then
    executorError "Market Builder requires the exact bounded onboarding effects"
  else if build.sourceGroupIds.insertionSort (· ≤ ·) ≠ supportedRecordedSourceGroupIds then
    executorError "Market recorded proof supports only competitor_public_evidence"
  else if build.contextProductId ≠ build.productId ∨ build.contextActorRef ≠ build.actorRef ∨
      build.useSubjectRef ≠ build.buildId ∨ build.useSubjectDigest ≠ build.requestDigest then
    executorError "authorized build identity crossed its authenticated context"
  else if ← ofBuiltin (build.expiresAt.le build.evaluatedAt) then
    executorError "authorized build identity crossed its authenticated context"
  else if ¬(host.recordedSources ∧ host.preparedDerivations ∧ host.firstBrief) then
    executorError <| "Market Builder requires Core recorded-source, PREPARED-derivation, " ++
      "and first-Brief host ports"
  else return ()

/-- `f"prepared_derivation:{build.build_id}"`. -/
def derivationKey (build : Build Effect) : Str := lit "prepared_derivation:" ++ build.buildId

/-- The request that is passed to `derive`. -/
def derivationRequest (core : ExecutorCore F Subject Ref Revision Effect) (build : Build Effect)
    (baseline current : EntitySnapshot Revision) :
    Except (Raised ExecutorError) (DerivationRequest Ref) := do
  let request : DerivationRequest Ref := {
    derivationKey := derivationKey build
    detectorId := detectorId
    baselineSnapshot := ← core.resourceReference baseline
    currentSnapshot := ← core.resourceReference current
    evaluatedAt := build.evaluatedAt }
  if core.acceptsDerivation request then return request else .error (.builtin .valueError)

/-- The request that is passed to `create_first_brief`, from a material derivation. -/
def firstBriefRequest (core : ExecutorCore F Subject Ref Revision Effect) (build : Build Effect)
    (derivation : Derivation) : Except (Raised ExecutorError) FirstBriefRequest :=
  match derivation with
  | .malformed => .error (.builtin .attributeError)
  | .derivation true true true (some admission) =>
      match admission.attentionReceipt with
      | none => .error (.builtin .attributeError)
      | some (receiptId, receiptDigest) =>
          let request : FirstBriefRequest := {
            buildId := build.buildId
            buildRequestDigest := build.requestDigest
            derivationKey := derivationKey build
            attentionReceiptId := receiptId
            attentionReceiptDigest := receiptDigest
            requestedAt := build.evaluatedAt }
          if core.acceptsFirstBrief request then .ok request else .error (.builtin .valueError)
  | .derivation .. => executorError
      "recorded Market price progression did not produce its declared Shift and Signal"

/-- The query whose page `start` returns. -/
def resourceQuery (build : Build Effect) : ResourceQuery where
  resourceKinds := readKinds
  subjectRefs := []
  asOf := build.evaluatedAt
  availableAt := build.evaluatedAt
  evaluatedAt := build.evaluatedAt
  pageSize := 200

/-- The programs that `start` is made of. -/
abbrev HostProgram (F Subject Ref Revision Page α : Type) : Type :=
  Program (PortCall F Subject Ref) (Answer Revision Page) (Raised ExecutorError) α

/-- `recorded_sources.bind_subject`. -/
def bindSubject (bindingId typeId ref : Str) : HostProgram F Subject Ref Revision Page Subject :=
  .ask (.bindSubject bindingId typeId ref) .done

/-- `recorded_sources.admit`. -/
def admitSources (materials : List (RecordedSourceMaterial F Subject)) :
    HostProgram F Subject Ref Revision Page (Admission Revision) :=
  .ask (.admitSources materials) .done

/-- `prepared_derivations.derive`. -/
def derive (request : DerivationRequest Ref) :
    HostProgram F Subject Ref Revision Page Derivation :=
  .ask (.derive request) .done

/-- `first_brief.create_first_brief`. -/
def createFirstBrief (request : FirstBriefRequest) :
    HostProgram F Subject Ref Revision Page Unit :=
  .ask (.createFirstBrief request) .done

/-- `resources.query`. -/
def query (arguments : ResourceQuery) : HostProgram F Subject Ref Revision Page Page :=
  .ask (.query arguments) .done

/-- `MarketIntelligenceBuilderExecutor.start`, with the content of the inventory file. -/
def start [PyFloat F] [DecidableEq Revision] [DecidableEq Effect]
    (core : ExecutorCore F Subject Ref Revision Effect) (content : List UInt8)
    (build : Build Effect) (host : HostServices) :
    HostProgram F Subject Ref Revision Page Page := do
  .ofExcept (checkBuild core build host)
  let (inventory, items) ← .ofExcept (executorInventory core.toCore content)
  let subject ← bindSubject subjectBindingId entityTypeId entityRef
  let materials ← .ofExcept (recordedMaterials core.toCore inventory subject items)
  let admission ← admitSources materials
  let (baseline, current) ← .ofExcept (exactPriceEntities admission build.productId)
  let request ← .ofExcept (derivationRequest core build baseline current)
  let derivation ← derive request
  let brief ← .ofExcept (firstBriefRequest core build derivation)
  createFirstBrief brief
  query (resourceQuery build)

end MarketIntelligence.Builder
