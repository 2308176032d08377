import MarketIntelligence.Builder.Agreement
import MarketIntelligence.Builder.Executor
import Mathlib.Data.List.Permutation

/-!
# What the executor is allowed to call

The calls of `start` are described one by one: when a call is authorized after the
exchanges before it. Whatever the host ports answer, and whether or not they raise,
`start` makes authorized calls only, in the fixed order.
-/

namespace MarketIntelligence.Builder

open Python Interaction

variable {F Subject Ref Revision Effect Page : Type}

/-! ### Conditions on a build and on a pair of snapshots -/

/-- A build that may be executed: the right profile, the exact effects and source
groups, an unexpired identity that is bound to the authenticated context, and every
host port that is needed. -/
structure ChecksOut (core : ExecutorCore F Subject Ref Revision Effect) (build : Build Effect)
    (host : HostServices) : Prop where
  profile : build.profileId = marketIntelligenceProfileId
  effects : build.approvedEffects = core.requiredEffects
  sourceGroups : build.sourceGroupIds = supportedRecordedSourceGroupIds
  product : build.contextProductId = build.productId
  actor : build.contextActorRef = build.actorRef
  useSubject : build.useSubjectRef = build.buildId
  useDigest : build.useSubjectDigest = build.requestDigest
  unexpired : build.evaluatedAt.lt build.expiresAt = .ok true
  ports : host.recordedSources ∧ host.preparedDerivations ∧ host.firstBrief

/-- Two prepared snapshots of one product, entity and activation revision, the second
strictly later than the first. -/
structure Progression (productId : Str) (baseline current : EntitySnapshot Revision) : Prop where
  baselineSubject : baseline.mode = .prepared ∧ baseline.productId = productId ∧
    baseline.entityRef = entityRef ∧ baseline.entityTypeRef = entityTypeId
  currentSubject : current.mode = .prepared ∧ current.productId = productId ∧
    current.entityRef = entityRef ∧ current.entityTypeRef = entityTypeId
  revision : baseline.activationRevision = current.activationRevision
  progress : baseline.asOf.lt current.asOf = .ok true
  distinct : baseline.resourceId ≠ current.resourceId

/-- A list is sorted to a single element only if it is that element. -/
theorem sortedGroups_eq {groups : List Str} {group : Str}
    (h : groups.insertionSort (· ≤ ·) = [group]) : groups = [group] := by
  have hperm := List.perm_insertionSort (· ≤ ·) groups
  rw [h] at hperm
  exact List.perm_singleton.mp hperm.symm

/-- The gates before the first call. -/
theorem checkBuild_eq_ok [DecidableEq Effect] {core : ExecutorCore F Subject Ref Revision Effect}
    {build : Build Effect} {host : HostServices} {u : Unit}
    (h : checkBuild core build host = .ok u) : ChecksOut core build host := by
  unfold checkBuild executorError at h
  by_cases hprofile : build.profileId = marketIntelligenceProfileId
  · by_cases heffects : build.approvedEffects = core.requiredEffects
    · by_cases hgroups :
        build.sourceGroupIds.insertionSort (· ≤ ·) = supportedRecordedSourceGroupIds
      · simp only [hprofile, heffects, hgroups, ne_eq, not_true_eq_false, if_false] at h
        split at h
        · cases h
        · rename_i hbound
          simp only [not_or, not_not] at hbound
          obtain ⟨hproduct, hactor, hsubject, hdigest⟩ := hbound
          obtain ⟨expired, hexpired, hrest⟩ := bind_eq_ok.mp h
          cases expired with
          | true => simp at hrest
          | false =>
            have hports : (host.recordedSources ∧ host.preparedDerivations ∧ host.firstBrief) := by
              by_contra hports
              simp [hports] at hrest
            exact {
              profile := hprofile
              effects := heffects
              sourceGroups := sortedGroups_eq hgroups
              product := hproduct
              actor := hactor
              useSubject := hsubject
              useDigest := hdigest
              unexpired := Datetime.le_eq_ok_false.mp (ofBuiltin_eq_ok.mp hexpired)
              ports := hports }
      · simp [hprofile, heffects, hgroups] at h
    · simp [hprofile, heffects] at h
  · simp [hprofile] at h

/-! ### The pair of snapshots -/

/-- The disjunction is false exactly on a prepared snapshot of the subject. -/
theorem crossedSubject_eq_false {productId : Str} {s : EntitySnapshot Revision} :
    crossedSubject productId s = false ↔ s.mode = .prepared ∧ s.productId = productId ∧
      s.entityRef = entityRef ∧ s.entityTypeRef = entityTypeId := by
  simp [crossedSubject, and_assoc]

/-- The snapshots are read when every item is one and none crosses the subject. -/
theorem preparedSnapshots_eq_ok {productId : Str} {items : List (SnapshotObj Revision)}
    {ss : List (EntitySnapshot Revision)} :
    preparedSnapshots productId items = .ok ss ↔
      items = ss.map .snapshot ∧ ∀ s ∈ ss, crossedSubject productId s = false := by
  induction items generalizing ss with
  | nil =>
    cases ss <;> simp [preparedSnapshots]
  | cons item items ih =>
    cases item with
    | malformed =>
      cases ss <;> simp [preparedSnapshots]
    | snapshot s =>
      by_cases hs : crossedSubject productId s = true
      · cases ss with
        | nil => simp [preparedSnapshots, hs, executorError]
        | cons t ts =>
          simp only [preparedSnapshots, hs, if_true, executorError, List.map_cons,
            List.cons.injEq, SnapshotObj.snapshot.injEq, List.forall_mem_cons]
          constructor
          · rintro ⟨⟩
          · rintro ⟨⟨rfl, -⟩, hfalse, -⟩
            simp [hs] at hfalse
      · simp only [preparedSnapshots, hs, if_false, bind_eq_ok, ih, Bool.false_eq_true]
        cases ss with
        | nil => simp
        | cons t ts =>
          constructor
          · rintro ⟨us, ⟨rfl, hus⟩, heq⟩
            obtain ⟨rfl, rfl⟩ := List.cons.inj (Except.ok.inj heq)
            exact ⟨rfl, List.forall_mem_cons.mpr ⟨by simpa using hs, hus⟩⟩
          · rintro ⟨hmap, hall⟩
            obtain ⟨hst, htail⟩ := List.cons.inj hmap
            obtain rfl := SnapshotObj.snapshot.inj hst
            obtain ⟨-, hts⟩ := List.forall_mem_cons.mp hall
            exact ⟨ts, ⟨htail, hts⟩, rfl⟩

/-- A strictly earlier snapshot has the smaller sort key. -/
theorem keyLt_of_lt {s t : EntitySnapshot Revision} (h : s.asOf.lt t.asOf = .ok true) :
    keyLt s t = .ok true ∧ keyLt t s = .ok false := by
  constructor
  · simp [keyLt, Datetime.eq_of_lt h, h]
  · simp [keyLt, Datetime.eq_of_gt h, Datetime.lt_asymm h]

/-- Sorting two snapshots returns both. -/
theorem sortedPair_eq_ok {s t b c : EntitySnapshot Revision} (h : sortedPair s t = .ok (b, c)) :
    b = s ∧ c = t ∨ b = t ∧ c = s := by
  obtain ⟨less, -, hpair⟩ := bind_eq_ok.mp h
  cases less with
  | true =>
    obtain ⟨rfl, rfl⟩ := Prod.mk.inj (Except.ok.inj hpair)
    exact .inr ⟨rfl, rfl⟩
  | false =>
    obtain ⟨rfl, rfl⟩ := Prod.mk.inj (Except.ok.inj hpair)
    exact .inl ⟨rfl, rfl⟩

/-- The gates on the sorted pair. -/
theorem progression_of_gates [DecidableEq Revision] {s t : EntitySnapshot Revision}
    {pair : EntitySnapshot Revision × EntitySnapshot Revision}
    {message : String}
    (h : (if s.activationRevision ≠ t.activationRevision then executorError message
      else do
        if ← ofBuiltin (t.asOf.le s.asOf) then executorError message
        else if s.resourceId = t.resourceId then executorError message
        else return (s, t) : Except (Raised ExecutorError) _) = .ok pair) :
    pair = (s, t) ∧ s.activationRevision = t.activationRevision ∧
      s.asOf.lt t.asOf = .ok true ∧ s.resourceId ≠ t.resourceId := by
  by_cases hrevision : s.activationRevision = t.activationRevision
  · simp only [hrevision, ne_eq, not_true_eq_false, if_false] at h
    obtain ⟨late, hlate, hrest⟩ := bind_eq_ok.mp h
    cases late with
    | true => simp [executorError] at hrest
    | false =>
      by_cases hid : s.resourceId = t.resourceId
      · simp [hid, executorError] at hrest
      · simp only [hid, if_false, Bool.false_eq_true, pure_eq_ok, Except.ok.injEq] at hrest
        exact ⟨hrest.symm, hrevision, Datetime.le_eq_ok_false.mp (ofBuiltin_eq_ok.mp hlate), hid⟩
  · simp [hrevision, executorError] at h

/-- The accepted pair: the admission holds these two snapshots, in either order. -/
theorem exactPriceEntities_eq_ok [DecidableEq Revision] {items : List (SnapshotObj Revision)}
    {productId : Str} {baseline current : EntitySnapshot Revision} :
    exactPriceEntities (.entities items) productId = .ok (baseline, current) ↔
      items.Perm [.snapshot baseline, .snapshot current] ∧
        Progression productId baseline current := by
  constructor
  · intro h
    unfold exactPriceEntities at h
    by_cases hlen : items.length = 2
    · simp only [hlen, ne_eq, not_true_eq_false, if_false] at h
      obtain ⟨ss, hss, hrest⟩ := bind_eq_ok.mp h
      obtain ⟨rfl, hall⟩ := preparedSnapshots_eq_ok.mp hss
      obtain ⟨s, t, rfl⟩ := List.length_eq_two.mp (by simpa using hlen)
      obtain ⟨⟨b, c⟩, hsort, hgates⟩ := bind_eq_ok.mp hrest
      obtain ⟨hpair, hrevision, hprogress, hdistinct⟩ := progression_of_gates hgates
      obtain ⟨rfl, rfl⟩ := Prod.mk.inj hpair
      have hs := crossedSubject_eq_false.mp (hall s (by simp))
      have ht := crossedSubject_eq_false.mp (hall t (by simp))
      obtain ⟨rfl, rfl⟩ | ⟨rfl, rfl⟩ := sortedPair_eq_ok (ofBuiltin_eq_ok.mp hsort)
      · exact ⟨.refl _, hs, ht, hrevision, hprogress, hdistinct⟩
      · exact ⟨.swap _ _ _, ht, hs, hrevision, hprogress, hdistinct⟩
    · simp [hlen, executorError] at h
  · rintro ⟨hperm, hpair⟩
    have hbaseline := crossedSubject_eq_false.mpr hpair.baselineSubject
    have hcurrent := crossedSubject_eq_false.mpr hpair.currentSubject
    obtain ⟨hless, hnotless⟩ := keyLt_of_lt hpair.progress
    have hle := Datetime.le_eq_ok_false.mpr hpair.progress
    obtain rfl | rfl := List.perm_pair.mp hperm
    · simp [exactPriceEntities, preparedSnapshots, hbaseline, hcurrent, sortedPair, hnotless,
        hpair.revision, hpair.distinct, hle, ofBuiltin]
    · simp [exactPriceEntities, preparedSnapshots, hbaseline, hcurrent, sortedPair, hless,
        hpair.revision, hpair.distinct, hle, ofBuiltin]

/-! ### The requests -/

/-- What the request to `derive` consists of. -/
theorem derivationRequest_eq_ok {core : ExecutorCore F Subject Ref Revision Effect}
    {build : Build Effect} {baseline current : EntitySnapshot Revision}
    {request : DerivationRequest Ref}
    (h : derivationRequest core build baseline current = .ok request) :
    core.resourceReference baseline = .ok request.baselineSnapshot ∧
      core.resourceReference current = .ok request.currentSnapshot ∧
      request.derivationKey = derivationKey build ∧ request.detectorId = detectorId ∧
      request.evaluatedAt = build.evaluatedAt := by
  obtain ⟨baselineRef, hbaseline, hrest⟩ := bind_eq_ok.mp h
  obtain ⟨currentRef, hcurrent, hrequest⟩ := bind_eq_ok.mp hrest
  dsimp only at hrequest
  split at hrequest
  · obtain rfl := Except.ok.inj hrequest
    exact ⟨hbaseline, hcurrent, rfl, rfl, rfl⟩
  · cases hrequest

/-- A first Brief is requested only from a material derivation with a Shift, a Signal and
an admission, whose attention receipt the request carries. -/
theorem firstBriefRequest_eq_ok {core : ExecutorCore F Subject Ref Revision Effect}
    {build : Build Effect} {derivation : Derivation} {request : FirstBriefRequest}
    (h : firstBriefRequest core build derivation = .ok request) :
    derivation = .derivation true true true
        (some ⟨some (request.attentionReceiptId, request.attentionReceiptDigest)⟩) ∧
      request.buildId = build.buildId ∧ request.buildRequestDigest = build.requestDigest ∧
      request.derivationKey = derivationKey build ∧ request.requestedAt = build.evaluatedAt := by
  unfold firstBriefRequest at h
  split at h
  · cases h
  · rename_i admission
    obtain ⟨receipt⟩ := admission
    cases receipt with
    | none => cases h
    | some receipt =>
      simp only at h
      split at h
      · obtain rfl := Except.ok.inj h
        exact ⟨rfl, rfl, rfl, rfl, rfl⟩
      · cases h
  · cases h

/-! ### The calls -/

/-- The host ports, in the order of their calls. -/
inductive Port
  | bindSubject
  | admitSources
  | derive
  | createFirstBrief
  | query
  deriving DecidableEq

/-- The port of a call. -/
def PortCall.port : PortCall F Subject Ref → Port
  | .bindSubject .. => .bindSubject
  | .admitSources _ => .admitSources
  | .derive _ => .derive
  | .createFirstBrief _ => .createFirstBrief
  | .query _ => .query

/-- The fixed order. -/
def portOrder : List Port := [.bindSubject, .admitSources, .derive, .createFirstBrief, .query]

/-- An exchange with a port that has answered. -/
def answered (call : PortCall F Subject Ref) (answer : Answer Revision Page call) :
    Exchange (PortCall F Subject Ref) (Answer Revision Page) := ⟨call, some answer⟩

/-- The binding of the fixed subject. -/
def subjectBound (subject : Subject) : Exchange (PortCall F Subject Ref) (Answer Revision Page) :=
  answered (.bindSubject subjectBindingId entityTypeId entityRef) subject

/-- What a first Brief takes from a derivation and its request: the derivation is
material, with a Shift, a Signal and an admission, and the Brief names the derivation's
key, the build and the admission's attention receipt. -/
structure BriefOf (build : Build Effect) (derivation : Derivation)
    (requested : DerivationRequest Ref) (request : FirstBriefRequest) : Prop where
  material : derivation = .derivation true true true
    (some ⟨some (request.attentionReceiptId, request.attentionReceiptDigest)⟩)
  buildId : request.buildId = build.buildId
  digest : request.buildRequestDigest = build.requestDigest
  key : request.derivationKey = requested.derivationKey
  requestedAt : request.requestedAt = build.evaluatedAt

/-- What a derivation request takes from an admission: the references of a progression
that the admission's snapshots, in whatever order, determine. -/
structure PairOf [DecidableEq Revision] (core : ExecutorCore F Subject Ref Revision Effect)
    (build : Build Effect) (items : List (SnapshotObj Revision))
    (baseline current : EntitySnapshot Revision) (request : DerivationRequest Ref) : Prop where
  admitted : items.Perm [.snapshot baseline, .snapshot current]
  progression : Progression build.productId baseline current
  baselineRef : core.resourceReference baseline = .ok request.baselineSnapshot
  currentRef : core.resourceReference current = .ok request.currentSnapshot
  key : request.derivationKey = derivationKey build
  detector : request.detectorId = detectorId
  evaluatedAt : request.evaluatedAt = build.evaluatedAt
  anyOrder : ∀ items', items'.Perm items →
    exactPriceEntities (.entities items') build.productId = .ok (baseline, current)

/-- When a call is authorized after the exchanges before it. -/
def Authorized [PyFloat F] [DecidableEq Revision]
    (core : ExecutorCore F Subject Ref Revision Effect) (content : List UInt8)
    (build : Build Effect) (host : HostServices)
    (past : List (Exchange (PortCall F Subject Ref) (Answer Revision Page))) :
    PortCall F Subject Ref → Prop
  | .bindSubject bindingId typeId ref => ChecksOut core build host ∧ past = [] ∧
      bindingId = subjectBindingId ∧ typeId = entityTypeId ∧ ref = entityRef
  | .admitSources materials => ChecksOut core build host ∧
      ∃ subject, past = [subjectBound subject] ∧
      loadRecordedMarketSourceMaterials core.toCore content (fun _ _ _ => .ok subject) =
        .ok materials
  | .derive request => ChecksOut core build host ∧ ∃ subject materials items baseline current,
      past = [subjectBound subject, answered (.admitSources materials) (.entities items)] ∧
      PairOf core build items baseline current request
  | .createFirstBrief request => ChecksOut core build host ∧
      ∃ subject materials admission requested derivation,
      past = [subjectBound subject, answered (.admitSources materials) admission,
        answered (.derive requested) derivation] ∧
      BriefOf build derivation requested request
  | .query arguments => ChecksOut core build host ∧
      ∃ subject materials admission requested derivation brief,
      past = [subjectBound subject, answered (.admitSources materials) admission,
        answered (.derive requested) derivation, answered (.createFirstBrief brief) ()] ∧
      arguments = resourceQuery build

/-- An authorized call is the next one in the fixed order. -/
theorem authorized_port [PyFloat F] [DecidableEq Revision]
    {core : ExecutorCore F Subject Ref Revision Effect} {content : List UInt8}
    {build : Build Effect} {host : HostServices}
    {past : List (Exchange (PortCall F Subject Ref) (Answer Revision Page))}
    {call : PortCall F Subject Ref} (h : Authorized core content build host past call) :
    past.map (·.op.port) ++ [call.port] <+: portOrder := by
  cases call with
  | bindSubject =>
    obtain ⟨-, rfl, -⟩ := h
    exact ⟨[.admitSources, .derive, .createFirstBrief, .query], rfl⟩
  | admitSources =>
    obtain ⟨-, subject, rfl, -⟩ := h
    exact ⟨[.derive, .createFirstBrief, .query], rfl⟩
  | derive =>
    obtain ⟨-, subject, materials, items, baseline, current, rfl, -⟩ := h
    exact ⟨[.createFirstBrief, .query], rfl⟩
  | createFirstBrief =>
    obtain ⟨-, subject, materials, admission, requested, derivation, rfl, -⟩ := h
    exact ⟨[.query], rfl⟩
  | query =>
    obtain ⟨-, subject, materials, admission, requested, derivation, brief, rfl, -⟩ := h
    exact ⟨[], rfl⟩

/-- `start` makes authorized calls only. -/
theorem start_meets [PyFloat F] [DecidableEq Revision] [DecidableEq Effect]
    (core : ExecutorCore F Subject Ref Revision Effect) (content : List UInt8)
    (build : Build Effect) (host : HostServices) :
    (start core content build host : HostProgram F Subject Ref Revision Page Page).Meets
      ⟨Authorized core content build host, fun _ _ => True, fun _ _ => True⟩ [] := by
  unfold start bindSubject admitSources derive createFirstBrief query
  simp only [meets_bind, meets_ofExcept, meets_ask, meets_done, returning_returns,
    returning_raises, returning_allows, implies_true, and_true, Prod.forall]
  intro _ hgates inventory items hinventory
  have hbuild := checkBuild_eq_ok hgates
  refine ⟨⟨hbuild, rfl, rfl, rfl, rfl⟩, ?_⟩
  intro subject materials hmaterials
  have hload : loadRecordedMarketSourceMaterials core.toCore content
      (fun _ _ _ => .ok subject) = .ok materials := by
    simp [loadRecordedMarketSourceMaterials, hinventory, hmaterials]
  refine ⟨⟨hbuild, subject, rfl, hload⟩, ?_⟩
  intro admission baseline current hpair requested hrequested
  obtain ⟨hbaseline, hcurrent, hkey, hdetector, hevaluated⟩ := derivationRequest_eq_ok hrequested
  cases admission with
  | malformed => cases hpair
  | entities snapshots =>
    have hadmitted := exactPriceEntities_eq_ok.mp hpair
    have hrequest : PairOf core build snapshots baseline current requested := {
      admitted := hadmitted.1
      progression := hadmitted.2
      baselineRef := hbaseline
      currentRef := hcurrent
      key := hkey
      detector := hdetector
      evaluatedAt := hevaluated
      anyOrder := fun snapshots' hperm =>
        exactPriceEntities_eq_ok.mpr ⟨hperm.trans hadmitted.1, hadmitted.2⟩ }
    refine ⟨⟨hbuild, subject, materials, snapshots, baseline, current, rfl, hrequest⟩, ?_⟩
    intro derivation brief hbrief
    obtain ⟨hmaterial, hbuildId, hdigest, hbriefKey, hrequestedAt⟩ := firstBriefRequest_eq_ok hbrief
    refine ⟨⟨hbuild, subject, materials, _, requested, derivation, rfl,
      hmaterial, hbuildId, hdigest, hbriefKey.trans hkey.symm, hrequestedAt⟩, ?_⟩
    intro _
    exact ⟨hbuild, subject, materials, _, requested, derivation, brief, rfl, rfl⟩

/-- The calls of `start` are a prefix of the fixed order, and each of them is authorized,
for every build, every content of the inventory file and every behaviour of the ports. -/
theorem start_authorized [PyFloat F] [DecidableEq Revision] [DecidableEq Effect]
    (core : ExecutorCore F Subject Ref Revision Effect) (content : List UInt8)
    (build : Build Effect) (host : HostServices)
    {es : List (Exchange (PortCall F Subject Ref) (Answer Revision Page))}
    {o : Outcome (Raised ExecutorError) Page} (h : Trace (start core content build host) es o) :
    es.map (·.op.port) <+: portOrder ∧
      ∀ past x rest, es = past ++ x :: rest → Authorized core content build host past x.op := by
  obtain ⟨hallowed, -, -⟩ := h.meets (start_meets core content build host)
  refine ⟨?_, hallowed⟩
  obtain rfl | ⟨past, x, rfl⟩ := es.eq_nil_or_concat'
  · exact List.nil_prefix
  · simpa using authorized_port hallowed.last

/-- The sample with Core's remaining parts. -/
def sampleExecutorCore : ExecutorCore Unit (Str × Str × Str) Str Unit ℕ where
  toCore := sampleCore
  requiredEffects := [1, 2]
  resourceReference s := .ok (resourceIdText s)
  acceptsDerivation _ := true
  acceptsFirstBrief _ := true

/-- A time of the sample. -/
def sampleDay (day : Fin 1000) : Datetime :=
  .utc (63919152000000000 + day * microsPerDay) <| by
    have hday := day.isLt
    simp only [microsPerDay, datetimeRange]
    omega

/-- A build that checks out. -/
def sampleBuild : Build ℕ where
  buildId := lit "build"
  requestDigest := lit "digest"
  productId := lit "product"
  actorRef := lit "actor"
  profileId := marketIntelligenceProfileId
  approvedEffects := [1, 2]
  sourceGroupIds := supportedRecordedSourceGroupIds
  contextProductId := lit "product"
  contextActorRef := lit "actor"
  expiresAt := sampleDay 40
  useSubjectRef := lit "build"
  useSubjectDigest := lit "digest"
  evaluatedAt := sampleDay 35

/-- A snapshot of the sample. -/
def sampleSnapshot (id : String) (asOf : Datetime) : EntitySnapshot Unit where
  mode := .prepared
  productId := lit "product"
  entityRef := entityRef
  entityTypeRef := entityTypeId
  asOf := asOf
  resourceId := some (lit id)
  activationRevision := ()

/-- A host that answers every call, with the later snapshot first. -/
def sampleHost (_ : List (Exchange (PortCall Unit (Str × Str × Str) Str) (Answer Unit Unit))) :
    (call : PortCall Unit (Str × Str × Str) Str) → Option (Answer Unit Unit call)
  | .bindSubject b t e => some (b, t, e)
  | .admitSources _ => some (.entities [.snapshot (sampleSnapshot "current" (sampleDay 21)),
      .snapshot (sampleSnapshot "baseline" (sampleDay 0))])
  | .derive _ => some (.derivation true true true (some ⟨some (lit "receipt", lit "sum")⟩))
  | .createFirstBrief _ => some ()
  | .query _ => some ()

/-- The execution of the sample. -/
def sampleExecution : List (Exchange (PortCall Unit (Str × Str × Str) Str) (Answer Unit Unit)) ×
    Outcome (Raised ExecutorError) Unit :=
  (start sampleExecutorCore sampleContent sampleBuild ⟨true, true, true⟩).run sampleHost []

/-- The sample reaches the last port, with authorized calls. -/
theorem sampleExecution_authorized : sampleExecution.1.map (·.op.port) = portOrder ∧
    sampleExecution.1.map (·.op.port) <+: portOrder ∧
    ∀ past x rest, sampleExecution.1 = past ++ x :: rest →
      Authorized sampleExecutorCore sampleContent sampleBuild ⟨true, true, true⟩ past x.op :=
  ⟨by decide +kernel, start_authorized sampleExecutorCore sampleContent sampleBuild
    ⟨true, true, true⟩ (Program.run_trace sampleHost [] _)⟩

end MarketIntelligence.Builder
