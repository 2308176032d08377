import MarketIntelligence.Python.Text
import Mathlib.Logic.Function.Basic

/-!
# The governed state store in memory

`MemoryGovernedStateStore` of the acceptance scripts, as a state monad whose exceptions
keep the state. Heads are stored by state, revisions and receipts by product and
identity. What Core derives or validates is a parameter and may raise.
-/

namespace MarketIntelligence.Governance

open Python (Str lit)

/-- The key of a governed state. -/
structure StateKey where
  stateKind : Str
  productId : Str
  stateId : Str
  deriving DecidableEq

/-- A revision of a governed state; `content` is everything that the store does not
read. -/
structure Revision (Content : Type) where
  stateKind : Str
  productId : Str
  stateId : Str
  sequence : ℕ
  revisionId : Str
  content : Content
  deriving DecidableEq

/-- The state that a revision belongs to. -/
def Revision.key {Content : Type} (revision : Revision Content) : StateKey :=
  ⟨revision.stateKind, revision.productId, revision.stateId⟩

/-- The receipt of a commit. -/
structure Receipt (Evidence : Type) where
  receiptId : Str
  evidence : Evidence
  deriving DecidableEq

/-- `GovernedStateHeadV1`. -/
structure Head (Time : Type) where
  stateKind : Str
  productId : Str
  stateId : Str
  sequence : ℕ
  revisionId : Str
  commitReceiptId : Str
  updatedAt : Time
  deriving DecidableEq

/-- `GovernedStateCommitRequestV1`; `detail` is what only the receipt depends on. -/
structure CommitRequest (Content Detail Time : Type) where
  revision : Revision Content
  expectedHeadRevisionId : Option Str
  committedAt : Time
  detail : Detail

variable {Content Detail Evidence Time Cause : Type}

/-- What Core contributes to a commit. -/
structure GovernedCore (Content Detail Evidence Time Cause : Type) where
  /-- `request.receipt()`. -/
  receipt : CommitRequest Content Detail Time → Except Cause (Receipt Evidence)
  /-- The validation of a head record when it is constructed. -/
  validateHead : Head Time → Except Cause Unit

/-- The exceptions of a commit. -/
inductive CommitError (Cause : Type)
  /-- `ValueError(message)`. -/
  | valueError (message : Str)
  /-- An exception of Core. -/
  | core (cause : Cause)
  deriving DecidableEq

/-- The three maps of the store. -/
structure Store (Content Evidence Time : Type) where
  heads : StateKey → Option (Head Time)
  revisions : Str × Str → Option (Revision Content)
  receipts : Str × Str → Option (Receipt Evidence)

/-- A new store. -/
def Store.empty : Store Content Evidence Time := ⟨fun _ => none, fun _ => none, fun _ => none⟩

namespace Store

/-- `load_head`. -/
def loadHead (store : Store Content Evidence Time) (key : StateKey) : Option (Head Time) :=
  store.heads key

/-- `load_revision`. -/
def loadRevision (store : Store Content Evidence Time) (revisionId productId : Str) :
    Option (Revision Content) := store.revisions (productId, revisionId)

/-- `load_receipt`. -/
def loadReceipt (store : Store Content Evidence Time) (receiptId productId : Str) :
    Option (Receipt Evidence) := store.receipts (productId, receiptId)

/-- `self.revisions[(revision.product_id, revision.revision_id)] = revision`. -/
def putRevision (store : Store Content Evidence Time) (revision : Revision Content) :
    Store Content Evidence Time :=
  { store with revisions :=
      Function.update store.revisions (revision.productId, revision.revisionId) (some revision) }

/-- `self.receipts[(product_id, str(receipt.receipt_id))] = receipt`. -/
def putReceipt (store : Store Content Evidence Time) (productId : Str)
    (receipt : Receipt Evidence) : Store Content Evidence Time :=
  { store with receipts :=
      Function.update store.receipts (productId, receipt.receiptId) (some receipt) }

/-- `self.heads[key] = head`. -/
def putHead (store : Store Content Evidence Time) (key : StateKey) (head : Head Time) :
    Store Content Evidence Time :=
  { store with heads := Function.update store.heads key (some head) }

end Store

/-- A computation on the store; what was written before an exception stays written. -/
abbrev StoreM (Content Evidence Time Cause α : Type) : Type :=
  ExceptT (CommitError Cause) (StateM (Store Content Evidence Time)) α

/-- A call of Core. -/
def ofCore {α : Type} : Except Cause α → StoreM Content Evidence Time Cause α
  | .ok a => pure a
  | .error cause => throw (.core cause)

/-- The arguments of the head record of a commit. -/
def headRecord (request : CommitRequest Content Detail Time) (receipt : Receipt Evidence) :
    Head Time where
  stateKind := request.revision.stateKind
  productId := request.revision.productId
  stateId := request.revision.stateId
  sequence := request.revision.sequence
  revisionId := request.revision.revisionId
  commitReceiptId := receipt.receiptId
  updatedAt := request.committedAt

/-- The construction of a head record. -/
def governedStateHead (core : GovernedCore Content Detail Evidence Time Cause)
    (head : Head Time) : Except Cause (Head Time) := do
  core.validateHead head
  return head

/-- `commit`, in the two acceptance scripts. -/
def commit (core : GovernedCore Content Detail Evidence Time Cause)
    (request : CommitRequest Content Detail Time) :
    StoreM Content Evidence Time Cause (Receipt Evidence) := do
  let revision := request.revision
  let current := (← get).heads revision.key
  if current.map Head.revisionId ≠ request.expectedHeadRevisionId then
    throw (.valueError (lit "governed state head conflict"))
  let receipt ← ofCore (core.receipt request)
  modify fun store => store.putRevision revision
  modify fun store => store.putReceipt revision.productId receipt
  let head ← ofCore (governedStateHead core (headRecord request receipt))
  modify fun store => store.putHead revision.key head
  return receipt

/-- `commit`, in the copy of the store in the tests of the pack: the head record is
constructed before anything is written. -/
def commitHeadFirst (core : GovernedCore Content Detail Evidence Time Cause)
    (request : CommitRequest Content Detail Time) :
    StoreM Content Evidence Time Cause (Receipt Evidence) := do
  let revision := request.revision
  let current := (← get).heads revision.key
  if current.map Head.revisionId ≠ request.expectedHeadRevisionId then
    throw (.valueError (lit "governed state head conflict"))
  let receipt ← ofCore (core.receipt request)
  let head ← ofCore (governedStateHead core (headRecord request receipt))
  modify fun store => store.putRevision revision
  modify fun store => store.putReceipt revision.productId receipt
  modify fun store => store.putHead revision.key head
  return receipt

/-! ### Running computations on the store -/

/-- A computation on a store: its result or its exception, and the store afterwards. -/
def runOn {α : Type} (x : StoreM Content Evidence Time Cause α)
    (store : Store Content Evidence Time) :
    Except (CommitError Cause) α × Store Content Evidence Time := StateT.run (ExceptT.run x) store

variable {α β : Type} {store : Store Content Evidence Time}

/-- A result leaves the store. -/
@[simp] theorem runOn_pure (a : α) :
    runOn (pure a : StoreM Content Evidence Time Cause α) store = (.ok a, store) := rfl

/-- So does an exception. -/
@[simp] theorem runOn_throw (e : CommitError Cause) :
    runOn (throw e : StoreM Content Evidence Time Cause α) store = (.error e, store) := rfl

/-- Reading the store. -/
@[simp] theorem runOn_get :
    runOn (get : StoreM Content Evidence Time Cause _) store = (.ok store, store) := rfl

/-- Changing the store. -/
@[simp] theorem runOn_modify (f : Store Content Evidence Time → Store Content Evidence Time) :
    runOn (modify f : StoreM Content Evidence Time Cause _) store = (.ok (), f store) := rfl

/-- What was done before an exception stays done. -/
@[simp] theorem runOn_bind (x : StoreM Content Evidence Time Cause α)
    (f : α → StoreM Content Evidence Time Cause β) :
    runOn (x >>= f) store = match runOn x store with
      | (.ok a, after) => runOn (f a) after
      | (.error e, after) => (.error e, after) := by
  have hrun : runOn (x >>= f) store =
      (ExceptT.bindCont f (runOn x store).1).run (runOn x store).2 := rfl
  rw [hrun]
  rcases runOn x store with ⟨_ | _, after⟩ <;> rfl

/-- Applying a function to the result. -/
@[simp] theorem runOn_map (f : α → β) (x : StoreM Content Evidence Time Cause α) :
    runOn (f <$> x) store = match runOn x store with
      | (.ok a, after) => (.ok (f a), after)
      | (.error e, after) => (.error e, after) := by
  rw [← bind_pure_comp, runOn_bind]
  simp

/-- A call of Core that returns. -/
@[simp] theorem runOn_ofCore_ok (a : α) :
    runOn (ofCore (.ok a) : StoreM Content Evidence Time Cause α) store = (.ok a, store) := rfl

/-- A call of Core that raises. -/
@[simp] theorem runOn_ofCore_error (cause : Cause) :
    runOn (ofCore (.error cause) : StoreM Content Evidence Time Cause α) store =
      (.error (.core cause), store) := rfl

/-! ### What a commit does -/

/-- A commit is made against the head that the store has for its state. -/
def Expected (store : Store Content Evidence Time)
    (request : CommitRequest Content Detail Time) : Prop :=
  (store.heads request.revision.key).map Head.revisionId = request.expectedHeadRevisionId

instance (store : Store Content Evidence Time) (request : CommitRequest Content Detail Time) :
    Decidable (Expected store request) := inferInstanceAs (Decidable (_ = _))

/-- The store with the revision and the receipt of a commit. -/
def Store.recorded (store : Store Content Evidence Time)
    (request : CommitRequest Content Detail Time) (receipt : Receipt Evidence) :
    Store Content Evidence Time :=
  (store.putRevision request.revision).putReceipt request.revision.productId receipt

variable {core : GovernedCore Content Detail Evidence Time Cause}
  {request : CommitRequest Content Detail Time}

/-- A commit against another head. -/
theorem runOn_commit_conflict (h : ¬Expected store request) : runOn (commit core request) store =
    (.error (.valueError (lit "governed state head conflict")), store) := by
  have hhead : (store.heads request.revision.key).map Head.revisionId ≠
      request.expectedHeadRevisionId := h
  simp [commit, hhead]

/-- A commit whose receipt cannot be derived. -/
theorem runOn_commit_noReceipt {cause : Cause} (h : Expected store request)
    (hreceipt : core.receipt request = .error cause) :
    runOn (commit core request) store = (.error (.core cause), store) := by
  have hhead : (store.heads request.revision.key).map Head.revisionId =
      request.expectedHeadRevisionId := h
  simp [commit, hhead, hreceipt]

/-- A commit whose head record is rejected. -/
theorem runOn_commit_noHead {receipt : Receipt Evidence} {cause : Cause}
    (h : Expected store request) (hreceipt : core.receipt request = .ok receipt)
    (hrejected : core.validateHead (headRecord request receipt) = .error cause) :
    runOn (commit core request) store =
      (.error (.core cause), store.recorded request receipt) := by
  have hhead : (store.heads request.revision.key).map Head.revisionId =
      request.expectedHeadRevisionId := h
  simp [commit, governedStateHead, hhead, hreceipt, hrejected, Store.recorded]

/-- A commit that is accepted. -/
theorem runOn_commit_accepted {receipt : Receipt Evidence} (h : Expected store request)
    (hreceipt : core.receipt request = .ok receipt)
    (hvalid : core.validateHead (headRecord request receipt) = .ok ()) :
    runOn (commit core request) store = (.ok receipt,
      (store.recorded request receipt).putHead request.revision.key
        (headRecord request receipt)) := by
  have hhead : (store.heads request.revision.key).map Head.revisionId =
      request.expectedHeadRevisionId := h
  simp [commit, governedStateHead, hhead, hreceipt, hvalid, Store.recorded]

/-- The ways in which a commit ends. -/
inductive CommitCase (core : GovernedCore Content Detail Evidence Time Cause)
    (store : Store Content Evidence Time) (request : CommitRequest Content Detail Time) :
    Except (CommitError Cause) (Receipt Evidence) × Store Content Evidence Time → Prop
  | conflict : ¬Expected store request → CommitCase core store request
      (.error (.valueError (lit "governed state head conflict")), store)
  | noReceipt {cause : Cause} : Expected store request → core.receipt request = .error cause →
      CommitCase core store request (.error (.core cause), store)
  | noHead {receipt : Receipt Evidence} {cause : Cause} : Expected store request →
      core.receipt request = .ok receipt →
      core.validateHead (headRecord request receipt) = .error cause →
      CommitCase core store request (.error (.core cause), store.recorded request receipt)
  | accepted {receipt : Receipt Evidence} : Expected store request →
      core.receipt request = .ok receipt →
      core.validateHead (headRecord request receipt) = .ok () →
      CommitCase core store request (.ok receipt,
        (store.recorded request receipt).putHead request.revision.key
          (headRecord request receipt))

/-- Every commit ends in one of these ways. -/
theorem commit_cases (core : GovernedCore Content Detail Evidence Time Cause)
    (store : Store Content Evidence Time) (request : CommitRequest Content Detail Time) :
    CommitCase core store request (runOn (commit core request) store) := by
  by_cases hexpected : Expected store request
  · cases hreceipt : core.receipt request with
    | error cause =>
      rw [runOn_commit_noReceipt hexpected hreceipt]
      exact .noReceipt hexpected hreceipt
    | ok receipt =>
      cases hvalid : core.validateHead (headRecord request receipt) with
      | error cause =>
        rw [runOn_commit_noHead hexpected hreceipt hvalid]
        exact .noHead hexpected hreceipt hvalid
      | ok =>
        rw [runOn_commit_accepted hexpected hreceipt hvalid]
        exact .accepted hexpected hreceipt hvalid
  · rw [runOn_commit_conflict hexpected]
    exact .conflict hexpected

/-! ### Commits that raise -/

/-- Recording a revision and a receipt that the store has already changes nothing. -/
theorem recorded_eq_iff {receipt : Receipt Evidence} :
    store.recorded request receipt = store ↔
      store.loadRevision request.revision.revisionId request.revision.productId =
        some request.revision ∧
      store.loadReceipt receipt.receiptId request.revision.productId = some receipt := by
  obtain ⟨heads, revisions, receipts⟩ := store
  simp [Store.recorded, Store.putRevision, Store.putReceipt, Store.loadRevision,
    Store.loadReceipt, eq_comm]

/-- The head record of a commit is rejected when its revision and its receipt are
recorded already, at least one of them for the first time. -/
def RejectedLate (core : GovernedCore Content Detail Evidence Time Cause)
    (store : Store Content Evidence Time) (request : CommitRequest Content Detail Time) : Prop :=
  Expected store request ∧ ∃ receipt cause, core.receipt request = .ok receipt ∧
    core.validateHead (headRecord request receipt) = .error cause ∧
    (store.loadRevision request.revision.revisionId request.revision.productId ≠
        some request.revision ∨
      store.loadReceipt receipt.receiptId request.revision.productId ≠ some receipt)

/-- A commit raises and leaves something behind exactly if its head record is rejected late. -/
theorem leaves_iff :
    ((∃ e, (runOn (commit core request) store).1 = .error e) ∧
      (runOn (commit core request) store).2 ≠ store) ↔ RejectedLate core store request := by
  constructor
  · rintro ⟨⟨e, he⟩, hchanged⟩
    have hcases := commit_cases core store request
    generalize runOn (commit core request) store = run at hcases he hchanged
    cases hcases with
    | conflict => exact absurd rfl hchanged
    | noReceipt => exact absurd rfl hchanged
    | noHead hexpected hreceipt hrejected =>
      exact ⟨hexpected, _, _, hreceipt, hrejected, not_and_or.mp (recorded_eq_iff.not.mp hchanged)⟩
    | accepted => cases he
  · rintro ⟨hexpected, receipt, cause, hreceipt, hrejected, hnew⟩
    rw [runOn_commit_noHead hexpected hreceipt hrejected]
    exact ⟨⟨_, rfl⟩, recorded_eq_iff.not.mpr (not_and_or.mpr hnew)⟩

/-- A commit that raises leaves the store as it was exactly when it is not the head
record that is rejected, after something new was recorded. -/
theorem commit_unchanged_iff (core : GovernedCore Content Detail Evidence Time Cause)
    (store : Store Content Evidence Time) (request : CommitRequest Content Detail Time) :
    (∀ e after, runOn (commit core request) store = (.error e, after) → after = store) ↔
      ¬RejectedLate core store request := by
  constructor
  · rintro hunchanged ⟨hexpected, receipt, cause, hreceipt, hrejected, hnew⟩
    have hsame := hunchanged _ _ (runOn_commit_noHead hexpected hreceipt hrejected)
    obtain ⟨hrevision, hrecorded⟩ := recorded_eq_iff.mp hsame
    obtain h | h := hnew
    · exact h hrevision
    · exact h hrecorded
  · intro hnot e after h
    have hcases := commit_cases core store request
    rw [h] at hcases
    cases hcases with
    | conflict => rfl
    | noReceipt => rfl
    | noHead hexpected hreceipt hrejected =>
      refine recorded_eq_iff.mpr ?_
      by_contra hnew
      exact hnot ⟨hexpected, _, _, hreceipt, hrejected, not_and_or.mp hnew⟩

/-- Core with a head record that must have a positive sequence. -/
def sampleCore : GovernedCore Unit Unit Unit Unit Unit where
  receipt request := .ok ⟨request.revision.revisionId, ()⟩
  validateHead head := if 0 < head.sequence then .ok () else .error ()

/-- A commit of a revision of a state of one product. -/
def sampleRequest (stateId revisionId : String) (sequence : ℕ) (expected : Option String) :
    CommitRequest Unit Unit Unit where
  revision := ⟨lit "activation", lit "product", lit stateId, sequence, lit revisionId, ()⟩
  expectedHeadRevisionId := expected.map lit
  committedAt := ()
  detail := ()

/-- The first commit of a state, with the sequence zero. -/
def zeroRequest : CommitRequest Unit Unit Unit := sampleRequest "state" "revision" 0 none

/-- The commit of a revision with the sequence zero raises, and its revision can be
loaded. -/
theorem zeroRequest_recorded :
    ¬∀ (store : Store Unit Unit Unit) e after,
      runOn (commit sampleCore zeroRequest) store = (.error e, after) → after = store := by
  intro hunchanged
  have hraised : runOn (commit sampleCore zeroRequest) .empty =
      (.error (.core ()), Store.empty.recorded zeroRequest ⟨lit "revision", ()⟩) := rfl
  obtain ⟨hrevision, -⟩ := recorded_eq_iff.mp (hunchanged _ _ _ hraised)
  cases hrevision

/-- Where the head record is constructed first, a commit that raises leaves the store as
it was. -/
theorem commitHeadFirst_unchanged {e : CommitError Cause} {after : Store Content Evidence Time}
    (h : runOn (commitHeadFirst core request) store = (.error e, after)) : after = store := by
  by_cases hexpected : (store.heads request.revision.key).map Head.revisionId =
      request.expectedHeadRevisionId
  · cases hreceipt : core.receipt request with
    | error cause =>
      simp [commitHeadFirst, hexpected, hreceipt] at h
      exact h.2.symm
    | ok receipt =>
      cases hvalid : core.validateHead (headRecord request receipt) with
      | error cause =>
        simp [commitHeadFirst, governedStateHead, hexpected, hreceipt, hvalid] at h
        exact h.2.symm
      | ok => simp [commitHeadFirst, governedStateHead, hexpected, hreceipt, hvalid] at h
  · simp [commitHeadFirst, hexpected] at h
    exact h.2.symm

end MarketIntelligence.Governance
