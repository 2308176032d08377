import MarketIntelligence.Governance.Store
import Mathlib.Data.List.Induction

/-!
# The ledger behind the store

What the store is for: a ledger of the accepted commits, in order. A state's head is the
record of its last accepted commit, and every accepted revision and receipt stays
available. The store represents this ledger after any sequence of commits, although
revisions and receipts of all states of a product share their maps.
-/

namespace MarketIntelligence.Governance

open Python (Str lit)

variable {Content Detail Evidence Time Cause : Type}

/-- An accepted commit. -/
structure Accepted (Content Detail Evidence Time : Type) where
  request : CommitRequest Content Detail Time
  receipt : Receipt Evidence

/-- A commit that was tried: the store before it, how it ended, and the store after it. -/
structure Attempt (Content Detail Evidence Time Cause : Type) where
  request : CommitRequest Content Detail Time
  before : Store Content Evidence Time
  outcome : Except (CommitError Cause) (Receipt Evidence)
  after : Store Content Evidence Time

/-- The accepted commit of an attempt. -/
def Attempt.accepted? (a : Attempt Content Detail Evidence Time Cause) :
    Option (Accepted Content Detail Evidence Time) :=
  match a.outcome with
  | .ok receipt => some ⟨a.request, receipt⟩
  | .error _ => none

/-- The ledger of some attempts. -/
def ledger (as : List (Attempt Content Detail Evidence Time Cause)) :
    List (Accepted Content Detail Evidence Time) := as.filterMap Attempt.accepted?

/-- The ledger of attempts in two parts. -/
@[simp] theorem ledger_append (as bs : List (Attempt Content Detail Evidence Time Cause)) :
    ledger (as ++ bs) = ledger as ++ ledger bs := List.filterMap_append

/-- An accepted attempt is an entry. -/
@[simp] theorem ledger_ok (request : CommitRequest Content Detail Time)
    (before after : Store Content Evidence Time) (receipt : Receipt Evidence) :
    ledger [(⟨request, before, .ok receipt, after⟩ :
      Attempt Content Detail Evidence Time Cause)] = [⟨request, receipt⟩] := rfl

/-- An attempt that raised is none. -/
@[simp] theorem ledger_error (request : CommitRequest Content Detail Time)
    (before after : Store Content Evidence Time) (e : CommitError Cause) :
    ledger [(⟨request, before, .error e, after⟩ :
      Attempt Content Detail Evidence Time Cause)] = [] := rfl

/-- The commits of a ledger that belong to a state. -/
def entriesOf (key : StateKey) (entries : List (Accepted Content Detail Evidence Time)) :
    List (Accepted Content Detail Evidence Time) :=
  entries.filter fun a => a.request.revision.key = key

/-- The head record of the last commit of a state. -/
def headOf (key : StateKey) (entries : List (Accepted Content Detail Evidence Time)) :
    Option (Head Time) :=
  (entriesOf key entries).getLast?.map fun a => headRecord a.request a.receipt

variable (core : GovernedCore Content Detail Evidence Time Cause)

/-- Trying a commit on a store. -/
def attempt (store : Store Content Evidence Time) (request : CommitRequest Content Detail Time) :
    Attempt Content Detail Evidence Time Cause where
  request := request
  before := store
  outcome := (runOn (commit core request) store).1
  after := (runOn (commit core request) store).2

/-- Commits one after another on a new store: the attempts, and the store after them. -/
def history (requests : List (CommitRequest Content Detail Time)) :
    List (Attempt Content Detail Evidence Time Cause) × Store Content Evidence Time :=
  requests.foldl (fun past request =>
    (past.1 ++ [attempt core past.2 request], (attempt core past.2 request).after)) ([], .empty)

/-- One more commit. -/
theorem history_append (requests : List (CommitRequest Content Detail Time))
    (request : CommitRequest Content Detail Time) :
    history core (requests ++ [request]) =
      ((history core requests).1 ++ [attempt core (history core requests).2 request],
        (attempt core (history core requests).2 request).after) := by
  simp [history]

/-- In some requests a revision identity determines the revision. -/
def RevisionIdsDetermine (requests : List (CommitRequest Content Detail Time)) : Prop :=
  ∀ q ∈ requests, ∀ q' ∈ requests, q.revision.revisionId = q'.revision.revisionId →
    q.revision = q'.revision

/-- In some requests a receipt identity determines the receipt. -/
def ReceiptIdsDetermine (requests : List (CommitRequest Content Detail Time)) : Prop :=
  ∀ q ∈ requests, ∀ q' ∈ requests, ∀ c c', core.receipt q = .ok c → core.receipt q' = .ok c' →
    c.receiptId = c'.receiptId → c = c'

variable {core}

/-- A store has the revisions and receipts of a ledger of commits that came from some
requests. -/
structure Represents (core : GovernedCore Content Detail Evidence Time Cause)
    (requests : List (CommitRequest Content Detail Time))
    (entries : List (Accepted Content Detail Evidence Time))
    (store : Store Content Evidence Time) : Prop where
  issued : ∀ a ∈ entries, a.request ∈ requests ∧ core.receipt a.request = .ok a.receipt
  revisions : ∀ a ∈ entries, store.loadRevision a.request.revision.revisionId
    a.request.revision.productId = some a.request.revision
  receipts : ∀ a ∈ entries, store.loadReceipt a.receipt.receiptId
    a.request.revision.productId = some a.receipt

/-! ### One commit -/

section step

variable {store : Store Content Evidence Time} {request : CommitRequest Content Detail Time}
  {receipt : Receipt Evidence}

/-- Recording keeps the heads. -/
@[simp] theorem loadHead_recorded (key : StateKey) :
    (store.recorded request receipt).loadHead key = store.loadHead key := rfl

/-- Recording makes the revision available and keeps the others. -/
theorem loadRevision_recorded (revisionId productId : Str) :
    (store.recorded request receipt).loadRevision revisionId productId =
      if productId = request.revision.productId ∧ revisionId = request.revision.revisionId then
        some request.revision
      else store.loadRevision revisionId productId := by
  simp [Store.recorded, Store.putRevision, Store.putReceipt, Store.loadRevision,
    Function.update_apply]

/-- Recording makes the receipt available and keeps the others. -/
theorem loadReceipt_recorded (receiptId productId : Str) :
    (store.recorded request receipt).loadReceipt receiptId productId =
      if productId = request.revision.productId ∧ receiptId = receipt.receiptId then
        some receipt
      else store.loadReceipt receiptId productId := by
  simp [Store.recorded, Store.putRevision, Store.putReceipt, Store.loadReceipt,
    Function.update_apply]

/-- A new head of a state is loaded for this state and for no other. -/
theorem loadHead_putHead (key other : StateKey) (head : Head Time) :
    (store.putHead key head).loadHead other =
      if other = key then some head else store.loadHead other := by
  simp [Store.putHead, Store.loadHead, Function.update_apply]

/-- A new head changes no revision. -/
@[simp] theorem loadRevision_putHead (key : StateKey) (head : Head Time)
    (revisionId productId : Str) : (store.putHead key head).loadRevision revisionId productId =
      store.loadRevision revisionId productId := rfl

/-- A new head changes no receipt. -/
@[simp] theorem loadReceipt_putHead (key : StateKey) (head : Head Time)
    (receiptId productId : Str) : (store.putHead key head).loadReceipt receiptId productId =
      store.loadReceipt receiptId productId := rfl

/-- A new entry is the last one of its state. -/
theorem headOf_append (key : StateKey) (entries : List (Accepted Content Detail Evidence Time))
    (a : Accepted Content Detail Evidence Time) :
    headOf key (entries ++ [a]) =
      if key = a.request.revision.key then some (headRecord a.request a.receipt)
      else headOf key entries := by
  by_cases hkey : a.request.revision.key = key
  · simp [headOf, entriesOf, hkey]
  · have hother : ¬key = a.request.revision.key := fun h => hkey h.symm
    simp [headOf, entriesOf, hkey, hother]

variable {requests : List (CommitRequest Content Detail Time)}
  {entries : List (Accepted Content Detail Evidence Time)}

/-- An attempt sets the head of its state if it is accepted, and no other head. -/
theorem loadHead_attempt {key : StateKey} (h : store.loadHead key = headOf key entries) :
    (attempt core store request).after.loadHead key =
      headOf key (entries ++ ledger [attempt core store request]) := by
  have hcases := commit_cases core store request
  simp only [attempt]
  generalize runOn (commit core request) store = run at hcases ⊢
  cases hcases with
  | conflict => simpa using h
  | noReceipt => simpa using h
  | noHead => simpa using h
  | accepted => rw [ledger_ok, headOf_append, loadHead_putHead, loadHead_recorded, h]

/-- Recording a revision and a receipt, new ones or again, keeps those of the ledger. -/
theorem Represents.recorded (h : Represents core requests entries store)
    (hrevisions : RevisionIdsDetermine requests) (hreceipts : ReceiptIdsDetermine core requests)
    (hrequest : request ∈ requests) (hreceipt : core.receipt request = .ok receipt) :
    Represents core requests entries (store.recorded request receipt) where
  issued := h.issued
  revisions a ha := by
    rw [loadRevision_recorded]
    split
    · next hsame =>
      have heq := hrevisions request hrequest a.request (h.issued a ha).1 hsame.2.symm
      rw [heq]
    · exact h.revisions a ha
  receipts a ha := by
    rw [loadReceipt_recorded]
    split
    · next hsame =>
      obtain ⟨hmember, hissued⟩ := h.issued a ha
      have heq := hreceipts request hrequest a.request hmember _ _ hreceipt hissued hsame.2.symm
      rw [heq]
    · exact h.receipts a ha

/-- An accepted commit adds its revision and its receipt. -/
theorem Represents.accepted (h : Represents core requests entries store)
    (hrevisions : RevisionIdsDetermine requests) (hreceipts : ReceiptIdsDetermine core requests)
    (hrequest : request ∈ requests) (hreceipt : core.receipt request = .ok receipt) :
    Represents core requests (entries ++ [⟨request, receipt⟩])
      ((store.recorded request receipt).putHead request.revision.key
        (headRecord request receipt)) := by
  have hrecorded := h.recorded hrevisions hreceipts hrequest hreceipt
  constructor
  · intro a ha
    obtain ha | ha := List.mem_append.mp ha
    · exact h.issued a ha
    · obtain rfl := List.mem_singleton.mp ha
      exact ⟨hrequest, hreceipt⟩
  · intro a ha
    obtain ha | ha := List.mem_append.mp ha
    · exact hrecorded.revisions a ha
    · obtain rfl := List.mem_singleton.mp ha
      simp [loadRevision_recorded]
  · intro a ha
    obtain ha | ha := List.mem_append.mp ha
    · exact hrecorded.receipts a ha
    · obtain rfl := List.mem_singleton.mp ha
      simp [loadReceipt_recorded]

/-- An attempt keeps the revisions and receipts of a ledger and adds those of the commit if
it is accepted. -/
theorem Represents.attempt (h : Represents core requests entries store)
    (hrevisions : RevisionIdsDetermine requests) (hreceipts : ReceiptIdsDetermine core requests)
    (hrequest : request ∈ requests) :
    Represents core requests (entries ++ ledger [attempt core store request])
      (attempt core store request).after := by
  have hcases := commit_cases core store request
  simp only [Governance.attempt]
  generalize runOn (commit core request) store = run at hcases ⊢
  cases hcases with
  | conflict => simpa using h
  | noReceipt => simpa using h
  | noHead _ hreceipt _ => simpa using h.recorded hrevisions hreceipts hrequest hreceipt
  | accepted _ hreceipt _ => simpa using h.accepted hrevisions hreceipts hrequest hreceipt

end step

/-! ### Any sequence of commits -/

/-- After any sequence of commits each state has the head of its last accepted commit. -/
theorem history_heads (core : GovernedCore Content Detail Evidence Time Cause)
    (requests : List (CommitRequest Content Detail Time)) (key : StateKey) :
    (history core requests).2.loadHead key = headOf key (ledger (history core requests).1) := by
  induction requests using List.reverseRecOn with
  | nil => rfl
  | append_singleton requests request ih =>
    rw [history_append, ledger_append]
    exact loadHead_attempt ih

/-- After any sequence of commits the store has the revisions and receipts of the ledger. -/
theorem history_represents {requests : List (CommitRequest Content Detail Time)}
    (hrevisions : RevisionIdsDetermine requests) (hreceipts : ReceiptIdsDetermine core requests)
    {done : List (CommitRequest Content Detail Time)} (hdone : ∀ q ∈ done, q ∈ requests) :
    Represents core requests (ledger (history core done).1) (history core done).2 := by
  induction done using List.reverseRecOn with
  | nil => exact ⟨by simp [history, ledger], by simp [history, ledger], by simp [history, ledger]⟩
  | append_singleton done request ih =>
    have hbefore := ih fun q hq => hdone q (List.mem_append_left _ hq)
    have hstep := hbefore.attempt hrevisions hreceipts (hdone request (by simp))
    rw [history_append, ledger_append]
    exact hstep

/-- After any sequence of commits on a new store, each state has the head of its last
accepted commit; the head's identities load, in its product, the revision of this commit
and the receipt that was issued for it; and every accepted revision and receipt can still
be loaded. -/
theorem history_consistent (core : GovernedCore Content Detail Evidence Time Cause)
    (requests : List (CommitRequest Content Detail Time))
    (hrevisions : RevisionIdsDetermine requests)
    (hreceipts : ReceiptIdsDetermine core requests) :
    (∀ key, (history core requests).2.loadHead key =
      headOf key (ledger (history core requests).1)) ∧
    (∀ key head, (history core requests).2.loadHead key = some head →
      ∃ a ∈ ledger (history core requests).1, core.receipt a.request = .ok a.receipt ∧
        (history core requests).2.loadRevision head.revisionId key.productId =
          some a.request.revision ∧
        a.request.revision.stateKind = key.stateKind ∧
        a.request.revision.stateId = key.stateId ∧
        a.request.revision.sequence = head.sequence ∧
        (history core requests).2.loadReceipt head.commitReceiptId key.productId =
          some a.receipt) ∧
    ∀ a ∈ ledger (history core requests).1,
      (history core requests).2.loadRevision a.request.revision.revisionId
        a.request.revision.productId = some a.request.revision ∧
      (history core requests).2.loadReceipt a.receipt.receiptId
        a.request.revision.productId = some a.receipt := by
  have h := history_represents hrevisions hreceipts fun q (hq : q ∈ requests) => hq
  refine ⟨history_heads core requests, fun key head hhead => ?_,
    fun a ha => ⟨h.revisions a ha, h.receipts a ha⟩⟩
  rw [history_heads] at hhead
  obtain ⟨a, hlast, rfl⟩ := Option.map_eq_some_iff.mp hhead
  obtain ⟨hmember, hkey⟩ := List.mem_filter.mp (List.mem_of_getLast? hlast)
  obtain rfl : a.request.revision.key = key := by simpa using hkey
  exact ⟨a, hmember, (h.issued a hmember).2, h.revisions a hmember, rfl, rfl, rfl,
    h.receipts a hmember⟩

/-- Commits of two states of one product; the last one is made against an old head. -/
def sampleCommits : List (CommitRequest Unit Unit Unit) :=
  [sampleRequest "first" "first-1" 1 none, sampleRequest "second" "second-1" 1 none,
    sampleRequest "first" "first-2" 2 (some "first-1"),
    sampleRequest "first" "first-3" 2 (some "first-1")]

/-- Three of the sample commits are accepted, and the first state has the head of the
second one. -/
theorem sampleCommits_consistent :
    (ledger (history sampleCore sampleCommits).1).map (fun a => a.receipt.receiptId) =
      [lit "first-1", lit "second-1", lit "first-2"] ∧
    (history sampleCore sampleCommits).2.loadHead
        ⟨lit "activation", lit "product", lit "first"⟩ =
      headOf ⟨lit "activation", lit "product", lit "first"⟩
        (ledger (history sampleCore sampleCommits).1) := by
  have hrevisions : RevisionIdsDetermine sampleCommits := by
    unfold RevisionIdsDetermine
    decide
  have hreceipts : ReceiptIdsDetermine sampleCore sampleCommits := by
    intro q _ q' _ c c' hc hc' hids
    obtain rfl := Except.ok.inj hc
    obtain rfl := Except.ok.inj hc'
    simpa using hids
  exact ⟨by decide, (history_consistent sampleCore sampleCommits hrevisions hreceipts).1 _⟩

end MarketIntelligence.Governance
