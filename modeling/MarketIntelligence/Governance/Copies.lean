import MarketIntelligence.Governance.Ledger
import MarketIntelligence.Histories.Rollback

/-!
# The copies of the store

The acceptance scripts record a revision and its receipt before they construct the head record;
the copy of the store in the tests of the pack constructs it first. The test copy is the store of
the scripts with rollback. Over any sequence of commits the two end every commit alike and have
the same heads, and differ only in what commits with a rejected head record left behind.
-/

namespace MarketIntelligence.Governance

open Histories
open Python (Str)

variable {Content Detail Evidence Time Cause : Type}

/-- A store that takes commits. -/
abbrev StoreMachine (Content Detail Evidence Time Cause : Type) : Type :=
  Machine (Store Content Evidence Time) (CommitRequest Content Detail Time) (CommitError Cause)
    (Receipt Evidence)

/-- The store of the acceptance scripts. -/
def scriptStore (core : GovernedCore Content Detail Evidence Time Cause) :
    StoreMachine Content Detail Evidence Time Cause :=
  fun store request => runOn (commit core request) store

/-- The store in the tests of the pack. -/
def testStore (core : GovernedCore Content Detail Evidence Time Cause) :
    StoreMachine Content Detail Evidence Time Cause :=
  fun store request => runOn (commitHeadFirst core request) store

variable {core : GovernedCore Content Detail Evidence Time Cause}
  {store : Store Content Evidence Time}

/-- Constructing the head record first undoes what a commit that raises has recorded. -/
theorem testStore_eq (core : GovernedCore Content Detail Evidence Time Cause) :
    testStore core = withRollback (scriptStore core) := by
  funext store request
  unfold testStore withRollback scriptStore
  by_cases hexpected : Expected store request
  · have hhead : (store.heads request.revision.key).map Head.revisionId =
        request.expectedHeadRevisionId := hexpected
    cases hreceipt : core.receipt request with
    | error cause =>
      rw [runOn_commit_noReceipt hexpected hreceipt]
      simp [commitHeadFirst, hhead, hreceipt]
    | ok receipt =>
      cases hvalid : core.validateHead (headRecord request receipt) with
      | error cause =>
        rw [runOn_commit_noHead hexpected hreceipt hvalid]
        simp [commitHeadFirst, governedStateHead, hhead, hreceipt, hvalid]
      | ok =>
        rw [runOn_commit_accepted hexpected hreceipt hvalid]
        simp [commitHeadFirst, governedStateHead, hhead, hreceipt, hvalid, Store.recorded]
  · have hhead : (store.heads request.revision.key).map Head.revisionId ≠
        request.expectedHeadRevisionId := hexpected
    rw [runOn_commit_conflict hexpected]
    simp [commitHeadFirst, hhead]

/-- How commits end depends on the heads only, and commits that raise keep them. -/
theorem heads_decide (core : GovernedCore Content Detail Evidence Time Cause) :
    Decides Store.heads (scriptStore core) := by
  have hstep (s t : Store Content Evidence Time) (request : CommitRequest Content Detail Time)
      (hheads : s.heads = t.heads) :
      (scriptStore core s request).1 = (scriptStore core t request).1 ∧
        (scriptStore core s request).2.heads = (scriptStore core t request).2.heads := by
    have hsame : Expected s request ↔ Expected t request := by rw [Expected, Expected, hheads]
    unfold scriptStore
    by_cases hexpected : Expected s request
    · cases hreceipt : core.receipt request with
      | error cause =>
        rw [runOn_commit_noReceipt hexpected hreceipt,
          runOn_commit_noReceipt (hsame.mp hexpected) hreceipt]
        exact ⟨rfl, hheads⟩
      | ok receipt =>
        cases hvalid : core.validateHead (headRecord request receipt) with
        | error cause =>
          rw [runOn_commit_noHead hexpected hreceipt hvalid,
            runOn_commit_noHead (hsame.mp hexpected) hreceipt hvalid]
          exact ⟨rfl, hheads⟩
        | ok =>
          rw [runOn_commit_accepted hexpected hreceipt hvalid,
            runOn_commit_accepted (hsame.mp hexpected) hreceipt hvalid]
          refine ⟨rfl, ?_⟩
          simp only [Store.putHead, Store.recorded, Store.putReceipt, Store.putRevision, hheads]
    · rw [runOn_commit_conflict hexpected, runOn_commit_conflict (hsame.not.mp hexpected)]
      exact ⟨rfl, hheads⟩
  refine ⟨fun s t q h => (hstep s t q h).1, fun s t q h => (hstep s t q h).2, ?_⟩
  intro s request e he
  unfold scriptStore at he ⊢
  have hcases := commit_cases core s request
  generalize runOn (commit core request) s = run at hcases he ⊢
  cases hcases with
  | conflict => rfl
  | noReceipt => rfl
  | noHead => rfl
  | accepted => cases he

/-! ### What is left behind -/

/-- What can be loaded at a place of the store, and what commits write there. -/
structure Place (core : GovernedCore Content Detail Evidence Time Cause) (A : Type) where
  load : Store Content Evidence Time → Option A
  written : CommitRequest Content Detail Time → Receipt Evidence → Option A
  load_recorded : ∀ store request receipt,
    load (store.recorded request receipt) = (written request receipt).or (load store)
  load_putHead : ∀ (store : Store Content Evidence Time) key head,
    load (store.putHead key head) = load store

/-- The place of a revision. -/
def revisionPlace (core : GovernedCore Content Detail Evidence Time Cause)
    (revisionId productId : Str) : Place core (Revision Content) where
  load store := store.loadRevision revisionId productId
  written request _ :=
    if productId = request.revision.productId ∧ revisionId = request.revision.revisionId then
      some request.revision
    else none
  load_recorded store request receipt := by
    rw [loadRevision_recorded]
    split <;> rfl
  load_putHead store key head := rfl

/-- The place of a receipt. -/
def receiptPlace (core : GovernedCore Content Detail Evidence Time Cause)
    (receiptId productId : Str) : Place core (Receipt Evidence) where
  load store := store.loadReceipt receiptId productId
  written request receipt :=
    if productId = request.revision.productId ∧ receiptId = receipt.receiptId then some receipt
    else none
  load_recorded store request receipt := by
    rw [loadReceipt_recorded]
    split <;> rfl
  load_putHead store key head := rfl

/-- What is loaded at a place was left there by a commit of some requests whose head record was
rejected late. -/
def LeftBehind {A : Type} (place : Place core A) (store : Store Content Evidence Time)
    (requests : List (CommitRequest Content Detail Time)) : Prop :=
  ∃ past request receipt, past ++ [request] <+: requests ∧
    RejectedLate core (runAll (scriptStore core) store past).2 request ∧
    core.receipt request = .ok receipt ∧
    ∃ a, place.written request receipt = some a ∧
      place.load (runAll (scriptStore core) store requests).2 = some a

/-- One commit on both copies, with the same heads before it: at a place it changes neither copy, or
makes them the same, or its head record is rejected late and it leaves something. -/
theorem load_step {A : Type} (place : Place core A) {s t : Store Content Evidence Time}
    (hheads : s.heads = t.heads) (request : CommitRequest Content Detail Time) :
    (place.load (scriptStore core s request).2 = place.load s ∧
        place.load (testStore core t request).2 = place.load t) ∨
      place.load (scriptStore core s request).2 = place.load (testStore core t request).2 ∨
      RejectedLate core s request ∧ ∃ receipt a, core.receipt request = .ok receipt ∧
        place.written request receipt = some a ∧
        place.load (scriptStore core s request).2 = some a := by
  have hsame : Expected s request ↔ Expected t request := by rw [Expected, Expected, hheads]
  have hundone {e : CommitError Cause} (h : (scriptStore core s request).1 = .error e) :
      (testStore core t request).2 = t := by
    have hother := ((heads_decide core).outcome s t request hheads).symm.trans h
    rw [testStore_eq, withRollback_of_error hother]
  have hcases := commit_cases core s request
  generalize hrun : runOn (commit core request) s = run at hcases
  have hscript : scriptStore core s request = run := hrun
  rw [hscript] at hundone ⊢
  cases hcases with
  | conflict => exact .inl ⟨rfl, by rw [hundone rfl]⟩
  | noReceipt => exact .inl ⟨rfl, by rw [hundone rfl]⟩
  | @noHead receipt cause hexpected hreceipt hrejected =>
    rw [hundone rfl, place.load_recorded]
    cases hwritten : place.written request receipt with
    | none => exact .inl ⟨rfl, rfl⟩
    | some a =>
      by_cases hnew : s.recorded request receipt = s
      · refine .inl ⟨?_, rfl⟩
        rw [← hwritten, ← place.load_recorded, hnew]
      · exact .inr (.inr ⟨⟨hexpected, receipt, cause, hreceipt, hrejected,
          not_and_or.mp (recorded_eq_iff.not.mp hnew)⟩, receipt, a, hreceipt, hwritten, rfl⟩)
  | @accepted receipt hexpected hreceipt hvalid =>
    have haccepted : (scriptStore core t request) = (.ok receipt,
        (t.recorded request receipt).putHead request.revision.key (headRecord request receipt)) :=
      runOn_commit_accepted (hsame.mp hexpected) hreceipt hvalid
    have hok : (scriptStore core t request).1 = .ok receipt := by rw [haccepted]
    rw [testStore_eq, withRollback_of_ok hok, haccepted]
    simp only [place.load_putHead, place.load_recorded]
    cases place.written request receipt with
    | none => exact .inl ⟨rfl, rfl⟩
    | some a => exact .inr (.inl rfl)

/-- At every place both copies have the same, or a commit whose head record was rejected late has
left something in the store of the scripts. -/
theorem load_eq_or_leftBehind {A : Type} (place : Place core A)
    (store : Store Content Evidence Time) (requests : List (CommitRequest Content Detail Time)) :
    place.load (runAll (scriptStore core) store requests).2 =
        place.load (runAll (testStore core) store requests).2 ∨
      LeftBehind place store requests := by
  induction requests using List.reverseRecOn with
  | nil => exact .inl rfl
  | append_singleton past request ih =>
    have hheads := ((heads_decide core).alike past (s := store) rfl).2
    rw [← testStore_eq] at hheads
    unfold LeftBehind at ih ⊢
    rw [runAll_append, runAll_append]
    obtain ⟨hscript, htest⟩ | hsame | ⟨hlate, receipt, a, hreceipt, hwritten, hload⟩ :=
      load_step place hheads request
    · obtain hbefore | ⟨earlier, q, receipt, hprefix, hlate, hreceipt, a, hwritten, hload⟩ := ih
      · exact .inl (hscript.trans (hbefore.trans htest.symm))
      · exact .inr ⟨earlier, q, receipt, hprefix.trans (List.prefix_append _ _), hlate, hreceipt, a,
          hwritten, hscript.trans hload⟩
    · exact .inl hsame
    · exact .inr ⟨past, request, receipt, List.prefix_rfl, hlate, hreceipt, a, hwritten, hload⟩

/-! ### Any sequence of commits on both copies -/

/-- On any sequence of commits, from any store, the copies end every commit alike and have the
same heads. The test copy ends up with the same store without the refused commits. The stores of
the copies are the same throughout exactly if no head record is rejected late, and otherwise they
differ at places only where a commit with such a head record has left its revision or receipt. -/
theorem copies_agree (core : GovernedCore Content Detail Evidence Time Cause)
    (store : Store Content Evidence Time) (requests : List (CommitRequest Content Detail Time)) :
    ((runAll (scriptStore core) store requests).1 = (runAll (testStore core) store requests).1 ∧
      ∀ key, (runAll (scriptStore core) store requests).2.loadHead key =
        (runAll (testStore core) store requests).2.loadHead key) ∧
    runAll (testStore core) store (accepted (testStore core) store requests) =
      ((runAll (testStore core) store requests).1.filter Except.isOk,
        (runAll (testStore core) store requests).2) ∧
    ((∀ past, past <+: requests →
        (runAll (scriptStore core) store past).2 = (runAll (testStore core) store past).2) ↔
      ∀ past request, past ++ [request] <+: requests →
        ¬RejectedLate core (runAll (scriptStore core) store past).2 request) ∧
    (∀ revisionId productId,
      (runAll (scriptStore core) store requests).2.loadRevision revisionId productId =
          (runAll (testStore core) store requests).2.loadRevision revisionId productId ∨
        LeftBehind (revisionPlace core revisionId productId) store requests) ∧
    ∀ receiptId productId,
      (runAll (scriptStore core) store requests).2.loadReceipt receiptId productId =
          (runAll (testStore core) store requests).2.loadReceipt receiptId productId ∨
        LeftBehind (receiptPlace core receiptId productId) store requests := by
  have hdecides := heads_decide core
  obtain ⟨houtcomes, hheads⟩ := hdecides.alike requests (s := store) rfl
  rw [← testStore_eq] at houtcomes hheads
  refine ⟨⟨houtcomes, fun key => congrFun hheads key⟩, ?_, ?_,
    fun revisionId productId =>
      load_eq_or_leftBehind (revisionPlace core revisionId productId) store requests,
    fun receiptId productId =>
      load_eq_or_leftBehind (receiptPlace core receiptId productId) store requests⟩
  · have hreplay := decides_withRollback.replay (m := withRollback (scriptStore core)) requests
      (s := store) rfl
    rw [testStore_eq]
    exact Prod.ext hreplay.1 hreplay.2
  · rw [testStore_eq, runAll_withRollback_iff]
    refine forall_congr' fun past => forall_congr' fun request => imp_congr_right fun _ => ?_
    exact not_congr leaves_iff

end MarketIntelligence.Governance
