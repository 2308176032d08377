import MarketIntelligence.Governance.Ledger
import MarketIntelligence.Histories.Linked

/-!
# Concurrent clients of the store

Any number of clients load heads and later commit against a head that they have loaded.
`commit` never gives up control, so an interleaving is a sequence of whole loads and
whole commits. Against one head at most one commit is accepted, and the accepted commits
of a state follow one another in a chain.
-/

namespace MarketIntelligence.Governance

open Python (Str lit)
open Histories

variable {Client Content Detail Evidence Time Cause : Type}

/-! ### Chains of accepted commits -/

/-- The revision identity of an entry. -/
def Accepted.revisionId (a : Accepted Content Detail Evidence Time) : Str :=
  a.request.revision.revisionId

/-- The revision identity that an entry was committed against. -/
def Accepted.against (a : Accepted Content Detail Evidence Time) : Option Str :=
  a.request.expectedHeadRevisionId

/-- The entries of a state follow one another. -/
def Chained (key : StateKey) (as : List (Attempt Content Detail Evidence Time Cause)) : Prop :=
  Linked Accepted.revisionId Accepted.against (entriesOf key (ledger as))

/-- No revision identity is submitted for a state that has accepted it before. -/
def NeverResubmitted (as : List (Attempt Content Detail Evidence Time Cause)) : Prop :=
  ∀ past a rest, as = past ++ a :: rest →
    ∀ b ∈ entriesOf a.request.revision.key (ledger past),
      b.revisionId ≠ a.request.revision.revisionId

/-- Nothing was submitted yet. -/
theorem neverResubmitted_nil :
    NeverResubmitted ([] : List (Attempt Content Detail Evidence Time Cause)) := by
  intro past a rest h
  simp at h

/-- Another attempt with an identity that its state has not accepted. -/
theorem NeverResubmitted.snoc {as : List (Attempt Content Detail Evidence Time Cause)}
    {a : Attempt Content Detail Evidence Time Cause} (h : NeverResubmitted as)
    (ha : ∀ b ∈ entriesOf a.request.revision.key (ledger as),
      b.revisionId ≠ a.request.revision.revisionId) : NeverResubmitted (as ++ [a]) := by
  intro past x rest heq
  obtain rfl | ⟨init, last, rfl⟩ := rest.eq_nil_or_concat'
  · obtain ⟨rfl, hlast⟩ := List.append_inj' heq rfl
    obtain rfl : a = x := by simpa using hlast
    exact ha
  · have hinit : as ++ [a] = (past ++ x :: init) ++ [last] := by simpa using heq
    exact h past x init (List.append_inj' hinit rfl).1

variable {core : GovernedCore Content Detail Evidence Time Cause}

/-- The entries of a state after one more attempt: those before it, and the commit if it
was accepted against their last one. -/
theorem entriesOf_attempt (core : GovernedCore Content Detail Evidence Time Cause) (key : StateKey)
    (requests : List (CommitRequest Content Detail Time))
    (request : CommitRequest Content Detail Time) :
    let before := entriesOf key (ledger (history core requests).1)
    let after := entriesOf key (ledger (history core (requests ++ [request])).1)
    after = before ∨ ∃ a : Accepted Content Detail Evidence Time, a.request = request ∧
      request.revision.key = key ∧ a.against = lastId Accepted.revisionId before ∧
      after = before ++ [a] := by
  have hheads := history_heads core requests key
  have hcases := commit_cases core (history core requests).2 request
  rw [history_append]
  simp only [attempt, ledger_append]
  generalize runOn (commit core request) (history core requests).2 = run at hcases ⊢
  cases hcases with
  | conflict => exact .inl (by simp)
  | noReceipt => exact .inl (by simp)
  | noHead => exact .inl (by simp)
  | @accepted receipt hexpected _ _ =>
    by_cases hkey : request.revision.key = key
    · refine .inr ⟨⟨request, receipt⟩, rfl, hkey, ?_, by simp [entriesOf, hkey]⟩
      have hhead : ((history core requests).2.loadHead key).map Head.revisionId =
          request.expectedHeadRevisionId := by
        rw [← hkey]
        exact hexpected
      rw [hheads] at hhead
      rw [Accepted.against, ← hhead]
      simp only [headOf, lastId, Option.map_map]
      rfl
    · exact .inl (by simp [entriesOf, hkey])

/-- The accepted commits of a state form a chain. -/
theorem history_chained (core : GovernedCore Content Detail Evidence Time Cause)
    (requests : List (CommitRequest Content Detail Time)) (key : StateKey) :
    Chained key (history core requests).1 := by
  induction requests using List.reverseRecOn with
  | nil => exact linked_nil
  | append_singleton requests request ih =>
    unfold Chained at ih ⊢
    obtain hsame | ⟨a, -, -, hagainst, hsnoc⟩ := entriesOf_attempt core key requests
      request
    · rw [hsame]
      exact ih
    · rw [hsnoc]
      exact ih.snoc hagainst

/-- Without resubmissions the entries of a state have different revision identities. -/
theorem history_revisionIds {requests : List (CommitRequest Content Detail Time)}
    (hfresh : NeverResubmitted (history core requests).1) (key : StateKey) :
    ((entriesOf key (ledger (history core requests).1)).map Accepted.revisionId).Nodup := by
  induction requests using List.reverseRecOn with
  | nil => exact List.nodup_nil
  | append_singleton requests request ih =>
    have hbefore : NeverResubmitted (history core requests).1 := by
      intro past a rest heq
      rw [history_append] at hfresh
      exact hfresh past a (rest ++ [attempt core (history core requests).2 request])
        (by rw [heq, List.append_assoc, List.cons_append])
    obtain hsame | ⟨a, rfl, rfl, -, hsnoc⟩ := entriesOf_attempt core key requests
      request
    · rw [hsame]
      exact ih hbefore
    · rw [hsnoc, List.map_append, List.map_singleton]
      refine List.nodup_append.mpr ⟨ih hbefore, List.nodup_singleton _, ?_⟩
      rintro _ hmem _ hlast rfl
      obtain ⟨b, hb, hid⟩ := List.mem_map.mp hmem
      obtain rfl := List.mem_singleton.mp hlast
      rw [history_append] at hfresh
      exact hfresh _ (attempt core (history core requests).2 a.request) [] rfl b hb hid

/-! ### Interleavings -/

/-- A step of a client. -/
inductive ClientStep (Client Content Detail Evidence Time Cause : Type)
  | loaded (client : Client) (key : StateKey) (head : Option (Head Time))
  | committed (client : Client) (attempt : Attempt Content Detail Evidence Time Cause)

/-- The commits among the steps of clients. -/
def attempts (steps : List (ClientStep Client Content Detail Evidence Time Cause)) :
    List (Attempt Content Detail Evidence Time Cause) :=
  steps.filterMap fun
    | .loaded _ _ _ => none
    | .committed _ attempt => some attempt

/-- A client has loaded the head that it commits against. -/
def Observed (steps : List (ClientStep Client Content Detail Evidence Time Cause))
    (client : Client) (request : CommitRequest Content Detail Time) : Prop :=
  ∃ head, .loaded client request.revision.key head ∈ steps ∧
    request.expectedHeadRevisionId = head.map Head.revisionId

/-- The interleavings of loads and commits on a new store. -/
inductive Interleaving (core : GovernedCore Content Detail Evidence Time Cause) :
    List (ClientStep Client Content Detail Evidence Time Cause) →
    Store Content Evidence Time → Prop
  | start : Interleaving core [] .empty
  | load {steps : List (ClientStep Client Content Detail Evidence Time Cause)}
      {store : Store Content Evidence Time} (client : Client) (key : StateKey) :
      Interleaving core steps store →
      Interleaving core (steps ++ [.loaded client key (store.loadHead key)]) store
  | commit {steps : List (ClientStep Client Content Detail Evidence Time Cause)}
      {store : Store Content Evidence Time} (client : Client)
      (request : CommitRequest Content Detail Time) : Interleaving core steps store →
      Observed steps client request →
      Interleaving core (steps ++ [.committed client (attempt core store request)])
        (attempt core store request).after

/-- The commits of an interleaving are a history. -/
theorem Interleaving.history_eq {store : Store Content Evidence Time}
    {steps : List (ClientStep Client Content Detail Evidence Time Cause)}
    (h : Interleaving core steps store) :
    history core ((attempts steps).map Attempt.request) = (attempts steps, store) := by
  induction h with
  | start => rfl
  | load client key _ ih => simpa [attempts] using ih
  | @commit steps store client request _ _ ih =>
    have hlast : attempts (steps ++ [.committed client (attempt core store request)]) =
        attempts steps ++ [attempt core store request] := by simp [attempts]
    rw [hlast, List.map_append, List.map_singleton]
    have hrequest : (attempt core store request).request = request := rfl
    rw [hrequest, history_append, ih]

/-- The commits of a state that were accepted against an observed head. -/
def acceptedAgainst (key : StateKey) (observed : Option (Head Time))
    (as : List (Attempt Content Detail Evidence Time Cause)) :
    List (Accepted Content Detail Evidence Time) :=
  (entriesOf key (ledger as)).filter fun a => a.against = observed.map Head.revisionId

/-- No update is lost: the accepted commits of a state form a chain, at most one of them
was made against the same observed head, and every other commit raises and leaves the
store unchanged. -/
structure NoUpdateLost (as : List (Attempt Content Detail Evidence Time Cause)) : Prop where
  chained : ∀ key, Chained key as
  once : ∀ key observed, (acceptedAgainst key observed as).length ≤ 1
  unchanged : ∀ a ∈ as, a.accepted? = none →
    (∃ e, a.outcome = .error e) ∧ a.after = a.before

/-- Of the commits against one observed head at most one is accepted. -/
theorem acceptedAgainst_length {requests : List (CommitRequest Content Detail Time)}
    (hfresh : NeverResubmitted (history core requests).1) (key : StateKey)
    (observed : Option (Head Time)) :
    (acceptedAgainst key observed (history core requests).1).length ≤ 1 := by
  have hnodup := (history_chained core requests key).nodup_expected
    (history_revisionIds hfresh key)
  have hcount := List.nodup_iff_count_le_one.mp hnodup (observed.map Head.revisionId)
  rw [List.count_eq_countP, List.countP_map, List.countP_eq_length_filter] at hcount
  simpa [acceptedAgainst, Function.comp_def, beq_eq_decide] using hcount

/-- An attempt that was not accepted has raised. -/
theorem Attempt.raised {a : Attempt Content Detail Evidence Time Cause}
    (h : a.accepted? = none) : ∃ e, a.outcome = .error e := by
  unfold Attempt.accepted? at h
  split at h
  · cases h
  · next e he => exact ⟨e, he⟩

/-- Every attempt of a history is a commit on the store before it. -/
theorem history_attempt {requests : List (CommitRequest Content Detail Time)}
    {a : Attempt Content Detail Evidence Time Cause} (ha : a ∈ (history core requests).1) :
    a = attempt core a.before a.request := by
  induction requests using List.reverseRecOn with
  | nil => cases ha
  | append_singleton requests request ih =>
    rw [history_append] at ha
    obtain ha | ha := List.mem_append.mp ha
    · exact ih ha
    · obtain rfl := List.mem_singleton.mp ha
      rfl

/-- An attempt that raises leaves the store unchanged exactly when it is not its head
record that is rejected late. -/
theorem attempt_unchanged_iff {store : Store Content Evidence Time}
    {request : CommitRequest Content Detail Time} :
    ((attempt core store request).accepted? = none → (attempt core store request).after = store) ↔
      ¬RejectedLate core store request := by
  rw [← leaves_iff]
  constructor
  · rintro h ⟨⟨e, he⟩, hchanged⟩
    exact hchanged (h (by simp [attempt, Attempt.accepted?, he]))
  · intro h hnone
    by_contra hchanged
    exact h ⟨Attempt.raised hnone, hchanged⟩

/-- In an interleaving without resubmissions no update is lost exactly when no commit has
its head record rejected after its revision or its receipt was recorded. -/
theorem noUpdateLost_iff {store : Store Content Evidence Time}
    {steps : List (ClientStep Client Content Detail Evidence Time Cause)}
    (h : Interleaving core steps store) (hfresh : NeverResubmitted (attempts steps)) :
    NoUpdateLost (attempts steps) ↔
      ∀ a ∈ attempts steps, ¬RejectedLate core a.before a.request := by
  have hhistory : (history core ((attempts steps).map Attempt.request)).1 = attempts steps := by
    rw [h.history_eq]
  rw [← hhistory] at hfresh ⊢
  constructor
  · intro hlost a ha
    have hattempt := history_attempt ha
    refine attempt_unchanged_iff.mp fun hnone => ?_
    rw [← hattempt] at hnone ⊢
    exact (hlost.unchanged a ha hnone).2
  · intro hnever
    refine ⟨history_chained core _, acceptedAgainst_length hfresh, fun a ha hnone => ?_⟩
    refine ⟨Attempt.raised hnone, ?_⟩
    have hattempt := history_attempt ha
    have hunchanged := attempt_unchanged_iff.mpr (hnever a ha)
    rw [← hattempt] at hunchanged
    exact hunchanged hnone

/-- The state of the sample commits. -/
def sampleKey : StateKey := ⟨lit "activation", lit "product", lit "state"⟩

/-- A client loads no head and commits the sequence zero. -/
def zeroSteps : List (ClientStep Unit Unit Unit Unit Unit Unit) :=
  [.loaded () sampleKey none, .committed () (attempt sampleCore .empty zeroRequest)]

/-- Its commit raises and is not without trace. -/
theorem zeroSteps_changed :
    ¬∀ (steps : List (ClientStep Unit Unit Unit Unit Unit Unit)) store,
      Interleaving sampleCore steps store → NeverResubmitted (attempts steps) →
        NoUpdateLost (attempts steps) := by
  intro hall
  have hstart : Interleaving sampleCore ([] : List (ClientStep Unit Unit Unit Unit Unit Unit))
      .empty := .start
  have hload := hstart.load () sampleKey
  have hcommit := Interleaving.commit () zeroRequest hload ⟨none, List.mem_singleton.mpr rfl, rfl⟩
  have hfresh : NeverResubmitted (attempts zeroSteps) :=
    neverResubmitted_nil.snoc (a := attempt sampleCore .empty zeroRequest) (by simp [ledger,
      entriesOf])
  have hlost := hall zeroSteps _ hcommit hfresh
  have hsame := (hlost.unchanged _ (List.mem_singleton.mpr rfl) rfl).2
  have hrecorded := congrArg (fun s => s.loadRevision (lit "revision") (lit "product")) hsame
  cases hrecorded

/-- Two clients load no head, and both commit. -/
def racingSteps : List (ClientStep (Fin 2) Unit Unit Unit Unit Unit) :=
  let first := attempt sampleCore .empty (sampleRequest "state" "left" 1 none)
  let second := attempt sampleCore first.after (sampleRequest "state" "right" 1 none)
  [.loaded 0 sampleKey none, .loaded 1 sampleKey none, .committed 0 first, .committed 1 second]

/-- One of them is accepted, and no update is lost. -/
theorem racingSteps_noUpdateLost :
    (attempts racingSteps).map (fun a => a.accepted?.isSome) = [true, false] ∧
      NoUpdateLost (attempts racingSteps) := by
  have hstart : Interleaving sampleCore ([] : List (ClientStep (Fin 2) Unit Unit Unit Unit Unit))
      .empty := .start
  have hloads := (hstart.load (0 : Fin 2) sampleKey).load (1 : Fin 2) sampleKey
  have hfirst := hloads.commit (0 : Fin 2) (sampleRequest "state" "left" 1 none)
    ⟨none, List.mem_cons_self, rfl⟩
  have hsecond := hfirst.commit (1 : Fin 2) (sampleRequest "state" "right" 1 none)
    ⟨none, List.mem_cons_of_mem _ List.mem_cons_self, rfl⟩
  have hfresh : NeverResubmitted (attempts racingSteps) :=
    (neverResubmitted_nil.snoc (by simp [ledger, entriesOf])).snoc (by decide)
  refine ⟨by decide, (noUpdateLost_iff hsecond hfresh).mpr fun a ha => ?_⟩
  rintro ⟨-, receipt, cause, -, hrejected, -⟩
  have hsequence : a.request.revision.sequence = 1 := by
    obtain rfl | rfl : a = _ ∨ a = _ := by simpa [racingSteps, attempts] using ha
    · rfl
    · rfl
  simp [sampleCore, headRecord, hsequence] at hrejected

end MarketIntelligence.Governance
