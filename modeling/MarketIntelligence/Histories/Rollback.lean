import Mathlib.Data.List.Induction

/-!
# Requests with and without rollback

A machine takes requests one after another and accepts each of them or raises. A machine that
raises may leave something behind; with rollback it leaves nothing. Where a part of the state
decides the outcomes and is kept by what raises, both machines have the same outcomes on every
row of requests, and the refused requests of a row can be left out.
-/

namespace Histories

variable {S Q E R V : Type*}

/-- A machine: how a request ends in a state, and the state afterwards. -/
abbrev Machine (S Q E R : Type*) := S → Q → Except E R × S

/-- A machine that undoes what it did for a request that raises. -/
def withRollback (m : Machine S Q E R) : Machine S Q E R := fun s q =>
  match m s q with
  | (.ok r, t) => (.ok r, t)
  | (.error e, _) => (.error e, s)

/-- Requests one after another: how each ends, and the last state. -/
def runAll (m : Machine S Q E R) : S → List Q → List (Except E R) × S
  | s, [] => ([], s)
  | s, q :: qs => ((m s q).1 :: (runAll m (m s q).2 qs).1, (runAll m (m s q).2 qs).2)

/-- The requests that are accepted. -/
def accepted (m : Machine S Q E R) : S → List Q → List Q
  | _, [] => []
  | s, q :: qs => match (m s q).1 with
    | .ok _ => q :: accepted m (m s q).2 qs
    | .error _ => accepted m (m s q).2 qs

/-- A request raises and leaves something behind. -/
def LeavesTrace (m : Machine S Q E R) (s : S) (q : Q) : Prop :=
  (∃ e, (m s q).1 = .error e) ∧ (m s q).2 ≠ s

/-- A part of the state that decides how requests end, and is kept by those that raise. -/
structure Decides (part : S → V) (m : Machine S Q E R) : Prop where
  outcome : ∀ s t q, part s = part t → (m s q).1 = (m t q).1
  next : ∀ s t q, part s = part t → part (m s q).2 = part (m t q).2
  kept : ∀ s q e, (m s q).1 = .error e → part (m s q).2 = part s

variable {m : Machine S Q E R} {part : S → V}

/-- A request that is accepted is not undone. -/
theorem withRollback_of_ok {s : S} {q : Q} {r : R} (h : (m s q).1 = .ok r) :
    withRollback m s q = m s q := by
  unfold withRollback
  split
  · next hm => exact hm.symm
  · next hm => simp [hm] at h

/-- A request that raises is undone. -/
theorem withRollback_of_error {s : S} {q : Q} {e : E} (h : (m s q).1 = .error e) :
    withRollback m s q = (.error e, s) := by
  unfold withRollback
  split
  · next hm => simp [hm] at h
  · next hm =>
    rw [hm] at h
    rw [Except.error.inj h]

/-- Rollback changes no outcome. -/
@[simp] theorem withRollback_outcome (s : S) (q : Q) :
    (withRollback m s q).1 = (m s q).1 := by
  cases h : (m s q).1 with
  | ok r => rw [withRollback_of_ok h, h]
  | error e => rw [withRollback_of_error h]

/-- With rollback the whole state decides. -/
theorem decides_withRollback : Decides id (withRollback m) where
  outcome s t q h := by rw [show s = t from h]
  next s t q h := by rw [show s = t from h]
  kept s q e h := by
    rw [withRollback_outcome] at h
    rw [withRollback_of_error h]

/-- Rollback changes nothing of a part that decides. -/
theorem Decides.rollback (h : Decides part m) (s : S) (q : Q) :
    part (withRollback m s q).2 = part (m s q).2 := by
  cases hm : (m s q).1 with
  | ok r => rw [withRollback_of_ok hm]
  | error e =>
    rw [withRollback_of_error hm]
    exact (h.kept s q e hm).symm

/-- From states with the same deciding part, both machines end all requests alike. -/
theorem Decides.alike (h : Decides part m) (qs : List Q) :
    ∀ {s t : S}, part s = part t →
      (runAll m s qs).1 = (runAll (withRollback m) t qs).1 ∧
      part (runAll m s qs).2 = part (runAll (withRollback m) t qs).2 := by
  induction qs with
  | nil => exact fun hst => ⟨rfl, hst⟩
  | cons q qs ih =>
    intro s t hst
    have hnext : part (m s q).2 = part (withRollback m t q).2 :=
      (h.next s t q hst).trans (h.rollback t q).symm
    obtain ⟨houtcomes, hparts⟩ := ih hnext
    refine ⟨?_, hparts⟩
    simp only [runAll, withRollback_outcome, h.outcome s t q hst, houtcomes]

/-- The requests that are accepted are accepted without the others, with the same results. -/
theorem Decides.replay (h : Decides part m) (qs : List Q) :
    ∀ {s t : S}, part s = part t →
      (runAll m t (accepted m s qs)).1 =
        (runAll m s qs).1.filter Except.isOk ∧
      part (runAll m t (accepted m s qs)).2 =
        part (runAll m s qs).2 := by
  induction qs with
  | nil => exact fun hst => ⟨rfl, hst.symm⟩
  | cons q qs ih =>
    intro s t hst
    cases hm : (m s q).1 with
    | ok r =>
      obtain ⟨houtcomes, hparts⟩ := ih (h.next s t q hst)
      have hsame : (m t q).1 = .ok r := (h.outcome s t q hst).symm.trans hm
      simp only [accepted, hm, runAll, hsame, List.filter_cons]
      exact ⟨by simp [Except.isOk, Except.toBool, houtcomes], hparts⟩
    | error e =>
      obtain ⟨houtcomes, hparts⟩ := ih ((h.kept s q e hm).trans hst)
      simp only [accepted, hm, runAll, List.filter_cons]
      exact ⟨by simp [Except.isOk, Except.toBool, houtcomes], hparts⟩

/-- One more request. -/
theorem runAll_append (s : S) (qs : List Q) (q : Q) : runAll m s (qs ++ [q]) =
    ((runAll m s qs).1 ++ [(m (runAll m s qs).2 q).1], (m (runAll m s qs).2 q).2) := by
  induction qs generalizing s with
  | nil => rfl
  | cons p qs ih => simp [runAll, ih]

/-- A request that leaves no trace ends in the same state with rollback. -/
theorem withRollback_eq_iff {s : S} {q : Q} :
    (m s q).2 = (withRollback m s q).2 ↔ ¬LeavesTrace m s q := by
  cases hm : (m s q).1 with
  | ok r => simp [withRollback_of_ok hm, LeavesTrace, hm]
  | error e => simp [withRollback_of_error hm, LeavesTrace, hm]

/-- Both machines go through the same states exactly if no request leaves a trace. -/
theorem runAll_withRollback_iff {s : S} {qs : List Q} :
    (∀ past, past <+: qs → (runAll m s past).2 = (runAll (withRollback m) s past).2) ↔
      ∀ past q, past ++ [q] <+: qs → ¬LeavesTrace m (runAll m s past).2 q := by
  constructor
  · intro hsame past q hprefix
    have hbefore := hsame past ((List.prefix_append past [q]).trans hprefix)
    have hafter := hsame (past ++ [q]) hprefix
    rw [runAll_append, runAll_append, ← hbefore] at hafter
    exact withRollback_eq_iff.mp hafter
  · intro hnone past
    induction past using List.reverseRecOn with
    | nil => exact fun _ => rfl
    | append_singleton past q ih =>
      intro hprefix
      have hbefore := ih ((List.prefix_append past [q]).trans hprefix)
      rw [runAll_append, runAll_append, ← hbefore]
      exact withRollback_eq_iff.mpr (hnone past q hprefix)

end Histories
