import MarketIntelligence.Journey.Kept
import MarketIntelligence.Journey.Kills

/-!
# Lost receipts

Overlapping calls from an absent state file on. `prepare` checks that the file is absent and then
creates it, in two steps, and fills it in more: no receipt is lost exactly if no other call gets
in between the first two.
-/

namespace MarketIntelligence.Journey

open Python Interaction

variable {F : Type} {ι : Type} [PyFloat F] [DecidableEq ι]
variable {script : Script F} {path : Str} {calls : ι → Call F} {fs fs' t : FileSystem}
variable {s before rest : List (ι × SystemEvent F)}
variable {outcome : ι → Outcome (Raised JourneyError) (Object F)}
variable {content : Str} {first : ℕ} {u : FileSystem} {i : ι} {x : SystemEvent F}

/-! ### From an absent file on -/

omit [PyFloat F] [DecidableEq ι] in
/-- Behind a system call after which there is a state file there is one. -/
theorem exists_state_of_mem (ht : Follows FileSystem.Becomes fs (before.map Prod.snd) t)
    (hmem : (i, x) ∈ before)
    (hx : ∀ v w : FileSystem, v.Becomes x w → w.state ≠ none) : t.state ≠ none := by
  obtain ⟨start, between, rfl⟩ := List.append_of_mem hmem
  rw [List.map_append] at ht
  obtain ⟨v, -, hrest⟩ := follows_append.mp ht
  cases hrest with
  | cons hfirst hlater => exact FileSystem.exists_state_of_follows hlater (hx _ _ hfirst)

omit [PyFloat F] [DecidableEq ι] in
/-- Where the state file was opened there is one. -/
theorem exists_state_of_opened {file : ℕ}
    (ht : Follows FileSystem.Becomes fs (before.map Prod.snd) t)
    (hmem : (i, ⟨.openState, some (.ok file)⟩) ∈ before) : t.state ≠ none := by
  refine exists_state_of_mem ht hmem fun v w hx => ?_
  cases hx with
  | openState hfile => simp [hfile]

omit [PyFloat F] [DecidableEq ι] in
/-- The state file is created only where it is absent. -/
def CreatedWhereAbsent (fs : FileSystem) (s : List (ι × SystemEvent F)) : Prop :=
  ∀ before i file after t, s = before ++ (i, ⟨.createState, some file⟩) :: after →
    Follows FileSystem.Becomes fs (before.map Prod.snd) t → t.state = none

/-- No receipt is lost: the state file is created only where it is absent, one `prepare`
returns at most, and its receipt or a completion of it stays in the file. -/
structure NothingLost (script : Script F) (calls : ι → Call F) (fs : FileSystem)
    (s : List (ι × SystemEvent F)) (outcome : ι → Outcome (Raised JourneyError) (Object F))
    (fs' : FileSystem) : Prop where
  absent : CreatedWhereAbsent fs s
  once : ∀ i j scenario scenario' sourceTaskId sourceTaskId' state state',
    calls i = .prepare scenario sourceTaskId → calls j = .prepare scenario' sourceTaskId' →
    outcome i = .returned state → outcome j = .returned state' → i = j
  onward : ∀ i scenario sourceTaskId state, calls i = .prepare scenario sourceTaskId →
    outcome i = .returned state → ∃ content kept, receiptText script state = .ok content ∧
      fs'.text = some kept ∧ Onward script content kept

omit [PyFloat F] [DecidableEq ι] in
/-- The state file is neither created nor replaced between a check of a call that finds it
absent and its own creation of it. -/
def Uninterrupted (s : List (ι × SystemEvent F)) : Prop :=
  ∀ before i file after, s = before ++ (i, ⟨.createState, some file⟩) :: after →
    ∃ start between, before = start ++ (i, ⟨.stateExists, some false⟩) :: between ∧
      ∀ x ∈ between, (∀ file, x.2 ≠ ⟨.createState, some file⟩) ∧ x.2 ≠ ⟨.replaceState, some ()⟩

omit [PyFloat F] [DecidableEq ι] in
/-- Without such an interruption the file is still absent. -/
theorem Uninterrupted.absent (h : Uninterrupted s) : CreatedWhereAbsent fs s := by
  intro before i file after t hs ht
  obtain ⟨start, between, rfl, hbetween⟩ := h before i file after hs
  rw [List.map_append] at ht
  obtain ⟨v, -, hrest⟩ := follows_append.mp ht
  cases hrest with
  | @cons _ w _ _ _ hfound hlater =>
    have habsent : v.state = none := by simpa using hfound.isSome_state
    rw [← hfound.quiet rfl] at habsent
    refine hlater.preserves (P := fun fs => fs.state = none) (fun x hx v w hstep hv => ?_) habsent
    obtain ⟨y, hy, rfl⟩ := List.mem_map.mp hx
    exact (hstep.state_eq (hbetween y hy).1 (hbetween y hy).2).trans hv

omit [PyFloat F] [DecidableEq ι] in
/-- A file that is created only where it is absent is created once. -/
theorem CreatedWhereAbsent.once {file other : ℕ} {j : ι} (h : CreatedWhereAbsent fs s)
    (hfiles : Follows FileSystem.Becomes fs (s.map Prod.snd) fs')
    (hs : s = before ++ (i, ⟨.createState, some file⟩) :: rest)
    (hmem : (j, ⟨.createState, some other⟩) ∈ s) : j = i ∧ other = file := by
  have hfound (past later : List (ι × SystemEvent F)) (k l : ι) (g g' : ℕ)
      (hsplit : s = past ++ (k, ⟨.createState, some g⟩) :: later)
      (hearlier : (l, ⟨.createState, some g'⟩) ∈ past) : False := by
    have hparts := hfiles
    rw [hsplit, List.map_append] at hparts
    obtain ⟨v, hv, -⟩ := follows_append.mp hparts
    refine exists_state_of_mem hv hearlier (fun u w hx => ?_) (h past k g later v hsplit hv)
    cases hx
    simp [FileSystem.createState]
  rw [hs] at hmem
  obtain hmem | hmem := List.mem_append.mp hmem
  · exact (hfound before rest i j file other hs hmem).elim
  · obtain hsame | hmem := List.mem_cons.mp hmem
    · simpa using hsame
    · obtain ⟨between, after, rfl⟩ := List.append_of_mem hmem
      exact (hfound (before ++ (i, ⟨.createState, some file⟩) :: between) after j i other file
        (by simp [hs]) (by simp)).elim

/-- As long as the state file is absent nothing was read and no temporary file was opened. -/
theorem Overlapping.unopened (h : Overlapping script path calls fs s outcome fs')
    (hs : s = before ++ rest) (ht : Follows FileSystem.Becomes fs (before.map Prod.snd) t)
    (habsent : t.state = none) :
    (∀ i file, (i, ⟨.openState, some (.ok file)⟩) ∉ before) ∧
    (∀ i file text, (i, ⟨.readFile file, some (.ok text)⟩) ∉ before) ∧
    (∀ i file, (i, ⟨.createTemporary, some file⟩) ∉ before) ∧
    ∀ i, (i, ⟨.replaceState, some ()⟩) ∉ before := by
  have hopened (i : ι) (file : ℕ) : (i, ⟨.openState, some (.ok file)⟩) ∉ before := fun hmem =>
    exists_state_of_opened ht hmem habsent
  refine ⟨hopened, fun i file text hmem => ?_, fun i file hmem => ?_, fun i hmem => ?_⟩
  · obtain ⟨past, hallowed, hpast⟩ := h.allowed_of_mem hs hmem
    exact hopened i file (hpast _ (Call.Allows.readFile hallowed))
  · obtain ⟨past, hallowed, hpast⟩ := h.allowed_of_mem hs hmem
    obtain ⟨-, opened, hopen⟩ := Call.Allows.createTemporary hallowed
    exact hopened i opened (hpast _ hopen)
  · obtain ⟨past, hallowed, hpast⟩ := h.allowed_of_mem hs hmem
    obtain ⟨_, _, _, -, opened, _, _, hopen, -⟩ := Call.Allows.replaceState hallowed
    exact hopened i opened (hpast _ hopen)

omit [DecidableEq ι] in
/-- The call that has created the first file goes on writing the receipt to it. -/
theorem Kept.write {c : Chr} (h : Kept script content (· <+: content) first before t)
    (hmore : t.files first ++ [c] <+: content) :
    Kept script content (· <+: content) first
      (before ++ [(i, ⟨.put first (t.files first).length c, some ()⟩)])
      (t.put first (t.files first).length c) := by
  refine h.extend (h.proper.becomes (F := F) (.put first _ c)) (fun other hother => ?_)
    (fun _ => rfl) (by simp) (by simp) (by simp) (by simp)
  refine ⟨hother.lt, hother.ne, ?_⟩
  by_cases hsame : other = first
  · subst hsame
    rw [t.put_files_length]
    exact .inl ⟨rfl, hmore⟩
  · rw [FileSystem.put_files_of_ne hsame]
    exact .inr ⟨hsame, (hother.holds.resolve_left fun hfirst => hsame hfirst.1).2⟩

omit [DecidableEq ι] in
/-- A file that was just created is the first one. -/
theorem kept_of_createState (hproper : t.Proper)
    (hx : t.Becomes (F := F) ⟨.createState, some first⟩ u)
    (hopened : ∀ i file, (i, ⟨.openState, some (.ok file)⟩) ∉ before)
    (hread : ∀ i file text, (i, ⟨.readFile file, some (.ok text)⟩) ∉ before)
    (htemporary : ∀ i file, (i, ⟨.createTemporary, some file⟩) ∉ before)
    (hreplaced : ∀ i, (i, ⟨.replaceState, some ()⟩) ∉ before) :
    Kept script content (· <+: content) first (before ++ [(i, ⟨.createState, some first⟩)]) u ∧
      u.files first = [] := by
  have hu := hproper.becomes hx
  cases hx
  have hempty : t.createState.files (t.target t.state) = [] := t.empty_files _
  have hsettled : Settled script content (· <+: content) (t.target t.state) t.createState
      (t.target t.state) :=
    ⟨hu.state _ rfl, hu.apart _ rfl, .inl ⟨rfl, hempty ▸ List.nil_prefix⟩⟩
  refine ⟨⟨hu, hsettled, ⟨_, rfl, hsettled⟩, fun j file hj => ?_, fun j file text hj => ?_,
    fun j file hj => ?_, fun _ => rfl, fun j hj => ?_⟩, hempty⟩
  · exact absurd ((mem_append_event hj).resolve_right (by simp)) (hopened j file)
  · exact absurd ((mem_append_event hj).resolve_right (by simp)) (hread j file text)
  · exact absurd ((mem_append_event hj).resolve_right (by simp)) (htemporary j file)
  · exact absurd ((mem_append_event hj).resolve_right (by simp)) (hreplaced j)

/-- What holds behind the creation of the state file by a call: the receipt is kept, and the
file that was created holds what the call has written. -/
structure Begun (script : Script F) (content : Str) (i : ι) (base : List (SystemEvent F))
    (first : ℕ) (fs : FileSystem) (past : List (ι × SystemEvent F)) (t : FileSystem) : Prop where
  follows : Follows FileSystem.Becomes fs (past.map Prod.snd) t
  kept : Kept script content (· <+: content) first past t
  written : ∃ own, eventsOf i past = base ++ ⟨.createState, some first⟩ :: own ∧
    t.files first = own.filterMap putChar

/-- It holds behind every later system call. -/
theorem Begun.step (h : Overlapping script path calls fs s outcome fs')
    (hexclusive : Exclusive s) (hproper : fs.Proper)
    (hcontinues : Continues script content (· <+: content)) {base : List (SystemEvent F)}
    (hall : eventsOf i s = base ++ ⟨.createState, some first⟩ ::
      (putEvents first 0 content ++ [⟨.close first, some ()⟩]))
    (honly : ∀ j file, (j, ⟨.createState, some file⟩) ∈ s → j = i ∧ file = first) {j : ι}
    (hs : s = before ++ (j, x) :: rest) (hbegun : Begun script content i base first fs before t)
    (hx : t.Becomes x u) : Begun script content i base first fs (before ++ [(j, x)]) u := by
  obtain ⟨ht, hkept, own, hown, htext⟩ := hbegun
  have hfollows : Follows FileSystem.Becomes fs ((before ++ [(j, x)]).map Prod.snd) u := by
    rw [List.map_append]
    exact follows_append.mpr ⟨t, ht, .cons hx (.nil u)⟩
  have hcreated (k : ι) (file : ℕ) (hmem : (k, ⟨.createState, some file⟩) ∈ before) :
      k = i ∧ file = first := honly k file (by simp [hs, hmem])
  have hstep := Kept.step h hexclusive hproper hcontinues hs ht hkept hx
    fun k file hmem => (hcreated k file hmem).2
  by_cases hsame : i = j
  · subst hsame
    have hevents : eventsOf i (before ++ [(i, x)]) =
        base ++ ⟨.createState, some first⟩ :: (own ++ [x]) := by
      rw [eventsOf_append, eventsOf_cons_self, hown]
      simp [eventsOf]
    have hfilled : own ++ x :: eventsOf i rest =
        putEvents first 0 content ++ [⟨.close first, some ()⟩] := by
      rw [hs, eventsOf_append, eventsOf_cons_self, hown, List.append_assoc] at hall
      exact (List.cons.inj (List.append_cancel_left hall)).2
    obtain ⟨rfl, -⟩ | ⟨c, later, hcontent, rfl⟩ := filled_of_split hfilled
    · obtain ⟨hnext, hfirst⟩ := hstep (by simp) (by simp)
      exact ⟨hfollows, hnext, _, hevents, by simp [hfirst, htext, putChar]⟩
    · rw [Nat.zero_add, ← htext] at hx hevents hfollows ⊢
      cases hx
      have hmore : t.files first ++ [c] <+: content := by
        rw [htext, hcontent]
        exact ⟨later, by simp⟩
      refine ⟨hfollows, hkept.write hmore, _, hevents, ?_⟩
      rw [t.put_files_length, List.filterMap_append, ← htext]
      rfl
  · have hnone : eventsOf i [(j, x)] = [] := by simp [eventsOf, Ne.symm hsame]
    have hcreate (file : ℕ) : x ≠ ⟨.createState, some file⟩ := by
      rintro rfl
      exact hsame (honly j file (by simp [hs])).1.symm
    obtain ⟨hnext, hfirst⟩ := hstep hcreate fun file position c _ hmem =>
      hsame (hcreated j file (mem_eventsOf.mp hmem)).1.symm
    exact ⟨hfollows, hnext, own, by rw [eventsOf_append, hnone, List.append_nil, hown],
      hfirst.trans htext⟩

/-- A receipt that is written to an absent file is kept from then on. -/
theorem Overlapping.kept_of_created (h : Overlapping script path calls fs s outcome fs')
    (hexclusive : Exclusive s) (hproper : fs.Proper) (habsent : CreatedWhereAbsent fs s)
    (hcontinues : Continues script content (· <+: content))
    (hs : s = before ++ (i, ⟨.createState, some first⟩) :: rest)
    (hown : eventsOf i rest = putEvents first 0 content ++ [⟨.close first, some ()⟩]) :
    ∃ kept, fs'.text = some kept ∧ Onward script content kept := by
  have hfiles := h.files
  rw [hs, List.map_append] at hfiles
  obtain ⟨t, ht, hrest⟩ := follows_append.mp hfiles
  obtain ⟨hopened, hread, htemporary, hreplaced⟩ :=
    h.unopened hs ht (habsent before i first rest t hs ht)
  have honly (j : ι) (file : ℕ) (hmem : (j, ⟨.createState, some file⟩) ∈ s) :
      j = i ∧ file = first := habsent.once h.files hs hmem
  have hall : eventsOf i s = eventsOf i before ++ ⟨.createState, some first⟩ ::
      (putEvents first 0 content ++ [⟨.close first, some ()⟩]) := by
    rw [hs, eventsOf_append, eventsOf_cons_self, hown]
  cases hrest with
  | @cons _ u _ _ _ hx hlater =>
    have hcreated : Kept script content (· <+: content) first
        (before ++ [(i, ⟨.createState, some first⟩)]) u ∧ u.files first = [] :=
      kept_of_createState (hproper.follows ht) hx hopened hread htemporary hreplaced
    have hbegun : Begun script content i (eventsOf i before) first fs
        (before ++ [(i, ⟨.createState, some first⟩)]) u := by
      refine ⟨?_, hcreated.1, [], ?_, hcreated.2⟩
      · rw [List.map_append]
        exact follows_append.mpr ⟨t, ht, .cons hx (.nil u)⟩
      · rw [eventsOf_append, eventsOf_cons_self]
        rfl
    have hsplit : s = before ++ [(i, ⟨.createState, some first⟩)] ++ rest ++ [] := by simp [hs]
    obtain ⟨-, hkept, own, hevents, htext⟩ := h.allowed.invariant _ hbegun
      (fun past j x later v w hpast _ hx hbegun =>
        hbegun.step h hexclusive hproper hcontinues hall honly hpast hx) hsplit hlater
    have hwhole : own = putEvents first 0 content ++ [⟨.close first, some ()⟩] := by
      rw [eventsOf_append, eventsOf_append, eventsOf_cons_self, hown, List.append_assoc] at hevents
      exact (List.cons.inj (List.append_cancel_left hevents)).2.symm
    obtain ⟨kept, hkeptText, honward⟩ := hkept.text <| by
      rw [htext, hwhole, List.filterMap_append, filterMap_putEvents]
      exact List.append_nil content
    exact ⟨kept, hkeptText, honward⟩

/-- What can be read while the text of a prepared receipt is written is completed like it. -/
theorem continues_of_prepared {scenario : Object F} {sourceTaskId : Str}
    (h : Prepared script scenario sourceTaskId content) :
    Continues script content (· <+: content) := by
  obtain ⟨read, hread, hback⟩ := prepared_loads h
  obtain ⟨_, _, _, written, -, hprinted⟩ := h
  rintro text state completed ⟨later, hlater⟩ hloads hreceipt hcompleted
  have htake : content.take text.length = text := by rw [← hlater, List.take_left]
  by_cases hcut : text.length + 1 < content.length
  · rw [← htake] at hloads
    exact absurd hloads (not_jsonLoads_take hprinted hcut _)
  · have hwhole := jsonLoads_take hprinted (Nat.not_lt.mp hcut)
    rw [htake, hloads] at hwhole
    obtain rfl := Data.dict.inj (Except.ok.inj (hread.symm.trans hwhole.symm))
    exact completed_loads hread hback hcompleted

/-- With no two calls that have the temporary file open at once, no receipt is lost exactly if
the state file is neither created nor replaced between the last check of a `prepare` and its own
creation of it. -/
theorem nothingLost_iff (hproper : fs.Proper)
    (h : Overlapping script path calls fs s outcome fs') (hexclusive : Exclusive s) :
    NothingLost script calls fs s outcome fs' ↔ Uninterrupted s := by
  constructor
  · intro hlost before i file after hs
    have hfiles := h.files
    rw [hs, List.map_append] at hfiles
    obtain ⟨t, ht, -⟩ := follows_append.mp hfiles
    have hnone := hlost.absent before i file after t hs ht
    have hchecked := mem_eventsOf.mp (Call.Allows.createState (h.allowed.of_split hs)).1
    obtain ⟨start, between, hbefore⟩ := List.append_of_mem hchecked
    refine ⟨start, between, hbefore, ?_⟩
    rintro ⟨j, y⟩ hy
    have hmem : (j, y) ∈ before := by simp [hbefore, hy]
    refine ⟨?_, ?_⟩
    · rintro other rfl
      refine exists_state_of_mem ht hmem (fun v w hx => ?_) hnone
      cases hx
      simp [FileSystem.createState]
    · rintro rfl
      refine exists_state_of_mem ht hmem (fun v w hx => ?_) hnone
      cases hx
      simp
  · intro huninterrupted
    have habsent : CreatedWhereAbsent fs s := huninterrupted.absent
    refine ⟨habsent, fun i j _ _ _ _ state state' hi hj hstate hstate' => ?_,
      fun i _ _ state hi hstate => ?_⟩
    · have hrun := h.runs i
      have hrun' := h.runs j
      rw [hi, hstate] at hrun
      rw [hj, hstate'] at hrun'
      obtain ⟨base, first, content, hes, -⟩ := prepare_system_returned hrun
      obtain ⟨base', first', content', hes', -⟩ := prepare_system_returned hrun'
      obtain ⟨before, after, hs, -⟩ := exists_of_eventsOf_cons hes
      have hmem : (j, ⟨.createState, some first'⟩) ∈ s := mem_eventsOf.mp (by simp [hes'])
      exact (habsent.once h.files hs hmem).1.symm
    · have hrun := h.runs i
      rw [hi, hstate] at hrun
      obtain ⟨base, first, content, hes, hprinted, hprepared⟩ := prepare_system_returned hrun
      obtain ⟨before, after, hs, hbefore, hafter⟩ := exists_of_eventsOf_cons hes
      obtain ⟨kept, hkept, honward⟩ := h.kept_of_created hexclusive hproper habsent
        (continues_of_prepared hprepared) hs hafter
      exact ⟨content, kept, hprinted, hkept, honward⟩

/-- Where one call acts alone at first, and the state file is not created later, its creation is
not interrupted. -/
theorem Overlapping.uninterrupted {es : List (SystemEvent F)} {later : List (ι × SystemEvent F)}
    (h : Overlapping script path calls fs (es.map (fun x => (i, x)) ++ later) outcome fs')
    (hlater : ∀ j file, (j, ⟨.createState, some file⟩) ∉ later) :
    Uninterrupted (es.map (fun x => (i, x)) ++ later) := by
  intro before j file after hs
  obtain ⟨habsent, hquiet⟩ := Call.Allows.createState (h.allowed.of_split hs)
  obtain ⟨start, between, hbefore⟩ := List.append_of_mem (mem_eventsOf.mp habsent)
  have hown : ∀ x ∈ before, x.1 = j := by
    obtain ⟨early, -, hlate⟩ | ⟨own, hsplit, hlate⟩ := List.append_eq_append_iff.mp hs
    · exact absurd (by simp [hlate]) (hlater j file)
    · cases own with
      | nil =>
        have hmem : (j, ⟨.createState, some file⟩) ∈ [] ++ later := by
          rw [← hlate]
          exact List.mem_cons_self
        exact absurd hmem (hlater j file)
      | cons x own =>
        obtain ⟨rfl, -⟩ := List.cons.inj hlate
        have hfirst (y : ι × SystemEvent F) (hy : y ∈ es.map fun x => (i, x)) : y.1 = i := by
          obtain ⟨z, -, rfl⟩ := List.mem_map.mp hy
          rfl
        intro y hy
        have hj := hfirst (j, ⟨.createState, some file⟩) (by simp [hsplit])
        exact (hfirst y (by simp [hsplit, hy])).trans hj.symm
  refine ⟨start, between, hbefore, ?_⟩
  rintro ⟨k, y⟩ hy
  have hmem : (k, y) ∈ before := by simp [hbefore, hy]
  obtain rfl : k = j := hown _ hmem
  have hy := hquiet y (mem_eventsOf.mpr hmem)
  constructor
  · rintro other rfl
    cases hy
  · rintro rfl
    cases hy

/-! ### The whole sample -/

/-- The whole sample in this order. -/
def overlappingSchedule (prepared es : List (SystemEvent Unit)) :
    List (Option Bool × SystemEvent Unit) :=
  prepared.map (fun x => (none, x)) ++ lateSchedule es

/-- No files. -/
def noFiles : FileSystem := ⟨fun _ => [], 0, none, none⟩

/-- The paths lead nowhere. -/
theorem noFiles_proper : noFiles.Proper :=
  ⟨by simp [noFiles], by simp [noFiles], by simp [noFiles]⟩

/-- The late part behind the preparation is a schedule of all calls. -/
theorem overlappingSchedule_overlapping {prepared es : List (SystemEvent Unit)}
    {fs fs' : FileSystem} {first resumed : Outcome (Raised JourneyError) (Object Unit)}
    (hprepared : Trace ((overlappingCalls none).systemProgram sampleScript (lit "state")) prepared
      first) (hfs : Follows FileSystem.Becomes noFiles prepared fs)
    (hlate : Overlapping sampleScript (lit "state") overlappingCalls fs (lateSchedule es)
      (overlappingOutcome .running resumed) fs') :
    Overlapping sampleScript (lit "state") overlappingCalls noFiles
      (overlappingSchedule prepared es) (overlappingOutcome first resumed) fs' := by
  obtain ⟨hnone, hresumed, -⟩ := eventsOf_lateSchedule es
  refine ⟨late_runs (hresumed ▸ hlate.runs (some false)) ?_ fun late => ?_, ?_⟩
  · rw [overlappingSchedule, eventsOf_append, eventsOf_map_self, hnone, List.append_nil]
    exact hprepared
  · rw [overlappingSchedule, eventsOf_append, eventsOf_map_of_ne (by simp), List.nil_append]
  · simpa [overlappingSchedule, Function.comp_def] using
      follows_append.mpr ⟨fs, hfs, hlate.files⟩

/-- A receipt is written, completed, and not lost. -/
theorem overlappingSchedule_loses_nothing : ∃ prepared es state result fs',
    Overlapping sampleScript (lit "state") overlappingCalls noFiles
      (overlappingSchedule prepared es) (overlappingOutcome (.returned state) (.returned result))
      fs' ∧
    NothingLost sampleScript overlappingCalls noFiles (overlappingSchedule prepared es)
      (overlappingOutcome (.returned state) (.returned result)) fs' := by
  obtain ⟨state, hstate⟩ := Outcome.exists_result sampleJourney_returns.2.2.1
  have hrun := samplePrepared_trace
  rw [hstate] at hrun
  obtain ⟨prepared, fs, hprepared, hfs, hdisk⟩ :=
    FileSystem.exists_expanded hrun hrun.answered noFiles_proper samplePrepared_files
  have hproper := noFiles_proper.follows hfs
  obtain ⟨es, fs', result, hlate⟩ := late_overlapping hproper hdisk
  have hall := overlappingSchedule_overlapping hprepared hfs hlate
  have hone (i j : Option Bool) (scenario scenario' : Object Unit)
      (hi : overlappingCalls i = .resume scenario) (hj : overlappingCalls j = .resume scenario') :
      i = j := (eq_of_resume hi).trans (eq_of_resume hj).symm
  refine ⟨prepared, es, state, result, fs', hall,
    (nothingLost_iff noFiles_proper hall (hall.exclusive hone)).mpr (hall.uninterrupted ?_)⟩
  obtain ⟨first, hfirst, hcontent⟩ := Option.map_eq_some_iff.mp (congrArg Disk.state hdisk)
  exact (hlate.kept (hlate.exclusive hone) hproper sampleContent_reached.written hfirst hcontent
    (List.append_nil _).symm hlate.files).2.2

end MarketIntelligence.Journey
