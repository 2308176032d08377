import MarketIntelligence.Journey.Order
import MarketIntelligence.Journey.Overlap

/-!
# A receipt under overlapping calls

The files that have been the state file are settled: they hold the receipt, or a completion of
it, and no call writes to them any more but the one that has created the first. What a call reads
is the text of such a file, so that it completes the receipt that was there.
-/

namespace MarketIntelligence.Journey

open Python Interaction

variable {F : Type} {ι : Type} [PyFloat F] [DecidableEq ι]
variable {script : Script F} {path : Str} {calls : ι → Call F} {fs fs' t : FileSystem}
variable {s before rest : List (ι × SystemEvent F)}
variable {outcome : ι → Outcome (Raised JourneyError) (Object F)}

/-! ### The receipt stays -/

/-- A complete receipt that retains an earlier one. -/
def Completion (script : Script F) (content kept : Str) : Prop :=
  Receipt script "complete" (preparedFields ++ completionFields) kept ∧
    Retains script content kept

/-- The receipt itself, or a completion of it. -/
def Onward (script : Script F) (content kept : Str) : Prop :=
  kept = content ∨ Completion script content kept

/-- What is read of a receipt is completed to a completion of it. -/
def Continues (script : Script F) (content : Str) (readable : Str → Prop) : Prop :=
  ∀ text (state : Object F) written, readable text →
    jsonLoads script.py.limits text = .ok (.dict state) → PreparedReceipt state →
    Completed script state written → Completion script content written

/-- A file that was the state file and is not written any more, except by the call that has
written the receipt: the first one, with what can be read of the receipt, or a completion. -/
structure Settled (script : Script F) (content : Str) (readable : Str → Prop) (first : ℕ)
    (fs : FileSystem) (file : ℕ) : Prop where
  lt : file < fs.next
  ne : fs.temporary ≠ some file
  holds : file = first ∧ readable (fs.files file) ∨
    file ≠ first ∧ Completion script content (fs.files file)

/-- The state file, and every file that was opened as the state file, is settled. The state
file is the first one until the temporary file is moved. -/
structure Kept (script : Script F) (content : Str) (readable : Str → Prop) (first : ℕ)
    (past : List (ι × SystemEvent F)) (fs : FileSystem) : Prop where
  proper : fs.Proper
  begun : Settled script content readable first fs first
  state : ∃ file, fs.state = some file ∧ Settled script content readable first fs file
  opened : ∀ i file, (i, ⟨.openState, some (.ok file)⟩) ∈ past →
    Settled script content readable first fs file
  reads : ∀ i file text, (i, ⟨.readFile file, some (.ok text)⟩) ∈ past →
    readable text ∨ Completion script content text
  temporary : ∀ i file, (i, ⟨.createTemporary, some file⟩) ∈ past → file ≠ first
  unmoved : (∀ i, (i, ⟨.replaceState, some ()⟩) ∉ past) → fs.state = some first
  moved : ∀ i, (i, ⟨.replaceState, some ()⟩) ∈ past → fs.state ≠ some first

variable {content : Str} {readable : Str → Prop} {first : ℕ} {u : FileSystem} {i : ι}
variable {x : SystemEvent F}

omit [PyFloat F] [DecidableEq ι] in
/-- An event of a history with one more event is one of the history, or the last one. -/
theorem mem_append_event {past : List (ι × SystemEvent F)} {j : ι} {y : SystemEvent F}
    (h : (j, y) ∈ past ++ [(i, x)]) : (j, y) ∈ past ∨ x = y := by
  obtain h | h := List.mem_append.mp h
  · exact .inl h
  · exact .inr (Prod.mk.inj (List.mem_singleton.mp h)).2.symm

omit [DecidableEq ι] in
/-- A system call keeps the receipt if files stay settled and the state file is one of them. -/
theorem Kept.extend (h : Kept script content readable first before t) (hproper : u.Proper)
    (hsettled : ∀ file, Settled script content readable first t file →
      Settled script content readable first u file)
    (hstate : x ≠ ⟨.replaceState, some ()⟩ → u.state = t.state)
    (hmoved : x = ⟨.replaceState, some ()⟩ → ∃ file, u.state = some file ∧ file ≠ first ∧
      Settled script content readable first u file)
    (hopened : ∀ file, x = ⟨.openState, some (.ok file)⟩ →
      Settled script content readable first u file)
    (hread : ∀ file text, x = ⟨.readFile file, some (.ok text)⟩ →
      readable text ∨ Completion script content text)
    (htemporary : ∀ file, x = ⟨.createTemporary, some file⟩ → file ≠ first) :
    Kept script content readable first (before ++ [(i, x)]) u where
  proper := hproper
  begun := hsettled first h.begun
  state := by
    by_cases hx : x = ⟨.replaceState, some ()⟩
    · obtain ⟨file, hfile, -, hnew⟩ := hmoved hx
      exact ⟨file, hfile, hnew⟩
    · obtain ⟨file, hfile, hold⟩ := h.state
      exact ⟨file, (hstate hx).trans hfile, hsettled file hold⟩
  opened j file hmem := (mem_append_event hmem).elim
    (fun hpast => hsettled file (h.opened j file hpast)) (hopened file)
  reads j file text hmem := (mem_append_event hmem).elim (h.reads j file text) (hread file text)
  temporary j file hmem := (mem_append_event hmem).elim (h.temporary j file) (htemporary file)
  unmoved hnone := by
    rw [hstate fun hx => hnone i (by simp [hx])]
    exact h.unmoved fun j hj => hnone j (List.mem_append_left _ hj)
  moved j hmem := by
    by_cases hx : x = ⟨.replaceState, some ()⟩
    · obtain ⟨file, hfile, hne, -⟩ := hmoved hx
      rw [hfile]
      exact fun hsame => hne (Option.some.inj hsame)
    · rw [hstate hx]
      exact h.moved j ((mem_append_event hmem).resolve_right hx)

omit [DecidableEq ι] in
/-- A system call that changes no file, and neither opens nor reads one, keeps the receipt. -/
theorem Kept.quiet (h : Kept script content readable first before t) (hx : x.op.changes = false)
    (hopened : ∀ file, x ≠ ⟨.openState, some (.ok file)⟩)
    (hread : ∀ file text, x ≠ ⟨.readFile file, some (.ok text)⟩) :
    Kept script content readable first (before ++ [(i, x)]) t := by
  refine h.extend h.proper (fun _ hfile => hfile) (fun _ => rfl) ?_
    (fun file hopen => absurd hopen (hopened file))
    (fun file text htext => absurd htext (hread file text)) ?_
  · rintro rfl
    cases hx
  · rintro file rfl
    cases hx

omit [DecidableEq ι] in
/-- Opening the temporary file keeps the receipt. -/
theorem Kept.createTemporary (h : Kept script content readable first before t) :
    Kept script content readable first
      (before ++ [(i, ⟨.createTemporary, some (t.target t.temporary)⟩)]) t.createTemporary ∧
    t.createTemporary.files first = t.files first := by
  have hne (file : ℕ) (hfile : Settled script content readable first t file) :
      file ≠ t.target t.temporary := by
    rintro rfl
    obtain htemporary | ⟨-, hnew⟩ := t.target_eq t.temporary
    · exact hfile.ne htemporary
    · exact absurd hfile.lt (hnew ▸ lt_irrefl _)
  have hkeeps (file : ℕ) (hfile : Settled script content readable first t file) :
      t.createTemporary.files file = t.files file := FileSystem.empty_files_of_ne (hne file hfile)
  refine ⟨h.extend (h.proper.becomes (F := F) .createTemporary) (fun file hfile => ?_)
    (fun _ => rfl) (by simp) (by simp) (by simp) ?_, hkeeps first h.begun⟩
  · refine ⟨lt_max_of_lt_left hfile.lt, fun hsame => hne file hfile ?_, ?_⟩
    · exact (Option.some.inj hsame).symm
    · rw [hkeeps file hfile]
      exact hfile.holds
  · rintro file hsame
    obtain rfl : t.target t.temporary = file := by simpa using hsame
    exact (hne first h.begun).symm

omit [DecidableEq ι] in
/-- Writing to the temporary file keeps the receipt. -/
theorem Kept.put {file position : ℕ} {c : Chr} (h : Kept script content readable first before t)
    (htemporary : t.temporary = some file) :
    Kept script content readable first (before ++ [(i, ⟨.put file position c, some ()⟩)])
      (t.put file position c) ∧ (t.put file position c).files first = t.files first := by
  have hkeeps (other : ℕ) (hother : Settled script content readable first t other) :
      (t.put file position c).files other = t.files other :=
    FileSystem.put_files_of_ne fun hsame => hother.ne (hsame ▸ htemporary)
  refine ⟨h.extend (h.proper.becomes (F := F) (.put file position c)) (fun other hother => ?_)
    (fun _ => rfl) (by simp) (by simp) (by simp) (by simp), hkeeps first h.begun⟩
  refine ⟨hother.lt, hother.ne, ?_⟩
  rw [hkeeps other hother]
  exact hother.holds

omit [DecidableEq ι] in
/-- Moving a completion over the state file keeps the receipt. -/
theorem Kept.replaceState {file : ℕ} (h : Kept script content readable first before t)
    (htemporary : t.temporary = some file)
    (hcompletion : Completion script content (t.files file)) :
    Kept script content readable first (before ++ [(i, ⟨.replaceState, some ()⟩)])
      { t with state := some file, temporary := none } := by
  have hfirst : file ≠ first := by
    rintro rfl
    exact h.begun.ne htemporary
  have hsettled (other : ℕ) (hother : Settled script content readable first t other) :
      Settled script content readable first { t with state := some file, temporary := none }
        other := ⟨hother.lt, by simp, hother.holds⟩
  exact h.extend (h.proper.becomes (F := F) (.replaceState htemporary)) hsettled (by simp)
    (fun _ => ⟨file, rfl, hfirst, h.proper.temporary file htemporary, by simp,
      .inr ⟨hfirst, hcompletion⟩⟩) (by simp) (by simp) (by simp)

/-- Every system call of a call keeps the receipt and leaves the first file alone, unless
`prepare` writes the state file. -/
theorem Kept.step (h : Overlapping script path calls fs s outcome fs') (hexclusive : Exclusive s)
    (hproper : fs.Proper) (hreadable : Continues script content readable)
    (hs : s = before ++ (i, x) :: rest) (ht : Follows FileSystem.Becomes fs (before.map Prod.snd) t)
    (hkept : Kept script content readable first before t) (hx : t.Becomes x u)
    (hcreated : ∀ j file, (j, ⟨.createState, some file⟩) ∈ before → file = first)
    (hcreate : ∀ file, x ≠ ⟨.createState, some file⟩)
    (hput : ∀ file position c, x = ⟨.put file position c, some ()⟩ →
      (⟨.createState, some file⟩ : SystemEvent F) ∉ eventsOf i before) :
    Kept script content readable first (before ++ [(i, x)]) u ∧ u.files first = t.files first := by
  have hallowed := h.allowed.of_split hs
  -- What a call that has the temporary file open finds there.
  have hwritten {base own : List (SystemEvent F)} {file : ℕ} {text : Str}
      (hbase : eventsOf i before = base ++ ⟨.createTemporary, some file⟩ :: own)
      (hown : own = putEvents file 0 text ∨
        own = putEvents file 0 text ++ [⟨.close file, some ()⟩]) :
      t.temporary = some file ∧ t.files file = text := by
    refine h.written hexclusive hproper hs ht hbase hown fun j hmem => ?_
    exact hkept.temporary i file (mem_eventsOf.mp (by simp [hbase])) (hcreated j file hmem)
  cases hx with
  | failed op =>
    refine ⟨hkept.extend hkept.proper (fun _ hfile => hfile) (fun _ => rfl) ?_ ?_ ?_ ?_, rfl⟩
    · rintro ⟨⟩
    · rintro _ ⟨⟩
    · rintro _ _ ⟨⟩
    · rintro _ ⟨⟩
  | createState => exact absurd rfl (hcreate _)
  | createTemporary => exact hkept.createTemporary
  | put file position c =>
    obtain hstate | ⟨base, filled, hbase⟩ := Call.Allows.put hallowed
    · exact absurd hstate (hput file position c rfl)
    · exact hkept.put (hwritten hbase (.inl rfl)).1
  | @replaceState moved hmoved =>
    obtain ⟨base, file, written, hbase, opened, read, state, hopened, hread, hloads, hreceipt,
      hcompleted⟩ := Call.Allows.replaceState hallowed
    obtain ⟨htemporary, hfile⟩ := hwritten hbase (.inr rfl)
    obtain rfl := Option.some.inj (htemporary.symm.trans hmoved)
    refine ⟨hkept.replaceState hmoved ?_, rfl⟩
    rw [hfile]
    obtain hstart | ⟨hcomplete, -⟩ := hkept.reads i opened read (mem_eventsOf.mp hread)
    · exact hreadable read state written hstart hloads hreceipt hcompleted
    · exact absurd hreceipt (not_preparedReceipt_of_complete hcomplete hloads)
  | @openState file hfile =>
    obtain ⟨current, hcurrent, hsettled⟩ := hkept.state
    obtain rfl := Option.some.inj (hcurrent.symm.trans hfile)
    refine ⟨hkept.extend hkept.proper (fun _ hother => hother) (fun _ => rfl) (by simp) ?_
      (by simp) (by simp), rfl⟩
    rintro other hsame
    obtain rfl : current = other := by simpa using hsame
    exact hsettled
  | readFile file =>
    have hsettled := hkept.opened i file (mem_eventsOf.mp (Call.Allows.readFile hallowed))
    refine ⟨hkept.extend hkept.proper (fun _ hother => hother) (fun _ => rfl) (by simp) (by simp)
      ?_ (by simp), rfl⟩
    rintro other text hsame
    obtain ⟨rfl, rfl⟩ : file = other ∧ t.files file = text := by simpa using hsame
    exact hsettled.holds.imp And.right And.right
  | _ => exact ⟨hkept.quiet rfl (by simp) (by simp), rfl⟩

/-! ### From a receipt on -/

omit [DecidableEq ι] in
/-- Once the temporary file was moved the state file holds a completion. -/
theorem Kept.moved_text (h : Kept script content readable first before t)
    (hmoved : (i, ⟨.replaceState, some ()⟩) ∈ before) :
    ∃ kept, t.text = some kept ∧ Completion script content kept := by
  obtain ⟨file, hfile, hsettled⟩ := h.state
  refine ⟨t.files file, by rw [FileSystem.text, hfile]; rfl, ?_⟩
  obtain ⟨rfl, -⟩ | ⟨-, hcompletion⟩ := hsettled.holds
  · exact absurd hfile (h.moved i hmoved)
  · exact hcompletion

omit [DecidableEq ι] in
/-- Before, it holds what the first file does. -/
theorem Kept.unmoved_text (h : Kept script content readable first before t)
    (hunmoved : ∀ i, (i, ⟨.replaceState, some ()⟩) ∉ before) :
    t.text = some (t.files first) ∧ readable (t.files first) := by
  refine ⟨by rw [FileSystem.text, h.unmoved hunmoved]; rfl, ?_⟩
  obtain ⟨-, hreadable⟩ | ⟨hne, -⟩ := h.begun.holds
  · exact hreadable
  · exact absurd rfl hne

omit [DecidableEq ι] in
/-- The state file holds the receipt or a completion of it, if the receipt is in the first
file. -/
theorem Kept.text (h : Kept script content readable first before t)
    (hwhole : t.files first = content) :
    ∃ kept, t.text = some kept ∧ Onward script content kept := by
  by_cases hmoved : ∃ i, (i, (⟨.replaceState, some ()⟩ : SystemEvent F)) ∈ before
  · obtain ⟨i, hi⟩ := hmoved
    obtain ⟨kept, hkept, hcompletion⟩ := h.moved_text hi
    exact ⟨kept, hkept, .inr hcompletion⟩
  · obtain ⟨htext, -⟩ := h.unmoved_text (not_exists.mp hmoved)
    exact ⟨_, htext, .inl hwhole⟩

omit [DecidableEq ι] in
/-- A receipt of the file that is a prepared one was written by `prepare`. -/
theorem readBack_of_written {state : Object F} (hwritten : Written script (some content))
    (hloads : jsonLoads script.py.limits content = .ok (.dict state))
    (hreceipt : PreparedReceipt state) : ReadBack state := by
  cases hwritten with
  | completed hcomplete => exact absurd hreceipt (not_preparedReceipt_of_complete hcomplete hloads)
  | prepared hprepared =>
    obtain ⟨read, hread, hback⟩ := prepared_loads hprepared
    obtain rfl : read = state := by simpa [hloads, eq_comm] using hread
    exact hback

/-- Calls that begin with a receipt in the file keep it at every moment. None of them finds
the file absent or creates it. -/
theorem Overlapping.kept (h : Overlapping script path calls fs s outcome fs')
    (hexclusive : Exclusive s) (hproper : fs.Proper) (hwritten : Written script (some content))
    (hstate : fs.state = some first) (hcontent : fs.files first = content)
    (hs : s = before ++ rest) (ht : Follows FileSystem.Becomes fs (before.map Prod.snd) t) :
    Kept script content (· = content) first before t ∧
      (∀ i, (i, ⟨.stateExists, some false⟩) ∉ before) ∧
      ∀ i file, (i, ⟨.createState, some file⟩) ∉ before := by
  have hcontinues : Continues script content (· = content) := by
    rintro _ state written rfl hloads hreceipt hcompleted
    exact completed_loads hloads (readBack_of_written hwritten hloads hreceipt) hcompleted
  have hstart : Settled script content (· = content) first fs first :=
    ⟨hproper.state first hstate, hproper.apart first hstate, .inl ⟨rfl, hcontent⟩⟩
  refine (h.allowed.invariant
    (P := fun past t => Follows FileSystem.Becomes fs (past.map Prod.snd) t ∧
      Kept script content (· = content) first past t ∧
      (∀ i, (i, ⟨.stateExists, some false⟩) ∉ past) ∧
      ∀ i file, (i, ⟨.createState, some file⟩) ∉ past)
    [] ⟨.nil fs, ⟨hproper, hstart, ⟨first, hstate, hstart⟩, by simp, by simp, by simp,
      fun _ => hstate, by simp⟩, by simp, by simp⟩ ?_ hs ht).2
  rintro past i x later t u hsplit hallowed hx ⟨hpast, hkept, habsent, hnone⟩
  have hcreate (file : ℕ) : x ≠ ⟨.createState, some file⟩ := by
    rintro rfl
    exact habsent i (mem_eventsOf.mp (Call.Allows.createState hallowed).1)
  refine ⟨?_, ?_, fun j hj => ?_, fun j file hj => ?_⟩
  · rw [List.map_append]
    exact follows_append.mpr ⟨t, hpast, .cons hx (.nil u)⟩
  · exact (Kept.step h hexclusive hproper hcontinues hsplit hpast hkept hx
      (fun j file hj => absurd hj (hnone j file)) hcreate
      fun file position c _ hmem => hnone i file (mem_eventsOf.mp hmem)).1
  · obtain hj | rfl := mem_append_event hj
    · exact habsent j hj
    · obtain ⟨file, hfile, -⟩ := hkept.state
      have hfound := hx.isSome_state
      simp [hfile] at hfound
  · exact (mem_append_event hj).elim (hnone j file) (hcreate file)

/-- From a receipt in the file on, overlapping calls keep it: the file holds it or a completion
of it at every moment, and a complete receipt stays complete. No `prepare` does more than ask
for the file, or returns, and once a `resume` returns, the receipt is complete, even if another
call has moved its own completion over it. -/
theorem calls_keep_receipt (hwritten : Written script (some content)) (hproper : fs.Proper)
    (hcontent : fs.text = some content) (h : Overlapping script path calls fs s outcome fs')
    (hexclusive : Exclusive s) :
    (∀ before between after t u, s = before ++ between ++ after →
      Follows FileSystem.Becomes fs (before.map Prod.snd) t →
      Follows FileSystem.Becomes t (between.map Prod.snd) u →
      (∃ kept, u.text = some kept ∧ Onward script content kept) ∧
      ∀ kept, t.text = some kept →
        Receipt script "complete" (preparedFields ++ completionFields) kept →
        ∃ later, u.text = some later ∧
          Receipt script "complete" (preparedFields ++ completionFields) later) ∧
    (∀ i scenario sourceTaskId, calls i = .prepare scenario sourceTaskId →
      (∀ x ∈ eventsOf i s, x.op = .stateExists) ∧ ∀ state, outcome i ≠ .returned state) ∧
    ∀ i scenario result, calls i = .resume scenario → outcome i = .returned result →
      ∃ kept, fs'.text = some kept ∧ Completion script content kept := by
  obtain ⟨first, hstate, hfirst⟩ := Option.map_eq_some_iff.mp hcontent
  refine ⟨?_, ?_, ?_⟩
  · intro before between after t u hs ht hu
    obtain ⟨hearlier, -⟩ :=
      h.kept hexclusive hproper hwritten hstate hfirst (hs.trans (List.append_assoc ..)) ht
    have hboth : Follows FileSystem.Becomes fs ((before ++ between).map Prod.snd) u := by
      rw [List.map_append]
      exact follows_append.mpr ⟨t, ht, hu⟩
    obtain ⟨hkept, -⟩ := h.kept hexclusive hproper hwritten hstate hfirst hs hboth
    have hwhole (past : List (ι × SystemEvent F)) (v : FileSystem)
        (hv : Kept script content (· = content) first past v) : v.files first = content :=
      hv.begun.holds.elim And.right fun hne => absurd rfl hne.1
    refine ⟨hkept.text (hwhole _ u hkept), fun kept hkeptText hcomplete => ?_⟩
    by_cases hmoved : ∃ i, (i, (⟨.replaceState, some ()⟩ : SystemEvent F)) ∈ before ++ between
    · obtain ⟨i, hi⟩ := hmoved
      obtain ⟨later, hlater, hcompletion⟩ := hkept.moved_text hi
      exact ⟨later, hlater, hcompletion.1⟩
    · -- Without a move the file is what it was.
      obtain ⟨hbefore, -⟩ := hearlier.unmoved_text fun i hi =>
        hmoved ⟨i, List.mem_append_left _ hi⟩
      obtain ⟨hafter, -⟩ := hkept.unmoved_text (not_exists.mp hmoved)
      rw [hwhole before t hearlier, hkeptText] at hbefore
      rw [hwhole _ u hkept] at hafter
      exact ⟨content, hafter, Option.some.inj hbefore ▸ hcomplete⟩
  · intro i scenario sourceTaskId hcall
    obtain ⟨-, habsent, hnone⟩ :=
      h.kept hexclusive hproper hwritten hstate hfirst (List.append_nil s).symm h.files
    refine ⟨fun x hx => ?_, ?_⟩
    · obtain ⟨before, after, hes⟩ := List.append_of_mem hx
      have hallowed : (calls i).Allows script before x.op := h.allowed i before x after hes
      rw [hcall] at hallowed
      refine Call.Allows.stateExists hallowed fun hfound => habsent i (mem_eventsOf.mp ?_)
      rw [hes]
      exact List.mem_append_left _ hfound
    · rintro state hreturned
      have hrun := h.runs i
      rw [hcall, hreturned] at hrun
      obtain ⟨base, file, text, hes, -⟩ := prepare_system_returned hrun
      exact hnone i file (mem_eventsOf.mp (by simp [hes]))
  · intro i scenario result hcall hreturned
    have hrun := h.runs i
    rw [hcall, hreturned] at hrun
    obtain ⟨hkept, -⟩ :=
      h.kept hexclusive hproper hwritten hstate hfirst (List.append_nil s).symm h.files
    exact hkept.moved_text (mem_eventsOf.mp (replaceState_of_returned hrun))

/-! ### The sample with a second `prepare` -/

/-- The calls of the sample, and another `prepare`. -/
def overlappingCalls : Option Bool → Call Unit
  | some false => .resume sampleScenario
  | _ => .prepare sampleScenario (lit "task")

/-- `resume`, with the other `prepare` behind its first system call. -/
def lateSchedule (es : List (SystemEvent Unit)) : List (Option Bool × SystemEvent Unit) :=
  (es.take 1).map (fun x => (some false, x)) ++
    (some true, ⟨.stateExists, some true⟩) :: (es.drop 1).map fun x => (some false, x)

/-- How they end, where the first call and `resume` end as given. -/
def overlappingOutcome (first resumed : Outcome (Raised JourneyError) (Object Unit)) :
    Option Bool → Outcome (Raised JourneyError) (Object Unit)
  | none => first
  | some false => resumed
  | some true =>
      .raised (.own ⟨lit "refusing to replace existing prepare state: " ++ lit "state"⟩)

/-- The system calls of each. -/
theorem eventsOf_lateSchedule (es : List (SystemEvent Unit)) :
    eventsOf none (lateSchedule es) = [] ∧ eventsOf (some false) (lateSchedule es) = es ∧
      eventsOf (some true) (lateSchedule es) = [⟨.stateExists, some true⟩] := by
  have hcons (i : Option Bool) (rest : List (Option Bool × SystemEvent Unit)) :
      eventsOf i ((some true, ⟨.stateExists, some true⟩) :: rest) =
        eventsOf i [(some true, (⟨.stateExists, some true⟩ : SystemEvent Unit))] ++
          eventsOf i rest := eventsOf_append i [_] rest
  refine ⟨?_, ?_, ?_⟩
  · rw [lateSchedule, eventsOf_append, hcons, eventsOf_map_of_ne (by decide),
      eventsOf_map_of_ne (by decide)]
    rfl
  · have hother : eventsOf (some false)
        [(some true, (⟨.stateExists, some true⟩ : SystemEvent Unit))] = [] := rfl
    rw [lateSchedule, eventsOf_append, hcons, eventsOf_map_self, eventsOf_map_self, hother,
      List.nil_append, List.take_append_drop]
  · rw [lateSchedule, eventsOf_append, hcons, eventsOf_map_of_ne (by decide),
      eventsOf_map_of_ne (by decide)]
    rfl

/-- What becomes of the files where there is a state file. -/
theorem lateSchedule_files {es : List (SystemEvent Unit)} {fs fs' : FileSystem}
    (hstate : fs.state ≠ none) (h : Follows FileSystem.Becomes fs es fs') :
    Follows FileSystem.Becomes fs ((lateSchedule es).map Prod.snd) fs' := by
  rw [← List.take_append_drop 1 es] at h
  obtain ⟨t, hfirst, hrest⟩ := follows_append.mp h
  have hthere : t.state.isSome = true :=
    Option.isSome_iff_ne_none.mpr (FileSystem.exists_state_of_follows hfirst hstate)
  have hcheck : t.Becomes (⟨.stateExists, some true⟩ : SystemEvent Unit) t := hthere ▸ .stateExists
  simpa [lateSchedule, Function.comp_def] using
    follows_append.mpr ⟨t, hfirst, .cons hcheck hrest⟩

/-- The runs of the late part, behind a first call. -/
theorem late_runs {first resumed : Outcome (Raised JourneyError) (Object Unit)}
    {es : List (SystemEvent Unit)} {s : List (Option Bool × SystemEvent Unit)}
    (hresume : Trace ((overlappingCalls (some false)).systemProgram sampleScript (lit "state")) es
      resumed)
    (hfirst : Trace ((overlappingCalls none).systemProgram sampleScript (lit "state"))
      (eventsOf none s) first)
    (hlate : ∀ late, eventsOf (some late) s = eventsOf (some late) (lateSchedule es))
    (i : Option Bool) : Trace ((overlappingCalls i).systemProgram sampleScript (lit "state"))
      (eventsOf i s) (overlappingOutcome first resumed i) := by
  obtain ⟨-, hresumed, hrefused⟩ := eventsOf_lateSchedule es
  cases i with
  | none => exact hfirst
  | some late =>
    rw [hlate late]
    cases late with
    | false =>
      rw [hresumed]
      exact hresume
    | true =>
      rw [hrefused]
      exact @Trace.step SystemCall (SystemResponse Unit) _ _ .stateExists _ true [] _ (.fail _)

/-- The receipt of the sample in a file, and no temporary file. -/
def sampleFiles : FileSystem := ⟨fun _ => sampleContent, 1, some 0, none⟩

/-- Where the two paths lead there. -/
theorem sampleFiles_proper : sampleFiles.Proper :=
  ⟨by simp [sampleFiles], by simp [sampleFiles], by simp [sampleFiles]⟩

/-- What they lead to. -/
theorem sampleFiles_disk : sampleFiles.disk = ⟨some sampleContent, none⟩ := by
  simp [sampleFiles, FileSystem.disk, FileSystem.text]

/-- The sample is completed at the file system wherever its receipt is in the file. -/
theorem late_overlapping {fs : FileSystem} (hproper : fs.Proper)
    (hdisk : fs.disk = ⟨some sampleContent, none⟩) :
    ∃ es fs' result, Overlapping sampleScript (lit "state") overlappingCalls fs (lateSchedule es)
      (overlappingOutcome .running (.returned result)) fs' := by
  obtain ⟨result, hresult⟩ := Outcome.exists_result sampleJourney_returns.2.2.2
  have hrun := sampleResumed_trace
  rw [hresult] at hrun
  obtain ⟨es, fs', hes, hfs', -⟩ :=
    FileSystem.exists_expanded hrun hrun.answered hproper (hdisk ▸ sampleResumed_files)
  have hstate : fs.state ≠ none := by
    intro hnone
    have htext := congrArg Disk.state hdisk
    simp [FileSystem.disk, FileSystem.text, hnone] at htext
  refine ⟨es, fs', result, late_runs hes ?_ fun _ => rfl, lateSchedule_files hstate hfs'⟩
  rw [(eventsOf_lateSchedule es).1]
  exact .running _

/-- Only one of the calls resumes. -/
theorem eq_of_resume {i : Option Bool} {scenario : Object Unit}
    (h : overlappingCalls i = .resume scenario) : i = some false := by
  cases i with
  | none => cases h
  | some late =>
    cases late with
    | false => rfl
    | true => cases h

/-- The receipt of the sample is completed while the other `prepare` is refused. -/
theorem lateSchedule_keeps : ∃ es fs' result,
    Overlapping sampleScript (lit "state") overlappingCalls sampleFiles (lateSchedule es)
      (overlappingOutcome .running (.returned result)) fs' ∧
    (∀ x ∈ eventsOf (some true) (lateSchedule es), x.op = .stateExists) ∧
    ∃ kept, fs'.text = some kept ∧ Completion sampleScript sampleContent kept := by
  obtain ⟨es, fs', result, h⟩ := late_overlapping sampleFiles_proper sampleFiles_disk
  obtain ⟨-, hrefused, hcompleted⟩ := calls_keep_receipt sampleContent_reached.written
    sampleFiles_proper (congrArg Disk.state sampleFiles_disk) h (h.exclusive fun _ _ _ _ hi hj =>
      (eq_of_resume hi).trans (eq_of_resume hj).symm)
  exact ⟨es, fs', result, h, (hrefused (some true) sampleScenario (lit "task") rfl).1,
    hcompleted (some false) sampleScenario result rfl rfl⟩

end MarketIntelligence.Journey
