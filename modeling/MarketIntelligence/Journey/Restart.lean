import MarketIntelligence.Journey.Output
import MarketIntelligence.Journey.Passages
import MarketIntelligence.Journey.StateFile
import MarketIntelligence.Python.SameValue

/-!
# The gate after the restart

`prepare` records hashes of the scenario, the revision and the head, and `resume` compares
them with what it is given and fetches. The hashed texts are canonical, so that the gate
lets through exactly the recorded values, in whatever order their members come.
-/

namespace MarketIntelligence.Journey

open Python Interaction

variable {F : Type} [PyFloat F]

/-! ### Hashes -/

/-- Among these values, equal digests come from equal hashed texts. -/
def CollisionFree (script : Script F) (values : List (Data F)) : Prop :=
  ∀ x ∈ values, ∀ y ∈ values, ∀ t u,
    x.dumps script.py (Json.Layout.compact true) = .ok t →
    y.dumps script.py (Json.Layout.compact true) = .ok u →
    script.sha256 (asciiBytes t) = script.sha256 (asciiBytes u) → t = u

/-- Two hashed texts are equal exactly if the values are the same. -/
theorem dumps_eq_iff {script : Script F} {x y : Data F} {t u : Str} (hx : x.WellFormed)
    (hy : y.WellFormed) (ht : x.dumps script.py (Json.Layout.compact true) = .ok t)
    (hu : y.dumps script.py (Json.Layout.compact true) = .ok u) : t = u ↔ SameValue x y := by
  obtain ⟨_, -, htext⟩ := bind_eq_ok.mp ht
  obtain ⟨_, -, hutext⟩ := bind_eq_ok.mp hu
  obtain rfl := Except.ok.inj htext
  obtain rfl := Except.ok.inj hutext
  exact encode_eq_iff _ hx hy

/-- A hash is the digest of the hashed text. -/
theorem hash_eq_ok {script : Script F} {x : Data F} {digest : Str} :
    hash script x = .ok digest ↔ ∃ t, x.dumps script.py (Json.Layout.compact true) = .ok t ∧
      digest = (script.sha256 (asciiBytes t)).map fun digit : Fin 16 =>
        Json.hexDigit digit.val := by
  simp only [hash, bind_eq_ok, ofBuiltin_eq_ok, pure_eq_ok, Except.ok.injEq]
  exact exists_congr fun t => and_congr Iff.rfl eq_comm

/-- A reordered value has the same hash. -/
theorem hash_same {script : Script F} {x y : Data F} {digest : Str} (h : SameValue x y)
    (hx : x.WellFormed) (hdigest : hash script x = .ok digest) :
    hash script y = .ok digest := by
  obtain ⟨t, ht, hsha⟩ := hash_eq_ok.mp hdigest
  obtain ⟨_, hfits, htext⟩ := bind_eq_ok.mp ht
  refine hash_eq_ok.mpr ⟨t, bind_eq_ok.mpr ⟨(), fits_same _ _ h hfits, ?_⟩, hsha⟩
  rw [← htext, encode_same _ 0 h hx]

/-- Without collisions, values with the same hash are the same. -/
theorem same_of_hash {script : Script F} {values : List (Data F)} {x y : Data F} {digest : Str}
    (hfree : CollisionFree script values) (hxmem : x ∈ values) (hymem : y ∈ values)
    (hx : x.WellFormed) (hy : y.WellFormed) (hxhash : hash script x = .ok digest)
    (hyhash : hash script y = .ok digest) : SameValue x y := by
  obtain ⟨t, ht, rfl⟩ := hash_eq_ok.mp hxhash
  obtain ⟨u, hu, hsame⟩ := hash_eq_ok.mp hyhash
  have hdigit : Function.Injective fun digit : Fin 16 => Json.hexDigit digit.val := by decide
  have hsha := List.map_injective_iff.mpr hdigit hsame
  exact (dumps_eq_iff hx hy ht hu).mp (hfree x hxmem y hymem t u ht hu hsha)

/-! ### Decoded values -/

/-- The receipt in a command's output was decoded. -/
theorem decoded_of_parseJsonOutput {limits : Limits} {s : Str} {value : Object F}
    (hs : Str.Encodable s) (h : parseJsonOutput limits s = .ok value) :
    Decoded limits (.dict value) := by
  induction s with
  | nil => cases h
  | cons c s ih =>
    obtain ⟨-, htail⟩ := Json.encodable_cons.mp hs
    rw [parseJsonOutput] at h
    split at h
    · exact ih htail h
    · split at h
      · exact ih htail h
      · cases h
      · cases h
      · next payload rest hdecode =>
        split at h
        · exact ih htail h
        · split at h
          · obtain rfl := Except.ok.inj h
            exact ⟨c :: s, rest, hs, hdecode⟩
          · exact ih htail h

/-! ### What was recorded -/

/-- A state that was read back records a scenario, a revision and a head. -/
structure Recorded (script : Script F) (scenario revision head state : Object F)
    (revisionId : Str) : Prop where
  contract : get state (lit "contract_version") = .str contractVersion
  phase : get state (lit "phase") = .str (lit "prepared")
  scenario : ∃ t, hash script (.dict scenario) = .ok t ∧ get state (lit "scenario_hash") = .str t
  revision : ∃ t, hash script (.dict revision) = .ok t ∧ get state (lit "revision_hash") = .str t
  head : ∃ t, hash script (.dict head) = .ok t ∧ get state (lit "head_hash") = .str t
  revisionText : stateText script state "revision_id" = .ok (Json.reread true revisionId)
  headText : ∃ t, stateText script state "head_id" = .ok t
  keyText : ∃ t, stateText script state "stable_key" = .ok t

/-- What `prepare` has written is read back with the hashes of what it was given and
fetched. -/
theorem prepare_recorded {script : Script F} {scenario : Object F} {sourceTaskId : Str}
    {es : List (Event F)} {state : Object F} {content : Str} {r : Reviewed F}
    {taught review task selection use : Object F} {a : Attribution F}
    (h : PrepareReturned script scenario sourceTaskId es state content r taught review task
      selection use a) :
    ∃ loaded : Object F, jsonLoads script.py.limits content = .ok (.dict loaded) ∧
      Recorded script scenario r.revision r.head loaded r.revisionId := by
  obtain ⟨key, hashes, before, used, -, -, -, hstate, -⟩ := h.gathered
  obtain ⟨hloads, hget⟩ := preparedState_loads hstate h.printed
  refine ⟨_, hloads, ?_⟩
  have htext {field : String} {t : Str} (hthere : hasKey state (lit field) = true)
      (hfield : get state (lit field) = .str t) :
      stateText script (Data.reloadedDict true state) field = .ok (Json.reread true t) := by
    refine stateText_eq_ok.mpr ⟨(hget _).1.trans hthere, ?_⟩
    rw [(hget _).2, hfield]
    rfl
  have hrecorded {field : String} {x : Object F} {t : Str} (hx : hash script (.dict x) = .ok t)
      (hfield : get state (lit field) = .str t) :
      ∃ t, hash script (.dict x) = .ok t ∧
        get (Data.reloadedDict true state) (lit field) = .str t := by
    refine ⟨t, hx, ?_⟩
    rw [(hget _).2, hfield, Data.reloaded, Json.reread_of_noSplitPair
      (Json.noSplitPair_of_encodable (hash_encodable hx))]
  simp only [preparedState, bind_eq_ok, pure_eq_ok, Except.ok.injEq] at hstate
  obtain ⟨scenarioHash, hscenario, _, -, _, -, _, -, _, -, _, -, revisionHash, hrevision, _, -,
    _, -, headHash, hhead, rfl⟩ := hstate
  exact {
    contract := by rw [(hget _).2]; simp [reloaded_literal]
    phase := by rw [(hget _).2]; simp [reloaded_literal]
    scenario := hrecorded hscenario (by simp)
    revision := hrecorded hrevision (by simp)
    head := hrecorded hhead (by simp)
    revisionText := htext (by simp [hasKey]) (by simp)
    headText := ⟨_, htext (t := r.headId) (by simp [hasKey]) (by simp)⟩
    keyText := ⟨_, htext (t := key) (by simp [hasKey]) (by simp)⟩ }

/-- Where the gates pass, `resume` goes on. -/
theorem after_of_unchanged {script : Script F} {scenario state revision head : Object F}
    {path revisionId headId stableKey : Str} {es : List (Event F)}
    (h : Unchanged script scenario state revision head revisionId headId stableKey es) :
    After (resume script scenario path) es
      (resumeUnchanged script scenario state revisionId headId stableKey) := by
  obtain ⟨content, hloads, rfl⟩ := h.events
  unfold resume readState json
  refine .ask_bind _ (.ofExcept_bind (loadObject_eq_ok.mpr ⟨content, rfl, hloads⟩)
    (.ofExcept_bind h.checked (.ofExcept_bind h.revisionText (.ofExcept_bind h.headText
      (.ofExcept_bind h.keyText (.ask_bind _ (.ask_bind _ (.ofExcept_bind h.unchanged ?_))))))))
  exact .refl _

/-- The gates pass for the recorded values, whatever the order of their members. -/
theorem Recorded.passes {script : Script F} {scenario revision head state : Object F}
    {scenario' revision' head' : Object F} {revisionId content : Str} (path : Str)
    (h : Recorded script scenario revision head state revisionId)
    (hloads : jsonLoads script.py.limits content = .ok (.dict state))
    (hactive : checkActive revision head revisionId = .ok ())
    (hscenarioWell : (Data.dict scenario).WellFormed)
    (hrevisionWell : (Data.dict revision).WellFormed) (hheadWell : (Data.dict head).WellFormed)
    (hscenario : SameValue (.dict scenario) (.dict scenario'))
    (hrevision : SameValue (.dict revision) (.dict revision'))
    (hhead : SameValue (.dict head) (.dict head')) :
    ∃ revisionArguments headArguments headId stableKey, After (resume script scenario' path)
      [readEvent content, commandEvent revisionArguments revision',
        commandEvent headArguments head']
      (resumeUnchanged script scenario' state revisionId headId stableKey) := by
  obtain ⟨hfetched, hactiveOn, hlifecycle⟩ := checkActive_eq_ok.mp hactive
  obtain ⟨hrevisionKeys, hrevisionMembers⟩ := wellFormed_dict.mp hrevisionWell
  obtain ⟨hheadKeys, -⟩ := wellFormed_dict.mp hheadWell
  have hidentity : Json.reread true revisionId = revisionId := by
    have hvalue := (hrevisionMembers _ (mem_of_get hfetched (by simp))).2
    exact Json.reread_of_noSplitPair hvalue
  obtain ⟨headId, hheadId⟩ := h.headText
  obtain ⟨stableKey, hkey⟩ := h.keyText
  obtain ⟨t, ht, htrecorded⟩ := h.scenario
  obtain ⟨u, hu, hurecorded⟩ := h.revision
  obtain ⟨v, hv, hvrecorded⟩ := h.head
  have hheadSame : SameMembers head head' := by
    cases hhead with
    | dict hmembers => exact hmembers
  refine ⟨_, _, headId, stableKey, after_of_unchanged {
    checked := checkState_eq_ok.mpr ⟨⟨h.contract, h.phase⟩, t,
      hash_same hscenario hscenarioWell ht, htrecorded⟩
    revisionText := hidentity ▸ h.revisionText
    headText := hheadId
    keyText := hkey
    unchanged := checkUnchanged_eq_ok.mpr ⟨⟨u, hash_same hrevision hrevisionWell hu, hurecorded⟩,
      ⟨v, hash_same hhead hheadWell hv, hvrecorded⟩, hheadSame.get_str hheadKeys hactiveOn,
      hheadSame.get_str hheadKeys hlifecycle⟩
    events := ⟨content, hloads, rfl⟩ }⟩

/-- The gates pass for no other values. -/
theorem Recorded.same {script : Script F} {scenario revision head state : Object F}
    {scenario' revision' head' : Object F} {revisionId revisionId' headId stableKey : Str}
    {es : List (Event F)} (h : Recorded script scenario revision head state revisionId)
    (hfree : CollisionFree script [.dict scenario, .dict revision, .dict head, .dict scenario',
      .dict revision', .dict head'])
    (hwell : ∀ x ∈ [scenario, revision, head, scenario', revision', head'],
      (Data.dict x).WellFormed)
    (hpassed : Unchanged script scenario' state revision' head' revisionId' headId stableKey es) :
    SameValue (.dict scenario) (.dict scenario') ∧
      SameValue (.dict revision) (.dict revision') ∧ SameValue (.dict head) (.dict head') := by
  obtain ⟨-, t', ht', htrecorded'⟩ := checkState_eq_ok.mp hpassed.checked
  obtain ⟨⟨u', hu', hurecorded'⟩, ⟨v', hv', hvrecorded'⟩, -⟩ :=
    checkUnchanged_eq_ok.mp hpassed.unchanged
  obtain ⟨t, ht, htrecorded⟩ := h.scenario
  obtain ⟨u, hu, hurecorded⟩ := h.revision
  obtain ⟨v, hv, hvrecorded⟩ := h.head
  obtain rfl := Data.str.inj (htrecorded.symm.trans htrecorded')
  obtain rfl := Data.str.inj (hurecorded.symm.trans hurecorded')
  obtain rfl := Data.str.inj (hvrecorded.symm.trans hvrecorded')
  exact ⟨same_of_hash hfree (by simp) (by simp) (hwell _ (by simp)) (hwell _ (by simp)) ht ht',
    same_of_hash hfree (by simp) (by simp) (hwell _ (by simp)) (hwell _ (by simp)) hu hu',
    same_of_hash hfree (by simp) (by simp) (hwell _ (by simp)) (hwell _ (by simp)) hv hv'⟩

/-- Hashed texts are equal exactly for values that are the same up to the order of
members. So `resume`, when it reads what `prepare` has written, passes its gates with the
recorded scenario, revision and head in any order of members, and with no other. -/
theorem restart_gate (script : Script F) :
    (∀ x y t u, Decoded script.py.limits x → Decoded script.py.limits y →
      x.dumps script.py (Json.Layout.compact true) = .ok t →
      y.dumps script.py (Json.Layout.compact true) = .ok u → (t = u ↔ SameValue x y)) ∧
    ∀ scenario sourceTaskId path es state,
      Trace (prepare script scenario sourceTaskId path) es (.returned state) →
      ∃ content revision head, es.getLast? = some ⟨.writeState content, some ()⟩ ∧
        (replies es)[4]? = some revision ∧ (replies es)[5]? = some head ∧
        ((∀ x ∈ [scenario, revision, head], Decoded script.py.limits (.dict x)) →
        (∀ scenario' path' past q revision' head',
          After (resume script scenario' path') past q → 3 ≤ past.length →
          (∀ e, q ≠ .fail e) → past.head? = some (readEvent content) →
          (replies past).take 2 = [revision', head'] →
          (∀ x ∈ [scenario', revision', head'], Decoded script.py.limits (.dict x)) →
          CollisionFree script [.dict scenario, .dict revision, .dict head, .dict scenario',
            .dict revision', .dict head'] →
          SameValue (.dict scenario) (.dict scenario') ∧
            SameValue (.dict revision) (.dict revision') ∧
            SameValue (.dict head) (.dict head')) ∧
        ∀ scenario' path' revision' head', SameValue (.dict scenario) (.dict scenario') →
          SameValue (.dict revision) (.dict revision') → SameValue (.dict head) (.dict head') →
          ∃ loaded revisionArguments headArguments revisionId headId stableKey,
            After (resume script scenario' path')
              [readEvent content, commandEvent revisionArguments revision',
                commandEvent headArguments head']
              (resumeUnchanged script scenario' loaded revisionId headId stableKey)) := by
  refine ⟨fun x y t u hx hy ht hu => dumps_eq_iff hx.wellFormed hy.wellFormed ht hu, ?_⟩
  intro scenario sourceTaskId path es state ht
  obtain ⟨content, r, taught, review, task, selection, use, a, hreturned⟩ := prepare_returned ht
  obtain ⟨loaded, hloads, hrecorded⟩ := prepare_recorded hreturned
  have hall := hreturned.responses
  obtain ⟨key, hashes, before, used, -, hreviewed, -, -, hes⟩ := hreturned.gathered
  refine ⟨content, r.revision, r.head, ?_, by simp [hall], by simp [hall], fun hrecords => ?_⟩
  · rw [hes]
    simp [List.getLast?_cons, List.getLast?_append]
  have hscenario := (hrecords scenario (by simp)).wellFormed
  have hrevision := (hrecords r.revision (by simp)).wellFormed
  have hhead := (hrecords r.head (by simp)).wellFormed
  constructor
  · intro scenario' path' past q revision' head' hafter hlength hq hread htake hdecoded hfree
    obtain ⟨state', revision'', head'', revisionId, headId, stableKey, start, rest, rfl, hpassed,
      -⟩ := after_resume hq (.inl hlength) hafter
    obtain ⟨content', hloads', rfl⟩ := hpassed.events
    obtain rfl : content' = content := by simpa [readEvent] using hread
    obtain rfl : state' = loaded := by simpa [hloads] using hloads'.symm
    obtain ⟨rfl, rfl⟩ : revision'' = revision' ∧ head'' = head' := by
      simpa [replies, List.filterMap_cons, readEvent, commandEvent, Event.reply] using htake
    refine hrecorded.same hfree (fun x hx => ?_) hpassed
    simp only [List.mem_cons, List.not_mem_nil, or_false] at hx
    obtain rfl | rfl | rfl | rfl | rfl | rfl := hx
    · exact hscenario
    · exact hrevision
    · exact hhead
    · exact (hdecoded _ (by simp)).wellFormed
    · exact (hdecoded _ (by simp)).wellFormed
    · exact (hdecoded _ (by simp)).wellFormed
  · intro scenario' path' revision' head' hsameScenario hsameRevision hsameHead
    obtain ⟨revisionArguments, headArguments, headId, stableKey, hafter⟩ :=
      hrecorded.passes path' hloads hreviewed.active hscenario hrevision hhead
        hsameScenario hsameRevision hsameHead
    exact ⟨loaded, revisionArguments, headArguments, _, headId, stableKey, hafter⟩

/-! ### The sample with its scenario reordered -/

/-- A dictionary of texts without surrogates is decoded from its members in their order. -/
theorem decoded_texts (limits : Limits) {ms : List (Str × Str)} (hms : ms ≠ [])
    (hkeys : (ms.map Prod.fst).Nodup) (h : ∀ m ∈ ms, m.1.Encodable ∧ m.2.Encodable) :
    Decoded (F := F) limits (.dict (ms.map fun m => (m.1, .str m.2))) := by
  have hreread {t : Str} (ht : t.Encodable) : Json.reread true t = t :=
    Json.reread_of_noSplitPair (Json.noSplitPair_of_encodable ht)
  have hmembers := Json.members_joinTexts Prod.fst (Json.Layout.compact true) Json.ws_nil
    Json.ws_nil hms fun m _ =>
      Json.value_encode (Json.Layout.compact true) 0 (Data.str (F := F) m.2)
  have htree : (ms.map fun m => (Json.reread (Json.Layout.compact true).ensureAscii m.1,
      Json.printedTree (Json.Layout.compact true) (Data.str (F := F) m.2))) =
      ms.map fun m => (m.1, Json.Tree.string m.2) :=
    List.map_congr_left fun m hm => by
      simp [Json.Layout.compact, Json.printedTree, hreread (h m hm).1, hreread (h m hm).2]
  rw [htree] at hmembers
  have htext : Json.Text _ (.object (ms.map fun m => (m.1, Json.Tree.string m.2))) :=
    ⟨[], _, [], rfl, Json.ws_nil, .object hmembers, Json.ws_nil⟩
  have hstrings : (Json.Tree.object (ms.map fun m => (m.1, Json.Tree.string m.2))).AllStrings
      Str.Encodable := by
    rw [Json.Tree.AllStrings]
    clear hms hkeys hmembers htree htext
    induction ms with
    | nil => trivial
    | cons m ms ih =>
      obtain ⟨hm, hrest⟩ := List.forall_mem_cons.mp h
      exact ⟨hm.1, hm.2, ih hrest⟩
  have hdepth : (Json.Tree.object (ms.map fun m => (m.1, Json.Tree.string m.2))).depth ≤
      limits.nesting := by
    have hnone : Json.depthMembers (ms.map fun m => (m.1, Json.Tree.string m.2)) ≤ 0 :=
      depthMembers_le fun p hp => by
        obtain ⟨m, -, rfl⟩ := List.mem_map.mp hp
        simp [Json.Tree.depth]
    have hpos := limits.nesting_pos
    rw [Json.Tree.depth]
    omega
  have hfold : Json.foldMembers (dataHooks (F := F) limits)
      (ms.map fun m => (m.1, Json.Tree.string m.2)) = .ok (ms.map fun m => (m.1, .str m.2)) :=
    foldMembers_map Prod.fst fun _ _ => rfl
  have hnodup : ((ms.map fun m => (m.1, (Data.str m.2 : Data F))).map Prod.fst).Nodup := by
    simpa [Function.comp_def] using hkeys
  refine decoded_of_jsonLoads (htext.encodable hstrings) ?_
  rw [jsonLoads, Json.loads_complete _ htext hdepth, Json.Tree.fold, hfold]
  simp [dataHooks, Json.ofHook, dictOfPairs_of_nodup hnodup]

/-- An object whose members are ASCII texts is decoded. -/
theorem decoded_textObject (limits : Limits) {members : List (String × String)}
    (hne : members ≠ []) (hkeys : (members.map fun m => lit m.1).Nodup)
    (h : ∀ m ∈ members, (lit m.1).Encodable ∧ (lit m.2).Encodable) :
    Decoded (F := F) limits (.dict (textObject members)) := by
  have hdecoded : Decoded (F := F) limits (.dict ((members.map fun m => (lit m.1, lit m.2)).map
      fun m => (m.1, .str m.2))) := by
    refine decoded_texts limits (by simpa using hne) (by simpa [Function.comp_def] using hkeys) ?_
    intro m hm
    obtain ⟨n, hn, rfl⟩ := List.mem_map.mp hm
    exact h n hn
  rw [List.map_map] at hdecoded
  exact hdecoded

/-- The scenario of the sample with its members in the other order. -/
def reorderedScenario : Object Unit := textObject
  [("post_retirement_use_prompt", "never"), ("retire_rationale", "done"),
    ("restart_use_prompt", "again"), ("fresh_use_prompt", "ask"), ("base_recipe", "recipe"),
    ("intent", "aim"), ("description", "text"), ("name", "name"), ("stable_key", "key")]

/-- The digests of the sample have no collision. -/
theorem sample_collisionFree : CollisionFree sampleScript [.dict sampleScenario,
    .dict sampleRevision, .dict sampleHead, .dict reorderedScenario, .dict sampleRevision,
    .dict sampleHead] := by
  have hchecked : ∀ x ∈ [sampleScenario, sampleRevision, sampleHead, reorderedScenario],
      ∀ y ∈ [sampleScenario, sampleRevision, sampleHead, reorderedScenario],
      ((Data.dict x).dumps asciiInterpreter (Json.Layout.compact true)).map
          (fun t => sampleSha256 (asciiBytes t)) =
        ((Data.dict y).dumps asciiInterpreter (Json.Layout.compact true)).map
          (fun t => sampleSha256 (asciiBytes t)) →
      (Data.dict x).dumps asciiInterpreter (Json.Layout.compact true) =
        (Data.dict y).dumps asciiInterpreter (Json.Layout.compact true) := by decide +kernel
  intro x hx y hy t u ht hu hsha
  have hobject {x : Data Unit} (hx : x ∈ [Data.dict sampleScenario, .dict sampleRevision,
      .dict sampleHead, .dict reorderedScenario, .dict sampleRevision, .dict sampleHead]) :
      ∃ ms ∈ [sampleScenario, sampleRevision, sampleHead, reorderedScenario], x = .dict ms := by
    simp only [List.mem_cons, List.not_mem_nil, or_false] at hx
    obtain rfl | rfl | rfl | rfl | rfl | rfl := hx
    all_goals exact ⟨_, by simp, rfl⟩
  obtain ⟨ms, hms, rfl⟩ := hobject hx
  obtain ⟨ns, hns, rfl⟩ := hobject hy
  have hsame := hchecked ms hms ns hns
  have ht' : (Data.dict ms).dumps asciiInterpreter (Json.Layout.compact true) = .ok t := ht
  have hu' : (Data.dict ns).dumps asciiInterpreter (Json.Layout.compact true) = .ok u := hu
  rw [ht', hu'] at hsame
  exact Except.ok.inj (hsame (congrArg Except.ok hsha))

/-- The values of the sample could have been decoded. -/
theorem sample_decoded : ∀ x ∈ [sampleScenario, reorderedScenario, sampleRevision, sampleHead],
    Decoded asciiInterpreter.limits (.dict x) := by
  have hdecoded {members : List (String × String)} (hne : members ≠ [])
      (hkeys : (members.map fun m => lit m.1).Nodup)
      (h : ∀ m ∈ members, (lit m.1).Encodable ∧ (lit m.2).Encodable) :
      Decoded (F := Unit) asciiInterpreter.limits (.dict (textObject members)) :=
    decoded_textObject _ hne hkeys h
  simp only [List.forall_mem_cons, List.not_mem_nil, false_imp_iff, implies_true, and_true]
  refine ⟨hdecoded ?_ ?_ ?_, hdecoded ?_ ?_ ?_, hdecoded ?_ ?_ ?_, hdecoded ?_ ?_ ?_⟩
  all_goals decide +kernel

/-- The sample fetches its revision and its head. -/
theorem samplePrepared_fetches : (replies samplePrepared)[4]? = some sampleRevision ∧
    (replies samplePrepared)[5]? = some sampleHead := by
  have hfetched {x : Option (Object Unit)} {y : Object Unit}
      (h : x.any (fun ms => alikeMembers ms y) = true) : x = some y := by
    obtain ⟨ms, rfl, hms⟩ := (Option.any_eq_true _ _).mp h
    rw [eq_of_alikeMembers hms]
  have hreplies : (replies samplePrepared)[4]?.any (fun ms => alikeMembers ms sampleRevision) =
      true ∧ (replies samplePrepared)[5]?.any (fun ms => alikeMembers ms sampleHead) = true := by
    decide +kernel
  exact ⟨hfetched hreplies.1, hfetched hreplies.2⟩

/-- The reordered scenario passes the gates of the sample, and they prove that it is the
same value. -/
theorem reorderedScenario_passes : ∃ content loaded revisionArguments headArguments revisionId
    headId stableKey, After (resume sampleScript reorderedScenario (lit "state"))
      [readEvent content, commandEvent revisionArguments sampleRevision,
        commandEvent headArguments sampleHead]
      (resumeUnchanged sampleScript reorderedScenario loaded revisionId headId stableKey) ∧
    SameValue (.dict sampleScenario) (.dict reorderedScenario) := by
  have hrun := samplePrepared_trace
  obtain ⟨state, hstate⟩ := Outcome.exists_result sampleJourney_returns.2.2.1
  rw [hstate] at hrun
  obtain ⟨content, revision, head, -, hrevision, hhead, hgate⟩ :=
    (restart_gate sampleScript).2 sampleScenario (lit "task") (lit "state") samplePrepared state
      hrun
  obtain ⟨hfetchedRevision, hfetchedHead⟩ := samplePrepared_fetches
  obtain rfl : sampleRevision = revision :=
    Option.some.inj (hfetchedRevision.symm.trans hrevision)
  obtain rfl : sampleHead = head := Option.some.inj (hfetchedHead.symm.trans hhead)
  have hdecoded {xs : List (Object Unit)}
      (h : xs ⊆ [sampleScenario, reorderedScenario, sampleRevision, sampleHead]) :
      ∀ x ∈ xs, Decoded asciiInterpreter.limits (.dict x) := fun x hx => sample_decoded x (h hx)
  obtain ⟨honly, hevery⟩ := hgate (hdecoded (by simp))
  have hpermuted : SameValue (.dict sampleScenario) (.dict reorderedScenario) :=
    .dict (sameMembers_of_perm (List.Perm.map _ (by decide)) (by decide +kernel))
  obtain ⟨loaded, revisionArguments, headArguments, revisionId, headId, stableKey, hafter⟩ :=
    hevery reorderedScenario (lit "state") sampleRevision sampleHead hpermuted (sameValue_refl _)
      (sameValue_refl _)
  -- The next command of `resume` is a use, so that it has not failed.
  have harguments : useArguments sampleScript stableKey
      (get reorderedScenario (lit "restart_use_prompt")) "restart use prompt is missing" =
      .ok [lit "cognition", lit "use", stableKey, lit "again"] :=
    useArguments_eq_ok.mpr ⟨lit "again", by decide +kernel, rfl⟩
  have hgoes : ∀ e, resumeUnchanged sampleScript reorderedScenario loaded revisionId headId
      stableKey ≠ .fail e := by
    intro e h
    unfold resumeUnchanged useAndInspect at h
    rw [harguments] at h
    cases h
  obtain ⟨hsame, -⟩ := honly reorderedScenario (lit "state") _ _ sampleRevision sampleHead hafter
    (by simp) hgoes rfl rfl (hdecoded (by simp)) sample_collisionFree
  exact ⟨content, loaded, revisionArguments, headArguments, revisionId, headId, stableKey, hafter,
    hsame⟩

end MarketIntelligence.Journey
