import MarketIntelligence.Journey.Containment
import MarketIntelligence.Journey.Runner

/-!
# Commands that can be started

`AceCliRunner` starts a process with texts from the scenario, from the state and from earlier
responses. They are passed on as they are, so that a NUL or a lone surrogate in one of them is
an exception of `subprocess`. With texts that can be passed, every command of the journey can be
started.
-/

namespace MarketIntelligence.Journey

open Python Interaction

variable {F : Type} {script : Script F} {scenario : Object F}

/-- A command that can be started. -/
def Startable : Action → Prop
  | .json arguments | .failure arguments => ∀ argument ∈ arguments, Passable argument
  | _ => True

/-- The fields of the scenario that `prepare` passes on. -/
def prepareTexts : List String :=
  ["stable_key", "name", "description", "intent", "base_recipe", "fresh_use_prompt"]

/-- The fields of the scenario that `resume` passes on. -/
def resumeTexts : List String :=
  ["restart_use_prompt", "retire_rationale", "post_retirement_use_prompt"]

/-- A scenario that meets no limit, with texts that can be passed. -/
structure Usable (script : Script F) (texts : List String) (scenario : Object F) : Prop where
  fits : FitsInside script 0 (.dict scenario)
  passes : ∀ key ∈ texts, Passes script (get scenario (lit key))

/-- The texts of an object can be passed if each of them can be. -/
theorem passes_textObject {members : List (String × String)}
    (h : ∀ m ∈ members, Passable (lit m.2)) (key : Str) :
    Passes script (get (textObject members : Object F) key) := by
  induction members with
  | nil =>
    intro t ht
    have hnone : (Data.none : Data F).toStr script.py = .ok (lit "None") := by
      cases script.py.limits.nesting <;> simp [Data.toStr, Data.fits, Data.repr]
    obtain rfl := Except.ok.inj (hnone.symm.trans ht)
    decide
  | cons m members ih =>
    obtain ⟨hm, hmembers⟩ := List.forall_mem_cons.mp h
    rw [textObject, List.map_cons, get_cons]
    split
    · intro t ht
      obtain rfl := Except.ok.inj ht
      exact hm
    · exact ih hmembers

/-- The words of the commands. -/
def commandWords : List String :=
  ["ace", "--url", "cognition", "teach", "--stable-key", "--name", "--description", "--intent",
    "--base-recipe", "inspect", "diff", "review", "--review-request-id", "market-gc1-approve-v1",
    "--disposition", "approve", "--rationale",
    "Reviewed exact semantic change and source provenance.", "--expected-generation", "0",
    "revision", "head", "use", "selection", "use-receipt", "lifecycle", "market-gc1-retire-v1",
    "--action", "retire"]

/-- They can be passed. -/
theorem passable_words : ∀ word ∈ commandWords, Passable (lit word) := by decide +kernel

/-- A command of such words and of texts that can be passed. -/
theorem passable_of_words {arguments : List Str}
    (h : ∀ argument ∈ arguments, argument ∈ commandWords.map lit ∨ Passable argument) :
    ∀ argument ∈ arguments, Passable argument := by
  intro argument hargument
  obtain hword | hpassable := h argument hargument
  · obtain ⟨word, hmem, rfl⟩ := List.mem_map.mp hword
    exact passable_words word hmem
  · exact hpassable

/-- Where its command can be started, an operation passes the check of the runner. -/
theorem startCommand_eq_ok {url : Str} (hurl : Passable url) {op : Action} (h : Startable op) :
    startCommand url op = .ok () := by
  have hstarts {arguments : List Str} (h : ∀ argument ∈ arguments, Passable argument) :
      (ofBuiltin (passArguments (commandLine url arguments)) : Checked Unit) = .ok () := by
    refine ofBuiltin_eq_ok.mpr (passArguments_eq_ok.mpr (passable_of_words ?_))
    simp only [commandLine, List.forall_mem_cons]
    exact ⟨.inl (by simp [commandWords]), .inl (by simp [commandWords]), .inr hurl,
      fun argument hargument => .inr (h argument hargument)⟩
  cases op with
  | json arguments => exact hstarts h
  | failure arguments => exact hstarts h
  | _ => rfl

/-- A command about one identity. -/
theorem passable_about (verb : String) (hverb : verb ∈ commandWords) {t : Str} (ht : Passable t) :
    ∀ argument ∈ [lit "cognition", lit verb, t], Passable argument := by
  refine passable_of_words ?_
  simp only [List.forall_mem_cons]
  exact ⟨.inl (by simp [commandWords]), .inl (List.mem_map_of_mem hverb), .inr ht, by simp⟩

/-- `teach`. -/
theorem passable_teachArguments {sourceTaskId key : Str} {arguments : List Str}
    (h : Usable script prepareTexts scenario) (htask : Passable sourceTaskId)
    (hkey : Passable key)
    (harguments : teachArguments script scenario sourceTaskId key = .ok arguments) :
    ∀ argument ∈ arguments, Passable argument := by
  obtain ⟨name, description, intent, recipe, hname, hdescription, hintent, hrecipe, rfl⟩ :=
    teachArguments_eq_ok.mp harguments
  have hname := h.passes "name" (by simp [prepareTexts]) name hname.2
  have hdescription :=
    h.passes "description" (by simp [prepareTexts]) description hdescription.2
  have hintent := h.passes "intent" (by simp [prepareTexts]) intent hintent.2
  have hrecipe := h.passes "base_recipe" (by simp [prepareTexts]) recipe hrecipe.2
  refine passable_of_words ?_
  simp [commandWords, htask, hkey, hname, hdescription, hintent, hrecipe]

/-- `review`. -/
theorem passable_reviewArguments {proposalId : Str} (h : Passable proposalId) :
    ∀ argument ∈ reviewArguments proposalId, Passable argument := by
  refine passable_of_words ?_
  simp [reviewArguments, commandWords, h]

/-- `use`. -/
theorem passable_useArguments {key : Str} {prompt : Data F} {message : String}
    {arguments : List Str} (hkey : Passable key) (hprompt : Passes script prompt)
    (harguments : useArguments script key prompt message = .ok arguments) :
    ∀ argument ∈ arguments, Passable argument := by
  obtain ⟨t, ht, rfl⟩ := useArguments_eq_ok.mp harguments
  have ht := hprompt t ht.2
  refine passable_of_words ?_
  simp [commandWords, hkey, ht]

/-- `lifecycle`. -/
theorem passable_retireArguments {state : Object F} {headId : Str} {arguments : List Str}
    (h : Usable script resumeTexts scenario) (hid : Passable headId)
    (hgeneration : Passes script (get state (lit "head_generation")))
    (harguments : retireArguments script scenario state headId = .ok arguments) :
    ∀ argument ∈ arguments, Passable argument := by
  obtain ⟨rationale, generation, hrationale, hnumber, rfl⟩ :=
    retireArguments_eq_ok.mp harguments
  have hrationale := h.passes "retire_rationale" (by simp [resumeTexts]) rationale hrationale.2
  have hnumber := hgeneration generation hnumber.2
  refine passable_of_words ?_
  simp [commandWords, hid, hrationale, hnumber]

end MarketIntelligence.Journey
