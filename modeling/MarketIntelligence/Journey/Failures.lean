import MarketIntelligence.Journey.Receipts

/-!
# Failures that are about scenario fields

The script requires a scenario field where it builds the command that needs it. Such a
failure is recognised by its message. The computations on responses never fail with one
of these messages, whatever the responses are.
-/

namespace MarketIntelligence.Journey

open Python

variable {F α β : Type}

/-- The messages about scenario fields. -/
def scenarioMessages : List String :=
  ["scenario stable_key is missing", "scenario name is missing",
    "scenario description is missing", "scenario intent is missing",
    "scenario base_recipe is missing", "fresh use prompt is missing",
    "restart use prompt is missing", "retire rationale is missing",
    "post-retirement use prompt is missing"]

/-- A failure because a scenario field is missing or empty. -/
def MissingField (e : Raised JourneyError) : Prop :=
  ∃ message ∈ scenarioMessages, e = .own ⟨lit message⟩

/-- A computation that does not fail in this way. -/
def NeedsNoField (x : Checked α) : Prop := ∀ e, x = .error e → ¬MissingField e

/-! ### Rules -/

/-- A built-in exception is not about a scenario field. -/
theorem not_missingField_builtin {e : BuiltinError} : ¬MissingField (.builtin e) := by
  rintro ⟨message, -, h⟩
  cases h

/-- Nor is another message. -/
theorem not_missingField_own {message : String} (h : message ∉ scenarioMessages) :
    ¬MissingField (.own ⟨lit message⟩) := by
  rintro ⟨other, hother, heq⟩
  obtain rfl : message = other := by simpa using heq
  exact h hother

/-- Nor is a message that begins differently. -/
theorem not_missingField_append {start : String}
    (h : ∀ message ∈ scenarioMessages, (lit message).take (lit start).length ≠ lit start)
    (rest : Str) : ¬MissingField (.own ⟨lit start ++ rest⟩) := by
  rintro ⟨message, hmessage, heq⟩
  have htext : lit start ++ rest = lit message := by simpa using heq
  apply h message hmessage
  rw [← htext, List.take_left]

/-- A result is no failure. -/
theorem needsNoField_ok {a : α} : NeedsNoField (.ok a) := by
  intro e he
  cases he

/-- Another message. -/
theorem needsNoField_error {message : String} (h : message ∉ scenarioMessages) :
    NeedsNoField (journeyError (lit message) : Checked α) := by
  intro e he
  obtain rfl := Except.error.inj he
  exact not_missingField_own h

/-- Built-in operations. -/
theorem needsNoField_ofBuiltin {x : Except BuiltinError α} :
    NeedsNoField (ofBuiltin x : Checked α) := by
  intro e he
  cases x with
  | ok a => cases he
  | error b =>
    obtain rfl := Except.error.inj he
    exact not_missingField_builtin

/-- Sequences. -/
theorem needsNoField_bind {x : Checked α} {f : α → Checked β} (hx : NeedsNoField x)
    (hf : ∀ a, NeedsNoField (f a)) : NeedsNoField (x >>= f) := by
  intro e he
  obtain h | ⟨a, -, h⟩ := bind_eq_error.mp he
  · exact hx e h
  · exact hf a e h

/-- Branches. -/
theorem needsNoField_ite {c : Prop} [Decidable c] {x y : Checked α} (hx : NeedsNoField x)
    (hy : NeedsNoField y) : NeedsNoField (if c then x else y) := by
  split
  · exact hx
  · exact hy

/-- Requiring a value of a response. -/
theorem needsNoField_require {value : Data F} {message : String}
    (h : message ∉ scenarioMessages) : NeedsNoField (require value message) :=
  needsNoField_ite (needsNoField_error h) needsNoField_ok

/-- The text of a value. -/
theorem needsNoField_text {script : Script F} {value : Data F} :
    NeedsNoField (text script value) := needsNoField_ofBuiltin

/-- The text of a required value of a response. -/
theorem needsNoField_requireText {script : Script F} {value : Data F} {message : String}
    (h : message ∉ scenarioMessages) : NeedsNoField (requireText script value message) :=
  needsNoField_bind (needsNoField_require h) fun _ => needsNoField_text

/-- Hashing. -/
theorem needsNoField_hash [PyFloat F] {script : Script F} {value : Data F} :
    NeedsNoField (hash script value) :=
  needsNoField_bind needsNoField_ofBuiltin fun _ => needsNoField_ok

/-! ### The computations on responses -/

/-- The receipt of the review. -/
theorem needsNoField_approvedReceipt (script : Script F) (review : Object F) :
    NeedsNoField (approvedReceipt script review) := by
  apply needsNoField_bind
  · exact needsNoField_require (by simp [scenarioMessages])
  · intro value
    split
    · apply needsNoField_ite
      · exact needsNoField_error (by simp [scenarioMessages])
      · apply needsNoField_bind
        · exact needsNoField_requireText (by simp [scenarioMessages])
        · intro revisionId
          apply needsNoField_bind
          · exact needsNoField_requireText (by simp [scenarioMessages])
          · exact fun _ => needsNoField_ok
    · exact needsNoField_error (by simp [scenarioMessages])

/-- The gates on the approved revision. -/
theorem needsNoField_checkActive (revision head : Object F) (revisionId : Str) :
    NeedsNoField (checkActive revision head revisionId) := by
  apply needsNoField_ite
  · exact needsNoField_error (by simp [scenarioMessages])
  · apply needsNoField_ite
    · exact needsNoField_error (by simp [scenarioMessages])
    · exact needsNoField_ok

/-- The texts of a list. -/
theorem needsNoField_texts (script : Script F) (xs : List (Data F)) :
    NeedsNoField (texts script xs) := by
  induction xs with
  | nil => exact needsNoField_ok
  | cons x xs ih =>
    apply needsNoField_bind
    · exact needsNoField_text
    · intro t
      exact needsNoField_bind ih fun _ => needsNoField_ok

/-- The attribution of a use. -/
theorem needsNoField_useAttribution (script : Script F) (task : Object F) (revisionId : Str) :
    NeedsNoField (useAttribution script task revisionId) := by
  have hattributed (selection use : Object F) :
      NeedsNoField (attributedUse script task selection use revisionId) := by
    apply needsNoField_bind needsNoField_ofBuiltin
    intro items
    apply needsNoField_bind (needsNoField_texts script items)
    intro selected
    apply needsNoField_bind needsNoField_ofBuiltin
    intro items
    apply needsNoField_bind (needsNoField_texts script items)
    intro used
    apply needsNoField_ite
    · exact needsNoField_error (by simp [scenarioMessages])
    · apply needsNoField_ite
      · exact needsNoField_error (by simp [scenarioMessages])
      · apply needsNoField_bind (needsNoField_require (by simp [scenarioMessages]))
        intro taskId
        apply needsNoField_bind (needsNoField_require (by simp [scenarioMessages]))
        intro selectionReceiptId
        apply needsNoField_bind (needsNoField_require (by simp [scenarioMessages]))
        exact fun _ => needsNoField_ok
  unfold useAttribution
  apply needsNoField_ite
  · apply needsNoField_bind needsNoField_text
    intro status e he
    obtain rfl := Except.error.inj he
    exact not_missingField_append (by decide +kernel) status
  · apply needsNoField_bind (needsNoField_require (by simp [scenarioMessages]))
    intro selection
    apply needsNoField_bind (needsNoField_require (by simp [scenarioMessages]))
    intro use
    split
    · exact hattributed _ _
    · exact needsNoField_error (by simp [scenarioMessages])

/-- The inspection of a use. -/
theorem needsNoField_inspectedHashes [PyFloat F] (script : Script F) (a : Attribution F)
    (selection use : Object F) : NeedsNoField (inspectedHashes script a selection use) := by
  have hselected (receipt : Object F) {message : String} (h : message ∉ scenarioMessages) :
      NeedsNoField (checkSelected script receipt a message) := by
    apply needsNoField_bind needsNoField_ofBuiltin
    intro items
    exact needsNoField_ite needsNoField_ok (needsNoField_error h)
  apply needsNoField_bind (hselected selection (by simp [scenarioMessages]))
  intro _
  apply needsNoField_bind (hselected use (by simp [scenarioMessages]))
  intro _
  apply needsNoField_ite
  · exact needsNoField_error (by simp [scenarioMessages])
  · apply needsNoField_bind needsNoField_hash
    intro selectionHash
    exact needsNoField_bind needsNoField_hash fun _ => needsNoField_ok

/-- The prepared state. -/
theorem needsNoField_preparedState [PyFloat F] (script : Script F) (scenario : Object F)
    (sourceTaskId key : Str) (reviewed : Reviewed F) (firstUse : Data F) :
    NeedsNoField (preparedState script scenario sourceTaskId key reviewed firstUse) := by
  apply needsNoField_bind needsNoField_hash
  intro scenarioHash
  apply needsNoField_bind (needsNoField_require (by simp [scenarioMessages]))
  intro proposalHash
  apply needsNoField_bind needsNoField_hash
  intro inspectionHash
  apply needsNoField_bind needsNoField_hash
  intro semanticDiffHash
  apply needsNoField_bind (needsNoField_require (by simp [scenarioMessages]))
  intro receiptId
  apply needsNoField_bind needsNoField_hash
  intro receiptHash
  apply needsNoField_bind needsNoField_hash
  intro revisionHash
  apply needsNoField_bind (needsNoField_require (by simp [scenarioMessages]))
  intro generation
  apply needsNoField_bind needsNoField_ofBuiltin
  intro number
  exact needsNoField_bind needsNoField_hash fun _ => needsNoField_ok

/-- The text of a receipt. -/
theorem needsNoField_receiptText [PyFloat F] (script : Script F) (receipt : Object F) :
    NeedsNoField (receiptText script receipt) :=
  needsNoField_bind needsNoField_ofBuiltin fun _ => needsNoField_ok

/-- The receipt of the retirement. -/
theorem needsNoField_retiredReceipt (lifecycle : Object F) :
    NeedsNoField (retiredReceipt lifecycle) := by
  apply needsNoField_bind (needsNoField_require (by simp [scenarioMessages]))
  intro value
  split
  · exact needsNoField_ite (needsNoField_error (by simp [scenarioMessages])) needsNoField_ok
  · exact needsNoField_error (by simp [scenarioMessages])

/-- The gate on the retired head. -/
theorem needsNoField_checkRetired (head : Object F) : NeedsNoField (checkRetired head) :=
  needsNoField_ite (needsNoField_error (by simp [scenarioMessages])) needsNoField_ok

/-- The gate on the failed use. -/
theorem needsNoField_checkFailure (failure : Str) : NeedsNoField (checkFailure failure) :=
  needsNoField_ite needsNoField_ok (needsNoField_error (by simp [scenarioMessages]))

/-- The members of the complete state. -/
theorem needsNoField_completion [PyFloat F] (script : Script F) (restartUse : Data F)
    (lifecycleReceipt retiredHead : Object F) (failure : Str) :
    NeedsNoField (completion script restartUse lifecycleReceipt retiredHead failure) := by
  apply needsNoField_bind (needsNoField_require (by simp [scenarioMessages]))
  intro receiptId
  apply needsNoField_bind needsNoField_hash
  intro receiptHash
  exact needsNoField_bind needsNoField_hash fun _ => needsNoField_ok

/-- A prompt that is required for a use fails with its own message only if it is missing. -/
theorem useArguments_missingField {script : Script F} {key : Str} {prompt : Data F}
    {message : String} {e : Raised JourneyError}
    (h : useArguments script key prompt message = .error e) (he : MissingField e) :
    prompt.isMissing = true := by
  by_contra hthere
  have hpresent : prompt.isMissing = false := by simpa using hthere
  have hrequired : useArguments script key prompt message = (do
      return [lit "cognition", lit "use", key, ← text script prompt]) := by
    simp [useArguments, requireText, require, hpresent]
  rw [hrequired] at h
  exact needsNoField_bind needsNoField_text (fun _ => needsNoField_ok) e h he

end MarketIntelligence.Journey
