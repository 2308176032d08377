import MarketIntelligence.Journey.Completion
import MarketIntelligence.Python.Faithful

/-!
# Receipts in files

`_write_new` and `_replace` print a receipt with ASCII escapes and sorted keys, and
`_load_object` reads it back. What is read back is the receipt that was written exactly if no
string in it has a surrogate pair in two halves, which one escape sequence cannot tell from the
character; and then the file is a function of the receipt, and the receipt one of the file.
-/

namespace MarketIntelligence.Journey

open Python Interaction

variable {F : Type} [PyFloat F]

/-- A receipt that was written is loaded as the receipt that is read back from it. -/
theorem loadObject_receiptText {script : Script F} {state : Object F} {content : Str} (path : Str)
    (h : receiptText script state = .ok content) :
    loadObject script path (.ok content) = .ok (Data.reloadedDict true state) :=
  loadObject_eq_ok.mpr ⟨content, rfl, receiptText_loads h⟩

omit [PyFloat F] in
/-- It is the same receipt exactly if that one is well formed. -/
theorem same_reloadedDict_iff {state : Object F} :
    SameValue (.dict state) (.dict (Data.reloadedDict true state)) ↔
      (Data.dict state).WellFormed := by
  rw [← reloaded_dict]
  exact same_reloaded_iff

/-- Same receipts have the same text. -/
theorem receiptText_same {script : Script F} {state other : Object F} {content : Str}
    (hsame : SameValue (.dict state) (.dict other)) (hstate : (Data.dict state).WellFormed)
    (h : receiptText script state = .ok content) : receiptText script other = .ok content := by
  obtain ⟨printed, hprinted, rfl⟩ := receiptText_eq_ok.mp h
  obtain ⟨_, hfits, htext⟩ := bind_eq_ok.mp hprinted
  obtain rfl := Except.ok.inj htext
  refine receiptText_eq_ok.mpr ⟨_, bind_eq_ok.mpr ⟨(), ?_, rfl⟩, ?_⟩
  · exact fits_same script.py.limits _ hsame hfits
  · rw [encode_same Json.Layout.indented 0 hsame hstate]

/-- Well-formed receipts have the same text exactly if they are the same. -/
theorem receiptText_eq_iff {script : Script F} {state other : Object F} {content content' : Str}
    (hstate : (Data.dict state).WellFormed) (hother : (Data.dict other).WellFormed)
    (h : receiptText script state = .ok content) (h' : receiptText script other = .ok content') :
    content = content' ↔ SameValue (.dict state) (.dict other) := by
  constructor
  · rintro rfl
    obtain ⟨printed, hprinted, rfl⟩ := receiptText_eq_ok.mp h
    obtain ⟨printed', hprinted', hsame⟩ := receiptText_eq_ok.mp h'
    obtain rfl := List.append_cancel_right hsame
    obtain ⟨_, -, htext⟩ := bind_eq_ok.mp hprinted
    obtain ⟨_, -, htext'⟩ := bind_eq_ok.mp hprinted'
    exact (encode_eq_iff _ hstate hother).mp
      ((Except.ok.inj htext).trans (Except.ok.inj htext').symm)
  · intro hsame
    exact Except.ok.inj ((receiptText_same hsame hstate h).symm.trans h')

/-- Every receipt that can be written is loaded again, as the same receipt exactly if it is well
formed, and then writing what was loaded gives the same text. Well-formed receipts have the same
text exactly if they are the same. So what `resume` loads after a `prepare` that returned is what
it returned, and what is in the file after a `resume` that returned is what it returned, exactly
if these are well formed. -/
theorem receipts_faithful (script : Script F) :
    (∀ state content path, receiptText script state = .ok content →
      ∃ loaded, loadObject script path (.ok content) = .ok loaded ∧
        (SameValue (.dict state) (.dict loaded) ↔ (Data.dict state).WellFormed) ∧
        ((Data.dict state).WellFormed → receiptText script loaded = .ok content)) ∧
    (∀ state other content content', (Data.dict state).WellFormed → (Data.dict other).WellFormed →
      receiptText script state = .ok content → receiptText script other = .ok content' →
        (content = content' ↔ SameValue (.dict state) (.dict other))) ∧
    (∀ scenario sourceTaskId path es state,
      Trace (prepare script scenario sourceTaskId path) es (.returned state) →
      ∃ content loaded, es.getLast? = some ⟨.writeState content, some ()⟩ ∧
        loadObject script path (.ok content) = .ok loaded ∧
        (SameValue (.dict state) (.dict loaded) ↔ (Data.dict state).WellFormed)) ∧
    ∀ scenario path es result, Trace (resume script scenario path) es (.returned result) →
      ∃ written loaded, [⟨.writeTemporary written, some ()⟩, ⟨.replaceState, some ()⟩] <:+ es ∧
        loadObject script path (.ok written) = .ok loaded ∧
        (SameValue (.dict result) (.dict loaded) ↔ (Data.dict result).WellFormed) := by
  refine ⟨fun state content path h => ?_, fun state other content content' => receiptText_eq_iff,
    fun scenario sourceTaskId path es state ht => ?_, fun scenario path es result ht => ?_⟩
  · exact ⟨_, loadObject_receiptText path h, same_reloadedDict_iff, fun hwell =>
      receiptText_same (same_reloadedDict_iff.mpr hwell) hwell h⟩
  · obtain ⟨content, r, taught, review, task, selection, use, a, h⟩ := prepare_returned ht
    obtain ⟨key, hashes, before, used, -, -, -, -, rfl⟩ := h.gathered
    exact ⟨content, _, by simp [List.getLast?_cons, List.getLast?_append],
      loadObject_receiptText path h.printed, same_reloadedDict_iff⟩
  · obtain ⟨content, state, c, r, a, hashes, refusal, -, -, h⟩ :=
      (resume_returns_iff script scenario path es result).mp ht
    obtain ⟨used, rationale, prompt, written, -, -, -, hwritten, rfl⟩ := h.events
    refine ⟨written, _, ?_, loadObject_receiptText path hwritten, same_reloadedDict_iff⟩
    exact (List.suffix_append [_, _, _] [_, _]).trans
      ((List.suffix_append used _).trans (List.suffix_append [_, _, _] _))

/-! ### A string in two halves -/

/-- A receipt with the two halves of a surrogate pair, and with the character. -/
def splitReceipt (split : Bool) : Object Unit :=
  [(lit "phase", .str (if split then [Chr.mk 0xD83D (by decide), Chr.mk 0xDE00 (by decide)]
    else [Chr.mk 0x1F600 (by decide)]))]

/-- The text of both. -/
def splitText : Str :=
  Json.encode Json.Layout.indented 0 (.dict (splitReceipt false)) ++ lit "\n"

/-- Both receipts have this text. -/
theorem receiptText_splitReceipt (split : Bool) :
    receiptText sampleScript (splitReceipt split) = .ok splitText := by
  have hfits : (Data.dict (splitReceipt split)).fits sampleScript.py.limits
      sampleScript.py.limits.nesting = .ok () := by
    cases split <;> decide +kernel
  have htext : Json.encode Json.Layout.indented 0 (.dict (splitReceipt split)) =
      Json.encode Json.Layout.indented 0 (.dict (splitReceipt false)) := by
    cases split
    · rfl
    · decide +kernel
  exact receiptText_eq_ok.mpr ⟨_, bind_eq_ok.mpr ⟨(), hfits, rfl⟩, by rw [htext, splitText]⟩

/-- Only the receipt with the character is well formed. -/
theorem wellFormed_splitReceipt :
    (Data.dict (splitReceipt false)).WellFormed ∧ ¬(Data.dict (splitReceipt true)).WellFormed := by
  rw [wellFormed_dict, wellFormed_dict]
  have hkey : Json.NoSplitPair (lit "phase") := by
    unfold Json.NoSplitPair
    decide +kernel
  have hhalves : ¬Json.NoSplitPair [Chr.mk 0xD83D (by decide), Chr.mk 0xDE00 (by decide)] := by
    unfold Json.NoSplitPair
    decide +kernel
  have hwhole : Json.NoSplitPair [Chr.mk 0x1F600 (by decide)] := .singleton _
  constructor
  · simpa [splitReceipt, Data.WellFormed] using ⟨hkey, hwhole⟩
  · rintro ⟨-, hmembers⟩
    exact hhalves (hmembers _ (List.mem_singleton_self _)).2

/-- Of the two receipts with one text, the one with the character is what is loaded. -/
theorem splitReceipts_loaded : ∃ loaded,
    loadObject sampleScript (lit "state") (.ok splitText) = .ok loaded ∧
    SameValue (.dict (splitReceipt false)) (.dict loaded) ∧
    ¬SameValue (.dict (splitReceipt true)) (.dict loaded) := by
  obtain ⟨hwell, hnot⟩ := wellFormed_splitReceipt
  obtain ⟨hfaithful, -⟩ := receipts_faithful sampleScript
  obtain ⟨loaded, hloaded, hsame, -⟩ :=
    hfaithful (splitReceipt false) splitText (lit "state") (receiptText_splitReceipt false)
  obtain ⟨loaded', hloaded', hsame', -⟩ :=
    hfaithful (splitReceipt true) splitText (lit "state") (receiptText_splitReceipt true)
  obtain rfl := Except.ok.inj (hloaded.symm.trans hloaded')
  exact ⟨loaded, hloaded, hsame.mpr hwell, hsame'.not.mpr hnot⟩

end MarketIntelligence.Journey
