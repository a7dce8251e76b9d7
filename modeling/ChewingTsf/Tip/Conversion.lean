import ChewingTsf.Tip.KeyCalls

/-!
# Simplified Chinese output

With `output_simp_chinese` on, what the editor commits and the text of a text
binding are to be converted. `set_composition_string` converts what it is given;
`insert_text`, which `on_keydown` calls while nothing is composed, does not. While
something is composed, the two texts are joined first and converted as one; and a
commit that `update_preedit` has no composition for is dropped.
-/

namespace ChewingTsf

open ChewingEditor

section Conversion

variable {E : Type} {zhconv : Str → Str} {t : Tip E}

/-- Texts that are committed together, and the calls that edit the document for them. -/
structure TextDelivery where
  texts : List Str
  calls : List EditCall
  deriving DecidableEq

/-- What is handed over is each of the texts, converted if output is simplified and as it is if
not. -/
def TextDelivery.Converts (zhconv : Str → Str) (t : Tip E) (d : TextDelivery) : Prop :=
  d.texts ≠ [] →
    (d.calls.filterMap (EditCall.handed? zhconv t)).flatten
      = (d.texts.map (t.converted zhconv)).flatten

/-- A text that is inserted is handed over as it is. -/
theorem converts_insertText_iff (text : Str) :
    TextDelivery.Converts zhconv t ⟨[text], [.insertText text]⟩
      ↔ (t.outputSimpChinese = true → zhconv text = text) := by
  have hhanded : ([EditCall.insertText text].filterMap (EditCall.handed? zhconv t)).flatten
      = text := List.append_nil _
  have htext : ([text].map (t.converted zhconv)).flatten
      = if t.outputSimpChinese then zhconv text else text := List.append_nil _
  unfold TextDelivery.Converts
  rw [hhanded, htext]
  cases t.outputSimpChinese with
  | false => exact iff_of_true (fun _ => rfl) nofun
  | true => exact ⟨fun h _ => (h (List.cons_ne_nil _ _)).symm, fun h _ => (h rfl).symm⟩

namespace Tip

section Deliveries

variable [ChewingEditor E]

/-- `update_preedit` calls `set_composition_string`. -/
def SetsComposition (u : Tip E) : Prop := preedit u.chewingEditor ≠ [] ∨ u.isComposing = true

instance (u : Tip E) : Decidable u.SetsComposition := inferInstanceAs (Decidable (_ ∨ _))

/-- It hands the commit over once, or drops it. -/
theorem handed_updatePreeditCalls (zhconv : Str → Str) (t : Tip E) (commit : Str) (u : Tip E) :
    (u.updatePreeditCalls commit).filterMap (EditCall.handed? zhconv t)
      = if u.SetsComposition then [t.converted zhconv commit] else [] := by
  by_cases hbuf : preedit u.chewingEditor = []
  · have hended : (if u.candidateList.isNone then [EditCall.endComposition] else []).filterMap
        (EditCall.handed? zhconv t) = [] := by
      split <;> rfl
    rw [updatePreeditCalls_of_nil hbuf, List.filterMap_append, hended, List.append_nil]
    by_cases hcomposing : u.isComposing = true
    · have hsets : u.SetsComposition := .inr hcomposing
      rw [if_pos hcomposing, if_pos hsets]
      rfl
    · have hsets : ¬ u.SetsComposition := fun h => h.elim (absurd hbuf) hcomposing
      rw [if_neg hcomposing, if_neg hsets]
      rfl
  · have hsets : u.SetsComposition := .inl hbuf
    obtain ⟨segments, cursor, heq⟩ := updatePreeditCalls_of_ne hbuf commit
    rw [heq, if_pos hsets]
    rfl

/-- The texts that a key commits by `update_preedit`: what the editor commits, and the text of a
text binding. -/
def takenTexts (env : CandidateEnv) (textAction : Option Str) (v : Tip E) : List Str :=
  if lastKeyBehavior v.chewingEditor = .commit then
    displayCommit (v.updateCandidates env).2.chewingEditor :: textAction.toList
  else []

/-- They are the commit string. -/
theorem flatten_takenTexts (env : CandidateEnv) (textAction : Option Str) (v : Tip E) :
    (v.takenTexts env textAction).flatten = (v.updateInput env textAction).1 := by
  unfold takenTexts updateInput takeCommit
  split
  · cases textAction with
    | none => rfl
    | some param => exact congrArg _ (List.append_nil param)
  · rfl

/-- The calls of `deliverKeyCalls`, with the texts that they commit. -/
def deliveries (env : CandidateEnv) (textAction : Option Str) (v : Tip E) : List TextDelivery :=
  if lastKeyBehavior v.chewingEditor = .ignore then []
  else if v.Direct textAction then
    (displayCommit v.chewingEditor :: textAction.toList).map fun text =>
      ⟨[text], [.insertText text]⟩
  else if v.CandidatesPanic env then []
  else
    [⟨v.takenTexts env textAction,
      (v.updateInput env textAction).2.updatePreeditCalls (v.updateInput env textAction).1⟩]

theorem flatMap_calls_deliveries (env : CandidateEnv) (textAction : Option Str) (v : Tip E) :
    (v.deliveries env textAction).flatMap TextDelivery.calls
      = v.deliverKeyCalls env textAction := by
  unfold deliveries deliverKeyCalls insertCommitCalls
  split
  · rfl
  · split
    · cases textAction with
      | none => rfl
      | some param => rfl
    · split
      · rfl
      · exact List.append_nil _

/-- The key is delivered by `insert_text`. -/
def DeliversDirectly (textAction : Option Str) (v : Tip E) : Prop :=
  lastKeyBehavior v.chewingEditor ≠ .ignore ∧ v.Direct textAction

/-- The key is delivered by `update_preedit`. -/
def DeliversComposed (env : CandidateEnv) (textAction : Option Str) (v : Tip E) : Prop :=
  lastKeyBehavior v.chewingEditor = .commit ∧ ¬ v.Direct textAction ∧ ¬ v.CandidatesPanic env

/-- The texts that are inserted directly are their own conversions. -/
def InsertsFixed (zhconv : Str → Str) (textAction : Option Str) (v : Tip E) : Prop :=
  zhconv (displayCommit v.chewingEditor) = displayCommit v.chewingEditor ∧
    ∀ param ∈ textAction, zhconv param = param

/-- A text binding's text is converted behind the commit as it is alone. -/
def JoinsFixed (zhconv : Str → Str) (env : CandidateEnv) (textAction : Option Str) (v : Tip E) :
    Prop :=
  ∀ param ∈ textAction,
    zhconv (displayCommit (v.updateCandidates env).2.chewingEditor ++ param)
      = zhconv (displayCommit (v.updateCandidates env).2.chewingEditor) ++ zhconv param

theorem converts_inserts_iff (textAction : Option Str) (v : Tip E) :
    (∀ text ∈ displayCommit v.chewingEditor :: textAction.toList,
        TextDelivery.Converts zhconv t ⟨[text], [.insertText text]⟩)
      ↔ (t.outputSimpChinese = true → v.InsertsFixed zhconv textAction) := by
  unfold InsertsFixed
  rw [List.forall_mem_cons, converts_insertText_iff]
  cases textAction with
  | none => simp
  | some param =>
    rw [show (some param).toList = [param] from rfl, List.forall_mem_singleton,
      converts_insertText_iff, ← imp_and]
    simp

/-- The texts of a commit that is composed are converted together. -/
theorem joinsFixed_iff {env : CandidateEnv} {textAction : Option Str} {v : Tip E}
    (hcommit : lastKeyBehavior v.chewingEditor = .commit) :
    t.converted zhconv (v.takenTexts env textAction).flatten
        = ((v.takenTexts env textAction).map (t.converted zhconv)).flatten
      ↔ (t.outputSimpChinese = true → v.JoinsFixed zhconv env textAction) := by
  unfold JoinsFixed takenTexts converted
  rw [if_pos hcommit]
  cases t.outputSimpChinese with
  | false => exact iff_of_true (by simp) nofun
  | true =>
    cases textAction with
    | none => simp
    | some param => simp

/-- What `update_preedit` hands over for a commit. -/
theorem converts_updatePreeditCalls_iff {env : CandidateEnv} {textAction : Option Str} {v : Tip E}
    (hcommit : lastKeyBehavior v.chewingEditor = .commit) (u : Tip E) :
    TextDelivery.Converts zhconv t ⟨v.takenTexts env textAction,
        u.updatePreeditCalls (v.takenTexts env textAction).flatten⟩
      ↔ (u.SetsComposition → t.outputSimpChinese = true → v.JoinsFixed zhconv env textAction) ∧
        (¬ u.SetsComposition →
          ∀ text ∈ v.takenTexts env textAction, t.converted zhconv text = []) := by
  have hne : v.takenTexts env textAction ≠ [] := by
    rw [takenTexts, if_pos hcommit]
    exact List.cons_ne_nil _ _
  unfold TextDelivery.Converts
  dsimp only
  rw [handed_updatePreeditCalls]
  by_cases hsets : u.SetsComposition
  · rw [if_pos hsets, List.flatten_singleton, joinsFixed_iff hcommit]
    exact ⟨fun h => ⟨fun _ => h hne, fun hdrops => absurd hsets hdrops⟩, fun h _ => h.1 hsets⟩
  · -- the commit is dropped, as only an empty one may be
    rw [if_neg hsets, List.flatten_nil, eq_comm, List.flatten_eq_nil_iff, List.forall_mem_map]
    exact ⟨fun h => ⟨fun hnot => absurd hnot hsets, fun _ => h hne⟩, fun h _ => h.2 hsets⟩

/-- The condition under which a key is delivered as it is to be. -/
structure DeliversAlike (zhconv : Str → Str) (env : CandidateEnv) (t : Tip E)
    (textAction : Option Str) (v : Tip E) : Prop where
  direct : v.DeliversDirectly textAction → t.outputSimpChinese = true →
    v.InsertsFixed zhconv textAction
  joined : v.DeliversComposed env textAction → (v.updateInput env textAction).2.SetsComposition →
    t.outputSimpChinese = true → v.JoinsFixed zhconv env textAction
  dropped : v.DeliversComposed env textAction →
    ¬ (v.updateInput env textAction).2.SetsComposition →
      ∀ text ∈ v.takenTexts env textAction, t.converted zhconv text = []

theorem converts_deliveries_iff (env : CandidateEnv) (textAction : Option Str) (v : Tip E) :
    (∀ d ∈ v.deliveries env textAction, d.Converts zhconv t)
      ↔ DeliversAlike zhconv env t textAction v := by
  unfold deliveries
  by_cases hignore : lastKeyBehavior v.chewingEditor = .ignore
  · have hnot : ¬ v.DeliversComposed env textAction := by
      rintro ⟨hcommit, -⟩
      rw [hignore] at hcommit
      cases hcommit
    rw [if_pos hignore]
    exact iff_of_true nofun ⟨fun hdirectly => absurd hignore hdirectly.1,
      fun hcomposed => absurd hcomposed hnot, fun hcomposed => absurd hcomposed hnot⟩
  · rw [if_neg hignore]
    by_cases hdirect : v.Direct textAction
    · -- each text is inserted by a call of its own
      rw [if_pos hdirect, List.forall_mem_map, converts_inserts_iff]
      exact ⟨fun h => ⟨fun _ => h, fun hcomposed => absurd hdirect hcomposed.2.1,
        fun hcomposed => absurd hdirect hcomposed.2.1⟩, fun h => h.direct ⟨hignore, hdirect⟩⟩
    · rw [if_neg hdirect]
      by_cases hpanic : v.CandidatesPanic env
      · rw [if_pos hpanic]
        exact iff_of_true nofun ⟨fun hdirectly => absurd hdirectly.2 hdirect,
          fun hcomposed => absurd hpanic hcomposed.2.2,
          fun hcomposed => absurd hpanic hcomposed.2.2⟩
      · rw [if_neg hpanic, List.forall_mem_singleton, ← flatten_takenTexts]
        by_cases hcommit : lastKeyBehavior v.chewingEditor = .commit
        · rw [converts_updatePreeditCalls_iff hcommit]
          exact ⟨fun h => ⟨fun hdirectly => absurd hdirectly.2 hdirect, fun _ => h.1, fun _ => h.2⟩,
            fun h => ⟨h.joined ⟨hcommit, hdirect, hpanic⟩, h.dropped ⟨hcommit, hdirect, hpanic⟩⟩⟩
        · -- nothing is committed
          have hnone : v.takenTexts env textAction = [] := if_neg hcommit
          exact iff_of_true (fun hne => absurd hnone hne)
            ⟨fun hdirectly => absurd hdirectly.2 hdirect,
              fun hcomposed => absurd hcomposed.1 hcommit,
              fun hcomposed => absurd hcomposed.1 hcommit⟩

end Deliveries

variable [EditorCommands E] [KeyCodes]

/-- What `on_keydown` delivers. -/
def onKeydownDeliveries (env : KeydownEnv) (ev : Int → KeyboardEvent) (t : Tip E) :
    List TextDelivery :=
  match t.beforeDelivery env ev with
  | none => []
  | some (textAction, v) => v.deliveries env.candidates textAction

/-- It makes no other calls. -/
theorem flatMap_calls_onKeydownDeliveries (env : KeydownEnv) (ev : Int → KeyboardEvent)
    (t : Tip E) :
    (t.onKeydownDeliveries env ev).flatMap TextDelivery.calls = t.onKeydownCalls env ev := by
  unfold onKeydownDeliveries onKeydownCalls
  cases t.beforeDelivery env ev with
  | none => rfl
  | some p => exact flatMap_calls_deliveries env.candidates p.1 p.2

/-- **Both ways of delivery convert alike** exactly when, with output simplified, what is inserted
directly is its own conversion and a text that is joined to a commit is converted as it is alone,
and no commit is dropped. -/
theorem onKeydown_converts_iff (zhconv : Str → Str) (env : KeydownEnv)
    (ev : Int → KeyboardEvent) (t : Tip E) :
    (∀ d ∈ t.onKeydownDeliveries env ev, d.Converts zhconv t)
      ↔ ∀ textAction v, t.beforeDelivery env ev = some (textAction, v) →
          DeliversAlike zhconv env.candidates t textAction v := by
  unfold onKeydownDeliveries
  cases t.beforeDelivery env ev with
  | none => exact iff_of_true nofun fun _ _ => nofun
  | some p =>
    obtain ⟨textAction, v⟩ := p
    rw [converts_deliveries_iff]
    constructor
    · rintro h textAction' v' heq
      cases heq
      exact h
    · intro h
      exact h textAction v rfl

end Tip

end Conversion

section

open TypedEditor SymbolEditor

/-- Output is simplified, and a text binding is pressed while nothing is composed. -/
theorem Tip.insertText_not_converted :
    ¬ ∀ (zhconv : Str → Str) (env : KeydownEnv) (ev : Int → KeyboardEvent)
      (t : Tip SymbolEditor), ∀ d ∈ t.onKeydownDeliveries env ev, d.Converts zhconv t := by
  intro hclaim
  have hdelivers : ⟨["國".toList], [.insertText "國".toList]⟩ ∈
      { (SymbolEditor.activated (textConfig "國".toList)).tip with
        outputSimpChinese := true }.onKeydownDeliveries
        (keydownEnv (textConfig "國".toList)) fun _ => textKey := by decide +kernel
  have h := hclaim (fun s => if s = "國".toList then "国".toList else s) _ _ _ _ hdelivers
  exact absurd (h (List.cons_ne_nil _ _)) (by decide +kernel)

end

end ChewingTsf
