import ChewingTsf.Lib.Run
import ChewingTsf.Tip.Settled

/-!
# Typing against a lagging document

A run interleaves handled keys and sessions in any order: `TypingStep` is one
step, with the editor's answer to the key left open (`KeyInput`), and `AsyncStep`
adds language-mode toggles. Every handled key is one of two things
(`deliverKey_cases`): a direct insertion of its text, or an `update_preedit`,
which in turn is one of three (`updatePreedit_cases`).
-/

namespace ChewingTsf

open ChewingEditor

variable {E : Type} [ChewingEditor E]

namespace Tip

/-! ## What the handlers leave alone -/

/-- Two states that have requested the same sessions and share the same cells. -/
structure SameRequests (t u : Tip E) : Prop where
  composition : u.composition = t.composition
  pendingEdit : u.pendingEdit = t.pendingEdit
  outputSimpChinese : u.outputSimpChinese = t.outputSimpChinese
  store : u.store = t.store
  queue : u.queue = t.queue
  nextCell : u.nextCell = t.nextCell
  grant : u.grant = t.grant

namespace SameRequests

variable {t u v : Tip E} {base left body right : Wide}

omit [ChewingEditor E] in
theorem refl (t : Tip E) : SameRequests t t := ⟨rfl, rfl, rfl, rfl, rfl, rfl, rfl⟩

omit [ChewingEditor E] in
theorem trans (h : SameRequests t u) (h' : SameRequests u v) : SameRequests t v :=
  ⟨h'.composition.trans h.composition, h'.pendingEdit.trans h.pendingEdit,
    h'.outputSimpChinese.trans h.outputSimpChinese, h'.store.trans h.store,
    h'.queue.trans h.queue, h'.nextCell.trans h.nextCell, h'.grant.trans h.grant⟩

omit [ChewingEditor E] in
theorem setEditor (t : Tip E) (e : E) : SameRequests t { t with chewingEditor := e } :=
  ⟨rfl, rfl, rfl, rfl, rfl, rfl, rfl⟩

omit [ChewingEditor E] in
theorem setCandidateList (t : Tip E) (l : Option CandidateList) :
    SameRequests t { t with candidateList := l } :=
  ⟨rfl, rfl, rfl, rfl, rfl, rfl, rfl⟩

omit [ChewingEditor E] in
theorem setHasFocus (t : Tip E) (b : Bool) : SameRequests t { t with hasFocus := b } :=
  ⟨rfl, rfl, rfl, rfl, rfl, rfl, rfl⟩

omit [ChewingEditor E] in
theorem upgradePendingEdit (h : SameRequests t u) :
    u.upgradePendingEdit = t.upgradePendingEdit := by
  have howned : ∀ p, u.Owned p ↔ t.Owned p := fun p => by rw [Owned, Owned, h.queue]
  unfold Tip.upgradePendingEdit
  simp only [howned, h.pendingEdit]

omit [ChewingEditor E] in
theorem pendingString (h : SameRequests t u) : u.pendingString = t.pendingString := by
  unfold Tip.pendingString
  rw [h.upgradePendingEdit, h.store]

omit [ChewingEditor E] in
theorem asynchronous (h : SameRequests t u) (ht : t.Asynchronous) : u.Asynchronous := by
  refine ⟨h.grant.trans ht.grant, ?_, ?_, ?_, ?_⟩
  · rw [h.composition, h.nextCell]
    exact ht.composition
  · rw [h.queue, h.nextCell]
    exact ht.compositionCell
  · rw [h.queue, h.nextCell]
    exact ht.pendingCell
  · rw [h.store, h.nextCell]
    exact ht.empty

omit [ChewingEditor E] in
theorem settled (h : SameRequests t u) (ht : Settled t base left body right) :
    Settled u base left body right := by
  have hdrained : u.drained = t.drained := by
    unfold drained
    rw [h.queue, h.store]
  cases ht with
  | ready hup hfree hview hbase =>
    refine .ready (h.upgradePendingEdit.trans hup) ?_ ?_ hbase
    · rw [h.queue, h.composition]
      exact hfree
    · rw [hdrained, h.composition]
      exact hview
  | waiting p cs before after body₀ hup hqueue hbefore hafter hcs hview hleft hbody =>
    refine .waiting p cs before after body₀ (h.upgradePendingEdit.trans hup) ?_ ?_ hafter ?_ ?_
      hleft hbody
    · rw [h.queue, h.composition]
      exact hqueue
    · rw [h.composition]
      exact hbefore
    · rw [h.store]
      exact hcs
    · rw [h.store, h.composition]
      exact hview

end SameRequests

/-- The candidate list and the editor's selection are all that `update_candidates`
touches. -/
theorem updateCandidates_eq (env : CandidateEnv) (t : Tip E) :
    ∃ editor list,
      (t.updateCandidates env).2 = { t with chewingEditor := editor, candidateList := list } ∧
        (editor = t.chewingEditor ∨ editor = (cancelSelecting t.chewingEditor).1) := by
  have hlist : ∀ (list : CandidateList) (u : Tip E), ∃ editor list',
      (u.updateCandidateList env list).2
          = { u with chewingEditor := editor, candidateList := list' } ∧
        (editor = u.chewingEditor ∨ editor = (cancelSelecting u.chewingEditor).1) := by
    intro list u
    unfold updateCandidateList
    split
    · exact ⟨u.chewingEditor, u.candidateList, rfl, .inl rfl⟩
    · split
      · split
        · -- there are no candidates: the selection is cancelled
          dsimp only
          split
          · exact ⟨(cancelSelecting u.chewingEditor).1, none, rfl, .inr rfl⟩
          · exact ⟨(cancelSelecting u.chewingEditor).1, u.candidateList, rfl, .inr rfl⟩
        · exact ⟨u.chewingEditor, _, rfl, .inl rfl⟩
      · exact ⟨u.chewingEditor, u.candidateList, rfl, .inl rfl⟩
  unfold updateCandidates
  split
  · split
    · exact hlist _ t
    · split
      · exact ⟨t.chewingEditor, t.candidateList, rfl, .inl rfl⟩
      · next shown _ =>
        let list : CandidateList := ⟨.default, !shown⟩
        exact hlist list { t with candidateList := some list }
  · exact ⟨t.chewingEditor, none, rfl, .inl rfl⟩

theorem updateCandidates_frame (env : CandidateEnv) (t : Tip E) :
    SameRequests t (t.updateCandidates env).2 ∧
      ((t.updateCandidates env).2.chewingEditor = t.chewingEditor ∨
        (t.updateCandidates env).2.chewingEditor = (cancelSelecting t.chewingEditor).1) := by
  obtain ⟨editor, list, heq, heditor⟩ := updateCandidates_eq env t
  rw [heq]
  exact ⟨⟨rfl, rfl, rfl, rfl, rfl, rfl, rfl⟩, heditor⟩

omit [ChewingEditor E] in
/-- `sync_lang_mode` sets the language mode, and no other with CapsLock switching
off. -/
theorem syncLangMode_eq (mode : ModeEnv) (internal : Bool) (t : Tip E) :
    ∃ langMode, (t.syncLangMode mode internal).2
        = { t with pendingLangModeChange := internal, langMode := langMode } ∧
      (t.cfg.enableCapsLock = false → langMode = t.langMode) := by
  unfold syncLangMode
  dsimp only
  by_cases h : (!t.langMode.isDisabled && t.cfg.enableCapsLock) = true
  · rw [if_pos h]
    refine ⟨_, rfl, fun hoff => ?_⟩
    rw [hoff, Bool.and_false] at h
    cases h
  · rw [if_neg h]
    exact ⟨t.langMode, rfl, fun _ => rfl⟩

/-! ## What a key test does -/

section KeyTest

variable [Keysyms]

/-- All that `apply_runtime_config` derives from the configuration. -/
theorem applyRuntimeConfig_eq (env : ConfigEnv) (t : Tip E) :
    ∃ kbtype editor keybindings, (t.applyRuntimeConfig env).2 =
      { t with kbtype := kbtype, chewingEditor := editor, keybindings := keybindings } := by
  unfold applyRuntimeConfig
  dsimp only
  split
  · exact ⟨_, t.chewingEditor, t.keybindings, rfl⟩
  · exact ⟨_, _, _, rfl⟩

theorem applyConfigIfChanged_eq (env : ConfigEnv) (t : Tip E) :
    ∃ cfg kbtype editor keybindings, (t.applyConfigIfChanged env).2 =
      { t with cfg := cfg, kbtype := kbtype, chewingEditor := editor,
               keybindings := keybindings } := by
  unfold applyConfigIfChanged
  split
  · exact ⟨t.cfg, t.kbtype, t.chewingEditor, t.keybindings, rfl⟩
  · exact ⟨t.cfg, t.kbtype, t.chewingEditor, t.keybindings, rfl⟩
  · next cfg _ =>
    obtain ⟨kbtype, editor, keybindings, heq⟩ := applyRuntimeConfig_eq env { t with cfg := cfg }
    exact ⟨cfg, kbtype, editor, keybindings, heq⟩

/-- A key test, unless the context cannot be queried, reloads the configuration after
it has moved the Shift state on, and then decides. -/
theorem onTestKeydown_cases (env : TestEnv) (ev : Int → KeyboardEvent) (t : Tip E) :
    ∃ editor : E,
      editor = setEditorOptions
          (fun opt => { opt with languageMode := t.langMode.toLanguageMode }) t.chewingEditor ∧
        (t.onTestKeydown env ev = (.error .error, { t with chewingEditor := editor }) ∨
          ∃ state simulateEnglishLayout isContextMutable shiftDown evt u,
            u = (applyConfigIfChanged env.config
              { t with chewingEditor := editor, shiftKeyState := state }).2 ∧
            t.onTestKeydown env ev
              = (.ok (verdict simulateEnglishLayout isContextMutable shiftDown evt u), u)) := by
  refine ⟨_, rfl, ?_⟩
  unfold onTestKeydown
  dsimp only
  split
  · exact .inl rfl
  · unfold beforeVerdict
    dsimp only
    refine .inr ?_
    split
    · split
      · exact ⟨_, _, _, _, _, _, rfl, rfl⟩
      · exact ⟨_, _, _, _, _, _, rfl, rfl⟩
    · split
      · exact ⟨_, _, _, _, _, _, rfl, rfl⟩
      · exact ⟨t.shiftKeyState, _, _, _, _, _, rfl, rfl⟩

/-- A key test that answers leaves the service as the reload left it. -/
theorem onTestKeydown_ok {env : TestEnv} {ev : Int → KeyboardEvent} {t u : Tip E}
    {handled : Bool} (h : t.onTestKeydown env ev = (.ok handled, u)) :
    ∃ state editor, editor = setEditorOptions
        (fun opt => { opt with languageMode := t.langMode.toLanguageMode }) t.chewingEditor ∧
      u = (applyConfigIfChanged env.config
        { t with chewingEditor := editor, shiftKeyState := state }).2 := by
  obtain ⟨editor, heditor, heq | ⟨state, _, _, _, _, w, hw, heq⟩⟩ := onTestKeydown_cases env ev t
  · rw [heq] at h
    cases (Prod.mk.inj h).1
  · rw [heq] at h
    exact ⟨state, editor, heditor, (Prod.mk.inj h).2.symm.trans hw⟩

end KeyTest

/-! ## What `update_preedit` does -/

/-- The composition goes on after `update_preedit`. -/
def Continues (t : Tip E) : Prop := preedit t.chewingEditor ≠ [] ∨ t.candidateList.isSome

instance (t : Tip E) : Decidable t.Continues := inferInstanceAs (Decidable (_ ∨ _))

section UpdatePreedit

variable {t : Tip E} {zhconv : Str → Str} {commit : Str}

omit [ChewingEditor E] in
theorem setCompositionString_candidateList (preedit : Str) (segments : List (Nat × Nat))
    (cursor : Nat) :
    (t.setCompositionString zhconv commit preedit segments cursor).candidateList
      = t.candidateList := by
  unfold setCompositionString
  split
  · rfl
  · dsimp only
    rw [requestEditSession_service]
    rfl

/-- With nothing to compose, `update_preedit` may end the composition. -/
theorem updatePreedit_of_nil (hbuf : preedit t.chewingEditor = []) :
    t.updatePreedit zhconv commit =
      if (if t.isComposing then t.setCompositionString zhconv commit [] [] 0
          else t).candidateList.isNone then
        (if t.isComposing then t.setCompositionString zhconv commit [] [] 0
          else t).endComposition
      else if t.isComposing then t.setCompositionString zhconv commit [] [] 0 else t :=
  if_neg (not_not_intro hbuf)

theorem updatePreedit_of_continues (zhconv : Str → Str) (commit : Str) (h : t.Continues) :
    ∃ segments cursor, t.updatePreedit zhconv commit =
      t.setCompositionString zhconv commit (preedit t.chewingEditor) segments cursor := by
  by_cases hbuf : preedit t.chewingEditor = []
  · -- nothing to compose, but the candidate list is open
    have hlist : t.candidateList.isSome := h.resolve_left (fun hne => hne hbuf)
    have hcomposing : t.isComposing = true := by simp [isComposing, hlist]
    have hopen : ¬ (t.setCompositionString zhconv commit [] [] 0).candidateList.isNone := by
      rw [setCompositionString_candidateList, Option.isNone_iff_eq_none]
      intro hnone
      rw [hnone] at hlist
      cases hlist
    refine ⟨[], 0, ?_⟩
    rw [updatePreedit_of_nil hbuf, if_pos hcomposing, if_neg hopen, hbuf]
  · exact ⟨_, _, if_pos hbuf⟩

theorem updatePreedit_of_ends (h : ¬ t.Continues) (hcomposing : t.isComposing = true) :
    t.updatePreedit zhconv commit =
      (t.setCompositionString zhconv commit [] [] 0).endComposition := by
  obtain ⟨hbuf, hlist⟩ := not_or.mp h
  have hclosed : (t.setCompositionString zhconv commit [] [] 0).candidateList.isNone := by
    rw [setCompositionString_candidateList, Option.isNone_iff_eq_none]
    exact Option.not_isSome_iff_eq_none.mp hlist
  rw [updatePreedit_of_nil (not_not.mp hbuf), if_pos hcomposing, if_pos hclosed]

theorem updatePreedit_of_idle (h : ¬ t.Continues) (hcomposing : t.isComposing = false) :
    t.updatePreedit zhconv commit = t.endComposition := by
  obtain ⟨hbuf, hlist⟩ := not_or.mp h
  have hnot : ¬ t.isComposing = true := by
    rw [hcomposing]
    exact Bool.false_ne_true
  have hclosed : t.candidateList.isNone := by
    rw [Option.isNone_iff_eq_none]
    exact Option.not_isSome_iff_eq_none.mp hlist
  rw [updatePreedit_of_nil (not_not.mp hbuf), if_neg hnot, if_pos hclosed]

/-- **`update_preedit`** writes the preedit, or ends the composition, with the
commit or without. -/
theorem updatePreedit_cases (zhconv : Str → Str) (commit : Str) (t : Tip E) :
    (t.Continues ∧ ∃ segments cursor, t.updatePreedit zhconv commit =
      t.setCompositionString zhconv commit (preedit t.chewingEditor) segments cursor) ∨
    (¬ t.Continues ∧ t.isComposing = true ∧ t.updatePreedit zhconv commit =
      (t.setCompositionString zhconv commit [] [] 0).endComposition) ∨
    (¬ t.Continues ∧ t.isComposing = false ∧
      t.updatePreedit zhconv commit = t.endComposition) := by
  by_cases hcont : t.Continues
  · exact .inl ⟨hcont, updatePreedit_of_continues zhconv commit hcont⟩
  · cases hcomposing : t.isComposing with
    | true => exact .inr (.inl ⟨hcont, rfl, updatePreedit_of_ends hcont hcomposing⟩)
    | false => exact .inr (.inr ⟨hcont, rfl, updatePreedit_of_idle hcont hcomposing⟩)

/-- What `set_composition_string` and `end_composition` keep, `update_preedit` keeps. -/
theorem updatePreedit_keeps {P : Tip E → Prop}
    (hset : ∀ (u : Tip E) preedit segments cursor, P u →
      P (u.setCompositionString zhconv commit preedit segments cursor))
    (hend : ∀ u : Tip E, P u → P u.endComposition) (h : P t) :
    P (t.updatePreedit zhconv commit) := by
  rcases updatePreedit_cases zhconv commit t with
    ⟨-, segments, cursor, heq⟩ | ⟨-, -, heq⟩ | ⟨-, -, heq⟩
  · rw [heq]
    exact hset t _ segments cursor h
  · rw [heq]
    exact hend _ (hset t _ _ _ h)
  · rw [heq]
    exact hend t h

omit [ChewingEditor E] in
/-- Nothing is converted to nothing. -/
theorem converted_nil (hz : zhconv [] = []) (t : Tip E) : t.converted zhconv [] = [] := by
  unfold converted
  split
  · exact hz
  · rfl

omit [ChewingEditor E] in
/-- The edit before the composition ends is the commit alone. -/
theorem text_editOf_nil (hz : zhconv [] = []) (commit : Str) (t : Tip E) :
    (t.editOf zhconv commit [] [] 0).text = utf16 (t.converted zhconv commit) := by
  show utf16 (t.converted zhconv commit ++ t.converted zhconv []) = _
  rw [converted_nil hz, List.append_nil]

end UpdatePreedit

/-! ## What `on_keydown` inserts directly -/

section InsertCommit

variable {t : Tip E} {base left body right : Wide} {textAction : Option Str}

/-- The text of a key that is inserted directly. -/
def directText (textAction : Option Str) (t : Tip E) : Str :=
  displayCommit t.chewingEditor ++ textAction.getD []

theorem Direct.cell_eq_none (h : t.Direct textAction) :
    t.store.compositions t.composition = none :=
  Option.not_isSome_iff_eq_none.mp
    (Bool.eq_false_iff.mp (Bool.or_eq_false_iff.mp h.1).1)

/-- The sessions requested are one or two insertions. -/
theorem insertCommit_eq (textAction : Option Str) (t : Tip E) :
    t.insertCommit textAction =
      match textAction with
      | none => { t with chewingEditor := ack t.chewingEditor }.insertText
          (displayCommit t.chewingEditor)
      | some param => ({ t with chewingEditor := ack t.chewingEditor }.insertText
          (displayCommit t.chewingEditor)).insertText param := by
  cases textAction <;> rfl

theorem insertCommit_chewingEditor (textAction : Option Str) (t : Tip E) :
    (t.insertCommit textAction).chewingEditor = ack t.chewingEditor := by
  rw [insertCommit_eq]
  cases textAction <;> simp only [Tip.insertText, requestEditSession_service]

theorem Asynchronous.insertCommit (h : t.Asynchronous) (textAction : Option Str) :
    (t.insertCommit textAction).Asynchronous := by
  have hacked := (SameRequests.setEditor t (ack t.chewingEditor)).asynchronous h
  rw [insertCommit_eq]
  cases textAction with
  | none => exact hacked.insertText _
  | some param => exact (hacked.insertText _).insertText param

/-- Inserted text starts no composition. -/
theorem isComposing_insertCommit (hgrant : t.grant = .queued) (textAction : Option Str) :
    (t.insertCommit textAction).isComposing = t.isComposing := by
  have hinsert : ∀ {u : Tip E} (text : Str), u.grant = .queued →
      (u.insertText text).isComposing = u.isComposing ∧ (u.insertText text).grant = .queued := by
    intro u text hu
    rw [Tip.insertText, requestEditSession_of_queued hu]
    exact ⟨rfl, hu⟩
  rw [insertCommit_eq]
  obtain ⟨hfirst, hgrant'⟩ := hinsert (u := { t with chewingEditor := ack t.chewingEditor })
    (displayCommit t.chewingEditor) hgrant
  cases textAction with
  | none => exact hfirst
  | some param => exact (hinsert param hgrant').1.trans hfirst

theorem upgradePendingEdit_insertCommit (h : t.Asynchronous) (textAction : Option Str) :
    (t.insertCommit textAction).upgradePendingEdit = t.upgradePendingEdit := by
  have hacked := (SameRequests.setEditor t (ack t.chewingEditor)).asynchronous h
  rw [insertCommit_eq]
  cases textAction with
  | none => exact upgradePendingEdit_push hacked.grant rfl
  | some param =>
    exact (upgradePendingEdit_push (hacked.insertText _).grant rfl).trans
      (upgradePendingEdit_push hacked.grant rfl)

theorem pendingString_insertCommit (h : t.Asynchronous) (textAction : Option Str) :
    (t.insertCommit textAction).pendingString = t.pendingString := by
  have hacked := (SameRequests.setEditor t (ack t.chewingEditor)).asynchronous h
  rw [insertCommit_eq]
  cases textAction with
  | none => exact pendingString_insertText hacked.grant _
  | some param =>
    exact (pendingString_insertText (hacked.insertText _).grant _).trans
      (pendingString_insertText hacked.grant _)

theorem Settled.insertCommit (h : t.Settled base left body right) (hgrant : t.grant = .queued)
    (hdirect : t.Direct textAction)
    (htext : t.directText textAction = [] ∨ t.upgradePendingEdit = none) :
    (t.insertCommit textAction).Settled (base ++ utf16 (t.directText textAction))
      (left ++ utf16 (t.directText textAction)) body right := by
  have hacked := (SameRequests.setEditor t (ack t.chewingEditor)).settled h
  have hfirst := hacked.insertText (displayCommit t.chewingEditor) hgrant
    hdirect.cell_eq_none (htext.imp_left fun hnil => (List.append_eq_nil_iff.mp hnil).1)
  rw [insertCommit_eq]
  unfold directText at htext ⊢
  cases textAction with
  | none =>
    rw [Option.getD_none, List.append_nil]
    exact hfirst
  | some param =>
    rw [Option.getD_some, utf16_append, ← List.append_assoc, ← List.append_assoc]
    refine hfirst.insertText param ?_ ?_ (htext.imp (fun hnil => (List.append_eq_nil_iff.mp hnil).2)
      fun hup => ?_)
    · rw [Tip.insertText, requestEditSession_of_queued (by exact hgrant)]
      exact hgrant
    · rw [Tip.insertText, requestEditSession_of_queued (by exact hgrant)]
      exact hdirect.cell_eq_none
    · rw [Tip.insertText, upgradePendingEdit_push (by exact hgrant) rfl]
      exact hup

end InsertCommit

/-! ## What a handled key does -/

section DeliverKey

variable {t t' : Tip E} {zhconv : Str → Str} {env : CandidateEnv} {textAction : Option Str}

/-- The commit string and the state that a key hands to `update_preedit`. -/
def updateInput (env : CandidateEnv) (textAction : Option Str) (t : Tip E) : Str × Tip E :=
  (t.updateCandidates env).2.takeCommit (lastKeyBehavior t.chewingEditor) textAction

/-- A handled key is inserted directly or goes through `update_preedit`. -/
theorem deliverKey_cases (h : t.deliverKey zhconv env textAction = (.ok true, t')) :
    (t.Direct textAction ∧ t' = t.insertCommit textAction) ∨
      (¬ t.Direct textAction ∧
        t' = (t.updateInput env textAction).2.updatePreedit zhconv
          (t.updateInput env textAction).1) := by
  unfold deliverKey at h
  dsimp only at h
  split at h
  · cases h
  · split at h
    · next hdirect =>
      cases h
      exact .inl ⟨hdirect, rfl⟩
    · next hdirect =>
      refine .inr ⟨hdirect, ?_⟩
      split at h
      · cases h
      · next r u hu =>
        cases h
        unfold updateInput
        rw [hu]

theorem takeCommit_frame (textAction : Option Str) (last : EditorKeyBehavior) (u : Tip E) :
    SameRequests u (u.takeCommit last textAction).2 := by
  unfold takeCommit
  split
  · exact .setEditor u _
  · exact .refl u

omit [ChewingEditor E] in
theorem setCompositionString_chewingEditor (zhconv : Str → Str) (commit preedit : Str)
    (segments : List (Nat × Nat)) (cursor : Nat) :
    (t.setCompositionString zhconv commit preedit segments cursor).chewingEditor
      = t.chewingEditor := by
  unfold setCompositionString
  split
  · rfl
  · dsimp only
    rw [requestEditSession_service]
    rfl

omit [ChewingEditor E] in
theorem endComposition_chewingEditor (t : Tip E) :
    t.endComposition.chewingEditor = t.chewingEditor := by
  unfold endComposition
  rw [requestEditSession_service]

/-- `update_preedit` only reads the editor. -/
theorem updatePreedit_chewingEditor (zhconv : Str → Str) (commit : Str) :
    (t.updatePreedit zhconv commit).chewingEditor = t.chewingEditor := by
  refine updatePreedit_keeps (P := fun u => u.chewingEditor = t.chewingEditor) ?_ ?_ rfl
  · intro u preedit segments cursor hu
    rw [setCompositionString_chewingEditor, hu]
  · intro u hu
    rw [endComposition_chewingEditor, hu]

theorem updateInput_frame : SameRequests t (t.updateInput env textAction).2 := by
  obtain ⟨hsame, -⟩ := t.updateCandidates_frame env
  exact hsame.trans (takeCommit_frame textAction (lastKeyBehavior t.chewingEditor)
    (t.updateCandidates env).2)

end DeliverKey

end Tip

/-! ## Runs -/

/-- A key the editor has processed. -/
structure KeyInput (E : Type) where
  /-- the editor afterwards -/
  editor : E
  /-- the text of a text binding -/
  textAction : Option Str
  env : Tip.CandidateEnv

/-- What a run of typing consists of. -/
inductive Typing (E : Type) where
  | key (k : KeyInput E)
  | session

/-- The text a key commits: the editor's commit string, followed by the text of
the binding. -/
def KeyInput.text (k : KeyInput E) : Str :=
  (if lastKeyBehavior k.editor = .commit ∨ k.textAction.isSome then displayCommit k.editor else [])
    ++ k.textAction.getD []

def Typing.text : Typing E → Str
  | .key k => k.text
  | .session => []

/-- The state in which `on_keydown` begins to deliver a key. -/
def KeyInput.processed (k : KeyInput E) (t : Tip E) : Tip E :=
  { t with chewingEditor := k.editor }

omit [ChewingEditor E] in
theorem KeyInput.sameRequests (k : KeyInput E) (t : Tip E) :
    Tip.SameRequests t (k.processed t) := .setEditor t k.editor

/-- `update_preedit` is given the text of the key, or nothing if the editor did
not commit. -/
theorem KeyInput.updateInput_text
    (hcancel : ∀ e : E, displayCommit (cancelSelecting e).1 = displayCommit e)
    (k : KeyInput E) (t : Tip E) :
    ((k.processed t).updateInput k.env k.textAction).1 = k.text ∨
      lastKeyBehavior k.editor ≠ .commit ∧
        ((k.processed t).updateInput k.env k.textAction).1 = [] := by
  have hdisplay : displayCommit ((k.processed t).updateCandidates k.env).2.chewingEditor
      = displayCommit k.editor := by
    obtain ⟨-, heq | heq⟩ := (k.processed t).updateCandidates_frame k.env
    · rw [heq]
      rfl
    · rw [heq, hcancel]
      rfl
  unfold Tip.updateInput Tip.takeCommit
  split
  · next hlast =>
    left
    rw [KeyInput.text, if_pos (.inl hlast), hdisplay]
  · next hlast => exact .inr ⟨hlast, rfl⟩

/-- The state in which `on_keydown` leaves it. -/
def KeyInput.delivered (k : KeyInput E) (zhconv : Str → Str) (t : Tip E) : Tip E :=
  ((k.processed t).deliverKey zhconv k.env k.textAction).2

/-- A handled key, or the oldest requested session. -/
inductive TypingStep (zhconv : Str → Str) : Tip E → Typing E → Tip E → Prop
  | key {t t' : Tip E} {k : KeyInput E}
      (h : (k.processed t).deliverKey zhconv k.env k.textAction = (.ok true, t')) :
      TypingStep zhconv t (.key k) t'
  | session {t : Tip E} (h : t.queue ≠ []) : TypingStep zhconv t .session t.runSession

/-- Typing, and language-mode toggles in between. -/
inductive Switching (E : Type) where
  | typing (a : Typing E)
  | toggle (env : Tip.ModeEnv)

def Switching.text : Switching E → Str
  | .typing a => a.text
  | .toggle _ => []

/-- A step of typing, or a call of `toggle_lang_mode`, whatever it returns. -/
inductive AsyncStep (zhconv : Str → Str) : Tip E → Switching E → Tip E → Prop
  | typing {t t' : Tip E} {a : Typing E} (h : TypingStep zhconv t a t') :
      AsyncStep zhconv t (.typing a) t'
  | toggle (t : Tip E) (env : Tip.ModeEnv) :
      AsyncStep zhconv t (.toggle env) (t.toggleLangMode zhconv env).2

/-- The step can be taken. -/
def Typing.Enabled (zhconv : Str → Str) (t : Tip E) : Typing E → Prop
  | .key k => ((k.processed t).deliverKey zhconv k.env k.textAction).1.toOption = some true
  | .session => t.queue ≠ []

instance (zhconv : Str → Str) (t : Tip E) : (a : Typing E) → Decidable (a.Enabled zhconv t)
  | .key _ => inferInstanceAs (Decidable (_ = _))
  | .session => inferInstanceAs (Decidable (_ ≠ _))

/-- The state it leads to. -/
def Typing.next (zhconv : Str → Str) (t : Tip E) : Typing E → Tip E
  | .key k => k.delivered zhconv t
  | .session => t.runSession

theorem Typing.Enabled.step {zhconv : Str → Str} {t : Tip E} {a : Typing E}
    (h : a.Enabled zhconv t) : TypingStep zhconv t a (a.next zhconv t) := by
  cases a with
  | key k =>
    refine .key (Prod.ext ?_ rfl)
    replace h : ((k.processed t).deliverKey zhconv k.env k.textAction).1.toOption = some true := h
    cases hr : ((k.processed t).deliverKey zhconv k.env k.textAction).1 with
    | error e =>
      rw [hr] at h
      cases h
    | ok b =>
      rw [hr] at h
      cases h
      rfl
  | session => exact .session h

/-- The step can be taken, and the state it leads to. -/
def Switching.Enabled (zhconv : Str → Str) (t : Tip E) : Switching E → Prop
  | .typing a => a.Enabled zhconv t
  | .toggle _ => True

instance (zhconv : Str → Str) (t : Tip E) : (a : Switching E) → Decidable (a.Enabled zhconv t)
  | .typing a => inferInstanceAs (Decidable (a.Enabled zhconv t))
  | .toggle _ => .isTrue trivial

def Switching.next (zhconv : Str → Str) (t : Tip E) : Switching E → Tip E
  | .typing a => a.next zhconv t
  | .toggle env => (t.toggleLangMode zhconv env).2

theorem Switching.Enabled.step {zhconv : Str → Str} {t : Tip E} {a : Switching E}
    (h : a.Enabled zhconv t) : AsyncStep zhconv t a (a.next zhconv t) := by
  cases a with
  | typing a => exact .typing (Typing.Enabled.step h)
  | toggle env => exact .toggle t env

/-- A state with nothing requested, in a document with the caret between `before`
and `after`. -/
structure Tip.AtRest (t : Tip E) (before after : Wide) : Prop extends t.Asynchronous where
  queue : t.queue = []
  document : t.store.document.Idle before after
  cell : t.store.compositions t.composition = none

omit [ChewingEditor E] in
theorem Tip.AtRest.upgradePendingEdit {t : Tip E} {before after : Wide}
    (h : t.AtRest before after) : t.upgradePendingEdit = none := by
  rw [Tip.upgradePendingEdit_eq_none]
  intro p _ hown
  obtain ⟨s, hs, -⟩ := Tip.owned_iff.mp hown
  rw [h.queue] at hs
  cases hs

omit [ChewingEditor E] in
theorem Tip.AtRest.pendingString {t : Tip E} {before after : Wide} (h : t.AtRest before after) :
    t.pendingString = none := by
  rw [Tip.pendingString, h.upgradePendingEdit]
  rfl

omit [ChewingEditor E] in
theorem Tip.AtRest.settled {t : Tip E} {before after : Wide} (h : t.AtRest before after) :
    t.Settled before before [] after := by
  refine .ready h.upgradePendingEdit ?_ ?_ rfl
  · rw [h.queue]
    exact nofun
  · unfold Tip.drained
    rw [h.queue]
    exact .idle h.cell rfl h.document

/-! ## An editor for examples -/

/-- An editor whose answers are its fields. -/
structure ScriptedEditor where
  lastKeyBehavior : EditorKeyBehavior
  displayCommit : Str
  intervals : List Interval
  bopomofo : Str
  isSelecting : Bool
  options : EditorOptions

namespace ScriptedEditor

def defaultOptions : EditorOptions where
  easySymbolInput := false
  userPhraseAddDir := .forward
  phraseChoiceRearward := false
  autoShiftCursor := false
  candidatesPerPage := 10
  escClearAllBuffer := false
  spaceIsSelectKey := false
  disableAutoLearnPhrase := false
  enableFullwidthToggleKey := false
  sortCandidatesByFrequency := false
  conversionEngine := .chewingEngine
  lookupStrategy := .standard
  autoSnapshotSelections := false
  characterForm := .halfwidth
  languageMode := .chinese
  autoCommitThreshold := 39

/-- An editor that has absorbed a key and now shows `bopomofo`. -/
def absorbed (bopomofo : Str) : ScriptedEditor :=
  ⟨.absorb, [], [], bopomofo, false, defaultOptions⟩

/-- An editor that has committed `commit` and now shows `bopomofo`. -/
def committed (commit bopomofo : Str) : ScriptedEditor :=
  ⟨.commit, commit, [], bopomofo, false, defaultOptions⟩

instance : ChewingEditor ScriptedEditor where
  chewing _ _ := absorbed []
  editorOptions e := e.options
  setEditorOptions f e := { e with options := f e.options }
  layoutOf _ := none
  setSyllableEditor _ e := e
  setConversionEngine _ e := e
  processKeyevent _ e := e
  lastKeyBehavior e := e.lastKeyBehavior
  displayCommit e := e.displayCommit
  ack e := { e with displayCommit := [] }
  isSelecting e := e.isSelecting
  cancelSelecting e := ({ e with isSelecting := false }, true)
  clearSyllableEditor e := { e with bopomofo := [] }
  clearCompositionEditor e := { e with intervals := [] }
  intervals e := e.intervals
  cursor _ := 0
  syllableBufferDisplay e := e.bopomofo
  totalPage _ := some 0
  currentPageNo _ := some 0
  paginatedCandidates _ := some []

/-- The symbols of the X11 keyboard. -/
scoped instance keysyms : Keysyms where
  symNone := ⟨0⟩
  symEsc := ⟨0xff1b⟩
  symHome := ⟨0xff50⟩
  symEnd := ⟨0xff57⟩
  symDelete := ⟨0xffff⟩
  symTab := ⟨0xff09⟩
  symBackspace := ⟨0xff08⟩
  symCapslock := ⟨0xffe5⟩
  symReturn := ⟨0xff0d⟩
  symSpace := ⟨0x20⟩
  symLeftshift := ⟨0xffe1⟩
  symRightshift := ⟨0xffe2⟩
  symF i := ⟨0xffbe + i.val.toUInt32⟩
  isUnicode k := 0x20 ≤ k.code && k.code ≤ 0x7e
  isDigit k := 0x30 ≤ k.code && k.code ≤ 0x39
  fromChar c := ⟨c.val⟩

/-- An unmodified key. -/
def plainKey (ksym : Keysym) : KeyboardEvent := ⟨⟨0⟩, ksym, false, false, false, false, false, false⟩

/-- A test of a key in a mutable context, with the configuration unchanged. -/
def testEnv : Tip.TestEnv := ⟨⟨some 0, some 0, some 0⟩, 0, ⟨.ok .default, none, none⟩⟩

/-- A key that leaves the editor as `e`. -/
def key (e : ScriptedEditor) : KeyInput ScriptedEditor := ⟨e, none, ⟨none, ⟨0, 0⟩, true⟩⟩

end ScriptedEditor

/-- A service with nothing requested, in an empty document. -/
def Tip.fresh (grant : Grant) : Tip ScriptedEditor where
  langMode := .chinese
  pendingLangModeChange := false
  hasFocus := true
  outputSimpChinese := false
  shiftKeyState := .up
  cfg := .default
  kbtype := .default
  keybindings := []
  chewingEditor := .absorbed []
  candidateList := none
  composition := 0
  pendingEdit := none
  store := ⟨⟨[], 0, none⟩, fun _ => none, fun _ => none, 0⟩
  queue := []
  nextCell := 1
  grant := grant

theorem Tip.fresh_atRest : (Tip.fresh .queued).AtRest [] [] where
  grant := rfl
  composition := Nat.zero_lt_one
  compositionCell := nofun
  pendingCell := nofun
  empty := fun _ _ => rfl
  queue := rfl
  document := ⟨rfl, rfl, rfl⟩
  cell := rfl

end ChewingTsf
