import ChewingTsf.Tip.ClosedKeyboard

/-!
# The candidate list and the editor

A candidate list is to be shown exactly while the editor selects (`Tip.InStep`).
Only `update_candidates` compares the two, and only `on_composition_terminated_tail`
ends both. `on_kill_focus` takes the list away from an editor that selects, and a
rebuild of the editor (a thread focus, a changed configuration) leaves the list to
one that does not. In `on_keydown` the two also part if the list cannot be created,
which is only logged, or if it returns before `update_candidates`.

`CandidateCall.Agrees` says of each call when it does not come to that; it is exact
(`Tip.inStep_step_iff`).
-/

namespace ChewingTsf

open ChewingEditor

section Model

variable {E : Type} [EditorCommands E]

/-- When the editor selects: a new one does not, `cancel_selecting` ends it, and the
operations that are not about the selection leave it alone. So does a key that the
editor ignores. -/
structure SelectionLaws (E : Type) [EditorCommands E] : Prop where
  chewing : ∀ userPath programPath, isSelecting (chewing userPath programPath : E) = false
  setEditorOptions : ∀ f (e : E), isSelecting (setEditorOptions f e) = isSelecting e
  behavior_setEditorOptions : ∀ f (e : E),
    lastKeyBehavior (ChewingEditor.setEditorOptions f e) = lastKeyBehavior e
  setSyllableEditor : ∀ kbtype (e : E), isSelecting (setSyllableEditor kbtype e) = isSelecting e
  setConversionEngine : ∀ kind (e : E), isSelecting (setConversionEngine kind e) = isSelecting e
  ack : ∀ e : E, isSelecting (ack e) = isSelecting e
  clearSyllableEditor : ∀ e : E, isSelecting (clearSyllableEditor e) = isSelecting e
  clearCompositionEditor : ∀ e : E, isSelecting (clearCompositionEditor e) = isSelecting e
  commit : ∀ e : E, (EditorCommands.commit e).2 = true →
    isSelecting (EditorCommands.commit e).1 = isSelecting e
  cancelSelecting : ∀ e : E, isSelecting e = true →
    (cancelSelecting e).2 = true ∧ isSelecting (cancelSelecting e).1 = false
  ignored : ∀ evt (e : E), lastKeyBehavior (processKeyevent evt e) = .ignore →
    isSelecting (processKeyevent evt e) = isSelecting e

namespace Tip

/-- The candidate list is shown exactly while the editor selects. -/
def InStep (t : Tip E) : Prop :=
  t.candidateList.isSome = isSelecting t.chewingEditor

instance (t : Tip E) : Decidable t.InStep := inferInstanceAs (Decidable (_ = _))

/-- The reload of the configuration builds a new editor. -/
def Rebuilds (config : ConfigEnv) (t : Tip E) : Prop := t.Changed config ∧ config.Dirs

/-- The state that `on_keydown` delivers the key in, with the text of a text binding;
`none` if it returns before. -/
def beforeDelivery [KeyCodes] (env : KeydownEnv) (ev : Int → KeyboardEvent) (t : Tip E) :
    Option (Option Str × Tip E) :=
  match t.onTestKeydown env.test ev with
  | (.ok true, u) =>
    match u.handleKeybinding env (ev u.cfg.simulateEnglishLayout) with
    | (.ok (.proceed textAction), w) =>
      match w.processKey env textAction (ev u.cfg.simulateEnglishLayout) with
      | (.ok false, v) => some (textAction, v)
      | _ => none
    | _ => none
  | _ => none

/-- A key with behaviour `Ignore` leaves a selection that is shown as it was before
the key-down; text that is inserted directly leaves none; and a new selection can be
shown. -/
def DeliveryAgrees (env : CandidateEnv) (textAction : Option Str) (t v : Tip E) : Prop :=
  if lastKeyBehavior v.chewingEditor = .ignore then
    v.candidateList.isSome = true → isSelecting v.chewingEditor = isSelecting t.chewingEditor
  else if v.Direct textAction then isSelecting v.chewingEditor = false
  else isSelecting v.chewingEditor = true → v.candidateList.isSome ∨ env.new.isSome

/-- The condition on a key-down. If it returns before the delivery, it is that on the
reload: no editor that selects is replaced. -/
structure KeydownAgrees [KeyCodes] (env : KeydownEnv) (ev : Int → KeyboardEvent) (t : Tip E) :
    Prop where
  returns : t.beforeDelivery env ev = none → t.Rebuilds env.test.config →
    isSelecting t.chewingEditor = false
  delivers : ∀ p ∈ t.beforeDelivery env ev, DeliveryAgrees env.candidates p.1 t p.2

end Tip

/-! ## Callbacks -/

/-- A callback that concerns the candidate list, or a session that TSF runs. -/
inductive CandidateCall where
  | keyDown (env : Tip.KeydownEnv) (ev : Int → KeyboardEvent)
  /-- `on_test_keydown`, which reloads the configuration -/
  | testKeyDown (env : Tip.TestEnv) (ev : Int → KeyboardEvent)
  | killFocus (context : Bool)
  | focus
  | threadFocus (config : Tip.ConfigEnv) (mode : Tip.ModeEnv)
  | compositionTerminated
  | session

/-- A call that returns `Ok`. -/
inductive CandidateStep [KeyCodes] (zhconv : Str → Str) : Tip E → CandidateCall → Tip E → Prop
  | keyDown {t t' : Tip E} {env : Tip.KeydownEnv} {ev : Int → KeyboardEvent} {handled : Bool}
      (h : t.onKeydown zhconv env ev = (.ok handled, t')) :
      CandidateStep zhconv t (.keyDown env ev) t'
  | testKeyDown {t t' : Tip E} {env : Tip.TestEnv} {ev : Int → KeyboardEvent} {handled : Bool}
      (h : t.onTestKeydown env ev = (.ok handled, t')) :
      CandidateStep zhconv t (.testKeyDown env ev) t'
  | killFocus (t : Tip E) (context : Bool) :
      CandidateStep zhconv t (.killFocus context) (t.onKillFocus context)
  | focus (t : Tip E) : CandidateStep zhconv t .focus t.onFocus
  | threadFocus {t t' : Tip E} {config : Tip.ConfigEnv} {mode : Tip.ModeEnv}
      (h : t.onThreadFocus config mode = (.ok (), t')) :
      CandidateStep zhconv t (.threadFocus config mode) t'
  | compositionTerminated (t : Tip E) :
      CandidateStep zhconv t .compositionTerminated t.onCompositionTerminatedTail
  | session (t : Tip E) : CandidateStep zhconv t .session t.runSession

theorem CandidateStep.keyDown_of_ok [KeyCodes] {zhconv : Str → Str} {t : Tip E}
    {env : Tip.KeydownEnv} {ev : Int → KeyboardEvent} {handled : Bool}
    (h : (t.onKeydown zhconv env ev).1 = .ok handled) :
    CandidateStep zhconv t (.keyDown env ev) (t.onKeydown zhconv env ev).2 :=
  .keyDown (Prod.ext h rfl)

/-- The call does not make the candidate list and the editor part: a loss of the
focus and a rebuild find an editor that does not select. -/
def CandidateCall.Agrees [KeyCodes] (t : Tip E) : CandidateCall → Prop
  | .keyDown env ev => t.KeydownAgrees env ev
  | .testKeyDown env _ => t.Rebuilds env.config → isSelecting t.chewingEditor = false
  | .killFocus _ | .threadFocus _ _ => isSelecting t.chewingEditor = false
  | .focus | .compositionTerminated | .session => True

/-! ## What the parts do to the selection -/

namespace Tip

/-- The list is shown, and the editor selects, as before. -/
structure SelectionKept (t u : Tip E) : Prop where
  list : u.candidateList.isSome = t.candidateList.isSome
  editor : isSelecting u.chewingEditor = isSelecting t.chewingEditor

namespace SelectionKept

variable {t u v : Tip E}

theorem refl (t : Tip E) : SelectionKept t t := ⟨rfl, rfl⟩

theorem trans (h : SelectionKept t u) (h' : SelectionKept u v) : SelectionKept t v :=
  ⟨h'.list.trans h.list, h'.editor.trans h.editor⟩

theorem inStep_iff (h : SelectionKept t u) : u.InStep ↔ t.InStep := by
  unfold InStep
  rw [h.list, h.editor]

end SelectionKept

variable {t u v : Tip E} {zhconv : Str → Str}

theorem inStep_of_hidden (hlist : t.candidateList = none) :
    t.InStep ↔ isSelecting t.chewingEditor = false := by
  unfold InStep
  rw [hlist, Option.isSome_none]
  exact eq_comm

/-! ### The delivery -/

theorem updateCandidateList_inStep (laws : SelectionLaws E) (env : CandidateEnv)
    (list : CandidateList) (hlist : t.candidateList.isSome = true)
    (hselecting : isSelecting t.chewingEditor = true) :
    (t.updateCandidateList env list).2.InStep := by
  have hin : t.InStep := hlist.trans hselecting.symm
  unfold updateCandidateList
  split
  · exact hin
  · split
    · split
      · -- no page is left: the selection is cancelled
        obtain ⟨hok, hcancelled⟩ := laws.cancelSelecting t.chewingEditor hselecting
        dsimp only
        rw [hok, if_pos rfl]
        exact (inStep_of_hidden rfl).mpr hcancelled
      · exact hselecting.symm
    · exact hin

/-- **`update_candidates`** brings the list in step, unless it cannot be created. -/
theorem updateCandidates_inStep_iff (laws : SelectionLaws E) (env : CandidateEnv) (t : Tip E) :
    (t.updateCandidates env).2.InStep ↔
      (isSelecting t.chewingEditor = true → t.candidateList.isSome ∨ env.new.isSome) := by
  unfold updateCandidates
  by_cases hselecting : isSelecting t.chewingEditor = true
  · rw [if_pos hselecting]
    cases hlist : t.candidateList with
    | some list =>
      have hshown : t.candidateList.isSome = true := by rw [hlist]; rfl
      have hin := updateCandidateList_inStep laws env list hshown hselecting
      simp [hin]
    | none =>
      cases hnew : env.new with
      | none =>
        have hout : ¬ t.InStep := by
          rw [inStep_of_hidden hlist, hselecting]
          exact Bool.noConfusion
        simp [hout, hselecting]
      | some shown =>
        have hin := updateCandidateList_inStep laws env ⟨.default, !shown⟩
          (t := { t with candidateList := some ⟨.default, !shown⟩ }) rfl hselecting
        simp [hin]
  · rw [if_neg hselecting]
    have hin : t.hideCandidates.InStep :=
      (inStep_of_hidden rfl).mpr (Bool.not_eq_true _ ▸ hselecting)
    simp [hin, hselecting]

omit [EditorCommands E] in
theorem updatePreedit_candidateList [ChewingEditor E] (zhconv : Str → Str) (commit : Str)
    (t : Tip E) : (t.updatePreedit zhconv commit).candidateList = t.candidateList := by
  refine updatePreedit_keeps (P := fun u => u.candidateList = t.candidateList) ?_ ?_ rfl
  · intro u preedit segments cursor hu
    rw [setCompositionString_candidateList, hu]
  · intro u hu
    rw [endComposition_candidateList, hu]

theorem SelectionKept.updatePreedit (zhconv : Str → Str) (commit : Str) (t : Tip E) :
    SelectionKept t (t.updatePreedit zhconv commit) where
  list := by rw [updatePreedit_candidateList]
  editor := by rw [updatePreedit_chewingEditor]

theorem SelectionKept.takeCommit (laws : SelectionLaws E) (last : EditorKeyBehavior)
    (textAction : Option Str) (t : Tip E) :
    SelectionKept t (t.takeCommit last textAction).2 := by
  unfold Tip.takeCommit
  split
  · exact ⟨rfl, laws.ack t.chewingEditor⟩
  · exact .refl t

theorem insertCommit_candidateList (textAction : Option Str) (t : Tip E) :
    (t.insertCommit textAction).candidateList = t.candidateList := by
  rw [insertCommit_eq]
  cases textAction <;> simp only [Tip.insertText, requestEditSession_service]

/-- **The delivery of a key** that has been told to the editor. -/
theorem deliverKey_inStep_iff (laws : SelectionLaws E) {env : CandidateEnv}
    {textAction : Option Str} {handled : Bool}
    (h : v.deliverKey zhconv env textAction = (.ok handled, u)) :
    u.InStep ↔
      if lastKeyBehavior v.chewingEditor = .ignore then v.InStep
      else if v.Direct textAction then isSelecting v.chewingEditor = false
      else isSelecting v.chewingEditor = true → v.candidateList.isSome ∨ env.new.isSome := by
  unfold deliverKey at h
  dsimp only at h
  split at h
  · next hignore =>
    rw [if_pos hignore, (Prod.mk.inj h).2]
  · next hignore =>
    rw [if_neg hignore]
    split at h
    · next hdirect =>
      -- nothing is composed, so no list is shown
      have hlist := candidateList_of_not_composing hdirect.1
      rw [if_pos hdirect, ← (Prod.mk.inj h).2,
        inStep_of_hidden ((insertCommit_candidateList textAction v).trans hlist),
        insertCommit_chewingEditor, laws.ack]
    · next hdirect =>
      rw [if_neg hdirect, ← updateCandidates_inStep_iff laws env v]
      split at h
      · cases h
      · next r w _ hupdate =>
        rw [hupdate, ← (Prod.mk.inj h).2]
        exact ((SelectionKept.takeCommit laws _ textAction w).trans
          (.updatePreedit zhconv _ _)).inStep_iff

/-! ### Keybindings -/

theorem handleKeybinding_kept [Keysyms] (laws : SelectionLaws E) {env : KeydownEnv}
    {evt : KeyboardEvent} {r : BindingResult}
    (h : t.handleKeybinding env evt = (.ok r, u)) : SelectionKept t u := by
  unfold handleKeybinding at h
  split at h
  · rw [← (Prod.mk.inj h).2]
    exact .refl t
  · next kb _ =>
    unfold runAction at h
    split at h
    · rw [← (Prod.mk.inj h).2]
      exact ⟨rfl, rfl⟩
    · split at h
      · rw [← (Prod.mk.inj h).2]
        exact ⟨rfl, laws.setSyllableEditor _ t.chewingEditor⟩
      · split at h
        · split at h
          · rw [← (Prod.mk.inj h).2]
            exact .refl t
          · -- the text of a text binding follows what is committed
            dsimp only at h
            split at h
            · next hcommit =>
              rw [← (Prod.mk.inj h).2]
              exact ⟨rfl, laws.commit t.chewingEditor hcommit⟩
            · cases (Prod.mk.inj h).1
        · split at h
          · rw [← (Prod.mk.inj h).2]
            exact .refl t
          · rw [← (Prod.mk.inj h).2]
            exact .refl t

/-! ### The key itself -/

/-- What the state is in that a key is delivered in: either the list is shown as
before, and without a list an ignored key has not changed the selection, or the list
has just been refreshed. -/
def Dealt (t u : Tip E) : Prop :=
  u.candidateList.isSome = t.candidateList.isSome ∧
      (t.candidateList = none → lastKeyBehavior u.chewingEditor = .ignore →
        isSelecting u.chewingEditor = isSelecting t.chewingEditor) ∨
    u.InStep ∧ t.candidateList.isSome = true

theorem processInEnglish_ignored (laws : SelectionLaws E) (evt : KeyboardEvent) (e : E)
    (h : lastKeyBehavior (processInEnglish evt e) = .ignore) :
    isSelecting (processInEnglish evt e) = isSelecting e := by
  unfold processInEnglish at h ⊢
  dsimp only at h ⊢
  rw [laws.behavior_setEditorOptions] at h
  rw [laws.setEditorOptions, laws.ignored _ _ h, laws.setEditorOptions]

theorem processPrintable_dealt [KeyCodes] (laws : SelectionLaws E) {evt : KeyboardEvent}
    (h : t.processPrintable evt = (.ok (), u)) : Dealt t u := by
  unfold processPrintable at h
  dsimp only at h
  split at h
  · cases (Prod.mk.inj h).1
  · next evt' _ =>
    rw [← (Prod.mk.inj h).2]
    refine .inl ⟨rfl, fun _ hignore => ?_⟩
    dsimp only at hignore ⊢
    split at hignore
    · next hspace =>
      rw [if_pos hspace]
      exact laws.ignored _ _ hignore
    · next hspace =>
      rw [if_neg hspace]
      split at hignore
      · next henglish =>
        rw [if_pos henglish]
        exact processInEnglish_ignored laws _ _ hignore
      · next henglish =>
        rw [if_neg henglish]
        exact laws.ignored _ _ hignore

/-- A phrase is unlearned with a list shown: the list is refreshed. -/
theorem unlearnCurrent_inStep (laws : SelectionLaws E) {env : KeydownEnv} {list : CandidateList}
    {unlearned : Bool} (hlist : t.candidateList.isSome = true)
    (h : t.unlearnCurrent env list = (.ok unlearned, u)) :
    unlearned = false ∧ u = t ∨ unlearned = true ∧ u.InStep := by
  have hkept {r : Except Fault Bool} (hr : (r, t) = (.ok unlearned, u)) (hfalse : r = .ok false) :
      unlearned = false ∧ u = t := by
    rw [hfalse, Prod.mk.injEq, Except.ok.injEq] at hr
    exact ⟨hr.1.symm, hr.2.symm⟩
  unfold unlearnCurrent at h
  split at h
  · split at h
    · cases (Prod.mk.inj h).1
    · next phrase _ =>
      split at h
      · -- the candidates are updated once the phrase is forgotten
        refine .inr ?_
        unfold unlearnPhrase at h
        dsimp only at h
        have hrefreshed := updateCandidates_inStep_iff laws env.unlearn { t with chewingEditor :=
          (EditorCommands.unlearnPhrase (t.syllablesOf phrase) phrase t.chewingEditor).1 }
        split at h
        · cases (Prod.mk.inj h).1
        · next w hw =>
          rw [hw] at hrefreshed
          split at h
          · rw [Prod.mk.injEq, Except.ok.injEq] at h
            rw [← h.2]
            exact ⟨h.1.symm, hrefreshed.mpr fun _ => .inl hlist⟩
          · cases (Prod.mk.inj h).1
      · exact .inl (hkept h rfl)
  · exact .inl (hkept h rfl)

theorem handleInList_dealt [KeyTables] (laws : SelectionLaws E) {env : KeydownEnv}
    {evt : KeyboardEvent} {commit keyHandled : Bool} {list : CandidateList}
    (hlist : t.candidateList.isSome = true)
    (h : t.handleInList env evt commit list = (.ok keyHandled, u)) :
    u.candidateList.isSome = true ∨ keyHandled = true ∧ u.InStep := by
  have hselect : (if commit then t.selectCurrent list else (.ok (), t)).2.candidateList
      = t.candidateList := by
    split <;> rfl
  unfold handleInList at h
  split at h
  · cases (Prod.mk.inj h).1
  · next w hw =>
    rw [hw] at hselect
    have hshown : w.candidateList.isSome = true := hselect ▸ hlist
    split at h
    · rw [← (Prod.mk.inj h).2]
      exact .inl hshown
    · split at h
      · rcases hunlearn : w.unlearnCurrent env list with ⟨r, v⟩
        rw [hunlearn] at h
        dsimp only at h
        cases r with
        | error e => cases (Prod.mk.inj h).1
        | ok unlearned =>
          rw [Prod.mk.injEq] at h
          obtain ⟨hhandled, rfl⟩ := h
          obtain ⟨-, rfl⟩ | ⟨rfl, hin⟩ := unlearnCurrent_inStep laws hshown hunlearn
          · exact .inl hshown
          · exact .inr ⟨(Except.ok.inj hhandled).symm.trans (Bool.or_true commit), hin⟩
      · rw [← (Prod.mk.inj h).2]
        exact .inl hshown

theorem processOther_dealt [KeyTables] (laws : SelectionLaws E) {env : KeydownEnv}
    {evt : KeyboardEvent} {returns : Bool} (h : t.processOther env evt = (.ok returns, u)) :
    if returns then SelectionKept t u else Dealt t u := by
  unfold processOther at h
  dsimp only at h
  split at h
  · rw [Prod.mk.injEq, Except.ok.injEq] at h
    rw [← h.1, ← h.2, if_neg Bool.false_ne_true]
    exact .inl ⟨rfl, fun _ hignore => laws.ignored _ _ hignore⟩
  · next list hsome =>
    have hlist : t.candidateList.isSome = true := by
      split at hsome
      · rw [hsome]
        rfl
      · cases hsome
    have hdealt {v : Tip E} (hv : v.candidateList.isSome = true) : Dealt t v :=
      .inl ⟨hv.trans hlist.symm, fun hnone => by rw [hnone] at hlist; cases hlist⟩
    split at h
    · rw [Prod.mk.injEq, Except.ok.injEq] at h
      rw [← h.1, ← h.2, if_pos rfl]
      exact ⟨hlist.symm, rfl⟩
    · split at h
      · cases (Prod.mk.inj h).1
      · next keyHandled w hw =>
        rw [Prod.mk.injEq, Except.ok.injEq] at h
        rw [← h.1, ← h.2, if_neg Bool.false_ne_true]
        -- the list stays, or a phrase is forgotten and the list refreshed
        obtain hshown | ⟨rfl, hin⟩ := handleInList_dealt laws rfl hw
        · cases keyHandled with
          | true => exact hdealt hshown
          | false => exact hdealt hshown
        · exact .inr ⟨hin, hlist⟩

theorem processKey_dealt [KeyCodes] (laws : SelectionLaws E) {env : KeydownEnv}
    {textAction : Option Str} {evt : KeyboardEvent} {returns : Bool}
    (h : t.processKey env textAction evt = (.ok returns, u)) :
    if returns then SelectionKept t u else Dealt t u := by
  unfold processKey at h
  split at h
  · rw [Prod.mk.injEq, Except.ok.injEq] at h
    rw [← h.1, ← h.2, if_neg Bool.false_ne_true]
    exact .inl ⟨rfl, fun _ _ => rfl⟩
  · split at h
    · rcases hprintable : t.processPrintable evt with ⟨r, v⟩
      rw [hprintable] at h
      cases r with
      | error e => cases (Prod.mk.inj h).1
      | ok _ =>
        rw [Prod.mk.injEq] at h
        rw [← Except.ok.inj h.1, ← h.2, if_neg Bool.false_ne_true]
        exact processPrintable_dealt laws hprintable
    · exact processOther_dealt laws h

/-! ### Reloads -/

theorem isSelecting_buildEditorFromCfg (laws : SelectionLaws E)
    {config : ConfigEnv} {cfg : ChewingTsfConfig} {e : E}
    (h : buildEditorFromCfg config cfg = some e) : isSelecting e = false := by
  obtain ⟨userPath, programPath, f, kbtype, kind, rfl, -⟩ := buildEditorFromCfg_eq_some h
  rw [laws.setConversionEngine, laws.setSyllableEditor, laws.setEditorOptions, laws.chewing]

/-- A reload leaves the list alone; the editor it builds does not select. -/
structure Reloaded (config : ConfigEnv) (t u : Tip E) : Prop where
  list : u.candidateList = t.candidateList
  rebuilt : t.Rebuilds config → isSelecting u.chewingEditor = false
  kept : ¬ t.Rebuilds config → isSelecting u.chewingEditor = isSelecting t.chewingEditor

theorem Reloaded.inStep_iff {config : ConfigEnv} (h : Reloaded config t u) (hin : t.InStep) :
    u.InStep ↔ (t.Rebuilds config → isSelecting t.chewingEditor = false) := by
  have hlist : u.InStep ↔ isSelecting t.chewingEditor = isSelecting u.chewingEditor := by
    unfold InStep
    rw [h.list, hin]
  rw [hlist]
  by_cases hrebuilds : t.Rebuilds config
  · rw [h.rebuilt hrebuilds]
    exact ⟨fun hnot _ => hnot, fun hnot => hnot hrebuilds⟩
  · rw [h.kept hrebuilds]
    exact ⟨fun _ hnot => absurd hnot hrebuilds, fun _ => rfl⟩

theorem applyRuntimeConfig_selection [Keysyms] (laws : SelectionLaws E) (config : ConfigEnv)
    (t : Tip E) :
    (t.applyRuntimeConfig config).2.candidateList = t.candidateList ∧
      (config.Dirs → isSelecting (t.applyRuntimeConfig config).2.chewingEditor = false) ∧
      (¬ config.Dirs → isSelecting (t.applyRuntimeConfig config).2.chewingEditor
        = isSelecting t.chewingEditor) := by
  by_cases hdirs : config.Dirs
  · obtain ⟨editor, hbuilt, heq⟩ := applyRuntimeConfig_of_dirs hdirs t
    rw [heq]
    exact ⟨rfl, fun _ => isSelecting_buildEditorFromCfg laws hbuilt,
      fun hnot => absurd hdirs hnot⟩
  · rw [applyRuntimeConfig_of_not_dirs hdirs]
    exact ⟨rfl, fun hnot => absurd hnot hdirs, fun _ => rfl⟩

theorem applyConfigIfChanged_reloaded [Keysyms] (laws : SelectionLaws E) (config : ConfigEnv)
    (t : Tip E) : Reloaded config t (t.applyConfigIfChanged config).2 := by
  by_cases hchanged : t.Changed config
  · obtain ⟨cfg, hreg, hne⟩ := hchanged
    obtain ⟨hlist, hrebuilt, hkept⟩ :=
      applyRuntimeConfig_selection laws config { t with cfg := cfg }
    rw [applyConfigIfChanged_of_changed hreg hne]
    exact ⟨hlist, fun hrebuilds => hrebuilt hrebuilds.2,
      fun hnot => hkept fun hdirs => hnot ⟨⟨cfg, hreg, hne⟩, hdirs⟩⟩
  · rw [applyConfigIfChanged_of_not_changed hchanged]
    exact ⟨rfl, fun hrebuilds => absurd hrebuilds.1 hchanged, fun _ => rfl⟩

theorem onTestKeydown_reloaded [Keysyms] (laws : SelectionLaws E) {env : TestEnv}
    {ev : Int → KeyboardEvent} {handled : Bool} (h : t.onTestKeydown env ev = (.ok handled, u)) :
    Reloaded env.config t u := by
  obtain ⟨state, editor, heditor, rfl⟩ := onTestKeydown_ok h
  -- neither the editor's options nor the Shift key count
  have hselecting : isSelecting editor = isSelecting t.chewingEditor := by
    rw [heditor, laws.setEditorOptions]
  have hreload := applyConfigIfChanged_reloaded laws env.config
    { t with chewingEditor := editor, shiftKeyState := state }
  exact ⟨hreload.list, hreload.rebuilt, fun hkept => (hreload.kept hkept).trans hselecting⟩

theorem SelectionKept.syncLangMode (mode : ModeEnv) (internal : Bool) (t : Tip E) :
    SelectionKept t (t.syncLangMode mode internal).2 := by
  obtain ⟨langMode, heq, -⟩ := syncLangMode_eq mode internal t
  rw [heq]
  exact ⟨rfl, rfl⟩

/-- Where a rebuild must succeed, it leaves an editor that does not select. -/
theorem applyRuntimeConfig_ok [Keysyms] (laws : SelectionLaws E) {config : ConfigEnv}
    (h : t.applyRuntimeConfig config = (true, u)) :
    u.candidateList = t.candidateList ∧ isSelecting u.chewingEditor = false := by
  obtain ⟨hlist, hrebuilt, -⟩ := applyRuntimeConfig_selection laws config t
  rw [h] at hlist hrebuilt
  refine ⟨hlist, hrebuilt ?_⟩
  by_contra hdirs
  rw [applyRuntimeConfig_of_not_dirs hdirs] at h
  cases (Prod.mk.inj h).1

/-- **`on_thread_focus`** always rebuilds the editor. -/
theorem onThreadFocus_inStep_iff [Keysyms] (laws : SelectionLaws E) {config : ConfigEnv}
    {mode : ModeEnv} (hin : t.InStep) (h : t.onThreadFocus config mode = (.ok (), u)) :
    u.InStep ↔ isSelecting t.chewingEditor = false := by
  obtain ⟨cfg, -, heq⟩ := onThreadFocus_eq config mode t
  rw [heq] at h
  split at h
  · cases (Prod.mk.inj h).1
  · next v hv =>
    obtain ⟨hlist, hidle⟩ := applyRuntimeConfig_ok laws hv
    have hsynced := SelectionKept.syncLangMode mode true v
    rw [h] at hsynced
    rw [hsynced.inStep_iff]
    unfold InStep
    rw [hlist, hidle, hin]

/-- A service that has started shows no list, and its editor does not select. -/
theorem initChewingContext_inStep [Keysyms] (laws : SelectionLaws E) {config : ConfigEnv}
    {mode : ModeEnv} (hlist : t.candidateList = none)
    (h : t.initChewingContext config mode = (.ok (), u)) : u.InStep := by
  unfold initChewingContext at h
  split at h
  · cases (Prod.mk.inj h).1
  · next v hv =>
    obtain ⟨hlist', hidle⟩ := applyRuntimeConfig_ok laws hv
    have hsynced := SelectionKept.syncLangMode mode true v
    rw [h] at hsynced
    exact hsynced.inStep_iff.mpr ((inStep_of_hidden (hlist'.trans hlist)).mpr hidle)

/-! ### `on_keydown` -/

theorem Dealt.of_kept (hkept : SelectionKept t u) (h : Dealt u v) : Dealt t v := by
  rcases h with ⟨hlist, hignored⟩ | ⟨hin, hlist⟩
  · refine .inl ⟨hlist.trans hkept.list, fun hnone hignore => ?_⟩
    have hnone' : u.candidateList = none := by
      rw [← Option.not_isSome_iff_eq_none, hkept.list, hnone]
      exact Bool.false_ne_true
    exact (hignored hnone' hignore).trans hkept.editor
  · exact .inr ⟨hin, hkept.list.symm.trans hlist⟩

/-- **`on_keydown`** either returns with the selection as the reload left it, or
delivers the key. -/
theorem onKeydown_cases [KeyCodes] (laws : SelectionLaws E) {env : KeydownEnv}
    {ev : Int → KeyboardEvent} {handled : Bool}
    (h : t.onKeydown zhconv env ev = (.ok handled, u)) :
    ∃ w, Reloaded env.test.config t w ∧
      (t.beforeDelivery env ev = none ∧ SelectionKept w u ∨
        ∃ textAction v, t.beforeDelivery env ev = some (textAction, v) ∧ Dealt w v ∧
          v.deliverKey zhconv env.candidates textAction = (.ok handled, u)) := by
  unfold onKeydown at h
  unfold beforeDelivery
  -- the early returns of `on_keydown`, one after another
  rcases htest : t.onTestKeydown env.test ev with ⟨r, w⟩
  rw [htest] at h
  cases r with
  | error e => cases (Prod.mk.inj h).1
  | ok taken =>
    refine ⟨w, onTestKeydown_reloaded laws htest, ?_⟩
    cases taken with
    | false => exact .inl ⟨rfl, (Prod.mk.inj h).2 ▸ .refl w⟩
    | true =>
      dsimp only at h ⊢
      unfold handleKeydown at h
      rcases hbinding : w.handleKeybinding env (ev w.cfg.simulateEnglishLayout) with ⟨r, w'⟩
      rw [hbinding] at h
      cases r with
      | error e => cases (Prod.mk.inj h).1
      | ok binding =>
        have hbound := handleKeybinding_kept laws hbinding
        cases binding with
        | handled => exact .inl ⟨rfl, (Prod.mk.inj h).2 ▸ hbound⟩
        | proceed textAction =>
          dsimp only at h ⊢
          rcases hkey : w'.processKey env textAction (ev w.cfg.simulateEnglishLayout) with ⟨r, v⟩
          rw [hkey] at h
          cases r with
          | error e => cases (Prod.mk.inj h).1
          | ok returns =>
            have hdealt := processKey_dealt laws hkey
            cases returns with
            | true => exact .inl ⟨rfl, (Prod.mk.inj h).2 ▸ hbound.trans hdealt⟩
            | false => exact .inr ⟨textAction, v, rfl, .of_kept hbound hdealt, h⟩

/-- An ignored key leaves the two in step if it leaves a selection that is shown as it
was. -/
theorem Dealt.inStep_iff {config : ConfigEnv} (h : Dealt u v) (hreload : Reloaded config t u)
    (hin : t.InStep) (hignore : lastKeyBehavior v.chewingEditor = .ignore) :
    v.InStep ↔ (v.candidateList.isSome = true →
      isSelecting v.chewingEditor = isSelecting t.chewingEditor) := by
  have hlist : v.candidateList.isSome = true → t.candidateList.isSome = true := by
    intro hshown
    rw [← hreload.list]
    rcases h with ⟨hsame, -⟩ | ⟨-, hshown'⟩
    · exact hsame.symm.trans hshown
    · exact hshown'
  cases hshown : v.candidateList.isSome with
  | true =>
    have hselecting : isSelecting t.chewingEditor = true := hin.symm.trans (hlist hshown)
    unfold InStep
    rw [hshown, hselecting]
    exact ⟨fun heq _ => heq.symm, fun heq => (heq rfl).symm⟩
  | false =>
    refine iff_of_true ?_ nofun
    rcases h with ⟨hsame, hignored⟩ | ⟨hin', -⟩
    · -- no list was shown, so the editor did not select
      have hnone : u.candidateList = none := by
        rw [← Option.not_isSome_iff_eq_none, ← hsame, hshown]
        exact Bool.false_ne_true
      have hidle : isSelecting t.chewingEditor = false :=
        (inStep_of_hidden (hreload.list.symm.trans hnone)).mp hin
      have hreloaded : u.InStep := (hreload.inStep_iff hin).mpr fun _ => hidle
      unfold InStep
      rw [hignored hnone hignore, hshown, ← hreloaded, hnone]
      rfl
    · exact hin'

theorem onKeydown_inStep_iff [KeyCodes] (laws : SelectionLaws E) {env : KeydownEnv}
    {ev : Int → KeyboardEvent} {handled : Bool} (hin : t.InStep)
    (h : t.onKeydown zhconv env ev = (.ok handled, u)) :
    u.InStep ↔ t.KeydownAgrees env ev := by
  obtain ⟨w, hreload, ⟨hnone, hkept⟩ | ⟨textAction, v, hsome, hdealt, hdeliver⟩⟩ :=
    onKeydown_cases laws h
  · rw [hkept.inStep_iff, hreload.inStep_iff hin]
    constructor
    · intro hreturns
      exact ⟨fun _ => hreturns, fun p hp => by rw [hnone] at hp; cases hp⟩
    · intro hagrees
      exact hagrees.returns hnone
  · have hdelivers : u.InStep ↔ DeliveryAgrees env.candidates textAction t v := by
      unfold DeliveryAgrees
      rw [deliverKey_inStep_iff laws hdeliver]
      by_cases hignore : lastKeyBehavior v.chewingEditor = .ignore
      · rw [if_pos hignore, if_pos hignore]
        exact hdealt.inStep_iff hreload hin hignore
      · rw [if_neg hignore, if_neg hignore]
    rw [hdelivers]
    constructor
    · intro hagrees
      refine ⟨fun hnone => ?_, fun p hp => ?_⟩
      · rw [hsome] at hnone
        cases hnone
      · rw [hsome, Option.mem_some_iff] at hp
        rw [← hp]
        exact hagrees
    · intro hagrees
      exact hagrees.delivers (textAction, v) hsome

/-- Keys that the editor takes into the composition do not make the two part where a
list can be created. -/
theorem keydownAgrees_of_creatable [KeyCodes] {env : KeydownEnv} {ev : Int → KeyboardEvent}
    (hidle : isSelecting t.chewingEditor = false) (hnew : env.candidates.new.isSome = true)
    (htaken : ∀ p ∈ t.beforeDelivery env ev,
      lastKeyBehavior p.2.chewingEditor ≠ .ignore ∧ ¬ p.2.Direct p.1) :
    t.KeydownAgrees env ev := by
  refine ⟨fun _ _ => hidle, fun p hp => ?_⟩
  obtain ⟨hignore, hdirect⟩ := htaken p hp
  unfold DeliveryAgrees
  rw [if_neg hignore, if_neg hdirect]
  exact fun _ => .inr hnew

/-! ### Focus and termination -/

omit [EditorCommands E] in
theorem onKillFocus_selection (context : Bool) (t : Tip E) :
    (t.onKillFocus context).candidateList = none ∧
      (t.onKillFocus context).chewingEditor = t.chewingEditor := by
  refine ⟨rfl, ?_⟩
  unfold onKillFocus
  dsimp only [hideCandidates]
  split
  · rw [endComposition_chewingEditor]
  · rfl

/-- **`on_composition_terminated_tail`** ends the selection with the list. -/
theorem onCompositionTerminatedTail_inStep (laws : SelectionLaws E) (t : Tip E) :
    t.onCompositionTerminatedTail.InStep := by
  refine (inStep_of_hidden rfl).mpr ?_
  unfold onCompositionTerminatedTail
  dsimp only [hideCandidates]
  rw [laws.clearCompositionEditor, laws.clearSyllableEditor]
  split
  · next hselecting => exact (laws.cancelSelecting _ hselecting).2
  · next hidle => exact Bool.eq_false_iff.mpr hidle

theorem SelectionKept.runSession (t : Tip E) : SelectionKept t t.runSession where
  list := by rw [runSession_service]
  editor := by rw [runSession_service]

/-! ## Runs -/

variable [KeyCodes]

/-- **One call** leads from a state that is in step to one that is, exactly if it meets
`CandidateCall.Agrees`. -/
theorem inStep_step_iff (laws : SelectionLaws E) {c : CandidateCall} (hin : t.InStep)
    (hstep : CandidateStep zhconv t c u) : u.InStep ↔ c.Agrees t := by
  cases hstep with
  | keyDown h => exact onKeydown_inStep_iff laws hin h
  | testKeyDown h => exact (onTestKeydown_reloaded laws h).inStep_iff hin
  | killFocus context =>
    obtain ⟨hlist, heditor⟩ := onKillFocus_selection context t
    rw [inStep_of_hidden hlist, heditor]
    exact Iff.rfl
  | focus => exact iff_of_true hin trivial
  | threadFocus h => exact onThreadFocus_inStep_iff laws hin h
  | compositionTerminated => exact iff_of_true (onCompositionTerminatedTail_inStep laws t) trivial
  | session => exact iff_of_true ((SelectionKept.runSession t).inStep_iff.mpr hin) trivial

/-- **The candidate list and the editor.** After activation, every state of a run is
in step exactly if all its calls meet `CandidateCall.Agrees`. -/
theorem inStep_iff_agrees (laws : SelectionLaws E) {config : ConfigEnv} {mode : ModeEnv}
    {editor : E} {document : Document} {grant : Grant} {cs : List CandidateCall}
    (hstart : (Tip.new config.fromReg editor document grant).initChewingContext config mode
      = (.ok (), t)) :
    (Run (Guarded (fun t _ => t.InStep) (CandidateStep zhconv)) t cs u ∧ u.InStep) ↔
      Run (Guarded (fun t c => c.Agrees t) (CandidateStep zhconv)) t cs u :=
  Run.stays_iff (initChewingContext_inStep laws rfl hstart) (inStep_step_iff laws)

end Tip

end Model

open TypedEditor ScriptedEditor

theorem TypedEditor.selectionLaws : SelectionLaws TypedEditor where
  chewing _ _ := rfl
  setEditorOptions _ _ := rfl
  behavior_setEditorOptions _ _ := rfl
  setSyllableEditor _ _ := rfl
  setConversionEngine _ _ := rfl
  ack _ := rfl
  clearSyllableEditor _ := rfl
  clearCompositionEditor _ := rfl
  commit _ _ := rfl
  cancelSelecting _ _ := ⟨rfl, rfl⟩
  ignored evt e h := by
    replace h : (TypedEditor.processKeyevent evt e).lastKeyBehavior = .ignore := h
    show (TypedEditor.processKeyevent evt e).isSelecting = e.isSelecting
    unfold TypedEditor.processKeyevent at h ⊢
    split at h
    · next hdown =>
      rw [if_pos hdown]
      split at h
      · cases h
      · next hspelling => rw [if_neg hspelling]
    · split at h
      · cases h
      · cases h

namespace TypedEditor

/-- A key, with the default configuration. -/
def typed (ksym : Keysym) : CandidateCall := .keyDown (keydownEnv .default) fun _ => plainKey ksym

/-- The state after a key. -/
def afterKey (t : Tip TypedEditor) (ksym : Keysym) : Tip TypedEditor :=
  (t.onKeydown id (keydownEnv .default) fun _ => plainKey ksym).2

/-- A bopomofo has been typed. -/
def spelling : Tip TypedEditor := afterKey (activated .default).tip ⟨0x61⟩

/-- It has been made a syllable. -/
def composing : Tip TypedEditor := afterKey spelling ⟨0x61⟩

/-- The candidates of the syllable are shown. -/
def choosing : Tip TypedEditor := afterKey composing symDown

theorem activated_ok :
    (Tip.new (.ok .default) blank ⟨[], 0, none⟩ .immediate).initChewingContext
      ⟨.ok .default, some [], some []⟩ modeEnv = (.ok (), (activated .default).tip) := rfl

theorem typed_step (t : Tip TypedEditor) (ksym : Keysym)
    (h : (t.onKeydown id (keydownEnv .default) fun _ => plainKey ksym).1 = .ok true) :
    CandidateStep id t (typed ksym) (afterKey t ksym) := .keyDown_of_ok h

theorem typed_agrees (t : Tip TypedEditor) (ksym : Keysym)
    (hidle : isSelecting t.chewingEditor = false)
    (htaken : ∀ p ∈ t.beforeDelivery (keydownEnv .default) fun _ => plainKey ksym,
      ChewingEditor.lastKeyBehavior p.2.chewingEditor ≠ .ignore ∧ ¬ p.2.Direct p.1) :
    CandidateCall.Agrees t (typed ksym) :=
  Tip.keydownAgrees_of_creatable hidle rfl htaken

end TypedEditor

/-- The application ends the composition while the candidates are shown. -/
theorem Tip.inStep_after_termination : choosing.onCompositionTerminatedTail.InStep := by
  have hletter : Guarded (fun t c => CandidateCall.Agrees t c) (CandidateStep id)
      (activated .default).tip (typed ⟨0x61⟩) spelling :=
    ⟨typed_agrees _ _ rfl (by decide +kernel), typed_step _ _ (by decide +kernel)⟩
  have htone : Guarded (fun t c => CandidateCall.Agrees t c) (CandidateStep id) spelling
      (typed ⟨0x61⟩) composing :=
    ⟨typed_agrees _ _ (by decide +kernel) (by decide +kernel),
      typed_step _ _ (by decide +kernel)⟩
  have hdown : Guarded (fun t c => CandidateCall.Agrees t c) (CandidateStep id) composing
      (typed symDown) choosing :=
    ⟨typed_agrees _ _ (by decide +kernel) (by decide +kernel),
      typed_step _ _ (by decide +kernel)⟩
  have hterminated : Guarded (fun t c => CandidateCall.Agrees t c) (CandidateStep id) choosing
      .compositionTerminated _ := ⟨trivial, .compositionTerminated choosing⟩
  exact ((Tip.inStep_iff_agrees selectionLaws activated_ok).mpr
    ((((Run.single hletter).tail htone).tail hdown).tail hterminated)).2

/-- The focus is lost while the candidates are shown: the editor goes on selecting. -/
theorem Tip.selecting_after_killFocus :
    ¬ (SelectionLaws TypedEditor →
      ∀ (config : Tip.ConfigEnv) (mode : Tip.ModeEnv) (editor : TypedEditor) (document : Document)
        (grant : Grant) (cs : List CandidateCall) (t u : Tip TypedEditor),
      (Tip.new config.fromReg editor document grant).initChewingContext config mode = (.ok (), t) →
      Run (CandidateStep id) t cs u → u.InStep) := by
  intro hclaim
  have hletter := typed_step (activated .default).tip ⟨0x61⟩ (by decide +kernel)
  have htone := typed_step spelling ⟨0x61⟩ (by decide +kernel)
  have hdown := typed_step composing symDown (by decide +kernel)
  have hrun := (((Run.single hletter).tail htone).tail hdown).tail (.killFocus choosing true)
  have hin := hclaim selectionLaws _ _ _ _ _ _ _ _ activated_ok hrun
  exact absurd hin (by decide +kernel)

end ChewingTsf
