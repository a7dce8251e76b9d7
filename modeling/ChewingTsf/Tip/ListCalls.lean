import ChewingTsf.Tip.CandidateCursor
import ChewingTsf.Tip.CandidateSync

/-!
# What the text service does with its candidate list

The candidate list is a UI element of TSF that the host draws
(tip/src/text_service/ui_elements/candidate_list.rs). `new` begins the element,
`set_model` and `filter_key_event` update it, `end_ui_element` ends it, and `show` and
`hide` tell the host. The service calls these methods while it handles keys, focus losses
and terminations; `KeyboardCall.listCalls` lists the calls, and
`KeyboardCall.next_listCalls` says that the list changes by them and by nothing else.
-/

namespace ChewingTsf

open ChewingEditor

/-- A call of the candidate list. -/
inductive ListCall where
  /-- `new`, with the answer of `BeginUIElement` -/
  | new (shouldShow : Bool)
  /-- `set_model`, and `show` after it -/
  | refresh (model : ShowCandidateList)
  /-- `filter_key_event`, and `show` if it has handled the key -/
  | filterKeyEvent (ksym : Keysym)
  | endUiElement
  /-- `ITfUIElement::Show`, which the application calls -/
  | showUiElement (shown : Bool)

/-- What a call asks of TSF (`ITfUIElementMgr`) and of the host. -/
inductive UiRequest where
  | beginUiElement
  | updateUiElement
  | endUiElement
  | showCandidateList (model : ShowCandidateList)
  | hideCandidateList

namespace ListCall

/-- `new` makes the list, which the other calls need. -/
def Possible (l : Option CandidateList) : ListCall → Prop
  | new _ => l = none
  | _ => l.isSome = true

variable [KeyTables]

/-- The list after the call. -/
def next (l : Option CandidateList) : ListCall → Option CandidateList
  | new shouldShow => some ⟨.default, !shouldShow⟩
  | refresh model => l.map (·.setModel model)
  | filterKeyEvent ksym => l.map fun list => (list.filterKeyEvent ksym).2
  | endUiElement => none
  | showUiElement shown => l.map (·.showUiElement shown)

/-- What the call asks for, in order. -/
def requests (l : Option CandidateList) : ListCall → List UiRequest
  | new shouldShow =>
    .beginUiElement :: if shouldShow then [.showCandidateList .default] else []
  | refresh model => [.updateUiElement, .showCandidateList model]
  | filterKeyEvent ksym =>
    .updateUiElement ::
      match l with
      | some list =>
        let (res, list) := list.filterKeyEvent ksym
        if res = .handled then [.showCandidateList list.model] else []
      | none => []
  | endUiElement => [.hideCandidateList, .endUiElement]
  | showUiElement shown =>
    match l with
    | some list => if shown then [.showCandidateList list.model] else []
    | none => []

end ListCall

/-- The calls take the list from `l` to `l'`. -/
def ListRun [KeyTables] (l : Option CandidateList) (cs : List ListCall)
    (l' : Option CandidateList) : Prop :=
  Along ListCall.Possible ListCall.next l cs ∧ cs.foldl ListCall.next l = l'

namespace ListRun

variable [KeyTables] {l l' l'' : Option CandidateList} {cs ds : List ListCall}

theorem refl (l : Option CandidateList) : ListRun l [] l := ⟨trivial, rfl⟩

theorem single {c : ListCall} (h : c.Possible l) : ListRun l [c] (c.next l) :=
  ⟨⟨h, trivial⟩, rfl⟩

theorem trans (h : ListRun l cs l') (h' : ListRun l' ds l'') : ListRun l (cs ++ ds) l'' := by
  obtain ⟨hcs, rfl⟩ := h
  obtain ⟨hds, rfl⟩ := h'
  exact ⟨hcs.append hds, List.foldl_append⟩

end ListRun

variable {E : Type}

namespace Tip

/-! ## The calls of the handlers -/

section Calls

variable [ChewingEditor E]

omit [ChewingEditor E] in
/-- `hide_candidates`. -/
def hideCandidatesCalls (t : Tip E) : List ListCall :=
  if t.candidateList.isSome then [.endUiElement] else []

/-- The part of `update_candidates` after a list exists. -/
def updateCandidateListCalls (env : CandidateEnv) (t : Tip E) : List ListCall :=
  match selKeys[i32AsU64 t.cfg.selKeyType]? with
  | none => []
  | some keys =>
    match totalPage t.chewingEditor, currentPageNo t.chewingEditor,
      paginatedCandidates t.chewingEditor with
    | some total, some current, some items =>
      if total.toUInt32 = 0 then
        if (cancelSelecting t.chewingEditor).2 then t.hideCandidatesCalls else []
      else
        [.refresh (candidateModel t.cfg env.rect keys
          (editorOptions t.chewingEditor).candidatesPerPage total.toUInt32
          (current.toUInt32 + 1) items)]
    | _, _, _ => []

/-- `update_candidates`. -/
def updateCandidatesCalls (env : CandidateEnv) (t : Tip E) : List ListCall :=
  if isSelecting t.chewingEditor then
    match t.candidateList with
    | some _ => t.updateCandidateListCalls env
    | none =>
      match env.new with
      | none => []
      | some shown =>
        .new shown ::
          { t with candidateList := some ⟨.default, !shown⟩ }.updateCandidateListCalls env
  else t.hideCandidatesCalls

/-- `deliverKey`. -/
def deliverKeyListCalls (env : CandidateEnv) (textAction : Option Str) (t : Tip E) :
    List ListCall :=
  if lastKeyBehavior t.chewingEditor = .ignore then []
  else if t.Direct textAction then []
  else t.updateCandidatesCalls env

end Calls

section KeydownCalls

variable [EditorCommands E]

section

variable [KeyTables]

/-- `selecting_unlearn_phrase`. -/
def unlearnCurrentCalls (env : KeydownEnv) (list : CandidateList) (t : Tip E) : List ListCall :=
  if isSelecting t.chewingEditor then
    match list.model.items[list.model.currentSel]? with
    | none => []
    | some phrase =>
      if (t.syllablesOf phrase).length = phrase.length then
        { t with chewingEditor := (EditorCommands.unlearnPhrase (t.syllablesOf phrase) phrase
            t.chewingEditor).1 }.updateCandidatesCalls env.unlearn
      else []
  else []

/-- `handleInList`. -/
def handleInListCalls (env : KeydownEnv) (evt : KeyboardEvent) (commit : Bool)
    (list : CandidateList) (t : Tip E) : List ListCall :=
  match if commit then t.selectCurrent list else (.ok (), t) with
  | (.error _, _) => []
  | (.ok (), t) =>
    match t.keybindings.find? (·.«matches» evt) with
    | none => []
    | some kb =>
      if kb.action = "selecting_unlearn_phrase".toList then t.unlearnCurrentCalls env list
      else []

/-- A key that is not printable. -/
def processOtherCalls (env : KeydownEnv) (evt : KeyboardEvent) (t : Tip E) : List ListCall :=
  match if t.cfg.cursorCandList then t.candidateList else none with
  | none => []
  | some list =>
    let (res, list) := list.filterKeyEvent evt.ksym
    .filterKeyEvent evt.ksym ::
      if res = .handled then []
      else { t with candidateList := some list }.handleInListCalls env evt
        (decide (res = FilterKeyResult.handledCommit)) list

end

variable [KeyCodes]

/-- The key goes to the editor or the candidate list. -/
def processKeyCalls (env : KeydownEnv) (textAction : Option Str) (evt : KeyboardEvent)
    (t : Tip E) : List ListCall :=
  if textAction.isSome then []
  else if Keysyms.isUnicode evt.ksym then []
  else t.processOtherCalls env evt

/-- `on_keydown` after its key test. -/
def handleKeydownCalls (env : KeydownEnv) (evt : KeyboardEvent) (t : Tip E) : List ListCall :=
  match t.handleKeybinding env evt with
  | (.ok (.proceed textAction), t) =>
    t.processKeyCalls env textAction evt ++
      match t.processKey env textAction evt with
      | (.ok false, t) => t.deliverKeyListCalls env.candidates textAction
      | _ => []
  | _ => []

/-- `on_keydown`. -/
def onKeydownListCalls (env : KeydownEnv) (ev : Int → KeyboardEvent) (t : Tip E) :
    List ListCall :=
  match t.onTestKeydown env.test ev with
  | (.ok true, t) => t.handleKeydownCalls env (ev t.cfg.simulateEnglishLayout)
  | _ => []

end KeydownCalls

/-! ## The list changes by these calls -/

section Runs

variable {t : Tip E} [KeyTables]

theorem hideCandidates_listRun (t : Tip E) :
    ListRun t.candidateList t.hideCandidatesCalls t.hideCandidates.candidateList := by
  show ListRun t.candidateList t.hideCandidatesCalls none
  unfold hideCandidatesCalls
  cases t.candidateList with
  | none => exact .refl none
  | some list => exact .single (c := .endUiElement) rfl

section

variable [ChewingEditor E]

theorem updateCandidateList_listRun (env : CandidateEnv) {list : CandidateList}
    (hlist : t.candidateList = some list) :
    ListRun t.candidateList (t.updateCandidateListCalls env)
      (t.updateCandidateList env list).2.candidateList := by
  unfold updateCandidateListCalls updateCandidateList
  cases selKeys[i32AsU64 t.cfg.selKeyType]? with
  | none => exact .refl _
  | some keys =>
    cases totalPage t.chewingEditor with
    | none => exact .refl _
    | some total =>
      cases currentPageNo t.chewingEditor with
      | none => exact .refl _
      | some current =>
        cases paginatedCandidates t.chewingEditor with
        | none => exact .refl _
        | some items =>
          dsimp only
          by_cases hpages : total.toUInt32 = 0
          · rw [if_pos hpages, if_pos hpages]
            -- the editor has no candidates, and the list is hidden
            cases (cancelSelecting t.chewingEditor).2 with
            | false => exact .refl _
            | true => exact hideCandidates_listRun t
          · rw [if_neg hpages, if_neg hpages, hlist]
            exact .single (c := .refresh _) rfl

/-- **`update_candidates`.** -/
theorem updateCandidates_listRun (env : CandidateEnv) (t : Tip E) :
    ListRun t.candidateList (t.updateCandidatesCalls env)
      (t.updateCandidates env).2.candidateList := by
  unfold updateCandidatesCalls updateCandidates
  by_cases hselecting : isSelecting t.chewingEditor = true
  · rw [if_pos hselecting, if_pos hselecting]
    cases hlist : t.candidateList with
    | some list =>
      have hupdate := updateCandidateList_listRun env hlist
      rwa [hlist] at hupdate
    | none =>
      cases env.new with
      | none =>
        show ListRun none [] t.candidateList
        rw [hlist]
        exact .refl none
      | some shown =>
        exact (ListRun.single (c := .new shown) rfl).trans (updateCandidateList_listRun
          (t := { t with candidateList := some ⟨.default, !shown⟩ }) env rfl)
  · rw [if_neg hselecting, if_neg hselecting]
    exact hideCandidates_listRun t

omit [KeyTables] in
theorem takeCommit_candidateList (last : EditorKeyBehavior) (textAction : Option Str)
    (t : Tip E) : (t.takeCommit last textAction).2.candidateList = t.candidateList := by
  unfold takeCommit
  split <;> rfl

end

/-! ### Key-downs -/

section Keydown

variable [EditorCommands E]

/-- **The delivery** of a key. -/
theorem deliverKey_listRun (zhconv : Str → Str) (env : CandidateEnv) (textAction : Option Str)
    (t : Tip E) :
    ListRun t.candidateList (t.deliverKeyListCalls env textAction)
      (t.deliverKey zhconv env textAction).2.candidateList := by
  unfold deliverKeyListCalls
  by_cases hignore : lastKeyBehavior t.chewingEditor = .ignore
  · rw [if_pos hignore, deliverKey, if_pos hignore]
    exact .refl _
  · rw [if_neg hignore]
    by_cases hdirect : t.Direct textAction
    · rw [if_pos hdirect, deliverKey, if_neg hignore, if_pos hdirect]
      show ListRun t.candidateList [] (t.insertCommit textAction).candidateList
      rw [insertCommit_candidateList]
      exact .refl _
    · have hupdate := updateCandidates_listRun env t
      rw [if_neg hdirect, deliverKey, if_neg hignore, if_neg hdirect]
      rcases hu : t.updateCandidates env with ⟨r, u⟩
      rw [hu] at hupdate
      rcases r with fault | _
      · cases fault with
        | panic => exact hupdate
        | error =>
          show ListRun _ _ ((u.takeCommit _ textAction).2.updatePreedit zhconv _).candidateList
          rw [updatePreedit_candidateList, takeCommit_candidateList]
          exact hupdate
      · show ListRun _ _ ((u.takeCommit _ textAction).2.updatePreedit zhconv _).candidateList
        rw [updatePreedit_candidateList, takeCommit_candidateList]
        exact hupdate

theorem unlearnCurrent_listRun (env : KeydownEnv) (list : CandidateList) (t : Tip E) :
    ListRun t.candidateList (t.unlearnCurrentCalls env list)
      (t.unlearnCurrent env list).2.candidateList := by
  unfold unlearnCurrentCalls unlearnCurrent
  by_cases hselecting : isSelecting t.chewingEditor = true
  · rw [if_pos hselecting, if_pos hselecting]
    cases list.model.items[list.model.currentSel]? with
    | none => exact .refl _
    | some phrase =>
      dsimp only
      by_cases hlength : (t.syllablesOf phrase).length = phrase.length
      · rw [if_pos hlength, if_pos hlength]
        have hupdate := updateCandidates_listRun env.unlearn { t with chewingEditor :=
          (EditorCommands.unlearnPhrase (t.syllablesOf phrase) phrase t.chewingEditor).1 }
        unfold unlearnPhrase
        dsimp only
        split
        · next u hu =>
          rw [hu] at hupdate
          exact hupdate
        · next u hu =>
          rw [hu] at hupdate
          exact hupdate
      · rw [if_neg hlength, if_neg hlength]
        exact .refl _
  · rw [if_neg hselecting, if_neg hselecting]
    exact .refl _

theorem handleInList_listRun (env : KeydownEnv) (evt : KeyboardEvent) (commit : Bool)
    (list : CandidateList) (t : Tip E) :
    ListRun t.candidateList (t.handleInListCalls env evt commit list)
      (t.handleInList env evt commit list).2.candidateList := by
  have hselect : (if commit then t.selectCurrent list else (.ok (), t)).2.candidateList
      = t.candidateList := by
    cases commit <;> rfl
  unfold handleInListCalls handleInList
  rcases hu : (if commit then t.selectCurrent list else (.ok (), t)) with ⟨r, u⟩
  rw [hu] at hselect
  rw [← hselect]
  cases r with
  | error e => exact .refl _
  | ok _ =>
    dsimp only
    cases u.keybindings.find? (·.«matches» evt) with
    | none => exact .refl _
    | some kb =>
      dsimp only
      by_cases haction : kb.action = "selecting_unlearn_phrase".toList
      · rw [if_pos haction, if_pos haction]
        exact unlearnCurrent_listRun env list u
      · rw [if_neg haction, if_neg haction]
        exact .refl _

theorem processOther_listRun (env : KeydownEnv) (evt : KeyboardEvent) (t : Tip E) :
    ListRun t.candidateList (t.processOtherCalls env evt)
      (t.processOther env evt).2.candidateList := by
  unfold processOtherCalls processOther
  have hcursor : ∀ list, (if t.cfg.cursorCandList then t.candidateList else none) = some list →
      t.candidateList = some list := by
    intro list h
    split at h
    · exact h
    · cases h
  cases hlist : (if t.cfg.cursorCandList then t.candidateList else none) with
  | none => exact .refl _
  | some list =>
    rw [hcursor list hlist]
    have hmoved : ListRun (some list) [.filterKeyEvent evt.ksym]
        (some (list.filterKeyEvent evt.ksym).2) := .single rfl
    dsimp only
    by_cases hhandled : (list.filterKeyEvent evt.ksym).1 = .handled
    · rw [if_pos hhandled, if_pos hhandled]
      exact hmoved
    · rw [if_neg hhandled, if_neg hhandled]
      have hrest := handleInList_listRun env evt
        (decide ((list.filterKeyEvent evt.ksym).1 = FilterKeyResult.handledCommit))
        (list.filterKeyEvent evt.ksym).2
        { t with candidateList := some (list.filterKeyEvent evt.ksym).2 }
      split
      · next u hu =>
        rw [hu] at hrest
        exact hmoved.trans hrest
      · next handled u hu =>
        rw [hu] at hrest
        cases handled <;> exact hmoved.trans hrest

end Keydown

end Runs

section Handlers

variable {t : Tip E} (zhconv : Str → Str) [EditorCommands E] [KeyCodes]

theorem processKey_listRun (env : KeydownEnv) (textAction : Option Str) (evt : KeyboardEvent)
    (t : Tip E) :
    ListRun t.candidateList (t.processKeyCalls env textAction evt)
      (t.processKey env textAction evt).2.candidateList := by
  unfold processKeyCalls processKey
  by_cases htext : textAction.isSome = true
  · rw [if_pos htext, if_pos htext]
    exact .refl _
  · rw [if_neg htext, if_neg htext]
    by_cases hprintable : Keysyms.isUnicode evt.ksym = true
    · rw [if_pos hprintable, if_pos hprintable]
      unfold processPrintable
      dsimp only
      split <;> exact .refl _
    · rw [if_neg hprintable, if_neg hprintable]
      exact processOther_listRun env evt t

omit [KeyCodes] in
theorem handleKeybinding_candidateList [Keysyms] (env : KeydownEnv) (evt : KeyboardEvent)
    (t : Tip E) : (t.handleKeybinding env evt).2.candidateList = t.candidateList := by
  unfold handleKeybinding
  split
  · rfl
  · unfold runAction
    split
    · rfl
    · split
      · rfl
      · split
        · split <;> rfl
        · split <;> rfl

theorem handleKeydown_listRun (env : KeydownEnv) (evt : KeyboardEvent) (t : Tip E) :
    ListRun t.candidateList (t.handleKeydownCalls env evt)
      (t.handleKeydown zhconv env evt).2.candidateList := by
  have hbinding := handleKeybinding_candidateList env evt t
  unfold handleKeydownCalls handleKeydown
  rcases hu : t.handleKeybinding env evt with ⟨r, u⟩
  rw [hu] at hbinding
  rw [← hbinding]
  rcases r with _ | binding
  · exact .refl _
  · cases binding with
    | handled => exact .refl _
    | proceed textAction =>
      have hkey := processKey_listRun env textAction evt u
      dsimp only
      rcases hv : u.processKey env textAction evt with ⟨r, v⟩
      rw [hv] at hkey
      rcases r with _ | returns
      · exact hkey.trans (.refl _)
      · cases returns with
        | true => exact hkey.trans (.refl _)
        | false => exact hkey.trans (deliverKey_listRun zhconv env.candidates textAction v)

omit [EditorCommands E] [KeyCodes] in
theorem onTestKeydown_candidateList [ChewingEditor E] [Keysyms] (env : TestEnv)
    (ev : Int → KeyboardEvent) (t : Tip E) :
    (t.onTestKeydown env ev).2.candidateList = t.candidateList := by
  obtain ⟨editor, -, heq | ⟨state, _, _, _, _, u, rfl, heq⟩⟩ := onTestKeydown_cases env ev t
  · rw [heq]
  · rw [heq]
    obtain ⟨cfg, kbtype, editor', keybindings, hreload⟩ := applyConfigIfChanged_eq env.config
      { t with chewingEditor := editor, shiftKeyState := state }
    rw [hreload]

/-- **`on_keydown`** changes the list by its calls. -/
theorem onKeydown_listRun (env : KeydownEnv) (ev : Int → KeyboardEvent) (t : Tip E) :
    ListRun t.candidateList (t.onKeydownListCalls env ev)
      (t.onKeydown zhconv env ev).2.candidateList := by
  have htest := onTestKeydown_candidateList env.test ev t
  unfold onKeydownListCalls onKeydown
  rcases hu : t.onTestKeydown env.test ev with ⟨r, u⟩
  rw [hu] at htest
  rw [← htest]
  rcases r with _ | taken
  · exact .refl _
  · cases taken with
    | false => exact .refl _
    | true => exact handleKeydown_listRun zhconv env _ u

/-! ### The other calls -/

omit [EditorCommands E] [KeyCodes] in
theorem onKillFocus_listRun [KeyTables] (context : Bool) (t : Tip E) :
    ListRun t.candidateList t.hideCandidatesCalls (t.onKillFocus context).candidateList :=
  hideCandidates_listRun t

omit [EditorCommands E] [KeyCodes] in
theorem syncLangMode_candidateList (env : ModeEnv) (internal : Bool) (t : Tip E) :
    (t.syncLangMode env internal).2.candidateList = t.candidateList := by
  obtain ⟨langMode, heq, -⟩ := syncLangMode_eq env internal t
  rw [heq]

omit [KeyCodes] in
theorem toggleLangMode_candidateList (env : ModeEnv) (t : Tip E) :
    (t.toggleLangMode zhconv env).2.candidateList = t.candidateList := by
  have htoggled := syncLangMode_candidateList env true { t with langMode := t.langMode.toggled }
  unfold toggleLangMode
  dsimp only
  split
  · next u hu =>
    rw [hu] at htoggled
    exact htoggled
  · next u hu =>
    rw [hu] at htoggled
    split
    · split
      · exact (updatePreedit_candidateList zhconv _ _).trans htoggled
      · exact htoggled
    · exact htoggled

theorem shiftUp_candidateList (env : KeyupEnv) (evt : KeyboardEvent) (t : Tip E) :
    (t.shiftUp zhconv env evt).2.candidateList = t.candidateList := by
  unfold shiftUp
  split
  · dsimp only
    split
    · split
      · rfl
      · have htoggle := toggleLangMode_candidateList zhconv env.mode
          { t with shiftKeyState := (t.shiftKeyState.release env.now).2 }
        split
        · next u hu =>
          rw [hu] at htoggle
          exact htoggle
        · next u hu =>
          rw [hu] at htoggle
          exact htoggle
    · rfl
  · rfl

omit [EditorCommands E] in
theorem capsUp_candidateList (env : KeyupEnv) (evt : KeyboardEvent) (t : Tip E) :
    (t.capsUp env evt).2.candidateList = t.candidateList := by
  have hsync := syncLangMode_candidateList env.mode true t
  unfold capsUp
  split
  · split
    · next u hu =>
      rw [hu] at hsync
      exact hsync
    · next u hu =>
      rw [hu] at hsync
      exact hsync
  · rfl

theorem onKeyup_candidateList (env : KeyupEnv) (ev : Int → KeyboardEvent) (t : Tip E) :
    (t.onKeyup zhconv env ev).2.candidateList = t.candidateList := by
  have hshift := shiftUp_candidateList zhconv env (ev t.cfg.simulateEnglishLayout) t
  unfold onKeyup
  dsimp only
  split
  · next u hu =>
    rw [hu] at hshift
    exact hshift
  · next u hu =>
    rw [hu] at hshift
    have hcaps := (capsUp_candidateList env (ev t.cfg.simulateEnglishLayout) u).trans hshift
    split
    · next v hv =>
      rw [hv] at hcaps
      exact hcaps
    · next v hv =>
      rw [hv] at hcaps
      exact hcaps

theorem onTestKeyup_candidateList (env : KeyupEnv) (ev : Int → KeyboardEvent) (t : Tip E) :
    (t.onTestKeyup zhconv env ev).2.candidateList = t.candidateList := by
  unfold onTestKeyup
  split
  · rfl
  · exact onKeyup_candidateList zhconv env ev t

omit [EditorCommands E] in
theorem onThreadFocus_candidateList [ChewingEditor E] (config : ConfigEnv) (mode : ModeEnv) (t : Tip E) :
    (t.onThreadFocus config mode).2.candidateList = t.candidateList := by
  obtain ⟨cfg, -, heq⟩ := onThreadFocus_eq config mode t
  obtain ⟨kbtype, editor, keybindings, hruntime⟩ :=
    applyRuntimeConfig_eq config { t with cfg := cfg }
  rw [heq]
  split
  · next u hu =>
    rw [hu] at hruntime
    rw [show u = _ from hruntime]
  · next u hu =>
    rw [hu] at hruntime
    rw [syncLangMode_candidateList, show u = _ from hruntime]

omit [KeyCodes] in
theorem commitComposition_candidateList (context : Bool) (t : Tip E) :
    (t.commitComposition zhconv context).2.candidateList = t.candidateList := by
  unfold commitComposition
  dsimp only
  split
  · split
    · rw [endComposition_candidateList, setCompositionString_candidateList]
    · rfl
  · rfl

omit [KeyCodes] in
theorem onChange_candidateList (env : CompartmentEnv) (t : Tip E) :
    (t.onChange zhconv env true).2.candidateList = t.candidateList := by
  by_cases hexpected : t.pendingLangModeChange = true ∨ t.hasFocus = false
  · rw [onChange_of_expected env hexpected]
  · obtain ⟨hpending, hfocus⟩ := not_or.mp hexpected
    replace hpending := Bool.eq_false_iff.mpr hpending
    replace hfocus := Bool.not_eq_false _ ▸ hfocus
    have hswitched := syncLangMode_candidateList env.mode false t.switchedOpenclose
    by_cases hsync : t.cfg.syncLangModeOpenclose = true
    · rw [onChange_of_sync env hsync hpending hfocus]
      exact hswitched
    · rw [onChange, if_neg hsync, onCompartmentChange_of_unexpected env.mode hpending hfocus]
      split
      · next u hu =>
        rw [hu] at hswitched
        exact hswitched
      · next u hu =>
        rw [hu] at hswitched
        split
        · exact (commitComposition_candidateList zhconv env.mode.context u).trans hswitched
        · exact hswitched

omit [KeyCodes] in
theorem onCommand_candidateList (env : CommandEnv) (id : UInt32) (cmdType : CommandType)
    (t : Tip E) : (t.onCommand zhconv env id cmdType).candidateList = t.candidateList := by
  rw [onCommand_eq]
  cases commandItem env id cmdType with
  | none => rfl
  | some item =>
    show (t.menuCommand zhconv env.mode item).candidateList = t.candidateList
    unfold menuCommand
    split
    · exact toggleLangMode_candidateList zhconv env.mode t
    · split
      · rfl
      · split <;> rfl

end Handlers

end Tip

/-! ## Calls of TSF -/

section Keyboard

variable [EditorCommands E] [KeyCodes] (zhconv : Str → Str)

omit [KeyCodes] in
theorem Keyboard.thenSync_candidateList {α : Type} (env : Tip.CompartmentEnv)
    (r : Except Fault α × Tip E) (k : Keyboard E) :
    (k.thenSync zhconv env r).tip.candidateList = r.2.candidateList := by
  unfold Keyboard.thenSync
  split
  · obtain ⟨pending, heq⟩ :=
      Keyboard.syncKeyboardOpenclose_tip zhconv env { k with tip := r.2 }
    rw [heq]
  · rfl

omit [KeyCodes] in
/-- The service starts without a list. -/
theorem Keyboard.activate_candidateList [Keysyms] (env : ActivateEnv) (editor : E)
    (document : Document) (grant : Grant) (openclose : Option Int) :
    (activate env editor document grant openclose).tip.candidateList = none := by
  have hruntime : ∀ t : Tip E, (t.applyRuntimeConfig env.config).2.candidateList
      = t.candidateList := by
    intro t
    obtain ⟨kbtype, editor, keybindings, heq⟩ := Tip.applyRuntimeConfig_eq env.config t
    rw [heq]
  have hinit : ∀ t : Tip E, (t.applyInitConfig env.config).2.candidateList = t.candidateList :=
    fun t => hruntime _
  show ((Tip.new env.config.fromReg editor document grant).initChewingContext env.config
    env.mode).2.candidateList = none
  have hnew := hinit (Tip.new env.config.fromReg editor document grant)
  unfold Tip.initChewingContext
  split
  · next u hu =>
    rw [hu] at hnew
    exact hnew
  · next u hu =>
    rw [hu] at hnew
    rw [Tip.syncLangMode_candidateList]
    exact hnew

/-- The calls of the candidate list that a call of TSF leads to. -/
def KeyboardCall.listCalls (k : Keyboard E) : KeyboardCall → List ListCall
  | keyDown env ev => k.tip.onKeydownListCalls env ev
  | setFocus null _ => if null then k.tip.hideCandidatesCalls else []
  | compositionTerminated => k.tip.hideCandidatesCalls
  | _ => []

/-- **Every call of TSF** changes the candidate list by these calls, and by nothing else. -/
theorem KeyboardCall.next_listCalls (k : Keyboard E) (c : KeyboardCall) :
    ListRun k.tip.candidateList (c.listCalls k) (c.next zhconv k).tip.candidateList := by
  have hnone : ∀ {l : Option CandidateList}, l = k.tip.candidateList →
      ListRun k.tip.candidateList [] l := by
    rintro _ rfl
    exact .refl _
  cases c with
  | change value env =>
    refine hnone ?_
    show (k.setOpenclose zhconv env true value).tip.candidateList = _
    unfold Keyboard.setOpenclose
    split
    · rfl
    · exact Tip.onChange_candidateList zhconv env k.tip
  | testKeyDown env ev => exact hnone (Tip.onTestKeydown_candidateList env ev k.tip)
  | keyDown env ev => exact Tip.onKeydown_listRun zhconv env ev k.tip
  | testKeyUp env ev sync =>
    exact hnone ((Keyboard.thenSync_candidateList zhconv sync _ k).trans
      (Tip.onTestKeyup_candidateList zhconv env ev k.tip))
  | keyUp env ev sync =>
    exact hnone ((Keyboard.thenSync_candidateList zhconv sync _ k).trans
      (Tip.onKeyup_candidateList zhconv env ev k.tip))
  | command env id cmdType sync =>
    refine hnone ?_
    obtain ⟨pending, heq⟩ := Keyboard.syncKeyboardOpenclose_tip zhconv sync
      { k with tip := k.tip.onCommand zhconv env id cmdType }
    show (Keyboard.syncKeyboardOpenclose _ _ _).tip.candidateList = _
    rw [heq]
    exact Tip.onCommand_candidateList zhconv env id cmdType k.tip
  | setThreadFocus config mode sync =>
    exact hnone ((Keyboard.thenSync_candidateList zhconv sync _ k).trans
      (Tip.onThreadFocus_candidateList config mode k.tip))
  | setFocus null context =>
    cases null with
    | true => exact Tip.onKillFocus_listRun context k.tip
    | false => exact .refl _
  | compositionTerminated => exact Tip.hideCandidates_listRun k.tip
  | session => exact hnone (congrArg _ (Tip.runSession_service k.tip))

end Keyboard

end ChewingTsf
