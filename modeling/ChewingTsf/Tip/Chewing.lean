import ChewingTsf.Tip.Service

/-!
# The key handlers of the text service (tip/src/text_service/chewing.rs)

From the bottom up: the three ways to request an edit session, the candidate
list, `update_preedit`, the configuration, the language mode, and the handlers
of key events and focus changes. `deliverKey` is the part of `on_keydown` that
follows the editor's processing of the key: it decides how the editor's output
reaches the document.

What the Windows APIs answer is an argument (`CandidateEnv`, `ModeEnv`,
`TestEnv`, `KeyupEnv`); IPC to the host only reports and has no effect here.
-/

namespace ChewingTsf

open ChewingEditor

variable {E : Type} [ChewingEditor E]

/-- `i32 as usize` and `i32 as u64`. -/
def i32AsU64 (n : Int) : Nat := (n % 0x10000000000000000).toNat

/-! ## The text of the composition (`update_preedit`) -/

/-- The variables of the loop over the intervals. -/
structure PreeditLoop where
  compositionBuf : Str
  segments : List (Nat × Nat)
  needPushBopomofo : Bool
  deriving DecidableEq

/-- The body of the loop. -/
def PreeditLoop.push (cursor : Nat) (bopomofo : Str) (l : PreeditLoop) (it : Interval) :
    PreeditLoop :=
  let bopomofoLen := bopomofo.length
  if it.start ≤ cursor ∧ cursor ≤ it.stop ∧ l.needPushBopomofo then
    -- bopomofo splits the segment
    let headLen := cursor - it.start
    { compositionBuf :=
        l.compositionBuf ++ it.text.take headLen ++ bopomofo ++ it.text.drop headLen
      segments := l.segments ++
        if cursor = it.start then
          [(cursor, cursor + bopomofoLen), (it.start + bopomofoLen, it.stop + bopomofoLen)]
        else if cursor = it.stop then
          [(it.start, it.stop), (cursor, cursor + bopomofoLen)]
        else
          [(it.start, cursor), (cursor, cursor + bopomofoLen), (cursor + bopomofoLen, it.stop)]
      needPushBopomofo := false }
  else
    { l with
      compositionBuf := l.compositionBuf ++ it.text
      segments := l.segments ++
        if it.start > cursor ∧ bopomofo ≠ [] then
          [(it.start + bopomofoLen, it.stop + bopomofoLen)]
        else [(it.start, it.stop)] }

/-- The loop, and the bopomofo if no interval took it. -/
def compositionBuffer (cursor : Nat) (bopomofo : Str) (intervals : List Interval) :
    Str × List (Nat × Nat) :=
  let l := intervals.foldl (PreeditLoop.push cursor bopomofo) ⟨[], [], !bopomofo.isEmpty⟩
  if l.needPushBopomofo then
    (l.compositionBuf ++ bopomofo, l.segments ++ [(0, bopomofo.length)])
  else (l.compositionBuf, l.segments)

/-- The editor's preedit: its intervals and its bopomofo. -/
def preedit (e : E) : Str :=
  (compositionBuffer (cursor e) (syllableBufferDisplay e) (intervals e)).1

namespace Tip

/-! ## Requesting sessions -/

/-- `insert_text`. -/
def insertText (text : Str) (t : Tip E) : Tip E :=
  t.requestEditSession (.insertText (utf16 text))

/-- `end_composition`: the cell goes to the session, the service takes a new one. -/
def endComposition (t : Tip E) : Tip E :=
  requestEditSession (.endComposition t.composition)
    { t with
      composition := t.nextCell
      nextCell := t.nextCell + 1
      store := t.store.setComposition t.nextCell none
      pendingEdit := none }

/-- The conversion of `set_composition_string` (`zhconv(_, Variant::ZhHans)`). -/
def converted (zhconv : Str → Str) (t : Tip E) (s : Str) : Str :=
  if t.outputSimpChinese then zhconv s else s

/-- `cell.replace(Some(..))`. -/
def replacePending (p : CellId) (cs : CompositionString) (t : Tip E) : Tip E :=
  { t with store := t.store.setPending p (some cs) }

/-- `set_composition_string`. -/
def setCompositionString (zhconv : Str → Str) (commit preedit : Str)
    (segments : List (Nat × Nat)) (cursor : Nat) (t : Tip E) : Tip E :=
  let cs : CompositionString :=
    ⟨t.converted zhconv commit, t.converted zhconv preedit, segments, cursor⟩
  match t.upgradePendingEdit with
  | some p => t.replacePending p cs
  | none =>
    requestEditSession (.setCompositionString t.composition t.nextCell)
      { t.replacePending t.nextCell cs with
        pendingEdit := some t.nextCell
        nextCell := t.nextCell + 1 }

/-! ## The candidate list -/

/-- `hide_candidates`. -/
def hideCandidates (t : Tip E) : Tip E := { t with candidateList := none }

/-- `SEL_KEYS`. -/
def selKeys : List Str :=
  ["1234567890".toList, "asdfghjkl;".toList, "asdfzxcv89".toList, "asdfjkl789".toList,
    "aoeuhtn789".toList, "1234qweras".toList]

/-- What happens while the candidate list is shown. -/
structure CandidateEnv where
  /-- `CandidateList::new`: `None` if it fails, else whether the list is shown -/
  new : Option Bool
  /-- the corner of the selection -/
  rect : Position
  /-- `show` succeeds -/
  shown : Bool

/-- The message for one page of candidates. -/
def candidateModel (cfg : ChewingTsfConfig) (rect : Position) (selKeys : Str) (n : Nat)
    (totalPage currentPage : UInt32) (items : List Str) : ShowCandidateList where
  position := rect
  items := items.take n
  selkeys := (selKeys.take n).map fun k => k.toNat.toUInt16
  candPerRow := UInt32.ofInt cfg.candPerRow
  totalPage := totalPage
  currentPage := currentPage
  fontFamily := cfg.fontFamily
  fontSize := cfg.fontSize
  fgColor := cfg.fontFgColor
  bgColor := cfg.fontBgColor
  highlightFgColor := cfg.fontHighlightFgColor
  highlightBgColor := cfg.fontHighlightBgColor
  borderColor := cfg.candListBorderColor
  selkeyColor := cfg.fontNumberFgColor
  useCursor := cfg.cursorCandList
  currentSel := 0

/-- The part of `update_candidates` after a list exists. -/
def updateCandidateList (env : CandidateEnv) (list : CandidateList) (t : Tip E) :
    Except Fault Unit × Tip E :=
  match selKeys[i32AsU64 t.cfg.selKeyType]? with
  | none => (.error .panic, t)
  | some keys =>
    match totalPage t.chewingEditor, currentPageNo t.chewingEditor,
      paginatedCandidates t.chewingEditor with
    | some total, some current, some items =>
      if total.toUInt32 = 0 then
        let (editor, ok) := cancelSelecting t.chewingEditor
        if ok then (.ok (), { t with chewingEditor := editor }.hideCandidates)
        else (.error .error, { t with chewingEditor := editor })
      else
        let model := candidateModel t.cfg env.rect keys
          (editorOptions t.chewingEditor).candidatesPerPage total.toUInt32
          (current.toUInt32 + 1) items
        (if env.shown then .ok () else .error .error,
          { t with candidateList := some { list with model := model } })
    | _, _, _ => (.error .error, t)

/-- `update_candidates`. -/
def updateCandidates (env : CandidateEnv) (t : Tip E) : Except Fault Unit × Tip E :=
  if isSelecting t.chewingEditor then
    match t.candidateList with
    | some list => t.updateCandidateList env list
    | none =>
      match env.new with
      | none => (.error .error, t)
      | some shown =>
        let list : CandidateList := ⟨.default, !shown⟩
        { t with candidateList := some list }.updateCandidateList env list
  else (.ok (), t.hideCandidates)

/-! ## `update_preedit` -/

/-- `update_preedit`. -/
def updatePreedit (zhconv : Str → Str) (commit : Str) (t : Tip E) : Tip E :=
  let e := t.chewingEditor
  let (compositionBuf, segments) :=
    compositionBuffer (cursor e) (syllableBufferDisplay e) (intervals e)
  if compositionBuf ≠ [] then
    t.setCompositionString zhconv commit compositionBuf segments (cursor e)
  else
    let t := if t.isComposing then t.setCompositionString zhconv commit [] [] 0 else t
    -- an open candidate list keeps the empty composition alive
    if t.candidateList.isNone then t.endComposition else t

/-! ## Configuration -/

/-- What the start-up and the reload of the configuration read. -/
structure ConfigEnv where
  fromReg : Except ConfigError ChewingTsfConfig
  userDir : Option Str
  programDir : Option Str

/-- `build_editor_from_cfg`. -/
def buildEditorFromCfg (env : ConfigEnv) (cfg : ChewingTsfConfig) : Option E := do
  let userPath ← env.userDir
  let programPath ← env.programDir
  let editor : E := setEditorOptions (fun opt => { opt with
      easySymbolInput := cfg.easySymbolsWithShift || cfg.easySymbolsWithShiftCtrl
      userPhraseAddDir := if cfg.addPhraseForward then .backward else .forward
      phraseChoiceRearward := cfg.phraseChoiceRearward
      autoShiftCursor := cfg.advanceAfterSelection
      candidatesPerPage := i32AsU64 cfg.candPerPage
      escClearAllBuffer := cfg.escCleanAllBuf
      spaceIsSelectKey := cfg.showCandWithSpaceKey
      disableAutoLearnPhrase := !cfg.enableAutoLearn
      enableFullwidthToggleKey := cfg.enableFullwidthToggleKey
      sortCandidatesByFrequency := cfg.sortCandidatesByFrequency
      conversionEngine :=
        if cfg.convEngine = 0 then .simpleEngine
        else if cfg.convEngine = 2 then .fuzzyChewingEngine else .chewingEngine
      lookupStrategy := if cfg.convEngine = 2 then .fuzzyPartialPrefix else .standard
      autoSnapshotSelections := true }) (chewing userPath programPath)
  let kbtype := (layoutOf (E := E) (UInt8.ofInt cfg.keyboardLayout)).getD .default
  let editor := setSyllableEditor kbtype editor
  return setConversionEngine (editorOptions editor).conversionEngine editor

variable [Keysyms]

/-- `apply_runtime_config`: says whether it succeeded. -/
def applyRuntimeConfig (env : ConfigEnv) (t : Tip E) : Bool × Tip E :=
  let t := { t with
    kbtype := (layoutOf (E := E) (UInt8.ofInt t.cfg.keyboardLayout)).getD .default }
  match buildEditorFromCfg env t.cfg with
  | none => (false, t)
  | some editor =>
    (true, { t with chewingEditor := editor
                    keybindings := t.cfg.keybind.filterMap Keybinding.tryFrom })

/-- `apply_config_if_changed`: says whether it succeeded. -/
def applyConfigIfChanged (env : ConfigEnv) (t : Tip E) : Bool × Tip E :=
  match t.cfg.reloadIfNeeded env.fromReg with
  | .error _ => (false, t)
  | .ok (false, _) => (true, t)
  | .ok (true, cfg) => { t with cfg := cfg }.applyRuntimeConfig env

/-! ## The language mode -/

/-- What a change of the language mode meets. -/
structure ModeEnv where
  capsLockOn : Bool
  /-- `update_lang_buttons` succeeds -/
  buttons : Bool
  /-- `GetFocus` and `GetTop` find a context -/
  context : Bool

omit [ChewingEditor E] [Keysyms] in
/-- `sync_lang_mode`. -/
def syncLangMode (env : ModeEnv) (internal : Bool) (t : Tip E) : Except Fault Unit × Tip E :=
  let t := { t with pendingLangModeChange := internal }
  let (lockedMode, unlockedMode) :=
    if t.cfg.lockChineseOnCapsLock then (TsfLangMode.chinese, TsfLangMode.english)
    else (TsfLangMode.english, TsfLangMode.chinese)
  let t := if !t.langMode.isDisabled && t.cfg.enableCapsLock then
      { t with langMode := if env.capsLockOn then lockedMode else unlockedMode }
    else t
  (if env.buttons then .ok () else .error .error, t)

/-- `toggle_lang_mode`. -/
def toggleLangMode (zhconv : Str → Str) (env : ModeEnv) (t : Tip E) :
    Except Fault Unit × Tip E :=
  let prev := t.langMode
  match { t with langMode := t.langMode.toggled }.syncLangMode env true with
  | (.error e, t) => (.error e, t)
  | (.ok (), t) =>
    if prev ≠ t.langMode then
      if env.context then
        (.ok (), { t with chewingEditor := clearSyllableEditor t.chewingEditor }.updatePreedit
          zhconv [])
      else (.error .error, t)
    else (.ok (), t)

/-! ## Key-downs -/

/-- What `is_context_mutable` reads of the context; each query may fail. -/
structure ContextStatus where
  dynamicFlags : Option UInt32
  emptyContext : Option Int
  keyboardDisabled : Option Int

def TF_SD_READONLY : UInt32 := 0x1

/-- `is_context_mutable`. -/
def ContextStatus.isMutable (c : ContextStatus) : Option Bool := do
  let flags ← c.dynamicFlags
  if flags &&& TF_SD_READONLY ≠ 0 then return false
  let empty ← c.emptyContext
  if empty = 1 then return false
  let disabled ← c.keyboardDisabled
  if disabled = 1 then return false
  return true

/-- What a key test meets. -/
structure TestEnv where
  context : ContextStatus
  now : Nat
  config : ConfigEnv

/-- `on_test_keydown` up to its verdict, in a context that could be queried:
whether a Shift tap has begun, and the state. -/
def beforeVerdict (env : TestEnv) (evt : KeyboardEvent) (t : Tip E) : Bool × Tip E :=
  let isShift := evt.ksym == Keysyms.symLeftshift || evt.ksym == Keysyms.symRightshift
  let t := if !isShift && evt.isStateOn .shift then { t with shiftKeyState := .consumed } else t
  let shiftDown := isShift && t.cfg.switchLangWithShift && t.shiftKeyState == .up
  let t := if shiftDown then { t with shiftKeyState := .down env.now } else t
  (shiftDown, (t.applyConfigIfChanged env.config).2)

/-- Steps 2 to 4 of `on_test_keydown`. -/
def verdict (simulateEnglishLayout isContextMutable shiftDown : Bool) (evt : KeyboardEvent)
    (t : Tip E) : Bool :=
  if t.langMode.isDisabled then false
  else if shiftDown then false
  else if t.keybindings.any fun kb => kb.«matches» evt then true
  else if evt.ksym = Keysyms.symCapslock ∧ ¬ t.cfg.enableCapsLock then false
  else if ¬ isContextMutable then false
  else if evt.isStateOn .alt then false
  else if evt.isStateOn .control then
    -- user phrases and easy symbols
    (t.isComposing && Keysyms.isDigit evt.ksym) ||
      (evt.isStateOn .shift && t.cfg.easySymbolsWithShiftCtrl)
  else if t.cfg.enableCapsLock ∧ ¬ t.cfg.lockChineseOnCapsLock ∧ Keysyms.isUnicode evt.ksym then
    true
  else if t.isComposing then true
  else
    let shapeMode := (editorOptions t.chewingEditor).characterForm
    if t.langMode.eqLanguageMode .english ∧ shapeMode = .halfwidth ∧ ¬ simulateEnglishLayout then
      evt.ksym = Keysyms.symSpace ∧ evt.isStateOn .shift ∧ t.cfg.enableFullwidthToggleKey
    else if evt.ksym = Keysyms.symSpace ∧ shapeMode ≠ .fullwidth ∧ ¬ evt.isStateOn .shift then
      false
    else Keysyms.isUnicode evt.ksym

/-- `on_test_keydown` for the event that `ev.to_keyboard_event` makes of a key. -/
def onTestKeydown (env : TestEnv) (ev : Int → KeyboardEvent) (t : Tip E) :
    Except Fault Bool × Tip E :=
  let editor := setEditorOptions
    (fun opt => { opt with languageMode := t.langMode.toLanguageMode }) t.chewingEditor
  let t := { t with chewingEditor := editor }
  match env.context.isMutable with
  | none => (.error .error, t)
  | some isContextMutable =>
    let evt := ev t.cfg.simulateEnglishLayout
    let simulateEnglishLayout := t.cfg.simulateEnglishLayout != 0
    let (shiftDown, t) := t.beforeVerdict env evt
    (.ok (t.verdict simulateEnglishLayout isContextMutable shiftDown evt), t)

omit [Keysyms] in
/-- The commit of a key pressed while nothing is composed goes straight into the
document. -/
def insertCommit (textAction : Option Str) (t : Tip E) : Tip E :=
  let text := displayCommit t.chewingEditor
  let t := { t with chewingEditor := ack t.chewingEditor }.insertText text
  match textAction with
  | none => t
  | some param => t.insertText param

omit [Keysyms] in
/-- The commit string for `update_preedit`. -/
def takeCommit (lastBehavior : EditorKeyBehavior) (textAction : Option Str) (t : Tip E) :
    Str × Tip E :=
  if lastBehavior = .commit then
    (displayCommit t.chewingEditor ++ textAction.getD [],
      { t with chewingEditor := ack t.chewingEditor })
  else ([], t)

omit [Keysyms] in
/-- The commit does not need `update_preedit`. -/
def Direct (textAction : Option Str) (t : Tip E) : Prop :=
  t.isComposing = false ∧ (lastKeyBehavior t.chewingEditor = .commit ∨ textAction.isSome)

instance (textAction : Option Str) (t : Tip E) : Decidable (t.Direct textAction) :=
  inferInstanceAs (Decidable (_ ∧ _))

omit [Keysyms] in
/-- `on_keydown` from `last_key_behavior` on, after the editor has processed the
key; `textAction` is the text of a text binding. -/
def deliverKey (zhconv : Str → Str) (env : CandidateEnv) (textAction : Option Str) (t : Tip E) :
    Except Fault Bool × Tip E :=
  let lastBehavior := lastKeyBehavior t.chewingEditor
  if lastBehavior = .ignore then (.ok false, t)
  else if t.Direct textAction then (.ok true, t.insertCommit textAction)
  else
    match t.updateCandidates env with
    | (.error .panic, t) => (.error .panic, t)
    | (_, t) =>
      let (commit, t) := t.takeCommit lastBehavior textAction
      (.ok true, t.updatePreedit zhconv commit)

/-! ## Key-ups -/

/-- What a key-up meets. -/
structure KeyupEnv where
  now : Nat
  mode : ModeEnv
  /-- `show_message` succeeds -/
  message : Bool

/-- The outcome of `show_message`, if notifications are on. -/
def notify (env : KeyupEnv) (t : Tip E) : Except Fault Unit :=
  if t.cfg.showNotification ∧ ¬ env.message then .error .error else .ok ()

/-- `on_keyup`: the Shift tap. -/
def shiftUp (zhconv : Str → Str) (env : KeyupEnv) (evt : KeyboardEvent) (t : Tip E) :
    Except Fault Unit × Tip E :=
  if evt.ksym = Keysyms.symLeftshift ∨ evt.ksym = Keysyms.symRightshift then
    let (duration, state) := t.shiftKeyState.release env.now
    let t : Tip E := { t with shiftKeyState := state }
    let tapped : Bool := duration.any fun d => d < i32AsU64 t.cfg.shiftKeySensitivity
    if tapped ∧ t.cfg.switchLangWithShift then
      if t.cfg.enableCapsLock then (t.notify env, t)
      else
        match t.toggleLangMode zhconv env.mode with
        | (.error e, t) => (.error e, t)
        | (.ok (), t) => (t.notify env, t)
    else (.ok (), t)
  else (.ok (), t)

/-- `on_keyup`: CapsLock. -/
def capsUp (env : KeyupEnv) (evt : KeyboardEvent) (t : Tip E) : Except Fault Unit × Tip E :=
  if t.cfg.enableCapsLock ∧ evt.ksym = Keysyms.symCapslock then
    match t.syncLangMode env.mode true with
    | (.error e, t) => (.error e, t)
    | (.ok (), t) => (t.notify env, t)
  else (.ok (), t)

/-- `on_keyup`: it never claims a key-up. -/
def onKeyup (zhconv : Str → Str) (env : KeyupEnv) (ev : Int → KeyboardEvent) (t : Tip E) :
    Except Fault Bool × Tip E :=
  let evt := ev t.cfg.simulateEnglishLayout
  match t.shiftUp zhconv env evt with
  | (.error e, t) => (.error e, t)
  | (.ok (), t) =>
    match t.capsUp env evt with
    | (.error e, t) => (.error e, t)
    | (.ok (), t) => (.ok false, t)

/-- `on_test_keyup`. -/
def onTestKeyup (zhconv : Str → Str) (env : KeyupEnv) (ev : Int → KeyboardEvent) (t : Tip E) :
    Except Fault Bool × Tip E :=
  if t.langMode.isDisabled then (.ok false, t) else t.onKeyup zhconv env ev

/-! ## Focus and termination -/

omit [Keysyms]

omit [ChewingEditor E] in
/-- `on_kill_focus`; `context` says whether there is one. -/
def onKillFocus (context : Bool) (t : Tip E) : Tip E :=
  let t := { t with hasFocus := false }
  let t := if t.isComposing && context then t.endComposition else t
  t.hideCandidates

omit [ChewingEditor E] in
/-- `on_focus`. -/
def onFocus (t : Tip E) : Tip E := { t with hasFocus := true }

/-- `on_composition_terminated_tail`. -/
def onCompositionTerminatedTail (t : Tip E) : Tip E :=
  let t := t.hideCandidates
  let editor :=
    if isSelecting t.chewingEditor then (cancelSelecting t.chewingEditor).1 else t.chewingEditor
  let editor := clearCompositionEditor (clearSyllableEditor editor)
  let store := match t.upgradePendingEdit with
    | some p => t.store.setPending p none
    | none => t.store
  { t with
    chewingEditor := editor
    pendingEdit := none
    store := store.setComposition t.composition none }

end Tip

end ChewingTsf
