import ChewingTsf.Host.TipSession

/-!
# `on_keydown` (tip/src/text_service/chewing.rs)

After its own key test, `on_keydown` looks for a keybinding, hands the key to the
editor (or, with a cursor in the candidate list, to the list), and delivers what
the editor made of it (`deliverKey`). Each part can return early.

What a key meets outside the service is its `KeydownEnv`. The host draws what
`show` and `show_message` send; only whether `show_message` succeeds matters here.
-/

namespace ChewingTsf

open ChewingEditor

/-! ## What else it uses of the engine -/

/-- `Syllable`. -/
structure Syllable where
  code : UInt16
  deriving DecidableEq

/-- The operations of `Editor` that only key-downs and the open/close switch use. -/
class EditorCommands (E : Type) extends ChewingEditor E where
  isEmpty : E → Bool
  /-- `commit`, and whether it returns `Ok` -/
  commit : E → E × Bool
  /-- `select`, and whether it returns `Ok` -/
  select : Nat → E → E × Bool
  /-- `symbols`, each as its `to_syllable` -/
  symbols : E → List (Option Syllable)
  /-- `unlearn_phrase`, and whether it returns `Ok` -/
  unlearnPhrase : List Syllable → Str → E → E × Bool

/-- The key symbols and key functions that only `on_keydown` uses. -/
class KeyCodes extends KeyTables where
  isAtoz : Keysym → Bool
  isAscii : Keysym → Bool
  /-- `Keysym::to_unicode` -/
  toUnicode : Keysym → Char
  /-- `Keysym::from` -/
  ofChar : Char → Keysym
  sym0 : Keysym
  sym1 : Keysym
  key0 : Keycode
  key1 : Keycode

/-! ## The cursor in the candidate list (ui_elements/candidate_list.rs) -/

/-- `FilterKeyResult`. -/
inductive FilterKeyResult where
  | handled
  | handledCommit
  | notHandled
  deriving DecidableEq

namespace CandidateList

/-- `model.items.len() - 1`, which wraps when there is no item. -/
def lastItem (l : CandidateList) : Nat :=
  if l.model.items = [] then 0xffffffffffffffff else l.model.items.length - 1

/-- Where a key moves the cursor. -/
def moved [KeyTables] (ksym : Keysym) (l : CandidateList) : Nat :=
  let sel := l.model.currentSel
  let candPerRow := l.model.candPerRow.toNat
  if l.uiless then
    if ksym = KeyTables.symDown ∨ ksym = KeyTables.symRight then min (sel + 1) l.lastItem
    else if ksym = KeyTables.symUp ∨ ksym = KeyTables.symLeft then sel - 1
    else sel
  else if ksym = KeyTables.symUp then if candPerRow ≤ sel then sel - candPerRow else sel
  else if ksym = KeyTables.symDown then
    if sel + candPerRow < l.model.items.length then sel + candPerRow else sel
  else if ksym = KeyTables.symLeft then if 1 < candPerRow then sel - 1 else sel
  else if ksym = KeyTables.symRight then if 1 < candPerRow then min (sel + 1) l.lastItem else sel
  else sel

/-- `filter_key_event`. -/
def filterKeyEvent [KeyTables] (ksym : Keysym) (l : CandidateList) :
    FilterKeyResult × CandidateList :=
  let sel := l.moved ksym
  let res := if ksym = Keysyms.symReturn then .handledCommit else .notHandled
  (if sel ≠ l.model.currentSel then .handled else res,
    { l with model := { l.model with currentSel := sel } })

end CandidateList

variable {E : Type}

namespace Tip

/-- What a key-down meets. -/
structure KeydownEnv where
  test : TestEnv
  /-- `update_lang_buttons` succeeds -/
  buttons : Bool
  /-- `show_message` succeeds -/
  message : Bool
  /-- the refresh of the candidates after a phrase has been unlearned -/
  unlearn : CandidateEnv
  /-- the refresh after the editor has processed the key -/
  candidates : CandidateEnv

/-! ## Keybindings -/

section Keybindings

variable [EditorCommands E]

omit [EditorCommands E] in
/-- `toggle_simp_chinese`. -/
def toggleSimpChinese (buttons : Bool) (t : Tip E) : Except Fault Unit × Tip E :=
  (if buttons then .ok () else .error .error,
    { t with outputSimpChinese := !t.outputSimpChinese })

/-- `toggle_hsu_keyboard`. -/
def toggleHsuKeyboard (message : Bool) (t : Tip E) : Except Fault Unit × Tip E :=
  let kbtype := if t.kbtype = .hsu then .default else .hsu
  (if message then .ok () else .error .error,
    { t with kbtype := kbtype
             chewingEditor := setSyllableEditor kbtype t.chewingEditor })

/-- What `on_keydown` does after the action of a keybinding. -/
inductive BindingResult where
  /-- it returns `Ok(true)` -/
  | handled
  /-- it goes on, with the text of a text binding -/
  | proceed (textAction : Option Str)

/-- The action of a keybinding. -/
def runAction (env : KeydownEnv) (kb : Keybinding) (t : Tip E) :
    Except Fault BindingResult × Tip E :=
  if kb.action = "toggle_simplified_chinese".toList then
    let (r, t) := t.toggleSimpChinese env.buttons
    (r.map fun _ => .handled, t)
  else if kb.action = "toggle_hsu_keyboard".toList then
    let (r, t) := t.toggleHsuKeyboard env.message
    (r.map fun _ => .handled, t)
  else if kb.action = "text".toList then
    if EditorCommands.isEmpty t.chewingEditor then (.ok (.proceed (some kb.param)), t)
    else
      let (editor, ok) := EditorCommands.commit t.chewingEditor
      (if ok then .ok (.proceed (some kb.param)) else .error .error,
        { t with chewingEditor := editor })
  else if "selecting_".toList.isPrefixOf kb.action then (.ok (.proceed none), t)
  -- an unsupported action is only logged
  else (.ok .handled, t)

/-- The first keybinding that matches. -/
def handleKeybinding [Keysyms] (env : KeydownEnv) (evt : KeyboardEvent) (t : Tip E) :
    Except Fault BindingResult × Tip E :=
  match t.keybindings.find? (·.«matches» evt) with
  | none => (.ok (.proceed none), t)
  | some kb => t.runAction env kb

end Keybindings

/-! ## Printable keys -/

section Printable

variable [KeyCodes]

/-- Shift makes this key a letter of the English mode. -/
def momentaryEnglishMode (evt : KeyboardEvent) (t : Tip E) : Bool :=
  evt.isStateOn .shift && t.langMode == .chinese &&
    (!t.cfg.fullShapeSymbols || KeyCodes.isAtoz evt.ksym) && !t.cfg.easySymbolsWithShift &&
    !(evt.isStateOn .control && t.cfg.easySymbolsWithShiftCtrl)

/-- The key with the case of its letter. -/
def withCase (evt : KeyboardEvent) (t : Tip E) : KeyboardEvent :=
  let upperCase := evt.isStateOn .shift &&
    !(t.momentaryEnglishMode evt && !t.cfg.upperCaseWithShift)
  if KeyCodes.isAscii evt.ksym then
    let code := KeyCodes.toUnicode evt.ksym
    { evt with ksym := KeyCodes.ofChar (if upperCase then code.toUpper else code.toLower) }
  else evt

/-- `map_sel_key`: `none` if there are no such keys (it panics). -/
def mapSelKey (evt : KeyboardEvent) (t : Tip E) : Option KeyboardEvent :=
  selKeys[i32AsU64 t.cfg.selKeyType]?.map fun keys =>
    match keys.idxOf? (KeyCodes.toUnicode evt.ksym) with
    | some idx =>
      if idx < 9 then
        { evt with code := ⟨KeyCodes.key1.code + idx.toUInt8⟩
                   ksym := ⟨KeyCodes.sym1.code + idx.toUInt32⟩ }
      else { evt with code := KeyCodes.key0, ksym := KeyCodes.sym0 }
    | none => evt

/-- `process_keyevent` in English mode. -/
def processInEnglish [ChewingEditor E] (evt : KeyboardEvent) (e : E) : E :=
  let oldLangMode := (editorOptions e).languageMode
  let e := setEditorOptions (fun opt => { opt with languageMode := .english }) e
  setEditorOptions (fun opt => { opt with languageMode := oldLangMode }) (processKeyevent evt e)

/-- A printable key goes to the editor. -/
def processPrintable [ChewingEditor E] (evt : KeyboardEvent) (t : Tip E) :
    Except Fault Unit × Tip E :=
  let momentary := t.momentaryEnglishMode evt
  let evt := t.withCase evt
  match if isSelecting t.chewingEditor then t.mapSelKey evt else some evt with
  | none => (.error .panic, t)
  | some evt =>
    let editor : E :=
      if evt.ksym = Keysyms.symSpace ∧ evt.isStateOn .shift then
        processKeyevent evt t.chewingEditor
      else if t.langMode.eqLanguageMode .english ∨ momentary then
        processInEnglish evt t.chewingEditor
      else processKeyevent evt t.chewingEditor
    (.ok (), { t with chewingEditor := editor })

end Printable

/-! ## Other keys -/

section Other

variable [EditorCommands E] [KeyTables]

/-- Enter chooses the candidate under the cursor. -/
def selectCurrent (list : CandidateList) (t : Tip E) : Except Fault Unit × Tip E :=
  let (editor, ok) := EditorCommands.select list.model.currentSel t.chewingEditor
  (if ok then .ok () else .error .error, { t with chewingEditor := editor })

/-- The syllables that a phrase at the cursor is written with. -/
def syllablesOf (phrase : Str) (t : Tip E) : List Syllable :=
  let start :=
    if t.cfg.phraseChoiceRearward then cursor t.chewingEditor - (phrase.length - 1)
    else cursor t.chewingEditor
  let symbols := ((EditorCommands.symbols t.chewingEditor).drop start).take phrase.length
  (symbols.takeWhile Option.isSome).filterMap id

/-- A phrase is unlearned, and the candidates are refreshed. -/
def unlearnPhrase (env : KeydownEnv) (phrase : Str) (t : Tip E) : Except Fault Bool × Tip E :=
  let editor := (EditorCommands.unlearnPhrase (t.syllablesOf phrase) phrase t.chewingEditor).1
  match { t with chewingEditor := editor }.updateCandidates env.unlearn with
  | (.error e, t) => (.error e, t)
  | (.ok (), t) => (if env.message then .ok true else .error .error, t)

/-- `selecting_unlearn_phrase` on the candidate under the cursor: says whether the
key has been handled. -/
def unlearnCurrent (env : KeydownEnv) (list : CandidateList) (t : Tip E) :
    Except Fault Bool × Tip E :=
  if isSelecting t.chewingEditor then
    match list.model.items[list.model.currentSel]? with
    | none => (.error .panic, t)
    | some phrase =>
      if (t.syllablesOf phrase).length = phrase.length then t.unlearnPhrase env phrase
      else (.ok false, t)
  else (.ok false, t)

/-- Enter in the candidate list, and a keybinding of the list: says whether the key
has been handled. -/
def handleInList (env : KeydownEnv) (evt : KeyboardEvent) (commit : Bool) (list : CandidateList)
    (t : Tip E) : Except Fault Bool × Tip E :=
  match if commit then t.selectCurrent list else (.ok (), t) with
  | (.error e, t) => (.error e, t)
  | (.ok (), t) =>
    match t.keybindings.find? (·.«matches» evt) with
    | none => (.ok commit, t)
    | some kb =>
      if kb.action = "selecting_unlearn_phrase".toList then
        let (r, t) := t.unlearnCurrent env list
        (r.map fun unlearned => commit || unlearned, t)
      else (.ok commit, t)

/-- A key that is not printable goes to the editor, unless the candidate list takes
it: says whether `on_keydown` returns at once. -/
def processOther (env : KeydownEnv) (evt : KeyboardEvent) (t : Tip E) :
    Except Fault Bool × Tip E :=
  let processed (t : Tip E) : Tip E :=
    { t with chewingEditor := processKeyevent evt t.chewingEditor }
  match if t.cfg.cursorCandList then t.candidateList else none with
  | none => (.ok false, processed t)
  | some list =>
    let (res, list) := list.filterKeyEvent evt.ksym
    let t := { t with candidateList := some list }
    if res = .handled then (.ok true, t)
    else
      match t.handleInList env evt (res = .handledCommit) list with
      | (.error e, t) => (.error e, t)
      | (.ok keyHandled, t) => (.ok false, if keyHandled then t else processed t)

end Other

/-! ## The handler -/

section Handler

variable [EditorCommands E] [KeyCodes]

/-- The key goes to the editor or the candidate list: says whether `on_keydown`
returns at once. -/
def processKey (env : KeydownEnv) (textAction : Option Str) (evt : KeyboardEvent) (t : Tip E) :
    Except Fault Bool × Tip E :=
  if textAction.isSome then (.ok false, t)
  else if Keysyms.isUnicode evt.ksym then
    let (r, t) := t.processPrintable evt
    (r.map fun _ => false, t)
  else t.processOther env evt

/-- `on_keydown` after its key test. -/
def handleKeydown (zhconv : Str → Str) (env : KeydownEnv) (evt : KeyboardEvent) (t : Tip E) :
    Except Fault Bool × Tip E :=
  match t.handleKeybinding env evt with
  | (.error e, t) => (.error e, t)
  | (.ok .handled, t) => (.ok true, t)
  | (.ok (.proceed textAction), t) =>
    match t.processKey env textAction evt with
    | (.error e, t) => (.error e, t)
    | (.ok true, t) => (.ok true, t)
    | (.ok false, t) => t.deliverKey zhconv env.candidates textAction

/-- `on_keydown`. -/
def onKeydown (zhconv : Str → Str) (env : KeydownEnv) (ev : Int → KeyboardEvent) (t : Tip E) :
    Except Fault Bool × Tip E :=
  match t.onTestKeydown env.test ev with
  | (.error e, t) => (.error e, t)
  | (.ok false, t) => (.ok false, t)
  | (.ok true, t) => t.handleKeydown zhconv env (ev t.cfg.simulateEnglishLayout)

end Handler

/-! ## What key-downs leave alone -/

/-- `u` differs from `t` in the editor and the candidate list at most. -/
def OnlyInput (t u : Tip E) : Prop :=
  ∃ editor list, u = { t with chewingEditor := editor, candidateList := list }

namespace OnlyInput

variable {t u v : Tip E}

theorem refl (t : Tip E) : OnlyInput t t := ⟨_, _, rfl⟩

theorem trans (h : OnlyInput t u) (h' : OnlyInput u v) : OnlyInput t v := by
  obtain ⟨editor, list, rfl⟩ := h
  obtain ⟨editor', list', rfl⟩ := h'
  exact ⟨editor', list', rfl⟩

theorem updateCandidates [ChewingEditor E] (env : CandidateEnv) (t : Tip E) :
    OnlyInput t (t.updateCandidates env).2 := by
  obtain ⟨editor, list, heq, -⟩ := updateCandidates_eq env t
  exact ⟨editor, list, heq⟩

end OnlyInput

/-- Keys do not change the language mode, nor how TSF runs sessions; none is left
outstanding if they run at once. -/
structure ModeKept (t u : Tip E) : Prop where
  langMode : u.langMode = t.langMode
  grant : u.grant = t.grant
  queue : t.grant = .immediate → u.queue = t.queue

namespace ModeKept

variable {t u v : Tip E}

theorem refl (t : Tip E) : ModeKept t t := ⟨rfl, rfl, fun _ => rfl⟩

theorem trans (h : ModeKept t u) (h' : ModeKept u v) : ModeKept t v :=
  ⟨h'.langMode.trans h.langMode, h'.grant.trans h.grant,
    fun hgrant => (h'.queue (h.grant.trans hgrant)).trans (h.queue hgrant)⟩

theorem request (t : Tip E) (s : EditSession) : ModeKept t (t.requestEditSession s) := by
  unfold requestEditSession
  split
  · next hgrant =>
    refine ⟨rfl, rfl, fun himmediate => ?_⟩
    rw [hgrant] at himmediate
    cases himmediate
  · exact ⟨rfl, rfl, fun _ => rfl⟩

theorem setCompositionString (t : Tip E) (zhconv : Str → Str) (commit preedit : Str)
    (segments : List (Nat × Nat)) (cursor : Nat) :
    ModeKept t (t.setCompositionString zhconv commit preedit segments cursor) := by
  unfold Tip.setCompositionString
  dsimp only
  split
  · exact ⟨rfl, rfl, fun _ => rfl⟩
  · refine .trans ?_ (.request _ _)
    exact ⟨rfl, rfl, fun _ => rfl⟩

theorem endComposition (t : Tip E) : ModeKept t t.endComposition := by
  refine .trans ?_ (.request _ _)
  exact ⟨rfl, rfl, fun _ => rfl⟩

theorem insertText (t : Tip E) (text : Str) : ModeKept t (t.insertText text) := .request t _

theorem of_onlyInput (h : OnlyInput t u) : ModeKept t u := by
  obtain ⟨editor, list, rfl⟩ := h
  exact ⟨rfl, rfl, fun _ => rfl⟩

variable [ChewingEditor E]

theorem updatePreedit (t : Tip E) (zhconv : Str → Str) (commit : Str) :
    ModeKept t (t.updatePreedit zhconv commit) :=
  updatePreedit_keeps (fun u _ _ _ hu => hu.trans (.setCompositionString u zhconv commit _ _ _))
    (fun u hu => hu.trans (.endComposition u)) (.refl t)

theorem deliverKey (t : Tip E) (zhconv : Str → Str) (env : CandidateEnv)
    (textAction : Option Str) : ModeKept t (t.deliverKey zhconv env textAction).2 := by
  unfold Tip.deliverKey
  dsimp only
  split
  · exact .refl t
  · split
    · -- the text is inserted directly
      have hacked : ModeKept t { t with chewingEditor := ack t.chewingEditor } :=
        ⟨rfl, rfl, fun _ => rfl⟩
      rw [insertCommit_eq]
      cases textAction with
      | none => exact hacked.trans (.insertText _ _)
      | some param => exact hacked.trans (.trans (.insertText _ _) (.insertText _ _))
    · have hcandidates : ModeKept t (t.updateCandidates env).2 :=
        .of_onlyInput (.updateCandidates env t)
      split
      · next u hu =>
        rw [hu] at hcandidates
        exact hcandidates
      · next r u _ hu =>
        rw [hu] at hcandidates
        refine hcandidates.trans (.trans ?_ (.updatePreedit _ zhconv _))
        unfold takeCommit
        split <;> exact ⟨rfl, rfl, fun _ => rfl⟩

variable [Keysyms]

theorem applyConfigIfChanged (t : Tip E) (env : ConfigEnv) :
    ModeKept t (t.applyConfigIfChanged env).2 := by
  obtain ⟨cfg, kbtype, editor, keybindings, heq⟩ := applyConfigIfChanged_eq env t
  rw [heq]
  exact ⟨rfl, rfl, fun _ => rfl⟩

theorem onTestKeydown (t : Tip E) (env : TestEnv) (ev : Int → KeyboardEvent) :
    ModeKept t (t.onTestKeydown env ev).2 := by
  obtain ⟨editor, -, heq | ⟨state, _, _, _, _, u, rfl, heq⟩⟩ := onTestKeydown_cases env ev t
  · rw [heq]
    exact ⟨rfl, rfl, fun _ => rfl⟩
  · rw [heq]
    refine .trans ?_ (.applyConfigIfChanged _ env.config)
    exact ⟨rfl, rfl, fun _ => rfl⟩

end ModeKept

section Handler

variable [EditorCommands E] [KeyCodes]

omit [KeyCodes] in
theorem ModeKept.runAction (env : KeydownEnv) (kb : Keybinding) (t : Tip E) :
    ModeKept t (t.runAction env kb).2 := by
  unfold Tip.runAction
  split
  · exact ⟨rfl, rfl, fun _ => rfl⟩
  · split
    · exact ⟨rfl, rfl, fun _ => rfl⟩
    · split
      · split <;> exact ⟨rfl, rfl, fun _ => rfl⟩
      · split <;> exact .refl t

omit [KeyCodes] in
theorem OnlyInput.unlearnCurrent (env : KeydownEnv) (list : CandidateList) (t : Tip E) :
    OnlyInput t (t.unlearnCurrent env list).2 := by
  unfold Tip.unlearnCurrent
  split
  · split
    · exact .refl t
    · next phrase _ =>
      split
      · unfold Tip.unlearnPhrase
        dsimp only
        have hunlearned : OnlyInput t { t with chewingEditor :=
            (EditorCommands.unlearnPhrase (t.syllablesOf phrase) phrase t.chewingEditor).1 } :=
          ⟨_, _, rfl⟩
        have hall := hunlearned.trans (.updateCandidates env.unlearn _)
        split
        · next u hu =>
          rw [hu] at hall
          exact hall
        · next u hu =>
          rw [hu] at hall
          exact hall
      · exact .refl t
  · exact .refl t

theorem OnlyInput.handleInList (env : KeydownEnv) (evt : KeyboardEvent) (commit : Bool)
    (list : CandidateList) (t : Tip E) :
    OnlyInput t (t.handleInList env evt commit list).2 := by
  unfold Tip.handleInList
  have hselect : OnlyInput t (if commit then t.selectCurrent list else (.ok (), t)).2 := by
    split <;> exact ⟨_, _, rfl⟩
  split
  · next u hu =>
    rw [hu] at hselect
    exact hselect
  · next u hu =>
    rw [hu] at hselect
    refine hselect.trans ?_
    split
    · exact .refl u
    · split
      · exact .unlearnCurrent env list u
      · exact .refl u

theorem OnlyInput.processOther (env : KeydownEnv) (evt : KeyboardEvent) (t : Tip E) :
    OnlyInput t (t.processOther env evt).2 := by
  unfold Tip.processOther
  dsimp only
  split
  · exact ⟨_, _, rfl⟩
  · next list _ =>
    have hmoved : OnlyInput t { t with candidateList := some (list.filterKeyEvent evt.ksym).2 } :=
      ⟨_, _, rfl⟩
    split
    · exact hmoved
    · have hlist := hmoved.trans (.handleInList env evt
        (decide ((list.filterKeyEvent evt.ksym).1 = .handledCommit))
        (list.filterKeyEvent evt.ksym).2 _)
      split
      · next u hu =>
        rw [hu] at hlist
        exact hlist
      · next u hu =>
        rw [hu] at hlist
        split
        · exact hlist
        · exact hlist.trans ⟨_, _, rfl⟩

theorem OnlyInput.processKey (env : KeydownEnv) (textAction : Option Str) (evt : KeyboardEvent)
    (t : Tip E) : OnlyInput t (t.processKey env textAction evt).2 := by
  unfold Tip.processKey
  split
  · exact .refl t
  · split
    · unfold processPrintable
      dsimp only
      split <;> exact ⟨_, _, rfl⟩
    · exact .processOther env evt t

theorem ModeKept.handleKeydown (zhconv : Str → Str) (env : KeydownEnv) (evt : KeyboardEvent)
    (t : Tip E) : ModeKept t (t.handleKeydown zhconv env evt).2 := by
  have hbinding : ModeKept t (t.handleKeybinding env evt).2 := by
    unfold handleKeybinding
    split
    · exact .refl t
    · exact .runAction env _ t
  unfold Tip.handleKeydown
  split
  · next u hu =>
    rw [hu] at hbinding
    exact hbinding
  · next u hu =>
    rw [hu] at hbinding
    exact hbinding
  · next textAction u hu =>
    rw [hu] at hbinding
    have hkey := hbinding.trans (.of_onlyInput (.processKey env textAction evt u))
    split
    · next v hv =>
      rw [hv] at hkey
      exact hkey
    · next v hv =>
      rw [hv] at hkey
      exact hkey
    · next v hv =>
      rw [hv] at hkey
      exact hkey.trans (.deliverKey v zhconv env.candidates textAction)

/-- **`on_keydown`** keeps the language mode. -/
theorem ModeKept.onKeydown (zhconv : Str → Str) (env : KeydownEnv) (ev : Int → KeyboardEvent)
    (t : Tip E) : ModeKept t (t.onKeydown zhconv env ev).2 := by
  have htest := ModeKept.onTestKeydown t env.test ev
  unfold Tip.onKeydown
  split
  · next u hu =>
    rw [hu] at htest
    exact htest
  · next u hu =>
    rw [hu] at htest
    exact htest
  · next u hu =>
    rw [hu] at htest
    exact htest.trans (.handleKeydown zhconv env _ u)

end Handler

end Tip

/-! ## An editor for examples -/

/-- An editor that takes keys in pairs, for ㄧ and its tone, which make the syllable of 一.
Behind a syllable Down opens the candidates. -/
structure TypedEditor where
  lastKeyBehavior : EditorKeyBehavior
  bopomofo : Str
  phrase : Str
  isSelecting : Bool
  options : EditorOptions

namespace TypedEditor

def blank : TypedEditor := ⟨.ignore, [], [], false, ScriptedEditor.defaultOptions⟩

def symDown : Keysym := ⟨0xff54⟩

def processKeyevent (evt : KeyboardEvent) (e : TypedEditor) : TypedEditor :=
  if evt.ksym = symDown then
    if e.phrase ≠ [] ∧ e.bopomofo = [] then
      { e with lastKeyBehavior := .absorb, isSelecting := true }
    else { e with lastKeyBehavior := .ignore }
  else if e.bopomofo = [] then { e with lastKeyBehavior := .absorb, bopomofo := ['ㄧ'] }
  else { e with lastKeyBehavior := .absorb, bopomofo := [], phrase := e.phrase ++ ['一'] }

instance : ChewingEditor TypedEditor where
  chewing _ _ := blank
  editorOptions e := e.options
  setEditorOptions f e := { e with options := f e.options }
  layoutOf _ := none
  setSyllableEditor _ e := e
  setConversionEngine _ e := e
  processKeyevent := processKeyevent
  lastKeyBehavior e := e.lastKeyBehavior
  displayCommit _ := []
  ack e := e
  isSelecting e := e.isSelecting
  cancelSelecting e := ({ e with isSelecting := false }, true)
  clearSyllableEditor e := { e with bopomofo := [] }
  clearCompositionEditor e := { e with phrase := [] }
  intervals e := if e.phrase = [] then [] else [⟨0, e.phrase.length, e.phrase⟩]
  cursor e := e.phrase.length
  syllableBufferDisplay e := e.bopomofo
  totalPage _ := some 1
  currentPageNo _ := some 0
  paginatedCandidates _ := some ["一".toList]

instance : EditorCommands TypedEditor where
  isEmpty e := e.phrase.isEmpty && e.bopomofo.isEmpty
  commit e := ({ e with phrase := [], bopomofo := [] }, true)
  select _ e := ({ e with isSelecting := false, lastKeyBehavior := .absorb }, true)
  symbols _ := []
  unlearnPhrase _ _ e := (e, true)

open ScriptedEditor in
scoped instance keyCodes : KeyCodes where
  toKeyTables := keyTables
  isAtoz k := (0x41 ≤ k.code && k.code ≤ 0x5a) || (0x61 ≤ k.code && k.code ≤ 0x7a)
  isAscii k := k.code ≤ 0x7f
  toUnicode k := Char.ofNat k.code.toNat
  ofChar c := ⟨c.val⟩
  sym0 := ⟨0x30⟩
  sym1 := ⟨0x31⟩
  key0 := ⟨0x0b⟩
  key1 := ⟨0x02⟩

/-- A key in a mutable context, with the configuration `cfg` in the registry. -/
def keydownEnv (cfg : ChewingTsfConfig) : Tip.KeydownEnv where
  test := ⟨⟨some 0, some 0, some 0⟩, 0, ⟨.ok cfg, some [], some []⟩⟩
  buttons := true
  message := true
  unlearn := ⟨some true, ⟨0, 0⟩, true⟩
  candidates := ⟨some true, ⟨0, 0⟩, true⟩

end TypedEditor

end ChewingTsf
