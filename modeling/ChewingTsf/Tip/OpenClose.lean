import ChewingTsf.Tip.KeyDown
import ChewingTsf.Tip.Reload

/-!
# Opening and closing the keyboard

The keyboard is closed while `lang_mode` is disabled. TSF keeps whether it is open
in a compartment: `OnChange` reports the changes of its value, those the user makes
with Ctrl+Space and those the service makes itself (`sync_keyboard_openclose`).
The flag `pending_lang_mode_change` is to tell them apart: `sync_lang_mode` sets it
when it announces a change of the service's own, and `OnChange` takes it back.

A `Keyboard` is the service with the compartment, and a call of TSF changes it.
Its `changes` record what each change of the compartment did to the language mode.
-/

namespace ChewingTsf

open ChewingEditor

/-- `toggle_keyboard_openclose`, on the language mode. -/
def TsfLangMode.openclosed : TsfLangMode → TsfLangMode
  | chinese => disabledChinese
  | english => disabledEnglish
  | disabledChinese => chinese
  | disabledEnglish => english

@[simp] theorem TsfLangMode.isDisabled_openclosed (m : TsfLangMode) :
    m.openclosed.isDisabled = !m.isDisabled := by
  cases m <;> rfl

section Model

variable {E : Type}

namespace Tip

/-! ## The change of the compartment -/

/-- `toggle_keyboard_openclose`. -/
def toggleKeyboardOpenclose (t : Tip E) : Tip E := { t with langMode := t.langMode.openclosed }

/-- `on_compartment_change_ro`; `openclose` says whether the GUID is that of the
compartment. -/
def onCompartmentChangeRo (env : ModeEnv) (openclose : Bool) (t : Tip E) :
    Except Fault Unit × Tip E :=
  if openclose then
    let pending := t.pendingLangModeChange
    let t := { t with pendingLangModeChange := false }
    if !pending && t.hasFocus then t.toggleKeyboardOpenclose.syncLangMode env false
    else (.ok (), t)
  else (.ok (), t)

/-- What `sync_keyboard_openclose` sets the compartment to, if it comes to that;
`compartment` says whether the compartment can be had. -/
def opencloseToSet (compartment force : Bool) (t : Tip E) : Except Fault (Option Int) × Tip E :=
  if !force && !t.pendingLangModeChange then (.ok none, t)
  else if !t.cfg.syncLangModeOpenclose then (.ok none, { t with pendingLangModeChange := false })
  else if compartment then (.ok (some (if t.langMode = .chinese then 1 else 0)), t)
  else (.error .error, t)

variable [EditorCommands E]

/-- `on_compartment_change`: the composition is committed and ended. -/
def commitComposition (zhconv : Str → Str) (context : Bool) (t : Tip E) :
    Except Fault Unit × Tip E :=
  let (editor, ok) := EditorCommands.commit t.chewingEditor
  if ok then
    let t := { t with chewingEditor := ack editor }
    if context then
      (.ok (), (t.setCompositionString zhconv (displayCommit editor) [] [] 0).endComposition)
    else (.error .error, t)
  else (.error .error, { t with chewingEditor := editor })

/-- `on_compartment_change`. -/
def onCompartmentChange (zhconv : Str → Str) (env : ModeEnv) (openclose : Bool) (t : Tip E) :
    Except Fault Unit × Tip E :=
  if openclose then
    let pending := t.pendingLangModeChange
    let t := { t with pendingLangModeChange := false }
    if !pending && t.hasFocus then
      match t.toggleKeyboardOpenclose.syncLangMode env false with
      | (.error e, t) => (.error e, t)
      | (.ok (), t) =>
        if t.isComposing && t.langMode.isDisabled then t.commitComposition zhconv env.context
        else (.ok (), t)
    else (.ok (), t)
  else (.ok (), t)

/-- What a change of the compartment meets. -/
structure CompartmentEnv where
  mode : ModeEnv
  /-- the compartment can be had -/
  compartment : Bool
  /-- `SetValue` succeeds; inside `OnChange` it always fails -/
  setValue : Bool

/-- `ITfCompartmentEventSink::OnChange` (mod.rs), with a GUID. -/
def onChange (zhconv : Str → Str) (env : CompartmentEnv) (openclose : Bool) (t : Tip E) :
    Except Fault Unit × Tip E :=
  if t.cfg.syncLangModeOpenclose then
    match t.onCompartmentChangeRo env.mode openclose with
    | (.error e, t) => (.error e, t)
    | (.ok (), t) =>
      if openclose then
        let (r, t) := t.opencloseToSet env.compartment true
        (r.map fun _ => (), t)
      else (.ok (), t)
  else t.onCompartmentChange zhconv env.mode openclose

/-! ## Commands of the language bar -/

/-- `toggle_shape_mode`. -/
def toggleShapeMode (buttons : Bool) (t : Tip E) : Except Fault Unit × Tip E :=
  let editor := setEditorOptions (fun opt => { opt with
      characterForm := if opt.characterForm = .fullwidth then .halfwidth else .fullwidth })
    t.chewingEditor
  (if buttons then .ok () else .error .error, { t with chewingEditor := editor })

end Tip

/-- `CommandType`. -/
inductive CommandType where
  | leftClick
  | rightClick
  | menu
  deriving DecidableEq

def ID_SWITCH_LANG : UInt32 := 101
def ID_SWITCH_SHAPE : UInt32 := 102
def ID_MODE_ICON : UInt32 := 103
def ID_OUTPUT_SIMP_CHINESE : UInt32 := 40027

namespace Tip

/-- What a command meets. -/
structure CommandEnv where
  /-- the item `TrackPopupMenu` returns; 0 if it fails or none is chosen -/
  popup : UInt32
  mode : ModeEnv

variable [EditorCommands E]

/-- `on_command` for a left click or a menu item. The items left out open a web
page or another program. -/
def menuCommand (zhconv : Str → Str) (env : ModeEnv) (id : UInt32) (t : Tip E) : Tip E :=
  if id = ID_SWITCH_LANG ∨ id = ID_MODE_ICON then (t.toggleLangMode zhconv env).2
  else if id = ID_SWITCH_SHAPE then (t.toggleShapeMode env.buttons).2
  else if id = ID_OUTPUT_SIMP_CHINESE then (t.toggleSimpChinese env.buttons).2
  else t

/-- `on_command`. -/
def onCommand (zhconv : Str → Str) (env : CommandEnv) (id : UInt32) (cmdType : CommandType)
    (t : Tip E) : Tip E :=
  match cmdType with
  | .rightClick =>
    if id = ID_MODE_ICON ∧ env.popup ≠ 0 then t.menuCommand zhconv env.mode env.popup else t
  | .leftClick | .menu => t.menuCommand zhconv env.mode id

/-! ## Activation -/

omit [EditorCommands E] in
/-- `ChewingTextService::new` before it is initialized, with the temporary editor. -/
def new (fromReg : Except ConfigError ChewingTsfConfig) (editor : E) (document : Document)
    (grant : Grant) : Tip E where
  langMode := .english
  pendingLangModeChange := false
  hasFocus := true
  outputSimpChinese := false
  shiftKeyState := .up
  cfg := match fromReg with
    | .ok cfg => cfg
    | .error _ => .default
  kbtype := .default
  keybindings := []
  chewingEditor := editor
  candidateList := none
  composition := 0
  pendingEdit := none
  store := ⟨document, fun _ => none, fun _ => none, 0⟩
  queue := []
  nextCell := 1
  grant := grant

end Tip

/-! ## The service with its compartment -/

/-- A change of the compartment. -/
structure OpencloseChange where
  /-- the user or the application made it -/
  byUser : Bool
  hasFocus : Bool
  /-- the language mode before `OnChange` and after it -/
  before : TsfLangMode
  after : TsfLangMode
  deriving DecidableEq

/-- It opened or closed the keyboard. -/
def OpencloseChange.flips (c : OpencloseChange) : Bool := c.after.isDisabled != c.before.isDisabled

/-- The text service, with `GUID_COMPARTMENT_KEYBOARD_OPENCLOSE`. -/
structure Keyboard (E : Type) where
  tip : Tip E
  /-- the value of the compartment; `none` if it is empty -/
  openclose : Option Int
  /-- the changes of the value that `OnChange` reported -/
  changes : List OpencloseChange

/-- What activation meets. -/
structure ActivateEnv where
  config : Tip.ConfigEnv
  mode : Tip.ModeEnv
  /-- `init_openclose` sets the compartment -/
  initOpenclose : Bool

namespace Keyboard

variable [EditorCommands E]

/-- `Activate`: the compartment is set before its sink is advised. An error of the
initialization is only logged. -/
def activate [Keysyms] (env : ActivateEnv) (editor : E) (document : Document) (grant : Grant)
    (openclose : Option Int) : Keyboard E where
  tip := ((Tip.new env.config.fromReg editor document grant).initChewingContext env.config
    env.mode).2
  openclose := if env.initOpenclose then some 1 else openclose
  changes := []

/-- `ITfCompartment::SetValue`: TSF calls `OnChange` exactly if the value changes. -/
def setOpenclose (zhconv : Str → Str) (env : Tip.CompartmentEnv) (byUser : Bool)
    (value : Option Int) (k : Keyboard E) : Keyboard E :=
  if k.openclose = value then k
  else
    let t := (k.tip.onChange zhconv env true).2
    { tip := t
      openclose := value
      changes := k.changes ++ [⟨byUser, k.tip.hasFocus, k.tip.langMode, t.langMode⟩] }

/-- `sync_keyboard_openclose(false)`, outside `OnChange`. -/
def syncKeyboardOpenclose (zhconv : Str → Str) (env : Tip.CompartmentEnv) (k : Keyboard E) :
    Keyboard E :=
  let k' := { k with tip := (k.tip.opencloseToSet env.compartment false).2 }
  match (k.tip.opencloseToSet env.compartment false).1 with
  | .ok (some value) => if env.setValue then k'.setOpenclose zhconv env false (some value) else k'
  | _ => k'

/-- A method of the service; if it returns `Ok`, `sync_keyboard_openclose` follows. -/
def thenSync {α : Type} (zhconv : Str → Str) (env : Tip.CompartmentEnv)
    (r : Except Fault α × Tip E) (k : Keyboard E) : Keyboard E :=
  match r.1 with
  | .ok _ => { k with tip := r.2 }.syncKeyboardOpenclose zhconv env
  | .error _ => { k with tip := r.2 }

end Keyboard

/-- A call that TSF makes, or a session that it runs. -/
inductive KeyboardCall where
  /-- the user or the application sets the compartment -/
  | change (value : Option Int) (env : Tip.CompartmentEnv)
  | testKeyDown (env : Tip.TestEnv) (ev : Int → KeyboardEvent)
  | keyDown (env : Tip.KeydownEnv) (ev : Int → KeyboardEvent)
  | testKeyUp (env : Tip.KeyupEnv) (ev : Int → KeyboardEvent) (sync : Tip.CompartmentEnv)
  | keyUp (env : Tip.KeyupEnv) (ev : Int → KeyboardEvent) (sync : Tip.CompartmentEnv)
  | command (env : Tip.CommandEnv) (id : UInt32) (cmdType : CommandType)
      (sync : Tip.CompartmentEnv)
  | setThreadFocus (config : Tip.ConfigEnv) (mode : Tip.ModeEnv) (sync : Tip.CompartmentEnv)
  /-- `OnSetFocus`; `null` says whether no document gets the focus -/
  | setFocus (null context : Bool)
  | compositionTerminated
  | session

variable [EditorCommands E] [KeyCodes]

/-- The state that a call leads to. -/
def KeyboardCall.next (zhconv : Str → Str) (k : Keyboard E) : KeyboardCall → Keyboard E
  | change value env => k.setOpenclose zhconv env true value
  | testKeyDown env ev => { k with tip := (k.tip.onTestKeydown env ev).2 }
  | keyDown env ev => { k with tip := (k.tip.onKeydown zhconv env ev).2 }
  | testKeyUp env ev sync => k.thenSync zhconv sync (k.tip.onTestKeyup zhconv env ev)
  | keyUp env ev sync => k.thenSync zhconv sync (k.tip.onKeyup zhconv env ev)
  | command env id cmdType sync =>
    { k with tip := k.tip.onCommand zhconv env id cmdType }.syncKeyboardOpenclose zhconv sync
  | setThreadFocus config mode sync => k.thenSync zhconv sync (k.tip.onThreadFocus config mode)
  | setFocus null context =>
    { k with tip := if null then k.tip.onKillFocus context else k.tip.onFocus }
  | compositionTerminated => { k with tip := k.tip.onCompositionTerminatedTail }
  | session => { k with tip := k.tip.runSession }

/-- A call is made, whatever it returns. -/
def KeyboardStep (zhconv : Str → Str) (k : Keyboard E) (c : KeyboardCall) (k' : Keyboard E) :
    Prop := k' = c.next zhconv k

end Model

/-! ## A keyboard for examples -/

namespace TypedEditor

/-- Everything the service asks Windows for succeeds; CapsLock is off. -/
def modeEnv : Tip.ModeEnv := ⟨false, true, true⟩

def compartmentEnv : Tip.CompartmentEnv := ⟨modeEnv, true, true⟩

def keyupEnv : Tip.KeyupEnv := ⟨0, modeEnv, true⟩

/-- Activated with the configuration `cfg`, in an empty document. -/
def activated (cfg : ChewingTsfConfig) : Keyboard TypedEditor :=
  .activate ⟨⟨.ok cfg, some [], some []⟩, modeEnv, true⟩ blank ⟨[], 0, none⟩ .immediate none

end TypedEditor

end ChewingTsf
