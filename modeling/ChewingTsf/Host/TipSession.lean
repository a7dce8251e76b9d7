import ChewingTsf.Tip.KeyEvent
import ChewingTsf.Tip.Typing

/-!
# The host's copy of the key filter (crates/chewing_tip_host/src/text_service/chewing.rs)

Each connection to the host has a `TipSession`, which repeats the configuration
handling and the key test of the text service. The copies of `keybind.rs`,
`TsfLangMode` and `build_editor_from_cfg` are those of the text service; the key
test is a text of its own (`TipSession.onTestKeydown`).
-/

namespace ChewingTsf

open ChewingEditor

/-- `TipSession`. -/
structure TipSession (E : Type) where
  outputSimpChinese : Bool
  cfg : ChewingTsfConfig
  langMode : TsfLangMode
  kbtype : KeyboardLayoutCompat
  keybindings : List Keybinding
  chewingEditor : E

namespace TipSession

variable {E : Type}

/-- `TipSession::new`, with the editor that has no user dictionary. -/
def new (editor : E) (fromReg : Except ConfigError ChewingTsfConfig) : TipSession E :=
  let cfg := match fromReg with
    | .ok cfg => cfg
    | .error _ => .default
  { outputSimpChinese := cfg.outputSimpChinese
    cfg := cfg
    langMode := .english
    kbtype := .default
    keybindings := []
    chewingEditor := editor }

variable [ChewingEditor E] [Keysyms]

/-- `apply_runtime_config`: says whether it succeeded. -/
def applyRuntimeConfig (env : Tip.ConfigEnv) (s : TipSession E) : Bool × TipSession E :=
  let s := { s with
    kbtype := (layoutOf (E := E) (UInt8.ofInt s.cfg.keyboardLayout)).getD .default }
  match Tip.buildEditorFromCfg env s.cfg with
  | none => (false, s)
  | some editor =>
    (true, { s with chewingEditor := editor
                    keybindings := s.cfg.keybind.filterMap Keybinding.tryFrom })

/-- `apply_config_if_changed`: says whether it succeeded. -/
def applyConfigIfChanged (env : Tip.ConfigEnv) (s : TipSession E) : Bool × TipSession E :=
  match s.cfg.reloadIfNeeded env.fromReg with
  | .error _ => (false, s)
  | .ok (false, _) => (true, s)
  | .ok (true, cfg) => { s with cfg := cfg }.applyRuntimeConfig env

/-- Steps 2 to 4 of `on_test_keydown`. -/
def verdict (simulateEnglishLayout isContextMutable isComposing : Bool)
    (shiftKeyState : IpcShiftKeyState) (evt : KeyboardEvent) (s : TipSession E) : Bool :=
  if s.langMode.isDisabled then false
  else if (evt.ksym = Keysyms.symLeftshift ∨ evt.ksym = Keysyms.symRightshift) ∧
      s.cfg.switchLangWithShift ∧ shiftKeyState = .up then false
  else if s.keybindings.any fun kb => kb.«matches» evt then true
  else if evt.ksym = Keysyms.symCapslock ∧ ¬ s.cfg.enableCapsLock then false
  else if ¬ isContextMutable then false
  else if evt.isStateOn .alt then false
  else if evt.isStateOn .control then
    if isComposing ∧ Keysyms.isDigit evt.ksym then true
    else if evt.isStateOn .shift ∧ s.cfg.easySymbolsWithShiftCtrl then true
    else false
  else if s.cfg.enableCapsLock ∧ ¬ s.cfg.lockChineseOnCapsLock ∧ Keysyms.isUnicode evt.ksym then
    true
  else if ¬ isComposing then
    let shapeMode := (editorOptions s.chewingEditor).characterForm
    if s.langMode.eqLanguageMode .english ∧ shapeMode = .halfwidth ∧ ¬ simulateEnglishLayout then
      evt.ksym = Keysyms.symSpace ∧ evt.isStateOn .shift ∧ s.cfg.enableFullwidthToggleKey
    else if evt.ksym = Keysyms.symSpace ∧ shapeMode ≠ .fullwidth ∧ ¬ evt.isStateOn .shift then
      false
    else if ¬ Keysyms.isUnicode evt.ksym then false
    else true
  else true

/-- `on_test_keydown`, for the event that `ev.to_keyboard_event` makes of the
key. It never fails: a configuration that cannot be loaded is only logged. -/
def onTestKeydown (env : Tip.ConfigEnv) (isContextMutable isComposing : Bool)
    (shiftKeyState : IpcShiftKeyState) (ev : Int → KeyboardEvent) (s : TipSession E) :
    Bool × TipSession E :=
  let editor := setEditorOptions
    (fun opt => { opt with languageMode := s.langMode.toLanguageMode }) s.chewingEditor
  let s := { s with chewingEditor := editor }
  let evt := ev s.cfg.simulateEnglishLayout
  let simulateEnglishLayout := s.cfg.simulateEnglishLayout != 0
  let s := (s.applyConfigIfChanged env).2
  (s.verdict simulateEnglishLayout isContextMutable isComposing shiftKeyState evt, s)

end TipSession

/-! ## The symbols of the X11 keyboard -/

namespace ScriptedEditor

scoped instance keyTables : KeyTables where
  toKeysyms := keysyms
  symLeftctrl := ⟨0xffe3⟩
  symRightctrl := ⟨0xffe4⟩
  symLeftalt := ⟨0xffe9⟩
  symRightalt := ⟨0xffea⟩
  symLeftmeta := ⟨0xffe7⟩
  symRightmeta := ⟨0xffe8⟩
  symPageup := ⟨0xff55⟩
  symPagedown := ⟨0xff56⟩
  symLeft := ⟨0xff51⟩
  symUp := ⟨0xff52⟩
  symRight := ⟨0xff53⟩
  symDown := ⟨0xff54⟩
  symKP i := ⟨0xffb0 + i.val.toUInt32⟩
  symKpmultiply := ⟨0xffaa⟩
  symKpadd := ⟨0xffab⟩
  symKpsubtract := ⟨0xffad⟩
  symKpdecimal := ⟨0xffae⟩
  symKpdivide := ⟨0xffaf⟩
  symNumlock := ⟨0xff7f⟩
  -- no keymap is needed for the keys used here
  mapKeycode _ code _ := { KeyboardEvent.builder with code := code }

end ScriptedEditor

end ChewingTsf
