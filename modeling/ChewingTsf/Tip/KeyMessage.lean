import ChewingTsf.Tip.KeyFilter
import ChewingTsf.Tip.Reload

/-!
# The key test, decided on both sides of the pipe

`on_test_keydown` sends the host what it knows of a key before it decides on it:
whether the context is mutable and something is composed, the state of Shift, and
the key itself. The Shift state is sent after `Consumed` has been set and before
`Down` is, which is when the host can still tell that a tap begins.

With the same settings and a configuration that stays as it is, the host decodes
the event that was sent and comes to the verdict of the text service.
-/

namespace ChewingTsf

open ChewingEditor

universe u

section KeyMessage

variable {E : Type} [ChewingEditor E] [KeyTables]

/-- The Shift state as it is sent. -/
def ShiftKeyState.toIpc : ShiftKeyState → IpcShiftKeyState
  | .down _ => .down
  | .consumed => .consumed
  | .up => .up

namespace Tip

omit [ChewingEditor E] in
/-- The Shift state that is sent: that of a key pressed while Shift is down is
`Consumed`. -/
def sentShiftKeyState (evt : KeyboardEvent) (t : Tip E) : ShiftKeyState :=
  if !(evt.ksym == Keysyms.symLeftshift || evt.ksym == Keysyms.symRightshift) &&
      evt.isStateOn .shift then .consumed else t.shiftKeyState

omit [ChewingEditor E] in
/-- The `OnTestKeyDown` that `on_test_keydown` builds. -/
def onTestKeyDownMessage (isContextMutable : Bool) (ev : SystemKeyboardEvent) (t : Tip E) :
    OnTestKeyDown :=
  let evt := ev.toKeyboardEvent t.cfg.simulateEnglishLayout
  { isContextMutable := isContextMutable
    isComposing := t.isComposing
    shiftKeyState := (t.sentShiftKeyState evt).toIpc
    event := ev.toIpc }

omit [ChewingEditor E] in
/-- The call it is sent in; `on_test_keydown` ignores the reply. -/
def onTestKeyDownCall {Value : Type u} [JsonValue Value OnTestKeyDown] (isContextMutable : Bool)
    (ev : SystemKeyboardEvent) (t : Tip E) : MethodCall Value :=
  ⟨OnTestKeyDown.METHOD, JsonValue.toValue (t.onTestKeyDownMessage isContextMutable ev),
    none, none, none⟩

/-- The host's session has the settings of the text service. -/
structure SameSettings (t : Tip E) (s : TipSession E) : Prop where
  cfg : s.cfg = t.cfg
  keybindings : s.keybindings = t.keybindings
  langMode : s.langMode = t.langMode
  characterForm : (editorOptions s.chewingEditor).characterForm
    = (editorOptions t.chewingEditor).characterForm

/-- Steps 2 to 4 are the same on both sides. -/
theorem SameSettings.verdict_eq {t : Tip E} {s : TipSession E} (h : t.SameSettings s)
    (simulateEnglishLayout isContextMutable : Bool) {shiftDown : Bool}
    {shiftKeyState : IpcShiftKeyState} {evt : KeyboardEvent}
    (hshift : shiftDown = true ↔
      (evt.ksym = Keysyms.symLeftshift ∨ evt.ksym = Keysyms.symRightshift) ∧
        t.cfg.switchLangWithShift = true ∧ shiftKeyState = .up) :
    s.verdict simulateEnglishLayout isContextMutable t.isComposing shiftKeyState evt
      = t.verdict simulateEnglishLayout isContextMutable shiftDown evt := by
  unfold TipSession.verdict verdict
  rw [h.cfg, h.keybindings, h.langMode, h.characterForm]
  refine if_congr Iff.rfl rfl ?_
  refine if_congr hshift.symm rfl ?_
  refine if_congr Iff.rfl rfl ?_
  refine if_congr Iff.rfl rfl ?_
  refine if_congr Iff.rfl rfl ?_
  refine if_congr Iff.rfl rfl ?_
  refine if_congr Iff.rfl ?_ ?_
  · -- keys with Ctrl: user phrases and easy symbols
    cases t.isComposing with
    | true => cases Keysyms.isDigit evt.ksym <;> simp
    | false => simp
  · refine if_congr Iff.rfl rfl ?_
    cases t.isComposing with
    | true => rfl
    | false =>
      rw [if_pos Bool.false_ne_true, if_neg Bool.false_ne_true]
      refine if_congr Iff.rfl rfl ?_
      refine if_congr Iff.rfl rfl ?_
      cases Keysyms.isUnicode evt.ksym <;> rfl

/-- Setting options changes the options that are set, and no other. -/
def SetsOptions (E : Type) [ChewingEditor E] : Prop :=
  ∀ (f : EditorOptions → EditorOptions) (e : E),
    editorOptions (setEditorOptions f e) = f (editorOptions e)

omit [KeyTables] in
/-- Both sides set the language mode of their editor first. -/
theorem SameSettings.setLanguageMode (hoptions : SetsOptions E) {t : Tip E} {s : TipSession E}
    (h : t.SameSettings s) (mode mode' : LanguageMode) :
    SameSettings
      { t with chewingEditor :=
          setEditorOptions (fun opt => { opt with languageMode := mode }) t.chewingEditor }
      { s with chewingEditor :=
          setEditorOptions (fun opt => { opt with languageMode := mode' }) s.chewingEditor } where
  cfg := h.cfg
  keybindings := h.keybindings
  langMode := h.langMode
  characterForm := by
    show (editorOptions (setEditorOptions _ _)).characterForm
      = (editorOptions (setEditorOptions _ _)).characterForm
    rw [hoptions, hoptions]
    exact h.characterForm

omit [KeyTables] in
/-- With an unchanged configuration, what comes before the verdict only moves the
Shift state on. -/
theorem beforeVerdict_eq [Keysyms] {env : TestEnv} {t : Tip E} (h : ¬ t.Changed env.config)
    (evt : KeyboardEvent) :
    t.beforeVerdict env evt
      = (t.BeginsTap evt, { t with shiftKeyState := t.testedShiftKeyState env.now evt }) := by
  have hkept : ∀ state : ShiftKeyState,
      (applyConfigIfChanged env.config { t with shiftKeyState := state }).2
        = { t with shiftKeyState := state } :=
    fun state => applyConfigIfChanged_of_not_changed h
  rw [beforeVerdict_reload, hkept]

omit [ChewingEditor E] [KeyTables] in
theorem toIpc_eq_up {state : ShiftKeyState} : state.toIpc = .up ↔ state = .up := by
  cases state <;> simp [ShiftKeyState.toIpc]

/-- The host's `apply_config_if_changed` with the configuration of `t` in the
registry. -/
theorem SameSettings.applyConfigIfChanged_eq {t : Tip E} {s : TipSession E}
    (h : t.SameSettings s) {env : ConfigEnv} (hcfg : ¬ t.Changed env) :
    (s.applyConfigIfChanged env).2 = s := by
  unfold TipSession.applyConfigIfChanged
  rw [h.cfg]
  obtain ⟨e, heq⟩ | ⟨cfg, heq⟩ := reloadIfNeeded_of_not_changed hcfg
  · rw [heq]
  · rw [heq]

/-- **The host decides like the text service**: it decodes the event that was sent,
and with the same settings and an unchanged configuration on both sides its answer
is the one of `on_test_keydown`. -/
theorem host_onTestKeydown_eq {Value : Type u} [JsonValue Value OnTestKeyDown]
    (hjson : ∀ m : OnTestKeyDown,
      JsonValue.fromValue (JsonValue.toValue m : Value) = some m)
    (hoptions : SetsOptions E) {t : Tip E} {s : TipSession E} (hsame : t.SameSettings s)
    {env : TestEnv} {isContextMutable : Bool}
    (hcontext : env.context.isMutable = some isContextMutable)
    (hcfg : ¬ t.Changed env.config) {hostEnv : ConfigEnv} (hhost : ¬ t.Changed hostEnv)
    (ev : SystemKeyboardEvent) :
    ∃ m : OnTestKeyDown,
      JsonValue.fromValue
        (t.onTestKeyDownCall isContextMutable ev : MethodCall Value).parameters = some m ∧
      SystemKeyboardEvent.tryFrom m.event = some ev ∧
      (t.onTestKeydown env ev.toKeyboardEvent).1
        = .ok (s.onTestKeydown hostEnv m.isContextMutable m.isComposing m.shiftKeyState
          ev.toKeyboardEvent).1 := by
  refine ⟨t.onTestKeyDownMessage isContextMutable ev, hjson _,
    SystemKeyboardEvent.tryFrom_toIpc ev, ?_⟩
  let e : E := setEditorOptions
    (fun opt => { opt with languageMode := t.langMode.toLanguageMode }) t.chewingEditor
  let evt := ev.toKeyboardEvent t.cfg.simulateEnglishLayout
  have hbefore := beforeVerdict_eq (t := { t with chewingEditor := e }) hcfg evt
  have htip : t.onTestKeydown env ev.toKeyboardEvent
      = (.ok (verdict (t.cfg.simulateEnglishLayout != 0) isContextMutable
          (beforeVerdict env evt { t with chewingEditor := e }).1 evt
          (beforeVerdict env evt { t with chewingEditor := e }).2),
        (beforeVerdict env evt { t with chewingEditor := e }).2) := by
    unfold onTestKeydown
    rw [hcontext]
  -- the host prepares its editor in the same way, and then only decides
  have hsession := hsame.setLanguageMode hoptions t.langMode.toLanguageMode
    s.langMode.toLanguageMode
  have hunchanged := hsession.applyConfigIfChanged_eq hhost
  let e' : E := setEditorOptions
    (fun opt => { opt with languageMode := s.langMode.toLanguageMode }) s.chewingEditor
  have hsettled : SameSettings
      { t with chewingEditor := e, shiftKeyState := t.testedShiftKeyState env.now evt }
      { s with chewingEditor := e' } :=
    ⟨hsession.1, hsession.2, hsession.3, hsession.4⟩
  -- a tap begins if the state that was sent is `Up`
  have hshift : t.BeginsTap evt = true ↔
      (evt.ksym = Keysyms.symLeftshift ∨ evt.ksym = Keysyms.symRightshift) ∧
        t.cfg.switchLangWithShift = true ∧ (t.sentShiftKeyState evt).toIpc = .up := by
    rw [← beginsTap_consumed, toIpc_eq_up,
      show t.consumedShiftKeyState evt = t.sentShiftKeyState evt from rfl]
    simp [KeyboardEvent.isShift, and_assoc]
  have hhostAnswer : (s.onTestKeydown hostEnv isContextMutable t.isComposing
        (t.sentShiftKeyState evt).toIpc ev.toKeyboardEvent).1
      = TipSession.verdict (t.cfg.simulateEnglishLayout != 0) isContextMutable t.isComposing
        (t.sentShiftKeyState evt).toIpc evt { s with chewingEditor := e' } := by
    have hevt : ev.toKeyboardEvent s.cfg.simulateEnglishLayout = evt := by
      rw [hsame.cfg]
    have hlayout : s.cfg.simulateEnglishLayout = t.cfg.simulateEnglishLayout := by
      rw [hsame.cfg]
    show TipSession.verdict (s.cfg.simulateEnglishLayout != 0) isContextMutable t.isComposing
        (t.sentShiftKeyState evt).toIpc (ev.toKeyboardEvent s.cfg.simulateEnglishLayout)
        (({ s with chewingEditor := e' } : TipSession E).applyConfigIfChanged hostEnv).2 = _
    rw [hunchanged, hevt, hlayout]
  rw [htip, hbefore, Except.ok.injEq]
  exact ((hhostAnswer.trans
    (hsettled.verdict_eq (t.cfg.simulateEnglishLayout != 0) isContextMutable hshift)).symm)

end Tip

end KeyMessage

/-! ## A value of `serde_json` for examples -/

/-- A `serde_json::Value`, as far as the message needs it. -/
inductive SampleTree where
  | bool (b : Bool)
  | number (n : Nat)
  | string (s : String)
  /-- an array of numbers -/
  | array (ns : List Nat)
  | object (fields : List (String × SampleTree))

namespace SampleTree

def field (name : String) : SampleTree → Option SampleTree
  | object fields => fields.lookup name
  | _ => none

def asBool : SampleTree → Option Bool
  | bool b => some b
  | _ => none

def asNumber : SampleTree → Option Nat
  | number n => some n
  | _ => none

def asArray : SampleTree → Option (List Nat)
  | array ns => some ns
  | _ => none

def asShiftKeyState : SampleTree → Option IpcShiftKeyState
  | string s =>
    if s = "Down" then some .down
    else if s = "Consumed" then some .consumed
    else if s = "Up" then some .up else none
  | _ => none

def ofShiftKeyState : IpcShiftKeyState → SampleTree
  | .down => string "Down"
  | .consumed => string "Consumed"
  | .up => string "Up"

def ofEvent (ev : IpcKeyEvent) : SampleTree :=
  object [("vk", number ev.vk.toNat), ("scan_code", number ev.scanCode.toNat),
    ("ascii_code", number ev.asciiCode.toNat), ("key_state", array (ev.keyState.map UInt8.toNat))]

def asEvent (v : SampleTree) : Option IpcKeyEvent := do
  let vk ← (← v.field "vk").asNumber
  let scanCode ← (← v.field "scan_code").asNumber
  let asciiCode ← (← v.field "ascii_code").asNumber
  let keyState ← (← v.field "key_state").asArray
  return ⟨vk.toUInt16, scanCode.toUInt16, asciiCode.toUInt8, keyState.map Nat.toUInt8⟩

scoped instance : JsonValue SampleTree OnTestKeyDown where
  toValue m :=
    object [("is_context_mutable", bool m.isContextMutable), ("is_composing", bool m.isComposing),
      ("shift_key_state", ofShiftKeyState m.shiftKeyState), ("event", ofEvent m.event)]
  fromValue v := do
    let isContextMutable ← (← v.field "is_context_mutable").asBool
    let isComposing ← (← v.field "is_composing").asBool
    let shiftKeyState ← (← v.field "shift_key_state").asShiftKeyState
    let event ← (← v.field "event").asEvent
    return ⟨isContextMutable, isComposing, shiftKeyState, event⟩

theorem asShiftKeyState_ofShiftKeyState (state : IpcShiftKeyState) :
    (ofShiftKeyState state).asShiftKeyState = some state := by
  cases state <;> rfl

theorem asEvent_ofEvent (ev : IpcKeyEvent) : (ofEvent ev).asEvent = some ev := by
  have hbytes : (ev.keyState.map UInt8.toNat).map Nat.toUInt8 = ev.keyState := by
    rw [List.map_map]
    exact List.map_id'' (fun _ => UInt8.ofNat_toNat) _
  show some (IpcKeyEvent.mk ev.vk.toNat.toUInt16 ev.scanCode.toNat.toUInt16
    ev.asciiCode.toNat.toUInt8 ((ev.keyState.map UInt8.toNat).map Nat.toUInt8)) = some ev
  rw [hbytes]
  simp

theorem fromValue_toValue (m : OnTestKeyDown) :
    JsonValue.fromValue (JsonValue.toValue m : SampleTree) = some m := by
  show (do
    let shiftKeyState ← (ofShiftKeyState m.shiftKeyState).asShiftKeyState
    let event ← (ofEvent m.event).asEvent
    return OnTestKeyDown.mk m.isContextMutable m.isComposing shiftKeyState event) = some m
  rw [asShiftKeyState_ofShiftKeyState, asEvent_ofEvent]
  rfl

end SampleTree

open SampleTree ScriptedEditor in
/-- The letter `a`, pressed with nothing composed. -/
theorem Tip.host_onTestKeydown_letter :
    ∃ m : OnTestKeyDown,
      JsonValue.fromValue ((Tip.fresh .queued).onTestKeyDownCall true
        ⟨0x41, 0x1e, 0x61, Vector.replicate 256 0⟩ : MethodCall SampleTree).parameters = some m ∧
      SystemKeyboardEvent.tryFrom m.event
        = some ⟨0x41, 0x1e, 0x61, Vector.replicate 256 0⟩ ∧
      ((Tip.fresh .queued).onTestKeydown testEnv
          (SystemKeyboardEvent.toKeyboardEvent ⟨0x41, 0x1e, 0x61, Vector.replicate 256 0⟩)).1
        = .ok ((Tip.fresh .queued).session.onTestKeydown ⟨.ok .default, none, none⟩
          m.isContextMutable m.isComposing m.shiftKeyState
          (SystemKeyboardEvent.toKeyboardEvent ⟨0x41, 0x1e, 0x61, Vector.replicate 256 0⟩)).1 :=
  Tip.host_onTestKeydown_eq fromValue_toValue (fun _ _ => rfl) ⟨rfl, rfl, rfl, rfl⟩ rfl
    (fun ⟨_, hreg, hne⟩ => hne (Except.ok.inj hreg).symm)
    (fun ⟨_, hreg, hne⟩ => hne (Except.ok.inj hreg).symm) _

end ChewingTsf
