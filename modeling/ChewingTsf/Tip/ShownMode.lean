import ChewingTsf.Tip.LangBar
import ChewingTsf.Tip.Mode

/-!
# The language bar shows the mode of the service

The buttons are updated from many places: wherever the language or the output is switched, and
wherever a configuration is put in force. The updates a handler makes are listed beside it, in
order, each with what it reads of the service at that moment.

`Keyboard.shows_mode` is about every run of calls: whatever fails on the way, if the last
update of the buttons succeeded then they show the mode the service is in now. No handler
changes the mode after its last update. The character form is left out: a key can change it in
the editor, and then nothing is updated.
-/

namespace ChewingTsf

open ChewingEditor

/-! ## Updates -/

/-- An update of the buttons, or of a mark of the menu (`CheckMenuItem`, which cannot fail). -/
inductive BarUpdate where
  | buttons (v : BarView)
  | checkSimp (checked : Bool)
  | checkShape (checked : Bool)

/-- The bar, and the theme that the last `update_lang_buttons` found if it returned `Ok`. -/
structure BarState where
  bar : LangBar
  updated : Option WindowsTheme

namespace BarState

def after (env : ButtonsEnv) (s : BarState) : BarUpdate → BarState
  | .buttons v =>
    match s.bar.updateLangButtons env v with
    | (.ok (), bar) => ⟨bar, some env.theme⟩
    | (.error _, bar) => ⟨bar, none⟩
  | .checkSimp checked => { s with bar.checkSimp := checked }
  | .checkShape checked => { s with bar.checkShape := checked }

/-- An update is made, whatever it meets. -/
def Step (s : BarState) (u : BarUpdate) (s' : BarState) : Prop :=
  ∃ env, s' = s.after env u

end BarState

section Updates

variable {E : Type} [ChewingEditor E]

namespace Tip

/-- What `update_lang_buttons` would read now. -/
def barView (t : Tip E) : BarView where
  langMode := t.langMode
  outputSimpChinese := t.outputSimpChinese
  updateInfoUrl := t.cfg.updateInfoUrl
  characterForm := (editorOptions t.chewingEditor).characterForm

/-! ### The updates of each handler -/

/-- `sync_lang_mode`. -/
def syncLangModeUpdates (env : ModeEnv) (internal : Bool) (t : Tip E) : List BarUpdate :=
  [.buttons (t.syncLangMode env internal).2.barView]

/-- `toggle_lang_mode`. -/
def toggleLangModeUpdates (env : ModeEnv) (t : Tip E) : List BarUpdate :=
  { t with langMode := t.langMode.toggled }.syncLangModeUpdates env true

/-- `toggle_simp_chinese`. -/
def toggleSimpChineseUpdates (t : Tip E) : List BarUpdate :=
  let u := { t with outputSimpChinese := !t.outputSimpChinese }
  [.checkSimp u.outputSimpChinese, .buttons u.barView]

section Config

variable [Keysyms]

/-- `apply_runtime_config`. -/
def applyRuntimeConfigUpdates (env : ConfigEnv) (t : Tip E) : List BarUpdate :=
  match t.applyRuntimeConfig env with
  | (true, u) => [.buttons u.barView]
  | (false, _) => []

/-- `apply_config_if_changed`. -/
def applyConfigIfChangedUpdates (env : ConfigEnv) (t : Tip E) : List BarUpdate :=
  match t.cfg.reloadIfNeeded env.fromReg with
  | .ok (true, cfg) => { t with cfg := cfg }.applyRuntimeConfigUpdates env
  | _ => []

/-- `apply_runtime_config` and, if it succeeds, `sync_lang_mode`. -/
def putInForceUpdates (env : ConfigEnv) (mode : ModeEnv) (t : Tip E) : List BarUpdate :=
  t.applyRuntimeConfigUpdates env ++
    match t.applyRuntimeConfig env with
    | (true, u) => u.syncLangModeUpdates mode true
    | (false, _) => []

/-- `apply_init_config`, before it puts the configuration in force. -/
def initialised (t : Tip E) : Tip E :=
  { t with
    outputSimpChinese := t.cfg.outputSimpChinese
    chewingEditor := setEditorOptions (fun opt => { opt with
      characterForm := if t.cfg.defaultFullSpace then .fullwidth else opt.characterForm
      autoCommitThreshold := 50 }) t.chewingEditor
    langMode := if t.cfg.defaultEnglish then .english else .chinese }

/-- `init_chewing_context`. -/
def initChewingContextUpdates (env : ConfigEnv) (mode : ModeEnv) (t : Tip E) : List BarUpdate :=
  .checkSimp t.cfg.outputSimpChinese :: t.initialised.putInForceUpdates env mode

/-- `on_thread_focus`. -/
def onThreadFocusUpdates (env : ConfigEnv) (mode : ModeEnv) (t : Tip E) : List BarUpdate :=
  match t.cfg.reloadIfNeeded env.fromReg with
  | .ok (true, cfg) => { t with cfg := cfg }.putInForceUpdates env mode
  | _ => t.putInForceUpdates env mode

/-- `on_test_keydown`. The configuration is put in force with a new editor, so the options that
are set before do not matter. -/
def onTestKeydownUpdates (env : TestEnv) (t : Tip E) : List BarUpdate :=
  match env.context.isMutable with
  | none => []
  | some _ => t.applyConfigIfChangedUpdates env.config

end Config

/-- `on_compartment_change_ro` and `on_compartment_change`, up to the commit. -/
def onCompartmentChangeUpdates (env : ModeEnv) (openclose : Bool) (t : Tip E) : List BarUpdate :=
  if openclose && !t.pendingLangModeChange && t.hasFocus then
    { t with pendingLangModeChange := false }.toggleKeyboardOpenclose.syncLangModeUpdates env false
  else []

end Tip

end Updates

section Handlers

variable {E : Type} [EditorCommands E]

namespace Tip

/-- `toggle_shape_mode`. -/
def toggleShapeModeUpdates (t : Tip E) : List BarUpdate :=
  let u := (t.toggleShapeMode true).2
  [.checkShape ((editorOptions u.chewingEditor).characterForm = .fullwidth), .buttons u.barView]

/-- `on_command` for a left click or a menu item. -/
def menuCommandUpdates (env : ModeEnv) (id : UInt32) (t : Tip E) : List BarUpdate :=
  if id = ID_SWITCH_LANG ∨ id = ID_MODE_ICON then t.toggleLangModeUpdates env
  else if id = ID_SWITCH_SHAPE then t.toggleShapeModeUpdates
  else if id = ID_OUTPUT_SIMP_CHINESE then t.toggleSimpChineseUpdates
  else []

/-- `on_command`. -/
def onCommandUpdates (env : CommandEnv) (id : UInt32) (cmdType : CommandType) (t : Tip E) :
    List BarUpdate :=
  match commandItem env id cmdType with
  | none => []
  | some item => t.menuCommandUpdates env.mode item

variable [KeyCodes]

/-- `on_keydown`: the first keybinding that matches. -/
def handleKeybindingUpdates (evt : KeyboardEvent) (t : Tip E) : List BarUpdate :=
  match t.keybindings.find? (·.«matches» evt) with
  | none => []
  | some kb =>
    if kb.action = "toggle_simplified_chinese".toList then t.toggleSimpChineseUpdates else []

/-- `on_keydown`. -/
def onKeydownUpdates (env : KeydownEnv) (ev : Int → KeyboardEvent) (t : Tip E) : List BarUpdate :=
  t.onTestKeydownUpdates env.test ++
    match t.onTestKeydown env.test ev with
    | (.ok true, u) => u.handleKeybindingUpdates (ev u.cfg.simulateEnglishLayout)
    | _ => []

/-- `on_keyup`: the Shift tap. -/
def shiftUpUpdates (env : KeyupEnv) (evt : KeyboardEvent) (t : Tip E) : List BarUpdate :=
  if evt.ksym = Keysyms.symLeftshift ∨ evt.ksym = Keysyms.symRightshift then
    let (duration, state) := t.shiftKeyState.release env.now
    let t : Tip E := { t with shiftKeyState := state }
    let tapped : Bool := duration.any fun d => d < i32AsU64 t.cfg.shiftKeySensitivity
    if tapped ∧ t.cfg.switchLangWithShift then
      if t.cfg.enableCapsLock then [] else t.toggleLangModeUpdates env.mode
    else []
  else []

/-- `on_keyup`: CapsLock. -/
def capsUpUpdates (env : KeyupEnv) (evt : KeyboardEvent) (t : Tip E) : List BarUpdate :=
  if t.cfg.enableCapsLock ∧ evt.ksym = Keysyms.symCapslock then
    t.syncLangModeUpdates env.mode true
  else []

/-- `on_keyup`. -/
def onKeyupUpdates (zhconv : Str → Str) (env : KeyupEnv) (ev : Int → KeyboardEvent) (t : Tip E) :
    List BarUpdate :=
  let evt := ev t.cfg.simulateEnglishLayout
  t.shiftUpUpdates env evt ++
    match t.shiftUp zhconv env evt with
    | (.ok (), u) => u.capsUpUpdates env evt
    | (.error _, _) => []

/-- `on_test_keyup`. -/
def onTestKeyupUpdates (zhconv : Str → Str) (env : KeyupEnv) (ev : Int → KeyboardEvent)
    (t : Tip E) : List BarUpdate :=
  if t.langMode.isDisabled then [] else t.onKeyupUpdates zhconv env ev

end Tip

/-! ### The updates of a call -/

namespace Keyboard

/-- `ITfCompartment::SetValue`. -/
def setOpencloseUpdates (env : Tip.CompartmentEnv) (value : Option Int) (k : Keyboard E) :
    List BarUpdate :=
  if k.openclose = value then [] else k.tip.onCompartmentChangeUpdates env.mode true

/-- `sync_keyboard_openclose(false)`. -/
def syncKeyboardOpencloseUpdates (env : Tip.CompartmentEnv) (k : Keyboard E) : List BarUpdate :=
  match k.tip.opencloseToSet env.compartment false with
  | (.ok (some value), t) =>
    if env.setValue then { k with tip := t }.setOpencloseUpdates env (some value) else []
  | _ => []

/-- `sync_keyboard_openclose` after a method that returned `Ok`. -/
def thenSyncUpdates {α : Type} (env : Tip.CompartmentEnv) (r : Except Fault α × Tip E)
    (k : Keyboard E) : List BarUpdate :=
  match r with
  | (.ok _, t) => { k with tip := t }.syncKeyboardOpencloseUpdates env
  | (.error _, _) => []

end Keyboard

def KeyboardCall.updates [KeyCodes] (zhconv : Str → Str) (k : Keyboard E) :
    KeyboardCall → List BarUpdate
  | change value env => k.setOpencloseUpdates env value
  | testKeyDown env _ => k.tip.onTestKeydownUpdates env
  | keyDown env ev => k.tip.onKeydownUpdates env ev
  | testKeyUp env ev sync =>
    k.tip.onTestKeyupUpdates zhconv env ev ++ k.thenSyncUpdates sync (k.tip.onTestKeyup zhconv env ev)
  | keyUp env ev sync =>
    k.tip.onKeyupUpdates zhconv env ev ++ k.thenSyncUpdates sync (k.tip.onKeyup zhconv env ev)
  | command env id cmdType sync =>
    k.tip.onCommandUpdates env id cmdType ++
      { k with tip := k.tip.onCommand zhconv env id cmdType }.syncKeyboardOpencloseUpdates sync
  | setThreadFocus config mode sync =>
    k.tip.onThreadFocusUpdates config mode ++
      k.thenSyncUpdates sync (k.tip.onThreadFocus config mode)
  | setFocus .. | compositionTerminated | session => []

end Handlers

/-! ## The bar follows the mode -/

section Shown

variable {E : Type} [ChewingEditor E]

namespace Tip

/-- The mark of the output is right, and if the last update succeeded, then the buttons are, for
some character form. -/
structure Shown (t : Tip E) (s : BarState) : Prop where
  checkSimp : s.bar.checkSimp = t.outputSimpChinese
  shows : ∀ theme, s.updated = some theme →
    ∃ form, s.bar.Shows theme { t.barView with characterForm := form }

/-- The updates `us` keep the bar right while the service goes from `t` to `u`. -/
def Keeps (t : Tip E) (us : List BarUpdate) (u : Tip E) : Prop :=
  ∀ s s', t.Shown s → Run BarState.Step s us s' → u.Shown s'

variable {t u v : Tip E} {us vs : List BarUpdate}

theorem Shown.of_sameMode {s : BarState} (h : t.Shown s) (hsame : SameMode t u) : u.Shown s := by
  refine ⟨h.checkSimp.trans hsame.outputSimpChinese.symm, fun theme htheme => ?_⟩
  obtain ⟨form, hshows⟩ := h.shows theme htheme
  refine ⟨form, ?_⟩
  unfold barView
  rw [hsame.langMode, hsame.outputSimpChinese, hsame.cfg]
  exact hshows

theorem Keeps.of_sameMode (h : SameMode t u) : Keeps t [] u := by
  intro s s' hshown hrun
  rw [← hrun.of_nil]
  exact hshown.of_sameMode h

theorem Keeps.trans (h : Keeps t us u) (h' : Keeps u vs v) : Keeps t (us ++ vs) v := by
  intro s s' hshown hrun
  obtain ⟨r, hus, hvs⟩ := hrun.of_append
  exact h' r s' (h s r hshown hus) hvs

/-- What changes neither the mode nor the configuration may follow. -/
theorem Keeps.sameMode (h : Keeps t us u) (hsame : SameMode u v) : Keeps t us v :=
  fun s s' hshown hrun => (h s s' hshown hrun).of_sameMode hsame

/-- An update of the buttons is all it takes if the mark of the output is right. -/
theorem shown_after_buttons {s : BarState} (h : s.bar.checkSimp = u.outputSimpChinese)
    (env : ButtonsEnv) : u.Shown (s.after env (.buttons u.barView)) := by
  have hcheck := LangBar.updateLangButtons_checkSimp env u.barView s.bar
  unfold BarState.after
  dsimp only
  split
  · next bar hbar =>
    rw [hbar] at hcheck
    refine ⟨hcheck.trans h, ?_⟩
    rintro theme ⟨rfl⟩
    exact ⟨_, LangBar.updateLangButtons_shows hbar⟩
  · next bar hbar =>
    rw [hbar] at hcheck
    exact ⟨hcheck.trans h, nofun⟩

/-- **An update of the buttons**, with the mode that is in force then. -/
theorem keeps_buttons (h : u.outputSimpChinese = t.outputSimpChinese) :
    Keeps t [.buttons u.barView] u := by
  intro s s' hshown hrun
  obtain ⟨r, ⟨env, rfl⟩, hnil⟩ := hrun.of_cons
  obtain rfl := hnil.of_nil
  exact shown_after_buttons (hshown.checkSimp.trans h.symm) env

/-- The mark of the output is set before. -/
theorem keeps_checkSimp (t u : Tip E) :
    Keeps t [.checkSimp u.outputSimpChinese, .buttons u.barView] u := by
  intro s s' _ hrun
  obtain ⟨r, ⟨_, rfl⟩, hbuttons⟩ := hrun.of_cons
  obtain ⟨_, ⟨env, rfl⟩, hnil⟩ := hbuttons.of_cons
  obtain rfl := hnil.of_nil
  exact shown_after_buttons (s := { s with bar.checkSimp := u.outputSimpChinese }) rfl env

theorem keeps_checkShape (h : u.outputSimpChinese = t.outputSimpChinese) (checked : Bool) :
    Keeps t [.checkShape checked, .buttons u.barView] u := by
  intro s s' hshown hrun
  obtain ⟨r, ⟨_, rfl⟩, hbuttons⟩ := hrun.of_cons
  obtain ⟨_, ⟨env, rfl⟩, hnil⟩ := hbuttons.of_cons
  obtain rfl := hnil.of_nil
  exact shown_after_buttons (s := { s with bar.checkShape := checked })
    (hshown.checkSimp.trans h.symm) env

/-! ### The mode and the configuration -/

omit [ChewingEditor E] in
theorem syncLangMode_outputSimpChinese (env : ModeEnv) (internal : Bool) (t : Tip E) :
    (t.syncLangMode env internal).2.outputSimpChinese = t.outputSimpChinese := by
  obtain ⟨langMode, heq, -⟩ := syncLangMode_eq env internal t
  rw [heq]

/-- `h`: what precedes the synchronisation may switch the language, but not the output. -/
theorem keeps_syncLangMode (env : ModeEnv) (internal : Bool)
    (h : u.outputSimpChinese = t.outputSimpChinese) :
    Keeps t (u.syncLangModeUpdates env internal) (u.syncLangMode env internal).2 :=
  keeps_buttons ((syncLangMode_outputSimpChinese env internal u).trans h)

theorem keeps_toggleLangMode (zhconv : Str → Str) (env : ModeEnv) (t : Tip E) :
    Keeps t (t.toggleLangModeUpdates env) (t.toggleLangMode zhconv env).2 := by
  have hswitched : Keeps t (t.toggleLangModeUpdates env) (t.switched env) :=
    keeps_syncLangMode (u := { t with langMode := t.langMode.toggled }) env true rfl
  exact hswitched.sameMode (.toggleLangMode t zhconv env)

section Config

variable [Keysyms]

/-- `h`: the configuration that is put in force may be a new one. -/
theorem keeps_applyRuntimeConfig {env : ConfigEnv} (hdirs : env.Dirs)
    (h : u.outputSimpChinese = t.outputSimpChinese) :
    Keeps t (u.applyRuntimeConfigUpdates env) (u.applyRuntimeConfig env).2 := by
  obtain ⟨editor, -, heq⟩ := applyRuntimeConfig_of_dirs hdirs u
  unfold applyRuntimeConfigUpdates
  rw [heq]
  exact keeps_buttons h

/-- The editor is a new one: the one before does not matter. -/
theorem applyRuntimeConfig_sameMode {env : ConfigEnv} (hdirs : env.Dirs) (h : SameMode t u) :
    SameMode (t.applyRuntimeConfig env).2 (u.applyRuntimeConfig env).2 := by
  obtain ⟨_, -, heq⟩ := applyRuntimeConfig_of_dirs hdirs t
  obtain ⟨_, -, heq'⟩ := applyRuntimeConfig_of_dirs hdirs u
  rw [heq, heq']
  exact ⟨h.langMode, h.outputSimpChinese, h.cfg⟩

theorem keeps_applyConfigIfChanged {env : ConfigEnv} (hdirs : env.Dirs) (h : SameMode t u) :
    Keeps t (t.applyConfigIfChangedUpdates env) (u.applyConfigIfChanged env).2 := by
  unfold applyConfigIfChangedUpdates applyConfigIfChanged
  rw [h.cfg]
  rcases t.cfg.reloadIfNeeded env.fromReg with e | ⟨changed, cfg⟩
  · exact .of_sameMode h
  · cases changed with
    | false => exact .of_sameMode h
    | true =>
      have hnew : SameMode { t with cfg := cfg } { u with cfg := cfg } :=
        ⟨h.langMode, h.outputSimpChinese, rfl⟩
      have hkeeps : Keeps t ({ t with cfg := cfg }.applyRuntimeConfigUpdates env)
          ({ t with cfg := cfg }.applyRuntimeConfig env).2 := keeps_applyRuntimeConfig hdirs rfl
      exact hkeeps.sameMode (applyRuntimeConfig_sameMode hdirs hnew)

theorem keeps_onTestKeydown {env : TestEnv} (hdirs : env.config.Dirs) (ev : Int → KeyboardEvent)
    (t : Tip E) : Keeps t (t.onTestKeydownUpdates env) (t.onTestKeydown env ev).2 := by
  unfold onTestKeydownUpdates onTestKeydown
  dsimp only
  cases env.context.isMutable with
  | none => exact .of_sameMode ⟨rfl, rfl, rfl⟩
  | some isContextMutable =>
    dsimp only
    rw [beforeVerdict_reload]
    exact keeps_applyConfigIfChanged hdirs ⟨rfl, rfl, rfl⟩

theorem keeps_putInForce {env : ConfigEnv} (hdirs : env.Dirs) (mode : ModeEnv)
    (h : u.outputSimpChinese = t.outputSimpChinese) :
    Keeps t (u.putInForceUpdates env mode)
      ((u.applyRuntimeConfig env).2.syncLangMode mode true).2 := by
  have hruntime := keeps_applyRuntimeConfig (t := t) hdirs h
  obtain ⟨editor, -, heq⟩ := applyRuntimeConfig_of_dirs hdirs u
  unfold putInForceUpdates
  rw [heq] at hruntime ⊢
  exact hruntime.trans (keeps_syncLangMode mode true rfl)

/-- The configuration is put in force, whether it has been reloaded or not. -/
theorem onThreadFocus_putInForce {config : ConfigEnv} (hdirs : config.Dirs) (mode : ModeEnv)
    (t : Tip E) : ∃ cfg,
      t.onThreadFocusUpdates config mode = { t with cfg := cfg }.putInForceUpdates config mode ∧
      (t.onThreadFocus config mode).2
        = (({ t with cfg := cfg }.applyRuntimeConfig config).2.syncLangMode mode true).2 := by
  unfold onThreadFocusUpdates onThreadFocus
  have hforce : ∀ cfg, ∃ u, { t with cfg := cfg }.applyRuntimeConfig config = (true, u) := by
    intro cfg
    obtain ⟨editor, -, heq⟩ := applyRuntimeConfig_of_dirs hdirs { t with cfg := cfg }
    exact ⟨_, heq⟩
  rcases t.cfg.reloadIfNeeded config.fromReg with e | ⟨changed, cfg⟩
  · obtain ⟨u, hu⟩ := hforce t.cfg
    refine ⟨t.cfg, rfl, ?_⟩
    dsimp only
    rw [hu]
  · cases changed with
    | false =>
      obtain ⟨u, hu⟩ := hforce t.cfg
      refine ⟨t.cfg, rfl, ?_⟩
      dsimp only
      rw [hu]
    | true =>
      obtain ⟨u, hu⟩ := hforce cfg
      refine ⟨cfg, rfl, ?_⟩
      dsimp only
      rw [hu]

theorem keeps_onThreadFocus {config : ConfigEnv} (hdirs : config.Dirs) (mode : ModeEnv)
    (t : Tip E) : Keeps t (t.onThreadFocusUpdates config mode) (t.onThreadFocus config mode).2 := by
  obtain ⟨cfg, hupdates, hfocus⟩ := onThreadFocus_putInForce hdirs mode t
  rw [hupdates, hfocus]
  exact keeps_putInForce hdirs mode rfl

/-- Activation: nothing has been updated before, and the configuration may fail to be put in
force. -/
theorem shown_initChewingContext (env : ConfigEnv) (mode : ModeEnv) (t : Tip E) {bar : LangBar}
    {s : BarState}
    (hrun : Run BarState.Step ⟨bar, none⟩ (t.initChewingContextUpdates env mode) s) :
    (t.initChewingContext env mode).2.Shown s := by
  obtain ⟨r, ⟨_, rfl⟩, hrest⟩ := hrun.of_cons
  have hchecked : t.initialised.Shown
      ⟨{ bar with checkSimp := t.cfg.outputSimpChinese }, none⟩ := ⟨rfl, nofun⟩
  have hinit : t.applyInitConfig env = t.initialised.applyRuntimeConfig env := rfl
  unfold initChewingContext
  rw [hinit]
  by_cases hdirs : env.Dirs
  · have hkeeps := keeps_putInForce (t := t.initialised) hdirs mode rfl
    obtain ⟨editor, -, heq⟩ := applyRuntimeConfig_of_dirs hdirs t.initialised
    rw [heq] at hkeeps ⊢
    exact hkeeps _ s hchecked hrest
  · have hnothing : t.initialised.putInForceUpdates env mode = [] := by
      unfold putInForceUpdates applyRuntimeConfigUpdates
      rw [applyRuntimeConfig_of_not_dirs hdirs]
      rfl
    rw [hnothing] at hrest
    rw [applyRuntimeConfig_of_not_dirs hdirs, ← hrest.of_nil]
    exact hchecked.of_sameMode ⟨rfl, rfl, rfl⟩

end Config

end Tip

end Shown

section Calls

variable {E : Type} [EditorCommands E] {zhconv : Str → Str}

namespace Tip

variable {t u : Tip E}

theorem keeps_toggleSimpChinese (buttons : Bool) (t : Tip E) :
    Keeps t t.toggleSimpChineseUpdates (t.toggleSimpChinese buttons).2 :=
  keeps_checkSimp t (t.toggleSimpChinese buttons).2

theorem keeps_toggleShapeMode (buttons : Bool) (t : Tip E) :
    Keeps t t.toggleShapeModeUpdates (t.toggleShapeMode buttons).2 := by
  exact keeps_checkShape (t := t) (u := (t.toggleShapeMode buttons).2) rfl _

theorem keeps_onCommand (env : CommandEnv) (id : UInt32) (cmdType : CommandType) (t : Tip E) :
    Keeps t (t.onCommandUpdates env id cmdType) (t.onCommand zhconv env id cmdType) := by
  rw [onCommand_eq]
  unfold onCommandUpdates
  cases commandItem env id cmdType with
  | none => exact .of_sameMode (.refl t)
  | some item =>
    show Keeps t (t.menuCommandUpdates env.mode item) (t.menuCommand zhconv env.mode item)
    unfold menuCommandUpdates menuCommand
    split
    · exact keeps_toggleLangMode zhconv env.mode t
    · split
      · exact keeps_toggleShapeMode env.mode.buttons t
      · split
        · exact keeps_toggleSimpChinese env.mode.buttons t
        · exact .of_sameMode (.refl t)

/-- `OnChange`, with or without the synchronised keyboard. -/
theorem keeps_onChange (env : CompartmentEnv) (t : Tip E) :
    Keeps t (t.onCompartmentChangeUpdates env.mode true) (t.onChange zhconv env true).2 := by
  unfold onCompartmentChangeUpdates
  by_cases hexpected : t.pendingLangModeChange = true ∨ t.hasFocus = false
  · have hnothing : (true && !t.pendingLangModeChange && t.hasFocus) = false := by
      rcases hexpected with h | h <;> simp [h]
    rw [hnothing, if_neg Bool.false_ne_true]
    exact .of_sameMode (.onChange_of_expected env hexpected)
  · rw [not_or, Bool.not_eq_true, Bool.not_eq_false] at hexpected
    have hswitches : (true && !t.pendingLangModeChange && t.hasFocus) = true := by simp [hexpected]
    rw [hswitches, if_pos rfl]
    have hsync := keeps_syncLangMode (t := t) (u := t.switchedOpenclose) env.mode false rfl
    exact hsync.sameMode (.onChange env hexpected.1 hexpected.2)

variable [KeyCodes]

/-- A keybinding is handled after the key test. -/
theorem keeps_handleKeydown (env : KeydownEnv) (evt : KeyboardEvent) (t : Tip E) :
    Keeps t (t.handleKeybindingUpdates evt) (t.handleKeydown zhconv env evt).2 := by
  refine Keeps.sameMode ?_ (.handleKeydown zhconv env evt t)
  unfold handleKeybindingUpdates handleKeybinding
  cases t.keybindings.find? (·.«matches» evt) with
  | none => exact .of_sameMode (.refl t)
  | some kb =>
    have haction := SameMode.runAction env kb t
    unfold withOutputOf at haction
    show Keeps t (if kb.action = "toggle_simplified_chinese".toList then _ else []) _
    split
    · next hsimp =>
      rw [if_pos hsimp] at haction
      exact (keeps_toggleSimpChinese env.buttons t).sameMode haction
    · next hother =>
      rw [if_neg hother] at haction
      exact .of_sameMode haction

theorem keeps_onKeydown {env : KeydownEnv} (hdirs : env.test.config.Dirs)
    (ev : Int → KeyboardEvent) (t : Tip E) :
    Keeps t (t.onKeydownUpdates env ev) (t.onKeydown zhconv env ev).2 := by
  have htest := keeps_onTestKeydown hdirs ev t
  unfold onKeydownUpdates Tip.onKeydown
  rcases heq : t.onTestKeydown env.test ev with ⟨r, u⟩
  rw [heq] at htest
  cases r with
  | error e =>
    refine htest.trans ?_
    exact .of_sameMode (.refl u)
  | ok claimed =>
    refine htest.trans ?_
    cases claimed with
    | false => exact .of_sameMode (.refl u)
    | true => exact keeps_handleKeydown env _ u

theorem keeps_shiftUp (env : KeyupEnv) (evt : KeyboardEvent) (t : Tip E) :
    Keeps t (t.shiftUpUpdates env evt) (t.shiftUp zhconv env evt).2 := by
  unfold shiftUpUpdates Tip.shiftUp
  split
  · dsimp only
    split
    · split
      · exact .of_sameMode ⟨rfl, rfl, rfl⟩
      · have htoggle := keeps_toggleLangMode zhconv env.mode
          { t with shiftKeyState := (t.shiftKeyState.release env.now).2 }
        have hreleased : SameMode t { t with shiftKeyState := (t.shiftKeyState.release env.now).2 } :=
          ⟨rfl, rfl, rfl⟩
        have hkeeps := (Keeps.of_sameMode hreleased).trans htoggle
        split
        · next v hv =>
          rw [hv] at hkeeps
          exact hkeeps
        · next v hv =>
          rw [hv] at hkeeps
          exact hkeeps
    · exact .of_sameMode ⟨rfl, rfl, rfl⟩
  · exact .of_sameMode (.refl t)

theorem keeps_capsUp (env : KeyupEnv) (evt : KeyboardEvent) (t : Tip E) :
    Keeps t (t.capsUpUpdates env evt) (t.capsUp env evt).2 := by
  unfold capsUpUpdates Tip.capsUp
  split
  · have hsync : Keeps t (t.syncLangModeUpdates env.mode true) (t.syncLangMode env.mode true).2 :=
      keeps_syncLangMode env.mode true rfl
    split
    · next v hv =>
      rw [hv] at hsync
      exact hsync
    · next v hv =>
      rw [hv] at hsync
      exact hsync
  · exact .of_sameMode (.refl t)

theorem keeps_onKeyup (env : KeyupEnv) (ev : Int → KeyboardEvent) (t : Tip E) :
    Keeps t (t.onKeyupUpdates zhconv env ev) (t.onKeyup zhconv env ev).2 := by
  have hshift : Keeps t (t.shiftUpUpdates env (ev t.cfg.simulateEnglishLayout))
      (t.shiftUp zhconv env (ev t.cfg.simulateEnglishLayout)).2 := keeps_shiftUp env _ t
  unfold onKeyupUpdates Tip.onKeyup
  dsimp only
  rcases heq : t.shiftUp zhconv env (ev t.cfg.simulateEnglishLayout) with ⟨r, u⟩
  rw [heq] at hshift
  refine hshift.trans ?_
  cases r with
  | error e => exact .of_sameMode (.refl u)
  | ok _ =>
    have hcaps := keeps_capsUp env (ev t.cfg.simulateEnglishLayout) u
    dsimp only
    split
    · next v hv =>
      rw [hv] at hcaps
      exact hcaps
    · next v hv =>
      rw [hv] at hcaps
      exact hcaps

theorem keeps_onTestKeyup (env : KeyupEnv) (ev : Int → KeyboardEvent) (t : Tip E) :
    Keeps t (t.onTestKeyupUpdates zhconv env ev) (t.onTestKeyup zhconv env ev).2 := by
  unfold onTestKeyupUpdates Tip.onTestKeyup
  split
  · exact .of_sameMode (.refl t)
  · exact keeps_onKeyup env ev t

end Tip

/-! ### One call -/

namespace Keyboard

variable {k : Keyboard E}

theorem keeps_setOpenclose (env : Tip.CompartmentEnv) (byUser : Bool) (value : Option Int)
    (k : Keyboard E) :
    k.tip.Keeps (k.setOpencloseUpdates env value) (k.setOpenclose zhconv env byUser value).tip := by
  unfold setOpencloseUpdates setOpenclose
  split
  · exact .of_sameMode (.refl k.tip)
  · exact Tip.keeps_onChange env k.tip

theorem keeps_syncKeyboardOpenclose (env : Tip.CompartmentEnv) (k : Keyboard E) :
    k.tip.Keeps (k.syncKeyboardOpencloseUpdates env) (k.syncKeyboardOpenclose zhconv env).tip := by
  have hset : Tip.SameMode k.tip (k.tip.opencloseToSet env.compartment false).2 := by
    unfold Tip.opencloseToSet
    split
    · exact .refl k.tip
    · split
      · exact ⟨rfl, rfl, rfl⟩
      · split <;> exact .refl k.tip
  unfold syncKeyboardOpencloseUpdates syncKeyboardOpenclose
  rcases heq : k.tip.opencloseToSet env.compartment false with ⟨r, t⟩
  rw [heq] at hset
  rcases r with e | value
  · exact .of_sameMode hset
  · cases value with
    | none => exact .of_sameMode hset
    | some value =>
      dsimp only
      split
      · have hvalue : t.Keeps ({ k with tip := t }.setOpencloseUpdates env (some value))
            ({ k with tip := t }.setOpenclose zhconv env false (some value)).tip :=
          keeps_setOpenclose env false (some value) { k with tip := t }
        exact (Tip.Keeps.of_sameMode hset).trans hvalue
      · exact .of_sameMode hset

theorem keeps_thenSync {α : Type} {env : Tip.CompartmentEnv} {r : Except Fault α × Tip E}
    {us : List BarUpdate} (h : k.tip.Keeps us r.2) :
    k.tip.Keeps (us ++ k.thenSyncUpdates env r) (k.thenSync zhconv env r).tip := by
  obtain ⟨result, t⟩ := r
  refine h.trans ?_
  cases result with
  | error e => exact .of_sameMode (.refl t)
  | ok a => exact keeps_syncKeyboardOpenclose env { k with tip := t }

end Keyboard

variable [KeyCodes]

namespace KeyboardCall

/-- A configuration that is loaded can be put in force: the directories of the user and of the
program are there. -/
def BuildsEditor : KeyboardCall → Prop
  | testKeyDown env _ => env.config.Dirs
  | keyDown env _ => env.test.config.Dirs
  | setThreadFocus config _ _ => config.Dirs
  | _ => True

/-- **One call**: whatever fails in it, its updates keep the bar right. -/
theorem keeps_next (zhconv : Str → Str) {c : KeyboardCall} (h : c.BuildsEditor) (k : Keyboard E) :
    k.tip.Keeps (c.updates zhconv k) (c.next zhconv k).tip := by
  cases c with
  | change value env => exact Keyboard.keeps_setOpenclose env true value k
  | testKeyDown env ev => exact Tip.keeps_onTestKeydown h ev k.tip
  | keyDown env ev => exact Tip.keeps_onKeydown h ev k.tip
  | testKeyUp env ev sync => exact Keyboard.keeps_thenSync (Tip.keeps_onTestKeyup env ev k.tip)
  | keyUp env ev sync => exact Keyboard.keeps_thenSync (Tip.keeps_onKeyup env ev k.tip)
  | command env item cmdType sync =>
    exact (Tip.keeps_onCommand env item cmdType k.tip).trans
      (Keyboard.keeps_syncKeyboardOpenclose sync
        { k with tip := k.tip.onCommand zhconv env item cmdType })
  | setThreadFocus config mode sync =>
    exact Keyboard.keeps_thenSync (Tip.keeps_onThreadFocus h mode k.tip)
  | setFocus null context =>
    refine .of_sameMode ?_
    show k.tip.SameMode (if null then k.tip.onKillFocus context else k.tip.onFocus)
    split
    · exact .onKillFocus context k.tip
    · exact ⟨rfl, rfl, rfl⟩
  | compositionTerminated => exact .of_sameMode ⟨rfl, rfl, rfl⟩
  | session => exact .of_sameMode (.runSession k.tip)

end KeyboardCall

/-! ## Runs -/

inductive BarCall where
  | call (c : KeyboardCall)
  /-- TSF hides a button or shows it -/
  | setShown (button : BarButton) (sinks fshow : Bool)

namespace BarCall

/-- The service and its buttons; the updates of a call meet what they meet. -/
def Step (zhconv : Str → Str) (s : Keyboard E × BarState) (a : BarCall)
    (s' : Keyboard E × BarState) : Prop :=
  match a with
  | call c => s'.1 = c.next zhconv s.1 ∧ Run BarState.Step s.2 (c.updates zhconv s.1) s'.2
  | setShown button sinks fshow =>
    s' = (s.1, { s.2 with bar := s.2.bar.setShown button sinks fshow })

def BuildsEditor : BarCall → Prop
  | call c => c.BuildsEditor
  | setShown .. => True

end BarCall

omit [KeyCodes] in
theorem Tip.Shown.setShown {t : Tip E} {s : BarState} (h : t.Shown s) (button : BarButton)
    (sinks fshow : Bool) : t.Shown { s with bar := s.bar.setShown button sinks fshow } := by
  refine ⟨?_, fun theme htheme => ?_⟩
  · cases button <;> exact h.checkSimp
  · obtain ⟨form, hshows⟩ := h.shows theme htheme
    exact ⟨form, hshows.setShown button sinks fshow⟩

/-- What the buttons tell of the service, by their icons. -/
structure Tip.ToldBy (t : Tip E) (theme : WindowsTheme) (bar : LangBar) : Prop where
  shown : ∃ form, bar.Shows theme { t.barView with characterForm := form }
  disabled : bar.imeMode.Disabled ↔ t.langMode.isDisabled = true
  english : theme ≠ .unknown → t.langMode.isDisabled = false →
    (bar.switchLang.icon ∈ englishIcons ↔ t.langMode = .english)
  simplified : theme ≠ .unknown → t.langMode.isDisabled = false →
    (bar.switchLang.icon ∈ simplifiedIcons ↔ t.langMode = .chinese ∧ t.outputSimpChinese = true)

omit [KeyCodes] in
theorem Tip.Shown.told {t : Tip E} {s : BarState} (h : t.Shown s) {theme : WindowsTheme}
    (hupdated : s.updated = some theme) : t.ToldBy theme s.bar := by
  obtain ⟨form, hshows⟩ := h.shows theme hupdated
  refine ⟨⟨form, hshows⟩, hshows.enabled, fun htheme hopen => ?_, fun htheme hopen => ?_⟩
  · rw [hshows.switchLang]
    exact (langIconId_tells htheme hopen _ _).1
  · rw [hshows.switchLang]
    exact (langIconId_tells htheme hopen _ _).2.1

/-- **The language bar shows the mode** in every run: the mark of the output is right, and if
the last update of the buttons succeeded, they tell the mode that the service is in now. -/
theorem Keyboard.shows_mode (zhconv : Str → Str) {env : ActivateEnv} {editor : E}
    {document : Document} {grant : Grant} {openclose : Option Int} {bar : LangBar}
    {start : BarState}
    (hactivate : Run BarState.Step ⟨bar, none⟩
      ((Tip.new env.config.fromReg editor document grant).initChewingContextUpdates env.config
        env.mode) start)
    {ls : List BarCall} {s : Keyboard E × BarState}
    (hrun : Run (Guarded (fun _ a => a.BuildsEditor) (BarCall.Step zhconv))
      (.activate env editor document grant openclose, start) ls s) :
    s.2.bar.checkSimp = s.1.tip.outputSimpChinese ∧
      ∀ theme, s.2.updated = some theme → s.1.tip.ToldBy theme s.2.bar := by
  have hshown : s.1.tip.Shown s.2 := by
    refine hrun.invariant (I := fun s => s.1.tip.Shown s.2)
      (Tip.shown_initChewingContext env.config env.mode _ hactivate) ?_
    rintro ⟨k, r⟩ a ⟨k', r'⟩ hshown ⟨hbuilds, hstep⟩
    cases a with
    | call c =>
      obtain ⟨rfl, hupdates⟩ := hstep
      exact KeyboardCall.keeps_next zhconv hbuilds k r r' hshown hupdates
    | setShown button sinks fshow =>
      obtain ⟨rfl, rfl⟩ := Prod.mk.inj hstep
      exact hshown.setShown button sinks fshow
  exact ⟨hshown.checkSimp, fun _ hupdated => hshown.told hupdated⟩

end Calls

/-! ## Updates that succeed -/

namespace BarState

/-- The updates in order, all of them in `env`. -/
theorem run_after (env : ButtonsEnv) (s : BarState) (us : List BarUpdate) :
    Run Step s us (us.foldl (after env) s) :=
  Along.run (fun _ _ => True) (after env) (fun _ _ _ => ⟨env, rfl⟩)
    (.of_forall (fun _ _ => trivial) s us)

end BarState

open TypedEditor

/-- Everything succeeds, in a light theme. -/
def TypedEditor.buttonsEnv : ButtonsEnv :=
  ⟨some 1, some 1, true, ⟨true, true⟩, ⟨true, true⟩, true, true, ⟨true, true⟩⟩

/-- The buttons as they are created. -/
def TypedEditor.newBar : LangBar :=
  ⟨⟨IDI_CHI, 0⟩, ⟨IDI_CHI, 0⟩, ⟨IDI_HALF_SHAPE, 0⟩, false, false, false⟩

/-- The language is switched by a click. -/
theorem Keyboard.shows_mode_clicked : ∃ s : Keyboard TypedEditor × BarState,
    s.2.bar.switchLang.icon = IDI_ENG ∧ s.1.tip.ToldBy .light s.2.bar := by
  have hrun : ∃ (start : BarState) (s : Keyboard TypedEditor × BarState),
      Run BarState.Step ⟨newBar, none⟩
        ((Tip.new (.ok .default) blank ⟨[], 0, none⟩ .immediate).initChewingContextUpdates
          ⟨.ok .default, some [], some []⟩ modeEnv) start ∧
      Run (Guarded (fun _ a => a.BuildsEditor) (BarCall.Step id)) (activated .default, start)
        [.call (.command ⟨0, modeEnv⟩ ID_SWITCH_LANG .leftClick compartmentEnv)] s ∧
      s.2.bar.switchLang.icon = IDI_ENG ∧ s.2.updated = some .light := by
    refine ⟨_, (_, _), BarState.run_after buttonsEnv _ _,
      .single ⟨trivial, rfl, BarState.run_after buttonsEnv _ _⟩, ?_, ?_⟩
    · decide +kernel
    · decide +kernel
  obtain ⟨start, s, hactivate, hrun, hicon, hupdated⟩ := hrun
  exact ⟨s, hicon, (Keyboard.shows_mode id hactivate hrun).2 .light hupdated⟩

end ChewingTsf
