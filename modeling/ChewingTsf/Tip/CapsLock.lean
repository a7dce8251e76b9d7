import ChewingTsf.Tip.Mode

/-!
# CapsLock as the language switch

With `enable_caps_lock` the language is the one CapsLock stands for: `sync_lang_mode` puts it
in force, whatever switched the language before it. But nothing calls `sync_lang_mode` when
CapsLock changes. The service learns of it from the key-up of CapsLock, when it is opened, and
when the thread gets the focus; and a configuration that is reloaded for a key puts nothing in
force either.

`Keyboard.followsCapsLock_run` says that this is enough: as long as CapsLock changes where the
service can see it, an open keyboard is in the mode CapsLock stands for, whatever else is
pressed, clicked or opened.
-/

namespace ChewingTsf

open ChewingEditor

section

variable {E : Type}

namespace Tip

/-- CapsLock is to decide the language. -/
def CapsLockDecides (t : Tip E) : Prop :=
  t.langMode.isDisabled = false ∧ t.cfg.enableCapsLock = true

/-- If CapsLock is to decide, the language is the one it stands for. -/
def FollowsCapsLock (on : Bool) (t : Tip E) : Prop :=
  t.CapsLockDecides → t.langMode = if on = t.cfg.lockChineseOnCapsLock then .chinese else .english

variable {on : Bool} {t u : Tip E}

theorem FollowsCapsLock.of_sameMode (h : t.FollowsCapsLock on) (hsame : SameMode t u) :
    u.FollowsCapsLock on := by
  unfold FollowsCapsLock CapsLockDecides
  rw [hsame.langMode, hsame.cfg]
  exact h

/-- `sync_lang_mode` puts the mode of CapsLock in force. -/
theorem followsCapsLock_syncLangMode (env : ModeEnv) (internal : Bool) (t : Tip E) :
    (t.syncLangMode env internal).2.FollowsCapsLock env.capsLockOn := by
  rintro ⟨hopen, hcaps⟩
  have hdisabled := syncLangMode_isDisabled env internal t
  have hcfg := syncLangMode_cfg env internal t
  rw [hdisabled] at hopen
  rw [hcfg] at hcaps ⊢
  unfold syncLangMode
  dsimp only
  rw [hopen, hcaps]
  cases env.capsLockOn <;> cases t.cfg.lockChineseOnCapsLock <;> rfl

section Handlers

variable [EditorCommands E] {zhconv : Str → Str}

theorem followsCapsLock_toggleLangMode (zhconv : Str → Str) (env : ModeEnv) (t : Tip E) :
    (t.toggleLangMode zhconv env).2.FollowsCapsLock env.capsLockOn :=
  (followsCapsLock_syncLangMode env true { t with langMode := t.langMode.toggled }).of_sameMode
    (.toggleLangMode t zhconv env)

/-- `OnChange` puts it in force if it opens or closes the keyboard. -/
theorem FollowsCapsLock.onChange {env : CompartmentEnv} (h : t.FollowsCapsLock env.mode.capsLockOn) :
    (t.onChange zhconv env true).2.FollowsCapsLock env.mode.capsLockOn := by
  by_cases hexpected : t.pendingLangModeChange = true ∨ t.hasFocus = false
  · exact h.of_sameMode (.onChange_of_expected env hexpected)
  · rw [not_or, Bool.not_eq_true, Bool.not_eq_false] at hexpected
    exact (followsCapsLock_syncLangMode env.mode false t.switchedOpenclose).of_sameMode
      (.onChange env hexpected.1 hexpected.2)

theorem FollowsCapsLock.onCommand {env : CommandEnv} (id : UInt32) (cmdType : CommandType)
    (h : t.FollowsCapsLock env.mode.capsLockOn) :
    (t.onCommand zhconv env id cmdType).FollowsCapsLock env.mode.capsLockOn := by
  rw [onCommand_eq]
  split
  · exact h
  · next item _ =>
    unfold menuCommand
    split
    · exact followsCapsLock_toggleLangMode zhconv env.mode t
    · split
      · exact h.of_sameMode ⟨rfl, rfl, rfl⟩
      · split
        · exact h
        · exact h

/-! ### Keys -/

/-- The configuration in the registry, if it can be loaded, has the same settings for
CapsLock. -/
def ConfigEnv.SameCapsLock (env : ConfigEnv) (cfg : ChewingTsfConfig) : Prop :=
  ∀ new, env.fromReg = .ok new → new.enableCapsLock = cfg.enableCapsLock ∧
    new.lockChineseOnCapsLock = cfg.lockChineseOnCapsLock

omit [EditorCommands E] in
/-- A configuration that is reloaded leaves the mode as it is. -/
theorem FollowsCapsLock.of_reloaded {config : ConfigEnv} (hsame : config.SameCapsLock t.cfg)
    (h : t.FollowsCapsLock on) (hmode : u.langMode = t.langMode)
    (hcfg : u.cfg = t.reloaded config) : u.FollowsCapsLock on := by
  have hsettings : u.cfg.enableCapsLock = t.cfg.enableCapsLock ∧
      u.cfg.lockChineseOnCapsLock = t.cfg.lockChineseOnCapsLock := by
    rw [hcfg]
    rcases reloaded_cases config t with heq | hreg
    · rw [heq]
      exact ⟨rfl, rfl⟩
    · exact hsame _ hreg
  unfold FollowsCapsLock CapsLockDecides
  rw [hmode, hsettings.1, hsettings.2]
  exact h

variable [KeyCodes]

theorem FollowsCapsLock.onTestKeydown {env : TestEnv} (ev : Int → KeyboardEvent)
    (hsame : env.config.SameCapsLock t.cfg) (h : t.FollowsCapsLock on) :
    (t.onTestKeydown env ev).2.FollowsCapsLock on := by
  obtain ⟨editor, -, heq | ⟨state, _, _, _, _, u, rfl, heq⟩⟩ := onTestKeydown_cases env ev t
  · rw [heq]
    exact h
  · rw [heq]
    obtain ⟨hmode, -, hcfg⟩ := applyConfigIfChanged_frame env.config
      { t with chewingEditor := editor, shiftKeyState := state }
    exact h.of_reloaded hsame hmode hcfg

theorem FollowsCapsLock.handleKeydown (env : KeydownEnv) (evt : KeyboardEvent)
    (h : t.FollowsCapsLock on) : (t.handleKeydown zhconv env evt).2.FollowsCapsLock on := by
  have hbinding : (t.handleKeybinding env evt).2.FollowsCapsLock on := by
    unfold handleKeybinding
    split
    · exact h
    · next kb _ =>
      have houtput : (t.withOutputOf kb).FollowsCapsLock on := by
        unfold withOutputOf
        split
        · exact h
        · exact h
      exact houtput.of_sameMode (.runAction env kb t)
  exact hbinding.of_sameMode (.handleKeydown zhconv env evt t)

theorem FollowsCapsLock.onKeydown {env : KeydownEnv} (ev : Int → KeyboardEvent)
    (hsame : env.test.config.SameCapsLock t.cfg) (h : t.FollowsCapsLock on) :
    (t.onKeydown zhconv env ev).2.FollowsCapsLock on := by
  have htest := h.onTestKeydown ev hsame
  unfold Tip.onKeydown
  split
  · next u hu =>
    rw [hu] at htest
    exact htest
  · next u hu =>
    rw [hu] at htest
    exact htest
  · next u hu =>
    rw [hu] at htest
    exact htest.handleKeydown env _

/-- A tap of Shift does not switch what CapsLock decides. -/
theorem FollowsCapsLock.shiftUp {env : KeyupEnv} (evt : KeyboardEvent)
    (h : t.FollowsCapsLock env.mode.capsLockOn) :
    (t.shiftUp zhconv env evt).2.FollowsCapsLock env.mode.capsLockOn := by
  unfold Tip.shiftUp
  split
  · dsimp only
    split
    · split
      · exact h
      · have htoggle := followsCapsLock_toggleLangMode zhconv env.mode
          { t with shiftKeyState := (t.shiftKeyState.release env.now).2 }
        split
        · next u hu =>
          rw [hu] at htoggle
          exact htoggle
        · next u hu =>
          rw [hu] at htoggle
          exact htoggle
    · exact h
  · exact h

omit [EditorCommands E] in
theorem FollowsCapsLock.capsUp {env : KeyupEnv} (evt : KeyboardEvent)
    (h : t.FollowsCapsLock env.mode.capsLockOn ∨ evt.ksym = Keysyms.symCapslock) :
    (t.capsUp env evt).2.FollowsCapsLock env.mode.capsLockOn := by
  unfold Tip.capsUp
  split
  · have hsync := followsCapsLock_syncLangMode env.mode true t
    split
    · next u hu =>
      rw [hu] at hsync
      exact hsync
    · next u hu =>
      rw [hu] at hsync
      exact hsync
  · next hnot =>
    rcases h with h | hkey
    · exact h
    · rintro ⟨-, hcaps⟩
      exact absurd ⟨hcaps, hkey⟩ hnot

/-- The key-up of CapsLock, which is not taken for a Shift key. -/
def IsCapsLock (evt : KeyboardEvent) : Prop :=
  evt.ksym = Keysyms.symCapslock ∧
    ¬ (evt.ksym = Keysyms.symLeftshift ∨ evt.ksym = Keysyms.symRightshift)

theorem FollowsCapsLock.onKeyup {env : KeyupEnv} {ev : Int → KeyboardEvent}
    (h : t.FollowsCapsLock env.mode.capsLockOn ∨ IsCapsLock (ev t.cfg.simulateEnglishLayout)) :
    (t.onKeyup zhconv env ev).2.FollowsCapsLock env.mode.capsLockOn := by
  have hshift : (t.shiftUp zhconv env (ev t.cfg.simulateEnglishLayout)).2.FollowsCapsLock
        env.mode.capsLockOn ∨
      t.shiftUp zhconv env (ev t.cfg.simulateEnglishLayout) = (.ok (), t) ∧
        (ev t.cfg.simulateEnglishLayout).ksym = Keysyms.symCapslock := by
    rcases h with h | ⟨hkey, hnot⟩
    · exact .inl (h.shiftUp _)
    · exact .inr ⟨if_neg hnot, hkey⟩
  unfold Tip.onKeyup
  dsimp only
  split
  · next u hu =>
    rw [hu] at hshift
    rcases hshift with hu' | ⟨heq, -⟩
    · exact hu'
    · cases heq
  · next u hu =>
    rw [hu] at hshift
    have hcaps : (u.capsUp env (ev t.cfg.simulateEnglishLayout)).2.FollowsCapsLock
        env.mode.capsLockOn := .capsUp _ (hshift.imp_right And.right)
    split
    · next v hv =>
      rw [hv] at hcaps
      exact hcaps
    · next v hv =>
      rw [hv] at hcaps
      exact hcaps

theorem FollowsCapsLock.onTestKeyup {env : KeyupEnv} {ev : Int → KeyboardEvent}
    (h : t.FollowsCapsLock env.mode.capsLockOn ∨ IsCapsLock (ev t.cfg.simulateEnglishLayout)) :
    (t.onTestKeyup zhconv env ev).2.FollowsCapsLock env.mode.capsLockOn := by
  unfold Tip.onTestKeyup
  split
  · next hdisabled =>
    rintro ⟨hopen, -⟩
    rw [hdisabled] at hopen
    cases hopen
  · exact .onKeyup h

omit [EditorCommands E] in
/-- The thread gets the focus. -/
theorem followsCapsLock_onThreadFocus [ChewingEditor E] {config : ConfigEnv}
    (hdirs : config.Dirs) (mode : ModeEnv) (t : Tip E) :
    (t.onThreadFocus config mode).2.FollowsCapsLock mode.capsLockOn := by
  obtain ⟨cfg, -, heq⟩ := onThreadFocus_eq config mode t
  obtain ⟨editor, -, hruntime⟩ := applyRuntimeConfig_of_dirs hdirs { t with cfg := cfg }
  rw [heq, hruntime]
  exact followsCapsLock_syncLangMode mode true _

omit [EditorCommands E] in
theorem followsCapsLock_initChewingContext [ChewingEditor E] {config : ConfigEnv}
    (hdirs : config.Dirs) (mode : ModeEnv) (t : Tip E) :
    (t.initChewingContext config mode).2.FollowsCapsLock mode.capsLockOn := by
  unfold initChewingContext applyInitConfig
  dsimp only
  obtain ⟨editor, -, hruntime⟩ := applyRuntimeConfig_of_dirs hdirs { t with
    outputSimpChinese := t.cfg.outputSimpChinese
    chewingEditor := setEditorOptions (fun opt => { opt with
      characterForm := if t.cfg.defaultFullSpace then .fullwidth else opt.characterForm
      autoCommitThreshold := 50 }) t.chewingEditor
    langMode := if t.cfg.defaultEnglish then .english else .chinese }
  rw [hruntime]
  exact followsCapsLock_syncLangMode mode true _

end Handlers

end Tip

/-! ## Runs -/

section Runs

variable [EditorCommands E] {zhconv : Str → Str} {k : Keyboard E} {on : Bool}

namespace Keyboard

theorem followsCapsLock_setOpenclose {env : Tip.CompartmentEnv} (byUser : Bool)
    (value : Option Int) (h : k.tip.FollowsCapsLock env.mode.capsLockOn) :
    (k.setOpenclose zhconv env byUser value).tip.FollowsCapsLock env.mode.capsLockOn := by
  unfold setOpenclose
  split
  · exact h
  · exact h.onChange

theorem followsCapsLock_syncKeyboardOpenclose {env : Tip.CompartmentEnv}
    (h : k.tip.FollowsCapsLock env.mode.capsLockOn) :
    (k.syncKeyboardOpenclose zhconv env).tip.FollowsCapsLock env.mode.capsLockOn := by
  rcases syncKeyboardOpenclose_cases env k with ⟨pending, heq⟩ | ⟨-, value, heq⟩
  · rw [heq]
    exact h
  · rw [heq]
    exact followsCapsLock_setOpenclose false (some value) h

theorem followsCapsLock_thenSync {α : Type} {env : Tip.CompartmentEnv}
    {r : Except Fault α × Tip E} (h : r.2.FollowsCapsLock env.mode.capsLockOn) :
    (k.thenSync zhconv env r).tip.FollowsCapsLock env.mode.capsLockOn := by
  unfold thenSync
  split
  · exact followsCapsLock_syncKeyboardOpenclose h
  · exact h

end Keyboard

namespace KeyboardCall

variable [KeyCodes]

omit [KeyCodes] in
/-- Where the call reads CapsLock, it is `on`. -/
def ReadsCapsLock (on : Bool) : KeyboardCall → Prop
  | change _ env => env.mode.capsLockOn = on
  | testKeyUp env _ sync | keyUp env _ sync | command env _ _ sync =>
    env.mode.capsLockOn = on ∧ sync.mode.capsLockOn = on
  | setThreadFocus _ mode sync => mode.capsLockOn = on ∧ sync.mode.capsLockOn = on
  | testKeyDown .. | keyDown .. | setFocus .. | compositionTerminated | session => True

/-- The service synchronises the mode, whatever it was: CapsLock is released, or the thread
gets the focus. -/
def NoticesCapsLock (k : Keyboard E) : KeyboardCall → Prop
  | testKeyUp _ ev _ | keyUp _ ev _ => Tip.IsCapsLock (ev k.tip.cfg.simulateEnglishLayout)
  | setThreadFocus .. => True
  | _ => False

omit [KeyCodes] in
/-- A new configuration with other settings for CapsLock is loaded only where it can be put in
force. -/
def KeepsCapsLockSettings (k : Keyboard E) : KeyboardCall → Prop
  | testKeyDown env _ => env.config.SameCapsLock k.tip.cfg
  | keyDown env _ => env.test.config.SameCapsLock k.tip.cfg
  | setThreadFocus config _ _ => config.Dirs
  | _ => True

/-- **One call**: the mode is that of CapsLock afterwards, if it was before or the call notices
it. -/
theorem followsCapsLock_next {c : KeyboardCall} (hreads : c.ReadsCapsLock on)
    (hsettings : c.KeepsCapsLockSettings k)
    (h : k.tip.FollowsCapsLock on ∨ c.NoticesCapsLock k) :
    (c.next zhconv k).tip.FollowsCapsLock on := by
  have hfollows : ¬ c.NoticesCapsLock k → k.tip.FollowsCapsLock on := fun hnot => h.resolve_right hnot
  cases c with
  | change value env =>
    obtain rfl : env.mode.capsLockOn = on := hreads
    exact Keyboard.followsCapsLock_setOpenclose true value (hfollows id)
  | testKeyDown env ev => exact (hfollows id).onTestKeydown ev hsettings
  | keyDown env ev => exact (hfollows id).onKeydown ev hsettings
  | testKeyUp env ev sync =>
    -- CapsLock stands alike before the handler and when the compartment calls back
    obtain ⟨rfl, hsync⟩ := hreads
    have hup : (k.tip.onTestKeyup zhconv env ev).2.FollowsCapsLock env.mode.capsLockOn :=
      .onTestKeyup h
    rw [← hsync] at hup ⊢
    exact Keyboard.followsCapsLock_thenSync hup
  | keyUp env ev sync =>
    obtain ⟨rfl, hsync⟩ := hreads
    have hup : (k.tip.onKeyup zhconv env ev).2.FollowsCapsLock env.mode.capsLockOn :=
      .onKeyup h
    rw [← hsync] at hup ⊢
    exact Keyboard.followsCapsLock_thenSync hup
  | command env item cmdType sync =>
    obtain ⟨rfl, hsync⟩ := hreads
    have hcommand : (k.tip.onCommand zhconv env item cmdType).FollowsCapsLock env.mode.capsLockOn :=
      (hfollows id).onCommand item cmdType
    rw [← hsync] at hcommand ⊢
    exact Keyboard.followsCapsLock_syncKeyboardOpenclose hcommand
  | setThreadFocus config mode sync =>
    obtain ⟨rfl, hsync⟩ := hreads
    have hfocus := Tip.followsCapsLock_onThreadFocus hsettings mode k.tip
    rw [← hsync] at hfocus ⊢
    exact Keyboard.followsCapsLock_thenSync hfocus
  | setFocus null context =>
    have h := hfollows id
    show (if null then k.tip.onKillFocus context else k.tip.onFocus).FollowsCapsLock on
    split
    · exact h.of_sameMode (.onKillFocus context k.tip)
    · exact h
  | compositionTerminated => exact hfollows id
  | session => exact (hfollows id).of_sameMode (.runSession k.tip)

end KeyboardCall

/-! ### CapsLock between the calls -/

variable [KeyCodes]

/-- A call is made while CapsLock is `a.2`; it may have changed since the last one. -/
def CapsLockStep (zhconv : Str → Str) (s : Keyboard E × Bool) (a : KeyboardCall × Bool)
    (s' : Keyboard E × Bool) : Prop :=
  s' = (a.1.next zhconv s.1, a.2)

omit [KeyCodes] in
/-- CapsLock changes where the service can see it: at a call that notices it, or while it does
not decide the language. -/
structure CapsLockSeen (s : Keyboard E × Bool) (a : KeyboardCall × Bool) : Prop where
  reads : a.1.ReadsCapsLock a.2
  settings : a.1.KeepsCapsLockSettings s.1
  seen : a.2 = s.2 ∨ ¬ s.1.tip.CapsLockDecides ∨ a.1.NoticesCapsLock s.1

omit [EditorCommands E] in
theorem CapsLockSeen.before {s : Keyboard E × Bool} {a : KeyboardCall × Bool}
    (h : CapsLockSeen s a) (hfollows : s.1.tip.FollowsCapsLock s.2) :
    s.1.tip.FollowsCapsLock a.2 ∨ a.1.NoticesCapsLock s.1 := by
  rcases h.seen with heq | hclosed | hnotices
  · exact .inl (heq ▸ hfollows)
  · exact .inl fun hdecides => absurd hdecides hclosed
  · exact .inr hnotices

/-- One step of a run. -/
theorem CapsLockSeen.after (zhconv : Str → Str) {s : Keyboard E × Bool} {a : KeyboardCall × Bool}
    (h : CapsLockSeen s a) (hfollows : s.1.tip.FollowsCapsLock s.2) :
    (a.1.next zhconv s.1).tip.FollowsCapsLock a.2 :=
  KeyboardCall.followsCapsLock_next h.reads h.settings (h.before hfollows)

/-- **CapsLock decides the language** of an open keyboard after every run in which it changes
where the service can see it, whatever else is typed, clicked, opened or closed. -/
theorem Keyboard.followsCapsLock_run (zhconv : Str → Str) {env : ActivateEnv} {editor : E}
    {document : Document} {grant : Grant} {openclose : Option Int} (hdirs : env.config.Dirs)
    {ls : List (KeyboardCall × Bool)} {s : Keyboard E × Bool}
    (hrun : Run (Guarded CapsLockSeen (CapsLockStep zhconv))
      (.activate env editor document grant openclose, env.mode.capsLockOn) ls s) :
    s.1.tip.FollowsCapsLock s.2 := by
  refine hrun.invariant (I := fun s => s.1.tip.FollowsCapsLock s.2)
    (Tip.followsCapsLock_initChewingContext hdirs env.mode _) ?_
  rintro s a _ hfollows ⟨hguard, rfl⟩
  exact hguard.after zhconv hfollows

end Runs

end

open TypedEditor ScriptedEditor

/-- The configuration with CapsLock as the language switch. -/
def TypedEditor.capsLockSwitch : ChewingTsfConfig :=
  { ChewingTsfConfig.default with enableCapsLock := true }

/-- A letter is typed, and then CapsLock is pressed. -/
theorem Keyboard.followsCapsLock_pressed :
    ∃ s : Keyboard TypedEditor × Bool, s.1.tip.CapsLockDecides ∧ s.2 = true ∧
      s.1.tip.FollowsCapsLock s.2 := by
  have hrun : ∃ s : Keyboard TypedEditor × Bool,
      Run (Guarded CapsLockSeen (CapsLockStep id)) (activated capsLockSwitch, false)
        [(letterDown capsLockSwitch, false),
          (.testKeyUp ⟨0, ⟨true, true, true⟩, true⟩ (fun _ => plainKey Keysyms.symCapslock)
            ⟨⟨true, true, true⟩, true, true⟩, true)] s ∧
      s.1.tip.langMode.isDisabled = false ∧ s.1.tip.cfg.enableCapsLock = true ∧ s.2 = true := by
    refine ⟨_, .head ⟨⟨trivial, ?_, .inl rfl⟩, rfl⟩ <|
      .single ⟨⟨⟨rfl, rfl⟩, trivial, .inr (.inr ?_)⟩, rfl⟩, ?_, ?_, rfl⟩
    · intro new hnew
      obtain rfl := Except.ok.inj hnew
      exact ⟨rfl, rfl⟩
    · exact ⟨rfl, by decide⟩
    · decide +kernel
    · decide +kernel
  obtain ⟨s, hrun, hopen, hcaps, hon⟩ := hrun
  refine ⟨s, ⟨hopen, hcaps⟩, hon, Keyboard.followsCapsLock_run id ?_ hrun⟩
  exact ⟨rfl, rfl⟩

end ChewingTsf
