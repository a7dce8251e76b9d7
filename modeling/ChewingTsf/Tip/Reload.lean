import ChewingTsf.Host.TipSession

/-!
# Loading and reloading the configuration

`apply_runtime_config` derives the keyboard layout, the keybindings and a new
`Editor` from the configuration. It runs at start-up, when a key test finds the
configuration changed, and whenever the thread gets the focus.

The new editor replaces the old one with all it holds: the text being typed and
the character form the user chose are gone (`reload_keeps_iff`). The host's session
reloads in the same way (`session_applyConfigIfChanged`).
-/

namespace ChewingTsf

open ChewingEditor

section Rebuild

variable {E : Type} [ChewingEditor E] [Keysyms]

namespace Tip

/-! ## Start-up and thread focus -/

/-- `apply_init_config`: says whether it succeeded. -/
def applyInitConfig (env : ConfigEnv) (t : Tip E) : Bool × Tip E :=
  let editor := setEditorOptions (fun opt => { opt with
      characterForm := if t.cfg.defaultFullSpace then .fullwidth else opt.characterForm
      autoCommitThreshold := 50 }) t.chewingEditor
  { t with
    outputSimpChinese := t.cfg.outputSimpChinese
    chewingEditor := editor
    langMode := if t.cfg.defaultEnglish then .english else .chinese }.applyRuntimeConfig env

/-- `init_chewing_context`. -/
def initChewingContext (env : ConfigEnv) (mode : ModeEnv) (t : Tip E) :
    Except Fault Unit × Tip E :=
  match t.applyInitConfig env with
  | (false, t) => (.error .error, t)
  | (true, t) => t.syncLangMode mode true

/-- `on_thread_focus`: an error of `reload_if_needed` is ignored. -/
def onThreadFocus (env : ConfigEnv) (mode : ModeEnv) (t : Tip E) : Except Fault Unit × Tip E :=
  let t := match t.cfg.reloadIfNeeded env.fromReg with
    | .ok (true, cfg) => { t with cfg := cfg }
    | _ => t
  match t.applyRuntimeConfig env with
  | (false, t) => (.error .error, t)
  | (true, t) => t.syncLangMode mode true

/-! ## What a rebuild replaces -/

omit [ChewingEditor E] [Keysyms] in
/-- `user_dir` and `program_dir` both succeed. -/
def ConfigEnv.Dirs (env : ConfigEnv) : Prop := env.userDir.isSome ∧ env.programDir.isSome

instance (env : ConfigEnv) : Decidable env.Dirs := inferInstanceAs (Decidable (_ ∧ _))

omit [Keysyms] in
theorem buildEditorFromCfg_isSome_iff (env : ConfigEnv) (cfg : ChewingTsfConfig) :
    (buildEditorFromCfg env cfg : Option E).isSome ↔ env.Dirs := by
  unfold buildEditorFromCfg ConfigEnv.Dirs
  cases env.userDir with
  | none => simp
  | some u =>
    cases env.programDir with
    | none => simp
    | some p => simp

omit [Keysyms] in
/-- Whatever the configuration, the editor is a new one with options and engines
set. -/
theorem buildEditorFromCfg_eq_some {env : ConfigEnv} {cfg : ChewingTsfConfig} {e : E}
    (h : buildEditorFromCfg env cfg = some e) :
    ∃ userPath programPath f kbtype kind,
      e = setConversionEngine kind
        (setSyllableEditor kbtype (setEditorOptions f (chewing userPath programPath))) ∧
      ∀ opt, (f opt).characterForm = opt.characterForm := by
  unfold buildEditorFromCfg at h
  cases hu : env.userDir with
  | none => simp [hu] at h
  | some userPath =>
    cases hp : env.programDir with
    | none => simp [hu, hp] at h
    | some programPath =>
      simp only [hu, hp, Option.pure_def, Option.bind_eq_bind, Option.bind_some,
        Option.some.injEq] at h
      exact ⟨userPath, programPath, _, _, _, h.symm, fun _ => rfl⟩

/-- `apply_runtime_config` without the directories: only the layout is derived. -/
theorem applyRuntimeConfig_of_not_dirs {env : ConfigEnv} (h : ¬ env.Dirs) (t : Tip E) :
    t.applyRuntimeConfig env = (false,
      { t with kbtype := (layoutOf (E := E) (UInt8.ofInt t.cfg.keyboardLayout)).getD .default }) := by
  have hnone : (buildEditorFromCfg env t.cfg : Option E) = none := by
    rw [← Option.not_isSome_iff_eq_none, buildEditorFromCfg_isSome_iff]
    exact h
  rw [applyRuntimeConfig]
  dsimp only
  rw [hnone]

/-- `apply_runtime_config` with the directories: all is derived. -/
theorem applyRuntimeConfig_of_dirs {env : ConfigEnv} (h : env.Dirs) (t : Tip E) :
    ∃ editor, buildEditorFromCfg env t.cfg = some editor ∧
      t.applyRuntimeConfig env = (true,
        { t with
          kbtype := (layoutOf (E := E) (UInt8.ofInt t.cfg.keyboardLayout)).getD .default
          chewingEditor := editor
          keybindings := t.cfg.keybind.filterMap Keybinding.tryFrom }) := by
  obtain ⟨editor, heditor⟩ :=
    Option.isSome_iff_exists.mp ((buildEditorFromCfg_isSome_iff (E := E) env t.cfg).mpr h)
  refine ⟨editor, heditor, ?_⟩
  rw [applyRuntimeConfig]
  dsimp only
  rw [heditor]

omit [ChewingEditor E] [Keysyms] in
/-- The registry holds a configuration other than the one in force. -/
def Changed (env : ConfigEnv) (t : Tip E) : Prop :=
  ∃ cfg, env.fromReg = .ok cfg ∧ cfg ≠ t.cfg

omit [ChewingEditor E] [Keysyms] in
theorem reloadIfNeeded_of_changed {env : ConfigEnv} {t : Tip E} {cfg : ChewingTsfConfig}
    (hreg : env.fromReg = .ok cfg) (hne : cfg ≠ t.cfg) :
    t.cfg.reloadIfNeeded env.fromReg = .ok (true, cfg) := by
  rw [hreg]
  exact if_neg hne

omit [ChewingEditor E] [Keysyms] in
theorem reloadIfNeeded_of_not_changed {env : ConfigEnv} {t : Tip E} (h : ¬ t.Changed env) :
    (∃ e, t.cfg.reloadIfNeeded env.fromReg = .error e) ∨
      ∃ cfg, t.cfg.reloadIfNeeded env.fromReg = .ok (false, cfg) := by
  cases hreg : env.fromReg with
  | error e => exact .inl ⟨e, rfl⟩
  | ok cfg =>
    have hsame : cfg = t.cfg := by
      by_contra hne
      exact h ⟨cfg, hreg, hne⟩
    exact .inr ⟨t.cfg, if_pos hsame⟩

/-- `on_thread_focus` rebuilds from the configuration that is then in force. -/
theorem onThreadFocus_eq (env : ConfigEnv) (mode : ModeEnv) (t : Tip E) :
    ∃ cfg, (cfg = t.cfg ∨ t.Changed env) ∧ t.onThreadFocus env mode =
      match { t with cfg := cfg }.applyRuntimeConfig env with
      | (false, t) => (.error .error, t)
      | (true, t) => t.syncLangMode mode true := by
  unfold onThreadFocus
  by_cases hchanged : t.Changed env
  · obtain ⟨cfg, hreg, hne⟩ := hchanged
    rw [reloadIfNeeded_of_changed hreg hne]
    exact ⟨cfg, .inr ⟨cfg, hreg, hne⟩, rfl⟩
  · obtain ⟨e, heq⟩ | ⟨cfg, heq⟩ := reloadIfNeeded_of_not_changed hchanged
    · rw [heq]
      exact ⟨t.cfg, .inl rfl, rfl⟩
    · rw [heq]
      exact ⟨t.cfg, .inl rfl, rfl⟩

/-- With an unchanged configuration, `apply_config_if_changed` does nothing. -/
theorem applyConfigIfChanged_of_not_changed {env : ConfigEnv} {t : Tip E} (h : ¬ t.Changed env) :
    (t.applyConfigIfChanged env).2 = t := by
  unfold applyConfigIfChanged
  obtain ⟨e, heq⟩ | ⟨cfg, heq⟩ := reloadIfNeeded_of_not_changed h
  · rw [heq]
  · rw [heq]

/-- With a changed one, it is `apply_runtime_config`. -/
theorem applyConfigIfChanged_of_changed {env : ConfigEnv} {t : Tip E} {cfg : ChewingTsfConfig}
    (hreg : env.fromReg = .ok cfg) (hne : cfg ≠ t.cfg) :
    t.applyConfigIfChanged env = { t with cfg := cfg }.applyRuntimeConfig env := by
  rw [applyConfigIfChanged, reloadIfNeeded_of_changed hreg hne]

/-! ## What a reload keeps -/

/-- What the configuration does not determine while the service runs. -/
structure RuntimeKept (t t' : Tip E) : Prop where
  composition : intervals t'.chewingEditor = intervals t.chewingEditor
  syllables : syllableBufferDisplay t'.chewingEditor = syllableBufferDisplay t.chewingEditor
  characterForm : (editorOptions t'.chewingEditor).characterForm
    = (editorOptions t.chewingEditor).characterForm
  outputSimpChinese : t'.outputSimpChinese = t.outputSimpChinese
  langMode : t'.cfg.enableCapsLock = false → t'.langMode = t.langMode

omit [Keysyms] in
/-- An editor that nothing was typed into and whose form was not switched. -/
def Blank (e : E) : Prop :=
  intervals e = [] ∧ syllableBufferDisplay e = [] ∧ (editorOptions e).characterForm = .halfwidth

/-- `Editor::chewing` gives an editor that holds no text and is in half-width
form, and setting the configured options and engines leaves it so. -/
def BuildsBlank (E : Type) [ChewingEditor E] : Prop :=
  ∀ (env : ConfigEnv) (cfg : ChewingTsfConfig) (e : E),
    buildEditorFromCfg env cfg = some e → Blank e

omit [Keysyms] in
theorem RuntimeKept.refl (t : Tip E) : RuntimeKept t t := ⟨rfl, rfl, rfl, rfl, fun _ => rfl⟩

omit [Keysyms] in
/-- A blank editor takes the place of the old one. -/
theorem runtimeKept_iff_blank {t t' : Tip E} (hblank : Blank t'.chewingEditor)
    (hsimp : t'.outputSimpChinese = t.outputSimpChinese)
    (hmode : t'.cfg.enableCapsLock = false → t'.langMode = t.langMode) :
    RuntimeKept t t' ↔ Blank t.chewingEditor := by
  obtain ⟨hintervals, hsyllables, hform⟩ := hblank
  constructor
  · intro h
    exact ⟨h.composition ▸ hintervals, h.syllables ▸ hsyllables, h.characterForm ▸ hform⟩
  · rintro ⟨hintervals', hsyllables', hform'⟩
    exact ⟨hintervals.trans hintervals'.symm, hsyllables.trans hsyllables'.symm,
      hform.trans hform'.symm, hsimp, hmode⟩

omit [Keysyms] in
theorem runtimeKept_setCfg {t t' : Tip E} {cfg : ChewingTsfConfig} :
    RuntimeKept { t with cfg := cfg } t' ↔ RuntimeKept t t' :=
  ⟨fun h => ⟨h.1, h.2, h.3, h.4, h.5⟩, fun h => ⟨h.1, h.2, h.3, h.4, h.5⟩⟩

omit [Keysyms] in
theorem runtimeKept_syncLangMode {t t' : Tip E} {mode : ModeEnv} {internal : Bool} :
    RuntimeKept t (t'.syncLangMode mode internal).2 ↔ RuntimeKept t t' := by
  obtain ⟨langMode, heq, hmode⟩ := syncLangMode_eq mode internal t'
  rw [heq]
  exact ⟨fun h => ⟨h.1, h.2, h.3, h.4, fun hoff => hmode hoff ▸ h.5 hoff⟩,
    fun h => ⟨h.1, h.2, h.3, h.4, fun hoff => (hmode hoff).trans (h.5 hoff)⟩⟩

/-- `apply_runtime_config` keeps what was typed exactly if it builds no editor or
nothing was typed. -/
theorem applyRuntimeConfig_keeps_iff (hbuilds : BuildsBlank E) (env : ConfigEnv) (t : Tip E) :
    RuntimeKept t (t.applyRuntimeConfig env).2 ↔ (env.Dirs → Blank t.chewingEditor) := by
  by_cases hdirs : env.Dirs
  · obtain ⟨editor, hbuilt, heq⟩ := applyRuntimeConfig_of_dirs hdirs t
    have hkept : RuntimeKept t (t.applyRuntimeConfig env).2 ↔ Blank t.chewingEditor := by
      rw [heq]
      exact runtimeKept_iff_blank (hbuilds _ _ _ hbuilt) rfl fun _ => rfl
    rw [hkept]
    exact ⟨fun h _ => h, fun h => h hdirs⟩
  · rw [applyRuntimeConfig_of_not_dirs hdirs]
    exact ⟨fun _ h => absurd h hdirs, fun _ => ⟨rfl, rfl, rfl, rfl, fun _ => rfl⟩⟩

/-- **What a reload costs**: `apply_config_if_changed` and `on_thread_focus` keep
the text being typed, the character form, the simplified-output flag and (with
CapsLock switching off) the language mode exactly if they build no new editor, or
the old one is blank. A key test builds one if the configuration has changed, a
thread focus always, as long as the directories are found. -/
theorem reload_keeps_iff (hbuilds : BuildsBlank E) (env : ConfigEnv) (mode : ModeEnv) (t : Tip E) :
    (RuntimeKept t (t.applyConfigIfChanged env).2
        ↔ (t.Changed env ∧ env.Dirs → Blank t.chewingEditor)) ∧
      (RuntimeKept t (t.onThreadFocus env mode).2 ↔ (env.Dirs → Blank t.chewingEditor)) := by
  constructor
  · by_cases hchanged : t.Changed env
    · obtain ⟨cfg, hreg, hne⟩ := hchanged
      rw [applyConfigIfChanged_of_changed hreg hne]
      have hkeeps := applyRuntimeConfig_keeps_iff hbuilds env { t with cfg := cfg }
      rw [runtimeKept_setCfg] at hkeeps
      rw [hkeeps]
      exact ⟨fun h hc => h hc.2, fun h hdirs => h ⟨⟨cfg, hreg, hne⟩, hdirs⟩⟩
    · rw [applyConfigIfChanged_of_not_changed hchanged]
      exact ⟨fun _ h => absurd h.1 hchanged, fun _ => .refl t⟩
  · obtain ⟨cfg, -, heq⟩ := onThreadFocus_eq env mode t
    have hkeeps := applyRuntimeConfig_keeps_iff hbuilds env { t with cfg := cfg }
    rw [runtimeKept_setCfg] at hkeeps
    rw [← hkeeps, heq]
    -- whether or not the rebuild succeeds, `sync_lang_mode` makes no difference
    cases hrebuild : applyRuntimeConfig env { t with cfg := cfg } with
    | mk ok t' =>
      cases ok with
      | false => rfl
      | true => exact runtimeKept_syncLangMode

end Tip

end Rebuild

/-! ## Reloads while typing -/

section

open ScriptedEditor

theorem buildsBlank_scripted : Tip.BuildsBlank ScriptedEditor := by
  intro env cfg e h
  obtain ⟨userPath, programPath, f, kbtype, kind, rfl, hform⟩ := Tip.buildEditorFromCfg_eq_some h
  exact ⟨rfl, rfl, hform _⟩

/-- The host has noted the time of its update check. -/
def Tip.afterUpdateCheck : Tip.ConfigEnv :=
  ⟨.ok { ChewingTsfConfig.default with lastUpdateCheckTime := 1 }, some [], some []⟩

/-- The user has switched to English and to simplified output, and typed nothing yet. -/
def Tip.switchedModes : Tip ScriptedEditor :=
  { Tip.fresh .queued with langMode := .english, outputSimpChinese := true }

theorem Tip.reload_keeps_blank :
    Tip.RuntimeKept Tip.switchedModes
      (Tip.switchedModes.applyConfigIfChanged Tip.afterUpdateCheck).2 :=
  (Tip.reload_keeps_iff buildsBlank_scripted Tip.afterUpdateCheck ⟨false, true, true⟩
    Tip.switchedModes).1.mpr fun _ => ⟨rfl, rfl, rfl⟩

/-- A bopomofo has been typed when the host notes an update check. -/
theorem Tip.reload_loses_syllable :
    ¬ ∀ (t : Tip ScriptedEditor) (ls : List (Typing ScriptedEditor)),
      Run (TypingStep id) (Tip.fresh .queued) ls t →
      ∀ (env : Tip.ConfigEnv) (mode : Tip.ModeEnv),
        Tip.RuntimeKept t (t.applyConfigIfChanged env).2 ∧
          Tip.RuntimeKept t (t.onThreadFocus env mode).2 := by
  intro hclaim
  have hrun : Run (TypingStep id) (Tip.fresh .queued) [.key (key (absorbed ['ㄅ'])), .session] _ :=
    Along.run (fun t a => a.Enabled id t) (Typing.next id) (fun _ _ h => h.step)
      (by decide +kernel)
  have hlost := (hclaim _ _ hrun Tip.afterUpdateCheck ⟨false, true, true⟩).1.syllables
  exact absurd hlost (by decide +kernel)

end

section HostSession

variable {E : Type} [ChewingEditor E] [Keysyms]

namespace Tip

/-! ## The host's session -/

/-- The part of the state that the host's session has too. -/
def session (t : Tip E) : TipSession E where
  outputSimpChinese := t.outputSimpChinese
  cfg := t.cfg
  langMode := t.langMode
  kbtype := t.kbtype
  keybindings := t.keybindings
  chewingEditor := t.chewingEditor

theorem session_applyRuntimeConfig (env : ConfigEnv) (t : Tip E) :
    t.session.applyRuntimeConfig env
      = ((t.applyRuntimeConfig env).1, (t.applyRuntimeConfig env).2.session) := by
  unfold TipSession.applyRuntimeConfig applyRuntimeConfig
  dsimp only [session]
  cases (buildEditorFromCfg env t.cfg : Option E) with
  | none => rfl
  | some editor => rfl

/-- The host's `apply_config_if_changed` does what the text service's does, and
forgets a failed rebuild like it. -/
theorem session_applyConfigIfChanged (env : ConfigEnv) (t : Tip E) :
    t.session.applyConfigIfChanged env
      = ((t.applyConfigIfChanged env).1, (t.applyConfigIfChanged env).2.session) := by
  unfold TipSession.applyConfigIfChanged applyConfigIfChanged
  rw [show t.session.cfg = t.cfg from rfl]
  cases t.cfg.reloadIfNeeded env.fromReg with
  | error e => rfl
  | ok r =>
    obtain ⟨changed, cfg⟩ := r
    cases changed with
    | false => rfl
    | true => exact session_applyRuntimeConfig env { t with cfg := cfg }

end Tip

end HostSession

end ChewingTsf
