import ChewingTsf.Tip.KeyMessage

/-!
# The start-up defaults (tip/src/text_service/chewing.rs, `apply_init_config`)

At start-up the options of the editor are written twice: the character form and
the threshold for automatic commits into the editor at hand, then, by
`apply_runtime_config`, the options derived from the configuration into a newly
built editor that takes its place. The first two are lost with the old editor.
-/

namespace ChewingTsf

open ChewingEditor

section StartUp

variable {E : Type} [ChewingEditor E]

/-- The options that `build_editor_from_cfg` derives from the configuration. -/
def configuredOptions (cfg : ChewingTsfConfig) (opt : EditorOptions) : EditorOptions :=
  { opt with
    easySymbolInput := cfg.easySymbolsWithShift || cfg.easySymbolsWithShiftCtrl
    userPhraseAddDir := if cfg.addPhraseForward then .backward else .forward
    phraseChoiceRearward := cfg.phraseChoiceRearward
    autoShiftCursor := cfg.advanceAfterSelection
    candidatesPerPage := i32AsU64 cfg.candPerPage
    escClearAllBuffer := cfg.escCleanAllBuf
    spaceIsSelectKey := cfg.showCandWithSpaceKey
    disableAutoLearnPhrase := !cfg.enableAutoLearn
    enableFullwidthToggleKey := cfg.enableFullwidthToggleKey
    sortCandidatesByFrequency := cfg.sortCandidatesByFrequency
    conversionEngine :=
      if cfg.convEngine = 0 then .simpleEngine
      else if cfg.convEngine = 2 then .fuzzyChewingEngine else .chewingEngine
    lookupStrategy := if cfg.convEngine = 2 then .fuzzyPartialPrefix else .standard
    autoSnapshotSelections := true }

/-- Neither the syllable editor nor the conversion engine is an option. -/
def EnginesKeepOptions (E : Type) [ChewingEditor E] : Prop :=
  (∀ (kbtype : KeyboardLayoutCompat) (e : E),
      editorOptions (setSyllableEditor kbtype e) = editorOptions e)
    ∧ ∀ (kind : ConversionEngineKind) (e : E),
      editorOptions (setConversionEngine kind e) = editorOptions e

/-- The editor that `build_editor_from_cfg` makes has the derived options, and for
the rest those that `Editor::chewing` begins with. -/
theorem buildEditorFromCfg_options (hoptions : Tip.SetsOptions E) (hengines : EnginesKeepOptions E)
    {env : Tip.ConfigEnv} {userPath programPath : Str} (huser : env.userDir = some userPath)
    (hprogram : env.programDir = some programPath) (cfg : ChewingTsfConfig) :
    ∃ e : E, Tip.buildEditorFromCfg env cfg = some e
      ∧ editorOptions e
        = configuredOptions cfg (editorOptions (chewing userPath programPath : E)) := by
  unfold Tip.buildEditorFromCfg
  simp only [huser, hprogram, Option.pure_def, Option.bind_eq_bind, Option.bind_some]
  refine ⟨_, rfl, ?_⟩
  rw [hengines.2, hengines.1, hoptions]
  rfl

variable [Keysyms]

namespace Tip

/-- Every default of `cfg` has been applied: the character form, the threshold, the
derived options and the language mode. -/
structure DefaultsApplied (cfg : ChewingTsfConfig) (t : Tip E) : Prop where
  characterForm :
    (editorOptions t.chewingEditor).characterForm = .fullwidth ↔ cfg.defaultFullSpace = true
  autoCommitThreshold : (editorOptions t.chewingEditor).autoCommitThreshold = 50
  derived : configuredOptions cfg (editorOptions t.chewingEditor) = editorOptions t.chewingEditor
  langMode : t.langMode = .english ↔ cfg.defaultEnglish = true

/-- The editor and the language mode that `apply_init_config` leaves. -/
theorem applyInitConfig_eq (hoptions : SetsOptions E) (hengines : EnginesKeepOptions E)
    {env : ConfigEnv} {userPath programPath : Str} (huser : env.userDir = some userPath)
    (hprogram : env.programDir = some programPath) (t : Tip E) :
    (t.applyInitConfig env).1 = true
      ∧ (t.applyInitConfig env).2.langMode = (if t.cfg.defaultEnglish then .english else .chinese)
      ∧ editorOptions (t.applyInitConfig env).2.chewingEditor
        = configuredOptions t.cfg (editorOptions (chewing userPath programPath : E)) := by
  obtain ⟨editor, hbuilt, heditor⟩ :=
    buildEditorFromCfg_options hoptions hengines huser hprogram t.cfg
  unfold applyInitConfig applyRuntimeConfig
  dsimp only
  rw [hbuilt]
  exact ⟨rfl, rfl, heditor⟩

/-- **Start-up applies every configured default** exactly when it has none to apply
to the old editor: full-width is not the default, and a new editor commits at 50
anyway. -/
theorem applyInitConfig_iff (hoptions : SetsOptions E) (hengines : EnginesKeepOptions E)
    {env : ConfigEnv} {userPath programPath : Str} (huser : env.userDir = some userPath)
    (hprogram : env.programDir = some programPath) {threshold : Nat}
    (hform : (editorOptions (chewing userPath programPath : E)).characterForm = .halfwidth)
    (hthreshold :
      (editorOptions (chewing userPath programPath : E)).autoCommitThreshold = threshold)
    (t : Tip E) :
    DefaultsApplied t.cfg (t.applyInitConfig env).2
      ↔ t.cfg.defaultFullSpace = false ∧ threshold = 50 := by
  -- the defaults are set on an editor that is then replaced
  obtain ⟨-, hmode, heditor⟩ := applyInitConfig_eq hoptions hengines huser hprogram t
  have hform' : (editorOptions (t.applyInitConfig env).2.chewingEditor).characterForm
      = .halfwidth := by
    rw [heditor]
    exact hform
  have hthreshold' : (editorOptions (t.applyInitConfig env).2.chewingEditor).autoCommitThreshold
      = threshold := by
    rw [heditor]
    exact hthreshold
  constructor
  · intro h
    have hcommit := h.autoCommitThreshold
    have hfull := h.characterForm
    rw [hform'] at hfull
    rw [hthreshold'] at hcommit
    refine ⟨Bool.eq_false_iff.mpr fun hon => ?_, hcommit⟩
    exact absurd (hfull.mpr hon) (by decide)
  · rintro ⟨hoff, rfl⟩
    refine ⟨?_, hthreshold', ?_, ?_⟩
    · rw [hform', hoff]
      decide
    · rw [heditor]
      rfl
    · rw [hmode]
      cases t.cfg.defaultEnglish with
      | true => decide
      | false => decide

end Tip

end StartUp

section

open ScriptedEditor

theorem enginesKeepOptions_scripted : EnginesKeepOptions ScriptedEditor :=
  ⟨fun _ _ => rfl, fun _ _ => rfl⟩

/-- Full-width and English are the defaults. -/
def Tip.fullwidthConfig : ChewingTsfConfig :=
  { ChewingTsfConfig.default with defaultFullSpace := true, defaultEnglish := true }

/-- An editor that commits at 39 unless it is told otherwise. -/
theorem Tip.applyInitConfig_iff_fullwidth :
    DefaultsApplied Tip.fullwidthConfig
        ({ Tip.fresh .queued with cfg := Tip.fullwidthConfig }.applyInitConfig
          ⟨.ok Tip.fullwidthConfig, some [], some []⟩).2
      ↔ Tip.fullwidthConfig.defaultFullSpace = false ∧ 39 = 50 :=
  applyInitConfig_iff (fun _ _ => rfl) enginesKeepOptions_scripted rfl rfl rfl rfl
    { Tip.fresh .queued with cfg := Tip.fullwidthConfig }

/-- Full-width is configured, and the editor in use is half-width. -/
theorem Tip.applyInitConfig_loses_fullwidth :
    ¬ ∀ (t : Tip ScriptedEditor) (env : ConfigEnv) (userPath programPath : Str),
      env.userDir = some userPath → env.programDir = some programPath →
      (editorOptions (chewing userPath programPath : ScriptedEditor)).characterForm = .halfwidth →
      DefaultsApplied t.cfg (t.applyInitConfig env).2 := by
  intro hclaim
  have h := hclaim
    { Tip.fresh .queued with cfg := Tip.fullwidthConfig }
    ⟨.ok Tip.fullwidthConfig, some [], some []⟩ [] [] rfl rfl rfl
  exact absurd (h.characterForm.mpr rfl) (by decide +kernel)

end

end ChewingTsf
