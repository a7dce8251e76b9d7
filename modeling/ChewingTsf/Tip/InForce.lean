import ChewingTsf.Tip.ClosedKeyboard
import ChewingTsf.Tip.LangToggle

/-!
# What is derived from the configuration

The service derives the keyboard layout, the keybindings and the editor's options and engines
from the configuration. A key test derives them anew if the configuration in the registry has
changed, and a thread focus always. Between two rebuilds the service works with the editor it
has, and a keybinding may switch the layout.

A rebuild that fails is never made up for: `reload_if_needed` has put the new configuration in
place, and by it the next call tells whether anything has changed (`reload_forgotten`).
`Keyboard.reload_inForce` says that nothing else goes wrong, whatever TSF calls.
-/

namespace ChewingTsf

open ChewingEditor

/-! ## The editor between two rebuilds -/

section Editor

variable {E : Type} [EditorCommands E]

/-- What the service does to its editor between two rebuilds, besides setting the layout. -/
inductive EditorWork : E → E → Prop
  | processKeyevent (evt : KeyboardEvent) (e : E) : EditorWork e (processKeyevent evt e)
  | ack (e : E) : EditorWork e (ack e)
  | commit (e : E) : EditorWork e (EditorCommands.commit e).1
  | select (i : Nat) (e : E) : EditorWork e (EditorCommands.select i e).1
  | unlearnPhrase (syllables : List Syllable) (phrase : Str) (e : E) :
      EditorWork e (EditorCommands.unlearnPhrase syllables phrase e).1
  | cancelSelecting (e : E) : EditorWork e (cancelSelecting e).1
  | clearSyllableEditor (e : E) : EditorWork e (clearSyllableEditor e)
  | clearCompositionEditor (e : E) : EditorWork e (clearCompositionEditor e)
  | languageMode (mode : LanguageMode) (e : E) :
      EditorWork e (setEditorOptions (fun opt => { opt with languageMode := mode }) e)
  | toggleForm (e : E) :
      EditorWork e (setEditorOptions (fun opt => { opt with
        characterForm := if opt.characterForm = .fullwidth then .halfwidth else .fullwidth }) e)

/-- The layout that is configured. -/
def configuredLayout (E : Type) [ChewingEditor E] (cfg : ChewingTsfConfig) :
    KeyboardLayoutCompat :=
  (layoutOf (E := E) (UInt8.ofInt cfg.keyboardLayout)).getD .default

/-- The editor is one that `build_editor_from_cfg` made for `cfg`, with the options and the
engines it set there. It has only been worked with since, and has been given the layout. -/
inductive Configured (cfg : ChewingTsfConfig) : KeyboardLayoutCompat → E → Prop
  | built {env : Tip.ConfigEnv} {e : E} (h : Tip.buildEditorFromCfg env cfg = some e) :
      Configured cfg (configuredLayout E cfg) e
  | worked {layout : KeyboardLayoutCompat} {e e' : E} (h : Configured cfg layout e)
      (hwork : EditorWork e e') : Configured cfg layout e'
  | switched {layout : KeyboardLayoutCompat} {e : E} (h : Configured cfg layout e)
      (layout' : KeyboardLayoutCompat) : Configured cfg layout' (setSyllableEditor layout' e)

theorem Configured.work {cfg : ChewingTsfConfig} {layout : KeyboardLayoutCompat} {e e' : E}
    (h : Configured cfg layout e) (hwork : Relation.ReflTransGen EditorWork e e') :
    Configured cfg layout e' := by
  induction hwork with
  | refl => exact h
  | tail _ hstep ih => exact ih.worked hstep

end Editor

namespace Tip

variable {E : Type} [EditorCommands E]

section State

variable [Keysyms]

/-- What is derived from `cfg` is in force. -/
structure InForce (cfg : ChewingTsfConfig) (t : Tip E) : Prop where
  kbtype : t.kbtype = configuredLayout E cfg
  keybindings : t.keybindings = cfg.keybind.filterMap Keybinding.tryFrom
  editor : Configured cfg (configuredLayout E cfg) t.chewingEditor

/-- What the service has is derived from its configuration, but for the layout, which the user
may have switched. -/
structure Derived (t : Tip E) : Prop where
  keybindings : t.keybindings = t.cfg.keybind.filterMap Keybinding.tryFrom
  editor : Configured t.cfg t.kbtype t.chewingEditor

/-- The user has switched the layout. -/
def Switched (t : Tip E) : Prop := t.kbtype ≠ configuredLayout E t.cfg

variable {t u : Tip E}

theorem InForce.derived (h : InForce t.cfg t) : t.Derived :=
  ⟨h.keybindings, h.kbtype ▸ h.editor⟩

theorem Derived.inForce_iff (h : t.Derived) : InForce t.cfg t ↔ ¬ t.Switched := by
  constructor
  · intro hforce hswitched
    exact hswitched hforce.kbtype
  · intro hlayout
    have hkbtype : t.kbtype = configuredLayout E t.cfg := not_not.mp hlayout
    exact ⟨hkbtype, h.keybindings, hkbtype ▸ h.editor⟩

/-! ## Rebuilds -/

theorem applyRuntimeConfig_cfg (env : ConfigEnv) (t : Tip E) :
    (t.applyRuntimeConfig env).2.cfg = t.cfg := by
  obtain ⟨kbtype, editor, keybindings, heq⟩ := applyRuntimeConfig_eq env t
  rw [heq]

theorem inForce_applyRuntimeConfig {env : ConfigEnv} (h : env.Dirs) (t : Tip E) :
    InForce (t.applyRuntimeConfig env).2.cfg (t.applyRuntimeConfig env).2 := by
  obtain ⟨editor, hbuilt, heq⟩ := applyRuntimeConfig_of_dirs h t
  rw [heq]
  exact ⟨rfl, rfl, .built hbuilt⟩

theorem dirs_of_applyRuntimeConfig {env : ConfigEnv} (h : (t.applyRuntimeConfig env).1 = true) :
    env.Dirs := by
  by_contra hdirs
  rw [applyRuntimeConfig_of_not_dirs hdirs] at h
  cases h

theorem Changed.inForce_reload {env : ConfigEnv} (h : t.Changed env) (hdirs : env.Dirs) :
    InForce (t.applyConfigIfChanged env).2.cfg (t.applyConfigIfChanged env).2 := by
  obtain ⟨cfg, hreg, hne⟩ := h
  rw [applyConfigIfChanged_of_changed hreg hne]
  exact inForce_applyRuntimeConfig hdirs { t with cfg := cfg }

/-- A reload that finds the directories if the configuration has changed. -/
theorem Derived.reload {env : ConfigEnv} (h : t.Derived) (hdirs : t.Changed env → env.Dirs) :
    (t.applyConfigIfChanged env).2.Derived := by
  by_cases hchanged : t.Changed env
  · exact (hchanged.inForce_reload (hdirs hchanged)).derived
  · rw [applyConfigIfChanged_of_not_changed hchanged]
    exact h

/-- A reload that succeeds has read the configuration that is then in place. -/
theorem applyConfigIfChanged_ok {env : ConfigEnv} (h : (t.applyConfigIfChanged env).1 = true) :
    env.fromReg = .ok (t.applyConfigIfChanged env).2.cfg ∧ (t.Changed env → env.Dirs) := by
  by_cases hchanged : t.Changed env
  · obtain ⟨cfg, hreg, hne⟩ := hchanged
    rw [applyConfigIfChanged_of_changed hreg hne] at h ⊢
    rw [applyRuntimeConfig_cfg]
    exact ⟨hreg, fun _ => dirs_of_applyRuntimeConfig h⟩
  · rw [applyConfigIfChanged_of_not_changed hchanged]
    refine ⟨?_, fun h => absurd h hchanged⟩
    unfold applyConfigIfChanged ChewingTsfConfig.reloadIfNeeded at h
    cases hreg : env.fromReg with
    | error e =>
      rw [hreg] at h
      cases h
    | ok cfg =>
      by_contra hne
      exact hchanged ⟨cfg, hreg, fun heq => hne (by rw [heq])⟩

/-- **A failed rebuild is forgotten**: `cfg` is in place, and the next call finds nothing
changed. -/
theorem reload_forgotten {env env' : ConfigEnv} {cfg : ChewingTsfConfig}
    (hreg : env.fromReg = .ok cfg) (hne : cfg ≠ t.cfg) (hdirs : ¬ env.Dirs)
    (hreg' : env'.fromReg = .ok cfg) :
    (t.applyConfigIfChanged env).1 = false ∧
      (t.applyConfigIfChanged env).2.keybindings = t.keybindings ∧
      (t.applyConfigIfChanged env).2.chewingEditor = t.chewingEditor ∧
      (t.applyConfigIfChanged env).2.applyConfigIfChanged env'
        = (true, (t.applyConfigIfChanged env).2) := by
  rw [applyConfigIfChanged_of_changed hreg hne, applyRuntimeConfig_of_not_dirs hdirs]
  refine ⟨rfl, rfl, rfl, ?_⟩
  rw [applyConfigIfChanged, hreg']
  simp [ChewingTsfConfig.reloadIfNeeded]

end State

/-! ## Work -/

/-- The configuration and what is derived from it stay, and the editor is worked with. -/
structure Works (t u : Tip E) : Prop where
  cfg : u.cfg = t.cfg
  kbtype : u.kbtype = t.kbtype
  keybindings : u.keybindings = t.keybindings
  editor : Relation.ReflTransGen EditorWork t.chewingEditor u.chewingEditor

theorem Derived.works [Keysyms] {t u : Tip E} (h : t.Derived) (hworks : Works t u) :
    u.Derived := by
  refine ⟨?_, ?_⟩
  · rw [hworks.keybindings, hworks.cfg]
    exact h.keybindings
  · rw [hworks.kbtype, hworks.cfg]
    exact h.editor.work hworks.editor

namespace Works

variable {t u v : Tip E} {zhconv : Str → Str}

theorem refl (t : Tip E) : Works t t := ⟨rfl, rfl, rfl, .refl⟩

theorem trans (h : Works t u) (h' : Works u v) : Works t v :=
  ⟨h'.cfg.trans h.cfg, h'.kbtype.trans h.kbtype, h'.keybindings.trans h.keybindings,
    h.editor.trans h'.editor⟩

theorem of_service (h : u.toChewingTextService = t.toChewingTextService) : Works t u := by
  have heditor : u.chewingEditor = t.chewingEditor := congrArg (·.chewingEditor) h
  refine ⟨congrArg (·.cfg) h, congrArg (·.kbtype) h, congrArg (·.keybindings) h, ?_⟩
  rw [heditor]

/-- One operation of the editor. -/
theorem single {editor : E} (h : EditorWork t.chewingEditor editor) :
    Works t { t with chewingEditor := editor } := ⟨rfl, rfl, rfl, .single h⟩

theorem request (t : Tip E) (s : EditSession) : Works t (t.requestEditSession s) :=
  .of_service (requestEditSession_service t s)

theorem setCompositionString (t : Tip E) (commit preedit : Str) (segments : List (Nat × Nat))
    (cursor : Nat) : Works t (t.setCompositionString zhconv commit preedit segments cursor) := by
  unfold Tip.setCompositionString
  dsimp only
  split
  · exact ⟨rfl, rfl, rfl, .refl⟩
  · refine .trans ?_ (.request _ _)
    exact ⟨rfl, rfl, rfl, .refl⟩

theorem endComposition (t : Tip E) : Works t t.endComposition := by
  refine .trans ?_ (.request _ _)
  exact ⟨rfl, rfl, rfl, .refl⟩

theorem updatePreedit (t : Tip E) (commit : Str) : Works t (t.updatePreedit zhconv commit) :=
  updatePreedit_keeps (fun u _ _ _ hu => hu.trans (.setCompositionString u commit _ _ _))
    (fun u hu => hu.trans (.endComposition u)) (.refl t)

theorem updateCandidates (env : CandidateEnv) (t : Tip E) :
    Works t (t.updateCandidates env).2 := by
  obtain ⟨editor, list, heq, rfl | rfl⟩ := updateCandidates_eq env t
  · rw [heq]
    exact ⟨rfl, rfl, rfl, .refl⟩
  · rw [heq]
    exact ⟨rfl, rfl, rfl, .single (.cancelSelecting _)⟩

theorem deliverKey (env : CandidateEnv) (textAction : Option Str) (t : Tip E) :
    Works t (t.deliverKey zhconv env textAction).2 := by
  unfold Tip.deliverKey
  dsimp only
  split
  · exact .refl t
  · split
    · have hacked : Works t { t with chewingEditor := ack t.chewingEditor } := .single (.ack _)
      rw [insertCommit_eq]
      cases textAction with
      | none => exact hacked.trans (.request _ _)
      | some param => exact hacked.trans (.trans (.request _ _) (.request _ _))
    · have hcandidates := updateCandidates env t
      split
      · next u hu =>
        rw [hu] at hcandidates
        exact hcandidates
      · next r u _ hu =>
        rw [hu] at hcandidates
        refine hcandidates.trans (.trans ?_ (.updatePreedit _ _))
        unfold takeCommit
        split
        · exact .single (.ack _)
        · exact .refl u

theorem syncLangMode (mode : ModeEnv) (internal : Bool) (t : Tip E) :
    Works t (t.syncLangMode mode internal).2 := by
  obtain ⟨langMode, heq, -⟩ := syncLangMode_eq mode internal t
  rw [heq]
  exact ⟨rfl, rfl, rfl, .refl⟩

theorem toggleLangMode (mode : ModeEnv) (t : Tip E) :
    Works t (t.toggleLangMode zhconv mode).2 := by
  have hswitched : Works t (t.switched mode) := by
    rw [switched_eq]
    exact ⟨rfl, rfl, rfl, .refl⟩
  rcases toggleLangMode_eq zhconv mode t with ⟨-, heq⟩ | heq
  · rw [heq]
    exact hswitched.trans (.trans (.single (.clearSyllableEditor _)) (.updatePreedit _ []))
  · rw [heq]
    exact hswitched

theorem commitComposition (context : Bool) (t : Tip E) :
    Works t (t.commitComposition zhconv context).2 := by
  have hcommit : Works t
      { t with chewingEditor := (EditorCommands.commit t.chewingEditor).1 } := .single (.commit _)
  have hacked := hcommit.trans (.single (.ack _))
  unfold Tip.commitComposition
  dsimp only
  split
  · split
    · exact hacked.trans (.trans (.setCompositionString _ _ [] [] 0) (.endComposition _))
    · exact hacked
  · exact hcommit

theorem onChange (env : CompartmentEnv) (t : Tip E) : Works t (t.onChange zhconv env true).2 := by
  by_cases hexpected : t.pendingLangModeChange = true ∨ t.hasFocus = false
  · rw [onChange_of_expected env hexpected]
    exact ⟨rfl, rfl, rfl, .refl⟩
  · obtain ⟨hpending, hfocus⟩ := not_or.mp hexpected
    replace hpending := Bool.eq_false_iff.mpr hpending
    replace hfocus := Bool.not_eq_false _ ▸ hfocus
    have hswitched : Works t t.switchedOpenclose := ⟨rfl, rfl, rfl, .refl⟩
    have hsynced := hswitched.trans (.syncLangMode env.mode false _)
    by_cases hsync : t.cfg.syncLangModeOpenclose = true
    · rw [onChange_of_sync env hsync hpending hfocus]
      exact hsynced
    · rw [Tip.onChange, if_neg hsync, onCompartmentChange_of_unexpected env.mode hpending hfocus]
      split
      · next u hu =>
        rw [hu] at hsynced
        exact hsynced
      · next u hu =>
        rw [hu] at hsynced
        split
        · exact hsynced.trans (.commitComposition env.mode.context u)
        · exact hsynced

theorem onCommand (env : CommandEnv) (id : UInt32) (cmdType : CommandType) (t : Tip E) :
    Works t (t.onCommand zhconv env id cmdType) := by
  rw [onCommand_eq]
  cases commandItem env id cmdType with
  | none => exact .refl t
  | some item =>
    show Works t (t.menuCommand zhconv env.mode item)
    unfold menuCommand
    split
    · exact .toggleLangMode env.mode t
    · split
      · exact .single (.toggleForm _)
      · split
        · exact ⟨rfl, rfl, rfl, .refl⟩
        · exact .refl t

theorem onKillFocus (context : Bool) (t : Tip E) : Works t (t.onKillFocus context) := by
  have hblur : Works t { t with hasFocus := false } := ⟨rfl, rfl, rfl, .refl⟩
  show Works t (hideCandidates (if _ then _ else _))
  split
  · exact (hblur.trans (.endComposition _)).trans ⟨rfl, rfl, rfl, .refl⟩
  · exact hblur.trans ⟨rfl, rfl, rfl, .refl⟩

theorem onCompositionTerminatedTail (t : Tip E) : Works t t.onCompositionTerminatedTail := by
  refine ⟨rfl, rfl, rfl, ?_⟩
  show Relation.ReflTransGen EditorWork t.chewingEditor
    (clearCompositionEditor (clearSyllableEditor (if _ then _ else _)))
  refine .tail (.tail ?_ (.clearSyllableEditor _)) (.clearCompositionEditor _)
  split
  · exact .single (.cancelSelecting _)
  · exact .refl

/-! ### Keys -/

section Keys

variable [KeyCodes]

omit [KeyCodes] in
theorem processInEnglish (evt : KeyboardEvent) (e : E) :
    Relation.ReflTransGen EditorWork e (Tip.processInEnglish evt e) :=
  .tail (.tail (.single (.languageMode .english e)) (.processKeyevent evt _)) (.languageMode _ _)

theorem processPrintable (evt : KeyboardEvent) (t : Tip E) :
    Works t (t.processPrintable evt).2 := by
  unfold Tip.processPrintable
  dsimp only
  split
  · exact .refl t
  · refine ⟨rfl, rfl, rfl, ?_⟩
    dsimp only
    split
    · exact .single (.processKeyevent _ _)
    · split
      · exact processInEnglish _ _
      · exact .single (.processKeyevent _ _)

omit [KeyCodes] in
theorem unlearnCurrent (env : KeydownEnv) (list : CandidateList) (t : Tip E) :
    Works t (t.unlearnCurrent env list).2 := by
  unfold Tip.unlearnCurrent
  split
  · split
    · exact .refl t
    · next phrase _ =>
      split
      · have hunlearned : Works t { t with chewingEditor :=
            (EditorCommands.unlearnPhrase (t.syllablesOf phrase) phrase t.chewingEditor).1 } :=
          .single (.unlearnPhrase _ _ _)
        have hall := hunlearned.trans (.updateCandidates env.unlearn _)
        unfold Tip.unlearnPhrase
        dsimp only
        split
        · next u hu =>
          rw [hu] at hall
          exact hall
        · next u hu =>
          rw [hu] at hall
          exact hall
      · exact .refl t
  · exact .refl t

theorem handleInList (env : KeydownEnv) (evt : KeyboardEvent) (commit : Bool)
    (list : CandidateList) (t : Tip E) : Works t (t.handleInList env evt commit list).2 := by
  have hselect : Works t (if commit then t.selectCurrent list else (.ok (), t)).2 := by
    split
    · exact .single (.select _ _)
    · exact .refl t
  unfold Tip.handleInList
  split
  · next u hu =>
    rw [hu] at hselect
    exact hselect
  · next u hu =>
    rw [hu] at hselect
    refine hselect.trans ?_
    split
    · exact .refl u
    · split
      · exact .unlearnCurrent env list u
      · exact .refl u

theorem processOther (env : KeydownEnv) (evt : KeyboardEvent) (t : Tip E) :
    Works t (t.processOther env evt).2 := by
  unfold Tip.processOther
  dsimp only
  split
  · exact .single (.processKeyevent _ _)
  · next list _ =>
    have hmoved : Works t { t with candidateList := some (list.filterKeyEvent evt.ksym).2 } :=
      ⟨rfl, rfl, rfl, .refl⟩
    split
    · exact hmoved
    · have hlist := hmoved.trans (.handleInList env evt
        (decide ((list.filterKeyEvent evt.ksym).1 = .handledCommit))
        (list.filterKeyEvent evt.ksym).2 _)
      split
      · next u hu =>
        rw [hu] at hlist
        exact hlist
      · next u hu =>
        rw [hu] at hlist
        split
        · exact hlist
        · exact hlist.trans (.single (.processKeyevent _ _))

theorem processKey (env : KeydownEnv) (textAction : Option Str) (evt : KeyboardEvent)
    (t : Tip E) : Works t (t.processKey env textAction evt).2 := by
  unfold Tip.processKey
  split
  · exact .refl t
  · split
    · exact .processPrintable evt t
    · exact .processOther env evt t

theorem shiftUp (env : KeyupEnv) (evt : KeyboardEvent) (t : Tip E) :
    Works t (t.shiftUp zhconv env evt).2 := by
  unfold Tip.shiftUp
  split
  · have hreleased : Works t { t with shiftKeyState := (t.shiftKeyState.release env.now).2 } :=
      ⟨rfl, rfl, rfl, .refl⟩
    dsimp only
    split
    · split
      · exact hreleased
      · have htoggle : Works t (Tip.toggleLangMode zhconv env.mode
            { t with shiftKeyState := (t.shiftKeyState.release env.now).2 }).2 :=
          hreleased.trans (.toggleLangMode env.mode _)
        split
        · next u hu =>
          rw [hu] at htoggle
          exact htoggle
        · next u hu =>
          rw [hu] at htoggle
          exact htoggle
    · exact hreleased
  · exact .refl t

theorem capsUp (env : KeyupEnv) (evt : KeyboardEvent) (t : Tip E) :
    Works t (t.capsUp env evt).2 := by
  have hsync := syncLangMode env.mode true t
  unfold Tip.capsUp
  split
  · split
    · next u hu =>
      rw [hu] at hsync
      exact hsync
    · next u hu =>
      rw [hu] at hsync
      exact hsync
  · exact .refl t

theorem onKeyup (env : KeyupEnv) (ev : Int → KeyboardEvent) (t : Tip E) :
    Works t (t.onKeyup zhconv env ev).2 := by
  have hshift : Works t (t.shiftUp zhconv env (ev t.cfg.simulateEnglishLayout)).2 :=
    shiftUp env (ev t.cfg.simulateEnglishLayout) t
  unfold Tip.onKeyup
  dsimp only
  split
  · next u hu =>
    rw [hu] at hshift
    exact hshift
  · next u hu =>
    rw [hu] at hshift
    have hcaps := hshift.trans (.capsUp env (ev t.cfg.simulateEnglishLayout) u)
    split
    · next v hv =>
      rw [hv] at hcaps
      exact hcaps
    · next v hv =>
      rw [hv] at hcaps
      exact hcaps

theorem onTestKeyup (env : KeyupEnv) (ev : Int → KeyboardEvent) (t : Tip E) :
    Works t (t.onTestKeyup zhconv env ev).2 := by
  unfold Tip.onTestKeyup
  split
  · exact .refl t
  · exact .onKeyup env ev t

end Keys

end Works

/-! ## Handlers that derive anew -/

section Handlers

variable [KeyCodes] {t : Tip E} {zhconv : Str → Str}

omit [KeyCodes] in
/-- `toggle_hsu_keyboard` gives the editor another layout. -/
theorem Derived.toggleHsuKeyboard [Keysyms] (h : t.Derived) (message : Bool) :
    (t.toggleHsuKeyboard message).2.Derived := ⟨h.keybindings, h.editor.switched _⟩

omit [KeyCodes] in
theorem Derived.runAction [Keysyms] (h : t.Derived) (env : KeydownEnv) (kb : Keybinding) :
    (t.runAction env kb).2.Derived := by
  unfold Tip.runAction
  split
  · exact h.works ⟨rfl, rfl, rfl, .refl⟩
  · split
    · exact h.toggleHsuKeyboard env.message
    · split
      · split
        · exact h
        · exact h.works (.single (.commit _))
      · split <;> exact h

omit [EditorCommands E] [KeyCodes] in
/-- The configuration that a key test reads, if the context can be queried. -/
def TestEnv.config? (env : TestEnv) : Option ConfigEnv :=
  env.context.isMutable.map fun _ => env.config

theorem Derived.onTestKeydown (h : t.Derived) {env : TestEnv}
    (hdirs : ∀ config ∈ env.config?, t.Changed config → config.Dirs)
    (ev : Int → KeyboardEvent) : (t.onTestKeydown env ev).2.Derived := by
  obtain ⟨editor, rfl, heq | ⟨state, _, _, _, _, u, rfl, heq⟩⟩ := onTestKeydown_cases env ev t
  · rw [heq]
    exact h.works (.single (.languageMode _ _))
  · cases hcontext : env.context.isMutable with
    | none =>
      -- a context that cannot be queried fails the test
      unfold Tip.onTestKeydown at heq
      rw [hcontext] at heq
      cases heq
    | some isContextMutable =>
      have hconfig : env.config ∈ env.config? := by
        rw [TestEnv.config?, hcontext]
        rfl
      rw [heq]
      have hworks : Works t { t with
          chewingEditor := setEditorOptions
            (fun opt => { opt with languageMode := t.langMode.toLanguageMode }) t.chewingEditor
          shiftKeyState := state } := ⟨rfl, rfl, rfl, .single (.languageMode _ _)⟩
      exact (h.works hworks).reload (hdirs env.config hconfig)

/-- A thread focus rebuilds in any case. If it cannot, the layout goes back and the editor
stays. -/
theorem Derived.onThreadFocus (h : t.Derived) {config : ConfigEnv}
    (hdirs : t.Changed config ∨ t.Switched → config.Dirs) (mode : ModeEnv) :
    (t.onThreadFocus config mode).2.Derived := by
  obtain ⟨cfg, hcfg, heq⟩ := onThreadFocus_eq config mode t
  have hrebuilt : (applyRuntimeConfig config { t with cfg := cfg }).2.Derived := by
    by_cases hfound : config.Dirs
    · exact (inForce_applyRuntimeConfig hfound _).derived
    · obtain ⟨hchanged, hswitched⟩ := not_or.mp (mt hdirs hfound)
      rw [applyRuntimeConfig_of_not_dirs hfound, hcfg.resolve_right hchanged]
      exact h.works ⟨rfl, (not_not.mp hswitched).symm, rfl, .refl⟩
  rw [heq]
  split
  · next u hu =>
    rw [hu] at hrebuilt
    exact hrebuilt
  · next u hu =>
    rw [hu] at hrebuilt
    exact hrebuilt.works (.syncLangMode mode true u)

theorem Derived.handleKeydown (h : t.Derived) (env : KeydownEnv) (evt : KeyboardEvent) :
    (t.handleKeydown zhconv env evt).2.Derived := by
  have hbinding : (t.handleKeybinding env evt).2.Derived := by
    unfold handleKeybinding
    split
    · exact h
    · exact h.runAction env _
  unfold Tip.handleKeydown
  split
  · next u hu =>
    rw [hu] at hbinding
    exact hbinding
  · next u hu =>
    rw [hu] at hbinding
    exact hbinding
  · next textAction u hu =>
    rw [hu] at hbinding
    have hkey := hbinding.works (.processKey env textAction evt u)
    split
    · next v hv =>
      rw [hv] at hkey
      exact hkey
    · next v hv =>
      rw [hv] at hkey
      exact hkey
    · next v hv =>
      rw [hv] at hkey
      exact hkey.works (.deliverKey env.candidates textAction v)

theorem Derived.onKeydown (h : t.Derived) {env : KeydownEnv}
    (hdirs : ∀ config ∈ env.test.config?, t.Changed config → config.Dirs)
    (ev : Int → KeyboardEvent) : (t.onKeydown zhconv env ev).2.Derived := by
  have htest := h.onTestKeydown hdirs ev
  unfold Tip.onKeydown
  split
  · next u hu =>
    rw [hu] at htest
    exact htest
  · next u hu =>
    rw [hu] at htest
    exact htest
  · next u hu =>
    rw [hu] at htest
    exact htest.handleKeydown env _

omit [KeyCodes] in
/-- After a successful start-up all that is derived is in force. -/
theorem derived_initChewingContext [Keysyms] {env : ConfigEnv} {mode : ModeEnv}
    (h : (t.initChewingContext env mode).1 = .ok ()) :
    (t.initChewingContext env mode).2.Derived := by
  unfold initChewingContext at h ⊢
  cases hinit : t.applyInitConfig env with
  | mk ok u =>
    rw [hinit] at h
    cases ok with
    | false => cases h
    | true =>
      have hdirs : env.Dirs := dirs_of_applyRuntimeConfig (congrArg Prod.fst hinit)
      have hforce : (t.applyInitConfig env).2.Derived :=
        (inForce_applyRuntimeConfig hdirs _).derived
      rw [hinit] at hforce
      exact hforce.works (.syncLangMode mode true u)

end Handlers

end Tip

/-! ## Calls of TSF -/

section Calls

variable {E : Type} [EditorCommands E] [KeyCodes] {zhconv : Str → Str} {k k' : Keyboard E}

/-- The condition on a call: where it finds the configuration changed it also finds the
directories that it rebuilds the editor from. A thread focus needs them too where the user has
switched the layout. -/
def KeyboardCall.Rebuilds (k : Keyboard E) : KeyboardCall → Prop
  | .testKeyDown env _ => ∀ config ∈ env.config?, k.tip.Changed config → config.Dirs
  | .keyDown env _ => ∀ config ∈ env.test.config?, k.tip.Changed config → config.Dirs
  | .setThreadFocus config _ _ => k.tip.Changed config ∨ k.tip.Switched → config.Dirs
  | _ => True

theorem Keyboard.derived_setOpenclose (h : k.tip.Derived) (env : Tip.CompartmentEnv)
    (byUser : Bool) (value : Option Int) :
    (k.setOpenclose zhconv env byUser value).tip.Derived := by
  unfold setOpenclose
  split
  · exact h
  · exact h.works (.onChange env k.tip)

theorem Keyboard.derived_syncKeyboardOpenclose (h : k.tip.Derived) (env : Tip.CompartmentEnv) :
    (k.syncKeyboardOpenclose zhconv env).tip.Derived := by
  obtain ⟨pending, heq⟩ := syncKeyboardOpenclose_tip zhconv env k
  rw [heq]
  exact h.works ⟨rfl, rfl, rfl, .refl⟩

theorem Keyboard.derived_thenSync {α : Type} {r : Except Fault α × Tip E} (h : r.2.Derived)
    (env : Tip.CompartmentEnv) (k : Keyboard E) : (k.thenSync zhconv env r).tip.Derived := by
  unfold thenSync
  split
  · exact derived_syncKeyboardOpenclose (k := { k with tip := r.2 }) h env
  · exact h

/-- **One call.** -/
theorem KeyboardCall.derived_next (h : k.tip.Derived) {c : KeyboardCall} (hok : c.Rebuilds k) :
    (c.next zhconv k).tip.Derived := by
  cases c with
  | change value env => exact Keyboard.derived_setOpenclose h env true value
  | testKeyDown env ev => exact h.onTestKeydown hok ev
  | keyDown env ev => exact h.onKeydown hok ev
  | testKeyUp env ev sync =>
    exact Keyboard.derived_thenSync (h.works (.onTestKeyup env ev k.tip)) sync k
  | keyUp env ev sync => exact Keyboard.derived_thenSync (h.works (.onKeyup env ev k.tip)) sync k
  | command env id cmdType sync =>
    exact Keyboard.derived_syncKeyboardOpenclose
      (k := { k with tip := k.tip.onCommand zhconv env id cmdType })
      (h.works (.onCommand env id cmdType k.tip)) sync
  | setThreadFocus config mode sync =>
    exact Keyboard.derived_thenSync (h.onThreadFocus hok mode) sync k
  | setFocus null context =>
    cases null with
    | true => exact h.works (.onKillFocus context k.tip)
    | false => exact h.works ⟨rfl, rfl, rfl, .refl⟩
  | compositionTerminated => exact h.works (.onCompositionTerminatedTail k.tip)
  | session => exact h.works (.of_service (k.tip.runSession_service))

/-- **A reload that succeeds leaves its configuration in force**, whatever TSF has called since
a successful start-up, as long as every rebuild that was due found the directories: exactly if
it rebuilds itself, or the user has not switched the layout since the last rebuild. -/
theorem Keyboard.reload_inForce {start : ActivateEnv} {editor : E} {document : Document}
    {grant : Grant} {openclose : Option Int} {calls : List KeyboardCall}
    (hstart : ((Tip.new start.config.fromReg editor document grant).initChewingContext
      start.config start.mode).1 = .ok ())
    (hrun : Run (Guarded KeyboardCall.Rebuilds (KeyboardStep zhconv))
      (.activate start editor document grant openclose) calls k) (env : Tip.ConfigEnv)
    (hok : (k.tip.applyConfigIfChanged env).1 = true) :
    ∃ cfg, env.fromReg = .ok cfg ∧ (Tip.InForce cfg (k.tip.applyConfigIfChanged env).2 ↔
      (k.tip.Switched → k.tip.Changed env)) := by
  have hderived : k.tip.Derived := by
    refine hrun.invariant (I := fun k => k.tip.Derived) (Tip.derived_initChewingContext hstart) ?_
    rintro k c _ h ⟨hrebuilds, rfl⟩
    exact KeyboardCall.derived_next h hrebuilds
  obtain ⟨hreg, hdirs⟩ := Tip.applyConfigIfChanged_ok hok
  refine ⟨_, hreg, ?_⟩
  by_cases hchanged : k.tip.Changed env
  · exact iff_of_true (hchanged.inForce_reload (hdirs hchanged)) fun _ => hchanged
  · rw [Tip.applyConfigIfChanged_of_not_changed hchanged, hderived.inForce_iff]
    exact ⟨fun hlayout hswitched => absurd hswitched hlayout,
      fun h hswitched => hchanged (h hswitched)⟩

end Calls

/-! ## Runs of reloads -/

open TypedEditor ScriptedEditor

/-- Ctrl+t switches the layout. -/
def TypedEditor.hsuConfig : ChewingTsfConfig :=
  { ChewingTsfConfig.default with
    keybind := [⟨"Ctrl+t".toList, "toggle_hsu_keyboard".toList, []⟩] }

/-- The user has removed all keybindings. -/
def Tip.withoutKeybindings : Except ConfigError ChewingTsfConfig :=
  .ok { ChewingTsfConfig.default with keybind := [] }

theorem TypedEditor.activated_started (cfg : ChewingTsfConfig) :
    ((Tip.new (.ok cfg) blank ⟨[], 0, none⟩ .immediate).initChewingContext
      ⟨.ok cfg, some [], some []⟩ modeEnv).1 = .ok () := rfl

/-- The user switches the layout, and the next reload puts the configured one back. -/
theorem Keyboard.inForce_after_reload :
    ∃ k : Keyboard TypedEditor, k.tip.kbtype = .hsu ∧
      ∃ cfg, Tip.withoutKeybindings = .ok cfg ∧ Tip.InForce cfg
        (k.tip.applyConfigIfChanged ⟨Tip.withoutKeybindings, some [], some []⟩).2 := by
  have hswitched : ∃ k : Keyboard TypedEditor,
      Run (Guarded KeyboardCall.Rebuilds (KeyboardStep id)) (activated hsuConfig)
        [.keyDown (keydownEnv hsuConfig) fun _ => { plainKey ⟨0x74⟩ with control := true }] k ∧
      k.tip.kbtype = .hsu ∧
      { ChewingTsfConfig.default with keybind := [] } ≠ k.tip.cfg ∧
      (k.tip.applyConfigIfChanged ⟨Tip.withoutKeybindings, some [], some []⟩).1 = true := by
    refine ⟨_, .single ⟨?_, rfl⟩, ?_, ?_, ?_⟩
    · rintro config hconfig -
      cases hconfig
      exact ⟨rfl, rfl⟩
    · decide +kernel
    · decide +kernel
    · decide +kernel
  obtain ⟨k, hrun, hkbtype, hne, hok⟩ := hswitched
  obtain ⟨cfg, hreg, hiff⟩ := Keyboard.reload_inForce (activated_started hsuConfig) hrun
    ⟨Tip.withoutKeybindings, some [], some []⟩ hok
  exact ⟨k, hkbtype, cfg, hreg, hiff.mpr fun _ => ⟨_, rfl, hne⟩⟩

/-- The user's directory is not found while the new keybindings are loaded: the next key test
succeeds with the old ones. -/
theorem Keyboard.reload_keeps_stale_keybindings :
    ¬ ∀ (start : ActivateEnv) (editor : TypedEditor) (document : Document) (grant : Grant)
        (openclose : Option Int) (calls : List KeyboardCall) (k : Keyboard TypedEditor)
        (env : Tip.ConfigEnv),
      ((Tip.new start.config.fromReg editor document grant).initChewingContext
        start.config start.mode).1 = .ok () →
      Run (KeyboardStep id) (.activate start editor document grant openclose) calls k →
      (k.tip.applyConfigIfChanged env).1 = true →
      ∃ cfg, env.fromReg = .ok cfg ∧ Tip.InForce cfg (k.tip.applyConfigIfChanged env).2 := by
  intro hclaim
  have hfailed : ∃ k : Keyboard TypedEditor,
      Run (KeyboardStep id) (activated hsuConfig)
        [.testKeyDown ⟨⟨some 0, some 0, some 0⟩, 0, ⟨Tip.withoutKeybindings, none, some []⟩⟩
          fun _ => plainKey ⟨0x61⟩] k ∧
      (k.tip.applyConfigIfChanged ⟨Tip.withoutKeybindings, some [], some []⟩).1 = true ∧
      (k.tip.applyConfigIfChanged ⟨Tip.withoutKeybindings, some [], some []⟩).2.keybindings ≠ [] :=
    ⟨_, .single rfl, by decide +kernel, by decide +kernel⟩
  obtain ⟨k, hrun, hok, hstale⟩ := hfailed
  obtain ⟨cfg, hreg, hforce⟩ := hclaim ⟨⟨.ok hsuConfig, some [], some []⟩, modeEnv, true⟩ blank
    ⟨[], 0, none⟩ .immediate none _ k _ (activated_started hsuConfig) hrun hok
  cases hreg
  exact hstale hforce.keybindings

end ChewingTsf
