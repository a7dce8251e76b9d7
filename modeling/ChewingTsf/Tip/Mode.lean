import ChewingTsf.Tip.ClosedKeyboard
import ChewingTsf.Tip.LangToggle

/-!
# What leaves the mode alone

The language bar shows the language and the output of the service, and CapsLock may decide the
language. Most of what the service does changes neither, nor the configuration (`SameMode`):
the edit sessions, the candidates, the preedit, the focus. What does change them is
`sync_lang_mode`, a keybinding for the output, the items of the menu and a new configuration.
-/

namespace ChewingTsf

open ChewingEditor

section Frames

variable {E : Type}

namespace Tip

/-- The language, the output and the configuration stay as they are. -/
structure SameMode (t u : Tip E) : Prop where
  langMode : u.langMode = t.langMode
  outputSimpChinese : u.outputSimpChinese = t.outputSimpChinese
  cfg : u.cfg = t.cfg

namespace SameMode

variable {t u v : Tip E}

theorem refl (t : Tip E) : SameMode t t := ⟨rfl, rfl, rfl⟩

theorem trans (h : SameMode t u) (h' : SameMode u v) : SameMode t v :=
  ⟨h'.langMode.trans h.langMode, h'.outputSimpChinese.trans h.outputSimpChinese,
    h'.cfg.trans h.cfg⟩

theorem of_service (h : u.toChewingTextService = t.toChewingTextService) : SameMode t u :=
  ⟨congrArg (·.langMode) h, congrArg (·.outputSimpChinese) h, congrArg (·.cfg) h⟩

theorem request (t : Tip E) (s : EditSession) : SameMode t (t.requestEditSession s) :=
  .of_service (requestEditSession_service t s)

theorem runSession (t : Tip E) : SameMode t t.runSession := .of_service (runSession_service t)

theorem setCompositionString (t : Tip E) (zhconv : Str → Str) (commit preedit : Str)
    (segments : List (Nat × Nat)) (cursor : Nat) :
    SameMode t (t.setCompositionString zhconv commit preedit segments cursor) := by
  unfold Tip.setCompositionString
  dsimp only
  split
  · exact ⟨rfl, rfl, rfl⟩
  · refine .trans ?_ (.request _ _)
    exact ⟨rfl, rfl, rfl⟩

theorem endComposition (t : Tip E) : SameMode t t.endComposition := by
  refine .trans ?_ (.request _ _)
  exact ⟨rfl, rfl, rfl⟩

theorem insertText (t : Tip E) (text : Str) : SameMode t (t.insertText text) := .request t _

theorem of_onlyInput (h : OnlyInput t u) : SameMode t u := by
  obtain ⟨editor, list, rfl⟩ := h
  exact ⟨rfl, rfl, rfl⟩

theorem onKillFocus (context : Bool) (t : Tip E) : SameMode t (t.onKillFocus context) := by
  have hblur : SameMode t { t with hasFocus := false } := ⟨rfl, rfl, rfl⟩
  unfold Tip.onKillFocus
  dsimp only
  split
  · have hended := hblur.trans (.endComposition _)
    exact ⟨hended.langMode, hended.outputSimpChinese, hended.cfg⟩
  · exact ⟨rfl, rfl, rfl⟩

variable [ChewingEditor E]

theorem updatePreedit (t : Tip E) (zhconv : Str → Str) (commit : Str) :
    SameMode t (t.updatePreedit zhconv commit) :=
  updatePreedit_keeps (fun u _ _ _ hu => hu.trans (.setCompositionString u zhconv commit _ _ _))
    (fun u hu => hu.trans (.endComposition u)) (.refl t)

theorem deliverKey (t : Tip E) (zhconv : Str → Str) (env : CandidateEnv)
    (textAction : Option Str) : SameMode t (t.deliverKey zhconv env textAction).2 := by
  unfold Tip.deliverKey
  dsimp only
  split
  · exact .refl t
  · split
    · have hacked : SameMode t { t with chewingEditor := ack t.chewingEditor } := ⟨rfl, rfl, rfl⟩
      rw [insertCommit_eq]
      cases textAction with
      | none => exact hacked.trans (.insertText _ _)
      | some param => exact hacked.trans (.trans (.insertText _ _) (.insertText _ _))
    · have hcandidates : SameMode t (t.updateCandidates env).2 :=
        .of_onlyInput (.updateCandidates env t)
      split
      · next u hu =>
        rw [hu] at hcandidates
        exact hcandidates
      · next r u _ hu =>
        rw [hu] at hcandidates
        refine hcandidates.trans (.trans ?_ (.updatePreedit _ zhconv _))
        unfold takeCommit
        split <;> exact ⟨rfl, rfl, rfl⟩

/-- What follows the switch of a toggle. -/
theorem toggleLangMode (t : Tip E) (zhconv : Str → Str) (env : ModeEnv) :
    SameMode (t.switched env) (t.toggleLangMode zhconv env).2 := by
  rcases toggleLangMode_eq zhconv env t with ⟨-, heq⟩ | heq
  · have hinput : SameMode (t.switched env) (t.toggleInput env) := ⟨rfl, rfl, rfl⟩
    rw [heq]
    exact hinput.trans (.updatePreedit _ zhconv [])
  · rw [heq]
    exact .refl _

end SameMode

/-! ## The handlers -/

section Handlers

variable [EditorCommands E] {t : Tip E} {zhconv : Str → Str}

theorem SameMode.commitComposition (t : Tip E) (zhconv : Str → Str) (context : Bool) :
    SameMode t (t.commitComposition zhconv context).2 := by
  unfold Tip.commitComposition
  dsimp only
  split
  · split
    · refine .trans ?_ (.trans (.setCompositionString _ zhconv _ [] [] 0) (.endComposition _))
      exact ⟨rfl, rfl, rfl⟩
    · exact ⟨rfl, rfl, rfl⟩
  · exact ⟨rfl, rfl, rfl⟩

/-- A change that is not expected opens or closes the keyboard, and then the mode is
synchronised. -/
theorem SameMode.onChange (env : CompartmentEnv) (hpending : t.pendingLangModeChange = false)
    (hfocus : t.hasFocus = true) :
    SameMode (t.switchedOpenclose.syncLangMode env.mode false).2 (t.onChange zhconv env true).2 := by
  by_cases hsync : t.cfg.syncLangModeOpenclose = true
  · rw [onChange_of_sync env hsync hpending hfocus]
    exact .refl _
  · rw [Tip.onChange, if_neg hsync, onCompartmentChange_of_unexpected env.mode hpending hfocus]
    split
    · next u hu =>
      rw [hu]
      exact .refl _
    · next u hu =>
      rw [hu]
      split
      · exact .commitComposition u zhconv env.mode.context
      · exact .refl _

theorem SameMode.onChange_of_expected (env : CompartmentEnv)
    (h : t.pendingLangModeChange = true ∨ t.hasFocus = false) :
    SameMode t (t.onChange zhconv env true).2 := by
  rw [Tip.onChange_of_expected env h]
  exact ⟨rfl, rfl, rfl⟩

omit [EditorCommands E] in
/-- The configuration after a key test is the one before, or the one in the registry. -/
theorem reloaded_cases (env : ConfigEnv) (t : Tip E) :
    t.reloaded env = t.cfg ∨ env.fromReg = .ok (t.reloaded env) := by
  unfold reloaded
  by_cases hchanged : t.Changed env
  · obtain ⟨cfg, hreg, hne⟩ := hchanged
    rw [reloadIfNeeded_of_changed hreg hne]
    exact .inr hreg
  · left
    obtain ⟨e, heq⟩ | ⟨cfg, heq⟩ := reloadIfNeeded_of_not_changed hchanged
    · rw [heq]
    · rw [heq]

/-- A keybinding may switch the output. -/
def withOutputOf (kb : Keybinding) (t : Tip E) : Tip E :=
  if kb.action = "toggle_simplified_chinese".toList then
    { t with outputSimpChinese := !t.outputSimpChinese }
  else t

theorem SameMode.runAction (env : KeydownEnv) (kb : Keybinding) (t : Tip E) :
    SameMode (t.withOutputOf kb) (t.runAction env kb).2 := by
  unfold withOutputOf Tip.runAction
  split
  · exact .refl _
  · split
    · exact ⟨rfl, rfl, rfl⟩
    · split
      · split <;> exact ⟨rfl, rfl, rfl⟩
      · split <;> exact .refl t

variable [KeyCodes]

/-- The rest of `on_keydown` after a keybinding. -/
theorem SameMode.handleKeydown (zhconv : Str → Str) (env : KeydownEnv) (evt : KeyboardEvent)
    (t : Tip E) : SameMode (t.handleKeybinding env evt).2 (t.handleKeydown zhconv env evt).2 := by
  unfold Tip.handleKeydown
  split
  · next u hu =>
    rw [hu]
    exact .refl u
  · next u hu =>
    rw [hu]
    exact .refl u
  · next textAction u hu =>
    rw [hu]
    have hkey : SameMode u (u.processKey env textAction evt).2 :=
      .of_onlyInput (.processKey env textAction evt u)
    split
    · next v hv =>
      rw [hv] at hkey
      exact hkey
    · next v hv =>
      rw [hv] at hkey
      exact hkey
    · next v hv =>
      rw [hv] at hkey
      exact hkey.trans (.deliverKey v zhconv env.candidates textAction)

end Handlers

end Tip

end Frames

end ChewingTsf
