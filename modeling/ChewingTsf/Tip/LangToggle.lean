import ChewingTsf.Tip.KeyDown
import ChewingTsf.Tip.Mirror

/-!
# When `toggle_lang_mode` fails

`toggle_lang_mode` switches `lang_mode` and announces the change of the compartment
(`pending_lang_mode_change`) before it calls anything that can fail: `update_lang_buttons`
and then, to refresh the preedit, `GetFocus` and `GetTop`. An error of any of them ends it
with `?`, and nothing of what it did before is taken back. Only CapsLock can undo the
switch: with `enable_caps_lock` it decides the mode, and the toggle changes nothing.
-/

namespace ChewingTsf

open ChewingEditor

variable {E : Type} [ChewingEditor E]

namespace Tip

/-- The mode that CapsLock stands for (`sync_lang_mode`). -/
def capsLockMode (env : ModeEnv) (cfg : ChewingTsfConfig) : TsfLangMode :=
  if env.capsLockOn = cfg.lockChineseOnCapsLock then .chinese else .english

/-- `sync_lang_mode` puts the mode back that the toggle switched away from. -/
structure HeldByCapsLock (env : ModeEnv) (t : Tip E) : Prop where
  enabled : t.langMode.isDisabled = false
  capsLock : t.cfg.enableCapsLock = true
  mode : t.langMode = capsLockMode env t.cfg

/-- The service as `toggle_lang_mode` leaves it before anything can fail. -/
def switched (env : ModeEnv) (t : Tip E) : Tip E :=
  ({ t with langMode := t.langMode.toggled }.syncLangMode env true).2

variable {env : ModeEnv} {t : Tip E}

omit [ChewingEditor E] in
theorem switched_eq (env : ModeEnv) (t : Tip E) :
    t.switched env = { t with
      pendingLangModeChange := true
      langMode := if t.langMode.isDisabled = false ∧ t.cfg.enableCapsLock = true then
        capsLockMode env t.cfg else t.langMode.toggled } := by
  have htoggled : t.langMode.toggled.isDisabled = t.langMode.isDisabled := by
    cases t.langMode <;> rfl
  unfold switched syncLangMode capsLockMode
  dsimp only
  rw [htoggled]
  cases t.langMode.isDisabled with
  | true => rfl
  | false =>
    cases t.cfg.enableCapsLock with
    | false => rfl
    | true => cases t.cfg.lockChineseOnCapsLock <;> cases env.capsLockOn <;> rfl

omit [ChewingEditor E] in
/-- The mode stays as it was exactly if CapsLock holds it. -/
theorem switched_langMode_iff :
    (t.switched env).langMode = t.langMode ↔ t.HeldByCapsLock env := by
  rw [switched_eq]
  dsimp only
  by_cases h : t.langMode.isDisabled = false ∧ t.cfg.enableCapsLock = true
  · rw [if_pos h]
    exact ⟨fun hmode => ⟨h.1, h.2, hmode.symm⟩, fun hheld => hheld.mode.symm⟩
  · rw [if_neg h]
    refine iff_of_false ?_ fun hheld => h ⟨hheld.enabled, hheld.capsLock⟩
    cases t.langMode <;> nofun

/-- What follows the switch: the buttons are updated and, if the mode has changed, the
preedit is refreshed in the context that has the focus. -/
theorem toggleLangMode_steps (zhconv : Str → Str) (env : ModeEnv) (t : Tip E) :
    t.toggleLangMode zhconv env =
      if env.buttons = false then (.error .error, t.switched env)
      else if t.langMode = (t.switched env).langMode then (.ok (), t.switched env)
      else if env.context = false then (.error .error, t.switched env)
      else (.ok (), (t.toggleInput env).updatePreedit zhconv []) := by
  have hsync : { t with langMode := t.langMode.toggled }.syncLangMode env true
      = (if env.buttons then .ok () else .error .error, t.switched env) := rfl
  unfold toggleLangMode
  dsimp only
  rw [hsync]
  cases env.buttons with
  | false => rfl
  | true =>
    by_cases hmode : t.langMode = (t.switched env).langMode
    · simp [hmode]
    · cases env.context with
      | false => simp [hmode]
      | true =>
        simp [hmode]
        rfl

/-! ## All or nothing -/

/-- The fields that a failed toggle should leave alone. -/
structure Untoggled (t u : Tip E) : Prop where
  langMode : u.langMode = t.langMode
  pending : u.pendingLangModeChange = t.pendingLangModeChange
  editor : u.chewingEditor = t.chewingEditor

/-- The syllable that was being typed is gone, and the preedit is that of the mode now. -/
structure Refreshed (zhconv : Str → Str) (t u : Tip E) : Prop where
  cleared : u.chewingEditor = clearSyllableEditor t.chewingEditor
  preedit : ∃ v : Tip E, v.langMode = u.langMode ∧
    v.chewingEditor = clearSyllableEditor t.chewingEditor ∧ u = v.updatePreedit zhconv []

/-- A toggle that fails has done nothing, and one that changes the mode has refreshed the
preedit. -/
structure AllOrNothing (zhconv : Str → Str) (env : ModeEnv) (t : Tip E) : Prop where
  failed : (t.toggleLangMode zhconv env).1 ≠ .ok () →
    Untoggled t (t.toggleLangMode zhconv env).2
  done : (t.toggleLangMode zhconv env).1 = .ok () →
    (t.toggleLangMode zhconv env).2.langMode ≠ t.langMode →
    Refreshed zhconv t (t.toggleLangMode zhconv env).2

theorem refreshed_toggleInput (zhconv : Str → Str) (env : ModeEnv) (t : Tip E) :
    Refreshed zhconv t ((t.toggleInput env).updatePreedit zhconv []) := by
  have heditor : (t.toggleInput env).chewingEditor = clearSyllableEditor t.chewingEditor := by
    show clearSyllableEditor (t.switched env).chewingEditor = _
    rw [switched_eq]
  refine ⟨?_, t.toggleInput env, ?_, heditor, rfl⟩
  · rw [updatePreedit_chewingEditor, heditor]
  · exact (ModeKept.updatePreedit (t.toggleInput env) zhconv []).langMode.symm

omit [ChewingEditor E] in
/-- The switch is nothing only if the change was announced already and CapsLock holds the
mode. -/
theorem untoggled_switched_iff :
    Untoggled t (t.switched env) ↔ t.pendingLangModeChange = true ∧ t.HeldByCapsLock env := by
  rw [← switched_langMode_iff]
  constructor
  · intro h
    have hpending := h.pending
    rw [switched_eq] at hpending
    exact ⟨hpending.symm, h.langMode⟩
  · rintro ⟨hpending, hmode⟩
    refine ⟨hmode, ?_, ?_⟩
    · rw [switched_eq, hpending]
    · rw [switched_eq]

/-- A toggle that fails after the switch is all or nothing if the switch is nothing. -/
theorem allOrNothing_of_error {zhconv : Str → Str}
    (h : t.toggleLangMode zhconv env = (.error .error, t.switched env)) :
    t.AllOrNothing zhconv env ↔ Untoggled t (t.switched env) := by
  constructor
  · intro hall
    have hfailed := hall.failed
    rw [h] at hfailed
    exact hfailed nofun
  · intro hnothing
    constructor
    · rw [h]
      exact fun _ => hnothing
    · rw [h]
      nofun

theorem allOrNothing_of_ok {zhconv : Str → Str} {u : Tip E}
    (h : t.toggleLangMode zhconv env = (.ok (), u))
    (hdone : u.langMode ≠ t.langMode → Refreshed zhconv t u) : t.AllOrNothing zhconv env := by
  constructor
  · rw [h]
    exact fun hne => absurd rfl hne
  · rw [h]
    exact fun _ => hdone

/-- **A toggle happens completely or not at all** exactly if none of its steps fails, or
nothing is left to be taken back: the mode is held by CapsLock and the change was announced
before. -/
theorem allOrNothing_iff (zhconv : Str → Str) (env : ModeEnv) (t : Tip E) :
    t.AllOrNothing zhconv env ↔
      (env.buttons = true ∧ (env.context = true ∨ t.HeldByCapsLock env)) ∨
        (env.buttons = false ∧ t.pendingLangModeChange = true ∧ t.HeldByCapsLock env) := by
  have hsteps := toggleLangMode_steps zhconv env t
  cases hbuttons : env.buttons with
  | false =>
    rw [if_pos hbuttons] at hsteps
    rw [allOrNothing_of_error hsteps, untoggled_switched_iff]
    simp
  | true =>
    rw [if_neg (by simp [hbuttons])] at hsteps
    by_cases hheld : t.HeldByCapsLock env
    · -- the mode is the one before, and the preedit needs no refresh
      have hmode := switched_langMode_iff.mpr hheld
      rw [if_pos hmode.symm] at hsteps
      exact iff_of_true (allOrNothing_of_ok hsteps fun hne => absurd hmode hne)
        (.inl ⟨rfl, .inr hheld⟩)
    · have hmode : t.langMode ≠ (t.switched env).langMode :=
        fun heq => hheld (switched_langMode_iff.mp heq.symm)
      rw [if_neg hmode] at hsteps
      cases hcontext : env.context with
      | false =>
        -- the mode has changed, and the preedit cannot be refreshed
        rw [if_pos hcontext] at hsteps
        rw [allOrNothing_of_error hsteps, untoggled_switched_iff]
        simp [hheld]
      | true =>
        rw [if_neg (by simp [hcontext])] at hsteps
        exact iff_of_true
          (allOrNothing_of_ok hsteps fun _ => refreshed_toggleInput zhconv env t)
          (.inl ⟨rfl, .inl rfl⟩)

end Tip

open TypedEditor ScriptedEditor

/-- No document has the focus: the mode is English all the same. -/
theorem Tip.toggle_half_done :
    ¬ ∀ (E : Type) [ChewingEditor E] (zhconv : Str → Str) (env : ModeEnv) (t : Tip E),
      t.AllOrNothing zhconv env := by
  intro hclaim
  have h := hclaim ScriptedEditor id ⟨false, true, false⟩ (Tip.fresh .queued)
  exact absurd (h.failed (by decide)).langMode (by decide)

end ChewingTsf
