import ChewingTsf.Lib.Run
import ChewingTsf.Tip.OpenClose

/-!
# Which changes of the compartment toggle the keyboard

`OnChange` toggles the keyboard for a change it does not expect: one that finds
`pending_lang_mode_change` clear. A change that `sync_keyboard_openclose` makes
always finds it set, as it is only made then. But the flag also stays set when no
change follows: after activation, when `SetValue` finds the value already there or
fails, and when a method returns an error before the compartment is synchronised.
The next change the user makes is then taken for the service's own.
-/

namespace ChewingTsf

section Toggling

variable {E : Type}

namespace Tip

variable {t : Tip E} {zhconv : Str → Str}

theorem syncLangMode_isDisabled (env : ModeEnv) (internal : Bool) (t : Tip E) :
    (t.syncLangMode env internal).2.langMode.isDisabled = t.langMode.isDisabled := by
  unfold syncLangMode
  dsimp only
  split
  · next h =>
    -- CapsLock only chooses between the enabled modes
    have henabled : t.langMode.isDisabled = false := by
      cases hmode : t.langMode.isDisabled with
      | false => rfl
      | true =>
        rw [hmode] at h
        cases h
    rw [henabled]
    cases t.cfg.lockChineseOnCapsLock <;> cases env.capsLockOn <;> rfl
  · rfl

variable [EditorCommands E]

theorem ModeKept.commitComposition (zhconv : Str → Str) (context : Bool) (t : Tip E) :
    ModeKept t (t.commitComposition zhconv context).2 := by
  unfold Tip.commitComposition
  dsimp only
  split
  · split
    · refine .trans ?_ (.trans (.setCompositionString _ zhconv _ [] [] 0) (.endComposition _))
      exact ⟨rfl, rfl, fun _ => rfl⟩
    · exact ⟨rfl, rfl, fun _ => rfl⟩
  · exact ⟨rfl, rfl, fun _ => rfl⟩

omit [EditorCommands E] in
/-- With the keyboard synchronised, a forced `sync_keyboard_openclose` leaves the
service as it is. -/
theorem opencloseToSet_of_sync (hsync : t.cfg.syncLangModeOpenclose = true) (compartment : Bool) :
    (t.opencloseToSet compartment true).2 = t := by
  have hset : (!t.cfg.syncLangModeOpenclose) = false := by simp [hsync]
  rw [opencloseToSet, hset, if_neg Bool.false_ne_true]
  split
  · rfl
  · split <;> rfl

/-- A change that is expected, or comes without the focus, only clears the flag. -/
theorem onChange_of_expected (env : CompartmentEnv)
    (h : t.pendingLangModeChange = true ∨ t.hasFocus = false) :
    (t.onChange zhconv env true).2 = { t with pendingLangModeChange := false } := by
  have hskip : (!t.pendingLangModeChange && t.hasFocus) = false := by
    rcases h with h | h <;> simp [h]
  unfold onChange
  split
  · next hsync =>
    rw [onCompartmentChangeRo, if_pos rfl]
    dsimp only
    rw [hskip, if_neg Bool.false_ne_true]
    exact opencloseToSet_of_sync (t := { t with pendingLangModeChange := false }) hsync
      env.compartment
  · rw [onCompartmentChange, if_pos rfl]
    dsimp only
    rw [hskip, if_neg Bool.false_ne_true]

omit [EditorCommands E] in
/-- What `OnChange` does first about any other change. -/
def switchedOpenclose (t : Tip E) : Tip E :=
  { t with langMode := t.langMode.openclosed, pendingLangModeChange := false }

omit [EditorCommands E] in
theorem onCompartmentChangeRo_of_unexpected (env : ModeEnv)
    (hpending : t.pendingLangModeChange = false) (hfocus : t.hasFocus = true) :
    t.onCompartmentChangeRo env true = t.switchedOpenclose.syncLangMode env false := by
  have hact : (!t.pendingLangModeChange && t.hasFocus) = true := by simp [hpending, hfocus]
  rw [onCompartmentChangeRo, if_pos rfl]
  exact if_pos hact

theorem onCompartmentChange_of_unexpected (env : ModeEnv)
    (hpending : t.pendingLangModeChange = false) (hfocus : t.hasFocus = true) :
    t.onCompartmentChange zhconv env true =
      match t.switchedOpenclose.syncLangMode env false with
      | (.error e, t) => (.error e, t)
      | (.ok (), t) =>
        if t.isComposing && t.langMode.isDisabled then t.commitComposition zhconv env.context
        else (.ok (), t) := by
  have hact : (!t.pendingLangModeChange && t.hasFocus) = true := by simp [hpending, hfocus]
  rw [onCompartmentChange, if_pos rfl]
  exact if_pos hact

omit [EditorCommands E] in
theorem syncLangMode_cfg (env : ModeEnv) (internal : Bool) (t : Tip E) :
    (t.syncLangMode env internal).2.cfg = t.cfg := by
  obtain ⟨langMode, heq, -⟩ := syncLangMode_eq env internal t
  rw [heq]

/-- Synchronised, any other change toggles the keyboard and does no more. -/
theorem onChange_of_sync (env : CompartmentEnv) (hsync : t.cfg.syncLangModeOpenclose = true)
    (hpending : t.pendingLangModeChange = false) (hfocus : t.hasFocus = true) :
    (t.onChange zhconv env true).2 = (t.switchedOpenclose.syncLangMode env.mode false).2 := by
  rw [onChange, if_pos hsync, onCompartmentChangeRo_of_unexpected env.mode hpending hfocus]
  have hcfg := syncLangMode_cfg env.mode false t.switchedOpenclose
  split
  · next u hu => rw [hu]
  · next u hu =>
    rw [hu] at hcfg ⊢
    exact opencloseToSet_of_sync ((congrArg _ hcfg).trans hsync) env.compartment

/-- Any other change toggles the keyboard. -/
theorem onChange_of_unexpected (env : CompartmentEnv) (hpending : t.pendingLangModeChange = false)
    (hfocus : t.hasFocus = true) :
    (t.onChange zhconv env true).2.langMode.isDisabled = !t.langMode.isDisabled := by
  have htoggled : (t.switchedOpenclose.syncLangMode env.mode false).2.langMode.isDisabled
      = !t.langMode.isDisabled := by
    rw [syncLangMode_isDisabled]
    exact TsfLangMode.isDisabled_openclosed t.langMode
  by_cases hsync : t.cfg.syncLangModeOpenclose = true
  · rw [onChange_of_sync env hsync hpending hfocus]
    exact htoggled
  · rw [onChange, if_neg hsync, onCompartmentChange_of_unexpected env.mode hpending hfocus]
    split
    · next u hu =>
      rw [hu] at htoggled
      exact htoggled
    · next u hu =>
      rw [hu] at htoggled
      split
      · rw [(ModeKept.commitComposition zhconv env.mode.context u).langMode]
        exact htoggled
      · exact htoggled

end Tip

/-! ## Changes -/

/-- A change by the user that finds the service with the focus toggles the keyboard,
and one by the service does not. -/
structure OpencloseChange.Attributed (c : OpencloseChange) : Prop where
  user : c.byUser = true → c.hasFocus = true → c.flips = true
  service : c.byUser = false → c.flips = false

/-- All changes so far have been attributed to the one who made them. -/
def Keyboard.Attributed (k : Keyboard E) : Prop := ∀ c ∈ k.changes, c.Attributed

/-- The user does not change the compartment while the service still waits for a
change of its own: `pending_lang_mode_change` is clear. -/
def KeyboardCall.Unmistaken (k : Keyboard E) : KeyboardCall → Prop
  | .change value _ => k.openclose ≠ value → k.tip.hasFocus = true →
    k.tip.pendingLangModeChange = false
  | _ => True

namespace Keyboard

variable [EditorCommands E] {zhconv : Str → Str}

theorem flips_of_eq {byUser hasFocus : Bool} {before after : TsfLangMode} :
    (OpencloseChange.mk byUser hasFocus before after).flips = false ↔
      after.isDisabled = before.isDisabled := by
  simp [OpencloseChange.flips]

/-- The service's own change, made while the flag is set, toggles nothing. -/
theorem setOpenclose_own (env : Tip.CompartmentEnv) (value : Option Int) {k : Keyboard E}
    (hpending : k.tip.pendingLangModeChange = true) :
    ∃ cs, (k.setOpenclose zhconv env false value).changes = k.changes ++ cs ∧
      ∀ c ∈ cs, c.Attributed := by
  unfold setOpenclose
  split
  · exact ⟨[], (List.append_nil _).symm, nofun⟩
  · refine ⟨_, rfl, fun c hc => ?_⟩
    rw [List.mem_singleton.mp hc, Tip.onChange_of_expected env (.inl hpending)]
    exact ⟨nofun, fun _ => flips_of_eq.mpr rfl⟩

/-- `sync_keyboard_openclose(false)` changes the compartment only while the flag is
set; else it changes no more than the flag. -/
theorem syncKeyboardOpenclose_cases (env : Tip.CompartmentEnv) (k : Keyboard E) :
    (∃ pending, k.syncKeyboardOpenclose zhconv env
        = { k with tip := { k.tip with pendingLangModeChange := pending } }) ∨
      (k.tip.pendingLangModeChange = true ∧
        ∃ value, k.syncKeyboardOpenclose zhconv env
          = k.setOpenclose zhconv env false (some value)) := by
  unfold syncKeyboardOpenclose Tip.opencloseToSet
  cases hpending : k.tip.pendingLangModeChange with
  | false => exact .inl ⟨k.tip.pendingLangModeChange, rfl⟩
  | true =>
    cases k.tip.cfg.syncLangModeOpenclose with
    | false => exact .inl ⟨false, rfl⟩
    | true =>
      cases env.compartment with
      | false => exact .inl ⟨k.tip.pendingLangModeChange, rfl⟩
      | true =>
        cases env.setValue with
        | false => exact .inl ⟨k.tip.pendingLangModeChange, rfl⟩
        | true => exact .inr ⟨rfl, _, rfl⟩

theorem syncKeyboardOpenclose_changes (env : Tip.CompartmentEnv) (k : Keyboard E) :
    ∃ cs, (k.syncKeyboardOpenclose zhconv env).changes = k.changes ++ cs ∧
      ∀ c ∈ cs, c.Attributed := by
  obtain ⟨pending, heq⟩ | ⟨hpending, value, heq⟩ := syncKeyboardOpenclose_cases env k
  · rw [heq]
    exact ⟨[], (List.append_nil _).symm, nofun⟩
  · rw [heq]
    exact setOpenclose_own env (some value) hpending

/-- The service itself changes in the flag at most. -/
theorem syncKeyboardOpenclose_tip (zhconv : Str → Str) (env : Tip.CompartmentEnv)
    (k : Keyboard E) :
    ∃ pending, (k.syncKeyboardOpenclose zhconv env).tip
      = { k.tip with pendingLangModeChange := pending } := by
  obtain ⟨pending, heq⟩ | ⟨hpending, value, heq⟩ := syncKeyboardOpenclose_cases env k
  · exact ⟨pending, congrArg Keyboard.tip heq⟩
  · rw [heq]
    unfold setOpenclose
    split
    · exact ⟨k.tip.pendingLangModeChange, rfl⟩
    · exact ⟨false, Tip.onChange_of_expected env (.inl hpending)⟩

theorem thenSync_changes {α : Type} (env : Tip.CompartmentEnv) (r : Except Fault α × Tip E)
    (k : Keyboard E) :
    ∃ cs, (k.thenSync zhconv env r).changes = k.changes ++ cs ∧ ∀ c ∈ cs, c.Attributed := by
  unfold thenSync
  split
  · exact syncKeyboardOpenclose_changes env { k with tip := r.2 }
  · exact ⟨[], (List.append_nil _).symm, nofun⟩

/-- A change by the user is attributed to the user exactly if it is not mistaken. -/
theorem setOpenclose_user (env : Tip.CompartmentEnv) (value : Option Int) (k : Keyboard E) :
    ∃ cs, (k.setOpenclose zhconv env true value).changes = k.changes ++ cs ∧
      ((∀ c ∈ cs, c.Attributed) ↔ KeyboardCall.Unmistaken k (.change value env)) := by
  unfold setOpenclose KeyboardCall.Unmistaken
  by_cases hvalue : k.openclose = value
  · rw [if_pos hvalue]
    exact ⟨[], (List.append_nil _).symm, iff_of_true nofun fun hne => absurd hvalue hne⟩
  · rw [if_neg hvalue]
    refine ⟨_, rfl, ?_⟩
    rw [List.forall_mem_singleton]
    constructor
    · intro h _ hfocus
      cases hpending : k.tip.pendingLangModeChange with
      | false => rfl
      | true =>
        have hflips := h.user rfl hfocus
        rw [Tip.onChange_of_expected env (.inl hpending)] at hflips
        rw [flips_of_eq.mpr rfl] at hflips
        cases hflips
    · intro h
      refine ⟨fun _ hfocus => ?_, nofun⟩
      show (_ != _) = true
      rw [Tip.onChange_of_unexpected env (h hvalue hfocus) hfocus]
      cases k.tip.langMode.isDisabled <;> rfl

theorem setOpenclose_pending_iff (zhconv : Str → Str) (env : Tip.CompartmentEnv) (byUser : Bool)
    (value : Option Int) {k : Keyboard E} (hpending : k.tip.pendingLangModeChange = true) :
    (k.setOpenclose zhconv env byUser value).tip.pendingLangModeChange = true ↔
      k.openclose = value := by
  unfold setOpenclose
  split
  · next hvalue => exact iff_of_true hpending hvalue
  · next hvalue =>
    rw [Tip.onChange_of_expected env (.inl hpending)]
    exact iff_of_false Bool.false_ne_true hvalue

/-- After `sync_keyboard_openclose(false)` the flag is still set if it was, the
keyboard is synchronised, and the compartment was not changed: it could not be had
or set, or it held the value already. -/
theorem syncKeyboardOpenclose_pending_iff (env : Tip.CompartmentEnv) (k : Keyboard E) :
    (k.syncKeyboardOpenclose zhconv env).tip.pendingLangModeChange = true ↔
      k.tip.pendingLangModeChange = true ∧ k.tip.cfg.syncLangModeOpenclose = true ∧
        (env.compartment = true → env.setValue = true →
          k.openclose = some (if k.tip.langMode = .chinese then 1 else 0)) := by
  unfold syncKeyboardOpenclose Tip.opencloseToSet
  cases hpending : k.tip.pendingLangModeChange with
  | false => simp [hpending]
  | true =>
    cases hsync : k.tip.cfg.syncLangModeOpenclose with
    | false => simp
    | true =>
      cases hcompartment : env.compartment with
      | false => simp [hpending]
      | true =>
        cases hset : env.setValue with
        | false => simp [hpending]
        | true =>
          have hvalue := setOpenclose_pending_iff zhconv env false
            (some (if k.tip.langMode = .chinese then 1 else 0)) hpending
          simpa using hvalue

variable [KeyCodes]

/-- **One call** adds changes that are attributed to the one who made them, exactly
if the call is not a mistaken change. -/
theorem next_changes (zhconv : Str → Str) (k : Keyboard E) (c : KeyboardCall) :
    ∃ cs, (c.next zhconv k).changes = k.changes ++ cs ∧
      ((∀ c ∈ cs, c.Attributed) ↔ c.Unmistaken k) := by
  have hsync : ∀ {k' : Keyboard E},
      (∃ cs, k'.changes = k.changes ++ cs ∧ ∀ c ∈ cs, c.Attributed) →
      ∃ cs, k'.changes = k.changes ++ cs ∧ ((∀ c ∈ cs, c.Attributed) ↔ True) :=
    fun ⟨cs, heq, hcs⟩ => ⟨cs, heq, iff_of_true hcs trivial⟩
  have hnone : ∃ cs, k.changes = k.changes ++ cs ∧ ((∀ c ∈ cs, c.Attributed) ↔ True) :=
    ⟨[], (List.append_nil _).symm, iff_of_true nofun trivial⟩
  cases c with
  | change value env => exact setOpenclose_user env value k
  | testKeyDown env ev => exact hnone
  | keyDown env ev => exact hnone
  | testKeyUp env ev sync => exact hsync (thenSync_changes sync _ k)
  | keyUp env ev sync => exact hsync (thenSync_changes sync _ k)
  | command env id cmdType sync => exact hsync (syncKeyboardOpenclose_changes sync _)
  | setThreadFocus config mode sync => exact hsync (thenSync_changes sync _ k)
  | setFocus null context => exact hnone
  | compositionTerminated => exact hnone
  | session => exact hnone

/-- **Who toggles the keyboard.** In a run from activation, every change the user or
the application made while the service had the focus toggled the keyboard, and no
change the service made did, exactly if none of the former came while the service
was still waiting for a change of its own. -/
theorem attributed_iff_unmistaken {env : ActivateEnv} {editor : E} {document : Document}
    {grant : Grant} {openclose : Option Int} {cs : List KeyboardCall} {k : Keyboard E}
    (hrun : Run (KeyboardStep zhconv) (.activate env editor document grant openclose) cs k) :
    k.Attributed ↔ Run (Guarded (fun k c => c.Unmistaken k) (KeyboardStep zhconv))
      (.activate env editor document grant openclose) cs k := by
  have happend : ∀ {k : Keyboard E} {c : KeyboardCall},
      (c.next zhconv k).Attributed ↔ k.Attributed ∧ c.Unmistaken k := by
    intro k c
    obtain ⟨new, heq, hiff⟩ := next_changes zhconv k c
    unfold Attributed
    rw [heq, List.forall_mem_append, hiff]
  constructor
  · refine hrun.history (I := fun cs k => k.Attributed →
      Run (Guarded (fun k c => c.Unmistaken k) (KeyboardStep zhconv)) _ cs k) (fun _ => .refl _) ?_
    rintro cs k c k' ih rfl hattributed
    obtain ⟨hbefore, hunmistaken⟩ := happend.mp hattributed
    exact (ih hbefore).tail ⟨hunmistaken, rfl⟩
  · intro hguarded
    refine hguarded.invariant (I := Keyboard.Attributed) (fun c hc => absurd hc List.not_mem_nil) ?_
    rintro k c k' hk ⟨hunmistaken, rfl⟩
    exact happend.mpr ⟨hk, hunmistaken⟩

end Keyboard

end Toggling

open TypedEditor ScriptedEditor

/-- A key-up after activation clears the flag; the user then closes the keyboard. -/
theorem Keyboard.attributed_after_keyUp :
    (KeyboardCall.next id
      (KeyboardCall.next id (activated .default)
        (.testKeyUp keyupEnv (fun _ => plainKey ⟨0x61⟩) compartmentEnv))
      (.change (some 0) compartmentEnv)).Attributed := by
  have hkeyUp : KeyboardStep id (activated .default)
      (.testKeyUp keyupEnv (fun _ => plainKey ⟨0x61⟩) compartmentEnv) _ := rfl
  have hchange : KeyboardStep id (KeyboardCall.next id (activated .default)
      (.testKeyUp keyupEnv (fun _ => plainKey ⟨0x61⟩) compartmentEnv))
      (.change (some 0) compartmentEnv) _ := rfl
  refine (Keyboard.attributed_iff_unmistaken ((Run.single hkeyUp).tail hchange)).mpr
    ((Run.single ⟨trivial, hkeyUp⟩).tail ⟨fun _ _ => ?_, hchange⟩)
  decide +kernel

/-- The user closes the keyboard right after activation: nothing happens. -/
theorem Keyboard.first_change_ignored :
    ¬ ∀ (env : ActivateEnv) (editor : TypedEditor) (document : Document) (grant : Grant)
        (openclose : Option Int) (cs : List KeyboardCall) (k : Keyboard TypedEditor),
      Run (KeyboardStep id) (.activate env editor document grant openclose) cs k →
      k.Attributed := by
  intro hclaim
  have hchange : KeyboardStep id (activated .default) (.change (some 0) compartmentEnv) _ := rfl
  have hattributed := hclaim _ _ _ _ _ _ _ (.single hchange)
  exact absurd ((hattributed _ List.mem_cons_self).user rfl rfl) (by decide +kernel)

end ChewingTsf
