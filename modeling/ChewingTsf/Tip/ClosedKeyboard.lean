import ChewingTsf.Tip.KeyFilter
import ChewingTsf.Tip.Mirror
import ChewingTsf.Tip.Toggling

/-!
# Composing while the keyboard is closed

With the keyboard closed, `on_test_keydown` takes no key, so nothing should be left
to type at: no composition and no candidate list. `OnChange` closes the keyboard in
two ways. Unsynchronised (`on_compartment_change`), it ends the composition and
leaves the candidate list; synchronised (`on_compartment_change_ro`), it leaves
both. And the language can be switched while the keyboard is closed, which writes
what the editor still holds.

Sessions run at once here. Apart from a change that closes the keyboard and from
those switches, no call starts anything while the keyboard is closed
(`Tip.KeepsClosed`).
-/

namespace ChewingTsf

open ChewingEditor EditSession

section Closed

variable {E : Type}

namespace Tip

/-- While the keyboard is closed, nothing is composed. -/
def Silent (t : Tip E) : Prop := t.langMode.isDisabled = true → t.isComposing = false

/-- TSF runs every session at once. -/
structure AtOnce (t : Tip E) : Prop where
  grant : t.grant = .immediate
  queue : t.queue = []

/-- A method neither opens nor closes the keyboard, and starts nothing while it is
closed. -/
structure KeepsClosed (t u : Tip E) : Prop where
  disabled : u.langMode.isDisabled = t.langMode.isDisabled
  atOnce : t.AtOnce → u.AtOnce
  silent : t.AtOnce → t.langMode.isDisabled = true → t.isComposing = false →
    u.isComposing = false

theorem AtOnce.of_modeKept {t u : Tip E} (h : t.AtOnce) (hkept : ModeKept t u) : u.AtOnce :=
  ⟨hkept.grant.trans h.grant, (hkept.queue h.grant).trans h.queue⟩

namespace KeepsClosed

variable {t u v : Tip E}

theorem refl (t : Tip E) : KeepsClosed t t := ⟨rfl, id, fun _ _ h => h⟩

theorem trans (h : KeepsClosed t u) (h' : KeepsClosed u v) : KeepsClosed t v where
  disabled := h'.disabled.trans h.disabled
  atOnce hat := h'.atOnce (h.atOnce hat)
  silent hat hdisabled hsilent :=
    h'.silent (h.atOnce hat) (h.disabled.trans hdisabled) (h.silent hat hdisabled hsilent)

theorem of_modeKept (h : ModeKept t u) (hcomposing : u.isComposing = t.isComposing) :
    KeepsClosed t u where
  disabled := congrArg _ h.langMode
  atOnce hat := hat.of_modeKept h
  silent _ _ hsilent := hcomposing.trans hsilent

theorem invariant (h : KeepsClosed t u) (hat : t.AtOnce) (hsilent : t.Silent) : u.Silent :=
  fun hdisabled =>
    h.silent hat (h.disabled.symm.trans hdisabled) (hsilent (h.disabled.symm.trans hdisabled))

/-! ## The language mode -/

theorem syncLangMode (env : ModeEnv) (internal : Bool) (t : Tip E) :
    KeepsClosed t (t.syncLangMode env internal).2 := by
  have hdisabled := syncLangMode_isDisabled env internal t
  obtain ⟨langMode, heq, -⟩ := syncLangMode_eq env internal t
  rw [heq] at hdisabled ⊢
  exact ⟨hdisabled, fun hat => ⟨hat.grant, hat.queue⟩, fun _ _ hsilent => hsilent⟩

end KeepsClosed

variable {t : Tip E} {zhconv : Str → Str}

/-! ## The end of a composition -/

/-- `EndComposition` fills no cell. -/
theorem run_endComposition_none {σ : Store} {c d : CellId} (h : σ.compositions d = none) :
    (run σ (.endComposition c)).compositions d = none := by
  by_cases hcd : d = c
  · rw [← hcd]
    show (σ.settle d ((EndComposition.doEditSession .quiet).final
      (σ.session (σ.compositions d) none))).compositions d = none
    rw [h]
    exact Function.update_self _ _ _
  · have hne : (EditSession.endComposition c).compositionCell ≠ some d := fun heq =>
      hcd (Option.some.inj heq).symm
    rw [run_compositions_of_ne hne]
    exact h

/-- `end_composition` leaves the service with an empty cell. -/
theorem endComposition_cell (t : Tip E) :
    t.endComposition.store.compositions t.endComposition.composition = none := by
  have hnew : (t.store.setComposition t.nextCell none).compositions t.nextCell = none :=
    Function.update_self _ _ _
  unfold endComposition requestEditSession
  split
  · exact hnew
  · exact run_endComposition_none hnew

theorem endComposition_candidateList (t : Tip E) :
    t.endComposition.candidateList = t.candidateList := by
  unfold endComposition
  rw [requestEditSession_service]

/-- Only the candidate list still counts as composing. -/
theorem isComposing_endComposition (t : Tip E) :
    t.endComposition.isComposing = t.candidateList.isSome := by
  unfold isComposing
  rw [endComposition_cell, endComposition_candidateList]
  rfl

theorem candidateList_of_not_composing (h : t.isComposing = false) : t.candidateList = none :=
  Option.not_isSome_iff_eq_none.mp
    (Bool.eq_false_iff.mp (Bool.or_eq_false_iff.mp h).2)

/-! ## Switching the language -/

section Switch

variable [ChewingEditor E]

/-- While the keyboard is closed, a switch of the language finds nothing to
write. -/
def SwitchesSilently (env : ModeEnv) (t : Tip E) : Prop :=
  t.langMode.isDisabled = true → env.buttons = true → env.context = true →
    preedit (clearSyllableEditor t.chewingEditor) = []

omit [ChewingEditor E] in
theorem keepsClosed_toggled (env : ModeEnv) (t : Tip E) :
    KeepsClosed t ({ t with langMode := t.langMode.toggled }.syncLangMode env true).2 := by
  refine KeepsClosed.trans ?_ (.syncLangMode env true _)
  refine ⟨?_, fun hat => ⟨hat.grant, hat.queue⟩, fun _ _ hsilent => hsilent⟩
  show t.langMode.toggled.isDisabled = t.langMode.isDisabled
  cases t.langMode <;> rfl

/-- With nothing to write, `update_preedit` starts no composition. -/
theorem updatePreedit_silent (hpreedit : preedit t.chewingEditor = [])
    (hsilent : t.isComposing = false) : (t.updatePreedit zhconv []).isComposing = false := by
  have hlist := candidateList_of_not_composing hsilent
  have hends : ¬ t.Continues := by simp [Continues, hpreedit, hlist]
  rw [updatePreedit_of_idle hends hsilent, isComposing_endComposition, hlist]
  rfl

/-- **A switch of the language** starts nothing that is not there to write. -/
theorem KeepsClosed.toggleLangMode (zhconv : Str → Str) {env : ModeEnv}
    (h : t.SwitchesSilently env) :
    KeepsClosed t (t.toggleLangMode zhconv env).2 := by
  have htoggled := keepsClosed_toggled env t
  rcases toggleLangMode_eq zhconv env t with ⟨⟨hbuttons, hcontext, -⟩, heq⟩ | heq
  · have hinput : KeepsClosed t (t.toggleInput env) :=
      ⟨htoggled.disabled, fun hat => ⟨(htoggled.atOnce hat).1, (htoggled.atOnce hat).2⟩,
        htoggled.silent⟩
    have hkept := ModeKept.updatePreedit (t.toggleInput env) zhconv []
    have heditor : (t.toggleInput env).chewingEditor = clearSyllableEditor t.chewingEditor := by
      obtain ⟨langMode, hsync, -⟩ :=
        syncLangMode_eq env true { t with langMode := t.langMode.toggled }
      unfold toggleInput
      rw [hsync]
    rw [heq]
    refine ⟨(congrArg _ hkept.langMode).trans hinput.disabled,
      fun hat => (hinput.atOnce hat).of_modeKept hkept, fun hat hdisabled hsilent => ?_⟩
    refine updatePreedit_silent ?_ (hinput.silent hat hdisabled hsilent)
    rw [heditor]
    exact h hdisabled hbuttons hcontext
  · rw [heq]
    exact htoggled

end Switch

/-! ## Keys -/

section Keys

variable [ChewingEditor E] [Keysyms]

theorem isComposing_onTestKeydown (env : TestEnv) (ev : Int → KeyboardEvent) (t : Tip E) :
    (t.onTestKeydown env ev).2.isComposing = t.isComposing := by
  obtain ⟨editor, -, heq | ⟨state, _, _, _, _, u, rfl, heq⟩⟩ := onTestKeydown_cases env ev t
  · rw [heq]
    rfl
  · rw [heq]
    exact (applyConfigIfChanged_frame env.config _).2.1

/-- While the keyboard is closed, no key passes the test. -/
theorem onTestKeydown_closed (env : TestEnv) (ev : Int → KeyboardEvent)
    (h : t.langMode.isDisabled = true) : (t.onTestKeydown env ev).1 ≠ .ok true := by
  have hkept := (ModeKept.onTestKeydown t env ev).langMode
  obtain ⟨editor, -, heq | ⟨state, _, _, _, _, u, rfl, heq⟩⟩ := onTestKeydown_cases env ev t
  · rw [heq]
    exact nofun
  · rw [heq] at hkept ⊢
    intro htaken
    dsimp only at hkept htaken
    rw [verdict, hkept, h] at htaken
    cases htaken

theorem KeepsClosed.onTestKeydown (env : TestEnv) (ev : Int → KeyboardEvent) (t : Tip E) :
    KeepsClosed t (t.onTestKeydown env ev).2 :=
  .of_modeKept (.onTestKeydown t env ev) (isComposing_onTestKeydown env ev t)

/-- This key-up ends a tap of Shift that switches the language. -/
def SwitchesByShift (env : KeyupEnv) (evt : KeyboardEvent) (t : Tip E) : Prop :=
  (evt.ksym = Keysyms.symLeftshift ∨ evt.ksym = Keysyms.symRightshift) ∧
    ((t.shiftKeyState.release env.now).1.any fun d => d < i32AsU64 t.cfg.shiftKeySensitivity)
        = true ∧
    t.cfg.switchLangWithShift = true ∧ t.cfg.enableCapsLock = false

theorem KeepsClosed.shiftUp (zhconv : Str → Str) {env : KeyupEnv} {evt : KeyboardEvent}
    (h : t.SwitchesByShift env evt → t.SwitchesSilently env.mode) :
    KeepsClosed t (t.shiftUp zhconv env evt).2 := by
  unfold Tip.shiftUp
  split
  · next hshift =>
    have hreleased : ∀ state : ShiftKeyState, KeepsClosed t { t with shiftKeyState := state } :=
      fun state => ⟨rfl, fun hat => ⟨hat.grant, hat.queue⟩, fun _ _ hsilent => hsilent⟩
    dsimp only
    split
    · next htap =>
      split
      · exact hreleased _
      · next hcaps =>
        have hsilently := h ⟨hshift, htap.1, htap.2, Bool.eq_false_iff.mpr hcaps⟩
        have htoggle := KeepsClosed.toggleLangMode zhconv
          (t := { t with shiftKeyState := (t.shiftKeyState.release env.now).2 }) hsilently
        have hall := (hreleased (t.shiftKeyState.release env.now).2).trans htoggle
        split
        · next u hu =>
          rw [hu] at hall
          exact hall
        · next u hu =>
          rw [hu] at hall
          exact hall
    · exact hreleased _
  · exact .refl t

omit [ChewingEditor E] in
theorem KeepsClosed.capsUp (env : KeyupEnv) (evt : KeyboardEvent) (t : Tip E) :
    KeepsClosed t (t.capsUp env evt).2 := by
  unfold Tip.capsUp
  split
  · have hsync := KeepsClosed.syncLangMode env.mode true t
    split
    · next u hu =>
      rw [hu] at hsync
      exact hsync
    · next u hu =>
      rw [hu] at hsync
      exact hsync
  · exact .refl t

theorem KeepsClosed.onKeyup {env : KeyupEnv} {ev : Int → KeyboardEvent}
    (h : t.SwitchesByShift env (ev t.cfg.simulateEnglishLayout) → t.SwitchesSilently env.mode) :
    KeepsClosed t (t.onKeyup zhconv env ev).2 := by
  have hshift := KeepsClosed.shiftUp zhconv h
  unfold Tip.onKeyup
  dsimp only
  split
  · next u hu =>
    rw [hu] at hshift
    exact hshift
  · next u hu =>
    rw [hu] at hshift
    have hall := hshift.trans (.capsUp env (ev t.cfg.simulateEnglishLayout) u)
    split
    · next v hv =>
      rw [hv] at hall
      exact hall
    · next v hv =>
      rw [hv] at hall
      exact hall

/-- `on_test_keyup` passes over key-ups while the keyboard is closed. -/
theorem KeepsClosed.onTestKeyup (env : KeyupEnv) (ev : Int → KeyboardEvent) (t : Tip E) :
    KeepsClosed t (t.onTestKeyup zhconv env ev).2 := by
  unfold Tip.onTestKeyup
  split
  · exact .refl t
  · next hopen => exact .onKeyup fun _ hdisabled => absurd hdisabled hopen

theorem KeepsClosed.onThreadFocus (config : ConfigEnv) (mode : ModeEnv) (t : Tip E) :
    KeepsClosed t (t.onThreadFocus config mode).2 := by
  obtain ⟨cfg, -, heq⟩ := onThreadFocus_eq config mode t
  have hreload : KeepsClosed t (applyRuntimeConfig config { t with cfg := cfg }).2 := by
    obtain ⟨kbtype, editor, keybindings, hruntime⟩ :=
      applyRuntimeConfig_eq config { t with cfg := cfg }
    rw [hruntime]
    exact ⟨rfl, fun hat => ⟨hat.grant, hat.queue⟩, fun _ _ hsilent => hsilent⟩
  rw [heq]
  split
  · next u hu =>
    rw [hu] at hreload
    exact hreload
  · next u hu =>
    rw [hu] at hreload
    exact hreload.trans (.syncLangMode mode true u)

end Keys

/-! ## Focus and termination -/

theorem KeepsClosed.onKillFocus (context : Bool) (t : Tip E) :
    KeepsClosed t (t.onKillFocus context) := by
  have hkept : ModeKept t (t.onKillFocus context) := by
    unfold Tip.onKillFocus
    dsimp only
    split
    · have hblur : ModeKept t { t with hasFocus := false } := ⟨rfl, rfl, fun _ => rfl⟩
      have hended := hblur.trans (.endComposition _)
      exact ⟨hended.langMode, hended.grant, hended.queue⟩
    · exact ⟨rfl, rfl, fun _ => rfl⟩
  refine ⟨congrArg _ hkept.langMode, fun hat => hat.of_modeKept hkept, fun _ _ hsilent => ?_⟩
  have hskip : (({ t with hasFocus := false } : Tip E).isComposing && context) = false := by
    rw [show ({ t with hasFocus := false } : Tip E).isComposing = t.isComposing from rfl, hsilent]
    rfl
  unfold Tip.onKillFocus
  dsimp only
  rw [hskip, if_neg Bool.false_ne_true]
  exact (Bool.or_false _).trans (Bool.or_eq_false_iff.mp hsilent).1

theorem KeepsClosed.onFocus (t : Tip E) : KeepsClosed t t.onFocus :=
  ⟨rfl, fun hat => ⟨hat.grant, hat.queue⟩, fun _ _ hsilent => hsilent⟩

theorem KeepsClosed.onCompositionTerminatedTail [ChewingEditor E] (t : Tip E) :
    KeepsClosed t t.onCompositionTerminatedTail := by
  refine ⟨rfl, fun hat => ⟨hat.grant, hat.queue⟩, fun _ _ _ => ?_⟩
  unfold isComposing
  rw [show t.onCompositionTerminatedTail.store.compositions
    t.onCompositionTerminatedTail.composition = none from Function.update_self _ _ _]
  rfl

theorem KeepsClosed.runSession (t : Tip E) : KeepsClosed t t.runSession := by
  have hnone : t.AtOnce → t.runSession = t := fun hat => runSession_nil hat.queue
  refine ⟨congrArg (fun s => s.langMode.isDisabled) (runSession_service t),
    fun hat => (hnone hat).symm ▸ hat, fun hat _ hsilent => ?_⟩
  rw [hnone hat]
  exact hsilent

/-! ## `on_keydown` and commands -/

section Commands

variable [EditorCommands E]

theorem KeepsClosed.onKeydown [KeyCodes] (env : KeydownEnv) (ev : Int → KeyboardEvent)
    (t : Tip E) : KeepsClosed t (t.onKeydown zhconv env ev).2 := by
  have hkept := ModeKept.onKeydown zhconv env ev t
  refine ⟨congrArg _ hkept.langMode, fun hat => hat.of_modeKept hkept,
    fun _ hdisabled hsilent => ?_⟩
  have htest : (t.onKeydown zhconv env ev).2 = (t.onTestKeydown env.test ev).2 := by
    have hclosed := onTestKeydown_closed env.test ev hdisabled
    unfold Tip.onKeydown
    split
    · next u hu => rw [hu]
    · next u hu => rw [hu]
    · next u hu =>
      rw [hu] at hclosed
      exact absurd rfl hclosed
  rw [htest, isComposing_onTestKeydown]
  exact hsilent

omit [EditorCommands E] in
/-- The item that a command comes to. -/
def commandItem (env : CommandEnv) (id : UInt32) (cmdType : CommandType) : Option UInt32 :=
  match cmdType with
  | .rightClick => if id = ID_MODE_ICON ∧ env.popup ≠ 0 then some env.popup else none
  | .leftClick | .menu => some id

theorem onCommand_eq (env : CommandEnv) (id : UInt32) (cmdType : CommandType) (t : Tip E) :
    t.onCommand zhconv env id cmdType =
      match commandItem env id cmdType with
      | none => t
      | some item => t.menuCommand zhconv env.mode item := by
  unfold onCommand commandItem
  cases cmdType with
  | leftClick => rfl
  | menu => rfl
  | rightClick =>
    dsimp only
    split <;> rfl

omit [EditorCommands E] in
/-- This command switches the language. -/
def SwitchesByCommand (env : CommandEnv) (id : UInt32) (cmdType : CommandType) : Prop :=
  commandItem env id cmdType = some ID_SWITCH_LANG ∨
    commandItem env id cmdType = some ID_MODE_ICON

theorem KeepsClosed.onCommand {env : CommandEnv} {id : UInt32} {cmdType : CommandType}
    (h : SwitchesByCommand env id cmdType → t.SwitchesSilently env.mode) :
    KeepsClosed t (t.onCommand zhconv env id cmdType) := by
  rw [onCommand_eq]
  unfold SwitchesByCommand at h
  cases hitem : commandItem env id cmdType with
  | none => exact .refl t
  | some item =>
    rw [hitem] at h
    show KeepsClosed t (t.menuCommand zhconv env.mode item)
    unfold menuCommand
    split
    · next hswitch =>
      exact .toggleLangMode zhconv (h (hswitch.imp (congrArg some) (congrArg some)))
    · split
      · exact ⟨rfl, fun hat => ⟨hat.grant, hat.queue⟩, fun _ _ hsilent => hsilent⟩
      · split
        · exact ⟨rfl, fun hat => ⟨hat.grant, hat.queue⟩, fun _ _ hsilent => hsilent⟩
        · exact .refl t

/-! ## Closing the keyboard -/

/-- This change, if it closes the keyboard, leaves nothing composed: nothing was, or
the keyboard is not synchronised, no candidate list is shown, the buttons can be
updated and the context is found. -/
def ClosesSilently (env : CompartmentEnv) (t : Tip E) : Prop :=
  t.isComposing = false ∨
    t.cfg.syncLangModeOpenclose = false ∧ t.candidateList = none ∧
      env.mode.buttons = true ∧ env.mode.context = true

theorem isComposing_commitComposition
    (hcommit : ∀ e : E, (EditorCommands.commit e).2 = true) (context : Bool) (t : Tip E) :
    (t.commitComposition zhconv context).2.isComposing
      = if context then t.candidateList.isSome else t.isComposing := by
  unfold commitComposition
  dsimp only
  rw [hcommit, if_pos rfl]
  cases context with
  | false => rfl
  | true =>
    rw [if_pos rfl, if_pos rfl]
    dsimp only
    rw [isComposing_endComposition, setCompositionString_candidateList]

omit [EditorCommands E] in
/-- The language mode is all that `sync_lang_mode` changes for the composition. -/
theorem syncLangMode_switched (env : ModeEnv) (t : Tip E) :
    (t.switchedOpenclose.syncLangMode env false).2.isComposing = t.isComposing ∧
      (t.switchedOpenclose.syncLangMode env false).2.candidateList = t.candidateList ∧
      (t.switchedOpenclose.syncLangMode env false).2.langMode.isDisabled
        = !t.langMode.isDisabled := by
  have hdisabled := syncLangMode_isDisabled env false t.switchedOpenclose
  obtain ⟨langMode, heq, -⟩ := syncLangMode_eq env false t.switchedOpenclose
  rw [heq] at hdisabled ⊢
  exact ⟨rfl, rfl, hdisabled.trans (TsfLangMode.isDisabled_openclosed t.langMode)⟩

/-- **What a closing change leaves**: an open keyboard that is closed is left silent
exactly if the change meets `ClosesSilently`. -/
theorem onChange_silent_iff (hcommit : ∀ e : E, (EditorCommands.commit e).2 = true)
    (env : CompartmentEnv) (hpending : t.pendingLangModeChange = false)
    (hfocus : t.hasFocus = true) (hopen : t.langMode.isDisabled = false) :
    (t.onChange zhconv env true).2.isComposing = false ↔ t.ClosesSilently env := by
  obtain ⟨hcomposing, hlist, hdisabled⟩ := syncLangMode_switched env.mode t
  rw [hopen] at hdisabled
  unfold ClosesSilently
  by_cases hsync : t.cfg.syncLangModeOpenclose = true
  · rw [onChange_of_sync env hsync hpending hfocus, hcomposing, hsync]
    simp
  · rw [Bool.not_eq_true] at hsync
    have hbuttons : (t.switchedOpenclose.syncLangMode env.mode false).1
        = if env.mode.buttons then .ok () else .error .error := rfl
    rw [onChange, if_neg (by simp [hsync]), onCompartmentChange_of_unexpected env.mode hpending
      hfocus, hsync]
    rcases hs : t.switchedOpenclose.syncLangMode env.mode false with ⟨r, u⟩
    rw [hs] at hcomposing hlist hdisabled hbuttons
    dsimp only at hcomposing hlist hdisabled hbuttons ⊢
    rw [← hcomposing, ← hlist]
    cases hb : env.mode.buttons with
    | false =>
      -- the language bar fails, and the composition is not committed
      rw [hb, if_neg Bool.false_ne_true] at hbuttons
      subst hbuttons
      simp
    | true =>
      rw [hb, if_pos rfl] at hbuttons
      subst hbuttons
      dsimp only
      rw [hdisabled]
      cases hu : u.isComposing with
      | false => simp [hu]
      | true =>
        rw [Bool.not_false, Bool.and_self, if_pos rfl, isComposing_commitComposition hcommit]
        cases env.mode.context with
        | false => simp [hu]
        | true => simp

theorem AtOnce.onChange (h : t.AtOnce) (env : CompartmentEnv) :
    (t.onChange zhconv env true).2.AtOnce := by
  by_cases hexpected : t.pendingLangModeChange = true ∨ t.hasFocus = false
  · rw [onChange_of_expected env hexpected]
    exact ⟨h.grant, h.queue⟩
  · rw [not_or, Bool.not_eq_true, Bool.not_eq_false] at hexpected
    obtain ⟨hpending, hfocus⟩ := hexpected
    have hswitched : (t.switchedOpenclose.syncLangMode env.mode false).2.AtOnce := by
      refine (KeepsClosed.syncLangMode env.mode false t.switchedOpenclose).atOnce ?_
      exact ⟨h.grant, h.queue⟩
    by_cases hsync : t.cfg.syncLangModeOpenclose = true
    · rw [onChange_of_sync env hsync hpending hfocus]
      exact hswitched
    · rw [Tip.onChange, if_neg hsync, onCompartmentChange_of_unexpected env.mode hpending hfocus]
      split
      · next u hu =>
        rw [hu] at hswitched
        exact hswitched
      · next u hu =>
        rw [hu] at hswitched
        split
        · exact hswitched.of_modeKept (.commitComposition zhconv env.mode.context u)
        · exact hswitched

end Commands

end Tip

/-! ## Runs -/

/-- The call leaves nothing composed in a closed keyboard: a change that closes it
meets `ClosesSilently`, and a switch of the language while it is closed finds
nothing to write. -/
def KeyboardCall.Silences [ChewingEditor E] [Keysyms] (k : Keyboard E) : KeyboardCall → Prop
  | .change value env => k.openclose ≠ value → k.tip.pendingLangModeChange = false →
    k.tip.hasFocus = true → k.tip.langMode.isDisabled = false → k.tip.ClosesSilently env
  | .keyUp env ev _ =>
    k.tip.SwitchesByShift env (ev k.tip.cfg.simulateEnglishLayout) →
      k.tip.SwitchesSilently env.mode
  | .command env id cmdType _ =>
    Tip.SwitchesByCommand env id cmdType → k.tip.SwitchesSilently env.mode
  | _ => True

namespace Keyboard

variable [EditorCommands E] {zhconv : Str → Str} {k : Keyboard E}

/-- Sessions run at once, and a closed keyboard has nothing composed. -/
structure Quiet (k : Keyboard E) : Prop where
  atOnce : k.tip.AtOnce
  silent : k.tip.Silent

omit [EditorCommands E] in
theorem Quiet.keeps (h : k.Quiet) {t : Tip E} (hkeeps : k.tip.KeepsClosed t) :
    Quiet { k with tip := t } :=
  ⟨hkeeps.atOnce h.atOnce, hkeeps.invariant h.atOnce h.silent⟩

theorem Quiet.syncKeyboardOpenclose (h : k.Quiet) (env : Tip.CompartmentEnv) :
    (k.syncKeyboardOpenclose zhconv env).Quiet := by
  obtain ⟨pending, htip⟩ := syncKeyboardOpenclose_tip zhconv env k
  constructor
  · rw [htip]
    exact ⟨h.atOnce.grant, h.atOnce.queue⟩
  · rw [htip]
    exact h.silent

theorem Quiet.thenSync {α : Type} (h : k.Quiet) (env : Tip.CompartmentEnv)
    {r : Except Fault α × Tip E} (hkeeps : k.tip.KeepsClosed r.2) :
    (k.thenSync zhconv env r).Quiet := by
  unfold Keyboard.thenSync
  split
  · exact (h.keeps hkeeps).syncKeyboardOpenclose env
  · exact h.keeps hkeeps

theorem Quiet.setOpenclose [Keysyms] (hcommit : ∀ e : E, (EditorCommands.commit e).2 = true)
    (h : k.Quiet) {env : Tip.CompartmentEnv} {value : Option Int}
    (hsilences : KeyboardCall.Silences k (.change value env)) :
    (k.setOpenclose zhconv env true value).Quiet := by
  unfold Keyboard.setOpenclose
  split
  · exact h
  · next hvalue =>
    refine ⟨h.atOnce.onChange env, ?_⟩
    by_cases hexpected : k.tip.pendingLangModeChange = true ∨ k.tip.hasFocus = false
    · rw [Tip.onChange_of_expected env hexpected]
      exact h.silent
    · rw [not_or, Bool.not_eq_true, Bool.not_eq_false] at hexpected
      obtain ⟨hpending, hfocus⟩ := hexpected
      intro hdisabled
      replace hdisabled : (k.tip.onChange zhconv env true).2.langMode.isDisabled = true := hdisabled
      rw [Tip.onChange_of_unexpected env hpending hfocus, Bool.not_eq_true'] at hdisabled
      exact (Tip.onChange_silent_iff hcommit env hpending hfocus hdisabled).mpr
        (hsilences hvalue hpending hfocus hdisabled)

variable [KeyCodes]

/-- **One call.** -/
theorem Quiet.next (hcommit : ∀ e : E, (EditorCommands.commit e).2 = true) (h : k.Quiet)
    {c : KeyboardCall} (hsilences : c.Silences k) : (c.next zhconv k).Quiet := by
  cases c with
  | change value env => exact h.setOpenclose hcommit hsilences
  | testKeyDown env ev => exact h.keeps (.onTestKeydown env ev k.tip)
  | keyDown env ev => exact h.keeps (.onKeydown env ev k.tip)
  | testKeyUp env ev sync => exact h.thenSync sync (.onTestKeyup env ev k.tip)
  | keyUp env ev sync => exact h.thenSync sync (.onKeyup hsilences)
  | command env id cmdType sync => exact (h.keeps (.onCommand hsilences)).syncKeyboardOpenclose sync
  | setThreadFocus config mode sync => exact h.thenSync sync (.onThreadFocus config mode k.tip)
  | setFocus null context =>
    refine h.keeps ?_
    cases null with
    | true => exact .onKillFocus context k.tip
    | false => exact .onFocus k.tip
  | compositionTerminated => exact h.keeps (.onCompositionTerminatedTail k.tip)
  | session => exact h.keeps (.runSession k.tip)

theorem quiet_activate (env : ActivateEnv) (editor : E) (document : Document)
    (openclose : Option Int) : (activate env editor document .immediate openclose).Quiet := by
  have hruntime : ∀ t : Tip E, t.AtOnce → t.isComposing = false →
      (t.applyRuntimeConfig env.config).2.AtOnce ∧
        (t.applyRuntimeConfig env.config).2.isComposing = false := by
    intro t hat hsilent
    obtain ⟨kbtype, editor, keybindings, heq⟩ := Tip.applyRuntimeConfig_eq env.config t
    rw [heq]
    exact ⟨⟨hat.grant, hat.queue⟩, hsilent⟩
  have hinit : ∀ t : Tip E, t.AtOnce → t.isComposing = false →
      (t.initChewingContext env.config env.mode).2.AtOnce ∧
        (t.initChewingContext env.config env.mode).2.isComposing = false := by
    intro t hat hsilent
    have happly : (t.applyInitConfig env.config).2.AtOnce ∧
        (t.applyInitConfig env.config).2.isComposing = false :=
      hruntime _ ⟨hat.grant, hat.queue⟩ hsilent
    unfold Tip.initChewingContext
    split
    · next u hu =>
      rw [hu] at happly
      exact happly
    · next u hu =>
      rw [hu] at happly
      obtain ⟨langMode, heq, -⟩ := Tip.syncLangMode_eq env.mode true u
      rw [heq]
      exact ⟨⟨happly.1.grant, happly.1.queue⟩, happly.2⟩
  obtain ⟨hat, hsilent⟩ := hinit (.new env.config.fromReg editor document .immediate)
    ⟨rfl, rfl⟩ rfl
  exact ⟨hat, fun _ => hsilent⟩

/-- **A closed keyboard is silent.** With sessions that run at once and an editor
whose `commit` succeeds, nothing is composed in a closed keyboard after any run from
activation whose calls meet `KeyboardCall.Silences`. -/
theorem silent_of_silences (hcommit : ∀ e : E, (EditorCommands.commit e).2 = true)
    {env : ActivateEnv} {editor : E} {document : Document} {openclose : Option Int}
    {cs : List KeyboardCall}
    (hrun : Run (Guarded (fun k c => c.Silences k) (KeyboardStep zhconv))
      (.activate env editor document .immediate openclose) cs k) : k.tip.Silent := by
  have hquiet : k.Quiet := by
    refine hrun.invariant (quiet_activate env editor document openclose) ?_
    rintro k c k' hk ⟨hsilences, rfl⟩
    exact hk.next hcommit hsilences
  exact hquiet.silent

end Keyboard

end Closed

open TypedEditor ScriptedEditor

/-- The letter `a`. -/
def TypedEditor.letterDown (cfg : ChewingTsfConfig) : KeyboardCall :=
  .keyDown (keydownEnv cfg) fun _ => plainKey ⟨0x61⟩

/-- A bopomofo has been typed after the first key-up. -/
def TypedEditor.typing : Keyboard TypedEditor :=
  (letterDown .default).next id
    (KeyboardCall.next id (activated .default)
      (.testKeyUp keyupEnv (fun _ => plainKey ⟨0x61⟩) compartmentEnv))

/-- Closing the keyboard ends the composition, with no candidate list shown. -/
theorem Keyboard.silent_after_close :
    (KeyboardCall.next id typing (.change (some 0) compartmentEnv)).tip.Silent := by
  have hkeyUp : Guarded (fun k c => KeyboardCall.Silences k c) (KeyboardStep id)
      (activated .default)
      (.testKeyUp keyupEnv (fun _ => plainKey ⟨0x61⟩) compartmentEnv) _ := ⟨trivial, rfl⟩
  have hkeyDown : Guarded (fun k c => KeyboardCall.Silences k c) (KeyboardStep id) _
      (letterDown .default) typing := ⟨trivial, rfl⟩
  have hchange : Guarded (fun k c => KeyboardCall.Silences k c) (KeyboardStep id) typing
      (.change (some 0) compartmentEnv) _ :=
    ⟨fun _ _ _ _ => .inr ⟨by decide +kernel, by decide +kernel, rfl, rfl⟩, rfl⟩
  exact Keyboard.silent_of_silences (fun _ => rfl)
    (((Run.single hkeyUp).tail hkeyDown).tail hchange)

/-- The configuration with the keyboard synchronised. -/
def TypedEditor.synchronised : ChewingTsfConfig :=
  { ChewingTsfConfig.default with syncLangModeOpenclose := true }

/-- A bopomofo is typed in a synchronised keyboard, the first change after activation
is ignored, and the second one closes the keyboard: the composition stays. -/
theorem Keyboard.closed_while_composing :
    ¬ ∀ (env : ActivateEnv) (editor : TypedEditor) (document : Document) (openclose : Option Int)
        (cs : List KeyboardCall) (k : Keyboard TypedEditor),
      Run (KeyboardStep id) (.activate env editor document .immediate openclose) cs k →
      k.tip.Silent := by
  intro hclaim
  have hkeyDown : KeyboardStep id (activated synchronised) (letterDown synchronised) _ := rfl
  have hfirst : KeyboardStep id (KeyboardCall.next id (activated synchronised)
    (letterDown synchronised)) (.change (some 0) compartmentEnv) _ := rfl
  have hsecond : KeyboardStep id (KeyboardCall.next id (KeyboardCall.next id
    (activated synchronised) (letterDown synchronised)) (.change (some 0) compartmentEnv))
    (.change (some 1) compartmentEnv) _ := rfl
  have hsilent := hclaim _ _ _ _ _ _ (((Run.single hkeyDown).tail hfirst).tail hsecond)
  exact absurd (hsilent (by decide +kernel)) (by decide +kernel)

end ChewingTsf
