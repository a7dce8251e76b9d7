import ChewingTsf.Tip.KeyMessage

/-!
# Testing a key twice (tip/src/text_service/chewing.rs, `on_test_keydown`)

`on_test_keydown` decides on a key and moves the Shift state on, and it is called
again for the same key: by `on_keydown`, and by TSF while the key is held. What it
changes, it changes only once. Its verdict depends on one of these changes: the
key-down that begins a Shift tap is never claimed, but the same key-down tested
again, with the tap begun, goes through the rules for all other keys.
-/

namespace ChewingTsf

open ChewingEditor

section KeyTest

variable {E : Type} [ChewingEditor E] [Keysyms]

/-- A Shift key is neither CapsLock nor the space bar, and does not print. -/
def ShiftDoesNotPrint : Prop :=
  ∀ evt : KeyboardEvent, evt.isShift →
    evt.ksym ≠ Keysyms.symCapslock ∧ evt.ksym ≠ Keysyms.symSpace
      ∧ Keysyms.isUnicode evt.ksym = false ∧ Keysyms.isDigit evt.ksym = false

namespace Tip

variable {t : Tip E} {evt : KeyboardEvent}

/-! ## What a test changes -/

/-- The editor after a test: it is told the language mode. -/
def testedEditor (t : Tip E) : E :=
  setEditorOptions (fun opt => { opt with languageMode := t.langMode.toLanguageMode })
    t.chewingEditor

/-- The service after a test at time `now`, with the configuration unchanged. -/
def tested (now : Nat) (evt : KeyboardEvent) (t : Tip E) : Tip E :=
  { t with chewingEditor := t.testedEditor
           shiftKeyState := t.testedShiftKeyState now evt }

/-- A test returns the verdict on the state it leaves. -/
theorem onTestKeydown_verdict {env : TestEnv} {isContextMutable : Bool}
    (h : env.context.isMutable = some isContextMutable) (ev : Int → KeyboardEvent) (t : Tip E) :
    (t.onTestKeydown env ev).1
      = .ok ((t.onTestKeydown env ev).2.verdict (t.cfg.simulateEnglishLayout != 0)
          isContextMutable (t.BeginsTap (ev t.cfg.simulateEnglishLayout))
          (ev t.cfg.simulateEnglishLayout)) := by
  unfold onTestKeydown
  dsimp only
  rw [h]
  dsimp only
  rw [beforeVerdict_reload]
  rfl

/-- **One test**, with the configuration unchanged. -/
theorem onTestKeydown_tested {env : TestEnv} (h : ¬ t.Changed env.config)
    (ev : Int → KeyboardEvent) :
    t.onTestKeydown env ev
      = match env.context.isMutable with
        | none => (.error .error, { t with chewingEditor := t.testedEditor })
        | some isContextMutable =>
          let evt := ev t.cfg.simulateEnglishLayout
          (.ok (verdict (t.cfg.simulateEnglishLayout != 0) isContextMutable (t.BeginsTap evt) evt
            (t.tested env.now evt)), t.tested env.now evt) := by
  unfold onTestKeydown
  dsimp only
  cases env.context.isMutable with
  | none => rfl
  | some isContextMutable =>
    have hcfg : ¬ Changed env.config { t with chewingEditor := t.testedEditor } := h
    dsimp only
    rw [show setEditorOptions (fun opt => { opt with languageMode := t.langMode.toLanguageMode })
      t.chewingEditor = t.testedEditor from rfl, beforeVerdict_eq hcfg]
    rfl

/-! ## A second test -/

/-- A second test finds no tap to begin. -/
theorem beginsTap_tested (now : Nat) : (t.tested now evt).BeginsTap evt = false := by
  show (evt.isShift && t.cfg.switchLangWithShift && t.testedShiftKeyState now evt == .up) = false
  unfold testedShiftKeyState
  cases hbegins : t.BeginsTap evt with
  | true => simp
  | false =>
    rw [beginsTap_eq] at hbegins
    unfold consumedShiftKeyState
    cases hshift : evt.isShift with
    | true => simpa [hshift] using hbegins
    | false => rfl

/-- It leaves the Shift state as it is. -/
theorem testedShiftKeyState_tested (now now' : Nat) :
    (t.tested now evt).testedShiftKeyState now' evt = t.testedShiftKeyState now evt := by
  unfold testedShiftKeyState
  rw [beginsTap_tested]
  show (t.tested now evt).consumedShiftKeyState evt = _
  unfold consumedShiftKeyState
  by_cases hconsumed : (!evt.isShift && evt.isStateOn .shift) = true
  · -- not a Shift key: the first test has consumed the tap
    have hbegins : t.BeginsTap evt = false := by
      rw [Bool.and_eq_true, Bool.not_eq_true'] at hconsumed
      simp [beginsTap_eq, hconsumed.1]
    simp [hconsumed, hbegins]
  · rw [if_neg hconsumed, if_neg hconsumed]
    show t.testedShiftKeyState now evt = _
    rw [testedShiftKeyState, consumedShiftKeyState, if_neg hconsumed]

/-- It tells the editor the same language mode. -/
theorem options_testedEditor_tested (hoptions : SetsOptions E) (now : Nat) :
    editorOptions (t.tested now evt).testedEditor = editorOptions t.testedEditor := by
  show editorOptions (setEditorOptions _ t.testedEditor) = _
  rw [hoptions, testedEditor, hoptions]
  rfl

omit [Keysyms] in
/-- The character form does not depend on the language mode. -/
theorem characterForm_testedEditor (hoptions : SetsOptions E) (t : Tip E) :
    (editorOptions t.testedEditor).characterForm
      = (editorOptions t.chewingEditor).characterForm := by
  rw [testedEditor, hoptions]

/-- Of the editor, the verdict reads the character form only. -/
theorem verdict_congr {u : Tip E} {e : E} {state : ShiftKeyState}
    (simulate isMutable shiftDown : Bool)
    (hform : (editorOptions e).characterForm = (editorOptions u.chewingEditor).characterForm) :
    verdict simulate isMutable shiftDown evt { u with chewingEditor := e, shiftKeyState := state }
      = verdict simulate isMutable shiftDown evt u := by
  unfold verdict
  dsimp only
  rw [hform]
  rfl

/-- The verdict in the state a test leaves is the one in the state it finds. -/
theorem verdict_tested (hoptions : SetsOptions E) (simulate isMutable shiftDown : Bool)
    (now : Nat) :
    verdict simulate isMutable shiftDown evt (t.tested now evt)
      = verdict simulate isMutable shiftDown evt t :=
  verdict_congr simulate isMutable shiftDown (characterForm_testedEditor hoptions t)

/-- A key-down that begins a tap is never claimed. -/
theorem verdict_begins (simulate isMutable : Bool) (t : Tip E) :
    verdict simulate isMutable true evt t = false := by
  unfold verdict
  cases t.langMode.isDisabled with
  | true => rfl
  | false => rfl

/-! ## A Shift key that does not begin a tap -/

/-- What makes `on_test_keydown` claim a Shift key once the tap has begun: a
keybinding, or, in a mutable context and without Alt, something composed, or with
Ctrl the easy symbols. -/
def ClaimsShift (isContextMutable : Bool) (evt : KeyboardEvent) (t : Tip E) : Prop :=
  t.langMode.isDisabled = false ∧
    ((t.keybindings.any fun kb => kb.«matches» evt) = true ∨
      (isContextMutable = true ∧ evt.isStateOn .alt = false ∧
        if evt.isStateOn .control then
          evt.isStateOn .shift = true ∧ t.cfg.easySymbolsWithShiftCtrl = true
        else t.isComposing = true))

theorem verdict_shift_iff (hshift : ShiftDoesNotPrint) (h : evt.isShift = true)
    (simulate isMutable : Bool) (t : Tip E) :
    verdict simulate isMutable false evt t = true ↔ t.ClaimsShift isMutable evt := by
  obtain ⟨hcaps, hspace, hunicode, hdigit⟩ := hshift evt h
  unfold verdict ClaimsShift
  cases t.langMode.isDisabled with
  | true => simp
  | false =>
    cases t.keybindings.any fun kb => kb.«matches» evt with
    | true => simp
    | false =>
      cases isMutable with
      | false => simp [hcaps]
      | true =>
        cases evt.isStateOn .alt with
        | true => simp [hcaps]
        | false =>
          cases evt.isStateOn .control with
          | true => simp [hcaps, hdigit]
          | false =>
            cases t.isComposing with
            | true => simp [hcaps, hunicode]
            | false => simp [hcaps, hspace, hunicode]

/-! ## Idempotence -/

/-- The second of two tests agrees with the first, and changes nothing that the
first has left. -/
structure SameTest (first second : Except Fault Bool × Tip E) : Prop where
  verdict : second.1 = first.1
  langMode : second.2.langMode = first.2.langMode
  shiftKeyState : second.2.shiftKeyState = first.2.shiftKeyState
  options : editorOptions second.2.chewingEditor = editorOptions first.2.chewingEditor

/-- The key-down begins a tap although, once begun, it would be claimed. -/
def TapClaimed (env : TestEnv) (evt : KeyboardEvent) (t : Tip E) : Prop :=
  t.BeginsTap evt = true ∧ ∃ isContextMutable, env.context.isMutable = some isContextMutable
    ∧ t.ClaimsShift isContextMutable evt

/-- **Testing a key is idempotent** exactly when it does not begin a Shift tap that
would be claimed once begun. -/
theorem onTestKeydown_twice_iff (hoptions : SetsOptions E) (hshift : ShiftDoesNotPrint)
    {env env' : TestEnv} (hcontext : env'.context = env.context) (h : ¬ t.Changed env.config)
    (h' : ¬ t.Changed env'.config) (ev : Int → KeyboardEvent) :
    SameTest (t.onTestKeydown env ev) ((t.onTestKeydown env ev).2.onTestKeydown env' ev)
      ↔ ¬ t.TapClaimed env (ev t.cfg.simulateEnglishLayout) := by
  have heditor := characterForm_testedEditor hoptions t
  rw [onTestKeydown_tested h]
  cases hmutable : env.context.isMutable with
  | none =>
    -- both tests fail
    have h₁ : ¬ Changed env'.config { t with chewingEditor := t.testedEditor } := h'
    dsimp only
    rw [onTestKeydown_tested h₁, hcontext, hmutable]
    constructor
    · rintro - ⟨-, isMutable, hsome, -⟩
      rw [hmutable] at hsome
      cases hsome
    · intro _
      refine ⟨rfl, rfl, rfl, ?_⟩
      show editorOptions (setEditorOptions _ t.testedEditor) = _
      rw [hoptions, testedEditor, hoptions]
  | some isMutable =>
    generalize hevt : ev t.cfg.simulateEnglishLayout = evt
    have h₁ : ¬ (t.tested env.now evt).Changed env'.config := h'
    have hevt' : ev (t.tested env.now evt).cfg.simulateEnglishLayout = evt := hevt
    dsimp only
    rw [onTestKeydown_tested h₁, hcontext, hmutable, hevt']
    dsimp only
    rw [beginsTap_tested, verdict_tested hoptions, verdict_tested hoptions, verdict_tested hoptions]
    have hsame : SameTest
        (.ok (t.verdict (t.cfg.simulateEnglishLayout != 0) isMutable (t.BeginsTap evt) evt),
          t.tested env.now evt)
        (.ok (t.verdict (t.cfg.simulateEnglishLayout != 0) isMutable false evt),
          (t.tested env.now evt).tested env'.now evt)
        ↔ t.verdict (t.cfg.simulateEnglishLayout != 0) isMutable false evt
          = t.verdict (t.cfg.simulateEnglishLayout != 0) isMutable (t.BeginsTap evt) evt := by
      constructor
      · intro hsame
        exact Except.ok.inj hsame.verdict
      · intro hverdict
        exact ⟨congrArg Except.ok hverdict, rfl, testedShiftKeyState_tested env.now env'.now,
          options_testedEditor_tested hoptions env.now⟩
    refine Iff.trans hsame ?_
    have hclaimed : t.TapClaimed env evt
        ↔ t.BeginsTap evt = true ∧ t.ClaimsShift isMutable evt := by
      unfold TapClaimed
      rw [hmutable]
      simp
    rw [hclaimed]
    cases hbegins : t.BeginsTap evt with
    | false => simp
    | true =>
      have hkey : evt.isShift = true := by
        rw [beginsTap_eq] at hbegins
        simp only [Bool.and_eq_true] at hbegins
        exact hbegins.1.1
      rw [verdict_begins, ← verdict_shift_iff hshift hkey (t.cfg.simulateEnglishLayout != 0)]
      simp

end Tip

end KeyTest

section

open ScriptedEditor

theorem shiftDoesNotPrint_keysyms : ShiftDoesNotPrint := by
  intro evt h
  simp only [KeyboardEvent.isShift, Bool.or_eq_true, beq_iff_eq] at h
  rcases h with h | h
  · rw [h]
    decide
  · rw [h]
    decide

/-- The left Shift key. -/
def shiftKey : KeyboardEvent := plainKey Keysyms.symLeftshift

/-- Shift held while nothing is composed. -/
theorem Tip.onTestKeydown_twice_idle :
    SameTest ((Tip.fresh .queued).onTestKeydown testEnv fun _ => shiftKey)
      (((Tip.fresh .queued).onTestKeydown testEnv fun _ => shiftKey).2.onTestKeydown testEnv
        fun _ => shiftKey) := by
  have hkept : ¬ (Tip.fresh .queued).Changed testEnv.config := by
    rintro ⟨cfg, hreg, hne⟩
    exact hne (Except.ok.inj hreg).symm
  refine (onTestKeydown_twice_iff (fun _ _ => rfl) shiftDoesNotPrint_keysyms rfl hkept hkept
    fun _ => shiftKey).mpr ?_
  rintro ⟨-, isMutable, -, -, hkeybinding | ⟨-, -, hcomposing⟩⟩
  · exact absurd hkeybinding (by decide)
  · exact absurd hcomposing (by decide)

/-- Shift held while the candidate list is open: the first key-down goes to the
application, the repeated one is claimed. -/
theorem Tip.onTestKeydown_twice_differs :
    ¬ ∀ (t : Tip ScriptedEditor) (env env' : TestEnv) (ev : Int → KeyboardEvent),
      env'.context = env.context → env.config.fromReg = .ok t.cfg →
      env'.config.fromReg = .ok t.cfg →
      SameTest (t.onTestKeydown env ev) ((t.onTestKeydown env ev).2.onTestKeydown env' ev) := by
  intro hclaim
  have h := hclaim { Tip.fresh .queued with candidateList := some ⟨.default, false⟩ } testEnv
    testEnv (fun _ => shiftKey) rfl rfl rfl
  exact absurd h.verdict (by decide +kernel)

end

end ChewingTsf
