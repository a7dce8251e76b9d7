import ChewingTsf.Tip.ClosedKeyboard
import ChewingTsf.Tip.KeyTest

/-!
# The Shift tap

Shift, pressed and released on its own within `shift_key_sensitivity`, switches
between Chinese and English. `EndsTap` says from the keys alone when a key-up ends
such a tap; the service knows of the keys what `shift_key_state` remembers, which
`on_test_keydown` moves on also while the keyboard is closed. `on_test_keyup` does not:
a Shift key-up that finds the keyboard closed is passed over, and the tracker still
holds the key-down before it when the keyboard is open again.
-/

namespace ChewingTsf

open ChewingEditor

/-! ## Taps in a sequence of keys -/

/-- What happens at the keyboard, with the time in milliseconds. -/
inductive TapEvent where
  | keyDown (now : Nat) (evt : KeyboardEvent)
  | keyUp (now : Nat) (evt : KeyboardEvent)
  /-- the keyboard is opened or closed -/
  | openclose

section Taps

variable [Keysyms]

theorem KeyboardEvent.isShift_iff {evt : KeyboardEvent} :
    evt.isShift = true ↔ evt.ksym = Keysyms.symLeftshift ∨ evt.ksym = Keysyms.symRightshift := by
  simp [KeyboardEvent.isShift]

namespace TapEvent

def isShiftUp : TapEvent → Bool
  | keyUp _ evt => evt.isShift
  | _ => false

/-- The time of a Shift key-down. -/
def shiftDown? : TapEvent → Option Nat
  | keyDown now evt => if evt.isShift then some now else none
  | _ => none

/-- Another key goes down with Shift held. -/
def usesShift : TapEvent → Bool
  | keyDown _ evt => !evt.isShift && evt.isStateOn .shift
  | _ => false

end TapEvent

/-- What has happened since the last Shift key-up. -/
def sinceShiftUp (history : List TapEvent) : List TapEvent :=
  (history.reverse.takeWhile fun a => !a.isShiftUp).reverse

/-- A Shift key-up at the time `now` ends a tap: the first Shift key-down since the
last Shift key-up is less than `d` ago, and Shift was held for no other key. -/
def EndsTap (d now : Nat) (history : List TapEvent) : Prop :=
  (∃ s, (sinceShiftUp history).findSome? TapEvent.shiftDown? = some s ∧ now - s < d) ∧
    ∀ a ∈ sinceShiftUp history, a.usesShift = false

/-! ## The tracker -/

/-- What the tracker should hold after the given events. -/
def ShiftKeyState.tracked (events : List TapEvent) : ShiftKeyState :=
  if events.any TapEvent.usesShift then .consumed
  else match events.findSome? TapEvent.shiftDown? with
    | some s => .down s
    | none => .up

/-- How the tracker should move on. -/
def ShiftKeyState.after (state : ShiftKeyState) : TapEvent → ShiftKeyState
  | .keyDown now evt =>
    if evt.isShift then if state = .up then .down now else state
    else if evt.isStateOn .shift then .consumed else state
  | .keyUp _ evt => if evt.isShift then .up else state
  | .openclose => state

theorem sinceShiftUp_concat (history : List TapEvent) (a : TapEvent) :
    sinceShiftUp (history ++ [a])
      = if a.isShiftUp then [] else sinceShiftUp history ++ [a] := by
  unfold sinceShiftUp
  rw [List.reverse_append, List.reverse_singleton, List.singleton_append, List.takeWhile_cons]
  cases a.isShiftUp with
  | true => rfl
  | false => simp

theorem tracked_concat (events : List TapEvent) {a : TapEvent} (h : a.isShiftUp = false) :
    ShiftKeyState.tracked (events ++ [a]) = (ShiftKeyState.tracked events).after a := by
  have hany : (events ++ [a]).any TapEvent.usesShift
      = (events.any TapEvent.usesShift || a.usesShift) := by simp
  have hfirst : (events ++ [a]).findSome? TapEvent.shiftDown?
      = (events.findSome? TapEvent.shiftDown?).or a.shiftDown? := by simp
  unfold ShiftKeyState.tracked
  rw [hany, hfirst]
  generalize events.any TapEvent.usesShift = used
  generalize events.findSome? TapEvent.shiftDown? = first
  cases a with
  | keyDown now evt =>
    rw [show (TapEvent.keyDown now evt).usesShift = (!evt.isShift && evt.isStateOn .shift) from rfl,
      show (TapEvent.keyDown now evt).shiftDown? = if evt.isShift then some now else none from rfl]
    unfold ShiftKeyState.after
    dsimp only
    cases evt.isShift with
    | true => cases used <;> cases first <;> simp
    | false => cases used <;> cases evt.isStateOn .shift <;> cases first <;> simp
  | keyUp now evt =>
    have hshift : evt.isShift = false := h
    rw [show (TapEvent.keyUp now evt).usesShift = false from rfl,
      show (TapEvent.keyUp now evt).shiftDown? = none from rfl]
    unfold ShiftKeyState.after
    dsimp only
    rw [hshift]
    simp
  | openclose =>
    rw [show TapEvent.openclose.usesShift = false from rfl,
      show TapEvent.openclose.shiftDown? = none from rfl]
    unfold ShiftKeyState.after
    simp

theorem tracked_sinceShiftUp_concat (history : List TapEvent) (a : TapEvent) :
    ShiftKeyState.tracked (sinceShiftUp (history ++ [a]))
      = (ShiftKeyState.tracked (sinceShiftUp history)).after a := by
  rw [sinceShiftUp_concat]
  cases h : a.isShiftUp with
  | false => exact tracked_concat _ h
  | true =>
    cases a with
    | keyUp now evt =>
      have hshift : evt.isShift = true := h
      exact (if_pos hshift).symm
    | keyDown now evt => cases h
    | openclose => cases h

/-- A tracker that has seen everything tells the taps. -/
theorem endsTap_iff {d now : Nat} {history : List TapEvent} :
    EndsTap d now history
      ↔ ∃ s, ShiftKeyState.tracked (sinceShiftUp history) = .down s ∧ now - s < d := by
  unfold EndsTap ShiftKeyState.tracked
  -- both sides look at the events since the last release of Shift
  generalize sinceShiftUp history = events
  constructor
  · rintro ⟨⟨s, hfirst, hquick⟩, hunused⟩
    have hany : events.any TapEvent.usesShift = false :=
      List.any_eq_false.mpr fun a ha => Bool.eq_false_iff.mp (hunused a ha)
    refine ⟨s, ?_, hquick⟩
    rw [hany, hfirst]
    rfl
  · rintro ⟨s, hdown, hquick⟩
    cases hany : events.any TapEvent.usesShift with
    | true =>
      rw [hany] at hdown
      cases hdown
    | false =>
      rw [hany, if_neg Bool.false_ne_true] at hdown
      cases hfirst : events.findSome? TapEvent.shiftDown? with
      | none =>
        rw [hfirst] at hdown
        cases hdown
      | some s' =>
        rw [hfirst] at hdown
        cases hdown
        exact ⟨⟨s, rfl, hquick⟩, fun a ha =>
          Bool.eq_false_iff.mpr (List.any_eq_false.mp hany a ha)⟩

end Taps

/-! ## What the service does -/

section Service

variable {E : Type}

namespace Tip

/-- What taps depend on is left alone. -/
structure TapKept (t u : Tip E) : Prop where
  langMode : u.langMode = t.langMode
  shiftKeyState : u.shiftKeyState = t.shiftKeyState
  cfg : u.cfg = t.cfg

namespace TapKept

variable {t u v : Tip E}

theorem refl (t : Tip E) : TapKept t t := ⟨rfl, rfl, rfl⟩

theorem trans (h : TapKept t u) (h' : TapKept u v) : TapKept t v :=
  ⟨h'.langMode.trans h.langMode, h'.shiftKeyState.trans h.shiftKeyState, h'.cfg.trans h.cfg⟩

theorem request (t : Tip E) (s : EditSession) : TapKept t (t.requestEditSession s) := by
  have hservice := requestEditSession_service t s
  exact ⟨congrArg (·.langMode) hservice, congrArg (·.shiftKeyState) hservice,
    congrArg (·.cfg) hservice⟩

theorem setCompositionString (t : Tip E) (zhconv : Str → Str) (commit preedit : Str)
    (segments : List (Nat × Nat)) (cursor : Nat) :
    TapKept t (t.setCompositionString zhconv commit preedit segments cursor) := by
  unfold Tip.setCompositionString
  dsimp only
  split
  · exact ⟨rfl, rfl, rfl⟩
  · refine .trans ?_ (.request _ _)
    exact ⟨rfl, rfl, rfl⟩

theorem endComposition (t : Tip E) : TapKept t t.endComposition := by
  refine .trans ?_ (.request _ _)
  exact ⟨rfl, rfl, rfl⟩

variable [ChewingEditor E]

theorem updatePreedit (t : Tip E) (zhconv : Str → Str) (commit : Str) :
    TapKept t (t.updatePreedit zhconv commit) :=
  updatePreedit_keeps (fun u _ _ _ hu => hu.trans (.setCompositionString u zhconv commit _ _ _))
    (fun u hu => hu.trans (.endComposition u)) (.refl t)

/-- Without CapsLock, `toggle_lang_mode` switches the language. -/
theorem toggleLangMode (t : Tip E) (zhconv : Str → Str) (env : ModeEnv)
    (hcaps : t.cfg.enableCapsLock = false) :
    TapKept { t with langMode := t.langMode.toggled } (t.toggleLangMode zhconv env).2 := by
  have hsync : TapKept { t with langMode := t.langMode.toggled }
      ({ t with langMode := t.langMode.toggled }.syncLangMode env true).2 := by
    obtain ⟨langMode, heq, hkept⟩ := syncLangMode_eq env true
      { t with langMode := t.langMode.toggled }
    rw [heq]
    exact ⟨hkept hcaps, rfl, rfl⟩
  rcases toggleLangMode_eq zhconv env t with ⟨-, heq⟩ | heq
  · have hinput : TapKept { t with langMode := t.langMode.toggled } (t.toggleInput env) :=
      ⟨hsync.langMode, hsync.shiftKeyState, hsync.cfg⟩
    rw [heq]
    exact hinput.trans (.updatePreedit _ zhconv [])
  · rw [heq]
    exact hsync

end TapKept

/-! ### Key-ups -/

variable {t : Tip E}

/-- The Shift key, released at `now`, has been down for less than the sensitivity. -/
def tapped (now : Nat) (t : Tip E) : Bool :=
  (t.shiftKeyState.release now).1.any fun d => d < i32AsU64 t.cfg.shiftKeySensitivity

/-- What a Shift key-up changes. -/
def released (now : Nat) (t : Tip E) : Tip E :=
  { t with shiftKeyState := .up
           langMode := if t.tapped now then t.langMode.toggled else t.langMode }

variable [ChewingEditor E] [Keysyms]

omit [ChewingEditor E] [Keysyms] in
theorem release_snd (now : Nat) (state : ShiftKeyState) : (state.release now).2 = .up := by
  cases state <;> rfl

theorem shiftUp_tap (zhconv : Str → Str) (env : KeyupEnv) (evt : KeyboardEvent)
    (hswitch : t.cfg.switchLangWithShift = true) (hcaps : t.cfg.enableCapsLock = false) :
    TapKept (if evt.isShift then t.released env.now else t) (t.shiftUp zhconv env evt).2 := by
  unfold shiftUp
  cases hshift : evt.isShift with
  | false =>
    have hnot : ¬ (evt.ksym = Keysyms.symLeftshift ∨ evt.ksym = Keysyms.symRightshift) := by
      rw [← KeyboardEvent.isShift_iff, hshift]
      exact Bool.false_ne_true
    rw [if_neg hnot]
    exact .refl t
  | true =>
    have hcaps' : ¬ t.cfg.enableCapsLock = true := by
      rw [hcaps]
      exact Bool.false_ne_true
    rw [if_pos (KeyboardEvent.isShift_iff.mp hshift), if_pos rfl]
    dsimp only
    rw [release_snd, show ((t.shiftKeyState.release env.now).1.any fun d =>
      d < i32AsU64 t.cfg.shiftKeySensitivity) = t.tapped env.now from rfl, if_neg hcaps']
    cases htapped : t.tapped env.now with
    | false =>
      -- held too long, or used with another key
      have hreleased : t.released env.now = { t with shiftKeyState := .up } := by
        rw [released, htapped]
        rfl
      rw [hreleased]
      exact .refl _
    | true =>
      have hreleased : t.released env.now
          = { t with shiftKeyState := .up, langMode := t.langMode.toggled } := by
        rw [released, htapped]
        rfl
      rw [hreleased, if_pos ⟨rfl, hswitch⟩]
      have htoggle := TapKept.toggleLangMode { t with shiftKeyState := .up } zhconv env.mode hcaps
      split
      · next u hu =>
        rw [hu] at htoggle
        exact htoggle
      · next u hu =>
        rw [hu] at htoggle
        exact htoggle

theorem onKeyup_tap (zhconv : Str → Str) (env : KeyupEnv) (ev : Int → KeyboardEvent)
    (hswitch : t.cfg.switchLangWithShift = true) (hcaps : t.cfg.enableCapsLock = false) :
    TapKept (if (ev t.cfg.simulateEnglishLayout).isShift then t.released env.now else t)
      (t.onKeyup zhconv env ev).2 := by
  have hshift := shiftUp_tap zhconv env (ev t.cfg.simulateEnglishLayout) hswitch hcaps
  have hcfg : (if (ev t.cfg.simulateEnglishLayout).isShift then t.released env.now else t).cfg
      = t.cfg := by
    split <;> rfl
  revert hshift hcfg
  generalize (if (ev t.cfg.simulateEnglishLayout).isShift then t.released env.now else t)
    = after
  intro hshift hcfg
  unfold onKeyup
  dsimp only
  split
  · next u hu =>
    rw [hu] at hshift
    exact hshift
  · next u hu =>
    rw [hu] at hshift
    have hnot : ¬ (u.cfg.enableCapsLock = true
        ∧ (ev t.cfg.simulateEnglishLayout).ksym = Keysyms.symCapslock) := by
      rw [hshift.cfg, hcfg, hcaps]
      exact fun h => Bool.false_ne_true h.1
    rw [capsUp, if_neg hnot]
    exact hshift

/-! ### Key-downs -/

/-- A key test moves the tracker on, whatever it reloads. -/
theorem onTestKeydown_shiftKeyState {u : Tip E} {env : TestEnv} {ev : Int → KeyboardEvent}
    {handled : Bool} (h : t.onTestKeydown env ev = (.ok handled, u)) :
    u.shiftKeyState = t.testedShiftKeyState env.now (ev t.cfg.simulateEnglishLayout) := by
  unfold onTestKeydown at h
  dsimp only at h
  split at h
  · cases (Prod.mk.inj h).1
  · rw [beforeVerdict_reload] at h
    obtain ⟨cfg, kbtype, editor, keybindings, heq⟩ := applyConfigIfChanged_eq env.config
      { t with
        chewingEditor := t.testedEditor
        shiftKeyState := t.testedShiftKeyState env.now (ev t.cfg.simulateEnglishLayout) }
    rw [← (Prod.mk.inj h).2]
    exact congrArg (·.shiftKeyState) heq

omit [ChewingEditor E] in
/-- With Shift switching the language, a key test moves the tracker on as it should. -/
theorem testedShiftKeyState_eq_after (hswitch : t.cfg.switchLangWithShift = true) (now : Nat)
    (evt : KeyboardEvent) :
    t.testedShiftKeyState now evt = t.shiftKeyState.after (.keyDown now evt) := by
  unfold testedShiftKeyState consumedShiftKeyState ShiftKeyState.after
  rw [beginsTap_eq, hswitch]
  cases hshift : evt.isShift with
  | true => simp [hshift]
  | false => simp [hshift]

end Tip

/-! ## Runs -/

/-- Shift switches the language, CapsLock does not, and a tap takes less than `d`. -/
structure TapSettings (d : Nat) (cfg : ChewingTsfConfig) : Prop where
  switchLangWithShift : cfg.switchLangWithShift = true
  enableCapsLock : cfg.enableCapsLock = false
  shiftKeySensitivity : cfg.shiftKeySensitivity = d

variable [ChewingEditor E] [Keysyms]

/-- A call for a key, which does not fail, or the opening or closing of the keyboard.
The configuration may be reloaded, with the same settings for taps. -/
inductive TapStep (zhconv : Str → Str) (d : Nat) : Tip E → TapEvent → Tip E → Prop
  | keyDown {t u : Tip E} {handled : Bool} (env : Tip.TestEnv) (ev : Int → KeyboardEvent) :
      t.onTestKeydown env ev = (.ok handled, u) → TapSettings d u.cfg →
      TapStep zhconv d t (.keyDown env.now (ev t.cfg.simulateEnglishLayout)) u
  | keyUp {t u : Tip E} {claimed : Bool} (env : Tip.KeyupEnv) (ev : Int → KeyboardEvent) :
      t.onTestKeyup zhconv env ev = (.ok claimed, u) →
      TapStep zhconv d t (.keyUp env.now (ev t.cfg.simulateEnglishLayout)) u
  | openclose (t : Tip E) : TapStep zhconv d t .openclose t.toggleKeyboardOpenclose

/-- `on_test_keyup` passes over this Shift key-up, and the tracker remembers the
key-down. -/
def TapEvent.Swallowed (t : Tip E) (a : TapEvent) : Prop :=
  a.isShiftUp = true ∧ t.langMode.isDisabled = true ∧ t.shiftKeyState ≠ .up

/-- The tracker holds what it should after `history`. -/
def Tip.Tracks (history : List TapEvent) (t : Tip E) : Prop :=
  t.shiftKeyState = ShiftKeyState.tracked (sinceShiftUp history)

/-- The law of the tap: this event switches the language if and only if it is a Shift
key-up that ends a tap while the keyboard is open. -/
def TapLaw (d : Nat) (history : List TapEvent) (t : Tip E) (a : TapEvent) (u : Tip E) : Prop :=
  u.langMode.toLanguageMode ≠ t.langMode.toLanguageMode ↔
    ∃ now evt, a = .keyUp now evt ∧ evt.isShift = true ∧ t.langMode.isDisabled = false ∧
      EndsTap d now history

namespace TapStep

variable {zhconv : Str → Str} {d : Nat} {t u : Tip E} {a : TapEvent} {history : List TapEvent}

/-- A key-up while the keyboard is open. -/
theorem of_keyUp {env : Tip.KeyupEnv} {ev : Int → KeyboardEvent} {claimed : Bool}
    (hset : TapSettings d t.cfg) (hopen : t.langMode.isDisabled = false)
    (h : t.onTestKeyup zhconv env ev = (.ok claimed, u)) :
    Tip.TapKept (if (ev t.cfg.simulateEnglishLayout).isShift then t.released env.now else t) u := by
  have hkeyup := Tip.onKeyup_tap zhconv env ev hset.switchLangWithShift hset.enableCapsLock
  rw [Tip.onTestKeyup, hopen, if_neg Bool.false_ne_true] at h
  rw [h] at hkeyup
  exact hkeyup

/-- A key-up while the keyboard is closed. -/
theorem of_keyUp_disabled {env : Tip.KeyupEnv} {ev : Int → KeyboardEvent} {claimed : Bool}
    (hclosed : t.langMode.isDisabled = true)
    (h : t.onTestKeyup zhconv env ev = (.ok claimed, u)) : u = t := by
  rw [Tip.onTestKeyup, if_pos hclosed] at h
  exact (Prod.mk.inj h).2.symm

theorem settings (hset : TapSettings d t.cfg) (h : TapStep zhconv d t a u) :
    TapSettings d u.cfg := by
  cases h with
  | keyDown env ev _ hset' => exact hset'
  | keyUp env ev h =>
    cases hmode : t.langMode.isDisabled with
    | true =>
      rw [of_keyUp_disabled hmode h]
      exact hset
    | false =>
      rw [(of_keyUp hset hmode h).cfg]
      split
      · exact hset
      · exact hset
  | openclose => exact hset

/-- **One step of the tracker**: it misses the Shift key-ups while the keyboard is
closed, and no other event. -/
theorem shiftKeyState (hset : TapSettings d t.cfg) (h : TapStep zhconv d t a u) :
    u.shiftKeyState = if a.isShiftUp && t.langMode.isDisabled then t.shiftKeyState
      else t.shiftKeyState.after a := by
  cases h with
  | keyDown env ev h _ =>
    rw [Tip.onTestKeydown_shiftKeyState h,
      Tip.testedShiftKeyState_eq_after hset.switchLangWithShift]
    rfl
  | keyUp env ev h =>
    generalize hevt : ev t.cfg.simulateEnglishLayout = evt
    have hup : (TapEvent.keyUp env.now evt).isShiftUp = evt.isShift := rfl
    have hafter : t.shiftKeyState.after (.keyUp env.now evt)
        = if evt.isShift then .up else t.shiftKeyState := rfl
    rw [hup, hafter]
    cases hmode : t.langMode.isDisabled with
    | true =>
      rw [of_keyUp_disabled hmode h]
      cases evt.isShift with
      | true => rfl
      | false => rfl
    | false =>
      rw [(of_keyUp hset hmode h).shiftKeyState, hevt]
      cases evt.isShift with
      | true => rfl
      | false => rfl
  | openclose => rfl

/-- The tracker keeps up with the keys exactly as long as no Shift key-up is
swallowed. -/
theorem tracks_iff (hset : TapSettings d t.cfg) (h : TapStep zhconv d t a u)
    (htracks : t.Tracks history) : u.Tracks (history ++ [a]) ↔ ¬ a.Swallowed t := by
  unfold Tip.Tracks TapEvent.Swallowed
  rw [tracked_sinceShiftUp_concat, ← htracks, h.shiftKeyState hset]
  cases hup : a.isShiftUp with
  | false => simp
  | true =>
    cases t.langMode.isDisabled with
    | false => simp
    | true =>
      have hafter : t.shiftKeyState.after a = .up := by
        cases a with
        | keyUp now evt =>
          have hshift : evt.isShift = true := hup
          exact if_pos hshift
        | keyDown now evt => cases hup
        | openclose => cases hup
      rw [hafter]
      simp

omit [ChewingEditor E] [Keysyms] in
theorem toLanguageMode_toggled (mode : TsfLangMode) :
    mode.toggled.toLanguageMode ≠ mode.toLanguageMode := by
  cases mode <;> decide

omit [ChewingEditor E] [Keysyms] in
/-- The key was down for a tap. -/
theorem tapped_iff (hd : d < 0x80000000) (hset : TapSettings d t.cfg) {now : Nat} :
    t.tapped now = true ↔ ∃ s, t.shiftKeyState = .down s ∧ now - s < d := by
  have hsensitivity : i32AsU64 t.cfg.shiftKeySensitivity = d := by
    rw [hset.shiftKeySensitivity]
    unfold i32AsU64
    omega
  unfold Tip.tapped
  rw [hsensitivity]
  cases t.shiftKeyState with
  | down s => simp [ShiftKeyState.release]
  | consumed => simp [ShiftKeyState.release]
  | up => simp [ShiftKeyState.release]

/-- **One step of the language**: it is switched by what the tracker takes for a tap,
while the keyboard is open. -/
theorem switches_iff (hd : d < 0x80000000) (hset : TapSettings d t.cfg)
    (h : TapStep zhconv d t a u) :
    u.langMode.toLanguageMode ≠ t.langMode.toLanguageMode ↔
      ∃ now evt, a = .keyUp now evt ∧ evt.isShift = true ∧ t.langMode.isDisabled = false ∧
        ∃ s, t.shiftKeyState = .down s ∧ now - s < d := by
  cases h with
  | keyDown env ev h _ =>
    -- only a key-up switches
    have hmode := (Tip.ModeKept.onTestKeydown t env ev).langMode
    rw [h] at hmode
    rw [hmode]
    simp
  | keyUp env ev h =>
    generalize hevt : ev t.cfg.simulateEnglishLayout = evt
    cases hmode : t.langMode.isDisabled with
    | true =>
      rw [of_keyUp_disabled hmode h]
      simp
    | false =>
      rw [(of_keyUp hset hmode h).langMode, hevt]
      cases hshift : evt.isShift with
      | false => simp [hshift]
      | true =>
        have hiff : (t.released env.now).langMode.toLanguageMode ≠ t.langMode.toLanguageMode
            ↔ t.tapped env.now = true := by
          unfold Tip.released
          cases t.tapped env.now with
          | true => exact iff_of_true (toLanguageMode_toggled t.langMode) rfl
          | false => exact iff_of_false (fun hne => hne rfl) Bool.false_ne_true
        rw [if_pos rfl, hiff, tapped_iff hd hset]
        constructor
        · intro htap
          exact ⟨env.now, evt, rfl, hshift, rfl, htap⟩
        · rintro ⟨now, evt', heq, -, -, htap⟩
          cases heq
          exact htap
  | openclose =>
    -- closing the keyboard keeps the mode it had
    have hkept : t.langMode.openclosed.toLanguageMode = t.langMode.toLanguageMode := by
      cases t.langMode <;> rfl
    have hmode : t.toggleKeyboardOpenclose.langMode.toLanguageMode
        = t.langMode.toLanguageMode := hkept
    rw [hmode]
    simp

/-- A tracker that has kept up makes the step obey the law. -/
theorem law (hd : d < 0x80000000) (hset : TapSettings d t.cfg) (htracks : t.Tracks history)
    (h : TapStep zhconv d t a u) : TapLaw d history t a u := by
  unfold TapLaw
  rw [h.switches_iff hd hset, htracks]
  simp only [endsTap_iff]

end TapStep

/-- **The Shift tap**: as long as no Shift key-up is swallowed, Shift switches the
language exactly when it is tapped. -/
theorem shiftTap_switches {zhconv : Str → Str} {d : Nat} (hd : d < 0x80000000)
    {start t u : Tip E} {history : List TapEvent} {a : TapEvent}
    (hset : TapSettings d start.cfg) (hup : start.shiftKeyState = .up)
    (hrun : Run (Guarded (fun t a => ¬ a.Swallowed t) (TapStep zhconv d)) start history t)
    (hstep : TapStep zhconv d t a u) : TapLaw d history t a u := by
  have hinv : TapSettings d t.cfg ∧ t.Tracks history := by
    refine Run.history (I := fun history t => TapSettings d t.cfg ∧ t.Tracks history)
      ⟨hset, hup⟩ ?_ hrun
    rintro history t a u ⟨hset, htracks⟩ ⟨hheard, hstep⟩
    exact ⟨hstep.settings hset, (hstep.tracks_iff hset htracks).mpr hheard⟩
  exact hstep.law hd hinv.1 hinv.2

end Service

section

open ScriptedEditor

/-- Shift goes down, or up, at the time `now`. -/
def Tip.shiftDownAt (now : Nat) (t : Tip ScriptedEditor) : Tip ScriptedEditor :=
  (t.onTestKeydown { testEnv with now := now } fun _ => shiftKey).2

def Tip.shiftUpAt (now : Nat) (t : Tip ScriptedEditor) : Tip ScriptedEditor :=
  (t.onTestKeyup id ⟨now, ⟨false, true, true⟩, true⟩ fun _ => shiftKey).2

theorem tapSettings_default : TapSettings 200 .default := ⟨rfl, rfl, rfl⟩

theorem TapStep.shiftDownAt {now : Nat} {t : Tip ScriptedEditor}
    (hok : (t.onTestKeydown { testEnv with now := now } fun _ => shiftKey).1 = .ok false)
    (hcfg : (t.shiftDownAt now).cfg = .default) :
    TapStep id 200 t (.keyDown now shiftKey) (t.shiftDownAt now) := by
  refine .keyDown { testEnv with now := now } (fun _ => shiftKey) (Prod.ext hok rfl) ?_
  rw [hcfg]
  exact tapSettings_default

theorem TapStep.shiftUpAt {now : Nat} {t : Tip ScriptedEditor}
    (hok : (t.onTestKeyup id ⟨now, ⟨false, true, true⟩, true⟩ fun _ => shiftKey).1 = .ok false) :
    TapStep id 200 t (.keyUp now shiftKey) (t.shiftUpAt now) :=
  .keyUp ⟨now, ⟨false, true, true⟩, true⟩ (fun _ => shiftKey) (Prod.ext hok rfl)

/-- Shift, down for 50 ms. -/
theorem shiftTap_switches_tapped :
    TapLaw 200 [.keyDown 0 shiftKey] ((Tip.fresh .queued).shiftDownAt 0) (.keyUp 50 shiftKey)
      (((Tip.fresh .queued).shiftDownAt 0).shiftUpAt 50) := by
  have hdown : Guarded (fun t a => ¬ a.Swallowed t) (TapStep id 200) (Tip.fresh .queued)
      (.keyDown 0 shiftKey) ((Tip.fresh .queued).shiftDownAt 0) :=
    ⟨fun hswallowed => Bool.false_ne_true hswallowed.1,
      .shiftDownAt (by decide +kernel) (by decide +kernel)⟩
  exact shiftTap_switches (by decide) tapSettings_default rfl (.single hdown)
    (.shiftUpAt (by decide +kernel))

/-- The keyboard is closed, Shift tapped, and the keyboard opened again. The next tap,
a second later, is measured from the first one and does nothing. -/
theorem shiftTap_swallowed :
    ¬ ∀ (zhconv : Str → Str) (d : Nat) (start t u : Tip ScriptedEditor)
      (history : List TapEvent) (a : TapEvent), d < 0x80000000 → TapSettings d start.cfg →
      start.shiftKeyState = .up → Run (TapStep zhconv d) start history t →
      TapStep zhconv d t a u → TapLaw d history t a u := by
  intro hclaim
  let closed := (Tip.fresh .queued).toggleKeyboardOpenclose
  let first := (closed.shiftDownAt 0).shiftUpAt 10
  let second := first.toggleKeyboardOpenclose.shiftDownAt 1000
  have hfirst : Run (TapStep id 200) (Tip.fresh .queued)
      [.openclose, .keyDown 0 shiftKey, .keyUp 10 shiftKey] first :=
    .head (.openclose _) (.head (.shiftDownAt (by decide +kernel) (by decide +kernel))
      (.single (.shiftUpAt (by decide +kernel))))
  have hsecond : Run (TapStep id 200) first [.openclose, .keyDown 1000 shiftKey] second :=
    .head (.openclose _) (.single (.shiftDownAt (by decide +kernel) (by decide +kernel)))
  have hthird : TapStep id 200 second (.keyUp 1010 shiftKey) (second.shiftUpAt 1010) :=
    .shiftUpAt (by decide +kernel)
  have hlaw := hclaim id 200 _ _ _ _ _ (by decide) tapSettings_default rfl
    (hfirst.trans hsecond) hthird
  have htap : EndsTap 200 1010 [.openclose, .keyDown 0 shiftKey, .keyUp 10 shiftKey, .openclose,
      .keyDown 1000 shiftKey] := endsTap_iff.mpr ⟨1000, by decide, by decide⟩
  have hkept : (second.shiftUpAt 1010).langMode.toLanguageMode
      = second.langMode.toLanguageMode := by
    decide +kernel
  exact hlaw.mpr ⟨1010, shiftKey, rfl, by decide, by decide +kernel, htap⟩ hkept

end

end ChewingTsf
