import ChewingTsf.Tip.CapsLock

/-!
# What the service says of the mode

After a tap of Shift and after CapsLock a notice says which mode the keyboard is in, or which
mode CapsLock holds. The notice is made in the middle of `on_keyup`. What follows may be the
other half of the handler, and then the compartment is synchronised, which calls the service
back.

`Keyboard.notices_run` says that the notice is true all the same when the call returns: the mode
is the one it names, and if it names CapsLock, the mode is the one CapsLock stands for.
-/

namespace ChewingTsf

open ChewingEditor

/-- The notice of a mode. -/
def modeNotice : TsfLangMode → Str
  | .english => "英數模式".toList
  | .chinese => "中文模式".toList
  | .disabledEnglish | .disabledChinese => "輸入法關閉中".toList

/-- The notice of a mode that CapsLock holds. -/
def lockedNotice : TsfLangMode → Str
  | .english => "CapsLock 鎖定英數模式".toList
  | .chinese => "CapsLock 鎖定中文模式".toList
  | .disabledEnglish | .disabledChinese => "輸入法關閉中".toList

section

variable {E : Type}

namespace Tip

/-- `show_message`, if notices are on and it succeeds. -/
def noticed (env : KeyupEnv) (text : Str) (t : Tip E) : List Str :=
  if t.cfg.showNotification ∧ env.message then [text] else []

/-- The notice of `on_keyup` for CapsLock. -/
def capsUpNotices [Keysyms] (env : KeyupEnv) (evt : KeyboardEvent) (t : Tip E) : List Str :=
  if t.cfg.enableCapsLock ∧ evt.ksym = Keysyms.symCapslock then
    match t.syncLangMode env.mode true with
    | (.error _, _) => []
    | (.ok (), t) => t.noticed env (modeNotice t.langMode)
  else []

section Handlers

variable [ChewingEditor E] [KeyCodes] {zhconv : Str → Str} {env : KeyupEnv} {t u : Tip E}
  {text : Str}

/-- The notice of `on_keyup` for a tap of Shift. -/
def shiftUpNotices (zhconv : Str → Str) (env : KeyupEnv) (evt : KeyboardEvent) (t : Tip E) :
    List Str :=
  if evt.ksym = Keysyms.symLeftshift ∨ evt.ksym = Keysyms.symRightshift then
    let (duration, state) := t.shiftKeyState.release env.now
    let t : Tip E := { t with shiftKeyState := state }
    let tapped : Bool := duration.any fun d => d < i32AsU64 t.cfg.shiftKeySensitivity
    if tapped ∧ t.cfg.switchLangWithShift then
      if t.cfg.enableCapsLock then t.noticed env (lockedNotice t.langMode)
      else
        match t.toggleLangMode zhconv env.mode with
        | (.error _, _) => []
        | (.ok (), t) => t.noticed env (modeNotice t.langMode)
    else []
  else []

/-- `on_keyup`. -/
def onKeyupNotices (zhconv : Str → Str) (env : KeyupEnv) (ev : Int → KeyboardEvent) (t : Tip E) :
    List Str :=
  let evt := ev t.cfg.simulateEnglishLayout
  t.shiftUpNotices zhconv env evt ++
    match t.shiftUp zhconv env evt with
    | (.error _, _) => []
    | (.ok (), t) => t.capsUpNotices env evt

/-- `on_test_keyup`. -/
def onTestKeyupNotices (zhconv : Str → Str) (env : KeyupEnv) (ev : Int → KeyboardEvent)
    (t : Tip E) : List Str :=
  if t.langMode.isDisabled then [] else t.onKeyupNotices zhconv env ev

/-- The notice says what is so: it names the mode, or the mode that CapsLock holds. -/
def Named (t : Tip E) (text : Str) : Prop :=
  text = modeNotice t.langMode ∨ (text = lockedNotice t.langMode ∧ t.cfg.enableCapsLock = true)

omit [ChewingEditor E] [KeyCodes] in
theorem Named.of_sameMode (h : t.Named text) (hsame : SameMode t u) : u.Named text := by
  unfold Named
  rw [hsame.langMode, hsame.cfg]
  exact h

omit [ChewingEditor E] [KeyCodes] in
/-- A notice that is made is no error. -/
theorem noticed_iff {shown : Str} :
    text ∈ t.noticed env shown → text = shown ∧ t.notify env = .ok () := by
  unfold noticed notify
  intro h
  split at h
  · next hshown => exact ⟨List.mem_singleton.mp h, if_neg fun herror => herror.2 hshown.2⟩
  · cases h

omit [ChewingEditor E] [KeyCodes] in
/-- `sync_lang_mode` changes nothing if the mode is that of CapsLock already. -/
theorem SameMode.syncLangMode_of_follows {mode : ModeEnv} (h : t.FollowsCapsLock mode.capsLockOn)
    (internal : Bool) : SameMode t (t.syncLangMode mode internal).2 := by
  have hsync := followsCapsLock_syncLangMode mode internal t
  have hcfg := syncLangMode_cfg mode internal t
  have hdisabled := syncLangMode_isDisabled mode internal t
  obtain ⟨langMode, heq, -⟩ := syncLangMode_eq mode internal t
  refine ⟨?_, by rw [heq], hcfg⟩
  by_cases hdecides : t.CapsLockDecides
  · have hmode := hsync ⟨hdisabled.trans hdecides.1, hcfg ▸ hdecides.2⟩
    rw [hmode, hcfg, h hdecides]
  · have hskipped : ¬ (!t.langMode.isDisabled && t.cfg.enableCapsLock) = true := by
      rw [Bool.and_eq_true, Bool.not_eq_true']
      exact hdecides
    unfold syncLangMode
    dsimp only
    rw [if_neg hskipped]

/-! ### One key-up -/

omit [ChewingEditor E] in
/-- Nothing is left to CapsLock if it does not decide, or has decided already. -/
theorem SameMode.capsUp {evt : KeyboardEvent}
    (h : t.cfg.enableCapsLock = false ∨ t.FollowsCapsLock env.mode.capsLockOn) :
    SameMode t (t.capsUp env evt).2 := by
  unfold Tip.capsUp
  split
  · next hcaps =>
    have hfollows := h.resolve_left (by simp [hcaps.1])
    have hsync := SameMode.syncLangMode_of_follows hfollows true
    split
    · next v hv =>
      rw [hv] at hsync
      exact hsync
    · next v hv =>
      rw [hv] at hsync
      exact hsync
  · exact .refl t

omit [ChewingEditor E] in
theorem named_capsUp {evt : KeyboardEvent} (h : text ∈ t.capsUpNotices env evt) :
    (t.capsUp env evt).2.Named text := by
  unfold capsUpNotices at h
  unfold Tip.capsUp
  split at h
  · next hcaps =>
    rw [if_pos hcaps]
    rcases heq : t.syncLangMode env.mode true with ⟨r, v⟩
    rw [heq] at h
    cases r with
    | error e => cases h
    | ok _ => exact .inl (noticed_iff h).1
  · cases h

/-- A tap of Shift that is noticed: it has switched the mode, or CapsLock holds it. -/
theorem shiftUp_noticed {evt : KeyboardEvent} (h : text ∈ t.shiftUpNotices zhconv env evt) :
    (evt.ksym = Keysyms.symLeftshift ∨ evt.ksym = Keysyms.symRightshift) ∧
      ∃ u, t.shiftUp zhconv env evt = (.ok (), u) ∧
        ((text = modeNotice u.langMode ∧ u.cfg.enableCapsLock = false) ∨
          (text = lockedNotice u.langMode ∧ u.cfg.enableCapsLock = true ∧ SameMode t u)) := by
  unfold shiftUpNotices at h
  split at h
  · next hshift =>
    refine ⟨hshift, ?_⟩
    unfold Tip.shiftUp
    rw [if_pos hshift]
    dsimp only at h ⊢
    split at h
    · next htapped =>
      rw [if_pos htapped]
      split at h
      · -- CapsLock decides, and the tap changes nothing
        next hcaps =>
        rw [if_pos hcaps]
        obtain ⟨htext, hnotify⟩ := noticed_iff h
        rw [hnotify]
        exact ⟨_, rfl, .inr ⟨htext, hcaps, rfl, rfl, rfl⟩⟩
      · next hcaps =>
        rw [if_neg hcaps]
        have hsame := SameMode.toggleLangMode
          { t with shiftKeyState := (t.shiftKeyState.release env.now).2 } zhconv env.mode
        have hcfg := hsame.cfg.trans (syncLangMode_cfg env.mode true _)
        rcases heq : { t with shiftKeyState := (t.shiftKeyState.release env.now).2 }.toggleLangMode
          zhconv env.mode with ⟨r, u⟩
        rw [heq] at h hcfg ⊢
        cases r with
        | error e => cases h
        | ok _ =>
          obtain ⟨htext, hnotify⟩ := noticed_iff h
          refine ⟨u, ?_, .inl ⟨htext, ?_⟩⟩
          · dsimp only
            rw [hnotify]
          · rw [hcfg]
            exact eq_false_of_ne_true hcaps
    · cases h
  · cases h

/-- **A key-up**: its notice is true when it returns. -/
theorem named_onKeyup {ev : Int → KeyboardEvent}
    (hfollows : t.FollowsCapsLock env.mode.capsLockOn ∨ IsCapsLock (ev t.cfg.simulateEnglishLayout))
    (h : text ∈ t.onKeyupNotices zhconv env ev) : (t.onKeyup zhconv env ev).2.Named text := by
  unfold onKeyupNotices at h
  unfold Tip.onKeyup
  dsimp only at h ⊢
  rcases List.mem_append.mp h with hshift | hcaps
  · -- a tap of Shift is noticed, and the handler of CapsLock leaves the mode alone
    obtain ⟨hkey, u, hu, hnamed⟩ := shiftUp_noticed hshift
    rw [hu]
    dsimp only
    have hnothing : SameMode u (u.capsUp env (ev t.cfg.simulateEnglishLayout)).2 := by
      refine .capsUp ?_
      rcases hnamed with ⟨-, hcaps⟩ | ⟨-, -, hsame⟩
      · exact .inl hcaps
      · have hbefore := hfollows.resolve_right fun hcapsLock => hcapsLock.2 hkey
        exact .inr (hbefore.of_sameMode hsame)
    have hafter : u.Named text := by
      rcases hnamed with ⟨htext, -⟩ | ⟨htext, hcaps, -⟩
      · exact .inl htext
      · exact .inr ⟨htext, hcaps⟩
    have hcapsUp := hafter.of_sameMode hnothing
    split
    · next v hv =>
      rw [hv] at hcapsUp
      exact hcapsUp
    · next v hv =>
      rw [hv] at hcapsUp
      exact hcapsUp
  · -- CapsLock is noticed: it was the last to set the mode
    rcases hshift : t.shiftUp zhconv env (ev t.cfg.simulateEnglishLayout) with ⟨r, u⟩
    rw [hshift] at hcaps
    cases r with
    | error e => cases hcaps
    | ok _ =>
      have hcapsUp := named_capsUp hcaps
      dsimp only
      split
      · next v hv =>
        rw [hv] at hcapsUp
        exact hcapsUp
      · next v hv =>
        rw [hv] at hcapsUp
        exact hcapsUp

theorem named_onTestKeyup {ev : Int → KeyboardEvent}
    (hfollows : t.FollowsCapsLock env.mode.capsLockOn ∨ IsCapsLock (ev t.cfg.simulateEnglishLayout))
    (h : text ∈ t.onTestKeyupNotices zhconv env ev) :
    (t.onTestKeyup zhconv env ev).2.Named text := by
  unfold onTestKeyupNotices at h
  unfold Tip.onTestKeyup
  split at h
  · cases h
  · next hopen =>
    rw [if_neg hopen]
    exact named_onKeyup hfollows h

end Handlers

end Tip

/-! ## Calls -/

section Calls

variable [EditorCommands E] {zhconv : Str → Str} {k : Keyboard E} {text : Str}

/-- Synchronising the compartment keeps the mode, although it calls the service back. -/
theorem Keyboard.sameMode_syncKeyboardOpenclose (zhconv : Str → Str) (env : Tip.CompartmentEnv)
    (k : Keyboard E) : k.tip.SameMode (k.syncKeyboardOpenclose zhconv env).tip := by
  rcases syncKeyboardOpenclose_cases env k with ⟨pending, heq⟩ | ⟨hpending, value, heq⟩
  · rw [heq]
    exact ⟨rfl, rfl, rfl⟩
  · rw [heq]
    unfold setOpenclose
    split
    · exact .refl k.tip
    · exact .onChange_of_expected env (.inl hpending)

theorem Keyboard.named_thenSync {α : Type} (zhconv : Str → Str) (env : Tip.CompartmentEnv)
    {r : Except Fault α × Tip E} (h : r.2.Named text) : (k.thenSync zhconv env r).tip.Named text := by
  unfold thenSync
  split
  · exact h.of_sameMode (sameMode_syncKeyboardOpenclose zhconv env { k with tip := r.2 })
  · exact h

variable [KeyCodes]

/-- The notices of a call about the mode. Only key-ups make any. -/
def KeyboardCall.modeNotices (zhconv : Str → Str) (k : Keyboard E) : KeyboardCall → List Str
  | testKeyUp env ev _ => k.tip.onTestKeyupNotices zhconv env ev
  | keyUp env ev _ => k.tip.onKeyupNotices zhconv env ev
  | _ => []

/-- The notice is true: the keyboard is in the mode that it names and, if it names CapsLock too,
an open keyboard is in the mode that CapsLock stands for. -/
def Tip.Tells (on : Bool) (t : Tip E) (text : Str) : Prop :=
  text = modeNotice t.langMode ∨
    (text = lockedNotice t.langMode ∧
      (t.langMode.isDisabled = false →
        t.langMode = if on = t.cfg.lockChineseOnCapsLock then .chinese else .english))

/-- **One call.** -/
theorem KeyboardCall.tells_next {s : Keyboard E × Bool} {a : KeyboardCall × Bool}
    (hseen : CapsLockSeen s a) (hfollows : s.1.tip.FollowsCapsLock s.2)
    (htext : text ∈ a.1.modeNotices zhconv s.1) : (a.1.next zhconv s.1).tip.Tells a.2 text := by
  obtain ⟨k, on⟩ := s
  obtain ⟨c, on'⟩ := a
  have hbefore := hseen.before hfollows
  have hnamed : (c.next zhconv k).tip.Named text := by
    cases c with
    | testKeyUp env ev sync =>
      obtain ⟨rfl, -⟩ : env.mode.capsLockOn = on' ∧ _ := hseen.reads
      exact Keyboard.named_thenSync zhconv sync (Tip.named_onTestKeyup hbefore htext)
    | keyUp env ev sync =>
      obtain ⟨rfl, -⟩ : env.mode.capsLockOn = on' ∧ _ := hseen.reads
      exact Keyboard.named_thenSync zhconv sync (Tip.named_onKeyup hbefore htext)
    | _ => cases htext
  have hafter : (c.next zhconv k).tip.FollowsCapsLock on' := hseen.after zhconv hfollows
  exact hnamed.imp_right fun ⟨htext, hcaps⟩ => ⟨htext, fun hopen => hafter ⟨hopen, hcaps⟩⟩

/-- **Notices tell the mode** in every run in which CapsLock changes where the service can see
it: whatever came before, the notice of the next call is true when the call returns. -/
theorem Keyboard.notices_run (zhconv : Str → Str) {env : ActivateEnv} {editor : E}
    {document : Document} {grant : Grant} {openclose : Option Int} (hdirs : env.config.Dirs)
    {ls : List (KeyboardCall × Bool)} {s : Keyboard E × Bool}
    (hrun : Run (Guarded CapsLockSeen (CapsLockStep zhconv))
      (.activate env editor document grant openclose, env.mode.capsLockOn) ls s)
    {a : KeyboardCall × Bool} (hseen : CapsLockSeen s a) :
    ∀ text ∈ a.1.modeNotices zhconv s.1, (a.1.next zhconv s.1).tip.Tells a.2 text := by
  have hfollows : s.1.tip.FollowsCapsLock s.2 := by
    refine hrun.invariant (I := fun s => s.1.tip.FollowsCapsLock s.2)
      (Tip.followsCapsLock_initChewingContext hdirs env.mode _) ?_
    rintro s a _ hfollows ⟨hguard, rfl⟩
    exact hguard.after zhconv hfollows
  exact fun text htext => KeyboardCall.tells_next hseen hfollows htext

end Calls

end

open TypedEditor ScriptedEditor

/-- CapsLock is pressed: the notice says that the keyboard is in Chinese, and it is. -/
theorem Keyboard.notices_run_pressed :
    ∃ k : Keyboard TypedEditor, k.tip.langMode = .chinese ∧ k.tip.Tells true "中文模式".toList := by
  have hseen : CapsLockSeen (activated capsLockSwitch, false)
      (.testKeyUp ⟨0, ⟨true, true, true⟩, true⟩ (fun _ => plainKey Keysyms.symCapslock)
        ⟨⟨true, true, true⟩, true, true⟩, true) :=
    ⟨⟨rfl, rfl⟩, trivial, .inr (.inr ⟨rfl, by decide⟩)⟩
  refine ⟨_, ?_, Keyboard.notices_run id ⟨rfl, rfl⟩ (.refl _) hseen _ ?_⟩
  · decide +kernel
  · decide +kernel

end ChewingTsf
