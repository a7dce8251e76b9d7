import ChewingTsf.Tip.Typing

/-!
# Which keys the text service takes while composing

`on_test_keydown` decides by `is_composing`, which looks at the composition cell
and the candidate list, not at the editor. `Tip.Serving` says that every queued
session of the current cell is a `SetCompositionString` session with an edit, so
that the cell is filled once it has run; `Tip.Backed` follows: an editor with a
preedit is backed by the cell, the candidate list or an outstanding edit. A key is
lost to the application only in the last case, before the session has run.
-/

namespace ChewingTsf

open ChewingEditor

variable {E : Type} [ChewingEditor E]

/-! ## The verdict on a plain key -/

section Verdict

variable [Keysyms]

/-- A key that is not printable, pressed without Shift, Ctrl and Alt. -/
structure KeyboardEvent.Plain (evt : KeyboardEvent) : Prop where
  unprintable : Keysyms.isUnicode evt.ksym = false
  shift : evt.isStateOn .shift = false
  control : evt.isStateOn .control = false
  alt : evt.isStateOn .alt = false

/-- Left or right Shift. -/
def KeyboardEvent.isShift (evt : KeyboardEvent) : Bool :=
  evt.ksym == Keysyms.symLeftshift || evt.ksym == Keysyms.symRightshift

namespace Tip

variable {t : Tip E} {env : TestEnv} {evt : KeyboardEvent}

omit [ChewingEditor E] in
/-- The key-down begins a tap of Shift. -/
def BeginsTap (evt : KeyboardEvent) (t : Tip E) : Bool :=
  (evt.ksym == Keysyms.symLeftshift || evt.ksym == Keysyms.symRightshift) &&
    t.cfg.switchLangWithShift && t.shiftKeyState == .up

omit [ChewingEditor E] in
theorem beginsTap_eq (evt : KeyboardEvent) (t : Tip E) :
    t.BeginsTap evt = (evt.isShift && t.cfg.switchLangWithShift && t.shiftKeyState == .up) := rfl

omit [ChewingEditor E] in
/-- The Shift state after `Consumed` has been set. -/
def consumedShiftKeyState (evt : KeyboardEvent) (t : Tip E) : ShiftKeyState :=
  if !evt.isShift && evt.isStateOn .shift then .consumed else t.shiftKeyState

omit [ChewingEditor E] in
/-- The Shift state after a test at time `now`. -/
def testedShiftKeyState (now : Nat) (evt : KeyboardEvent) (t : Tip E) : ShiftKeyState :=
  if t.BeginsTap evt then .down now else t.consumedShiftKeyState evt

omit [ChewingEditor E] in
/-- It makes no difference to a tap whether `Consumed` has been set. -/
theorem beginsTap_consumed (evt : KeyboardEvent) (t : Tip E) :
    (evt.isShift && t.cfg.switchLangWithShift && t.consumedShiftKeyState evt == .up)
      = t.BeginsTap evt := by
  rw [beginsTap_eq]
  unfold consumedShiftKeyState
  cases evt.isShift with
  | true => rfl
  | false => rfl

/-- Up to its verdict, `on_test_keydown` moves the Shift state on and reloads the
configuration. -/
theorem beforeVerdict_reload (env : TestEnv) (evt : KeyboardEvent) (t : Tip E) :
    t.beforeVerdict env evt = (t.BeginsTap evt, (applyConfigIfChanged env.config
      { t with shiftKeyState := t.testedShiftKeyState env.now evt }).2) := by
  have hconsumed : (if !evt.isShift && evt.isStateOn .shift then
        { t with shiftKeyState := .consumed } else t)
      = { t with shiftKeyState := t.consumedShiftKeyState evt } := by
    unfold consumedShiftKeyState
    split <;> rfl
  unfold beforeVerdict
  dsimp only
  rw [show (evt.ksym == Keysyms.symLeftshift || evt.ksym == Keysyms.symRightshift)
    = evt.isShift from rfl, hconsumed]
  dsimp only
  rw [beginsTap_consumed]
  unfold testedShiftKeyState
  cases t.BeginsTap evt with
  | true => rfl
  | false => rfl

omit [ChewingEditor E] [Keysyms] in
/-- The configuration that step 1 leaves in force. -/
def reloaded (env : ConfigEnv) (t : Tip E) : ChewingTsfConfig :=
  match t.cfg.reloadIfNeeded env.fromReg with
  | .ok (true, cfg) => cfg
  | _ => t.cfg

omit [ChewingEditor E] in
/-- What step 2 of `on_test_keydown` passes over: a Shift that begins a tap, and
CapsLock where it is switched off. -/
def PassesOver (env : TestEnv) (evt : KeyboardEvent) (t : Tip E) : Prop :=
  t.BeginsTap evt = true ∨
    evt.ksym = Keysyms.symCapslock ∧ (t.reloaded env.config).enableCapsLock = false

instance (env : TestEnv) (evt : KeyboardEvent) (t : Tip E) : Decidable (t.PassesOver env evt) :=
  inferInstanceAs (Decidable (_ ∨ _))

/-- A new configuration replaces neither the language mode nor the composition. -/
theorem applyConfigIfChanged_frame (env : ConfigEnv) (t : Tip E) :
    (t.applyConfigIfChanged env).2.langMode = t.langMode ∧
      (t.applyConfigIfChanged env).2.isComposing = t.isComposing ∧
      (t.applyConfigIfChanged env).2.cfg = t.reloaded env := by
  unfold applyConfigIfChanged reloaded
  cases t.cfg.reloadIfNeeded env.fromReg with
  | error e => exact ⟨rfl, rfl, rfl⟩
  | ok r =>
    obtain ⟨changed, cfg⟩ := r
    cases changed with
    | false => exact ⟨rfl, rfl, rfl⟩
    | true =>
      unfold applyRuntimeConfig
      dsimp only
      split <;> exact ⟨rfl, rfl, rfl⟩

/-- Step 1. -/
theorem beforeVerdict_frame (env : TestEnv) (evt : KeyboardEvent) (t : Tip E) :
    (t.beforeVerdict env evt).1 = t.BeginsTap evt ∧
      (t.beforeVerdict env evt).2.langMode = t.langMode ∧
      (t.beforeVerdict env evt).2.isComposing = t.isComposing ∧
      (t.beforeVerdict env evt).2.cfg = t.reloaded env.config := by
  rw [beforeVerdict_reload]
  exact ⟨rfl, applyConfigIfChanged_frame env.config
    { t with shiftKeyState := t.testedShiftKeyState env.now evt }⟩

/-- A plain key is taken while composing, unless step 2 passes over it. -/
theorem verdict_of_plain (hevt : evt.Plain) {simulateEnglishLayout shiftDown : Bool}
    (hmode : t.langMode.isDisabled = false)
    (hkeys : ∀ kb ∈ t.keybindings, kb.«matches» evt = false) :
    t.verdict simulateEnglishLayout true shiftDown evt = true ↔
      t.isComposing = true ∧
        ¬ (shiftDown = true ∨ evt.ksym = Keysyms.symCapslock ∧ t.cfg.enableCapsLock = false) := by
  have hmatch : (t.keybindings.any fun kb => kb.«matches» evt) = false := by
    rw [List.any_eq_false]
    intro kb hkb
    rw [hkeys kb hkb]
    exact Bool.false_ne_true
  unfold verdict
  rw [hmode, hmatch, hevt.shift, hevt.control, hevt.alt, hevt.unprintable]
  cases shiftDown with
  | true => simp
  | false =>
    -- without modifiers, `is_composing` decides unless step 2.3 does
    by_cases hcaps : evt.ksym = Keysyms.symCapslock ∧ t.cfg.enableCapsLock = false
    · simp [hcaps]
    · cases hcomposing : t.isComposing with
      | true =>
        rw [not_and, Bool.not_eq_false] at hcaps
        simpa [imp_iff_not_or.mp hcaps] using hcaps
      | false => simp

/-- In a mutable context, `on_test_keydown` is its steps 1 to 4. -/
theorem onTestKeydown_eq (t : Tip E) (ev : Int → KeyboardEvent)
    (hcontext : env.context.isMutable = some true) :
    ∃ e : E, t.onTestKeydown env ev =
      (.ok ((beforeVerdict env (ev t.cfg.simulateEnglishLayout)
          { t with chewingEditor := e }).2.verdict (t.cfg.simulateEnglishLayout != 0) true
            (beforeVerdict env (ev t.cfg.simulateEnglishLayout) { t with chewingEditor := e }).1
            (ev t.cfg.simulateEnglishLayout)),
        (beforeVerdict env (ev t.cfg.simulateEnglishLayout) { t with chewingEditor := e }).2) := by
  refine ⟨setEditorOptions
    (fun opt => { opt with languageMode := t.langMode.toLanguageMode }) t.chewingEditor, ?_⟩
  unfold onTestKeydown
  rw [hcontext]

/-- **`on_test_keydown`** on a plain key that no keybinding claims. -/
theorem onTestKeydown_of_plain {ev : Int → KeyboardEvent}
    (hevt : (ev t.cfg.simulateEnglishLayout).Plain) (hcontext : env.context.isMutable = some true)
    (hmode : t.langMode.isDisabled = false)
    (hkeys : ∀ kb ∈ (t.onTestKeydown env ev).2.keybindings,
      kb.«matches» (ev t.cfg.simulateEnglishLayout) = false) :
    (t.onTestKeydown env ev).1 = .ok true ↔
      t.isComposing = true ∧ ¬ t.PassesOver env (ev t.cfg.simulateEnglishLayout) := by
  obtain ⟨e, heq⟩ := onTestKeydown_eq t ev hcontext
  rw [heq] at hkeys ⊢
  obtain ⟨hshift, hmode', hcomposing', hcfg⟩ :=
    beforeVerdict_frame env (ev t.cfg.simulateEnglishLayout) { t with chewingEditor := e }
  rw [Except.ok.injEq, verdict_of_plain hevt (hmode'.symm ▸ hmode) hkeys, hcomposing', hshift, hcfg]
  rfl

end Tip

end Verdict

/-! ## Sessions that fill the composition cell -/

namespace Tip

/-- Every queued session of the current cell writes an edit, and the session that
`pending_edit` reaches is one of them. -/
structure Serving (t : Tip E) : Prop extends t.Asynchronous where
  current : ∀ s ∈ t.queue, s.compositionCell = some t.composition →
    ∃ p, s = .setCompositionString t.composition p ∧ (t.store.pendings p).isSome
  owner : ∀ s ∈ t.queue, ∀ p, t.pendingEdit = some p → s.pendingCell = some p →
    s.compositionCell = some t.composition

/-- The session that starts the composition has still to run. -/
def Starting (t : Tip E) : Prop := t.upgradePendingEdit ≠ none ∧ t.isComposing = false

instance (t : Tip E) : Decidable t.Starting := inferInstanceAs (Decidable (_ ∧ _))

/-- The editor shows nothing unless something is composed or an edit is
outstanding. -/
def Backed (t : Tip E) : Prop :=
  preedit t.chewingEditor ≠ [] → t.isComposing = true ∨ t.upgradePendingEdit ≠ none

namespace Serving

variable {t u : Tip E} {zhconv : Str → Str} {commit preedit : Str}
  {segments : List (Nat × Nat)} {cursor : Nat}

omit [ChewingEditor E] in
theorem congr (h : t.Serving) (hsame : SameRequests t u) : u.Serving := by
  refine ⟨hsame.asynchronous h.toAsynchronous, ?_, ?_⟩
  · rw [hsame.queue, hsame.composition, hsame.store]
    exact h.current
  · rw [hsame.queue, hsame.composition, hsame.pendingEdit]
    exact h.owner

omit [ChewingEditor E] in
theorem runSession (h : t.Serving) : t.runSession.Serving := by
  refine ⟨h.toAsynchronous.runSession, ?_, ?_⟩
  · cases hq : t.queue with
    | nil =>
      rw [runSession_nil hq]
      exact h.current
    | cons s queue =>
      rw [runSession_cons hq]
      intro s' hs' hcell
      obtain ⟨p, heq, hp⟩ := h.current s' (hq ▸ List.mem_cons_of_mem s hs') hcell
      refine ⟨p, heq, ?_⟩
      show ((EditSession.run t.store s).pendings p).isSome
      rw [EditSession.run_pendings]
      exact hp
  · cases hq : t.queue with
    | nil =>
      rw [runSession_nil hq]
      exact h.owner
    | cons s queue =>
      rw [runSession_cons hq]
      exact fun s' hs' => h.owner s' (hq ▸ List.mem_cons_of_mem s hs')

omit [ChewingEditor E] in
/-- A session that has no cells changes nothing about the others. -/
theorem insertText (h : t.Serving) (text : Str) : (t.insertText text).Serving := by
  refine ⟨h.toAsynchronous.insertText text, ?_, ?_⟩
  · rw [Tip.insertText, requestEditSession_of_queued h.grant]
    intro s hs hcell
    rcases List.mem_append.mp hs with hs | hs
    · exact h.current s hs hcell
    · rw [List.mem_singleton.mp hs] at hcell
      cases hcell
  · rw [Tip.insertText, requestEditSession_of_queued h.grant]
    intro s hs p hedit hp
    rcases List.mem_append.mp hs with hs | hs
    · exact h.owner s hs p hedit hp
    · rw [List.mem_singleton.mp hs] at hp
      cases hp

omit [ChewingEditor E] in
theorem setCompositionString (h : t.Serving) :
    (t.setCompositionString zhconv commit preedit segments cursor).Serving := by
  refine ⟨h.toAsynchronous.setCompositionString, ?_, ?_⟩
  · cases hup : t.upgradePendingEdit with
    | some q =>
      rw [setCompositionString_of_some hup]
      intro s hs hcell
      obtain ⟨p, heq, hp⟩ := h.current s hs hcell
      exact ⟨p, heq, Store.isSome_setPending _ (.inr hp)⟩
    | none =>
      rw [setCompositionString_of_none hup h.grant]
      intro s hs hcell
      rcases List.mem_append.mp hs with hs | hs
      · obtain ⟨p, heq, hp⟩ := h.current s hs hcell
        exact ⟨p, heq, Store.isSome_setPending _ (.inr hp)⟩
      · exact ⟨t.nextCell, List.mem_singleton.mp hs, Store.isSome_setPending _ (.inl rfl)⟩
  · cases hup : t.upgradePendingEdit with
    | some q =>
      rw [setCompositionString_of_some hup]
      exact h.owner
    | none =>
      rw [setCompositionString_of_none hup h.grant]
      intro s hs p hedit hp
      cases hedit
      rcases List.mem_append.mp hs with hs | hs
      · -- the new cell is not among the old ones
        exact absurd (h.pendingCell s hs _ hp) (Nat.lt_irrefl _)
      · rw [List.mem_singleton.mp hs]
        rfl

omit [ChewingEditor E] in
theorem endComposition (h : t.Serving) : t.endComposition.Serving := by
  refine ⟨h.toAsynchronous.endComposition, ?_, ?_⟩
  · rw [endComposition_of_asynchronous h.toAsynchronous]
    intro s hs hcell
    rcases List.mem_append.mp hs with hs | hs
    · exact absurd (h.compositionCell s hs _ hcell) (Nat.lt_irrefl _)
    · rw [List.mem_singleton.mp hs] at hcell
      exact absurd (Option.some.inj hcell) (Nat.ne_of_lt h.composition)
  · rw [endComposition_of_asynchronous h.toAsynchronous]
    intro s _ p hedit
    cases hedit

theorem updatePreedit (h : t.Serving) : (t.updatePreedit zhconv commit).Serving :=
  updatePreedit_keeps (fun _ _ _ _ hu => hu.setCompositionString) (fun _ hu => hu.endComposition) h

theorem insertCommit (h : t.Serving) (textAction : Option Str) :
    (t.insertCommit textAction).Serving := by
  have hacked := h.congr (.setEditor t (ack t.chewingEditor))
  rw [insertCommit_eq]
  cases textAction with
  | none => exact hacked.insertText _
  | some param => exact (hacked.insertText _).insertText param

omit [ChewingEditor E] in
/-- A session that runs fills the current cell, or neither touches it nor owns the
outstanding edit. -/
theorem isSome_runSession (h : t.Serving)
    (hbacked : (t.store.compositions t.composition).isSome ∨ t.upgradePendingEdit ≠ none) :
    (t.runSession.store.compositions t.composition).isSome ∨
      t.runSession.upgradePendingEdit ≠ none := by
  cases hq : t.queue with
  | nil =>
    rw [runSession_nil hq]
    exact hbacked
  | cons s queue =>
    rw [runSession_cons hq]
    have hs : s ∈ t.queue := hq ▸ List.mem_cons_self
    by_cases hcell : s.compositionCell = some t.composition
    · -- a session of the current cell fills it
      obtain ⟨p, rfl, hp⟩ := h.current s hs hcell
      exact .inl (EditSession.run_setCompositionString_filled hp)
    · refine hbacked.imp (fun hfilled => ?_) fun hup => ?_
      · show ((EditSession.run t.store s).compositions t.composition).isSome
        rw [EditSession.run_compositions_of_ne hcell]
        exact hfilled
      · -- the edit is still owned by a session behind this one
        obtain ⟨p, hp⟩ := Option.ne_none_iff_exists'.mp hup
        obtain ⟨hedit, hown⟩ := upgradePendingEdit_eq_some.mp hp
        obtain ⟨s', hs', hpending⟩ := owned_iff.mp hown
        rw [hq] at hs'
        rcases List.mem_cons.mp hs' with rfl | hs'
        · exact absurd (h.owner s' hs p hedit hpending) hcell
        · have hup' : upgradePendingEdit { t with store := EditSession.run t.store s, queue := queue }
              = some p := upgradePendingEdit_eq_some.mpr ⟨hedit, owned_iff.mpr ⟨s', hs', hpending⟩⟩
          rw [hup']
          exact Option.some_ne_none p

end Serving

/-! ## An editor with a preedit is backed -/

namespace Backed

variable {t : Tip E} {zhconv : Str → Str} {commit : Str}

theorem runSession (h : t.Backed) (hserving : t.Serving) : t.runSession.Backed := by
  intro hne
  rw [runSession_service] at hne
  unfold isComposing
  rw [runSession_service]
  -- an open candidate list stays open; otherwise the cell decides
  by_cases hlist : t.candidateList.isSome = true
  · rw [hlist, Bool.or_true]
    exact .inl rfl
  · rw [Bool.eq_false_iff.mpr hlist, Bool.or_false]
    refine hserving.isSome_runSession ((h hne).imp_left fun hcomposing => ?_)
    exact (Bool.or_eq_true_iff.mp hcomposing).resolve_right hlist

/-- **`update_preedit`** requests an edit if there is something to show. -/
theorem updatePreedit (hserving : t.Serving) : (t.updatePreedit zhconv commit).Backed := by
  intro hne
  rw [updatePreedit_chewingEditor] at hne
  obtain ⟨segments, cursor, heq⟩ := updatePreedit_of_continues zhconv commit (.inl hne)
  rw [heq, upgradePendingEdit_setCompositionString hserving.grant]
  exact .inr (Option.some_ne_none _)

end Backed

end Tip

/-! ## Whole runs -/

/-- A key that is inserted directly leaves no preedit behind, unless an edit is
outstanding. -/
def KeyInput.LeavesNothing (t : Tip E) (k : KeyInput E) : Prop :=
  (k.processed t).Direct k.textAction → t.upgradePendingEdit = none → preedit (ack k.editor) = []

/-- The condition on a step of a run. -/
def Typing.LeavesNothing (t : Tip E) : Typing E → Prop
  | .key k => k.LeavesNothing t
  | .session => True

instance (t : Tip E) (k : KeyInput E) : Decidable (k.LeavesNothing t) :=
  inferInstanceAs (Decidable (_ → _))

instance (t : Tip E) : (a : Typing E) → Decidable (a.LeavesNothing t)
  | .key k => inferInstanceAs (Decidable (k.LeavesNothing t))
  | .session => .isTrue trivial

namespace Tip

variable {t u : Tip E} {zhconv : Str → Str} {a : Typing E}

omit [ChewingEditor E] in
theorem AtRest.serving {before after : Wide} (h : t.AtRest before after) : t.Serving := by
  refine ⟨h.toAsynchronous, ?_, ?_⟩
  · rw [h.queue]
    exact nofun
  · rw [h.queue]
    exact nofun

/-- **One step** keeps the sessions in order. -/
theorem Serving.step (h : t.Serving) (hstep : TypingStep zhconv t a u) : u.Serving := by
  cases hstep with
  | session _ => exact h.runSession
  | @key _ k hkey =>
    have hprocessed := h.congr (k.sameRequests t)
    rcases Tip.deliverKey_cases hkey with ⟨-, rfl⟩ | ⟨-, rfl⟩
    · exact hprocessed.insertCommit _
    · exact (hprocessed.congr updateInput_frame).updatePreedit

/-- **One step** leaves no preedit that nothing backs. -/
theorem Backed.step (h : t.Backed) (hserving : t.Serving) (hstep : TypingStep zhconv t a u)
    (hok : a.LeavesNothing t) : u.Backed := by
  cases hstep with
  | session _ => exact h.runSession hserving
  | @key _ k hkey =>
    have hprocessed := hserving.congr (k.sameRequests t)
    rcases Tip.deliverKey_cases hkey with ⟨hdirect, rfl⟩ | ⟨-, rfl⟩
    · -- the key bypasses `update_preedit`: only an outstanding edit can back a preedit
      intro hne
      rw [insertCommit_chewingEditor] at hne
      have hok : k.LeavesNothing t := hok
      rw [upgradePendingEdit_insertCommit hprocessed.toAsynchronous]
      exact .inr fun hup => hne (hok hdirect hup)
    · exact .updatePreedit (hprocessed.congr updateInput_frame)

/-- A key that does leave a preedit behind leaves it with nothing composed. -/
theorem not_isComposing_of_left {k : KeyInput E} (h : t.Serving)
    (hstep : TypingStep zhconv t (.key k) u) (hleft : ¬ k.LeavesNothing t) :
    preedit u.chewingEditor ≠ [] ∧ u.isComposing = false := by
  obtain ⟨hdirect, hrest⟩ := Classical.not_imp.mp hleft
  obtain ⟨-, hpreedit⟩ := Classical.not_imp.mp hrest
  cases hstep with
  | key hkey =>
    rcases Tip.deliverKey_cases hkey with ⟨-, rfl⟩ | ⟨hnot, -⟩
    · rw [insertCommit_chewingEditor]
      refine ⟨hpreedit, ?_⟩
      rw [isComposing_insertCommit (by exact h.grant)]
      exact hdirect.1
    · exact absurd hdirect hnot

end Tip

/-- **When a key of the composition is taken.** After every run of keys and
sessions in which no directly inserted key leaves a preedit behind: while the editor
has a preedit, a plain key that no keybinding claims is taken exactly when the
session that starts the composition has run, and step 2 does not pass over the
key. -/
theorem takes_plain_key_iff [Keysyms] {zhconv : Str → Str} {t₀ t : Tip E} {before after : Wide}
    {ls : List (Typing E)} (h₀ : t₀.AtRest before after) (hempty : preedit t₀.chewingEditor = [])
    (hrun : Run (Guarded Typing.LeavesNothing (TypingStep zhconv)) t₀ ls t)
    (hpreedit : preedit t.chewingEditor ≠ []) (hmode : t.langMode.isDisabled = false)
    {env : Tip.TestEnv} {ev : Int → KeyboardEvent}
    (hcontext : env.context.isMutable = some true)
    (hevt : (ev t.cfg.simulateEnglishLayout).Plain)
    (hkeys : ∀ kb ∈ (t.onTestKeydown env ev).2.keybindings,
      kb.«matches» (ev t.cfg.simulateEnglishLayout) = false) :
    (t.onTestKeydown env ev).1 = .ok true ↔
      ¬ t.Starting ∧ ¬ t.PassesOver env (ev t.cfg.simulateEnglishLayout) := by
  have hinv : t.Serving ∧ t.Backed := by
    refine hrun.invariant (I := fun t => t.Serving ∧ t.Backed)
      ⟨h₀.serving, fun hne => absurd hempty hne⟩ ?_
    rintro t a u ⟨hserving, hbacked⟩ ⟨hok, hstep⟩
    exact ⟨hserving.step hstep, hbacked.step hserving hstep hok⟩
  have hcomposing : t.isComposing = true ↔ ¬ t.Starting := by
    constructor
    · intro hcomposing hstarting
      rw [hstarting.2] at hcomposing
      cases hcomposing
    · intro hstarted
      by_contra hidle
      exact hstarted ⟨(hinv.2 hpreedit).resolve_left hidle, Bool.eq_false_iff.mpr hidle⟩
  rw [Tip.onTestKeydown_of_plain hevt hcontext hmode hkeys, hcomposing]

open ScriptedEditor in
/-- A bopomofo key and its session; Backspace is then taken. -/
theorem takes_backspace_after_session :
    (([.key (key (absorbed ['ㄅ'])), .session].foldl (Typing.next id)
      (Tip.fresh .queued)).onTestKeydown testEnv fun _ => plainKey Keysyms.symBackspace).1
        = .ok true := by
  have hrun : Run (Guarded Typing.LeavesNothing (TypingStep id)) (Tip.fresh .queued)
      [.key (key (absorbed ['ㄅ'])), .session] _ :=
    Along.run (fun t a => a.LeavesNothing t ∧ a.Enabled id t) (Typing.next id)
      (fun _ _ h => ⟨h.1, h.2.step⟩) (by decide +kernel)
  exact (takes_plain_key_iff Tip.fresh_atRest rfl hrun (by decide +kernel) (by decide +kernel)
    (by decide +kernel) ⟨by decide +kernel, by decide +kernel, by decide +kernel,
      by decide +kernel⟩ (by decide +kernel)).mpr (by decide +kernel)

open ScriptedEditor in
/-- A bopomofo key whose session has not run yet, then Backspace: the application
gets it. -/
theorem backspace_leaks_before_session :
    ¬ ∀ (E : Type) [ChewingEditor E] [Keysyms] (zhconv : Str → Str) (t₀ t : Tip E)
        (before after : Wide) (ls : List (Typing E)), t₀.AtRest before after →
      preedit t₀.chewingEditor = [] → Run (TypingStep zhconv) t₀ ls t →
      preedit t.chewingEditor ≠ [] → t.langMode.isDisabled = false →
      ∀ (env : Tip.TestEnv) (ev : Int → KeyboardEvent), env.context.isMutable = some true →
        (ev t.cfg.simulateEnglishLayout).Plain →
        ¬ t.PassesOver env (ev t.cfg.simulateEnglishLayout) →
        (∀ kb ∈ (t.onTestKeydown env ev).2.keybindings,
          kb.«matches» (ev t.cfg.simulateEnglishLayout) = false) →
        (t.onTestKeydown env ev).1 = .ok true := by
  intro hclaim
  have htaken := hclaim ScriptedEditor id (Tip.fresh .queued) _ [] []
    [.key (key (absorbed ['ㄅ']))] Tip.fresh_atRest rfl
    (Along.run (fun t a => a.Enabled id t) (Typing.next id) (fun _ _ h => h.step)
      (by decide +kernel))
    (by decide +kernel) (by decide +kernel) testEnv (fun _ => plainKey Keysyms.symBackspace)
    (by decide +kernel)
    ⟨by decide +kernel, by decide +kernel, by decide +kernel, by decide +kernel⟩
    (by decide +kernel) (by decide +kernel)
  exact absurd htaken (by decide +kernel)

end ChewingTsf
