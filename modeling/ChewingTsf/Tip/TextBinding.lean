import ChewingTsf.Tip.KeyCalls
import ChewingTsf.Tip.KeyTest

/-!
# Text bindings

A keybinding with action `text` commits what is composed and brings its parameter
into the document after it. The code that delivers the text asks for
`last_key_behavior`, which tells what the editor did with the last key it got. With
something to commit this is `Commit`; with an empty editor it is left from an earlier
key, and the text is dropped if that key was ignored, or absorbed with a candidate
list or a composition still open.
-/

namespace ChewingTsf

open ChewingEditor

section TextBinding

variable {E : Type}

/-- What a text binding relies on of the editor: `commit` moves the whole preedit to
the commit buffer and is the last behaviour; nothing else that is called on the way
touches either. A new editor is empty. -/
structure CommitLaws (E : Type) [EditorCommands E] : Prop where
  isEmpty : ∀ e : E, EditorCommands.isEmpty e = true ↔ preedit e = []
  commit_ok : ∀ e : E, preedit e ≠ [] → (EditorCommands.commit e).2 = true
  commit_behavior : ∀ e : E, preedit e ≠ [] →
    lastKeyBehavior (EditorCommands.commit e).1 = .commit
  commit_buffer : ∀ e : E, preedit e ≠ [] → displayCommit (EditorCommands.commit e).1 = preedit e
  commit_preedit : ∀ e : E, preedit e ≠ [] → preedit (EditorCommands.commit e).1 = []
  ack : ∀ e : E, preedit (ack e) = preedit e
  cancelSelecting : ∀ e : E, preedit (cancelSelecting e).1 = preedit e ∧
    displayCommit (cancelSelecting e).1 = displayCommit e
  setEditorOptions : ∀ (f : EditorOptions → EditorOptions) (e : E),
    preedit (setEditorOptions f e) = preedit e ∧
      displayCommit (setEditorOptions f e) = displayCommit e
  chewing : ∀ userPath programPath : Str, preedit (chewing userPath programPath : E) = [] ∧
    displayCommit (chewing userPath programPath : E) = []
  setSyllableEditor : ∀ (kbtype : KeyboardLayoutCompat) (e : E), preedit e = [] →
    preedit (setSyllableEditor kbtype e) = [] ∧
      displayCommit (setSyllableEditor kbtype e) = displayCommit e
  setConversionEngine : ∀ (kind : ConversionEngineKind) (e : E),
    preedit (setConversionEngine kind e) = preedit e ∧
      displayCommit (setConversionEngine kind e) = displayCommit e

/-- The text that the calls hand over, in order. -/
def handedText (zhconv : Str → Str) (t : Tip E) (calls : List EditCall) : Str :=
  (calls.filterMap (EditCall.handed? zhconv t)).flatten

namespace Tip

/-! ## What a delivery hands over -/

section Delivery

variable [ChewingEditor E] {zhconv : Str → Str} {t v w : Tip E}

/-- The text that `update_preedit` delivers: none if nothing is composed any more. -/
theorem handedText_updatePreeditCalls (hplain : t.outputSimpChinese = false) (commit : Str)
    (w : Tip E) :
    handedText zhconv t (w.updatePreeditCalls commit)
      = if preedit w.chewingEditor = [] ∧ w.isComposing = false then [] else commit := by
  have hcommit : ∀ preedit segments cursor,
      (EditCall.setCompositionString commit preedit segments cursor).handed? zhconv t
        = some commit := by
    intro preedit segments cursor
    show some (t.converted zhconv commit) = _
    rw [converted, hplain]
    rfl
  have hend : (EditCall.endComposition).handed? zhconv t = none := rfl
  unfold handedText
  by_cases hbuf : preedit w.chewingEditor = []
  · rw [updatePreeditCalls_of_nil hbuf]
    cases w.isComposing with
    | true => cases w.candidateList.isNone <;> simp [hcommit, hend]
    | false => cases w.candidateList.isNone <;> simp [hend, hbuf]
  · obtain ⟨segments, cursor, heq⟩ := updatePreeditCalls_of_ne hbuf commit
    rw [heq]
    simp [hcommit, hbuf]

theorem handedText_insertCommitCalls (param : Str) (v : Tip E) :
    handedText zhconv t (v.insertCommitCalls (some param))
      = displayCommit v.chewingEditor ++ param := by
  have hinsert : ∀ s : Str, (EditCall.insertText s).handed? zhconv t = some s := fun _ => rfl
  unfold handedText insertCommitCalls
  simp [hinsert]

end Delivery

section Laws

variable [EditorCommands E] {zhconv : Str → Str} {t v : Tip E} {env : CandidateEnv} {param : Str}

/-- Something is still composed when the candidates have been updated. -/
def StaysComposed (env : CandidateEnv) (v : Tip E) : Prop :=
  preedit v.chewingEditor ≠ [] ∨ (v.updateCandidates env).2.isComposing = true

instance (env : CandidateEnv) (v : Tip E) : Decidable (v.StaysComposed env) :=
  inferInstanceAs (Decidable (_ ∨ _))

theorem updateCandidates_editor (laws : CommitLaws E) (env : CandidateEnv) (v : Tip E) :
    preedit (v.updateCandidates env).2.chewingEditor = preedit v.chewingEditor ∧
      displayCommit (v.updateCandidates env).2.chewingEditor
        = displayCommit v.chewingEditor := by
  obtain ⟨-, heq | heq⟩ := v.updateCandidates_frame env
  · rw [heq]
    exact ⟨rfl, rfl⟩
  · rw [heq]
    exact laws.cancelSelecting v.chewingEditor

/-- What `update_preedit` gets. -/
theorem updateInput_text (laws : CommitLaws E) (env : CandidateEnv) (param : Str) (v : Tip E) :
    (v.updateInput env (some param)).1 = (if lastKeyBehavior v.chewingEditor = .commit then
        displayCommit v.chewingEditor ++ param else []) ∧
      preedit (v.updateInput env (some param)).2.chewingEditor = preedit v.chewingEditor ∧
      (v.updateInput env (some param)).2.isComposing
        = (v.updateCandidates env).2.isComposing := by
  obtain ⟨hpreedit, hbuffer⟩ := updateCandidates_editor laws env v
  unfold updateInput takeCommit
  split
  · refine ⟨?_, ?_, rfl⟩
    · rw [hbuffer]
      rfl
    · exact (laws.ack _).trans hpreedit
  · exact ⟨rfl, hpreedit, rfl⟩

/-- The text that a composing service delivers for a text binding. -/
theorem handedText_updateInput (laws : CommitLaws E) (hplain : t.outputSimpChinese = false)
    (v : Tip E) :
    handedText zhconv t ((v.updateInput env (some param)).2.updatePreeditCalls
        (v.updateInput env (some param)).1)
      = if lastKeyBehavior v.chewingEditor = .commit ∧ v.StaysComposed env then
          displayCommit v.chewingEditor ++ param else [] := by
  obtain ⟨hcommit, hpreedit, hcomposing⟩ := updateInput_text laws env param v
  rw [handedText_updatePreeditCalls hplain, hcommit, hpreedit, hcomposing]
  by_cases hbuf : preedit v.chewingEditor = []
  · cases hopen : (v.updateCandidates env).2.isComposing with
    | true =>
      have hstays : v.StaysComposed env := .inr hopen
      simp [hstays]
    | false =>
      have hstays : ¬ v.StaysComposed env := by simp [StaysComposed, hbuf, hopen]
      simp [hstays, hbuf]
  · have hstays : v.StaysComposed env := .inl hbuf
    simp [hstays, hbuf]

/-- **The delivery of a text binding**: when it succeeds, and hands over `s`. -/
theorem deliverKey_text_iff (laws : CommitLaws E) (hplain : t.outputSimpChinese = false)
    (v : Tip E) (s : Str) :
    ((v.deliverKey zhconv env (some param)).1 = .ok true ∧
        handedText zhconv t (v.deliverKeyCalls env (some param)) = s) ↔
      lastKeyBehavior v.chewingEditor ≠ .ignore ∧
        if v.isComposing then
          ¬ v.CandidatesPanic env ∧
            (if lastKeyBehavior v.chewingEditor = .commit ∧ v.StaysComposed env then
              displayCommit v.chewingEditor ++ param else []) = s
        else displayCommit v.chewingEditor ++ param = s := by
  have hdirect : v.Direct (some param) ↔ v.isComposing = false := by
    unfold Direct
    simp
  unfold deliverKeyCalls
  by_cases hignore : lastKeyBehavior v.chewingEditor = .ignore
  · refine iff_of_false ?_ fun h => h.1 hignore
    unfold deliverKey
    dsimp only
    rw [if_pos hignore]
    simp
  · rw [if_neg hignore]
    cases hcomposing : v.isComposing with
    | false =>
      -- both texts are inserted
      have hyes := hdirect.mpr hcomposing
      have hok : (v.deliverKey zhconv env (some param)).1 = .ok true := by
        unfold deliverKey
        dsimp only
        rw [if_neg hignore, if_pos hyes]
      rw [if_pos hyes, handedText_insertCommitCalls, hok]
      simp [hignore]
    | true =>
      have hnot : ¬ v.Direct (some param) := by
        rw [hdirect, hcomposing]
        exact Bool.noConfusion
      rw [if_neg hnot, if_pos rfl]
      by_cases hpanic : v.CandidatesPanic env
      · rw [deliverKey_of_panic hignore hnot hpanic]
        simp [hpanic]
      · rw [deliverKey_of_update hignore hnot hpanic, if_neg hpanic,
          handedText_updateInput laws hplain]
        simp [hignore, hpanic]

/-! ## What a reload leaves -/

/-- A new editor is empty. -/
theorem buildEditorFromCfg_empty (laws : CommitLaws E) {config : ConfigEnv}
    {cfg : ChewingTsfConfig} {e : E} (h : buildEditorFromCfg config cfg = some e) :
    preedit e = [] ∧ displayCommit e = [] := by
  obtain ⟨userPath, programPath, f, kbtype, kind, rfl, -⟩ := buildEditorFromCfg_eq_some h
  obtain ⟨hpreedit, hbuffer⟩ := laws.chewing userPath programPath
  obtain ⟨hpreedit', hbuffer'⟩ := laws.setEditorOptions f (chewing userPath programPath)
  obtain ⟨hpreedit'', hbuffer''⟩ := laws.setSyllableEditor kbtype
    (setEditorOptions f (chewing userPath programPath : E)) (hpreedit'.trans hpreedit)
  obtain ⟨hpreedit₃, hbuffer₃⟩ := laws.setConversionEngine kind
    (setSyllableEditor kbtype (setEditorOptions f (chewing userPath programPath : E)))
  exact ⟨hpreedit₃.trans hpreedit'', hbuffer₃.trans (hbuffer''.trans (hbuffer'.trans hbuffer))⟩

/-- What is composed survives a reload that does not build a new editor. -/
structure PreeditReloaded (config : ConfigEnv) (t u : Tip E) : Prop where
  rebuilt : t.Rebuilds config → preedit u.chewingEditor = [] ∧ displayCommit u.chewingEditor = []
  kept : ¬ t.Rebuilds config → preedit u.chewingEditor = preedit t.chewingEditor

theorem PreeditReloaded.applyConfigIfChanged [Keysyms] (laws : CommitLaws E)
    (config : ConfigEnv) (t : Tip E) :
    PreeditReloaded config t (t.applyConfigIfChanged config).2 := by
  by_cases hchanged : t.Changed config
  · obtain ⟨cfg, hreg, hne⟩ := hchanged
    rw [applyConfigIfChanged_of_changed hreg hne]
    by_cases hdirs : config.Dirs
    · obtain ⟨editor, hbuilt, heq⟩ := applyRuntimeConfig_of_dirs hdirs { t with cfg := cfg }
      rw [heq]
      exact ⟨fun _ => buildEditorFromCfg_empty laws hbuilt,
        fun hnot => absurd ⟨⟨cfg, hreg, hne⟩, hdirs⟩ hnot⟩
    · rw [applyRuntimeConfig_of_not_dirs hdirs]
      exact ⟨fun hrebuilds => absurd hrebuilds.2 hdirs, fun _ => rfl⟩
  · rw [applyConfigIfChanged_of_not_changed hchanged]
    exact ⟨fun hrebuilds => absurd hrebuilds.1 hchanged, fun _ => rfl⟩

theorem PreeditReloaded.onTestKeydown [Keysyms] (laws : CommitLaws E) {env : TestEnv}
    {ev : Int → KeyboardEvent} {handled : Bool} {u : Tip E}
    (h : t.onTestKeydown env ev = (.ok handled, u)) : PreeditReloaded env.config t u := by
  obtain ⟨state, editor, heditor, rfl⟩ := onTestKeydown_ok h
  have hreload := PreeditReloaded.applyConfigIfChanged laws env.config
    { t with chewingEditor := editor, shiftKeyState := state }
  have hpreedit : preedit editor = preedit t.chewingEditor := by
    rw [heditor]
    exact (laws.setEditorOptions _ t.chewingEditor).1
  exact ⟨hreload.rebuilt, fun hkept => (hreload.kept hkept).trans hpreedit⟩

end Laws

/-! ## Text keys -/

section TextKey

variable [EditorCommands E] [KeyCodes]

/-- A key for which the first matching keybinding, for the key test and for `on_keydown`,
is the text binding `kb`. The keyboard is open, the context is mutable, and output is
not simplified. -/
structure TextKey (env : KeydownEnv) (ev : Int → KeyboardEvent) (kb : Keybinding) (t : Tip E) :
    Prop where
  langMode : t.langMode.isDisabled = false
  context : env.test.context.isMutable = some true
  outputSimpChinese : t.outputSimpChinese = false
  tested : (t.onTestKeydown env.test ev).2.keybindings.find?
    (·.«matches» (ev t.cfg.simulateEnglishLayout)) = some kb
  bound : (t.onTestKeydown env.test ev).2.keybindings.find?
    (·.«matches» (ev (t.onTestKeydown env.test ev).2.cfg.simulateEnglishLayout)) = some kb
  action : kb.action = "text".toList

/-- `on_keydown` returns `Ok(true)`, and hands over what is composed and then the text,
once. -/
structure DeliversOnce (zhconv : Str → Str) (env : KeydownEnv) (ev : Int → KeyboardEvent)
    (param : Str) (t : Tip E) : Prop where
  claimed : (t.onKeydown zhconv env ev).1 = .ok true
  text : handedText zhconv t (t.onKeydownCalls env ev) = preedit t.chewingEditor ++ param

/-- With an empty editor, the behaviour left from an earlier key is not `Ignore`. While
something is composed, it must even be `Commit`, unless there is no text to lose, and the
composition must not be over when the candidates have been updated. Nothing waits in the
commit buffer that would come first. -/
def TextReaches (env : CandidateEnv) (param : Str) (u : Tip E) : Prop :=
  lastKeyBehavior u.chewingEditor ≠ .ignore ∧
    if u.isComposing then
      ¬ u.CandidatesPanic env ∧
        if lastKeyBehavior u.chewingEditor = .commit ∧ u.StaysComposed env then
          displayCommit u.chewingEditor = []
        else param = []
    else displayCommit u.chewingEditor = []

/-- With something to commit, the composition must not be over when the candidates have
been updated. -/
def PendingReaches (env : CandidateEnv) (u : Tip E) : Prop :=
  u.isComposing = true → ∀ v, u.TextCommitted v → ¬ v.CandidatesPanic env ∧ v.StaysComposed env

/-- The condition on a text key: it does not begin a Shift tap, the editor is not replaced
while something is composed, and the delivery does not drop the text. -/
structure TextKeyReaches (env : KeydownEnv) (ev : Int → KeyboardEvent) (param : Str)
    (t : Tip E) : Prop where
  noTap : t.BeginsTap (ev t.cfg.simulateEnglishLayout) = false
  kept : t.Rebuilds env.test.config → preedit t.chewingEditor = []
  empty : preedit (t.onTestKeydown env.test ev).2.chewingEditor = [] →
    (t.onTestKeydown env.test ev).2.TextReaches env.candidates param
  pending : preedit (t.onTestKeydown env.test ev).2.chewingEditor ≠ [] →
    (t.onTestKeydown env.test ev).2.PendingReaches env.candidates

variable {zhconv : Str → Str} {env : KeydownEnv} {ev : Int → KeyboardEvent} {kb : Keybinding}
  {t u v : Tip E}

/-- The key test claims a text key unless it begins a Shift tap. -/
theorem TextKey.onTestKeydown_iff (h : t.TextKey env ev kb) :
    (t.onTestKeydown env.test ev).1 = .ok true
      ↔ t.BeginsTap (ev t.cfg.simulateEnglishLayout) = false := by
  have hmode : (t.onTestKeydown env.test ev).2.langMode.isDisabled = false := by
    rw [(ModeKept.onTestKeydown t env.test ev).langMode]
    exact h.langMode
  have hmatches := List.find?_some h.tested
  have hany : ((t.onTestKeydown env.test ev).2.keybindings.any fun kb =>
      kb.«matches» (ev t.cfg.simulateEnglishLayout)) = true :=
    List.any_eq_true.mpr ⟨kb, List.mem_of_find?_eq_some h.tested, hmatches⟩
  rw [onTestKeydown_verdict h.context, Except.ok.injEq]
  cases hbegins : t.BeginsTap (ev t.cfg.simulateEnglishLayout) with
  | true =>
    rw [verdict_begins]
    simp
  | false =>
    unfold verdict
    rw [hmode, hany]
    simp

omit [KeyCodes] in
/-- With these laws, the commit of a text binding succeeds. -/
theorem exists_textCommitted (laws : CommitLaws E) (u : Tip E) : ∃ v, u.TextCommitted v := by
  unfold TextCommitted
  cases hempty : EditorCommands.isEmpty u.chewingEditor with
  | true => exact ⟨u, rfl⟩
  | false =>
    have hpending : preedit u.chewingEditor ≠ [] := by
      rw [Ne, ← laws.isEmpty, hempty]
      exact Bool.noConfusion
    exact ⟨_, laws.commit_ok _ hpending, rfl⟩

/-- A claimed text key is delivered, with all that is composed committed. -/
theorem TextKey.beforeDelivery (h : t.TextKey env ev kb)
    (htest : t.onTestKeydown env.test ev = (.ok true, u)) (hcommitted : u.TextCommitted v) :
    t.beforeDelivery env ev = some (some kb.param, v) := by
  have hbound := h.bound
  rw [htest] at hbound
  rw [beforeDelivery_iff htest]
  refine ⟨v, ?_, rfl⟩
  unfold handleKeybinding
  rw [hbound]
  exact runAction_proceed_iff.mpr (by rw [if_pos h.action]; exact ⟨rfl, hcommitted⟩)

omit [KeyCodes] in
/-- With an empty editor. -/
theorem delivers_of_empty (laws : CommitLaws E) (hplain : t.outputSimpChinese = false)
    {candidates : CandidateEnv} {param : Str} (hempty : preedit u.chewingEditor = [])
    (hcommitted : u.TextCommitted v) :
    ((v.deliverKey zhconv candidates (some param)).1 = .ok true ∧
        handedText zhconv t (v.deliverKeyCalls candidates (some param)) = param)
      ↔ u.TextReaches candidates param := by
  obtain rfl : v = u := by
    rw [TextCommitted, if_pos ((laws.isEmpty u.chewingEditor).mpr hempty)] at hcommitted
    exact hcommitted
  have hbuffer : displayCommit v.chewingEditor ++ param = param
      ↔ displayCommit v.chewingEditor = [] := by
    simp
  rw [deliverKey_text_iff laws hplain]
  unfold TextReaches
  split
  · split
    · rw [hbuffer]
    · rw [eq_comm]
  · rw [hbuffer]

omit [KeyCodes] in
/-- With something to commit. -/
theorem delivers_of_pending (laws : CommitLaws E) (hplain : t.outputSimpChinese = false)
    {candidates : CandidateEnv} {param : Str} (hpending : preedit u.chewingEditor ≠ [])
    (hcommitted : u.TextCommitted v) :
    ((v.deliverKey zhconv candidates (some param)).1 = .ok true ∧
        handedText zhconv t (v.deliverKeyCalls candidates (some param))
          = preedit u.chewingEditor ++ param)
      ↔ u.PendingReaches candidates := by
  have hnot : ¬ EditorCommands.isEmpty u.chewingEditor = true := by
    rw [laws.isEmpty]
    exact hpending
  -- the text binding commits what is pending, so the editor behind it is this one
  have hunique : ∀ w, u.TextCommitted w ↔ w = v := by
    intro w
    rw [TextCommitted, if_neg hnot] at hcommitted ⊢
    rw [hcommitted.2]
    exact and_iff_right hcommitted.1
  have heditor : v = { u with chewingEditor := (EditorCommands.commit u.chewingEditor).1 } := by
    rw [TextCommitted, if_neg hnot] at hcommitted
    exact hcommitted.2
  have hbehavior : lastKeyBehavior v.chewingEditor = .commit := by
    rw [heditor]
    exact laws.commit_behavior _ hpending
  have hbuffer : displayCommit v.chewingEditor = preedit u.chewingEditor := by
    rw [heditor]
    exact laws.commit_buffer _ hpending
  have hcomposing : v.isComposing = u.isComposing := by
    rw [heditor]
    rfl
  have hlost : ¬ [] = preedit u.chewingEditor ++ param := fun h =>
    hpending (List.append_eq_nil_iff.mp h.symm).1
  rw [deliverKey_text_iff laws hplain, hbehavior, hbuffer, hcomposing]
  unfold PendingReaches
  simp only [hunique, forall_eq]
  by_cases hstays : v.StaysComposed candidates
  · cases u.isComposing <;> simp [hstays]
  · cases u.isComposing <;> simp [hstays, hpending]

omit [KeyCodes] in
/-- Text lost with the editor that a reload replaces is not handed over. -/
theorem not_delivers_of_rebuilt (laws : CommitLaws E) (hplain : t.outputSimpChinese = false)
    {candidates : CandidateEnv} {param lost : Str} (hlost : lost ≠ [])
    (hempty : preedit u.chewingEditor = [] ∧ displayCommit u.chewingEditor = [])
    (hcommitted : u.TextCommitted v) :
    ¬ ((v.deliverKey zhconv candidates (some param)).1 = .ok true ∧
      handedText zhconv t (v.deliverKeyCalls candidates (some param)) = lost ++ param) := by
  obtain rfl : v = u := by
    rw [TextCommitted, if_pos ((laws.isEmpty u.chewingEditor).mpr hempty.1)] at hcommitted
    exact hcommitted
  rw [deliverKey_text_iff laws hplain, hempty.2, List.nil_append]
  have hparam : ¬ param = lost ++ param := by
    simp [hlost]
  have hnil : ¬ [] = lost ++ param := fun h => hlost (List.append_eq_nil_iff.mp h.symm).1
  rintro ⟨-, hhanded⟩
  split at hhanded
  · obtain ⟨-, hhanded⟩ := hhanded
    split at hhanded
    · exact hparam hhanded
    · exact hnil hhanded
  · exact hparam hhanded

/-- A key that is not claimed is not delivered. -/
theorem not_claimed_onKeydown (h : (t.onTestKeydown env.test ev).1 ≠ .ok true) :
    (t.onKeydown zhconv env ev).1 ≠ .ok true := by
  unfold onKeydown
  rcases htest : t.onTestKeydown env.test ev with ⟨r, u⟩
  rw [htest] at h
  rcases r with _ | taken
  · exact nofun
  · cases taken with
    | false => exact fun hok => Bool.noConfusion (Except.ok.inj hok)
    | true => exact absurd rfl h

/-- **A text binding delivers its text** after what is composed, once, exactly when the key
does not begin a Shift tap, the editor is not replaced while something is composed, and the
behaviour and the composition left from earlier keys do not stop the delivery. -/
theorem deliversOnce_iff (laws : CommitLaws E) (zhconv : Str → Str) (h : t.TextKey env ev kb) :
    t.DeliversOnce zhconv env ev kb.param ↔ t.TextKeyReaches env ev kb.param := by
  have hplain := h.outputSimpChinese
  by_cases hclaimed : (t.onTestKeydown env.test ev).1 = .ok true
  · have htest : t.onTestKeydown env.test ev = (.ok true, (t.onTestKeydown env.test ev).2) :=
      Prod.ext hclaimed rfl
    obtain ⟨v, hcommitted⟩ := exists_textCommitted laws (t.onTestKeydown env.test ev).2
    have hreload := PreeditReloaded.onTestKeydown laws htest
    have hdelivery := h.beforeDelivery htest hcommitted
    have honce : t.DeliversOnce zhconv env ev kb.param ↔
        (v.deliverKey zhconv env.candidates (some kb.param)).1 = .ok true ∧
          handedText zhconv t (v.deliverKeyCalls env.candidates (some kb.param))
            = preedit t.chewingEditor ++ kb.param := by
      have hcalls : t.onKeydownCalls env ev
          = v.deliverKeyCalls env.candidates (some kb.param) := by
        rw [onKeydownCalls, hdelivery]
      rw [← hcalls, ← onKeydown_of_delivery zhconv hdelivery]
      exact ⟨fun ⟨hok, htext⟩ => ⟨hok, htext⟩, fun ⟨hok, htext⟩ => ⟨hok, htext⟩⟩
    rw [honce]
    by_cases hlost : t.Rebuilds env.test.config ∧ preedit t.chewingEditor ≠ []
    · -- a rebuilt editor has lost what was pending
      refine iff_of_false ?_ fun hreaches => hlost.2 (hreaches.kept hlost.1)
      exact not_delivers_of_rebuilt laws hplain hlost.2 (hreload.rebuilt hlost.1) hcommitted
    · have hkept : t.Rebuilds env.test.config → preedit t.chewingEditor = [] := fun hrebuilds =>
        by_contra fun hne => hlost ⟨hrebuilds, hne⟩
      have hsame : preedit (t.onTestKeydown env.test ev).2.chewingEditor
          = preedit t.chewingEditor := by
        by_cases hrebuilds : t.Rebuilds env.test.config
        · rw [(hreload.rebuilt hrebuilds).1, hkept hrebuilds]
        · exact hreload.kept hrebuilds
      have hnoTap := h.onTestKeydown_iff.mp hclaimed
      rw [← hsame]
      by_cases hempty : preedit (t.onTestKeydown env.test ev).2.chewingEditor = []
      · rw [hempty, List.nil_append, delivers_of_empty laws hplain hempty hcommitted]
        exact ⟨fun hreaches => ⟨hnoTap, hkept, fun _ => hreaches, fun hne => absurd hempty hne⟩,
          fun hreaches => hreaches.empty hempty⟩
      · rw [delivers_of_pending laws hplain hempty hcommitted]
        exact ⟨fun hreaches => ⟨hnoTap, hkept, fun hnil => absurd hnil hempty, fun _ => hreaches⟩,
          fun hreaches => hreaches.pending hempty⟩
  · refine iff_of_false (fun honce => not_claimed_onKeydown hclaimed honce.claimed) ?_
    exact fun hreaches => hclaimed (h.onTestKeydown_iff.mpr hreaches.noTap)

end TextKey

end Tip

end TextBinding

section

open TypedEditor SymbolEditor

theorem SymbolEditor.preedit_eq (e : SymbolEditor) : preedit e = e.bopomofo := by
  show (compositionBuffer 0 e.bopomofo []).1 = e.bopomofo
  unfold compositionBuffer
  cases e.bopomofo with
  | nil => rfl
  | cons c s => rfl

theorem SymbolEditor.commitLaws : CommitLaws SymbolEditor where
  isEmpty e := by
    rw [preedit_eq]
    exact List.isEmpty_iff
  commit_ok _ _ := rfl
  commit_behavior _ _ := rfl
  commit_buffer e _ := (preedit_eq e).symm
  commit_preedit _ _ := preedit_eq _
  ack e := (preedit_eq (ack e)).trans (preedit_eq e).symm
  cancelSelecting e := ⟨(preedit_eq (cancelSelecting e).1).trans (preedit_eq e).symm, rfl⟩
  setEditorOptions f e := ⟨(preedit_eq (setEditorOptions f e)).trans (preedit_eq e).symm, rfl⟩
  chewing _ _ := ⟨preedit_eq _, rfl⟩
  setSyllableEditor _ _ h := ⟨h, rfl⟩
  setConversionEngine _ _ := ⟨rfl, rfl⟩

/-- Ctrl+T inserts 好. -/
def goodConfig : ChewingTsfConfig := textConfig "好".toList

def goodBinding : Keybinding := ⟨textKey, "text".toList, "好".toList⟩

/-- Pressed when the service has started. -/
theorem Tip.deliversOnce_iff_activated :
    (SymbolEditor.activated goodConfig).tip.DeliversOnce id (keydownEnv goodConfig)
        (fun _ => textKey) "好".toList
      ↔ (SymbolEditor.activated goodConfig).tip.TextKeyReaches (keydownEnv goodConfig)
        (fun _ => textKey) "好".toList := by
  have hkey : (SymbolEditor.activated goodConfig).tip.TextKey (keydownEnv goodConfig)
      (fun _ => textKey) goodBinding :=
    ⟨by decide +kernel, by decide, by decide +kernel, by decide +kernel, by decide +kernel, rfl⟩
  exact deliversOnce_iff commitLaws id hkey

/-- Pressed while the list of symbols is open: the editor is empty, and the grave accent,
which it has absorbed, is its last behaviour. The text is dropped. -/
theorem Tip.text_dropped :
    ¬ ∀ (cfg : ChewingTsfConfig) (calls : List KeyboardCall) (k : Keyboard SymbolEditor)
      (env : KeydownEnv) (ev : Int → KeyboardEvent) (kb : Keybinding),
      Run (KeyboardStep id) (SymbolEditor.activated cfg) calls k → k.tip.queue = [] →
      k.tip.TextKey env ev kb → k.tip.DeliversOnce id env ev kb.param := by
  intro hclaim
  let typed := (KeyboardCall.keyDown (keydownEnv goodConfig)
    fun _ => ScriptedEditor.plainKey ⟨0x60⟩).next id (SymbolEditor.activated goodConfig)
  let ran := KeyboardCall.session.next id typed
  have hrun : Run (KeyboardStep id) (SymbolEditor.activated goodConfig)
      [.keyDown (keydownEnv goodConfig) fun _ => ScriptedEditor.plainKey ⟨0x60⟩, .session] ran :=
    .head rfl (.single rfl)
  have hkey : ran.tip.TextKey (keydownEnv goodConfig) (fun _ => textKey) goodBinding :=
    ⟨by decide +kernel, by decide, by decide +kernel, by decide +kernel, by decide +kernel, rfl⟩
  have honce := hclaim goodConfig _ ran (keydownEnv goodConfig) (fun _ => textKey) goodBinding hrun
    (by decide +kernel) hkey
  exact absurd honce.text (by decide +kernel)

end

end ChewingTsf
