import ChewingTsf.Tip.CandidateSync

/-!
# What a key-down asks of the document (tip/src/text_service/chewing.rs, `on_keydown`)

`on_keydown` edits the document by three calls: `insert_text`,
`set_composition_string` and `end_composition`. Which of them it makes, and with
what text, depends on the service and its editor only, not on how TSF runs the
sessions. `onKeydownCalls` lists them, and `onKeydown_perform` says that
`on_keydown` does to the document and to the requested sessions what these calls
do, and no more.
-/

namespace ChewingTsf

open ChewingEditor

/-- A call that edits the document. -/
inductive EditCall where
  | insertText (text : Str)
  | setCompositionString (commit preedit : Str) (segments : List (Nat × Nat)) (cursor : Nat)
  | endComposition
  deriving DecidableEq

namespace EditCall

/-- The call can bring text into the document. -/
def writes : EditCall → Bool
  | insertText _ | setCompositionString _ _ _ _ => true
  | endComposition => false

/-- The commit as the edit session gets it. -/
def handed? {E : Type} (zhconv : Str → Str) (t : Tip E) : EditCall → Option Str
  | insertText text => some text
  | setCompositionString commit _ _ _ => some (t.converted zhconv commit)
  | endComposition => none

def perform {E : Type} (zhconv : Str → Str) (t : Tip E) : EditCall → Tip E
  | insertText text => t.insertText text
  | setCompositionString commit preedit segments cursor =>
    t.setCompositionString zhconv commit preedit segments cursor
  | endComposition => t.endComposition

end EditCall

variable {E : Type}

namespace Tip

/-- The calls are made one after the other. -/
def performAll (zhconv : Str → Str) (calls : List EditCall) (t : Tip E) : Tip E :=
  calls.foldl (EditCall.perform zhconv) t

/-! ## The calls -/

section Calls

variable [ChewingEditor E]

/-- Those of `update_preedit`. -/
def updatePreeditCalls (commit : Str) (t : Tip E) : List EditCall :=
  let e := t.chewingEditor
  let (compositionBuf, segments) :=
    compositionBuffer (cursor e) (syllableBufferDisplay e) (intervals e)
  if compositionBuf ≠ [] then
    [.setCompositionString commit compositionBuf segments (cursor e)]
  else
    (if t.isComposing then [.setCompositionString commit [] [] 0] else []) ++
      if t.candidateList.isNone then [.endComposition] else []

theorem updatePreeditCalls_of_ne {t : Tip E} (h : preedit t.chewingEditor ≠ []) (commit : Str) :
    ∃ segments cursor, t.updatePreeditCalls commit
      = [.setCompositionString commit (preedit t.chewingEditor) segments cursor] :=
  ⟨_, _, if_pos h⟩

theorem updatePreeditCalls_of_nil {t : Tip E} (h : preedit t.chewingEditor = []) (commit : Str) :
    t.updatePreeditCalls commit
      = (if t.isComposing then [.setCompositionString commit [] [] 0] else []) ++
        if t.candidateList.isNone then [.endComposition] else [] :=
  if_neg (not_not_intro h)

/-- Those of a key that does not need `update_preedit`. -/
def insertCommitCalls (textAction : Option Str) (t : Tip E) : List EditCall :=
  .insertText (displayCommit t.chewingEditor) :: textAction.toList.map .insertText

/-- `update_candidates` panics. -/
def CandidatesPanic (env : CandidateEnv) (t : Tip E) : Prop :=
  (t.updateCandidates env).1 = .error .panic

instance (env : CandidateEnv) (t : Tip E) : Decidable (t.CandidatesPanic env) :=
  inferInstanceAs (Decidable (_ = _))

/-- Those of `on_keydown` from `last_key_behavior` on. -/
def deliverKeyCalls (env : CandidateEnv) (textAction : Option Str) (t : Tip E) : List EditCall :=
  if lastKeyBehavior t.chewingEditor = .ignore then []
  else if t.Direct textAction then t.insertCommitCalls textAction
  else if t.CandidatesPanic env then []
  else (t.updateInput env textAction).2.updatePreeditCalls (t.updateInput env textAction).1

end Calls

/-- Those of `on_keydown`. -/
def onKeydownCalls [EditorCommands E] [KeyCodes] (env : KeydownEnv) (ev : Int → KeyboardEvent)
    (t : Tip E) : List EditCall :=
  match t.beforeDelivery env ev with
  | none => []
  | some (textAction, v) => v.deliverKeyCalls env.candidates textAction

/-! ## Performing them -/

section Perform

variable {zhconv : Str → Str} {t u v : Tip E}

/-- A text that is handed over reaches the end of the queue, or the pending edit. -/
theorem handed_perform {c : EditCall} {text : Str} (hgrant : t.grant = .queued)
    (h : c.handed? zhconv t = some text) :
    (c.perform zhconv t).queue = t.queue ++ [.insertText (utf16 text)] ∨
      ∃ cs, (c.perform zhconv t).pendingString = some cs ∧ cs.commit = text := by
  cases c with
  | insertText s =>
    have hs : s = text := Option.some.inj h
    left
    show (t.requestEditSession (.insertText (utf16 s))).queue = _
    rw [requestEditSession_of_queued hgrant, hs]
  | setCompositionString commit preedit segments cursor =>
    have hs : t.converted zhconv commit = text := Option.some.inj h
    right
    exact ⟨_, pendingString_setCompositionString hgrant, hs⟩
  | endComposition => cases h

variable [ChewingEditor E]

omit [ChewingEditor E] in
theorem performAll_append (calls calls' : List EditCall) :
    t.performAll zhconv (calls ++ calls') = (t.performAll zhconv calls).performAll zhconv calls' :=
  List.foldl_append

/-- **`update_preedit`** makes its calls and does nothing else. -/
theorem updatePreedit_perform (zhconv : Str → Str) (commit : Str) (t : Tip E) :
    t.updatePreedit zhconv commit = t.performAll zhconv (t.updatePreeditCalls commit) := by
  unfold updatePreedit updatePreeditCalls
  dsimp only
  split
  · rfl
  · rw [performAll_append]
    cases t.isComposing with
    | true =>
      have hset : t.performAll zhconv [.setCompositionString commit [] [] 0]
          = t.setCompositionString zhconv commit [] [] 0 := rfl
      rw [if_pos rfl, if_pos rfl, hset, setCompositionString_candidateList]
      cases t.candidateList with
      | none => rfl
      | some list => rfl
    | false =>
      rw [if_neg Bool.false_ne_true, if_neg Bool.false_ne_true]
      cases t.candidateList with
      | none => rfl
      | some list => rfl

theorem insertCommit_perform (zhconv : Str → Str) (textAction : Option Str) (t : Tip E) :
    t.insertCommit textAction = { t with chewingEditor := ack t.chewingEditor }.performAll zhconv
      (t.insertCommitCalls textAction) := by
  rw [insertCommit_eq]
  cases textAction with
  | none => rfl
  | some param => rfl

/-- A commit that needs `update_preedit` is lost when `update_candidates` panics. -/
theorem deliverKey_of_panic {env : CandidateEnv} {textAction : Option Str}
    (hheeded : lastKeyBehavior t.chewingEditor ≠ .ignore) (hnot : ¬ t.Direct textAction)
    (hpanic : t.CandidatesPanic env) :
    t.deliverKey zhconv env textAction = (.error .panic, (t.updateCandidates env).2) := by
  unfold deliverKey
  dsimp only
  rw [if_neg hheeded, if_neg hnot]
  split
  · next w hw => rw [hw]
  · next r w hr hw =>
    unfold CandidatesPanic at hpanic
    rw [hw] at hpanic
    exact absurd hpanic hr

theorem deliverKey_of_update {env : CandidateEnv} {textAction : Option Str}
    (hheeded : lastKeyBehavior t.chewingEditor ≠ .ignore) (hnot : ¬ t.Direct textAction)
    (hpanic : ¬ t.CandidatesPanic env) :
    t.deliverKey zhconv env textAction = (.ok true,
      (t.updateInput env textAction).2.updatePreedit zhconv (t.updateInput env textAction).1) := by
  unfold deliverKey updateInput
  dsimp only
  rw [if_neg hheeded, if_neg hnot]
  split
  · next w hw =>
    unfold CandidatesPanic at hpanic
    rw [hw] at hpanic
    exact absurd rfl hpanic
  · next r w hr hw => rw [hw]

/-- **The delivery** of a key makes its calls, in a state that differs from its own in the
editor and the candidate list at most. -/
theorem deliverKey_perform (zhconv : Str → Str) (env : CandidateEnv) (textAction : Option Str)
    (t : Tip E) :
    ∃ u, SameRequests t u ∧
      (t.deliverKey zhconv env textAction).2
        = u.performAll zhconv (t.deliverKeyCalls env textAction) := by
  unfold deliverKeyCalls
  by_cases hignore : lastKeyBehavior t.chewingEditor = .ignore
  · rw [if_pos hignore]
    refine ⟨t, .refl t, ?_⟩
    unfold deliverKey
    dsimp only
    rw [if_pos hignore]
    rfl
  · rw [if_neg hignore]
    by_cases hdirect : t.Direct textAction
    · rw [if_pos hdirect]
      refine ⟨_, .setEditor t (ack t.chewingEditor), ?_⟩
      unfold deliverKey
      dsimp only
      rw [if_neg hignore, if_pos hdirect]
      exact insertCommit_perform zhconv textAction t
    · rw [if_neg hdirect]
      by_cases hpanic : t.CandidatesPanic env
      · rw [if_pos hpanic, deliverKey_of_panic hignore hdirect hpanic]
        exact ⟨_, (t.updateCandidates_frame env).1, rfl⟩
      · rw [if_neg hpanic, deliverKey_of_update hignore hdirect hpanic]
        exact ⟨_, updateInput_frame, updatePreedit_perform zhconv _ _⟩

end Perform

/-! ### Before the delivery -/

/-- No session is requested, and none rewritten. -/
def Unwritten (t u : Tip E) : Prop :=
  SameRequests { t with outputSimpChinese := u.outputSimpChinese } u

section Unwritten

variable {t u v : Tip E}

theorem SameRequests.of_onlyInput (h : OnlyInput t u) : SameRequests t u := by
  obtain ⟨editor, list, rfl⟩ := h
  exact ⟨rfl, rfl, rfl, rfl, rfl, rfl, rfl⟩

theorem SameRequests.unwritten (h : SameRequests t u) : Unwritten t u :=
  ⟨h.1, h.2, rfl, h.4, h.5, h.6, h.7⟩

theorem Unwritten.trans (h : Unwritten t u) (h' : Unwritten u v) : Unwritten t v :=
  ⟨h'.1.trans h.1, h'.2.trans h.2, rfl, h'.4.trans h.4, h'.5.trans h.5, h'.6.trans h.6,
    h'.7.trans h.7⟩

theorem SameRequests.onTestKeydown [ChewingEditor E] [Keysyms] (env : TestEnv)
    (ev : Int → KeyboardEvent) (t : Tip E) : SameRequests t (t.onTestKeydown env ev).2 := by
  obtain ⟨editor, -, heq | ⟨state, _, _, _, _, u, rfl, heq⟩⟩ := onTestKeydown_cases env ev t
  · rw [heq]
    exact .setEditor t editor
  · obtain ⟨cfg, kbtype, editor', keybindings, hreload⟩ := applyConfigIfChanged_eq env.config
      { t with chewingEditor := editor, shiftKeyState := state }
    rw [heq, hreload]
    exact ⟨rfl, rfl, rfl, rfl, rfl, rfl, rfl⟩

variable [EditorCommands E]

/-- A keybinding requests no session itself. -/
theorem Unwritten.runAction (env : KeydownEnv) (kb : Keybinding) (t : Tip E) :
    Unwritten t (t.runAction env kb).2 := by
  unfold Tip.runAction
  split
  · exact ⟨rfl, rfl, rfl, rfl, rfl, rfl, rfl⟩
  · split
    · exact ⟨rfl, rfl, rfl, rfl, rfl, rfl, rfl⟩
    · split
      · split <;> exact ⟨rfl, rfl, rfl, rfl, rfl, rfl, rfl⟩
      · split <;> exact ⟨rfl, rfl, rfl, rfl, rfl, rfl, rfl⟩

/-- The state that a text binding delivers its text in: with all that is composed
committed. -/
def TextCommitted (t u : Tip E) : Prop :=
  if EditorCommands.isEmpty t.chewingEditor then u = t
  else (EditorCommands.commit t.chewingEditor).2 = true ∧
    u = { t with chewingEditor := (EditorCommands.commit t.chewingEditor).1 }

/-- `on_keydown` goes on after two kinds of binding: those of a text, and those of the
candidate list. -/
theorem runAction_proceed_iff {env : KeydownEnv} {kb : Keybinding} {textAction : Option Str} :
    t.runAction env kb = (.ok (.proceed textAction), u) ↔
      if kb.action = "text".toList then textAction = some kb.param ∧ t.TextCommitted u
      else "selecting_".toList.isPrefixOf kb.action = true ∧ textAction = none ∧ u = t := by
  unfold runAction TextCommitted
  split
  · next haction =>
    rw [if_neg (by rw [haction]; decide)]
    refine iff_of_false ?_ fun h => absurd h.1 (by rw [haction]; decide)
    unfold toggleSimpChinese
    cases env.buttons <;> simp [Except.map]
  · split
    · next haction =>
      rw [if_neg (by rw [haction]; decide)]
      refine iff_of_false ?_ fun h => absurd h.1 (by rw [haction]; decide)
      unfold toggleHsuKeyboard
      cases env.message <;> simp [Except.map]
    · split
      · cases EditorCommands.isEmpty t.chewingEditor with
        | true => simp [eq_comm]
        | false =>
          dsimp only
          cases (EditorCommands.commit t.chewingEditor).2 with
          | true => simp [eq_comm]
          | false => simp
      · cases "selecting_".toList.isPrefixOf kb.action with
        | true => simp [eq_comm]
        | false => simp

/-- What `on_keydown` goes on with differs in the editor at most. -/
theorem runAction_proceed {env : KeydownEnv} {kb : Keybinding} {textAction : Option Str}
    (h : t.runAction env kb = (.ok (.proceed textAction), u)) :
    ∃ editor, u = { t with chewingEditor := editor } := by
  rw [runAction_proceed_iff] at h
  unfold TextCommitted at h
  split at h
  · obtain ⟨-, h⟩ := h
    split at h
    · exact ⟨t.chewingEditor, h⟩
    · exact ⟨_, h.2⟩
  · exact ⟨t.chewingEditor, h.2.2⟩

variable [KeyCodes]

/-- What precedes the delivery requests no session. -/
theorem beforeDelivery_sameRequests {env : KeydownEnv} {ev : Int → KeyboardEvent}
    {textAction : Option Str} (h : t.beforeDelivery env ev = some (textAction, v)) :
    SameRequests t v := by
  have htest := SameRequests.onTestKeydown env.test ev t
  unfold beforeDelivery at h
  split at h
  · next w hw =>
    rw [hw] at htest
    split at h
    · next action w' hbinding =>
      have hbound : SameRequests w w' := by
        unfold handleKeybinding at hbinding
        split at hbinding
        · rw [← (Prod.mk.inj hbinding).2]
          exact .refl w
        · obtain ⟨editor, rfl⟩ := runAction_proceed hbinding
          exact .setEditor w editor
      split at h
      · next v' hkey =>
        have hprocessed := SameRequests.of_onlyInput
          (OnlyInput.processKey env action (ev w.cfg.simulateEnglishLayout) w')
        rw [hkey] at hprocessed
        rw [← (Prod.mk.inj (Option.some.inj h)).2]
        exact htest.trans (hbound.trans hprocessed)
      · cases h
    · cases h
  · cases h

/-- `on_keydown` delivers a claimed key that neither the binding nor the candidate list
has dealt with. -/
theorem beforeDelivery_iff {env : KeydownEnv} {ev : Int → KeyboardEvent}
    {textAction : Option Str} (htest : t.onTestKeydown env.test ev = (.ok true, u)) :
    t.beforeDelivery env ev = some (textAction, v) ↔ ∃ w,
      u.handleKeybinding env (ev u.cfg.simulateEnglishLayout) = (.ok (.proceed textAction), w) ∧
        w.processKey env textAction (ev u.cfg.simulateEnglishLayout) = (.ok false, v) := by
  unfold beforeDelivery
  rw [htest]
  dsimp only
  constructor
  · intro h
    split at h
    · next action w hbinding =>
      split at h
      · next v' hkey =>
        cases h
        exact ⟨w, hbinding, hkey⟩
      · cases h
    · cases h
  · rintro ⟨w, hbinding, hkey⟩
    rw [hbinding]
    dsimp only
    rw [hkey]

/-- If `on_keydown` delivers the key, the delivery is the rest of it. -/
theorem onKeydown_of_delivery (zhconv : Str → Str) {env : KeydownEnv} {ev : Int → KeyboardEvent}
    {textAction : Option Str} (h : t.beforeDelivery env ev = some (textAction, v)) :
    t.onKeydown zhconv env ev = v.deliverKey zhconv env.candidates textAction := by
  unfold beforeDelivery at h
  unfold onKeydown handleKeydown
  split at h
  · next w hw =>
    split at h
    · next action w' hbinding =>
      split at h
      · next v' hkey =>
        cases h
        rw [hw]
        dsimp only
        rw [hbinding]
        dsimp only
        rw [hkey]
      · cases h
    · cases h
  · cases h

/-- If it does not, it edits nothing. -/
theorem onKeydown_of_no_delivery (zhconv : Str → Str) {env : KeydownEnv}
    {ev : Int → KeyboardEvent} (h : t.beforeDelivery env ev = none) :
    Unwritten t (t.onKeydown zhconv env ev).2 := by
  have htest := (SameRequests.onTestKeydown env.test ev t).unwritten
  unfold beforeDelivery at h
  unfold onKeydown handleKeydown
  -- the early returns of `on_keydown`, one after another
  rcases hw : t.onTestKeydown env.test ev with ⟨r, w⟩
  rw [hw] at h htest
  rcases r with _ | taken
  · exact htest
  · cases taken with
    | false => exact htest
    | true =>
      dsimp only at h ⊢
      have hbinding : Unwritten w (w.handleKeybinding env (ev w.cfg.simulateEnglishLayout)).2 := by
        unfold handleKeybinding
        split
        · exact (SameRequests.refl w).unwritten
        · exact .runAction env _ w
      rcases hbound : w.handleKeybinding env (ev w.cfg.simulateEnglishLayout) with ⟨r, w'⟩
      rw [hbound] at h hbinding
      have hdone := htest.trans hbinding
      rcases r with _ | binding
      · exact hdone
      · cases binding with
        | handled => exact hdone
        | proceed action =>
          dsimp only at h ⊢
          have hkey := (SameRequests.of_onlyInput
            (OnlyInput.processKey env action (ev w.cfg.simulateEnglishLayout) w')).unwritten
          rcases hprocess : w'.processKey env action (ev w.cfg.simulateEnglishLayout) with ⟨r, v⟩
          rw [hprocess] at h hkey
          rcases r with _ | returns
          · exact hdone.trans hkey
          · cases returns with
            | true => exact hdone.trans hkey
            | false => cases h

/-- **`on_keydown`** does to the document and to the sessions what its calls do. -/
theorem onKeydown_perform (zhconv : Str → Str) (env : KeydownEnv) (ev : Int → KeyboardEvent)
    (t : Tip E) :
    ∃ u, SameRequests t u ∧
      Unwritten (u.performAll zhconv (t.onKeydownCalls env ev)) (t.onKeydown zhconv env ev).2 := by
  unfold onKeydownCalls
  cases h : t.beforeDelivery env ev with
  | none => exact ⟨t, .refl t, onKeydown_of_no_delivery zhconv h⟩
  | some p =>
    obtain ⟨textAction, v⟩ := p
    obtain ⟨u, hsame, hperform⟩ := deliverKey_perform zhconv env.candidates textAction v
    refine ⟨u, (beforeDelivery_sameRequests h).trans hsame, ?_⟩
    rw [onKeydown_of_delivery zhconv h, hperform]
    exact (SameRequests.refl _).unwritten

end Unwritten

end Tip

/-! ## An editor for examples -/

/-- An editor that takes every key for the bopomofo ㄅ, except that the grave accent
opens the list of symbols. -/
structure SymbolEditor where
  lastKeyBehavior : EditorKeyBehavior
  displayCommit : Str
  bopomofo : Str
  isSelecting : Bool
  options : EditorOptions

namespace SymbolEditor

def blank : SymbolEditor := ⟨.absorb, [], [], false, ScriptedEditor.defaultOptions⟩

def processKeyevent (evt : KeyboardEvent) (e : SymbolEditor) : SymbolEditor :=
  if evt.ksym = ⟨0x60⟩ then { e with lastKeyBehavior := .absorb, isSelecting := true }
  else { e with lastKeyBehavior := .absorb, bopomofo := e.bopomofo ++ ['ㄅ'] }

instance : ChewingEditor SymbolEditor where
  chewing _ _ := blank
  editorOptions e := e.options
  setEditorOptions f e := { e with options := f e.options }
  layoutOf _ := none
  setSyllableEditor _ e := e
  setConversionEngine _ e := e
  processKeyevent := processKeyevent
  lastKeyBehavior e := e.lastKeyBehavior
  displayCommit e := e.displayCommit
  ack e := { e with displayCommit := [] }
  isSelecting e := e.isSelecting
  cancelSelecting e := ({ e with isSelecting := false }, true)
  clearSyllableEditor e := { e with bopomofo := [] }
  clearCompositionEditor e := e
  intervals _ := []
  cursor _ := 0
  syllableBufferDisplay e := e.bopomofo
  totalPage _ := some 1
  currentPageNo _ := some 0
  paginatedCandidates _ := some ["…".toList]

instance : EditorCommands SymbolEditor where
  isEmpty e := e.bopomofo.isEmpty
  commit e :=
    ({ e with lastKeyBehavior := .commit, displayCommit := e.bopomofo, bopomofo := [] }, true)
  select _ e := ({ e with isSelecting := false }, true)
  symbols _ := []
  unlearnPhrase _ _ e := (e, true)

/-- Ctrl+t is bound to the text `param`. -/
def textConfig (param : Str) : ChewingTsfConfig :=
  { ChewingTsfConfig.default with keybind := [⟨"Ctrl+t".toList, "text".toList, param⟩] }

def textKey : KeyboardEvent := { ScriptedEditor.plainKey ⟨0x74⟩ with control := true }

open TypedEditor in
/-- Activated with the configuration `cfg`, in an empty document. -/
def activated (cfg : ChewingTsfConfig) : Keyboard SymbolEditor :=
  .activate ⟨⟨.ok cfg, some [], some []⟩, modeEnv, true⟩ SymbolEditor.blank ⟨[], 0, none⟩ .queued
    none

end SymbolEditor

end ChewingTsf
