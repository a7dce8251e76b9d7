import ChewingTsf.Tip.ClosedKeyboard
import ChewingTsf.Tip.Finalised

/-!
# What the service writes (tip/src/text_service/chewing.rs)

Whatever TSF calls, the service reaches the document in one way: it writes the cells that it
shares with its sessions, and its sessions run. `Tip.Wrote t u` says that the store of `u` comes
from that of `t` by such steps, and `KeyboardCall.wrote` that every call of TSF keeps to them. So
no run of the service takes back text that stands outside its composition
(`Keyboard.finalised_events`).
-/

namespace ChewingTsf

open ChewingEditor

namespace Tip

variable {E : Type}

/-- TSF runs any session that is queued, with the answers of `env`. -/
def runSessionAt (i : Nat) (env : TsfEnv) (t : Tip E) : Tip E :=
  match t.queue[i]? with
  | none => t
  | some s => { t with store := s.runWith env t.store, queue := t.queue.eraseIdx i }

/-- The oldest, with no answer that fails. -/
theorem runSessionAt_zero (t : Tip E) : t.runSessionAt 0 .quiet = t.runSession := by
  unfold runSessionAt runSession
  cases t.queue with
  | nil => rfl
  | cons s queue =>
    show { t with store := s.runWith .quiet t.store, queue := queue } = _
    rw [s.runWith_quiet]

/-- The store of `u` comes from that of `t` by sessions and by writes of their cells. -/
def Wrote (t u : Tip E) : Prop := ∃ ls, Run Store.Step t.store ls u.store

namespace Wrote

variable {t u v : Tip E}

theorem of_store (h : u.store = t.store) : Wrote t u := ⟨[], h ▸ .refl _⟩

theorem refl (t : Tip E) : Wrote t t := of_store rfl

theorem trans : Wrote t u → Wrote u v → Wrote t v
  | ⟨_, h⟩, ⟨_, h'⟩ => ⟨_, h.trans h'⟩

/-- What happens to the other fields does not matter. -/
theorem from_store (h : Wrote u v) (hstore : u.store = t.store) : Wrote t v :=
  trans (of_store hstore) h

theorem request (t : Tip E) (s : EditSession) : Wrote t (t.requestEditSession s) := by
  unfold requestEditSession
  split
  · exact .refl t
  · exact ⟨[.session s .quiet], .single ⟨trivial, (s.runWith_quiet t.store).symm⟩⟩

theorem insertText (t : Tip E) (text : Str) : Wrote t (t.insertText text) := .request t _

theorem setComposition {c : CellId} {a : Option CompositionId}
    (h : u.store = t.store.setComposition c a) : Wrote t u :=
  ⟨[.composition c a], .single ⟨trivial, h⟩⟩

theorem setPending {p : CellId} {a : Option CompositionString}
    (h : u.store = t.store.setPending p a) : Wrote t u :=
  ⟨[.pending p a], .single ⟨trivial, h⟩⟩

theorem of_onlyInput (h : OnlyInput t u) : Wrote t u := by
  obtain ⟨editor, list, rfl⟩ := h
  exact of_store rfl

theorem endComposition (t : Tip E) : Wrote t t.endComposition :=
  trans (setComposition rfl) (request _ _)

theorem setCompositionString (t : Tip E) (zhconv : Str → Str) (commit preedit : Str)
    (segments : List (Nat × Nat)) (cursor : Nat) :
    Wrote t (t.setCompositionString zhconv commit preedit segments cursor) := by
  unfold Tip.setCompositionString
  dsimp only
  split
  · exact setPending rfl
  · exact trans (setPending rfl) (request _ _)

section Editor

variable [ChewingEditor E]

theorem updatePreedit (t : Tip E) (zhconv : Str → Str) (commit : Str) :
    Wrote t (t.updatePreedit zhconv commit) :=
  updatePreedit_keeps (P := Wrote t)
    (fun u _ _ _ hu => hu.trans (setCompositionString u zhconv commit _ _ _))
    (fun u hu => hu.trans (endComposition u)) (refl t)

theorem deliverKey (t : Tip E) (zhconv : Str → Str) (env : CandidateEnv)
    (textAction : Option Str) : Wrote t (t.deliverKey zhconv env textAction).2 := by
  unfold Tip.deliverKey
  dsimp only
  split
  · exact refl t
  · split
    · have hacked : Wrote t { t with chewingEditor := ack t.chewingEditor } := of_store rfl
      rw [insertCommit_eq]
      cases textAction with
      | none => exact hacked.trans (insertText _ _)
      | some param => exact hacked.trans (trans (insertText _ _) (insertText _ _))
    · have hcandidates : Wrote t (t.updateCandidates env).2 :=
        of_onlyInput (.updateCandidates env t)
      split
      · next u hu =>
        rw [hu] at hcandidates
        exact hcandidates
      · next r u _ hu =>
        rw [hu] at hcandidates
        refine hcandidates.trans (trans ?_ (updatePreedit _ zhconv _))
        unfold takeCommit
        split <;> exact of_store rfl

omit [ChewingEditor E] in
theorem syncLangMode (t : Tip E) (env : ModeEnv) (internal : Bool) :
    Wrote t (t.syncLangMode env internal).2 := by
  obtain ⟨langMode, heq, -⟩ := syncLangMode_eq env internal t
  rw [heq]
  exact of_store rfl

theorem toggleLangMode (t : Tip E) (zhconv : Str → Str) (env : ModeEnv) :
    Wrote t (t.toggleLangMode zhconv env).2 := by
  have hsync := syncLangMode { t with langMode := t.langMode.toggled } env true
  replace hsync := hsync.from_store (t := t) rfl
  unfold Tip.toggleLangMode
  dsimp only
  split
  · next u hu =>
    rw [hu] at hsync
    exact hsync
  · next u hu =>
    rw [hu] at hsync
    split
    · split
      · refine hsync.trans ?_
        exact (updatePreedit _ zhconv _).from_store rfl
      · exact hsync
    · exact hsync

variable [Keysyms]

theorem onTestKeydown (t : Tip E) (env : TestEnv) (ev : Int → KeyboardEvent) :
    Wrote t (t.onTestKeydown env ev).2 := by
  obtain ⟨editor, -, heq | ⟨state, _, _, _, _, u, rfl, heq⟩⟩ := onTestKeydown_cases env ev t
  · rw [heq]
    exact of_store rfl
  · obtain ⟨cfg, kbtype, editor', keybindings, hconfig⟩ := applyConfigIfChanged_eq env.config
      { t with chewingEditor := editor, shiftKeyState := state }
    rw [heq, hconfig]
    exact of_store rfl

theorem onThreadFocus (t : Tip E) (config : ConfigEnv) (mode : ModeEnv) :
    Wrote t (t.onThreadFocus config mode).2 := by
  obtain ⟨cfg, -, heq⟩ := onThreadFocus_eq config mode t
  obtain ⟨kbtype, editor, keybindings, hruntime⟩ :=
    applyRuntimeConfig_eq config { t with cfg := cfg }
  have hwrote : Wrote t (applyRuntimeConfig config { t with cfg := cfg }).2 := by
    rw [hruntime]
    exact of_store rfl
  rw [heq]
  split
  · next u hu =>
    rw [hu] at hwrote
    exact hwrote
  · next u hu =>
    rw [hu] at hwrote
    exact hwrote.trans (syncLangMode u mode true)

end Editor

section Commands

variable [EditorCommands E]

theorem runAction (t : Tip E) (env : KeydownEnv) (kb : Keybinding) :
    Wrote t (t.runAction env kb).2 := by
  unfold Tip.runAction
  split
  · exact of_store rfl
  · split
    · exact of_store rfl
    · split
      · split <;> exact of_store rfl
      · split <;> exact refl t

theorem commitComposition (t : Tip E) (zhconv : Str → Str) (context : Bool) :
    Wrote t (t.commitComposition zhconv context).2 := by
  unfold Tip.commitComposition
  dsimp only
  split
  · split
    · exact ((setCompositionString _ zhconv _ _ _ _).trans (endComposition _)).from_store rfl
    · exact of_store rfl
  · exact of_store rfl

theorem onChange (t : Tip E) (zhconv : Str → Str) (env : CompartmentEnv) :
    Wrote t (t.onChange zhconv env true).2 := by
  by_cases hexpected : t.pendingLangModeChange = true ∨ t.hasFocus = false
  · rw [onChange_of_expected env hexpected]
    exact of_store rfl
  · obtain ⟨hpending, hfocus⟩ := not_or.mp hexpected
    replace hpending := Bool.eq_false_iff.mpr hpending
    replace hfocus := Bool.not_eq_false _ ▸ hfocus
    have hswitched : Wrote t (t.switchedOpenclose.syncLangMode env.mode false).2 :=
      (syncLangMode _ env.mode false).from_store rfl
    by_cases hsync : t.cfg.syncLangModeOpenclose = true
    · rw [onChange_of_sync env hsync hpending hfocus]
      exact hswitched
    · rw [Tip.onChange, if_neg hsync, onCompartmentChange_of_unexpected env.mode hpending hfocus]
      split
      · next u hu =>
        rw [hu] at hswitched
        exact hswitched
      · next u hu =>
        rw [hu] at hswitched
        split
        · exact hswitched.trans (commitComposition u zhconv env.mode.context)
        · exact hswitched

theorem onCommand (t : Tip E) (zhconv : Str → Str) (env : CommandEnv) (id : UInt32)
    (cmdType : CommandType) : Wrote t (t.onCommand zhconv env id cmdType) := by
  rw [onCommand_eq]
  cases commandItem env id cmdType with
  | none => exact refl t
  | some item =>
    show Wrote t (t.menuCommand zhconv env.mode item)
    unfold menuCommand
    split
    · exact toggleLangMode t zhconv env.mode
    · split
      · exact of_store rfl
      · split
        · exact of_store rfl
        · exact refl t

variable [KeyCodes]

theorem handleKeydown (t : Tip E) (zhconv : Str → Str) (env : KeydownEnv) (evt : KeyboardEvent) :
    Wrote t (t.handleKeydown zhconv env evt).2 := by
  have hbinding : Wrote t (t.handleKeybinding env evt).2 := by
    unfold handleKeybinding
    split
    · exact refl t
    · exact runAction t env _
  unfold Tip.handleKeydown
  split
  · next u hu =>
    rw [hu] at hbinding
    exact hbinding
  · next u hu =>
    rw [hu] at hbinding
    exact hbinding
  · next textAction u hu =>
    rw [hu] at hbinding
    have hkey := hbinding.trans (of_onlyInput (.processKey env textAction evt u))
    split
    · next v hv =>
      rw [hv] at hkey
      exact hkey
    · next v hv =>
      rw [hv] at hkey
      exact hkey
    · next v hv =>
      rw [hv] at hkey
      exact hkey.trans (deliverKey v zhconv env.candidates textAction)

theorem onKeydown (t : Tip E) (zhconv : Str → Str) (env : KeydownEnv)
    (ev : Int → KeyboardEvent) : Wrote t (t.onKeydown zhconv env ev).2 := by
  have htest := onTestKeydown t env.test ev
  unfold Tip.onKeydown
  split
  · next u hu =>
    rw [hu] at htest
    exact htest
  · next u hu =>
    rw [hu] at htest
    exact htest
  · next u hu =>
    rw [hu] at htest
    exact htest.trans (handleKeydown u zhconv env _)

theorem shiftUp (t : Tip E) (zhconv : Str → Str) (env : KeyupEnv) (evt : KeyboardEvent) :
    Wrote t (t.shiftUp zhconv env evt).2 := by
  unfold Tip.shiftUp
  split
  · dsimp only
    split
    · split
      · exact of_store rfl
      · have htoggle := toggleLangMode
          { t with shiftKeyState := (t.shiftKeyState.release env.now).2 } zhconv env.mode
        have hwrote := htoggle.from_store (t := t) rfl
        split
        · next u hu =>
          rw [hu] at hwrote
          exact hwrote
        · next u hu =>
          rw [hu] at hwrote
          exact hwrote
    · exact of_store rfl
  · exact refl t

omit [EditorCommands E] in
theorem capsUp (t : Tip E) (env : KeyupEnv) (evt : KeyboardEvent) :
    Wrote t (t.capsUp env evt).2 := by
  have hsync := syncLangMode t env.mode true
  unfold Tip.capsUp
  split
  · split
    · next u hu =>
      rw [hu] at hsync
      exact hsync
    · next u hu =>
      rw [hu] at hsync
      exact hsync
  · exact refl t

theorem onKeyup (t : Tip E) (zhconv : Str → Str) (env : KeyupEnv) (ev : Int → KeyboardEvent) :
    Wrote t (t.onKeyup zhconv env ev).2 := by
  have hshift := shiftUp t zhconv env (ev t.cfg.simulateEnglishLayout)
  unfold Tip.onKeyup
  dsimp only
  split
  · next u hu =>
    rw [hu] at hshift
    exact hshift
  · next u hu =>
    rw [hu] at hshift
    have hcaps := hshift.trans (capsUp u env (ev t.cfg.simulateEnglishLayout))
    split
    · next v hv =>
      rw [hv] at hcaps
      exact hcaps
    · next v hv =>
      rw [hv] at hcaps
      exact hcaps

theorem onTestKeyup (t : Tip E) (zhconv : Str → Str) (env : KeyupEnv)
    (ev : Int → KeyboardEvent) : Wrote t (t.onTestKeyup zhconv env ev).2 := by
  unfold Tip.onTestKeyup
  split
  · exact refl t
  · exact onKeyup t zhconv env ev

end Commands

theorem onKillFocus (t : Tip E) (context : Bool) : Wrote t (t.onKillFocus context) := by
  show Wrote t (hideCandidates (if _ then _ else _))
  split
  · exact ((endComposition { t with hasFocus := false }).from_store rfl).trans (of_store rfl)
  · exact of_store rfl

theorem onCompositionTerminatedTail [ChewingEditor E] (t : Tip E) :
    Wrote t t.onCompositionTerminatedTail := by
  cases hpending : t.hideCandidates.upgradePendingEdit with
  | none =>
    refine setComposition (c := t.composition) (a := none) ?_
    simp only [Tip.onCompositionTerminatedTail, hpending]
    rfl
  | some p =>
    have hemptied : Wrote t { t with store := t.store.setPending p none } := setPending rfl
    refine hemptied.trans (setComposition (c := t.composition) (a := none) ?_)
    simp only [Tip.onCompositionTerminatedTail, hpending]
    rfl

theorem runSessionAt (i : Nat) (env : TsfEnv) (t : Tip E) : Wrote t (t.runSessionAt i env) := by
  unfold Tip.runSessionAt
  split
  · exact refl t
  · next s _ => exact ⟨[.session s env], .single ⟨trivial, rfl⟩⟩

theorem runSession (t : Tip E) : Wrote t t.runSession := by
  rw [← runSessionAt_zero]
  exact runSessionAt 0 .quiet t

end Wrote

end Tip

/-! ## Calls of TSF -/

section Keyboard

variable {E : Type} [EditorCommands E] (zhconv : Str → Str)

theorem Keyboard.syncKeyboardOpenclose_wrote (env : Tip.CompartmentEnv) (k : Keyboard E) :
    k.tip.Wrote (k.syncKeyboardOpenclose zhconv env).tip := by
  obtain ⟨pending, heq⟩ := syncKeyboardOpenclose_tip zhconv env k
  rw [heq]
  exact .of_store rfl

theorem Keyboard.thenSync_wrote {α : Type} (env : Tip.CompartmentEnv)
    {r : Except Fault α × Tip E} {k : Keyboard E} (h : k.tip.Wrote r.2) :
    k.tip.Wrote (k.thenSync zhconv env r).tip := by
  unfold thenSync
  split
  · exact h.trans (syncKeyboardOpenclose_wrote zhconv env { k with tip := r.2 })
  · exact h

variable [KeyCodes]

/-- **A call of TSF** reaches the document by sessions and shared cells only. -/
theorem KeyboardCall.wrote (k : Keyboard E) (c : KeyboardCall) :
    k.tip.Wrote (c.next zhconv k).tip := by
  cases c with
  | change value env =>
    show k.tip.Wrote (k.setOpenclose zhconv env true value).tip
    unfold Keyboard.setOpenclose
    split
    · exact .refl k.tip
    · exact .onChange k.tip zhconv env
  | testKeyDown env ev => exact .onTestKeydown k.tip env ev
  | keyDown env ev => exact .onKeydown k.tip zhconv env ev
  | testKeyUp env ev sync =>
    exact Keyboard.thenSync_wrote zhconv sync (.onTestKeyup k.tip zhconv env ev)
  | keyUp env ev sync => exact Keyboard.thenSync_wrote zhconv sync (.onKeyup k.tip zhconv env ev)
  | command env id cmdType sync =>
    exact (Tip.Wrote.onCommand k.tip zhconv env id cmdType).trans
      (Keyboard.syncKeyboardOpenclose_wrote zhconv sync
        { k with tip := k.tip.onCommand zhconv env id cmdType })
  | setThreadFocus config mode sync =>
    exact Keyboard.thenSync_wrote zhconv sync (.onThreadFocus k.tip config mode)
  | setFocus null context =>
    cases null with
    | true => exact .onKillFocus k.tip context
    | false => exact .of_store rfl
  | compositionTerminated => exact .onCompositionTerminatedTail k.tip
  | session => exact .runSession k.tip

/-! ## Runs -/

/-- TSF calls the service, or the document changes without it. -/
inductive WritingEvent where
  | call (c : KeyboardCall)
  /-- any session in the queue runs, and some of its calls fail or end the composition -/
  | session (i : Nat) (env : TsfEnv)
  /-- from now on TSF queues what it is asked for, or runs it inside the request -/
  | grant (g : Grant)
  /-- the application ends the composition -/
  | terminate
  /-- the user types without the service, and moves the caret -/
  | type (i : Nat) (text : Wide)
  | select (i : Nat)

namespace WritingEvent

/-- The user types inside the text. -/
def Possible (k : Keyboard E) : WritingEvent → Prop
  | type i _ | select i => i ≤ k.tip.store.document.text.length
  | _ => True

def next (k : Keyboard E) : WritingEvent → Keyboard E
  | call c => c.next zhconv k
  | session i env => { k with tip := k.tip.runSessionAt i env }
  | grant g => { k with tip := { k.tip with grant := g } }
  | terminate => { k with tip := { k.tip with store := k.tip.store.next .terminate } }
  | type i text => { k with tip := { k.tip with store := k.tip.store.next (.type i text) } }
  | select i => { k with tip := { k.tip with store := k.tip.store.next (.select i) } }

def Step (k : Keyboard E) (e : WritingEvent) (k' : Keyboard E) : Prop :=
  e.Possible k ∧ k' = e.next zhconv k

/-- An event is a run of the store. -/
theorem Step.wrote {k k' : Keyboard E} {e : WritingEvent} (h : Step zhconv k e k') :
    k.tip.Wrote k'.tip := by
  obtain ⟨hpossible, rfl⟩ := h
  cases e with
  | call c => exact c.wrote zhconv k
  | session i env => exact .runSessionAt i env k.tip
  | grant g => exact .of_store rfl
  | terminate => exact ⟨[.terminate], .single ⟨trivial, rfl⟩⟩
  | type i text => exact ⟨[.type i text], .single ⟨hpossible, rfl⟩⟩
  | select i => exact ⟨[.select i], .single ⟨hpossible, rfl⟩⟩

end WritingEvent

namespace Keyboard

theorem extends_events {k k' : Keyboard E} {es : List WritingEvent}
    (h : k.tip.store.document.InBounds) (hrun : Run (WritingEvent.Step zhconv) k es k') :
    k.tip.store.document.Extends k'.tip.store.document := by
  refine hrun.invariant
    (I := fun u => k.tip.store.document.Extends u.tip.store.document) h.extends_self ?_
  intro u e v hu hstep
  obtain ⟨ls, hstore⟩ := hstep.wrote
  exact hu.trans (Store.extends_run hu.inBounds hstore)

/-- **The service takes back no text**: whatever TSF and the user do, in whatever order queued
sessions run, whichever of their calls fail, and wherever the application ends the composition,
what once stood outside the composition still does, in its order. -/
theorem finalised_events {k k' : Keyboard E} {es : List WritingEvent}
    (h : k.tip.store.document.InBounds) (hrun : Run (WritingEvent.Step zhconv) k es k') :
    k.tip.store.document.finalised.Sublist k'.tip.store.document.finalised :=
  (extends_events zhconv h hrun).finalised

end Keyboard

end Keyboard

open TypedEditor ScriptedEditor

/-- The text of a document for examples. -/
def typedDocument : Document := ⟨[⟨0x61, none⟩, ⟨0x62, none⟩], 1, none⟩

/-- Activated between the two letters; sessions are queued. -/
def TypedEditor.between : Keyboard TypedEditor :=
  .activate ⟨⟨.ok .default, some [], some []⟩, modeEnv, true⟩ blank typedDocument .queued none

/-- A bopomofo is typed between two letters, and its session fails when it sets the caret. -/
def TypedEditor.written : Keyboard TypedEditor :=
  WritingEvent.next id ((letterDown .default).next id between)
    (.session 0 fun i => ⟨false, i == 13⟩)

/-- Then the user types in front of it all. -/
theorem Keyboard.finalised_events_failed :
    (WritingEvent.next id written (.type 0 [0x63])).tip.store.document.units
        = [0x63, 0x61, 0x3127, 0x62] ∧
      [0x61, 0x62].Sublist
        (WritingEvent.next id written (.type 0 [0x63])).tip.store.document.finalised := by
  have hpress : WritingEvent.Step id between (.call (letterDown .default)) _ := ⟨trivial, rfl⟩
  have hsession : WritingEvent.Step id _ (.session 0 fun i => ⟨false, i == 13⟩) written :=
    ⟨trivial, rfl⟩
  have htype : WritingEvent.Step id written (.type 0 [0x63]) _ := ⟨Nat.zero_le _, rfl⟩
  have hbounds : typedDocument.InBounds := ⟨by decide, nofun⟩
  exact ⟨by decide +kernel, finalised_events id (k := between) hbounds
    (.head hpress (.head hsession (.single htype)))⟩

end ChewingTsf
