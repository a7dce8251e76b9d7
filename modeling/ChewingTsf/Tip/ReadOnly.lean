import ChewingTsf.Tip.KeyCalls
import ChewingTsf.Tip.KeyTest

/-!
# Contexts that cannot be edited

`on_test_keydown` claims a key that a keybinding matches before it looks whether the
context is mutable, and `on_keydown` relies on what it says. The bindings that toggle
a setting do no harm; a text binding, and a binding of the candidate list (which only
lets the key through to the editor), go on to the delivery.
-/

namespace ChewingTsf

open ChewingEditor

section ReadOnly

variable {E : Type}

namespace Tip

/-! ## Deliveries that write -/

section Delivery

variable [ChewingEditor E] {t : Tip E}

/-- Something is composed, or is to be. -/
def Composes (t : Tip E) : Prop := preedit t.chewingEditor ≠ [] ∨ t.isComposing = true

/-- The delivery hands text to the document, if only an empty one. -/
def DeliversText (env : CandidateEnv) (textAction : Option Str) (v : Tip E) : Prop :=
  lastKeyBehavior v.chewingEditor ≠ .ignore ∧
    (v.Direct textAction ∨
      ¬ v.CandidatesPanic env ∧ (v.updateInput env textAction).2.Composes)

theorem writes_updatePreeditCalls (commit : Str) :
    (∃ c ∈ t.updatePreeditCalls commit, c.writes = true) ↔ t.Composes := by
  unfold Composes
  by_cases hbuf : preedit t.chewingEditor = []
  · have hend : ¬ ∃ c ∈ (if t.candidateList.isNone then [EditCall.endComposition] else []),
        c.writes = true := by
      rintro ⟨c, hc, hwrites⟩
      split at hc
      · rw [List.mem_singleton.mp hc] at hwrites
        cases hwrites
      · cases hc
    rw [updatePreeditCalls_of_nil hbuf]
    simp only [List.mem_append, or_and_right, exists_or, hend, or_false]
    cases t.isComposing with
    | true => simp [EditCall.writes]
    | false => simp [hbuf]
  · obtain ⟨segments, cursor, heq⟩ := updatePreeditCalls_of_ne hbuf commit
    rw [heq]
    exact iff_of_true ⟨_, List.mem_cons_self, rfl⟩ (.inl hbuf)

theorem writes_deliverKeyCalls (env : CandidateEnv) (textAction : Option Str) :
    (∃ c ∈ t.deliverKeyCalls env textAction, c.writes = true)
      ↔ t.DeliversText env textAction := by
  unfold deliverKeyCalls DeliversText
  by_cases hignore : lastKeyBehavior t.chewingEditor = .ignore
  · simp [hignore]
  · rw [if_neg hignore]
    by_cases hdirect : t.Direct textAction
    · rw [if_pos hdirect]
      exact iff_of_true ⟨_, List.mem_cons_self, rfl⟩ ⟨hignore, .inl hdirect⟩
    · rw [if_neg hdirect]
      by_cases hpanic : t.CandidatesPanic env
      · simp [hpanic, hdirect]
      · rw [if_neg hpanic, writes_updatePreeditCalls]
        simp [hignore, hdirect, hpanic]

end Delivery

/-! ## Calls that do not write -/

/-- They only end compositions. -/
theorem performAll_of_silent (zhconv : Str → Str) {calls : List EditCall} {t : Tip E}
    (hgrant : t.grant = .queued) (h : ∀ c ∈ calls, c.writes = false) :
    ∃ cells : List CellId,
      (t.performAll zhconv calls).queue = t.queue ++ cells.map EditSession.endComposition ∧
      (t.performAll zhconv calls).store.pendings = t.store.pendings := by
  induction calls generalizing t with
  | nil => exact ⟨[], (List.append_nil _).symm, rfl⟩
  | cons c calls ih =>
    obtain ⟨hc, hrest⟩ := List.forall_mem_cons.mp h
    cases c with
    | insertText text => cases hc
    | setCompositionString commit preedit segments cursor => cases hc
    | endComposition =>
      have hend : t.endComposition.grant = .queued ∧
          t.endComposition.queue = t.queue ++ [.endComposition t.composition] ∧
          t.endComposition.store.pendings = t.store.pendings := by
        rw [Tip.endComposition, requestEditSession_of_queued (by exact hgrant)]
        exact ⟨hgrant, rfl, rfl⟩
      obtain ⟨cells, hqueue, hpendings⟩ := ih hend.1 hrest
      refine ⟨t.composition :: cells, hqueue.trans ?_, hpendings.trans hend.2.2⟩
      rw [hend.2.1, List.append_assoc]
      rfl

/-- If none of its calls writes, `on_keydown` requests no session that does, and
rewrites none that has been requested. -/
theorem onKeydown_of_silent [EditorCommands E] [KeyCodes] (zhconv : Str → Str)
    {env : KeydownEnv} {ev : Int → KeyboardEvent} {t : Tip E} (hgrant : t.grant = .queued)
    (h : ∀ c ∈ t.onKeydownCalls env ev, c.writes = false) :
    ∃ cells : List CellId, (t.onKeydown zhconv env ev).2.queue =
        t.queue ++ cells.map EditSession.endComposition ∧
      (t.onKeydown zhconv env ev).2.store.pendings = t.store.pendings := by
  obtain ⟨u, hsame, hunwritten⟩ := onKeydown_perform zhconv env ev t
  obtain ⟨cells, hqueue, hpendings⟩ :=
    performAll_of_silent zhconv (hsame.grant.trans hgrant) h
  have hqueue' := hunwritten.queue.trans hqueue
  have hstore := congrArg Store.pendings hunwritten.store
  refine ⟨cells, ?_, hstore.trans (hpendings.trans (congrArg Store.pendings hsame.store))⟩
  rw [hqueue', hsame.queue]

/-! ## Keybindings that write -/

section Binding

variable [EditorCommands E]

/-- A text binding hands text to the document. -/
def TextWrites (env : CandidateEnv) (param : Str) (u : Tip E) : Prop :=
  ∃ v, u.TextCommitted v ∧ v.DeliversText env (some param)

variable [KeyCodes]

/-- The editor makes text of the key. -/
def KeyWrites (env : KeydownEnv) (evt : KeyboardEvent) (u : Tip E) : Prop :=
  ∃ v, u.processKey env none evt = (.ok false, v) ∧ v.DeliversText env.candidates none

/-- A key that has been claimed is handled so that text is handed to the document. -/
def BindingWrites (env : KeydownEnv) (evt : KeyboardEvent) (u : Tip E) : Prop :=
  match u.keybindings.find? (·.«matches» evt) with
  | none => u.KeyWrites env evt
  | some kb =>
    if kb.action = "text".toList then u.TextWrites env.candidates kb.param
    else "selecting_".toList.isPrefixOf kb.action = true ∧ u.KeyWrites env evt

/-- `on_test_keydown` claims the key for a keybinding, one of those that a reload of the
configuration leaves. -/
def ClaimedByBinding (env : TestEnv) (ev : Int → KeyboardEvent) (t : Tip E) : Prop :=
  t.langMode.isDisabled = false ∧ t.BeginsTap (ev t.cfg.simulateEnglishLayout) = false ∧
    ((t.onTestKeydown env ev).2.keybindings.any fun kb =>
      kb.«matches» (ev t.cfg.simulateEnglishLayout)) = true

/-! ## Read-only contexts -/

variable {t u : Tip E}

omit [EditorCommands E] [KeyCodes] in
/-- In a context that is not mutable, `on_test_keydown` claims only what a keybinding
matches. -/
theorem verdict_immutable [ChewingEditor E] [Keysyms] (simulate begins : Bool)
    (evt : KeyboardEvent) (u : Tip E) :
    verdict simulate false begins evt u = true ↔ u.langMode.isDisabled = false ∧
      begins = false ∧ (u.keybindings.any fun kb => kb.«matches» evt) = true := by
  unfold verdict
  cases u.langMode.isDisabled with
  | true => simp
  | false =>
    cases begins with
    | true => simp
    | false =>
      cases u.keybindings.any fun kb => kb.«matches» evt with
      | true => simp
      | false => simp

/-- The key test claims the key exactly if it does so for a keybinding. -/
theorem onTestKeydown_immutable {env : TestEnv} (h : env.context.isMutable = some false)
    (ev : Int → KeyboardEvent) (t : Tip E) :
    (t.onTestKeydown env ev).1 = .ok true ↔ t.ClaimedByBinding env ev := by
  have hmode := (ModeKept.onTestKeydown t env ev).langMode
  unfold ClaimedByBinding
  rw [onTestKeydown_verdict h, Except.ok.injEq, verdict_immutable, hmode]

theorem writes_onKeydownCalls {env : KeydownEnv} {ev : Int → KeyboardEvent} :
    (∃ c ∈ t.onKeydownCalls env ev, c.writes = true) ↔ ∃ textAction v,
      t.beforeDelivery env ev = some (textAction, v) ∧
        v.DeliversText env.candidates textAction := by
  unfold onKeydownCalls
  cases t.beforeDelivery env ev with
  | none => simp
  | some p =>
    obtain ⟨textAction, v⟩ := p
    simp [writes_deliverKeyCalls]

/-- Once claimed, the key is written exactly if its binding goes on to a delivery that
writes. -/
theorem writes_of_claimed {env : KeydownEnv} {ev : Int → KeyboardEvent}
    (h : t.onTestKeydown env.test ev = (.ok true, u)) :
    (∃ c ∈ t.onKeydownCalls env ev, c.writes = true)
      ↔ u.BindingWrites env (ev u.cfg.simulateEnglishLayout) := by
  rw [writes_onKeydownCalls]
  simp only [beforeDelivery_iff h]
  unfold handleKeybinding BindingWrites KeyWrites TextWrites
  cases u.keybindings.find? (·.«matches» (ev u.cfg.simulateEnglishLayout)) with
  | none =>
    constructor
    · rintro ⟨textAction, v, ⟨w, hbinding, hkey⟩, hdelivers⟩
      cases hbinding
      exact ⟨v, hkey, hdelivers⟩
    · rintro ⟨v, hkey, hdelivers⟩
      exact ⟨none, v, ⟨u, rfl, hkey⟩, hdelivers⟩
  | some kb =>
    simp only [runAction_proceed_iff]
    by_cases htext : kb.action = "text".toList
    · simp only [if_pos htext]
      constructor
      · rintro ⟨textAction, v, ⟨w, ⟨rfl, hcommitted⟩, hkey⟩, hdelivers⟩
        -- with a text, the key itself is not processed
        cases hkey
        exact ⟨v, hcommitted, hdelivers⟩
      · rintro ⟨v, hcommitted, hdelivers⟩
        exact ⟨some kb.param, v, ⟨v, ⟨rfl, hcommitted⟩, rfl⟩, hdelivers⟩
    · simp only [if_neg htext]
      constructor
      · rintro ⟨textAction, v, ⟨w, ⟨hlist, rfl, rfl⟩, hkey⟩, hdelivers⟩
        exact ⟨hlist, v, hkey, hdelivers⟩
      · rintro ⟨hlist, v, hkey, hdelivers⟩
        exact ⟨none, v, ⟨u, ⟨hlist, rfl, rfl⟩, hkey⟩, hdelivers⟩

/-- **Nothing is written into a context that is not mutable** exactly when the key is not
claimed for a keybinding that goes on to a delivery that writes. -/
theorem onKeydown_readOnly_iff {env : KeydownEnv} (h : env.test.context.isMutable = some false)
    (ev : Int → KeyboardEvent) (t : Tip E) :
    (∀ c ∈ t.onKeydownCalls env ev, c.writes = false) ↔
      ¬ (t.ClaimedByBinding env.test ev ∧
        (t.onTestKeydown env.test ev).2.BindingWrites env
          (ev (t.onTestKeydown env.test ev).2.cfg.simulateEnglishLayout)) := by
  have hnone : (∀ c ∈ t.onKeydownCalls env ev, c.writes = false)
      ↔ ¬ ∃ c ∈ t.onKeydownCalls env ev, c.writes = true := by
    simp
  rw [hnone, not_iff_not, ← onTestKeydown_immutable h]
  by_cases hclaimed : (t.onTestKeydown env.test ev).1 = .ok true
  · rw [writes_of_claimed (Prod.ext hclaimed rfl)]
    exact ⟨fun hwrites => ⟨hclaimed, hwrites⟩, fun hboth => hboth.2⟩
  · refine iff_of_false ?_ fun hboth => hclaimed hboth.1
    rw [writes_onKeydownCalls]
    rintro ⟨textAction, v, hdelivered, -⟩
    unfold beforeDelivery at hdelivered
    split at hdelivered
    · next w hw => exact hclaimed (congrArg Prod.fst hw)
    · cases hdelivered

end Binding

end Tip

end ReadOnly

section

open TypedEditor SymbolEditor

/-- A context whose document is read-only. -/
def readOnlyEnv (cfg : ChewingTsfConfig) : Tip.KeydownEnv :=
  let env := keydownEnv cfg
  { env with test := { env.test with context := ⟨some Tip.TF_SD_READONLY, some 0, some 0⟩ } }

/-- A key without a binding. -/
theorem Tip.onKeydown_readOnly_iff_unbound :
    (∀ c ∈ (SymbolEditor.activated .default).tip.onKeydownCalls (readOnlyEnv .default)
        fun _ => textKey, c.writes = false) ↔
      ¬ ((SymbolEditor.activated .default).tip.ClaimedByBinding (readOnlyEnv .default).test
          (fun _ => textKey) ∧
        ((SymbolEditor.activated .default).tip.onTestKeydown (readOnlyEnv .default).test
          fun _ => textKey).2.BindingWrites (readOnlyEnv .default) textKey) :=
  onKeydown_readOnly_iff (by decide) (fun _ => textKey) _

/-- A text binding, pressed in a read-only document. -/
theorem Tip.onKeydown_writes_readOnly :
    ¬ ∀ (t : Tip SymbolEditor) (env : KeydownEnv) (ev : Int → KeyboardEvent),
      env.test.context.isMutable = some false →
        ∀ c ∈ t.onKeydownCalls env ev, c.writes = false := by
  intro hclaim
  have h := hclaim (SymbolEditor.activated (textConfig "好".toList)).tip
    (readOnlyEnv (textConfig "好".toList)) (fun _ => textKey) (by decide)
    (.insertText "好".toList) (by decide +kernel)
  cases h

end

end ChewingTsf
