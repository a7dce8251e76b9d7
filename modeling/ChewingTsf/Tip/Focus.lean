import ChewingTsf.Tip.Typing

/-!
# Focus losses

`on_kill_focus` ends the composition, which leaves its text in the document, and
does not tell the editor. `Tip.FinalisesOnce` says that a focus loss makes nothing
final that the editor still holds, so that `update_preedit` cannot write it a
second time.

Where TSF runs sessions at once, the composition always ends in the text that the
editor holds (`Tip.Synchronous`, `Tip.Echoes`), so this fails as soon as there is
any.
-/

namespace ChewingTsf

open ChewingEditor

variable {E : Type} [ChewingEditor E]

/-- What happens in a run with focus changes. -/
inductive Focusing (E : Type) where
  | typing (a : Typing E)
  | killFocus
  | focus

/-- A step of typing, a focus loss with a context, or a focus regain. -/
inductive FocusStep (zhconv : Str → Str) : Tip E → Focusing E → Tip E → Prop
  | typing {t t' : Tip E} {a : Typing E} (h : TypingStep zhconv t a t') :
      FocusStep zhconv t (.typing a) t'
  | killFocus (t : Tip E) : FocusStep zhconv t .killFocus (t.onKillFocus true)
  | focus (t : Tip E) : FocusStep zhconv t .focus t.onFocus

namespace Tip

/-- What `update_preedit` would write of the editor's preedit. -/
def held (zhconv : Str → Str) (t : Tip E) : Wide :=
  utf16 (t.converted zhconv (preedit t.chewingEditor))

/-- **Text finalised by a focus loss is not typed again**: no unit that the editor
holds after the loss is among those the loss adds to the final text. -/
def FinalisesOnce (zhconv : Str → Str) (t : Tip E) : Prop :=
  ∀ u ∈ (t.onKillFocus true).held zhconv,
    (t.onKillFocus true).drained.document.finalised.count u
      = t.drained.document.finalised.count u

/-- Nothing is requested and nothing composed, however TSF grants sessions. -/
structure Untouched (t : Tip E) (before after : Wide) : Prop where
  queue : t.queue = []
  composition : t.composition < t.nextCell
  empty : ∀ c, t.nextCell ≤ c → t.store.compositions c = none
  document : t.store.document.Idle before after
  idle : t.isComposing = false

/-! ## What a focus loss changes -/

section KillFocus

variable {t : Tip E} {zhconv : Str → Str}

omit [ChewingEditor E] in
theorem onKillFocus_of_composing (h : t.isComposing = true) :
    t.onKillFocus true = { t with hasFocus := false }.endComposition.hideCandidates := by
  have hcomposing : Tip.isComposing { t with hasFocus := false } = true := h
  unfold onKillFocus
  simp only [hcomposing, Bool.and_self, if_true]

omit [ChewingEditor E] in
theorem onKillFocus_of_not_composing (h : t.isComposing = false) :
    t.onKillFocus true = { t with hasFocus := false, candidateList := none } := by
  have hcomposing : Tip.isComposing { t with hasFocus := false } = false := h
  unfold onKillFocus
  simp only [hcomposing, Bool.false_and, Bool.false_eq_true, if_false]
  rfl

/-- The editor is not told. -/
theorem held_onKillFocus : (t.onKillFocus true).held zhconv = t.held zhconv := by
  cases hcomposing : t.isComposing with
  | false =>
    rw [onKillFocus_of_not_composing hcomposing]
    rfl
  | true =>
    have hservice : { t with hasFocus := false }.endComposition.hideCandidates.outputSimpChinese
        = t.outputSimpChinese := by
      unfold endComposition hideCandidates
      rw [requestEditSession_service]
    rw [onKillFocus_of_composing hcomposing]
    unfold held converted
    rw [hservice, hideCandidates, endComposition_chewingEditor]

omit [ChewingEditor E] in
theorem cell_eq_none (h : t.isComposing = false) : t.store.compositions t.composition = none :=
  Option.not_isSome_iff_eq_none.mp (Bool.eq_false_iff.mp (Bool.or_eq_false_iff.mp h).1)

theorem held_eq_nil (hz : ∀ s, zhconv s = [] ↔ s = []) :
    t.held zhconv = [] ↔ preedit t.chewingEditor = [] := by
  unfold held converted
  rw [utf16_eq_nil]
  split
  · exact hz _
  · rfl

/-- With nothing composed, or nothing left in the editor, a focus loss is harmless. -/
theorem finalisesOnce_of_harmless (hz : ∀ s, zhconv s = [] ↔ s = [])
    (h : t.isComposing = false ∨ preedit t.chewingEditor = []) : t.FinalisesOnce zhconv := by
  intro u hu
  rcases h with hcomposing | hnil
  · rw [onKillFocus_of_not_composing hcomposing]
    rfl
  · rw [held_onKillFocus, (held_eq_nil hz).mpr hnil] at hu
    cases hu

end KillFocus

/-! ## Sessions that run at once -/

/-- TSF runs sessions at once, and the document shows `left body right`. -/
structure Synchronous (t : Tip E) (left body right : Wide) : Prop where
  grant : t.grant = .immediate
  queue : t.queue = []
  composition : t.composition < t.nextCell
  empty : ∀ c, t.nextCell ≤ c → t.store.compositions c = none
  view : t.store.View t.composition left body right

section Immediate

variable {t u : Tip E} {left body right : Wide} {zhconv : Str → Str}

omit [ChewingEditor E] in
theorem requestEditSession_of_immediate (hgrant : t.grant = .immediate) (s : EditSession) :
    t.requestEditSession s = { t with store := s.run t.store } := by
  unfold requestEditSession
  rw [hgrant]

namespace Synchronous

omit [ChewingEditor E] in
theorem congr (h : t.Synchronous left body right) (hsame : SameRequests t u) :
    u.Synchronous left body right := by
  refine ⟨hsame.grant.trans h.grant, hsame.queue.trans h.queue, ?_, ?_, ?_⟩
  · rw [hsame.composition, hsame.nextCell]
    exact h.composition
  · rw [hsame.store, hsame.nextCell]
    exact h.empty
  · rw [hsame.store, hsame.composition]
    exact h.view

omit [ChewingEditor E] in
theorem drained_eq (h : t.Synchronous left body right) : t.drained = t.store := by
  unfold drained
  rw [h.queue]
  rfl

omit [ChewingEditor E] in
/-- No session owns a pending cell. -/
theorem upgradePendingEdit (h : t.Synchronous left body right) : t.upgradePendingEdit = none := by
  rw [upgradePendingEdit_eq_none]
  intro p _ hown
  obtain ⟨s, hs, -⟩ := owned_iff.mp hown
  rw [h.queue] at hs
  cases hs

omit [ChewingEditor E] in
/-- Text inserted while nothing is composed. -/
theorem insertText (h : t.Synchronous left body right) (hidle : t.isComposing = false)
    (text : Str) :
    (t.insertText text).Synchronous (left ++ utf16 text) [] right ∧
      (t.insertText text).isComposing = false := by
  have hcell := cell_eq_none hidle
  obtain ⟨-, hdoc⟩ := h.view.idle_of_none hcell
  rw [Tip.insertText, requestEditSession_of_immediate h.grant]
  refine ⟨⟨h.grant, h.queue, h.composition, h.empty, ?_⟩, hidle⟩
  exact .idle hcell rfl (EditSession.run_insertText_idle hdoc _)

omit [ChewingEditor E] in
/-- **`set_composition_string`**: the edit is written at once. -/
theorem setCompositionString (h : t.Synchronous left body right) (commit preedit : Str)
    (segments : List (Nat × Nat)) (cursor : Nat) :
    (t.setCompositionString zhconv commit preedit segments cursor).Synchronous
      (left ++ (t.editOf zhconv commit preedit segments cursor).committed)
      (t.editOf zhconv commit preedit segments cursor).composed right := by
  have heq : t.setCompositionString zhconv commit preedit segments cursor =
      { t with
        store := EditSession.run (t.store.setPending t.nextCell
          (some (t.editOf zhconv commit preedit segments cursor)))
          (.setCompositionString t.composition t.nextCell)
        pendingEdit := some t.nextCell
        nextCell := t.nextCell + 1 } := by
    unfold Tip.setCompositionString editOf
    rw [h.upgradePendingEdit]
    exact requestEditSession_of_immediate (by exact h.grant) _
  have hview : (t.store.setPending t.nextCell
      (some (t.editOf zhconv commit preedit segments cursor))).View t.composition left body
        right := h.view.congr rfl rfl
  rw [heq]
  refine ⟨h.grant, h.queue, Nat.lt_succ_of_lt h.composition, fun c hc => ?_, ?_⟩
  · have hne : (EditSession.setCompositionString t.composition t.nextCell).compositionCell
        ≠ some c := fun hs => by
      have hlt := h.composition
      rw [Option.some.inj hs] at hlt
      exact absurd hlt (Nat.not_lt.mpr (Nat.le_of_succ_le hc))
    exact (EditSession.run_compositions_of_ne hne _).trans (h.empty c (Nat.le_of_succ_le hc))
  · exact (EditSession.run_setCompositionString hview (Function.update_self _ _ _)).1

omit [ChewingEditor E] in
/-- **`end_composition`**: the composition ends at once. -/
theorem endComposition (h : t.Synchronous left body right) :
    t.endComposition.Synchronous (left ++ body) [] right ∧
      t.endComposition.store.compositions t.endComposition.composition = none := by
  have heq : t.endComposition =
      { t with
        composition := t.nextCell
        nextCell := t.nextCell + 1
        store := EditSession.run (t.store.setComposition t.nextCell none)
          (.endComposition t.composition)
        pendingEdit := none } := by
    unfold Tip.endComposition
    exact requestEditSession_of_immediate (by exact h.grant) _
  have hview : (t.store.setComposition t.nextCell none).View t.composition left body right :=
    h.view.congr (Function.update_of_ne (Nat.ne_of_lt h.composition) _ _) rfl
  have hempty : ∀ c, t.nextCell ≤ c →
      (EditSession.run (t.store.setComposition t.nextCell none)
        (.endComposition t.composition)).compositions c = none := by
    intro c hc
    have hne : (EditSession.endComposition t.composition).compositionCell ≠ some c := fun hs => by
      have hlt := h.composition
      rw [Option.some.inj hs] at hlt
      exact absurd hlt (Nat.not_lt.mpr hc)
    rw [EditSession.run_compositions_of_ne hne]
    by_cases hnew : c = t.nextCell
    · rw [hnew]
      exact Function.update_self _ _ _
    · exact (Function.update_of_ne hnew _ _).trans (h.empty c hc)
  rw [heq]
  refine ⟨⟨h.grant, h.queue, Nat.lt_succ_self _, fun c hc => hempty c (Nat.le_of_succ_le hc), ?_⟩,
    hempty _ (Nat.le_refl _)⟩
  exact .idle (hempty _ (Nat.le_refl _)) rfl (EditSession.run_endComposition hview).1

end Synchronous

/-- The composition ends in what the editor holds. -/
def Echoes (zhconv : Str → Str) (t : Tip E) : Prop :=
  ∃ left body right, t.Synchronous left body right ∧
    (t.isComposing = true → ∃ w, body = w ++ t.held zhconv)

namespace Echoes

theorem of_not_composing (h : t.Synchronous left body right) (hidle : t.isComposing = false) :
    t.Echoes zhconv :=
  ⟨left, body, right, h, fun hcomposing => by rw [hidle] at hcomposing; cases hcomposing⟩

end Echoes

namespace Synchronous

/-- A key pressed while nothing is composed. -/
theorem insertCommit (h : t.Synchronous left body right) {textAction : Option Str}
    (hdirect : t.Direct textAction) : (t.insertCommit textAction).Echoes zhconv := by
  have hacked := h.congr (.setEditor t (ack t.chewingEditor))
  obtain ⟨hfirst, hidle⟩ := hacked.insertText (by exact hdirect.1) (displayCommit t.chewingEditor)
  rw [insertCommit_eq]
  cases textAction with
  | none => exact .of_not_composing hfirst hidle
  | some param =>
    obtain ⟨hsecond, hidle'⟩ := hfirst.insertText hidle param
    exact .of_not_composing hsecond hidle'

/-- **`update_preedit`** writes what the editor holds, or ends the composition. -/
theorem updatePreedit (h : t.Synchronous left body right) (commit : Str) :
    (t.updatePreedit zhconv commit).Echoes zhconv := by
  have hend : ∀ {u : Tip E} {left body right : Wide}, u.Synchronous left body right →
      u.candidateList = none → u.endComposition.Echoes zhconv := by
    intro u left body right hu hlist
    obtain ⟨hended, hcell⟩ := hu.endComposition
    have hlist' : u.endComposition.candidateList = none := by
      rw [← hlist]
      unfold Tip.endComposition
      rw [requestEditSession_service]
    refine .of_not_composing hended ?_
    unfold isComposing
    rw [hcell, hlist']
    rfl
  have hclosed : ¬ t.Continues → t.candidateList = none := fun hcont =>
    Option.not_isSome_iff_eq_none.mp (not_or.mp hcont).2
  rcases updatePreedit_cases zhconv commit t with
    ⟨-, segments, cursor, heq⟩ | ⟨hcont, -, heq⟩ | ⟨hcont, -, heq⟩
  · -- the composition will show what the editor holds
    rw [heq]
    refine ⟨_, _, _, h.setCompositionString commit _ segments cursor, fun _ => ?_⟩
    have hheld : (t.setCompositionString zhconv commit (preedit t.chewingEditor) segments
        cursor).held zhconv = t.held zhconv := by
      unfold held converted
      rw [setCompositionString_chewingEditor]
      unfold Tip.setCompositionString
      rw [h.upgradePendingEdit]
      dsimp only
      rw [requestEditSession_service]
      rfl
    rw [hheld]
    exact CompositionString.composed_eq _
  · rw [heq]
    refine hend (h.setCompositionString commit [] [] 0) ?_
    rw [setCompositionString_candidateList, hclosed hcont]
  · rw [heq]
    exact hend h (hclosed hcont)

omit [ChewingEditor E] in
/-- A focus loss ends the composition, and what it showed becomes final. -/
theorem onKillFocus (h : t.Synchronous left body right) (hcomposing : t.isComposing = true) :
    (t.onKillFocus true).Synchronous (left ++ body) [] right ∧
      (t.onKillFocus true).isComposing = false := by
  obtain ⟨hended, hcell⟩ := (h.congr (.setHasFocus t false)).endComposition
  rw [onKillFocus_of_composing hcomposing]
  refine ⟨hended.congr (.setCandidateList _ none), ?_⟩
  unfold isComposing hideCandidates
  simp only [hcell]
  rfl

end Synchronous

/-- **One step** keeps the composition and the editor's preedit together. -/
theorem Echoes.step (h : t.Echoes zhconv) {a : Focusing E} (hstep : FocusStep zhconv t a u) :
    u.Echoes zhconv := by
  obtain ⟨left, body, right, hsync, hbody⟩ := h
  cases hstep with
  | typing hstep =>
    cases hstep with
    | session hne => exact absurd hsync.queue hne
    | @key _ k hkey =>
      have hprocessed := hsync.congr (k.sameRequests t)
      rcases Tip.deliverKey_cases hkey with ⟨hdirect, rfl⟩ | ⟨-, rfl⟩
      · exact hprocessed.insertCommit hdirect
      · exact (hprocessed.congr updateInput_frame).updatePreedit _
  | killFocus =>
    cases hcomposing : t.isComposing with
    | false =>
      rw [onKillFocus_of_not_composing hcomposing]
      have hsame := (SameRequests.setHasFocus t false).trans (.setCandidateList _ none)
      refine .of_not_composing (hsync.congr hsame) ?_
      exact Bool.or_eq_false_iff.mpr ⟨(Bool.or_eq_false_iff.mp hcomposing).1, rfl⟩
    | true =>
      obtain ⟨hafter, hidle⟩ := hsync.onKillFocus hcomposing
      exact .of_not_composing hafter hidle
  | focus => exact ⟨left, body, right, hsync.congr (.setHasFocus t true), hbody⟩

/-- A focus loss that ends a composition finalises what the editor holds. -/
theorem Echoes.harmless (h : t.Echoes zhconv) (hz : ∀ s, zhconv s = [] ↔ s = [])
    (honce : t.FinalisesOnce zhconv) :
    t.isComposing = false ∨ preedit t.chewingEditor = [] := by
  obtain ⟨left, body, right, hsync, hbody⟩ := h
  cases hcomposing : t.isComposing with
  | false => exact .inl rfl
  | true =>
    right
    obtain ⟨hafter, -⟩ := hsync.onKillFocus hcomposing
    obtain ⟨w, hw⟩ := hbody hcomposing
    rw [← held_eq_nil hz]
    refine List.eq_nil_iff_forall_not_mem.mpr fun c hc => ?_
    have hcount := honce c (by rwa [held_onKillFocus])
    rw [hafter.drained_eq, hsync.drained_eq, hafter.view.finalised_eq, hsync.view.finalised_eq,
      List.count_append, List.count_append, List.count_append] at hcount
    have hmem : c ∈ body := hw ▸ List.mem_append_right w hc
    -- the loss adds every unit of the body to the final text once more
    have hpos := List.count_pos_iff.mpr hmem
    omega

end Immediate

end Tip

/-! ## Whole runs -/

omit [ChewingEditor E] in
theorem Tip.Untouched.synchronous {t : Tip E} {before after : Wide}
    (h : t.Untouched before after) (hgrant : t.grant = .immediate) :
    t.Synchronous before [] after :=
  ⟨hgrant, h.queue, h.composition, h.empty, .idle (cell_eq_none h.idle) rfl h.document⟩

theorem Tip.fresh_untouched (grant : Grant) : (Tip.fresh grant).Untouched [] [] where
  queue := rfl
  composition := Nat.zero_lt_one
  empty := fun _ _ => rfl
  document := ⟨rfl, rfl, rfl⟩
  idle := rfl

/-- **When a focus loss finalises once.** After any run of keys, sessions and focus
changes, a focus loss makes nothing final that the editor still holds if nothing
is composed or the editor's preedit is empty; and, where sessions run at once,
only then. -/
theorem finalisesOnce_iff_harmless {zhconv : Str → Str} (hz : ∀ s, zhconv s = [] ↔ s = [])
    {t₀ t : Tip E} {before after : Wide} {ls : List (Focusing E)}
    (h₀ : t₀.Untouched before after) (hrun : Run (FocusStep zhconv) t₀ ls t) :
    (t.isComposing = false ∨ preedit t.chewingEditor = [] → t.FinalisesOnce zhconv) ∧
      (t₀.grant = .immediate → t.FinalisesOnce zhconv →
        t.isComposing = false ∨ preedit t.chewingEditor = []) := by
  refine ⟨Tip.finalisesOnce_of_harmless hz, fun hgrant => ?_⟩
  have hechoes : t.Echoes zhconv :=
    hrun.invariant (.of_not_composing (h₀.synchronous hgrant) h₀.idle) fun hI hstep => hI.step hstep
  exact hechoes.harmless hz

open ScriptedEditor in
/-- A bopomofo key, a focus loss and regain, and a key that erases the bopomofo. -/
theorem finalisesOnce_after_erasing :
    Tip.FinalisesOnce id (Typing.next id
      ((Typing.next id (Tip.fresh .immediate) (.key (key (absorbed ['ㄅ'])))).onKillFocus
        true).onFocus (.key (key (absorbed [])))) := by
  have hbopomofo : Typing.Enabled id (Tip.fresh .immediate) (.key (key (absorbed ['ㄅ']))) := by
    decide +kernel
  have herase : Typing.Enabled id
      ((Typing.next id (Tip.fresh .immediate) (.key (key (absorbed ['ㄅ'])))).onKillFocus
        true).onFocus (.key (key (absorbed []))) := by
    decide +kernel
  have hrun := (((Run.single (FocusStep.typing hbopomofo.step)).tail (.killFocus _)).tail
    (.focus _)).tail (.typing herase.step)
  exact (finalisesOnce_iff_harmless (fun _ => Iff.rfl) (Tip.fresh_untouched _) hrun).1
    (.inr (by decide +kernel))

open ScriptedEditor in
/-- A bopomofo key, then a focus loss: the bopomofo becomes final and stays in the
editor. -/
theorem bopomofo_finalised_and_held :
    ¬ ∀ (E : Type) [ChewingEditor E] (zhconv : Str → Str) (t₀ t : Tip E) (before after : Wide)
        (ls : List (Focusing E)), (∀ s, zhconv s = [] ↔ s = []) → t₀.Untouched before after →
      Run (FocusStep zhconv) t₀ ls t → t.FinalisesOnce zhconv := by
  intro hclaim
  have hkey : Typing.Enabled id (Tip.fresh .immediate) (.key (key (absorbed ['ㄅ']))) := by
    decide +kernel
  have honce := hclaim ScriptedEditor id (Tip.fresh .immediate) _ [] []
    [.typing (.key (key (absorbed ['ㄅ'])))] (fun _ => Iff.rfl) (Tip.fresh_untouched _)
    (.single (.typing hkey.step)) 0x3105 (by decide +kernel)
  exact absurd honce (by decide +kernel)

end ChewingTsf
