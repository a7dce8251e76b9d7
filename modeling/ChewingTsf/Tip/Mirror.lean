import ChewingTsf.Tip.Typing

/-!
# The document mirrors the editor

Once the queue is empty, the active composition should read what the editor's
preedit reads, and nothing but committed text should be final. `MirrorsPreedit`
and its two uses, `KeyInput.Mirrors` and `Tip.ToggleMirrors`, say when a step
leaves it so: no composition is ended from under an edit that is still waiting,
a key that bypasses `update_preedit` leaves nothing composed, and the commit
moves as many UTF-16 units as it has characters. `Mirroring` is the invariant.
-/

namespace ChewingTsf

open ChewingEditor

variable {E : Type} [ChewingEditor E]

/-- `w` is made of some of the texts, in order, each as typed or converted. -/
inductive Spells (zhconv : Str → Str) : Wide → List Str → Prop
  | nil : Spells zhconv [] []
  | skip {w : Wide} {cs : List Str} (c : Str) (h : Spells zhconv w cs) :
      Spells zhconv w (cs ++ [c])
  | typed {w : Wide} {cs : List Str} (c : Str) (h : Spells zhconv w cs) :
      Spells zhconv (w ++ utf16 c) (cs ++ [c])
  | converted {w : Wide} {cs : List Str} (c : Str) (h : Spells zhconv w cs) :
      Spells zhconv (w ++ utf16 (zhconv c)) (cs ++ [c])

/-- Empty texts spell nothing. -/
theorem Spells.eq_nil {zhconv : Str → Str} (hz : zhconv [] = []) {w : Wide} {cs : List Str}
    (h : Spells zhconv w cs) (hcs : ∀ c ∈ cs, c = []) : w = [] := by
  induction h with
  | nil => rfl
  | skip c _ ih => exact ih fun d hd => hcs d (List.mem_append_left _ hd)
  | typed c _ ih =>
    rw [ih fun d hd => hcs d (List.mem_append_left _ hd),
      hcs c (List.mem_append_right _ List.mem_cons_self)]
    rfl
  | converted c _ ih =>
    rw [ih fun d hd => hcs d (List.mem_append_left _ hd),
      hcs c (List.mem_append_right _ List.mem_cons_self), hz]
    rfl

namespace Tip

/-- `update_preedit`, called in `t` while the document is to show `shown`, leaves
it to show the editor's preedit. -/
structure MirrorsPreedit (zhconv : Str → Str) (commit shown : Str) (t : Tip E) : Prop where
  /-- the preedit is written as it is, behind all of the commit -/
  continues : t.Continues →
    t.converted zhconv (preedit t.chewingEditor) = preedit t.chewingEditor ∧
      Bmp (t.converted zhconv commit)
  /-- no edit is waiting in the composition that ends, or it composes nothing -/
  idle : ¬ t.Continues → ¬ t.isComposing → t.upgradePendingEdit = none ∨ shown = []

instance (zhconv : Str → Str) (commit shown : Str) (t : Tip E) :
    Decidable (t.MirrorsPreedit zhconv commit shown) :=
  decidable_of_iff ((t.Continues →
        t.converted zhconv (preedit t.chewingEditor) = preedit t.chewingEditor ∧
          Bmp (t.converted zhconv commit)) ∧
      (¬ t.Continues → ¬ t.isComposing → t.upgradePendingEdit = none ∨ shown = []))
    ⟨fun ⟨h₁, h₂⟩ => ⟨h₁, h₂⟩, fun ⟨h₁, h₂⟩ => ⟨h₁, h₂⟩⟩

/-- What `toggle_lang_mode` calls `update_preedit` in, if it gets that far. -/
def toggleInput (env : ModeEnv) (t : Tip E) : Tip E :=
  let u := ({ t with langMode := t.langMode.toggled }.syncLangMode env true).2
  { u with chewingEditor := clearSyllableEditor u.chewingEditor }

/-- A toggle that calls `update_preedit` leaves the document to show the preedit. -/
def ToggleMirrors (zhconv : Str → Str) (env : ModeEnv) (t : Tip E) : Prop :=
  env.buttons ∧ env.context ∧ t.langMode ≠ (t.toggleInput env).langMode →
    (t.toggleInput env).MirrorsPreedit zhconv [] (preedit t.chewingEditor)

instance (zhconv : Str → Str) (env : ModeEnv) (t : Tip E) :
    Decidable (t.ToggleMirrors zhconv env) :=
  inferInstanceAs (Decidable (_ → _))

end Tip

/-- The key `k`, handled in `t`, leaves the document to show the new preedit. -/
def KeyInput.Mirrors (zhconv : Str → Str) (t : Tip E) (k : KeyInput E) : Prop :=
  ((k.processed t).Direct k.textAction →
      (t.upgradePendingEdit = none → preedit (ack k.editor) = []) ∧
        (t.upgradePendingEdit ≠ none →
          k.text = [] ∧ preedit (ack k.editor) = preedit t.chewingEditor)) ∧
    (¬ (k.processed t).Direct k.textAction →
      ((k.processed t).updateInput k.env k.textAction).2.MirrorsPreedit zhconv
        ((k.processed t).updateInput k.env k.textAction).1 (preedit t.chewingEditor))

instance (zhconv : Str → Str) (t : Tip E) (k : KeyInput E) : Decidable (k.Mirrors zhconv t) :=
  inferInstanceAs (Decidable (_ ∧ _))

/-- The condition on a step of a run. -/
def Switching.Mirrors (zhconv : Str → Str) (t : Tip E) : Switching E → Prop
  | .typing (.key k) => k.Mirrors zhconv t
  | .typing .session => True
  | .toggle env => t.ToggleMirrors zhconv env

instance (zhconv : Str → Str) (t : Tip E) : (a : Switching E) → Decidable (a.Mirrors zhconv t)
  | .typing (.key k) => inferInstanceAs (Decidable (k.Mirrors zhconv t))
  | .typing .session => .isTrue trivial
  | .toggle env => inferInstanceAs (Decidable (t.ToggleMirrors zhconv env))

namespace Tip

/-- The invariant: once the queue is empty, the document shows `shown` in the
composition and, outside of it, committed text between `before` and `after`. -/
structure Mirroring (zhconv : Str → Str) (before after : Wide) (texts : List Str) (shown : Str)
    (t : Tip E) : Prop extends t.Asynchronous where
  settled : ∃ wb wl, Spells zhconv wb texts ∧ Spells zhconv wl texts ∧
    t.Settled (before ++ wb) (before ++ wl) (utf16 shown) after

namespace Mirroring

variable {zhconv : Str → Str} {before after : Wide} {texts : List Str} {shown : Str}
  {t u : Tip E} {commit : Str}

omit [ChewingEditor E] in
theorem congr (h : t.Mirroring zhconv before after texts shown) (hsame : SameRequests t u) :
    u.Mirroring zhconv before after texts shown := by
  obtain ⟨wb, wl, hwb, hwl, hsettled⟩ := h.settled
  exact ⟨hsame.asynchronous h.toAsynchronous, wb, wl, hwb, hwl, hsame.settled hsettled⟩

omit [ChewingEditor E] in
/-- A text that goes nowhere. -/
theorem skip (h : t.Mirroring zhconv before after texts shown) (c : Str) :
    t.Mirroring zhconv before after (texts ++ [c]) shown := by
  obtain ⟨wb, wl, hwb, hwl, hsettled⟩ := h.settled
  exact ⟨h.toAsynchronous, wb, wl, hwb.skip c, hwl.skip c, hsettled⟩

omit [ChewingEditor E] in
theorem runSession (h : t.Mirroring zhconv before after texts shown) :
    t.runSession.Mirroring zhconv before after texts shown := by
  obtain ⟨wb, wl, hwb, hwl, hsettled⟩ := h.settled
  obtain ⟨base', hsettled', rfl | rfl⟩ := hsettled.runSession
  · exact ⟨h.toAsynchronous.runSession, wb, wl, hwb, hwl, hsettled'⟩
  · exact ⟨h.toAsynchronous.runSession, wl, wl, hwl, hwl, hsettled'⟩

omit [ChewingEditor E] in
/-- While nothing is composed and no edit is waiting, there is nothing to show. -/
theorem shown_eq_nil (h : t.Mirroring zhconv before after texts shown)
    (hcomposing : t.isComposing = false) (hup : t.upgradePendingEdit = none) : shown = [] := by
  obtain ⟨wb, wl, -, -, hsettled⟩ := h.settled
  exact utf16_eq_nil.mp (hsettled.body_of_not_composing hcomposing hup)

/-- **`update_preedit`** leaves the document to show the editor's preedit, and
finalises the text `c` or nothing. -/
theorem updatePreedit (h : t.Mirroring zhconv before after texts shown) (hz : zhconv [] = [])
    (hsafe : t.MirrorsPreedit zhconv commit shown) {c : Str} (hc : commit = c ∨ commit = []) :
    (t.updatePreedit zhconv commit).Mirroring zhconv before after (texts ++ [c])
      (preedit t.chewingEditor) := by
  obtain ⟨wb, wl, hwb, hwl, hsettled⟩ := h.settled
  have hspells : ∀ {w}, Spells zhconv w texts →
      Spells zhconv (w ++ utf16 (t.converted zhconv commit)) (texts ++ [c]) := by
    intro w hw
    rcases hc with rfl | rfl
    · unfold converted
      split
      · exact hw.converted commit
      · exact hw.typed commit
    · rw [converted_nil hz, utf16_nil, List.append_nil]
      exact hw.skip c
  -- the edit is applied after `before` and a spelling, whichever edit it replaces
  have hset : ∀ preedit segments cursor, ∃ w, Spells zhconv w texts ∧
      (t.setCompositionString zhconv commit preedit segments cursor).Settled (before ++ w)
        (before ++ w ++ (t.editOf zhconv commit preedit segments cursor).committed)
        (t.editOf zhconv commit preedit segments cursor).composed after := by
    intro preedit segments cursor
    obtain ⟨base', rfl | rfl, hnew⟩ := hsettled.setCompositionString h.toAsynchronous
      zhconv commit preedit segments cursor
    · exact ⟨wb, hwb, hnew⟩
    · exact ⟨wl, hwl, hnew⟩
  rcases updatePreedit_cases zhconv commit t with
    ⟨hcont, segments, cursor, heq⟩ | ⟨hcont, -, heq⟩ | ⟨hcont, hidle, heq⟩
  · obtain ⟨hplain, hbmp⟩ := hsafe.continues hcont
    obtain ⟨w, hw, hnew⟩ := hset (preedit t.chewingEditor) segments cursor
    have hedit : (t.editOf zhconv commit (preedit t.chewingEditor) segments cursor).preedit
        = preedit t.chewingEditor := hplain
    rw [CompositionString.committed_of_bmp hbmp, CompositionString.composed_of_bmp hbmp, hedit,
      List.append_assoc] at hnew
    rw [heq]
    exact ⟨h.toAsynchronous.setCompositionString, w, _, hw.skip c, hspells hw, hnew⟩
  · -- the edit is written and then ended: all of its text is final
    obtain ⟨w, hw, hnew⟩ := hset [] [] 0
    have hend := hnew.endComposition h.toAsynchronous.setCompositionString
    rw [List.append_assoc, CompositionString.committed_append_composed, text_editOf_nil hz,
      List.append_assoc] at hend
    rw [heq, not_not.mp (not_or.mp hcont).1]
    exact ⟨h.toAsynchronous.setCompositionString.endComposition, _, _, hspells hw, hspells hw,
      hend⟩
  · -- the composition ends as the document will show it
    have hshown : shown = [] := by
      rcases hsafe.idle hcont (Bool.eq_false_iff.mp hidle) with hup | hnil
      · exact h.shown_eq_nil hidle hup
      · exact hnil
    have hend := hsettled.endComposition h.toAsynchronous
    rw [hshown, utf16_nil, List.append_nil] at hend
    rw [heq, not_not.mp (not_or.mp hcont).1]
    exact ⟨h.toAsynchronous.endComposition, wl, wl, hwl.skip c, hwl.skip c, hend⟩

/-- A key pressed while nothing is composed. -/
theorem insertCommit (h : t.Mirroring zhconv before after texts shown)
    {textAction : Option Str} (hdirect : t.Direct textAction)
    (hidle : t.upgradePendingEdit = none → preedit (ack t.chewingEditor) = [])
    (hwaiting : t.upgradePendingEdit ≠ none →
      t.directText textAction = [] ∧ preedit (ack t.chewingEditor) = shown) :
    (t.insertCommit textAction).Mirroring zhconv before after
      (texts ++ [t.directText textAction]) (preedit (ack t.chewingEditor)) := by
  obtain ⟨wb, wl, hwb, hwl, hsettled⟩ := h.settled
  by_cases hup : t.upgradePendingEdit = none
  · have hnew := hsettled.insertCommit h.grant hdirect (.inr hup)
    have hbase : before ++ wb = before ++ wl := by
      rcases hsettled.pending_cases with ⟨-, -, hbase⟩ | ⟨cs, hcs, -⟩
      · exact hbase
      · rw [pendingString, hup] at hcs
        cases hcs
    rw [hbase, List.append_assoc, h.shown_eq_nil hdirect.1 hup, ← hidle hup] at hnew
    exact ⟨h.toAsynchronous.insertCommit textAction, _, _, hwl.typed _, hwl.typed _, hnew⟩
  · obtain ⟨htext, hshown⟩ := hwaiting hup
    have hnew := hsettled.insertCommit h.grant hdirect (.inl htext)
    rw [htext, utf16_nil, List.append_nil, List.append_nil] at hnew
    rw [hshown]
    exact ⟨h.toAsynchronous.insertCommit textAction, wb, wl, hwb.skip _, hwl.skip _, hnew⟩

end Mirroring

/-! ## Language-mode toggles -/

section Toggle

variable {t : Tip E} {zhconv : Str → Str} {env : ModeEnv}

omit [ChewingEditor E] in
theorem syncLangMode_frame (env : ModeEnv) (internal : Bool) (t : Tip E) :
    SameRequests t (t.syncLangMode env internal).2 ∧
      (t.syncLangMode env internal).2.chewingEditor = t.chewingEditor := by
  obtain ⟨langMode, heq, -⟩ := syncLangMode_eq env internal t
  rw [heq]
  exact ⟨⟨rfl, rfl, rfl, rfl, rfl, rfl, rfl⟩, rfl⟩

theorem toggleInput_frame : SameRequests t (t.toggleInput env) := by
  obtain ⟨h, -⟩ := syncLangMode_frame env true { t with langMode := t.langMode.toggled }
  exact ⟨h.1, h.2, h.3, h.4, h.5, h.6, h.7⟩

/-- A toggle calls `update_preedit`, or ends with `sync_lang_mode`. -/
theorem toggleLangMode_eq (zhconv : Str → Str) (env : ModeEnv) (t : Tip E) :
    ((env.buttons ∧ env.context ∧ t.langMode ≠ (t.toggleInput env).langMode) ∧
        (t.toggleLangMode zhconv env).2 = (t.toggleInput env).updatePreedit zhconv []) ∨
      (t.toggleLangMode zhconv env).2
        = ({ t with langMode := t.langMode.toggled }.syncLangMode env true).2 := by
  have hbuttons : ({ t with langMode := t.langMode.toggled }.syncLangMode env true).1
      = if env.buttons then .ok () else .error .error := rfl
  unfold toggleLangMode toggleInput
  rcases hs : { t with langMode := t.langMode.toggled }.syncLangMode env true with ⟨r, u⟩
  rw [hs] at hbuttons
  simp only [hs]
  cases r with
  | error e => exact .inr rfl
  | ok _ =>
    dsimp only
    split
    · next hmode =>
      split
      · next hcontext =>
        refine .inl ⟨⟨?_, hcontext, hmode⟩, rfl⟩
        by_contra hnot
        rw [if_neg hnot] at hbuttons
        cases hbuttons
      · exact .inr rfl
    · exact .inr rfl

/-- A toggle calls `update_preedit`, or leaves editor and requests alone. -/
theorem toggleLangMode_cases (zhconv : Str → Str) (env : ModeEnv) (t : Tip E) :
    ((env.buttons ∧ env.context ∧ t.langMode ≠ (t.toggleInput env).langMode) ∧
        (t.toggleLangMode zhconv env).2 = (t.toggleInput env).updatePreedit zhconv []) ∨
      (SameRequests t (t.toggleLangMode zhconv env).2 ∧
        (t.toggleLangMode zhconv env).2.chewingEditor = t.chewingEditor) := by
  rcases toggleLangMode_eq zhconv env t with hcalls | heq
  · exact .inl hcalls
  · obtain ⟨hsame, heditor⟩ := syncLangMode_frame env true
      { t with langMode := t.langMode.toggled }
    rw [heq]
    exact .inr ⟨⟨hsame.1, hsame.2, hsame.3, hsame.4, hsame.5, hsame.6, hsame.7⟩, heditor⟩

end Toggle

namespace Mirroring

variable {zhconv : Str → Str} {before after : Wide} {texts : List Str} {t u : Tip E}

/-- **One step** leaves the document to show the editor's preedit. -/
theorem step (hz : zhconv [] = [])
    (hcancel : ∀ e : E, displayCommit (cancelSelecting e).1 = displayCommit e)
    (h : t.Mirroring zhconv before after texts (preedit t.chewingEditor)) {a : Switching E}
    (hstep : AsyncStep zhconv t a u) (hsafe : a.Mirrors zhconv t) :
    u.Mirroring zhconv before after (texts ++ [a.text]) (preedit u.chewingEditor) := by
  cases hstep with
  | typing hstep =>
    cases hstep with
    | session _ =>
      rw [runSession_service]
      exact h.runSession.skip []
    | @key _ k hkey =>
      have hsafe : k.Mirrors zhconv t := hsafe
      have hprocessed := h.congr (k.sameRequests t)
      rcases Tip.deliverKey_cases hkey with ⟨hdirect, rfl⟩ | ⟨hdirect, rfl⟩
      · -- inserted: nothing is composed, and an edit that waits shows what the editor holds
        have htext : k.text = (k.processed t).directText k.textAction := by
          rw [KeyInput.text, if_pos (by exact hdirect.2)]
          rfl
        obtain ⟨hidle, hwaiting⟩ := hsafe.1 hdirect
        rw [htext] at hwaiting
        rw [insertCommit_chewingEditor, Switching.text, Typing.text, htext]
        exact hprocessed.insertCommit hdirect hidle hwaiting
      · rw [updatePreedit_chewingEditor, Switching.text, Typing.text]
        exact (hprocessed.congr updateInput_frame).updatePreedit hz (hsafe.2 hdirect)
          ((k.updateInput_text hcancel t).imp_right And.right)
  | @toggle env =>
    rcases t.toggleLangMode_cases zhconv env with ⟨hcalls, heq⟩ | ⟨hsame, heditor⟩
    · rw [heq, updatePreedit_chewingEditor]
      exact (h.congr toggleInput_frame).updatePreedit hz (hsafe hcalls) (.inl rfl)
    · rw [heditor]
      exact (h.congr hsame).skip []

end Mirroring

end Tip

/-! ## Whole runs -/

/-- The document and the editor agree: nothing is composed on either side, or the
active composition reads what the preedit reads. -/
def Tip.Agrees (t : Tip E) : Prop :=
  (preedit t.chewingEditor = [] ∧ t.store.document.composing = []) ∨
    (t.store.document.composition.isSome ∧
      t.store.document.composing = utf16 (preedit t.chewingEditor))

/-- **The document mirrors the editor.** In every run of keys, sessions and
language-mode toggles whose steps meet `Switching.Mirrors` in the state they are
taken in: once the queue is empty, the active composition reads what the editor's
preedit reads, and what is finalised is made of committed texts only. -/
theorem agrees_of_mirrors {zhconv : Str → Str} (hz : zhconv [] = [])
    (hcancel : ∀ e : E, displayCommit (cancelSelecting e).1 = displayCommit e)
    {t₀ t : Tip E} {before after : Wide} {ls : List (Switching E)} (h₀ : t₀.AtRest before after)
    (hnil : preedit t₀.chewingEditor = [])
    (hrun : Run (Guarded (Switching.Mirrors zhconv) (AsyncStep zhconv)) t₀ ls t)
    (hqueue : t.queue = []) :
    t.Agrees ∧ ∃ w, Spells zhconv w (ls.map Switching.text) ∧
      t.store.document.finalised = before ++ w ++ after := by
  -- the texts so far are the history of the run
  have hinv : t.Mirroring zhconv before after (ls.map Switching.text)
      (preedit t.chewingEditor) := by
    refine hrun.history (I := fun ls t => t.Mirroring zhconv before after
      (ls.map Switching.text) (preedit t.chewingEditor)) ?_ ?_
    · refine ⟨h₀.toAsynchronous, [], [], .nil, .nil, ?_⟩
      rw [hnil, utf16_nil, List.append_nil]
      exact h₀.settled
    · rintro ls t a u hI ⟨hsafe, hstep⟩
      rw [List.map_append]
      exact hI.step hz hcancel hstep hsafe
  obtain ⟨wb, wl, -, hwl, hsettled⟩ := hinv.settled
  have hview := hsettled.view_of_queue_nil hqueue
  refine ⟨?_, wl, hwl, hview.finalised_eq⟩
  have hcomposing := hview.composing_eq
  cases hview with
  | shows c _ hdoc =>
    refine .inr ⟨?_, hcomposing⟩
    rw [hdoc.composition]
    rfl
  | idle _ hbody _ => exact .inl ⟨utf16_eq_nil.mp hbody, hcomposing.trans hbody⟩

open ScriptedEditor in
/-- A bopomofo key, its session, a toggle, and the two sessions of the toggle. -/
theorem agrees_after_toggle :
    ([.typing (.key (key (absorbed ['ㄅ']))), .typing .session, .toggle ⟨false, true, true⟩,
      .typing .session, .typing .session].foldl (Switching.next id) (Tip.fresh .queued)).Agrees ∧
    ∃ w, Spells id w [[], [], [], [], []] ∧
      ([.typing (.key (key (absorbed ['ㄅ']))), .typing .session, .toggle ⟨false, true, true⟩,
        .typing .session, .typing .session].foldl (Switching.next id)
          (Tip.fresh .queued)).store.document.finalised = [] ++ w ++ [] := by
  have hrun : Run (Guarded (Switching.Mirrors id) (AsyncStep id)) (Tip.fresh .queued)
      [.typing (.key (key (absorbed ['ㄅ']))), .typing .session, .toggle ⟨false, true, true⟩,
        .typing .session, .typing .session] _ :=
    Along.run (fun t a => a.Mirrors id t ∧ a.Enabled id t) (Switching.next id)
      (fun _ _ h => ⟨h.1, h.2.step⟩) (by decide +kernel)
  exact agrees_of_mirrors rfl (fun _ => rfl) Tip.fresh_atRest rfl hrun (by decide +kernel)

open ScriptedEditor in
/-- A bopomofo key, and a toggle before its session has run: the toggle discards
the bopomofo and ends the composition that the session has still to start. -/
theorem discarded_preedit_finalised :
    ¬ ∀ (E : Type) [ChewingEditor E] (zhconv : Str → Str) (t₀ t : Tip E) (before after : Wide)
        (ls : List (Switching E)), zhconv [] = [] →
      (∀ e : E, displayCommit (cancelSelecting e).1 = displayCommit e) →
      t₀.AtRest before after → preedit t₀.chewingEditor = [] →
      Run (AsyncStep zhconv) t₀ ls t → t.queue = [] →
      t.Agrees ∧ ∃ w, Spells zhconv w (ls.map Switching.text) ∧
        t.store.document.finalised = before ++ w ++ after := by
  intro hclaim
  obtain ⟨-, w, hw, hfinal⟩ := hclaim ScriptedEditor id (Tip.fresh .queued) _ [] []
    [.typing (.key (key (absorbed ['ㄅ']))), .toggle ⟨false, true, true⟩, .typing .session,
      .typing .session] rfl (fun _ => rfl) Tip.fresh_atRest rfl
    (Along.run (fun t a => a.Enabled id t) _ (fun _ _ h => h.step) (by decide +kernel))
    (by decide +kernel)
  rw [hw.eq_nil rfl (by decide +kernel)] at hfinal
  exact absurd hfinal (by decide +kernel)

end ChewingTsf
