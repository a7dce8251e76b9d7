import ChewingTsf.Tip.Typing

/-!
# Committed text reaches the document

The text a key commits is handed to an edit session, and an edit session can be
rewritten, or inserted into, before it has run. `DeliversCommit` and
`KeyInput.Delivers` say when the text of a key survives this: no earlier commit is
still waiting in the edit that is rewritten, nothing is inserted into a
composition that a session has still to start, and the commit moves as many
UTF-16 units as it has characters. Under these conditions every commit ends up
in the document, once and in order; `Delivering` is the invariant.
-/

namespace ChewingTsf

open ChewingEditor

variable {E : Type} [ChewingEditor E]

namespace Tip

/-- The commit of the edit that can still be rewritten. -/
def undelivered (t : Tip E) : Str := (t.pendingString.map (·.commit)).getD []

/-- The preedit of the edit that can still be rewritten. -/
def pendingPreedit (t : Tip E) : Str := (t.pendingString.map (·.preedit)).getD []

/-- `update_preedit`, called in `t`, brings `commit` into the document. -/
structure DeliversCommit (zhconv : Str → Str) (commit : Str) (t : Tip E) : Prop where
  /-- the output is not converted, or the conversion has nothing to do -/
  plain : t.converted zhconv commit = commit
  /-- an edit that replaces another and leaves the composition open -/
  continues : t.Continues → t.undelivered = [] ∧ Bmp commit
  /-- an edit that replaces another before the composition ends -/
  ends : ¬ t.Continues → t.isComposing → t.undelivered = []
  /-- no edit at all: the composition ends as it is -/
  idle : ¬ t.Continues → ¬ t.isComposing → commit = [] ∧ t.pendingPreedit = []

instance (zhconv : Str → Str) (commit : Str) (t : Tip E) :
    Decidable (t.DeliversCommit zhconv commit) :=
  decidable_of_iff (t.converted zhconv commit = commit ∧
      (t.Continues → t.undelivered = [] ∧ Bmp commit) ∧
      (¬ t.Continues → t.isComposing → t.undelivered = []) ∧
      (¬ t.Continues → ¬ t.isComposing → commit = [] ∧ t.pendingPreedit = []))
    ⟨fun ⟨h₁, h₂, h₃, h₄⟩ => ⟨h₁, h₂, h₃, h₄⟩, fun ⟨h₁, h₂, h₃, h₄⟩ => ⟨h₁, h₂, h₃, h₄⟩⟩

end Tip

/-- The key `k`, handled in `t`, brings its text into the document. -/
def KeyInput.Delivers (zhconv : Str → Str) (t : Tip E) (k : KeyInput E) : Prop :=
  ((k.processed t).Direct k.textAction → t.upgradePendingEdit = none ∨ k.text = []) ∧
    (¬ (k.processed t).Direct k.textAction →
      (lastKeyBehavior k.editor = .commit ∨ k.text = []) ∧
        ((k.processed t).updateInput k.env k.textAction).2.DeliversCommit zhconv
          ((k.processed t).updateInput k.env k.textAction).1)

/-- The condition on a step of a run. -/
def Typing.Delivers (zhconv : Str → Str) (t : Tip E) : Typing E → Prop
  | .key k => k.Delivers zhconv t
  | .session => True

instance (zhconv : Str → Str) (t : Tip E) (k : KeyInput E) : Decidable (k.Delivers zhconv t) :=
  inferInstanceAs (Decidable (_ ∧ _))

instance (zhconv : Str → Str) (t : Tip E) : (a : Typing E) → Decidable (a.Delivers zhconv t)
  | .key k => inferInstanceAs (Decidable (k.Delivers zhconv t))
  | .session => .isTrue trivial

namespace Tip

/-- The invariant: once the queue is empty, the document reads `left`, what is
composed, and `right`. -/
structure Delivering (t : Tip E) (left right : Wide) : Prop extends t.Asynchronous where
  settled : ∃ base body, t.Settled base left body right
  bmp : ∀ cs, t.pendingString = some cs → Bmp cs.commit

namespace Delivering

variable {t u : Tip E} {left right : Wide} {zhconv : Str → Str} {commit : Str}

omit [ChewingEditor E] in
theorem congr (h : t.Delivering left right) (hsame : SameRequests t u) :
    u.Delivering left right := by
  obtain ⟨base, body, hsettled⟩ := h.settled
  refine ⟨hsame.asynchronous h.toAsynchronous, ⟨base, body, hsame.settled hsettled⟩, ?_⟩
  rw [hsame.pendingString]
  exact h.bmp

omit [ChewingEditor E] in
theorem runSession (h : t.Delivering left right) : t.runSession.Delivering left right := by
  obtain ⟨base, body, hsettled⟩ := h.settled
  obtain ⟨base', hsettled', -⟩ := hsettled.runSession
  refine ⟨h.toAsynchronous.runSession, ⟨base', body, hsettled'⟩, fun cs hcs => ?_⟩
  rcases t.pendingString_runSession with hsame | hnone
  · exact h.bmp cs (hsame ▸ hcs)
  · rw [hnone] at hcs
    cases hcs

omit [ChewingEditor E] in
/-- Rewriting an edit that commits nothing loses nothing. -/
theorem base_eq (h : t.Settled base left body right) (hnone : t.undelivered = []) :
    base = left := by
  rcases h.pending_cases with ⟨-, -, hbase⟩ | ⟨cs, hcs, hleft, -⟩
  · exact hbase
  · have hcommit : cs.commit = [] := by
      unfold undelivered at hnone
      rw [hcs] at hnone
      exact hnone
    rw [hleft, CompositionString.committed, hcommit, List.length_nil, List.take_zero,
      List.append_nil]

/-- **`update_preedit`** brings the commit into the document. -/
theorem updatePreedit (h : t.Delivering left right) (hz : zhconv [] = [])
    (hsafe : t.DeliversCommit zhconv commit) :
    (t.updatePreedit zhconv commit).Delivering (left ++ utf16 commit) right := by
  obtain ⟨base, body, hsettled⟩ := h.settled
  have hset : ∀ preedit segments cursor, t.undelivered = [] →
      (t.setCompositionString zhconv commit preedit segments cursor).Settled left
        (left ++ (t.editOf zhconv commit preedit segments cursor).committed)
        (t.editOf zhconv commit preedit segments cursor).composed right := by
    intro preedit segments cursor hnone
    obtain ⟨base', hbase', hnew⟩ := hsettled.setCompositionString h.toAsynchronous
      zhconv commit preedit segments cursor
    obtain rfl : base' = left := hbase'.elim (fun hb => hb.trans (base_eq hsettled hnone)) id
    exact hnew
  rcases updatePreedit_cases zhconv commit t with
    ⟨hcont, segments, cursor, heq⟩ | ⟨hcont, hcomposing, heq⟩ | ⟨hcont, hidle, heq⟩
  · -- the commit joins the edit, which has nothing else to deliver
    obtain ⟨hnone, hbmp⟩ := hsafe.continues hcont
    have hbmp' : Bmp (t.converted zhconv commit) := by
      rw [hsafe.plain]
      exact hbmp
    have hcommitted : (t.editOf zhconv commit (preedit t.chewingEditor) segments cursor).committed
        = utf16 commit := by
      rw [CompositionString.committed_of_bmp hbmp']
      exact congrArg utf16 hsafe.plain
    have hnew := hset (preedit t.chewingEditor) segments cursor hnone
    rw [hcommitted] at hnew
    rw [heq]
    refine ⟨h.toAsynchronous.setCompositionString, ⟨_, _, hnew⟩, fun cs hcs => ?_⟩
    rw [pendingString_setCompositionString h.grant] at hcs
    cases hcs
    exact hbmp'
  · -- the edit is written and then ended: all of its text is final
    have hnew := (hset [] [] 0 (hsafe.ends hcont hcomposing)).endComposition
      h.toAsynchronous.setCompositionString
    rw [List.append_assoc, CompositionString.committed_append_composed, text_editOf_nil hz,
      hsafe.plain] at hnew
    rw [heq]
    refine ⟨h.toAsynchronous.setCompositionString.endComposition, ⟨_, _, hnew⟩,
      fun cs hcs => ?_⟩
    rw [pendingString_endComposition h.toAsynchronous.setCompositionString] at hcs
    cases hcs
  · -- the composition ends as the document will show it, which is with nothing in it
    obtain ⟨rfl, hpreedit⟩ := hsafe.idle hcont (Bool.eq_false_iff.mp hidle)
    have hbody : body = [] := by
      rcases hsettled.pending_cases with ⟨-, hup, -⟩ | ⟨cs, hcs, -, hbody⟩
      · exact hsettled.body_of_not_composing hidle hup
      · unfold pendingPreedit at hpreedit
        rw [hcs] at hpreedit
        rw [hbody, CompositionString.composed_of_bmp (h.bmp cs hcs), utf16_eq_nil]
        exact hpreedit
    have hnew := hsettled.endComposition h.toAsynchronous
    rw [hbody] at hnew
    rw [heq]
    refine ⟨h.toAsynchronous.endComposition, ⟨_, _, hnew⟩, fun cs hcs => ?_⟩
    rw [pendingString_endComposition h.toAsynchronous] at hcs
    cases hcs

/-- A key pressed while nothing is composed. -/
theorem insertCommit (h : t.Delivering left right) {textAction : Option Str}
    (hdirect : t.Direct textAction)
    (htext : t.upgradePendingEdit = none ∨ t.directText textAction = []) :
    (t.insertCommit textAction).Delivering (left ++ utf16 (t.directText textAction)) right := by
  obtain ⟨base, body, hsettled⟩ := h.settled
  refine ⟨h.toAsynchronous.insertCommit textAction,
    ⟨_, _, hsettled.insertCommit h.grant hdirect htext.symm⟩, ?_⟩
  rw [pendingString_insertCommit h.toAsynchronous]
  exact h.bmp

/-- **One step** brings the text of its key into the document. -/
theorem step (hz : zhconv [] = [])
    (hcancel : ∀ e : E, displayCommit (cancelSelecting e).1 = displayCommit e)
    (h : t.Delivering left right) {a : Typing E} (hstep : TypingStep zhconv t a u)
    (hsafe : a.Delivers zhconv t) : u.Delivering (left ++ utf16 a.text) right := by
  cases hstep with
  | session _ =>
    rw [Typing.text, utf16_nil, List.append_nil]
    exact h.runSession
  | @key _ k hkey =>
    have hprocessed := h.congr (k.sameRequests t)
    have hsafe : k.Delivers zhconv t := hsafe
    rcases Tip.deliverKey_cases hkey with ⟨hdirect, rfl⟩ | ⟨hdirect, rfl⟩
    · -- a key inserted directly delivers all of its text
      have htext : k.text = (k.processed t).directText k.textAction := by
        rw [KeyInput.text, if_pos (by exact hdirect.2)]
        rfl
      have hfree := hsafe.1 hdirect
      rw [htext] at hfree
      rw [Typing.text, htext]
      exact hprocessed.insertCommit hdirect hfree
    · obtain ⟨hcommit, hupdate⟩ := hsafe.2 hdirect
      have htext : ((k.processed t).updateInput k.env k.textAction).1 = k.text :=
        (k.updateInput_text hcancel t).elim id fun hnil =>
          hnil.2.trans (hcommit.resolve_left hnil.1).symm
      rw [Typing.text, ← htext]
      exact (hprocessed.congr updateInput_frame).updatePreedit hz hupdate

end Delivering

end Tip

/-! ## Whole runs -/

/-- **Committed text reaches the document.** In every run of keys and sessions, in
any order, whose keys meet `KeyInput.Delivers` in the state they are handled in:
once the queue is empty, what is finalised is exactly the text the keys committed,
in key order. -/
theorem finalised_eq_committed {zhconv : Str → Str} (hz : zhconv [] = [])
    (hcancel : ∀ e : E, displayCommit (cancelSelecting e).1 = displayCommit e)
    {t₀ t : Tip E} {before after : Wide} {ls : List (Typing E)} (h₀ : t₀.AtRest before after)
    (hrun : Run (Guarded (Typing.Delivers zhconv) (TypingStep zhconv)) t₀ ls t)
    (hqueue : t.queue = []) :
    t.store.document.finalised = before ++ utf16 (ls.flatMap Typing.text) ++ after := by
  have hinv : t.Delivering (before ++ utf16 (ls.flatMap Typing.text)) after := by
    refine hrun.history (I := fun ls t =>
      t.Delivering (before ++ utf16 (ls.flatMap Typing.text)) after) ?_ ?_
    · refine ⟨h₀.toAsynchronous, ⟨before, [], ?_⟩, fun cs hcs => ?_⟩
      · rw [List.flatMap_nil, utf16_nil, List.append_nil]
        exact h₀.settled
      · rw [h₀.pendingString] at hcs
        cases hcs
    · rintro ls t a u hI ⟨hsafe, hstep⟩
      rw [List.flatMap_append, List.flatMap_singleton, utf16_append, ← List.append_assoc]
      exact hI.step hz hcancel hstep hsafe
  obtain ⟨base, body, hsettled⟩ := hinv.settled
  exact (hsettled.view_of_queue_nil hqueue).finalised_eq

open ScriptedEditor in
/-- A bopomofo key, its session, a key that commits, and the two sessions of that
key. -/
theorem finalised_eq_committed_ba :
    ([.key (key (absorbed ['ㄅ'])), .session, .key (key (committed ['八'] [])), .session,
      .session].foldl (Typing.next id) (Tip.fresh .queued)).store.document.finalised
        = utf16 ['八'] := by
  have hrun : Run (Guarded (Typing.Delivers id) (TypingStep id)) (Tip.fresh .queued)
      [.key (key (absorbed ['ㄅ'])), .session, .key (key (committed ['八'] [])), .session,
        .session] _ :=
    Along.run (fun t a => a.Delivers id t ∧ a.Enabled id t) (Typing.next id)
      (fun _ _ h => ⟨h.1, h.2.step⟩) (by decide +kernel)
  exact finalised_eq_committed rfl (fun _ => rfl) Tip.fresh_atRest hrun (by decide +kernel)

open ScriptedEditor in
/-- Two commits while one session is outstanding: the first waits in the edit that
the second rewrites, and never reaches the document. -/
theorem rewritten_commit_lost :
    ¬ ∀ (E : Type) [ChewingEditor E] (zhconv : Str → Str) (t₀ t : Tip E) (before after : Wide)
        (ls : List (Typing E)), zhconv [] = [] →
      (∀ e : E, displayCommit (cancelSelecting e).1 = displayCommit e) →
      t₀.AtRest before after → Run (TypingStep zhconv) t₀ ls t → t.queue = [] →
      t.store.document.finalised = before ++ utf16 (ls.flatMap Typing.text) ++ after := by
  intro hclaim
  have hlost := hclaim ScriptedEditor id (Tip.fresh .queued) _ [] []
    [.key (key (absorbed ['ㄅ'])), .session, .key (key (committed ['八'] ['ㄆ'])),
      .key (key (committed ['趴'] [])), .session, .session] rfl (fun _ => rfl) Tip.fresh_atRest
    (Along.run (fun t a => a.Enabled id t) _ (fun _ _ h => h.step) (by decide +kernel))
    (by decide +kernel)
  exact absurd hlost (by decide +kernel)

end ChewingTsf
