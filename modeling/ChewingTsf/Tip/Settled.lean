import ChewingTsf.Tip.Chewing

/-!
# What the document will show once the queue is empty

Sessions run later, so the document lags behind the service. `Tip.drained` runs
the whole queue ahead of time, and `Settled t base left body right` says what
the document then shows: `body` is composed between `left` and `right`. While
the service can still rewrite the edit of a requested session, that edit has
been applied to a document that ends in `base`, and `left` is `base` followed by
what the edit commits; otherwise `base` is `left`.

There is one lemma for each way the service changes the queue, and one for a
session that runs. They need no condition apart from the one of
`Settled.insertText`: text inserted while a `SetCompositionString` session is
outstanding lands in the composition that session starts.
-/

namespace ChewingTsf

open EditSession Store

namespace Tip

variable {E : Type}

/-- The store once every requested session has run. -/
def drained (t : Tip E) : Store := t.queue.foldl run t.store

/-- Requests are queued, and every cell in use has been allocated. -/
structure Asynchronous (t : Tip E) : Prop where
  grant : t.grant = .queued
  composition : t.composition < t.nextCell
  compositionCell : ∀ s ∈ t.queue, ∀ c, s.compositionCell = some c → c < t.nextCell
  pendingCell : ∀ s ∈ t.queue, ∀ p, s.pendingCell = some p → p < t.nextCell
  empty : ∀ c, t.nextCell ≤ c → t.store.compositions c = none

/-- What the document shows once the queue is empty. -/
inductive Settled (t : Tip E) (base left body right : Wide) : Prop
  /-- no requested edit can be rewritten -/
  | ready (hup : t.upgradePendingEdit = none)
      (hfree : ∀ s ∈ t.queue, s.compositionCell ≠ some t.composition)
      (hview : t.drained.View t.composition left body right)
      (hbase : base = left)
  /-- the edit `cs` of the last session that writes to the document can -/
  | waiting (p : CellId) (cs : CompositionString) (before after : List EditSession)
      (body₀ : Wide) (hup : t.upgradePendingEdit = some p)
      (hqueue : t.queue = before ++ .setCompositionString t.composition p :: after)
      (hbefore : ∀ s ∈ before, s.compositionCell ≠ some t.composition ∧ s.pendingCell ≠ some p)
      (hafter : ∀ s ∈ after, s = .insertText [])
      (hcs : t.store.pendings p = some cs)
      (hview : (before.foldl run t.store).View t.composition base body₀ right)
      (hleft : left = base ++ cs.committed) (hbody : body = cs.composed)

theorem upgradePendingEdit_eq_some {t : Tip E} {p : CellId} :
    t.upgradePendingEdit = some p ↔ t.pendingEdit = some p ∧ t.Owned p := by
  simp [upgradePendingEdit, Option.filter_eq_some_iff]

theorem upgradePendingEdit_eq_none {t : Tip E} :
    t.upgradePendingEdit = none ↔ ∀ p, t.pendingEdit = some p → ¬ t.Owned p := by
  simp [upgradePendingEdit, Option.filter_eq_none_iff]

theorem owned_iff {t : Tip E} {p : CellId} :
    t.Owned p ↔ ∃ s ∈ t.queue, s.pendingCell = some p := by
  simp [Owned]

namespace Settled

variable {t : Tip E} {base left body right : Wide}

theorem view (h : Settled t base left body right) :
    t.drained.View t.composition left body right := by
  cases h with
  | ready _ _ hview _ => exact hview
  | waiting p cs before after body₀ _ hqueue _ hafter hcs hview hleft hbody =>
    have hp : (before.foldl run t.store).pendings p = some cs := by
      rw [foldl_run_pendings, hcs]
    unfold drained
    rw [hqueue, List.foldl_append, List.foldl_cons, foldl_run_insertText_nil hafter, hleft,
      hbody]
    exact (run_setCompositionString hview hp).1

/-- With an empty queue the document shows it now. -/
theorem view_of_queue_nil (h : Settled t base left body right) (hq : t.queue = []) :
    t.store.View t.composition left body right := by
  have hview := h.view
  unfold drained at hview
  rw [hq] at hview
  exact hview

/-- An outstanding edit accounts for what lies between `base` and `right`. -/
theorem pending_cases (h : Settled t base left body right) :
    (t.pendingString = none ∧ t.upgradePendingEdit = none ∧ base = left) ∨
      ∃ cs, t.pendingString = some cs ∧ left = base ++ cs.committed ∧ body = cs.composed := by
  unfold pendingString
  cases h with
  | ready hup _ _ hbase =>
    rw [hup]
    exact .inl ⟨rfl, rfl, hbase⟩
  | waiting p cs before after body₀ hup _ _ _ hcs _ hleft hbody =>
    rw [hup]
    exact .inr ⟨cs, hcs, hleft, hbody⟩

/-- The current cell is filled as soon as its composition is shown. -/
theorem body_of_cell_none (h : Settled t base left body right)
    (hup : t.upgradePendingEdit = none) (hcell : t.store.compositions t.composition = none) :
    body = [] ∧ t.drained.document.Idle left right := by
  cases h with
  | ready _ hfree hview _ =>
    refine hview.idle_of_none ?_
    unfold drained
    rw [foldl_run_compositions hfree, hcell]
  | waiting p cs before after body₀ hsome =>
    rw [hup] at hsome
    cases hsome

/-- While nothing is composed and no edit is waiting, nothing will be composed. -/
theorem body_of_not_composing (h : Settled t base left body right)
    (hcomposing : t.isComposing = false) (hup : t.upgradePendingEdit = none) : body = [] := by
  have hcell := (Bool.or_eq_false_iff.mp hcomposing).1
  exact (h.body_of_cell_none hup
    (Option.not_isSome_iff_eq_none.mp (Bool.eq_false_iff.mp hcell))).1

end Settled

/-! ## A session runs -/

section RunSession

variable {t : Tip E} {base left body right : Wide} {s : EditSession} {queue : List EditSession}

theorem runSession_nil (hq : t.queue = []) : t.runSession = t := by
  unfold runSession
  rw [hq]

theorem runSession_cons (hq : t.queue = s :: queue) :
    t.runSession = { t with store := run t.store s, queue := queue } := by
  unfold runSession
  rw [hq]

/-- The service does not see a session run. -/
theorem runSession_service (t : Tip E) :
    t.runSession.toChewingTextService = t.toChewingTextService := by
  unfold runSession
  split <;> rfl

theorem drained_runSession (t : Tip E) : t.runSession.drained = t.drained := by
  cases hq : t.queue with
  | nil => rw [runSession_nil hq]
  | cons s queue =>
    rw [runSession_cons hq]
    unfold drained
    rw [hq, List.foldl_cons]

theorem Asynchronous.runSession (h : t.Asynchronous) : t.runSession.Asynchronous := by
  cases hq : t.queue with
  | nil => rwa [runSession_nil hq]
  | cons s queue =>
    rw [runSession_cons hq]
    have hmem : ∀ s' ∈ queue, s' ∈ t.queue := fun s' hs' => hq ▸ List.mem_cons_of_mem s hs'
    refine ⟨h.grant, h.composition, fun s' hs' => h.compositionCell s' (hmem s' hs'),
      fun s' hs' => h.pendingCell s' (hmem s' hs'), fun c hc => ?_⟩
    have hne : s.compositionCell ≠ some c := fun hs =>
      absurd (h.compositionCell s (hq ▸ List.mem_cons_self) c hs) (Nat.not_lt.mpr hc)
    show (run t.store s).compositions c = none
    rw [run_compositions_of_ne hne, h.empty c hc]

/-- Running a session changes nothing about what will be shown in the end; if it
was the outstanding one, its edit can no longer be rewritten. -/
theorem Settled.runSession (h : Settled t base left body right) :
    ∃ base', Settled t.runSession base' left body right ∧ (base' = base ∨ base' = left) := by
  have hview := h.view
  cases hq : t.queue with
  | nil =>
    rw [runSession_nil hq]
    exact ⟨base, h, .inl rfl⟩
  | cons s queue =>
    rw [← drained_runSession] at hview
    rw [runSession_cons hq] at hview ⊢
    cases h with
    | ready hup hfree _ hbase =>
      refine ⟨left, .ready ?_ ?_ hview rfl, .inr rfl⟩
      · rw [upgradePendingEdit_eq_none] at hup ⊢
        intro p hp hown
        obtain ⟨s', hs', hcell⟩ := owned_iff.mp hown
        exact hup p hp (owned_iff.mpr ⟨s', hq ▸ List.mem_cons_of_mem s hs', hcell⟩)
      · exact fun s' hs' => hfree s' (hq ▸ List.mem_cons_of_mem s hs')
    | waiting p cs before after body₀ hup hqueue hbefore hafter hcs hview₀ hleft hbody =>
      obtain ⟨hedit, -⟩ := upgradePendingEdit_eq_some.mp hup
      cases before with
      | nil =>
        -- the outstanding session itself
        obtain ⟨rfl, rfl⟩ := List.cons.inj (hq.symm.trans hqueue)
        refine ⟨left, .ready ?_ ?_ hview rfl, .inr rfl⟩
        · rw [upgradePendingEdit_eq_none]
          intro p' _ hown
          obtain ⟨s', hs', hcell⟩ := owned_iff.mp hown
          rw [hafter s' hs'] at hcell
          cases hcell
        · intro s' hs'
          rw [hafter s' hs']
          exact nofun
      | cons s₀ before =>
        obtain ⟨rfl, rfl⟩ := List.cons.inj (hq.symm.trans hqueue)
        refine ⟨base, .waiting p cs before after body₀ ?_ rfl
          (fun s' hs' => hbefore s' (List.mem_cons_of_mem s hs')) hafter ?_ hview₀ hleft hbody,
          .inl rfl⟩
        · refine upgradePendingEdit_eq_some.mpr ⟨hedit, owned_iff.mpr ?_⟩
          exact ⟨_, List.mem_append_right _ List.mem_cons_self, rfl⟩
        · rw [← hcs]
          exact congrFun (run_pendings _ _) p

/-- A session that has run can no longer be rewritten; the others still can. -/
theorem pendingString_runSession (t : Tip E) :
    t.runSession.pendingString = t.pendingString ∨ t.runSession.pendingString = none := by
  cases hup : t.runSession.upgradePendingEdit with
  | none => exact .inr (by rw [pendingString, hup]; rfl)
  | some p =>
    left
    cases hq : t.queue with
    | nil => rw [runSession_nil hq]
    | cons s queue =>
      rw [runSession_cons hq] at hup ⊢
      obtain ⟨hedit, hown⟩ := upgradePendingEdit_eq_some.mp hup
      obtain ⟨s', hs', hcell⟩ := owned_iff.mp hown
      have hup' : t.upgradePendingEdit = some p :=
        upgradePendingEdit_eq_some.mpr ⟨hedit, owned_iff.mpr
          ⟨s', hq ▸ List.mem_cons_of_mem s hs', hcell⟩⟩
      unfold pendingString
      rw [hup, hup']
      exact congrFun (run_pendings t.store s) p

end RunSession

/-! ## The service requests a session -/

section Requests

variable {t : Tip E} {base left body right : Wide}

theorem requestEditSession_of_queued (hgrant : t.grant = .queued) (s : EditSession) :
    t.requestEditSession s = { t with queue := t.queue ++ [s] } := by
  unfold requestEditSession
  rw [hgrant]

/-- A session at the end of the queue, with the cells that were allocated for it. -/
theorem Asynchronous.enqueue {u : Tip E} {s : EditSession} (h : t.Asynchronous)
    (hgrant : u.grant = .queued) (hnext : t.nextCell ≤ u.nextCell)
    (hqueue : u.queue = t.queue ++ [s]) (hcomposition : u.composition < u.nextCell)
    (hcell : ∀ c, s.compositionCell = some c → c < u.nextCell)
    (hpending : ∀ p, s.pendingCell = some p → p < u.nextCell)
    (hstore : u.store.compositions = t.store.compositions) : u.Asynchronous := by
  refine ⟨hgrant, hcomposition, fun s' hs' c hc => ?_, fun s' hs' p hp => ?_, fun c hc => ?_⟩
  · rw [hqueue] at hs'
    rcases List.mem_append.mp hs' with hs' | hs'
    · exact Nat.lt_of_lt_of_le (h.compositionCell s' hs' c hc) hnext
    · rw [List.mem_singleton.mp hs'] at hc
      exact hcell c hc
  · rw [hqueue] at hs'
    rcases List.mem_append.mp hs' with hs' | hs'
    · exact Nat.lt_of_lt_of_le (h.pendingCell s' hs' p hp) hnext
    · rw [List.mem_singleton.mp hs'] at hp
      exact hpending p hp
  · rw [hstore]
    exact h.empty c (Nat.le_trans hnext hc)

/-- Requests keep the bookkeeping of cells. -/
theorem Asynchronous.push (h : t.Asynchronous) {s : EditSession}
    (hcell : ∀ c, s.compositionCell = some c → c < t.nextCell)
    (hpending : ∀ p, s.pendingCell = some p → p < t.nextCell) :
    (t.requestEditSession s).Asynchronous := by
  rw [requestEditSession_of_queued h.grant]
  exact h.enqueue h.grant (Nat.le_refl _) rfl h.composition hcell hpending rfl

theorem Asynchronous.insertText (h : t.Asynchronous) (text : Str) :
    (t.insertText text).Asynchronous := h.push nofun nofun

theorem drained_requestEditSession (hgrant : t.grant = .queued) (s : EditSession) :
    (t.requestEditSession s).drained = run t.drained s := by
  rw [requestEditSession_of_queued hgrant]
  unfold drained
  rw [List.foldl_append]
  rfl

@[simp] theorem requestEditSession_service (t : Tip E) (s : EditSession) :
    (t.requestEditSession s).toChewingTextService = t.toChewingTextService := by
  unfold requestEditSession
  split <;> rfl

/-- A session without a pending cell does not keep one alive. -/
theorem upgradePendingEdit_push (hgrant : t.grant = .queued) {s : EditSession}
    (hs : s.pendingCell = none) :
    (t.requestEditSession s).upgradePendingEdit = t.upgradePendingEdit := by
  have howned : ∀ p, (t.requestEditSession s).Owned p ↔ t.Owned p := by
    intro p
    rw [requestEditSession_of_queued hgrant]
    simp [Owned, hs]
  unfold upgradePendingEdit
  simp only [howned]
  rw [requestEditSession_of_queued hgrant]

theorem pendingString_insertText (hgrant : t.grant = .queued) (text : Str) :
    (t.insertText text).pendingString = t.pendingString := by
  unfold pendingString Tip.insertText
  rw [upgradePendingEdit_push hgrant rfl, requestEditSession_of_queued hgrant]

/-- **`insert_text`** while nothing is composed. -/
theorem Settled.insertText (h : Settled t base left body right) (text : Str)
    (hgrant : t.grant = .queued) (hcell : t.store.compositions t.composition = none)
    (htext : text = [] ∨ t.upgradePendingEdit = none) :
    Settled (t.insertText text) (base ++ utf16 text) (left ++ utf16 text) body right := by
  have hup' := upgradePendingEdit_push hgrant (s := .insertText (utf16 text)) rfl
  have hidle := h.body_of_cell_none
  cases h with
  | ready hup hfree hview hbase =>
    -- no edit waits, and the queue ends with nothing composed
    obtain ⟨hbody, hdoc⟩ := hidle hup hcell
    refine .ready (hup'.trans hup) ?_ ?_ (by rw [hbase])
    · rw [Tip.insertText, requestEditSession_of_queued hgrant]
      intro s hs
      rcases List.mem_append.mp hs with hs | hs
      · exact hfree s hs
      · rw [List.mem_singleton.mp hs]
        exact nofun
    · rw [Tip.insertText, drained_requestEditSession hgrant,
        requestEditSession_of_queued hgrant]
      refine .idle ?_ hbody (run_insertText_idle hdoc _)
      rw [run_insertText_compositions]
      unfold drained
      rw [foldl_run_compositions hfree, hcell]
  | waiting p cs before after body₀ hup hqueue hbefore hafter hcs hview hleft hbody =>
    -- behind an edit that waits, only nothing can be inserted
    obtain rfl : text = [] := htext.resolve_right (by rw [hup]; exact nofun)
    rw [utf16_nil, List.append_nil, List.append_nil]
    refine .waiting p cs before (after ++ [.insertText []]) body₀ (hup'.trans hup) ?_ ?_ ?_ ?_ ?_
      hleft hbody
    · rw [Tip.insertText, requestEditSession_of_queued hgrant]
      simp [hqueue]
    · rw [Tip.insertText, requestEditSession_of_queued hgrant]
      exact hbefore
    · intro s hs
      rcases List.mem_append.mp hs with hs | hs
      · exact hafter s hs
      · exact List.mem_singleton.mp hs
    · rw [Tip.insertText, requestEditSession_of_queued hgrant]
      exact hcs
    · rw [Tip.insertText, requestEditSession_of_queued hgrant]
      exact hview

/-- The string `set_composition_string` stores. -/
def editOf (zhconv : Str → Str) (commit preedit : Str) (segments : List (Nat × Nat))
    (cursor : Nat) (t : Tip E) : CompositionString :=
  ⟨t.converted zhconv commit, t.converted zhconv preedit, segments, cursor⟩

section SetCompositionString

variable {zhconv : Str → Str} {commit preedit : Str} {segments : List (Nat × Nat)} {cursor : Nat}

theorem setCompositionString_of_some {p : CellId} (hup : t.upgradePendingEdit = some p) :
    t.setCompositionString zhconv commit preedit segments cursor =
      t.replacePending p (t.editOf zhconv commit preedit segments cursor) := by
  unfold setCompositionString editOf
  rw [hup]

theorem setCompositionString_of_none (hup : t.upgradePendingEdit = none)
    (hgrant : t.grant = .queued) :
    t.setCompositionString zhconv commit preedit segments cursor =
      { t with
        store := t.store.setPending t.nextCell
          (some (t.editOf zhconv commit preedit segments cursor))
        pendingEdit := some t.nextCell
        nextCell := t.nextCell + 1
        queue := t.queue ++ [.setCompositionString t.composition t.nextCell] } := by
  unfold setCompositionString editOf
  rw [hup]
  exact requestEditSession_of_queued (by exact hgrant) _

theorem Asynchronous.setCompositionString (h : t.Asynchronous) :
    (t.setCompositionString zhconv commit preedit segments cursor).Asynchronous := by
  cases hup : t.upgradePendingEdit with
  | some p =>
    rw [setCompositionString_of_some hup]
    exact ⟨h.grant, h.composition, h.compositionCell, h.pendingCell, h.empty⟩
  | none =>
    have hcomposition : t.composition < t.nextCell + 1 := Nat.lt_succ_of_lt h.composition
    rw [setCompositionString_of_none hup h.grant]
    refine h.enqueue h.grant (Nat.le_succ _) rfl hcomposition ?_ ?_ rfl
    · rintro _ ⟨⟩
      exact hcomposition
    · rintro _ ⟨⟩
      exact Nat.lt_succ_self _

/-- Afterwards there is an edit that can be rewritten: the outstanding one, or a
new one. -/
theorem upgradePendingEdit_setCompositionString (hgrant : t.grant = .queued) :
    (t.setCompositionString zhconv commit preedit segments cursor).upgradePendingEdit
      = some (t.upgradePendingEdit.getD t.nextCell) := by
  cases hup : t.upgradePendingEdit with
  | some p =>
    rw [setCompositionString_of_some hup]
    exact hup
  | none =>
    rw [setCompositionString_of_none hup hgrant]
    refine upgradePendingEdit_eq_some.mpr ⟨rfl, owned_iff.mpr ?_⟩
    exact ⟨_, List.mem_append_right _ List.mem_cons_self, rfl⟩

theorem pendingString_setCompositionString (hgrant : t.grant = .queued) :
    (t.setCompositionString zhconv commit preedit segments cursor).pendingString
      = some (t.editOf zhconv commit preedit segments cursor) := by
  unfold pendingString
  rw [upgradePendingEdit_setCompositionString hgrant]
  cases hup : t.upgradePendingEdit with
  | some p =>
    rw [setCompositionString_of_some hup]
    exact Function.update_self _ _ _
  | none =>
    rw [setCompositionString_of_none hup hgrant]
    exact Function.update_self _ _ _

/-- **`set_composition_string`**: the edit is applied after `left`, or in place of
the outstanding one. -/
theorem Settled.setCompositionString (h : Settled t base left body right)
    (halloc : t.Asynchronous) (zhconv : Str → Str) (commit preedit : Str)
    (segments : List (Nat × Nat)) (cursor : Nat) :
    ∃ base', (base' = base ∨ base' = left) ∧
      Settled (t.setCompositionString zhconv commit preedit segments cursor) base'
        (base' ++ (t.editOf zhconv commit preedit segments cursor).committed)
        (t.editOf zhconv commit preedit segments cursor).composed right := by
  have hup' : (t.setCompositionString zhconv commit preedit segments cursor).upgradePendingEdit
      = some (t.upgradePendingEdit.getD t.nextCell) :=
    upgradePendingEdit_setCompositionString halloc.grant
  cases h with
  | ready hup hfree hview hbase =>
    refine ⟨left, .inr rfl, ?_⟩
    have hnew : ∀ s ∈ t.queue, s.pendingCell ≠ some t.nextCell := fun s hs hp =>
      absurd (halloc.pendingCell s hs _ hp) (Nat.lt_irrefl _)
    rw [hup] at hup'
    rw [setCompositionString_of_none hup halloc.grant] at hup' ⊢
    refine .waiting t.nextCell _ t.queue [] body hup' rfl (fun s hs => ⟨hfree s hs, hnew s hs⟩)
      nofun ?_ ?_ rfl rfl
    · exact Function.update_self _ _ _
    · show (t.queue.foldl run (t.store.setPending _ _)).View _ _ _ _
      rw [foldl_run_setPending hnew]
      exact hview.congr rfl rfl
  | waiting p cs before after body₀ hup hqueue hbefore hafter hcs hview hleft hbody =>
    refine ⟨base, .inl rfl, ?_⟩
    rw [hup] at hup'
    rw [setCompositionString_of_some hup] at hup' ⊢
    refine .waiting p _ before after body₀ hup' hqueue hbefore hafter ?_ ?_ rfl rfl
    · exact Function.update_self _ _ _
    · show (before.foldl run (t.store.setPending _ _)).View _ _ _ _
      rw [foldl_run_setPending fun s hs => (hbefore s hs).2]
      exact hview.congr rfl rfl

end SetCompositionString

theorem endComposition_of_asynchronous (h : t.Asynchronous) :
    t.endComposition =
      { t with
        composition := t.nextCell
        nextCell := t.nextCell + 1
        pendingEdit := none
        queue := t.queue ++ [.endComposition t.composition] } := by
  have hstore : t.store.setComposition t.nextCell none = t.store := by
    have hupdate : Function.update t.store.compositions t.nextCell none = t.store.compositions := by
      rw [Function.update_eq_self_iff, h.empty _ (Nat.le_refl _)]
    unfold setComposition
    rw [hupdate]
  unfold endComposition
  rw [hstore]
  exact requestEditSession_of_queued (by exact h.grant) _

theorem Asynchronous.endComposition (h : t.Asynchronous) : t.endComposition.Asynchronous := by
  rw [endComposition_of_asynchronous h]
  refine h.enqueue h.grant (Nat.le_succ _) rfl (Nat.lt_succ_self _) ?_ nofun rfl
  rintro _ ⟨⟩
  exact Nat.lt_succ_of_lt h.composition

theorem pendingString_endComposition (h : t.Asynchronous) :
    t.endComposition.pendingString = none := by
  rw [endComposition_of_asynchronous h]
  rfl

/-- **`end_composition`**: what is composed becomes final. -/
theorem Settled.endComposition (h : Settled t base left body right) (halloc : t.Asynchronous) :
    Settled t.endComposition (left ++ body) (left ++ body) [] right := by
  have hlt : ∀ s ∈ t.queue, s.compositionCell ≠ some t.nextCell := fun s hs hc =>
    absurd (halloc.compositionCell s hs _ hc) (Nat.lt_irrefl _)
  have hend : (EditSession.endComposition t.composition).compositionCell ≠ some t.nextCell :=
    fun hc => absurd (Option.some.inj hc) (Nat.ne_of_lt halloc.composition)
  rw [endComposition_of_asynchronous halloc]
  refine .ready (upgradePendingEdit_eq_none.mpr nofun) (fun s hs => ?_) ?_ rfl
  · rcases List.mem_append.mp hs with hs | hs
    · exact hlt s hs
    · rw [List.mem_singleton.mp hs]
      exact hend
  · have hrun := run_endComposition h.view
    unfold drained at hrun ⊢
    rw [List.foldl_append]
    refine .idle ?_ rfl hrun.1
    show (run (t.queue.foldl run t.store) (.endComposition t.composition)).compositions t.nextCell
      = none
    rw [run_compositions_of_ne hend, foldl_run_compositions hlt, halloc.empty _ (Nat.le_refl _)]

end Requests

end Tip

end ChewingTsf
