import Mathlib.Data.List.Nodup
import ChewingTsf.Tip.Typing

/-!
# Who owns the pending edit

A `SetCompositionString` session shares its composition cell and its pending cell
with the service: `set_composition_string` rewrites the pending cell as long as
its session is outstanding, `end_composition` gives the composition cell away and
forgets the pending one, and the tail of a termination empties both.

So that nothing is written twice, at most one outstanding session of the current
composition cell may have an edit left, and it must be the one that `pending_edit`
reaches (`Owning`). Here TSF answers each request in its own way, runs the
outstanding sessions in any order, and any call of a session may fail.
-/

namespace ChewingTsf

/-! ## Sessions whose calls may fail -/

namespace EditSession

open SessM

/-- A session when it has run, with the answers of `env`. -/
def exec (env : TsfEnv) (σ : Store) : EditSession → Session
  | .insertText text => (InsertText.doEditSession env text).final (σ.session none none)
  | .setCompositionString c p =>
    (SetCompositionString.doEditSession env).final (σ.session (σ.compositions c) (σ.pendings p))
  | .endComposition c => (EndComposition.doEditSession env).final (σ.session (σ.compositions c) none)

/-- Running a session with the answers of `env`. -/
def runWith (env : TsfEnv) (σ : Store) (s : EditSession) : Store :=
  match s with
  | .insertText _ => { σ with document := (s.exec env σ).document }
  | .setCompositionString c _ => σ.settle c (s.exec env σ)
  | .endComposition c => σ.settle c (s.exec env σ)

theorem runWith_quiet (σ : Store) (s : EditSession) : s.runWith .quiet σ = run σ s := by
  cases s <;> rfl

theorem runWith_pendings (env : TsfEnv) (σ : Store) (s : EditSession) :
    (s.runWith env σ).pendings = σ.pendings := by
  cases s <;> rfl

/-- It is a `SetCompositionString` session of the composition cell `c`. -/
def Writes (c : CellId) (s : EditSession) : Prop := ∃ p, s = .setCompositionString c p

instance (c : CellId) : (s : EditSession) → Decidable (s.Writes c)
  | .insertText _ => .isFalse nofun
  | .setCompositionString c' p =>
    decidable_of_iff (c' = c) ⟨fun h => ⟨p, h ▸ rfl⟩, fun ⟨_, h⟩ => by cases h; rfl⟩
  | .endComposition _ => .isFalse nofun

/-- Without an edit in its pending cell, a session makes no call at all. -/
theorem exec_of_empty {env : TsfEnv} {σ : Store} {c p : CellId} (hp : σ.pendings p = none) :
    (setCompositionString c p).exec env σ = σ.session (σ.compositions c) none := by
  show (SetCompositionString.doEditSession env).final (σ.session _ (σ.pendings p)) = _
  rw [hp]
  unfold SetCompositionString.doEditSession
  cases σ.compositions c <;> rfl

theorem runWith_of_empty {env : TsfEnv} {σ : Store} {c p : CellId} (hp : σ.pendings p = none) :
    (setCompositionString c p).runWith env σ = σ := by
  show σ.settle c ((setCompositionString c p).exec env σ) = σ
  rw [exec_of_empty hp]
  show { σ with compositions := Function.update σ.compositions c (σ.compositions c) } = σ
  rw [Function.update_eq_self]

end EditSession

open EditSession

namespace Tip

variable {E : Type}

/-! ## Outstanding sessions -/

/-- The outstanding `SetCompositionString` sessions of the current composition
cell. -/
def sharing (t : Tip E) : List EditSession := t.queue.filter (Writes t.composition ·)

/-- Those whose pending cell is not empty. -/
def live (t : Tip E) : List EditSession :=
  t.sharing.filter fun s => s.pendingCell.any fun p => (t.store.pendings p).isSome

theorem mem_sharing {t : Tip E} {s : EditSession} :
    s ∈ t.sharing ↔ s ∈ t.queue ∧ ∃ p, s = .setCompositionString t.composition p := by
  unfold sharing
  rw [List.mem_filter, decide_eq_true_iff]
  rfl

/-- The cells of the outstanding sessions are allocated, no two sessions share a
pending cell, and an edit of the current composition is the one `pending_edit` is
about. -/
structure Owning (t : Tip E) : Prop where
  composition : t.composition < t.nextCell
  compositionCell : ∀ s ∈ t.queue, ∀ c, s.compositionCell = some c → c < t.nextCell
  pendingCell : ∀ s ∈ t.queue, ∀ p, s.pendingCell = some p → p < t.nextCell
  distinct : (t.queue.filterMap EditSession.pendingCell).Nodup
  reached : ∀ p, .setCompositionString t.composition p ∈ t.queue →
    (t.store.pendings p).isSome → t.pendingEdit = some p

namespace Owning

variable {t : Tip E} {s : EditSession}

theorem upgradePendingEdit_eq (h : t.Owning) {p : CellId}
    (hmem : .setCompositionString t.composition p ∈ t.queue)
    (hsome : (t.store.pendings p).isSome) : t.upgradePendingEdit = some p :=
  upgradePendingEdit_eq_some.mpr ⟨h.reached p hmem hsome, owned_iff.mpr ⟨_, hmem, rfl⟩⟩

/-- At most one outstanding session has an edit left, and `pending_edit` reaches
it. -/
theorem live_cases (h : t.Owning) :
    t.live = [] ∨ ∃ p, t.live = [.setCompositionString t.composition p] ∧
      t.upgradePendingEdit = some p := by
  have hmem : ∀ s ∈ t.live, ∃ p, s = .setCompositionString t.composition p ∧
      t.upgradePendingEdit = some p := by
    intro s hs
    obtain ⟨hshare, hedit⟩ := List.mem_filter.mp hs
    obtain ⟨hqueue, p, rfl⟩ := mem_sharing.mp hshare
    exact ⟨p, rfl, h.upgradePendingEdit_eq hqueue hedit⟩
  have hdistinct : (t.live.filterMap EditSession.pendingCell).Nodup :=
    h.distinct.sublist ((List.filter_sublist.trans List.filter_sublist).filterMap _)
  cases hlive : t.live with
  | nil => exact .inl rfl
  | cons s rest =>
    rw [hlive] at hmem hdistinct
    obtain ⟨p, rfl, hup⟩ := hmem s List.mem_cons_self
    refine .inr ⟨p, ?_, hup⟩
    cases rest with
    | nil => rfl
    | cons s' rest =>
      -- a second one would have the same pending cell
      obtain ⟨p', rfl, hup'⟩ := hmem s' (List.mem_cons_of_mem _ List.mem_cons_self)
      rw [hup] at hup'
      cases hup'
      exact absurd List.mem_cons_self (List.nodup_cons.mp hdistinct).1

/-! ## What keeps it -/

theorem setGrant (h : t.Owning) (grant : Grant) : ({ t with grant := grant } : Tip E).Owning :=
  ⟨h.1, h.2, h.3, h.4, h.5⟩

/-- A session is requested. -/
theorem request (h : t.Owning) (hcell : ∀ c, s.compositionCell = some c → c < t.nextCell)
    (hpending : ∀ p, s.pendingCell = some p → p < t.nextCell ∧ ¬ t.Owned p)
    (hreached : ∀ p, s = .setCompositionString t.composition p → t.pendingEdit = some p) :
    (t.requestEditSession s).Owning := by
  unfold requestEditSession
  cases t.grant with
  | immediate =>
    refine ⟨h.composition, h.compositionCell, h.pendingCell, h.distinct, fun p hmem hsome => ?_⟩
    rw [run_pendings] at hsome
    exact h.reached p hmem hsome
  | queued =>
    refine ⟨h.composition, fun s' hs' => ?_, fun s' hs' => ?_, ?_, fun p hmem hsome => ?_⟩
    · rcases List.mem_append.mp hs' with hs' | hs'
      · exact h.compositionCell s' hs'
      · rw [List.mem_singleton.mp hs']
        exact hcell
    · rcases List.mem_append.mp hs' with hs' | hs'
      · exact h.pendingCell s' hs'
      · rw [List.mem_singleton.mp hs']
        exact fun p hp => (hpending p hp).1
    · show ((t.queue ++ [s]).filterMap EditSession.pendingCell).Nodup
      rw [List.filterMap_append]
      refine List.Nodup.append h.distinct ?_ ?_
      · cases hs : s.pendingCell <;> simp [hs]
      · intro p hp hnew
        obtain ⟨s', hs', heq⟩ := List.mem_filterMap.mp hp
        obtain ⟨s'', hs'', heq'⟩ := List.mem_filterMap.mp hnew
        rw [List.mem_singleton.mp hs''] at heq'
        exact (hpending p heq').2 (owned_iff.mpr ⟨s', hs', heq⟩)
    · rcases List.mem_append.mp hmem with hmem | hmem
      · exact h.reached p hmem hsome
      · exact hreached p (List.mem_singleton.mp hmem).symm

theorem insertText (h : t.Owning) (text : Str) : (t.insertText text).Owning :=
  h.request nofun nofun nofun

/-- The next cell to be allocated is nobody's. -/
theorem not_owned_nextCell (h : t.Owning) : ¬ t.Owned t.nextCell := fun howned => by
  obtain ⟨s, hs, hp⟩ := owned_iff.mp howned
  exact Nat.lt_irrefl _ (h.pendingCell s hs _ hp)

theorem setCompositionString (h : t.Owning) (zhconv : Str → Str) (commit preedit : Str)
    (segments : List (Nat × Nat)) (cursor : Nat) :
    (t.setCompositionString zhconv commit preedit segments cursor).Owning := by
  unfold Tip.setCompositionString
  dsimp only
  cases hup : t.upgradePendingEdit with
  | some p =>
    -- the edit is rewritten
    obtain ⟨hpending, -⟩ := upgradePendingEdit_eq_some.mp hup
    refine ⟨h.composition, h.compositionCell, h.pendingCell, h.distinct, fun q hmem hsome => ?_⟩
    by_cases hqp : q = p
    · rw [hqp]
      exact hpending
    · refine h.reached q hmem ?_
      rwa [show (t.replacePending p _).store.pendings q = t.store.pendings q from
        Function.update_of_ne hqp _ _] at hsome
  | none =>
    -- a new edit; no older one is left
    have hlt := Nat.lt_succ_self t.nextCell
    let u : Tip E := { t.replacePending t.nextCell ⟨t.converted zhconv commit,
        t.converted zhconv preedit, segments, cursor⟩ with
      pendingEdit := some t.nextCell
      nextCell := t.nextCell + 1 }
    have hu : u.Owning := by
      refine ⟨h.composition.trans hlt, fun s hs c hc => (h.compositionCell s hs c hc).trans hlt,
        fun s hs p hp => (h.pendingCell s hs p hp).trans hlt, h.distinct, fun p hmem hsome => ?_⟩
      by_cases hp : p = t.nextCell
      · rw [hp]
      · have hsome' : (t.store.pendings p).isSome := by
          rwa [show u.store.pendings p = t.store.pendings p from
            Function.update_of_ne hp _ _] at hsome
        rw [h.upgradePendingEdit_eq hmem hsome'] at hup
        cases hup
    refine hu.request ?_ ?_ ?_
    · rintro c ⟨⟩
      exact hu.composition
    · rintro p ⟨⟩
      exact ⟨hlt, h.not_owned_nextCell⟩
    · rintro p ⟨⟩
      rfl

theorem endComposition (h : t.Owning) : t.endComposition.Owning := by
  have hlt := Nat.lt_succ_self t.nextCell
  refine request ⟨hlt, fun s hs c hc => (h.compositionCell s hs c hc).trans hlt,
    fun s hs p hp => (h.pendingCell s hs p hp).trans hlt, h.distinct, fun p hmem _ => ?_⟩
    ?_ nofun nofun
  · -- no session has the new cell
    exact absurd (h.compositionCell _ hmem _ rfl) (Nat.lt_irrefl _)
  · rintro c ⟨⟩
    exact h.composition.trans hlt

/-- An outstanding session runs and is released. -/
theorem session (h : t.Owning) {before after : List EditSession}
    (hqueue : t.queue = before ++ s :: after) (env : TsfEnv) :
    ({ t with store := s.runWith env t.store, queue := before ++ after } : Tip E).Owning := by
  have hsub : (before ++ after).Sublist t.queue := by
    rw [hqueue]
    exact List.Sublist.append_left (List.sublist_cons_self s after) before
  refine ⟨h.composition, fun s' hs' => h.compositionCell s' (hsub.subset hs'),
    fun s' hs' => h.pendingCell s' (hsub.subset hs'), h.distinct.sublist (hsub.filterMap _),
    fun p hmem hsome => ?_⟩
  rw [runWith_pendings] at hsome
  exact h.reached p (hsub.subset hmem) hsome

section Terminated

variable [ChewingEditor E]

omit [ChewingEditor E] in
/-- The tail empties the pending cell that `pending_edit` reaches, and no session of
the current composition cell has an edit in another one. -/
theorem pendings_clear (h : t.Owning) {p : CellId}
    (hmem : .setCompositionString t.composition p ∈ t.queue) :
    (match t.upgradePendingEdit with
      | some q => t.store.setPending q none
      | none => t.store).pendings p = none := by
  cases hp : t.store.pendings p with
  | none =>
    cases t.upgradePendingEdit with
    | none => exact hp
    | some q =>
      show Function.update t.store.pendings q none p = none
      by_cases hpq : p = q
      · rw [hpq, Function.update_self]
      · rw [Function.update_of_ne hpq, hp]
  | some cs =>
    rw [h.upgradePendingEdit_eq hmem (by rw [hp]; rfl)]
    exact Function.update_self _ _ _

/-- After the tail, the outstanding sessions of the current composition cell have
nothing to write. -/
theorem pendings_terminatedTail (h : t.Owning) {p : CellId}
    (hmem : .setCompositionString t.composition p ∈ t.queue) :
    t.onCompositionTerminatedTail.store.pendings p = none := h.pendings_clear hmem

theorem terminatedTail (h : t.Owning) : t.onCompositionTerminatedTail.Owning := by
  refine ⟨h.composition, h.compositionCell, h.pendingCell, h.distinct, fun p hmem hsome => ?_⟩
  rw [h.pendings_terminatedTail hmem] at hsome
  cases hsome

end Terminated

end Owning

end Tip

/-! ## Runs -/

section Runs

variable {E : Type} [ChewingEditor E]

/-- What a run of the ownership protocol consists of. -/
inductive Ownership (E : Type) where
  | setCompositionString (grant : Grant) (zhconv : Str → Str) (commit preedit : Str)
      (segments : List (Nat × Nat)) (cursor : Nat)
  | endComposition (grant : Grant)
  | insertText (grant : Grant) (text : Str)
  | terminatedTail
  | session (env : TsfEnv) (s : EditSession)
  /-- anything else the service does to itself -/
  | elsewhere (service : ChewingTextService E)

/-- TSF answers each request in its own way (`grant`) and runs any outstanding
session; the termination of a composition arrives between sessions. -/
inductive OwnershipStep : Tip E → Ownership E → Tip E → Prop
  | setCompositionString (t : Tip E) (grant : Grant) (zhconv : Str → Str) (commit preedit : Str)
      (segments : List (Nat × Nat)) (cursor : Nat) :
      OwnershipStep t (.setCompositionString grant zhconv commit preedit segments cursor)
        ({ t with grant := grant }.setCompositionString zhconv commit preedit segments cursor)
  | endComposition (t : Tip E) (grant : Grant) :
      OwnershipStep t (.endComposition grant) { t with grant := grant }.endComposition
  | insertText (t : Tip E) (grant : Grant) (text : Str) :
      OwnershipStep t (.insertText grant text) ({ t with grant := grant }.insertText text)
  | terminatedTail (t : Tip E) : OwnershipStep t .terminatedTail t.onCompositionTerminatedTail
  | session {t : Tip E} {env : TsfEnv} {s : EditSession} {before after : List EditSession}
      (hqueue : t.queue = before ++ s :: after) (henv : ∀ n, (env n).reenter = false) :
      OwnershipStep t (.session env s)
        { t with store := s.runWith env t.store, queue := before ++ after }
  | elsewhere {t : Tip E} {service : ChewingTextService E}
      (hcomposition : service.composition = t.composition)
      (hpending : service.pendingEdit = t.pendingEdit) :
      OwnershipStep t (.elsewhere service) { t with toChewingTextService := service }

namespace Tip

variable {t u : Tip E}

theorem Owning.step (h : t.Owning) {a : Ownership E} (hstep : OwnershipStep t a u) :
    u.Owning := by
  cases hstep with
  | setCompositionString grant zhconv commit preedit segments cursor =>
    exact (h.setGrant grant).setCompositionString zhconv commit preedit segments cursor
  | endComposition grant => exact (h.setGrant grant).endComposition
  | insertText grant text => exact (h.setGrant grant).insertText text
  | terminatedTail => exact h.terminatedTail
  | @session env s before after hqueue henv => exact h.session hqueue env
  | @elsewhere service hcomposition hpending =>
    refine ⟨?_, h.compositionCell, h.pendingCell, h.distinct, ?_⟩
    · show service.composition < t.nextCell
      rw [hcomposition]
      exact h.composition
    · show ∀ p, .setCompositionString service.composition p ∈ t.queue →
        (t.store.pendings p).isSome → service.pendingEdit = some p
      rw [hcomposition, hpending]
      exact h.reached

/-- A service that has not requested anything. -/
structure Unrequested (t : Tip E) : Prop where
  composition : t.composition < t.nextCell
  queue : t.queue = []

omit [ChewingEditor E] in
theorem Unrequested.owning (h : t.Unrequested) : t.Owning where
  composition := h.composition
  compositionCell := by
    rw [h.queue]
    exact nofun
  pendingCell := by
    rw [h.queue]
    exact nofun
  distinct := by
    rw [h.queue]
    exact List.nodup_nil
  reached := by
    rw [h.queue]
    exact nofun

/-- **A terminated composition is not resurrected.** However requests, terminations
and sessions interleave, at most one outstanding session of the current composition
cell has an edit left, and it is the one `pending_edit` reaches. Right after the
tail of a termination these sessions, run in any order, make no call of TSF and
leave the document and the cells as they are. -/
theorem terminated_not_resurrected (hstart : t.Unrequested) {ls : List (Ownership E)}
    (hrun : Run OwnershipStep t ls u) :
    (u.live = [] ∨ ∃ p, u.live = [.setCompositionString u.composition p] ∧
      u.upgradePendingEdit = some p) ∧
    ∀ runs : List (TsfEnv × EditSession),
      (∀ r ∈ runs, r.2 ∈ u.onCompositionTerminatedTail.sharing) →
      runs.foldl (fun σ r => r.2.runWith r.1 σ) u.onCompositionTerminatedTail.store
          = u.onCompositionTerminatedTail.store ∧
        ∀ r ∈ runs, (r.2.exec r.1 u.onCompositionTerminatedTail.store).calls = [] := by
  have howning : u.Owning := hrun.invariant hstart.owning fun h hstep => h.step hstep
  have hempty : ∀ s ∈ u.onCompositionTerminatedTail.sharing, ∃ c p,
      s = .setCompositionString c p ∧
        u.onCompositionTerminatedTail.store.pendings p = none := by
    intro s hs
    obtain ⟨hqueue, p, rfl⟩ := mem_sharing.mp hs
    exact ⟨_, p, rfl, howning.pendings_terminatedTail hqueue⟩
  refine ⟨howning.live_cases, fun runs hruns => ⟨?_, fun r hr => ?_⟩⟩
  · induction runs with
    | nil => rfl
    | cons r runs ih =>
      obtain ⟨c, p, heq, hp⟩ := hempty r.2 (hruns r List.mem_cons_self)
      rw [List.foldl_cons, heq, runWith_of_empty hp]
      exact ih fun r' hr' => hruns r' (List.mem_cons_of_mem r hr')
  · obtain ⟨c, p, heq, hp⟩ := hempty r.2 (hruns r hr)
    rw [heq, exec_of_empty hp]
    rfl

end Tip

end Runs

/-- A bopomofo has been typed, and its session has not run yet. -/
def Tip.requested : Tip ScriptedEditor :=
  (Tip.fresh .queued).setCompositionString id [] "ㄅ".toList [] 0

theorem Tip.terminated_not_resurrected_requested :
    (requested.live = [] ∨ ∃ p, requested.live = [.setCompositionString requested.composition p] ∧
      requested.upgradePendingEdit = some p) ∧
    ∀ runs : List (TsfEnv × EditSession),
      (∀ r ∈ runs, r.2 ∈ requested.onCompositionTerminatedTail.sharing) →
      runs.foldl (fun σ r => r.2.runWith r.1 σ) requested.onCompositionTerminatedTail.store
          = requested.onCompositionTerminatedTail.store ∧
        ∀ r ∈ runs, (r.2.exec r.1 requested.onCompositionTerminatedTail.store).calls = [] :=
  Tip.terminated_not_resurrected ⟨Nat.zero_lt_one, rfl⟩
    (.single (.setCompositionString (Tip.fresh .queued) .queued id [] "ㄅ".toList [] 0))

example : Tip.requested.live = [.setCompositionString 0 1] := by decide

end ChewingTsf
