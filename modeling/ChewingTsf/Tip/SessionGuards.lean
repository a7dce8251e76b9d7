import ChewingTsf.Tip.EditSession

/-!
# What an edit session holds borrowed across foreign calls

An application may terminate the composition from inside any call a session
makes. `on_composition_terminated_tail` then replaces the contents of the two
cells the session shares with the service, which panics if the session holds
either of them borrowed.

`SetCompositionString::DoEditSession` holds neither cell during the calls that
start a composition and both during every later call, so the session survives
exactly the terminations that arrive while a composition is being started.
-/

namespace ChewingTsf

/-- The calls of the block that starts a new composition. -/
def TsfCall.startsComposition : TsfCall → Bool
  | .castContextComposition | .castInsertAtSelection
  | .querySelection | .startComposition => true
  | _ => false

/-- `on_composition_terminated_tail` can take both cells. -/
def CallPoint.Free (p : CallPoint) : Prop :=
  p.composition = .unused ∧ p.pending = .unused

namespace Session

/-- The cells were free exactly during the calls that start a composition. -/
def Traced (s : Session) : Prop :=
  ∀ q ∈ s.calls, q.Free ↔ q.call.startsComposition

/-- The composition was terminated from inside another call. -/
def Intruded (s : Session) : Prop :=
  ∃ q ∈ s.calls, q.reentered ∧ q.call.startsComposition = false

/-- A call was made while a cell was borrowed. -/
def CalledHolding (s : Session) : Prop :=
  ∃ q ∈ s.calls, ¬ q.Free

/-- The invariant of the block that starts a composition, in a session whose
pending cell first held `p`: so far nothing failed, and the cell keeps `p` until
the composition is terminated. -/
structure Starting (env : TsfEnv) (p : Option CompositionString) (s : Session) : Prop where
  composition : s.composition.flag = .unused
  pending : s.pending.flag = .unused
  free : ∀ q ∈ s.calls, q.Free ∧ q.call.startsComposition
  succeeded : ∀ i < s.calls.length, (env i).fails = false
  kept : (∀ i < s.calls.length, (env i).reenter = false) → s.pending.value = p
  lost : (∃ i < s.calls.length, (env i).reenter) → s.pending.value = none

/-- What is known when the starting block stops early: call number `n` failed. -/
def StartFailed (env : TsfEnv) (n : Nat) (e : SessionExit) (s : Session) : Prop :=
  e = .failed ∧ (∀ q ∈ s.calls, q.Free ∧ q.call.startsComposition) ∧
    ∃ i < n, (env i).fails

/-- Inside the `if let` block both guards are held. -/
structure GuardsTaken (s : Session) : Prop where
  composition : s.composition.flag ≠ .unused
  pending : s.pending.flag ≠ .unused
  traced : s.Traced
  notIntruded : ¬ s.Intruded

/-- The invariant inside the `if let` block from its first call on. -/
structure GuardsHeld (s : Session) : Prop extends GuardsTaken s where
  holding : s.CalledHolding

/-- What is known when the `if let` block stops early. -/
def StoppedHolding (e : SessionExit) (s : Session) : Prop :=
  s.Traced ∧ (e = .panicked ↔ s.Intruded) ∧ s.CalledHolding

theorem GuardsHeld.stopped {s : Session} (h : s.GuardsHeld) : StoppedHolding .failed s :=
  ⟨h.traced, by simp [h.notIntruded], h.holding⟩

theorem Starting.traced {env : TsfEnv} {p : Option CompositionString} {s : Session}
    (h : s.Starting env p) : s.Traced :=
  fun q hq => ⟨fun _ => (h.free q hq).2, fun _ => (h.free q hq).1⟩

theorem Starting.notIntruded {env : TsfEnv} {p : Option CompositionString} {s : Session}
    (h : s.Starting env p) : ¬ s.Intruded := by
  rintro ⟨q, hq, -, hstart⟩
  rw [(h.free q hq).2] at hstart
  cases hstart

theorem Starting.not_calledHolding {env : TsfEnv} {p : Option CompositionString} {s : Session}
    (h : s.Starting env p) : ¬ s.CalledHolding := by
  rintro ⟨q, hq, hfree⟩
  exact hfree (h.free q hq).1

theorem start_starting (env : TsfEnv) (document : Document)
    (composition : Option CompositionId) (pending : Option CompositionString)
    (next : CompositionId) :
    (start document composition pending next).Starting env pending where
  composition := rfl
  pending := rfl
  free := fun _ hq => nomatch hq
  succeeded := fun _ hi => nomatch hi
  kept := fun _ => rfl
  lost := fun ⟨_, hi, _⟩ => nomatch hi

end Session

open Session SessM

/-! ## Calls of the starting block -/

/-- A call that starts a composition leaves the cells free, also when the
composition is terminated from inside it. -/
theorem wp_call_starting {env : TsfEnv} {p : Option CompositionString} {c : TsfCall}
    {s : Session} (hc : c.startsComposition) (h : s.Starting env p) :
    wp (call env c)
      (fun _ t => t.Starting env p ∧ t.calls.length = s.calls.length + 1)
      (StartFailed env (s.calls.length + 1)) s := by
  have hfree : ∀ q ∈ s.calls ++ [⟨c, s.composition.flag, s.pending.flag,
      (env s.calls.length).reenter⟩], q.Free ∧ q.call.startsComposition := by
    intro q hq
    rcases List.mem_append.mp hq with hq | hq
    · exact h.free q hq
    · rw [List.mem_singleton.mp hq]
      exact ⟨⟨h.composition, h.pending⟩, hc⟩
  -- whether the call then succeeds, in a session `t` that has recorded it
  have hresult : ∀ t : Session, t.composition.flag = .unused → t.pending.flag = .unused →
      t.calls = s.calls ++ [⟨c, s.composition.flag, s.pending.flag,
        (env s.calls.length).reenter⟩] →
      t.pending.value = (if (env s.calls.length).reenter then none else s.pending.value) →
      wp (if (!(env s.calls.length).fails) = true then (pure () : SessM Unit)
        else throw .failed)
        (fun _ t => t.Starting env p ∧ t.calls.length = s.calls.length + 1)
        (StartFailed env (s.calls.length + 1)) t := by
    intro t hcomp hpend hcalls hvalue
    have hlength : t.calls.length = s.calls.length + 1 := by
      rw [hcalls, List.length_append, List.length_singleton]
    rw [wp_ite]
    split
    · next hok =>
      refine ⟨⟨hcomp, hpend, by rw [hcalls]; exact hfree, ?_, ?_, ?_⟩, hlength⟩
      · intro i hi
        rcases Nat.lt_succ_iff_lt_or_eq.mp (hlength ▸ hi) with hi | rfl
        · exact h.succeeded i hi
        · simpa using hok
      · intro hall
        rw [hvalue, hall s.calls.length (by omega)]
        exact h.kept fun i hi => hall i (by omega)
      · rintro ⟨i, hi, hre⟩
        rw [hvalue]
        rcases Nat.lt_succ_iff_lt_or_eq.mp (hlength ▸ hi) with hi | rfl
        · rw [h.lost ⟨i, hi, hre⟩, ite_self]
        · rw [if_pos hre]
    · next hfails =>
      refine ⟨rfl, by rw [hcalls]; exact hfree, s.calls.length, by omega, ?_⟩
      simpa using hfails
  unfold call tryCall
  rw [wp_bind, wp_bind, wp_get, wp_bind, wp_modify, wp_bind, wp_onlyIf]
  split
  · next hre =>
    unfold compositionTerminatedTail
    rw [wp_bind, wp_get]
    simp only [RefCell.replace, if_pos h.composition, if_pos h.pending]
    exact hresult _ h.composition h.pending rfl (if_pos hre).symm
  · next hre => exact hresult _ h.composition h.pending rfl (if_neg hre).symm

/-! ## Calls of the `if let` block -/

/-- Any other call made inside the block: a termination from inside it panics. -/
theorem wp_tryCall_guarded {env : TsfEnv} {c : TsfCall} {s : Session}
    (hc : c.startsComposition = false) (h : s.GuardsTaken) :
    wp (tryCall env c) (fun _ t => t.GuardsHeld) StoppedHolding s := by
  have hlast : (⟨c, s.composition.flag, s.pending.flag, (env s.calls.length).reenter⟩ : CallPoint)
      ∈ s.calls ++ [⟨c, s.composition.flag, s.pending.flag, (env s.calls.length).reenter⟩] :=
    List.mem_append_right _ (List.mem_singleton.mpr rfl)
  have hholding : ∀ t : Session, t.calls = s.calls ++ [⟨c, s.composition.flag, s.pending.flag,
      (env s.calls.length).reenter⟩] → t.CalledHolding := by
    intro t hcalls
    exact ⟨_, by rw [hcalls]; exact hlast, fun hfree => h.composition hfree.1⟩
  have htraced : ∀ t : Session, t.calls = s.calls ++ [⟨c, s.composition.flag, s.pending.flag,
      (env s.calls.length).reenter⟩] → t.Traced := by
    intro t hcalls q hq
    rw [hcalls, List.mem_append, List.mem_singleton] at hq
    rcases hq with hq | rfl
    · exact h.traced q hq
    · exact ⟨fun hfree => absurd hfree.1 h.composition, fun hs => absurd hs (by simp [hc])⟩
  unfold tryCall
  rw [wp_bind, wp_get, wp_bind, wp_modify, wp_bind, wp_onlyIf]
  split
  · next hre =>
    -- the guards are held, so that `replace` panics
    unfold compositionTerminatedTail
    rw [wp_bind, wp_get]
    simp only [RefCell.replace, if_neg h.composition, if_neg h.pending]
    exact ⟨htraced _ rfl, ⟨fun _ => ⟨_, hlast, hre, hc⟩, fun _ => rfl⟩, hholding _ rfl⟩
  · next hre =>
    refine ⟨⟨h.composition, h.pending, htraced _ rfl, ?_⟩, hholding _ rfl⟩
    rintro ⟨q, hq, hreentered, hstart⟩
    rcases List.mem_append.mp hq with hq | hq
    · exact h.notIntruded ⟨q, hq, hreentered, hstart⟩
    · rw [List.mem_singleton.mp hq] at hreentered
      exact hre hreentered

theorem wp_call_guarded {env : TsfEnv} {c : TsfCall} {s : Session}
    (hc : c.startsComposition = false) (h : s.GuardsTaken) :
    wp (call env c) (fun _ t => t.GuardsHeld) StoppedHolding s := by
  unfold call
  rw [wp_bind]
  refine wp_mono (wp_tryCall_guarded hc h) (fun ok t ht => ?_) fun _ _ he => he
  cases ok with
  | true => exact ht
  | false => exact ht.stopped

/-- Changes of the document do not concern the guards. -/
theorem wp_modify_guarded {f : Session → Session} {s : Session} (h : s.GuardsHeld)
    (hcomp : (f s).composition = s.composition) (hpend : (f s).pending = s.pending)
    (hcalls : (f s).calls = s.calls) :
    wp (modify f : SessM Unit) (fun _ t => t.GuardsHeld) StoppedHolding s := by
  rw [wp_modify]
  refine ⟨⟨by rw [hcomp]; exact h.composition, by rw [hpend]; exact h.pending, ?_, ?_⟩, ?_⟩
  · unfold Traced
    rw [hcalls]
    exact h.traced
  · unfold Intruded
    rw [hcalls]
    exact h.notIntruded
  · unfold CalledHolding
    rw [hcalls]
    exact h.holding

/-- Sequencing inside the block. -/
theorem wp_bind_guarded {α β : Type} {m : SessM β} {f : β → SessM α} {s : Session}
    (hm : wp m (fun _ t => t.GuardsHeld) StoppedHolding s)
    (hf : ∀ b t, t.GuardsHeld → wp (f b) (fun _ t => t.GuardsHeld) StoppedHolding t) :
    wp (m >>= f) (fun _ t => t.GuardsHeld) StoppedHolding s := by
  rw [wp_bind]
  exact wp_mono hm (fun b t ht => hf b t ht) fun _ _ he => he

theorem wp_get_guarded {s : Session} (h : s.GuardsHeld) :
    wp (get : SessM Session) (fun _ t => t.GuardsHeld) StoppedHolding s := h

namespace SetCompositionString

theorem wp_setSegments_guarded {env : TsfEnv} {range : TextRange} :
    ∀ {segs : List (Nat × Nat)} {i : Nat} {s : Session}, s.GuardsHeld →
      wp (setSegments env range segs i) (fun _ t => t.GuardsHeld) StoppedHolding s
  | [], _, _, h => h
  | seg :: segs, i, s, h => by
    refine wp_bind_guarded (wp_call_guarded rfl h.toGuardsTaken) fun _ _ h => ?_
    refine wp_bind_guarded (wp_call_guarded rfl h.toGuardsTaken) fun _ _ h => ?_
    refine wp_bind_guarded (wp_call_guarded rfl h.toGuardsTaken) fun _ _ h => ?_
    refine wp_bind_guarded (wp_call_guarded rfl h.toGuardsTaken) fun _ _ h => ?_
    refine wp_bind_guarded (wp_get_guarded h) fun _ _ h => ?_
    refine wp_bind_guarded (wp_tryCall_guarded rfl h.toGuardsTaken) fun ok _ h => ?_
    refine wp_bind_guarded ?_ fun _ _ h => wp_setSegments_guarded h
    cases ok with
    | true => exact wp_modify_guarded h rfl rfl rfl
    | false => exact h

theorem wp_setCursor_guarded {env : TsfEnv} {range : TextRange} {cursor : Nat} {s : Session}
    (h : s.GuardsHeld) :
    wp (setCursor env range cursor) (fun _ t => t.GuardsHeld) StoppedHolding s := by
  refine wp_bind_guarded (wp_call_guarded rfl h.toGuardsTaken) fun _ _ h => ?_
  refine wp_bind_guarded (wp_call_guarded rfl h.toGuardsTaken) fun _ _ h => ?_
  refine wp_bind_guarded (wp_call_guarded rfl h.toGuardsTaken) fun _ _ h => ?_
  refine wp_bind_guarded (wp_call_guarded rfl h.toGuardsTaken) fun _ _ h => ?_
  refine wp_bind_guarded (wp_get_guarded h) fun _ _ h => ?_
  refine wp_bind_guarded (wp_call_guarded rfl h.toGuardsTaken) fun _ _ h => ?_
  exact wp_modify_guarded h rfl rfl rfl

theorem wp_setText_guarded {env : TsfEnv} {range : TextRange} {text : Wide} {s : Session}
    (h : s.GuardsHeld) :
    wp (setText env range text) (fun _ t => t.GuardsHeld) StoppedHolding s := by
  refine wp_bind_guarded (wp_tryCall_guarded rfl h.toGuardsTaken) fun ok _ h => ?_
  cases ok with
  | true =>
    refine wp_bind_guarded (wp_modify_guarded h rfl rfl rfl) fun _ _ h => ?_
    exact h
  | false => exact h

theorem wp_getRange_guarded {env : TsfEnv} {c : CompositionId} {s : Session}
    (h : s.GuardsTaken) :
    wp (getRange env c) (fun _ t => t.GuardsHeld) StoppedHolding s := by
  refine wp_bind_guarded (wp_call_guarded rfl h) fun _ t h => ?_
  rw [wp_bind, wp_get]
  cases t.document.rangeOf c with
  | some r => exact h
  | none => exact h.stopped

/-- The second block keeps both cells borrowed throughout. -/
theorem wp_setCommitAndPreedit_guarded {env : TsfEnv} {c : CompositionId}
    {p : CompositionString} {s : Session} (h : s.GuardsTaken) :
    wp (setCommitAndPreedit env c p) (fun _ t => t.GuardsHeld) StoppedHolding s := by
  refine wp_bind_guarded (wp_getRange_guarded h) fun _ _ h => ?_
  refine wp_bind_guarded (wp_setText_guarded h) fun _ _ h => ?_
  refine wp_bind_guarded (wp_call_guarded rfl h.toGuardsTaken) fun _ _ h => ?_
  refine wp_bind_guarded (wp_get_guarded h) fun _ _ h => ?_
  refine wp_bind_guarded (wp_call_guarded rfl h.toGuardsTaken) fun _ _ h => ?_
  refine wp_bind_guarded (wp_modify_guarded h rfl rfl rfl) fun _ _ h => ?_
  refine wp_bind_guarded (wp_call_guarded rfl h.toGuardsTaken) fun _ _ h => ?_
  refine wp_bind_guarded (wp_setSegments_guarded h) fun _ _ h => ?_
  exact wp_setCursor_guarded h

/-- The first block keeps both cells free throughout, and makes four calls. -/
theorem wp_startNewComposition_starting {env : TsfEnv} {p : Option CompositionString}
    {s : Session} (h : s.Starting env p) (h0 : s.calls.length = 0) :
    wp (startNewComposition env)
      (fun _ t => t.Starting env p ∧ t.calls.length = 4 ∧ t.composition.value.isSome)
      (StartFailed env 4) s := by
  -- one of the four calls, the `n`th, and what follows it
  have hcall : ∀ {n : Nat} {c : TsfCall} {f : Unit → SessM Unit} {post : Unit → Session → Prop}
      {s : Session}, n < 4 → c.startsComposition →
      s.Starting env p ∧ s.calls.length = n →
      (∀ t, t.Starting env p ∧ t.calls.length = n + 1 →
        wp (f ()) post (StartFailed env 4) t) →
      wp (call env c >>= f) post (StartFailed env 4) s := by
    rintro n c f post s hn hc ⟨h, rfl⟩ hf
    rw [wp_bind]
    refine wp_mono (wp_call_starting hc h) (fun _ t ht => hf t ht) fun e t he => ?_
    obtain ⟨hexit, hfree, i, hi, hfails⟩ := he
    exact ⟨hexit, hfree, i, by omega, hfails⟩
  refine hcall (by omega) rfl ⟨h, h0⟩ fun _ h => ?_
  refine hcall (by omega) rfl h fun _ h => ?_
  refine hcall (by omega) rfl h fun _ h => ?_
  refine hcall (by omega) rfl h fun t h => ?_
  rw [wp_bind, wp_get, wp_bind, wp_modify]
  unfold replaceComposition
  rw [wp_bind, wp_get]
  simp only [RefCell.replace, if_pos h.1.composition]
  exact ⟨⟨h.1.composition, h.1.pending, h.1.free, h.1.succeeded, h.1.kept, h.1.lost⟩,
    h.2, rfl⟩

/-! ## The whole session -/

/-- One of the four calls that start a composition fails, or the composition is
terminated from inside it. -/
def StartDisturbed (env : TsfEnv) : Prop :=
  ∃ i < 4, (env i).fails ∨ (env i).reenter

/-- The `if let` chain, entered with no guard held. -/
theorem wp_withGuards {env : TsfEnv} {p : Option CompositionString} {s : Session}
    (h : s.Starting env p) :
    wp (withGuards (setCommitAndPreedit env))
      (fun _ t => t.Traced ∧ ¬ t.Intruded ∧
        (t.CalledHolding ↔ s.composition.value.isSome ∧ s.pending.value.isSome))
      (fun e t => StoppedHolding e t ∧
        s.composition.value.isSome ∧ s.pending.value.isSome) s := by
  unfold withGuards
  rw [wp_bind, wp_get]
  simp only [h.composition, h.pending, BorrowFlag.borrow]
  rw [wp_bind, wp_modify]
  cases s.composition.value with
  | none =>
    refine ⟨h.traced, h.notIntruded, fun hheld => absurd hheld h.not_calledHolding, ?_⟩
    rintro ⟨hsome, -⟩
    cases hsome
  | some c =>
    cases s.pending.value with
    | none =>
      refine ⟨h.traced, h.notIntruded, fun hheld => absurd hheld h.not_calledHolding, ?_⟩
      rintro ⟨-, hsome⟩
      cases hsome
    | some q =>
      -- both guards live to the end of the block
      rw [wp_bind, wp_tryCatch]
      refine wp_mono (wp_setCommitAndPreedit_guarded ⟨by simp, by simp, h.traced,
        h.notIntruded⟩) (fun _ t ht => ?_) fun e t he => ?_
      · exact ⟨ht.traced, ht.notIntruded, fun _ => ⟨rfl, rfl⟩, fun _ => ht.holding⟩
      · exact ⟨he, rfl, rfl⟩

/-- The whole session, whatever TSF does in between. -/
theorem wp_doEditSession_traced (env : TsfEnv) (d : Document) (c : Option CompositionId)
    (p : Option CompositionString) (next : CompositionId) :
    wp (doEditSession env)
      (fun _ t => t.Traced ∧ ¬ t.Intruded ∧
        (t.CalledHolding ↔ p.isSome ∧ (c.isSome ∨ ¬ StartDisturbed env)))
      (fun e t => t.Traced ∧ (e = .panicked ↔ t.Intruded) ∧
        (t.CalledHolding ↔ p.isSome ∧ (c.isSome ∨ ¬ StartDisturbed env)))
      (Session.start d c p next) := by
  have h := start_starting env d c p next
  rw [wp_doEditSession]
  split
  · next hstart =>
    obtain ⟨hc, hp⟩ : c = none ∧ p.isSome := by simpa using hstart
    refine wp_mono (wp_startNewComposition_starting h rfl) (fun _ t ht => ?_) fun e t he => ?_
    · obtain ⟨ht, hfour, hsome⟩ := ht
      -- the pending cell is still filled iff no termination arrived
      have hdisturbed : t.pending.value.isSome ↔ ¬ StartDisturbed env := by
        constructor
        · rintro hvalue ⟨i, hi, hfails | hre⟩
          · rw [ht.succeeded i (by omega)] at hfails
            cases hfails
          · rw [ht.lost ⟨i, by omega, hre⟩] at hvalue
            cases hvalue
        · intro hnot
          rw [ht.kept fun i hi => ?_]
          · exact hp
          · cases hre : (env i).reenter with
            | false => rfl
            | true => exact absurd ⟨i, by omega, Or.inr hre⟩ hnot
      refine wp_mono (wp_withGuards ht) (fun _ u hu => ?_) fun e u hu => ?_
      · refine ⟨hu.1, hu.2.1, ?_⟩
        rw [hu.2.2, hdisturbed]
        simp [hsome, hp, hc]
      · obtain ⟨⟨htraced, hpanic, hholding⟩, -, hvalue⟩ := hu
        exact ⟨htraced, hpanic, fun _ => ⟨hp, .inr (hdisturbed.mp hvalue)⟩, fun _ => hholding⟩
    · -- one of the four calls has failed: no other call was made
      obtain ⟨rfl, hfree, i, hi, hfails⟩ := he
      refine ⟨fun q hq => ⟨fun _ => (hfree q hq).2, fun _ => (hfree q hq).1⟩, ?_, ?_⟩
      · refine ⟨fun hexit => (nomatch hexit), ?_⟩
        rintro ⟨q, hq, -, hs⟩
        rw [(hfree q hq).2] at hs
        cases hs
      · constructor
        · rintro ⟨q, hq, hnot⟩
          exact absurd (hfree q hq).1 hnot
        · rintro ⟨-, hsome | hnot⟩
          · rw [hc] at hsome
            cases hsome
          · exact absurd ⟨i, hi, .inl hfails⟩ hnot
  · next hstart =>
    -- a composition is active, or there is nothing to write
    have hboth : c.isSome ∧ p.isSome ↔ p.isSome ∧ (c.isSome ∨ ¬ StartDisturbed env) := by
      cases c with
      | none =>
        cases p with
        | none => simp
        | some p => exact absurd ⟨rfl, rfl⟩ hstart
      | some c => simp
    refine wp_mono (wp_withGuards h) (fun _ u hu => ?_) fun e u hu => ?_
    · exact ⟨hu.1, hu.2.1, hu.2.2.trans hboth⟩
    · exact ⟨hu.1.1, hu.1.2.1, fun _ => hboth.mp hu.2, fun _ => hu.1.2.2⟩

/-- **Guards across foreign calls.** At every call point of every session,
`on_composition_terminated_tail` can take both cells exactly if the call is one
of the four that start a composition; no call is made while a cell is borrowed
exactly if there is no pending edit, or the session still has to start a
composition and does not get through with it; and the session panics exactly if
the composition is terminated from inside any other call. -/
theorem free_iff_startsComposition (env : TsfEnv) (d : Document) (c : Option CompositionId)
    (p : Option CompositionString) (next : CompositionId) :
    (∀ q ∈ ((doEditSession env).final (Session.start d c p next)).calls,
      q.Free ↔ q.call.startsComposition) ∧
    ((∀ q ∈ ((doEditSession env).final (Session.start d c p next)).calls, q.Free) ↔
      p = none ∨ c = none ∧ StartDisturbed env) ∧
    ((doEditSession env).panics (Session.start d c p next) ↔
      ∃ q ∈ ((doEditSession env).final (Session.start d c p next)).calls,
        q.reentered ∧ q.call.startsComposition = false) := by
  have hcond : ∀ t : Session,
      (t.CalledHolding ↔ p.isSome ∧ (c.isSome ∨ ¬ StartDisturbed env)) →
      ((∀ q ∈ t.calls, q.Free) ↔ p = none ∨ c = none ∧ StartDisturbed env) := by
    intro t ht
    have hnot : (∀ q ∈ t.calls, q.Free) ↔ ¬ t.CalledHolding := by
      simp [CalledHolding]
    rw [hnot, ht]
    cases p <;> cases c <;> simp
  have h := wp_doEditSession_traced env d c p next
  unfold wp at h
  unfold SessM.final SessM.panics SessM.exit
  cases hm : doEditSession env (Session.start d c p next) with
  | ok a t =>
    rw [hm] at h
    exact ⟨h.1, hcond t h.2.2, fun hexit => (nomatch hexit), fun hin => absurd hin h.2.1⟩
  | error e t =>
    rw [hm] at h
    exact ⟨h.1, hcond t h.2.2, (Option.some_inj).trans h.2.1⟩

/-- A keystroke's session with a composition active: the application ends the
composition from inside `SetText`. -/
theorem panics_when_terminated_in_setText :
    ¬ (∀ (env : TsfEnv) (d : Document) (c : Option CompositionId)
        (p : Option CompositionString) (next : CompositionId),
      ¬ (doEditSession env).panics (Session.start d c p next) ∧
      ∀ q ∈ ((doEditSession env).final (Session.start d c p next)).calls, q.Free) := by
  intro h
  obtain ⟨hnot, -⟩ := h (fun i => ⟨i == 1, false⟩)
    ⟨[⟨0x3105, none⟩], 1, some (0, ⟨0, 1⟩)⟩ (some 0)
    (some ⟨[], ['ㄅ', 'ㄚ'], [(0, 2)], 2⟩) 1
  exact hnot (by decide)

end SetCompositionString

end ChewingTsf
