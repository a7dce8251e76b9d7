import ChewingTsf.Tip.Reentrancy

/-!
# What a callback leaves behind

`Callback.Outcome` describes each callback once, for every handler and every
arrival: the arrivals it lets through, and the tail handler if it gets that far.
-/

namespace ChewingTsf

open CallM TextService

variable {S : Type} {s t u : TextService S}

/-- The method returns `Ok`. -/
def HandlerCall.succeeds {α : Type} (c : HandlerCall S α) (ts : S) : Bool := (c.handler ts).1.isOk

/-- A termination of the composition arrives from inside the call. -/
def HandlerCall.terminates {α : Type} (c : HandlerCall S α) : Bool :=
  c.arrivals.any Reentrant.terminates

/-- `tail_handler` has taken the flag and begins its work. -/
def TextService.tailed (s : TextService S) : TextService S :=
  { s with compositionTerminated := false, events := s.events ++ [.tail] }

/-- From `s` to `t`, callbacks have arrived and, if the tail handler is reached with
work to do, it has done it. -/
def TextService.Outcome (defers completes tailTerminates : Bool) (s t : TextService S) : Prop :=
  if completes && (s.compositionTerminated || defers) then
    ∃ u, Within defers s u ∧ Within tailTerminates u.tailed t
  else Within defers s t

namespace Callback

/-- The state in which the callback takes `inner`. -/
def entered (c : Callback S) (s : TextService S) : TextService S where
  inner := s.inner
  keyBusy := match c with
    | keyDown _ => true
    | keyUp _ => false
    | _ => s.keyBusy
  compositionTerminated := s.compositionTerminated
  events := s.events ++ [.called]

/-- A termination arrives before the tail handler, while `inner` holds `ts`. -/
def terminates (keyBusy : Bool) (ts : S) : Callback S → Bool
  | testKeyDown k | keyDown k => k.pic && k.call.terminates
  | testKeyUp k | keyUp k =>
    k.pic && (k.call.terminates || (k.call.succeeds ts && k.sync.terminates))
  | setThreadFocus call sync => call.terminates || (call.succeeds ts && sync.terminates)
  | command arrivals _ sync => arrivals.any Reentrant.terminates || sync.terminates
  | setFocus arrivals _ => !keyBusy && arrivals.any Reentrant.terminates
  | compositionTerminated pcomposition call => pcomposition && call.terminates
  | change arrivals syncArrivals c =>
    c.rguid.any fun openclose =>
      arrivals.any Reentrant.terminates ||
        (c.shouldSyncKeyboardOpenclose ts && openclose && (c.onCompartmentChangeRo ts).1.isOk &&
          syncArrivals.any Reentrant.terminates)

/-- The callback calls the tail handler: a key callback whose methods return `Ok`. -/
def completes (ts : S) : Callback S → Bool
  | testKeyDown k | keyDown k => k.pic && k.call.succeeds ts
  | testKeyUp k | keyUp k =>
    k.pic && k.call.succeeds ts && k.sync.succeeds (k.call.handler ts).2
  | _ => false

/-- A termination arrives from inside the tail. -/
def tailTerminates : Callback S → Bool
  | testKeyDown k | testKeyUp k | keyDown k | keyUp k => k.tail.terminates
  | _ => false

end Callback

namespace TextService

/-! ## The parts of a callback -/

section Parts

variable {α : Type} {ts : S}

/-- The block that holds `inner` mutably, without a service. -/
theorem wp_behindGuard_of_none (h : s.inner.flag = .unused) (hv : s.inner.value = none)
    {pic : Bool} {arrive : CallM S Unit} {handler : Handler S α}
    {post : Option α → TextService S → Prop} {exc : CallbackExit → TextService S → Prop} :
    wp (behindGuard pic arrive handler) post exc s ↔ post none s := by
  unfold behindGuard
  rw [wp_bind, wp_borrowMut_of_unused h]
  simp only [hv]
  rw [wp_bind, wp_dropGuard, released_of_unused h]
  rfl

/-- The block that holds `inner` mutably. -/
theorem wp_behindGuard (h : s.inner.flag = .unused) (hv : s.inner.value = some ts) (pic : Bool)
    (rs : List (Reentrant S)) (handler : Handler S α) :
    wp (behindGuard pic (arriveAll rs) handler)
      (fun r t => pic = true ∧ Within (rs.any Reentrant.terminates) s t ∧
        t.inner.value = some (handler ts).2 ∧ ∃ a, r = some a ∧ (handler ts).1 = .ok a)
      (fun e t => (e = .failed → Within (pic && rs.any Reentrant.terminates) s t ∧
          (pic && (handler ts).1.isOk) = false) ∧ (e ≠ .failed → Aborted e s t)) s := by
  unfold behindGuard
  rw [wp_bind, wp_borrowMut_of_unused h]
  simp only [hv]
  rw [wp_bind]
  cases pic with
  | false =>
    rw [wp_holding, if_neg Bool.false_ne_true, wp_throw, released_of_unused h]
    exact ⟨fun _ => ⟨.refl s, rfl⟩, fun hne => absurd rfl hne⟩
  | true =>
    rw [if_pos rfl]
    have hrun := wp_holding_invoke (s := s) (f := .writing) (h ▸ rfl) nofun hv rs handler
    refine wp_mono hrun (fun a t ht => ?_) fun e t ht => ?_
    · exact ⟨rfl, ht.2.1, ht.2.2 rfl, a, rfl, ht.1⟩
    · refine ⟨fun hfailed => ⟨(ht.1 hfailed).2, ?_⟩, ht.2⟩
      rw [(ht.1 hfailed).1]
      rfl

/-- `ReentrantOps` in place of the exclusive guard. -/
theorem wp_fromMut (h : s.inner.flag = .unused) (hv : s.inner.value = some ts)
    (sync : HandlerCall S Unit) :
    wp (fromMut sync.syncKeyboardOpenclose)
      (fun _ t => sync.succeeds ts = true ∧ Within sync.terminates s t)
      (fun e t => (e = .failed → sync.succeeds ts = false ∧ Within sync.terminates s t) ∧
        (e ≠ .failed → Aborted e s t)) s := by
  have hrun := wp_holding_invoke (s := s) (f := .reading 0) (h ▸ rfl) nofun hv sync.arrivals
    sync.handler
  unfold fromMut HandlerCall.syncKeyboardOpenclose CallM.syncKeyboardOpenclose
  rw [wp_bind, wp_borrow_of_some (by rw [h]; rfl), wp_holding, wp_bind, wp_get]
  simp only [withFlag, hv]
  rw [wp_holding] at hrun
  refine wp_mono hrun (fun _ t ht => ?_) fun e t ht => ?_
  · exact ⟨by rw [HandlerCall.succeeds, ht.1]; rfl, ht.2.1⟩
  · exact ⟨fun hfailed => ⟨by rw [HandlerCall.succeeds, (ht.1 hfailed).1]; rfl,
      (ht.1 hfailed).2⟩, ht.2⟩

/-- `tail_handler`. -/
theorem wp_tailHandler (h : s.inner.flag = .unused) (hv : s.inner.value = some ts)
    (tail : HandlerCall S Unit) :
    wp (tailHandler tail)
      (fun _ t => if s.compositionTerminated then Within tail.terminates s.tailed t else t = s)
      (fun e t => Aborted e s t) s := by
  unfold tailHandler
  rw [wp_bind, wp_get, wp_ite]
  split
  · rw [wp_bind, wp_modify, wp_bind, wp_tryBorrowMut_of_unused (by exact h)]
    simp only [hv]
    rw [wp_bind, wp_modify]
    have hrun := wp_holding_invoke (s := s.tailed) (f := .writing) h.symm nofun hv
      tail.arrivals tail.handler
    have hafter : ∀ {e : CallbackExit} {t : TextService S}, Aborted e s.tailed t →
        Aborted e s t := by
      rintro e t ⟨hne, es, hes, hlaw, hconflict⟩
      have hmem : ∀ n : NestedCall, ServiceEvent.nested n ∈ .tail :: es ↔ .nested n ∈ es :=
        fun n => by simp
      refine ⟨hne, .tail :: es, ?_, fun n hn => hlaw n ((hmem n).mp hn), ?_⟩
      · rw [hes]
        exact List.append_assoc _ _ _
      · simp only [hmem]
        exact hconflict
    rw [wp_holding] at hrun ⊢
    rw [wp_logged]
    refine wp_mono hrun (fun _ t ht => ht.2.1) fun e t ht => ?_
    by_cases hfailed : e = .failed
    · rw [if_pos hfailed]
      exact (ht.1 hfailed).2
    · rw [if_neg hfailed]
      exact hafter (ht.2 hfailed)
  · rfl

end Parts

/-! ## The callbacks -/

/-- What a callback may do: it returns, with or without an error, and leaves the
outcome behind, or the process aborts. -/
def Meets {α : Type} (defers completes tailTerminates : Bool) (m : CallM S α)
    (s : TextService S) : Prop :=
  wp m (fun _ t => Outcome defers completes tailTerminates s t)
    (fun e t => (e = .failed → Outcome defers completes tailTerminates s t) ∧
      (e ≠ .failed → Aborted e s t)) s

section Callbacks

variable {ts : S} {d tailTerminates : Bool}

theorem Within.outcome (h : Within d s t) : Outcome d false tailTerminates s t := h

/-- The tail handler after the callbacks of the block have arrived. -/
theorem wp_tailHandler_within (hidle : s.inner.flag = .unused) (h : Within d s t)
    (hv : t.inner.value = some ts) (tail : HandlerCall S Unit) :
    wp (tailHandler tail) (fun _ u => Outcome d true tail.terminates s u)
      (fun e u => Aborted e s u) t := by
  refine wp_mono (wp_tailHandler (h.flag.trans hidle) hv tail) (fun _ u hu => ?_)
    fun e u hu => h.aborted hu
  unfold Outcome
  rw [Bool.true_and, ← h.terminated]
  split at hu
  · next hset =>
    rw [if_pos hset]
    exact ⟨t, h, hu⟩
  · next hset =>
    rw [if_neg hset, hu]
    exact h

theorem meets_discard {α : Type} {defers completes : Bool} {m : CallM S α}
    (h : Meets defers completes tailTerminates m s) :
    Meets defers completes tailTerminates (discard m) s := by
  have hmap : discard m = m >>= fun _ => pure () := rfl
  unfold Meets at h ⊢
  rw [hmap, wp_bind]
  exact h

/-- A callback that starts with the block: without a service, behind the block that has
returned, and where the block ends with an error. -/
theorem meets_bind_behindGuard {α β : Type} {defers completes pic : Bool}
    {rs : List (Reentrant S)} {handler : Handler S α} {k : Option α → CallM S β}
    (h : s.inner.flag = .unused)
    (hnone : s.inner.value = none →
      defers = false ∧ completes = false ∧ ∃ b, k none = pure b)
    (hreturned : ∀ (ts : S) (t : TextService S) (a : α), s.inner.value = some ts → pic = true →
      Within (rs.any Reentrant.terminates) s t → t.inner.value = some (handler ts).2 →
      (handler ts).1 = .ok a →
      wp (k (some a)) (fun _ u => Outcome defers completes tailTerminates s u)
        (fun e u => (e = .failed → Outcome defers completes tailTerminates s u) ∧
          (e ≠ .failed → Aborted e s u)) t)
    (hfailed : ∀ (ts : S) (t : TextService S), s.inner.value = some ts →
      Within (pic && rs.any Reentrant.terminates) s t → (pic && (handler ts).1.isOk) = false →
      Outcome defers completes tailTerminates s t) :
    Meets defers completes tailTerminates (behindGuard pic (arriveAll rs) handler >>= k) s := by
  unfold Meets
  rw [wp_bind]
  cases hv : s.inner.value with
  | none =>
    obtain ⟨rfl, rfl, b, hb⟩ := hnone hv
    rw [wp_behindGuard_of_none h hv, hb]
    exact Within.outcome (.refl s)
  | some ts =>
    refine wp_mono (wp_behindGuard h hv pic rs handler) (fun r t ht => ?_)
      fun e t ht => ⟨fun hexit => ?_, ht.2⟩
    · obtain ⟨hpic, hwithin, hvalue, a, rfl, hok⟩ := ht
      exact hreturned ts t a hv hpic hwithin hvalue hok
    · exact hfailed ts t hv (ht.1 hexit).1 (ht.1 hexit).2

/-- `OnTestKeyDown`; `OnKeyDown` does the same with `key_busy` set. -/
theorem meets_onTestKeyDown (h : s.inner.flag = .unused) (k : KeyCallback S) :
    Meets (s.inner.value.any fun _ => k.pic && k.call.terminates)
      (s.inner.value.any fun ts => k.pic && k.call.succeeds ts) k.tail.terminates
      (onTestKeyDown k) s := by
  refine meets_bind_behindGuard h (fun hv => by rw [hv]; exact ⟨rfl, rfl, _, rfl⟩)
    (fun ts t _ hv hpic hwithin hvalue hok => ?_) fun ts t hv hwithin hnot => ?_
  · have hsucceeds : k.call.succeeds ts = true := by rw [HandlerCall.succeeds, hok]; rfl
    simp only [hv, hpic, Option.any_some, hsucceeds, Bool.true_and]
    rw [wp_bind]
    refine wp_mono (wp_tailHandler_within h hwithin hvalue k.tail) (fun _ u hu => hu)
      fun e u hu => ⟨fun hfailed => absurd hfailed hu.not_failed, fun _ => hu⟩
  · simp only [hv, Option.any_some, HandlerCall.succeeds, hnot]
    exact hwithin.outcome

/-- `OnTestKeyUp`; `OnKeyUp` does the same with `key_busy` reset. -/
theorem meets_onTestKeyUp (h : s.inner.flag = .unused) (k : KeyCallback S) :
    Meets (s.inner.value.any fun ts =>
        k.pic && (k.call.terminates || (k.call.succeeds ts && k.sync.terminates)))
      (s.inner.value.any fun ts =>
        k.pic && k.call.succeeds ts && k.sync.succeeds (k.call.handler ts).2)
      k.tail.terminates (onTestKeyUp k) s := by
  refine meets_bind_behindGuard h (fun hv => by rw [hv]; exact ⟨rfl, rfl, _, rfl⟩)
    (fun ts t _ hv hpic hwithin hvalue hok => ?_) fun ts t hv hwithin hnot => ?_
  · have hsucceeds : k.call.succeeds ts = true := by rw [HandlerCall.succeeds, hok]; rfl
    simp only [hv, hpic, Option.any_some, hsucceeds, Bool.true_and]
    rw [wp_bind]
    -- `sync_keyboard_openclose` runs next, and `?` leaves if it fails
    refine wp_mono (wp_fromMut (hwithin.flag.trans h) hvalue k.sync) (fun _ u hu => ?_)
      fun e u hu => ⟨fun hfailed => ?_, fun hne => hwithin.aborted (hu.2 hne)⟩
    · rw [hu.1]
      have hboth := hwithin.trans hu.2
      obtain ⟨ts', hts'⟩ := Option.isSome_iff_exists.mp (hu.2.filled.trans (by rw [hvalue]; rfl))
      rw [wp_bind]
      refine wp_mono (wp_tailHandler_within h hboth hts' k.tail) (fun _ w hw => hw)
        fun e w hw => ⟨fun hfailed => absurd hfailed hw.not_failed, fun _ => hw⟩
    · rw [(hu.1 hfailed).1]
      exact (hwithin.trans (hu.1 hfailed).2).outcome
  · -- `?` leaves after the first block
    have hsucceeds : (k.pic && k.call.succeeds ts) = false := hnot
    have hterminates : (k.pic && (k.call.terminates || (k.call.succeeds ts && k.sync.terminates)))
        = (k.pic && k.call.terminates) := by
      rw [Bool.and_or_distrib_left, ← Bool.and_assoc k.pic, hsucceeds, Bool.false_and,
        Bool.or_false]
    simp only [hv, Option.any_some, hsucceeds, Bool.false_and, hterminates]
    exact hwithin.outcome

theorem meets_onSetThreadFocus (h : s.inner.flag = .unused) (call sync : HandlerCall S Unit) :
    Meets (s.inner.value.any fun ts => call.terminates || (call.succeeds ts && sync.terminates))
      false tailTerminates (onSetThreadFocus call sync) s := by
  refine meets_bind_behindGuard h (fun hv => by rw [hv]; exact ⟨rfl, rfl, _, rfl⟩)
    (fun ts t _ hv _ hwithin hvalue hok => ?_) fun ts t hv hwithin hnot => ?_
  · have hsucceeds : call.succeeds ts = true := by rw [HandlerCall.succeeds, hok]; rfl
    rw [hv, Option.any_some, hsucceeds, Bool.true_and]
    refine wp_mono (wp_fromMut (hwithin.flag.trans h) hvalue sync) (fun _ u hu => ?_)
      fun e u hu => ⟨fun hfailed => ?_, fun hne => hwithin.aborted (hu.2 hne)⟩
    · exact (hwithin.trans hu.2).outcome
    · exact (hwithin.trans (hu.1 hfailed).2).outcome
  · have hsucceeds : call.succeeds ts = false := hnot
    rw [hv, Option.any_some, hsucceeds, Bool.false_and, Bool.or_false]
    exact hwithin.outcome

theorem meets_onCommand (h : s.inner.flag = .unused) (arrivals : List (Reentrant S))
    (handler : S → S) (sync : HandlerCall S Unit) :
    Meets (s.inner.value.any fun _ => arrivals.any Reentrant.terminates || sync.terminates)
      false tailTerminates (onCommand arrivals handler sync) s := by
  refine meets_bind_behindGuard h (fun hv => by rw [hv]; exact ⟨rfl, rfl, _, rfl⟩)
    (fun ts t _ hv _ hwithin hvalue _ => ?_) fun _ _ _ _ hnot => ?_
  · rw [hv, Option.any_some]
    dsimp only
    rw [wp_logged]
    refine wp_mono (wp_fromMut (hwithin.flag.trans h) hvalue sync) (fun _ u hu => ?_)
      fun e u hu => ?_
    · exact (hwithin.trans hu.2).outcome
    · split
      · next hfailed => exact (hwithin.trans (hu.1 hfailed).2).outcome
      · next hne => exact ⟨fun hfailed => absurd hfailed hne, fun _ => hwithin.aborted (hu.2 hne)⟩
  · -- `on_command` returns nothing that could be an error
    cases hnot

theorem meets_onSetFocus (h : s.inner.flag = .unused) (arrivals : List (Reentrant S))
    (f : FocusChange S) :
    Meets (s.inner.value.any fun _ => !s.keyBusy && arrivals.any Reentrant.terminates)
      false tailTerminates (onSetFocus (arriveAll arrivals) f) s := by
  unfold Meets onSetFocus
  rw [wp_bind, wp_get, wp_ite]
  split
  · next hbusy =>
    -- the early return
    have hnone : (s.inner.value.any fun _ => !s.keyBusy && arrivals.any Reentrant.terminates)
        = false := by
      rw [hbusy]
      cases s.inner.value <;> rfl
    rw [hnone]
    exact Within.outcome (.refl s)
  · next hbusy =>
    rw [Bool.eq_false_iff.mpr hbusy]
    refine meets_bind_behindGuard h (fun hv => by rw [hv]; exact ⟨rfl, rfl, _, rfl⟩)
      (fun ts t _ hv _ hwithin _ _ => ?_) fun ts t hv hwithin _ => ?_
    · rw [hv]
      exact hwithin.outcome
    · rw [hv]
      exact hwithin.outcome

theorem meets_onCompositionTerminated (h : s.inner.flag = .unused) (pcomposition : Bool)
    (call : HandlerCall S Unit) :
    Meets (s.inner.value.any fun _ => pcomposition && call.terminates) false tailTerminates
      (onCompositionTerminated (arriveAll call.arrivals) pcomposition call.handler) s := by
  unfold Meets onCompositionTerminated
  rw [wp_bind, wp_tryBorrowMut_of_unused h]
  cases hv : s.inner.value with
  | none =>
    rw [wp_dropGuard, released_of_unused h]
    exact Within.outcome (.refl s)
  | some ts =>
    dsimp only
    cases pcomposition with
    | false =>
      rw [wp_holding, wp_logged, if_neg Bool.false_ne_true, wp_pure, released_of_unused h]
      exact Within.outcome (.refl s)
    | true =>
      have hrun := wp_holding_invoke (s := s) (f := .writing) h.symm nofun hv call.arrivals
        call.handler
      rw [wp_holding] at hrun ⊢
      rw [wp_logged, if_pos rfl]
      refine wp_mono hrun (fun _ t ht => ht.2.1.outcome) fun e t ht => ?_
      split
      · next hfailed => exact (ht.1 hfailed).2.outcome
      · next hne => exact ⟨fun hfailed => absurd hfailed hne, fun _ => ht.2 hne⟩

theorem meets_onChange (h : s.inner.flag = .unused) (arrivals syncArrivals : List (Reentrant S))
    (c : CompartmentChange S) :
    Meets (s.inner.value.any fun ts => (Callback.change arrivals syncArrivals c).terminates
        s.keyBusy ts) false tailTerminates
      (onChange (arriveAll arrivals) (arriveAll syncArrivals) c) s := by
  have hborrow : s.inner.flag.borrow = some (.reading 0) := by rw [h]; rfl
  have hself : (s.withFlag (.reading 0)).released = s :=
    released_of_borrow hborrow s.inner.value
  unfold Meets onChange
  cases hguid : c.rguid with
  | none =>
    have hnone : (s.inner.value.any fun ts =>
        (Callback.change arrivals syncArrivals c).terminates s.keyBusy ts) = false := by
      simp [Callback.terminates, hguid]
    rw [hnone]
    exact Within.outcome (.refl s)
  | some openclose =>
    simp only [Callback.terminates, hguid, Option.any_some]
    rw [wp_bind, wp_borrow_of_some hborrow, wp_bind, wp_dropGuard, hself, wp_ite]
    cases hv : s.inner.value with
    | none =>
      rw [if_neg (by simp), wp_bind, wp_tryBorrowMut_of_unused h]
      simp only [hv]
      rw [wp_dropGuard, released_of_unused h]
      exact Within.outcome (.refl s)
    | some ts =>
      simp only [Option.any_some]
      split
      · next hsync =>
        -- behind a shared guard that lasts for both methods
        have hheld : (s.withFlag (.reading 0)).inner.flag ≠ .unused := nofun
        have hfilled : (s.withFlag (.reading 0)).inner.value.isSome := by
          show s.inner.value.isSome
          rw [hv]
          rfl
        have hdrop : BorrowFlag.release (.reading 0) = s.inner.flag := h.symm
        rw [wp_bind, wp_borrow_of_some hborrow]
        simp only [hv, hsync, Bool.true_and]
        rw [wp_holding, wp_bind]
        refine wp_mono (wp_invoke_arriveAll hheld hfilled arrivals c.onCompartmentChangeRo ts)
          (fun _ t ht => ?_) fun e t ht => ⟨fun hfailed => ?_, fun hne => (ht.2 hne).drop⟩
        · obtain ⟨hok, hwithin, -⟩ := ht
          have hisOk : (c.onCompartmentChangeRo ts).1.isOk = true := by rw [hok]; rfl
          rw [hisOk, Bool.and_true, wp_ite]
          split
          · next hopen =>
            rw [hopen, Bool.true_and]
            obtain ⟨ts', hts'⟩ := Option.isSome_iff_exists.mp (hwithin.filled.trans hfilled)
            unfold syncKeyboardOpenclose
            rw [wp_bind, wp_get]
            simp only [hts']
            refine wp_mono (wp_invoke_arriveAll (by rw [hwithin.flag]; exact hheld)
              (by rw [hts']; rfl) syncArrivals c.sync ts') (fun _ u hu => ?_)
              fun e u hu => ⟨fun hfailed => ?_, fun hne => (hwithin.aborted (hu.2 hne)).drop⟩
            · exact ((hwithin.trans hu.2.1).drop hdrop).outcome
            · exact ((hwithin.trans (hu.1 hfailed).2).drop hdrop).outcome
          · next hclosed =>
            rw [Bool.eq_false_iff.mpr hclosed, Bool.false_and, Bool.or_false]
            exact (hwithin.drop hdrop).outcome
        · obtain ⟨herror, hwithin⟩ := ht.1 hfailed
          have hisOk : (c.onCompartmentChangeRo ts).1.isOk = false := by rw [herror]; rfl
          rw [hisOk, Bool.and_false, Bool.false_and, Bool.or_false]
          exact (hwithin.drop hdrop).outcome
      · next hsync =>
        -- behind an exclusive guard
        have hrun := wp_holding_invoke (s := s) (f := .writing) h.symm nofun hv arrivals
          c.onCompartmentChange
        rw [wp_bind, wp_tryBorrowMut_of_unused h]
        simp only [hv, Bool.eq_false_iff.mpr hsync, Bool.false_and, Bool.or_false]
        exact wp_mono hrun (fun _ t ht => ht.2.1.outcome)
          fun e t ht => ⟨fun hfailed => (ht.1 hfailed).2.outcome, ht.2⟩

end Callbacks

namespace Outcome

variable {defers completes tailTerminates : Bool}

theorem flag (h : Outcome defers completes tailTerminates s t) : t.inner.flag = s.inner.flag := by
  unfold Outcome at h
  split at h
  · obtain ⟨u, hu, ht⟩ := h
    exact ht.flag.trans hu.flag
  · exact h.flag

theorem keyBusy (h : Outcome defers completes tailTerminates s t) : t.keyBusy = s.keyBusy := by
  unfold Outcome at h
  split at h
  · obtain ⟨u, hu, ht⟩ := h
    exact ht.keyBusy.trans hu.keyBusy
  · exact h.keyBusy

theorem filled (h : Outcome defers completes tailTerminates s t) :
    t.inner.value.isSome = s.inner.value.isSome := by
  unfold Outcome at h
  split at h
  · obtain ⟨u, hu, ht⟩ := h
    exact ht.filled.trans hu.filled
  · exact h.filled

/-- The nested calls of a callback that returns have all returned. -/
theorem lawful (h : Outcome defers completes tailTerminates s t) :
    ∃ es, t.events = s.events ++ es ∧ ∀ n, .nested n ∈ es → n.conflict = false ∧ n.Lawful := by
  unfold Outcome at h
  split at h
  · obtain ⟨u, hu, ht⟩ := h
    obtain ⟨es, hes, hret, -⟩ := hu.events
    obtain ⟨fs, hfs, hret', -⟩ := ht.events
    refine ⟨es ++ .tail :: fs, ?_, fun n hn => ?_⟩
    · rw [hfs, tailed, hes]
      simp
    · rcases List.mem_append.mp hn with hn | hn
      · exact hret.lawful hn
      · exact hret'.lawful (List.mem_of_ne_of_mem (by simp) hn)
  · obtain ⟨es, hes, hret, -⟩ := h.events
    exact ⟨es, hes, fun n hn => hret.lawful hn⟩

end Outcome

end TextService

namespace Callback

/-- What the callback leaves behind when it returns. -/
def Leaves (c : Callback S) (s t : TextService S) : Prop :=
  Outcome (s.inner.value.any fun ts => c.terminates s.keyBusy ts)
    (s.inner.value.any fun ts => c.completes ts) c.tailTerminates (c.entered s) t

/-- **Every callback** leaves its outcome behind, or the process aborts. -/
theorem wp_run (h : s.inner.flag = .unused) (c : Callback S) :
    wp c.run (fun _ t => c.Leaves s t)
      (fun e t => (e = .failed → c.Leaves s t) ∧ (e ≠ .failed → Aborted e (c.entered s) t)) s := by
  have h' : (c.entered s).inner.flag = .unused := h
  -- the other callbacks never call the tail handler
  have hnot : ∀ c : Callback S, (fun ts => c.completes ts) = (fun _ => false) →
      Meets (s.inner.value.any fun ts => c.terminates s.keyBusy ts) false c.tailTerminates c.body
        (c.entered s) →
      wp c.body (fun _ t => c.Leaves s t)
        (fun e t => (e = .failed → c.Leaves s t) ∧ (e ≠ .failed → Aborted e (c.entered s) t))
        (c.entered s) := by
    intro c hcompletes hmeets
    have hfalse : (s.inner.value.any fun ts => c.completes ts) = false := by
      rw [hcompletes]
      cases s.inner.value <;> rfl
    unfold Leaves
    rw [hfalse]
    exact hmeets
  unfold run
  rw [wp_bind, wp_modify]
  cases c with
  | testKeyDown k => exact meets_discard (meets_onTestKeyDown (s := (testKeyDown k).entered s) h' k)
  | testKeyUp k => exact meets_discard (meets_onTestKeyUp (s := (testKeyUp k).entered s) h' k)
  | keyDown k => exact meets_discard (meets_onTestKeyDown (s := (keyDown k).entered s) h' k)
  | keyUp k => exact meets_discard (meets_onTestKeyUp (s := (keyUp k).entered s) h' k)
  | setThreadFocus call sync =>
    exact hnot (setThreadFocus call sync) rfl (meets_onSetThreadFocus h' call sync)
  | command arrivals handler sync =>
    exact hnot (command arrivals handler sync) rfl (meets_onCommand h' arrivals handler sync)
  | setFocus arrivals f => exact hnot (setFocus arrivals f) rfl (meets_onSetFocus h' arrivals f)
  | compositionTerminated pcomposition call =>
    exact hnot (compositionTerminated pcomposition call) rfl
      (meets_onCompositionTerminated h' pcomposition call)
  | change arrivals syncArrivals c =>
    exact hnot (change arrivals syncArrivals c) rfl (meets_onChange h' arrivals syncArrivals c)

theorem leaves_of_step (h : s.inner.flag = .unused) {c : Callback S} (hstep : CallbackStep s c t) :
    c.Leaves s t := by
  have hrun := wp_run h c
  unfold wp at hrun
  cases hstep with
  | ok hok =>
    rw [hok] at hrun
    exact hrun
  | failed hfailed =>
    rw [hfailed] at hrun
    exact hrun.1 rfl

/-- How the callback ends, and the state it ends in. -/
def result (c : Callback S) (s : TextService S) : Option CallbackExit × TextService S :=
  match c.run s with
  | .ok _ t => (none, t)
  | .error e t => (some e, t)

end Callback

/-! ## Borrow conflicts -/

/-- The object after `Activate`. -/
def TextService.activated (ts : S) : TextService S := ⟨.new (some ts), false, false, []⟩

/-- Between callbacks nobody holds `inner`, and no nested call has hit a conflict. -/
structure TextService.Free (s : TextService S) : Prop where
  flag : s.inner.flag = .unused
  events : ∀ n, .nested n ∈ s.events → n.conflict = false ∧ n.Lawful

theorem TextService.Free.step (h : s.Free) {c : Callback S} (hstep : CallbackStep s c t) :
    t.Free := by
  have hleaves := Callback.leaves_of_step h.flag hstep
  obtain ⟨es, hes, hlaw⟩ := hleaves.lawful
  refine ⟨hleaves.flag.trans h.flag, fun n hn => ?_⟩
  have hn' : .nested n ∈ s.events ++ [.called] ++ es := hes ▸ hn
  rcases List.mem_append.mp hn' with hn | hn
  · exact h.events n (by simpa using hn)
  · exact hlaw n hn

theorem TextService.Free.of_run {ts : S} {cs : List (Callback S)}
    (hrun : Run CallbackStep (.activated ts) cs s) : s.Free :=
  hrun.invariant ⟨rfl, fun _ hn => absurd hn List.not_mem_nil⟩ fun hI hstep => hI.step hstep

/-- **Borrow conflicts.** After any run, in every callback: a callback that arrives
while `inner` is held mutably hits a borrow conflict exactly if it is `OnChange`
with a GUID, or `OnSetFocus` while `key_busy` is not set; and the process aborts
on a conflict exactly if one of them has hit one. -/
theorem conflict_iff_unprepared {ts : S} {cs : List (Callback S)}
    (hrun : Run CallbackStep (.activated ts) cs s) (c : Callback S) :
    (∀ n, .nested n ∈ (c.result s).2.events → n.inner = .writing →
      (n.conflict = true ↔ n.kind.unprepared n.keyBusy = true)) ∧
    ((c.result s).1 = some .conflict ↔
      ∃ n, .nested n ∈ (c.result s).2.events ∧ n.conflict = true) := by
  have hfree := TextService.Free.of_run hrun
  have hbefore : ∀ n, .nested n ∈ (c.entered s).events → n.conflict = false ∧ n.Lawful :=
    fun n hn => hfree.events n (by simpa [Callback.entered] using hn)
  -- all there is to know about the events of the callback
  suffices h : ∃ es, (c.result s).2.events = (c.entered s).events ++ es ∧
      (∀ n, .nested n ∈ es → n.Lawful) ∧
      ((c.result s).1 = some .conflict ↔ ∃ n, .nested n ∈ es ∧ n.conflict = true) by
    obtain ⟨es, hes, hlaw, hconflict⟩ := h
    rw [hes, hconflict]
    refine ⟨fun n hn hwriting => ?_, ?_⟩
    · have hlawful : n.Lawful := (List.mem_append.mp hn).elim (fun hn => (hbefore n hn).2) (hlaw n)
      rw [hlawful hwriting]
    · constructor
      · rintro ⟨n, hn, htrue⟩
        exact ⟨n, List.mem_append_right _ hn, htrue⟩
      · rintro ⟨n, hn, htrue⟩
        rcases List.mem_append.mp hn with hn | hn
        · rw [(hbefore n hn).1] at htrue
          cases htrue
        · exact ⟨n, hn, htrue⟩
  have hleaves : ∀ {t : TextService S}, c.Leaves s t → ∃ es,
      t.events = (c.entered s).events ++ es ∧ (∀ n, .nested n ∈ es → n.Lawful) ∧
        ¬ ∃ n, .nested n ∈ es ∧ n.conflict = true := by
    intro t ht
    obtain ⟨es, hes, hlaw⟩ := ht.lawful
    refine ⟨es, hes, fun n hn => (hlaw n hn).2, ?_⟩
    rintro ⟨n, hn, htrue⟩
    rw [(hlaw n hn).1] at htrue
    cases htrue
  have hrun := Callback.wp_run hfree.flag c
  unfold wp at hrun
  unfold Callback.result
  cases hc : c.run s with
  | ok a t =>
    rw [hc] at hrun
    obtain ⟨es, hes, hlaw, hno⟩ := hleaves hrun
    exact ⟨es, hes, hlaw, nofun, fun h => absurd h hno⟩
  | error e t =>
    rw [hc] at hrun
    by_cases hfailed : e = .failed
    · obtain ⟨es, hes, hlaw, hno⟩ := hleaves (hrun.1 hfailed)
      rw [hfailed]
      exact ⟨es, hes, hlaw, nofun, fun h => absurd h hno⟩
    · obtain ⟨-, es, hes, hlaw, hconflict⟩ := hrun.2 hfailed
      exact ⟨es, hes, hlaw, Option.some_inj.trans hconflict⟩

/-- A method that does nothing. -/
def Handler.ok {α : Type} (a : α) : Handler Unit α := fun ts => (.ok a, ts)

/-- A focus loss. -/
def FocusChange.loss : FocusChange Unit := ⟨true, .ok (), .ok ()⟩

/-- `OnSetFocus` from inside `OnKeyDown` sees `key_busy` and returns. -/
theorem setFocus_spared_in_keyDown :
    (.nested ⟨.setFocus, .writing, true, false⟩ ∈ (Callback.result (.keyDown ⟨true,
        ⟨[.setFocus .loss], .ok true⟩, ⟨[], .ok ()⟩, ⟨[], .ok ()⟩⟩) (.activated ())).2.events) ∧
      ((NestedCall.mk .setFocus .writing true false).conflict = true ↔
        ReentrantKind.unprepared true .setFocus = true) := by
  have hmem : .nested ⟨.setFocus, .writing, true, false⟩ ∈ (Callback.result (.keyDown ⟨true,
      ⟨[.setFocus .loss], .ok true⟩, ⟨[], .ok ()⟩, ⟨[], .ok ()⟩⟩) (.activated ())).2.events := by
    decide +kernel
  exact ⟨hmem, (conflict_iff_unprepared (.refl _) _).1 _ hmem rfl⟩

/-- The menu of the mode icon is open inside `on_command` when the focus moves. -/
theorem setFocus_conflicts_in_command :
    ¬ ∀ (S : Type) (ts : S) (cs : List (Callback S)) (s : TextService S) (c : Callback S)
        (n : NestedCall), Run CallbackStep (.activated ts) cs s →
      .nested n ∈ (c.result s).2.events → n.inner = .writing → n.conflict = false := by
  intro hclaim
  have hfalse := hclaim Unit () [] _ (.command [.setFocus .loss] id ⟨[], .ok ()⟩)
    ⟨.setFocus, .writing, false, true⟩ (.refl _) (by decide +kernel) rfl
  cases hfalse

end ChewingTsf
