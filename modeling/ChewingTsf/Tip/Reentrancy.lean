import ChewingTsf.Tip.TextService

/-!
# Callbacks from inside callbacks

While a callback holds `inner`, TSF may make others. `wp_arriveAll` says what
their arrival leaves behind: `Within` if every one of them returns, `Aborted` if
one does not. A callback that arrives while `inner` is held mutably ends in a
borrow conflict exactly if it is `ReentrantKind.unprepared`, and every nested
call recorded says so (`NestedCall.Lawful`).
-/

namespace ChewingTsf

open CallM

variable {S α : Type}

/-- It takes `inner` with a borrow that panics; `key_busy` spares `OnSetFocus`. -/
def ReentrantKind.unprepared (keyBusy : Bool) : ReentrantKind → Bool
  | compositionTerminated => false
  | change guid => guid
  | setFocus => !keyBusy

/-- Arriving while `inner` is held mutably, it hits a conflict exactly if it is
unprepared. -/
def NestedCall.Lawful (n : NestedCall) : Prop :=
  n.inner = .writing → n.conflict = n.kind.unprepared n.keyBusy

/-- It asks for the deferred work. -/
def Reentrant.terminates : Reentrant S → Bool
  | compositionTerminated _ _ => true
  | _ => false

namespace TextService

variable {s t u : TextService S}

def withFlag (f : BorrowFlag) (s : TextService S) : TextService S :=
  { s with inner := { s.inner with flag := f } }

def withValue (v : Option S) (s : TextService S) : TextService S :=
  { s with inner := { s.inner with value := v } }

/-- A guard has been dropped. -/
def released (s : TextService S) : TextService S := s.withFlag s.inner.flag.release

/-! ## The rules of the primitives -/

section Rules

variable {exc : CallbackExit → TextService S → Prop}

theorem wp_borrow_of_some {f : BorrowFlag} (h : s.inner.flag.borrow = some f)
    {post : Option S → TextService S → Prop} :
    wp borrow post exc s ↔ post s.inner.value (s.withFlag f) := by
  unfold borrow
  rw [wp_bind, wp_get]
  simp only [h]
  rw [wp_bind, wp_modify]
  rfl

theorem wp_borrow_of_writing (h : s.inner.flag = .writing)
    {post : Option S → TextService S → Prop} :
    wp borrow post exc s ↔ exc .conflict s := by
  unfold borrow
  rw [wp_bind, wp_get]
  simp only [BorrowFlag.borrow_eq_none_iff.mpr h]
  rfl

theorem wp_borrowMut_of_unused (h : s.inner.flag = .unused)
    {post : Option S → TextService S → Prop} :
    wp borrowMut post exc s ↔ post s.inner.value (s.withFlag .writing) := by
  unfold borrowMut
  rw [wp_bind, wp_get]
  simp only [h, BorrowFlag.borrowMut]
  rw [wp_bind, wp_modify]
  rfl

theorem wp_borrowMut_of_held (h : s.inner.flag ≠ .unused)
    {post : Option S → TextService S → Prop} :
    wp borrowMut post exc s ↔ exc .conflict s := by
  unfold borrowMut
  rw [wp_bind, wp_get]
  simp only [BorrowFlag.borrowMut_eq_none_iff.mpr h]
  rfl

theorem wp_tryBorrowMut_of_unused (h : s.inner.flag = .unused)
    {post : Option (Option S) → TextService S → Prop} :
    wp tryBorrowMut post exc s ↔ post (some s.inner.value) (s.withFlag .writing) := by
  unfold tryBorrowMut
  rw [wp_bind, wp_get]
  simp only [h, BorrowFlag.borrowMut]
  rw [wp_bind, wp_modify]
  rfl

theorem wp_tryBorrowMut_of_held (h : s.inner.flag ≠ .unused)
    {post : Option (Option S) → TextService S → Prop} :
    wp tryBorrowMut post exc s ↔ post none s := by
  unfold tryBorrowMut
  rw [wp_bind, wp_get]
  simp only [BorrowFlag.borrowMut_eq_none_iff.mpr h]
  rfl

theorem wp_dropGuard {post : Unit → TextService S → Prop} :
    wp dropGuard post exc s ↔ post () s.released := Iff.rfl

theorem wp_holding {body : CallM S α} {post : α → TextService S → Prop} :
    wp (holding body) post exc s ↔
      wp body (fun a t => post a t.released) (fun e t => exc e t.released) s := by
  unfold holding
  rw [wp_bind, wp_tryCatch]
  rfl

theorem wp_logged {body : CallM S Unit} {post : Unit → TextService S → Prop} :
    wp (logged body) post exc s ↔
      wp body post (fun e t => if e = .failed then post () t else exc e t) s := by
  unfold logged
  rw [wp_tryCatch]
  simp only [wp_ite]
  rfl

theorem wp_invoke {arrive : CallM S Unit} {handler : Handler S α} {ts : S}
    {post : α → TextService S → Prop} :
    wp (invoke arrive handler ts) post exc s ↔
      wp arrive (fun _ t =>
        match (handler ts).1 with
        | .ok a => post a t
        | .error .error => exc .failed t
        | .error .panic => exc .panicked t) exc (s.withValue (some (handler ts).2)) := by
  unfold invoke
  rw [wp_bind, wp_modify, wp_bind]
  rcases (handler ts).1 with (_ | _) | a <;> rfl

end Rules

/-! ## What arrivals leave behind -/

/-- The events of callbacks that have all returned. -/
def Returned (es : List ServiceEvent) : Prop :=
  ∀ e ∈ es, e = .deferred ∨ ∃ n : NestedCall, e = .nested n ∧ n.conflict = false ∧ n.Lawful

/-- From `s` to `t`, guards and flags are as before, and all that happened is that
callbacks arrived and returned; `defers` says whether a termination was among them. -/
structure Within (defers : Bool) (s t : TextService S) : Prop where
  flag : t.inner.flag = s.inner.flag
  filled : t.inner.value.isSome = s.inner.value.isSome
  keyBusy : t.keyBusy = s.keyBusy
  terminated : t.compositionTerminated = (s.compositionTerminated || defers)
  events : ∃ es, t.events = s.events ++ es ∧ Returned es ∧ (.deferred ∈ es ↔ defers = true)

/-- From `s` to `t`, where the process aborts, callbacks arrived; the last one hit
a conflict, or a handler panicked. -/
structure Aborted (e : CallbackExit) (s t : TextService S) : Prop where
  not_failed : e ≠ .failed
  events : ∃ es, t.events = s.events ++ es ∧ (∀ n, .nested n ∈ es → n.Lawful) ∧
    (e = .conflict ↔ ∃ n, .nested n ∈ es ∧ n.conflict = true)

theorem Returned.append {es fs : List ServiceEvent} (he : Returned es) (hf : Returned fs) :
    Returned (es ++ fs) := fun e hmem =>
  (List.mem_append.mp hmem).elim (he e) (hf e)

theorem Returned.lawful {es : List ServiceEvent} (h : Returned es) {n : NestedCall}
    (hn : .nested n ∈ es) : n.conflict = false ∧ n.Lawful := by
  rcases h _ hn with hdeferred | ⟨n', heq, hn'⟩
  · cases hdeferred
  · cases heq
    exact hn'

namespace Within

variable {d d' : Bool}

theorem refl (s : TextService S) : Within false s s :=
  ⟨rfl, rfl, rfl, (Bool.or_false _).symm, [], (List.append_nil _).symm, nofun,
    ⟨fun h => (nomatch h), fun h => (nomatch h)⟩⟩

theorem trans (h : Within d s t) (h' : Within d' t u) : Within (d || d') s u := by
  obtain ⟨es, hes, hret, hdef⟩ := h.events
  obtain ⟨fs, hfs, hret', hdef'⟩ := h'.events
  refine ⟨h'.flag.trans h.flag, h'.filled.trans h.filled, h'.keyBusy.trans h.keyBusy, ?_,
    es ++ fs, ?_, hret.append hret', ?_⟩
  · rw [h'.terminated, h.terminated, Bool.or_assoc]
  · rw [hfs, hes, List.append_assoc]
  · rw [List.mem_append, hdef, hdef', Bool.or_eq_true]

end Within

theorem Within.aborted {d : Bool} {e : CallbackExit} (h : Within d s t) (h' : Aborted e t u) :
    Aborted e s u := by
  obtain ⟨es, hes, hret, -⟩ := h.events
  obtain ⟨fs, hfs, hlaw, hconflict⟩ := h'.events
  refine ⟨h'.not_failed, es ++ fs, by rw [hfs, hes, List.append_assoc], fun n hn => ?_, ?_⟩
  · rcases List.mem_append.mp hn with hn | hn
    · exact (hret.lawful hn).2
    · exact hlaw n hn
  · rw [hconflict]
    constructor
    · rintro ⟨n, hn, htrue⟩
      exact ⟨n, List.mem_append_right _ hn, htrue⟩
    · rintro ⟨n, hn, htrue⟩
      rcases List.mem_append.mp hn with hn | hn
      · rw [(hret.lawful hn).1] at htrue
        cases htrue
      · exact ⟨n, hn, htrue⟩

/-- A handler of its own panics. -/
theorem Within.panicked {d : Bool} (h : Within d s t) : Aborted .panicked s t :=
  h.aborted ⟨nofun, [], (List.append_nil _).symm, nofun, nofun, fun ⟨_, hn, _⟩ => nomatch hn⟩

/-- What answering the callback `r` leaves behind, itself not yet recorded. -/
structure Answered (r : Reentrant S) (s t : TextService S) : Prop where
  flag : t.inner.flag = s.inner.flag
  filled : t.inner.value.isSome = s.inner.value.isSome
  value : s.inner.flag = .writing → t.inner.value = s.inner.value
  keyBusy : t.keyBusy = s.keyBusy
  terminated : t.compositionTerminated = (s.compositionTerminated || r.terminates)
  events : t.events = s.events ++ if r.terminates then [.deferred] else []

theorem released_of_borrow {f : BorrowFlag} (h : s.inner.flag.borrow = some f) (v : Option S) :
    ((s.withFlag f).withValue v).released = s.withValue v := by
  show { s with inner := ⟨v, f.release⟩ } = { s with inner := ⟨v, s.inner.flag⟩ }
  rw [BorrowFlag.release_of_borrow h]

theorem released_of_borrowMut {f : BorrowFlag} (h : s.inner.flag.borrowMut = some f)
    (v : Option S) : ((s.withFlag f).withValue v).released = s.withValue v := by
  show { s with inner := ⟨v, f.release⟩ } = { s with inner := ⟨v, s.inner.flag⟩ }
  rw [BorrowFlag.release_of_borrowMut h]

theorem released_of_unused (h : s.inner.flag = .unused) : (s.withFlag .writing).released = s :=
  released_of_borrowMut (by rw [h]; rfl) s.inner.value

/-- A call that nothing arrives in changes what `inner` holds. -/
theorem wp_invoke_pure {handler : Handler S α} {ts : S} {P : TextService S → Prop}
    (h : P (s.withValue (some (handler ts).2))) :
    wp (invoke (pure ()) handler ts) (fun _ t => P t) (fun _ t => P t) s := by
  rw [wp_invoke, wp_pure]
  rcases (handler ts).1 with (_ | _) | a <;> exact h

/-- `OnChange` while `inner` is shared: its own guards are gone in the end. -/
theorem wp_onChange_of_reading {n : Nat} (h : s.inner.flag = .reading n)
    (c : CompartmentChange S) :
    wp (onChange (pure ()) (pure ()) c)
      (fun _ t => ∃ v, t = s.withValue v ∧ v.isSome = s.inner.value.isSome)
      (fun _ t => ∃ v, t = s.withValue v ∧ v.isSome = s.inner.value.isSome) s := by
  have hborrow : s.inner.flag.borrow = some (.reading (n + 1)) := by rw [h]; rfl
  have hself : (s.withFlag (.reading (n + 1))).released = s :=
    released_of_borrow hborrow s.inner.value
  unfold onChange
  cases c.rguid with
  | none => exact ⟨s.inner.value, rfl, rfl⟩
  | some openclose =>
    dsimp only
    rw [wp_bind, wp_borrow_of_some hborrow, wp_bind, wp_dropGuard, hself, wp_ite]
    split
    · rw [wp_bind, wp_borrow_of_some hborrow]
      cases hv : s.inner.value with
      | none =>
        rw [wp_dropGuard, hself]
        exact ⟨s.inner.value, rfl, by rw [hv]⟩
      | some ts =>
        -- both methods run behind the guard, and leave it alone
        have hstays : ∀ {u : TextService S} {handler : Handler S Unit} {ts' : S},
            (∃ v, u = (s.withFlag (.reading (n + 1))).withValue (some v)) →
            wp (invoke (pure ()) handler ts')
              (fun _ t => ∃ v, t = (s.withFlag (.reading (n + 1))).withValue (some v))
              (fun _ t => ∃ v, t = (s.withFlag (.reading (n + 1))).withValue (some v)) u := by
          rintro u handler ts' ⟨v, rfl⟩
          exact wp_invoke_pure ⟨_, rfl⟩
        have hdone : ∀ {t : TextService S},
            (∃ v, t = (s.withFlag (.reading (n + 1))).withValue (some v)) →
            ∃ v, t.released = s.withValue v ∧ v.isSome = true := by
          rintro t ⟨v, rfl⟩
          exact ⟨some v, released_of_borrow hborrow _, rfl⟩
        rw [wp_holding, wp_bind]
        refine wp_mono (hstays ⟨ts, by rw [← hv]; rfl⟩) (fun _ t ht => ?_) fun _ t ht => hdone ht
        rw [wp_ite]
        split
        · obtain ⟨v, rfl⟩ := ht
          unfold syncKeyboardOpenclose
          rw [wp_bind, wp_get]
          exact wp_mono (hstays ⟨v, rfl⟩) (fun _ t ht => hdone ht) fun _ t ht => hdone ht
        · exact hdone ht
    · rw [wp_bind, wp_tryBorrowMut_of_held (by rw [h]; exact nofun)]
      exact ⟨s.inner.value, rfl, rfl⟩

/-- `OnChange` while `inner` is held mutably. -/
theorem wp_onChange_of_writing (h : s.inner.flag = .writing) (c : CompartmentChange S) :
    wp (onChange (pure ()) (pure ()) c)
      (fun _ t => t = s ∧ c.rguid.isSome = false)
      (fun e t => t = s ∧ e = .conflict ∧ c.rguid.isSome = true) s := by
  unfold onChange
  cases c.rguid with
  | none => exact ⟨rfl, rfl⟩
  | some openclose =>
    dsimp only
    rw [wp_bind, wp_borrow_of_writing h]
    exact ⟨rfl, rfl, rfl⟩

/-- Answering a callback while `inner` is held. -/
theorem wp_reentrant_run (h : s.inner.flag ≠ .unused) (r : Reentrant S) :
    wp r.run
      (fun _ t => Answered r s t ∧
        (s.inner.flag = .writing → r.kind.unprepared s.keyBusy = false))
      (fun e t => (e = .failed → Answered r s t ∧
          (s.inner.flag = .writing → r.kind.unprepared s.keyBusy = false)) ∧
        (e ≠ .failed → t.events = s.events ∧
          (s.inner.flag = .writing → e = .conflict ∧ r.kind.unprepared s.keyBusy = true))) s := by
  cases r with
  | compositionTerminated pcomposition handler =>
    -- `try_borrow_mut` fails: the work is deferred
    unfold Reentrant.run onCompositionTerminated
    rw [wp_bind, wp_tryBorrowMut_of_held h]
    exact ⟨⟨rfl, rfl, fun _ => rfl, rfl, (Bool.or_true _).symm, rfl⟩, fun _ => rfl⟩
  | setFocus f =>
    unfold Reentrant.run onSetFocus
    rw [wp_bind, wp_get, wp_ite]
    split
    · next hbusy =>
      refine ⟨⟨rfl, rfl, fun _ => rfl, rfl, (Bool.or_false _).symm, (List.append_nil _).symm⟩,
        fun _ => ?_⟩
      simp [Reentrant.kind, ReentrantKind.unprepared, hbusy]
    · next hbusy =>
      unfold behindGuard
      rw [wp_bind, wp_bind, wp_borrowMut_of_held h]
      refine ⟨nofun, fun _ => ⟨rfl, fun _ => ⟨rfl, ?_⟩⟩⟩
      simp [Reentrant.kind, ReentrantKind.unprepared, Bool.eq_false_iff.mpr hbusy]
  | change c =>
    cases hflag : s.inner.flag with
    | unused => exact absurd hflag h
    | writing =>
      -- its first `borrow` decides
      refine wp_mono (wp_onChange_of_writing hflag c) (fun _ t ht => ?_) fun e t ht => ?_
      · obtain ⟨rfl, hnull⟩ := ht
        exact ⟨⟨rfl, rfl, fun _ => rfl, rfl, (Bool.or_false _).symm, (List.append_nil _).symm⟩,
          fun _ => hnull⟩
      · obtain ⟨rfl, rfl, hguid⟩ := ht
        exact ⟨nofun, fun _ => ⟨rfl, fun _ => ⟨rfl, hguid⟩⟩⟩
    | reading n =>
      -- no conflict here, and nothing to show about one
      have hanswered : ∀ {t : TextService S},
          (∃ v, t = s.withValue v ∧ v.isSome = s.inner.value.isSome) →
          Answered (.change c) s t := by
        rintro t ⟨v, rfl, hv⟩
        refine ⟨rfl, hv, fun hwriting => ?_, rfl, (Bool.or_false _).symm,
          (List.append_nil _).symm⟩
        rw [hflag] at hwriting
        cases hwriting
      refine wp_mono (wp_onChange_of_reading hflag c) (fun _ t ht => ?_) fun e t ht => ?_
      · exact ⟨hanswered ht, nofun⟩
      · refine ⟨fun _ => ⟨hanswered ht, nofun⟩, fun _ => ⟨?_, nofun⟩⟩
        obtain ⟨v, rfl, -⟩ := ht
        rfl

/-- One callback arrives while `inner` is held. -/
theorem wp_deliver (h : s.inner.flag ≠ .unused) (r : Reentrant S) :
    wp r.deliver
      (fun _ t => Within r.terminates s t ∧
        (s.inner.flag = .writing → t.inner.value = s.inner.value))
      (fun e t => Aborted e s t) s := by
  have hreturned : ∀ {t : TextService S}, Answered r s t →
      (s.inner.flag = .writing → r.kind.unprepared s.keyBusy = false) →
      Within r.terminates s
        { t with events := t.events ++ [.nested ⟨r.kind, s.inner.flag, s.keyBusy, false⟩] } := by
    intro t ht hlaw
    refine ⟨ht.flag, ht.filled, ht.keyBusy, ht.terminated,
      (if r.terminates then [.deferred] else []) ++
        [.nested ⟨r.kind, s.inner.flag, s.keyBusy, false⟩], ?_, fun e he => ?_, ?_⟩
    · rw [← List.append_assoc, ← ht.events]
    · rcases List.mem_append.mp he with he | he
      · split at he
        · exact .inl (List.mem_singleton.mp he)
        · cases he
      · exact .inr ⟨_, List.mem_singleton.mp he, rfl, fun hwriting => (hlaw hwriting).symm⟩
    · cases r.terminates <;> simp
  have hrun := wp_reentrant_run h r
  unfold wp at hrun ⊢
  unfold Reentrant.deliver
  cases hr : r.run s with
  | ok a t =>
    rw [hr] at hrun
    exact ⟨hreturned hrun.1 hrun.2, hrun.1.value⟩
  | error e t =>
    rw [hr] at hrun
    obtain ⟨hfailed, hothers⟩ := hrun
    cases e with
    | failed =>
      obtain ⟨hanswered, hlaw⟩ := hfailed rfl
      exact ⟨hreturned hanswered hlaw, hanswered.value⟩
    | panicked =>
      -- while a writer runs, what goes wrong is a conflict and not a panic
      obtain ⟨hevents, hlaw⟩ := hothers nofun
      refine ⟨nofun, [.nested ⟨r.kind, s.inner.flag, s.keyBusy, false⟩],
        congrArg (· ++ _) hevents, fun n hn => ?_, nofun, fun ⟨n, hn, htrue⟩ => ?_⟩
      · cases List.mem_singleton.mp hn
        exact fun hwriting => nomatch (hlaw hwriting).1
      · cases List.mem_singleton.mp hn
        cases htrue
    | conflict =>
      obtain ⟨hevents, hlaw⟩ := hothers nofun
      refine ⟨nofun, [.nested ⟨r.kind, s.inner.flag, s.keyBusy, true⟩],
        congrArg (· ++ _) hevents, fun n hn => ?_, fun _ => ⟨_, List.mem_singleton.mpr rfl, rfl⟩,
        fun _ => rfl⟩
      cases List.mem_singleton.mp hn
      exact fun hwriting => (hlaw hwriting).2.symm

/-- **Arrivals** while `inner` is held. -/
theorem wp_arriveAll (h : s.inner.flag ≠ .unused) (rs : List (Reentrant S)) :
    wp (arriveAll rs)
      (fun _ t => Within (rs.any Reentrant.terminates) s t ∧
        (s.inner.flag = .writing → t.inner.value = s.inner.value))
      (fun e t => Aborted e s t) s := by
  induction rs generalizing s with
  | nil => exact ⟨.refl s, fun _ => rfl⟩
  | cons r rs ih =>
    unfold arriveAll
    rw [wp_bind]
    refine wp_mono (wp_deliver h r) (fun _ t ht => ?_) fun _ _ he => he
    obtain ⟨hwithin, hvalue⟩ := ht
    refine wp_mono (ih (by rw [hwithin.flag]; exact h)) (fun _ u hu => ?_) fun e u hu => ?_
    · refine ⟨hwithin.trans hu.1, fun hwriting => ?_⟩
      rw [hu.2 (hwithin.flag.trans hwriting), hvalue hwriting]
    · exact hwithin.aborted hu

/-! ## A method behind a guard -/

section Guard

variable {f : BorrowFlag} {ts : S} {d : Bool}

/-- A method runs while `inner` is held. -/
theorem wp_invoke_arriveAll (h : s.inner.flag ≠ .unused) (hv : s.inner.value.isSome)
    (rs : List (Reentrant S)) (handler : Handler S α) (ts : S) :
    wp (invoke (arriveAll rs) handler ts)
      (fun a t => (handler ts).1 = .ok a ∧ Within (rs.any Reentrant.terminates) s t ∧
        (s.inner.flag = .writing → t.inner.value = some (handler ts).2))
      (fun e t => (e = .failed → (handler ts).1 = .error .error ∧
          Within (rs.any Reentrant.terminates) s t) ∧ (e ≠ .failed → Aborted e s t)) s := by
  have hset : ∀ {t : TextService S},
      Within (rs.any Reentrant.terminates) (s.withValue (some (handler ts).2)) t →
      Within (rs.any Reentrant.terminates) s t := fun ht =>
    ⟨ht.flag, ht.filled.trans hv.symm, ht.keyBusy, ht.terminated, ht.events⟩
  rw [wp_invoke]
  refine wp_mono (wp_arriveAll (by exact h) rs) (fun _ t ht => ?_) fun e t ht => ?_
  · obtain ⟨hwithin, hvalue⟩ := ht
    rcases hr : (handler ts).1 with (_ | _) | a
    · exact ⟨fun _ => ⟨rfl, hset hwithin⟩, fun hne => absurd rfl hne⟩
    · exact ⟨nofun, fun _ => (hset hwithin).panicked⟩
    · exact ⟨rfl, hset hwithin, hvalue⟩
  · exact ⟨fun hfailed => absurd hfailed ht.not_failed, fun _ => ⟨ht.not_failed, ht.events⟩⟩

/-- The guard taken from `s` is dropped. -/
theorem Within.drop (h : Within d (s.withFlag f) t) (hf : f.release = s.inner.flag) :
    Within d s t.released := by
  refine ⟨?_, h.filled, h.keyBusy, h.terminated, h.events⟩
  show t.inner.flag.release = _
  rw [h.flag]
  exact hf

theorem Aborted.drop {e : CallbackExit} (h : Aborted e (s.withFlag f) t) :
    Aborted e s t.released := ⟨h.not_failed, h.events⟩

/-- A method runs behind a guard of its own. -/
theorem wp_holding_invoke (hf : f.release = s.inner.flag) (hheld : f ≠ .unused)
    (hv : s.inner.value = some ts) (rs : List (Reentrant S)) (handler : Handler S α) :
    wp (holding (invoke (arriveAll rs) handler ts))
      (fun a t => (handler ts).1 = .ok a ∧ Within (rs.any Reentrant.terminates) s t ∧
        (f = .writing → t.inner.value = some (handler ts).2))
      (fun e t => (e = .failed → (handler ts).1 = .error .error ∧
          Within (rs.any Reentrant.terminates) s t) ∧ (e ≠ .failed → Aborted e s t))
      (s.withFlag f) := by
  have hsome : (s.withFlag f).inner.value.isSome := by
    show s.inner.value.isSome
    rw [hv]
    rfl
  rw [wp_holding]
  refine wp_mono (wp_invoke_arriveAll (by exact hheld) hsome rs handler ts)
    (fun a t ht => ?_) fun e t ht => ?_
  · exact ⟨ht.1, ht.2.1.drop hf, ht.2.2⟩
  · exact ⟨fun hfailed => ⟨(ht.1 hfailed).1, (ht.1 hfailed).2.drop hf⟩,
      fun hne => (ht.2 hne).drop⟩

end Guard

end TextService

end ChewingTsf
