import ChewingTsf.Lib.Trace
import ChewingTsf.Tip.Callbacks

/-!
# Deferred terminations

A termination of the composition that arrives while `inner` is held only sets
`composition_terminated`; `tail_handler` does the work at the end of a callback.
Only the key callbacks call it, and only where they return `Ok`, so a run settles
its terminations exactly if they arrive there (`Callback.Settles`).
-/

namespace ChewingTsf

open TextService

variable {S : Type} {s t : TextService S}

/-- Every termination deferred so far has been settled by a tail that ran after it
and before the next callback of TSF, and the flag is clear. -/
structure TextService.Settled (s : TextService S) : Prop where
  terminated : s.compositionTerminated = false
  followed : Followed .deferred .tail .called s.events

/-- If a termination arrives, it does so in a key callback whose methods return
`Ok`, and none arrives from inside the tail. -/
def Callback.Settles (s : TextService S) (c : Callback S) : Prop :=
  s.inner.value.any (fun ts => c.terminates s.keyBusy ts) = true →
    s.inner.value.any (fun ts => c.completes ts) = true ∧ c.tailTerminates = false

theorem TextService.Returned.called_not_mem {es : List ServiceEvent} (h : Returned es) :
    .called ∉ es := fun hmem =>
  (h _ hmem).elim (fun heq => nomatch heq) fun ⟨_, heq, _⟩ => nomatch heq

theorem TextService.Returned.tail_not_mem {es : List ServiceEvent} (h : Returned es) :
    .tail ∉ es := fun hmem =>
  (h _ hmem).elim (fun heq => nomatch heq) fun ⟨_, heq, _⟩ => nomatch heq

/-- What a trace of events comes to at a callback. -/
theorem followed_called {es fs : List ServiceEvent} :
    Followed .deferred .tail .called (es ++ .called :: fs) ↔
      Followed .deferred .tail .called es ∧ Followed .deferred .tail .called fs :=
  followed_append_cons (by decide) (by decide)

/-- The events of a callback do not mend those before it. -/
theorem followed_of_leaves {c : Callback S} (hleaves : c.Leaves s t)
    (h : Followed .deferred .tail .called t.events) :
    Followed .deferred .tail .called s.events := by
  obtain ⟨es, hes, -⟩ := hleaves.lawful
  have hcut : t.events = s.events ++ .called :: es := hes.trans (List.append_assoc _ _ _)
  rw [hcut] at h
  exact (followed_called.mp h).1

/-- **One callback**, with nothing deferred before it. -/
theorem settled_iff_of_leaves {c : Callback S} (hclear : s.compositionTerminated = false)
    (hleaves : c.Leaves s t) :
    (Followed .deferred .tail .called t.events ↔
      Followed .deferred .tail .called s.events ∧ c.Settles s) ∧
    (Followed .deferred .tail .called t.events → t.compositionTerminated = false) := by
  have hclear' : (c.entered s).compositionTerminated = false := hclear
  unfold Callback.Leaves Outcome at hleaves
  unfold Callback.Settles
  rw [hclear', Bool.false_or] at hleaves
  split at hleaves
  · next hboth =>
    -- a termination was deferred and the tail ran: only the tail's own are left
    obtain ⟨hcompletes, hdefers⟩ := Bool.and_eq_true_iff.mp hboth
    obtain ⟨u, hu, ht⟩ := hleaves
    obtain ⟨es, hes, hret, -⟩ := hu.events
    obtain ⟨fs, hfs, hret', htail⟩ := ht.events
    have hcut : t.events = s.events ++ .called :: (es ++ .tail :: fs) := by
      rw [hfs, tailed, hes]
      simp [Callback.entered]
    have hterminated : t.compositionTerminated = c.tailTerminates :=
      ht.terminated.trans (Bool.false_or _)
    have hiff : Followed .deferred .tail .called (es ++ .tail :: fs)
        ↔ c.tailTerminates = false := by
      rw [← Bool.not_eq_true, ← htail]
      exact followed_append_answer (by decide) hret.called_not_mem hret'.tail_not_mem
    rw [hcut, followed_called, hiff]
    refine ⟨and_congr_right fun _ => ?_, fun h => hterminated.trans h.2⟩
    exact ⟨fun h _ => ⟨hcompletes, h⟩, fun h => (h hdefers).2⟩
  · next hboth =>
    -- no tail ran: the events settle nothing
    obtain ⟨es, hes, hret, hdeferred⟩ := hleaves.events
    have hcut : t.events = s.events ++ .called :: es := hes.trans (List.append_assoc _ _ _)
    have hterminated := hleaves.terminated
    rw [hclear', Bool.false_or] at hterminated
    rw [hcut, followed_called, followed_iff_not_mem hret.tail_not_mem, hdeferred,
      Bool.not_eq_true]
    refine ⟨and_congr_right fun _ => ?_, fun h => hterminated.trans h.2⟩
    constructor
    · intro hnot hdefers
      rw [hnot] at hdefers
      cases hdefers
    · intro h
      by_contra hdefers
      rw [Bool.not_eq_false] at hdefers
      rw [(h hdefers).1, hdefers] at hboth
      exact hboth rfl

/-- **Deferred terminations are settled.** After any run, every termination deferred
so far was settled before the next callback exactly if each callback of the run
meets `Callback.Settles` in the state it is made in. -/
theorem settled_iff_settles {ts : S} {cs : List (Callback S)}
    (hrun : Run CallbackStep (.activated ts) cs s) :
    s.Settled ↔ Run (Guarded Callback.Settles CallbackStep) (.activated ts) cs s := by
  constructor
  · intro hsettled
    -- an implication, since only the end of the run is known to be settled
    have hinv : s.Free ∧ (Followed .deferred .tail .called s.events →
        s.compositionTerminated = false ∧
          Run (Guarded Callback.Settles CallbackStep) (.activated ts) cs s) := by
      refine hrun.history (I := fun cs s => s.Free ∧ (Followed .deferred .tail .called s.events →
        s.compositionTerminated = false ∧
          Run (Guarded Callback.Settles CallbackStep) (.activated ts) cs s)) ?_ ?_
      · exact ⟨⟨rfl, fun _ hn => absurd hn List.not_mem_nil⟩, fun _ => ⟨rfl, .refl _⟩⟩
      · rintro cs s c t ⟨hfree, hI⟩ hstep
        have hleaves := Callback.leaves_of_step hfree.flag hstep
        refine ⟨hfree.step hstep, fun hfollowed => ?_⟩
        obtain ⟨hclear, hguarded⟩ := hI (followed_of_leaves hleaves hfollowed)
        obtain ⟨hiff, hclear'⟩ := settled_iff_of_leaves hclear hleaves
        exact ⟨hclear' hfollowed, hguarded.tail ⟨(hiff.mp hfollowed).2, hstep⟩⟩
    exact (hinv.2 hsettled.followed).2
  · intro hguarded
    have hinv : s.Free ∧ s.Settled := by
      refine hguarded.invariant (I := fun s => s.Free ∧ s.Settled) ?_ ?_
      · refine ⟨⟨rfl, fun _ hn => absurd hn List.not_mem_nil⟩, rfl, ?_⟩
        exact (followed_iff_not_mem List.not_mem_nil).mpr List.not_mem_nil
      · rintro s c t ⟨hfree, hsettled⟩ ⟨hok, hstep⟩
        obtain ⟨hiff, hclear⟩ := settled_iff_of_leaves hsettled.terminated
          (Callback.leaves_of_step hfree.flag hstep)
        have hfollowed := hiff.mpr ⟨hsettled.followed, hok⟩
        exact ⟨hfree.step hstep, hclear hfollowed, hfollowed⟩
    exact hinv.2

/-- The application ends the composition from inside `OnKeyDown`, which succeeds. -/
theorem settled_after_keyDown :
    (Callback.result (.keyDown ⟨true, ⟨[.compositionTerminated true (.ok ())], .ok true⟩,
      ⟨[], .ok ()⟩, ⟨[], .ok ()⟩⟩) (.activated ())).2.Settled := by
  have hstep : CallbackStep (.activated ()) (.keyDown ⟨true,
      ⟨[.compositionTerminated true (.ok ())], .ok true⟩, ⟨[], .ok ()⟩, ⟨[], .ok ()⟩⟩)
      (Callback.result (.keyDown ⟨true, ⟨[.compositionTerminated true (.ok ())], .ok true⟩,
        ⟨[], .ok ()⟩, ⟨[], .ok ()⟩⟩) (.activated ())).2 := .ok rfl
  exact (settled_iff_settles (.single hstep)).mpr (.single ⟨fun _ => ⟨rfl, rfl⟩, hstep⟩)

/-- The application ends the composition while the menu of the mode icon is open
inside `on_command`: the flag stays set. -/
theorem termination_outlives_command :
    ¬ ∀ (S : Type) (ts : S) (cs : List (Callback S)) (s : TextService S),
      Run CallbackStep (.activated ts) cs s → s.Settled := by
  intro hclaim
  have hstep : CallbackStep (.activated ())
      (.command [.compositionTerminated true (.ok ())] id ⟨[], .ok ()⟩)
      (Callback.result (.command [.compositionTerminated true (.ok ())] id ⟨[], .ok ()⟩)
        (.activated ())).2 := .ok rfl
  cases (hclaim Unit () _ _ (.single hstep)).terminated

end ChewingTsf
