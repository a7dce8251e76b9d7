import ChewingTsf.Tip.SharedScreen

/-!
# Hosts that come and go

A service does not watch its host. With every key `on_test_keydown` pings the host, connects
again if there is no answer, and launches a host if there is none to connect to; everything
else the service does uses the connection as it finds it. A host creates the named pipe when it
starts and exits if there is one already; when it ends, its window and all connections end with
it, and nobody is told.

The steps of different processes interleave, and a key test is several steps. So a service may
find no host where another is starting one, and launch another that will have to exit.
`HostedScreen.heals` says what the tests achieve: one key while a host is listening.
-/

namespace ChewingTsf

/-- It is a key-down, which `on_test_keydown` sees first. -/
def ListEvent.testsKey : ListEvent → Bool
  | .call (.testKeyDown ..) | .call (.keyDown ..) => true
  | _ => false

/-- Where a service is in what it has been called for. -/
inductive EventPhase where
  | idle
  /-- `on_test_keydown` makes sure of the host first -/
  | ping (e : ListEvent)
  | connect (e : ListEvent)
  | launch (e : ListEvent)
  | reconnect (e : ListEvent)
  | handle (e : ListEvent)

/-- The services with the window they share, and the host. -/
structure HostedScreen (ι : Type*) (E : Type) (Value : Type*) where
  screen : SharedScreen ι E Value
  phase : ι → EventPhase
  /-- there is a host, and it has created the pipe -/
  listening : Bool
  /-- who has launched a host so far -/
  launches : List ι

inductive HostedStep (ι : Type*) where
  /-- TSF or the application calls the service -/
  | begin (i : ι) (e : ListEvent)
  /-- the service goes on; `ok` says whether it is let connect, and can launch a process -/
  | proceed (i : ι) (ok : Bool)
  /-- the main loop processes a command of the service -/
  | deliver (i : ι)
  /-- a host process tries to create the pipe -/
  | hostStarts
  | hostEnds

namespace HostedScreen

section Model

variable {ι : Type*} {E : Type} {Value : Type*} [DecidableEq ι]

def setPhase (i : ι) (p : EventPhase) (s : HostedScreen ι E Value) : HostedScreen ι E Value :=
  { s with phase := Function.update s.phase i p }

variable [EditorCommands E] [KeyCodes] [JsonValue Value ShowCandidateList]
  [JsonValue Value HideCandidateList]

def onScreen (zhconv : Str → Str) (a : SharedFollowingStep ι ListEvent)
    (s : HostedScreen ι E Value) : HostedScreen ι E Value :=
  { s with screen := s.screen.after zhconv a }

/-- The next step of a service: `ChewingIpcClient::ping`, `connect`, `launch_tip_host` and
`connect` again, and then the rest of the method. -/
def proceeded (zhconv : Str → Str) (i : ι) (ok : Bool) (s : HostedScreen ι E Value) :
    HostedScreen ι E Value :=
  match s.phase i with
  | .idle => s
  | .ping e => s.setPhase i (if s.screen.linked i then .handle e else .connect e)
  | .connect e =>
    if s.listening && ok then (s.onScreen zhconv (.link i)).setPhase i (.handle e)
    else s.setPhase i (.launch e)
  | .launch e =>
    if ok then { s with launches := i :: s.launches }.setPhase i (.reconnect e)
    else s.setPhase i (.handle e)
  | .reconnect e =>
    (if s.listening && ok then s.onScreen zhconv (.link i) else s).setPhase i (.handle e)
  | .handle e => (s.onScreen zhconv (.act i e)).setPhase i .idle

/-- The state after a step. -/
def next (zhconv : Str → Str) (s : HostedScreen ι E Value) :
    HostedStep ι → HostedScreen ι E Value
  | .begin i e => s.setPhase i (if e.testsKey then .ping e else .handle e)
  | .proceed i ok => s.proceeded zhconv i ok
  | .deliver i => s.onScreen zhconv (.deliver i)
  | .hostStarts =>
    -- `create_pipe_listener` fails if there is a pipe of that name
    if s.listening then s else { s.onScreen zhconv .restart with listening := true }
  | .hostEnds => { s.onScreen zhconv .restart with listening := false }

omit [DecidableEq ι] [EditorCommands E] [KeyCodes] [JsonValue Value ShowCandidateList]
  [JsonValue Value HideCandidateList] in
/-- A service is called again only when it has returned. -/
def Possible (s : HostedScreen ι E Value) : HostedStep ι → Prop
  | .begin i _ => s.phase i = .idle
  | _ => True

def Step (zhconv : Str → Str) (s : HostedScreen ι E Value) (a : HostedStep ι)
    (s' : HostedScreen ι E Value) : Prop := s.Possible a ∧ s' = s.next zhconv a

omit [DecidableEq ι] [EditorCommands E] [KeyCodes] [JsonValue Value ShowCandidateList]
  [JsonValue Value HideCandidateList] in
/-- The host goes on, and `i` is let connect to it. -/
def Undisturbed (i : ι) (_ : HostedScreen ι E Value) : HostedStep ι → Prop
  | .proceed j ok => j = i → ok = true
  | .hostEnds => False
  | .begin .. | .deliver _ | .hostStarts => True

/-! ## What a service's step changes -/

variable {zhconv : Str → Str} {s t s' : HostedScreen ι E Value} {i j : ι} {ok : Bool}

/-- It connects, or it does what it was called for. -/
theorem screen_proceeded (zhconv : Str → Str) (j : ι) (ok : Bool) (s : HostedScreen ι E Value) :
    (s.proceeded zhconv j ok).screen = s.screen ∨
    (s.proceeded zhconv j ok).screen = s.screen.after zhconv (.link j) ∨
    ∃ e, s.phase j = .handle e ∧
      (s.proceeded zhconv j ok).screen = s.screen.after zhconv (.act j e) := by
  unfold proceeded
  split
  · exact .inl rfl
  · exact .inl rfl
  · split
    · exact .inr (.inl rfl)
    · exact .inl rfl
  · split <;> exact .inl rfl
  · split
    · exact .inr (.inl rfl)
    · exact .inl rfl
  · next e he => exact .inr (.inr ⟨e, he, rfl⟩)

theorem listening_proceeded (zhconv : Str → Str) (j : ι) (ok : Bool)
    (s : HostedScreen ι E Value) : (s.proceeded zhconv j ok).listening = s.listening := by
  unfold proceeded
  split
  · rfl
  · rfl
  · split <;> rfl
  · split <;> rfl
  · split <;> rfl
  · rfl

omit [EditorCommands E] [KeyCodes] [JsonValue Value ShowCandidateList]
  [JsonValue Value HideCandidateList] in
theorem phase_setPhase (i : ι) (p : EventPhase) (s : HostedScreen ι E Value) :
    (s.setPhase i p).phase i = p := by
  show Function.update s.phase i p i = p
  exact Function.update_self _ _ _

omit [EditorCommands E] [KeyCodes] [JsonValue Value ShowCandidateList]
  [JsonValue Value HideCandidateList] in
theorem phase_setPhase_of_ne (hne : i ≠ j) (p : EventPhase) (s : HostedScreen ι E Value) :
    (s.setPhase j p).phase i = s.phase i := by
  show Function.update s.phase j p i = s.phase i
  exact Function.update_of_ne hne _ _

theorem launches_proceeded (zhconv : Str → Str) (j : ι) (ok : Bool)
    (s : HostedScreen ι E Value) :
    (s.proceeded zhconv j ok).launches = s.launches ∨
    (s.proceeded zhconv j ok).launches = j :: s.launches := by
  unfold proceeded
  split
  · exact .inl rfl
  · exact .inl rfl
  · split <;> exact .inl rfl
  · split
    · exact .inr rfl
    · exact .inl rfl
  · split <;> exact .inl rfl
  · exact .inl rfl

/-- The others stay where they are. -/
theorem phase_proceeded_of_ne (hne : i ≠ j) : (s.proceeded zhconv j ok).phase i = s.phase i := by
  unfold proceeded
  split
  · rfl
  · exact phase_setPhase_of_ne hne _ s
  · split
    · exact phase_setPhase_of_ne hne _ (s.onScreen zhconv (.link j))
    · exact phase_setPhase_of_ne hne _ s
  · split
    · exact phase_setPhase_of_ne hne _ { s with launches := j :: s.launches }
    · exact phase_setPhase_of_ne hne _ s
  · split
    · exact phase_setPhase_of_ne hne _ (s.onScreen zhconv (.link j))
    · exact phase_setPhase_of_ne hne _ s
  · exact phase_setPhase_of_ne hne _ (s.onScreen zhconv (.act j _))

theorem linked_proceeded_of_ne (hne : i ≠ j) :
    (s.proceeded zhconv j ok).screen.linked i = s.screen.linked i := by
  obtain heq | heq | ⟨e, -, heq⟩ := screen_proceeded zhconv j ok s
  · rw [heq]
  · rw [heq]
    exact Function.update_of_ne hne _ _
  · rw [heq]
    rfl

end Model

end HostedScreen

/-! ## A service that will be connected -/

/-- The service is connected by the time it handles what it was called for, without launching
a host. -/
def EventPhase.Reaches (linked : Bool) : EventPhase → Prop
  | .ping _ | .connect _ => True
  | .idle | .handle _ => linked = true
  | .launch _ | .reconnect _ => False

namespace HostedScreen

section Runs

variable {ι : Type*} {E : Type} {Value : Type*}

/-- There is a host, and `i` is connected to it or about to be. -/
structure Reaches (i : ι) (s : HostedScreen ι E Value) : Prop where
  listening : s.listening = true
  phase : (s.phase i).Reaches (s.screen.linked i)

variable {s t s' : HostedScreen ι E Value} {i j : ι}

theorem Reaches.linked (h : s.Reaches i) {e : ListEvent} (hhandle : s.phase i = .handle e) :
    s.screen.linked i = true := by
  have hphase := h.phase
  rwa [hhandle] at hphase

/-- What the others do does not matter, as long as there is a host. -/
theorem Reaches.congr (h : s.Reaches i) (hlistening : t.listening = s.listening)
    (hphase : t.phase i = s.phase i) (hlinked : t.screen.linked i = s.screen.linked i) :
    t.Reaches i := by
  refine ⟨hlistening.trans h.listening, ?_⟩
  rw [hphase, hlinked]
  exact h.phase

variable [DecidableEq ι] [EditorCommands E] [KeyCodes] [JsonValue Value ShowCandidateList]
  [JsonValue Value HideCandidateList] {zhconv : Str → Str}

/-- `i` goes on. -/
theorem Reaches.proceeded (h : s.Reaches i) (zhconv : Str → Str) :
    (s.proceeded zhconv i true).Reaches i ∧
      (s.proceeded zhconv i true).launches = s.launches := by
  have hphase := h.phase
  cases heq : s.phase i with
  | idle =>
    rw [HostedScreen.proceeded, heq]
    exact ⟨h, rfl⟩
  | ping e =>
    rw [HostedScreen.proceeded, heq]
    refine ⟨⟨h.listening, ?_⟩, rfl⟩
    rw [phase_setPhase]
    by_cases hlinked : s.screen.linked i = true
    · rw [if_pos hlinked]
      exact hlinked
    · rw [if_neg hlinked]
      trivial
  | connect e =>
    -- there is a host, and it accepts
    have hconnected : s.proceeded zhconv i true
        = (s.onScreen zhconv (.link i)).setPhase i (.handle e) := by
      rw [HostedScreen.proceeded, heq]
      exact if_pos (by rw [h.listening, Bool.and_self])
    rw [hconnected]
    refine ⟨⟨h.listening, ?_⟩, rfl⟩
    rw [phase_setPhase]
    show Function.update s.screen.linked i true i = true
    exact Function.update_self i _ _
  | launch e | reconnect e =>
    rw [heq] at hphase
    exact hphase.elim
  | handle e =>
    rw [HostedScreen.proceeded, heq]
    refine ⟨⟨h.listening, ?_⟩, rfl⟩
    rw [phase_setPhase]
    exact h.linked heq

/-- **One step** of the services and the host: `i` launches no host. -/
theorem Reaches.next (h : s.Reaches i) (zhconv : Str → Str) {a : HostedStep ι}
    (hpossible : s.Possible a) (hundisturbed : s.Undisturbed i a) :
    (s.next zhconv a).Reaches i ∧
      (s.next zhconv a).launches.count i = s.launches.count i := by
  cases a with
  | begin j e =>
    refine ⟨?_, rfl⟩
    by_cases hij : i = j
    · subst hij
      have hlinked := h.phase
      rw [show s.phase i = .idle from hpossible] at hlinked
      refine ⟨h.listening, ?_⟩
      show ((s.setPhase i _).phase i).Reaches (s.screen.linked i)
      rw [phase_setPhase]
      split
      · trivial
      · exact hlinked
    · exact h.congr rfl (phase_setPhase_of_ne hij _ s) rfl
  | proceed j ok =>
    by_cases hij : i = j
    · subst hij
      obtain rfl := hundisturbed rfl
      obtain ⟨hreaches, hlaunches⟩ := h.proceeded zhconv
      exact ⟨hreaches, congrArg (List.count i) hlaunches⟩
    · refine ⟨h.congr (listening_proceeded zhconv j ok s) (phase_proceeded_of_ne hij)
        (linked_proceeded_of_ne hij), ?_⟩
      show (s.proceeded zhconv j ok).launches.count i = _
      rcases launches_proceeded zhconv j ok s with heq | heq
      · rw [heq]
      · rw [heq, List.count_cons_of_ne (Ne.symm hij)]
  | deliver j =>
    refine ⟨h.congr rfl rfl ?_, rfl⟩
    exact congrFun (SharedFollowing.linked_delivered _ j) i
  | hostStarts =>
    -- a second host finds the pipe and exits
    have hsame : s.next zhconv .hostStarts = s := if_pos h.listening
    rw [hsame]
    exact ⟨h, rfl⟩
  | hostEnds => exact hundisturbed.elim

/-- A key test begins while there is a host. -/
theorem reaches_begin (hlistening : s.listening = true) {e : ListEvent}
    (hkey : e.testsKey = true) : (s.next zhconv (.begin i e)).Reaches i := by
  refine ⟨hlistening, ?_⟩
  show ((s.setPhase i _).phase i).Reaches _
  rw [phase_setPhase, if_pos hkey]
  trivial

/-- The commands of a service that is connected are not lost. -/
theorem Reaches.leads (hjson : ReadsBack Value) (h : s.Reaches i) {a : HostedStep ι}
    (hpossible : s.Possible a) (hundisturbed : s.Undisturbed i a)
    (hleads : s.screen.Leads CandidateWindow.processed Screen.Shown i) :
    (s.next zhconv a).screen.Leads CandidateWindow.processed Screen.Shown i := by
  have hstep : ∀ b, SharedScreen.Heard i s.screen b →
      (s.screen.after zhconv b).Leads CandidateWindow.processed Screen.Shown i :=
    fun b hheard => hleads.step (Screen.tracks_shown hjson zhconv)
      (Screen.alwaysRefreshes_shown hjson zhconv) hheard
  cases a with
  | begin j e => exact hleads
  | proceed j ok =>
    show (s.proceeded zhconv j ok).screen.Leads _ _ i
    obtain heq | heq | ⟨e, hhandle, heq⟩ := screen_proceeded zhconv j ok s
    · rw [heq]
      exact hleads
    · rw [heq]
      exact hstep (.link j) trivial
    · rw [heq]
      -- what `i` sends goes over an open connection
      refine hstep (.act j e) fun hji => .inl ?_
      subst hji
      exact h.linked hhandle
  | deliver j => exact hstep (.deliver j) trivial
  | hostStarts =>
    have hsame : s.next zhconv .hostStarts = s := if_pos h.listening
    rw [hsame]
    exact hleads
  | hostEnds => exact hundisturbed.elim

/-! ## Runs -/

theorem Reaches.run (h : s.Reaches i) {ls : List (HostedStep ι)}
    (hrun : Run (Guarded (Undisturbed i) (Step zhconv)) s ls t) :
    t.Reaches i ∧ t.launches.count i = s.launches.count i := by
  refine hrun.invariant
    (I := fun u => u.Reaches i ∧ u.launches.count i = s.launches.count i) ⟨h, rfl⟩ ?_
  rintro u a _ ⟨hu, hcount⟩ ⟨hundisturbed, hpossible, rfl⟩
  obtain ⟨hreaches, hlaunches⟩ := hu.next zhconv hpossible hundisturbed
  exact ⟨hreaches, hlaunches.trans hcount⟩

theorem Reaches.leads_run (hjson : ReadsBack Value) (h : s.Reaches i)
    (hleads : s.screen.Leads CandidateWindow.processed Screen.Shown i) {ls : List (HostedStep ι)}
    (hrun : Run (Guarded (Undisturbed i) (Step zhconv)) s ls t) :
    t.screen.Leads CandidateWindow.processed Screen.Shown i := by
  have hboth := hrun.invariant
    (I := fun u => u.Reaches i ∧ u.screen.Leads CandidateWindow.processed Screen.Shown i)
    ⟨h, hleads⟩ <| by
      rintro u a _ ⟨hu, hleads⟩ ⟨hundisturbed, hpossible, rfl⟩
      exact ⟨(hu.next zhconv hpossible hundisturbed).1,
        hu.leads hjson hpossible hundisturbed hleads⟩
  exact hboth.2

/-- **One key heals**: whatever was lost before, a service that tests a key while there is a
host launches none for as long as the host goes on, and is connected to it whenever it handles
what it was called for; and from the first command it sends then, the window shows its list
whenever its command was the last. -/
theorem heals (hjson : ReadsBack Value) {e : ListEvent} (hlistening : s.listening = true)
    (hkey : e.testsKey = true) {ls : List (HostedStep ι)}
    (hrun : Run (Guarded (Undisturbed i) (Step zhconv)) (s.next zhconv (.begin i e)) ls t) :
    t.launches.count i = s.launches.count i ∧
    ∀ e', t.phase i = .handle e' →
      t.screen.linked i = true ∧
      ((e'.commands (t.screen.leader i) : List (MethodCall Value)) ≠ [] →
        ∀ ls' s',
          Run (Guarded (Undisturbed i) (Step zhconv)) (t.next zhconv (.proceed i true)) ls' s' →
          s'.screen.last = some i →
            Screen.Shown (s'.screen.leader i)
              ((s'.screen.sent i).foldl CandidateWindow.processed s'.screen.follower)) := by
  obtain ⟨hreaches, hlaunches⟩ := (reaches_begin hlistening hkey).run hrun
  refine ⟨hlaunches, fun e' hhandle => ⟨hreaches.linked hhandle, ?_⟩⟩
  intro hsends ls' s' hrun' hlast
  have hsent : (t.proceeded zhconv i true).screen = t.screen.after zhconv (.act i e') := by
    rw [HostedScreen.proceeded, hhandle]
    rfl
  have hleads : (t.proceeded zhconv i true).screen.Leads CandidateWindow.processed
      Screen.Shown i := by
    rw [hsent]
    exact SharedFollowing.leads_of_reports (hreaches.linked hhandle)
      (Screen.alwaysRefreshes_shown hjson zhconv _ e') hsends
  exact ((hreaches.proceeded zhconv).1.leads_run hjson hleads hrun').last hlast

end Runs

end HostedScreen

/-! ## A host that has started anew -/

open TypedEditor

/-- The host was replaced while the first service showed candidates, which are on screen no
more. -/
def TypedEditor.hostReplaced : HostedScreen Bool TypedEditor (Option ShowCandidateList) :=
  ⟨SharedScreen.after id twoServices .restart, fun _ => .idle, true, []⟩

/-- The next key brings them back. -/
theorem HostedScreen.heals_hostReplaced :
    ∃ t s : HostedScreen Bool TypedEditor (Option ShowCandidateList),
      t.launches.count false = hostReplaced.launches.count false ∧
      t.screen.linked false = true ∧
      hostReplaced.screen.follower.visible = false ∧ s.screen.follower.visible = true ∧
      Screen.Shown (s.screen.leader false)
        ((s.screen.sent false).foldl CandidateWindow.processed s.screen.follower) := by
  have hrun : ∃ t s : HostedScreen Bool TypedEditor (Option ShowCandidateList),
      Run (Guarded (Undisturbed false) (Step id))
        (hostReplaced.next id (.begin false (keyEvent symDown)))
        [.proceed false true, .proceed false true] t ∧
      t.phase false = .handle (keyEvent symDown) ∧
      ((keyEvent symDown).commands (t.screen.leader false) :
        List (MethodCall (Option ShowCandidateList))).isEmpty = false ∧
      Run (Guarded (Undisturbed false) (Step id)) (t.next id (.proceed false true))
        [.deliver false] s ∧
      s.screen.last = some false ∧ s.screen.follower.visible = true := by
    refine ⟨_, _, .head ⟨fun _ => rfl, trivial, rfl⟩ <| .single ⟨fun _ => rfl, trivial, rfl⟩,
      rfl, ?_, .single ⟨trivial, trivial, rfl⟩, ?_, ?_⟩
    · decide +kernel
    · decide +kernel
    · decide +kernel
  obtain ⟨t, s, hrun, hhandle, hsends, hrun', hlast, hvisible⟩ := hrun
  obtain ⟨hlaunches, hhandles⟩ := heals (s := hostReplaced) readsBack_option rfl rfl hrun
  obtain ⟨hlinked, hshown⟩ := hhandles _ hhandle
  exact ⟨t, s, hlaunches, hlinked, rfl, hvisible,
    hshown (fun hnil => by rw [hnil] at hsends; cases hsends) _ s hrun' hlast⟩

end ChewingTsf
