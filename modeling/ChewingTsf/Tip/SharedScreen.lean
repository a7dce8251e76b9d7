import ChewingTsf.Tip.Screen

/-!
# One candidate window for all services

Every process with a text service has a connection of its own to the host, and every
connection a thread of its own, but there is one candidate window. Nothing orders the commands
of different connections. So the window cannot be right for all services at once: it is right
for the one whose command the main loop processed last (`SharedScreen.shows_last`). When the
focus moves from one process to another, the list that the one gives up and the list that the
other opens are two commands on two connections, and if they arrive the wrong way round the
new list is hidden until the next command (`SharedScreen.hidden_by_late_hide`).
-/

namespace ChewingTsf

section Model

variable {ι : Type*} {E : Type} {Value : Type*} [DecidableEq ι] [EditorCommands E] [KeyCodes]
  [JsonValue Value ShowCandidateList] [JsonValue Value HideCandidateList]

omit [DecidableEq ι] [EditorCommands E] [KeyCodes] [JsonValue Value ShowCandidateList]
  [JsonValue Value HideCandidateList] in
/-- The services, the commands of each on their way to the main loop, and the window. -/
abbrev SharedScreen (ι : Type*) (E : Type) (Value : Type*) :=
  SharedFollowing ι (Keyboard E) (MethodCall Value) CandidateWindow

namespace SharedScreen

/-- A service, its pipe, the main loop or the host takes a step. -/
def after (zhconv : Str → Str) (s : SharedScreen ι E Value)
    (a : SharedFollowingStep ι ListEvent) : SharedScreen ι E Value :=
  SharedFollowing.after (ListEvent.next zhconv) (fun k e => e.commands k)
    CandidateWindow.processed Screen.noWindow s a

def Step (zhconv : Str → Str) (s : SharedScreen ι E Value)
    (a : SharedFollowingStep ι ListEvent) (s' : SharedScreen ι E Value) : Prop :=
  s' = s.after zhconv a

/-- No command of `i` is lost for want of a connection. -/
def Heard (i : ι) (s : SharedScreen ι E Value) (a : SharedFollowingStep ι ListEvent) : Prop :=
  SharedFollowing.Heard (fun k e => e.commands k) i s a

variable {zhconv : Str → Str} {s s' : SharedScreen ι E Value} {i : ι}
  {ls : List (SharedFollowingStep ι ListEvent)}

/-- **The window shows the list of the service that was heard last**, however the commands of
the services interleave, whatever the others lose and whenever the host starts anew: if the last
command that was processed is one of `i`, then the window shows what `i` holds, as soon as the
commands of `i` on their way are processed too. -/
theorem shows_last (hjson : ReadsBack Value) (hsent : s.sent i = []) (hlast : s.last ≠ some i)
    (hrun : Run (Guarded (Heard i) (Step zhconv)) s ls s') (hlast' : s'.last = some i) :
    Screen.Shown (s'.leader i) ((s'.sent i).foldl CandidateWindow.processed s'.follower) := by
  have hleads := SharedFollowing.leads_run (Screen.tracks_shown hjson zhconv)
    (Screen.alwaysRefreshes_shown hjson zhconv) (SharedFollowing.leads_of_nil hsent hlast) hrun
  exact hleads.last hlast'

/-- The same from any event on that sends a command over an open connection, whatever was
lost before. -/
theorem mends_last (hjson : ReadsBack Value) {e : ListEvent} (hlinked : s.linked i = true)
    (hsends : (e.commands (s.leader i) : List (MethodCall Value)) ≠ [])
    (hrun : Run (Guarded (Heard i) (Step zhconv)) (s.after zhconv (.act i e)) ls s')
    (hlast : s'.last = some i) :
    Screen.Shown (s'.leader i) ((s'.sent i).foldl CandidateWindow.processed s'.follower) := by
  have hleads : (s.after zhconv (.act i e)).Leads CandidateWindow.processed Screen.Shown i :=
    SharedFollowing.leads_of_reports hlinked (Screen.alwaysRefreshes_shown hjson zhconv _ e) hsends
  have hleads' := SharedFollowing.leads_run (Screen.tracks_shown hjson zhconv)
    (Screen.alwaysRefreshes_shown hjson zhconv) hleads hrun
  exact hleads'.last hlast

end SharedScreen

end Model

/-! ## Two services -/

open TypedEditor

/-- One service shows the candidates of a syllable, and another is activated. -/
def TypedEditor.twoServices : SharedScreen Bool TypedEditor (Option ShowCandidateList) :=
  ⟨fun second => if second then activated .default else { activated .default with tip := choosing },
    fun _ => true, fun _ => [], ⟨.default, true⟩, some false⟩

/-- The focus moves to the second service, a syllable is typed, and its candidates are opened. -/
def TypedEditor.focusMoves : List (SharedFollowingStep Bool ListEvent) :=
  [.act false (.call (.setFocus true true)), .act true (keyEvent ⟨0x61⟩),
    .act true (keyEvent ⟨0x61⟩), .act true (keyEvent symDown)]

/-- All commands are processed, those of the second service last. -/
def TypedEditor.inOrder : List (SharedFollowingStep Bool ListEvent) :=
  focusMoves ++ [.deliver false, .deliver true, .deliver true]

/-- The first service's list is given up only when the second service's is on screen. -/
def TypedEditor.hideLate : List (SharedFollowingStep Bool ListEvent) :=
  focusMoves ++ [.deliver true, .deliver true, .deliver false]

/-- The list of the second service is on screen. -/
theorem SharedScreen.shows_last_inOrder :
    ∃ s : SharedScreen Bool TypedEditor (Option ShowCandidateList),
      s.sent true = [] ∧ s.follower.visible = true ∧
        Screen.Shown (s.leader true)
          ((s.sent true).foldl CandidateWindow.processed s.follower) := by
  have hrun : ∃ s : SharedScreen Bool TypedEditor (Option ShowCandidateList),
      Run (Guarded (Heard true) (Step id)) twoServices inOrder s ∧
      s.last = some true ∧ s.sent true = [] ∧ s.follower.visible = true := by
    refine ⟨_, .head ⟨nofun, rfl⟩ <| .head ⟨fun _ => .inl rfl, rfl⟩ <|
      .head ⟨fun _ => .inl rfl, rfl⟩ <| .head ⟨fun _ => .inl rfl, rfl⟩ <|
      .head ⟨trivial, rfl⟩ <| .head ⟨trivial, rfl⟩ <|
      .single ⟨trivial, rfl⟩, ?_, ?_, ?_⟩
    · decide +kernel
    · decide +kernel
    · decide +kernel
  obtain ⟨s, hrun, hlast, hsent, hvisible⟩ := hrun
  exact ⟨s, hsent, hvisible, shows_last readsBack_option rfl (by decide) hrun hlast⟩

/-- The order of commands on different connections matters: the list of the second service is
hidden by that of the first. -/
theorem SharedScreen.hidden_by_late_hide :
    ¬ ∀ s : SharedScreen Bool TypedEditor (Option ShowCandidateList),
      Run (Step id) twoServices hideLate s → s.sent true = [] →
      Screen.Shown (s.leader true) s.follower := by
  intro hclaim
  have hrun : ∃ s : SharedScreen Bool TypedEditor (Option ShowCandidateList),
      Run (Step id) twoServices hideLate s ∧ s.sent true = [] ∧
      (s.leader true).tip.candidateList.any (fun list => !list.uiless) = true ∧
      s.follower.visible = false := by
    refine ⟨_, .head rfl <| .head rfl <| .head rfl <| .head rfl <| .head rfl <| .head rfl <|
      .single rfl, ?_, ?_, ?_⟩
    · decide +kernel
    · decide +kernel
    · decide +kernel
  obtain ⟨s, hrun, hsent, hlist, hhidden⟩ := hrun
  obtain ⟨list, hsome, huiless⟩ := (Option.any_eq_true _ _).mp hlist
  have hshown := hclaim s hrun hsent
  unfold Screen.Shown ShowsList at hshown
  rw [hsome] at hshown
  rw [hshown.2 (by simpa using huiless)] at hhidden
  cases hhidden

end ChewingTsf
