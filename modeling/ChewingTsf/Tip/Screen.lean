import ChewingTsf.Host.CandidateWindow
import ChewingTsf.Tip.UiElements

/-!
# The candidate list on screen

The service holds the candidate list and the host draws it: every change of the list is
sent as a `ShowCandidateList` or a `HideCandidateList` command, which the main loop
processes later. The pipe can break in between, and the host can end and be started again
with no window; what the service then does to the list is not told to anyone until
`on_test_keydown` has connected again.

`Screen.shows_run` says when the window never shows anything but the list, and
`Screen.mends` that one command that arrives is enough to put it right. An application
that draws the list itself (`uiless`) does not keep the host from drawing it too: the
next page is sent in any case.
-/

namespace ChewingTsf

open Following

/-- The window draws this list, if the host is to draw it, and no other. -/
def ShowsList (l : Option CandidateList) (w : CandidateWindow) : Prop :=
  match l with
  | none => w.visible = false
  | some list => (w.visible = true → w.model = list.model) ∧
      (list.uiless = false → w.visible = true)

section

variable {Value : Type*} [JsonValue Value ShowCandidateList] [JsonValue Value HideCandidateList]

/-- The command that a request sends to the host. -/
def UiRequest.command : UiRequest → Option (MethodCall Value)
  | .showCandidateList model => some (CandidateList.showCall model)
  | .hideCandidateList => some CandidateList.hideCall
  | .beginUiElement | .updateUiElement | .endUiElement => none

/-- The commands that a call of the list sends. -/
def ListCall.commands [KeyTables] (l : Option CandidateList) (c : ListCall) :
    List (MethodCall Value) :=
  (c.requests l).filterMap UiRequest.command

theorem ListCall.commands_filterKeyEvent [KeyTables]
    (ksym : Keysym) (list : CandidateList) :
    ((ListCall.filterKeyEvent ksym).commands (some list) : List (MethodCall Value)) =
      if (list.filterKeyEvent ksym).1 = .handled then
        [CandidateList.showCall (list.filterKeyEvent ksym).2.model]
      else [] := by
  show (UiRequest.updateUiElement :: if (list.filterKeyEvent ksym).1 = .handled then
    [UiRequest.showCandidateList (list.filterKeyEvent ksym).2.model] else []).filterMap
      UiRequest.command = _
  by_cases hhandled : (list.filterKeyEvent ksym).1 = .handled
  · rw [if_pos hhandled, if_pos hhandled]
    rfl
  · rw [if_neg hhandled, if_neg hhandled]
    rfl

/-- `command_loop`, on the window: an error is only logged. -/
def CandidateWindow.processed (w : CandidateWindow) (cmd : MethodCall Value) : CandidateWindow :=
  (MainLoop.process cmd w).getD w

/-- `serde_json` reads the parameters of the two commands back as they were written. -/
structure ReadsBack (Value : Type*) [JsonValue Value ShowCandidateList]
    [JsonValue Value HideCandidateList] : Prop where
  showCandidateList : ∀ model : ShowCandidateList,
    (JsonValue.fromValue (JsonValue.toValue model : Value)) = some model
  hideCandidateList : ∀ params : HideCandidateList,
    (JsonValue.fromValue (JsonValue.toValue params : Value)) = some params

end

section Model

variable {E : Type} {Value : Type*} [EditorCommands E] [KeyCodes]
  [JsonValue Value ShowCandidateList] [JsonValue Value HideCandidateList]

/-- The commands that an event sends. -/
def ListEvent.commands (k : Keyboard E) (e : ListEvent) : List (MethodCall Value) :=
  e.reports ListCall.commands k

omit [EditorCommands E] [KeyCodes] [JsonValue Value ShowCandidateList]
  [JsonValue Value HideCandidateList] in
/-- The service, the commands on their way to the main loop, and the window. -/
abbrev Screen (E : Type) (Value : Type*) :=
  Following (Keyboard E) (MethodCall Value) CandidateWindow

namespace Screen

/-- The window of a host that has just started. -/
def noWindow : CandidateWindow := ⟨.default, false⟩

/-- The window shows the list that the service holds. -/
def Shown (k : Keyboard E) (w : CandidateWindow) : Prop := ShowsList k.tip.candidateList w

/-- The service, the pipe or the host takes a step. -/
def after (zhconv : Str → Str) (s : Screen E Value) (a : FollowingStep ListEvent) :
    Screen E Value :=
  Following.after (ListEvent.next zhconv) (fun k e => e.commands k) CandidateWindow.processed
    noWindow s a

def Step (zhconv : Str → Str) (s : Screen E Value) (a : FollowingStep ListEvent)
    (s' : Screen E Value) : Prop := s' = s.after zhconv a

/-- No command is lost: there is a connection when one is sent, and the host does not end
while it is to draw a list. -/
def Heard (s : Screen E Value) (a : FollowingStep ListEvent) : Prop :=
  Following.Heard (fun k e => e.commands k) noWindow Shown s a

/-- The service has just been activated, and the host has no window. -/
def start (env : ActivateEnv) (editor : E) (document : Document) (grant : Grant)
    (openclose : Option Int) (linked : Bool) : Screen E Value :=
  ⟨.activate env editor document grant openclose, linked, [], noWindow⟩

end Screen

end Model

/-! ## One call of the list -/

section

variable {Value : Type*} [JsonValue Value ShowCandidateList] [JsonValue Value HideCandidateList]
  (hjson : ReadsBack Value)
include hjson

theorem CandidateWindow.processed_show (w : CandidateWindow) (model : ShowCandidateList) :
    w.processed (CandidateList.showCall model : MethodCall Value) = ⟨model, true⟩ := by
  show (if ShowCandidateList.METHOD = ShowCandidateList.METHOD then
    (JsonValue.fromValue (JsonValue.toValue model : Value) : Option ShowCandidateList).map _
    else _).getD w = _
  rw [if_pos rfl, hjson.showCandidateList]
  rfl

theorem CandidateWindow.processed_hide (w : CandidateWindow) :
    w.processed (CandidateList.hideCall : MethodCall Value) = { w with visible := false } := by
  show (if HideCandidateList.METHOD = ShowCandidateList.METHOD then _
    else if HideCandidateList.METHOD = HideCandidateList.METHOD then
      (JsonValue.fromValue (JsonValue.toValue HideCandidateList.mk : Value) :
        Option HideCandidateList).map _
    else _).getD w = _
  rw [if_neg (by decide), if_pos rfl, hjson.hideCandidateList]
  rfl

variable [KeyTables]

/-- A call that sends a command puts the window right. -/
theorem alwaysRefreshes_showsList (l : Option CandidateList) (c : ListCall) (h : c.Possible l) :
    AlwaysRefreshes (@CandidateWindow.processed Value _ _) ShowsList (c.commands l)
      (c.next l) := by
  have hshows : ∀ list : CandidateList, AlwaysRefreshes CandidateWindow.processed ShowsList
      [(CandidateList.showCall list.model : MethodCall Value)] (some list) :=
    fun list => .single fun w => by
      show ShowsList (some list) (w.processed _)
      rw [CandidateWindow.processed_show hjson]
      exact ⟨fun _ => rfl, fun _ => rfl⟩
  cases c with
  | new shouldShow =>
    cases shouldShow with
    | true => exact hshows ⟨.default, false⟩
    | false => exact .nil _
  | refresh model =>
    obtain ⟨list, rfl⟩ := Option.isSome_iff_exists.mp h
    exact hshows (list.setModel model)
  | filterKeyEvent ksym =>
    obtain ⟨list, rfl⟩ := Option.isSome_iff_exists.mp h
    rw [ListCall.commands_filterKeyEvent]
    split
    · exact hshows (list.filterKeyEvent ksym).2
    · exact .nil _
  | endUiElement =>
    -- without a list, the window is to be hidden
    refine .single fun w => ?_
    show (w.processed CandidateList.hideCall).visible = false
    rw [CandidateWindow.processed_hide hjson]
  | showUiElement shown =>
    obtain ⟨list, rfl⟩ := Option.isSome_iff_exists.mp h
    cases shown with
    | true => exact hshows (list.showUiElement true)
    | false => exact .nil _

/-- Any call keeps the window right. -/
theorem tracks_showsList (l : Option CandidateList) (c : ListCall) (h : c.Possible l) :
    Tracks (@CandidateWindow.processed Value _ _) ShowsList l (c.commands l)
      (c.next l) := by
  by_cases hne : (c.commands l : List (MethodCall Value)) = []
  · -- nothing is sent: what the window is to show is as before
    rw [hne]
    intro w hw
    cases c with
    | new shouldShow =>
      obtain rfl : l = none := h
      replace hw : w.visible = false := hw
      cases shouldShow with
      | true => cases hne
      | false => exact ⟨fun hvisible => absurd (hw.symm.trans hvisible) Bool.false_ne_true, nofun⟩
    | refresh model => cases hne
    | filterKeyEvent ksym =>
      obtain ⟨list, rfl⟩ := Option.isSome_iff_exists.mp h
      -- a key that is not handled has not moved the selection either
      rw [ListCall.commands_filterKeyEvent] at hne
      by_cases hhandled : (list.filterKeyEvent ksym).1 = .handled
      · rw [if_pos hhandled] at hne
        cases hne
      · rw [CandidateList.handled_iff, not_not] at hhandled
        replace hhandled : list.moved ksym = list.model.currentSel := hhandled
        show ShowsList (some { list with model := { list.model with
          currentSel := list.moved ksym } }) w
        rw [hhandled]
        exact hw
    | endUiElement => cases hne
    | showUiElement shown =>
      obtain ⟨list, rfl⟩ := Option.isSome_iff_exists.mp h
      cases shown with
      | true => cases hne
      | false => exact ⟨hw.1, nofun⟩
  · exact ((alwaysRefreshes_showsList hjson l c h).refreshes hne).tracks l

end

/-! ## The service and its host -/

namespace Screen

variable {E : Type} {Value : Type*} [EditorCommands E] [KeyCodes]
  [JsonValue Value ShowCandidateList] [JsonValue Value HideCandidateList]

theorem tracks_shown (hjson : ReadsBack Value) (zhconv : Str → Str) (k : Keyboard E)
    (e : ListEvent) :
    Tracks (@CandidateWindow.processed Value _ _) Shown k (e.commands k)
      (e.next zhconv k) :=
  e.tracks zhconv (tracks_showsList hjson) k

theorem alwaysRefreshes_shown (hjson : ReadsBack Value) (zhconv : Str → Str) (k : Keyboard E)
    (e : ListEvent) :
    AlwaysRefreshes (@CandidateWindow.processed Value _ _) Shown (e.commands k)
      (e.next zhconv k) :=
  e.alwaysRefreshes zhconv (tracks_showsList hjson) (alwaysRefreshes_showsList hjson) k

/-- **The window shows the list** in every run in which no command is lost: as soon as the
main loop has processed the commands on their way, it draws the list the service holds if
the host is to draw it, and no other. -/
theorem shows_run (hjson : ReadsBack Value) (zhconv : Str → Str) {env : ActivateEnv}
    {editor : E} {document : Document} {grant : Grant} {openclose : Option Int} {linked : Bool}
    {ls : List (FollowingStep ListEvent)} {s : Screen E Value}
    (hrun : Run (Guarded Heard (Step zhconv))
      (start env editor document grant openclose linked) ls s) :
    Shown s.leader (s.sent.foldl CandidateWindow.processed s.follower) := by
  refine inStep_run (tracks_shown hjson zhconv) ?_ hrun
  show ShowsList (Keyboard.activate env editor document grant openclose).tip.candidateList noWindow
  rw [Keyboard.activate_candidateList]
  rfl

/-- **One command mends the window**: whatever was lost before, an event that sends a
command over an open connection puts the window right, and it stays right for as long as
no command is lost. -/
theorem mends (hjson : ReadsBack Value) (zhconv : Str → Str) {s s' : Screen E Value}
    {e : ListEvent} (hlinked : s.linked = true)
    (hsends : (e.commands s.leader : List (MethodCall Value)) ≠ [])
    {ls : List (FollowingStep ListEvent)}
    (hrun : Run (Guarded Heard (Step zhconv)) (s.after zhconv (.act e)) ls s') :
    Shown s'.leader (s'.sent.foldl CandidateWindow.processed s'.follower) := by
  refine inStep_run (tracks_shown hjson zhconv) ?_ hrun
  exact inStep_of_refreshes hlinked
    ((alwaysRefreshes_shown hjson zhconv s.leader e).refreshes hsends)

end Screen

/-! ## A list for examples -/

namespace TypedEditor

theorem readsBack_option : ReadsBack (Option ShowCandidateList) where
  showCandidateList _ := rfl
  hideCandidateList _ := rfl

/-- A key, as TSF reports it. -/
def keyEvent (ksym : Keysym) : ListEvent :=
  .call (.keyDown (keydownEnv .default) fun _ => ScriptedEditor.plainKey ksym)

/-- The candidates of a syllable are open, and the window shows an empty list. -/
def staleScreen : Screen TypedEditor (Option ShowCandidateList) :=
  ⟨{ activated .default with tip := choosing }, true, [], ⟨.default, true⟩⟩

end TypedEditor

open TypedEditor

/-- A syllable is typed and its candidates are opened: the host draws them. -/
theorem Screen.shows_choosing : ∃ s : Screen TypedEditor (Option ShowCandidateList),
    s.sent = [] ∧ s.follower.visible = true ∧
      Shown s.leader (s.sent.foldl CandidateWindow.processed s.follower) := by
  have hrun : ∃ s : Screen TypedEditor (Option ShowCandidateList),
      Run (Guarded Heard (Step id))
        (start ⟨⟨.ok .default, some [], some []⟩, modeEnv, true⟩ blank ⟨[], 0, none⟩ .immediate
          none true)
        [.act (keyEvent ⟨0x61⟩), .act (keyEvent ⟨0x61⟩), .act (keyEvent symDown), .deliver,
          .deliver] s ∧
      s.sent = [] ∧ s.follower.visible = true := by
    refine ⟨_, .head ⟨.inl rfl, rfl⟩ <| .head ⟨.inl rfl, rfl⟩ <| .head ⟨.inl rfl, rfl⟩ <|
      .head ⟨trivial, rfl⟩ <| .single ⟨trivial, rfl⟩, ?_, ?_⟩
    · decide +kernel
    · decide +kernel
  obtain ⟨s, hrun, hsent, hvisible⟩ := hrun
  exact ⟨s, hsent, hvisible, shows_run readsBack_option id hrun⟩

/-- The focus is lost while the window shows an old page. -/
theorem Screen.mends_killFocus :
    ∃ s : Screen TypedEditor (Option ShowCandidateList), s.leader.tip.candidateList = none ∧
      Shown s.leader (s.sent.foldl CandidateWindow.processed s.follower) :=
  ⟨_, rfl, mends (s := staleScreen) (e := .call (.setFocus true true)) readsBack_option id rfl
    (by decide +kernel) (.refl _)⟩

end ChewingTsf
