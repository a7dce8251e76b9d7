import ChewingTsf.Core.Ipc
import ChewingTsf.Lib.Run

/-!
# The candidate window and the connections it is shared by

The host has one candidate window for all text services. It appears with a
`ShowCandidateList` command and disappears with a `HideCandidateList` command
(crates/chewing_tip_host/src/ui/event_loop.rs); `ipc_loop` ends without a command
when its connection does, and `deactivate` of the text service drops its end of
the pipe without hiding the list. A list that is on screen, or still on its way,
when its connection closes stays on screen.

`Desktop.Covered` is the invariant behind the runs in which every connection that
closes has withdrawn its list: whatever number of the commands on the channel is
processed, the list on screen belongs to an open connection.
-/

namespace ChewingTsf

universe u v

/-- The candidate window: the model it draws, and whether it is visible. -/
structure CandidateWindow where
  model : ShowCandidateList
  visible : Bool
  deriving DecidableEq

/-- What `MainLoop::process` does to the candidate window: `none` if the
parameters cannot be decoded. The other methods leave the window alone. -/
def MainLoop.process {Value : Type v} [JsonValue Value ShowCandidateList]
    [JsonValue Value HideCandidateList] (cmd : MethodCall Value) (w : CandidateWindow) :
    Option CandidateWindow :=
  if cmd.method = ShowCandidateList.METHOD then
    (JsonValue.fromValue cmd.parameters : Option ShowCandidateList).map fun params =>
      { model := params, visible := true }
  else if cmd.method = HideCandidateList.METHOD then
    (JsonValue.fromValue cmd.parameters : Option HideCandidateList).map fun _ =>
      { w with visible := false }
  else some w

/-- The commands of a text service's `CandidateList`: `show` and `hide`. -/
def CandidateList.showCall {Value : Type v} [JsonValue Value ShowCandidateList]
    (model : ShowCandidateList) : MethodCall Value :=
  ⟨ShowCandidateList.METHOD, JsonValue.toValue model, some true, none, none⟩

def CandidateList.hideCall {Value : Type v} [JsonValue Value HideCandidateList] :
    MethodCall Value :=
  ⟨HideCandidateList.METHOD, JsonValue.toValue HideCandidateList.mk, some true, none, none⟩

/-- A connection to the host. -/
inductive Connection where
  | notYet
  | «open»
  | closed
  deriving DecidableEq

/-- How a connection closes. -/
inductive Closing where
  /-- `deactivate`: the `ChewingTextService` is dropped -/
  | deactivate
  | exit
  | crash
  deriving DecidableEq

/-- The host and its connections, named by `ι`. -/
structure Desktop (ι : Type u) (Value : Type v) where
  connection : ι → Connection
  /-- the commands on their way to the main loop, oldest first -/
  channel : List (ι × MethodCall Value)
  window : CandidateWindow
  /-- the connection of the last `ShowCandidateList` that was processed -/
  lastShow : Option ι
  /-- the process has ended -/
  exited : Bool

def Desktop.init (ι : Type u) (Value : Type v) : Desktop ι Value :=
  ⟨fun _ => .notYet, [], ⟨.default, false⟩, none, false⟩

/-- What happens in the host; what a client writes is in its pipe until the client's thread
reads it. -/
inductive DesktopStep (ι : Type u) (Value : Type v) where
  | connect (i : ι)
  /-- the IPC thread of `i` has read a command, and hands it to the main loop -/
  | command (i : ι) (cmd : MethodCall Value)
  /-- the main loop processes the oldest command -/
  | process
  /-- `ipc_loop` meets the end of the pipe, behind all that the client wrote -/
  | close (i : ι) (how : Closing)

section

variable {ι : Type u} {Value : Type v} [JsonValue Value ShowCandidateList]
  [JsonValue Value HideCandidateList]

/-- `command_loop`, for one command. -/
def Desktop.processed (s : Desktop ι Value) (i : ι) (cmd : MethodCall Value) : Desktop ι Value :=
  if cmd.method = Stop.METHOD then
    -- the process exits, and its window with it
    { s with exited := true, window := { s.window with visible := false } }
  else
    match MainLoop.process cmd s.window with
    | none => s
    | some window =>
      { s with
        window := window
        lastShow := if cmd.method = ShowCandidateList.METHOD then some i else s.lastShow }

/-- One step of the host and its connections: a connection is open until `ipc_loop` meets the
end of its pipe, however long its client has been gone. -/
inductive Desktop.Step [DecidableEq ι] :
    Desktop ι Value → DesktopStep ι Value → Desktop ι Value → Prop
  | connect {s : Desktop ι Value} {i : ι} (hnew : s.connection i = .notYet) :
      Step s (.connect i) { s with connection := Function.update s.connection i .open }
  | command {s : Desktop ι Value} {i : ι} {cmd : MethodCall Value}
      (hopen : s.connection i = .open) :
      Step s (.command i cmd) { s with channel := s.channel ++ [(i, cmd)] }
  | process {s : Desktop ι Value} {i : ι} {cmd : MethodCall Value}
      {rest : List (ι × MethodCall Value)} (hrunning : s.exited = false)
      (hchannel : s.channel = (i, cmd) :: rest) :
      Step s .process ({ s with channel := rest }.processed i cmd)
  | close {s : Desktop ι Value} {i : ι} (how : Closing) (hopen : s.connection i = .open) :
      Step s (.close i how) { s with connection := Function.update s.connection i .closed }

omit [JsonValue Value ShowCandidateList] [JsonValue Value HideCandidateList] in
/-- A visible candidate window belongs to a connection that is still open. -/
def Desktop.NoOrphan (s : Desktop ι Value) : Prop :=
  s.window.visible = true → ∃ i, s.lastShow = some i ∧ s.connection i = .open

/-! ## Whose list is on screen -/

omit [JsonValue Value ShowCandidateList] [JsonValue Value HideCandidateList] in
/-- The connection whose list is on screen. -/
def Desktop.owner (s : Desktop ι Value) : Option ι :=
  if s.window.visible then s.lastShow else none

/-- Whose list is on screen once a command other than `Stop` is processed. -/
def ownerAfter (o : Option ι) (c : ι × MethodCall Value) : Option ι :=
  if c.2.method = ShowCandidateList.METHOD then
    if (JsonValue.fromValue c.2.parameters : Option ShowCandidateList).isSome then some c.1 else o
  else if c.2.method = HideCandidateList.METHOD then
    if (JsonValue.fromValue c.2.parameters : Option HideCandidateList).isSome then none else o
  else o

/-- Whose lists are on screen, one after the other, while the channel is
processed. -/
def ownersAhead (o : Option ι) : List (ι × MethodCall Value) → List (Option ι)
  | [] => [o]
  | c :: rest =>
    if c.2.method = Stop.METHOD then [o] else o :: ownersAhead (ownerAfter o c) rest

theorem mem_ownersAhead (o : Option ι) (channel : List (ι × MethodCall Value)) :
    o ∈ ownersAhead o channel := by
  cases channel with
  | nil => exact List.mem_cons_self
  | cons c rest =>
    rw [ownersAhead]
    split <;> exact List.mem_cons_self

theorem ownersAhead_tail {o o' : Option ι} {c : ι × MethodCall Value}
    {rest : List (ι × MethodCall Value)} (hstop : c.2.method ≠ Stop.METHOD)
    (h : o' ∈ ownersAhead (ownerAfter o c) rest) : o' ∈ ownersAhead o (c :: rest) := by
  rw [ownersAhead, if_neg hstop]
  exact List.mem_cons_of_mem _ h

theorem ownerAfter_eq {o : Option ι} {c : ι × MethodCall Value} {j : ι}
    (h : ownerAfter o c = some j) : o = some j ∨ c.1 = j := by
  unfold ownerAfter at h
  split at h
  · split at h
    · exact .inr (Option.some.inj h)
    · exact .inl h
  · split at h
    · split at h
      · cases h
      · exact .inl h
    · exact .inl h

/-- A new command adds its own connection to those ahead, and no other. -/
theorem ownersAhead_append {o : Option ι} {channel : List (ι × MethodCall Value)}
    {c : ι × MethodCall Value} {j : ι} (h : some j ∈ ownersAhead o (channel ++ [c])) :
    some j ∈ ownersAhead o channel ∨ c.1 = j := by
  induction channel generalizing o with
  | nil =>
    rw [List.nil_append, ownersAhead] at h
    split at h
    · exact .inl h
    · rcases List.mem_cons.mp h with ho | hafter
      · exact .inl (by rw [ho]; exact List.mem_cons_self)
      · rw [ownersAhead, List.mem_singleton] at hafter
        rcases ownerAfter_eq hafter.symm with ho | hj
        · exact .inl (by rw [ho]; exact List.mem_cons_self)
        · exact .inr hj
  | cons d rest ih =>
    rw [List.cons_append, ownersAhead] at h
    rw [ownersAhead]
    split at h
    next hstop => rw [if_pos hstop]; exact .inl h
    next hstop =>
      rw [if_neg hstop]
      rcases List.mem_cons.mp h with ho | hrest
      · exact .inl (by rw [ho]; exact List.mem_cons_self)
      · rcases ih hrest with hahead | hj
        · exact .inl (List.mem_cons_of_mem _ hahead)
        · exact .inr hj

/-- `MainLoop::process`, on a decoded `ShowCandidateList` or `HideCandidateList`,
decides who owns the window. -/
theorem Desktop.processed_owner (s : Desktop ι Value) (i : ι) {cmd : MethodCall Value}
    (hstop : cmd.method ≠ Stop.METHOD) :
    (s.processed i cmd).owner = ownerAfter s.owner (i, cmd) := by
  unfold Desktop.processed ownerAfter MainLoop.process
  rw [if_neg hstop]
  by_cases hshow : cmd.method = ShowCandidateList.METHOD
  · simp only [if_pos hshow]
    cases (JsonValue.fromValue cmd.parameters : Option ShowCandidateList) with
    | none => rfl
    | some params => rfl
  · simp only [if_neg hshow]
    by_cases hhide : cmd.method = HideCandidateList.METHOD
    · simp only [if_pos hhide]
      cases (JsonValue.fromValue cmd.parameters : Option HideCandidateList) with
      | none => rfl
      | some params => rfl
    · simp only [if_neg hhide]

theorem Desktop.processed_connection (s : Desktop ι Value) (i : ι) (cmd : MethodCall Value) :
    (s.processed i cmd).connection = s.connection ∧ (s.processed i cmd).channel = s.channel := by
  unfold Desktop.processed
  split
  · exact ⟨rfl, rfl⟩
  · split <;> exact ⟨rfl, rfl⟩

theorem Desktop.processed_exited (s : Desktop ι Value) (i : ι) {cmd : MethodCall Value}
    (hstop : cmd.method ≠ Stop.METHOD) : (s.processed i cmd).exited = s.exited := by
  unfold Desktop.processed
  rw [if_neg hstop]
  split <;> rfl

/-- The window never becomes visible without a `ShowCandidateList`. -/
theorem Desktop.processed_lastShow {s : Desktop ι Value} (i : ι) (cmd : MethodCall Value)
    (h : s.window.visible = true → s.lastShow.isSome) :
    (s.processed i cmd).window.visible = true → (s.processed i cmd).lastShow.isSome := by
  unfold Desktop.processed MainLoop.process
  split
  · exact fun hvisible => absurd hvisible Bool.false_ne_true
  · by_cases hshow : cmd.method = ShowCandidateList.METHOD
    · simp only [if_pos hshow]
      cases (JsonValue.fromValue cmd.parameters : Option ShowCandidateList) with
      | none => exact h
      | some params => exact fun _ => rfl
    · simp only [if_neg hshow]
      by_cases hhide : cmd.method = HideCandidateList.METHOD
      · simp only [if_pos hhide]
        cases (JsonValue.fromValue cmd.parameters : Option HideCandidateList) with
        | none => exact h
        | some params => exact fun hvisible => absurd hvisible Bool.false_ne_true
      · simp only [if_neg hhide]
        exact h

/-! ## Connections that withdraw their lists -/

/-- The condition on a step: a connection closes only when its list is not on
screen and will not be, with the commands that are on their way. -/
def Desktop.Withdrawn (s : Desktop ι Value) : DesktopStep ι Value → Prop
  | .close i _ => s.exited = false → some i ∉ ownersAhead s.owner s.channel
  | _ => True

/-- The invariant: whatever is on screen now and while the channel is processed
belongs to an open connection. -/
structure Desktop.Covered (s : Desktop ι Value) : Prop where
  shown : s.window.visible = true → s.lastShow.isSome
  gone : s.exited = true → s.window.visible = false
  ahead : s.exited = false → ∀ i, some i ∈ ownersAhead s.owner s.channel → s.connection i = .open

theorem Desktop.Covered.noOrphan {s : Desktop ι Value} (h : s.Covered) : s.NoOrphan := by
  intro hvisible
  obtain ⟨i, hi⟩ := Option.isSome_iff_exists.mp (h.shown hvisible)
  have howner : s.owner = some i := by rw [Desktop.owner, if_pos hvisible, hi]
  have hrunning : s.exited = false := by
    cases hexited : s.exited with
    | true => rw [h.gone hexited] at hvisible; cases hvisible
    | false => rfl
  exact ⟨i, hi, h.ahead hrunning i (howner ▸ mem_ownersAhead _ _)⟩

theorem Desktop.covered_init : (Desktop.init ι Value).Covered where
  shown h := absurd h Bool.false_ne_true
  gone _ := rfl
  ahead _ i h := by
    have hnone : some i ∈ [(none : Option ι)] := h
    simp at hnone

/-- Processing the oldest command. -/
theorem Desktop.Covered.processed {s : Desktop ι Value} (h : s.Covered) {i : ι}
    {cmd : MethodCall Value} {rest : List (ι × MethodCall Value)} (hrunning : s.exited = false)
    (hchannel : s.channel = (i, cmd) :: rest) :
    ({ s with channel := rest }.processed i cmd).Covered := by
  by_cases hstop : cmd.method = Stop.METHOD
  · have hexit : { s with channel := rest }.processed i cmd
        = { s with channel := rest, exited := true
                   window := { s.window with visible := false } } := if_pos hstop
    rw [hexit]
    exact ⟨fun hvisible => absurd hvisible Bool.false_ne_true, fun _ => rfl,
      fun hfalse => absurd hfalse Bool.true_eq_false.mp⟩
  · refine ⟨Desktop.processed_lastShow i cmd h.shown, ?_, ?_⟩
    · rw [Desktop.processed_exited _ i hstop]
      intro hexited
      rw [show s.exited = true from hexited] at hrunning
      cases hrunning
    · intro _ j hj
      obtain ⟨hconnection, hrest⟩ := Desktop.processed_connection { s with channel := rest } i cmd
      rw [Desktop.processed_owner _ i hstop, hrest] at hj
      rw [hconnection]
      refine h.ahead hrunning j ?_
      rw [hchannel]
      exact ownersAhead_tail hstop hj

variable [DecidableEq ι]

/-- One step whose closing connections have withdrawn their lists. -/
theorem Desktop.covered_step {s t : Desktop ι Value} {a : DesktopStep ι Value} (h : s.Covered)
    (hok : s.Withdrawn a) (hstep : Desktop.Step s a t) : t.Covered := by
  cases hstep with
  | @connect i hnew =>
    refine ⟨h.shown, h.gone, fun hrunning j hj => ?_⟩
    have hopen := h.ahead hrunning j hj
    show Function.update s.connection i .open j = .open
    by_cases hji : j = i
    · rw [hji, Function.update_self]
    · rw [Function.update_of_ne hji, hopen]
  | @command i cmd hopen =>
    refine ⟨h.shown, h.gone, fun hrunning j hj => ?_⟩
    rcases ownersAhead_append hj with hahead | hij
    · exact h.ahead hrunning j hahead
    · rw [← hij]
      exact hopen
  | process hrunning hchannel => exact h.processed hrunning hchannel
  | @close i how hopen =>
    refine ⟨h.shown, h.gone, fun hrunning j hj => ?_⟩
    have hji : j ≠ i := by
      rintro rfl
      exact hok hrunning hj
    show Function.update s.connection i .closed j = .open
    rw [Function.update_of_ne hji, h.ahead hrunning j hj]

/-- **No orphaned candidate window**, in every run whose connections withdraw
their lists before they close. -/
theorem Desktop.noOrphan_run {s : Desktop ι Value} {ls : List (DesktopStep ι Value)}
    (h : Run (Guarded Desktop.Withdrawn Desktop.Step) (Desktop.init ι Value) ls s) :
    s.NoOrphan :=
  (h.invariant Desktop.covered_init fun hs hstep =>
    Desktop.covered_step hs hstep.1 hstep.2).noOrphan

/-- The main loop processes the channel up to the point where the list of `i` is
on screen. -/
theorem Desktop.run_to_owner {s : Desktop ι Value} {i : ι} (hrunning : s.exited = false)
    (h : some i ∈ ownersAhead s.owner s.channel) :
    ∃ (t : Desktop ι Value) (ls : List (DesktopStep ι Value)),
      Run Desktop.Step s ls t ∧ t.owner = some i ∧ t.connection = s.connection := by
  generalize hchannel : s.channel = channel at h
  induction channel generalizing s with
  | nil => exact ⟨s, [], .refl s, (List.mem_singleton.mp h).symm, rfl⟩
  | cons c rest ih =>
    obtain ⟨j, cmd⟩ := c
    have hhere : s.owner = some i → ∃ (t : Desktop ι Value) (ls : List (DesktopStep ι Value)),
        Run Desktop.Step s ls t ∧ t.owner = some i ∧ t.connection = s.connection :=
      fun howner => ⟨s, [], .refl s, howner, rfl⟩
    rw [ownersAhead] at h
    split at h
    · exact hhere (List.mem_singleton.mp h).symm
    next hstop =>
      rcases List.mem_cons.mp h with howner | hahead
      · exact hhere howner.symm
      · obtain ⟨hconnection, hrest⟩ :=
          Desktop.processed_connection { s with channel := rest } j cmd
        have howner := Desktop.processed_owner { s with channel := rest } j hstop
        obtain ⟨t, ls, hrun, ht, hsame⟩ :=
          ih (s := { s with channel := rest }.processed j cmd)
            (by rw [Desktop.processed_exited _ j hstop]; exact hrunning) hrest
            (by rw [howner]; exact hahead)
        exact ⟨t, _, hrun.head (.process hrunning hchannel), ht, hsame.trans hconnection⟩

/-- The condition is exact: a connection that closes without having withdrawn its
list leaves an orphaned window, at the latest once the channel is processed. -/
theorem Desktop.orphan_of_not_withdrawn {s : Desktop ι Value} {i : ι} {how : Closing}
    (hopen : s.connection i = .open) (h : ¬ s.Withdrawn (.close i how)) :
    ∃ (t : Desktop ι Value) (ls : List (DesktopStep ι Value)),
      Run Desktop.Step s (.close i how :: ls) t ∧ ¬ t.NoOrphan := by
  simp only [Desktop.Withdrawn, Classical.not_imp, not_not] at h
  obtain ⟨t, ls, hrun, howner, hconnection⟩ := Desktop.run_to_owner
    (s := { s with connection := Function.update s.connection i .closed }) h.1 h.2
  replace hconnection : t.connection = Function.update s.connection i .closed := hconnection
  refine ⟨t, ls, hrun.head (.close how hopen), fun hclaim => ?_⟩
  by_cases hvisible : t.window.visible = true
  · rw [Desktop.owner, if_pos hvisible] at howner
    obtain ⟨j, hj, hjopen⟩ := hclaim hvisible
    rw [howner, Option.some.injEq] at hj
    rw [← hj, hconnection, Function.update_self] at hjopen
    cases hjopen
  · rw [Desktop.owner, if_neg hvisible] at howner
    cases howner

end

/-! ## One connection -/

section

/-- The parameters of the two commands: an object, or `null`. -/
scoped instance showParameters : JsonValue (Option ShowCandidateList) ShowCandidateList where
  toValue params := some params
  fromValue value := value

scoped instance hideParameters : JsonValue (Option ShowCandidateList) HideCandidateList where
  toValue _ := none
  fromValue value := if value = none then some ⟨⟩ else none

/-- The window is shown, hidden and only then given up. -/
theorem Desktop.noOrphan_after_hide :
    ∃ s : Desktop Unit (Option ShowCandidateList),
      s.lastShow = some () ∧ s.connection () = .closed ∧ s.NoOrphan := by
  have hrun : ∃ s : Desktop Unit (Option ShowCandidateList),
      Run (Guarded Desktop.Withdrawn Desktop.Step) (Desktop.init _ _)
        [.connect (), .command () (CandidateList.showCall .default), .process,
          .command () CandidateList.hideCall, .process, .close () .deactivate] s ∧
      s.lastShow = some () ∧ s.connection () = .closed := by
    refine ⟨_, .head ⟨trivial, .connect rfl⟩ <| .head ⟨trivial, .command rfl⟩ <|
      .head ⟨trivial, .process rfl rfl⟩ <| .head ⟨trivial, .command rfl⟩ <|
      .head ⟨trivial, .process rfl rfl⟩ <| .single ⟨?_, .close .deactivate rfl⟩, rfl, rfl⟩
    intro _
    decide
  obtain ⟨s, hrun, hshown, hclosed⟩ := hrun
  exact ⟨s, hshown, hclosed, Desktop.noOrphan_run hrun⟩

/-- A text service is deactivated while its candidate list is on screen. -/
theorem Desktop.orphan_after_deactivate :
    ¬ ∀ (s : Desktop Unit (Option ShowCandidateList)) (ls : List (DesktopStep Unit _)),
      Run Desktop.Step (Desktop.init _ _) ls s → s.NoOrphan := by
  intro hclaim
  have hrun : ∃ s : Desktop Unit (Option ShowCandidateList),
      Run Desktop.Step (Desktop.init _ _)
        [.connect (), .command () (CandidateList.showCall .default), .process,
          .close () .deactivate] s ∧
      s.window.visible = true ∧ s.connection () = .closed :=
    ⟨_, .head (.connect rfl) <| .head (.command rfl) <| .head (.process rfl rfl) <|
      .single (.close .deactivate rfl), rfl, rfl⟩
  obtain ⟨s, hrun, hvisible, hclosed⟩ := hrun
  obtain ⟨⟨⟩, -, hopen⟩ := hclaim s _ hrun hvisible
  rw [hclosed] at hopen
  cases hopen

end

end ChewingTsf
