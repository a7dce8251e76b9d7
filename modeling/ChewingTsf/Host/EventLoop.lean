import ChewingTsf.Lib.Run
import ChewingTsf.Core.Ipc

/-!
# The UI main loop of the host (crates/chewing_tip_host/src/ui/event_loop.rs)

Two queues join the IPC threads to the main thread: the thread's Windows
message queue, which wakes the main loop, and a bounded `sync_channel`, which
carries the commands. `MainLoopHandle::send` posts the wake-up *before* it puts
the command on the channel, so a drain that falls between the two steps finds
nothing and the command that follows has no wake-up left.

The model is a transition system over any number of threads. `UndisturbedDrain`
is the condition on a step under which no wake-up is lost, and `Awake` the
invariant it maintains: while a command is on its way, the main loop is draining
or has a wake-up queued.
-/

namespace ChewingTsf

universe u v

/-- A message of the main thread's queue (`MSG`): `hwnd` is `none` for a message
posted to the thread (`msg.hwnd.is_invalid()`). -/
structure Msg where
  hwnd : Option Nat
  message : UInt32
  deriving DecidableEq

def WM_QUIT : UInt32 := 0x0012
def WM_APP : UInt32 := 0x8000
def PM_APP_COMMAND : UInt32 := WM_APP + 1

/-- What `MainLoopHandle::send` posts: `PostThreadMessageW(.., PM_APP_COMMAND, ..)`. -/
def Msg.appCommand : Msg := ⟨none, PM_APP_COMMAND⟩

/-- The test `run` makes on a retrieved message. -/
def Msg.isAppCommand (m : Msg) : Bool := m.hwnd.isNone && m.message == PM_APP_COMMAND

/-- The capacity of the channel (`sync_channel(130)`). -/
def channelBound : Nat := 130

/-- Where the main thread is. -/
inductive MainPc where
  /-- in `GetMessageW` -/
  | getMessage
  /-- in `command_loop` -/
  | commandLoop
  /-- `run` has returned or the process has exited -/
  | exited
  deriving DecidableEq

/-- The host as the main loop and its handles see it: `ι` names the IPC threads. -/
structure Host (ι : Type u) (Value : Type v) where
  messages : List Msg
  channel : List (MethodCall Value)
  /-- the command of a thread that has posted the wake-up and not yet sent it -/
  sending : ι → Option (MethodCall Value)
  main : MainPc
  /-- the commands put on the channel, in order -/
  sent : List (MethodCall Value)
  /-- the commands taken off the channel by `command_loop`, in order -/
  processed : List (MethodCall Value)

/-- The host once `MainLoop::new` is done. -/
def Host.init (ι : Type u) (Value : Type v) : Host ι Value :=
  ⟨[], [], fun _ => none, .getMessage, [], []⟩

/-- The atomic steps of the threads. -/
inductive HostStep (ι : Type u) (Value : Type v) where
  /-- `send` of thread `i`: `PostThreadMessageW` succeeds -/
  | post (i : ι) (cmd : MethodCall Value)
  /-- `send` of thread `i`: `PostThreadMessageW` fails and `?` returns -/
  | postFails (i : ι) (cmd : MethodCall Value)
  /-- `send` of thread `i`: `self.sender.send(msg)` -/
  | enqueue (i : ι)
  /-- any other message arrives in the main thread's queue -/
  | windowMessage (m : Msg)
  /-- `GetMessageW` returns the oldest message -/
  | retrieve
  /-- dispatching a message ends the process (`wnd_proc`) -/
  | windowExit
  /-- `try_iter` yields a command -/
  | receive
  /-- `try_iter` finds the channel empty: `command_loop` returns -/
  | drained

variable {ι : Type u} {Value : Type v} [DecidableEq ι]

/-- Where `run` goes with a retrieved message. -/
def MainPc.afterRetrieve (m : Msg) : MainPc :=
  if m.message = WM_QUIT then .exited
  else if m.isAppCommand then .commandLoop
  else .getMessage

/-- One step of the host. -/
inductive Host.Step : Host ι Value → HostStep ι Value → Host ι Value → Prop
  | post {s : Host ι Value} {i : ι} {cmd : MethodCall Value}
      (hidle : s.sending i = none) :
      Step s (.post i cmd)
        { s with messages := s.messages ++ [Msg.appCommand]
                 sending := fun j => if j = i then some cmd else s.sending j }
  | postFails {s : Host ι Value} {i : ι} {cmd : MethodCall Value}
      (hidle : s.sending i = none) :
      Step s (.postFails i cmd) s
  | enqueue {s : Host ι Value} {i : ι} {cmd : MethodCall Value}
      (hsending : s.sending i = some cmd) (hroom : s.channel.length < channelBound) :
      Step s (.enqueue i)
        { s with channel := s.channel ++ [cmd]
                 sent := s.sent ++ [cmd]
                 sending := fun j => if j = i then none else s.sending j }
  | windowMessage {s : Host ι Value} {m : Msg} (hother : m.isAppCommand = false) :
      Step s (.windowMessage m) { s with messages := s.messages ++ [m] }
  | retrieve {s : Host ι Value} {m : Msg} {rest : List Msg}
      (hmain : s.main = .getMessage) (hmsg : s.messages = m :: rest) :
      Step s .retrieve { s with messages := rest, main := .afterRetrieve m }
  | windowExit {s : Host ι Value} (hmain : s.main = .getMessage) :
      Step s .windowExit { s with main := .exited }
  | receive {s : Host ι Value} {cmd : MethodCall Value} {rest : List (MethodCall Value)}
      (hmain : s.main = .commandLoop) (hchan : s.channel = cmd :: rest) :
      Step s .receive
        { s with channel := rest
                 processed := s.processed ++ [cmd]
                 main := if cmd.method = Stop.METHOD then .exited else .commandLoop }
  | drained {s : Host ι Value} (hmain : s.main = .commandLoop) (hchan : s.channel = []) :
      Step s .drained { s with main := .getMessage }

/-- A thread is between the two steps of `send`. -/
def Host.InSend (s : Host ι Value) : Prop := ∃ i, s.sending i ≠ none

/-- A wake-up is waiting in the message queue. -/
def Host.WakeUpQueued (s : Host ι Value) : Prop := ∃ m ∈ s.messages, m.isAppCommand

/-- Nobody will wake the main loop: no thread is inside `send`, no
`PM_APP_COMMAND` is queued and the main loop is blocked in `GetMessageW`. -/
def Host.Quiescent (s : Host ι Value) : Prop :=
  ¬ s.InSend ∧ ¬ s.WakeUpQueued ∧ s.main = .getMessage

/-- Every command that was sent has been processed. -/
def Host.AllProcessed (s : Host ι Value) : Prop :=
  s.channel = [] ∧ s.processed = s.sent

/-! ## Commands on the channel -/

/-- The channel holds exactly the commands that were sent and not processed. -/
theorem Host.sent_eq {s : Host ι Value} {ls : List (HostStep ι Value)}
    (h : Run Host.Step (Host.init ι Value) ls s) :
    s.sent = s.processed ++ s.channel := by
  refine h.invariant (I := fun s => s.sent = s.processed ++ s.channel) rfl ?_
  intro s a t hs hstep
  cases hstep with
  | enqueue => simp [hs]
  | receive _ hchan => simpa [hchan] using hs
  | drained _ hchan => exact hs
  | _ => exact hs

/-! ## No lost wake-up, where the drain is undisturbed -/

/-- The condition on a step: `command_loop` does not find the channel empty and
go back to `GetMessageW` while a thread is inside `send`, unless another
`PM_APP_COMMAND` is already queued. -/
def Host.UndisturbedDrain (s : Host ι Value) : HostStep ι Value → Prop
  | .drained => s.InSend → s.WakeUpQueued
  | _ => True

/-- The invariant: while a command is on its way or on the channel, the main
loop is draining, or will be woken, or is gone. -/
def Host.Awake (s : Host ι Value) : Prop :=
  s.InSend ∨ s.channel ≠ [] → s.WakeUpQueued ∨ s.main ≠ .getMessage

omit [DecidableEq ι] in
theorem Host.awake_init : (Host.init ι Value).Awake := by
  rintro (⟨i, hi⟩ | hc)
  · exact absurd rfl hi
  · exact absurd rfl hc

omit [DecidableEq ι] in
theorem Host.WakeUpQueued.append {s t : Host ι Value} {m : Msg}
    (h : s.WakeUpQueued) (ht : t.messages = s.messages ++ [m]) : t.WakeUpQueued := by
  obtain ⟨w, hw, hcmd⟩ := h
  exact ⟨w, by rw [ht]; exact List.mem_append_left _ hw, hcmd⟩

/-- One undisturbed step keeps the main loop awake. -/
theorem Host.awake_step {s t : Host ι Value} {a : HostStep ι Value}
    (h : s.Awake) (hok : s.UndisturbedDrain a) (hstep : Host.Step s a t) : t.Awake := by
  cases hstep with
  | post => exact fun _ => .inl ⟨Msg.appCommand, by simp, rfl⟩
  | postFails => exact h
  | @enqueue i cmd hsending _ =>
    -- the sender was inside `send`, so the main loop was already awake
    intro _
    have hin : s.InSend := ⟨i, by rw [hsending]; simp⟩
    exact h (.inl hin)
  | windowMessage =>
    intro hbusy
    rcases h hbusy with hq | hm
    · exact .inl (hq.append rfl)
    · exact .inr hm
  | @retrieve m rest hmain hmsg =>
    intro hbusy
    rcases h hbusy with ⟨w, hw, hcmd⟩ | hm
    · rw [hmsg] at hw
      rcases List.mem_cons.mp hw with rfl | hrest
      · -- the wake-up itself is retrieved: the drain starts
        right
        have hquit : w.message ≠ WM_QUIT := by
          intro hq
          simp [Msg.isAppCommand, hq, WM_QUIT, PM_APP_COMMAND, WM_APP] at hcmd
        simp [MainPc.afterRetrieve, hquit, hcmd]
      · exact .inl ⟨w, hrest, hcmd⟩
    · exact absurd hmain hm
  | windowExit => exact fun _ => .inr (by simp)
  | receive =>
    intro _
    right
    show (if _ then MainPc.exited else MainPc.commandLoop) ≠ .getMessage
    split <;> simp
  | drained _ hchan =>
    rintro (hin | hc)
    · exact .inl (hok hin)
    · exact absurd hchan hc

/-- In every run whose drains are undisturbed the main loop stays awake. -/
theorem Host.awake_run {s : Host ι Value} {ls : List (HostStep ι Value)}
    (h : Run (Guarded Host.UndisturbedDrain Host.Step) (Host.init ι Value) ls s) :
    s.Awake :=
  h.invariant Host.awake_init fun hs hstep => Host.awake_step hs hstep.1 hstep.2

/-- **No lost wake-up**, in every run whose drains are undisturbed: once nobody
will wake the main loop any more, every command that was sent is processed. -/
theorem Host.allProcessed_of_quiescent {s : Host ι Value} {ls : List (HostStep ι Value)}
    (h : Run (Guarded Host.UndisturbedDrain Host.Step) (Host.init ι Value) ls s)
    (hq : s.Quiescent) : s.AllProcessed := by
  obtain ⟨hsend, hwake, hmain⟩ := hq
  have hchan : s.channel = [] := by
    by_cases hc : s.channel = []
    · exact hc
    · rcases Host.awake_run h (.inr hc) with hw | hm
      · exact absurd hw hwake
      · exact absurd hmain hm
  refine ⟨hchan, ?_⟩
  rw [Host.sent_eq h.unguard, hchan, List.append_nil]

/-- One thread sends one command, undisturbed: the command is processed. -/
theorem Host.allProcessed_after_send :
    ∃ s : Host Unit Unit, s.Quiescent ∧ s.sent ≠ [] ∧ s.AllProcessed := by
  let cmd : MethodCall Unit := ⟨"im.chewing.ui.HideCandidateList", (), none, none, none⟩
  have hrun : ∃ s : Host Unit Unit,
      Run (Guarded Host.UndisturbedDrain Host.Step) (Host.init Unit Unit)
        [.post () cmd, .enqueue (), .retrieve, .receive, .drained] s ∧
      s.Quiescent ∧ s.sent ≠ [] := by
    refine ⟨_, .head ⟨trivial, .post rfl⟩ <| .head ⟨trivial, .enqueue rfl (by decide)⟩ <|
      .head ⟨trivial, .retrieve rfl rfl⟩ <| .head ⟨trivial, .receive rfl rfl⟩ <|
      .single ⟨?_, .drained rfl rfl⟩, ⟨?_, ?_, rfl⟩, ?_⟩
    · rintro ⟨i, hi⟩
      exact absurd rfl hi
    · rintro ⟨i, hi⟩
      exact absurd rfl hi
    · rintro ⟨m, hm, -⟩
      cases hm
    · simp [Host.init]
  obtain ⟨s, hrun, hq, hsent⟩ := hrun
  exact ⟨s, hq, hsent, Host.allProcessed_of_quiescent hrun hq⟩

/-! ## The lost wake-up -/

/-- A disturbed drain loses the command of the thread it passed: with no other
thread inside `send`, that thread's `sender.send` leaves the command on the
channel and nobody to wake the main loop. -/
theorem Host.disturbed_drain_loses {s t : Host ι Value} {i : ι} {cmd : MethodCall Value}
    (hstep : Host.Step s .drained t) (hi : s.sending i = some cmd)
    (honly : ∀ j, j ≠ i → s.sending j = none) (hwake : ¬ s.WakeUpQueued) :
    ∃ u, Host.Step t (.enqueue i) u ∧ u.Quiescent ∧ ¬ u.AllProcessed := by
  cases hstep with
  | drained hmain hchan =>
    refine ⟨_, .enqueue hi ?_, ⟨?_, hwake, rfl⟩, ?_⟩
    · simp [hchan, channelBound]
    · rintro ⟨j, hj⟩
      by_cases hji : j = i
      · exact hj (by simp [hji])
      · exact hj (by simp [hji, honly j hji])
    · rintro ⟨hc, -⟩
      simp at hc

/-- The race: the main loop retrieves the wake-up and drains the still empty
channel before the thread that posted it sends its command. -/
theorem Host.lost_wakeup :
    ¬ ∀ (s : Host Unit Unit) (ls : List (HostStep Unit Unit)),
      Run Host.Step (Host.init Unit Unit) ls s → s.Quiescent → s.AllProcessed := by
  intro hclaim
  let cmd : MethodCall Unit := ⟨"im.chewing.ui.HideCandidateList", (), none, none, none⟩
  have hbefore : ∃ s : Host Unit Unit,
      Run Host.Step (Host.init Unit Unit) [.post () cmd, .retrieve] s ∧
      s.main = .commandLoop ∧ s.channel = [] ∧ s.sending () = some cmd ∧ s.messages = [] :=
    ⟨_, .head (.post rfl) <| .single (.retrieve rfl rfl), rfl, rfl, rfl, rfl⟩
  obtain ⟨s, hrun, hmain, hchan, hsending, hmsg⟩ := hbefore
  have hwake : ¬ s.WakeUpQueued := by
    rintro ⟨m, hm, -⟩
    rw [hmsg] at hm
    cases hm
  have hdrain : Host.Step s .drained { s with main := .getMessage } := .drained hmain hchan
  obtain ⟨u, hu, hq, hnot⟩ :=
    Host.disturbed_drain_loses hdrain hsending (fun j hj => absurd rfl hj) hwake
  exact hnot (hclaim u _ ((hrun.tail hdrain).tail hu) hq)

end ChewingTsf
