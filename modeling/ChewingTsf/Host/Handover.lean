import ChewingTsf.Host.EventLoop
import ChewingTsf.Host.Replies

/-!
# From the pipe to the main loop

An IPC thread keeps the session of its connection and hands the commands for the windows
to the main loop. Whatever bytes arrive on the pipe, it does so as if it handled the calls
that decode one by one (`IpcConnection.accept_effects`), each in its own part of the
state and none more than once. The main loop takes the commands of all threads off one
channel: they interleave, but each thread's come in the order they were sent in, and none
is lost or doubled (`Host.interleaves_calls`).
-/

namespace ChewingTsf

universe u v

/-! ## One connection -/

section

variable {E : Type} {Value : Type u}

/-- What the calls of a connection change, besides the pipe. -/
structure Effects (E : Type) (Value : Type u) where
  tipSession : TipSession E
  /-- the calls handed to the main loop -/
  commands : List (MethodCall Value)
  /-- how often `check_for_update` was called -/
  updateChecks : Nat

def IpcConnection.effects (c : IpcConnection E Value) : Effects E Value :=
  ⟨c.tipSession, c.commands, c.updateChecks⟩

/-- An `OnTestKeyDown`, if its parameters decode, is put to the session. -/
def TipSession.heard [ChewingEditor E] [KeyTables] [JsonValue Value OnTestKeyDown]
    (config : Tip.ConfigEnv) (call : MethodCall Value) (s : TipSession E) : TipSession E :=
  match (JsonValue.fromValue call.parameters : Option OnTestKeyDown) with
  | none => s
  | some params =>
    match SystemKeyboardEvent.tryFrom params.event with
    | none => s
    | some ev =>
      (s.onTestKeydown config params.isContextMutable params.isComposing params.shiftKeyState
        ev.toKeyboardEvent).2

/-- The call has a method of the main loop. -/
def MethodCall.isForMainLoop (call : MethodCall Value) : Bool :=
  decide (call.method ∈ IpcConnection.uiMethods)

/-- The call is handed to the main loop. -/
def MethodCall.HandedOver (env : IpcEnv) (call : MethodCall Value) : Prop :=
  call.method ∈ IpcConnection.uiMethods ∧ env.delivered = true

instance (env : IpcEnv) (call : MethodCall Value) : Decidable (call.HandedOver env) :=
  inferInstanceAs (Decidable (_ ∧ _))

namespace Effects

variable [ChewingEditor E] [KeyTables] [JsonValue Value OnTestKeyDown]

/-- Each kind of call changes its own part. -/
def handle (env : IpcEnv) (call : MethodCall Value) (s : Effects E Value) : Effects E Value where
  tipSession :=
    if call.method = OnTestKeyDown.METHOD then s.tipSession.heard env.config call
    else s.tipSession
  commands := if call.HandedOver env then s.commands ++ [call] else s.commands
  updateChecks :=
    if call.method = CheckUpdate.METHOD then s.updateChecks + 1 else s.updateChecks

/-- The frames from the `n`-th on, each with the call it decodes to, if any. -/
def handleAll (env : Nat → IpcEnv) : Nat → List (Option (MethodCall Value)) → Effects E Value →
    Effects E Value
  | _, [], s => s
  | n, none :: calls, s => handleAll env (n + 1) calls s
  | n, some call :: calls, s => handleAll env (n + 1) calls (s.handle (env n) call)

/-- If every command can be sent, those for the main loop are the calls with its methods. -/
theorem handleAll_commands {env : Nat → IpcEnv} (hdelivered : ∀ n, (env n).delivered = true)
    (n : Nat) (calls : List (MethodCall Value)) (s : Effects E Value) :
    (s.handleAll env n (calls.map some)).commands
      = s.commands ++ calls.filter MethodCall.isForMainLoop := by
  induction calls generalizing n s with
  | nil => exact (List.append_nil _).symm
  | cons call calls ih =>
    show ((s.handle (env n) call).handleAll env (n + 1) (calls.map some)).commands = _
    rw [ih]
    show (if call.HandedOver (env n) then s.commands ++ [call] else s.commands) ++ _ = _
    by_cases hui : call.method ∈ IpcConnection.uiMethods
    · rw [if_pos (show call.HandedOver (env n) from ⟨hui, hdelivered n⟩),
        List.filter_cons_of_pos (show call.isForMainLoop = true from decide_eq_true hui),
        List.append_assoc]
      rfl
    · rw [if_neg (show ¬ call.HandedOver (env n) from fun h => hui h.1),
        List.filter_cons_of_neg (show ¬ call.isForMainLoop = true from fun h =>
          hui (of_decide_eq_true h))]

end Effects

namespace IpcConnection

variable [ChewingEditor E] [KeyTables]
  [JsonBytes (MethodCall Value)] [JsonBytes (MethodReply Value)]
  [JsonValue Value Ping] [JsonValue Value PingReply]
  [JsonValue Value OnTestKeyDown] [JsonValue Value OnTestKeyDownReply]

omit [JsonBytes (MethodCall Value)] in
/-- **One call**, whatever its arm does and wherever it fails. -/
theorem handleCall_effects (env : IpcEnv) (call : MethodCall Value) (c : IpcConnection E Value) :
    (c.handleCall env call).2.effects = c.effects.handle env call := by
  have hreply : ∀ (c : IpcConnection E Value) (oneway : Bool) (bytes : List UInt8),
      (if !oneway then c.writeAll bytes else c).effects = c.effects := by
    intro c oneway bytes
    cases oneway <;> rfl
  unfold handleCall Effects.handle
  by_cases hping : call.method = Ping.METHOD
  · have hkey : call.method ≠ OnTestKeyDown.METHOD := by rw [hping]; decide
    have hui : ¬ call.HandedOver env := fun h => absurd (hping ▸ h.1) (by decide)
    have hcheck : call.method ≠ CheckUpdate.METHOD := by rw [hping]; decide
    rw [if_pos hping, if_neg hkey, if_neg hui, if_neg hcheck]
    cases call.isOneway with
    | true => rfl
    | false => cases (JsonValue.fromValue call.parameters : Option Ping) <;> rfl
  rw [if_neg hping]
  by_cases hui : call.method ∈ uiMethods
  · have hkey : call.method ≠ OnTestKeyDown.METHOD := fun h => absurd (h ▸ hui) (by decide)
    have hcheck : call.method ≠ CheckUpdate.METHOD := fun h => absurd (h ▸ hui) (by decide)
    rw [if_pos hui, if_neg hkey, if_neg hcheck]
    by_cases hdelivered : env.delivered = true
    · rw [if_pos hdelivered, if_pos (show call.HandedOver env from ⟨hui, hdelivered⟩)]
      exact hreply { c with commands := c.commands ++ [call] } call.isOneway emptyObject
    · rw [if_neg hdelivered, if_neg (show ¬ call.HandedOver env from fun h => hdelivered h.2)]
  rw [if_neg hui, if_neg (show ¬ call.HandedOver env from fun h => hui h.1)]
  by_cases hcheck : call.method = CheckUpdate.METHOD
  · have hkey : call.method ≠ OnTestKeyDown.METHOD := by rw [hcheck]; decide
    rw [if_pos hcheck, if_neg hkey, if_pos hcheck]
    exact hreply { c with updateChecks := c.updateChecks + 1 } call.isOneway emptyObject
  rw [if_neg hcheck, if_neg hcheck]
  by_cases hkey : call.method = OnTestKeyDown.METHOD
  · rw [if_pos hkey, if_pos hkey]
    unfold TipSession.heard
    cases (JsonValue.fromValue call.parameters : Option OnTestKeyDown) with
    | none => rfl
    | some params =>
      dsimp only
      cases SystemKeyboardEvent.tryFrom params.event with
      | none => rfl
      | some ev => exact hreply _ call.isOneway _
  · rw [if_neg hkey, if_neg hkey]

/-- One iteration that takes a frame off the pipe. -/
theorem ipcLoopOnce_effects (env : IpcEnv) (c : IpcConnection E Value)
    (h : (c.ipcLoopOnce env).1 ≠ .ok .break) :
    ∃ it : Iteration Value, (c.ipcLoopOnce env).2.log = c.log ++ [it] ∧
      (c.ipcLoopOnce env).2.effects
        = it.call.elim c.effects fun call => c.effects.handle env call := by
  unfold ipcLoopOnce at h ⊢
  rcases hread : readFrame 0 c.input with ⟨frame, rest⟩
  rw [hread] at h
  cases frame with
  | none => exact absurd rfl h
  | some buffer =>
    dsimp only
    cases (JsonBytes.fromSlice buffer : Option (MethodCall Value)) with
    | none => exact ⟨⟨none, []⟩, rfl, rfl⟩
    | some call =>
      obtain ⟨w, -, -, -, hlog⟩ := handleCall_handles env call { c with input := rest }
      have heffects := handleCall_effects env call { c with input := rest }
      exact ⟨⟨some call, _⟩, congrArg (· ++ [_]) hlog, heffects⟩

/-- The last iteration finds no frame. -/
theorem ipcLoopOnce_eq_of_break {env : IpcEnv} {c : IpcConnection E Value}
    (h : (c.ipcLoopOnce env).1 = .ok .break) :
    ∃ rest, (c.ipcLoopOnce env).2 = { c with input := rest } := by
  rcases hread : readFrame 0 c.input with ⟨frame, rest⟩
  cases frame with
  | some buffer => exact absurd h (ipcLoopOnce_ne_break hread)
  | none =>
    rw [ipcLoopOnce, hread]
    exact ⟨rest, rfl⟩

/-- The loop handles what it decodes. -/
theorem ipcLoop_effects (env : Nat → IpcEnv) (n : Nat) (c : IpcConnection E Value) :
    ∃ items : List (Iteration Value), (c.ipcLoop env n).log = c.log ++ items ∧
      (c.ipcLoop env n).effects
        = c.effects.handleAll env n (items.map Iteration.call) := by
  generalize hlength : c.input.length = k
  induction k using Nat.strong_induction_on generalizing n c with
  | _ k ih =>
    by_cases hbreak : (c.ipcLoopOnce (env n)).1 = .ok .break
    · have hloop : c.ipcLoop env n = (c.ipcLoopOnce (env n)).2 := by
        rw [ipcLoop]
        exact if_pos hbreak
      obtain ⟨rest, hrest⟩ := ipcLoopOnce_eq_of_break hbreak
      rw [hloop, hrest]
      exact ⟨[], (List.append_nil _).symm, rfl⟩
    · have hloop : c.ipcLoop env n = (c.ipcLoopOnce (env n)).2.ipcLoop env (n + 1) := by
        rw [ipcLoop]
        exact if_neg hbreak
      obtain ⟨items, hlog, heffects⟩ := ih _ (hlength ▸ ipcLoopOnce_shorter (env n) c hbreak)
        (n + 1) _ rfl
      obtain ⟨it, hone, hhandled⟩ := ipcLoopOnce_effects (env n) c hbreak
      refine ⟨it :: items, by rw [hloop, hlog, hone, List.append_assoc]; rfl, ?_⟩
      rw [hloop, heffects, hhandled]
      obtain ⟨call, written⟩ := it
      cases call <;> rfl

/-- **Whatever bytes arrive**, the session, the commands for the main loop and the update
checks of a connection are those of the calls that were decoded, handled one by one in
their order: frames that do not decode and calls that fail change nothing. -/
theorem accept_effects (env : Nat → IpcEnv) (session : TipSession E) (input : List UInt8) :
    let c : IpcConnection E Value := (accept session input).ipcLoop env 0
    c.effects = Effects.handleAll env 0 (c.log.map Iteration.call) ⟨session, [], 0⟩ := by
  obtain ⟨items, hlog, heffects⟩ :=
    ipcLoop_effects env 0 (accept session input : IpcConnection E Value)
  show ((accept session input : IpcConnection E Value).ipcLoop env 0).effects = _
  rw [heffects, hlog]
  rfl

/-- A client's calls for the main loop reach it in the order they were sent in. -/
theorem served_commands {env : Nat → IpcEnv} (hdelivered : ∀ n, (env n).delivered = true)
    (session : TipSession E) {calls : List (MethodCall Value)}
    (hcalls : ∀ call ∈ calls, JsonBytes.RoundTrips call) :
    (served env session calls).commands = calls.filter MethodCall.isForMainLoop := by
  obtain ⟨writes, hwrites, -, -, hlog⟩ :=
    ipcLoop_framed env hcalls (show (0 : UInt8) ∉ [] from List.not_mem_nil) 0
      (c := accept session (calls.flatMap ChewingIpcClient.request)) (List.append_nil _).symm
  obtain ⟨items, hitems, heffects⟩ := ipcLoop_effects env 0
    (accept session (calls.flatMap ChewingIpcClient.request) : IpcConnection E Value)
  have hdecoded : items.map Iteration.call = calls.map some := by
    rw [List.append_cancel_left (hitems.symm.trans hlog)]
    clear hlog hitems heffects hcalls
    induction hwrites with
    | nil => rfl
    | cons _ _ ih => simpa using ih
  rw [hdecoded] at heffects
  have hcommands := congrArg Effects.commands heffects
  rw [Effects.handleAll_commands hdelivered] at hcommands
  exact hcommands

end IpcConnection

end

/-! ## All connections -/

section

variable {ι : Type u} {Value : Type v} [DecidableEq ι]

/-- The commands that thread `i` has begun to send, in order. -/
def HostStep.posted (i : ι) (ls : List (HostStep ι Value)) : List (MethodCall Value) :=
  ls.filterMap fun
    | .post j cmd => if j = i then some cmd else none
    | _ => none

/-- The commands of thread `i` among all. -/
def commandsOf (i : ι) (tagged : List (ι × MethodCall Value)) : List (MethodCall Value) :=
  tagged.filterMap fun c => if c.1 = i then some c.2 else none

theorem HostStep.posted_append (i : ι) (ls ms : List (HostStep ι Value)) :
    posted i (ls ++ ms) = posted i ls ++ posted i ms :=
  List.filterMap_append

theorem commandsOf_append (i : ι) (cs ds : List (ι × MethodCall Value)) :
    commandsOf i (cs ++ ds) = commandsOf i cs ++ commandsOf i ds :=
  List.filterMap_append

/-- Every command belongs to a thread, and each thread's are those it began to send, in
order, but for one that is not on the channel yet. -/
def Host.Interleaves (ls : List (HostStep ι Value)) (s : Host ι Value) : Prop :=
  ∃ tagged : List (ι × MethodCall Value), tagged.map Prod.snd = s.sent ∧
    ∀ i, commandsOf i tagged ++ (s.sending i).toList = HostStep.posted i ls

/-- Steps that send nothing. -/
theorem Host.Interleaves.silent {ls : List (HostStep ι Value)} {s t : Host ι Value}
    {a : HostStep ι Value} (h : s.Interleaves ls) (hsent : t.sent = s.sent)
    (hsending : t.sending = s.sending) (hpost : ∀ i, HostStep.posted i [a] = []) :
    t.Interleaves (ls ++ [a]) := by
  obtain ⟨tagged, htagged, hthreads⟩ := h
  refine ⟨tagged, by rw [hsent, htagged], fun i => ?_⟩
  rw [hsending, hthreads i, HostStep.posted_append, hpost i, List.append_nil]

/-- **One step** of a thread or of the main loop. -/
theorem Host.interleaves_step {ls : List (HostStep ι Value)} {s t : Host ι Value}
    {a : HostStep ι Value} (h : s.Interleaves ls) (hstep : Host.Step s a t) :
    t.Interleaves (ls ++ [a]) := by
  cases hstep with
  | @post i cmd hidle =>
    -- the thread has posted, and its command waits to enter the channel
    obtain ⟨tagged, htagged, hthreads⟩ := h
    refine ⟨tagged, htagged, fun j => ?_⟩
    rw [HostStep.posted_append, ← hthreads j]
    show _ ++ (if j = i then some cmd else s.sending j).toList = _ ++ [_].filterMap _
    by_cases hji : j = i
    · rw [hji, hidle, if_pos rfl]
      simp
    · have hij : i ≠ j := fun h => hji h.symm
      rw [if_neg hji]
      simp [hij]
  | @enqueue i cmd hsending hroom =>
    obtain ⟨tagged, htagged, hthreads⟩ := h
    -- the command that waited is the last in the channel
    refine ⟨tagged ++ [(i, cmd)], by simp [htagged], fun j => ?_⟩
    rw [HostStep.posted_append, ← hthreads j, commandsOf_append]
    show _ ++ [_].filterMap _ ++ (if j = i then none else s.sending j).toList = _ ++ []
    by_cases hji : j = i
    · rw [hji, hsending, if_pos rfl]
      simp
    · have hij : i ≠ j := fun h => hji h.symm
      rw [if_neg hji]
      simp [hij]
  | postFails hidle => exact h.silent rfl rfl fun _ => rfl
  | windowMessage hother => exact h.silent rfl rfl fun _ => rfl
  | retrieve hmain hmsg => exact h.silent rfl rfl fun _ => rfl
  | windowExit hmain => exact h.silent rfl rfl fun _ => rfl
  | receive hmain hchan => exact h.silent rfl rfl fun _ => rfl
  | drained hmain hchan => exact h.silent rfl rfl fun _ => rfl

/-- The commands processed and those on the channel are the commands of the threads. -/
theorem Host.interleaves {s : Host ι Value} {ls : List (HostStep ι Value)}
    (h : Run Host.Step (Host.init ι Value) ls s) :
    ∃ tagged : List (ι × MethodCall Value), tagged.map Prod.snd = s.processed ++ s.channel ∧
      ∀ i, commandsOf i tagged ++ (s.sending i).toList = HostStep.posted i ls := by
  rw [← Host.sent_eq h]
  exact h.history (I := fun ls s => s.Interleaves ls) ⟨[], rfl, fun _ => rfl⟩
    fun hs hstep => Host.interleaves_step hs hstep

end

section

variable {ι : Type u} {E : Type} {Value : Type v} [DecidableEq ι] [ChewingEditor E] [KeyTables]
  [JsonBytes (MethodCall Value)] [JsonBytes (MethodReply Value)]
  [JsonValue Value Ping] [JsonValue Value PingReply]
  [JsonValue Value OnTestKeyDown] [JsonValue Value OnTestKeyDownReply]

/-- **From the clients to the main loop**: in whatever way the threads of the host
interleave, what the main loop has processed and what is on its channel are commands of
the clients, each client's in the order it sent them in, none twice and none left out
between two others; at most one of a client's that its thread has begun to send is not
there yet. -/
theorem Host.interleaves_calls {env : ι → Nat → IpcEnv}
    (hdelivered : ∀ i n, (env i n).delivered = true) (session : ι → TipSession E)
    {calls : ι → List (MethodCall Value)}
    (hcalls : ∀ i, ∀ call ∈ calls i, JsonBytes.RoundTrips call)
    {s : Host ι Value} {ls : List (HostStep ι Value)}
    (h : Run Host.Step (Host.init ι Value) ls s)
    (hthreads : ∀ i, HostStep.posted i ls
      <+: (IpcConnection.served (env i) (session i) (calls i)).commands) :
    ∃ tagged : List (ι × MethodCall Value), tagged.map Prod.snd = s.processed ++ s.channel ∧
      ∀ i, commandsOf i tagged
          <+: (calls i).filter MethodCall.isForMainLoop ∧
        (HostStep.posted i ls).length ≤ (commandsOf i tagged).length + 1 := by
  obtain ⟨tagged, htagged, hposted⟩ := Host.interleaves h
  refine ⟨tagged, htagged, fun i => ⟨?_, ?_⟩⟩
  · have hprefix := hthreads i
    rw [IpcConnection.served_commands (hdelivered i) (session i) (hcalls i), ← hposted i]
      at hprefix
    exact (List.prefix_append _ _).trans hprefix
  · rw [← hposted i, List.length_append]
    have hone : (s.sending i).toList.length ≤ 1 := by cases s.sending i <;> simp
    omega

end

open SampleJson ScriptedEditor in
/-- Two clients, each with a command on its way at the same time. -/
theorem Host.interleaves_calls_two :
    ∃ (s : Host Bool SampleJson) (tagged : List (Bool × MethodCall SampleJson)),
      tagged.map Prod.snd = s.processed ++ s.channel ∧ s.channel.length = 2 := by
  let calls : Bool → List (MethodCall SampleJson) := fun i =>
    if i then [pingCall, hideCall (some true)] else [hideCall none]
  let steps : List (HostStep Bool SampleJson) :=
    [.post true (hideCall (some true)), .post false (hideCall none), .enqueue false, .enqueue true]
  have hcalls : ∀ i, ∀ call ∈ calls i, JsonBytes.RoundTrips call := by decide +kernel
  have hrun : ∃ s : Host Bool SampleJson,
      Run Host.Step (Host.init Bool SampleJson) steps s ∧ s.channel.length = 2 :=
    ⟨_, .head (.post rfl) <| .head (.post rfl) <| .head (.enqueue rfl (by decide)) <|
      .single (.enqueue rfl (by decide)), rfl⟩
  have hthreads : ∀ i, HostStep.posted i steps
      <+: (IpcConnection.served (fun _ => ipcEnv) SampleJson.session (calls i)).commands := by
    intro i
    rw [IpcConnection.served_commands (fun _ => rfl) SampleJson.session (hcalls i)]
    cases i <;> exact List.prefix_refl _
  obtain ⟨s, hrun, hchannel⟩ := hrun
  obtain ⟨tagged, htagged, -⟩ := Host.interleaves_calls (fun _ _ => rfl)
    (fun _ => SampleJson.session) hcalls hrun hthreads
  exact ⟨s, tagged, htagged, hchannel⟩

end ChewingTsf
