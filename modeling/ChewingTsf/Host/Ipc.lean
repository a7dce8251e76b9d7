import ChewingTsf.Host.TipSession

/-!
# The IPC loop of the host (crates/chewing_tip_host/src/ipc.rs)

One thread serves each connection: it takes NUL-terminated frames off the pipe,
decodes each as a `MethodCall` and handles it. Every arm of `ipc_loop_once` decides for
itself whether and what to reply, and an error ends the arm before its reply.

`IpcConnection.log` records what the iterations decoded and wrote. `Written` says
what can be written for a call (`handleCall_handles`), and `ipcLoop_framed` what
the loop makes of the calls that a client sends.
-/

namespace ChewingTsf

universe u

/-- Why `ipc_loop_once` gave up on a call. -/
inductive HandleIpcError where
  /-- `serde_json` -/
  | json
  /-- `MainLoopHandle::send` -/
  | mainLoop
  /-- `SystemKeyboardEvent::try_from` -/
  | keyState
  deriving DecidableEq

inductive ControlFlow where
  | «continue»
  | «break»
  deriving DecidableEq

/-- What the handling of one call meets. -/
structure IpcEnv where
  /-- `MainLoopHandle::send` succeeds -/
  delivered : Bool
  config : Tip.ConfigEnv

/-- What one iteration of `ipc_loop` decoded (`none` for a frame that is no
`MethodCall`), and the bytes it wrote. -/
structure Iteration (Value : Type u) where
  call : Option (MethodCall Value)
  written : List UInt8

/-- The state of an IPC thread. -/
structure IpcConnection (E : Type) (Value : Type u) where
  /-- the bytes that the pipe still delivers before its end -/
  input : List UInt8
  output : List UInt8
  tipSession : TipSession E
  /-- the calls handed to the main loop -/
  commands : List (MethodCall Value)
  /-- how often `check_for_update` was called -/
  updateChecks : Nat
  /-- the iterations so far that took a frame off the pipe -/
  log : List (Iteration Value)

namespace IpcConnection

variable {E : Type} {Value : Type u}

/-- A connection whose client writes `input` and closes. -/
def accept (tipSession : TipSession E) (input : List UInt8) : IpcConnection E Value :=
  ⟨input, [], tipSession, [], 0, []⟩

/-- `sender.write_all`. -/
def writeAll (bytes : List UInt8) (c : IpcConnection E Value) : IpcConnection E Value :=
  { c with output := c.output ++ bytes }

/-- `c"{}".to_bytes_with_nul()`. -/
def emptyObject : List UInt8 := [0x7B, 0x7D, 0x00]

/-- The methods that `ipc_loop_once` hands to the main loop. -/
def uiMethods : List String :=
  [ShowNotification.METHOD, ShowCandidateList.METHOD, HideCandidateList.METHOD, Stop.METHOD]

/-- A `MethodReply` with the parameters `parameters`. -/
def replyWith {T : Type} [JsonValue Value T] (parameters : T) : MethodReply Value :=
  ⟨JsonValue.toValue parameters, none, none⟩

section Loop

variable [ChewingEditor E] [KeyTables]
  [JsonBytes (MethodCall Value)] [JsonBytes (MethodReply Value)]
  [JsonValue Value Ping] [JsonValue Value PingReply]
  [JsonValue Value OnTestKeyDown] [JsonValue Value OnTestKeyDownReply]

/-- `ipc_loop_once` from the decoded call on. -/
def handleCall (env : IpcEnv) (call : MethodCall Value) (c : IpcConnection E Value) :
    Except HandleIpcError Unit × IpcConnection E Value :=
  let oneway := call.isOneway
  if call.method = Ping.METHOD then
    if !oneway then
      match (JsonValue.fromValue call.parameters : Option Ping) with
      | none => (.error .json, c)
      | some ping =>
        let reply : MethodReply Value := replyWith (PingReply.from ping)
        (.ok (), c.writeAll reply.toBytes)
    else (.ok (), c)
  else if call.method ∈ uiMethods then
    if env.delivered then
      let c := { c with commands := c.commands ++ [call] }
      (.ok (), if !oneway then c.writeAll emptyObject else c)
    else (.error .mainLoop, c)
  else if call.method = CheckUpdate.METHOD then
    let c := { c with updateChecks := c.updateChecks + 1 }
    (.ok (), if !oneway then c.writeAll emptyObject else c)
  else if call.method = OnTestKeyDown.METHOD then
    match (JsonValue.fromValue call.parameters : Option OnTestKeyDown) with
    | none => (.error .json, c)
    | some params =>
      match SystemKeyboardEvent.tryFrom params.event with
      | none => (.error .keyState, c)
      | some ev =>
        let (handled, tipSession) := c.tipSession.onTestKeydown env.config
          params.isContextMutable params.isComposing params.shiftKeyState ev.toKeyboardEvent
        let c := { c with tipSession := tipSession }
        let reply : MethodReply Value := replyWith (OnTestKeyDownReply.mk handled)
        (.ok (), if !oneway then c.writeAll reply.toBytes else c)
  else
    -- "Unknown method" is logged and nothing is written
    (.ok (), c)

/-- `ipc_loop_once`. -/
def ipcLoopOnce (env : IpcEnv) (c : IpcConnection E Value) :
    Except HandleIpcError ControlFlow × IpcConnection E Value :=
  match readFrame 0 c.input with
  | (none, rest) => (.ok .break, { c with input := rest })
  | (some buffer, rest) =>
    let c := { c with input := rest }
    match (JsonBytes.fromSlice buffer : Option (MethodCall Value)) with
    | none => (.error .json, { c with log := c.log ++ [⟨none, []⟩] })
    | some call =>
      let (result, c') := c.handleCall env call
      (result.map fun () => .continue,
        { c' with log := c'.log ++ [⟨some call, c'.output.drop c.output.length⟩] })

end Loop

/-! ## What is written for a call -/

section Written

variable [JsonValue Value Ping] [JsonValue Value OnTestKeyDown]

/-- A call for which `ipc_loop_once` writes what its client waits for: a oneway
call, a `Ping` or an `OnTestKeyDown` that it can decode. -/
inductive Answered : MethodCall Value → Prop
  | oneway {call : MethodCall Value} (honeway : call.isOneway = true) : Answered call
  | ping {call : MethodCall Value} {ping : Ping} (hmethod : call.method = Ping.METHOD)
      (hparams : JsonValue.fromValue call.parameters = some ping) : Answered call
  | onTestKeyDown {call : MethodCall Value} {params : OnTestKeyDown}
      (hmethod : call.method = OnTestKeyDown.METHOD)
      (hparams : JsonValue.fromValue call.parameters = some params)
      (hstate : params.event.keyState.length = 256) : Answered call

variable {call : MethodCall Value}

theorem not_answered (honeway : call.isOneway = false) (hping : call.method ≠ Ping.METHOD)
    (hkey : call.method ≠ OnTestKeyDown.METHOD) : ¬ Answered call := by
  intro h
  cases h with
  | oneway htrue => rw [honeway] at htrue; cases htrue
  | ping hmethod => exact hping hmethod
  | onTestKeyDown hmethod => exact hkey hmethod

/-- A `Ping` is answered if its parameters are decoded. -/
theorem not_answered_ping (honeway : call.isOneway = false) (hmethod : call.method = Ping.METHOD)
    (hparams : (JsonValue.fromValue call.parameters : Option Ping) = none) : ¬ Answered call := by
  intro h
  cases h with
  | oneway htrue => rw [honeway] at htrue; cases htrue
  | ping _ hsome => rw [hparams] at hsome; cases hsome
  | onTestKeyDown hkey => rw [hmethod] at hkey; exact absurd hkey (by decide)

/-- An `OnTestKeyDown` is answered if its parameters and its event are decoded. -/
theorem not_answered_onTestKeyDown (honeway : call.isOneway = false)
    (hmethod : call.method = OnTestKeyDown.METHOD)
    (hparams : (JsonValue.fromValue call.parameters : Option OnTestKeyDown).bind
      (fun params => SystemKeyboardEvent.tryFrom params.event) = none) : ¬ Answered call := by
  intro h
  cases h with
  | oneway htrue => rw [honeway] at htrue; cases htrue
  | ping hping => rw [hmethod] at hping; exact absurd hping (by decide)
  | onTestKeyDown _ hsome hstate =>
    rw [hsome, Option.bind_some] at hparams
    rw [← SystemKeyboardEvent.tryFrom_isSome_iff, hparams] at hstate
    cases hstate

variable [JsonBytes (MethodReply Value)]

/-- What can be written for a call: a reply for a call that is answered, unless
it is oneway, and nothing or `{}` for the others. -/
inductive Written : MethodCall Value → List UInt8 → Prop
  | oneway {call : MethodCall Value} (honeway : call.isOneway = true) : Written call []
  | reply {call : MethodCall Value} (honeway : call.isOneway = false) (hanswered : Answered call)
      (value : Value) : Written call (MethodReply.mk value none none).toBytes
  | silent {call : MethodCall Value} (hlost : ¬ Answered call) : Written call []
  | empty {call : MethodCall Value} (hlost : ¬ Answered call) : Written call emptyObject

/-- From `c` to `c'` one call was handled. -/
def Handles (call : MethodCall Value) (c c' : IpcConnection E Value) : Prop :=
  ∃ w, Written call w ∧ c'.output = c.output ++ w ∧ c'.input = c.input ∧ c'.log = c.log

variable {c c' : IpcConnection E Value}

/-- An arm that writes nothing. -/
theorem Handles.nothing (h : call.isOneway = false → ¬ Answered call)
    (houtput : c'.output = c.output) (hinput : c'.input = c.input) (hlog : c'.log = c.log) :
    Handles call c c' := by
  refine ⟨[], ?_, by rw [houtput, List.append_nil], hinput, hlog⟩
  cases honeway : call.isOneway with
  | true => exact .oneway honeway
  | false => exact .silent (h honeway)

/-- An arm that ends with `if !oneway { sender.write_all(..) }`. -/
theorem Handles.unlessOneway {bytes : List UInt8}
    (h : call.isOneway = false → Written call bytes)
    (houtput : c'.output = c.output) (hinput : c'.input = c.input) (hlog : c'.log = c.log) :
    Handles call c (if !call.isOneway then c'.writeAll bytes else c') := by
  cases honeway : call.isOneway with
  | true =>
    refine .nothing (fun hfalse => ?_) houtput hinput hlog
    rw [honeway] at hfalse
    cases hfalse
  | false => exact ⟨bytes, h honeway, by rw [← houtput]; rfl, hinput, hlog⟩

end Written

variable [ChewingEditor E] [KeyTables]
  [JsonBytes (MethodCall Value)] [JsonBytes (MethodReply Value)]
  [JsonValue Value Ping] [JsonValue Value PingReply]
  [JsonValue Value OnTestKeyDown] [JsonValue Value OnTestKeyDownReply]

omit [JsonBytes (MethodCall Value)] in
/-- What `ipc_loop_once` writes for a call, and that it leaves the rest of the
input alone. -/
theorem handleCall_handles (env : IpcEnv) (call : MethodCall Value) (c : IpcConnection E Value) :
    Handles call c (c.handleCall env call).2 := by
  unfold handleCall
  by_cases hping : call.method = Ping.METHOD
  · rw [if_pos hping]
    cases honeway : call.isOneway with
    | true =>
      refine .nothing (fun hfalse => ?_) rfl rfl rfl
      rw [honeway] at hfalse
      cases hfalse
    | false =>
      cases hparams : (JsonValue.fromValue call.parameters : Option Ping) with
      | none => exact .nothing (fun h => not_answered_ping h hping hparams) rfl rfl rfl
      | some ping => exact ⟨_, .reply honeway (.ping hping hparams) _, rfl, rfl, rfl⟩
  rw [if_neg hping]
  by_cases hui : call.method ∈ uiMethods
  · have hkey : call.method ≠ OnTestKeyDown.METHOD := by
      intro heq
      rw [heq] at hui
      exact absurd hui (by decide)
    rw [if_pos hui]
    split
    · exact .unlessOneway (fun h => .empty (not_answered h hping hkey)) rfl rfl rfl
    · exact .nothing (fun h => not_answered h hping hkey) rfl rfl rfl
  rw [if_neg hui]
  by_cases hcheck : call.method = CheckUpdate.METHOD
  · have hkey : call.method ≠ OnTestKeyDown.METHOD := by rw [hcheck]; decide
    rw [if_pos hcheck]
    exact .unlessOneway (fun h => .empty (not_answered h hping hkey)) rfl rfl rfl
  rw [if_neg hcheck]
  by_cases hkey : call.method = OnTestKeyDown.METHOD
  · rw [if_pos hkey]
    cases hparams : (JsonValue.fromValue call.parameters : Option OnTestKeyDown) with
    | none =>
      exact .nothing (fun h => not_answered_onTestKeyDown h hkey (by rw [hparams]; rfl)) rfl rfl rfl
    | some params =>
      dsimp only
      cases hev : SystemKeyboardEvent.tryFrom params.event with
      | none =>
        refine .nothing (fun h => not_answered_onTestKeyDown h hkey ?_) rfl rfl rfl
        rw [hparams, Option.bind_some, hev]
      | some ev =>
        have hstate : params.event.keyState.length = 256 := by
          rw [← SystemKeyboardEvent.tryFrom_isSome_iff, hev]
          rfl
        exact .unlessOneway
          (fun h => .reply h (.onTestKeyDown hkey hparams hstate) _) rfl rfl rfl
  · rw [if_neg hkey]
    exact .nothing (fun h => not_answered h hping hkey) rfl rfl rfl

/-! ## The loop -/

theorem ipcLoopOnce_eof (env : IpcEnv) {c : IpcConnection E Value} (h : 0 ∉ c.input) :
    c.ipcLoopOnce env = (.ok .break, { c with input := [] }) := by
  rw [ipcLoopOnce, readFrame_unterminated h]

/-- The loop goes on behind a frame, whatever becomes of it. -/
theorem ipcLoopOnce_ne_break {env : IpcEnv} {c : IpcConnection E Value} {buffer rest : List UInt8}
    (h : readFrame 0 c.input = (some buffer, rest)) : (c.ipcLoopOnce env).1 ≠ .ok .break := by
  intro hbreak
  unfold ipcLoopOnce at hbreak
  rw [h] at hbreak
  dsimp only at hbreak
  cases hcall : (JsonBytes.fromSlice buffer : Option (MethodCall Value)) with
  | none => rw [hcall] at hbreak; cases hbreak
  | some call =>
    rw [hcall] at hbreak
    replace hbreak : ((handleCall env call { c with input := rest }).1.map
      fun () => ControlFlow.continue) = .ok .break := hbreak
    cases hresult : (handleCall env call { c with input := rest }).1 with
    | error e => rw [hresult] at hbreak; cases hbreak
    | ok _ => rw [hresult] at hbreak; cases hbreak

/-- A frame is taken off the pipe and handled. -/
theorem ipcLoopOnce_frame (env : IpcEnv) {c : IpcConnection E Value} {call : MethodCall Value}
    {rest : List UInt8} (hcall : JsonBytes.RoundTrips call)
    (hinput : c.input = JsonBytes.toVec call ++ 0 :: rest) :
    ∃ w, Written call w ∧ (c.ipcLoopOnce env).1 ≠ .ok .break ∧
      (c.ipcLoopOnce env).2.input = rest ∧
      (c.ipcLoopOnce env).2.output = c.output ++ w ∧
      (c.ipcLoopOnce env).2.log = c.log ++ [⟨some call, w⟩] := by
  have hread : readFrame 0 c.input = (some (JsonBytes.toVec call), rest) := by
    rw [hinput, readFrame_append hcall.1]
  obtain ⟨w, hw, houtput, hrest, hlog⟩ := handleCall_handles env call { c with input := rest }
  refine ⟨w, hw, ipcLoopOnce_ne_break hread, ?_⟩
  rw [ipcLoopOnce, hread]
  dsimp only
  rw [hcall.2]
  refine ⟨hrest, houtput, ?_⟩
  show _ ++ [_] = _
  rw [hlog, houtput, List.drop_left]

/-- An iteration that does not break takes at least a terminator off the pipe. -/
theorem ipcLoopOnce_shorter (env : IpcEnv) (c : IpcConnection E Value)
    (h : (c.ipcLoopOnce env).1 ≠ .ok .break) :
    (c.ipcLoopOnce env).2.input.length < c.input.length := by
  unfold ipcLoopOnce at h ⊢
  cases hread : readFrame 0 c.input with
  | mk frame rest =>
    cases frame with
    | none => rw [hread] at h; exact absurd rfl h
    | some buffer =>
      have hlength := readFrame_length hread
      dsimp only
      cases (JsonBytes.fromSlice buffer : Option (MethodCall Value)) with
      | none => exact hlength
      | some call =>
        obtain ⟨_, -, -, hrest, -⟩ := handleCall_handles env call { c with input := rest }
        show (handleCall env call { c with input := rest }).2.input.length < _
        rw [hrest]
        exact hlength

/-- `ipc_loop`, from its `n`-th iteration on, until the pipe ends. -/
def ipcLoop (env : Nat → IpcEnv) (n : Nat) (c : IpcConnection E Value) :
    IpcConnection E Value :=
  if (c.ipcLoopOnce (env n)).1 = .ok .break then (c.ipcLoopOnce (env n)).2
  else ipcLoop env (n + 1) (c.ipcLoopOnce (env n)).2
termination_by c.input.length
decreasing_by exact ipcLoopOnce_shorter (env n) c ‹_›

/-- The loop handles the calls that were sent, one after the other, and ends
before an unterminated rest. -/
theorem ipcLoop_framed (env : Nat → IpcEnv) {calls : List (MethodCall Value)}
    (hcalls : ∀ call ∈ calls, JsonBytes.RoundTrips call) {rest : List UInt8} (hrest : 0 ∉ rest)
    (n : Nat) {c : IpcConnection E Value}
    (hinput : c.input = calls.flatMap ChewingIpcClient.request ++ rest) :
    ∃ writes, List.Forall₂ Written calls writes ∧ (c.ipcLoop env n).input = [] ∧
      (c.ipcLoop env n).output = c.output ++ writes.flatten ∧
      (c.ipcLoop env n).log = c.log ++ calls.zipWith (fun call w => ⟨some call, w⟩) writes := by
  induction calls generalizing c n with
  | nil =>
    have hend : 0 ∉ c.input := by rw [hinput]; exact hrest
    rw [ipcLoop, ipcLoopOnce_eof (env n) hend, if_pos rfl]
    exact ⟨[], .nil, rfl, by simp, by simp⟩
  | cons call calls ih =>
    have hframe : c.input
        = JsonBytes.toVec call ++ 0 :: (calls.flatMap ChewingIpcClient.request ++ rest) := by
      rw [hinput]
      simp [ChewingIpcClient.request]
    obtain ⟨w, hw, hcontinue, hleft, houtput, hlog⟩ :=
      ipcLoopOnce_frame (env n) (hcalls call List.mem_cons_self) hframe
    obtain ⟨writes, hwrites, hend, houtput', hlog'⟩ :=
      ih (fun call' h => hcalls call' (List.mem_cons_of_mem _ h)) (n + 1) hleft
    rw [ipcLoop, if_neg hcontinue]
    refine ⟨w :: writes, .cons hw hwrites, hend, ?_, ?_⟩
    · rw [houtput', houtput, List.flatten_cons, List.append_assoc]
    · rw [hlog', hlog, List.append_assoc]
      rfl

/-- **Whole streams are read back**: the loop takes exactly the calls that were
sent off the pipe, in order, and breaks at the end; a call that was cut off before
its terminator is not delivered. -/
theorem ipcLoop_reads_calls (env : Nat → IpcEnv) (session : TipSession E)
    (calls : List (MethodCall Value)) (last : MethodCall Value)
    (hcalls : ∀ call ∈ last :: calls, JsonBytes.RoundTrips call) {cut : List UInt8}
    (hcut : cut <+: JsonBytes.toVec last) :
    let c := (accept session (calls.flatMap ChewingIpcClient.request ++ cut)).ipcLoop env 0
    c.log.map Iteration.call = calls.map some ∧ c.input = [] := by
  have hrest : 0 ∉ cut := fun hmem =>
    (hcalls last List.mem_cons_self).1 (hcut.subset hmem)
  obtain ⟨writes, hwrites, hend, -, hlog⟩ :=
    ipcLoop_framed env (fun call h => hcalls call (List.mem_cons_of_mem _ h)) hrest 0
      (c := accept session (calls.flatMap ChewingIpcClient.request ++ cut)) rfl
  refine ⟨?_, hend⟩
  rw [hlog]
  clear hlog hend hrest hcalls
  show ([] ++ _).map _ = _
  induction hwrites with
  | nil => rfl
  | cons _ _ ih => simpa using ih

end IpcConnection

/-! ## Messages in JSON -/

/-- The values of a few messages. -/
inductive SampleJson where
  | null
  /-- the parameters of a `Ping` and of its reply -/
  | uuid
  | handled (b : Bool)
  deriving DecidableEq

namespace SampleJson

def ascii (s : String) : List UInt8 := s.toList.map fun c => c.toNat.toUInt8

def ofBool (b : Bool) : List UInt8 := ascii (if b then "true" else "false")

def ofOption {T : Type} (f : T → List UInt8) : Option T → List UInt8
  | none => ascii "null"
  | some x => f x

def ofValue : SampleJson → List UInt8
  | null => ascii "null"
  | uuid => ascii "\x7b\"uuid\":\"0f8b\"\x7d"
  | handled b => ascii "\x7b\"handled\":" ++ ofBool b ++ ascii "\x7d"

def ofCall (call : MethodCall SampleJson) : List UInt8 :=
  ascii "\x7b\"method\":\"" ++ ascii call.method ++ ascii "\",\"parameters\":"
    ++ ofValue call.parameters ++ ascii ",\"oneway\":" ++ ofOption ofBool call.oneway
    ++ ascii ",\"more\":" ++ ofOption ofBool call.more
    ++ ascii ",\"upgrade\":" ++ ofOption ofBool call.upgrade ++ ascii "\x7d"

def ofReply (reply : MethodReply SampleJson) : List UInt8 :=
  ascii "\x7b\"parameters\":" ++ ofValue reply.parameters
    ++ ascii ",\"continues\":" ++ ofOption ofBool reply.continues
    ++ ascii ",\"error\":" ++ ofOption (fun e => ascii ("\"" ++ e ++ "\"")) reply.error
    ++ ascii "\x7d"

def pingCall : MethodCall SampleJson :=
  ⟨Ping.METHOD, uuid, some false, some false, some false⟩

def hideCall (oneway : Option Bool) : MethodCall SampleJson :=
  ⟨HideCandidateList.METHOD, null, oneway, none, none⟩

scoped instance : JsonBytes (MethodCall SampleJson) where
  toVec := ofCall
  fromSlice bytes :=
    [pingCall, hideCall none, hideCall (some true)].find? fun call => ofCall call = bytes

scoped instance : JsonBytes (MethodReply SampleJson) where
  toVec := ofReply
  fromSlice bytes :=
    [⟨null, none, none⟩, ⟨uuid, none, none⟩, ⟨handled true, none, none⟩,
      ⟨handled false, none, none⟩].find? fun reply => ofReply reply = bytes

scoped instance : JsonValue SampleJson Ping where
  toValue _ := uuid
  fromValue v := if v = uuid then some ⟨"0f8b".toList⟩ else none

scoped instance : JsonValue SampleJson PingReply where
  toValue _ := uuid
  fromValue v := if v = uuid then some ⟨"0f8b".toList⟩ else none

scoped instance : JsonValue SampleJson OnTestKeyDown where
  toValue _ := null
  fromValue _ := none

scoped instance : JsonValue SampleJson OnTestKeyDownReply where
  toValue reply := handled reply.handled
  fromValue
    | handled b => some ⟨b⟩
    | _ => none

theorem roundTrips_reply (value : SampleJson) :
    JsonBytes.RoundTrips (MethodReply.mk value none none) := by
  cases value with
  | null => decide +kernel
  | uuid => decide +kernel
  | handled b => cases b <;> decide +kernel

/-- A session without a user dictionary. -/
def session : TipSession ScriptedEditor := .new (ScriptedEditor.absorbed []) (.ok .default)

/-- Every command reaches the main loop, and the configuration does not change. -/
def ipcEnv : IpcEnv := ⟨true, ⟨.ok .default, none, none⟩⟩

end SampleJson

open SampleJson ScriptedEditor in
/-- The second call is cut off just before its terminator. -/
theorem IpcConnection.ipcLoop_reads_ping :
    let accepted : IpcConnection ScriptedEditor SampleJson := IpcConnection.accept session
      ([pingCall].flatMap ChewingIpcClient.request ++ JsonBytes.toVec (hideCall none))
    let c := accepted.ipcLoop (fun _ => ipcEnv) 0
    c.log.map Iteration.call = [pingCall].map some ∧ c.input = [] :=
  IpcConnection.ipcLoop_reads_calls _ _ [pingCall] (hideCall none) (by decide +kernel)
    (List.prefix_refl _)

end ChewingTsf
