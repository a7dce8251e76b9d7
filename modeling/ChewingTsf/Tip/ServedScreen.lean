import ChewingTsf.Host.Handover
import ChewingTsf.Tip.KeyMessage
import ChewingTsf.Tip.Screen

/-!
# The service and its host, byte by byte

`Screen` takes the commands of the service to the main loop as they are. In the program they
are NUL-terminated frames on a pipe, between pings and key tests that wait for a reply and
other messages, and an IPC thread takes them apart again. This comes to the same: over one
connection the host answers every ping with its own uuid, every key test with what its session
makes of it and nothing else, and what it hands to the main loop leaves the window as `Screen`
has it (`IpcConnection.served_shows`).
-/

namespace ChewingTsf

universe u

section

variable {Value : Type u} [JsonValue Value Ping] [JsonValue Value OnTestKeyDown]

/-- The call that `ping` sends. -/
def ChewingIpcClient.pingCall (uuid : Str) : MethodCall Value :=
  ⟨Ping.METHOD, JsonValue.toValue (Ping.mk uuid), some false, some false, some false⟩

/-- The call that `on_test_keydown` sends behind the ping. -/
def ChewingIpcClient.onTestKeyDownCall (params : OnTestKeyDown) : MethodCall Value :=
  ⟨OnTestKeyDown.METHOD, JsonValue.toValue params, none, none, none⟩

/-- The methods of the commands that a text service does not wait for. -/
def onewayMethods : List String :=
  [ShowNotification.METHOD, ShowCandidateList.METHOD, HideCandidateList.METHOD, CheckUpdate.METHOD]

/-- What a text service sends: pings, key tests, and commands that it does not wait for. -/
inductive SentByService : MethodCall Value → Prop
  | ping (uuid : Str) : SentByService (ChewingIpcClient.pingCall uuid)
  | onTestKeyDown (params : OnTestKeyDown) (hstate : params.event.keyState.length = 256) :
      SentByService (ChewingIpcClient.onTestKeyDownCall params)
  | oneway {call : MethodCall Value} (honeway : call.isOneway = true)
      (hmethod : call.method ∈ onewayMethods) : SentByService call

/-- The message that `on_test_keydown` builds carries 256 key states. -/
theorem SentByService.onTestKeyDownCall {E : Type} [KeyTables] (isContextMutable : Bool)
    (ev : SystemKeyboardEvent) (t : Tip E) :
    SentByService (t.onTestKeyDownCall isContextMutable ev : MethodCall Value) := by
  refine .onTestKeyDown (t.onTestKeyDownMessage isContextMutable ev) ?_
  have hstate : (SystemKeyboardEvent.tryFrom ev.toIpc).isSome := by
    rw [SystemKeyboardEvent.tryFrom_toIpc]
    rfl
  exact (SystemKeyboardEvent.tryFrom_isSome_iff _).mp hstate

/-- The call is one for the candidate window. -/
def MethodCall.isForList (call : MethodCall Value) : Bool :=
  decide (call.method = ShowCandidateList.METHOD ∨ call.method = HideCandidateList.METHOD)

end

/-! ## A conversation -/

namespace ChewingIpcClient

variable {Value : Type u} [JsonBytes (MethodReply Value)]

/-- The bytes that an outcome was read from. -/
def Outcome.bytes : Outcome Value → List UInt8
  | .reply r => r.toBytes
  | .oneway | .undecodable | .waiting => []

/-- What is left on the pipe when the last `send` has returned. -/
def leftover : List UInt8 → List (MethodCall Value × List UInt8) → List UInt8
  | incoming, [] => incoming
  | incoming, (call, written) :: rest => leftover (receive call (incoming ++ written)).2 rest

/-- A frame alone on the pipe is read, and nothing is left. -/
theorem receive_reply {call : MethodCall Value} (hwaits : call.isOneway = false)
    {reply : MethodReply Value} (hreply : JsonBytes.RoundTrips reply) :
    receive call ([] ++ reply.toBytes) = (.reply reply, []) := by
  obtain ⟨hframe, hdecode⟩ := hreply
  rw [List.nil_append, MethodReply.toBytes]
  simp [receive, hwaits, readFrame_append hframe, hdecode]

end ChewingIpcClient

section

open ChewingIpcClient

variable {E : Type} {Value : Type u} [ChewingEditor E] [KeyTables]
  [JsonValue Value Ping] [JsonValue Value PingReply]
  [JsonValue Value OnTestKeyDown] [JsonValue Value OnTestKeyDownReply]

/-- One call, what `send` is to return for it, and the session of the host behind it: a ping
gets its own uuid, a key test what the session makes of it, and other calls get nothing. -/
inductive Replied (env : IpcEnv) (session : TipSession E) :
    MethodCall Value → Outcome Value → TipSession E → Prop
  | ping (uuid : Str) :
      Replied env session (pingCall uuid) (.reply (IpcConnection.replyWith (PingReply.mk uuid)))
        session
  | onTestKeyDown {params : OnTestKeyDown} {ev : SystemKeyboardEvent} {handled : Bool}
      {session' : TipSession E} (hev : SystemKeyboardEvent.tryFrom params.event = some ev)
      (hverdict : session.onTestKeydown env.config params.isContextMutable params.isComposing
        params.shiftKeyState ev.toKeyboardEvent = (handled, session')) :
      Replied env session (onTestKeyDownCall params)
        (.reply (IpcConnection.replyWith (OnTestKeyDownReply.mk handled))) session'
  | oneway {call : MethodCall Value} (honeway : call.isOneway = true)
      (hmethod : call.method ∈ onewayMethods) : Replied env session call .oneway session

/-- The calls of a client, one after another from the `n`-th on, and what `send` is to return for
them. -/
inductive Conversation (env : Nat → IpcEnv) :
    Nat → TipSession E → List (MethodCall Value) → List (Outcome Value) → Prop
  | nil (n : Nat) (session : TipSession E) : Conversation env n session [] []
  | cons {n : Nat} {session session' : TipSession E} {call : MethodCall Value}
      {calls : List (MethodCall Value)} {outcome : Outcome Value}
      {outcomes : List (Outcome Value)} (hreplied : Replied (env n) session call outcome session')
      (hrest : Conversation env (n + 1) session' calls outcomes) :
      Conversation env n session (call :: calls) (outcome :: outcomes)

/-- `serde_json` takes the calls that wait over the pipe, and the replies to them. -/
structure WaitsRoundTrip [JsonBytes (MethodReply Value)] (calls : List (MethodCall Value)) :
    Prop where
  ping : ∀ uuid, pingCall uuid ∈ calls →
    JsonValue.fromValue (pingCall uuid : MethodCall Value).parameters = some (Ping.mk uuid) ∧
      JsonBytes.RoundTrips (IpcConnection.replyWith (PingReply.mk uuid) : MethodReply Value)
  onTestKeyDown : ∀ params, onTestKeyDownCall params ∈ calls →
    JsonValue.fromValue (onTestKeyDownCall params : MethodCall Value).parameters = some params ∧
      ∀ handled, JsonBytes.RoundTrips
        (IpcConnection.replyWith (OnTestKeyDownReply.mk handled) : MethodReply Value)

variable [JsonBytes (MethodReply Value)]

omit [ChewingEditor E] [KeyTables] in
theorem WaitsRoundTrip.tail {call : MethodCall Value} {calls : List (MethodCall Value)}
    (h : WaitsRoundTrip (call :: calls)) : WaitsRoundTrip calls :=
  ⟨fun uuid hmem => h.ping uuid (List.mem_cons_of_mem _ hmem),
    fun params hmem => h.onTestKeyDown params (List.mem_cons_of_mem _ hmem)⟩

/-! ### The host -/

namespace IpcConnection

/-- **One call** of a text service. -/
theorem handleCall_replied (env : IpcEnv) (c : IpcConnection E Value)
    {call : MethodCall Value} {calls : List (MethodCall Value)} (hsent : SentByService call)
    (hmem : call ∈ calls) (hjson : WaitsRoundTrip calls) :
    ∃ outcome, Replied env c.tipSession call outcome (c.handleCall env call).2.tipSession ∧
      (c.handleCall env call).2.output = c.output ++ outcome.bytes := by
  cases hsent with
  | ping uuid =>
    have hmethod : (pingCall uuid : MethodCall Value).method = Ping.METHOD := rfl
    have hwaits : (!(pingCall uuid : MethodCall Value).isOneway) = true := rfl
    have hhandled : (c.handleCall env (pingCall uuid : MethodCall Value)).2
        = c.writeAll (replyWith (PingReply.mk uuid) : MethodReply Value).toBytes := by
      unfold handleCall
      dsimp only
      rw [if_pos hmethod, if_pos hwaits, (hjson.ping uuid hmem).1]
      rfl
    rw [hhandled]
    exact ⟨_, .ping uuid, rfl⟩
  | onTestKeyDown params hstate =>
    obtain ⟨ev, hev⟩ :=
      Option.isSome_iff_exists.mp ((SystemKeyboardEvent.tryFrom_isSome_iff _).mpr hstate)
    have hping : (onTestKeyDownCall params : MethodCall Value).method ≠ Ping.METHOD :=
      show OnTestKeyDown.METHOD ≠ _ by decide
    have hui : (onTestKeyDownCall params : MethodCall Value).method ∉ uiMethods :=
      show OnTestKeyDown.METHOD ∉ _ by decide
    have hcheck : (onTestKeyDownCall params : MethodCall Value).method ≠ CheckUpdate.METHOD :=
      show OnTestKeyDown.METHOD ≠ _ by decide
    have hmethod : (onTestKeyDownCall params : MethodCall Value).method = OnTestKeyDown.METHOD :=
      rfl
    have hwaits : (!(onTestKeyDownCall params : MethodCall Value).isOneway) = true := rfl
    let r := c.tipSession.onTestKeydown env.config params.isContextMutable params.isComposing
      params.shiftKeyState ev.toKeyboardEvent
    have hhandled : (c.handleCall env (onTestKeyDownCall params : MethodCall Value)).2
        = { c with tipSession := r.2 }.writeAll
          (replyWith (OnTestKeyDownReply.mk r.1) : MethodReply Value).toBytes := by
      unfold handleCall
      dsimp only
      rw [if_neg hping, if_neg hui, if_neg hcheck, if_pos hmethod,
        (hjson.onTestKeyDown params hmem).1]
      dsimp only
      rw [hev]
      dsimp only
      rw [if_pos hwaits]
    rw [hhandled]
    exact ⟨_, .onTestKeyDown hev rfl, rfl⟩
  | oneway honeway hmethod =>
    obtain ⟨w, hw, houtput, -, -⟩ := handleCall_handles env call c
    have heffects := congrArg Effects.tipSession (handleCall_effects env call c)
    -- only a key test changes the session, and a oneway call is never answered
    have hkey : call.method ≠ OnTestKeyDown.METHOD := fun h => absurd (h ▸ hmethod) (by decide)
    have hsame : (c.handleCall env call).2.tipSession = c.tipSession :=
      heffects.trans (if_neg hkey)
    rw [hsame]
    refine ⟨.oneway, .oneway honeway hmethod, ?_⟩
    rw [houtput]
    cases hw with
    | oneway => rfl
    | reply hfalse => rw [honeway] at hfalse; cases hfalse
    | silent => rfl
    | empty hlost => exact absurd (.oneway honeway) hlost

end IpcConnection

/-! ### The client -/

namespace ChewingIpcClient

/-- `send` returns what it is to return, and leaves nothing on the pipe. -/
theorem receive_replied {env : IpcEnv} {session session' : TipSession E} {call : MethodCall Value}
    {calls : List (MethodCall Value)} {outcome : Outcome Value}
    (h : Replied env session call outcome session') (hmem : call ∈ calls)
    (hjson : WaitsRoundTrip calls) :
    receive call ([] ++ outcome.bytes) = (outcome, []) ∧ outcome ≠ .waiting := by
  cases h with
  | ping uuid => exact ⟨receive_reply rfl (hjson.ping uuid hmem).2, nofun⟩
  | onTestKeyDown => exact ⟨receive_reply rfl ((hjson.onTestKeyDown _ hmem).2 _), nofun⟩
  | oneway honeway => exact ⟨if_pos honeway, nofun⟩

/-- **The client's side**: if the host writes what the replies are read from, each call reads its
own. -/
theorem outcomes_conversation {env : Nat → IpcEnv} {n : Nat} {session : TipSession E}
    {calls : List (MethodCall Value)} {outcomes : List (Outcome Value)}
    (h : Conversation env n session calls outcomes) (hjson : WaitsRoundTrip calls) :
    ChewingIpcClient.outcomes [] (calls.zip (outcomes.map Outcome.bytes)) = outcomes ∧
      leftover [] (calls.zip (outcomes.map Outcome.bytes)) = [] := by
  induction h with
  | nil => exact ⟨rfl, rfl⟩
  | @cons n session session' call calls outcome outcomes hreplied _ ih =>
    obtain ⟨hreceive, hreturns⟩ := receive_replied hreplied List.mem_cons_self hjson
    obtain ⟨houtcomes, hleft⟩ := ih hjson.tail
    rw [List.map_cons, List.zip_cons_cons]
    refine ⟨?_, ?_⟩
    · rw [IpcConnection.outcomes_cons hreceive hreturns, houtcomes]
    · rw [leftover, hreceive]
      exact hleft

end ChewingIpcClient

/-! ### The loop -/

variable [JsonBytes (MethodCall Value)]

namespace IpcConnection

/-- An iteration that reads a call handles it. -/
theorem ipcLoopOnce_handles (env : IpcEnv) {c : IpcConnection E Value} {call : MethodCall Value}
    {rest : List UInt8}
    (hcall : JsonBytes.RoundTrips call) (hinput : c.input = JsonBytes.toVec call ++ 0 :: rest) :
    (c.ipcLoopOnce env).2.tipSession
        = ({ c with input := rest }.handleCall env call).2.tipSession ∧
      (c.ipcLoopOnce env).2.output
        = ({ c with input := rest }.handleCall env call).2.output := by
  have hread : readFrame 0 c.input = (some (JsonBytes.toVec call), rest) := by
    rw [hinput, readFrame_append hcall.1]
  rw [ipcLoopOnce, hread]
  dsimp only
  rw [hcall.2]
  exact ⟨rfl, rfl⟩

/-- **The host's side**: it writes what the replies are read from, and nothing else. -/
theorem ipcLoop_conversation (env : Nat → IpcEnv) {calls : List (MethodCall Value)}
    (hcalls : ∀ call ∈ calls, JsonBytes.RoundTrips call)
    (hsent : ∀ call ∈ calls, SentByService call) (hjson : WaitsRoundTrip calls) (n : Nat)
    {c : IpcConnection E Value} (hinput : c.input = calls.flatMap ChewingIpcClient.request) :
    ∃ outcomes, Conversation env n c.tipSession calls outcomes ∧
      (c.ipcLoop env n).output = c.output ++ (outcomes.map Outcome.bytes).flatten ∧
      (c.ipcLoop env n).log = c.log ++
        (calls.zip (outcomes.map Outcome.bytes)).map fun p => ⟨some p.1, p.2⟩ := by
  induction calls generalizing c n with
  | nil =>
    -- the input is at its end
    have hend : 0 ∉ c.input := by rw [hinput]; exact List.not_mem_nil
    rw [ipcLoop, ipcLoopOnce_eof (env n) hend, if_pos rfl]
    exact ⟨[], .nil n c.tipSession, (List.append_nil _).symm, (List.append_nil _).symm⟩
  | cons call calls ih =>
    have hframe : c.input
        = JsonBytes.toVec call ++ 0 :: calls.flatMap ChewingIpcClient.request := by
      rw [hinput]
      simp [ChewingIpcClient.request]
    have hcall := hcalls call List.mem_cons_self
    -- one iteration takes the first frame and leaves the others
    obtain ⟨w, -, hcontinue, hleft, houtput, hlog⟩ := ipcLoopOnce_frame (env n) hcall hframe
    obtain ⟨hsession, hwritten⟩ := ipcLoopOnce_handles (env n) hcall hframe
    obtain ⟨outcome, hreplied, hbytes⟩ := handleCall_replied (env n)
      { c with input := calls.flatMap ChewingIpcClient.request }
      (hsent call List.mem_cons_self) List.mem_cons_self hjson
    obtain rfl : w = outcome.bytes :=
      List.append_cancel_left (houtput.symm.trans (hwritten.trans hbytes))
    obtain ⟨outcomes, hrest, hrestOutput, hrestLog⟩ :=
      ih (fun call' h => hcalls call' (List.mem_cons_of_mem _ h))
        (fun call' h => hsent call' (List.mem_cons_of_mem _ h)) hjson.tail (n + 1) hleft
    rw [ipcLoop, if_neg hcontinue]
    rw [hsession] at hrest
    refine ⟨outcome :: outcomes, .cons hreplied hrest, ?_, ?_⟩
    · rw [hrestOutput, houtput, List.append_assoc]
      rfl
    · rw [hrestLog, hlog, List.append_assoc]
      rfl

/-- **A connection** of a text service: every call reads its own reply, and nothing else is
written. -/
theorem served_conversation (env : Nat → IpcEnv) (session : TipSession E)
    {calls : List (MethodCall Value)} (hcalls : ∀ call ∈ calls, JsonBytes.RoundTrips call)
    (hsent : ∀ call ∈ calls, SentByService call) (hjson : WaitsRoundTrip calls) :
    let c : IpcConnection E Value := served env session calls
    let outcomes := ChewingIpcClient.outcomes [] c.exchanges
    Conversation env 0 session calls outcomes ∧
      c.output = (outcomes.map Outcome.bytes).flatten ∧
      ChewingIpcClient.leftover [] c.exchanges = [] := by
  intro c outcomes
  obtain ⟨replies, hconversation, houtput, hlog⟩ := ipcLoop_conversation env hcalls hsent hjson 0
    (c := accept session (calls.flatMap ChewingIpcClient.request)) rfl
  obtain ⟨houtcomes, hleft⟩ := outcomes_conversation hconversation hjson
  have hexchanges : c.exchanges = calls.zip (replies.map Outcome.bytes) := by
    have hc : c.log = (calls.zip (replies.map Outcome.bytes)).map fun p => ⟨some p.1, p.2⟩ := hlog
    rw [exchanges, hc, List.filterMap_map]
    exact List.filterMap_some
  have hreplies : outcomes = replies := (congrArg _ hexchanges).trans houtcomes
  rw [hreplies, hexchanges]
  exact ⟨hconversation, houtput, hleft⟩

end IpcConnection

end

/-! ## The window -/

section

variable {Value : Type u} [JsonValue Value ShowCandidateList] [JsonValue Value HideCandidateList]

/-- The other methods leave the window alone. -/
theorem CandidateWindow.processed_other {cmd : MethodCall Value} (h : ¬ cmd.isForList = true)
    (w : CandidateWindow) : w.processed cmd = w := by
  have hother : ¬ (cmd.method = ShowCandidateList.METHOD ∨ cmd.method = HideCandidateList.METHOD) :=
    fun hlist => h (decide_eq_true hlist)
  rw [not_or] at hother
  rw [processed, MainLoop.process, if_neg hother.1, if_neg hother.2]
  rfl

theorem CandidateWindow.foldl_processed_filter (cmds : List (MethodCall Value))
    (w : CandidateWindow) :
    (cmds.filter MethodCall.isForList).foldl processed w = cmds.foldl processed w := by
  induction cmds generalizing w with
  | nil => rfl
  | cons cmd cmds ih =>
    by_cases hlist : cmd.isForList = true
    · rw [List.filter_cons_of_pos hlist]
      exact ih _
    · rw [List.filter_cons_of_neg hlist, List.foldl_cons, processed_other hlist]
      exact ih w

omit [JsonValue Value ShowCandidateList] [JsonValue Value HideCandidateList] in
/-- What is for the window is for the main loop. -/
theorem MethodCall.filter_isForMainLoop (calls : List (MethodCall Value)) :
    (calls.filter isForMainLoop).filter isForList = calls.filter isForList := by
  rw [List.filter_filter]
  refine List.filter_congr fun call _ => ?_
  rw [isForList, isForMainLoop, ← Bool.decide_and]
  refine decide_eq_decide.mpr (and_iff_left_of_imp ?_)
  rintro (hshow | hhide)
  · rw [hshow]
    decide
  · rw [hhide]
    decide

end

/-! ## The service -/

section

open ChewingIpcClient

variable {E E' : Type} {Value : Type u} [EditorCommands E] [ChewingEditor E'] [KeyCodes]
  [JsonBytes (MethodCall Value)] [JsonBytes (MethodReply Value)]
  [JsonValue Value Ping] [JsonValue Value PingReply]
  [JsonValue Value OnTestKeyDown] [JsonValue Value OnTestKeyDownReply]
  [JsonValue Value ShowCandidateList] [JsonValue Value HideCandidateList]

/-- **From the service to the window, through the pipe**: whatever pings, key tests and oneway
messages the service sends between the commands for its candidate list, every ping gets the
reply to itself, every key test the verdict of the session on it, no other call waits for
anything, all that the host writes is read, and the window that the main loop is told to show is
the one of the service's list. -/
theorem IpcConnection.served_shows (hjson : ReadsBack Value)
    (zhconv : Str → Str) {env : Nat → IpcEnv} (hdelivered : ∀ n, (env n).delivered = true)
    (session : TipSession E') (k : Keyboard E) (events : List ListEvent)
    {calls : List (MethodCall Value)} (hcalls : ∀ call ∈ calls, JsonBytes.RoundTrips call)
    (hsent : ∀ call ∈ calls, SentByService call) (hwaits : WaitsRoundTrip calls)
    (hcommands : calls.filter MethodCall.isForList
      = reported (ListEvent.next zhconv) (fun k e => e.commands k) k events)
    {w : CandidateWindow} (hshown : Screen.Shown k w) :
    let c : IpcConnection E' Value := served env session calls
    let outcomes := ChewingIpcClient.outcomes [] c.exchanges
    Conversation env 0 session calls outcomes ∧
      c.output = (outcomes.map Outcome.bytes).flatten ∧
      leftover [] c.exchanges = [] ∧
      Screen.Shown (events.foldl (ListEvent.next zhconv) k)
        (c.commands.foldl CandidateWindow.processed w) := by
  intro c outcomes
  obtain ⟨hconversation, houtput, hleft⟩ := served_conversation env session hcalls hsent hwaits
  refine ⟨hconversation, houtput, hleft, ?_⟩
  have hreach : c.commands.filter MethodCall.isForList
      = reported (ListEvent.next zhconv) (fun k e => e.commands k) k events := by
    rw [served_commands hdelivered session hcalls, MethodCall.filter_isForMainLoop, hcommands]
  have halong : Along (fun (_ : Keyboard E) (_ : ListEvent) => True) (ListEvent.next zhconv) k
      events := .of_forall (fun _ _ => trivial) k events
  rw [← CandidateWindow.foldl_processed_filter, hreach]
  exact tracks_reported (fun k e _ => Screen.tracks_shown hjson zhconv k e) halong w hshown

end

/-! ## A few messages -/

/-- The values of the messages between a service and its host. -/
inductive ServiceJson where
  | null
  | uuid (uuid : Str)
  | key (params : OnTestKeyDown)
  | handled (b : Bool)
  | list (model : ShowCandidateList)
  deriving DecidableEq

namespace ServiceJson

open ChewingIpcClient (pingCall onTestKeyDownCall)

scoped instance : JsonValue ServiceJson Ping where
  toValue ping := uuid ping.uuid
  fromValue
    | uuid u => some ⟨u⟩
    | _ => none

scoped instance : JsonValue ServiceJson PingReply where
  toValue reply := uuid reply.uuid
  fromValue
    | uuid u => some ⟨u⟩
    | _ => none

scoped instance : JsonValue ServiceJson OnTestKeyDown where
  toValue params := key params
  fromValue
    | key params => some params
    | _ => none

scoped instance : JsonValue ServiceJson OnTestKeyDownReply where
  toValue reply := handled reply.handled
  fromValue
    | handled b => some ⟨b⟩
    | _ => none

scoped instance : JsonValue ServiceJson ShowCandidateList where
  toValue model := list model
  fromValue
    | list model => some model
    | _ => none

scoped instance : JsonValue ServiceJson HideCandidateList where
  toValue _ := null
  fromValue
    | null => some ⟨⟩
    | _ => none

theorem readsBack : ReadsBack ServiceJson where
  showCandidateList _ := rfl
  hideCandidateList _ := rfl

def text : ServiceJson → SampleJson
  | null | key _ | list _ => .null
  | uuid _ => .uuid
  | handled b => .handled b

def ofCall (call : MethodCall ServiceJson) : List UInt8 :=
  SampleJson.ofCall ⟨call.method, call.parameters.text, call.oneway, call.more, call.upgrade⟩

def ofReply (reply : MethodReply ServiceJson) : List UInt8 :=
  SampleJson.ofReply ⟨reply.parameters.text, reply.continues, reply.error⟩

def ping : Str := "0f8b".toList

open TypedEditor in
/-- Down is pressed while the candidates are shown. -/
def keyParams : OnTestKeyDown :=
  choosing.onTestKeyDownMessage true ⟨0x28, 0x50, 0, Vector.replicate 256 0⟩

scoped instance : JsonBytes (MethodCall ServiceJson) where
  toVec := ofCall
  fromSlice bytes :=
    [pingCall ping, onTestKeyDownCall keyParams, CandidateList.hideCall].find? fun call =>
      ofCall call = bytes

scoped instance : JsonBytes (MethodReply ServiceJson) where
  toVec := ofReply
  fromSlice bytes :=
    [⟨uuid ping, none, none⟩, ⟨handled true, none, none⟩, ⟨handled false, none, none⟩].find?
      fun reply => ofReply reply = bytes

/-- A key is tested, the focus is lost, and the next key is tested. -/
def killFocusCalls : List (MethodCall ServiceJson) :=
  [pingCall ping, onTestKeyDownCall keyParams, CandidateList.hideCall, pingCall ping,
    onTestKeyDownCall keyParams]

open TypedEditor in
theorem sent_killFocusCalls : ∀ call ∈ killFocusCalls, SentByService call := by
  have hkey : SentByService (onTestKeyDownCall keyParams : MethodCall ServiceJson) :=
    .onTestKeyDownCall true _ choosing
  have hhide : SentByService (CandidateList.hideCall : MethodCall ServiceJson) :=
    .oneway rfl (by decide)
  simp [killFocusCalls, hkey, hhide, SentByService.ping]

theorem waits_killFocusCalls : WaitsRoundTrip killFocusCalls where
  ping u hmem := by
    have hparams : uuid u ∈ killFocusCalls.map MethodCall.parameters := List.mem_map_of_mem hmem
    have hu : u = ping := by
      simpa [killFocusCalls, pingCall, onTestKeyDownCall, CandidateList.hideCall,
        JsonValue.toValue] using hparams
    subst hu
    exact ⟨rfl, by decide +kernel⟩
  onTestKeyDown params _ := by
    refine ⟨rfl, fun handled => ?_⟩
    cases handled <;> decide +kernel

end ServiceJson

open ServiceJson SampleJson TypedEditor in
/-- The window of a service that shows candidates, and loses the focus between two keys. -/
theorem IpcConnection.served_shows_killFocus :
    let c : IpcConnection ScriptedEditor ServiceJson :=
      served (fun _ => ipcEnv) session killFocusCalls
    ∃ (k : Keyboard TypedEditor) (w : CandidateWindow), w.visible = true ∧ Screen.Shown k w ∧
      Conversation (fun _ => ipcEnv) 0 session killFocusCalls
        (ChewingIpcClient.outcomes [] c.exchanges) ∧
      Screen.Shown ([.call (.setFocus true true)].foldl (ListEvent.next id) k)
        (c.commands.foldl CandidateWindow.processed w) := by
  have hstart : ∃ k : Keyboard TypedEditor, k.tip.candidateList.isSome = true ∧
      reported (ListEvent.next id) (fun k e => e.commands k) k [.call (.setFocus true true)]
        = [(CandidateList.hideCall : MethodCall ServiceJson)] := by
    refine ⟨{ activated .default with tip := choosing }, ?_, ?_⟩
    · decide +kernel
    · decide +kernel
  obtain ⟨k, hlist, hcommands⟩ := hstart
  obtain ⟨list, hlist⟩ := Option.isSome_iff_exists.mp hlist
  have hshown : Screen.Shown k ⟨list.model, true⟩ := by
    unfold Screen.Shown ShowsList
    rw [hlist]
    exact ⟨fun _ => rfl, fun _ => rfl⟩
  have hfilter : killFocusCalls.filter MethodCall.isForList = [CandidateList.hideCall] := by
    decide +kernel
  have hcalls : ∀ call ∈ killFocusCalls, JsonBytes.RoundTrips call := by decide +kernel
  have hdelivered : ∀ _ : Nat, ipcEnv.delivered = true := fun _ => rfl
  obtain ⟨hconversation, -, -, hkept⟩ := served_shows readsBack id hdelivered session k
    [.call (.setFocus true true)] hcalls sent_killFocusCalls waits_killFocusCalls
    (hfilter.trans hcommands.symm) hshown
  exact ⟨k, ⟨list.model, true⟩, rfl, hshown, hconversation, hkept⟩

end ChewingTsf
