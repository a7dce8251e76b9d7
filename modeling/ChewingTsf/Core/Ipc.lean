import ChewingTsf.Lib.Framing
import ChewingTsf.Lib.Str

/-!
# IPC messages (crates/chewing_tip_core/src/ipc)

The calls that travel from the text service to the host, and from the host's
IPC threads to its UI main loop, and the replies. The parameters are
`serde_json::Value`s, which are third-party data: the type is a parameter, and
so are the conversions of `serde_json` (`JsonBytes`, `JsonValue`), without laws.
-/

namespace ChewingTsf

universe u v

/-! ## `serde_json` -/

/-- `serde_json::to_vec` and `serde_json::from_slice`. -/
class JsonBytes (T : Type u) where
  toVec : T → List UInt8
  fromSlice : List UInt8 → Option T

/-- The encoding of `x` has no zero byte and is decoded to `x`. -/
def JsonBytes.RoundTrips {T : Type u} [JsonBytes T] (x : T) : Prop :=
  0 ∉ toVec x ∧ fromSlice (toVec x) = some x

instance {T : Type u} [JsonBytes T] [DecidableEq T] (x : T) :
    Decidable (JsonBytes.RoundTrips x) :=
  inferInstanceAs (Decidable (_ ∧ _))

/-- `serde_json::to_value` and `serde_json::from_value`. -/
class JsonValue (Value : Type u) (T : Type v) where
  toValue : T → Value
  fromValue : Value → Option T

/-! ## Calls and replies (varlink.rs) -/

/-- `MethodCall` (varlink.rs). -/
structure MethodCall (Value : Type u) where
  method : String
  parameters : Value
  oneway : Option Bool
  more : Option Bool
  upgrade : Option Bool
  deriving DecidableEq

/-- `matches!(method_call.oneway, Some(true))` (client.rs), and
`call.oneway.is_some_and(|v| v)` (the host's ipc.rs). -/
def MethodCall.isOneway {Value : Type u} (call : MethodCall Value) : Bool :=
  call.oneway.getD false

/-- `MethodReply` (varlink.rs). -/
structure MethodReply (Value : Type u) where
  parameters : Value
  continues : Option Bool
  error : Option String
  deriving DecidableEq

/-- `MethodReply::to_bytes`. -/
def MethodReply.toBytes {Value : Type u} [JsonBytes (MethodReply Value)]
    (reply : MethodReply Value) : List UInt8 :=
  JsonBytes.toVec reply ++ [0]

/-! ## The client (client.rs) -/

namespace ChewingIpcClient

variable {Value : Type u}

/-- The bytes that `send` writes. -/
def request [JsonBytes (MethodCall Value)] (call : MethodCall Value) : List UInt8 :=
  JsonBytes.toVec call ++ [0]

/-- What `send` returns. -/
inductive Outcome (Value : Type u) where
  /-- a oneway call returns at once -/
  | oneway
  | reply (reply : MethodReply Value)
  /-- `from_slice` fails on the reply -/
  | undecodable
  /-- no frame comes: `read_until` blocks as long as the host holds the pipe -/
  | waiting

/-- What `send` returns for a call when the pipe holds `incoming`, and what the
pipe holds then: bytes behind the frame are lost with the `BufReader`. -/
def receive [JsonBytes (MethodReply Value)] (call : MethodCall Value) (incoming : List UInt8) :
    Outcome Value × List UInt8 :=
  if call.isOneway then (.oneway, incoming)
  else
    match readFrame 0 incoming with
    | (none, _) => (.waiting, [])
    | (some buffer, _) =>
      match (JsonBytes.fromSlice buffer : Option (MethodReply Value)) with
      | none => (.undecodable, [])
      | some reply => (.reply reply, [])

/-- The outcomes of `send` for the calls of one client, made one after another,
when the host writes the given bytes for each. A call that waits is the last. -/
def outcomes [JsonBytes (MethodReply Value)] :
    List UInt8 → List (MethodCall Value × List UInt8) → List (Outcome Value)
  | _, [] => []
  | incoming, (call, written) :: rest =>
    match receive call (incoming ++ written) with
    | (.waiting, _) => [.waiting]
    | (outcome, incoming) => outcome :: outcomes incoming rest

end ChewingIpcClient

/-! ## Messages (messages.rs, values.rs) -/

def Ping.METHOD : String := "im.chewing.ipc.Ping"
def ShowNotification.METHOD : String := "im.chewing.ui.ShowNotification"
def ShowCandidateList.METHOD : String := "im.chewing.ui.ShowCandidateList"
def HideCandidateList.METHOD : String := "im.chewing.ui.HideCandidateList"
def Stop.METHOD : String := "im.chewing.ui.Stop"
def CheckUpdate.METHOD : String := "im.chewing.ui.CheckUpdate"
def OnTestKeyDown.METHOD : String := "im.chewing.tip.OnTestKeyDown"

/-- `Ping`. -/
structure Ping where
  uuid : Str
  deriving DecidableEq

/-- `PingReply`. -/
structure PingReply where
  uuid : Str
  deriving DecidableEq

/-- `PingReply::from`. -/
def PingReply.from (value : Ping) : PingReply := ⟨value.uuid⟩

/-- `IpcShiftKeyState`. -/
inductive IpcShiftKeyState where
  | down
  | consumed
  | up
  deriving DecidableEq

/-- `IpcKeyEvent`. -/
structure IpcKeyEvent where
  vk : UInt16
  scanCode : UInt16
  asciiCode : UInt8
  keyState : List UInt8
  deriving DecidableEq

/-- `OnTestKeyDown`. -/
structure OnTestKeyDown where
  isContextMutable : Bool
  isComposing : Bool
  shiftKeyState : IpcShiftKeyState
  event : IpcKeyEvent
  deriving DecidableEq

/-- `OnTestKeyDownReply`. -/
structure OnTestKeyDownReply where
  handled : Bool
  deriving DecidableEq

/-- `Position` (values.rs). -/
structure Position where
  x : Int
  y : Int
  deriving DecidableEq

/-- `ShowCandidateList` (messages.rs); the font size is sent as a float and kept
here as the integer it is made from. -/
structure ShowCandidateList where
  position : Position
  items : List Str
  selkeys : List UInt16
  candPerRow : UInt32
  totalPage : UInt32
  currentPage : UInt32
  fontFamily : Str
  fontSize : Int
  fgColor : Str
  bgColor : Str
  highlightFgColor : Str
  highlightBgColor : Str
  borderColor : Str
  selkeyColor : Str
  useCursor : Bool
  currentSel : Nat
  deriving DecidableEq

/-- `ShowCandidateList::default`. -/
def ShowCandidateList.default : ShowCandidateList where
  position := ⟨0, 0⟩
  items := []
  selkeys := []
  candPerRow := 0
  totalPage := 0
  currentPage := 0
  fontFamily := []
  fontSize := 0
  fgColor := []
  bgColor := []
  highlightFgColor := []
  highlightBgColor := []
  borderColor := []
  selkeyColor := []
  useCursor := false
  currentSel := 0

/-- `HideCandidateList`. -/
structure HideCandidateList where
  deriving DecidableEq

end ChewingTsf
