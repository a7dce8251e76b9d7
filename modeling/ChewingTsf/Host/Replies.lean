import ChewingTsf.Host.Ipc
import Mathlib.Data.List.Forall2

/-!
# Replies and calls on the IPC pipe

`ChewingIpcClient::send` waits for one frame after every call that is not
oneway, and decodes it as a `MethodReply`. The host writes such a frame for
`Ping` and `OnTestKeyDown` alone: the other arms write `{}`, which is no
`MethodReply`, or nothing, and so does every arm that fails. Replies are paired
with calls exactly as long as every call is `Answered`.
-/

namespace ChewingTsf

universe u

namespace IpcConnection

section Pairing

variable {E : Type} {Value : Type u} [JsonBytes (MethodReply Value)]

/-- The host wrote for a call what its client waits for, and `send` returned it:
one frame that decodes, or nothing for a oneway call. -/
inductive Paired : MethodCall Value → List UInt8 → ChewingIpcClient.Outcome Value → Prop
  | oneway {call : MethodCall Value} (honeway : call.isOneway = true) : Paired call [] .oneway
  | reply {call : MethodCall Value} {frame : List UInt8} {reply : MethodReply Value}
      (honeway : call.isOneway = false) (hframe : 0 ∉ frame)
      (hdecode : JsonBytes.fromSlice frame = some reply) :
      Paired call (frame ++ [0]) (.reply reply)

/-- The calls decoded on a connection, each with the bytes written for it. -/
def exchanges (c : IpcConnection E Value) : List (MethodCall Value × List UInt8) :=
  c.log.filterMap fun it => it.call.map fun call => (call, it.written)

/-- Requests and replies stay paired on the pipe. -/
def RepliesPaired (c : IpcConnection E Value) : Prop :=
  List.Forall₂ (fun exchange outcome => Paired exchange.1 exchange.2 outcome) c.exchanges
    (ChewingIpcClient.outcomes [] c.exchanges)

/-! ## The client's side -/

theorem outcomes_head (incoming : List UInt8) (call : MethodCall Value) (w : List UInt8)
    (rest : List (MethodCall Value × List UInt8)) :
    ∃ os, ChewingIpcClient.outcomes incoming ((call, w) :: rest)
      = (ChewingIpcClient.receive call (incoming ++ w)).1 :: os := by
  rw [ChewingIpcClient.outcomes]
  split
  next h => exact ⟨[], by rw [h]⟩
  next h => exact ⟨_, by rw [h]⟩

theorem outcomes_cons {incoming : List UInt8} {call : MethodCall Value} {w : List UInt8}
    {outcome : ChewingIpcClient.Outcome Value}
    (h : ChewingIpcClient.receive call (incoming ++ w) = (outcome, []))
    (hreturns : outcome ≠ .waiting) (rest : List (MethodCall Value × List UInt8)) :
    ChewingIpcClient.outcomes incoming ((call, w) :: rest)
      = outcome :: ChewingIpcClient.outcomes [] rest := by
  rw [ChewingIpcClient.outcomes, h]
  split
  next heq => cases heq; exact absurd rfl hreturns
  next heq => cases heq; rfl

theorem Paired.frame {call : MethodCall Value} {w : List UInt8}
    {outcome : ChewingIpcClient.Outcome Value} (h : Paired call w outcome)
    (honeway : call.isOneway = false) :
    ∃ frame, ∃ reply : MethodReply Value,
      w = frame ++ [0] ∧ JsonBytes.fromSlice frame = some reply := by
  cases h with
  | oneway htrue => rw [honeway] at htrue; cases htrue
  | reply _ _ hdecode => exact ⟨_, _, rfl, hdecode⟩

section

variable [JsonValue Value Ping] [JsonValue Value OnTestKeyDown] {call : MethodCall Value}
  {w : List UInt8}

/-- For an answered call, what is written is paired with what `send` returns. -/
theorem Written.paired
    (hreply : ∀ value : Value, JsonBytes.RoundTrips (MethodReply.mk value none none))
    (hw : Written call w) (hanswered : Answered call) :
    ∃ outcome, ChewingIpcClient.receive call ([] ++ w) = (outcome, []) ∧ outcome ≠ .waiting ∧
      Paired call w outcome := by
  cases hw with
  | oneway honeway =>
    exact ⟨.oneway, by simp [ChewingIpcClient.receive, honeway], by simp, .oneway honeway⟩
  | reply honeway _ value =>
    obtain ⟨hframe, hdecode⟩ := hreply value
    refine ⟨.reply ⟨value, none, none⟩, ?_, by simp, .reply honeway hframe hdecode⟩
    simp [ChewingIpcClient.receive, honeway, MethodReply.toBytes, readFrame_append hframe, hdecode]
  | silent hlost => exact absurd hanswered hlost
  | empty hlost => exact absurd hanswered hlost

/-- Nothing that can be written for any other call is paired with it. -/
theorem Written.answered
    (hempty : (JsonBytes.fromSlice [0x7B, 0x7D] : Option (MethodReply Value)) = none)
    (hw : Written call w) {outcome : ChewingIpcClient.Outcome Value}
    (hpaired : Paired call w outcome) : Answered call := by
  cases honeway : call.isOneway with
  | true => exact .oneway honeway
  | false =>
    obtain ⟨frame, reply, hframe, hdecode⟩ := hpaired.frame honeway
    cases hw with
    | oneway htrue => exact .oneway htrue
    | reply _ hanswered => exact hanswered
    | silent => simp at hframe
    | empty =>
      have hobject : emptyObject.dropLast = frame := by rw [hframe, List.dropLast_concat]
      rw [← hobject, show emptyObject.dropLast = [0x7B, 0x7D] from rfl, hempty] at hdecode
      cases hdecode

/-- Over a sequence of calls, the pairing holds exactly while every call is
answered. -/
theorem paired_iff_answered
    (hempty : (JsonBytes.fromSlice [0x7B, 0x7D] : Option (MethodReply Value)) = none)
    (hreply : ∀ value : Value, JsonBytes.RoundTrips (MethodReply.mk value none none))
    {calls : List (MethodCall Value)} {writes : List (List UInt8)}
    (hwrites : List.Forall₂ Written calls writes) :
    List.Forall₂ (fun exchange outcome => Paired exchange.1 exchange.2 outcome)
        (calls.zip writes) (ChewingIpcClient.outcomes [] (calls.zip writes))
      ↔ ∀ call ∈ calls, Answered call := by
  induction hwrites with
  | nil => simp [ChewingIpcClient.outcomes]
  | @cons call w calls writes hw _ ih =>
    rw [List.zip_cons_cons, List.forall_mem_cons]
    constructor
    · intro h
      have hanswered : Answered call := by
        obtain ⟨os, hos⟩ := outcomes_head [] call w (calls.zip writes)
        rw [hos] at h
        cases h with
        | cons hpaired _ => exact hw.answered hempty hpaired
      obtain ⟨outcome, hreceive, hreturns, -⟩ := hw.paired hreply hanswered
      rw [outcomes_cons hreceive hreturns] at h
      cases h with
      | cons _ hrest => exact ⟨hanswered, ih.mp hrest⟩
    · rintro ⟨hanswered, hrest⟩
      obtain ⟨outcome, hreceive, hreturns, hpaired⟩ := hw.paired hreply hanswered
      rw [outcomes_cons hreceive hreturns]
      exact .cons hpaired (ih.mpr hrest)

end

/-! ## A connection -/

variable [ChewingEditor E] [KeyTables] [JsonBytes (MethodCall Value)]
  [JsonValue Value Ping] [JsonValue Value PingReply]
  [JsonValue Value OnTestKeyDown] [JsonValue Value OnTestKeyDownReply]

/-- The connection of a client that sends `calls`, once it is served. -/
def served (env : Nat → IpcEnv) (session : TipSession E) (calls : List (MethodCall Value)) :
    IpcConnection E Value :=
  (accept session (calls.flatMap ChewingIpcClient.request)).ipcLoop env 0

theorem served_exchanges (env : Nat → IpcEnv) (session : TipSession E)
    {calls : List (MethodCall Value)} (hcalls : ∀ call ∈ calls, JsonBytes.RoundTrips call) :
    ∃ writes, List.Forall₂ Written calls writes ∧
      (served env session calls).exchanges = calls.zip writes ∧
      (served env session calls).output = writes.flatten := by
  obtain ⟨writes, hwrites, -, houtput, hlog⟩ :=
    ipcLoop_framed env hcalls (show (0 : UInt8) ∉ [] from List.not_mem_nil) 0
      (c := accept session (calls.flatMap ChewingIpcClient.request)) (List.append_nil _).symm
  refine ⟨writes, hwrites, ?_, houtput⟩
  rw [exchanges, served, hlog]
  clear houtput hlog hcalls
  show ([] ++ _).filterMap _ = _
  induction hwrites with
  | nil => rfl
  | cons _ _ ih => simpa using ih

/-- **Requests and replies** of a connection: the calls are taken in order, all
that the host writes is written for one of them, and the replies are paired with
the calls exactly if every call is oneway, a `Ping` or an `OnTestKeyDown` whose
parameters are decoded. -/
theorem served_repliesPaired_iff (env : Nat → IpcEnv) (session : TipSession E)
    (calls : List (MethodCall Value)) (hcalls : ∀ call ∈ calls, JsonBytes.RoundTrips call)
    (hempty : (JsonBytes.fromSlice [0x7B, 0x7D] : Option (MethodReply Value)) = none)
    (hreply : ∀ value : Value, JsonBytes.RoundTrips (MethodReply.mk value none none)) :
    (served env session calls).exchanges.map Prod.fst = calls ∧
      (served env session calls).output
        = ((served env session calls).exchanges.map Prod.snd).flatten ∧
      ((served env session calls).RepliesPaired ↔ ∀ call ∈ calls, Answered call) := by
  obtain ⟨writes, hwrites, hexchanges, houtput⟩ := served_exchanges env session hcalls
  have hlength := hwrites.length_eq
  refine ⟨?_, ?_, ?_⟩
  · rw [hexchanges, List.map_fst_zip hlength.le]
  · rw [hexchanges, houtput, List.map_snd_zip hlength.ge]
  · rw [RepliesPaired, hexchanges]
    exact paired_iff_answered hempty hreply hwrites

end Pairing

section

open SampleJson ScriptedEditor

/-- A `Ping` that waits for its reply, and a oneway `HideCandidateList`. -/
theorem served_repliesPaired_ping :
    (served (fun _ => ipcEnv) session [pingCall, hideCall (some true)]).RepliesPaired := by
  refine (served_repliesPaired_iff (fun _ => ipcEnv) session [pingCall, hideCall (some true)]
    (by decide +kernel) (by decide +kernel) roundTrips_reply).2.2.mpr ?_
  intro call hcall
  rcases List.mem_cons.mp hcall with rfl | hcall
  · exact .ping rfl rfl
  · rw [List.mem_singleton.mp hcall]
    exact .oneway rfl

/-- `HideCandidateList` without the oneway flag: the host writes `{}`, which
`send` cannot decode as a `MethodReply`. -/
theorem served_hide_unpaired :
    ¬ ∀ calls : List (MethodCall SampleJson), (∀ call ∈ calls, JsonBytes.RoundTrips call) →
      (served (fun _ => ipcEnv) session calls).RepliesPaired := by
  intro hclaim
  have hcalls : ∀ call ∈ [hideCall none], JsonBytes.RoundTrips call := by decide +kernel
  have hpaired := hclaim _ hcalls
  obtain ⟨writes, hwrites, hexchanges, -⟩ := served_exchanges (fun _ => ipcEnv) session hcalls
  rw [RepliesPaired, hexchanges,
    paired_iff_answered (by decide +kernel) roundTrips_reply hwrites] at hpaired
  exact not_answered rfl (by decide) (by decide) (hpaired _ List.mem_cons_self)

end

end IpcConnection

end ChewingTsf
