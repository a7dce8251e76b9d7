import ChewingTsf.Host.Ipc

/-!
# The end of a connection (crates/chewing_tip_host/src/ipc.rs)

`ipc_loop` leaves its loop when `ipc_loop_once` finds the end of the pipe, and logs every error
and goes on. Each frame takes bytes off the pipe, whatever becomes of it. An error of
`read_until` takes none: a pipe that keeps failing keeps the thread busy for good
(`ends_iff`).
-/

namespace ChewingTsf

universe u

/-- What every read meets behind the bytes received. -/
inductive PipeEnd where
  | eof
  /-- not `Interrupted`, on which `read_until` tries again by itself -/
  | error
  deriving DecidableEq

/-- The errors of `ipc_loop_once`. -/
inductive IpcLoopError where
  /-- `receiver.read_until` -/
  | read
  | handle (e : HandleIpcError)
  /-- `sender.write_all` -/
  | write
  deriving DecidableEq

/-- What one iteration meets. -/
structure PipeEnv extends IpcEnv where
  /-- `sender.write_all` succeeds -/
  written : Bool

namespace IpcConnection

section Loop

variable {E : Type} {Value : Type u} [ChewingEditor E] [KeyTables]
  [JsonBytes (MethodCall Value)] [JsonBytes (MethodReply Value)]
  [JsonValue Value Ping] [JsonValue Value PingReply]
  [JsonValue Value OnTestKeyDown] [JsonValue Value OnTestKeyDownReply]

/-- `ipc_loop_once`, on a pipe that can fail. No arm does anything behind its `write_all`. -/
def ipcLoopOnceOn (pipeEnd : PipeEnd) (env : PipeEnv) (c : IpcConnection E Value) :
    Except IpcLoopError ControlFlow × IpcConnection E Value :=
  match readFrame 0 c.input, pipeEnd with
  | (none, rest), .error => (.error .read, { c with input := rest })
  | _, _ =>
    let (result, c') := c.ipcLoopOnce env.toIpcEnv
    if c'.output ≠ c.output ∧ env.written = false then
      (.error .write, { c' with output := c.output })
    else (result.mapError .handle, c')

/-- `ipc_loop`, from its `n`-th iteration on: the connection as the loop leaves it, `none` if
it is still in the loop after `fuel` iterations. -/
def ipcLoopOn (pipeEnd : PipeEnd) (env : Nat → PipeEnv) :
    Nat → Nat → IpcConnection E Value → Option (IpcConnection E Value)
  | 0, _, _ => none
  | fuel + 1, n, c =>
    match c.ipcLoopOnceOn pipeEnd (env n) with
    | (.ok .break, c) => some c
    | (_, c) => ipcLoopOn pipeEnd env fuel (n + 1) c

/-- `ipc_loop` leaves its loop after finitely many iterations. -/
def Ends (pipeEnd : PipeEnd) (env : Nat → PipeEnv) (c : IpcConnection E Value) : Prop :=
  ∃ fuel, (c.ipcLoopOn pipeEnd env fuel 0).isSome = true

/-! ## End of file -/

theorem ipcLoopOnceOn_eof (env : PipeEnv) (c : IpcConnection E Value) :
    c.ipcLoopOnceOn .eof env =
      if (c.ipcLoopOnce env.toIpcEnv).2.output ≠ c.output ∧ env.written = false then
        (.error .write, { (c.ipcLoopOnce env.toIpcEnv).2 with output := c.output })
      else
        ((c.ipcLoopOnce env.toIpcEnv).1.mapError .handle, (c.ipcLoopOnce env.toIpcEnv).2) := by
  unfold ipcLoopOnceOn
  cases readFrame 0 c.input with
  | mk frame rest => cases frame <;> rfl

/-- The iteration that breaks writes nothing. -/
theorem ipcLoopOnce_break {env : IpcEnv} {c : IpcConnection E Value}
    (h : (c.ipcLoopOnce env).1 = .ok .break) : (c.ipcLoopOnce env).2.output = c.output := by
  cases hread : readFrame 0 c.input with
  | mk frame rest =>
    cases frame with
    | none => rw [ipcLoopOnce, hread]
    | some buffer => exact absurd h (ipcLoopOnce_ne_break hread)

/-- Every iteration but the last takes bytes off the pipe. -/
theorem ipcLoopOnceOn_shorter (env : PipeEnv) (c : IpcConnection E Value)
    (h : (c.ipcLoopOnceOn .eof env).1 ≠ .ok .break) :
    (c.ipcLoopOnceOn .eof env).2.input.length < c.input.length := by
  have hbreak : (c.ipcLoopOnce env.toIpcEnv).1 ≠ .ok .break := by
    intro hbreak
    refine h ?_
    rw [ipcLoopOnceOn_eof, if_neg fun hwrite => hwrite.1 (ipcLoopOnce_break hbreak), hbreak]
    rfl
  have hshorter := ipcLoopOnce_shorter env.toIpcEnv c hbreak
  rw [ipcLoopOnceOn_eof]
  split <;> exact hshorter

/-- The bytes received bound the number of iterations. -/
theorem isSome_ipcLoopOn_eof (env : Nat → PipeEnv) {fuel : Nat} (n : Nat)
    {c : IpcConnection E Value} (h : c.input.length < fuel) :
    (c.ipcLoopOn .eof env fuel n).isSome = true := by
  induction fuel generalizing n c with
  | zero => omega
  | succ fuel ih =>
    have hshorter := ipcLoopOnceOn_shorter (env n) c
    unfold ipcLoopOn
    split
    next => rfl
    next result c' hbreak honce =>
      rw [honce] at hshorter
      have hlt := hshorter hbreak
      exact ih (n + 1) (by dsimp only at hlt; omega)

/-- Where nothing fails, this is the loop of `ipcLoop`. -/
theorem ipcLoopOn_eof_eq (env : Nat → PipeEnv) (henv : ∀ n, (env n).written = true) {fuel : Nat}
    (n : Nat) {c : IpcConnection E Value} (h : c.input.length < fuel) :
    c.ipcLoopOn .eof env fuel n = some (c.ipcLoop (fun n => (env n).toIpcEnv) n) := by
  induction fuel generalizing n c with
  | zero => omega
  | succ fuel ih =>
    have honce : c.ipcLoopOnceOn .eof (env n) =
        ((c.ipcLoopOnce (env n).toIpcEnv).1.mapError .handle,
          (c.ipcLoopOnce (env n).toIpcEnv).2) := by
      rw [ipcLoopOnceOn_eof, if_neg (by simp [henv n])]
    have hrest (hbreak : (c.ipcLoopOnce (env n).toIpcEnv).1 ≠ .ok .break) :
        (c.ipcLoopOnce (env n).toIpcEnv).2.input.length < fuel := by
      have hshorter := ipcLoopOnce_shorter (env n).toIpcEnv c hbreak
      omega
    rw [ipcLoopOn, ipcLoop, honce]
    cases hflow : (c.ipcLoopOnce (env n).toIpcEnv).1 with
    | error e =>
      have hbreak : (c.ipcLoopOnce (env n).toIpcEnv).1 ≠ .ok .break := by simp [hflow]
      rw [if_neg (by simp)]
      exact ih (n + 1) (hrest hbreak)
    | ok flow =>
      cases flow with
      | «break» =>
        rw [if_pos rfl]
        rfl
      | «continue» =>
        have hbreak : (c.ipcLoopOnce (env n).toIpcEnv).1 ≠ .ok .break := by simp [hflow]
        rw [if_neg (by simp)]
        exact ih (n + 1) (hrest hbreak)

/-! ## A read error -/

theorem ipcLoopOnceOn_error_ne_break (env : PipeEnv) (c : IpcConnection E Value) :
    (c.ipcLoopOnceOn .error env).1 ≠ .ok .break := by
  intro hbreak
  unfold ipcLoopOnceOn at hbreak
  cases hread : readFrame 0 c.input with
  | mk frame rest =>
    rw [hread] at hbreak
    cases frame with
    | none => cases hbreak
    | some buffer =>
      have hnot : (c.ipcLoopOnce env.toIpcEnv).1 ≠ .ok .break := ipcLoopOnce_ne_break hread
      dsimp only at hbreak
      split at hbreak
      · cases hbreak
      · cases hresult : (c.ipcLoopOnce env.toIpcEnv).1 with
        | error e => rw [hresult] at hbreak; cases hbreak
        | ok flow =>
          rw [hresult] at hbreak
          cases hbreak
          exact hnot hresult

/-- The loop logs the error and reads again. -/
theorem ipcLoopOn_error (env : Nat → PipeEnv) (fuel n : Nat) (c : IpcConnection E Value) :
    c.ipcLoopOn .error env fuel n = none := by
  induction fuel generalizing n c with
  | zero => rfl
  | succ fuel ih =>
    have hbreak := ipcLoopOnceOn_error_ne_break (env n) c
    unfold ipcLoopOn
    split
    next c' honce => rw [honce] at hbreak; exact absurd rfl hbreak
    next => exact ih ..

/-- A connection thread ends with its connection exactly if the pipe ends with end of file. -/
theorem ends_iff (pipeEnd : PipeEnd) (env : Nat → PipeEnv) (tipSession : TipSession E)
    (input : List UInt8) :
    Ends pipeEnd env (accept tipSession input : IpcConnection E Value) ↔ pipeEnd = .eof := by
  constructor
  · rintro ⟨fuel, h⟩
    cases pipeEnd with
    | eof => rfl
    | error => rw [ipcLoopOn_error] at h; cases h
  · rintro rfl
    exact ⟨input.length + 1, isSome_ipcLoopOn_eof env 0 (Nat.lt_succ_self _)⟩

end Loop

open SampleJson ScriptedEditor in
/-- Behind a `Ping`, the pipe fails for good. -/
theorem not_ends_error :
    ¬ Ends .error (fun _ => ⟨ipcEnv, true⟩) (accept session (ChewingIpcClient.request pingCall) :
      IpcConnection ScriptedEditor SampleJson) := by
  rintro ⟨fuel, h⟩
  rw [ipcLoopOn_error] at h
  cases h

end IpcConnection

end ChewingTsf
