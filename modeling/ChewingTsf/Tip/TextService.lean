import ChewingTsf.Lib.RefCell
import ChewingTsf.Lib.Run
import ChewingTsf.Lib.Wp
import ChewingTsf.Tip.Service

/-!
# The COM object (tip/src/text_service/mod.rs)

`TextService` answers the callbacks of TSF. Each callback takes `inner`, the cell
with the `ChewingTextService`, in its own way, and TSF may make another callback
from inside a handler: these `arrivals` are part of the input, and they run the
very program that answers them on their own. What the handlers do to the service
is left open; `S` is the type of the service.

The events record what arrived where, and when a termination of the composition
was deferred and settled.
-/

namespace ChewingTsf

/-- How a callback ends early. -/
inductive CallbackExit where
  /-- it returns an error -/
  | failed
  /-- a handler panics -/
  | panicked
  /-- a borrow of `inner` panics; the process aborts -/
  | conflict
  deriving DecidableEq

/-- The callbacks that arrive from inside another one. -/
inductive ReentrantKind where
  | compositionTerminated
  /-- `OnChange`, with or without a GUID -/
  | change (guid : Bool)
  | setFocus
  deriving DecidableEq

/-- A callback from inside another one: what it found when it arrived, and whether
it ended in a borrow conflict. -/
structure NestedCall where
  kind : ReentrantKind
  inner : BorrowFlag
  keyBusy : Bool
  conflict : Bool
  deriving DecidableEq

inductive ServiceEvent where
  /-- TSF makes a callback, with no other one executing -/
  | called
  | nested (n : NestedCall)
  /-- the flag `composition_terminated` is set -/
  | deferred
  /-- `on_composition_terminated_tail` begins -/
  | tail
  deriving DecidableEq

/-- `TextService`. -/
structure TextService (S : Type) where
  inner : RefCell (Option S)
  keyBusy : Bool
  compositionTerminated : Bool
  events : List ServiceEvent

/-- A method of the service. -/
abbrev Handler (S α : Type) := S → Except Fault α × S

abbrev CallM (S : Type) := EStateM CallbackExit (TextService S)

namespace CallM

variable {S α : Type}

/-! ## `inner` -/

/-- `self.inner.borrow()`. -/
def borrow : CallM S (Option S) := do
  let s ← get
  match s.inner.flag.borrow with
  | some f => do
    modify fun s => { s with inner := { s.inner with flag := f } }
    return s.inner.value
  | none => throw .conflict

/-- `self.inner.borrow_mut()`. -/
def borrowMut : CallM S (Option S) := do
  let s ← get
  match s.inner.flag.borrowMut with
  | some f => do
    modify fun s => { s with inner := { s.inner with flag := f } }
    return s.inner.value
  | none => throw .conflict

/-- `self.inner.try_borrow_mut()`: `none` if it fails. -/
def tryBorrowMut : CallM S (Option (Option S)) := do
  let s ← get
  match s.inner.flag.borrowMut with
  | some f => do
    modify fun s => { s with inner := { s.inner with flag := f } }
    return some s.inner.value
  | none => return none

/-- A guard is dropped. -/
def dropGuard : CallM S Unit :=
  modify fun s => { s with inner := { s.inner with flag := s.inner.flag.release } }

/-- `body` while a guard is held: it is dropped however `body` ends. -/
def holding (body : CallM S α) : CallM S α := do
  let a ← tryCatch body fun e => do
    dropGuard
    throw e
  dropGuard
  return a

/-- A method of the service behind the guard, and the callbacks that arrive from
inside it. -/
def invoke (arrive : CallM S Unit) (handler : Handler S α) (ts : S) : CallM S α := do
  modify fun s => { s with inner := { s.inner with value := some (handler ts).2 } }
  arrive
  match (handler ts).1 with
  | .ok a => return a
  | .error .error => throw .failed
  | .error .panic => throw .panicked

/-- `if let Err(error) = ..`: an error is only logged. -/
def logged (body : CallM S Unit) : CallM S Unit :=
  tryCatch body fun e => if e = .failed then pure () else throw e

/-- The block that holds `inner` mutably; `none` if there is no service. `pic` says
whether the context it needs is there (`pic.ok()?`). -/
def behindGuard (pic : Bool) (arrive : CallM S Unit) (handler : Handler S α) :
    CallM S (Option α) := do
  match ← borrowMut with
  | none => do
    dropGuard
    return none
  | some ts => do
    let a ← holding (if pic then invoke arrive handler ts else throw .failed)
    return some a

/-- `ReentrantOps::sync_keyboard_openclose`, behind a shared guard. -/
def syncKeyboardOpenclose (arrive : CallM S Unit) (sync : Handler S Unit) : CallM S Unit := do
  let s ← get
  match s.inner.value with
  | none => throw .failed
  | some ts => invoke arrive sync ts

/-- `ReentrantOps::from_mut` takes a shared guard in place of the exclusive one. -/
def fromMut (ops : CallM S Unit) : CallM S Unit := do
  let _ ← borrow
  holding ops

end CallM

open CallM

/-! ## The callbacks the code prepares for as reentrant -/

/-- A call of `OnChange`. -/
structure CompartmentChange (S : Type) where
  /-- null, or whether it is `GUID_COMPARTMENT_KEYBOARD_OPENCLOSE` -/
  rguid : Option Bool
  shouldSyncKeyboardOpenclose : S → Bool
  onCompartmentChangeRo : Handler S Unit
  onCompartmentChange : Handler S Unit
  sync : Handler S Unit

/-- A call of `ITfThreadMgrEventSink::OnSetFocus`. -/
structure FocusChange (S : Type) where
  /-- `pdimfocus` is null -/
  null : Bool
  onKillFocus : Handler S Unit
  onFocus : Handler S Unit

/-- The method it calls. -/
def FocusChange.handler {S : Type} (f : FocusChange S) : Handler S Unit :=
  if f.null then f.onKillFocus else f.onFocus

namespace TextService

variable {S : Type}

/-- `OnCompositionTerminated`; `pcomposition` says whether it is there. -/
def onCompositionTerminated (arrive : CallM S Unit) (pcomposition : Bool)
    (handler : Handler S Unit) : CallM S Unit := do
  match ← tryBorrowMut with
  | none => modify fun s => { s with compositionTerminated := true
                                     events := s.events ++ [.deferred] }
  | some none => dropGuard
  | some (some ts) =>
    holding (logged (if pcomposition then invoke arrive handler ts else pure ()))

/-- `ITfCompartmentEventSink::OnChange`. -/
def onChange (arrive arriveSync : CallM S Unit) (c : CompartmentChange S) : CallM S Unit := do
  match c.rguid with
  | none => pure ()
  | some openclose => do
    -- the guard of the condition is dropped before the block runs
    let shouldSync := (← borrow).any c.shouldSyncKeyboardOpenclose
    dropGuard
    if shouldSync then
      match ← borrow with
      | none => dropGuard
      | some ts => holding do
        invoke arrive c.onCompartmentChangeRo ts
        -- `ReentrantOps::from_ref` keeps the guard
        if openclose then syncKeyboardOpenclose arriveSync c.sync
    else
      match ← tryBorrowMut with
      | none => pure ()
      | some none => dropGuard
      | some (some ts) => holding (invoke arrive c.onCompartmentChange ts)

/-- `ITfThreadMgrEventSink::OnSetFocus`. -/
def onSetFocus (arrive : CallM S Unit) (f : FocusChange S) : CallM S Unit := do
  let s ← get
  if s.keyBusy then pure ()
  else do
    let _ ← behindGuard true arrive f.handler
    pure ()

end TextService

/-- A callback from inside another one. -/
inductive Reentrant (S : Type) where
  | compositionTerminated (pcomposition : Bool) (handler : Handler S Unit)
  | change (c : CompartmentChange S)
  | setFocus (f : FocusChange S)

namespace Reentrant

variable {S : Type}

def kind : Reentrant S → ReentrantKind
  | compositionTerminated _ _ => .compositionTerminated
  | change c => .change c.rguid.isSome
  | setFocus _ => .setFocus

def run : Reentrant S → CallM S Unit
  | compositionTerminated pcomposition handler =>
    TextService.onCompositionTerminated (pure ()) pcomposition handler
  | change c => TextService.onChange (pure ()) (pure ()) c
  | setFocus f => TextService.onSetFocus (pure ()) f

/-- It arrives: an error it returns is TSF's, a panic is everybody's. -/
def deliver (r : Reentrant S) : CallM S Unit := fun s =>
  let record (conflict : Bool) (t : TextService S) : TextService S :=
    { t with events := t.events ++ [.nested ⟨r.kind, s.inner.flag, s.keyBusy, conflict⟩] }
  match r.run s with
  | .ok _ t => .ok () (record false t)
  | .error .failed t => .ok () (record false t)
  | .error .panicked t => .error .panicked (record false t)
  | .error .conflict t => .error .conflict (record true t)

end Reentrant

/-- Callbacks arrive one after the other. -/
def arriveAll {S : Type} : List (Reentrant S) → CallM S Unit
  | [] => pure ()
  | r :: rs => do
    r.deliver
    arriveAll rs

/-! ## The callbacks -/

/-- A call of a method, and the callbacks that arrive from inside it. -/
structure HandlerCall (S α : Type) where
  arrivals : List (Reentrant S)
  handler : Handler S α

def HandlerCall.invoke {S α : Type} (c : HandlerCall S α) (ts : S) : CallM S α :=
  CallM.invoke (arriveAll c.arrivals) c.handler ts

def HandlerCall.syncKeyboardOpenclose {S : Type} (c : HandlerCall S Unit) : CallM S Unit :=
  CallM.syncKeyboardOpenclose (arriveAll c.arrivals) c.handler

/-- What one of the four key callbacks meets. -/
structure KeyCallback (S : Type) where
  /-- `pic` is there -/
  pic : Bool
  call : HandlerCall S Bool
  sync : HandlerCall S Unit
  tail : HandlerCall S Unit

namespace TextService

variable {S : Type}

/-- `tail_handler`. -/
def tailHandler (tail : HandlerCall S Unit) : CallM S Unit := do
  let s ← get
  if s.compositionTerminated then do
    modify fun s => { s with compositionTerminated := false }
    match ← tryBorrowMut with
    | none => pure ()
    | some none => dropGuard
    | some (some ts) => do
      modify fun s => { s with events := s.events ++ [.tail] }
      holding (logged (tail.invoke ts))
  else pure ()

/-- `OnTestKeyDown`. -/
def onTestKeyDown (k : KeyCallback S) : CallM S Bool := do
  match ← behindGuard k.pic (arriveAll k.call.arrivals) k.call.handler with
  | none => return false
  | some shouldHandle => do
    tailHandler k.tail
    return shouldHandle

/-- `OnTestKeyUp`. -/
def onTestKeyUp (k : KeyCallback S) : CallM S Bool := do
  match ← behindGuard k.pic (arriveAll k.call.arrivals) k.call.handler with
  | none => return false
  | some shouldHandle => do
    fromMut k.sync.syncKeyboardOpenclose
    tailHandler k.tail
    return shouldHandle

/-- `OnKeyDown`. -/
def onKeyDown (k : KeyCallback S) : CallM S Bool := do
  modify fun s => { s with keyBusy := true }
  match ← behindGuard k.pic (arriveAll k.call.arrivals) k.call.handler with
  | none => return false
  | some handled => do
    tailHandler k.tail
    return handled

/-- `OnKeyUp`. -/
def onKeyUp (k : KeyCallback S) : CallM S Bool := do
  modify fun s => { s with keyBusy := false }
  match ← behindGuard k.pic (arriveAll k.call.arrivals) k.call.handler with
  | none => return false
  | some handled => do
    fromMut k.sync.syncKeyboardOpenclose
    tailHandler k.tail
    return handled

/-- `OnSetThreadFocus`. -/
def onSetThreadFocus (call sync : HandlerCall S Unit) : CallM S Unit := do
  match ← behindGuard true (arriveAll call.arrivals) call.handler with
  | none => pure ()
  | some _ => fromMut sync.syncKeyboardOpenclose

/-- `IFnRunCommand::on_command`. -/
def onCommand (arrivals : List (Reentrant S)) (handler : S → S) (sync : HandlerCall S Unit) :
    CallM S Unit := do
  match ← behindGuard true (arriveAll arrivals) fun ts => (.ok (), handler ts) with
  | none => pure ()
  | some _ => logged (fromMut sync.syncKeyboardOpenclose)

end TextService

/-- A callback that TSF makes while no other one executes. -/
inductive Callback (S : Type) where
  | testKeyDown (k : KeyCallback S)
  | testKeyUp (k : KeyCallback S)
  | keyDown (k : KeyCallback S)
  | keyUp (k : KeyCallback S)
  | setThreadFocus (call sync : HandlerCall S Unit)
  | command (arrivals : List (Reentrant S)) (handler : S → S) (sync : HandlerCall S Unit)
  | setFocus (arrivals : List (Reentrant S)) (f : FocusChange S)
  | compositionTerminated (pcomposition : Bool) (call : HandlerCall S Unit)
  | change (arrivals syncArrivals : List (Reentrant S)) (c : CompartmentChange S)

namespace Callback

variable {S : Type}

open TextService

/-- The program that answers it. -/
def body : Callback S → CallM S Unit
  | testKeyDown k => discard (onTestKeyDown k)
  | testKeyUp k => discard (onTestKeyUp k)
  | keyDown k => discard (onKeyDown k)
  | keyUp k => discard (onKeyUp k)
  | setThreadFocus call sync => onSetThreadFocus call sync
  | command arrivals handler sync => onCommand arrivals handler sync
  | setFocus arrivals f => onSetFocus (arriveAll arrivals) f
  | compositionTerminated pcomposition call =>
    onCompositionTerminated (arriveAll call.arrivals) pcomposition call.handler
  | change arrivals syncArrivals c => onChange (arriveAll arrivals) (arriveAll syncArrivals) c

def run (c : Callback S) : CallM S Unit := do
  modify fun s => { s with events := s.events ++ [.called] }
  c.body

end Callback

/-- A callback that returns to TSF, with or without an error. -/
inductive CallbackStep {S : Type} : TextService S → Callback S → TextService S → Prop
  | ok {s t : TextService S} {c : Callback S} (h : c.run s = .ok () t) : CallbackStep s c t
  | failed {s t : TextService S} {c : Callback S} (h : c.run s = .error .failed t) :
      CallbackStep s c t

end ChewingTsf
