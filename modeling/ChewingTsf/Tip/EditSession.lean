import ChewingTsf.Lib.RefCell
import ChewingTsf.Lib.Wp
import ChewingTsf.Tip.Document

/-!
# Edit sessions (tip/src/text_service/edit_session.rs)

The three sessions that write to the document, call by call. A session works on
a document and on the two cells it shares with the service, the composition and
the pending edit. Every foreign call is a `call`: it records what the session
holds borrowed at that moment, TSF may deliver `OnCompositionTerminated` from
inside it, and it may fail. The body of the `if let` chain in
`SetCompositionString.doEditSession` runs inside `withGuards`, because the
guards of its two scrutinees live until the end of the block.
-/

namespace ChewingTsf

/-- `CompositionString` (chewing.rs). -/
structure CompositionString where
  commit : Str
  preedit : Str
  segments : List (Nat × Nat)
  cursor : Nat
  deriving DecidableEq

/-- The COM calls of the sessions. -/
inductive TsfCall where
  | castContextComposition
  | castInsertAtSelection
  /-- `InsertTextAtSelection` with `TF_IAS_QUERYONLY` -/
  | querySelection
  | startComposition
  | insertTextAtSelection
  | getRange
  | setText
  | shiftStart
  | shiftEnd
  | clone
  | collapse
  | compositionShiftStart
  | compositionShiftEnd
  | getProperty
  | setValue
  | clear
  | setSelection
  | endComposition
  deriving DecidableEq

/-- A foreign call made by a session: the borrow flags of the two cells at that
moment, and whether `OnCompositionTerminated` arrived from inside it. -/
structure CallPoint where
  call : TsfCall
  composition : BorrowFlag
  pending : BorrowFlag
  reentered : Bool
  deriving DecidableEq

/-- What TSF does during one call. -/
structure CallEnv where
  reenter : Bool
  fails : Bool

/-- What TSF does during each call of a session, by its number. -/
abbrev TsfEnv := Nat → CallEnv

/-- TSF only does what it is asked for, and every call succeeds. -/
def TsfEnv.quiet : TsfEnv := fun _ => ⟨false, false⟩

/-- What a session works on. -/
structure Session where
  document : Document
  composition : RefCell (Option CompositionId)
  pending : RefCell (Option CompositionString)
  /-- the identity TSF gives to the next composition -/
  nextComposition : CompositionId
  calls : List CallPoint

/-- A session before its first call: nobody holds its cells. -/
def Session.start (document : Document) (composition : Option CompositionId)
    (pending : Option CompositionString) (next : CompositionId) : Session :=
  ⟨document, .new composition, .new pending, next, []⟩

/-- How a session stops early. -/
inductive SessionExit where
  /-- a call failed and `?` returned its error -/
  | failed
  /-- a borrow failed; the process aborts -/
  | panicked
  deriving DecidableEq

abbrev SessM := EStateM SessionExit Session

namespace SessM

/-- The state in which a session ends, however it ends. -/
def final {α : Type} (m : SessM α) (s : Session) : Session :=
  match m s with
  | .ok _ t => t
  | .error _ t => t

/-- How the session stopped early, if it did. -/
def exit {α : Type} (m : SessM α) (s : Session) : Option SessionExit :=
  match m s with
  | .ok _ _ => none
  | .error e _ => some e

/-- The session ends in a panic. -/
def panics {α : Type} (m : SessM α) (s : Session) : Prop := m.exit s = some .panicked

instance {α : Type} (m : SessM α) (s : Session) : Decidable (m.panics s) :=
  inferInstanceAs (Decidable (_ = _))

/-- `on_composition_terminated_tail` on the two cells: each is replaced by `None`. -/
def compositionTerminatedTail : SessM Unit := do
  let s ← get
  match s.pending.replace none, s.composition.replace none with
  | some p, some c =>
    modify fun s => { s with pending := p, composition := c
                             document := s.document.endComposition }
  | _, _ => throw .panicked

/-- A foreign call whose error is only logged: says whether it succeeded. -/
def tryCall (env : TsfEnv) (c : TsfCall) : SessM Bool := do
  let s ← get
  let e := env s.calls.length
  modify fun s => { s with
    calls := s.calls ++ [⟨c, s.composition.flag, s.pending.flag, e.reenter⟩] }
  onlyIf e.reenter compositionTerminatedTail
  return !e.fails

/-- A foreign call followed by `?`. -/
def call (env : TsfEnv) (c : TsfCall) : SessM Unit := do
  if ← tryCall env c then pure () else throw .failed

/-- `composition.GetRange()?`. -/
def getRange (env : TsfEnv) (c : CompositionId) : SessM TextRange := do
  call env .getRange
  let s ← get
  match s.document.rangeOf c with
  | some r => return r
  | none => throw .failed

/-- `self.composition.borrow()` for the duration of a condition. -/
def peekComposition : SessM (Option CompositionId) := do
  let s ← get
  match s.composition.flag.borrow with
  | some _ => return s.composition.value
  | none => throw .panicked

/-- `self.pending.borrow()` for the duration of a condition. -/
def peekPending : SessM (Option CompositionString) := do
  let s ← get
  match s.pending.flag.borrow with
  | some _ => return s.pending.value
  | none => throw .panicked

/-- `self.composition.replace(c)`. -/
def replaceComposition (c : Option CompositionId) : SessM Unit := do
  let s ← get
  match s.composition.replace c with
  | some cell => modify fun s => { s with composition := cell }
  | none => throw .panicked

/-- Both guards are dropped. -/
def dropGuards : SessM Unit :=
  modify fun s => { s with
    composition := { s.composition with flag := s.composition.flag.release }
    pending := { s.pending with flag := s.pending.flag.release } }

/-- `if let Some(composition) = self.composition.borrow().as_ref() && let
Some(pending) = self.pending.borrow().as_ref() { body }`: the guards live until
the block is left, by its end or by a `?`. -/
def withGuards (body : CompositionId → CompositionString → SessM Unit) : SessM Unit := do
  let s ← get
  match s.composition.flag.borrow, s.pending.flag.borrow with
  | some f, some g =>
    modify fun s => { s with composition := { s.composition with flag := f }
                             pending := { s.pending with flag := g } }
    match s.composition.value, s.pending.value with
    | some c, some p =>
      tryCatch (body c p) fun e => do
        dropGuards
        throw e
      dropGuards
    | _, _ => dropGuards
  | _, _ => throw .panicked

end SessM

open SessM

/-! ## `SetCompositionString` -/

namespace SetCompositionString

/-- The first block: a new composition at the selection. -/
def startNewComposition (env : TsfEnv) : SessM Unit := do
  call env .castContextComposition
  call env .castInsertAtSelection
  call env .querySelection
  call env .startComposition
  let s ← get
  modify fun s => { s with document := s.document.startComposition s.nextComposition
                           nextComposition := s.nextComposition + 1 }
  replaceComposition (some s.nextComposition)

/-- The display attributes of the segments; `da_atom` is cycled through. -/
def setSegments (env : TsfEnv) (range : TextRange) : List (Nat × Nat) → Nat → SessM Unit
  | [], _ => pure ()
  | seg :: segs, i => do
    call env .clone
    call env .collapse
    call env .shiftEnd
    call env .shiftStart
    let s ← get
    let len := s.document.text.length
    let segment := (range.collapseStart.shiftEnd len seg.2).shiftStart len seg.1
    let ok ← tryCall env .setValue
    onlyIf ok <| modify fun s => { s with
      document := s.document.setAttr segment (some (i % 2)) }
    setSegments env range segs (i + 1)

/-- The caret goes `cursor` units into the composition. -/
def setCursor (env : TsfEnv) (range : TextRange) (cursor : Nat) : SessM Unit := do
  call env .clone
  call env .collapse
  call env .shiftEnd
  call env .shiftStart
  let s ← get
  let len := s.document.text.length
  let cursorRange := (range.collapseStart.shiftEnd len cursor).shiftStart len cursor
  call env .setSelection
  modify fun s => { s with document := s.document.setSelection cursorRange }

/-- `range.SetText(ec, 0, &text)`: the error is logged. -/
def setText (env : TsfEnv) (range : TextRange) (text : Wide) : SessM TextRange := do
  if ← tryCall env .setText then
    modify fun s => { s with document := s.document.replaceText range text }
    return ⟨range.start, range.start + text.length⟩
  else
    return range

/-- The second block: commit and preedit in one transaction. -/
def setCommitAndPreedit (env : TsfEnv) (c : CompositionId) (pending : CompositionString) :
    SessM Unit := do
  let range ← getRange env c
  let range ← setText env range (utf16 (pending.commit ++ pending.preedit))
  call env .shiftStart
  let s ← get
  let range := range.shiftStart s.document.text.length pending.commit.length
  call env .compositionShiftStart
  modify fun s => { s with document := s.document.compositionShiftStart range }
  call env .getProperty
  setSegments env range pending.segments 0
  setCursor env range pending.cursor

/-- `SetCompositionString::DoEditSession`. -/
def doEditSession (env : TsfEnv) : SessM Unit := do
  -- the guards of a plain `if` condition are dropped before its block runs
  let isNone := (← peekComposition).isNone
  let isSome := (← peekPending).isSome
  onlyIf (isNone && isSome) (startNewComposition env)
  withGuards (setCommitAndPreedit env)

/-- Nobody holds the cells when the session begins: its two blocks are all there
is to it. -/
theorem wp_doEditSession {env : TsfEnv} {d : Document} {c : Option CompositionId}
    {p : Option CompositionString} {next : CompositionId}
    {post : Unit → Session → Prop} {exc : SessionExit → Session → Prop} :
    wp (doEditSession env) post exc (.start d c p next) ↔
      if c.isNone ∧ p.isSome then
        wp (startNewComposition env)
          (fun _ t => wp (withGuards (setCommitAndPreedit env)) post exc t) exc
          (.start d c p next)
      else wp (withGuards (setCommitAndPreedit env)) post exc (.start d c p next) := by
  unfold doEditSession peekComposition peekPending
  rw [wp_bind, wp_bind, wp_get]
  simp only [Session.start, RefCell.new, BorrowFlag.borrow]
  rw [wp_pure, wp_bind, wp_bind, wp_get]
  simp only
  rw [wp_pure, wp_bind, wp_onlyIf]
  simp only [Bool.and_eq_true]

end SetCompositionString

/-! ## `InsertText` and `EndComposition` -/

/-- `InsertText::DoEditSession`. -/
def InsertText.doEditSession (env : TsfEnv) (text : Wide) : SessM Unit := do
  call env .castInsertAtSelection
  call env .insertTextAtSelection
  let s ← get
  let caret := s.document.selection
  modify fun s => { s with document := s.document.replaceText ⟨caret, caret⟩ text }
  call env .collapse
  call env .setSelection
  modify fun s => { s with
    document := s.document.setSelection ⟨caret + text.length, caret + text.length⟩ }

namespace EndComposition

/-- `EndComposition::will_end_composition`. -/
def willEndComposition (env : TsfEnv) (c : CompositionId) : SessM Unit := do
  let range ← getRange env c
  call env .getProperty
  call env .clear
  modify fun s => { s with document := s.document.setAttr range none }
  call env .collapse
  let range := range.collapseEnd
  call env .compositionShiftStart
  modify fun s => { s with document := s.document.compositionShiftStart range }
  call env .compositionShiftEnd
  modify fun s => { s with document := s.document.compositionShiftEnd range }
  call env .setSelection
  modify fun s => { s with document := s.document.setSelection range }

/-- `EndComposition::DoEditSession`: `self.composition.take()` empties the cell. -/
def doEditSession (env : TsfEnv) : SessM Unit := do
  let s ← get
  replaceComposition none
  match s.composition.value with
  | none => pure ()
  | some c =>
    willEndComposition env c
    call env .endComposition
    modify fun s => { s with document := s.document.endComposition }

end EndComposition

end ChewingTsf
