import ChewingTsf.Core.Ipc
import ChewingTsf.Tip.Keybind
import ChewingTsf.Tip.SessionQueue

/-!
# The state of the text service (tip/src/text_service/chewing.rs)

`ChewingTextService` is the state behind the COM object and `Tip` that state
together with what it shares with TSF: the document, the cells, and the edit
sessions TSF has been asked for and has not run yet. `pending_edit` is a `Weak`
reference to a cell that only a requested session owns, so it upgrades exactly
while that session is still queued (`Tip.upgradePendingEdit`).

TSF runs a requested session later, in request order (`Grant.queued`), or from
inside the request (`Grant.immediate`).
-/

namespace ChewingTsf

/-- `TsfLangMode`. -/
inductive TsfLangMode where
  | chinese
  | english
  | disabledChinese
  | disabledEnglish
  deriving DecidableEq

namespace TsfLangMode

/-- `TsfLangMode::is_disabled`. -/
def isDisabled : TsfLangMode → Bool
  | disabledChinese | disabledEnglish => true
  | _ => false

/-- `LanguageMode::from`. -/
def toLanguageMode : TsfLangMode → LanguageMode
  | chinese | disabledChinese => .chinese
  | english | disabledEnglish => .english

/-- `PartialEq<LanguageMode>`: a disabled mode equals neither. -/
def eqLanguageMode : TsfLangMode → LanguageMode → Bool
  | chinese, .chinese | english, .english => true
  | _, _ => false

/-- The mode `toggle_lang_mode` switches to. -/
def toggled : TsfLangMode → TsfLangMode
  | english => chinese
  | chinese => english
  | disabledEnglish => disabledChinese
  | disabledChinese => disabledEnglish

end TsfLangMode

/-- `ShiftKeyState`, with the time of the key-down in milliseconds. -/
inductive ShiftKeyState where
  | down (since : Nat)
  | consumed
  | up
  deriving DecidableEq

/-- `ShiftKeyState::release`: how long the key was down. -/
def ShiftKeyState.release (now : Nat) : ShiftKeyState → Option Nat × ShiftKeyState
  | .down since => (some (now - since), .up)
  | .consumed | .up => (none, .up)

/-- `CandidateList`: the model last sent, and whether the application draws it. -/
structure CandidateList where
  model : ShowCandidateList
  uiless : Bool
  deriving DecidableEq

/-- How a fallible operation ends early. -/
inductive Fault where
  | error
  /-- the process aborts -/
  | panic
  deriving DecidableEq

/-- `ChewingTextService`. -/
structure ChewingTextService (E : Type) where
  langMode : TsfLangMode
  pendingLangModeChange : Bool
  hasFocus : Bool
  outputSimpChinese : Bool
  shiftKeyState : ShiftKeyState
  cfg : ChewingTsfConfig
  kbtype : KeyboardLayoutCompat
  keybindings : List Keybinding
  chewingEditor : E
  candidateList : Option CandidateList
  /-- `Rc<RefCell<Option<ITfComposition>>>` -/
  composition : CellId
  /-- `Weak<RefCell<Option<CompositionString>>>` -/
  pendingEdit : Option CellId

/-- When TSF runs the sessions it is asked for. -/
inductive Grant where
  | queued
  | immediate
  deriving DecidableEq

/-- The text service and what it shares with TSF. -/
structure Tip (E : Type) extends ChewingTextService E where
  store : Store
  /-- the sessions requested and not run yet, oldest first -/
  queue : List EditSession
  /-- the identity of the next cell to be allocated -/
  nextCell : CellId
  grant : Grant

namespace Tip

variable {E : Type}

/-- `request_edit_session`: errors of the request are only logged. -/
def requestEditSession (s : EditSession) (t : Tip E) : Tip E :=
  match t.grant with
  | .queued => { t with queue := t.queue ++ [s] }
  | .immediate => { t with store := s.run t.store }

/-- The pending cell is still owned by a requested session. -/
def Owned (t : Tip E) (p : CellId) : Prop := some p ∈ t.queue.map EditSession.pendingCell

instance (t : Tip E) (p : CellId) : Decidable (t.Owned p) :=
  inferInstanceAs (Decidable (_ ∈ _))

/-- `self.pending_edit.upgrade()`. -/
def upgradePendingEdit (t : Tip E) : Option CellId :=
  t.pendingEdit.filter fun p => t.Owned p

/-- The edit of the session that `pending_edit` still reaches. -/
def pendingString (t : Tip E) : Option CompositionString :=
  t.upgradePendingEdit.bind t.store.pendings

/-- `is_composing`. -/
def isComposing (t : Tip E) : Bool :=
  (t.store.compositions t.composition).isSome || t.candidateList.isSome

/-- TSF runs the oldest session. -/
def runSession (t : Tip E) : Tip E :=
  match t.queue with
  | [] => t
  | s :: queue => { t with store := s.run t.store, queue := queue }

end Tip

end ChewingTsf
