import ChewingTsf.Lib.Str

/-!
# The `chewing` crate, as the text service uses it

The engine is not part of the repository. The key symbols it defines and the
operations of its `Editor` are parameters (`Keysyms`, `ChewingEditor`), without
laws: a result that relies on what the engine does says so in its statement.
Methods that return a `Result` also return the editor they leave behind.
-/

namespace ChewingTsf

/-! ## Keys -/

/-- `Keysym(pub u32)`. -/
structure Keysym where
  code : UInt32
  deriving DecidableEq

/-- `Keycode(pub u8)`. -/
structure Keycode where
  code : UInt8
  deriving DecidableEq

/-- The symbols and predicates of `chewing::input::keysym`. -/
class Keysyms where
  symNone : Keysym
  symEsc : Keysym
  symHome : Keysym
  symEnd : Keysym
  symDelete : Keysym
  symTab : Keysym
  symBackspace : Keysym
  symCapslock : Keysym
  symReturn : Keysym
  symSpace : Keysym
  symLeftshift : Keysym
  symRightshift : Keysym
  /-- `SYM_F1` to `SYM_F12` -/
  symF : Fin 12 → Keysym
  /-- `Keysym::is_unicode` -/
  isUnicode : Keysym → Bool
  /-- `Keysym::is_digit` -/
  isDigit : Keysym → Bool
  /-- `Keysym::from_char` -/
  fromChar : Char → Keysym

inductive KeyState where
  | shift
  | control
  | alt
  | super
  | capsLock
  | numLock
  deriving DecidableEq

structure KeyboardEvent where
  code : Keycode
  ksym : Keysym
  shift : Bool
  control : Bool
  alt : Bool
  super : Bool
  capsLock : Bool
  numLock : Bool
  deriving DecidableEq

/-- `KeyboardEvent::is_state_on`. -/
def KeyboardEvent.isStateOn (evt : KeyboardEvent) : KeyState → Bool
  | .shift => evt.shift
  | .control => evt.control
  | .alt => evt.alt
  | .super => evt.super
  | .capsLock => evt.capsLock
  | .numLock => evt.numLock

/-! ## The editor -/

inductive LanguageMode where
  | chinese
  | english
  deriving DecidableEq

inductive CharacterForm where
  | halfwidth
  | fullwidth
  deriving DecidableEq

inductive EditorKeyBehavior where
  | ignore
  | absorb
  | bell
  | commit
  deriving DecidableEq

inductive UserPhraseAddDirection where
  | forward
  | backward
  deriving DecidableEq

inductive ConversionEngineKind where
  | simpleEngine
  | chewingEngine
  | fuzzyChewingEngine
  deriving DecidableEq

inductive LookupStrategy where
  | standard
  | fuzzyPartialPrefix
  deriving DecidableEq

inductive KeyboardLayoutCompat where
  | default
  | hsu
  | ibm
  | ginYieh
  | et
  | et26
  | dvorak
  | dvorakHsu
  | dachenCp26
  | hanyuPinyin
  | thlPinyin
  | mps2Pinyin
  | carpalx
  | colemakDhAnsi
  | colemakDhOrth
  | workman
  | colemak
  deriving DecidableEq

/-- The options of an editor that the text service reads or sets. -/
structure EditorOptions where
  easySymbolInput : Bool
  userPhraseAddDir : UserPhraseAddDirection
  phraseChoiceRearward : Bool
  autoShiftCursor : Bool
  candidatesPerPage : Nat
  escClearAllBuffer : Bool
  spaceIsSelectKey : Bool
  disableAutoLearnPhrase : Bool
  enableFullwidthToggleKey : Bool
  sortCandidatesByFrequency : Bool
  conversionEngine : ConversionEngineKind
  lookupStrategy : LookupStrategy
  autoSnapshotSelections : Bool
  characterForm : CharacterForm
  languageMode : LanguageMode
  autoCommitThreshold : Nat
  deriving DecidableEq

/-- `Interval`: a phrase of the composition, from `start` to `end`. -/
structure Interval where
  start : Nat
  stop : Nat
  text : Str
  deriving DecidableEq

/-- `Editor`. -/
class ChewingEditor (E : Type) where
  /-- `Editor::chewing` with the dictionaries under the user's and the program's
  directory -/
  chewing : Str → Str → E
  editorOptions : E → EditorOptions
  setEditorOptions : (EditorOptions → EditorOptions) → E → E
  /-- `KeyboardLayoutCompat::try_from` -/
  layoutOf : UInt8 → Option KeyboardLayoutCompat
  /-- `set_syllable_editor` with the editor of a layout -/
  setSyllableEditor : KeyboardLayoutCompat → E → E
  setConversionEngine : ConversionEngineKind → E → E
  processKeyevent : KeyboardEvent → E → E
  lastKeyBehavior : E → EditorKeyBehavior
  displayCommit : E → Str
  ack : E → E
  isSelecting : E → Bool
  /-- `cancel_selecting`, and whether it returns `Ok` -/
  cancelSelecting : E → E × Bool
  clearSyllableEditor : E → E
  clearCompositionEditor : E → E
  intervals : E → List Interval
  cursor : E → Nat
  syllableBufferDisplay : E → Str
  totalPage : E → Option Nat
  currentPageNo : E → Option Nat
  paginatedCandidates : E → Option (List Str)

end ChewingTsf
