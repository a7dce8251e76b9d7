import ChewingTsf.Lib.Split
import ChewingTsf.Lib.Str

/-!
# Configuration values (crates/chewing_tip_core/src/config.rs)

A keybinding is stored in the registry as one string, `key=action` or
`key=action:param`. `KeybindValue.fmt` prints it and `KeybindValue.fromStr`
reads it back. The printer joins and the parser splits at the *last* `=` and the
*last* `:`, so that `=` and `:` can be bound as keys; a parameter that itself
contains one of them is cut in the wrong place.

`ChewingTsfConfig` holds the settings; the text service compares whole
configurations to see whether one has changed.
-/

namespace ChewingTsf

/-- `ConfigError`: what failed, and the error that caused it. -/
structure ConfigError where
  message : String
  source : Option String
  deriving DecidableEq

/-- `expect_error`: the errors of `r` become the source of a `ConfigError`. -/
def expectError {α : Type} (message : String) (r : Except String α) : Except ConfigError α :=
  match r with
  | .ok a => .ok a
  | .error e => .error ⟨message, some e⟩

/-- `Option::ok_or`. -/
def okOr {α : Type} (o : Option α) (e : String) : Except String α :=
  match o with
  | some a => .ok a
  | none => .error e

/-- `KeybindValue`. -/
structure KeybindValue where
  key : Str
  action : Str
  param : Str
  deriving DecidableEq

namespace KeybindValue

/-- Splitting the part after the `=` into action and parameter (`from_str`). -/
def splitAction (action : Str) : Except String (Str × Str) :=
  if ':' ∈ action then okOr (rsplitOnce ':' action) "missing seperator :"
  else .ok (action, [])

/-- `KeybindValue::from_str`. -/
def fromStr (s : Str) : Except ConfigError KeybindValue :=
  expectError "Failed to parse keybinding" do
    let (key, action) ← okOr (rsplitOnce '=' s) "missing seperator ="
    let (action, param) ← splitAction action
    return { key := key, action := action, param := param }

/-- `KeybindValue::fmt`: the part after the `=`. -/
def fmtAction (v : KeybindValue) : Str :=
  trim v.action ++ if v.param.isEmpty then [] else ':' :: v.param

/-- `KeybindValue::fmt`. -/
def fmt (v : KeybindValue) : Str := trim v.key ++ '=' :: v.fmtAction

example : fromStr "ctrl+c=text:酷".toList = .ok ⟨"ctrl+c".toList, "text".toList, "酷".toList⟩ := by
  decide

/-! ## The two stages of the parser -/

/-- `from_str` succeeds with the parts that the two splits find. -/
theorem fromStr_of_split {s key rest action param : Str}
    (hkey : rsplitOnce '=' s = some (key, rest))
    (haction : splitAction rest = .ok (action, param)) :
    fromStr s = .ok ⟨key, action, param⟩ := by
  simp only [fromStr, hkey, okOr, expectError, bind, Except.bind, haction, pure, Except.pure]

/-- What `from_str` returned came from the last `=`. -/
theorem fromStr_key {s key rest : Str} {v : KeybindValue}
    (hkey : rsplitOnce '=' s = some (key, rest)) (h : fromStr s = .ok v) :
    v.key = key ∧ splitAction rest = .ok (v.action, v.param) := by
  cases haction : splitAction rest with
  | error e =>
    simp [fromStr, hkey, okOr, expectError, bind, Except.bind, haction] at h
  | ok p =>
    rw [fromStr_of_split hkey haction] at h
    cases h
    exact ⟨rfl, rfl⟩

/-- An action without `:` is read back exactly when the parameter has no `:`. -/
theorem splitAction_iff {v : KeybindValue} (htrim : trim v.action = v.action)
    (hcolon : ':' ∉ v.action) :
    splitAction v.fmtAction = .ok (v.action, v.param) ↔ ':' ∉ v.param := by
  cases hp : v.param with
  | nil =>
    have hfmt : v.fmtAction = v.action := by simp [fmtAction, hp, htrim]
    rw [hfmt, splitAction, if_neg hcolon]
    simp
  | cons c cs =>
    have hfmt : v.fmtAction = v.action ++ ':' :: (c :: cs) := by
      simp [fmtAction, hp, htrim]
    have hmem : ':' ∈ v.action ++ ':' :: (c :: cs) := by simp
    rw [hfmt, splitAction, if_pos hmem, ← rsplitOnce_join_iff (a := v.action)]
    cases rsplitOnce ':' (v.action ++ ':' :: (c :: cs)) with
    | none => simp [okOr]
    | some p => simp [okOr]

/-- The `=` of the printed form is found again exactly when the parameter has no
`=`. -/
theorem rsplitOnce_fmt_iff {v : KeybindValue} (hkey : trim v.key = v.key)
    (haction : trim v.action = v.action) (heq : '=' ∉ v.action) :
    rsplitOnce '=' v.fmt = some (v.key, v.fmtAction) ↔ '=' ∉ v.param := by
  have hmem : '=' ∈ v.fmtAction ↔ '=' ∈ v.param := by
    cases hp : v.param with
    | nil => simp [fmtAction, hp, haction, heq]
    | cons c cs => simp [fmtAction, hp, haction, heq]
  rw [fmt, hkey, rsplitOnce_join_iff, hmem]

/-! ## The round trip -/

/-- **Saved and loaded**: a keybinding whose key and action carry no surrounding
whitespace and whose action is non-empty and contains no separator is read back
from its printed form exactly when its parameter contains neither `=` nor `:`. -/
theorem fromStr_fmt_iff (v : KeybindValue) (hkey : trim v.key = v.key)
    (haction : trim v.action = v.action) (_hne : v.action ≠ [])
    (heq : '=' ∉ v.action) (hcolon : ':' ∉ v.action) :
    fromStr v.fmt = .ok v ↔ '=' ∉ v.param ∧ ':' ∉ v.param := by
  constructor
  · intro h
    have hparam : '=' ∉ v.param := by
      intro hmem
      -- the split falls inside the parameter: the key read back is too long
      have hin : '=' ∈ v.fmtAction := by
        cases hp : v.param with
        | nil => simp [hp] at hmem
        | cons c cs => simp [fmtAction, hp] at hmem ⊢; simp [hmem]
      obtain ⟨b₁, b₂, -, -, hsplit⟩ := rsplitOnce_join_of_mem (a := trim v.key) hin
      have hlen := congrArg List.length (fromStr_key hsplit h).1
      rw [hkey] at hlen
      simp at hlen
    have hsplit := (rsplitOnce_fmt_iff hkey haction heq).mpr hparam
    exact ⟨hparam, (splitAction_iff haction hcolon).mp (fromStr_key hsplit h).2⟩
  · rintro ⟨hparam, hparam'⟩
    exact fromStr_of_split ((rsplitOnce_fmt_iff hkey haction heq).mpr hparam)
      ((splitAction_iff haction hcolon).mpr hparam')

/-- A text binding of a key that contains both separators is read back. -/
theorem fromStr_fmt_colon_key :
    fromStr (fmt ⟨"ctrl+:=".toList, "text".toList, "酷 ".toList⟩)
      = .ok ⟨"ctrl+:=".toList, "text".toList, "酷 ".toList⟩ :=
  (fromStr_fmt_iff _ (by decide) (by decide) (by decide) (by decide) (by decide)).mpr
    (by decide)

/-- The text `a=b` is cut at its `=`: the key read back is `F1=text:a`. -/
theorem fromStr_fmt_loses_text :
    ¬ ∀ v : KeybindValue, trim v.key = v.key → trim v.action = v.action →
      v.action ≠ [] → '=' ∉ v.action → ':' ∉ v.action → fromStr v.fmt = .ok v := by
  intro hclaim
  have h := hclaim ⟨"F1".toList, "text".toList, "a=b".toList⟩ (by decide) (by decide)
    (by decide) (by decide) (by decide)
  have hread : fromStr (fmt ⟨"F1".toList, "text".toList, "a=b".toList⟩)
      = .ok ⟨"F1=text:a".toList, "b".toList, []⟩ := by decide
  rw [hread] at h
  exact absurd h (by decide)

end KeybindValue

/-- `ChewingTsfConfig`. -/
structure ChewingTsfConfig where
  switchLangWithShift : Bool
  shiftKeySensitivity : Int
  enableFullwidthToggleKey : Bool
  enableCapsLock : Bool
  lockChineseOnCapsLock : Bool
  showNotification : Bool
  enableAutoLearn : Bool
  escCleanAllBuf : Bool
  fullShapeSymbols : Bool
  upperCaseWithShift : Bool
  addPhraseForward : Bool
  phraseChoiceRearward : Bool
  easySymbolsWithShift : Bool
  easySymbolsWithShiftCtrl : Bool
  cursorCandList : Bool
  sortCandidatesByFrequency : Bool
  showCandWithSpaceKey : Bool
  advanceAfterSelection : Bool
  defaultFullSpace : Bool
  defaultEnglish : Bool
  outputSimpChinese : Bool
  selKeyType : Int
  convEngine : Int
  candPerRow : Int
  candPerPage : Int
  fontSize : Int
  fontFamily : Str
  fontFgColor : Str
  fontBgColor : Str
  fontHighlightFgColor : Str
  fontHighlightBgColor : Str
  fontNumberFgColor : Str
  candListBorderColor : Str
  notifyFgColor : Str
  notifyBgColor : Str
  notifyBorderColor : Str
  keyboardLayout : Int
  simulateEnglishLayout : Int
  syncLangModeOpenclose : Bool
  keybind : List KeybindValue
  autoCheckUpdateChannel : Str
  updateInfoUrl : Str
  lastUpdateCheckTime : Nat
  modifiedTimestamp : Nat
  deriving DecidableEq

/-- `ChewingTsfConfig::default`. -/
def ChewingTsfConfig.default : ChewingTsfConfig where
  switchLangWithShift := true
  shiftKeySensitivity := 200
  enableFullwidthToggleKey := false
  enableCapsLock := false
  lockChineseOnCapsLock := true
  showNotification := true
  enableAutoLearn := true
  escCleanAllBuf := false
  fullShapeSymbols := true
  upperCaseWithShift := false
  addPhraseForward := true
  phraseChoiceRearward := false
  easySymbolsWithShift := true
  easySymbolsWithShiftCtrl := false
  cursorCandList := true
  sortCandidatesByFrequency := false
  showCandWithSpaceKey := false
  advanceAfterSelection := true
  defaultFullSpace := false
  defaultEnglish := false
  outputSimpChinese := false
  selKeyType := 0
  convEngine := 1
  candPerRow := 3
  candPerPage := 9
  fontSize := 16
  fontFamily := "Segoe UI".toList
  fontFgColor := "000000FF".toList
  fontBgColor := "FAFAFAFF".toList
  fontHighlightFgColor := "FFFFFFFF".toList
  fontHighlightBgColor := "000000FF".toList
  fontNumberFgColor := "0000FFFF".toList
  candListBorderColor := "D6D9DBFF".toList
  notifyFgColor := "000000FF".toList
  notifyBgColor := "FCFBDAFF".toList
  notifyBorderColor := "D6D9DBFF".toList
  keyboardLayout := 0
  simulateEnglishLayout := 0
  syncLangModeOpenclose := false
  keybind := [⟨"Ctrl+F12".toList, "toggle_simplified_chinese".toList, []⟩,
    ⟨"Ctrl+Delete".toList, "selecting_unlearn_phrase".toList, []⟩]
  autoCheckUpdateChannel := "stable".toList
  updateInfoUrl := []
  lastUpdateCheckTime := 0
  modifiedTimestamp := 0

/-- `Config::reload_if_needed`, when `Config::from_reg` returns `fromReg`: the
configuration held afterwards, and whether it has changed. -/
def ChewingTsfConfig.reloadIfNeeded (cfg : ChewingTsfConfig)
    (fromReg : Except ConfigError ChewingTsfConfig) :
    Except ConfigError (Bool × ChewingTsfConfig) :=
  match fromReg with
  | .error e => .error e
  | .ok cfg' => if cfg' = cfg then .ok (false, cfg) else .ok (true, cfg')

end ChewingTsf
