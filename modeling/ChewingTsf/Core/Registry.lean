import ChewingTsf.Core.Config
import ChewingTsf.Lib.NameStore

/-!
# Saving and loading the preferences (crates/chewing_tip_core/src/config.rs)

The preferences live under one registry key. `Config.saveReg` writes every
setting but two as a named value of its type; `Config.fromReg` starts from the
defaults and overrides each setting whose value it can read. Which name stands
for which setting is written out twice, once in each function and in a different
order; `fromReg_saveReg` says that the two agree.

The typed reads belong to the `windows_registry` crate. They are a parameter
(`TypedReads`): a read returns what the write of its type left there, and
nothing is assumed of what it makes of another type.
-/

namespace ChewingTsf

/-- A registry value: one that a typed write left there, or raw bytes of some
other type. -/
inductive RegValue where
  | u32 (v : UInt32)
  | u64 (v : UInt64)
  | string (s : Str)
  | multiString (ss : List Str)
  | bytes (ty : Nat) (data : List UInt8)
  deriving DecidableEq

/-- The typed reads of a registry value. -/
class TypedReads where
  getU32 : RegValue → Except String UInt32
  getU64 : RegValue → Except String UInt64
  getString : RegValue → Except String Str
  getMultiString : RegValue → Except String (List Str)
  /-- the error for a name without a value -/
  notFound : String
  getU32_u32 : ∀ v, getU32 (.u32 v) = .ok v
  getU64_u64 : ∀ v, getU64 (.u64 v) = .ok v
  getString_string : ∀ s, getString (.string s) = .ok s
  getMultiString_multiString : ∀ ss, getMultiString (.multiString ss) = .ok ss

/-- A registry key: its values by name. -/
abbrev RegKey := NameStore String RegValue

/-- The `i32` values. -/
def IsI32 (i : Int) : Prop := -0x80000000 ≤ i ∧ i < 0x80000000

instance (i : Int) : Decidable (IsI32 i) :=
  inferInstanceAs (Decidable (_ ∧ _))

/-- `Config`. -/
structure Config where
  chewingTsf : ChewingTsfConfig
  symbolsDat : Str
  swkbDat : Str
  deriving DecidableEq

/-! ## Reading and writing one value -/

section Reads

variable [TypedReads]

/-- A typed read of the value `name`. -/
def RegKey.read {α : Type} (key : RegKey) (get : RegValue → Except String α) (name : String) :
    Except String α :=
  match key name with
  | some v => get v
  | none => .error TypedReads.notFound

/-- `Key::get_string`. -/
def RegKey.getString (key : RegKey) (name : String) : Except String Str :=
  key.read TypedReads.getString name

/-- `Key::get_u64`. -/
def RegKey.getU64 (key : RegKey) (name : String) : Except String UInt64 :=
  key.read TypedReads.getU64 name

/-- `Key::get_multi_string`. -/
def RegKey.getMultiString (key : RegKey) (name : String) : Except String (List Str) :=
  key.read TypedReads.getMultiString name

/-- `reg_get_i32`. -/
def regGetI32 (hk : RegKey) (valueName : String) : Except ConfigError Int :=
  expectError ("Failed to read config " ++ valueName ++ " as i32")
    ((hk.read TypedReads.getU32 valueName).map fun v => v.toInt32.toInt)

/-- `reg_get_bool`. -/
def regGetBool (hk : RegKey) (valueName : String) : Except ConfigError Bool :=
  expectError ("Failed to read config " ++ valueName ++ " as bool")
    ((hk.read TypedReads.getU32 valueName).map fun v => decide (v > 0))

end Reads

/-- `reg_set_i32`: the value that is written. -/
def regSetI32 (valueName : String) (value : Int) : String × RegValue :=
  (valueName, .u32 (Int32.ofInt value).toUInt32)

/-- `reg_set_bool`: the value that is written. -/
def regSetBool (valueName : String) (value : Bool) : String × RegValue :=
  (valueName, .u32 (if value then 1 else 0))

/-- `if let Ok(value) = read { cfg.field = value }`. -/
def ChewingTsfConfig.ifOk {ε α : Type} (cfg : ChewingTsfConfig) (read : Except ε α)
    (set : ChewingTsfConfig → α → ChewingTsfConfig) : ChewingTsfConfig :=
  match read with
  | .ok value => set cfg value
  | .error _ => cfg

/-! ## Saving and loading -/

/-- `Config::save_reg`: the values that are written, in the order they are
written in. `now` is the time in seconds since 1970. -/
def Config.savedValues (self : Config) (now : UInt64) : List (String × RegValue) :=
  let chewingTsf := self.chewingTsf
  [regSetI32 "KeyboardLayout" chewingTsf.keyboardLayout,
    regSetI32 "SimulateEnglishLayout" chewingTsf.simulateEnglishLayout,
    regSetBool "SyncLangModeOpenclose" chewingTsf.syncLangModeOpenclose,
    regSetI32 "CandPerRow" chewingTsf.candPerRow,
    regSetBool "DefaultEnglish" chewingTsf.defaultEnglish,
    regSetBool "DefaultFullSpace" chewingTsf.defaultFullSpace,
    regSetBool "ShowCandWithSpaceKey" chewingTsf.showCandWithSpaceKey,
    regSetBool "SwitchLangWithShift" chewingTsf.switchLangWithShift,
    regSetI32 "ShiftKeySensitivity" chewingTsf.shiftKeySensitivity,
    regSetBool "EnableFullwidthToggleKey" chewingTsf.enableFullwidthToggleKey,
    regSetBool "ShowNotification" chewingTsf.showNotification,
    regSetBool "OutputSimpChinese" chewingTsf.outputSimpChinese,
    regSetBool "AddPhraseForward" chewingTsf.addPhraseForward,
    regSetBool "PhraseChoiceRearward" chewingTsf.phraseChoiceRearward,
    regSetBool "AdvanceAfterSelection" chewingTsf.advanceAfterSelection,
    regSetI32 "DefFontSize" chewingTsf.fontSize,
    ("DefFontFamily", .string chewingTsf.fontFamily),
    ("DefFontFgColor", .string chewingTsf.fontFgColor),
    ("DefFontBgColor", .string chewingTsf.fontBgColor),
    ("DefFontHighlightFgColor", .string chewingTsf.fontHighlightFgColor),
    ("DefFontHighlightBgColor", .string chewingTsf.fontHighlightBgColor),
    ("DefFontNumberFgColor", .string chewingTsf.fontNumberFgColor),
    ("DefCandListBorderColor", .string chewingTsf.candListBorderColor),
    ("DefNotifyFgColor", .string chewingTsf.notifyFgColor),
    ("DefNotifyBgColor", .string chewingTsf.notifyBgColor),
    ("DefNotifyBorderColor", .string chewingTsf.notifyBorderColor),
    regSetI32 "SelKeyType" chewingTsf.selKeyType,
    regSetI32 "ConvEngine" chewingTsf.convEngine,
    regSetI32 "SelAreaLen" chewingTsf.candPerPage,
    regSetBool "CursorCandList" chewingTsf.cursorCandList,
    regSetBool "SortCandidatesByFrequency" chewingTsf.sortCandidatesByFrequency,
    regSetBool "EnableCapsLock" chewingTsf.enableCapsLock,
    regSetBool "LockChineseOnCapsLock" chewingTsf.lockChineseOnCapsLock,
    regSetBool "FullShapeSymbols" chewingTsf.fullShapeSymbols,
    regSetBool "EscCleanAllBuf" chewingTsf.escCleanAllBuf,
    regSetBool "EasySymbolsWithShift" chewingTsf.easySymbolsWithShift,
    regSetBool "EasySymbolsWithShiftCtrl" chewingTsf.easySymbolsWithShiftCtrl,
    regSetBool "UpperCaseWithShift" chewingTsf.upperCaseWithShift,
    regSetBool "EnableAutoLearn" chewingTsf.enableAutoLearn,
    ("AutoCheckUpdateChannel", .string chewingTsf.autoCheckUpdateChannel),
    ("Keybind", .multiString (chewingTsf.keybind.map KeybindValue.fmt)),
    ("ModifiedTimestamp", .u64 now)]

/-- `Config::save_reg` on the opened key, when every write succeeds. -/
def Config.saveReg (self : Config) (now : UInt64) (key : RegKey) : RegKey :=
  key.writeAll (self.savedValues now)

/-- The integer settings are `i32` values, as their type in the source has it. -/
structure ChewingTsfConfig.InRange (cfg : ChewingTsfConfig) : Prop where
  shiftKeySensitivity : IsI32 cfg.shiftKeySensitivity
  selKeyType : IsI32 cfg.selKeyType
  convEngine : IsI32 cfg.convEngine
  candPerRow : IsI32 cfg.candPerRow
  candPerPage : IsI32 cfg.candPerPage
  fontSize : IsI32 cfg.fontSize
  keyboardLayout : IsI32 cfg.keyboardLayout
  simulateEnglishLayout : IsI32 cfg.simulateEnglishLayout

theorem IsI32.toInt_ofInt {i : Int} (h : IsI32 i) : (Int32.ofInt i).toInt = i :=
  Int32.toInt_ofInt_of_le h.1 h.2

theorem expectError_ok {α : Type} (message : String) (a : α) :
    expectError message (.ok a) = .ok a := rfl

namespace ChewingTsfConfig

theorem ifOk_ok {ε α : Type} (cfg : ChewingTsfConfig) (value : α)
    (set : ChewingTsfConfig → α → ChewingTsfConfig) :
    cfg.ifOk (.ok value : Except ε α) set = set cfg value := rfl

theorem ifOk_error {ε α : Type} (cfg : ChewingTsfConfig) (e : ε)
    (set : ChewingTsfConfig → α → ChewingTsfConfig) : cfg.ifOk (.error e) set = cfg := rfl

/-- A setting that `set` leaves alone. -/
theorem ifOk_frame {β ε α : Type} (f : ChewingTsfConfig → β) {cfg : ChewingTsfConfig}
    {read : Except ε α} {set : ChewingTsfConfig → α → ChewingTsfConfig}
    (h : ∀ cfg value, f (set cfg value) = f cfg) : f (cfg.ifOk read set) = f cfg := by
  cases read with
  | ok value => exact h cfg value
  | error => rfl

end ChewingTsfConfig

/-- No name is written twice. -/
theorem Config.savedValues_nodup (cfg : Config) (now : UInt64) :
    ((cfg.savedValues now).map Prod.fst).Nodup := by
  -- the names do not depend on the settings
  have hnames : (cfg.savedValues now).map Prod.fst
      = ((⟨ChewingTsfConfig.default, [], []⟩ : Config).savedValues 0).map Prod.fst := rfl
  rw [hnames]
  decide

/-- Keybindings that are read back from their printed form survive as a list. -/
theorem KeybindValue.filterMap_fromStr_fmt {keybind : List KeybindValue}
    (h : ∀ kb ∈ keybind, fromStr kb.fmt = .ok kb) :
    (keybind.map fmt).filterMap (fun value => (fromStr value).toOption) = keybind := by
  have hread : ∀ kb ∈ keybind, (fromStr kb.fmt).toOption = some kb := by
    intro kb hmem
    rw [h kb hmem]
    rfl
  rw [List.filterMap_map]
  calc keybind.filterMap ((fun value => (fromStr value).toOption) ∘ fmt)
      = keybind.filterMap some := List.filterMap_congr hread
    _ = keybind := List.filterMap_some

section Load

variable [TypedReads]

/-- The settings that `Config::from_reg` reads from an opened key. -/
def ChewingTsfConfig.load (key : RegKey) : ChewingTsfConfig :=
  ChewingTsfConfig.default
    |>.ifOk (regGetI32 key "KeyboardLayout") ({ · with keyboardLayout := · })
    |>.ifOk (regGetI32 key "SimulateEnglishLayout") ({ · with simulateEnglishLayout := · })
    |>.ifOk (regGetBool key "SyncLangModeOpenclose") ({ · with syncLangModeOpenclose := · })
    |>.ifOk (regGetI32 key "CandPerRow") ({ · with candPerRow := · })
    |>.ifOk (regGetBool key "DefaultEnglish") ({ · with defaultEnglish := · })
    |>.ifOk (regGetBool key "DefaultFullSpace") ({ · with defaultFullSpace := · })
    |>.ifOk (regGetBool key "ShowCandWithSpaceKey") ({ · with showCandWithSpaceKey := · })
    |>.ifOk (regGetBool key "SwitchLangWithShift") ({ · with switchLangWithShift := · })
    |>.ifOk (regGetI32 key "ShiftKeySensitivity") ({ · with shiftKeySensitivity := · })
    |>.ifOk (regGetBool key "ShowNotification") ({ · with showNotification := · })
    |>.ifOk (regGetBool key "OutputSimpChinese") ({ · with outputSimpChinese := · })
    |>.ifOk (regGetBool key "AddPhraseForward") ({ · with addPhraseForward := · })
    |>.ifOk (regGetBool key "PhraseChoiceRearward") ({ · with phraseChoiceRearward := · })
    |>.ifOk (regGetBool key "AdvanceAfterSelection") ({ · with advanceAfterSelection := · })
    |>.ifOk (regGetI32 key "DefFontSize") ({ · with fontSize := · })
    |>.ifOk (key.getString "DefFontFamily") ({ · with fontFamily := · })
    |>.ifOk (key.getString "DefFontFgColor") ({ · with fontFgColor := · })
    |>.ifOk (key.getString "DefFontBgColor") ({ · with fontBgColor := · })
    |>.ifOk (key.getString "DefFontHighlightFgColor") ({ · with fontHighlightFgColor := · })
    |>.ifOk (key.getString "DefFontHighlightBgColor") ({ · with fontHighlightBgColor := · })
    |>.ifOk (key.getString "DefFontNumberFgColor") ({ · with fontNumberFgColor := · })
    |>.ifOk (key.getString "DefCandListBorderColor") ({ · with candListBorderColor := · })
    |>.ifOk (key.getString "DefNotifyFgColor") ({ · with notifyFgColor := · })
    |>.ifOk (key.getString "DefNotifyBgColor") ({ · with notifyBgColor := · })
    |>.ifOk (key.getString "DefNotifyBorderColor") ({ · with notifyBorderColor := · })
    |>.ifOk (regGetI32 key "SelKeyType") ({ · with selKeyType := · })
    |>.ifOk (regGetI32 key "ConvEngine") ({ · with convEngine := · })
    |>.ifOk (regGetI32 key "SelAreaLen") ({ · with candPerPage := · })
    |>.ifOk (regGetBool key "CursorCandList") ({ · with cursorCandList := · })
    |>.ifOk (regGetBool key "SortCandidatesByFrequency")
      ({ · with sortCandidatesByFrequency := · })
    |>.ifOk (regGetBool key "EnableCapsLock") ({ · with enableCapsLock := · })
    |>.ifOk (regGetBool key "LockChineseOnCapsLock") ({ · with lockChineseOnCapsLock := · })
    |>.ifOk (regGetBool key "EnableAutoLearn") ({ · with enableAutoLearn := · })
    |>.ifOk (regGetBool key "FullShapeSymbols") ({ · with fullShapeSymbols := · })
    |>.ifOk (regGetBool key "EscCleanAllBuf") ({ · with escCleanAllBuf := · })
    |>.ifOk (regGetBool key "EasySymbolsWithShift") ({ · with easySymbolsWithShift := · })
    |>.ifOk (regGetBool key "EasySymbolsWithShiftCtrl")
      ({ · with easySymbolsWithShiftCtrl := · })
    |>.ifOk (regGetBool key "UpperCaseWithShift") ({ · with upperCaseWithShift := · })
    |>.ifOk (regGetBool key "EnableFullwidthToggleKey")
      ({ · with enableFullwidthToggleKey := · })
    |>.ifOk (key.getString "AutoCheckUpdateChannel") ({ · with autoCheckUpdateChannel := · })
    |>.ifOk (key.getString "UpdateInfoUrl") ({ · with updateInfoUrl := · })
    |>.ifOk (key.getU64 "LastUpdateCheckTime") (fun cfg value =>
      { cfg with lastUpdateCheckTime := value.toNat })
    |>.ifOk (key.getU64 "ModifiedTimestamp") (fun cfg value =>
      { cfg with modifiedTimestamp := value.toNat })
    |>.ifOk (key.getMultiString "Keybind") (fun cfg values =>
      -- an entry that does not parse is dropped
      { cfg with keybind := values.filterMap fun value => (KeybindValue.fromStr value).toOption })

/-- `Config::from_reg`; `opened` is the key, or the error of opening it. -/
def Config.fromReg (opened : Except String RegKey) : Except ConfigError Config :=
  expectError "Failed to load config from registry" <|
    opened.map fun key => ⟨ChewingTsfConfig.load key, [], []⟩

/-! ## What a save leaves behind -/

/-- A read after a save: of what was saved under the name, or of what was there
before. -/
theorem RegKey.read_saveReg {α : Type} (cfg : Config) (now : UInt64) (key : RegKey)
    (get : RegValue → Except String α) (name : String) :
    RegKey.read (cfg.saveReg now key) get name
      = match (cfg.savedValues now).lookup name with
        | some v => get v
        | none => key.read get name := by
  rw [RegKey.read, Config.saveReg, NameStore.writeAll_eq_lookup (cfg.savedValues_nodup now)]
  cases (cfg.savedValues now).lookup name with
  | none => rfl
  | some v => rfl

namespace ChewingTsfConfig

/-- `update_info_url` comes from its own value alone. -/
theorem load_updateInfoUrl (key : RegKey) :
    (load key).updateInfoUrl = (ChewingTsfConfig.default.ifOk (key.getString "UpdateInfoUrl")
      ({ · with updateInfoUrl := · })).updateInfoUrl := by
  simp only [load, ifOk_frame updateInfoUrl, implies_true]
  cases key.getString "UpdateInfoUrl" with
  | ok value => rfl
  | error => simp only [ifOk_error, ifOk_frame updateInfoUrl, implies_true]

/-- `last_update_check_time` comes from its own value alone. -/
theorem load_lastUpdateCheckTime (key : RegKey) :
    (load key).lastUpdateCheckTime
      = (ChewingTsfConfig.default.ifOk (key.getU64 "LastUpdateCheckTime") fun cfg value =>
        { cfg with lastUpdateCheckTime := value.toNat }).lastUpdateCheckTime := by
  simp only [load, ifOk_frame lastUpdateCheckTime, implies_true]
  cases key.getU64 "LastUpdateCheckTime" with
  | ok value => rfl
  | error => simp only [ifOk_error, ifOk_frame lastUpdateCheckTime, implies_true]

/-- What is loaded after a save, the keybindings as they are parsed again. -/
theorem load_saveReg (cfg : Config) (now : UInt64) (key : RegKey)
    (hrange : cfg.chewingTsf.InRange) :
    load (cfg.saveReg now key)
      = { cfg.chewingTsf with
          keybind := (cfg.chewingTsf.keybind.map KeybindValue.fmt).filterMap fun value =>
            (KeybindValue.fromStr value).toOption
          updateInfoUrl := (load key).updateInfoUrl
          lastUpdateCheckTime := (load key).lastUpdateCheckTime
          modifiedTimestamp := now.toNat } := by
  rw [load_updateInfoUrl, load_lastUpdateCheckTime]
  -- a flag is stored as a number
  have hbool : ∀ b : Bool, decide ((if b then (1 : UInt32) else 0) > 0) = b := by decide
  simp only [load, regGetI32, regGetBool, RegKey.getString, RegKey.getU64,
    RegKey.getMultiString, RegKey.read_saveReg, Config.savedValues, regSetI32, regSetBool,
    List.lookup_cons, List.lookup_nil, String.reduceBEq, Except.map,
    expectError_ok, ifOk_ok, TypedReads.getU32_u32, TypedReads.getU64_u64,
    TypedReads.getString_string, TypedReads.getMultiString_multiString,
    Int32.toInt32_toUInt32, hbool, hrange.shiftKeySensitivity.toInt_ofInt,
    hrange.selKeyType.toInt_ofInt, hrange.convEngine.toInt_ofInt,
    hrange.candPerRow.toInt_ofInt, hrange.candPerPage.toInt_ofInt, hrange.fontSize.toInt_ofInt,
    hrange.keyboardLayout.toInt_ofInt, hrange.simulateEnglishLayout.toInt_ofInt]
  cases key.read TypedReads.getString "UpdateInfoUrl" with
  | ok url =>
    cases key.read TypedReads.getU64 "LastUpdateCheckTime" with
    | ok time => rfl
    | error => rfl
  | error =>
    cases key.read TypedReads.getU64 "LastUpdateCheckTime" with
    | ok time => rfl
    | error => rfl

end ChewingTsfConfig

/-- **Saved preferences load back**: every setting is the one that was saved;
only the update information, which is never saved, comes from the key as it was,
and the timestamp is the time of the save. -/
theorem Config.fromReg_saveReg (cfg : Config) (now : UInt64) (key : RegKey)
    (hrange : cfg.chewingTsf.InRange)
    (hkeybind : ∀ kb ∈ cfg.chewingTsf.keybind, KeybindValue.fromStr kb.fmt = .ok kb) :
    ∃ before after : Config, fromReg (.ok key) = .ok before
      ∧ fromReg (.ok (cfg.saveReg now key)) = .ok after
      ∧ after.chewingTsf = { cfg.chewingTsf with
          updateInfoUrl := before.chewingTsf.updateInfoUrl
          lastUpdateCheckTime := before.chewingTsf.lastUpdateCheckTime
          modifiedTimestamp := now.toNat } := by
  refine ⟨_, _, rfl, rfl, ?_⟩
  show ChewingTsfConfig.load (cfg.saveReg now key) = _
  rw [ChewingTsfConfig.load_saveReg cfg now key hrange,
    KeybindValue.filterMap_fromStr_fmt hkeybind]

end Load

/-- Reads that refuse a value of another type. -/
@[reducible] def exactReads : TypedReads where
  getU32 | .u32 v => .ok v | _ => .error "invalid data"
  getU64 | .u64 v => .ok v | _ => .error "invalid data"
  getString | .string s => .ok s | _ => .error "invalid data"
  getMultiString | .multiString ss => .ok ss | _ => .error "invalid data"
  notFound := "not found"
  getU32_u32 _ := rfl
  getU64_u64 _ := rfl
  getString_string _ := rfl
  getMultiString_multiString _ := rfl

/-- A negative sensitivity and a keybinding of the key `:=`, saved over a key that
holds an update address and a layout of the wrong type. -/
theorem Config.fromReg_saveReg_negative :
    let _ := exactReads
    let cfg : Config := ⟨{ ChewingTsfConfig.default with
      shiftKeySensitivity := -1
      keybind := [⟨"ctrl+:=".toList, "text".toList, "酷 ".toList⟩] }, [], []⟩
    let key : RegKey := NameStore.writeAll (fun _ => none)
      [("UpdateInfoUrl", .string "https".toList), ("KeyboardLayout", .string "dvorak".toList)]
    ∃ before after : Config, fromReg (.ok key) = .ok before
      ∧ fromReg (.ok (cfg.saveReg 7 key)) = .ok after
      ∧ after.chewingTsf = { cfg.chewingTsf with
          updateInfoUrl := before.chewingTsf.updateInfoUrl
          lastUpdateCheckTime := before.chewingTsf.lastUpdateCheckTime
          modifiedTimestamp := 7 } := by
  intro _ cfg key
  have hrange : cfg.chewingTsf.InRange := by constructor <;> decide
  have hkeybind : ∀ kb ∈ cfg.chewingTsf.keybind, KeybindValue.fromStr kb.fmt = .ok kb := by
    decide
  exact fromReg_saveReg cfg 7 key hrange hkeybind

end ChewingTsf
