import ChewingTsf.Host.TipSession

/-!
# The key of a key message (tip/src/text_service/key_event.rs, `SystemKeyboardEvent::new`)

Bits 16 to 23 of the `lparam` of a key message are the scan byte of the key, and
bit 24 tells the extended keys apart, whose scan codes have the prefix 0xE0. `new`
keeps the byte and drops the flag, and `to_keyboard_event` looks up the byte alone:
the extended half of `SCANCODE_MAP` is never reached, and an extended key is taken
for the key that shares its scan byte.

The `lparam` is an `isize`, a word of 32 or of 64 bits (`w`).
-/

namespace ChewingTsf

/-- What `SystemKeyboardEvent::new` asks Windows. -/
structure KeyboardApi where
  /-- `MapVirtualKeyW` with `MAPVK_VK_TO_VSC` -/
  mapVirtualKey : UInt32 → UInt32
  /-- `GetKeyboardState`; `none` if it fails -/
  getKeyboardState : Option (Vector UInt8 256)
  /-- `ToAscii`: the number of characters, and what it leaves in `result` -/
  toAscii : UInt32 → UInt32 → Vector UInt8 256 → Int × UInt16

/-! ## The words of the message -/

section

variable {w : Nat}

/-- `((lparam & 0xff0000) >> 16) as u16`. -/
def maskedScanCode (lparam : BitVec w) : UInt16 :=
  ⟨((lparam &&& 0xff0000#w).sshiftRight 16).setWidth 16⟩

/-- The scan byte of a key message. -/
def scanByte (lparam : BitVec w) : UInt8 := ⟨lparam.extractLsb' 16 8⟩

/-- The extended-key flag of a key message. -/
def isExtended (lparam : BitVec w) : Bool := lparam.getLsbD 24

/-- The scan code of an extended key with this scan byte. -/
def extendedScanCode (scan : UInt8) : UInt16 := 0xE000 + scan.toUInt16

/-- The scan code of the key that a message is about. -/
def physicalScanCode (lparam : BitVec w) : UInt16 :=
  if isExtended lparam then extendedScanCode (scanByte lparam) else (scanByte lparam).toUInt16

/-- The mask keeps the scan byte. -/
theorem maskedScanCode_eq (hw : 32 ≤ w) (lparam : BitVec w) :
    maskedScanCode lparam = (scanByte lparam).toUInt16 := by
  have hmask : ∀ i < 16, Nat.testBit 0xff0000 (16 + i) = decide (i < 8) := by decide
  have hbits : ((lparam &&& 0xff0000#w).sshiftRight 16).setWidth 16
      = (lparam.extractLsb' 16 8).setWidth 16 := by
    apply BitVec.eq_of_getLsbD_eq
    intro i hi
    have hlt : 16 + i < w := by omega
    have hnot : ¬ w ≤ i := by omega
    -- an arithmetic shift, but the sign bit lies above the byte
    rw [BitVec.getLsbD_setWidth, BitVec.getLsbD_sshiftRight, if_pos hlt, BitVec.getLsbD_and,
      BitVec.getLsbD_ofNat, hmask i hi, BitVec.getLsbD_setWidth, BitVec.getLsbD_extractLsb']
    simp [hi, hlt, hnot, Bool.and_comm]
  exact congrArg UInt16.ofBitVec hbits

end

theorem toNat_extendedScanCode (scan : UInt8) :
    (extendedScanCode scan).toNat = 0xE000 + scan.toNat := by
  have hlt := scan.toNat_lt
  rw [extendedScanCode, UInt16.toNat_add, UInt8.toNat_toUInt16]
  exact Nat.mod_eq_of_lt (by simp; omega)

/-! ## The table -/

/-- The scan codes in `SCANCODE_MAP`. -/
theorem scancodeMap_keys :
    SCANCODE_MAP.map (·.1.toNat) = List.range' 1 0x53 ++ [0x57, 0x58, 0xE01C, 0xE01D, 0xE035,
      0xE038, 0xE047, 0xE048, 0xE049, 0xE04B, 0xE04D, 0xE04F, 0xE050, 0xE051, 0xE052, 0xE053,
      0xE05B, 0xE05C, 0xE05D] := by decide

theorem lookup_scancodeMap_eq_none_iff (scanCode : UInt16) :
    SCANCODE_MAP.lookup scanCode = none ↔ scanCode.toNat ∉ SCANCODE_MAP.map (·.1.toNat) := by
  rw [List.lookup_eq_none_iff, List.mem_map]
  constructor
  · rintro h ⟨p, hp, hcode⟩
    exact absurd (UInt16.toNat_inj.mp hcode).symm (by simpa using h p hp)
  · intro h p hp
    simp only [bne_iff_ne, ne_eq]
    rintro rfl
    exact h ⟨p, hp, rfl⟩

/-- The keycodes of the extended keys come after those of all others. -/
theorem scancodeMap_codes {scanCode : UInt16} {code : UInt8}
    (h : SCANCODE_MAP.lookup scanCode = some code) :
    (scanCode.toNat < 0x100 → 0 < code.toNat ∧ code.toNat < 104) ∧
      (0xE000 ≤ scanCode.toNat → 104 ≤ code.toNat) := by
  have hentries : (SCANCODE_MAP.all fun p => decide ((p.1.toNat < 0x100 →
      0 < p.2.toNat ∧ p.2.toNat < 104) ∧ (0xE000 ≤ p.1.toNat → 104 ≤ p.2.toNat))) = true := by
    decide
  obtain ⟨l, l', heq, -⟩ := List.lookup_eq_some_iff.mp h
  have hmem : (scanCode, code) ∈ SCANCODE_MAP := by simp [heq]
  exact of_decide_eq_true (List.all_eq_true.mp hentries _ hmem)

/-- The scan bytes without an entry in `SCANCODE_MAP`, with the prefix or without. -/
def Unmapped (scan : UInt8) : Prop :=
  (0x54 ≤ scan ∧ scan ≤ 0x56) ∨ (0x59 ≤ scan ∧ scan ≤ 0x5A) ∨ 0x5E ≤ scan

/-- The scan bytes without a key that is not extended. -/
theorem lookup_toUInt16_eq_none_iff {scan : UInt8} (hscan : scan ≠ 0) :
    SCANCODE_MAP.lookup scan.toUInt16 = none ↔
      (0x54 ≤ scan.toNat ∧ scan.toNat ≤ 0x56) ∨ 0x59 ≤ scan.toNat := by
  have hlt := scan.toNat_lt
  have hpos : scan.toNat ≠ 0 := fun h => hscan (UInt8.toNat_inj.mp h)
  rw [lookup_scancodeMap_eq_none_iff, scancodeMap_keys, UInt8.toNat_toUInt16, List.mem_append,
    List.mem_range'_1]
  simp only [List.mem_cons, List.not_mem_nil, or_false]
  omega

/-- Among them are three of extended keys. -/
theorem lookup_extendedScanCode_eq_none_iff {scan : UInt8} (hscan : 0x54 ≤ scan.toNat) :
    SCANCODE_MAP.lookup (extendedScanCode scan) = none ↔
      scan.toNat < 0x5B ∨ 0x5D < scan.toNat := by
  have hlt := scan.toNat_lt
  rw [lookup_scancodeMap_eq_none_iff, scancodeMap_keys, toNat_extendedScanCode, List.mem_append,
    List.mem_range'_1]
  simp only [List.mem_cons, List.not_mem_nil, or_false]
  omega

theorem lookup_none_iff_unmapped {scan : UInt8} (hscan : scan ≠ 0) :
    (SCANCODE_MAP.lookup scan.toUInt16 = none ∧
      SCANCODE_MAP.lookup (extendedScanCode scan) = none) ↔ Unmapped scan := by
  rw [lookup_toUInt16_eq_none_iff hscan, Unmapped]
  simp only [UInt8.le_iff_toNat_le]
  constructor
  · rintro ⟨hplain, hextended⟩
    rw [lookup_extendedScanCode_eq_none_iff (by omega)] at hextended
    show (0x54 ≤ _ ∧ _ ≤ 0x56) ∨ (0x59 ≤ _ ∧ _ ≤ 0x5A) ∨ 0x5E ≤ _
    omega
  · intro h
    replace h : (0x54 ≤ scan.toNat ∧ scan.toNat ≤ 0x56) ∨
      (0x59 ≤ scan.toNat ∧ scan.toNat ≤ 0x5A) ∨ 0x5E ≤ scan.toNat := h
    rw [lookup_extendedScanCode_eq_none_iff (by omega)]
    omega

/-- The entry of a scan code in `SCANCODE_MAP`, or the default. -/
def keycodeOf (scanCode : UInt16) : Keycode := ⟨(SCANCODE_MAP.lookup scanCode).getD 0⟩

/-- A scan byte has one keycode with the prefix and another without, if it has any. -/
theorem keycodeOf_eq_iff {scan : UInt8} (hscan : scan ≠ 0) :
    keycodeOf scan.toUInt16 = keycodeOf (extendedScanCode scan) ↔ Unmapped scan := by
  have hplain : scan.toUInt16.toNat < 0x100 := by simpa using scan.toNat_lt
  have hextended : 0xE000 ≤ (extendedScanCode scan).toNat := by
    rw [toNat_extendedScanCode]
    exact Nat.le_add_right ..
  rw [← lookup_none_iff_unmapped hscan]
  constructor
  · intro h
    have hcode : ((SCANCODE_MAP.lookup scan.toUInt16).getD 0).toNat
        = ((SCANCODE_MAP.lookup (extendedScanCode scan)).getD 0).toNat :=
      congrArg (fun k : Keycode => k.code.toNat) h
    -- the plain codes are below 104, the extended ones are not
    cases hp : SCANCODE_MAP.lookup scan.toUInt16 with
    | none =>
      cases he : SCANCODE_MAP.lookup (extendedScanCode scan) with
      | none => exact ⟨rfl, rfl⟩
      | some code =>
        have hge : 104 ≤ code.toNat := (scancodeMap_codes he).2 hextended
        rw [hp, he] at hcode
        rw [← show 0 = code.toNat from hcode] at hge
        omega
    | some code =>
      obtain ⟨hpos, hlt⟩ := (scancodeMap_codes hp).1 hplain
      rw [hp, Option.getD_some] at hcode
      cases he : SCANCODE_MAP.lookup (extendedScanCode scan) with
      | none =>
        rw [he, Option.getD_none] at hcode
        exact absurd hcode hpos.ne'
      | some code' =>
        have hge : 104 ≤ code'.toNat := (scancodeMap_codes he).2 hextended
        rw [he, Option.getD_some] at hcode
        omega
  · rintro ⟨hp, he⟩
    rw [keycodeOf, keycodeOf, hp, he]

/-! ## The event of the message -/

namespace SystemKeyboardEvent

variable {w : Nat}

/-- `SystemKeyboardEvent::new`. -/
def new (api : KeyboardApi) (vk : UInt16) (lparam : BitVec w) : SystemKeyboardEvent :=
  let scanCode := maskedScanCode lparam
  -- some applications that use WPF send 0
  let scanCode := if scanCode = 0 then (api.mapVirtualKey vk.toUInt32).toUInt16 else scanCode
  let keyState := api.getKeyboardState.getD (Vector.replicate 256 0)
  -- with Ctrl pressed, `ToAscii` would return a control character
  let ks := keyState.set VK_CONTROL 0
  let (count, result) := api.toAscii vk.toUInt32 scanCode.toUInt32 ks
  { vk := vk
    scanCode := scanCode
    asciiCode := if count = 1 then result.toUInt8 else 0
    keyState := keyState }

/-- `new` takes the scan byte for the scan code. -/
theorem new_scanCode (hw : 32 ≤ w) (api : KeyboardApi) (vk : UInt16) {lparam : BitVec w}
    (hscan : scanByte lparam ≠ 0) :
    (new api vk lparam).scanCode = (scanByte lparam).toUInt16 := by
  have hne : maskedScanCode lparam ≠ 0 := by
    rw [maskedScanCode_eq hw]
    intro hzero
    exact hscan (UInt8.toUInt16_inj.mp hzero)
  show (if maskedScanCode lparam = 0 then _ else maskedScanCode lparam) = _
  rw [if_neg hne, maskedScanCode_eq hw]

variable [KeyTables]

/-- The event of a key message has the keycode of the key that was pressed. -/
def DecodesKey (api : KeyboardApi) (vk : UInt16) (lparam : BitVec w) (kbtype : Int) : Prop :=
  ((new api vk lparam).toKeyboardEvent kbtype).code = keycodeOf (physicalScanCode lparam)

/-- The keycode of a key message is that of its scan byte. -/
theorem new_code (hw : 32 ≤ w) (api : KeyboardApi) (vk : UInt16) {lparam : BitVec w}
    (hscan : scanByte lparam ≠ 0) (kbtype : Int) :
    ((new api vk lparam).toKeyboardEvent kbtype).code = keycodeOf (scanByte lparam).toUInt16 := by
  show keycodeOf (new api vk lparam).scanCode = _
  rw [new_scanCode hw api vk hscan]

/-- **The keycode is that of the key** exactly for the keys that are not extended,
and for the scan bytes that `SCANCODE_MAP` knows neither with the prefix nor without. -/
theorem decodesKey_iff (hw : 32 ≤ w) (api : KeyboardApi) (vk : UInt16) {lparam : BitVec w}
    (hscan : scanByte lparam ≠ 0) (kbtype : Int) :
    DecodesKey api vk lparam kbtype ↔ isExtended lparam = false ∨ Unmapped (scanByte lparam) := by
  unfold DecodesKey physicalScanCode
  rw [new_code hw api vk hscan]
  cases hextended : isExtended lparam with
  | false => simp
  | true =>
    rw [if_pos rfl, keycodeOf_eq_iff hscan]
    simp

end SystemKeyboardEvent

/-! ## Two keys with one scan byte -/

section

open ScriptedEditor SystemKeyboardEvent

/-- A keyboard on which nothing is pressed. -/
def idleKeyboard : KeyboardApi := ⟨fun _ => 0, some (Vector.replicate 256 0), fun _ _ _ => (0, 0)⟩

/-- The 7 of the number pad. -/
theorem decodesKey_numpad : DecodesKey idleKeyboard 0x67 0x00470001#64 0 :=
  (decodesKey_iff (by decide) _ _ (by decide) _).mpr (.inl (by decide))

/-- Home, which shares its scan byte with the 7 of the number pad. -/
theorem home_decodes_numpad :
    ¬ ∀ (api : KeyboardApi) (vk : UInt16) (lparam : BitVec 64) (kbtype : Int),
      scanByte lparam ≠ 0 → DecodesKey api vk lparam kbtype := by
  intro hclaim
  have hhome := hclaim idleKeyboard 0x24 0x01470001#64 0 (by decide)
  rw [DecodesKey, new_code (by decide) _ _ (by decide)] at hhome
  exact absurd hhome (by decide)

end

end ChewingTsf
