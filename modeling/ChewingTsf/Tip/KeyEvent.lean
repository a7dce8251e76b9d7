import ChewingTsf.Core.Ipc
import ChewingTsf.Tip.Editor

/-!
# System key events (tip/src/text_service/key_event.rs)

The event of a key message, with the 256 key states at that moment, and its
translation into the engine's event. The host holds a copy of this file
(crates/chewing_tip_host/src/text_service/keyevent.rs) whose tables and
`to_keyboard_event` are the same text; it differs in how an event comes about
(`tryFrom`).

The two tables that Rust searches by bisection are strictly increasing
(`scancodeMap_sorted`, `vkeyMap_sorted`), so that bisection is `List.lookup`.
-/

namespace ChewingTsf

/-- The six keymaps of `chewing::input::keymap`. -/
inductive Keymap where
  | invertedDvorak
  | invertedQgmlwy
  | invertedColemak
  | invertedColemakDhAnsi
  | invertedColemakDhOrth
  | invertedWorkman
  deriving DecidableEq

/-- The key symbols and key functions that only the translation of key events
uses. -/
class KeyTables extends Keysyms where
  symLeftctrl : Keysym
  symRightctrl : Keysym
  symLeftalt : Keysym
  symRightalt : Keysym
  symLeftmeta : Keysym
  symRightmeta : Keysym
  symPageup : Keysym
  symPagedown : Keysym
  symLeft : Keysym
  symUp : Keysym
  symRight : Keysym
  symDown : Keysym
  /-- `SYM_KP0` to `SYM_KP9` -/
  symKP : Fin 10 → Keysym
  symKpmultiply : Keysym
  symKpadd : Keysym
  symKpsubtract : Keysym
  symKpdecimal : Keysym
  symKpdivide : Keysym
  symNumlock : Keysym
  /-- `map_keycode`: the event of a key, with Shift or without -/
  mapKeycode : Keymap → Keycode → Bool → KeyboardEvent

/-! ## Virtual keys -/

def VK_SHIFT : Fin 256 := 0x10
def VK_CONTROL : Fin 256 := 0x11
def VK_MENU : Fin 256 := 0x12
def VK_CAPITAL : Fin 256 := 0x14
def VK_LWIN : Fin 256 := 0x5B
def VK_NUMLOCK : Fin 256 := 0x90

/-- `SystemKeyboardEvent`. -/
structure SystemKeyboardEvent where
  vk : UInt16
  scanCode : UInt16
  asciiCode : UInt8
  keyState : Vector UInt8 256
  deriving DecidableEq

/-! ## Tables -/

/-- `KB_KEYMAP_MAP`. -/
def KB_KEYMAP_MAP : List (Int × Keymap) :=
  [(1, .invertedDvorak), (2, .invertedQgmlwy), (3, .invertedColemak),
    (4, .invertedColemakDhAnsi), (5, .invertedColemakDhOrth), (6, .invertedWorkman)]

/-- `SCANCODE_MAP`: Windows Set 1 scan codes and X11 key codes. -/
def SCANCODE_MAP : List (UInt16 × UInt8) :=
  [(0x01, 9), (0x02, 10), (0x03, 11), (0x04, 12), (0x05, 13), (0x06, 14), (0x07, 15), (0x08, 16),
    (0x09, 17), (0x0A, 18), (0x0B, 19), (0x0C, 20), (0x0D, 21), (0x0E, 22), (0x0F, 23),
    (0x10, 24), (0x11, 25), (0x12, 26), (0x13, 27), (0x14, 28), (0x15, 29), (0x16, 30),
    (0x17, 31), (0x18, 32), (0x19, 33), (0x1A, 34), (0x1B, 35), (0x1C, 36), (0x1D, 37),
    (0x1E, 38), (0x1F, 39), (0x20, 40), (0x21, 41), (0x22, 42), (0x23, 43), (0x24, 44),
    (0x25, 45), (0x26, 46), (0x27, 47), (0x28, 48), (0x29, 49), (0x2A, 50), (0x2B, 51),
    (0x2C, 52), (0x2D, 53), (0x2E, 54), (0x2F, 55), (0x30, 56), (0x31, 57), (0x32, 58),
    (0x33, 59), (0x34, 60), (0x35, 61), (0x36, 62), (0x37, 63), (0x38, 64), (0x39, 65),
    (0x3A, 66), (0x3B, 67), (0x3C, 68), (0x3D, 69), (0x3E, 70), (0x3F, 71), (0x40, 72),
    (0x41, 73), (0x42, 74), (0x43, 75), (0x44, 76), (0x45, 77), (0x46, 78), (0x47, 79),
    (0x48, 80), (0x49, 81), (0x4A, 82), (0x4B, 83), (0x4C, 84), (0x4D, 85), (0x4E, 86),
    (0x4F, 87), (0x50, 88), (0x51, 89), (0x52, 90), (0x53, 91), (0x57, 95), (0x58, 96),
    -- extended scan codes
    (0xE01C, 104), (0xE01D, 105), (0xE035, 106), (0xE038, 108), (0xE047, 110), (0xE048, 111),
    (0xE049, 112), (0xE04B, 113), (0xE04D, 114), (0xE04F, 115), (0xE050, 116), (0xE051, 117),
    (0xE052, 118), (0xE053, 119), (0xE05B, 133), (0xE05C, 134), (0xE05D, 135)]

section

variable [KeyTables]

open Keysyms KeyTables

/-- `VKEY_MAP`. -/
def VKEY_MAP : List (UInt16 × Keysym) :=
  [(0x08, symBackspace), (0x09, symTab), (0x0D, symReturn), (0x10, symLeftshift),
    (0x11, symLeftctrl), (0x12, symLeftalt), (0x14, symCapslock), (0x1B, symEsc),
    (0x20, symSpace), (0x21, symPageup), (0x22, symPagedown), (0x23, symEnd), (0x24, symHome),
    (0x25, symLeft), (0x26, symUp), (0x27, symRight), (0x28, symDown), (0x2E, symDelete),
    (0x5B, symLeftmeta), (0x5C, symRightmeta), (0x60, symKP 0), (0x61, symKP 1),
    (0x62, symKP 2), (0x63, symKP 3), (0x64, symKP 4), (0x65, symKP 5), (0x66, symKP 6),
    (0x67, symKP 7), (0x68, symKP 8), (0x69, symKP 9), (0x6A, symKpmultiply), (0x6B, symKpadd),
    (0x6D, symKpsubtract), (0x6E, symKpdecimal), (0x6F, symKpdivide),
    (0x70, symF ⟨0, by decide⟩), (0x71, symF ⟨1, by decide⟩), (0x72, symF ⟨2, by decide⟩),
    (0x73, symF ⟨3, by decide⟩), (0x74, symF ⟨4, by decide⟩), (0x75, symF ⟨5, by decide⟩),
    (0x76, symF ⟨6, by decide⟩), (0x77, symF ⟨7, by decide⟩), (0x78, symF ⟨8, by decide⟩),
    (0x79, symF ⟨9, by decide⟩), (0x7A, symF ⟨10, by decide⟩), (0x7B, symF ⟨11, by decide⟩),
    (0x90, symNumlock), (0xA0, symLeftshift), (0xA1, symRightshift), (0xA2, symLeftctrl),
    (0xA3, symRightctrl), (0xA4, symLeftalt), (0xA5, symRightalt)]

end

theorem scancodeMap_sorted : (SCANCODE_MAP.map (·.1)).Pairwise (· < ·) := by decide

theorem vkeyMap_sorted [KeyTables] : (VKEY_MAP.map (·.1)).Pairwise (· < ·) := by
  simp only [VKEY_MAP, List.map_cons, List.map_nil]
  decide

/-! ## The translation -/

namespace SystemKeyboardEvent

/-- `is_key_down`. -/
def isKeyDown (ev : SystemKeyboardEvent) (vk : Fin 256) : Bool :=
  ev.keyState.get vk &&& 0x80 != 0

/-- `is_key_toggled`. -/
def isKeyToggled (ev : SystemKeyboardEvent) (vk : Fin 256) : Bool :=
  ev.keyState.get vk &&& 1 != 0

variable [KeyTables]

/-- `to_keyboard_event`. -/
def toKeyboardEvent (ev : SystemKeyboardEvent) (kbtype : Int) : KeyboardEvent :=
  let keycode : Keycode := ⟨(SCANCODE_MAP.lookup ev.scanCode).getD 0⟩
  let keysym := match VKEY_MAP.lookup ev.vk with
    | some keysym => keysym
    | none =>
      match KB_KEYMAP_MAP.lookup kbtype with
      | some keymap => (KeyTables.mapKeycode keymap keycode (ev.isKeyDown VK_SHIFT)).ksym
      | none => ⟨ev.asciiCode.toUInt32⟩
  { code := keycode
    ksym := keysym
    shift := ev.isKeyDown VK_SHIFT
    control := ev.isKeyDown VK_CONTROL
    alt := ev.isKeyDown VK_MENU
    super := ev.isKeyDown VK_LWIN
    capsLock := ev.isKeyToggled VK_CAPITAL
    numLock := ev.isKeyToggled VK_NUMLOCK }

end SystemKeyboardEvent

/-! ## The event on the wire -/

/-- The event as `on_test_keydown` of the text service sends it. -/
def SystemKeyboardEvent.toIpc (ev : SystemKeyboardEvent) : IpcKeyEvent :=
  ⟨ev.vk, ev.scanCode, ev.asciiCode, ev.keyState.toList⟩

/-- The host's `SystemKeyboardEvent::try_from`: the message must carry 256 key
states. -/
def SystemKeyboardEvent.tryFrom (value : IpcKeyEvent) : Option SystemKeyboardEvent :=
  if h : value.keyState.length = 256 then
    some ⟨value.vk, value.scanCode, value.asciiCode, ⟨value.keyState.toArray, by simpa using h⟩⟩
  else none

/-- The event the host decodes is the event that was sent. -/
theorem SystemKeyboardEvent.tryFrom_toIpc (ev : SystemKeyboardEvent) :
    tryFrom ev.toIpc = some ev := by
  have hlen : ev.toIpc.keyState.length = 256 := by simp [toIpc]
  have hstate : (⟨ev.toIpc.keyState.toArray, by simpa using hlen⟩ : Vector UInt8 256)
      = ev.keyState := Vector.toList_inj.mp (by simp [toIpc])
  rw [tryFrom, dif_pos hlen, hstate]
  rfl

theorem SystemKeyboardEvent.tryFrom_isSome_iff (value : IpcKeyEvent) :
    (tryFrom value).isSome ↔ value.keyState.length = 256 := by
  by_cases h : value.keyState.length = 256
  · simp [tryFrom, h]
  · simp [tryFrom, h]

end ChewingTsf
