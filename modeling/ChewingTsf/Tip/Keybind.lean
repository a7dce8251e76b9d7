import ChewingTsf.Core.Config
import ChewingTsf.Tip.Editor

/-!
# Keybindings (tip/src/keybind.rs)

A configured key is a list of names joined by `+`, read from the right: modifier
names, and the name of at most one key that counts (the leftmost one).
-/

namespace ChewingTsf

variable [Keysyms]

/-- `keysym_from_str`. -/
def keysymFromStr (s : Str) : Option Keysym :=
  let s := trim s
  if s = "Esc".toList then some Keysyms.symEsc
  else if s = "F1".toList then some (Keysyms.symF 0)
  else if s = "F2".toList then some (Keysyms.symF 1)
  else if s = "F3".toList then some (Keysyms.symF 2)
  else if s = "F4".toList then some (Keysyms.symF 3)
  else if s = "F5".toList then some (Keysyms.symF 4)
  else if s = "F6".toList then some (Keysyms.symF 5)
  else if s = "F7".toList then some (Keysyms.symF 6)
  else if s = "F8".toList then some (Keysyms.symF 7)
  else if s = "F9".toList then some (Keysyms.symF 8)
  else if s = "F10".toList then some (Keysyms.symF 9)
  else if s = "F11".toList then some (Keysyms.symF 10)
  else if s = "F12".toList then some (Keysyms.symF 11)
  else if s = "Home".toList then some Keysyms.symHome
  else if s = "End".toList then some Keysyms.symEnd
  else if s = "Delete".toList then some Keysyms.symDelete
  else if s = "Tab".toList then some Keysyms.symTab
  else if s = "Backspace".toList then some Keysyms.symBackspace
  else if s = "CapsLock".toList then some Keysyms.symCapslock
  else if s = "Enter".toList ∨ s = "Return".toList then some Keysyms.symReturn
  else if s = "Space".toList then some Keysyms.symSpace
  else match s with
    | [c] => some (Keysyms.fromChar c)
    | _ => none

/-- `KeyboardEvent::builder()`: no key, no modifier. -/
def KeyboardEvent.builder : KeyboardEvent :=
  ⟨⟨0⟩, Keysyms.symNone, false, false, false, false, false, false⟩

/-- One part of a key: a modifier or the key itself. The modifier names are
compared in lower case; they are ASCII words without a `k`, so that only ASCII
capitals lower to their letters. -/
def keyPart (builder : KeyboardEvent) (key : Str) : Option KeyboardEvent :=
  let name := (trim key).map Char.toLower
  if name = "ctrl".toList ∨ name = "control".toList then some { builder with control := true }
  else if name = "shift".toList then some { builder with shift := true }
  else if name = "alt".toList ∨ name = "opt".toList ∨ name = "option".toList then
    some { builder with alt := true }
  else if name = "super".toList ∨ name = "cmd".toList ∨ name = "command".toList then
    some { builder with super := true }
  else (keysymFromStr key).map fun ksym => { builder with ksym := ksym }

/-- `key_from_str`. -/
def keyFromStr (s : Str) : Option KeyboardEvent :=
  (s.splitOn '+').reverse.foldlM keyPart KeyboardEvent.builder

/-- `Keybinding`. -/
structure Keybinding where
  key : KeyboardEvent
  action : Str
  param : Str
  deriving DecidableEq

namespace Keybinding

/-- `Keybinding::try_from`. -/
def tryFrom (value : KeybindValue) : Option Keybinding :=
  (keyFromStr value.key).map fun key => ⟨key, value.action, value.param⟩

/-- `Keybinding::matches`. -/
def «matches» (kb : Keybinding) (evt : KeyboardEvent) : Bool :=
  (kb.key.ksym == evt.ksym || kb.key.ksym == Keysyms.symNone) &&
    [KeyState.alt, .control, .shift, .super].all fun state =>
      kb.key.isStateOn state == evt.isStateOn state

end Keybinding

end ChewingTsf
