import Mathlib.Data.List.Basic
import Mathlib.Data.List.DropRight

/-!
# Strings as sequences of characters

A Rust `String` or `&str` is modelled by the list of its `char`s, which Rust and
Lean define alike (Unicode scalar values).
-/

namespace ChewingTsf

/-- The characters of a string. -/
abbrev Str := List Char

/-- `char::is_whitespace`: the Unicode `White_Space` property. -/
def isWhitespace (c : Char) : Bool :=
  let n := c.toNat
  (0x09 ≤ n && n ≤ 0x0D) || n == 0x20 || n == 0x85 || n == 0xA0 || n == 0x1680 ||
    (0x2000 ≤ n && n ≤ 0x200A) || n == 0x2028 || n == 0x2029 || n == 0x202F ||
    n == 0x205F || n == 0x3000

/-- `str::len`: the number of UTF-8 bytes. -/
def byteLen (s : Str) : Nat := s.foldr (fun c n => c.utf8Size + n) 0

/-- `str::trim`. -/
def trim (s : Str) : Str := (s.dropWhile isWhitespace).rdropWhile isWhitespace

end ChewingTsf
