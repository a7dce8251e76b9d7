import ChewingTsf.Lib.Str

/-!
# Numerals in a radix

`fromStrRadix` reads an unsigned numeral as `from_str_radix` of the Rust integers does: an
optional `+`, then digits of either letter case, and nothing if the number is not below
`bound`.

A string of hexadecimal digits spells bytes, two digits a byte (`SpellsHex`); read as one
number, it is the number with these bytes (`fromStrRadix_spells`), however many of them are 0.
-/

namespace ChewingTsf

/-! ## Reading a numeral -/

/-- The value of a letter or figure as a digit. -/
def digitValue (c : Char) : Option Nat :=
  if '0'.toNat ≤ c.toNat ∧ c.toNat ≤ '9'.toNat then some (c.toNat - '0'.toNat)
  else if 'a'.toNat ≤ c.toNat ∧ c.toNat ≤ 'z'.toNat then some (c.toNat - 'a'.toNat + 10)
  else if 'A'.toNat ≤ c.toNat ∧ c.toNat ≤ 'Z'.toNat then some (c.toNat - 'A'.toNat + 10)
  else none

/-- `char::to_digit`. -/
def toDigit (radix : Nat) (c : Char) : Option Nat := (digitValue c).filter (· < radix)

/-- One more digit, with the overflow check. -/
def pushRadixDigit (radix bound n : Nat) (c : Char) : Option Nat :=
  (toDigit radix c).bind fun d => if radix * n + d < bound then some (radix * n + d) else none

/-- `from_str_radix` of the unsigned integers below `bound`. -/
def fromStrRadix (radix bound : Nat) (s : Str) : Option Nat :=
  match s with
  | [] | ['+'] | ['-'] => none
  | '+' :: digits | digits => digits.foldlM (pushRadixDigit radix bound) 0

/-! ## Hexadecimal digits -/

theorem toNat_toLower (c : Char) :
    c.toLower.toNat =
      if 'A'.toNat ≤ c.toNat ∧ c.toNat ≤ 'Z'.toNat then c.toNat + 32 else c.toNat := by
  unfold Char.toLower
  by_cases hupper : c.val ≥ 'A'.val ∧ c.val ≤ 'Z'.val
  · have hnat : 'A'.toNat ≤ c.toNat ∧ c.toNat ≤ 'Z'.toNat := hupper
    have hle : c.toNat ≤ 90 := hnat.2
    rw [dif_pos hupper, if_pos hnat]
    show (c.val + ('a'.val - 'A'.val)).toNat = _
    rw [UInt32.toNat_add]
    exact Nat.mod_eq_of_lt (show c.toNat + 32 < 0x100000000 by omega)
  · have hnat : ¬ ('A'.toNat ≤ c.toNat ∧ c.toNat ≤ 'Z'.toNat) := hupper
    rw [dif_neg hupper, if_neg hnat]

theorem toNat_digitChar {d : Nat} (h : d < 16) :
    d.digitChar.toNat = if d < 10 then '0'.toNat + d else 'a'.toNat + (d - 10) := by
  revert d
  decide

/-- A hexadecimal digit is the figure, or the letter in either case. -/
theorem toNat_of_toLower {d : Nat} (h : d < 16) {c : Char} (hc : c.toLower = d.digitChar) :
    d < 10 ∧ c.toNat = 48 + d ∨
      10 ≤ d ∧ (c.toNat = 97 + (d - 10) ∨ c.toNat = 65 + (d - 10)) := by
  have hnat : c.toLower.toNat = d.digitChar.toNat := by rw [hc]
  rw [toNat_toLower, toNat_digitChar h] at hnat
  simp only [Char.reduceToNat] at hnat
  split at hnat <;> split at hnat <;> omega

/-- A digit in either letter case has its value. -/
theorem toDigit_of_toLower {d : Nat} (h : d < 16) {c : Char} (hc : c.toLower = d.digitChar) :
    toDigit 16 c = some d := by
  have hvalue : digitValue c = some d := by
    unfold digitValue
    simp only [Char.reduceToNat]
    rcases toNat_of_toLower h hc with ⟨hd, hfigure⟩ | ⟨hd, hlower | hupper⟩
    · rw [if_pos (by omega), hfigure]
      simp
    · rw [if_neg (by omega), if_pos (by omega), hlower]
      exact congrArg some (by omega)
    · rw [if_neg (by omega), if_neg (by omega), if_pos (by omega), hupper]
      exact congrArg some (by omega)
  rw [toDigit, hvalue]
  simp [h]

theorem utf8Size_of_toLower {d : Nat} (h : d < 16) {c : Char} (hc : c.toLower = d.digitChar) :
    c.utf8Size = 1 := by
  have hascii : c.toNat ≤ 127 := by
    rcases toNat_of_toLower h hc with ⟨hd, hfigure⟩ | ⟨hd, hlower | hupper⟩ <;> omega
  exact Char.utf8Size_eq_one_iff.mpr hascii

/-- The string is `n` hexadecimal digits, in either letter case. -/
def HexDigits (n : Nat) (s : Str) : Prop :=
  s.length = n ∧ ∀ c ∈ s, ∃ d < 16, c.toLower = d.digitChar

/-! ## Bytes -/

/-- The digits of a byte, in lower case. -/
def hexByte (b : UInt8) : Str := [(b.toNat / 16).digitChar, (b.toNat % 16).digitChar]

/-- The string spells the bytes, in either letter case. -/
def SpellsHex (s : Str) (bs : List UInt8) : Prop := s.map Char.toLower = bs.flatMap hexByte

instance decidableSpellsHex (s : Str) (bs : List UInt8) : Decidable (SpellsHex s bs) :=
  inferInstanceAs (Decidable (_ = _))

/-- The digits of a number after those of `n`, a byte at a time. -/
def ofBytes (n : Nat) (bs : List UInt8) : Nat := bs.foldl (fun n b => 0x100 * n + b.toNat) n

theorem le_ofBytes (n : Nat) (bs : List UInt8) : n ≤ ofBytes n bs := by
  induction bs generalizing n with
  | nil => exact le_rfl
  | cons b bs ih =>
    have hn : n ≤ 0x100 * n + b.toNat := by omega
    exact hn.trans (ih _)

namespace SpellsHex

variable {s : Str} {b : UInt8} {bs : List UInt8}

theorem nil : SpellsHex [] [] := rfl

/-- The first byte takes the first two digits. -/
theorem exists_cons (h : SpellsHex s (b :: bs)) :
    ∃ (hi lo : Char) (rest : Str), s = hi :: lo :: rest ∧
      hi.toLower = (b.toNat / 16).digitChar ∧ lo.toLower = (b.toNat % 16).digitChar ∧
      SpellsHex rest bs := by
  obtain ⟨hi, tail, rfl, hhi, htail⟩ := List.map_eq_cons_iff.mp h
  obtain ⟨lo, rest, rfl, hlo, hrest⟩ := List.map_eq_cons_iff.mp htail
  exact ⟨hi, lo, rest, rfl, hhi, hlo, hrest⟩

/-- Hexadecimal digits are one byte each. -/
theorem byteLen_eq (h : SpellsHex s bs) : byteLen s = 2 * bs.length := by
  induction bs generalizing s with
  | nil => simp [List.map_eq_nil_iff.mp h, byteLen]
  | cons b bs ih =>
    obtain ⟨hi, lo, rest, rfl, hhi, hlo, hrest⟩ := h.exists_cons
    have hb := b.toNat_lt
    have hone : hi.utf8Size = 1 := utf8Size_of_toLower (by omega) hhi
    have hone' : lo.utf8Size = 1 := utf8Size_of_toLower (by omega) hlo
    have hrestLen := ih hrest
    show hi.utf8Size + (lo.utf8Size + byteLen rest) = _
    rw [List.length_cons]
    omega

/-- No prefix of the number overflows if the number does not. -/
theorem foldlM_eq {bound n : Nat} (h : SpellsHex s bs) (hlt : ofBytes n bs < bound) :
    s.foldlM (pushRadixDigit 16 bound) n = some (ofBytes n bs) := by
  induction bs generalizing s n with
  | nil =>
    obtain rfl := List.map_eq_nil_iff.mp h
    rfl
  | cons b bs ih =>
    obtain ⟨hi, lo, rest, rfl, hhi, hlo, hrest⟩ := h.exists_cons
    have hb := b.toNat_lt
    have hle : 0x100 * n + b.toNat ≤ ofBytes n (b :: bs) := le_ofBytes _ bs
    have hpushHi : pushRadixDigit 16 bound n hi = some (16 * n + b.toNat / 16) := by
      rw [pushRadixDigit, toDigit_of_toLower (by omega) hhi, Option.bind_some, if_pos (by omega)]
    have hpushLo : pushRadixDigit 16 bound (16 * n + b.toNat / 16) lo
        = some (0x100 * n + b.toNat) := by
      rw [pushRadixDigit, toDigit_of_toLower (by omega) hlo, Option.bind_some, if_pos (by omega)]
      exact congrArg some (by omega)
    rw [List.foldlM_cons, hpushHi]
    show (lo :: rest).foldlM (pushRadixDigit 16 bound) (16 * n + b.toNat / 16) = _
    rw [List.foldlM_cons, hpushLo]
    exact ih hrest hlt

/-- **The digits of bytes read back as their number.** -/
theorem fromStrRadix_eq {bound : Nat} (h : SpellsHex s (b :: bs))
    (hlt : ofBytes 0 (b :: bs) < bound) :
    fromStrRadix 16 bound s = some (ofBytes 0 (b :: bs)) := by
  obtain ⟨hi, lo, rest, rfl, hhi, -, -⟩ := h.exists_cons
  have hb := b.toNat_lt
  have hplus : hi ≠ '+' := by
    rintro rfl
    rcases toNat_of_toLower (by omega) hhi with ⟨-, h⟩ | ⟨-, h | h⟩ <;>
      simp only [Char.reduceToNat] at h <;> omega
  unfold fromStrRadix
  split
  · next heq => cases heq
  · next heq => cases heq
  · next heq => cases heq
  · next heq => exact absurd (List.cons.inj heq).1 hplus
  · exact h.foldlM_eq hlt

/-- Bytes are spelled with digits, two a byte. -/
theorem hexDigits (h : SpellsHex s bs) : HexDigits (2 * bs.length) s := by
  induction bs generalizing s with
  | nil =>
    obtain rfl := List.map_eq_nil_iff.mp h
    exact ⟨rfl, fun c hc => absurd hc List.not_mem_nil⟩
  | cons b bs ih =>
    obtain ⟨hi, lo, rest, rfl, hhi, hlo, hrest⟩ := h.exists_cons
    have hb := b.toNat_lt
    obtain ⟨hlen, hdigits⟩ := ih hrest
    constructor
    · rw [List.length_cons, List.length_cons, List.length_cons, hlen]
      omega
    · intro c hc
      rcases List.mem_cons.mp hc with rfl | hc
      · exact ⟨b.toNat / 16, by omega, hhi⟩
      · rcases List.mem_cons.mp hc with rfl | hc
        · exact ⟨b.toNat % 16, by omega, hlo⟩
        · exact hdigits c hc

/-- An even number of digits spells bytes. -/
theorem of_digits {n : Nat} (h : HexDigits (2 * n) s) :
    ∃ bs : List UInt8, bs.length = n ∧ SpellsHex s bs := by
  obtain ⟨hlen, hdigits⟩ := h
  induction n generalizing s with
  | zero =>
    obtain rfl := List.length_eq_zero_iff.mp hlen
    exact ⟨[], rfl, nil⟩
  | succ n ih =>
    match s, hlen, hdigits with
    | hi :: lo :: rest, hlen, hdigits =>
      obtain ⟨dhi, hhi, hhiLower⟩ := hdigits hi (by simp)
      obtain ⟨dlo, hlo, hloLower⟩ := hdigits lo (by simp)
      have hrest : rest.length = 2 * n := by
        simp only [List.length_cons] at hlen
        omega
      obtain ⟨bs, hbs, hspells⟩ := ih hrest fun c hc => hdigits c (by simp [hc])
      have hbyte : (UInt8.ofNat (16 * dhi + dlo)).toNat = 16 * dhi + dlo :=
        Nat.mod_eq_of_lt (show 16 * dhi + dlo < 0x100 by omega)
      refine ⟨UInt8.ofNat (16 * dhi + dlo) :: bs, by rw [List.length_cons, hbs], ?_⟩
      have hdiv : (16 * dhi + dlo) / 16 = dhi := by omega
      have hmod : (16 * dhi + dlo) % 16 = dlo := by omega
      rw [SpellsHex, List.map_cons, List.map_cons, hspells, hhiLower, hloLower, List.flatMap_cons,
        hexByte, hbyte, hdiv, hmod]
      rfl

end SpellsHex

end ChewingTsf
