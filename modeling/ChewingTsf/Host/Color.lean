import Mathlib.Algebra.Order.Ring.Rat
import Mathlib.Tactic.NormNum
import ChewingTsf.Lib.Hex

/-!
# Colours (crates/chewing_tip_host/src/ui/gfx.rs, `color_s`)

A colour of the configuration is written RRGGBB or RRGGBBAA. `color_s` reads the string as
one 32-bit number, cuts the alpha channel off if the string is longer than six bytes, and
takes the other three from what is left. The channels are exact fractions here, not `f32`s.
-/

namespace ChewingTsf

/-- `D2D1_COLOR_F`. -/
structure D2D1ColorF where
  r : ℚ
  g : ℚ
  b : ℚ
  a : ℚ
  deriving DecidableEq

/-- `color_s`. -/
def colorS (rgb : Str) : D2D1ColorF :=
  let rgbU32 : UInt32 := UInt32.ofNat ((fromStrRadix 16 0x100000000 rgb).getD 0)
  let (a, rgbU32) : UInt16 × UInt32 :=
    if byteLen rgb > 6 then ((rgbU32 &&& 0xFF).toUInt16, rgbU32 >>> 8) else (255, rgbU32)
  let r := ((rgbU32 >>> 16) &&& 0xFF).toUInt16
  let g := ((rgbU32 >>> 8) &&& 0xFF).toUInt16
  let b := (rgbU32 &&& 0xFF).toUInt16
  { r := r.toNat / 255
    g := g.toNat / 255
    b := b.toNat / 255
    a := a.toNat / 255 }

/-- The channel that a byte spells. -/
def channel (b : UInt8) : ℚ := b.toNat / 255

theorem channel_inj {b b' : UInt8} : channel b = channel b' ↔ b = b' := by
  unfold channel
  constructor
  · intro h
    rw [div_left_inj' (by decide), Nat.cast_inj] at h
    exact UInt8.toNat_inj.mp h
  · rintro rfl
    rfl

/-! ## The bytes of a word -/

theorem toNat_lowByte (v : UInt32) : (v &&& 0xFF).toUInt16.toNat = v.toNat % 0x100 := by
  have hmask : v.toNat &&& 0xFF = v.toNat % 0x100 := Nat.and_two_pow_sub_one_eq_mod v.toNat 8
  rw [UInt32.toNat_toUInt16, UInt32.toNat_and]
  show (v.toNat &&& 0xFF) % 0x10000 = _
  rw [hmask]
  omega

theorem toNat_shiftRight_eight (v : UInt32) : (v >>> 8).toNat = v.toNat / 0x100 := by
  rw [UInt32.toNat_shiftRight]
  exact Nat.shiftRight_eq_div_pow v.toNat 8

theorem toNat_shiftRight_sixteen (v : UInt32) : (v >>> 16).toNat = v.toNat / 0x10000 := by
  rw [UInt32.toNat_shiftRight]
  exact Nat.shiftRight_eq_div_pow v.toNat 16

/-! ## Spelled colours -/

/-- The colour with these channels. -/
def D2D1ColorF.ofChannels (r g b a : Nat) : D2D1ColorF := ⟨r / 255, g / 255, b / 255, a / 255⟩

/-- The number that `color_s` works on. -/
def colorNumber (rgb : Str) : Nat :=
  (UInt32.ofNat ((fromStrRadix 16 0x100000000 rgb).getD 0)).toNat

theorem colorS_of_long {rgb : Str} (h : byteLen rgb > 6) :
    colorS rgb = D2D1ColorF.ofChannels (colorNumber rgb / 0x1000000 % 0x100)
      (colorNumber rgb / 0x10000 % 0x100) (colorNumber rgb / 0x100 % 0x100)
      (colorNumber rgb % 0x100) := by
  unfold colorS
  simp only [if_pos h, toNat_lowByte, toNat_shiftRight_eight, toNat_shiftRight_sixteen]
  rw [Nat.div_div_eq_div_mul, Nat.div_div_eq_div_mul]
  rfl

theorem colorS_of_short {rgb : Str} (h : ¬ byteLen rgb > 6) :
    colorS rgb = D2D1ColorF.ofChannels (colorNumber rgb / 0x10000 % 0x100)
      (colorNumber rgb / 0x100 % 0x100) (colorNumber rgb % 0x100) 255 := by
  unfold colorS
  simp only [if_neg h, toNat_lowByte, toNat_shiftRight_eight, toNat_shiftRight_sixteen]
  rfl

theorem colorNumber_eq {s : Str} {b : UInt8} {bs : List UInt8} (h : SpellsHex s (b :: bs))
    (hlt : ofBytes 0 (b :: bs) < 0x100000000) : colorNumber s = ofBytes 0 (b :: bs) := by
  unfold colorNumber
  rw [h.fromStrRadix_eq hlt]
  exact Nat.mod_eq_of_lt hlt

/-- RRGGBBAA. -/
theorem colorS_rgba {s : Str} {r g b a : UInt8} (h : SpellsHex s [r, g, b, a]) :
    colorS s = ⟨channel r, channel g, channel b, channel a⟩ := by
  have hr := r.toNat_lt
  have hg := g.toNat_lt
  have hb := b.toNat_lt
  have ha := a.toNat_lt
  have hbytes : ofBytes 0 [r, g, b, a]
      = 0x1000000 * r.toNat + 0x10000 * g.toNat + 0x100 * b.toNat + a.toNat := by
    simp only [ofBytes, List.foldl_cons, List.foldl_nil]
    omega
  have hnumber : colorNumber s
      = 0x1000000 * r.toNat + 0x10000 * g.toNat + 0x100 * b.toNat + a.toNat := by
    rw [colorNumber_eq h (by omega), hbytes]
  rw [colorS_of_long (by simp [h.byteLen_eq]), hnumber]
  have hred : (0x1000000 * r.toNat + 0x10000 * g.toNat + 0x100 * b.toNat + a.toNat) / 0x1000000
      % 0x100 = r.toNat := by omega
  have hgreen : (0x1000000 * r.toNat + 0x10000 * g.toNat + 0x100 * b.toNat + a.toNat) / 0x10000
      % 0x100 = g.toNat := by omega
  have hblue : (0x1000000 * r.toNat + 0x10000 * g.toNat + 0x100 * b.toNat + a.toNat) / 0x100
      % 0x100 = b.toNat := by omega
  have halpha : (0x1000000 * r.toNat + 0x10000 * g.toNat + 0x100 * b.toNat + a.toNat) % 0x100
      = a.toNat := by omega
  rw [hred, hgreen, hblue, halpha]
  rfl

/-- RRGGBB. -/
theorem colorS_rgb {s : Str} {r g b : UInt8} (h : SpellsHex s [r, g, b]) :
    colorS s = ⟨channel r, channel g, channel b, 1⟩ := by
  have hr := r.toNat_lt
  have hg := g.toNat_lt
  have hb := b.toNat_lt
  have hbytes : ofBytes 0 [r, g, b] = 0x10000 * r.toNat + 0x100 * g.toNat + b.toNat := by
    simp only [ofBytes, List.foldl_cons, List.foldl_nil]
    omega
  have hnumber : colorNumber s = 0x10000 * r.toNat + 0x100 * g.toNat + b.toNat := by
    rw [colorNumber_eq h (by omega), hbytes]
  rw [colorS_of_short (by simp [h.byteLen_eq]), hnumber]
  have hred : (0x10000 * r.toNat + 0x100 * g.toNat + b.toNat) / 0x10000 % 0x100 = r.toNat := by
    omega
  have hgreen : (0x10000 * r.toNat + 0x100 * g.toNat + b.toNat) / 0x100 % 0x100 = g.toNat := by
    omega
  have hblue : (0x10000 * r.toNat + 0x100 * g.toNat + b.toNat) % 0x100 = b.toNat := by omega
  have hopaque : ((255 : Nat) : ℚ) / 255 = 1 := by norm_num
  rw [hred, hgreen, hblue, D2D1ColorF.ofChannels, hopaque]
  rfl

/-- Eight digits decode to the four bytes that they spell, and to no others. -/
theorem colorS_eq_iff {s t : Str} (hs : HexDigits 8 s) (ht : HexDigits 8 t) :
    colorS s = colorS t ↔ s.map Char.toLower = t.map Char.toLower := by
  obtain ⟨bs, hbs, hspells⟩ := SpellsHex.of_digits (n := 4) hs
  obtain ⟨bs', hbs', hspells'⟩ := SpellsHex.of_digits (n := 4) ht
  match bs, hbs, bs', hbs' with
  | [r, g, b, a], _, [r', g', b', a'], _ =>
    constructor
    · intro h
      rw [colorS_rgba hspells, colorS_rgba hspells', D2D1ColorF.mk.injEq] at h
      simp only [channel_inj] at h
      obtain ⟨rfl, rfl, rfl, rfl⟩ := h
      exact hspells.trans hspells'.symm
    · intro h
      have hsame : SpellsHex t [r, g, b, a] := h.symm.trans hspells
      rw [colorS_rgba hspells, colorS_rgba hsame]

/-- **Colours decode to the channels they spell**, in either letter case and with leading
zeros; two strings of eight digits decode alike if they differ in letter case only. -/
theorem colorS_channels :
    (∀ (s : Str) (r g b a : UInt8), SpellsHex s [r, g, b, a] →
      colorS s = ⟨channel r, channel g, channel b, channel a⟩) ∧
    (∀ (s : Str) (r g b : UInt8), SpellsHex s [r, g, b] →
      colorS s = ⟨channel r, channel g, channel b, 1⟩) ∧
    ∀ s t : Str, HexDigits 8 s → HexDigits 8 t →
      (colorS s = colorS t ↔ s.map Char.toLower = t.map Char.toLower) :=
  ⟨fun _ _ _ _ _ h => colorS_rgba h, fun _ _ _ _ h => colorS_rgb h,
    fun _ _ hs ht => colorS_eq_iff hs ht⟩

/-- A blue with a leading zero, in both letter cases. -/
theorem colorS_channels_blue :
    colorS "0000ffCc".toList = ⟨channel 0, channel 0, channel 0xFF, channel 0xCC⟩ ∧
      colorS "0000fF".toList = ⟨channel 0, channel 0, channel 0xFF, 1⟩ ∧
      colorS "0000ffCc".toList = colorS "0000FFcC".toList := by
  have hspells : SpellsHex "0000ffCc".toList [0, 0, 0xFF, 0xCC] := by decide
  have hspells' : SpellsHex "0000FFcC".toList [0, 0, 0xFF, 0xCC] := by decide
  exact ⟨colorS_channels.1 _ 0 0 0xFF 0xCC hspells, colorS_channels.2.1 _ 0 0 0xFF (by decide),
    (colorS_channels.2.2 _ _ hspells.hexDigits hspells'.hexDigits).mpr (by decide)⟩

end ChewingTsf
