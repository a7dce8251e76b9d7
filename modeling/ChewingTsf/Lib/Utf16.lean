import ChewingTsf.Lib.Str

/-!
# UTF-16

Windows counts text in UTF-16 code units. A character of the basic multilingual
plane is one unit, any other character two, so a count of `char`s is a count of
units exactly for the strings of the basic plane (`length_utf16_eq_iff`).
-/

namespace ChewingTsf

/-- A UTF-16 string (`HSTRING`). -/
abbrev Wide := List UInt16

/-- The code units of a character. -/
def utf16Char (c : Char) : Wide :=
  if c.toNat < 0x10000 then [c.toNat.toUInt16]
  else [(0xD800 + (c.toNat - 0x10000) / 0x400).toUInt16,
        (0xDC00 + (c.toNat - 0x10000) % 0x400).toUInt16]

/-- The UTF-16 encoding of a string. -/
def utf16 (s : Str) : Wide := s.flatMap utf16Char

/-- All characters lie in the basic multilingual plane. -/
def Bmp (s : Str) : Prop := ∀ c ∈ s, c.toNat < 0x10000

instance (s : Str) : Decidable (Bmp s) := List.decidableBAll (fun c : Char => c.toNat < 0x10000) s

@[simp] theorem utf16_nil : utf16 [] = [] := rfl

@[simp] theorem utf16_append (s t : Str) : utf16 (s ++ t) = utf16 s ++ utf16 t :=
  List.flatMap_append

theorem utf16_cons (c : Char) (s : Str) : utf16 (c :: s) = utf16Char c ++ utf16 s := rfl

theorem length_utf16Char_pos (c : Char) : 0 < (utf16Char c).length := by
  unfold utf16Char
  split <;> simp

@[simp] theorem utf16_eq_nil {s : Str} : utf16 s = [] ↔ s = [] := by
  cases s with
  | nil => simp
  | cons c s =>
    rw [utf16_cons, List.append_eq_nil_iff]
    have := length_utf16Char_pos c
    constructor
    · rintro ⟨h, -⟩
      simp [h] at this
    · intro h
      cases h

/-- There are at least as many units as characters. -/
theorem length_le_length_utf16 (s : Str) : s.length ≤ (utf16 s).length := by
  induction s with
  | nil => simp
  | cons c s ih =>
    have := length_utf16Char_pos c
    rw [utf16_cons, List.length_append, List.length_cons]
    omega

/-- A string of the basic plane has one unit for each character. -/
theorem Bmp.length_utf16 {s : Str} (h : Bmp s) : (utf16 s).length = s.length := by
  induction s with
  | nil => simp
  | cons c s ih =>
    have hc : (utf16Char c).length = 1 := by
      rw [utf16Char, if_pos (h c (by simp))]
      rfl
    have hs := ih fun d hd => h d (List.mem_cons_of_mem c hd)
    rw [utf16_cons, List.length_append, List.length_cons, hc, hs]
    omega

/-- A part of a string of the basic plane. -/
theorem Bmp.take {s : Str} {m n : Nat} (h : Bmp (s.take n)) (hle : m ≤ n) : Bmp (s.take m) :=
  fun c hc => h c (List.take_subset_take_left s hle hc)

/-- A string is a part of the basic plane and a rest that does not begin in it. -/
theorem exists_bmp_prefix (s : Str) :
    ∃ s₁ s₂, s = s₁ ++ s₂ ∧ Bmp s₁ ∧ ∀ n, Bmp (s.take n) → n ≤ s.length → n ≤ s₁.length := by
  induction s with
  | nil => exact ⟨[], [], rfl, by simp [Bmp], fun n _ hn => hn⟩
  | cons c s ih =>
    by_cases hc : c.toNat < 0x10000
    · obtain ⟨s₁, s₂, rfl, hs₁, hmax⟩ := ih
      refine ⟨c :: s₁, s₂, rfl, List.forall_mem_cons.mpr ⟨hc, hs₁⟩, ?_⟩
      intro n hbmp hn
      cases n with
      | zero => exact Nat.zero_le _
      | succ n =>
        exact Nat.succ_le_succ (hmax n (fun d hd => hbmp d (List.mem_cons_of_mem c hd))
          (Nat.le_of_succ_le_succ hn))
    · refine ⟨[], c :: s, rfl, by simp [Bmp], ?_⟩
      intro n hbmp _
      cases n with
      | zero => exact le_rfl
      | succ n => exact absurd (hbmp c List.mem_cons_self) hc

/-- Only strings of the basic plane have one unit for each character. -/
theorem length_utf16_eq_iff {s : Str} : (utf16 s).length = s.length ↔ Bmp s := by
  constructor
  · intro h
    induction s with
    | nil =>
      intro c hc
      cases hc
    | cons c s ih =>
      have hc := length_utf16Char_pos c
      have hs := length_le_length_utf16 s
      rw [utf16_cons, List.length_append, List.length_cons] at h
      intro d hd
      rcases List.mem_cons.mp hd with rfl | hd
      · by_contra hwide
        have htwo : (utf16Char d).length = 2 := by rw [utf16Char, if_neg hwide]; rfl
        omega
      · exact ih (by omega) d hd
  · exact Bmp.length_utf16

/-- The units counted by the characters of the first part are exactly it. -/
theorem Bmp.take_utf16 {s : Str} (h : Bmp s) (t : Str) :
    (utf16 (s ++ t)).take s.length = utf16 s := by
  rw [utf16_append, ← h.length_utf16, List.take_left]

theorem Bmp.drop_utf16 {s : Str} (h : Bmp s) (t : Str) :
    (utf16 (s ++ t)).drop s.length = utf16 t := by
  rw [utf16_append, ← h.length_utf16, List.drop_left]

end ChewingTsf
