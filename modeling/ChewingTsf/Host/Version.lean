import Mathlib.Data.List.Lex
import Mathlib.Data.List.TakeDrop
import Mathlib.Order.RelClasses
import ChewingTsf.Lib.Str

/-!
# Comparing versions (crates/chewing_tip_host/src/update/version.rs)

`version_gt` reads up to four numbers from each version, with 0 for what is missing or not a
`u64`, and compares them one after the other. It is the lexicographic order of what
`parse_version` reads (`versionGt_iff`), so a strict weak order on all strings.
-/

namespace ChewingTsf

/-! ## Reading a version -/

/-- One digit of `str::parse::<u64>`, with its overflow checks. -/
def pushDigit (n : Nat) (c : Char) : Option Nat :=
  if c.isDigit ∧ 10 * n + (c.toNat - '0'.toNat) < 0x10000000000000000 then
    some (10 * n + (c.toNat - '0'.toNat))
  else none

/-- `str::parse::<u64>`. -/
def parseU64 (s : Str) : Option Nat :=
  match s with
  | [] | ['+'] => none
  | '+' :: digits | digits => digits.foldlM pushDigit 0

/-- `parse_version`. -/
def parseVersion (ver : Str) : Nat × Nat × Nat × Nat :=
  let parts := ver.splitOn '.'
  ((parts[0]?.bind parseU64).getD 0, (parts[1]?.bind parseU64).getD 0,
    (parts[2]?.bind parseU64).getD 0, (parts[3]?.bind parseU64).getD 0)

/-- `version_gt`. -/
def versionGt (verA verB : Str) : Bool :=
  let (oMajor, oMinor, oPatch, oBuild) := parseVersion verB
  let (nMajor, nMinor, nPatch, nBuild) := parseVersion verA
  if nMajor > oMajor then true
  else if nMajor < oMajor then false
  else if nMinor > oMinor then true
  else if nMinor < oMinor then false
  else if nPatch > oPatch then true
  else if nPatch < oPatch then false
  else if nBuild > oBuild then true
  else if nBuild < oBuild then false
  else false

/-! ## The order -/

/-- What `parse_version` reads, as a list. -/
def versionNumbers (ver : Str) : List Nat :=
  let (major, minor, patch, build) := parseVersion ver
  [major, minor, patch, build]

/-- The cascade of comparisons is the lexicographic order of the numbers. -/
theorem versionGt_iff {verA verB : Str} :
    versionGt verA verB = true ↔ versionNumbers verB < versionNumbers verA := by
  unfold versionGt versionNumbers
  generalize parseVersion verA = a
  generalize parseVersion verB = b
  obtain ⟨nMajor, nMinor, nPatch, nBuild⟩ := a
  obtain ⟨oMajor, oMinor, oPatch, oBuild⟩ := b
  simp only [List.cons_lt_cons_iff, List.not_lt_nil, and_false, or_false]
  rcases lt_trichotomy oMajor nMajor with hmajor | rfl | hmajor
  · simp [hmajor]
  · rcases lt_trichotomy oMinor nMinor with hminor | rfl | hminor
    · simp [hminor]
    · rcases lt_trichotomy oPatch nPatch with hpatch | rfl | hpatch
      · simp [hpatch]
      · simp
      · simp [hpatch.not_gt, hpatch, hpatch.ne']
    · simp [hminor.not_gt, hminor, hminor.ne']
  · simp [hmajor.not_gt, hmajor, hmajor.ne']

theorem isStrictWeakOrder_versionGt :
    IsStrictWeakOrder Str fun a b => versionGt a b = true := by
  have hlt : IsStrictWeakOrder (List Nat) (· < ·) := isStrictWeakOrder_of_isOrderConnected
  simp only [versionGt_iff]
  exact inferInstanceAs
    (IsStrictWeakOrder Str (Function.onFun (Function.swap (· < ·)) versionNumbers))

/-! ## Dotted decimals -/

/-- The parts of a dotted decimal number, of which the first four are `u64`s. -/
structure DottedDecimal (parts : List Str) : Prop where
  ne_nil : parts ≠ []
  digits : ∀ part ∈ parts, part ≠ [] ∧ part.all Char.isDigit = true
  lt : ∀ part ∈ parts.take 4, Nat.ofDigitChars 10 part 0 < 0x10000000000000000

/-- The first four numbers of a dotted decimal, with 0 for those that are missing. -/
def firstNumbers (parts : List Str) : List Nat :=
  (parts.map fun part => Nat.ofDigitChars 10 part 0).takeD 4 0

theorem le_ofDigitChars (s : Str) (n : Nat) : n ≤ Nat.ofDigitChars 10 s n := by
  rw [Nat.ofDigitChars_eq_ofDigitChars_zero]
  have hpow : 0 < 10 ^ s.length := Nat.pow_pos (by omega)
  exact (Nat.le_mul_of_pos_left n hpow).trans (Nat.le_add_right ..)

/-- No prefix of a number overflows if the number does not. -/
theorem foldlM_pushDigit {s : Str} {n : Nat} (h : ∀ c ∈ s, c.isDigit = true)
    (hlt : Nat.ofDigitChars 10 s n < 0x10000000000000000) :
    s.foldlM pushDigit n = some (Nat.ofDigitChars 10 s n) := by
  induction s generalizing n with
  | nil => simp
  | cons c s ih =>
    rw [Nat.ofDigitChars_cons] at hlt ⊢
    have hfits : 10 * n + (c.toNat - '0'.toNat) < 0x10000000000000000 :=
      (le_ofDigitChars ..).trans_lt hlt
    have hpush : pushDigit n c = some (10 * n + (c.toNat - '0'.toNat)) :=
      if_pos ⟨h c List.mem_cons_self, hfits⟩
    rw [List.foldlM_cons, hpush]
    exact ih (fun c hc => h c (List.mem_cons_of_mem _ hc)) hlt

theorem parseU64_digits {s : Str} (hne : s ≠ []) (h : ∀ c ∈ s, c.isDigit = true)
    (hlt : Nat.ofDigitChars 10 s 0 < 0x10000000000000000) :
    parseU64 s = some (Nat.ofDigitChars 10 s 0) := by
  have hplus : '+' ∉ s := fun hmem => absurd (h '+' hmem) (by decide)
  unfold parseU64
  split
  · exact absurd rfl hne
  · simp at hplus
  · simp at hplus
  · exact foldlM_pushDigit h hlt

theorem DottedDecimal.part_eq {parts : List Str} (h : DottedDecimal parts) {i : Nat}
    (hi : i < 4) :
    (parts[i]?.bind parseU64).getD 0 =
      (parts.map fun part => Nat.ofDigitChars 10 part 0)[i]?.getD 0 := by
  cases hpart : parts[i]? with
  | none => simp [hpart]
  | some part =>
    have hmem : part ∈ parts := List.mem_of_getElem? hpart
    have htake : part ∈ parts.take 4 :=
      List.mem_of_getElem? (i := i) (by rw [List.getElem?_take_of_lt hi, hpart])
    obtain ⟨hne, hdigits⟩ := h.digits part hmem
    have hparse := parseU64_digits hne (List.all_eq_true.mp hdigits) (h.lt part htake)
    simp [hpart, hparse]

/-- `parse_version` reads the first four numbers. -/
theorem DottedDecimal.versionNumbers_eq {parts : List Str} (h : DottedDecimal parts) :
    versionNumbers (['.'].intercalate parts) = firstNumbers parts := by
  have hsplit : (['.'].intercalate parts).splitOn '.' = parts := by
    refine List.splitOn_intercalate '.' (fun part hpart hmem => ?_) h.ne_nil
    exact absurd (List.all_eq_true.mp (h.digits part hpart).2 '.' hmem) (by decide)
  unfold versionNumbers parseVersion firstNumbers
  rw [hsplit]
  simp only [h.part_eq, Nat.reduceLT]
  generalize (parts.map fun part => Nat.ofDigitChars 10 part 0) = numbers
  simp [List.head?_eq_getElem?]

/-- `version_gt` compares the first four numbers of dotted decimals lexicographically, and
is a strict weak order on all strings. -/
theorem versionGt_order :
    IsStrictWeakOrder Str (fun a b => versionGt a b = true) ∧
      (∀ a b, versionGt a b = true → versionGt b a = false) ∧
      ∀ as bs, DottedDecimal as → DottedDecimal bs →
        (versionGt (['.'].intercalate as) (['.'].intercalate bs) = true ↔
          firstNumbers bs < firstNumbers as) := by
  refine ⟨isStrictWeakOrder_versionGt, fun a b hgt => ?_, fun as bs has hbs => ?_⟩
  · rw [versionGt_iff] at hgt
    rw [Bool.eq_false_iff, ne_eq, versionGt_iff]
    exact hgt.asymm
  · rw [versionGt_iff, has.versionNumbers_eq, hbs.versionNumbers_eq]

/-- A leading zero counts for nothing, a missing number for 0. -/
theorem versionGt_order_parts :
    DottedDecimal ["26".toList, "01".toList] ∧
      versionGt "26.01".toList "26.0.9.9.9".toList = true := by
  have has : DottedDecimal ["26".toList, "01".toList] :=
    ⟨by decide, by decide, by decide⟩
  have hbs : DottedDecimal ["26".toList, "0".toList, "9".toList, "9".toList, "9".toList] :=
    ⟨by decide, by decide, by decide⟩
  exact ⟨has, (versionGt_order.2.2 _ _ has hbs).mpr (by decide)⟩

/-! ## The version of the installed DLL -/

def hiWord (v : UInt32) : UInt16 := ((v >>> 16) &&& 0xffff).toUInt16

def loWord (v : UInt32) : UInt16 := (v &&& 0xffff).toUInt16

/-- `VS_FIXEDFILEINFO`, as far as it is read. -/
structure VsFixedFileInfo where
  dwProductVersionMS : UInt32
  dwProductVersionLS : UInt32

/-- The words that `chewing_dll_version` prints. -/
def VsFixedFileInfo.words (info : VsFixedFileInfo) : List UInt16 :=
  [hiWord info.dwProductVersionMS, loWord info.dwProductVersionMS,
    hiWord info.dwProductVersionLS, loWord info.dwProductVersionLS]

/-- `chewing_dll_version`, by the version info of the DLL if that can be read. -/
def chewingDllVersion (fileInfo : Option VsFixedFileInfo) : Str :=
  match fileInfo with
  | some info => ['.'].intercalate (info.words.map fun word => Nat.toDigits 10 word.toNat)
  | none => "0.0.0.0".toList

/-- `chewing_dll_channel`. -/
def chewingDllChannel (fileInfo : Option VsFixedFileInfo) : Str :=
  let (_, _, _, build) := parseVersion (chewingDllVersion fileInfo)
  if build = 0 then "stable".toList else "development".toList

end ChewingTsf
