import ChewingTsf.Core.Registry
import ChewingTsf.Host.CandidateView

/-!
# Keeping the candidate window on screen

Before the window is moved, `WM_WINDOWPOSCHANGING` sets its size to what
`calculate_client_rect` says (crates/chewing_tip_host/src/ui_elements/candidate_list.rs) and
`clamp_point_to_monitor` moves its corner into the work area of the monitor
(crates/chewing_tip_host/src/ui/gfx.rs). `i32::clamp` panics if its bounds are the wrong way
round, and they are for a window that is larger than the work area.

`calculate_client_rect` rounds to `f32` at every step, so its size is any positive one here:
what the font's exact metrics give is only an instance.

In a build without overflow checks `rc.right - w` may also wrap, far to the left of the
primary monitor; the corner is then only kept from lying too far left or too high.
-/

namespace ChewingTsf

/-! ## Arithmetic of `i32` -/

/-- `a - b`: with overflow checks it panics, without them it wraps. -/
def subI32 (overflowChecks : Bool) (a b : Int32) : Option Int32 :=
  if overflowChecks = true ∧ ¬ IsI32 (a.toInt - b.toInt) then none else some (a - b)

/-- `i32::clamp`, which panics if `min > max`. -/
def clampI32 (x min max : Int32) : Option Int32 :=
  if min ≤ max then some (if x < min then min else if max < x then max else x) else none

/-! ## The window and the monitor -/

/-- `WINDOWPOS`, as far as it is used. -/
structure WindowPos where
  x : Int32
  y : Int32
  cx : Int32
  cy : Int32
  deriving DecidableEq

/-- The work area of a monitor. -/
structure WorkArea where
  left : Int32
  top : Int32
  right : Int32
  bottom : Int32
  left_lt : left < right
  top_lt : top < bottom

/-- The monitors of the desktop. -/
structure Display where
  /-- `MonitorFromPoint` and `GetMonitorInfoW` -/
  workArea : Int32 → Int32 → Option WorkArea
  /-- `get_dpi_for_point` -/
  dpi : Int32 → Int32 → UInt32

/-- `clamp_point_to_monitor`; `none` if it panics. -/
def clampPointToMonitor (overflowChecks : Bool) (display : Display) (x y w h : Int32) :
    Option (Int32 × Int32) :=
  match display.workArea x y with
  | none => some (x, y)
  | some rc => do
    let maxX ← subI32 overflowChecks rc.right w
    let x ← clampI32 x rc.left maxX
    let maxY ← subI32 overflowChecks rc.bottom h
    let y ← clampI32 y rc.top maxY
    return (x, y)

/-- `calculate_client_rect` at a DPI, as far as it is used: `hw_width as i32` and
`hw_height as i32`. -/
abbrev ClientRect : Type := CandidateListModel → UInt32 → Option (Int32 × Int32)

/-- `WM_WINDOWPOSCHANGING` of the candidate window; `none` if it panics. -/
def windowPosChanging (overflowChecks : Bool) (clientRect : ClientRect) (display : Display)
    (model : CandidateListModel) (pos : WindowPos) : Option WindowPos :=
  match clientRect model (display.dpi pos.x pos.y) with
  | none => some pos
  | some (cx, cy) => do
    let (x, y) ← clampPointToMonitor overflowChecks display pos.x pos.y cx cy
    return ⟨x, y, cx, cy⟩

/-! ## One axis -/

/-- There is room for `len` between `lo` and `hi`. -/
def Fits (lo hi len : Int32) : Prop := len.toInt ≤ hi.toInt - lo.toInt

/-- The bounds between which one coordinate is clamped. -/
def clampAxis (overflowChecks : Bool) (pos lo hi len : Int32) : Option Int32 :=
  (subI32 overflowChecks hi len).bind (clampI32 pos lo)

/-- The coordinate is clamped to something between the edges. -/
def ClampsTo (overflowChecks : Bool) (pos lo hi len : Int32) : Prop :=
  ∃ v, clampAxis overflowChecks pos lo hi len = some v ∧ lo ≤ v ∧ v < hi

/-- The far edge less the length is not an `i32`, and wraps to a bound beyond the far edge. -/
def Wraps (overflowChecks : Bool) (pos hi len : Int32) : Prop :=
  overflowChecks = false ∧ hi.toInt - len.toInt < -0x80000000 ∧ pos < hi

section

variable {overflowChecks : Bool} {pos lo hi len : Int32}

theorem toInt_bounds (a : Int32) : -0x80000000 ≤ a.toInt ∧ a.toInt < 0x80000000 :=
  ⟨a.le_toInt, a.toInt_lt⟩

/-- The difference, if it does not underflow. -/
theorem toInt_sub_of_le (hlen : 0 < len) (h : -0x80000000 ≤ hi.toInt - len.toInt) :
    (hi - len).toInt = hi.toInt - len.toInt := by
  have hpos : 0 < len.toInt := Int32.lt_iff_toInt_lt.mp hlen
  have hhi := toInt_bounds hi
  rw [Int32.toInt_sub]
  exact Int.bmod_eq_of_le (by simpa using h) (by simp; omega)

/-- The difference, if it does. -/
theorem toInt_sub_of_lt (h : hi.toInt - len.toInt < -0x80000000) :
    (hi - len).toInt = hi.toInt - len.toInt + 0x100000000 := by
  have hhi := toInt_bounds hi
  have hlen := toInt_bounds len
  have hshift : (hi.toInt - len.toInt + (0x100000000 : ℕ)).bmod 0x100000000
      = hi.toInt - len.toInt + (0x100000000 : ℕ) := Int.bmod_eq_of_le (by omega) (by omega)
  rw [Int.add_bmod_right] at hshift
  rw [Int32.toInt_sub]
  exact hshift

/-- A value is clamped to a value between the bounds. -/
theorem clampI32_of_le {x min max : Int32} (h : min ≤ max) :
    ∃ v, clampI32 x min max = some v ∧ min ≤ v ∧ v ≤ max ∧ (v = x ∨ (x < min ∧ v = min) ∨
      (max < x ∧ v = max)) := by
  rw [clampI32, if_pos h]
  by_cases hmin : x < min
  · exact ⟨min, by rw [if_pos hmin], Int32.le_refl _, h, .inr (.inl ⟨hmin, rfl⟩)⟩
  · rw [if_neg hmin]
    by_cases hmax : max < x
    · exact ⟨max, by rw [if_pos hmax], h, Int32.le_refl _, .inr (.inr ⟨hmax, rfl⟩)⟩
    · exact ⟨x, by rw [if_neg hmax], Int32.not_lt.mp hmin, Int32.not_lt.mp hmax, .inl rfl⟩

theorem clampI32_of_lt {x min max : Int32} (h : max < min) : clampI32 x min max = none :=
  if_neg (Int32.not_le.mpr h)

/-- What fits is moved to where it fits. -/
theorem Fits.clampAxis (hlen : 0 < len) (h : Fits lo hi len) :
    ∃ v, clampAxis overflowChecks pos lo hi len = some v ∧ lo ≤ v ∧
      v.toInt + len.toInt ≤ hi.toInt := by
  have hpos : 0 < len.toInt := Int32.lt_iff_toInt_lt.mp hlen
  have hlo := toInt_bounds lo
  have hhi := toInt_bounds hi
  rw [Fits] at h
  have hsub : (hi - len).toInt = hi.toInt - len.toInt := toInt_sub_of_le hlen (by omega)
  have hsome : subI32 overflowChecks hi len = some (hi - len) :=
    if_neg fun hpanic => hpanic.2 ⟨by omega, by omega⟩
  have hle : lo ≤ hi - len := by
    rw [Int32.le_iff_toInt_le, hsub]
    omega
  obtain ⟨v, hv, hlov, hvhi, -⟩ := clampI32_of_le hle (x := pos)
  rw [Int32.le_iff_toInt_le, hsub] at hvhi
  exact ⟨v, by rw [ChewingTsf.clampAxis, hsome, Option.bind_some, hv], hlov, by omega⟩

theorem Fits.clampsTo (hlen : 0 < len) (h : Fits lo hi len) :
    ClampsTo overflowChecks pos lo hi len := by
  have hpos : 0 < len.toInt := Int32.lt_iff_toInt_lt.mp hlen
  obtain ⟨v, hv, hlo, hend⟩ := h.clampAxis hlen
  refine ⟨v, hv, hlo, ?_⟩
  rw [Int32.lt_iff_toInt_lt]
  omega

/-- What does not fit is kept between the edges only if the bound wraps. -/
theorem clampsTo_iff_wraps (hlen : 0 < len) (hlohi : lo < hi) (h : ¬ Fits lo hi len) :
    ClampsTo overflowChecks pos lo hi len ↔ Wraps overflowChecks pos hi len := by
  have hpos : 0 < len.toInt := Int32.lt_iff_toInt_lt.mp hlen
  have hlt : lo.toInt < hi.toInt := Int32.lt_iff_toInt_lt.mp hlohi
  have hlo := toInt_bounds lo
  have hhi := toInt_bounds hi
  have hbounds := toInt_bounds len
  rw [Fits] at h
  by_cases hunder : hi.toInt - len.toInt < -0x80000000
  · have hsub := toInt_sub_of_lt hunder
    have hle : lo ≤ hi - len := by
      rw [Int32.le_iff_toInt_le, hsub]
      omega
    cases hchecks : overflowChecks with
    | true =>
      have hpanic : subI32 true hi len = none :=
        if_pos ⟨rfl, fun hi32 => absurd hi32.1 (by omega)⟩
      constructor
      · rintro ⟨v, hv, -⟩
        rw [ChewingTsf.clampAxis, hpanic] at hv
        cases hv
      · rintro ⟨hfalse, -⟩
        cases hfalse
    | false =>
      have hsome : subI32 false hi len = some (hi - len) :=
        if_neg fun hpanic => Bool.false_ne_true hpanic.1
      obtain ⟨v, hv, hlov, -, hcases⟩ := clampI32_of_le hle (x := pos)
      have hclamp : clampAxis false pos lo hi len = some v := by
        rw [ChewingTsf.clampAxis, hsome, Option.bind_some, hv]
      -- the far bound lies beyond everything on this monitor
      have hkept : v < hi ↔ pos < hi := by
        simp only [Int32.lt_iff_toInt_lt, ← Int32.toInt_inj, hsub] at hcases ⊢
        omega
      constructor
      · rintro ⟨v', hv', -, hlt'⟩
        rw [hclamp] at hv'
        obtain rfl := Option.some.inj hv'
        exact ⟨rfl, hunder, hkept.mp hlt'⟩
      · rintro ⟨-, -, hposlt⟩
        exact ⟨v, hclamp, hlov, hkept.mpr hposlt⟩
  · -- the bounds are the wrong way round
    have hsub : (hi - len).toInt = hi.toInt - len.toInt := toInt_sub_of_le hlen (by omega)
    have hgt : hi - len < lo := by
      rw [Int32.lt_iff_toInt_lt, hsub]
      omega
    constructor
    · rintro ⟨v, hv, -⟩
      rw [ChewingTsf.clampAxis, Option.bind_eq_some_iff] at hv
      obtain ⟨max, hmax, hv⟩ := hv
      have hsome : subI32 overflowChecks hi len = some (hi - len) :=
        if_neg fun hpanic => hpanic.2 ⟨by omega, by omega⟩
      rw [hsome] at hmax
      obtain rfl := Option.some.inj hmax
      rw [clampI32_of_lt hgt] at hv
      cases hv
    · rintro ⟨-, hlt, -⟩
      exact absurd hlt hunder

end

/-! ## The whole window -/

/-- The window has been put into the work area: its corner, and all of it if there is room. -/
structure WorkArea.Holds (rc : WorkArea) (placed : WindowPos) : Prop where
  horizontal : rc.left ≤ placed.x ∧ placed.x < rc.right
  vertical : rc.top ≤ placed.y ∧ placed.y < rc.bottom
  whole : Fits rc.left rc.right placed.cx → Fits rc.top rc.bottom placed.cy →
    placed.x.toInt + placed.cx.toInt ≤ rc.right.toInt ∧
      placed.y.toInt + placed.cy.toInt ≤ rc.bottom.toInt

/-- The handler does not panic, and leaves the window in the work area. -/
def PlacesWindow (overflowChecks : Bool) (clientRect : ClientRect) (display : Display)
    (model : CandidateListModel) (pos : WindowPos) (rc : WorkArea) : Prop :=
  ∃ placed, windowPosChanging overflowChecks clientRect display model pos = some placed ∧
    rc.Holds placed

/-- The window fits along one axis, or the far bound wraps. -/
def Placeable (overflowChecks : Bool) (pos lo hi len : Int32) : Prop :=
  Fits lo hi len ∨ Wraps overflowChecks pos hi len

theorem clampsTo_iff {overflowChecks : Bool} {pos lo hi len : Int32} (hlen : 0 < len)
    (hlohi : lo < hi) :
    ClampsTo overflowChecks pos lo hi len ↔ Placeable overflowChecks pos lo hi len := by
  by_cases hfits : Fits lo hi len
  · exact ⟨fun _ => .inl hfits, fun _ => hfits.clampsTo hlen⟩
  · rw [clampsTo_iff_wraps hlen hlohi hfits, Placeable, or_iff_right hfits]

section

variable {overflowChecks : Bool} {clientRect : ClientRect} {display : Display}
  {model : CandidateListModel} {pos : WindowPos} {cx cy : Int32} {rc : WorkArea}

/-- The two coordinates are clamped one after the other. -/
theorem windowPosChanging_eq_some_iff {placed : WindowPos}
    (hsize : clientRect model (display.dpi pos.x pos.y) = some (cx, cy))
    (hrc : display.workArea pos.x pos.y = some rc) :
    windowPosChanging overflowChecks clientRect display model pos = some placed ↔
      placed.cx = cx ∧ placed.cy = cy ∧
      clampAxis overflowChecks pos.x rc.left rc.right placed.cx = some placed.x ∧
      clampAxis overflowChecks pos.y rc.top rc.bottom placed.cy = some placed.y := by
  unfold windowPosChanging clampPointToMonitor clampAxis
  rw [hsize, hrc]
  simp only [Option.bind_eq_bind, Option.bind_eq_some_iff]
  constructor
  · rintro ⟨point, ⟨maxX, hmaxX, x, hx, maxY, hmaxY, y, hy, hpoint⟩, hplaced⟩
    obtain rfl := Option.some.inj hpoint
    obtain rfl := Option.some.inj hplaced
    exact ⟨rfl, rfl, ⟨maxX, hmaxX, hx⟩, maxY, hmaxY, hy⟩
  · obtain ⟨x, y, cx, cy⟩ := placed
    rintro ⟨rfl, rfl, ⟨maxX, hmaxX, hx⟩, maxY, hmaxY, hy⟩
    exact ⟨(x, y), ⟨maxX, hmaxX, x, hx, maxY, hmaxY, y, hy, rfl⟩, rfl⟩

/-- **The window is kept on screen** exactly if it is no larger than the work area, or the
bound that it is too large for wraps. -/
theorem placesWindow_iff
    (hsize : clientRect model (display.dpi pos.x pos.y) = some (cx, cy))
    (hcx : 0 < cx) (hcy : 0 < cy) (hrc : display.workArea pos.x pos.y = some rc) :
    PlacesWindow overflowChecks clientRect display model pos rc ↔
      Placeable overflowChecks pos.x rc.left rc.right cx ∧
        Placeable overflowChecks pos.y rc.top rc.bottom cy := by
  rw [← clampsTo_iff hcx rc.left_lt, ← clampsTo_iff hcy rc.top_lt]
  constructor
  · rintro ⟨placed, hplaced, hholds⟩
    obtain ⟨hwidth, hheight, hx, hy⟩ := (windowPosChanging_eq_some_iff hsize hrc).mp hplaced
    rw [hwidth] at hx
    rw [hheight] at hy
    exact ⟨⟨_, hx, hholds.horizontal⟩, ⟨_, hy, hholds.vertical⟩⟩
  · rintro ⟨⟨x, hx, hhorizontal⟩, ⟨y, hy, hvertical⟩⟩
    refine ⟨⟨x, y, cx, cy⟩, (windowPosChanging_eq_some_iff hsize hrc).mpr ⟨rfl, rfl, hx, hy⟩,
      hhorizontal, hvertical, ?_⟩
    intro hfitsX hfitsY
    obtain ⟨x', hx', -, hright⟩ := hfitsX.clampAxis hcx
    obtain ⟨y', hy', -, hbottom⟩ := hfitsY.clampAxis hcy
    rw [hx, Option.some.injEq] at hx'
    rw [hy, Option.some.injEq] at hy'
    rw [← hx'] at hright
    rw [← hy'] at hbottom
    exact ⟨hright, hbottom⟩

end

/-! ## Where the rounding is exact -/

/-- `x as i32` for an `f32`: towards 0, and saturating. -/
def asI32 (x : ℚ) : Int32 :=
  let i : Int := if 0 ≤ x then ⌊x⌋ else ⌈x⌉
  Int32.ofInt (max (-0x80000000) (min i 0x7fffffff))

theorem asI32_pos {x : ℚ} (h : 25 ≤ x) : 0 < asI32 x := by
  have hnonneg : 0 ≤ x := le_trans (by norm_num) h
  have hfloor : 25 ≤ ⌊x⌋ := Int.le_floor.mpr (by exact_mod_cast h)
  have hvalue : (asI32 x).toInt = max (-0x80000000) (min ⌊x⌋ 0x7fffffff) := by
    unfold asI32
    rw [if_pos hnonneg]
    exact Int32.toInt_ofInt_of_le (by omega) (by omega)
  rw [Int32.lt_iff_toInt_lt, hvalue]
  show (0 : ℤ) < _
  omega

/-- The size that a font's exact metrics give, as long as `f32` holds all of its steps. -/
def exactClientRect (dwriteFactory : DWriteFactory) : ClientRect := fun model dpi =>
  (calculateClientRect dwriteFactory model dpi.toNat).map fun rm =>
    (asI32 rm.hwWidth, asI32 rm.hwHeight)

/-- Every size that it gives is positive: 25 pixels are added to it. -/
theorem exactClientRect_pos {dwriteFactory : DWriteFactory} {model : CandidateListModel}
    {dpi : UInt32} {cx cy : Int32} (h : exactClientRect dwriteFactory model dpi = some (cx, cy)) :
    0 < cx ∧ 0 < cy := by
  obtain ⟨rm, hrm, heq⟩ := Option.map_eq_some_iff.mp h
  obtain ⟨size, metrics, hsize, rfl⟩ := calculateClientRect_eq_some hrm
  have hscale : 0 ≤ (dpi.toNat : ℚ) / 96 := div_nonneg (Nat.cast_nonneg _) (by norm_num)
  obtain ⟨hwidth, hheight⟩ := renderedMetrics_hw hsize model metrics hscale
  cases heq
  exact ⟨asI32_pos hwidth, asI32_pos hheight⟩

/-! ## A wide list -/

/-- A font whose characters are as wide and as high as its size. -/
def squareFont : DWriteFactory where
  createTextFormat family size := some ⟨family, size⟩
  getMetrics text format := some
    { width := text.length * |format.fontSize|
      widthIncludingTrailingWhitespace := text.length * |format.fontSize|
      height := |format.fontSize|
      width_nonneg := mul_nonneg (Nat.cast_nonneg _) (abs_nonneg _)
      trailing_nonneg := mul_nonneg (Nat.cast_nonneg _) (abs_nonneg _)
      height_nonneg := abs_nonneg _ }

/-- A monitor with a task bar. -/
def desktopArea : WorkArea := ⟨0, 0, 1920, 1040, by decide, by decide⟩

def oneMonitor : Display where
  workArea _ _ := some desktopArea
  dpi _ _ := 96

/-- Ten phrases of eight characters, in one row. -/
def tenPhrases : CandidateListModel :=
  .ofParams { ShowCandidateList.default with
    items := List.replicate 10 "一二三四五六七八".toList
    selkeys := [0x31, 0x32, 0x33, 0x34, 0x35, 0x36, 0x37, 0x38, 0x39, 0x30]
    candPerRow := 10
    fontSize := 24 } (by decide)

/-- The same in rows of two. -/
def narrowPhrases : CandidateListModel := { tenPhrases with candPerRow := 2 }

/-- A position in the corner of the screen. -/
def corner : WindowPos := ⟨1900, 1030, 0, 0⟩

/-- In rows of two there is room. -/
theorem placesWindow_narrow :
    PlacesWindow false (exactClientRect squareFont) oneMonitor narrowPhrases corner
      desktopArea := by
  have hsize : exactClientRect squareFont narrowPhrases (oneMonitor.dpi corner.x corner.y)
      = some (535, 209) := by decide +kernel
  obtain ⟨hcx, hcy⟩ := exactClientRect_pos hsize
  exact (placesWindow_iff hsize hcx hcy rfl).mpr
    ⟨.inl (by unfold Fits; decide), .inl (by unfold Fits; decide)⟩

/-- In one row they are wider than the work area, and the host panics. -/
theorem wide_list_panics :
    ¬ ∀ (overflowChecks : Bool) (clientRect : ClientRect) (display : Display)
      (model : CandidateListModel) (pos : WindowPos) (cx cy : Int32) (rc : WorkArea),
      clientRect model (display.dpi pos.x pos.y) = some (cx, cy) → 0 < cx → 0 < cy →
      display.workArea pos.x pos.y = some rc →
        PlacesWindow overflowChecks clientRect display model pos rc := by
  intro hclaim
  have hsize : exactClientRect squareFont tenPhrases (oneMonitor.dpi corner.x corner.y)
      = some (2527, 97) := by decide +kernel
  have hpanic : clampAxis false 1900 0 1920 2527 = none := by decide
  obtain ⟨hcx, hcy⟩ := exactClientRect_pos hsize
  obtain ⟨placed, hplaced, -⟩ := hclaim false (exactClientRect squareFont) oneMonitor tenPhrases
    corner 2527 97 desktopArea hsize hcx hcy rfl
  obtain ⟨hwidth, -, hx, -⟩ := (windowPosChanging_eq_some_iff hsize rfl).mp hplaced
  rw [hwidth] at hx
  exact Option.some_ne_none _ (hx.symm.trans hpanic)

end ChewingTsf
