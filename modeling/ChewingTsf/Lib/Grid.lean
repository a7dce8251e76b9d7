import Mathlib.Algebra.Order.Field.Basic
import Mathlib.Algebra.Order.Floor.Ring
import Mathlib.Data.Finset.Card
import Mathlib.Tactic.Linarith

/-!
# Rows and columns of cells

A grid of cells of one size, with gaps between them. Cells in different places are disjoint
(`Grid.cell_disjoint`), and those of so many rows and columns lie in a box of a certain size
(`Grid.cell_within`). Items that are put into the cells row by row, `c` in a row, take
`rowsOf n c` rows.
-/

namespace ChewingTsf

universe u

variable {K : Type u}

/-- A rectangle by its edges. -/
structure Rect (K : Type u) where
  left : K
  top : K
  right : K
  bottom : K
  deriving DecidableEq

namespace Rect

variable [LinearOrder K]

def Contains (r : Rect K) (x y : K) : Prop :=
  (r.left ≤ x ∧ x ≤ r.right) ∧ r.top ≤ y ∧ y ≤ r.bottom

/-- No point lies in both rectangles, not even on their edges. -/
def Disjoint (r s : Rect K) : Prop := ∀ x y, ¬ (r.Contains x y ∧ s.Contains x y)

/-- One rectangle lies inside another. -/
structure Within (r s : Rect K) : Prop where
  left : s.left ≤ r.left
  top : s.top ≤ r.top
  right : r.right ≤ s.right
  bottom : r.bottom ≤ s.bottom

theorem Disjoint.symm {r s : Rect K} (h : r.Disjoint s) : s.Disjoint r :=
  fun x y hxy => h x y hxy.symm

theorem disjoint_of_right_lt {r s : Rect K} (h : r.right < s.left) : r.Disjoint s :=
  fun _ _ ⟨hr, hs⟩ => absurd (hr.1.2.trans_lt h) (not_lt.mpr hs.1.1)

theorem disjoint_of_bottom_lt {r s : Rect K} (h : r.bottom < s.top) : r.Disjoint s :=
  fun _ _ ⟨hr, hs⟩ => absurd (hr.2.2.trans_lt h) (not_lt.mpr hs.2.1)

end Rect

/-! ## Steps of one length -/

section

variable [Field K] [LinearOrder K] [IsStrictOrderedRing K]

/-- A piece of length `w` ends before a later one begins. -/
theorem step_end_lt {w gap : K} (hw : 0 ≤ w) (hgap : 0 < gap) (p : K) {i j : ℕ} (h : i < j) :
    p + i * (w + gap) + w < p + j * (w + gap) := by
  have hij : (i : K) + 1 ≤ j := by exact_mod_cast h
  have hstep : ((i : K) + 1) * (w + gap) ≤ j * (w + gap) :=
    mul_le_mul_of_nonneg_right hij (by linarith)
  linarith

/-- The first `n` pieces end where the last of them does. -/
theorem step_end_le {w gap : K} (hw : 0 ≤ w) (hgap : 0 < gap) (p : K) {i n : ℕ} (h : i < n) :
    p + i * (w + gap) + w ≤ p + (n * w + (n - 1) * gap) := by
  have hin : (i : K) + 1 ≤ n := by exact_mod_cast h
  have hstep : ((i : K) + 1) * (w + gap) ≤ n * (w + gap) :=
    mul_le_mul_of_nonneg_right hin (by linarith)
  linarith

end

/-! ## Cells -/

/-- A grid of cells: its first corner, the size of a cell, and the gaps between columns and
between rows. -/
structure Grid (K : Type u) [Field K] [LinearOrder K] where
  left : K
  top : K
  cellWidth : K
  cellHeight : K
  colGap : K
  rowGap : K
  cellWidth_nonneg : 0 ≤ cellWidth
  cellHeight_nonneg : 0 ≤ cellHeight
  colGap_pos : 0 < colGap
  rowGap_pos : 0 < rowGap

namespace Grid

variable [Field K] [LinearOrder K]

/-- The cell in a row and a column. -/
def cell (g : Grid K) (row col : ℕ) : Rect K where
  left := g.left + col * (g.cellWidth + g.colGap)
  top := g.top + row * (g.cellHeight + g.rowGap)
  right := g.left + col * (g.cellWidth + g.colGap) + g.cellWidth
  bottom := g.top + row * (g.cellHeight + g.rowGap) + g.cellHeight

/-- The box around so many rows and columns. -/
def box (g : Grid K) (rows cols : ℕ) : Rect K where
  left := g.left
  top := g.top
  right := g.left + (cols * g.cellWidth + (cols - 1) * g.colGap)
  bottom := g.top + (rows * g.cellHeight + (rows - 1) * g.rowGap)

variable [IsStrictOrderedRing K] (g : Grid K)

/-- Cells in different places have no point in common. -/
theorem cell_disjoint {row col row' col' : ℕ} (h : row ≠ row' ∨ col ≠ col') :
    (g.cell row col).Disjoint (g.cell row' col') := by
  rcases h with hrow | hcol
  · rcases lt_or_gt_of_ne hrow with hlt | hgt
    · exact Rect.disjoint_of_bottom_lt
        (step_end_lt g.cellHeight_nonneg g.rowGap_pos g.top hlt)
    · exact (Rect.disjoint_of_bottom_lt
        (step_end_lt g.cellHeight_nonneg g.rowGap_pos g.top hgt)).symm
  · rcases lt_or_gt_of_ne hcol with hlt | hgt
    · exact Rect.disjoint_of_right_lt
        (step_end_lt g.cellWidth_nonneg g.colGap_pos g.left hlt)
    · exact (Rect.disjoint_of_right_lt
        (step_end_lt g.cellWidth_nonneg g.colGap_pos g.left hgt)).symm

theorem cell_within {rows cols row col : ℕ} (hrow : row < rows) (hcol : col < cols) :
    (g.cell row col).Within (g.box rows cols) where
  left := le_add_of_nonneg_right <|
    mul_nonneg (Nat.cast_nonneg col) (add_nonneg g.cellWidth_nonneg g.colGap_pos.le)
  top := le_add_of_nonneg_right <|
    mul_nonneg (Nat.cast_nonneg row) (add_nonneg g.cellHeight_nonneg g.rowGap_pos.le)
  right := step_end_le g.cellWidth_nonneg g.colGap_pos g.left hcol
  bottom := step_end_le g.cellHeight_nonneg g.rowGap_pos g.top hrow

/-- A row is told by its upper edge. -/
theorem cell_top_inj {row col row' col' : ℕ} :
    (g.cell row col).top = (g.cell row' col').top ↔ row = row' := by
  have hpos : 0 < g.cellHeight + g.rowGap := add_pos_of_nonneg_of_pos g.cellHeight_nonneg g.rowGap_pos
  show g.top + row * _ = g.top + row' * _ ↔ _
  rw [add_right_inj, mul_left_inj' hpos.ne', Nat.cast_inj]

end Grid

/-! ## Items, row by row -/

/-- The row and the column of an item, with `c` items in a row. -/
def rowMajor (c i : ℕ) : ℕ × ℕ := (i / c, i % c)

/-- The number of rows that `n` items take. -/
def rowsOf (n c : ℕ) : ℕ := (n - 1) / c + 1

/-- After the last column comes the next row. -/
theorem rowMajor_succ {c : ℕ} (hc : 0 < c) (i : ℕ) :
    rowMajor c (i + 1) =
      if c ≤ i % c + 1 then (i / c + 1, 0) else (i / c, i % c + 1) := by
  have hmod : i % c < c := Nat.mod_lt i hc
  have hi : c * (i / c) + i % c = i := Nat.div_add_mod i c
  unfold rowMajor
  split
  · have hnext : i + 1 = c * (i / c + 1) := by
      rw [Nat.mul_add_one]
      omega
    rw [hnext, Nat.mul_div_cancel_left _ hc, Nat.mul_mod_right]
  · have hnext : i + 1 = c * (i / c) + (i % c + 1) := by omega
    have hlt : i % c + 1 < c := by omega
    rw [hnext, Nat.mul_add_div hc, Nat.div_eq_of_lt hlt, Nat.mul_add_mod,
      Nat.mod_eq_of_lt hlt, add_zero]

theorem rowMajor_inj {c i j : ℕ} : rowMajor c i = rowMajor c j ↔ i = j := by
  constructor
  · intro h
    obtain ⟨hdiv, hmod⟩ := Prod.mk.inj h
    rw [← Nat.div_add_mod i c, ← Nat.div_add_mod j c, hdiv, hmod]
  · rintro rfl
    rfl

theorem row_lt {n c i : ℕ} (h : i < n) : i / c < rowsOf n c :=
  Nat.lt_succ_of_le (Nat.div_le_div_right (by omega))

theorem col_lt {n c i : ℕ} (hc : 0 < c) (h : i < n) : i % c < min n c :=
  lt_min ((Nat.mod_le i c).trans_lt h) (Nat.mod_lt i hc)

/-- Columns that stay empty make no difference. -/
theorem rowsOf_min (n c : ℕ) : rowsOf n (min n c) = rowsOf n c := by
  rcases le_total n c with hle | hge
  · rcases Nat.eq_zero_or_pos n with rfl | hn
    · simp [rowsOf]
    · have hfull : (n - 1) / n = 0 := Nat.div_eq_of_lt (by omega)
      have hone : (n - 1) / c = 0 := Nat.div_eq_of_lt (by omega)
      rw [min_eq_left hle, rowsOf, rowsOf, hfull, hone]
  · rw [min_eq_right hge]

/-- The items take all the rows up to the last. -/
theorem image_rows {n c : ℕ} (hn : 0 < n) (hc : 0 < c) :
    (Finset.range n).image (· / c) = Finset.range (rowsOf n c) := by
  ext row
  rw [Finset.mem_image, Finset.mem_range]
  constructor
  · rintro ⟨i, hi, rfl⟩
    exact row_lt (Finset.mem_range.mp hi)
  · intro hrow
    have hfirst : row * c ≤ n - 1 := (Nat.le_div_iff_mul_le hc).mp (Nat.le_of_lt_succ hrow)
    exact ⟨row * c, Finset.mem_range.mpr (by omega), Nat.mul_div_cancel row hc⟩

/-- The number of rows as a quotient that is rounded up. -/
theorem ceil_eq_rowsOf [Field K] [LinearOrder K] [IsStrictOrderedRing K] [FloorRing K] {n m : ℕ}
    (hn : 0 < n) (hm : 0 < m) : ⌈(n / m : K)⌉ = rowsOf n m := by
  have hpos : (0 : K) < m := Nat.cast_pos.mpr hm
  have hlt : (n - 1) / m * m < n := by
    have hle := Nat.div_mul_le_self (n - 1) m
    omega
  have hle : n ≤ rowsOf n m * m := by
    have hmod := Nat.lt_div_mul_add hm (a := n - 1)
    rw [rowsOf, Nat.add_one_mul]
    omega
  rw [Int.ceil_eq_iff]
  constructor
  · rw [lt_div_iff₀ hpos, rowsOf]
    push_cast
    rw [add_sub_cancel_right]
    exact_mod_cast hlt
  · rw [div_le_iff₀ hpos]
    exact_mod_cast hle

namespace Grid

variable [Field K] [LinearOrder K]

/-- The cell of an item, with `c` items in a row. -/
def item (g : Grid K) (c i : ℕ) : Rect K := g.cell (rowMajor c i).1 (rowMajor c i).2

variable [IsStrictOrderedRing K] (g : Grid K)

theorem item_disjoint {c i j : ℕ} (h : i ≠ j) : (g.item c i).Disjoint (g.item c j) := by
  refine g.cell_disjoint ?_
  rw [← not_and_or, ← Prod.ext_iff, rowMajor_inj]
  exact h

theorem item_within {n c i : ℕ} (hc : 0 < c) (h : i < n) :
    (g.item c i).Within (g.box (rowsOf n c) (min n c)) :=
  g.cell_within (row_lt h) (col_lt hc h)

/-- The items have as many different upper edges as there are rows. -/
theorem card_tops {n c : ℕ} (hn : 0 < n) (hc : 0 < c) :
    ((Finset.range n).image fun i => (g.item c i).top).card = rowsOf n c := by
  have htops : ((Finset.range n).image fun i => (g.item c i).top)
      = ((Finset.range n).image (· / c)).image fun row => (g.cell row 0).top := by
    rw [Finset.image_image]
    rfl
  have hinj : Function.Injective fun row => (g.cell row 0).top := fun _ _ h => g.cell_top_inj.mp h
  rw [htops, Finset.card_image_of_injective _ hinj, image_rows hn hc, Finset.card_range]

end Grid

end ChewingTsf
