import Mathlib.Data.Rat.Floor
import ChewingTsf.Core.Ipc
import ChewingTsf.Host.Color
import ChewingTsf.Lib.Grid
import ChewingTsf.Lib.Utf16

/-!
# Measuring and painting the candidate window
(crates/chewing_tip_host/src/ui_elements/candidate_list.rs)

`calculate_client_rect` sizes the window from the widest item and the number of rows and
columns; `on_paint` places the items with a running column. Both speak of the same grid
(`paintsGrid`): the loop of `on_paint` visits the cells of the grid row by row
(`paintItems_eq`), and its rows and columns are those that were measured.

Lengths are exact numbers here, not `f32`s, so the grid is that of the window up to rounding.
What DirectWrite does is a parameter. The calls
that set up and present the buffer are left out.
-/

namespace ChewingTsf

/-- `f32::MAX`. -/
def F32_MAX : ℚ := 340282346638528859811704183484516925440

/-- `f32::clamp`. -/
def clampF32 (x min max : ℚ) : ℚ := if x < min then min else if max < x then max else x

/-! ## The model of the window -/

/-- `CandidateListModel`. Its items are those of a vector, which has fewer than 2^63. -/
structure CandidateListModel where
  items : List Str
  selkeys : List UInt16
  totalPage : UInt32
  currentPage : UInt32
  fontFamily : Wide
  fontSize : ℚ
  candPerRow : UInt32
  useCursor : Bool
  currentSel : Nat
  selkeyColor : D2D1ColorF
  fgColor : D2D1ColorF
  bgColor : D2D1ColorF
  highlightFgColor : D2D1ColorF
  highlightBgColor : D2D1ColorF
  borderColor : D2D1ColorF
  length_items : items.length < 0x8000000000000000

/-- The model that `MainLoop::process` makes of a `ShowCandidateList`. -/
def CandidateListModel.ofParams (params : ShowCandidateList)
    (h : params.items.length < 0x8000000000000000) : CandidateListModel where
  items := params.items
  selkeys := params.selkeys
  totalPage := params.totalPage
  currentPage := params.currentPage
  fontFamily := utf16 params.fontFamily
  fontSize := params.fontSize
  candPerRow := params.candPerRow
  useCursor := params.useCursor
  currentSel := params.currentSel
  selkeyColor := colorS params.selkeyColor
  fgColor := colorS params.fgColor
  bgColor := colorS params.bgColor
  highlightFgColor := colorS params.highlightFgColor
  highlightBgColor := colorS params.highlightBgColor
  borderColor := colorS params.borderColor
  length_items := h

/-! ## DirectWrite -/

/-- An `IDWriteTextFormat`: the arguments it was created with. -/
structure TextFormat where
  fontFamily : Wide
  fontSize : ℚ
  deriving DecidableEq

/-- `DWRITE_TEXT_METRICS`, as far as it is read: extents of a text. -/
structure TextMetrics where
  width : ℚ
  widthIncludingTrailingWhitespace : ℚ
  height : ℚ
  width_nonneg : 0 ≤ width
  trailing_nonneg : 0 ≤ widthIncludingTrailingWhitespace
  height_nonneg : 0 ≤ height

/-- An `IDWriteFactory1`; `none` where it fails. -/
structure DWriteFactory where
  createTextFormat : Wide → ℚ → Option TextFormat
  /-- `CreateTextLayout` and `GetMetrics` -/
  getMetrics : Wide → TextFormat → Option TextMetrics

/-! ## Measuring -/

def ROW_SPACING : ℚ := 4
def COL_SPACING : ℚ := 8

/-- `margin`, the same number in both functions. -/
def margin : ℚ := 10

/-- The two text formats that both functions create. -/
def createFormats (dwriteFactory : DWriteFactory) (model : CandidateListModel) :
    Option (TextFormat × TextFormat) := do
  let textFormat ← dwriteFactory.createTextFormat model.fontFamily model.fontSize
  let pageNumberFormat ← dwriteFactory.createTextFormat model.fontFamily
    (clampF32 (model.fontSize / 1.5) 0 F32_MAX)
  return (textFormat, pageNumberFormat)

/-- `format!("{} / {}", model.current_page, model.total_page)`. -/
def CandidateListModel.pageNumber (model : CandidateListModel) : Wide :=
  utf16 (Nat.toDigits 10 model.currentPage.toNat ++ " / ".toList
    ++ Nat.toDigits 10 model.totalPage.toNat)

/-- A selection key and a full stop. -/
def selkeyText (key : UInt16) : Wide := [key, 0x2E]

/-- The widest key, the widest item and the highest of both. -/
structure ItemSize where
  selkeyWidth : ℚ
  textWidth : ℚ
  itemHeight : ℚ
  deriving DecidableEq

/-- One pass of the loop over the keys and the items. -/
def measureItem (dwriteFactory : DWriteFactory) (textFormat : TextFormat) (size : ItemSize)
    (item : UInt16 × Str) : Option ItemSize := do
  let selkeyMetrics ← dwriteFactory.getMetrics (selkeyText item.1) textFormat
  let itemMetrics ← dwriteFactory.getMetrics (utf16 item.2) textFormat
  return {
    selkeyWidth := max size.selkeyWidth selkeyMetrics.widthIncludingTrailingWhitespace
    textWidth := max size.textWidth itemMetrics.widthIncludingTrailingWhitespace
    itemHeight := max (max size.itemHeight itemMetrics.height) selkeyMetrics.height }

def measureItems (dwriteFactory : DWriteFactory) (textFormat : TextFormat)
    (model : CandidateListModel) : Option ItemSize := do
  let size ← (model.selkeys.zip model.items).foldlM (measureItem dwriteFactory textFormat) ⟨0, 0, 0⟩
  return { size with selkeyWidth := size.selkeyWidth + 1 }

/-- `RenderedMetrics`. -/
structure RenderedMetrics where
  width : ℚ
  height : ℚ
  hwWidth : ℚ
  hwHeight : ℚ
  selkeyWidth : ℚ
  textWidth : ℚ
  itemHeight : ℚ
  deriving DecidableEq

/-- `cand_per_row` of `calculate_client_rect`. -/
def CandidateListModel.columns (model : CandidateListModel) : ℚ :=
  clampF32 (min model.items.length model.candPerRow.toNat) 1 F32_MAX

/-- `rows` of `calculate_client_rect`. -/
def CandidateListModel.rows (model : CandidateListModel) : ℚ :=
  ⌈clampF32 (model.items.length / model.columns) 1 F32_MAX⌉

/-- The sizes that `calculate_client_rect` computes once everything is measured. -/
def renderedMetrics (model : CandidateListModel) (size : ItemSize) (metrics : TextMetrics)
    (scale : ℚ) : RenderedMetrics :=
  let width := model.columns * (size.selkeyWidth + size.textWidth)
    + (model.columns - 1) * COL_SPACING + 2 * margin
  let height := model.rows * size.itemHeight + (model.rows - 1) * ROW_SPACING + 2 * margin
  let windowWidth := max width (metrics.width + margin)
  let windowHeight := height + metrics.height + margin + 2
  { width := width
    height := height
    hwWidth := ⌈windowWidth * scale + 25⌉
    hwHeight := ⌈windowHeight * scale + 25⌉
    selkeyWidth := size.selkeyWidth
    textWidth := size.textWidth
    itemHeight := size.itemHeight }

/-- `RenderedView::calculate_client_rect`. -/
def calculateClientRect (dwriteFactory : DWriteFactory) (model : CandidateListModel) (dpi : ℚ) :
    Option RenderedMetrics := do
  let scale := dpi / 96
  let (textFormat, pageNumberFormat) ← createFormats dwriteFactory model
  let size ← measureItems dwriteFactory textFormat model
  let metrics ← dwriteFactory.getMetrics model.pageNumber pageNumberFormat
  return renderedMetrics model size metrics scale

/-! ## Painting -/

/-- What is drawn, with which colour. -/
inductive DrawCommand where
  | messageBox (left top width height : ℚ) (bgColor borderColor : D2D1ColorF)
  | drawText (text : Wide) (format : TextFormat) (rect : Rect ℚ) (brush : D2D1ColorF)
  | fillRectangle (rect : Rect ℚ) (brush : D2D1ColorF)

/-- Where the loop of `on_paint` is. The column never exceeds `cand_per_row`, so it does not
overflow. -/
structure PaintCursor where
  col : Nat
  x : ℚ
  y : ℚ

/-- An item as it is painted: the rectangle of the key and the item, that of the item alone,
and what is drawn. -/
structure PaintedItem where
  rect : Rect ℚ
  textRect : Rect ℚ
  commands : List DrawCommand

/-- What is drawn of item `i`. -/
def paintItem (model : CandidateListModel) (rm : RenderedMetrics) (textFormat : TextFormat)
    (i : Nat) (cursor : PaintCursor) : PaintedItem :=
  let rect : Rect ℚ :=
    { left := cursor.x
      top := cursor.y
      right := cursor.x + rm.selkeyWidth + rm.textWidth
      bottom := cursor.y + rm.itemHeight }
  let selkey := selkeyText (model.selkeys[min i 9]?.getD 0x3F)
  let left := rect.left + rm.selkeyWidth
  let textRect := { rect with left := left, right := left + rm.textWidth }
  let text : List DrawCommand := match model.items[i]? with
    | none => []
    | some item =>
      if model.useCursor && i == model.currentSel then
        [.fillRectangle textRect model.highlightBgColor,
          .drawText (utf16 item) textFormat textRect model.highlightFgColor]
      else [.drawText (utf16 item) textFormat textRect model.fgColor]
  { rect := rect
    textRect := textRect
    commands := .drawText selkey textFormat rect model.selkeyColor :: text }

/-- The cursor moves on to the next item. -/
def PaintCursor.next (model : CandidateListModel) (rm : RenderedMetrics) (cursor : PaintCursor) :
    PaintCursor :=
  if cursor.col + 1 ≥ model.candPerRow.toNat then
    { col := 0, x := margin, y := cursor.y + (rm.itemHeight + ROW_SPACING) }
  else
    { cursor with
      col := cursor.col + 1
      x := cursor.x + (rm.selkeyWidth + rm.textWidth + COL_SPACING) }

/-- The loop of `on_paint`, over the items that are left. -/
def paintItems (model : CandidateListModel) (rm : RenderedMetrics) (textFormat : TextFormat) :
    List Nat → PaintCursor → List PaintedItem
  | [], _ => []
  | i :: rest, cursor =>
    paintItem model rm textFormat i cursor ::
      paintItems model rm textFormat rest (cursor.next model rm)

/-- `RenderedView::on_paint`, with the DPI of the window. -/
def onPaint (dwriteFactory : DWriteFactory) (model : CandidateListModel) (dpi : ℚ) :
    Option (List DrawCommand) :=
  if model.items.isEmpty then some []
  else do
    let (textFormat, pageNumberFormat) ← createFormats dwriteFactory model
    let rm ← calculateClientRect dwriteFactory model dpi
    let metrics ← dwriteFactory.getMetrics model.pageNumber pageNumberFormat
    let left := rm.width - metrics.width
    let boxes : List DrawCommand :=
      [.messageBox 0 0 rm.width rm.height model.bgColor model.borderColor,
        .messageBox (left - margin) (rm.height + 2) (metrics.width + margin)
          (metrics.height + margin) model.bgColor model.borderColor,
        .drawText model.pageNumber pageNumberFormat
          { left := left - margin / 2, top := rm.height + 2 + margin / 2
            right := F32_MAX, bottom := F32_MAX } model.fgColor]
    let items := paintItems model rm textFormat (List.range model.items.length) ⟨0, margin, margin⟩
    return boxes ++ items.flatMap (·.commands)

/-! ## What was measured -/

/-- Widths and heights are not negative. -/
structure ItemSize.Nonneg (size : ItemSize) : Prop where
  selkeyWidth : 0 ≤ size.selkeyWidth
  textWidth : 0 ≤ size.textWidth
  itemHeight : 0 ≤ size.itemHeight

theorem clampF32_of_mem {x min max : ℚ} (hmin : min ≤ x) (hmax : x ≤ max) :
    clampF32 x min max = x := by
  rw [clampF32, if_neg (not_lt.mpr hmin), if_neg (not_lt.mpr hmax)]

theorem one_le_clampF32 (x : ℚ) : 1 ≤ clampF32 x 1 F32_MAX := by
  unfold clampF32
  split
  · exact le_rfl
  next hmin =>
    split
    · norm_num [F32_MAX]
    · exact not_lt.mp hmin

/-- A count of items or columns is far from the upper bound. -/
theorem natCast_le_F32_MAX {n : Nat} (h : n < 0x8000000000000000) : (n : ℚ) ≤ F32_MAX := by
  have hcast : (n : ℚ) ≤ (0x8000000000000000 : ℕ) := Nat.cast_le.mpr h.le
  exact hcast.trans (by norm_num [F32_MAX])

theorem clampF32_natCast {n : Nat} (h : n < 0x8000000000000000) :
    clampF32 n 1 F32_MAX = (max 1 n : ℕ) := by
  rcases Nat.eq_zero_or_pos n with rfl | hpos
  · rw [clampF32, if_pos (by norm_num)]
    rfl
  · have hone : (1 : ℚ) ≤ n := Nat.one_le_cast.mpr hpos
    rw [clampF32_of_mem hone (natCast_le_F32_MAX h), Nat.max_eq_right hpos]

namespace CandidateListModel

variable {model : CandidateListModel}

/-- The items in a row of `on_paint`: one if `cand_per_row` is 0. -/
def perRow (model : CandidateListModel) : Nat := max 1 model.candPerRow.toNat

theorem perRow_pos (model : CandidateListModel) : 0 < model.perRow := Nat.le_max_left ..

/-- The columns that are measured are those that are used. -/
theorem columns_eq (h : model.items ≠ []) :
    model.columns = (min model.items.length model.perRow : ℕ) := by
  have hpos : 0 < model.items.length := List.length_pos_iff.mpr h
  have hlt : min model.items.length model.candPerRow.toNat < 0x8000000000000000 :=
    (Nat.min_le_left ..).trans_lt model.length_items
  unfold columns
  rw [← Nat.cast_min, clampF32_natCast hlt, perRow]
  congr 1
  omega

/-- And so are the rows. -/
theorem rows_eq (h : model.items ≠ []) :
    model.rows = rowsOf model.items.length model.perRow := by
  have hpos : 0 < model.items.length := List.length_pos_iff.mpr h
  have hcols : 0 < min model.items.length model.perRow := lt_min hpos model.perRow_pos
  have hcast : (0 : ℚ) < (min model.items.length model.perRow : ℕ) := Nat.cast_pos.mpr hcols
  have hone : (1 : ℚ) ≤ model.items.length / (min model.items.length model.perRow : ℕ) := by
    rw [one_le_div hcast]
    exact Nat.cast_le.mpr (Nat.min_le_left ..)
  have hmax : (model.items.length : ℚ) / (min model.items.length model.perRow : ℕ) ≤ F32_MAX :=
    (div_le_self (Nat.cast_nonneg _) (Nat.one_le_cast.mpr hcols)).trans
      (natCast_le_F32_MAX model.length_items)
  unfold rows
  rw [columns_eq h, clampF32_of_mem hone hmax, ceil_eq_rowsOf hpos hcols, rowsOf_min]
  exact Int.cast_natCast _

end CandidateListModel

/-! ## The grid -/

/-- The cell of an item in a row and a column. -/
def RenderedMetrics.cellRect (rm : RenderedMetrics) (row col : Nat) : Rect ℚ where
  left := margin + col * (rm.selkeyWidth + rm.textWidth + COL_SPACING)
  top := margin + row * (rm.itemHeight + ROW_SPACING)
  right := margin + col * (rm.selkeyWidth + rm.textWidth + COL_SPACING)
    + (rm.selkeyWidth + rm.textWidth)
  bottom := margin + row * (rm.itemHeight + ROW_SPACING) + rm.itemHeight

/-- What is painted is the grid that was measured. -/
structure PaintsGrid (model : CandidateListModel) (rm : RenderedMetrics)
    (painted : List PaintedItem) : Prop where
  length : painted.length = model.items.length
  position : ∀ i < model.items.length,
    painted[i]?.map (·.rect) = some (rm.cellRect (i / model.perRow) (i % model.perRow))
  disjoint : painted.Pairwise fun p q => p.rect.Disjoint q.rect
  within : ∀ p ∈ painted,
    p.rect.Within ⟨margin, margin, rm.width - margin, rm.height - margin⟩
  text : ∀ p ∈ painted, p.textRect.Within p.rect
  rows : ((painted.map (·.rect.top)).toFinset.card : ℚ) = model.rows

section

variable (model : CandidateListModel) (rm : RenderedMetrics) (textFormat : TextFormat)

/-- Where the loop is when it comes to item `i`. -/
def cursorAt (i : Nat) : PaintCursor where
  col := i % model.perRow
  x := (rm.cellRect (i / model.perRow) (i % model.perRow)).left
  y := (rm.cellRect (i / model.perRow) (i % model.perRow)).top

theorem cursorAt_zero : cursorAt model rm 0 = ⟨0, margin, margin⟩ := by
  simp [cursorAt, RenderedMetrics.cellRect]

/-- **One step** of the loop goes to the next cell. -/
theorem next_cursorAt (i : Nat) :
    (cursorAt model rm i).next model rm = cursorAt model rm (i + 1) := by
  have hsucc := rowMajor_succ model.perRow_pos i
  have hwrap : (cursorAt model rm i).col + 1 ≥ model.candPerRow.toNat ↔
      model.perRow ≤ i % model.perRow + 1 := by
    show i % model.perRow + 1 ≥ model.candPerRow.toNat ↔ _
    rw [CandidateListModel.perRow]
    omega
  unfold PaintCursor.next
  by_cases hlast : model.perRow ≤ i % model.perRow + 1
  · rw [if_pos hlast] at hsucc
    obtain ⟨hdiv, hmod⟩ := Prod.mk.inj hsucc
    rw [if_pos (hwrap.mpr hlast)]
    simp only [cursorAt, RenderedMetrics.cellRect, hdiv, hmod]
    push_cast
    congr 1
    · ring
    · ring
  · rw [if_neg hlast] at hsucc
    obtain ⟨hdiv, hmod⟩ := Prod.mk.inj hsucc
    rw [if_neg (mt hwrap.mp hlast)]
    simp only [cursorAt, RenderedMetrics.cellRect, hdiv, hmod]
    push_cast
    congr 1
    ring

/-- The loop visits the cells of the items, one after the other. -/
theorem paintItems_eq (i n : Nat) :
    paintItems model rm textFormat (List.range' i n) (cursorAt model rm i) =
      (List.range' i n).map fun j => paintItem model rm textFormat j (cursorAt model rm j) := by
  induction n generalizing i with
  | zero => rfl
  | succ n ih =>
    rw [List.range'_succ, paintItems, next_cursorAt, ih, List.map_cons]

/-- An item is painted in its cell. -/
theorem paintItem_rect (i : Nat) :
    (paintItem model rm textFormat i (cursorAt model rm i)).rect
      = rm.cellRect (i / model.perRow) (i % model.perRow) := by
  simp only [paintItem, cursorAt, RenderedMetrics.cellRect, add_assoc]

end

/-- The item lies in the rectangle of the key and the item. -/
theorem paintItem_text {rm : RenderedMetrics} (h : 0 ≤ rm.selkeyWidth) (model : CandidateListModel)
    (textFormat : TextFormat) (i : Nat) (cursor : PaintCursor) :
    (paintItem model rm textFormat i cursor).textRect.Within
      (paintItem model rm textFormat i cursor).rect where
  left := le_add_of_nonneg_right h
  top := le_rfl
  right := le_rfl
  bottom := le_rfl

/-- The grid that the sizes of the items make. -/
def ItemSize.grid (size : ItemSize) (h : size.Nonneg) : Grid ℚ where
  left := margin
  top := margin
  cellWidth := size.selkeyWidth + size.textWidth
  cellHeight := size.itemHeight
  colGap := COL_SPACING
  rowGap := ROW_SPACING
  cellWidth_nonneg := add_nonneg h.selkeyWidth h.textWidth
  cellHeight_nonneg := h.itemHeight
  colGap_pos := by norm_num [COL_SPACING]
  rowGap_pos := by norm_num [ROW_SPACING]

section

variable {model : CandidateListModel} {size : ItemSize}

/-- A cell is an item of the grid. -/
theorem cellRect_eq (h : size.Nonneg) (metrics : TextMetrics) (scale : ℚ) (i : Nat) :
    (renderedMetrics model size metrics scale).cellRect (i / model.perRow) (i % model.perRow)
      = (size.grid h).item model.perRow i := rfl

/-- The box of the rows and columns that are used is the window within its margin. -/
theorem box_eq (hitems : model.items ≠ []) (h : size.Nonneg) (metrics : TextMetrics)
    (scale : ℚ) :
    (size.grid h).box (rowsOf model.items.length model.perRow)
        (min model.items.length model.perRow)
      = ⟨margin, margin, (renderedMetrics model size metrics scale).width - margin,
          (renderedMetrics model size metrics scale).height - margin⟩ := by
  have hcols := CandidateListModel.columns_eq hitems
  have hrows := CandidateListModel.rows_eq hitems
  simp only [Grid.box, ItemSize.grid, renderedMetrics, hcols, hrows]
  congr 1
  · ring
  · ring

/-- **The window is measured and painted with the same grid**, whatever the sizes of the
items. -/
theorem paintsGrid (hitems : model.items ≠ []) (hsize : size.Nonneg) (metrics : TextMetrics)
    (scale : ℚ) (textFormat : TextFormat) :
    PaintsGrid model (renderedMetrics model size metrics scale)
      (paintItems model (renderedMetrics model size metrics scale) textFormat
        (List.range model.items.length) ⟨0, margin, margin⟩) := by
  have hpos : 0 < model.items.length := List.length_pos_iff.mpr hitems
  have hpainted := paintItems_eq model (renderedMetrics model size metrics scale) textFormat 0
    model.items.length
  rw [cursorAt_zero, ← List.range_eq_range'] at hpainted
  rw [hpainted]
  have hrect (i : Nat) : (paintItem model (renderedMetrics model size metrics scale) textFormat i
      (cursorAt model _ i)).rect = (size.grid hsize).item model.perRow i :=
    (paintItem_rect model _ textFormat i).trans (cellRect_eq hsize metrics scale i)
  constructor
  · rw [List.length_map, List.length_range]
  · intro i hi
    rw [List.getElem?_map, List.getElem?_range hi, Option.map_some, Option.map_some]
    exact congrArg some (paintItem_rect model _ textFormat i)
  · rw [List.pairwise_map]
    refine List.pairwise_lt_range.imp fun {i j} hij => ?_
    rw [hrect, hrect]
    exact (size.grid hsize).item_disjoint hij.ne
  · intro p hp
    obtain ⟨i, hi, rfl⟩ := List.mem_map.mp hp
    rw [hrect, ← box_eq hitems hsize]
    exact (size.grid hsize).item_within model.perRow_pos (List.mem_range.mp hi)
  · intro p hp
    obtain ⟨i, hi, rfl⟩ := List.mem_map.mp hp
    exact paintItem_text hsize.selkeyWidth model textFormat i _
  · have htops : (((List.range model.items.length).map fun i =>
        paintItem model (renderedMetrics model size metrics scale) textFormat i
          (cursorAt model (renderedMetrics model size metrics scale) i)).map
            (·.rect.top)).toFinset
        = (Finset.range model.items.length).image
          fun i => ((size.grid hsize).item model.perRow i).top := by
      ext y
      simp [hrect]
    rw [htops, (size.grid hsize).card_tops hpos model.perRow_pos,
      CandidateListModel.rows_eq hitems]

end

/-- Three candidates in rows of two. -/
def threeCandidates : CandidateListModel :=
  .ofParams { ShowCandidateList.default with
    items := ["策".toList, "冊".toList, "側".toList]
    selkeys := [0x31, 0x32, 0x33]
    candPerRow := 2 } (by decide)

/-- A page number of 40 by 16. -/
def pageMetrics : TextMetrics :=
  ⟨40, 40, 16, Nat.ofNat_nonneg 40, Nat.ofNat_nonneg 40, Nat.ofNat_nonneg 16⟩

/-- The second row has one item. -/
theorem paintsGrid_ragged :
    PaintsGrid threeCandidates (renderedMetrics threeCandidates ⟨17, 20, 24⟩ pageMetrics 1)
      (paintItems threeCandidates (renderedMetrics threeCandidates ⟨17, 20, 24⟩ pageMetrics 1)
        ⟨[], 20⟩ (List.range 3) ⟨0, margin, margin⟩) :=
  paintsGrid (by decide) ⟨by norm_num, by norm_num, by norm_num⟩ _ _ _

/-! ## The two functions -/

section

variable {dwriteFactory : DWriteFactory} {model : CandidateListModel} {dpi : ℚ}

theorem measureItem_nonneg {textFormat : TextFormat} {size size' : ItemSize} {item : UInt16 × Str}
    (h : size.Nonneg) (hsize : measureItem dwriteFactory textFormat size item = some size') :
    size'.Nonneg := by
  simp only [measureItem, Option.bind_eq_bind, Option.bind_eq_some_iff] at hsize
  obtain ⟨selkeyMetrics, -, itemMetrics, -, hsize⟩ := hsize
  obtain rfl := Option.some.inj hsize
  exact ⟨le_max_of_le_left h.selkeyWidth, le_max_of_le_left h.textWidth,
    le_max_of_le_left (le_max_of_le_left h.itemHeight)⟩

theorem foldlM_measureItem_nonneg {textFormat : TextFormat} {size size' : ItemSize}
    {items : List (UInt16 × Str)} (h : size.Nonneg)
    (hsize : items.foldlM (measureItem dwriteFactory textFormat) size = some size') :
    size'.Nonneg := by
  induction items generalizing size with
  | nil =>
    obtain rfl := Option.some.inj hsize
    exact h
  | cons item items ih =>
    rw [List.foldlM_cons, Option.bind_eq_bind, Option.bind_eq_some_iff] at hsize
    obtain ⟨next, hnext, hrest⟩ := hsize
    exact ih (measureItem_nonneg h hnext) hrest

theorem measureItems_nonneg {textFormat : TextFormat} {size : ItemSize}
    (h : measureItems dwriteFactory textFormat model = some size) : size.Nonneg := by
  simp only [measureItems, Option.bind_eq_bind, Option.bind_eq_some_iff] at h
  obtain ⟨widest, hwidest, hsize⟩ := h
  obtain rfl := Option.some.inj hsize
  have hzero : (⟨0, 0, 0⟩ : ItemSize).Nonneg := ⟨le_rfl, le_rfl, le_rfl⟩
  have hnonneg := foldlM_measureItem_nonneg hzero hwidest
  exact ⟨add_nonneg hnonneg.selkeyWidth zero_le_one, hnonneg.textWidth, hnonneg.itemHeight⟩

/-- The window has a size of at least 25 pixels. -/
theorem renderedMetrics_hw {size : ItemSize} (h : size.Nonneg) (model : CandidateListModel)
    (metrics : TextMetrics) {scale : ℚ} (hscale : 0 ≤ scale) :
    25 ≤ (renderedMetrics model size metrics scale).hwWidth ∧
      25 ≤ (renderedMetrics model size metrics scale).hwHeight := by
  have hround (x : ℚ) (hx : 0 ≤ x) : (25 : ℚ) ≤ ⌈x * scale + 25⌉ :=
    (le_add_of_nonneg_left (mul_nonneg hx hscale)).trans (Int.le_ceil _)
  have hrows : 1 ≤ model.rows := by
    have hceil : (1 : ℤ) ≤ ⌈clampF32 (model.items.length / model.columns) 1 F32_MAX⌉ :=
      Int.one_le_ceil_iff.mpr (zero_lt_one.trans_le (one_le_clampF32 _))
    unfold CandidateListModel.rows
    exact_mod_cast hceil
  have hmargin : (0 : ℚ) ≤ margin := by norm_num [margin]
  have hitems : 0 ≤ model.rows * size.itemHeight :=
    mul_nonneg (zero_le_one.trans hrows) h.itemHeight
  have hspacing : 0 ≤ (model.rows - 1) * ROW_SPACING :=
    mul_nonneg (sub_nonneg.mpr hrows) (by norm_num [ROW_SPACING])
  constructor
  · exact hround _ (le_max_of_le_right (add_nonneg metrics.width_nonneg hmargin))
  · refine hround _ ?_
    have hheight := metrics.height_nonneg
    linarith

/-- What `calculate_client_rect` returns. -/
theorem calculateClientRect_eq_some {rm : RenderedMetrics}
    (h : calculateClientRect dwriteFactory model dpi = some rm) :
    ∃ (size : ItemSize) (metrics : TextMetrics), size.Nonneg ∧
      rm = renderedMetrics model size metrics (dpi / 96) := by
  simp only [calculateClientRect, Option.bind_eq_bind, Option.bind_eq_some_iff] at h
  obtain ⟨formats, -, size, hsize, metrics, -, hrm⟩ := h
  exact ⟨size, metrics, measureItems_nonneg hsize, (Option.some.inj hrm).symm⟩

/-- `on_paint` paints the items of the list where `calculate_client_rect` says. -/
theorem onPaint_eq_some {commands : List DrawCommand} (hitems : model.items ≠ [])
    (h : onPaint dwriteFactory model dpi = some commands) :
    ∃ (rm : RenderedMetrics) (textFormat : TextFormat) (boxes : List DrawCommand),
      calculateClientRect dwriteFactory model dpi = some rm ∧
      commands = boxes ++
        (paintItems model rm textFormat (List.range model.items.length)
          ⟨0, margin, margin⟩).flatMap (·.commands) := by
  have hne : ¬ model.items.isEmpty = true := by simpa using hitems
  simp only [onPaint, if_neg hne, Option.bind_eq_bind, Option.bind_eq_some_iff] at h
  obtain ⟨formats, -, rm, hrm, metrics, -, hcommands⟩ := h
  exact ⟨rm, formats.1, _, hrm, (Option.some.inj hcommands).symm⟩

end

end ChewingTsf
