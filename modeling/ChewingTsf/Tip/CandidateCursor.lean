import ChewingTsf.Lib.Run
import ChewingTsf.Tip.KeyDown

/-!
# The cursor in the candidate list (tip/src/text_service/ui_elements/candidate_list.rs)

`update_candidates` hands the list one page after the other, with the cursor on the
first item. The arrow keys move the cursor: over the rows and columns of the grid that
the host draws, and from item to item when the application draws the list itself
(`uiless`). No move leaves the page, whatever `cand_per_row` is, because a subtraction is
guarded or saturates and an addition is guarded or clamped; so the cursor is on the page
after any sequence of pages, keys and changes of the mode (`CandidateList.OnPage`).
-/

namespace ChewingTsf

namespace CandidateList

/-- `set_model`. -/
def setModel (model : ShowCandidateList) (l : CandidateList) : CandidateList :=
  { l with model := model }

/-- `ITfUIElement::Show`. -/
def showUiElement (shown : Bool) (l : CandidateList) : CandidateList :=
  { l with uiless := !shown }

/-- `current_sel`. -/
def currentSel (l : CandidateList) : Nat := l.model.currentSel

/-- `current_phrase`: `none` if the index is out of bounds (it panics). -/
def currentPhrase (l : CandidateList) : Option Str := l.model.items[l.currentSel]?

/-- `GetSelection`. -/
def getSelection (l : CandidateList) : UInt32 := l.model.currentSel.toUInt32

/-- `GetString`: `none` for `E_INVALIDARG`. -/
def getString (uindex : UInt32) (l : CandidateList) : Option Str := l.model.items[uindex.toNat]?

end CandidateList

/-- A call of the candidate list. -/
inductive CandidateList.Call where
  | setModel (model : ShowCandidateList)
  | showUiElement (shown : Bool)
  | filterKeyEvent (ksym : Keysym)

/-- What `update_candidates` sends for a page that is not empty. -/
structure ShowCandidateList.Page (model : ShowCandidateList) : Prop where
  items : model.items ≠ []
  currentSel : model.currentSel = 0

namespace CandidateList.Call

/-- The models come from `update_candidates`. -/
def Sent : CandidateList.Call → Prop
  | setModel model => model.Page
  | _ => True

variable [KeyTables]

/-- The list after a call. -/
def next (l : CandidateList) : CandidateList.Call → CandidateList
  | setModel model => l.setModel model
  | showUiElement shown => l.showUiElement shown
  | filterKeyEvent ksym => (l.filterKeyEvent ksym).2

end CandidateList.Call

section Cursor

variable [KeyTables]

/-- A call is made. -/
def CandidateList.Step (l : CandidateList) (c : CandidateList.Call) (l' : CandidateList) : Prop :=
  c.Sent ∧ l' = c.next l

namespace CandidateList

open KeyTables

variable {l : CandidateList}

/-! ## The cursor stays on the page -/

omit [KeyTables] in
/-- The cursor is on an item. -/
def OnPage (l : CandidateList) : Prop := l.model.currentSel < l.model.items.length

omit [KeyTables] in
theorem lastItem_of_onPage (h : l.OnPage) : l.lastItem = l.model.items.length - 1 := by
  have hne : l.model.items ≠ [] := List.ne_nil_of_length_pos (Nat.zero_lt_of_lt h)
  rw [lastItem, if_neg hne]

omit [KeyTables] in
/-- One item forward, or not at all at the end of the page. -/
theorem clamped_of_onPage (h : l.OnPage) :
    min (l.model.currentSel + 1) l.lastItem = l.model.currentSel + 1 ∨
      min (l.model.currentSel + 1) l.lastItem = l.model.currentSel := by
  have hlt : l.model.currentSel < l.model.items.length := h
  rw [lastItem_of_onPage h]
  omega

theorem moved_lt (ksym : Keysym) (h : l.OnPage) : l.moved ksym < l.model.items.length := by
  have hlt : l.model.currentSel < l.model.items.length := h
  have hlast : min (l.model.currentSel + 1) l.lastItem < l.model.items.length := by
    rw [lastItem_of_onPage h]
    omega
  unfold moved
  dsimp only
  split_ifs
  all_goals omega

omit [KeyTables] in
/-- A page puts the cursor on its first item. -/
theorem onPage_setModel {model : ShowCandidateList} (h : model.Page) (l : CandidateList) :
    (l.setModel model).OnPage := by
  show model.currentSel < model.items.length
  rw [h.currentSel]
  exact List.length_pos_of_ne_nil h.items

/-- **One call** leaves the cursor on the page. -/
theorem onPage_step {l' : CandidateList} {c : CandidateList.Call} (h : l.OnPage)
    (hstep : CandidateList.Step l c l') : l'.OnPage := by
  obtain ⟨hsent, rfl⟩ := hstep
  cases c with
  | setModel model => exact onPage_setModel hsent l
  | showUiElement shown => exact h
  | filterKeyEvent ksym => exact moved_lt ksym h

/-- After the first page, the cursor is always on the page. -/
theorem onPage_run {l₀ : CandidateList} {model : ShowCandidateList} {cs : List CandidateList.Call}
    (hrun : Run CandidateList.Step l₀ (.setModel model :: cs) l) : l.OnPage := by
  obtain ⟨_, ⟨hpage, rfl⟩, hrest⟩ := hrun.of_cons
  exact hrest.invariant (onPage_setModel hpage l₀) onPage_step

omit [KeyTables] in
theorem currentPhrase_isSome (h : l.OnPage) : l.currentPhrase.isSome := by
  have hselected : l.currentSel < l.model.items.length := h
  rw [currentPhrase, List.getElem?_eq_getElem hselected]
  rfl

omit [KeyTables] in
/-- The selected index is the cursor's, on a page that 32 bits can count. -/
theorem getString_getSelection (h : l.OnPage) (hcount : l.model.items.length ≤ 0x100000000) :
    l.getString l.getSelection = l.currentPhrase := by
  have hlt : l.model.currentSel < 0x100000000 := Nat.lt_of_lt_of_le h hcount
  have hindex : l.getSelection.toNat = l.currentSel := Nat.mod_eq_of_lt hlt
  rw [getString, hindex]
  rfl

/-! ## What a key does -/

/-- The keys with an arrow. -/
def IsArrow (ksym : Keysym) : Prop :=
  ksym = symDown ∨ ksym = symRight ∨ ksym = symUp ∨ ksym = symLeft

theorem handled_iff (ksym : Keysym) (l : CandidateList) :
    (l.filterKeyEvent ksym).1 = .handled ↔
      (l.filterKeyEvent ksym).2.currentSel ≠ l.currentSel := by
  show (if l.moved ksym ≠ l.model.currentSel then FilterKeyResult.handled
    else if ksym = Keysyms.symReturn then .handledCommit else .notHandled) = .handled ↔
      l.moved ksym ≠ l.model.currentSel
  by_cases hmoved : l.moved ksym ≠ l.model.currentSel
  · rw [if_pos hmoved]
    exact iff_of_true rfl hmoved
  · rw [if_neg hmoved]
    refine iff_of_false ?_ hmoved
    split <;> nofun

theorem handledCommit_imp {ksym : Keysym} (h : (l.filterKeyEvent ksym).1 = .handledCommit) :
    ksym = Keysyms.symReturn := by
  by_contra hne
  unfold filterKeyEvent at h
  dsimp only at h
  rw [if_neg hne] at h
  split at h <;> cases h

/-- On the grid, Up goes a row back, or stays. -/
theorem moved_up (hgrid : l.uiless = false) :
    l.moved symUp + l.model.candPerRow.toNat = l.model.currentSel ∨
      l.moved symUp = l.model.currentSel := by
  rw [moved, hgrid, if_neg Bool.false_ne_true, if_pos rfl]
  split_ifs with hguard
  · exact .inl (Nat.sub_add_cancel hguard)
  · exact .inr rfl

/-- On the grid, Down goes a row on, or stays. -/
theorem moved_down (hkeys : symDown ≠ symUp) (hgrid : l.uiless = false) :
    l.moved symDown = l.model.currentSel + l.model.candPerRow.toNat ∨
      l.moved symDown = l.model.currentSel := by
  rw [moved, hgrid, if_neg Bool.false_ne_true, if_neg hkeys, if_pos rfl]
  split_ifs
  · exact .inl rfl
  · exact .inr rfl

/-- Up takes back a Down that moved. -/
theorem moved_up_down (hkeys : symDown ≠ symUp) (hgrid : l.uiless = false)
    (hmoved : l.moved symDown ≠ l.model.currentSel) :
    (l.filterKeyEvent symDown).2.moved symUp = l.model.currentSel := by
  have hdown : l.moved symDown = l.model.currentSel + l.model.candPerRow.toNat :=
    (moved_down hkeys hgrid).resolve_right hmoved
  have hguard : l.model.candPerRow.toNat ≤ (l.filterKeyEvent symDown).2.model.currentSel := by
    show l.model.candPerRow.toNat ≤ l.moved symDown
    rw [hdown]
    exact Nat.le_add_left _ _
  rw [moved, show (l.filterKeyEvent symDown).2.uiless = false from hgrid,
    if_neg Bool.false_ne_true, if_pos rfl]
  refine (if_pos hguard).trans ?_
  show l.moved symDown - l.model.candPerRow.toNat = l.model.currentSel
  rw [hdown, Nat.add_sub_cancel]

/-- Where the application draws the list, an arrow goes one item on or back, or stays. -/
theorem moved_uiless (h : l.OnPage) (huiless : l.uiless = true) (ksym : Keysym) :
    l.moved ksym = l.model.currentSel + 1 ∨ l.moved ksym + 1 = l.model.currentSel ∨
      l.moved ksym = l.model.currentSel := by
  rw [moved, huiless, if_pos rfl]
  split_ifs
  · exact (clamped_of_onPage h).imp_right .inr
  · omega
  · exact .inr (.inr rfl)

/-- What holds of the list at any time, and of the next key, whichever it is. -/
structure MovesOnGrid (l : CandidateList) : Prop where
  selected : l.currentSel < l.model.items.length
  phrase : l.currentPhrase.isSome
  selection : l.model.items.length ≤ 0x100000000 →
    l.getString l.getSelection = l.currentPhrase
  handled : ∀ ksym, (l.filterKeyEvent ksym).1 = .handled ↔
    (l.filterKeyEvent ksym).2.currentSel ≠ l.currentSel
  commit : ∀ ksym, (l.filterKeyEvent ksym).1 = .handledCommit → ksym = Keysyms.symReturn
  up : l.uiless = false →
    (l.filterKeyEvent symUp).2.currentSel + l.model.candPerRow.toNat = l.currentSel ∨
      (l.filterKeyEvent symUp).2.currentSel = l.currentSel
  down : l.uiless = false →
    (l.filterKeyEvent symDown).2.currentSel = l.currentSel + l.model.candPerRow.toNat ∨
      (l.filterKeyEvent symDown).2.currentSel = l.currentSel
  back : l.uiless = false → (l.filterKeyEvent symDown).2.currentSel ≠ l.currentSel →
    ((l.filterKeyEvent symDown).2.filterKeyEvent symUp).2.currentSel = l.currentSel
  uiless : l.uiless = true → ∀ ksym, IsArrow ksym →
    (l.filterKeyEvent ksym).2.currentSel = l.currentSel + 1 ∨
      (l.filterKeyEvent ksym).2.currentSel + 1 = l.currentSel ∨
      (l.filterKeyEvent ksym).2.currentSel = l.currentSel

/-- **The cursor stays on the page and moves on the grid**, after any pages, keys and
changes of the mode that follow a first page. -/
theorem movesOnGrid_run (hkeys : symDown ≠ symUp) {l₀ : CandidateList}
    {model : ShowCandidateList} {cs : List CandidateList.Call}
    (hrun : Run CandidateList.Step l₀ (.setModel model :: cs) l) : l.MovesOnGrid where
  selected := onPage_run hrun
  phrase := currentPhrase_isSome (onPage_run hrun)
  selection := getString_getSelection (onPage_run hrun)
  handled ksym := handled_iff ksym l
  commit _ := handledCommit_imp
  up := moved_up
  down := moved_down hkeys
  back := moved_up_down hkeys
  uiless huiless ksym _ := moved_uiless (onPage_run hrun) huiless ksym

end CandidateList

end Cursor

open ScriptedEditor

/-- Five items in rows of three. -/
def pageOfFive : ShowCandidateList :=
  { ShowCandidateList.default with
    items := ["一".toList, "二".toList, "三".toList, "四".toList, "五".toList]
    candPerRow := 3 }

/-- Right, then Down, and Right at the end of the second row, which is ragged; then the
application draws the list. -/
def raggedCalls : List CandidateList.Call :=
  [.filterKeyEvent KeyTables.symRight, .filterKeyEvent KeyTables.symDown,
    .filterKeyEvent KeyTables.symRight, .showUiElement false]

theorem CandidateList.movesOnGrid_ragged :
    (raggedCalls.foldl CandidateList.Call.next
      (setModel pageOfFive ⟨.default, false⟩)).MovesOnGrid := by
  have hrun : Run CandidateList.Step ⟨.default, false⟩ (.setModel pageOfFive :: raggedCalls)
      (raggedCalls.foldl CandidateList.Call.next (setModel pageOfFive ⟨.default, false⟩)) :=
    .head ⟨⟨List.cons_ne_nil _ _, rfl⟩, rfl⟩ <| .head ⟨trivial, rfl⟩ <| .head ⟨trivial, rfl⟩ <|
      .head ⟨trivial, rfl⟩ <| .single ⟨trivial, rfl⟩
  exact movesOnGrid_run (by decide) hrun

end ChewingTsf
