import ChewingTsf.Lib.Utf16

/-!
# The document, as TSF shows it to a text service

TSF is not part of the repository; this module fixes what the edit sessions rely
on. Positions and counts are UTF-16 code units, ranges have two anchors that
follow the text, at most one composition is active, and text inserted inside or
at the edge of its range belongs to it.

Two views abbreviate a document in proofs: `Shows c left body right` (composition
`c` is active and covers `body`) and `Idle left right` (no composition, caret
between `left` and `right`). Each call of an edit session is one lemma about
these views.
-/

namespace ChewingTsf

/-- The identity of an `ITfComposition`. -/
abbrev CompositionId := Nat

/-- A code unit and the display attribute on it (an index into `input_da_atom`). -/
structure TextUnit where
  unit : UInt16
  attr : Option Nat
  deriving DecidableEq

/-- The two anchors of an `ITfRange`. -/
structure TextRange where
  start : Nat
  stop : Nat
  deriving DecidableEq

namespace TextRange

/-- `Collapse(TF_ANCHOR_START)`. -/
def collapseStart (r : TextRange) : TextRange := ⟨r.start, r.start⟩

/-- `Collapse(TF_ANCHOR_END)`. -/
def collapseEnd (r : TextRange) : TextRange := ⟨r.stop, r.stop⟩

/-- `ShiftStart` by `n ≥ 0` units in a text of `len` units: a start anchor that
passes the end anchor takes it along. -/
def shiftStart (len n : Nat) (r : TextRange) : TextRange :=
  let s := min (r.start + n) len
  ⟨s, max s r.stop⟩

/-- `ShiftEnd` by `n ≥ 0` units. -/
def shiftEnd (len n : Nat) (r : TextRange) : TextRange := ⟨r.start, min (r.stop + n) len⟩

/-- Where the anchors of `q` are once the text of `r` is replaced by `n` units:
a start anchor stays before text inserted at it, an end anchor moves behind it. -/
def afterEdit (r : TextRange) (n : Nat) (q : TextRange) : TextRange where
  start :=
    if q.start ≤ r.start then q.start
    else if q.start < r.stop then r.start
    else q.start + n - (r.stop - r.start)
  stop :=
    if q.stop < r.start then q.stop
    else if q.stop < r.stop then r.start
    else q.stop + n - (r.stop - r.start)

end TextRange

/-- A document: its text, the caret and the active composition. -/
structure Document where
  text : List TextUnit
  selection : Nat
  composition : Option (CompositionId × TextRange)
  deriving DecidableEq

namespace Document

/-- The text without its attributes. -/
def units (d : Document) : Wide := d.text.map (·.unit)

/-- Replaces the text of `r`; the new text carries no attribute. -/
def replaceText (d : Document) (r : TextRange) (t : Wide) : Document where
  text := d.text.take r.start ++ t.map (⟨·, none⟩) ++ d.text.drop r.stop
  selection := (r.afterEdit t.length ⟨d.selection, d.selection⟩).stop
  composition := d.composition.map fun (c, q) => (c, r.afterEdit t.length q)

/-- `ITfProperty::SetValue` and `Clear` of `GUID_PROP_ATTRIBUTE` on a range. -/
def setAttr (d : Document) (r : TextRange) (a : Option Nat) : Document :=
  { d with text := d.text.mapIdx fun i u =>
      if r.start ≤ i ∧ i < r.stop then { u with attr := a } else u }

/-- `ITfComposition::GetRange`, which fails once the composition has ended. -/
def rangeOf (d : Document) (c : CompositionId) : Option TextRange :=
  match d.composition with
  | some (c', r) => if c' = c then some r else none
  | none => none

/-- `ITfContextComposition::StartComposition` at the caret. -/
def startComposition (d : Document) (c : CompositionId) : Document :=
  { d with composition := some (c, ⟨d.selection, d.selection⟩) }

/-- `ITfComposition::ShiftStart`: the composition starts where `r` does. -/
def compositionShiftStart (d : Document) (r : TextRange) : Document :=
  { d with composition := d.composition.map fun (c, q) =>
      (c, ⟨r.start, max r.start q.stop⟩) }

/-- `ITfComposition::ShiftEnd`: the composition ends where `r` does. -/
def compositionShiftEnd (d : Document) (r : TextRange) : Document :=
  { d with composition := d.composition.map fun (c, q) =>
      (c, ⟨min q.start r.stop, r.stop⟩) }

/-- `SetSelection` with `TF_AE_END`. -/
def setSelection (d : Document) (r : TextRange) : Document := { d with selection := r.stop }

/-- `ITfComposition::EndComposition`: its text stays in the document. -/
def endComposition (d : Document) : Document := { d with composition := none }

/-- The text outside the active composition, which no later session changes. -/
def finalised (d : Document) : Wide :=
  match d.composition with
  | some (_, r) => d.units.take r.start ++ d.units.drop r.stop
  | none => d.units

/-- The text of the active composition. -/
def composing (d : Document) : Wide :=
  match d.composition with
  | some (_, r) => (d.units.take r.stop).drop r.start
  | none => []

/-! ## The two views -/

/-- Composition `c` is active and covers `body`, between `left` and `right`. -/
structure Shows (d : Document) (c : CompositionId) (left body right : Wide) : Prop where
  units : d.units = left ++ body ++ right
  composition : d.composition = some (c, ⟨left.length, left.length + body.length⟩)

/-- No composition is active; the caret stands between `left` and `right`. -/
structure Idle (d : Document) (left right : Wide) : Prop where
  units : d.units = left ++ right
  composition : d.composition = none
  selection : d.selection = left.length

@[simp] theorem units_setAttr (d : Document) (r : TextRange) (a : Option Nat) :
    (d.setAttr r a).units = d.units := by
  unfold setAttr units
  refine List.ext_getElem (by simp) fun i hi hi' => ?_
  simp only [List.getElem_map, List.getElem_mapIdx]
  split <;> rfl

theorem length_text_eq (d : Document) : d.text.length = d.units.length := by
  simp [units]

theorem units_replaceText (d : Document) (r : TextRange) (t : Wide) :
    (d.replaceText r t).units = d.units.take r.start ++ t ++ d.units.drop r.stop := by
  simp [replaceText, units, List.map_take, List.map_drop, Function.comp_def]

namespace Shows

variable {d : Document} {c : CompositionId} {left body right : Wide}

theorem finalised_eq (h : d.Shows c left body right) : d.finalised = left ++ right := by
  have hdrop : (left ++ body ++ right).drop (left.length + body.length) = right := by
    rw [← List.length_append, List.drop_left]
  have htake : (left ++ body ++ right).take left.length = left := by
    rw [List.append_assoc, List.take_left]
  simp only [finalised, h.composition, h.units, hdrop, htake]

theorem composing_eq (h : d.Shows c left body right) : d.composing = body := by
  have htake : (left ++ body ++ right).take (left.length + body.length) = left ++ body := by
    rw [← List.length_append, List.take_left]
  simp only [composing, h.composition, h.units, htake, List.drop_left]

theorem rangeOf_eq (h : d.Shows c left body right) :
    d.rangeOf c = some ⟨left.length, left.length + body.length⟩ := by
  simp [rangeOf, h.composition]

/-- `SetText` on the composition's range replaces its text. -/
theorem replaceText (h : d.Shows c left body right) (t : Wide) :
    (d.replaceText ⟨left.length, left.length + body.length⟩ t).Shows c left t right where
  units := by
    have hdrop : (left ++ body ++ right).drop (left.length + body.length) = right := by
      rw [← List.length_append, List.drop_left]
    have htake : (left ++ body ++ right).take left.length = left := by
      rw [List.append_assoc, List.take_left]
    rw [units_replaceText, h.units, htake, hdrop]
  composition := by
    have hafter : TextRange.afterEdit ⟨left.length, left.length + body.length⟩ t.length
        ⟨left.length, left.length + body.length⟩
          = ⟨left.length, left.length + t.length⟩ := by
      simp only [TextRange.afterEdit, TextRange.mk.injEq]
      refine ⟨if_pos (Nat.le_refl _), ?_⟩
      rw [if_neg (by omega), if_neg (by omega)]
      omega
    simp only [Document.replaceText, h.composition, Option.map_some, hafter]

/-- `composition.ShiftStart` finalises the text it passes. -/
theorem compositionShiftStart {a b : Wide} (h : d.Shows c left (a ++ b) right) (e : Nat) :
    (d.compositionShiftStart ⟨left.length + a.length, e⟩).Shows c (left ++ a) b right where
  units := by
    show d.units = _
    rw [h.units]
    simp
  composition := by
    simp only [Document.compositionShiftStart, h.composition, Option.map_some]
    have hmax : max (left.length + a.length) (left.length + (a ++ b).length)
        = (left ++ a).length + b.length := by
      simp only [List.length_append]
      omega
    rw [hmax, List.length_append]

theorem setAttr (h : d.Shows c left body right) (r : TextRange) (a : Option Nat) :
    (d.setAttr r a).Shows c left body right :=
  ⟨by rw [units_setAttr]; exact h.units, h.composition⟩

theorem setSelection (h : d.Shows c left body right) (r : TextRange) :
    (d.setSelection r).Shows c left body right :=
  ⟨h.units, h.composition⟩

/-- The calls of `EndComposition` leave the composition's text before the caret. -/
theorem endComposition (h : d.Shows c left body right) :
    ((((d.compositionShiftStart (TextRange.collapseEnd ⟨left.length, left.length + body.length⟩))
      |>.compositionShiftEnd (TextRange.collapseEnd ⟨left.length, left.length + body.length⟩))
      |>.setSelection (TextRange.collapseEnd ⟨left.length, left.length + body.length⟩))
      |>.endComposition).Idle (left ++ body) right where
  units := h.units
  composition := rfl
  selection := (List.length_append).symm

end Shows

namespace Idle

variable {d : Document} {left right : Wide}

theorem finalised_eq (h : d.Idle left right) : d.finalised = left ++ right := by
  simp only [finalised, h.composition, h.units]

theorem composing_eq (h : d.Idle left right) : d.composing = [] := by
  simp only [composing, h.composition]

/-- `StartComposition` at the caret. -/
theorem startComposition (h : d.Idle left right) (c : CompositionId) :
    (d.startComposition c).Shows c left [] right where
  units := by
    show d.units = _
    rw [h.units, List.append_nil]
  composition := by simp [Document.startComposition, h.selection]

/-- Text inserted at the caret of an idle document is finalised at once. -/
theorem insertText (h : d.Idle left right) (t : Wide) :
    ((d.replaceText ⟨d.selection, d.selection⟩ t).setSelection
      ⟨d.selection + t.length, d.selection + t.length⟩).Idle (left ++ t) right where
  units := by
    show (d.replaceText ⟨d.selection, d.selection⟩ t).units = _
    rw [units_replaceText, h.units, h.selection, List.take_left, List.drop_left]
  composition := by simp [Document.setSelection, Document.replaceText, h.composition]
  selection := by simp [Document.setSelection, h.selection]

end Idle

/-- Inserting nothing changes nothing. -/
theorem insertText_nil (d : Document) :
    (d.replaceText ⟨d.selection, d.selection⟩ []).setSelection
      ⟨d.selection, d.selection⟩ = d := by
  have hanchor : ∀ q : TextRange, TextRange.afterEdit ⟨d.selection, d.selection⟩ 0 q = q := by
    rintro ⟨s, e⟩
    simp only [TextRange.afterEdit, TextRange.mk.injEq]
    constructor
    · split
      · rfl
      · rw [if_neg (by omega)]
        omega
    · split <;> omega
  cases hc : d.composition with
  | none =>
    simp only [setSelection, replaceText, List.length_nil, hanchor, hc, List.map_nil,
      List.append_nil, List.take_append_drop, Option.map_none]
    rw [← hc]
  | some p =>
    simp only [setSelection, replaceText, List.length_nil, hanchor, hc, List.map_nil,
      List.append_nil, List.take_append_drop, Option.map_some]
    rw [← hc]

end Document

end ChewingTsf
