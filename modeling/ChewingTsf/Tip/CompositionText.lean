import ChewingTsf.Tip.SessionQueue

/-!
# Where the composition's text, attributes and caret end up
(tip/src/text_service/edit_session.rs)

`SetCompositionString` writes `commit` followed by `preedit` and then counts its
way through the text: over the commit, to both ends of every segment and to the
cursor. It counts characters, while TSF counts UTF-16 code units. And where segments
overlap, the attribute of the later one takes the place of that of the earlier.
`written` is the document after the session, `Delivered` the one that was meant, and
`delivered_iff` says that they agree exactly when no character outside the basic plane
is counted and segments with different attributes do not overlap.
-/

namespace ChewingTsf

open SessM

/-! ## What was meant -/

/-- The segment covers character `k`. -/
def Covers (seg : Nat × Nat) (k : Nat) : Prop := seg.1 ≤ k ∧ k < seg.2

instance (seg : Nat × Nat) (k : Nat) : Decidable (Covers seg k) :=
  inferInstanceAs (Decidable (_ ∧ _))

/-- `attr` gives each segment its display attribute, the two in turn, on all its characters, and
none to the other characters. -/
structure Attributes (segments : List (Nat × Nat)) (attr : Nat → Option Nat) : Prop where
  inside : ∀ i seg, segments[i]? = some seg → ∀ k, Covers seg k → attr k = some (i % 2)
  outside : ∀ k, (∀ seg ∈ segments, ¬ Covers seg k) → attr k = none

/-- Segments with different attributes do not overlap. -/
def Compatible (segments : List (Nat × Nat)) : Prop :=
  ∀ i j seg seg', segments[i]? = some seg → segments[j]? = some seg' →
    ∀ k, Covers seg k → Covers seg' k → i % 2 = j % 2

/-- The units of `preedit`, each with the attribute of its character. The first
character is number `k`. -/
def attributed (attr : Nat → Option Nat) : Nat → Str → List TextUnit
  | _, [] => []
  | k, c :: s => (utf16Char c).map (⟨·, attr k⟩) ++ attributed attr (k + 1) s

/-- Text without an attribute. -/
def plain (w : Wide) : List TextUnit := w.map (⟨·, none⟩)

/-- The commit precedes the composition, the composition covers the preedit, with
the attributes of the segments on their characters, and the caret stands before
character `cursor`. -/
structure Delivered (p : CompositionString) (c : CompositionId) (left right : List TextUnit)
    (d : Document) : Prop where
  text : ∃ attr, Attributes p.segments attr ∧
    d.text = left ++ plain (utf16 p.commit) ++ attributed attr 0 p.preedit ++ right
  composition : d.composition = some (c, ⟨left.length + (utf16 p.commit).length,
    left.length + (utf16 p.commit).length + (utf16 p.preedit).length⟩)
  selection : d.selection
    = left.length + (utf16 p.commit).length + (utf16 (p.preedit.take p.cursor)).length

/-! ## What is written -/

namespace SetCompositionString

/-- The range from `seg.1` to `seg.2` in `range`. -/
def segmentRange (range : TextRange) (len : Nat) (seg : Nat × Nat) : TextRange :=
  (range.collapseStart.shiftEnd len seg.2).shiftStart len seg.1

/-- The attributes of the segments, set one after the other. -/
def paint (range : TextRange) : List (Nat × Nat) → Nat → Document → Document
  | [], _, d => d
  | seg :: segs, i, d =>
    paint range segs (i + 1) (d.setAttr (segmentRange range d.text.length seg) (some (i % 2)))

/-- The document after the session, when `range` was the composition's range. -/
def written (p : CompositionString) (range : TextRange) (d : Document) : Document :=
  let text := utf16 (p.commit ++ p.preedit)
  let d := d.replaceText range text
  let range := TextRange.shiftStart d.text.length p.commit.length
    ⟨range.start, range.start + text.length⟩
  let d := paint range p.segments 0 (d.compositionShiftStart range)
  d.setSelection (segmentRange range d.text.length (p.cursor, p.cursor))

variable {c : CompositionId} {p : CompositionString} {range : TextRange} {s : Session}

theorem wp_setSegments_paint : ∀ {segs : List (Nat × Nat)} {i : Nat} {s : Session},
    wp (setSegments .quiet range segs i) (fun _ t => t.document = paint range segs i s.document)
      (fun _ _ => False) s
  | [], _, _ => rfl
  | seg :: segs, i, s => by
    unfold setSegments
    rw [wp_call_bind, wp_call_bind, wp_call_bind, wp_call_bind, wp_get_bind, wp_bind,
      wp_tryCall_quiet, wp_bind, wp_onlyIf, if_pos rfl, wp_modify]
    exact wp_setSegments_paint

theorem wp_setCommitAndPreedit_written (h : s.document.rangeOf c = some range) :
    wp (setCommitAndPreedit .quiet c p) (fun _ t => t.document = written p range s.document)
      (fun _ _ => False) s := by
  unfold setCommitAndPreedit getRange
  rw [wp_bind, wp_call_bind, wp_get_bind]
  simp only [Session.record, h]
  rw [wp_pure, wp_bind, wp_setText_quiet, wp_call_bind, wp_get_bind, wp_call_bind,
    wp_modify_bind, wp_call_bind, wp_bind]
  refine wp_mono wp_setSegments_paint (fun _ t ht => ?_) fun _ _ hf => hf
  unfold setCursor
  rw [wp_call_bind, wp_call_bind, wp_call_bind, wp_call_bind, wp_get_bind, wp_call_bind,
    wp_modify]
  simp only [Session.record, ht]
  rfl

/-- What a session on an active composition leaves in the document. -/
theorem doEditSession_document {d : Document} (next : CompositionId)
    (h : d.rangeOf c = some range) :
    ((doEditSession .quiet).final (.start d (some c) (some p) next)).document
      = written p range d := by
  refine final_of_wp (fun t => t.document = written p range d) ?_
  rw [wp_doEditSession, if_neg (by simp)]
  unfold withGuards
  rw [wp_get_bind]
  simp only [Session.start, RefCell.new, BorrowFlag.borrow]
  rw [wp_modify_bind, wp_bind, wp_tryCatch]
  exact wp_mono (wp_setCommitAndPreedit_written h) (fun _ t ht => ht) fun _ _ hf => hf.elim

/-! ## The text that is painted -/

theorem paint_frame {segs : List (Nat × Nat)} {i : Nat} {d : Document} :
    (paint range segs i d).composition = d.composition
      ∧ (paint range segs i d).text.length = d.text.length := by
  induction segs generalizing i d with
  | nil => exact ⟨rfl, rfl⟩
  | cons seg segs ih =>
    obtain ⟨hcomposition, hlength⟩ := ih (i := i + 1)
      (d := d.setAttr (segmentRange range d.text.length seg) (some (i % 2)))
    refine ⟨hcomposition, ?_⟩
    rw [paint, hlength]
    simp [Document.setAttr]

/-- A unit lies in the range of a segment when its distance from the start does. -/
theorem mem_segmentRange {len j : Nat} {seg : Nat × Nat} (hj : j < len) :
    (segmentRange range len seg).start ≤ j ∧ j < (segmentRange range len seg).stop
      ↔ range.start ≤ j ∧ Covers seg (j - range.start) := by
  simp only [Covers, segmentRange, TextRange.collapseStart, TextRange.shiftEnd,
    TextRange.shiftStart]
  omega

/-- The attribute that position `k` ends up with: that of the last segment that covers it. The
attributes are used in turn, beginning with number `i`. -/
def attrAt : List (Nat × Nat) → Nat → Nat → Option Nat
  | [], _, _ => none
  | seg :: segs, i, k => (attrAt segs (i + 1) k).or (if Covers seg k then some (i % 2) else none)

/-- A unit with the attribute that the segments give to position `k`, or its own. -/
def paintUnit (segs : List (Nat × Nat)) (i k : Nat) (u : TextUnit) : TextUnit :=
  { u with attr := (attrAt segs i k).or u.attr }

theorem paintUnit_of_none {segs : List (Nat × Nat)} {i k : Nat} (h : attrAt segs i k = none)
    (u : TextUnit) : paintUnit segs i k u = u := by
  rw [paintUnit, h]
  rfl

/-- **Painting**: a unit takes the attribute of the last segment it lies in,
counted in units from the start of the range. -/
theorem text_paint {segs : List (Nat × Nat)} {i : Nat} {d : Document} :
    (paint range segs i d).text = d.text.mapIdx fun j u =>
      if range.start ≤ j then paintUnit segs i (j - range.start) u else u := by
  induction segs generalizing i d with
  | nil =>
    refine List.ext_getElem (by simp [paint]) fun j _ _ => ?_
    simp [paint, paintUnit, attrAt]
  | cons seg segs ih =>
    rw [paint, ih]
    refine List.ext_getElem (by simp [Document.setAttr]) fun j hj hj' => ?_
    have hlen : j < d.text.length := by simpa using hj'
    simp only [List.getElem_mapIdx, Document.setAttr, mem_segmentRange hlen]
    by_cases hstart : range.start ≤ j
    · simp only [hstart, if_true, true_and, paintUnit, attrAt]
      by_cases hmem : Covers seg (j - range.start)
      · simp [hmem]
      · simp [hmem]
    · simp [hstart]

/-- No attribute beyond the last segment. -/
theorem attrAt_eq_none {segs : List (Nat × Nat)} {k : Nat} (h : ∀ seg ∈ segs, seg.2 ≤ k) :
    ∀ i : Nat, attrAt segs i k = none := by
  induction segs with
  | nil => exact fun _ => rfl
  | cons seg segs ih =>
    intro i
    have hseg := h seg List.mem_cons_self
    have hnot : ¬ Covers seg k := fun hcovers => absurd hcovers.2 (not_lt.mpr hseg)
    rw [attrAt, ih (fun seg hmem => h seg (List.mem_cons_of_mem _ hmem)), if_neg hnot]
    rfl

/-- Every position in a segment has one. -/
theorem attrAt_ne_none {segs : List (Nat × Nat)} {seg : Nat × Nat} {k : Nat} (hmem : seg ∈ segs)
    (hk : Covers seg k) : ∀ i : Nat, attrAt segs i k ≠ none := by
  induction segs with
  | nil => cases hmem
  | cons seg' segs ih =>
    intro i hnone
    rw [attrAt, Option.or_eq_none_iff] at hnone
    rcases List.mem_cons.mp hmem with rfl | hrest
    · rw [if_pos hk] at hnone
      exact absurd hnone.2 (by simp)
    · exact ih hrest (i + 1) hnone.1

/-- Only positions in a segment have one, and it is that of such a segment. -/
theorem exists_seg_of_attrAt {segs : List (Nat × Nat)} {k i : Nat} (h : attrAt segs i k ≠ none) :
    ∃ j seg, segs[j]? = some seg ∧ Covers seg k ∧ attrAt segs i k = some ((i + j) % 2) := by
  induction segs generalizing i with
  | nil => exact absurd rfl h
  | cons seg segs ih =>
    by_cases hlater : attrAt segs (i + 1) k = none
    · rw [attrAt, hlater, Option.none_or] at h
      have hk : Covers seg k := by
        by_contra hk
        exact h (if_neg hk)
      refine ⟨0, seg, rfl, hk, ?_⟩
      rw [attrAt, hlater, Option.none_or, if_pos hk, Nat.add_zero]
    · obtain ⟨j, seg', hj, hk, heq⟩ := ih hlater
      refine ⟨j + 1, seg', hj, hk, ?_⟩
      rw [attrAt, heq, Option.some_or, Nat.add_right_comm, Nat.add_assoc]

/-- The attributes that were meant can only be those that are painted. -/
theorem eq_attrAt {segs : List (Nat × Nat)} {attr : Nat → Option Nat}
    (h : Attributes segs attr) : attr = attrAt segs 0 := by
  funext k
  by_cases hnone : attrAt segs 0 k = none
  · rw [hnone]
    exact h.outside k fun seg hmem hk => attrAt_ne_none hmem hk 0 hnone
  · obtain ⟨j, seg, hj, hk, heq⟩ := exists_seg_of_attrAt hnone
    rw [heq, Nat.zero_add]
    exact h.inside j seg hj k hk

/-- What is painted is what was meant exactly if segments with different attributes do not
overlap. -/
theorem attributes_attrAt_iff {segs : List (Nat × Nat)} :
    Attributes segs (attrAt segs 0) ↔ Compatible segs := by
  constructor
  · intro h i j seg seg' hi hj k hk hk'
    exact Option.some.inj ((h.inside i seg hi k hk).symm.trans (h.inside j seg' hj k hk'))
  · intro h
    constructor
    · intro i seg hi k hk
      obtain ⟨j, seg', hj, hk', heq⟩ :=
        exists_seg_of_attrAt (attrAt_ne_none (List.mem_of_getElem? hi) hk 0)
      rw [heq, Nat.zero_add, h i j seg seg' hi hj k hk hk']
    · intro k hk
      by_contra hsome
      obtain ⟨j, seg, hj, hk', -⟩ := exists_seg_of_attrAt hsome
      exact hk seg (List.mem_of_getElem? hj) hk'

/-- A list whose elements are all kept. -/
theorem mapIdx_eq_self {α : Type} {l : List α} {f : Nat → α → α}
    (h : ∀ i, i < l.length → ∀ a, f i a = a) : l.mapIdx f = l := by
  refine List.ext_getElem (by simp) fun i hi hi' => ?_
  rw [List.getElem_mapIdx]
  exact h i hi' _

/-! ## The document after the session -/

section Written

variable {d : Document} {left body right : List TextUnit}

/-- The range once `ShiftStart` has passed the commit. -/
def preeditRange (p : CompositionString) (left : List TextUnit) : TextRange :=
  ⟨left.length + p.commit.length, left.length + (utf16 (p.commit ++ p.preedit)).length⟩

theorem length_le_text (p : CompositionString) :
    p.commit.length + p.preedit.length ≤ (utf16 (p.commit ++ p.preedit)).length := by
  rw [← List.length_append]
  exact length_le_length_utf16 _

/-- The session, with the ranges it works on worked out. -/
theorem written_eq (htext : d.text = left ++ body ++ right)
    (hcomposition : d.composition = some (c, ⟨left.length, left.length + body.length⟩)) :
    ∃ e : Document, e.text = left ++ plain (utf16 (p.commit ++ p.preedit)) ++ right
      ∧ e.composition = some (c, preeditRange p left)
      ∧ written p ⟨left.length, left.length + body.length⟩ d
        = (paint (preeditRange p left) p.segments 0 e).setSelection
          (segmentRange (preeditRange p left) e.text.length (p.cursor, p.cursor)) := by
  let text := utf16 (p.commit ++ p.preedit)
  let range : TextRange := ⟨left.length, left.length + body.length⟩
  have hle := length_le_text p
  have hreplaced : (d.replaceText range text).text = left ++ plain text ++ right := by
    show d.text.take left.length ++ plain text ++ d.text.drop (left.length + body.length) = _
    rw [htext, ← List.length_append, List.drop_left, List.append_assoc left, List.take_left]
  -- `ShiftStart` is given characters of the commit, in a text of code units
  have hrange : TextRange.shiftStart (d.replaceText range text).text.length p.commit.length
      ⟨left.length, left.length + text.length⟩ = preeditRange p left := by
    rw [hreplaced]
    simp only [TextRange.shiftStart, preeditRange, plain, List.length_append, List.length_map,
      TextRange.mk.injEq, text]
    omega
  refine ⟨(d.replaceText range text).compositionShiftStart (preeditRange p left), hreplaced, ?_, ?_⟩
  · have hafter : TextRange.afterEdit range text.length range
        = ⟨left.length, left.length + text.length⟩ := by
      simp only [TextRange.afterEdit, TextRange.mk.injEq, range]
      refine ⟨if_pos (Nat.le_refl _), ?_⟩
      rw [if_neg (by omega), if_neg (by omega)]
      omega
    have hmax : max (left.length + p.commit.length) (left.length + text.length)
        = left.length + text.length := by
      simp only [text]
      omega
    simp only [Document.compositionShiftStart, Document.replaceText, hcomposition,
      Option.map_some]
    show some (c, (⟨_, max _ (TextRange.afterEdit range text.length range).stop⟩ : TextRange)) = _
    rw [hafter]
    simp only [preeditRange, hmax, text]
  · show (paint _ p.segments 0 _).setSelection (segmentRange _ (paint _ _ _ _).text.length _) = _
    rw [paint_frame.2]
    show (paint (TextRange.shiftStart (d.replaceText range text).text.length p.commit.length
      ⟨left.length, left.length + text.length⟩) _ _ _).setSelection _ = _
    rw [hrange]

theorem composition_written (htext : d.text = left ++ body ++ right)
    (hcomposition : d.composition = some (c, ⟨left.length, left.length + body.length⟩)) :
    (written p ⟨left.length, left.length + body.length⟩ d).composition
      = some (c, preeditRange p left) := by
  obtain ⟨e, -, he, hwritten⟩ := written_eq (p := p) htext hcomposition
  rw [hwritten]
  show (paint _ _ _ e).composition = _
  rw [paint_frame.1, he]

/-- The caret goes `cursor` units into the range. -/
theorem selection_written (htext : d.text = left ++ body ++ right)
    (hcomposition : d.composition = some (c, ⟨left.length, left.length + body.length⟩))
    (hcursor : p.cursor ≤ p.preedit.length) :
    (written p ⟨left.length, left.length + body.length⟩ d).selection
      = left.length + p.commit.length + p.cursor := by
  obtain ⟨e, he, -, hwritten⟩ := written_eq (p := p) htext hcomposition
  have hle := length_le_text p
  rw [hwritten]
  show (segmentRange _ e.text.length _).stop = _
  rw [he]
  simp only [segmentRange, preeditRange, plain, TextRange.collapseStart, TextRange.shiftEnd,
    TextRange.shiftStart, List.length_append, List.length_map]
  omega

/-- The units of the preedit, as they are painted. -/
def painted (p : CompositionString) : List TextUnit :=
  (plain (utf16 p.preedit)).mapIdx (paintUnit p.segments 0)

/-- With a commit of the basic plane only the preedit is painted, unit by unit. -/
theorem text_written (htext : d.text = left ++ body ++ right)
    (hcomposition : d.composition = some (c, ⟨left.length, left.length + body.length⟩))
    (hseg : ∀ seg ∈ p.segments, seg.2 ≤ p.preedit.length) (hbmp : Bmp p.commit) :
    (written p ⟨left.length, left.length + body.length⟩ d).text
      = left ++ plain (utf16 p.commit) ++ painted p ++ right := by
  obtain ⟨e, he, -, hwritten⟩ := written_eq (p := p) htext hcomposition
  have hcommit := hbmp.length_utf16
  have hpreedit := length_le_length_utf16 p.preedit
  have hsplit : e.text = (left ++ plain (utf16 p.commit)) ++ plain (utf16 p.preedit) ++ right := by
    rw [he, plain, utf16_append, List.map_append]
    simp only [plain, List.append_assoc]
  have hlength : (left ++ plain (utf16 p.commit)).length = (preeditRange p left).start := by
    simp only [preeditRange, plain, List.length_append, List.length_map, hcommit]
  rw [hwritten]
  show (paint _ _ _ e).text = _
  rw [text_paint, hsplit, List.mapIdx_append, List.mapIdx_append, hlength]
  congr 1
  · congr 1
    · -- before the range
      refine mapIdx_eq_self fun j hj u => if_neg ?_
      rw [hlength] at hj
      exact not_le.mpr hj
    · refine List.ext_getElem (by simp [painted]) fun j _ _ => ?_
      simp only [List.getElem_mapIdx, painted, Nat.le_add_left, if_true, Nat.add_sub_cancel]
  · -- behind the last segment
    refine mapIdx_eq_self fun j _ u => ?_
    have hlast : attrAt p.segments 0 (j + ((left ++ plain (utf16 p.commit))
        ++ plain (utf16 p.preedit)).length - (preeditRange p left).start) = none := by
      refine attrAt_eq_none (fun seg hmem => ?_) 0
      have hend := hseg seg hmem
      rw [List.length_append, hlength, plain, List.length_map]
      omega
    rw [paintUnit_of_none hlast, ite_self]

end Written

/-! ## Characters and units -/

section Units

variable {attr : Nat → Option Nat} {segments : List (Nat × Nat)} {s t : Str}

theorem attributed_append (s t : Str) (k : Nat) :
    attributed attr k (s ++ t) = attributed attr k s ++ attributed attr (k + s.length) t := by
  induction s generalizing k with
  | nil => rfl
  | cons c s ih =>
    rw [List.cons_append, attributed, attributed, ih, List.append_assoc, List.length_cons,
      Nat.add_right_comm, Nat.add_assoc k]

theorem length_attributed (s : Str) (k : Nat) :
    (attributed attr k s).length = (utf16 s).length := by
  induction s generalizing k with
  | nil => rfl
  | cons c s ih => simp [attributed, utf16_cons, ih]

/-- Where characters are units, painting units paints characters. -/
theorem attributed_of_bmp (h : Bmp s) (k : Nat) :
    attributed (attrAt segments 0) k s
      = (plain (utf16 s)).mapIdx fun j u => paintUnit segments 0 (j + k) u := by
  induction s generalizing k with
  | nil => rfl
  | cons c s ih =>
    have hc : utf16Char c = [c.toNat.toUInt16] := by
      rw [utf16Char, if_pos (h c List.mem_cons_self)]
    rw [attributed, ih fun d hd => h d (List.mem_cons_of_mem _ hd), utf16_cons, hc]
    simp [plain, List.mapIdx_cons, paintUnit, Nat.add_right_comm, Nat.add_assoc]

/-- Where there are no attributes, characters and units agree as well. -/
theorem attributed_of_none {k : Nat} (h : ∀ j, k ≤ j → attr j = none) :
    attributed attr k s = plain (utf16 s) := by
  induction s generalizing k with
  | nil => rfl
  | cons c s ih =>
    rw [attributed, ih fun j hj => h j (Nat.le_of_succ_le hj), h k le_rfl, utf16_cons]
    simp [plain]

/-- The last unit of character `k` carries its attribute. -/
theorem getElem?_attributed {k : Nat} (hk : k < s.length) :
    ∃ u, (attributed attr 0 s)[(utf16 (s.take (k + 1))).length - 1]? = some ⟨u, attr k⟩ := by
  obtain ⟨a, c, b, rfl, rfl⟩ : ∃ a c b, s = a ++ c :: b ∧ a.length = k := by
    refine ⟨s.take k, s[k], s.drop (k + 1), ?_, List.length_take_of_le hk.le⟩
    rw [List.getElem_cons_drop, List.take_append_drop]
  have hpos := length_utf16Char_pos c
  have htake : (a ++ c :: b).take (a.length + 1) = a ++ [c] := by
    rw [List.take_length_add_append]
    rfl
  have hindex : (utf16 (a ++ [c])).length - 1
      = (attributed attr 0 a).length + ((utf16Char c).length - 1) := by
    rw [length_attributed, utf16_append, List.length_append, utf16_cons, utf16_nil,
      List.append_nil]
    omega
  have hlast : (utf16Char c).length - 1 < (utf16Char c).length := by omega
  refine ⟨(utf16Char c)[(utf16Char c).length - 1], ?_⟩
  rw [htake, hindex, attributed_append, attributed, Nat.zero_add,
    List.getElem?_append_right (by omega), Nat.add_sub_cancel_left,
    List.getElem?_append_left (by simpa using hlast), List.getElem?_map,
    List.getElem?_eq_getElem hlast]
  rfl

/-- **Characters and units**: painting the units between the bounds of the segments
paints their characters exactly when no segment reaches beyond a character outside
the basic plane. -/
theorem painted_eq_iff {p : CompositionString}
    (hseg : ∀ seg ∈ p.segments, seg.2 ≤ p.preedit.length) :
    painted p = attributed (attrAt p.segments 0) 0 p.preedit
      ↔ ∀ seg ∈ p.segments, seg.1 < seg.2 → Bmp (p.preedit.take seg.2) := by
  constructor
  · intro heq
    -- an attribute behind such a character is painted too early, which leaves a
    -- later character of the same segments without its attribute
    have hchar : ∀ m k, p.preedit.length - k = m → k < p.preedit.length →
        attrAt p.segments 0 k ≠ none → Bmp (p.preedit.take (k + 1)) := by
      intro m
      induction m using Nat.strongRecOn with
      | ind m ih =>
        intro k hm hk hattr
        by_contra hwide
        have hlen : (p.preedit.take (k + 1)).length = k + 1 := List.length_take_of_le hk
        have hle := length_le_length_utf16 (p.preedit.take (k + 1))
        have hne := mt length_utf16_eq_iff.mp hwide
        obtain ⟨u, hu⟩ : ∃ u, (attributed (attrAt p.segments 0) 0 p.preedit)[
            (utf16 (p.preedit.take (k + 1))).length - 1]? = some ⟨u, attrAt p.segments 0 k⟩ :=
          getElem?_attributed hk
        rw [← heq, painted, List.getElem?_mapIdx, Option.map_eq_some_iff] at hu
        obtain ⟨u', hu', hpaint⟩ := hu
        rw [plain, List.getElem?_map, Option.map_eq_some_iff] at hu'
        obtain ⟨_, -, rfl⟩ := hu'
        have hlate : attrAt p.segments 0 ((utf16 (p.preedit.take (k + 1))).length - 1)
            = attrAt p.segments 0 k := by
          simpa [paintUnit] using congrArg TextUnit.attr hpaint
        rw [← hlate] at hattr
        obtain ⟨j, seg, hj, ⟨-, hlt⟩, -⟩ := exists_seg_of_attrAt hattr
        have hend := hseg seg (List.mem_of_getElem? hj)
        have hlater := ih _ (by omega) _ rfl (by omega) hattr
        exact hwide (hlater.take (by omega))
    intro seg hmem hlt
    have hend := hseg seg hmem
    have hlast := hchar _ (seg.2 - 1) rfl (by omega)
      (attrAt_ne_none hmem ⟨by omega, by omega⟩ 0)
    rwa [Nat.sub_add_cancel (by omega)] at hlast
  · intro hcond
    obtain ⟨s₁, s₂, hs, hbmp, hmax⟩ := exists_bmp_prefix p.preedit
    have hnone : ∀ j, s₁.length ≤ j → attrAt p.segments 0 j = none := by
      intro j hj
      by_contra hattr
      obtain ⟨i, seg, hi, ⟨hstart, hlt⟩, -⟩ := exists_seg_of_attrAt hattr
      have hmem := List.mem_of_getElem? hi
      have hle := hmax seg.2 (hcond seg hmem (by omega)) (hseg seg hmem)
      omega
    have hrest : (plain (utf16 s₂)).mapIdx
        (fun j u => paintUnit p.segments 0 (j + (plain (utf16 s₁)).length) u)
          = plain (utf16 s₂) := by
      refine mapIdx_eq_self fun j _ u => paintUnit_of_none (hnone _ ?_) u
      rw [plain, List.length_map, hbmp.length_utf16]
      exact Nat.le_add_left _ _
    have hplain : plain (utf16 (s₁ ++ s₂)) = plain (utf16 s₁) ++ plain (utf16 s₂) := by
      rw [plain, utf16_append, List.map_append]
      rfl
    rw [painted, hs, hplain, List.mapIdx_append, hrest, attributed_append,
      attributed_of_bmp hbmp, attributed_of_none (by simpa using hnone)]
    rfl

end Units

end SetCompositionString

/-! ## The session delivers -/

open SetCompositionString

variable {d : Document} {c : CompositionId} {left body right : List TextUnit}

/-- **The session does what was meant** exactly when it counts only characters of
the basic plane (those of the commit, those up to the end of each segment, and those
up to the cursor) and no segment overlaps one with the other attribute. -/
theorem delivered_iff (p : CompositionString) (next : CompositionId)
    (htext : d.text = left ++ body ++ right)
    (hcomposition : d.composition = some (c, ⟨left.length, left.length + body.length⟩))
    (hseg : ∀ seg ∈ p.segments, seg.2 ≤ p.preedit.length)
    (hcursor : p.cursor ≤ p.preedit.length) :
    Delivered p c left right
        ((doEditSession .quiet).final (.start d (some c) (some p) next)).document
      ↔ Compatible p.segments ∧ Bmp p.commit
        ∧ (∀ seg ∈ p.segments, seg.1 < seg.2 → Bmp (p.preedit.take seg.2))
        ∧ Bmp (p.preedit.take p.cursor) := by
  have hrange : d.rangeOf c = some ⟨left.length, left.length + body.length⟩ := by
    simp [Document.rangeOf, hcomposition]
  have hprefix : (p.preedit.take p.cursor).length = p.cursor := List.length_take_of_le hcursor
  rw [doEditSession_document next hrange]
  constructor
  · intro h
    have hstart := h.composition
    rw [composition_written htext hcomposition] at hstart
    simp only [preeditRange, Option.some.injEq, Prod.mk.injEq, TextRange.mk.injEq] at hstart
    -- the composition begins behind the commit only if each of its characters is one unit
    have hcommit : Bmp p.commit := length_utf16_eq_iff.mp (by omega)
    obtain ⟨attr, hattr, htext'⟩ := h.text
    rw [text_written htext hcomposition hseg hcommit, List.append_left_inj,
      List.append_right_inj, eq_attrAt hattr] at htext'
    have hcompatible : Compatible p.segments :=
      attributes_attrAt_iff.mp (eq_attrAt hattr ▸ hattr)
    have hselection := h.selection
    rw [selection_written htext hcomposition hcursor] at hselection
    exact ⟨hcompatible, hcommit, (painted_eq_iff hseg).mp htext',
      length_utf16_eq_iff.mp (by omega)⟩
  · rintro ⟨hcompatible, hcommit, hsegments, hcaret⟩
    have hlength := hcommit.length_utf16
    have hcaret' := hcaret.length_utf16
    refine ⟨⟨_, attributes_attrAt_iff.mpr hcompatible, ?_⟩, ?_, ?_⟩
    · rw [text_written htext hcomposition hseg hcommit, (painted_eq_iff hseg).mpr hsegments]
    · rw [composition_written htext hcomposition, preeditRange, utf16_append,
        List.length_append, hlength, Nat.add_assoc]
    · rw [selection_written htext hcomposition hcursor, hlength, hcaret', hprefix]

/-- A phrase is committed in front of a syllable and another phrase; the preedit ends outside the
basic plane, behind everything that is counted. -/
theorem delivered_iff_basic :
    Delivered ⟨"新".toList, "ㄅ酷𠮷".toList, [(0, 1), (1, 2)], 1⟩ 0 [] []
        ((doEditSession .quiet).final (.start ⟨[], 0, some (0, ⟨0, 0⟩)⟩ (some 0)
          (some ⟨"新".toList, "ㄅ酷𠮷".toList, [(0, 1), (1, 2)], 1⟩) 1)).document
      ↔ Compatible [(0, 1), (1, 2)] ∧ Bmp "新".toList
        ∧ (∀ seg ∈ [(0, 1), (1, 2)], seg.1 < seg.2 → Bmp ("ㄅ酷𠮷".toList.take seg.2))
        ∧ Bmp ("ㄅ酷𠮷".toList.take 1) := by
  have htext : (⟨[], 0, some (0, ⟨0, 0⟩)⟩ : Document).text = [] ++ [] ++ [] := rfl
  exact delivered_iff ⟨"新".toList, "ㄅ酷𠮷".toList, [(0, 1), (1, 2)], 1⟩ 1 htext rfl (by decide)
    (by decide)

/-- The committed `𠮷` is cut in half: its second unit stays in the composition. -/
theorem commit_cut_in_half :
    ¬ ∀ (d : Document) (c next : CompositionId) (left body right : List TextUnit)
      (p : CompositionString), d.text = left ++ body ++ right →
      d.composition = some (c, ⟨left.length, left.length + body.length⟩) →
      (∀ seg ∈ p.segments, seg.1 ≤ seg.2 ∧ seg.2 ≤ p.preedit.length) →
      p.cursor ≤ p.preedit.length →
      Delivered p c left right
        ((doEditSession .quiet).final (.start d (some c) (some p) next)).document := by
  intro hclaim
  have h := hclaim ⟨[], 0, some (0, ⟨0, 0⟩)⟩ 0 1 [] [] [] ⟨"𠮷".toList, "ㄅ".toList, [(0, 1)], 1⟩
    rfl rfl (by decide) (by decide)
  have hstart : ((doEditSession .quiet).final (.start ⟨[], 0, some (0, ⟨0, 0⟩)⟩ (some 0)
      (some ⟨"𠮷".toList, "ㄅ".toList, [(0, 1)], 1⟩) 1)).document.composition
        = some (0, ⟨1, 3⟩) := by decide
  have hcomposition := h.composition
  rw [hstart] at hcomposition
  exact absurd hcomposition (by decide)

end ChewingTsf
