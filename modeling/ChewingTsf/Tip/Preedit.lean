import ChewingTsf.Lib.Tiling
import ChewingTsf.Tip.Chewing

/-!
# The preedit (tip/src/text_service/chewing.rs, `update_preedit`)

The editor hands out its composition as intervals that lie end to end, with the
syllable being typed (the bopomofo) kept apart. The loop of `update_preedit` puts
the two together: the text, and the segments that are underlined separately.

The text comes out right for every cursor (`compositionBuffer_text`). The
segments do so only while the bopomofo stands at one of the two ends of the
composition (`tiles_iff`): inside an interval the end of the second half is not
moved, and between two intervals the second of them is not moved at all, since
only an interval that begins *after* the cursor is.
-/

namespace ChewingTsf

/-- The bounds of an interval. -/
def Interval.span (it : Interval) : Nat × Nat := (it.start, it.stop)

/-- The intervals cover the positions `0` to `n` in order, with one character of
text for each position. -/
structure Partitions (intervals : List Interval) (n : Nat) : Prop where
  contiguous : Contiguous Interval.span 0 intervals n
  text : ∀ it ∈ intervals, it.text.length = it.stop - it.start

/-- The text of the intervals. -/
def phrases (intervals : List Interval) : Str := intervals.flatMap Interval.text

/-- The segment of an interval that the bopomofo does not split, as the loop has
it. -/
def unsplitSegment (cursor : Nat) (bopomofo : Str) (it : Interval) : Nat × Nat :=
  if it.start > cursor ∧ bopomofo ≠ [] then
    (it.start + bopomofo.length, it.stop + bopomofo.length)
  else it.span

/-- The segments of the interval that takes the bopomofo, as the loop has them. -/
def splitSegments (cursor : Nat) (bopomofo : Str) (it : Interval) : List (Nat × Nat) :=
  if cursor = it.start then
    [(cursor, cursor + bopomofo.length),
      (it.start + bopomofo.length, it.stop + bopomofo.length)]
  else if cursor = it.stop then [(it.start, it.stop), (cursor, cursor + bopomofo.length)]
  else [(it.start, cursor), (cursor, cursor + bopomofo.length),
    (cursor + bopomofo.length, it.stop)]

variable {cursor n : Nat} {bopomofo : Str} {intervals : List Interval}

/-! ## The loop -/

/-- Intervals that do not take the bopomofo. -/
theorem foldl_push_of_skip {l : List Interval} {s : PreeditLoop}
    (h : ∀ it ∈ l, ¬ (it.start ≤ cursor ∧ cursor ≤ it.stop ∧ s.needPushBopomofo)) :
    l.foldl (PreeditLoop.push cursor bopomofo) s
      = ⟨s.compositionBuf ++ phrases l, s.segments ++ l.map (unsplitSegment cursor bopomofo),
          s.needPushBopomofo⟩ := by
  induction l generalizing s with
  | nil => simp [phrases]
  | cons it l ih =>
    have hstep : PreeditLoop.push cursor bopomofo s it
        = ⟨s.compositionBuf ++ it.text, s.segments ++ [unsplitSegment cursor bopomofo it],
            s.needPushBopomofo⟩ := by
      rw [PreeditLoop.push, if_neg (h it List.mem_cons_self)]
      by_cases hshift : it.start > cursor ∧ bopomofo ≠ []
      · rw [unsplitSegment, if_pos hshift, if_pos hshift]
      · rw [unsplitSegment, if_neg hshift, if_neg hshift, Interval.span]
    rw [List.foldl_cons, hstep, ih]
    · simp [phrases]
    · intro j hj
      exact h j (List.mem_cons_of_mem _ hj)

/-- The interval that takes it. -/
theorem push_of_take {it : Interval} {s : PreeditLoop} (hneed : s.needPushBopomofo = true)
    (hstart : it.start ≤ cursor) (hstop : cursor ≤ it.stop) :
    PreeditLoop.push cursor bopomofo s it
      = ⟨s.compositionBuf ++ it.text.take (cursor - it.start) ++ bopomofo
            ++ it.text.drop (cursor - it.start),
          s.segments ++ splitSegments cursor bopomofo it, false⟩ := by
  rw [PreeditLoop.push, if_pos ⟨hstart, hstop, hneed⟩]
  rfl

/-- Without bopomofo the intervals are taken over as they are. -/
theorem compositionBuffer_nil (cursor : Nat) (intervals : List Interval) :
    compositionBuffer cursor [] intervals = (phrases intervals, intervals.map Interval.span) := by
  have hskip : ∀ it ∈ intervals, ¬ (it.start ≤ cursor ∧ cursor ≤ it.stop
      ∧ (⟨[], [], false⟩ : PreeditLoop).needPushBopomofo) := by
    intro it _ h
    exact absurd h.2.2 Bool.false_ne_true
  have hsegment : unsplitSegment cursor [] = Interval.span := by
    funext it
    exact if_neg fun h => h.2 rfl
  have hloop : intervals.foldl (PreeditLoop.push cursor []) ⟨[], [], false⟩ = _ :=
    foldl_push_of_skip hskip
  rw [hsegment] at hloop
  show (if _ then _ else _) = _
  rw [show (!([] : Str).isEmpty) = false from rfl, hloop]
  rfl

/-- The bopomofo alone. -/
theorem compositionBuffer_alone (cursor : Nat) (hb : bopomofo ≠ []) :
    compositionBuffer cursor bopomofo [] = (bopomofo, [(0, bopomofo.length)]) := by
  cases bopomofo with
  | nil => exact absurd rfl hb
  | cons => rfl

/-- **The loop**, when `it` is the first interval that reaches the cursor. -/
theorem compositionBuffer_split {l r : List Interval} {it : Interval} (hb : bopomofo ≠ [])
    (hl : ∀ j ∈ l, j.stop < cursor) (hstart : it.start ≤ cursor) (hstop : cursor ≤ it.stop) :
    compositionBuffer cursor bopomofo (l ++ it :: r)
      = (phrases l ++ it.text.take (cursor - it.start) ++ bopomofo
            ++ it.text.drop (cursor - it.start) ++ phrases r,
          l.map (unsplitSegment cursor bopomofo) ++ splitSegments cursor bopomofo it
            ++ r.map (unsplitSegment cursor bopomofo)) := by
  have hneed : (!bopomofo.isEmpty) = true := by
    cases bopomofo with
    | nil => exact absurd rfl hb
    | cons => rfl
  have hleft : ∀ j ∈ l, ¬ (j.start ≤ cursor ∧ cursor ≤ j.stop
      ∧ (⟨[], [], !bopomofo.isEmpty⟩ : PreeditLoop).needPushBopomofo) := by
    intro j hj h
    exact absurd h.2.1 (not_le.mpr (hl j hj))
  -- only the interval at the cursor takes the bopomofo
  have hloop : (l ++ it :: r).foldl (PreeditLoop.push cursor bopomofo) ⟨[], [], !bopomofo.isEmpty⟩
      = ⟨phrases l ++ it.text.take (cursor - it.start) ++ bopomofo
            ++ it.text.drop (cursor - it.start) ++ phrases r,
          l.map (unsplitSegment cursor bopomofo) ++ splitSegments cursor bopomofo it
            ++ r.map (unsplitSegment cursor bopomofo), false⟩ := by
    rw [List.foldl_append, foldl_push_of_skip hleft, List.foldl_cons,
      push_of_take hneed hstart hstop, foldl_push_of_skip]
    · simp
    · intro j _ h
      exact absurd h.2.2 Bool.false_ne_true
  show (if _ then _ else _) = _
  rw [hloop]
  rfl

/-! ## The text -/

theorem length_phrases {l : List Interval} {lo hi : Nat}
    (h : Contiguous Interval.span lo l hi)
    (htext : ∀ it ∈ l, it.text.length = it.stop - it.start) :
    lo + (phrases l).length = hi := by
  induction l generalizing lo with
  | nil => exact h
  | cons it l ih =>
    obtain ⟨hlo, hle, hrest⟩ := h
    have hlen := ih hrest fun j hj => htext j (List.mem_cons_of_mem _ hj)
    have hit := htext it List.mem_cons_self
    simp only [Interval.span] at hlo hle hlen
    simp only [phrases, List.flatMap_cons, List.length_append] at hlen ⊢
    omega

/-- **The preedit text**: the bopomofo stands at the cursor, once, in the text of
the intervals. -/
theorem compositionBuffer_text (h : Partitions intervals n) (hcursor : cursor ≤ n) :
    (compositionBuffer cursor bopomofo intervals).1
      = (phrases intervals).take cursor ++ bopomofo ++ (phrases intervals).drop cursor := by
  by_cases hb : bopomofo = []
  · subst hb
    rw [compositionBuffer_nil, List.append_nil, List.take_append_drop]
  by_cases hne : intervals = []
  · subst hne
    rw [compositionBuffer_alone cursor hb]
    simp [phrases]
  obtain ⟨l, it, r, rfl, hbefore, hstart, hstop, hl, -⟩ :=
    h.contiguous.exists_cut hne (Nat.zero_le cursor) hcursor
  have hlen : 0 + (phrases l).length = it.start :=
    length_phrases hl fun j hj => h.text j (List.mem_append_left _ hj)
  have hit : it.text.length = it.stop - it.start := h.text it (by simp)
  -- the cursor falls into the text of `it`
  have hphrases : phrases (l ++ it :: r) = phrases l ++ (it.text ++ phrases r) := by
    simp [phrases]
  simp only [Interval.span] at hstart hstop
  have hhead : (phrases l).length ≤ cursor := by omega
  have htail : cursor - (phrases l).length ≤ it.text.length := by omega
  have hstart' : (phrases l).length = it.start := by omega
  rw [compositionBuffer_split hb hbefore hstart hstop, hphrases, List.take_append,
    List.take_of_length_le hhead, List.take_append_of_le_length htail, List.drop_append,
    List.drop_of_length_le hhead, List.drop_append_of_le_length htail, hstart']
  simp

/-- A syllable typed between two phrases. -/
theorem compositionBuffer_text_between :
    (compositionBuffer 1 "ㄅ".toList [⟨0, 1, "新".toList⟩, ⟨1, 3, "酷音".toList⟩]).1
      = "新".toList ++ "ㄅ".toList ++ "酷音".toList :=
  compositionBuffer_text ⟨⟨rfl, by decide, rfl, by decide, rfl⟩, by decide⟩
    (by decide : 1 ≤ 3)

/-! ## The segments -/

/-- The part of an interval that a segment stands for, when `b` characters of
bopomofo are at the cursor. -/
inductive Piece (cursor b : Nat) (it : Interval) : Nat × Nat → Prop
  | left (h : it.stop ≤ cursor) : Piece cursor b it (it.start, it.stop)
  | right (h : cursor ≤ it.start) : Piece cursor b it (it.start + b, it.stop + b)
  | whole (h : b = 0) : Piece cursor b it (it.start, it.stop)
  | head (h : it.start < cursor) (h' : cursor < it.stop) : Piece cursor b it (it.start, cursor)
  | tail (h : it.start < cursor) (h' : cursor < it.stop) :
      Piece cursor b it (cursor + b, it.stop + b)

/-- The segments tile the preedit: the bopomofo is one of them, and every other is
an interval or the part of it on one side of the cursor. -/
structure Tiles (cursor : Nat) (bopomofo : Str) (intervals : List Interval) (n : Nat)
    (segments : List (Nat × Nat)) : Prop where
  contiguous : Contiguous id 0 segments (n + bopomofo.length)
  nonempty : ∀ s ∈ segments, s.1 < s.2
  syllable : bopomofo ≠ [] → (cursor, cursor + bopomofo.length) ∈ segments
  pieces : ∀ s ∈ segments, (bopomofo ≠ [] ∧ s = (cursor, cursor + bopomofo.length))
    ∨ ∃ it ∈ intervals, Piece cursor bopomofo.length it s

/-- An interval moved to the right of `b` characters. -/
def Interval.moved (b : Nat) (it : Interval) : Nat × Nat := (it.start + b, it.stop + b)

theorem contiguous_moved {l : List Interval} {lo hi : Nat} (b : Nat)
    (h : Contiguous Interval.span lo l hi) :
    Contiguous id (lo + b) (l.map (Interval.moved b)) (hi + b) := by
  have hmono : Monotone fun i : Nat => i + b := fun _ _ hle => Nat.add_le_add_right hle b
  have hspan : ∀ it : Interval, id (it.moved b) = (it.span.1 + b, it.span.2 + b) :=
    fun _ => rfl
  exact h.map hmono hspan

theorem contiguous_span {l : List Interval} {lo hi : Nat}
    (h : Contiguous Interval.span lo l hi) : Contiguous id lo (l.map Interval.span) hi := by
  have hspan : ∀ it : Interval, id it.span = (id it.span.1, id it.span.2) := fun _ => rfl
  exact h.map monotone_id hspan

/-- Intervals that begin at or before the cursor keep their place. -/
theorem map_unsplit_left {l : List Interval} (h : ∀ it ∈ l, it.start ≤ cursor) :
    l.map (unsplitSegment cursor bopomofo) = l.map Interval.span :=
  List.map_congr_left fun it hit => if_neg fun hshift => absurd hshift.1 (not_lt.mpr (h it hit))

/-- Intervals that begin after it are moved. -/
theorem map_unsplit_right {l : List Interval} (hb : bopomofo ≠ [])
    (h : ∀ it ∈ l, cursor < it.start) :
    l.map (unsplitSegment cursor bopomofo) = l.map (Interval.moved bopomofo.length) :=
  List.map_congr_left fun it hit => if_pos ⟨h it hit, hb⟩

/-- Intervals left and right of the cursor, with the bopomofo between them. -/
theorem tiles_of_cut {l r : List Interval} (hb : bopomofo ≠ [])
    (hl : Contiguous Interval.span 0 l cursor) (hr : Contiguous Interval.span cursor r n)
    (hne : ∀ it ∈ l ++ r, it.start < it.stop) :
    Tiles cursor bopomofo (l ++ r) n
      (l.map Interval.span ++ (cursor, cursor + bopomofo.length)
        :: r.map (Interval.moved bopomofo.length)) where
  contiguous := Contiguous.append_iff.mpr
    ⟨cursor, contiguous_span hl, rfl, Nat.le_add_right _ _, contiguous_moved _ hr⟩
  nonempty := by
    intro s hs
    have hpos : 0 < bopomofo.length := List.length_pos_iff.mpr hb
    rcases List.mem_append.mp hs with hleft | hright
    · obtain ⟨it, hit, rfl⟩ := List.mem_map.mp hleft
      exact hne it (List.mem_append_left _ hit)
    · rcases List.mem_cons.mp hright with rfl | hmoved
      · exact Nat.lt_add_of_pos_right hpos
      · obtain ⟨it, hit, rfl⟩ := List.mem_map.mp hmoved
        exact Nat.add_lt_add_right (hne it (List.mem_append_right _ hit)) _
  syllable _ := by simp
  pieces := by
    intro s hs
    rcases List.mem_append.mp hs with hleft | hright
    · obtain ⟨it, hit, rfl⟩ := List.mem_map.mp hleft
      exact .inr ⟨it, List.mem_append_left _ hit, .left (hl.bounds it hit).2.2⟩
    · rcases List.mem_cons.mp hright with rfl | hmoved
      · exact .inl ⟨hb, rfl⟩
      · obtain ⟨it, hit, rfl⟩ := List.mem_map.mp hmoved
        exact .inr ⟨it, List.mem_append_right _ hit, .right (hr.bounds it hit).1⟩

/-- At the start of the composition every interval is moved. -/
theorem tiles_at_start (h : Partitions intervals n)
    (hne : ∀ it ∈ intervals, it.start < it.stop) (hb : bopomofo ≠ []) :
    Tiles 0 bopomofo intervals n (compositionBuffer 0 bopomofo intervals).2 := by
  have hcut := tiles_of_cut (l := []) hb rfl h.contiguous hne
  cases intervals with
  | nil =>
    rw [compositionBuffer_alone 0 hb]
    simpa using hcut
  | cons it r =>
    obtain ⟨hstart, hstop, hr⟩ := h.contiguous
    have hpos := hne it List.mem_cons_self
    have hright : ∀ j ∈ r, 0 < j.start := by
      intro j hj
      exact lt_of_lt_of_le (Nat.zero_lt_of_lt hpos) (hr.bounds j hj).1
    have hsplit := compositionBuffer_split (l := []) (r := r) hb (by simp)
      (le_of_eq hstart) hstop
    rw [List.nil_append] at hsplit
    have hstart' : it.start = 0 := hstart
    rw [hsplit, map_unsplit_right hb hright, splitSegments, if_pos hstart'.symm]
    exact hcut

/-- At the end of it none is. -/
theorem tiles_at_end (h : Partitions intervals n)
    (hne : ∀ it ∈ intervals, it.start < it.stop) (hb : bopomofo ≠ []) (hn : 0 < n) :
    Tiles n bopomofo intervals n (compositionBuffer n bopomofo intervals).2 := by
  have hcut := tiles_of_cut (r := []) hb h.contiguous rfl (by simpa using hne)
  have hne' : intervals ≠ [] := by
    rintro rfl
    exact absurd h.contiguous (Nat.ne_of_lt hn)
  obtain ⟨l, it, r, rfl, hbefore, hstart, hstop, -, hr⟩ :=
    h.contiguous.exists_cut hne' (Nat.zero_le n) le_rfl
  have hit := hne it (by simp)
  have hstop' : it.stop = n := le_antisymm hr.le hstop
  -- nothing lies behind the interval that reaches the end
  have hnil : r = [] := by
    cases r with
    | nil => rfl
    | cons j r =>
      have hj := hne j (by simp)
      have hbounds := hr.bounds j List.mem_cons_self
      simp only [Interval.span] at hbounds
      omega
  subst hnil
  have hleft : ∀ j ∈ l, j.start ≤ n := by
    intro j hj
    have hlt := hbefore j hj
    have hlt' := hne j (by simp [hj])
    simp only [Interval.span] at hlt
    omega
  have hstart' : ¬ n = it.start := by omega
  rw [compositionBuffer_split hb hbefore hstart hstop, map_unsplit_left hleft, splitSegments,
    if_neg hstart', if_pos hstop'.symm]
  simpa [Interval.span, hstop'] using hcut

/-- Between the ends the segments are not contiguous. -/
theorem not_contiguous_inside (h : Partitions intervals n) (hb : bopomofo ≠ [])
    (hpos : 0 < cursor) (hlt : cursor < n) :
    ¬ Contiguous id 0 (compositionBuffer cursor bopomofo intervals).2 (n + bopomofo.length) := by
  intro hcont
  have hlen : 0 < bopomofo.length := List.length_pos_iff.mpr hb
  have hne : intervals ≠ [] := by
    rintro rfl
    have hzero : 0 = n := h.contiguous
    omega
  obtain ⟨l, it, r, rfl, hbefore, hstart, hstop, hl, hr⟩ :=
    h.contiguous.exists_cut hne (Nat.zero_le cursor) hlt.le
  have hbegin : it.start < cursor := hl.lt_of_forall hpos hbefore
  rw [compositionBuffer_split hb hbefore hstart hstop, splitSegments,
    if_neg (Nat.ne_of_gt hbegin), List.append_assoc (l.map _)] at hcont
  obtain ⟨m, -, hcont⟩ := Contiguous.append_iff.mp hcont
  by_cases hboundary : cursor = it.stop
  · -- the next interval begins at the cursor, and is not moved
    rw [if_pos hboundary] at hcont
    cases r with
    | nil =>
      have hend : it.stop = n := hr
      omega
    | cons j r =>
      have hj : j.start = it.stop := hr.1
      have hkept : unsplitSegment cursor bopomofo j = j.span :=
        if_neg fun hshift => absurd hshift.1 (by omega)
      have hnext : (unsplitSegment cursor bopomofo j).1 = cursor + bopomofo.length :=
        hcont.2.2.2.2.1
      rw [hkept] at hnext
      simp only [Interval.span] at hnext
      omega
  · -- the intervals behind are moved, the end of the split one is not
    rw [if_neg hboundary] at hcont
    have hright : ∀ j ∈ r, cursor < j.start := by
      intro j hj
      have hj := (hr.bounds j hj).1
      simp only [Interval.span] at hj hstop
      omega
    rw [map_unsplit_right hb hright] at hcont
    have hrest : Contiguous id it.stop (r.map (Interval.moved bopomofo.length))
        (n + bopomofo.length) := hcont.2.2.2.2.2.2
    have hshift := hrest.left_unique (contiguous_moved bopomofo.length hr)
    simp only [Interval.span] at hshift
    omega

/-- **The segments of the preedit** tile it exactly when there is no bopomofo or
it stands at one of the two ends. -/
theorem tiles_iff (h : Partitions intervals n) (hne : ∀ it ∈ intervals, it.start < it.stop)
    (hcursor : cursor ≤ n) :
    Tiles cursor bopomofo intervals n (compositionBuffer cursor bopomofo intervals).2
      ↔ bopomofo = [] ∨ cursor = 0 ∨ cursor = n := by
  constructor
  · intro htiles
    by_contra hcond
    simp only [not_or] at hcond
    exact not_contiguous_inside h hcond.1 (Nat.pos_of_ne_zero hcond.2.1)
      (lt_of_le_of_ne hcursor hcond.2.2) htiles.contiguous
  · intro hcond
    by_cases hb : bopomofo = []
    · subst hb
      rw [compositionBuffer_nil]
      refine ⟨contiguous_span h.contiguous, ?_, fun hb => absurd rfl hb, ?_⟩
      · intro s hs
        obtain ⟨it, hit, rfl⟩ := List.mem_map.mp hs
        exact hne it hit
      · intro s hs
        obtain ⟨it, hit, rfl⟩ := List.mem_map.mp hs
        exact .inr ⟨it, hit, .whole rfl⟩
    · -- at either end of the text no interval is split
      by_cases hzero : cursor = 0
      · subst hzero
        exact tiles_at_start h hne hb
      · rcases hcond with hcond | hcond | hcond
        · exact absurd hcond hb
        · exact absurd hcond hzero
        · subst hcond
          exact tiles_at_end h hne hb (Nat.pos_of_ne_zero hzero)

/-- A syllable typed behind two phrases. -/
theorem tiles_iff_behind :
    Tiles 3 "ㄅ".toList [⟨0, 1, "新".toList⟩, ⟨1, 3, "酷音".toList⟩] 3
        (compositionBuffer 3 "ㄅ".toList [⟨0, 1, "新".toList⟩, ⟨1, 3, "酷音".toList⟩]).2
      ↔ "ㄅ".toList = [] ∨ 3 = 0 ∨ 3 = 3 :=
  tiles_iff ⟨⟨rfl, by decide, rfl, by decide, rfl⟩, by decide⟩ (by decide) (by decide)

/-- A syllable typed between them: the segment of the second phrase is not moved
and overlaps that of the syllable. -/
theorem segments_overlap :
    ¬ ∀ (intervals : List Interval) (n cursor : Nat) (bopomofo : Str), Partitions intervals n →
      (∀ it ∈ intervals, it.start < it.stop) → cursor ≤ n → 0 < n + bopomofo.length →
      Tiles cursor bopomofo intervals n (compositionBuffer cursor bopomofo intervals).2 := by
  intro hclaim
  have htiles := hclaim [⟨0, 1, "新".toList⟩, ⟨1, 3, "酷音".toList⟩] 3 1 "ㄅ".toList
    ⟨⟨rfl, by decide, rfl, by decide, rfl⟩, by decide⟩ (by decide) (by decide) (by decide)
  have hsegments : (compositionBuffer 1 "ㄅ".toList
      [⟨0, 1, "新".toList⟩, ⟨1, 3, "酷音".toList⟩]).2 = [(0, 1), (1, 2), (1, 3)] := by decide
  have hcont := htiles.contiguous
  rw [hsegments] at hcont
  exact absurd hcont.2.2.2.2.1 (by decide)

end ChewingTsf
