import ChewingTsf.Tip.Ownership

/-!
# Text that no session takes back

Sessions write inside the active composition and at the caret, so what a document shows outside
its composition stays there, in its order, whatever the sessions do afterwards: `d.Extends e`
says that of a document `e` that comes from `d`. It holds of every call of a session, so of a
session that stops at any of its calls, and also if the application terminates the composition
from inside one: while a session relies on the range of its composition it holds the cells
borrowed, and then the termination ends the process before another call is made.
-/

namespace ChewingTsf

/-! ## Documents -/

namespace Document

/-- The caret and the composition lie in the text. -/
structure InBounds (d : Document) : Prop where
  selection : d.selection ≤ d.text.length
  composition : ∀ c r, d.composition = some (c, r) → r.start ≤ r.stop ∧ r.stop ≤ d.text.length

/-- What is finalised in `d` is finalised in `e`, in the same order. -/
structure Extends (d e : Document) : Prop where
  inBounds : e.InBounds
  finalised : d.finalised.Sublist e.finalised

variable {d e : Document}

theorem InBounds.extends_self (h : d.InBounds) : d.Extends d := ⟨h, .refl _⟩

theorem Extends.trans {f : Document} (h : d.Extends e) (h' : e.Extends f) : d.Extends f :=
  ⟨h'.inBounds, h.finalised.trans h'.finalised⟩

/-- An active composition in bounds splits the text in three. -/
theorem InBounds.shows (h : d.InBounds) {c : CompositionId} {r : TextRange}
    (hc : d.composition = some (c, r)) :
    ∃ left body right, d.Shows c left body right ∧ r = ⟨left.length, left.length + body.length⟩ := by
  obtain ⟨hle, hlen⟩ := h.composition c r hc
  rw [length_text_eq] at hlen
  have hstart : (d.units.take r.start).length = r.start :=
    List.length_take_of_le (Nat.le_trans hle hlen)
  have hbody : ((d.units.drop r.start).take (r.stop - r.start)).length = r.stop - r.start := by
    rw [List.length_take, List.length_drop]
    omega
  have hr : r = ⟨(d.units.take r.start).length, (d.units.take r.start).length +
      ((d.units.drop r.start).take (r.stop - r.start)).length⟩ := by
    rw [hstart, hbody, Nat.add_sub_cancel' hle]
  refine ⟨_, _, d.units.drop r.stop, ⟨?_, by rw [hc, ← hr]⟩, hr⟩
  have hright : d.units.drop r.stop = (d.units.drop r.start).drop (r.stop - r.start) := by
    rw [List.drop_drop, Nat.add_sub_cancel' hle]
  rw [hright, List.append_assoc, List.take_append_drop, List.take_append_drop]

theorem Shows.extends {c c' : CompositionId} {left body right left' body' right' : Wide}
    (h : d.Shows c left body right) (h' : e.Shows c' left' body' right')
    (hselection : e.selection ≤ e.text.length) (hsub : (left ++ right).Sublist (left' ++ right')) :
    d.Extends e := by
  refine ⟨⟨hselection, ?_⟩, ?_⟩
  · intro k r hr
    rw [h'.composition] at hr
    cases hr
    refine ⟨Nat.le_add_right _ _, ?_⟩
    rw [length_text_eq, h'.units, List.length_append, List.length_append]
    exact Nat.le_add_right _ _
  · rwa [h.finalised_eq, h'.finalised_eq]

theorem finalised_of_none (h : d.composition = none) : d.finalised = d.units := by
  rw [finalised, h]

theorem InBounds.finalised_sublist (h : d.InBounds) : d.finalised.Sublist d.units := by
  cases hc : d.composition with
  | none => rw [finalised_of_none hc]
  | some p =>
    obtain ⟨left, body, right, hshows, -⟩ := h.shows hc
    rw [hshows.finalised_eq, hshows.units]
    exact (List.sublist_append_left left body).append (.refl right)

/-- Without a composition all of the text is finalised. -/
theorem InBounds.extends_none (h : d.InBounds) (hunits : e.units = d.units)
    (hnone : e.composition = none) (hselection : e.selection ≤ e.text.length) : d.Extends e := by
  refine ⟨⟨hselection, fun c r hr => by rw [hnone] at hr; cases hr⟩, ?_⟩
  rw [finalised_of_none hnone, hunits]
  exact h.finalised_sublist

namespace InBounds

theorem endComposition (h : d.InBounds) : d.Extends d.endComposition :=
  h.extends_none rfl rfl h.selection

/-- Starting a composition finalises that of before. -/
theorem startComposition (h : d.InBounds) (c : CompositionId) :
    d.Extends (d.startComposition c) := by
  refine ⟨⟨h.selection, ?_⟩, ?_⟩
  · rintro k r hr
    cases hr
    exact ⟨Nat.le_refl _, h.selection⟩
  · have hfinalised : (d.startComposition c).finalised = d.units := List.take_append_drop _ _
    rw [hfinalised]
    exact h.finalised_sublist

theorem setAttr (h : d.InBounds) (r : TextRange) (a : Option Nat) : d.Extends (d.setAttr r a) := by
  have hlength : (d.setAttr r a).text.length = d.text.length := List.length_mapIdx
  refine ⟨⟨hlength ▸ h.selection, fun c q hq => hlength ▸ h.composition c q hq⟩, ?_⟩
  have hfinalised : (d.setAttr r a).finalised = d.finalised := by
    rw [finalised, finalised, units_setAttr]
    rfl
  rw [hfinalised]

theorem setSelection (h : d.InBounds) {r : TextRange} (hr : r.stop ≤ d.text.length) :
    d.Extends (d.setSelection r) :=
  ⟨⟨hr, h.composition⟩, .refl _⟩

/-- Replacing text leaves the caret in the text. -/
theorem selection_replaceText (h : d.InBounds) {r : TextRange} (hle : r.start ≤ r.stop)
    (hr : r.stop ≤ d.text.length) (t : Wide) :
    (d.replaceText r t).selection ≤ (d.replaceText r t).text.length := by
  have hlength : (d.replaceText r t).text.length
      = r.start + t.length + (d.text.length - r.stop) := by
    simp only [replaceText, List.length_append, List.length_take, List.length_map,
      List.length_drop]
    omega
  have hselection := h.selection
  rw [hlength]
  show (r.afterEdit t.length ⟨d.selection, d.selection⟩).stop ≤ _
  dsimp only [TextRange.afterEdit]
  split
  · omega
  · split <;> omega

/-- `SetText` on the range of the composition. -/
theorem replaceText (h : d.InBounds) {c : CompositionId} {r : TextRange}
    (hc : d.composition = some (c, r)) (t : Wide) :
    d.Extends (d.replaceText r t) ∧
      (d.replaceText r t).composition = some (c, ⟨r.start, r.start + t.length⟩) := by
  obtain ⟨hle, hlen⟩ := h.composition c r hc
  have hselection := h.selection_replaceText hle hlen t
  obtain ⟨left, body, right, hshows, rfl⟩ := h.shows hc
  exact ⟨hshows.extends (hshows.replaceText t) hselection (.refl _),
    (hshows.replaceText t).composition⟩

/-- The composition covers less than before, or nothing at all. -/
theorem narrowed (h : d.InBounds) {c k : CompositionId} {q p : TextRange}
    (hq : d.composition = some (c, q)) (hunits : e.units = d.units)
    (hselection : e.selection = d.selection) (hp : e.composition = some (k, p))
    (hle : p.start ≤ p.stop) (hlen : p.stop ≤ d.text.length)
    (hin : p.stop = p.start ∨ q.start ≤ p.start ∧ p.stop ≤ q.stop) : d.Extends e := by
  have hlength : e.text.length = d.text.length := by
    rw [length_text_eq, length_text_eq, hunits]
  refine ⟨⟨by rw [hselection, hlength]; exact h.selection, ?_⟩, ?_⟩
  · intro c' r hr
    rw [hp] at hr
    cases hr
    exact ⟨hle, hlength ▸ hlen⟩
  · have hfinalised : e.finalised = d.units.take p.start ++ d.units.drop p.stop := by
      rw [finalised, hp, hunits]
    rw [hfinalised]
    rcases hin with heq | ⟨hstart, hstop⟩
    · rw [heq, List.take_append_drop]
      exact h.finalised_sublist
    · rw [finalised, hq]
      exact (List.take_sublist_take_left hstart).append (List.drop_sublist_drop_left _ hstop)

/-- `ShiftStart` of the composition finalises what it passes. -/
theorem compositionShiftStart (h : d.InBounds) {r : TextRange} (hr : r.start ≤ d.text.length)
    (hle : ∀ c q, d.composition = some (c, q) → q.start ≤ r.start) :
    d.Extends (d.compositionShiftStart r) := by
  cases hc : d.composition with
  | none =>
    refine h.extends_none rfl ?_ h.selection
    simp only [Document.compositionShiftStart, hc, Option.map_none]
  | some p =>
    obtain ⟨c, q⟩ := p
    have hq := h.composition c q hc
    have hstart := hle c q hc
    refine h.narrowed hc rfl rfl (k := c) (p := ⟨r.start, max r.start q.stop⟩) ?_ ?_ ?_ ?_
    · simp only [Document.compositionShiftStart, hc, Option.map_some]
    · exact Nat.le_max_left _ _
    · exact Nat.max_le.mpr ⟨hr, hq.2⟩
    · rcases Nat.le_total r.start q.stop with hin | hout
      · exact .inr ⟨hstart, Nat.max_le.mpr ⟨hin, Nat.le_refl _⟩⟩
      · exact .inl (Nat.max_eq_left hout)

/-- `ShiftEnd` of the composition. -/
theorem compositionShiftEnd (h : d.InBounds) {r : TextRange}
    (hle : ∀ c q, d.composition = some (c, q) → q.start ≤ r.stop ∧ r.stop ≤ q.stop) :
    d.Extends (d.compositionShiftEnd r) := by
  cases hc : d.composition with
  | none =>
    refine h.extends_none rfl ?_ h.selection
    simp only [Document.compositionShiftEnd, hc, Option.map_none]
  | some p =>
    obtain ⟨c, q⟩ := p
    have hq := h.composition c q hc
    obtain ⟨hstart, hstop⟩ := hle c q hc
    refine h.narrowed hc rfl rfl (k := c) (p := ⟨q.start, r.stop⟩) ?_ hstart
      (Nat.le_trans hstop hq.2) (.inr ⟨Nat.le_refl _, hstop⟩)
    simp only [Document.compositionShiftEnd, hc, Option.map_some, Nat.min_eq_left hstart]

end InBounds

/-! ### Text inserted at a point -/

theorem units_insert {u v : Wide} (h : d.units = u ++ v) (t : Wide) :
    (d.replaceText ⟨u.length, u.length⟩ t).units = u ++ t ++ v := by
  rw [units_replaceText, h, List.take_left, List.drop_left]

namespace Shows

variable {c : CompositionId} {left body right u v : Wide}

theorem insert_left (h : d.Shows c (u ++ v) body right) (hv : v ≠ []) (t : Wide) :
    (d.replaceText ⟨u.length, u.length⟩ t).Shows c (u ++ t ++ v) body right where
  units := by
    rw [units_insert (v := v ++ body ++ right) (by simp [h.units]) t]
    simp
  composition := by
    have hpos := List.length_pos_of_ne_nil hv
    simp only [Document.replaceText, h.composition, Option.map_some, TextRange.afterEdit,
      List.length_append]
    rw [if_neg (by omega), if_neg (by omega), if_neg (by omega), if_neg (by omega)]
    congr 3 <;> omega

theorem insert_body (h : d.Shows c left (u ++ v) right) (t : Wide) :
    (d.replaceText ⟨(left ++ u).length, (left ++ u).length⟩ t).Shows c left (u ++ t ++ v)
      right where
  units := by
    rw [units_insert (v := v ++ right) (by simp [h.units]) t]
    simp
  composition := by
    simp only [Document.replaceText, h.composition, Option.map_some, TextRange.afterEdit,
      List.length_append]
    rw [if_pos (by omega), if_neg (by omega), if_neg (by omega)]
    congr 3
    omega

theorem insert_right (h : d.Shows c left body (u ++ v)) (hu : u ≠ []) (t : Wide) :
    (d.replaceText ⟨(left ++ body ++ u).length, (left ++ body ++ u).length⟩ t).Shows c left body
      (u ++ t ++ v) where
  units := by
    rw [units_insert (v := v) (by simp [h.units]) t]
    simp
  composition := by
    have hpos := List.length_pos_of_ne_nil hu
    simp only [Document.replaceText, h.composition, Option.map_some, TextRange.afterEdit,
      List.length_append]
    rw [if_pos (by omega), if_pos (by omega)]

end Shows

/-- Text inserted at a point finalises itself or joins the composition. -/
theorem InBounds.insert (h : d.InBounds) {i : Nat} (hi : i ≤ d.text.length) (t : Wide) :
    d.Extends (d.replaceText ⟨i, i⟩ t) := by
  have hselection := h.selection_replaceText (r := ⟨i, i⟩) (Nat.le_refl i) hi t
  cases hc : d.composition with
  | none =>
    have hnone : (d.replaceText ⟨i, i⟩ t).composition = none := by
      simp only [Document.replaceText, hc, Option.map_none]
    refine ⟨⟨hselection, fun c r hr => by rw [hnone] at hr; cases hr⟩, ?_⟩
    rw [finalised_of_none hc, finalised_of_none hnone, units_replaceText]
    have hsub : (d.units.take i ++ d.units.drop i).Sublist
        (d.units.take i ++ t ++ d.units.drop i) :=
      (List.sublist_append_left _ t).append (.refl _)
    rwa [List.take_append_drop] at hsub
  | some p =>
    obtain ⟨c, q⟩ := p
    obtain ⟨left, body, right, hshows, -⟩ := h.shows hc
    rw [length_text_eq, hshows.units, List.length_append, List.length_append] at hi
    rcases Nat.lt_or_ge i left.length with hleft | hleft
    · -- before the composition
      obtain ⟨u, v, rfl, rfl⟩ : ∃ u v, left = u ++ v ∧ u.length = i :=
        ⟨_, _, (List.take_append_drop i left).symm, List.length_take_of_le hleft.le⟩
      have hv : v ≠ [] := by
        rintro rfl
        simp at hleft
      exact hshows.extends (hshows.insert_left hv t) hselection (by simp)
    rcases Nat.lt_or_ge (left.length + body.length) i with hright | hin
    · -- after the composition
      obtain ⟨u, v, rfl, hu⟩ : ∃ u v, right = u ++ v ∧ u.length = i - (left.length + body.length) :=
        ⟨_, _, (List.take_append_drop _ right).symm, List.length_take_of_le (by omega)⟩
      have hne : u ≠ [] := by
        rintro rfl
        simp only [List.length_nil] at hu
        omega
      have hi : i = (left ++ body ++ u).length := by
        simp only [List.length_append]
        omega
      subst hi
      exact hshows.extends (hshows.insert_right hne t) hselection (by simp)
    · -- inside it
      obtain ⟨u, v, rfl, hu⟩ : ∃ u v, body = u ++ v ∧ u.length = i - left.length :=
        ⟨_, _, (List.take_append_drop _ body).symm, List.length_take_of_le (by omega)⟩
      have hi : i = (left ++ u).length := by
        simp only [List.length_append]
        omega
      subst hi
      exact hshows.extends (hshows.insert_body t) hselection (.refl _)

theorem composition_of_rangeOf {c : CompositionId} {r : TextRange} (h : d.rangeOf c = some r) :
    d.composition = some (c, r) := by
  unfold rangeOf at h
  split at h
  · next c' r' hc =>
    split at h
    · next hc' =>
      cases h
      rw [hc, hc']
    · cases h
  · cases h

end Document

/-! ## Sessions -/

open SessM

section Calls

variable {d : Document} {s : Session} {env : TsfEnv} {c : TsfCall}

/-- A call changes the document in one way only. -/
theorem wp_tryCall_of {P : Document → Prop} (hended : ∀ e, P e → P e.endComposition)
    (hs : P s.document) :
    wp (tryCall env c) (fun _ t => P t.document) (fun _ t => P t.document) s := by
  unfold tryCall compositionTerminatedTail
  rw [wp_get_bind, wp_modify_bind, wp_bind, wp_onlyIf]
  split
  · rw [wp_get_bind]
    split
    · rw [wp_modify]
      exact hended _ hs
    · exact hs
  · exact hs

theorem wp_call_of {P : Document → Prop} (hended : ∀ e, P e → P e.endComposition)
    (hs : P s.document) :
    wp (call env c) (fun _ t => P t.document) (fun _ t => P t.document) s := by
  unfold call
  rw [wp_bind]
  refine wp_mono (wp_tryCall_of hended hs) (fun ok t ht => ?_) fun _ t ht => ht
  cases ok with
  | true => exact ht
  | false => exact ht

/-- The range is that of the active composition. -/
theorem wp_getRange_of {P : Document → Prop} {c : CompositionId}
    (hended : ∀ e, P e → P e.endComposition) (hs : P s.document) :
    wp (getRange env c)
      (fun r t => P t.document ∧ t.document.composition = some (c, r))
      (fun _ t => P t.document) s := by
  unfold getRange
  rw [wp_bind]
  refine wp_mono (wp_call_of hended hs) (fun _ t ht => ?_) fun _ _ ht => ht
  rw [wp_get_bind]
  cases hrange : t.document.rangeOf c with
  | none => exact ht
  | some r => exact ⟨ht, Document.composition_of_rangeOf hrange⟩

/-- A call and what follows it. -/
theorem wp_call_bind_of {α : Type} {P : Document → Prop} {f : Unit → SessM α}
    {post : α → Session → Prop} {exc : SessionExit → Session → Prop}
    (hended : ∀ e, P e → P e.endComposition) (hs : P s.document)
    (hexc : ∀ e t, P t.document → exc e t) (h : ∀ t, P t.document → wp (f ()) post exc t) :
    wp (call env c >>= f) post exc s := by
  rw [wp_bind]
  exact wp_mono (wp_call_of hended hs) (fun _ t ht => h t ht) hexc

/-- While the session holds its cells, a call returns with the document as it was or not at
all. -/
theorem wp_tryCall_held (h : s.pending.flag ≠ .unused) : wp (tryCall env c)
    (fun _ t => t.document = s.document ∧ t.pending.flag ≠ .unused)
    (fun _ t => t.document = s.document) s := by
  unfold tryCall compositionTerminatedTail
  rw [wp_get_bind, wp_modify_bind, wp_bind, wp_onlyIf]
  split
  · rw [wp_get_bind, RefCell.replace, if_neg h]
    exact rfl
  · exact ⟨rfl, h⟩

theorem wp_call_held (h : s.pending.flag ≠ .unused) : wp (call env c)
    (fun _ t => t.document = s.document ∧ t.pending.flag ≠ .unused)
    (fun _ t => t.document = s.document) s := by
  unfold call
  rw [wp_bind]
  refine wp_mono (wp_tryCall_held h) (fun ok t ht => ?_) fun _ t ht => ht
  cases ok with
  | true => exact ht
  | false => exact ht.1

end Calls

/-- Wherever the program ends, what was finalised still is. -/
def Keeping {α : Type} (m : SessM α) : Prop :=
  ∀ (d : Document) (s : Session), d.Extends s.document →
    wp m (fun _ t => d.Extends t.document) (fun _ t => d.Extends t.document) s

namespace Keeping

variable {α β : Type}

theorem bind {m : SessM α} {f : α → SessM β} (h : Keeping m) (h' : ∀ a, Keeping (f a)) :
    Keeping (m >>= f) := by
  intro d s hs
  rw [wp_bind]
  exact wp_mono (h d s hs) (fun a t ht => h' a d t ht) fun _ _ ht => ht

theorem pure (a : α) : Keeping (pure a : SessM α) := fun _ _ hs => hs

theorem tryCall (env : TsfEnv) (c : TsfCall) : Keeping (SessM.tryCall env c) :=
  fun _ _ hs => wp_tryCall_of (fun _ he => he.trans he.inBounds.endComposition) hs

theorem call (env : TsfEnv) (c : TsfCall) : Keeping (SessM.call env c) :=
  fun _ _ hs => wp_call_of (fun _ he => he.trans he.inBounds.endComposition) hs

/-- A change of the document. -/
theorem modify {g : Session → Session}
    (h : ∀ s : Session, s.document.InBounds → s.document.Extends (g s).document) :
    Keeping (modify g : SessM Unit) :=
  fun _ s hs => hs.trans (h s hs.inBounds)

theorem onlyIf {b : Bool} {m : SessM Unit} (h : Keeping m) : Keeping (onlyIf b m) := by
  cases b with
  | true => exact h
  | false => exact pure ()

theorem replaceComposition (v : Option CompositionId) :
    Keeping (SessM.replaceComposition v) := by
  intro d s hs
  unfold SessM.replaceComposition
  rw [wp_get_bind]
  cases s.composition.replace v with
  | none => exact hs
  | some cell => exact hs

end Keeping

/-! ### `InsertText` -/

/-- It extends `d`, and its text is `text`. -/
def Document.ExtendsBy (d : Document) (text : List TextUnit) (e : Document) : Prop :=
  d.Extends e ∧ e.text = text

theorem Document.ExtendsBy.endComposition {d e : Document} {text : List TextUnit}
    (h : d.ExtendsBy text e) : d.ExtendsBy text e.endComposition :=
  ⟨h.1.trans h.1.inBounds.endComposition, h.2⟩

theorem Keeping.insertText (env : TsfEnv) (text : Wide) :
    Keeping (InsertText.doEditSession env text) := by
  unfold InsertText.doEditSession
  refine (call env _).bind fun _ => (call env _).bind fun _ => ?_
  intro d s hs
  rw [wp_get_bind, wp_modify_bind]
  have hinserted := hs.inBounds.insert hs.inBounds.selection text
  have hlength : (s.document.replaceText ⟨s.document.selection, s.document.selection⟩
      text).text.length = s.document.text.length + text.length := by
    have hselection := hs.inBounds.selection
    simp only [Document.replaceText, List.length_append, List.length_take, List.length_map,
      List.length_drop]
    omega
  have hended : ∀ {text} (e : Document), d.ExtendsBy text e → d.ExtendsBy text e.endComposition :=
    fun _ he => he.endComposition
  refine wp_call_bind_of (P := d.ExtendsBy _) hended ⟨hs.trans hinserted, rfl⟩
    (fun _ _ ht => ht.1) fun t ht => ?_
  refine wp_call_bind_of hended ht (fun _ _ hu => hu.1) fun u hu => ?_
  rw [wp_modify]
  refine hu.1.trans (hu.1.inBounds.setSelection ?_)
  rw [hu.2, hlength]
  exact Nat.add_le_add_right hs.inBounds.selection _

/-! ### `EndComposition` -/

/-- It extends `d`, its text has `n` units, and the composition covers `q`, if there is one. -/
structure Document.ExtendsAt (d : Document) (n : Nat) (q : TextRange) (e : Document) : Prop where
  extend : d.Extends e
  length : e.text.length = n
  range : ∀ c r, e.composition = some (c, r) → r = q

theorem Document.ExtendsAt.endComposition {d e : Document} {n : Nat} {q : TextRange}
    (h : d.ExtendsAt n q e) : d.ExtendsAt n q e.endComposition :=
  ⟨h.extend.trans h.extend.inBounds.endComposition, h.length, nofun⟩

theorem Keeping.willEndComposition (env : TsfEnv) (c : CompositionId) :
    Keeping (EndComposition.willEndComposition env c) := by
  intro d s hs
  have hended : ∀ {n q} (e : Document), d.ExtendsAt n q e → d.ExtendsAt n q e.endComposition :=
    fun _ he => he.endComposition
  unfold EndComposition.willEndComposition
  rw [wp_bind]
  refine wp_mono (wp_getRange_of (fun _ he => he.trans he.inBounds.endComposition) hs)
    (fun r t ht => ?_) fun _ _ ht => ht
  obtain ⟨ht, hr⟩ := ht
  obtain ⟨hle, hlen⟩ := ht.inBounds.composition c r hr
  have hat : d.ExtendsAt t.document.text.length r t.document :=
    ⟨ht, rfl, fun c' r' h' => by rw [hr] at h'; cases h'; rfl⟩
  -- whichever call fails or ends the composition, what stands outside it stays
  refine wp_call_bind_of hended hat (fun _ _ h => h.extend) fun t₁ h₁ => ?_
  refine wp_call_bind_of hended h₁ (fun _ _ h => h.extend) fun t₂ h₂ => ?_
  have h₃ : d.ExtendsAt t.document.text.length r (t₂.document.setAttr r none) :=
    ⟨h₂.extend.trans (h₂.extend.inBounds.setAttr r none), List.length_mapIdx.trans h₂.length,
      h₂.range⟩
  rw [wp_modify_bind]
  refine wp_call_bind_of hended h₃ (fun _ _ h => h.extend) fun t₄ h₄ => ?_
  refine wp_call_bind_of hended h₄ (fun _ _ h => h.extend) fun t₅ h₅ => ?_
  rw [wp_modify_bind]
  -- the composition moves behind its text, which is final from here on
  have hshifted : d.ExtendsAt t.document.text.length ⟨r.stop, r.stop⟩
      (t₅.document.compositionShiftStart r.collapseEnd) := by
    refine ⟨h₅.extend.trans (h₅.extend.inBounds.compositionShiftStart ?_ ?_), h₅.length, ?_⟩
    · rw [h₅.length]
      exact hlen
    · intro c' q hq
      rw [h₅.range c' q hq]
      exact hle
    · intro c' q hq
      cases hc : t₅.document.composition with
      | none => simp [Document.compositionShiftStart, hc] at hq
      | some p =>
        obtain ⟨k, q'⟩ := p
        rw [h₅.range k q' hc] at hc
        simp only [Document.compositionShiftStart, hc, Option.map_some, Option.some.injEq,
          Prod.mk.injEq, TextRange.collapseEnd, Nat.max_self] at hq
        exact hq.2.symm
  refine wp_call_bind_of hended hshifted (fun _ _ h => h.extend) fun t₆ h₆ => ?_
  rw [wp_modify_bind]
  have hended' : d.ExtendsBy t₆.document.text (t₆.document.compositionShiftEnd r.collapseEnd) := by
    refine ⟨h₆.extend.trans (h₆.extend.inBounds.compositionShiftEnd ?_), rfl⟩
    intro c' q hq
    rw [h₆.range c' q hq]
    exact ⟨Nat.le_refl _, Nat.le_refl _⟩
  refine wp_call_bind_of (P := d.ExtendsBy _) (fun _ he => he.endComposition) hended'
    (fun _ _ h => h.1) fun t₇ h₇ => ?_
  rw [wp_modify]
  refine h₇.1.trans (h₇.1.inBounds.setSelection ?_)
  rw [h₇.2, h₆.length]
  exact hlen

theorem Keeping.endComposition (env : TsfEnv) : Keeping (EndComposition.doEditSession env) := by
  unfold EndComposition.doEditSession
  intro d s hs
  rw [wp_get_bind, wp_bind]
  refine wp_mono (replaceComposition none d s hs) (fun _ t ht => ?_) fun _ _ ht => ht
  cases s.composition.value with
  | none => exact ht
  | some c =>
    refine ((willEndComposition env c).bind fun _ => (call env _).bind fun _ => modify ?_) d t ht
    exact fun _ h => h.endComposition

/-! ### `SetCompositionString` -/

namespace Keeping

open SetCompositionString

theorem startNewComposition (env : TsfEnv) :
    Keeping (SetCompositionString.startNewComposition env) := by
  refine (call env _).bind fun _ => (call env _).bind fun _ => (call env _).bind fun _ =>
    (call env _).bind fun _ => ?_
  intro d s hs
  rw [wp_get_bind, wp_modify_bind]
  exact replaceComposition _ d _ (hs.trans (hs.inBounds.startComposition _))

theorem setSegments (env : TsfEnv) (range : TextRange) (segs : List (Nat × Nat)) (i : Nat) :
    Keeping (SetCompositionString.setSegments env range segs i) := by
  induction segs generalizing i with
  | nil => exact pure ()
  | cons seg segs ih =>
    unfold SetCompositionString.setSegments
    refine (call env _).bind fun _ => (call env _).bind fun _ => (call env _).bind fun _ =>
      (call env _).bind fun _ => ?_
    intro d s hs
    rw [wp_get_bind]
    refine ((tryCall env _).bind fun _ => (onlyIf (modify ?_)).bind fun _ => ih (i + 1)) d s hs
    exact fun _ h => h.setAttr _ _

theorem setCursor (env : TsfEnv) (range : TextRange) (cursor : Nat) :
    Keeping (SetCompositionString.setCursor env range cursor) := by
  refine (call env _).bind fun _ => (call env _).bind fun _ => (call env _).bind fun _ =>
    (call env _).bind fun _ => ?_
  intro d s hs
  rw [wp_get_bind]
  refine wp_call_bind_of (P := d.ExtendsBy s.document.text) (fun _ he => he.endComposition)
    ⟨hs, rfl⟩ (fun _ _ ht => ht.1) fun t ht => ?_
  rw [wp_modify]
  refine ht.1.trans (ht.1.inBounds.setSelection ?_)
  rw [ht.2]
  show max (min _ s.document.text.length) (min _ s.document.text.length) ≤ _
  exact Nat.max_le.mpr ⟨Nat.min_le_right _ _, Nat.min_le_right _ _⟩

end Keeping

/-- A call while the cells are held, and what follows it. -/
theorem wp_call_held_bind {α : Type} {env : TsfEnv} {c : TsfCall} {s : Session}
    {f : Unit → SessM α} {post : α → Session → Prop} {exc : SessionExit → Session → Prop}
    (h : s.pending.flag ≠ .unused) (hexc : ∀ e t, t.document = s.document → exc e t)
    (hnext : ∀ t, t.document = s.document → t.pending.flag ≠ .unused → wp (f ()) post exc t) :
    wp (call env c >>= f) post exc s := by
  rw [wp_bind]
  exact wp_mono (wp_call_held h) (fun _ t ht => hnext t ht.1 ht.2) hexc

/-- `SetText` while the cells are held: the composition covers the range that is returned. -/
theorem wp_setText_held {d : Document} {env : TsfEnv} {c : CompositionId} {r : TextRange}
    {text : Wide} {s : Session} (hs : d.Extends s.document) (h : s.pending.flag ≠ .unused)
    (hr : s.document.composition = some (c, r)) :
    wp (SetCompositionString.setText env r text)
      (fun r' t => d.Extends t.document ∧ t.document.composition = some (c, r') ∧
        t.pending.flag ≠ .unused)
      (fun _ t => d.Extends t.document) s := by
  unfold SetCompositionString.setText
  rw [wp_bind]
  refine wp_mono (wp_tryCall_held h) (fun ok t ht => ?_) fun _ t ht => by rwa [ht]
  cases ok with
  | true =>
    show wp (_ >>= _) _ _ t
    rw [wp_modify_bind, wp_pure]
    have hreplaced := hs.inBounds.replaceText hr text
    rw [← ht.1] at hreplaced hs
    exact ⟨hs.trans hreplaced.1, hreplaced.2, ht.2⟩
  | false =>
    rw [← ht.1] at hs hr
    exact ⟨hs, hr, ht.2⟩

/-- The second block, while the cells are held. -/
theorem wp_setCommitAndPreedit_held {d : Document} {env : TsfEnv} {c : CompositionId}
    {p : CompositionString} {s : Session} (hs : d.Extends s.document)
    (h : s.pending.flag ≠ .unused) :
    wp (SetCompositionString.setCommitAndPreedit env c p) (fun _ t => d.Extends t.document)
      (fun _ t => d.Extends t.document) s := by
  have hsame : ∀ {u : Session}, d.Extends u.document → ∀ (_ : SessionExit) (t : Session),
      t.document = u.document → d.Extends t.document := fun hu _ _ ht => by rwa [ht]
  unfold SetCompositionString.setCommitAndPreedit getRange
  rw [wp_bind]
  refine wp_call_held_bind h (hsame hs) fun t₁ h₁ held₁ => ?_
  rw [← h₁] at hs
  rw [wp_get_bind]
  cases hrange : t₁.document.rangeOf c with
  | none => exact hs
  | some r =>
    show wp (_ >>= _) _ _ t₁
    rw [wp_bind]
    refine wp_mono (wp_setText_held hs held₁ (Document.composition_of_rangeOf hrange))
      (fun r t₂ h₂ => ?_) fun _ _ ht => ht
    obtain ⟨h₂, hr, held₂⟩ := h₂
    refine wp_call_held_bind held₂ (hsame h₂) fun t₃ h₃ held₃ => ?_
    rw [← h₃] at h₂ hr
    rw [wp_get_bind]
    refine wp_call_held_bind held₃ (hsame h₂) fun t₄ h₄ held₄ => ?_
    -- what `ShiftStart` has passed is finalised
    obtain ⟨hle, hlen⟩ := h₂.inBounds.composition c r hr
    have hshifted : t₃.document.Extends (t₃.document.compositionShiftStart
        (r.shiftStart t₃.document.text.length p.commit.length)) := by
      refine h₂.inBounds.compositionShiftStart (Nat.min_le_right _ _) fun c' q hq => ?_
      rw [hr] at hq
      cases hq
      exact Nat.le_min.mpr ⟨Nat.le_add_right _ _, Nat.le_trans hle hlen⟩
    rw [← h₄] at hshifted h₂
    rw [wp_modify_bind]
    refine ((Keeping.call env _).bind fun _ => (Keeping.setSegments env _ _ _).bind fun _ =>
      Keeping.setCursor env _ _) d _ ?_
    rw [h₄] at hshifted h₂ ⊢
    exact h₂.trans hshifted

/-- The `if let` chain takes the guards, so the calls inside it are made while the cells are
held. -/
theorem Keeping.withGuards {body : CompositionId → CompositionString → SessM Unit}
    (h : ∀ c p (d : Document) (s : Session), d.Extends s.document → s.pending.flag ≠ .unused →
      wp (body c p) (fun _ t => d.Extends t.document) (fun _ t => d.Extends t.document) s) :
    Keeping (SessM.withGuards body) := by
  intro d s hs
  unfold SessM.withGuards
  rw [wp_get_bind]
  cases s.composition.flag.borrow with
  | none => exact hs
  | some f =>
    cases hg : s.pending.flag.borrow with
    | none => exact hs
    | some g =>
      dsimp only
      have hheld : g ≠ .unused := by
        rintro rfl
        cases hf : s.pending.flag <;> simp [hf, BorrowFlag.borrow] at hg
      rw [wp_modify_bind]
      cases s.composition.value with
      | none => exact hs
      | some c =>
        cases s.pending.value with
        | none => exact hs
        | some p =>
          dsimp only
          rw [wp_bind, wp_tryCatch]
          exact wp_mono (h c p d _ hs hheld) (fun _ t ht => ht) fun _ t ht => ht

theorem Keeping.setCompositionString (env : TsfEnv) :
    Keeping (SetCompositionString.doEditSession env) := by
  intro d s hs
  unfold SetCompositionString.doEditSession peekComposition peekPending
  rw [wp_bind, wp_get_bind]
  cases s.composition.flag.borrow with
  | none => exact hs
  | some _ =>
    rw [wp_pure, wp_bind, wp_get_bind]
    cases s.pending.flag.borrow with
    | none => exact hs
    | some _ =>
      refine ((Keeping.startNewComposition env).onlyIf.bind fun _ =>
        Keeping.withGuards fun c p d s hs h => ?_) d s hs
      exact wp_setCommitAndPreedit_held hs h

/-! ## The store -/

theorem Keeping.final {m : SessM Unit} (h : Keeping m) {s : Session}
    (hs : s.document.InBounds) : s.document.Extends (m.final s).document :=
  final_of_wp_always (fun t => s.document.Extends t.document) (h s.document s hs.extends_self)

theorem EditSession.extends_runWith (env : TsfEnv) {σ : Store} (h : σ.document.InBounds)
    (s : EditSession) : σ.document.Extends (s.runWith env σ).document := by
  cases s with
  | insertText text => exact (Keeping.insertText env text).final (s := σ.session none none) h
  | setCompositionString c p => exact (Keeping.setCompositionString env).final (s := σ.session _ _) h
  | endComposition c => exact (Keeping.endComposition env).final (s := σ.session _ _) h

/-- What happens to the document and the shared cells. -/
inductive StoreStep where
  /-- TSF runs a session and answers its calls -/
  | session (s : EditSession) (env : TsfEnv)
  /-- the service writes a cell -/
  | pending (p : CellId) (v : Option CompositionString)
  | composition (c : CellId) (v : Option CompositionId)
  /-- TSF ends the composition -/
  | terminate
  /-- the user types without the service, and moves the caret -/
  | type (i : Nat) (text : Wide)
  | select (i : Nat)

namespace Store

def next (σ : Store) : StoreStep → Store
  | .session s env => s.runWith env σ
  | .pending p v => σ.setPending p v
  | .composition c v => σ.setComposition c v
  | .terminate => { σ with document := σ.document.endComposition }
  | .type i text => { σ with document := σ.document.replaceText ⟨i, i⟩ text }
  | .select i => { σ with document := σ.document.setSelection ⟨i, i⟩ }

/-- The user types inside the text. -/
def Possible (σ : Store) : StoreStep → Prop
  | .type i _ | .select i => i ≤ σ.document.text.length
  | _ => True

def Step (σ : Store) (a : StoreStep) (σ' : Store) : Prop := σ.Possible a ∧ σ' = σ.next a

/-- **One step** takes back no text. -/
theorem extends_next {σ : Store} (h : σ.document.InBounds) {a : StoreStep} (hpossible : σ.Possible a) :
    σ.document.Extends (σ.next a).document := by
  cases a with
  | session s env => exact s.extends_runWith env h
  | pending p v | composition c v => exact h.extends_self
  | terminate => exact h.endComposition
  | type i text => exact h.insert hpossible text
  | select i => exact h.setSelection hpossible

/-- **No session takes back text**, in whatever order sessions run, whichever of their calls
fail, wherever the application terminates the composition, and whatever the user types. -/
theorem extends_run {σ σ' : Store} (h : σ.document.InBounds) {ls : List StoreStep}
    (hrun : Run Step σ ls σ') : σ.document.Extends σ'.document := by
  refine hrun.invariant (I := fun t => σ.document.Extends t.document) h.extends_self ?_
  rintro t a _ ht ⟨hpossible, rfl⟩
  exact ht.trans (extends_next ht.inBounds hpossible)

end Store

end ChewingTsf
