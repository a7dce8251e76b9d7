import Mathlib.Logic.Function.Basic
import ChewingTsf.Tip.EditSession

/-!
# Requested edit sessions

The cells that sessions and service share (`Rc<RefCell<..>>`) have an identity
here, and the `Store` holds their contents together with the document. An
`EditSession` is a session as it was requested; `EditSession.run` runs it
undisturbed, with every call succeeding.

What a run does is stated on the view of one composition cell:
`View σ A left body right` says that the document of `σ` is `left body right`
and that either cell `A` holds the composition that covers `body`, or there is
no composition, `A` is empty and the caret stands between `left` and `right`.
A `SetCompositionString` session moves what `CompositionString.committed` says
to `left` and leaves `CompositionString.composed` as the body; `EndComposition`
moves the body to `left`.
-/

namespace ChewingTsf

/-- The identity of an `Rc<RefCell<..>>`. -/
abbrev CellId := Nat

/-- An edit session object, with the cells and the data it was given. -/
inductive EditSession where
  | insertText (text : Wide)
  | setCompositionString (composition pending : CellId)
  | endComposition (composition : CellId)
  deriving DecidableEq

/-- The composition cell a session writes. -/
def EditSession.compositionCell : EditSession → Option CellId
  | .insertText _ => none
  | .setCompositionString c _ => some c
  | .endComposition c => some c

/-- The pending cell a session owns. -/
def EditSession.pendingCell : EditSession → Option CellId
  | .setCompositionString _ p => some p
  | _ => none

/-- The document and the contents of the shared cells. -/
structure Store where
  document : Document
  compositions : CellId → Option CompositionId
  pendings : CellId → Option CompositionString
  nextComposition : CompositionId

namespace Store

/-- The contents of a pending cell are replaced. -/
def setPending (σ : Store) (p : CellId) (v : Option CompositionString) : Store :=
  { σ with pendings := Function.update σ.pendings p v }

theorem isSome_setPending {σ : Store} {p q : CellId} (cs : CompositionString)
    (h : p = q ∨ (σ.pendings p).isSome) : ((σ.setPending q (some cs)).pendings p).isSome := by
  show (Function.update σ.pendings q (some cs) p).isSome
  by_cases hpq : p = q
  · rw [hpq, Function.update_self]
    rfl
  · rw [Function.update_of_ne hpq]
    exact h.resolve_left hpq

/-- The contents of a composition cell are replaced. -/
def setComposition (σ : Store) (c : CellId) (v : Option CompositionId) : Store :=
  { σ with compositions := Function.update σ.compositions c v }

/-- A session of the given cells, before its first call. -/
def session (σ : Store) (composition : Option CompositionId)
    (pending : Option CompositionString) : Session :=
  Session.start σ.document composition pending σ.nextComposition

/-- The store when a session of the given composition cell has ended. -/
def settle (σ : Store) (composition : CellId) (s : Session) : Store :=
  { σ with
    document := s.document
    compositions := Function.update σ.compositions composition s.composition.value
    nextComposition := s.nextComposition }

end Store

open SessM in
/-- Running a session undisturbed. -/
def EditSession.run (σ : Store) : EditSession → Store
  | .insertText text =>
    { σ with document :=
        ((InsertText.doEditSession .quiet text).final (σ.session none none)).document }
  | .setCompositionString c p =>
    σ.settle c ((SetCompositionString.doEditSession .quiet).final
      (σ.session (σ.compositions c) (σ.pendings p)))
  | .endComposition c =>
    σ.settle c ((EndComposition.doEditSession .quiet).final (σ.session (σ.compositions c) none))

namespace CompositionString

/-- What the session writes. -/
def text (p : CompositionString) : Wide := utf16 (p.commit ++ p.preedit)

/-- The part of it that `ShiftStart` by `commit.chars().count()` passes. -/
def committed (p : CompositionString) : Wide := p.text.take p.commit.length

/-- The part of it that stays in the composition. -/
def composed (p : CompositionString) : Wide := p.text.drop p.commit.length

theorem committed_append_composed (p : CompositionString) :
    p.committed ++ p.composed = p.text := List.take_append_drop _ _

theorem committed_of_bmp {p : CompositionString} (h : Bmp p.commit) :
    p.committed = utf16 p.commit := h.take_utf16 _

theorem composed_of_bmp {p : CompositionString} (h : Bmp p.commit) :
    p.composed = utf16 p.preedit := h.drop_utf16 _

/-- The preedit always stays in the composition. -/
theorem composed_eq (p : CompositionString) : ∃ w, p.composed = w ++ utf16 p.preedit := by
  have hle : p.commit.length ≤ (utf16 p.commit).length := length_le_length_utf16 p.commit
  refine ⟨(utf16 p.commit).drop p.commit.length, ?_⟩
  rw [composed, text, utf16_append, List.drop_append_of_le_length hle]

end CompositionString

/-! ## The calls of an undisturbed session -/

open SessM

/-- A session in which the call `c` has been recorded. -/
def Session.record (s : Session) (c : TsfCall) : Session :=
  { s with calls := s.calls ++ [⟨c, s.composition.flag, s.pending.flag, false⟩] }

/-- Two sessions with the same cells. -/
structure Session.SameCells (s t : Session) : Prop where
  composition : t.composition = s.composition
  pending : t.pending = s.pending
  nextComposition : t.nextComposition = s.nextComposition

theorem Session.SameCells.refl (s : Session) : s.SameCells s := ⟨rfl, rfl, rfl⟩

theorem Session.SameCells.trans {s t u : Session} (h : s.SameCells t) (h' : t.SameCells u) :
    s.SameCells u :=
  ⟨h'.composition.trans h.composition, h'.pending.trans h.pending,
    h'.nextComposition.trans h.nextComposition⟩

section Quiet

variable {post : Unit → Session → Prop} {exc : SessionExit → Session → Prop} {s : Session}

theorem wp_tryCall_quiet {c : TsfCall} {post : Bool → Session → Prop} :
    wp (tryCall .quiet c) post exc s ↔ post true (s.record c) := Iff.rfl

/-- A call and what follows it. -/
theorem wp_call_bind {α : Type} {c : TsfCall} {f : Unit → SessM α} {post : α → Session → Prop} :
    wp (call .quiet c >>= f) post exc s ↔ wp (f ()) post exc (s.record c) := Iff.rfl

theorem wp_modify_bind {α : Type} {g : Session → Session} {f : Unit → SessM α}
    {post : α → Session → Prop} :
    wp ((modify g : SessM Unit) >>= f) post exc s ↔ wp (f ()) post exc (g s) := Iff.rfl

theorem wp_get_bind {α : Type} {f : Session → SessM α} {post : α → Session → Prop} :
    wp (get >>= f) post exc s ↔ wp (f s) post exc s := Iff.rfl

/-- However the session ends, it ends in a state that satisfies `post`. -/
theorem final_of_wp_always {m : SessM Unit} (post : Session → Prop)
    (h : wp m (fun _ t => post t) (fun _ t => post t) s) : post (m.final s) := by
  unfold wp at h
  unfold SessM.final
  cases hm : m s <;> rw [hm] at h <;> exact h

/-- The session reaches its end, in a state that satisfies `post`. -/
theorem final_of_wp {m : SessM Unit} (post : Session → Prop)
    (h : wp m (fun _ t => post t) (fun _ _ => False) s) : post (m.final s) :=
  final_of_wp_always post (wp_mono h (fun _ _ ht => ht) fun _ _ hf => hf.elim)

end Quiet

namespace SetCompositionString

variable {c : CompositionId} {left body right : Wide} {s : Session}

/-- What setting attributes preserves, and the cells. -/
theorem wp_setSegments_quiet {P : Document → Prop}
    (hattr : ∀ d r a, P d → P (Document.setAttr d r a)) {range : TextRange} :
    ∀ {segs : List (Nat × Nat)} {i : Nat} {s : Session}, P s.document →
      wp (setSegments .quiet range segs i) (fun _ t => P t.document ∧ s.SameCells t)
        (fun _ _ => False) s
  | [], _, s, h => ⟨h, .refl s⟩
  | seg :: segs, i, s, h => by
    unfold setSegments
    rw [wp_call_bind, wp_call_bind, wp_call_bind, wp_call_bind, wp_get_bind, wp_bind,
      wp_tryCall_quiet, wp_bind, wp_onlyIf, if_pos rfl, wp_modify]
    refine wp_mono (wp_setSegments_quiet hattr (hattr _ _ _ h)) (fun _ t ht => ?_)
      fun _ _ hf => hf
    exact ⟨ht.1, ⟨ht.2.composition, ht.2.pending, ht.2.nextComposition⟩⟩

theorem wp_setCursor_quiet {P : Document → Prop}
    (hselection : ∀ d r, P d → P (Document.setSelection d r)) {range : TextRange} {cursor : Nat}
    (h : P s.document) :
    wp (setCursor .quiet range cursor) (fun _ t => P t.document ∧ s.SameCells t)
      (fun _ _ => False) s := by
  unfold setCursor
  rw [wp_call_bind, wp_call_bind, wp_call_bind, wp_call_bind, wp_get_bind, wp_call_bind,
    wp_modify]
  exact ⟨hselection _ _ h, ⟨rfl, rfl, rfl⟩⟩

theorem wp_getRange_quiet {post : TextRange → Session → Prop}
    {exc : SessionExit → Session → Prop} (h : s.document.Shows c left body right) :
    wp (getRange .quiet c) post exc s ↔
      post ⟨left.length, left.length + body.length⟩ (s.record .getRange) := by
  unfold getRange
  rw [wp_call_bind, wp_get_bind]
  simp only [Session.record, h.rangeOf_eq]
  exact wp_pure

theorem wp_setText_quiet {range : TextRange} {text : Wide} {post : TextRange → Session → Prop}
    {exc : SessionExit → Session → Prop} :
    wp (setText .quiet range text) post exc s ↔
      post ⟨range.start, range.start + text.length⟩
        { s.record .setText with document := s.document.replaceText range text } := Iff.rfl

/-- The second block on an active composition. -/
theorem wp_setCommitAndPreedit_quiet {p : CompositionString}
    (h : s.document.Shows c left body right) :
    wp (setCommitAndPreedit .quiet c p)
      (fun _ t => t.document.Shows c (left ++ p.committed) p.composed right ∧ s.SameCells t)
      (fun _ _ => False) s := by
  have htext : (s.document.replaceText ⟨left.length, left.length + body.length⟩ p.text).Shows c
      left (p.committed ++ p.composed) right := by
    rw [p.committed_append_composed]
    exact h.replaceText p.text
  -- `ShiftStart` stays inside the text just written
  have hle : p.commit.length ≤ p.text.length := by
    have hle := length_le_length_utf16 (p.commit ++ p.preedit)
    rw [List.length_append] at hle
    exact Nat.le_trans (Nat.le_add_right _ _) hle
  have hlength : p.committed.length = p.commit.length := List.length_take_of_le hle
  have hrange : TextRange.shiftStart
      (s.document.replaceText ⟨left.length, left.length + body.length⟩ p.text).text.length
      p.commit.length ⟨left.length, left.length + p.text.length⟩
        = ⟨left.length + p.committed.length, left.length + p.text.length⟩ := by
    rw [Document.length_text_eq, htext.units, p.committed_append_composed, hlength]
    simp only [TextRange.shiftStart, List.length_append, TextRange.mk.injEq]
    omega
  unfold setCommitAndPreedit
  rw [wp_bind, wp_getRange_quiet h, wp_bind, wp_setText_quiet, wp_call_bind, wp_get_bind,
    wp_call_bind, wp_modify_bind, wp_call_bind, wp_bind]
  simp only [Session.record]
  have hshift := htext.compositionShiftStart (left.length + p.text.length)
  rw [← hrange] at hshift
  refine wp_mono (wp_setSegments_quiet (P := fun d => d.Shows c _ _ right)
    (fun _ _ _ hd => hd.setAttr _ _) hshift) (fun _ t ht => ?_) fun _ _ hf => hf
  refine wp_mono (wp_setCursor_quiet (P := fun d => d.Shows c _ _ right)
    (fun _ _ hd => hd.setSelection _) ht.1) (fun _ u hu => ?_) fun _ _ hf => hf
  have hcells := ht.2.trans hu.2
  exact ⟨hu.1, ⟨hcells.composition, hcells.pending, hcells.nextComposition⟩⟩

/-- The second block leaves the cells alone, whatever the document shows and even
if the composition is gone. -/
theorem wp_setCommitAndPreedit_cells (c : CompositionId) (p : CompositionString) (s : Session) :
    wp (setCommitAndPreedit .quiet c p) (fun _ t => s.SameCells t) (fun _ t => s.SameCells t)
      s := by
  unfold setCommitAndPreedit getRange
  rw [wp_bind, wp_call_bind, wp_get_bind]
  cases (s.record .getRange).document.rangeOf c with
  | none => exact ⟨rfl, rfl, rfl⟩
  | some range =>
    dsimp only
    rw [wp_pure, wp_bind, wp_setText_quiet, wp_call_bind, wp_get_bind, wp_call_bind,
      wp_modify_bind, wp_call_bind, wp_bind]
    refine wp_mono (wp_setSegments_quiet (P := fun _ => True) (fun _ _ _ _ => trivial) trivial)
      (fun _ t ht => ?_) fun _ _ hf => hf.elim
    refine wp_mono (wp_setCursor_quiet (P := fun _ => True) (fun _ _ _ => trivial) trivial)
      (fun _ u hu => ?_) fun _ _ hf => hf.elim
    have hcells := ht.2.trans hu.2
    exact ⟨hcells.composition, hcells.pending, hcells.nextComposition⟩

/-- The `if let` chain, when both cells are filled. -/
theorem wp_withGuards_quiet {p : CompositionString} (hcell : s.composition = .new (some c))
    (hpending : s.pending = .new (some p)) (h : s.document.Shows c left body right) :
    wp (withGuards (setCommitAndPreedit .quiet))
      (fun _ t => t.document.Shows c (left ++ p.committed) p.composed right ∧
        t.composition.value = some c ∧ t.nextComposition = s.nextComposition)
      (fun _ _ => False) s := by
  unfold withGuards
  rw [wp_get_bind]
  simp only [hcell, hpending, RefCell.new, BorrowFlag.borrow]
  rw [wp_modify_bind, wp_bind, wp_tryCatch]
  refine wp_mono (wp_setCommitAndPreedit_quiet h) (fun _ t ht => ?_) fun _ _ hf => hf.elim
  have hvalue : t.composition.value = some c :=
    (congrArg RefCell.value ht.2.composition).trans (congrArg RefCell.value hcell)
  exact ⟨ht.1, hvalue, ht.2.nextComposition⟩

theorem wp_withGuards_cells {p : CompositionString} (hcell : s.composition = .new (some c))
    (hpending : s.pending = .new (some p)) :
    wp (withGuards (setCommitAndPreedit .quiet)) (fun _ t => t.composition.value = some c)
      (fun _ t => t.composition.value = some c) s := by
  unfold withGuards
  rw [wp_get_bind]
  simp only [hcell, hpending, RefCell.new, BorrowFlag.borrow]
  rw [wp_modify_bind, wp_bind, wp_tryCatch]
  have hvalue : s.composition.value = some c := congrArg RefCell.value hcell
  refine wp_mono (wp_setCommitAndPreedit_cells c p _) (fun _ t ht => ?_) fun e t ht => ?_
  · exact (congrArg RefCell.value ht.composition).trans hvalue
  · exact (congrArg RefCell.value ht.composition).trans hvalue

/-- Without a composition, the session first starts one. -/
theorem wp_doEditSession_none (d : Document) (p : CompositionString) (next : CompositionId)
    (post : Unit → Session → Prop) (exc : SessionExit → Session → Prop) :
    ∃ s : Session, s.composition = .new (some next) ∧ s.pending = .new (some p) ∧
      s.document = d.startComposition next ∧ s.nextComposition = next + 1 ∧
      (wp (doEditSession .quiet) post exc (.start d none (some p) next) ↔
        wp (withGuards (setCommitAndPreedit .quiet)) post exc s) := by
  rw [wp_doEditSession, if_pos (by simp)]
  unfold startNewComposition replaceComposition
  rw [wp_call_bind, wp_call_bind, wp_call_bind, wp_call_bind, wp_get_bind, wp_modify_bind,
    wp_get_bind]
  simp only [Session.record, Session.start, RefCell.new, RefCell.replace, if_true]
  rw [wp_modify]
  exact ⟨_, rfl, rfl, rfl, rfl, .rfl⟩

/-- With a pending edit, the composition cell is filled in the end. -/
theorem wp_doEditSession_filled (d : Document) (cell : Option CompositionId)
    (p : CompositionString) (next : CompositionId) :
    wp (doEditSession .quiet) (fun _ t => t.composition.value.isSome)
      (fun _ t => t.composition.value.isSome) (.start d cell (some p) next) := by
  have hfilled : ∀ {c : CompositionId} {s : Session}, s.composition = .new (some c) →
      s.pending = .new (some p) →
      wp (withGuards (setCommitAndPreedit .quiet)) (fun _ t => t.composition.value.isSome)
        (fun _ t => t.composition.value.isSome) s := by
    intro c s hcell hpending
    refine wp_mono (wp_withGuards_cells hcell hpending) (fun _ t ht => ?_) fun _ t ht => ?_
    · exact Option.isSome_of_eq_some ht
    · exact Option.isSome_of_eq_some ht
  cases cell with
  | some c =>
    rw [wp_doEditSession, if_neg (by simp)]
    exact hfilled rfl rfl
  | none =>
    obtain ⟨s, hcell, hpending, -, -, hstart⟩ := wp_doEditSession_none d p next
      (fun _ t => t.composition.value.isSome) (fun _ t => t.composition.value.isSome)
    rw [hstart]
    exact hfilled hcell hpending

/-- The whole session on an active composition. -/
theorem wp_doEditSession_active {d : Document} (p : CompositionString) (next : CompositionId)
    (h : d.Shows c left body right) :
    wp (doEditSession .quiet)
      (fun _ t => t.document.Shows c (left ++ p.committed) p.composed right ∧
        t.composition.value = some c ∧ t.nextComposition = next)
      (fun _ _ => False) (.start d (some c) (some p) next) := by
  rw [wp_doEditSession, if_neg (by simp)]
  exact wp_withGuards_quiet rfl rfl h

/-- The whole session when it starts the composition. -/
theorem wp_doEditSession_fresh {d : Document} (p : CompositionString) (next : CompositionId)
    (h : d.Idle left right) :
    wp (doEditSession .quiet)
      (fun _ t => t.document.Shows next (left ++ p.committed) p.composed right ∧
        t.composition.value = some next ∧ t.nextComposition = next + 1)
      (fun _ _ => False) (.start d none (some p) next) := by
  obtain ⟨s, hcell, hpending, hdocument, hnext, hstart⟩ := wp_doEditSession_none d p next
    (fun _ t => t.document.Shows next (left ++ p.committed) p.composed right ∧
      t.composition.value = some next ∧ t.nextComposition = next + 1) (fun _ _ => False)
  have hshows : s.document.Shows next left [] right := by
    rw [hdocument]
    exact h.startComposition next
  rw [hstart, ← hnext]
  exact wp_withGuards_quiet hcell hpending hshows

end SetCompositionString

/-- `InsertText` at the caret, whatever the document shows. -/
theorem InsertText.wp_doEditSession {d : Document} {cell : Option CompositionId}
    {pending : Option CompositionString} {next : CompositionId} {text : Wide} :
    wp (InsertText.doEditSession .quiet text)
      (fun _ t => t.document =
        (d.replaceText ⟨d.selection, d.selection⟩ text).setSelection
          ⟨d.selection + text.length, d.selection + text.length⟩)
      (fun _ _ => False) (.start d cell pending next) := by
  unfold InsertText.doEditSession
  rw [wp_call_bind, wp_call_bind, wp_get_bind, wp_modify_bind, wp_call_bind, wp_call_bind,
    wp_modify]
  rfl

namespace EndComposition

variable {c : CompositionId} {left body right : Wide}

/-- `EndComposition` with a composition to end. -/
theorem wp_doEditSession_active {d : Document} (pending : Option CompositionString)
    (next : CompositionId) (h : d.Shows c left body right) :
    wp (doEditSession .quiet)
      (fun _ t => t.document.Idle (left ++ body) right ∧ t.composition.value = none ∧
        t.nextComposition = next)
      (fun _ _ => False) (.start d (some c) pending next) := by
  unfold doEditSession replaceComposition willEndComposition
  rw [wp_get_bind, wp_bind, wp_get_bind]
  simp only [Session.start, RefCell.new, RefCell.replace, if_true]
  rw [wp_modify, wp_bind, wp_bind, SetCompositionString.wp_getRange_quiet h, wp_call_bind,
    wp_call_bind, wp_modify_bind, wp_call_bind, wp_call_bind, wp_modify_bind, wp_call_bind,
    wp_modify_bind, wp_call_bind, wp_modify, wp_call_bind, wp_modify]
  exact ⟨(h.setAttr _ none).endComposition, rfl, rfl⟩

/-- `EndComposition` with nothing to end. -/
theorem wp_doEditSession_empty (d : Document) (pending : Option CompositionString)
    (next : CompositionId) :
    wp (doEditSession .quiet)
      (fun _ t => t.document = d ∧ t.composition.value = none ∧ t.nextComposition = next)
      (fun _ _ => False) (.start d none pending next) :=
  ⟨rfl, rfl, rfl⟩

end EndComposition

/-! ## What a run does to the view of a cell -/

namespace Store

/-- What the document shows, as seen from composition cell `A`. -/
inductive View (σ : Store) (A : CellId) (left body right : Wide) : Prop
  | shows (c : CompositionId) (hcell : σ.compositions A = some c)
      (hdoc : σ.document.Shows c left body right)
  | idle (hcell : σ.compositions A = none) (hbody : body = [])
      (hdoc : σ.document.Idle left right)

variable {σ : Store} {A p : CellId} {left body right : Wide} {cs : CompositionString}

namespace View

theorem finalised_eq (h : σ.View A left body right) : σ.document.finalised = left ++ right := by
  cases h with
  | shows c hcell hdoc => exact hdoc.finalised_eq
  | idle hcell hbody hdoc => exact hdoc.finalised_eq

theorem composing_eq (h : σ.View A left body right) : σ.document.composing = body := by
  cases h with
  | shows c hcell hdoc => exact hdoc.composing_eq
  | idle hcell hbody hdoc => rw [hdoc.composing_eq, hbody]

/-- With its cell empty, the composition's view is of an idle document. -/
theorem idle_of_none (h : σ.View A left body right) (hcell : σ.compositions A = none) :
    body = [] ∧ σ.document.Idle left right := by
  cases h with
  | shows c hsome hdoc =>
    rw [hcell] at hsome
    cases hsome
  | idle _ hbody hdoc => exact ⟨hbody, hdoc⟩

/-- The view depends on the cell's contents and the document only. -/
theorem congr {τ : Store} {B : CellId} (h : σ.View A left body right)
    (hcell : τ.compositions B = σ.compositions A) (hdoc : τ.document = σ.document) :
    τ.View B left body right := by
  cases h with
  | shows c hc hd => exact .shows c (hcell.trans hc) (hdoc ▸ hd)
  | idle hc hb hd => exact .idle (hcell.trans hc) hb (hdoc ▸ hd)

end View

end Store

namespace EditSession

open Store

variable {σ : Store} {A p : CellId} {left body right : Wide} {cs : CompositionString}

@[simp] theorem run_insertText_compositions (σ : Store) (text : Wide) :
    (run σ (.insertText text)).compositions = σ.compositions := rfl

@[simp] theorem run_pendings (σ : Store) (s : EditSession) : (run σ s).pendings = σ.pendings := by
  cases s <;> rfl

theorem run_insertText_document (σ : Store) (text : Wide) :
    (run σ (.insertText text)).document =
      (σ.document.replaceText ⟨σ.document.selection, σ.document.selection⟩ text).setSelection
        ⟨σ.document.selection + text.length, σ.document.selection + text.length⟩ :=
  final_of_wp (fun t => t.document = _) InsertText.wp_doEditSession

/-- Inserting nothing changes nothing. -/
theorem run_insertText_nil (σ : Store) : run σ (.insertText []) = σ := by
  have hdoc : (run σ (.insertText [])).document = σ.document := by
    rw [run_insertText_document]
    exact σ.document.insertText_nil
  cases σ
  simp only [run] at hdoc ⊢
  rw [hdoc]

/-- Text inserted into an idle document is finalised. -/
theorem run_insertText_idle (h : σ.document.Idle left right) (text : Wide) :
    (run σ (.insertText text)).document.Idle (left ++ text) right := by
  rw [run_insertText_document]
  exact h.insertText text

/-- A session leaves the cells of other sessions alone. -/
theorem run_compositions_of_ne {s : EditSession} {B : CellId} (h : s.compositionCell ≠ some B)
    (σ : Store) : (run σ s).compositions B = σ.compositions B := by
  cases s with
  | insertText text => rfl
  | setCompositionString c p =>
    exact Function.update_of_ne (fun hB => h (congrArg some hB.symm)) _ _
  | endComposition c =>
    exact Function.update_of_ne (fun hB => h (congrArg some hB.symm)) _ _

/-- A session reads no pending cell but its own. -/
theorem run_setPending {s : EditSession} {p : CellId} (h : s.pendingCell ≠ some p) (σ : Store)
    (v : Option CompositionString) :
    run (σ.setPending p v) s = (run σ s).setPending p v := by
  cases s with
  | insertText text => rfl
  | setCompositionString c q =>
    have hq : (σ.setPending p v).pendings q = σ.pendings q :=
      Function.update_of_ne (fun hp => h (congrArg some hp)) _ _
    simp only [run, session, hq]
    rfl
  | endComposition c => rfl

/-- **`SetCompositionString`**: the commit is finalised, the preedit is composed. -/
theorem run_setCompositionString (h : σ.View A left body right)
    (hp : σ.pendings p = some cs) :
    (run σ (.setCompositionString A p)).View A (left ++ cs.committed) cs.composed right ∧
      (run σ (.setCompositionString A p)).compositions A ≠ none := by
  -- what a settled session shows, whatever identity its composition has
  have hview : ∀ {c : CompositionId} {t : Session},
      t.document.Shows c (left ++ cs.committed) cs.composed right →
      t.composition.value = some c →
      (σ.settle A t).View A (left ++ cs.committed) cs.composed right ∧
        (σ.settle A t).compositions A ≠ none := by
    intro c t hdoc hcell
    have hsome : (σ.settle A t).compositions A = some c := by simp [settle, hcell]
    exact ⟨.shows c hsome hdoc, by simp [hsome]⟩
  cases h with
  | shows c hcell hdoc =>
    have hrun := final_of_wp (fun t => _ ∧ _ ∧ _)
      (SetCompositionString.wp_doEditSession_active cs σ.nextComposition hdoc)
    simp only [run, session, hcell, hp]
    exact hview hrun.1 hrun.2.1
  | idle hcell hbody hdoc =>
    have hrun := final_of_wp (fun t => _ ∧ _ ∧ _)
      (SetCompositionString.wp_doEditSession_fresh cs σ.nextComposition hdoc)
    simp only [run, session, hcell, hp]
    exact hview hrun.1 hrun.2.1

/-- Whatever the document shows, a session with a pending edit fills its cell. -/
theorem run_setCompositionString_filled (hp : (σ.pendings p).isSome) :
    ((run σ (.setCompositionString A p)).compositions A).isSome := by
  obtain ⟨cs, hcs⟩ := Option.isSome_iff_exists.mp hp
  have hrun := final_of_wp_always (fun t => t.composition.value.isSome)
    (SetCompositionString.wp_doEditSession_filled σ.document (σ.compositions A) cs
      σ.nextComposition)
  simp only [run, session, hcs, settle, Function.update_self]
  exact hrun

/-- **`EndComposition`**: what is left of the composition is finalised. -/
theorem run_endComposition (h : σ.View A left body right) :
    (run σ (.endComposition A)).document.Idle (left ++ body) right ∧
      (run σ (.endComposition A)).compositions A = none := by
  cases h with
  | shows c hcell hdoc =>
    have hrun := final_of_wp (fun t => _ ∧ _ ∧ _)
      (EndComposition.wp_doEditSession_active none σ.nextComposition hdoc)
    simp only [run, session, hcell]
    exact ⟨hrun.1, by simp [settle, hrun.2.1]⟩
  | idle hcell hbody hdoc =>
    have hrun := final_of_wp (fun t => _ ∧ _ ∧ _)
      (EndComposition.wp_doEditSession_empty σ.document none σ.nextComposition)
    simp only [run, session, hcell]
    rw [hbody, List.append_nil]
    refine ⟨?_, by simp [settle, hrun.2.1]⟩
    show Document.Idle _ left right
    rw [settle, hrun.1]
    exact hdoc

/-! ## Several runs -/

variable {q : List EditSession}

theorem foldl_run_pendings (q : List EditSession) (σ : Store) :
    (q.foldl run σ).pendings = σ.pendings := by
  induction q generalizing σ with
  | nil => rfl
  | cons s q ih => rw [List.foldl_cons, ih, run_pendings]

theorem foldl_run_compositions {B : CellId} (h : ∀ s ∈ q, s.compositionCell ≠ some B)
    (σ : Store) : (q.foldl run σ).compositions B = σ.compositions B := by
  induction q generalizing σ with
  | nil => rfl
  | cons s q ih =>
    rw [List.foldl_cons, ih fun s' hs' => h s' (List.mem_cons_of_mem s hs'),
      run_compositions_of_ne (h s List.mem_cons_self)]

theorem foldl_run_setPending {p : CellId} (h : ∀ s ∈ q, s.pendingCell ≠ some p) (σ : Store)
    (v : Option CompositionString) :
    q.foldl run (σ.setPending p v) = (q.foldl run σ).setPending p v := by
  induction q generalizing σ with
  | nil => rfl
  | cons s q ih =>
    rw [List.foldl_cons, List.foldl_cons, run_setPending (h s List.mem_cons_self),
      ih fun s' hs' => h s' (List.mem_cons_of_mem s hs')]

theorem foldl_run_insertText_nil (h : ∀ s ∈ q, s = .insertText []) (σ : Store) :
    q.foldl run σ = σ := by
  induction q generalizing σ with
  | nil => rfl
  | cons s q ih =>
    rw [List.foldl_cons, h s List.mem_cons_self, run_insertText_nil,
      ih fun s' hs' => h s' (List.mem_cons_of_mem s hs')]

end EditSession

end ChewingTsf
