import Mathlib.Order.Lattice
import Mathlib.Order.Monotone.Basic
import Mathlib.Data.List.Basic

/-!
# Contiguous pieces

`Contiguous span lo l hi`: the pieces of `l`, each with its bounds `span`, cover
`lo` to `hi` in order, every piece beginning where the one before it ends. Such a
list can be cut at any position between its ends (`Contiguous.exists_cut`), and
its start is determined by its end (`Contiguous.left_unique`), so that one piece
in the wrong place is seen from the outside.
-/

namespace ChewingTsf

universe u v w

variable {α : Type u} {ι : Type v} [LinearOrder ι] {span : α → ι × ι}

/-- The pieces of the list lie end to end, from `lo` to `hi`. -/
def Contiguous (span : α → ι × ι) : ι → List α → ι → Prop
  | lo, [], hi => lo = hi
  | lo, a :: l, hi => (span a).1 = lo ∧ lo ≤ (span a).2 ∧ Contiguous span (span a).2 l hi

namespace Contiguous

theorem le : ∀ {l : List α} {lo hi : ι}, Contiguous span lo l hi → lo ≤ hi
  | [], _, _, h => le_of_eq h
  | _ :: _, _, _, ⟨_, hle, h⟩ => hle.trans h.le

/-- A piece lies between the ends. -/
theorem bounds {l : List α} {lo hi : ι} (h : Contiguous span lo l hi) :
    ∀ a ∈ l, lo ≤ (span a).1 ∧ (span a).1 ≤ (span a).2 ∧ (span a).2 ≤ hi := by
  induction l generalizing lo with
  | nil => intro a ha; cases ha
  | cons b l ih =>
    intro a ha
    obtain ⟨rfl, hle, hrest⟩ := h
    rcases List.mem_cons.mp ha with rfl | hmem
    · exact ⟨le_rfl, hle, hrest.le⟩
    · obtain ⟨hlo, hab, hhi⟩ := ih hrest a hmem
      exact ⟨hle.trans hlo, hab, hhi⟩

theorem append_iff {l l' : List α} {lo hi : ι} :
    Contiguous span lo (l ++ l') hi
      ↔ ∃ m, Contiguous span lo l m ∧ Contiguous span m l' hi := by
  induction l generalizing lo with
  | nil =>
    constructor
    · intro h
      exact ⟨lo, rfl, h⟩
    · rintro ⟨m, rfl, h⟩
      exact h
  | cons a l ih =>
    constructor
    · rintro ⟨hlo, hle, h⟩
      obtain ⟨m, hl, hl'⟩ := ih.mp h
      exact ⟨m, ⟨hlo, hle, hl⟩, hl'⟩
    · rintro ⟨m, ⟨hlo, hle, hl⟩, hl'⟩
      exact ⟨hlo, hle, ih.mpr ⟨m, hl, hl'⟩⟩

/-- Pieces that all end before `p` reach no further. -/
theorem lt_of_forall {l : List α} {lo hi p : ι} (h : Contiguous span lo l hi) (hlo : lo < p)
    (hl : ∀ a ∈ l, (span a).2 < p) : hi < p := by
  induction l generalizing lo with
  | nil => exact h.symm ▸ hlo
  | cons a l ih =>
    exact ih h.2.2 (hl a List.mem_cons_self) fun b hb => hl b (List.mem_cons_of_mem _ hb)

/-- Where the pieces begin is determined by where they end. -/
theorem left_unique {l : List α} {lo lo' hi : ι} (h : Contiguous span lo l hi)
    (h' : Contiguous span lo' l hi) : lo = lo' := by
  cases l with
  | nil => exact h.trans h'.symm
  | cons a l => exact h.1.symm.trans h'.1

/-- Pieces whose bounds are moved by a monotone map still lie end to end. -/
theorem map {β : Type w} {κ : Type v} [LinearOrder κ] {span' : β → κ × κ} {f : α → β} {m : ι → κ}
    (hm : Monotone m) (hspan : ∀ a, span' (f a) = (m (span a).1, m (span a).2)) {l : List α}
    {lo hi : ι} (h : Contiguous span lo l hi) : Contiguous span' (m lo) (l.map f) (m hi) := by
  induction l generalizing lo with
  | nil => exact congrArg m h
  | cons a l ih =>
    obtain ⟨rfl, hle, hrest⟩ := h
    rw [List.map_cons, Contiguous, hspan]
    exact ⟨rfl, hm hle, ih hrest⟩

/-- Pieces that are not nothing can be cut at any position `p` between the ends:
into those that end before `p`, one that reaches it, and the rest. -/
theorem exists_cut {l : List α} {lo hi p : ι} (h : Contiguous span lo l hi) (hne : l ≠ [])
    (hlo : lo ≤ p) (hhi : p ≤ hi) :
    ∃ l₁ a l₂, l = l₁ ++ a :: l₂ ∧ (∀ b ∈ l₁, (span b).2 < p)
      ∧ (span a).1 ≤ p ∧ p ≤ (span a).2 ∧ Contiguous span lo l₁ (span a).1
      ∧ Contiguous span (span a).2 l₂ hi := by
  induction l generalizing lo with
  | nil => exact absurd rfl hne
  | cons a l ih =>
    obtain ⟨rfl, hle, hrest⟩ := h
    by_cases hp : p ≤ (span a).2
    · refine ⟨[], a, l, rfl, ?_, hlo, hp, rfl, hrest⟩
      intro b hb
      cases hb
    · rw [not_le] at hp
      have hne' : l ≠ [] := by
        rintro rfl
        exact absurd (hp.trans_le hhi) (not_lt.mpr (le_of_eq hrest.symm))
      obtain ⟨l₁, c, l₂, rfl, hbefore, hc, hpc, hl₁, hl₂⟩ := ih hrest hne' hp.le
      refine ⟨a :: l₁, c, l₂, rfl, ?_, hc, hpc, ⟨rfl, hle, hl₁⟩, hl₂⟩
      intro b hb
      rcases List.mem_cons.mp hb with rfl | hmem
      · exact hp
      · exact hbefore b hmem

end Contiguous

end ChewingTsf
