import Mathlib.Data.List.Basic

/-!
# Requests and answers in a trace

`Followed a b c tr`: in the trace `tr`, every `a` is followed by a `b` before the
next `c`. A trace is cut at its `c`s (`followed_append_cons`); a piece without a
`b` must be free of `a`s (`followed_iff_not_mem`), and in one with a `b` they must
come before it (`followed_append_answer`).
-/

namespace ChewingTsf

universe u

variable {α : Type u} {a b c : α} {tr tr' : List α}

/-- Every `a` is followed by a `b` before the next `c`. -/
def Followed (a b c : α) (tr : List α) : Prop :=
  ∀ l₁ l₂, tr = l₁ ++ a :: l₂ → ∃ m₁ m₂, l₂ = m₁ ++ b :: m₂ ∧ c ∉ m₁

/-- Without a `b` there may be no `a`. -/
theorem followed_iff_not_mem (hb : b ∉ tr) : Followed a b c tr ↔ a ∉ tr := by
  constructor
  · intro h ha
    obtain ⟨l₁, l₂, rfl⟩ := List.append_of_mem ha
    obtain ⟨m₁, m₂, rfl, -⟩ := h l₁ l₂ rfl
    exact hb (by simp)
  · rintro ha l₁ l₂ rfl
    exact absurd (List.mem_append_right _ List.mem_cons_self) ha

/-- A `b` answers all that comes before it. -/
theorem followed_append_answer (hab : a ≠ b) (hc : c ∉ tr) (hb : b ∉ tr') :
    Followed a b c (tr ++ b :: tr') ↔ a ∉ tr' := by
  constructor
  · intro h ha
    obtain ⟨l₁, l₂, rfl⟩ := List.append_of_mem ha
    obtain ⟨m₁, m₂, rfl, -⟩ := h (tr ++ b :: l₁) l₂ (by simp)
    exact hb (by simp)
  · intro ha l₁ l₂ heq
    rcases List.append_eq_append_iff.mp heq with ⟨w, rfl, hw⟩ | ⟨w, rfl, hw⟩
    · -- the `a` would stand behind the `b`
      cases w with
      | nil => exact absurd (List.cons.inj hw).1.symm hab
      | cons d w =>
        refine absurd ?_ ha
        rw [(List.cons.inj hw).2]
        exact List.mem_append_right _ List.mem_cons_self
    · cases w with
      | nil => exact absurd (List.cons.inj hw).1 hab
      | cons d w =>
        refine ⟨w, tr', (List.cons.inj hw).2, fun hmem => hc ?_⟩
        exact List.mem_append_right _ (List.mem_cons_of_mem d hmem)

/-- A trace is cut at a `c`. -/
theorem followed_append_cons (hac : a ≠ c) (hbc : b ≠ c) :
    Followed a b c (tr ++ c :: tr') ↔ Followed a b c tr ∧ Followed a b c tr' := by
  constructor
  · intro h
    refine ⟨?_, ?_⟩
    · rintro l₁ l₂ rfl
      obtain ⟨m₁, m₂, heq, hm⟩ := h l₁ (l₂ ++ c :: tr') (by simp)
      rcases List.append_eq_append_iff.mp heq with ⟨w, rfl, hw⟩ | ⟨w, rfl, hw⟩
      · cases w with
        | nil => exact absurd (List.cons.inj hw).1.symm hbc
        | cons d w =>
          rw [(List.cons.inj hw).1] at hm
          exact absurd (List.mem_append_right _ List.mem_cons_self) hm
      · cases w with
        | nil => exact absurd (List.cons.inj hw).1 hbc
        | cons d w =>
          rw [(List.cons.inj hw).1]
          exact ⟨m₁, w, rfl, hm⟩
    · rintro l₁ l₂ rfl
      exact h (tr ++ c :: l₁) l₂ (by simp)
  · rintro ⟨h, h'⟩ l₁ l₂ heq
    rcases List.append_eq_append_iff.mp heq with ⟨w, rfl, hw⟩ | ⟨w, rfl, hw⟩
    · cases w with
      | nil => exact absurd (List.cons.inj hw).1.symm hac
      | cons d w => exact h' w l₂ (List.cons.inj hw).2
    · cases w with
      | nil => exact absurd (List.cons.inj hw).1 hac
      | cons d w =>
        obtain ⟨hd, hl₂⟩ := List.cons.inj hw
        obtain ⟨m₁, m₂, rfl, hm⟩ := h l₁ w (by rw [hd])
        exact ⟨m₁, m₂ ++ c :: tr', by rw [hl₂]; simp, hm⟩

end ChewingTsf
