import Mathlib.Data.List.Basic

/-!
# Splitting a sequence at its last separator

`rsplitOnce c` cuts a list at the last occurrence of `c` (Rust's
`str::rsplit_once` on the characters of a string). It undoes joining with `c`
exactly when the part on the right does not itself contain `c`
(`rsplitOnce_join_iff`).
-/

namespace ChewingTsf

universe u

variable {α : Type u} [DecidableEq α]

/-- The parts before and after the last `c`, if there is one. -/
def rsplitOnce (c : α) : List α → Option (List α × List α)
  | [] => none
  | x :: xs =>
    match rsplitOnce c xs with
    | some (a, b) => some (x :: a, b)
    | none => if x = c then some ([], xs) else none

theorem rsplitOnce_of_not_mem {c : α} {s : List α} (h : c ∉ s) : rsplitOnce c s = none := by
  induction s with
  | nil => rfl
  | cons x xs ih =>
    rw [List.mem_cons, not_or] at h
    rw [rsplitOnce, ih h.2]
    exact if_neg (Ne.symm h.1)

/-- The separator found is the last one: the right part does not contain it. -/
theorem rsplitOnce_append {c : α} {a b : List α} (h : c ∉ b) :
    rsplitOnce c (a ++ c :: b) = some (a, b) := by
  induction a with
  | nil =>
    show (match rsplitOnce c b with
      | some (a, b) => some (c :: a, b)
      | none => if c = c then some ([], b) else none) = some ([], b)
    rw [rsplitOnce_of_not_mem h]
    exact if_pos rfl
  | cons x xs ih =>
    show (match rsplitOnce c (xs ++ c :: b) with
      | some (a, b) => some (x :: a, b)
      | none => if x = c then some ([], _) else none) = some (x :: xs, b)
    rw [ih]

/-- A list that contains `c` has a last one. -/
theorem exists_last_of_mem {c : α} {s : List α} (h : c ∈ s) :
    ∃ a b, s = a ++ c :: b ∧ c ∉ b := by
  induction s with
  | nil => cases h
  | cons x xs ih =>
    by_cases hxs : c ∈ xs
    · obtain ⟨a, b, rfl, hb⟩ := ih hxs
      exact ⟨x :: a, b, rfl, hb⟩
    · rcases List.mem_cons.mp h with rfl | hmem
      · exact ⟨[], xs, rfl, hxs⟩
      · exact absurd hmem hxs

/-- With another `c` on the right, the left part swallows the text up to it. -/
theorem rsplitOnce_join_of_mem {c : α} {a b : List α} (h : c ∈ b) :
    ∃ b₁ b₂, b = b₁ ++ c :: b₂ ∧ c ∉ b₂ ∧
      rsplitOnce c (a ++ c :: b) = some (a ++ c :: b₁, b₂) := by
  obtain ⟨b₁, b₂, rfl, hb₂⟩ := exists_last_of_mem h
  refine ⟨b₁, b₂, rfl, hb₂, ?_⟩
  rw [← List.cons_append, ← List.append_assoc]
  exact rsplitOnce_append hb₂

/-- Splitting undoes joining exactly when the right part has no separator. -/
theorem rsplitOnce_join_iff {c : α} {a b : List α} :
    rsplitOnce c (a ++ c :: b) = some (a, b) ↔ c ∉ b := by
  constructor
  · intro h hmem
    obtain ⟨b₁, b₂, hb, -, hsplit⟩ := rsplitOnce_join_of_mem (a := a) hmem
    rw [h] at hsplit
    have hlen := congrArg List.length (congrArg Prod.fst (Option.some.inj hsplit))
    simp at hlen
  · exact rsplitOnce_append

end ChewingTsf
