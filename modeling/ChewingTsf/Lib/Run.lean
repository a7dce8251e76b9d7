import Mathlib.Logic.Relation

/-!
# Runs of a labelled transition system

A system is a relation `step : σ → α → σ → Prop`; a run is a finite sequence of
its steps, read left to right. Two rules carry every safety proof over runs:

- `Run.history`: a property of the labels seen so far and the state reached
  holds of every run once it holds at the start and every step preserves it;
- `Guarded ok step`: the same system restricted to the steps that meet `ok` in
  the state they are taken in. A guarded run is a run (`Run.unguard`), so what
  is proved of every run also holds of the guarded ones.
-/

namespace ChewingTsf

universe u v

variable {σ : Type u} {α : Type v}

/-- `Run step s ls t`: the steps labelled `ls`, taken in order, lead from `s`
to `t`. -/
inductive Run (step : σ → α → σ → Prop) : σ → List α → σ → Prop
  | refl (s : σ) : Run step s [] s
  | tail {s t u : σ} {ls : List α} {a : α} :
      Run step s ls t → step t a u → Run step s (ls ++ [a]) u

namespace Run

variable {step : σ → α → σ → Prop} {s t u : σ} {ls ms : List α} {a : α}

theorem single (h : step s a t) : Run step s [a] t := (refl s).tail h

theorem trans (h : Run step s ls t) (h' : Run step t ms u) :
    Run step s (ls ++ ms) u := by
  induction h' with
  | refl => simpa using h
  | @tail u w ms a _ hstep ih =>
    rw [← List.append_assoc]
    exact ih.tail hstep

theorem head (h : step s a t) (h' : Run step t ls u) : Run step s (a :: ls) u :=
  (single h).trans h'

theorem of_nil (h : Run step s [] t) : s = t := by
  generalize hms : [] = ms at h
  cases h with
  | refl => rfl
  | tail => exact absurd hms.symm (List.append_ne_nil_of_right_ne_nil _ (List.cons_ne_nil _ _))

/-- The first step of a run. -/
theorem of_cons (h : Run step s (a :: ls) u) : ∃ t, step s a t ∧ Run step t ls u := by
  generalize hms : a :: ls = ms at h
  induction h generalizing ls with
  | refl => cases hms
  | @tail t u ms b hrun hstep ih =>
    cases ms with
    | nil =>
      obtain ⟨rfl, rfl⟩ := List.cons.inj hms
      rw [hrun.of_nil]
      exact ⟨u, hstep, .refl u⟩
    | cons c ms =>
      obtain ⟨rfl, rfl⟩ := List.cons.inj hms
      obtain ⟨t', hfirst, hrest⟩ := ih rfl
      exact ⟨t', hfirst, hrest.tail hstep⟩

/-- The first part of a run. -/
theorem of_append (h : Run step s (ls ++ ms) u) : ∃ t, Run step s ls t ∧ Run step t ms u := by
  induction ls generalizing s with
  | nil => exact ⟨s, .refl s, h⟩
  | cons a ls ih =>
    obtain ⟨t, hfirst, hrest⟩ := h.of_cons
    obtain ⟨r, hls, hms⟩ := ih hrest
    exact ⟨r, .head hfirst hls, hms⟩

/-- **The invariant rule**, with the labels taken so far as history. -/
theorem history {I : List α → σ → Prop} (h0 : I [] s)
    (hstep : ∀ {ls t a u}, I ls t → step t a u → I (ls ++ [a]) u)
    (h : Run step s ls t) : I ls t := by
  induction h with
  | refl => exact h0
  | tail _ hs ih => exact hstep ih hs

/-- The invariant rule for a property of the state alone. -/
theorem invariant {I : σ → Prop} (h0 : I s)
    (hstep : ∀ {t a u}, I t → step t a u → I u) (h : Run step s ls t) : I t :=
  history (I := fun _ t => I t) h0 hstep h

/-- Runs of a smaller system are runs of a larger one. -/
theorem mono {step' : σ → α → σ → Prop}
    (hsub : ∀ {s a t}, step s a t → step' s a t) (h : Run step s ls t) :
    Run step' s ls t := by
  induction h with
  | refl => exact .refl s
  | tail _ hs ih => exact ih.tail (hsub hs)

end Run

/-! ## Systems restricted by a condition on their steps -/

/-- The steps that meet `ok` in the state they are taken in. -/
def Guarded (ok : σ → α → Prop) (step : σ → α → σ → Prop) : σ → α → σ → Prop :=
  fun s a t => ok s a ∧ step s a t

theorem Run.unguard {ok : σ → α → Prop} {step : σ → α → σ → Prop} {s t : σ}
    {ls : List α} (h : Run (Guarded ok step) s ls t) : Run step s ls t :=
  h.mono fun hs => hs.2

/-- **Exact conditions.** If each step from `I` leads back to `I` exactly when it
meets `ok`, then a run stays in `I` exactly when all its steps meet `ok`. -/
theorem Run.stays_iff {I : σ → Prop} {ok : σ → α → Prop} {step : σ → α → σ → Prop} {s t : σ}
    {ls : List α} (h0 : I s) (hstep : ∀ {t a u}, I t → step t a u → (I u ↔ ok t a)) :
    (Run (Guarded (fun t _ => I t) step) s ls t ∧ I t) ↔ Run (Guarded ok step) s ls t := by
  constructor
  · rintro ⟨h, hI⟩
    induction h with
    | refl => exact .refl s
    | tail _ hs ih => exact (ih hs.1).tail ⟨(hstep hs.1 hs.2).mp hI, hs.2⟩
  · intro h
    induction h with
    | refl => exact ⟨.refl s, h0⟩
    | tail _ hs ih => exact ⟨ih.1.tail ⟨ih.2, hs.2⟩, (hstep ih.2 hs.2).mpr hs.1⟩

/-! ## Runs that are computed -/

/-- Every label of a list meets `ok` in the state that the labels before it lead
to. -/
def Along (ok : σ → α → Prop) (next : σ → α → σ) : σ → List α → Prop
  | _, [] => True
  | s, a :: ls => ok s a ∧ Along ok next (next s a) ls

instance Along.decidable {ok : σ → α → Prop} [∀ s a, Decidable (ok s a)] {next : σ → α → σ} :
    (s : σ) → (ls : List α) → Decidable (Along ok next s ls)
  | _, [] => .isTrue trivial
  | s, a :: ls =>
    have : Decidable (Along ok next (next s a) ls) := Along.decidable (next s a) ls
    inferInstanceAs (Decidable (ok s a ∧ Along ok next (next s a) ls))

theorem Along.of_forall {ok : σ → α → Prop} {next : σ → α → σ} (h : ∀ s a, ok s a) (s : σ)
    (ls : List α) : Along ok next s ls := by
  induction ls generalizing s with
  | nil => trivial
  | cons a ls ih => exact ⟨h s a, ih _⟩

theorem Along.append {ok : σ → α → Prop} {next : σ → α → σ} {s : σ} {as bs : List α}
    (h : Along ok next s as) (h' : Along ok next (as.foldl next s) bs) :
    Along ok next s (as ++ bs) := by
  induction as generalizing s with
  | nil => exact h'
  | cons a as ih => exact ⟨h.1, ih h.2 h'⟩

/-- A list whose labels all meet a condition that lets them fire is a run. -/
theorem Along.run (ok : σ → α → Prop) (next : σ → α → σ) {step : σ → α → σ → Prop}
    (hfire : ∀ s a, ok s a → step s a (next s a)) {s : σ} {ls : List α}
    (h : Along ok next s ls) : Run step s ls (ls.foldl next s) := by
  induction ls generalizing s with
  | nil => exact .refl s
  | cons a ls ih => exact Run.head (hfire s a h.1) (ih h.2)

end ChewingTsf
