import Mathlib.Init

/-!
# Weakest preconditions of programs with state and exceptions

`wp m post exc s` says that `m`, started in `s`, ends in a value and a state
that satisfy `post`, or in an exception and a state that satisfy `exc`. The
state reached is kept when an exception is thrown, as a Rust function that
returns early with `?` keeps the changes it has made. There is one rule for
each way to build a program; a proof about a program applies them in its order.
-/

namespace ChewingTsf

universe u

variable {ε σ α β : Type u}

def wp (m : EStateM ε σ α) (post : α → σ → Prop) (exc : ε → σ → Prop) (s : σ) : Prop :=
  match m s with
  | .ok a t => post a t
  | .error e t => exc e t

/-- `m` if `c` holds, else nothing. -/
def onlyIf (c : Bool) (m : EStateM ε σ PUnit) : EStateM ε σ PUnit :=
  if c then m else pure ⟨⟩

section Rules

variable {post : α → σ → Prop} {exc : ε → σ → Prop} {s : σ}

theorem wp_pure {a : α} : wp (pure a : EStateM ε σ α) post exc s ↔ post a s := Iff.rfl

theorem wp_throw {e : ε} : wp (throw e : EStateM ε σ α) post exc s ↔ exc e s := Iff.rfl

theorem wp_get {post : σ → σ → Prop} :
    wp (get : EStateM ε σ σ) post exc s ↔ post s s := Iff.rfl

theorem wp_modify {f : σ → σ} {post : PUnit → σ → Prop} :
    wp (modify f : EStateM ε σ PUnit) post exc s ↔ post ⟨⟩ (f s) := Iff.rfl

theorem wp_tryCatch {m : EStateM ε σ α} {h : ε → EStateM ε σ α} :
    wp (tryCatch m h) post exc s ↔ wp m post (fun e t => wp (h e) post exc t) s := by
  unfold wp
  show (match EStateM.tryCatch m h s with | .ok a t => post a t | .error e t => exc e t) ↔ _
  unfold EStateM.tryCatch
  cases m s <;> rfl

theorem wp_bind {m : EStateM ε σ β} {f : β → EStateM ε σ α} :
    wp (m >>= f) post exc s ↔ wp m (fun b t => wp (f b) post exc t) exc s := by
  unfold wp
  show (match EStateM.bind m f s with | .ok a t => post a t | .error e t => exc e t) ↔ _
  unfold EStateM.bind
  cases m s <;> rfl

theorem wp_ite {c : Prop} [Decidable c] {m n : EStateM ε σ α} :
    wp (if c then m else n) post exc s ↔
      if c then wp m post exc s else wp n post exc s := by
  split <;> rfl

theorem wp_onlyIf {c : Bool} {m : EStateM ε σ PUnit} {post : PUnit → σ → Prop} :
    wp (onlyIf c m) post exc s ↔ if c then wp m post exc s else post ⟨⟩ s := wp_ite

/-- Weaker conditions are easier to meet. -/
theorem wp_mono {m : EStateM ε σ α} {post' : α → σ → Prop} {exc' : ε → σ → Prop}
    (h : wp m post exc s) (hpost : ∀ a t, post a t → post' a t)
    (hexc : ∀ e t, exc e t → exc' e t) : wp m post' exc' s := by
  unfold wp at h ⊢
  cases hm : m s with
  | ok a t => rw [hm] at h; exact hpost a t h
  | error e t => rw [hm] at h; exact hexc e t h

/-- Conditions that always hold are met by every program. -/
theorem wp_of_forall {m : EStateM ε σ α} (hpost : ∀ a t, post a t) (hexc : ∀ e t, exc e t) :
    wp m post exc s := by
  unfold wp
  cases m s with
  | ok a t => exact hpost a t
  | error e t => exact hexc e t

end Rules

end ChewingTsf
