import Mathlib.Data.List.Basic

/-!
# Frames that end in a terminator

A stream of frames, each followed by a terminator `d` that does not occur inside
a frame. `readUntil d` takes one frame off the stream, terminator included, as
Rust's `BufRead::read_until` does: at the end of the stream it takes what is
left. `readFrame` drops the terminator and tells a frame from such a rest:
a reader gets the frame that was written (`readFrame_append`) and never a part
of one (`readFrame_unterminated`).
-/

namespace ChewingTsf

universe u

variable {α : Type u}

variable [DecidableEq α] {d : α}

/-- The elements up to and including the first `d`, and the rest
(`BufRead::read_until`). -/
def readUntil (d : α) : List α → List α × List α
  | [] => ([], [])
  | x :: xs =>
    if x = d then ([x], xs)
    else
      let (buffer, rest) := readUntil d xs
      (x :: buffer, rest)

theorem readUntil_append {f : List α} (h : d ∉ f) (rest : List α) :
    readUntil d (f ++ d :: rest) = (f ++ [d], rest) := by
  induction f with
  | nil => exact if_pos rfl
  | cons x xs ih =>
    rw [List.mem_cons, not_or] at h
    rw [List.cons_append, readUntil, if_neg (Ne.symm h.1), ih h.2]
    rfl

theorem readUntil_of_not_mem {s : List α} (h : d ∉ s) : readUntil d s = (s, []) := by
  induction s with
  | nil => rfl
  | cons x xs ih =>
    rw [List.mem_cons, not_or] at h
    rw [readUntil, if_neg (Ne.symm h.1), ih h.2]

theorem readUntil_join (s : List α) : (readUntil d s).1 ++ (readUntil d s).2 = s := by
  induction s with
  | nil => rfl
  | cons x xs ih =>
    by_cases hx : x = d
    · simp [readUntil, hx]
    · simpa [readUntil, hx] using ih

/-- Reading a frame and dropping its terminator: `none` for the frame if the
stream ends before the terminator. -/
def readFrame (d : α) (s : List α) : Option (List α) × List α :=
  let (buffer, rest) := readUntil d s
  (if buffer.getLast? = some d then some buffer.dropLast else none, rest)

theorem readFrame_append {f : List α} (h : d ∉ f) (rest : List α) :
    readFrame d (f ++ d :: rest) = (some f, rest) := by
  simp [readFrame, readUntil_append h]

theorem readFrame_unterminated {s : List α} (h : d ∉ s) : readFrame d s = (none, []) := by
  have hlast : s.getLast? ≠ some d := by
    intro hlast
    exact h (List.mem_of_getLast? hlast)
  simp [readFrame, readUntil_of_not_mem h, hlast]

/-- A frame that was read makes the stream shorter. -/
theorem readFrame_length {s f rest : List α} (h : readFrame d s = (some f, rest)) :
    rest.length < s.length := by
  have hjoin := readUntil_join (d := d) s
  by_cases hlast : (readUntil d s).1.getLast? = some d
  · have hrest : (readUntil d s).2 = rest := congrArg Prod.snd h
    have hne : (readUntil d s).1 ≠ [] := by
      intro hnil
      simp [hnil] at hlast
    have hpos := List.length_pos_of_ne_nil hne
    rw [← hjoin, List.length_append, hrest]
    omega
  · have hnone := congrArg Prod.fst h
    rw [show (readFrame d s).1 = none from if_neg hlast] at hnone
    cases hnone

end ChewingTsf
