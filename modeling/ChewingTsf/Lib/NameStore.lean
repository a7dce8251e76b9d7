import Mathlib.Data.List.Nodup
import Mathlib.Logic.Function.Basic

/-!
# Named values

A store maps names to values. `writeAll` performs a sequence of writes;
when no name is written twice, a read afterwards returns the value written under
its name, and what it returned before when the name was not written at all.
-/

namespace ChewingTsf

universe u v

variable {ν : Type u} {β : Type v} [DecidableEq ν]

/-- A store: at most one value under each name. -/
abbrev NameStore (ν : Type u) (β : Type v) := ν → Option β

namespace NameStore

/-- The writes `ws`, in order. -/
def writeAll (s : NameStore ν β) (ws : List (ν × β)) : NameStore ν β :=
  ws.foldl (fun s w => Function.update s w.1 (some w.2)) s

@[simp] theorem writeAll_nil (s : NameStore ν β) : s.writeAll [] = s := rfl

theorem writeAll_cons (s : NameStore ν β) (w : ν × β) (ws : List (ν × β)) :
    s.writeAll (w :: ws) = writeAll (Function.update s w.1 (some w.2)) ws := rfl

/-- A name that is not written keeps its value. -/
theorem writeAll_of_not_mem {ws : List (ν × β)} {n : ν} (h : n ∉ ws.map Prod.fst) :
    ∀ s : NameStore ν β, s.writeAll ws n = s n := by
  induction ws with
  | nil =>
    intro s
    rfl
  | cons w ws ih =>
    intro s
    rw [List.map_cons, List.mem_cons, not_or] at h
    rw [writeAll_cons, ih h.2, Function.update_of_ne h.1]

/-- **What is written is read back**, and a name that is not written keeps its
value, when no name is written twice. -/
theorem writeAll_eq_lookup {ws : List (ν × β)} (hnodup : (ws.map Prod.fst).Nodup) (n : ν) :
    ∀ s : NameStore ν β, s.writeAll ws n = (ws.lookup n).or (s n) := by
  induction ws with
  | nil =>
    intro s
    rfl
  | cons w ws ih =>
    intro s
    rw [List.map_cons, List.nodup_cons] at hnodup
    rw [writeAll_cons, List.lookup_cons]
    by_cases hn : n = w.1
    · subst hn
      -- the first write: no later one is under the same name
      rw [writeAll_of_not_mem hnodup.1, Function.update_self]
      simp
    · rw [ih hnodup.2, Function.update_of_ne hn, beq_false_of_ne hn]

theorem writeAll_append (s : NameStore ν β) (ws ws' : List (ν × β)) :
    s.writeAll (ws ++ ws') = (s.writeAll ws).writeAll ws' :=
  List.foldl_append ..

/-! ## Stores that agree -/

/-- The stores agree on every name but `ns`. -/
def AgreesOff (ns : List ν) (s t : NameStore ν β) : Prop :=
  ∀ n, n ∉ ns → s n = t n

variable {ns : List ν} {s t : NameStore ν β} {n : ν}

omit [DecidableEq ν] in
theorem AgreesOff.refl (ns : List ν) (s : NameStore ν β) : AgreesOff ns s s := fun _ _ => rfl

theorem AgreesOff.update (h : AgreesOff ns s t) (n : ν) (v : Option β) :
    AgreesOff ns (Function.update s n v) (Function.update t n v) := by
  intro m hm
  by_cases hmn : m = n
  · rw [hmn, Function.update_self, Function.update_self]
  · rw [Function.update_of_ne hmn, Function.update_of_ne hmn]
    exact h m hm

theorem AgreesOff.update_left (h : AgreesOff ns s t) (hn : n ∈ ns) (v : Option β) :
    AgreesOff ns (Function.update s n v) t := by
  intro m hm
  have hmn : m ≠ n := by
    rintro rfl
    exact hm hn
  rw [Function.update_of_ne hmn]
  exact h m hm

end NameStore

end ChewingTsf
