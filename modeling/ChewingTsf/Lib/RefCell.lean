import Mathlib.Init

/-!
# `RefCell`

The dynamic borrow rules of Rust's `RefCell`: `borrow` fails while the value is
mutably borrowed, `borrow_mut` and `replace` fail while it is borrowed at all.
A failed `borrow`, `borrow_mut` or `replace` panics; `try_borrow_mut` only
reports the failure. The operations return `none` on failure and leave it to the
program what a failure means.
-/

namespace ChewingTsf

universe u

/-- The borrow flag of a cell. -/
inductive BorrowFlag where
  | unused
  /-- borrowed by `n + 1` shared guards -/
  | reading (n : Nat)
  /-- borrowed by one exclusive guard -/
  | writing
  deriving DecidableEq

namespace BorrowFlag

/-- Taking a shared guard. -/
def borrow : BorrowFlag → Option BorrowFlag
  | unused => some (reading 0)
  | reading n => some (reading (n + 1))
  | writing => none

/-- Taking the exclusive guard. -/
def borrowMut : BorrowFlag → Option BorrowFlag
  | unused => some writing
  | _ => none

/-- Dropping a guard. -/
def release : BorrowFlag → BorrowFlag
  | reading (n + 1) => reading n
  | _ => unused

theorem borrow_eq_none_iff {f : BorrowFlag} : f.borrow = none ↔ f = writing := by
  cases f <;> simp [borrow]

theorem borrowMut_eq_none_iff {f : BorrowFlag} : f.borrowMut = none ↔ f ≠ unused := by
  cases f <;> simp [borrowMut]

/-- Dropping a shared guard undoes taking it. -/
theorem release_of_borrow {f g : BorrowFlag} (h : f.borrow = some g) : g.release = f := by
  cases f <;> cases h <;> rfl

/-- Dropping the exclusive guard undoes taking it. -/
theorem release_of_borrowMut {f g : BorrowFlag} (h : f.borrowMut = some g) :
    g.release = f := by
  cases f <;> cases h
  rfl

end BorrowFlag

/-- A cell: its value and its borrow flag. -/
structure RefCell (α : Type u) where
  value : α
  flag : BorrowFlag

namespace RefCell

variable {α : Type u}

/-- `RefCell::new`. -/
def new (a : α) : RefCell α := ⟨a, .unused⟩

/-- `RefCell::replace`: needs the cell for itself. -/
def replace (c : RefCell α) (a : α) : Option (RefCell α) :=
  if c.flag = .unused then some { c with value := a } else none

end RefCell

end ChewingTsf
