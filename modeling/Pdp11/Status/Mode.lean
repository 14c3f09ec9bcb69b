import Pdp11.Word

/-!
# Operating modes

The two-bit mode field selects a stack pointer and a set of page tables. Code
two is assigned to no mode of the architecture, yet it has a stack pointer and
page tables of its own.
-/

namespace Pdp11

/-- The modes that a mode field can name. -/
inductive Mode
  | kernel
  | supervisor
  | undefined
  | user
deriving DecidableEq

namespace Mode

/-- The modes in the order of their codes. -/
def all : List Mode :=
  [kernel, supervisor, undefined, user]

/-- The mode as the status word has it. -/
def code : Mode → BitVec 2
  | kernel => 0
  | supervisor => 1
  | undefined => 2
  | user => 3

/-- The mode that a two-bit field selects; every field selects one. -/
def ofCode (code : BitVec 2) : Mode :=
  match code.toNat with
  | 0 => kernel
  | 1 => supervisor
  | 2 => undefined
  | _ => user

@[simp]
theorem ofCode_code (mode : Mode) : ofCode mode.code = mode := by
  cases mode <;> rfl

@[simp]
theorem code_ofCode (code : BitVec 2) : (ofCode code).code = code := by
  revert code
  decide

/-- The mode whose code has every bit that either code has. -/
def join (first second : Mode) : Mode :=
  ofCode (first.code ||| second.code)

end Mode

end Pdp11
