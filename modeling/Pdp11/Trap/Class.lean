import Pdp11.Word

/-!
# Trap classes

Every exceptional condition belongs to one of twelve classes. The classes are
listed from the one served first to the one served last.
-/

namespace Pdp11

/-- The classes of exceptional conditions, in the order of service. -/
inductive TrapClass
  | oddAddress
  | busError
  | mmuAbort
  | illegal
  | reserved
  | breakpoint
  | iot
  | emt
  | trap
  | stackOverflow
  | mmuTrap
  | trace
deriving DecidableEq

namespace TrapClass

/-- The classes in the order of service. -/
def all : List TrapClass :=
  [oddAddress, busError, mmuAbort, illegal, reserved, breakpoint, iot, emt, trap,
    stackOverflow, mmuTrap, trace]

/-- Position of a class in the order of service. -/
def rank : TrapClass → Fin 12
  | oddAddress => 0
  | busError => 1
  | mmuAbort => 2
  | illegal => 3
  | reserved => 4
  | breakpoint => 5
  | iot => 6
  | emt => 7
  | trap => 8
  | stackOverflow => 9
  | mmuTrap => 10
  | trace => 11

/-- Address of the pair of words that hold the handler's start and status. -/
def vector : TrapClass → Word
  | oddAddress | busError | illegal | stackOverflow => 0o4
  | reserved => 0o10
  | breakpoint | trace => 0o14
  | iot => 0o20
  | emt => 0o30
  | trap => 0o34
  | mmuAbort | mmuTrap => 0o250

/-- An abort cancels the rest of the instruction that meets it. -/
def isAbort : TrapClass → Bool
  | oddAddress | busError | mmuAbort => true
  | _ => false

theorem rank_inj {first second : TrapClass} : first.rank = second.rank ↔ first = second := by
  cases first <;> cases second <;> decide

end TrapClass

end Pdp11
