import Pdp11.Octal
import Pdp11.Word

/-!
# Conditions that stop the machine

Two of the three would be mistakes of the microcode. The third is a handler
that cannot be entered, on its own stack or on the emergency stack.
-/

namespace Pdp11

/-- The most micro-operations that one instruction may take. -/
def pipelineCapacity : Nat := 32

/-- The most register writes that one micro-operation may post. -/
def maxWrites : Nat := 2

/-- Why the machine stops for good. -/
inductive MachineError
  | pipelineOverflow (attempted : Nat)
  | excessWrites (index : Nat)
  | doubleFault (vector : Word)
deriving DecidableEq

namespace MachineError

/-- The error as the operator reads it. -/
def message : MachineError → String
  | pipelineOverflow attempted =>
    s!"micro-op pipeline overflow: {attempted} entries exceed capacity {pipelineCapacity}"
  | excessWrites index => s!"micro-op {index} posted more than two register writes"
  | doubleFault vector =>
    "double fault while entering trap vector 0o" ++ octal vector.toNat

end MachineError

end Pdp11
