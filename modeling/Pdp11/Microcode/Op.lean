import Pdp11.Arithmetic.Alu
import Pdp11.Arithmetic.Flags
import Pdp11.Register.Core
import Pdp11.Relocation.Page
import Pdp11.Trap.Class

/-!
# Micro-operations

An instruction is carried out as a short sequence of micro-operations on the
registers, the status word and memory. Each names its registers; scratch
registers hold what one micro-operation leaves for a later one.
-/

namespace Pdp11

/-- Whose page tables a memory access goes through. -/
inductive ModeChoice
  | current
  | previous
  | kernel
deriving DecidableEq

/-- The address space a memory access goes to. -/
structure AccessSpace where
  mode : ModeChoice
  space : Space
deriving DecidableEq

namespace AccessSpace

/-- Data of the current mode. -/
def data : AccessSpace where
  mode := .current
  space := .data

/-- Data of kernel mode, where the vectors are. -/
def kernelData : AccessSpace where
  mode := .kernel
  space := .data

/-- A space of the previous mode. -/
def previous (space : Space) : AccessSpace where
  mode := .previous
  space := space

end AccessSpace

/-- Which fields of the status word a load replaces. -/
inductive PswRule
  /-- A return from interrupt. -/
  | ordinary
  /-- Entry to a handler, with the interrupted status word in `interrupted`. -/
  | exception (interrupted : Reg)
  /-- A move to the status word. -/
  | mtps
deriving DecidableEq

/-- When a branch is taken. -/
inductive BranchCondition
  | flags (condition : FlagCondition)
  | registerNonZero (reg : Reg)
deriving DecidableEq

namespace BranchCondition

/-- The branch is taken, where `codes` and the registers are as given. -/
def holds (condition : BranchCondition) (codes : ConditionCodes) (value : Reg → Word) : Bool :=
  match condition with
  | flags condition => condition.holds codes
  | registerNonZero reg => value reg != 0

end BranchCondition

/-- One step of an instruction. The first register named is the one that is written,
if there is one; a memory access names the register that holds its address. -/
inductive MicroOp
  | nop
  | halt
  | wait
  /-- Reset the bus. -/
  | reset
  | move (dst src : Reg)
  | loadImm (dst : Reg) (value : Word)
  | addImm (dst src : Reg) (value : Word)
  /-- Step a register by a signed amount and note the step for recovery. -/
  | step (reg : Reg) (amount : Word)
  | load (dst address : Reg) (width : Width) (space : AccessSpace)
  | store (address src : Reg) (width : Width) (space : AccessSpace)
  /-- Replace the low byte of a register. -/
  | insertByte (dst src : Reg)
  /-- Extend a byte by its sign into the whole register. -/
  | signExtendByte (dst src : Reg)
  | readPreviousSp (dst : Reg)
  | writePreviousSp (src : Reg)
  | readPsw (dst : Reg)
  | loadPsw (src : Reg) (rule : PswRule)
  | forceKernel
  | alu (op : AluOp) (dst first second : Reg) (width : Width)
  | shift (op : ShiftOp) (dst src : Reg) (width : Width)
  | swab (dst src : Reg)
  /-- Fill a register with the negative flag. -/
  | signExtend (dst : Reg)
  | mul (high low first second : Reg)
  | div (high low divisor : Reg)
  | shiftArith (dst src count : Reg)
  | shiftArithPair (high low count : Reg)
  /-- Set or clear the condition codes in the low four bits of `mask`. -/
  | conditionCodes (set : Bool) (mask : Word)
  | evalFlags (rule : FlagRule) (value : Reg) (width : Width)
  /-- Check the kernel stack pointer against the stack limit. -/
  | stackGuard
  | inhibitTrace
  | setPriority (level : Byte)
  | branch (condition : BranchCondition) (pc target : Word)
  | jump (pc : Word) (target : Reg)
  | raiseTrap (kind : TrapClass)
deriving DecidableEq

namespace MicroOp

/-- The micro-operation ends its instruction whenever it runs. -/
def endsInstruction : MicroOp → Bool
  | halt | wait | branch .. | jump .. | raiseTrap _ => true
  | _ => false

end MicroOp

end Pdp11
