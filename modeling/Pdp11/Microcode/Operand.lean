import Pdp11.Instruction.Core
import Pdp11.Microcode.Op

/-!
# Micro-operations for operands

Finding an operand leaves its address in a scratch register and takes the side
effects of its addressing mode. Source and destination have scratch registers
of their own, so that finding one does not disturb the other.
-/

namespace Pdp11

/-- The scratch registers that an operand is given. -/
inductive OperandSlot
  | source
  | destination
deriving DecidableEq

namespace OperandSlot

/-- The register for the value of the operand. -/
def value : OperandSlot → Reg
  | source => .s0
  | destination => .d0

/-- The register for the address of the operand. -/
def address : OperandSlot → Reg
  | source => .s1
  | destination => .d1

@[simp]
theorem isGeneral_value (slot : OperandSlot) : slot.value.isGeneral = false := by
  cases slot <;> rfl

@[simp]
theorem isGeneral_address (slot : OperandSlot) : slot.address.isGeneral = false := by
  cases slot <;> rfl

end OperandSlot

/-- Where an operand is once its address is known. -/
inductive OperandPlace
  | register (reg : Reg)
  /-- In memory, at the address in a scratch register. -/
  | memory (address : Reg)
  /-- A word of the instruction stream. -/
  | immediate (value address : Word)
deriving DecidableEq

/-- An operand, and the micro-operations that find it. -/
structure ResolvedOperand where
  place : OperandPlace
  ops : List MicroOp
  /-- What the operand leaves of the instruction stream. -/
  rest : InstructionStream
deriving DecidableEq

namespace MicroOp

/-- Step a register; the stack pointer is checked after a step down. -/
def stepRegister (reg : Reg) (amount : Word) : List MicroOp :=
  if amount.msb ∧ reg = .sp then [step reg amount, stackGuard] else [step reg amount]

/-- Replace the address of a pointer by the pointer. -/
def follow (address : Reg) : MicroOp :=
  load address address .word .data

/-- Copy a register, where the program counter reads as the address of the
next word of the stream. -/
def readRegister (dst src : Reg) (stream : InstructionStream) : MicroOp :=
  if src = .pc then loadImm dst stream.cursor else move dst src

/-- Step the stack pointer down and store a register there. -/
def push (src : Reg) : List MicroOp :=
  stepRegister .sp (-2) ++ [store .sp src .word .data]

/-- Load a register from the top of the stack and step the stack pointer up. -/
def pop (dst : Reg) : List MicroOp :=
  load dst .sp .word .data :: stepRegister .sp 2

end MicroOp

namespace Operand

/-- Where the operand at `stream` is. -/
def place (operand : Operand) (slot : OperandSlot) (stream : InstructionStream) : OperandPlace :=
  match operand.mode with
  | .register => .register operand.reg
  | .autoincrement =>
    if operand.reg = .pc then .immediate stream.head stream.cursor else .memory slot.address
  | _ => .memory slot.address

/-- Find the address of the operand at `stream`, and step its register. -/
def addressOps (operand : Operand) (width : Width) (slot : OperandSlot)
    (stream : InstructionStream) : List MicroOp :=
  let reg := operand.reg
  let address := slot.address
  let amount := operand.step width
  let stepUp := .move address reg :: MicroOp.stepRegister reg amount
  let stepDown := MicroOp.stepRegister reg (-amount) ++ [.move address reg]
  let indexed : MicroOp :=
    if reg = .pc then .loadImm address stream.relativeAddress
    else .addImm address reg stream.head
  match operand.mode with
  | .register => []
  | .registerDeferred => [.move address reg]
  | .autoincrement => if reg = .pc then [] else stepUp
  | .autoincrementDeferred =>
    if reg = .pc then [.loadImm address stream.head] else stepUp ++ [.follow address]
  | .autodecrement => stepDown
  | .autodecrementDeferred => stepDown ++ [.follow address]
  | .index => [indexed]
  | .indexDeferred => [indexed, .follow address]

/-- Find the operand at `stream` for an operation of the given width. -/
def resolve (operand : Operand) (width : Width) (slot : OperandSlot)
    (stream : InstructionStream) : ResolvedOperand where
  place := operand.place slot stream
  ops := operand.addressOps width slot stream
  rest := operand.rest stream

end Operand

namespace ResolvedOperand

/-- Bring the operand into the value register of `slot`. -/
def fetch (operand : ResolvedOperand) (width : Width) (slot : OperandSlot) : MicroOp :=
  match operand.place with
  | .register reg => .readRegister slot.value reg operand.rest
  | .memory address => .load slot.value address width .data
  | .immediate value _ => .loadImm slot.value value

/-- Replace the operand by `src`. A byte goes into the low half of a register,
or into the whole of it if `extend` is set. -/
def assign (operand : ResolvedOperand) (src : Reg) (width : Width) (extend : Bool)
    (space : AccessSpace) : List MicroOp :=
  match operand.place with
  | .register reg =>
    match width with
    | .word => [.move reg src]
    | .byte => if extend then [.signExtendByte reg src] else [.insertByte reg src]
  | .memory address => [.store address src width space]
  | .immediate _ address => [.loadImm .d1 address, .store .d1 src width space]

/-- The register that will hold the address of the operand, after the given
micro-operations; a register operand has no address. -/
def target? (operand : ResolvedOperand) : Option (Reg × List MicroOp) :=
  match operand.place with
  | .register _ => none
  | .memory address => some (address, [])
  | .immediate _ address => some (.d1, [.loadImm .d1 address])

end ResolvedOperand

end Pdp11
