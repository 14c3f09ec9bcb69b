import Pdp11.Instruction.Core
import Pdp11.Machine.Core
import Pdp11.Machine.Effect
import Pdp11.Proofs.Arithmetic.OnePlace

/-!
# A direct interpreter

The interpreter carries out an instruction as its description reads: it finds
the source and reads it, finds the destination and reads it, computes, assigns
the result and sets the condition codes. It knows the program counter as a
register like any other, which moves past each word as the word is consumed. What an
operation computes it says in the integers, or bit by bit.

It covers the moves, the arithmetic and logic of one and two operands and the
shifts, without relocation and within memory; it has no result where an
instruction of these would trap or use a device register.
-/

namespace Pdp11

universe u

/-- What a program sees of a machine; the scratch registers play no part. -/
structure View where
  registers : RegisterFile
  psw : Psw
  ram : Ram

/-- What a program sees of `machine`. -/
def Machine.view {δ : Type u} (machine : Machine δ) : View where
  registers := machine.registers
  psw := machine.psw
  ram := machine.ram

namespace View

/-- The word in a register, as the status word sees it. -/
def reg (view : View) (reg : Reg) : Word :=
  view.registers.get (reg.cell view.psw)

/-- Put `value` into a register, as the status word sees it. -/
def setReg (view : View) (reg : Reg) (value : Word) : View :=
  { view with registers := view.registers.set (reg.cell view.psw) value }

/-! ## Memory -/

/-- A word at an even address or a byte, in memory below the device registers. -/
def load? (view : View) (address : Word) (width : Width) : Option Word :=
  if address ≥ unrelocatedWindow then
    none
  else
    match width with
    | .word => if isOdd address then none else view.ram.readWord? address.toNat
    | .byte => (view.ram.readByte? address.toNat).map (·.setWidth 16)

/-- A word goes to an even address, a byte to any, in memory
below the device registers. -/
def store? (view : View) (address value : Word) (width : Width) : Option View :=
  if address ≥ unrelocatedWindow then
    none
  else
    let stored :=
      match width with
      | .word => if isOdd address then none else view.ram.writeWord? address.toNat value
      | .byte => view.ram.writeByte? address.toNat (lowByte value)
    stored.map fun ram => { view with ram := ram }

/-- Consume the word at the program counter. -/
def next? (view : View) : Option (Word × View) := do
  let pc := view.reg .pc
  let word ← view.load? pc .word
  return (word, view.setReg .pc (pc + 2))

/-! ## Operands -/

/-- Where an operand is. -/
inductive Place
  | register (reg : Reg)
  | memory (address : Word)
deriving DecidableEq

/-- One for a byte found directly through `R0` to `R5`, and otherwise two. -/
def stride (width : Width) (reg : Reg) : Word :=
  if width = .byte ∧ reg ≠ .sp ∧ reg ≠ .pc then 1 else 2

/-- Step a register down; the kernel stack must not pass its limit. -/
def stepDown? (view : View) (reg : Reg) (amount : Word) : Option View :=
  let lowered := view.reg reg - amount
  if reg = .pc ∨ (reg = .sp ∧ view.psw.mode = .kernel ∧ lowered < stackLimit) then
    none
  else
    some (view.setReg reg lowered)

/-- Step a register up and give its value before; the program counter steps
over a word of the instruction. -/
def stepUp? (view : View) (reg : Reg) (amount : Word) : Option (Word × View) :=
  let value := view.reg reg
  if reg = .pc then
    view.next?.map fun (_, view) => (value, view)
  else
    some (value, view.setReg reg (value + amount))

/-- Find an operand and take the side effect of its addressing mode. -/
def locate? (view : View) (operand : Operand) (width : Width) : Option (Place × View) :=
  let reg := operand.reg
  match operand.mode with
  | .register => some (.register reg, view)
  | .registerDeferred => if reg = .pc then none else some (.memory (view.reg reg), view)
  | .autoincrement => do
    let (address, view) ← view.stepUp? reg (stride width reg)
    return (.memory address, view)
  | .autoincrementDeferred => do
    let (pointer, view) ← view.stepUp? reg 2
    let address ← view.load? pointer .word
    return (.memory address, view)
  | .autodecrement => do
    let view ← view.stepDown? reg (stride width reg)
    return (.memory (view.reg reg), view)
  | .autodecrementDeferred => do
    let view ← view.stepDown? reg 2
    let address ← view.load? (view.reg reg) .word
    return (.memory address, view)
  | .index => do
    let (offset, view) ← view.next?
    return (.memory (view.reg reg + offset), view)
  | .indexDeferred => do
    let (offset, view) ← view.next?
    let address ← view.load? (view.reg reg + offset) .word
    return (.memory address, view)

/-- The operand at `place`, cut to the width if it is a register. -/
def fetch? (view : View) (place : Place) (width : Width) : Option Word :=
  match place with
  | .register reg => some (view.reg reg &&& width.mask)
  | .memory address => view.load? address width

/-- A byte goes into the low half of a register, or if `extend` is set into the
whole of it. -/
def assign? (view : View) (place : Place) (value : Word) (width : Width) (extend : Bool) :
    Option View :=
  match place with
  | .memory address => view.store? address value width
  | .register reg =>
    some <| view.setReg reg <|
      match width with
      | .word => value
      | .byte =>
        if extend then (lowByte value).signExtend 16
        else wordOfBytes (lowByte value) (highByte (view.reg reg))

end View

/-! ## Operations -/

/-- What an instruction does with its operands. -/
structure Operation where
  takesSource : Bool := false
  readsDestination : Bool := true
  assigns : Bool := true
  /-- A byte assigned to a register fills the whole of it. -/
  extendsByte : Bool := false
  /-- The outcome for a source, a destination and the codes before. -/
  compute : Width → Word → Word → ConditionCodes → Outcome

namespace Operation

/-- The destination becomes the source. -/
def move : Operation where
  takesSource := true
  readsDestination := false
  extendsByte := true
  compute := fun width source _ old => .of width source false old.carry

/-- The destination is taken from the source, for the condition codes alone. -/
def compare : Operation where
  takesSource := true
  assigns := false
  compute := fun width source destination old => .integer .sub width source destination old

/-- The bits that both have, for the condition codes alone. -/
def testBits : Operation where
  takesSource := true
  assigns := false
  compute := fun width source destination old =>
    .of width (source &&& destination) false old.carry

/-- The destination without the bits of the source. -/
def clearBits : Operation where
  takesSource := true
  compute := fun width source destination old =>
    .of width (destination &&& ~~~source) false old.carry

/-- The destination with the bits of the source. -/
def setBits : Operation where
  takesSource := true
  compute := fun width source destination old =>
    .of width (destination ||| source) false old.carry

/-- The source is added to the destination. -/
def add : Operation where
  takesSource := true
  compute := fun width source destination old => .integer .add width source destination old

/-- The source is taken from the destination. -/
def subtract : Operation where
  takesSource := true
  compute := fun width source destination old => .integer .sub width destination source old

/-- The destination becomes zero, whatever it was. -/
def clear : Operation where
  readsDestination := false
  compute := fun width _ _ _ => .of width 0 false false

/-- The destination is looked at for the condition codes alone. -/
def test : Operation where
  assigns := false
  compute := fun width _ destination _ => .of width destination false false

/-- Every bit of the destination is turned over, and the carry is set. -/
def complement : Operation where
  compute := fun width _ destination _ => .of width (~~~destination) false true

/-- Integer arithmetic on the destination alone. -/
def unary (operation : IntegerOp) : Operation where
  compute := fun width _ destination old =>
    .integer operation width destination destination old

/-- The carry is taken from the destination. -/
def subtractCarry : Operation where
  compute := fun width _ destination old => .subCarry width destination old

/-- The destination is shifted by one place. -/
def shift (op : ShiftOp) : Operation where
  compute := fun width _ destination old => .shift op width destination old

/-- The bytes of the destination change places. -/
def swapBytes : Operation where
  compute := fun _ _ destination _ => .swapBytes destination

/-- The destination filled with the negative flag. -/
def signExtend : Operation where
  readsDestination := false
  compute := fun width _ _ old => .signExtend width old

/-- What an operation does, if the interpreter covers it. -/
def of? : Opcode → Option Operation
  | .mov => some move
  | .cmp => some compare
  | .bit => some testBits
  | .bic => some clearBits
  | .bis => some setBits
  | .add => some add
  | .sub => some subtract
  | .clr => some clear
  | .tst => some test
  | .com => some complement
  | .inc => some (unary .inc)
  | .dec => some (unary .dec)
  | .neg => some (unary .neg)
  | .adc => some (unary .addCarry)
  | .sbc => some subtractCarry
  | .ror => some (shift .ror)
  | .rol => some (shift .rol)
  | .asr => some (shift .asr)
  | .asl => some (shift .asl)
  | .swab => some swapBytes
  | .sxt => some signExtend
  | _ => none

end Operation

namespace View

/-- The value of the source, once it is found. -/
def source? (view : View) (operation : Operation) (operand : Operand) (width : Width) :
    Option (Word × View) :=
  if operation.takesSource then do
    let (place, view) ← view.locate? operand width
    let value ← view.fetch? place width
    return (value, view)
  else
    some (0, view)

/-- The value of the destination, unless the operation overwrites it. -/
def destination? (view : View) (operation : Operation) (place : Place) (width : Width) :
    Option Word :=
  if operation.readsDestination then view.fetch? place width else some 0

/-- Put the result in its place, unless only the condition codes are wanted. -/
def conclude? (view : View) (operation : Operation) (place : Place) (result : Word)
    (width : Width) : Option View :=
  if operation.assigns then view.assign? place result width operation.extendsByte else some view

/-- Carry out `operation` on the operands that `word` names. -/
def perform? (view : View) (operation : Operation) (word : Word) (width : Width) :
    Option View := do
  let (source, view) ← view.source? operation (.ofField (word.extractLsb' 6 6)) width
  let (place, view) ← view.locate? (.ofField (word.extractLsb' 0 6)) width
  let destination ← view.destination? operation place width
  let outcome := operation.compute width source destination view.psw.codes
  let view ← view.conclude? operation place outcome.result width
  return { view with psw := { view.psw with codes := outcome.codes } }

/-- Carry out the instruction at the program counter. -/
def step? (view : View) : Option View := do
  let (word, view) ← view.next?
  let opcode ← Opcode.ofWord? word
  let operation ← Operation.of? opcode
  view.perform? operation word (opcode.width word)

end View

end Pdp11
