import Pdp11.Register.Core

/-!
# Operands

An operand field has a register in its low three bits and an addressing mode
in its high three. Modes that use the program counter as their register take
the word that follows in the instruction stream.
-/

namespace Pdp11

/-- How an operand is found from its register. -/
inductive AddressingMode
  | register
  | registerDeferred
  | autoincrement
  | autoincrementDeferred
  | autodecrement
  | autodecrementDeferred
  | index
  | indexDeferred
deriving DecidableEq

namespace AddressingMode

/-- The mode that a three-bit field selects. -/
def ofField (field : BitVec 3) : AddressingMode :=
  match field.toNat with
  | 0 => register
  | 1 => registerDeferred
  | 2 => autoincrement
  | 3 => autoincrementDeferred
  | 4 => autodecrement
  | 5 => autodecrementDeferred
  | 6 => index
  | _ => indexDeferred

theorem ofField_inj {first second : BitVec 3} : ofField first = ofField second ↔ first = second := by
  revert first second
  decide

/-- The address found is that of a pointer, or of a register's target. -/
def isDeferred : AddressingMode → Bool
  | registerDeferred | autoincrementDeferred | autodecrementDeferred | indexDeferred => true
  | register | autoincrement | autodecrement | index => false

end AddressingMode

/-- A register, and how the operand is found from it. -/
structure Operand where
  mode : AddressingMode
  reg : Reg
deriving DecidableEq

namespace Operand

/-- The operand that a six-bit field of an instruction names. -/
def ofField (field : BitVec 6) : Operand where
  mode := .ofField (field.extractLsb' 3 3)
  reg := .ofField (field.extractLsb' 0 3)

theorem isGeneral_ofField (field : BitVec 6) : (ofField field).reg.isGeneral :=
  Reg.isGeneral_ofField (field.extractLsb' 0 3)

/-- The operand takes a word of the instruction stream. -/
def takesWord (operand : Operand) : Bool :=
  match operand.mode with
  | .index | .indexDeferred => true
  | .autoincrement | .autoincrementDeferred => operand.reg = .pc
  | _ => false

/-- The amount by which an autoincrement or autodecrement moves the register:
one byte only for byte operands found directly through `R0` to `R5`. -/
def step (operand : Operand) (width : Width) : Word :=
  if width = .byte ∧ !operand.mode.isDeferred ∧ operand.reg ≠ .sp ∧ operand.reg ≠ .pc then
    1
  else
    2

end Operand

end Pdp11
