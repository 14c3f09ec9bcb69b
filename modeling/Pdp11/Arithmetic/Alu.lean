import Pdp11.Arithmetic.Signals

/-!
# The arithmetic and logic unit

Every operation cuts its operands to the width, works on words and cuts the
result to the width again. A shift moves the operand by one place and reports
the bit that left.
-/

namespace Pdp11

/-- The operations of the unit on two operands; some use only the first. -/
inductive AluOp
  | add
  | addCarry
  | sub
  | subCarry
  | inc
  | dec
  | neg
  | and
  | or
  | xor
  | not
deriving DecidableEq

/-- Shifts and rotations by one place; the rotations go through the carry. -/
inductive ShiftOp
  | asr
  | asl
  | ror
  | rol
deriving DecidableEq

/-- The carry as a number. -/
def carryWord (carry : Bool) : Word :=
  (BitVec.ofBool carry).setWidth 16

namespace AluOp

/-- The result of an operation on words, before it is cut to a width. -/
def compute (op : AluOp) (first second : Word) (carry : Bool) : Word :=
  match op with
  | add => first + second
  | addCarry => first + carryWord carry
  | sub => first - second
  | subCarry => first - carryWord carry
  | inc => first + 1
  | dec => first - 1
  | neg => 0 - first
  | and => first &&& second
  | or => first ||| second
  | xor => first ^^^ second
  | not => ~~~first

/-- The carry or borrow of the operations that report one; the operands are
cut to `width`. -/
def carryOut (op : AluOp) (first second : Word) (width : Width) (carry : Bool) : Bool :=
  match op with
  | add => first.toNat + second.toNat > width.mask.toNat
  | addCarry => first.toNat + carry.toNat > width.mask.toNat
  | sub => second > first
  | subCarry => carry && first = 0
  | inc | dec | neg | and | or | xor | not => false

/-- The result of an operation, cut to the width, and the signals it leaves. -/
def run (op : AluOp) (first second : Word) (width : Width) (carry : Bool) : Word × Signals :=
  let first := first &&& width.mask
  let second := second &&& width.mask
  (op.compute first second carry &&& width.mask,
    { Signals.quiet with
      first := first
      second := second
      carryIn := carry
      carryOut := op.carryOut first second width carry })

end AluOp

namespace ShiftOp

/-- The shifted operand and the bit that left it. -/
def run (op : ShiftOp) (operand : Word) (width : Width) (carry : Bool) : Word × Bool :=
  let operand := operand &&& width.mask
  let negative := operand &&& width.signBit != 0
  match op with
  | asr => ((operand >>> 1 ||| operand &&& width.signBit) &&& width.mask, operand.getLsbD 0)
  | asl => (operand <<< 1 &&& width.mask, negative)
  | ror =>
    ((operand >>> 1 ||| if carry then width.signBit else 0) &&& width.mask, operand.getLsbD 0)
  | rol => ((operand <<< 1 ||| carryWord carry) &&& width.mask, negative)

end ShiftOp

end Pdp11
