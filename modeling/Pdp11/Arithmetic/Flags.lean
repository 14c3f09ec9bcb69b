import Pdp11.Arithmetic.Signals
import Pdp11.Status.ConditionCodes

/-!
# Condition codes of a result

Each rule gives the four condition codes from a result, the signals left by
the operation and the codes before it. Branch conditions read the codes.
-/

namespace Pdp11

/-- Which operation the condition codes are for. -/
inductive FlagRule
  | logical
  | clear
  | complement
  | increment
  | decrement
  | negate
  | addCarry
  | subCarry
  | test
  | add
  | subtract
  | shift
  | swapBytes
  | signExtend
  | multiply
  | divide
  | arithmeticShift
  | arithmeticShiftCombined
deriving DecidableEq

namespace FlagRule

/-- The condition codes for `value`, which is cut to `width`. -/
def evaluate (rule : FlagRule) (value : Word) (width : Width) (signals : Signals)
    (old : ConditionCodes) : ConditionCodes :=
  let sign := width.signBit
  let negative := value &&& sign != 0
  let zero := value == 0
  let signOf (word : Word) : Bool := word &&& sign != 0
  match rule with
  | logical => { negative, zero, overflow := false, carry := old.carry }
  | clear => { negative := false, zero := true, overflow := false, carry := false }
  | complement => { negative, zero, overflow := false, carry := true }
  | increment => { negative, zero, overflow := value == sign, carry := old.carry }
  | decrement => { negative, zero, overflow := value == sign - 1, carry := old.carry }
  | negate => { negative, zero, overflow := value == sign, carry := !zero }
  | addCarry =>
    { negative
      zero
      overflow := signals.carryIn && value == sign
      carry := signals.carryIn && zero }
  | subCarry =>
    { negative
      zero
      overflow := signals.first == sign
      carry := signals.carryIn && signals.first == 0 }
  | test => { negative, zero, overflow := false, carry := false }
  | add =>
    { negative
      zero
      overflow := signOf (~~~(signals.first ^^^ signals.second) &&& (signals.first ^^^ value))
      carry := signals.carryOut }
  | subtract =>
    { negative
      zero
      overflow := signOf ((signals.first ^^^ signals.second) &&& (signals.first ^^^ value))
      carry := signals.carryOut }
  | shift =>
    { negative
      zero
      overflow := negative != signals.shiftedOut
      carry := signals.shiftedOut }
  | swapBytes =>
    { negative := value.getLsbD 7
      zero := lowByte value == 0
      overflow := false
      carry := false }
  | signExtend =>
    { negative := old.negative
      zero := !old.negative
      overflow := false
      carry := old.carry }
  | multiply =>
    let product := signals.wide.toInt
    { negative := product < 0
      zero := product = 0
      overflow := false
      carry := product < -0x8000 ∨ product ≥ 0x8000 }
  | divide =>
    match signals.division with
    | .completed => { negative, zero, overflow := false, carry := false }
    | .byZero => { negative := false, zero := true, overflow := true, carry := true }
    | .overflow negative => { negative, zero := false, overflow := true, carry := false }
  | arithmeticShift =>
    { negative
      zero
      overflow := signals.signChanged
      carry := signals.shiftedOut }
  | arithmeticShiftCombined =>
    { negative := signals.wide.msb
      zero := signals.wide == 0
      overflow := signals.signChanged
      carry := signals.shiftedOut }

end FlagRule

/-- A condition on the condition codes alone. -/
inductive FlagCondition
  | always
  | ne
  | eq
  | ge
  | lt
  | gt
  | le
  | pl
  | mi
  | hi
  | los
  | vc
  | vs
  | cc
  | cs
deriving DecidableEq

namespace FlagCondition

/-- The condition holds of `codes`. -/
def holds (condition : FlagCondition) (codes : ConditionCodes) : Bool :=
  match condition with
  | always => true
  | ne => !codes.zero
  | eq => codes.zero
  | ge => codes.negative == codes.overflow
  | lt => codes.negative != codes.overflow
  | gt => !codes.zero && codes.negative == codes.overflow
  | le => codes.zero || codes.negative != codes.overflow
  | pl => !codes.negative
  | mi => codes.negative
  | hi => !codes.carry && !codes.zero
  | los => codes.carry || codes.zero
  | vc => !codes.overflow
  | vs => codes.overflow
  | cc => !codes.carry
  | cs => codes.carry

end FlagCondition

end Pdp11
