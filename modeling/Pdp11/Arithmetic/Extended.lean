import Pdp11.Arithmetic.Signals

/-!
# Multiplication, division and long shifts

These operations are signed and work on words and pairs of words, the high
word first. A long shift is repeated one place at a time and keeps note of
what it passes.
-/

namespace Pdp11

/-- Two words side by side. -/
def pair (high low : Word) : BitVec 32 :=
  high ++ low

/-- The first word of a pair. -/
def pairHigh (wide : BitVec 32) : Word :=
  wide.extractLsb' 16 16

/-- The second word of a pair. -/
def pairLow (wide : BitVec 32) : Word :=
  wide.extractLsb' 0 16

/-- The signed product of two words. -/
def multiply (first second : Word) : BitVec 32 :=
  first.signExtend 32 * second.signExtend 32

/-- Quotient and remainder of `high:low` by `divisor`, the quotient cut toward
zero; the status says why there is none. -/
def divide (high low divisor : Word) : Except DivisionStatus (Word × Word) :=
  let dividend := (pair high low).toInt
  let signed := divisor.toInt
  if signed = 0 then
    .error .byZero
  else
    let quotient := dividend.tdiv signed
    if -0x8000 ≤ quotient ∧ quotient < 0x8000 then
      .ok (BitVec.ofInt 16 quotient, BitVec.ofInt 16 (dividend.tmod signed))
    else
      .error (.overflow (decide (dividend < 0) != decide (signed < 0)))

/-- The number of places in the low six bits of `count`, negative to the
right. -/
def signedCount (count : Word) : Int :=
  (count.extractLsb' 0 6).toInt

/-- A shift under way. -/
structure LongShift (width : Nat) where
  value : BitVec width
  /-- The last bit that left. -/
  shiftedOut : Bool
  /-- The sign differed from the first one at some point. -/
  signChanged : Bool
deriving DecidableEq

namespace LongShift

variable {width : Nat}

/-- A shift before its first place. -/
def start (value : BitVec width) : LongShift width where
  value := value
  shiftedOut := false
  signChanged := false

/-- One place to the left, where `sign` is the sign of the operand. -/
def left (sign : Bool) (shift : LongShift width) : LongShift width where
  value := shift.value <<< 1
  shiftedOut := shift.value.msb
  signChanged := shift.signChanged || (shift.value <<< 1).msb != sign

/-- One place to the right, keeping the sign. -/
def right (shift : LongShift width) : LongShift width where
  value := shift.value.sshiftRight 1
  shiftedOut := shift.value.getLsbD 0
  signChanged := shift.signChanged

/-- `value` shifted left by `places`, or right if `places` is negative. -/
def run (value : BitVec width) (places : Int) : LongShift width :=
  if places > 0 then
    Nat.repeat (left value.msb) places.toNat (start value)
  else
    Nat.repeat right places.natAbs (start value)

end LongShift

/-- A word shifted by the low six bits of `count`. -/
def shiftArithmetic (value count : Word) : LongShift 16 :=
  .run value (signedCount count)

/-- A pair of words shifted by the low six bits of `count`. -/
def shiftArithmeticPair (high low count : Word) : LongShift 32 :=
  .run (pair high low) (signedCount count)

end Pdp11
