import Pdp11.Status.ConditionCodes
import Pdp11.Status.Mode

/-!
# The processor status word

The status word holds the current and previous modes, the choice of general
register set, the processor priority, the trace flag and the condition codes.
Packed into a word, bits 10 to 8 belong to no field and read as zero.
-/

namespace Pdp11

/-- The status word, field by field. -/
structure Psw where
  mode : Mode
  previousMode : Mode
  /-- The second set of general registers is selected. -/
  alternateSet : Bool
  priority : BitVec 3
  trace : Bool
  codes : ConditionCodes
deriving DecidableEq

namespace Psw

/-- The status word as a program reads it. -/
def bits (psw : Psw) : Word :=
  (psw.mode.code ++ psw.previousMode.code ++ BitVec.ofBool psw.alternateSet ++ 0#3 ++
    psw.priority ++ BitVec.ofBool psw.trace ++ psw.codes.code).setWidth 16

/-- The fields of a word; bits 10 to 8 are lost. -/
def ofBits (bits : Word) : Psw where
  mode := Mode.ofCode (bits.extractLsb' 14 2)
  previousMode := Mode.ofCode (bits.extractLsb' 12 2)
  alternateSet := bits.getLsbD 11
  priority := bits.extractLsb' 5 3
  trace := bits.getLsbD 4
  codes := ConditionCodes.ofCode (bits.extractLsb' 0 4)

theorem getLsbD_bits (psw : Psw) (position : Nat) :
    psw.bits.getLsbD position = (decide (position < 16) &&
      if position < 4 then psw.codes.code.getLsbD position
      else if position < 5 then psw.trace
      else if position < 8 then psw.priority.getLsbD (position - 5)
      else if position < 11 then false
      else if position < 12 then psw.alternateSet
      else if position < 14 then psw.previousMode.code.getLsbD (position - 12)
      else psw.mode.code.getLsbD (position - 14)) := by
  simp only [bits, BitVec.getLsbD_setWidth, BitVec.getLsbD_append, BitVec.getLsbD_ofBool,
    BitVec.getLsbD_zero, Nat.sub_sub]
  grind

/-- A status word is determined by its bits. -/
@[simp]
theorem ofBits_bits (psw : Psw) : ofBits psw.bits = psw := by
  have field {w : Nat} (start : Nat) (value : BitVec w)
      (agree : ∀ i, i < w → psw.bits.getLsbD (start + i) = value.getLsbD i) :
      psw.bits.extractLsb' start w = value := by
    apply BitVec.eq_of_getLsbD_eq
    intro i below
    simp [below, agree]
  have mode := field 14 psw.mode.code (by grind [getLsbD_bits])
  have previousMode := field 12 psw.previousMode.code (by grind [getLsbD_bits])
  have priority := field 5 psw.priority (by grind [getLsbD_bits])
  have codes := field 0 psw.codes.code (by grind [getLsbD_bits])
  simp only [ofBits, mode, previousMode, priority, codes, getLsbD_bits, Mode.ofCode_code,
    ConditionCodes.ofCode_code]
  rfl

/-- The status word after a return from interrupt popped `popped`. Outside
kernel mode the priority stays and the mode and register set fields can only
gain bits. -/
def returned (psw popped : Psw) : Psw :=
  if psw.mode = .kernel then
    popped
  else
    { popped with
      mode := psw.mode.join popped.mode
      previousMode := psw.previousMode.join popped.previousMode
      alternateSet := psw.alternateSet || popped.alternateSet
      priority := psw.priority }

/-- The status word after a move to it: the condition codes, and in kernel
mode also the priority, come from `moved`. -/
def moved (psw moved : Psw) : Psw :=
  if psw.mode = .kernel then
    { psw with
      priority := moved.priority
      codes := moved.codes }
  else
    { psw with codes := moved.codes }

/-- The status word in which a handler starts: the word at the vector with the
interrupted mode as its previous mode. -/
def entered (vectored interrupted : Psw) : Psw :=
  { vectored with previousMode := interrupted.mode }

end Psw

end Pdp11
