import Pdp11.Word

/-!
# Signals for the condition codes

An arithmetic operation leaves signals beside its result. The condition codes
are worked out later, from the stored result and the signals of the operation
that made it.
-/

namespace Pdp11

/-- What came of the last division. -/
inductive DivisionStatus
  | completed
  | byZero
  /-- The quotient does not fit; `negative` gives its sign. -/
  | overflow (negative : Bool)
deriving DecidableEq

/-- What the last arithmetic operation leaves beside its result. -/
structure Signals where
  /-- First operand, cut to the width of the operation. -/
  first : Word
  /-- Second operand, cut to the width of the operation. -/
  second : Word
  carryIn : Bool
  carryOut : Bool
  /-- The last bit shifted out. -/
  shiftedOut : Bool
  /-- The sign differed from that of the operand at some point of a shift. -/
  signChanged : Bool
  /-- Double-length result. -/
  wide : BitVec 32
  division : DivisionStatus
deriving DecidableEq

namespace Signals

/-- What an instruction starts with. -/
def quiet : Signals where
  first := 0
  second := 0
  carryIn := false
  carryOut := false
  shiftedOut := false
  signChanged := false
  wide := 0
  division := .completed

end Signals

end Pdp11
