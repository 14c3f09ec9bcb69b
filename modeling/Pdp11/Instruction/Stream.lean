import Pdp11.Instruction.Operand

/-!
# The rest of the instruction stream

While the operands of an instruction are worked out, each takes the extension
words it needs from the front of what the operands before it have left. The
address of the next word is what an operand sees as the program counter.
-/

namespace Pdp11

/-- Extension words that no operand has taken yet. -/
structure InstructionStream where
  /-- Address of the next word. -/
  cursor : Word
  words : List Word
deriving DecidableEq

/-- Words in a row are passed in one go or part by part. -/
theorem advance_add (cursor : Word) (first second : Nat) :
    cursor + 2 * BitVec.ofNat 16 (first + second) =
      cursor + 2 * BitVec.ofNat 16 first + 2 * BitVec.ofNat 16 second := by
  rw [BitVec.ofNat_add, BitVec.mul_add, BitVec.add_assoc]

namespace InstructionStream

/-- The next word, or zero past the end of the extension. -/
def head (stream : InstructionStream) : Word :=
  stream.words.headD 0

/-- The stream after its next word. -/
def tail (stream : InstructionStream) : InstructionStream where
  cursor := stream.cursor + 2
  words := stream.words.tail

/-- The next word taken as a distance from the address after it. -/
def relativeAddress (stream : InstructionStream) : Word :=
  stream.head + stream.tail.cursor

end InstructionStream

/-- What `operand` leaves of the stream. -/
def Operand.rest (operand : Operand) (stream : InstructionStream) : InstructionStream :=
  if operand.takesWord then stream.tail else stream

end Pdp11
