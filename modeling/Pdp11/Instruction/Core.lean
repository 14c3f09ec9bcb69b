import Pdp11.Instruction.Opcode
import Pdp11.Instruction.Stream

/-!
# Instructions

An instruction is a word with its operation, the address it was found at and
the extension words that follow it. The fields of the word are read the same
way for every operation; the format of the operation says which of them mean
something.
-/

namespace Pdp11

/-- An instruction with the address of its word and the words
that it takes behind it. -/
structure Instruction where
  pc : Word
  word : Word
  opcode : Opcode
  extension : List Word
deriving DecidableEq

namespace Instruction

/-- The most extension words an instruction has, one per operand. -/
def maxExtension : Nat := 2

/-- The instruction at the head of `words`, with up to two of the words after
it as its extension. -/
def ofWords? (pc : Word) (words : List Word) (opcode? : Option Opcode) : Option Instruction :=
  match words with
  | [] => none
  | word :: rest =>
    (opcode? <|> Opcode.ofWord? word).map fun opcode =>
      { pc := pc
        word := word
        opcode := opcode
        extension := rest.take maxExtension }

/-- Which fields the instruction word has. -/
def format (instruction : Instruction) : InstructionFormat :=
  instruction.opcode.format

/-- The width that the instruction acts on. -/
def width (instruction : Instruction) : Width :=
  instruction.opcode.width instruction.word

/-- The operand in bits 11 to 6. -/
def source (instruction : Instruction) : Operand :=
  .ofField (instruction.word.extractLsb' 6 6)

/-- The operand in bits 5 to 0. -/
def destination (instruction : Instruction) : Operand :=
  .ofField (instruction.word.extractLsb' 0 6)

/-- The register in bits 8 to 6. -/
def registerField (instruction : Instruction) : Reg :=
  .ofField (instruction.word.extractLsb' 6 3)

/-- The register in bits 2 to 0. -/
def lowRegister (instruction : Instruction) : Reg :=
  .ofField (instruction.word.extractLsb' 0 3)

/-- The signed offset, in words, in bits 7 to 0. -/
def branchOffset (instruction : Instruction) : Word :=
  (instruction.word.extractLsb' 0 8).signExtend 16

/-- Where a branch goes: so many words from the one behind it. -/
def branchTarget (instruction : Instruction) : Word :=
  instruction.pc + 2 + 2 * instruction.branchOffset

/-- The count of words in bits 5 to 0. -/
def count (instruction : Instruction) : Word :=
  instruction.word &&& 0o77

/-- The address after the instruction and its extension. -/
def nextPc (instruction : Instruction) : Word :=
  instruction.pc + 2 + 2 * BitVec.ofNat 16 instruction.extension.length

/-- Where a loop instruction goes while its count lasts. -/
def loopTarget (instruction : Instruction) : Word :=
  instruction.nextPc - 2 * instruction.count

/-- The stream right after the instruction word. -/
def stream (instruction : Instruction) : InstructionStream where
  cursor := instruction.pc + 2
  words := instruction.extension

/-- The operands that may take extension words, in the order of the words. -/
def operands (instruction : Instruction) : List Operand :=
  match instruction.format with
  | .sourceDest => [instruction.source, instruction.destination]
  | .singleSource | .singleDest | .registerSource | .registerDest => [instruction.destination]
  | .noOperand | .registerUnary | .immediateUnary | .offsetCount | .branch => []

/-- How many extension words the operands take. -/
def extensionLength (instruction : Instruction) : Nat :=
  instruction.operands.countP Operand.takesWord

end Instruction

end Pdp11
