import Pdp11.Instruction.Core
import Pdp11.Octal

/-!
# Assembler listings

A listing shows each instruction as an assembler would accept it: numbers in
octal, operands relative to the program counter as the address they reach, and
words that are no instruction as data.
-/

namespace Pdp11

/-- One instruction of a listing. -/
structure ListingRow where
  address : Word
  /-- The instruction word and its extension. -/
  words : List Word
  mnemonic : String
  operands : String
  /-- The word is no instruction that could be carried out. -/
  illegal : Bool
deriving DecidableEq

namespace ListingRow

/-- The row without its address: the mnemonic, and behind a blank the operands. -/
def text (row : ListingRow) : String :=
  if row.operands.isEmpty then
    row.mnemonic
  else
    row.mnemonic ++ " " ++ row.operands

end ListingRow

/-- Only the registers that an instruction can name have names. -/
def Reg.text : Reg → String
  | r0 => "R0"
  | r1 => "R1"
  | r2 => "R2"
  | r3 => "R3"
  | r4 => "R4"
  | r5 => "R5"
  | sp => "SP"
  | pc => "PC"
  | _ => "??"

/-- A word in octal. -/
def octalWord (word : Word) : String :=
  octal word.toNat

/-- The text of an operand, given the stream that its extension word would
come from. -/
def Operand.text (operand : Operand) (stream : InstructionStream) : String :=
  let register := operand.reg.text
  match operand.mode with
  | .register => register
  | .registerDeferred => "(" ++ register ++ ")"
  | .autoincrement =>
    if operand.reg = .pc then "#" ++ octalWord stream.head else "(" ++ register ++ ")+"
  | .autoincrementDeferred =>
    if operand.reg = .pc then "@#" ++ octalWord stream.head else "@(" ++ register ++ ")+"
  | .autodecrement => "-(" ++ register ++ ")"
  | .autodecrementDeferred => "@-(" ++ register ++ ")"
  | .index =>
    if operand.reg = .pc then octalWord stream.relativeAddress
    else octalWord stream.head ++ "(" ++ register ++ ")"
  | .indexDeferred =>
    if operand.reg = .pc then "@" ++ octalWord stream.relativeAddress
    else "@" ++ octalWord stream.head ++ "(" ++ register ++ ")"

namespace Instruction

/-- The names of the flags in the low bits of `word`, each as the operation
that clears or sets it alone. -/
def flagMnemonic (word : Word) (set : Bool) : String :=
  let flags : List (Nat × String × String) :=
    [(0, "CLC", "SEC"), (1, "CLV", "SEV"), (2, "CLZ", "SEZ"), (3, "CLN", "SEN")]
  let selected := flags.filter fun (position, _) => word.getLsbD position
  if selected.isEmpty then "NOP"
  else if selected.length = flags.length then if set then "SCC" else "CCC"
  else "!".intercalate (selected.map fun (_, clears, sets) => if set then sets else clears)

/-- The mnemonic of `instruction`; the flags that it clears or sets
have names of their own. -/
def mnemonicText (instruction : Instruction) : String :=
  match instruction.opcode with
  | .clearCc | .setCc => flagMnemonic instruction.word (instruction.word.getLsbD 4)
  | opcode =>
    if opcode.isByteForm instruction.word then opcode.mnemonic ++ "B" else opcode.mnemonic

/-- The operands of `instruction`, in the order in which an assembler takes them. -/
def operandText (instruction : Instruction) : String :=
  let stream := instruction.stream
  let destination := instruction.destination
  match instruction.format with
  | .noOperand => ""
  | .registerUnary => instruction.lowRegister.text
  | .immediateUnary =>
    match instruction.opcode with
    | .spl => octalWord (instruction.word &&& 0o7)
    | .emt | .trap => octalWord (instruction.word &&& 0o377)
    | _ => ""
  | .offsetCount =>
    if instruction.opcode = .sob then
      instruction.registerField.text ++ "," ++ octalWord instruction.loopTarget
    else
      octalWord instruction.count
  | .branch => octalWord instruction.branchTarget
  | .singleSource | .singleDest => destination.text stream
  | .registerSource => destination.text stream ++ "," ++ instruction.registerField.text
  | .registerDest => instruction.registerField.text ++ "," ++ destination.text stream
  | .sourceDest =>
    instruction.source.text stream ++ "," ++
      destination.text (instruction.source.rest stream)

end Instruction

/-- The row of a word that stands for itself. -/
def ListingRow.ofData (address word : Word) : ListingRow where
  address := address
  words := [word]
  mnemonic := ".WORD"
  operands := octalWord word
  illegal := true

/-- The row of an instruction that could be carried out. -/
def ListingRow.ofInstruction (instruction : Instruction) : ListingRow where
  address := instruction.pc
  words := instruction.word :: instruction.extension
  mnemonic := instruction.mnemonicText
  operands := instruction.operandText
  illegal := false

/-- The row of the instruction at the head of `words`, unless its extension is
cut off. -/
def ListingRow.ofWords? (pc : Word) (words : List Word) : Option ListingRow :=
  match words with
  | [] => none
  | word :: rest =>
    match WordClass.of word with
    | .reserved | .illegal _ => some (.ofData pc word)
    | .legal opcode =>
      let bare : Instruction := { pc, word, opcode, extension := [] }
      let needed := bare.extensionLength
      if needed ≤ rest.length then
        some (.ofInstruction { bare with extension := rest.take needed })
      else
        none

/-- The rows of at most `count` instructions, each after the one before it. -/
def listingRows (start : Word) (words : List Word) : Nat → List ListingRow
  | 0 => []
  | count + 1 =>
    match ListingRow.ofWords? start words with
    | none => []
    | some row =>
      let length := row.words.length
      row :: listingRows (start + 2 * BitVec.ofNat 16 length) (words.drop length) count

/-- Why there is no listing. -/
inductive ListingError
  /-- The rows that are asked for take more room than can be reserved at all. -/
  | capacityOverflow
deriving DecidableEq

/-- The error as the operator reads it. -/
def ListingError.message : ListingError → String
  | .capacityOverflow => "capacity overflow"

/-- How many bytes a row takes; its words and texts stand elsewhere. -/
def ListingRow.size : Nat :=
  80

/-- The most bytes that can be reserved at once, where addresses have 64 bits. -/
def reservationLimit : Nat :=
  0x7fffffffffffffff

/-- A listing of at most `count` instructions. Room for that many rows is reserved before
the first one is made. -/
def listing (start : Word) (words : List Word) (count : Nat) :
    Except ListingError (List ListingRow) :=
  if count * ListingRow.size ≤ reservationLimit then
    .ok (listingRows start words count)
  else
    .error .capacityOverflow

end Pdp11
