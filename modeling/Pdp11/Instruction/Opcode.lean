import Pdp11.Word

/-!
# Operations and their patterns

An instruction word belongs to the operation whose pattern it matches under
the mask of that pattern. The byte form of an operation shares the pattern of
the word form and differs in bit 15.
-/

namespace Pdp11

/-- The operations; a byte form belongs to the operation of its word form. -/
inductive Opcode
  | halt | wait | rti | bpt | iot | reset | rtt | jmp | rts | spl | clearCc | setCc | swab | br
  | bne | beq | bge | blt | bgt | ble | jsr | clr | com | inc | dec | neg | adc | sbc | tst
  | ror | rol | asr | asl | mark | mfpi | mtpi | sxt | mov | cmp | bit | bic | bis | add | sub
  | mul | div | ash | ashc | xor | sob | bpl | bmi | bhi | blos | bvc | bvs | bcc | bcs | emt
  | trap | mtps | mfpd | mtpd | mfps
deriving DecidableEq

/-- Which fields an instruction word has. -/
inductive InstructionFormat
  | noOperand
  /-- A register in bits 2 to 0. -/
  | registerUnary
  /-- A value in the low bits. -/
  | immediateUnary
  /-- A count of words in bits 5 to 0. -/
  | offsetCount
  /-- A signed offset in words in bits 7 to 0. -/
  | branch
  /-- An operand that is only read. -/
  | singleSource
  /-- An operand that is written. -/
  | singleDest
  /-- A register in bits 8 to 6 and an operand that is only read. -/
  | registerSource
  /-- A register in bits 8 to 6 and an operand that is written. -/
  | registerDest
  /-- A source in bits 11 to 6 and a destination in bits 5 to 0. -/
  | sourceDest
deriving DecidableEq

namespace Opcode

/-- Masks, the words they select, and the operations these belong to. -/
def patterns : List (Word × Word × Opcode) :=
  [
    (0o177777, 0o000000, .halt),
    (0o177777, 0o000001, .wait),
    (0o177777, 0o000002, .rti),
    (0o177777, 0o000003, .bpt),
    (0o177777, 0o000004, .iot),
    (0o177777, 0o000005, .reset),
    (0o177777, 0o000006, .rtt),
    (0o177700, 0o000100, .jmp),
    (0o177770, 0o000200, .rts),
    (0o177770, 0o000230, .spl),
    (0o177760, 0o000240, .clearCc),
    (0o177760, 0o000260, .setCc),
    (0o177700, 0o000300, .swab),
    (0o177400, 0o000400, .br),
    (0o177400, 0o001000, .bne),
    (0o177400, 0o001400, .beq),
    (0o177400, 0o002000, .bge),
    (0o177400, 0o002400, .blt),
    (0o177400, 0o003000, .bgt),
    (0o177400, 0o003400, .ble),
    (0o177000, 0o004000, .jsr),
    (0o077700, 0o005000, .clr),
    (0o077700, 0o005100, .com),
    (0o077700, 0o005200, .inc),
    (0o077700, 0o005300, .dec),
    (0o077700, 0o005400, .neg),
    (0o077700, 0o005500, .adc),
    (0o077700, 0o005600, .sbc),
    (0o077700, 0o005700, .tst),
    (0o077700, 0o006000, .ror),
    (0o077700, 0o006100, .rol),
    (0o077700, 0o006200, .asr),
    (0o077700, 0o006300, .asl),
    (0o177700, 0o006400, .mark),
    (0o177700, 0o006500, .mfpi),
    (0o177700, 0o006600, .mtpi),
    (0o177700, 0o006700, .sxt),
    (0o070000, 0o010000, .mov),
    (0o070000, 0o020000, .cmp),
    (0o070000, 0o030000, .bit),
    (0o070000, 0o040000, .bic),
    (0o070000, 0o050000, .bis),
    (0o170000, 0o060000, .add),
    (0o170000, 0o160000, .sub),
    (0o177000, 0o070000, .mul),
    (0o177000, 0o071000, .div),
    (0o177000, 0o072000, .ash),
    (0o177000, 0o073000, .ashc),
    (0o177000, 0o074000, .xor),
    (0o177000, 0o077000, .sob),
    (0o177400, 0o100000, .bpl),
    (0o177400, 0o100400, .bmi),
    (0o177400, 0o101000, .bhi),
    (0o177400, 0o101400, .blos),
    (0o177400, 0o102000, .bvc),
    (0o177400, 0o102400, .bvs),
    (0o177400, 0o103000, .bcc),
    (0o177400, 0o103400, .bcs),
    (0o177400, 0o104000, .emt),
    (0o177400, 0o104400, .trap),
    (0o177700, 0o106400, .mtps),
    (0o177700, 0o106500, .mfpd),
    (0o177700, 0o106600, .mtpd),
    (0o177700, 0o106700, .mfps)
  ]

/-- The format of the words that belong to an operation. -/
def format : Opcode → InstructionFormat
  | halt | wait | rti | bpt | iot | reset | rtt => .noOperand
  | rts => .registerUnary
  | spl | clearCc | setCc | emt | trap => .immediateUnary
  | mark | sob => .offsetCount
  | br | bne | beq | bge | blt | bgt | ble | bpl | bmi | bhi | blos | bvc | bvs | bcc | bcs =>
    .branch
  | mfpi | mfpd | mtps => .singleSource
  | jmp | swab | clr | com | inc | dec | neg | adc | sbc | tst | ror | rol | asr | asl |
    mtpi | mtpd | sxt | mfps => .singleDest
  | mul | div | ash | ashc => .registerSource
  | jsr | xor => .registerDest
  | mov | cmp | bit | bic | bis | add | sub => .sourceDest

/-- Bit 15 of the instruction word selects a byte form. -/
def allowsBytes : Opcode → Bool
  | clr | com | inc | dec | neg | adc | sbc | tst | ror | rol | asr | asl |
    mov | cmp | bit | bic | bis => true
  | _ => false

/-- `word` is the byte form of this operation. -/
def isByteForm (opcode : Opcode) (word : Word) : Bool :=
  opcode.allowsBytes && word.getLsbD 15

/-- Moves to and from the status word are always byte operations. -/
def width (opcode : Opcode) (word : Word) : Width :=
  if opcode = mtps ∨ opcode = mfps ∨ opcode.isByteForm word then .byte else .word

/-- The name of an operation in assembler, without the letter of its byte form. -/
def mnemonic : Opcode → String
  | halt => "HALT"
  | wait => "WAIT"
  | rti => "RTI"
  | bpt => "BPT"
  | iot => "IOT"
  | reset => "RESET"
  | rtt => "RTT"
  | jmp => "JMP"
  | rts => "RTS"
  | spl => "SPL"
  | clearCc => "CCC"
  | setCc => "SCC"
  | swab => "SWAB"
  | br => "BR"
  | bne => "BNE"
  | beq => "BEQ"
  | bge => "BGE"
  | blt => "BLT"
  | bgt => "BGT"
  | ble => "BLE"
  | jsr => "JSR"
  | clr => "CLR"
  | com => "COM"
  | inc => "INC"
  | dec => "DEC"
  | neg => "NEG"
  | adc => "ADC"
  | sbc => "SBC"
  | tst => "TST"
  | ror => "ROR"
  | rol => "ROL"
  | asr => "ASR"
  | asl => "ASL"
  | mark => "MARK"
  | mfpi => "MFPI"
  | mtpi => "MTPI"
  | sxt => "SXT"
  | mov => "MOV"
  | cmp => "CMP"
  | bit => "BIT"
  | bic => "BIC"
  | bis => "BIS"
  | add => "ADD"
  | sub => "SUB"
  | mul => "MUL"
  | div => "DIV"
  | ash => "ASH"
  | ashc => "ASHC"
  | xor => "XOR"
  | sob => "SOB"
  | bpl => "BPL"
  | bmi => "BMI"
  | bhi => "BHI"
  | blos => "BLOS"
  | bvc => "BVC"
  | bvs => "BVS"
  | bcc => "BCC"
  | bcs => "BCS"
  | emt => "EMT"
  | trap => "TRAP"
  | mtps => "MTPS"
  | mfpd => "MFPD"
  | mtpd => "MTPD"
  | mfps => "MFPS"

/-- The operation that `word` belongs to. -/
def ofWord? (word : Word) : Option Opcode :=
  patterns.findSome? fun (mask, value, opcode) =>
    if word &&& mask = value then some opcode else none

end Opcode

/-- What the processor makes of an instruction word before it looks at the
operands. -/
inductive WordClass
  | legal (opcode : Opcode)
  /-- A jump to a register. -/
  | illegal (opcode : Opcode)
  | reserved
deriving DecidableEq

/-- Bits 5 to 3 of a jump are zero when its destination is a register. -/
def WordClass.of (word : Word) : WordClass :=
  match Opcode.ofWord? word with
  | none => .reserved
  | some opcode =>
    if (opcode = .jmp ∨ opcode = .jsr) ∧ word &&& 0o70 = 0 then
      .illegal opcode
    else
      .legal opcode

theorem WordClass.of_eq_legal_iff {word : Word} {opcode : Opcode} :
    WordClass.of word = .legal opcode ↔
      Opcode.ofWord? word = some opcode ∧
        ¬ ((opcode = .jmp ∨ opcode = .jsr) ∧ word &&& 0o70 = 0) := by
  unfold WordClass.of
  constructor
  · intro legal
    split at legal
    · contradiction
    · rename_i found known
      split at legal
      · contradiction
      · rename_i carriedOut
        cases legal
        exact ⟨known, carriedOut⟩
  · rintro ⟨known, carriedOut⟩
    simp only [known, if_neg carriedOut]

end Pdp11
