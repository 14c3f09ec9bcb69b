import Pdp11.Microcode.Operand
import Pdp11.Microcode.Pipeline

/-!
# Micro-operations for instructions

The program of an instruction finds its operands, brings in what it reads,
computes, stores the result and works out the condition codes, in this order,
so that every access that can fail comes before the first store. What ends the
instruction comes last.
-/

namespace Pdp11

namespace Instruction

variable (instruction : Instruction)

/-- Read the source and find the destination. -/
def readSource : List MicroOp × ResolvedOperand :=
  let width := instruction.width
  let source := instruction.source.resolve width .source instruction.stream
  let destination := instruction.destination.resolve width .destination source.rest
  (source.ops ++ source.fetch width .source :: destination.ops, destination)

/-- Read source and destination, compute, and assign the result. -/
def combine (compute : List MicroOp) (rule : FlagRule) : List MicroOp :=
  let width := instruction.width
  let (read, destination) := instruction.readSource
  read ++ destination.fetch width .destination :: compute ++
    destination.assign .t0 width false .data ++ [.evalFlags rule .t0 width]

/-- Read source and destination and keep only the condition codes. -/
def compare (compute : MicroOp) (rule : FlagRule) : List MicroOp :=
  let width := instruction.width
  let (read, destination) := instruction.readSource
  read ++ [destination.fetch width .destination, compute, .evalFlags rule .t0 width]

/-- Read the source and assign it to the destination; a byte
fills a whole register. -/
def move : List MicroOp :=
  let width := instruction.width
  let (read, destination) := instruction.readSource
  read ++ destination.assign .s0 width true .data ++ [.evalFlags .logical .s0 width]

/-- Find the destination alone. -/
def resolveDestination (width : Width) : ResolvedOperand :=
  instruction.destination.resolve width .destination instruction.stream

/-- Read the destination, compute, and assign the result. -/
def modify (compute : MicroOp) (rule : FlagRule) : List MicroOp :=
  let width := instruction.width
  let destination := instruction.resolveDestination width
  destination.ops ++ destination.fetch width .destination :: compute ::
    destination.assign .t0 width false .data ++ [.evalFlags rule .t0 width]

/-- Compute without reading the destination, and assign the result. -/
def overwrite (compute : MicroOp) (width : Width) (extend : Bool) (rule : FlagRule) :
    List MicroOp :=
  let destination := instruction.resolveDestination width
  destination.ops ++ compute :: destination.assign .t0 width extend .data ++
    [.evalFlags rule .t0 width]

/-- Read the destination and keep only the condition codes. -/
def test : List MicroOp :=
  let width := instruction.width
  let destination := instruction.resolveDestination width
  destination.ops ++ [destination.fetch width .destination, .evalFlags .test .d0 width]

/-- Compute on the destination alone. -/
def unary (op : AluOp) (rule : FlagRule) : List MicroOp :=
  instruction.modify (.alu op .t0 .d0 .d0 instruction.width) rule

/-- Shift the destination by one place. -/
def shift (op : ShiftOp) : List MicroOp :=
  instruction.modify (.shift op .t0 .d0 instruction.width) .shift

/-- Read the operand in the destination field into the source registers. -/
def readOperand (width : Width) : List MicroOp :=
  let operand := instruction.destination.resolve width .source instruction.stream
  operand.ops ++ [operand.fetch width .source]

/-- Compute on a register pair with an operand in `s0`. -/
def extended (compute : MicroOp) (rule : FlagRule) : List MicroOp :=
  instruction.readOperand .word ++ [compute, .evalFlags rule instruction.registerField .word]

/-- Compute on a register and the destination, and assign the
result to the destination. -/
def exclusiveOr : List MicroOp :=
  let destination := instruction.resolveDestination .word
  .readRegister .s0 instruction.registerField instruction.stream :: destination.ops ++
    [destination.fetch .word .destination, .alu .xor .t0 .s0 .d0 .word] ++
    destination.assign .t0 .word false .data ++ [.evalFlags .logical .t0 .word]

/-- Go on where the destination is; a register is nowhere to go to. -/
def jump : List MicroOp :=
  let destination := instruction.resolveDestination .word
  match destination.target? with
  | none => destination.ops ++ [.raiseTrap .illegal]
  | some (target, resolve) => destination.ops ++ resolve ++ [.jump instruction.pc target]

/-- Push the link register, move the program counter to it and go on where the
destination is. The destination is found before the push. -/
def jumpToSubroutine : List MicroOp :=
  let link := instruction.registerField
  let destination := instruction.resolveDestination .word
  match destination.target? with
  | none => destination.ops ++ [.raiseTrap .illegal]
  | some (target, resolve) =>
    destination.ops ++ resolve ++ .move .t0 link :: MicroOp.push .t0 ++
      [.move link .pc, .jump instruction.pc target]

/-- Go on where the link register says, and pop what it held before the call. -/
def returnFromSubroutine : List MicroOp :=
  let link := instruction.lowRegister
  if link = .pc then
    MicroOp.pop .t0 ++ [.jump instruction.pc .t0]
  else
    .move .t1 link :: MicroOp.pop .t0 ++ [.move link .t0, .jump instruction.pc .t1]

/-- Move the stack pointer past the instruction, which lies on the stack, and the
words that it counts; then return through `R5`, which is popped. -/
def mark : List MicroOp :=
  [.addImm .sp .pc (2 * instruction.count), .move .t1 .r5] ++ MicroOp.pop .t0 ++
    [.move .r5 .t0, .jump instruction.pc .t1]

/-- Pop the program counter and the status word. `inhibit` puts the trace trap off. -/
def returnFromInterrupt (inhibit : List MicroOp) : List MicroOp :=
  MicroOp.pop .t0 ++ MicroOp.pop .t1 ++ .loadPsw .t1 .ordinary :: inhibit ++
    [.jump instruction.pc .t0]

/-- Push a word from a space of the previous mode. -/
def moveFromPrevious (space : Space) : List MicroOp :=
  let operand := instruction.destination.resolve .word .source instruction.stream
  let read : MicroOp :=
    match operand.place with
    | .register reg => if reg = .sp then .readPreviousSp .s0 else .move .s0 reg
    | .memory address => .load .s0 address .word (.previous space)
    | .immediate value _ => .loadImm .s0 value
  operand.ops ++ read :: MicroOp.push .s0 ++ [.evalFlags .logical .s0 .word]

/-- Pop a word into a space of the previous mode. -/
def moveToPrevious (space : Space) : List MicroOp :=
  let operand := instruction.resolveDestination .word
  let write : List MicroOp :=
    if operand.place = .register .sp then [.writePreviousSp .t0]
    else operand.assign .t0 .word false (.previous space)
  MicroOp.pop .t0 ++ operand.ops ++ write ++ [.evalFlags .logical .t0 .word]

/-- Branch by the condition codes. -/
def branch (condition : FlagCondition) : List MicroOp :=
  [.branch (.flags condition) instruction.pc instruction.branchTarget]

/-- Count a register down and branch until it is zero. -/
def loop : List MicroOp :=
  let counter := instruction.registerField
  [.addImm counter counter (-1),
    .branch (.registerNonZero counter) instruction.pc instruction.loopTarget]

/-- The micro-operations that carry out an instruction. -/
def program : List MicroOp :=
  let width := instruction.width
  let reg := instruction.registerField
  match instruction.opcode with
  | .halt => [.halt]
  | .wait => [.wait]
  | .reset => [.reset]
  | .bpt => [.raiseTrap .breakpoint]
  | .iot => [.raiseTrap .iot]
  | .emt => [.raiseTrap .emt]
  | .trap => [.raiseTrap .trap]
  | .rti => instruction.returnFromInterrupt []
  | .rtt => instruction.returnFromInterrupt [.inhibitTrace]
  | .spl => [.setPriority ((instruction.word.extractLsb' 0 3).setWidth 8)]
  | .clearCc => [.conditionCodes false (instruction.word &&& 0o17)]
  | .setCc => [.conditionCodes true (instruction.word &&& 0o17)]
  | .jmp => instruction.jump
  | .jsr => instruction.jumpToSubroutine
  | .rts => instruction.returnFromSubroutine
  | .mark => instruction.mark
  | .sob => instruction.loop
  | .mov => instruction.move
  | .cmp => instruction.compare (.alu .sub .t0 .s0 .d0 width) .subtract
  | .bit => instruction.compare (.alu .and .t0 .s0 .d0 width) .logical
  | .bic =>
    instruction.combine [.alu .not .t1 .s0 .s0 width, .alu .and .t0 .d0 .t1 width] .logical
  | .bis => instruction.combine [.alu .or .t0 .d0 .s0 width] .logical
  | .add => instruction.combine [.alu .add .t0 .s0 .d0 width] .add
  | .sub => instruction.combine [.alu .sub .t0 .d0 .s0 width] .subtract
  | .clr => instruction.overwrite (.loadImm .t0 0) width false .clear
  | .tst => instruction.test
  | .com => instruction.unary .not .complement
  | .inc => instruction.unary .inc .increment
  | .dec => instruction.unary .dec .decrement
  | .neg => instruction.unary .neg .negate
  | .adc => instruction.unary .addCarry .addCarry
  | .sbc => instruction.unary .subCarry .subCarry
  | .ror => instruction.shift .ror
  | .rol => instruction.shift .rol
  | .asr => instruction.shift .asr
  | .asl => instruction.shift .asl
  | .swab => instruction.modify (.swab .t0 .d0) .swapBytes
  | .sxt => instruction.overwrite (.signExtend .t0) .word false .signExtend
  | .mfps => instruction.overwrite (.readPsw .t0) .byte true .logical
  | .mtps => instruction.readOperand .byte ++ [.loadPsw .s0 .mtps]
  | .mfpi => instruction.moveFromPrevious .instruction
  | .mfpd => instruction.moveFromPrevious .data
  | .mtpi => instruction.moveToPrevious .instruction
  | .mtpd => instruction.moveToPrevious .data
  | .mul => instruction.extended (.mul reg reg.pairSecond reg .s0) .multiply
  | .div => instruction.extended (.div reg reg.pairSecond .s0) .divide
  | .ash => instruction.extended (.shiftArith reg reg .s0) .arithmeticShift
  | .ashc => instruction.extended (.shiftArithPair reg reg.pairSecond .s0) .arithmeticShiftCombined
  | .xor => instruction.exclusiveOr
  | .br => instruction.branch .always
  | .bne => instruction.branch .ne
  | .beq => instruction.branch .eq
  | .bge => instruction.branch .ge
  | .blt => instruction.branch .lt
  | .bgt => instruction.branch .gt
  | .ble => instruction.branch .le
  | .bpl => instruction.branch .pl
  | .bmi => instruction.branch .mi
  | .bhi => instruction.branch .hi
  | .blos => instruction.branch .los
  | .bvc => instruction.branch .vc
  | .bvs => instruction.branch .vs
  | .bcc => instruction.branch .cc
  | .bcs => instruction.branch .cs

/-- The program as a pipeline. -/
def encode : Except MachineError Pipeline :=
  Pipeline.ofOps instruction.program

end Instruction

/-- Entry to the handler whose start and status are at `vector`. Both are read
before the switch to kernel mode; then the interrupted status word and program
counter are pushed on the kernel stack. -/
def entryProgram (vector : Word) : List MicroOp :=
  [.readPsw .t0,
    .move .t1 .pc,
    .loadImm .s1 vector,
    .load .s0 .s1 .word .kernelData,
    .addImm .s1 .s1 2,
    .load .s2 .s1 .word .kernelData,
    .forceKernel,
    .step .sp (-2),
    .store .sp .t0 .word .data,
    .step .sp (-2),
    .store .sp .t1 .word .data,
    .loadPsw .s2 (.exception .t0),
    .jump vector .s0]

theorem entryProgram_length (vector : Word) : (entryProgram vector).length = 13 := rfl

end Pdp11
