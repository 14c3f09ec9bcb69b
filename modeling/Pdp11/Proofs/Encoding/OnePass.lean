import Pdp11.Microcode.Program

/-!
# Encoding in one pass

An encoder that works in one pass emits the micro-operations of an instruction
in order and takes each extension word from the instruction stream when it comes
to it. It fails where it would need a word past the end of the extension. Given
as many words as the operands take, it emits the program of the instruction and
leaves none of them over.
-/

namespace Pdp11

/-! ## Emitters -/

/-- The micro-operations emitted so far, and what is left of the stream. -/
structure Emission where
  ops : List MicroOp
  stream : InstructionStream
deriving DecidableEq

/-- A part of an encoder; it fails if the stream ends too early. -/
abbrev Emitter (α : Type) := StateT Emission Option α

namespace Emitter

/-- Put `ops` behind what has been emitted. -/
def emit (ops : List MicroOp) : Emitter Unit :=
  modify fun emission => { emission with ops := emission.ops ++ ops }

/-- Take the next word of the stream, and its address. -/
def nextWord : Emitter (Word × Word) := fun emission =>
  match emission.stream.words with
  | [] => none
  | word :: _ =>
    some ((word, emission.stream.cursor), { emission with stream := emission.stream.tail })

/-- The operand is at `place` once `ops` have run. -/
def locateAt (place : OperandPlace) (ops : List MicroOp) : Emitter ResolvedOperand := do
  emit ops
  let emission ← get
  return { place, ops, rest := emission.stream }

/-- Add an extension word to a register; from the program counter it leads to a
fixed address. -/
def index (address reg : Reg) : Emitter MicroOp := do
  let (offset, place) ← nextWord
  return if reg = .pc then .loadImm address (offset + place + 2) else .addImm address reg offset

/-- Emit what finds the address of an operand. -/
def locate (operand : Operand) (width : Width) (slot : OperandSlot) :
    Emitter ResolvedOperand := do
  let reg := operand.reg
  let address := slot.address
  let amount := operand.step width
  let inMemory := locateAt (.memory address)
  let stepUp := .move address reg :: MicroOp.stepRegister reg amount
  let stepDown := MicroOp.stepRegister reg (-amount) ++ [.move address reg]
  match operand.mode with
  | .register => locateAt (.register reg) []
  | .registerDeferred => inMemory [.move address reg]
  | .autoincrement =>
    if reg = .pc then
      let (value, place) ← nextWord
      locateAt (.immediate value place) []
    else
      inMemory stepUp
  | .autoincrementDeferred =>
    if reg = .pc then
      let (value, _) ← nextWord
      inMemory [.loadImm address value]
    else
      inMemory (stepUp ++ [.follow address])
  | .autodecrement => inMemory stepDown
  | .autodecrementDeferred => inMemory (stepDown ++ [.follow address])
  | .index => do
    let indexed ← index address reg
    inMemory [indexed]
  | .indexDeferred => do
    let indexed ← index address reg
    inMemory [indexed, .follow address]

/-- Emit a copy of a register, where the program counter reads as the address of
the next word of the stream. -/
def copyRegister (dst src : Reg) : Emitter Unit := do
  let emission ← get
  emit [if src = .pc then .loadImm dst emission.stream.cursor else .move dst src]

/-- Emit what brings an operand into the value register of `slot`. -/
def fetch (operand : ResolvedOperand) (width : Width) (slot : OperandSlot) : Emitter Unit :=
  match operand.place with
  | .register reg => copyRegister slot.value reg
  | .memory address => emit [.load slot.value address width .data]
  | .immediate value _ => emit [.loadImm slot.value value]

/-! ## Emitters for instructions -/

variable (instruction : Instruction)

/-- Read the source and find the destination. -/
def readSource : Emitter ResolvedOperand := do
  let width := instruction.width
  let source ← locate instruction.source width .source
  fetch source width .source
  locate instruction.destination width .destination

/-- Read source and destination, compute, and assign the result. -/
def combine (compute : List MicroOp) (rule : FlagRule) : Emitter Unit := do
  let width := instruction.width
  let destination ← readSource instruction
  fetch destination width .destination
  emit compute
  emit (destination.assign .t0 width false .data)
  emit [.evalFlags rule .t0 width]

/-- Read source and destination and keep only the condition codes. -/
def compare (compute : MicroOp) (rule : FlagRule) : Emitter Unit := do
  let width := instruction.width
  let destination ← readSource instruction
  fetch destination width .destination
  emit [compute, .evalFlags rule .t0 width]

/-- Read the source, find the destination and assign the one to the other. -/
def move : Emitter Unit := do
  let width := instruction.width
  let destination ← readSource instruction
  emit (destination.assign .s0 width true .data)
  emit [.evalFlags .logical .s0 width]

/-- Read the destination, compute, and assign the result. -/
def modify (compute : MicroOp) (rule : FlagRule) : Emitter Unit := do
  let width := instruction.width
  let destination ← locate instruction.destination width .destination
  fetch destination width .destination
  emit [compute]
  emit (destination.assign .t0 width false .data)
  emit [.evalFlags rule .t0 width]

/-- Compute on the destination alone. -/
def unary (op : AluOp) (rule : FlagRule) : Emitter Unit :=
  modify instruction (.alu op .t0 .d0 .d0 instruction.width) rule

/-- Shift the destination by one place. -/
def shift (op : ShiftOp) : Emitter Unit :=
  modify instruction (.shift op .t0 .d0 instruction.width) .shift

/-- Compute without reading the destination, and assign the result. -/
def overwrite (compute : MicroOp) (width : Width) (extend : Bool) (rule : FlagRule) :
    Emitter Unit := do
  let destination ← locate instruction.destination width .destination
  emit [compute]
  emit (destination.assign .t0 width extend .data)
  emit [.evalFlags rule .t0 width]

/-- Read the destination for the condition codes alone. -/
def test : Emitter Unit := do
  let width := instruction.width
  let destination ← locate instruction.destination width .destination
  fetch destination width .destination
  emit [.evalFlags .test .d0 width]

/-- Read the operand in the destination field, and go on with it in `s0`. -/
def useOperand (width : Width) (use : List MicroOp) : Emitter Unit := do
  let operand ← locate instruction.destination width .source
  fetch operand width .source
  emit use

/-- Compute on a register pair with an operand in `s0`. -/
def extended (compute : MicroOp) (rule : FlagRule) : Emitter Unit :=
  useOperand instruction .word [compute, .evalFlags rule instruction.registerField .word]

/-- Compute on a register and the destination, and assign the
result to the destination. -/
def exclusiveOr : Emitter Unit := do
  copyRegister .s0 instruction.registerField
  let destination ← locate instruction.destination .word .destination
  fetch destination .word .destination
  emit [.alu .xor .t0 .s0 .d0 .word]
  emit (destination.assign .t0 .word false .data)
  emit [.evalFlags .logical .t0 .word]

/-- Find where a jump goes, and go on with the register that will hold it. -/
def toTarget (finish : Reg → List MicroOp) : Emitter Unit := do
  let destination ← locate instruction.destination .word .destination
  match destination.target? with
  | none => emit [.raiseTrap .illegal]
  | some (target, resolve) => do
    emit resolve
    emit (finish target)

/-- Go on where the destination is. -/
def jump : Emitter Unit :=
  toTarget instruction fun target => [.jump instruction.pc target]

/-- Push the link register, move the program counter to it and go on
where the destination is. -/
def jumpToSubroutine : Emitter Unit :=
  let link := instruction.registerField
  toTarget instruction fun target =>
    .move .t0 link :: MicroOp.push .t0 ++ [.move link .pc, .jump instruction.pc target]

/-- Bring an operand of the previous mode into `s0`. -/
def fetchPrevious (operand : ResolvedOperand) (space : Space) : Emitter Unit :=
  match operand.place with
  | .register reg => emit [if reg = .sp then .readPreviousSp .s0 else .move .s0 reg]
  | .memory address => emit [.load .s0 address .word (.previous space)]
  | .immediate value _ => emit [.loadImm .s0 value]

/-- Replace an operand of the previous mode by `t0`. -/
def assignPrevious (operand : ResolvedOperand) (space : Space) : Emitter Unit :=
  if operand.place = .register .sp then emit [.writePreviousSp .t0]
  else emit (operand.assign .t0 .word false (.previous space))

/-- Push a word from a space of the previous mode. -/
def moveFromPrevious (space : Space) : Emitter Unit := do
  let operand ← locate instruction.destination .word .source
  fetchPrevious operand space
  emit (MicroOp.push .s0)
  emit [.evalFlags .logical .s0 .word]

/-- Pop a word into a space of the previous mode. -/
def moveToPrevious (space : Space) : Emitter Unit := do
  emit (MicroOp.pop .t0)
  let operand ← locate instruction.destination .word .destination
  assignPrevious operand space
  emit [.evalFlags .logical .t0 .word]

end Emitter

/-- Encode in one pass. An operation without operands takes nothing of the
stream. -/
def Instruction.onePass (instruction : Instruction) : Emitter Unit :=
  let width := instruction.width
  let reg := instruction.registerField
  match instruction.opcode with
  | .jmp => Emitter.jump instruction
  | .jsr => Emitter.jumpToSubroutine instruction
  | .mov => Emitter.move instruction
  | .cmp => Emitter.compare instruction (.alu .sub .t0 .s0 .d0 width) .subtract
  | .bit => Emitter.compare instruction (.alu .and .t0 .s0 .d0 width) .logical
  | .bic =>
    Emitter.combine instruction [.alu .not .t1 .s0 .s0 width, .alu .and .t0 .d0 .t1 width]
      .logical
  | .bis => Emitter.combine instruction [.alu .or .t0 .d0 .s0 width] .logical
  | .add => Emitter.combine instruction [.alu .add .t0 .s0 .d0 width] .add
  | .sub => Emitter.combine instruction [.alu .sub .t0 .d0 .s0 width] .subtract
  | .clr => Emitter.overwrite instruction (.loadImm .t0 0) width false .clear
  | .tst => Emitter.test instruction
  | .com => Emitter.unary instruction .not .complement
  | .inc => Emitter.unary instruction .inc .increment
  | .dec => Emitter.unary instruction .dec .decrement
  | .neg => Emitter.unary instruction .neg .negate
  | .adc => Emitter.unary instruction .addCarry .addCarry
  | .sbc => Emitter.unary instruction .subCarry .subCarry
  | .ror => Emitter.shift instruction .ror
  | .rol => Emitter.shift instruction .rol
  | .asr => Emitter.shift instruction .asr
  | .asl => Emitter.shift instruction .asl
  | .swab => Emitter.modify instruction (.swab .t0 .d0) .swapBytes
  | .sxt => Emitter.overwrite instruction (.signExtend .t0) .word false .signExtend
  | .mfps => Emitter.overwrite instruction (.readPsw .t0) .byte true .logical
  | .mtps => Emitter.useOperand instruction .byte [.loadPsw .s0 .mtps]
  | .mfpi => Emitter.moveFromPrevious instruction .instruction
  | .mfpd => Emitter.moveFromPrevious instruction .data
  | .mtpi => Emitter.moveToPrevious instruction .instruction
  | .mtpd => Emitter.moveToPrevious instruction .data
  | .mul => Emitter.extended instruction (.mul reg reg.pairSecond reg .s0) .multiply
  | .div => Emitter.extended instruction (.div reg reg.pairSecond .s0) .divide
  | .ash => Emitter.extended instruction (.shiftArith reg reg .s0) .arithmeticShift
  | .ashc =>
    Emitter.extended instruction (.shiftArithPair reg reg.pairSecond .s0)
      .arithmeticShiftCombined
  | .xor => Emitter.exclusiveOr instruction
  | .halt | .wait | .reset | .bpt | .iot | .emt | .trap | .rti | .rtt | .spl | .clearCc | .setCc
  | .rts | .mark | .sob | .br | .bne | .beq | .bge | .blt | .bgt | .ble | .bpl | .bmi | .bhi
  | .blos | .bvc | .bvs | .bcc | .bcs => Emitter.emit instruction.program

/-! ## What an emitter emits -/

/-- From `start` the emitter answers `answer`, emits `ops` and comes to `stop`. -/
def Emits {α : Type} (emitter : Emitter α) (start : InstructionStream) (answer : α)
    (ops : List MicroOp) (stop : InstructionStream) : Prop :=
  ∀ before, emitter { ops := before, stream := start } =
    some (answer, { ops := before ++ ops, stream := stop })

namespace Emits

variable {α β : Type} {start middle stop : InstructionStream} {ops first second : List MicroOp}

theorem pure (answer : α) (start : InstructionStream) :
    Emits (Pure.pure answer) start answer [] start := by
  intro before
  rw [List.append_nil]
  rfl

theorem bind {head : Emitter α} {tail : α → Emitter β} {answer : α} {last : β}
    (heads : Emits head start answer first middle)
    (tails : Emits (tail answer) middle last second stop) :
    Emits (head >>= tail) start last (first ++ second) stop := by
  intro before
  change (head _).bind _ = _
  rw [heads before]
  change tail answer _ = _
  rw [tails, List.append_assoc]

theorem of_eq {emitter : Emitter α} {answer : α} (emits : Emits emitter start answer first stop)
    (same : second = first) : Emits emitter start answer second stop := by
  rw [same]
  exact emits

theorem emit (ops : List MicroOp) (start : InstructionStream) :
    Emits (Emitter.emit ops) start () ops start := by
  intro before
  rfl

theorem nextWord (more : start.words ≠ []) :
    Emits Emitter.nextWord start (start.head, start.cursor) [] start.tail := by
  intro before
  rcases List.exists_cons_of_ne_nil more with ⟨word, words, cons⟩
  simp [Emitter.nextWord, InstructionStream.head, cons]

theorem locateAt (place : OperandPlace) (ops : List MicroOp) (start : InstructionStream) :
    Emits (Emitter.locateAt place ops) start { place, ops, rest := start } ops start := by
  intro before
  rfl

theorem copyRegister (dst src : Reg) (start : InstructionStream) :
    Emits (Emitter.copyRegister dst src) start () [.readRegister dst src start] start := by
  intro before
  rfl

theorem index (address reg : Reg) (more : start.words ≠ []) :
    Emits (Emitter.index address reg) start
      (if reg = .pc then .loadImm address start.relativeAddress
        else .addImm address reg start.head) [] start.tail := by
  have next : start.head + start.cursor + 2 = start.relativeAddress := BitVec.add_assoc _ _ _
  rw [← next]
  exact (Emits.nextWord more).bind (.pure _ _)

end Emits

/-! ## The words that operands take -/

/-- The operands take the words of the stream, and these end at `stop`. -/
structure InstructionStream.Spans (stream : InstructionStream) (operands : List Operand)
    (stop : Word) : Prop where
  length_eq : stream.words.length = operands.countP Operand.takesWord
  stop_eq : stream.cursor + 2 * BitVec.ofNat 16 stream.words.length = stop

namespace InstructionStream.Spans

variable {stream : InstructionStream} {operand : Operand} {operands : List Operand} {stop : Word}

theorem eq_of_nil (spans : stream.Spans [] stop) : stream = { cursor := stop, words := [] } := by
  rcases stream with ⟨cursor, words⟩
  have none : words = [] := List.length_eq_zero_iff.mp spans.length_eq
  have stops := spans.stop_eq
  subst none
  simpa using stops

theorem words_ne_nil (spans : stream.Spans (operand :: operands) stop)
    (takes : operand.takesWord) : stream.words ≠ [] := by
  intro none
  have length := spans.length_eq
  rw [none, List.countP_cons_of_pos takes] at length
  simp at length

theorem rest (spans : stream.Spans (operand :: operands) stop) :
    (operand.rest stream).Spans operands stop := by
  have length := spans.length_eq
  have stops := spans.stop_eq
  by_cases takes : operand.takesWord
  · rcases List.exists_cons_of_ne_nil (spans.words_ne_nil takes) with ⟨word, words, cons⟩
    rw [List.countP_cons_of_pos takes, cons] at length
    rw [cons] at stops
    constructor
    · simpa [Operand.rest, takes, tail, cons] using length
    · rw [← stops]
      apply BitVec.eq_of_toNat_eq
      simp [Operand.rest, takes, tail, cons]
      omega
  · rw [List.countP_cons_of_neg takes] at length
    rw [Operand.rest, if_neg takes]
    exact ⟨length, stops⟩

end InstructionStream.Spans

namespace Emits

theorem locate {operand : Operand} (width : Width) (slot : OperandSlot)
    {stream : InstructionStream} (supplied : operand.takesWord → stream.words ≠ []) :
    Emits (Emitter.locate operand width slot) stream (operand.resolve width slot stream)
      (operand.addressOps width slot stream) (operand.rest stream) := by
  rcases operand with ⟨mode, reg⟩
  cases mode with
  | register | registerDeferred | autodecrement | autodecrementDeferred =>
      exact .locateAt _ _ _
  | index | indexDeferred =>
      exact (Emits.index _ _ (supplied rfl)).bind (.locateAt _ _ _)
  | autoincrement | autoincrementDeferred =>
      by_cases isPc : reg = .pc
      · subst isPc
        exact (Emits.nextWord (supplied rfl)).bind (.locateAt _ _ _)
      · simp only [Emitter.locate, Operand.resolve, Operand.place, Operand.addressOps,
          Operand.rest, Operand.takesWord, isPc, decide_false, if_false, Bool.false_eq_true]
        exact .locateAt _ _ _

theorem fetch (operand : ResolvedOperand) (width : Width) (slot : OperandSlot) :
    Emits (Emitter.fetch operand width slot) operand.rest () [operand.fetch width slot]
      operand.rest := by
  rcases operand with ⟨place, ops, rest⟩
  cases place with
  | register reg => exact .copyRegister _ _ _
  | memory address => exact .emit _ _
  | immediate value address => exact .emit _ _

/-! ### Emitters for instructions -/

variable {instruction : Instruction} {stopPc : Word}

theorem locateDestination (spans : instruction.stream.Spans [instruction.destination] stopPc)
    (width : Width) (slot : OperandSlot) :
    Emits (Emitter.locate instruction.destination width slot) instruction.stream
      (instruction.destination.resolve width slot instruction.stream)
      (instruction.destination.addressOps width slot instruction.stream)
      (instruction.destination.rest instruction.stream) :=
  .locate width slot spans.words_ne_nil

theorem readSource (spans : instruction.stream.Spans
      [instruction.source, instruction.destination] stopPc) :
    Emits (Emitter.readSource instruction) instruction.stream instruction.readSource.2
      instruction.readSource.1 instruction.readSource.2.rest := by
  have source := Emits.locate instruction.width .source spans.words_ne_nil
  have destination := Emits.locate instruction.width .destination spans.rest.words_ne_nil
  refine (source.bind ((Emits.fetch _ _ _).bind destination)).of_eq ?_
  simp [Instruction.readSource, Operand.resolve]

theorem combine (spans : instruction.stream.Spans
      [instruction.source, instruction.destination] stopPc)
    (compute : List MicroOp) (rule : FlagRule) :
    Emits (Emitter.combine instruction compute rule) instruction.stream ()
      (instruction.combine compute rule) { cursor := stopPc, words := [] } := by
  rw [← spans.rest.rest.eq_of_nil]
  refine ((Emits.readSource spans).bind ((Emits.fetch _ _ _).bind
    ((Emits.emit _ _).bind ((Emits.emit _ _).bind (.emit _ _))))).of_eq ?_
  simp [Instruction.combine]

theorem compare (spans : instruction.stream.Spans
      [instruction.source, instruction.destination] stopPc)
    (compute : MicroOp) (rule : FlagRule) :
    Emits (Emitter.compare instruction compute rule) instruction.stream ()
      (instruction.compare compute rule) { cursor := stopPc, words := [] } := by
  rw [← spans.rest.rest.eq_of_nil]
  refine ((Emits.readSource spans).bind ((Emits.fetch _ _ _).bind (.emit _ _))).of_eq ?_
  simp [Instruction.compare]

theorem move (spans : instruction.stream.Spans
      [instruction.source, instruction.destination] stopPc) :
    Emits (Emitter.move instruction) instruction.stream () instruction.move
      { cursor := stopPc, words := [] } := by
  rw [← spans.rest.rest.eq_of_nil]
  refine ((Emits.readSource spans).bind ((Emits.emit _ _).bind (.emit _ _))).of_eq ?_
  simp [Instruction.move]

theorem modify (spans : instruction.stream.Spans [instruction.destination] stopPc)
    (compute : MicroOp) (rule : FlagRule) :
    Emits (Emitter.modify instruction compute rule) instruction.stream ()
      (instruction.modify compute rule) { cursor := stopPc, words := [] } := by
  rw [← spans.rest.eq_of_nil]
  refine ((Emits.locateDestination spans _ _).bind ((Emits.fetch _ _ _).bind
    ((Emits.emit _ _).bind ((Emits.emit _ _).bind (.emit _ _))))).of_eq ?_
  simp [Instruction.modify, Instruction.resolveDestination, Operand.resolve]

theorem overwrite (spans : instruction.stream.Spans [instruction.destination] stopPc)
    (compute : MicroOp) (width : Width) (extend : Bool) (rule : FlagRule) :
    Emits (Emitter.overwrite instruction compute width extend rule) instruction.stream ()
      (instruction.overwrite compute width extend rule) { cursor := stopPc, words := [] } := by
  rw [← spans.rest.eq_of_nil]
  refine ((Emits.locateDestination spans _ _).bind
    ((Emits.emit _ _).bind ((Emits.emit _ _).bind (.emit _ _)))).of_eq ?_
  simp [Instruction.overwrite, Instruction.resolveDestination, Operand.resolve]

theorem test (spans : instruction.stream.Spans [instruction.destination] stopPc) :
    Emits (Emitter.test instruction) instruction.stream () instruction.test
      { cursor := stopPc, words := [] } := by
  rw [← spans.rest.eq_of_nil]
  refine ((Emits.locateDestination spans _ _).bind
    ((Emits.fetch _ _ _).bind (.emit _ _))).of_eq ?_
  simp [Instruction.test, Instruction.resolveDestination, Operand.resolve]

theorem useOperand (spans : instruction.stream.Spans [instruction.destination] stopPc)
    (width : Width) (use : List MicroOp) :
    Emits (Emitter.useOperand instruction width use) instruction.stream ()
      (instruction.readOperand width ++ use) { cursor := stopPc, words := [] } := by
  rw [← spans.rest.eq_of_nil]
  refine ((Emits.locateDestination spans _ _).bind
    ((Emits.fetch _ _ _).bind (.emit _ _))).of_eq ?_
  simp [Instruction.readOperand, Operand.resolve]

theorem exclusiveOr (spans : instruction.stream.Spans [instruction.destination] stopPc) :
    Emits (Emitter.exclusiveOr instruction) instruction.stream () instruction.exclusiveOr
      { cursor := stopPc, words := [] } := by
  rw [← spans.rest.eq_of_nil]
  refine ((Emits.copyRegister _ _ _).bind ((Emits.locateDestination spans _ _).bind
    ((Emits.fetch _ _ _).bind ((Emits.emit _ _).bind
      ((Emits.emit _ _).bind (.emit _ _)))))).of_eq ?_
  simp [Instruction.exclusiveOr, Instruction.resolveDestination, Operand.resolve]

/-- Where the target of a jump comes from is the same for every jump. -/
theorem toTarget (spans : instruction.stream.Spans [instruction.destination] stopPc)
    (finish : Reg → List MicroOp) :
    Emits (Emitter.toTarget instruction finish) instruction.stream ()
      (match (instruction.resolveDestination .word).target? with
        | none => (instruction.resolveDestination .word).ops ++ [.raiseTrap .illegal]
        | some (target, resolve) =>
          (instruction.resolveDestination .word).ops ++ resolve ++ finish target)
      { cursor := stopPc, words := [] } := by
  have destination := Emits.locateDestination spans .word .destination
  rw [← spans.rest.eq_of_nil]
  cases target : (instruction.resolveDestination .word).target? with
  | none =>
      refine destination.bind ?_
      simp only [Instruction.resolveDestination] at target
      simp only [target]
      exact .emit _ _
  | some found =>
      simp only [List.append_assoc]
      refine destination.bind ?_
      simp only [Instruction.resolveDestination] at target
      simp only [target]
      exact (Emits.emit _ _).bind (.emit _ _)

theorem jump (spans : instruction.stream.Spans [instruction.destination] stopPc) :
    Emits (Emitter.jump instruction) instruction.stream () instruction.jump
      { cursor := stopPc, words := [] } :=
  .toTarget spans _

theorem jumpToSubroutine (spans : instruction.stream.Spans [instruction.destination] stopPc) :
    Emits (Emitter.jumpToSubroutine instruction) instruction.stream ()
      instruction.jumpToSubroutine { cursor := stopPc, words := [] } := by
  refine (Emits.toTarget spans _).of_eq ?_
  cases target : (instruction.resolveDestination .word).target? with
  | none => simp [Instruction.jumpToSubroutine, target]
  | some found => simp [Instruction.jumpToSubroutine, target]

theorem fetchPrevious (operand : ResolvedOperand) (space : Space) (start : InstructionStream) :
    Emits (Emitter.fetchPrevious operand space) start ()
      [match operand.place with
        | .register reg => if reg = .sp then .readPreviousSp .s0 else .move .s0 reg
        | .memory address => .load .s0 address .word (.previous space)
        | .immediate value _ => .loadImm .s0 value] start := by
  rcases operand with ⟨place, ops, rest⟩
  cases place with
  | register reg => exact .emit _ _
  | memory address => exact .emit _ _
  | immediate value address => exact .emit _ _

theorem moveFromPrevious (spans : instruction.stream.Spans [instruction.destination] stopPc)
    (space : Space) :
    Emits (Emitter.moveFromPrevious instruction space) instruction.stream ()
      (instruction.moveFromPrevious space) { cursor := stopPc, words := [] } := by
  rw [← spans.rest.eq_of_nil]
  refine ((Emits.locateDestination spans _ _).bind ((Emits.fetchPrevious _ _ _).bind
    ((Emits.emit _ _).bind (.emit _ _)))).of_eq ?_
  exact List.append_assoc _ _ _

theorem assignPrevious (operand : ResolvedOperand) (space : Space) (start : InstructionStream) :
    Emits (Emitter.assignPrevious operand space) start ()
      (if operand.place = .register .sp then [.writePreviousSp .t0]
        else operand.assign .t0 .word false (.previous space)) start := by
  unfold Emitter.assignPrevious
  split
  · exact .emit _ _
  · exact .emit _ _

theorem moveToPrevious (spans : instruction.stream.Spans [instruction.destination] stopPc)
    (space : Space) :
    Emits (Emitter.moveToPrevious instruction space) instruction.stream ()
      (instruction.moveToPrevious space) { cursor := stopPc, words := [] } := by
  rw [← spans.rest.eq_of_nil]
  refine ((Emits.emit _ _).bind ((Emits.locateDestination spans _ _).bind
    ((Emits.assignPrevious _ _ _).bind (.emit _ _)))).of_eq ?_
  simp only [Instruction.moveToPrevious, List.append_assoc]
  rfl

end Emits

/-- The operands of an instruction span its extension if it is as long as they
need it. -/
theorem Instruction.spans_stream {instruction : Instruction}
    (complete : instruction.extension.length = instruction.extensionLength) :
    instruction.stream.Spans instruction.operands instruction.nextPc where
  length_eq := complete
  stop_eq := rfl

/-- In one pass the program comes out, and every extension word is used. -/
theorem Instruction.emits_onePass {instruction : Instruction}
    (complete : instruction.extension.length = instruction.extensionLength) :
    Emits instruction.onePass instruction.stream () instruction.program
      { cursor := instruction.nextPc, words := [] } := by
  have spans := spans_stream complete
  rcases instruction with ⟨pc, word, opcode, extension⟩
  cases opcode with
  | jmp => exact .jump spans
  | jsr => exact .jumpToSubroutine spans
  | mov => exact .move spans
  | cmp | bit => exact .compare spans _ _
  | bic | bis | add | sub => exact .combine spans _ _
  | com | inc | dec | neg | adc | sbc | ror | rol | asr | asl | swab =>
      exact .modify spans _ _
  | clr | sxt | mfps => exact .overwrite spans _ _ _ _
  | tst => exact .test spans
  | mtps => exact .useOperand spans _ _
  | mul | div | ash | ashc => exact .useOperand spans _ _
  | mfpi | mfpd => exact .moveFromPrevious spans _
  | mtpi | mtpd => exact .moveToPrevious spans _
  | xor => exact .exclusiveOr spans
  | _ =>
      rw [← spans.eq_of_nil]
      exact .emit _ _

end Pdp11
