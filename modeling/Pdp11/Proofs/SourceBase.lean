import Pdp11.Proofs.AccessModes
import Pdp11.Proofs.EffectiveAddress
import Pdp11.Proofs.Fetch
import Pdp11.Proofs.ScratchUse

/-!
# The program counter in the source of two operands

Both operands have their words fetched before the first of them is worked out.
The source is found first, so the program counter should count in it as the
address behind the words of the source alone. It does, except in the modes that
go through the program counter without a word of their own: those find it behind
the word of the destination as well, if there is one.
-/

namespace Pdp11

universe u

namespace Instruction

/-- The source is found through the program counter after a word that belongs to
the destination has been fetched. -/
def skipsWord (instruction : Instruction) : Bool :=
  match instruction.source.mode with
  | .registerDeferred | .autodecrement | .autodecrementDeferred =>
    instruction.destination.takesWord
  | _ => false

/-- The micro-operations before the first load. -/
def beforeLoad (instruction : Instruction) : List MicroOp :=
  instruction.program.takeWhile fun op => !op.isLoad

/-- The first load of the program, if there is one. -/
def firstLoad? (instruction : Instruction) : Option MicroOp :=
  instruction.program.find? MicroOp.isLoad

variable {instruction : Instruction}

/-- An instruction with two operands begins by bringing in its source. -/
theorem exists_program_eq (twoOperands : instruction.format = .sourceDest) :
    ∃ rest, instruction.program =
      instruction.source.addressOps instruction.width .source instruction.stream ++
        (instruction.source.resolve instruction.width .source instruction.stream).fetch
          instruction.width .source :: rest := by
  have begins : ∃ rest, instruction.program = instruction.readSource.1 ++ rest := by
    unfold format at twoOperands
    unfold program
    cases opcode : instruction.opcode with
    | mov => exact ⟨_, List.append_assoc _ _ _⟩
    | cmp | bit => exact ⟨_, rfl⟩
    | bic | bis | add | sub =>
        simp only [combine, List.append_assoc]
        exact ⟨_, rfl⟩
    | _ => simp [opcode, Opcode.format] at twoOperands
  rcases begins with ⟨rest, program⟩
  rw [program, readSource]
  simp only [List.append_assoc, List.cons_append]
  exact ⟨_, rfl⟩

theorem exists_program_eq_load (twoOperands : instruction.format = .sourceDest)
    (inMemory : instruction.source.place .source instruction.stream = .memory .s1) :
    ∃ rest, instruction.program =
      instruction.source.addressOps instruction.width .source instruction.stream ++
        .load .s0 .s1 instruction.width .data :: rest := by
  rcases instruction.exists_program_eq twoOperands with ⟨rest, program⟩
  refine ⟨rest, ?_⟩
  rw [program, ResolvedOperand.fetch, Operand.resolve, inMemory]
  rfl

end Instruction

variable {δ : Type u} [Bus δ]

namespace Machine

/-- From `fetched` on, the first micro-operation puts `value` in `reg`. -/
def PutsFirst (fetched : Machine δ) (instruction : Instruction) (reg : Reg) (value : Word) :
    Prop :=
  ∃ op rest next, instruction.program = op :: rest ∧
    Datapath.Step { machine := fetched, signals := .quiet } op next ∧ next.reg reg = value

/-- From `fetched` on, the first load is from `address`. -/
def LoadsFirst (fetched : Machine δ) (instruction : Instruction) (address : Word) : Prop :=
  ∃ dst pointer width reached, instruction.firstLoad? = some (.load dst pointer width .data) ∧
    Datapath.Steps { machine := fetched, signals := .quiet } instruction.beforeLoad reached ∧
    reached.reg pointer = address

/-- Once the instruction word is fetched, `word` is what the stream has at
`address`. -/
def StreamsAt (machine : Machine δ) (address word : Word) : Prop :=
  ((machine.fetchWord .fetch).2.read machine.psw.mode .instructionStream address .word).1 =
    .ok word

/-- The source of the instruction that `machine` fetches is made of `base` in
place of the program counter. It is `base` itself, or a word that the stream has
there, or it is loaded through such a word or through an address made of `base`. -/
def MakesSourceOf (machine : Machine δ) (instruction : Instruction) (base : Word) : Prop :=
  match instruction.source.mode with
  | .register => machine.fetch.2.PutsFirst instruction .s0 base
  | .autoincrement =>
    ∃ word, machine.StreamsAt base word ∧ machine.fetch.2.PutsFirst instruction .s0 word
  | .autoincrementDeferred =>
    ∃ word, machine.StreamsAt base word ∧ machine.fetch.2.LoadsFirst instruction word
  | _ =>
    machine.fetch.2.LoadsFirst instruction
      (instruction.source.firstAddress instruction.width base instruction.stream.head)

variable {machine fetched : Machine δ} {instruction : Instruction} {first second : Word}

theorem LoadsFirst.unique (loads : fetched.LoadsFirst instruction first)
    (others : fetched.LoadsFirst instruction second) : first = second := by
  rcases loads with ⟨dst, pointer, width, reached, load, steps, rfl⟩
  rcases others with ⟨_, _, _, other, otherLoad, otherSteps, rfl⟩
  cases load.symm.trans otherLoad
  rw [steps.unique otherSteps]

theorem loadsFirst_of_steps {before rest : List MicroOp} {dst pointer : Reg} {width : Width}
    {reached : Datapath δ}
    (program : instruction.program = before ++ .load dst pointer width .data :: rest)
    (noLoad : ∀ op ∈ before, op.isLoad = false)
    (steps : Datapath.Steps { machine := fetched, signals := .quiet } before reached) :
    fetched.LoadsFirst instruction (reached.reg pointer) := by
  have firstLoad : instruction.firstLoad? = some (.load dst pointer width .data) := by
    have none : before.find? MicroOp.isLoad = none := by
      simpa using noLoad
    simp [Instruction.firstLoad?, program, none, MicroOp.isLoad]
  have beforeLoad : instruction.beforeLoad = before := by
    rw [Instruction.beforeLoad, program, List.takeWhile_append_of_pos (by simpa using noLoad)]
    simp [MicroOp.isLoad]
  refine ⟨dst, pointer, width, reached, firstLoad, ?_, rfl⟩
  rw [beforeLoad]
  exact steps

/-! ## The modes -/

section TwoOperands

variable (twoOperands : instruction.format = .sourceDest)

include twoOperands

/-- An address made of `base` is where the source is loaded from, or the pointer
to it. -/
theorem loadsFirst_of_makes {before : List MicroOp} {base : Word} {reached : Datapath δ}
    (inMemory : instruction.source.place .source instruction.stream = .memory .s1)
    (splits : instruction.source.addressOps instruction.width .source instruction.stream =
      before ++ if instruction.source.mode.followsPointer then [MicroOp.follow .s1] else [])
    (noLoad : ∀ op ∈ before, op.isLoad = false)
    (steps : Datapath.Steps { machine := fetched, signals := .quiet } before reached)
    (makes : Datapath.Makes instruction.source instruction.width .source instruction.stream base
      { machine := fetched, signals := .quiet } reached) :
    fetched.LoadsFirst instruction
      (instruction.source.firstAddress instruction.width base instruction.stream.head) := by
  rcases instruction.exists_program_eq_load twoOperands inMemory with ⟨rest, program⟩
  rw [splits, List.append_assoc] at program
  rw [← makes.address]
  cases pointer : instruction.source.mode.followsPointer with
  | true =>
      rw [pointer] at program
      exact loadsFirst_of_steps program noLoad steps
  | false =>
      rw [pointer] at program
      exact loadsFirst_of_steps program noLoad steps

variable (onPc : instruction.source.reg = .pc)

include onPc

theorem putsFirst_of_register (mode : instruction.source.mode = .register) :
    fetched.PutsFirst instruction .s0 instruction.stream.cursor := by
  rcases instruction.exists_program_eq twoOperands with ⟨rest, program⟩
  refine ⟨.loadImm .s0 instruction.stream.cursor, rest, _, ?_, ⟨rfl, rfl⟩, ?_⟩
  · simp [program, Operand.addressOps, mode, ResolvedOperand.fetch, Operand.resolve, Operand.place,
      MicroOp.readRegister, onPc, Operand.rest, Operand.takesWord, OperandSlot.value]
  · exact (Datapath.reg_setReg _ .s0 .s0 _).trans (if_pos rfl)

theorem putsFirst_of_autoincrement (mode : instruction.source.mode = .autoincrement) :
    fetched.PutsFirst instruction .s0 instruction.stream.head := by
  rcases instruction.exists_program_eq twoOperands with ⟨rest, program⟩
  refine ⟨.loadImm .s0 instruction.stream.head, rest, _, ?_, ⟨rfl, rfl⟩, ?_⟩
  · simp [program, Operand.addressOps, mode, ResolvedOperand.fetch, Operand.resolve, Operand.place,
      onPc, OperandSlot.value]
  · exact (Datapath.reg_setReg _ .s0 .s0 _).trans (if_pos rfl)

theorem loadsFirst_of_autoincrementDeferred
    (mode : instruction.source.mode = .autoincrementDeferred) :
    fetched.LoadsFirst instruction instruction.stream.head := by
  have inMemory : instruction.source.place .source instruction.stream = .memory .s1 := by
    rw [Operand.place, mode]
    rfl
  rcases instruction.exists_program_eq_load twoOperands inMemory with ⟨rest, program⟩
  simp only [Operand.addressOps, mode, onPc, if_true] at program
  have taken : Datapath.Step { machine := fetched, signals := .quiet }
      (.loadImm .s1 instruction.stream.head) _ := ⟨rfl, rfl⟩
  have loads := loadsFirst_of_steps program (by simp [MicroOp.isLoad]) (.single taken)
  have address := (Datapath.reg_setReg { machine := fetched, signals := .quiet } .s1 .s1
    instruction.stream.head).trans (if_pos rfl)
  rw [← address]
  exact loads

theorem loadsFirst_of_registerDeferred (mode : instruction.source.mode = .registerDeferred) :
    fetched.LoadsFirst instruction
      (instruction.source.firstAddress instruction.width (fetched.reg .pc)
        instruction.stream.head) := by
  have inMemory : instruction.source.place .source instruction.stream = .memory .s1 := by
    rw [Operand.place, mode]
    rfl
  have moved : Datapath.Step { machine := fetched, signals := .quiet }
      (.move .s1 instruction.source.reg) _ := ⟨rfl, rfl⟩
  rw [← onPc]
  apply loadsFirst_of_makes twoOperands inMemory _ _ (.single moved) (moved.makes_move mode)
  · simp [Operand.addressOps, mode, AddressingMode.followsPointer, OperandSlot.address]
  · simp [MicroOp.isLoad]

theorem loadsFirst_of_autodecrement
    (mode : instruction.source.mode = .autodecrement ∨
      instruction.source.mode = .autodecrementDeferred) :
    fetched.LoadsFirst instruction
      (instruction.source.firstAddress instruction.width (fetched.reg .pc)
        instruction.stream.head) := by
  have inMemory : instruction.source.place .source instruction.stream = .memory .s1 := by
    rcases mode with mode | mode <;> rw [Operand.place, mode] <;> rfl
  let ops := MicroOp.stepRegister instruction.source.reg
    (-instruction.source.step instruction.width) ++
      [.move OperandSlot.source.address instruction.source.reg]
  -- The program counter is not the stack pointer, so the step has no check after it.
  have ops_eq : ops = [.step instruction.source.reg (-instruction.source.step instruction.width),
      .move .s1 instruction.source.reg] := by
    simp [ops, MicroOp.stepRegister, onPc, OperandSlot.address]
  have lowered : ∃ reached,
      Datapath.Steps { machine := fetched, signals := .quiet } ops reached := by
    rw [ops_eq]
    exact ⟨_, .cons ⟨rfl, rfl⟩ (.single ⟨rfl, rfl⟩)⟩
  rcases lowered with ⟨reached, steps⟩
  have noLoad : ∀ op ∈ ops, op.isLoad = false := by
    simp [ops_eq, MicroOp.isLoad]
  have splits : instruction.source.addressOps instruction.width .source instruction.stream =
      ops ++ if instruction.source.mode.followsPointer then [MicroOp.follow .s1] else [] := by
    rcases mode with mode | mode
    · simp [ops, Operand.addressOps, mode, AddressingMode.followsPointer, OperandSlot.address]
    · simp [ops, Operand.addressOps, mode, AddressingMode.followsPointer, OperandSlot.address]
  rw [← onPc]
  exact loadsFirst_of_makes twoOperands inMemory splits noLoad steps
    (steps.makes_stepDown mode instruction.isGeneral_source)

theorem loadsFirst_of_index
    (mode : instruction.source.mode = .index ∨ instruction.source.mode = .indexDeferred) :
    fetched.LoadsFirst instruction
      (instruction.source.firstAddress instruction.width
        (instruction.source.counter instruction.stream) instruction.stream.head) := by
  have inMemory : instruction.source.place .source instruction.stream = .memory .s1 := by
    rcases mode with mode | mode <;> rw [Operand.place, mode] <;> rfl
  let indexed : MicroOp :=
    if instruction.source.reg = .pc then
      .loadImm OperandSlot.source.address instruction.stream.relativeAddress
    else
      .addImm OperandSlot.source.address instruction.source.reg instruction.stream.head
  have indexed_eq : indexed = .loadImm .s1 instruction.stream.relativeAddress := if_pos onPc
  have step : ∃ reached, Datapath.Step { machine := fetched, signals := .quiet } indexed
      reached := by
    rw [indexed_eq]
    exact ⟨_, rfl, rfl⟩
  rcases step with ⟨reached, step⟩
  have noLoad : ∀ op ∈ [indexed], op.isLoad = false := by
    simp [indexed_eq, MicroOp.isLoad]
  have splits : instruction.source.addressOps instruction.width .source instruction.stream =
      [indexed] ++ if instruction.source.mode.followsPointer then [MicroOp.follow .s1] else [] := by
    rcases mode with mode | mode
    · simp [indexed, Operand.addressOps, mode, AddressingMode.followsPointer, OperandSlot.address]
    · simp [indexed, Operand.addressOps, mode, AddressingMode.followsPointer, OperandSlot.address]
  have base : fetched.base instruction.source instruction.stream =
      instruction.source.counter instruction.stream := if_pos onPc
  rw [← base]
  exact loadsFirst_of_makes twoOperands inMemory splits noLoad (.single step)
    (step.makes_indexed mode)

omit onPc in
/-- The first word of the extension stands right behind the instruction word. -/
theorem streamsAt_of_ready (ready : machine.fetch = (.ready instruction, fetched))
    (takes : instruction.source.takesWord) :
    machine.StreamsAt instruction.stream.cursor instruction.stream.head := by
  rcases fetch_eq_ready_iff.mp ready with ⟨word, after, opcode, succeeds, -, rest⟩
  let bare : Instruction := { pc := machine.pc, word, opcode, extension := [] }
  have atLeastOne : ∃ count, bare.extensionLength = count + 1 := by
    rcases fetchExtension_ready rest with ⟨words, -, rfl, -⟩
    have operands : bare.operands = [bare.source, bare.destination] := by
      change bare.format = .sourceDest at twoOperands
      rw [Instruction.operands, twoOperands]
    change bare.source.takesWord at takes
    rw [Instruction.extensionLength, operands, List.countP_cons_of_pos takes]
    exact ⟨_, rfl⟩
  rcases atLeastOne with ⟨count, length⟩
  change after.fetchExtension bare bare.extensionLength = _ at rest
  rw [length] at rest
  rcases fetchExtension_succ_eq_ready_iff.mp rest with ⟨found, later, streams, others⟩
  rcases fetchWord_eq_ok_iff.mp streams with ⟨read, outcome, -⟩
  rcases fetchExtension_ready others with ⟨words, -, rfl, -⟩
  have mode : after.psw.mode = machine.psw.mode := by
    have kept := (machine.fetchedFrom_fetchWord .fetch).psw
    rw [succeeds] at kept
    exact congrArg Psw.mode kept
  rw [mode, pc_fetchWord succeeds] at outcome
  unfold StreamsAt
  rw [succeeds]
  exact congrArg Prod.fst outcome

/-! ## All of them -/

/-- Without a word of its own the source is made of the address behind both
operands, and of no other. -/
theorem makesSourceOf_iff_of_takesNone (ready : machine.fetch = (.ready instruction, fetched))
    (inMemory : instruction.source.mode ≠ .register)
    (takesNone : instruction.source.takesWord = false) {base : Word} :
    machine.MakesSourceOf instruction base ↔ base = instruction.nextPc := by
  have counter : fetched.reg .pc = instruction.nextPc := (pc_fetch ready).2.2
  have loads : fetched.LoadsFirst instruction (instruction.source.firstAddress instruction.width
      instruction.nextPc instruction.stream.head) := by
    rw [← counter]
    cases mode : instruction.source.mode with
    | register => contradiction
    | registerDeferred => exact loadsFirst_of_registerDeferred twoOperands onPc mode
    | autodecrement => exact loadsFirst_of_autodecrement twoOperands onPc (.inl mode)
    | autodecrementDeferred => exact loadsFirst_of_autodecrement twoOperands onPc (.inr mode)
    | autoincrement | autoincrementDeferred => simp [Operand.takesWord, mode, onPc] at takesNone
    | index | indexDeferred => simp [Operand.takesWord, mode] at takesNone
  have made : machine.MakesSourceOf instruction base ↔
      fetched.LoadsFirst instruction
        (instruction.source.firstAddress instruction.width base instruction.stream.head) := by
    unfold MakesSourceOf
    rw [ready]
    cases mode : instruction.source.mode with
    | register => contradiction
    | autoincrement | autoincrementDeferred => simp [Operand.takesWord, mode, onPc] at takesNone
    | _ => rfl
  rw [made]
  constructor
  · intro others
    exact Operand.firstAddress_inj.mp (others.unique loads)
  · rintro rfl
    exact loads

/-- In the other modes the program counter counts as it should. -/
theorem makesSourceOf_counter (ready : machine.fetch = (.ready instruction, fetched))
    (settled : instruction.source.mode = .register ∨ instruction.source.takesWord) :
    machine.MakesSourceOf instruction (instruction.source.counter instruction.stream) := by
  have streams (takes : instruction.source.takesWord) :
      machine.StreamsAt instruction.stream.cursor instruction.stream.head :=
    streamsAt_of_ready twoOperands ready takes
  have takes (mode : instruction.source.mode = .autoincrement ∨
      instruction.source.mode = .autoincrementDeferred) : instruction.source.takesWord := by
    rcases mode with mode | mode <;> simp [Operand.takesWord, mode, onPc]
  unfold MakesSourceOf
  rw [ready]
  cases mode : instruction.source.mode with
  | register =>
      rw [Operand.counter, mode]
      exact putsFirst_of_register twoOperands onPc mode
  | autoincrement =>
      rw [Operand.counter, mode]
      exact ⟨_, streams (takes (.inl mode)), putsFirst_of_autoincrement twoOperands onPc mode⟩
  | autoincrementDeferred =>
      rw [Operand.counter, mode]
      exact ⟨_, streams (takes (.inr mode)),
        loadsFirst_of_autoincrementDeferred twoOperands onPc mode⟩
  | index => exact loadsFirst_of_index twoOperands onPc (.inl mode)
  | indexDeferred => exact loadsFirst_of_index twoOperands onPc (.inr mode)
  | registerDeferred | autodecrement | autodecrementDeferred =>
      simp [Operand.takesWord, mode] at settled

omit onPc in
theorem nextPc_eq (ready : machine.fetch = (.ready instruction, fetched))
    (takesNone : instruction.source.takesWord = false) :
    instruction.nextPc =
      if instruction.destination.takesWord then instruction.pc + 4 else instruction.pc + 2 := by
  have operands : instruction.operands = [instruction.source, instruction.destination] := by
    rw [Instruction.operands, twoOperands]
  rw [Instruction.nextPc, (pc_fetch ready).2.1, Instruction.extensionLength, operands]
  cases takes : instruction.destination.takesWord with
  | true => simp [takesNone, takes, BitVec.add_assoc]
  | false => simp [takesNone, takes]

/-- The program counter counts in a source as the address behind the words of the
source, unless a word of the destination was fetched between them. -/
theorem makesSourceOf_counter_iff (ready : machine.fetch = (.ready instruction, fetched)) :
    (machine.MakesSourceOf instruction (instruction.source.counter instruction.stream) ↔
      instruction.skipsWord = false) ∧
    (instruction.skipsWord → machine.MakesSourceOf instruction (instruction.pc + 4)) := by
  by_cases settled : instruction.source.mode = .register ∨ instruction.source.takesWord
  · have skipsNone : instruction.skipsWord = false := by
      unfold Operand.takesWord at settled
      unfold Instruction.skipsWord
      cases mode : instruction.source.mode <;> simp [mode] at settled ⊢
    rw [skipsNone]
    have made := makesSourceOf_counter twoOperands onPc ready settled
    exact ⟨⟨fun _ => rfl, fun _ => made⟩, fun skips => by contradiction⟩
  · rw [not_or, Bool.not_eq_true] at settled
    rcases settled with ⟨inMemory, takesNone⟩
    have behind : instruction.source.counter instruction.stream = instruction.pc + 2 ∧
        instruction.skipsWord = instruction.destination.takesWord := by
      unfold Operand.takesWord at takesNone
      unfold Instruction.skipsWord Operand.counter
      cases mode : instruction.source.mode <;>
        simp [mode, onPc, AddressingMode.isIndexed, Instruction.stream] at inMemory takesNone ⊢
    rw [makesSourceOf_iff_of_takesNone twoOperands onPc ready inMemory takesNone,
      makesSourceOf_iff_of_takesNone twoOperands onPc ready inMemory takesNone,
      nextPc_eq twoOperands ready takesNone, behind.1, behind.2]
    cases instruction.destination.takesWord with
    | true => simp
    | false => simp

end TwoOperands

/-- `MOV (PC),2(R1)`. -/
def moveThroughPc : Instruction where
  pc := 0
  word := 0o011761
  opcode := .mov
  extension := [2]

/-- A machine that is about to carry out `moveThroughPc`. -/
def beforeMove : Machine NoDevices :=
  { ofConfig Config.default .none with ram := { bytes := #[0o361, 0o23, 2, 0] } }

/-- The source is loaded from behind the index of the destination. -/
theorem makesSourceOf_moveThroughPc :
    ¬ beforeMove.MakesSourceOf moveThroughPc 2 ∧ beforeMove.MakesSourceOf moveThroughPc 4 := by
  have ready : beforeMove.fetch = (.ready moveThroughPc, beforeMove.fetch.2) := Prod.ext rfl rfl
  have both := makesSourceOf_counter_iff rfl rfl ready
  constructor
  · intro made
    have settled : moveThroughPc.skipsWord = false := both.1.mp made
    contradiction
  · exact both.2 rfl

end Machine

end Pdp11
