import Pdp11.Proofs.AccessModes
import Pdp11.Proofs.Staging

/-!
# Which programs are about the status word

Flag rules and stores aside, few micro-operations change the status word, and
one writes a stack pointer that only the status word names. They stand in the
programs of few opcodes, and none of those programs stores to memory.
-/

namespace Pdp11

/-- The micro-operation loads or changes the status word by itself, or writes
the stack pointer of the mode that the status word has as the previous one. -/
def MicroOp.isStatusOp : MicroOp → Bool
  | loadPsw .. | forceKernel | conditionCodes .. | setPriority _ | writePreviousSp _ => true
  | _ => false

theorem MicroOp.isStatusOp_of_gathers {op : MicroOp} (gathers : op.gathers) :
    op.isStatusOp = false := by
  cases op <;> first | rfl | contradiction

theorem MicroOp.isStore_of_gathers {op : MicroOp} (gathers : op.gathers) :
    op.isStore = false := by
  cases op <;> first | rfl | contradiction

/-- In `ops` nothing but `allowed` is about the status word. -/
def StatusOpsAmong (allowed ops : List MicroOp) : Prop :=
  ∀ op ∈ ops, op.isStatusOp → op ∈ allowed

namespace StatusOpsAmong

variable {op : MicroOp} {allowed first second : List MicroOp}

@[simp]
theorem nil : StatusOpsAmong allowed [] := by
  simp [StatusOpsAmong]

@[simp]
theorem cons_iff (ordinary : ¬ op.isStatusOp) :
    StatusOpsAmong allowed (op :: first) ↔ StatusOpsAmong allowed first := by
  simp [StatusOpsAmong, ordinary]

@[simp]
theorem cons_iff_of_mem (mem : op ∈ allowed) :
    StatusOpsAmong allowed (op :: first) ↔ StatusOpsAmong allowed first := by
  simp [StatusOpsAmong, mem]

@[simp]
theorem append_iff :
    StatusOpsAmong allowed (first ++ second) ↔
      StatusOpsAmong allowed first ∧ StatusOpsAmong allowed second :=
  List.forall_mem_append

theorem of_gathers (gathers : ∀ op ∈ first, op.gathers) : StatusOpsAmong allowed first := by
  intro op opMem isStatusOp
  rw [MicroOp.isStatusOp_of_gathers (gathers op opMem)] at isStatusOp
  contradiction

end StatusOpsAmong

variable {allowed : List MicroOp}

namespace MicroOp

@[simp]
theorem statusOpsAmong_push (src : Reg) : StatusOpsAmong allowed (push src) := by
  rw [push, StatusOpsAmong.append_iff]
  exact ⟨.of_gathers (Operand.gathers_stepRegister (by decide) .sp), by simp [isStatusOp]⟩

@[simp]
theorem statusOpsAmong_readRegister (dst src : Reg) (stream : InstructionStream)
    (rest : List MicroOp) :
    StatusOpsAmong allowed (readRegister dst src stream :: rest) ↔
      StatusOpsAmong allowed rest := by
  unfold readRegister
  split <;> simp [isStatusOp]

end MicroOp

namespace ResolvedOperand

variable (operand : ResolvedOperand)

@[simp]
theorem statusOpsAmong_fetch (width : Width) (slot : OperandSlot) (rest : List MicroOp) :
    StatusOpsAmong allowed (operand.fetch width slot :: rest) ↔ StatusOpsAmong allowed rest :=
  StatusOpsAmong.cons_iff
    (by simp [MicroOp.isStatusOp_of_gathers (operand.gathers_fetch width slot)])

@[simp]
theorem statusOpsAmong_assign (src : Reg) (width : Width) (extend : Bool) (space : AccessSpace) :
    StatusOpsAmong allowed (operand.assign src width extend space) := by
  cases place : operand.place <;> cases width <;> cases extend <;>
    simp [assign, place, MicroOp.isStatusOp]

end ResolvedOperand

/-! ## Instructions -/

namespace Instruction

variable (instruction : Instruction)

/-- The instruction moves the word on the stack to the stack pointer of the
previous mode. -/
def popsToPreviousStack : Bool :=
  (instruction.opcode = .mtpi || instruction.opcode = .mtpd) &&
    instruction.destination = { mode := .register, reg := .sp }

/-- What the program of the instruction may do about the status word. -/
def statusOps : List MicroOp :=
  match instruction.opcode with
  | .rti | .rtt => [.loadPsw .t1 .ordinary]
  | .mtps => [.loadPsw .s0 .mtps]
  | .spl => [.setPriority ((instruction.word.extractLsb' 0 3).setWidth 8)]
  | .clearCc => [.conditionCodes false (instruction.word &&& 0o17)]
  | .setCc => [.conditionCodes true (instruction.word &&& 0o17)]
  | .mtpi | .mtpd => if instruction.popsToPreviousStack then [.writePreviousSp .t0] else []
  | _ => []

@[simp]
theorem statusOpsAmong_readSource : StatusOpsAmong allowed instruction.readSource.1 :=
  .of_gathers instruction.gathers_readSource

@[simp]
theorem statusOpsAmong_resolveDestination (width : Width) :
    StatusOpsAmong allowed (instruction.resolveDestination width).ops :=
  .of_gathers (Operand.gathers_addressOps _ _ _ _)

@[simp]
theorem statusOpsAmong_resolveSource (width : Width) :
    StatusOpsAmong allowed
      (instruction.destination.resolve width .source instruction.stream).ops :=
  .of_gathers (Operand.gathers_addressOps _ _ _ _)

@[simp]
theorem statusOpsAmong_readOperand (width : Width) :
    StatusOpsAmong allowed (instruction.readOperand width) := by
  simp [readOperand]

theorem statusOpsAmong_pop {dst : Reg} (scratch : dst.isGeneral = false) :
    StatusOpsAmong allowed (MicroOp.pop dst) :=
  .of_gathers (MicroOp.gathers_pop scratch)

theorem place_eq_register_sp_iff (width : Width) :
    (instruction.resolveDestination width).place = .register .sp ↔
      instruction.destination = { mode := .register, reg := .sp } := by
  rcases destination : instruction.destination with ⟨mode, reg⟩
  cases mode <;> by_cases isPc : reg = .pc <;>
    simp [resolveDestination, Operand.resolve, Operand.place, destination, isPc]

theorem moveToPrevious_of_popsToPreviousStack (space : Space)
    (pops : instruction.popsToPreviousStack) :
    instruction.moveToPrevious space =
      [.load .t0 .sp .word .data, .step .sp 2, .writePreviousSp .t0,
        .evalFlags .logical .t0 .word] := by
  have toStack : instruction.destination = { mode := .register, reg := .sp } := by
    simp [popsToPreviousStack] at pops
    exact pops.2
  have place := (instruction.place_eq_register_sp_iff .word).mpr toStack
  have found : (instruction.resolveDestination .word).ops = [] := by
    simp [resolveDestination, Operand.resolve, Operand.addressOps, toStack]
  simp [moveToPrevious, place, found, MicroOp.pop_eq]

theorem program_of_popsToPreviousStack (pops : instruction.popsToPreviousStack) :
    instruction.program =
      [.load .t0 .sp .word .data, .step .sp 2, .writePreviousSp .t0,
        .evalFlags .logical .t0 .word] := by
  have moves : instruction.opcode = .mtpi ∨ instruction.opcode = .mtpd := by
    simp [popsToPreviousStack] at pops
    exact pops.1
  rcases moves with mtpi | mtpd
  · simp only [program, mtpi]
    exact instruction.moveToPrevious_of_popsToPreviousStack _ pops
  · simp only [program, mtpd]
    exact instruction.moveToPrevious_of_popsToPreviousStack _ pops

theorem statusOpsAmong_moveToPrevious (space : Space)
    (moves : instruction.opcode = .mtpi ∨ instruction.opcode = .mtpd) :
    StatusOpsAmong (if instruction.popsToPreviousStack then [.writePreviousSp .t0] else [])
      (instruction.moveToPrevious space) := by
  have toStack : (instruction.resolveDestination .word).place = .register .sp ↔
      instruction.popsToPreviousStack := by
    simp [place_eq_register_sp_iff, popsToPreviousStack, moves]
  simp only [moveToPrevious, toStack]
  split <;> simp [statusOpsAmong_pop, Reg.isGeneral, Reg.number, MicroOp.isStatusOp]

theorem statusOpsAmong_program : StatusOpsAmong instruction.statusOps instruction.program := by
  unfold program statusOps
  cases opcode : instruction.opcode
  case mtpi | mtpd => exact instruction.statusOpsAmong_moveToPrevious _ (by simp [opcode])
  case jmp | jsr =>
    simp only [jump, jumpToSubroutine]
    split
    · simp [MicroOp.isStatusOp]
    · rename_i found
      have resolves : StatusOpsAmong [] _ := .of_gathers (gathers_target found)
      simp [resolves, MicroOp.isStatusOp]
  case rts =>
    simp only [returnFromSubroutine]
    split <;> simp [statusOpsAmong_pop, Reg.isGeneral, Reg.number, MicroOp.isStatusOp]
  case mfpi | mfpd =>
    simp only [moveFromPrevious]
    cases (instruction.destination.resolve .word .source instruction.stream).place with
    | register reg => by_cases toStack : reg = .sp <;> simp [toStack, MicroOp.isStatusOp]
    | memory address => simp [MicroOp.isStatusOp]
    | immediate value address => simp [MicroOp.isStatusOp]
  case rti | rtt | mark =>
    simp [returnFromInterrupt, mark, statusOpsAmong_pop, Reg.isGeneral, Reg.number,
      MicroOp.isStatusOp]
  case mov | cmp | bit | bic | bis | add | sub =>
    simp [move, compare, combine, MicroOp.isStatusOp]
  case mul | div | ash | ashc | mtps => simp [extended, MicroOp.isStatusOp]
  case clr | sxt | mfps | tst | com | inc | dec | neg | adc | sbc | ror | rol | asr | asl | swab =>
    simp [overwrite, test, unary, shift, modify, MicroOp.isStatusOp]
  case xor => simp [exclusiveOr, MicroOp.isStatusOp]
  all_goals simp [loop, branch, MicroOp.isStatusOp]

/-- The micro-operations on the status word, each with the instructions that it is
for. -/
inductive StatusOpOf : MicroOp → Prop
  | ofReturn (returns : instruction.opcode = .rti ∨ instruction.opcode = .rtt) :
      StatusOpOf (.loadPsw .t1 .ordinary)
  | ofMtps : StatusOpOf (.loadPsw .s0 .mtps)
  | ofSpl (priority : Byte) : StatusOpOf (.setPriority priority)
  | ofConditionCodes (set : Bool) (mask : Word) : StatusOpOf (.conditionCodes set mask)
  | ofPop (pops : instruction.popsToPreviousStack) : StatusOpOf (.writePreviousSp .t0)

theorem statusOpOf_program {op : MicroOp} (opMem : op ∈ instruction.program)
    (isStatusOp : op.isStatusOp) : instruction.StatusOpOf op := by
  have among := instruction.statusOpsAmong_program op opMem isStatusOp
  unfold statusOps at among
  cases opcode : instruction.opcode <;> simp only [opcode] at among
  case rti | rtt =>
    rw [List.mem_singleton.mp among]
    exact .ofReturn (by simp [opcode])
  case mtps =>
    rw [List.mem_singleton.mp among]
    exact .ofMtps
  case spl =>
    rw [List.mem_singleton.mp among]
    exact .ofSpl _
  case clearCc | setCc =>
    rw [List.mem_singleton.mp among]
    exact .ofConditionCodes _ _
  case mtpi | mtpd =>
    split at among
    · rename_i pops
      rw [List.mem_singleton.mp among]
      exact .ofPop pops
    · contradiction
  all_goals contradiction

/-- An instruction that is about the status word stores nothing. -/
theorem isStore_of_statusOps (about : instruction.statusOps ≠ []) :
    ∀ op ∈ instruction.program, op.isStore = false := by
  unfold statusOps at about
  unfold program
  cases opcode : instruction.opcode <;> simp only [opcode, ne_eq, not_true_eq_false] at about ⊢
  case rti | rtt => simp [returnFromInterrupt, MicroOp.pop_eq, MicroOp.isStore]
  case spl | clearCc | setCc => simp [MicroOp.isStore]
  case mtps =>
    rw [List.forall_mem_append]
    refine ⟨?_, by simp [MicroOp.isStore]⟩
    intro op opMem
    exact MicroOp.isStore_of_gathers (instruction.gathers_readOperand .byte op opMem)
  case mtpi | mtpd =>
    have pops : instruction.popsToPreviousStack := by
      apply Decidable.byContradiction
      intro notPops
      exact about (if_neg notPops)
    rw [instruction.moveToPrevious_of_popsToPreviousStack _ pops]
    simp [MicroOp.isStore]

end Instruction

end Pdp11
