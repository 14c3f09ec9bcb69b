import Pdp11.Microcode.Program

/-!
# How many registers a program steps

An operand steps its register at most, and pushing or popping steps the stack
pointer. No program steps more registers than recovery has notes for.
-/

namespace Pdp11

/-- The micro-operation steps a register and notes the step. -/
def MicroOp.isStep : MicroOp → Bool
  | step .. => true
  | _ => false

/-- The number of steps among `ops`. -/
def stepCount (ops : List MicroOp) : Nat :=
  ops.countP MicroOp.isStep

@[simp]
theorem stepCount_nil : stepCount [] = 0 :=
  rfl

@[simp]
theorem stepCount_cons (op : MicroOp) (ops : List MicroOp) :
    stepCount (op :: ops) = stepCount ops + if op.isStep then 1 else 0 :=
  List.countP_cons

@[simp]
theorem stepCount_append (first second : List MicroOp) :
    stepCount (first ++ second) = stepCount first + stepCount second :=
  List.countP_append

namespace MicroOp

@[simp]
theorem isStep_step (reg : Reg) (amount : Word) : (step reg amount).isStep = true :=
  rfl

@[simp]
theorem isStep_of_ne {op : MicroOp} (other : ∀ reg amount, op ≠ step reg amount) :
    op.isStep = false := by
  cases op
  case step reg amount => exact absurd rfl (other reg amount)
  all_goals rfl

@[simp]
theorem stepCount_stepRegister (reg : Reg) (amount : Word) :
    stepCount (stepRegister reg amount) = 1 := by
  unfold stepRegister
  split <;> rfl

@[simp]
theorem stepCount_push (src : Reg) : stepCount (push src) = 1 :=
  rfl

@[simp]
theorem stepCount_pop (dst : Reg) : stepCount (pop dst) = 1 :=
  rfl

@[simp]
theorem isStep_readRegister (dst src : Reg) (stream : InstructionStream) :
    (readRegister dst src stream).isStep = false := by
  unfold readRegister
  split <;> rfl

end MicroOp

/-- Finding an operand steps its register at most. -/
theorem Operand.stepCount_addressOps (operand : Operand) (width : Width) (slot : OperandSlot)
    (stream : InstructionStream) : stepCount (operand.addressOps width slot stream) ≤ 1 := by
  cases mode : operand.mode with
  | register | registerDeferred | autodecrement => simp [addressOps, mode]
  | autodecrementDeferred => simp [addressOps, mode, MicroOp.follow]
  | autoincrement | index => by_cases onPc : operand.reg = .pc <;> simp [addressOps, mode, onPc]
  | autoincrementDeferred | indexDeferred =>
      by_cases onPc : operand.reg = .pc <;> simp [addressOps, mode, onPc, MicroOp.follow]

namespace ResolvedOperand

@[simp]
theorem isStep_fetch (operand : ResolvedOperand) (width : Width) (slot : OperandSlot) :
    (operand.fetch width slot).isStep = false := by
  unfold fetch
  split
  · exact MicroOp.isStep_readRegister _ _ _
  · rfl
  · rfl

@[simp]
theorem stepCount_assign (operand : ResolvedOperand) (src : Reg) (width : Width) (extend : Bool)
    (space : AccessSpace) : stepCount (operand.assign src width extend space) = 0 := by
  unfold assign
  split
  · split
    · rfl
    · split <;> rfl
  · rfl
  · rfl

theorem stepCount_target {operand : ResolvedOperand} {target : Reg} {resolve : List MicroOp}
    (found : operand.target? = some (target, resolve)) : stepCount resolve = 0 := by
  unfold target? at found
  split at found <;> cases found <;> rfl

end ResolvedOperand

/-! ## Instructions -/

namespace Instruction

variable (instruction : Instruction)

theorem stepCount_readSource : stepCount instruction.readSource.1 ≤ 2 := by
  have source := instruction.source.stepCount_addressOps instruction.width .source
    instruction.stream
  have destination := instruction.destination.stepCount_addressOps instruction.width .destination
    (instruction.source.rest instruction.stream)
  simp only [readSource, Operand.resolve, stepCount_append, stepCount_cons,
    ResolvedOperand.isStep_fetch, Bool.false_eq_true, if_false]
  omega

theorem stepCount_resolveDestination (width : Width) :
    stepCount (instruction.resolveDestination width).ops ≤ 1 :=
  Operand.stepCount_addressOps _ _ _ _

/-- No instruction steps more registers than there are notes for. -/
theorem stepCount_program : stepCount instruction.program ≤ 2 := by
  have source := instruction.stepCount_readSource
  have sized := instruction.stepCount_resolveDestination instruction.width
  have word := instruction.stepCount_resolveDestination .word
  have byte := instruction.stepCount_resolveDestination .byte
  have operand (width : Width) :
      stepCount (instruction.destination.resolve width .source instruction.stream).ops ≤ 1 :=
    Operand.stepCount_addressOps _ _ _ _
  have wordOperand := operand .word
  have byteOperand := operand .byte
  unfold program
  cases opcode : instruction.opcode
  case mov | cmp | bit | bic | bis | add | sub =>
    simpa [move, compare, combine] using source
  case mul | div | ash | ashc | mtps =>
    simp [extended, readOperand]
    omega
  case clr | sxt | mfps =>
    simp [overwrite]
    omega
  case tst | com | inc | dec | neg | adc | sbc | ror | rol | asr | asl | swab =>
    simp [test, unary, shift, modify]
    omega
  case xor =>
    simp [exclusiveOr]
    omega
  case jmp | jsr =>
    simp only [jump, jumpToSubroutine]
    split
    · simp
      omega
    · rename_i found
      simp [ResolvedOperand.stepCount_target found]
      omega
  case rts =>
    simp only [returnFromSubroutine]
    split <;> simp
  case mfpi | mfpd =>
    simp only [moveFromPrevious]
    split
    · split <;> simp <;> omega
    · simp
      omega
    · simp
      omega
  case mtpi | mtpd =>
    simp only [moveToPrevious]
    split <;> simp <;> omega
  all_goals simp [returnFromInterrupt, mark, branch, loop]

end Instruction

end Pdp11
