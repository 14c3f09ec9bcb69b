import Pdp11.Microcode.Program

/-!
# Whose memory an instruction reaches

Some micro-operations act for the kernel whatever the mode is: they switch to
it, load a status word as a handler does, or go through its pages. Only entry
to a handler uses them. An instruction reaches memory through the pages of the
current mode or of the previous one.
-/

namespace Pdp11

/-- The micro-operation reads memory. -/
def MicroOp.isLoad : MicroOp → Bool
  | load .. => true
  | _ => false

/-- The micro-operation writes memory. -/
def MicroOp.isStore : MicroOp → Bool
  | store .. => true
  | _ => false

/-- The micro-operation acts for the kernel in every mode. -/
def MicroOp.actsForKernel : MicroOp → Bool
  | load _ _ _ space | store _ _ _ space => space.mode = .kernel
  | forceKernel | loadPsw _ (.exception _) => true
  | _ => false

/-- Nothing in `ops` acts for the kernel. -/
def Unprivileged (ops : List MicroOp) : Prop :=
  ∀ op ∈ ops, op.actsForKernel = false

namespace Unprivileged

variable {op : MicroOp} {first second : List MicroOp}

@[simp]
theorem nil : Unprivileged [] := by
  simp [Unprivileged]

@[simp]
theorem cons_iff : Unprivileged (op :: first) ↔ op.actsForKernel = false ∧ Unprivileged first :=
  List.forall_mem_cons

@[simp]
theorem append_iff : Unprivileged (first ++ second) ↔ Unprivileged first ∧ Unprivileged second :=
  List.forall_mem_append

end Unprivileged

namespace MicroOp

@[simp]
theorem unprivileged_stepRegister (reg : Reg) (amount : Word) :
    Unprivileged (stepRegister reg amount) := by
  unfold stepRegister
  split <;> simp <;> and_intros <;> rfl

@[simp]
theorem unprivileged_push (src : Reg) : Unprivileged (push src) := by
  simp only [push, Unprivileged.append_iff, unprivileged_stepRegister, true_and]
  exact Unprivileged.cons_iff.mpr ⟨rfl, .nil⟩

@[simp]
theorem unprivileged_pop (dst : Reg) : Unprivileged (pop dst) := by
  exact Unprivileged.cons_iff.mpr ⟨rfl, unprivileged_stepRegister _ _⟩

@[simp]
theorem actsForKernel_follow (address : Reg) : (follow address).actsForKernel = false :=
  rfl

@[simp]
theorem actsForKernel_readRegister (dst src : Reg) (stream : InstructionStream) :
    (readRegister dst src stream).actsForKernel = false := by
  unfold readRegister
  split <;> rfl

end MicroOp

@[simp]
theorem Operand.unprivileged_addressOps (operand : Operand) (width : Width) (slot : OperandSlot)
    (stream : InstructionStream) : Unprivileged (operand.addressOps width slot stream) := by
  have moves (address reg : Reg) : (MicroOp.move address reg).actsForKernel = false := rfl
  have loads (address : Reg) (word : Word) : (MicroOp.loadImm address word).actsForKernel = false :=
    rfl
  have adds (address reg : Reg) (word : Word) :
      (MicroOp.addImm address reg word).actsForKernel = false := rfl
  cases mode : operand.mode with
  | register | registerDeferred | autodecrement | autodecrementDeferred =>
      simp [addressOps, mode, moves]
  | autoincrement | autoincrementDeferred =>
      by_cases onPc : operand.reg = .pc <;> simp [addressOps, mode, onPc, moves, loads]
  | index | indexDeferred =>
      by_cases onPc : operand.reg = .pc <;> simp [addressOps, mode, onPc, loads, adds]

namespace ResolvedOperand

@[simp]
theorem actsForKernel_fetch (operand : ResolvedOperand) (width : Width) (slot : OperandSlot) :
    (operand.fetch width slot).actsForKernel = false := by
  unfold fetch
  split
  · exact MicroOp.actsForKernel_readRegister _ _ _
  · rfl
  · rfl

theorem unprivileged_assign (operand : ResolvedOperand) (src : Reg) (width : Width)
    (extend : Bool) {space : AccessSpace} (outside : space.mode ≠ .kernel) :
    Unprivileged (operand.assign src width extend space) := by
  unfold assign
  split
  · split
    · exact Unprivileged.cons_iff.mpr ⟨rfl, .nil⟩
    · split <;> exact Unprivileged.cons_iff.mpr ⟨rfl, .nil⟩
  · simp [MicroOp.actsForKernel, outside]
  · simp [MicroOp.actsForKernel, outside]

@[simp]
theorem unprivileged_assign_data (operand : ResolvedOperand) (src : Reg) (width : Width)
    (extend : Bool) : Unprivileged (operand.assign src width extend .data) :=
  operand.unprivileged_assign src width extend (by decide)

@[simp]
theorem unprivileged_assign_previous (operand : ResolvedOperand) (src : Reg) (width : Width)
    (extend : Bool) (space : Space) :
    Unprivileged (operand.assign src width extend (.previous space)) :=
  operand.unprivileged_assign src width extend (by simp [AccessSpace.previous])

theorem unprivileged_target {operand : ResolvedOperand} {target : Reg} {resolve : List MicroOp}
    (found : operand.target? = some (target, resolve)) : Unprivileged resolve := by
  unfold target? at found
  split at found <;> cases found <;> simp [MicroOp.actsForKernel]

end ResolvedOperand

/-! ## Instructions -/

namespace Instruction

variable (instruction : Instruction)

@[simp]
theorem unprivileged_readSource : Unprivileged instruction.readSource.1 := by
  simp [readSource, Operand.resolve]

@[simp]
theorem unprivileged_resolveDestination (width : Width) :
    Unprivileged (instruction.resolveDestination width).ops :=
  Operand.unprivileged_addressOps _ _ _ _

@[simp]
theorem unprivileged_readOperand (width : Width) :
    Unprivileged (instruction.readOperand width) := by
  simp [readOperand, Operand.resolve]

theorem unprivileged_jump : Unprivileged instruction.jump := by
  unfold jump
  dsimp only
  split
  · simp
    rfl
  · rename_i found
    simp [ResolvedOperand.unprivileged_target found]
    rfl

theorem unprivileged_jumpToSubroutine : Unprivileged instruction.jumpToSubroutine := by
  unfold jumpToSubroutine
  dsimp only
  split
  · simp
    rfl
  · rename_i found
    simp [ResolvedOperand.unprivileged_target found]
    and_intros <;> rfl

theorem unprivileged_returnFromSubroutine : Unprivileged instruction.returnFromSubroutine := by
  unfold returnFromSubroutine
  dsimp only
  split <;> simp <;> and_intros <;> rfl

theorem unprivileged_moveFromPrevious (space : Space) :
    Unprivileged (instruction.moveFromPrevious space) := by
  unfold moveFromPrevious
  dsimp only
  simp only [Unprivileged.append_iff, Unprivileged.cons_iff, Unprivileged.nil,
    MicroOp.unprivileged_push, and_true]
  refine ⟨⟨Operand.unprivileged_addressOps _ _ _ _, ?_⟩, rfl⟩
  split
  · split <;> rfl
  · rfl
  · rfl

theorem unprivileged_moveToPrevious (space : Space) :
    Unprivileged (instruction.moveToPrevious space) := by
  unfold moveToPrevious
  dsimp only
  split <;> simp <;> and_intros <;> rfl

/-- No program of an instruction acts for the kernel. -/
theorem unprivileged_program : Unprivileged instruction.program := by
  unfold program
  cases opcode : instruction.opcode
  case jmp => exact instruction.unprivileged_jump
  case jsr => exact instruction.unprivileged_jumpToSubroutine
  case rts => exact instruction.unprivileged_returnFromSubroutine
  case mfpi | mfpd => exact instruction.unprivileged_moveFromPrevious _
  case mtpi | mtpd => exact instruction.unprivileged_moveToPrevious _
  case mov | cmp | bit | bic | bis | add | sub =>
    simp [move, compare, combine]
    and_intros <;> rfl
  case mul | div | ash | ashc | mtps =>
    simp [extended]
    and_intros <;> rfl
  case clr | sxt | mfps =>
    simp [overwrite]
    and_intros <;> rfl
  case tst | com | inc | dec | neg | adc | sbc | ror | rol | asr | asl | swab =>
    simp [test, unary, shift, modify]
    and_intros <;> rfl
  case xor =>
    simp [exclusiveOr]
    and_intros <;> rfl
  case rti | rtt =>
    simp [returnFromInterrupt]
    and_intros <;> rfl
  -- What is left are micro-operations that reach no memory, and pops.
  all_goals
    simp [mark, loop, branch]
    and_intros <;> rfl

end Instruction

end Pdp11
