import Pdp11.Microcode.Program

/-!
# The order of micro-operations

The program of an instruction gathers everything it needs before it changes
anything that a handler could miss. Only the micro-operations that gather are
followed by one that can raise a trap, so a trap finds nothing half done.
-/

namespace Pdp11

namespace MicroOp

/-! ## What a micro-operation may do -/

/-- The micro-operation may raise a trap. -/
def canRaise : MicroOp → Bool
  | halt | load .. | store .. | stackGuard | raiseTrap _ => true
  | _ => false

/-- The micro-operation makes a result of the instruction visible outside the
registers. -/
def commits : MicroOp → Bool
  | halt | wait | reset | store .. | loadPsw .. | forceKernel | conditionCodes .. | evalFlags ..
  | setPriority _ => true
  | _ => false

/-- The registers that the micro-operation posts by name. -/
def destinations : MicroOp → List Reg
  | move dst _ | loadImm dst _ | addImm dst _ _ | load dst _ _ _ | insertByte dst _
  | signExtendByte dst _ | readPreviousSp dst | readPsw dst | alu _ dst _ _ _ | shift _ dst _ _
  | swab dst _ | signExtend dst | shiftArith dst _ _ => [dst]
  | step reg _ => [reg]
  | mul high low _ _ | div high low _ | shiftArithPair high low _ => [high, low]
  | branch .. | jump .. => [.pc]
  | _ => []

/-- The amount fits the five bits that a note has for it. -/
def noteFits (amount : Word) : Bool :=
  (amount.extractLsb' 0 5).signExtend 16 = amount

/-- The micro-operation changes a general register and leaves no note by which
a handler could change it back. -/
def displaces : MicroOp → Bool
  | step _ amount => !noteFits amount
  | writePreviousSp _ => true
  | op => op.destinations.any Reg.isGeneral

/-- Whatever the micro-operation does can be taken back or done again. -/
def gathers (op : MicroOp) : Bool :=
  !op.commits && !op.displaces

theorem gathers_iff {op : MicroOp} :
    op.gathers ↔ op.commits = false ∧ op.displaces = false := by
  simp only [gathers, Bool.and_eq_true, Bool.not_eq_true']

@[simp]
theorem gathers_move (dst src : Reg) : (move dst src).gathers = !dst.isGeneral := by
  cases dst <;> rfl

@[simp]
theorem gathers_loadImm (dst : Reg) (value : Word) :
    (loadImm dst value).gathers = !dst.isGeneral := by
  cases dst <;> rfl

@[simp]
theorem gathers_addImm (dst src : Reg) (value : Word) :
    (addImm dst src value).gathers = !dst.isGeneral := by
  cases dst <;> rfl

@[simp]
theorem gathers_load (dst address : Reg) (width : Width) (space : AccessSpace) :
    (load dst address width space).gathers = !dst.isGeneral := by
  cases dst <;> rfl

@[simp]
theorem gathers_step (reg : Reg) (amount : Word) :
    (step reg amount).gathers = noteFits amount := by
  simp [gathers, commits, displaces]

end MicroOp

/-- Once something in `ops` has made a result visible, nothing after it can raise
a trap. -/
def CommitsLast (ops : List MicroOp) : Prop :=
  ops.Pairwise fun earlier later => earlier.commits = false ∨ later.canRaise = false

/-- What comes before a micro-operation that can raise a trap leaves no result. -/
theorem CommitsLast.uncommitted_before {op : MicroOp} {before after : List MicroOp}
    (order : CommitsLast (before ++ op :: after)) (canRaise : op.canRaise) :
    ∀ earlier ∈ before, earlier.commits = false := by
  intro earlier earlierMem
  have ordered := (List.pairwise_append.mp order).2.2 earlier earlierMem op List.mem_cons_self
  rcases ordered with uncommitted | harmless
  · exact uncommitted
  · rw [harmless] at canRaise
    contradiction

/-- In `ops` only micro-operations that gather come before one that can raise a
trap. -/
def Staged (ops : List MicroOp) : Prop :=
  ops.Pairwise fun earlier later => earlier.gathers ∨ later.canRaise = false

theorem Staged.gathers_before {op : MicroOp} {before after : List MicroOp}
    (staged : Staged (before ++ op :: after)) (canRaise : op.canRaise) :
    ∀ earlier ∈ before, earlier.gathers := by
  intro earlier earlierMem
  have ordered := (List.pairwise_append.mp staged).2.2 earlier earlierMem op List.mem_cons_self
  rcases ordered with gathers | harmless
  · exact gathers
  · rw [harmless] at canRaise
    contradiction

namespace Staged

variable {op : MicroOp} {ops first rest : List MicroOp}

theorem gather (gathers : op.gathers) (staged : Staged rest) : Staged (op :: rest) :=
  List.Pairwise.cons (fun _ _ => .inl gathers) staged

theorem gather_all (gathers : ∀ op ∈ first, op.gathers) (staged : Staged rest) :
    Staged (first ++ rest) := by
  induction first with
  | nil => exact staged
  | cons op first ih =>
      exact .gather (gathers op List.mem_cons_self)
        (ih fun later laterMem => gathers later (List.mem_cons_of_mem op laterMem))

/-- The first micro-operation that does not gather may itself raise a trap. -/
theorem settle (settled : ∀ later ∈ rest, later.canRaise = false) : Staged (op :: rest) := by
  apply List.Pairwise.cons
  · intro later laterMem
    exact .inr (settled later laterMem)
  · exact List.Pairwise.imp_of_mem
      (fun _ laterMem _ => .inr (settled _ laterMem)) (List.pairwise_of_forall fun _ _ => trivial)

theorem nil : Staged [] :=
  List.Pairwise.nil

end Staged

/-! ## Operands -/

namespace Operand

/-- The amounts of addressing modes fit a note. -/
theorem step_eq (operand : Operand) (width : Width) :
    operand.step width = 1 ∨ operand.step width = 2 := by
  unfold step
  split
  · exact .inl rfl
  · exact .inr rfl

theorem gathers_stepRegister {amount : Word} (fits : MicroOp.noteFits amount) (reg : Reg) :
    ∀ op ∈ MicroOp.stepRegister reg amount, op.gathers := by
  intro op opMem
  have cases_op : op = .step reg amount ∨ op = .stackGuard := by
    unfold MicroOp.stepRegister at opMem
    split at opMem
    · simpa using opMem
    · exact .inl (List.mem_singleton.mp opMem)
  rcases cases_op with rfl | rfl
  · simpa using fits
  · rfl

theorem noteFits_step (operand : Operand) (width : Width) :
    MicroOp.noteFits (operand.step width) ∧ MicroOp.noteFits (-operand.step width) := by
  rcases operand.step_eq width with one | two
  · rw [one]
    decide
  · rw [two]
    decide

theorem gathers_addressOps (operand : Operand) (width : Width) (slot : OperandSlot)
    (stream : InstructionStream) :
    ∀ op ∈ operand.addressOps width slot stream, op.gathers := by
  have up := gathers_stepRegister (operand.noteFits_step width).1 operand.reg
  have down := gathers_stepRegister (operand.noteFits_step width).2 operand.reg
  cases mode : operand.mode with
  | register | registerDeferred => simp [addressOps, mode]
  | autoincrement =>
      by_cases onPc : operand.reg = .pc
      · simp [addressOps, mode, onPc]
      · simpa [addressOps, mode, onPc] using up
  | autoincrementDeferred =>
      by_cases onPc : operand.reg = .pc
      · simp [addressOps, mode, onPc]
      · simpa [addressOps, mode, onPc, MicroOp.follow, or_imp, forall_and] using up
  | autodecrement => simpa [addressOps, mode, or_imp, forall_and] using down
  | autodecrementDeferred =>
      simpa [addressOps, mode, MicroOp.follow, or_imp, forall_and] using down
  | index => by_cases onPc : operand.reg = .pc <;> simp [addressOps, mode, onPc]
  | indexDeferred =>
      by_cases onPc : operand.reg = .pc <;> simp [addressOps, mode, onPc, MicroOp.follow]

end Operand

namespace ResolvedOperand

theorem gathers_fetch (operand : ResolvedOperand) (width : Width) (slot : OperandSlot) :
    (operand.fetch width slot).gathers := by
  unfold fetch
  split
  · unfold MicroOp.readRegister
    split <;> simp
  · simp
  · simp

/-- Assigning to an operand ends the gathering of an instruction. -/
theorem staged_assign (operand : ResolvedOperand) (src : Reg) (width : Width) (extend : Bool)
    (space : AccessSpace) {rest : List MicroOp}
    (settled : ∀ later ∈ rest, later.canRaise = false) :
    Staged (operand.assign src width extend space ++ rest) := by
  unfold assign
  split
  · split
    · exact .settle settled
    · split <;> exact .settle settled
  · exact .settle settled
  · exact .gather rfl (.settle settled)

end ResolvedOperand

namespace MicroOp

theorem pop_eq (dst : Reg) : pop dst = [load dst .sp .word .data, step .sp 2] :=
  rfl

theorem gathers_pop {dst : Reg} (scratch : dst.isGeneral = false) :
    ∀ op ∈ pop dst, op.gathers := by
  rw [pop, List.forall_mem_cons]
  constructor
  · simp [scratch]
  · exact Operand.gathers_stepRegister (by decide) .sp

theorem staged_push (src : Reg) {rest : List MicroOp}
    (settled : ∀ later ∈ rest, later.canRaise = false) : Staged (push src ++ rest) := by
  rw [push, List.append_assoc]
  exact .gather_all (Operand.gathers_stepRegister (by decide) .sp) (.settle settled)

end MicroOp

/-! ## Instructions -/

namespace Instruction

variable (instruction : Instruction)

theorem gathers_readSource : ∀ op ∈ instruction.readSource.1, op.gathers := by
  intro op opMem
  rcases List.mem_append.mp opMem with found | read
  · exact Operand.gathers_addressOps _ _ _ _ op found
  · rcases List.mem_cons.mp read with rfl | found
    · exact ResolvedOperand.gathers_fetch _ _ _
    · exact Operand.gathers_addressOps _ _ _ _ op found

theorem staged_combine {compute : List MicroOp} (gathers : ∀ op ∈ compute, op.gathers)
    (rule : FlagRule) : Staged (instruction.combine compute rule) := by
  unfold combine
  dsimp only
  simp only [List.append_assoc, List.cons_append]
  apply Staged.gather_all instruction.gathers_readSource
  apply Staged.gather (ResolvedOperand.gathers_fetch _ _ _)
  exact .gather_all gathers (ResolvedOperand.staged_assign _ _ _ _ _ (by simp [MicroOp.canRaise]))

theorem staged_compare {compute : MicroOp} (gathers : compute.gathers) (rule : FlagRule) :
    Staged (instruction.compare compute rule) := by
  apply Staged.gather_all instruction.gathers_readSource
  apply Staged.gather (ResolvedOperand.gathers_fetch _ _ _)
  exact .gather gathers (.settle (by simp))

theorem staged_move : Staged instruction.move := by
  unfold move
  dsimp only
  rw [List.append_assoc]
  apply Staged.gather_all instruction.gathers_readSource
  exact ResolvedOperand.staged_assign _ _ _ _ _ (by simp [MicroOp.canRaise])

theorem staged_modify {compute : MicroOp} (gathers : compute.gathers) (rule : FlagRule) :
    Staged (instruction.modify compute rule) := by
  unfold modify
  dsimp only
  rw [List.append_assoc]
  apply Staged.gather_all (Operand.gathers_addressOps _ _ _ _)
  apply Staged.gather (ResolvedOperand.gathers_fetch _ _ _)
  exact .gather gathers (ResolvedOperand.staged_assign _ _ _ _ _ (by simp [MicroOp.canRaise]))

theorem staged_overwrite {compute : MicroOp} (gathers : compute.gathers) (width : Width)
    (extend : Bool) (rule : FlagRule) :
    Staged (instruction.overwrite compute width extend rule) := by
  unfold overwrite
  dsimp only
  rw [List.append_assoc]
  apply Staged.gather_all (Operand.gathers_addressOps _ _ _ _)
  exact .gather gathers (ResolvedOperand.staged_assign _ _ _ _ _ (by simp [MicroOp.canRaise]))

theorem staged_test : Staged instruction.test := by
  apply Staged.gather_all (Operand.gathers_addressOps _ _ _ _)
  exact .gather (ResolvedOperand.gathers_fetch _ _ _) (.settle (by simp))

theorem gathers_readOperand (width : Width) :
    ∀ op ∈ instruction.readOperand width, op.gathers := by
  intro op opMem
  rcases List.mem_append.mp opMem with found | read
  · exact Operand.gathers_addressOps _ _ _ _ op found
  · rw [List.mem_singleton.mp read]
    exact ResolvedOperand.gathers_fetch _ _ _

/-- Reading an operand only gathers, so anything may follow it. -/
theorem staged_readOperand (width : Width) {rest : List MicroOp} (staged : Staged rest) :
    Staged (instruction.readOperand width ++ rest) :=
  .gather_all (instruction.gathers_readOperand width) staged

theorem staged_extended (compute : MicroOp) (rule : FlagRule) :
    Staged (instruction.extended compute rule) :=
  instruction.staged_readOperand _ (.settle (by simp [MicroOp.canRaise]))

theorem staged_exclusiveOr : Staged instruction.exclusiveOr := by
  unfold exclusiveOr MicroOp.readRegister
  dsimp only
  simp only [List.append_assoc, List.cons_append, List.nil_append]
  apply Staged.gather (by split <;> rfl)
  apply Staged.gather_all (Operand.gathers_addressOps _ _ _ _)
  apply Staged.gather (ResolvedOperand.gathers_fetch _ _ _)
  apply Staged.gather rfl
  exact ResolvedOperand.staged_assign _ _ _ _ _ (by simp [MicroOp.canRaise])

/-- A jump loads at most the address that it goes to. -/
theorem gathers_target {operand : ResolvedOperand} {target : Reg} {resolve : List MicroOp}
    (found : operand.target? = some (target, resolve)) : ∀ op ∈ resolve, op.gathers := by
  unfold ResolvedOperand.target? at found
  split at found <;> cases found <;> simp [Reg.isGeneral, Reg.number]

theorem staged_jump : Staged instruction.jump := by
  unfold jump
  dsimp only
  split
  · exact .gather_all (Operand.gathers_addressOps _ _ _ _) (.settle (by simp))
  · rename_i found
    rw [List.append_assoc]
    apply Staged.gather_all (Operand.gathers_addressOps _ _ _ _)
    exact .gather_all (gathers_target found) (.settle (by simp))

theorem staged_jumpToSubroutine : Staged instruction.jumpToSubroutine := by
  unfold jumpToSubroutine
  dsimp only
  split
  · exact .gather_all (Operand.gathers_addressOps _ _ _ _) (.settle (by simp))
  · rename_i found
    simp only [List.append_assoc, List.cons_append]
    apply Staged.gather_all (Operand.gathers_addressOps _ _ _ _)
    apply Staged.gather_all (gathers_target found)
    exact .gather rfl (MicroOp.staged_push _ (by simp [MicroOp.canRaise]))

theorem staged_returnFromSubroutine : Staged instruction.returnFromSubroutine := by
  unfold returnFromSubroutine
  dsimp only
  split
  · exact .gather_all (MicroOp.gathers_pop rfl) (.settle (by simp))
  · apply Staged.gather rfl
    exact .gather_all (MicroOp.gathers_pop rfl) (.settle (by simp [MicroOp.canRaise]))

theorem staged_returnFromInterrupt {inhibit : List MicroOp}
    (settled : ∀ op ∈ inhibit, op.canRaise = false) :
    Staged (instruction.returnFromInterrupt inhibit) := by
  unfold returnFromInterrupt
  simp only [List.append_assoc, List.cons_append]
  apply Staged.gather_all (MicroOp.gathers_pop rfl)
  apply Staged.gather_all (MicroOp.gathers_pop rfl)
  apply Staged.settle
  intro later laterMem
  rcases List.mem_append.mp laterMem with inhibits | jumps
  · exact settled later inhibits
  · rw [List.mem_singleton.mp jumps]
    rfl

theorem staged_moveFromPrevious (space : Space) :
    Staged (instruction.moveFromPrevious space) := by
  unfold moveFromPrevious
  dsimp only
  simp only [List.append_assoc, List.cons_append]
  apply Staged.gather_all (Operand.gathers_addressOps _ _ _ _)
  apply Staged.gather
  · split
    · split <;> rfl
    · rfl
    · rfl
  · exact MicroOp.staged_push _ (by simp [MicroOp.canRaise])

theorem staged_moveToPrevious (space : Space) : Staged (instruction.moveToPrevious space) := by
  unfold moveToPrevious
  dsimp only
  simp only [List.append_assoc]
  apply Staged.gather_all (MicroOp.gathers_pop rfl)
  apply Staged.gather_all (Operand.gathers_addressOps _ _ _ _)
  split
  · exact .settle (by simp [MicroOp.canRaise])
  · exact ResolvedOperand.staged_assign _ _ _ _ _ (by simp [MicroOp.canRaise])

theorem staged_mtps :
    Staged (instruction.readOperand .byte ++ [.loadPsw .s0 .mtps]) :=
  instruction.staged_readOperand _ (.settle (by simp))

/-- All programs but that of a mark, which moves the stack pointer before it
pops, gather before they change anything. -/
theorem staged_program (notMark : instruction.opcode ≠ .mark) : Staged instruction.program := by
  unfold program
  cases opcode : instruction.opcode
  case mark => exact absurd opcode notMark
  case jmp => exact instruction.staged_jump
  case rti => exact instruction.staged_returnFromInterrupt (by simp)
  case rtt => exact instruction.staged_returnFromInterrupt (by simp [MicroOp.canRaise])
  case jsr => exact instruction.staged_jumpToSubroutine
  case rts => exact instruction.staged_returnFromSubroutine
  case mov => exact instruction.staged_move
  case tst => exact instruction.staged_test
  case xor => exact instruction.staged_exclusiveOr
  case mtps => exact instruction.staged_mtps
  case mfpi | mfpd => exact instruction.staged_moveFromPrevious _
  case mtpi | mtpd => exact instruction.staged_moveToPrevious _
  case cmp | bit => exact instruction.staged_compare rfl _
  case bic => exact instruction.staged_combine (by simp; exact ⟨rfl, rfl⟩) _
  case bis | add | sub => exact instruction.staged_combine (List.forall_mem_singleton.mpr rfl) _
  case mul | div | ash | ashc => exact instruction.staged_extended _ _
  case clr | sxt | mfps => exact instruction.staged_overwrite rfl _ _ _
  case com | inc | dec | neg | adc | sbc | ror | rol | asr | asl | swab =>
    exact instruction.staged_modify rfl _
  -- What is left is a single micro-operation, or two of which the second cannot raise a trap.
  all_goals exact .settle (by simp [MicroOp.canRaise])

/-- Once a program has changed anything beside the registers, nothing in it can
raise a trap. -/
theorem commits_last (instruction : Instruction) : CommitsLast instruction.program := by
  unfold CommitsLast
  by_cases isMark : instruction.opcode = .mark
  · have uncommitted : ∀ op ∈ instruction.mark, op.commits = false := by
      simp [mark, MicroOp.pop_eq, MicroOp.commits]
    simp only [program, isMark]
    exact List.Pairwise.imp_of_mem (fun earlierMem _ _ => .inl (uncommitted _ earlierMem))
      (List.pairwise_of_forall fun _ _ => trivial)
  · apply List.Pairwise.imp _ (instruction.staged_program isMark)
    intro earlier later order
    apply order.imp_left
    intro gathers
    exact (MicroOp.gathers_iff.mp gathers).1

end Instruction

end Pdp11
