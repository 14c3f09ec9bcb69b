import Pdp11.Proofs.AccessModes
import Pdp11.Proofs.ProgramLength
import Pdp11.Proofs.ScratchUse
import Pdp11.Proofs.StepCount

/-!
# The shape of programs

A program is never empty and fits the pipeline. What ends an instruction stands
last in it, the stack pointer is checked as soon as it was stepped down, and
after its one store nothing can stop the instruction half done. The few
micro-operations that stop the machine, reset it, put the trace trap off or raise
a trap without an access stand in the programs of some opcodes only.
-/

namespace Pdp11

namespace MicroOp

/-- The micro-operation steps the stack pointer down. -/
def lowersStack : MicroOp → Bool
  | step .sp amount => amount.msb
  | _ => false

/-- The micro-operation neither moves words nor computes. -/
def isSpecial : MicroOp → Bool
  | halt | wait | reset | inhibitTrace | raiseTrap _ => true
  | _ => false

end MicroOp

/-- The special micro-operations that a program may have. -/
def Opcode.specials : Opcode → List MicroOp
  | halt => [.halt]
  | wait => [.wait]
  | reset => [.reset]
  | rtt => [.inhibitTrace]
  | bpt => [.raiseTrap .breakpoint]
  | iot => [.raiseTrap .iot]
  | emt => [.raiseTrap .emt]
  | trap => [.raiseTrap .trap]
  | jmp | jsr => [.raiseTrap .illegal]
  | _ => []

/-- In `ops` nothing follows what ends the instruction, a check of the stack
pointer follows at once where it is stepped down, and nothing is special but
`specials`. -/
def Shaped (specials : List MicroOp) : List MicroOp → Prop
  | [] => True
  | op :: rest =>
    (op.endsInstruction → rest = []) ∧ (op.lowersStack → rest.head? = some .stackGuard) ∧
      (op.isSpecial → op ∈ specials) ∧ Shaped specials rest

namespace Shaped

variable {op : MicroOp} {specials before rest after ops : List MicroOp}

@[simp]
theorem nil : Shaped specials [] :=
  trivial

/-- Most micro-operations may stand anywhere. -/
@[simp]
theorem cons_iff (goesOn : ¬ op.endsInstruction) (keeps : ¬ op.lowersStack)
    (ordinary : ¬ op.isSpecial) : Shaped specials (op :: rest) ↔ Shaped specials rest := by
  simp [Shaped, goesOn, keeps, ordinary]

@[simp]
theorem cons_iff_of_mem (goesOn : ¬ op.endsInstruction) (keeps : ¬ op.lowersStack)
    (mem : op ∈ specials) : Shaped specials (op :: rest) ↔ Shaped specials rest := by
  simp [Shaped, goesOn, keeps, mem]

@[simp]
theorem singleton (keeps : ¬ op.lowersStack) (ordinary : ¬ op.isSpecial) :
    Shaped specials [op] := by
  simp [Shaped, keeps, ordinary]

@[simp]
theorem singleton_of_mem (keeps : ¬ op.lowersStack) (mem : op ∈ specials) :
    Shaped specials [op] := by
  simp [Shaped, keeps, mem]

theorem of_append (shaped : Shaped specials (before ++ rest)) : Shaped specials rest := by
  induction before with
  | nil => exact shaped
  | cons op before ih => exact ih shaped.2.2.2

theorem last_of_ends (shaped : Shaped specials (before ++ op :: after))
    (ends : op.endsInstruction) : after = [] :=
  shaped.of_append.1 ends

theorem guarded_of_lowers (shaped : Shaped specials (before ++ op :: after))
    (lowers : op.lowersStack) : after.head? = some .stackGuard :=
  shaped.of_append.2.1 lowers

theorem mem_of_isSpecial (shaped : Shaped specials ops) (opMem : op ∈ ops)
    (special : op.isSpecial) : op ∈ specials := by
  rcases List.append_of_mem opMem with ⟨before, after, rfl⟩
  exact shaped.of_append.2.2.1 special

end Shaped

variable {specials : List MicroOp}

/-! ## Pushes and pops -/

namespace MicroOp

@[simp]
theorem shaped_stepRegister (reg : Reg) (amount : Word) (rest : List MicroOp) :
    Shaped specials (stepRegister reg amount ++ rest) ↔ Shaped specials rest := by
  unfold stepRegister
  split
  · simp [Shaped, endsInstruction, lowersStack, isSpecial]
  · rename_i notDown
    have keeps : ¬ (step reg amount).lowersStack := by
      cases reg <;> simp_all [lowersStack]
    simp [keeps, endsInstruction, isSpecial]

@[simp]
theorem shaped_push (src : Reg) (rest : List MicroOp) :
    Shaped specials (push src ++ rest) ↔ Shaped specials rest := by
  simp [push, endsInstruction, lowersStack, isSpecial]

@[simp]
theorem shaped_pop (dst : Reg) (rest : List MicroOp) :
    Shaped specials (pop dst ++ rest) ↔ Shaped specials rest := by
  simp [pop, endsInstruction, lowersStack, isSpecial]

@[simp]
theorem shaped_readRegister (dst src : Reg) (stream : InstructionStream) (rest : List MicroOp) :
    Shaped specials (readRegister dst src stream :: rest) ↔ Shaped specials rest := by
  unfold readRegister
  split <;> simp [endsInstruction, lowersStack, isSpecial]

end MicroOp

/-! ## Well-formed programs -/

/-- What the engine relies on in the micro-operations of an instruction. -/
structure WellFormed (ops : List MicroOp) : Prop where
  nonempty : ops ≠ []
  fits : ops.length ≤ pipelineCapacity
  endsLast : ∀ before op after, ops = before ++ op :: after → op.endsInstruction → after = []
  storesOnce : ops.countP MicroOp.isStore ≤ 1
  settled : ∀ before op after, ops = before ++ op :: after → op.isStore →
    ∀ later ∈ after, later.isLoad = false ∧ later ≠ .stackGuard ∧ ∀ kind, later ≠ .raiseTrap kind
  guarded : ∀ before op after, ops = before ++ op :: after → op.lowersStack →
    after.head? = some .stackGuard
  stepsTwice : stepCount ops ≤ 2
  supplied : ∀ before op after, ops = before ++ op :: after →
    ∀ reg ∈ op.sources, reg.isGeneral = false → ∃ earlier ∈ before, reg ∈ earlier.destinations

/-! ## Operands -/

@[simp]
theorem Operand.shaped_addressOps (operand : Operand) (width : Width) (slot : OperandSlot)
    (stream : InstructionStream) (rest : List MicroOp) :
    Shaped specials (operand.addressOps width slot stream ++ rest) ↔ Shaped specials rest := by
  cases mode : operand.mode <;> by_cases isPc : operand.reg = .pc <;>
    simp [addressOps, mode, isPc, MicroOp.follow, MicroOp.endsInstruction, MicroOp.lowersStack,
      MicroOp.isSpecial]

namespace ResolvedOperand

variable {operand : ResolvedOperand}

@[simp]
theorem shaped_fetch (width : Width) (slot : OperandSlot) (rest : List MicroOp) :
    Shaped specials (operand.fetch width slot :: rest) ↔ Shaped specials rest := by
  unfold fetch
  split <;> simp [MicroOp.endsInstruction, MicroOp.lowersStack, MicroOp.isSpecial]

@[simp]
theorem shaped_assign (src : Reg) (width : Width) (extend : Bool) (space : AccessSpace)
    (rest : List MicroOp) :
    Shaped specials (operand.assign src width extend space ++ rest) ↔ Shaped specials rest := by
  cases place : operand.place <;> cases width <;> cases extend <;>
    simp [assign, place, MicroOp.endsInstruction, MicroOp.lowersStack, MicroOp.isSpecial]

theorem shaped_target {target : Reg} {resolve : List MicroOp}
    (found : operand.target? = some (target, resolve)) (rest : List MicroOp) :
    Shaped specials (resolve ++ rest) ↔ Shaped specials rest := by
  unfold target? at found
  split at found <;> cases found <;>
    simp [MicroOp.endsInstruction, MicroOp.lowersStack, MicroOp.isSpecial]

end ResolvedOperand

/-! ## Instructions -/

namespace Instruction

variable (instruction : Instruction)

@[simp]
theorem shaped_readSource (rest : List MicroOp) :
    Shaped specials (instruction.readSource.1 ++ rest) ↔ Shaped specials rest := by
  simp [readSource, Operand.resolve]

@[simp]
theorem shaped_resolveDestination (width : Width) (rest : List MicroOp) :
    Shaped specials ((instruction.resolveDestination width).ops ++ rest) ↔
      Shaped specials rest :=
  Operand.shaped_addressOps _ _ _ _ _

@[simp]
theorem shaped_readOperand (width : Width) (rest : List MicroOp) :
    Shaped specials (instruction.readOperand width ++ rest) ↔ Shaped specials rest := by
  simp [readOperand, Operand.resolve]

theorem shaped_program : Shaped instruction.opcode.specials instruction.program := by
  unfold program
  cases opcode : instruction.opcode
  case mov | cmp | bit | bic | bis | add | sub =>
    simp [move, compare, combine, MicroOp.endsInstruction, MicroOp.lowersStack,
      MicroOp.isSpecial]
  case mul | div | ash | ashc | mtps =>
    simp [extended, MicroOp.endsInstruction, MicroOp.lowersStack, MicroOp.isSpecial]
  case clr | sxt | mfps | tst | com | inc | dec | neg | adc | sbc | ror | rol | asr | asl | swab =>
    simp [overwrite, test, unary, shift, modify, MicroOp.endsInstruction, MicroOp.lowersStack,
      MicroOp.isSpecial]
  case xor =>
    simp [exclusiveOr, MicroOp.endsInstruction, MicroOp.lowersStack, MicroOp.isSpecial]
  case jmp | jsr =>
    simp only [jump, jumpToSubroutine]
    split
    · simp [MicroOp.lowersStack, Opcode.specials]
    · rename_i found
      simp [ResolvedOperand.shaped_target found, MicroOp.endsInstruction, MicroOp.lowersStack,
        MicroOp.isSpecial]
  case rts =>
    simp only [returnFromSubroutine]
    split <;> simp [MicroOp.endsInstruction, MicroOp.lowersStack, MicroOp.isSpecial]
  case mfpi | mfpd =>
    simp only [moveFromPrevious]
    cases (instruction.destination.resolve .word .source instruction.stream).place with
    | register reg =>
        by_cases toStack : reg = .sp <;>
          simp [toStack, Operand.resolve, MicroOp.endsInstruction, MicroOp.lowersStack,
            MicroOp.isSpecial]
    | memory address =>
        simp [Operand.resolve, MicroOp.endsInstruction, MicroOp.lowersStack, MicroOp.isSpecial]
    | immediate value address =>
        simp [Operand.resolve, MicroOp.endsInstruction, MicroOp.lowersStack, MicroOp.isSpecial]
  case mtpi | mtpd =>
    simp only [moveToPrevious]
    split <;> simp [MicroOp.endsInstruction, MicroOp.lowersStack, MicroOp.isSpecial]
  all_goals
    simp [returnFromInterrupt, mark, branch, loop, MicroOp.endsInstruction, MicroOp.lowersStack,
      MicroOp.isSpecial, Opcode.specials]

theorem program_ne_nil : instruction.program ≠ [] := by
  unfold program
  cases opcode : instruction.opcode
  case jmp | jsr =>
    simp only [jump, jumpToSubroutine]
    split <;> simp
  case rts =>
    simp only [returnFromSubroutine]
    split <;> simp
  all_goals
    simp [combine, compare, move, modify, overwrite, test, unary, shift, extended, exclusiveOr,
      moveFromPrevious, moveToPrevious, returnFromInterrupt, mark, branch, loop]

end Instruction

/-! ## Stores -/

namespace CommitsLast

variable {op : MicroOp} {ops before after : List MicroOp}

/-- Behind a store nothing can raise a trap. -/
theorem settled_of_isStore (ordered : CommitsLast (before ++ op :: after))
    (stores : op.isStore) : ∀ later ∈ after, later.canRaise = false := by
  have commits : op.commits := by
    cases op <;> first | rfl | contradiction
  intro later laterMem
  have behind := (List.pairwise_append.mp ordered).2.1
  rcases List.rel_of_pairwise_cons behind laterMem with uncommitted | settled
  · rw [commits] at uncommitted
    contradiction
  · exact settled

/-- A store can raise a trap, so no second one comes behind it. -/
theorem countP_isStore_le (ordered : CommitsLast ops) : ops.countP MicroOp.isStore ≤ 1 := by
  induction ops with
  | nil => exact Nat.zero_le 1
  | cons op rest ih =>
      have whole : CommitsLast ([] ++ op :: rest) := ordered
      cases stores : op.isStore with
      | false =>
          rw [List.countP_cons_of_neg (by simp [stores])]
          exact ih ordered.of_cons
      | true =>
          have settled := whole.settled_of_isStore stores
          have noStore : rest.countP MicroOp.isStore = 0 := by
            apply List.countP_eq_zero.mpr
            intro later laterMem storesAgain
            have canRaise : later.canRaise := by
              cases later <;> first | rfl | contradiction
            rw [settled later laterMem] at canRaise
            contradiction
          have one : (op :: rest).countP MicroOp.isStore = 1 := by
            rw [List.countP_cons_of_pos stores, noStore]
          exact Nat.le_of_eq one

end CommitsLast

/-! ## Every program -/

/-- Every instruction, whatever its words are, has a program in the pipeline, and
a well-formed one. -/
theorem Instruction.exists_wellFormed_encode (instruction : Instruction) :
    ∃ pipeline, instruction.encode = .ok pipeline ∧ WellFormed pipeline.ops := by
  rcases instruction.exists_encode with ⟨pipeline, encoded, ops⟩
  have shaped := instruction.shaped_program
  have committed := instruction.commits_last
  have supplied := instruction.supplied_program
  refine ⟨pipeline, encoded, ?_⟩
  rw [← ops] at shaped committed supplied
  constructor
  · rw [ops]
    exact instruction.program_ne_nil
  · exact pipeline.length_le
  · rintro before op after split ends
    rw [split] at shaped
    exact shaped.last_of_ends ends
  · exact committed.countP_isStore_le
  · intro before op after split stores later laterMem
    rw [split] at committed
    have settled := committed.settled_of_isStore stores later laterMem
    cases later <;> first | contradiction | exact ⟨rfl, by simp, by simp⟩
  · intro before op after split lowers
    rw [split] at shaped
    exact shaped.guarded_of_lowers lowers
  · rw [ops]
    exact instruction.stepCount_program
  · intro before op after split reg regMem scratch
    rw [split] at supplied
    rcases supplied.readable_of_split reg regMem with general | written
    · rw [scratch] at general
      contradiction
    · exact List.mem_flatMap.mp written

end Pdp11
