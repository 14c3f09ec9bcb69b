import Pdp11.Machine.Cycle
import Pdp11.Proofs.EmergencyEntry
import Pdp11.Proofs.ExceptionChoice
import Pdp11.Proofs.ProgramShape

/-!
# The stack limit

An instruction lowers the stack pointer by two for each push and for each operand
that steps it down, whatever the width. Each time the new value is checked
before anything is done with it. In kernel mode a value in the red zone ends
the instruction, and the handler that is entered for it runs on the emergency
stack; a value between the red zone and the limit leaves a trap pending; outside
kernel mode any value will do.
-/

namespace Pdp11

universe u

/-! ## Where programs lower the stack pointer -/

namespace Operand

/-- Finding the operand steps the stack pointer down. -/
def lowersStack (operand : Operand) : Bool :=
  operand.reg = .sp && (operand.mode = .autodecrement || operand.mode = .autodecrementDeferred)

/-- The stack pointer moves by words, also for byte operands. -/
theorem step_of_sp {operand : Operand} (isStack : operand.reg = .sp) (width : Width) :
    operand.step width = 2 := by
  simp [step, isStack]

theorem msb_step (operand : Operand) (width : Width) : (operand.step width).msb = false := by
  rcases operand.step_eq width with one | two
  · rw [one]
    rfl
  · rw [two]
    rfl

end Operand

/-- Pushes its one result or its link. -/
def Opcode.pushes : Opcode → Bool
  | jsr | mfpi | mfpd => true
  | _ => false

/-- How many times the instruction lowers the stack pointer: once for each operand
that steps it down, and once for a push. -/
def Instruction.stackDecrements (instruction : Instruction) : Nat :=
  instruction.operands.countP Operand.lowersStack + if instruction.opcode.pushes then 1 else 0

/-- The micro-operations among `ops` that lower the stack pointer. -/
def stackSteps (ops : List MicroOp) : List MicroOp :=
  ops.filter MicroOp.lowersStack

@[simp]
theorem stackSteps_nil : stackSteps [] = [] :=
  rfl

@[simp]
theorem stackSteps_append (first second : List MicroOp) :
    stackSteps (first ++ second) = stackSteps first ++ stackSteps second :=
  List.filter_append _ _

@[simp]
theorem stackSteps_cons {op : MicroOp} (keeps : ¬ op.lowersStack) (ops : List MicroOp) :
    stackSteps (op :: ops) = stackSteps ops :=
  List.filter_cons_of_neg keeps

namespace MicroOp

@[simp]
theorem stackSteps_stepRegister (reg : Reg) (amount : Word) :
    stackSteps (stepRegister reg amount) =
      if amount.msb ∧ reg = .sp then [step .sp amount] else [] := by
  unfold stepRegister
  split
  · rename_i down
    simp [stackSteps, lowersStack, down]
  · rename_i notDown
    cases reg <;> simp_all [stackSteps, lowersStack]

@[simp]
theorem stackSteps_push (src : Reg) : stackSteps (push src) = [step .sp (-2)] :=
  rfl

@[simp]
theorem stackSteps_pop (dst : Reg) : stackSteps (pop dst) = [] :=
  rfl

@[simp]
theorem stackSteps_readRegister (dst src : Reg) (stream : InstructionStream)
    (rest : List MicroOp) : stackSteps (readRegister dst src stream :: rest) = stackSteps rest := by
  unfold readRegister
  split <;> simp [lowersStack]

end MicroOp

/-- Finding an operand lowers the stack pointer by a word or not at all. -/
theorem Operand.stackSteps_addressOps (operand : Operand) (width : Width) (slot : OperandSlot)
    (stream : InstructionStream) :
    stackSteps (operand.addressOps width slot stream) =
      if operand.lowersStack then [.step .sp (-2)] else [] := by
  have up := operand.msb_step width
  unfold addressOps lowersStack
  cases mode : operand.mode
  case autodecrement | autodecrementDeferred =>
    by_cases isStack : operand.reg = .sp
    · rw [step_of_sp isStack]
      simp only [isStack, MicroOp.follow]
      rfl
    · simp [isStack, MicroOp.lowersStack, MicroOp.follow]
  case autoincrement | autoincrementDeferred =>
    by_cases isPc : operand.reg = .pc <;> simp [isPc, up, MicroOp.lowersStack, MicroOp.follow]
  case index | indexDeferred =>
    by_cases isPc : operand.reg = .pc <;> simp [isPc, MicroOp.lowersStack, MicroOp.follow]
  case register | registerDeferred => simp [MicroOp.lowersStack]

@[simp]
theorem Operand.stackSteps_resolve (operand : Operand) (width : Width) (slot : OperandSlot)
    (stream : InstructionStream) :
    stackSteps (operand.resolve width slot stream).ops =
      if operand.lowersStack then [.step .sp (-2)] else [] :=
  operand.stackSteps_addressOps width slot stream

namespace ResolvedOperand

@[simp]
theorem stackSteps_fetch (operand : ResolvedOperand) (width : Width) (slot : OperandSlot)
    (rest : List MicroOp) :
    stackSteps (operand.fetch width slot :: rest) = stackSteps rest := by
  unfold fetch
  split
  · exact MicroOp.stackSteps_readRegister _ _ _ _
  · exact stackSteps_cons (by simp [MicroOp.lowersStack]) rest
  · exact stackSteps_cons (by simp [MicroOp.lowersStack]) rest

@[simp]
theorem stackSteps_assign (operand : ResolvedOperand) (src : Reg) (width : Width) (extend : Bool)
    (space : AccessSpace) : stackSteps (operand.assign src width extend space) = [] := by
  cases place : operand.place <;> cases width <;> cases extend <;> simp only [assign, place] <;> rfl

theorem stackSteps_target {operand : ResolvedOperand} {target : Reg} {resolve : List MicroOp}
    (found : operand.target? = some (target, resolve)) : stackSteps resolve = [] := by
  unfold target? at found
  split at found <;> cases found <;> rfl

end ResolvedOperand

namespace Instruction

variable (instruction : Instruction)

@[simp]
theorem stackSteps_resolveDestination (width : Width) :
    stackSteps (instruction.resolveDestination width).ops =
      if instruction.destination.lowersStack then [.step .sp (-2)] else [] :=
  Operand.stackSteps_resolve _ _ _ _

@[simp]
theorem stackSteps_readSource :
    stackSteps instruction.readSource.1 =
      List.replicate ([instruction.source, instruction.destination].countP Operand.lowersStack)
        (.step .sp (-2)) := by
  simp only [readSource, stackSteps_append, ResolvedOperand.stackSteps_fetch,
    Operand.stackSteps_resolve, List.countP_cons, List.countP_nil]
  cases instruction.source.lowersStack <;> cases instruction.destination.lowersStack <;> rfl

@[simp]
theorem stackSteps_moveFromPrevious (space : Space) :
    stackSteps (instruction.moveFromPrevious space) =
      (if instruction.destination.lowersStack then [.step .sp (-2)] else []) ++
        [.step .sp (-2)] := by
  unfold moveFromPrevious
  cases place : (instruction.destination.resolve .word .source instruction.stream).place with
  | register reg => by_cases isStack : reg = .sp <;> simp [place, isStack, MicroOp.lowersStack]
  | memory | immediate => simp [place, MicroOp.lowersStack]

@[simp]
theorem stackSteps_moveToPrevious (space : Space) :
    stackSteps (instruction.moveToPrevious space) =
      if instruction.destination.lowersStack then [.step .sp (-2)] else [] := by
  simp only [moveToPrevious]
  split <;> simp [MicroOp.lowersStack]

/-- The jumps that the processor carries out have an address to go to. -/
theorem target?_ne_none_of_legal (legal : WordClass.of instruction.word = .legal instruction.opcode)
    (jumps : instruction.opcode = .jmp ∨ instruction.opcode = .jsr) :
    (instruction.resolveDestination .word).target? ≠ none := by
  have notRegister : instruction.destination.mode ≠ .register := by
    intro isRegister
    have noMode : (instruction.word.extractLsb' 0 6).extractLsb' 3 3 = 0 :=
      AddressingMode.ofField_inj.mp isRegister
    have unset : instruction.word &&& 0o70 = 0 := by
      apply BitVec.eq_of_getLsbD_eq
      intro position below
      have outside : ∀ position < 16, ¬ (3 ≤ position ∧ position < 6) →
          (0o70 : Word).getLsbD position = false := by
        decide
      rw [BitVec.getLsbD_and]
      by_cases inMode : 3 ≤ position ∧ position < 6
      · have bit := congrArg (BitVec.getLsbD · (position - 3)) noMode
        have place : 3 + (position - 3) = position := by omega
        have inField : position - 3 < 3 := by omega
        simp [place, inField] at bit
        simp [bit]
      · rw [outside position below inMode, Bool.and_false]
        simp
    exact (WordClass.of_eq_legal_iff.mp legal).2 ⟨jumps, unset⟩
  unfold ResolvedOperand.target? resolveDestination Operand.resolve Operand.place
  cases mode : instruction.destination.mode
  case register => exact absurd mode notRegister
  case autoincrement => by_cases isPc : instruction.destination.reg = .pc <;> simp [isPc]
  all_goals simp

/-- A program lowers the stack pointer as often as its instruction does, by a word
each time. -/
theorem stackSteps_program (legal : WordClass.of instruction.word = .legal instruction.opcode) :
    stackSteps instruction.program =
      List.replicate instruction.stackDecrements (.step .sp (-2)) := by
  unfold program stackDecrements operands format
  cases opcode : instruction.opcode
  case mov | cmp | bit | bic | bis | add | sub =>
    simp [move, compare, combine, Opcode.format, Opcode.pushes, MicroOp.lowersStack]
  case jmp | jsr =>
    have hasTarget := instruction.target?_ne_none_of_legal legal (by simp [opcode])
    simp only [jump, jumpToSubroutine]
    split
    · contradiction
    · rename_i found
      have resolves := ResolvedOperand.stackSteps_target found
      cases lowers : instruction.destination.lowersStack <;>
        simp [resolves, lowers, Opcode.format, Opcode.pushes, MicroOp.lowersStack]
  case rts =>
    simp only [returnFromSubroutine]
    split <;> simp [Opcode.format, Opcode.pushes, MicroOp.lowersStack]
  case mfpi | mfpd | mtpi | mtpd =>
    cases lowers : instruction.destination.lowersStack <;>
      simp [lowers, Opcode.format, Opcode.pushes]
  case rti | rtt | mark | sob =>
    simp [returnFromInterrupt, mark, loop, Opcode.format, Opcode.pushes, MicroOp.lowersStack]
  case mul | div | ash | ashc | mtps | clr | sxt | mfps | tst | com | inc | dec | neg | adc | sbc
      | ror | rol | asr | asl | swab | xor =>
    cases lowers : instruction.destination.lowersStack <;>
      simp [extended, readOperand, overwrite, test, unary, shift, modify, exclusiveOr, lowers,
        Opcode.format, Opcode.pushes, MicroOp.lowersStack]
  all_goals simp [branch, Opcode.format, Opcode.pushes, MicroOp.lowersStack]

/-- Where a program lowers the stack pointer, it lowers it by a word and checks it
at once. -/
theorem guarded_program {op : MicroOp} {before rest : List MicroOp}
    (legal : WordClass.of instruction.word = .legal instruction.opcode)
    (split : instruction.program = before ++ op :: rest) (lowers : op.lowersStack) :
    op = .step .sp (-2) ∧ ∃ later, rest = .stackGuard :: later := by
  have opMem : op ∈ stackSteps instruction.program :=
    List.mem_filter.mpr ⟨split ▸ by simp, lowers⟩
  rw [instruction.stackSteps_program legal] at opMem
  have shaped := instruction.shaped_program
  rw [split] at shaped
  refine ⟨List.eq_of_mem_replicate opMem, ?_⟩
  exact List.head?_eq_some_iff.mp (shaped.guarded_of_lowers lowers)

end Instruction

/-! ## Runs -/

namespace TrapSet

@[simp]
theorem contains_insertRedZone (traps : TrapSet) (kind : TrapClass) :
    traps.insertRedZone.contains kind = (traps.contains kind || decide (kind = .stackOverflow)) :=
  traps.contains_insert .stackOverflow kind

/-- The guard has already raised the trap that ends the instruction. -/
theorem insert_insertRedZone (traps : TrapSet) :
    traps.insertRedZone.insert .stackOverflow = traps.insertRedZone := by
  apply eq_of_contains
  · simp
  · rfl

end TrapSet

variable {δ : Type u} [Bus δ]

/-- No micro-operation withdraws a trap. -/
theorem MicroOp.contains_effect (op : MicroOp) {datapath : Datapath δ} {kind : TrapClass}
    (pending : datapath.machine.traps.contains kind) :
    (op.effect datapath).datapath.machine.traps.contains kind := by
  by_cases guards : op = .stackGuard
  · subst guards
    simp only [effect, Datapath.stop, Machine.guardStack]
    split
    · simp [pending]
    · split <;> simp [Machine.raise, pending]
  · rw [traps_effect guards, TrapSet.contains_insertIf, pending, Bool.true_or]

namespace Datapath

theorem contains_run {datapath : Datapath δ} {kind : TrapClass}
    (pending : datapath.machine.traps.contains kind) (index : Nat) (ops : List MicroOp) :
    (datapath.run index ops).2.traps.contains kind := by
  apply run_preserves (fun machine => machine.traps.contains kind)
  · intro op _ reached held
    exact op.contains_effect held
  · intro op _ reached raised _ machine held
    simp [Machine.raise, held]
  · exact pending

/-- The machine with the stack pointer of the current mode lowered by a word. -/
def lowered (datapath : Datapath δ) : Datapath δ :=
  ((MicroOp.step .sp (-2)).effect datapath).commit

theorem step_lowered (datapath : Datapath δ) :
    datapath.Step (.step .sp (-2)) datapath.lowered :=
  ⟨rfl, rfl⟩

theorem reg_lowered (datapath : Datapath δ) : datapath.lowered.reg .sp = datapath.reg .sp - 2 := by
  rw [BitVec.sub_eq_add_neg]
  exact MicroOp.reg_commit_step .sp .sp (-2) datapath

/-- In the red zone nothing is run after the check. -/
theorem run_lowered_of_redZone {datapath : Datapath δ}
    (kernel : datapath.machine.psw.mode = .kernel)
    (inRedZone : datapath.reg .sp - 2 < stackRedZone) (index : Nat) (later : List MicroOp) :
    datapath.run index (.step .sp (-2) :: .stackGuard :: later) =
      (.ok (.trapped (index + 1) .stackOverflow),
        { datapath.lowered.machine with
          traps := datapath.machine.traps.insertRedZone }) := by
  rw [← reg_lowered] at inRedZone
  have kernelStill : datapath.lowered.machine.psw.mode = .kernel := kernel
  rw [datapath.step_lowered.run_cons, run_cons,
    stackGuard_effect_of_redZone kernelStill inRedZone]
  have raised := TrapSet.insert_insertRedZone datapath.machine.traps
  change (Except.ok (Ending.trapped (index + 1) .stackOverflow),
    { datapath.lowered.machine with
      traps := datapath.machine.traps.insertRedZone.insert .stackOverflow }) = _
  rw [raised]

end Datapath

/-! ## Service -/

namespace Machine

/-- Made ready to enter the handler of an overflow into the red zone. -/
def onEmergencyStack (machine : Machine δ) : Machine δ :=
  { machine with traps := machine.traps.served .stackOverflow }.setStackPointer .kernel
    emergencyStack

variable {machine : Machine δ}

omit [Bus δ] in
theorem acknowledge?_of_redZone (first : machine.traps.first? = some .stackOverflow)
    (redZone : machine.traps.redZone) :
    machine.acknowledge? =
      some { vector := 0o4, retriable := false, machine := machine.onEmergencyStack } := by
  obtain ⟨acknowledged, chosen, -, traps, -⟩ := acknowledge?_of_first? first
  rcases acknowledge?_cases chosen with
    ⟨-, rest, rfl⟩ | ⟨sameStack, -⟩ | ⟨noTrap, -⟩
  · have served : rest = machine.traps.served .stackOverflow := traps
    rw [chosen, served]
    rfl
  · exact absurd ⟨first, redZone⟩ sameStack
  · rw [first] at noTrap
    contradiction

/-- The handler for the red zone runs on the emergency stack. -/
theorem service_of_redZone (first : machine.traps.first? = some .stackOverflow)
    (redZone : machine.traps.redZone)
    (entered : (machine.onEmergencyStack.execute (entryPipeline 0o4)).trap? = none)
    (statusInRam : machine.KernelInRam 2) (pcInRam : machine.KernelInRam 0) :
    let entry := machine.onEmergencyStack.execute (entryPipeline 0o4)
    machine.service = (.ok (some 0o4), entry.machine) ∧ entry.machine.stackPointer .kernel = 0 := by
  have chosen := acknowledge?_of_redZone first redZone
  have pointer : machine.onEmergencyStack.stackPointer .kernel = emergencyStack := by
    simp [onEmergencyStack, stackPointer, setStackPointer]
  have held := emergencyStack_holds pointer rfl rfl entered statusInRam pcInRam
  exact ⟨service_of_entered chosen entered, held.1⟩

omit [Bus δ] in
/-- The trace trap goes behind what is pending. -/
theorem isFirst_traceAfter {kind : TrapClass} (first : machine.traps.IsFirst kind)
    (traced : Bool) : (machine.traceAfter traced).traps.IsFirst kind := by
  unfold traceAfter
  split
  · constructor
    · simp [raise, first.pending]
    · intro other pending
      simp only [raise, TrapSet.contains_insert, Bool.or_eq_true, decide_eq_true_eq] at pending
      rcases pending with before | rfl
      · exact first.rank_le other before
      · exact Fin.le_last kind.rank
  · exact first

/-! ## Instructions -/

/-- The instruction ends in the red zone, at the check after the micro-operations
`before` had come to `reached` and the stack pointer was lowered. -/
structure EndsInRedZone (begun : Machine δ) (before : List MicroOp) (reached : Datapath δ)
    (execution : Execution δ) : Prop where
  result : execution.result = .ok (.trapped (before.length + 1) .stackOverflow)
  ran : execution.pipeline.ops = before ++ [.step .sp (-2), .stackGuard]
  machine : execution.machine =
    { reached.lowered.machine with traps := reached.machine.traps.insertRedZone }
  ram : execution.machine.ram = begun.ram

/-- A run up to a check in the red zone ends there. -/
theorem endsInRedZone_of_steps {pipeline : Pipeline} {before later : List MicroOp}
    {reached : Datapath δ}
    (split : pipeline.ops = before ++ .step .sp (-2) :: .stackGuard :: later)
    (steps : Datapath.Steps { machine := machine, signals := .quiet } before reached)
    (same : machine.SameResults reached.machine) (kernel : machine.psw.mode = .kernel)
    (inRedZone : reached.reg .sp - 2 < stackRedZone) :
    machine.EndsInRedZone before reached (machine.execute pipeline) := by
  have ends := Datapath.run_lowered_of_redZone (same.psw ▸ kernel) inRedZone before.length later
  rw [← Nat.zero_add before.length, ← steps.run_append, ← split, Nat.zero_add] at ends
  constructor
  · exact congrArg Prod.fst ends
  · have first : pipeline.ops.take (before.length + 1 + 1) =
        before ++ [.step .sp (-2), .stackGuard] := by
      rw [split, Nat.add_assoc, List.take_length_add_append]
      rfl
    simp only [execute, ends, Pipeline.flushed, Pipeline.truncate]
    exact first
  · exact congrArg Prod.snd ends
  · simp only [execute, ends]
    exact same.ram

/-- Unless something of higher priority is pending, the handler for the red zone is
entered next. -/
theorem EndsInRedZone.service {before : List MicroOp} {reached : Datapath δ}
    {execution : Execution δ} (ends : machine.EndsInRedZone before reached execution)
    (foremost : ∀ kind, execution.machine.traps.contains kind →
      TrapClass.stackOverflow.rank ≤ kind.rank) (traced : Bool) :
    let pending := execution.machine.traceAfter traced
    let entry := pending.onEmergencyStack.execute (entryPipeline 0o4)
    entry.trap? = none → pending.KernelInRam 2 → pending.KernelInRam 0 →
      pending.service = (.ok (some 0o4), entry.machine) ∧
      entry.machine.stackPointer .kernel = 0 := by
  intro pending entry entered statusInRam pcInRam
  have isFirst : execution.machine.traps.IsFirst .stackOverflow :=
    ⟨by simp [ends.machine], foremost⟩
  have first := TrapSet.first?_eq_some_iff.mpr (isFirst_traceAfter isFirst traced)
  have redZone : pending.traps.redZone := by
    have noted : execution.machine.traps.redZone := by
      rw [ends.machine]
      rfl
    simp only [pending, traceAfter]
    split <;> exact noted
  exact service_of_redZone first redZone entered statusInRam pcInRam

/-- Each time an instruction lowers the stack pointer, for a push or for an
operand, the new value is checked at once. In kernel mode one in the red zone
ends the instruction there, with memory unchanged, and the handler that is
entered runs on the emergency stack; one above the red zone and below the limit
leaves a trap pending; any other value, and any value outside kernel mode,
changes nothing. -/
theorem execute_guardsStack (machine : Machine δ) (instruction : Instruction)
    (legal : WordClass.of instruction.word = .legal instruction.opcode) :
    ∃ pipeline, instruction.encode = .ok pipeline ∧
      pipeline.ops.countP MicroOp.lowersStack = instruction.stackDecrements ∧
      ∀ before op rest reached, pipeline.ops = before ++ op :: rest → op.lowersStack →
        Datapath.Steps { machine := machine, signals := .quiet } before reached →
        let execution := machine.execute pipeline
        let after := execution.machine
        let pointer := reached.reg .sp - 2
        op = .step .sp (-2) ∧ reached.lowered.reg .sp = pointer ∧
        (machine.psw.mode = .kernel → pointer < 0o340 →
          machine.EndsInRedZone before reached execution ∧
          after.traps.contains .stackOverflow ∧ after.traps.redZone ∧
          ((∀ kind, after.traps.contains kind → TrapClass.stackOverflow.rank ≤ kind.rank) →
            ∀ traced,
              let pending := after.traceAfter traced
              let entry := pending.onEmergencyStack.execute (entryPipeline 0o4)
              entry.trap? = none → pending.KernelInRam 2 → pending.KernelInRam 0 →
                pending.service = (.ok (some 0o4), entry.machine) ∧
                entry.machine.stackPointer .kernel = 0)) ∧
        (machine.psw.mode = .kernel → 0o340 ≤ pointer → pointer < 0o400 →
          Datapath.Steps reached [op, .stackGuard]
            { reached.lowered with machine := reached.lowered.machine.raise .stackOverflow } ∧
          after.traps.contains .stackOverflow) ∧
        (machine.psw.mode ≠ .kernel ∨ 0o400 ≤ pointer →
          Datapath.Steps reached [op, .stackGuard] reached.lowered) := by
  obtain ⟨pipeline, encoded, program⟩ := instruction.exists_encode
  refine ⟨pipeline, encoded, ?_, ?_⟩
  · rw [program, List.countP_eq_length_filter]
    have steps := instruction.stackSteps_program legal
    rw [stackSteps] at steps
    rw [steps, List.length_replicate]
  intro before op rest reached split lowers steps execution after pointer
  obtain ⟨rfl, later, rfl⟩ := instruction.guarded_program legal (program ▸ split) lowers
  have order := instruction.commits_last
  have same : machine.SameResults reached.machine := by
    apply steps.sameResults
    rw [← program, split, List.append_cons] at order
    intro earlier earlierMem
    exact order.uncommitted_before rfl earlier (List.mem_append_left _ earlierMem)
  have kernelStill : reached.lowered.machine.psw = machine.psw := same.psw
  refine ⟨rfl, reached.reg_lowered, fun kernel inRedZone => ?_, fun kernel above below => ?_,
    fun harmless => ?_⟩
  · have ends := endsInRedZone_of_steps split steps same kernel inRedZone
    refine ⟨ends, ?_, ?_, ends.service⟩
    · simp [after, execution, ends.machine]
    · simp only [after, execution, ends.machine]
      rfl
  · have checked : reached.lowered.Step .stackGuard
        { reached.lowered with machine := reached.lowered.machine.raise .stackOverflow } := by
      apply Datapath.step_stackGuard_of_below
      · rw [kernelStill]
        exact kernel
      · rw [reached.reg_lowered]
        exact below
      · rw [reached.reg_lowered]
        exact BitVec.not_lt.mpr above
    have goesOn := Datapath.Steps.cons reached.step_lowered (.single checked)
    refine ⟨goesOn, ?_⟩
    have run := (steps.append goesOn).run_append 0 later
    rw [List.append_assoc, List.cons_append, List.cons_append, List.nil_append, ← split] at run
    have ends : after = _ := congrArg Prod.snd run
    rw [ends]
    exact Datapath.contains_run (by simp [raise]) _ later
  · have checked : reached.lowered.Step .stackGuard reached.lowered := by
      apply Datapath.step_stackGuard
      intro kernel
      rw [kernelStill] at kernel
      rw [reached.reg_lowered]
      exact BitVec.not_lt.mpr (harmless.resolve_left (not_not_intro kernel))
    exact .cons reached.step_lowered (.single checked)

/-- A kernel with its stack pointer at the red zone; the handler for vector 4 is at
2000. -/
def aboveRedZone : Machine NoDevices :=
  { ofConfig Config.default .none with
    registers := RegisterFile.cleared.set (.stackPointer .kernel) 0o340
    psw := .ofBits 0o340
    ram := { bytes := #[0, 0, 0, 0, 0, 4, 0o340, 0] } }

/-- `CLR -(SP)` -/
def clearBelowStack : Instruction where
  pc := 0o1000
  word := 0o005046
  opcode := .clr
  extension := []

/-- The instruction stores nothing, and the handler finds the interrupted context
at the bottom of memory. -/
theorem guardsStack_clearBelowStack :
    ∃ pipeline, clearBelowStack.encode = .ok pipeline ∧
      pipeline.ops.countP MicroOp.lowersStack = 1 ∧
      let execution := aboveRedZone.execute pipeline
      execution.result = .ok (.trapped 1 .stackOverflow) ∧
        execution.machine.ram = aboveRedZone.ram ∧
        execution.machine.service.1 = .ok (some 0o4) ∧
        execution.machine.service.2.stackPointer .kernel = 0 := by
  obtain ⟨pipeline, encoded, count, guards⟩ :=
    execute_guardsStack aboveRedZone clearBelowStack (by decide)
  have program : pipeline.ops = clearBelowStack.program := Pipeline.ofOps_eq_ok_iff.mp encoded
  obtain ⟨-, -, inRedZone, -⟩ := guards [] (.step .sp (-2)) _
    { machine := aboveRedZone, signals := .quiet } (program.trans rfl) rfl (.nil _)
  obtain ⟨ends, -, -, serves⟩ := inRedZone rfl (by decide)
  have foremost (kind : TrapClass)
      (pending : (aboveRedZone.execute pipeline).machine.traps.contains kind) :
      TrapClass.stackOverflow.rank ≤ kind.rank := by
    rw [ends.machine] at pending
    cases kind <;> first | contradiction | decide
  have served := serves foremost false (by rw [ends.machine]; rfl)
    ⟨2, by rw [ends.machine]; rfl⟩ ⟨0, by rw [ends.machine]; rfl⟩
  have untraced : (aboveRedZone.execute pipeline).machine.traceAfter false =
      (aboveRedZone.execute pipeline).machine := if_neg (by simp)
  rw [untraced] at served
  refine ⟨pipeline, encoded, count.trans (by decide), ends.result, ends.ram, ?_, ?_⟩
  · rw [served.1]
  · rw [served.1]
    exact served.2

end Machine

end Pdp11
