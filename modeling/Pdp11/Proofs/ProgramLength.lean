import Pdp11.Microcode.Program

/-!
# How long programs are

An operand takes at most four micro-operations to be found, and a program finds
at most two. So every program fits the pipeline, with room to spare.
-/

namespace Pdp11

theorem MicroOp.length_stepRegister_le (reg : Reg) (amount : Word) :
    (stepRegister reg amount).length ≤ 2 := by
  unfold stepRegister
  split <;> simp

theorem MicroOp.length_push_le (src : Reg) : (push src).length ≤ 3 := by
  have step := length_stepRegister_le .sp (-2)
  rw [push, List.length_append, List.length_singleton]
  omega

theorem MicroOp.length_pop_le (dst : Reg) : (pop dst).length ≤ 3 := by
  have step := length_stepRegister_le .sp 2
  rw [pop, List.length_cons]
  omega

theorem Operand.length_addressOps_le (operand : Operand) (width : Width) (slot : OperandSlot)
    (stream : InstructionStream) : (operand.addressOps width slot stream).length ≤ 4 := by
  have up := MicroOp.length_stepRegister_le operand.reg (operand.step width)
  have down := MicroOp.length_stepRegister_le operand.reg (-operand.step width)
  unfold addressOps
  by_cases isPc : operand.reg = .pc
  · split <;> simp [isPc] at up down ⊢ <;> omega
  · split <;> simp [isPc] <;> omega

theorem ResolvedOperand.length_assign_le (operand : ResolvedOperand) (src : Reg) (width : Width)
    (extend : Bool) (space : AccessSpace) :
    (operand.assign src width extend space).length ≤ 2 := by
  unfold assign
  split
  · cases width with
    | word => simp
    | byte => cases extend <;> simp
  · simp
  · simp

theorem ResolvedOperand.length_of_target? {operand : ResolvedOperand} {target : Reg}
    {resolve : List MicroOp} (found : operand.target? = some (target, resolve)) :
    resolve.length ≤ 1 := by
  unfold target? at found
  split at found
  · contradiction
  · cases found
    simp
  · cases found
    simp

namespace Instruction

variable (instruction : Instruction)

theorem length_readSource_le : instruction.readSource.1.length ≤ 9 := by
  have source := instruction.source.length_addressOps_le instruction.width .source
    instruction.stream
  have destination := instruction.destination.length_addressOps_le instruction.width .destination
    (instruction.source.rest instruction.stream)
  simp [readSource, Operand.resolve]
  omega

theorem length_resolveDestination_le (width : Width) :
    (instruction.resolveDestination width).ops.length ≤ 4 :=
  instruction.destination.length_addressOps_le width .destination instruction.stream

theorem length_readOperand_le (width : Width) : (instruction.readOperand width).length ≤ 5 := by
  have operand := instruction.destination.length_addressOps_le width .source instruction.stream
  simp [readOperand, Operand.resolve]
  omega

/-! ## The shapes of programs -/

theorem length_combine_le {ops : List MicroOp} (short : ops.length ≤ 2) (rule : FlagRule) :
    (instruction.combine ops rule).length ≤ 16 := by
  have read := instruction.length_readSource_le
  have assign := instruction.readSource.2.length_assign_le .t0 instruction.width false .data
  simp [combine]
  omega

theorem length_compare_le (op : MicroOp) (rule : FlagRule) :
    (instruction.compare op rule).length ≤ 16 := by
  have read := instruction.length_readSource_le
  simp [compare]
  omega

theorem length_move_le : instruction.move.length ≤ 16 := by
  have read := instruction.length_readSource_le
  have assign := instruction.readSource.2.length_assign_le .s0 instruction.width true .data
  simp [move]
  omega

theorem length_modify_le (op : MicroOp) (rule : FlagRule) :
    (instruction.modify op rule).length ≤ 16 := by
  have find := instruction.length_resolveDestination_le instruction.width
  have assign := (instruction.resolveDestination instruction.width).length_assign_le .t0
    instruction.width false .data
  simp [modify]
  omega

theorem length_overwrite_le (op : MicroOp) (width : Width) (extend : Bool) (rule : FlagRule) :
    (instruction.overwrite op width extend rule).length ≤ 16 := by
  have find := instruction.length_resolveDestination_le width
  have assign := (instruction.resolveDestination width).length_assign_le .t0 width extend .data
  simp [overwrite]
  omega

theorem length_test_le : instruction.test.length ≤ 16 := by
  have find := instruction.length_resolveDestination_le instruction.width
  simp [test]
  omega

theorem length_extended_le (op : MicroOp) (rule : FlagRule) :
    (instruction.extended op rule).length ≤ 16 := by
  have read := instruction.length_readOperand_le .word
  simp [extended]
  omega

theorem length_exclusiveOr_le : instruction.exclusiveOr.length ≤ 16 := by
  have find := instruction.length_resolveDestination_le .word
  have assign := (instruction.resolveDestination .word).length_assign_le .t0 .word false .data
  simp [exclusiveOr]
  omega

theorem length_jump_le : instruction.jump.length ≤ 16 := by
  have find := instruction.length_resolveDestination_le .word
  unfold jump
  cases target : (instruction.resolveDestination .word).target? with
  | none =>
      simp [target]
      omega
  | some found =>
      have resolve := ResolvedOperand.length_of_target? target
      simp [target]
      omega

theorem length_jumpToSubroutine_le : instruction.jumpToSubroutine.length ≤ 16 := by
  have find := instruction.length_resolveDestination_le .word
  have push := MicroOp.length_push_le .t0
  unfold jumpToSubroutine
  cases target : (instruction.resolveDestination .word).target? with
  | none =>
      simp [target]
      omega
  | some found =>
      have resolve := ResolvedOperand.length_of_target? target
      simp [target]
      omega

theorem length_moveFromPrevious_le (space : Space) :
    (instruction.moveFromPrevious space).length ≤ 16 := by
  have find := instruction.destination.length_addressOps_le .word .source instruction.stream
  have push := MicroOp.length_push_le .s0
  simp [moveFromPrevious, Operand.resolve]
  omega

theorem length_moveToPrevious_le (space : Space) :
    (instruction.moveToPrevious space).length ≤ 16 := by
  have find := instruction.length_resolveDestination_le .word
  have assign := (instruction.resolveDestination .word).length_assign_le .t0 .word false
    (.previous space)
  have pop := MicroOp.length_pop_le .t0
  unfold moveToPrevious
  by_cases isSp : (instruction.resolveDestination .word).place = .register .sp
  · simp [isSp]
    omega
  · simp [isSp]
    omega

theorem length_returnFromInterrupt_le {inhibit : List MicroOp} (short : inhibit.length ≤ 1) :
    (instruction.returnFromInterrupt inhibit).length ≤ 16 := by
  have first := MicroOp.length_pop_le .t0
  have second := MicroOp.length_pop_le .t1
  simp [returnFromInterrupt]
  omega

theorem length_returnFromSubroutine_le : instruction.returnFromSubroutine.length ≤ 16 := by
  have pop := MicroOp.length_pop_le .t0
  unfold returnFromSubroutine
  by_cases isPc : instruction.lowRegister = .pc
  · simp [isPc]
    omega
  · simp [isPc]
    omega

theorem length_mark_le : instruction.mark.length ≤ 16 := by
  have pop := MicroOp.length_pop_le .t0
  simp [mark]
  omega

/-- No instruction takes more than sixteen micro-operations. -/
theorem length_program_le : instruction.program.length ≤ 16 := by
  unfold program
  cases instruction.opcode with
  | halt | wait | reset | bpt | iot | emt | trap | spl | clearCc | setCc => simp
  | br | bne | beq | bge | blt | bgt | ble | bpl | bmi | bhi | blos | bvc | bvs | bcc | bcs =>
      simp [branch]
  | sob => simp [loop]
  | rti | rtt => exact instruction.length_returnFromInterrupt_le (by simp)
  | jmp => exact instruction.length_jump_le
  | jsr => exact instruction.length_jumpToSubroutine_le
  | rts => exact instruction.length_returnFromSubroutine_le
  | mark => exact instruction.length_mark_le
  | mov => exact instruction.length_move_le
  | cmp | bit => exact instruction.length_compare_le _ _
  | bic | bis | add | sub => exact instruction.length_combine_le (by simp) _
  | com | inc | dec | neg | adc | sbc | ror | rol | asr | asl | swab =>
      exact instruction.length_modify_le _ _
  | clr | sxt | mfps => exact instruction.length_overwrite_le _ _ _ _
  | tst => exact instruction.length_test_le
  | mtps =>
      have read := instruction.length_readOperand_le .byte
      simp
      omega
  | mfpi | mfpd => exact instruction.length_moveFromPrevious_le _
  | mtpi | mtpd => exact instruction.length_moveToPrevious_le _
  | mul | div | ash | ashc => exact instruction.length_extended_le _ _
  | xor => exact instruction.length_exclusiveOr_le

/-- The pipeline has room for the program of any instruction. -/
theorem exists_encode : ∃ pipeline, instruction.encode = .ok pipeline ∧
    pipeline.ops = instruction.program := by
  have room : instruction.program.length ≤ pipelineCapacity :=
    Nat.le_trans instruction.length_program_le (by decide)
  exact ⟨{ ops := instruction.program, length_le := room }, Pipeline.ofOps_eq_ok_iff.mpr rfl, rfl⟩

end Instruction

end Pdp11
