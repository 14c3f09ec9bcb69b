import Pdp11.Proofs.EntryFrame
import Pdp11.Proofs.PreviousOperand
import Pdp11.Proofs.ProgramShape
import Pdp11.Proofs.RegisterSteps
import Pdp11.Proofs.StackWords
import Pdp11.Proofs.Tracing

/-!
# Calls of subroutines and returns

A call finds its destination, pushes the link register and leaves the program
counter in it. A return through the same register takes both back. Where the
registers stand in between is what finding the destination made of them, also
where the destination pops from the stack or moves the link register itself.
-/

namespace Pdp11

universe u

/-! ## The destination of a call -/

namespace Operand

/-- Finding the operand steps the program counter down. -/
def lowersCounter (operand : Operand) : Bool :=
  operand.reg = .pc && (operand.mode = .autodecrement || operand.mode = .autodecrementDeferred)

theorem advance_of_pc {operand : Operand} (onPc : operand.reg = .pc) (width : Width) :
    operand.advance width = if operand.lowersCounter then -2 else 0 := by
  unfold advance lowersCounter step
  cases operand.mode <;> simp [onPc]

/-- The program counter stands where it stood, but for a step down. -/
theorem regAfter_pc {δ : Type u} (operand : Operand) (machine : Machine δ) (width : Width) :
    machine.regAfter operand width .pc =
      if operand.lowersCounter then machine.pc - 2 else machine.pc := by
  unfold Machine.regAfter
  by_cases onPc : operand.reg = .pc
  · rw [if_pos onPc, advance_of_pc onPc]
    split
    · exact (BitVec.sub_eq_add_neg _ _).symm
    · exact BitVec.add_zero _
  · have spares : operand.lowersCounter = false := by
      simp [lowersCounter, onPc]
    rw [if_neg onPc, spares]
    exact BitVec.add_zero _

end Operand

namespace Instruction

/-- Find the destination in memory and leave its address in `d1`. -/
def locate (instruction : Instruction) : List MicroOp :=
  instruction.destination.addressOps .word .destination instruction.stream ++
    if instruction.destination.isImmediate then [.loadImm .d1 instruction.stream.cursor] else []

variable {instruction : Instruction}

theorem gathers_locate : ∀ op ∈ instruction.locate, op.gathers := by
  intro op opMem
  rcases List.mem_append.mp opMem with finds | takes
  · exact Operand.gathers_addressOps _ _ _ _ op finds
  · split at takes
    · rw [List.mem_singleton.mp takes]
      rfl
    · contradiction

theorem program_of_jsr (isJsr : instruction.opcode = .jsr)
    (inMemory : instruction.destination.mode ≠ .register) :
    instruction.program = instruction.locate ++ .move .t0 instruction.registerField ::
      (MicroOp.push .t0 ++ [.move instruction.registerField .pc]) ++
        [.jump instruction.pc .d1] := by
  rw [program, isJsr]
  unfold jumpToSubroutine locate resolveDestination Operand.resolve ResolvedOperand.target?
  cases immediate : instruction.destination.isImmediate with
  | true => simp [Operand.place_of_isImmediate immediate]
  | false => simp [Operand.place_of_not_isImmediate inMemory immediate, OperandSlot.address]

end Instruction

variable {δ : Type u} [Bus δ]

namespace Machine

/-- The stream in which the destination of `call` is found. A destination on the
program counter that takes no word is found from the counter as it stands. -/
def destinationStream (machine : Machine δ) (call : Instruction) : InstructionStream :=
  if call.destination.reg = .pc ∧ call.destination.takesWord = false then
    { call.stream with cursor := machine.pc }
  else
    call.stream

variable {machine : Machine δ} {call : Instruction}

omit [Bus δ] in
theorem destinationStream_of_takesWord (takes : call.destination.takesWord) :
    machine.destinationStream call = call.stream :=
  if_neg fun ⟨_, takesNone⟩ => Bool.eq_false_iff.mp takesNone takes

omit [Bus δ] in
/-- Finding the destination does not ask for another stream than that of the call. -/
theorem addressOps_destinationStream (width : Width) (slot : OperandSlot) :
    call.destination.addressOps width slot (machine.destinationStream call) =
      call.destination.addressOps width slot call.stream := by
  by_cases takes : call.destination.takesWord
  · rw [destinationStream_of_takesWord takes]
  · exact Operand.addressOps_of_takesNone (Bool.eq_false_iff.mpr takes) ..

end Machine

namespace Datapath

variable {before after : Datapath δ} {instruction : Instruction}

theorem Steps.reg_of_locate (steps : Steps before instruction.locate after) {reg : Reg}
    (general : reg.isGeneral) :
    after.reg reg = before.machine.regAfter instruction.destination .word reg := by
  have alone : steppedBy reg instruction.locate =
      steppedBy reg (instruction.destination.addressOps .word .destination instruction.stream) := by
    unfold Instruction.locate
    split <;> simp
  rw [steps.reg_of_gathers Instruction.gathers_locate general, alone, Operand.steppedBy_addressOps]
  rfl

/-- What finds the destination leaves its effective address in `d1`. -/
theorem Steps.effectiveAddress_of_locate (steps : Steps before instruction.locate after)
    (inMemory : instruction.destination.mode ≠ .register) :
    before.machine.effectiveAddress instruction.destination .word
      (before.machine.destinationStream instruction) = .ok (after.reg .d1) := by
  rcases append_iff.mp steps with ⟨found, finds, takes⟩
  rw [← before.machine.addressOps_destinationStream] at finds
  have settled (takesNone : instruction.destination.takesWord = false)
      (onPc : instruction.destination.reg = .pc) :
      before.reg .pc = (before.machine.destinationStream instruction).cursor := by
    rw [Machine.destinationStream, if_pos ⟨onPc, takesNone⟩]
    rfl
  rcases finds.exists_effectiveAddress inMemory instruction.isGeneral_destination settled with
    ⟨address, located, points⟩
  -- An immediate destination is itself in the stream, and finding it computes no address.
  cases immediate : instruction.destination.isImmediate with
  | true =>
      rw [immediate, if_pos rfl] at takes
      rcases cons_iff.mp takes with ⟨_, taken, ⟨⟩⟩
      have after_eq : after = found.setReg .d1 instruction.stream.cursor := taken.2.symm
      rw [before.machine.effectiveAddress_of_isImmediate immediate,
        Machine.destinationStream_of_takesWord (Operand.takesWord_of_isImmediate immediate),
        after_eq, reg_setReg, if_pos rfl]
  | false =>
      rw [immediate, if_neg Bool.false_ne_true] at takes
      cases takes
      rw [located, ← points immediate]
      rfl

end Datapath

/-! ## Jumps -/

namespace Machine

variable (machine : Machine δ) (pc target : Word)

/-- The instruction at `pc` has jumped to `target`. -/
def jumpTo : Machine δ :=
  (machine.noteBranch true pc target).setPc target

omit [Bus δ] in
theorem reg_jumpTo (reg : Reg) :
    (machine.jumpTo pc target).reg reg = if .pc = reg then target else machine.reg reg :=
  (machine.noteBranch true pc target).reg_setReg .pc reg target

end Machine

/-- Only the last micro-operation of a program ends it. -/
theorem WellFormed.goesOn {ops : List MicroOp} {last : MicroOp}
    (wellFormed : WellFormed (ops ++ [last])) : ∀ op ∈ ops, op.endsInstruction = false := by
  intro op opMem
  rcases List.append_of_mem opMem with ⟨before, after, rfl⟩
  apply Bool.eq_false_iff.mpr
  intro ends
  have nothing := wellFormed.endsLast before op (after ++ [last]) (by simp) ends
  simp at nothing

namespace Datapath

theorem run_jump (datapath : Datapath δ) (index : Nat) (pc : Word) (target : Reg) :
    datapath.run index [.jump pc target] =
      (.ok (.transferred index), datapath.machine.jumpTo pc (datapath.reg target)) := by
  rw [run_cons]
  rfl

/-- What transfers control at its end has gone on until there. -/
theorem exists_steps_of_transferred {before : Datapath δ} {index position : Nat}
    {ops : List MicroOp} {pc : Word} {target : Reg}
    (goesOn : ∀ op ∈ ops, op.endsInstruction = false)
    (transfers : (before.run index (ops ++ [.jump pc target])).1 = .ok (.transferred position)) :
    ∃ last, Steps before ops last ∧
      (before.run index (ops ++ [.jump pc target])).2 =
        last.machine.jumpTo pc (last.reg target) := by
  rcases before.trapped_or_exists_steps index goesOn with ⟨trapped, kind, traps⟩ | ⟨last, steps⟩
  · rw [run_append_of_trapped traps, traps] at transfers
    cases transfers
  · refine ⟨last, steps, ?_⟩
    rw [steps.run_append, run_jump]

end Datapath

/-! ## Calls -/

namespace Machine

/-- `called` is `machine` after a call: the link register, as it stood once the
destination was found, is on the stack, and the link register holds the program
counter. -/
structure Calls (machine : Machine δ) (call : Instruction) (called : Machine δ) : Prop where
  psw : called.psw = machine.psw
  pointer : called.reg .sp = machine.regAfter call.destination .word .sp - 2
  link : call.registerField ≠ .pc →
    called.reg call.registerField = machine.regAfter call.destination .word .pc
  others (reg : Reg) : reg.isGeneral → reg ≠ .pc → reg ≠ .sp → reg ≠ call.registerField →
    called.reg reg = machine.regAfter call.destination .word reg
  top : called.ReadsRam machine.psw.mode (called.reg .sp) .word
    (machine.storePlace machine.psw.mode (called.reg .sp))
    (machine.regAfter call.destination .word call.registerField)
  ram : machine.ram.OverlaidBy
    (storedByte? (machine.storePlace machine.psw.mode (called.reg .sp)).toNat
      (machine.regAfter call.destination .word call.registerField) .word) called.ram

variable {machine : Machine δ} {call : Instruction}

/-- `linked` is `machine` with the word of `link` pushed and the program counter in
its place. -/
structure Links (machine : Machine δ) (link : Reg) (linked : Machine δ) : Prop where
  psw : linked.psw = machine.psw
  pointer : linked.reg .sp = machine.reg .sp - 2
  counter : link ≠ .pc → linked.reg link = machine.reg .pc
  others (reg : Reg) : reg.isGeneral → reg ≠ .pc → reg ≠ .sp → reg ≠ link →
    linked.reg reg = machine.reg reg
  top : linked.ReadsRam machine.psw.mode (machine.reg .sp - 2) .word
    (machine.storePlace machine.psw.mode (machine.reg .sp - 2)) (machine.reg link)
  ram : machine.ram.OverlaidBy
    (storedByte? (machine.storePlace machine.psw.mode (machine.reg .sp - 2)).toNat
      (machine.reg link) .word) linked.ram

/-- The word of the link register goes to the stack by way of `t0`. -/
theorem links_of_steps {located pushed : Datapath δ} {link : Reg} (linkNotStack : link ≠ .sp)
    (pushes : (located.setReg .t0 (located.reg link)).Steps (MicroOp.push .t0) pushed)
    (inRam : located.machine.StoresInRam located.machine.psw.mode (located.reg .sp - 2))
    (pc target : Word) :
    located.machine.Links link
      ((pushed.setReg link (pushed.reg .pc)).machine.jumpTo pc target) := by
  have copied (reg : Reg) : (located.setReg .t0 (located.reg link)).reg reg =
      if .t0 = reg then located.reg link else located.reg reg :=
    located.reg_setReg _ _ _
  have stack : (located.setReg .t0 (located.reg link)).reg .sp = located.reg .sp :=
    copied .sp
  have push := pushes.pushedInRam rfl (by rwa [stack])
  have registers (reg : Reg) (notPc : reg ≠ .pc) :
      ((pushed.setReg link (pushed.reg .pc)).machine.jumpTo pc target).reg reg =
        if link = reg then pushed.reg .pc else pushed.reg reg := by
    rw [reg_jumpTo, if_neg notPc.symm]
    exact pushed.reg_setReg _ _ _
  have kept {reg : Reg} (general : reg.isGeneral) (notStack : reg ≠ .sp) :
      pushed.reg reg = located.reg reg := by
    rw [push.registers, copied, if_neg (Reg.ne_of_scratch rfl general), if_neg notStack.symm]
    exact BitVec.add_zero _
  have top := push.top
  have ram := push.ram
  rw [stack, copied, if_pos rfl] at top ram
  constructor
  · exact push.psw
  · rw [registers _ (by decide), if_neg linkNotStack, push.registers, stack, if_pos rfl,
      ← BitVec.sub_eq_add_neg]
    rfl
  · intro notPc
    rw [registers _ notPc, if_pos rfl]
    exact kept rfl (by decide)
  · intro reg general notPc notStack notLink
    rw [registers _ notPc, if_neg notLink.symm]
    exact kept general notStack
  · exact top.of_sameMapping (.refl _) rfl
  · exact ram

theorem calls_of_steps {signals : Signals} {located pushed : Datapath δ}
    (linkNotStack : call.registerField ≠ .sp)
    (finds : Datapath.Steps { machine := machine, signals := signals } call.locate located)
    (pushes :
      (located.setReg .t0 (located.reg call.registerField)).Steps (MicroOp.push .t0) pushed)
    (inRam : machine.StoresInRam machine.psw.mode
      (machine.regAfter call.destination .word .sp - 2)) :
    machine.Calls call
      ((pushed.setReg call.registerField (pushed.reg .pc)).machine.jumpTo call.pc
        (pushed.reg .d1)) := by
  have same := finds.samePrevious Instruction.gathers_locate
  have psw : located.machine.psw = machine.psw := finds.psw_of_gathers Instruction.gathers_locate
  have place (address : Word) : located.machine.storePlace machine.psw.mode address =
      machine.storePlace machine.psw.mode address :=
    same.mapping.destination machine.psw.mode .write address
  have found {reg : Reg} (general : reg.isGeneral) :
      located.machine.reg reg = machine.regAfter call.destination .word reg :=
    finds.reg_of_locate general
  have lands : located.machine.StoresInRam located.machine.psw.mode (located.reg .sp - 2) := by
    have stack : located.reg .sp = machine.regAfter call.destination .word .sp := found rfl
    rw [psw, stack]
    exact inRam.of_samePrevious same
  have links := links_of_steps linkNotStack pushes lands call.pc (pushed.reg .d1)
  have pointer := links.pointer
  rw [found rfl] at pointer
  have top := links.top
  have ram := links.ram
  rw [psw, found rfl, found call.isGeneral_registerField, place, ← pointer] at top ram
  rw [same.ram] at ram
  constructor
  · exact links.psw.trans psw
  · exact pointer
  · intro notPc
    exact (links.counter notPc).trans (found rfl)
  · intro reg general notPc notStack notLink
    exact (links.others reg general notPc notStack notLink).trans (found general)
  · exact top
  · exact ram

end Machine

/-! ## Returns -/

/-- `returned` is `called` after a return through `link`, with `word` on top of the
stack: the link register holds the word, and the program counter what the link
register held. -/
structure Machine.Returns (called : Machine δ) (link : Reg) (word : Word) (returned : Machine δ) :
    Prop where
  psw : returned.psw = called.psw
  ram : returned.ram = called.ram
  counter : returned.reg .pc = if link = .pc then word else called.reg link
  restored : link ≠ .pc → returned.reg link = word
  pointer : returned.reg .sp = called.reg .sp + 2
  others (reg : Reg) : reg.isGeneral → reg ≠ .pc → reg ≠ .sp → reg ≠ link →
    returned.reg reg = called.reg reg

namespace Datapath

variable {before : Datapath δ} {link : Reg} {place : PhysicalAddress} {word : Word}

theorem Steps.exists_run_jump {ops : List MicroOp} {last : Datapath δ}
    (steps : Steps before ops last) (pc : Word) (target : Reg) :
    ∃ position, before.run 0 (ops ++ [.jump pc target]) =
      (.ok (.transferred position), last.machine.jumpTo pc (last.reg target)) := by
  rw [steps.run_append, run_jump]
  exact ⟨_, rfl⟩

/-- The word of the link register is kept in `t1` while the stack is popped. -/
theorem exists_steps_exchange (general : link.isGeneral)
    (top : before.machine.ReadsRam before.machine.psw.mode (before.reg .sp) .word place word) :
    ∃ last, Steps before (.move .t1 link :: (MicroOp.pop .t0 ++ [.move link .t0])) last ∧
      last.machine.psw = before.machine.psw ∧ last.machine.ram = before.machine.ram ∧
      last.reg .t1 = before.reg link ∧
      ∀ reg : Reg, reg.isGeneral → last.reg reg =
        if link = reg then word else before.reg reg + if .sp = reg then 2 else 0 := by
  let copied := before.setReg .t1 (before.reg link)
  have copied_reg (reg : Reg) :
      copied.reg reg = if .t1 = reg then before.reg link else before.reg reg :=
    before.reg_setReg _ _ _
  have topAfter : copied.machine.ReadsRam copied.machine.psw.mode (copied.reg .sp) .word place
      word := by
    rw [copied_reg, if_neg (by decide)]
    exact top.of_sameMapping (.refl _) rfl
  rcases exists_steps_pop .t0 topAfter with ⟨popped, pops, psw, ram, registers⟩
  have popped_word : popped.reg .t0 = word := by
    rw [registers, if_pos rfl]
    exact BitVec.add_zero _
  let last := popped.setReg link (popped.reg .t0)
  have last_reg (reg : Reg) : last.reg reg = if link = reg then word else popped.reg reg := by
    rw [← popped_word]
    exact popped.reg_setReg _ _ _
  have copies : before.Step (.move .t1 link) copied := ⟨rfl, rfl⟩
  have restores : popped.Step (.move link .t0) last := ⟨rfl, rfl⟩
  refine ⟨last, .cons copies (pops.append (.single restores)), psw, ram, ?_, ?_⟩
  · rw [last_reg, if_neg (Reg.ne_of_scratch rfl general).symm, registers, copied_reg]
    exact BitVec.add_zero _
  · intro reg generalReg
    have notWord : Reg.t0 ≠ reg := Reg.ne_of_scratch rfl generalReg
    have notCopy : Reg.t1 ≠ reg := Reg.ne_of_scratch rfl generalReg
    rw [last_reg, registers, copied_reg, if_neg notWord, if_neg notCopy]

theorem exists_run_return (before : Datapath δ) {back : Instruction}
    (notStack : back.lowRegister ≠ .sp)
    (top : before.machine.ReadsRam before.machine.psw.mode (before.reg .sp) .word place word) :
    ∃ position returned,
      before.run 0 back.returnFromSubroutine = (.ok (.transferred position), returned) ∧
      before.machine.Returns back.lowRegister word returned := by
  unfold Instruction.returnFromSubroutine
  by_cases throughPc : back.lowRegister = .pc
  · rcases exists_steps_pop .t0 top with ⟨popped, pops, psw, ram, registers⟩
    rcases pops.exists_run_jump back.pc .t0 with ⟨position, run⟩
    have popped_word : popped.reg .t0 = word := by
      rw [registers, if_pos rfl]
      exact BitVec.add_zero _
    rw [throughPc, if_pos rfl]
    refine ⟨position, _, run, psw, ram, ?_, fun notPc => absurd rfl notPc, ?_, ?_⟩
    · rw [Machine.reg_jumpTo, if_pos rfl, if_pos rfl, popped_word]
    · exact (Machine.reg_jumpTo _ _ _ _).trans (registers .sp)
    · intro reg general notPc other _
      have kept := registers reg
      rw [if_neg (Reg.ne_of_scratch rfl general), if_neg other.symm] at kept
      rw [Machine.reg_jumpTo, if_neg notPc.symm]
      exact kept.trans (BitVec.add_zero _)
  · rcases exists_steps_exchange back.isGeneral_lowRegister top with
      ⟨last, steps, psw, ram, target, registers⟩
    rcases steps.exists_run_jump back.pc .t1 with ⟨position, run⟩
    rw [if_neg throughPc]
    refine ⟨position, last.machine.jumpTo back.pc (last.reg .t1), ?_, psw, ram, ?_, ?_, ?_, ?_⟩
    · rw [← run]
      simp
    · rw [Machine.reg_jumpTo, if_pos rfl, if_neg throughPc, target]
      rfl
    · intro notPc
      rw [Machine.reg_jumpTo, if_neg (Ne.symm notPc)]
      exact (registers _ back.isGeneral_lowRegister).trans (if_pos rfl)
    · rw [Machine.reg_jumpTo, if_neg (by decide)]
      exact (registers .sp rfl).trans (if_neg notStack)
    · intro reg general notPc other notLink
      have kept := registers reg general
      rw [if_neg notLink.symm, if_neg other.symm] at kept
      rw [Machine.reg_jumpTo, if_neg notPc.symm]
      exact kept.trans (BitVec.add_zero _)

end Datapath

/-! ## A call and its return -/

namespace Machine

/-- The program counter stands behind the instruction, as a fetch leaves it. -/
structure StandsBehind (machine : Machine δ) (instruction : Instruction) : Prop where
  complete : instruction.extension.length = instruction.extensionLength
  counter : machine.pc = instruction.nextPc

variable {machine : Machine δ} {call : Instruction} {pipeline : Pipeline} {position : Nat}

theorem standsBehind_of_fetch {before : Machine δ} (ready : before.fetch = (.ready call, machine)) :
    machine.StandsBehind call :=
  ⟨(pc_fetch ready).2.1, (pc_fetch ready).2.2⟩

omit [Bus δ] in
/-- Behind the instruction the program counter stands where its stream goes on. -/
theorem destinationStream_of_settled (isJsr : call.opcode = .jsr)
    (settled : call.destination.reg ≠ .pc ∨ machine.StandsBehind call) :
    machine.destinationStream call = call.stream := by
  unfold destinationStream
  split
  · rename_i live
    rcases settled with notPc | behind
    · exact absurd live.1 notPc
    · have operands : call.operands = [call.destination] := by
        rw [Instruction.operands, Instruction.format, isJsr]
        rfl
      rw [behind.counter, Instruction.nextPc_eq_cursor behind.complete operands live.2]
  · rfl

/-- A call of a register is refused. -/
theorem inMemory_of_transferred (isJsr : call.opcode = .jsr)
    (transfers : (Datapath.run { machine := machine, signals := .quiet } 0 call.program).1 =
      .ok (.transferred position)) : call.destination.mode ≠ .register := by
  intro inRegister
  have program : call.program = [.raiseTrap .illegal] := by
    rw [Instruction.program, isJsr]
    simp [Instruction.jumpToSubroutine, Instruction.resolveDestination, Operand.resolve,
      Operand.place, Operand.addressOps, inRegister, ResolvedOperand.target?]
  rw [program] at transfers
  cases transfers

/-- A call that transfers control has found its destination and pushed its link. -/
theorem exists_steps_of_call (isJsr : call.opcode = .jsr) (encoded : call.encode = .ok pipeline)
    (transfers : (machine.execute pipeline).result = .ok (.transferred position)) :
    call.destination.mode ≠ .register ∧ ∃ located pushed : Datapath δ,
      Datapath.Steps { machine := machine, signals := .quiet } call.locate located ∧
      (located.setReg .t0 (located.reg call.registerField)).Steps (MicroOp.push .t0) pushed ∧
      (machine.execute pipeline).machine =
        (pushed.setReg call.registerField (pushed.reg .pc)).machine.jumpTo call.pc
          (pushed.reg .d1) := by
  have run_eq : Datapath.run { machine := machine, signals := .quiet } 0 pipeline.ops =
      ((machine.execute pipeline).result, (machine.execute pipeline).machine) :=
    rfl
  rw [Pipeline.ofOps_eq_ok_iff.mp encoded, transfers] at run_eq
  have inMemory := inMemory_of_transferred isJsr (congrArg Prod.fst run_eq)
  have program := Instruction.program_of_jsr isJsr inMemory
  rcases call.exists_wellFormed_encode with ⟨_, again, wellFormed⟩
  rw [Pipeline.ofOps_eq_ok_iff.mp again, program] at wellFormed
  rw [program] at run_eq
  rcases Datapath.exists_steps_of_transferred wellFormed.goesOn (congrArg Prod.fst run_eq) with
    ⟨last, steps, final⟩
  rcases Datapath.Steps.append_iff.mp steps with ⟨located, finds, rest⟩
  rcases Datapath.Steps.cons_iff.mp rest with ⟨copied, copies, rest⟩
  rcases Datapath.Steps.append_iff.mp rest with ⟨pushed, pushes, links⟩
  rcases Datapath.Steps.cons_iff.mp links with ⟨_, moves, ⟨⟩⟩
  have copied_eq : copied = located.setReg .t0 (located.reg call.registerField) := copies.2.symm
  have last_eq : last = pushed.setReg call.registerField (pushed.reg .pc) := moves.2.symm
  have target : last.reg .d1 = pushed.reg .d1 := by
    rw [last_eq, Datapath.reg_setReg,
      if_neg (Reg.ne_of_scratch rfl call.isGeneral_registerField).symm]
  rw [copied_eq] at pushes
  rw [run_eq, target, last_eq] at final
  exact ⟨inMemory, located, pushed, finds, pushes, final⟩

theorem calls_of_transferred (isJsr : call.opcode = .jsr) (linkNotStack : call.registerField ≠ .sp)
    (encoded : call.encode = .ok pipeline)
    (transfers : (machine.execute pipeline).result = .ok (.transferred position))
    (inRam : machine.StoresInRam machine.psw.mode
      (machine.regAfter call.destination .word .sp - 2)) :
    machine.Calls call (machine.execute pipeline).machine := by
  rcases exists_steps_of_call isJsr encoded transfers with
    ⟨-, located, pushed, finds, pushes, final⟩
  rw [final]
  exact calls_of_steps linkNotStack finds pushes inRam

/-- A call goes to the effective address of its destination. -/
theorem effectiveAddress_of_transferred (isJsr : call.opcode = .jsr)
    (encoded : call.encode = .ok pipeline)
    (transfers : (machine.execute pipeline).result = .ok (.transferred position)) :
    machine.effectiveAddress call.destination .word (machine.destinationStream call) =
      .ok (machine.execute pipeline).machine.pc := by
  rcases exists_steps_of_call isJsr encoded transfers with
    ⟨inMemory, located, pushed, finds, pushes, final⟩
  have address := finds.effectiveAddress_of_locate inMemory
  have kept : pushed.reg .d1 = located.reg .d1 := by
    rw [MicroOp.push_eq] at pushes
    have same : pushed.reg .d1 = _ := pushes.reg_of_scratch rfl (by simp [MicroOp.destinations])
    rw [same, Datapath.reg_setReg, if_neg (by decide)]
  have counter : (machine.execute pipeline).machine.pc = pushed.reg .d1 := by
    rw [final]
    exact (reg_jumpTo _ _ _ .pc).trans (if_pos rfl)
  rw [counter, kept]
  exact address

/-- `returned` is `machine` after a call and a return: every register stands as it
did once the destination of the call was found. -/
structure ReturnsFrom (machine : Machine δ) (call : Instruction) (called returned : Machine δ) :
    Prop where
  psw : returned.psw = machine.psw
  ram : returned.ram = called.ram
  registers (reg : Reg) : reg.isGeneral →
    returned.reg reg = machine.regAfter call.destination .word reg

theorem Calls.returnsFrom {called returned : Machine δ} (calls : machine.Calls call called)
    (returns : called.Returns call.registerField
      (machine.regAfter call.destination .word call.registerField) returned) :
    machine.ReturnsFrom call called returned where
  psw := returns.psw.trans calls.psw
  ram := returns.ram
  registers reg general := by
    by_cases isPc : reg = .pc
    · rw [isPc, returns.counter]
      split
      · rename_i throughPc
        rw [throughPc]
      · rename_i notPc
        exact calls.link notPc
    · by_cases isLink : reg = call.registerField
      · rw [isLink] at isPc ⊢
        exact returns.restored isPc
      · by_cases isStack : reg = .sp
        · rw [isStack, returns.pointer, calls.pointer]
          exact BitVec.sub_add_cancel _ _
        · rw [returns.others reg general isPc isStack isLink,
            calls.others reg general isPc isStack isLink]

/-- A call saves its link register, as finding the destination left it, and goes to
the effective address of the destination. A return through the same register takes
everything back but the program counter, which stands behind the call, or one word
before that if the destination was found by stepping it down. -/
theorem returns_from_call (isJsr : call.opcode = .jsr) (linkNotStack : call.registerField ≠ .sp)
    (encoded : call.encode = .ok pipeline)
    (transfers : (machine.execute pipeline).result = .ok (.transferred position))
    (inRam : machine.StoresInRam machine.psw.mode
      (machine.regAfter call.destination .word .sp - 2)) :
    let called := (machine.execute pipeline).machine
    machine.Calls call called ∧
      machine.effectiveAddress call.destination .word (machine.destinationStream call) =
        .ok called.pc ∧
      (call.destination.reg ≠ .pc ∨ machine.StandsBehind call →
        machine.destinationStream call = call.stream) ∧
      (machine.StandsBehind call →
        machine.regAfter call.destination .word .pc =
          if call.destination.lowersCounter then call.nextPc - 2 else call.nextPc) ∧
      ∀ back : Instruction, back.opcode = .rts → back.lowRegister = call.registerField →
        ∃ backPipeline place, back.encode = .ok backPipeline ∧
          (called.execute backPipeline).result = .ok (.transferred place) ∧
          machine.ReturnsFrom call called (called.execute backPipeline).machine := by
  intro called
  have calls : machine.Calls call called :=
    calls_of_transferred isJsr linkNotStack encoded transfers inRam
  refine ⟨calls, effectiveAddress_of_transferred isJsr encoded transfers,
    destinationStream_of_settled isJsr, ?_, ?_⟩
  · intro behind
    rw [Operand.regAfter_pc, behind.counter]
  · intro back isRts sameRegister
    rcases back.exists_encode with ⟨backPipeline, backEncoded, ops⟩
    have top := calls.top
    rw [← calls.psw] at top
    have backNotStack : back.lowRegister ≠ .sp := by
      rwa [sameRegister]
    let start : Datapath δ := { machine := called, signals := .quiet }
    rcases start.exists_run_return backNotStack top with ⟨place, returned, run, returns⟩
    have program : back.program = back.returnFromSubroutine := by
      rw [Instruction.program, isRts]
    rw [← program, ← ops] at run
    rw [sameRegister] at returns
    refine ⟨backPipeline, place, backEncoded, congrArg Prod.fst run, ?_⟩
    have final : (called.execute backPipeline).machine = returned := congrArg Prod.snd run
    rw [final]
    exact calls.returnsFrom returns

/-- A user program with the call in `word` at 0 and its stack at 4, on which the
address 6 stands. -/
def userCall (word : Word) : Machine NoDevices :=
  { ofConfig Config.default .none with
    registers := RegisterFile.cleared.set (.stackPointer .user) 4
    psw := .ofBits 0o140000
    ram := { bytes := #[lowByte word, highByte word, 0, 0, 6, 0, 0o207, 0] } }

/-- `JSR PC,@(SP)+`. -/
def callCoroutine : Instruction where
  pc := 0
  word := 0o004736
  opcode := .jsr
  extension := []

/-- The program of `callCoroutine`. -/
def callCoroutinePipeline : Pipeline where
  ops := callCoroutine.program
  length_le := by decide

/-- `RTS PC`. -/
def returnThroughPc : Instruction where
  pc := 6
  word := 0o000207
  opcode := .rts
  extension := []

/-- The program of `returnThroughPc`. -/
def returnThroughPcPipeline : Pipeline where
  ops := returnThroughPc.program
  length_le := by decide

/-- The call goes to the address it pops, and leaves its own in place of it. -/
theorem returns_from_callCoroutine :
    let machine := (userCall callCoroutine.word).fetch.2
    let called := (machine.execute callCoroutinePipeline).machine
    let returned := (called.execute returnThroughPcPipeline).machine
    called.pc = 6 ∧ called.ReadsRam .user 4 .word 4 2 ∧ returned.reg .pc = 2 ∧
      returned.reg .sp = 6 := by
  have ready : (userCall callCoroutine.word).fetch =
      (.ready callCoroutine, (userCall callCoroutine.word).fetch.2) :=
    Prod.ext rfl rfl
  have behind := standsBehind_of_fetch ready
  have encoded : callCoroutine.encode = .ok callCoroutinePipeline :=
    Pipeline.ofOps_eq_ok_iff.mpr rfl
  have backEncoded : returnThroughPc.encode = .ok returnThroughPcPipeline :=
    Pipeline.ofOps_eq_ok_iff.mpr rfl
  have transfers : ((userCall callCoroutine.word).fetch.2.execute callCoroutinePipeline).result =
      .ok (.transferred 8) := rfl
  obtain ⟨calls, located, -, counter, undone⟩ :=
    returns_from_call rfl (by decide) encoded transfers ⟨4, rfl⟩
  rcases undone returnThroughPc rfl rfl with ⟨pipeline, place, again, -, returns⟩
  obtain rfl : returnThroughPcPipeline = pipeline := Except.ok.inj (backEncoded.symm.trans again)
  intro machine called returned
  refine ⟨?_, ?_, ?_, ?_⟩
  · exact Except.ok.inj (located.symm.trans rfl)
  · exact calls.top
  · exact (returns.registers .pc rfl).trans (counter behind)
  · exact returns.registers .sp rfl

/-- `JSR R0,-(PC)`. -/
def callItself : Instruction where
  pc := 0
  word := 0o004047
  opcode := .jsr
  extension := []

/-- The program of `callItself`. -/
def callItselfPipeline : Pipeline where
  ops := callItself.program
  length_le := by decide

/-- The link register holds the address of the call, and not that behind it. -/
theorem link_of_callItself :
    let machine := (userCall callItself.word).fetch.2
    let called := (machine.execute callItselfPipeline).machine
    machine.StandsBehind callItself ∧ callItself.encode = .ok callItselfPipeline ∧
      (machine.execute callItselfPipeline).result = .ok (.transferred 7) ∧
      machine.StoresInRam .user (machine.regAfter callItself.destination .word .sp - 2) ∧
      callItself.nextPc = 2 ∧ called.reg callItself.registerField = 0 :=
  ⟨⟨rfl, rfl⟩, Pipeline.ofOps_eq_ok_iff.mpr rfl, rfl, ⟨2, rfl⟩, rfl, rfl⟩

end Machine

end Pdp11
