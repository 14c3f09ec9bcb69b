import Pdp11.Proofs.EffectiveAddress
import Pdp11.Proofs.PreviousSpace
import Pdp11.Proofs.Pushes
import Pdp11.Proofs.ScratchUse
import Pdp11.Proofs.StatusOperations

/-!
# Operands in a space of the previous mode

A word is moved between the stack and a space of the previous mode. The address
of the operand is worked out in the current mode, as for any instruction, and
then the word is loaded from the previous mode or stored to it. An immediate
operand is never loaded: the word of the stream is pushed as it was fetched. It
is stored to all the same, at the address of that word in the previous mode.
-/

namespace Pdp11

universe u

/-- The two ways of a word between the stack and the previous mode. -/
inductive PreviousMove
  | push
  | pop
deriving DecidableEq

namespace PreviousMove

/-- The operation that makes the move from or to `space`. -/
def opcode : PreviousMove → Space → Opcode
  | push, .instruction => .mfpi
  | push, .data => .mfpd
  | pop, .instruction => .mtpi
  | pop, .data => .mtpd

end PreviousMove

variable {δ : Type u} [Bus δ]

/-! ## The log of a store and of a push -/

namespace Datapath

variable {before after : Datapath δ} {rest : List MicroOp}

theorem Steps.stores_eq_nil (steps : Steps before rest after)
    (noStore : ∀ op ∈ rest, op.isStore = false) : before.stores rest = [] := by
  have whole := steps.stores_append noStore []
  rwa [List.append_nil] at whole

theorem Steps.stores_store {address src : Reg} {width : Width} {space : AccessSpace}
    (steps : Steps before (.store address src width space :: rest) after)
    (noStore : ∀ op ∈ rest, op.isStore = false) :
    before.stores (.store address src width space :: rest) =
      [{ mode := before.machine.selectedMode space.mode
         address := before.reg address
         value := before.reg src
         width := width }] := by
  rcases cons_iff.mp steps with ⟨stored, step, others⟩
  rcases exists_of_step_store step with ⟨machine, outcome, -⟩
  rw [step.stores_cons, others.stores_eq_nil noStore]
  simp only [MicroOp.accepted, outcome, List.append_nil]

/-- A push stores below the stack pointer, in the data of the current mode. -/
theorem Steps.stores_push {src : Reg} (scratch : src.isGeneral = false)
    (steps : Steps before (MicroOp.push src ++ rest) after)
    (noStore : ∀ op ∈ rest, op.isStore = false) :
    before.stores (MicroOp.push src ++ rest) =
      [{ mode := before.machine.psw.mode
         address := before.reg .sp - 2
         value := before.reg src
         width := .word }] := by
  have apart : ¬ Reg.sp = src := (Reg.ne_of_scratch scratch rfl).symm
  have program : MicroOp.push src ++ rest =
      MicroOp.stepRegister .sp (-2) ++ .store .sp src .word .data :: rest := by
    simp [MicroOp.push]
  have noStoreBefore : ∀ op ∈ MicroOp.stepRegister .sp (-2), op.isStore = false := by
    decide
  rw [program] at steps ⊢
  rcases append_iff.mp steps with ⟨lowered, lowers, stores⟩
  rcases lowers.answersAlike_stepRegister rfl with ⟨alike, registers⟩
  rw [lowers.stores_append noStoreBefore, stores.stores_store noStore, registers, registers,
    if_pos rfl, if_neg apart, ← BitVec.sub_eq_add_neg]
  congr 2
  · exact congrArg Psw.mode alike.psw
  · exact BitVec.add_zero _

end Datapath

/-! ## The two instructions -/

namespace Operand

variable {operand : Operand} {slot : OperandSlot} {stream : InstructionStream}

theorem place_of_isImmediate (immediate : operand.isImmediate) :
    operand.place slot stream = .immediate stream.head stream.cursor := by
  simp only [isImmediate, decide_eq_true_eq] at immediate
  simp [place, immediate]

theorem place_of_not_isImmediate (inMemory : operand.mode ≠ .register)
    (notImmediate : operand.isImmediate = false) :
    operand.place slot stream = .memory slot.address := by
  simp only [isImmediate, decide_eq_false_iff_not] at notImmediate
  cases mode : operand.mode with
  | register => contradiction
  | autoincrement =>
      have notPc : operand.reg ≠ .pc := fun isPc => notImmediate ⟨mode, isPc⟩
      simp [place, mode, notPc]
  | _ => simp [place, mode]

theorem addressOps_of_isImmediate (immediate : operand.isImmediate) (width : Width) :
    operand.addressOps width slot stream = [] := by
  simp only [isImmediate, decide_eq_true_eq] at immediate
  simp [addressOps, immediate]

/-- Finding an operand writes its address and the register that it steps. -/
theorem writtenBy_addressOps_subset (width : Width) :
    writtenBy (operand.addressOps width slot stream) ⊆ [slot.address, operand.reg] := by
  cases mode : operand.mode <;> by_cases isPc : operand.reg = .pc <;>
    simp [addressOps, mode, isPc, writtenBy_nil, writtenBy_cons, writtenBy_append,
      MicroOp.destinations, MicroOp.follow]

end Operand

namespace Instruction

variable {instruction : Instruction} {space : Space} {move : PreviousMove}

theorem operands_of_previousMove (opcode : instruction.opcode = move.opcode space) :
    instruction.operands = [instruction.destination] := by
  unfold operands format
  rw [opcode]
  cases move <;> cases space <;> rfl

/-- An instruction that takes no word of the stream ends where its stream
begins. -/
theorem nextPc_eq_cursor (complete : instruction.extension.length = instruction.extensionLength)
    (operands : instruction.operands = [instruction.destination])
    (takesNone : instruction.destination.takesWord = false) :
    instruction.nextPc = instruction.stream.cursor := by
  have length : instruction.extension.length = 0 := by
    rw [complete, extensionLength, operands]
    simp [takesNone]
  rw [nextPc, length]
  exact BitVec.add_zero _

end Instruction

namespace Machine

/-- From `fetched` on the instruction finds its operand at `address`, with which
the machine comes to `reached`, and pushes `word` on the current stack. -/
structure PushesOperand (fetched : Machine δ) (instruction : Instruction) (space : Space)
    (reached : Datapath δ) (address word : Word) : Prop where
  reaches : Datapath.Steps { machine := fetched, signals := .quiet }
    (instruction.destination.addressOps .word .source instruction.stream) reached
  located : fetched.effectiveAddress instruction.destination .word instruction.stream =
    .ok address
  pushed : Datapath.stores { machine := fetched, signals := .quiet } instruction.program =
    [{ mode := fetched.psw.mode, address := reached.reg .sp - 2, value := word, width := .word }]
  loaded : instruction.destination.isImmediate = false →
    (reached.machine.read fetched.psw.previousMode (loadCycle space) address .word).1 = .ok word
  /-- An immediate operand is not loaded. -/
  immediate : instruction.destination.isImmediate → word = instruction.stream.head

/-- From `fetched` on the instruction pops a word, with which the machine comes to
`popped`, and stores it at `address` in the previous mode. -/
structure PopsOperand (fetched : Machine δ) (instruction : Instruction)
    (popped : Datapath δ) (address : Word) : Prop where
  pops : Datapath.Steps { machine := fetched, signals := .quiet } (MicroOp.pop .t0) popped
  located : popped.machine.effectiveAddress instruction.destination .word instruction.stream =
    .ok address
  stored : Datapath.stores { machine := fetched, signals := .quiet } instruction.program =
    [{ mode := fetched.psw.previousMode
       address := address
       value := popped.reg .t0
       width := .word }]

/-- What the instruction does from `fetched` on. -/
def MovesOperand (fetched : Machine δ) (instruction : Instruction) (space : Space) :
    PreviousMove → Prop
  | .push => ∃ reached address word, fetched.PushesOperand instruction space reached address word
  | .pop => ∃ popped address, fetched.PopsOperand instruction popped address

variable {fetched : Machine δ} {instruction : Instruction} {space : Space} {last : Datapath δ}

/-- A word brought into `s0` after the operand was found is what the instruction
pushes. -/
theorem stores_of_push {ops : List MicroOp} {read : MicroOp} {reached loaded : Datapath δ}
    {flags : List MicroOp} (finds : Datapath.Steps { machine := fetched, signals := .quiet } ops
      reached)
    (reads : reached.Step read loaded) (pushes : loaded.Steps (MicroOp.push .s0 ++ flags) last)
    (gathers : ∀ op ∈ ops, op.gathers) (gathersRead : read.gathers)
    (notStep : read.isStep = false) (noStore : ∀ op ∈ flags, op.isStore = false) :
    Datapath.stores { machine := fetched, signals := .quiet }
        (ops ++ read :: (MicroOp.push .s0 ++ flags)) =
      [{ mode := fetched.psw.mode
         address := reached.reg .sp - 2
         value := loaded.reg .s0
         width := .word }] := by
  have before := finds.append (.single reads)
  have gathersBefore : ∀ op ∈ ops ++ [read], op.gathers := by
    simpa [or_imp, forall_and] using ⟨gathers, gathersRead⟩
  have psw : loaded.machine.psw = fetched.psw := before.psw_of_gathers gathersBefore
  have pointer : loaded.reg .sp = reached.reg .sp := by
    rw [← reads.2]
    exact MicroOp.reg_commit_of_gathers gathersRead notStep reached rfl
  have program : ops ++ read :: (MicroOp.push .s0 ++ flags) =
      (ops ++ [read]) ++ (MicroOp.push .s0 ++ flags) := by
    simp
  rw [program, before.stores_append (fun op opMem =>
    MicroOp.isStore_of_gathers (gathersBefore op opMem)), pushes.stores_push rfl noStore, psw,
    pointer]

theorem pushesOperand_of_steps (inMemory : instruction.destination.mode ≠ .register)
    (settled : instruction.destination.takesWord = false →
      instruction.destination.reg = .pc → fetched.reg .pc = instruction.stream.cursor)
    (opcode : instruction.opcode =
      match space with
      | .instruction => .mfpi
      | .data => .mfpd)
    (steps : Datapath.Steps { machine := fetched, signals := .quiet } instruction.program last) :
    ∃ reached address word, fetched.PushesOperand instruction space reached address word := by
  have gathers := instruction.destination.gathers_addressOps .word .source instruction.stream
  have noStore : ∀ op ∈ [MicroOp.evalFlags .logical .s0 .word], op.isStore = false := by
    decide
  cases immediate : instruction.destination.isImmediate with
  | true =>
      have place : instruction.destination.place .source instruction.stream =
          .immediate instruction.stream.head instruction.stream.cursor :=
        Operand.place_of_isImmediate immediate
      have program : instruction.program =
          instruction.destination.addressOps .word .source instruction.stream ++
            .loadImm .s0 instruction.stream.head ::
              (MicroOp.push .s0 ++ [.evalFlags .logical .s0 .word]) := by
        rw [Instruction.program_of_mfp opcode]
        simp [Instruction.moveFromPrevious, Operand.resolve, place]
      rw [program] at steps
      rcases Datapath.Steps.append_iff.mp steps with ⟨reached, finds, rest⟩
      rcases Datapath.Steps.cons_iff.mp rest with ⟨loaded, takes, pushes⟩
      have word : loaded.reg .s0 = instruction.stream.head := by
        have loaded_eq : loaded = reached.setReg .s0 instruction.stream.head := takes.2.symm
        rw [loaded_eq, Datapath.reg_setReg, if_pos rfl]
      refine ⟨reached, instruction.stream.cursor, loaded.reg .s0, finds,
        fetched.effectiveAddress_of_isImmediate immediate _ _, ?_, ?_, fun _ => word⟩
      · rw [program]
        exact stores_of_push finds takes pushes gathers rfl rfl noStore
      · simp [immediate]
  | false =>
      have moves : instruction.MovesFrom space :=
        ⟨opcode, Operand.place_of_not_isImmediate inMemory immediate⟩
      have program := moves.program_eq
      rw [program] at steps
      rcases Datapath.Steps.append_iff.mp steps with ⟨reached, finds, rest⟩
      rcases Datapath.Steps.cons_iff.mp rest with ⟨loaded, loads, pushes⟩
      rcases finds.exists_effectiveAddress inMemory instruction.isGeneral_destination settled with
        ⟨address, located, points⟩
      rcases Datapath.exists_of_step_load loads with ⟨after, outcome⟩
      have psw : reached.machine.psw = fetched.psw := finds.psw_of_gathers gathers
      refine ⟨reached, address, loaded.reg .s0, finds, located, ?_, fun _ => ?_, ?_⟩
      · rw [program]
        exact stores_of_push finds loads pushes gathers rfl rfl noStore
      · change reached.machine.read reached.machine.psw.previousMode (loadCycle space)
          (reached.reg OperandSlot.source.address) .word = _ at outcome
        rw [psw, points immediate] at outcome
        rw [outcome]
      · simp [immediate]

/-- The word that was popped is stored at the address that is found after it. -/
theorem stores_of_pop {ops flags : List MicroOp} {popped reached : Datapath δ}
    (pops : Datapath.Steps { machine := fetched, signals := .quiet } (MicroOp.pop .t0) popped)
    (finds : popped.Steps ops reached)
    (stores : reached.Steps (.store .d1 .t0 .word (.previous space) :: flags) last)
    (gathers : ∀ op ∈ ops, op.gathers) (spared : .t0 ∉ writtenBy ops)
    (noStore : ∀ op ∈ flags, op.isStore = false) :
    Datapath.stores { machine := fetched, signals := .quiet }
        (MicroOp.pop .t0 ++ ops ++ .store .d1 .t0 .word (.previous space) :: flags) =
      [{ mode := fetched.psw.previousMode
         address := reached.reg .d1
         value := popped.reg .t0
         width := .word }] := by
  have before := pops.append finds
  have gathersBefore : ∀ op ∈ MicroOp.pop .t0 ++ ops, op.gathers := by
    simpa [or_imp, forall_and] using ⟨MicroOp.gathers_pop rfl, gathers⟩
  have psw : reached.machine.psw = fetched.psw := before.psw_of_gathers gathersBefore
  have word : reached.reg .t0 = popped.reg .t0 := by
    apply finds.reg_of_scratch rfl
    intro op opMem named
    exact spared (List.mem_flatMap.mpr ⟨op, opMem, named⟩)
  rw [before.stores_append (fun op opMem => MicroOp.isStore_of_gathers (gathersBefore op opMem)),
    stores.stores_store noStore, word, ← psw]
  rfl

/-- A pop leaves the program counter alone. -/
theorem pc_of_pop {popped : Datapath δ}
    (pops : Datapath.Steps { machine := fetched, signals := .quiet } (MicroOp.pop .t0) popped) :
    popped.reg .pc = fetched.reg .pc := by
  rw [MicroOp.pop_eq] at pops
  rcases Datapath.Steps.cons_iff.mp pops with ⟨loaded, loads, rest⟩
  rcases Datapath.Steps.cons_iff.mp rest with ⟨_, raises, ⟨⟩⟩
  have first : loaded.reg .pc = fetched.reg .pc := by
    rw [← loads.2]
    exact MicroOp.reg_commit_of_gathers rfl rfl _ rfl
  have second : popped.reg .pc = loaded.reg .pc := by
    rw [← raises.2]
    exact (MicroOp.reg_commit_step .sp .pc 2 loaded).trans (BitVec.add_zero _)
  exact second.trans first

theorem popsOperand_of_steps (space : Space)
    (inMemory : instruction.destination.mode ≠ .register)
    (settled : instruction.destination.takesWord = false →
      instruction.destination.reg = .pc → fetched.reg .pc = instruction.stream.cursor)
    (opcode : instruction.opcode =
      match space with
      | .instruction => .mtpi
      | .data => .mtpd)
    (steps : Datapath.Steps { machine := fetched, signals := .quiet } instruction.program last) :
    ∃ popped address, fetched.PopsOperand instruction popped address := by
  have noStore : ∀ op ∈ [MicroOp.evalFlags .logical .t0 .word], op.isStore = false := by
    decide
  cases immediate : instruction.destination.isImmediate with
  | true =>
      have place : instruction.destination.place .destination instruction.stream =
          .immediate instruction.stream.head instruction.stream.cursor :=
        Operand.place_of_isImmediate immediate
      have program : instruction.program =
          MicroOp.pop .t0 ++ [.loadImm .d1 instruction.stream.cursor] ++
            .store .d1 .t0 .word (.previous space) :: [.evalFlags .logical .t0 .word] := by
        rw [Instruction.program_of_mtp opcode]
        simp [Instruction.moveToPrevious, Instruction.resolveDestination, Operand.resolve, place,
          Operand.addressOps_of_isImmediate immediate, ResolvedOperand.assign]
      rw [program] at steps
      rcases Datapath.Steps.append_iff.mp steps with ⟨reached, before, stores⟩
      rcases Datapath.Steps.append_iff.mp before with ⟨popped, pops, takes⟩
      rcases Datapath.Steps.cons_iff.mp takes with ⟨_, taken, ⟨⟩⟩
      have address : reached.reg .d1 = instruction.stream.cursor := by
        have reached_eq : reached = popped.setReg .d1 instruction.stream.cursor := taken.2.symm
        rw [reached_eq, Datapath.reg_setReg, if_pos rfl]
      have gathers : ∀ op ∈ [MicroOp.loadImm .d1 instruction.stream.cursor], op.gathers := by
        simp only [List.mem_singleton, forall_eq]
        rfl
      have spared : .t0 ∉ writtenBy [.loadImm .d1 instruction.stream.cursor] := by
        change Reg.t0 ∉ [Reg.d1]
        decide
      refine ⟨popped, instruction.stream.cursor, pops,
        popped.machine.effectiveAddress_of_isImmediate immediate _ _, ?_⟩
      rw [program, stores_of_pop pops takes stores gathers spared noStore, address]
  | false =>
      have moves : instruction.MovesTo space :=
        ⟨opcode, Operand.place_of_not_isImmediate inMemory immediate⟩
      have program := moves.program_eq
      rw [program] at steps
      rcases Datapath.Steps.append_iff.mp steps with ⟨reached, before, stores⟩
      rcases Datapath.Steps.append_iff.mp before with ⟨popped, pops, finds⟩
      rcases finds.exists_effectiveAddress inMemory instruction.isGeneral_destination
        (fun takesNone isPc => (pc_of_pop pops).trans (settled takesNone isPc)) with
        ⟨address, located, points⟩
      have spared : .t0 ∉ writtenBy (instruction.resolveDestination .word).ops := by
        intro written
        have named := Operand.writtenBy_addressOps_subset .word written
        have notStepped : Reg.t0 ≠ instruction.destination.reg :=
          Reg.ne_of_scratch rfl instruction.isGeneral_destination
        simp [notStepped, OperandSlot.address] at named
      refine ⟨popped, address, pops, located, ?_⟩
      rw [program, stores_of_pop pops finds stores (Operand.gathers_addressOps _ _ _ _) spared
        noStore]
      rw [← points immediate]
      rfl

variable {machine final : Machine δ} {move : PreviousMove}

/-- A word moved between the stack and the previous mode is found at the effective
address of the operand: loaded there before a push, unless the operand is
immediate, and stored there after a pop. -/
theorem movesOperand_of_completes (opcode : instruction.opcode = move.opcode space)
    (inMemory : instruction.destination.mode ≠ .register)
    (completes : machine.Completes instruction final) :
    ∃ fetched, machine.fetch = (.ready instruction, fetched) ∧
      fetched.MovesOperand instruction space move := by
  rcases completes.exists_steps with ⟨fetched, last, ready, steps, -⟩
  rcases pc_fetch ready with ⟨-, complete, counter⟩
  have settled (takesNone : instruction.destination.takesWord = false)
      (_ : instruction.destination.reg = .pc) : fetched.reg .pc = instruction.stream.cursor := by
    rw [← Instruction.nextPc_eq_cursor complete (Instruction.operands_of_previousMove opcode)
      takesNone]
    exact counter
  refine ⟨fetched, ready, ?_⟩
  cases move with
  | push =>
      apply pushesOperand_of_steps inMemory settled _ steps
      cases space <;> exact opcode
  | pop =>
      apply popsOperand_of_steps space inMemory settled _ steps
      cases space <;> exact opcode

/-- `splitUser` with another program, and the word `4321` at the address of its
extension word on the instruction page of the user. -/
def immediateFromUser : Machine NoDevices :=
  { splitUser with
    ram :=
      { bytes := #[0o127, 0o15, 0o234, 2, 0, 0, 0, 0, 0, 0, 0, 0, 0, 0, 0, 0, 0, 0, 0, 0, 0, 0, 0,
          0, 0, 0, 0, 0, 0, 0, 0, 0, 0, 0, 0, 0, 0, 0, 0, 0, 0, 0, 0, 0, 0, 0, 0, 0, 0, 0, 0, 0, 0,
          0, 0, 0, 0, 0, 0, 0, 0, 0, 0, 0, 0, 0, 0o321, 0o10] } }

/-- `MFPI #1234`. -/
def pushImmediate : Instruction where
  pc := 0
  word := 0o006527
  opcode := .mfpi
  extension := [0o1234]

/-- The program of `pushImmediate`. -/
def pushImmediatePipeline : Pipeline where
  ops := pushImmediate.program
  length_le := by decide

/-- The word of the stream is pushed, and not the word that the user has at its
address. -/
theorem movesOperand_immediateFromUser :
    ∃ reached address word, immediateFromUser.fetch.2.PushesOperand pushImmediate .instruction
        reached address word ∧ address = 2 ∧ word = 0o1234 ∧
      (reached.machine.read .user .instructionStream 2 .word).1 = .ok 0o4321 := by
  have completes : immediateFromUser.Completes pushImmediate
      (immediateFromUser.fetch.2.execute pushImmediatePipeline).machine :=
    ⟨_, pushImmediatePipeline, Prod.ext rfl rfl, Pipeline.ofOps_eq_ok_iff.mpr rfl, rfl, rfl⟩
  have moves : ∃ fetched, immediateFromUser.fetch = (.ready pushImmediate, fetched) ∧
      fetched.MovesOperand pushImmediate .instruction .push :=
    movesOperand_of_completes rfl (by decide) completes
  rcases moves with ⟨fetched, ready, reached, address, word, pushes⟩
  obtain rfl : immediateFromUser.fetch.2 = fetched := congrArg Prod.snd ready
  have immediate : pushImmediate.destination.isImmediate := rfl
  have located := pushes.located
  rw [effectiveAddress_of_isImmediate _ immediate] at located
  refine ⟨reached, address, word, pushes, (Except.ok.inj located).symm, pushes.immediate rfl, ?_⟩
  have reaches := pushes.reaches
  rw [Operand.addressOps_of_isImmediate immediate] at reaches
  cases reaches
  rfl

end Machine

end Pdp11
