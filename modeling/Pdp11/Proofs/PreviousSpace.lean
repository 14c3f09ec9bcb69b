import Pdp11.Machine.Cycle
import Pdp11.Proofs.AccessPlaces
import Pdp11.Proofs.Fetch
import Pdp11.Proofs.ProgramLength
import Pdp11.Proofs.RegisterWrites

/-!
# Moves to the previous mode and back

A word is popped into a space of the previous mode, and the next instruction
pushes the word it finds there. Nothing between the store and the load touches
memory or the mapping, so what comes back is decided by where the two lead.
-/

namespace Pdp11

universe u

variable {δ : Type u} [Bus δ]

/-! ## What lies between the accesses -/

namespace MicroOp

theorem push_eq (src : Reg) :
    push src = [step .sp (-2), stackGuard, store .sp src .word .data] :=
  rfl

end MicroOp

namespace Machine

/-- A space of the previous mode is the same in both machines. -/
structure SamePrevious (before after : Machine δ) : Prop where
  ram : after.ram = before.ram
  mode : after.psw.previousMode = before.psw.previousMode
  mapping : before.mmu.SameMapping after.mmu

omit [Bus δ] in
theorem SamePrevious.refl (machine : Machine δ) : SamePrevious machine machine where
  ram := rfl
  mode := rfl
  mapping := .refl _

omit [Bus δ] in
theorem SamePrevious.trans {first second third : Machine δ} (head : SamePrevious first second)
    (tail : SamePrevious second third) : SamePrevious first third where
  ram := tail.ram.trans head.ram
  mode := tail.mode.trans head.mode
  mapping := head.mapping.trans tail.mapping

theorem Accessed.samePrevious {before after : Machine δ} (accessed : Accessed before after) :
    SamePrevious before after where
  ram := accessed.ram
  mode := congrArg Psw.previousMode accessed.psw
  mapping := accessed.mmu.sameMapping

theorem samePrevious_begun (machine : Machine δ) :
    SamePrevious machine machine.poll.startInstruction where
  ram := rfl
  mode := rfl
  mapping := by
    change machine.mmu.SameMapping machine.mmu.startInstruction
    unfold Mmu.startInstruction
    split
    · exact .refl _
    · exact ⟨rfl, .refl _, rfl, rfl⟩

theorem samePrevious_fetchWord {machine fetched : Machine δ} {cycle : MemoryCycle} {word : Word}
    (succeeds : machine.fetchWord cycle = (.ok word, fetched)) :
    SamePrevious machine fetched := by
  rcases fetchWord_eq_ok_iff.mp succeeds with ⟨after, outcome, rfl⟩
  have accessed := machine.accessed_read machine.psw.mode cycle machine.pc .word
  rw [outcome] at accessed
  exact ⟨accessed.samePrevious.ram, accessed.samePrevious.mode, accessed.samePrevious.mapping⟩

theorem samePrevious_fetchExtension {machine fetched : Machine δ}
    {instruction extended : Instruction} {count : Nat}
    (ready : machine.fetchExtension instruction count = (.ready extended, fetched)) :
    SamePrevious machine fetched := by
  induction count generalizing machine instruction with
  | zero =>
      cases ready
      exact .refl _
  | succ count ih =>
      rcases fetchExtension_succ_eq_ready_iff.mp ready with ⟨word, after, succeeds, rest⟩
      exact (samePrevious_fetchWord succeeds).trans (ih rest)

theorem samePrevious_fetch {machine fetched : Machine δ} {instruction : Instruction}
    (ready : machine.fetch = (.ready instruction, fetched)) : SamePrevious machine fetched := by
  rcases fetch_eq_ready_iff.mp ready with ⟨word, after, opcode, succeeds, -, rest⟩
  exact (samePrevious_fetchWord succeeds).trans (samePrevious_fetchExtension rest)

end Machine

namespace Datapath

variable {before after : Datapath δ} {op : MicroOp} {ops : List MicroOp} {reg : Reg}

theorem Step.samePrevious (uncommitted : op.commits = false) (step : before.Step op after) :
    before.machine.SamePrevious after.machine := by
  rcases step with ⟨-, rfl⟩
  have results := MicroOp.sameResults_of_commits_eq_false uncommitted before
  have rights := MicroOp.sameRights_of_commits_eq_false uncommitted before
  exact ⟨results.ram, congrArg Psw.previousMode results.psw, rights.toSameMapping⟩

theorem Steps.samePrevious (steps : Steps before ops after) (gathers : ∀ op ∈ ops, op.gathers) :
    before.machine.SamePrevious after.machine := by
  apply steps.preserves fun reached => before.machine.SamePrevious reached.machine
  · intro op opMem first second step same
    have uncommitted := (MicroOp.gathers_iff.mp (gathers op opMem)).1
    exact same.trans (step.samePrevious uncommitted)
  · exact .refl _

theorem Step.samePrevious_evalFlags {rule : FlagRule} {value : Reg} {width : Width}
    (step : before.Step (.evalFlags rule value width) after) :
    before.machine.SamePrevious after.machine := by
  rcases step with ⟨-, rfl⟩
  simp only [MicroOp.effect]
  split <;> exact ⟨rfl, rfl, .refl _⟩

/-- A scratch register that a micro-operation does not name keeps its word. -/
theorem Step.reg_of_scratch (scratch : reg.isGeneral = false) (spared : reg ∉ op.destinations)
    (step : before.Step op after) : after.reg reg = before.reg reg := by
  rcases step with ⟨-, rfl⟩
  change (op.effect before).commit.machine.registers.get (reg.cell _) =
    before.machine.registers.get (reg.cell before.machine.psw)
  rw [Reg.cell_of_scratch scratch _ before.machine.psw, Effect.get_commit,
    MicroOp.registers_effect]
  intro write posted sameCell
  rcases MicroOp.cell_of_mem_writes posted with ⟨named, namedMem, cell⟩ | ⟨src, -, cell⟩
  · rw [Reg.cell_inj.mp (cell.symm.trans sameCell)] at namedMem
    exact spared namedMem
  · exact Reg.cell_ne_of_scratch scratch rfl _ (sameCell.symm.trans cell)

theorem Steps.reg_of_scratch (steps : Steps before ops after) (scratch : reg.isGeneral = false)
    (spared : ∀ op ∈ ops, reg ∉ op.destinations) : after.reg reg = before.reg reg := by
  apply steps.preserves fun reached => reached.reg reg = before.reg reg
  · intro op opMem first second step same
    exact (step.reg_of_scratch scratch (spared op opMem)).trans same
  · rfl

end Datapath

/-! ## The two instructions -/

namespace Instruction

variable {instruction : Instruction} {space : Space}

/-- The instruction moves a word to `space` of the previous mode, in memory. -/
structure MovesTo (instruction : Instruction) (space : Space) : Prop where
  opcode : instruction.opcode =
    match space with
    | .instruction => .mtpi
    | .data => .mtpd
  inMemory : instruction.destination.place .destination instruction.stream = .memory .d1

/-- The instruction moves a word from `space` of the previous mode, in memory. -/
structure MovesFrom (instruction : Instruction) (space : Space) : Prop where
  opcode : instruction.opcode =
    match space with
    | .instruction => .mfpi
    | .data => .mfpd
  inMemory : instruction.destination.place .source instruction.stream = .memory .s1

theorem program_of_mtp
    (opcode : instruction.opcode =
      match space with
      | .instruction => .mtpi
      | .data => .mtpd) :
    instruction.program = instruction.moveToPrevious space := by
  rw [program, opcode]
  cases space <;> rfl

theorem program_of_mfp
    (opcode : instruction.opcode =
      match space with
      | .instruction => .mfpi
      | .data => .mfpd) :
    instruction.program = instruction.moveFromPrevious space := by
  rw [program, opcode]
  cases space <;> rfl

theorem MovesTo.program_eq (moves : instruction.MovesTo space) :
    instruction.program = (MicroOp.pop .t0 ++ (instruction.resolveDestination .word).ops) ++
      [.store .d1 .t0 .word (.previous space), .evalFlags .logical .t0 .word] := by
  have place : (instruction.resolveDestination .word).place = .memory .d1 := moves.inMemory
  rw [program_of_mtp moves.opcode]
  simp [moveToPrevious, ResolvedOperand.assign, place]

theorem MovesFrom.program_eq (moves : instruction.MovesFrom space) :
    instruction.program =
      (instruction.destination.resolve .word .source instruction.stream).ops ++
        .load .s0 .s1 .word (.previous space) :: (MicroOp.push .s0 ++
          [.evalFlags .logical .s0 .word]) := by
  have place : (instruction.destination.resolve .word .source instruction.stream).place =
      .memory .s1 := moves.inMemory
  rw [program_of_mfp moves.opcode]
  simp [moveFromPrevious, place]

end Instruction

namespace Machine

variable {machine final : Machine δ} {instruction : Instruction} {space : Space}

/-- `machine` fetches `instruction` and carries it out to its end. -/
def Completes (machine : Machine δ) (instruction : Instruction) (final : Machine δ) : Prop :=
  ∃ fetched pipeline, machine.fetch = (.ready instruction, fetched) ∧
    instruction.encode = .ok pipeline ∧
    (fetched.execute pipeline).result = .ok .completed ∧
    (fetched.execute pipeline).machine = final

theorem Completes.exists_steps (completes : machine.Completes instruction final) :
    ∃ fetched last, machine.fetch = (.ready instruction, fetched) ∧
      Datapath.Steps { machine := fetched, signals := .quiet } instruction.program last ∧
      last.machine = final := by
  rcases completes with ⟨fetched, pipeline, ready, encoded, completed, rfl⟩
  rcases exists_steps_of_completed encoded completed with ⟨last, steps, reached⟩
  exact ⟨fetched, last, ready, steps, reached⟩

/-- A move to the previous mode stores the word in `t0` at the address in `d1`. -/
theorem exists_store_of_movesTo (moves : instruction.MovesTo space)
    (completes : machine.Completes instruction final) :
    ∃ before stored : Machine δ, machine.SamePrevious before ∧
      before.write machine.psw.previousMode (final.reg .d1) (final.reg .t0) .word =
        (.ok (), stored) ∧
      stored.SamePrevious final := by
  rcases completes.exists_steps with ⟨fetched, last, ready, steps, rfl⟩
  rw [moves.program_eq, Datapath.Steps.append_iff] at steps
  rcases steps with ⟨before, prelude, rest⟩
  rcases Datapath.Steps.cons_iff.mp rest with ⟨written, stores, flags⟩
  rcases Datapath.Steps.cons_iff.mp flags with ⟨_, evaluates, ⟨⟩⟩
  have gathers : ∀ op ∈ MicroOp.pop .t0 ++ (instruction.resolveDestination .word).ops,
      op.gathers := by
    intro op opMem
    rcases List.mem_append.mp opMem with pops | finds
    · exact MicroOp.gathers_pop rfl op pops
    · exact Operand.gathers_addressOps _ _ _ _ op finds
  have begun := (samePrevious_fetch ready).trans (prelude.samePrevious gathers)
  have address : last.reg .d1 = before.reg .d1 :=
    rest.reg_of_scratch rfl (by simp [MicroOp.destinations])
  have word : last.reg .t0 = before.reg .t0 :=
    rest.reg_of_scratch rfl (by simp [MicroOp.destinations])
  rcases Datapath.exists_of_step_store stores with ⟨stored, outcome, rfl⟩
  refine ⟨before.machine, stored, begun, ?_, evaluates.samePrevious_evalFlags⟩
  change before.machine.write _ (last.reg .d1) (last.reg .t0) .word = _
  rw [address, word, ← begun.mode]
  exact outcome

/-- A move from the previous mode loads the word in `s0` from the address in
`s1`. -/
theorem exists_load_of_movesFrom (moves : instruction.MovesFrom space)
    (completes : machine.Completes instruction final) :
    ∃ before loaded : Machine δ, machine.SamePrevious before ∧
      before.read machine.psw.previousMode (loadCycle space) (final.reg .s1) .word =
        (.ok (final.reg .s0), loaded) := by
  rcases completes.exists_steps with ⟨fetched, last, ready, steps, rfl⟩
  rw [moves.program_eq, Datapath.Steps.append_iff] at steps
  rcases steps with ⟨before, prelude, rest⟩
  rcases Datapath.Steps.cons_iff.mp rest with ⟨reached, loads, pushes⟩
  have begun := (samePrevious_fetch ready).trans
    (prelude.samePrevious (Operand.gathers_addressOps _ _ _ _))
  have address : last.reg .s1 = before.reg .s1 := by
    rw [MicroOp.push_eq] at rest
    apply rest.reg_of_scratch rfl
    simp [MicroOp.destinations]
  have word : last.reg .s0 = reached.reg .s0 := by
    rw [MicroOp.push_eq] at pushes
    apply pushes.reg_of_scratch rfl
    simp [MicroOp.destinations]
  rcases Datapath.exists_of_step_load loads with ⟨loaded, outcome⟩
  refine ⟨before.machine, loaded, begun, ?_⟩
  change before.machine.read _ _ (last.reg .s1) .word = (.ok (last.reg .s0), loaded)
  rw [address, word, ← begun.mode]
  exact outcome

omit [Bus δ] in
theorem StoresInRam.of_samePrevious {before after : Machine δ} {mode : Mode} {address : Word}
    (same : before.SamePrevious after) (inRam : before.StoresInRam mode address) :
    after.StoresInRam mode address := by
  rcases inRam with ⟨offset, lands⟩
  have place : after.storePlace mode address = before.storePlace mode address :=
    same.mapping.destination mode .write address
  refine ⟨offset, ?_⟩
  rw [place, same.ram]
  exact lands

omit [Bus δ] in
/-- What a load must find depends on memory and mapping alone. -/
theorem Finds.of_samePrevious {before after : Machine δ} {mode : Mode} {address value : Word}
    {width : Width} {found : Word} (same : before.SamePrevious after)
    (finds : after.Finds mode space address value width found) :
    before.Finds mode space address value width found := by
  have storePlace : after.storePlace mode address = before.storePlace mode address :=
    same.mapping.destination mode .write address
  have loadPlace : after.loadPlace mode space address = before.loadPlace mode space address :=
    same.mapping.destination mode (loadCycle space) address
  rcases finds with ⟨-, stored, apart⟩
  rw [storePlace, loadPlace] at stored apart
  rw [same.ram] at apart
  constructor
  · intro shares
    exact stored (Mmu.destination_of_sharesPages shares address)
  · exact stored
  · exact apart

/-- A store of `value` at `address` in the spaces of `mode`, from `before` on, and
after it a load of `found` from `space` at the same address. -/
inductive StoresThenLoads (before : Machine δ) :
    Mode → Space → Word → Word → Width → Word → Prop
  /-- A store and a load with one selector, as micro-operations. -/
  | microOps {signals : Signals} {written loaded : Datapath δ} {pointer src again dst : Reg}
      {width : Width} {select : AccessSpace}
      (stores : Datapath.Step { machine := before, signals := signals }
        (.store pointer src width select) written)
      (loads : written.Step (.load dst again width select) loaded)
      (sameAddress : written.reg again = before.reg pointer) :
      StoresThenLoads before (before.selectedMode select.mode) select.space (before.reg pointer)
        (before.reg src) width (loaded.reg dst)
  /-- A move of the word in `t0` to a space of the previous mode, and a move from
  there to `s0`, by one instruction after the other. -/
  | moves {space : Space} {moveTo moveFrom : Instruction} {written final : Machine δ}
      (movesTo : moveTo.MovesTo space) (movesFrom : moveFrom.MovesFrom space)
      (stores : before.poll.startInstruction.Completes moveTo written)
      (loads : written.poll.startInstruction.Completes moveFrom final)
      (sameAddress : final.reg .s1 = written.reg .d1) :
      StoresThenLoads before before.psw.previousMode space (written.reg .d1) (written.reg .t0)
        .word (final.reg .s0)

/-- What was stored in memory is loaded again, if instructions and data of the
mode share their pages, or else lead to the same place. Otherwise a load from
the instruction space finds what stood at its own place before the store. -/
theorem finds_of_storesThenLoads {before : Machine δ} {mode : Mode} {address value : Word}
    {width : Width} {found : Word} (inRam : before.StoresInRam mode address)
    (both : before.StoresThenLoads mode space address value width found) :
    before.Finds mode space address value width found := by
  cases both with
  | @microOps _ _ _ pointer _ again _ _ select stores loads sameAddress =>
      rcases Datapath.exists_of_step_store stores with ⟨stored, wrote, rfl⟩
      rcases Datapath.exists_of_step_load loads with ⟨after, read⟩
      rcases inRam with ⟨offset, lands⟩
      have rest := (wroteRam_of_write lands wrote).rest
      have sameMode : stored.selectedMode select.mode = before.selectedMode select.mode := by
        rw [rest]
        rfl
      change stored.read _ (loadCycle select.space) (stored.reg again) _ = _ at read
      change stored.reg again = before.reg pointer at sameAddress
      rw [sameMode, sameAddress] at read
      exact finds_of_write_read ⟨offset, lands⟩ wrote (.refl _) rfl read
  | @moves _ moveTo moveFrom written final movesTo movesFrom stores loads sameAddress =>
      rcases exists_store_of_movesTo movesTo stores with
        ⟨storing, stored, toStore, wrote, fromStore⟩
      rcases exists_load_of_movesFrom movesFrom loads with ⟨loading, after, toLoad, read⟩
      have begun := before.samePrevious_begun.trans toStore
      have between := (fromStore.trans written.samePrevious_begun).trans toLoad
      rcases inRam.of_samePrevious begun with ⟨offset, lands⟩
      have rest := (wroteRam_of_write lands wrote).rest
      have sameMode : written.poll.startInstruction.psw.previousMode = before.psw.previousMode := by
        change written.psw.previousMode = _
        rw [fromStore.mode, rest]
        exact begun.mode
      rw [sameMode, sameAddress] at read
      exact .of_samePrevious begun
        (finds_of_write_read ⟨offset, lands⟩ wrote between.mapping between.ram read)

/-- A supervisor program that pops a word into the instruction space of the user
and pushes it back. The data page of the user is another than its instruction
page. -/
def splitUser : Machine NoDevices :=
  { ofConfig Config.default .none with
    registers :=
      (RegisterFile.cleared.set (.general false 1) 6).set (.stackPointer .supervisor) 8
    psw := .ofBits 0o70000
    ram :=
      { bytes := #[0o211, 0o15, 0o111, 0o15, 0, 0, 0, 0, 0o56, 0o247, 0, 0, 0, 0, 0, 0, 0, 0, 0, 0,
          0, 0, 0, 0, 0, 0, 0, 0, 0, 0, 0, 0, 0, 0, 0, 0, 0, 0, 0, 0, 0, 0, 0, 0, 0, 0, 0, 0, 0, 0,
          0, 0, 0, 0, 0, 0, 0, 0, 0, 0, 0, 0, 0, 0, 0, 0, 0, 0, 0, 0, 0, 0] }
    mmu :=
      { Mmu.new .pdp1170 with
        mmr0 := { Mmr0.cleared with enabled := true }
        mmr3 := 1
        pages :=
          ((PageTable.cleared.set { mode := .supervisor, space := .instruction, number := 0 }
            { descriptor := .loaded 0o77406, base := 0 }).set
              { mode := .user, space := .instruction, number := 0 }
              { descriptor := .loaded 0o77406, base := 1 }).set
                { mode := .user, space := .data, number := 0 }
                { descriptor := .loaded 0o77406, base := 0 } } }

/-- `MTPI (R1)`. -/
def popToUser : Instruction where
  pc := 0
  word := 0o006611
  opcode := .mtpi
  extension := []

/-- `MFPI (R1)`. -/
def pushFromUser : Instruction where
  pc := 2
  word := 0o006511
  opcode := .mfpi
  extension := []

/-- The program of `popToUser`. -/
def popToUserPipeline : Pipeline where
  ops := popToUser.program
  length_le := by decide

/-- The program of `pushFromUser`. -/
def pushFromUserPipeline : Pipeline where
  ops := pushFromUser.program
  length_le := by decide

/-- `splitUser` once the word was popped and stored, on the data page of the user:
the stack pointer stepped by two, and both pages that were used are marked. -/
def afterPop : Machine NoDevices :=
  { splitUser with
    registers :=
      (((splitUser.registers.set (.stackPointer .supervisor) 10).set .programCounter 2).set
        (.scratch 4) 6).set (.scratch 6) 0o123456
    psw := .ofBits 0o70010
    ram := { bytes := (splitUser.ram.bytes.set 6 0o56).set 7 0o247 }
    mmu :=
      { splitUser.mmu with
        mmr1 := Mmr1.cleared.record 6 2
        pages :=
          (splitUser.mmu.pages.set { mode := .supervisor, space := .instruction, number := 0 }
            { descriptor := (PageDescriptor.loaded 0o77406).marked false, base := 0 }).set
              { mode := .user, space := .data, number := 0 }
              { descriptor := (PageDescriptor.loaded 0o77406).marked true, base := 0 } } }

theorem completes_afterPop : splitUser.poll.startInstruction.Completes popToUser afterPop :=
  ⟨_, popToUserPipeline, Prod.ext rfl rfl, Pipeline.ofOps_eq_ok_iff.mpr rfl, rfl, rfl⟩

/-- `splitUser` once the word that was found there is back on the stack. -/
def afterPush : Machine NoDevices :=
  (afterPop.poll.startInstruction.fetch.2.execute pushFromUserPipeline).machine

theorem completes_afterPush : afterPop.poll.startInstruction.Completes pushFromUser afterPush :=
  ⟨_, pushFromUserPipeline, Prod.ext rfl rfl, Pipeline.ofOps_eq_ok_iff.mpr rfl, rfl, rfl⟩

/-- The word is stored on the data page, and what comes back is the word on the
instruction page, which is zero. -/
theorem finds_splitUser :
    splitUser.StoresThenLoads .user .instruction 6 0o123456 .word (afterPush.reg .s0) ∧
      afterPush.reg .s0 = 0 := by
  have inRam : splitUser.StoresInRam .user 6 := ⟨6, rfl⟩
  have sameAddress : afterPush.reg .s1 = afterPop.reg .d1 := by decide +kernel
  have both : splitUser.StoresThenLoads .user .instruction 6 0o123456 .word (afterPush.reg .s0) :=
    .moves ⟨rfl, rfl⟩ ⟨rfl, rfl⟩ completes_afterPop completes_afterPush sameAddress
  have apart := (finds_of_storesThenLoads inRam both).apart (by decide) 70 rfl
  have zero : splitUser.ram.read? 70 .word = some 0 := rfl
  rw [zero] at apart
  exact ⟨both, (Option.some.inj apart).symm⟩

end Machine

end Pdp11
