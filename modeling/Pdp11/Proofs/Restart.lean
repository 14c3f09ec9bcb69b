import Pdp11.Machine.Cycle
import Pdp11.Proofs.Fetch
import Pdp11.Proofs.Recovery

/-!
# Restart of an aborted instruction

A step may meet a memory management abort in the fetch of its instruction or
in the execution. Either way the handler finds what it needs to run the
instruction again, unless the instruction is a mark whose count of words takes
the stack pointer elsewhere.
-/

namespace Pdp11

universe u

variable {δ : Type u}

namespace Machine

variable {before current after : Machine δ} {taken : Nat}

theorem reg_setPc_of_isRestored (machine : Machine δ) (value : Word) {reg : Reg}
    (restored : reg.isRestored) : (machine.setPc value).reg reg = machine.reg reg := by
  have other : Reg.pc ≠ reg := by
    rintro rfl
    contradiction
  change (machine.setReg .pc value).reg reg = _
  rw [reg_setReg, if_neg other]

theorem Restorable.setPc (restorable : Restorable before taken current) (value : Word) :
    Restorable before taken (current.setPc value) where
  toRecoverable := restorable.toRecoverable.of_same rfl rfl
    fun _ restored => current.reg_setPc_of_isRestored value restored
  psw := restorable.psw
  unlatched := restorable.unlatched
  blank := restorable.blank
  room := restorable.room

variable [Bus δ]

namespace Accessed

theorem reg (accessed : Accessed current after) (reg : Reg) : after.reg reg = current.reg reg := by
  rw [accessed.rest]
  rfl

theorem recoverable (accessed : Accessed current after)
    (mmr2 : after.mmu.mmr2 = current.mmu.mmr2) (recoverable : Recoverable before current) :
    Recoverable before after :=
  recoverable.of_same accessed.mmu.mmr1 mmr2 fun reg _ => accessed.reg reg

theorem restorable (accessed : Accessed current after)
    (mmr2 : after.mmu.mmr2 = current.mmu.mmr2)
    (unlatched : after.mmu.frozen = current.mmu.frozen)
    (restorable : Restorable before taken current) : Restorable before taken after where
  toRecoverable := accessed.recoverable mmr2 restorable.toRecoverable
  psw := accessed.psw.trans restorable.psw
  unlatched := unlatched.trans restorable.unlatched
  blank := fun none => accessed.mmu.mmr1.trans (restorable.blank none)
  room := fun few => (congrArg Mmr1.second accessed.mmu.mmr1).trans (restorable.room few)

end Accessed

/-! ## The fetch -/

/-- MMR2 follows the fetch of the first word, even if that aborts. -/
theorem mmr2_read_fetch {machine : Machine δ} (unlatched : machine.mmu.frozen = false)
    (mode : Mode) (address : Word)
    (even : (machine.read mode .fetch address .word).1 ≠ .error .oddAddress) :
    (machine.read mode .fetch address .word).2.mmu.mmr2 = address := by
  rw [mmu_read]
  split
  · rename_i odd
    rw [read, if_pos odd] at even
    contradiction
  · rw [Mmu.mmr2_translate, if_pos ⟨rfl, by simp [unlatched]⟩]

/-- A step begins with blank notes. -/
theorem begun_unlatched {machine : Machine δ} (unlatched : machine.mmu.frozen = false) :
    machine.poll.startInstruction.mmu.mmr1 = .cleared ∧
      machine.poll.startInstruction.mmu.frozen = false := by
  change (machine.mmu.startInstruction).mmr1 = .cleared ∧
    (machine.mmu.startInstruction).frozen = false
  unfold Mmu.startInstruction
  rw [if_neg (by simp [unlatched])]
  exact ⟨rfl, unlatched⟩

/-- The read of the first word is recoverable, whether it succeeds or not. -/
theorem recoverable_read_fetch {machine after : Machine δ} {answer : Except AccessError Word}
    (unlatched : machine.mmu.frozen = false) (even : answer ≠ .error .oddAddress)
    (outcome : machine.poll.startInstruction.read machine.psw.mode .fetch machine.pc .word =
      (answer, after)) : Recoverable machine after := by
  obtain ⟨blank, stillUnlatched⟩ := begun_unlatched unlatched
  have accessed := machine.poll.startInstruction.accessed_read machine.psw.mode .fetch
    machine.pc .word
  have mmr2 := mmr2_read_fetch stillUnlatched machine.psw.mode machine.pc
  rw [outcome] at accessed mmr2
  constructor
  · exact mmr2 even
  · intro reg _
    rw [accessed.mmu.mmr1, blank, Mmr1.total_cleared, accessed.reg]
    exact BitVec.sub_zero (machine.reg reg)

theorem restorable_fetchWord {machine fetched : Machine δ} {word : Word}
    (unlatched : machine.mmu.frozen = false)
    (succeeds : machine.poll.startInstruction.fetchWord .fetch = (.ok word, fetched)) :
    Restorable machine 0 fetched := by
  obtain ⟨after, outcome, rfl⟩ := fetchWord_eq_ok_iff.mp succeeds
  have recoverable := recoverable_read_fetch unlatched (by simp) outcome
  obtain ⟨blank, stillUnlatched⟩ := begun_unlatched unlatched
  have accessed := machine.poll.startInstruction.accessed_read machine.psw.mode .fetch
    machine.pc .word
  change machine.poll.startInstruction.read machine.psw.mode .fetch machine.pc .word = _ at outcome
  have kept := frozen_read_of_ok (congrArg Prod.fst outcome)
  rw [outcome] at accessed kept
  apply Restorable.setPc
  constructor
  · exact recoverable
  · exact accessed.psw
  · exact kept.trans stillUnlatched
  · intro _
    exact accessed.mmu.mmr1.trans blank
  · intro _
    rw [accessed.mmu.mmr1, blank]
    rfl

/-- Reading a word of the extension keeps the registers restorable. -/
theorem Restorable.fetchWord {before machine fetched : Machine δ} {word : Word}
    (restorable : Restorable before 0 machine)
    (succeeds : machine.fetchWord .instructionStream = (.ok word, fetched)) :
    Restorable before 0 fetched := by
  obtain ⟨after, outcome, rfl⟩ := fetchWord_eq_ok_iff.mp succeeds
  have accessed := machine.accessed_read machine.psw.mode .instructionStream machine.pc .word
  have kept := frozen_read_of_ok (congrArg Prod.fst outcome)
  have mmr2 := mmr2_read (by decide : MemoryCycle.instructionStream ≠ .fetch) machine
    machine.psw.mode machine.pc .word
  rw [outcome] at accessed kept mmr2
  exact (accessed.restorable mmr2 kept restorable).setPc _

theorem Restorable.fetchExtension {before machine fetched : Machine δ}
    {instruction extended : Instruction} {count : Nat} (restorable : Restorable before 0 machine)
    (ready : machine.fetchExtension instruction count = (.ready extended, fetched)) :
    Restorable before 0 fetched := by
  induction count generalizing machine instruction with
  | zero =>
      cases ready
      exact restorable
  | succ count ih =>
      obtain ⟨word, after, succeeds, rest⟩ := fetchExtension_succ_eq_ready_iff.mp ready
      exact ih (restorable.fetchWord succeeds) rest

/-- An extension that cannot be read leaves the registers recoverable. -/
theorem Restorable.fetchExtension_aborted {before machine fetched : Machine δ}
    {instruction : Instruction} {error : AccessError} {count : Nat}
    (restorable : Restorable before 0 machine)
    (aborted : machine.fetchExtension instruction count = (.aborted error, fetched)) :
    Recoverable before fetched := by
  induction count generalizing machine instruction with
  | zero => simp [Machine.fetchExtension] at aborted
  | succ count ih =>
      rcases fetchExtension_succ_eq_aborted_iff.mp aborted with
        ⟨after, fails, rfl⟩ | ⟨word, after, succeeds, rest⟩
      · have outcome := fetchWord_eq_error_iff.mp fails
        have accessed := machine.accessed_read machine.psw.mode .instructionStream machine.pc .word
        have mmr2 := mmr2_read (by decide : MemoryCycle.instructionStream ≠ .fetch) machine
          machine.psw.mode machine.pc .word
        rw [outcome] at accessed mmr2
        exact (accessed.recoverable mmr2 restorable.toRecoverable).of_same rfl rfl fun _ _ => rfl
      · exact ih (restorable.fetchWord succeeds) rest

theorem restorable_fetch {machine fetched : Machine δ} {instruction : Instruction}
    (unlatched : machine.mmu.frozen = false)
    (ready : machine.poll.startInstruction.fetch = (.ready instruction, fetched)) :
    Restorable machine 0 fetched := by
  obtain ⟨word, after, opcode, succeeds, -, rest⟩ := fetch_eq_ready_iff.mp ready
  exact (restorable_fetchWord unlatched succeeds).fetchExtension rest

theorem recoverable_fetch_aborted {machine fetched : Machine δ} {cause : AbortCause}
    (unlatched : machine.mmu.frozen = false)
    (aborted : machine.poll.startInstruction.fetch = (.aborted (.mmuAbort cause), fetched)) :
    Recoverable machine fetched := by
  rcases fetch_eq_aborted_iff.mp aborted with
    ⟨after, fails, rfl⟩ | ⟨word, after, opcode, succeeds, -, rest⟩
  · have recoverable := recoverable_read_fetch unlatched (by simp) (fetchWord_eq_error_iff.mp fails)
    exact recoverable.of_same rfl rfl fun _ _ => rfl
  · exact (restorable_fetchWord unlatched succeeds).fetchExtension_aborted rest

/-! ## The mark -/

/-- A mark notes nothing of what it does to the stack pointer before it loads
through it, so a handler finds the stack pointer at the end of the marked
words. -/
theorem Restorable.mark_trapped {before machine : Machine δ} {instruction : Instruction}
    {pipeline : Pipeline} {index : Nat} {kind : TrapClass}
    (restorable : Restorable before 0 machine) (isMark : instruction.opcode = .mark)
    (encoded : instruction.encode = .ok pipeline)
    (trapped : (machine.execute pipeline).result = .ok (.trapped index kind)) :
    Recoverable (before.setReg .sp (machine.pc + 2 * instruction.count))
      (machine.execute pipeline).machine := by
  have program : pipeline.ops = instruction.mark := by
    rw [Pipeline.ofOps_eq_ok_iff.mp encoded, Instruction.program, isMark]
  have ends : Datapath.run { machine := machine, signals := .quiet } 0 instruction.mark =
      (.ok (.trapped index kind), (machine.execute pipeline).machine) := by
    rw [← program]
    exact Prod.ext trapped rfl
  let displaced := machine.setReg .sp (machine.pc + 2 * instruction.count)
  let saved := displaced.setReg .t1 (displaced.reg .r5)
  have moved : Datapath.run { machine := machine, signals := .quiet } 0 instruction.mark =
      Datapath.run { machine := saved, signals := .quiet } 2
        [.load .t0 .sp .word .data, .step .sp 2, .move .r5 .t0, .jump instruction.pc .t1] := rfl
  have restorableSaved : Restorable
      (before.setReg .sp (machine.pc + 2 * instruction.count)) 0 saved := by
    constructor
    · constructor
      · change machine.mmu.mmr2 = (before.setReg .sp _).reg .pc
        rw [reg_setReg, if_neg (by decide)]
        exact restorable.address
      · intro reg restored
        have earlier := restorable.registers reg restored
        have notScratch : Reg.t1 ≠ reg := by
          rintro rfl
          contradiction
        change saved.reg reg - machine.mmu.mmr1.total reg.field = _
        rw [restorable.blank rfl, Mmr1.total_cleared] at earlier ⊢
        rw [reg_setReg, if_neg notScratch, reg_setReg, reg_setReg, ← earlier]
        split
        · exact BitVec.sub_zero _
        · rfl
    · exact restorable.psw
    · exact restorable.unlatched
    · exact restorable.blank
    · exact restorable.room
  rw [moved] at ends
  obtain ⟨gathered, op, rest, middle, split, steps, -, raises, final⟩ :=
    Datapath.run_trapped_iff.mp ends
  have raising := MicroOp.canRaise_of_raises raises
  cases gathered with
  | nil =>
      cases steps
      rw [← final]
      exact restorableSaved.raises raises
  | cons first gathered =>
      have later : op ∈ [MicroOp.step .sp 2, .move .r5 .t0, .jump instruction.pc .t1] := by
        rw [List.tail_eq_of_cons_eq split]
        simp
      simp only [List.mem_cons, List.not_mem_nil, or_false] at later
      rcases later with rfl | rfl | rfl <;> contradiction

omit [Bus δ] in
/-- With another stack pointer to go back to, the registers are recoverable
only if it is the same after all. -/
theorem Recoverable.setReg_sp_iff {before after : Machine δ} {value : Word}
    (displaced : Recoverable (before.setReg .sp value) after) :
    Recoverable before after ↔ before.reg .sp = value := by
  have pointer := displaced.registers .sp rfl
  rw [reg_setReg, if_pos rfl] at pointer
  constructor
  · intro recoverable
    exact (recoverable.registers .sp rfl).symm.trans pointer
  · intro same
    constructor
    · rw [displaced.address]
      change (before.setReg .sp value).reg .pc = before.reg .pc
      rw [reg_setReg, if_neg (by decide)]
    · intro reg restored
      rw [displaced.registers reg restored, reg_setReg]
      split
      · rename_i isPointer
        rw [← isPointer, same]
      · rfl

/-! ## Steps that end in an abort -/

/-- The instruction of the next step meets a memory management abort. -/
inductive AbortsInStep (machine : Machine δ) : Prop
  | fetch {cause : AbortCause} {fetched : Machine δ}
      (aborted : machine.poll.startInstruction.fetch = (.aborted (.mmuAbort cause), fetched)) :
      AbortsInStep machine
  | execution {instruction : Instruction} {fetched : Machine δ} {pipeline : Pipeline}
      {index : Nat}
      (ready : machine.poll.startInstruction.fetch = (.ready instruction, fetched))
      (encoded : instruction.encode = .ok pipeline)
      (trapped : (fetched.execute pipeline).result = .ok (.trapped index .mmuAbort)) :
      AbortsInStep machine

/-- The machine right before a step looks for an exception to serve. -/
def beforeService (machine : Machine δ) : Machine δ :=
  let begun := machine.poll.startInstruction
  match begun.fetchAndPerform with
  | (.error _, machine) => machine
  | (.ok resumed, machine) => machine.traceAfter (begun.psw.trace || resumed)

omit [Bus δ] in
theorem recoverable_traceAfter_iff {before after : Machine δ} {traced : Bool} :
    Recoverable before (after.traceAfter traced) ↔ Recoverable before after := by
  unfold traceAfter
  split
  · constructor
    · intro recoverable
      exact ⟨recoverable.address, recoverable.registers⟩
    · intro recoverable
      exact ⟨recoverable.address, recoverable.registers⟩
  · rfl

theorem perform_of_trapped {machine : Machine δ} {instruction : Instruction}
    {pipeline : Pipeline} {index : Nat} {kind : TrapClass}
    (encoded : instruction.encode = .ok pipeline)
    (trapped : (machine.execute pipeline).result = .ok (.trapped index kind)) :
    ∃ resumed, machine.perform instruction =
      (.ok resumed, (machine.execute pipeline).machine) := by
  unfold perform
  rw [encoded]
  dsimp only
  generalize machine.execute pipeline = execution at trapped ⊢
  obtain ⟨result, pipeline, machine⟩ := execution
  cases trapped
  exact ⟨_, rfl⟩

/-- An instruction that a memory management abort cut short can be run again,
with one exception: a mark can be only if the stack pointer stood at the end
of the marked words before. -/
theorem recoverable_iff_of_abortsInStep (machine : Machine δ)
    (running : machine.runState = .running) (unlatched : machine.mmu.frozen = false)
    (aborts : machine.AbortsInStep) :
    machine.step = machine.beforeService.finish ∧
      (Recoverable machine machine.beforeService ↔
        ∀ instruction fetched,
          machine.poll.startInstruction.fetch = (.ready instruction, fetched) →
          instruction.opcode = .mark →
          machine.reg .sp = machine.pc + 2 + 2 * instruction.count) := by
  cases aborts with
  | @fetch cause fetched aborted =>
      have performed : machine.poll.startInstruction.fetchAndPerform = (.ok false, fetched) := by
        rw [fetchAndPerform, aborted]
      have recoverable := recoverable_fetch_aborted unlatched aborted
      constructor
      · simp only [step, running, cycle, beforeService, performed]
      · simp only [beforeService, performed, recoverable_traceAfter_iff, aborted]
        simp [recoverable]
  | @execution instruction fetched pipeline index ready encoded trapped =>
      obtain ⟨resumed, performed⟩ := perform_of_trapped encoded trapped
      replace performed : machine.poll.startInstruction.fetchAndPerform =
          (.ok resumed, (fetched.execute pipeline).machine) := by
        rw [fetchAndPerform, ready]
        exact performed
      have restorable := restorable_fetch unlatched ready
      constructor
      · simp only [step, running, cycle, beforeService, performed]
      · simp only [beforeService, performed, recoverable_traceAfter_iff, ready]
        by_cases isMark : instruction.opcode = .mark
        · have pc : fetched.pc = machine.pc + 2 := by
            obtain ⟨samePc, length, moved⟩ := pc_fetch ready
            have noExtension : instruction.extensionLength = 0 := by
              simp [Instruction.extensionLength, Instruction.operands, Instruction.format, isMark,
                Opcode.format]
            rw [moved, Instruction.nextPc, samePc, length, noExtension]
            exact BitVec.add_zero _
          have displaced := restorable.mark_trapped isMark encoded trapped
          rw [displaced.setReg_sp_iff, pc]
          constructor
          · rintro same _ _ ⟨⟩ _
            exact same
          · intro same
            exact same instruction fetched rfl isMark
        · constructor
          · rintro _ _ _ ⟨⟩ marks
            contradiction
          · intro _
            exact restorable.execute_trapped isMark encoded trapped

/-- `MARK 77` in a user page of one block, which ends before the marked words
do. -/
def markBeyondPage : Machine NoDevices :=
  { ofConfig { Config.default with memoryBytes := 2 } .none with
    psw := { Psw.ofBits 0 with mode := .user }
    ram := { bytes := #[0o077, 0o015] }
    mmu :=
      { Mmu.new .pdp1170 with
        mmr0 := { Mmr0.cleared with enabled := true }
        pages := PageTable.cleared.set
          { mode := .user, space := .instruction, number := 0 }
          { descriptor := .loaded 0o6, base := 0 } } }

/-- The instruction that `markBeyondPage` fetches. -/
def markWords : Instruction where
  pc := 0
  word := 0o006477
  opcode := .mark
  extension := []

/-- The program of `markWords`. -/
def markWordsPipeline : Pipeline where
  ops := markWords.program
  length_le := by decide

/-- The mark leaves the stack pointer at 200 and notes nothing, so the machine
cannot tell where the stack pointer was. -/
theorem not_recoverable_mark :
    markBeyondPage.beforeService.reg .sp = 0o200 ∧
      markBeyondPage.beforeService.mmu.mmr1 = .cleared ∧
      ¬ Recoverable markBeyondPage markBeyondPage.beforeService := by
  have ready : markBeyondPage.poll.startInstruction.fetch =
      (.ready markWords, markBeyondPage.poll.startInstruction.fetch.2) := Prod.ext rfl rfl
  have trapped : (markBeyondPage.poll.startInstruction.fetch.2.execute markWordsPipeline).result =
      .ok (.trapped 2 .mmuAbort) := rfl
  have encoded : markWords.encode = .ok markWordsPipeline := Pipeline.ofOps_eq_ok_iff.mpr rfl
  obtain ⟨-, recoverable⟩ := recoverable_iff_of_abortsInStep markBeyondPage rfl rfl
    (.execution ready encoded trapped)
  refine ⟨rfl, rfl, ?_⟩
  intro recovers
  have pointer := recoverable.mp recovers markWords _ ready rfl
  contradiction

end Machine

end Pdp11
