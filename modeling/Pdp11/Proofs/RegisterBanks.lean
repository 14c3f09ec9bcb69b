import Pdp11.Proofs.Containment
import Pdp11.Proofs.RegisterWrites
import Pdp11.Proofs.StatusOperations

/-!
# Registers that an instruction does not reach

The status word selects one set of general registers and the stack pointer of
one mode, and instructions name no others. Micro-operations find registers by
the status word of the moment; what changes the selection in mid-instruction is
followed only by writes to registers that exist once. One instruction moves a
word to the stack pointer of the previous mode.
-/

namespace Pdp11

universe u

/-- Both status words select the same registers. -/
structure Psw.SameBanks (first second : Psw) : Prop where
  mode : second.mode = first.mode
  previousMode : second.previousMode = first.previousMode
  alternateSet : second.alternateSet = first.alternateSet

theorem Psw.SameBanks.refl (psw : Psw) : SameBanks psw psw where
  mode := rfl
  previousMode := rfl
  alternateSet := rfl

theorem Psw.SameBanks.trans {first second third : Psw} (head : SameBanks first second)
    (tail : SameBanks second third) : SameBanks first third where
  mode := tail.mode.trans head.mode
  previousMode := tail.previousMode.trans head.previousMode
  alternateSet := tail.alternateSet.trans head.alternateSet

/-- The cell is one that a register name stands for under `psw`. -/
def Cell.isSelected (psw : Psw) : Cell → Bool
  | general alternate _ => alternate = psw.alternateSet
  | stackPointer mode => mode = psw.mode
  | programCounter | scratch _ => true

/-- The register exists once per register set or mode. -/
def Reg.isBanked (reg : Reg) : Bool :=
  reg.isGeneral && reg ≠ .pc

theorem Reg.isSelected_cell (reg : Reg) {first second : Psw} (same : first.SameBanks second) :
    (reg.cell second).isSelected first := by
  cases reg <;> simp [cell, Cell.isSelected, same.mode, same.alternateSet]

theorem Reg.isSelected_cell_of_not_banked {reg : Reg} (single : reg.isBanked = false)
    (first second : Psw) : (reg.cell second).isSelected first := by
  cases reg <;> first | rfl | contradiction

namespace MicroOp

/-- The micro-operation may select other registers. -/
def switchesBanks : MicroOp → Bool
  | loadPsw _ rule => rule ≠ .mtps
  | forceKernel => true
  | _ => false

/-- The micro-operation writes a register that exists more than once. -/
def writesBank : MicroOp → Bool
  | writePreviousSp _ => true
  | op => op.destinations.any Reg.isBanked

end MicroOp

/-- In `ops` nothing that writes a banked register follows what may select other
registers. -/
def SwitchesLast (ops : List MicroOp) : Prop :=
  ops.Pairwise fun earlier later => earlier.switchesBanks = false ∨ later.writesBank = false

namespace SwitchesLast

variable {op : MicroOp} {ops : List MicroOp}

theorem of_keeps (keeps : ∀ op ∈ ops, op.switchesBanks = false) : SwitchesLast ops :=
  List.Pairwise.imp_of_mem (fun earlierMem _ _ => .inl (keeps _ earlierMem))
    (List.pairwise_of_forall fun _ _ => trivial)

theorem of_singles (singles : ∀ op ∈ ops, op.writesBank = false) : SwitchesLast ops :=
  List.Pairwise.imp_of_mem (fun _ laterMem _ => .inr (singles _ laterMem))
    (List.pairwise_of_forall fun _ _ => trivial)

theorem append {first second : List MicroOp} (keeps : ∀ op ∈ first, op.switchesBanks = false)
    (order : SwitchesLast second) : SwitchesLast (first ++ second) := by
  rw [SwitchesLast, List.pairwise_append]
  exact ⟨of_keeps keeps, order, fun earlier earlierMem _ _ => .inl (keeps earlier earlierMem)⟩

theorem of_cons (order : SwitchesLast (op :: ops)) : SwitchesLast ops :=
  List.Pairwise.of_cons order

end SwitchesLast

namespace Instruction

variable (instruction : Instruction)

/-- A return loads the status word when both words are off the stack; nothing
but the program counter is written after that. -/
theorem switchesLast_returnFromInterrupt {inhibit : List MicroOp}
    (singles : ∀ op ∈ inhibit, op.writesBank = false) :
    SwitchesLast (instruction.returnFromInterrupt inhibit) := by
  have rest : SwitchesLast (inhibit ++ [.jump instruction.pc .t0]) := by
    apply SwitchesLast.of_singles
    intro op opMem
    rcases List.mem_append.mp opMem with inhibits | jumps
    · exact singles op inhibits
    · rw [List.mem_singleton.mp jumps]
      rfl
  unfold returnFromInterrupt
  rw [List.append_assoc]
  apply SwitchesLast.append
  · simp [MicroOp.pop_eq, MicroOp.switchesBanks]
  · rw [List.cons_append]
    refine List.Pairwise.cons (fun later laterMem => .inr ?_) rest
    rcases List.mem_append.mp laterMem with inhibits | jumps
    · exact singles later inhibits
    · rw [List.mem_singleton.mp jumps]
      rfl

/-- Only a return from an interrupt selects other registers. -/
theorem switchesBanks_program (notRti : instruction.opcode ≠ .rti)
    (notRtt : instruction.opcode ≠ .rtt) :
    ∀ op ∈ instruction.program, op.switchesBanks = false := by
  intro op opMem
  cases isStatusOp : op.isStatusOp with
  | false => cases op <;> first | rfl | contradiction
  | true =>
      cases instruction.statusOpOf_program opMem isStatusOp with
      | ofReturn returns =>
          rcases returns with rti | rtt
          · exact absurd rti notRti
          · exact absurd rtt notRtt
      | ofMtps | ofSpl priority | ofConditionCodes set mask | ofPop pops => rfl

theorem switchesLast_program : SwitchesLast instruction.program := by
  by_cases rti : instruction.opcode = .rti
  · simp only [program, rti]
    exact instruction.switchesLast_returnFromInterrupt (by simp)
  by_cases rtt : instruction.opcode = .rtt
  · simp only [program, rtt]
    exact instruction.switchesLast_returnFromInterrupt (List.forall_mem_singleton.mpr rfl)
  exact .of_keeps (instruction.switchesBanks_program rti rtt)

end Instruction

/-! ## Micro-operations -/

variable {δ : Type u} [Bus δ]

namespace MicroOp

/-- The status word selects the same registers until it is loaded, or stored to
among the device registers. -/
theorem sameBanks_effect {op : MicroOp} (keeps : op.switchesBanks = false)
    (datapath : Datapath δ) :
    (op.effect datapath).datapath.machine.pswWritten ∨
      datapath.machine.psw.SameBanks (op.effect datapath).datapath.machine.psw := by
  cases op
  case load dst address width space =>
    rw [machine_load, (datapath.machine.accessed_loadSelected _ width space).psw]
    exact .inr (.refl _)
  case store address src width space =>
    have wrote := datapath.machine.wrote_write (datapath.machine.selectedMode space.mode)
      (datapath.reg address) (datapath.reg src) width
    rw [machine_store]
    rcases wrote.psw with written | same
    · exact .inl written
    · exact .inr (by rw [Machine.storeSelected, same]; exact .refl _)
  case loadPsw src rule =>
    have isMove : rule = .mtps := by simpa [switchesBanks] using keeps
    subst isMove
    refine .inr ?_
    simp only [effect, Datapath.proceed, Machine.loadedPsw, Psw.moved]
    split <;> exact ⟨rfl, rfl, rfl⟩
  case forceKernel => contradiction
  case stackGuard =>
    simp only [effect, Machine.guardStack]
    split
    · exact .inr (.refl _)
    · split <;> exact .inr (.refl _)
  case halt | wait | reset | div | evalFlags | setPriority =>
    simp only [effect, Datapath.proceed]
    split <;> exact .inr ⟨rfl, rfl, rfl⟩
  all_goals exact .inr ⟨rfl, rfl, rfl⟩

end MicroOp

/-! ## Runs -/

namespace Datapath

/-- Unless the instruction has stored to the status word, `cell` has the word it
had, and the status word selects what it selected for as long as `ops` writes
a banked register. -/
def Spares (before : Machine δ) (cell : Cell) (datapath : Datapath δ) (ops : List MicroOp) :
    Prop :=
  datapath.machine.pswWritten ∨
    datapath.machine.registers.get cell = before.registers.get cell ∧
      (before.psw.SameBanks datapath.machine.psw ∨ ∀ op ∈ ops, op.writesBank = false)

namespace Spares

variable {before : Machine δ} {cell : Cell} {datapath : Datapath δ} {op : MicroOp}
  {ops rest : List MicroOp}

theorem next (spares : Spares before cell datapath (op :: rest)) (order : SwitchesLast (op :: rest))
    (unselected : cell.isSelected before.psw = false)
    (notPrevious : ∀ src, op = .writePreviousSp src →
      cell ≠ .stackPointer before.psw.previousMode) :
    Spares before cell (op.effect datapath).commit rest := by
  rcases spares with written | ⟨same, selection⟩
  · exact .inl (op.pswWritten_effect written)
  have kept : (op.effect datapath).commit.machine.registers.get cell =
      before.registers.get cell := by
    rw [Effect.get_commit, MicroOp.registers_effect, same]
    intro write posted isCell
    apply Bool.eq_false_iff.mp unselected
    rw [← isCell]
    rcases MicroOp.cell_of_mem_writes posted with ⟨reg, named, target⟩ | ⟨src, rfl, target⟩
    · rw [target]
      rcases selection with sameBanks | singles
      · exact reg.isSelected_cell sameBanks
      · apply Reg.isSelected_cell_of_not_banked
        have noBank := singles op List.mem_cons_self
        cases op
        case writePreviousSp => cases named
        all_goals exact List.any_eq_false.mp noBank reg named |> Bool.eq_false_iff.mpr
    · rcases selection with sameBanks | singles
      · exact absurd (isCell.symm.trans (target.trans (by rw [sameBanks.previousMode])))
          (notPrevious src rfl)
      · exact absurd (singles _ List.mem_cons_self) (by simp [MicroOp.writesBank])
  cases switches : op.switchesBanks with
  | true =>
      refine .inr ⟨kept, .inr fun later laterMem => ?_⟩
      exact (List.rel_of_pairwise_cons order laterMem).resolve_left (by simp [switches])
  | false =>
      rcases MicroOp.sameBanks_effect switches datapath with written | sameHere
      · exact .inl written
      · refine .inr ⟨kept, selection.imp (·.trans sameHere) ?_⟩
        exact fun singles later laterMem => singles later (List.mem_cons_of_mem _ laterMem)

omit [Bus δ] in
theorem finish (spares : Spares before cell datapath ops)
    (unwritten : datapath.machine.pswWritten = false) :
    datapath.machine.registers.get cell = before.registers.get cell := by
  rcases spares with written | ⟨same, -⟩
  · rw [unwritten] at written
    contradiction
  · exact same

/-- A run leaves alone the cells that none of its micro-operations can name. -/
theorem run (spares : Spares before cell datapath ops) (order : SwitchesLast ops)
    (unselected : cell.isSelected before.psw = false)
    (notPrevious : ∀ src, .writePreviousSp src ∈ ops →
      cell ≠ .stackPointer before.psw.previousMode)
    (index : Nat) (unwritten : (datapath.run index ops).2.pswWritten = false) :
    (datapath.run index ops).2.registers.get cell = before.registers.get cell := by
  induction ops generalizing datapath index with
  | nil => exact spares.finish unwritten
  | cons op rest ih =>
      have next := spares.next order unselected fun src isWrite =>
        notPrevious src (isWrite ▸ List.mem_cons_self)
      rw [run_cons] at unwritten ⊢
      split <;> rename_i disposition <;> rw [disposition] at unwritten
      · exact ih next order.of_cons
          (fun src writes => notPrevious src (List.mem_cons_of_mem _ writes)) _ unwritten
      · exact next.finish unwritten
      · exact next.finish unwritten

end Spares

end Datapath

/-! ## Instructions -/

namespace Datapath

theorem registers_run_evalFlags (datapath : Datapath δ) (index : Nat) (rule : FlagRule)
    (value : Reg) (width : Width) :
    (datapath.run index [.evalFlags rule value width]).2.registers =
      datapath.machine.registers := by
  rw [run_cons]
  cases written : datapath.machine.pswWritten <;> simp only [MicroOp.effect, written] <;> rfl

theorem stackPointer_run_writePreviousSp (datapath : Datapath δ) (index : Nat) (src : Reg)
    (rule : FlagRule) (value : Reg) (width : Width) :
    (datapath.run index [.writePreviousSp src, .evalFlags rule value width]).2.stackPointer
      datapath.machine.psw.previousMode = datapath.reg src := by
  have written : datapath.Step (.writePreviousSp src) _ := ⟨rfl, rfl⟩
  rw [written.run_cons, Machine.stackPointer, registers_run_evalFlags]
  change RegisterFile.get (RegisterFile.set _ _ _) _ = _
  rw [RegisterFile.get_set, if_pos rfl]

/-- The pop to the stack pointer of the previous mode: the word at the top of
the stack goes there, or nothing at all if it cannot be read. -/
theorem stackPointer_run_pop (datapath : Datapath δ) (index : Nat) (rule : FlagRule)
    (result : Reg) (width : Width) :
    (datapath.run index
        [.load .t0 .sp .word .data, .step .sp 2, .writePreviousSp .t0,
          .evalFlags rule result width]).2.stackPointer datapath.machine.psw.previousMode =
      match (datapath.machine.read datapath.machine.psw.mode .read (datapath.reg .sp) .word).1 with
      | .ok word => word
      | .error _ => datapath.machine.stackPointer datapath.machine.psw.previousMode := by
  have accessed := datapath.machine.accessed_loadSelected (datapath.reg .sp) .word .data
  change _ = match (datapath.machine.loadSelected (datapath.reg .sp) .word .data).1 with
    | .ok word => word
    | .error _ => _
  cases outcome : datapath.machine.loadSelected (datapath.reg .sp) .word .data with
  | mk answer loaded =>
      rw [outcome] at accessed
      cases answer with
      | error error =>
          rw [run_cons]
          simp only [MicroOp.effect, outcome, stop]
          change loaded.registers.get _ = datapath.machine.registers.get _
          rw [accessed.registers]
      | ok word =>
          let popped := ((MicroOp.step .sp 2).effect
            { datapath with machine := loaded.setReg .t0 word }).commit
          have steps : Steps datapath [.load .t0 .sp .word .data, .step .sp 2] popped :=
            .cons (step_load outcome) (.single ⟨rfl, rfl⟩)
          have samePrevious : popped.machine.psw.previousMode =
              datapath.machine.psw.previousMode := by
            rw [← accessed.psw]
            rfl
          have value : popped.reg .t0 = word := by
            rw [reg, MicroOp.reg_commit_step]
            simp
          have cut := steps.run_append index [.writePreviousSp .t0, .evalFlags rule result width]
          simp only [List.cons_append, List.nil_append] at cut
          rw [cut, ← samePrevious, stackPointer_run_writePreviousSp]
          exact value

end Datapath

namespace Machine

/-- An instruction that does not store to the status word leaves alone the
register set and the stack pointers that were not selected when it started. One
form of the move to the previous space writes the stack pointer of the previous
mode, with the word at the top of the stack. -/
theorem execute_keepsBanks (machine : Machine δ) (instruction : Instruction) :
    ∃ pipeline, instruction.encode = .ok pipeline ∧
      let after := (machine.execute pipeline).machine
      after.pswWritten = false →
        (∀ number, after.registers.get (.general (!machine.psw.alternateSet) number) =
          machine.registers.get (.general (!machine.psw.alternateSet) number)) ∧
        (∀ mode, mode ≠ machine.psw.mode →
          ¬ (instruction.popsToPreviousStack ∧ mode = machine.psw.previousMode) →
            after.stackPointer mode = machine.stackPointer mode) ∧
        (instruction.popsToPreviousStack →
          after.stackPointer machine.psw.previousMode =
            match (machine.read machine.psw.mode .read (machine.reg .sp) .word).1 with
            | .ok word => word
            | .error _ => machine.stackPointer machine.psw.previousMode) := by
  obtain ⟨pipeline, encoded, program⟩ := instruction.exists_encode
  refine ⟨pipeline, encoded, ?_⟩
  intro after unwritten
  have spares (cell : Cell) :
      Datapath.Spares machine cell { machine := machine, signals := .quiet } pipeline.ops :=
    .inr ⟨rfl, .inl (.refl _)⟩
  have order : SwitchesLast pipeline.ops := program ▸ instruction.switchesLast_program
  have pops (src : Reg) (writes : .writePreviousSp src ∈ pipeline.ops) :
      instruction.popsToPreviousStack := by
    rw [program] at writes
    cases instruction.statusOpOf_program writes rfl with
    | ofPop pops => exact pops
  refine ⟨fun number => ?_, fun mode other notPops => ?_, fun popping => ?_⟩
  · apply (spares _).run order _ _ 0 unwritten
    · cases set : machine.psw.alternateSet <;> simp [Cell.isSelected, set]
    · simp
  · apply (spares _).run order _ _ 0 unwritten
    · simp [Cell.isSelected, other]
    · rintro src writes ⟨⟩
      exact notPops ⟨pops src writes, rfl⟩
  · have program : pipeline.ops = _ :=
      program.trans (instruction.program_of_popsToPreviousStack popping)
    have pop := Datapath.stackPointer_run_pop { machine := machine, signals := .quiet } 0
      .logical .t0 .word
    rw [← program] at pop
    exact pop

/-- A kernel about to return to a user program at 1000 that has the second
register set. -/
def returningToUser : Machine NoDevices :=
  { ofConfig Config.default .none with
    registers := (RegisterFile.cleared.set (.general true 0) 0o1111).set (.stackPointer .user) 0o2222
    ram := { bytes := #[0, 2, 0, 0o370] } }

/-- `RTI` -/
def returnToUser : Instruction where
  pc := 0
  word := 0o000002
  opcode := .rti
  extension := []

/-- The user program finds its own registers. -/
theorem keepsBanks_returnToUser :
    ∃ pipeline, returnToUser.encode = .ok pipeline ∧
      let after := (returningToUser.execute pipeline).machine
      after.pswWritten = false ∧ after.pc = 0o1000 ∧ after.psw.mode = .user ∧
        after.reg .r0 = 0o1111 ∧ after.reg .sp = 0o2222 := by
  obtain ⟨pipeline, encoded, kept⟩ := execute_keepsBanks returningToUser returnToUser
  have program : pipeline.ops = returnToUser.program := Pipeline.ofOps_eq_ok_iff.mp encoded
  have ran : (returningToUser.execute pipeline).machine.pswWritten = false ∧
      (returningToUser.execute pipeline).machine.pc = 0o1000 ∧
      (returningToUser.execute pipeline).machine.psw = .ofBits 0o174000 := by
    simp only [execute, program]
    exact ⟨rfl, rfl, rfl⟩
  obtain ⟨unwritten, pc, psw⟩ := ran
  obtain ⟨generals, pointers, -⟩ := kept unwritten
  refine ⟨pipeline, encoded, unwritten, pc, by rw [psw]; rfl, ?_, ?_⟩
  · rw [reg, psw]
    exact generals 0
  · rw [reg, psw]
    exact pointers .user (by decide) (by decide)

end Machine

end Pdp11
