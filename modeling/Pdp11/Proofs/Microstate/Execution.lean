import Pdp11.Proofs.RegisterWrites
import Pdp11.Proofs.ScratchUse

/-!
# Micro-operations over other scratch registers

A micro-operation has the same effect over two register files that agree on
what it reads. So a program that reads no scratch register before it has
written it runs alike whatever earlier instructions left there, and whatever
the predictor has learned.
-/

namespace Pdp11

universe u

variable {δ : Type u}

/-! ## Micro-operations -/

/-- Register files that agree but for scratch registers. -/
def RegisterFile.AgreesOutside (first second : RegisterFile) : Prop :=
  ∀ cell : Cell, cell.isScratch = false → second.get cell = first.get cell

theorem RegisterFile.AgreesOutside.get_cell {first second : RegisterFile}
    (agrees : first.AgreesOutside second) {reg : Reg} (general : reg.isGeneral) (psw : Psw) :
    second.get (reg.cell psw) = first.get (reg.cell psw) := by
  apply agrees
  rw [Reg.isScratch_cell, general]
  rfl

namespace Datapath

/-- The datapath with other registers and another history of branches. -/
def withMicrostate (datapath : Datapath δ) (registers : RegisterFile)
    (predictor : BranchPredictor) : Datapath δ :=
  { datapath with machine := datapath.machine.withMicrostate registers predictor }

end Datapath

namespace Effect

/-- The effect on a datapath with other registers and another history of branches. -/
def withMicrostate (effect : Effect δ) (registers : RegisterFile)
    (predictor : BranchPredictor) : Effect δ :=
  { effect with datapath := effect.datapath.withMicrostate registers predictor }

/-- `registers` after the posted writes. -/
def written (effect : Effect δ) (registers : RegisterFile) : RegisterFile :=
  (effect.writes.take maxWrites).foldl (fun registers write => registers.set write.1 write.2)
    registers

theorem commit_withMicrostate (effect : Effect δ) (registers : RegisterFile)
    (predictor : BranchPredictor) :
    (effect.withMicrostate registers predictor).commit =
      effect.commit.withMicrostate (effect.written registers) predictor :=
  rfl

end Effect

/-- Files agree on a cell after the same writes if they did before or the cell is
written. -/
theorem RegisterFile.get_foldl_set {cell : Cell} (writes : List (Cell × Word))
    {first second : RegisterFile}
    (decided : second.get cell = first.get cell ∨ cell ∈ writes.map Prod.fst) :
    (writes.foldl (fun registers write => registers.set write.1 write.2) second).get cell =
      (writes.foldl (fun registers write => registers.set write.1 write.2) first).get cell := by
  induction writes generalizing first second with
  | nil =>
      rcases decided with same | written
      · exact same
      · contradiction
  | cons write rest ih =>
      apply ih
      by_cases isWritten : write.1 = cell
      · left
        simp [isWritten]
      · rcases decided with same | written
        · left
          simp [isWritten, same]
        · right
          exact List.mem_of_ne_of_mem (Ne.symm isWritten) written

variable [Bus δ]

namespace MicroOp

/-- A micro-operation has the same effect over registers that agree on what it
reads. Only what the predictor learns can differ. -/
theorem exists_effect_withMicrostate {op : MicroOp} {datapath : Datapath δ}
    {registers : RegisterFile} (predictor : BranchPredictor)
    (agrees : datapath.machine.registers.AgreesOutside registers)
    (reads : ∀ reg ∈ op.sources,
      (datapath.withMicrostate registers predictor).reg reg = datapath.reg reg) :
    ∃ learned, op.effect (datapath.withMicrostate registers predictor) =
      (op.effect datapath).withMicrostate registers learned := by
  cases op
  case branch condition pc target =>
    cases condition with
    | flags => exact ⟨_, rfl⟩
    | registerNonZero counter =>
        have counted := reads counter List.mem_cons_self
        simp only [effect, BranchCondition.holds, counted]
        exact ⟨_, rfl⟩
  case jump pc target =>
    have value := reads target List.mem_cons_self
    simp only [effect, value]
    exact ⟨_, rfl⟩
  -- No other micro-operation teaches the predictor anything.
  all_goals refine ⟨predictor, ?_⟩
  case halt | wait | reset | setPriority =>
    have mode : (datapath.withMicrostate registers predictor).machine.inKernel =
        datapath.machine.inKernel := rfl
    simp only [effect, mode]
    cases datapath.machine.inKernel <;> rfl
  case load dst address width space =>
    have pointer := reads address List.mem_cons_self
    have alike : (datapath.withMicrostate registers predictor).machine.loadSelected
        (datapath.reg address) width space = _ :=
      datapath.machine.loadSelected_withMicrostate registers predictor _ _ _
    simp only [effect, pointer, alike]
    generalize datapath.machine.loadSelected _ _ _ = outcome
    rcases outcome with ⟨answer, loaded⟩
    cases answer <;> rfl
  case store address src width space =>
    have pointer := reads address List.mem_cons_self
    have value := reads src (List.mem_cons_of_mem _ List.mem_cons_self)
    have alike : (datapath.withMicrostate registers predictor).machine.storeSelected
        (datapath.reg address) (datapath.reg src) width space = _ :=
      datapath.machine.storeSelected_withMicrostate registers predictor _ _ _ _
    simp only [effect, pointer, value, alike]
    generalize datapath.machine.storeSelected _ _ _ _ = outcome
    rcases outcome with ⟨answer, stored⟩
    cases answer <;> rfl
  case step reg amount =>
    have value := reads reg List.mem_cons_self
    simp only [effect, value]
    cases reg.isGeneral <;> rfl
  case readPreviousSp dst =>
    have pointer : (datapath.withMicrostate registers predictor).machine.stackPointer
        datapath.machine.psw.previousMode =
          datapath.machine.stackPointer datapath.machine.psw.previousMode := agrees _ rfl
    have psw : (datapath.withMicrostate registers predictor).machine.psw =
        datapath.machine.psw := rfl
    simp only [effect, psw, pointer]
    rfl
  case loadPsw src rule =>
    cases rule with
    | ordinary | mtps =>
        have value := reads src List.mem_cons_self
        simp only [effect, value]
        rfl
    | exception interrupted =>
        have value := reads src List.mem_cons_self
        have status : (datapath.withMicrostate registers predictor).machine.reg interrupted =
            datapath.machine.reg interrupted :=
          reads interrupted (List.mem_cons_of_mem _ List.mem_cons_self)
        simp only [effect, value, Machine.loadedPsw, status]
        rfl
  case evalFlags rule result width =>
    have value := reads result List.mem_cons_self
    have written : (datapath.withMicrostate registers predictor).machine.pswWritten =
        datapath.machine.pswWritten := rfl
    simp only [effect, value, written]
    cases datapath.machine.pswWritten <;> rfl
  case div high low divisor =>
    simp only [sources, List.mem_cons, List.not_mem_nil, or_false, forall_eq_or_imp,
      forall_eq] at reads
    simp only [effect, reads]
    cases divide (datapath.reg high) (datapath.reg low) (datapath.reg divisor) <;> rfl
  case stackGuard =>
    have mode : (datapath.withMicrostate registers predictor).machine.inKernel =
        datapath.machine.inKernel := rfl
    have pointer : (datapath.withMicrostate registers predictor).machine.reg .sp =
        datapath.machine.reg .sp := reads .sp List.mem_cons_self
    simp only [effect, Machine.guardStack, mode, pointer]
    cases datapath.machine.inKernel && decide (datapath.machine.reg .sp < stackRedZone)
    · cases datapath.machine.inKernel && decide (datapath.machine.reg .sp < stackLimit) <;> rfl
    · rfl
  all_goals
    simp only [sources, List.mem_cons, List.not_mem_nil, or_false, forall_eq_or_imp, forall_eq,
      false_imp_iff, implies_true] at reads
    simp only [effect, reads]
    rfl

/-- If the instruction goes on, the scratch registers that the micro-operation
names are written, but for those that it only read. -/
theorem written_or_read {op : MicroOp} {datapath : Datapath δ} {reg : Reg}
    (goesOn : (op.effect datapath).disposition = .next) (named : reg ∈ op.destinations)
    (scratch : reg.isGeneral = false) (psw : Psw) :
    reg.cell psw ∈ ((op.effect datapath).writes.take maxWrites).map Prod.fst ∨
      reg ∈ op.sources := by
  cases op
  case load dst address width space =>
    rw [List.mem_singleton.mp named] at scratch ⊢
    simp only [effect] at goesOn ⊢
    split at goesOn
    · left
      rw [Reg.cell_of_scratch scratch psw]
      exact List.mem_cons_self
    · contradiction
  case div high low divisor =>
    right
    simp only [destinations, List.mem_cons, List.not_mem_nil, or_false] at named
    rcases named with rfl | rfl <;> simp [sources]
  case branch | jump => contradiction
  case mul | shiftArithPair =>
    left
    rw [Reg.cell_of_scratch scratch psw datapath.machine.psw]
    simp only [destinations, List.mem_cons, List.not_mem_nil, or_false] at named
    rcases named with rfl | rfl <;>
      simp [effect, Datapath.postWide, Datapath.postWith, Datapath.post, maxWrites]
  case move | loadImm | addImm | step | insertByte | signExtendByte | readPreviousSp | readPsw |
      alu | shift | swab | signExtend | shiftArith =>
    left
    rw [Reg.cell_of_scratch scratch psw datapath.machine.psw, List.mem_singleton.mp named]
    simp [effect, Datapath.postWith, Datapath.post, maxWrites]
  all_goals contradiction

end MicroOp

/-! ## Runs -/

namespace Effect

variable {effect : Effect δ} {registers : RegisterFile}

omit [Bus δ] in
theorem get_written {cell : Cell}
    (decided : registers.get cell = effect.datapath.machine.registers.get cell ∨
      cell ∈ (effect.writes.take maxWrites).map Prod.fst) :
    (effect.written registers).get cell = effect.commit.machine.registers.get cell :=
  RegisterFile.get_foldl_set _ decided

omit [Bus δ] in
theorem agreesOutside_written
    (agrees : effect.datapath.machine.registers.AgreesOutside registers) :
    effect.commit.machine.registers.AgreesOutside (effect.written registers) :=
  fun cell visible => get_written (.inl (agrees cell visible))

end Effect

namespace Datapath

variable {datapath : Datapath δ} {registers : RegisterFile} {written : List Reg}

omit [Bus δ] in
/-- What a program that has written `written` may read is the same in both. -/
theorem reg_withMicrostate (predictor : BranchPredictor)
    (agrees : datapath.machine.registers.AgreesOutside registers)
    (known : ∀ reg ∈ written, (datapath.withMicrostate registers predictor).reg reg =
      datapath.reg reg) {reg : Reg} (readable : reg.ReadableAfter written) :
    (datapath.withMicrostate registers predictor).reg reg = datapath.reg reg := by
  rcases readable with general | mem
  · exact agrees.get_cell general _
  · exact known reg mem

/-- What one micro-operation has written, the next may read. -/
theorem reg_commit_withMicrostate {op : MicroOp} (predictor learned : BranchPredictor)
    (agrees : datapath.machine.registers.AgreesOutside registers)
    (known : ∀ reg ∈ written, (datapath.withMicrostate registers predictor).reg reg =
      datapath.reg reg)
    (same : ∀ reg ∈ op.sources, (datapath.withMicrostate registers predictor).reg reg =
      datapath.reg reg)
    (goesOn : (op.effect datapath).disposition = .next) :
    ∀ reg ∈ written ++ op.destinations,
      ((op.effect datapath).commit.withMicrostate ((op.effect datapath).written registers)
        learned).reg reg = (op.effect datapath).commit.reg reg := by
  intro reg regMem
  apply Effect.get_written
  rw [MicroOp.registers_effect]
  cases general : reg.isGeneral with
  | true => exact .inl (agrees.get_cell general _)
  | false =>
      have unwritten (before : (datapath.withMicrostate registers predictor).reg reg =
          datapath.reg reg) (psw : Psw) :
          registers.get (reg.cell psw) = datapath.machine.registers.get (reg.cell psw) := by
        rw [Reg.cell_of_scratch general psw datapath.machine.psw]
        exact before
      rcases List.mem_append.mp regMem with earlier | named
      · exact .inl (unwritten (known reg earlier) _)
      · rcases MicroOp.written_or_read goesOn named general (op.effect datapath).commit.machine.psw
          with posted | read
        · exact .inr posted
        · exact .inl (unwritten (same reg read) _)

/-- A run that reads only what it has written goes the same way. -/
theorem exists_run_withMicrostate {ops : List MicroOp} (index : Nat)
    (supplied : Supplied written ops) (predictor : BranchPredictor)
    (agrees : datapath.machine.registers.AgreesOutside registers)
    (known : ∀ reg ∈ written, (datapath.withMicrostate registers predictor).reg reg =
      datapath.reg reg) :
    ∃ after learned, (datapath.withMicrostate registers predictor).run index ops =
        ((datapath.run index ops).1, (datapath.run index ops).2.withMicrostate after learned) ∧
      (datapath.run index ops).2.registers.AgreesOutside after := by
  induction ops generalizing datapath index registers written predictor with
  | nil => exact ⟨registers, predictor, rfl, agrees⟩
  | cons op rest ih =>
      rcases supplied with ⟨reads, onward⟩
      have same (reg : Reg) (regMem : reg ∈ op.sources) :=
        reg_withMicrostate predictor agrees known (reads reg regMem)
      rcases MicroOp.exists_effect_withMicrostate predictor agrees same with ⟨learned, effects⟩
      have kept : (op.effect datapath).datapath.machine.registers.AgreesOutside registers := by
        rw [MicroOp.registers_effect]
        exact agrees
      have stepped := Effect.agreesOutside_written kept
      have sameDisposition : ((op.effect datapath).withMicrostate registers learned).disposition =
          (op.effect datapath).disposition := rfl
      rw [run_cons, run_cons, effects, sameDisposition, Effect.commit_withMicrostate]
      cases disposition : (op.effect datapath).disposition with
      | next =>
          apply ih (index + 1) onward learned stepped
          exact reg_commit_withMicrostate predictor learned agrees known same disposition
      | flush => exact ⟨_, learned, rfl, stepped⟩
      | raise kind => exact ⟨_, learned, rfl, stepped⟩

end Datapath

end Pdp11
