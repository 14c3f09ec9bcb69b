import Pdp11.Proofs.Access
import Pdp11.Proofs.Execution
import Pdp11.Proofs.Staging

/-!
# A trapped instruction leaves no result

Memory, the status word, the run state, the pages and what devices were told
are the results of an instruction that a handler could find half done. The
micro-operations that come before a trap touch none of them, and the one that
raises it does not either.
-/

namespace Pdp11

universe u

variable {δ : Type u} [Bus δ]

namespace Machine

/-- No result stands in `after` that did not stand in `before`. -/
structure SameResults (before after : Machine δ) : Prop where
  ram : after.ram = before.ram
  psw : after.psw = before.psw
  runState : after.runState = before.runState
  pages : before.mmu.pages.SameButMarks after.mmu.pages
  devices : Undisturbed before.devices after.devices

theorem SameResults.refl (machine : Machine δ) : SameResults machine machine where
  ram := rfl
  psw := rfl
  runState := rfl
  pages := .refl _
  devices := .refl _

theorem SameResults.trans {first second third : Machine δ} (head : SameResults first second)
    (tail : SameResults second third) : SameResults first third where
  ram := tail.ram.trans head.ram
  psw := tail.psw.trans head.psw
  runState := tail.runState.trans head.runState
  pages := head.pages.trans tail.pages
  devices := head.devices.trans tail.devices

theorem Accessed.sameResults {before after : Machine δ} (accessed : Accessed before after) :
    SameResults before after where
  ram := accessed.ram
  psw := accessed.psw
  runState := accessed.runState
  pages := accessed.mmu.pages
  devices := accessed.devices

theorem pages_recordStep (mmu : Mmu) (register : BitVec 3) (amount : Word) :
    (mmu.recordStep register amount).pages = mmu.pages := by
  unfold Mmu.recordStep
  split <;> rfl

end Machine

namespace Effect

/-- Register writes are no results. -/
theorem sameResults_commit {before : Machine δ} {effect : Effect δ}
    (same : before.SameResults effect.datapath.machine) :
    before.SameResults effect.commit.machine :=
  ⟨same.ram, same.psw, same.runState, same.pages, same.devices⟩

end Effect

namespace MicroOp

theorem sameResults_load (dst address : Reg) (width : Width) (space : AccessSpace)
    (datapath : Datapath δ) :
    datapath.machine.SameResults
      ((load dst address width space).effect datapath).datapath.machine := by
  rw [machine_load]
  exact (datapath.machine.accessed_loadSelected (datapath.reg address) width space).sameResults

theorem sameResults_guard (datapath : Datapath δ) :
    datapath.machine.SameResults (stackGuard.effect datapath).datapath.machine := by
  simp only [effect, Machine.guardStack]
  split
  · exact ⟨rfl, rfl, rfl, .refl _, .refl _⟩
  · split <;> exact ⟨rfl, rfl, rfl, .refl _, .refl _⟩

theorem sameResults_of_commits_eq_false {op : MicroOp} (uncommitted : op.commits = false)
    (datapath : Datapath δ) :
    datapath.machine.SameResults (op.effect datapath).datapath.machine := by
  cases op
  case load => exact sameResults_load _ _ _ _ _
  case stackGuard => exact sameResults_guard _
  case step reg amount =>
    simp only [effect]
    split
    · refine ⟨rfl, rfl, rfl, ?_, .refl _⟩
      rw [Machine.pages_recordStep]
      exact .refl _
    · exact .refl _
  case div high low divisor =>
    simp only [effect]
    split <;> exact .refl _
  case branch | jump => exact ⟨rfl, rfl, rfl, .refl _, .refl _⟩
  case halt | wait | reset | store | loadPsw | forceKernel | conditionCodes | evalFlags |
      setPriority => contradiction
  all_goals exact ⟨rfl, rfl, rfl, .refl _, .refl _⟩

theorem canRaise_of_raises {op : MicroOp} {datapath : Datapath δ} {kind : TrapClass}
    (raises : (op.effect datapath).disposition = .raise kind) : op.canRaise := by
  cases op
  case halt | load | store | stackGuard | raiseTrap => rfl
  case wait | div | evalFlags =>
    simp only [effect] at raises
    split at raises <;> contradiction
  all_goals contradiction

/-- A micro-operation that raises a trap leaves no result of its own. -/
theorem sameResults_of_raises {op : MicroOp} {datapath : Datapath δ} {kind : TrapClass}
    (raises : (op.effect datapath).disposition = .raise kind) :
    datapath.machine.SameResults (op.effect datapath).datapath.machine := by
  have raising := canRaise_of_raises raises
  cases op
  case load | stackGuard | raiseTrap => exact sameResults_of_commits_eq_false rfl datapath
  case halt =>
    simp only [effect] at raises ⊢
    split
    · rename_i inKernel
      rw [if_pos inKernel] at raises
      contradiction
    · exact .refl _
  case store address src width space =>
    simp only [effect] at raises ⊢
    split
    · rename_i stored
      rw [stored] at raises
      contradiction
    · rename_i refused
      have accessed := Machine.accessed_storeSelected_of_error (congrArg Prod.fst refused)
      rw [refused] at accessed
      exact accessed.sameResults
  all_goals contradiction

end MicroOp

namespace Datapath

theorem Steps.sameResults {datapath final : Datapath δ} {ops : List MicroOp}
    (steps : Steps datapath ops final) (uncommitted : ∀ op ∈ ops, op.commits = false) :
    datapath.machine.SameResults final.machine := by
  refine steps.preserves (fun reached => datapath.machine.SameResults reached.machine) ?_
    (.refl _)
  intro op opMem reached next step same
  obtain ⟨-, rfl⟩ := step
  exact same.trans (Effect.sameResults_commit
    (MicroOp.sameResults_of_commits_eq_false (uncommitted op opMem) reached))

/-- What gathers does not touch the status word. -/
theorem Steps.psw_of_gathers {datapath final : Datapath δ} {ops : List MicroOp}
    (steps : Steps datapath ops final) (gathers : ∀ op ∈ ops, op.gathers) :
    final.machine.psw = datapath.machine.psw :=
  (steps.sameResults fun op opMem => (MicroOp.gathers_iff.mp (gathers op opMem)).1).psw

/-- A run that comes to a trap leaves no result, if only micro-operations
without results come before one that can raise a trap. -/
theorem sameResults_of_run_trapped {datapath : Datapath δ} {ops : List MicroOp}
    {index position : Nat} {kind : TrapClass} {final : Machine δ} (order : CommitsLast ops)
    (ends : datapath.run index ops = (.ok (.trapped position kind), final)) :
    datapath.machine.SameResults final := by
  obtain ⟨before, op, after, middle, rfl, steps, -, raises, rfl⟩ := run_trapped_iff.mp ends
  have gathered := steps.sameResults
    (order.uncommitted_before (MicroOp.canRaise_of_raises raises))
  have raised := Effect.sameResults_commit (MicroOp.sameResults_of_raises raises)
  exact gathered.trans ⟨raised.ram, raised.psw, raised.runState, raised.pages, raised.devices⟩

end Datapath

namespace Machine

/-- When an instruction traps, memory, the status word and the run state are
what they were, pages have changed in their marks alone, and the bus has
accepted no write. -/
theorem results_of_execute_trapped (machine : Machine (Recorded δ)) (instruction : Instruction)
    (pipeline : Pipeline) (encoded : instruction.encode = .ok pipeline) (index : Nat)
    (kind : TrapClass)
    (trapped : (machine.execute pipeline).result = .ok (.trapped index kind)) :
    let after := (machine.execute pipeline).machine
    after.ram = machine.ram ∧ after.psw = machine.psw ∧ after.runState = machine.runState ∧
      (∀ page, after.mmu.base page = machine.mmu.base page ∧
        (after.mmu.descriptor page).unmarked = (machine.mmu.descriptor page).unmarked) ∧
      ∃ calls : List BusCall, after.devices.calls = machine.devices.calls ++ calls ∧
        ∀ call ∈ calls, ¬ call.isAcceptedWrite := by
  intro after
  have order : pipeline.ops.Pairwise fun earlier later =>
      earlier.commits = false ∨ later.canRaise = false := by
    rw [Pipeline.ofOps_eq_ok_iff.mp encoded]
    exact instruction.commits_last
  have same : machine.SameResults after :=
    Datapath.sameResults_of_run_trapped order (Prod.ext trapped rfl)
  exact ⟨same.ram, same.psw, same.runState, same.pages, same.devices.calls⟩

/-- A machine about to store to a device register that no device answers. -/
def withoutDevices : Machine (Recorded NoDevices) :=
  { ofConfig { Config.default with memoryBytes := 8 } { devices := .none, calls := #[] } with
    registers := RegisterFile.cleared.set (.general false 1) 2 }

/-- `MOV (R1)+, @#177560` -/
def storeToDevice : Instruction where
  pc := 0
  word := 0o012137
  opcode := .mov
  extension := [0o177560]

/-- The program of `storeToDevice`. -/
def storeToDevicePipeline : Pipeline where
  ops := storeToDevice.program
  length_le := by decide

/-- The store is refused after the source register has been stepped; the call
to the bus stands in the record, but not as an accepted write. -/
theorem results_of_refused_store :
    let execution := withoutDevices.execute storeToDevicePipeline
    execution.result = .ok (.trapped 4 .busError) ∧ execution.machine.reg .r1 = 4 ∧
      execution.machine.ram = withoutDevices.ram ∧
      ∃ calls : List BusCall,
        execution.machine.devices.calls = withoutDevices.devices.calls ++ calls ∧
          ∀ call ∈ calls, ¬ call.isAcceptedWrite := by
  have trapped : (withoutDevices.execute storeToDevicePipeline).result =
      .ok (.trapped 4 .busError) := rfl
  have kept := results_of_execute_trapped withoutDevices storeToDevice storeToDevicePipeline
    (Pipeline.ofOps_eq_ok_iff.mpr rfl) 4 .busError trapped
  exact ⟨trapped, by decide, kept.1, kept.2.2.2.2⟩

end Machine

end Pdp11
