import Pdp11.Proofs.Atomicity
import Pdp11.Proofs.StepCount

/-!
# Which registers a micro-operation writes

Registers change only by the writes that a micro-operation posts, and those go
to the registers it names. One micro-operation writes a stack pointer that it
does not name, that of the previous mode.
-/

namespace Pdp11

universe u

namespace Effect

variable {δ : Type u}

/-- A cell that no posted write is for keeps its word. -/
theorem get_commit (effect : Effect δ) {cell : Cell}
    (spared : ∀ write ∈ effect.writes, write.1 ≠ cell) :
    effect.commit.machine.registers.get cell = effect.datapath.machine.registers.get cell := by
  have folded : ∀ (writes : List (Cell × Word)) (registers : RegisterFile),
      (∀ write ∈ writes, write.1 ≠ cell) →
        (writes.foldl (fun registers write => registers.set write.1 write.2) registers).get cell =
          registers.get cell := by
    intro writes
    induction writes with
    | nil => exact fun _ _ => rfl
    | cons write rest ih =>
        intro registers spared
        rw [List.foldl_cons,
          ih _ fun other otherMem => spared other (List.mem_cons_of_mem _ otherMem),
          RegisterFile.get_set, if_neg (spared write List.mem_cons_self)]
  exact folded _ _ fun write writeMem => spared write (List.mem_of_mem_take writeMem)

end Effect

variable {δ : Type u} [Bus δ]

namespace Machine

theorem registers_write (machine : Machine δ) (mode : Mode) (address value : Word)
    (width : Width) : (machine.write mode address value width).2.registers = machine.registers := by
  rcases machine.write_rest mode address value width with
    ⟨ram, psw, pswWritten, mmu, traps, devices, rest⟩
  rw [rest]

end Machine

namespace MicroOp

theorem registers_effect (op : MicroOp) (datapath : Datapath δ) :
    (op.effect datapath).datapath.machine.registers = datapath.machine.registers := by
  cases op
  case load dst address width space =>
    rw [machine_load]
    exact (datapath.machine.accessed_loadSelected (datapath.reg address) width space).registers
  case store address src width space =>
    rw [machine_store]
    exact datapath.machine.registers_write _ _ _ _
  case stackGuard =>
    simp only [effect, Machine.guardStack]
    split
    · rfl
    · split <;> rfl
  case halt | wait | reset | div | evalFlags | setPriority =>
    simp only [effect, Datapath.proceed]
    split <;> rfl
  all_goals rfl

/-- A posted write is for a register that the micro-operation names, or for the
stack pointer of the previous mode. -/
theorem cell_of_mem_writes {op : MicroOp} {datapath : Datapath δ} {write : Cell × Word}
    (posted : write ∈ (op.effect datapath).writes) :
    (∃ reg ∈ op.destinations, write.1 = reg.cell datapath.machine.psw) ∨
      ∃ src, op = .writePreviousSp src ∧
        write.1 = .stackPointer datapath.machine.psw.previousMode := by
  cases op
  case load dst address width space =>
    have accessed := datapath.machine.accessed_loadSelected (datapath.reg address) width space
    simp only [effect] at posted
    split at posted <;> rename_i outcome
    · rw [outcome] at accessed
      have samePsw := accessed.psw
      simp only [Datapath.post, List.map_cons, List.map_nil, List.mem_singleton] at posted
      refine .inl ⟨dst, List.mem_cons_self, ?_⟩
      rw [posted, ← samePsw]
    · simp [Datapath.stop] at posted
  case store address src width space =>
    simp only [effect] at posted
    split at posted <;> simp [Datapath.proceed, Datapath.stop] at posted
  case writePreviousSp src =>
    simp only [effect, List.mem_singleton] at posted
    exact .inr ⟨src, rfl, by rw [posted]⟩
  case branch condition pc target =>
    simp only [effect] at posted
    split at posted
    · exact .inl ⟨.pc, List.mem_cons_self, by rw [List.mem_singleton.mp posted]; rfl⟩
    · simp at posted
  case jump pc target =>
    simp only [effect, List.mem_singleton] at posted
    exact .inl ⟨.pc, List.mem_cons_self, by rw [posted]; rfl⟩
  case div high low divisor =>
    simp only [effect] at posted
    split at posted
    · simp [Datapath.postWith, Datapath.post] at posted
      rcases posted with rfl | rfl
      · exact .inl ⟨high, by simp [destinations], rfl⟩
      · exact .inl ⟨low, by simp [destinations], rfl⟩
    · simp [Datapath.postWith, Datapath.post] at posted
  case halt | wait | evalFlags =>
    simp only [effect] at posted
    split at posted <;> simp [Datapath.proceed, Datapath.stop] at posted
  case mul high low _ _ | shiftArithPair high low _ =>
    simp [effect, Datapath.postWide, Datapath.postWith, Datapath.post] at posted
    rcases posted with rfl | rfl
    · exact .inl ⟨high, by simp [destinations], rfl⟩
    · exact .inl ⟨low, by simp [destinations], rfl⟩
  all_goals
    simp [effect, Datapath.postWith, Datapath.post, Datapath.proceed, Datapath.stop] at posted
  all_goals
    exact .inl ⟨_, List.mem_cons_self, by rw [posted]⟩

/-- A micro-operation that raises a trap writes no register. -/
theorem writes_of_raises {op : MicroOp} {datapath : Datapath δ} {kind : TrapClass}
    (raises : (op.effect datapath).disposition = .raise kind) :
    (op.effect datapath).writes = [] := by
  have raising := canRaise_of_raises raises
  cases op
  case halt =>
    simp only [effect]
    split <;> rfl
  case load =>
    simp only [effect] at raises ⊢
    split at raises
    · contradiction
    · rfl
  case store =>
    simp only [effect]
    split <;> rfl
  case stackGuard | raiseTrap => rfl
  all_goals contradiction

/-- A micro-operation that gathers leaves the general registers alone, unless
it steps one. -/
theorem reg_commit_of_gathers {op : MicroOp} (gathers : op.gathers) (notStep : op.isStep = false)
    (datapath : Datapath δ) {reg : Reg} (general : reg.isGeneral) :
    (op.effect datapath).commit.machine.reg reg = datapath.machine.reg reg := by
  obtain ⟨uncommitted, placed⟩ := gathers_iff.mp gathers
  have samePsw := (Effect.sameResults_commit
    (sameResults_of_commits_eq_false uncommitted datapath)).psw
  unfold Machine.reg
  rw [samePsw, Effect.get_commit, registers_effect]
  intro write posted sameCell
  rcases cell_of_mem_writes posted with ⟨named, namedMem, cell⟩ | ⟨src, rfl, -⟩
  · have namedReg : named = reg := Reg.cell_inj.mp (cell.symm.trans sameCell)
    have scratch : ∀ reg ∈ op.destinations, reg.isGeneral = false := by
      cases op <;> simp_all [displaces, isStep]
    rw [namedReg] at namedMem
    rw [scratch reg namedMem] at general
    contradiction
  · contradiction

end MicroOp

end Pdp11
