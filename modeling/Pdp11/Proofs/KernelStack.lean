import Pdp11.Microcode.Operand
import Pdp11.Proofs.Execution
import Pdp11.Proofs.KernelData

/-!
# Pushes and pops in kernel mode

A push leaves its word in memory below the stack pointer and every other word
as it was; a pop finds the word that the stack pointer is at.
-/

namespace Pdp11

universe u

namespace Datapath

variable {δ : Type u} [Bus δ]

/-! ## Pops -/

/-- What a pop into `dst` does in kernel mode when it finds `word`. -/
structure Popped (before : Datapath δ) (dst : Reg) (word : Word) (after : Datapath δ) : Prop where
  psw : after.machine.psw = before.machine.psw
  mapping : before.machine.mmu.SameMapping after.machine.mmu
  ram : after.machine.ram = before.machine.ram
  registers : after.machine.registers =
    (before.machine.registers.set (dst.cell before.machine.psw) word).set (.stackPointer .kernel)
      (before.machine.stackPointer .kernel + 2)

theorem pop_of_holds (before : Datapath δ) {dst : Reg} {word : Word} (scratch : dst ≠ .sp)
    (kernel : before.machine.psw.mode = .kernel)
    (holds : before.machine.KernelHolds (before.machine.stackPointer .kernel) word) :
    ∃ after, Steps before (MicroOp.pop dst) after ∧ before.Popped dst word after := by
  obtain ⟨loaded, outcome, accessed⟩ := holds.read
  have pointer : before.reg .sp = before.machine.stackPointer .kernel := by
    rw [Datapath.reg, Machine.reg, Reg.cell, kernel]
    rfl
  have loads : before.machine.loadSelected (before.reg .sp) .word .data = (.ok word, loaded) := by
    rw [pointer, ← outcome, ← kernel]
    rfl
  refine ⟨_, .cons (step_load loads) (.single ⟨rfl, rfl⟩), ?_⟩
  constructor
  · exact accessed.psw
  · exact accessed.mmu.sameMapping.trans (Mmu.sameMapping_recordStep _ _ _)
  · exact accessed.ram
  · change (loaded.setReg dst word).registers.set (Reg.sp.cell loaded.psw)
      ((loaded.setReg dst word).reg .sp + 2) = _
    rw [Machine.reg_setReg, if_neg scratch, Machine.setReg, Machine.reg, accessed.psw,
      accessed.registers, Reg.cell, kernel]
    rfl

/-! ## Pushes -/

/-- What a push of `value` does in kernel mode when it goes to memory. -/
structure Pushed (before : Datapath δ) (value : Word) (after : Datapath δ) : Prop where
  psw : after.machine.psw = before.machine.psw
  mapping : before.machine.mmu.SameMapping after.machine.mmu
  size : after.machine.ram.size = before.machine.ram.size
  registers : after.machine.registers =
    before.machine.registers.set (.stackPointer .kernel)
      (before.machine.stackPointer .kernel - 2)
  holds : after.machine.KernelHolds (before.machine.stackPointer .kernel - 2) value
  holds_apart {address word : Word} :
    before.machine.KernelHolds address word →
      (before.machine.stackPointer .kernel - 2).toNat % 64 ≠ address.toNat % 64 →
      after.machine.KernelHolds address word

/-- A run that steps the kernel stack pointer down and then stores a scratch
register there has pushed it, unless it traps. -/
theorem push_of_not_trapped (before : Datapath δ) {src : Reg} {index : Nat} {rest : List MicroOp}
    (scratch : src ≠ .sp) (kernel : before.machine.psw.mode = .kernel)
    (inRam : before.machine.KernelInRam (before.machine.stackPointer .kernel - 2))
    (untrapped : ∀ position kind, (before.run index
      ([.step .sp (-2), .store .sp src .word .data] ++ rest)).1 ≠
        .ok (.trapped position kind)) :
    ∃ after, Steps before [.step .sp (-2), .store .sp src .word .data] after ∧
      before.Pushed (before.reg src) after := by
  let stepped := ((MicroOp.step .sp (-2)).effect before).commit
  have first : before.Step (.step .sp (-2)) stepped := ⟨rfl, rfl⟩
  have registers : stepped.machine.registers = before.machine.registers.set
      (.stackPointer .kernel) (before.machine.stackPointer .kernel - 2) := by
    change before.machine.registers.set (Reg.sp.cell before.machine.psw)
      (before.machine.reg .sp + -2) = _
    rw [Machine.reg, Reg.cell, kernel, BitVec.sub_eq_add_neg]
    rfl
  have mapping : before.machine.mmu.SameMapping stepped.machine.mmu :=
    Mmu.sameMapping_recordStep _ _ _
  have pointer : stepped.reg .sp = before.machine.stackPointer .kernel - 2 := by
    change stepped.machine.registers.get (Reg.sp.cell before.machine.psw) = _
    rw [registers, Reg.cell, kernel, RegisterFile.get_set, if_pos rfl]
  have value : stepped.reg src = before.reg src := by
    have kept := MicroOp.reg_commit_step .sp src (-2) before
    rw [if_neg scratch.symm] at kept
    exact kept.trans (BitVec.add_zero _)
  rw [List.cons_append, first.run_cons] at untrapped
  obtain ⟨stored, outcome⟩ := store_of_not_trapped untrapped
  refine ⟨_, .cons first (.single (step_store outcome)), ?_⟩
  have stores : stepped.machine.write .kernel (before.machine.stackPointer .kernel - 2)
      (before.reg src) .word = (.ok (), stored) := by
    rw [pointer, value] at outcome
    rw [← outcome, ← kernel]
    rfl
  have saved := Machine.stored_of_write (inRam.of_sameMapping mapping rfl) stores
  constructor
  · exact saved.psw
  · exact mapping.trans saved.mmu.sameMapping
  · exact saved.size
  · exact saved.registers.trans registers
  · exact saved.holds
  · intro address word holds apart
    exact saved.holds_apart (holds.of_sameMapping mapping rfl) apart

end Datapath

end Pdp11
