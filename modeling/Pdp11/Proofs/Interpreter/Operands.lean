import Pdp11.Microcode.Operand
import Pdp11.Proofs.Interpreter.Tracking

/-!
# Finding operands

The micro-operations of an addressing mode bring the address of the operand
into a scratch register and step what the mode steps. They find the place that
the interpreter finds.
-/

namespace Pdp11

universe u

variable {δ : Type u}

namespace Datapath

/-- The datapath with `value` put into a register. -/
def setReg (datapath : Datapath δ) (reg : Reg) (value : Word) : Datapath δ :=
  { datapath with machine := datapath.machine.setReg reg value }

theorem reg_setReg (datapath : Datapath δ) (written asked : Reg) (value : Word) :
    (datapath.setReg written value).reg asked =
      if written = asked then value else datapath.reg asked :=
  datapath.machine.reg_setReg written asked value

/-- Scratch registers, except possibly `free`, and the signals stay. -/
structure Keeps (free : Reg) (before after : Datapath δ) : Prop where
  signals : after.signals = before.signals
  scratch (reg : Reg) : reg.isGeneral = false → reg ≠ free → after.reg reg = before.reg reg

theorem Keeps.refl (free : Reg) (datapath : Datapath δ) : Keeps free datapath datapath where
  signals := rfl
  scratch := fun _ _ _ => rfl

theorem Keeps.trans {free : Reg} {first second third : Datapath δ} (head : Keeps free first second)
    (tail : Keeps free second third) : Keeps free first third where
  signals := tail.signals.trans head.signals
  scratch := fun reg isScratch other =>
    (tail.scratch reg isScratch other).trans (head.scratch reg isScratch other)

/-- What changes only a general register keeps every scratch register. -/
theorem Keeps.of_general {general : Reg} {before after : Datapath δ}
    (keeps : Keeps general before after) (isGeneral : general.isGeneral) (free : Reg) :
    Keeps free before after where
  signals := keeps.signals
  scratch := by
    intro reg scratch _
    apply keeps.scratch reg scratch
    exact Reg.ne_of_scratch scratch isGeneral

theorem keeps_setReg (datapath : Datapath δ) (free : Reg) (value : Word) :
    Keeps free datapath (datapath.setReg free value) where
  signals := rfl
  scratch := by
    intro reg _ other
    rw [reg_setReg, if_neg (Ne.symm other)]

/-- The machine has come to hold the address `target` in `slot`. -/
structure Points (view : View) (stream : InstructionStream) (slot : Reg) (target : Word)
    (before after : Datapath δ) : Prop where
  tracks : view.Tracks stream after.machine
  keeps : Keeps slot before after
  points : after.reg slot = target

theorem points_setReg {before middle : Datapath δ} {view : View} {stream : InstructionStream}
    {slot : Reg} (scratch : slot.isGeneral = false) (keeps : Keeps slot before middle)
    (tracks : view.Tracks stream middle.machine) (target : Word) :
    Points view stream slot target before (middle.setReg slot target) where
  tracks := tracks.setScratch scratch target
  keeps := keeps.trans (keeps_setReg middle slot target)
  points := by
    rw [reg_setReg, if_pos rfl]

variable [Bus δ]

/-! ## Registers stepped -/

/-- Stepping a general register is what it is for the interpreter. -/
theorem steps_stepRegister {before : Datapath δ} {view : View} {stream : InstructionStream}
    (tracks : view.Tracks stream before.machine) {reg : Reg} (general : reg.isGeneral)
    (notPc : reg ≠ .pc) (amount : Word)
    (above : amount.msb → reg = .sp → view.psw.mode = .kernel →
      ¬ view.reg reg + amount < stackLimit) :
    ∃ after, Steps before (MicroOp.stepRegister reg amount) after ∧
      (view.setReg reg (view.reg reg + amount)).Tracks stream after.machine ∧
      Keeps reg before after := by
  let stepped := ((MicroOp.step reg amount).effect before).commit
  have stepping : before.Step (.step reg amount) stepped := ⟨rfl, rfl⟩
  have keeps : Keeps reg before stepped := by
    constructor
    · rfl
    · intro other _ different
      have kept := MicroOp.reg_commit_step reg other amount before
      rw [if_neg (Ne.symm different)] at kept
      exact kept.trans (BitVec.add_zero _)
  have tracked : (view.setReg reg (view.reg reg + amount)).Tracks stream stepped.machine := by
    rw [← tracks.reg general notPc]
    refine (tracks.setReg notPc _).setMmu ?_
    change (if reg.isGeneral then
      before.machine.mmu.recordStep (BitVec.ofNat 3 reg.number) amount
      else before.machine.mmu).enabled = before.machine.mmu.enabled
    rw [if_pos general]
    exact (Mmu.sameMapping_recordStep _ _ _).enabled
  by_cases guards : amount.msb ∧ reg = .sp
  · have passes : stepped.Step .stackGuard stepped := by
      apply step_stackGuard
      intro kernel
      rw [tracked.psw] at kernel
      change ¬ stepped.machine.reg .sp < stackLimit
      rw [tracked.reg rfl (by decide), View.reg_setReg, if_pos guards.2]
      exact above guards.1 guards.2 kernel
    refine ⟨stepped, ?_, tracked, keeps⟩
    rw [MicroOp.stepRegister, if_pos guards]
    exact .cons stepping (.single passes)
  · refine ⟨stepped, ?_, tracked, keeps⟩
    rw [MicroOp.stepRegister, if_neg guards]
    exact .single stepping

/-! ## Addresses -/

section

variable {before middle : Datapath δ} {view : View} {stream : InstructionStream} {slot reg : Reg}
  {pointer target amount : Word}

/-- A pointer is replaced by what it points to. -/
theorem Points.follow (points : Points view stream slot pointer before middle)
    (scratch : slot.isGeneral = false) (loads : view.load? pointer .word = some target) :
    ∃ after, middle.Step (MicroOp.follow slot) after ∧
      Points view stream slot target before after := by
  have read : middle.machine.loadSelected (middle.reg slot) .word .data =
      (.ok target, middle.machine) := by
    rw [points.points]
    exact Machine.loadSelected_of_load? points.tracks.calm.unrelocated points.tracks.ram loads
  exact ⟨_, step_load read, points_setReg scratch points.keeps points.tracks target⟩

/-- The address is that in a register before it is stepped up. -/
theorem points_stepUp (tracks : view.Tracks stream before.machine)
    (scratch : slot.isGeneral = false) (general : reg.isGeneral) (notPc : reg ≠ .pc)
    (upward : amount.msb = false) :
    ∃ after, Steps before (.move slot reg :: MicroOp.stepRegister reg amount) after ∧
      Points (view.setReg reg (view.reg reg + amount)) stream slot (view.reg reg) before after := by
  have found := points_setReg scratch (Keeps.refl slot before) tracks (before.reg reg)
  have moves : before.Step (.move slot reg) (before.setReg slot (before.reg reg)) := ⟨rfl, rfl⟩
  obtain ⟨after, steps, tracked, keeps⟩ :=
    steps_stepRegister found.tracks general notPc amount (by simp [upward])
  have different := Reg.ne_of_scratch scratch general
  refine ⟨after, .cons moves steps, tracked, found.keeps.trans (keeps.of_general general slot), ?_⟩
  rw [keeps.scratch slot scratch different, found.points]
  exact tracks.reg general notPc

/-- The address is that in a register after it is stepped down. -/
theorem points_stepDown {after : View} (tracks : view.Tracks stream before.machine)
    (scratch : slot.isGeneral = false) (general : reg.isGeneral)
    (lowers : view.stepDown? reg amount = some after) :
    ∃ final, Steps before (MicroOp.stepRegister reg (-amount) ++ [.move slot reg]) final ∧
      Points after stream slot (after.reg reg) before final := by
  rcases View.stepDown?_eq_some_iff.mp lowers with ⟨notPc, above, rfl⟩
  obtain ⟨middle, steps, tracked, keeps⟩ :=
    steps_stepRegister tracks general notPc (-amount) (by
      rw [← BitVec.sub_eq_add_neg]
      exact fun _ => above)
  rw [← BitVec.sub_eq_add_neg] at tracked
  have found := points_setReg scratch (keeps.of_general general slot) tracked (middle.reg reg)
  have moves : middle.Step (.move slot reg) (middle.setReg slot (middle.reg reg)) := ⟨rfl, rfl⟩
  refine ⟨_, steps.append (.single moves), ?_⟩
  rw [← tracked.reg general notPc]
  exact found

/-- The address is that in a register, moved by the next word of the
instruction. -/
theorem points_indexed {offset : Word} {after : View} (tracks : view.Tracks stream before.machine)
    (scratch : slot.isGeneral = false) (general : reg.isGeneral) (nonempty : stream.words ≠ [])
    (next : view.next? = some (offset, after)) :
    ∃ final, before.Step
        (if reg = .pc then .loadImm slot stream.relativeAddress
          else .addImm slot reg stream.head) final ∧
      Points after stream.tail slot (after.reg reg + offset) before final := by
  obtain ⟨-, rfl, rfl, tracked⟩ := tracks.next nonempty next
  by_cases isPc : reg = .pc
  · subst isPc
    rw [if_pos rfl, View.reg_setReg, if_pos rfl, BitVec.add_comm]
    exact ⟨_, ⟨rfl, rfl⟩, points_setReg scratch (Keeps.refl slot before) tracked _⟩
  · rw [if_neg isPc, ← tracked.reg general isPc]
    exact ⟨_, ⟨rfl, rfl⟩, points_setReg scratch (Keeps.refl slot before) tracked _⟩

end

end Datapath

end Pdp11
