import Pdp11.Proofs.RegisterWrites

/-!
# How far a program moves a register

Until the first result, a general register moves by the steps that are taken on it
and by nothing else. Finding an operand takes the step of its mode, so where the
registers stand then does not depend on what the search has found in memory.
-/

namespace Pdp11

universe u

/-! ## Steps on one register -/

/-- How far the steps among `ops` move `reg`. -/
def steppedBy (reg : Reg) : List MicroOp → Word
  | [] => 0
  | .step stepped amount :: rest => (if stepped = reg then amount else 0) + steppedBy reg rest
  | _ :: rest => steppedBy reg rest

section Steps

variable (reg : Reg) {op : MicroOp}

@[simp]
theorem steppedBy_nil : steppedBy reg [] = 0 :=
  rfl

@[simp]
theorem steppedBy_step (stepped : Reg) (amount : Word) (rest : List MicroOp) :
    steppedBy reg (.step stepped amount :: rest) =
      (if stepped = reg then amount else 0) + steppedBy reg rest :=
  rfl

@[simp]
theorem steppedBy_cons (notStep : op.isStep = false) (rest : List MicroOp) :
    steppedBy reg (op :: rest) = steppedBy reg rest := by
  cases op <;> first | rfl | contradiction

@[simp]
theorem steppedBy_append (first second : List MicroOp) :
    steppedBy reg (first ++ second) = steppedBy reg first + steppedBy reg second := by
  induction first with
  | nil => exact (BitVec.zero_add _).symm
  | cons op rest ih =>
      rw [List.cons_append]
      cases notStep : op.isStep with
      | true =>
          cases op
          case step stepped amount => rw [steppedBy_step, steppedBy_step, ih, BitVec.add_assoc]
          all_goals contradiction
      | false => rw [steppedBy_cons reg notStep, steppedBy_cons reg notStep, ih]

@[simp]
theorem steppedBy_stepRegister (stepped : Reg) (amount : Word) :
    steppedBy reg (MicroOp.stepRegister stepped amount) =
      if stepped = reg then amount else 0 := by
  unfold MicroOp.stepRegister
  split <;> exact BitVec.add_zero _

end Steps

namespace Operand

/-- How far finding the operand moves its register. The program counter has been
stepped up with the fetch of its word. -/
def advance (operand : Operand) (width : Width) : Word :=
  match operand.mode with
  | .autoincrement | .autoincrementDeferred => if operand.reg = .pc then 0 else operand.step width
  | .autodecrement | .autodecrementDeferred => -operand.step width
  | .register | .registerDeferred | .index | .indexDeferred => 0

theorem steppedBy_addressOps (operand : Operand) (width : Width) (slot : OperandSlot)
    (stream : InstructionStream) (reg : Reg) :
    steppedBy reg (operand.addressOps width slot stream) =
      if operand.reg = reg then operand.advance width else 0 := by
  unfold addressOps advance
  cases operand.mode <;> by_cases isPc : operand.reg = .pc <;>
    simp [isPc, MicroOp.follow]

end Operand

variable {δ : Type u} [Bus δ]

namespace Datapath

variable {before after : Datapath δ} {ops : List MicroOp}

theorem Step.reg_of_gathers {op : MicroOp} (step : before.Step op after) (gathers : op.gathers)
    {reg : Reg} (general : reg.isGeneral) :
    after.reg reg = before.reg reg + steppedBy reg [op] := by
  rcases step with ⟨-, rfl⟩
  cases isStep : op.isStep with
  | true =>
      obtain ⟨stepped, amount, rfl⟩ : ∃ stepped amount, op = .step stepped amount := by
        cases op <;> first | contradiction | exact ⟨_, _, rfl⟩
      have alone : steppedBy reg [.step stepped amount] = if stepped = reg then amount else 0 :=
        BitVec.add_zero _
      rw [alone]
      exact MicroOp.reg_commit_step stepped reg amount before
  | false =>
      rw [steppedBy_cons reg isStep]
      exact (MicroOp.reg_commit_of_gathers gathers isStep before general).trans
        (BitVec.add_zero _).symm

/-- What gathers moves a general register by its steps alone. -/
theorem Steps.reg_of_gathers (steps : Steps before ops after) (gathers : ∀ op ∈ ops, op.gathers)
    {reg : Reg} (general : reg.isGeneral) :
    after.reg reg = before.reg reg + steppedBy reg ops := by
  induction steps with
  | nil => exact (BitVec.add_zero _).symm
  | @cons _ _ _ op rest step _ ih =>
      rw [ih fun later laterMem => gathers later (List.mem_cons_of_mem _ laterMem),
        step.reg_of_gathers (gathers op List.mem_cons_self) general, BitVec.add_assoc,
        ← steppedBy_append]
      rfl

end Datapath

namespace Machine

/-- Where `reg` stands once `operand` has been found. -/
def regAfter (machine : Machine δ) (operand : Operand) (width : Width) (reg : Reg) : Word :=
  machine.reg reg + if operand.reg = reg then operand.advance width else 0

end Machine

end Pdp11
