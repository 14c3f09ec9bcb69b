import Pdp11.Proofs.Arithmetic.Exact
import Pdp11.Proofs.Execution

/-!
# Comparisons by branch conditions

The condition codes of a difference tell how its operands compare, as signed and
as unsigned integers. The branches named for a comparison are taken exactly when
it holds.
-/

namespace Pdp11

universe u

/-- The comparisons that have a branch. A number is higher than another if it is
greater as an unsigned integer. -/
inductive Comparison
  | equal
  | different
  | less
  | lessOrEqual
  | greater
  | greaterOrEqual
  | lower
  | lowerOrSame
  | higher
  | higherOrSame
deriving DecidableEq

namespace Comparison

/-- The branch that is taken if the comparison holds. -/
def opcode : Comparison → Opcode
  | equal => .beq
  | different => .bne
  | less => .blt
  | lessOrEqual => .ble
  | greater => .bgt
  | greaterOrEqual => .bge
  | lower => .bcs
  | lowerOrSame => .blos
  | higher => .bhi
  | higherOrSame => .bcc

/-- The condition that the branch tests. -/
def condition : Comparison → FlagCondition
  | equal => .eq
  | different => .ne
  | less => .lt
  | lessOrEqual => .le
  | greater => .gt
  | greaterOrEqual => .ge
  | lower => .cs
  | lowerOrSame => .los
  | higher => .hi
  | higherOrSame => .cc

/-- The comparison holds between the parts of two words that a width covers. -/
def Holds (comparison : Comparison) (width : Width) (first second : Word) : Prop :=
  match comparison with
  | equal => width.signed first = width.signed second
  | different => width.signed first ≠ width.signed second
  | less => width.signed first < width.signed second
  | lessOrEqual => width.signed first ≤ width.signed second
  | greater => width.signed first > width.signed second
  | greaterOrEqual => width.signed first ≥ width.signed second
  | lower => width.unsigned first < width.unsigned second
  | lowerOrSame => width.unsigned first ≤ width.unsigned second
  | higher => width.unsigned first > width.unsigned second
  | higherOrSame => width.unsigned first ≥ width.unsigned second

variable (comparison : Comparison) (width : Width) (first second : Word)

instance decidableHolds : Decidable (comparison.Holds width first second) :=
  match comparison with
  | equal => inferInstanceAs (Decidable (_ = _))
  | different => inferInstanceAs (Decidable (_ ≠ _))
  | less | greater => inferInstanceAs (Decidable (width.signed _ < width.signed _))
  | lessOrEqual | greaterOrEqual => inferInstanceAs (Decidable (width.signed _ ≤ width.signed _))
  | lower | higher => inferInstanceAs (Decidable (width.unsigned _ < width.unsigned _))
  | lowerOrSame | higherOrSame =>
    inferInstanceAs (Decidable (width.unsigned _ ≤ width.unsigned _))

end Comparison

/-! ## The codes of a difference -/

/-- What the condition codes of a difference tell about its operands. -/
structure TellsOrder (width : Width) (first second : Word) (codes : ConditionCodes) : Prop where
  zero : codes.zero ↔ width.signed first = width.signed second
  less : codes.negative ≠ codes.overflow ↔ width.signed first < width.signed second
  lower : codes.carry ↔ width.unsigned first < width.unsigned second

section Difference

variable (first second : Word) (width : Width) (carry : Bool) (old : ConditionCodes)

/-- Two parts are the same signed integer if they are the same unsigned one. -/
theorem signed_eq_iff :
    width.signed first = width.signed second ↔ width.unsigned first = width.unsigned second := by
  rw [Width.signed, Width.signed, BitVec.toInt_inj, ← BitVec.toNat_inj]
  exact Int.natCast_inj.symm

/-- A difference is the exact one, wrapped into the signed range. -/
theorem signed_difference :
    width.signed (AluOp.sub.withCodes .subtract first second width carry old).1 =
      (width.signed first - width.signed second).bmod width.size := by
  change width.signed (_ &&& width.mask) = _
  rw [Width.signed, width.part_and_mask, AluOp.compute, width.part_sub, width.part_and_mask,
    width.part_and_mask, BitVec.toInt_sub, width.size_eq]
  rfl

variable {first second width}

/-- A difference of signed integers that wraps has the wrong sign. -/
theorem bmod_difference {first second : Int} (firstInside : width.Represents first)
    (secondInside : width.Represents second) :
    ((first - second).bmod width.size = 0 ↔ first = second) ∧
      (¬((first - second).bmod width.size < 0 ↔ ¬width.Represents (first - second)) ↔
        first < second) := by
  cases width <;>
    simp only [Width.Represents, Width.size, Int.bmod_def] at firstInside secondInside ⊢ <;>
    split <;> omega

variable (first second width)

theorem tellsOrder_sub :
    TellsOrder width first second
      (AluOp.sub.withCodes .subtract first second width carry old).2 := by
  have exact := exact_sub first second width carry old
  obtain ⟨equal, less⟩ :=
    bmod_difference (represents_toInt (width.part first)) (represents_toInt (width.part second))
  constructor
  · rw [exact.zero, signed_difference]
    exact equal
  · rw [ne_eq, Bool.eq_iff_iff, exact.negative, exact.overflow, signed_difference]
    exact less
  · rw [exact.carry]
    change decide (width.unsigned first - width.unsigned second < 0) = true ↔ _
    rw [decide_eq_true_iff]
    omega

end Difference

/-! ## The branches -/

namespace Comparison

variable {width : Width} {first second : Word} {codes : ConditionCodes}

theorem holds_condition_iff (comparison : Comparison)
    (tells : TellsOrder width first second codes) :
    comparison.condition.holds codes ↔ comparison.Holds width first second := by
  have same := signed_eq_iff first second width
  have zero : codes.zero ↔ width.signed first = width.signed second := tells.zero
  have less : (codes.negative != codes.overflow) ↔ width.signed first < width.signed second := by
    rw [bne_iff_ne]
    exact tells.less
  have notLess : (codes.negative == codes.overflow) ↔
      ¬width.signed first < width.signed second := by
    rw [beq_iff_eq, ← tells.less, ne_eq, Decidable.not_not]
  have lower := tells.lower
  cases comparison <;>
    simp only [condition, FlagCondition.holds, Holds, Bool.and_eq_true, Bool.or_eq_true,
      Bool.not_eq_true', ← Bool.not_eq_true, zero, less, notLess, lower] <;>
    omega

end Comparison

namespace Machine

variable {δ : Type u} [Bus δ]

theorem pc_execute_of_branch {instruction : Instruction} {pipeline : Pipeline}
    {condition : FlagCondition} (program : instruction.program = instruction.branch condition)
    (encoded : instruction.encode = .ok pipeline) (machine : Machine δ) :
    (machine.execute pipeline).machine.pc =
      if condition.holds machine.psw.codes then instruction.branchTarget else machine.pc := by
  rw [Instruction.encode, Pipeline.ofOps_eq_ok_iff, program] at encoded
  change (Datapath.run _ 0 pipeline.ops).2.pc = _
  rw [encoded, Instruction.branch, Datapath.run_cons]
  cases taken : condition.holds machine.psw.codes <;>
    simp [MicroOp.effect, BranchCondition.holds, taken, Effect.commit, pc, noteBranch, maxWrites]

end Machine

namespace Comparison

/-- After a subtraction, the branch for a comparison is taken exactly when the
comparison holds between the parts of the operands that the width covers. -/
theorem branches_as_compared {δ : Type u} [Bus δ] (comparison : Comparison) (first second : Word)
    (width : Width) (carry : Bool) (old : ConditionCodes) :
    let codes := (AluOp.sub.withCodes .subtract first second width carry old).2
    (comparison.condition.holds codes ↔ comparison.Holds width first second) ∧
      ∀ (machine : Machine δ) {instruction : Instruction} {pipeline : Pipeline},
        instruction.opcode = comparison.opcode → instruction.encode = .ok pipeline →
          machine.psw.codes = codes →
            (machine.execute pipeline).machine.pc =
              if comparison.Holds width first second then instruction.branchTarget
              else machine.pc := by
  intro codes
  have agrees : comparison.condition.holds codes ↔ comparison.Holds width first second :=
    comparison.holds_condition_iff (tellsOrder_sub first second width carry old)
  refine ⟨agrees, ?_⟩
  intro machine instruction pipeline opcode encoded compared
  have program : instruction.program = instruction.branch comparison.condition := by
    cases comparison <;> rw [Instruction.program, opcode] <;> rfl
  rw [machine.pc_execute_of_branch program encoded, compared]
  simp only [agrees]

/-- A machine that has compared the least signed word with one. -/
def comparedLeast : Machine NoDevices :=
  let start := Machine.ofConfig Config.default .none
  { start with
    psw := { start.psw with
      codes := { negative := false, zero := false, overflow := true, carry := false } } }

/-- `BLT .+4` -/
def branchIfLess : Instruction where
  pc := 0
  word := 0o002401
  opcode := .blt
  extension := []

/-- The program of `branchIfLess`. -/
def branchIfLessPipeline : Pipeline where
  ops := branchIfLess.program
  length_le := by decide

/-- The least signed word is less than one, but as an unsigned word it is higher. -/
theorem branches_of_overflow :
    (comparedLeast.execute branchIfLessPipeline).machine.pc = 4 ∧
      ¬ lower.condition.holds comparedLeast.psw.codes := by
  have signed := @branches_as_compared NoDevices _ less 0o100000 1 .word false (.ofCode 0)
  have unsigned := @branches_as_compared NoDevices _ lower 0o100000 1 .word false (.ofCode 0)
  have encoded : branchIfLess.encode = .ok branchIfLessPipeline :=
    Pipeline.ofOps_eq_ok_iff.mpr rfl
  constructor
  · rw [signed.2 comparedLeast rfl encoded rfl]
    rfl
  · intro taken
    exact absurd (unsigned.1.mp taken) (by decide)

end Comparison

end Pdp11
