import Pdp11.Proofs.Arithmetic.Division
import Pdp11.Proofs.Containment
import Pdp11.Proofs.Interpreter.Values
import Pdp11.Proofs.StatusOperations

/-!
# Condition codes of a quotient

The division instruction divides a pair of registers by its operand. It puts the
quotient in the first register and then the remainder in the second, and works out
its condition codes from the first. An odd register is its own second: there the
remainder comes over the quotient, and the codes tell of the remainder.
-/

namespace Pdp11

universe u

/-! ## Codes that tell of an integer -/

/-- The codes give the sign of `value`, and whether it is zero. -/
structure ConditionCodes.TellOf (codes : ConditionCodes) (value : Int) : Prop where
  negative : codes.negative ↔ value < 0
  zero : codes.zero ↔ value = 0

/-- The codes tell of every integer of the same sign. -/
theorem ConditionCodes.TellOf.iff_sign_eq {codes : ConditionCodes} {first : Int}
    (tell : codes.TellOf first) (second : Int) :
    codes.TellOf second ↔ first.sign = second.sign := by
  rw [sign_eq_iff, ← tell.negative, ← tell.zero]
  constructor
  · intro other
    exact ⟨other.negative, other.zero⟩
  · rintro ⟨negative, zero⟩
    exact ⟨negative, zero⟩

namespace FlagRule

variable {signals : Signals}

/-- After a division that has completed the codes tell of the word they are worked out
from. -/
theorem tellOf_divide (completed : signals.division = .completed) (value : Word)
    (old : ConditionCodes) :
    (divide.evaluate value .word signals old).TellOf value.toInt ∧
      (divide.evaluate value .word signals old).overflow = false ∧
      (divide.evaluate value .word signals old).carry = false := by
  simp only [evaluate, completed]
  refine ⟨⟨?_, ?_⟩, trivial, trivial⟩
  · rw [Width.and_signBit, BitVec.msb_eq_toInt, decide_eq_true_iff]
    exact iff_of_eq (congrArg (fun word : Word => word.toInt < 0) (BitVec.setWidth_eq value))
  · rw [beq_iff_eq, ← BitVec.toInt_inj]
    rfl

theorem overflow_divide (refused : signals.division ≠ .completed) (value : Word) (width : Width)
    (old : ConditionCodes) : (divide.evaluate value width signals old).overflow := by
  cases status : signals.division with
  | completed => exact absurd status refused
  | byZero | overflow => simp [evaluate, status]

end FlagRule

variable {δ : Type u}

namespace Machine

/-! ## A pair and its quotient -/

section Pair

variable (machine : Machine δ) (reg : Reg)

/-- The pair of registers that starts at `reg`, as one signed integer. -/
def dividend : Int :=
  (pair (machine.reg reg) (machine.reg reg.pairSecond)).toInt

/-- The operand that has been read, as a signed integer. -/
def divisor : Int :=
  (machine.reg .s0).toInt

/-- The quotient, cut toward zero. -/
def quotient : Int :=
  (machine.dividend reg).tdiv machine.divisor

/-- What the quotient leaves, with the sign of the dividend. -/
def remainder : Int :=
  (machine.dividend reg).tmod machine.divisor

/-- There is a quotient, and it fits a word. -/
def HasQuotient : Prop :=
  machine.divisor ≠ 0 ∧ Width.word.Represents (machine.quotient reg)

end Pair

/-- `divided` holds the quotient and the remainder that `read` has for the pair at
`reg`, as far as there is room for both. -/
structure DividesPair (reg : Reg) (read divided : Machine δ) : Prop where
  quotient : reg.pairSecond ≠ reg → (divided.reg reg).toInt = read.quotient reg
  remainder : (divided.reg reg.pairSecond).toInt = read.remainder reg
  /-- The codes are worked out from the first register after both are written. -/
  tells : divided.psw.codes.TellOf (divided.reg reg).toInt
  tells_iff : divided.psw.codes.TellOf (read.quotient reg) ↔
    reg.pairSecond ≠ reg ∨ (read.remainder reg).sign = (read.quotient reg).sign
  overflow : divided.psw.codes.overflow = false
  carry : divided.psw.codes.carry = false

/-- `refused` holds the pair at `reg` as `read` does, and tells that it has not been
divided. -/
structure RefusesPair (reg : Reg) (read refused : Machine δ) : Prop where
  first : refused.reg reg = read.reg reg
  second : refused.reg reg.pairSecond = read.reg reg.pairSecond
  overflow : refused.psw.codes.overflow

/-- Condition codes are no part of what selects a register. -/
theorem reg_withCodes (machine : Machine δ) (codes : ConditionCodes) (reg : Reg) :
    ({ machine with psw := { machine.psw with codes := codes } } : Machine δ).reg reg =
      machine.reg reg := by
  cases reg <;> rfl

end Machine

namespace Datapath

variable [Bus δ] {before after final : Datapath δ} {high low divisor : Reg} {ops : List MicroOp}

/-! ## The micro-operations of a division -/

theorem Step.eq_of_divides {quotient remainder : Word}
    (step : before.Step (.div high low divisor) after)
    (divides : divide (before.reg high) (before.reg low) (before.reg divisor) =
      .ok (quotient, remainder)) :
    after = ({ before with signals := .quiet }.setReg high quotient).setReg low remainder := by
  rw [← step.2]
  simp only [MicroOp.effect, divides]
  rfl

theorem Step.eq_of_refuses {status : DivisionStatus}
    (step : before.Step (.div high low divisor) after)
    (refuses : divide (before.reg high) (before.reg low) (before.reg divisor) = .error status) :
    after = { before with signals := { Signals.quiet with division := status } } := by
  rw [← step.2]
  simp only [MicroOp.effect, refuses]
  rfl

/-- The condition codes are worked out; no register changes. -/
theorem Step.evaluates {rule : FlagRule} {result : Reg} {width : Width}
    (step : before.Step (.evalFlags rule result width) after)
    (unwritten : before.machine.pswWritten = false) :
    after.machine.psw.codes =
        rule.evaluate (before.reg result &&& width.mask) width before.signals
          before.machine.psw.codes ∧
      ∀ reg, after.machine.reg reg = before.reg reg := by
  rw [← step.2]
  simp only [MicroOp.effect, unwritten]
  exact ⟨rfl, before.machine.reg_withCodes _⟩

/-- What gathers does not store, so it does not write the status word. -/
theorem Steps.pswWritten_of_gathers (steps : Steps before ops final)
    (gathers : ∀ op ∈ ops, op.gathers) :
    final.machine.pswWritten = before.machine.pswWritten := by
  refine steps.preserves
    (fun reached => reached.machine.pswWritten = before.machine.pswWritten) ?_ rfl
  intro op opMem reached next step same
  obtain ⟨-, rfl⟩ := step
  have notStore := MicroOp.isStore_of_gathers (gathers op opMem)
  exact (MicroOp.pswWritten_effect_of_not_store notStore reached).trans same

variable {read divided : Datapath δ} {reg : Reg}

/-- The remainder is put last, so it is what an odd register holds when the codes
are worked out. -/
theorem dividesPair_of_steps (unwritten : read.machine.pswWritten = false)
    (divides : read.Step (.div reg reg.pairSecond .s0) divided)
    (flags : divided.Step (.evalFlags .divide reg .word) final)
    (hasQuotient : read.machine.HasQuotient reg) :
    Machine.DividesPair reg read.machine final.machine := by
  obtain ⟨nonzero, fits⟩ := hasQuotient
  obtain rfl := divides.eq_of_divides (divide_of_represents nonzero fits)
  obtain ⟨codes, registers⟩ := flags.evaluates unwritten
  obtain ⟨tells, overflow, carry⟩ :
      final.machine.psw.codes.TellOf (final.machine.reg reg).toInt ∧
        final.machine.psw.codes.overflow = false ∧ final.machine.psw.codes.carry = false := by
    rw [codes, registers, and_mask_word]
    exact FlagRule.tellOf_divide rfl _ _
  have second : (final.machine.reg reg.pairSecond).toInt = read.machine.remainder reg := by
    rw [registers, reg_setReg, if_pos rfl]
    exact toInt_ofInt_tmod _ nonzero
  have first (apart : reg.pairSecond ≠ reg) :
      (final.machine.reg reg).toInt = read.machine.quotient reg := by
    rw [registers, reg_setReg, if_neg apart, reg_setReg, if_pos rfl]
    exact toInt_ofInt_of_represents fits
  have tells_iff : final.machine.psw.codes.TellOf (read.machine.quotient reg) ↔
      reg.pairSecond ≠ reg ∨
        (read.machine.remainder reg).sign = (read.machine.quotient reg).sign := by
    by_cases same : reg.pairSecond = reg
    · rw [same] at second
      rw [tells.iff_sign_eq, second]
      simp [same]
    · have tellsQuotient := tells
      rw [first same] at tellsQuotient
      exact iff_of_true tellsQuotient (.inl same)
  exact ⟨first, second, tells, tells_iff, overflow, carry⟩

theorem refusesPair_of_steps (unwritten : read.machine.pswWritten = false)
    (refuses : read.Step (.div reg reg.pairSecond .s0) divided)
    (flags : divided.Step (.evalFlags .divide reg .word) final)
    (noQuotient : ¬ read.machine.HasQuotient reg) :
    Machine.RefusesPair reg read.machine final.machine := by
  have refused : ∃ status, status ≠ .completed ∧
      divide (read.reg reg) (read.reg reg.pairSecond) (read.reg .s0) = .error status := by
    by_cases zero : read.machine.divisor = 0
    · exact ⟨.byZero, by simp, divide_of_zero zero⟩
    · have outside : ¬ Width.word.Represents (read.machine.quotient reg) :=
        fun fits => noQuotient ⟨zero, fits⟩
      exact ⟨.overflow _, by simp, divide_of_not_represents zero outside⟩
  obtain ⟨status, notCompleted, refused⟩ := refused
  obtain rfl := refuses.eq_of_refuses refused
  obtain ⟨codes, registers⟩ := flags.evaluates unwritten
  refine ⟨registers reg, registers reg.pairSecond, ?_⟩
  rw [codes]
  exact FlagRule.overflow_divide notCompleted _ _ _

end Datapath

/-! ## The instruction -/

namespace Instruction

variable {instruction : Instruction}

theorem program_of_div (opcode : instruction.opcode = .div) :
    instruction.program =
      instruction.readOperand .word ++
        [.div instruction.registerField instruction.registerField.pairSecond .s0,
          .evalFlags .divide instruction.registerField .word] := by
  rw [program, opcode]
  rfl

end Instruction

namespace Machine

variable [Bus δ]

/-- A division that runs to its end reads its operand and divides the pair by it, or
refuses to. Its codes tell of the quotient unless the register is odd and the remainder
has another sign. -/
theorem divides_of_completed (machine : Machine δ) {instruction : Instruction}
    {pipeline : Pipeline} (opcode : instruction.opcode = .div)
    (encoded : instruction.encode = .ok pipeline) (unwritten : machine.pswWritten = false)
    (completed : (machine.execute pipeline).result = .ok .completed) :
    let reg := instruction.registerField
    let final := (machine.execute pipeline).machine
    ∃ read : Datapath δ,
      Datapath.Steps { machine := machine, signals := .quiet }
        (instruction.readOperand .word) read ∧
      (read.machine.HasQuotient reg → DividesPair reg read.machine final) ∧
      (¬ read.machine.HasQuotient reg → RefusesPair reg read.machine final) := by
  intro reg final
  obtain ⟨last, steps, reached⟩ :
      ∃ last, Datapath.Steps { machine := machine, signals := .quiet } instruction.program last ∧
        last.machine = final := exists_steps_of_completed encoded completed
  rw [Instruction.program_of_div opcode] at steps
  rcases Datapath.Steps.append_iff.mp steps with ⟨read, reads, rest⟩
  rcases Datapath.Steps.cons_iff.mp rest with ⟨divided, divides, flagging⟩
  rcases Datapath.Steps.cons_iff.mp flagging with ⟨_, flags, ⟨⟩⟩
  have stillUnwritten : read.machine.pswWritten = false :=
    (reads.pswWritten_of_gathers (instruction.gathers_readOperand .word)).trans unwritten
  rw [← reached]
  exact ⟨read, reads, Datapath.dividesPair_of_steps stillUnwritten divides flags,
    Datapath.refusesPair_of_steps stillUnwritten divides flags⟩

/-- A machine with -1 in `R1`, which is a pair by itself, and 2 in `R2`. -/
def beforeDivision : Machine NoDevices :=
  { ofConfig Config.default .none with
    registers :=
      (RegisterFile.cleared.set (.general false 1) 0o177777).set (.general false 2) 2 }

/-- `DIV R2,R1` -/
def divideOddRegister : Instruction where
  pc := 0
  word := 0o071102
  opcode := .div
  extension := []

/-- The program of `divideOddRegister`. -/
def divideOddRegisterPipeline : Pipeline where
  ops := divideOddRegister.program
  length_le := by decide

/-- The quotient of -1 by 2 is zero, but the codes tell of a negative number, the
remainder. -/
theorem divides_oddRegister :
    ∃ read : Machine NoDevices,
      read.HasQuotient .r1 ∧ read.quotient .r1 = 0 ∧ read.remainder .r1 = -1 ∧
        DividesPair .r1 read (beforeDivision.execute divideOddRegisterPipeline).machine ∧
        ¬ (beforeDivision.execute divideOddRegisterPipeline).machine.psw.codes.TellOf 0 := by
  have divides := beforeDivision.divides_of_completed rfl
    (Pipeline.ofOps_eq_ok_iff.mpr rfl : divideOddRegister.encode = .ok divideOddRegisterPipeline)
    rfl rfl
  rcases divides with ⟨read, reads, divides, -⟩
  have once : Datapath.Steps { machine := beforeDivision, signals := .quiet }
      (divideOddRegister.readOperand .word)
      (({ machine := beforeDivision, signals := .quiet } : Datapath NoDevices).setReg .s0 2) :=
    .single ⟨rfl, rfl⟩
  obtain rfl := reads.unique once
  have hasQuotient : (beforeDivision.setReg .s0 2).HasQuotient .r1 := by
    refine ⟨by decide, ?_, ?_⟩ <;> decide
  refine ⟨_, hasQuotient, rfl, rfl, divides hasQuotient, ?_⟩
  intro tells
  exact absurd (tells.zero.mpr rfl) (by decide)

end Machine

end Pdp11
