import Pdp11.Proofs.Arithmetic.Exact

/-!
# Outcomes of operations

An outcome is a result with the condition codes it leaves. It is said in the integers
that the operands stand for, or bit by bit, and knows neither the arithmetic and logic
unit nor the signals that the condition codes are made from. What a unit computes
realizes the outcome if the result is the same at the width and the rule for the
condition codes makes the codes of the outcome.
-/

namespace Pdp11

/-- A result, of which only the part at the width of the operation counts, and the
condition codes it leaves. -/
structure Outcome where
  result : Word
  codes : ConditionCodes

namespace Outcome

/-- The outcome with `result`, which tells two of the codes. -/
def of (width : Width) (result : Word) (overflow carry : Bool) : Outcome where
  result := result
  codes :=
    { negative := width.signed result < 0
      zero := width.signed result = 0
      overflow
      carry }

/-- Integer arithmetic. The result is cut to the width; overflow tells that the exact
signed result is out of reach. -/
def integer (operation : IntegerOp) (width : Width) (first second : Word)
    (old : ConditionCodes) : Outcome :=
  let unsigned := operation.value (width.unsigned first) (width.unsigned second) old.carry
  let signed := operation.value (width.signed first) (width.signed second) old.carry
  of width (BitVec.ofInt 16 unsigned) (¬ width.Represents signed)
    (operation.carryFlag width unsigned old.carry)

/-- The carry is taken away. Overflow tells that a step down would be out of reach,
whether the carry asks for one or not. -/
def subCarry (width : Width) (operand : Word) (old : ConditionCodes) : Outcome :=
  let unsigned := width.unsigned operand - old.carry.toNat
  of width (BitVec.ofInt 16 unsigned) (¬ width.Represents (width.signed operand - 1))
    (unsigned < 0)

/-- The two bytes of a word are exchanged; the codes are those of the low byte. -/
def swapBytes (operand : Word) : Outcome :=
  of .byte (operand.rotateLeft 8) false false

/-- The sign that the negative flag tells fills the result. -/
def signExtend (width : Width) (old : ConditionCodes) : Outcome :=
  of width (if old.negative then -1 else 0) false old.carry

/-- A unit has computed a word and signals from which `rule` makes the codes of the
outcome. -/
structure Realizes (outcome : Outcome) (rule : FlagRule) (width : Width) (old : ConditionCodes)
    (computed : Word × Signals) : Prop where
  result : computed.1 &&& width.mask = outcome.result &&& width.mask
  codes : rule.evaluate (computed.1 &&& width.mask) width computed.2 old = outcome.codes

section

variable {rule : FlagRule} {width : Width} {old : ConditionCodes} {computed : Word × Signals}
  {result : Word} {overflow carry : Bool}

/-- The negative and zero flags of most rules are read off the result. -/
theorem realizes_of (same : width.part computed.1 = width.part result)
    (codes : rule.evaluate (computed.1 &&& width.mask) width computed.2 old =
      { negative := computed.1 &&& width.mask &&& width.signBit != 0
        zero := computed.1 &&& width.mask == 0
        overflow
        carry }) :
    (of width result overflow carry).Realizes rule width old computed where
  result := width.and_mask_eq_and_mask_iff.mpr same
  codes := by
    have sameSigned : width.signed computed.1 = width.signed result := congrArg BitVec.toInt same
    rw [codes, width.and_signBit_eq_decide, width.and_mask_eq_zero_eq_decide, sameSigned]
    rfl

/-- What lies above the width is not looked at. -/
theorem Realizes.of_and_mask {outcome : Outcome} {word : Word} {signals : Signals}
    (realizes : outcome.Realizes rule width old (word &&& width.mask, signals)) :
    outcome.Realizes rule width old (word, signals) where
  result := (width.and_mask_and_mask word).symm.trans realizes.result
  codes := by rw [← realizes.codes, width.and_mask_and_mask]

/-- Codes are known by what they tell. -/
theorem eq_codes {codes : ConditionCodes} (negative : codes.negative ↔ width.signed result < 0)
    (zero : codes.zero ↔ width.signed result = 0) (isOverflow : codes.overflow = overflow)
    (isCarry : codes.carry = carry) : codes = (of width result overflow carry).codes := by
  have isNegative : codes.negative = decide (width.signed result < 0) := by
    rw [Bool.eq_iff_iff, negative, decide_eq_true_iff]
  have isZero : codes.zero = decide (width.signed result = 0) := by
    rw [Bool.eq_iff_iff, zero, decide_eq_true_iff]
  rw [of, ← isNegative, ← isZero, ← isOverflow, ← isCarry]

end

/-! ## Arithmetic -/

section Arithmetic

variable (width : Width) (first second operand : Word) (old : ConditionCodes)

variable {width first second old} in
/-- What is exact in the integers realizes the outcome of the operation. -/
theorem realizes_of_exact {operation : IntegerOp} {computed : Word × Signals}
    (cut : computed.1 &&& width.mask = computed.1)
    (exact : operation.Exact first second width old.carry old
      (computed.1, operation.flagRule.evaluate computed.1 width computed.2 old)) :
    (integer operation width first second old).Realizes operation.flagRule width old computed := by
  have same : width.part computed.1 =
      width.part (integer operation width first second old).result := by
    apply BitVec.eq_of_toNat_eq
    rw [← width.toNat_and_mask, cut, ← Int.natCast_inj, exact.cut]
    exact (width.toNat_part_ofInt _).symm
  have sameSigned : width.signed computed.1 =
      width.signed (integer operation width first second old).result := congrArg BitVec.toInt same
  refine ⟨width.and_mask_eq_and_mask_iff.mpr same, ?_⟩
  rw [cut]
  apply eq_codes _ _ _ exact.carry
  · rw [exact.negative, sameSigned]
    rfl
  · rw [exact.zero, sameSigned]
    rfl
  · rw [Bool.eq_iff_iff, exact.overflow, decide_eq_true_iff]

theorem realizes_integer (operation : IntegerOp) :
    (integer operation width first second old).Realizes operation.flagRule width old
      (operation.aluOp.run first second width old.carry) :=
  realizes_of_exact (AluOp.run_cut ..) (operation.exact_withCodes first second width old.carry old)

theorem realizes_subCarry :
    (subCarry width operand old).Realizes .subCarry width old
      (AluOp.subCarry.run operand second width old.carry) := by
  have taken : (width.part (carryWord old.carry)).toNat = old.carry.toNat := by
    cases old.carry <;> cases width <;> rfl
  apply realizes_of
  · apply BitVec.eq_of_toNat_eq
    rw [AluOp.run, AluOp.compute, width.part_and_mask, width.part_sub, width.part_and_mask,
      ← Int.natCast_inj, width.toNat_part_ofInt, toNat_sub_eq_emod, taken]
    rfl
  · have least : (operand &&& width.mask == width.signBit) =
        decide (¬ width.Represents (width.signed operand - 1)) := by
      rw [Bool.eq_iff_iff, beq_iff_eq, width.and_mask_eq_signBit_iff, decide_eq_true_iff]
      exact eq_intMin_iff _
    have borrow : (old.carry && operand &&& width.mask == 0) =
        decide (width.unsigned operand - old.carry.toNat < 0) := by
      have none : operand &&& width.mask = 0 ↔ (width.part operand).toNat = 0 := by
        rw [width.and_mask_eq_zero_iff, ← BitVec.toNat_inj]
        exact Iff.rfl
      rw [Bool.eq_iff_iff, Bool.and_eq_true, beq_iff_eq, none, decide_eq_true_iff,
        Width.unsigned]
      cases old.carry with
      | false => simp
      | true =>
          simp only [Bool.toNat_true, true_and]
          omega
    rw [← least, ← borrow]
    rfl

end Arithmetic

/-! ## Logic -/

section Logic

variable (width : Width) (first second word : Word) (old : ConditionCodes) (signals : Signals)

/-- The rule for logic looks at the result alone. -/
theorem realizes_logical :
    (of width word false old.carry).Realizes .logical width old (word, signals) :=
  realizes_of rfl rfl

theorem realizes_and :
    (of width (first &&& second) false old.carry).Realizes .logical width old
      (AluOp.and.run first second width old.carry) := by
  refine realizes_of ?_ rfl
  rw [AluOp.run, AluOp.compute, width.part_and_mask, width.part_and, width.part_and_mask,
    width.part_and_mask, width.part_and]

theorem realizes_or :
    (of width (first ||| second) false old.carry).Realizes .logical width old
      (AluOp.or.run first second width old.carry) := by
  refine realizes_of ?_ rfl
  rw [AluOp.run, AluOp.compute, width.part_and_mask, width.part_or, width.part_and_mask,
    width.part_and_mask, width.part_or]

theorem realizes_complement :
    (of width (~~~first) false true).Realizes .complement width old
      (AluOp.not.run first second width old.carry) := by
  refine realizes_of ?_ rfl
  rw [AluOp.run, AluOp.compute, width.part_and_mask, width.part_not, width.part_and_mask,
    width.part_not]

theorem realizes_test :
    (of width word false false).Realizes .test width old (word, signals) :=
  realizes_of rfl rfl

theorem realizes_clear :
    (of width 0 false false).Realizes .clear width old (0, signals) := by
  refine ⟨rfl, eq_codes ?_ ?_ rfl rfl⟩
  · rw [width.signed_zero]
    exact iff_of_false Bool.false_ne_true (by decide)
  · rw [width.signed_zero]
    exact iff_of_true rfl rfl

theorem realizes_signExtend :
    (signExtend width old).Realizes .signExtend width old
      (if old.negative then 0o177777 else 0, signals) := by
  refine ⟨rfl, eq_codes ?_ ?_ rfl rfl⟩
  · change old.negative = true ↔ _
    rw [width.signed_sign]
    cases old.negative <;> decide
  · change (!old.negative) = true ↔ _
    rw [width.signed_sign]
    cases old.negative <;> decide

theorem rotateLeft_eight : word.rotateLeft 8 = wordOfBytes (highByte word) (lowByte word) := by
  apply BitVec.eq_of_getLsbD_eq
  intro place below
  rw [getLsbD_wordOfBytes, BitVec.getLsbD_rotateLeft, highByte, lowByte,
    BitVec.getLsbD_extractLsb', BitVec.getLsbD_extractLsb', Nat.zero_add]
  by_cases low : place < 8
  · simp [low]
  · have high : place - 8 < 8 := by omega
    simp [low, high, below]

theorem realizes_swapBytes :
    (swapBytes word).Realizes .swapBytes .word old
      (wordOfBytes (highByte word) (lowByte word), signals) := by
  rw [swapBytes, rotateLeft_eight]
  generalize wordOfBytes (highByte word) (lowByte word) = swapped
  have uncut : swapped &&& Width.word.mask = swapped := BitVec.and_allOnes
  have sign : swapped.getLsbD 7 = (Width.byte.part swapped).msb := by
    rw [Width.part, BitVec.msb_setWidth]
    rfl
  refine ⟨rfl, ?_⟩
  rw [uncut]
  refine eq_codes ?_ ?_ rfl rfl
  · change swapped.getLsbD 7 = true ↔ _
    rw [sign, BitVec.msb_eq_toInt, decide_eq_true_iff]
    rfl
  · change (lowByte swapped == 0) = true ↔ _
    rw [beq_iff_eq, Width.byte.signed_eq_zero_iff, Width.part_byte]
    rfl

end Logic

end Outcome

end Pdp11
