import Mathlib.Algebra.Group.Int.Defs
import Pdp11.Arithmetic.Extended
import Pdp11.Proofs.Arithmetic.Exact

/-!
# Division of a pair by a word

Division cuts the quotient toward zero, leaves the remainder the sign of the dividend
and refuses a quotient that does not fit a word. Carried out in words of 32 bits it
stays inside them: the only quotient that leaves them is refused anyway, and the
product of quotient and divisor lies between zero and the dividend.
-/

namespace Pdp11

/-! ## Quotients cut toward zero -/

section Truncated

variable {dividend divisor : Int}

theorem natAbs_tmod_lt (dividend : Int) (nonzero : divisor ≠ 0) :
    (dividend.tmod divisor).natAbs < divisor.natAbs := by
  rw [Int.natAbs_tmod]
  exact Nat.mod_lt _ (Int.natAbs_pos.mpr nonzero)

theorem tmod_eq_zero_or_sign_eq (dividend divisor : Int) :
    dividend.tmod divisor = 0 ∨ (dividend.tmod divisor).sign = dividend.sign := by
  have sign := Int.sign_tmod dividend divisor
  split at sign
  · exact .inl (Int.sign_eq_zero_iff_zero.mp sign)
  · exact .inr sign

/-- The remainder lies between zero and the dividend. -/
theorem tmod_between (dividend divisor : Int) :
    min dividend 0 ≤ dividend.tmod divisor ∧ dividend.tmod divisor ≤ max dividend 0 := by
  have small : (dividend.tmod divisor).natAbs ≤ dividend.natAbs := by
    rw [Int.natAbs_tmod]
    exact Nat.mod_le _ _
  have upward : 0 ≤ dividend → 0 ≤ dividend.tmod divisor := Int.tmod_nonneg divisor
  have downward : dividend ≤ 0 → dividend.tmod divisor ≤ 0 := by
    intro below
    have opposite := Int.tmod_nonneg divisor (Int.neg_nonneg_of_nonpos below)
    rw [Int.neg_tmod] at opposite
    omega
  omega

/-- So does the product of quotient and divisor. -/
theorem tdiv_mul_between (dividend divisor : Int) :
    min dividend 0 ≤ dividend.tdiv divisor * divisor ∧
      dividend.tdiv divisor * divisor ≤ max dividend 0 := by
  have sum := Int.tdiv_mul_add_tmod dividend divisor
  have between := tmod_between dividend divisor
  omega

theorem sign_cases (value : Int) :
    (value < 0 ∧ value.sign = -1) ∨ (value = 0 ∧ value.sign = 0) ∨
      (0 < value ∧ value.sign = 1) := by
  rcases Int.lt_trichotomy value 0 with below | none | above
  · exact .inl ⟨below, Int.sign_eq_neg_one_of_neg below⟩
  · exact .inr (.inl ⟨none, Int.sign_eq_zero_iff_zero.mpr none⟩)
  · exact .inr (.inr ⟨above, Int.sign_eq_one_of_pos above⟩)

theorem signs_differ_iff (dividendNonzero : dividend ≠ 0) (divisorNonzero : divisor ≠ 0) :
    (decide (dividend < 0) != decide (divisor < 0)) ↔ dividend.sign = -divisor.sign := by
  have dividendCases := sign_cases dividend
  have divisorCases := sign_cases divisor
  rw [bne_iff_ne, ne_eq, decide_eq_decide]
  omega

theorem sign_eq_iff (first second : Int) :
    first.sign = second.sign ↔ (first < 0 ↔ second < 0) ∧ (first = 0 ↔ second = 0) := by
  have firstCases := sign_cases first
  have secondCases := sign_cases second
  omega

end Truncated

/-! ## The division of words is exact -/

/-- `result` is what the exact division of `dividend` by `divisor` comes to in words. -/
structure DividesExactly (dividend divisor : Int) (result : Except DivisionStatus (Word × Word)) :
    Prop where
  byZero_iff : result = .error .byZero ↔ divisor = 0
  ok_iff : (∃ quotient remainder, result = .ok (quotient, remainder)) ↔
    divisor ≠ 0 ∧ Width.word.Represents (dividend.tdiv divisor)
  quotient : ∀ quotient remainder, result = .ok (quotient, remainder) →
    quotient.toInt = dividend.tdiv divisor ∧ quotient.toInt * divisor + remainder.toInt = dividend
  remainder : ∀ quotient remainder, result = .ok (quotient, remainder) →
    remainder.toInt.natAbs < divisor.natAbs ∧
      (remainder.toInt = 0 ∨ remainder.toInt.sign = dividend.sign)
  /-- The flag tells whether the signs differ. -/
  overflow_iff : ∀ negative, result = .error (.overflow negative) ↔
    divisor ≠ 0 ∧ ¬ Width.word.Represents (dividend.tdiv divisor) ∧
      (negative ↔ dividend.sign = -divisor.sign)

theorem toInt_ofInt_of_represents {value : Int} (fits : Width.word.Represents value) :
    (BitVec.ofInt 16 value).toInt = value :=
  BitVec.toInt_ofInt_eq_self (by decide) fits.1 fits.2

/-- The remainder by a word fits a word. -/
theorem toInt_ofInt_tmod (dividend : Int) {divisor : Word} (nonzero : divisor.toInt ≠ 0) :
    (BitVec.ofInt 16 (dividend.tmod divisor.toInt)).toInt = dividend.tmod divisor.toInt := by
  have small := natAbs_tmod_lt dividend nonzero
  have above : -0x8000 ≤ divisor.toInt := BitVec.le_toInt divisor
  have below : divisor.toInt < 0x8000 := BitVec.toInt_lt
  exact toInt_ofInt_of_represents ⟨by omega, by omega⟩

section Division

variable {high low divisor : Word}

theorem divide_of_zero (zero : divisor.toInt = 0) : divide high low divisor = .error .byZero :=
  if_pos zero

theorem divide_of_represents (nonzero : divisor.toInt ≠ 0)
    (fits : Width.word.Represents ((pair high low).toInt.tdiv divisor.toInt)) :
    divide high low divisor =
      .ok (BitVec.ofInt 16 ((pair high low).toInt.tdiv divisor.toInt),
        BitVec.ofInt 16 ((pair high low).toInt.tmod divisor.toInt)) :=
  (if_neg nonzero).trans (if_pos fits)

theorem divide_of_not_represents (nonzero : divisor.toInt ≠ 0)
    (outside : ¬ Width.word.Represents ((pair high low).toInt.tdiv divisor.toInt)) :
    divide high low divisor =
      .error (.overflow (decide ((pair high low).toInt < 0) != decide (divisor.toInt < 0))) :=
  (if_neg nonzero).trans (if_neg outside)

theorem dividesExactly_divide (high low divisor : Word) :
    DividesExactly (pair high low).toInt divisor.toInt (divide high low divisor) := by
  by_cases zero : divisor.toInt = 0
  · rw [divide_of_zero zero]
    constructor <;> simp [zero]
  · by_cases fits : Width.word.Represents ((pair high low).toInt.tdiv divisor.toInt)
    · rw [divide_of_represents zero fits]
      constructor
      · simp [zero]
      · simp [zero, fits]
      · rintro _ _ ⟨⟩
        rw [toInt_ofInt_of_represents fits, toInt_ofInt_tmod _ zero]
        exact ⟨rfl, Int.tdiv_mul_add_tmod _ _⟩
      · rintro _ _ ⟨⟩
        rw [toInt_ofInt_tmod _ zero]
        exact ⟨natAbs_tmod_lt _ zero, tmod_eq_zero_or_sign_eq _ _⟩
      · simp [zero, fits]
    · -- Zero divided by anything fits, so here the dividend has a sign.
      have nonzero : (pair high low).toInt ≠ 0 := by
        intro none
        apply fits
        rw [none, Int.zero_tdiv]
        exact ⟨by decide, by decide⟩
      rw [divide_of_not_represents zero fits]
      constructor
      · simp [zero]
      · simp [zero, fits]
      · simp
      · simp
      · intro negative
        rw [← signs_differ_iff nonzero zero, Except.error.injEq, DivisionStatus.overflow.injEq,
          Bool.eq_iff_iff]
        exact ⟨fun same => ⟨zero, fits, same.symm⟩, fun ⟨_, _, same⟩ => same.symm⟩

end Division

/-! ## Products, differences and quotients inside a width -/

section Checked

variable {width : Nat}

/-- The product, if it is a signed integer of the width. -/
def product? (first second : BitVec width) : Option (BitVec width) :=
  if first.smulOverflow second then none else some (first * second)

/-- The difference, if it is a signed integer of the width. -/
def difference? (first second : BitVec width) : Option (BitVec width) :=
  if first.ssubOverflow second then none else some (first - second)

/-- The quotient cut toward zero, if there is one and it is a signed integer of the
width. -/
def quotient? (dividend divisor : BitVec width) : Option (BitVec width) :=
  if divisor = 0 ∨ dividend.sdivOverflow divisor then none else some (dividend.sdiv divisor)

theorem product?_of_inside {first second : BitVec width}
    (inside : -2 ^ (width - 1) ≤ first.toInt * second.toInt ∧
      first.toInt * second.toInt < 2 ^ (width - 1)) :
    product? first second = some (first * second) ∧
      (first * second).toInt = first.toInt * second.toInt := by
  have stays : ¬ first.smulOverflow second := by
    simp [BitVec.smulOverflow, inside]
  exact ⟨if_neg stays, BitVec.toInt_mul_of_not_smulOverflow stays⟩

theorem difference?_of_inside {first second : BitVec width}
    (inside : -2 ^ (width - 1) ≤ first.toInt - second.toInt ∧
      first.toInt - second.toInt < 2 ^ (width - 1)) :
    difference? first second = some (first - second) ∧
      (first - second).toInt = first.toInt - second.toInt := by
  have stays : ¬ first.ssubOverflow second := by
    simp [BitVec.ssubOverflow, inside]
  exact ⟨if_neg stays, BitVec.toInt_sub_of_not_ssubOverflow stays⟩

/-- The only quotient that leaves the width is the opposite of the least integer. -/
theorem quotient?_cases (positive : 0 < width) (dividend : BitVec width) {divisor : BitVec width}
    (nonzero : divisor ≠ 0) :
    (∃ quotient, quotient? dividend divisor = some quotient ∧
      quotient.toInt = dividend.toInt.tdiv divisor.toInt) ∨
    (quotient? dividend divisor = none ∧
      dividend.toInt.tdiv divisor.toInt = 2 ^ (width - 1)) := by
  by_cases leaves : dividend.sdivOverflow divisor
  · have least := leaves
    simp only [BitVec.sdivOverflow_eq, Bool.and_eq_true, decide_eq_true_eq] at least
    refine .inr ⟨if_pos (.inr leaves), ?_⟩
    rw [least.1.2, least.2, BitVec.toInt_intMin_of_pos positive, BitVec.toInt_allOnes,
      if_pos positive, Int.tdiv_neg, Int.tdiv_one, Int.neg_neg]
  · have apart : dividend ≠ BitVec.intMin width ∨ divisor ≠ -BitVec.ofNat width 1 := by
      apply Decidable.not_and_iff_not_or_not.mp
      rintro ⟨least, opposes⟩
      apply leaves
      rw [BitVec.sdivOverflow_eq, least, opposes, BitVec.neg_one_eq_allOnes]
      simp [positive]
    refine .inl ⟨dividend.sdiv divisor, if_neg (not_or.mpr ⟨nonzero, leaves⟩), ?_⟩
    exact BitVec.toInt_sdiv_of_ne_or_ne dividend divisor apart

/-- A quotient is multiplied back and taken from the dividend inside the width. -/
theorem remainder_inside {dividend divisor quotient : BitVec width}
    (cut : quotient.toInt = dividend.toInt.tdiv divisor.toInt) :
    product? quotient divisor = some (quotient * divisor) ∧
      difference? dividend (quotient * divisor) = some (dividend - quotient * divisor) ∧
      (dividend - quotient * divisor).toInt = dividend.toInt.tmod divisor.toInt := by
  have size : (0 : Int) < 2 ^ (width - 1) := Int.pow_pos (by decide)
  have above : -2 ^ (width - 1) ≤ dividend.toInt := BitVec.le_toInt dividend
  have below : dividend.toInt < 2 ^ (width - 1) := BitVec.toInt_lt
  have sum := Int.tdiv_mul_add_tmod dividend.toInt divisor.toInt
  have product : -2 ^ (width - 1) ≤ quotient.toInt * divisor.toInt ∧
      quotient.toInt * divisor.toInt < 2 ^ (width - 1) := by
    have between := tdiv_mul_between dividend.toInt divisor.toInt
    rw [cut]
    omega
  obtain ⟨multiplies, multiplied⟩ := product?_of_inside product
  rw [cut] at multiplied
  have left : dividend.toInt - (quotient * divisor).toInt = dividend.toInt.tmod divisor.toInt := by
    omega
  have difference : -2 ^ (width - 1) ≤ dividend.toInt - (quotient * divisor).toInt ∧
      dividend.toInt - (quotient * divisor).toInt < 2 ^ (width - 1) := by
    have between := tmod_between dividend.toInt divisor.toInt
    omega
  obtain ⟨subtracts, subtracted⟩ := difference?_of_inside difference
  exact ⟨multiplies, subtracts, subtracted.trans left⟩

end Checked

/-! ## The division of words stays in words -/

/-- Division carried out in signed words of 32 bits. There is no answer if a product or
a difference on the way leaves them. -/
def divideInWords (high low divisor : Word) : Option (Except DivisionStatus (Word × Word)) :=
  let dividend := pair high low
  let divisor := divisor.signExtend 32
  let opposite := dividend.msb != divisor.msb
  if divisor = 0 then
    some (.error .byZero)
  else
    match quotient? dividend divisor with
    | none => some (.error (.overflow opposite))
    | some quotient =>
      if -0x8000 ≤ quotient.toInt ∧ quotient.toInt < 0x8000 then do
        let product ← product? quotient divisor
        let remainder ← difference? dividend product
        some (.ok (quotient.setWidth 16, remainder.setWidth 16))
      else
        some (.error (.overflow opposite))

theorem setWidth_eq_ofInt (wide : BitVec 32) : wide.setWidth 16 = BitVec.ofInt 16 wide.toInt := by
  apply BitVec.eq_of_toNat_eq
  have below := wide.isLt
  rw [BitVec.toNat_setWidth, BitVec.toNat_ofInt, BitVec.toInt_eq_toNat_cond]
  split <;> omega

theorem toInt_extended (word : Word) : (word.signExtend 32).toInt = word.toInt :=
  BitVec.toInt_signExtend_of_le (by decide)

theorem divideInWords_eq (high low divisor : Word) :
    divideInWords high low divisor = some (divide high low divisor) := by
  have zero_iff : divisor.signExtend 32 = 0 ↔ divisor.toInt = 0 := by
    rw [← toInt_extended, ← BitVec.toInt_inj]
    rfl
  have opposite : ((pair high low).msb != (divisor.signExtend 32).msb) =
      (decide ((pair high low).toInt < 0) != decide (divisor.toInt < 0)) := by
    rw [BitVec.msb_eq_toInt, BitVec.msb_eq_toInt, toInt_extended]
  unfold divideInWords
  dsimp only
  rw [opposite]
  by_cases zero : divisor.toInt = 0
  · rw [if_pos (zero_iff.mpr zero), divide_of_zero zero]
  · rw [if_neg (mt zero_iff.mp zero)]
    rcases quotient?_cases (by decide) (pair high low) (mt zero_iff.mp zero) with
      ⟨quotient, divides, cut⟩ | ⟨leaves, cut⟩
    · obtain ⟨multiplies, subtracts, remainder⟩ := remainder_inside cut
      rw [toInt_extended] at cut remainder
      rw [divides]
      dsimp only
      rw [multiplies, Option.bind_eq_bind, Option.bind_some, subtracts, Option.bind_some,
        setWidth_eq_ofInt, setWidth_eq_ofInt, remainder, cut]
      by_cases fits : Width.word.Represents ((pair high low).toInt.tdiv divisor.toInt)
      · rw [divide_of_represents zero fits]
        exact if_pos fits
      · rw [divide_of_not_represents zero fits]
        exact if_neg fits
    · have outside : ¬ Width.word.Represents ((pair high low).toInt.tdiv divisor.toInt) := by
        rw [← toInt_extended divisor, cut]
        exact fun fits => absurd fits.2 (by decide)
      rw [leaves, divide_of_not_represents zero outside]

/-! ## Products are divided back -/

theorem pair_halves (wide : BitVec 32) : pair (pairHigh wide) (pairLow wide) = wide := by
  apply BitVec.eq_of_getLsbD_eq
  intro i below
  simp only [pair, pairHigh, pairLow, BitVec.getLsbD_append, BitVec.getLsbD_extractLsb']
  by_cases inLow : i < 16
  · simp [inLow]
  · have inHigh : i - 16 < 16 := by omega
    have shifted : 16 + (i - 16) = i := by omega
    simp [inLow, inHigh, shifted]

/-- Words multiply inside 32 bits. -/
theorem multiply_inside (first second : Word) :
    product? (first.signExtend 32) (second.signExtend 32) = some (multiply first second) ∧
      (multiply first second).toInt = first.toInt * second.toInt := by
  have small (word : Word) : word.toInt.natAbs ≤ 0x8000 := by
    have above : -0x8000 ≤ word.toInt := BitVec.le_toInt word
    have below : word.toInt < 0x8000 := BitVec.toInt_lt
    omega
  have bound : (first.toInt * second.toInt).natAbs ≤ 0x8000 * 0x8000 := by
    rw [Int.natAbs_mul]
    exact Nat.mul_le_mul (small first) (small second)
  have inside : -2 ^ 31 ≤ (first.signExtend 32).toInt * (second.signExtend 32).toInt ∧
      (first.signExtend 32).toInt * (second.signExtend 32).toInt < 2 ^ 31 := by
    rw [toInt_extended, toInt_extended]
    omega
  obtain ⟨multiplies, multiplied⟩ := product?_of_inside inside
  rw [toInt_extended, toInt_extended] at multiplied
  exact ⟨multiplies, multiplied⟩

/-- The condition codes of a product tell its sign, whether it is zero and whether it
is too large for a word; they do not look at the word that is stored. -/
theorem evaluate_multiply (first second value : Word) (width : Width) (old : ConditionCodes) :
    FlagRule.multiply.evaluate value width
        { Signals.quiet with wide := multiply first second } old =
      { negative := first.toInt * second.toInt < 0
        zero := first.toInt * second.toInt = 0
        overflow := false
        carry := ¬ Width.word.Represents (first.toInt * second.toInt) } := by
  have outside (product : Int) :
      product < -0x8000 ∨ product ≥ 0x8000 ↔ ¬ Width.word.Represents product := by
    rw [Width.Represents]
    omega
  rw [← (multiply_inside first second).2, ← decide_eq_decide.mpr (outside _)]
  rfl

theorem divide_multiply (first second : Word) :
    divide (pairHigh (multiply first second)) (pairLow (multiply first second)) second =
      if second = 0 then .error .byZero else .ok (first, 0) := by
  have zero_iff : second = 0 ↔ second.toInt = 0 := by
    rw [← BitVec.toInt_inj]
    rfl
  split
  · rename_i zero
    exact divide_of_zero (zero_iff.mp zero)
  · rename_i nonzero
    have apart : second.toInt ≠ 0 := mt zero_iff.mpr nonzero
    have product : (pair (pairHigh (multiply first second))
        (pairLow (multiply first second))).toInt = first.toInt * second.toInt := by
      rw [pair_halves]
      exact (multiply_inside first second).2
    have quotient : (first.toInt * second.toInt).tdiv second.toInt = first.toInt :=
      Int.mul_tdiv_cancel first.toInt apart
    have remainder : (first.toInt * second.toInt).tmod second.toInt = 0 :=
      Int.mul_tmod_left first.toInt second.toInt
    have fits : Width.word.Represents ((pair (pairHigh (multiply first second))
        (pairLow (multiply first second))).toInt.tdiv second.toInt) := by
      rw [product, quotient]
      exact ⟨BitVec.le_toInt first, BitVec.toInt_lt⟩
    rw [divide_of_represents apart fits, product, quotient, remainder, BitVec.ofInt_toInt]
    rfl

/-- Division is exact for every pair and divisor, it stays inside words of 32 bits, and it
undoes multiplication, which stays inside them too. -/
theorem division_exact (high low divisor first second : Word) :
    DividesExactly (pair high low).toInt divisor.toInt (divide high low divisor) ∧
      divideInWords high low divisor = some (divide high low divisor) ∧
      product? (first.signExtend 32) (second.signExtend 32) = some (multiply first second) ∧
      divide (pairHigh (multiply first second)) (pairLow (multiply first second)) second =
        if second = 0 then .error .byZero else .ok (first, 0) :=
  ⟨dividesExactly_divide high low divisor, divideInWords_eq high low divisor,
    (multiply_inside first second).1, divide_multiply first second⟩

end Pdp11
