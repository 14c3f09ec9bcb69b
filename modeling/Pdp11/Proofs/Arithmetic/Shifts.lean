import Mathlib.Data.Int.Bitwise
import Pdp11.Arithmetic.Extended

/-!
# Long shifts

A long shift moves its operand one place at a time. To the left it multiplies by a
power of two and cuts the product to the width, and the sign differs from the first
one at some place exactly when the product does not fit the width. To the right it
divides by a power of two and rounds toward minus infinity.
-/

namespace Pdp11

/-! ## Signed integers of a width -/

/-- The signed integers of `width` bits. -/
def FitsSigned (width : Nat) (value : Int) : Prop :=
  -2 ^ width ≤ 2 * value ∧ 2 * value < 2 ^ width

section Signed

variable {width : Nat}

theorem fitsSigned_toInt (word : BitVec width) : FitsSigned width word.toInt :=
  ⟨BitVec.le_two_mul_toInt, BitVec.two_mul_toInt_lt⟩

theorem bmod_of_fitsSigned {value : Int} (fits : FitsSigned width value) :
    value.bmod (2 ^ width) = value := by
  obtain ⟨above, below⟩ := fits
  apply Int.bmod_eq_of_le_mul_two <;> push_cast <;> omega

theorem FitsSigned.of_two_mul {value : Int} (fits : FitsSigned width (2 * value)) :
    FitsSigned width value := by
  have positive : (0 : Int) < 2 ^ width := Int.pow_pos (by decide)
  obtain ⟨above, below⟩ := fits
  constructor <;> omega

theorem toInt_shiftLeft (word : BitVec width) (places : Nat) :
    (word <<< places).toInt = (word.toInt * 2 ^ places).bmod (2 ^ width) := by
  rw [BitVec.toInt_shiftLeft, Nat.shiftLeft_eq, BitVec.toInt_eq_toNat_bmod, Int.bmod_mul_bmod]
  push_cast
  rfl

/-- A double that does not fit comes back with the other sign. -/
theorem bmod_two_mul_of_not_fits {value : Int} (fits : FitsSigned width value)
    (outside : ¬ FitsSigned width (2 * value)) :
    (2 * value).bmod (2 ^ width) =
      if value < 0 then 2 * value + 2 ^ width else 2 * value - 2 ^ width := by
  obtain ⟨above, below⟩ := fits
  unfold FitsSigned at outside
  split
  · have turned : FitsSigned width (2 * value + 2 ^ width) := by
      constructor <;> omega
    rw [← bmod_of_fitsSigned turned]
    exact_mod_cast (Int.add_bmod_right (2 * value) (2 ^ width)).symm
  · have turned : FitsSigned width (2 * value - 2 ^ width) := by
      constructor <;> omega
    rw [← bmod_of_fitsSigned turned]
    exact_mod_cast (Int.sub_bmod_right (2 * value) (2 ^ width)).symm

/-- One place to the left the sign changes where the double does not fit. -/
theorem msb_shiftLeft_one_ne_iff (word : BitVec width) :
    (word <<< 1).msb ≠ word.msb ↔ ¬ FitsSigned width (2 * word.toInt) := by
  have double : (word <<< 1).toInt = (2 * word.toInt).bmod (2 ^ width) := by
    rw [toInt_shiftLeft, Int.pow_one, Int.mul_comm]
  rw [BitVec.msb_eq_toInt, BitVec.msb_eq_toInt, ne_eq, decide_eq_decide, not_iff_not, double]
  by_cases fits : FitsSigned width (2 * word.toInt)
  · rw [bmod_of_fitsSigned fits]
    exact iff_of_true (by omega) fits
  · obtain ⟨above, below⟩ := fitsSigned_toInt word
    rw [bmod_two_mul_of_not_fits ⟨above, below⟩ fits]
    exact iff_of_false (by split <;> omega) fits

/-- Above its width a signed integer goes on with its sign. -/
theorem testBit_toInt (word : BitVec width) (place : Nat) :
    word.toInt.testBit place = if place < width then word.getLsbD place else word.msb := by
  cases negative : word.msb with
  | false =>
      rw [BitVec.toInt_eq_msb_cond, negative, if_neg Bool.false_ne_true]
      change word.getLsbD place = _
      split
      · rfl
      · exact BitVec.getLsbD_of_ge word place (by omega)
  | true =>
      have below := word.isLt
      have opposite : word.toInt = Int.negSucc (2 ^ width - (word.toNat + 1)) := by
        rw [BitVec.toInt_eq_msb_cond, negative, if_pos rfl]
        omega
      rw [opposite]
      change (!(2 ^ width - (word.toNat + 1)).testBit place) = _
      rw [Nat.testBit_two_pow_sub_succ below]
      by_cases inside : place < width
      · rw [decide_eq_true inside, if_pos inside, Bool.true_and, Bool.not_not]
        rfl
      · rw [decide_eq_false inside, if_neg inside]
        rfl

end Signed

namespace LongShift

variable {width : Nat}

/-! ## Shifts to the left -/

/-- What `value` has come to `places` to the left. -/
structure ShiftedLeft (value : BitVec width) (places : Nat) (shift : LongShift width) : Prop where
  cut : shift.value.toNat = value.toNat * 2 ^ places % 2 ^ width
  signChanged : shift.signChanged ↔ ¬ FitsSigned width (value.toInt * 2 ^ places)
  /-- No bit has left yet, or the last bit that left the top. Only as many bits leave as there
  are. -/
  shiftedOut : shift.shiftedOut ↔ 0 < places ∧ places ≤ width ∧ value.getLsbD (width - places)

namespace ShiftedLeft

variable {value : BitVec width} {places : Nat} {shift : LongShift width}

theorem start (value : BitVec width) : ShiftedLeft value 0 (.start value) where
  cut := by
    rw [Nat.pow_zero, Nat.mul_one, Nat.mod_eq_of_lt value.isLt]
    rfl
  signChanged := by
    rw [Int.pow_zero, Int.mul_one]
    exact iff_of_false Bool.false_ne_true (not_not_intro (fitsSigned_toInt value))
  shiftedOut := iff_of_false Bool.false_ne_true fun ⟨moved, _⟩ => Nat.lt_irrefl 0 moved

theorem value_eq (shifted : ShiftedLeft value places shift) : shift.value = value <<< places := by
  apply BitVec.eq_of_toNat_eq
  rw [shifted.cut, BitVec.toNat_shiftLeft, Nat.shiftLeft_eq]

theorem left (shifted : ShiftedLeft value places shift) :
    ShiftedLeft value (places + 1) (shift.left value.msb) where
  cut := by
    change (shift.value <<< 1).toNat = _
    rw [shifted.value_eq, ← BitVec.shiftLeft_add, BitVec.toNat_shiftLeft, Nat.shiftLeft_eq]
  signChanged := by
    change (shift.signChanged || (shift.value <<< 1).msb != value.msb) = true ↔ _
    rw [Bool.or_eq_true, shifted.signChanged, bne_iff_ne, Int.pow_succ, ← Int.mul_assoc,
      Int.mul_comm _ 2]
    by_cases fits : FitsSigned width (value.toInt * 2 ^ places)
    · -- So far the value is exact, and the sign is still the first one.
      have exact : shift.value.toInt = value.toInt * 2 ^ places := by
        rw [shifted.value_eq, toInt_shiftLeft, bmod_of_fitsSigned fits]
      have sign : shift.value.msb = value.msb := by
        have positive : (0 : Int) < 2 ^ places := Int.pow_pos (by decide)
        rw [BitVec.msb_eq_toInt, BitVec.msb_eq_toInt, exact, decide_eq_decide]
        exact ⟨fun less => Int.neg_of_mul_neg_left less positive,
          fun less => Int.mul_neg_of_neg_of_pos less positive⟩
      rw [← sign, msb_shiftLeft_one_ne_iff, exact]
      exact or_iff_right (not_not_intro fits)
    · exact iff_of_true (.inl fits) fun doubled => fits doubled.of_two_mul
  shiftedOut := by
    change shift.value.msb = true ↔ _
    rw [shifted.value_eq, BitVec.msb_shiftLeft, BitVec.getMsbD]
    have place : width - 1 - places = width - (places + 1) := by omega
    rw [place, Bool.and_eq_true, decide_eq_true_iff]
    constructor
    · rintro ⟨below, bit⟩
      exact ⟨Nat.succ_pos places, below, bit⟩
    · rintro ⟨-, below, bit⟩
      exact ⟨below, bit⟩

theorem run (value : BitVec width) (places : Nat) :
    ShiftedLeft value places (Nat.repeat (LongShift.left value.msb) places (.start value)) := by
  induction places with
  | zero => exact start value
  | succ places ih => exact ih.left

end ShiftedLeft

/-! ## Shifts to the right -/

/-- What `value` has come to `places` to the right. -/
structure ShiftedRight (value : BitVec width) (places : Nat) (shift : LongShift width) : Prop where
  rounded : shift.value.toInt = value.toInt.fdiv (2 ^ places)
  signChanged : shift.signChanged = false
  /-- The last bit that left, of as many as the sign fills. -/
  shiftedOut : shift.shiftedOut ↔ 0 < places ∧ value.toInt.testBit (places - 1)

namespace ShiftedRight

variable {value : BitVec width} {places : Nat} {shift : LongShift width}

theorem start (value : BitVec width) : ShiftedRight value 0 (.start value) where
  rounded := by
    rw [Int.pow_zero, Int.fdiv_one]
    rfl
  signChanged := rfl
  shiftedOut := iff_of_false Bool.false_ne_true fun ⟨moved, _⟩ => Nat.lt_irrefl 0 moved

theorem fdiv_two_pow (value : BitVec width) (places : Nat) :
    (value.sshiftRight places).toInt = value.toInt.fdiv (2 ^ places) := by
  have positive : (0 : Int) < 2 ^ places := Int.pow_pos (by decide)
  rw [BitVec.toInt_sshiftRight, Int.shiftRight_eq_div_pow,
    Int.fdiv_eq_ediv_of_nonneg _ (Int.le_of_lt positive)]
  push_cast
  rfl

theorem value_eq (shifted : ShiftedRight value places shift) :
    shift.value = value.sshiftRight places := by
  rw [← BitVec.toInt_inj, shifted.rounded, fdiv_two_pow]

theorem right (shifted : ShiftedRight value places shift) :
    ShiftedRight value (places + 1) shift.right where
  rounded := by
    change (shift.value.sshiftRight 1).toInt = _
    rw [shifted.value_eq, ← BitVec.sshiftRight_add, fdiv_two_pow]
  signChanged := shifted.signChanged
  shiftedOut := by
    change shift.value.getLsbD 0 = true ↔ _
    have bit : shift.value.getLsbD 0 = value.toInt.testBit places := by
      rw [shifted.value_eq, BitVec.getLsbD_sshiftRight, testBit_toInt, Nat.add_zero]
      cases width with
      | zero => exact (BitVec.msb_of_zero_length rfl value).symm
      | succ width => rfl
    rw [bit, Nat.add_sub_cancel]
    exact (and_iff_right (Nat.succ_pos places)).symm

theorem run (value : BitVec width) (places : Nat) :
    ShiftedRight value places (Nat.repeat LongShift.right places (.start value)) := by
  induction places with
  | zero => exact start value
  | succ places ih => exact ih.right

end ShiftedRight

/-! ## Shifts by a count -/

/-- What `value` has come to `places` to the left, or to the right if they are
negative. -/
def Shifted (value : BitVec width) (places : Int) (shift : LongShift width) : Prop :=
  if 0 ≤ places then ShiftedLeft value places.toNat shift
  else ShiftedRight value places.natAbs shift

theorem shifted_run (value : BitVec width) (places : Int) :
    Shifted value places (run value places) := by
  unfold Shifted run
  by_cases leftward : places > 0
  · rw [if_pos leftward, if_pos (Int.le_of_lt leftward)]
    exact .run value places.toNat
  · rw [if_neg leftward]
    split
    · have none : places = 0 := by omega
      rw [none]
      exact .start value
    · exact .run value places.natAbs

end LongShift

theorem signedCount_eq (count : Word) : signedCount count = (count.toNat : Int).bmod 64 :=
  BitVec.toInt_extractLsb'

/-- Shifts of words and of pairs are exact, by as many places as the low six bits of the
count say, taken as a signed integer. -/
theorem longShifts_exact (value high low count : Word) :
    let places := (count.toNat : Int).bmod 64
    LongShift.Shifted value places (shiftArithmetic value count) ∧
      LongShift.Shifted (pair high low) places (shiftArithmeticPair high low count) := by
  intro places
  have counted : signedCount count = places := signedCount_eq count
  constructor
  · rw [shiftArithmetic, counted]
    exact LongShift.shifted_run value places
  · rw [shiftArithmeticPair, counted]
    exact LongShift.shifted_run (pair high low) places

end Pdp11
