import Pdp11.Proofs.Arithmetic.Outcome

/-!
# Shifts and rotations by one place

To the left a shift doubles the unsigned integer, to the right it halves an integer and
rounds down. In a rotation the carry comes into the place that is free. The bit that
leaves becomes the carry, so a rotation loses nothing.
-/

namespace Pdp11

/-! ## Places of a width -/

namespace Width

variable (width : Width) (word : Word)

theorem toNat_part : (width.part word).toNat = word.toNat % width.size := by
  rw [part, BitVec.toNat_setWidth, size_eq]
  rfl

theorem unsigned_nonneg : 0 ≤ width.unsigned word :=
  Int.natCast_nonneg _

theorem unsigned_lt : width.unsigned word < width.size :=
  Int.ofNat_lt.mpr (toNat_lt_size (width.part word))

theorem unsigned_and_mask : width.unsigned (word &&& width.mask) = width.unsigned word := by
  rw [unsigned, part_and_mask, unsigned]

/-- The highest place is taken where the double leaves the unsigned range. -/
theorem and_signBit_eq_decide_size :
    (word &&& width.signBit != 0) = decide (width.size ≤ 2 * width.unsigned word) := by
  rw [and_signBit, BitVec.msb_eq_decide, decide_eq_decide, unsigned]
  cases width <;> simp only [bits, Width.size] <;> omega

theorem getLsbD_zero_eq_decide : word.getLsbD 0 = decide (width.unsigned word % 2 = 1) := by
  have low : (width.part word).getLsbD 0 = word.getLsbD 0 := by
    rw [part, BitVec.getLsbD_setWidth, decide_eq_true width.bits_pos, Bool.true_and]
  rw [← low, BitVec.getLsbD, Nat.testBit_zero, decide_eq_decide, unsigned]
  omega

theorem signed_neg_iff : width.signed word < 0 ↔ width.size ≤ 2 * width.unsigned word := by
  rw [← decide_eq_decide, ← and_signBit_eq_decide, and_signBit_eq_decide_size, unsigned_and_mask]

/-- A negative integer is one whole size below the unsigned one. -/
theorem signed_eq_unsigned_sub :
    width.signed word =
      width.unsigned word - width.size * (decide (width.signed word < 0)).toNat := by
  rw [signed, unsigned, ← BitVec.msb_eq_toInt, BitVec.toInt_eq_msb_cond, size_eq]
  cases (width.part word).msb <;> simp

end Width

theorem toNat_carryWord (carry : Bool) : (carryWord carry).toNat = carry.toNat := by
  cases carry <;> rfl

/-- Where nothing stands in the lowest place, the carry is added. -/
theorem toNat_part_double (width : Width) (operand : Word) (carry : Bool) :
    (width.part (operand <<< 1 ||| carryWord carry)).toNat =
      (2 * (width.part operand).toNat + carry.toNat) % width.size := by
  have apart : operand <<< 1 &&& carryWord carry = 0 := by
    cases carry with
    | false => exact BitVec.and_zero
    | true =>
        apply BitVec.eq_of_getLsbD_eq
        intro place below
        cases place <;> simp [carryWord]
  rw [← BitVec.add_eq_or_of_and_eq_zero _ _ apart, width.toNat_part, width.toNat_part,
    BitVec.toNat_add, BitVec.toNat_shiftLeft, toNat_carryWord, Nat.shiftLeft_eq]
  cases width <;> simp only [Width.size] <;> omega

/-- Half of an operand that is cut to the width leaves the highest place free. -/
theorem toNat_part_halve {width : Width} {operand : Word} (cut : operand &&& width.mask = operand)
    (fill : Bool) :
    (width.part (operand >>> 1 ||| if fill then width.signBit else 0)).toNat =
      ((width.part operand).toNat + width.size * fill.toNat) / 2 := by
  have below : operand.toNat < width.size := by
    rw [← cut, width.toNat_and_mask]
    exact toNat_lt_size _
  have half : (operand >>> 1).toNat = operand.toNat / 2 := by
    rw [BitVec.toNat_ushiftRight, Nat.shiftRight_eq_div_pow, Nat.pow_one]
  have free : (operand >>> 1 &&& width.signBit != 0) = false := by
    rw [width.and_signBit_eq_decide_size, decide_eq_false_iff_not, Width.unsigned,
      width.toNat_part, half, Nat.mod_eq_of_lt (by omega)]
    omega
  have apart : (operand >>> 1 &&& if fill then width.signBit else 0) = 0 := by
    cases fill with
    | false => exact BitVec.and_zero
    | true => exact bne_eq_false_iff_eq.mp free
  have filled : 2 * (if fill then width.signBit else 0).toNat = width.size * fill.toNat := by
    cases fill <;> cases width <;> rfl
  have bit := fill.toNat_le
  rw [← BitVec.add_eq_or_of_and_eq_zero _ _ apart, width.toNat_part, width.toNat_part,
    BitVec.toNat_add, half]
  cases width <;> simp only [Width.size] at * <;> omega

namespace ShiftOp

/-- What the shift comes to in the integers. -/
def value (op : ShiftOp) (width : Width) (operand : Word) (carry : Bool) : Int :=
  match op with
  | asr => width.signed operand / 2
  | asl => 2 * width.unsigned operand
  | ror => (width.unsigned operand + width.size * carry.toNat) / 2
  | rol => 2 * width.unsigned operand + carry.toNat

/-- The bit that leaves: to the right it makes an integer odd, to the left its double
too large. -/
def leaving (op : ShiftOp) (width : Width) (operand : Word) : Bool :=
  match op with
  | asr | ror => width.unsigned operand % 2 = 1
  | asl | rol => width.size ≤ 2 * width.unsigned operand

variable (op : ShiftOp) (width : Width) (operand : Word) (carry : Bool)

/-- A result is cut to the width. -/
theorem run_cut :
    (op.run operand width carry).1 &&& width.mask = (op.run operand width carry).1 := by
  cases op <;> rw [run, width.and_mask_and_mask]

theorem leaving_run : (op.run operand width carry).2 = op.leaving width operand := by
  have left : (operand &&& width.mask &&& width.signBit != 0) =
      decide (width.size ≤ 2 * width.unsigned operand) := by
    rw [width.and_signBit_eq_decide_size, width.unsigned_and_mask]
  have right : (operand &&& width.mask).getLsbD 0 =
      decide (width.unsigned operand % 2 = 1) := by
    rw [width.getLsbD_zero_eq_decide, width.unsigned_and_mask]
  cases op with
  | asl | rol => exact left
  | asr | ror => exact right

theorem toNat_rol_run :
    (((rol.run operand width carry).1.toNat : Nat) : Int) =
      (2 * width.unsigned operand + carry.toNat) % width.size := by
  rw [run, width.toNat_and_mask, toNat_part_double, width.part_and_mask, Width.unsigned]
  push_cast
  rfl

theorem toNat_ror_run :
    (((ror.run operand width carry).1.toNat : Nat) : Int) =
      (width.unsigned operand + width.size * carry.toNat) / 2 := by
  rw [run, width.toNat_and_mask, toNat_part_halve (width.and_mask_and_mask operand),
    width.part_and_mask, Width.unsigned]
  push_cast
  rfl

/-- A shift to the left is a rotation without a carry. -/
theorem asl_run : (asl.run operand width carry).1 = (rol.run operand width false).1 := by
  have none : (operand &&& width.mask) <<< 1 ||| carryWord false =
      (operand &&& width.mask) <<< 1 := BitVec.or_zero
  rw [run, run, none]

/-- A shift to the right is a rotation with the sign as the carry. -/
theorem asr_run :
    (asr.run operand width carry).1 =
      (ror.run operand width (decide (width.signed operand < 0))).1 := by
  have sign : operand &&& width.mask &&& width.signBit =
      if decide (width.signed operand < 0) then width.signBit else 0 := by
    rw [width.and_signBit_eq_ite, width.part_and_mask, BitVec.msb_eq_toInt]
    rfl
  rw [run, run, sign]

theorem toNat_run :
    (((op.run operand width carry).1.toNat : Nat) : Int) =
      op.value width operand carry % width.size := by
  have below := width.unsigned_lt operand
  have positive := width.unsigned_nonneg operand
  cases op with
  | asl =>
      rw [asl_run, toNat_rol_run]
      exact congrArg (· % (width.size : Int)) (Int.add_zero _)
  | rol => exact toNat_rol_run width operand carry
  | ror =>
      have bit := carry.toNat_le
      rw [toNat_ror_run, value]
      cases width <;> simp only [Width.size] at * <;> omega
  | asr =>
      have bit := (decide (width.signed operand < 0)).toNat_le
      have signed := width.signed_eq_unsigned_sub operand
      rw [asr_run, toNat_ror_run, value]
      generalize (decide (width.signed operand < 0)).toNat = negative at bit signed ⊢
      cases width <;> simp only [Width.size] at * <;> omega

/-- A rotation to the right undoes one to the left, with the carry that it left. -/
theorem ror_run_rol_run :
    let rotated := rol.run operand width carry
    ror.run rotated.1 width rotated.2 = (operand &&& width.mask, carry) := by
  intro rotated
  have below := width.unsigned_lt operand
  have positive := width.unsigned_nonneg operand
  have bit := carry.toNat_le
  have doubled : width.unsigned rotated.1 =
      (2 * width.unsigned operand + carry.toNat) % width.size := by
    rw [Width.unsigned, ← width.toNat_and_mask, rol.run_cut, toNat_rol_run]
  have left : rotated.2 = decide (width.size ≤ 2 * width.unsigned operand) :=
    rol.leaving_run width operand carry
  apply Prod.ext
  · apply BitVec.eq_of_toNat_eq
    rw [← Int.natCast_inj, toNat_ror_run, width.toNat_and_mask, doubled, left]
    change _ = width.unsigned operand
    by_cases large : width.size ≤ 2 * width.unsigned operand
    · rw [decide_eq_true large, Bool.toNat_true]
      cases width <;> simp only [Width.size] at * <;> omega
    · rw [decide_eq_false large, Bool.toNat_false]
      cases width <;> simp only [Width.size] at * <;> omega
  · have odd : width.unsigned rotated.1 % 2 = carry.toNat := by
      rw [doubled]
      cases width <;> simp only [Width.size] at * <;> omega
    rw [leaving_run, leaving, odd]
    cases carry <;> rfl

end ShiftOp

namespace Outcome

/-- A shift by one place. The bit that leaves becomes the carry; overflow tells that it
differs from the sign of the result. -/
def shift (op : ShiftOp) (width : Width) (operand : Word) (old : ConditionCodes) : Outcome :=
  let result := BitVec.ofInt 16 (op.value width operand old.carry)
  let out := op.leaving width operand
  of width result (decide (width.signed result < 0) != out) out

variable (op : ShiftOp) (width : Width) (operand : Word) (old : ConditionCodes)

theorem realizes_shift :
    (shift op width operand old).Realizes .shift width old
      ((op.run operand width old.carry).1,
        { Signals.quiet with shiftedOut := (op.run operand width old.carry).2 }) := by
  have same : width.part (op.run operand width old.carry).1 =
      width.part (BitVec.ofInt 16 (op.value width operand old.carry)) := by
    apply BitVec.eq_of_toNat_eq
    rw [← Int.natCast_inj, width.toNat_part_ofInt, ← op.toNat_run, ← width.toNat_and_mask,
      op.run_cut]
  have sign : (_ : Bool) = decide (width.signed _ < 0) :=
    (width.and_signBit_eq_decide (op.run operand width old.carry).1).trans
      (congrArg (fun part => decide (part.toInt < 0)) same)
  apply realizes_of same
  rw [← sign, ← op.leaving_run width operand old.carry]
  rfl

/-- The overflow flag of a shift to the left tells that the double is out of reach. -/
theorem overflow_asl_iff :
    (shift .asl width operand old).codes.overflow ↔
      ¬ width.Represents (2 * width.signed operand) := by
  have below := width.unsigned_lt operand
  have positive := width.unsigned_nonneg operand
  let result := BitVec.ofInt 16 (2 * width.unsigned operand)
  have doubled : width.unsigned result = 2 * width.unsigned operand % width.size :=
    width.toNat_part_ofInt _
  have signed := width.signed_eq_unsigned_sub operand
  rw [decide_eq_decide.mpr (width.signed_neg_iff operand)] at signed
  change (decide (width.signed result < 0) != decide (width.size ≤ 2 * width.unsigned operand)) =
    true ↔ _
  rw [bne_iff_ne, ne_eq, decide_eq_decide, width.signed_neg_iff, doubled, signed]
  by_cases large : width.size ≤ 2 * width.unsigned operand
  · rw [decide_eq_true large, Bool.toNat_true]
    cases width <;> simp only [Width.size, Width.Represents] at * <;> omega
  · rw [decide_eq_false large, Bool.toNat_false]
    cases width <;> simp only [Width.size, Width.Represents] at * <;> omega

end Outcome

end Pdp11
