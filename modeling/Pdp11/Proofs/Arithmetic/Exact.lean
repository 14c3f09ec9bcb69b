import Pdp11.Microcode.Program

/-!
# Integer arithmetic at a width

An operation works on the part of a word that its width covers, which stands for
an unsigned and for a signed integer. Its result is the exact one, cut to the
width. The condition codes tell the sign of the result, whether it is zero, and
whether the exact signed and the exact unsigned result were out of reach.
-/

namespace Pdp11

/-! ## The part of a word that a width covers -/

namespace Width

/-- How many bits the width has. -/
def bits : Width → Nat
  | byte => 8
  | word => 16

/-- How many values the width has. -/
def size : Width → Nat
  | byte => 0x100
  | word => 0x10000

/-- The bits of `word` that the width covers. -/
def part (width : Width) (word : Word) : BitVec width.bits :=
  word.setWidth width.bits

/-- The part of `word` that the width covers, as an unsigned integer. -/
def unsigned (width : Width) (word : Word) : Int :=
  (width.part word).toNat

/-- The part of `word` that the width covers, as a signed integer. -/
def signed (width : Width) (word : Word) : Int :=
  (width.part word).toInt

/-- A signed integer that fits the width. -/
def Represents (width : Width) (value : Int) : Prop :=
  match width with
  | byte => -0x80 ≤ value ∧ value < 0x80
  | word => -0x8000 ≤ value ∧ value < 0x8000

instance decidableRepresents (width : Width) (value : Int) : Decidable (width.Represents value) :=
  match width with
  | byte => inferInstanceAs (Decidable (_ ∧ _))
  | word => inferInstanceAs (Decidable (_ ∧ _))

variable (width : Width) (first second word : Word)

theorem bits_le : width.bits ≤ 16 := by
  cases width <;> decide

theorem bits_pos : 0 < width.bits := by
  cases width <;> decide

theorem size_eq : width.size = Nat.pow 2 width.bits := by
  cases width <;> rfl

theorem toNat_mask : width.mask.toNat + 1 = width.size := by
  cases width <;> rfl

@[simp]
theorem and_mask_and_mask : word &&& width.mask &&& width.mask = word &&& width.mask := by
  rw [BitVec.and_assoc, BitVec.and_self]

@[simp]
theorem part_and_mask : width.part (word &&& width.mask) = width.part word := by
  have ones : width.part width.mask = BitVec.allOnes width.bits := by
    cases width <;> rfl
  rw [part, BitVec.setWidth_and, ← part, ← part, ones, BitVec.and_allOnes]

@[simp]
theorem signed_and_mask : width.signed (word &&& width.mask) = width.signed word :=
  congrArg BitVec.toInt (width.part_and_mask word)

@[simp]
theorem toNat_and_mask : (word &&& width.mask).toNat = (width.part word).toNat := by
  have ones : width.mask.toNat = 2 ^ width.bits - 1 := by
    cases width <;> rfl
  rw [BitVec.toNat_and, ones, Nat.and_two_pow_sub_one_eq_mod, part, BitVec.toNat_setWidth]

theorem part_byte : byte.part word = lowByte word :=
  BitVec.setWidth_eq_extractLsb' (by decide)

theorem part_add : width.part (first + second) = width.part first + width.part second :=
  BitVec.setWidth_add first second width.bits_le

theorem part_neg : width.part (-word) = -width.part word :=
  BitVec.setWidth_neg_of_le width.bits_le

theorem part_sub : width.part (first - second) = width.part first - width.part second := by
  rw [BitVec.sub_eq_add_neg, part_add, part_neg, ← BitVec.sub_eq_add_neg]

theorem part_and : width.part (first &&& second) = width.part first &&& width.part second :=
  BitVec.setWidth_and

theorem part_xor : width.part (first ^^^ second) = width.part first ^^^ width.part second :=
  BitVec.setWidth_xor

theorem part_not : width.part (~~~word) = ~~~width.part word :=
  BitVec.setWidth_not width.bits_le

theorem part_or : width.part (first ||| second) = width.part first ||| width.part second :=
  BitVec.setWidth_or

theorem part_one : width.part 1 = 1 := by
  cases width <;> rfl

theorem toNat_part_ofInt (value : Int) :
    ((width.part (BitVec.ofInt 16 value)).toNat : Int) = value % width.size := by
  have divides : (width.size : Int) ∣ (0x10000 : Nat) := by
    cases width <;> decide
  have inside : 0 ≤ value % (0x10000 : Nat) := Int.emod_nonneg value (by decide)
  have cut : (width.part (BitVec.ofInt 16 value)).toNat =
      (value % (0x10000 : Nat)).toNat % width.size := by
    rw [part, BitVec.toNat_setWidth, BitVec.toNat_ofInt, size_eq]
    rfl
  rw [cut, Int.natCast_emod, Int.toNat_of_nonneg inside, Int.emod_emod_of_dvd value divides]

theorem signed_zero : width.signed 0 = 0 := by
  cases width <;> rfl

/-- All bits alike stand for minus one or zero. -/
theorem signed_sign (negative : Bool) :
    width.signed (if negative then -1 else 0) = if negative then -1 else 0 := by
  cases negative <;> cases width <;> rfl

theorem toNat_one : (1 : BitVec width.bits).toNat = 1 := by
  cases width <;> rfl

/-- The sign bit of a word is that of its part. -/
theorem and_signBit_eq_ite :
    word &&& width.signBit = if (width.part word).msb then width.signBit else 0 := by
  have place : width.signBit = BitVec.twoPow 16 (width.bits - 1) := by
    cases width <;> rfl
  have sign : (width.part word).msb = word.getLsbD (width.bits - 1) := by
    rw [part, BitVec.msb_setWidth, decide_eq_true width.bits_pos, Bool.true_and]
  rw [sign, place]
  exact BitVec.and_twoPow word (width.bits - 1)

theorem and_signBit : (word &&& width.signBit != 0) = (width.part word).msb := by
  rw [and_signBit_eq_ite]
  cases (width.part word).msb
  · rfl
  · cases width <;> rfl

/-- The sign bit shows a negative integer. -/
theorem and_signBit_eq_decide :
    (word &&& width.mask &&& width.signBit != 0) = decide (width.signed word < 0) := by
  rw [and_signBit, part_and_mask, BitVec.msb_eq_toInt, signed]

variable {word}

/-- Words that are cut to the width are known by their parts. -/
theorem and_mask_eq_iff {other : Word} (cut : other &&& width.mask = other) :
    word &&& width.mask = other ↔ width.part word = width.part other := by
  constructor
  · rintro rfl
    exact (width.part_and_mask word).symm
  · intro same
    apply BitVec.eq_of_toNat_eq
    rw [← cut, toNat_and_mask, toNat_and_mask, same]

theorem and_mask_eq_and_mask_iff {other : Word} :
    word &&& width.mask = other &&& width.mask ↔ width.part word = width.part other := by
  rw [and_mask_eq_iff width (width.and_mask_and_mask other), part_and_mask]

theorem and_mask_eq_zero_iff : word &&& width.mask = 0 ↔ width.part word = 0 := by
  have cut : (0 : Word) &&& width.mask = 0 := BitVec.zero_and
  rw [and_mask_eq_iff width cut]
  cases width <;> rfl

theorem signed_eq_zero_iff : width.signed word = 0 ↔ width.part word = 0 := by
  change (width.part word).toInt = 0 ↔ width.part word = BitVec.ofNat width.bits 0
  rw [← BitVec.toInt_inj, BitVec.toInt_zero]

theorem and_mask_eq_zero_eq_decide :
    (word &&& width.mask == 0) = decide (width.signed word = 0) := by
  rw [Bool.eq_iff_iff, beq_iff_eq, decide_eq_true_iff, and_mask_eq_zero_iff, signed_eq_zero_iff]

theorem and_mask_eq_signBit_iff :
    word &&& width.mask = width.signBit ↔ width.part word = BitVec.intMin width.bits := by
  have cut : width.signBit &&& width.mask = width.signBit := by
    cases width <;> rfl
  rw [and_mask_eq_iff width cut]
  cases width <;> rfl

theorem and_mask_eq_signBit_sub_one_iff :
    word &&& width.mask = width.signBit - 1 ↔
      width.part word = BitVec.intMin width.bits - 1 := by
  have cut : (width.signBit - 1) &&& width.mask = width.signBit - 1 := by
    cases width <;> rfl
  rw [and_mask_eq_iff width cut]
  cases width <;> rfl

end Width

/-! ## The operations -/

/-- The result of an operation, and the condition codes that `rule` gives it. -/
def AluOp.withCodes (op : AluOp) (rule : FlagRule) (first second : Word) (width : Width)
    (carry : Bool) (old : ConditionCodes) : Word × ConditionCodes :=
  let (result, signals) := op.run first second width carry
  (result, rule.evaluate result width signals old)

/-- A result is cut to the width. -/
theorem AluOp.run_cut (op : AluOp) (first second : Word) (width : Width) (carry : Bool) :
    (op.run first second width carry).1 &&& width.mask = (op.run first second width carry).1 := by
  rw [run, width.and_mask_and_mask]

/-- The operations of integer arithmetic, among them the addition of the carry. -/
inductive IntegerOp
  | add
  | sub
  | inc
  | dec
  | neg
  | addCarry
deriving DecidableEq

namespace IntegerOp

/-- The instruction that carries out the operation. -/
def opcode : IntegerOp → Opcode
  | add => .add
  | sub => .sub
  | inc => .inc
  | dec => .dec
  | neg => .neg
  | addCarry => .adc

/-- What the arithmetic unit does for the operation. -/
def aluOp : IntegerOp → AluOp
  | add => .add
  | sub => .sub
  | inc => .inc
  | dec => .dec
  | neg => .neg
  | addCarry => .addCarry

/-- The rule that gives the condition codes of the operation. -/
def flagRule : IntegerOp → FlagRule
  | add => .add
  | sub => .subtract
  | inc => .increment
  | dec => .decrement
  | neg => .negate
  | addCarry => .addCarry

/-- What the operation comes to in the integers. -/
def value (operation : IntegerOp) (first second : Int) (carry : Bool) : Int :=
  match operation with
  | add => first + second
  | sub => first - second
  | inc => first + 1
  | dec => first - 1
  | neg => -first
  | addCarry => first + carry.toNat

/-- The carry flag after an operation whose exact unsigned value is `value`: a
carry out of sums, a borrow by differences. -/
def carryFlag (operation : IntegerOp) (width : Width) (value : Int) (old : Bool) : Bool :=
  match operation with
  | add | addCarry => width.size ≤ value
  | sub | neg => value < 0
  | inc | dec => old

/-- `computed` is what the operation comes to in the integers, for the operands
`first` and `second`. -/
structure Exact (operation : IntegerOp) (first second : Word) (width : Width) (carry : Bool)
    (old : ConditionCodes) (computed : Word × ConditionCodes) : Prop where
  cut : (computed.1.toNat : Int) =
    operation.value (width.unsigned first) (width.unsigned second) carry % width.size
  negative : computed.2.negative ↔ width.signed computed.1 < 0
  zero : computed.2.zero ↔ width.signed computed.1 = 0
  overflow : computed.2.overflow ↔
    ¬ width.Represents (operation.value (width.signed first) (width.signed second) carry)
  carry : computed.2.carry =
    operation.carryFlag width
      (operation.value (width.unsigned first) (width.unsigned second) carry) old.carry

end IntegerOp

/-! ## Sums and differences of a width -/

section Parts

variable {width : Width} (first second : BitVec width.bits)

theorem toNat_lt_size : first.toNat < width.size := by
  cases width <;> exact first.isLt

theorem toNat_add_eq_emod :
    ((first + second).toNat : Int) = ((first.toNat : Int) + second.toNat) % width.size := by
  rw [BitVec.toNat_add, Int.natCast_emod, Int.natCast_add, width.size_eq]
  rfl

theorem toNat_sub_eq_emod :
    ((first - second).toNat : Int) = ((first.toNat : Int) - second.toNat) % width.size := by
  have whole : (((width.size : Nat) : Int) - second.toNat) + first.toNat =
      ((first.toNat : Int) - second.toNat) + width.size := by
    omega
  have difference : (first - second).toNat =
      (width.size - second.toNat + first.toNat) % width.size := by
    rw [width.size_eq]
    exact BitVec.toNat_sub first second
  rw [difference, Int.natCast_emod, Int.natCast_add,
    Int.natCast_sub (Nat.le_of_lt (toNat_lt_size second)), whole, Int.add_emod_right]

theorem represents_toInt : width.Represents first.toInt := by
  have below : 2 * first.toInt < 2 ^ width.bits := BitVec.two_mul_toInt_lt
  have above : -2 ^ width.bits ≤ 2 * first.toInt := BitVec.le_two_mul_toInt
  cases width <;> simp only [Width.Represents, Width.bits] at * <;> omega

theorem saddOverflow_iff :
    first.saddOverflow second ↔ ¬ width.Represents (first.toInt + second.toInt) := by
  unfold BitVec.saddOverflow
  rw [Bool.or_eq_true, decide_eq_true_iff, decide_eq_true_iff]
  cases width <;> simp only [Width.Represents, Width.bits] <;> omega

theorem ssubOverflow_iff :
    first.ssubOverflow second ↔ ¬ width.Represents (first.toInt - second.toInt) := by
  unfold BitVec.ssubOverflow
  rw [Bool.or_eq_true, decide_eq_true_iff, decide_eq_true_iff]
  cases width <;> simp only [Width.Represents, Width.bits] <;> omega

/-- A step up leaves the signed range where it comes to the least value. -/
theorem add_one_eq_intMin_iff :
    first + 1 = BitVec.intMin width.bits ↔ ¬ width.Represents (first.toInt + 1) := by
  have inside := represents_toInt first
  change first + BitVec.ofNat width.bits 1 = _ ↔ _
  rw [← BitVec.intMax_add_one, BitVec.add_left_inj, ← BitVec.toInt_inj, BitVec.toInt_intMax]
  cases width <;> simp only [Width.Represents, Width.bits] at * <;> omega

/-- Below the least value there is no other. -/
theorem eq_intMin_iff :
    first = BitVec.intMin width.bits ↔ ¬ width.Represents (first.toInt - 1) := by
  have inside := represents_toInt first
  rw [← BitVec.toInt_inj, BitVec.toInt_intMin_of_pos width.bits_pos]
  cases width <;> simp only [Width.Represents, Width.bits] at * <;> omega

/-- A step down leaves the signed range where it starts from the least value. -/
theorem sub_one_eq_intMin_sub_one_iff :
    first - 1 = BitVec.intMin width.bits - 1 ↔ ¬ width.Represents (first.toInt - 1) := by
  rw [BitVec.sub_left_inj, eq_intMin_iff]

/-- Only the least value has no opposite in the signed range. -/
theorem neg_eq_intMin_iff :
    -first = BitVec.intMin width.bits ↔ ¬ width.Represents (-first.toInt) := by
  have inside := represents_toInt first
  rw [BitVec.neg_eq_iff_eq_neg, BitVec.neg_intMin, ← BitVec.toInt_inj,
    BitVec.toInt_intMin_of_pos width.bits_pos]
  cases width <;> simp only [Width.Represents, Width.bits] at * <;> omega

/-- A step up comes to zero where it leaves the unsigned range. -/
theorem add_one_eq_zero_iff : first + 1 = 0 ↔ width.size ≤ first.toNat + 1 := by
  have below := toNat_lt_size first
  have size := width.size_eq
  change first + BitVec.ofNat width.bits 1 = BitVec.ofNat width.bits 0 ↔ _
  rw [← BitVec.eq_sub_iff_add_eq, BitVec.zero_sub, BitVec.neg_one_eq_allOnes, ← BitVec.toNat_inj,
    BitVec.toNat_allOnes]
  change first.toNat = Nat.pow 2 width.bits - 1 ↔ _
  omega

/-- The sign bits of operands and sum show an overflow. -/
theorem msb_add_overflow :
    (~~~(first ^^^ second) &&& (first ^^^ (first + second))).msb = first.saddOverflow second := by
  rw [BitVec.saddOverflow_eq, BitVec.msb_and, BitVec.msb_not, BitVec.msb_xor, BitVec.msb_xor,
    decide_eq_true width.bits_pos]
  cases first.msb <;> cases second.msb <;> cases (first + second).msb <;> rfl

theorem msb_sub_overflow :
    ((first ^^^ second) &&& (first ^^^ (first - second))).msb = first.ssubOverflow second := by
  rw [BitVec.ssubOverflow_eq, BitVec.msb_and, BitVec.msb_xor, BitVec.msb_xor]
  cases first.msb <;> cases second.msb <;> cases (first - second).msb <;> rfl

end Parts

/-! ## The operations are exact -/

section Runs

variable (first second : Word) (width : Width) (carry : Bool) (old : ConditionCodes)

theorem exact_of_computed {operation : IntegerOp} {computed : Word} {codes : ConditionCodes}
    (cut : ((width.part computed).toNat : Int) =
      operation.value (width.unsigned first) (width.unsigned second) carry % width.size)
    (negative : codes.negative = (computed &&& width.mask &&& width.signBit != 0))
    (zero : codes.zero = (computed &&& width.mask == 0))
    (overflow : codes.overflow ↔
      ¬ width.Represents (operation.value (width.signed first) (width.signed second) carry))
    (carries : codes.carry = operation.carryFlag width
      (operation.value (width.unsigned first) (width.unsigned second) carry) old.carry) :
    operation.Exact first second width carry old (computed &&& width.mask, codes) where
  cut := by rw [width.toNat_and_mask, cut]
  negative := by
    rw [negative, width.and_signBit_eq_decide, decide_eq_true_iff, width.signed_and_mask]
  zero := by
    rw [zero, width.and_mask_eq_zero_eq_decide, decide_eq_true_iff, width.signed_and_mask]
  overflow := overflow
  carry := carries

theorem exact_add :
    IntegerOp.add.Exact first second width carry old
      (AluOp.add.withCodes .add first second width carry old) := by
  have sum : width.part (AluOp.add.compute (first &&& width.mask) (second &&& width.mask) carry) =
      width.part first + width.part second := by
    rw [AluOp.compute, width.part_add, width.part_and_mask, width.part_and_mask]
  apply exact_of_computed
  · rw [sum]
    exact toNat_add_eq_emod _ _
  · rfl
  · rfl
  · change (_ &&& width.signBit != 0) = true ↔ _
    rw [width.and_signBit, width.part_and, width.part_not, width.part_xor, width.part_xor,
      width.part_and_mask, width.part_and_mask, width.part_and_mask, sum, msb_add_overflow]
    exact saddOverflow_iff _ _
  · have limit := width.toNat_mask
    change decide (_ > _) =
      decide ((width.size : Int) ≤ (width.part first).toNat + (width.part second).toNat)
    rw [width.toNat_and_mask, width.toNat_and_mask]
    apply decide_eq_decide.mpr
    omega

theorem exact_sub :
    IntegerOp.sub.Exact first second width carry old
      (AluOp.sub.withCodes .subtract first second width carry old) := by
  have difference :
      width.part (AluOp.sub.compute (first &&& width.mask) (second &&& width.mask) carry) =
        width.part first - width.part second := by
    rw [AluOp.compute, width.part_sub, width.part_and_mask, width.part_and_mask]
  apply exact_of_computed
  · rw [difference]
    exact toNat_sub_eq_emod _ _
  · rfl
  · rfl
  · change (_ &&& width.signBit != 0) = true ↔ _
    rw [width.and_signBit, width.part_and, width.part_xor, width.part_xor, width.part_and_mask,
      width.part_and_mask, width.part_and_mask, difference, msb_sub_overflow]
    exact ssubOverflow_iff _ _
  · change decide ((first &&& width.mask).toNat < (second &&& width.mask).toNat) =
      decide (((width.part first).toNat : Int) - (width.part second).toNat < 0)
    rw [width.toNat_and_mask, width.toNat_and_mask]
    apply decide_eq_decide.mpr
    omega

theorem exact_inc :
    IntegerOp.inc.Exact first second width carry old
      (AluOp.inc.withCodes .increment first second width carry old) := by
  have sum : width.part (AluOp.inc.compute (first &&& width.mask) (second &&& width.mask) carry) =
      width.part first + 1 := by
    rw [AluOp.compute, width.part_add, width.part_and_mask, width.part_one]
  apply exact_of_computed
  · rw [sum, toNat_add_eq_emod, width.toNat_one]
    rfl
  · rfl
  · rfl
  · change (_ == width.signBit) = true ↔ _
    rw [beq_iff_eq, width.and_mask_eq_signBit_iff, sum]
    exact add_one_eq_intMin_iff _
  · rfl

theorem exact_dec :
    IntegerOp.dec.Exact first second width carry old
      (AluOp.dec.withCodes .decrement first second width carry old) := by
  have difference :
      width.part (AluOp.dec.compute (first &&& width.mask) (second &&& width.mask) carry) =
        width.part first - 1 := by
    rw [AluOp.compute, width.part_sub, width.part_and_mask, width.part_one]
  apply exact_of_computed
  · rw [difference, toNat_sub_eq_emod, width.toNat_one]
    rfl
  · rfl
  · rfl
  · change (_ == width.signBit - 1) = true ↔ _
    rw [beq_iff_eq, width.and_mask_eq_signBit_sub_one_iff, difference]
    exact sub_one_eq_intMin_sub_one_iff _
  · rfl

theorem exact_neg :
    IntegerOp.neg.Exact first second width carry old
      (AluOp.neg.withCodes .negate first second width carry old) := by
  have opposite :
      width.part (AluOp.neg.compute (first &&& width.mask) (second &&& width.mask) carry) =
        -width.part first := by
    change width.part (0#16 - _) = _
    rw [BitVec.zero_sub, width.part_neg, width.part_and_mask]
  apply exact_of_computed
  · have cut := toNat_sub_eq_emod 0 (width.part first)
    change ((BitVec.ofNat width.bits 0 - _).toNat : Int) =
      ((BitVec.ofNat width.bits 0).toNat - _) % _ at cut
    rw [BitVec.zero_sub, BitVec.toNat_zero, Int.natCast_zero, Int.zero_sub] at cut
    rw [opposite, cut]
    rfl
  · rfl
  · rfl
  · change (_ == width.signBit) = true ↔ _
    rw [beq_iff_eq, width.and_mask_eq_signBit_iff, opposite]
    exact neg_eq_intMin_iff _
  · have zeroPart : -width.part first = 0 ↔ (width.part first).toNat = 0 := by
      change _ = BitVec.ofNat width.bits 0 ↔ _
      rw [BitVec.neg_eq_iff_eq_neg, BitVec.neg_zero, ← BitVec.toNat_inj, BitVec.toNat_zero]
    change (!(_ == 0)) = decide (-((width.part first).toNat : Int) < 0)
    rw [Bool.eq_iff_iff, Bool.not_eq_true', beq_eq_false_iff_ne, ne_eq,
      width.and_mask_eq_zero_iff, opposite, zeroPart, decide_eq_true_iff]
    omega

theorem exact_addCarry :
    IntegerOp.addCarry.Exact first second width carry old
      (AluOp.addCarry.withCodes .addCarry first second width carry old) := by
  -- Both flags look at the result only where a carry comes in; without one they are clear.
  cases carry with
  | false =>
      have sum :
          width.part (AluOp.addCarry.compute (first &&& width.mask) (second &&& width.mask)
            false) = width.part first := by
        change width.part (_ + 0#16) = _
        rw [BitVec.add_zero, width.part_and_mask]
      have inside : ((width.part first).toNat : Int) < width.size :=
        Int.ofNat_lt.mpr (toNat_lt_size (width.part first))
      have alone (operand other : Int) : IntegerOp.addCarry.value operand other false = operand :=
        Int.add_zero operand
      apply exact_of_computed
      · rw [sum, alone]
        exact (Int.emod_eq_of_lt (Int.natCast_nonneg _) inside).symm
      · rfl
      · rfl
      · rw [alone]
        exact iff_of_false Bool.false_ne_true (not_not_intro (represents_toInt _))
      · rw [alone]
        exact (decide_eq_false (Int.not_le.mpr inside)).symm
  | true =>
      have sum :
          width.part (AluOp.addCarry.compute (first &&& width.mask) (second &&& width.mask)
            true) = width.part first + 1 := by
        change width.part (_ + 1) = _
        rw [width.part_add, width.part_and_mask, width.part_one]
      apply exact_of_computed
      · rw [sum, toNat_add_eq_emod, width.toNat_one]
        rfl
      · rfl
      · rfl
      · change (_ == width.signBit) = true ↔ _
        rw [beq_iff_eq, width.and_mask_eq_signBit_iff, sum]
        exact add_one_eq_intMin_iff _
      · change (_ == 0) = decide ((width.size : Int) ≤ (width.part first).toNat + 1)
        rw [Bool.eq_iff_iff, beq_iff_eq, width.and_mask_eq_zero_iff, sum, decide_eq_true_iff,
          add_one_eq_zero_iff]
        exact Int.ofNat_le.symm

theorem IntegerOp.exact_withCodes (operation : IntegerOp) :
    operation.Exact first second width carry old
      (operation.aluOp.withCodes operation.flagRule first second width carry old) := by
  cases operation with
  | add => exact exact_add first second width carry old
  | sub => exact exact_sub first second width carry old
  | inc => exact exact_inc first second width carry old
  | dec => exact exact_dec first second width carry old
  | neg => exact exact_neg first second width carry old
  | addCarry => exact exact_addCarry first second width carry old

/-- What lies above the width in the operands makes no difference. -/
theorem run_of_same_part (op : AluOp) {first second other another : Word} {width : Width}
    (sameFirst : width.part other = width.part first)
    (sameSecond : width.part another = width.part second) (carry : Bool) :
    op.run other another width carry = op.run first second width carry := by
  rw [AluOp.run, width.and_mask_eq_and_mask_iff.mpr sameFirst,
    width.and_mask_eq_and_mask_iff.mpr sameSecond]
  rfl

end Runs

/-- The instruction computes by `op` at its width, stores the result, and has its
condition codes made by `rule`. -/
def Instruction.ComputesBy (instruction : Instruction) (op : AluOp) (rule : FlagRule) : Prop :=
  ∃ first second fetches stores, instruction.program =
    fetches ++ .alu op .t0 first second instruction.width :: stores ++
      [.evalFlags rule .t0 instruction.width]

namespace Instruction

variable {instruction : Instruction} {op : AluOp} {rule : FlagRule}

theorem computesBy_of_combine {first second : Reg}
    (program : instruction.program =
      instruction.combine [.alu op .t0 first second instruction.width] rule) :
    instruction.ComputesBy op rule := by
  refine ⟨first, second, instruction.readSource.1 ++
    [instruction.readSource.2.fetch instruction.width .destination],
    instruction.readSource.2.assign .t0 instruction.width false .data, ?_⟩
  rw [program]
  simp [combine]

theorem computesBy_of_unary (program : instruction.program = instruction.unary op rule) :
    instruction.ComputesBy op rule := by
  let destination := instruction.resolveDestination instruction.width
  refine ⟨.d0, .d0, destination.ops ++ [destination.fetch instruction.width .destination],
    destination.assign .t0 instruction.width false .data, ?_⟩
  rw [program]
  simp [unary, modify, destination]

end Instruction

namespace IntegerOp

theorem computesBy (operation : IntegerOp) {instruction : Instruction}
    (opcode : instruction.opcode = operation.opcode) :
    instruction.ComputesBy operation.aluOp operation.flagRule := by
  cases operation with
  | add | sub => exact Instruction.computesBy_of_combine (by rw [Instruction.program, opcode]; rfl)
  | inc | dec | neg | addCarry =>
      exact Instruction.computesBy_of_unary (by rw [Instruction.program, opcode]; rfl)

/-- Addition, subtraction, steps by one, negation and the addition of the carry give
exact results and condition codes, whatever lies above the width, and they are
what the instructions of these names compute by. -/
theorem computes_exactly (operation : IntegerOp) (first second : Word) (width : Width)
    (carry : Bool) (old : ConditionCodes) :
    let computed := operation.aluOp.withCodes operation.flagRule first second width carry old
    operation.Exact first second width carry old computed ∧
      (∀ other another, width.part other = width.part first →
        width.part another = width.part second →
          operation.aluOp.withCodes operation.flagRule other another width carry old = computed) ∧
      ∀ instruction : Instruction, instruction.opcode = operation.opcode →
        instruction.ComputesBy operation.aluOp operation.flagRule := by
  refine ⟨operation.exact_withCodes first second width carry old, ?_, fun _ => operation.computesBy⟩
  intro other another sameFirst sameSecond
  rw [AluOp.withCodes, run_of_same_part _ sameFirst sameSecond]
  rfl

end IntegerOp

end Pdp11
