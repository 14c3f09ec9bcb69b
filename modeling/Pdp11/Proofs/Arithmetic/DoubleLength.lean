import Pdp11.Arithmetic.Extended
import Pdp11.Proofs.Arithmetic.Exact
import Pdp11.Proofs.Interpreter.Values

/-!
# Subtraction from a double-length number

`SUB` on the low word and `SBC` on the high word take a word away from the number
that the two words make. Each accounts for what it takes: a borrow stands for one
more than the word can hold. The accounts of the two words add up to that of the
pair. The overflow flag of `SBC` does not look at the borrow.
-/

namespace Pdp11

/-! ## Pairs as numbers -/

theorem toNat_pair (high low : Word) :
    (pair high low).toNat = 0x10000 * high.toNat + low.toNat := by
  rw [pair, BitVec.toNat_append, ← Nat.shiftLeft_add_eq_or_of_lt low.isLt, Nat.shiftLeft_eq,
    Nat.mul_comm]

theorem toInt_pair (high low : Word) :
    (pair high low).toInt = 0x10000 * high.toInt + low.toNat := by
  have highBelow := high.isLt
  have lowBelow := low.isLt
  rw [BitVec.toInt_eq_toNat_cond, BitVec.toInt_eq_toNat_cond, toNat_pair]
  split <;> split <;> omega

/-! ## Accounts of a subtraction -/

/-- Taking `amount` from `first` leaves `result`, where a borrow stands for one more
than the `size` numbers that there are. -/
def Leaves (size first amount result : Nat) (borrow : Bool) : Prop :=
  result + amount = first + size * borrow.toNat

namespace Leaves

variable {size first amount result : Nat} {borrow final : Bool}

theorem borrow_iff (leaves : Leaves size first amount result borrow) (below : result < size) :
    borrow ↔ first < amount := by
  cases borrow <;> simp [Leaves] at leaves ⊢ <;> omega

/-- What the low word borrows is taken from the high word. -/
theorem of_words {high low highResult lowResult : Word}
    (ofLow : Leaves 0x10000 low.toNat amount lowResult.toNat borrow)
    (ofHigh : Leaves 0x10000 high.toNat borrow.toNat highResult.toNat final) :
    Leaves 0x100000000 (pair high low).toNat amount (pair highResult lowResult).toNat final := by
  unfold Leaves at ofLow ofHigh ⊢
  rw [toNat_pair, toNat_pair]
  omega

end Leaves

/-! ## The two operations -/

theorem Width.unsigned_word (whole : Word) : Width.word.unsigned whole = whole.toNat := by
  rw [unsigned, part]
  exact congrArg (fun number : Word => (number.toNat : Int)) (BitVec.setWidth_eq whole)

section Operations

variable (first second : Word) (carry : Bool) (old : ConditionCodes)

theorem leaves_sub :
    let computed := AluOp.sub.withCodes .subtract first second .word carry old
    Leaves 0x10000 first.toNat second.toNat computed.1.toNat computed.2.carry := by
  intro computed
  have exact : IntegerOp.sub.Exact first second .word carry old computed :=
    exact_sub first second .word carry old
  have cut := exact.cut
  have borrow : computed.2.carry = decide (_ < _) := exact.carry
  rw [Width.unsigned_word, Width.unsigned_word] at cut borrow
  change (computed.1.toNat : Int) = ((first.toNat : Int) - second.toNat) % 0x10000 at cut
  change _ = decide ((first.toNat : Int) - second.toNat < 0) at borrow
  have firstBelow := first.isLt
  have secondBelow := second.isLt
  unfold Leaves
  rw [borrow]
  by_cases less : (first.toNat : Int) - second.toNat < 0
  · rw [decide_eq_true less, Bool.toNat_true]
    omega
  · rw [decide_eq_false less, Bool.toNat_false]
    omega

theorem leaves_subCarry :
    let computed := AluOp.subCarry.withCodes .subCarry first second .word carry old
    Leaves 0x10000 first.toNat carry.toNat computed.1.toNat computed.2.carry := by
  intro computed
  have difference : computed.1 = first - carryWord carry := by
    change ((first &&& Width.word.mask) - carryWord carry) &&& Width.word.mask = _
    rw [and_mask_word, and_mask_word]
  have borrow : computed.2.carry = (carry && first == 0) := by
    change (carry && first &&& Width.word.mask == 0) = _
    rw [and_mask_word]
  unfold Leaves
  rw [difference, borrow]
  cases carry with
  | false =>
      change (first - 0#16).toNat = first.toNat
      rw [BitVec.sub_zero]
  | true =>
      change (first - 1#16).toNat + 1 = first.toNat + 0x10000 * (first == 0#16).toNat
      by_cases zero : first = 0#16
      · rw [zero]
        rfl
      · rw [beq_eq_false_iff_ne.mpr zero]
        change ¬ first = 0#16 at zero
        bv_omega

end Operations

/-- `SUB` and then `SBC` give the exact difference and borrow of the pair. The overflow
flag is set for the least high word, borrow or not, so it is right unless that word
lends nothing. -/
theorem sub_then_subCarry (high low amount ignored : Word) (carry : Bool) (old : ConditionCodes) :
    let first := AluOp.sub.withCodes .subtract low amount .word carry old
    let last := AluOp.subCarry.withCodes .subCarry high ignored .word first.2.carry first.2
    pair last.1 first.1 = pair high low - amount.setWidth 32 ∧
      (last.2.carry ↔ (pair high low).toNat < amount.toNat) ∧
      (last.2.overflow ↔ high = BitVec.intMin 16) ∧
      ((last.2.overflow ↔ (pair high low).toInt - amount.toNat < -0x80000000) ↔
        ¬(high = BitVec.intMin 16 ∧ amount.toNat ≤ low.toNat)) := by
  intro first last
  have leaves : Leaves 0x100000000 (pair high low).toNat amount.toNat (pair last.1 first.1).toNat
      last.2.carry :=
    (leaves_sub low amount carry old).of_words
      (leaves_subCarry high ignored first.2.carry first.2)
  have overflow : last.2.overflow ↔ high = BitVec.intMin 16 := by
    change (high &&& Width.word.mask == BitVec.intMin 16) = true ↔ _
    rw [and_mask_word, beq_iff_eq]
  refine ⟨?_, leaves.borrow_iff (pair last.1 first.1).isLt, overflow, ?_⟩
  · have amountBelow := amount.isLt
    unfold Leaves at leaves
    rw [BitVec.eq_sub_iff_add_eq]
    apply BitVec.eq_of_toNat_eq
    rw [BitVec.toNat_add, BitVec.toNat_setWidth]
    omega
  · have least : high = BitVec.intMin 16 ↔ high.toInt = -0x8000 := by
      rw [← BitVec.toInt_inj]
      rfl
    have highInside : -0x8000 ≤ high.toInt := BitVec.le_toInt high
    have amountBelow := amount.isLt
    rw [overflow, toInt_pair, least]
    omega

/-- The least high word lends nothing here, yet overflow is reported. -/
theorem overflow_without_borrow :
    let first := AluOp.sub.withCodes .subtract 1 0 .word false (.ofCode 0)
    let last := AluOp.subCarry.withCodes .subCarry 0o100000 0o100000 .word first.2.carry first.2
    last.2.overflow ∧ ¬ (pair 0o100000 1).toInt - (0#16).toNat < -0x80000000 := by
  intro first last
  obtain ⟨-, -, overflow, right⟩ :=
    sub_then_subCarry 0o100000 1 0 0o100000 false (.ofCode 0)
  have reported : last.2.overflow := overflow.mpr rfl
  refine ⟨reported, fun below => ?_⟩
  exact right.mp (iff_of_true reported below) ⟨rfl, Nat.zero_le _⟩

end Pdp11
