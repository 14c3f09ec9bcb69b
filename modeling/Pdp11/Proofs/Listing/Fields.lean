import Mathlib.Data.List.Nodup
import Pdp11.Instruction.Core

/-!
# Instruction words by their fields

The pattern of an operation fixes the high bits of a word, the operands are in
its low bits, and bit 15 tells the byte form from the word form. Two words of
one operation that agree in the last two are the same word.
-/

namespace Pdp11

/-! ## Runs of bits -/

/-- Both have the same bits from `low` up to, but not including, `high`. -/
def SameBits {w : Nat} (first second : BitVec w) (low high : Nat) : Prop :=
  ∀ position, low ≤ position → position < high →
    first.getLsbD position = second.getLsbD position

namespace SameBits

variable {w : Nat} {first second : BitVec w} {low middle high : Nat}

theorem eq (same : SameBits first second 0 w) : first = second := by
  apply BitVec.eq_of_getLsbD_eq
  intro position below
  exact same position (Nat.zero_le position) below

theorem append (lower : SameBits first second low middle)
    (upper : SameBits first second middle high) : SameBits first second low high := by
  intro position above below
  rcases Nat.lt_or_ge position middle with inLower | inUpper
  · exact lower position above inLower
  · exact upper position inUpper below

theorem of_extractLsb' {length : Nat}
    (same : first.extractLsb' low length = second.extractLsb' low length) :
    SameBits first second low (low + length) := by
  intro position above below
  have bit := congrArg (BitVec.getLsbD · (position - low)) same
  have place : low + (position - low) = position := by omega
  have inField : position - low < length := by omega
  simpa [place, inField] using bit

/-- Words that agree under a mask agree where it has its bits. -/
theorem of_and {mask : BitVec w} (same : first &&& mask = second &&& mask)
    (shown : ∀ position < high, mask.getLsbD position) : SameBits first second 0 high := by
  intro position _ below
  have bit := congrArg (BitVec.getLsbD · position) same
  simpa [shown position below] using bit

end SameBits

/-! ## Operand fields -/

/-- The word field at `low` with the operand in it. -/
theorem SameBits.of_operand {first second : Word} {low : Nat}
    (same : Operand.ofField (first.extractLsb' low 6) =
      Operand.ofField (second.extractLsb' low 6)) : SameBits first second low (low + 6) := by
  have sameMode := AddressingMode.ofField_inj.mp (congrArg Operand.mode same)
  have sameReg := Reg.ofField_inj.mp (congrArg Operand.reg same)
  have sameField : SameBits (first.extractLsb' low 6) (second.extractLsb' low 6) 0 6 :=
    (SameBits.of_extractLsb' sameReg).append (SameBits.of_extractLsb' sameMode)
  exact .of_extractLsb' sameField.eq

/-! ## Offsets -/

/-- Distances of words around an address do not meet on the way around the address
space, unless they differ by half of it. -/
theorem toNat_mod_of_double_eq {first second : Word} (same : 2 * first = 2 * second) :
    first.toNat % 0o100000 = second.toNat % 0o100000 := by
  have doubled := congrArg BitVec.toNat same
  have two : (2 : Word).toNat = 2 := rfl
  rw [BitVec.toNat_mul, BitVec.toNat_mul, two] at doubled
  omega

namespace Instruction

variable {first second : Instruction}

theorem sameBits_of_branchTarget (samePc : first.pc = second.pc)
    (same : first.branchTarget = second.branchTarget) :
    SameBits first.word second.word 0 8 := by
  have field (word : Word) :
      (word.extractLsb' 0 8).toNat = ((word.extractLsb' 0 8).signExtend 16).toNat % 0o400 := by
    have low : ((word.extractLsb' 0 8).signExtend 16).setWidth 8 = word.extractLsb' 0 8 := by
      apply BitVec.eq_of_getLsbD_eq
      intro position below
      have inWord : position < 16 := by omega
      simp only [BitVec.getLsbD_setWidth, BitVec.getLsbD_signExtend, below, inWord, decide_true,
        Bool.true_and, if_true]
    rw [← BitVec.toNat_setWidth 8, low]
  rw [branchTarget, branchTarget, samePc, BitVec.add_right_inj] at same
  have offsets := toNat_mod_of_double_eq same
  have sameField : first.word.extractLsb' 0 8 = second.word.extractLsb' 0 8 := by
    apply BitVec.eq_of_toNat_eq
    rw [field, field]
    unfold branchOffset at offsets
    omega
  exact .of_extractLsb' sameField

theorem sameBits_of_count (same : first.count = second.count) :
    SameBits first.word second.word 0 6 := by
  apply SameBits.of_and same
  decide

theorem sameBits_of_loopTarget (sameNext : first.nextPc = second.nextPc)
    (same : first.loopTarget = second.loopTarget) :
    SameBits first.word second.word 0 6 := by
  have below (instruction : Instruction) : instruction.count.toNat < 0o100 := by
    have mask : (0o77 : Word).toNat = 0o77 := rfl
    rw [count, BitVec.toNat_and, mask]
    exact Nat.lt_of_le_of_lt Nat.and_le_right (by decide)
  have firstBelow := below first
  have secondBelow := below second
  rw [loopTarget, loopTarget, sameNext] at same
  have counts : first.count.toNat % 0o100000 = second.count.toNat % 0o100000 := by
    apply toNat_mod_of_double_eq
    bv_omega
  apply sameBits_of_count
  apply BitVec.eq_of_toNat_eq
  omega

end Instruction

/-! ## Patterns -/

namespace Opcode

/-- How many low bits of an instruction word its operands take. -/
def fieldBits (opcode : Opcode) : Nat :=
  match opcode.format with
  | .noOperand => 0
  | .registerUnary => 3
  | .immediateUnary =>
    match opcode with
    | .spl => 3
    | .clearCc | .setCc => 4
    | _ => 8
  | .offsetCount => if opcode = .sob then 9 else 6
  | .branch => 8
  | .singleSource | .singleDest => 6
  | .registerSource | .registerDest => 9
  | .sourceDest => 12

theorem exists_pattern {word : Word} {opcode : Opcode} (found : ofWord? word = some opcode) :
    ∃ mask value, (mask, value, opcode) ∈ patterns ∧ word &&& mask = value := by
  obtain ⟨⟨mask, value, matched⟩, mem, isMatch⟩ := List.exists_of_findSome?_eq_some found
  dsimp only at isMatch
  split at isMatch
  · rename_i agrees
    cases isMatch
    exact ⟨mask, value, mem, agrees⟩
  · contradiction

/-- No operation has two patterns. -/
theorem nodup_patterns : (patterns.map fun pattern => pattern.2.2).Nodup := by
  decide +kernel

theorem and_eq_of_ofWord? {mask value word : Word} {opcode : Opcode}
    (mem : (mask, value, opcode) ∈ patterns) (found : ofWord? word = some opcode) :
    word &&& mask = value := by
  obtain ⟨_, _, otherMem, agrees⟩ := exists_pattern found
  cases List.inj_on_of_nodup_map nodup_patterns mem otherMem rfl
  exact agrees

/-- Every bit of a word belongs to the pattern or to the operands, or tells the byte
form. -/
theorem bit_cases : ∀ pattern ∈ patterns, ∀ position < 16,
    pattern.1.getLsbD position ∨ position < pattern.2.2.fieldBits ∨
      pattern.2.2.allowsBytes ∧ position = 15 := by
  decide +kernel

/-- An instruction word is known by its operation, its form and its operands. -/
theorem eq_of_ofWord? {opcode : Opcode} {first second : Word}
    (isFirst : ofWord? first = some opcode) (isSecond : ofWord? second = some opcode)
    (sameForm : opcode.isByteForm first = opcode.isByteForm second)
    (sameFields : SameBits first second 0 opcode.fieldBits) : first = second := by
  obtain ⟨mask, value, mem, agrees⟩ := exists_pattern isFirst
  have sameMasked : first &&& mask = second &&& mask :=
    agrees.trans (and_eq_of_ofWord? mem isSecond).symm
  apply BitVec.eq_of_getLsbD_eq
  intro position inWord
  rcases bit_cases _ mem position inWord with fixed | isField | ⟨allowsBytes, rfl⟩
  · have bit := congrArg (BitVec.getLsbD · position) sameMasked
    simpa [fixed] using bit
  · exact sameFields position (Nat.zero_le _) isField
  · simpa [isByteForm, allowsBytes] using sameForm

/-- Bit 4 tells the two operations on flags apart. -/
theorem eq_of_getLsbD_four {word : Word} {opcode : Opcode} (found : ofWord? word = some opcode)
    (isFlags : opcode = .clearCc ∨ opcode = .setCc) :
    opcode = if word.getLsbD 4 then .setCc else .clearCc := by
  rcases isFlags with rfl | rfl
  · have masked : word &&& 0o177760 = 0o240 := and_eq_of_ofWord? (by decide) found
    have unset : word.getLsbD 4 = false := by
      simpa using congrArg (BitVec.getLsbD · 4) masked
    rw [unset]
    rfl
  · have masked : word &&& 0o177760 = 0o260 := and_eq_of_ofWord? (by decide) found
    have isSet : word.getLsbD 4 = true := by
      simpa using congrArg (BitVec.getLsbD · 4) masked
    rw [isSet]
    rfl

theorem eq_of_flags {opcode : Opcode} {first second : Word} (isFirst : ofWord? first = some opcode)
    (isSecond : ofWord? second = some opcode) (isFlags : opcode = .clearCc ∨ opcode = .setCc)
    (sameMask : first.extractLsb' 0 4 = second.extractLsb' 0 4) : first = second := by
  have sameFields : SameBits first second 0 4 := .of_extractLsb' sameMask
  rcases isFlags with rfl | rfl
  · exact eq_of_ofWord? isFirst isSecond rfl sameFields
  · exact eq_of_ofWord? isFirst isSecond rfl sameFields

end Opcode

end Pdp11
