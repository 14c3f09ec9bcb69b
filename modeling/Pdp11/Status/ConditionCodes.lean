import Pdp11.Word

/-!
# Condition codes

The four flags that arithmetic leaves behind and branches test. Packed into a
code, negative is the highest bit and carry the lowest.
-/

namespace Pdp11

/-- The four flags. -/
structure ConditionCodes where
  negative : Bool
  zero : Bool
  overflow : Bool
  carry : Bool
deriving DecidableEq

namespace ConditionCodes

/-- The flags packed into four bits. -/
def code (flags : ConditionCodes) : BitVec 4 :=
  BitVec.ofBool flags.negative ++ BitVec.ofBool flags.zero ++
    BitVec.ofBool flags.overflow ++ BitVec.ofBool flags.carry

/-- The flags that are packed in `code`. -/
def ofCode (code : BitVec 4) : ConditionCodes where
  negative := code.getLsbD 3
  zero := code.getLsbD 2
  overflow := code.getLsbD 1
  carry := code.getLsbD 0

@[simp]
theorem ofCode_code (flags : ConditionCodes) : ofCode flags.code = flags := by
  obtain ⟨negative, zero, overflow, carry⟩ := flags
  cases negative <;> cases zero <;> cases overflow <;> cases carry <;> rfl

@[simp]
theorem code_ofCode (code : BitVec 4) : (ofCode code).code = code := by
  revert code
  decide

end ConditionCodes

end Pdp11
