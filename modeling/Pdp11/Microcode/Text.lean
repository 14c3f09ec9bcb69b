import Pdp11.Microcode.Naming

/-!
# The text of a micro-operation

A micro-operation is written as its name and its arguments, with one blank
between them and numbers in decimal. Only the amount of a step has a sign.
-/

namespace Pdp11

/-- The decimal digits of an unsigned value. -/
def decimal {w : Nat} (value : BitVec w) : String :=
  toString value.toNat

/-- The number that `text` stands for, cut to `w` bits. -/
def ofDecimal? (w : Nat) (text : String) : Option (BitVec w) :=
  text.toInt?.map (BitVec.ofInt w)

/-- The name of a register. -/
def Reg.name : Reg → String :=
  Reg.naming.name

/-- The register with the given name. -/
def Reg.ofName? : String → Option Reg :=
  Reg.naming.value?

/-- The name of a width. -/
def Width.name : Width → String :=
  Width.naming.name

/-- The width with the given name. -/
def Width.ofName? : String → Option Width :=
  Width.naming.value?

namespace AccessSpace

/-- The mode and the space, each by its name. -/
def words (select : AccessSpace) : List String :=
  [ModeChoice.naming.name select.mode, Space.naming.name select.space]

/-- The choice that two words stand for. -/
def ofWords? (mode space : String) : Option AccessSpace := do
  let mode ← ModeChoice.naming.value? mode
  let space ← Space.naming.value? space
  return { mode, space }

end AccessSpace

namespace PswRule

/-- The rule, with the register that it names behind a colon. -/
def text : PswRule → String
  | ordinary => "Ordinary"
  | exception interrupted => "Exception:" ++ interrupted.name
  | mtps => "Mtps"

/-- The rule that `text` stands for. -/
def ofText? (text : String) : Option PswRule :=
  match text.splitOn ":" with
  | ["Ordinary"] => some ordinary
  | ["Mtps"] => some mtps
  | ["Exception", interrupted] => (Reg.ofName? interrupted).map exception
  | _ => none

end PswRule

namespace BranchCondition

/-- The condition, with the register that it names behind a colon. -/
def text : BranchCondition → String
  | flags condition => FlagCondition.naming.name condition
  | registerNonZero reg => "RegisterNonZero:" ++ reg.name

/-- The condition that `text` stands for. -/
def ofText? (text : String) : Option BranchCondition :=
  match text.splitOn ":" with
  | ["RegisterNonZero", reg] => (Reg.ofName? reg).map registerNonZero
  | _ => (FlagCondition.naming.value? text).map flags

end BranchCondition

namespace MicroOp

/-- The name and the arguments. -/
def words : MicroOp → List String
  | move dst src => ["Move", dst.name, src.name]
  | loadImm dst value => ["LoadImm", dst.name, decimal value]
  | addImm dst src value => ["AddImm", dst.name, src.name, decimal value]
  | step reg amount => ["Step", reg.name, toString amount.toInt]
  | load dst address width space =>
    ["Load", dst.name, address.name, width.name] ++ space.words
  | store address src width space =>
    ["Store", address.name, src.name, width.name] ++ space.words
  | insertByte dst src => ["InsertByte", dst.name, src.name]
  | signExtendByte dst src => ["SignExtendByte", dst.name, src.name]
  | readPreviousSp dst => ["ReadPreviousSp", dst.name]
  | writePreviousSp src => ["WritePreviousSp", src.name]
  | readPsw dst => ["ReadPsw", dst.name]
  | loadPsw src rule => ["LoadPsw", src.name, rule.text]
  | alu op dst first second width =>
    ["Alu", AluOp.naming.name op, dst.name, first.name, second.name, width.name]
  | shift op dst src width =>
    ["Shift", ShiftOp.naming.name op, dst.name, src.name, width.name]
  | swab dst src => ["Swab", dst.name, src.name]
  | signExtend dst => ["SignExtend", dst.name]
  | mul high low first second => ["Mul", high.name, low.name, first.name, second.name]
  | div high low divisor => ["Div", high.name, low.name, divisor.name]
  | shiftArith dst src count => ["ShiftArith", dst.name, src.name, count.name]
  | shiftArithPair high low count => ["ShiftArith32", high.name, low.name, count.name]
  | conditionCodes set mask => ["ConditionCodes", toString set, decimal mask]
  | evalFlags rule value width =>
    ["EvalFlags", FlagRule.naming.name rule, value.name, width.name]
  | setPriority level => ["SetPriority", decimal level]
  | branch condition pc target => ["Branch", condition.text, decimal pc, decimal target]
  | jump pc target => ["Jump", decimal pc, target.name]
  | raiseTrap kind => ["RaiseTrap", TrapClass.naming.name kind]
  | plain => [plainNaming.name plain]

/-- The name and the arguments, with blanks between them. -/
def text (op : MicroOp) : String :=
  " ".intercalate op.words

/-- The micro-operation that `text` stands for. -/
def ofText? (text : String) : Option MicroOp := do
  let reg := Reg.ofName?
  let width := Width.ofName?
  let space := AccessSpace.ofWords?
  let word := ofDecimal? 16
  match text.splitOn " " with
  | ["Move", dst, src] => return move (← reg dst) (← reg src)
  | ["LoadImm", dst, value] => return loadImm (← reg dst) (← word value)
  | ["AddImm", dst, src, value] => return addImm (← reg dst) (← reg src) (← word value)
  | ["Step", stepped, amount] => return step (← reg stepped) (← word amount)
  | ["Load", dst, address, size, mode, half] =>
    return load (← reg dst) (← reg address) (← width size) (← space mode half)
  | ["Store", address, src, size, mode, half] =>
    return store (← reg address) (← reg src) (← width size) (← space mode half)
  | ["InsertByte", dst, src] => return insertByte (← reg dst) (← reg src)
  | ["SignExtendByte", dst, src] => return signExtendByte (← reg dst) (← reg src)
  | ["ReadPreviousSp", dst] => return readPreviousSp (← reg dst)
  | ["WritePreviousSp", src] => return writePreviousSp (← reg src)
  | ["ReadPsw", dst] => return readPsw (← reg dst)
  | ["LoadPsw", src, rule] => return loadPsw (← reg src) (← PswRule.ofText? rule)
  | ["Alu", op, dst, first, second, size] =>
    return alu (← AluOp.naming.value? op) (← reg dst) (← reg first) (← reg second)
      (← width size)
  | ["Shift", op, dst, src, size] =>
    return shift (← ShiftOp.naming.value? op) (← reg dst) (← reg src) (← width size)
  | ["Swab", dst, src] => return swab (← reg dst) (← reg src)
  | ["SignExtend", dst] => return signExtend (← reg dst)
  | ["Mul", high, low, first, second] =>
    return mul (← reg high) (← reg low) (← reg first) (← reg second)
  | ["Div", high, low, divisor] => return div (← reg high) (← reg low) (← reg divisor)
  | ["ShiftArith", dst, src, count] =>
    return shiftArith (← reg dst) (← reg src) (← reg count)
  | ["ShiftArith32", high, low, count] =>
    return shiftArithPair (← reg high) (← reg low) (← reg count)
  | ["ConditionCodes", "true", mask] => return conditionCodes true (← word mask)
  | ["ConditionCodes", "false", mask] => return conditionCodes false (← word mask)
  | ["EvalFlags", rule, value, size] =>
    return evalFlags (← FlagRule.naming.value? rule) (← reg value) (← width size)
  | ["SetPriority", level] => return setPriority (← ofDecimal? 8 level)
  | ["Branch", condition, pc, target] =>
    return branch (← BranchCondition.ofText? condition) (← word pc) (← word target)
  | ["Jump", pc, target] => return jump (← word pc) (← reg target)
  | ["RaiseTrap", kind] => return raiseTrap (← TrapClass.naming.value? kind)
  | [plain] => plainNaming.value? plain
  | _ => none

end MicroOp

end Pdp11
