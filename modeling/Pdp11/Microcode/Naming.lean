import Pdp11.Microcode.Op

/-!
# Names in microcode

Registers, widths, operations and conditions have one name each, by which the
text of a micro-operation refers to them.
-/

namespace Pdp11

/-- Values of a type with their names. -/
abbrev Naming (α : Type) := List (String × α)

namespace Naming

variable {α : Type}

/-- The value with the given name. -/
def value? (naming : Naming α) (name : String) : Option α :=
  naming.lookup name

/-- The name of `value`, empty if it has none. -/
def name [DecidableEq α] (naming : Naming α) (value : α) : String :=
  ((naming.find? fun entry => entry.2 = value).map (·.1)).getD ""

end Naming

/-- The names of the registers. -/
def Reg.naming : Naming Reg :=
  [("R0", .r0), ("R1", .r1), ("R2", .r2), ("R3", .r3), ("R4", .r4), ("R5", .r5), ("Sp", .sp),
    ("Pc", .pc), ("S0", .s0), ("S1", .s1), ("S2", .s2), ("D0", .d0), ("D1", .d1), ("D2", .d2),
    ("T0", .t0), ("T1", .t1)]

/-- The names of the widths. -/
def Width.naming : Naming Width :=
  [("Byte", .byte), ("Word", .word)]

/-- The names of the trap classes. -/
def TrapClass.naming : Naming TrapClass :=
  [("OddAddress", .oddAddress), ("BusError", .busError), ("MmuAbort", .mmuAbort),
    ("Illegal", .illegal), ("Reserved", .reserved), ("Breakpoint", .breakpoint), ("Iot", .iot),
    ("Emt", .emt), ("Trap", .trap), ("StackOverflow", .stackOverflow), ("MmuTrap", .mmuTrap),
    ("Trace", .trace)]

/-- The names of the operations on two operands. -/
def AluOp.naming : Naming AluOp :=
  [("Add", .add), ("AddCarry", .addCarry), ("Sub", .sub), ("SubCarry", .subCarry),
    ("Inc", .inc), ("Dec", .dec), ("Neg", .neg), ("And", .and), ("Or", .or), ("Xor", .xor),
    ("Not", .not)]

/-- The names of the shifts. -/
def ShiftOp.naming : Naming ShiftOp :=
  [("Asr", .asr), ("Asl", .asl), ("Ror", .ror), ("Rol", .rol)]

/-- The names of the rules for condition codes. -/
def FlagRule.naming : Naming FlagRule :=
  [("Logical", .logical), ("Clear", .clear), ("Complement", .complement),
    ("Increment", .increment), ("Decrement", .decrement), ("Negate", .negate),
    ("AddCarry", .addCarry), ("SubCarry", .subCarry), ("Test", .test), ("Add", .add),
    ("Subtract", .subtract), ("Shift", .shift), ("SwapBytes", .swapBytes),
    ("SignExtend", .signExtend), ("Multiply", .multiply), ("Divide", .divide),
    ("ArithmeticShift", .arithmeticShift),
    ("ArithmeticShiftCombined", .arithmeticShiftCombined)]

/-- The names of the conditions on condition codes. -/
def FlagCondition.naming : Naming FlagCondition :=
  [("Always", .always), ("Ne", .ne), ("Eq", .eq), ("Ge", .ge), ("Lt", .lt), ("Gt", .gt),
    ("Le", .le), ("Pl", .pl), ("Mi", .mi), ("Hi", .hi), ("Los", .los), ("Vc", .vc),
    ("Vs", .vs), ("Cc", .cc), ("Cs", .cs)]

/-- The names of the choices of a mode. -/
def ModeChoice.naming : Naming ModeChoice :=
  [("Current", .current), ("Previous", .previous), ("Kernel", .kernel)]

/-- The names of the spaces. -/
def Space.naming : Naming Space :=
  [("Data", .data), ("Instruction", .instruction)]

/-- The micro-operations without arguments. -/
def MicroOp.plainNaming : Naming MicroOp :=
  [("Nop", .nop), ("Halt", .halt), ("Wait", .wait), ("Reset", .reset),
    ("ForceKernel", .forceKernel), ("StackGuard", .stackGuard),
    ("InhibitTrace", .inhibitTrace)]

end Pdp11
