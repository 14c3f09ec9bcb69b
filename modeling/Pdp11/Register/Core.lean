import Pdp11.Status.Psw

/-!
# Registers and the cells behind them

Micro-operations name registers as an instruction sees them. Which storage
cell answers to a name depends on the status word: `R0` to `R5` exist once per
register set and the stack pointer once per mode, while the program counter
and the scratch registers exist once.
-/

namespace Pdp11

/-- The registers as a micro-operation names them: eight that instructions can
name, and eight scratch registers. -/
inductive Reg
  | r0
  | r1
  | r2
  | r3
  | r4
  | r5
  | sp
  | pc
  /-- Value of the source operand. -/
  | s0
  /-- Address of the source operand. -/
  | s1
  | s2
  /-- Value of the destination operand. -/
  | d0
  /-- Address of the destination operand. -/
  | d1
  | d2
  | t0
  | t1
deriving DecidableEq

-- Named, and over the zero of numerals, so that the number of a cell elaborates
-- alike in every module.
instance neZero_generalCount : @NeZero Nat Zero.ofOfNat0 6 := ⟨by decide⟩

instance neZero_scratchCount : @NeZero Nat Zero.ofOfNat0 8 := ⟨by decide⟩

/-- A place that stores one word of register contents. -/
inductive Cell
  | general (alternate : Bool) (number : Fin 6)
  | stackPointer (mode : Mode)
  | programCounter
  | scratch (number : Fin 8)
deriving DecidableEq

namespace Reg

/-- The registers in the order of their numbers. -/
def all : List Reg :=
  [r0, r1, r2, r3, r4, r5, sp, pc, s0, s1, s2, d0, d1, d2, t0, t1]

/-- The number of a register; instructions can name those below eight. -/
def number : Reg → Fin 16
  | r0 => 0
  | r1 => 1
  | r2 => 2
  | r3 => 3
  | r4 => 4
  | r5 => 5
  | sp => 6
  | pc => 7
  | s0 => 8
  | s1 => 9
  | s2 => 10
  | d0 => 11
  | d1 => 12
  | d2 => 13
  | t0 => 14
  | t1 => 15

/-- The registers that an instruction word can name. -/
def isGeneral (reg : Reg) : Bool :=
  reg.number < 8

/-- The register that a three-bit field of an instruction names. -/
def ofField (field : BitVec 3) : Reg :=
  match field.toNat with
  | 0 => r0
  | 1 => r1
  | 2 => r2
  | 3 => r3
  | 4 => r4
  | 5 => r5
  | 6 => sp
  | _ => pc

theorem isGeneral_ofField (field : BitVec 3) : (ofField field).isGeneral := by
  unfold ofField
  split <;> rfl

theorem ofField_inj {first second : BitVec 3} : ofField first = ofField second ↔ first = second := by
  revert first second
  decide

/-- The second register of the pair that starts at `reg`; an odd register is
its own second. -/
def pairSecond (reg : Reg) : Reg :=
  match reg with
  | r0 => r1
  | r2 => r3
  | r4 => r5
  | sp => pc
  | other => other

/-- The cell that a register stands for under `psw`. -/
def cell (reg : Reg) (psw : Psw) : Cell :=
  match reg with
  | r0 => .general psw.alternateSet 0
  | r1 => .general psw.alternateSet 1
  | r2 => .general psw.alternateSet 2
  | r3 => .general psw.alternateSet 3
  | r4 => .general psw.alternateSet 4
  | r5 => .general psw.alternateSet 5
  | sp => .stackPointer psw.mode
  | pc => .programCounter
  | s0 => .scratch 0
  | s1 => .scratch 1
  | s2 => .scratch 2
  | d0 => .scratch 3
  | d1 => .scratch 4
  | d2 => .scratch 5
  | t0 => .scratch 6
  | t1 => .scratch 7

/-- Under one status word no two registers share a cell. -/
theorem cell_inj {psw : Psw} {first second : Reg} :
    first.cell psw = second.cell psw ↔ first = second := by
  constructor
  · intro sameCell
    cases first <;> cases second <;> first | rfl | simp [cell] at sameCell
  · rintro rfl
    rfl

end Reg

namespace Cell

/-- The cells in the order in which a register file stores them. -/
def all : Vector Cell 25 :=
  #v[.general false 0, .general false 1, .general false 2,
    .general false 3, .general false 4, .general false 5,
    .general true 0, .general true 1, .general true 2,
    .general true 3, .general true 4, .general true 5,
    .stackPointer .kernel, .stackPointer .supervisor,
    .stackPointer .undefined, .stackPointer .user,
    .programCounter,
    .scratch 0, .scratch 1, .scratch 2, .scratch 3,
    .scratch 4, .scratch 5, .scratch 6, .scratch 7]

/-- Position of a cell in `Cell.all`. -/
def index : Cell → Fin 25
  | general alternate number =>
    ⟨6 * alternate.toNat + number, by
      have := alternate.toNat_lt
      omega⟩
  | stackPointer mode =>
    ⟨12 + mode.code.toNat, by
      have := mode.code.isLt
      omega⟩
  | programCounter => 16
  | scratch number => ⟨17 + number, by omega⟩

theorem get_all_index (cell : Cell) : all.get cell.index = cell := by
  cases cell with
  | general alternate number =>
    revert alternate number
    decide
  | stackPointer mode => cases mode <;> rfl
  | programCounter => rfl
  | scratch number =>
    revert number
    decide

theorem index_inj {first second : Cell} : first.index = second.index ↔ first = second := by
  constructor
  · intro sameIndex
    have sameCell := congrArg all.get sameIndex
    rwa [get_all_index, get_all_index] at sameCell
  · rintro rfl
    rfl

end Cell

end Pdp11
