import Pdp11.Instruction.Listing
import Pdp11.Microcode.Program

/-!
# Addresses relative to the program counter

An operand whose extension word is a distance from the program counter has a
fixed address. A listing prints this address, and the program takes it as the
only constant in the address register of the operand.
-/

namespace Pdp11

/-! ## Operands and their streams -/

/-- An operand, the scratch registers it is given, and the stream that its
extension word comes from. -/
structure PlacedOperand where
  operand : Operand
  slot : OperandSlot
  stream : InstructionStream

namespace PlacedOperand

/-- The operand as a listing shows it. -/
def text (placed : PlacedOperand) : String :=
  placed.operand.text placed.stream

/-- The extension word is a distance from the program counter. -/
def IsRelative (placed : PlacedOperand) : Prop :=
  placed.operand.reg = .pc ∧
    (placed.operand.mode = .index ∨ placed.operand.mode = .indexDeferred)

theorem text_of_isRelative {placed : PlacedOperand} (relative : placed.IsRelative) :
    placed.text = (if placed.operand.mode.isDeferred then "@" else "") ++
      octalWord placed.stream.relativeAddress := by
  rcases relative with ⟨isPc, index | index⟩
  · simp [text, Operand.text, isPc, index, AddressingMode.isDeferred]
  · simp [text, Operand.text, isPc, index, AddressingMode.isDeferred]

theorem place_of_isRelative {placed : PlacedOperand} (relative : placed.IsRelative)
    (slot : OperandSlot) (stream : InstructionStream) :
    placed.operand.place slot stream = .memory slot.address := by
  rcases relative with ⟨-, index | index⟩
  · simp [Operand.place, index]
  · simp [Operand.place, index]

end PlacedOperand

namespace Instruction

variable (instruction : Instruction)

/-- The operands in the order in which they are found. -/
def placedOperands : List PlacedOperand :=
  match instruction.format with
  | .sourceDest =>
    [{ operand := instruction.source, slot := .source, stream := instruction.stream },
      { operand := instruction.destination
        slot := .destination
        stream := instruction.source.rest instruction.stream }]
  | .singleSource | .registerSource =>
    [{ operand := instruction.destination, slot := .source, stream := instruction.stream }]
  | .singleDest | .registerDest =>
    [{ operand := instruction.destination, slot := .destination, stream := instruction.stream }]
  | .noOperand | .registerUnary | .immediateUnary | .offsetCount | .branch => []

/-- The operand column of a listing, field by field. -/
def operandFields : List String :=
  let texts := instruction.placedOperands.map PlacedOperand.text
  match instruction.format with
  | .registerSource => texts ++ [instruction.registerField.text]
  | .registerDest => instruction.registerField.text :: texts
  | _ => texts

theorem operandText_of_operands (takesOperands : instruction.placedOperands ≠ []) :
    instruction.operandText = ",".intercalate instruction.operandFields := by
  unfold operandText operandFields
  unfold placedOperands at takesOperands ⊢
  cases format : instruction.format <;> simp [format] at takesOperands ⊢ <;> rfl

end Instruction

/-! ## The addresses that a program is given -/

/-- The constant that the micro-operation takes as the address of an operand. -/
def MicroOp.addressImmediate? (slot : OperandSlot) : MicroOp → Option Word
  | loadImm dst value => if dst = slot.address then some value else none
  | _ => none

/-- The constants that `ops` take as the address of an operand. -/
def addressImmediates (slot : OperandSlot) (ops : List MicroOp) : List Word :=
  ops.filterMap (MicroOp.addressImmediate? slot)

section AddressImmediates

variable (slot : OperandSlot)

@[simp]
theorem addressImmediates_nil : addressImmediates slot [] = [] :=
  rfl

@[simp]
theorem addressImmediates_append (first second : List MicroOp) :
    addressImmediates slot (first ++ second) =
      addressImmediates slot first ++ addressImmediates slot second :=
  List.filterMap_append

@[simp]
theorem addressImmediates_cons (op : MicroOp) (ops : List MicroOp) :
    addressImmediates slot (op :: ops) =
      (op.addressImmediate? slot).toList ++ addressImmediates slot ops := by
  rw [addressImmediates, List.filterMap_cons]
  cases op.addressImmediate? slot with
  | none => rfl
  | some value => rfl

@[simp]
theorem addressImmediate?_of_ne {op : MicroOp} (ne : ∀ dst value, op ≠ .loadImm dst value) :
    op.addressImmediate? slot = none := by
  cases op with
  | loadImm dst value => exact absurd rfl (ne dst value)
  | _ => rfl

@[simp]
theorem addressImmediate?_loadImm_value (other : OperandSlot) (value : Word) :
    (MicroOp.loadImm other.value value).addressImmediate? slot = none := by
  cases slot <;> cases other <;> rfl

@[simp]
theorem addressImmediates_stepRegister (reg : Reg) (amount : Word) :
    addressImmediates slot (MicroOp.stepRegister reg amount) = [] := by
  unfold MicroOp.stepRegister
  split <;> rfl

@[simp]
theorem addressImmediates_push (src : Reg) : addressImmediates slot (MicroOp.push src) = [] := by
  simp [MicroOp.push]

@[simp]
theorem addressImmediates_pop (dst : Reg) : addressImmediates slot (MicroOp.pop dst) = [] := by
  simp [MicroOp.pop]

@[simp]
theorem addressImmediate?_readRegister (other : OperandSlot) (src : Reg)
    (stream : InstructionStream) :
    (MicroOp.readRegister other.value src stream).addressImmediate? slot = none := by
  unfold MicroOp.readRegister
  split
  · simp
  · rfl

@[simp]
theorem addressImmediate?_fetch (operand : ResolvedOperand) (width : Width)
    (other : OperandSlot) : (operand.fetch width other).addressImmediate? slot = none := by
  rcases operand with ⟨place, ops, rest⟩
  cases place with
  | register reg => simp [ResolvedOperand.fetch]
  | memory address => rfl
  | immediate value address => simp [ResolvedOperand.fetch]

/-- A source is never assigned to, and the address of an operand in memory was
found before. -/
def Located (operand : ResolvedOperand) : Prop :=
  slot = .source ∨ ∃ address, operand.place = .memory address

variable {slot}

theorem Located.assign {operand : ResolvedOperand} (located : Located slot operand) (src : Reg)
    (width : Width) (extend : Bool) (space : AccessSpace) :
    addressImmediates slot (operand.assign src width extend space) = [] := by
  rcases operand with ⟨place, ops, rest⟩
  cases place with
  | register reg =>
      cases width with
      | word => rfl
      | byte => cases extend <;> rfl
  | memory address => rfl
  | immediate value address =>
      rcases located with rfl | ⟨_, inMemory⟩
      · rfl
      · contradiction

theorem Located.target {operand : ResolvedOperand} (located : Located slot operand) {target : Reg}
    {resolve : List MicroOp} (leads : operand.target? = some (target, resolve)) :
    addressImmediates slot resolve = [] := by
  rcases operand with ⟨place, ops, rest⟩
  cases place with
  | register reg => contradiction
  | memory address =>
      cases leads
      rfl
  | immediate value address =>
      cases leads
      rcases located with rfl | ⟨_, inMemory⟩
      · rfl
      · contradiction

variable (slot)

/-- Each slot has an address register of its own. -/
theorem addressImmediates_addressOps_of_ne {other : OperandSlot} (ne : slot ≠ other)
    (operand : Operand) (width : Width) (stream : InstructionStream) :
    addressImmediates slot (operand.addressOps width other stream) = [] := by
  have apart : ¬ other.address = slot.address := by
    cases slot <;> cases other <;> first | contradiction | decide
  rcases operand with ⟨mode, reg⟩
  cases mode with
  | register | registerDeferred | autodecrement | autodecrementDeferred =>
      simp [Operand.addressOps, MicroOp.follow]
  | autoincrement | autoincrementDeferred | index | indexDeferred =>
      by_cases isPc : reg = .pc
      · simp [Operand.addressOps, isPc, MicroOp.addressImmediate?, MicroOp.follow, apart]
      · simp [Operand.addressOps, isPc, MicroOp.follow]

theorem addressImmediates_addressOps {placed : PlacedOperand} (relative : placed.IsRelative)
    (width : Width) :
    addressImmediates placed.slot (placed.operand.addressOps width placed.slot placed.stream) =
      [placed.stream.relativeAddress] := by
  rcases relative with ⟨isPc, index | index⟩
  · simp [Operand.addressOps, isPc, index, MicroOp.addressImmediate?]
  · simp [Operand.addressOps, isPc, index, MicroOp.addressImmediate?, MicroOp.follow]

end AddressImmediates

namespace Instruction

variable (instruction : Instruction)

/-- What finds the operands of the instruction. -/
def operandOps : List MicroOp :=
  instruction.placedOperands.flatMap fun placed =>
    placed.operand.addressOps instruction.width placed.slot placed.stream

/-- The destination keeps the constants in `slot` as they are. -/
def Keeps (slot : OperandSlot) : Prop :=
  ∀ width stream, Located slot (instruction.destination.resolve width .destination stream)

variable {instruction} {slot : OperandSlot}

theorem addressImmediates_readSource :
    addressImmediates slot instruction.readSource.1 =
      addressImmediates slot
        (instruction.source.addressOps instruction.width .source instruction.stream) ++
      addressImmediates slot (instruction.destination.addressOps instruction.width .destination
        (instruction.source.rest instruction.stream)) := by
  simp [readSource, Operand.resolve]

theorem addressImmediates_readOperand {use : List MicroOp} (width : Width)
    (uses : addressImmediates slot use = []) :
    addressImmediates slot (instruction.readOperand width ++ use) =
      addressImmediates slot
        (instruction.destination.addressOps width .source instruction.stream) := by
  simp [readOperand, Operand.resolve, uses]

theorem addressImmediates_combine (keeps : instruction.Keeps slot) {compute : List MicroOp}
    (computes : addressImmediates slot compute = []) (rule : FlagRule) :
    addressImmediates slot (instruction.combine compute rule) =
      addressImmediates slot instruction.readSource.1 := by
  have located : Located slot instruction.readSource.2 := keeps _ _
  simp [combine, computes, located.assign]

theorem addressImmediates_compare {compute : MicroOp}
    (computes : compute.addressImmediate? slot = none) (rule : FlagRule) :
    addressImmediates slot (instruction.compare compute rule) =
      addressImmediates slot instruction.readSource.1 := by
  simp [compare, computes]

theorem addressImmediates_move (keeps : instruction.Keeps slot) :
    addressImmediates slot instruction.move = addressImmediates slot instruction.readSource.1 := by
  have located : Located slot instruction.readSource.2 := keeps _ _
  simp [move, located.assign]

theorem addressImmediates_modify (keeps : instruction.Keeps slot) {compute : MicroOp}
    (computes : compute.addressImmediate? slot = none) (rule : FlagRule) :
    addressImmediates slot (instruction.modify compute rule) =
      addressImmediates slot (instruction.resolveDestination instruction.width).ops := by
  have located : Located slot (instruction.resolveDestination instruction.width) := keeps _ _
  simp [modify, computes, located.assign]

theorem addressImmediates_overwrite (keeps : instruction.Keeps slot) {compute : MicroOp}
    (computes : compute.addressImmediate? slot = none) (width : Width) (extend : Bool)
    (rule : FlagRule) :
    addressImmediates slot (instruction.overwrite compute width extend rule) =
      addressImmediates slot (instruction.resolveDestination width).ops := by
  have located : Located slot (instruction.resolveDestination width) := keeps _ _
  simp [overwrite, computes, located.assign]

theorem addressImmediates_test :
    addressImmediates slot instruction.test =
      addressImmediates slot (instruction.resolveDestination instruction.width).ops := by
  simp [test]

theorem addressImmediates_exclusiveOr (keeps : instruction.Keeps slot) :
    addressImmediates slot instruction.exclusiveOr =
      addressImmediates slot (instruction.resolveDestination .word).ops := by
  have located : Located slot (instruction.resolveDestination .word) := keeps _ _
  have copies := addressImmediate?_readRegister slot .source instruction.registerField
    instruction.stream
  simp only [OperandSlot.value] at copies
  simp [exclusiveOr, copies, located.assign]

theorem addressImmediates_jump (keeps : instruction.Keeps slot) :
    addressImmediates slot instruction.jump =
      addressImmediates slot (instruction.resolveDestination .word).ops := by
  have located : Located slot (instruction.resolveDestination .word) := keeps _ _
  unfold jump
  cases target : (instruction.resolveDestination .word).target? with
  | none => simp [target]
  | some found => simp [target, located.target target]

theorem addressImmediates_jumpToSubroutine (keeps : instruction.Keeps slot) :
    addressImmediates slot instruction.jumpToSubroutine =
      addressImmediates slot (instruction.resolveDestination .word).ops := by
  have located : Located slot (instruction.resolveDestination .word) := keeps _ _
  unfold jumpToSubroutine
  cases target : (instruction.resolveDestination .word).target? with
  | none => simp [target]
  | some found => simp [target, located.target target]

theorem addressImmediates_moveFromPrevious (space : Space) :
    addressImmediates slot (instruction.moveFromPrevious space) =
      addressImmediates slot
        (instruction.destination.addressOps .word .source instruction.stream) := by
  have constant (value : Word) := addressImmediate?_loadImm_value slot .source value
  simp only [OperandSlot.value] at constant
  cases place : (instruction.destination.resolve .word .source instruction.stream).place with
  | register reg =>
      by_cases isSp : reg = .sp
      · simp [moveFromPrevious, place, isSp]
        rfl
      · simp [moveFromPrevious, place, isSp]
        rfl
  | memory address =>
      simp [moveFromPrevious, place]
      rfl
  | immediate value address =>
      simp [moveFromPrevious, place, constant]
      rfl

theorem addressImmediates_moveToPrevious (keeps : instruction.Keeps slot) (space : Space) :
    addressImmediates slot (instruction.moveToPrevious space) =
      addressImmediates slot (instruction.resolveDestination .word).ops := by
  have located : Located slot (instruction.resolveDestination .word) := keeps _ _
  by_cases isSp : (instruction.resolveDestination .word).place = .register .sp
  · simp [moveToPrevious, isSp]
  · simp [moveToPrevious, isSp, located.assign]

theorem addressImmediates_operandOps_of_sourceDest (format : instruction.format = .sourceDest) :
    addressImmediates slot instruction.readSource.1 =
      addressImmediates slot instruction.operandOps := by
  simp [addressImmediates_readSource, operandOps, placedOperands, format]

theorem addressImmediates_operandOps_of_source
    (format : instruction.format = .singleSource ∨ instruction.format = .registerSource) :
    addressImmediates slot
        (instruction.destination.addressOps instruction.width .source instruction.stream) =
      addressImmediates slot instruction.operandOps := by
  rcases format with single | register
  · simp [operandOps, placedOperands, single]
  · simp [operandOps, placedOperands, register]

theorem addressImmediates_operandOps_of_destination
    (format : instruction.format = .singleDest ∨ instruction.format = .registerDest) :
    addressImmediates slot (instruction.resolveDestination instruction.width).ops =
      addressImmediates slot instruction.operandOps := by
  rcases format with single | register
  · simp [operandOps, placedOperands, single, resolveDestination, Operand.resolve]
  · simp [operandOps, placedOperands, register, resolveDestination, Operand.resolve]

/-- A program takes no constants as addresses of operands but those that its
operands are found with. -/
theorem addressImmediates_program (keeps : instruction.Keeps slot)
    (takesOperands : instruction.placedOperands ≠ []) :
    addressImmediates slot instruction.program = addressImmediates slot instruction.operandOps := by
  rcases instruction with ⟨pc, word, opcode, extension⟩
  cases opcode with
  | mov =>
      exact (addressImmediates_move keeps).trans
        (addressImmediates_operandOps_of_sourceDest rfl)
  | cmp | bit =>
      exact (addressImmediates_compare (by simp) _).trans
        (addressImmediates_operandOps_of_sourceDest rfl)
  | bic | bis | add | sub =>
      exact (addressImmediates_combine keeps (by simp) _).trans
        (addressImmediates_operandOps_of_sourceDest rfl)
  | com | inc | dec | neg | adc | sbc | ror | rol | asr | asl | swab =>
      exact (addressImmediates_modify keeps (by simp) _).trans
        (addressImmediates_operandOps_of_destination (.inl rfl))
  | clr =>
      have cleared : (MicroOp.loadImm .t0 0).addressImmediate? slot = none := by
        cases slot <;> rfl
      exact (addressImmediates_overwrite keeps cleared _ _ _).trans
        (addressImmediates_operandOps_of_destination (.inl rfl))
  | sxt | mfps =>
      exact (addressImmediates_overwrite keeps (by simp) _ _ _).trans
        (addressImmediates_operandOps_of_destination (.inl rfl))
  | tst =>
      exact addressImmediates_test.trans (addressImmediates_operandOps_of_destination (.inl rfl))
  | jmp =>
      exact (addressImmediates_jump keeps).trans
        (addressImmediates_operandOps_of_destination (.inl rfl))
  | jsr =>
      exact (addressImmediates_jumpToSubroutine keeps).trans
        (addressImmediates_operandOps_of_destination (.inr rfl))
  | xor =>
      exact (addressImmediates_exclusiveOr keeps).trans
        (addressImmediates_operandOps_of_destination (.inr rfl))
  | mtpi | mtpd =>
      exact (addressImmediates_moveToPrevious keeps _).trans
        (addressImmediates_operandOps_of_destination (.inl rfl))
  | mfpi | mfpd =>
      exact (addressImmediates_moveFromPrevious _).trans
        (addressImmediates_operandOps_of_source (.inl rfl))
  | mtps =>
      exact (addressImmediates_readOperand _ (by simp)).trans
        (addressImmediates_operandOps_of_source (.inl rfl))
  | mul | div | ash | ashc =>
      exact (addressImmediates_readOperand _ (by simp)).trans
        (addressImmediates_operandOps_of_source (.inr rfl))
  | _ => contradiction

theorem keeps_of_isRelative {placed : PlacedOperand} (mem : placed ∈ instruction.placedOperands)
    (relative : placed.IsRelative) : instruction.Keeps placed.slot := by
  have only : placed.slot = .source ∨ placed.operand = instruction.destination := by
    unfold placedOperands at mem
    cases format : instruction.format <;> simp [format] at mem
    case sourceDest => rcases mem with rfl | rfl <;> simp
    all_goals simp [mem]
  intro width stream
  rcases only with source | destination
  · exact .inl source
  · have place := placed.place_of_isRelative relative .destination stream
    rw [destination] at place
    exact .inr ⟨_, place⟩

/-- The address that a relative operand reaches is the only constant that its
program takes as the address of the operand. -/
theorem addressImmediates_of_isRelative {placed : PlacedOperand}
    (mem : placed ∈ instruction.placedOperands) (relative : placed.IsRelative) :
    addressImmediates placed.slot instruction.program = [placed.stream.relativeAddress] := by
  have found := addressImmediates_addressOps relative instruction.width
  have keeps := keeps_of_isRelative mem relative
  rw [addressImmediates_program keeps (List.ne_nil_of_mem mem)]
  unfold operandOps
  unfold placedOperands at mem ⊢
  cases format : instruction.format with
  | sourceDest =>
      simp only [format, List.mem_cons, List.not_mem_nil, or_false] at mem
      rcases mem with rfl | rfl
      · simp [found, addressImmediates_addressOps_of_ne]
      · simp [found, addressImmediates_addressOps_of_ne]
  | singleSource | registerSource | singleDest | registerDest =>
      simp only [format, List.mem_singleton] at mem
      subst mem
      simp [found]
  | _ => simp [format] at mem

end Instruction

end Pdp11
